import Reqx.Library.Occurrences
import Reqx.Core.Proxy
import Reqx.Driver.RequestTexts

/-!
# Rules for hosts that bypass the proxy

A domain rule matches by whole labels. An address as a rule and the network of this
one address agree on the hosts that are written like an address, but the domain rule
also takes off what the network does not.
-/

namespace Reqx

open Text NoProxyRule

/-! ## Hosts without their decoration -/

/-- The host as `normalize_host_key` sees it, before it is put in lower case. -/
def bareHost (host : Text) : Text := trimEndMatches (· = '.') (trim host)

theorem normalizeHostKey_eq_some_iff {host key : Text} :
    normalizeHostKey host = some key ↔
      bareHost host ≠ [] ∧ toAsciiLowercase (bareHost host) = key := by
  have hempty : (toAsciiLowercase (bareHost host)).isEmpty = (bareHost host).isEmpty := by
    rw [toAsciiLowercase, List.isEmpty_map]
  rw [normalizeHostKey, ← bareHost, hempty]
  cases bareHost host with
  | nil => simp
  | cons c t => simp

/-- No whitespace stands before the trailing dots. -/
def TightDots (host : Text) : Prop :=
  ∀ c ∈ (trimEndMatches (· = '.') host).getLast?, isWhitespace c = false

/-- The hosts differ in letter case and trailing dots only. -/
def SameHost (host host' : Text) : Prop :=
  toAsciiLowercase (trimEndMatches (· = '.') host) =
    toAsciiLowercase (trimEndMatches (· = '.') host')

/-- Without whitespace before the dots they are taken off first. -/
theorem TightDots.bareHost_eq {host : Text} (h : TightDots host) :
    bareHost host = (trimEndMatches (· = '.') host).dropWhile isWhitespace := by
  set start := trimEndMatches (· = '.') host with hstart
  set dots := host.rtakeWhile (· = '.') with hdots
  have hparts : start ++ dots = host := List.rdropWhile_append_rtakeWhile
  have hdot : ∀ c ∈ dots, decide (c = '.') = true := fun c hc ↦
    List.mem_rtakeWhile_imp (p := fun c ↦ decide (c = '.')) hc
  have htight : ∀ c ∈ dots, isWhitespace c = false := by
    intro c hc
    rw [of_decide_eq_true (hdot c hc)]
    decide
  have hblank : host.dropWhile isWhitespace = start.dropWhile isWhitespace ++ dots := by
    rw [← hparts, dropWhile_append_of_clean _ htight]
  have hsuffix : start.dropWhile isWhitespace <:+ start := List.dropWhile_suffix _
  have hlast : ∀ c ∈ (start.dropWhile isWhitespace ++ dots).getLast?,
      isWhitespace c = false :=
    forall_getLast?_append (fun c hc ↦ h c (getLast?_of_suffix hsuffix hc)) htight
  have hbare : ∀ c ∈ (start.dropWhile isWhitespace).getLast?, decide (c = '.') = false :=
    fun c hc ↦ getLast?_rdropWhile _ host c (getLast?_of_suffix hsuffix hc)
  rw [bareHost, trim, hblank, trimEndMatches, trimEndMatches,
    rdropWhile_eq_self hlast, rdropWhile_append_of_all _ hdot,
    rdropWhile_eq_self hbare]

theorem SameHost.normalizeHostKey_eq {host host' : Text} (h : SameHost host host')
    (hdots : TightDots host) : normalizeHostKey host = normalizeHostKey host' := by
  have hdots' : TightDots host' := by
    have hlast := congrArg List.getLast? h
    rw [toAsciiLowercase, toAsciiLowercase, List.getLast?_map, List.getLast?_map] at hlast
    intro c hc
    rw [hc] at hlast
    obtain ⟨d, hd, hlower⟩ := Option.map_eq_some_iff.mp hlast
    rw [← isWhitespace_toLower, ← hlower, isWhitespace_toLower]
    exact hdots d hd
  have hbare : toAsciiLowercase (bareHost host) = toAsciiLowercase (bareHost host') := by
    rw [hdots.bareHost_eq, hdots'.bareHost_eq, ← dropWhile_toAsciiLowercase,
      ← dropWhile_toAsciiLowercase, h]
  rw [normalizeHostKey, normalizeHostKey, ← bareHost, ← bareHost, hbare]

/-! ## Domain rules -/

section Domain

variable {deps : Dependencies} {net : Addresses} {text lead host written suffix : Text}
  {port : Option ℕ}

/-- How a rule writes its host: as it is, or an address in brackets. -/
inductive WrittenHost (net : Addresses) (host suffix : Text) : Text → Prop
  | plain : host.head? ≠ some '[' → (suffix = [] → host.count ':' ≠ 1) →
      (suffix ≠ [] → ':' ∉ host) → WrittenHost net host suffix host
  | brackets : ']' ∉ host → (net.parseIpAddr host).isSome = true →
      WrittenHost net host suffix ('[' :: (host ++ [']']))

/-- The port behind the host of a rule. -/
inductive PortText : Text → Option ℕ → Prop
  | none : PortText [] none
  | some {raw : Text} {port : ℕ} : parseU16 raw = some port →
      PortText (':' :: raw) (some port)

/-- A rule of one of the forms `host`, `.host` and `*.host`, with an optional port. Any number of
dots may stand before the host. -/
structure PlainRule (net : Addresses) (text lead host written suffix : Text) (port : Option ℕ) :
    Prop where
  text_eq : trim text = lead ++ (written ++ suffix)
  lead_eq : lead = "*.".toList ∨ ∃ n, lead = List.replicate n '.'
  host_written : WrittenHost net host suffix written
  port : PortText suffix port
  head : ∃ c ∈ written.head?, c = '.' → lead = "*.".toList
  star : lead = [] → ¬ "*.".toList <+: written
  slash : '/' ∉ host

theorem colon_notMem_of_parseU16 {raw : Text} {port : ℕ}
    (h : parseU16 raw = some port) : ':' ∉ raw ∧ '/' ∉ raw := by
  obtain ⟨hparse, -⟩ := Option.filter_eq_some_iff.mp h
  unfold parseU64 at hparse
  split at hparse
  next hdigits =>
    simp only [Bool.and_eq_true, List.all_eq_true] at hdigits
    have hclean {c : Char} (hdigit : c.isDigit = false) (hplus : c ≠ '+') : c ∉ raw := by
      intro hmem
      have hmem' : c ∈ stripPlus raw := by
        unfold stripPlus
        split
        · exact (List.mem_cons.mp hmem).resolve_left hplus
        · exact hmem
      rw [hdigits.1.2 c hmem'] at hdigit
      cases hdigit
    exact ⟨hclean (by decide) (by decide), hclean (by decide) (by decide)⟩
  · cases hparse

/-- The text before the host is taken off. -/
theorem PlainRule.candidate_eq (h : PlainRule net text lead host written suffix port) :
    ((trim text).dropPrefix? "*.".toList).getD ((trim text).dropWhile (· = '.')) =
      written ++ suffix := by
  obtain ⟨c, hc, hdot⟩ := h.head
  obtain ⟨rest, rfl⟩ := List.head?_eq_some_iff.mp hc
  have hkept : lead ≠ "*.".toList →
      (c :: rest ++ suffix).dropWhile (· = '.') = c :: rest ++ suffix := fun hlead ↦
    List.dropWhile_cons_of_neg (by simpa using fun heq ↦ hlead (hdot heq))
  have hnone {t : Text} (ht : ¬ "*.".toList <+: t) : t.dropPrefix? "*.".toList = none := by
    rw [Option.eq_none_iff_forall_ne_some]
    intro behind hdrop
    obtain ⟨start, rfl, hstart⟩ := List.dropPrefix?_eq_some_iff.mp hdrop
    exact ht (eq_of_beq hstart ▸ List.prefix_append _ _)
  rw [h.text_eq]
  rcases h.lead_eq with rfl | ⟨n, rfl⟩
  · rw [List.dropPrefix?_append_of_beq _ (beq_self_eq_true _), Option.getD_some]
  · have hstar : ¬ "*.".toList <+: List.replicate n '.' ++ (c :: rest ++ suffix) := by
      cases n with
      | zero =>
        have hhead : ∀ d ∈ suffix.head?, d ∉ "*.".toList := by
          intro d hd
          cases h.port with
          | none => cases hd
          | some => cases hd; decide
        rw [List.replicate_zero, List.nil_append, prefix_append_iff hhead]
        exact h.star rfl
      | succ n =>
        intro hstart
        cases (List.cons_prefix_cons.mp hstart).1
    have hdots : ∀ d ∈ List.replicate n '.', decide (d = '.') = true := fun d hd ↦
      decide_eq_true (List.eq_of_mem_replicate hd)
    have hother : List.replicate n '.' ≠ "*.".toList := by
      intro heq
      have hmem : '*' ∈ List.replicate n '.' := heq ▸ List.mem_cons_self
      cases List.eq_of_mem_replicate hmem
    rw [hnone hstar, Option.getD_none, List.dropWhile_append_of_pos hdots, hkept hother]

theorem PlainRule.splitPort_eq (h : PlainRule net text lead host written suffix port) :
    splitPort net (written ++ suffix) = some (host, port) := by
  obtain ⟨c, hc, -⟩ := h.head
  cases h.host_written with
  | plain hbracket hnone hsome =>
    obtain ⟨rest, rfl⟩ := List.head?_eq_some_iff.mp hc
    unfold splitPort
    split
    next stripped heq => exact absurd (congrArg some (List.cons.inj heq).1) hbracket
    · cases h.port with
      | none => rw [List.append_nil, if_neg (hnone rfl)]
      | @some raw port hparse =>
        have hcolon := hsome (List.cons_ne_nil _ _)
        have hraw := (colon_notMem_of_parseU16 hparse).1
        have hcount : (c :: rest ++ ':' :: raw).count ':' = 1 := by
          rw [List.count_append, List.count_eq_zero_of_not_mem hcolon, List.count_cons_self,
            List.count_eq_zero_of_not_mem hraw]
        rw [if_pos hcount, rsplitOnce_append _ hraw]
        simp [hparse]
  | brackets hclose haddress =>
    have hsplit : splitOnce ']' (host ++ [']'] ++ suffix) = some (host, suffix) := by
      rw [List.append_assoc]
      exact splitOnce_append hclose suffix
    have hsome : (net.parseIpAddr host).isNone = false := Option.isNone_eq_false_iff.mpr haddress
    rw [List.cons_append]
    simp only [splitPort, hsplit, hsome, Bool.false_eq_true, if_false]
    cases h.port with
    | none => rfl
    | some hparse => simp [hparse]

/-- What a plain rule is parsed to, if it is accepted as a domain. -/
theorem PlainRule.parse_eq (h : PlainRule net text lead host written suffix port) {ruleHost : Text}
    {rulePort : Option ℕ}
    (hparse : parse deps net text = some (.domain ruleHost rulePort)) :
    rulePort = port ∧ net.plainNoProxyHostIsValid host = true ∧
      net.normalizeNoProxyHost host = some ruleHost := by
  have hslash : '/' ∉ trim text := by
    have hlead : '/' ∉ lead := by
      rcases h.lead_eq with rfl | ⟨n, rfl⟩
      · decide
      · intro hmem
        cases List.eq_of_mem_replicate hmem
    have hsuffix : '/' ∉ suffix := by
      cases h.port with
      | none => simp
      | some hparse => simp [(colon_notMem_of_parseU16 hparse).2]
    have hwritten : '/' ∉ written := by
      cases h.host_written with
      | plain => exact h.slash
      | brackets => simp [h.slash]
    rw [h.text_eq]
    simp [hlead, hwritten, hsuffix]
  unfold parse at hparse
  dsimp only at hparse
  split at hparse
  · cases hparse
  split at hparse
  · cases hparse
  split at hparse
  next url urlHost _ =>
    -- A URL has slashes.
    unfold parseUrlRule at hparse
    split at hparse
    · cases hparse
    next hvalid =>
      rw [Bool.or_eq_true, not_or] at hvalid
      obtain ⟨scheme, authority, rest, habsolute⟩ :=
        exists_absoluteHttp_of_valid (by simpa using hvalid.2)
      exact absurd (by rw [habsolute.text_eq]; simp) hslash
  · split at hparse
    · cases hparse
    split at hparse
    next hcontains => exact absurd (List.elem_iff.mp hcontains) hslash
    · unfold parsePlainRule at hparse
      rw [h.candidate_eq] at hparse
      dsimp only at hparse
      rw [h.splitPort_eq] at hparse
      dsimp only at hparse
      split at hparse
      · cases hparse
      split at hparse
      · cases hparse
      next hplain =>
        obtain ⟨normalized, hnormalized, heq⟩ := Option.map_eq_some_iff.mp hparse
        cases heq
        exact ⟨rfl, by simpa using hplain, hnormalized⟩

theorem NoProxyRule.matchesHost_of_none {ruleHost target : Text} {rulePort targetPort : Option ℕ}
    (h : net.normalizeNoProxyHost target = none) :
    (domain ruleHost rulePort).matchesHost net target targetPort = false := by
  simp only [matchesHost, h]

theorem NoProxyRule.matchesHost_of_some {ruleHost target normalized : Text}
    {rulePort targetPort : Option ℕ} (h : net.normalizeNoProxyHost target = some normalized) :
    (domain ruleHost rulePort).matchesHost net target targetPort =
      (net.hostMatchesNoProxyRule normalized ruleHost &&
        decide (rulePort = none ∨ targetPort = rulePort)) := by
  simp only [matchesHost, h]
  cases net.hostMatchesNoProxyRule normalized ruleHost with
  | false => rfl
  | true => cases rulePort <;> simp

theorem Addresses.hostMatchesNoProxyRule_iff {host ruleHost : Text}
    (hhost : net.parseIpLiteral host = none) (hrule : net.parseIpLiteral ruleHost = none) :
    net.hostMatchesNoProxyRule host ruleHost = true ↔
      split '.' ruleHost <:+ split '.' host := by
  unfold Addresses.hostMatchesNoProxyRule
  rw [hhost, hrule, split_suffix_iff]
  simp only [Option.isSome_none, Bool.or_self, Bool.false_eq_true, if_false, Bool.or_eq_true,
    decide_eq_true_eq]
  refine or_congr Iff.rfl ?_
  constructor
  · intro h
    split at h
    next start hstart =>
      obtain ⟨behind, rfl, hbehind⟩ := List.dropSuffix?_eq_some_iff.mp hstart
      obtain ⟨before, rfl⟩ := List.getLast?_eq_some_iff.mp (of_decide_eq_true h)
      exact ⟨before, by rw [eq_of_beq hbehind]; simp⟩
    · cases h
  · rintro ⟨before, rfl⟩
    have hdrop : (before ++ '.' :: ruleHost).dropSuffix? ruleHost = some (before ++ ['.']) :=
      List.dropSuffix?_eq_some_iff.mpr ⟨ruleHost, by simp, beq_self_eq_true _⟩
    rw [hdrop]
    simp

theorem Addresses.hostMatchesNoProxyRule_mixed {host ruleHost : Text}
    (h : (net.parseIpLiteral host).isSome ≠ (net.parseIpLiteral ruleHost).isSome) :
    net.hostMatchesNoProxyRule host ruleHost = false := by
  unfold Addresses.hostMatchesNoProxyRule
  dsimp only
  cases hhost : net.parseIpLiteral host <;> cases hrule : net.parseIpLiteral ruleHost
  · rw [hhost, hrule] at h
    exact absurd rfl h
  · rfl
  · simp
  · rw [hhost, hrule] at h
    exact absurd rfl h

theorem SameHost.normalizeNoProxyHost_eq {host host' : Text} (h : SameHost host host')
    (hdots : TightDots host) : net.normalizeNoProxyHost host = net.normalizeNoProxyHost host' := by
  rw [Addresses.normalizeNoProxyHost, Addresses.normalizeNoProxyHost,
    h.normalizeHostKey_eq hdots]

theorem tightDots_of_valid {host : Text} (h : net.plainNoProxyHostIsValid host = true) :
    TightDots host := by
  unfold Addresses.plainNoProxyHostIsValid at h
  split_ifs at h with hbad <;>
  · simp only [Bool.or_eq_true, List.any_eq_true, not_or, not_exists, not_and] at hbad
    intro c hc
    have hmem : c ∈ host := (List.rdropWhile_prefix _ _).subset (List.mem_of_getLast? hc)
    exact Bool.eq_false_iff.mpr (hbad.2 c hmem)

/-- A domain rule matches by whole labels, whatever the letter case and the trailing dots, and never
an address by a name or a name by an address. -/
theorem domain_rules_match_labels (hrule : PlainRule net text lead host written suffix port)
    {ruleHost : Text} {rulePort : Option ℕ}
    (hparse : NoProxyRule.parse deps net text = some (.domain ruleHost rulePort)) :
    net.normalizeNoProxyHost host = some ruleHost ∧
    (∀ target normalized targetPort, net.normalizeNoProxyHost target = some normalized →
      net.parseIpLiteral normalized = none → net.parseIpLiteral ruleHost = none →
        ((NoProxyRule.domain ruleHost rulePort).matchesHost net target targetPort = true ↔
          Text.split '.' ruleHost <:+ Text.split '.' normalized ∧
            (port = none ∨ targetPort = port))) ∧
    (∀ target targetPort, net.normalizeNoProxyHost target = none →
      (NoProxyRule.domain ruleHost rulePort).matchesHost net target targetPort = false) ∧
    (∀ target normalized targetPort, net.normalizeNoProxyHost target = some normalized →
      (net.parseIpLiteral normalized).isSome ≠ (net.parseIpLiteral ruleHost).isSome →
        (NoProxyRule.domain ruleHost rulePort).matchesHost net target targetPort = false) ∧
    ∀ text' lead' host' written' suffix' ruleHost' rulePort',
      PlainRule net text' lead' host' written' suffix' port →
      NoProxyRule.parse deps net text' = some (.domain ruleHost' rulePort') →
        SameHost host host' → ∀ target target' targetPort, SameHost target target' →
          TightDots target →
            (NoProxyRule.domain ruleHost rulePort).matchesHost net target targetPort =
              (NoProxyRule.domain ruleHost' rulePort').matchesHost net target' targetPort := by
  obtain ⟨rfl, hvalid, hnormalized⟩ := hrule.parse_eq hparse
  refine ⟨hnormalized, ?_, ?_, ?_, ?_⟩
  · intro target normalized targetPort htarget hhost hname
    rw [matchesHost_of_some htarget, Bool.and_eq_true, decide_eq_true_iff,
      Addresses.hostMatchesNoProxyRule_iff hhost hname]
  · exact fun target targetPort htarget ↦ matchesHost_of_none htarget
  · intro target normalized targetPort htarget hmixed
    rw [matchesHost_of_some htarget, Addresses.hostMatchesNoProxyRule_mixed hmixed,
      Bool.false_and]
  · intro text' lead' host' written' suffix' ruleHost' rulePort' hrule' hparse' hsame target target'
      targetPort htarget hdots
    obtain ⟨rfl, -, hnormalized'⟩ := hrule'.parse_eq hparse'
    rw [← hsame.normalizeNoProxyHost_eq (tightDots_of_valid hvalid), hnormalized] at hnormalized'
    cases hnormalized'
    simp only [matchesHost, htarget.normalizeNoProxyHost_eq hdots]

end Domain

/-! ## Addresses -/

section Address

def isAddressChar (c : Char) : Bool := c ∈ "0123456789abcdefABCDEF:.".toList

/-- A text that can be an address. -/
structure AddressText (t : Text) : Prop where
  chars : ∀ c ∈ t, isAddressChar c = true
  head : ∃ c ∈ t.head?, c ≠ '.'
  last : ∀ c ∈ t.getLast?, c ≠ '.'
  colons : t.count ':' ≠ 1

/-- What the code relies on of the parsers of addresses and networks. -/
structure Addresses.Documented (net : Addresses) : Prop where
  ipv4 : ∀ {t a}, net.parseIpv4 t = some a → AddressText t ∧ ':' ∉ t
  ipv6 : ∀ {t a}, net.parseIpv6 t = some a → AddressText t ∧ ':' ∈ t
  lower : ∀ t, net.parseIpv4 (toAsciiLowercase t) = net.parseIpv4 t ∧
    net.parseIpv6 (toAsciiLowercase t) = net.parseIpv6 t
  network4 : ∀ {t a}, net.parseIpv4 t = some a →
    net.parseIpNet (t ++ "/32".toList) = some (.v4 a 32)
  network6 : ∀ {t a}, net.parseIpv6 t = some a →
    net.parseIpNet (t ++ "/128".toList) = some (.v6 a 128)
  contains4 : ∀ a ip, net.contains (net.trunc (.v4 a 32)) ip = true ↔ ip = .v4 a
  contains6 : ∀ a ip, net.contains (net.trunc (.v6 a 128)) ip = true ↔ ip = .v6 a

/-- Without two slashes a text of these characters is no URL with a host: the schemes that need no
slashes have other letters. -/
def Dependencies.AddressesNoUrls (deps : Dependencies) : Prop :=
  ∀ {text url}, (∀ c ∈ text, isAddressChar c = true ∨ c = '/') → ¬ "//".toList <:+: text →
    deps.parseUrl text = some url → url.hostStr = none

/-- The text of the network that has only this address. -/
def IpAddr.networkText (text : Text) : IpAddr → Text
  | .v4 _ => text ++ "/32".toList
  | .v6 _ => text ++ "/128".toList

variable {deps : Dependencies} {net : Addresses} {t : Text} {address : IpAddr}

theorem isWhitespace_of_isAddressChar {c : Char} (h : isAddressChar c = true) :
    isWhitespace c = false := by
  have hclean : ∀ c ∈ "0123456789abcdefABCDEF:.".toList, isWhitespace c = false := by
    simp [isWhitespace]
  exact hclean c (of_decide_eq_true h)

theorem AddressText.notMem (h : AddressText t) {c : Char} (hc : isAddressChar c = false) :
    c ∉ t := by
  intro hmem
  rw [h.chars c hmem] at hc
  cases hc

theorem AddressText.ne_nil (h : AddressText t) : t ≠ [] := by
  rintro rfl
  obtain ⟨c, hc, -⟩ := h.head
  cases hc

theorem AddressText.bareHost_eq (h : AddressText t) : bareHost t = t := by
  have hlast : ∀ c ∈ t.getLast?, decide (c = '.') = false := fun c hc ↦
    decide_eq_false (h.last c hc)
  rw [bareHost, trim_eq_self_of_clean fun c hc ↦ isWhitespace_of_isAddressChar (h.chars c hc),
    trimEndMatches, rdropWhile_eq_self hlast]

namespace Addresses.Documented

variable (addresses : net.Documented)
include addresses

theorem addressText (h : net.parseIpAddr t = some address) : AddressText t := by
  rcases Option.or_eq_some_iff.mp h with h | ⟨-, h⟩
  · obtain ⟨a, ha, -⟩ := Option.map_eq_some_iff.mp h
    exact (addresses.ipv4 ha).1
  · obtain ⟨a, ha, -⟩ := Option.map_eq_some_iff.mp h
    exact (addresses.ipv6 ha).1

theorem parseIpAddr_lower (t : Text) :
    net.parseIpAddr (toAsciiLowercase t) = net.parseIpAddr t := by
  rw [parseIpAddr, parseIpAddr, (addresses.lower t).1, (addresses.lower t).2]

theorem parseIpAddr_eq_v6_iff {a : BitVec 128} :
    net.parseIpAddr t = some (.v6 a) ↔ net.parseIpv6 t = some a := by
  unfold parseIpAddr
  constructor
  · intro h
    rcases Option.or_eq_some_iff.mp h with h | ⟨-, h⟩
    · obtain ⟨b, -, heq⟩ := Option.map_eq_some_iff.mp h
      cases heq
    · obtain ⟨b, hb, heq⟩ := Option.map_eq_some_iff.mp h
      cases heq
      exact hb
  · intro h
    have hnone : net.parseIpv4 t = none := by
      rw [Option.eq_none_iff_forall_ne_some]
      exact fun b hb ↦ (addresses.ipv4 hb).2 (addresses.ipv6 h).2
    rw [hnone, h]
    rfl

end Addresses.Documented

/-! ### The rules of an address -/

theorem startsWithIgnoreCase_address (h : ∀ c ∈ t, isAddressChar c = true ∨ c = '/') (pre : Text) :
    startsWithIgnoreCase ('h' :: pre) t = false := by
  rw [Bool.eq_false_iff]
  intro hstart
  have hmem : 'h' ∈ toAsciiLowercase t :=
    ( startsWithIgnoreCase_iff_prefix.mp hstart).subset List.mem_cons_self
  obtain ⟨c, hc, hlower⟩ := List.mem_map.mp hmem
  have hother : ∀ c ∈ "0123456789abcdefABCDEF:.".toList, c.toLower ≠ 'h' := by simp
  rcases h c hc with hchar | rfl
  · exact hother c (of_decide_eq_true hchar) hlower
  · cases hlower

/-- Texts of these characters are no URLs for the parser of rules. -/
theorem parse_address (urls : deps.AddressesNoUrls)
    (hchars : ∀ c ∈ t, isAddressChar c = true ∨ c = '/') (hne : t ≠ [])
    (hslashes : ¬ "//".toList <:+: t) :
    parse deps net t =
      if contains '/' t then
        (net.parseIpNet t).map fun network ↦ .cidr (net.trunc network)
      else parsePlainRule net t := by
  have hclean : ∀ c ∈ t, isWhitespace c = false := by
    intro c hc
    rcases hchars c hc with h | rfl
    · exact isWhitespace_of_isAddressChar h
    · decide
  have hstar : t ≠ "*".toList := by
    rintro rfl
    rcases hchars '*' List.mem_cons_self with h | h
    · exact absurd h (by decide)
    · cases h
  have hurl : ((deps.parseUrl t).bind fun url ↦ url.hostStr.map fun host ↦ (url, host)) = none := by
    rw [Option.bind_eq_none_iff]
    intro url hparse
    rw [urls hchars hslashes hparse]
    rfl
  have hmark : splitOnceText "://".toList t = none := by
    rw [splitOnceText_eq_none_iff]
    exact fun hmark ↦ hslashes (List.IsInfix.trans ⟨[':'], [], rfl⟩ hmark)
  have hlooks : looksLikeUrlRule t = false := by
    have hhttp : startsWithIgnoreCase "http:".toList t = false :=
      startsWithIgnoreCase_address hchars _
    have hhttps : startsWithIgnoreCase "https:".toList t = false :=
      startsWithIgnoreCase_address hchars _
    rw [looksLikeUrlRule, hmark, hhttp, hhttps]
    rfl
  unfold parse
  rw [trim_eq_self_of_clean hclean]
  simp only [List.isEmpty_eq_false_iff.mpr hne, hstar, hurl, hlooks, Bool.false_eq_true, if_false]

theorem stripBrackets_eq_some_iff {inner : Text} :
    Addresses.stripBrackets t = some inner ↔ t = '[' :: (inner ++ [']']) := by
  unfold Addresses.stripBrackets
  rw [Option.bind_eq_some_iff]
  constructor
  · rintro ⟨behind, hstart, hend⟩
    obtain ⟨start, rfl, hfirst⟩ := List.dropPrefix?_eq_some_iff.mp hstart
    obtain ⟨last, rfl, hlast⟩ := List.dropSuffix?_eq_some_iff.mp hend
    rw [eq_of_beq hfirst, eq_of_beq hlast]
    rfl
  · rintro rfl
    exact ⟨inner ++ [']'], List.dropPrefix?_eq_some_iff.mpr ⟨['['], rfl, rfl⟩,
      List.dropSuffix?_eq_some_iff.mpr ⟨[']'], rfl, rfl⟩⟩

theorem stripBrackets_eq_none (h : '[' ∉ t) : Addresses.stripBrackets t = none := by
  rw [Option.eq_none_iff_forall_ne_some]
  intro inner hinner
  rw [stripBrackets_eq_some_iff.mp hinner] at h
  exact h List.mem_cons_self

theorem AddressText.stripBrackets_lower (h : AddressText t) :
    Addresses.stripBrackets (toAsciiLowercase t) = none := by
  have hbracket : '[' ∉ t := h.notMem (by decide)
  exact stripBrackets_eq_none (toAsciiLowercase_notMem (by decide) hbracket)

theorem parse_plain_address (addresses : net.Documented) (urls : deps.AddressesNoUrls)
    (h : net.parseIpAddr t = some address) :
    parse deps net t = some (.domain (toAsciiLowercase t) none) := by
  have ht := addresses.addressText h
  have hslash : '/' ∉ t := ht.notMem (by decide)
  have hbracket : '[' ∉ t := ht.notMem (by decide)
  have hstar : t.dropPrefix? "*.".toList = none := by
    rw [Option.eq_none_iff_forall_ne_some]
    intro behind hdrop
    obtain ⟨start, rfl, hstart⟩ := List.dropPrefix?_eq_some_iff.mp hdrop
    rw [eq_of_beq hstart] at ht
    exact ht.notMem (by decide : isAddressChar '*' = false) List.mem_cons_self
  have hdots : t.dropWhile (· = '.') = t := by
    obtain ⟨c, hc, hdot⟩ := ht.head
    obtain ⟨rest, rfl⟩ := List.head?_eq_some_iff.mp hc
    exact List.dropWhile_cons_of_neg (by simpa using hdot)
  have hport : splitPort net t = some (t, none) := by
    unfold splitPort
    split
    · exact absurd List.mem_cons_self hbracket
    · rw [if_neg ht.colons]
  have hvalid : net.plainNoProxyHostIsValid t = true := by
    have hbad : t.any (· ∈ ['/', '?', '#', '@', '\\', '*']) = false := by
      rw [List.any_eq_false]
      intro c hc hmem
      have hother : ∀ c ∈ ['/', '?', '#', '@', '\\', '*'], isAddressChar c = false := by
        simp [isAddressChar]
      exact ht.notMem (hother c (of_decide_eq_true hmem)) hc
    have hclean : t.any isWhitespace = false := by
      rw [List.any_eq_false]
      intro c hc
      rw [isWhitespace_of_isAddressChar (ht.chars c hc)]
      exact Bool.false_ne_true
    rw [Addresses.plainNoProxyHostIsValid, hbad, hclean, List.isEmpty_eq_false_iff.mpr ht.ne_nil, h]
    simp
  have hkey : normalizeHostKey t = some (toAsciiLowercase t) := by
    rw [normalizeHostKey_eq_some_iff, ht.bareHost_eq]
    exact ⟨ht.ne_nil, rfl⟩
  have hnormalized : net.normalizeNoProxyHost t = some (toAsciiLowercase t) := by
    rw [Addresses.normalizeNoProxyHost, hkey, Option.map_some, ht.stripBrackets_lower]
  have hslashes : ¬ "//".toList <:+: t := fun hwithin ↦ hslash (hwithin.subset List.mem_cons_self)
  rw [parse_address urls (fun c hc ↦ .inl (ht.chars c hc)) ht.ne_nil hslashes,
    if_neg (by simpa [contains] using hslash)]
  unfold parsePlainRule
  rw [hstar, Option.getD_none, hdots]
  simp [ht.ne_nil, hport, hvalid, hnormalized]

theorem parse_network (addresses : net.Documented) (urls : deps.AddressesNoUrls)
    (h : net.parseIpAddr t = some address) :
    ∃ network, parse deps net (address.networkText t) = some (.cidr network) ∧
      ∀ ip, net.contains network ip = true ↔ ip = address := by
  have ht := addresses.addressText h
  have hrule (rest : Text) (hrest : ∀ c ∈ rest, isAddressChar c = true)
      {network : IpNet} (hnet : net.parseIpNet (t ++ '/' :: rest) = some network) :
      parse deps net (t ++ '/' :: rest) = some (.cidr (net.trunc network)) := by
    have hchars : ∀ c ∈ t ++ '/' :: rest, isAddressChar c = true ∨ c = '/' := by
      simp only [List.forall_mem_append, List.forall_mem_cons]
      exact ⟨fun c hc ↦ .inl (ht.chars c hc), .inr trivial, fun c hc ↦ .inl (hrest c hc)⟩
    have hslashes : ¬ "//".toList <:+: t ++ '/' :: rest := by
      intro hwithin
      have hrest' : '/' ∉ rest := fun hmem ↦ absurd (hrest '/' hmem) (by decide)
      have hcount := hwithin.sublist.count_le '/'
      rw [List.count_append, List.count_eq_zero_of_not_mem (ht.notMem (by decide)),
        List.count_cons_self, List.count_eq_zero_of_not_mem hrest'] at hcount
      exact absurd hcount (by decide)
    rw [parse_address urls hchars (by simp) hslashes, if_pos (by simp [contains]), hnet,
      Option.map_some]
  cases address with
  | v4 a =>
    have ha : net.parseIpv4 t = some a := by
      rcases Option.or_eq_some_iff.mp h with h | ⟨-, h⟩
      · obtain ⟨b, hb, heq⟩ := Option.map_eq_some_iff.mp h
        cases heq
        exact hb
      · obtain ⟨b, -, heq⟩ := Option.map_eq_some_iff.mp h
        cases heq
    exact ⟨_, hrule "32".toList (by simp [isAddressChar]) (addresses.network4 ha),
      addresses.contains4 a⟩
  | v6 a =>
    have ha := addresses.parseIpAddr_eq_v6_iff.mp h
    exact ⟨_, hrule "128".toList (by simp [isAddressChar]) (addresses.network6 ha),
      addresses.contains6 a⟩

/-! ### Hosts that are an address -/

/-- The text is the address, in brackets or not. -/
def Addresses.Names (net : Addresses) (t : Text) (address : IpAddr) : Prop :=
  net.parseIpAddr t = some address ∨
    ∃ inner, t = '[' :: (inner ++ [']']) ∧ net.parseIpAddr inner = some address

theorem Addresses.Documented.parseIpAddr_brackets (addresses : net.Documented) (inner : Text) :
    net.parseIpAddr ('[' :: (inner ++ [']'])) = none := by
  rw [Option.eq_none_iff_forall_ne_some]
  intro address h
  exact (addresses.addressText h).notMem (by decide : isAddressChar '[' = false) List.mem_cons_self

theorem Addresses.Documented.parseIpLiteral_eq_some_iff (addresses : net.Documented) :
    net.parseIpLiteral t = some address ↔
      net.parseIpAddr t = some address ∨
        ∃ inner a, t = '[' :: (inner ++ [']']) ∧ net.parseIpv6 inner = some a ∧
          address = .v6 a := by
  unfold Addresses.parseIpLiteral
  split
  next inner hinner =>
    obtain rfl := stripBrackets_eq_some_iff.mp hinner
    rw [addresses.parseIpAddr_brackets, Option.map_eq_some_iff]
    constructor
    · rintro ⟨a, ha, rfl⟩
      exact .inr ⟨inner, a, rfl, ha, rfl⟩
    · rintro (h | ⟨inner', a, heq, ha, rfl⟩)
      · cases h
      · rw [List.cons.injEq, List.append_cancel_right_eq] at heq
        rw [heq.2]
        exact ⟨a, ha, rfl⟩
  next hnone =>
    refine ⟨.inl, ?_⟩
    rintro (h | ⟨inner, a, rfl, -⟩)
    · exact h
    · rw [stripBrackets_eq_some_iff.mpr rfl] at hnone
      cases hnone

theorem exists_brackets_of_lower {inner : Text}
    (h : toAsciiLowercase t = '[' :: (inner ++ [']'])) :
    ∃ inner', t = '[' :: (inner' ++ [']']) ∧ toAsciiLowercase inner' = inner := by
  obtain ⟨c, rest, rfl, hc, hrest⟩ := List.map_eq_cons_iff.mp h
  obtain ⟨inner', last, rfl, hinner, hlast⟩ := List.map_eq_append_iff.mp hrest
  obtain ⟨d, rest, rfl, hd, hnil⟩ := List.map_eq_cons_iff.mp hlast
  rw [List.map_eq_nil_iff.mp hnil, eq_of_toLower_eq (by decide) hc,
    eq_of_toLower_eq (by decide) hd]
  exact ⟨inner', rfl, hinner⟩

/-- A domain rule sees an address in every host that is one without its decoration. -/
theorem Addresses.Documented.normalized_iff (addresses : net.Documented) (host : Text) :
    (∃ normalized, net.normalizeNoProxyHost host = some normalized ∧
      net.parseIpLiteral normalized = some address) ↔ net.Names (bareHost host) address := by
  simp only [Addresses.normalizeNoProxyHost, Option.map_eq_some_iff, normalizeHostKey_eq_some_iff]
  constructor
  · rintro ⟨normalized, ⟨key, ⟨-, rfl⟩, rfl⟩, hliteral⟩
    split at hliteral
    next inner hinner =>
      obtain ⟨inner', hbare, rfl⟩ := exists_brackets_of_lower (stripBrackets_eq_some_iff.mp hinner)
      split_ifs at hliteral with hparse
      · -- The brackets are taken off, and what was inside is no literal with brackets.
        rw [addresses.parseIpAddr_lower] at hparse
        obtain ⟨found, hfound⟩ := Option.isSome_iff_exists.mp hparse
        rw [Addresses.parseIpLiteral,
          (addresses.addressText hfound).stripBrackets_lower] at hliteral
        exact .inr ⟨inner', hbare, (addresses.parseIpAddr_lower inner').symm.trans hliteral⟩
      · rw [Addresses.parseIpLiteral, hinner] at hliteral
        obtain ⟨a, ha, rfl⟩ := Option.map_eq_some_iff.mp hliteral
        rw [addresses.parseIpAddr_eq_v6_iff.mpr ha] at hparse
        exact absurd rfl hparse
    next hnone =>
      rw [Addresses.parseIpLiteral, hnone, addresses.parseIpAddr_lower] at hliteral
      exact .inl hliteral
  · rintro (h | ⟨inner, hbare, h⟩)
    · have ht := addresses.addressText h
      have hstrip := ht.stripBrackets_lower
      refine ⟨toAsciiLowercase (bareHost host), ⟨_, ⟨ht.ne_nil, rfl⟩, ?_⟩, ?_⟩
      · rw [hstrip]
      · rwa [Addresses.parseIpLiteral, hstrip, addresses.parseIpAddr_lower]
    · have ht := addresses.addressText h
      have hstrip := ht.stripBrackets_lower
      have hlower : toAsciiLowercase (bareHost host) =
          '[' :: (toAsciiLowercase inner ++ [']']) := by
        rw [hbare, toAsciiLowercase, List.map_cons, List.map_append]
        rfl
      refine ⟨toAsciiLowercase inner, ⟨_, ⟨by rw [hbare]; exact List.cons_ne_nil _ _, rfl⟩,
        ?_⟩, ?_⟩
      · rw [hlower, stripBrackets_eq_some_iff.mpr rfl]
        dsimp only
        rw [addresses.parseIpAddr_lower, h]
        rfl
      · rwa [Addresses.parseIpLiteral, hstrip, addresses.parseIpAddr_lower]

theorem Addresses.Documented.domain_matchesHost_iff (addresses : net.Documented)
    (h : net.parseIpAddr t = some address) (host : Text) (port : Option ℕ) :
    (domain (toAsciiLowercase t) none).matchesHost net host port = true ↔
      net.Names (bareHost host) address := by
  have hrule : net.parseIpLiteral (toAsciiLowercase t) = some address := by
    rw [addresses.parseIpLiteral_eq_some_iff, addresses.parseIpAddr_lower]
    exact .inl h
  rw [← addresses.normalized_iff]
  cases hnormalized : net.normalizeNoProxyHost host with
  | none =>
    rw [matchesHost_of_none hnormalized]
    simp
  | some normalized =>
    rw [matchesHost_of_some hnormalized, Addresses.hostMatchesNoProxyRule, hrule]
    simp only [Option.isSome_some, Bool.or_true, if_true, true_or, decide_true, Bool.and_true,
      Bool.and_eq_true, decide_eq_true_eq, Option.some.injEq, exists_eq_left']
    exact ⟨And.right, fun heq ↦ ⟨by rw [heq]; rfl, heq⟩⟩

theorem bareHost_brackets {inner : Text} (h : ∀ c ∈ inner, isWhitespace c = false) :
    bareHost ('[' :: (inner ++ [']'])) = '[' :: (inner ++ [']']) := by
  have hclean : ∀ c ∈ '[' :: (inner ++ [']']), isWhitespace c = false := by
    simp only [List.forall_mem_cons, List.forall_mem_append]
    exact ⟨by decide, h, by decide, by simp⟩
  have hlast : ∀ c ∈ ('[' :: (inner ++ [']'])).getLast?, decide (c = '.') = false := by
    intro c hc
    rw [← List.cons_append, List.getLast?_append] at hc
    cases hc
    decide
  rw [bareHost, trim_eq_self_of_clean hclean, trimEndMatches,
    rdropWhile_eq_self hlast]

/-- The host has no decoration that only a domain rule takes off: dots or whitespace around the
address, or brackets around one of the first family. -/
def Addresses.Undecorated (net : Addresses) (host : Text) (address : IpAddr) : Prop :=
  net.Names (bareHost host) address →
    bareHost host = host ∧ ((∃ a, address = .v4 a) → host.head? ≠ some '[')

theorem Addresses.Documented.undecorated_iff (addresses : net.Documented) (host : Text) :
    net.Undecorated host address ↔
      (net.Names (bareHost host) address ↔ net.parseIpLiteral host = some address) := by
  rw [addresses.parseIpLiteral_eq_some_iff]
  constructor
  · intro h
    refine ⟨fun hnames ↦ ?_, ?_⟩
    · obtain ⟨hbare, hfamily⟩ := h hnames
      rw [hbare] at hnames
      rcases hnames with hplain | ⟨inner, rfl, hinner⟩
      · exact .inl hplain
      · cases address with
        | v4 a => exact absurd rfl (hfamily ⟨a, rfl⟩)
        | v6 a => exact .inr ⟨inner, a, rfl, addresses.parseIpAddr_eq_v6_iff.mp hinner, rfl⟩
    · rintro (hplain | ⟨inner, a, rfl, hinner, rfl⟩)
      · rw [(addresses.addressText hplain).bareHost_eq]
        exact .inl hplain
      · rw [bareHost_brackets fun c hc ↦
          isWhitespace_of_isAddressChar ((addresses.ipv6 hinner).1.chars c hc)]
        exact .inr ⟨inner, rfl, addresses.parseIpAddr_eq_v6_iff.mpr hinner⟩
  · intro hiff hnames
    rcases hiff.mp hnames with hplain | ⟨inner, a, rfl, hinner, rfl⟩
    · have ht := addresses.addressText hplain
      refine ⟨ht.bareHost_eq, fun _ hhead ↦ ?_⟩
      exact ht.notMem (by decide : isAddressChar '[' = false) (List.mem_of_mem_head? hhead)
    · refine ⟨bareHost_brackets fun c hc ↦
        isWhitespace_of_isAddressChar ((addresses.ipv6 hinner).1.chars c hc), ?_⟩
      rintro ⟨b, hb⟩
      cases hb

/-- An address as a rule and the network of this address decide alike if and only if the host has
no decoration that only a domain rule takes off. -/
theorem address_rule_eq_network_iff (addresses : net.Documented) (urls : deps.AddressesNoUrls)
    (h : net.parseIpAddr t = some address) :
    ∃ rule network, NoProxyRule.parse deps net t = some rule ∧
      NoProxyRule.parse deps net (address.networkText t) = some network ∧
      ∀ host port, rule.matchesHost net host port = network.matchesHost net host port ↔
        net.Undecorated host address := by
  obtain ⟨network, hnetwork, hcontains⟩ := parse_network addresses urls h
  refine ⟨_, _, parse_plain_address addresses urls h, hnetwork, fun host port ↦ ?_⟩
  have hcidr : (cidr network).matchesHost net host port = true ↔
      net.parseIpLiteral host = some address := by
    rw [matchesHost]
    cases net.parseIpLiteral host with
    | none => simp
    | some ip => simp [hcontains]
  rw [Bool.eq_iff_iff, addresses.domain_matchesHost_iff h, hcidr, addresses.undecorated_iff]

end Address

/-! ## Parsers that know two addresses -/

namespace NoProxy

def parseIpv4 (t : Text) : Option (BitVec 32) :=
  if t = "10.0.0.1".toList then some 0x0a000001#32 else none

def parseIpv6 (t : Text) : Option (BitVec 128) := if t = "::1".toList then some 1#128 else none

def parseIpNet (t : Text) : Option IpNet :=
  (splitOnce '/' t).bind fun (address, len) ↦
    if len = "32".toList then (parseIpv4 address).map (.v4 · 32)
    else if len = "128".toList then (parseIpv6 address).map (.v6 · 128)
    else none

/-- The networks are of one address each. -/
def addresses : Addresses where
  parseIpv4
  parseIpv6
  parseIpNet
  trunc network := network
  contains
    | .v4 address _, ip => ip = .v4 address
    | .v6 address _, ip => ip = .v6 address
  portOrKnownDefault _ := none

theorem eq_of_parseIpv4 {t : Text} {a : BitVec 32} (h : parseIpv4 t = some a) :
    t = "10.0.0.1".toList := by
  unfold parseIpv4 at h
  split at h
  next ht => exact ht
  · cases h

theorem eq_of_parseIpv6 {t : Text} {a : BitVec 128} (h : parseIpv6 t = some a) :
    t = "::1".toList := by
  unfold parseIpv6 at h
  split at h
  next ht => exact ht
  · cases h

theorem documented_addresses : addresses.Documented where
  ipv4 h := by
    obtain rfl := eq_of_parseIpv4 h
    exact ⟨⟨by simp [isAddressChar], ⟨'1', rfl, by decide⟩, by simp, by decide⟩, by decide⟩
  ipv6 h := by
    obtain rfl := eq_of_parseIpv6 h
    exact ⟨⟨by simp [isAddressChar], ⟨':', rfl, by decide⟩, by simp, by decide⟩, by decide⟩
  lower t := by
    have hlower {known : Text} (hplain : ∀ c ∈ known, c.isLower = false)
        (hsame : toAsciiLowercase known = known) :
        toAsciiLowercase t = known ↔ t = known :=
      ⟨eq_of_toAsciiLowercase_eq hplain, fun h ↦ h ▸ hsame⟩
    constructor
    · exact if_congr (hlower (by simp) (by decide)) rfl rfl
    · exact if_congr (hlower (by simp) (by decide)) rfl rfl
  network4 h := by
    obtain rfl := eq_of_parseIpv4 h
    cases h
    rfl
  network6 h := by
    obtain rfl := eq_of_parseIpv6 h
    cases h
    rfl
  contains4 _ _ := decide_eq_true_iff
  contains6 _ _ := decide_eq_true_iff

theorem addressesNoUrls_parsers : Driver.Sample.parsers.AddressesNoUrls := by
  have htable : ∀ entry ∈ Driver.Sample.knownUrls, "//".toList <:+: entry.1 := by decide +kernel
  intro text url _ hslashes hparse
  obtain ⟨known, hknown, -⟩ := RequestTexts.exists_known_of_parseUrl hparse
  exact absurd ((htable _ hknown).trans (List.takeWhile_prefix _).isInfix) hslashes

theorem plainRule_port :
    PlainRule addresses "*.example.com:8080".toList "*.".toList "example.com".toList
      "example.com".toList ":8080".toList (some 8080) where
  text_eq := by decide +kernel
  lead_eq := .inl rfl
  host_written := .plain (by decide) (by decide) (by decide)
  port := .some (by decide)
  head := ⟨'e', rfl, by decide⟩
  star := by decide
  slash := by decide

end NoProxy

open NoProxy
open Driver.Sample (parsers)

theorem address_rule_eq_network :
    ∃ rule network, NoProxyRule.parse parsers addresses "10.0.0.1".toList = some rule ∧
      NoProxyRule.parse parsers addresses
        ((IpAddr.v4 0x0a000001#32).networkText "10.0.0.1".toList) = some network ∧
      ∀ host port, rule.matchesHost addresses host port = network.matchesHost addresses host port ↔
        addresses.Undecorated host (.v4 0x0a000001#32) :=
  address_rule_eq_network_iff (t := "10.0.0.1".toList) documented_addresses addressesNoUrls_parsers
    (by decide +kernel)

/-- The host is the address with a trailing dot. -/
def dottedUri : Uri :=
  ⟨some "http".toList, some "10.0.0.1.".toList, some "10.0.0.1.".toList, none,
    "http://10.0.0.1./".toList⟩

theorem address_rule_ne_network :
    ∃ rule network, NoProxyRule.parse parsers addresses "10.0.0.1".toList = some rule ∧
      NoProxyRule.parse parsers addresses "10.0.0.1/32".toList = some network ∧
      shouldBypassProxyUri addresses [rule] dottedUri = true ∧
      shouldBypassProxyUri addresses [network] dottedUri = false :=
  ⟨.domain "10.0.0.1".toList none, .cidr (.v4 0x0a000001#32 32), by decide +kernel,
    by decide +kernel, by decide +kernel, by decide +kernel⟩

theorem domain_rules_match_labels_port :
    (NoProxyRule.domain "example.com".toList (some 8080)).matchesHost addresses
        "api.Example.com.".toList (some 8080) = true ↔
      Text.split '.' "example.com".toList <:+ Text.split '.' "api.example.com".toList ∧
        (some 8080 = none ∨ some 8080 = some 8080) :=
  (domain_rules_match_labels plainRule_port
    (show parse parsers addresses _ = _ by decide +kernel)).2.1 _ _ _
      (by decide +kernel) (by decide +kernel) (by decide +kernel)

theorem domain_rules_see_blank_before_dots :
    NoProxyRule.parse parsers addresses "example.com".toList =
        some (.domain "example.com".toList none) ∧
      SameHost "example.com .".toList "example.com ".toList ∧
      (NoProxyRule.domain "example.com".toList none).matchesHost addresses
        "example.com .".toList none = false ∧
      (NoProxyRule.domain "example.com".toList none).matchesHost addresses
        "example.com ".toList none = true := by
  refine ⟨by decide +kernel, ?_, by decide +kernel, by decide +kernel⟩
  unfold SameHost
  decide +kernel

end Reqx
