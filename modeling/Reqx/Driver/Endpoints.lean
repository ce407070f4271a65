import Reqx.RateLimit.Ledger
import Reqx.Driver.HostLimiters
import Reqx.Driver.NoProxy

/-!
# The endpoints that the limiters tell apart

A request is counted under the key of its URI, a host and a port in one text. Two
URIs have the same key exactly when they name the same endpoint, and a limiter that
normalizes the key once more finds it as it is.
-/

namespace Reqx

open Text

/-! ## Decimal ports -/

theorem toDigits_injective : Function.Injective (Nat.toDigits 10) := by
  intro n n' h
  calc n = Nat.ofDigitChars 10 (Nat.toDigits 10 n) 0 := Nat.ofDigitChars_ten_toDigits.symm
    _ = Nat.ofDigitChars 10 (Nat.toDigits 10 n') 0 := by rw [h]
    _ = n' := Nat.ofDigitChars_ten_toDigits

/-- Digits are no separators, no whitespace and no letters. -/
theorem digit_plain {c : Char} (h : c.isDigit = true) :
    c ≠ ':' ∧ c ≠ '.' ∧ isWhitespace c = false ∧ c.toLower = c := by
  have hbounds := isDigit_iff.mp h
  refine ⟨?_, ?_, ?_, ?_⟩
  · rintro rfl
    revert hbounds
    decide
  · rintro rfl
    revert hbounds
    decide
  · simp only [isWhitespace, Bool.or_eq_false_iff, Bool.and_eq_false_iff,
      decide_eq_false_iff_not, beq_eq_false_iff_ne]
    omega
  · refine dif_neg fun hupper ↦ ?_
    have hlow : 65 ≤ c.toNat := hupper.1
    omega

theorem colon_notMem_toDigits (n : ℕ) : ':' ∉ Nat.toDigits 10 n := by
  intro hmem
  exact (digit_plain (Nat.isDigit_of_mem_toDigits (by decide) (by decide) hmem)).1 rfl

/-- A host and a port in one text. -/
def hostAndPort (host : Text) (port : ℕ) : Text := host ++ ':' :: Nat.toDigits 10 port

theorem hostAndPort_inj {host host' : Text} {port port' : ℕ} :
    hostAndPort host port = hostAndPort host' port' ↔ host = host' ∧ port = port' := by
  refine ⟨fun h ↦ ?_, fun ⟨hhost, hport⟩ ↦ by rw [hhost, hport]⟩
  -- The port begins behind the last colon.
  have hsplit := rsplitOnce_append host (colon_notMem_toDigits port)
  rw [← hostAndPort, h, hostAndPort,
    rsplitOnce_append host' (colon_notMem_toDigits port')] at hsplit
  obtain ⟨hhost, hport⟩ := Prod.mk.inj (Option.some.inj hsplit)
  exact ⟨hhost.symm, toDigits_injective hport.symm⟩

/-! ## Endpoints -/

/-- An `http` or `https` URI with a host that is a bracketed literal or has no colon. The hosts of
`http::Uri` have no whitespace. -/
structure HttpEndpoint where
  uri : Uri
  host : Text
  host_eq : uri.host = some host
  scheme : ∃ scheme ∈ uri.schemeStr, eqIgnoreAsciiCase scheme "http".toList = true ∨
    eqIgnoreAsciiCase scheme "https".toList = true
  named : normalizeHostKey host ≠ none
  form : (∃ inner, host = '[' :: inner ++ [']']) ∨ ':' ∉ host
  plain : ∀ c ∈ host, isWhitespace c = false

namespace HttpEndpoint

variable (e : HttpEndpoint)

/-- The host without trailing dots, in lower case. -/
def hostKey : Text := toAsciiLowercase (trimEndMatches (· = '.') e.host)

theorem normalizeHostKey_host : normalizeHostKey e.host = some e.hostKey := by
  obtain ⟨key, hkey⟩ := Option.ne_none_iff_exists'.mp e.named
  have hbare : bareHost e.host = trimEndMatches (· = '.') e.host := by
    rw [bareHost, trim_eq_self_of_clean e.plain]
  rw [hkey, hostKey, ← hbare, (normalizeHostKey_eq_some_iff.mp hkey).2]

theorem normalizedUriHost_eq : normalizedUriHost e.uri = some e.hostKey := by
  rw [normalizedUriHost, e.host_eq, Option.bind_some, e.normalizeHostKey_host]

theorem exists_defaultPort : ∃ port, defaultPort e.uri = some port := by
  obtain ⟨scheme, hscheme, hhttp⟩ := e.scheme
  unfold defaultPort
  cases e.uri.portU16 with
  | some port => exact ⟨port, rfl⟩
  | none =>
    rw [hscheme, Option.bind_some, Option.none_or]
    split_ifs with hhttps hplain
    · exact ⟨443, rfl⟩
    · exact ⟨80, rfl⟩
    · exact absurd hhttp (not_or.mpr ⟨hplain, hhttps⟩)

/-- The brackets of an address stay where they are. -/
theorem hostKey_form : contains ':' e.hostKey = false ∨
    startsWith "[".toList e.hostKey = true := by
  rcases e.form with ⟨inner, hhost⟩ | hcolon
  · right
    have hlast : (∀ c ∈ e.host.getLast?, decide (c = '.') = false) := by
      intro c hc
      rw [hhost, List.getLast?_concat] at hc
      cases hc
      decide
    rw [hostKey, trimEndMatches, rdropWhile_eq_self hlast, hhost]
    rfl
  · left
    have hkept : ':' ∉ trimEndMatches (· = '.') e.host := fun h ↦
      hcolon ((List.rdropWhile_prefix _ _).subset h)
    have hlower : ':' ∉ e.hostKey := toAsciiLowercase_notMem (by decide) hkept
    simpa [contains] using hlower

theorem rateLimitBucketKey_eq {port : ℕ} (hport : defaultPort e.uri = some port) :
    rateLimitBucketKey e.uri = some (hostAndPort e.hostKey port) := by
  have hplain : ¬ (contains ':' e.hostKey &&
      !startsWith "[".toList e.hostKey) = true := by
    rcases e.hostKey_form with h | h
    · rw [h]
      exact Bool.false_ne_true
    · rw [h, Bool.not_true, Bool.and_false]
      exact Bool.false_ne_true
  rw [rateLimitBucketKey, e.normalizedUriHost_eq, Option.map_some, hport]
  dsimp only
  rw [if_neg hplain, hostAndPort]
  simp

theorem normalizeHostKey_hostAndPort (port : ℕ) :
    normalizeHostKey (hostAndPort e.hostKey port) = some (hostAndPort e.hostKey port) := by
  have hdigit : ∀ c ∈ Nat.toDigits 10 port, c.isDigit = true := fun c hc ↦
    Nat.isDigit_of_mem_toDigits (by decide) (by decide) hc
  have hclean : ∀ c ∈ hostAndPort e.hostKey port, isWhitespace c = false := by
    unfold hostAndPort
    rw [List.forall_mem_append, List.forall_mem_cons]
    refine ⟨fun c hc ↦ ?_, by decide, fun c hc ↦ (digit_plain (hdigit c hc)).2.2.1⟩
    obtain ⟨d, hd, rfl⟩ := List.mem_map.mp hc
    rw [isWhitespace_toLower]
    exact e.plain d ((List.rdropWhile_prefix _ _).subset hd)
  have hlast : ∀ c ∈ (hostAndPort e.hostKey port).getLast?, decide (c = '.') = false := by
    intro c hc
    have hne : Nat.toDigits 10 port ≠ [] := Nat.toDigits_ne_nil
    rw [hostAndPort, List.append_cons, List.getLast?_append_of_ne_nil _ hne] at hc
    exact decide_eq_false (digit_plain (hdigit c (List.mem_of_getLast? hc))).2.1
  have hbare : bareHost (hostAndPort e.hostKey port) = hostAndPort e.hostKey port := by
    rw [bareHost, trim_eq_self_of_clean hclean, trimEndMatches,
      rdropWhile_eq_self hlast]
  have hlower : toAsciiLowercase (hostAndPort e.hostKey port) =
      hostAndPort e.hostKey port := by
    have hdigits : toAsciiLowercase (Nat.toDigits 10 port) = Nat.toDigits 10 port := by
      conv_rhs => rw [← List.map_id (Nat.toDigits 10 port)]
      exact List.map_congr_left fun c hc ↦ (digit_plain (hdigit c hc)).2.2.2
    have hhost : toAsciiLowercase e.hostKey = e.hostKey :=
      toAsciiLowercase_toAsciiLowercase _
    rw [hostAndPort, toAsciiLowercase_append, hhost, toAsciiLowercase, List.map_cons,
      ← toAsciiLowercase, hdigits]
    rfl
  rw [normalizeHostKey_eq_some_iff, hbare]
  exact ⟨by simp [hostAndPort], hlower⟩

theorem rateLimitBucketKey_eq_iff (e e' : HttpEndpoint) :
    rateLimitBucketKey e.uri = rateLimitBucketKey e'.uri ↔
      SameHost e.host e'.host ∧ defaultPort e.uri = defaultPort e'.uri := by
  obtain ⟨port, hport⟩ := e.exists_defaultPort
  obtain ⟨port', hport'⟩ := e'.exists_defaultPort
  rw [e.rateLimitBucketKey_eq hport, e'.rateLimitBucketKey_eq hport', Option.some.injEq,
    hostAndPort_inj, hport, hport', Option.some.injEq]
  rfl

theorem sameOrigin_equivalence :
    Equivalence fun e e' : HttpEndpoint ↦ sameOrigin e.uri e'.uri = true where
  refl e := sameOrigin_iff.mpr
    ⟨decide_eq_true rfl, ⟨e.hostKey, e.normalizedUriHost_eq, e.normalizedUriHost_eq⟩, rfl⟩
  symm h := by
    obtain ⟨hscheme, ⟨host, hleft, hright⟩, hport⟩ := sameOrigin_iff.mp h
    exact sameOrigin_iff.mpr
      ⟨decide_eq_true (of_decide_eq_true hscheme).symm, ⟨host, hright, hleft⟩, hport.symm⟩
  trans h h' := sameOrigin_iff.mpr ((sameOrigin_iff.mp h).trans (sameOrigin_iff.mp h'))

theorem sameHost_of_sameOrigin {e e' : HttpEndpoint} (h : SameOrigin e.uri e'.uri) :
    SameHost e.host e'.host := by
  obtain ⟨host, hleft, hright⟩ := h.host
  rw [normalizedUriHost_eq] at hleft hright
  exact Option.some.inj (hleft.trans hright.symm)

end HttpEndpoint

/-- Keys tell endpoints apart, both limiters use them as they are, and an origin has one key. -/
theorem limiter_keys_separate_endpoints :
    (∀ e e' : HttpEndpoint, rateLimitBucketKey e.uri = rateLimitBucketKey e'.uri ↔
      SameHost e.host e'.host ∧ defaultPort e.uri = defaultPort e'.uri) ∧
    (∀ e : HttpEndpoint, ∃ key, rateLimitBucketKey e.uri = some key ∧
      normalizeHostKey key = some key ∧
      RateLimit.bucketsOf (rateLimitBucketKey e.uri) = [.global, .host key] ∧
      ∀ (limit : Driver.HostLimit) (s : Driver.HostLimiters) (deadlineAt : Option ℕ) (now : ℕ),
        s.acquireHost (some limit) (rateLimitBucketKey e.uri) deadlineAt now =
          ((s.cleanup now).useEntry key limit.permits now).2.tryAcquire
            ((s.cleanup now).useEntry key limit.permits now).1.semaphore deadlineAt) ∧
    (Equivalence fun e e' : HttpEndpoint ↦ sameOrigin e.uri e'.uri = true) ∧
    ∀ e e' : HttpEndpoint, sameOrigin e.uri e'.uri = true →
      rateLimitBucketKey e.uri = rateLimitBucketKey e'.uri := by
  refine ⟨HttpEndpoint.rateLimitBucketKey_eq_iff, ?_, HttpEndpoint.sameOrigin_equivalence, ?_⟩
  · intro e
    obtain ⟨port, hport⟩ := e.exists_defaultPort
    have hkey := e.rateLimitBucketKey_eq hport
    have hagain := e.normalizeHostKey_hostAndPort port
    refine ⟨_, hkey, hagain, ?_, ?_⟩
    · rw [hkey, RateLimit.bucketsOf, Option.bind_some, hagain]
      rfl
    · intro limit s deadlineAt now
      unfold Driver.HostLimiters.acquireHost
      rw [hkey, Option.bind_some, hagain]
  · intro e e' h
    have horigin := sameOrigin_iff.mp h
    exact (e.rateLimitBucketKey_eq_iff e').mpr
      ⟨HttpEndpoint.sameHost_of_sameOrigin horigin, horigin.port⟩

namespace HttpEndpoint.Sample

def dotted : Uri where
  schemeStr := some "https".toList
  authority := some "API.test.".toList
  host := some "API.test.".toList
  portU16 := none
  text := "https://API.test./".toList

def withPort : Uri where
  schemeStr := some "https".toList
  authority := some "api.test:443".toList
  host := some "api.test".toList
  portU16 := some 443
  text := "https://api.test:443/".toList

theorem limiter_keys_separate_endpoints_dotted :
    ∃ e e' : HttpEndpoint, e.uri = dotted ∧ e'.uri = withPort ∧
      rateLimitBucketKey e.uri = rateLimitBucketKey e'.uri := by
  let e : HttpEndpoint :=
    ⟨dotted, "API.test.".toList, rfl, ⟨_, rfl, by decide⟩, by decide, .inr (by decide),
      by simp [isWhitespace]⟩
  let e' : HttpEndpoint :=
    ⟨withPort, "api.test".toList, rfl, ⟨_, rfl, by decide⟩, by decide, .inr (by decide),
      by simp [isWhitespace]⟩
  have hhost : SameHost e.host e'.host := by
    change toAsciiLowercase (trimEndMatches (· = '.') "API.test.".toList) =
      toAsciiLowercase (trimEndMatches (· = '.') "api.test".toList)
    decide
  exact ⟨e, e', rfl, rfl, (limiter_keys_separate_endpoints.1 e e').mpr ⟨hhost, by decide⟩⟩

end HttpEndpoint.Sample

end Reqx
