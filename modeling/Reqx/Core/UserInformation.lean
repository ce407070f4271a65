import Reqx.Library.Splitting
import Reqx.Core.Redaction

/-!
# User information in redacted texts

The fallback redaction cuts a text at its first query or fragment, then rewrites
the authority behind its first `://`, or behind leading slashes, and at last the
credentials of a mail or phone address. No rewrite undoes another one, and none
of them has anything left to do on its own output.
-/

namespace Reqx

open Text

/-! ## The authority -/

def authorityPart (rest : Text) : Text := rest.takeWhile (· ≠ '/')

def pathPart (rest : Text) : Text := rest.dropWhile (· ≠ '/')

def shownHost (hostPort : Text) : Text := if hostPort.isEmpty then redactedMark else hostPort

/-- What the redaction makes of the text behind the mark of an authority. -/
def hideUserinfo (rest : Text) : Text :=
  match rsplitOnce '@' (authorityPart rest) with
  | none => rest
  | some (_, hostPort) => shownHost hostPort ++ pathPart rest

theorem redactWithPrefix_getD (start rest : Text) :
    (redactWithPrefix start rest).getD (start ++ rest) = start ++ hideUserinfo rest := by
  unfold redactWithPrefix hideUserinfo
  dsimp only
  rw [← authorityPart, ← pathPart]
  cases rsplitOnce '@' (authorityPart rest) with
  | none => rfl
  | some parts =>
    obtain ⟨user, hostPort⟩ := parts
    cases hostPort with
    | nil => simp [shownHost]
    | cons c hostPort => simp [shownHost]

theorem slash_not_mem_authorityPart (rest : Text) : '/' ∉ authorityPart rest := by
  intro h
  simpa using List.mem_takeWhile_imp h

theorem authorityPart_append_pathPart (rest : Text) : authorityPart rest ++ pathPart rest = rest :=
  List.takeWhile_append_dropWhile

theorem pathPart_head (rest : Text) : ∀ c ∈ (pathPart rest).head?, c = '/' := by
  intro c hc
  rw [pathPart, ← List.find?_not_eq_head?_dropWhile] at hc
  simpa using List.find?_some hc

/-- A text without slashes before a path is cut there. -/
theorem cut_append {a b : Text} (ha : '/' ∉ a) (hb : ∀ c ∈ b.head?, c = '/') :
    authorityPart (a ++ b) = a ∧ pathPart (a ++ b) = b := by
  have hinside : ∀ d ∈ a, decide (d ≠ '/') = true := fun d hd ↦
    decide_eq_true fun heq ↦ ha (heq ▸ hd)
  unfold authorityPart pathPart
  rw [List.takeWhile_append_of_pos hinside, List.dropWhile_append_of_pos hinside]
  cases b with
  | nil => simp
  | cons c b =>
    obtain rfl : c = '/' := hb c rfl
    simp

variable {rest : Text}

theorem hideUserinfo_of_notMem (h : '@' ∉ authorityPart rest) : hideUserinfo rest = rest := by
  rw [hideUserinfo, rsplitOnce_eq_none h]

theorem hideUserinfo_of_userinfo {rest user hostPort : Text}
    (h : authorityPart rest = user ++ '@' :: hostPort) (hhost : '@' ∉ hostPort) :
    hideUserinfo rest = shownHost hostPort ++ pathPart rest := by
  rw [hideUserinfo, h, rsplitOnce_append _ hhost]

/-- Either there is no user information, or it is cut out. -/
theorem hideUserinfo_cases (rest : Text) :
    '@' ∉ authorityPart rest ∧ hideUserinfo rest = rest ∨
      ∃ user hostPort, authorityPart rest = user ++ '@' :: hostPort ∧ '@' ∉ hostPort ∧
        hideUserinfo rest = shownHost hostPort ++ pathPart rest := by
  cases hsplit : rsplitOnce '@' (authorityPart rest) with
  | none =>
    have hnone := rsplitOnce_eq_none_iff.mp hsplit
    exact .inl ⟨hnone, hideUserinfo_of_notMem hnone⟩
  | some parts =>
    obtain ⟨heq, hhost⟩ := rsplitOnce_eq_some hsplit
    exact .inr ⟨parts.1, parts.2, heq, hhost, hideUserinfo_of_userinfo heq hhost⟩

theorem slash_not_mem_shownHost {hostPort : Text} (h : '/' ∉ hostPort) :
    '/' ∉ shownHost hostPort := by
  unfold shownHost
  split_ifs
  · decide
  · exact h

/-- The authority that is shown: without user information, or the mark alone. -/
theorem authorityPart_hideUserinfo (rest : Text) :
    '@' ∉ authorityPart (hideUserinfo rest) ∨
      authorityPart (hideUserinfo rest) = redactedMark ∧
        (authorityPart rest).getLast? = some '@' := by
  rcases hideUserinfo_cases rest with ⟨hnone, heq⟩ | ⟨user, hostPort, hcut, hhost, heq⟩
  · rw [heq]
    exact .inl hnone
  · have hslash : '/' ∉ hostPort := by
      intro hmem
      apply slash_not_mem_authorityPart rest
      rw [hcut]
      exact List.mem_append_right _ (List.mem_cons_of_mem _ hmem)
    rw [heq, (cut_append (slash_not_mem_shownHost hslash) (pathPart_head rest)).1]
    cases hostPort with
    | nil =>
      right
      rw [hcut]
      exact ⟨rfl, by simp⟩
    | cons c hostPort => exact .inl hhost

theorem hideUserinfo_hideUserinfo (rest : Text) :
    hideUserinfo (hideUserinfo rest) = hideUserinfo rest := by
  rcases authorityPart_hideUserinfo rest with hnone | ⟨hmark, -⟩
  · exact hideUserinfo_of_notMem hnone
  · have hcut : authorityPart (hideUserinfo rest) = "<redacted>".toList ++ '@' :: [] := hmark
    rw [hideUserinfo_of_userinfo hcut (by simp)]
    conv_rhs => rw [← authorityPart_append_pathPart (hideUserinfo rest), hmark]
    rfl

variable {c : Char}

theorem mem_hideUserinfo (h : c ∈ hideUserinfo rest) : c ∈ rest ∨ c ∈ redactedMark := by
  rcases hideUserinfo_cases rest with ⟨-, heq⟩ | ⟨user, hostPort, hcut, -, heq⟩
  · rw [heq] at h
    exact .inl h
  · rw [heq, List.mem_append] at h
    rw [← authorityPart_append_pathPart rest, hcut]
    rcases h with h | h
    · unfold shownHost at h
      split_ifs at h
      · exact .inr h
      · exact .inl (List.mem_append_left _ (List.mem_append_right _ (List.mem_cons_of_mem _ h)))
    · exact .inl (List.mem_append_right _ h)

/-! ## The first rewrite -/

def schemeMark : Text := "://".toList

theorem redactUserinfoInAuthority_absolute {t scheme rest : Text}
    (h : splitOnceText schemeMark t = some (scheme, rest)) :
    redactUserinfoInAuthority t = scheme ++ schemeMark ++ hideUserinfo rest := by
  have ht := splitOnceText_eq_some h
  rw [redactUserinfoInAuthority, ← schemeMark, h]
  dsimp only
  rw [ht, redactWithPrefix_getD]

theorem redactUserinfoInAuthority_network (h : ¬ schemeMark <:+: "//".toList ++ rest) :
    redactUserinfoInAuthority ("//".toList ++ rest) = "//".toList ++ hideUserinfo rest := by
  rw [redactUserinfoInAuthority, ← schemeMark, splitOnceText_eq_none_iff.mpr h]
  exact redactWithPrefix_getD "//".toList rest

variable {t : Text}

theorem redactUserinfoInAuthority_other (hmark : ¬ schemeMark <:+: t)
    (hslashes : ¬ "//".toList <+: t) : redactUserinfoInAuthority t = t := by
  rw [redactUserinfoInAuthority, ← schemeMark, splitOnceText_eq_none_iff.mpr hmark]
  dsimp only
  rw [startsWith, if_neg]
  rwa [List.isPrefixOf_iff_prefix]

theorem schemeMark_infix_of_append {before rest : Text} (hbefore : ':' ∉ before)
    (h : schemeMark <:+: before ++ rest) : schemeMark <:+: rest := by
  induction before with
  | nil => exact h
  | cons c before ih =>
    rw [List.mem_cons, not_or] at hbefore
    rcases List.infix_cons_iff.mp h with hstart | hlater
    · exact absurd (List.cons_prefix_cons.mp hstart).1 hbefore.1
    · exact ih hbefore.2 hlater

/-- The mark does not lie across the end of a text without slashes. -/
theorem schemeMark_infix_of_at {before rest : Text} (hbefore : '/' ∉ before)
    (h : schemeMark <:+: before ++ '@' :: rest) : schemeMark <:+: rest := by
  induction before with
  | nil => exact schemeMark_infix_of_append (show ':' ∉ ['@'] by decide) h
  | cons c before ih =>
    rw [List.mem_cons, not_or] at hbefore
    rcases List.infix_cons_iff.mp h with hstart | hlater
    · have hslash := (List.cons_prefix_cons.mp hstart).2
      cases before with
      | nil => cases (List.cons_prefix_cons.mp hslash).1
      | cons d before =>
        obtain rfl := (List.cons_prefix_cons.mp hslash).1
        exact absurd List.mem_cons_self hbefore.2
    · exact ih hbefore.2 hlater

theorem schemeMark_infix_hideUserinfo (h : schemeMark <:+: hideUserinfo rest) :
    schemeMark <:+: rest := by
  rcases hideUserinfo_cases rest with ⟨-, heq⟩ | ⟨user, hostPort, hcut, -, heq⟩
  · rwa [heq] at h
  · have hsuffix : hostPort ++ pathPart rest <:+ rest := by
      refine ⟨user ++ ['@'], ?_⟩
      conv_rhs => rw [← authorityPart_append_pathPart rest, hcut]
      simp
    apply List.IsInfix.trans ?_ hsuffix.isInfix
    rw [heq, shownHost] at h
    split_ifs at h with hempty
    · rw [List.isEmpty_iff.mp hempty]
      exact schemeMark_infix_of_append (by decide) h
    · exact h

theorem redactUserinfoInAuthority_idem (t : Text) :
    redactUserinfoInAuthority (redactUserinfoInAuthority t) = redactUserinfoInAuthority t := by
  cases hsplit : splitOnceText schemeMark t with
  | some parts =>
    obtain ⟨scheme, rest⟩ := parts
    have hagain := splitOnceText_replace (by decide) hsplit (hideUserinfo rest)
    rw [redactUserinfoInAuthority_absolute hsplit, redactUserinfoInAuthority_absolute hagain,
      hideUserinfo_hideUserinfo]
  | none =>
    have hmark := splitOnceText_eq_none_iff.mp hsplit
    by_cases hslashes : "//".toList <+: t
    · obtain ⟨rest, rfl⟩ := hslashes
      have hmark' : ¬ schemeMark <:+: "//".toList ++ hideUserinfo rest := by
        intro hshown
        have hrest := schemeMark_infix_hideUserinfo
          (schemeMark_infix_of_append (by decide) hshown)
        exact hmark (hrest.trans (List.suffix_append _ _).isInfix)
      rw [redactUserinfoInAuthority_network hmark, redactUserinfoInAuthority_network hmark',
        hideUserinfo_hideUserinfo]
    · rw [redactUserinfoInAuthority_other hmark hslashes,
        redactUserinfoInAuthority_other hmark hslashes]

theorem redactUserinfoInAuthority_cases (t : Text) :
    redactUserinfoInAuthority t = t ∨ ∃ lead rest, t = lead ++ rest ∧ lead ≠ [] ∧
      redactUserinfoInAuthority t = lead ++ hideUserinfo rest := by
  cases hsplit : splitOnceText schemeMark t with
  | some parts =>
    exact .inr ⟨_, _, splitOnceText_eq_some hsplit, by simp [schemeMark],
      redactUserinfoInAuthority_absolute hsplit⟩
  | none =>
    have hmark := splitOnceText_eq_none_iff.mp hsplit
    by_cases hslashes : "//".toList <+: t
    · obtain ⟨rest, rfl⟩ := hslashes
      exact .inr ⟨_, rest, rfl, List.cons_ne_nil _ _, redactUserinfoInAuthority_network hmark⟩
    · exact .inl (redactUserinfoInAuthority_other hmark hslashes)

theorem redactUserinfoInAuthority_of_notMem (h : '@' ∉ t) : redactUserinfoInAuthority t = t := by
  obtain heq | ⟨lead, rest, rfl, -, heq⟩ := redactUserinfoInAuthority_cases t
  · exact heq
  · rw [heq, hideUserinfo_of_notMem]
    exact fun hmem ↦ h (List.mem_append_right _ ((List.takeWhile_sublist _).subset hmem))

/-- The user information is missed when the first mark stands behind it. -/
theorem redactUserinfoInAuthority_of_last {before after : Text} (hafter : '@' ∉ after)
    (hbefore : ¬ schemeMark <:+: before)
    (hslashes : ¬ schemeMark <:+: before ++ '@' :: after →
      ¬ "//".toList <+: before ++ '@' :: after) :
    redactUserinfoInAuthority (before ++ '@' :: after) = before ++ '@' :: after := by
  cases hsplit : splitOnceText schemeMark (before ++ '@' :: after) with
  | none =>
    have hmark := splitOnceText_eq_none_iff.mp hsplit
    exact redactUserinfoInAuthority_other hmark (hslashes hmark)
  | some parts =>
    obtain ⟨scheme, rest⟩ := parts
    have ht := splitOnceText_eq_some hsplit
    rw [redactUserinfoInAuthority_absolute hsplit, hideUserinfo_of_notMem, ← ht]
    -- An `@` behind the mark would be the last one of the text.
    intro hmem
    have hrest : '@' ∈ rest := (List.takeWhile_sublist _).subset hmem
    cases hat : rsplitOnce '@' rest with
    | none => exact rsplitOnce_eq_none_iff.mp hat hrest
    | some parts' =>
      obtain ⟨hrest', hclean⟩ := rsplitOnce_eq_some hat
      have hsame := rsplitOnce_append (scheme ++ schemeMark ++ parts'.1) hclean
      rw [List.append_assoc _ parts'.1, ← hrest', ← ht,
        rsplitOnce_append _ hafter] at hsame
      have hcut : before = scheme ++ schemeMark ++ parts'.1 :=
        (Prod.ext_iff.mp (Option.some.inj hsame)).1
      exact hbefore ⟨scheme, parts'.1, hcut.symm⟩

/-! ## The second rewrite -/

def isMailScheme (scheme : Text) : Bool :=
  let lower := toAsciiLowercase scheme
  lower = "mailto".toList ∨ lower = "sip".toList ∨ lower = "sips".toList

theorem notMem_of_isMailScheme {scheme : Text} (h : isMailScheme scheme = true)
    (hlower : c.toLower = c) (hc : ∀ t ∈ ["mailto".toList, "sip".toList, "sips".toList], c ∉ t) :
    c ∉ scheme := by
  intro hmem
  have hmem' : c ∈ toAsciiLowercase scheme := List.mem_map.mpr ⟨c, hmem, hlower⟩
  refine hc _ ?_ hmem'
  simpa only [List.mem_cons, List.not_mem_nil, or_false] using of_decide_eq_true h

/-- Either nothing changes, or the credentials of an address are replaced as a whole. -/
theorem redactNonAuthorityCredentials_cases (t : Text) :
    redactNonAuthorityCredentials t = t ∨ ∃ scheme credential suffix,
      isMailScheme scheme = true ∧ '@' ∉ suffix ∧
        t = scheme ++ ':' :: (credential ++ '@' :: suffix) ∧
          redactNonAuthorityCredentials t = scheme ++ ':' :: (redactedMark ++ suffix) := by
  unfold redactNonAuthorityCredentials
  cases hcolon : splitOnce ':' t with
  | none => exact .inl rfl
  | some parts =>
    obtain ⟨scheme, remainder⟩ := parts
    dsimp only
    split_ifs with hscheme
    · exact .inl rfl
    · exact .inl rfl
    · cases hat : rsplitOnce '@' remainder with
      | none => exact .inl rfl
      | some parts' =>
        obtain ⟨credential, suffix⟩ := parts'
        dsimp only
        split_ifs
        · exact .inl rfl
        · exact .inl rfl
        · obtain ⟨ht, -⟩ := splitOnce_eq_some hcolon
          obtain ⟨hremainder, hsuffix⟩ := rsplitOnce_eq_some hat
          refine .inr ⟨scheme, credential, suffix, ?_, hsuffix, ?_, ?_⟩
          · rw [isMailScheme, decide_eq_true_iff]
            tauto
          · rw [ht, hremainder]
          · simp

theorem redactNonAuthorityCredentials_of_notMem (h : '@' ∉ t) :
    redactNonAuthorityCredentials t = t := by
  rcases redactNonAuthorityCredentials_cases t with
    heq | ⟨scheme, credential, suffix, -, -, rfl, -⟩
  · exact heq
  · exact absurd (by simp) h

theorem redactNonAuthorityCredentials_of_scheme
    (h : ∀ scheme rest, ':' ∉ scheme → t = scheme ++ ':' :: rest → isMailScheme scheme = false) :
    redactNonAuthorityCredentials t = t := by
  rcases redactNonAuthorityCredentials_cases t with
    heq | ⟨scheme, credential, suffix, hscheme, -, ht, -⟩
  · exact heq
  · have hcolon : ':' ∉ scheme := notMem_of_isMailScheme hscheme (by decide) (by decide)
    rw [h scheme _ hcolon ht] at hscheme
    cases hscheme

theorem redactNonAuthorityCredentials_marked {scheme suffix : Text}
    (hscheme : isMailScheme scheme = true) (hsuffix : '@' ∉ suffix) :
    redactNonAuthorityCredentials (scheme ++ ':' :: (redactedMark ++ suffix)) =
      scheme ++ ':' :: (redactedMark ++ suffix) := by
  have hcolon : ':' ∉ scheme := notMem_of_isMailScheme hscheme (by decide) (by decide)
  have hmark : redactedMark ++ suffix = "<redacted>".toList ++ '@' :: suffix := rfl
  unfold redactNonAuthorityCredentials
  rw [splitOnce_append hcolon, hmark]
  dsimp only
  rw [rsplitOnce_append _ hsuffix]
  split_ifs <;> rfl

/-- A text with the mark has nothing left to hide in an authority. -/
theorem redactUserinfoInAuthority_marked {scheme suffix : Text}
    (hscheme : isMailScheme scheme = true) (hsuffix : '@' ∉ suffix) :
    redactUserinfoInAuthority (scheme ++ ':' :: (redactedMark ++ suffix)) =
      scheme ++ ':' :: (redactedMark ++ suffix) := by
  have hslash : '/' ∉ scheme := notMem_of_isMailScheme hscheme (by decide) (by decide)
  have hcut : scheme ++ ':' :: (redactedMark ++ suffix) =
      (scheme ++ ":<redacted>".toList) ++ '@' :: suffix := by
    rw [List.append_assoc]
    rfl
  have hstart : '/' ∉ scheme ++ ":<redacted>".toList := by
    rw [List.mem_append, not_or]
    exact ⟨hslash, by decide⟩
  rw [hcut]
  apply redactUserinfoInAuthority_of_last hsuffix
  · intro hmark
    exact hstart (hmark.subset (by decide))
  · intro _ hslashes
    cases scheme with
    | nil => cases (List.cons_prefix_cons.mp hslashes).1
    | cons c scheme =>
      rw [← (List.cons_prefix_cons.mp hslashes).1] at hslash
      exact hslash List.mem_cons_self

/-! ## The fallback redaction -/

-- A parsed URL does not take this way: its parts are removed by setters.
def clearedUrl (deps : Dependencies) (url : Url) : Url :=
  deps.setFragment (deps.setQuery (deps.setPassword (deps.setUsername url []) none) none) none

theorem notMem_stripQueryAndFragment (t : Text) :
    '?' ∉ stripQueryAndFragment t ∧ '#' ∉ stripQueryAndFragment t := by
  constructor <;>
  · intro h
    simpa using List.mem_takeWhile_imp h

theorem stripQueryAndFragment_append {a : Text} (hquery : '?' ∉ a) (hfragment : '#' ∉ a)
    (b : Text) : stripQueryAndFragment (a ++ b) = a ++ stripQueryAndFragment b := by
  apply List.takeWhile_append_of_pos
  intro c hc
  have hq : c ≠ '?' := fun heq ↦ hquery (heq ▸ hc)
  have hf : c ≠ '#' := fun heq ↦ hfragment (heq ▸ hc)
  exact decide_eq_true ⟨hq, hf⟩

theorem stripQueryAndFragment_eq_self (hquery : '?' ∉ t) (hfragment : '#' ∉ t) :
    stripQueryAndFragment t = t := by
  have happend : stripQueryAndFragment (t ++ []) = t ++ [] :=
    stripQueryAndFragment_append hquery hfragment []
  rwa [List.append_nil] at happend

theorem mem_redactUserinfoInAuthority (h : c ∈ redactUserinfoInAuthority t) :
    c ∈ t ∨ c ∈ redactedMark := by
  obtain heq | ⟨lead, rest, rfl, -, heq⟩ := redactUserinfoInAuthority_cases t
  · exact .inl (heq ▸ h)
  · rw [heq, List.mem_append] at h
    rcases h with h | h
    · exact .inl (List.mem_append_left _ h)
    · exact (mem_hideUserinfo h).imp_left (List.mem_append_right _)

theorem mem_redactNonAuthorityCredentials (h : c ∈ redactNonAuthorityCredentials t) :
    c ∈ t ∨ c ∈ redactedMark := by
  rcases redactNonAuthorityCredentials_cases t with
    heq | ⟨scheme, credential, suffix, -, -, ht, heq⟩
  · rw [heq] at h
    exact .inl h
  · rw [heq] at h
    rw [ht]
    simp only [List.mem_append, List.mem_cons] at h ⊢
    tauto

theorem notMem_redactUriWithoutUrlNormalization (t : Text) (hstrip : c ∉ stripQueryAndFragment t)
    (hmark : c ∉ redactedMark) : c ∉ redactUriWithoutUrlNormalization t := by
  intro h
  rcases mem_redactNonAuthorityCredentials h with h | h
  · rcases mem_redactUserinfoInAuthority h with h | h
    · exact hstrip h
    · exact hmark h
  · exact hmark h

theorem redactUriWithoutUrlNormalization_idem (t : Text) :
    redactUriWithoutUrlNormalization (redactUriWithoutUrlNormalization t) =
      redactUriWithoutUrlNormalization t := by
  obtain ⟨hquery, hfragment⟩ := notMem_stripQueryAndFragment t
  have hstrip : stripQueryAndFragment (redactUriWithoutUrlNormalization t) =
      redactUriWithoutUrlNormalization t :=
    stripQueryAndFragment_eq_self
      (notMem_redactUriWithoutUrlNormalization t hquery (by decide))
      (notMem_redactUriWithoutUrlNormalization t hfragment (by decide))
  have hauthority := redactUserinfoInAuthority_idem (stripQueryAndFragment t)
  conv_lhs => rw [redactUriWithoutUrlNormalization, hstrip]
  unfold redactUriWithoutUrlNormalization
  rcases redactNonAuthorityCredentials_cases
      (redactUserinfoInAuthority (stripQueryAndFragment t)) with
    heq | ⟨scheme, credential, suffix, hscheme, hsuffix, -, heq⟩
  · rw [heq, hauthority, heq]
  · rw [heq, redactUserinfoInAuthority_marked hscheme hsuffix,
      redactNonAuthorityCredentials_marked hscheme hsuffix]

theorem scheme_starts {scheme rest before after : Text} (hcolon : ':' ∉ scheme)
    (h : scheme ++ ':' :: rest = before ++ schemeMark ++ after) :
    scheme ++ [':'] <+: before ++ schemeMark := by
  have hscheme : scheme ++ [':'] <+: scheme ++ ':' :: rest := ⟨rest, by simp⟩
  have hbefore : before ++ schemeMark <+: scheme ++ ':' :: rest := ⟨after, h.symm⟩
  refine List.prefix_of_prefix_length_le hscheme hbefore ?_
  by_contra hlong
  have hshort : (before ++ schemeMark).length ≤ scheme.length := by
    simp only [List.length_append, List.length_singleton] at hlong ⊢
    omega
  have hinside := List.prefix_of_prefix_length_le hbefore (List.prefix_append scheme _) hshort
  exact hcolon (hinside.subset (by simp [schemeMark]))

/-- The output has no query and no fragment, it is not changed by a second pass, and behind its
first `://` there is no user information. -/
theorem fallback_redaction_clean (t : Text) :
    ('?' ∉ redactUriWithoutUrlNormalization t ∧ '#' ∉ redactUriWithoutUrlNormalization t) ∧
    redactUriWithoutUrlNormalization (redactUriWithoutUrlNormalization t) =
      redactUriWithoutUrlNormalization t ∧
    (schemeMark <:+: stripQueryAndFragment t →
      -- The credentials of a mail or phone address were replaced as a whole.
      (∃ scheme suffix, isMailScheme scheme = true ∧ scheme ++ [':'] <+: t ∧ '@' ∉ suffix ∧
        redactUriWithoutUrlNormalization t = scheme ++ ':' :: (redactedMark ++ suffix)) ∨
      ∃ scheme rest shown,
        Text.splitOnceText schemeMark (stripQueryAndFragment t) = some (scheme, rest) ∧
        Text.splitOnceText schemeMark (redactUriWithoutUrlNormalization t) =
          some (scheme, shown) ∧
        ('@' ∉ authorityPart shown ∨
          authorityPart shown = redactedMark ∧ (authorityPart rest).getLast? = some '@')) := by
  obtain ⟨hquery, hfragment⟩ := notMem_stripQueryAndFragment t
  refine ⟨⟨notMem_redactUriWithoutUrlNormalization t hquery (by decide),
    notMem_redactUriWithoutUrlNormalization t hfragment (by decide)⟩,
    redactUriWithoutUrlNormalization_idem t, fun hmark ↦ ?_⟩
  obtain ⟨⟨scheme, rest⟩, hsplit⟩ :=
    Option.isSome_iff_exists.mp (splitOnceText_isSome_iff.mpr hmark)
  have hauthority := redactUserinfoInAuthority_absolute hsplit
  rcases redactNonAuthorityCredentials_cases
      (redactUserinfoInAuthority (stripQueryAndFragment t)) with
    heq | ⟨mail, credential, suffix, hmail, hsuffix, ht, heq⟩
  · refine .inr ⟨scheme, rest, hideUserinfo rest, hsplit, ?_, authorityPart_hideUserinfo rest⟩
    rw [redactUriWithoutUrlNormalization, heq, hauthority]
    exact splitOnceText_replace (by decide) hsplit _
  · refine .inl ⟨mail, suffix, hmail, ?_, hsuffix, heq⟩
    have hcolon : ':' ∉ mail := notMem_of_isMailScheme hmail (by decide) (by decide)
    have hstart := scheme_starts hcolon (ht.symm.trans hauthority)
    have hkept : scheme ++ schemeMark <+: stripQueryAndFragment t :=
      ⟨rest, (splitOnceText_eq_some hsplit).symm⟩
    have hstrip : stripQueryAndFragment t <+: t := List.takeWhile_prefix _
    exact (hstart.trans hkept).trans hstrip

end Reqx
