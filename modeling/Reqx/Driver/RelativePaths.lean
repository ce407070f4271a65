import Reqx.Driver.RequestTexts

/-!
# Relative request paths

A path without its leading slash is joined to the base URL like one with it, unless
`http::Uri` takes it for an authority.
-/

namespace Reqx

variable {deps : Dependencies} {path : Text}

/-- A relative path as it is usually written. -/
structure PlainPath (path : Text) : Prop where
  head : ∃ c ∈ path.head?, c.isAlphanum = true
  colon : ':' ∉ path

/-- `http::Uri` takes the whole text for an authority. -/
def Dependencies.TakesForAuthority (deps : Dependencies) (path : Text) : Prop :=
  ∃ uri, deps.parseUri path = some uri ∧ uri.host.isSome = true ∧ uri.schemeStr = none

/-- What the code relies on of `http::Uri` for texts without a scheme: there is none without a
colon, and a text that begins with a slash has no authority either. -/
structure Dependencies.Schemeless (deps : Dependencies) : Prop where
  scheme : ∀ {text uri}, ':' ∉ text → deps.parseUri text = some uri → uri.schemeStr = none
  slash : ∀ {path uri}, deps.parseUri ('/' :: path) = some uri →
    uri.host = none ∧ uri.schemeStr = none

/-- Both fail, or both succeed with the same text. -/
def SameOutcome : Except Error (Text × Uri) → Except Error (Text × Uri) → Prop
  | .ok a, .ok b => a.1 = b.1
  | .error _, .error _ => True
  | _, _ => False

theorem SameOutcome.refl : ∀ outcome, SameOutcome outcome outcome
  | .ok _ => rfl
  | .error _ => trivial

/-- The authority of an absolute URL, as a text. -/
def authorityText (text : Text) : Text :=
  match Text.splitOnceText schemeMark text with
  | some (_, rest) => rest.takeWhile inAuthority
  | none => []

theorem AbsoluteHttp.authorityText_eq {text scheme authority rest : Text}
    (h : AbsoluteHttp text scheme authority rest) : authorityText text = authority := by
  obtain ⟨hsplit, hauthority, -⟩ := h.cut_eq
  rw [authorityText, schemeMark, hsplit]
  exact hauthority

/-- The last branches of `join_base_path`. -/
def joinRelative (base relative : Text) : Text :=
  match base.isEmpty, relative.isEmpty with
  | true, true => []
  | true, false => relative
  | false, true => base
  | false, false => base ++ '/' :: relative

theorem joinBasePath_eq {path : Text} (hquery : path.head? ≠ some '?')
    (hfragment : path.head? ≠ some '#') (baseUrl : Text) :
    joinBasePath baseUrl path =
      joinRelative (Text.trimEndMatches (· = '/') baseUrl) (stripSlash path) := by
  unfold joinBasePath
  dsimp only
  split
  · exact absurd rfl hquery
  · exact absurd rfl hfragment
  · rfl

theorem PlainPath.head_ne (h : PlainPath path) {c : Char} (hc : c.isAlphanum = false) :
    path.head? ≠ some c := by
  obtain ⟨d, hd, halnum⟩ := h.head
  intro heq
  obtain rfl : d = c := Option.some.inj (hd.symm.trans heq)
  rw [hc] at halnum
  cases halnum

theorem PlainPath.joinBasePath_slash (h : PlainPath path) (baseUrl : Text) :
    joinBasePath baseUrl ('/' :: path) = joinBasePath baseUrl path := by
  have hplain : stripSlash path = path := by
    unfold stripSlash
    split
    · exact absurd rfl (h.head_ne (show '/'.isAlphanum = false by decide))
    · rfl
  rw [joinBasePath_eq (by simp) (by simp),
    joinBasePath_eq (h.head_ne (by decide)) (h.head_ne (by decide)), hplain]
  rfl

theorem startsWithIgnoreCase_colon {name text : Text} (h : ':' ∉ text) :
    Text.startsWithIgnoreCase (name ++ [':']) text = false := by
  rw [Bool.eq_false_iff]
  intro hstart
  obtain ⟨start, rest, rfl, heq⟩ := Text.startsWithIgnoreCase_iff.mp hstart
  have hlower : start.map Char.toLower = name.map Char.toLower ++ [':'].map Char.toLower := by
    rw [← List.map_append]
    exact of_decide_eq_true heq
  obtain ⟨before, colon, rfl, -, hcolon⟩ := List.map_eq_append_iff.mp hlower
  have hplain : [':'].map Char.toLower = [':'] := by decide
  obtain rfl : colon = [':'] :=
    Text.eq_of_toAsciiLowercase_eq (List.forall_mem_singleton.mpr rfl) (hcolon.trans hplain)
  exact h (by simp)

theorem not_malformed_of_colon {text : Text} (h : ':' ∉ text) :
    looksLikeMalformedHttpAbsoluteUri text = false := by
  have hhttp : Text.startsWithIgnoreCase ("http".toList ++ [':']) text = false :=
    startsWithIgnoreCase_colon h
  have hhttps : Text.startsWithIgnoreCase ("https".toList ++ [':']) text = false :=
    startsWithIgnoreCase_colon h
  rw [looksLikeMalformedHttpAbsoluteUri, Bool.or_eq_false_iff]
  exact ⟨hhttp, hhttps⟩

theorem requestUriText_of_not_taken (schemeless : deps.Schemeless) {text : Text}
    (hcolon : ':' ∉ text) (h : ¬ deps.TakesForAuthority text) (baseUrl : Text) :
    requestUriText deps baseUrl text = .ok (joinBasePath baseUrl text) := by
  cases hparse : deps.parseUri text with
  | none => simp [requestUriText, hparse, not_malformed_of_colon hcolon]
  | some uri =>
    have hscheme := schemeless.scheme hcolon hparse
    have hhost : uri.host.isSome = false :=
      Bool.eq_false_iff.mpr fun hhost ↦ h ⟨uri, hparse, hhost, hscheme⟩
    simp [requestUriText, hparse, hhost, hscheme]

theorem requestUriText_slash (schemeless : deps.Schemeless) (hpath : PlainPath path)
    (baseUrl : Text) :
    requestUriText deps baseUrl ('/' :: path) = .ok (joinBasePath baseUrl path) := by
  rw [← hpath.joinBasePath_slash baseUrl]
  refine requestUriText_of_not_taken schemeless ?_ ?_ baseUrl
  · rw [List.mem_cons, not_or]
    exact ⟨by decide, hpath.colon⟩
  · rintro ⟨uri, hparse, hhost, -⟩
    rw [(schemeless.slash hparse).1] at hhost
    cases hhost

/-- The outcomes agree if and only if `http::Uri` does not take the path for an authority, or the
request fails with the slash as well. -/
theorem leading_slash_optional_iff (parsers : deps.Documented) (schemeless : deps.Schemeless)
    {baseUrl : Text} (hbase : validateBaseUrl deps baseUrl = .ok ()) (hpath : PlainPath path) :
    SameOutcome (resolveUri deps baseUrl path) (resolveUri deps baseUrl ('/' :: path)) ↔
      ¬ deps.TakesForAuthority path ∨ deps.parseUri (joinBasePath baseUrl path) = none ∨
        '@' ∈ authorityText baseUrl := by
  obtain ⟨⟨scheme, authority, rest, habsolute⟩, -⟩ := parseUri_of_validateBaseUrl hbase
  have hslash := requestUriText_slash schemeless hpath baseUrl
  rw [habsolute.authorityText_eq]
  by_cases htaken : deps.TakesForAuthority path
  · obtain ⟨taken, hparse, hhost, hnone⟩ := id htaken
    have hfails : resolveUri deps baseUrl path =
        .error (.invalidUri (redactUriWithoutUrlNormalization path)) := by
      simp [resolveUri, requestUriText, hparse, hhost, hnone]
    rw [hfails, resolveUri, hslash]
    dsimp only
    cases hjoined : deps.parseUri (joinBasePath baseUrl path) with
    | none => exact iff_of_true trivial (.inr (.inl rfl))
    | some uri =>
      obtain ⟨rest', habsolute'⟩ := habsolute.joinBasePath path
      have hauthority := (parsers.parseUri_absolute habsolute' hjoined).2
      dsimp only
      by_cases huserinfo : '@' ∈ authority
      · rw [if_pos (by simpa [uriHasUserinfo, hauthority, Text.contains] using huserinfo)]
        exact iff_of_true trivial (.inr (.inr huserinfo))
      · rw [if_neg (by simpa [uriHasUserinfo, hauthority, Text.contains] using huserinfo)]
        refine iff_of_false id ?_
        rintro (hfalse | hnone | hmem)
        · exact hfalse htaken
        · cases hnone
        · exact huserinfo hmem
  · refine iff_of_true ?_ (.inl htaken)
    rw [resolveUri, resolveUri, requestUriText_of_not_taken schemeless hpath.colon htaken, hslash]
    exact SameOutcome.refl _

open Driver.Sample (parsers knownUris mem_of_known documented_parsers)

theorem RequestTexts.schemeless_parsers : parsers.Schemeless where
  scheme hcolon hparse := by
    have htable : ∀ entry ∈ knownUris, ':' ∉ entry.1 → entry.2.schemeStr = none := by
      decide +kernel
    exact htable _ (mem_of_known hparse) hcolon
  slash hparse := by
    have htable : ∀ entry ∈ knownUris, entry.1.head? = some '/' →
        entry.2.host = none ∧ entry.2.schemeStr = none := by decide +kernel
    exact htable _ (mem_of_known hparse) rfl

theorem leading_slash_optional :
    SameOutcome (resolveUri parsers "https://a.test/v1".toList "users/1".toList)
        (resolveUri parsers "https://a.test/v1".toList "/users/1".toList) ↔
      ¬ parsers.TakesForAuthority "users/1".toList ∨
        parsers.parseUri (joinBasePath "https://a.test/v1".toList "users/1".toList) = none ∨
          '@' ∈ authorityText "https://a.test/v1".toList :=
  leading_slash_optional_iff documented_parsers RequestTexts.schemeless_parsers
    (by decide +kernel) ⟨⟨'u', rfl, by decide⟩, by decide⟩

theorem leading_slash_required :
    validateBaseUrl parsers "https://a.test/v1".toList = .ok () ∧ PlainPath "users".toList ∧
      resolveUri parsers "https://a.test/v1".toList "users".toList =
        .error (.invalidUri "users".toList) ∧
      (resolveUri parsers "https://a.test/v1".toList "/users".toList).map Prod.fst =
        .ok "https://a.test/v1/users".toList :=
  ⟨by decide +kernel, ⟨⟨'u', rfl, by decide⟩, by decide⟩, by decide +kernel, by decide +kernel⟩

end Reqx
