import Reqx.Core.Error
import Reqx.Core.Redaction
import Reqx.Core.Redirect

/-!
# Where a request goes

A request names a path or an absolute URL. A path is appended to the base URL
as a text, so it cannot change the scheme or the authority, whatever it holds.
A redirect goes through two parsers, and each of its targets is an HTTP URL
with a host and without user information.
-/

namespace Reqx

open Text

variable (deps : Dependencies)

/-! ## The base URL -/

def invalidBaseUrlError (baseUrl : Text) : Error := .invalidUri (redactUriForLogs deps baseUrl)

def validateBaseUrl (baseUrl : Text) : Except Error Unit :=
  let normalized := trim baseUrl
  let invalid : Except Error Unit := .error (invalidBaseUrlError deps baseUrl)
  if normalized.length ≠ baseUrl.length then invalid
  else if normalized.isEmpty then invalid
  else
    match deps.parseUrl normalized with
    | none => invalid
    | some parsed =>
      if !isHttpScheme parsed.scheme then invalid
      else if parsed.hostStr.isNone then invalid
      else if !parsed.username.isEmpty || parsed.password.isSome then invalid
      else if parsed.query.isSome || parsed.fragment.isSome then invalid
      else if !isValidAbsoluteHttpUriText deps normalized then invalid
      else
        match deps.parseUri normalized with
        | none => invalid
        | some uri => if uri.schemeStr.isNone || uri.host.isNone then invalid else .ok ()

def stripSlash : Text → Text
  | '/' :: rest => rest
  | path => path

def joinBasePath (baseUrl path : Text) : Text :=
  let base := trimEndMatches (· = '/') baseUrl
  match path with
  | '?' :: suffix => if base.isEmpty then '?' :: suffix else base ++ '?' :: suffix
  | '#' :: suffix => if base.isEmpty then '#' :: suffix else base ++ '#' :: suffix
  | _ =>
    match base.isEmpty, (stripSlash path).isEmpty with
    | true, true => []
    | true, false => stripSlash path
    | false, true => base
    | false, false => base ++ '/' :: stripSlash path

/-! ## The request URI -/

/-- The first half of `resolve_uri`: an absolute URL stays, a path is joined to the base. -/
def requestUriText (baseUrl path : Text) : Except Error Text :=
  match deps.parseUri path with
  | some uri =>
    if uri.host.isSome then
      match uri.schemeStr with
      | none => .error (.invalidUri (redactUriWithoutUrlNormalization path))
      | some scheme =>
        if uriHasUserinfo uri then .error (.invalidUri (redactUriForLogs deps path))
        else if (eqIgnoreAsciiCase scheme "http".toList ||
            eqIgnoreAsciiCase scheme "https".toList) &&
              isValidAbsoluteHttpUriText deps path then .ok path
        else .error (.invalidUri (redactUriForLogs deps path))
    else if uri.schemeStr.isSome then .error (.invalidUri (redactUriForLogs deps path))
    else .ok (joinBasePath baseUrl path)
  | none =>
    if looksLikeMalformedHttpAbsoluteUri path then
      .error (.invalidUri (redactUriWithoutUrlNormalization path))
    else .ok (joinBasePath baseUrl path)

def resolveUri (baseUrl path : Text) : Except Error (Text × Uri) :=
  match requestUriText deps baseUrl path with
  | .error error => .error error
  | .ok uriText =>
    match deps.parseUri uriText with
    | none => .error (.invalidUri (redactUriForLogs deps uriText))
    | some uri =>
      if uriHasUserinfo uri then .error (.invalidUri (redactUriForLogs deps uriText))
      else .ok (uriText, uri)

/-! ## Absolute texts -/

def endsAuthority (c : Char) : Bool := c = '/' ∨ c = '?' ∨ c = '#'

def isHttpIgnoreCase (scheme : Text) : Bool :=
  eqIgnoreAsciiCase scheme "http".toList || eqIgnoreAsciiCase scheme "https".toList

/-- The text of an absolute HTTP URL, cut behind its scheme and behind its authority. -/
structure AbsoluteHttp (text scheme authority rest : Text) : Prop where
  text_eq : text = scheme ++ "://".toList ++ authority ++ rest
  scheme : isHttpIgnoreCase scheme = true
  authority_ne_nil : authority ≠ []
  authority_clean : ∀ c ∈ authority, endsAuthority c = false
  rest_starts : ∀ c ∈ rest.head?, endsAuthority c = true

theorem exists_scheme {start scheme : Text}
    (h : eqIgnoreAsciiCase start (scheme ++ "://".toList) = true) :
    ∃ head, start = head ++ "://".toList ∧ eqIgnoreAsciiCase head scheme = true := by
  have hlower : start.map Char.toLower =
      scheme.map Char.toLower ++ ("://".toList).map Char.toLower := by
    rw [← List.map_append]
    exact of_decide_eq_true h
  obtain ⟨head, separator, rfl, hhead, hseparator⟩ := List.map_eq_append_iff.mp hlower
  refine ⟨head, ?_, decide_eq_true hhead⟩
  rw [eq_of_toAsciiLowercase_eq (by simp) hseparator]
  rfl

def inAuthority (c : Char) : Bool := decide (c ≠ '/' ∧ c ≠ '?' ∧ c ≠ '#')

theorem endsAuthority_eq_false_iff {c : Char} : endsAuthority c = false ↔ inAuthority c = true := by
  simp [endsAuthority, inAuthority]

theorem absoluteHttp_cut {head remainder : Text} (hhead : isHttpIgnoreCase head = true)
    (hauthority : remainder.takeWhile inAuthority ≠ []) :
    AbsoluteHttp (head ++ "://".toList ++ remainder) head (remainder.takeWhile inAuthority)
      (remainder.dropWhile inAuthority) := by
  refine ⟨?_, hhead, hauthority, fun c hc ↦ ?_, fun c hc ↦ ?_⟩
  · rw [List.append_assoc _ (List.takeWhile _ _), List.takeWhile_append_dropWhile]
  · exact endsAuthority_eq_false_iff.mpr (List.mem_takeWhile_imp hc)
  · rw [← List.find?_not_eq_head?_dropWhile] at hc
    have hends := List.find?_some hc
    by_contra hinside
    rw [Bool.not_eq_true, endsAuthority_eq_false_iff] at hinside
    rw [hinside] at hends
    cases hends

/-- A text whose raw syntax was checked is absolute. -/
theorem exists_absoluteHttp {text : Text} (h : hasValidRawHttpAuthoritySyntax text false = true) :
    ∃ scheme authority rest, AbsoluteHttp text scheme authority rest := by
  have hcut {scheme : Text} {n : ℕ} (hscheme : scheme = "http".toList ∨ scheme = "https".toList)
      (hstart : startsWithIgnoreCase (scheme ++ "://".toList) text = true)
      (hn : n = (scheme ++ "://".toList).length)
      (hauthority : (text.drop n).takeWhile inAuthority ≠ []) :
      ∃ scheme authority rest, AbsoluteHttp text scheme authority rest := by
    obtain ⟨start, remainder, rfl, heq⟩ := startsWithIgnoreCase_iff.mp hstart
    have hlength : start.length = n := by
      have hmap := congrArg List.length (of_decide_eq_true heq)
      simpa [toAsciiLowercase, hn] using hmap
    rw [List.drop_left' hlength] at hauthority
    obtain ⟨head, rfl, hhead⟩ := exists_scheme heq
    refine ⟨head, _, _, absoluteHttp_cut ?_ hauthority⟩
    unfold isHttpIgnoreCase
    rcases hscheme with rfl | rfl
    · rw [hhead, Bool.true_or]
    · rw [hhead, Bool.or_true]
  unfold hasValidRawHttpAuthoritySyntax at h
  dsimp only at h
  split at h
  · cases h
  next prefixLen hprefix =>
    have hauthority : (text.drop prefixLen).takeWhile inAuthority ≠ [] := by
      intro hnil
      split at h
      · cases h
      · rw [if_pos (by rw [Bool.or_eq_true]; exact .inl (List.isEmpty_iff.mpr hnil))] at h
        cases h
    split at hprefix
    next hstart => exact hcut (.inl rfl) hstart (Option.some.inj hprefix).symm hauthority
    · split at hprefix
      next hstart => exact hcut (.inr rfl) hstart (Option.some.inj hprefix).symm hauthority
      · simp at hprefix

theorem colon_not_mem {scheme : Text} (h : isHttpIgnoreCase scheme = true) : ':' ∉ scheme := by
  intro hmem
  have hlower : ':' ∈ toAsciiLowercase scheme := List.mem_map.mpr ⟨':', hmem, rfl⟩
  rcases Bool.or_eq_true_iff.mp h with h | h
  · rw [of_decide_eq_true h] at hlower
    exact absurd hlower (by decide)
  · rw [of_decide_eq_true h] at hlower
    exact absurd hlower (by decide)

/-- An absolute text can be cut in one way only. -/
theorem AbsoluteHttp.cut_eq {text scheme authority rest : Text}
    (h : AbsoluteHttp text scheme authority rest) :
    splitOnceText "://".toList text = some (scheme, authority ++ rest) ∧
      (authority ++ rest).takeWhile inAuthority = authority ∧
        (authority ++ rest).dropWhile inAuthority = rest := by
  have hinside : ∀ c ∈ authority, inAuthority c = true := fun c hc ↦
    endsAuthority_eq_false_iff.mp (h.authority_clean c hc)
  have hends : ∀ c ∈ rest.head?, inAuthority c = false := fun c hc ↦ by
    rw [Bool.eq_false_iff, ne_eq, ← endsAuthority_eq_false_iff, h.rest_starts c hc]
    decide
  refine ⟨?_, ?_, ?_⟩
  · rw [h.text_eq, List.append_assoc _ authority rest]
    exact splitOnceText_append (colon_not_mem h.scheme) _ _
  · rw [List.takeWhile_append_of_pos hinside]
    cases rest with
    | nil => simp
    | cons c rest => simp [hends c rfl]
  · rw [List.dropWhile_append_of_pos hinside]
    cases rest with
    | nil => rfl
    | cons c rest => simp [hends c rfl]

/-! ## The parsers -/

/-- What the code relies on of `http::Uri` and `url::Url`: how an absolute HTTP URL is cut, that
an authority has a host, and that a joined HTTP URL is written out with its authority. -/
structure Dependencies.Documented (deps : Dependencies) : Prop where
  parseUri_absolute : ∀ {text scheme authority rest uri},
    AbsoluteHttp text scheme authority rest → deps.parseUri text = some uri →
      uri.schemeStr = some (toAsciiLowercase scheme) ∧ uri.authority = some authority
  host_of_authority : ∀ {text uri authority}, deps.parseUri text = some uri →
    uri.authority = some authority → uri.host.isSome = true
  joinUrl_text : ∀ {base location url}, deps.joinUrl base location = some url →
    isHttpScheme url.scheme = true →
      ∃ authority rest, AbsoluteHttp url.text url.scheme authority rest

/-- A target of a request: an HTTP URL with a host and without user information. -/
structure SafeTarget (uri : Uri) : Prop where
  scheme : ∃ scheme, uri.schemeStr = some scheme ∧ isHttpIgnoreCase scheme = true
  host : uri.host.isSome = true
  userinfo : uriHasUserinfo uri = false

variable {deps}

theorem isHttpIgnoreCase_toAsciiLowercase (scheme : Text) :
    isHttpIgnoreCase (toAsciiLowercase scheme) = isHttpIgnoreCase scheme := by
  simp only [isHttpIgnoreCase, eqIgnoreAsciiCase, toAsciiLowercase_toAsciiLowercase]

theorem AbsoluteHttp.safeTarget {text scheme authority rest : Text} {uri : Uri}
    (parsers : deps.Documented) (h : AbsoluteHttp text scheme authority rest)
    (hparse : deps.parseUri text = some uri) (huserinfo : uriHasUserinfo uri = false) :
    SafeTarget uri := by
  obtain ⟨hscheme, hauthority⟩ := parsers.parseUri_absolute h hparse
  refine ⟨⟨_, hscheme, ?_⟩, parsers.host_of_authority hparse hauthority, huserinfo⟩
  rw [isHttpIgnoreCase_toAsciiLowercase]
  exact h.scheme

/-! ## Joining -/

theorem AbsoluteHttp.replace_rest {text scheme authority rest rest' : Text}
    (h : AbsoluteHttp text scheme authority rest)
    (hrest : ∀ c ∈ rest'.head?, endsAuthority c = true) :
    AbsoluteHttp (scheme ++ "://".toList ++ authority ++ rest') scheme authority rest' :=
  ⟨rfl, h.scheme, h.authority_ne_nil, h.authority_clean, hrest⟩

theorem trimEndMatches_slash {baseUrl scheme authority rest : Text}
    (h : AbsoluteHttp baseUrl scheme authority rest) :
    ∃ kept, trimEndMatches (· = '/') baseUrl = scheme ++ "://".toList ++ authority ++ kept ∧
      ∀ c ∈ kept.head?, endsAuthority c = true := by
  obtain ⟨c, hc⟩ := Option.isSome_iff_exists.mp (List.getLast?_isSome.mpr h.authority_ne_nil)
  have hlast : (scheme ++ "://".toList ++ authority).getLast? = some c := by
    rw [List.getLast?_append, hc]
    rfl
  have hslash : decide (c = '/') = false := by
    rw [decide_eq_false_iff_not]
    rintro rfl
    cases h.authority_clean '/' (List.mem_of_getLast? hc)
  obtain ⟨kept, htrim, hkept⟩ :=
    trimEndMatches_append (p := fun c ↦ decide (c = '/')) (r := rest) hlast hslash
  refine ⟨kept, h.text_eq ▸ htrim, fun c hc ↦ h.rest_starts c ?_⟩
  obtain ⟨dropped, rfl⟩ := hkept
  rw [List.head?_append, Option.mem_def.mp hc]
  rfl

/-- Whatever the path holds, it comes behind the authority of the base. -/
theorem AbsoluteHttp.joinBasePath {baseUrl scheme authority rest : Text}
    (h : AbsoluteHttp baseUrl scheme authority rest) (path : Text) :
    ∃ rest', AbsoluteHttp (joinBasePath baseUrl path) scheme authority rest' := by
  obtain ⟨kept, htrim, hkept⟩ := trimEndMatches_slash h
  have hjoin (appended : Text) (happended : ∀ c ∈ appended.head?, endsAuthority c = true) :
      ∃ rest', AbsoluteHttp (scheme ++ "://".toList ++ authority ++ kept ++ appended) scheme
        authority rest' := by
    refine ⟨kept ++ appended, List.append_assoc _ kept appended ▸ h.replace_rest fun c hc ↦ ?_⟩
    rw [List.head?_append] at hc
    cases hhead : kept.head? with
    | none => exact happended c (by simpa [hhead] using hc)
    | some d => exact hkept c (by simpa [hhead] using hc)
  have hne : (scheme ++ "://".toList ++ authority ++ kept).isEmpty = false := by
    rw [List.isEmpty_eq_false_iff]
    simp
  unfold Reqx.joinBasePath
  rw [htrim]
  dsimp only
  split
  next suffix =>
    rw [hne]
    exact hjoin ('?' :: suffix) (by simp [endsAuthority])
  next suffix =>
    rw [hne]
    exact hjoin ('#' :: suffix) (by simp [endsAuthority])
  · rw [hne]
    cases (stripSlash path).isEmpty with
    | true =>
      exact List.append_nil (scheme ++ "://".toList ++ authority ++ kept) ▸ hjoin [] (by simp)
    | false => exact hjoin ('/' :: stripSlash path) (by simp [endsAuthority])

/-! ## Requests and redirects -/

theorem exists_absoluteHttp_of_valid {text : Text}
    (h : isValidAbsoluteHttpUriText deps text = true) :
    ∃ scheme authority rest, AbsoluteHttp text scheme authority rest := by
  unfold isValidAbsoluteHttpUriText at h
  split at h
  next hsyntax => exact exists_absoluteHttp hsyntax
  · cases h

theorem parseUri_of_validateBaseUrl {baseUrl : Text} (h : validateBaseUrl deps baseUrl = .ok ()) :
    (∃ scheme authority rest, AbsoluteHttp baseUrl scheme authority rest) ∧
      ∃ base, deps.parseUri baseUrl = some base := by
  unfold validateBaseUrl at h
  dsimp only at h
  split at h
  · cases h
  next htrimmed =>
    rw [trim_eq_self (not_not.mp htrimmed)] at h
    split at h
    · cases h
    split at h
    · cases h
    simp only [ite_error_eq_ok] at h
    obtain ⟨-, -, -, -, hvalid, h⟩ := h
    split at h
    · cases h
    next base hparse =>
      exact ⟨exists_absoluteHttp_of_valid (by simpa using hvalid), base, hparse⟩

/-- What the first half of `resolve_uri` accepts. -/
theorem requestUriText_cases {baseUrl path uriText : Text}
    (h : requestUriText deps baseUrl path = .ok uriText) :
    uriText = path ∧ isValidAbsoluteHttpUriText deps path = true ∨
      uriText = joinBasePath baseUrl path := by
  unfold requestUriText at h
  split at h
  next uri hparse =>
    split at h
    · split at h
      · cases h
      · split at h
        · cases h
        · split at h
          next hvalid =>
            cases h
            exact .inl ⟨rfl, (Bool.and_eq_true_iff.mp hvalid).2⟩
          · cases h
    · split at h
      · cases h
      · cases h
        exact .inr rfl
  next hparse =>
    split at h
    · cases h
    · cases h
      exact .inr rfl

theorem resolveUri_safe (parsers : deps.Documented) {baseUrl path uriText : Text} {uri : Uri}
    (hbase : validateBaseUrl deps baseUrl = .ok ())
    (h : resolveUri deps baseUrl path = .ok (uriText, uri)) :
    SafeTarget uri ∧ (isValidAbsoluteHttpUriText deps path = false →
      ∃ base, deps.parseUri baseUrl = some base ∧ uri.schemeStr = base.schemeStr ∧
        uri.authority = base.authority) := by
  obtain ⟨⟨scheme, authority, rest, habsolute⟩, base, hparse⟩ := parseUri_of_validateBaseUrl hbase
  unfold resolveUri at h
  split at h
  · cases h
  next text htext =>
    split at h
    · cases h
    next uri' hparse' =>
      split at h
      · cases h
      next huserinfo =>
        cases h
        rw [Bool.not_eq_true] at huserinfo
        rcases requestUriText_cases htext with ⟨rfl, hvalid⟩ | rfl
        · obtain ⟨scheme', authority', rest', habsolute'⟩ := exists_absoluteHttp_of_valid hvalid
          refine ⟨habsolute'.safeTarget parsers hparse' huserinfo, fun hinvalid ↦ ?_⟩
          rw [hvalid] at hinvalid
          cases hinvalid
        · obtain ⟨rest', hjoined⟩ := habsolute.joinBasePath path
          obtain ⟨hscheme, hauthority⟩ := parsers.parseUri_absolute hjoined hparse'
          obtain ⟨hscheme₀, hauthority₀⟩ := parsers.parseUri_absolute habsolute hparse
          exact ⟨hjoined.safeTarget parsers hparse' huserinfo, fun _ ↦ ⟨base, hparse,
            hscheme.trans hscheme₀.symm, hauthority.trans hauthority₀.symm⟩⟩

theorem joinRedirectUri_safe (parsers : deps.Documented) {currentUri uri : Uri} {location : Text}
    (h : joinRedirectUri deps currentUri location = some uri) : SafeTarget uri := by
  unfold joinRedirectUri at h
  split at h
  · cases h
  split at h
  · cases h
  next joined hjoined =>
    obtain ⟨current, -, hjoin⟩ := Option.bind_eq_some_iff.mp hjoined
    split at h
    · cases h
    next hscheme =>
      split at h
      · cases h
      split at h
      · cases h
      next resolved hparse =>
        split at h
        · cases h
        next huserinfo =>
          cases h
          obtain ⟨authority, rest, habsolute⟩ := parsers.joinUrl_text hjoin (by simpa using hscheme)
          exact habsolute.safeTarget parsers hparse (by simpa using huserinfo)

theorem resolveRedirectUri_safe (parsers : deps.Documented) {currentUri uri : Uri} {location : Text}
    (h : resolveRedirectUri deps currentUri location = some uri) : SafeTarget uri := by
  unfold resolveRedirectUri at h
  split at h
  next parsed hparse =>
    split at h
    next hhost =>
      split at h
      next scheme hscheme =>
        split at h
        · cases h
        next hhttp =>
          split at h
          · cases h
          next hrefused =>
            cases h
            simp only [Bool.or_eq_true, Bool.not_eq_true', not_or, Bool.not_eq_true] at hrefused
            simp only [Bool.not_eq_true, Bool.not_eq_false'] at hhttp
            exact ⟨⟨scheme, hscheme, hhttp⟩, hhost, hrefused.1⟩
      · split at h
        · cases h
        · exact joinRedirectUri_safe parsers h
    · split at h
      · cases h
      · exact joinRedirectUri_safe parsers h
  · split at h
    · cases h
    · exact joinRedirectUri_safe parsers h

end Reqx
