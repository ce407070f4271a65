import Reqx.Core.Uri

/-!
# Redirects

Where a redirect response leads, and which headers go along. Everything that
`sanitize_headers_for_redirect` does is a removal of whole names.
-/

namespace Reqx

namespace StatusCode

def movedPermanently : StatusCode := ⟨301, by decide⟩
def found : StatusCode := ⟨302, by decide⟩
def seeOther : StatusCode := ⟨303, by decide⟩
def temporaryRedirect : StatusCode := ⟨307, by decide⟩
def permanentRedirect : StatusCode := ⟨308, by decide⟩

end StatusCode

def isRedirectStatus (status : StatusCode) : Bool :=
  status ∈ [.movedPermanently, .found, .seeOther, .temporaryRedirect, .permanentRedirect]

def redirectMethod (method : Method) (status : StatusCode) : Method :=
  if status = .seeOther ∧ method ≠ .head then .get
  else if (status = .movedPermanently ∨ status = .found) ∧ method = .post then .get
  else method

def redirectLocation (headers : HeaderMap) : Option Text :=
  (headers.get? .location).bind HeaderValue.toStr

def defaultPort (uri : Uri) : Option ℕ :=
  uri.portU16.or <| uri.schemeStr.bind fun scheme ↦
    if Text.eqIgnoreAsciiCase scheme "https".toList then some 443
    else if Text.eqIgnoreAsciiCase scheme "http".toList then some 80
    else none

def rateLimitBucketKey (uri : Uri) : Option Text :=
  (normalizedUriHost uri).map fun host ↦
    match defaultPort uri with
    | none => host
    | some port =>
      if Text.contains ':' host && !Text.startsWith "[".toList host then
        "[".toList ++ host ++ "]:".toList ++ Nat.toDigits 10 port
      else host ++ ":".toList ++ Nat.toDigits 10 port

def sameOrigin (left right : Uri) : Bool :=
  if !Text.eqIgnoreAsciiCase (left.schemeStr.getD []) (right.schemeStr.getD []) then false
  else
    match normalizedUriHost left, normalizedUriHost right with
    | some leftHost, some rightHost =>
      if leftHost ≠ rightHost then false else defaultPort left = defaultPort right
    | _, _ => false

def connectionScopedHeaders (deps : Dependencies) (headers : HeaderMap) : List HeaderName :=
  (((headers.getAll .connection).filterMap HeaderValue.toStr).flatMap (Text.split ',')).filterMap
    fun token ↦
      let token := Text.trim token
      if token.isEmpty then none else deps.headerNameFromBytes token

def removeHopByHopRedirectHeaders (deps : Dependencies) (headers : HeaderMap) : HeaderMap :=
  (headers.removeAll (connectionScopedHeaders deps headers)).removeAll
    [.connection, .keepAlive, .proxyConnection, .te, .trailer, .transferEncoding, .upgrade]

/-- The second half of `resolve_redirect_uri`: a location that is not an absolute URI
is resolved against the current one. -/
def joinRedirectUri (deps : Dependencies) (currentUri : Uri) (location : Text) : Option Uri :=
  if Text.startsWith "//".toList location && !isValidHttpNetworkPathReference location then none
  else
    match (deps.parseUrl currentUri.text).bind (deps.joinUrl · location) with
    | none => none
    | some joined =>
      if !isHttpScheme joined.scheme then none
      else if !joined.username.isEmpty || joined.password.isSome then none
      else
        match deps.parseUri joined.text with
        | none => none
        | some resolved => if uriHasUserinfo resolved then none else some resolved

def resolveRedirectUri (deps : Dependencies) (currentUri : Uri) (location : Text) : Option Uri :=
  match deps.parseUri location with
  | some uri =>
    if uri.host.isSome then
      match uri.schemeStr with
      | some scheme =>
        if !(Text.eqIgnoreAsciiCase scheme "http".toList ||
            Text.eqIgnoreAsciiCase scheme "https".toList) then none
        else if uriHasUserinfo uri || !isValidAbsoluteHttpUriText deps location then none
        else some uri
      | none =>
        if !Text.startsWith "//".toList location then none
        else joinRedirectUri deps currentUri location
    else if uri.schemeStr.isSome then none
    else joinRedirectUri deps currentUri location
  | none =>
    if looksLikeMalformedHttpAbsoluteUri location then none
    else joinRedirectUri deps currentUri location

def bodyHeaders : List HeaderName :=
  [.contentEncoding, .contentLength, .contentType, .contentDigest, .contentMd5, .digest, .expect]

def sensitiveHeaders (headers : HeaderMap) : List HeaderName :=
  (headers.entries.filter fun entry ↦ entry.2.isSensitive).map Prod.fst

def removeCredentials (headers : HeaderMap) : HeaderMap :=
  let headers := headers.removeAll [.authorization, .cookie]
  headers.removeAll (sensitiveHeaders headers)

def sanitizeHeadersForRedirect (deps : Dependencies) (headers : HeaderMap)
    (dropsBody sameOriginRedirect : Bool) : HeaderMap :=
  let headers := (removeHopByHopRedirectHeaders deps headers).remove .host
  let headers := if dropsBody then headers.removeAll bodyHeaders else headers
  let headers := if sameOriginRedirect then headers else removeCredentials headers
  headers.remove .proxyAuthorization

/-! ## Origins -/

/-- Same scheme ignoring case, same normalised host, same effective port. -/
structure SameOrigin (left right : Uri) : Prop where
  scheme : Text.eqIgnoreAsciiCase (left.schemeStr.getD []) (right.schemeStr.getD []) = true
  host : ∃ host, normalizedUriHost left = some host ∧ normalizedUriHost right = some host
  port : defaultPort left = defaultPort right

theorem sameOrigin_iff {left right : Uri} :
    sameOrigin left right = true ↔ SameOrigin left right := by
  unfold sameOrigin
  constructor
  · intro h
    split at h
    · cases h
    next hscheme =>
      split at h
      next leftHost rightHost hleft hright =>
        split at h
        · cases h
        next hhost =>
          rw [not_not] at hhost
          subst hhost
          exact ⟨by simpa using hscheme, ⟨leftHost, hleft, hright⟩, by simpa using h⟩
      · cases h
  · rintro ⟨hscheme, ⟨host, hleft, hright⟩, hport⟩
    simp [hscheme, hleft, hright, hport]

theorem SameOrigin.trans {first second third : Uri} (h₁ : SameOrigin first second)
    (h₂ : SameOrigin second third) : SameOrigin first third := by
  obtain ⟨host, hfirst, hsecond⟩ := h₁.host
  obtain ⟨host', hsecond', hthird⟩ := h₂.host
  have hhost : host = host' := Option.some.inj (hsecond.symm.trans hsecond')
  subst hhost
  exact ⟨Text.eqIgnoreAsciiCase_trans h₁.scheme h₂.scheme, ⟨host, hfirst, hthird⟩,
    h₁.port.trans h₂.port⟩

/-! ## Header values along a redirect -/

/-- A header value that must not reach another origin. -/
def IsCredential (entry : HeaderName × HeaderValue) : Prop :=
  entry.1 = .authorization ∨ entry.1 = .cookie ∨ entry.2.isSensitive = true

variable {headers : HeaderMap}

theorem mem_sensitiveHeaders {name : HeaderName} :
    name ∈ sensitiveHeaders headers ↔
      ∃ value, (name, value) ∈ headers ∧ value.isSensitive = true := by
  simp [sensitiveHeaders, MultiMap.mem_def]

theorem not_isCredential_of_mem_removeCredentials {entry : HeaderName × HeaderValue}
    (h : entry ∈ removeCredentials headers) : ¬ IsCredential entry := by
  obtain ⟨hmem, hsensitive⟩ := MultiMap.mem_removeAll.mp h
  obtain ⟨-, hname⟩ := MultiMap.mem_removeAll.mp hmem
  rintro (hauth | hcookie | hmarked)
  · exact hname (by simp [hauth])
  · exact hname (by simp [hcookie])
  · exact hsensitive (mem_sensitiveHeaders.mpr ⟨entry.2, hmem, hmarked⟩)

theorem mem_of_mem_removeCredentials {entry : HeaderName × HeaderValue}
    (h : entry ∈ removeCredentials headers) : entry ∈ headers :=
  (MultiMap.mem_removeAll.mp (MultiMap.mem_removeAll.mp h).1).1

variable {deps : Dependencies} {headers : HeaderMap} {dropsBody sameOriginRedirect : Bool}
  {entry : HeaderName × HeaderValue}

theorem mem_sanitizeHeadersForRedirect
    (h : entry ∈ sanitizeHeadersForRedirect deps headers dropsBody sameOriginRedirect) :
    entry ∈ headers ∧ (dropsBody = true → entry.1 ∉ bodyHeaders) ∧
      (sameOriginRedirect = false → ¬ IsCredential entry) := by
  have hkept := (MultiMap.mem_remove.mp h).1
  have hbody : entry ∈ (if dropsBody then
      ((removeHopByHopRedirectHeaders deps headers).remove .host).removeAll bodyHeaders
      else (removeHopByHopRedirectHeaders deps headers).remove .host) := by
    cases sameOriginRedirect with
    | true => simpa using hkept
    | false => exact mem_of_mem_removeCredentials (by simpa using hkept)
  have hhost : entry ∈ (removeHopByHopRedirectHeaders deps headers).remove .host := by
    cases dropsBody with
    | true => exact (MultiMap.mem_removeAll.mp (by simpa using hbody)).1
    | false => simpa using hbody
  have hhop := (MultiMap.mem_remove.mp hhost).1
  refine ⟨(MultiMap.mem_removeAll.mp (MultiMap.mem_removeAll.mp hhop).1).1, ?_, ?_⟩
  · rintro rfl
    exact (MultiMap.mem_removeAll.mp (by simpa using hbody)).2
  · rintro rfl
    exact not_isCredential_of_mem_removeCredentials (by simpa using hkept)

end Reqx
