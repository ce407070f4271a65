import Reqx.Core.Uri

/-!
# Redaction of URIs

What a URI looks like in an error: no query, no fragment, no user information.
-/

namespace Reqx

def stripQueryAndFragment (uriText : Text) : Text :=
  uriText.takeWhile fun c ↦ c ≠ '?' ∧ c ≠ '#'

def redactedMark : Text := "<redacted>@".toList

def redactWithPrefix (start rest : Text) : Option Text :=
  let authority := rest.takeWhile (· ≠ '/')
  let suffix := rest.dropWhile (· ≠ '/')
  match Text.rsplitOnce '@' authority with
  | none => none
  | some (_, []) => some (start ++ redactedMark ++ suffix)
  | some (_, hostPort) => some (start ++ hostPort ++ suffix)

def redactUserinfoInAuthority (uriText : Text) : Text :=
  match Text.splitOnceText "://".toList uriText with
  | some (scheme, rest) => (redactWithPrefix (scheme ++ "://".toList) rest).getD uriText
  | none =>
    if Text.startsWith "//".toList uriText then
      (redactWithPrefix "//".toList (uriText.drop 2)).getD uriText
    else uriText

def redactNonAuthorityCredentials (uriText : Text) : Text :=
  match Text.splitOnce ':' uriText with
  | none => uriText
  | some (scheme, remainder) =>
    let lower := Text.toAsciiLowercase scheme
    if lower ≠ "mailto".toList ∧ lower ≠ "sip".toList ∧ lower ≠ "sips".toList then uriText
    else if Text.startsWith "//".toList remainder then uriText
    else
      match Text.rsplitOnce '@' remainder with
      | none => uriText
      | some (credentialLike, suffix) =>
        if credentialLike.isEmpty then uriText
        else if !Text.contains ':' credentialLike &&
            (Text.splitOnceText "%3a".toList (Text.toAsciiLowercase credentialLike)).isNone then
          uriText
        else scheme ++ ":".toList ++ redactedMark ++ suffix

def redactUriWithoutUrlNormalization (uriText : Text) : Text :=
  redactNonAuthorityCredentials (redactUserinfoInAuthority (stripQueryAndFragment uriText))

def isTokenChar (c : Char) : Bool :=
  c.isAlphanum || c ∈ ['-', '_', '.', '~', '+', '=']

def isTokenLike (segment : Text) : Bool := !segment.isEmpty && segment.all isTokenChar

def credentialSeparator (segment : Text) : Option (ℕ × ℕ) :=
  let plain := (Text.splitOnce ':' segment).map fun p ↦ (p.1.length, 1)
  let encoded := (Text.splitOnceText "%3a".toList (Text.toAsciiLowercase segment)).map
    fun p ↦ (p.1.length, 3)
  match plain, encoded with
  | some plain, some encoded => some (if plain.1 ≤ encoded.1 then plain else encoded)
  | some separator, none | none, some separator => some separator
  | none, none => none

def splitCredentialLikeSegment (segment : Text) : Option (Text × Text) :=
  match credentialSeparator segment with
  | none => none
  | some (index, len) =>
    let left := segment.take index
    let right := segment.drop (index + len)
    -- Token-like texts are ASCII, so their byte lengths are their lengths.
    if left.isEmpty || right.isEmpty then none
    else if left.length < 3 ∨ right.length < 6 then none
    else if !isTokenLike left || !isTokenLike right then none
    else some (left, right)

def redactSegment (segment : Text) : Text :=
  match splitCredentialLikeSegment segment with
  | some (left, _) => left ++ ":redacted".toList
  | none => segment

def redactSensitivePathSegments (deps : Dependencies) (parsed : Url) : Url :=
  match parsed.pathSegments with
  | none | some [] => parsed
  | some segments =>
    if segments.all fun segment ↦ (splitCredentialLikeSegment segment).isNone then parsed
    else
      let rebuilt := (segments.map fun segment ↦ '/' :: redactSegment segment).flatten
      let trailing := parsed.path.getLast? = some '/' ∧ rebuilt.getLast? ≠ some '/'
      deps.setPath parsed
        (if rebuilt.isEmpty ∨ trailing then rebuilt ++ "/".toList else rebuilt)

def redactUriForLogs (deps : Dependencies) (uriText : Text) : Text :=
  let looksLikeHttpAbsolute := Text.startsWithIgnoreCase "http://".toList uriText ||
    Text.startsWithIgnoreCase "https://".toList uriText
  if looksLikeHttpAbsolute && !isValidAbsoluteHttpUriText deps uriText then
    redactUriWithoutUrlNormalization uriText
  else
    match deps.parseUrl uriText with
    | none => redactUriWithoutUrlNormalization uriText
    | some parsed =>
      let parsed := deps.setUsername parsed []
      let parsed := deps.setPassword parsed none
      let parsed := deps.setQuery parsed none
      let parsed := deps.setFragment parsed none
      let parsed := redactSensitivePathSegments deps parsed
      redactNonAuthorityCredentials (redactUserinfoInAuthority parsed.text)

end Reqx
