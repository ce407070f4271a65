import Reqx.Core.Http

/-!
# URI texts and hosts

The checks the client makes on URI texts before it trusts a parser with them,
and the spelling of a host that the limiters and the origin test compare.
-/

namespace Reqx

def uriHasUserinfo (uri : Uri) : Bool :=
  match uri.authority with
  | none => false
  | some authority => Text.contains '@' authority

def normalizeHostKey (host : Text) : Option Text :=
  let normalized := Text.toAsciiLowercase (Text.trimEndMatches (· = '.') (Text.trim host))
  if normalized.isEmpty then none else some normalized

def normalizedUriHost (uri : Uri) : Option Text := uri.host.bind normalizeHostKey

def looksLikeMalformedHttpAbsoluteUri (value : Text) : Bool :=
  Text.startsWithIgnoreCase "http:".toList value || Text.startsWithIgnoreCase "https:".toList value

def isPort (port : Text) : Bool := !port.isEmpty && port.all Char.isDigit

/-- The part of `has_valid_raw_http_authority_syntax` after the user information. -/
def isValidHostPort (hostPort : Text) : Bool :=
  match hostPort with
  | '[' :: stripped =>
    match Text.splitOnce ']' stripped with
    | none => false
    | some ([], _) => false
    | some (_, []) => true
    | some (_, ':' :: port) => isPort port
    | some _ => false
  | '.' :: _ => false
  | _ =>
    if hostPort.count ':' > 1 then false
    else
      match Text.rsplitOnce ':' hostPort with
      | some (host, port) => !host.isEmpty && isPort port
      | none => true

def hasValidRawHttpAuthoritySyntax (uriText : Text) (allowNetworkPathReference : Bool) : Bool :=
  let prefixLen :=
    if Text.startsWithIgnoreCase "http://".toList uriText then some 7
    else if Text.startsWithIgnoreCase "https://".toList uriText then some 8
    else if allowNetworkPathReference && Text.startsWith "//".toList uriText then some 2
    else none
  match prefixLen with
  | none => false
  | some prefixLen =>
    let remainder := uriText.drop prefixLen
    if remainder.isEmpty || Text.startsWith "/".toList remainder then false
    else
      let authority := remainder.takeWhile fun c ↦ c ≠ '/' ∧ c ≠ '?' ∧ c ≠ '#'
      let hostPort := ((Text.rsplitOnce '@' authority).map Prod.snd).getD authority
      if authority.isEmpty || hostPort.isEmpty then false else isValidHostPort hostPort

def isValidHttpNetworkPathReference (uriText : Text) : Bool :=
  hasValidRawHttpAuthoritySyntax uriText true

def isHttpScheme (scheme : Text) : Bool := scheme = "http".toList ∨ scheme = "https".toList

def isValidAbsoluteHttpUriText (deps : Dependencies) (uriText : Text) : Bool :=
  if hasValidRawHttpAuthoritySyntax uriText false then
    match deps.parseUrl uriText with
    | none => false
    | some parsed => isHttpScheme parsed.scheme && parsed.hostStr.isSome
  else false

end Reqx
