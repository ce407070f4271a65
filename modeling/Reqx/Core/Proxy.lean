import Reqx.Core.Redirect

/-!
# Hosts that bypass the proxy

The rules of `no_proxy`: any host, a network of addresses, or a domain with an
optional port, and the test of a request's host against them.
-/

namespace Reqx

inductive IpAddr
  | v4 (address : BitVec 32)
  | v6 (address : BitVec 128)
  deriving DecidableEq, Repr

/-- `ipnet::IpNet`: an address and the length of the network part. -/
inductive IpNet
  | v4 (address : BitVec 32) (prefixLen : ℕ)
  | v6 (address : BitVec 128) (prefixLen : ℕ)
  deriving DecidableEq, Repr

/-- The functions of `std::net`, `ipnet` and `url` that deal with addresses and ports. -/
structure Addresses where
  parseIpv4 : Text → Option (BitVec 32)
  parseIpv6 : Text → Option (BitVec 128)
  parseIpNet : Text → Option IpNet
  trunc : IpNet → IpNet
  contains : IpNet → IpAddr → Bool
  portOrKnownDefault : Url → Option ℕ

namespace Addresses

variable (net : Addresses)

-- `str::parse::<IpAddr>` tries the two families in this order.
def parseIpAddr (t : Text) : Option IpAddr :=
  ((net.parseIpv4 t).map .v4).or ((net.parseIpv6 t).map .v6)

def stripBrackets (t : Text) : Option Text :=
  (t.dropPrefix? "[".toList).bind fun inner ↦ inner.dropSuffix? "]".toList

def normalizeNoProxyHost (host : Text) : Option Text :=
  (normalizeHostKey host).map fun normalized ↦
    match stripBrackets normalized with
    | some unbracketed =>
      if (net.parseIpAddr unbracketed).isSome then unbracketed else normalized
    | none => normalized

def parseIpLiteral (host : Text) : Option IpAddr :=
  match stripBrackets host with
  | some inner => (net.parseIpv6 inner).map .v6
  | none => net.parseIpAddr host

def plainNoProxyHostIsValid (host : Text) : Bool :=
  if host.isEmpty || host.any (· ∈ ['/', '?', '#', '@', '\\', '*']) ||
      host.any Text.isWhitespace then false
  else if Text.contains ':' host then (net.parseIpAddr host).isSome
  else true

def hostMatchesNoProxyRule (host ruleHost : Text) : Bool :=
  let hostIp := net.parseIpLiteral host
  let ruleIp := net.parseIpLiteral ruleHost
  if hostIp.isSome || ruleIp.isSome then hostIp.isSome && decide (hostIp = ruleIp)
  else
    decide (host = ruleHost) ||
      match host.dropSuffix? ruleHost with
      | some start => decide (start.getLast? = some '.')
      | none => false

end Addresses

inductive NoProxyRule
  | any
  | cidr (network : IpNet)
  | domain (host : Text) (port : Option ℕ)
  deriving DecidableEq, Repr

namespace NoProxyRule

variable (deps : Dependencies) (net : Addresses)

def looksLikeUrlRule (value : Text) : Bool :=
  (Text.splitOnceText "://".toList value).isSome ||
    Text.startsWithIgnoreCase "http:".toList value ||
      Text.startsWithIgnoreCase "https:".toList value

/-- `str::parse::<u16>`. -/
def parseU16 (t : Text) : Option ℕ := (Text.parseU64 t).filter (· < 65536)

/-- The branch of `parse` for a rule that is a URL with a host. -/
def parseUrlRule (candidate : Text) (url : Url) (host : Text) : Option NoProxyRule :=
  if !isHttpScheme url.scheme || !isValidAbsoluteHttpUriText deps candidate then none
  else if !url.username.isEmpty || url.password.isSome || url.query.isSome ||
      url.fragment.isSome || url.path ≠ "/".toList then none
  else
    let host := (host.dropPrefix? "*.".toList).getD (host.dropWhile (· = '.'))
    match net.normalizeNoProxyHost host with
    | none => none
    | some host =>
      if !net.plainNoProxyHostIsValid host then none
      else some (.domain host (net.portOrKnownDefault url))

/-- The host and the port of a plain rule. -/
def splitPort (candidate : Text) : Option (Text × Option ℕ) :=
  match candidate with
  | '[' :: stripped =>
    match Text.splitOnce ']' stripped with
    | none => none
    | some (host, suffix) =>
      if (net.parseIpAddr host).isNone then none
      else
        match suffix with
        | [] => some (host, none)
        | ':' :: rawPort => (parseU16 rawPort).map fun port ↦ (host, some port)
        | _ => none
  | _ =>
    if candidate.count ':' = 1 then
      match Text.rsplitOnce ':' candidate with
      | none => none
      | some (host, rawPort) =>
        if host.isEmpty then none
        else (parseU16 rawPort).map fun port ↦ (host, some port)
    else some (candidate, none)

/-- The last part of `parse`. -/
def parsePlainRule (candidate : Text) : Option NoProxyRule :=
  let candidate := (candidate.dropPrefix? "*.".toList).getD (candidate.dropWhile (· = '.'))
  if candidate.isEmpty then none
  else
    match splitPort net candidate with
    | none => none
    | some (host, port) =>
      if !net.plainNoProxyHostIsValid host then none
      else (net.normalizeNoProxyHost host).map fun host ↦ .domain host port

def parse (text : Text) : Option NoProxyRule :=
  let candidate := Text.trim text
  if candidate.isEmpty then none
  else if candidate = "*".toList then some .any
  else
    match (deps.parseUrl candidate).bind fun url ↦ url.hostStr.map fun host ↦ (url, host) with
    | some (url, host) => parseUrlRule deps net candidate url host
    | none =>
      if looksLikeUrlRule candidate then none
      -- A slash in any other rule denotes a network.
      else if Text.contains '/' candidate then
        (net.parseIpNet candidate).map fun network ↦ .cidr (net.trunc network)
      else parsePlainRule net candidate

/-- `NoProxyRule::matches`; the word itself is reserved. -/
def matchesHost (rule : NoProxyRule) (host : Text) (port : Option ℕ) : Bool :=
  match rule with
  | .any => true
  | .cidr network => (net.parseIpLiteral host).any (net.contains network)
  | .domain ruleHost rulePort =>
    match net.normalizeNoProxyHost host with
    | none => false
    | some host =>
      if !net.hostMatchesNoProxyRule host ruleHost then false
      else
        match rulePort with
        | some rulePort => decide (port = some rulePort)
        | none => true

end NoProxyRule

def shouldBypassProxyUri (net : Addresses) (noProxyRules : List NoProxyRule) (uri : Uri) : Bool :=
  match uri.host with
  | none => false
  | some host =>
    let port := uri.portU16.or (defaultPort uri)
    noProxyRules.any fun rule ↦ rule.matchesHost net host port

end Reqx
