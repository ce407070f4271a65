import Reqx.Library.MultiMap
import Reqx.Library.Text
import Reqx.Core.Quantities

/-!
# HTTP data

The values the client passes around: methods, statuses, header maps, request
bodies, URIs. The parsers of the `http`, `url` and `httpdate` crates are not
part of the repository; a `Dependencies` record stands for them.
-/

namespace Reqx

abbrev Bytes := List UInt8

inductive Method where
  | options | get | post | put | delete | head | trace | connect | patch
  | extension (name : Text)
  deriving DecidableEq, Repr

/-- `http::StatusCode`: a number between 100 and 999. -/
structure StatusCode where
  code : ℕ
  valid : 100 ≤ code ∧ code < 1000
  deriving DecidableEq

namespace StatusCode

def fromU16 (code : ℕ) : Option StatusCode :=
  if h : 100 ≤ code ∧ code < 1000 then some ⟨code, h⟩ else none

def isInformational (s : StatusCode) : Bool := 100 ≤ s.code && s.code < 200

def isSuccess (s : StatusCode) : Bool := 200 ≤ s.code && s.code < 300

end StatusCode

structure HeaderName where
  text : Text
  deriving DecidableEq, Repr

namespace HeaderName

def ofString (s : String) : HeaderName := ⟨s.toList⟩

def authorization := ofString "authorization"
def connection := ofString "connection"
def contentDigest := ofString "content-digest"
def contentEncoding := ofString "content-encoding"
def contentLength := ofString "content-length"
def contentMd5 := ofString "content-md5"
def contentType := ofString "content-type"
def cookie := ofString "cookie"
def digest := ofString "digest"
def expect := ofString "expect"
def host := ofString "host"
def idempotencyKey := ofString "idempotency-key"
def keepAlive := ofString "keep-alive"
def location := ofString "location"
def proxyAuthorization := ofString "proxy-authorization"
def proxyConnection := ofString "proxy-connection"
def retryAfter := ofString "retry-after"
def setCookie := ofString "set-cookie"
def te := ofString "te"
def trailer := ofString "trailer"
def transferEncoding := ofString "transfer-encoding"
def upgrade := ofString "upgrade"

end HeaderName

structure HeaderValue where
  bytes : Bytes
  isSensitive : Bool
  deriving DecidableEq, Repr

namespace HeaderValue

def ofString (s : String) : HeaderValue := ⟨s.toList.map fun c ↦ UInt8.ofNat c.toNat, false⟩

/-- `HeaderValue::to_str`: only visible ASCII and the tab have a text. -/
def toStr (v : HeaderValue) : Option Text :=
  if v.bytes.all fun b ↦ (32 ≤ b.toNat && b.toNat < 127) || b.toNat == 9 then
    some (v.bytes.map fun b ↦ Char.ofNat b.toNat)
  else none

def setSensitive (v : HeaderValue) (sensitive : Bool) : HeaderValue :=
  { v with isSensitive := sensitive }

end HeaderValue

abbrev HeaderMap := MultiMap HeaderName HeaderValue

/-- What the code reads off an `http::Uri`. -/
structure Uri where
  schemeStr : Option Text
  authority : Option Text
  host : Option Text
  portU16 : Option ℕ
  text : Text
  deriving DecidableEq, Repr

structure Url where
  scheme : Text
  username : Text
  password : Option Text
  hostStr : Option Text
  path : Text
  pathSegments : Option (List Text)
  query : Option Text
  fragment : Option Text
  text : Text
  deriving DecidableEq, Repr

/-- The functions of the `http`, `url` and `httpdate` crates that the code
calls. `none` is the error result; a failing setter returns its argument. -/
structure Dependencies where
  parseUri : Text → Option Uri
  parseUrl : Text → Option Url
  joinUrl : Url → Text → Option Url
  setUsername : Url → Text → Url
  setPassword : Url → Option Text → Url
  setQuery : Url → Option Text → Url
  setFragment : Url → Option Text → Url
  setPath : Url → Text → Url
  headerNameFromBytes : Text → Option HeaderName
  /-- Nanoseconds since the epoch of the system clock. -/
  parseHttpDate : Text → Option ℕ

end Reqx
