import Mathlib.Data.List.ReduceOption
import Reqx.Core.Dns
import Reqx.Core.Preparation
import Reqx.Driver.Client
import Reqx.RateLimit.Ledger
import Reqx.Resilience.AdaptiveLimit
import Reqx.Resilience.CircuitBreaker
import Reqx.Resilience.RetryBudget
import Reqx.Tls.Config

/-!
# The client builder

The settings of a client, the calls that change them, and the check of the
finished configuration. Both transports share this builder; their own options
are a parameter.
-/

namespace Reqx

def HeaderName.userAgent := HeaderName.ofString "user-agent"

end Reqx

namespace Reqx.Driver

open Reqx.Checks Reqx.Dns Reqx.Resilience Reqx.Tls

/-- What the builders call outside the repository. -/
structure BuilderTools where
  deps : Dependencies
  net : Addresses
  parseHost : Text → Option Host
  headerNameFromStr : Text → Except (List Text) HeaderName
  headerValueFromStr : Text → Except (List Text) Bytes
  /-- `Uri::path_and_query`, as the path and the query. -/
  pathAndQuery : Uri → Option (Text × Option Text)
  stack : TlsStack
  /-- Whether `ureq::Proxy::new` accepts the URI. -/
  acceptsProxy : Uri → Bool
  otelCompiled : Bool

/-! ## Profiles -/

inductive ClientProfile where
  | standardSdk | lowLatency | highThroughput
  deriving DecidableEq, Repr

structure ProfileDefaults where
  requestTimeout : ℕ
  totalTimeout : Option ℕ
  retryPolicy : RetryPolicy
  maxResponseBodyBytes : ℕ
  redirectPolicy : RedirectPolicy
  statusPolicy : StatusPolicy

def ProfileDefaults.options (defaults : ProfileDefaults) : RequestExecutionOptions where
  requestTimeout := defaults.requestTimeout
  totalTimeout := defaults.totalTimeout
  retryPolicy := defaults.retryPolicy
  maxResponseBodyBytes := defaults.maxResponseBodyBytes
  redirectPolicy := defaults.redirectPolicy
  statusPolicy := defaults.statusPolicy

def ClientProfile.defaults : ClientProfile → ProfileDefaults
  | .standardSdk =>
    { requestTimeout := fromSecs 10
      totalTimeout := none
      retryPolicy := .standard
      maxResponseBodyBytes := 8 * 1024 * 1024
      redirectPolicy := .none
      statusPolicy := .error }
  | .lowLatency =>
    { requestTimeout := fromSecs 2
      totalTimeout := some (fromSecs 5)
      retryPolicy := { RetryPolicy.standard with
        maxAttempts := 2, baseBackoff := fromMillis 50, maxBackoff := fromMillis 300 }
      maxResponseBodyBytes := 2 * 1024 * 1024
      redirectPolicy := .none
      statusPolicy := .error }
  | .highThroughput =>
    { requestTimeout := fromSecs 20
      totalTimeout := some (fromSecs 60)
      retryPolicy := { RetryPolicy.standard with
        maxAttempts := 4, baseBackoff := fromMillis 150, maxBackoff := fromSecs 3 }
      maxResponseBodyBytes := 32 * 1024 * 1024
      redirectPolicy := .none
      statusPolicy := .error }

/-! ## The builder -/

structure ClientBuilder (F T : Type) where
  baseUrl : Text
  defaultHeaders : HeaderMap
  bufferedAutoAcceptEncoding : Bool
  streamAutoAcceptEncoding : Bool
  requestTimeout : ℕ
  totalTimeout : Option ℕ
  maxResponseBodyBytes : ℕ
  connectTimeout : ℕ
  httpProxy : Option Uri
  dnsOverrides : DnsOverridesBuilder
  noProxyRules : List NoProxyRule
  retryPolicy : RetryPolicy
  retryEligibility : RetryEligibility
  retryBudgetPolicy : Option RetryBudgetPolicy
  circuitBreakerPolicy : Option CircuitBreakerPolicy
  adaptiveConcurrencyPolicy : Option (AdaptiveConcurrencyPolicy F)
  globalRateLimitPolicy : Option RateLimit.RateLimitPolicy
  perHostRateLimitPolicy : Option RateLimit.RateLimitPolicy
  serverThrottleScope : RateLimit.ServerThrottleScope
  redirectPolicy : RedirectPolicy
  defaultStatusPolicy : StatusPolicy
  tlsBackend : TlsBackend
  tlsOptions : TlsOptions
  endpointSelector : Option EndpointSelector
  backoffSource : Option BackoffSource
  clientName : Text
  maxInFlight : Option ℕ
  maxInFlightPerHost : Option ℕ
  metricsEnabled : Bool
  otelEnabled : Bool
  transportOptions : T

def permissiveRetryEligibility : RetryEligibility := fun _ _ ↦ true

def ClientBuilder.new {F T : Type} (baseUrl : Text) (transportOptions : T)
    (tlsBackend : TlsBackend) : ClientBuilder F T :=
  let defaults := ClientProfile.standardSdk.defaults
  { baseUrl
    defaultHeaders := .empty
    bufferedAutoAcceptEncoding := true
    streamAutoAcceptEncoding := false
    requestTimeout := defaults.requestTimeout
    totalTimeout := defaults.totalTimeout
    maxResponseBodyBytes := defaults.maxResponseBodyBytes
    connectTimeout := fromSecs 5
    httpProxy := none
    dnsOverrides := {}
    noProxyRules := []
    retryPolicy := defaults.retryPolicy
    retryEligibility := strictRetryEligibility
    retryBudgetPolicy := none
    circuitBreakerPolicy := none
    adaptiveConcurrencyPolicy := none
    globalRateLimitPolicy := none
    perHostRateLimitPolicy := none
    serverThrottleScope := .auto
    redirectPolicy := defaults.redirectPolicy
    defaultStatusPolicy := defaults.statusPolicy
    tlsBackend
    tlsOptions := {}
    endpointSelector := none
    backoffSource := none
    clientName := "reqx".toList
    maxInFlight := none
    maxInFlightPerHost := none
    metricsEnabled := false
    otelEnabled := false
    transportOptions }

section Parsers

variable (tools : BuilderTools)

def parseHeaderName (name : Text) : Except Error HeaderName :=
  (tools.headerNameFromStr name).mapError (.invalidHeaderName name)

def isSensitiveHeaderNameText (name : Text) : Bool :=
  match tools.headerNameFromStr name with
  | .ok name => isSensitiveHeaderName name
  | .error _ => false

def parseHeaderValue (name value : Text) : Except Error HeaderValue := do
  let bytes ← (tools.headerValueFromStr value).mapError (.invalidHeaderValue name)
  return if isSensitiveHeaderNameText tools name then ⟨bytes, true⟩ else ⟨bytes, false⟩

def redactNoProxyRuleForLogs (rule : Text) : Text :=
  redactUriWithoutUrlNormalization (Text.trim rule)

def parseNoProxyRule (rule : Text) : Except Error NoProxyRule :=
  match NoProxyRule.parse tools.deps tools.net rule with
  | some parsed => .ok parsed
  | none => .error (.invalidNoProxyRule (redactNoProxyRuleForLogs rule))

def parseNoProxyRules (rules : List Text) : Except Error (List NoProxyRule) :=
  collect (fun rule ↦ do return [← parseNoProxyRule tools rule]) [] rules

end Parsers

/-! ## Settings -/

inductive Setting (F : Type) where
  | requestTimeout (requestTimeout : ℕ)
  | totalTimeout (totalTimeout : Option ℕ)
  | maxResponseBodyBytes (maxResponseBodyBytes : ℕ)
  | connectTimeout (connectTimeout : ℕ)
  | resolve (domain : Text) (address : SocketAddr)
  | resolveToAddrs (domain : Text) (addresses : List SocketAddr)
  | httpProxy (proxyUri : Uri)
  | noProxy (rules : List Text)
  | addNoProxy (rule : Text)
  | defaultHeader (name : HeaderName) (value : HeaderValue)
  | tryDefaultHeader (name value : Text)
  | autoAcceptEncoding (enabled : Bool)
  | bufferedAutoAcceptEncoding (enabled : Bool)
  | streamAutoAcceptEncoding (enabled : Bool)
  | retryPolicy (retryPolicy : RetryPolicy)
  | retryEligibility (retryEligibility : RetryEligibility)
  | retryBudgetPolicy (policy : Option RetryBudgetPolicy)
  | circuitBreakerPolicy (policy : Option CircuitBreakerPolicy)
  | adaptiveConcurrencyPolicy (policy : Option (AdaptiveConcurrencyPolicy F))
  | globalRateLimitPolicy (policy : Option RateLimit.RateLimitPolicy)
  | perHostRateLimitPolicy (policy : Option RateLimit.RateLimitPolicy)
  | serverThrottleScope (scope : RateLimit.ServerThrottleScope)
  | redirectPolicy (redirectPolicy : RedirectPolicy)
  | defaultStatusPolicy (defaultStatusPolicy : StatusPolicy)
  | tlsBackend (tlsBackend : TlsBackend)
  | endpointSelector (endpointSelector : Option EndpointSelector)
  | backoffSource (backoffSource : Option BackoffSource)
  | tlsRootStore (tlsRootStore : TlsRootStore)
  | tlsRootCaPem (certificatePem : Bytes)
  | tlsRootCaDer (certificateDer : Bytes)
  | clearTlsRootCas
  | tlsClientIdentityPem (certChainPem privateKeyPem : Bytes)
  | clearTlsClientIdentity
  | allowNonIdempotentRetries (allow : Bool)
  | clientName (clientName : Text)
  | maxInFlight (maxInFlight : Option ℕ)
  | maxInFlightPerHost (maxInFlightPerHost : Option ℕ)
  | metricsEnabled (enabled : Bool)
  | otelEnabled (enabled : Bool)
  | profile (profile : ClientProfile)

namespace ClientBuilder

variable {F T : Type} (tools : BuilderTools)

def resolveToAddrs (b : ClientBuilder F T) (domain : Text) (addresses : List SocketAddr) :
    Except Error (ClientBuilder F T) := do
  let dnsOverrides ← b.dnsOverrides.insert tools.parseHost domain addresses
  return { b with dnsOverrides }

def defaultHeader (b : ClientBuilder F T) (name : HeaderName) (value : HeaderValue) :
    ClientBuilder F T :=
  { b with defaultHeaders := b.defaultHeaders.insert name (markSensitiveHeaderValue name value) }

def tryDefaultHeader (b : ClientBuilder F T) (name value : Text) :
    Except Error (ClientBuilder F T) := do
  let name ← parseHeaderName tools name
  let value ← parseHeaderValue tools name.text value
  return b.defaultHeader name value

def applyProfile (b : ClientBuilder F T) (profile : ClientProfile) : ClientBuilder F T :=
  let defaults := profile.defaults
  { b with
    requestTimeout := defaults.requestTimeout
    totalTimeout := defaults.totalTimeout
    retryPolicy := defaults.retryPolicy
    maxResponseBodyBytes := defaults.maxResponseBodyBytes
    redirectPolicy := defaults.redirectPolicy
    defaultStatusPolicy := defaults.statusPolicy }

def setTlsOptions (b : ClientBuilder F T) (f : TlsOptions → TlsOptions) : ClientBuilder F T :=
  { b with tlsOptions := f b.tlsOptions }

def addRoot (certificate : TlsRootCertificate) (options : TlsOptions) : TlsOptions :=
  { options with rootCertificates := options.rootCertificates ++ [certificate] }

def apply (b : ClientBuilder F T) : Setting F → Except Error (ClientBuilder F T)
  | .requestTimeout requestTimeout => .ok { b with requestTimeout }
  | .totalTimeout totalTimeout => .ok { b with totalTimeout }
  | .maxResponseBodyBytes maxResponseBodyBytes => .ok { b with maxResponseBodyBytes }
  | .connectTimeout connectTimeout => .ok { b with connectTimeout }
  | .resolve domain address => b.resolveToAddrs tools domain [address]
  | .resolveToAddrs domain addresses => b.resolveToAddrs tools domain addresses
  | .httpProxy proxyUri => .ok { b with httpProxy := some proxyUri }
  | .noProxy rules => do
    let noProxyRules ← parseNoProxyRules tools rules
    return { b with noProxyRules }
  | .addNoProxy rule => do
    let parsed ← parseNoProxyRule tools rule
    return { b with noProxyRules := b.noProxyRules ++ [parsed] }
  | .defaultHeader name value => .ok (b.defaultHeader name value)
  | .tryDefaultHeader name value => b.tryDefaultHeader tools name value
  | .autoAcceptEncoding enabled =>
    .ok { b with bufferedAutoAcceptEncoding := enabled, streamAutoAcceptEncoding := enabled }
  | .bufferedAutoAcceptEncoding enabled => .ok { b with bufferedAutoAcceptEncoding := enabled }
  | .streamAutoAcceptEncoding enabled => .ok { b with streamAutoAcceptEncoding := enabled }
  | .retryPolicy retryPolicy => .ok { b with retryPolicy }
  | .retryEligibility retryEligibility => .ok { b with retryEligibility }
  | .retryBudgetPolicy policy => .ok { b with retryBudgetPolicy := policy }
  | .circuitBreakerPolicy policy => .ok { b with circuitBreakerPolicy := policy }
  | .adaptiveConcurrencyPolicy policy => .ok { b with adaptiveConcurrencyPolicy := policy }
  | .globalRateLimitPolicy policy => .ok { b with globalRateLimitPolicy := policy }
  | .perHostRateLimitPolicy policy => .ok { b with perHostRateLimitPolicy := policy }
  | .serverThrottleScope scope => .ok { b with serverThrottleScope := scope }
  | .redirectPolicy redirectPolicy => .ok { b with redirectPolicy }
  | .defaultStatusPolicy defaultStatusPolicy => .ok { b with defaultStatusPolicy }
  | .tlsBackend tlsBackend => .ok { b with tlsBackend }
  | .endpointSelector endpointSelector => .ok { b with endpointSelector }
  | .backoffSource backoffSource => .ok { b with backoffSource }
  | .tlsRootStore rootStore => .ok (b.setTlsOptions fun options ↦ { options with rootStore })
  | .tlsRootCaPem pem => .ok (b.setTlsOptions (addRoot (.pem pem)))
  | .tlsRootCaDer der => .ok (b.setTlsOptions (addRoot (.der der)))
  | .clearTlsRootCas =>
    .ok (b.setTlsOptions fun options ↦ { options with rootCertificates := [] })
  | .tlsClientIdentityPem certChainPem privateKeyPem =>
    .ok (b.setTlsOptions fun options ↦
      { options with clientIdentity := some (.pem certChainPem privateKeyPem) })
  | .clearTlsClientIdentity =>
    .ok (b.setTlsOptions fun options ↦ { options with clientIdentity := none })
  | .allowNonIdempotentRetries allow =>
    .ok { b with
      retryEligibility := if allow then permissiveRetryEligibility else strictRetryEligibility }
  | .clientName clientName => .ok { b with clientName }
  | .maxInFlight maxInFlight => .ok { b with maxInFlight }
  | .maxInFlightPerHost maxInFlightPerHost => .ok { b with maxInFlightPerHost }
  | .metricsEnabled enabled => .ok { b with metricsEnabled := enabled }
  | .otelEnabled enabled => .ok { b with otelEnabled := enabled }
  | .profile profile => .ok (b.applyProfile profile)

/-! ## The finished configuration -/

def invalidProxyUri {α : Type} (proxyUri : Uri) (message : String) : Except Error α :=
  .error (.invalidProxyConfig (redactUriForLogs tools.deps proxyUri.text) message)

def validateProxyPath (proxyUri : Uri) : Except Error Unit :=
  match tools.pathAndQuery proxyUri with
  | none => .ok ()
  | some (path, query) =>
    if !path.isEmpty && path ≠ "/".toList then
      invalidProxyUri tools proxyUri "http_proxy URI must not include path segments"
    else if query.isSome then
      invalidProxyUri tools proxyUri "http_proxy URI must not include query parameters"
    else .ok ()

def validateHttpProxyUri (proxyUri : Uri) : Except Error Unit :=
  match proxyUri.schemeStr with
  | none => invalidProxyUri tools proxyUri "http_proxy URI must include an explicit scheme"
  | some scheme =>
    if !Text.eqIgnoreAsciiCase scheme "http".toList then
      invalidProxyUri tools proxyUri "http_proxy URI must use http scheme"
    else if proxyUri.host.isNone then
      invalidProxyUri tools proxyUri "http_proxy URI must include host"
    else do
      validateProxyPath tools proxyUri
      if !isValidAbsoluteHttpUriText tools.deps proxyUri.text then
        invalidProxyUri tools proxyUri
          "http_proxy URI must include a valid authority and numeric port"
      else .ok ()

def defaultHeadersWithUserAgent (clientName : Text) (defaultHeaders : HeaderMap) :
    Except Error HeaderMap :=
  if (Text.trim clientName).isEmpty then
    .error (.invalidClientNameConfig (Text.len clientName) "client_name must not be empty")
  else
    match tools.headerValueFromStr clientName with
    | .error _ =>
      .error (.invalidClientNameConfig (Text.len clientName)
        "client_name must be a valid HTTP header value")
    | .ok userAgent =>
      if defaultHeaders.containsKey .userAgent then .ok defaultHeaders
      else .ok (defaultHeaders.insert .userAgent ⟨userAgent, false⟩)

/-- A check of a setting that may be absent. -/
def validateSome {P : Type} (policy : Option P) (check : P → Except Error Unit) :
    Except Error Unit :=
  match policy with
  | some policy => check policy
  | none => .ok ()

variable (f : F64 F)

/-- `validate` gives the overrides out of the builder and completes its headers. -/
def validate (b : ClientBuilder F T) : Except Error (ClientBuilder F T × DnsOverrides) := do
  validateBaseUrl tools.deps b.baseUrl
  let dnsOverrides ← b.dnsOverrides.build b.httpProxy.isSome
  validateSome b.httpProxy (validateHttpProxyUri tools)
  validateTimeoutConfig b.requestTimeout b.totalTimeout (some b.connectTimeout)
  if b.maxInFlight = some 0 || b.maxInFlightPerHost = some 0 then
    .error (.invalidConcurrencyLimitConfig b.maxInFlight b.maxInFlightPerHost
      (if b.maxInFlight = some 0 then "max_in_flight must be greater than zero"
      else "max_in_flight_per_host must be greater than zero"))
  else do
    b.retryPolicy.validate
    validateSome b.retryBudgetPolicy RetryBudgetPolicy.validate
    validateSome b.circuitBreakerPolicy CircuitBreakerPolicy.validate
    validateSome b.adaptiveConcurrencyPolicy (AdaptiveConcurrencyPolicy.validate f)
    validateSome b.globalRateLimitPolicy RateLimit.RateLimitPolicy.validate
    validateSome b.perHostRateLimitPolicy RateLimit.RateLimitPolicy.validate
    let defaultHeaders ← defaultHeadersWithUserAgent tools b.clientName b.defaultHeaders
    return ({ b with dnsOverrides := {}, defaultHeaders }, dnsOverrides)

/-- The defaults that a request inherits. -/
def requestDefaults (b : ClientBuilder F T) : RequestExecutionOptions where
  requestTimeout := b.requestTimeout
  totalTimeout := b.totalTimeout
  maxResponseBodyBytes := b.maxResponseBodyBytes
  retryPolicy := b.retryPolicy
  redirectPolicy := b.redirectPolicy
  statusPolicy := b.defaultStatusPolicy

end ClientBuilder

/-! ## What one setting changes -/

/-- The TLS options that a setting replaces. Of the roots it adds one, or clears all. -/
structure TlsChange where
  rootStore : Option TlsRootStore := none
  rootCa : Option (Option TlsRootCertificate) := none
  clientIdentity : Option (Option TlsClientIdentity) := none
  minProtocolVersion : Option (Option TlsVersion) := none
  maxProtocolVersion : Option (Option TlsVersion) := none

def TlsChange.apply (change : TlsChange) (options : TlsOptions) : TlsOptions where
  rootStore := change.rootStore.getD options.rootStore
  rootCertificates :=
    match change.rootCa with
    | none => options.rootCertificates
    | some none => []
    | some (some certificate) => options.rootCertificates ++ [certificate]
  clientIdentity := change.clientIdentity.getD options.clientIdentity
  minProtocolVersion := change.minProtocolVersion.getD options.minProtocolVersion
  maxProtocolVersion := change.maxProtocolVersion.getD options.maxProtocolVersion

namespace Setting

variable {F : Type} (tools : BuilderTools)

/-- The request defaults that a setting replaces. A profile replaces all of them. -/
def overrides : Setting F → RequestExecutionOverrides
  | .requestTimeout timeout => { requestTimeout := some timeout }
  | .totalTimeout timeout => { totalTimeout := some timeout }
  | .maxResponseBodyBytes limit => { maxResponseBodyBytes := some limit }
  | .retryPolicy policy => { retryPolicy := some policy }
  | .redirectPolicy policy => { redirectPolicy := some policy }
  | .defaultStatusPolicy policy => { statusPolicy := some policy }
  | .profile preset =>
    { requestTimeout := some preset.defaults.requestTimeout
      totalTimeout := some preset.defaults.totalTimeout
      retryPolicy := some preset.defaults.retryPolicy
      maxResponseBodyBytes := some preset.defaults.maxResponseBodyBytes
      redirectPolicy := some preset.defaults.redirectPolicy
      statusPolicy := some preset.defaults.statusPolicy }
  | _ => {}

/-- The default header that a setting sets. -/
def header? : Setting F → Option (HeaderName × HeaderValue)
  | .defaultHeader name value => some (name, markSensitiveHeaderValue name value)
  | .tryDefaultHeader name value =>
    match tools.headerNameFromStr name, tools.headerValueFromStr value with
    | .ok name, .ok bytes =>
      some (name, markSensitiveHeaderValue name
        ⟨bytes, isSensitiveHeaderNameText tools name.text⟩)
    | _, _ => none
  | _ => none

def dnsCall? : Setting F → Option (Text × List SocketAddr)
  | .resolve domain address => some (domain, [address])
  | .resolveToAddrs domain addresses => some (domain, addresses)
  | _ => none

def tls : Setting F → TlsChange
  | .tlsRootStore rootStore => { rootStore := some rootStore }
  | .tlsRootCaPem pem => { rootCa := some (some (.pem pem)) }
  | .tlsRootCaDer der => { rootCa := some (some (.der der)) }
  | .clearTlsRootCas => { rootCa := some none }
  | .tlsClientIdentityPem certChainPem privateKeyPem =>
    { clientIdentity := some (some (.pem certChainPem privateKeyPem)) }
  | .clearTlsClientIdentity => { clientIdentity := some none }
  | _ => {}

def tlsBackend? : Setting F → Option TlsBackend
  | .tlsBackend backend => some backend
  | _ => none

end Setting

section Steps

variable {F T : Type} {tools : BuilderTools} {b b' : ClientBuilder F T} {setting : Setting F}

theorem resolveToAddrs_eq_ok {domain : Text} {addresses : List SocketAddr}
    (h : b.resolveToAddrs tools domain addresses = .ok b') :
    ∃ dnsOverrides, b.dnsOverrides.insert tools.parseHost domain addresses = .ok dnsOverrides ∧
      b' = { b with dnsOverrides } := by
  obtain ⟨dnsOverrides, hinsert, h⟩ := bind_eq_ok.mp h
  exact ⟨dnsOverrides, hinsert, (Except.ok.inj h).symm⟩

theorem mapError_eq_ok_iff {α ε ε' : Type} {x : Except ε α} {g : ε → ε'} {a : α} :
    x.mapError g = .ok a ↔ x = .ok a := by
  cases x <;> simp [Except.mapError]

theorem tryDefaultHeader_eq_ok {name value : Text}
    (h : b.tryDefaultHeader tools name value = .ok b') :
    ∃ name' bytes, tools.headerNameFromStr name = .ok name' ∧
      tools.headerValueFromStr value = .ok bytes ∧
      b' = b.defaultHeader name' ⟨bytes, isSensitiveHeaderNameText tools name'.text⟩ := by
  obtain ⟨name', hname, h⟩ := bind_eq_ok.mp h
  obtain ⟨value', hvalue, h⟩ := bind_eq_ok.mp h
  obtain ⟨bytes, hbytes, hvalue⟩ := bind_eq_ok.mp hvalue
  refine ⟨name', bytes, mapError_eq_ok_iff.mp hname, mapError_eq_ok_iff.mp hbytes, ?_⟩
  obtain rfl := Except.ok.inj h
  obtain rfl := Except.ok.inj hvalue
  cases isSensitiveHeaderNameText tools name'.text <;> rfl

theorem getAll_defaultHeader (b : ClientBuilder F T) (name' : HeaderName) (value : HeaderValue)
    (name : HeaderName) :
    (b.defaultHeader name' value).defaultHeaders.getAll name =
      (((some (name', markSensitiveHeaderValue name' value)).filter
        fun header ↦ header.1 = name).map fun header ↦ [header.2]).getD
          (b.defaultHeaders.getAll name) := by
  by_cases hname : name' = name
  · simp [ClientBuilder.defaultHeader, hname, MultiMap.getAll_insert_self, Option.filter]
  · simp [ClientBuilder.defaultHeader, hname, Option.filter,
      MultiMap.getAll_insert_of_ne _ _ (Ne.symm hname)]

variable (tools setting b b') in
/-- What a setting does to the parts of a builder that the transports share. -/
structure Applied : Prop where
  requestDefaults : b'.requestDefaults.Inherits setting.overrides b.requestDefaults
  /-- A new value for a name replaces the old one. -/
  defaultHeaders : ∀ name, b'.defaultHeaders.getAll name =
    (((setting.header? tools).filter fun header ↦ header.1 = name).map
      fun header ↦ [header.2]).getD (b.defaultHeaders.getAll name)
  dnsOverrides : match setting.dnsCall? with
    | some call => b.dnsOverrides.insert tools.parseHost call.1 call.2 = .ok b'.dnsOverrides
    | none => b'.dnsOverrides = b.dnsOverrides
  tlsOptions : b'.tlsOptions = setting.tls.apply b.tlsOptions
  tlsBackend : b'.tlsBackend = setting.tlsBackend?.getD b.tlsBackend
  transportOptions : b'.transportOptions = b.transportOptions

theorem applied_of_apply (h : b.apply tools setting = .ok b') : Applied tools b b' setting := by
  cases setting with
  | resolve domain address =>
    obtain ⟨_, hinsert, rfl⟩ := resolveToAddrs_eq_ok h
    exact ⟨⟨rfl, rfl, rfl, rfl, rfl, rfl⟩, fun _ ↦ rfl, hinsert, rfl, rfl, rfl⟩
  | resolveToAddrs domain addresses =>
    obtain ⟨_, hinsert, rfl⟩ := resolveToAddrs_eq_ok h
    exact ⟨⟨rfl, rfl, rfl, rfl, rfl, rfl⟩, fun _ ↦ rfl, hinsert, rfl, rfl, rfl⟩
  | noProxy rules =>
    obtain ⟨_, -, h⟩ := bind_eq_ok.mp h
    obtain rfl := Except.ok.inj h
    exact ⟨⟨rfl, rfl, rfl, rfl, rfl, rfl⟩, fun _ ↦ rfl, rfl, rfl, rfl, rfl⟩
  | addNoProxy rule =>
    obtain ⟨_, -, h⟩ := bind_eq_ok.mp h
    obtain rfl := Except.ok.inj h
    exact ⟨⟨rfl, rfl, rfl, rfl, rfl, rfl⟩, fun _ ↦ rfl, rfl, rfl, rfl, rfl⟩
  | defaultHeader name value =>
    obtain rfl := Except.ok.inj h
    exact ⟨⟨rfl, rfl, rfl, rfl, rfl, rfl⟩, getAll_defaultHeader b name value, rfl, rfl, rfl, rfl⟩
  | tryDefaultHeader name value =>
    obtain ⟨parsed, bytes, hparsed, hbytes, rfl⟩ := tryDefaultHeader_eq_ok h
    refine ⟨⟨rfl, rfl, rfl, rfl, rfl, rfl⟩, ?_, rfl, rfl, rfl, rfl⟩
    simp only [Setting.header?, hparsed, hbytes]
    exact getAll_defaultHeader b parsed _
  | _ =>
    obtain rfl := Except.ok.inj h
    exact ⟨⟨rfl, rfl, rfl, rfl, rfl, rfl⟩, fun _ ↦ rfl, rfl, rfl, rfl, rfl⟩

end Steps

/-! ## What a chain of settings leaves -/

section Chains

variable {F T : Type} (tools : BuilderTools) (settings : List (Setting F))

/-- For each default, the last setting that replaced it. -/
def lastOverrides : RequestExecutionOverrides where
  requestTimeout := settings.reverse.findSome? fun setting ↦ setting.overrides.requestTimeout
  totalTimeout := settings.reverse.findSome? fun setting ↦ setting.overrides.totalTimeout
  retryPolicy := settings.reverse.findSome? fun setting ↦ setting.overrides.retryPolicy
  maxResponseBodyBytes :=
    settings.reverse.findSome? fun setting ↦ setting.overrides.maxResponseBodyBytes
  redirectPolicy := settings.reverse.findSome? fun setting ↦ setting.overrides.redirectPolicy
  statusPolicy := settings.reverse.findSome? fun setting ↦ setting.overrides.statusPolicy

/-- The last value that was set for a header. -/
def lastHeader (name : HeaderName) : Option HeaderValue :=
  (settings.reverse.findSome? fun setting ↦
    (setting.header? tools).filter fun header ↦ header.1 = name).map Prod.snd

def lastTlsBackend (initial : TlsBackend) : TlsBackend :=
  (settings.reverse.findSome? Setting.tlsBackend?).getD initial

/-- For each option, the last setting that replaced it. The roots are those added since they
were cleared last. -/
def lastTls {S : Type} (change : S → TlsChange) (steps : List S) : TlsOptions where
  rootStore := (steps.reverse.findSome? fun s ↦ (change s).rootStore).getD .backendDefault
  rootCertificates :=
    ((steps.reverse.filterMap fun s ↦ (change s).rootCa).takeWhile
      Option.isSome).reduceOption.reverse
  clientIdentity := (steps.reverse.findSome? fun s ↦ (change s).clientIdentity).getD none
  minProtocolVersion := (steps.reverse.findSome? fun s ↦ (change s).minProtocolVersion).getD none
  maxProtocolVersion := (steps.reverse.findSome? fun s ↦ (change s).maxProtocolVersion).getD none

structure FromSettings (tlsBackend : TlsBackend) (b : ClientBuilder F T) : Prop where
  requestDefaults :
    b.requestDefaults.Inherits (lastOverrides settings)
      ClientProfile.standardSdk.defaults.options
  defaultHeaders : ∀ name,
    b.defaultHeaders.getAll name = (lastHeader tools settings name).toList
  dnsOverrides :
    insertAll tools.parseHost (settings.filterMap Setting.dnsCall?) = .ok b.dnsOverrides
  tlsBackend : b.tlsBackend = lastTlsBackend settings tlsBackend

variable {tools settings}

theorem getD_findSome?_concat {α β : Type} (f : α → Option β) (l : List α) (a : α) (b : β) :
    ((l ++ [a]).reverse.findSome? f).getD b = (f a).getD ((l.reverse.findSome? f).getD b) := by
  rw [List.reverse_concat, List.findSome?_cons]
  cases f a <;> rfl

theorem apply_lastTls {S : Type} (change : S → TlsChange) (steps : List S) (s : S) :
    (change s).apply (lastTls change steps) = lastTls change (steps ++ [s]) := by
  have hroots : ((change s).apply (lastTls change steps)).rootCertificates =
      (lastTls change (steps ++ [s])).rootCertificates := by
    simp only [TlsChange.apply, lastTls, List.reverse_concat, List.filterMap_cons]
    rcases (change s).rootCa with _ | _ | certificate <;> simp
  simp only [TlsChange.apply, lastTls, getD_findSome?_concat] at hroots ⊢
  rw [hroots]

variable {tlsBackend : TlsBackend}

theorem tlsOptions_of_run {S : Type}
    {step : ClientBuilder F T → S → Except Error (ClientBuilder F T)} (change : S → TlsChange)
    (hstep : ∀ b s b', step b s = .ok b' → b'.tlsOptions = (change s).apply b.tlsOptions)
    {baseUrl : Text} {transportOptions : T} {steps : List S} {b : ClientBuilder F T}
    (h : steps.foldlM step (ClientBuilder.new baseUrl transportOptions tlsBackend) = .ok b) :
    b.tlsOptions = lastTls change steps := by
  refine foldlM_induction (p := fun steps b ↦ b.tlsOptions = lastTls change steps) rfl ?_ h
  intro done before s after hbefore hafter
  rw [hstep before s after hafter, hbefore, apply_lastTls]

theorem inherits_nothing (options : RequestExecutionOptions) : options.Inherits {} options :=
  ⟨rfl, rfl, rfl, rfl, rfl, rfl⟩

theorem requestDefaults_new (baseUrl : Text) (transportOptions : T) (tlsBackend : TlsBackend) :
    (ClientBuilder.new baseUrl transportOptions tlsBackend : ClientBuilder F T).requestDefaults =
      ClientProfile.standardSdk.defaults.options :=
  rfl

theorem fromSettings_new (baseUrl : Text) (transportOptions : T) (tlsBackend : TlsBackend) :
    FromSettings tools [] tlsBackend (ClientBuilder.new baseUrl transportOptions tlsBackend :
      ClientBuilder F T) := by
  refine ⟨?_, fun _ ↦ rfl, rfl, rfl⟩
  rw [requestDefaults_new]
  exact inherits_nothing _

theorem FromSettings.concat {b b' : ClientBuilder F T} {setting : Setting F}
    (h : FromSettings tools settings tlsBackend b) (happlied : Applied tools b b' setting) :
    FromSettings tools (settings ++ [setting]) tlsBackend b' := by
  obtain ⟨hdefaults, hheaders, hdns, hbackend⟩ := h
  obtain ⟨hdefaults', hheaders', hdns', -, hbackend', -⟩ := happlied
  refine ⟨⟨?_, ?_, ?_, ?_, ?_, ?_⟩, fun name ↦ ?_, ?_, ?_⟩
  · rw [hdefaults'.requestTimeout, hdefaults.requestTimeout, lastOverrides, lastOverrides,
      getD_findSome?_concat]
  · rw [hdefaults'.totalTimeout, hdefaults.totalTimeout, lastOverrides, lastOverrides,
      getD_findSome?_concat]
  · rw [hdefaults'.retryPolicy, hdefaults.retryPolicy, lastOverrides, lastOverrides,
      getD_findSome?_concat]
  · rw [hdefaults'.maxResponseBodyBytes, hdefaults.maxResponseBodyBytes, lastOverrides,
      lastOverrides, getD_findSome?_concat]
  · rw [hdefaults'.redirectPolicy, hdefaults.redirectPolicy, lastOverrides, lastOverrides,
      getD_findSome?_concat]
  · rw [hdefaults'.statusPolicy, hdefaults.statusPolicy, lastOverrides, lastOverrides,
      getD_findSome?_concat]
  · rw [hheaders', hheaders, lastHeader, lastHeader, List.reverse_concat, List.findSome?_cons]
    cases (setting.header? tools).filter fun header ↦ header.1 = name <;> rfl
  · cases hcall : setting.dnsCall? with
    | none =>
      rw [hcall] at hdns'
      rw [List.filterMap_append, hdns']
      simpa [hcall] using hdns
    | some call =>
      rw [hcall] at hdns'
      rw [List.filterMap_append, insertAll, List.foldlM_append, ← insertAll, hdns]
      refine bind_eq_ok.mpr ⟨b.dnsOverrides, rfl, ?_⟩
      simpa [hcall] using hdns'
  · rw [hbackend', hbackend, lastTlsBackend, lastTlsBackend, getD_findSome?_concat]

/-- The settings of a transport come between the shared ones and leave the shared parts alone. -/
theorem fromSettings_of_run {S : Type}
    {step : ClientBuilder F T → S → Except Error (ClientBuilder F T)}
    (shared? : S → Option (Setting F))
    (hshared : ∀ b s setting, shared? s = some setting → step b s = b.apply tools setting)
    (hown : ∀ b s b', shared? s = none → step b s = .ok b' →
      b'.requestDefaults = b.requestDefaults ∧ b'.defaultHeaders = b.defaultHeaders ∧
        b'.dnsOverrides = b.dnsOverrides ∧ b'.tlsBackend = b.tlsBackend) {baseUrl : Text}
    {transportOptions : T} {steps : List S} {b : ClientBuilder F T}
    (h : steps.foldlM step (ClientBuilder.new baseUrl transportOptions tlsBackend) = .ok b) :
    FromSettings tools (steps.filterMap shared?) tlsBackend b := by
  refine foldlM_induction (p := fun steps b ↦
    FromSettings tools (steps.filterMap shared?) tlsBackend b)
    (fromSettings_new baseUrl transportOptions tlsBackend) ?_ h
  intro done before s after hbefore hstep
  cases hs : shared? s with
  | none =>
    obtain ⟨hdefaults, hheaders, hdns, hbackend⟩ := hown before s after hs hstep
    rw [List.filterMap_append, List.filterMap_cons_none hs, List.filterMap_nil, List.append_nil]
    exact ⟨hdefaults ▸ hbefore.requestDefaults, hheaders ▸ hbefore.defaultHeaders,
      hdns ▸ hbefore.dnsOverrides, hbackend ▸ hbefore.tlsBackend⟩
  | some setting =>
    rw [hshared before s setting hs] at hstep
    rw [List.filterMap_append, List.filterMap_cons_some hs, List.filterMap_nil]
    exact hbefore.concat (applied_of_apply hstep)

end Chains

/-! ## What `validate` accepts -/

section Validate

variable {F T : Type} {tools : BuilderTools} {f : F64 F} {b b' : ClientBuilder F T}
  {dnsOverrides : DnsOverrides}

theorem validateSome_eq_ok_iff {P : Type} {policy : Option P} {check : P → Except Error Unit} :
    ClientBuilder.validateSome policy check = .ok () ↔ ∀ p ∈ policy, check p = .ok () := by
  cases policy <;> simp [ClientBuilder.validateSome]

variable (tools f b) in
structure Validated : Prop where
  baseUrl : validateBaseUrl tools.deps b.baseUrl = .ok ()
  httpProxy : ∀ proxyUri ∈ b.httpProxy,
    ClientBuilder.validateHttpProxyUri tools proxyUri = .ok ()
  requestDefaults : b.requestDefaults.Valid
  connectTimeout : b.connectTimeout ≠ 0
  maxInFlight : b.maxInFlight ≠ some 0
  maxInFlightPerHost : b.maxInFlightPerHost ≠ some 0
  retryBudgetPolicy : ∀ policy ∈ b.retryBudgetPolicy, policy.validate = .ok ()
  circuitBreakerPolicy : ∀ policy ∈ b.circuitBreakerPolicy, policy.validate = .ok ()
  adaptiveConcurrencyPolicy : ∀ policy ∈ b.adaptiveConcurrencyPolicy, policy.validate f = .ok ()
  globalRateLimitPolicy : ∀ policy ∈ b.globalRateLimitPolicy, policy.validate = .ok ()
  perHostRateLimitPolicy : ∀ policy ∈ b.perHostRateLimitPolicy, policy.validate = .ok ()

theorem validated_of_validate (h : b.validate tools f = .ok (b', dnsOverrides)) :
    Validated tools f b ∧ b.dnsOverrides.build b.httpProxy.isSome = .ok dnsOverrides ∧
      ∃ defaultHeaders,
        ClientBuilder.defaultHeadersWithUserAgent tools b.clientName b.defaultHeaders =
          .ok defaultHeaders ∧
        b' = { b with dnsOverrides := {}, defaultHeaders } := by
  obtain ⟨⟨⟩, hbase, h⟩ := bind_eq_ok.mp h
  obtain ⟨overrides, hdns, h⟩ := bind_eq_ok.mp h
  obtain ⟨⟨⟩, hproxy, h⟩ := bind_eq_ok.mp h
  obtain ⟨⟨⟩, htimeouts, h⟩ := bind_eq_ok.mp h
  obtain ⟨hlimits, h⟩ := ite_error_eq_ok.mp h
  obtain ⟨⟨⟩, hretry, h⟩ := bind_eq_ok.mp h
  obtain ⟨⟨⟩, hbudget, h⟩ := bind_eq_ok.mp h
  obtain ⟨⟨⟩, hbreaker, h⟩ := bind_eq_ok.mp h
  obtain ⟨⟨⟩, hadaptive, h⟩ := bind_eq_ok.mp h
  obtain ⟨⟨⟩, hglobal, h⟩ := bind_eq_ok.mp h
  obtain ⟨⟨⟩, hhost, h⟩ := bind_eq_ok.mp h
  obtain ⟨defaultHeaders, hheaders, h⟩ := bind_eq_ok.mp h
  obtain ⟨rfl, rfl⟩ := Prod.mk.inj (Except.ok.inj h)
  obtain ⟨hrequest, htotal, hconnect⟩ := validateTimeoutConfig_eq_ok_iff.mp htimeouts
  simp only [Bool.or_eq_true, decide_eq_true_eq, not_or] at hlimits
  refine ⟨?_, hdns, defaultHeaders, hheaders, rfl⟩
  exact {
    baseUrl := hbase
    httpProxy := validateSome_eq_ok_iff.mp hproxy
    requestDefaults := ⟨hrequest, htotal, hretry⟩
    connectTimeout := fun hzero ↦ hconnect (congrArg some hzero)
    maxInFlight := hlimits.1
    maxInFlightPerHost := hlimits.2
    retryBudgetPolicy := validateSome_eq_ok_iff.mp hbudget
    circuitBreakerPolicy := validateSome_eq_ok_iff.mp hbreaker
    adaptiveConcurrencyPolicy := validateSome_eq_ok_iff.mp hadaptive
    globalRateLimitPolicy := validateSome_eq_ok_iff.mp hglobal
    perHostRateLimitPolicy := validateSome_eq_ok_iff.mp hhost }

/-- The user agent is added to headers that have none, and nothing else changes. -/
theorem defaultHeadersWithUserAgent_eq_ok {clientName : Text} {before after : HeaderMap}
    (h : ClientBuilder.defaultHeadersWithUserAgent tools clientName before = .ok after) :
    Text.trim clientName ≠ [] ∧ ∃ userAgent, tools.headerValueFromStr clientName = .ok userAgent ∧
      ∀ name, after.getAll name =
        if name = .userAgent ∧ before.getAll .userAgent = [] then [⟨userAgent, false⟩]
        else before.getAll name := by
  obtain ⟨hblank, h⟩ := ite_error_eq_ok.mp h
  refine ⟨fun hnil ↦ hblank (List.isEmpty_iff.mpr hnil), ?_⟩
  cases hvalue : tools.headerValueFromStr clientName with
  | error source =>
    rw [hvalue] at h
    cases h
  | ok userAgent =>
    refine ⟨userAgent, rfl, fun name ↦ ?_⟩
    rw [hvalue] at h
    dsimp only at h
    split at h
    next hset =>
      obtain rfl := Except.ok.inj h
      rw [if_neg]
      rintro ⟨-, hnone⟩
      rw [MultiMap.getAll_eq_nil_iff.mp hnone] at hset
      cases hset
    next hunset =>
      obtain rfl := Except.ok.inj h
      have hnone : before.getAll .userAgent = [] :=
        MultiMap.getAll_eq_nil_iff.mpr (by simpa using hunset)
      by_cases hname : name = .userAgent
      · rw [hname, MultiMap.getAll_insert_self, if_pos ⟨rfl, hnone⟩]
      · rw [MultiMap.getAll_insert_of_ne _ _ hname, if_neg fun hboth ↦ hname hboth.1]

end Validate

end Reqx.Driver
