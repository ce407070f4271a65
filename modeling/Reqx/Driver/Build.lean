import Reqx.Driver.ClientBuilder
import Reqx.Driver.Destinations

/-!
# Built clients

What `build` makes of a chain of settings, for both transports.
-/

namespace Reqx.Driver

open Reqx.Checks Reqx.Dns Reqx.Resilience Reqx.Tls

structure HttpProxyConfig where
  uri : Uri
  authorization : Option HeaderValue
  noProxyRules : List NoProxyRule

/-- The parts of `ClientInner` that requests read. A control is given by its policy; its state
starts from there. -/
structure ClientInner (F : Type) where
  runtime : Runtime
  baseUrl : Text
  defaultHeaders : HeaderMap
  requestDefaults : RequestExecutionOptions
  bufferedAutoAcceptEncoding : Bool
  streamAutoAcceptEncoding : Bool
  retryEligibility : RetryEligibility
  retryBudget : Option RetryBudgetPolicy
  circuitBreaker : Option CircuitBreakerPolicy
  adaptiveConcurrency : Option (AdaptiveConcurrencyPolicy F)
  globalRateLimit : Option RateLimit.RateLimitPolicy
  perHostRateLimit : Option RateLimit.RateLimitPolicy
  serverThrottleScope : RateLimit.ServerThrottleScope
  clientName : Text
  tlsBackend : TlsBackend
  proxyConfig : Option HttpProxyConfig
  dnsOverrides : DnsOverrides
  transport : TlsConfig
  endpointSelector : Option EndpointSelector
  backoffSource : Option BackoffSource
  maxInFlight : Option ℕ
  maxInFlightPerHost : Option ℕ
  connectTimeout : ℕ
  metricsEnabled : Bool
  otelEnabled : Bool

/-! ## Building -/

/-- `Semaphore::MAX_PERMITS` of tokio. -/
def maxPermits : ℕ := usizeMax / 8

structure AsyncTransportOptions where
  proxyAuthorization : Option HeaderValue := none

inductive AsyncSetting (F : Type) where
  | shared (setting : Setting F)
  | proxyAuthorization (value : HeaderValue)
  | tryProxyAuthorization (value : Text)
  | tlsVersion (version : TlsVersion)
  | tlsMinVersion (version : TlsVersion)
  | tlsMaxVersion (version : TlsVersion)
  | clearTlsVersionBounds
  | tlsClientIdentityPkcs12 (identityDer : Bytes) (password : Text)

def AsyncSetting.shared? {F : Type} : AsyncSetting F → Option (Setting F)
  | .shared setting => some setting
  | _ => none

namespace ClientBuilder

variable {F T : Type} (tools : BuilderTools) (f : F64 F)

def setProxyAuthorization (b : ClientBuilder F AsyncTransportOptions) (value : HeaderValue) :
    ClientBuilder F AsyncTransportOptions :=
  { b with transportOptions := ⟨some (value.setSensitive true)⟩ }

def applyAsync (b : ClientBuilder F AsyncTransportOptions) :
    AsyncSetting F → Except Error (ClientBuilder F AsyncTransportOptions)
  | .shared setting => b.apply tools setting
  | .proxyAuthorization value => .ok (b.setProxyAuthorization value)
  | .tryProxyAuthorization value => do
    let value ← parseHeaderValue tools "proxy-authorization".toList value
    return b.setProxyAuthorization value
  | .tlsVersion version =>
    .ok (b.setTlsOptions fun options ↦
      { options with minProtocolVersion := some version, maxProtocolVersion := some version })
  | .tlsMinVersion version =>
    .ok (b.setTlsOptions fun options ↦ { options with minProtocolVersion := some version })
  | .tlsMaxVersion version =>
    .ok (b.setTlsOptions fun options ↦ { options with maxProtocolVersion := some version })
  | .clearTlsVersionBounds =>
    .ok (b.setTlsOptions fun options ↦
      { options with minProtocolVersion := none, maxProtocolVersion := none })
  | .tlsClientIdentityPkcs12 identityDer password =>
    .ok (b.setTlsOptions fun options ↦
      { options with clientIdentity := some (.pkcs12 identityDer password) })

def inner (b : ClientBuilder F T) (runtime : Runtime) (proxyAuthorization : Option HeaderValue)
    (dnsOverrides : DnsOverrides) (transport : TlsConfig) : ClientInner F where
  runtime
  baseUrl := b.baseUrl
  defaultHeaders := b.defaultHeaders
  requestDefaults := b.requestDefaults
  bufferedAutoAcceptEncoding := b.bufferedAutoAcceptEncoding
  streamAutoAcceptEncoding := b.streamAutoAcceptEncoding
  retryEligibility := b.retryEligibility
  retryBudget := b.retryBudgetPolicy
  circuitBreaker := b.circuitBreakerPolicy
  adaptiveConcurrency := b.adaptiveConcurrencyPolicy
  globalRateLimit := b.globalRateLimitPolicy
  perHostRateLimit := b.perHostRateLimitPolicy
  serverThrottleScope := b.serverThrottleScope
  clientName := b.clientName
  tlsBackend := b.tlsBackend
  proxyConfig := b.httpProxy.map fun uri ↦ ⟨uri, proxyAuthorization, b.noProxyRules⟩
  dnsOverrides
  transport
  endpointSelector := b.endpointSelector
  backoffSource := b.backoffSource
  maxInFlight := b.maxInFlight
  maxInFlightPerHost := b.maxInFlightPerHost
  connectTimeout := b.connectTimeout
  metricsEnabled := b.metricsEnabled
  otelEnabled := b.otelEnabled

def tryEnableOtel (b : ClientBuilder F T) : Except Error Unit :=
  if b.otelEnabled && !tools.otelCompiled then
    .error (.featureUnavailable "otel" "OpenTelemetry observer emission")
  else .ok ()

def rejectProxyCredentials (proxyUri : Uri) : Except Error Unit :=
  if proxyUri.authority.any (Text.contains '@') then
    invalidProxyUri tools proxyUri
      ("async http_proxy URI must not include credentials; use proxy_authorization(...) for " ++
        "HTTP proxy authentication")
  else .ok ()

def buildAsync (b : ClientBuilder F AsyncTransportOptions) : Except Error (ClientInner F) := do
  let (b, dnsOverrides) ← b.validate tools f
  validateSome b.httpProxy (rejectProxyCredentials tools)
  if b.transportOptions.proxyAuthorization.isSome && b.httpProxy.isNone then
    .error .proxyAuthorizationRequiresHttpProxy
  else if b.maxInFlight.any (maxPermits < ·) || b.maxInFlightPerHost.any (maxPermits < ·) then
    .error (.invalidConcurrencyLimitConfig b.maxInFlight b.maxInFlightPerHost
      "concurrency limits must not exceed tokio::sync::Semaphore::MAX_PERMITS")
  else do
    b.tryEnableOtel tools
    let transport ← buildTransportClient tools.stack b.tlsBackend b.tlsOptions
    return b.inner .async b.transportOptions.proxyAuthorization dnsOverrides transport

/-- `ureq::Proxy::new` on the proxy's URI. -/
def makeProxyAgent (proxyUri : Uri) : Except Error Unit :=
  if !tools.acceptsProxy proxyUri then
    invalidProxyUri tools proxyUri "failed to initialize blocking proxy from http_proxy URI"
  else .ok ()

def buildBlocking (b : ClientBuilder F Unit) : Except Error (ClientInner F) := do
  let (b, dnsOverrides) ← b.validate tools f
  b.tryEnableOtel tools
  let transport ← buildSyncTlsConfig tools.stack b.tlsBackend b.tlsOptions
  validateSome b.httpProxy (makeProxyAgent tools)
  return b.inner .blocking none dnsOverrides transport

end ClientBuilder

/-! ## What a built client is -/

section Built

variable {F T : Type}

/-- The client has passed every check, and what it does for each request is what the settings
asked for last. -/
structure Built (tools : BuilderTools) (f : F64 F) (settings : List (Setting F))
    (inner : ClientInner F) : Prop where
  baseUrl : validateBaseUrl tools.deps inner.baseUrl = .ok ()
  inherits : inner.requestDefaults.Inherits (lastOverrides settings)
    ClientProfile.standardSdk.defaults.options
  valid : inner.requestDefaults.Valid
  connectTimeout : inner.connectTimeout ≠ 0
  clientName : Text.trim inner.clientName ≠ []
  headers : ∃ userAgent, tools.headerValueFromStr inner.clientName = .ok userAgent ∧
    ∀ name, inner.defaultHeaders.getAll name =
      if name = .userAgent then [(lastHeader tools settings .userAgent).getD ⟨userAgent, false⟩]
      else (lastHeader tools settings name).toList
  sensitive : ∀ name, isSensitiveHeaderName name = true →
    ∀ value ∈ inner.defaultHeaders.getAll name, value.isSensitive = true
  dnsOverrides : ∃ config,
    insertAll tools.parseHost (settings.filterMap Setting.dnsCall?) = .ok config ∧
      config.build inner.proxyConfig.isSome = .ok inner.dnsOverrides
  proxyUri : ∀ proxy ∈ inner.proxyConfig,
    ClientBuilder.validateHttpProxyUri tools proxy.uri = .ok ()
  inFlight : inner.maxInFlight ≠ some 0 ∧ inner.maxInFlightPerHost ≠ some 0
  retryBudget : ∀ policy ∈ inner.retryBudget, policy.validate = .ok ()
  circuitBreaker : ∀ policy ∈ inner.circuitBreaker, policy.validate = .ok ()
  adaptiveConcurrency : ∀ policy ∈ inner.adaptiveConcurrency, policy.validate f = .ok ()
  globalRateLimit : ∀ policy ∈ inner.globalRateLimit, policy.validate = .ok ()
  perHostRateLimit : ∀ policy ∈ inner.perHostRateLimit, policy.validate = .ok ()
  otel : inner.otelEnabled = true → tools.otelCompiled = true

variable {tools : BuilderTools} {f : F64 F} {settings : List (Setting F)} {baseUrl : Text}
  {tlsBackend : TlsBackend} {inner : ClientInner F}

theorem isSensitive_of_header? {setting : Setting F} {header : HeaderName × HeaderValue}
    (h : setting.header? tools = some header) (hname : isSensitiveHeaderName header.1 = true) :
    header.2.isSensitive = true := by
  cases setting with
  | defaultHeader name value =>
    obtain rfl := Option.some.inj h
    simp only at hname
    simp [markSensitiveHeaderValue, hname, HeaderValue.setSensitive]
  | tryDefaultHeader name value =>
    simp only [Setting.header?] at h
    split at h
    next =>
      obtain rfl := Option.some.inj h
      simp only at hname
      simp [markSensitiveHeaderValue, hname, HeaderValue.setSensitive]
    next => cases h
  | _ => cases h

theorem isSensitive_of_lastHeader {name : HeaderName} {value : HeaderValue}
    (hname : isSensitiveHeaderName name = true) (h : lastHeader tools settings name = some value) :
    value.isSensitive = true := by
  obtain ⟨header, hfind, rfl⟩ := Option.map_eq_some_iff.mp h
  obtain ⟨setting, -, hsetting⟩ := List.exists_of_findSome?_eq_some hfind
  obtain ⟨hheader, hsame⟩ := Option.filter_eq_some_iff.mp hsetting
  exact isSensitive_of_header? hheader ((of_decide_eq_true hsame).symm ▸ hname)

theorem headers_of_validate {b : ClientBuilder F T} {defaultHeaders : HeaderMap}
    (hfrom : FromSettings tools settings tlsBackend b)
    (h : ClientBuilder.defaultHeadersWithUserAgent tools b.clientName b.defaultHeaders =
      .ok defaultHeaders) :
    Text.trim b.clientName ≠ [] ∧ ∃ userAgent,
      tools.headerValueFromStr b.clientName = .ok userAgent ∧ ∀ name, defaultHeaders.getAll name =
        if name = .userAgent then [(lastHeader tools settings .userAgent).getD ⟨userAgent, false⟩]
        else (lastHeader tools settings name).toList := by
  obtain ⟨hname, userAgent, hvalue, hall⟩ := defaultHeadersWithUserAgent_eq_ok h
  refine ⟨hname, userAgent, hvalue, fun name ↦ ?_⟩
  rw [hall, hfrom.defaultHeaders, hfrom.defaultHeaders]
  by_cases hname : name = .userAgent
  · subst hname
    cases lastHeader tools settings .userAgent <;> simp
  · simp [hname]

theorem built_of_validate {b b' : ClientBuilder F T} {runtime : Runtime}
    {dnsOverrides : DnsOverrides} {proxyAuthorization : Option HeaderValue} {transport : TlsConfig}
    (hfrom : FromSettings tools settings tlsBackend b)
    (h : b.validate tools f = .ok (b', dnsOverrides)) (hotel : b'.tryEnableOtel tools = .ok ()) :
    Built tools f settings (b'.inner runtime proxyAuthorization dnsOverrides transport) := by
  obtain ⟨hvalid, hdns, defaultHeaders, hheaders, rfl⟩ := validated_of_validate h
  obtain ⟨hname, userAgent, hvalue, hall⟩ := headers_of_validate hfrom hheaders
  obtain ⟨hcompiled, -⟩ := ite_error_eq_ok.mp hotel
  exact {
    baseUrl := hvalid.baseUrl
    inherits := hfrom.requestDefaults
    valid := hvalid.requestDefaults
    connectTimeout := hvalid.connectTimeout
    clientName := hname
    headers := ⟨userAgent, hvalue, hall⟩
    sensitive := by
      intro name hname value hmem
      have hother : name ≠ .userAgent := by
        rintro rfl
        exact absurd hname (by decide)
      change value ∈ defaultHeaders.getAll name at hmem
      rw [hall, if_neg hother, Option.mem_toList] at hmem
      exact isSensitive_of_lastHeader hname hmem
    dnsOverrides := by
      refine ⟨b.dnsOverrides, hfrom.dnsOverrides, ?_⟩
      simpa [ClientBuilder.inner] using hdns
    proxyUri := by
      intro proxy hproxy
      obtain ⟨uri, huri, rfl⟩ := Option.map_eq_some_iff.mp hproxy
      exact hvalid.httpProxy uri huri
    inFlight := ⟨hvalid.maxInFlight, hvalid.maxInFlightPerHost⟩
    retryBudget := hvalid.retryBudgetPolicy
    circuitBreaker := hvalid.circuitBreakerPolicy
    adaptiveConcurrency := hvalid.adaptiveConcurrencyPolicy
    globalRateLimit := hvalid.globalRateLimitPolicy
    perHostRateLimit := hvalid.perHostRateLimitPolicy
    otel := by simpa [ClientBuilder.inner] using hcompiled }

/-! ## The two builders -/

section Async

variable {steps : List (AsyncSetting F)} {b : ClientBuilder F AsyncTransportOptions}

theorem fromSettings_of_async
    (h : steps.foldlM (ClientBuilder.applyAsync tools) (.new baseUrl {} tlsBackend) = .ok b) :
    FromSettings tools (steps.filterMap AsyncSetting.shared?) tlsBackend b := by
  refine fromSettings_of_run AsyncSetting.shared? ?_ ?_ h
  · intro b step setting hshared
    cases step with
    | shared setting' =>
      obtain rfl := Option.some.inj hshared
      rfl
    | _ => cases hshared
  · intro b step b' hown hstep
    cases step with
    | shared setting => cases hown
    | tryProxyAuthorization value =>
      obtain ⟨_, -, hstep⟩ := bind_eq_ok.mp hstep
      obtain rfl := Except.ok.inj hstep
      exact ⟨rfl, rfl, rfl, rfl⟩
    | _ =>
      obtain rfl := Except.ok.inj hstep
      exact ⟨rfl, rfl, rfl, rfl⟩

def AsyncSetting.tls : AsyncSetting F → TlsChange
  | .shared setting => setting.tls
  | .tlsVersion version =>
    { minProtocolVersion := some (some version), maxProtocolVersion := some (some version) }
  | .tlsMinVersion version => { minProtocolVersion := some (some version) }
  | .tlsMaxVersion version => { maxProtocolVersion := some (some version) }
  | .clearTlsVersionBounds => { minProtocolVersion := some none, maxProtocolVersion := some none }
  | .tlsClientIdentityPkcs12 identityDer password =>
    { clientIdentity := some (some (.pkcs12 identityDer password)) }
  | .proxyAuthorization _ | .tryProxyAuthorization _ => {}

theorem tlsOptions_of_async
    (h : steps.foldlM (ClientBuilder.applyAsync tools) (.new baseUrl {} tlsBackend) = .ok b) :
    b.tlsOptions = lastTls AsyncSetting.tls steps := by
  refine tlsOptions_of_run AsyncSetting.tls ?_ h
  intro b step b' hstep
  cases step with
  | shared setting => exact (applied_of_apply hstep).tlsOptions
  | tryProxyAuthorization value =>
    obtain ⟨_, -, hstep⟩ := bind_eq_ok.mp hstep
    obtain rfl := Except.ok.inj hstep
    rfl
  | _ =>
    obtain rfl := Except.ok.inj hstep
    rfl

theorem sensitive_of_async
    (h : steps.foldlM (ClientBuilder.applyAsync tools) (.new baseUrl {} tlsBackend) = .ok b) :
    ∀ value ∈ b.transportOptions.proxyAuthorization, value.isSensitive = true := by
  refine foldlM_induction (p := fun _ b ↦
    ∀ value ∈ b.transportOptions.proxyAuthorization, value.isSensitive = true)
    (fun value hvalue ↦ by cases hvalue) ?_ h
  intro done before step after hbefore hstep
  cases step with
  | shared setting => exact (applied_of_apply hstep).transportOptions ▸ hbefore
  | proxyAuthorization value =>
    obtain rfl := Except.ok.inj hstep
    rintro _ ⟨⟩
    rfl
  | tryProxyAuthorization value =>
    obtain ⟨_, -, hstep⟩ := bind_eq_ok.mp hstep
    obtain rfl := Except.ok.inj hstep
    rintro _ ⟨⟩
    rfl
  | _ =>
    obtain rfl := Except.ok.inj hstep
    exact hbefore

/-- What the async builder checks besides. -/
structure AsyncBuilt (tools : BuilderTools) (b : ClientBuilder F AsyncTransportOptions)
    (inner : ClientInner F) : Prop where
  runtime : inner.runtime = .async
  authorization : b.transportOptions.proxyAuthorization.isSome = true →
    inner.proxyConfig.isSome = true
  proxy : ∀ proxy ∈ inner.proxyConfig,
    proxy.authorization = b.transportOptions.proxyAuthorization ∧
      proxy.uri.authority.any (Text.contains '@') = false
  inFlight : (∀ limit ∈ inner.maxInFlight, limit ≤ maxPermits) ∧
    ∀ limit ∈ inner.maxInFlightPerHost, limit ≤ maxPermits
  tlsBackend : inner.tlsBackend = b.tlsBackend
  transport : Honours tools.stack (backendLibrary inner.tlsBackend) inner.tlsBackend b.tlsOptions
    inner.transport

theorem asyncBuilt_of_buildAsync {settings : List (Setting F)}
    (hfrom : FromSettings tools settings tlsBackend b) (h : b.buildAsync tools f = .ok inner) :
    Built tools f settings inner ∧ AsyncBuilt tools b inner := by
  obtain ⟨⟨b', dnsOverrides⟩, hvalidate, h⟩ := bind_eq_ok.mp h
  obtain ⟨⟨⟩, hcredentials, h⟩ := bind_eq_ok.mp h
  obtain ⟨hrequires, h⟩ := ite_error_eq_ok.mp h
  obtain ⟨hlimits, h⟩ := ite_error_eq_ok.mp h
  obtain ⟨⟨⟩, hotel, h⟩ := bind_eq_ok.mp h
  obtain ⟨transport, htransport, h⟩ := bind_eq_ok.mp h
  obtain rfl := Except.ok.inj h
  refine ⟨built_of_validate hfrom hvalidate hotel, ?_⟩
  obtain ⟨-, -, defaultHeaders, -, rfl⟩ := validated_of_validate hvalidate
  simp only [Bool.or_eq_true, not_or, Option.any_eq_true, decide_eq_true_eq, not_exists,
    not_and, not_lt] at hlimits
  exact {
    runtime := rfl
    authorization := by
      intro hsome
      rw [hsome, Bool.true_and, Bool.not_eq_true, Option.isNone_eq_false_iff] at hrequires
      simpa [ClientBuilder.inner] using hrequires
    proxy := by
      intro proxy hproxy
      obtain ⟨uri, huri, rfl⟩ := Option.map_eq_some_iff.mp hproxy
      obtain ⟨hclean, -⟩ := ite_error_eq_ok.mp (validateSome_eq_ok_iff.mp hcredentials uri huri)
      exact ⟨rfl, Bool.not_eq_true _ ▸ hclean⟩
    inFlight := hlimits
    tlsBackend := rfl
    transport := honours_of_buildTransportClient htransport }

end Async

theorem fromSettings_of_blocking {settings : List (Setting F)} {b : ClientBuilder F Unit}
    (h : settings.foldlM (ClientBuilder.apply tools) (.new baseUrl () tlsBackend) = .ok b) :
    FromSettings tools settings tlsBackend b := by
  have hrun := fromSettings_of_run some
    (fun b s setting hs ↦ by rw [Option.some.inj hs])
    (fun b s b' hs ↦ by cases hs) h
  rwa [List.filterMap_some] at hrun

theorem blockingBuilt_of_buildBlocking {settings : List (Setting F)} {b : ClientBuilder F Unit}
    (hfrom : FromSettings tools settings tlsBackend b) (h : b.buildBlocking tools f = .ok inner) :
    Built tools f settings inner ∧ inner.runtime = .blocking ∧ inner.tlsBackend = b.tlsBackend ∧
      (∀ proxy ∈ inner.proxyConfig,
        proxy.authorization = none ∧ tools.acceptsProxy proxy.uri = true) ∧
      Honours tools.stack .ureq inner.tlsBackend b.tlsOptions inner.transport := by
  obtain ⟨⟨b', dnsOverrides⟩, hvalidate, h⟩ := bind_eq_ok.mp h
  obtain ⟨⟨⟩, hotel, h⟩ := bind_eq_ok.mp h
  obtain ⟨transport, htransport, h⟩ := bind_eq_ok.mp h
  obtain ⟨⟨⟩, hagent, h⟩ := bind_eq_ok.mp h
  obtain rfl := Except.ok.inj h
  refine ⟨built_of_validate hfrom hvalidate hotel, rfl, ?_⟩
  obtain ⟨-, -, defaultHeaders, -, rfl⟩ := validated_of_validate hvalidate
  refine ⟨rfl, ?_, honours_of_buildSyncTlsConfig htransport⟩
  intro proxy hproxy
  obtain ⟨uri, huri, rfl⟩ := Option.map_eq_some_iff.mp hproxy
  obtain ⟨haccepts, -⟩ := ite_error_eq_ok.mp (validateSome_eq_ok_iff.mp hagent uri huri)
  exact ⟨rfl, by simpa using haccepts⟩

/-- A client that one of the two builders made of these settings. -/
inductive MadeFrom (tools : BuilderTools) (f : F64 F) : List (Setting F) → ClientInner F → Prop
  | async {baseUrl : Text} {tlsBackend : TlsBackend} {steps : List (AsyncSetting F)}
      {b : ClientBuilder F AsyncTransportOptions} {inner : ClientInner F}
      (hrun : steps.foldlM (ClientBuilder.applyAsync tools) (.new baseUrl {} tlsBackend) = .ok b)
      (hbuild : b.buildAsync tools f = .ok inner) :
      MadeFrom tools f (steps.filterMap AsyncSetting.shared?) inner
  | blocking {baseUrl : Text} {tlsBackend : TlsBackend} {settings : List (Setting F)}
      {b : ClientBuilder F Unit} {inner : ClientInner F}
      (hrun : settings.foldlM (ClientBuilder.apply tools) (.new baseUrl () tlsBackend) = .ok b)
      (hbuild : b.buildBlocking tools f = .ok inner) : MadeFrom tools f settings inner

theorem MadeFrom.built (h : MadeFrom tools f settings inner) : Built tools f settings inner := by
  cases h with
  | async hrun hbuild => exact (asyncBuilt_of_buildAsync (fromSettings_of_async hrun) hbuild).1
  | blocking hrun hbuild =>
    exact (blockingBuilt_of_buildBlocking (fromSettings_of_blocking hrun) hbuild).1

end Built

/-- A client that is built has passed the checks of its transport, whatever settings were made in
whatever order, and each of its defaults and TLS options is what the settings asked for last. -/
theorem built_clients_follow_settings {F : Type} (tools : BuilderTools) (f : F64 F) (baseUrl : Text)
    (tlsBackend : TlsBackend) (inner : ClientInner F) :
    (∀ (steps : List (AsyncSetting F)) (b : ClientBuilder F AsyncTransportOptions),
      steps.foldlM (ClientBuilder.applyAsync tools) (.new baseUrl {} tlsBackend) = .ok b →
      b.buildAsync tools f = .ok inner →
      Built tools f (steps.filterMap AsyncSetting.shared?) inner ∧ AsyncBuilt tools b inner ∧
        b.tlsOptions = lastTls AsyncSetting.tls steps ∧
        b.tlsBackend = lastTlsBackend (steps.filterMap AsyncSetting.shared?) tlsBackend ∧
        ∀ proxy ∈ inner.proxyConfig, ∀ value ∈ proxy.authorization, value.isSensitive = true) ∧
    (∀ (settings : List (Setting F)) (b : ClientBuilder F Unit),
      settings.foldlM (ClientBuilder.apply tools) (.new baseUrl () tlsBackend) = .ok b →
      b.buildBlocking tools f = .ok inner →
      (Built tools f settings inner ∧ inner.runtime = .blocking ∧
        inner.tlsBackend = b.tlsBackend ∧
        (∀ proxy ∈ inner.proxyConfig,
          proxy.authorization = none ∧ tools.acceptsProxy proxy.uri = true) ∧
        Honours tools.stack .ureq inner.tlsBackend b.tlsOptions inner.transport) ∧
      b.tlsOptions = lastTls Setting.tls settings ∧
      b.tlsBackend = lastTlsBackend settings tlsBackend) := by
  constructor
  · intro steps b hrun hbuild
    have hfrom := fromSettings_of_async hrun
    obtain ⟨hbuilt, hasync⟩ := asyncBuilt_of_buildAsync hfrom hbuild
    refine ⟨hbuilt, hasync, tlsOptions_of_async hrun, hfrom.tlsBackend,
      fun proxy hproxy value hvalue ↦ ?_⟩
    rw [(hasync.proxy proxy hproxy).1] at hvalue
    exact sensitive_of_async hrun value hvalue
  · intro settings b hrun hbuild
    have hfrom := fromSettings_of_blocking hrun
    refine ⟨blockingBuilt_of_buildBlocking hfrom hbuild, ?_, hfrom.tlsBackend⟩
    exact tlsOptions_of_run Setting.tls (fun _ _ _ hstep ↦ (applied_of_apply hstep).tlsOptions) hrun

namespace Sample

/-- Tools that take every text for a header and every host for a domain. -/
def builderTools : BuilderTools where
  deps := parsers
  net := ⟨fun _ ↦ none, fun _ ↦ none, fun _ ↦ none, id, fun _ _ ↦ false, fun _ ↦ none⟩
  parseHost host := some (.domain host)
  headerNameFromStr name := .ok ⟨Text.toAsciiLowercase name⟩
  headerValueFromStr value := .ok (value.map fun c ↦ UInt8.ofNat c.toNat)
  pathAndQuery _ := none
  stack := Tls.Sample.tlsStack
  acceptsProxy _ := true
  otelCompiled := false

/-- A profile, one of its defaults replaced afterwards, a header, a proxy with credentials, and
two roots of which the first is cleared. -/
def asyncSteps : List (AsyncSetting ℚ) :=
  [.shared (.requestTimeout 7), .shared (.profile .lowLatency), .shared (.maxInFlight (some 3)),
    .shared (.tryDefaultHeader "Cookie".toList "a=b".toList),
    .shared (.totalTimeout (some (fromSecs 9))),
    .shared (.httpProxy ⟨some "http".toList, some "p.test".toList, some "p.test".toList, none,
      "http://p.test/".toList⟩),
    .tryProxyAuthorization "Basic x".toList, .shared (.tlsRootCaDer [7]), .shared .clearTlsRootCas,
    .shared (.tlsRootCaDer [8]), .shared (.tlsRootStore .specific), .tlsMinVersion .v13]

def asyncBuild : Except Error (ClientInner ℚ) := do
  let b ← asyncSteps.foldlM (ClientBuilder.applyAsync builderTools)
    (.new Sample.baseUrl {} .rustlsRing)
  b.buildAsync builderTools F64.exact

end Sample

theorem built_clients_follow_settings_latency :
    ∃ inner, Sample.asyncBuild = .ok inner ∧
      Built Sample.builderTools F64.exact (Sample.asyncSteps.filterMap AsyncSetting.shared?) inner ∧
      (lastOverrides (Sample.asyncSteps.filterMap AsyncSetting.shared?)).requestTimeout =
        some (fromSecs 2) ∧
      (lastOverrides (Sample.asyncSteps.filterMap AsyncSetting.shared?)).totalTimeout =
        some (some (fromSecs 9)) ∧
      lastTls AsyncSetting.tls Sample.asyncSteps =
        ⟨.specific, [.der [8]], none, some .v13, none⟩ := by
  obtain ⟨inner, hinner⟩ := exists_of_isOk
    (by decide +kernel : Sample.asyncBuild.isOk = true)
  obtain ⟨b, hrun, hbuild⟩ := bind_eq_ok.mp hinner
  exact ⟨inner, hinner, ((built_clients_follow_settings _ _ _ _ inner).1 _ b hrun hbuild).1,
    rfl, rfl, rfl⟩

end Reqx.Driver
