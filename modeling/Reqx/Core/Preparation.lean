import Reqx.Library.Checks
import Reqx.Core.ContentEncoding
import Reqx.Core.Destination
import Reqx.Core.RequestBuilder

/-!
# Preparing a request

What the client makes of a request before it is sent: the options a request
overrides, the base URL it goes to, and the headers it is sent with.
-/

namespace Reqx

namespace HeaderName

def acceptEncoding := ofString "accept-encoding"
def range := ofString "range"

end HeaderName

/-! ## Timeouts -/

section Timeouts

variable (requestTimeout : ℕ) (totalTimeout connectTimeout : Option ℕ)

def invalidTimeoutConfig (message : String) : Error :=
  .invalidTimeoutConfig (durationMillisCeil requestTimeout) (totalTimeout.map durationMillisCeil)
    (connectTimeout.map durationMillisCeil) message

def validateTimeoutConfig : Except Error Unit :=
  let invalid (message : String) : Except Error Unit :=
    .error (invalidTimeoutConfig requestTimeout totalTimeout connectTimeout message)
  if requestTimeout = 0 then invalid "request_timeout must be greater than zero"
  else if totalTimeout = some 0 then invalid "total_timeout must be greater than zero"
  else if connectTimeout = some 0 then invalid "connect_timeout must be greater than zero"
  else .ok ()

variable {requestTimeout totalTimeout connectTimeout}

theorem validateTimeoutConfig_eq_ok_iff :
    validateTimeoutConfig requestTimeout totalTimeout connectTimeout = .ok () ↔
      requestTimeout ≠ 0 ∧ totalTimeout ≠ some 0 ∧ connectTimeout ≠ some 0 := by
  simp [validateTimeoutConfig, ite_error_eq_ok]

end Timeouts

/-! ## Options -/

/-- A total timeout that is given may be `none`, which turns the client's own off. -/
structure RequestExecutionOverrides where
  requestTimeout : Option ℕ := none
  totalTimeout : Option (Option ℕ) := none
  retryPolicy : Option RetryPolicy := none
  maxResponseBodyBytes : Option ℕ := none
  redirectPolicy : Option RedirectPolicy := none
  statusPolicy : Option StatusPolicy := none
  autoAcceptEncoding : Option Bool := none

namespace RequestExecutionOverrides

variable (overrides : RequestExecutionOverrides) (defaults : RequestExecutionOptions)

def checkTimeouts : Except Error Unit :=
  if overrides.requestTimeout.isSome || overrides.totalTimeout.isSome then
    validateTimeoutConfig (overrides.requestTimeout.getD defaults.requestTimeout)
      (overrides.totalTimeout.getD defaults.totalTimeout) none
  else .ok ()

def checkRetryPolicy : Except Error RetryPolicy :=
  match overrides.retryPolicy with
  | some policy => do
    policy.validate
    return policy
  | none => .ok defaults.retryPolicy

def resolve : Except Error RequestExecutionOptions := do
  overrides.checkTimeouts defaults
  let retryPolicy ← overrides.checkRetryPolicy defaults
  return {
    requestTimeout := overrides.requestTimeout.getD defaults.requestTimeout
    totalTimeout := overrides.totalTimeout.getD defaults.totalTimeout
    retryPolicy
    maxResponseBodyBytes := overrides.maxResponseBodyBytes.getD defaults.maxResponseBodyBytes
    redirectPolicy := overrides.redirectPolicy.getD defaults.redirectPolicy
    statusPolicy := overrides.statusPolicy.getD defaults.statusPolicy }

end RequestExecutionOverrides

/-- Options that passed the checks of a builder or of a request. -/
structure RequestExecutionOptions.Valid (options : RequestExecutionOptions) : Prop where
  requestTimeout : options.requestTimeout ≠ 0
  totalTimeout : options.totalTimeout ≠ some 0
  retryPolicy : options.retryPolicy.validate = .ok ()

/-- What a request overrides replaces the client's setting, everything else is inherited. -/
structure RequestExecutionOptions.Inherits (options : RequestExecutionOptions)
    (overrides : RequestExecutionOverrides) (defaults : RequestExecutionOptions) : Prop where
  requestTimeout : options.requestTimeout =
    overrides.requestTimeout.getD defaults.requestTimeout
  totalTimeout : options.totalTimeout = overrides.totalTimeout.getD defaults.totalTimeout
  retryPolicy : options.retryPolicy = overrides.retryPolicy.getD defaults.retryPolicy
  maxResponseBodyBytes : options.maxResponseBodyBytes =
    overrides.maxResponseBodyBytes.getD defaults.maxResponseBodyBytes
  redirectPolicy : options.redirectPolicy =
    overrides.redirectPolicy.getD defaults.redirectPolicy
  statusPolicy : options.statusPolicy = overrides.statusPolicy.getD defaults.statusPolicy

section Resolve

variable {overrides : RequestExecutionOverrides} {defaults options : RequestExecutionOptions}

theorem valid_of_checkRetryPolicy {policy : RetryPolicy} (hdefaults : defaults.Valid)
    (h : overrides.checkRetryPolicy defaults = .ok policy) :
    policy = overrides.retryPolicy.getD defaults.retryPolicy ∧ policy.validate = .ok () := by
  unfold RequestExecutionOverrides.checkRetryPolicy at h
  split at h
  next given hgiven =>
    obtain ⟨⟨⟩, hvalid, h⟩ := Checks.bind_eq_ok.mp h
    obtain rfl := Except.ok.inj h
    exact ⟨by rw [hgiven, Option.getD_some], hvalid⟩
  next hnone =>
    obtain rfl := Except.ok.inj h
    exact ⟨by rw [hnone, Option.getD_none], hdefaults.retryPolicy⟩

theorem timeouts_of_checkTimeouts (hdefaults : defaults.Valid)
    (h : overrides.checkTimeouts defaults = .ok ()) :
    overrides.requestTimeout.getD defaults.requestTimeout ≠ 0 ∧
      overrides.totalTimeout.getD defaults.totalTimeout ≠ some 0 := by
  unfold RequestExecutionOverrides.checkTimeouts at h
  split at h
  next =>
    obtain ⟨hrequest, htotal, -⟩ := validateTimeoutConfig_eq_ok_iff.mp h
    exact ⟨hrequest, htotal⟩
  next hnone =>
    simp only [Bool.or_eq_true, Option.isSome_iff_ne_none, not_or, not_not] at hnone
    rw [hnone.1, hnone.2, Option.getD_none, Option.getD_none]
    exact ⟨hdefaults.requestTimeout, hdefaults.totalTimeout⟩

theorem resolve_sound (hdefaults : defaults.Valid) (h : overrides.resolve defaults = .ok options) :
    options.Valid ∧ options.Inherits overrides defaults := by
  obtain ⟨⟨⟩, htimeouts, h⟩ := Checks.bind_eq_ok.mp h
  obtain ⟨policy, hpolicy, h⟩ := Checks.bind_eq_ok.mp h
  obtain rfl := Except.ok.inj h
  obtain ⟨hrequest, htotal⟩ := timeouts_of_checkTimeouts hdefaults htimeouts
  obtain ⟨hsame, hvalid⟩ := valid_of_checkRetryPolicy hdefaults hpolicy
  exact ⟨⟨hrequest, htotal, hvalid⟩, rfl, rfl, hsame, rfl, rfl, rfl⟩

end Resolve

/-! ## Headers -/

def mergeHeaders (defaultHeaders requestHeaders : HeaderMap) : HeaderMap :=
  defaultHeaders.extend requestHeaders

def enabledAcceptEncoding (codecs : Codecs) : Option String :=
  match codecs.compressionGzip, codecs.compressionBrotli, codecs.compressionZstd with
  | true, true, true => some "gzip, br, deflate, zstd"
  | true, true, false => some "gzip, br, deflate"
  | true, false, true => some "gzip, deflate, zstd"
  | true, false, false => some "gzip, deflate"
  | false, true, true => some "br, zstd"
  | false, true, false => some "br"
  | false, false, true => some "zstd"
  | false, false, false => none

def ensureAcceptEncoding (codecs : Codecs) (method : Method) (headers : HeaderMap) : HeaderMap :=
  if method = .head || headers.containsKey .acceptEncoding || headers.containsKey .range then
    headers
  else
    match enabledAcceptEncoding codecs with
    | some value => headers.insert .acceptEncoding (.ofString value)
    | none => headers

/-! ## The base URL -/

/-- A selector may keep a state of its own; this is what it answers for one request. -/
abbrev EndpointSelector := Method → Text → Text → Except Error Text

def selectBaseUrl (deps : Dependencies) (endpointSelector : Option EndpointSelector)
    (method : Method) (path configuredBaseUrl : Text) : Except Error Text :=
  match endpointSelector with
  | none => .ok configuredBaseUrl
  | some selector => do
    let selected ← selector method path configuredBaseUrl
    validateBaseUrl deps selected
    return selected

theorem validateBaseUrl_of_selectBaseUrl {deps : Dependencies}
    {endpointSelector : Option EndpointSelector} {method : Method}
    {path configuredBaseUrl baseUrl : Text}
    (hconfigured : validateBaseUrl deps configuredBaseUrl = .ok ())
    (h : selectBaseUrl deps endpointSelector method path configuredBaseUrl = .ok baseUrl) :
    validateBaseUrl deps baseUrl = .ok () := by
  cases endpointSelector with
  | none =>
    obtain rfl := Except.ok.inj h
    exact hconfigured
  | some selector =>
    obtain ⟨selected, -, h⟩ := Checks.bind_eq_ok.mp h
    obtain ⟨⟨⟩, hvalid, h⟩ := Checks.bind_eq_ok.mp h
    obtain rfl := Except.ok.inj h
    exact hvalid

/-! ## The whole request -/

structure RequestExecutionPreparation (σ : Type) where
  endpointSelector : Option EndpointSelector
  configuredBaseUrl : Text
  method : Method
  path : Text
  defaultHeaders : HeaderMap
  headers : HeaderMap
  body : Option (RequestBody σ)
  executionOptions : RequestExecutionOverrides
  defaults : RequestExecutionOptions
  defaultAutoAcceptEncoding : Bool

namespace RequestExecutionPreparation

variable {σ : Type} (deps : Dependencies) (codecs : Codecs) (p : RequestExecutionPreparation σ)

def autoAcceptEncoding : Bool :=
  p.executionOptions.autoAcceptEncoding.getD p.defaultAutoAcceptEncoding

def withoutInheritedLength : HeaderMap :=
  let merged := mergeHeaders p.defaultHeaders p.headers
  if p.headers.containsKey .contentLength then merged else merged.remove .contentLength

def mergedHeaders : HeaderMap :=
  if p.autoAcceptEncoding then ensureAcceptEncoding codecs p.method p.withoutInheritedLength
  else p.withoutInheritedLength

def prepareRetryRequestInput : Except Error (RetryRequestInput σ) := do
  let baseUrl ← selectBaseUrl deps p.endpointSelector p.method p.path p.configuredBaseUrl
  let (uriText, uri) ← resolveUri deps baseUrl p.path
  let executionOptions ← p.executionOptions.resolve p.defaults
  return {
    method := p.method
    uri
    redactedUriText := redactUriForLogs deps uriText
    mergedHeaders := p.mergedHeaders codecs
    body := p.body.getD .default
    executionOptions }

/-! ## Which headers a request is sent with -/

theorem getAll_withoutInheritedLength (name : HeaderName) :
    p.withoutInheritedLength.getAll name =
      if p.headers.containsKey name || name = .contentLength then p.headers.getAll name
      else p.defaultHeaders.getAll name := by
  unfold withoutInheritedLength mergeHeaders
  by_cases hlength : p.headers.containsKey .contentLength
  · rw [if_pos hlength, MultiMap.getAll_extend]
    by_cases hname : name = .contentLength
    · simp [hname, hlength]
    · simp [hname]
  · rw [if_neg hlength, MultiMap.getAll_remove, MultiMap.getAll_extend]
    by_cases hname : name = .contentLength
    · have hnone : p.headers.getAll .contentLength = [] :=
        MultiMap.getAll_eq_nil_iff.mpr (by simpa using hlength)
      simp [hname, hnone]
    · simp [hname]

/-- Whether the client adds its own `Accept-Encoding`. -/
def negotiates : Bool :=
  p.autoAcceptEncoding && p.method ≠ .head &&
    !p.headers.containsKey .acceptEncoding && !p.defaultHeaders.containsKey .acceptEncoding &&
    !p.headers.containsKey .range && !p.defaultHeaders.containsKey .range

theorem containsKey_withoutInheritedLength {name : HeaderName} (hname : name ≠ .contentLength) :
    p.withoutInheritedLength.containsKey name =
      (p.headers.containsKey name || p.defaultHeaders.containsKey name) := by
  have hall := getAll_withoutInheritedLength p name
  rw [Bool.eq_iff_iff, ← not_iff_not, Bool.not_eq_true, ← MultiMap.getAll_eq_nil_iff, hall]
  cases hrequest : p.headers.containsKey name with
  | true => simp [MultiMap.getAll_eq_nil_iff, hrequest]
  | false => simp [hname, MultiMap.getAll_eq_nil_iff]

theorem getAll_mergedHeaders (name : HeaderName) :
    (p.mergedHeaders codecs).getAll name =
      if p.negotiates && name = .acceptEncoding then
        ((enabledAcceptEncoding codecs).map HeaderValue.ofString).toList
      else if p.headers.containsKey name || name = .contentLength then p.headers.getAll name
      else p.defaultHeaders.getAll name := by
  have haccept := containsKey_withoutInheritedLength p
    (show HeaderName.acceptEncoding ≠ .contentLength by decide)
  have hrange := containsKey_withoutInheritedLength p
    (show HeaderName.range ≠ .contentLength by decide)
  have hskips : (p.autoAcceptEncoding && !(decide (p.method = .head) ||
      p.withoutInheritedLength.containsKey .acceptEncoding ||
      p.withoutInheritedLength.containsKey .range)) = p.negotiates := by
    rw [haccept, hrange, negotiates]
    simp [Bool.and_assoc]
  rw [← getAll_withoutInheritedLength, ← hskips, mergedHeaders, ensureAcceptEncoding]
  clear hskips haccept hrange
  generalize p.withoutInheritedLength = merged
  generalize hskips : (decide (p.method = .head) || merged.containsKey .acceptEncoding ||
    merged.containsKey .range) = skips
  cases p.autoAcceptEncoding <;> cases skips
  · simp
  · simp
  · cases henabled : enabledAcceptEncoding codecs with
    | none =>
      have hnone : merged.getAll .acceptEncoding = [] := by
        simp only [Bool.or_eq_false_iff] at hskips
        exact MultiMap.getAll_eq_nil_iff.mpr hskips.1.2
      by_cases hname : name = .acceptEncoding
      · simp [hname, hnone]
      · simp [hname]
    | some value =>
      by_cases hname : name = .acceptEncoding
      · simp [hname, MultiMap.getAll_insert_self]
      · simp [hname, MultiMap.getAll_insert_of_ne]
  · simp

end RequestExecutionPreparation

end Reqx
