import Mathlib.Data.Rat.Defs
import Reqx.Core.Http

/-!
# Errors

The failures of the client, with the data the source puts in them. A `source`
is the chain of display texts of a foreign error.
-/

namespace Reqx

inductive TransportErrorKind where
  | dns | connect | tls | read | other
  deriving DecidableEq, Ord, Repr

inductive TimeoutPhase where
  | transport | responseBody
  deriving DecidableEq, Ord, Repr

inductive IoErrorKind where
  | interrupted | unexpectedEof | timedOut | wouldBlock | other
  deriving DecidableEq, Repr

/-- `wrapsTimeout` says that the error wraps a timeout of the blocking transport. -/
structure IoError where
  kind : IoErrorKind
  message : String
  wrapsTimeout : Bool := false
  deriving DecidableEq

inductive ErrorCode where
  | invalidUri | invalidEndpointConfig | invalidNoProxyRule | invalidDnsOverrideConfig
  | invalidProxyConfig | invalidTimeoutConfig | invalidClientNameConfig
  | invalidConcurrencyLimitConfig | invalidRetryPolicy | invalidRetryBudgetPolicy
  | invalidAdaptiveConcurrencyPolicy | invalidCircuitBreakerPolicy | invalidRateLimitPolicy
  | serializeJson | serializeQuery | serializeForm | requestBuild | transport | timeout
  | deadlineExceeded | readBody | writeBody | responseBodyTooLarge | httpStatus
  | deserializeJson | decodeText | invalidHeaderName | invalidHeaderValue
  | decodeContentEncoding | concurrencyLimitClosed | tlsBackendUnavailable | tlsBackendInit
  | tlsConfig | retryBudgetExhausted | circuitOpen | missingRedirectLocation
  | invalidRedirectLocation | redirectLimitExceeded | redirectBodyNotReplayable
  | featureUnavailable
  deriving DecidableEq, Ord, Repr

inductive Error where
  | invalidUri (uri : Text)
  | invalidEndpointConfig (message : String)
  | invalidNoProxyRule (rule : Text)
  | invalidDnsOverrideConfig (message : String)
  | invalidProxyConfig (proxyUri : Text) (message : String)
  | proxyAuthorizationRequiresHttpProxy
  | invalidTimeoutConfig (requestTimeoutMs : ℕ) (totalTimeoutMs connectTimeoutMs : Option ℕ)
      (message : String)
  | invalidClientNameConfig (clientNameLen : ℕ) (message : String)
  | invalidConcurrencyLimitConfig (maxInFlight maxInFlightPerHost : Option ℕ)
      (message : String)
  | invalidRetryPolicy (maxAttempts baseBackoffMs maxBackoffMs : ℕ) (jitterRatio : ℚ)
      (message : String)
  | invalidRetryBudgetPolicy (windowMs : ℕ) (retryRatio : ℚ) (minRetriesPerWindow : ℕ)
      (message : String)
  | invalidAdaptiveConcurrencyPolicy (minLimit initialLimit maxLimit : ℕ) (message : String)
  | invalidCircuitBreakerPolicy (failureThreshold openTimeoutMs halfOpenMaxRequests
      halfOpenSuccessThreshold : ℕ) (message : String)
  | invalidRateLimitPolicy (requestsPerSecond : ℚ) (burst : ℕ) (message : String)
  | serializeJson (source : List Text)
  | serializeQuery (source : List Text)
  | serializeForm (source : List Text)
  | requestBuild (source : List Text)
  | invalidRequestFraming (method : Method) (uri : Text) (message : String)
  | transport (kind : TransportErrorKind) (method : Method) (uri : Text) (source : List Text)
  | timeout (phase : TimeoutPhase) (timeoutMs : ℕ) (method : Method) (uri : Text)
  | deadlineExceeded (timeoutMs : ℕ) (method : Method) (uri : Text)
  | readBody (source : List Text)
  | writeBody (method : Method) (uri : Text) (source : List Text)
  | responseBodyTooLarge (limitBytes actualBytes : ℕ) (method : Method) (uri : Text)
  | httpStatus (status : ℕ) (method : Method) (uri : Text) (headers : HeaderMap) (body : Text)
  | deserializeJson (source : List Text) (body : Text)
  | decodeText (source : List Text) (body : Text)
  | invalidHeaderName (name : Text) (source : List Text)
  | invalidHeaderValue (name : Text) (source : List Text)
  | decodeContentEncoding (encoding message : Text) (method : Method) (uri : Text)
  | concurrencyLimitClosed
  | featureUnavailable (feature capability : String)
  | tlsBackendUnavailable (backend : String)
  | tlsBackendInit (backend : String) (message : Text)
  | tlsConfig (backend : String) (message : Text)
  | retryBudgetExhausted (method : Method) (uri : Text)
  | circuitOpen (method : Method) (uri : Text) (retryAfterMs : ℕ)
  | missingRedirectLocation (status : ℕ) (method : Method) (uri : Text)
  | invalidRedirectLocation (location : Text) (method : Method) (uri : Text)
  | redirectLimitExceeded (maxRedirects : ℕ) (method : Method) (uri : Text)
  | redirectBodyNotReplayable (method : Method) (uri : Text)
  deriving DecidableEq

def Error.code : Error → ErrorCode
  | .invalidUri .. => .invalidUri
  | .invalidEndpointConfig .. => .invalidEndpointConfig
  | .invalidNoProxyRule .. => .invalidNoProxyRule
  | .invalidDnsOverrideConfig .. => .invalidDnsOverrideConfig
  | .invalidProxyConfig .. | .proxyAuthorizationRequiresHttpProxy => .invalidProxyConfig
  | .invalidTimeoutConfig .. => .invalidTimeoutConfig
  | .invalidClientNameConfig .. => .invalidClientNameConfig
  | .invalidConcurrencyLimitConfig .. => .invalidConcurrencyLimitConfig
  | .invalidRetryPolicy .. => .invalidRetryPolicy
  | .invalidRetryBudgetPolicy .. => .invalidRetryBudgetPolicy
  | .invalidAdaptiveConcurrencyPolicy .. => .invalidAdaptiveConcurrencyPolicy
  | .invalidCircuitBreakerPolicy .. => .invalidCircuitBreakerPolicy
  | .invalidRateLimitPolicy .. => .invalidRateLimitPolicy
  | .serializeJson .. => .serializeJson
  | .serializeQuery .. => .serializeQuery
  | .serializeForm .. => .serializeForm
  | .requestBuild .. | .invalidRequestFraming .. => .requestBuild
  | .transport .. => .transport
  | .timeout .. => .timeout
  | .deadlineExceeded .. => .deadlineExceeded
  | .readBody .. => .readBody
  | .writeBody .. => .writeBody
  | .responseBodyTooLarge .. => .responseBodyTooLarge
  | .httpStatus .. => .httpStatus
  | .deserializeJson .. => .deserializeJson
  | .decodeText .. => .decodeText
  | .invalidHeaderName .. => .invalidHeaderName
  | .invalidHeaderValue .. => .invalidHeaderValue
  | .decodeContentEncoding .. => .decodeContentEncoding
  | .concurrencyLimitClosed => .concurrencyLimitClosed
  | .featureUnavailable .. => .featureUnavailable
  | .tlsBackendUnavailable .. => .tlsBackendUnavailable
  | .tlsBackendInit .. => .tlsBackendInit
  | .tlsConfig .. => .tlsConfig
  | .retryBudgetExhausted .. => .retryBudgetExhausted
  | .circuitOpen .. => .circuitOpen
  | .missingRedirectLocation .. => .missingRedirectLocation
  | .invalidRedirectLocation .. => .invalidRedirectLocation
  | .redirectLimitExceeded .. => .redirectLimitExceeded
  | .redirectBodyNotReplayable .. => .redirectBodyNotReplayable

instance decidableEqExcept {ε α : Type*} [DecidableEq ε] [DecidableEq α] :
    DecidableEq (Except ε α)
  | .ok a, .ok b => decidable_of_iff (a = b) (by simp)
  | .error e, .error f => decidable_of_iff (e = f) (by simp)
  | .ok _, .error _ => isFalse (by simp)
  | .error _, .ok _ => isFalse (by simp)

/-- A chain of checks succeeds when every one of them does. -/
theorem ite_error_eq_ok {ε α : Type*} {c : Prop} [Decidable c] {e : ε} {x : Except ε α} {a : α} :
    (if c then .error e else x) = .ok a ↔ ¬ c ∧ x = .ok a := by
  by_cases h : c <;> simp [h]

end Reqx
