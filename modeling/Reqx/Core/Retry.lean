import Mathlib.Data.Finset.Insert
import Mathlib.Data.Finset.Lattice.Basic
import Reqx.Core.Timing

/-!
# Retry policies

Which failures are tried again, how often, and after which delay. The jitter
ratio is an exact number and the random generator an argument `draw`.
-/

namespace Reqx

inductive RetryReason where
  | status (status : StatusCode)
  | transport (kind : TransportErrorKind)
  | timeout (phase : TimeoutPhase)
  | responseBodyRead
  deriving DecidableEq

structure RetryDecision where
  attempt : ℕ
  maxAttempts : ℕ
  method : Method
  uri : Text
  reason : RetryReason
  deriving DecidableEq

abbrev RetryEligibility := Method → HeaderMap → Bool

structure RetryPolicy where
  maxAttempts : ℕ
  baseBackoff : ℕ
  maxBackoff : ℕ
  jitterRatio : ℚ
  retryableStatusCodes : Finset ℕ
  retryableTransportErrorKinds : Finset TransportErrorKind
  retryableTimeoutPhases : Finset TimeoutPhase
  retryOnResponseBodyReadError : Bool
  statusRetryWindows : Std.TreeMap ℕ ℕ
  transportRetryWindows : Std.TreeMap TransportErrorKind ℕ
  timeoutRetryWindows : Std.TreeMap TimeoutPhase ℕ
  responseBodyReadRetryWindow : Option ℕ
  retryClassifier : Option (RetryDecision → Bool)

abbrev BackoffSource := RetryPolicy → ℕ → ℕ

/-! ## Exponential backoff -/

def u128Max : ℕ := 2 ^ 128 - 1

/-- `f64::EPSILON`. -/
def epsilon : ℚ := 1 / 2 ^ 52

/-- `f64::round` of a number that is not negative. -/
def roundHalfUp (q : ℚ) : ℕ := (q + 1 / 2).floor.toNat

def randomRange (low high draw : ℕ) : ℕ := low + draw % (high - low + 1)

def applyBackoffJitter (backoff maxBackoff : ℕ) (jitterRatio : ℚ) (draw : ℕ) : ℕ :=
  let jitterRatio := max 0 (min jitterRatio 1)
  if jitterRatio ≤ epsilon then backoff
  else if backoff ≤ 1 then backoff
  else
    let jitterSpan := max (roundHalfUp (backoff * jitterRatio)) 1
    let low := backoff - jitterSpan
    let high := max (min (backoff + jitterSpan) u128Max) low
    durationFromNanosSaturating (min (randomRange low high draw) (max maxBackoff 1))

def exponentialBackoffWithJitter (retryIndex baseBackoff maxBackoff : ℕ) (jitterRatio : ℚ)
    (draw : ℕ) : ℕ :=
  let multiplier := 2 ^ min (retryIndex - 1) 31
  let baseNanos := max baseBackoff 1
  let maxNanos := max maxBackoff baseNanos
  let delayNanos := min (min (baseNanos * multiplier) u128Max) maxNanos
  applyBackoffJitter (durationFromNanosSaturating delayNanos)
    (durationFromNanosSaturating maxNanos) jitterRatio draw

/-! ## The policy -/

def isValidRetryableStatusCode (status : ℕ) : Bool :=
  (StatusCode.fromU16 status).any fun status ↦ !status.isSuccess

namespace RetryPolicy

def standard : RetryPolicy where
  maxAttempts := 3
  baseBackoff := fromMillis 200
  maxBackoff := fromSecs 2
  jitterRatio := 1 / 5
  retryableStatusCodes := {429, 500, 502, 503, 504}
  retryableTransportErrorKinds := {.dns, .connect, .read}
  retryableTimeoutPhases := {.transport, .responseBody}
  retryOnResponseBodyReadError := true
  statusRetryWindows := ∅
  transportRetryWindows := ∅
  timeoutRetryWindows := ∅
  responseBodyReadRetryWindow := none
  retryClassifier := none

def invalidPolicy (p : RetryPolicy) (message : String) : Error :=
  .invalidRetryPolicy p.maxAttempts (durationMillisCeil p.baseBackoff)
    (durationMillisCeil p.maxBackoff) p.jitterRatio message

def validate (p : RetryPolicy) : Except Error Unit :=
  if p.maxAttempts = 0 then
    .error (p.invalidPolicy "max_attempts must be greater than zero")
  else if p.baseBackoff = 0 then
    .error (p.invalidPolicy "base_backoff must be greater than zero")
  else if p.maxBackoff = 0 then
    .error (p.invalidPolicy "max_backoff must be greater than zero")
  else if p.maxBackoff < p.baseBackoff then
    .error (p.invalidPolicy "max_backoff must be greater than or equal to base_backoff")
  else if ¬ (0 ≤ p.jitterRatio ∧ p.jitterRatio ≤ 1) then
    .error (p.invalidPolicy "jitter_ratio must be finite and between 0.0 and 1.0")
  else if ∃ status ∈ p.retryableStatusCodes, isValidRetryableStatusCode status = false then
    .error (p.invalidPolicy "retryable status codes must be valid non-success statuses")
  else if p.statusRetryWindows.keys.any fun status ↦ !isValidRetryableStatusCode status then
    .error (p.invalidPolicy "status retry windows must target valid non-success statuses")
  else if p.statusRetryWindows.values.any (· = 0) then
    .error (p.invalidPolicy "status retry windows must be greater than zero")
  else if p.transportRetryWindows.values.any (· = 0) then
    .error (p.invalidPolicy "transport retry windows must be greater than zero")
  else if p.timeoutRetryWindows.values.any (· = 0) then
    .error (p.invalidPolicy "timeout retry windows must be greater than zero")
  else if p.responseBodyReadRetryWindow = some 0 then
    .error (p.invalidPolicy "response body read retry window must be greater than zero")
  else .ok ()

def isRetryableStatus (p : RetryPolicy) (status : StatusCode) : Bool :=
  status.code ∈ p.retryableStatusCodes

def isWithinRetryWindow (limit : Option ℕ) (attempt : ℕ) : Bool :=
  match limit with
  | some limit => attempt < limit
  | none => true

def shouldRetryDecision (p : RetryPolicy) (decision : RetryDecision) : Bool :=
  match p.retryClassifier with
  | some shouldRetry => shouldRetry decision
  | none =>
    match decision.reason with
    | .status status =>
      p.isRetryableStatus status &&
        isWithinRetryWindow p.statusRetryWindows[status.code]? decision.attempt
    | .transport kind =>
      decide (kind ∈ p.retryableTransportErrorKinds) &&
        isWithinRetryWindow p.transportRetryWindows[kind]? decision.attempt
    | .timeout phase =>
      decide (phase ∈ p.retryableTimeoutPhases) &&
        isWithinRetryWindow p.timeoutRetryWindows[phase]? decision.attempt
    | .responseBodyRead =>
      p.retryOnResponseBodyReadError &&
        isWithinRetryWindow p.responseBodyReadRetryWindow decision.attempt

def backoffForRetry (p : RetryPolicy) (retryIndex draw : ℕ) : ℕ :=
  exponentialBackoffWithJitter retryIndex p.baseBackoff p.maxBackoff p.jitterRatio draw

theorem standard_validate : standard.validate = .ok () := by decide +kernel

/-- The facts about a validated policy that the send loop rests on. -/
theorem of_validate {p : RetryPolicy} (h : p.validate = .ok ()) :
    1 ≤ p.maxAttempts ∧
      ∀ status : StatusCode, p.isRetryableStatus status = true → status.isSuccess = false := by
  simp only [validate, ite_error_eq_ok] at h
  obtain ⟨hattempts, -, -, -, -, hcodes, -⟩ := h
  refine ⟨Nat.one_le_iff_ne_zero.mpr hattempts, ?_⟩
  intro status hretryable
  have hmem : status.code ∈ p.retryableStatusCodes := by
    simpa [isRetryableStatus] using hretryable
  have hvalid : isValidRetryableStatusCode status.code = true := by
    by_contra hinvalid
    exact hcodes ⟨status.code, hmem, by simpa using hinvalid⟩
  simpa [isValidRetryableStatusCode, StatusCode.fromU16, status.valid] using hvalid

end RetryPolicy

/-! ## Which requests may be sent again -/

def isMethodIdempotent (method : Method) : Bool :=
  method ∈ [.get, .head, .put, .delete, .options, .trace]

def requestSupportsRetry : RetryEligibility := fun method headers ↦
  isMethodIdempotent method || (headers.get? .idempotencyKey).isSome

def strictRetryEligibility : RetryEligibility := requestSupportsRetry

end Reqx
