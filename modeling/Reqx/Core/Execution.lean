import Reqx.Library.Logged
import Reqx.Core.Headers
import Reqx.Core.Redaction
import Reqx.Core.Redirect
import Reqx.Core.Retry

/-!
# The state of one request

What both send loops share: the counters, the current target with its headers,
the question whether the body can be sent again, and the decisions taken on
them after a response or a failure.
-/

namespace Reqx

/-! ## Bodies and policies -/

inductive RequestBody (σ : Type) where
  | buffered (body : Bytes)
  | streaming (stream : σ)
  deriving DecidableEq

namespace RequestBody

variable {σ : Type}

def default : RequestBody σ := .buffered []

def isReplayable : RequestBody σ → Bool
  | .buffered _ => true
  | .streaming _ => false

def knownLength : RequestBody σ → Option ℕ
  | .buffered body => some body.length
  | .streaming _ => none

/-- The body for the transport, and the body that stays behind. -/
def takeForAttempt : RequestBody σ → RequestBody σ × RequestBody σ
  | .buffered body => (.buffered body, .buffered body)
  | .streaming stream => (.streaming stream, .default)

@[simp] theorem takeForAttempt_fst (body : RequestBody σ) : body.takeForAttempt.1 = body := by
  cases body <;> rfl

theorem takeForAttempt_snd_of_isReplayable {body : RequestBody σ} (h : body.isReplayable = true) :
    body.takeForAttempt.2 = body := by
  cases body with
  | buffered bytes => rfl
  | streaming stream => cases h

end RequestBody

structure RedirectPolicy where
  maxRedirects : ℕ
  fits : maxRedirects ≤ usizeMax

namespace RedirectPolicy

def none : RedirectPolicy := ⟨0, Nat.zero_le _⟩

def follow : RedirectPolicy := ⟨10, by decide⟩

def enabled (p : RedirectPolicy) : Bool := 0 < p.maxRedirects

end RedirectPolicy

inductive StatusPolicy where
  | error | response
  deriving DecidableEq, Repr

structure RequestContext where
  method : Method
  uri : Text
  attempt : ℕ
  maxAttempts : ℕ
  redirectCount : ℕ
  deriving DecidableEq

structure RequestExecutionOptions where
  requestTimeout : ℕ
  totalTimeout : Option ℕ
  retryPolicy : RetryPolicy
  maxResponseBodyBytes : ℕ
  redirectPolicy : RedirectPolicy
  statusPolicy : StatusPolicy

structure RetryRequestInput (σ : Type) where
  method : Method
  uri : Uri
  redactedUriText : Text
  mergedHeaders : HeaderMap
  body : RequestBody σ
  executionOptions : RequestExecutionOptions

inductive ResponseMode where
  | buffered | stream
  deriving DecidableEq, Repr

/-! ## Decisions -/

structure RetryPlan where
  decision : RetryDecision
  delay : ℕ

inductive AttemptDisposition where
  | failure | cancel
  deriving DecidableEq, Repr

inductive TransportFailurePlan where
  | retry (plan : RetryPlan)
  | terminal (disposition : AttemptDisposition)

inductive RetrySchedule where
  | notScheduled
  | scheduled (delay : ℕ)
  deriving DecidableEq, Repr

inductive BodyReadFailure where
  | terminal (error : Error)
  | retryable (error : Error) (plan : RetryPlan)

structure RedirectAction where
  nextMethod : Method
  nextUri : Uri
  nextRedactedUri : Text
  dropsBody : Bool
  sameOriginRedirect : Bool
  deriving DecidableEq

structure StreamTiming where
  totalTimeoutMs : Option ℕ
  deadlineAt : Option ℕ
  deriving DecidableEq

def retryBackoff (policy : RetryPolicy) (source : Option BackoffSource) (attempt draw : ℕ) : ℕ :=
  match source with
  | some backoffForRetry => backoffForRetry policy attempt
  | none => policy.backoffForRetry attempt draw

def statusRetryDelay (deps : Dependencies) (systemNow : ℕ) (headers : HeaderMap)
    (fallback maxDelay : ℕ) : ℕ :=
  let retryAfterCap := if maxDelay = 0 then fromMillis 1 else maxDelay
  (parseRetryAfterCapped deps headers systemNow retryAfterCap).getD (min fallback retryAfterCap)

def serverThrottleDelay (deps : Dependencies) (systemNow : ℕ) (headers : HeaderMap) (fallback : ℕ) :
    ℕ :=
  (parseRetryAfter deps headers systemNow).getD fallback

def httpStatusError (status : StatusCode) (method : Method) (redactedUri : Text)
    (headers : HeaderMap) (body : Text) : Error :=
  .httpStatus status.code method redactedUri headers body

def redirectDropsBody (currentMethod : Method) (status : StatusCode) : Bool :=
  status = .seeOther ∨
    ((status = .movedPermanently ∨ status = .found) ∧ currentMethod = .post)

/-! ## The execution state -/

structure RequestExecutionState where
  options : RequestExecutionOptions
  requestStartedAt : ℕ
  attempt : ℕ
  maxAttempts : ℕ
  redirectCount : ℕ
  currentMethod : Method
  currentUri : Uri
  currentRedactedUri : Text
  currentHeaders : HeaderMap
  bodyReplayable : Bool

namespace RequestExecutionState

def fromRequest {σ : Type} (input : RetryRequestInput σ) (requestStartedAt : ℕ)
    (supportsRetry : RetryEligibility) : RequestExecutionState × RequestBody σ :=
  ({ options := input.executionOptions
     requestStartedAt
     attempt := 1
     maxAttempts :=
       if supportsRetry input.method input.mergedHeaders && input.body.isReplayable then
         input.executionOptions.retryPolicy.maxAttempts
       else 1
     redirectCount := 0
     currentMethod := input.method
     currentUri := input.uri
     currentRedactedUri := input.redactedUriText
     currentHeaders := input.mergedHeaders
     bodyReplayable := input.body.isReplayable }, input.body)

variable (s : RequestExecutionState)

def canAttempt : Bool := s.attempt ≤ s.maxAttempts

def tightenRetryEligibility (attemptHeaders : HeaderMap) (supportsRetry : RetryEligibility) :
    RequestExecutionState :=
  if s.maxAttempts > s.attempt ∧
      (s.bodyReplayable = false ∨ supportsRetry s.currentMethod attemptHeaders = false) then
    { s with maxAttempts := s.attempt }
  else s

def context : RequestContext :=
  ⟨s.currentMethod, s.currentRedactedUri, s.attempt, s.maxAttempts, s.redirectCount⟩

def streamTiming (instantMax : ℕ) : StreamTiming :=
  ⟨s.options.totalTimeout.map durationMillisCeil,
    totalTimeoutDeadline instantMax s.options.totalTimeout s.requestStartedAt⟩

def rateLimitHost : Option Text := rateLimitBucketKey s.currentUri

def phaseTimeout (now : ℕ) : Option ℕ :=
  Reqx.phaseTimeout s.options.requestTimeout s.options.totalTimeout s.requestStartedAt now

def deadlineError : Error :=
  deadlineExceededError s.options.totalTimeout s.currentMethod s.currentRedactedUri

def timeoutExpired (now : ℕ) : Bool :=
  totalTimeoutExpired s.options.totalTimeout s.requestStartedAt now

def transportTimeoutError (timeoutMs now : ℕ) : Error :=
  if s.timeoutExpired now then s.deadlineError
  else .timeout .transport timeoutMs s.currentMethod s.currentRedactedUri

def retryBackoff (backoffSource : Option BackoffSource) (draw : ℕ) : ℕ :=
  Reqx.retryBackoff s.options.retryPolicy backoffSource s.attempt draw

def retryDecision (reason : RetryReason) : RetryDecision :=
  ⟨s.attempt, s.maxAttempts, s.currentMethod, s.currentRedactedUri, reason⟩

def statusRetryPlan (deps : Dependencies) (status : StatusCode) (headers : HeaderMap)
    (systemNow : ℕ) (backoffSource : Option BackoffSource) (draw : ℕ) : RetryPlan :=
  ⟨s.retryDecision (.status status),
    statusRetryDelay deps systemNow headers (s.retryBackoff backoffSource draw)
      s.options.retryPolicy.maxBackoff⟩

def transportRetryDecisionFromError : Error → Option RetryDecision
  | .transport kind .. => some (s.retryDecision (.transport kind))
  | .timeout phase .. => some (s.retryDecision (.timeout phase))
  | _ => none

def transportFailurePlan (error : Error) (backoffSource : Option BackoffSource) (draw : ℕ) :
    TransportFailurePlan :=
  match s.transportRetryDecisionFromError error with
  | some decision => .retry ⟨decision, s.retryBackoff backoffSource draw⟩
  | none =>
    match error with
    | .deadlineExceeded .. => .terminal .failure
    | _ => .terminal .cancel

/-- `BodyReadDeadline::error_if_elapsed`. -/
def errorIfElapsed (now : ℕ) : Option Error :=
  if s.timeoutExpired now then some s.deadlineError else none

def responseBodyTooLargeError (actualBytes : ℕ) : Error :=
  .responseBodyTooLarge s.options.maxResponseBodyBytes actualBytes s.currentMethod
    s.currentRedactedUri

def responseBodyReadFailure (source : List Text) (backoffSource : Option BackoffSource) (draw : ℕ) :
    BodyReadFailure :=
  .retryable (.readBody source)
    ⟨s.retryDecision .responseBodyRead, s.retryBackoff backoffSource draw⟩

def responseBodyTimeoutFailure (readTimeout now : ℕ) (backoffSource : Option BackoffSource)
    (draw : ℕ) : BodyReadFailure :=
  if s.timeoutExpired now then .terminal s.deadlineError
  else
    .retryable
      (.timeout .responseBody (durationMillisCeil readTimeout) s.currentMethod
        s.currentRedactedUri)
      ⟨s.retryDecision (.timeout .responseBody), s.retryBackoff backoffSource draw⟩

def shouldReturnNonSuccessResponse : Bool := s.options.statusPolicy = .response

/-- `RetryAttemptState::prepare_retry_schedule`, with the state it leaves. The budget is asked
only after the decision and the deadline have allowed the retry. -/
def prepareRetrySchedule {ε : Type} (decision : RetryDecision) (requestedDelay now : ℕ)
    (consumeRetryBudget : Method → Text → Logged ε (Except Error Unit)) :
    Logged ε (Except Error RetrySchedule × RequestExecutionState) :=
  if s.attempt ≥ s.maxAttempts || !s.options.retryPolicy.shouldRetryDecision decision then
    return (.ok .notScheduled, s)
  else
    match boundedRetryDelay requestedDelay s.options.totalTimeout s.requestStartedAt now with
    | none => return (.error s.deadlineError, s)
    | some delay => do
      match ← consumeRetryBudget s.currentMethod s.currentRedactedUri with
      | .error error => return (.error error, s)
      | .ok () => return (.ok (.scheduled delay), { s with attempt := s.attempt + 1 })

def nextRedirectAction (deps : Dependencies) (status : StatusCode) (responseHeaders : HeaderMap) :
    Except Error (Option RedirectAction) :=
  if !s.options.redirectPolicy.enabled || !isRedirectStatus status then .ok none
  else if s.redirectCount ≥ s.options.redirectPolicy.maxRedirects then
    .error (.redirectLimitExceeded s.options.redirectPolicy.maxRedirects s.currentMethod
      s.currentRedactedUri)
  else
    let dropsBody := redirectDropsBody s.currentMethod status
    if !s.bodyReplayable && !dropsBody then
      .error (.redirectBodyNotReplayable s.currentMethod s.currentRedactedUri)
    else
      match redirectLocation responseHeaders with
      | none =>
        .error (.missingRedirectLocation status.code s.currentMethod s.currentRedactedUri)
      | some location =>
        match resolveRedirectUri deps s.currentUri location with
        | none =>
          .error (.invalidRedirectLocation (redactUriForLogs deps location) s.currentMethod
            s.currentRedactedUri)
        | some nextUri =>
          .ok (some
            { nextMethod := redirectMethod s.currentMethod status
              nextUri
              nextRedactedUri := redactUriForLogs deps nextUri.text
              dropsBody
              sameOriginRedirect := sameOrigin s.currentUri nextUri })

def applyRedirect (deps : Dependencies) (action : RedirectAction)
    (supportsRetry : RetryEligibility) : RequestExecutionState × Bool :=
  let headers := sanitizeHeadersForRedirect deps s.currentHeaders action.dropsBody
    action.sameOriginRedirect
  let bodyReplayable := action.dropsBody || s.bodyReplayable
  ({ s with
      currentHeaders := headers
      currentMethod := action.nextMethod
      currentUri := action.nextUri
      currentRedactedUri := action.nextRedactedUri
      redirectCount := saturatingAdd s.redirectCount 1
      bodyReplayable
      maxAttempts :=
        if s.maxAttempts = 1 ∧ bodyReplayable ∧ supportsRetry action.nextMethod headers then
          s.options.retryPolicy.maxAttempts
        else s.maxAttempts },
    action.dropsBody)

/-! ## What the operations keep -/

variable {s}

/-- Tightening only lowers the limit, and room that is left afterwards was left for a reason. -/
theorem tightenRetryEligibility_cases (attemptHeaders : HeaderMap)
    (supportsRetry : RetryEligibility) :
    ∃ limit, s.tightenRetryEligibility attemptHeaders supportsRetry =
        { s with maxAttempts := limit } ∧
      limit ≤ s.maxAttempts ∧ (s.attempt ≤ s.maxAttempts → s.attempt ≤ limit) ∧
        (s.attempt < limit → s.bodyReplayable = true ∧
          supportsRetry s.currentMethod attemptHeaders = true) := by
  unfold tightenRetryEligibility
  split
  · next hcut => exact ⟨s.attempt, rfl, hcut.1.le, fun _ ↦ le_rfl, fun h ↦ absurd h (lt_irrefl _)⟩
  · next hkeep =>
      refine ⟨s.maxAttempts, rfl, le_rfl, id, ?_⟩
      intro hlt
      simp only [not_and, not_or, Bool.not_eq_false] at hkeep
      exact hkeep hlt

theorem nextRedirectAction_target {deps : Dependencies} {status : StatusCode}
    {responseHeaders : HeaderMap} {action : RedirectAction}
    (h : s.nextRedirectAction deps status responseHeaders = .ok (some action)) :
    (∃ location, resolveRedirectUri deps s.currentUri location = some action.nextUri) ∧
      action.nextRedactedUri = redactUriForLogs deps action.nextUri.text := by
  unfold nextRedirectAction at h
  split at h
  · cases h
  split at h
  · cases h
  dsimp only at h
  split at h
  · cases h
  split at h
  · cases h
  next location hlocation =>
    split at h
    · cases h
    next nextUri hresolved =>
      obtain rfl := Option.some.inj (Except.ok.inj h)
      exact ⟨⟨location, hresolved⟩, rfl⟩

theorem nextRedirectAction_eq_some {deps : Dependencies} {status : StatusCode}
    {responseHeaders : HeaderMap} {action : RedirectAction}
    (h : s.nextRedirectAction deps status responseHeaders = .ok (some action)) :
    s.redirectCount < s.options.redirectPolicy.maxRedirects ∧
      (s.bodyReplayable = true ∨ action.dropsBody = true) ∧
        action.sameOriginRedirect = sameOrigin s.currentUri action.nextUri := by
  unfold nextRedirectAction at h
  split at h
  · cases h
  split at h
  · cases h
  next hcount =>
    dsimp only at h
    split at h
    · cases h
    next hbody =>
      split at h
      · cases h
      split at h
      · cases h
      obtain rfl := Option.some.inj (Except.ok.inj h)
      refine ⟨not_le.mp hcount, ?_, rfl⟩
      cases hreplayable : s.bodyReplayable with
      | true => exact .inl rfl
      | false => exact .inr (by simpa [hreplayable] using hbody)

end RequestExecutionState

end Reqx
