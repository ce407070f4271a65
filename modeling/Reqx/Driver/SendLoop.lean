import Reqx.Library.Machine
import Reqx.Driver.Client

/-!
# The send loop

`send_request_with_retry_mode`, which both clients have in the same words up
to the calls that take the `Runtime`. One pass through the loop is `iterate`,
cut into the parts of its body; the loop is a machine whose inputs are turns
and whose outputs are the events of the passes.
-/

namespace Reqx.Driver

structure SendState (σ : Type) where
  execution : RequestExecutionState
  body : RequestBody σ

structure StreamResponse (C A : Type) where
  status : StatusCode
  headers : HeaderMap
  method : Method
  uriRaw : Text
  uriRedacted : Text
  timeoutMs : ℕ
  timing : StreamTiming
  lifecycle : StreamLifecycle C A
  deriving DecidableEq

inductive Outcome (C A : Type) where
  | failed (error : Error)
  | response (status : StatusCode) (headers : HeaderMap) (body : Bytes)
  | stream (response : StreamResponse C A)
  /-- The future was dropped while it waited. -/
  | abandoned
  deriving DecidableEq

structure Finish (C A : Type) where
  execution : RequestExecutionState
  outcome : Outcome C A

inductive Phase (σ C A : Type) where
  | running (s : SendState σ)
  | finished (f : Finish C A)

variable {σ C A : Type}

/-- The end of a pass: what is left of the guards goes out of scope. -/
def leave (attempts : AttemptGuards C A) (phase : Phase σ C A) :
    Logged (Event σ C A) (Phase σ C A) := do
  let _ ← attempts.drop
  return phase

def fail (attempts : AttemptGuards C A) (x : RequestExecutionState) (context : RequestContext)
    (error : Error) : Logged (Event σ C A) (Phase σ C A) := do
  Logged.tell [.failed context error]
  leave attempts (.finished ⟨x, .failed error⟩)

section Parts

variable (rt : Runtime) (c : Client) (mode : ResponseMode) (t : Turn C A)
  (x : RequestExecutionState) (body : RequestBody σ) (attempts : AttemptGuards C A)
  (context : RequestContext)

/-- The slot, the permit and the guards of an attempt; on failure, how the loop ends. -/
def beginAttempt : Logged (Event σ C A) (Except (Outcome C A) (AttemptGuards C A)) := do
  match ← c.acquireRateLimitSlot t x rt with
  | .error error => do
    Logged.tell [.failed context error]
    return .error (.failed error)
  | .ok granted =>
    if granted = false then
      return .error .abandoned
    if rt.abandons t .hostPermit then
      return .error .abandoned
    else
      match c.acquireHostRequestPermit t x rt with
      | .error error => do
        Logged.tell [.failed context error]
        return .error (.failed error)
      | .ok () => do
        match ← c.beginCircuitAttempt t x with
        | .error error => do
          Logged.tell [.failed context error]
          return .error (.failed error)
        | .ok circuit => do
          -- The circuit attempt is already held while the adaptive permit is awaited.
          let attempts : AttemptGuards C A := ⟨circuit, none⟩
          if rt.abandons t .adaptive then
            let _ ← attempts.drop
            return .error .abandoned
          else
            match ← c.beginAdaptiveAttempt t x rt with
            | .error error => do
              let _ ← attempts.cancel
              Logged.tell [.failed context error]
              return .error (.failed error)
            | .ok adaptive => return .ok (attempts.setAdaptive adaptive)

def followSchedule (schedule : Except Error RetrySchedule)
    (notScheduled : AttemptGuards C A → Logged (Event σ C A) (Phase σ C A)) :
    Logged (Event σ C A) (Phase σ C A) := do
  let attempts ← attempts.recordFailureForRetrySchedule schedule
  match schedule with
  | .error error => leave attempts (.finished ⟨x, .failed error⟩)
  | .ok (.scheduled delay) => do
    Client.sleep delay
    leave attempts (.running ⟨x, body⟩)
  | .ok .notScheduled => notScheduled attempts

def settleFailure (error : Error) : Logged (Event σ C A) (Phase σ C A) :=
  match x.transportFailurePlan error c.backoffSource t.retryDraw with
  | .retry plan => do
    let (schedule, x) ← c.prepareRetry t x context plan
    followSchedule x body attempts schedule fun attempts ↦ do
      let attempts ← attempts.markFailure
      fail attempts x context error
  | .terminal disposition => do
    let attempts ← AttemptDisposition.apply disposition attempts
    fail attempts x context error

def returnStream (completion : RequestCompletion) (transportTimeout : ℕ) (status : StatusCode)
    (headers : HeaderMap) : Logged (Event σ C A) (Phase σ C A) := do
  let (lifecycle, attempts) ← completion.intoStreamLifecycle attempts c.retryBudget
  leave attempts (.finished ⟨x, .stream
    { status, headers, lifecycle
      method := x.currentMethod
      uriRaw := x.currentUri.text
      uriRedacted := x.currentRedactedUri
      timeoutMs := durationMillisCeil transportTimeout
      timing := x.streamTiming c.instantMax }⟩)

def finishResponse (status : StatusCode) (headers : HeaderMap) (responseBody : Bytes) :
    Logged (Event σ C A) (Phase σ C A) :=
  if status.isSuccess then do
    let attempts ← RequestCompletion.success.recordCompleted attempts c.retryBudget
    leave attempts (.finished ⟨x, .response status headers responseBody⟩)
  else do
    let completion := RequestCompletion.fromResponseStatus x.options.retryPolicy status
    let attempts ← completion.recordCompleted attempts c.retryBudget
    if x.shouldReturnNonSuccessResponse && mode = .buffered then
      leave attempts (.finished ⟨x, .response status headers responseBody⟩)
    else
      fail attempts x context (httpStatusError status x.currentMethod x.currentRedactedUri headers
        (truncateBody responseBody))

def readBody (status : StatusCode) (headers : HeaderMap) : Logged (Event σ C A) (Phase σ C A) :=
  match x.phaseTimeout t.readAt with
  | none => do
    let attempts ← attempts.markFailure
    fail attempts x context x.deadlineError
  | some readTimeout =>
    if rt.abandons t .body then leave attempts (.finished ⟨x, .abandoned⟩)
    else do
      let (result, headers, x) ←
        c.readDecodedResponseBodyWithRetry t x rt context status headers readTimeout
      let attempts ← attempts.recordFailureOnError result
      match result with
      | .error error => leave attempts (.finished ⟨x, .failed error⟩)
      | .ok (.retry delay) => do
        let attempts ← attempts.markFailure
        Client.sleep delay
        leave attempts (.running ⟨x, body⟩)
      | .ok (.body responseBody) =>
        finishResponse c mode x attempts context status headers responseBody

def settleNonSuccess (transportTimeout : ℕ) (status : StatusCode) (headers : HeaderMap) :
    Logged (Event σ C A) (Phase σ C A) := do
  c.observeServerThrottle t context status headers x.rateLimitHost
    (x.retryBackoff c.backoffSource t.throttleDraw)
  let plan := x.statusRetryPlan c.deps status headers t.retrySystemNow c.backoffSource t.retryDraw
  let (schedule, x) ← c.prepareRetry t x context plan
  -- An attempt that is not retried stays open: the end of the response decides about it.
  followSchedule x body attempts schedule fun attempts ↦
    if mode = .stream && x.shouldReturnNonSuccessResponse then
      returnStream c x attempts
        (RequestCompletion.fromResponseStatus x.options.retryPolicy status) transportTimeout
        status headers
    else readBody rt c mode t x body attempts context status headers

def settleResponse (transportTimeout : ℕ) (status : StatusCode) (headers : HeaderMap) :
    Logged (Event σ C A) (Phase σ C A) :=
  match x.nextRedirectAction c.deps status headers with
  | .error error => do
    let attempts ← attempts.markFailure
    fail attempts x context error
  | .ok (some action) => do
    Logged.tell [.responded context status headers]
    -- A server that redirects is healthy; the budget is not credited for it.
    let attempts ← attempts.markSuccess
    let (x, dropsBody) := x.applyRedirect c.deps action c.supportsRetry
    Logged.tell [.redirected action]
    leave attempts (.running ⟨x, if dropsBody then .default else body⟩)
  | .ok none => do
    Logged.tell [.responded context status headers]
    if status.isSuccess then
      if mode = .stream then
        returnStream c x attempts .success transportTimeout status headers
      else readBody rt c mode t x body attempts context status headers
    else settleNonSuccess rt c mode t x body attempts context transportTimeout status headers

end Parts

section Loop

variable (rt : Runtime) (c : Client) (mode : ResponseMode) (t : Turn C A)

def interceptedHeaders (s : SendState σ) : HeaderMap :=
  t.interceptors s.execution.context s.execution.currentHeaders

def attemptRequest (s : SendState σ) (transportTimeout : ℕ) : SentRequest σ where
  method := s.execution.currentMethod
  uri := s.execution.currentUri
  carried := s.execution.currentHeaders
  intercepted := interceptedHeaders t s
  headers := c.finishHeaders rt s.execution.currentUri (interceptedHeaders t s)
  body := s.body.takeForAttempt.1
  timeout := transportTimeout
  sentAt := t.sendAt

def dispatch (s : SendState σ) (attempts : AttemptGuards C A) :
    Logged (Event σ C A) (Phase σ C A) :=
  let x := s.execution.tightenRetryEligibility (interceptedHeaders t s) c.supportsRetry
  let context := x.context
  match validateRequestFramingHeaders (interceptedHeaders t s) s.body.knownLength x.currentMethod
      x.currentRedactedUri with
  | .error error => do
    let attempts ← attempts.cancel
    fail attempts x context error
  | .ok () =>
    match x.phaseTimeout t.sendAt with
    | none => do
      let attempts ← attempts.cancel
      fail attempts x context x.deadlineError
    | some transportTimeout => do
      -- From here on a streaming body is gone, whatever the transport answers.
      let body := s.body.takeForAttempt.2
      let answer ← c.transmit t x rt (attemptRequest rt c t s transportTimeout)
      if rt.abandons t .transport then
        leave attempts (.finished ⟨x, .abandoned⟩)
      else
        match answer with
        | .error error => settleFailure c t x body attempts context error
        | .ok (status, headers) =>
          settleResponse rt c mode t x body attempts context transportTimeout status headers

def iterate (s : SendState σ) : Logged (Event σ C A) (Phase σ C A) := do
  Logged.tell [.requestStarted s.execution.context]
  match ← beginAttempt rt c t s.execution s.execution.context with
  | .error outcome => return .finished ⟨s.execution, outcome⟩
  | .ok attempts => dispatch rt c mode t s attempts

def afterLoop (x : RequestExecutionState) : Logged (Event σ C A) (Phase σ C A) := do
  Logged.tell [.failed x.context x.deadlineError]
  return .finished ⟨x, .failed x.deadlineError⟩

def pass (phase : Phase σ C A) : Logged (Event σ C A) (Phase σ C A) :=
  match phase with
  | .finished f => return .finished f
  | .running s =>
    if rt.abandons t .sleep then return .finished ⟨s.execution, .abandoned⟩
    else if s.execution.canAttempt then iterate rt c mode t s
    else afterLoop s.execution

end Loop

/-- `send_request_with_retry_mode` of the client with this runtime, one turn after the other. -/
def sendRequestWithRetryMode (σ C A : Type) (rt : Runtime) (c : Client) (mode : ResponseMode) :
    Machine (Turn C A) (List (Event σ C A)) (Phase σ C A) where
  step phase t :=
    let result := pass rt c mode t phase
    (result.events, result.value)

def start (c : Client) (input : RetryRequestInput σ) (requestStartedAt : ℕ) : Phase σ C A :=
  let (execution, body) := RequestExecutionState.fromRequest input requestStartedAt c.supportsRetry
  .running ⟨execution, body⟩

end Reqx.Driver
