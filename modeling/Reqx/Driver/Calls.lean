import Reqx.Driver.Run
import Reqx.Metrics.Ledger
import Reqx.Stream.Guarantees

/-!
# Calls of one client

`send_request` and `send_request_stream`, any number of them at the same time.
Each call waits for a permit of the client, runs its send loop with it, and
either gives it back or hands it to the stream that it returns. All calls count
in the same metrics. What a call does between two of its updates of the metrics
is one step; the steps of different calls mix in any order.
-/

namespace Reqx.Driver

open Reqx.Stream (BodyOf SourceOf World Helper Transport)

/-! ## The client -/

/-- A client whose limit, if there is one, comes with the limiters that enforce it. -/
structure LimitedClient where
  client : Client
  maxInFlight : Option ℕ
  streamDeadlineSlack : ℕ
  limiters : maxInFlight.isSome = true → client.requestLimiters = true

/-- How the wait for a permit of the client goes. -/
structure PermitWait where
  askedAt : ℕ := 0
  timedOut : Bool := false
  semaphoreClosed : Bool := false
  abandoned : Bool := false

def LimitedClient.acquireGlobalRequestPermit (k : LimitedClient) (rt : Runtime)
    (x : RequestExecutionState) (wait : PermitWait) : Except Error Unit :=
  if !k.client.requestLimiters then .ok ()
  else
    match rt, k.client.totalTimeoutDeadline x with
    | .blocking, none => .ok ()
    | .blocking, some _ => if wait.timedOut then .error x.deadlineError else .ok ()
    | .async, none => if wait.semaphoreClosed then .error .concurrencyLimitClosed else .ok ()
    | .async, some deadlineAt =>
      if wait.askedAt ≥ deadlineAt then .error x.deadlineError
      else if wait.timedOut then .error x.deadlineError
      else if wait.semaphoreClosed then .error .concurrencyLimitClosed
      else .ok ()

def responseModeMismatchError (method : Method) (redactedUri : Text) (expectedMode : String) :
    Error :=
  .transport .other method redactedUri
    [("internal response mode mismatch: expected " ++ expectedMode ++ " response variant").toList]

/-! ## Calls -/

/-- The stream of a call: its hooks are those of its last attempt. -/
abbrev CallStream (rt : Runtime) (C A : Type) : Type :=
  Stream.ResponseStream (BodyOf rt) (StreamResilienceHooks C A) Metrics.StreamCompletion

inductive CallResult where
  | response (status : StatusCode) (headers : HeaderMap) (body : Bytes)
  | failed (error : Error)
  /-- The loop has answered in the wrong mode. -/
  | mismatched (error : Error)
  | abandoned

inductive Stage (rt : Runtime) (σ C A : Type) where
  | waiting
  | sending (s : SendState σ)
  /-- A buffered call that is done, and gives its permit back when it returns. -/
  | returning (result : CallResult)
  | streaming (stream : CallStream rt C A)
  | ended (result : CallResult)

structure Call (rt : Runtime) (σ C A : Type) where
  mode : ResponseMode
  input : RetryRequestInput σ
  requestStartedAt : ℕ
  stage : Stage rt σ C A

variable {rt : Runtime} {σ C A : Type}

/-- What the transport has in store for a stream, and whether the last attempt had a permit of
its host. -/
structure Arrival (rt : Runtime) where
  source : SourceOf rt
  hostPermit : Bool

def StreamResponse.open (response : StreamResponse C A) (arrival : Arrival rt) (deadlineSlack : ℕ)
    (globalPermit : Bool) (completion : Metrics.StreamCompletion) : CallStream rt C A :=
  (Stream.ResponseStream.new response.status response.headers (BodyOf.new rt arrival.source)
    { method := response.method
      uriRedacted := response.uriRedacted
      timeoutMs := response.timeoutMs
      timing := response.timing
      deadlineSlack
      lifecycle := ⟨none, response.lifecycle.hooks, response.lifecycle.completed⟩
      globalPermit
      hostPermit := arrival.hostPermit }).attachCompletion completion

namespace Call

def set (call : Call rt σ C A) (stage : Stage rt σ C A) : Call rt σ C A := { call with stage }

/-- A call after a step, with what it tells the metrics. -/
abbrev Step (rt : Runtime) (σ C A : Type) := Call rt σ C A × List Metrics.Action

def execution (k : LimitedClient) (call : Call rt σ C A) : SendState σ :=
  let (execution, body) :=
    RequestExecutionState.fromRequest call.input call.requestStartedAt k.client.supportsRetry
  ⟨execution, body⟩

def acquire (k : LimitedClient) (wait : PermitWait) (call : Call rt σ C A) : Step rt σ C A :=
  match call.stage with
  | .waiting =>
    if rt = .async && wait.abandoned then (call.set (.ended .abandoned), [.drop])
    else
      match k.acquireGlobalRequestPermit rt (call.execution k).execution wait with
      | .error error => (call.set (.ended (.failed error)), [.completeError error])
      | .ok () => (call.set (.sending (call.execution k)), [])
  | _ => (call, [])

/-- What `send_request` makes of the end of the loop. -/
def finishBuffered (call : Call rt σ C A) : Outcome C A → Step rt σ C A
  | .failed error => (call.set (.returning (.failed error)), [.completeError error])
  | .response status headers body =>
    (call.set (.returning (.response status headers body)), [.completeSuccess status.code])
  | .stream _ =>
    let error := responseModeMismatchError call.input.method call.input.redactedUriText "buffered"
    (call.set (.returning (.mismatched error)), [.completeError error])
  -- The locals are dropped in the reverse of their order, the permit first.
  | .abandoned => (call.set (.ended .abandoned), [.drop])

/-- What `send_request_stream` makes of the end of the loop, which has the permit. -/
def finishStream (k : LimitedClient) (arrival : Arrival rt) (call : Call rt σ C A) :
    Outcome C A → Step rt σ C A
  | .failed error => (call.set (.ended (.failed error)), [.completeError error])
  | .response _ _ _ =>
    let error := responseModeMismatchError call.input.method call.input.redactedUriText "stream"
    (call.set (.ended (.mismatched error)), [.completeError error])
  | .stream response =>
    let completion : Metrics.StreamCompletion :=
      ⟨call.requestStartedAt, response.status.code, some ⟨true⟩⟩
    (call.set (.streaming (response.open arrival k.streamDeadlineSlack k.maxInFlight.isSome
      completion)), [.intoStream response.status.code])
  | .abandoned => (call.set (.ended .abandoned), [.drop])

def turn (k : LimitedClient) (t : Turn C A) (arrival : Arrival rt) (call : Call rt σ C A) :
    Step rt σ C A :=
  match call.stage with
  | .sending s =>
    match (pass rt k.client call.mode t (.running s)).value with
    | .running s => (call.set (.sending s), [])
    | .finished f =>
      match call.mode with
      | .buffered => call.finishBuffered f.outcome
      | .stream => call.finishStream k arrival f.outcome
  | _ => (call, [])

/-- A buffered call returns to its caller. -/
def finish (call : Call rt σ C A) : Step rt σ C A :=
  match call.stage with
  | .returning result => (call.set (.ended result), [])
  | _ => (call, [])

/-- What the completion of a stream tells the metrics. -/
def told : Stream.Event (StreamResilienceHooks C A) Metrics.StreamCompletion →
    Option Metrics.Action
  | .metrics _ .success => some .streamSuccess
  | .metrics _ (.error error) => some (.streamError error)
  | .metrics _ .canceled => some .streamCanceled
  | _ => none

def useStream (change : CallStream rt C A → CallStream rt C A) (call : Call rt σ C A) :
    Step rt σ C A :=
  match call.stage with
  | .streaming s =>
    (call.set (.streaming (change s)), ((change s).log.drop s.log.length).filterMap told)
  | _ => (call, [])

end Call

inductive CallMove (rt : Runtime) (C A : Type) where
  | acquire (wait : PermitWait)
  | turn (t : Turn C A) (arrival : Arrival rt)
  | finish
  | read (w : World (StreamResilienceHooks C A) Metrics.StreamCompletion) (capacity : ℕ)
  | consume (w : World (StreamResilienceHooks C A) Metrics.StreamCompletion) (codecs : Codecs)
      (helper : Helper)
  | drop

def Call.move (k : LimitedClient) (call : Call rt σ C A) : CallMove rt C A → Call.Step rt σ C A
  | .acquire wait => call.acquire k wait
  | .turn t arrival => call.turn k t arrival
  | .finish => call.finish
  | .read w capacity => call.useStream fun s ↦ (Stream.read rt w s capacity).2
  | .consume w codecs helper => call.useStream fun s ↦ (Stream.consume rt w s codecs helper).2
  | .drop => call.useStream fun s ↦ s.drop

/-! ## The system -/

/-- The permits of the client that a call has, in its own hands or in those of its stream. -/
def Call.permits (k : LimitedClient) (call : Call rt σ C A) : ℕ :=
  match call.stage with
  | .waiting | .ended _ => 0
  | .sending _ | .returning _ => k.maxInFlight.isSome.toNat
  | .streaming s => s.globalPermit.toNat

inductive PermitUse where
  | keeps | takes | gives

/-- A call takes its permit when it starts to send. The permit goes back when the call ends, or
when the stream that has it lets go of it. -/
def Stage.permitUse : Stage rt σ C A → Stage rt σ C A → PermitUse
  | .waiting, .sending _ => .takes
  | .sending _, .ended _ | .returning _, .ended _ => .gives
  | .streaming s, .streaming s' => if s.globalPermit && !s'.globalPermit then .gives else .keeps
  | _, _ => .keeps

/-- The permits that are left, unless there is none to take. -/
def LimitedClient.permitsLeft (k : LimitedClient) (available : ℕ) : PermitUse → Option ℕ
  | .keeps => some available
  | .takes =>
    if k.maxInFlight.isNone then some available
    else if available = 0 then none
    else some (available - 1)
  | .gives => if k.maxInFlight.isNone then some available else some (available + 1)

structure CallSystem (rt : Runtime) (σ C A : Type) where
  available : ℕ
  calls : List (Call rt σ C A)
  /-- The request with the index of a call is the accounting of that call. -/
  metrics : Metrics.System

inductive CallOp (rt : Runtime) (σ C A : Type) where
  | start (mode : ResponseMode) (input : RetryRequestInput σ) (now : ℕ)
  | move (index now : ℕ) (m : CallMove rt C A)
  /-- The next update of the metrics that a call has to make. -/
  | account (index : ℕ)

namespace CallSystem

variable (k : LimitedClient)

def initial : CallSystem rt σ C A := ⟨k.maxInFlight.getD 0, [], .initial⟩

/-- A call that asks for a permit goes on only if there is one, and a call that has updates of
the metrics to make makes them first. -/
def move (s : CallSystem rt σ C A) (index now : ℕ) (m : CallMove rt C A) : CallSystem rt σ C A :=
  match s.calls[index]?, s.metrics.requests[index]? with
  | some call, some request =>
    let (call', actions) := call.move k m
    match request.pending, k.permitsLeft s.available (call.stage.permitUse call'.stage) with
    | [], some available =>
      { available
        calls := s.calls.set index call'
        metrics := actions.foldl (fun metrics action ↦ metrics.step (.act index now action))
          s.metrics }
    | _, _ => s
  | _, _ => s

def step (s : CallSystem rt σ C A) : CallOp rt σ C A → CallSystem rt σ C A
  | .start mode input now =>
    { s with
      calls := s.calls ++ [⟨mode, input, now, .waiting⟩]
      metrics := s.metrics.step (.start now) }
  | .move index now m => s.move k index now m
  | .account index => { s with metrics := s.metrics.step (.advance index) }

def run (ops : List (CallOp rt σ C A)) : CallSystem rt σ C A := ops.foldl (step k) (initial k)

end CallSystem

/-! ## The mode of a response -/

section Modes

open Logged

def Outcome.FitsMode (mode : ResponseMode) : Outcome C A → Prop
  | .response _ _ _ => mode = .buffered
  | .stream _ => mode = .stream
  | _ => True

def Phase.FitsMode (mode : ResponseMode) : Phase σ C A → Prop
  | .running _ => True
  | .finished f => f.outcome.FitsMode mode

/-- Whatever is logged on the way, the phase fits the mode. -/
def Fits (mode : ResponseMode) (y : Logged (Event σ C A) (Phase σ C A)) : Prop :=
  y.value.FitsMode mode

variable {c : Client} {mode : ResponseMode} {t : Turn C A} {x : RequestExecutionState}
  {body : RequestBody σ} {g : AttemptGuards C A} {context : RequestContext}

theorem fits_bind {α : Type} {y : Logged (Event σ C A) α}
    {next : α → Logged (Event σ C A) (Phase σ C A)} (h : ∀ a, Fits mode (next a)) :
    Fits mode (y >>= next) :=
  h y.value

theorem fits_bind_of {α : Type} {y : Logged (Event σ C A) α} {post : List (Event σ C A) → α → Prop}
    {next : α → Logged (Event σ C A) (Phase σ C A)} (hy : y.Ensures post)
    (h : ∀ es a, post es a → Fits mode (next a)) : Fits mode (y >>= next) :=
  h _ _ hy

theorem fits_leave {phase : Phase σ C A} (h : phase.FitsMode mode) : Fits mode (leave g phase) := h

theorem fits_fail (error : Error) :
    Fits mode (fail g x context error : Logged (Event σ C A) (Phase σ C A)) := trivial

theorem fits_followSchedule {schedule : Except Error RetrySchedule}
    {notScheduled : AttemptGuards C A → Logged (Event σ C A) (Phase σ C A)}
    (h : ∀ g, Fits mode (notScheduled g)) :
    Fits mode (followSchedule x body g schedule notScheduled) := by
  rcases schedule with error | _ | delay
  · exact trivial
  · exact h _
  · exact trivial

theorem fits_settleFailure (error : Error) :
    Fits mode (settleFailure c t x body g context error) := by
  unfold settleFailure
  split
  · exact fits_bind fun _ ↦ fits_followSchedule fun _ ↦ fits_bind fun _ ↦ fits_fail _
  · exact fits_bind fun _ ↦ fits_fail _

theorem fits_finishResponse {status : StatusCode} (headers : HeaderMap) (responseBody : Bytes)
    (h : status.isSuccess = true → mode = .buffered) :
    Fits mode (finishResponse c mode x g context status headers responseBody :
      Logged (Event σ C A) (Phase σ C A)) := by
  unfold finishResponse
  split
  next hsuccess => exact fits_bind fun _ ↦ fits_leave (h hsuccess)
  next =>
    refine fits_bind fun _ ↦ ?_
    split
    next hreturn =>
      have hmode : mode = .buffered := by simpa using (Bool.and_eq_true_iff.mp hreturn).2
      exact fits_leave hmode
    next => exact fits_fail _

theorem fits_readBody {status : StatusCode} (headers : HeaderMap)
    (h : status.isSuccess = true → mode = .buffered) :
    Fits mode (readBody rt c mode t x body g context status headers) := by
  unfold readBody
  split
  · exact fits_bind fun _ ↦ fits_fail _
  split
  · exact trivial
  refine fits_bind fun result ↦ ?_
  rcases result with ⟨error | _ | _, headers', x'⟩
  · exact trivial
  · exact fits_bind fun _ ↦ fits_finishResponse _ _ h
  · exact trivial

theorem fits_settleResponse (transportTimeout : ℕ) (status : StatusCode) (headers : HeaderMap) :
    Fits mode (settleResponse rt c mode t x body g context transportTimeout status headers) := by
  unfold settleResponse
  split
  · exact fits_bind fun _ ↦ fits_fail _
  · exact trivial
  refine fits_bind fun _ ↦ ?_
  split
  · split
    next hmode => exact fits_bind fun _ ↦ fits_leave hmode
    next hmode =>
      refine fits_readBody _ fun _ ↦ ?_
      cases mode with
      | buffered => rfl
      | stream => exact absurd rfl hmode
  next hfailure =>
    unfold settleNonSuccess
    refine fits_bind fun _ ↦ fits_bind fun _ ↦ fits_followSchedule fun _ ↦ ?_
    split
    next hreturn =>
      have hmode : mode = .stream := by simpa using (Bool.and_eq_true_iff.mp hreturn).1
      exact fits_bind fun _ ↦ fits_leave hmode
    next => exact fits_readBody _ fun hsuccess ↦ absurd hsuccess hfailure

theorem fits_dispatch (s : SendState σ) : Fits mode (dispatch rt c mode t s g) := by
  unfold dispatch
  dsimp only
  split
  · exact fits_bind fun _ ↦ fits_fail _
  split
  · exact fits_bind fun _ ↦ fits_fail _
  refine fits_bind fun answer ↦ ?_
  split
  · exact trivial
  split
  · exact fits_settleFailure _
  · exact fits_settleResponse _ _ _

theorem fits_iterate (s : SendState σ) : Fits mode (iterate rt c mode t s) := by
  unfold iterate
  refine fits_bind fun _ ↦ fits_bind_of beginAttempt_spec ?_
  intro es result hbegun
  generalize tally es = T at hbegun
  cases hbegun with
  | ok g => exact fits_dispatch s
  | failed => exact trivial
  | abandoned => exact trivial

/-- The loop answers in the mode it was asked in. -/
theorem fits_pass (s : SendState σ) : Fits mode (pass rt c mode t (.running s)) := by
  unfold pass
  dsimp only
  split
  · exact trivial
  split
  · exact fits_iterate s
  · exact trivial

end Modes

end Reqx.Driver
