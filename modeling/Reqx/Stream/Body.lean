import Mathlib.Algebra.Group.Nat.Defs
import Reqx.Driver.SendLoop
import Reqx.Library.Attempt

/-!
# Response streams

What the two stream types share: the deadline of the request, the lifecycle
that records how the stream ended, the permits it keeps, and writing to a
destination. Everything a stream learns from outside is an answer of a
`World`, which may depend on all that has happened; the stream keeps it, with
what it records itself, in `log`.
-/

namespace Reqx.Stream

open Driver (Runtime StreamOutcome)

/-- What one poll of the transport of an async stream answers before its end. -/
inductive FramePoll where
  | pending
  | data (bytes : Bytes)
  | trailers
  | failed (source : List Text)
  deriving DecidableEq

/-- How a write or a flush ends. Only a future can run into the deadline or be dropped
while it waits. -/
inductive WriterAnswer where
  | done
  | failed (source : IoError)
  | elapsed
  | abandoned
  deriving DecidableEq

inductive Completion where
  | success
  | error (error : Error)
  | canceled
  deriving DecidableEq

inductive Event (H M : Type) where
  | checked (deadlineAt now : ℕ)
  | clock (now : ℕ)
  | polled (frame : Option FramePoll)
  | timer (elapsed : Bool)
  | suspended (abandoned : Bool)
  | read (result : Except IoError Bytes)
  | wrote (bytes : Bytes) (answer : WriterAnswer)
  | flushed (answer : WriterAnswer)
  | decoded (result : Except Error Bytes)
  | hooks (hooks : H) (completion : Completion)
  | metrics (metrics : M) (completion : Completion)
  deriving DecidableEq

/-- The answers from outside. `taken` is how much of a chunk the writer has taken when a
write does not come to its end. -/
structure World (H M : Type) where
  now : List (Event H M) → ℕ
  timerElapsed : List (Event H M) → Bool
  abandons : List (Event H M) → Bool
  writer : List (Event H M) → WriterAnswer
  taken : List (Event H M) → ℕ

inductive Poll (α : Type) where
  | pending
  | ready (a : α)
  deriving DecidableEq

/-- Why an operation gives no value: it fails, or its future is dropped. -/
inductive Stop where
  | failed (error : Error)
  | abandoned
  deriving DecidableEq

/-! ## Deadlines -/

def deadlineElapsed (deadlineAt now : ℕ) : Bool := now ≥ deadlineAt

def deadlineLimitsWait (phaseTimeout deadlineAt now : ℕ) : Bool :=
  saturatingDurationSince deadlineAt now ≤ phaseTimeout

def deadlineWithinSlack (deadlineAt now deadlineSlack : ℕ) : Bool :=
  saturatingDurationSince deadlineAt now ≤ deadlineSlack

def durationFromMillisSaturating (milliseconds : ℕ) : ℕ :=
  if milliseconds / 1000 > 2 ^ 64 - 1 then durationMax else fromMillis milliseconds

/-! ## Lifecycles -/

variable {T H M α : Type}

structure StreamLifecycle (H M : Type) where
  completion : Option M
  hooks : Option H
  completed : Bool
  deriving DecidableEq

namespace StreamLifecycle

def default : StreamLifecycle H M := ⟨none, none, false⟩

def new (hooks : H) : StreamLifecycle H M := ⟨none, some hooks, false⟩

def attachCompletion (l : StreamLifecycle H M) (completion : M) : StreamLifecycle H M :=
  { l with completion := some completion }

/-- What the hooks and the metrics get to see of a completion. -/
def records (l : StreamLifecycle H M) (c : Completion) : List (Event H M) :=
  l.hooks.toList.map (.hooks · c) ++ l.completion.toList.map (.metrics · c)

/-- `complete_success`, `complete_error` and `complete_canceled`. -/
def complete (l : StreamLifecycle H M) (c : Completion) :
    Logged (Event H M) (StreamLifecycle H M) :=
  if l.completed then return l
  else do
    Logged.tell (l.records c)
    return ⟨none, none, true⟩

end StreamLifecycle

/-! ## Streams -/

/-- The part of a stream that reads: `released` is what `release_transport` leaves of it. -/
class Transport (T : Type) where
  held : T → Bool
  released : T
  /-- Bytes that were taken from the transport and not delivered yet. -/
  buffered : T → Bytes
  /-- Bytes that the transport has still to deliver. -/
  rest : T → Bytes
  /-- No answer of the transport ends the stream with an error. -/
  Faultless : T → Prop
  held_released : held released = false
  buffered_released : buffered released = []
  rest_released : rest released = []
  faultless_released : Faultless released

structure ResponseStream (T H M : Type) where
  status : StatusCode
  headers : HeaderMap
  method : Method
  uriRedacted : Text
  timeoutMs : ℕ
  timing : StreamTiming
  deadlineSlack : ℕ
  body : T
  lifecycle : StreamLifecycle H M
  globalPermit : Bool
  hostPermit : Bool
  log : List (Event H M)

/-- A method of a stream that can fail. -/
abbrev StreamAttempt (T H M α : Type) := Attempt Stop (ResponseStream T H M) α

structure ResponseStreamContext (H M : Type) where
  method : Method
  uriRedacted : Text
  timeoutMs : ℕ
  timing : StreamTiming
  deadlineSlack : ℕ
  lifecycle : StreamLifecycle H M
  globalPermit : Bool
  hostPermit : Bool

namespace ResponseStream

def new (status : StatusCode) (headers : HeaderMap) (body : T)
    (context : ResponseStreamContext H M) : ResponseStream T H M where
  status
  headers
  method := context.method
  uriRedacted := context.uriRedacted
  timeoutMs := max context.timeoutMs 1
  timing := context.timing
  deadlineSlack := context.deadlineSlack
  body
  lifecycle := context.lifecycle
  globalPermit := context.globalPermit
  hostPermit := context.hostPermit
  log := []

variable (s : ResponseStream T H M)

def attachCompletion (completion : M) : ResponseStream T H M :=
  { s with lifecycle := s.lifecycle.attachCompletion completion }

def tell (es : List (Event H M)) : ResponseStream T H M := { s with log := s.log ++ es }

def deadlineExceededError : Error :=
  .deadlineExceeded (s.timing.totalTimeoutMs.getD (max s.timeoutMs 1)) s.method s.uriRedacted

def responseBodyTimeoutError : Error :=
  .timeout .responseBody (max s.timeoutMs 1) s.method s.uriRedacted

def responseBodyTooLargeError (limitBytes actualBytes : ℕ) : Error :=
  .responseBodyTooLarge limitBytes actualBytes s.method s.uriRedacted

def writeError (source : IoError) : Error :=
  .writeBody s.method s.uriRedacted [source.message.toList]

def ensureWithinDeadline (w : World H M) : StreamAttempt T H M Unit :=
  match s.timing.deadlineAt with
  | none => (.ok (), s)
  | some deadlineAt =>
    let now := w.now s.log
    let s := s.tell [.checked deadlineAt now]
    if deadlineElapsed deadlineAt now then (.error (.failed s.deadlineExceededError), s)
    else (.ok (), s)

section Completing

variable [Transport T]

def releaseTransport : ResponseStream T H M :=
  { s with body := Transport.released, globalPermit := false, hostPermit := false }

def complete (c : Completion) : ResponseStream T H M :=
  let lifecycle := s.lifecycle.complete c
  { s.releaseTransport with lifecycle := lifecycle.value, log := s.log ++ lifecycle.events }

def completeSuccess : ResponseStream T H M := s.complete .success

def completeError (error : Error) : ResponseStream T H M := s.complete (.error error)

/-- The fields are dropped in their order: the transport, the lifecycle, which records a
cancellation unless it is completed, and the permits. -/
def drop : ResponseStream T H M := s.complete .canceled

end Completing

end ResponseStream

/-- A failure ends the stream, the drop of a future does not record anything yet. -/
def completeOnError [Transport T] (x : StreamAttempt T H M α) : StreamAttempt T H M α :=
  match x with
  | (.error (.failed error), s) => (.error (.failed error), s.completeError error)
  | x => x

/-! ## Writing -/

inductive Operation where
  | writeAll (chunk : Bytes)
  | flush
  deriving DecidableEq

/-- A blocking operation comes to its end, and without a deadline no timeout is set. -/
def settledAnswer (rt : Runtime) (deadlineAt : Option ℕ) (answer : WriterAnswer) : WriterAnswer :=
  match rt, deadlineAt, answer with
  | .blocking, _, .elapsed => .done
  | .blocking, _, .abandoned => .done
  | .async, none, .elapsed => .done
  | _, _, answer => answer

def Operation.event (op : Operation) (answer : WriterAnswer) (taken : ℕ) : Event H M :=
  match op with
  | .writeAll chunk => .wrote (if answer = .done then chunk else chunk.take taken) answer
  | .flush => .flushed answer

namespace ResponseStream

variable (rt : Runtime) (w : World H M) (s : ResponseStream T H M)

def perform (op : Operation) : StreamAttempt T H M Unit :=
  let answer := settledAnswer rt s.timing.deadlineAt (w.writer s.log)
  let s := s.tell [op.event answer (w.taken s.log)]
  match answer with
  | .done => (.ok (), s)
  | .failed source => (.error (.failed (s.writeError source)), s)
  | .elapsed => (.error (.failed s.deadlineExceededError), s)
  | .abandoned => (.error .abandoned, s)

def writeWithDeadline [Transport T] (op : Operation) : StreamAttempt T H M Unit :=
  completeOnError <|
    (s.ensureWithinDeadline w).andThen fun _ s ↦
      (s.perform rt w op).andThen fun _ s ↦ s.ensureWithinDeadline w

end ResponseStream

end Reqx.Stream
