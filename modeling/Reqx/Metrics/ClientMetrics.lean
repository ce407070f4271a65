import Mathlib.Logic.Function.Basic
import Reqx.Core.Error
import Reqx.Core.Quantities
import Reqx.Library.Logged
import Reqx.Library.Shares

/-!
# Client metrics

The counters of a client whose metrics are enabled, and the owners of the
accounting of one request: a `PendingRequest` while it executes, and a
`StreamCompletion` if it returned a stream. Every counter is updated by itself,
so an operation is the list of the updates it makes, in its order.
-/

namespace Reqx.Metrics

/-! ## Counters -/

inductive Counter where
  | requestsStarted | requestsSucceeded | requestsFailed | requestsCanceled
  | timeoutTransport | timeoutResponseBody | deadlineExceeded
  | transportErrors | readBodyErrors | writeBodyErrors | responseBodyTooLarge
  | httpStatusErrors | inFlight | latencyTotalMs | latencySamples
  deriving DecidableEq, Repr

inductive Table where
  | statusCounts | errorCodeCounts | timeoutPhaseCounts | transportErrorKindCounts
  | httpStatusErrorCounts
  deriving DecidableEq, Repr

abbrev Table.Key : Table → Type
  | .statusCounts => ℕ
  | .errorCodeCounts => ErrorCode
  | .timeoutPhaseCounts => TimeoutPhase
  | .transportErrorKindCounts => TransportErrorKind
  | .httpStatusErrorCounts => ℕ

instance decidableEqKey : (table : Table) → DecidableEq table.Key
  | .statusCounts => inferInstanceAs (DecidableEq ℕ)
  | .errorCodeCounts => inferInstanceAs (DecidableEq ErrorCode)
  | .timeoutPhaseCounts => inferInstanceAs (DecidableEq TimeoutPhase)
  | .transportErrorKindCounts => inferInstanceAs (DecidableEq TransportErrorKind)
  | .httpStatusErrorCounts => inferInstanceAs (DecidableEq ℕ)

/-- A map from keys to counts, one entry for each key. -/
abbrev Counts (κ : Type) := List (κ × ℕ)

namespace Counts

variable {κ : Type} [DecidableEq κ]

/-- `entry(key).or_insert(0)`, counted up. -/
def increment (key : κ) : Counts κ → Counts κ
  | [] => [(key, 1)]
  | (other, count) :: rest =>
    if other = key then (other, saturatingAdd count 1) :: rest
    else (other, count) :: increment key rest

def sum (counts : Counts κ) : ℕ := Shares.total Prod.snd counts

theorem sum_increment {counts : Counts κ} (key : κ) (h : counts.sum + 1 ≤ usizeMax) :
    (counts.increment key).sum = counts.sum + 1 := by
  induction counts with
  | nil => rfl
  | cons entry rest ih =>
    obtain ⟨other, count⟩ := entry
    have htotal : sum ((other, count) :: rest) = count + sum rest := Shares.total_cons _ _ _
    unfold increment
    split
    · have hcount : saturatingAdd count 1 = count + 1 := saturatingAdd_of_le (by omega)
      have hnew : sum ((other, saturatingAdd count 1) :: rest) =
        saturatingAdd count 1 + sum rest := Shares.total_cons _ _ _
      omega
    · have hrest := ih (by omega)
      have hnew : sum ((other, count) :: increment key rest) =
        count + sum (increment key rest) := Shares.total_cons _ _ _
      omega

end Counts

structure ClientMetricsInner where
  counter : Counter → ℕ
  table : (table : Table) → Counts table.Key

def ClientMetricsInner.default : ClientMetricsInner := ⟨fun _ ↦ 0, fun _ ↦ []⟩

/-- One update of one counter. -/
inductive Update where
  | increment (counter : Counter)
  | add (counter : Counter) (delta : ℕ)
  | sub (counter : Counter) (delta : ℕ)
  | count (table : Table) (key : table.Key)

def Update.apply (m : ClientMetricsInner) : Update → ClientMetricsInner
  | .increment c =>
    { m with counter := Function.update m.counter c (saturatingAdd (m.counter c) 1) }
  | .add c delta =>
    { m with counter := Function.update m.counter c (saturatingAdd (m.counter c) delta) }
  | .sub c delta => { m with counter := Function.update m.counter c (m.counter c - delta) }
  | .count t key => { m with table := Function.update m.table t ((m.table t).increment key) }

/-! ## Recording -/

abbrev Recording := Logged Update

namespace Recording

def atomicSaturatingIncrement (counter : Counter) : Recording Unit := .tell [.increment counter]

def atomicSaturatingAdd (counter : Counter) (delta : ℕ) : Recording Unit :=
  .tell [.add counter delta]

def atomicSaturatingSub (counter : Counter) (delta : ℕ) : Recording Unit :=
  .tell [.sub counter delta]

def addStatusCount (status : ℕ) : Recording Unit := .tell [.count .statusCounts status]

def addErrorCodeCount (code : ErrorCode) : Recording Unit := .tell [.count .errorCodeCounts code]

def addTimeoutPhaseCount (phase : TimeoutPhase) : Recording Unit :=
  .tell [.count .timeoutPhaseCounts phase]

def addTransportErrorKindCount (kind : TransportErrorKind) : Recording Unit :=
  .tell [.count .transportErrorKindCounts kind]

def addHttpStatusErrorCount (status : ℕ) : Recording Unit :=
  .tell [.count .httpStatusErrorCounts status]

def recordLatency (latency : ℕ) : Recording Unit := do
  atomicSaturatingIncrement .latencySamples
  atomicSaturatingAdd .latencyTotalMs (min (asMillis latency) usizeMax)

def recordRequestStarted : Recording Unit := atomicSaturatingIncrement .requestsStarted

def recordRequestCompletedSuccess (status latency : ℕ) : Recording Unit := do
  atomicSaturatingIncrement .requestsSucceeded
  addStatusCount status
  recordLatency latency

/-- The counters of the kind of error. -/
def recordErrorKind : Error → Recording Unit
  | .timeout phase _ _ _ => do
    match phase with
    | .transport => atomicSaturatingIncrement .timeoutTransport
    | .responseBody => atomicSaturatingIncrement .timeoutResponseBody
    addTimeoutPhaseCount phase
  | .deadlineExceeded .. => atomicSaturatingIncrement .deadlineExceeded
  | .transport kind _ _ _ => do
    atomicSaturatingIncrement .transportErrors
    addTransportErrorKindCount kind
  | .readBody .. => atomicSaturatingIncrement .readBodyErrors
  | .writeBody .. => atomicSaturatingIncrement .writeBodyErrors
  | .responseBodyTooLarge .. => atomicSaturatingIncrement .responseBodyTooLarge
  | .httpStatus status _ _ _ _ => do
    atomicSaturatingIncrement .httpStatusErrors
    addStatusCount status
    addHttpStatusErrorCount status
  | _ => return ()

def recordRequestCompletedError (error : Error) (latency : ℕ) : Recording Unit := do
  atomicSaturatingIncrement .requestsFailed
  recordLatency latency
  addErrorCodeCount error.code
  recordErrorKind error

def recordRequestCompletedCanceled (latency : ℕ) : Recording Unit := do
  atomicSaturatingIncrement .requestsCanceled
  recordLatency latency

end Recording

open Recording

/-! ## The owners of the accounting -/

/-- `inner` says whether the guard still has the counters, or has been emptied by a move. -/
structure InFlightGuard where
  inner : Bool
  deriving DecidableEq, Repr

def InFlightGuard.drop (guard : InFlightGuard) : Recording Unit :=
  if guard.inner then atomicSaturatingSub .inFlight 1 else return ()

def enterInFlight : Recording InFlightGuard := do
  atomicSaturatingIncrement .inFlight
  return ⟨true⟩

structure StreamCompletion where
  requestStartedAt : ℕ
  status : ℕ
  inFlightGuard : Option InFlightGuard
  deriving DecidableEq, Repr

structure PendingRequest where
  requestStartedAt : ℕ
  inFlight : InFlightGuard
  completed : Bool
  deriving DecidableEq, Repr

def pendingRequest (requestStartedAt : ℕ) : Recording PendingRequest := do
  recordRequestStarted
  let inFlight ← enterInFlight
  return { requestStartedAt, inFlight, completed := false }

namespace PendingRequest

variable (p : PendingRequest) (now : ℕ)

def elapsed : ℕ := saturatingDurationSince now p.requestStartedAt

/-- The fields are dropped after the body of `drop`. -/
def drop : Recording Unit := do
  if !p.completed then
    recordRequestCompletedCanceled (p.elapsed now)
  p.inFlight.drop

def completeSuccess (status : ℕ) : Recording Unit := do
  recordRequestCompletedSuccess status (p.elapsed now)
  { p with completed := true }.drop now

def completeError (error : Error) : Recording Unit := do
  recordRequestCompletedError error (p.elapsed now)
  { p with completed := true }.drop now

def intoStream (status : ℕ) : Recording StreamCompletion := do
  let completion : StreamCompletion := ⟨p.requestStartedAt, status, some ⟨p.inFlight.inner⟩⟩
  { p with inFlight := ⟨false⟩, completed := true }.drop now
  return completion

end PendingRequest

namespace StreamCompletion

variable (s : StreamCompletion) (now : ℕ)

def elapsed : ℕ := saturatingDurationSince now s.requestStartedAt

/-- Taking the guard marks the completion; it is dropped when the accounting is done. -/
def complete (record : Recording Unit) : Recording StreamCompletion :=
  match s.inFlightGuard with
  | none => return s
  | some guard => do
    record
    guard.drop
    return { s with inFlightGuard := none }

def completeSuccess : Recording StreamCompletion :=
  s.complete (recordRequestCompletedSuccess s.status (s.elapsed now))

def completeError (error : Error) : Recording StreamCompletion :=
  s.complete (recordRequestCompletedError error (s.elapsed now))

def completeCanceled : Recording StreamCompletion :=
  s.complete (recordRequestCompletedCanceled (s.elapsed now))

def drop : Recording Unit := do
  let s ← s.completeCanceled now
  match s.inFlightGuard with
  | none => return ()
  | some guard => guard.drop

end StreamCompletion

/-! ## Snapshots -/

structure RequestMetrics where
  started : ℕ
  succeeded : ℕ
  failed : ℕ
  canceled : ℕ
  inFlight : ℕ

structure TimeoutMetrics where
  transport : ℕ
  responseBody : ℕ
  deadlineExceeded : ℕ

structure ErrorMetrics where
  transport : ℕ
  readBody : ℕ
  writeBody : ℕ
  responseBodyTooLarge : ℕ
  httpStatus : ℕ
  byCode : Counts ErrorCode
  byTimeoutPhase : Counts TimeoutPhase
  byTransportKind : Counts TransportErrorKind
  byHttpStatus : Counts ℕ

structure LatencyMetrics where
  samples : ℕ
  totalMs : ℕ

structure MetricsSnapshot where
  requests : RequestMetrics
  statusCounts : Counts ℕ
  timeouts : TimeoutMetrics
  errors : ErrorMetrics
  latency : LatencyMetrics

def ClientMetricsInner.snapshot (m : ClientMetricsInner) : MetricsSnapshot where
  requests :=
    { started := m.counter .requestsStarted
      succeeded := m.counter .requestsSucceeded
      failed := m.counter .requestsFailed
      canceled := m.counter .requestsCanceled
      inFlight := m.counter .inFlight }
  statusCounts := m.table .statusCounts
  timeouts :=
    { transport := m.counter .timeoutTransport
      responseBody := m.counter .timeoutResponseBody
      deadlineExceeded := m.counter .deadlineExceeded }
  errors :=
    { transport := m.counter .transportErrors
      readBody := m.counter .readBodyErrors
      writeBody := m.counter .writeBodyErrors
      responseBodyTooLarge := m.counter .responseBodyTooLarge
      httpStatus := m.counter .httpStatusErrors
      byCode := m.table .errorCodeCounts
      byTimeoutPhase := m.table .timeoutPhaseCounts
      byTransportKind := m.table .transportErrorKindCounts
      byHttpStatus := m.table .httpStatusErrorCounts }
  latency := ⟨m.counter .latencySamples, m.counter .latencyTotalMs⟩

end Reqx.Metrics
