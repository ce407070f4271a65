import Reqx.Core.Execution
import Reqx.RateLimit.Limiter
import Reqx.Resilience.CircuitSystem

/-!
# Attempt guards and stream lifecycles

What a request does to the world is a list of events. The guards of an attempt
are the circuit attempt and the adaptive permit it holds; they end together,
and a guard that is still held when its owner goes away is dropped. A returned
stream takes the guards of its attempt along and ends them when it ends.
-/

namespace Reqx.Driver

open Resilience (Ending)

/-- One hand-over to the transport. `carried` are the headers of the execution
state, `intercepted` are those the interceptors made of them. -/
structure SentRequest (σ : Type) where
  method : Method
  uri : Uri
  carried : HeaderMap
  intercepted : HeaderMap
  headers : HeaderMap
  body : RequestBody σ
  timeout : ℕ
  sentAt : ℕ
  deriving DecidableEq

inductive Guard (C A : Type) where
  | circuit (attempt : C)
  | adaptive (permit : A)
  deriving DecidableEq

inductive Event (σ C A : Type) where
  | requestStarted (context : RequestContext)
  | limiterCalled (call : RateLimit.Call)
  | waited (delay : ℕ)
  | begun (guard : Guard C A)
  | sent (request : SentRequest σ)
  | ended (guard : Guard C A) (ending : Ending)
  | responded (context : RequestContext) (status : StatusCode) (headers : HeaderMap)
  | redirected (action : RedirectAction)
  | throttleObserved (context : RequestContext) (scope : RateLimit.ServerThrottleScope)
      (delay : ℕ)
  /-- `prepare_retry_schedule` is asked for a retry after this delay. -/
  | retryAsked (decision : RetryDecision) (delay : ℕ)
  | tokenTaken
  | retryScheduled (context : RequestContext) (decision : RetryDecision) (delay : ℕ)
  | slept (delay : ℕ)
  /-- A response body is read under this timeout. -/
  | readStarted (timeout : ℕ)
  | successCredited
  | failed (context : RequestContext) (error : Error)
  deriving DecidableEq

variable {σ C A : Type}

/-! ## Guards -/

structure AttemptGuards (C A : Type) where
  circuit : Option C
  adaptive : Option A
  deriving DecidableEq

namespace AttemptGuards

def empty : AttemptGuards C A := ⟨none, none⟩

def isEmpty (g : AttemptGuards C A) : Bool := g.circuit.isNone && g.adaptive.isNone

def setAdaptive (g : AttemptGuards C A) (adaptive : Option A) : AttemptGuards C A :=
  { g with adaptive }

def toList (g : AttemptGuards C A) : List (Guard C A) :=
  g.circuit.toList.map .circuit ++ g.adaptive.toList.map .adaptive

def endedAs (g : AttemptGuards C A) (ending : Ending) : List (Guard C A × Ending) :=
  g.toList.map (·, ending)

def finish (g : AttemptGuards C A) (ending : Ending) :
    Logged (Event σ C A) (AttemptGuards C A) := do
  Logged.tell (g.toList.map (.ended · ending))
  return empty

def markSuccess (g : AttemptGuards C A) : Logged (Event σ C A) (AttemptGuards C A) :=
  g.finish .success

def markFailure (g : AttemptGuards C A) : Logged (Event σ C A) (AttemptGuards C A) :=
  g.finish .failure

def cancel (g : AttemptGuards C A) : Logged (Event σ C A) (AttemptGuards C A) :=
  g.finish .cancel

def drop (g : AttemptGuards C A) : Logged (Event σ C A) (AttemptGuards C A) :=
  g.finish .drop

def recordFailureForRetrySchedule (g : AttemptGuards C A) (schedule : Except Error RetrySchedule) :
    Logged (Event σ C A) (AttemptGuards C A) :=
  match schedule with
  | .ok (.scheduled _) => g.markFailure
  | .ok .notScheduled => return g
  | .error _ => g.markFailure

def recordFailureOnError {α : Type} (g : AttemptGuards C A) (result : Except Error α) :
    Logged (Event σ C A) (AttemptGuards C A) :=
  match result with
  | .ok _ => return g
  | .error _ => g.markFailure

end AttemptGuards

def AttemptDisposition.apply (disposition : AttemptDisposition) (g : AttemptGuards C A) :
    Logged (Event σ C A) (AttemptGuards C A) :=
  match disposition with
  | .failure => g.markFailure
  | .cancel => g.cancel

/-! ## Streams -/

/-- `retryBudget` says whether the hooks still hold the budget they may credit. -/
structure StreamResilienceHooks (C A : Type) where
  retryBudget : Bool
  attempts : AttemptGuards C A
  deriving DecidableEq

inductive StreamOutcome where
  | success | error | canceled
  deriving DecidableEq, Repr

def StreamOutcome.ending : StreamOutcome → Ending
  | .success => .success
  | .error => .failure
  | .canceled => .cancel

/-- `complete_success`, `complete_error` and `complete_canceled` of the hooks. -/
def StreamResilienceHooks.complete (hooks : StreamResilienceHooks C A) (outcome : StreamOutcome) :
    Logged (Event σ C A) Unit := do
  if hooks.retryBudget && outcome = .success then
    Logged.tell [.successCredited]
  let attempts ← hooks.attempts.finish outcome.ending
  let _ ← attempts.drop
  return ()

structure StreamLifecycle (C A : Type) where
  hooks : Option (StreamResilienceHooks C A)
  completed : Bool
  deriving DecidableEq

namespace StreamLifecycle

def default : StreamLifecycle C A := ⟨none, false⟩

def new (hooks : StreamResilienceHooks C A) : StreamLifecycle C A := ⟨some hooks, false⟩

/-- The first completion wins; later ones find the lifecycle completed. -/
def complete (l : StreamLifecycle C A) (outcome : StreamOutcome) :
    Logged (Event σ C A) (StreamLifecycle C A) :=
  if l.completed then return l
  else
    match l.hooks with
    | none => return ⟨none, true⟩
    | some hooks => do
      hooks.complete outcome
      return ⟨none, true⟩

def completeSuccess (l : StreamLifecycle C A) : Logged (Event σ C A) (StreamLifecycle C A) :=
  l.complete .success

def completeError (l : StreamLifecycle C A) : Logged (Event σ C A) (StreamLifecycle C A) :=
  l.complete .error

def completeCanceled (l : StreamLifecycle C A) : Logged (Event σ C A) (StreamLifecycle C A) :=
  l.complete .canceled

def drop (l : StreamLifecycle C A) : Logged (Event σ C A) (StreamLifecycle C A) :=
  l.completeCanceled

/-- The whole life of a stream: any completions, then the drop. -/
def live (l : StreamLifecycle C A) : List StreamOutcome → Logged (Event σ C A) Unit
  | [] => do
    let _ ← l.drop
    return ()
  | outcome :: rest => do
    let l ← l.complete outcome
    l.live rest

end StreamLifecycle

/-! ## Completions -/

inductive RequestCompletion where
  | success | failure
  deriving DecidableEq, Repr

namespace RequestCompletion

def fromResponseStatus (policy : RetryPolicy) (status : StatusCode) : RequestCompletion :=
  if policy.isRetryableStatus status then .failure else .success

def recordAttempt (completion : RequestCompletion) (g : AttemptGuards C A) :
    Logged (Event σ C A) (AttemptGuards C A) :=
  match completion with
  | .success => g.markSuccess
  | .failure => g.markFailure

def recordCompleted (completion : RequestCompletion) (g : AttemptGuards C A) (retryBudget : Bool) :
    Logged (Event σ C A) (AttemptGuards C A) := do
  let g ← completion.recordAttempt g
  if completion = .success && retryBudget then
    Logged.tell [.successCredited]
  return g

def intoStreamLifecycle (completion : RequestCompletion) (g : AttemptGuards C A)
    (retryBudget : Bool) : Logged (Event σ C A) (StreamLifecycle C A × AttemptGuards C A) :=
  match completion with
  | .failure => do
    let g ← g.markFailure
    return (.default, g)
  | .success =>
    if !retryBudget && g.isEmpty then return (.default, g)
    else return (.new ⟨retryBudget, g⟩, .empty)

end RequestCompletion

/-! ## Tallies -/

structure Tally (σ C A : Type) where
  sent : List (SentRequest σ)
  begun : List (Guard C A)
  ended : List (Guard C A × Ending)
  redirects : List RedirectAction
  tokens : ℕ
  credits : ℕ

namespace Event

def sent? : Event σ C A → Option (SentRequest σ)
  | .sent request => some request
  | _ => none

def begun? : Event σ C A → Option (Guard C A)
  | .begun guard => some guard
  | _ => none

def ended? : Event σ C A → Option (Guard C A × Ending)
  | .ended guard ending => some (guard, ending)
  | _ => none

def redirected? : Event σ C A → Option RedirectAction
  | .redirected action => some action
  | _ => none

def isTokenTaken : Event σ C A → Bool
  | .tokenTaken => true
  | _ => false

def isSuccessCredited : Event σ C A → Bool
  | .successCredited => true
  | _ => false

end Event

def tally (es : List (Event σ C A)) : Tally σ C A where
  sent := es.filterMap Event.sent?
  begun := es.filterMap Event.begun?
  ended := es.filterMap Event.ended?
  redirects := es.filterMap Event.redirected?
  tokens := es.countP Event.isTokenTaken
  credits := es.countP Event.isSuccessCredited

namespace Tally

instance : Append (Tally σ C A) where
  append a b := ⟨a.sent ++ b.sent, a.begun ++ b.begun, a.ended ++ b.ended,
    a.redirects ++ b.redirects, a.tokens + b.tokens, a.credits + b.credits⟩

def zero : Tally σ C A := ⟨[], [], [], [], 0, 0⟩

end Tally

end Reqx.Driver
