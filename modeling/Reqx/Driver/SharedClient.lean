import Reqx.Driver.AdaptiveStreams
import Reqx.Driver.PassOrder
import Reqx.Library.Interleaving
import Reqx.RateLimit.Guarantees
import Reqx.Resilience.RetryBudget

/-!
# Requests that share a client

Any number of requests run on one client at the same time. Each of them is a
send loop, and then the stream it may have returned; their events happen one at
a time in any order, on a clock that never goes back. An event that asks a
control of the client (the rate limiter, the retry budget, the circuit breaker)
can only happen if the control gives the answer that the call goes on with.
-/

namespace Reqx.Resilience

/-! ## Controls as machines -/

structure RetryBudget where
  policy : RetryBudgetPolicy
  state : RetryBudgetState

namespace RetryBudget

def new (policy : RetryBudgetPolicy) (now : ℕ) : RetryBudget := ⟨policy, .new now⟩

def machine : Machine BudgetCall BudgetEntry RetryBudget where
  step b call :=
    let (entry, state) := (retryBudget b.policy).step b.state call
    (entry, { b with state })

theorem outputs_machine (b : RetryBudget) (calls : List BudgetCall) :
    machine.outputs b calls = (retryBudget b.policy).outputs b.state calls := by
  induction calls generalizing b with
  | nil => rfl
  | cons call calls ih =>
    rw [Machine.outputs_cons, Machine.outputs_cons, ih]
    rfl

end RetryBudget

inductive BreakerCall where
  | begin (now : ℕ)
  | finish (attempt : CircuitAttempt) (ending : Ending) (now : ℕ)

inductive BreakerAnswer where
  | granted (attempt : CircuitAttempt)
  | refused (retryAfter : ℕ)
  | finished

def CircuitBreaker.machine : Machine BreakerCall BreakerAnswer CircuitBreaker where
  step b call :=
    match call with
    | .begin now =>
      match b.begin now with
      | (.ok attempt, b) => (.granted attempt, b)
      | (.error retryAfter, b) => (.refused retryAfter, b)
    | .finish attempt ending now => (.finished, attempt.finish ending now b)

end Reqx.Resilience

namespace Reqx.Driver

open Interleaving
open Logged
open Resilience

variable {σ A : Type}

/-! ## The controls of a client -/

/-- A client with the policies of its controls, all of them validated. -/
structure ControlledClient where
  client : Client
  limits : RateLimit.Limits
  budget : Option RetryBudgetPolicy
  breaker : Option CircuitBreakerPolicy
  retryBudget_eq : client.retryBudget = budget.isSome
  circuitBreaker_eq : client.circuitBreaker = breaker.isSome
  rateLimiter_eq : client.rateLimiter =
    if limits.global.isSome || limits.perHost.isSome then
      some ⟨limits.global.isSome, limits.perHost.isSome⟩
    else none
  limits_valid : limits.Valid
  budget_valid : ∀ policy ∈ budget, policy.validate = .ok ()
  breaker_valid : ∀ policy ∈ breaker, policy.validate = .ok ()

structure Controls where
  limiter : Option RateLimit.RateLimiter
  budget : Option RetryBudget
  breaker : Option CircuitBreaker

def ControlledClient.controls (c : ControlledClient) (created : ℕ) : Controls where
  limiter := RateLimit.RateLimiter.new c.limits.global c.limits.perHost c.limits.instantMax created
  budget := c.budget.map (.new · created)
  breaker := c.breaker.map .new

/-- An event of a call, with the delay that the limiter answers if the event asks for a slot. -/
abbrev Occurrence (σ A : Type) := Event σ CircuitAttempt A × ℕ

def limiterCall (e : ℕ × Occurrence σ A) : Option (ℕ × RateLimit.Call) :=
  match e.2.1 with
  | .limiterCalled call => some (e.1, call)
  | _ => none

def limiterAgrees (e : ℕ × Occurrence σ A) : RateLimit.Answer → Bool
  | .delay delay => delay = e.2.2
  | .scope _ => !e.2.1.asksForSlot

/-- A retry that the budget refuses shows as the failure of the request. -/
def budgetCall (e : ℕ × Occurrence σ A) : Option BudgetCall :=
  match e.2.1 with
  | .tokenTaken | .failed _ (.retryBudgetExhausted _ _) => some (.tryConsumeRetry e.1)
  | .successCredited => some (.recordSuccess e.1)
  | _ => none

def budgetAgrees (e : ℕ × Occurrence σ A) (entry : BudgetEntry) : Bool :=
  match e.2.1 with
  | .tokenTaken => entry.answer = .granted
  | .failed _ _ => entry.answer = .refused
  | _ => entry.answer = .recorded

/-- An attempt that the breaker refuses changes nothing in it, and shows in no event of its own. -/
def breakerCall (e : ℕ × Occurrence σ A) : Option BreakerCall :=
  match e.2.1 with
  | .begun (.circuit _) => some (.begin e.1)
  | .ended (.circuit attempt) ending => some (.finish attempt ending e.1)
  | _ => none

def breakerAgrees (e : ℕ × Occurrence σ A) (answer : BreakerAnswer) : Bool :=
  match e.2.1, answer with
  | .begun (.circuit attempt), .granted granted => granted = attempt
  | .begun (.circuit _), _ => false
  | _, _ => true

abbrev followLimiter (l : RateLimit.RateLimiter) (e : ℕ × Occurrence σ A) :=
  RateLimit.RateLimiter.machine.follow limiterCall limiterAgrees l e

abbrev followBudget (b : RetryBudget) (e : ℕ × Occurrence σ A) :=
  RetryBudget.machine.follow budgetCall budgetAgrees b e

abbrev followBreaker (b : CircuitBreaker) (e : ℕ × Occurrence σ A) :=
  CircuitBreaker.machine.follow breakerCall breakerAgrees b e

/-- The controls after an event, or nothing if they do not answer as the call goes on. A control
that is not configured lets everything happen. -/
def Controls.follow (s : Controls) (e : ℕ × Occurrence σ A) : Option Controls := do
  let limiter ← s.limiter.mapM fun l ↦ followLimiter l e
  let budget ← s.budget.mapM fun b ↦ followBudget b e
  let breaker ← s.breaker.mapM fun b ↦ followBreaker b e
  return ⟨limiter, budget, breaker⟩

/-- A control has answered all the events of a history. -/
def Replays {S E : Type} (follow : S → E → Option S) (start : Option S) (history : List E)
    (s : Option S) : Prop :=
  start.mapM (fun first ↦ history.foldlM follow first) = some s

theorem replays_nil {S E : Type} (follow : S → E → Option S) (start : Option S) :
    Replays follow start [] start := by
  cases start <;> rfl

theorem Replays.concat {S E : Type} {follow : S → E → Option S} {start s s' : Option S}
    {history : List E} {e : E} (h : Replays follow start history s)
    (hfollow : s.mapM (fun last ↦ follow last e) = some s') :
    Replays follow start (history ++ [e]) s' := by
  cases start with
  | none =>
    cases Option.some.inj h
    exact hfollow
  | some first =>
    obtain ⟨last, hlast, rfl⟩ := Option.map_eq_some_iff.mp h
    obtain ⟨next, hnext, rfl⟩ := Option.map_eq_some_iff.mp hfollow
    have hnext' : (history ++ [e]).foldlM follow first = some next := by
      simpa [List.foldlM_append, hlast] using hnext
    exact Option.map_eq_some_iff.mpr ⟨next, hnext', rfl⟩

/-- The controls have answered all the events of a history. -/
structure Controls.Replayed (start : Controls) (history : List (ℕ × Occurrence σ A))
    (s : Controls) : Prop where
  limiter : Replays followLimiter start.limiter history s.limiter
  budget : Replays followBudget start.budget history s.budget
  breaker : Replays followBreaker start.breaker history s.breaker

theorem Controls.Replayed.concat {start s s' : Controls} {history : List (ℕ × Occurrence σ A)}
    {e : ℕ × Occurrence σ A} (h : start.Replayed history s) (hfollow : s.follow e = some s') :
    start.Replayed (history ++ [e]) s' := by
  simp only [Controls.follow, Option.bind_eq_bind, Option.bind_eq_some_iff] at hfollow
  obtain ⟨limiter, hlimiter, budget, hbudget, breaker, hbreaker, hs'⟩ := hfollow
  cases hs'
  exact ⟨h.limiter.concat hlimiter, h.budget.concat hbudget, h.breaker.concat hbreaker⟩

/-! ## The system -/

/-- A call, the phase it is in once its `pending` events have happened, and those events. -/
structure SharedCall (σ A : Type) where
  mode : ResponseMode
  input : RetryRequestInput σ
  phase : Phase σ CircuitAttempt A
  pending : List (Occurrence σ A)

namespace SharedCall

/-- The call goes on, once what it did so far has happened. -/
def perform (k : SharedCall σ A) (waits : List (ℕ × ℕ))
    (y : Phase σ CircuitAttempt A → Logged (Event σ CircuitAttempt A) (Phase σ CircuitAttempt A)) :
    SharedCall σ A :=
  match k.pending with
  | [] => { k with phase := (y k.phase).value, pending := answered waits (y k.phase).events }
  | _ :: _ => k

end SharedCall

structure SharedClient (σ A : Type) where
  clock : ℕ
  controls : Controls
  calls : List (SharedCall σ A)
  /-- What has happened: the call, the time and the event. -/
  history : List (ℕ × ℕ × Occurrence σ A)

inductive SharedOp (σ A : Type) where
  | start (mode : ResponseMode) (input : RetryRequestInput σ)
  | turn (index : ℕ) (t : Turn CircuitAttempt A)
  | complete (index : ℕ) (outcome : StreamOutcome)
  | advance (index : ℕ) (elapsed : ℕ)

namespace SharedClient

variable (rt : Runtime) (c : ControlledClient)

def initial (created : ℕ) : SharedClient σ A := ⟨created, c.controls created, [], []⟩

def update (s : SharedClient σ A) (index : ℕ) (change : SharedCall σ A → SharedCall σ A) :
    SharedClient σ A :=
  match s.calls[index]? with
  | none => s
  | some k => { s with calls := s.calls.set index (change k) }

/-- The next event of a call happens after this time, if the controls agree. -/
def advance (s : SharedClient σ A) (index elapsed : ℕ) : SharedClient σ A :=
  match s.calls[index]? with
  | none => s
  | some k =>
    match k.pending with
    | [] => s
    | o :: rest =>
      match s.controls.follow (s.clock + elapsed, o) with
      | none => s
      | some controls =>
        { clock := s.clock + elapsed
          controls
          calls := s.calls.set index { k with pending := rest }
          history := s.history ++ [(index, s.clock + elapsed, o)] }

def step (s : SharedClient σ A) : SharedOp σ A → SharedClient σ A
  | .start mode input =>
    { s with calls := s.calls ++ [⟨mode, input, Driver.start c.client input s.clock, []⟩] }
  | .turn index t =>
    s.update index fun k ↦ k.perform t.limiterWaits (pass rt c.client k.mode t)
  | .complete index outcome => s.update index fun k ↦ k.perform [] (Phase.complete outcome)
  | .advance index elapsed => s.advance index elapsed

def run (created : ℕ) (ops : List (SharedOp σ A)) : SharedClient σ A :=
  ops.foldl (step rt c) (initial c created)

end SharedClient

/-! ## What a call has done -/

section Reached

variable {rt : Runtime} {c : ControlledClient}

/-- What a call has done by the time it reaches a phase. -/
inductive Reached (rt : Runtime) (c : ControlledClient) (mode : ResponseMode)
    (input : RetryRequestInput σ) :
    List (Occurrence σ A) → Phase σ CircuitAttempt A → Prop
  | start (requestStartedAt : ℕ) :
      Reached rt c mode input [] (Driver.start c.client input requestStartedAt)
  | turn {os : List (Occurrence σ A)} {phase : Phase σ CircuitAttempt A}
      (h : Reached rt c mode input os phase) (t : Turn CircuitAttempt A) :
      Reached rt c mode input
        (os ++ answered t.limiterWaits (pass rt c.client mode t phase).events)
        (pass rt c.client mode t phase).value
  | complete {os : List (Occurrence σ A)} {phase : Phase σ CircuitAttempt A}
      (h : Reached rt c mode input os phase) (outcome : StreamOutcome) :
      Reached rt c mode input (os ++ answered [] (phase.complete outcome).events)
        (phase.complete outcome).value

theorem Phase.complete_cases {C : Type} (outcome : StreamOutcome) (phase : Phase σ C A) :
    phase.complete outcome = pure phase ∨ ∃ x returned,
      phase = .finished ⟨x, .stream returned⟩ ∧ returned.lifecycle.completed = false := by
  rcases phase with s | ⟨x, error | ⟨status, headers, body⟩ | returned | _⟩
  · exact .inl rfl
  · exact .inl rfl
  · exact .inl rfl
  · cases hopen : returned.lifecycle.completed with
    | false => exact .inr ⟨x, returned, rfl, hopen⟩
    | true =>
      have hkept : returned.lifecycle.complete outcome =
          (pure returned.lifecycle : Logged (Event σ C A) _) := if_pos hopen
      left
      unfold Phase.complete
      dsimp only
      rw [hkept]
      rfl
  · exact .inl rfl

/-- A stream that ends only ends its guards, and may credit the budget. -/
theorem late_complete {C : Type} (outcome : StreamOutcome) (phase : Phase σ C A) :
    (phase.complete outcome).All Late := by
  have hlifecycle (l : StreamLifecycle C A) :
      (l.complete outcome : Logged (Event σ C A) _).All Late := by
    unfold StreamLifecycle.complete
    split
    · exact all_pure _
    split
    · exact all_pure _
    next hooks hhooks =>
      refine All.bind ?_ fun _ ↦ all_pure _
      unfold StreamResilienceHooks.complete
      have hguards (g : AttemptGuards C A) : (do
          let attempts ← g.finish outcome.ending
          let _ ← attempts.drop
          return () : Logged (Event σ C A) Unit).All Late :=
        (late_finish _).bind fun _ ↦ (late_finish _).bind fun _ ↦ all_pure _
      split
      · exact (late_tell rfl).bind fun _ ↦ hguards _
      · exact hguards _
  unfold Phase.complete
  split
  · exact (hlifecycle _).bind fun _ ↦ all_pure _
  · exact all_pure _

/-- The readings of the clock never decrease, and none is after the last one. -/
structure Timely (created last : ℕ) (times : List ℕ) : Prop where
  ordered : (created :: times).Pairwise (· ≤ ·)
  le_last : ∀ time ∈ created :: times, time ≤ last

theorem Timely.concat {created last next : ℕ} {times : List ℕ} (h : Timely created last times)
    (hnext : last ≤ next) : Timely created next (times ++ [next]) := by
  have hle : ∀ time ∈ created :: times, time ≤ next := fun time htime ↦
    (h.le_last time htime).trans hnext
  constructor
  · rw [← List.cons_append, List.pairwise_append]
    exact ⟨h.ordered, List.pairwise_singleton _ _, fun time htime ↦
      List.forall_mem_singleton.mpr (hle time htime)⟩
  · rw [← List.cons_append]
    exact List.forall_mem_append.mpr ⟨hle, List.forall_mem_singleton.mpr le_rfl⟩

namespace SharedClient

/-- What was done by the call with this index. -/
def doneBy (s : SharedClient σ A) (index : ℕ) : List (Occurrence σ A) :=
  (project s.history index).map Prod.snd

def times (s : SharedClient σ A) : List ℕ := s.history.map fun e ↦ e.2.1

structure Ok (rt : Runtime) (c : ControlledClient) (created : ℕ) (s : SharedClient σ A) :
    Prop where
  owned : ∀ e ∈ s.history, e.1 < s.calls.length
  timely : Timely created s.clock s.times
  replayed : (c.controls created).Replayed (s.history.map Prod.snd) s.controls
  reached : ∀ (index : ℕ) (k : SharedCall σ A), s.calls[index]? = some k →
    Reached rt c k.mode k.input (s.doneBy index ++ k.pending) k.phase

variable {created : ℕ} {s : SharedClient σ A}

theorem ok_initial : Ok rt c created (initial c created : SharedClient σ A) where
  owned e he := by cases he
  timely := ⟨List.pairwise_singleton _ _, List.forall_mem_singleton.mpr le_rfl⟩
  replayed := ⟨replays_nil _ _, replays_nil _ _, replays_nil _ _⟩
  reached i k hk := by cases hk

theorem Ok.update (h : Ok rt c created s) (index : ℕ) {change : SharedCall σ A → SharedCall σ A}
    (hchange : ∀ k os, Reached rt c k.mode k.input (os ++ k.pending) k.phase →
      Reached rt c (change k).mode (change k).input (os ++ (change k).pending) (change k).phase) :
    Ok rt c created (s.update index change) := by
  unfold SharedClient.update
  split
  · exact h
  next k hk =>
    refine ⟨fun e he ↦ ?_, h.timely, h.replayed, fun i k' hk' ↦ ?_⟩
    · rw [List.length_set]
      exact h.owned e he
    · rw [List.getElem?_set] at hk'
      split at hk'
      next hindex =>
        subst hindex
        split at hk'
        · cases hk'
          exact hchange k _ (h.reached index k hk)
        · cases hk'
      · exact h.reached i k' hk'

theorem Reached.perform {k : SharedCall σ A} {os : List (Occurrence σ A)} {waits : List (ℕ × ℕ)}
    {y : Phase σ CircuitAttempt A →
      Logged (Event σ CircuitAttempt A) (Phase σ CircuitAttempt A)}
    (hy : ∀ {os : List (Occurrence σ A)} {phase}, Reached rt c k.mode k.input os phase →
      Reached rt c k.mode k.input (os ++ answered waits (y phase).events) (y phase).value)
    (h : Reached rt c k.mode k.input (os ++ k.pending) k.phase) :
    Reached rt c (k.perform waits y).mode (k.perform waits y).input
      (os ++ (k.perform waits y).pending) (k.perform waits y).phase := by
  obtain ⟨mode, input, phase, pending⟩ := k
  cases pending with
  | nil =>
    rw [List.append_nil] at h
    exact hy h
  | cons o rest => exact h

theorem Ok.advance (h : Ok rt c created s) (index elapsed : ℕ) :
    Ok rt c created (s.advance index elapsed) := by
  unfold SharedClient.advance
  split
  · exact h
  next k hk =>
    split
    · exact h
    next o rest hpending =>
      split
      · exact h
      next controls hcontrols =>
        have hsize : index < s.calls.length := (List.getElem?_eq_some_iff.mp hk).1
        constructor
        case owned =>
          rw [List.length_set]
          exact List.forall_mem_append.mpr ⟨h.owned, List.forall_mem_singleton.mpr hsize⟩
        case timely =>
          have htimes := h.timely.concat (Nat.le_add_right s.clock elapsed)
          simpa only [times, List.map_append, List.map_singleton] using htimes
        case replayed =>
          rw [List.map_append]
          exact h.replayed.concat hcontrols
        case reached =>
          intro i k' hk'
          rw [List.getElem?_set] at hk'
          by_cases hindex : index = i
          · subst hindex
            rw [if_pos rfl, if_pos hsize] at hk'
            cases hk'
            have hreached := h.reached index k hk
            rw [hpending] at hreached
            simpa [doneBy, project] using hreached
          · rw [if_neg hindex] at hk'
            have hreached := h.reached i k' hk'
            simpa [doneBy, project, hindex] using hreached

theorem Ok.step (h : Ok rt c created s) (op : SharedOp σ A) : Ok rt c created (s.step rt c op) := by
  cases op with
  | start mode input =>
    refine ⟨fun e he ↦ ?_, h.timely, h.replayed, fun i k hk ↦ ?_⟩
    · have hlt := h.owned e he
      simp only [SharedClient.step, List.length_append]
      omega
    · simp only [SharedClient.step, List.getElem?_append] at hk
      split at hk
      · exact h.reached i k hk
      next hsize =>
        -- A call that has just started has done nothing yet.
        have hnew : k = ⟨mode, input, Driver.start c.client input s.clock, []⟩ :=
          List.mem_singleton.mp (List.mem_of_getElem? hk)
        subst hnew
        have hnothing : project s.history i = [] := by
          rw [project, List.map_eq_nil_iff, List.filter_eq_nil_iff]
          intro e he hi
          exact hsize (of_decide_eq_true hi ▸ h.owned e he)
        have hstart : Reached rt c mode input ([] : List (Occurrence σ A))
            (Driver.start c.client input s.clock) := .start s.clock
        simpa [doneBy, SharedClient.step, hnothing] using hstart
  | turn index t =>
    exact h.update index fun k os hk ↦ Reached.perform (fun hreached ↦ hreached.turn t) hk
  | complete index outcome =>
    exact h.update index fun k os hk ↦
      Reached.perform (fun hreached ↦ hreached.complete outcome) hk
  | advance index elapsed => exact h.advance index elapsed

theorem ok_run (created : ℕ) (ops : List (SharedOp σ A)) :
    Ok rt c created (run rt c created ops) := by
  induction ops using List.reverseRecOn with
  | nil => exact ok_initial
  | append_singleton ops op ih =>
    rw [run, List.foldl_append]
    exact ih.step op

end SharedClient

end Reached

/-! ## A small client -/

namespace Sample

theorem standard_budget_valid : RetryBudgetPolicy.standard.validate = .ok () := by
  rw [RetryBudgetPolicy.validate, if_neg (by decide), if_neg]
  rw [not_not, RetryBudgetPolicy.standard]
  norm_num

theorem standard_breaker_valid : CircuitBreakerPolicy.standard.validate = .ok () := by
  decide

/-- The client of the sample calls with the standard policies. -/
def controlled : ControlledClient where
  client := { client with rateLimiter := some ⟨true, true⟩ }
  limits := .standard
  budget := some .standard
  breaker := some .standard
  retryBudget_eq := rfl
  circuitBreaker_eq := rfl
  rateLimiter_eq := rfl
  limits_valid := RateLimit.Limits.standard_valid
  budget_valid := by
    rintro policy ⟨⟩
    exact standard_budget_valid
  breaker_valid := by
    rintro policy ⟨⟩
    exact standard_breaker_valid

def sharedTurn (transport : TransportAnswer) : Turn CircuitAttempt Unit :=
  { circuit := .ok ⟨0, .closed, false⟩, adaptive := (), transport }

/-- One call whose passes are answered like this, with a millisecond between its events. -/
def sharedOps (answers : List TransportAnswer) : List (SharedOp Unit Unit) :=
  .start .buffered (call .get .default).input ::
    answers.flatMap fun answer ↦
      .turn 0 (sharedTurn answer) :: List.replicate 12 (.advance 0 (fromMillis 1))

def tooManyRequests : TransportAnswer :=
  .response ⟨429, by decide⟩ ⟨[(.retryAfter, .ofString "2")]⟩

def unavailable : TransportAnswer := .response serviceUnavailable .empty

end Sample

end Reqx.Driver
