import Reqx.Driver.Permits

/-!
# Returned streams and the adaptive controller

Any number of calls share one client and its adaptive controller. The events of
a call happen one at a time, in any order with those of the others; the ones
about its permit change the state of the controller. A call that has returned a
stream stays in the system until the stream has ended.
-/

namespace Reqx.Driver

open Resilience

variable {σ C A F : Type}

/-- A returned stream reaches its end, fails or is dropped. -/
def Phase.complete (outcome : StreamOutcome) :
    Phase σ C A → Logged (Event σ C A) (Phase σ C A)
  | .finished ⟨x, .stream returned⟩ => do
    let lifecycle ← returned.lifecycle.complete outcome
    return .finished ⟨x, .stream { returned with lifecycle }⟩
  | phase => return phase

/-- A call, the phase it reaches when its `pending` events have happened, and those events. -/
structure Caller (σ C : Type) where
  mode : ResponseMode
  input : RetryRequestInput σ
  phase : Phase σ C LivePermit
  pending : List (Event σ C LivePermit)

namespace Caller

/-- The stream that the caller has been given and that has not ended. -/
def unfinished (k : Caller σ C) : Option (StreamResponse C LivePermit) :=
  match k.phase, k.pending with
  | .finished ⟨_, .stream returned⟩, [] =>
    if returned.lifecycle.completed then none else some returned
  | _, _ => none

/-- The permits that the call holds between two events. -/
def live (k : Caller σ C) : ℕ := ends k.pending + permits k.phase.held - begins k.pending

/-- A status that `RequestCompletion` takes for a success. -/
def Credits (k : Caller σ C) (status : StatusCode) : Prop :=
  status.isSuccess = true ∨
    k.input.executionOptions.retryPolicy.isRetryableStatus status = false

/-- The call goes on to another phase, once what it did so far has happened. -/
def perform (k : Caller σ C)
    (y : Phase σ C LivePermit → Logged (Event σ C LivePermit) (Phase σ C LivePermit)) :
    Caller σ C :=
  match k.pending with
  | [] => { k with phase := (y k.phase).value, pending := (y k.phase).events }
  | _ :: _ => k

def turn (rt : Runtime) (c : Client) (k : Caller σ C) (t : Turn C LivePermit) : Caller σ C :=
  k.perform (pass rt c k.mode t)

def complete (k : Caller σ C) (outcome : StreamOutcome) : Caller σ C :=
  k.perform (Phase.complete outcome)

end Caller

structure AdaptiveSystem (σ C F : Type) where
  state : AdaptiveConcurrencyState F
  callers : List (Caller σ C)

inductive AdaptiveOp (σ C : Type) where
  | start (mode : ResponseMode) (input : RetryRequestInput σ) (requestStartedAt : ℕ)
  | turn (index : ℕ) (t : Turn C LivePermit)
  | advance (index : ℕ) (now : ℕ)
  | complete (index : ℕ) (outcome : StreamOutcome)

section System

variable (f : F64 F) (policy : AdaptiveConcurrencyPolicy F) (rt : Runtime) (c : Client)

/-- The state after an event, or nothing if the permit it begins is not granted now. -/
def Event.apply (e : Event σ C LivePermit) (now : ℕ) (s : AdaptiveConcurrencyState F) :
    Option (AdaptiveConcurrencyState F) :=
  match e with
  | .begun (.adaptive p) =>
    match s.acquire now with
    | (some granted, s') => if granted = p.val then some s' else none
    | (none, _) => none
  | .ended (.adaptive p) ending => some (p.val.finish f policy now s ending)
  | _ => some s

/-- The next pending event of the call happens, if it can. -/
def Caller.advance (now : ℕ) (state : AdaptiveConcurrencyState F) (k : Caller σ C) :
    Option (AdaptiveConcurrencyState F × Caller σ C) :=
  match k.pending with
  | [] => none
  | e :: rest => (e.apply f policy now state).map (·, { k with pending := rest })

namespace AdaptiveSystem

def initial : AdaptiveSystem σ C F := ⟨.new f policy, []⟩

def update (s : AdaptiveSystem σ C F) (index : ℕ)
    (change : AdaptiveConcurrencyState F → Caller σ C →
      Option (AdaptiveConcurrencyState F × Caller σ C)) : AdaptiveSystem σ C F :=
  match s.callers[index]? with
  | none => s
  | some k =>
    match change s.state k with
    | none => s
    | some (state, k') => ⟨state, s.callers.set index k'⟩

def step (s : AdaptiveSystem σ C F) : AdaptiveOp σ C → AdaptiveSystem σ C F
  | .start mode input requestStartedAt =>
    { s with callers := s.callers ++ [⟨mode, input, Driver.start c input requestStartedAt, []⟩] }
  | .turn index t => s.update index fun state k ↦ some (state, k.turn rt c t)
  | .advance index now => s.update index (Caller.advance f policy now)
  | .complete index outcome => s.update index fun state k ↦ some (state, k.complete outcome)

def run (ops : List (AdaptiveOp σ C)) : AdaptiveSystem σ C F :=
  ops.foldl (step f policy rt c) (initial f policy)

def unfinished (s : AdaptiveSystem σ C F) : ℕ := s.callers.countP (·.unfinished.isSome)

end AdaptiveSystem

/-! ## What a call keeps -/

/-- What a call does on its way to the next phase. -/
structure Kept (phase : Phase σ C A) (es : List (Event σ C A)) (phase' : Phase σ C A) : Prop where
  options : phase'.execution.options = phase.execution.options
  covered : Covered (permits phase'.held) es
  balance : permits phase.held + begins es = ends es + permits phase'.held
  holds : HoldsIfCreditable phase → HoldsIfCreditable phase'

theorem Kept.refl (phase : Phase σ C A) : Kept phase [] phase := by
  refine ⟨rfl, ?_, Nat.add_comm _ _, id⟩
  intro rest hrest
  rw [List.suffix_nil.mp hrest]
  exact Nat.zero_le _

theorem pass_kept {rt c} (hcontrolled : c.adaptiveConcurrency = true) (mode : ResponseMode)
    (t : Turn C A) (phase : Phase σ C A) : (pass rt c mode t phase).Ensures (Kept phase) := by
  cases phase with
  | finished finish => exact .refl _
  | running s =>
    have hpassed : Tallies (pass rt c mode t (.running s)) _ := pass_running_spec s
    apply (Logged.Ensures.and hpassed (pass_ordered s)).mono
    rintro es phase' ⟨hpassed, hordered⟩
    have hsum := hpassed.permits_eq
    rw [permits_begun_tally, permits_ended_tally] at hsum
    refine ⟨hpassed.options_eq, ?_, (Nat.zero_add _).trans hsum, fun _ ↦ ?_⟩
    · obtain ⟨before, after, rfl, hbefore, hafter⟩ := hordered.split
      exact covered_append hbefore hafter hsum
    · refine hpassed.holds fun x returned hphase ↦ ?_
      rw [permits_begun_tally]
      exact hordered.stream x returned hphase hcontrolled

/-- The stream gives back what it holds with its first completion. -/
theorem complete_kept (outcome : StreamOutcome) (phase : Phase σ C A) :
    (phase.complete outcome).Ensures (Kept phase) := by
  rcases phase with s | ⟨x, error | ⟨status, headers, body⟩ | returned | _⟩
  · exact .refl _
  · exact .refl _
  · exact .refl _
  · cases hopen : returned.lifecycle.completed with
    | true =>
      have hkept : returned.lifecycle.complete outcome =
          (pure returned.lifecycle : Logged (Event σ C A) _) := by
        unfold StreamLifecycle.complete
        rw [if_pos hopen]
      unfold Phase.complete
      dsimp only
      rw [hkept]
      exact .refl _
    | false =>
      have hdone := StreamLifecycle.complete_spec (σ := σ) hopen outcome
      apply Logged.Ensures.bind hdone
      rintro es lifecycle ⟨rfl, credits, hes, -⟩
      have hbegins : begins es = 0 := by
        rw [← permits_begun_tally, hes]
        rfl
      have hends : ends es = permits returned.lifecycle.held := by
        rw [← permits_ended_tally, hes]
        simp [Tally.guardsEnded, Function.comp_def]
      apply Logged.ensures_pure.mpr
      rw [List.append_nil]
      refine ⟨rfl, ?_, ?_, ?_⟩
      · intro rest hrest
        have hnone : begins rest ≤ begins es := hrest.countP_le
        omega
      · change permits returned.lifecycle.held + begins es = ends es + 0
        omega
      · intro _ x' returned' hphase hclosed
        cases hphase
        cases hclosed
  · exact .refl _

namespace Caller

structure Ok (k : Caller σ C) : Prop where
  options : k.phase.execution.options = k.input.executionOptions
  covered : Covered (permits k.phase.held) k.pending
  holds : HoldsIfCreditable k.phase

variable {k : Caller σ C}

theorem ok_start (c : Client) (mode : ResponseMode) (input : RetryRequestInput σ)
    (requestStartedAt : ℕ) :
    Ok (⟨mode, input, Driver.start c input requestStartedAt, []⟩ : Caller σ C) := by
  refine ⟨rfl, (Kept.refl _).covered, ?_⟩
  intro x returned h
  cases h

theorem perform_spec
    {y : Phase σ C LivePermit → Logged (Event σ C LivePermit) (Phase σ C LivePermit)}
    (hy : (y k.phase).Ensures (Kept k.phase)) (hk : k.Ok) :
    (k.perform y).Ok ∧ (k.perform y).live = k.live := by
  obtain ⟨mode, input, phase, pending⟩ := k
  cases pending with
  | cons e rest => exact ⟨hk, rfl⟩
  | nil =>
    refine ⟨⟨hy.options.trans hk.options, hy.covered, hy.holds hk.holds⟩, ?_⟩
    have hbalance := hy.balance
    change ends (y phase).events + permits (y phase).value.held - begins (y phase).events =
      0 + permits phase.held - 0
    dsimp only at hbalance
    omega

/-- A stream that the caller has been given holds its permit if it can be credited. -/
theorem Ok.unfinished (hk : k.Ok) {returned : StreamResponse C LivePermit}
    (h : k.unfinished = some returned) :
    k.live = permits returned.lifecycle.held ∧
      (permits returned.lifecycle.held = 1 ↔ k.Credits returned.status) := by
  obtain ⟨mode, input, phase, pending⟩ := k
  unfold Caller.unfinished at h
  split at h
  next x returned' hphase hpending =>
    obtain rfl : phase = _ := hphase
    obtain rfl : pending = _ := hpending
    split at h
    · cases h
    next hopen =>
      cases h
      refine ⟨Nat.zero_add _, ?_⟩
      rw [hk.holds x returned rfl (Bool.eq_false_of_not_eq_true hopen), Creditable]
      have hoptions : x.options = input.executionOptions := hk.options
      rw [hoptions]
      rfl
  · cases h

end Caller

/-! ## What the controller counts -/

variable {f policy}

theorem Event.apply_spec {e : Event σ C LivePermit} {now : ℕ} {s s' : AdaptiveConcurrencyState F}
    (hs : s.Fits) (h : e.apply f policy now s = some s') :
    s'.Fits ∧ s'.inFlight = s.inFlight + begins [e] - ends [e] := by
  unfold Event.apply at h
  split at h
  next p =>
    split at h
    next granted s₁ hacquire =>
      split at h
      · cases h
        obtain ⟨hcount, -, hfits⟩ := AdaptiveConcurrencyState.acquire_spec hs hacquire
        exact ⟨hfits, hcount⟩
      · cases h
    · cases h
  next p ending =>
    cases h
    obtain ⟨hcount, hfits⟩ := p.finish_spec f policy ending now hs
    exact ⟨hfits, hcount⟩
  next hbegun hended =>
    cases h
    refine ⟨hs, ?_⟩
    have hquiet : begins [e] = 0 ∧ ends [e] = 0 := by
      rcases e with _ | _ | _ | (_ | p) | _ | ⟨_ | p, ending⟩ | _ | _ | _ | _ | _ | _ | _ | _
      case begun.adaptive => exact absurd rfl (hbegun p)
      case ended.adaptive => exact absurd rfl (hended p ending)
      all_goals exact ⟨rfl, rfl⟩
    rw [hquiet.1, hquiet.2]
    rfl

/-- Between two states in which it holds, the counter follows the permits of the call. -/
structure Follows (state : AdaptiveConcurrencyState F) (k : Caller σ C)
    (state' : AdaptiveConcurrencyState F) (k' : Caller σ C) : Prop where
  fits : state'.Fits
  ok : k'.Ok
  count : state'.inFlight + k.live = state.inFlight + k'.live

theorem Caller.advance_spec {k k' : Caller σ C} {now : ℕ}
    {state state' : AdaptiveConcurrencyState F} (hfits : state.Fits) (hk : k.Ok)
    (hlive : k.live ≤ state.inFlight) (h : k.advance f policy now state = some (state', k')) :
    Follows state k state' k' := by
  obtain ⟨mode, input, phase, pending⟩ := k
  cases pending with
  | nil => cases h
  | cons e rest =>
    obtain ⟨state₁, happly, heq⟩ := Option.map_eq_some_iff.mp h
    cases heq
    obtain ⟨hfits', hcount⟩ := Event.apply_spec hfits happly
    have hnow : begins (e :: rest) ≤ ends (e :: rest) + permits phase.held :=
      hk.covered _ List.suffix_rfl
    have hrest : begins rest ≤ ends rest + permits phase.held :=
      hk.covered _ (List.suffix_cons e rest)
    have hbegins : begins (e :: rest) = begins [e] + begins rest := begins_append [e] rest
    have hends : ends (e :: rest) = ends [e] + ends rest := ends_append [e] rest
    refine ⟨hfits', ⟨hk.options, fun tail htail ↦ ?_, hk.holds⟩, ?_⟩
    · exact hk.covered tail (htail.trans (List.suffix_cons e rest))
    · unfold Caller.live at hlive ⊢
      dsimp only at hlive ⊢
      omega

namespace AdaptiveSystem

variable {rt c} {s : AdaptiveSystem σ C F}

structure Ok (s : AdaptiveSystem σ C F) : Prop where
  fits : s.state.Fits
  count : s.state.inFlight = Shares.total Caller.live s.callers
  callers : ∀ k ∈ s.callers, k.Ok

theorem Ok.update (hs : s.Ok) {index : ℕ}
    {change : AdaptiveConcurrencyState F → Caller σ C →
      Option (AdaptiveConcurrencyState F × Caller σ C)}
    (hchange : ∀ k state' k', k.Ok → k.live ≤ s.state.inFlight →
      change s.state k = some (state', k') → Follows s.state k state' k') :
    (s.update index change).Ok := by
  unfold AdaptiveSystem.update
  split
  · exact hs
  next k hindex =>
    split
    · exact hs
    next state' k' hstep =>
      have hlive : k.live ≤ s.state.inFlight := hs.count ▸ Shares.share_le_total hindex
      obtain ⟨hfits, hok, hcount⟩ :=
        hchange k state' k' (hs.callers k (List.mem_of_getElem? hindex)) hlive hstep
      refine ⟨hfits, ?_, fun other hother ↦ ?_⟩
      · have htotal := Shares.total_set Caller.live hindex k'
        have hbefore := hs.count
        dsimp only
        omega
      · rcases List.mem_or_eq_of_mem_set hother with hmem | rfl
        · exact hs.callers other hmem
        · exact hok

theorem Ok.perform (hs : s.Ok) (index : ℕ)
    {y : Caller σ C → Phase σ C LivePermit →
      Logged (Event σ C LivePermit) (Phase σ C LivePermit)}
    (hy : ∀ k, (y k k.phase).Ensures (Kept k.phase)) :
    (s.update index fun state k ↦ some (state, k.perform (y k))).Ok := by
  apply hs.update
  rintro k state' k' hk - hstep
  cases hstep
  obtain ⟨hok, hlive⟩ := Caller.perform_spec (hy k) hk
  exact ⟨hs.fits, hok, congrArg (s.state.inFlight + ·) hlive.symm⟩

theorem Ok.step (hcontrolled : c.adaptiveConcurrency = true) (hs : s.Ok) (op : AdaptiveOp σ C) :
    (s.step f policy rt c op).Ok := by
  cases op with
  | start mode input requestStartedAt =>
    refine ⟨hs.fits, ?_, fun k hk ↦ ?_⟩
    · have hnone : (⟨mode, input, Driver.start c input requestStartedAt, []⟩ :
          Caller σ C).live = 0 := rfl
      simp only [AdaptiveSystem.step, Shares.total_append, Shares.total_cons,
        Shares.total_nil, hnone]
      exact hs.count
    · rcases List.mem_append.mp hk with hk | hk
      · exact hs.callers k hk
      · rw [List.mem_singleton.mp hk]
        exact Caller.ok_start c mode input requestStartedAt
  | turn index t =>
    exact hs.perform index fun k ↦ pass_kept hcontrolled k.mode t k.phase
  | advance index now =>
    exact hs.update fun k state' k' hk hlive hstep ↦
      Caller.advance_spec hs.fits hk hlive hstep
  | complete index outcome =>
    exact hs.perform index fun k ↦ complete_kept outcome k.phase

theorem ok_run (hcontrolled : c.adaptiveConcurrency = true) (ops : List (AdaptiveOp σ C)) :
    (run f policy rt c ops).Ok := by
  induction ops using List.reverseRecOn with
  | nil => exact ⟨AdaptiveConcurrencyState.fits_new f policy, rfl, fun k hk ↦ by cases hk⟩
  | append_singleton ops op ih =>
    rw [run, List.foldl_append]
    exact ih.step hcontrolled op

theorem Ok.unfinished_le (hs : s.Ok)
    (hcredits : ∀ k ∈ s.callers, ∀ returned, k.unfinished = some returned →
      k.Credits returned.status) : s.unfinished ≤ s.state.inFlight := by
  rw [hs.count]
  apply Shares.countP_le_total
  intro k hk hsome
  obtain ⟨returned, hreturned⟩ := Option.isSome_iff_exists.mp hsome
  obtain ⟨hlive, hholds⟩ := (hs.callers k hk).unfinished hreturned
  rw [hlive, hholds.mpr (hcredits k hk returned hreturned)]

end AdaptiveSystem

/-- A returned stream that has not ended holds its permit exactly when its status was not one
that is retried; so the controller counts every such stream. -/
theorem returned_streams_hold_permits_iff (f : F64 F) (policy : AdaptiveConcurrencyPolicy F)
    (rt : Runtime) {c : Client} (hcontrolled : c.adaptiveConcurrency = true)
    (ops : List (AdaptiveOp σ C)) :
    (∀ k ∈ (AdaptiveSystem.run f policy rt c ops).callers, ∀ returned,
      k.unfinished = some returned →
        (permits returned.lifecycle.held = 1 ↔ k.Credits returned.status)) ∧
    ((∀ k ∈ (AdaptiveSystem.run f policy rt c ops).callers, ∀ returned,
        k.unfinished = some returned → k.Credits returned.status) →
      (AdaptiveSystem.run f policy rt c ops).unfinished ≤
        (AdaptiveSystem.run f policy rt c ops).state.inFlight) := by
  have hok : (AdaptiveSystem.run f policy rt c ops).Ok := AdaptiveSystem.ok_run hcontrolled ops
  exact ⟨fun k hk returned h ↦ ((hok.callers k hk).unfinished h).2, hok.unfinished_le⟩

end System

/-! ## A stream of a retryable status -/

namespace Sample

def adaptivePolicy : AdaptiveConcurrencyPolicy ℚ where
  minLimit := 1
  initialLimit := 1
  maxLimit := 2
  increaseStep := 1
  decreaseRatio := 1 / 2
  highLatencyThreshold := fromSecs 1
  fits := by decide

def adaptiveClient : Client := { client with adaptiveConcurrency := true }

def streamInput : RetryRequestInput Unit :=
  { (call .post .default).input with
    executionOptions :=
      { (call .post .default).input.executionOptions with statusPolicy := .response } }

/-- One call in stream mode, whose only attempt is answered with this status. -/
def streamOps (status : StatusCode) : List (AdaptiveOp Unit ℕ) :=
  [.start .stream streamInput 0,
    .turn 0
      { circuit := .ok 0
        adaptive := ⟨⟨0, false⟩, rfl⟩
        transport := .response status .empty }] ++ List.replicate 16 (.advance 0 0)

def streamRun (status : StatusCode) : AdaptiveSystem Unit ℕ ℚ :=
  AdaptiveSystem.run .exact adaptivePolicy .async adaptiveClient (streamOps status)

end Sample

theorem returned_streams_hold_permits_ok :
    (Sample.streamRun Sample.ok).unfinished = 1 ∧
      (Sample.streamRun Sample.ok).unfinished ≤
        (Sample.streamRun Sample.ok).state.inFlight := by
  refine ⟨by decide +kernel, (returned_streams_hold_permits_iff .exact Sample.adaptivePolicy .async
    rfl (Sample.streamOps Sample.ok)).2 ?_⟩
  have hstatus : ∀ k ∈ (Sample.streamRun Sample.ok).callers,
      ∀ returned ∈ k.unfinished, returned.status.isSuccess = true := by
    decide +kernel
  exact fun k hk returned hreturned ↦ .inl (hstatus k hk returned hreturned)

/-- The permit of a 503 that is returned as a stream is given back before the stream is read. -/
theorem retryable_stream_without_permit :
    (Sample.streamRun Sample.serviceUnavailable).unfinished = 1 ∧
      (Sample.streamRun Sample.serviceUnavailable).state.inFlight = 0 := by
  decide +kernel

end Reqx.Driver
