import Reqx.Driver.Accounting
import Reqx.Library.Shares
import Reqx.Resilience.Adaptive

/-!
# Adaptive permits of one call

Which events of a log take an adaptive permit and which give one back. A pass
of the send loop has at most one, and gives back what it took unless it returns
a stream that holds it.
-/

namespace Reqx.Driver

open Resilience

variable {σ C A F : Type}

/-! ## Permits in a log -/

def Guard.isAdaptive : Guard C A → Bool
  | .adaptive _ => true
  | .circuit _ => false

def Event.beginsPermit : Event σ C A → Bool
  | .begun guard => guard.isAdaptive
  | _ => false

def Event.endsPermit : Event σ C A → Bool
  | .ended guard _ => guard.isAdaptive
  | _ => false

def permits (guards : List (Guard C A)) : ℕ := guards.countP Guard.isAdaptive

def begins (es : List (Event σ C A)) : ℕ := es.countP Event.beginsPermit

def ends (es : List (Event σ C A)) : ℕ := es.countP Event.endsPermit

@[simp] theorem begins_append (es es' : List (Event σ C A)) :
    begins (es ++ es') = begins es + begins es' := List.countP_append

@[simp] theorem ends_append (es es' : List (Event σ C A)) :
    ends (es ++ es') = ends es + ends es' := List.countP_append

@[simp] theorem permits_append (guards guards' : List (Guard C A)) :
    permits (guards ++ guards') = permits guards + permits guards' := List.countP_append

theorem permits_begun_tally (es : List (Event σ C A)) : permits (tally es).begun = begins es := by
  refine (List.countP_filterMap).trans (List.countP_congr fun e _ ↦ ?_)
  cases e <;> rfl

theorem permits_ended_tally (es : List (Event σ C A)) :
    permits ((tally es).ended.map Prod.fst) = ends es := by
  rw [permits, List.countP_map]
  refine (List.countP_filterMap).trans (List.countP_congr fun e _ ↦ ?_)
  cases e <;> rfl

/-- From any point on, the events end at least the permits that they begin, apart from
`kept` of them. -/
def Covered (kept : ℕ) (es : List (Event σ C A)) : Prop :=
  ∀ rest, rest <:+ es → begins rest ≤ ends rest + kept

theorem covered_append {before after : List (Event σ C A)} {kept : ℕ} (hbefore : ends before = 0)
    (hafter : begins after = 0)
    (hbalance : begins (before ++ after) = ends (before ++ after) + kept) :
    Covered kept (before ++ after) := by
  intro rest hrest
  have hall : begins rest ≤ begins (before ++ after) := hrest.countP_le
  rcases List.suffix_or_suffix_of_suffix hrest (List.suffix_append before after) with h | h
  · have hnone : begins rest ≤ begins after := h.countP_le
    omega
  · have hends : ends after ≤ ends rest := h.countP_le
    rw [ends_append] at hbalance
    omega

/-! ## One pass -/

def Phase.held : Phase σ C A → List (Guard C A)
  | .running _ => []
  | .finished f => f.outcome.held

section Pass

variable {rt : Runtime} {c : Client} {mode : ResponseMode} {t : Turn C A}
  {x : RequestExecutionState} {context : RequestContext} {g : AttemptGuards C A}

/-- An attempt that is admitted has its permit, and none has ended by then. -/
theorem beginAttempt_permits :
    Tallies (beginAttempt rt c t x context : Logged (Event σ C A) _) fun T result ↦
      permits (T.ended.map Prod.fst) = 0 ∧ ∀ g, result = .ok g →
        c.adaptiveConcurrency = true → permits T.begun = 1 := by
  unfold beginAttempt
  apply acquireRateLimitSlot_spec.bind
  rintro _ slot rfl
  cases slot with
  | error error => exact ⟨rfl, fun _ h ↦ by cases h⟩
  | ok granted =>
    dsimp only
    split
    · exact ⟨rfl, fun _ h ↦ by cases h⟩
    split
    · exact ⟨rfl, fun _ h ↦ by cases h⟩
    split
    · exact ⟨rfl, fun _ h ↦ by cases h⟩
    apply beginCircuitAttempt_spec.bind
    rintro T result (⟨error, rfl, rfl⟩ | ⟨circuit, rfl, rfl⟩)
    · exact ⟨rfl, fun _ h ↦ by cases h⟩
    dsimp only
    split
    · apply tallies_finish_bind.mpr
      cases circuit <;> exact ⟨rfl, fun _ h ↦ by cases h⟩
    apply beginAdaptiveAttempt_spec.bind
    rintro T result (⟨error, rfl, rfl⟩ | ⟨adaptive, rfl, hadaptive, rfl⟩)
    · apply tallies_finish_bind.mpr
      cases circuit <;> exact ⟨rfl, fun _ h ↦ by cases h⟩
    · refine ⟨rfl, fun _ _ hcontrolled ↦ ?_⟩
      rw [hcontrolled] at hadaptive
      cases adaptive with
      | none => cases hadaptive
      | some p => cases circuit <;> rfl

/-- A pass begins its permit before it ends any, and one that returns a stream has begun one. -/
structure Ordered (c : Client) (es : List (Event σ C A)) (phase : Phase σ C A) : Prop where
  split : ∃ before after, es = before ++ after ∧ ends before = 0 ∧ begins after = 0
  stream : ∀ x returned, phase = .finished ⟨x, .stream returned⟩ →
    c.adaptiveConcurrency = true → begins es = 1

theorem beginAttempt_not_stream :
    Tallies (beginAttempt rt c t x context : Logged (Event σ C A) _) fun _ result ↦
      ∀ outcome, result = .error outcome → outcome.isStream = false := by
  apply beginAttempt_spec.mono
  rintro T result hbegun outcome rfl
  cases hbegun <;> rfl

theorem ordered_of_ends {es : List (Event σ C A)} {x : RequestExecutionState}
    {outcome : Outcome C A} (hends : ends es = 0) (hstream : outcome.isStream = false) :
    Ordered c es (.finished ⟨x, outcome⟩ : Phase σ C A) := by
  refine ⟨⟨es, [], (List.append_nil es).symm, hends, rfl⟩, ?_⟩
  intro x returned h
  cases h
  cases hstream

theorem iterate_ordered (s : SendState σ) : (iterate rt c mode t s).Ensures (Ordered c) := by
  unfold iterate
  apply Logged.ensures_tell_bind.mpr
  apply (Logged.Ensures.and beginAttempt_permits beginAttempt_not_stream).bind
  rintro es result ⟨⟨hended, hadmitted⟩, hnotStream⟩
  rw [permits_ended_tally] at hended
  rw [permits_begun_tally] at hadmitted
  have hends : ends (.requestStarted s.execution.context :: es) = 0 :=
    (ends_append [.requestStarted s.execution.context] es).trans (by rw [hended]; rfl)
  cases result with
  | error outcome =>
    apply Logged.ensures_pure.mpr
    rw [List.append_nil]
    exact ordered_of_ends hends (hnotStream outcome rfl)
  | ok g =>
    have hdispatch : Tallies (dispatch rt c mode t s g) _ := dispatch_spec s
    apply Logged.Ensures.mono hdispatch
    rintro es' phase ⟨hbegun, -⟩
    have hbegins : begins es' = 0 := by
      rw [← permits_begun_tally, hbegun]
      rfl
    refine ⟨⟨_, es', rfl, hends, hbegins⟩, fun x returned _ hcontrolled ↦ ?_⟩
    change begins ([.requestStarted s.execution.context] ++ es ++ es') = 1
    rw [begins_append, begins_append, hadmitted g rfl hcontrolled, hbegins]
    rfl

theorem pass_ordered (s : SendState σ) : (pass rt c mode t (.running s)).Ensures (Ordered c) := by
  unfold pass
  dsimp only
  split
  · exact ordered_of_ends rfl rfl
  split
  · exact iterate_ordered s
  · exact ordered_of_ends rfl rfl

variable {s : SendState σ} {T : Tally σ C A} {phase : Phase σ C A}

/-- Every permit of a pass ends in it or is held by the stream that it returns. -/
theorem Passed.permits_eq (h : Passed rt c t s T phase) :
    permits T.begun = permits (T.ended.map Prod.fst) + permits phase.held := by
  cases h with
  | notSent g ending limit outcome houtcome =>
    have hheld : outcome.held = [] := by
      rcases houtcome with rfl | ⟨-, error, rfl⟩ <;> rfl
    simp [Phase.held, hheld, permits]
  | retried request g hrequest hroom => simp [Phase.held, permits]
  | redirected request g status headers action hrequest haction => simp [Phase.held, permits]
  | returned request g ended credits outcome hrequest hguards hmarks hfresh hcredits hkeeps =>
    rw [← permits_append]
    exact congrArg permits hguards.symm

/-- Of the streams that a pass returns, those that can be credited hold the permit. -/
def HoldsIfCreditable (phase : Phase σ C A) : Prop :=
  ∀ x returned, phase = .finished ⟨x, .stream returned⟩ →
    returned.lifecycle.completed = false →
      (permits returned.lifecycle.held = 1 ↔ Creditable x returned.status)

theorem Passed.holds (h : Passed rt c t s T phase)
    (hbegun : ∀ x returned,
      phase = .finished ⟨x, .stream returned⟩ → permits T.begun = 1) : HoldsIfCreditable phase := by
  rintro x returned rfl -
  have hone := hbegun x returned rfl
  cases h with
  | notSent g ending limit outcome houtcome =>
    rcases houtcome with houtcome | ⟨-, error, houtcome⟩ <;> cases houtcome
  | returned request g ended credits outcome hrequest hguards hmarks hfresh hcredits hkeeps =>
    constructor
    · intro hheld
      refine hfresh.2 ?_
      cases hhooks : returned.lifecycle.hooks with
      | none =>
        rw [StreamLifecycle.held, hhooks] at hheld
        cases hheld
      | some hooks => rfl
    · intro hcreditable
      rw [hkeeps hcreditable] at hguards
      exact (congrArg permits hguards).trans hone

theorem Passed.options_eq (h : Passed rt c t s T phase) :
    phase.execution.options = s.execution.options := by
  obtain ⟨limit, htight, -⟩ := tightened_cases c t s
  cases h with
  | notSent g ending limit outcome houtcome => rfl
  | retried request g hrequest hroom =>
    rw [htight]
    rfl
  | redirected request g status headers action hrequest haction =>
    rw [htight]
    rfl
  | returned request g ended credits outcome hrequest hguards hmarks hfresh hcredits hkeeps =>
    rw [htight]
    rfl

end Pass

end Reqx.Driver
