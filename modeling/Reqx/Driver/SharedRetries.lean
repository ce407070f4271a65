import Mathlib.Algebra.BigOperators.Ring.Finset
import Reqx.Driver.Accounting
import Reqx.Driver.SharedClient

/-!
# Retries of a shared client

Every send of a call is its first one, follows a redirect, or is paid with a
token of the retry budget, and a call credits the budget at most once. So the
load that retries add to the load of the requests stays within the budget,
however many requests run and in whatever order they get along.
-/

namespace Reqx.Resilience

open Interleaving

variable {policy : RetryBudgetPolicy}

/-! ## Tokens of a whole run -/

theorem start_le_window (hpos : 0 < policy.window) {start : ℕ} {s : RetryBudgetState}
    (hs : start ≤ s.windowStartedAt) (calls : List BudgetCall) :
    ∀ entry ∈ (retryBudget policy).outputs s calls, start ≤ entry.window := by
  induction calls generalizing s with
  | nil => exact fun _ h ↦ by cases h
  | cons call calls ih =>
    have hentry : ((retryBudget policy).step s call).1.window =
        ((retryBudget policy).step s call).2.windowStartedAt := by
      cases call <;> rfl
    have hnext : start ≤ ((retryBudget policy).step s call).2.windowStartedAt := by
      rcases step_windowStartedAt hpos s call with hsame | hlater <;> omega
    rw [Machine.outputs_cons, List.forall_mem_cons, hentry]
    exact ⟨hnext, ih hnext⟩

theorem outputs_time (policy : RetryBudgetPolicy) (s : RetryBudgetState) (calls : List BudgetCall) :
    ((retryBudget policy).outputs s calls).map BudgetEntry.time = calls.map BudgetCall.now := by
  induction calls generalizing s with
  | nil => rfl
  | cons call calls ih =>
    rw [Machine.outputs_cons, List.map_cons, List.map_cons, ih]
    cases call <;> rfl

/-- All the tokens: the fixed number for every window there is room for, and the share of all the
successes. -/
theorem tokens_le (hvalid : policy.Valid) {start stop : ℕ} {calls : List BudgetCall}
    (hclock : InOrder start calls) (hstop : ∀ call ∈ calls, call.now ≤ stop) :
    ((budgetLog policy start calls).countP (fun entry ↦ entry.answer = .granted) : ℚ) ≤
      policy.minRetriesPerWindow * ((stop - start) / policy.window + 1 : ℕ) +
        policy.retryRatio *
          (budgetLog policy start calls).countP fun entry ↦ entry.answer = .recorded := by
  obtain ⟨last, -, htracks⟩ := tracks_budgetLog hvalid hclock
  set log := budgetLog policy start calls with hlog
  set windows := (log.map BudgetEntry.window).toFinset with hwindows
  have hkeys : ∀ entry ∈ log, entry.window ∈ windows := fun entry hentry ↦
    List.mem_toFinset.mpr (List.mem_map_of_mem hentry)
  have hcount (answer : BudgetAnswer) : log.countP (fun entry ↦ entry.answer = answer) =
      ∑ w ∈ windows, answeredIn log answer w := countP_eq_sum_parts hkeys _
  have hcard : windows.card ≤ (stop - start) / policy.window + 1 := by
    refine htracks.spaced.card_windows_le hvalid.window_pos
      (start_le_window hvalid.window_pos le_rfl calls) fun entry hentry ↦ ?_
    have htime : entry.time ∈ calls.map BudgetCall.now := by
      rw [← outputs_time policy (.new start)]
      exact List.mem_map_of_mem hentry
    obtain ⟨call, hcall, hnow⟩ := List.mem_map.mp htime
    exact hnow ▸ hstop call hcall
  have hbound (w : ℕ) : (answeredIn log .granted w : ℚ) ≤
      policy.minRetriesPerWindow + policy.retryRatio * answeredIn log .recorded w := by
    have hshare : (policy.ratioAllowance (answeredIn log .recorded w) : ℚ) ≤
        policy.retryRatio * answeredIn log .recorded w :=
      Nat.floor_le (mul_nonneg hvalid.ratio_nonneg (Nat.cast_nonneg _))
    calc (answeredIn log .granted w : ℚ)
        ≤ (policy.minRetriesPerWindow +
            policy.ratioAllowance (answeredIn log .recorded w) : ℕ) :=
          Nat.cast_le.mpr (htracks.bounded w)
      _ ≤ policy.minRetriesPerWindow + policy.retryRatio * answeredIn log .recorded w := by
          rw [Nat.cast_add]
          gcongr
  calc (log.countP (fun entry ↦ entry.answer = .granted) : ℚ)
      = ∑ w ∈ windows, (answeredIn log .granted w : ℚ) := by
        rw [hcount, Nat.cast_sum]
    _ ≤ ∑ w ∈ windows, (policy.minRetriesPerWindow +
          policy.retryRatio * answeredIn log .recorded w) := Finset.sum_le_sum fun w _ ↦ hbound w
    _ = policy.minRetriesPerWindow * windows.card +
          policy.retryRatio * log.countP (fun entry ↦ entry.answer = .recorded) := by
        rw [Finset.sum_add_distrib, Finset.sum_const, nsmul_eq_mul, ← Finset.mul_sum, hcount,
          Nat.cast_sum, mul_comm]
    _ ≤ policy.minRetriesPerWindow * ((stop - start) / policy.window + 1 : ℕ) +
          policy.retryRatio * log.countP (fun entry ↦ entry.answer = .recorded) := by
        gcongr

end Reqx.Resilience

namespace Reqx.Driver

open Interleaving
open Resilience

variable {σ A : Type}

/-! ## Sends, renewals and credits -/

def isSend (o : Occurrence σ A) : Bool := o.1.sent?.isSome

def isRedirect (o : Occurrence σ A) : Bool := o.1.redirected?.isSome

def takesToken (o : Occurrence σ A) : Bool := o.1.isTokenTaken

/-- Another send of the same call may follow. -/
def renews (o : Occurrence σ A) : Bool := isRedirect o || takesToken o

def creditsSuccess (o : Occurrence σ A) : Bool := o.1.isSuccessCredited

section Counts

variable (waits : List (ℕ × ℕ)) (es : List (Event σ CircuitAttempt A))

theorem countP_isSend_answered : (answered waits es).countP isSend = (tally es).sent.length := by
  rw [tally, List.length_filterMap_eq_countP]
  exact countP_answered (fun e ↦ e.sent?.isSome) waits es

theorem redirects_le_renews : (tally es).redirects.length ≤ (answered waits es).countP renews := by
  rw [tally, List.length_filterMap_eq_countP, ← countP_answered _ waits]
  exact List.countP_mono_left fun o _ ho ↦ Bool.or_eq_true_iff.mpr (.inl ho)

theorem tokens_le_renews : (tally es).tokens ≤ (answered waits es).countP renews := by
  rw [tally, ← countP_answered _ waits]
  exact List.countP_mono_left fun o _ ho ↦ Bool.or_eq_true_iff.mpr (.inr ho)

theorem countP_creditsSuccess_answered :
    (answered waits es).countP creditsSuccess = (tally es).credits :=
  countP_answered Event.isSuccessCredited waits es

end Counts

/-- The credits that a call can still give. -/
def Phase.creditsLeft {C : Type} : Phase σ C A → ℕ
  | .running _ => 1
  | .finished ⟨_, .stream returned⟩ => if returned.lifecycle.completed then 0 else 1
  | .finished _ => 0

theorem Phase.creditsLeft_le_one {C : Type} (phase : Phase σ C A) : phase.creditsLeft ≤ 1 := by
  unfold Phase.creditsLeft
  split
  · exact le_rfl
  · split <;> omega
  · exact Nat.zero_le _

/-- What a call has done and what it can still do. -/
structure Budgeted (os : List (Occurrence σ A)) (phase : Phase σ CircuitAttempt A) : Prop where
  affords : Affords 1 isSend renews os
  paid : ∀ s, phase = .running s → os.countP isSend ≤ os.countP renews
  credits : os.countP creditsSuccess + phase.creditsLeft ≤ 1

section Calls

variable {rt : Runtime} {c : ControlledClient} {mode : ResponseMode}
  {input : RetryRequestInput σ} {os : List (Occurrence σ A)} {phase : Phase σ CircuitAttempt A}

theorem Passed.budgeted {t : Turn CircuitAttempt A} {s : SendState σ}
    {es : List (Event σ CircuitAttempt A)} (hbudget : c.client.retryBudget = true)
    (h : Passed rt c.client t s (tally es) phase) (waits : List (ℕ × ℕ)) :
    (answered waits es).countP isSend ≤ 1 ∧
    (∀ s', phase = .running s' →
      (answered waits es).countP isSend ≤ (answered waits es).countP renews) ∧
    (answered waits es).countP creditsSuccess + phase.creditsLeft ≤ 1 := by
  have hredirects := redirects_le_renews waits es
  have htokens := tokens_le_renews waits es
  rw [countP_isSend_answered, countP_creditsSuccess_answered]
  generalize tally es = T at h hredirects htokens ⊢
  cases h with
  | notSent g ending limit outcome houtcome =>
    refine ⟨Nat.zero_le 1, ?_, (Nat.zero_add _).trans_le (Phase.creditsLeft_le_one _)⟩
    rintro s' ⟨⟩
  | retried request g hrequest hroom =>
    have hcost : c.client.retryCost = 1 := if_pos hbudget
    exact ⟨le_rfl, fun _ _ ↦ hcost.ge.trans htokens, le_rfl⟩
  | redirected request g status headers action hrequest haction =>
    exact ⟨le_rfl, fun _ _ ↦ hredirects, le_rfl⟩
  | returned request g ended credits outcome hrequest hguards hmarks hfresh hcredits hkeeps =>
    refine ⟨le_rfl, ?_, ?_⟩
    · rintro s' ⟨⟩
    · rcases hcredits with rfl | ⟨rfl, hstream, -⟩
      · exact (Nat.zero_add _).trans_le (Phase.creditsLeft_le_one _)
      · cases outcome with
        | stream returned => cases hstream
        | _ => exact le_rfl

/-- A stream that ends sends nothing, and credits what it has left. -/
theorem complete_credits (outcome : StreamOutcome) {x : RequestExecutionState}
    {returned : StreamResponse CircuitAttempt A} (hopen : returned.lifecycle.completed = false) :
    (Phase.complete outcome (.finished ⟨x, .stream returned⟩ : Phase σ CircuitAttempt A)).Ensures
      fun es phase ↦ (tally es).sent = [] ∧ (tally es).credits + phase.creditsLeft ≤ 1 ∧
        ∀ s, phase ≠ .running s := by
  have hdone := StreamLifecycle.complete_spec (σ := σ) hopen outcome
  apply Logged.Ensures.bind hdone
  rintro es lifecycle ⟨rfl, credits, hes, hcredits⟩
  apply Logged.ensures_pure.mpr
  rw [List.append_nil, hes]
  refine ⟨rfl, ?_, ?_⟩
  · rcases hcredits with rfl | ⟨rfl, -⟩
    · exact Nat.zero_le 1
    · exact le_rfl
  · rintro s ⟨⟩

theorem Reached.budgeted (hbudget : c.client.retryBudget = true)
    (h : Reached rt c mode input os phase) : Budgeted os phase := by
  induction h with
  | start requestStartedAt =>
    exact ⟨affords_of_countP_le (Nat.zero_le 1), fun _ _ ↦ le_rfl,
      (Nat.zero_add _).trans_le (Phase.creditsLeft_le_one _)⟩
  | turn h t ih =>
    rename_i os phase
    cases phase with
    | finished f =>
      change Budgeted (os ++ []) (.finished f)
      rwa [List.append_nil]
    | running s =>
      have hpassed : Passed rt c.client t s
          (tally (pass rt c.client mode t (.running s)).events)
          (pass rt c.client mode t (.running s)).value := pass_running_spec s
      obtain ⟨hone, hpaid, hcredits⟩ := hpassed.budgeted hbudget t.limiterWaits
      have hbefore := ih.paid s rfl
      have hnone : os.countP creditsSuccess = 0 :=
        Nat.le_zero.mp (Nat.le_of_succ_le_succ ih.credits)
      refine ⟨ih.affords.append (affords_of_countP_le hone) (by omega), fun s' hs' ↦ ?_, ?_⟩
      · rw [List.countP_append, List.countP_append]
        exact Nat.add_le_add hbefore (hpaid s' hs')
      · rw [List.countP_append, hnone, Nat.zero_add]
        exact hcredits
  | complete h outcome ih =>
    rename_i os phase
    rcases phase.complete_cases outcome with hsame | ⟨x, returned, rfl, hopen⟩
    · rw [hsame]
      change Budgeted (os ++ []) phase
      rwa [List.append_nil]
    · obtain ⟨hsent, hcredits, hended⟩ := complete_credits (σ := σ) outcome (x := x) hopen
      have hnone : os.countP creditsSuccess = 0 := by
        have hleft : Phase.creditsLeft
            (.finished ⟨x, .stream returned⟩ : Phase σ CircuitAttempt A) = 1 :=
          if_neg (by simp [hopen])
        have hcount := ih.credits
        omega
      refine ⟨ih.affords.append_balanced (affords_of_countP_le ?_),
        fun s hs ↦ absurd hs (hended s), ?_⟩
      · rw [countP_isSend_answered, hsent]
        exact le_rfl
      · rw [List.countP_append, hnone, Nat.zero_add, countP_creditsSuccess_answered]
        exact hcredits

end Calls

/-! ## The budget of a client -/

section Budget

variable {rt : Runtime} {c : ControlledClient} {created : ℕ} {s : SharedClient σ A}
  {policy : RetryBudgetPolicy}

theorem budgetCall_time (e : ℕ × Occurrence σ A) (call : BudgetCall)
    (h : budgetCall e = some call) : call.now = e.1 := by
  unfold budgetCall at h
  split at h <;> cases h <;> rfl

theorem SharedClient.Ok.replay_budget (h : s.Ok rt c created) (hpolicy : c.budget = some policy) :
    ∃ b, RetryBudget.machine.replay budgetCall budgetAgrees (.new policy created)
      (s.history.map Prod.snd) = some b := by
  have hanswered := h.replayed.budget
  rw [Replays, ControlledClient.controls, hpolicy] at hanswered
  obtain ⟨b, hb, -⟩ := Option.map_eq_some_iff.mp hanswered
  exact ⟨b, hb⟩

variable {e : ℕ × Occurrence σ A}

theorem takesToken_eq {call : BudgetCall} {entry : BudgetEntry} (hcall : budgetCall e = some call)
    (hagrees : budgetAgrees e entry = true) :
    takesToken e.2 = decide (entry.answer = .granted) := by
  obtain ⟨now, event, delay⟩ := e
  cases event with
  | tokenTaken => exact hagrees.symm
  | successCredited => exact (decide_eq_false (of_decide_eq_true hagrees ▸ by decide)).symm
  | failed context error => exact (decide_eq_false (of_decide_eq_true hagrees ▸ by decide)).symm
  | _ => cases hcall

theorem creditsSuccess_eq {call : BudgetCall} {entry : BudgetEntry}
    (hcall : budgetCall e = some call) (hagrees : budgetAgrees e entry = true) :
    creditsSuccess e.2 = decide (entry.answer = .recorded) := by
  obtain ⟨now, event, delay⟩ := e
  cases event with
  | successCredited => exact hagrees.symm
  | tokenTaken => exact (decide_eq_false (of_decide_eq_true hagrees ▸ by decide)).symm
  | failed context error => exact (decide_eq_false (of_decide_eq_true hagrees ▸ by decide)).symm
  | _ => cases hcall

theorem quiet_of_budgetCall (h : budgetCall e = none) :
    takesToken e.2 = false ∧ creditsSuccess e.2 = false := by
  obtain ⟨now, event, delay⟩ := e
  cases event <;> first | exact ⟨rfl, rfl⟩ | cases h

theorem countP_budget {b : RetryBudget} {log : List (ℕ × Occurrence σ A)}
    (h : RetryBudget.machine.replay budgetCall budgetAgrees (.new policy created) log = some b)
    {p : Occurrence σ A → Bool} (answer : BudgetAnswer)
    (hquiet : ∀ e, budgetCall e = none → p e.2 = false)
    (hasks : ∀ e call (entry : BudgetEntry), budgetCall e = some call →
      budgetAgrees e entry = true → p e.2 = decide (entry.answer = answer)) :
    log.countP (fun e ↦ p e.2) =
      (budgetLog policy created (log.filterMap budgetCall)).countP
        fun entry ↦ entry.answer = answer := by
  have houtputs := RetryBudget.outputs_machine (.new policy created) (log.filterMap budgetCall)
  rw [budgetLog]
  refine Eq.trans ?_ (congrArg _ houtputs)
  rw [← Machine.map_snd_trace, List.countP_map]
  exact Machine.countP_of_replay h hquiet hasks

/-- The log of the budget has an entry for every token and for every credit. -/
theorem SharedClient.Ok.exists_budgetLog (h : s.Ok rt c created)
    (hpolicy : c.budget = some policy) :
    ∃ calls, InOrder created calls ∧ (∀ call ∈ calls, call.now ≤ s.clock) ∧
      s.history.countP (fun e ↦ takesToken e.2.2) =
        (budgetLog policy created calls).countP (fun entry ↦ entry.answer = .granted) ∧
      s.history.countP (fun e ↦ creditsSuccess e.2.2) =
        (budgetLog policy created calls).countP fun entry ↦ entry.answer = .recorded := by
  obtain ⟨b, hreplay⟩ := h.replay_budget hpolicy
  have htimes := Machine.filterMap_map_sublist budgetCall_time (s.history.map Prod.snd)
  rw [List.map_map] at htimes
  refine ⟨(s.history.map Prod.snd).filterMap budgetCall,
    h.timely.ordered.sublist (htimes.cons_cons created), fun call hcall ↦ ?_, ?_, ?_⟩
  · exact h.timely.le_last _ (List.mem_cons_of_mem _ (htimes.subset (List.mem_map_of_mem hcall)))
  · rw [← countP_budget hreplay .granted (fun e he ↦ (quiet_of_budgetCall he).1)
      fun e call entry ↦ takesToken_eq, List.countP_map]
    rfl
  · rw [← countP_budget hreplay .recorded (fun e he ↦ (quiet_of_budgetCall he).2)
      fun e call entry ↦ creditsSuccess_eq, List.countP_map]
    rfl

theorem SharedClient.Ok.budgeted (h : s.Ok rt c created) (hbudget : c.client.retryBudget = true)
    {index : ℕ} (hindex : index < s.calls.length) :
    (s.doneBy index).countP isSend ≤ (s.doneBy index).countP renews + 1 ∧
      (s.doneBy index).countP creditsSuccess ≤ 1 := by
  have hcall := (h.reached index _ (List.getElem?_eq_getElem hindex)).budgeted hbudget
  refine ⟨hcall.affords _ (List.prefix_append _ _), ?_⟩
  have hcredits := hcall.credits
  rw [List.countP_append] at hcredits
  omega

theorem countP_doneBy (s : SharedClient σ A) (p : Occurrence σ A → Bool) (index : ℕ) :
    (project s.history index).countP (fun e ↦ p e.2) = (s.doneBy index).countP p := by
  rw [SharedClient.doneBy, List.countP_map]
  rfl

end Budget

/-- The requests of a client are sent at most once each, once more for every redirect, and as many
times more as the budget allows: a share of the requests and a number for every window begun. -/
theorem retries_within_budget (rt : Runtime) (c : ControlledClient) (created : ℕ)
    (ops : List (SharedOp σ A)) {policy : RetryBudgetPolicy} (hpolicy : c.budget = some policy) :
    let s := SharedClient.run rt c created ops
    (s.history.countP (fun e ↦ isSend e.2.2) : ℚ) ≤
      (1 + policy.retryRatio) * s.calls.length +
        s.history.countP (fun e ↦ isRedirect e.2.2) +
        policy.minRetriesPerWindow * ((s.clock - created) / policy.window + 1 : ℕ) := by
  intro s
  have hok : s.Ok rt c created := SharedClient.ok_run created ops
  have hbudget : c.client.retryBudget = true := by
    rw [c.retryBudget_eq, hpolicy]
    rfl
  have hvalid := RetryBudgetPolicy.valid_of_validate (c.budget_valid policy hpolicy)
  have hsends : s.history.countP (fun e ↦ isSend e.2.2) ≤
      s.history.countP (fun e ↦ renews e.2.2) + s.calls.length * 1 := by
    refine countP_le_of_project (p := fun e ↦ isSend e.2) (q := fun e ↦ renews e.2) hok.owned 1
      fun index hindex ↦ ?_
    rw [countP_doneBy, countP_doneBy]
    exact (hok.budgeted hbudget hindex).1
  have hrenews : s.history.countP (fun e ↦ renews e.2.2) ≤
      s.history.countP (fun e ↦ isRedirect e.2.2) + s.history.countP fun e ↦ takesToken e.2.2 :=
    Windows.countP_le_add fun e _ h ↦ Bool.or_eq_true_iff.mp h
  have hcredits : s.history.countP (fun e ↦ creditsSuccess e.2.2) ≤ s.calls.length := by
    have hsum := countP_le_of_project (p := fun e ↦ creditsSuccess e.2) (q := fun _ ↦ false)
      hok.owned 1 fun index hindex ↦ by
        rw [countP_doneBy, List.countP_false]
        exact (hok.budgeted hbudget hindex).2
    rwa [List.countP_false, Function.const_apply, Nat.zero_add, Nat.mul_one] at hsum
  obtain ⟨calls, hclock, hstop, htokens, hrecorded⟩ := hok.exists_budgetLog hpolicy
  have hbound := tokens_le hvalid hclock hstop
  rw [← htokens, ← hrecorded] at hbound
  have hshare : policy.retryRatio * (s.history.countP (fun e ↦ creditsSuccess e.2.2) : ℚ) ≤
      policy.retryRatio * s.calls.length :=
    mul_le_mul_of_nonneg_left (Nat.cast_le.mpr hcredits) hvalid.ratio_nonneg
  have htotal : (s.history.countP (fun e ↦ isSend e.2.2) : ℚ) ≤
      s.history.countP (fun e ↦ isRedirect e.2.2) + s.history.countP (fun e ↦ takesToken e.2.2) +
        s.calls.length := by
    exact_mod_cast hsends.trans (by omega)
  linarith

/-- One request that is sent three times, on two tokens. -/
theorem retries_within_budget_standard :
    let s := SharedClient.run .blocking Sample.controlled 0
      (Sample.sharedOps [Sample.unavailable, Sample.unavailable, .response Sample.ok .empty])
    s.history.countP (fun e ↦ isSend e.2.2) = 3 ∧
      (s.history.countP (fun e ↦ isSend e.2.2) : ℚ) ≤
        (1 + RetryBudgetPolicy.standard.retryRatio) * s.calls.length +
          s.history.countP (fun e ↦ isRedirect e.2.2) +
          RetryBudgetPolicy.standard.minRetriesPerWindow *
            ((s.clock - 0) / RetryBudgetPolicy.standard.window + 1 : ℕ) :=
  ⟨by decide +kernel, retries_within_budget .blocking Sample.controlled 0
    (Sample.sharedOps [Sample.unavailable, Sample.unavailable, .response Sample.ok .empty]) rfl⟩

end Reqx.Driver
