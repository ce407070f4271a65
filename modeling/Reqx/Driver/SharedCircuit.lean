import Reqx.Driver.Accounting
import Reqx.Driver.Permits
import Reqx.Driver.SharedRetries

/-!
# The circuit of a shared client

A call sends only while it holds an attempt of the circuit breaker, and an open
breaker grants none. So while it is open, the requests that are still sent are
those of attempts that had begun before.
-/

namespace Reqx.Driver

open Interleaving SharedClient
open Resilience

variable {σ C A : Type}

/-! ## Attempts in a log -/

def Guard.isCircuit : Guard C A → Bool
  | .circuit _ => true
  | .adaptive _ => false

def Event.beginsCircuit : Event σ C A → Bool
  | .begun guard => guard.isCircuit
  | _ => false

def Event.endsCircuit : Event σ C A → Bool
  | .ended guard _ => guard.isCircuit
  | _ => false

def Event.isSend (e : Event σ C A) : Bool := e.sent?.isSome

theorem countP_beginsCircuit (es : List (Event σ C A)) :
    es.countP Event.beginsCircuit = (tally es).begun.countP Guard.isCircuit := by
  refine ((List.countP_filterMap).trans (List.countP_congr fun e _ ↦ ?_)).symm
  cases e <;> rfl

theorem countP_endsCircuit (es : List (Event σ C A)) :
    es.countP Event.endsCircuit = ((tally es).ended.map Prod.fst).countP Guard.isCircuit := by
  rw [List.countP_map]
  refine ((List.countP_filterMap).trans (List.countP_congr fun e _ ↦ ?_)).symm
  cases e <;> rfl

theorem countP_isSend (es : List (Event σ C A)) :
    es.countP Event.isSend = (tally es).sent.length := by
  rw [tally, List.length_filterMap_eq_countP]
  rfl

/-! ## One call -/

section Calls

variable {rt : Runtime} {c : Client} {mode : ResponseMode} {t : Turn C A} {s : SendState σ}
  {phase : Phase σ C A}

theorem Passed.guards_eq {T : Tally σ C A} (h : Passed rt c t s T phase) :
    T.ended.map Prod.fst ++ phase.held = T.begun := by
  cases h with
  | notSent g ending limit outcome houtcome =>
    have hheld : outcome.held = [] := by
      rcases houtcome with rfl | ⟨-, error, rfl⟩ <;> rfl
    change (g.endedAs ending).map Prod.fst ++ outcome.held = g.toList
    rw [hheld, List.append_nil, g.map_fst_endedAs]
  | retried request g hrequest hroom => exact (List.append_nil _).trans (g.map_fst_endedAs _)
  | redirected request g status headers action hrequest haction =>
    exact (List.append_nil _).trans (g.map_fst_endedAs _)
  | returned request g ended credits outcome hrequest hguards hmarks hfresh hcredits hkeeps =>
    exact hguards

theorem AttemptGuards.countP_isCircuit {g : AttemptGuards C A} (h : g.circuit.isSome = true) :
    g.toList.countP Guard.isCircuit = 1 := by
  obtain ⟨circuit, adaptive⟩ := g
  obtain ⟨attempt, rfl⟩ := Option.isSome_iff_exists.mp h
  cases adaptive <;> rfl

theorem Passed.circuits_eq {es : List (Event σ C A)} (h : Passed rt c t s (tally es) phase) :
    es.countP Event.endsCircuit + phase.held.countP Guard.isCircuit =
      es.countP Event.beginsCircuit := by
  rw [countP_beginsCircuit, countP_endsCircuit, ← List.countP_append, h.guards_eq]

theorem not_send_of_early {e : Event σ C A} (h : Early e) : e.isSend = false := by
  cases e <;> first | rfl | cases h

theorem of_late {e : Event σ C A} (h : Late e) : e.isSend = false ∧ e.beginsCircuit = false := by
  cases e <;> first | exact ⟨rfl, rfl⟩ | cases h

theorem countP_eq_zero_of {p : Event σ C A → Bool} {es : List (Event σ C A)}
    (h : ∀ e ∈ es, p e = false) : es.countP p = 0 :=
  List.countP_eq_zero.mpr fun e he ↦ by simp [h e he]

/-- An attempt begins before its request is sent and ends after it. -/
theorem pass_brackets (hbreaker : c.circuitBreaker = true) (s : SendState σ) :
    Brackets 0 Event.beginsCircuit Event.isSend Event.endsCircuit
      (pass rt c mode t (.running s)).events := by
  have hpassed : Passed rt c t s (tally (pass rt c mode t (.running s)).events)
      (pass rt c mode t (.running s)).value := pass_running_spec s
  have hbalance := hpassed.circuits_eq
  obtain ⟨admission, attempt, hes, hstaged⟩ := pass_staged rt c mode t s
  obtain ⟨request?, rest, hattempt, hlate, htarget⟩ := hstaged.sends
  have hunsent : admission.countP Event.isSend = 0 :=
    countP_eq_zero_of fun e he ↦ not_send_of_early (hstaged.early e he)
  have hrest : rest.countP Event.isSend = 0 :=
    countP_eq_zero_of fun e he ↦ (of_late (hlate e he)).1
  have hrestBegun : rest.countP Event.beginsCircuit = 0 :=
    countP_eq_zero_of fun e he ↦ (of_late (hlate e he)).2
  rw [hes] at hbalance ⊢
  cases request? with
  | none =>
    obtain ⟨before, after, rfl, hbefore, hafter⟩ := hstaged.nested
    have hattempt : attempt = rest := hattempt
    subst hattempt
    have hopen : before.countP Event.endsCircuit = 0 := countP_eq_zero_of fun e he ↦ by
      have hnone := hbefore e he
      cases e <;> first | rfl | cases hnone
    have hafterBegun : after.countP Event.beginsCircuit = 0 := countP_eq_zero_of fun e he ↦ by
      have hnone := hafter e he
      cases e <;> first | rfl | cases hnone
    simp only [List.countP_append] at hunsent hbalance
    have hbrackets : Brackets 0 Event.beginsCircuit Event.isSend Event.endsCircuit
        (before ++ ([] ++ (after ++ attempt))) := by
      refine brackets_of_stages hopen (by omega) rfl ?_ (Nat.zero_le _) ?_ <;>
        rw [List.countP_append] <;> omega
    rwa [List.append_assoc]
  | some request =>
    have hattempt : attempt = [.sent request] ++ rest := hattempt
    subst hattempt
    obtain ⟨g, hcircuit, htally⟩ := hstaged.circuit (by simp)
    have hone : admission.countP Event.beginsCircuit = 1 := by
      rw [countP_beginsCircuit, htally]
      exact g.countP_isCircuit (hcircuit.trans hbreaker)
    have hopen : admission.countP Event.endsCircuit = 0 := by
      rw [countP_endsCircuit, htally]
      rfl
    have hsent : [Event.sent request].countP (Event.endsCircuit : Event σ C A → Bool) = 0 ∧
        [Event.sent request].countP (Event.beginsCircuit : Event σ C A → Bool) = 0 := ⟨rfl, rfl⟩
    simp only [List.countP_append, hrestBegun, hsent] at hbalance
    refine brackets_of_stages hopen hunsent hsent.1 hrest ?_ ?_
    · rw [hone]
      rfl
    · omega

end Calls

/-- What a call has done is bracketed, and what it holds has not ended yet. -/
structure Guarded (es : List (Event σ C A)) (phase : Phase σ C A) : Prop where
  brackets : Brackets 0 Event.beginsCircuit Event.isSend Event.endsCircuit es
  balanced : es.countP Event.endsCircuit + phase.held.countP Guard.isCircuit =
    es.countP Event.beginsCircuit

theorem Guarded.pass {rt : Runtime} {c : Client} {mode : ResponseMode} {t : Turn C A}
    {es : List (Event σ C A)} {phase : Phase σ C A} (hbreaker : c.circuitBreaker = true)
    (h : Guarded es phase) :
    Guarded (es ++ (pass rt c mode t phase).events) (pass rt c mode t phase).value := by
  cases phase with
  | finished f =>
    change Guarded (es ++ []) (.finished f)
    rwa [List.append_nil]
  | running s =>
    have hpassed : Passed rt c t s (tally (Driver.pass rt c mode t (.running s)).events)
        (Driver.pass rt c mode t (.running s)).value := pass_running_spec s
    have hpass : Brackets 0 Event.beginsCircuit Event.isSend Event.endsCircuit
        (Driver.pass rt c mode t (.running s)).events := pass_brackets hbreaker s
    have hbalance := hpassed.circuits_eq
    have hbefore : es.countP Event.endsCircuit = es.countP Event.beginsCircuit := h.balanced
    refine ⟨h.brackets.append hpass hpass.affords hbefore.le, ?_⟩
    rw [List.countP_append, List.countP_append]
    omega

theorem Guarded.complete {es : List (Event σ C A)} {phase : Phase σ C A} (h : Guarded es phase)
    (outcome : StreamOutcome) :
    Guarded (es ++ (phase.complete outcome).events) (phase.complete outcome).value := by
  rcases phase.complete_cases outcome with hsame | ⟨x, returned, rfl, hopen⟩
  · rw [hsame]
    change Guarded (es ++ []) phase
    rwa [List.append_nil]
  · change Logged.Ensures _ fun es' phase' ↦ Guarded (es ++ es') phase'
    apply Logged.Ensures.bind (StreamLifecycle.complete_spec (σ := σ) hopen outcome)
    rintro es' lifecycle ⟨rfl, credits, htally, -⟩
    apply Logged.ensures_pure.mpr
    rw [List.append_nil]
    have hends : es'.countP Event.endsCircuit =
        returned.lifecycle.held.countP Guard.isCircuit := by
      rw [countP_endsCircuit, htally]
      simp [Tally.guardsEnded, Function.comp_def]
    have hbegins : es'.countP Event.beginsCircuit = 0 := by
      rw [countP_beginsCircuit, htally]
      rfl
    have hsends : es'.countP Event.isSend = 0 := by
      rw [countP_isSend, htally]
      rfl
    have hclosing : Brackets (returned.lifecycle.held.countP Guard.isCircuit)
        Event.beginsCircuit Event.isSend Event.endsCircuit ([] ++ ([] ++ es')) :=
      brackets_of_stages rfl rfl rfl hsends (Nat.zero_le _) (by simp [hends])
    refine ⟨h.brackets.append hclosing (affords_of_countP_le hsends.le) h.balanced.le, ?_⟩
    have hbalance := h.balanced
    rw [List.countP_append, List.countP_append, hbegins, hends]
    exact hbalance

theorem Reached.guarded {rt : Runtime} {c : ControlledClient} {mode : ResponseMode}
    {input : RetryRequestInput σ} {os : List (Occurrence σ A)} {phase : Phase σ CircuitAttempt A}
    (hbreaker : c.client.circuitBreaker = true) (h : Reached rt c mode input os phase) :
    Guarded (os.map Prod.fst) phase := by
  induction h with
  | start requestStartedAt =>
    refine ⟨fun before after hnil ↦ ?_, rfl⟩
    obtain ⟨rfl, rfl⟩ := List.append_eq_nil_iff.mp (List.prefix_nil.mp hnil)
    exact le_rfl
  | turn h t ih =>
    rw [List.map_append, map_fst_answered]
    exact ih.pass hbreaker
  | complete h outcome ih =>
    rw [List.map_append, map_fst_answered]
    exact ih.complete outcome

/-! ## An open breaker -/

section Breaker

theorem closeHalfOpenIfRecovered_policy (b : CircuitBreaker) :
    b.closeHalfOpenIfRecovered.policy = b.policy := by
  unfold CircuitBreaker.closeHalfOpenIfRecovered
  split
  · split <;> rfl
  · rfl

theorem finish_policy (b : CircuitBreaker) (a : CircuitAttempt) (ending : Ending) (now : ℕ) :
    (a.finish ending now b).policy = b.policy := by
  have hcancel : (b.recordCancel a.kind a.generation).policy = b.policy := by
    unfold CircuitBreaker.recordCancel
    split
    · rfl
    · split
      · exact closeHalfOpenIfRecovered_policy _
      · rfl
  cases ending with
  | success =>
    change (b.recordSuccess a.kind a.generation).policy = b.policy
    unfold CircuitBreaker.recordSuccess
    split
    · rfl
    · split
      · rfl
      · exact closeHalfOpenIfRecovered_policy _
      · rfl
  | failure =>
    change (b.recordFailure a.kind a.generation now).policy = b.policy
    unfold CircuitBreaker.recordFailure
    split
    · rfl
    · split
      · split <;> rfl
      · rfl
      · rfl
  | cancel => exact hcancel
  | drop =>
    change (if a.completed then b else b.recordCancel a.kind a.generation).policy = b.policy
    split
    · rfl
    · exact hcancel

theorem step_policy (b : CircuitBreaker) (call : BreakerCall) :
    (CircuitBreaker.machine.step b call).2.policy = b.policy := by
  cases call with
  | finish attempt ending now => exact finish_policy b attempt ending now
  | begin now =>
    have hbegin : (b.begin now).2.policy = b.policy := by
      unfold CircuitBreaker.begin
      split
      · rfl
      · dsimp only
        split <;> rfl
      · split <;> rfl
    simp only [CircuitBreaker.machine]
    split <;> next heq => simpa [heq] using hbegin

theorem final_policy (b : CircuitBreaker) (calls : List BreakerCall) :
    (CircuitBreaker.machine.final b calls).policy = b.policy := by
  induction calls generalizing b with
  | nil => rfl
  | cons call calls ih => rw [Machine.final_cons, ih, step_policy]

theorem finish_opened {b : CircuitBreaker} {openedAt : ℕ} (hstate : b.state = .opened openedAt)
    (a : CircuitAttempt) (ending : Ending) (now : ℕ) : a.finish ending now b = b := by
  have hforeign : b.state.belongsTo a.generation = false := by
    rw [hstate]
    rfl
  cases ending <;> simp [CircuitAttempt.finish, CircuitAttempt.markSuccess,
    CircuitAttempt.markFailure, CircuitAttempt.cancel, CircuitAttempt.drop,
    CircuitBreaker.recordSuccess, CircuitBreaker.recordFailure, CircuitBreaker.recordCancel,
    hforeign]

theorem follow_opened {b b' : CircuitBreaker} {openedAt : ℕ} (hstate : b.state = .opened openedAt)
    (hpos : 0 < b.policy.openTimeout) {e : ℕ × Occurrence σ A}
    (htime : e.1 < openedAt + b.policy.openTimeout) (h : followBreaker b e = some b') :
    b' = b ∧ e.2.1.beginsCircuit = false := by
  obtain ⟨now, event, delay⟩ := e
  rcases Machine.follow_eq_some h with ⟨hquiet, hsame⟩ | ⟨call, hcall, hagrees, hnext⟩
  · refine ⟨hsame, ?_⟩
    cases event <;> first | rfl | skip
    next guard => cases guard <;> first | rfl | cases hquiet
  · cases event with
    | begun guard =>
      cases guard with
      | adaptive permit => cases hcall
      | circuit attempt =>
        -- The breaker refuses an attempt before its timeout.
        cases hcall
        have hwait : ¬b.policy.openTimeout ≤ saturatingDurationSince now openedAt := by
          unfold saturatingDurationSince
          dsimp only at htime
          omega
        have hrefused := CircuitBreaker.begin_waiting hstate hwait
        simp [CircuitBreaker.machine, hrefused, breakerAgrees] at hagrees
    | ended guard ending =>
      cases guard with
      | adaptive permit => cases hcall
      | circuit attempt =>
        cases hcall
        exact ⟨hnext.trans (finish_opened hstate _ _ _), rfl⟩
    | _ => cases hcall

/-- Until its timeout has passed, an open breaker stays as it is and grants nothing. -/
theorem replay_opened {b b' : CircuitBreaker} {openedAt : ℕ} {log : List (ℕ × Occurrence σ A)}
    (hstate : b.state = .opened openedAt) (hpos : 0 < b.policy.openTimeout)
    (htimes : ∀ e ∈ log, e.1 < openedAt + b.policy.openTimeout)
    (h : CircuitBreaker.machine.replay breakerCall breakerAgrees b log = some b') :
    b' = b ∧ ∀ e ∈ log, e.2.1.beginsCircuit = false := by
  induction log with
  | nil => exact ⟨(Option.some.inj h).symm, by simp⟩
  | cons e log ih =>
    obtain ⟨hnow, hlater⟩ := List.forall_mem_cons.mp htimes
    obtain ⟨mid, hfollow, hrest⟩ := Machine.replay_cons_eq_some h
    obtain ⟨rfl, hquiet⟩ : mid = b ∧ e.2.1.beginsCircuit = false :=
      follow_opened hstate hpos hnow hfollow
    obtain ⟨rfl, hlog⟩ := ih hlater hrest
    exact ⟨rfl, List.forall_mem_cons.mpr ⟨hquiet, hlog⟩⟩

end Breaker

/-! ## A whole run -/

section System

variable {rt : Runtime} {c : ControlledClient} {created : ℕ} {s : SharedClient σ A}

theorem SharedClient.history_step (s : SharedClient σ A) (op : SharedOp σ A) :
    s.history <+: (s.step rt c op).history := by
  cases op with
  | start mode input => exact List.prefix_rfl
  | turn index t =>
    simp only [step, update]
    split <;> exact List.prefix_rfl
  | complete index outcome =>
    simp only [step, update]
    split <;> exact List.prefix_rfl
  | advance index elapsed =>
    simp only [step, advance]
    repeat' split
    all_goals first | exact List.prefix_rfl | exact List.prefix_append _ _

variable (rt c) in
theorem SharedClient.history_run (created : ℕ) (ops more : List (SharedOp σ A)) :
    (run rt c created ops).history <+: (run rt c created (ops ++ more)).history := by
  rw [run, run, List.foldl_append]
  generalize ops.foldl (step rt c) (initial c created) = s
  induction more generalizing s with
  | nil => exact List.prefix_rfl
  | cons op more ih => exact (s.history_step op).trans (ih _)

theorem SharedClient.Ok.breaker_policy (h : s.Ok rt c created) {b : CircuitBreaker}
    (hb : s.controls.breaker = some b) : ∃ policy, c.breaker = some policy := by
  cases hpolicy : c.breaker with
  | some policy => exact ⟨policy, rfl⟩
  | none =>
    have hanswered := h.replayed.breaker
    rw [Replays, ControlledClient.controls, hpolicy, hb] at hanswered
    cases hanswered

theorem SharedClient.Ok.replay_breaker (h : s.Ok rt c created) {policy : CircuitBreakerPolicy}
    (hpolicy : c.breaker = some policy) :
    ∃ b, s.controls.breaker = some b ∧ CircuitBreaker.machine.replay breakerCall breakerAgrees
      (.new policy) (s.history.map Prod.snd) = some b := by
  have hanswered := h.replayed.breaker
  rw [Replays, ControlledClient.controls, hpolicy] at hanswered
  obtain ⟨b, hb, hlast⟩ := Option.map_eq_some_iff.mp hanswered
  exact ⟨b, hlast.symm, hb⟩

/-- Sends that no attempt begins for are those of the attempts that were live before. -/
theorem SharedClient.Ok.sends_le_live (h : s.Ok rt c created)
    (hbreaker : c.client.circuitBreaker = true) {before after : List (ℕ × ℕ × Occurrence σ A)}
    (hhistory : s.history = before ++ after) (hafter : ∀ e ∈ after, e.2.2.1.beginsCircuit = false)
    (index : ℕ) :
    (project after index).countP (fun e ↦ e.2.1.isSend) +
        (project before index).countP (fun e ↦ e.2.1.endsCircuit) ≤
      (project before index).countP fun e ↦ e.2.1.beginsCircuit := by
  by_cases hindex : index < s.calls.length
  · have hguarded := (h.reached index _ (List.getElem?_eq_getElem hindex)).guarded hbreaker
    have hnone : (project after index).countP (fun e ↦ e.2.1.beginsCircuit) = 0 :=
      List.countP_eq_zero.mpr fun e he ↦ by simp [hafter _ (mem_project.mp he)]
    have hdone : (project before index).map Prod.snd ++ (project after index).map Prod.snd <+:
        s.doneBy index ++ s.calls[index].pending := by
      rw [doneBy, hhistory, project_append, List.map_append]
      exact List.prefix_append _ _
    have hbrackets := hguarded.brackets.of_map _ _ hdone
    simp only [List.countP_append, List.countP_map, Function.comp_def, hnone] at hbrackets
    omega
  · have hunused : project s.history index = [] := by
      rw [List.eq_nil_iff_forall_not_mem]
      exact fun e he ↦ hindex (h.owned _ (mem_project.mp he))
    rw [hhistory, project_append, List.append_eq_nil_iff] at hunused
    rw [hunused.1, hunused.2]
    exact le_rfl

end System

/-- Until the timeout of an open breaker has passed, it stays open, and every call sends at most
the requests of the attempts it had begun and not ended. -/
theorem sends_while_open (rt : Runtime) (c : ControlledClient) (created : ℕ)
    (ops more : List (SharedOp σ A)) {b : CircuitBreaker} {openedAt : ℕ}
    (hb : (SharedClient.run rt c created ops).controls.breaker = some b)
    (hopen : b.state = .opened openedAt)
    (hclock : (SharedClient.run rt c created (ops ++ more)).clock <
      openedAt + b.policy.openTimeout) :
    let s := SharedClient.run rt c created ops
    let s' := SharedClient.run rt c created (ops ++ more)
    s'.controls.breaker = some b ∧ ∀ index,
      (s'.doneBy index).countP isSend + (s.doneBy index).countP (fun o ↦ o.1.endsCircuit) ≤
        (s.doneBy index).countP isSend + (s.doneBy index).countP fun o ↦ o.1.beginsCircuit := by
  intro s s'
  have hok : s.Ok rt c created := ok_run created ops
  have hok' : s'.Ok rt c created := ok_run created (ops ++ more)
  obtain ⟨after, hhistory⟩ := history_run rt c created ops more
  obtain ⟨policy, hpolicy⟩ := hok.breaker_policy hb
  obtain ⟨b₁, hb₁, hreplay⟩ := hok.replay_breaker hpolicy
  obtain rfl : b₁ = b := Option.some.inj (hb₁.symm.trans hb)
  obtain ⟨b₂, hb₂, hreplay'⟩ := hok'.replay_breaker hpolicy
  -- The later history is answered from the open breaker on.
  rw [← hhistory, List.map_append, Machine.replay_append, hreplay, Option.bind_some] at hreplay'
  have hpos : 0 < b₁.policy.openTimeout := by
    have hsame := final_policy (.new policy) ((s.history.map Prod.snd).filterMap breakerCall)
    rw [Machine.final_of_replay hreplay] at hsame
    rw [hsame]
    exact ((policy.validate_eq_ok_iff).mp (c.breaker_valid policy hpolicy)).2.1
  have htimes : ∀ e ∈ after.map Prod.snd, e.1 < openedAt + b₁.policy.openTimeout := by
    intro e he
    obtain ⟨entry, hentry, rfl⟩ := List.mem_map.mp he
    have hmem : entry ∈ s'.history := hhistory ▸ List.mem_append_right _ hentry
    have hle : entry.2.1 ≤ s'.clock :=
      hok'.timely.le_last _ (List.mem_cons_of_mem _ (List.mem_map_of_mem hmem))
    exact hle.trans_lt hclock
  obtain ⟨rfl, hquiet⟩ := replay_opened hopen hpos htimes hreplay'
  refine ⟨hb₂, fun index ↦ ?_⟩
  have hbreaker : c.client.circuitBreaker = true := by
    rw [c.circuitBreaker_eq, hpolicy]
    rfl
  have hlive := hok'.sends_le_live hbreaker hhistory.symm
    (fun e he ↦ hquiet _ (List.mem_map_of_mem he)) index
  have hdone : s'.doneBy index = s.doneBy index ++ (project after index).map Prod.snd := by
    rw [doneBy, ← hhistory, project_append, List.map_append]
    rfl
  rw [hdone, List.countP_append, Nat.add_assoc]
  refine Nat.add_le_add_left ?_ _
  rw [doneBy, List.countP_map, List.countP_map, List.countP_map]
  exact hlive

namespace Sample

/-- Five requests fail and open the breaker; the attempt of a sixth has begun before. -/
def openingOps : List (SharedOp Unit Unit) :=
  (List.range 6).flatMap (fun index ↦
    [.start .buffered (call .post .default).input, .turn index (sharedTurn unavailable)] ++
      List.replicate 3 (.advance index 1)) ++
  (List.range 5).flatMap fun index ↦ List.replicate 6 (.advance index 1)

/-- The sixth request is sent, and a seventh one starts. -/
def openOps : List (SharedOp Unit Unit) :=
  [.advance 5 1, .start .buffered (call .post .default).input,
    .turn 6 (sharedTurn unavailable)] ++ List.replicate 4 (.advance 6 1)

end Sample

theorem sends_while_open_standard :
    (SharedClient.run .blocking Sample.controlled 0 Sample.openingOps).controls.breaker =
        some ⟨.standard, .opened 47, 1⟩ ∧
      ((SharedClient.run .blocking Sample.controlled 0
        (Sample.openingOps ++ Sample.openOps)).doneBy 5).countP isSend = 1 ∧
      (SharedClient.run .blocking Sample.controlled 0
        (Sample.openingOps ++ Sample.openOps)).controls.breaker =
          some ⟨.standard, .opened 47, 1⟩ := by
  have hb : (run .blocking Sample.controlled 0 Sample.openingOps).controls.breaker =
      some ⟨.standard, .opened 47, 1⟩ := by
    decide +kernel
  have hlast : (run .blocking Sample.controlled 0
      (Sample.openingOps ++ Sample.openOps)).clock = 51 := by
    decide +kernel
  have hclock : (run .blocking Sample.controlled 0
      (Sample.openingOps ++ Sample.openOps)).clock <
        47 + CircuitBreakerPolicy.standard.openTimeout := by
    rw [hlast]
    decide
  exact ⟨hb, by decide +kernel, (sends_while_open .blocking Sample.controlled 0 Sample.openingOps
    Sample.openOps hb rfl hclock).1⟩

end Reqx.Driver
