import Reqx.Driver.Run

/-!
# Guards, tokens and credits of a call

A call is accounted for as a whole: the passes of the loop and, if it returned
a stream, the life of that stream. Guards are compared in the order in which
they were begun, so equal lists mean that every one of them ended, once.
-/

namespace Reqx.Driver

open Tally

open Resilience (Ending)

variable {σ C A : Type}

/-! ## The life of a stream -/

namespace StreamLifecycle

variable {l : StreamLifecycle C A}

def Completes (l : StreamLifecycle C A) (outcome : StreamOutcome) (T : Tally σ C A) : Prop :=
  ∃ credits, T = { guardsEnded (l.held.map (·, outcome.ending)) with credits } ∧
    (credits = 0 ∨ credits = 1 ∧ outcome = .success ∧ l.hooks.isSome = true)

theorem complete_spec (hopen : l.completed = false) (outcome : StreamOutcome) :
    Tallies (l.complete outcome : Logged (Event σ C A) _) fun T l' ↦
      l' = ⟨none, true⟩ ∧ l.Completes outcome T := by
  obtain ⟨hooks, completed⟩ := l
  subst hopen
  cases hooks with
  | none => exact ⟨rfl, 0, rfl, .inl rfl⟩
  | some hooks =>
    obtain ⟨retryBudget, attempts⟩ := hooks
    change Tallies (_ >>= fun _ ↦ pure _) _
    unfold StreamResilienceHooks.complete
    dsimp only
    split
    next hcredit =>
      simp only [Bool.and_eq_true, decide_eq_true_eq] at hcredit
      apply tallies_bind.mpr
      apply tallies_tell_bind.mpr
      apply tallies_finish_bind.mpr
      apply tallies_finish_bind.mpr
      refine ⟨rfl, 1, ?_, .inr ⟨rfl, hcredit.2, rfl⟩⟩
      change ({ zero with credits := 1 } : Tally σ C A) ++
        (guardsEnded (attempts.endedAs outcome.ending) ++ zero) ++ zero = _
      simp [append_def, guardsEnded, zero, held, AttemptGuards.endedAs]
    · apply tallies_bind.mpr
      apply tallies_finish_bind.mpr
      apply tallies_finish_bind.mpr
      refine ⟨rfl, 0, ?_, .inl rfl⟩
      change (guardsEnded (attempts.endedAs outcome.ending) ++ zero) ++
        zero = _
      simp [append_def, guardsEnded, zero, held, AttemptGuards.endedAs]

theorem live_completed (calls : List StreamOutcome) :
    Tallies ((⟨none, true⟩ : StreamLifecycle C A).live calls : Logged (Event σ C A) Unit)
      fun T _ ↦ T = .zero := by
  induction calls with
  | nil => rfl
  | cons outcome calls ih =>
    have hkept : (⟨none, true⟩ : StreamLifecycle C A).complete outcome =
        (pure ⟨none, true⟩ : Logged (Event σ C A) _) := rfl
    unfold live
    rw [hkept, tallies_bind, tallies_pure]
    simpa only [zero_append] using ih

/-- The first completion counts; a stream that is never completed is cancelled by its drop. -/
theorem live_spec (hopen : l.completed = false) (calls : List StreamOutcome) :
    Tallies (l.live calls : Logged (Event σ C A) Unit) fun T _ ↦
      l.Completes (calls.head?.getD .canceled) T := by
  cases calls with
  | nil =>
    unfold live
    apply (complete_spec hopen .canceled).bind
    rintro T l' ⟨rfl, hT⟩
    rw [tallies_pure, append_zero]
    exact hT
  | cons outcome calls =>
    unfold live
    apply (complete_spec hopen outcome).bind
    rintro T l' ⟨rfl, hT⟩
    apply (live_completed calls).mono
    rintro U _ rfl
    rw [append_zero]
    exact hT

end StreamLifecycle

/-! ## Whole calls -/

def Phase.execution : Phase σ C A → RequestExecutionState
  | .running s => s.execution
  | .finished f => f.execution

def Phase.live (calls : List StreamOutcome) : Phase σ C A → Logged (Event σ C A) Unit
  | .finished ⟨_, .stream returned⟩ => returned.lifecycle.live calls
  | _ => return ()

/-- The loop so far, and what becomes of the stream it may have returned. -/
def SendCall.whole (q : SendCall σ) (turns : List (Turn C A)) (calls : List StreamOutcome) :
    Tally σ C A :=
  q.soFar turns ++ tally ((q.after turns).live calls).events

/-- Every guard that was begun has ended, in the same order. -/
def Tally.Balanced (T : Tally σ C A) : Prop := T.ended.map Prod.fst = T.begun

def Tally.Marked (T : Tally σ C A) : Prop := ∀ e ∈ T.ended, e.2 ≠ .drop

theorem Tally.Balanced.append {T U : Tally σ C A} (hT : T.Balanced) (hU : U.Balanced) :
    (T ++ U).Balanced := by
  rw [Balanced, append_def, List.map_append, hT, hU]

theorem Tally.Marked.append {T U : Tally σ C A} (hT : T.Marked) (hU : U.Marked) :
    (T ++ U).Marked := by
  intro e he
  rcases List.mem_append.mp he with he | he
  · exact hT e he
  · exact hU e he

theorem Tally.Marked.named {T : Tally σ C A} (h : T.Marked) :
    ∀ e ∈ T.ended, e.2 = .success ∨ e.2 = .failure ∨ e.2 = .cancel := by
  intro e he
  cases hending : e.2 with
  | success => exact .inl rfl
  | failure => exact .inr (.inl rfl)
  | cancel => exact .inr (.inr rfl)
  | drop => exact absurd hending (h e he)

/-- The invariant at the top of a pass, after the events that `T` counts. -/
structure Accounted (q : SendCall σ) (T : Tally σ C A) (s : SendState σ) : Prop where
  options : s.execution.options = q.input.executionOptions
  balanced : T.Balanced
  marked : T.Marked
  attempt_pos : 1 ≤ s.execution.attempt
  tokens : T.tokens = q.client.retryCost * (s.execution.attempt - 1)
  credits : T.credits = 0

namespace Accounted

variable {q : SendCall σ} {T U : Tally σ C A} {s s' : SendState σ} {t : Turn C A}

theorem step (h : Accounted q T s) (hpassed : Passed q.runtime q.client t s U (.running s')) :
    Accounted q (T ++ U) s' := by
  obtain ⟨limit, htight, -⟩ := tightened_cases q.client t s
  have hpos := h.attempt_pos
  cases hpassed with
  | retried request g hrequest hleft =>
    rw [htight]
    refine ⟨h.options, h.balanced.append (g.map_fst_endedAs _),
      h.marked.append (g.ne_drop_of_mem_endedAs (by decide)), Nat.le_add_left 1 _, ?_, h.credits⟩
    have hstep : s.execution.attempt + 1 - 1 = s.execution.attempt - 1 + 1 := by omega
    change T.tokens + q.client.retryCost = q.client.retryCost * (s.execution.attempt + 1 - 1)
    rw [h.tokens, hstep, Nat.mul_succ]
  | redirected request g status headers action hrequest haction =>
    rw [htight]
    exact ⟨h.options, h.balanced.append (g.map_fst_endedAs _),
      h.marked.append (g.ne_drop_of_mem_endedAs (by decide)), hpos, h.tokens, h.credits⟩

theorem of_running {turns : List (Turn C A)} (h : q.after turns = .running s) :
    Accounted q (q.soFar turns) s := by
  refine SendCall.running_invariant (P := fun _ T s ↦ Accounted q T s) ?_ ?_ h
  · exact ⟨rfl, rfl, fun e he ↦ absurd he List.not_mem_nil, le_rfl, rfl, rfl⟩
  · intro _ t T s U s' hs hpassed
    exact hs.step hpassed

end Accounted

/-- The response that a credit is for: one that the loop read to its end, or a stream whose
first completion is a success. -/
inductive Credited (q : SendCall σ) (t : Turn C A) (calls : List StreamOutcome) :
    Outcome C A → Prop
  | response (status : StatusCode) (headers : HeaderMap) (bytes : Bytes) (outcome : Outcome C A)
      (hanswer : t.transport = .response status headers)
      (hstatus : q.input.executionOptions.retryPolicy.isRetryableStatus status = false)
      (hread : Client.readAllBodyLimited q.runtime q.input.executionOptions.maxResponseBodyBytes
        t.body = .ok bytes) (hstream : outcome.isStream = false) :
      Credited q t calls outcome
  | stream (returned : StreamResponse C A)
      (hstatus : q.input.executionOptions.retryPolicy.isRetryableStatus returned.status = false)
      (hsuccess : calls.head? = some .success) : Credited q t calls (.stream returned)

theorem Creditable.not_retryable {q : SendCall σ} {x : RequestExecutionState} {status : StatusCode}
    (hvalid : q.input.executionOptions.retryPolicy.validate = .ok ())
    (hoptions : x.options = q.input.executionOptions) (h : Creditable x status) :
    q.input.executionOptions.retryPolicy.isRetryableStatus status = false := by
  rw [Creditable, hoptions] at h
  rcases h with hsuccess | hstatus
  · by_contra hretryable
    rw [Bool.not_eq_false] at hretryable
    rw [(RetryPolicy.of_validate hvalid).2 status hretryable] at hsuccess
    cases hsuccess
  · exact hstatus

structure Closed (q : SendCall σ) (t : Turn C A) (calls : List StreamOutcome)
    (outcome : Outcome C A) (T : Tally σ C A) : Prop where
  balanced : T.Balanced
  marked : outcome = .abandoned ∨ T.Marked
  tokens : T.tokens = 0
  credits : T.credits = 0 ∨ T.credits = 1 ∧ Credited q t calls outcome

section Closing

variable {q : SendCall σ} {t : Turn C A} {calls : List StreamOutcome} {outcome : Outcome C A}
  {x : RequestExecutionState} {request : SentRequest σ} {g : AttemptGuards C A}
  {ended : List (Guard C A × Ending)} {credits : ℕ}

theorem live_of_not_stream (hstream : outcome.isStream = false) :
    tally ((Phase.finished ⟨x, outcome⟩ : Phase σ C A).live calls).events = .zero := by
  cases outcome with
  | stream returned => cases hstream
  | failed error => rfl
  | response status headers body => rfl
  | abandoned => rfl

theorem closed_of_not_stream (hvalid : q.input.executionOptions.retryPolicy.validate = .ok ())
    (hoptions : x.options = q.input.executionOptions) (hstream : outcome.isStream = false)
    (hguards : ended.map Prod.fst ++ outcome.held = g.toList) (hmarks : outcome.Marks ended)
    (hcredits : outcome.Credits q.runtime t x credits) :
    Closed q t calls outcome (⟨[request], g.toList, ended, [], 0, credits⟩ : Tally σ C A) := by
  have hheld : outcome.held = [] := by
    cases outcome <;> first | rfl | cases hstream
  rw [hheld, List.append_nil] at hguards
  refine ⟨hguards, hmarks, rfl, ?_⟩
  rcases hcredits with hnone | ⟨hone, -, status, headers, bytes, hanswer, hcreditable, hread⟩
  · exact .inl hnone
  · rw [hoptions] at hread
    exact .inr ⟨hone, .response status headers bytes outcome hanswer
      (hcreditable.not_retryable hvalid hoptions) hread hstream⟩

theorem closed_of_stream (hvalid : q.input.executionOptions.retryPolicy.validate = .ok ())
    (hoptions : x.options = q.input.executionOptions) {returned : StreamResponse C A}
    (hguards : ended.map Prod.fst ++ returned.lifecycle.held = g.toList)
    (hmarks : (Outcome.stream returned).Marks ended) (hfresh : (Outcome.stream returned).Fresh x)
    (hcredits : (Outcome.stream returned).Credits q.runtime t x credits) :
    Closed q t calls (.stream returned) (⟨[request], g.toList, ended, [], 0, credits⟩ ++
      tally (returned.lifecycle.live calls : Logged (Event σ C A) Unit).events) := by
  obtain ⟨hopen, hcreditable⟩ := hfresh
  -- The loop leaves the credit of a returned stream to the stream.
  have hnone : credits = 0 := hcredits.resolve_right fun h ↦ by cases h.2.1
  obtain ⟨streamCredits, hlife, hstream⟩ := StreamLifecycle.live_spec hopen calls
  rw [hlife]
  refine ⟨?_, .inr ?_, rfl, ?_⟩
  · simp [Tally.Balanced, append_def, guardsEnded, zero, ← hguards, Function.comp_def]
  · apply Marked.append
    · exact hmarks.resolve_left (by simp)
    · intro e he
      obtain ⟨guard, -, rfl⟩ := List.mem_map.mp he
      cases calls.head?.getD .canceled <;> simp [StreamOutcome.ending]
  · rw [hnone]
    rcases hstream with rfl | ⟨rfl, hsuccess, hhooks⟩
    · exact .inl rfl
    · refine .inr ⟨rfl, .stream returned ?_ ?_⟩
      · exact (hcreditable hhooks).not_retryable hvalid hoptions
      · -- A stream that was only dropped is cancelled, not completed.
        cases calls with
        | nil => cases hsuccess
        | cons outcome calls => exact congrArg some hsuccess

end Closing

theorem Passed.closed {q : SendCall σ} {t : Turn C A} {s : SendState σ} {U : Tally σ C A}
    {f : Finish C A} (hvalid : q.input.executionOptions.retryPolicy.validate = .ok ())
    (hoptions : s.execution.options = q.input.executionOptions)
    (h : Passed q.runtime q.client t s U (.finished f)) (calls : List StreamOutcome) :
    f.execution.attempt = s.execution.attempt ∧ Closed q t calls f.outcome
      (U ++ tally ((Phase.finished f : Phase σ C A).live calls).events) := by
  obtain ⟨limit, htight, -⟩ := tightened_cases q.client t s
  cases h with
  | notSent g ending limit outcome houtcome =>
    have hstream : outcome.isStream = false := by
      rcases houtcome with rfl | ⟨-, error, rfl⟩ <;> rfl
    rw [live_of_not_stream hstream, append_zero]
    refine ⟨rfl, g.map_fst_endedAs ending, ?_, rfl, .inl rfl⟩
    exact houtcome.imp_right fun h ↦ g.ne_drop_of_mem_endedAs h.1
  | returned request g ended credits outcome hrequest hguards hmarks hfresh hcredits hkeeps =>
    rw [htight] at hfresh hcredits ⊢
    refine ⟨rfl, ?_⟩
    cases hstream : outcome.isStream with
    | false =>
      rw [live_of_not_stream hstream, append_zero]
      exact closed_of_not_stream hvalid hoptions hstream hguards hmarks hcredits
    | true =>
      cases outcome with
      | stream returned => exact closed_of_stream hvalid hoptions hguards hmarks hfresh hcredits
      | failed error => cases hstream
      | response status headers body => cases hstream
      | abandoned => cases hstream

/-- Every guard of a call ends exactly once, as a success, a failure or a cancellation unless
the future itself was dropped; the budget has paid for every attempt but the first; and it
gets at most one credit, for the final response. -/
theorem accounts_exactly_once (q : SendCall σ)
    (hvalid : q.input.executionOptions.retryPolicy.validate = .ok ()) (turns : List (Turn C A))
    (calls : List StreamOutcome) :
    (q.whole turns calls).ended.map Prod.fst = (q.whole turns calls).begun ∧
    ((∃ x, q.after turns = .finished ⟨x, .abandoned⟩) ∨
      ∀ e ∈ (q.whole turns calls).ended, e.2 = .success ∨ e.2 = .failure ∨ e.2 = .cancel) ∧
    (q.whole turns calls).tokens =
      q.client.retryCost * ((q.after turns).execution.attempt - 1) ∧
    (q.whole turns calls).credits ≤ 1 ∧
    ((q.whole turns calls).credits = 1 → ∃ before t rest s f, turns = before ++ t :: rest ∧
      q.after before = .running s ∧ q.after (before ++ [t]) = .finished f ∧
        q.after turns = .finished f ∧ Credited q t calls f.outcome) := by
  cases hturns : q.after turns with
  | running s =>
    have hwhole : q.whole turns calls = q.soFar turns := by
      rw [SendCall.whole, hturns]
      exact append_zero _
    have haccounted := Accounted.of_running hturns
    rw [hwhole]
    refine ⟨haccounted.balanced, .inr haccounted.marked.named, haccounted.tokens, ?_, ?_⟩
    · rw [haccounted.credits]
      exact Nat.zero_le 1
    · intro hone
      rw [haccounted.credits] at hone
      cases hone
  | finished f =>
    obtain ⟨before, t, rest, s, U, hsplit, hbefore, hlast, hsum, hpassed⟩ :=
      SendCall.last_pass hturns
    have haccounted := Accounted.of_running hbefore
    obtain ⟨hattempt, hclosed⟩ := hpassed.closed hvalid haccounted.options calls
    have hwhole : q.whole turns calls = q.soFar before ++
        (U ++ tally ((Phase.finished f : Phase σ C A).live calls).events) := by
      rw [SendCall.whole, hturns, hsum, append_assoc]
    rw [hwhole]
    refine ⟨haccounted.balanced.append hclosed.balanced, ?_, ?_, ?_, ?_⟩
    · rcases hclosed.marked with habandoned | hmarked
      · exact .inl ⟨f.execution, by rw [← habandoned]⟩
      · exact .inr (haccounted.marked.append hmarked).named
    · change (q.soFar before).tokens + _ = _
      rw [hclosed.tokens, haccounted.tokens]
      change _ = q.client.retryCost * (f.execution.attempt - 1)
      rw [hattempt, Nat.add_zero]
    · change (q.soFar before).credits + _ ≤ 1
      rw [haccounted.credits, Nat.zero_add]
      rcases hclosed.credits with hzero | ⟨hone, -⟩ <;> omega
    · intro hone
      change (q.soFar before).credits + _ = 1 at hone
      rw [haccounted.credits, Nat.zero_add] at hone
      rcases hclosed.credits with hzero | ⟨-, hcredited⟩
      · omega
      · exact ⟨before, t, rest, s, f, hsplit, hbefore, hlast, rfl, hcredited⟩

def Sample.retriedOnce : List (Turn ℕ Unit) :=
  [Sample.turn 1 .timedOut, Sample.turn 2 (.response Sample.ok .empty)]

theorem accounts_exactly_once_retried :
    ((Sample.call .get .default).whole Sample.retriedOnce []).ended.map Prod.fst =
        [.circuit 1, .circuit 2] ∧
      ((Sample.call .get .default).whole Sample.retriedOnce []).tokens = 1 ∧
      ((Sample.call .get .default).whole Sample.retriedOnce []).credits ≤ 1 := by
  obtain ⟨hended, -, htokens, hcredits, -⟩ := accounts_exactly_once (Sample.call .get .default)
    RetryPolicy.standard_validate Sample.retriedOnce []
  exact ⟨hended.trans rfl, htokens.trans rfl, hcredits⟩

end Reqx.Driver
