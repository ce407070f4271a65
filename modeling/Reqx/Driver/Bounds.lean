import Reqx.Driver.Run

/-!
# How long the send loop runs

The attempt limit is lowered by interceptors and raised by redirects, so
neither counter bounds the loop alone. Every pass that leads to another one
makes exactly one send and adds one to the attempt or to the redirect count;
the limits of both bound the sends.
-/

namespace Reqx.Driver

variable {σ C A : Type}

namespace SendCall

def configuredMaxAttempts (q : SendCall σ) : ℕ := q.input.executionOptions.retryPolicy.maxAttempts

def maxRedirects (q : SendCall σ) : ℕ := q.input.executionOptions.redirectPolicy.maxRedirects

theorem redirects_add_one {q : SendCall σ} {count : ℕ} (h : count < q.maxRedirects) :
    saturatingAdd count 1 = count + 1 := by
  have hfits : q.maxRedirects ≤ usizeMax := q.input.executionOptions.redirectPolicy.fits
  apply saturatingAdd_of_le
  omega

end SendCall

/-- The invariant at the top of a pass, after `n` turns and the events that `T` counts. -/
structure Counted (q : SendCall σ) (n : ℕ) (T : Tally σ C A) (s : SendState σ) : Prop where
  options : s.execution.options = q.input.executionOptions
  attempt_pos : 1 ≤ s.execution.attempt
  attempt_le : s.execution.attempt ≤ s.execution.maxAttempts
  limit_le : s.execution.maxAttempts ≤ q.configuredMaxAttempts
  redirects_le : s.execution.redirectCount ≤ q.maxRedirects
  sends : T.sent.length + 1 = s.execution.attempt + s.execution.redirectCount
  turns : n = T.sent.length

namespace Counted

variable {q : SendCall σ} {n : ℕ} {T U : Tally σ C A} {s s' : SendState σ} {t : Turn C A}

theorem first (hvalid : q.input.executionOptions.retryPolicy.validate = .ok ()) :
    Counted q 0 (.zero : Tally σ C A) q.first := by
  have hpos : 1 ≤ q.configuredMaxAttempts := (RetryPolicy.of_validate hvalid).1
  have hlimit : 1 ≤ q.first.execution.maxAttempts ∧
      q.first.execution.maxAttempts ≤ q.configuredMaxAttempts := by
    simp only [SendCall.first, RequestExecutionState.fromRequest]
    split
    · exact ⟨hpos, le_rfl⟩
    · exact ⟨le_rfl, hpos⟩
  exact ⟨rfl, le_rfl, hlimit.1, hlimit.2, Nat.zero_le _, rfl, rfl⟩

theorem step (h : Counted q n T s) (hpassed : Passed q.runtime q.client t s U (.running s')) :
    Counted q (n + 1) (T ++ U) s' := by
  obtain ⟨limit, htight, hlimit, hattempt, -⟩ := tightened_cases q.client t s
  have hkept : s.execution.attempt ≤ limit := hattempt h.attempt_le
  have hpos := h.attempt_pos
  have hle := h.limit_le
  have hsends := h.sends
  cases hpassed with
  | retried request g hrequest hleft =>
    rw [htight] at hleft ⊢
    refine ⟨h.options, ?_, ?_, ?_, h.redirects_le, ?_, ?_⟩
    · exact Nat.le_add_left 1 _
    · exact hleft
    · exact hlimit.trans hle
    · simp only [Tally.append_def, List.length_append, List.length_singleton]
      omega
    · simp only [Tally.append_def, List.length_append, List.length_singleton, h.turns]
  | redirected request g status headers action hrequest haction =>
    rw [htight] at haction ⊢
    obtain ⟨hcount, -⟩ := RequestExecutionState.nextRedirectAction_eq_some haction
    have hroom : s.execution.redirectCount < q.maxRedirects := by
      simpa [SendCall.maxRedirects, h.options] using hcount
    refine ⟨h.options, hpos, ?_, ?_, ?_, ?_, ?_⟩
    · -- The limit is restored only where it was one, and so was the attempt.
      simp only [RequestExecutionState.applyRedirect, h.options]
      have hconfigured : limit ≤ q.configuredMaxAttempts := hlimit.trans hle
      split
      · exact hkept.trans hconfigured
      · exact hkept
    · simp only [RequestExecutionState.applyRedirect, h.options]
      split
      · exact le_rfl
      · exact hlimit.trans hle
    · simp only [RequestExecutionState.applyRedirect, SendCall.redirects_add_one hroom]
      exact hroom
    · simp only [RequestExecutionState.applyRedirect, SendCall.redirects_add_one hroom,
        Tally.append_def, List.length_append, List.length_singleton]
      omega
    · simp only [Tally.append_def, List.length_append, List.length_singleton, h.turns]

theorem of_running (hvalid : q.input.executionOptions.retryPolicy.validate = .ok ())
    {turns : List (Turn C A)} (h : q.after turns = .running s) :
    Counted q turns.length (q.soFar turns) s := by
  refine SendCall.running_invariant (P := fun turns T s ↦ Counted q turns.length T s)
    (first hvalid) ?_ h
  intro turns t T s U s' hs hpassed
  rw [List.length_append]
  exact hs.step hpassed

theorem sends_lt (h : Counted q n T s) :
    T.sent.length < q.configuredMaxAttempts + q.maxRedirects := by
  have := h.sends
  have := h.attempt_le
  have := h.limit_le
  have := h.redirects_le
  omega

end Counted

theorem Passed.sent_length_le {rt : Runtime} {c : Client} {t : Turn C A} {s : SendState σ}
    {U : Tally σ C A} {phase : Phase σ C A} (h : Passed rt c t s U phase) : U.sent.length ≤ 1 := by
  cases h with
  | notSent => exact Nat.zero_le 1
  | retried => exact le_rfl
  | redirected => exact le_rfl
  | returned => exact le_rfl

theorem SendCall.sends_le {q : SendCall σ} {turns : List (Turn C A)}
    (hvalid : q.input.executionOptions.retryPolicy.validate = .ok ()) :
    (q.soFar turns).sent.length ≤ q.configuredMaxAttempts + q.maxRedirects := by
  cases hturns : q.after turns with
  | running s => exact (Counted.of_running hvalid hturns).sends_lt.le
  | finished f =>
    obtain ⟨before, t, rest, s, U, -, hbefore, -, hsum, hpassed⟩ := SendCall.last_pass hturns
    have hsent := (Counted.of_running hvalid hbefore).sends_lt
    have hlast := hpassed.sent_length_le
    rw [hsum, Tally.append_def]
    simp only [List.length_append]
    omega

/-- The counters and the sends at the top of every pass, the bound on the sends of a call, and
the end of the loop. -/
theorem send_loop_bounded (q : SendCall σ)
    (hvalid : q.input.executionOptions.retryPolicy.validate = .ok ()) (turns : List (Turn C A)) :
    (∀ s, q.after turns = .running s →
      1 ≤ s.execution.attempt ∧ s.execution.attempt ≤ s.execution.maxAttempts ∧
      s.execution.maxAttempts ≤ q.configuredMaxAttempts ∧
      s.execution.redirectCount ≤ q.maxRedirects ∧
      (q.soFar turns).sent.length = (s.execution.attempt - 1) + s.execution.redirectCount ∧
      s.execution.canAttempt = true) ∧
    (q.soFar turns).sent.length ≤ q.configuredMaxAttempts + q.maxRedirects ∧
    (q.configuredMaxAttempts + q.maxRedirects ≤ turns.length →
      ∃ f, q.after turns = .finished f) := by
  refine ⟨?_, SendCall.sends_le hvalid, ?_⟩
  · intro s hs
    have hcounted := Counted.of_running hvalid hs
    have hsends := hcounted.sends
    have hpos := hcounted.attempt_pos
    refine ⟨hpos, hcounted.attempt_le, hcounted.limit_le, hcounted.redirects_le, ?_, ?_⟩
    · omega
    · exact decide_eq_true hcounted.attempt_le
  · intro hlong
    cases hturns : q.after turns with
    | finished f => exact ⟨f, rfl⟩
    | running s =>
      -- As many sends as turns, and fewer sends than the limits allow.
      have hcounted := Counted.of_running hvalid hturns
      have hfew := hcounted.sends_lt
      have hcount := hcounted.turns
      omega

theorem send_loop_bounded_standard :
    ((Sample.call .get .default).soFar [Sample.turn 1 .timedOut, Sample.hop 2 "b.test"]).sent.length
      ≤ 3 + 10 :=
  (send_loop_bounded (Sample.call .get .default) RetryPolicy.standard_validate
    [Sample.turn 1 .timedOut, Sample.hop 2 "b.test"]).2.1

end Reqx.Driver
