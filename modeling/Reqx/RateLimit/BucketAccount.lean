import Reqx.RateLimit.Ledger

/-!
# A token bucket and its account

A bucket refills only when it is used. Its account says what it would hold
after a refill, so it does not depend on when the last refill was.
-/

namespace Reqx.RateLimit

open Accrual

variable {p : RateLimitPolicy} {now later : ℕ}

theorem filter_lt_filter_lt (deadline : Option ℕ) (hle : now ≤ later) :
    (deadline.filter (now < ·)).filter (later < ·) = deadline.filter (later < ·) := by
  cases deadline with
  | none => rfl
  | some deadline =>
    by_cases hlater : later < deadline
    · simp [Option.filter, hlater, hle.trans_lt hlater]
    · by_cases hdead : now < deadline <;> simp [Option.filter, hlater, hdead]

namespace Account

theorem advance_full (hp : p.validate = .ok ()) (before : ℕ) :
    (full p).advance p before now = full p := by
  have hrate := ((p.validate_eq_ok_iff).mp hp).1.le
  simp [advance, full, accrue_cap hrate (asSecs_nonneg _)]

theorem advance_advance (hp : p.validate = .ok ()) {before : ℕ} (a : Account)
    (hbefore : before ≤ now) (hnow : now ≤ later) :
    (a.advance p before now).advance p now later = a.advance p before later := by
  have hrate := ((p.validate_eq_ok_iff).mp hp).1.le
  have hsplit : asSecs (later - before) = asSecs (now - before) + asSecs (later - now) := by
    rw [asSecs_sub hbefore, asSecs_sub hnow, asSecs_sub (hbefore.trans hnow)]
    ring
  simp only [advance, filter_lt_filter_lt _ hnow, hsplit, accrue_add hrate (asSecs_nonneg _)]

end Account

namespace TokenBucket

def account (b : TokenBucket) (now : ℕ) : Account :=
  ⟨accrue b.policy.burst b.policy.requestsPerSecond (asSecs (now - b.lastRefillAt)) b.tokens,
    b.throttleUntil.filter (now < ·)⟩

structure Sound (p : RateLimitPolicy) (now : ℕ) (b : TokenBucket) : Prop where
  policy_eq : b.policy = p
  tokens_nonneg : 0 ≤ b.tokens
  tokens_le : b.tokens ≤ p.burst
  refilled : b.lastRefillAt ≤ now

variable {b : TokenBucket}

theorem sound_new (p : RateLimitPolicy) (now : ℕ) : (new p now).Sound p now where
  policy_eq := rfl
  tokens_nonneg := by simp [new]
  tokens_le := le_rfl
  refilled := le_rfl

theorem account_new (p : RateLimitPolicy) (now : ℕ) : (new p now).account now = .full p := by
  simp [account, new, Account.full, asSecs, accrue]

namespace Sound

theorem mono (h : b.Sound p now) (hle : now ≤ later) : b.Sound p later :=
  ⟨h.policy_eq, h.tokens_nonneg, h.tokens_le, h.refilled.trans hle⟩

theorem account_later (hp : p.validate = .ok ()) (h : b.Sound p now) (hle : now ≤ later) :
    b.account later = (b.account now).advance p now later := by
  have hself : ∀ t, b.account t = Account.advance p b.lastRefillAt t ⟨b.tokens, b.throttleUntil⟩ :=
    fun t ↦ by simp [account, Account.advance, h.policy_eq]
  rw [hself later, hself now, Account.advance_advance hp _ h.refilled hle]

theorem level_le (h : b.Sound p now) : (b.account now).level ≤ p.burst := by
  rw [← h.policy_eq]
  exact accrue_le_cap

/-! ## Refilling -/

theorem refill_of_eq (h : b.lastRefillAt = now) : b.refill now = b := by
  simp [refill, h]

theorem refill_of_lt (h : b.lastRefillAt < now) :
    b.refill now = ⟨b.policy, (b.account now).level, now, (b.account now).hold⟩ := by
  simp only [TokenBucket.refill, if_neg h.not_ge, account, accrue, rounded_exact, asSecsF64_exact]
  congr 1
  rw [min_comm, mul_comm]

theorem account_of_eq (h : b.Sound p now) (hlast : b.lastRefillAt = now) :
    b.account now = ⟨b.tokens, b.throttleUntil.filter (now < ·)⟩ := by
  have hzero : asSecs (now - b.lastRefillAt) = 0 := by simp [hlast, asSecs]
  rw [account, hzero, accrue_zero (h.policy_eq ▸ h.tokens_le)]

theorem tokens_refill (h : b.Sound p now) : (b.refill now).tokens = (b.account now).level := by
  rcases h.refilled.eq_or_lt with hlast | hlast
  · rw [refill_of_eq hlast, h.account_of_eq hlast]
  · rw [refill_of_lt hlast]

theorem hold_refill (h : b.Sound p now) :
    (b.refill now).throttleUntil.filter (now < ·) = (b.account now).hold := by
  rcases h.refilled.eq_or_lt with hlast | hlast
  · rw [refill_of_eq hlast, h.account_of_eq hlast]
  · rw [refill_of_lt hlast]
    exact filter_lt_filter_lt b.throttleUntil le_rfl

theorem isThrottled_refill (h : b.Sound p now) :
    (b.refill now).isThrottled now = (b.account now).hold.isSome := by
  rw [← h.hold_refill, isThrottled]
  cases (b.refill now).throttleUntil with
  | none => rfl
  | some deadline => by_cases hlt : now < deadline <;> simp [Option.filter, hlt]

theorem refill (h : b.Sound p now) (hp : p.validate = .ok ()) : (b.refill now).Sound p now := by
  have hrate := ((p.validate_eq_ok_iff).mp hp).1.le
  rcases h.refilled.eq_or_lt with hlast | hlast
  · rw [refill_of_eq hlast]
    exact h
  · have hgain : b.tokens ≤ (b.account now).level := by
      apply le_accrue
      · rw [h.policy_eq]
        exact hrate
      · exact asSecs_nonneg _
      · rw [h.policy_eq]
        exact h.tokens_le
    rw [refill_of_lt hlast]
    exact ⟨h.policy_eq, h.tokens_nonneg.trans hgain, h.level_le, le_rfl⟩

theorem lastRefillAt_refill (h : b.Sound p now) : (b.refill now).lastRefillAt = now := by
  rcases h.refilled.eq_or_lt with hlast | hlast
  · rw [refill_of_eq hlast, hlast]
  · rw [refill_of_lt hlast]

theorem account_refill (h : b.Sound p now) (hp : p.validate = .ok ()) :
    (b.refill now).account now = b.account now := by
  rw [(h.refill hp).account_of_eq h.lastRefillAt_refill, h.tokens_refill, h.hold_refill]

/-! ## The questions and the changes -/

theorem canConsumeNow_fst (h : b.Sound p now) :
    (b.canConsumeNow now).1 = (b.account now).ready := by
  simp [canConsumeNow, Account.ready, h.tokens_refill, h.isThrottled_refill]

theorem waitDuration_fst (h : b.Sound p now) :
    (b.waitDuration now).1 = (b.account now).wait p now := by
  have hpolicy : (b.refill now).policy = p := by
    unfold TokenBucket.refill
    split_ifs <;> exact h.policy_eq
  simp only [waitDuration, h.tokens_refill, h.isThrottled_refill, hpolicy, Account.wait]
  cases hhold : (b.account now).hold with
  | none =>
    simp only [Option.isSome_none, Bool.false_eq_true, if_false]
    split_ifs <;> rfl
  | some deadline =>
    have huntil : (b.refill now).throttleUntil = some deadline := by
      have hfilter := h.hold_refill
      rw [hhold, Option.filter_eq_some_iff] at hfilter
      exact hfilter.1
    simp [huntil, saturatingDurationSince]

theorem waitDuration_snd [TokenArithmetic] (b : TokenBucket) (now : ℕ) :
    (b.waitDuration now).2 = b.refill now := by
  simp only [waitDuration]
  split_ifs <;> rfl

theorem waitDuration_canConsumeNow (h : b.Sound p now) (hp : p.validate = .ok ()) :
    ((b.canConsumeNow now).2.waitDuration now).1 = (b.account now).wait p now ∧
      ((b.canConsumeNow now).2.waitDuration now).2 = b.refill now := by
  constructor
  · rw [← h.account_refill hp]
    exact (h.refill hp).waitDuration_fst
  · rw [waitDuration_snd]
    exact refill_of_eq h.lastRefillAt_refill

theorem consumeReadyToken (h : b.Sound p now) (hp : p.validate = .ok ())
    (hready : (b.account now).ready) :
    (b.canConsumeNow now).2.consumeReadyToken.Sound p now ∧
      (b.canConsumeNow now).2.consumeReadyToken.account now = (b.account now).spend := by
  have hrefilled := h.refill hp
  have hone : 1 ≤ (b.refill now).tokens := by
    rw [h.tokens_refill]
    exact (Account.ready_iff.mp hready).2
  have htokens : max ((b.refill now).tokens - 1) 0 = (b.refill now).tokens - 1 :=
    max_eq_left (by linarith)
  have hsound : (b.canConsumeNow now).2.consumeReadyToken.Sound p now := by
    refine ⟨hrefilled.policy_eq, le_max_right _ _, ?_, hrefilled.refilled⟩
    have hle := hrefilled.tokens_le
    change max ((b.refill now).tokens - 1) 0 ≤ p.burst
    rw [htokens]
    linarith
  refine ⟨hsound, ?_⟩
  rw [hsound.account_of_eq h.lastRefillAt_refill]
  change Account.mk (max ((b.refill now).tokens - 1) 0)
    ((b.refill now).throttleUntil.filter (now < ·)) = _
  rw [htokens, h.tokens_refill, h.hold_refill]
  rfl

theorem applyThrottle (h : b.Sound p now) (instantMax delay : ℕ) :
    (b.applyThrottle instantMax now delay).Sound p now ∧
      (b.applyThrottle instantMax now delay).account now =
        (b.account now).throttle p instantMax now delay := by
  obtain rfl := h.policy_eq
  simp only [TokenBucket.applyThrottle, Account.throttle]
  by_cases hzero : min delay b.policy.maxThrottleDelay = 0
  · rw [if_pos hzero, if_pos (.inl hzero)]
    exact ⟨h, rfl⟩
  by_cases hover : instantMax < now + min delay b.policy.maxThrottleDelay
  · rw [if_neg hzero, if_pos hover, if_pos (.inr hover)]
    exact ⟨h, rfl⟩
  rw [if_neg hzero, if_neg hover, if_neg (not_or.mpr ⟨hzero, hover⟩)]
  refine ⟨⟨h.policy_eq, h.tokens_nonneg, h.tokens_le, h.refilled⟩, ?_⟩
  generalize min delay b.policy.maxThrottleDelay = capped at hzero
  -- An existing deadline that has passed is below the new one.
  cases huntil : b.throttleUntil with
  | none =>
    have hlt : now < now + capped := by omega
    simp [account, huntil, Option.filter, hlt]
  | some deadline =>
    by_cases hpast : now < deadline
    · have hlt : now < max deadline (now + capped) := lt_max_of_lt_left hpast
      simp [account, huntil, Option.filter, hpast, hlt]
    · have hmax : max deadline (now + capped) = now + capped := by omega
      have hlt : now < now + capped := by omega
      simp [account, huntil, Option.filter, hpast, hmax, hlt]

theorem account_of_isIdle (h : b.Sound p now) (hp : p.validate = .ok ()) (hidle : b.isIdle now) :
    b.account now = .full p := by
  have hrate := ((p.validate_eq_ok_iff).mp hp).1.le
  simp only [isIdle, Bool.and_eq_true, decide_eq_true_eq, h.policy_eq, Bool.not_eq_true',
    isThrottled] at hidle
  have htokens : b.tokens = p.burst := le_antisymm h.tokens_le hidle.1
  have hhold : b.throttleUntil.filter (now < ·) = none := by
    cases huntil : b.throttleUntil with
    | none => rfl
    | some deadline =>
      have hpast : ¬ now < deadline := by simpa [huntil] using hidle.2
      simp [Option.filter, hpast]
  rw [account, h.policy_eq, htokens, accrue_cap hrate (asSecs_nonneg _), hhold]
  rfl

end Sound

end TokenBucket

end Reqx.RateLimit
