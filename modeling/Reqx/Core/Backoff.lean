import Reqx.Core.Retry

/-!
# Backoff arithmetic

The delay before a retry in the types of the source. A `Duration` has seconds and
nanoseconds, and what is computed in between is a `u128`. Nothing on the way is cut
off, so the result is the one that the policies compute with natural numbers.
-/

namespace Reqx

/-- `std::time::Duration`. -/
@[ext] structure Duration where
  secs : ℕ
  subsecNanos : ℕ
  secs_lt : secs < 2 ^ 64
  subsecNanos_lt : subsecNanos < nanosPerSecond

namespace Duration

def asNanos (d : Duration) : ℕ := d.secs * nanosPerSecond + d.subsecNanos

/-- `Duration::MAX`. -/
def longest : Duration where
  secs := 2 ^ 64 - 1
  subsecNanos := nanosPerSecond - 1
  secs_lt := Nat.sub_lt (Nat.two_pow_pos 64) Nat.one_pos
  subsecNanos_lt := Nat.sub_lt (Nat.succ_pos _) Nat.one_pos

-- The two casts to the fields keep every digit: the guard and the remainder see to that.
def fromNanosSaturating (nanoseconds : ℕ) : Duration :=
  if h : nanoseconds / nanosPerSecond > 2 ^ 64 - 1 then longest
  else
    { secs := nanoseconds / nanosPerSecond
      subsecNanos := nanoseconds % nanosPerSecond
      secs_lt := Nat.lt_of_le_pred (Nat.two_pow_pos 64) (Nat.le_of_not_gt h)
      subsecNanos_lt := Nat.mod_lt _ (Nat.succ_pos _) }

/-- `u128::saturating_mul`. -/
def saturatingMul (a b : ℕ) : ℕ := min (a * b) u128Max

def applyBackoffJitter (backoff maxBackoff : Duration) (jitterRatio : ℚ) (draw : ℕ) : Duration :=
  let jitterRatio := max 0 (min jitterRatio 1)
  if jitterRatio ≤ epsilon then backoff
  else
    let backoffNanos := backoff.asNanos
    if backoffNanos ≤ 1 then backoff
    else
      let maxBackoffNanos := max maxBackoff.asNanos 1
      let jitterSpan := max (roundHalfUp (backoffNanos * jitterRatio)) 1
      let low := backoffNanos - jitterSpan
      let high := max (min (backoffNanos + jitterSpan) u128Max) low
      fromNanosSaturating (min (randomRange low high draw) maxBackoffNanos)

def exponentialBackoffWithJitter (retryIndex : ℕ) (baseBackoff maxBackoff : Duration)
    (jitterRatio : ℚ) (draw : ℕ) : Duration :=
  let multiplier := 2 ^ min (retryIndex - 1) 31
  let baseNanos := max baseBackoff.asNanos 1
  let maxNanos := max maxBackoff.asNanos baseNanos
  let delayNanos := min (saturatingMul baseNanos multiplier) maxNanos
  applyBackoffJitter (fromNanosSaturating delayNanos) (fromNanosSaturating maxNanos) jitterRatio
    draw

/-! ## Conversions -/

theorem asNanos_le (d : Duration) : d.asNanos ≤ durationMax := by
  have hsecs := d.secs_lt
  have hnanos := d.subsecNanos_lt
  unfold asNanos durationMax nanosPerSecond at *
  omega

theorem asNanos_fromNanosSaturating (n : ℕ) :
    (fromNanosSaturating n).asNanos = durationFromNanosSaturating n := by
  unfold fromNanosSaturating durationFromNanosSaturating
  split
  · rfl
  · exact Nat.div_add_mod' n nanosPerSecond

theorem durationFromNanosSaturating_of_le {n : ℕ} (h : n ≤ durationMax) :
    durationFromNanosSaturating n = n := by
  refine if_neg ?_
  unfold durationMax nanosPerSecond at *
  omega

theorem asNanos_fromNanosSaturating_of_le {n : ℕ} (h : n ≤ durationMax) :
    (fromNanosSaturating n).asNanos = n := by
  rw [asNanos_fromNanosSaturating, durationFromNanosSaturating_of_le h]

theorem asNanos_injective : Function.Injective asNanos := by
  intro d d' h
  have hnanos := d.subsecNanos_lt
  have hnanos' := d'.subsecNanos_lt
  unfold asNanos nanosPerSecond at *
  ext <;> omega

theorem fromNanosSaturating_asNanos (d : Duration) : fromNanosSaturating d.asNanos = d :=
  asNanos_injective (asNanos_fromNanosSaturating_of_le d.asNanos_le)

/-- The computation with durations is the one with natural numbers. -/
theorem asNanos_applyBackoffJitter (backoff maxBackoff : Duration) (jitterRatio : ℚ) (draw : ℕ) :
    (applyBackoffJitter backoff maxBackoff jitterRatio draw).asNanos =
      Reqx.applyBackoffJitter backoff.asNanos maxBackoff.asNanos jitterRatio draw := by
  unfold applyBackoffJitter Reqx.applyBackoffJitter
  dsimp only
  split_ifs
  · rfl
  · rfl
  · exact asNanos_fromNanosSaturating _

theorem asNanos_exponentialBackoffWithJitter (retryIndex : ℕ) (baseBackoff maxBackoff : Duration)
    (jitterRatio : ℚ) (draw : ℕ) :
    (exponentialBackoffWithJitter retryIndex baseBackoff maxBackoff jitterRatio draw).asNanos =
      Reqx.exponentialBackoffWithJitter retryIndex baseBackoff.asNanos maxBackoff.asNanos
        jitterRatio draw := by
  unfold exponentialBackoffWithJitter Reqx.exponentialBackoffWithJitter
  rw [asNanos_applyBackoffJitter, asNanos_fromNanosSaturating, asNanos_fromNanosSaturating]
  rfl

end Duration

/-! ## Delays -/

theorem le_randomRange (low high draw : ℕ) : low ≤ randomRange low high draw :=
  Nat.le_add_right _ _

theorem randomRange_le {low high : ℕ} (h : low ≤ high) (draw : ℕ) :
    randomRange low high draw ≤ high := by
  have hmod : draw % (high - low + 1) < high - low + 1 := Nat.mod_lt _ (Nat.succ_pos _)
  unfold randomRange
  omega

/-- The delay before jitter. -/
def backoffDelay (retryIndex base maxBackoff : ℕ) : ℕ :=
  min (base * 2 ^ min (retryIndex - 1) 31) maxBackoff

/-- How far jitter may move a delay. -/
def jitterSpan (jitterRatio : ℚ) (delay : ℕ) : ℕ := max (roundHalfUp (jitterRatio * delay)) 1

theorem backoffDelay_mono (base maxBackoff : ℕ) {i j : ℕ} (h : i ≤ j) :
    backoffDelay i base maxBackoff ≤ backoffDelay j base maxBackoff := by
  have hexponent : min (i - 1) 31 ≤ min (j - 1) 31 := min_le_min_right 31 (Nat.sub_le_sub_right h 1)
  have hpow : 2 ^ min (i - 1) 31 ≤ 2 ^ min (j - 1) 31 :=
    Nat.pow_le_pow_right Nat.two_pos hexponent
  exact min_le_min_right maxBackoff (Nat.mul_le_mul_left base hpow)

theorem backoffDelay_le (retryIndex base maxBackoff : ℕ) :
    backoffDelay retryIndex base maxBackoff ≤ maxBackoff := min_le_right _ _

/-- The longest duration times the largest multiplier fits a `u128`. -/
theorem mul_multiplier_le {base : ℕ} (h : base ≤ durationMax) (retryIndex : ℕ) :
    base * 2 ^ min (retryIndex - 1) 31 ≤ u128Max := by
  have hpow : 2 ^ min (retryIndex - 1) 31 ≤ 2 ^ 31 :=
    Nat.pow_le_pow_right Nat.two_pos (min_le_right _ _)
  calc base * 2 ^ min (retryIndex - 1) 31
      ≤ durationMax * 2 ^ 31 := Nat.mul_le_mul h hpow
    _ ≤ u128Max := by norm_num [durationMax, nanosPerSecond, u128Max]

section Delay

variable {base maxBackoff : ℕ}

theorem exponentialBackoffWithJitter_eq (hbase : 0 < base) (hle : base ≤ maxBackoff)
    (hmax : maxBackoff ≤ durationMax) (retryIndex : ℕ) (jitterRatio : ℚ) (draw : ℕ) :
    exponentialBackoffWithJitter retryIndex base maxBackoff jitterRatio draw =
      applyBackoffJitter (backoffDelay retryIndex base maxBackoff) maxBackoff jitterRatio
        draw := by
  have hproduct := mul_multiplier_le (hle.trans hmax) retryIndex
  have hdelay := (backoffDelay_le retryIndex base maxBackoff).trans hmax
  unfold exponentialBackoffWithJitter
  dsimp only
  rw [max_eq_left hbase, max_eq_left hle, min_eq_left hproduct, ← backoffDelay,
    Duration.durationFromNanosSaturating_of_le hdelay,
    Duration.durationFromNanosSaturating_of_le hmax]

theorem applyBackoffJitter_zero (backoff maxBackoff draw : ℕ) :
    applyBackoffJitter backoff maxBackoff 0 draw = backoff := by
  have hsmall : max 0 (min (0 : ℚ) 1) ≤ epsilon := by norm_num [epsilon]
  exact if_pos hsmall

/-- Jitter moves a delay by its span at most, and not over the longest delay. -/
theorem applyBackoffJitter_near {backoff : ℕ} (hbackoff : backoff ≤ maxBackoff)
    (hmax : maxBackoff ≤ durationMax) {jitterRatio : ℚ} (hnonneg : 0 ≤ jitterRatio)
    (hone : jitterRatio ≤ 1) (draw : ℕ) :
    applyBackoffJitter backoff maxBackoff jitterRatio draw ≤ maxBackoff ∧
      backoff ≤ applyBackoffJitter backoff maxBackoff jitterRatio draw +
        jitterSpan jitterRatio backoff ∧
      applyBackoffJitter backoff maxBackoff jitterRatio draw ≤
        backoff + jitterSpan jitterRatio backoff := by
  have hclamp : max 0 (min jitterRatio 1) = jitterRatio := by
    rw [min_eq_left hone, max_eq_right hnonneg]
  unfold applyBackoffJitter
  dsimp only
  rw [hclamp, mul_comm (backoff : ℚ), ← jitterSpan]
  split_ifs with hepsilon hshort
  · exact ⟨hbackoff, Nat.le_add_right _ _, Nat.le_add_right _ _⟩
  · exact ⟨hbackoff, Nat.le_add_right _ _, Nat.le_add_right _ _⟩
  · set span := jitterSpan jitterRatio backoff
    set low := backoff - span
    set high := max (min (backoff + span) u128Max) low
    have hu128 : durationMax ≤ u128Max := by norm_num [durationMax, nanosPerSecond, u128Max]
    have hhigh : high ≤ backoff + span := by omega
    have hlow := le_randomRange low high draw
    have hsample := randomRange_le (le_max_right _ _ : low ≤ high) draw
    rw [max_eq_left (show 1 ≤ maxBackoff by omega),
      Duration.durationFromNanosSaturating_of_le ((min_le_right _ _).trans hmax)]
    exact ⟨min_le_right _ _, by omega, (min_le_left _ _).trans (hsample.trans hhigh)⟩

end Delay

/-- The delay is computed without loss and grows with the index; jitter keeps it within its span
and under the longest delay, whatever is drawn. -/
theorem backoff_arithmetic {base maxBackoff : Duration} (hbase : 0 < base.asNanos)
    (hle : base.asNanos ≤ maxBackoff.asNanos) :
    (∀ retryIndex draw,
      (Duration.exponentialBackoffWithJitter retryIndex base maxBackoff 0 draw).asNanos =
        min (base.asNanos * 2 ^ min (retryIndex - 1) 31) maxBackoff.asNanos) ∧
    (∀ i j draw, i ≤ j →
      (Duration.exponentialBackoffWithJitter i base maxBackoff 0 draw).asNanos ≤
        (Duration.exponentialBackoffWithJitter j base maxBackoff 0 draw).asNanos) ∧
    (∀ retryIndex, Duration.saturatingMul base.asNanos (2 ^ min (retryIndex - 1) 31) =
      base.asNanos * 2 ^ min (retryIndex - 1) 31) ∧
    (∀ nanoseconds ≤ maxBackoff.asNanos,
      (Duration.fromNanosSaturating nanoseconds).asNanos = nanoseconds) ∧
    (∀ duration : Duration, Duration.fromNanosSaturating duration.asNanos = duration) ∧
    ∀ retryIndex jitterRatio draw, 0 ≤ jitterRatio → jitterRatio ≤ 1 →
      (Duration.exponentialBackoffWithJitter retryIndex base maxBackoff jitterRatio draw).asNanos ≤
          maxBackoff.asNanos ∧
        backoffDelay retryIndex base.asNanos maxBackoff.asNanos ≤
          (Duration.exponentialBackoffWithJitter retryIndex base maxBackoff jitterRatio
            draw).asNanos +
            jitterSpan jitterRatio (backoffDelay retryIndex base.asNanos maxBackoff.asNanos) ∧
        (Duration.exponentialBackoffWithJitter retryIndex base maxBackoff jitterRatio
            draw).asNanos ≤
          backoffDelay retryIndex base.asNanos maxBackoff.asNanos +
            jitterSpan jitterRatio (backoffDelay retryIndex base.asNanos maxBackoff.asNanos) := by
  have hmax := maxBackoff.asNanos_le
  have hjitter (retryIndex : ℕ) (jitterRatio : ℚ) (draw : ℕ) :
      (Duration.exponentialBackoffWithJitter retryIndex base maxBackoff jitterRatio draw).asNanos =
        applyBackoffJitter (backoffDelay retryIndex base.asNanos maxBackoff.asNanos)
          maxBackoff.asNanos jitterRatio draw := by
    rw [Duration.asNanos_exponentialBackoffWithJitter,
      exponentialBackoffWithJitter_eq hbase hle hmax]
  have hplain (retryIndex draw : ℕ) :
      (Duration.exponentialBackoffWithJitter retryIndex base maxBackoff 0 draw).asNanos =
        backoffDelay retryIndex base.asNanos maxBackoff.asNanos := by
    rw [hjitter, applyBackoffJitter_zero]
  refine ⟨hplain, ?_, ?_, ?_, Duration.fromNanosSaturating_asNanos, ?_⟩
  · intro i j draw hij
    rw [hplain, hplain]
    exact backoffDelay_mono _ _ hij
  · exact fun retryIndex ↦ min_eq_left (mul_multiplier_le base.asNanos_le retryIndex)
  · exact fun n hn ↦ Duration.asNanos_fromNanosSaturating_of_le (hn.trans hmax)
  · intro retryIndex jitterRatio draw hnonneg hone
    rw [hjitter]
    exact applyBackoffJitter_near (backoffDelay_le _ _ _) hmax hnonneg hone draw

/-- The third retry after a base of 200 ms, with a cap of 2 s, before and after jitter. -/
theorem backoff_arithmetic_third_retry :
    (Duration.exponentialBackoffWithJitter 3 (.fromNanosSaturating (fromMillis 200))
      (.fromNanosSaturating (fromSecs 2)) 0 0).asNanos = fromMillis 800 ∧
    (Duration.exponentialBackoffWithJitter 3 (.fromNanosSaturating (fromMillis 200))
      (.fromNanosSaturating (fromSecs 2)) (1 / 5) 7).asNanos ≤ fromSecs 2 := by
  have h := @backoff_arithmetic (.fromNanosSaturating (fromMillis 200))
    (.fromNanosSaturating (fromSecs 2)) (by decide) (by decide)
  obtain ⟨hplain, -, -, -, -, hjitter⟩ := h
  exact ⟨(hplain 3 0).trans (by decide), (hjitter 3 (1 / 5) 7 (by norm_num) (by norm_num)).1⟩

end Reqx
