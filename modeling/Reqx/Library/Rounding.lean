import Mathlib.Algebra.Order.Field.Power
import Mathlib.Algebra.Order.Round
import Mathlib.Data.Int.Log
import Mathlib.Data.Rat.Floor
import Mathlib.Tactic.FieldSimp
import Mathlib.Tactic.Linarith
import Mathlib.Tactic.NormNum
import Mathlib.Tactic.Positivity
import Mathlib.Tactic.Ring

/-!
# Rounding to a fixed number of bits

The numbers with a significand of `p` bits, and rounding to the nearest of
them, whatever happens in the middle between two. A product with a factor below
one, both sides rounded, does not come out above the number that was rounded in
the first place.
-/

namespace Rounding

variable {p : ℕ} {x y r : ℚ}

/-- The exponent is not bounded: this is about significands alone. -/
def Representable (p : ℕ) (x : ℚ) : Prop := ∃ m e : ℤ, |m| < 2 ^ p ∧ x = m * 2 ^ e

def Nearest (p : ℕ) (x y : ℚ) : Prop :=
  Representable p y ∧ ∀ z, Representable p z → |y - x| ≤ |z - x|

theorem Representable.zero (p : ℕ) : Representable p 0 := ⟨0, 0, by simp, by simp⟩

theorem Representable.one (hp : 0 < p) : Representable p 1 := by
  refine ⟨1, 0, ?_, by simp⟩
  rw [abs_one]
  exact one_lt_pow₀ one_lt_two hp.ne'

/-- A multiple of a power of two is one of every smaller power. -/
theorem exists_mul_zpow (m : ℤ) {e e' : ℤ} (h : e' ≤ e) :
    ∃ k : ℤ, (m : ℚ) * 2 ^ e = k * 2 ^ e' := by
  refine ⟨m * 2 ^ (e - e').toNat, ?_⟩
  have hexp : ((e - e').toNat : ℤ) = e - e' := Int.toNat_of_nonneg (by omega)
  push_cast
  rw [← zpow_natCast, hexp, mul_assoc, ← zpow_add₀ two_ne_zero, sub_add_cancel]

/-- The largest number below one has all its bits set. -/
theorem Representable.le_of_lt_one (hr : Representable p r) (hlt : r < 1) :
    r ≤ 1 - 2 ^ (-(p : ℤ)) := by
  obtain ⟨m, e, hm, rfl⟩ := hr
  have hunit : (0 : ℚ) < 2 ^ (-(p : ℤ)) := by positivity
  have hone : (2 : ℚ) ^ p * 2 ^ (-(p : ℤ)) = 1 := by
    rw [← zpow_natCast, ← zpow_add₀ two_ne_zero, add_neg_cancel, zpow_zero]
  -- An integer below `2 ^ p`, in units of the last place below one.
  have hbelow : ∀ k : ℤ, k < 2 ^ p → (k : ℚ) * 2 ^ (-(p : ℤ)) ≤ 1 - 2 ^ (-(p : ℤ)) := by
    intro k hk
    have hk' : (k : ℚ) ≤ 2 ^ p - 1 := by
      have hle : k ≤ 2 ^ p - 1 := by omega
      exact_mod_cast hle
    calc (k : ℚ) * 2 ^ (-(p : ℤ)) ≤ (2 ^ p - 1) * 2 ^ (-(p : ℤ)) := by gcongr
      _ = 1 - 2 ^ (-(p : ℤ)) := by rw [sub_mul, hone, one_mul]
  rcases le_total (-(p : ℤ)) e with he | he
  · obtain ⟨k, hk⟩ := exists_mul_zpow m he
    rw [hk] at hlt ⊢
    apply hbelow
    by_contra hge
    have hge' : (2 : ℚ) ^ p ≤ k := by exact_mod_cast not_lt.mp hge
    have : (2 : ℚ) ^ p * 2 ^ (-(p : ℤ)) ≤ k * 2 ^ (-(p : ℤ)) := by gcongr
    linarith
  · have hsmall : (2 : ℚ) ^ e ≤ 2 ^ (-(p : ℤ)) := zpow_le_zpow_right₀ one_le_two he
    have hmp : m < 2 ^ p := (le_abs_self m).trans_lt hm
    rcases le_total m 0 with hneg | hpos
    · have hzero := hbelow 0 (by positivity)
      have hm0 : (m : ℚ) * 2 ^ e ≤ 0 :=
        mul_nonpos_of_nonpos_of_nonneg (by exact_mod_cast hneg) (by positivity)
      rw [Int.cast_zero, zero_mul] at hzero
      exact hm0.trans hzero
    · have hm0 : (0 : ℚ) ≤ m := by exact_mod_cast hpos
      calc (m : ℚ) * 2 ^ e ≤ m * 2 ^ (-(p : ℤ)) := by gcongr
        _ ≤ 1 - 2 ^ (-(p : ℤ)) := hbelow m hmp

/-! ## The last place -/

/-- The exponent of the last place of a number with `p` bits. -/
def lastPlace (p : ℕ) (x : ℚ) : ℤ := Int.log 2 x - (p - 1)

theorem zpow_lastPlace_le (hx : 0 < x) : (2 : ℚ) ^ ((p : ℤ) - 1) * 2 ^ lastPlace p x ≤ x := by
  rw [← zpow_add₀ two_ne_zero, lastPlace, add_sub_cancel]
  exact_mod_cast Int.zpow_log_le_self Nat.one_lt_two hx

theorem lt_zpow_lastPlace (p : ℕ) (x : ℚ) : x < (2 : ℚ) ^ (p : ℤ) * 2 ^ lastPlace p x := by
  have hexp : (p : ℤ) + lastPlace p x = Int.log 2 x + 1 := by
    unfold lastPlace
    ring
  rw [← zpow_add₀ two_ne_zero, hexp]
  exact_mod_cast Int.lt_zpow_succ_log_self Nat.one_lt_two x

theorem Representable.exists_significand (hr : Representable p x) (hx : 0 < x) :
    ∃ m : ℤ, x = m * 2 ^ lastPlace p x := by
  obtain ⟨m, e, hm, hxe⟩ := hr
  have hle : lastPlace p x ≤ e := by
    by_contra hlt
    have hexp : e + 1 ≤ lastPlace p x := by omega
    have hmp : (m : ℚ) < 2 ^ (p : ℤ) := by
      have hlt' : m < 2 ^ p := (le_abs_self m).trans_lt hm
      exact_mod_cast hlt'
    have hstep : (2 : ℚ) ^ (e + 1) ≤ 2 ^ lastPlace p x := zpow_le_zpow_right₀ one_le_two hexp
    have hlow := zpow_lastPlace_le (p := p) hx
    have hhalf : (2 : ℚ) ^ (p : ℤ) * 2 ^ e = 2 ^ ((p : ℤ) - 1) * 2 ^ (e + 1) := by
      rw [← zpow_add₀ two_ne_zero, ← zpow_add₀ two_ne_zero]
      congr 1
      ring
    have hupper : x < 2 ^ ((p : ℤ) - 1) * 2 ^ (e + 1) := by
      rw [← hhalf, hxe]
      gcongr
    have hlower : (2 : ℚ) ^ ((p : ℤ) - 1) * 2 ^ (e + 1) ≤
        2 ^ ((p : ℤ) - 1) * 2 ^ lastPlace p x := by
      gcongr
    linarith
  obtain ⟨k, hk⟩ := exists_mul_zpow m hle
  exact ⟨k, hxe.trans hk⟩

theorem Representable.exists_normal (hr : Representable p x) (hx : 0 < x) :
    ∃ m e : ℤ, (2 : ℚ) ^ ((p : ℤ) - 1) ≤ m ∧ (m : ℚ) < 2 ^ (p : ℤ) ∧ x = m * 2 ^ e := by
  obtain ⟨m, hm⟩ := hr.exists_significand hx
  have hplace : (0 : ℚ) < 2 ^ lastPlace p x := by positivity
  refine ⟨m, lastPlace p x, ?_, ?_, hm⟩
  · have hle := zpow_lastPlace_le (p := p) hx
    nth_rewrite 2 [hm] at hle
    exact le_of_mul_le_mul_right hle hplace
  · have hlt := lt_zpow_lastPlace p x
    nth_rewrite 1 [hm] at hlt
    exact lt_of_mul_lt_mul_right hlt hplace.le

/-- There is another number closely below. -/
theorem Representable.exists_below (hr : Representable p x) (hx : 0 < x) :
    ∃ z, Representable p z ∧ z < x ∧ x - z < x * 2 ^ (1 - (p : ℤ)) := by
  obtain ⟨m, e, hlow, hhigh, rfl⟩ := hr.exists_normal hx
  have hplace : (0 : ℚ) < 2 ^ e := by positivity
  have hmp : m < 2 ^ p := by exact_mod_cast hhigh
  have hmpos : 0 < m := by
    have hpow : (0 : ℚ) < 2 ^ ((p : ℤ) - 1) := by positivity
    exact_mod_cast hpow.trans_le hlow
  have hscale : (2 : ℚ) ^ ((p : ℤ) - 1) * 2 ^ (1 - (p : ℤ)) = 1 := by
    rw [← zpow_add₀ two_ne_zero, sub_add_sub_cancel, sub_self, zpow_zero]
  have hsmall : (0 : ℚ) < 2 ^ (1 - (p : ℤ)) := by positivity
  rcases hlow.lt_or_eq with hlt | heq
  · refine ⟨(m - 1 : ℤ) * 2 ^ e, ⟨m - 1, e, ?_, rfl⟩, ?_, ?_⟩
    · rw [abs_of_nonneg (by omega)]
      omega
    · push_cast
      linarith
    · have hratio : 1 < m * (2 : ℚ) ^ (1 - (p : ℤ)) := by
        rw [← hscale]
        gcongr
      push_cast
      nlinarith
  · -- A power of two: the numbers below it are twice as dense.
    have hexp : (2 : ℚ) ^ e = 2 * 2 ^ (e - 1) := by
      rw [mul_comm, ← zpow_add_one₀ two_ne_zero, sub_add_cancel]
    have hhalf : (0 : ℚ) < 2 ^ (e - 1) := by positivity
    refine ⟨(2 * m - 1 : ℤ) * 2 ^ (e - 1), ⟨2 * m - 1, e - 1, ?_, rfl⟩, ?_, ?_⟩
    · have hdouble : 2 * m = 2 ^ p := by
        have hpow : (2 : ℚ) * m = 2 ^ p := by
          rw [← heq, ← zpow_one_add₀ two_ne_zero, add_sub_cancel, zpow_natCast]
        exact_mod_cast hpow
      rw [abs_of_nonneg (by omega)]
      omega
    · push_cast
      rw [hexp]
      linarith
    · push_cast
      rw [← heq, mul_right_comm, hscale, hexp]
      linarith

/-! ## Products -/

theorem Nearest.le_of_le (h : Nearest p x y) {z : ℚ} (hz : Representable p z) (hle : x ≤ z) :
    y ≤ z := by
  by_contra hlt
  have hdist := h.2 z hz
  rw [abs_of_nonneg (by linarith), abs_of_nonneg (by linarith)] at hdist
  linarith

theorem Nearest.ge_of_ge (h : Nearest p x y) {z : ℚ} (hz : Representable p z) (hle : z ≤ x) :
    z ≤ y := by
  by_contra hlt
  have hdist := h.2 z hz
  rw [abs_of_nonpos (by linarith), abs_of_nonpos (by linarith)] at hdist
  linarith

/-- `n` is rounded to `x`, and the product of `x` with a factor below one to `y`. -/
theorem nearest_mul_le {n : ℚ} (hn : 0 ≤ n) (hx : Nearest p n x) (hr : Representable p r)
    (hlt : r < 1) (hy : Nearest p (x * r) y) : y ≤ n := by
  have hx0 : 0 ≤ x := hx.ge_of_ge (.zero p) hn
  have hyx : y ≤ x := hy.le_of_le hx.1 (mul_le_of_le_one_right hx0 hlt.le)
  rcases le_or_gt x n with hxn | hxn
  · exact hyx.trans hxn
  by_contra hyn
  rw [not_le] at hyn
  -- Nothing representable lies between `n` and `x`, so `y` is `x` itself.
  have hxy : x = y := by
    have hdist := hx.2 y hy.1
    rw [abs_of_pos (by linarith), abs_of_pos (by linarith)] at hdist
    exact le_antisymm (by linarith) hyx
  subst hxy
  obtain ⟨z, hz, hzx, hclose⟩ := hx.1.exists_below (hn.trans_lt hxn)
  have hgap : x * 2 ^ (-(p : ℤ)) ≤ x - x * r := by
    have hone := hr.le_of_lt_one hlt
    nlinarith
  have hdist := hy.2 z hz
  rw [abs_of_nonneg (by nlinarith)] at hdist
  have hhalf : (2 : ℚ) ^ (1 - (p : ℤ)) = 2 * 2 ^ (-(p : ℤ)) := by
    rw [sub_eq_add_neg, zpow_add₀ two_ne_zero, zpow_one]
  rw [hhalf] at hclose
  rcases le_total (x * r) z with hzr | hzr
  · rw [abs_of_nonneg (by linarith)] at hdist
    linarith
  · rw [abs_of_nonpos (by linarith)] at hdist
    linarith

/-- Up to the last number whose unit place is a place of the significand, one can be taken
away. -/
theorem Representable.exists_sub_one (hp : 0 < p) (hr : Representable p x) (hone : 1 ≤ x)
    (hle : x ≤ 2 ^ p) :
    ∃ k e : ℤ, 0 ≤ k ∧ k ≤ 2 ^ p ∧ 1 - (p : ℤ) ≤ e ∧ e ≤ 0 ∧ x - 1 = k * 2 ^ e := by
  obtain ⟨m, e, hm, rfl⟩ := hr
  have hmp : m < 2 ^ p := (le_abs_self m).trans_lt hm
  rcases le_total e 0 with he | he
  · have hunit : (2 : ℚ) ^ (-e).toNat * 2 ^ e = 1 := by
      rw [← zpow_natCast, Int.toNat_of_nonneg (by omega), ← zpow_add₀ two_ne_zero,
        neg_add_cancel, zpow_zero]
    have hplace : (0 : ℚ) < 2 ^ e := by positivity
    refine ⟨m - 2 ^ (-e).toNat, e, ?_, ?_, ?_, he, ?_⟩
    · have hge : (2 : ℚ) ^ (-e).toNat ≤ m := le_of_mul_le_mul_right (hunit.trans_le hone) hplace
      exact sub_nonneg.mpr (by exact_mod_cast hge)
    · have hpow : (0 : ℤ) < 2 ^ (-e).toNat := by positivity
      omega
    · by_contra hlow
      have hsmall : (2 : ℚ) ^ (p : ℤ) * 2 ^ e ≤ 1 := by
        rw [← zpow_add₀ two_ne_zero]
        exact zpow_le_one_of_nonpos₀ one_le_two (by omega)
      have hlt : (m : ℚ) * 2 ^ e < 2 ^ (p : ℤ) * 2 ^ e := by
        gcongr
        exact_mod_cast hmp
      linarith
    · push_cast
      rw [sub_mul, hunit]
  · obtain ⟨k, hk⟩ := exists_mul_zpow m he
    rw [hk, zpow_zero, mul_one] at hone hle ⊢
    have hle' : k ≤ 2 ^ p := by exact_mod_cast hle
    have hone' : 1 ≤ k := by exact_mod_cast hone
    exact ⟨k - 1, 0, by omega, by omega, by omega, le_rfl, by push_cast; ring⟩

/-! ## A rounding function -/

/-- Rounding for numbers that are not negative. -/
def roundTo (p : ℕ) (x : ℚ) : ℚ :=
  if x ≤ 0 then 0 else round (x / 2 ^ lastPlace p x) * 2 ^ lastPlace p x

theorem representable_of_le_two_pow (hp : 0 < p) {k : ℤ} (hk : 0 ≤ k) (hle : k ≤ 2 ^ p) (e : ℤ) :
    Representable p (k * 2 ^ e) := by
  rcases hle.lt_or_eq with hlt | rfl
  · exact ⟨k, e, by rwa [abs_of_nonneg hk], rfl⟩
  · refine ⟨2 ^ (p - 1), e + 1, ?_, ?_⟩
    · rw [abs_of_nonneg (by positivity)]
      exact pow_lt_pow_right₀ one_lt_two (by omega)
    · push_cast
      rw [zpow_add_one₀ two_ne_zero, ← mul_assoc, mul_right_comm, ← pow_succ, Nat.sub_add_cancel hp]

theorem nearest_roundTo (hp : 0 < p) (hx : 0 ≤ x) : Nearest p x (roundTo p x) := by
  unfold roundTo
  rcases hx.lt_or_eq with hpos | rfl
  · rw [if_neg (not_le.mpr hpos)]
    set e := lastPlace p x with he
    have hplace : (0 : ℚ) < 2 ^ e := by positivity
    have hlow : (2 : ℚ) ^ (p - 1) * 2 ^ e ≤ x := by
      have hle := zpow_lastPlace_le (p := p) hpos
      rwa [← he, ← Nat.cast_pred hp, zpow_natCast] at hle
    have hhigh : x / 2 ^ e < 2 ^ p := by
      have hlt := lt_zpow_lastPlace p x
      rw [div_lt_iff₀ hplace]
      rwa [← he, zpow_natCast] at hlt
    -- Distances to multiples of the last place are compared in its units.
    have hdist (k : ℤ) : |(k : ℚ) * 2 ^ e - x| = |x / 2 ^ e - k| * 2 ^ e := by
      rw [← abs_of_pos hplace, ← abs_mul, abs_of_pos hplace, sub_mul, div_mul_cancel₀ _ hplace.ne',
        abs_sub_comm]
    have hround (k : ℤ) : |(round (x / 2 ^ e) : ℚ) * 2 ^ e - x| ≤ |(k : ℚ) * 2 ^ e - x| := by
      have hle : |x / 2 ^ e - round (x / 2 ^ e)| ≤ |x / 2 ^ e - k| := round_le _ k
      rw [hdist, hdist]
      gcongr
    have herror := abs_le.mp (abs_sub_round (x / 2 ^ e))
    constructor
    · apply representable_of_le_two_pow hp
      · have hquot : 0 < x / 2 ^ e := by positivity
        have hgt : (-1 : ℚ) < round (x / 2 ^ e) := by linarith [herror.2]
        have hint : (-1 : ℤ) < round (x / 2 ^ e) := by exact_mod_cast hgt
        omega
      · have hlt : (round (x / 2 ^ e) : ℚ) < 2 ^ p + 1 := by linarith [herror.1]
        have hint : round (x / 2 ^ e) < 2 ^ p + 1 := by exact_mod_cast hlt
        omega
    · rintro z ⟨m, e', hm, rfl⟩
      rcases le_or_gt e e' with hee | hee
      · obtain ⟨k, hk⟩ := exists_mul_zpow m hee
        rw [hk]
        exact hround k
      · -- A smaller exponent only reaches below the binade of `x`.
        have hmp : (m : ℚ) ≤ 2 ^ p := by
          have hle : m ≤ 2 ^ p := ((le_abs_self m).trans_lt hm).le
          exact_mod_cast hle
        have hbelow : (m : ℚ) * 2 ^ e' ≤ 2 ^ (p - 1) * 2 ^ e := by
          have hstep : (2 : ℚ) ^ e' ≤ 2 ^ (e - 1) := zpow_le_zpow_right₀ one_le_two (by omega)
          calc (m : ℚ) * 2 ^ e' ≤ 2 ^ p * 2 ^ (e - 1) := by gcongr
            _ = 2 ^ (p - 1) * 2 ^ e := by
              rw [zpow_sub_one₀ two_ne_zero, ← Nat.sub_add_cancel hp, pow_succ]
              field_simp
              simp
        have hnear := hround (2 ^ (p - 1))
        push_cast at hnear
        rw [abs_of_nonpos (sub_nonpos.mpr hlow)] at hnear
        rw [abs_of_nonpos (by linarith) (a := (m : ℚ) * 2 ^ e' - x)]
        linarith
  · rw [if_pos le_rfl]
    exact ⟨.zero p, fun z _ ↦ by simp⟩

theorem representable_roundTo (hp : 0 < p) (x : ℚ) : Representable p (roundTo p x) := by
  rcases le_total 0 x with hx | hx
  · exact (nearest_roundTo hp hx).1
  · rw [roundTo, if_pos hx]
    exact .zero p

theorem roundTo_of_representable (hp : 0 < p) (hr : Representable p x) (hx : 0 ≤ x) :
    roundTo p x = x := by
  have hdist := (nearest_roundTo hp hx).2 x hr
  rw [sub_self, abs_zero] at hdist
  exact sub_eq_zero.mp (abs_nonpos_iff.mp hdist)

end Rounding
