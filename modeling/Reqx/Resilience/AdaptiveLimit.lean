import Reqx.Core.Error
import Reqx.Library.Rounding
import Reqx.Resilience.Adaptive

/-!
# The range of the adaptive limit

A policy that passes `validate` keeps the limit between its bounds. On the way
down the limit goes through `f64`: it is rounded, multiplied with the ratio and
rounded again, and must not come out higher than it went in.
-/

namespace Reqx.Resilience

open Rounding

variable {F : Type} (f : F64 F)

/-! ## Validation -/

namespace AdaptiveConcurrencyPolicy

variable (policy : AdaptiveConcurrencyPolicy F)

def invalid (message : String) : Error :=
  .invalidAdaptiveConcurrencyPolicy policy.minLimit policy.initialLimit policy.maxLimit message

/-- `(0.0..1.0).contains(&self.decrease_ratio)` for a finite ratio. -/
def ratioOk : Bool :=
  f.isFinite policy.decreaseRatio && f.le (f.ofRat 0) policy.decreaseRatio &&
    f.lt policy.decreaseRatio (f.ofRat 1)

def validate : Except Error Unit :=
  if policy.minLimit = 0 then .error (policy.invalid "min_limit must be >= 1")
  else if policy.maxLimit = 0 then .error (policy.invalid "max_limit must be >= 1")
  else if policy.initialLimit = 0 then .error (policy.invalid "initial_limit must be >= 1")
  else if policy.increaseStep = 0 then .error (policy.invalid "increase_step must be >= 1")
  else if policy.highLatencyThreshold = 0 then
    .error (policy.invalid "high_latency_threshold must be greater than zero")
  else if !policy.ratioOk f then
    .error (policy.invalid "decrease_ratio must be finite and between 0.0 and 1.0")
  else if policy.minLimit > policy.maxLimit then
    .error (policy.invalid "min_limit must be <= max_limit")
  else if policy.initialLimit < policy.minLimit then
    .error (policy.invalid "initial_limit must be >= min_limit")
  else if policy.initialLimit > policy.maxLimit then
    .error (policy.invalid "initial_limit must be <= max_limit")
  else .ok ()

/-- What `validate` accepts. -/
structure Valid : Prop where
  min_pos : 0 < policy.minLimit
  ratio : policy.ratioOk f = true
  min_le_initial : policy.minLimit ≤ policy.initialLimit
  initial_le_max : policy.initialLimit ≤ policy.maxLimit

theorem valid_of_validate {f : F64 F} {policy : AdaptiveConcurrencyPolicy F}
    (h : policy.validate f = .ok ()) : policy.Valid f := by
  unfold validate at h
  simp only [ite_error_eq_ok] at h
  obtain ⟨hmin, -, -, -, -, hratio, -, hlow, hhigh, -⟩ := h
  exact ⟨Nat.pos_of_ne_zero hmin, by simpa using hratio, not_lt.mp hlow, not_lt.mp hhigh⟩

end AdaptiveConcurrencyPolicy

/-! ## Rounding -/

/-- The operations round to the nearest number of 53 bits, as `f64` does where the results are
neither too large nor subnormal. -/
structure F64.Ieee where
  value : F → ℚ
  representable : ∀ x, f.isFinite x = true → Representable 53 (value x)
  nonneg_of_le : ∀ x, f.isFinite x = true → f.le (f.ofRat 0) x = true → 0 ≤ value x
  lt_one_of_lt : ∀ x, f.isFinite x = true → f.lt x (f.ofRat 1) = true → value x < 1
  ofUsize : ∀ n ≤ usizeMax, Nearest 53 n (value (f.ofUsize n))
  mul : ∀ x y, 1 ≤ value x * value y → value x * value y ≤ 2 ^ 64 →
    Nearest 53 (value x * value y) (value (f.mul x y))
  mul_small : ∀ x y, 0 ≤ value x * value y → value x * value y ≤ 1 → value (f.mul x y) ≤ 1
  floorToUsize : ∀ x, (f.floorToUsize x : ℚ) ≤ max 0 (value x)

variable {f}

theorem F64.Ieee.decrease_le (ieee : f.Ieee) {policy : AdaptiveConcurrencyPolicy F}
    (hratio : policy.ratioOk f = true) {limit : ℕ} (hpos : 0 < limit) (hfits : limit ≤ usizeMax) :
    f.floorToUsize (f.mul (f.ofUsize limit) policy.decreaseRatio) ≤ limit := by
  simp only [AdaptiveConcurrencyPolicy.ratioOk, Bool.and_eq_true] at hratio
  obtain ⟨⟨hfinite, hlow⟩, hhigh⟩ := hratio
  have hlimit := ieee.ofUsize limit hfits
  have hr0 := ieee.nonneg_of_le _ hfinite hlow
  have hr1 := ieee.lt_one_of_lt _ hfinite hhigh
  have hvalue : ieee.value (f.mul (f.ofUsize limit) policy.decreaseRatio) ≤ limit := by
    have hx0 : 0 ≤ ieee.value (f.ofUsize limit) := hlimit.ge_of_ge (.zero 53) (by positivity)
    have hx64 : ieee.value (f.ofUsize limit) ≤ 2 ^ 64 := by
      refine hlimit.le_of_le ⟨1, 64, by norm_num, by norm_num⟩ ?_
      have hbound : limit ≤ 2 ^ 64 := hfits.trans (Nat.sub_le _ _)
      exact_mod_cast hbound
    rcases le_total (ieee.value (f.ofUsize limit) * ieee.value policy.decreaseRatio) 1
      with hsmall | hlarge
    · refine (ieee.mul_small _ _ (by positivity) hsmall).trans ?_
      exact_mod_cast hpos
    · have hrange := (mul_le_of_le_one_right hx0 hr1.le).trans hx64
      exact nearest_mul_le (by positivity) hlimit (ieee.representable _ hfinite) hr1
        (ieee.mul _ _ hlarge hrange)
  have hfloor := ieee.floorToUsize (f.mul (f.ofUsize limit) policy.decreaseRatio)
  have hmax : max 0 (ieee.value (f.mul (f.ofUsize limit) policy.decreaseRatio)) ≤ (limit : ℚ) :=
    max_le (by positivity) hvalue
  exact_mod_cast hfloor.trans hmax

/-! ## The limit -/

def AdaptiveConcurrencyPolicy.InRange (policy : AdaptiveConcurrencyPolicy F) (limit : ℕ) : Prop :=
  policy.minLimit ≤ limit ∧ limit ≤ policy.maxLimit

variable {policy : AdaptiveConcurrencyPolicy F}

theorem AdaptiveConcurrencyPolicy.Valid.inRange_initial (h : policy.Valid f) :
    policy.InRange policy.initialLimit :=
  ⟨h.min_le_initial, h.initial_le_max⟩

namespace AdaptiveConcurrencyState

variable {s : AdaptiveConcurrencyState F}

theorem inRange_nextLimit (ieee : f.Ieee) (hpolicy : policy.Valid f)
    (hs : policy.InRange s.currentLimit) (shouldDecrease : Bool) :
    policy.InRange (s.nextLimit f policy shouldDecrease) := by
  obtain ⟨hlow, hhigh⟩ := hs
  have hmax := policy.fits.2.2
  have hmin := hpolicy.min_pos
  unfold nextLimit
  split
  · have hdecrease := ieee.decrease_le hpolicy.ratio (hmin.trans_le hlow) (hhigh.trans hmax)
    exact ⟨le_max_right _ _, max_le (hdecrease.trans hhigh) (hlow.trans hhigh)⟩
  · have hincrease : s.currentLimit ≤ saturatingAdd s.currentLimit policy.increaseStep :=
      le_min (Nat.le_add_right _ _) (hhigh.trans hmax)
    exact ⟨le_min (hlow.trans hincrease) (hlow.trans hhigh), min_le_right _ _⟩

theorem inRange_releaseAndRecord (ieee : f.Ieee) (hpolicy : policy.Valid f)
    (hs : policy.InRange s.currentLimit) (outcome : AdaptiveConcurrencyOutcome) (latency : ℕ) :
    policy.InRange (s.releaseAndRecord f policy outcome latency).currentLimit :=
  inRange_nextLimit ieee hpolicy hs _

end AdaptiveConcurrencyState

/-! ## A floating-point arithmetic -/

/-- Numbers of 53 bits that are not negative; the exponents are not bounded. -/
def F64.binary64 : F64 ℚ where
  ofRat x := roundTo 53 x
  ofUsize n := roundTo 53 n
  asSecs d := roundTo 53 (d / 1000000000)
  add x y := roundTo 53 (x + y)
  mul x y := roundTo 53 (x * y)
  le x y := x ≤ y
  lt x y := x < y
  isFinite x := roundTo 53 x = x
  floorToUsize x := min ⌊x⌋₊ usizeMax
  floorToUsize_le _ := min_le_right _ _

def F64.binary64Ieee : F64.binary64.Ieee where
  value := id
  representable x hx := by
    have hround : roundTo 53 x = x := of_decide_eq_true hx
    exact hround ▸ representable_roundTo (by norm_num) x
  nonneg_of_le x _ hx := by
    have hle : roundTo 53 0 ≤ x := of_decide_eq_true hx
    rwa [roundTo_of_representable (by norm_num) (.zero 53) le_rfl] at hle
  lt_one_of_lt x _ hx := by
    have hlt : x < roundTo 53 1 := of_decide_eq_true hx
    rwa [roundTo_of_representable (by norm_num) (.one (by norm_num)) zero_le_one] at hlt
  ofUsize n _ := nearest_roundTo (by norm_num) (by positivity)
  mul x y hlow _ := nearest_roundTo (by norm_num) (by linarith)
  mul_small x y hlow hhigh :=
    (nearest_roundTo (by norm_num) hlow).le_of_le (.one (by norm_num)) hhigh
  floorToUsize x := by
    have hfloor : ((min ⌊x⌋₊ usizeMax : ℕ) : ℚ) ≤ ⌊x⌋₊ := by
      exact_mod_cast min_le_left ⌊x⌋₊ usizeMax
    rcases le_total 0 x with hx | hx
    · exact hfloor.trans ((Nat.floor_le hx).trans (le_max_right _ _))
    · have hzero : ((⌊x⌋₊ : ℕ) : ℚ) = 0 := by rw [Nat.floor_of_nonpos hx, Nat.cast_zero]
      exact hfloor.trans (hzero.trans_le (le_max_left _ _))

end Reqx.Resilience
