import Mathlib.Algebra.Order.Archimedean.Basic
import Mathlib.Tactic.Linarith
import Mathlib.Tactic.Positivity
import Reqx.Resilience.AdaptiveLimit

/-!
# Where the adaptive limit goes

With exact arithmetic. Failures bring the limit down to its minimum, each by one at
least. Quick successes bring it up to its maximum, once the average has forgotten what
was slow: what it exceeds their latency by shrinks by a fifth with each of them.
-/

namespace Reqx.Resilience

open AdaptiveConcurrencyState

/-- What the clients do to the state under its lock. -/
inductive AdaptiveOperation where
  | tryAcquire
  | releaseAndRecord (outcome : AdaptiveConcurrencyOutcome) (latency : ℕ)
  | releaseWithoutRecord
  deriving DecidableEq, Repr

namespace AdaptiveOperation

/-- The completions that the operation records. -/
def completions : AdaptiveOperation → ℕ
  | .releaseAndRecord _ _ => 1
  | .tryAcquire | .releaseWithoutRecord => 0

/-- A property of the completion, if there is one. -/
def Records (P : AdaptiveConcurrencyOutcome → ℕ → Prop) : AdaptiveOperation → Prop
  | .releaseAndRecord outcome latency => P outcome latency
  | .tryAcquire | .releaseWithoutRecord => True

end AdaptiveOperation

def completed (operations : List AdaptiveOperation) : ℕ :=
  (operations.map AdaptiveOperation.completions).sum

namespace AdaptiveConcurrencyState

variable {F : Type} (f : F64 F) (policy : AdaptiveConcurrencyPolicy F)

def apply (s : AdaptiveConcurrencyState F) : AdaptiveOperation → AdaptiveConcurrencyState F
  | .tryAcquire => s.tryAcquire.2
  | .releaseAndRecord outcome latency => s.releaseAndRecord f policy outcome latency
  | .releaseWithoutRecord => s.releaseWithoutRecord

def run (s : AdaptiveConcurrencyState F) (operations : List AdaptiveOperation) :
    AdaptiveConcurrencyState F :=
  operations.foldl (fun s operation ↦ s.apply f policy operation) s

variable {f} {s : AdaptiveConcurrencyState F}

theorem tryAcquire_currentLimit : s.tryAcquire.2.currentLimit = s.currentLimit := by
  unfold tryAcquire
  split_ifs <;> rfl

theorem tryAcquire_ewmaLatencyMs : s.tryAcquire.2.ewmaLatencyMs = s.ewmaLatencyMs := by
  unfold tryAcquire
  split_ifs <;> rfl

/-- What a run keeps: it counts the completions and looks at the limit and the average only. -/
theorem run_induction {P : ℕ → ℕ → F → Prop} {Q : AdaptiveConcurrencyOutcome → ℕ → Prop}
    (hstep : ∀ (k : ℕ) (s : AdaptiveConcurrencyState F) (outcome : AdaptiveConcurrencyOutcome)
      (latency : ℕ), Q outcome latency → P k s.currentLimit s.ewmaLatencyMs →
      P (k + 1) (s.releaseAndRecord f policy outcome latency).currentLimit
        (s.releaseAndRecord f policy outcome latency).ewmaLatencyMs) {k : ℕ}
    (hs : P k s.currentLimit s.ewmaLatencyMs) (operations : List AdaptiveOperation)
    (hoperations : ∀ operation ∈ operations, operation.Records Q) :
    P (k + completed operations) (s.run f policy operations).currentLimit
      (s.run f policy operations).ewmaLatencyMs := by
  induction operations generalizing k s with
  | nil => exact hs
  | cons operation operations ih =>
    obtain ⟨hfirst, hrest⟩ := List.forall_mem_cons.mp hoperations
    have hcount : k + completed (operation :: operations) =
        k + operation.completions + completed operations := by
      rw [completed, List.map_cons, List.sum_cons, ← add_assoc]
      rfl
    rw [hcount]
    refine ih ?_ hrest
    cases operation with
    | tryAcquire =>
      change P k s.tryAcquire.2.currentLimit s.tryAcquire.2.ewmaLatencyMs
      rw [tryAcquire_currentLimit, tryAcquire_ewmaLatencyMs]
      exact hs
    | releaseAndRecord outcome latency => exact hstep k s outcome latency hfirst hs
    | releaseWithoutRecord => exact hs

end AdaptiveConcurrencyState

/-! ## Down -/

theorem increaseStep_pos_of_validate {F : Type} {f : F64 F} {policy : AdaptiveConcurrencyPolicy F}
    (h : policy.validate f = .ok ()) : 0 < policy.increaseStep := by
  unfold AdaptiveConcurrencyPolicy.validate at h
  simp only [ite_error_eq_ok] at h
  obtain ⟨-, -, -, hstep, -⟩ := h
  exact Nat.pos_of_ne_zero hstep

variable {policy : AdaptiveConcurrencyPolicy ℚ} {s : AdaptiveConcurrencyState ℚ}

theorem exact_decrease_lt (hratio : policy.ratioOk .exact = true) {limit : ℕ} (hpos : 0 < limit) :
    F64.exact.floorToUsize (F64.exact.mul (F64.exact.ofUsize limit) policy.decreaseRatio) <
      limit := by
  have hlt : policy.decreaseRatio < 1 := by
    simp only [AdaptiveConcurrencyPolicy.ratioOk, Bool.and_eq_true] at hratio
    exact of_decide_eq_true hratio.2
  have hproduct : (limit : ℚ) * policy.decreaseRatio < limit := by
    refine mul_lt_of_lt_one_right ?_ hlt
    exact_mod_cast hpos
  refine (min_le_left _ _).trans_lt ?_
  rw [Int.toNat_lt' hpos]
  exact Int.floor_lt.mpr (by exact_mod_cast hproduct)

namespace AdaptiveConcurrencyState

theorem nextLimit_decrease (hpolicy : policy.Valid .exact) (hs : policy.InRange s.currentLimit) :
    policy.minLimit ≤ s.nextLimit .exact policy true ∧
      s.nextLimit .exact policy true ≤ max (s.currentLimit - 1) policy.minLimit := by
  have hlt := exact_decrease_lt hpolicy.ratio (hpolicy.min_pos.trans_le hs.1)
  refine ⟨le_max_right _ _, max_le_max ?_ le_rfl⟩
  exact Nat.le_sub_one_of_lt hlt

theorem nextLimit_increase :
    s.nextLimit .exact policy false =
      min (s.currentLimit + policy.increaseStep) policy.maxLimit := by
  have hmax := policy.fits.2.2
  have hadd : saturatingAdd s.currentLimit policy.increaseStep =
      min (s.currentLimit + policy.increaseStep) usizeMax := rfl
  rw [nextLimit, if_neg Bool.false_ne_true, hadd, min_assoc, min_eq_right hmax]

theorem inRange_exact (hpolicy : policy.Valid .exact) (hs : policy.InRange s.currentLimit)
    (shouldDecrease : Bool) : policy.InRange (s.nextLimit .exact policy shouldDecrease) := by
  obtain ⟨hlow, hhigh⟩ := hs
  cases shouldDecrease with
  | true =>
    obtain ⟨hmin, hmax⟩ := nextLimit_decrease hpolicy ⟨hlow, hhigh⟩
    exact ⟨hmin, hmax.trans (max_le (by omega) (hlow.trans hhigh))⟩
  | false =>
    rw [nextLimit_increase]
    exact ⟨le_min (by omega) (hlow.trans hhigh), min_le_right _ _⟩

/-- Every run keeps the limit between its bounds. -/
theorem inRange_run (hpolicy : policy.Valid .exact) (hs : policy.InRange s.currentLimit)
    (operations : List AdaptiveOperation) :
    policy.InRange (s.run .exact policy operations).currentLimit := by
  refine run_induction policy (k := 0) (P := fun _ limit _ ↦ policy.InRange limit)
    (Q := fun _ _ ↦ True) (fun _ s outcome latency _ hs ↦ inRange_exact hpolicy hs _) hs operations
    fun operation _ ↦ ?_
  cases operation <;> trivial

theorem run_failures (hpolicy : policy.Valid .exact) (hs : policy.InRange s.currentLimit)
    {operations : List AdaptiveOperation}
    (hfailures : ∀ operation ∈ operations,
      operation.Records fun outcome _ ↦ outcome = .failure) :
    (s.run .exact policy operations).currentLimit ≤
      max (s.currentLimit - completed operations) policy.minLimit := by
  have hrun := run_induction policy (s := s) (k := 0) (f := .exact)
    (P := fun k limit _ ↦ policy.InRange limit ∧
      limit ≤ max (s.currentLimit - k) policy.minLimit)
    (Q := fun outcome _ ↦ outcome = .failure) ?_ ⟨hs, le_max_left _ _⟩ operations hfailures
  · rw [Nat.zero_add] at hrun
    exact hrun.2
  · rintro k s' outcome latency rfl ⟨hrange, hle⟩
    have hnext : (s'.releaseAndRecord .exact policy .failure latency).currentLimit =
        s'.nextLimit .exact policy true := rfl
    have hdecrease := nextLimit_decrease hpolicy hrange
    rw [hnext]
    refine ⟨inRange_exact hpolicy hrange true, hdecrease.2.trans ?_⟩
    omega

end AdaptiveConcurrencyState

/-! ## Up -/

/-- A duration in milliseconds. -/
def milliseconds (duration : ℕ) : ℚ := F64.exact.mul (F64.exact.asSecs duration) 1000

theorem milliseconds_le {a b : ℕ} (h : a ≤ b) : milliseconds a ≤ milliseconds b := by
  have hcast : (a : ℚ) ≤ b := by exact_mod_cast h
  have hdiv : (a : ℚ) / 1000000000 ≤ b / 1000000000 := by gcongr
  exact mul_le_mul_of_nonneg_right hdiv (by norm_num)

theorem milliseconds_lt {a b : ℕ} (h : a < b) : milliseconds a < milliseconds b := by
  have hcast : (a : ℚ) < b := by exact_mod_cast h
  have hdiv : (a : ℚ) / 1000000000 < b / 1000000000 := by gcongr
  exact mul_lt_mul_of_pos_right hdiv (by norm_num)

namespace AdaptiveConcurrencyState

/-- The average comes closer to the bound of the samples by a fifth. -/
theorem nextEwma_le {bound excess latency : ℚ} (hexcess : 0 ≤ excess) (hlatency : latency ≤ bound)
    (hs : s.ewmaLatencyMs ≤ bound + excess) :
    s.nextEwma .exact latency ≤ bound + 4 / 5 * excess := by
  unfold nextEwma
  split_ifs
  · linarith
  · change s.ewmaLatencyMs * (4 / 5) + latency * (1 / 5) ≤ _
    linarith

/-- The state after some quick successes. The limit climbs once the excess, which started with
`start`, has come down to the gap. -/
structure Recovering (policy : AdaptiveConcurrencyPolicy ℚ) (bound start : ℚ) (calm k limit : ℕ)
    (ewma : ℚ) : Prop where
  inRange : policy.InRange limit
  ewma_le : ewma ≤ bound + (4 / 5) ^ k * start
  climbed : min policy.maxLimit (k - calm) ≤ limit

theorem Recovering.record (hpolicy : policy.validate .exact = .ok ()) {bound latency : ℕ}
    {start : ℚ} (hstart : 0 ≤ start) {calm k : ℕ}
    (hcalm : ∀ k ≥ calm,
      milliseconds bound + (4 / 5) ^ k * start ≤ milliseconds policy.highLatencyThreshold)
    (hlatency : latency ≤ bound)
    (h : Recovering policy (milliseconds bound) start calm k s.currentLimit s.ewmaLatencyMs) :
    Recovering policy (milliseconds bound) start calm (k + 1)
      (s.releaseAndRecord .exact policy .success latency).currentLimit
      (s.releaseAndRecord .exact policy .success latency).ewmaLatencyMs := by
  have hvalid := AdaptiveConcurrencyPolicy.valid_of_validate hpolicy
  have hstep := increaseStep_pos_of_validate hpolicy
  have hexcess : 0 ≤ (4 / 5 : ℚ) ^ k * start := by positivity
  have hewma : (s.releaseAndRecord .exact policy .success latency).ewmaLatencyMs ≤
      milliseconds bound + (4 / 5) ^ (k + 1) * start := by
    rw [pow_succ', mul_assoc]
    exact nextEwma_le hexcess (milliseconds_le hlatency) h.ewma_le
  refine ⟨inRange_exact hvalid h.inRange _, hewma, ?_⟩
  rcases Nat.lt_or_ge k calm with hearly | hlate
  · rw [Nat.sub_eq_zero_of_le hearly, Nat.min_zero]
    exact Nat.zero_le _
  · -- The average is below the threshold, so this completion raises the limit.
    have hhealthy : (s.releaseAndRecord .exact policy .success latency).currentLimit =
        s.nextLimit .exact policy false := by
      have hle := hewma.trans (hcalm (k + 1) (hlate.trans (Nat.le_succ k)))
      have hnot : F64.exact.lt (milliseconds policy.highLatencyThreshold)
          (s.releaseAndRecord .exact policy .success latency).ewmaLatencyMs = false :=
        decide_eq_false hle.not_gt
      exact congrArg (s.nextLimit .exact policy) hnot
    have hclimbed := h.climbed
    rw [hhealthy, nextLimit_increase]
    omega

/-- What is left of an excess gets as small as one likes. -/
theorem exists_calm {bound threshold start : ℚ} (hstart : 0 ≤ start) (hbound : bound < threshold) :
    ∃ calm, ∀ k ≥ calm, bound + (4 / 5) ^ k * start ≤ threshold := by
  have hgap : 0 < (threshold - bound) / (start + 1) := by
    have hpos : 0 < threshold - bound := sub_pos.mpr hbound
    positivity
  obtain ⟨calm, hcalm⟩ := exists_pow_lt_of_lt_one hgap (by norm_num : (4 / 5 : ℚ) < 1)
  refine ⟨calm, fun k hk ↦ ?_⟩
  have hpow : (4 / 5 : ℚ) ^ k ≤ (threshold - bound) / (start + 1) :=
    (pow_le_pow_of_le_one (by norm_num) (by norm_num) hk).trans hcalm.le
  rw [le_div_iff₀ (by positivity)] at hpow
  have hnonneg : 0 ≤ (4 / 5 : ℚ) ^ k := by positivity
  linarith

theorem run_successes (hpolicy : policy.validate .exact = .ok ())
    (hs : policy.InRange s.currentLimit) {bound : ℕ}
    (hbound : bound < policy.highLatencyThreshold) :
    ∃ N, ∀ operations : List AdaptiveOperation,
      (∀ operation ∈ operations, operation.Records fun outcome latency ↦
        outcome = .success ∧ latency ≤ bound) →
      N ≤ completed operations →
      (s.run .exact policy operations).currentLimit = policy.maxLimit := by
  have hstart : 0 ≤ max (s.ewmaLatencyMs - milliseconds bound) 0 := le_max_right _ _
  obtain ⟨calm, hcalm⟩ := exists_calm hstart (milliseconds_lt hbound)
  refine ⟨calm + policy.maxLimit, fun operations hoperations hmany ↦ ?_⟩
  have hinitial : Recovering policy (milliseconds bound)
      (max (s.ewmaLatencyMs - milliseconds bound) 0) calm 0 s.currentLimit s.ewmaLatencyMs := by
    refine ⟨hs, ?_, ?_⟩
    · have hle := le_max_left (s.ewmaLatencyMs - milliseconds bound) 0
      rw [pow_zero, one_mul]
      linarith
    · rw [Nat.zero_sub, Nat.min_zero]
      exact Nat.zero_le _
  have hrun := run_induction policy
    (fun k s outcome latency hquick h ↦ by
      obtain ⟨rfl, hlatency⟩ := hquick
      exact h.record hpolicy hstart hcalm hlatency)
    hinitial operations hoperations
  have hclimbed := hrun.climbed
  have hmax := hrun.inRange.2
  omega

end AdaptiveConcurrencyState

/-- Both directions, from a state that any operations have led to. -/
theorem adaptive_limit_converges (hpolicy : policy.validate .exact = .ok ())
    (before : List AdaptiveOperation) :
    let s := (AdaptiveConcurrencyState.new .exact policy).run .exact policy before
    (∀ operations : List AdaptiveOperation,
      (∀ operation ∈ operations, operation.Records fun outcome _ ↦ outcome = .failure) →
      s.currentLimit - policy.minLimit ≤ completed operations →
      (s.run .exact policy operations).currentLimit = policy.minLimit) ∧
    ∀ bound < policy.highLatencyThreshold, ∃ N, ∀ operations : List AdaptiveOperation,
      (∀ operation ∈ operations, operation.Records fun outcome latency ↦
        outcome = .success ∧ latency ≤ bound) →
      N ≤ completed operations →
      (s.run .exact policy operations).currentLimit = policy.maxLimit := by
  intro s
  have hvalid := AdaptiveConcurrencyPolicy.valid_of_validate hpolicy
  have hs : policy.InRange s.currentLimit :=
    inRange_run hvalid hvalid.inRange_initial before
  refine ⟨fun operations hfailures hmany ↦ ?_, fun bound hbound ↦
    run_successes hpolicy hs hbound⟩
  have hle := run_failures hvalid hs hfailures
  have hmin := (inRange_run hvalid hs operations).1
  omega

theorem halving_fits : 2 ≤ usizeMax ∧ 5 ≤ usizeMax ∧ 9 ≤ usizeMax := by decide

/-- Between 2 and 9, from 5; a second is slow. -/
def halving : AdaptiveConcurrencyPolicy ℚ := ⟨2, 5, 9, 1, 1 / 2, 1000000000, halving_fits⟩

def threeFailures : List AdaptiveOperation :=
  [.tryAcquire, .releaseAndRecord .failure 0, .releaseAndRecord .failure 7, .tryAcquire,
    .releaseAndRecord .failure 0]

theorem adaptive_limit_converges_halving :
    ((AdaptiveConcurrencyState.new .exact halving).run .exact halving threeFailures).currentLimit =
        2 ∧
      ∃ N, ∀ operations : List AdaptiveOperation,
        (∀ operation ∈ operations, operation.Records fun outcome latency ↦
          outcome = .success ∧ latency ≤ 999999999) →
        N ≤ completed operations →
        ((AdaptiveConcurrencyState.new .exact halving).run .exact halving
          operations).currentLimit = 9 := by
  have hvalid : halving.validate .exact = .ok () := by decide +kernel
  obtain ⟨hdown, hup⟩ := adaptive_limit_converges hvalid []
  refine ⟨hdown threeFailures ?_ (by decide), hup 999999999 (by decide)⟩
  simp [threeFailures, AdaptiveOperation.Records]

end Reqx.Resilience
