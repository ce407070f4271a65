import Mathlib.Algebra.BigOperators.Group.List.Basic
import Mathlib.Algebra.Order.Ring.Defs
import Mathlib.Tactic.Linarith
import Mathlib.Tactic.Ring

/-!
# Credit that accrues up to a cap

An account gains `rate` per unit of time until it holds `cap`. Accruing in
pieces is accruing once, and an account that is never overdrawn spends at most
`cap + rate * (t - s)` in any closed interval `[s, t]`.
-/

namespace Accrual

variable {K : Type*} [CommRing K] [LinearOrder K]

def accrue (cap rate elapsed level : K) : K := min cap (level + rate * elapsed)

/-- What is spent in the closed interval `[s, t]` by a history of `(time, amount)` pairs. -/
def spentIn (s t : K) (history : List (K × K)) : K :=
  ((history.filter fun e ↦ s ≤ e.1 ∧ e.1 ≤ t).map Prod.snd).sum

variable {cap rate elapsed level : K}

theorem accrue_zero (hlevel : level ≤ cap) : accrue cap rate 0 level = level := by
  simpa [accrue] using hlevel

theorem accrue_le_cap : accrue cap rate elapsed level ≤ cap := min_le_left _ _

theorem accrue_le : accrue cap rate elapsed level ≤ level + rate * elapsed := min_le_right _ _

theorem spentIn_cons (s t : K) (e : K × K) (history : List (K × K)) :
    spentIn s t (e :: history) =
      (if s ≤ e.1 ∧ e.1 ≤ t then e.2 else 0) + spentIn s t history := by
  by_cases hin : s ≤ e.1 ∧ e.1 ≤ t <;> simp [spentIn, hin]

variable [IsStrictOrderedRing K]

theorem le_accrue (hrate : 0 ≤ rate) (helapsed : 0 ≤ elapsed) (hlevel : level ≤ cap) :
    level ≤ accrue cap rate elapsed level := by
  have hgain : 0 ≤ rate * elapsed := mul_nonneg hrate helapsed
  exact le_min hlevel (by linarith)

theorem accrue_cap (hrate : 0 ≤ rate) (helapsed : 0 ≤ elapsed) :
    accrue cap rate elapsed cap = cap :=
  le_antisymm accrue_le_cap (le_accrue hrate helapsed le_rfl)

theorem accrue_add (hrate : 0 ≤ rate) {later : K} (hlater : 0 ≤ later) :
    accrue cap rate (elapsed + later) level =
      accrue cap rate later (accrue cap rate elapsed level) := by
  have hgain : 0 ≤ rate * later := mul_nonneg hrate hlater
  have hcap : min cap (cap + rate * later) = cap := min_eq_left (by linarith)
  calc
    accrue cap rate (elapsed + later) level
      = min cap (level + rate * elapsed + rate * later) := by
        unfold accrue
        ring_nf
    _ = min cap (min (cap + rate * later) (level + rate * elapsed + rate * later)) := by
        rw [← min_assoc, hcap]
    _ = accrue cap rate later (accrue cap rate elapsed level) := by
        unfold accrue
        rw [min_add_add_right]

/-! ## Histories of spending -/

/-- A history that an account with the given level at
time `now` can pay without ever being overdrawn. -/
inductive Metered (cap rate : K) : K → K → List (K × K) → Prop
  | nil {now level : K} : Metered cap rate now level []
  | cons {now level time amount : K} {rest : List (K × K)} (level_le : level ≤ cap)
      (le_time : now ≤ time) (amount_nonneg : 0 ≤ amount)
      (covered : amount ≤ accrue cap rate (time - now) level)
      (rest_metered : Metered cap rate time (accrue cap rate (time - now) level - amount) rest) :
      Metered cap rate now level ((time, amount) :: rest)

variable {now s t : K} {history : List (K × K)}

omit [IsStrictOrderedRing K] in
theorem Metered.spentIn_eq_zero (h : Metered cap rate now level history) (hlate : t < now) :
    spentIn s t history = 0 := by
  induction h with
  | nil => rfl
  | cons level_le le_time amount_nonneg covered rest_metered ih =>
    have hout := hlate.trans_le le_time
    rw [spentIn_cons, if_neg fun hin ↦ absurd hin.2 hout.not_ge, ih hout, zero_add]

theorem Metered.spentIn_le_level (h : Metered cap rate now level history) (hrate : 0 ≤ rate)
    (hlevel : 0 ≤ level) (hnow : now ≤ t) : spentIn s t history ≤ level + rate * (t - now) := by
  induction h with
  | nil =>
    have hgain : 0 ≤ rate * (t - _) := mul_nonneg hrate (sub_nonneg.mpr hnow)
    simp only [spentIn, List.filter_nil, List.map_nil, List.sum_nil]
    linarith
  | @cons now level time amount rest level_le le_time amount_nonneg covered rest_metered ih =>
    rw [spentIn_cons]
    rcases le_or_gt time t with hin | hout
    · have hrest := ih (sub_nonneg.mpr covered) hin
      have hgain : accrue cap rate (time - now) level ≤ level + rate * (time - now) := accrue_le
      have hhead : (if s ≤ time ∧ time ≤ t then amount else 0) ≤ amount := by
        split_ifs
        · exact le_rfl
        · exact amount_nonneg
      calc
        (if s ≤ time ∧ time ≤ t then amount else 0) + spentIn s t rest
          ≤ amount + (accrue cap rate (time - now) level - amount + rate * (t - time)) :=
            add_le_add hhead hrest
        _ ≤ level + rate * (time - now) + rate * (t - time) := by linarith
        _ = level + rate * (t - now) := by ring
    · have hgain : 0 ≤ rate * (t - now) := mul_nonneg hrate (sub_nonneg.mpr hnow)
      rw [if_neg fun hin ↦ absurd hin.2 hout.not_ge, rest_metered.spentIn_eq_zero hout]
      linarith

theorem Metered.spentIn_le (h : Metered cap rate now level history) (hrate : 0 ≤ rate)
    (hcap : 0 ≤ cap) (hst : s ≤ t) : spentIn s t history ≤ cap + rate * (t - s) := by
  have hgain : 0 ≤ rate * (t - s) := mul_nonneg hrate (sub_nonneg.mpr hst)
  induction h with
  | nil =>
    simp only [spentIn, List.filter_nil, List.map_nil, List.sum_nil]
    linarith
  | @cons now level time amount rest level_le le_time amount_nonneg covered rest_metered ih =>
    rw [spentIn_cons]
    by_cases hin : s ≤ time ∧ time ≤ t
    · -- The first payment in the interval finds at most `cap` in the account.
      have hrest := rest_metered.spentIn_le_level (s := s) hrate (sub_nonneg.mpr covered) hin.2
      have hfull : accrue cap rate (time - now) level ≤ cap := accrue_le_cap
      have hlater : rate * (t - time) ≤ rate * (t - s) :=
        mul_le_mul_of_nonneg_left (sub_le_sub_left hin.1 t) hrate
      rw [if_pos hin]
      linarith
    · rw [if_neg hin, zero_add]
      exact ih

end Accrual
