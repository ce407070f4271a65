import Mathlib.Algebra.Order.BigOperators.Group.List
import Mathlib.Algebra.Order.Ring.Nat
import Mathlib.Tactic.Common

/-!
# Shares

Every party of a list has a share of a resource. The total changes by the share
of one party when that party is replaced, and a total of zero leaves nothing to
any of them.
-/

namespace Shares

variable {α : Type*} (share : α → ℕ)

def total (parties : List α) : ℕ := (parties.map share).sum

@[simp] theorem total_nil : total share [] = 0 := rfl

@[simp] theorem total_cons (a : α) (parties : List α) :
    total share (a :: parties) = share a + total share parties := by
  simp [total]

@[simp] theorem total_append (parties others : List α) :
    total share (parties ++ others) = total share parties + total share others := by
  simp [total]

variable {share} {parties : List α} {i : ℕ} {a : α}

theorem total_set (share : α → ℕ) (h : parties[i]? = some a) (b : α) :
    total share (parties.set i b) + share a = total share parties + share b := by
  induction parties generalizing i with
  | nil => cases h
  | cons c parties ih =>
    cases i with
    | zero =>
      obtain rfl : c = a := Option.some.inj h
      simp only [List.set_cons_zero, total_cons]
      omega
    | succ i =>
      have hrest := ih (i := i) h
      simp only [List.set_cons_succ, total_cons]
      omega

theorem total_add (share share' : α → ℕ) (parties : List α) :
    total (fun a ↦ share a + share' a) parties = total share parties + total share' parties := by
  induction parties with
  | nil => rfl
  | cons a parties ih =>
    simp only [total_cons, ih]
    omega

theorem total_congr {share' : α → ℕ} (h : ∀ a ∈ parties, share a = share' a) :
    total share parties = total share' parties :=
  congrArg List.sum (List.map_congr_left h)

theorem countP_eq_total (p : α → Bool) (parties : List α) :
    parties.countP p = total (fun a ↦ (p a).toNat) parties := by
  induction parties with
  | nil => rfl
  | cons a parties ih =>
    rw [List.countP_cons, total_cons, ih, Nat.add_comm]
    cases p a <;> rfl

theorem countP_set (p : α → Bool) (h : parties[i]? = some a) (b : α) :
    (parties.set i b).countP p + (p a).toNat = parties.countP p + (p b).toNat := by
  rw [countP_eq_total, countP_eq_total]
  exact total_set _ h b

theorem share_le_total (h : parties[i]? = some a) : share a ≤ total share parties := by
  have hmem : a ∈ parties := List.mem_of_getElem? h
  exact List.single_le_sum (by simp) _ (List.mem_map_of_mem hmem)

theorem total_le_total {share' : α → ℕ} (h : ∀ a ∈ parties, share a ≤ share' a) :
    total share parties ≤ total share' parties :=
  List.sum_le_sum h

theorem total_le_length (h : ∀ a ∈ parties, share a ≤ 1) :
    total share parties ≤ parties.length := by
  have hones : total (fun _ ↦ 1) parties = parties.length := by simp [total]
  exact hones ▸ total_le_total h

theorem countP_le_total {p : α → Bool} (h : ∀ a ∈ parties, p a = true → 1 ≤ share a) :
    parties.countP p ≤ total share parties := by
  induction parties with
  | nil => exact Nat.le_refl 0
  | cons a parties ih =>
    have hrest := ih fun b hb ↦ h b (List.mem_cons_of_mem a hb)
    rw [List.countP_cons, total_cons]
    split
    · have ha := h a List.mem_cons_self ‹_›
      omega
    · omega

end Shares
