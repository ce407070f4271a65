import Mathlib.Algebra.BigOperators.Group.Finset.Piecewise
import Mathlib.Algebra.Order.BigOperators.Group.Finset
import Mathlib.Data.List.Basic
import Mathlib.Tactic.Common

/-!
# Interleavings

A log whose entries carry the index of the process they belong to. The
projection to an index is what that process did, in order; what holds of every
projection can be added up to what holds of the log.
-/

namespace Interleaving

variable {α : Type*} {log : List (ℕ × α)} {i j : ℕ} {a : α}

def project (log : List (ℕ × α)) (i : ℕ) : List α :=
  (log.filter fun e ↦ e.1 = i).map Prod.snd

@[simp] theorem project_nil (i : ℕ) : project ([] : List (ℕ × α)) i = [] := rfl

@[simp] theorem project_append (log log' : List (ℕ × α)) (i : ℕ) :
    project (log ++ log') i = project log i ++ project log' i := by
  simp [project]

theorem project_cons_self (i : ℕ) (a : α) (log : List (ℕ × α)) :
    project ((i, a) :: log) i = a :: project log i := by
  simp [project]

theorem project_cons_ne (h : j ≠ i) (a : α) (log : List (ℕ × α)) :
    project ((i, a) :: log) j = project log j := by
  simp [project, Ne.symm h]

theorem mem_project : a ∈ project log i ↔ (i, a) ∈ log := by
  simp only [project, List.mem_map, List.mem_filter, decide_eq_true_eq]
  constructor
  · rintro ⟨⟨k, b⟩, ⟨hmem, rfl⟩, rfl⟩
    exact hmem
  · exact fun hmem ↦ ⟨(i, a), ⟨hmem, rfl⟩, rfl⟩

theorem project_isPrefix {log' : List (ℕ × α)} (h : log <+: log') (i : ℕ) :
    project log i <+: project log' i := by
  obtain ⟨rest, rfl⟩ := h
  rw [project_append]
  exact List.prefix_append _ _

/-! ## Accounts

An account over a log is kept when no initial part of it holds more payments
than it holds earnings and credit together. -/

/-- In every initial part there are at most as many of `p` as of `q`, apart from `credit`. -/
def Affords (credit : ℕ) (p q : α → Bool) (xs : List α) : Prop :=
  ∀ before, before <+: xs → before.countP p ≤ before.countP q + credit

section Accounts

variable {credit : ℕ} {p q : α → Bool} {xs ys : List α}

theorem prefix_append_cases {before : List α} (h : before <+: xs ++ ys) :
    before <+: xs ∨ ∃ rest, before = xs ++ rest ∧ rest <+: ys := by
  rcases List.prefix_or_prefix_of_prefix h (List.prefix_append xs ys) with hxs | ⟨rest, rfl⟩
  · exact .inl hxs
  · exact .inr ⟨rest, rfl, (List.prefix_append_right_inj xs).mp h⟩

theorem Affords.mono (h : Affords credit p q ys) (hxs : xs <+: ys) : Affords credit p q xs :=
  fun before hbefore ↦ h before (hbefore.trans hxs)

theorem affords_of_countP_le (h : xs.countP p ≤ credit) : Affords credit p q xs := by
  intro before hbefore
  have hle : before.countP p ≤ xs.countP p := hbefore.countP_le
  omega

/-- What the first part has left over can be spent by the second. -/
theorem Affords.append {credit' : ℕ} (hxs : Affords credit p q xs) (hys : Affords credit' p q ys)
    (hleft : xs.countP p + credit' ≤ xs.countP q + credit) : Affords credit p q (xs ++ ys) := by
  intro before hbefore
  rcases prefix_append_cases hbefore with hfirst | ⟨rest, rfl, hrest⟩
  · exact hxs before hfirst
  · have hsecond := hys rest hrest
    rw [List.countP_append, List.countP_append]
    omega

theorem Affords.append_balanced (hxs : Affords credit p q xs) (hys : Affords 0 p q ys) :
    Affords credit p q (xs ++ ys) :=
  hxs.append hys (hxs xs List.prefix_rfl)

end Accounts

/-! ## Brackets

Something is opened, used and closed again. -/

section Brackets

variable {credit : ℕ} {opens uses closes : α → Bool} {xs ys : List α}

/-- At every point, the uses still to come do not exceed what is open there or is opened later;
`credit` was open at the start. -/
def Brackets (credit : ℕ) (opens uses closes : α → Bool) (xs : List α) : Prop :=
  ∀ before after, before ++ after <+: xs →
    after.countP uses + before.countP closes ≤ (before ++ after).countP opens + credit

theorem Brackets.affords (h : Brackets 0 opens uses closes xs) : Affords 0 uses opens xs := by
  intro before hbefore
  have hall := h [] before hbefore
  rwa [List.countP_nil, List.nil_append] at hall

theorem Brackets.of_map {β : Type*} {f : β → α} {zs : List β}
    (h : Brackets credit opens uses closes (zs.map f)) :
    Brackets credit (fun z ↦ opens (f z)) (fun z ↦ uses (f z)) (fun z ↦ closes (f z)) zs := by
  intro before after hprefix
  have hmap := h (before.map f) (after.map f) (by rw [← List.map_append]; exact hprefix.map f)
  rw [← List.map_append] at hmap
  simpa only [List.countP_map, Function.comp_def] using hmap

/-- First what opens, then what uses, then what closes. -/
theorem brackets_of_stages {first second third : List α} (hfirst : first.countP closes = 0)
    (hunused : first.countP uses = 0) (hsecond : second.countP closes = 0)
    (hthird : third.countP uses = 0) (huses : second.countP uses ≤ first.countP opens)
    (hcloses : third.countP closes ≤ first.countP opens + credit) :
    Brackets credit opens uses closes (first ++ (second ++ third)) := by
  intro before after hprefix
  have hsplit (p : α → Bool) : (before ++ after).countP p = before.countP p + after.countP p :=
    List.countP_append
  rcases prefix_append_cases hprefix with hin | ⟨rest, hrest, hlater⟩
  · -- Nothing is used or closed yet.
    have huse : (before ++ after).countP uses ≤ first.countP uses := hin.countP_le
    have hclose : (before ++ after).countP closes ≤ first.countP closes := hin.countP_le
    rw [hsplit] at huse hclose
    omega
  · have hopens : first.countP opens ≤ (before ++ after).countP opens := by
      rw [hrest, List.countP_append]
      exact Nat.le_add_right _ _
    rw [← List.append_assoc] at hprefix
    rcases prefix_append_cases ((List.prefix_append before after).trans hprefix) with
      hopen | ⟨tail, rfl, -⟩
    · -- Nothing is closed yet, and all uses are those of the second part.
      have hclose : before.countP closes ≤ (first ++ second).countP closes := hopen.countP_le
      have huse : (before ++ after).countP uses ≤ (first ++ second ++ third).countP uses :=
        hprefix.countP_le
      rw [hsplit] at huse
      simp only [List.countP_append] at hclose huse
      omega
    · -- All uses are over.
      have htail : tail ++ after <+: third := by
        rwa [List.append_assoc, List.prefix_append_right_inj] at hprefix
      have hclose : (tail ++ after).countP closes ≤ third.countP closes := htail.countP_le
      have huse : (tail ++ after).countP uses ≤ third.countP uses := htail.countP_le
      simp only [List.countP_append] at hclose huse hopens ⊢
      omega

theorem Brackets.append {credit' : ℕ} (hxs : Brackets credit opens uses closes xs)
    (hys : Brackets credit' opens uses closes ys) (huses : Affords 0 uses opens ys)
    (hleft : xs.countP closes + credit' ≤ xs.countP opens + credit) :
    Brackets credit opens uses closes (xs ++ ys) := by
  intro before after hprefix
  rcases prefix_append_cases hprefix with hin | ⟨rest, hrest, hlater⟩
  · exact hxs before after hin
  · rcases List.append_eq_append_iff.mp hrest with ⟨tail, rfl, rfl⟩ | ⟨tail, rfl, rfl⟩
    · have hfirst := hxs before tail List.prefix_rfl
      have hsecond := huses rest hlater
      simp only [List.countP_append] at hfirst ⊢
      omega
    · have hsecond := hys tail after hlater
      simp only [List.countP_append] at hsecond ⊢
      omega

end Brackets

/-! ## Adding up -/

/-- What is counted in a list is counted once in the part of its key. -/
theorem countP_eq_sum_parts {κ : Type*} [DecidableEq κ] {key : α → κ} {keys : Finset κ}
    {xs : List α} (h : ∀ a ∈ xs, key a ∈ keys) (p : α → Bool) :
    xs.countP p = ∑ k ∈ keys, xs.countP fun a ↦ p a && decide (key a = k) := by
  induction xs with
  | nil => simp
  | cons a xs ih =>
    obtain ⟨ha, hxs⟩ := List.forall_mem_cons.mp h
    have hone : ∑ k ∈ keys, (if (p a && decide (key a = k)) = true then 1 else 0) =
        if p a = true then 1 else 0 := by
      simp only [Bool.and_eq_true, decide_eq_true_eq, ite_and]
      split
      · rw [Finset.sum_ite_eq, if_pos ha]
      · exact Finset.sum_const_zero
    simp only [List.countP_cons, Finset.sum_add_distrib, hone, ← ih hxs]

theorem countP_project (p : α → Bool) (log : List (ℕ × α)) (i : ℕ) :
    (project log i).countP p = log.countP fun e ↦ p e.2 && decide (e.1 = i) := by
  rw [project, List.countP_map, List.countP_filter]
  rfl

theorem countP_eq_sum {n : ℕ} (h : ∀ e ∈ log, e.1 < n) (p : α → Bool) :
    log.countP (fun e ↦ p e.2) = ∑ i ∈ Finset.range n, (project log i).countP p := by
  simp only [countP_project]
  exact countP_eq_sum_parts (fun e he ↦ Finset.mem_range.mpr (h e he)) _

/-- An account that every process keeps is kept by all of them together. -/
theorem countP_le_of_project {n : ℕ} (h : ∀ e ∈ log, e.1 < n) (credit : ℕ) {p q : α → Bool}
    (hproject : ∀ i < n, (project log i).countP p ≤ (project log i).countP q + credit) :
    log.countP (fun e ↦ p e.2) ≤ log.countP (fun e ↦ q e.2) + n * credit := by
  rw [countP_eq_sum h p, countP_eq_sum h q]
  calc ∑ i ∈ Finset.range n, (project log i).countP p
      ≤ ∑ i ∈ Finset.range n, ((project log i).countP q + credit) :=
        Finset.sum_le_sum fun i hi ↦ hproject i (Finset.mem_range.mp hi)
    _ = (∑ i ∈ Finset.range n, (project log i).countP q) + n * credit := by
        rw [Finset.sum_add_distrib, Finset.sum_const_nat fun _ _ ↦ rfl, Finset.card_range]

end Interleaving
