import Mathlib.Data.List.Infix
import Mathlib.Data.Nat.Find
import Mathlib.Tactic.Common

/-!
# Slices of a list

The checked slices of the source language, where an index out of range gives
`none`, and the first place at which a list stands in another one.
-/

namespace Slices

variable {α : Type*}

def sliceFrom? (l : List α) (start : ℕ) : Option (List α) :=
  if start ≤ l.length then some (l.drop start) else none

def slice? (l : List α) (start stop : ℕ) : Option (List α) :=
  if start ≤ stop ∧ stop ≤ l.length then some ((l.drop start).take (stop - start)) else none

/-- `slice::windows`. -/
def windows (size : ℕ) (l : List α) : List (List α) :=
  (List.range (l.length + 1 - size)).map fun i ↦ (l.drop i).take size

def findSubslice [DecidableEq α] (haystack needle : List α) : Option ℕ :=
  if needle.isEmpty ∨ haystack.length < needle.length then none
  else (windows needle.length haystack).findIdx? (· = needle)

variable {a b l needle : List α} {i j : ℕ}

theorem sliceFrom?_append (a b : List α) : sliceFrom? (a ++ b) a.length = some b := by
  rw [sliceFrom?, if_pos (by simp), List.drop_left]

theorem sliceFrom?_of_eq (hl : l = a ++ b) (hi : i = a.length) : sliceFrom? l i = some b := by
  rw [hl, hi, sliceFrom?_append]

theorem slice?_of_eq {c : List α} (hl : l = a ++ b ++ c) (hi : i = a.length)
    (hj : j = a.length + b.length) : slice? l i j = some b := by
  rw [slice?, hl, hi, hj, if_pos (by simp), List.append_assoc, List.drop_left,
    Nat.add_sub_cancel_left, List.take_left]

theorem drop_append_append (a b c : List α) : (a ++ (b ++ c)).drop (a.length + b.length) = c := by
  rw [← List.drop_drop, List.drop_left, List.drop_left]

@[simp] theorem length_windows (size : ℕ) (l : List α) :
    (windows size l).length = l.length + 1 - size := by simp [windows]

@[simp] theorem getElem_windows {size : ℕ} (h : i < (windows size l).length) :
    (windows size l)[i] = (l.drop i).take size := by simp [windows]

theorem prefix_drop_iff (hne : needle ≠ []) : needle <+: l.drop i ↔
    i < l.length + 1 - needle.length ∧ (l.drop i).take needle.length = needle := by
  have hpos := List.length_pos_iff.mpr hne
  constructor
  · intro h
    have hfits := h.length_le
    rw [List.length_drop] at hfits
    exact ⟨by omega, (List.prefix_iff_eq_take.mp h).symm⟩
  · rintro ⟨-, h⟩
    exact List.prefix_iff_eq_take.mpr h.symm

theorem infix_iff_prefix_drop : needle <:+: l ↔ ∃ i, needle <+: l.drop i := by
  constructor
  · rintro ⟨before, after, rfl⟩
    exact ⟨before.length, by simp⟩
  · rintro ⟨i, hi⟩
    exact hi.isInfix.trans (List.drop_suffix i l).isInfix

/-- A list whose first element is not in the first part stands in no place of that part. -/
theorem length_le_of_prefix_drop {c : α} {rest : List α} (hc : c ∉ a)
    (h : c :: rest <+: (a ++ b).drop i) : a.length ≤ i := by
  by_contra hlt
  rw [Nat.not_le] at hlt
  rw [List.drop_append_of_le_length hlt.le, List.drop_eq_getElem_cons hlt, List.cons_append,
    List.cons_prefix_cons] at h
  exact hc (h.1 ▸ List.getElem_mem hlt)

/-- What stands in front of the end of the first part and is as long as the end stands in it. -/
theorem prefix_drop_append_iff (hi : i + needle.length ≤ a.length) :
    needle <+: (a ++ b).drop i ↔ needle <+: a.drop i := by
  rw [List.drop_append_of_le_length (by omega)]
  refine ⟨fun h ↦ ?_, fun h ↦ h.trans (List.prefix_append _ _)⟩
  exact List.prefix_of_prefix_length_le h (List.prefix_append _ _)
    (by rw [List.length_drop]; omega)

variable [DecidableEq α]

theorem findSubslice_eq_some_iff (hne : needle ≠ []) :
    findSubslice l needle = some i ↔ needle <+: l.drop i ∧ ∀ j < i, ¬ needle <+: l.drop j := by
  have hempty : ¬ needle.isEmpty = true := fun h ↦ hne (List.isEmpty_iff.mp h)
  by_cases hshort : l.length < needle.length
  · rw [findSubslice, if_pos (.inr hshort), prefix_drop_iff hne]
    refine iff_of_false (fun h ↦ by cases h) fun h ↦ ?_
    omega
  · rw [findSubslice, if_neg (not_or.mpr ⟨hempty, hshort⟩), List.findIdx?_eq_some_iff_getElem]
    simp only [length_windows, getElem_windows, decide_eq_true_eq, exists_prop,
      prefix_drop_iff hne]
    constructor
    · rintro ⟨hi, hwindow, hfirst⟩
      exact ⟨⟨hi, hwindow⟩, fun j hj h ↦ hfirst j hj h.2⟩
    · rintro ⟨⟨hi, hwindow⟩, hfirst⟩
      exact ⟨hi, hwindow, fun j hj h ↦ hfirst j hj ⟨by omega, h⟩⟩

/-- What is found at an offset is behind that many elements. -/
theorem exists_of_findSubslice (hne : needle ≠ []) (h : findSubslice l needle = some i) :
    ∃ front behind, l = front ++ (needle ++ behind) ∧ i = front.length := by
  obtain ⟨⟨behind, hbehind⟩, -⟩ := (findSubslice_eq_some_iff hne).mp h
  have hle : i ≤ l.length := by
    by_contra hgt
    rw [List.drop_eq_nil_of_le (Nat.not_le.mp hgt).le, List.append_eq_nil_iff] at hbehind
    exact hne hbehind.1
  refine ⟨l.take i, behind, ?_, ?_⟩
  · rw [hbehind, List.take_append_drop]
  · rw [List.length_take, Nat.min_eq_left hle]

theorem findSubslice_eq_none_iff (hne : needle ≠ []) :
    findSubslice l needle = none ↔ ∀ i, ¬ needle <+: l.drop i := by
  constructor
  · intro h i hi
    -- The least such place would be found.
    have hexists : ∃ i, needle <+: l.drop i := ⟨i, hi⟩
    classical
    have hfound := (findSubslice_eq_some_iff hne).mpr
      ⟨Nat.find_spec hexists, fun j hj ↦ Nat.find_min hexists hj⟩
    rw [h] at hfound
    cases hfound
  · intro h
    rw [Option.eq_none_iff_forall_ne_some]
    exact fun i hi ↦ h i ((findSubslice_eq_some_iff hne).mp hi).1

end Slices
