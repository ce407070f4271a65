import Mathlib.Data.List.Basic
import Mathlib.Tactic.Common

/-!
# Insertion-ordered multimaps

A finite relation between keys and values that keeps, for every key, the order
in which its values were added. Removal drops every value of a key; nothing
here depends on the relative order of different keys.
-/

structure MultiMap (κ ν : Type*) where
  entries : List (κ × ν)
  deriving DecidableEq, Repr

namespace MultiMap

variable {κ ν : Type*}

def empty : MultiMap κ ν := ⟨[]⟩

instance : Membership (κ × ν) (MultiMap κ ν) := ⟨fun m p ↦ p ∈ m.entries⟩

variable {m : MultiMap κ ν}

theorem mem_def {p : κ × ν} : p ∈ m ↔ p ∈ m.entries := Iff.rfl

def mapValues (f : κ → ν → ν) (m : MultiMap κ ν) : MultiMap κ ν :=
  ⟨m.entries.map fun p ↦ (p.1, f p.1 p.2)⟩

variable [DecidableEq κ]

/-- All values of a key, oldest first. -/
def getAll (m : MultiMap κ ν) (k : κ) : List ν :=
  (m.entries.filter fun p ↦ p.1 = k).map Prod.snd

def get? (m : MultiMap κ ν) (k : κ) : Option ν := (m.getAll k).head?

def containsKey (m : MultiMap κ ν) (k : κ) : Bool := m.entries.any fun p ↦ p.1 = k

def remove (m : MultiMap κ ν) (k : κ) : MultiMap κ ν :=
  ⟨m.entries.filter fun p ↦ p.1 ≠ k⟩

def removeAll (m : MultiMap κ ν) (ks : List κ) : MultiMap κ ν := ks.foldl remove m

def insert (m : MultiMap κ ν) (k : κ) (v : ν) : MultiMap κ ν :=
  ⟨(m.remove k).entries ++ [(k, v)]⟩

variable {k : κ}

theorem containsKey_iff : m.containsKey k = true ↔ ∃ v, (k, v) ∈ m := by
  simp only [containsKey, List.any_eq_true, decide_eq_true_eq, mem_def]
  constructor
  · rintro ⟨⟨k', v⟩, hmem, rfl⟩
    exact ⟨v, hmem⟩
  · rintro ⟨v, hmem⟩
    exact ⟨(k, v), hmem, rfl⟩

theorem containsKey_eq_false_iff : m.containsKey k = false ↔ ∀ v, (k, v) ∉ m := by
  rw [← Bool.not_eq_true, containsKey_iff, not_exists]

theorem mem_getAll {v : ν} : v ∈ m.getAll k ↔ (k, v) ∈ m := by
  simp only [getAll, List.mem_map, List.mem_filter, decide_eq_true_eq, mem_def]
  constructor
  · rintro ⟨⟨k', w⟩, ⟨hmem, rfl⟩, rfl⟩
    exact hmem
  · intro hmem
    exact ⟨(k, v), ⟨hmem, rfl⟩, rfl⟩

theorem getAll_eq_nil_iff : m.getAll k = [] ↔ m.containsKey k = false := by
  rw [containsKey_eq_false_iff, List.eq_nil_iff_forall_not_mem]
  simp only [mem_getAll]

@[simp] theorem mem_remove {p : κ × ν} : p ∈ m.remove k ↔ p ∈ m ∧ p.1 ≠ k := by
  simp [mem_def, remove]

theorem mem_removeAll {ks : List κ} {p : κ × ν} : p ∈ m.removeAll ks ↔ p ∈ m ∧ p.1 ∉ ks := by
  induction ks generalizing m with
  | nil => simp [removeAll]
  | cons k ks ih =>
    have hstep : m.removeAll (k :: ks) = (m.remove k).removeAll ks := rfl
    rw [hstep, ih, mem_remove, List.mem_cons, not_or, and_assoc]

theorem getAll_remove (m : MultiMap κ ν) (k j : κ) :
    (m.remove k).getAll j = if j = k then [] else m.getAll j := by
  simp only [getAll, remove, List.filter_filter]
  by_cases hjk : j = k
  · subst hjk
    rw [if_pos rfl, List.map_eq_nil_iff, List.filter_eq_nil_iff]
    rintro ⟨a, v⟩ _
    simp
  · rw [if_neg hjk]
    congr 1
    apply List.filter_congr
    rintro ⟨a, v⟩ _
    by_cases haj : a = j
    · subst haj
      simp [hjk]
    · simp [haj]

theorem getAll_insert_of_ne (m : MultiMap κ ν) {k j : κ} (v : ν) (hjk : j ≠ k) :
    (m.insert k v).getAll j = m.getAll j := by
  have hrem := getAll_remove m k j
  rw [if_neg hjk] at hrem
  rw [← hrem]
  simp [getAll, insert, Ne.symm hjk]

theorem getAll_insert_self (m : MultiMap κ ν) (k : κ) (v : ν) : (m.insert k v).getAll k = [v] := by
  have hrest : (m.remove k).getAll k = [] := by rw [getAll_remove, if_pos rfl]
  rw [getAll, List.map_eq_nil_iff] at hrest
  rw [getAll, insert, List.filter_append, hrest]
  simp

theorem remove_insert (m : MultiMap κ ν) (k : κ) (v : ν) :
    (m.insert k v).remove k = m.remove k := by
  simp [insert, remove]

/-- The keys of `n` replace those of `m`. -/
def extend (m n : MultiMap κ ν) : MultiMap κ ν :=
  ⟨(m.entries.filter fun p ↦ !n.containsKey p.1) ++ n.entries⟩

theorem getAll_extend (m n : MultiMap κ ν) (k : κ) :
    (m.extend n).getAll k = if n.containsKey k then n.getAll k else m.getAll k := by
  have hsplit : (m.extend n).getAll k =
      (m.getAll k).filter (fun _ ↦ !n.containsKey k) ++ n.getAll k := by
    simp only [getAll, extend, List.filter_append, List.map_append, List.filter_filter,
      List.filter_map]
    congr 2
    refine List.filter_congr fun p _ ↦ ?_
    by_cases hp : p.1 = k <;> simp [hp]
  rw [hsplit]
  cases hk : n.containsKey k with
  | true => simp
  | false => simp [getAll_eq_nil_iff.mpr hk]

theorem getAll_mapValues (f : κ → ν → ν) (m : MultiMap κ ν) (k : κ) :
    (m.mapValues f).getAll k = (m.getAll k).map (f k) := by
  simp only [getAll, mapValues, List.filter_map, List.map_map]
  apply List.map_congr_left
  rintro ⟨a, v⟩ hmem
  have hak : a = k := by simpa using (List.mem_filter.mp hmem).2
  subst hak
  rfl

end MultiMap
