import Mathlib.Data.List.Perm.Subperm
import Mathlib.Tactic.SplitIfs

/-!
# Counting the entries of a table

How many entries of a table have a property, and the rule that compares two
such numbers: it is enough to find every entry of the first kind again, under
its key, among the entries of the second kind.
-/

namespace Table

variable {K V W X : Type*} [Ord K] {p : V → Bool} {q : W → Bool} {r : X → Bool}
  {t : Std.TreeMap K V} {u : Std.TreeMap K W} {w : Std.TreeMap K X}

def count (p : V → Bool) (t : Std.TreeMap K V) : ℕ := t.toList.countP fun e ↦ p e.2

/-- The second table has an entry with `q` for every entry of the first with `p`. -/
def Carries (p : V → Bool) (q : W → Bool) (t : Std.TreeMap K V) (u : Std.TreeMap K W) : Prop :=
  ∀ (k : K) (v : V), t[k]? = some v → p v = true → ∃ v', u[k]? = some v' ∧ q v' = true

theorem Carries.trans (h : Carries p q t u) (h' : Carries q r u w) : Carries p r t w := by
  intro k v hv hp
  obtain ⟨v', hv', hq⟩ := h k v hv hp
  exact h' k v' hv' hq

variable [Std.TransOrd K] [Std.LawfulEqOrd K]

/-- The keys of the entries that have the property. -/
def keysWith (p : V → Bool) (t : Std.TreeMap K V) : List K :=
  (t.toList.filter fun e ↦ p e.2).map Prod.fst

omit [Std.TransOrd K] [Std.LawfulEqOrd K] in
theorem length_keysWith : (keysWith p t).length = count p t := by
  rw [keysWith, List.length_map, count, List.countP_eq_length_filter]

theorem mem_keysWith {k : K} : k ∈ keysWith p t ↔ ∃ v, t[k]? = some v ∧ p v = true := by
  simp only [keysWith, List.mem_map, List.mem_filter, Prod.exists,
    Std.TreeMap.mem_toList_iff_getElem?_eq_some]
  constructor
  · rintro ⟨k, v, hv, rfl⟩
    exact ⟨v, hv⟩
  · rintro ⟨v, hv⟩
    exact ⟨k, v, hv, rfl⟩

theorem nodup_keysWith : (keysWith p t).Nodup := by
  rw [keysWith, List.Nodup, List.pairwise_map]
  apply List.Pairwise.filter
  apply Std.TreeMap.distinct_keys_toList.imp
  rintro a b hne heq
  exact hne (Std.compare_eq_iff_eq.mpr heq)

theorem Carries.count_le (h : Carries p q t u) : count p t ≤ count q u := by
  rw [← length_keysWith, ← length_keysWith]
  apply (List.subperm_of_subset nodup_keysWith ?_).length_le
  intro k hk
  obtain ⟨v, hv, hp⟩ := mem_keysWith.mp hk
  exact mem_keysWith.mpr (h k v hv hp)

theorem carries_insert {p q : V → Bool} {t : Std.TreeMap K V} {k : K} {v : V}
    (hkey : ∀ old, t[k]? = some old → p old = true → q v = true)
    (hrest : ∀ v, p v = true → q v = true) : Carries p q t (t.insert k v) := by
  intro k' v' hv' hp
  rw [Std.TreeMap.getElem?_insert]
  split_ifs with heq
  · obtain rfl : k = k' := Std.compare_eq_iff_eq.mp heq
    exact ⟨v, rfl, hkey v' hv' hp⟩
  · exact ⟨v', hv', hrest v' hp⟩

theorem size_eq_count (h : ∀ (k : K) (v : V), t[k]? = some v → p v = true) :
    t.size = count p t := by
  have hall : ∀ e ∈ t.toList, p e.2 = true :=
    fun e he ↦ h e.1 e.2 (Std.TreeMap.mem_toList_iff_getElem?_eq_some.mp he)
  rw [count, List.countP_eq_length.mpr hall, Std.TreeMap.length_toList]

end Table
