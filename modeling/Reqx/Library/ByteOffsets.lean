import Mathlib.Algebra.GroupWithZero.Nat
import Reqx.Library.Splitting

/-!
# Byte offsets in texts

A string slice of the source language is cut at byte offsets, and a cut inside the
encoding of a character stops the program. Here such a cut gives `none`, so that a
function which returns a value has cut between characters only.
-/

namespace Text

/-- `str::len`. -/
def len (t : Text) : ℕ := (t.map Char.utf8Size).sum

/-- `str::split_at_checked`. -/
def splitAt? : Text → ℕ → Option (Text × Text)
  | t, 0 => some ([], t)
  | [], _ + 1 => none
  | c :: t, index + 1 =>
    if c.utf8Size ≤ index + 1 then
      (splitAt? t (index + 1 - c.utf8Size)).map fun parts ↦ (c :: parts.1, parts.2)
    else none

def isCharBoundary (t : Text) (index : ℕ) : Bool := (splitAt? t index).isSome

-- The slices `t[..index]`, `t[index..]` and `t[start..stop]`.
def sliceTo? (t : Text) (index : ℕ) : Option Text := (splitAt? t index).map Prod.fst

def sliceFrom? (t : Text) (index : ℕ) : Option Text := (splitAt? t index).map Prod.snd

def slice? (t : Text) (start stop : ℕ) : Option Text :=
  (sliceTo? t stop).bind fun before ↦ sliceFrom? before start

/-- The largest character boundary up to an offset. -/
def floorCharBoundary (t : Text) : ℕ → ℕ
  | 0 => 0
  | index + 1 => if isCharBoundary t (index + 1) then index + 1 else floorCharBoundary t index

/-- `str::rfind` of a character. -/
def rfind (c : Char) (t : Text) : Option ℕ := (rsplitOnce c t).map fun parts ↦ len parts.1

variable {a b c t : Text} {index start : ℕ}

@[simp] theorem len_nil : len [] = 0 := rfl

@[simp] theorem len_cons (d : Char) (t : Text) : len (d :: t) = d.utf8Size + len t := by
  simp [len]

@[simp] theorem len_append (a b : Text) : len (a ++ b) = len a + len b := by
  simp [len]

theorem length_le_len (t : Text) : t.length ≤ len t := by
  induction t with
  | nil => exact Nat.le_refl 0
  | cons d t ih =>
    have hsize := d.utf8Size_pos
    rw [len_cons, List.length_cons]
    omega

theorem len_eq_zero_iff : len t = 0 ↔ t = [] := by
  refine ⟨fun h ↦ List.length_eq_zero_iff.mp (Nat.le_zero.mp (h ▸ length_le_len t)), ?_⟩
  rintro rfl
  rfl

theorem len_of_ascii (h : ∀ c ∈ t, c.toNat < 128) : len t = t.length := by
  induction t with
  | nil => rfl
  | cons d t ih =>
    rw [List.forall_mem_cons] at h
    have hsize : d.utf8Size = 1 := Char.utf8Size_eq_one_iff.mpr (Nat.le_of_lt_succ h.1)
    rw [len_cons, List.length_cons, hsize, ih h.2, Nat.add_comm]

/-- A cut is at the end of the characters before it. -/
theorem splitAt?_append (a b : Text) : splitAt? (a ++ b) (len a) = some (a, b) := by
  induction a with
  | nil =>
    unfold splitAt?
    rfl
  | cons d a ih =>
    have hsize := d.utf8Size_pos
    obtain ⟨n, hn⟩ := Nat.exists_eq_succ_of_ne_zero (show len (d :: a) ≠ 0 by simp; omega)
    have hle : d.utf8Size ≤ n + 1 := by
      rw [len_cons] at hn
      omega
    have hrest : n + 1 - d.utf8Size = len a := by
      rw [len_cons] at hn
      omega
    rw [hn, List.cons_append, splitAt?, if_pos hle, hrest, ih]
    rfl

theorem splitAt?_eq_some (h : splitAt? t index = some (a, b)) : t = a ++ b ∧ len a = index := by
  induction t generalizing a index with
  | nil =>
    cases index with
    | zero =>
      cases h
      exact ⟨rfl, rfl⟩
    | succ index => cases h
  | cons d t ih =>
    cases index with
    | zero =>
      cases h
      exact ⟨rfl, rfl⟩
    | succ index =>
      unfold splitAt? at h
      split at h
      next hle =>
        obtain ⟨parts, hparts, heq⟩ := Option.map_eq_some_iff.mp h
        cases heq
        obtain ⟨hsplit, hlen⟩ := ih hparts
        rw [len_cons, hlen, List.cons_append, ← hsplit]
        exact ⟨rfl, Nat.add_sub_cancel' hle⟩
      · cases h

theorem sliceTo?_append (a b : Text) : sliceTo? (a ++ b) (len a) = some a := by
  rw [sliceTo?, splitAt?_append]
  rfl

theorem sliceFrom?_append (a b : Text) : sliceFrom? (a ++ b) (len a) = some b := by
  rw [sliceFrom?, splitAt?_append]
  rfl

theorem slice?_append (a b c : Text) : slice? (a ++ b ++ c) (len a) (len a + len b) = some b := by
  rw [slice?, ← len_append, sliceTo?_append, Option.bind_some, sliceFrom?_append]

theorem floorCharBoundary_le (t : Text) (index : ℕ) : floorCharBoundary t index ≤ index := by
  induction index with
  | zero => exact Nat.le_refl 0
  | succ index ih =>
    unfold floorCharBoundary
    split
    · exact Nat.le_refl _
    · exact ih.trans (Nat.le_succ index)

theorem exists_floorCharBoundary (t : Text) (index : ℕ) :
    ∃ a b, t = a ++ b ∧ len a = floorCharBoundary t index := by
  induction index with
  | zero => exact ⟨[], t, rfl, rfl⟩
  | succ index ih =>
    unfold floorCharBoundary
    split
    next hboundary =>
      obtain ⟨⟨a, b⟩, hparts⟩ := Option.isSome_iff_exists.mp hboundary
      exact ⟨a, b, splitAt?_eq_some hparts⟩
    · exact ih

end Text
