import Reqx.Library.Splitting
import Reqx.Library.Subslices
import Mathlib.Data.List.MinMax

/-!
# First occurrences of patterns

Where one of several patterns begins first in a text, from an offset on. The answer
for a text that is continued by a character no pattern contains is the answer for
its first part, or else the one for its second part.
-/

namespace Text

variable {pattern a b t : Text} {patterns : List Text} {offset i k : ℕ}

/-- `str::find`. -/
def find (pattern t : Text) : Option ℕ := (splitOnceText pattern t).map fun parts ↦ parts.1.length

theorem find_eq_none_iff : find pattern t = none ↔ ∀ i, ¬ pattern <+: t.drop i := by
  rw [find, Option.map_eq_none_iff, splitOnceText_eq_none_iff,
    Slices.infix_iff_prefix_drop, not_exists]

theorem find_eq_some (h : find pattern t = some i) :
    pattern <+: t.drop i ∧ ∀ j < i, ¬ pattern <+: t.drop j := by
  obtain ⟨⟨before, after⟩, hsplit, rfl⟩ := Option.map_eq_some_iff.mp h
  refine ⟨?_, ?_⟩
  · rw [splitOnceText_eq_some hsplit]
    simp
  · clear h
    induction t generalizing before with
    | nil =>
      unfold splitOnceText at hsplit
      split at hsplit
      · cases hsplit
        exact fun j hj ↦ absurd hj (Nat.not_lt_zero j)
      · cases hsplit
    | cons d t ih =>
      unfold splitOnceText at hsplit
      split at hsplit
      · cases hsplit
        exact fun j hj ↦ absurd hj (Nat.not_lt_zero j)
      next hfirst =>
        obtain ⟨parts, hparts, heq⟩ := Option.map_eq_some_iff.mp hsplit
        cases heq
        rintro (_ | j) hj
        · rwa [List.drop_zero, ← List.isPrefixOf_iff_prefix]
        · exact ih _ hparts j (Nat.lt_of_succ_lt_succ hj)

/-- One of the patterns begins at this place. -/
def Begins (patterns : List Text) (t : Text) (i : ℕ) : Prop := ∃ p ∈ patterns, p <+: t.drop i

/-- The first place from the offset on at which a pattern begins, and the length of that pattern. -/
def findFirst (patterns : List Text) (t : Text) (offset : ℕ) : Option (ℕ × ℕ) :=
  (patterns.filterMap fun pattern ↦
    (find pattern (t.drop offset)).map fun index ↦ (offset + index, pattern.length)).argmin
      Prod.fst

theorem findFirst_eq_none_iff :
    findFirst patterns t offset = none ↔ ∀ i, offset ≤ i → ¬ Begins patterns t i := by
  rw [findFirst, List.argmin_eq_none, List.filterMap_eq_nil_iff]
  simp only [Option.map_eq_none_iff, find_eq_none_iff, List.drop_drop]
  constructor
  · rintro h i hi ⟨p, hp, hbegins⟩
    refine h p hp (i - offset) ?_
    rwa [Nat.add_sub_cancel' hi]
  · exact fun h p hp i hbegins ↦ h _ (Nat.le_add_right _ _) ⟨p, hp, hbegins⟩

theorem findFirst_eq_some (h : findFirst patterns t offset = some (i, k)) :
    offset ≤ i ∧ (∃ p ∈ patterns, p.length = k ∧ p <+: t.drop i) ∧
      ∀ j, offset ≤ j → j < i → ¬ Begins patterns t j := by
  have hmem := List.argmin_mem h
  obtain ⟨p, hp, hfound⟩ := List.mem_filterMap.mp hmem
  obtain ⟨index, hindex, heq⟩ := Option.map_eq_some_iff.mp hfound
  cases heq
  refine ⟨Nat.le_add_right _ _, ⟨p, hp, rfl, ?_⟩, ?_⟩
  · rw [← List.drop_drop]
    exact (find_eq_some hindex).1
  · rintro j hj hlt ⟨p', hp', hbegins⟩
    -- The pattern that begins here is found at this place or before it.
    have hbegins' : p' <+: (t.drop offset).drop (j - offset) := by
      rwa [List.drop_drop, Nat.add_sub_cancel' hj]
    cases hother : find p' (t.drop offset) with
    | none => exact find_eq_none_iff.mp hother _ hbegins'
    | some index' =>
      have hle : index' ≤ j - offset := by
        by_contra hgt
        exact (find_eq_some hother).2 _ (Nat.not_le.mp hgt) hbegins'
      have hleast := List.le_of_mem_argmin
        (List.mem_filterMap.mpr ⟨p', hp', by rw [hother]; rfl⟩) h
      dsimp only at hleast
      omega

/-- No pattern is the beginning of another one. -/
def Separate (patterns : List Text) : Prop :=
  ∀ p ∈ patterns, ∀ p' ∈ patterns, p <+: p' → p = p'

theorem findFirst_eq_some_iff (hseparate : Separate patterns) :
    findFirst patterns t offset = some (i, k) ↔
      offset ≤ i ∧ (∃ p ∈ patterns, p.length = k ∧ p <+: t.drop i) ∧
        ∀ j, offset ≤ j → j < i → ¬ Begins patterns t j := by
  refine ⟨findFirst_eq_some, ?_⟩
  rintro ⟨hle, ⟨p, hp, rfl, hbegins⟩, hfirst⟩
  cases hfound : findFirst patterns t offset with
  | none => exact absurd ⟨p, hp, hbegins⟩ (findFirst_eq_none_iff.mp hfound i hle)
  | some found =>
    obtain ⟨hle', ⟨p', hp', hlength, hbegins'⟩, hfirst'⟩ := findFirst_eq_some hfound
    have hplace : found.1 = i := by
      rcases Nat.lt_trichotomy found.1 i with hlt | heq | hgt
      · exact absurd ⟨p', hp', hbegins'⟩ (hfirst _ hle' hlt)
      · exact heq
      · exact absurd ⟨p, hp, hbegins⟩ (hfirst' _ hle hgt)
    rw [hplace] at hbegins'
    have hsame : p' = p := by
      rcases List.prefix_or_prefix_of_prefix hbegins' hbegins with h | h
      · exact hseparate _ hp' _ hp h
      · exact (hseparate _ hp _ hp' h).symm
    rw [← hplace, ← hsame, hlength]

theorem findFirst_self (hseparate : Separate patterns)
    (h : findFirst patterns t offset = some (i, k)) : findFirst patterns t i = some (i, k) := by
  obtain ⟨-, hbegins, -⟩ := findFirst_eq_some h
  exact (findFirst_eq_some_iff hseparate).mpr
    ⟨Nat.le_refl i, hbegins, fun j hj hlt ↦ absurd hj (Nat.not_le.mpr hlt)⟩

/-! ## A text in two parts -/

/-- The second part begins with a character that is in no pattern. -/
def Parted (patterns : List Text) (b : Text) : Prop := ∀ c ∈ b.head?, ∀ p ∈ patterns, c ∉ p

theorem prefix_append_iff (h : ∀ c ∈ b.head?, c ∉ pattern) :
    pattern <+: a ++ b ↔ pattern <+: a := by
  refine ⟨fun hstart ↦ ?_, fun hstart ↦ hstart.trans (List.prefix_append a b)⟩
  rcases List.prefix_or_prefix_of_prefix hstart (List.prefix_append a b) with hshort | hlong
  · exact hshort
  obtain ⟨rest, rfl⟩ := hlong
  rw [List.prefix_append_right_inj] at hstart
  cases rest with
  | nil => simp
  | cons c rest =>
    cases b with
    | nil => simp at hstart
    | cons d b =>
      obtain rfl := (List.cons_prefix_cons.mp hstart).1
      exact absurd (by simp) (h c rfl)

theorem begins_append_left (hparted : Parted patterns b) (hi : i ≤ a.length) :
    Begins patterns (a ++ b) i ↔ Begins patterns a i := by
  refine exists_congr fun p ↦ and_congr_right fun hp ↦ ?_
  rw [List.drop_append_of_le_length hi, prefix_append_iff fun c hc ↦ hparted c hc p hp]

theorem begins_append_right (a b : Text) (i : ℕ) :
    Begins patterns (a ++ b) (a.length + i) ↔ Begins patterns b i := by
  rw [Begins, List.drop_append, List.drop_eq_nil_of_le (Nat.le_add_right _ _),
    Nat.add_sub_cancel_left, List.nil_append]
  rfl

theorem length_of_begins (hne : [] ∉ patterns) (h : Begins patterns t i) : i < t.length := by
  obtain ⟨p, hp, hbegins⟩ := h
  by_contra hge
  rw [List.drop_eq_nil_of_le (Nat.not_lt.mp hge), List.prefix_nil] at hbegins
  exact hne (hbegins ▸ hp)

theorem findFirst_eq_none_of_notMem (hne : [] ∉ patterns) (h : ∀ c ∈ t, ∀ p ∈ patterns, c ∉ p) :
    findFirst patterns t offset = none := by
  rw [findFirst_eq_none_iff]
  rintro i - ⟨p, hp, hbegins⟩
  cases p with
  | nil => exact hne hp
  | cons c p =>
    have hmem : c ∈ t := List.drop_subset i t (hbegins.subset List.mem_cons_self)
    exact h c hmem _ hp List.mem_cons_self

variable (hseparate : Separate patterns)
include hseparate

theorem findFirst_append_of_some (hne : [] ∉ patterns) (hparted : Parted patterns b)
    (h : findFirst patterns a offset = some (i, k)) :
    findFirst patterns (a ++ b) offset = some (i, k) := by
  obtain ⟨hle, ⟨p, hp, hlength, hbegins⟩, hfirst⟩ := findFirst_eq_some h
  have hi : i < a.length := length_of_begins hne ⟨p, hp, hbegins⟩
  refine (findFirst_eq_some_iff hseparate).mpr ⟨hle, ⟨p, hp, hlength, ?_⟩, fun j hj hlt ↦ ?_⟩
  · rw [List.drop_append_of_le_length hi.le]
    exact hbegins.trans (List.prefix_append _ _)
  · rw [begins_append_left hparted (hlt.trans hi).le]
    exact hfirst j hj hlt

theorem findFirst_append_of_none (hparted : Parted patterns b) (hoffset : offset ≤ a.length)
    (h : findFirst patterns a offset = none) :
    findFirst patterns (a ++ b) offset =
      (findFirst patterns b 0).map fun found ↦ (a.length + found.1, found.2) := by
  have hbefore : ∀ j, offset ≤ j → j ≤ a.length → ¬ Begins patterns (a ++ b) j := by
    intro j hj hle
    rw [begins_append_left hparted hle]
    exact findFirst_eq_none_iff.mp h j hj
  cases hfound : findFirst patterns b 0 with
  | none =>
    refine findFirst_eq_none_iff.mpr fun j hj hbegins ↦ ?_
    rcases Nat.le_total j a.length with hle | hle
    · exact hbefore j hj hle hbegins
    · obtain ⟨j, rfl⟩ := Nat.exists_eq_add_of_le hle
      rw [begins_append_right] at hbegins
      exact findFirst_eq_none_iff.mp hfound j (Nat.zero_le j) hbegins
  | some found =>
    obtain ⟨i, k⟩ := found
    obtain ⟨-, ⟨p, hp, hlength, hbegins⟩, hfirst⟩ := findFirst_eq_some hfound
    refine (findFirst_eq_some_iff hseparate).mpr
      ⟨hoffset.trans (Nat.le_add_right _ _), ⟨p, hp, hlength, ?_⟩, fun j hj hlt hbegins ↦ ?_⟩
    · rwa [List.drop_append, List.drop_eq_nil_of_le (Nat.le_add_right _ _),
        Nat.add_sub_cancel_left]
    · rcases Nat.le_total j a.length with hle | hle
      · exact hbefore j hj hle hbegins
      · obtain ⟨j, rfl⟩ := Nat.exists_eq_add_of_le hle
        rw [begins_append_right] at hbegins
        exact hfirst j (Nat.zero_le j) (Nat.lt_of_add_lt_add_left hlt) hbegins

omit hseparate in
theorem toAsciiLowercase_append (a b : Text) :
    toAsciiLowercase (a ++ b) = toAsciiLowercase a ++ toAsciiLowercase b := List.map_append

omit hseparate in
theorem startsWithIgnoreCase_iff_prefix {pre : Text} :
    startsWithIgnoreCase pre t = true ↔ toAsciiLowercase pre <+: toAsciiLowercase t := by
  rw [startsWithIgnoreCase_iff]
  constructor
  · rintro ⟨start, rest, rfl, h⟩
    rw [← of_decide_eq_true h, toAsciiLowercase_append]
    exact List.prefix_append _ _
  · rintro ⟨rest, h⟩
    obtain ⟨start, rest', rfl, hstart, -⟩ := List.map_eq_append_iff.mp h.symm
    exact ⟨start, rest', rfl, decide_eq_true hstart⟩

omit hseparate in
theorem startsWithIgnoreCase_append {pre : Text}
    (h : ∀ c ∈ (toAsciiLowercase b).head?, c ∉ toAsciiLowercase pre) :
    startsWithIgnoreCase pre (a ++ b) = startsWithIgnoreCase pre a := by
  rw [Bool.eq_iff_iff, startsWithIgnoreCase_iff_prefix, startsWithIgnoreCase_iff_prefix,
    toAsciiLowercase_append, prefix_append_iff h]

end Text
