import Reqx.Library.ByteOffsets
import Reqx.Library.Occurrences

/-!
# Searches with byte offsets

The places at which characters begin, counted in bytes and counted in characters.
The first occurrence of several patterns is the same place in both counts.
-/

namespace Text

variable {a b t : Text} {patterns : List Text} {i j : ℕ}

/-- The bytes in front of the character with this index. -/
def byteOffset (t : Text) (i : ℕ) : ℕ := len (t.take i)

/-- `str::char_indices`. -/
def charIndices : Text → List (ℕ × Char)
  | [] => []
  | c :: t => (0, c) :: (charIndices t).map fun p ↦ (c.utf8Size + p.1, p.2)

/-- `str::find` of a character, in bytes. -/
def findWhere (p : Char → Bool) (t : Text) : Option ℕ :=
  ((charIndices t).find? (p ·.2)).map Prod.fst

/-- `str::find` of a text, in bytes. -/
def findByte (pattern t : Text) : Option ℕ := (splitOnceText pattern t).map fun parts ↦ len parts.1

/-- The first place from a byte offset on at which a pattern begins, and the bytes of that
pattern. -/
def findFirstByte (patterns : List Text) (t : Text) (offset : ℕ) : Option (ℕ × ℕ) :=
  (patterns.filterMap fun pattern ↦
    (sliceFrom? t offset).bind fun rest ↦
      (findByte pattern rest).map fun index ↦ (offset + index, len pattern)).argmin Prod.fst

/-! ## Places -/

theorem byteOffset_zero (t : Text) : byteOffset t 0 = 0 := by
  rw [byteOffset, List.take_zero, len_nil]

theorem byteOffset_length (t : Text) : byteOffset t t.length = len t := by
  rw [byteOffset, List.take_length]

theorem byteOffset_add (t : Text) (i k : ℕ) :
    byteOffset t (i + k) = byteOffset t i + len ((t.drop i).take k) := by
  rw [byteOffset, byteOffset, List.take_add, len_append]

theorem byteOffset_append (a b : Text) : byteOffset (a ++ b) a.length = len a := by
  rw [byteOffset, List.take_left]

theorem splitAt?_byteOffset (t : Text) (i : ℕ) :
    splitAt? t (byteOffset t i) = some (t.take i, t.drop i) := by
  have hcut := splitAt?_append (t.take i) (t.drop i)
  rwa [List.take_append_drop] at hcut

theorem sliceFrom?_byteOffset (t : Text) (i : ℕ) :
    sliceFrom? t (byteOffset t i) = some (t.drop i) := by
  rw [sliceFrom?, splitAt?_byteOffset]
  rfl

theorem slice?_byteOffset (t : Text) (h : i ≤ j) :
    slice? t (byteOffset t i) (byteOffset t j) = some ((t.drop i).take (j - i)) := by
  obtain ⟨k, rfl⟩ := Nat.exists_eq_add_of_le h
  have hcut := slice?_append (t.take i) ((t.drop i).take k) (t.drop (i + k))
  rw [← List.take_add, List.take_append_drop] at hcut
  rw [byteOffset_add, Nat.add_sub_cancel_left]
  exact hcut

theorem byteOffset_lt (h : i < j) (hj : j ≤ t.length) : byteOffset t i < byteOffset t j := by
  obtain ⟨k, rfl⟩ := Nat.exists_eq_add_of_le h.le
  have hlength : ((t.drop i).take k).length = k := by
    rw [List.length_take, List.length_drop]
    omega
  have hbytes := length_le_len ((t.drop i).take k)
  rw [byteOffset_add]
  omega

theorem byteOffset_lt_iff (hi : i ≤ t.length) (hj : j ≤ t.length) :
    byteOffset t i < byteOffset t j ↔ i < j := by
  refine ⟨fun h ↦ ?_, fun h ↦ byteOffset_lt h hj⟩
  by_contra hle
  rcases Nat.lt_or_eq_of_le (Nat.not_lt.mp hle) with hlt | rfl
  · exact Nat.lt_asymm h (byteOffset_lt hlt hi)
  · exact Nat.lt_irrefl _ h

theorem utf8Size_toLower (c : Char) : c.toLower.utf8Size = c.utf8Size := by
  rcases toLower_cases c with h | ⟨-, hhigh⟩
  · rw [h]
  · by_cases hupper : c.isUpper = true
    · have hsize : c.utf8Size = 1 :=
        Char.utf8Size_eq_one_iff.mpr ((isUpper_iff.mp hupper).2.trans (by decide))
      rw [hsize]
      exact Char.utf8Size_eq_one_iff.mpr (hhigh.trans (by decide))
    · have hsame : c.toLower = c := dif_neg fun h ↦ hupper (isUpper_iff.mpr h)
      rw [hsame]

theorem len_toAsciiLowercase (t : Text) : len (toAsciiLowercase t) = len t := by
  rw [len, len, toAsciiLowercase, List.map_map]
  exact congrArg List.sum (List.map_congr_left fun c _ ↦ utf8Size_toLower c)

theorem byteOffset_toAsciiLowercase (t : Text) (i : ℕ) :
    byteOffset (toAsciiLowercase t) i = byteOffset t i := by
  rw [byteOffset, byteOffset, toAsciiLowercase, ← List.map_take]
  exact len_toAsciiLowercase (t.take i)

/-! ## Characters with their places -/

theorem charIndices_append (a b : Text) :
    charIndices (a ++ b) = charIndices a ++ (charIndices b).map fun p ↦ (len a + p.1, p.2) := by
  induction a with
  | nil => simp [charIndices]
  | cons c a ih =>
    rw [List.cons_append, charIndices, charIndices, ih, List.map_append, List.map_map,
      List.cons_append]
    simp only [Function.comp_def, len_cons, Nat.add_assoc]

theorem charIndices_eq_map (t : Text) :
    charIndices t = t.zipIdx.map fun p ↦ (byteOffset t p.2, p.1) := by
  induction t with
  | nil => rfl
  | cons c t ih =>
    rw [charIndices, ih, List.zipIdx_cons', List.map_cons, List.map_map, List.map_map]
    rfl

section Characters

variable {p : Char → Bool}

theorem find?_charIndices_eq_none (h : ∀ d ∈ t, p d = false) :
    (charIndices t).find? (p ·.2) = none := by
  rw [List.find?_eq_none]
  intro q hq
  rw [charIndices_eq_map] at hq
  obtain ⟨r, hr, rfl⟩ := List.mem_map.mp hq
  rw [h _ (List.fst_mem_of_mem_zipIdx hr)]
  exact Bool.false_ne_true

theorem findWhere_eq_none (h : ∀ d ∈ t, p d = false) : findWhere p t = none := by
  rw [findWhere, find?_charIndices_eq_none h]
  rfl

theorem findWhere_append {c : Char} (ha : ∀ d ∈ a, p d = false) (hc : p c = true) (b : Text) :
    findWhere p (a ++ c :: b) = some (len a) := by
  rw [findWhere, charIndices_append, List.find?_append, find?_charIndices_eq_none ha,
    Option.none_or, charIndices, List.map_cons, List.find?_cons_of_pos (by exact hc)]
  rfl

/-- The place of the first such character, or else the end. -/
theorem findWhere_getD (p : Char → Bool) (t : Text) :
    (findWhere p t).getD (len t) = len (t.takeWhile (!p ·)) := by
  have hbefore : ∀ d ∈ t.takeWhile (!p ·), p d = false := fun d hd ↦ by
    simpa using List.mem_takeWhile_imp hd
  cases hrest : t.dropWhile (!p ·) with
  | nil =>
    have hwhole : t.takeWhile (!p ·) = t := by
      have happend := List.takeWhile_append_dropWhile (p := (!p ·)) (l := t)
      rwa [hrest, List.append_nil] at happend
    rw [hwhole] at hbefore ⊢
    rw [findWhere_eq_none hbefore]
    rfl
  | cons c b =>
    have hc : p c = true := by
      have hne : t.dropWhile (!p ·) ≠ [] := by
        rw [hrest]
        exact List.cons_ne_nil _ _
      simpa [hrest] using List.head_dropWhile_not (!p ·) hne
    have happend := List.takeWhile_append_dropWhile (p := (!p ·)) (l := t)
    rw [hrest] at happend
    conv_lhs => rw [← happend, findWhere_append hbefore hc]
    rfl

theorem findWhere_eq_splitOnce (c : Char) (t : Text) :
    findWhere (· = c) t = (splitOnce c t).map fun parts ↦ len parts.1 := by
  cases hsplit : splitOnce c t with
  | none =>
    refine findWhere_eq_none fun d hd ↦ decide_eq_false fun heq ↦ ?_
    exact splitOnce_eq_none_iff.mp hsplit (heq ▸ hd)
  | some parts =>
    obtain ⟨rfl, hbefore⟩ := splitOnce_eq_some hsplit
    have hplain : ∀ d ∈ parts.1, decide (d = c) = false := fun d hd ↦
      decide_eq_false fun heq ↦ hbefore (heq ▸ hd)
    exact findWhere_append (p := (· = c)) hplain (decide_eq_true rfl) parts.2

theorem len_takeWhile_and (p q : Char → Bool) (t : Text) :
    len (t.takeWhile fun c ↦ p c && q c) = min (len (t.takeWhile p)) (len (t.takeWhile q)) := by
  induction t with
  | nil => rfl
  | cons c t ih => cases hp : p c <;> cases hq : q c <;> simp [hp, hq, ih]

theorem len_takeWhile_le (p : Char → Bool) (t : Text) : len (t.takeWhile p) ≤ len t := by
  conv_rhs => rw [← List.takeWhile_append_dropWhile (p := p) (l := t), len_append]
  exact Nat.le_add_right _ _

end Characters

theorem splitAt?_takeWhile (p : Char → Bool) (t : Text) :
    splitAt? t (len (t.takeWhile p)) = some (t.takeWhile p, t.dropWhile p) := by
  have hcut := splitAt?_append (t.takeWhile p) (t.dropWhile p)
  rwa [List.takeWhile_append_dropWhile] at hcut

theorem splitAt?_rdropWhile (p : Char → Bool) (t : Text) :
    splitAt? t (len (t.rdropWhile p)) = some (t.rdropWhile p, t.rtakeWhile p) := by
  have hcut := splitAt?_append (t.rdropWhile p) (t.rtakeWhile p)
  rwa [List.rdropWhile_append_rtakeWhile] at hcut

theorem sliceFrom?_after {c : Char} (hc : c.utf8Size = 1) (a b : Text) :
    sliceFrom? (a ++ c :: b) (len a + 1) = some b := by
  have hcut := sliceFrom?_append (a ++ [c]) b
  rwa [List.append_assoc, List.singleton_append, len_append, len_cons, len_nil, hc] at hcut

/-! ## First occurrences -/

theorem argmin_map_of_lt_iff {α β : Type*} {f : α → ℕ} {f' : β → ℕ} {g : α → β} {l : List α}
    (h : ∀ x ∈ l, ∀ y ∈ l, f' (g x) < f' (g y) ↔ f x < f y) :
    (l.map g).argmin f' = (l.argmin f).map g := by
  induction l using List.reverseRecOn with
  | nil => rfl
  | append_singleton l x ih =>
    have hrest := ih fun y hy z hz ↦ h y (List.mem_append_left _ hy) z (List.mem_append_left _ hz)
    rw [List.map_append, List.map_singleton, List.argmin_concat, List.argmin_concat, hrest]
    cases hleast : l.argmin f with
    | none => rfl
    | some y =>
      have hy : y ∈ l := List.argmin_mem hleast
      have hlt := h x (by simp) y (List.mem_append_left _ hy)
      simp only [Option.map_some, hlt]
      split <;> rfl

theorem findByte_drop (pattern t : Text) (i : ℕ) :
    (findByte pattern (t.drop i)).map (byteOffset t i + ·) =
      (find pattern (t.drop i)).map fun index ↦ byteOffset t (i + index) := by
  rw [findByte, find, Option.map_map, Option.map_map]
  cases hsplit : splitOnceText pattern (t.drop i) with
  | none => rfl
  | some parts =>
    have hparts := splitOnceText_eq_some hsplit
    rw [Option.map_some, Option.map_some, Function.comp_apply, Function.comp_apply,
      byteOffset_add, hparts, List.append_assoc, List.take_left]

/-- The same place is found whether bytes or characters are counted. -/
theorem findFirstByte_byteOffset (hne : [] ∉ patterns) (hascii : ∀ p ∈ patterns, len p = p.length)
    (t : Text) (i : ℕ) :
    findFirstByte patterns t (byteOffset t i) =
      (findFirst patterns t i).map fun found ↦ (byteOffset t found.1, found.2) := by
  have hlist : (patterns.filterMap fun pattern ↦ (sliceFrom? t (byteOffset t i)).bind fun rest ↦
      (findByte pattern rest).map fun index ↦ (byteOffset t i + index, len pattern)) =
      (patterns.filterMap fun pattern ↦ (find pattern (t.drop i)).map fun index ↦
        (i + index, pattern.length)).map fun found ↦ (byteOffset t found.1, found.2) := by
    rw [List.map_filterMap]
    refine List.filterMap_congr fun p hp ↦ ?_
    have hplace := congrArg (Option.map (·, len p)) (findByte_drop p t i)
    rw [Option.map_map, Option.map_map] at hplace
    rw [sliceFrom?_byteOffset, Option.bind_some, Option.map_map, ← hascii p hp]
    exact hplace
  have hbound : ∀ found ∈ (patterns.filterMap fun pattern ↦ (find pattern (t.drop i)).map
      fun index ↦ (i + index, pattern.length)), found.1 ≤ t.length := by
    intro found hfound
    obtain ⟨p, hp, hmap⟩ := List.mem_filterMap.mp hfound
    obtain ⟨index, hindex, rfl⟩ := Option.map_eq_some_iff.mp hmap
    refine (length_of_begins hne ⟨p, hp, ?_⟩).le
    rw [← List.drop_drop]
    exact (find_eq_some hindex).1
  rw [findFirstByte, findFirst, hlist]
  exact argmin_map_of_lt_iff fun x hx y hy ↦ byteOffset_lt_iff (hbound x hx) (hbound y hy)

end Text
