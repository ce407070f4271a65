import Mathlib.Algebra.Group.Nat.Defs
import Mathlib.Data.List.DropRight
import Mathlib.Tactic.Common

/-!
# Texts

A text is the list of its Unicode scalar values. The operations follow the
documented behaviour of the string slices of the source language: white space
is the Unicode `White_Space` property, letter case is ASCII only.
-/

abbrev Text := List Char

namespace Text

/-- `char::is_whitespace`: the Unicode `White_Space` property. -/
def isWhitespace (c : Char) : Bool :=
  (0x09 ≤ c.toNat && c.toNat ≤ 0x0D) || c.toNat == 0x20 || c.toNat == 0x85 ||
    c.toNat == 0xA0 || c.toNat == 0x1680 || (0x2000 ≤ c.toNat && c.toNat ≤ 0x200A) ||
      c.toNat == 0x2028 || c.toNat == 0x2029 || c.toNat == 0x202F || c.toNat == 0x205F ||
        c.toNat == 0x3000

def toAsciiLowercase (t : Text) : Text := t.map Char.toLower

def eqIgnoreAsciiCase (a b : Text) : Bool := toAsciiLowercase a = toAsciiLowercase b

def trimEndMatches (p : Char → Bool) (t : Text) : Text := t.rdropWhile p

def trimMatches (p : Char → Bool) (t : Text) : Text := trimEndMatches p (t.dropWhile p)

def trim (t : Text) : Text := trimEndMatches isWhitespace (t.dropWhile isWhitespace)

def split (c : Char) (t : Text) : List Text := t.splitOn c

-- `str::split_once` and `str::rsplit_once` at a character.
def splitOnce (c : Char) (t : Text) : Option (Text × Text) :=
  match t.dropWhile (· ≠ c) with
  | [] => none
  | _ :: after => some (t.takeWhile (· ≠ c), after)

def rsplitOnce (c : Char) (t : Text) : Option (Text × Text) :=
  (splitOnce c t.reverse).map fun p ↦ (p.2.reverse, p.1.reverse)

-- `str::split_once` at a text.
def splitOnceText (pattern : Text) : Text → Option (Text × Text)
  | [] => if pattern.isEmpty then some ([], []) else none
  | c :: t =>
    if pattern.isPrefixOf (c :: t) then some ([], (c :: t).drop pattern.length)
    else (splitOnceText pattern t).map fun p ↦ (c :: p.1, p.2)

def startsWith (pre t : Text) : Bool := pre.isPrefixOf t

def contains (c : Char) (t : Text) : Bool := t.elem c

/-- Does the text start with the given ASCII text in any letter case? -/
def startsWithIgnoreCase (pre t : Text) : Bool :=
  decide (pre.length ≤ t.length) && eqIgnoreAsciiCase (t.take pre.length) pre

def decimalValue (digits : Text) : ℕ :=
  digits.foldl (fun n c ↦ 10 * n + (c.toNat - '0'.toNat)) 0

def stripPlus : Text → Text
  | '+' :: digits => digits
  | t => t

/-- `str::parse::<u64>`: decimal digits after at most one plus sign. -/
def parseU64 (t : Text) : Option ℕ :=
  if !(stripPlus t).isEmpty && (stripPlus t).all Char.isDigit &&
      decide (decimalValue (stripPlus t) < 2 ^ 64) then
    some (decimalValue (stripPlus t))
  else none

variable {c : Char}

theorem isUpper_iff : c.isUpper = true ↔ 65 ≤ c.toNat ∧ c.toNat ≤ 90 := by
  change decide (c.val ≥ 'A'.val ∧ c.val ≤ 'Z'.val) = true ↔ _
  rw [decide_eq_true_eq]
  exact Iff.rfl

theorem isLower_iff : c.isLower = true ↔ 97 ≤ c.toNat ∧ c.toNat ≤ 122 := by
  change (decide (c.val ≥ 'a'.val) && decide (c.val ≤ 'z'.val)) = true ↔ _
  rw [Bool.and_eq_true, decide_eq_true_eq, decide_eq_true_eq]
  exact Iff.rfl

theorem isDigit_iff : c.isDigit = true ↔ 48 ≤ c.toNat ∧ c.toNat ≤ 57 := by
  change (decide (c.val ≥ '0'.val) && decide (c.val ≤ '9'.val)) = true ↔ _
  rw [Bool.and_eq_true, decide_eq_true_eq, decide_eq_true_eq]
  exact Iff.rfl

theorem isAlphanum_iff : c.isAlphanum = true ↔
    (65 ≤ c.toNat ∧ c.toNat ≤ 90 ∨ 97 ≤ c.toNat ∧ c.toNat ≤ 122) ∨
      48 ≤ c.toNat ∧ c.toNat ≤ 57 := by
  change (c.isUpper || c.isLower || c.isDigit) = true ↔ _
  rw [Bool.or_eq_true, Bool.or_eq_true, isUpper_iff, isLower_iff, isDigit_iff]

theorem eqIgnoreAsciiCase_trans {a b c : Text} (hab : eqIgnoreAsciiCase a b = true)
    (hbc : eqIgnoreAsciiCase b c = true) : eqIgnoreAsciiCase a c = true := by
  simp only [eqIgnoreAsciiCase, decide_eq_true_eq] at hab hbc ⊢
  exact hab.trans hbc

theorem toLower_cases (c : Char) :
    c.toLower = c ∨ 97 ≤ c.toLower.val.toNat ∧ c.toLower.val.toNat ≤ 122 := by
  unfold Char.toLower
  split
  next hc =>
    have hlow : c.val.toNat ≥ 65 := hc.1
    have hhigh : c.val.toNat ≤ 90 := hc.2
    have hval : (c.val + ('a'.val - 'A'.val)).toNat = c.val.toNat + 32 := by
      have hshift : 'a'.val - 'A'.val = 32 := by decide
      rw [hshift, UInt32.toNat_add]
      simp only [UInt32.reduceToNat]
      omega
    right
    change 97 ≤ (c.val + ('a'.val - 'A'.val)).toNat ∧ (c.val + ('a'.val - 'A'.val)).toNat ≤ 122
    omega
  · exact .inl rfl

theorem toLower_toLower (c : Char) : c.toLower.toLower = c.toLower := by
  rcases toLower_cases c with h | ⟨hlow, -⟩
  · rw [h, h]
  · refine dif_neg fun hupper ↦ ?_
    have hhigh : c.toLower.val.toNat ≤ 90 := hupper.2
    omega

theorem eq_of_toLower_eq {c d : Char} (hd : d.isLower = false) (h : c.toLower = d) : c = d := by
  subst h
  rcases toLower_cases c with h | ⟨hlow, hhigh⟩
  · exact h.symm
  · have ha : 'a'.val.toNat = 97 := by decide
    have hz : 'z'.val.toNat = 122 := by decide
    change (decide (c.toLower.val ≥ 'a'.val) && decide (c.toLower.val ≤ 'z'.val)) = false at hd
    simp only [Bool.and_eq_false_iff, decide_eq_false_iff_not, ge_iff_le,
      UInt32.le_iff_toNat_le] at hd
    omega

theorem toAsciiLowercase_toAsciiLowercase (t : Text) :
    toAsciiLowercase (toAsciiLowercase t) = toAsciiLowercase t := by
  rw [toAsciiLowercase, toAsciiLowercase, List.map_map]
  exact List.map_congr_left fun c _ ↦ toLower_toLower c

/-- A text without letters is the only one with its lower case form. -/
theorem eq_of_toAsciiLowercase_eq {t t' : Text} (hplain : ∀ c ∈ t', c.isLower = false)
    (h : toAsciiLowercase t = t') : t = t' := by
  induction t generalizing t' with
  | nil => exact h
  | cons c t ih =>
    subst h
    rw [toAsciiLowercase, List.map_cons, List.forall_mem_cons] at hplain
    rw [toAsciiLowercase, List.map_cons, ← ih hplain.2 rfl, ← eq_of_toLower_eq hplain.1 rfl]

theorem startsWithIgnoreCase_iff {pre t : Text} :
    startsWithIgnoreCase pre t = true ↔
      ∃ start rest, t = start ++ rest ∧ eqIgnoreAsciiCase start pre = true := by
  simp only [startsWithIgnoreCase, Bool.and_eq_true, decide_eq_true_eq]
  constructor
  · rintro ⟨-, h⟩
    exact ⟨_, _, (List.take_append_drop pre.length t).symm, h⟩
  · rintro ⟨start, rest, rfl, h⟩
    have hlength : start.length = pre.length := by
      have hmap := congrArg List.length (of_decide_eq_true h)
      simpa [toAsciiLowercase] using hmap
    refine ⟨by simp [hlength], ?_⟩
    rwa [List.take_left' hlength]

theorem rdropWhile_append_cons {p : Char → Bool} (l : Text) (hc : p c = false) (r : Text) :
    (l ++ c :: r).rdropWhile p = l ++ c :: r.rdropWhile p := by
  simp only [List.rdropWhile, List.reverse_append, List.reverse_cons, List.append_assoc,
    List.dropWhile_append]
  split
  next hall =>
    rw [List.isEmpty_iff] at hall
    simp [hall, hc]
  · simp

theorem trimEndMatches_append {p : Char → Bool} {l r : Text} (hlast : l.getLast? = some c)
    (hc : p c = false) : ∃ r', trimEndMatches p (l ++ r) = l ++ r' ∧ r' <+: r := by
  obtain ⟨l, rfl⟩ := List.getLast?_eq_some_iff.mp hlast
  refine ⟨trimEndMatches p r, ?_, List.rdropWhile_prefix p r⟩
  rw [List.append_assoc, List.append_assoc]
  exact rdropWhile_append_cons l hc r

theorem trim_eq_self {t : Text} (h : (trim t).length = t.length) : trim t = t := by
  have hsublist : (trim t).Sublist t :=
    (List.rdropWhile_prefix _ _).sublist.trans (List.dropWhile_sublist _)
  exact hsublist.eq_of_length h

section Splitting

variable {c : Char} {a b t pattern : Text}

theorem splitOnce_append (ha : c ∉ a) (b : Text) : splitOnce c (a ++ c :: b) = some (a, b) := by
  have hinside : ∀ d ∈ a, decide (d ≠ c) = true := fun d hd ↦
    decide_eq_true fun h ↦ ha (h ▸ hd)
  unfold splitOnce
  rw [List.dropWhile_append_of_pos hinside, List.takeWhile_append_of_pos hinside]
  simp

theorem splitOnce_eq_none (h : c ∉ t) : splitOnce c t = none := by
  have hinside : ∀ d ∈ t, decide (d ≠ c) = true := fun d hd ↦
    decide_eq_true fun heq ↦ h (heq ▸ hd)
  unfold splitOnce
  rw [List.dropWhile_eq_nil_iff.mpr hinside]

theorem rsplitOnce_append (a : Text) (hb : c ∉ b) : rsplitOnce c (a ++ c :: b) = some (a, b) := by
  have hreverse : (a ++ c :: b).reverse = b.reverse ++ c :: a.reverse := by simp
  rw [rsplitOnce, hreverse, splitOnce_append (by simpa using hb)]
  simp

theorem rsplitOnce_eq_none (h : c ∉ t) : rsplitOnce c t = none := by
  rw [rsplitOnce, splitOnce_eq_none (by simpa using h)]
  rfl

theorem splitOnceText_append (ha : c ∉ a) (pattern b : Text) :
    splitOnceText (c :: pattern) (a ++ c :: pattern ++ b) = some (a, b) := by
  induction a with
  | nil => simp [splitOnceText]
  | cons d a ih =>
    rw [List.mem_cons, not_or] at ha
    simp only [List.cons_append, splitOnceText]
    rw [if_neg (by simp [ha.1]), ih ha.2]
    rfl

theorem splitOnceText_eq_none_iff : splitOnceText pattern t = none ↔ ¬ pattern <:+: t := by
  induction t with
  | nil =>
    simp [splitOnceText, List.isEmpty_iff]
  | cons d t ih =>
    rw [List.infix_cons_iff, not_or, ← ih, ← List.isPrefixOf_iff_prefix, splitOnceText]
    split
    next h => simp [h]
    next h => simp [h]

theorem splitOnceText_eq_some (h : splitOnceText pattern t = some (a, b)) :
    t = a ++ pattern ++ b := by
  induction t generalizing a with
  | nil =>
    unfold splitOnceText at h
    split at h
    next hempty =>
      cases h
      simpa [List.isEmpty_iff] using hempty
    · cases h
  | cons d t ih =>
    unfold splitOnceText at h
    split at h
    next hprefix =>
      cases h
      obtain ⟨rest, hrest⟩ := List.isPrefixOf_iff_prefix.mp hprefix
      rw [← hrest]
      simp
    · obtain ⟨p, hp, heq⟩ := Option.map_eq_some_iff.mp h
      cases heq
      rw [ih hp]
      simp

end Splitting

theorem stripPlus_of_digits {t : Text} (h : ∀ c ∈ t, c.isDigit = true) : stripPlus t = t := by
  unfold stripPlus
  split
  · exact absurd (h '+' List.mem_cons_self) (by decide)
  · rfl

theorem parseU64_eq_some {t : Text} {n : ℕ} (h : parseU64 t = some n) :
    decimalValue (stripPlus t) = n ∧ n < 2 ^ 64 := by
  unfold parseU64 at h
  split at h
  · next hvalid =>
      simp only [Bool.and_eq_true, decide_eq_true_eq] at hvalid
      obtain rfl := Option.some.inj h
      exact ⟨rfl, hvalid.2⟩
  · cases h

end Text
