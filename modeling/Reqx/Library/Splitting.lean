import Reqx.Library.Text

/-!
# Where a text is cut

A text is cut at the first or at the last occurrence of a character, or at the
first occurrence of a pattern. What is known about the parts, and that a cut
stays where it is when the text behind it is replaced. A text is also cut at its
ends, where characters of one kind are taken off.
-/

namespace Text

variable {c : Char} {a b t pattern : Text}

theorem splitOnce_eq_some (h : splitOnce c t = some (a, b)) : t = a ++ c :: b ∧ c ∉ a := by
  by_cases hc : c ∈ t
  · obtain ⟨a', b', rfl, ha'⟩ := List.eq_append_cons_of_mem hc
    rw [splitOnce_append ha'] at h
    cases h
    exact ⟨rfl, ha'⟩
  · rw [splitOnce_eq_none hc] at h
    cases h

theorem rsplitOnce_eq_some (h : rsplitOnce c t = some (a, b)) : t = a ++ c :: b ∧ c ∉ b := by
  obtain ⟨⟨a', b'⟩, hsplit, heq⟩ := Option.map_eq_some_iff.mp h
  obtain ⟨hreverse, hfirst⟩ := splitOnce_eq_some hsplit
  cases heq
  refine ⟨?_, by simpa using hfirst⟩
  rw [← List.reverse_reverse t, hreverse]
  simp

theorem splitOnce_eq_none_iff : splitOnce c t = none ↔ c ∉ t := by
  refine ⟨fun h hc ↦ ?_, splitOnce_eq_none⟩
  obtain ⟨a, b, rfl, ha⟩ := List.eq_append_cons_of_mem hc
  rw [splitOnce_append ha] at h
  cases h

theorem rsplitOnce_eq_none_iff : rsplitOnce c t = none ↔ c ∉ t := by
  rw [rsplitOnce, Option.map_eq_none_iff, splitOnce_eq_none_iff, List.mem_reverse]

theorem notMem_takeWhile_ne (c : Char) (t : Text) : c ∉ t.takeWhile (· ≠ c) := by
  intro h
  have hne := List.mem_takeWhile_imp h
  simp at hne

theorem takeWhile_ne_eq_self (h : c ∉ t) : t.takeWhile (· ≠ c) = t := by
  rw [List.takeWhile_eq_self_iff]
  exact fun d hd ↦ decide_eq_true fun heq ↦ h (heq ▸ hd)

theorem takeWhile_ne_append (h : c ∉ a) (b : Text) : (a ++ c :: b).takeWhile (· ≠ c) = a := by
  have hinside : ∀ d ∈ a, decide (d ≠ c) = true := fun d hd ↦
    decide_eq_true fun heq ↦ h (heq ▸ hd)
  rw [List.takeWhile_append_of_pos hinside]
  simp

/-- The first occurrence of the pattern stays the first one whatever follows it. -/
theorem splitOnceText_replace (hne : pattern ≠ []) (h : splitOnceText pattern t = some (a, b))
    (b' : Text) : splitOnceText pattern (a ++ pattern ++ b') = some (a, b') := by
  induction t generalizing a with
  | nil => simp [splitOnceText, hne] at h
  | cons d t ih =>
    unfold splitOnceText at h
    split at h
    · cases h
      obtain ⟨c, pattern, rfl⟩ := List.exists_cons_of_ne_nil hne
      simp [splitOnceText]
    next hfirst =>
      obtain ⟨p, hp, heq⟩ := Option.map_eq_some_iff.mp h
      cases heq
      have hnot : ¬ pattern.isPrefixOf (d :: (p.1 ++ pattern ++ b')) = true := by
        intro hstart
        apply hfirst
        rw [List.isPrefixOf_iff_prefix] at hstart ⊢
        rw [splitOnceText_eq_some hp]
        have hlength : pattern.length ≤ (d :: p.1 ++ pattern).length := by
          rw [List.length_append]
          exact Nat.le_add_left _ _
        exact (List.prefix_of_prefix_length_le hstart (List.prefix_append _ _) hlength).trans
          (List.prefix_append _ _)
      rw [List.cons_append, List.cons_append, splitOnceText, if_neg hnot, ih hp]
      rfl

/-! ## Labels -/

theorem split_append_cons (c : Char) (a b : Text) :
    split c (a ++ c :: b) = split c a ++ split c b :=
  List.splitOnP_append_cons a b (beq_self_eq_true c)

theorem notMem_of_mem_split {s : Text} (h : s ∈ split c t) : c ∉ s := by
  induction t generalizing s with
  | nil =>
    have hs : s = [] := by simpa [split] using h
    rw [hs]
    exact List.not_mem_nil
  | cons d t ih =>
    rw [split, List.splitOn_cons_eq_if_modifyHead] at h
    split at h
    · rcases List.mem_cons.mp h with rfl | h
      · exact List.not_mem_nil
      · exact ih h
    next hd =>
      obtain ⟨first, rest, hsplit⟩ := List.exists_cons_of_ne_nil (List.splitOn_ne_nil c t)
      rw [hsplit, List.modifyHead_cons] at h
      rcases List.mem_cons.mp h with rfl | h
      · have hfirst : c ∉ first := ih (by rw [split, hsplit]; exact List.mem_cons_self)
        rw [List.mem_cons, not_or]
        exact ⟨fun heq ↦ hd (by rw [heq, beq_self_eq_true]), hfirst⟩
      · exact ih (by rw [split, hsplit]; exact List.mem_cons_of_mem _ h)

theorem split_intercalate (c : Char) {texts : List Text} (h : texts ≠ []) :
    split c (List.intercalate [c] texts) = texts.flatMap (split c) := by
  induction texts with
  | nil => exact absurd rfl h
  | cons text texts ih =>
    cases texts with
    | nil => simp [List.intercalate_singleton]
    | cons next texts =>
      rw [List.intercalate_cons_cons, List.append_assoc, List.singleton_append,
        split_append_cons, ih (List.cons_ne_nil next texts)]
      rfl

theorem split_injective (c : Char) : Function.Injective (split c) := by
  intro a b h
  have hjoin (t : Text) : [c].intercalate (split c t) = t := List.intercalate_splitOn c
  rw [← hjoin a, ← hjoin b, h]

theorem intercalate_append_split (c : Char) (a label : Text) (labels : List Text) :
    [c].intercalate (label :: labels ++ split c a) =
      [c].intercalate (label :: labels) ++ c :: a := by
  induction labels generalizing label with
  | nil =>
    obtain ⟨first, rest, hsplit⟩ := List.exists_cons_of_ne_nil (List.splitOnP_ne_nil (· == c) a)
    have ha : [c].intercalate (first :: rest) = a := by
      rw [← hsplit]
      exact List.intercalate_splitOn c
    rw [split, List.splitOn, hsplit, List.cons_append, List.nil_append,
      List.intercalate_cons_cons, ha]
    simp
  | cons next labels ih =>
    rw [List.cons_append, List.cons_append, List.intercalate_cons_cons,
      List.intercalate_cons_cons, ← List.cons_append, ih next]
    simp

/-- The labels of one text end with those of another one if it is that text, or ends with it behind
a separator. -/
theorem split_suffix_iff : split c a <:+ split c t ↔ t = a ∨ ∃ b, t = b ++ c :: a := by
  constructor
  · rintro ⟨labels, hlabels⟩
    cases labels with
    | nil => exact .inl (split_injective c hlabels.symm)
    | cons label labels =>
      refine .inr ⟨[c].intercalate (label :: labels), ?_⟩
      rw [← intercalate_append_split, hlabels]
      exact (List.intercalate_splitOn c).symm
  · rintro (rfl | ⟨b, rfl⟩)
    · exact List.suffix_rfl
    · rw [split_append_cons]
      exact List.suffix_append _ _

theorem splitOnceText_isSome_iff : (splitOnceText pattern t).isSome ↔ pattern <:+: t := by
  rw [Option.isSome_iff_ne_none, ne_eq, splitOnceText_eq_none_iff, not_not]

/-! ## Ends -/

variable {p : Char → Bool}

theorem rtakeWhile_append_cons (l : Text) (hc : p c = false) (r : Text) :
    (l ++ c :: r).rtakeWhile p = r.rtakeWhile p := by
  have hwhole : (l ++ c :: r).rdropWhile p ++ (l ++ c :: r).rtakeWhile p = l ++ c :: r :=
    List.rdropWhile_append_rtakeWhile
  rw [rdropWhile_append_cons l hc, List.append_assoc, List.append_cancel_left_eq,
    List.cons_append, List.cons.injEq] at hwhole
  exact List.append_cancel_left (hwhole.2.trans List.rdropWhile_append_rtakeWhile.symm)

theorem dropWhile_eq_self (h : ∀ c ∈ t, p c = false) : t.dropWhile p = t := by
  cases t with
  | nil => rfl
  | cons c t => exact List.dropWhile_cons_of_neg (by simp [h c List.mem_cons_self])

theorem rdropWhile_eq_self (h : ∀ c ∈ t.getLast?, p c = false) : t.rdropWhile p = t := by
  rw [List.rdropWhile_eq_self_iff]
  intro hne
  rw [h _ (List.getLast?_eq_some_getLast hne)]
  exact Bool.false_ne_true

theorem dropWhile_append_of_clean (a : Text) (h : ∀ c ∈ b, p c = false) :
    (a ++ b).dropWhile p = a.dropWhile p ++ b := by
  rw [List.dropWhile_append]
  split
  next hempty => rw [List.isEmpty_iff.mp hempty, List.nil_append, dropWhile_eq_self h]
  · rfl

theorem rdropWhile_append_of_all (a : Text) (h : ∀ c ∈ b, p c = true) :
    (a ++ b).rdropWhile p = a.rdropWhile p := by
  rw [List.rdropWhile, List.reverse_append,
    List.dropWhile_append_of_pos fun c hc ↦ h c (List.mem_reverse.mp hc)]
  rfl

theorem getLast?_of_suffix (h : a <:+ b) (hc : c ∈ a.getLast?) : c ∈ b.getLast? := by
  obtain ⟨start, rfl⟩ := h
  rw [List.getLast?_append, hc]
  rfl

theorem getLast?_rdropWhile (p : Char → Bool) (t : Text) :
    ∀ c ∈ (t.rdropWhile p).getLast?, p c = false := by
  intro c hc
  have hne : t.rdropWhile p ≠ [] := List.ne_nil_of_mem (List.mem_of_getLast? hc)
  have hstop := List.rdropWhile_last_not p t hne
  rw [List.getLast?_eq_some_getLast hne] at hc
  cases hc
  exact Bool.eq_false_iff.mpr hstop

theorem forall_getLast?_append {P : Char → Prop} (ha : ∀ c ∈ a.getLast?, P c) (hb : ∀ c ∈ b, P c) :
    ∀ c ∈ (a ++ b).getLast?, P c := by
  intro c hc
  rw [List.getLast?_append] at hc
  rcases Option.or_eq_some_iff.mp hc with hlast | ⟨-, hlast⟩
  · exact hb c (List.mem_of_getLast? hlast)
  · exact ha c hlast

theorem trim_eq_self_of_clean (h : ∀ c ∈ t, isWhitespace c = false) : trim t = t := by
  rw [trim, dropWhile_eq_self h, trimEndMatches,
    rdropWhile_eq_self fun c hc ↦ h c (List.mem_of_getLast? hc)]

/-! ## Letter case -/

theorem isWhitespace_of_letter (hlow : 65 ≤ c.toNat) (hhigh : c.toNat ≤ 122) :
    isWhitespace c = false := by
  simp only [isWhitespace, Bool.or_eq_false_iff, Bool.and_eq_false_iff,
    decide_eq_false_iff_not, beq_eq_false_iff_ne]
  omega

theorem isWhitespace_toLower (c : Char) : isWhitespace c.toLower = isWhitespace c := by
  by_cases hupper : c.val ≥ 'A'.val ∧ c.val ≤ 'Z'.val
  · have hlow : 65 ≤ c.toNat := hupper.1
    have hhigh : c.toNat ≤ 90 := hupper.2
    rcases toLower_cases c with h | ⟨hlow', hhigh'⟩
    · rw [h]
    · rw [isWhitespace_of_letter hlow (hhigh.trans (by decide)),
        isWhitespace_of_letter (le_trans (by decide) hlow') hhigh']
  · have hsame : c.toLower = c := dif_neg hupper
    rw [hsame]

theorem dropWhile_toAsciiLowercase (t : Text) :
    (toAsciiLowercase t).dropWhile isWhitespace =
      toAsciiLowercase (t.dropWhile isWhitespace) := by
  have hsame : isWhitespace ∘ Char.toLower = isWhitespace := funext isWhitespace_toLower
  rw [toAsciiLowercase, List.dropWhile_map, hsame]
  rfl

theorem toAsciiLowercase_notMem (hc : c.isLower = false) (h : c ∉ t) : c ∉ toAsciiLowercase t := by
  intro hmem
  obtain ⟨d, hd, hlower⟩ := List.mem_map.mp hmem
  exact h (eq_of_toLower_eq hc hlower ▸ hd)

end Text
