import Reqx.Core.LogTextSlices
import Mathlib.Data.List.Pairwise

/-!
# The spans of a log text

A log text falls into spans that begin like a URI, which are redacted, and pieces that
are kept. Texts are put together from parts between which no pattern stands: words,
the punctuation around them, and the spans of one word.
-/

namespace Reqx

open Text

inductive LogPiece
  | kept (text : Text)
  | span (text : Text)

namespace LogPiece

def text : LogPiece → Text
  | kept text => text
  | span text => text

def redacted (deps : Dependencies) : LogPiece → Text
  | kept text => text
  | span text => redactUriForLogs deps text

end LogPiece

def piecesText (pieces : List LogPiece) : Text := (pieces.map LogPiece.text).flatten

def piecesRedacted (deps : Dependencies) (pieces : List LogPiece) : Text :=
  (pieces.map (LogPiece.redacted deps)).flatten

def shiftPlace (n : ℕ) (place : ℕ × ℕ) : ℕ × ℕ := (n + place.1, n + place.2)

/-- Where the spans begin and end. -/
def spanPlaces : List LogPiece → List (ℕ × ℕ)
  | [] => []
  | .kept text :: pieces => (spanPlaces pieces).map (shiftPlace text.length)
  | .span text :: pieces => (0, text.length) :: (spanPlaces pieces).map (shiftPlace text.length)

/-- The pattern stands at this place, in any letter case. -/
def StandsAt (p text : Text) (i : ℕ) : Prop := p <+: (toAsciiLowercase text).drop i

def UriLike (span : Text) : Prop :=
  (∃ p ∈ uriLikePatterns, StandsAt p span 0) ∧ ∀ c ∈ span, isWhitespace c = false

/-- The pieces of a text and of what is written for it; every pattern is inside a span. -/
structure Redacted (deps : Dependencies) (text out : Text) (pieces : List LogPiece) : Prop where
  text_eq : text = piecesText pieces
  out_eq : out = piecesRedacted deps pieces
  spans : ∀ span, .span span ∈ pieces → UriLike span
  covered : ∀ p ∈ uriLikePatterns, ∀ i, StandsAt p text i →
    ∃ place ∈ spanPlaces pieces, place.1 ≤ i ∧ i + p.length ≤ place.2

/-! ## Places -/

section Places

variable {p a b text : Text} {pieces pieces' : List LogPiece} {i : ℕ}

theorem piecesText_append (pieces pieces' : List LogPiece) :
    piecesText (pieces ++ pieces') = piecesText pieces ++ piecesText pieces' := by
  rw [piecesText, List.map_append, List.flatten_append]
  rfl

theorem piecesRedacted_append (deps : Dependencies) (pieces pieces' : List LogPiece) :
    piecesRedacted deps (pieces ++ pieces') =
      piecesRedacted deps pieces ++ piecesRedacted deps pieces' := by
  rw [piecesRedacted, List.map_append, List.flatten_append]
  rfl

theorem map_shiftPlace (m n : ℕ) (places : List (ℕ × ℕ)) :
    (places.map (shiftPlace n)).map (shiftPlace m) = places.map (shiftPlace (m + n)) := by
  rw [List.map_map]
  refine List.map_congr_left fun place _ ↦ ?_
  simp only [Function.comp_apply, shiftPlace, Nat.add_assoc]

theorem spanPlaces_append (pieces pieces' : List LogPiece) :
    spanPlaces (pieces ++ pieces') =
      spanPlaces pieces ++ (spanPlaces pieces').map (shiftPlace (piecesText pieces).length) := by
  induction pieces with
  | nil =>
    have hid : shiftPlace 0 = id := funext fun place ↦ by simp [shiftPlace]
    rw [List.nil_append, spanPlaces, List.nil_append]
    change _ = (spanPlaces pieces').map (shiftPlace 0)
    rw [hid, List.map_id]
  | cons piece pieces ih =>
    have hlength : (piecesText (piece :: pieces)).length =
        piece.text.length + (piecesText pieces).length := by
      rw [piecesText, List.map_cons, List.flatten_cons, List.length_append]
      rfl
    rw [hlength, ← map_shiftPlace, List.cons_append]
    cases piece with
    | kept text =>
      rw [spanPlaces, spanPlaces, ih, List.map_append]
      rfl
    | span text =>
      rw [spanPlaces, spanPlaces, ih, List.map_append]
      rfl

/-- The spans follow one another. -/
theorem spanPlaces_pairwise (pieces : List LogPiece) :
    (spanPlaces pieces).Pairwise fun place place' ↦ place.2 ≤ place'.1 := by
  have hshift (n : ℕ) {places : List (ℕ × ℕ)}
      (h : places.Pairwise fun place place' ↦ place.2 ≤ place'.1) :
      (places.map (shiftPlace n)).Pairwise fun place place' ↦ place.2 ≤ place'.1 :=
    List.pairwise_map.mpr (h.imp fun hle ↦ Nat.add_le_add_left hle n)
  induction pieces with
  | nil => exact List.Pairwise.nil
  | cons piece pieces ih =>
    cases piece with
    | kept text => exact hshift text.length ih
    | span text =>
      refine List.pairwise_cons.mpr ⟨fun place hplace ↦ ?_, hshift text.length ih⟩
      obtain ⟨place, -, rfl⟩ := List.mem_map.mp hplace
      exact Nat.le_add_right _ _

theorem spanPlaces_apart {place place' : ℕ × ℕ} (h : place ∈ spanPlaces pieces)
    (h' : place' ∈ spanPlaces pieces) (hne : place ≠ place') :
    place.2 ≤ place'.1 ∨ place'.2 ≤ place.1 := by
  have hsymm : Std.Symm fun place place' : ℕ × ℕ ↦
    place.2 ≤ place'.1 ∨ place'.2 ≤ place.1 := ⟨fun _ _ ↦ Or.symm⟩
  have hpairwise : (spanPlaces pieces).Pairwise fun place place' : ℕ × ℕ ↦
      place.2 ≤ place'.1 ∨ place'.2 ≤ place.1 := (spanPlaces_pairwise pieces).imp Or.inl
  exact hpairwise.forall h h' hne

theorem StandsAt.le_length (h : StandsAt p text i) (hi : i ≤ text.length) :
    i + p.length ≤ text.length := by
  have hfits := List.IsPrefix.length_le h
  rw [List.length_drop, length_toAsciiLowercase] at hfits
  omega

theorem pattern_ne_nil (hp : p ∈ uriLikePatterns) : p ≠ [] := fun hnil ↦
  nil_notMem_uriLikePatterns (hnil ▸ hp)

theorem StandsAt.lt_length (h : StandsAt p text i) (hp : p ∈ uriLikePatterns) : i < text.length :=
  lt_length_of_begins ⟨p, hp, h⟩

theorem standsAt_append_right (a b : Text) :
    StandsAt p (a ++ b) (a.length + i) ↔ StandsAt p b i := by
  rw [StandsAt, toAsciiLowercase_append, ← length_toAsciiLowercase a,
    List.drop_append, List.drop_eq_nil_of_le (Nat.le_add_right _ _), Nat.add_sub_cancel_left,
    List.nil_append]
  rfl

/-! ## Parts between which no pattern stands -/

/-- A pattern that begins in the first part ends in it. -/
def Cut (a b : Text) : Prop :=
  ∀ p ∈ uriLikePatterns, ∀ i < a.length, StandsAt p (a ++ b) i → StandsAt p a i

/-- The character is in no pattern. -/
def Foreign (c : Char) : Prop := ∀ p ∈ uriLikePatterns, c.toLower ∉ p

theorem Cut.of_head (h : ∀ c ∈ b.head?, Foreign c) : Cut a b := by
  intro p hp i hi hstands
  rw [StandsAt, toAsciiLowercase_append,
    List.drop_append_of_le_length (by rw [length_toAsciiLowercase]; exact hi.le)] at hstands
  refine (prefix_append_iff fun c hc ↦ ?_).mp hstands
  rw [toAsciiLowercase, List.head?_map] at hc
  obtain ⟨d, hd, rfl⟩ := Option.map_eq_some_iff.mp hc
  exact h d hd p hp

theorem StandsAt.append (h : StandsAt p a i) (hi : i ≤ a.length) (b : Text) :
    StandsAt p (a ++ b) i := by
  rw [StandsAt, toAsciiLowercase_append,
    List.drop_append_of_le_length (by rw [length_toAsciiLowercase]; exact hi)]
  exact List.IsPrefix.trans h (List.prefix_append _ _)

theorem Cut.of_last (h : ∀ c ∈ a.getLast?, Foreign c) : Cut a b := by
  rcases List.eq_nil_or_concat a with rfl | ⟨start, c, rfl⟩
  · exact fun p hp i hi ↦ absurd hi (Nat.not_lt_zero i)
  · intro p hp i hi hstands
    have hc : Foreign c := h c (by simp)
    rw [List.concat_eq_append, List.length_append, List.length_singleton] at hi
    rw [List.concat_eq_append, List.append_assoc, List.singleton_append] at hstands
    rw [List.concat_eq_append]
    rcases Nat.lt_or_eq_of_le (Nat.le_of_lt_succ hi) with hlt | rfl
    · have hstart : StandsAt p start i :=
        Cut.of_head (b := c :: b) (fun d hd ↦ Option.some.inj hd ▸ hc) p hp i hlt hstands
      exact hstart.append hlt.le [c]
    · -- The pattern would begin with this character.
      have hhead : StandsAt p (c :: b) 0 := (standsAt_append_right start (c :: b)).mp hstands
      obtain ⟨d, p, rfl⟩ := List.exists_cons_of_ne_nil (pattern_ne_nil hp)
      obtain ⟨rfl, -⟩ := List.cons_prefix_cons.mp hhead
      exact absurd List.mem_cons_self (hc _ hp)

variable {deps : Dependencies} {out out' : Text}

theorem Redacted.append (ha : Redacted deps a out pieces) (hb : Redacted deps b out' pieces')
    (hcut : Cut a b) : Redacted deps (a ++ b) (out ++ out') (pieces ++ pieces') where
  text_eq := by rw [piecesText_append, ← ha.text_eq, ← hb.text_eq]
  out_eq := by rw [piecesRedacted_append, ← ha.out_eq, ← hb.out_eq]
  spans := fun span hspan ↦
    (List.mem_append.mp hspan).elim (ha.spans span) (hb.spans span)
  covered := by
    intro p hp i hstands
    rw [spanPlaces_append, ← ha.text_eq]
    rcases Nat.lt_or_ge i a.length with hlt | hge
    · obtain ⟨place, hplace, hinside⟩ := ha.covered p hp i (hcut p hp i hlt hstands)
      exact ⟨place, List.mem_append_left _ hplace, hinside⟩
    · obtain ⟨j, rfl⟩ := Nat.exists_eq_add_of_le hge
      rw [standsAt_append_right] at hstands
      obtain ⟨place, hplace, hstart, hstop⟩ := hb.covered p hp j hstands
      refine ⟨shiftPlace a.length place, List.mem_append_right _ (List.mem_map_of_mem hplace), ?_⟩
      simp only [shiftPlace]
      omega

theorem Redacted.nil (deps : Dependencies) : Redacted deps [] [] [] where
  text_eq := rfl
  out_eq := rfl
  spans := fun _ h ↦ absurd h List.not_mem_nil
  covered := fun _ hp i hstands ↦ absurd (hstands.lt_length hp) (Nat.not_lt_zero i)

theorem Redacted.kept (deps : Dependencies) (h : ∀ p ∈ uriLikePatterns, ∀ i, ¬ StandsAt p text i) :
    Redacted deps text text [.kept text] where
  text_eq := by simp [piecesText, LogPiece.text]
  out_eq := by simp [piecesRedacted, LogPiece.redacted]
  spans := fun span hspan ↦ by simp at hspan
  covered := fun p hp i hstands ↦ absurd hstands (h p hp i)

theorem Redacted.foreign (deps : Dependencies) (h : ∀ c ∈ text, Foreign c) :
    Redacted deps text text [.kept text] := by
  refine Redacted.kept deps fun p hp i hstands ↦ ?_
  obtain ⟨d, p, rfl⟩ := List.exists_cons_of_ne_nil (pattern_ne_nil hp)
  have hmem := List.mem_of_mem_drop (hstands.subset List.mem_cons_self)
  obtain ⟨c, hc, rfl⟩ := List.mem_map.mp hmem
  exact h c hc _ hp List.mem_cons_self

theorem Redacted.span (deps : Dependencies) (h : UriLike text) :
    Redacted deps text (redactUriForLogs deps text) [.span text] where
  text_eq := by simp [piecesText, LogPiece.text]
  out_eq := by simp [piecesRedacted, LogPiece.redacted]
  spans := fun span hspan ↦ by
    obtain rfl : span = text := by simpa using hspan
    exact h
  covered := fun p hp i hstands ↦ ⟨(0, text.length), List.mem_cons_self, Nat.zero_le i,
    hstands.le_length (hstands.lt_length hp).le⟩

end Places

/-! ## The spans of a word -/

theorem leading_foreign {c : Char} (h : isLeadingPunctuation c = true) : Foreign c := by
  have hplain : ∀ c ∈ ['(', '[', '\x7b', '<', '\x22', '\x27'], ∀ p ∈ uriLikePatterns,
      c.toLower ∉ p := by simp [uriLikePatterns]
  exact hplain c (of_decide_eq_true h)

theorem trailing_foreign {c : Char} (h : isTrailingPunctuation c = true) : Foreign c := by
  have hplain : ∀ c ∈ [')', ']', '\x7d', '>', '\x22', '\x27', ',', ';'], ∀ p ∈ uriLikePatterns,
      c.toLower ∉ p := by simp [uriLikePatterns]
  exact hplain c (of_decide_eq_true h)

theorem whitespace_foreign {c : Char} (h : isWhitespace c = true) : Foreign c := by
  intro p hp hmem
  have hplain : ∀ p ∈ uriLikePatterns, ∀ d ∈ p, isWhitespace d = false := by
    simp [uriLikePatterns, isWhitespace]
  have hc := hplain p hp _ hmem
  rw [isWhitespace_toLower, h] at hc
  cases hc

/-- No pattern begins inside another one. -/
theorem uriLikePatterns_apart : ∀ p ∈ uriLikePatterns, ∀ j < p.length, 0 < j →
    ∀ p' ∈ uriLikePatterns, ¬ p' <+: p.drop j ∧ ¬ p.drop j <+: p' := by decide

theorem StandsAt.apart {core p p' : Text} {i j : ℕ} (h : StandsAt p core i)
    (hp : p ∈ uriLikePatterns) (hp' : p' ∈ uriLikePatterns) (hi : i < j) (hj : j < i + p.length) :
    ¬ StandsAt p' core j := by
  intro h'
  obtain ⟨k, rfl⟩ := Nat.exists_eq_add_of_le hi.le
  obtain ⟨rest, hrest⟩ := h
  rw [StandsAt, ← List.drop_drop, ← hrest, List.drop_append_of_le_length (by omega)] at h'
  obtain ⟨hnot, hnot'⟩ := uriLikePatterns_apart p hp k (by omega) (by omega) p' hp'
  exact (List.prefix_or_prefix_of_prefix h' (List.prefix_append _ rest)).elim hnot hnot'

theorem standsAt_drop {p core : Text} {offset i : ℕ} :
    StandsAt p (core.drop offset) i ↔ StandsAt p core (offset + i) := by
  rw [StandsAt, StandsAt, toAsciiLowercase, List.map_drop, List.drop_drop]
  rfl

theorem slice_append_drop (t : Text) {i j : ℕ} (h : i ≤ j) :
    slice t i j ++ t.drop j = t.drop i := by
  obtain ⟨k, rfl⟩ := Nat.exists_eq_add_of_le h
  rw [slice, Nat.add_sub_cancel_left, ← List.drop_drop, List.take_append_drop]

theorem length_slice (t : Text) {i j : ℕ} (hj : j ≤ t.length) : (slice t i j).length = j - i := by
  rw [slice, List.length_take, List.length_drop]
  omega

section Word

variable {deps : Dependencies} {core rest : Text} {offset start len : ℕ}

/-- In front of the first pattern nothing is cut. -/
theorem redacted_before
    (h : findUriLikeStart (toAsciiLowercase core) offset = some (start, len)) :
    Redacted deps (slice core offset start) (slice core offset start)
        [.kept (slice core offset start)] ∧
      Cut (slice core offset start) (core.drop start) := by
  obtain ⟨hle, ⟨p, hp, -, hbegins⟩, hfirst⟩ := findFirst_eq_some h
  have hlength := length_slice core (i := offset) (lt_length_of_begins ⟨p, hp, hbegins⟩).le
  have hnone : ∀ p ∈ uriLikePatterns, ∀ i < (slice core offset start).length,
      ¬ StandsAt p (slice core offset start ++ core.drop start) i := by
    intro p hp i hi hstands
    rw [slice_append_drop core hle, standsAt_drop] at hstands
    exact hfirst (offset + i) (Nat.le_add_right _ _) (by omega) ⟨p, hp, hstands⟩
  refine ⟨Redacted.kept deps fun p hp i hstands ↦ ?_, fun p hp i hi hstands ↦ ?_⟩
  · have hi := hstands.lt_length hp
    exact hnone p hp i hi (hstands.append hi.le _)
  · exact absurd hstands (hnone p hp i hi)

/-- A span begins with its pattern, and what begins in it is in it. -/
theorem redacted_span (hcore : ∀ c ∈ core, isWhitespace c = false)
    (h : findUriLikeStart (toAsciiLowercase core) offset = some (start, len)) :
    UriLike (slice core start (uriLikeSpanEnd core (toAsciiLowercase core) start len)) ∧
      Cut (slice core start (uriLikeSpanEnd core (toAsciiLowercase core) start len))
        (core.drop (uriLikeSpanEnd core (toAsciiLowercase core) start len)) := by
  obtain ⟨hholds, hbound, hother⟩ := uriLikeSpanEnd_spec h
  have hend := lt_uriLikeSpanEnd h
  generalize uriLikeSpanEnd core (toAsciiLowercase core) start len = stop at *
  obtain ⟨-, ⟨p, hp, rfl, hbegins⟩, -⟩ := findFirst_eq_some h
  have hlower : toAsciiLowercase (slice core start stop) =
      ((toAsciiLowercase core).drop start).take (stop - start) := by
    rw [slice, toAsciiLowercase, List.map_take, List.map_drop]
    rfl
  have hfirst : StandsAt p (slice core start stop) 0 := by
    rw [StandsAt, List.drop_zero, hlower, List.prefix_take_iff]
    exact ⟨hbegins, by omega⟩
  refine ⟨⟨⟨p, hp, hfirst⟩, fun c hc ↦ ?_⟩, fun p' hp' i hi hstands ↦ ?_⟩
  · exact hcore c (List.mem_of_mem_drop (List.mem_of_mem_take hc))
  · rw [length_slice core hbound] at hi
    rw [slice_append_drop core hend.le, standsAt_drop] at hstands
    rcases Nat.eq_zero_or_pos i with rfl | hpos
    · -- Only one pattern begins at a place.
      have hsame : p' = p := by
        rcases List.prefix_or_prefix_of_prefix hstands hbegins with hle | hle
        · exact separate_uriLikePatterns p' hp' p hp hle
        · exact (separate_uriLikePatterns p hp p' hp' hle).symm
      rwa [hsame]
    · rcases Nat.lt_or_ge i p.length with hlt | hge
      · have hp0 : StandsAt p core start := hbegins
        exact absurd hstands (hp0.apart hp hp' (by omega) (by omega))
      · exact absurd ⟨p', hp', hstands⟩ (hother (start + i) (by omega) (by omega))

theorem Scans.exists_pieces (h : Scans deps core offset rest)
    (hcore : ∀ c ∈ core, isWhitespace c = false) :
    ∃ pieces, Redacted deps (core.drop offset) rest pieces := by
  induction h with
  | @done offset hnone =>
    refine ⟨_, Redacted.kept deps fun p hp i hstands ↦ ?_⟩
    rw [standsAt_drop] at hstands
    exact findFirst_eq_none_iff.mp hnone _ (Nat.le_add_right _ _) ⟨p, hp, hstands⟩
  | @span offset start len rest hsome _ ih =>
    obtain ⟨pieces, hrest⟩ := ih
    obtain ⟨hkept, hcut⟩ := redacted_before hsome
    obtain ⟨huri, hcut'⟩ := redacted_span hcore hsome
    have hle := (findFirst_eq_some hsome).1
    have hspan := (Redacted.span deps huri).append hrest hcut'
    rw [slice_append_drop core (lt_uriLikeSpanEnd hsome).le] at hspan
    have hwhole := hkept.append hspan hcut
    rw [slice_append_drop core hle, ← List.append_assoc] at hwhole
    exact ⟨_, hwhole⟩

theorem core_redacted (deps : Dependencies) (hcore : ∀ c ∈ core, isWhitespace c = false) :
    ∃ pieces, Redacted deps core (redactUriLikeCoreForLogs deps core) pieces := by
  obtain ⟨rest, hscans⟩ := exists_scans deps core 0
  rw [hscans.core_eq]
  exact hscans.exists_pieces hcore

theorem redactUriLikeTokenForLogs_eq (deps : Dependencies) (token : Text) :
    redactUriLikeTokenForLogs deps token = token.takeWhile isLeadingPunctuation ++
      (redactUriLikeCoreForLogs deps
        ((token.dropWhile isLeadingPunctuation).rdropWhile isTrailingPunctuation) ++
          (token.dropWhile isLeadingPunctuation).rtakeWhile isTrailingPunctuation) := by
  unfold redactUriLikeTokenForLogs
  dsimp only
  split
  next hnone =>
    rw [(Scans.done (Option.isNone_iff_eq_none.mp hnone)).core_eq, List.drop_zero,
      List.rdropWhile_append_rtakeWhile, List.takeWhile_append_dropWhile]
  · rw [List.append_assoc]

/-- The punctuation around a word is kept. -/
theorem token_redacted (deps : Dependencies) {token : Text}
    (htoken : ∀ c ∈ token, isWhitespace c = false) :
    ∃ pieces, Redacted deps token (redactUriLikeTokenForLogs deps token) pieces := by
  have hleading : ∀ c ∈ token.takeWhile isLeadingPunctuation, Foreign c := fun c hc ↦
    leading_foreign (List.mem_takeWhile_imp hc)
  have htrailing : ∀ c ∈ (token.dropWhile isLeadingPunctuation).rtakeWhile isTrailingPunctuation,
      Foreign c := fun c hc ↦ trailing_foreign (List.mem_rtakeWhile_imp hc)
  have hcore : ∀ c ∈ (token.dropWhile isLeadingPunctuation).rdropWhile isTrailingPunctuation,
      isWhitespace c = false := fun c hc ↦
    htoken c (List.dropWhile_subset _ ((List.rdropWhile_prefix _ _).subset hc))
  obtain ⟨pieces, hpieces⟩ := core_redacted deps hcore
  have hbehind := hpieces.append (Redacted.foreign deps htrailing)
    (Cut.of_head fun c hc ↦ htrailing c (List.mem_of_mem_head? hc))
  rw [List.rdropWhile_append_rtakeWhile] at hbehind
  have hwhole := (Redacted.foreign deps hleading).append hbehind
    (Cut.of_last fun c hc ↦ hleading c (List.mem_of_getLast? hc))
  rw [List.takeWhile_append_dropWhile, ← redactUriLikeTokenForLogs_eq] at hwhole
  exact ⟨_, hwhole⟩

end Word

/-! ## The words of a text -/

theorem splitInclusive_eq_cons (p : Char → Bool) {t : Text} (hne : t ≠ []) :
    ∃ token rest, splitInclusive p t = token :: splitInclusive p rest ∧ t = token ++ rest ∧
      token ≠ [] ∧ (∀ c ∈ token.dropLast, p c = false) ∧
      (rest ≠ [] → ∀ c ∈ token.getLast?, p c = true) := by
  induction t with
  | nil => exact absurd rfl hne
  | cons c t ih =>
    rw [splitInclusive]
    cases hc : p c with
    | true =>
      refine ⟨[c], t, rfl, rfl, List.cons_ne_nil _ _, fun d hd ↦ absurd hd List.not_mem_nil,
        fun _ d hd ↦ ?_⟩
      rwa [← Option.some.inj hd]
    | false =>
      cases t with
      | nil =>
        exact ⟨[c], [], rfl, rfl, List.cons_ne_nil _ _,
          fun d hd ↦ absurd hd List.not_mem_nil, fun h ↦ absurd rfl h⟩
      | cons d t =>
        obtain ⟨token, rest, hsplit, hwhole, htoken, hinner, hlast⟩ :=
          ih (List.cons_ne_nil _ _)
        refine ⟨c :: token, rest, ?_, ?_, List.cons_ne_nil _ _, ?_, ?_⟩
        · rw [if_neg Bool.false_ne_true, hsplit]
        · rw [hwhole, List.cons_append]
        · rw [List.dropLast_cons_of_ne_nil htoken, List.forall_mem_cons]
          exact ⟨hc, hinner⟩
        · rwa [List.getLast?_cons_of_ne_nil htoken]

theorem rdropWhile_plain {p : Char → Bool} {token : Text} (h : ∀ c ∈ token.dropLast, p c = false) :
    ∀ c ∈ token.rdropWhile p, p c = false := by
  rcases List.eq_nil_or_concat token with rfl | ⟨start, last, rfl⟩
  · exact fun c hc ↦ absurd hc List.not_mem_nil
  · rw [List.concat_eq_append, List.dropLast_concat] at h
    rw [List.concat_eq_append, List.rdropWhile_concat]
    split
    · exact fun c hc ↦ h c ((List.rdropWhile_prefix _ _).subset hc)
    next hlast =>
      rw [List.forall_mem_append, List.forall_mem_singleton]
      exact ⟨h, Bool.eq_false_iff.mpr hlast⟩

theorem text_redacted (deps : Dependencies) (text : Text) :
    ∃ pieces, Redacted deps text (redactUriLikeTextForLogs deps text) pieces := by
  -- The induction is on the length, as a word takes off more than one character.
  induction hlength : text.length using Nat.strong_induction_on generalizing text with
  | _ n ih =>
    by_cases hne : text = []
    · subst hne
      exact ⟨[], Redacted.nil deps⟩
    obtain ⟨token, rest, hsplit, rfl, htoken, hinner, hlast⟩ :=
      splitInclusive_eq_cons isWhitespace hne
    have hpos := List.length_pos_iff.mpr htoken
    rw [List.length_append] at hlength
    obtain ⟨pieces', hrest⟩ := ih rest.length (by omega) rest rfl
    obtain ⟨pieces, hbody⟩ := token_redacted deps (rdropWhile_plain hinner)
    have hspace : ∀ c ∈ token.rtakeWhile isWhitespace, Foreign c := fun c hc ↦
      whitespace_foreign (List.mem_rtakeWhile_imp hc)
    have hword := hbody.append (Redacted.foreign deps hspace)
      (Cut.of_head fun c hc ↦ hspace c (List.mem_of_mem_head? hc))
    rw [List.rdropWhile_append_rtakeWhile] at hword
    have hcut : Cut token rest := by
      by_cases hend : rest = []
      · exact Cut.of_head fun c hc ↦ by simp [hend] at hc
      · exact Cut.of_last fun c hc ↦ whitespace_foreign (hlast hend c hc)
    have hwhole := hword.append hrest hcut
    rw [redactUriLikeTextForLogs, hsplit, List.map_cons, List.flatten_cons]
    exact ⟨_, hwhole⟩

/-- The scan returns for every text, and what it returns is the text with some spans replaced by
their redactions. Each span begins like a URI and has no whitespace, the spans follow one another,
and every pattern is inside exactly one of them. -/
theorem log_text_redacts_only_spans (deps : Dependencies) (text : Text) :
    ∃ pieces : List LogPiece,
      text = (pieces.map LogPiece.text).flatten ∧
      redactUriLikeTextForLogs? deps text =
        some (pieces.map (LogPiece.redacted deps)).flatten ∧
      (∀ span, .span span ∈ pieces → (∃ p ∈ uriLikePatterns, p <+: Text.toAsciiLowercase span) ∧
        ∀ c ∈ span, Text.isWhitespace c = false) ∧
      (spanPlaces pieces).Pairwise (fun place place' ↦ place.2 ≤ place'.1) ∧
      (∀ p ∈ uriLikePatterns, ∀ i, p <+: (Text.toAsciiLowercase text).drop i →
        ∃! place, place ∈ spanPlaces pieces ∧ place.1 ≤ i ∧ i + p.length ≤ place.2) ∧
      ((∀ p ∈ uriLikePatterns, ¬ p <:+: Text.toAsciiLowercase text) →
        redactUriLikeTextForLogs? deps text = some text) := by
  obtain ⟨pieces, h⟩ := text_redacted deps text
  refine ⟨pieces, h.text_eq, ?_, h.spans, spanPlaces_pairwise pieces, ?_, ?_⟩
  · rw [redactUriLikeTextForLogs?_eq, h.out_eq]
    rfl
  · intro p hp i hstands
    obtain ⟨place, hplace, hinside⟩ := h.covered p hp i hstands
    refine ⟨place, ⟨hplace, hinside⟩, fun place' h' ↦ ?_⟩
    by_contra hne
    have hapart := spanPlaces_apart hplace h'.1 (Ne.symm hne)
    have hpos := List.length_pos_iff.mpr (pattern_ne_nil hp)
    omega
  · intro hnone
    rw [redactUriLikeTextForLogs?_eq, h.out_eq, h.text_eq]
    refine congrArg (some ∘ List.flatten) (List.map_congr_left fun piece hpiece ↦ ?_)
    cases piece with
    | kept text => rfl
    | span span =>
      -- Its pattern stands in the text.
      obtain ⟨⟨p, hp, hstands⟩, -⟩ := h.spans span hpiece
      have hwithin : span <:+: text := by
        rw [h.text_eq]
        exact List.infix_of_mem_flatten (List.mem_map_of_mem hpiece)
      have hinside := (List.IsPrefix.isInfix hstands).trans (hwithin.map Char.toLower)
      exact absurd hinside (hnone p hp)

end Reqx
