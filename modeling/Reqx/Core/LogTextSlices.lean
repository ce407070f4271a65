import Reqx.Core.RedactionSlices
import Reqx.Core.LogTexts

/-!
# The slices of the log texts

`redact_uri_like_text_for_logs` with the byte offsets the source computes and the
slices it takes at them. A scan that runs out of rounds, is out of range or cuts a
character gives `none`; it never does, and its result is the one of the functions of
`Core/LogTexts`, which count characters.
-/

namespace Reqx

open Text

/-! ## The code -/

def uriLikeSpanEnd? (core lower : Text) (uriStart patternLen : ℕ) : Option ℕ :=
  match findFirstByte uriLikePatterns lower (uriStart + patternLen) with
  | none => some (Text.len core)
  | some (nextUriStart, _) => do
    let span ← slice? core uriStart nextUriStart
    match (charIndices span).reverse.find? (isSpanSeparator ·.2) with
    | some (index, _) => some (uriStart + index)
    | none => some nextUriStart

def redactSpans? (deps : Dependencies) (core lower : Text) : ℕ → ℕ → ℕ → Text → Option Text
  | 0, _, _, _ => none
  | rounds + 1, copiedUntil, searchFrom, redacted =>
    match findFirstByte uriLikePatterns lower searchFrom with
    | none => (sliceFrom? core copiedUntil).map (redacted ++ ·)
    | some (uriStart, patternLen) => do
      let kept ← slice? core copiedUntil uriStart
      let uriEnd ← uriLikeSpanEnd? core lower uriStart patternLen
      let span ← slice? core uriStart uriEnd
      let uri ← redactUriForLogs? deps span
      redactSpans? deps core lower rounds uriEnd uriEnd (redacted ++ kept ++ uri)

def redactUriLikeCoreForLogs? (deps : Dependencies) (core : Text) : Option Text :=
  redactSpans? deps core (toAsciiLowercase core) (Text.len core + 1) 0 0 []

def redactUriLikeTokenForLogs? (deps : Dependencies) (token : Text) : Option Text := do
  let leadingLen := (findWhere (!isLeadingPunctuation ·) token).getD (Text.len token)
  let (leading, withoutLeading) ← splitAt? token leadingLen
  let trailingStart :=
    (((charIndices withoutLeading).reverse.find? (!isTrailingPunctuation ·.2)).map
      fun found ↦ found.1 + found.2.utf8Size).getD 0
  let (core, trailing) ← splitAt? withoutLeading trailingStart
  if (findFirstByte uriLikePatterns (toAsciiLowercase core) 0).isNone then some token
  else do
    let redacted ← redactUriLikeCoreForLogs? deps core
    some (leading ++ redacted ++ trailing)

/-- One round of the loop over the words. -/
def redactWord? (deps : Dependencies) (redacted token : Text) : Option Text := do
  let trimLen := Text.len (trimEndMatches isWhitespace token)
  let (body, whitespace) ← splitAt? token trimLen
  let word ← redactUriLikeTokenForLogs? deps body
  some (redacted ++ word ++ whitespace)

def redactUriLikeTextForLogs? (deps : Dependencies) (text : Text) : Option Text :=
  (splitInclusive isWhitespace text).foldlM (redactWord? deps) []

/-! ## What it returns -/

section Scan

variable {deps : Dependencies} {core : Text} {offset start len : ℕ}

theorem len_uriLikePatterns : ∀ p ∈ uriLikePatterns, Text.len p = p.length := by decide

theorem findFirstByte_lower (core : Text) (offset : ℕ) :
    findFirstByte uriLikePatterns (toAsciiLowercase core)
        (byteOffset core offset) =
      (findUriLikeStart (toAsciiLowercase core) offset).map fun found ↦
        (byteOffset core found.1, found.2) := by
  have hplaces := findFirstByte_byteOffset nil_notMem_uriLikePatterns len_uriLikePatterns
    (toAsciiLowercase core) offset
  simp only [byteOffset_toAsciiLowercase] at hplaces
  exact hplaces

theorem byteOffset_pattern
    (h : findUriLikeStart (toAsciiLowercase core) offset = some (start, len)) :
    byteOffset core start + len = byteOffset core (start + len) := by
  obtain ⟨-, ⟨p, hp, rfl, rest, hrest⟩, -⟩ := findFirst_eq_some h
  rw [← byteOffset_toAsciiLowercase, ← byteOffset_toAsciiLowercase core,
    byteOffset_add, ← hrest, List.take_left, len_uriLikePatterns p hp]

theorem find?_charIndices_reverse (p : Char → Bool) (t : Text) :
    (charIndices t).reverse.find? (p ·.2) =
      (t.zipIdx.reverse.find? (p ·.1)).map fun found ↦ (byteOffset t found.2, found.1) := by
  rw [charIndices_eq_map, ← List.map_reverse, List.find?_map]
  rfl

theorem slice?_eq_slice (t : Text) {i j : ℕ} (h : i ≤ j) :
    slice? t (byteOffset t i) (byteOffset t j) = some (slice t i j) :=
  slice?_byteOffset t h

theorem byteOffset_slice (t : Text) {i j index : ℕ} (h : index ≤ j - i) :
    byteOffset t i + byteOffset (slice t i j) index = byteOffset t (i + index) := by
  rw [byteOffset_add, slice, byteOffset, byteOffset, List.take_take,
    Nat.min_eq_left h]

theorem uriLikeSpanEnd?_eq
    (h : findUriLikeStart (toAsciiLowercase core) offset = some (start, len)) :
    uriLikeSpanEnd? core (toAsciiLowercase core) (byteOffset core start) len =
      some (byteOffset core (uriLikeSpanEnd core (toAsciiLowercase core) start len)) := by
  unfold uriLikeSpanEnd? uriLikeSpanEnd
  rw [byteOffset_pattern h, findFirstByte_lower]
  cases hnext : findUriLikeStart (toAsciiLowercase core) (start + len) with
  | none =>
    rw [byteOffset_length]
    rfl
  | some found =>
    obtain ⟨next, nextLen⟩ := found
    have hle : start ≤ next := by
      have hafter := (findFirst_eq_some hnext).1
      omega
    simp only [Option.map_some, slice?_eq_slice core hle, Option.bind_eq_bind,
      Option.bind_some, find?_charIndices_reverse]
    cases hfind : (slice core start next).zipIdx.reverse.find? (isSpanSeparator ·.1) with
    | none => rfl
    | some found =>
      have hmem := List.mem_reverse.mp (List.mem_of_find?_eq_some hfind)
      rw [List.mem_zipIdx_iff_getElem?] at hmem
      have hindex : found.2 ≤ next - start := by
        by_contra hge
        rw [slice, List.getElem?_take_eq_none (by omega)] at hmem
        cases hmem
      simp only [Option.map_some, byteOffset_slice core hindex]

/-- The scan with byte offsets appends what the scan of the characters does. -/
theorem Scans.redactSpans?_eq {rest : Text} (h : Scans deps core offset rest) {rounds : ℕ}
    (hrounds : core.length - offset < rounds) (redacted : Text) :
    redactSpans? deps core (toAsciiLowercase core) rounds (byteOffset core offset)
      (byteOffset core offset) redacted = some (redacted ++ rest) := by
  induction h generalizing rounds redacted with
  | done hnone =>
    obtain ⟨rounds, rfl⟩ := Nat.exists_eq_succ_of_ne_zero (Nat.ne_zero_of_lt hrounds)
    rw [redactSpans?, findFirstByte_lower, hnone, sliceFrom?_byteOffset]
    rfl
  | @span offset start len rest hsome _ ih =>
    obtain ⟨rounds, rfl⟩ := Nat.exists_eq_succ_of_ne_zero (Nat.ne_zero_of_lt hrounds)
    obtain ⟨hle, ⟨p, hp, -, hbegins⟩, -⟩ := findFirst_eq_some hsome
    have hlength : start < core.length := lt_length_of_begins ⟨p, hp, hbegins⟩
    have hend := lt_uriLikeSpanEnd hsome
    rw [redactSpans?, findFirstByte_lower, hsome]
    simp only [Option.map_some, slice?_eq_slice core hle, uriLikeSpanEnd?_eq hsome,
      slice?_eq_slice core hend.le, redactUriForLogs?_eq, Option.bind_eq_bind,
      Option.bind_some]
    rw [ih (by omega)]
    simp only [List.append_assoc]

theorem redactUriLikeCoreForLogs?_eq (deps : Dependencies) (core : Text) :
    redactUriLikeCoreForLogs? deps core = some (redactUriLikeCoreForLogs deps core) := by
  obtain ⟨rest, hscans⟩ := exists_scans deps core 0
  have hrounds : core.length - 0 < Text.len core + 1 :=
    Nat.lt_succ_of_le ((Nat.sub_le _ _).trans (length_le_len core))
  have hloop := hscans.redactSpans?_eq hrounds []
  rw [byteOffset_zero] at hloop
  rw [redactUriLikeCoreForLogs?, hloop, hscans.core_eq]
  rfl

end Scan

/-- The end of the last character of another kind, or else the beginning. -/
theorem trailingStart_eq (p : Char → Bool) (t : Text) :
    (((charIndices t).reverse.find? (!p ·.2)).map fun found ↦
      found.1 + found.2.utf8Size).getD 0 = Text.len (t.rdropWhile p) := by
  induction t using List.reverseRecOn with
  | nil => rfl
  | append_singleton t c ih =>
    rw [charIndices_append, List.reverse_append, List.rdropWhile_concat]
    cases hc : p c with
    | true =>
      simp only [charIndices, List.map_nil, List.map_cons, List.reverse_singleton,
        List.singleton_append, if_true]
      rw [List.find?_cons_of_neg (by simp [hc]), ih]
    | false =>
      simp [charIndices, hc]

theorem redactUriLikeTokenForLogs?_eq (deps : Dependencies) (token : Text) :
    redactUriLikeTokenForLogs? deps token = some (redactUriLikeTokenForLogs deps token) := by
  have hfound (core : Text) :
      (findFirstByte uriLikePatterns (toAsciiLowercase core) 0).isNone =
        (findUriLikeStart (toAsciiLowercase core) 0).isNone := by
    have hplaces := findFirstByte_lower core 0
    rw [byteOffset_zero] at hplaces
    rw [hplaces, Option.isNone_map]
  unfold redactUriLikeTokenForLogs? redactUriLikeTokenForLogs
  simp only [findWhere_getD, Bool.not_not, splitAt?_takeWhile, trailingStart_eq,
    splitAt?_rdropWhile, hfound, redactUriLikeCoreForLogs?_eq, Option.bind_eq_bind,
    Option.bind_some]
  split <;> rfl

theorem foldlM_redactWord? (deps : Dependencies) (tokens : List Text) (redacted : Text) :
    tokens.foldlM (redactWord? deps) redacted = some (redacted ++ (tokens.map fun token ↦
      redactUriLikeTokenForLogs deps (token.rdropWhile isWhitespace) ++
        token.rtakeWhile isWhitespace).flatten) := by
  induction tokens generalizing redacted with
  | nil =>
    rw [List.map_nil, List.flatten_nil, List.append_nil]
    rfl
  | cons token tokens ih =>
    have hword : redactWord? deps redacted token = some (redacted ++
        redactUriLikeTokenForLogs deps (token.rdropWhile isWhitespace) ++
          token.rtakeWhile isWhitespace) := by
      simp only [redactWord?, trimEndMatches, splitAt?_rdropWhile,
        redactUriLikeTokenForLogs?_eq, Option.bind_eq_bind, Option.bind_some]
    rw [List.foldlM_cons, hword, Option.bind_eq_bind, Option.bind_some, ih, List.map_cons,
      List.flatten_cons]
    simp only [List.append_assoc]

theorem redactUriLikeTextForLogs?_eq (deps : Dependencies) (text : Text) :
    redactUriLikeTextForLogs? deps text = some (redactUriLikeTextForLogs deps text) :=
  foldlM_redactWord? deps (splitInclusive isWhitespace text) []

end Reqx
