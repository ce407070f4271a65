import Reqx.Library.ByteOffsets

/-!
# Paths in telemetry

`StandardOtelPathNormalizer` replaces the segments of a path that look like
identifiers, takes out repeated slashes and cuts what is too long between two
segments. Every slice is one of `Library/ByteOffsets`, so a result means that no
character was cut.
-/

namespace Reqx

open Text

/-! ## The code -/

def isAsciiHexdigit (c : Char) : Bool :=
  c.isDigit || (decide ('a' ≤ c) && decide (c ≤ 'f')) || (decide ('A' ≤ c) && decide (c ≤ 'F'))

def isHyphenPosition (index : ℕ) : Bool := index = 8 ∨ index = 13 ∨ index = 18 ∨ index = 23

def isUuidLike (segment : Text) : Bool :=
  if len segment ≠ 36 then false
  else segment.zipIdx.all fun (character, index) ↦
    if isHyphenPosition index then character = '-' else isAsciiHexdigit character

def isTokenCharacter (c : Char) : Bool :=
  c.isAlphanum || decide (c = '-' ∨ c = '_' ∨ c = '~' ∨ c = '.' ∨ c = '=' ∨ c = '+')

def looksLikeToken (segment : Text) : Bool := segment.all isTokenCharacter

def normalizePathSegment (segment : Text) : Text :=
  if isUuidLike segment then ":uuid".toList
  else if !segment.isEmpty && segment.all Char.isDigit then ":int".toList
  else if decide (len segment ≥ 16) && segment.all isAsciiHexdigit then ":hex".toList
  else if decide (len segment ≥ 24) && looksLikeToken segment then ":token".toList
  else segment

/-- One round of the loop over the segments; the flag says that none was seen yet. -/
def collapseSegment (normalized : Text) : Text × Bool → Text → Text × Bool
  | (collapsed, first), segment =>
    let collapsed :=
      if first then
        if startsWith "/".toList normalized then collapsed ++ ['/'] else collapsed
      else if collapsed.getLast? = some '/' then collapsed
      else collapsed ++ ['/']
    if segment.isEmpty then (collapsed, false)
    else (collapsed ++ normalizePathSegment segment, false)

def collapsePath (path : Text) : Text :=
  let normalized := if path.isEmpty then "/".toList else path
  let collapsed := ((split '/' normalized).foldl (collapseSegment normalized) ([], true)).1
  if collapsed.isEmpty then "/".toList else collapsed

def truncatePathAtSegmentBoundary (path : Text) (maxLen : ℕ) : Option Text :=
  if len path ≤ maxLen then some path
  else
    let cutoff := floorCharBoundary path (min maxLen (len path))
    if cutoff = 0 then some "/".toList
    else do
      let behind ← sliceFrom? path cutoff
      let before ← sliceTo? path cutoff
      let cutInMiddleOfSegment :=
        decide (cutoff < len path) && !startsWith "/".toList behind
      if !cutInMiddleOfSegment then
        let kept := trimEndMatches (· = '/') before
        some (if kept.isEmpty then "/".toList else kept)
      else
        let start := trimEndMatches (· = '/') before
        if start.isEmpty then some "/".toList
        else
          match rfind '/' start with
          | some lastSeparator =>
            if lastSeparator = 0 then some "/".toList else sliceTo? start lastSeparator
          | none => some "/".toList

def normalizePath (path : Text) : Option Text :=
  let collapsed := collapsePath path
  if len collapsed > 128 then truncatePathAtSegmentBoundary collapsed 128 else some collapsed

/-! ## Segments that look like identifiers -/

def UuidShaped (segment : Text) : Prop :=
  segment.length = 36 ∧ ∀ index c, segment[index]? = some c →
    if isHyphenPosition index then c = '-' else isAsciiHexdigit c = true

/-- All digits, the shape of a UUID, sixteen or more hexadecimal digits, or twenty-four or more
token characters. -/
def LooksVariable (segment : Text) : Prop :=
  (segment ≠ [] ∧ ∀ c ∈ segment, c.isDigit = true) ∨ UuidShaped segment ∨
    (16 ≤ segment.length ∧ ∀ c ∈ segment, isAsciiHexdigit c = true) ∨
      24 ≤ segment.length ∧ ∀ c ∈ segment, isTokenCharacter c = true

theorem isAsciiHexdigit_iff {c : Char} : isAsciiHexdigit c = true ↔
    (48 ≤ c.toNat ∧ c.toNat ≤ 57 ∨ 97 ≤ c.toNat ∧ c.toNat ≤ 102) ∨
      65 ≤ c.toNat ∧ c.toNat ≤ 70 := by
  simp only [isAsciiHexdigit, Bool.or_eq_true, Bool.and_eq_true, decide_eq_true_eq,
    isDigit_iff]
  exact Iff.rfl

theorem isTokenCharacter_of_isAsciiHexdigit {c : Char} (h : isAsciiHexdigit c = true) :
    isTokenCharacter c = true := by
  rw [isAsciiHexdigit_iff] at h
  rw [isTokenCharacter, Bool.or_eq_true, isAlphanum_iff]
  omega

theorem isTokenCharacter_plain {c : Char} (h : isTokenCharacter c = true) :
    c.toNat < 128 ∧ c ≠ ':' := by
  rw [isTokenCharacter, Bool.or_eq_true, decide_eq_true_eq, isAlphanum_iff] at h
  rcases h with h | h
  · refine ⟨by omega, ?_⟩
    rintro rfl
    revert h
    decide
  · rcases h with rfl | rfl | rfl | rfl | rfl | rfl <;> decide

variable {segment : Text}

theorem tokens_of_shape (h : ∀ index c, segment[index]? = some c →
    if isHyphenPosition index then c = '-' else isAsciiHexdigit c = true) :
    ∀ c ∈ segment, isTokenCharacter c = true := by
  intro c hc
  obtain ⟨index, hindex⟩ := List.getElem?_of_mem hc
  have hshape := h index c hindex
  split at hshape
  · rw [hshape]
    decide
  · exact isTokenCharacter_of_isAsciiHexdigit hshape

theorem LooksVariable.tokens (h : LooksVariable segment) :
    ∀ c ∈ segment, isTokenCharacter c = true := by
  rcases h with ⟨-, h⟩ | h | ⟨-, h⟩ | ⟨-, h⟩
  · intro c hc
    refine isTokenCharacter_of_isAsciiHexdigit ?_
    rw [isAsciiHexdigit, h c hc, Bool.true_or, Bool.true_or]
  · exact tokens_of_shape h.2
  · exact fun c hc ↦ isTokenCharacter_of_isAsciiHexdigit (h c hc)
  · exact h

theorem len_of_tokens (h : ∀ c ∈ segment, isTokenCharacter c = true) :
    len segment = segment.length :=
  len_of_ascii fun c hc ↦ (isTokenCharacter_plain (h c hc)).1

theorem not_looksVariable_of_colon {name : Text} : ¬ LooksVariable (':' :: name) := fun h ↦
  (isTokenCharacter_plain (h.tokens ':' List.mem_cons_self)).2 rfl

theorem not_looksVariable_nil : ¬ LooksVariable [] := by
  rintro (⟨hne, -⟩ | h | ⟨h, -⟩ | ⟨h, -⟩)
  · exact hne rfl
  · exact absurd h.1 (by decide)
  · exact absurd h (by decide)
  · exact absurd h (by decide)

theorem isUuidLike_iff : isUuidLike segment = true ↔ UuidShaped segment := by
  have hshape : isUuidLike segment = true ↔ len segment = 36 ∧ ∀ index c,
      segment[index]? = some c →
        if isHyphenPosition index then c = '-' else isAsciiHexdigit c = true := by
    unfold isUuidLike
    rw [ite_not, Bool.if_false_right, Bool.and_eq_true, decide_eq_true_eq, List.all_eq_true,
      Prod.forall, forall_comm]
    refine and_congr_right fun _ ↦ forall₂_congr fun index c ↦ ?_
    rw [List.mem_zipIdx_iff_getElem?]
    refine imp_congr_right fun _ ↦ ?_
    dsimp only
    by_cases hindex : isHyphenPosition index = true
    · rw [if_pos hindex, if_pos hindex, decide_eq_true_eq]
    · rw [if_neg hindex, if_neg hindex]
  rw [hshape]
  constructor
  · rintro ⟨hlen, hindex⟩
    -- The characters are known to be ASCII only once their shape is.
    have htokens : ∀ c ∈ segment, isTokenCharacter c = true := tokens_of_shape hindex
    rw [len_of_tokens htokens] at hlen
    exact ⟨hlen, hindex⟩
  · intro h
    exact ⟨(len_of_tokens (tokens_of_shape h.2)).trans h.1, h.2⟩

theorem normalizePathSegment_of_not (h : ¬ LooksVariable segment) :
    normalizePathSegment segment = segment := by
  have hdigits : ¬ (!segment.isEmpty && segment.all Char.isDigit) = true := fun hall ↦ by
    simp only [Bool.and_eq_true, Bool.not_eq_true', List.isEmpty_eq_false_iff,
      List.all_eq_true] at hall
    exact h (.inl hall)
  have hhex : ¬ (decide (len segment ≥ 16) && segment.all isAsciiHexdigit) = true :=
    fun hall ↦ by
      rw [Bool.and_eq_true, decide_eq_true_eq, List.all_eq_true] at hall
      rw [len_of_tokens fun c hc ↦ isTokenCharacter_of_isAsciiHexdigit (hall.2 c hc)] at hall
      exact h (.inr (.inr (.inl hall)))
  have htoken : ¬ (decide (len segment ≥ 24) && looksLikeToken segment) = true :=
    fun hall ↦ by
      rw [Bool.and_eq_true, decide_eq_true_eq, looksLikeToken, List.all_eq_true] at hall
      rw [len_of_tokens hall.2] at hall
      exact h (.inr (.inr (.inr hall)))
  have huuid : ¬ isUuidLike segment = true := fun huuid ↦ h (.inr (.inl (isUuidLike_iff.mp huuid)))
  rw [normalizePathSegment, if_neg huuid, if_neg hdigits, if_neg hhex, if_neg htoken]

theorem normalizePathSegment_of_variable (h : LooksVariable segment) :
    ∃ name, normalizePathSegment segment = ':' :: name ∧ '/' ∉ name := by
  unfold normalizePathSegment
  split
  · exact ⟨"uuid".toList, rfl, by decide⟩
  next huuid =>
    split
    · exact ⟨"int".toList, rfl, by decide⟩
    next hdigits =>
      split
      · exact ⟨"hex".toList, rfl, by decide⟩
      next hhex =>
        -- What is left of the four shapes is the last one.
        have hlen := len_of_tokens h.tokens
        rcases h with ⟨hne, h⟩ | h | ⟨hlong, h⟩ | ⟨hlong, h⟩
        · refine absurd ?_ hdigits
          rw [Bool.and_eq_true, Bool.not_eq_true', List.isEmpty_eq_false_iff, List.all_eq_true]
          exact ⟨hne, h⟩
        · exact absurd (isUuidLike_iff.mpr h) huuid
        · refine absurd ?_ hhex
          rw [Bool.and_eq_true, decide_eq_true_eq, List.all_eq_true, hlen]
          exact ⟨hlong, h⟩
        · have htoken : (decide (len segment ≥ 24) && looksLikeToken segment) = true := by
            rw [Bool.and_eq_true, decide_eq_true_eq, looksLikeToken, List.all_eq_true, hlen]
            exact ⟨hlong, h⟩
          rw [if_pos htoken]
          exact ⟨"token".toList, rfl, by decide⟩

theorem normalizePathSegment_cases (segment : Text) :
    ¬ LooksVariable segment ∧ normalizePathSegment segment = segment ∨
      ∃ name, normalizePathSegment segment = ':' :: name ∧ '/' ∉ name := by
  by_cases h : LooksVariable segment
  · exact .inr (normalizePathSegment_of_variable h)
  · exact .inl ⟨h, normalizePathSegment_of_not h⟩

theorem normalizePathSegment_settled (segment : Text) :
    ¬ LooksVariable (normalizePathSegment segment) := by
  rcases normalizePathSegment_cases segment with ⟨h, heq⟩ | ⟨name, heq, -⟩
  · rwa [heq]
  · rw [heq]
    exact not_looksVariable_of_colon

theorem slash_notMem_normalizePathSegment (h : '/' ∉ segment) :
    '/' ∉ normalizePathSegment segment := by
  rcases normalizePathSegment_cases segment with ⟨-, heq⟩ | ⟨name, heq, hname⟩
  · rwa [heq]
  · rw [heq, List.mem_cons, not_or]
    exact ⟨by decide, hname⟩

theorem normalizePathSegment_ne_nil (h : segment ≠ []) : normalizePathSegment segment ≠ [] := by
  rcases normalizePathSegment_cases segment with ⟨-, heq⟩ | ⟨name, heq, -⟩
  · rwa [heq]
  · rw [heq]
    exact List.cons_ne_nil _ _

theorem normalizePathSegment_nil : normalizePathSegment [] = [] :=
  normalizePathSegment_of_not not_looksVariable_nil

/-! ## Paths as lists of segments -/

/-- The segments the loop writes: those between two slashes are left out when they are empty. -/
def squeeze : List Text → List Text
  | [] => []
  | [segment] => [normalizePathSegment segment]
  | segment :: next :: rest =>
    if segment.isEmpty then squeeze (next :: rest)
    else normalizePathSegment segment :: squeeze (next :: rest)

def joinSegments (segments : List Text) : Text := ['/'].intercalate segments

variable {segments : List Text}

theorem joinSegments_cons (segment : Text) (hne : segments ≠ []) :
    joinSegments (segment :: segments) = segment ++ '/' :: joinSegments segments := by
  obtain ⟨next, rest, rfl⟩ := List.exists_cons_of_ne_nil hne
  rw [joinSegments, List.intercalate_cons_cons, List.append_assoc]
  rfl

structure TidySegments (segments : List Text) : Prop where
  ne_nil : segments ≠ []
  plain : ∀ segment ∈ segments, '/' ∉ segment
  settled : ∀ segment ∈ segments, ¬ LooksVariable segment
  inner : ∀ segment ∈ segments.dropLast, segment ≠ []

theorem TidySegments.cons (h : TidySegments segments) (hplain : '/' ∉ segment)
    (hsettled : ¬ LooksVariable segment) (hne : segment ≠ []) :
    TidySegments (segment :: segments) where
  ne_nil := List.cons_ne_nil _ _
  plain := List.forall_mem_cons.mpr ⟨hplain, h.plain⟩
  settled := List.forall_mem_cons.mpr ⟨hsettled, h.settled⟩
  inner := by
    rw [List.dropLast_cons_of_ne_nil h.ne_nil]
    exact List.forall_mem_cons.mpr ⟨hne, h.inner⟩

theorem squeeze_tidy (hne : segments ≠ []) (hplain : ∀ segment ∈ segments, '/' ∉ segment) :
    TidySegments (squeeze segments) := by
  fun_induction squeeze segments with
  | case1 => exact absurd rfl hne
  | case2 segment =>
    refine ⟨List.cons_ne_nil _ _, ?_, ?_, fun _ h ↦ absurd h List.not_mem_nil⟩
    · rw [List.forall_mem_singleton] at hplain ⊢
      exact slash_notMem_normalizePathSegment hplain
    · rw [List.forall_mem_singleton]
      exact normalizePathSegment_settled segment
  | case3 segment next rest hempty ih =>
    exact ih (List.cons_ne_nil _ _) fun s hs ↦ hplain s (List.mem_cons_of_mem _ hs)
  | case4 segment next rest hempty ih =>
    have hsegment : segment ≠ [] := fun heq ↦ hempty (List.isEmpty_iff.mpr heq)
    rw [List.forall_mem_cons] at hplain
    exact (ih (List.cons_ne_nil _ _) hplain.2).cons
      (slash_notMem_normalizePathSegment hplain.1) (normalizePathSegment_settled segment)
      (normalizePathSegment_ne_nil hsegment)

theorem TidySegments.squeeze_eq (h : TidySegments segments) : squeeze segments = segments := by
  obtain ⟨-, -, hsettled, hinner⟩ := h
  fun_induction squeeze segments with
  | case1 => rfl
  | case2 segment => rw [normalizePathSegment_of_not (hsettled segment List.mem_cons_self)]
  | case3 segment next rest hempty ih =>
    exact absurd (List.isEmpty_iff.mp hempty) (hinner segment List.mem_cons_self)
  | case4 segment next rest hempty ih =>
    rw [normalizePathSegment_of_not (hsettled segment List.mem_cons_self),
      ih (fun s hs ↦ hsettled s (List.mem_cons_of_mem _ hs))
        fun s hs ↦ hinner s (List.mem_cons_of_mem _ hs)]

/-! ## Two slashes in a row -/

theorem doubled_cons_iff {c : Char} {t : Text} :
    "//".toList <:+: c :: t ↔ c = '/' ∧ t.head? = some '/' ∨ "//".toList <:+: t := by
  rw [List.infix_cons_iff]
  refine or_congr_left ?_
  change ['/', '/'] <+: c :: t ↔ _
  rw [List.cons_prefix_cons, eq_comm]
  refine and_congr_right fun _ ↦ ?_
  cases t with
  | nil => simp
  | cons d t => simp [eq_comm]

theorem doubled_append_iff (h : '/' ∉ segment) (t : Text) :
    "//".toList <:+: segment ++ '/' :: t ↔ "//".toList <:+: '/' :: t := by
  induction segment with
  | nil => rfl
  | cons c segment ih =>
    rw [List.mem_cons, not_or] at h
    rw [List.cons_append, doubled_cons_iff, ih h.2]
    exact or_iff_right fun hfirst ↦ h.1 hfirst.1.symm

theorem head?_ne_slash (h : '/' ∉ segment) : segment.head? ≠ some '/' :=
  fun heq ↦ h (List.mem_of_mem_head? heq)

/-- Behind a leading slash, two slashes in a row are an empty segment in front of another one. -/
theorem not_doubled_joinSegments_iff (hplain : ∀ segment ∈ segments, '/' ∉ segment)
    (hne : segments ≠ []) :
    ¬ "//".toList <:+: '/' :: joinSegments segments ↔
      ∀ segment ∈ segments.dropLast, segment ≠ [] := by
  induction segments with
  | nil => exact absurd rfl hne
  | cons segment segments ih =>
    rw [List.forall_mem_cons] at hplain
    cases segments with
    | nil =>
      refine iff_of_true (fun hdoubled ↦ ?_) fun _ h ↦ absurd h List.not_mem_nil
      rw [joinSegments, List.intercalate_singleton, doubled_cons_iff] at hdoubled
      rcases hdoubled with ⟨-, hhead⟩ | hdouble
      · exact head?_ne_slash hplain.1 hhead
      · exact hplain.1 (hdouble.subset List.mem_cons_self)
    | cons next rest =>
      rw [joinSegments_cons segment (List.cons_ne_nil _ _), doubled_cons_iff,
        doubled_append_iff hplain.1, not_or, ih hplain.2 (List.cons_ne_nil _ _),
        List.dropLast_cons_of_ne_nil (List.cons_ne_nil _ _), List.forall_mem_cons]
      refine and_congr_left fun _ ↦ not_congr ?_
      cases segment with
      | nil => exact iff_of_true ⟨rfl, rfl⟩ rfl
      | cons c segment =>
        refine iff_of_false (fun hhead ↦ ?_) (List.cons_ne_nil _ _)
        exact hplain.1 (Option.some.inj hhead.2 ▸ List.mem_cons_self)

/-! ## The loop -/

/-- The text with a slash at its end. -/
def withSlash (t : Text) : Text := if t.getLast? = some '/' then t else t ++ ['/']

theorem withSlash_withSlash (t : Text) : withSlash (withSlash t) = withSlash t := by
  have hlast : (withSlash t).getLast? = some '/' := by
    unfold withSlash
    split
    · assumption
    · exact List.getLast?_concat
  exact if_pos hlast

theorem withSlash_append (t : Text) (hne : segment ≠ []) (h : '/' ∉ segment) :
    withSlash (t ++ segment) = t ++ segment ++ ['/'] := by
  refine if_neg fun hlast ↦ h ?_
  rw [List.getLast?_append_of_ne_nil _ hne] at hlast
  exact List.mem_of_getLast? hlast

theorem foldl_collapseSegment (normalized collapsed : Text) (hne : segments ≠ [])
    (hplain : ∀ segment ∈ segments, '/' ∉ segment) :
    (segments.foldl (collapseSegment normalized) (collapsed, false)).1 =
      withSlash collapsed ++ joinSegments (squeeze segments) := by
  have hstep (collapsed segment : Text) : collapseSegment normalized (collapsed, false) segment =
      (withSlash collapsed ++ normalizePathSegment segment, false) := by
    cases segment with
    | nil =>
      rw [normalizePathSegment_nil, List.append_nil]
      rfl
    | cons c segment => rfl
  induction segments generalizing collapsed with
  | nil => exact absurd rfl hne
  | cons segment segments ih =>
    rw [List.foldl_cons, hstep]
    rw [List.forall_mem_cons] at hplain
    cases segments with
    | nil => rw [List.foldl_nil, squeeze, joinSegments, List.intercalate_singleton]
    | cons next rest =>
      rw [ih _ (List.cons_ne_nil _ _) hplain.2]
      by_cases hsegment : segment = []
      · rw [hsegment, normalizePathSegment_nil, List.append_nil, withSlash_withSlash]
        rfl
      · have hempty : ¬ segment.isEmpty = true := fun h ↦ hsegment (List.isEmpty_iff.mp h)
        have hrest := (squeeze_tidy (List.cons_ne_nil next rest) hplain.2).ne_nil
        rw [withSlash_append _ (normalizePathSegment_ne_nil hsegment)
          (slash_notMem_normalizePathSegment hplain.1), squeeze, if_neg hempty,
          joinSegments_cons _ hrest]
        simp only [List.append_assoc, List.singleton_append]

theorem collapsePath_of_loop {path collapsed : Text} (hpath : path ≠ []) (hne : collapsed ≠ [])
    (hloop : ((split '/' path).foldl (collapseSegment path) ([], true)).1 = collapsed) :
    collapsePath path = collapsed := by
  have hnormalized : (if path.isEmpty then "/".toList else path) = path :=
    if_neg fun h ↦ hpath (List.isEmpty_iff.mp h)
  unfold collapsePath
  dsimp only
  rw [hnormalized, hloop]
  exact if_neg fun h ↦ hne (List.isEmpty_iff.mp h)

theorem split_absolute (t : Text) : split '/' ('/' :: t) = [] :: split '/' t :=
  split_append_cons '/' [] t

theorem collapsePath_absolute (t : Text) :
    collapsePath ('/' :: t) = '/' :: joinSegments (squeeze (split '/' t)) := by
  refine collapsePath_of_loop (List.cons_ne_nil _ _) (List.cons_ne_nil _ _) ?_
  rw [split_absolute]
  exact foldl_collapseSegment ('/' :: t) ['/'] (List.splitOn_ne_nil '/' t)
    fun s hs ↦ notMem_of_mem_split hs

theorem split_relative {t : Text} (hne : t ≠ []) (hhead : t.head? ≠ some '/') :
    ∃ segment rest, split '/' t = segment :: rest ∧ segment ≠ [] := by
  obtain ⟨c, t, rfl⟩ := List.exists_cons_of_ne_nil hne
  obtain ⟨first, rest, hsplit⟩ := List.exists_cons_of_ne_nil (List.splitOn_ne_nil '/' t)
  have hc : ¬ (c == '/') = true := fun h ↦ hhead (congrArg some (beq_iff_eq.mp h))
  refine ⟨c :: first, rest, ?_, List.cons_ne_nil _ _⟩
  rw [split, List.splitOn_cons_eq_if_modifyHead, if_neg hc, hsplit, List.modifyHead_cons]

theorem squeeze_cons (hne : segment ≠ []) (rest : List Text) :
    squeeze (segment :: rest) = normalizePathSegment segment :: squeeze rest := by
  cases rest with
  | nil => rfl
  | cons next rest => exact if_neg fun h ↦ hne (List.isEmpty_iff.mp h)

theorem collapseSegment_first {t segment : Text} (hne : t ≠ []) (hhead : t.head? ≠ some '/')
    (hsegment : segment ≠ []) :
    collapseSegment t ([], true) segment = (normalizePathSegment segment, false) := by
  have hstart : ¬ startsWith "/".toList t = true := by
    obtain ⟨c, t, rfl⟩ := List.exists_cons_of_ne_nil hne
    intro h
    have hfirst := List.cons_prefix_cons.mp (List.isPrefixOf_iff_prefix.mp h)
    exact hhead (congrArg some hfirst.1.symm)
  have hempty : ¬ segment.isEmpty = true := fun h ↦ hsegment (List.isEmpty_iff.mp h)
  simp only [collapseSegment, if_true, if_neg hstart, if_neg hempty, List.nil_append]

/-- The first segment is written as it is, and every other one behind a slash. -/
theorem foldl_behind_first (t : Text) {rest : List Text} (hsegment : segment ≠ [])
    (hplain : '/' ∉ segment) (hrest : ∀ s ∈ rest, '/' ∉ s) :
    ∃ behind, joinSegments (squeeze (segment :: rest)) = normalizePathSegment segment ++ behind ∧
      (rest.foldl (collapseSegment t) (normalizePathSegment segment, false)).1 =
        normalizePathSegment segment ++ behind := by
  rw [squeeze_cons hsegment]
  cases rest with
  | nil => exact ⟨[], by simp [squeeze, joinSegments], by simp⟩
  | cons next rest =>
    have hsqueezed := (squeeze_tidy (List.cons_ne_nil next rest) hrest).ne_nil
    refine ⟨'/' :: joinSegments (squeeze (next :: rest)), joinSegments_cons _ hsqueezed, ?_⟩
    have hwith := withSlash_append [] (normalizePathSegment_ne_nil hsegment)
      (slash_notMem_normalizePathSegment hplain)
    rw [List.nil_append] at hwith
    rw [foldl_collapseSegment t _ (List.cons_ne_nil next rest) hrest, hwith, List.append_assoc]
    rfl

theorem collapsePath_relative {t : Text} (hne : t ≠ []) (hhead : t.head? ≠ some '/') :
    collapsePath t = joinSegments (squeeze (split '/' t)) ∧
      collapsePath t ≠ [] ∧ (collapsePath t).head? ≠ some '/' := by
  obtain ⟨segment, rest, hsplit, hsegment⟩ := split_relative hne hhead
  have hplain : ∀ s ∈ segment :: rest, '/' ∉ s := fun s hs ↦
    notMem_of_mem_split (hsplit ▸ hs)
  rw [List.forall_mem_cons] at hplain
  have hnormalized := normalizePathSegment_ne_nil hsegment
  have hslash := slash_notMem_normalizePathSegment hplain.1
  obtain ⟨behind, hjoin, hloop⟩ := foldl_behind_first t hsegment hplain.1 hplain.2
  have hresult : collapsePath t = normalizePathSegment segment ++ behind := by
    refine collapsePath_of_loop hne (List.append_ne_nil_of_left_ne_nil hnormalized _) ?_
    rw [hsplit, List.foldl_cons, collapseSegment_first hne hhead hsegment, hloop]
  refine ⟨?_, ?_, ?_⟩
  · rw [hresult, hsplit, hjoin]
  · rw [hresult]
    exact List.append_ne_nil_of_left_ne_nil hnormalized _
  · rw [hresult, List.head?_append_of_ne_nil _ hnormalized]
    exact head?_ne_slash hslash

/-! ## Tidy paths -/

structure TidyPath (path : Text) : Prop where
  ne_nil : path ≠ []
  undoubled : ¬ "//".toList <:+: path
  settled : ∀ segment ∈ split '/' path, ¬ LooksVariable segment

theorem slash_tidy : TidyPath "/".toList where
  ne_nil := List.cons_ne_nil _ _
  undoubled := by decide
  settled := by
    intro segment h
    have hsplit : split '/' "/".toList = [[], []] := by decide
    rw [hsplit] at h
    obtain rfl : segment = [] := by simpa using h
    exact not_looksVariable_nil

/-- What is in front of a slash of a tidy path is tidy. -/
theorem TidyPath.front {path rest : Text} (h : TidyPath (path ++ '/' :: rest)) (hne : path ≠ []) :
    TidyPath path where
  ne_nil := hne
  undoubled := fun hdoubled ↦ h.undoubled (hdoubled.trans (List.prefix_append _ _).isInfix)
  settled := by
    intro segment hsegment
    refine h.settled segment ?_
    rw [split_append_cons]
    exact List.mem_append_left _ hsegment

theorem TidySegments.split_joinSegments (h : TidySegments segments) :
    split '/' (joinSegments segments) = segments :=
  List.splitOn_intercalate '/' h.plain h.ne_nil

theorem TidySegments.not_doubled (h : TidySegments segments) :
    ¬ "//".toList <:+: '/' :: joinSegments segments :=
  (not_doubled_joinSegments_iff h.plain h.ne_nil).mpr h.inner

theorem squeeze_split_tidy (t : Text) : TidySegments (squeeze (split '/' t)) :=
  squeeze_tidy (List.splitOn_ne_nil '/' t) fun _ hs ↦ notMem_of_mem_split hs

theorem path_cases (path : Text) :
    path = [] ∨ (∃ t, path = '/' :: t) ∨ path ≠ [] ∧ path.head? ≠ some '/' := by
  cases path with
  | nil => exact .inl rfl
  | cons c t =>
    by_cases hc : c = '/'
    · exact .inr (.inl ⟨t, by rw [hc]⟩)
    · exact .inr (.inr ⟨List.cons_ne_nil _ _, fun h ↦ hc (Option.some.inj h)⟩)

theorem collapsePath_tidy (path : Text) : TidyPath (collapsePath path) := by
  rcases path_cases path with rfl | ⟨t, rfl⟩ | ⟨hne, hhead⟩
  · exact slash_tidy
  · have htidy := squeeze_split_tidy t
    rw [collapsePath_absolute]
    refine ⟨List.cons_ne_nil _ _, htidy.not_doubled, ?_⟩
    rw [split_absolute, htidy.split_joinSegments, List.forall_mem_cons]
    exact ⟨not_looksVariable_nil, htidy.settled⟩
  · obtain ⟨hcollapsed, hresult, -⟩ := collapsePath_relative hne hhead
    have htidy := squeeze_split_tidy path
    refine ⟨hresult, fun hdoubled ↦ ?_, ?_⟩
    · rw [hcollapsed] at hdoubled
      exact htidy.not_doubled (doubled_cons_iff.mpr (.inr hdoubled))
    · rw [hcollapsed, htidy.split_joinSegments]
      exact htidy.settled

theorem joinSegments_split (t : Text) : joinSegments (split '/' t) = t :=
  List.intercalate_splitOn '/'

theorem split_tidy {t : Text} (hundoubled : ¬ "//".toList <:+: '/' :: t)
    (hsettled : ∀ segment ∈ split '/' t, ¬ LooksVariable segment) :
    TidySegments (split '/' t) := by
  have hne : split '/' t ≠ [] := List.splitOn_ne_nil '/' t
  have hplain : ∀ segment ∈ split '/' t, '/' ∉ segment := fun _ hs ↦
    notMem_of_mem_split hs
  rw [← joinSegments_split t, not_doubled_joinSegments_iff hplain hne] at hundoubled
  exact ⟨hne, hplain, hsettled, hundoubled⟩

theorem TidyPath.collapsePath_eq {path : Text} (h : TidyPath path) : collapsePath path = path := by
  rcases path_cases path with rfl | ⟨t, rfl⟩ | ⟨hne, hhead⟩
  · exact absurd rfl h.ne_nil
  · have hsettled := h.settled
    rw [split_absolute, List.forall_mem_cons] at hsettled
    rw [collapsePath_absolute, (split_tidy h.undoubled hsettled.2).squeeze_eq, joinSegments_split]
  · have hundoubled : ¬ "//".toList <:+: '/' :: path := by
      rw [doubled_cons_iff, not_or]
      exact ⟨fun hfirst ↦ hhead hfirst.2, h.undoubled⟩
    rw [(collapsePath_relative hne hhead).1, (split_tidy hundoubled h.settled).squeeze_eq,
      joinSegments_split]

/-! ## The cut -/

theorem exists_trimmed_slashes (before : Text) : ∃ slashes : Text,
    before = trimEndMatches (· = '/') before ++ slashes ∧ ∀ c ∈ slashes, c = '/' := by
  refine ⟨before.rtakeWhile (· = '/'), List.rdropWhile_append_rtakeWhile.symm, fun c hc ↦ ?_⟩
  have hslash := List.mem_rtakeWhile_imp hc
  exact of_decide_eq_true hslash

theorem append_slashes (slashes rest : Text) (h : ∀ c ∈ slashes, c = '/') :
    ∃ behind, slashes ++ '/' :: rest = '/' :: behind := by
  cases slashes with
  | nil => exact ⟨rest, rfl⟩
  | cons c slashes =>
    rw [h c List.mem_cons_self]
    exact ⟨slashes ++ '/' :: rest, rfl⟩

/-- Within the limit, and the path itself, a slash, or what is in front of a slash of the path. -/
structure CutFrom (path : Text) (maxLen : ℕ) (result : Text) : Prop where
  len_le : len result ≤ maxLen
  front : result = path ∨ result = "/".toList ∨ result ≠ [] ∧ ∃ rest, path = result ++ '/' :: rest

section Cut

variable {maxLen : ℕ} {before behind : Text}

theorem slash_cutFrom (path : Text) (hmax : 1 ≤ maxLen) : CutFrom path maxLen "/".toList :=
  ⟨hmax, .inr (.inl rfl)⟩

/-- A cut in front of a slash leaves out the slashes that the front ends in. -/
theorem trimmed_cutFrom {rest : Text} (hlen : len before ≤ maxLen)
    (hne : trimEndMatches (· = '/') before ≠ []) :
    CutFrom (before ++ '/' :: rest) maxLen (trimEndMatches (· = '/') before) := by
  obtain ⟨slashes, htrim, hslashes⟩ := exists_trimmed_slashes before
  obtain ⟨after, hafter⟩ := append_slashes slashes rest hslashes
  generalize trimEndMatches (· = '/') before = kept at htrim hne
  rw [htrim, len_append] at hlen
  refine ⟨by omega, .inr (.inr ⟨hne, after, ?_⟩)⟩
  rw [htrim, ← hafter, List.append_assoc]

/-- A cut inside a segment goes back to the last slash in front of it. -/
theorem start_cutFrom {start last : Text} (hlen : len before ≤ maxLen)
    (htrimmed : trimEndMatches (· = '/') before = start ++ '/' :: last) (hne : start ≠ []) :
    CutFrom (before ++ behind) maxLen start := by
  obtain ⟨slashes, htrim, -⟩ := exists_trimmed_slashes before
  rw [htrimmed] at htrim
  rw [htrim, len_append, len_append] at hlen
  refine ⟨by omega, .inr (.inr ⟨hne, last ++ slashes ++ behind, ?_⟩)⟩
  rw [htrim]
  simp only [List.append_assoc, List.cons_append]

end Cut

theorem truncatePathAtSegmentBoundary_spec (path : Text) {maxLen : ℕ} (hmax : 1 ≤ maxLen) :
    ∃ result, truncatePathAtSegmentBoundary path maxLen = some result ∧
      CutFrom path maxLen result := by
  have hslash := slash_cutFrom path hmax
  unfold truncatePathAtSegmentBoundary
  split
  next hshort => exact ⟨path, rfl, hshort, .inl rfl⟩
  next hlong =>
    obtain ⟨before, behind, rfl, hcutoff⟩ :=
      exists_floorCharBoundary path (min maxLen (len path))
    have hbefore : len before ≤ maxLen := by
      rw [hcutoff]
      exact (floorCharBoundary_le _ _).trans (Nat.min_le_left _ _)
    dsimp only
    rw [← hcutoff]
    split
    · exact ⟨_, rfl, hslash⟩
    simp only [sliceFrom?_append, sliceTo?_append, Option.bind_eq_bind,
      Option.bind_some]
    split
    next hboundary =>
      have hinside : decide (len before < len (before ++ behind)) = true := by
        rw [decide_eq_true_eq]
        omega
      rw [hinside, Bool.true_and, Bool.not_not, startsWith, List.isPrefixOf_iff_prefix]
        at hboundary
      obtain ⟨rest, rfl⟩ := hboundary
      split
      · exact ⟨_, rfl, hslash⟩
      next hne => exact ⟨_, rfl, trimmed_cutFrom hbefore fun h ↦ hne (List.isEmpty_iff.mpr h)⟩
    next hmiddle =>
      split
      · exact ⟨_, rfl, hslash⟩
      split
      next lastSeparator hfind =>
        obtain ⟨⟨start, last⟩, hsplit, hlen⟩ := Option.map_eq_some_iff.mp hfind
        obtain ⟨htrimmed, -⟩ := rsplitOnce_eq_some hsplit
        dsimp only at hlen
        rw [← hlen, htrimmed, sliceTo?_append]
        split
        · exact ⟨_, rfl, hslash⟩
        next hne =>
          exact ⟨_, rfl, start_cutFrom hbefore htrimmed fun h ↦ hne (by rw [h, len_nil])⟩
      next => exact ⟨_, rfl, hslash⟩

/-- The normalizer returns for every path, a tidy text of at most 128 bytes which is the collapsed
path, or a slash, or what is in front of some slash of the collapsed path. Normalizing the result
once more changes nothing. -/
theorem normalized_path_tidy (path : Text) :
    ∃ result, normalizePath path = some result ∧
      result ≠ [] ∧ Text.len result ≤ 128 ∧ ¬ "//".toList <:+: result ∧
      (∀ segment ∈ Text.split '/' result, ¬ LooksVariable segment) ∧
      (result = collapsePath path ∨ result = "/".toList ∨
        ∃ rest, collapsePath path = result ++ '/' :: rest) ∧
      normalizePath result = some result := by
  have hcollapsed := collapsePath_tidy path
  obtain ⟨result, hresult, hlen, hfront⟩ : ∃ result, normalizePath path = some result ∧
      CutFrom (collapsePath path) 128 result := by
    unfold normalizePath
    dsimp only
    split
    · exact truncatePathAtSegmentBoundary_spec _ (by decide)
    next hshort => exact ⟨_, rfl, Nat.le_of_not_lt hshort, .inl rfl⟩
  have htidy : TidyPath result := by
    rcases hfront with rfl | rfl | ⟨hne, rest, hrest⟩
    · exact hcollapsed
    · exact slash_tidy
    · rw [hrest] at hcollapsed
      exact hcollapsed.front hne
  refine ⟨result, hresult, htidy.ne_nil, hlen, htidy.undoubled, htidy.settled, ?_, ?_⟩
  · exact hfront.imp_right (Or.imp_right And.right)
  · unfold normalizePath
    rw [htidy.collapsePath_eq]
    exact if_neg (Nat.not_lt.mpr hlen)

example : normalizePath "/users//42/3f2504e0-4f89-41d3-9a0c-0305e82c3301".toList =
    some "/users/:int/:uuid".toList := by decide

end Reqx
