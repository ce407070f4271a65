import Reqx.Library.Occurrences
import Reqx.Core.UserInformation

/-!
# URIs inside log texts

`redact_uri_like_text_for_logs` looks for URIs in the words of a text and redacts
each of them. A word is scanned from one scheme to the next, so a URI that stands
in the query of another one is a span of its own.
-/

namespace Reqx

open Text

/-! ## The code -/

def uriLikePatterns : List Text :=
  ["https://".toList, "http://".toList, "mailto:".toList, "sips:".toList, "sip:".toList]

-- Offsets count characters here and bytes in the source; they name the same places.
def findUriLikeStart (lower : Text) (offset : ℕ) : Option (ℕ × ℕ) :=
  findFirst uriLikePatterns lower offset

def isSpanSeparator (c : Char) : Bool := c ∈ [',', ';', '|']

def slice (t : Text) (start stop : ℕ) : Text := (t.drop start).take (stop - start)

def uriLikeSpanEnd (core lower : Text) (uriStart patternLen : ℕ) : ℕ :=
  match findUriLikeStart lower (uriStart + patternLen) with
  | none => core.length
  | some (nextUriStart, _) =>
    match (slice core uriStart nextUriStart).zipIdx.reverse.find? (isSpanSeparator ·.1) with
    | some (_, index) => uriStart + index
    | none => nextUriStart

/-- The loop of `redact_uri_like_core_for_logs`; every round moves on by a character. -/
def redactSpans (deps : Dependencies) (core lower : Text) : ℕ → ℕ → ℕ → Text → Text
  | 0, copiedUntil, _, redacted => redacted ++ core.drop copiedUntil
  | rounds + 1, copiedUntil, searchFrom, redacted =>
    match findUriLikeStart lower searchFrom with
    | none => redacted ++ core.drop copiedUntil
    | some (uriStart, patternLen) =>
      let uriEnd := uriLikeSpanEnd core lower uriStart patternLen
      redactSpans deps core lower rounds uriEnd uriEnd
        (redacted ++ slice core copiedUntil uriStart ++
          redactUriForLogs deps (slice core uriStart uriEnd))

def redactUriLikeCoreForLogs (deps : Dependencies) (core : Text) : Text :=
  redactSpans deps core (toAsciiLowercase core) (core.length + 1) 0 0 []

def isLeadingPunctuation (c : Char) : Bool := c ∈ ['(', '[', '\x7b', '<', '\x22', '\x27']

def isTrailingPunctuation (c : Char) : Bool :=
  c ∈ [')', ']', '\x7d', '>', '\x22', '\x27', ',', ';']

def redactUriLikeTokenForLogs (deps : Dependencies) (token : Text) : Text :=
  let leading := token.takeWhile isLeadingPunctuation
  let withoutLeading := token.dropWhile isLeadingPunctuation
  let core := withoutLeading.rdropWhile isTrailingPunctuation
  let trailing := withoutLeading.rtakeWhile isTrailingPunctuation
  if (findUriLikeStart (toAsciiLowercase core) 0).isNone then token
  else leading ++ redactUriLikeCoreForLogs deps core ++ trailing

/-- `str::split_inclusive`. -/
def splitInclusive (p : Char → Bool) : Text → List Text
  | [] => []
  | c :: t =>
    if p c then [c] :: splitInclusive p t
    else
      match splitInclusive p t with
      | [] => [[c]]
      | token :: tokens => (c :: token) :: tokens

def redactUriLikeTextForLogs (deps : Dependencies) (text : Text) : Text :=
  ((splitInclusive isWhitespace text).map fun token ↦
    redactUriLikeTokenForLogs deps (token.rdropWhile isWhitespace) ++
      token.rtakeWhile isWhitespace).flatten

/-! ## The scan of a word -/

def startsQuery (c : Char) : Bool := c = '?' ∨ c = '#'

theorem separate_uriLikePatterns : Separate uriLikePatterns := by
  unfold Separate
  decide

theorem nil_notMem_uriLikePatterns : [] ∉ uriLikePatterns := by decide

theorem length_toAsciiLowercase (t : Text) : (toAsciiLowercase t).length = t.length :=
  List.length_map _

section Scan

variable {deps : Dependencies} {core : Text} {offset start len : ℕ}

theorem lt_length_of_begins (h : Begins uriLikePatterns (toAsciiLowercase core) start) :
    start < core.length := by
  rw [← length_toAsciiLowercase]
  exact length_of_begins nil_notMem_uriLikePatterns h

/-- A scheme begins with a letter. -/
theorem head_of_begins (h : Begins uriLikePatterns (toAsciiLowercase core) start) :
    ∃ c, core[start]? = some c ∧ startsQuery c = false := by
  obtain ⟨p, hp, rest, hrest⟩ := h
  have hheads : ∀ p ∈ uriLikePatterns, ∃ d ∈ ['h', 'm', 's'], p.head? = some d := by
    simp [uriLikePatterns]
  obtain ⟨d, hd, hhead⟩ := hheads p hp
  have hlower : (core[start]?).map Char.toLower = some d := by
    rw [← List.getElem?_map, ← List.head?_drop, ← toAsciiLowercase, ← hrest,
      List.head?_append, hhead]
    rfl
  obtain ⟨c, hc, hcd⟩ := Option.map_eq_some_iff.mp hlower
  refine ⟨c, hc, ?_⟩
  have hplain : ∀ c ∈ ['?', '#'], c.toLower ∉ ['h', 'm', 's'] := by simp
  have hother : c ∉ ['?', '#'] := fun hmem ↦ hplain c hmem (hcd ▸ hd)
  simp only [List.mem_cons, List.not_mem_nil, or_false, not_or] at hother
  simp [startsQuery, hother]

theorem separator_notMem_uriLikePatterns {c : Char} (h : isSpanSeparator c = true) :
    ∀ p ∈ uriLikePatterns, c.toLower ∉ p := by
  have hplain : ∀ c ∈ [',', ';', '|'], ∀ p ∈ uriLikePatterns, c.toLower ∉ p := by
    simp [uriLikePatterns]
  exact hplain c (of_decide_eq_true h)

/-- A span holds the pattern it begins with, and no other pattern begins in it. -/
theorem uriLikeSpanEnd_spec
    (h : findUriLikeStart (toAsciiLowercase core) offset = some (start, len)) :
    start + len ≤ uriLikeSpanEnd core (toAsciiLowercase core) start len ∧
      uriLikeSpanEnd core (toAsciiLowercase core) start len ≤ core.length ∧
      ∀ i, start + len ≤ i → i < uriLikeSpanEnd core (toAsciiLowercase core) start len →
        ¬ Begins uriLikePatterns (toAsciiLowercase core) i := by
  obtain ⟨-, ⟨p, hp, rfl, hbegins⟩, -⟩ := findFirst_eq_some h
  have hstart := lt_length_of_begins ⟨p, hp, hbegins⟩
  unfold uriLikeSpanEnd
  split
  next hnone =>
    have hfits := hbegins.length_le
    rw [List.length_drop, length_toAsciiLowercase] at hfits
    exact ⟨by omega, Nat.le_refl _, fun i hi _ ↦ findFirst_eq_none_iff.mp hnone i hi⟩
  next next' _ hnext =>
    obtain ⟨hle, ⟨p', hp', -, hbegins'⟩, hfirst⟩ := findFirst_eq_some hnext
    have hnext' := lt_length_of_begins ⟨p', hp', hbegins'⟩
    split
    next c index hfind =>
      have hseparator := List.find?_some hfind
      have hmem := List.mem_reverse.mp (List.mem_of_find?_eq_some hfind)
      rw [List.mem_zipIdx_iff_getElem?, slice] at hmem
      have hindex : index < next' - start := by
        by_contra hge
        rw [List.getElem?_take_eq_none (Nat.not_lt.mp hge)] at hmem
        cases hmem
      rw [List.getElem?_take_of_lt hindex, List.getElem?_drop] at hmem
      -- The pattern has no separator.
      have hlen : p.length ≤ index := by
        by_contra hlt
        rw [Nat.not_le] at hlt
        have hchar : p[index]? = some c.toLower := by
          obtain ⟨rest, hrest⟩ := hbegins
          rw [← List.getElem?_append_left hlt, hrest, List.getElem?_drop, toAsciiLowercase,
            List.getElem?_map, hmem]
          rfl
        exact separator_notMem_uriLikePatterns hseparator p hp (List.mem_of_getElem? hchar)
      exact ⟨by omega, by omega, fun i hi hlt ↦ hfirst i hi (by omega)⟩
    · exact ⟨hle, hnext'.le, hfirst⟩

theorem lt_uriLikeSpanEnd
    (h : findUriLikeStart (toAsciiLowercase core) offset = some (start, len)) :
    start < uriLikeSpanEnd core (toAsciiLowercase core) start len := by
  obtain ⟨-, ⟨p, hp, hlen, -⟩, -⟩ := findFirst_eq_some h
  have hpos : 0 < p.length := List.length_pos_iff.mpr fun hnil ↦
    nil_notMem_uriLikePatterns (hnil ▸ hp)
  have hend := (uriLikeSpanEnd_spec h).1
  omega

variable (deps core) in
/-- What the loop appends from this offset on. -/
inductive Scans : ℕ → Text → Prop
  | done {offset : ℕ} : findUriLikeStart (toAsciiLowercase core) offset = none →
      Scans offset (core.drop offset)
  | span {offset start len : ℕ} {rest : Text} :
      findUriLikeStart (toAsciiLowercase core) offset = some (start, len) →
      Scans (uriLikeSpanEnd core (toAsciiLowercase core) start len) rest →
      Scans offset (slice core offset start ++ redactUriForLogs deps (slice core start
        (uriLikeSpanEnd core (toAsciiLowercase core) start len)) ++ rest)

theorem Scans.redactSpans_eq {rest : Text} (h : Scans deps core offset rest) {rounds : ℕ}
    (hrounds : core.length - offset < rounds) (redacted : Text) :
    redactSpans deps core (toAsciiLowercase core) rounds offset offset redacted =
      redacted ++ rest := by
  induction h generalizing rounds redacted with
  | done hnone =>
    cases rounds with
    | zero => rfl
    | succ rounds => simp only [redactSpans, hnone]
  | @span offset start len rest hsome _ ih =>
    cases rounds with
    | zero => exact absurd hrounds (Nat.not_lt_zero _)
    | succ rounds =>
      obtain ⟨hle, ⟨p, hp, -, hbegins⟩, -⟩ := findFirst_eq_some hsome
      have hlength : start < core.length := lt_length_of_begins ⟨p, hp, hbegins⟩
      have hend := lt_uriLikeSpanEnd hsome
      simp only [redactSpans, hsome]
      rw [ih (by omega)]
      simp only [List.append_assoc]

theorem exists_scans (deps : Dependencies) (core : Text) (offset : ℕ) :
    ∃ rest, Scans deps core offset rest := by
  induction hleft : core.length - offset using Nat.strong_induction_on generalizing offset with
  | _ left ih =>
    cases hfound : findUriLikeStart (toAsciiLowercase core) offset with
    | none => exact ⟨_, .done hfound⟩
    | some found =>
      obtain ⟨hle, ⟨p, hp, -, hbegins⟩, -⟩ := findFirst_eq_some hfound
      have hlength : found.1 < core.length := lt_length_of_begins ⟨p, hp, hbegins⟩
      have hend := lt_uriLikeSpanEnd hfound
      obtain ⟨rest, hrest⟩ := ih (core.length -
        uriLikeSpanEnd core (toAsciiLowercase core) found.1 found.2) (by omega) _ rfl
      exact ⟨_, .span hfound hrest⟩

theorem Scans.core_eq {rest : Text} (h : Scans deps core 0 rest) :
    redactUriLikeCoreForLogs deps core = rest :=
  h.redactSpans_eq (Nat.lt_succ_self _) []

end Scan

/-! ## A query at the end of a word -/

/-- The text is a query or a fragment. -/
def IsQuery (q : Text) : Prop := ∃ c ∈ q.head?, startsQuery c = true

/-- What the code relies on of `url::Url`: a query and a fragment are parts of their own, which
the setters remove, and no URL is written as the empty text. -/
structure Dependencies.Queries (deps : Dependencies) : Prop where
  parts : ∀ {v q q'}, '?' ∉ v → '#' ∉ v → IsQuery q → IsQuery q' →
    (deps.parseUrl (v ++ q)).map (fun url ↦ (url.scheme, url.hostStr, clearedUrl deps url)) =
      (deps.parseUrl (v ++ q')).map fun url ↦ (url.scheme, url.hostStr, clearedUrl deps url)
  cleared_ne_nil : ∀ {text url}, deps.parseUrl text = some url → (clearedUrl deps url).text ≠ []
  setPath_ne_nil : ∀ {url path}, url.text ≠ [] → (deps.setPath url path).text ≠ []

section Query

variable {deps : Dependencies} {v q q' : Text}

theorem IsQuery.ne_nil (h : IsQuery q) : q ≠ [] := by
  rintro rfl
  obtain ⟨c, hc, -⟩ := h
  cases hc

theorem IsQuery.head_toLower (h : IsQuery q) {t : Text} (hquery : '?' ∉ t) (hfragment : '#' ∉ t) :
    ∀ c ∈ (toAsciiLowercase q).head?, c ∉ t := by
  obtain ⟨d, hd, hstarts⟩ := h
  intro c hc
  rw [toAsciiLowercase, List.head?_map, hd] at hc
  cases hc
  rcases of_decide_eq_true hstarts with rfl | rfl
  · exact hquery
  · exact hfragment

theorem IsQuery.startsWithIgnoreCase_append (h : IsQuery q) {pre : Text}
    (hquery : '?' ∉ toAsciiLowercase pre) (hfragment : '#' ∉ toAsciiLowercase pre) :
    startsWithIgnoreCase pre (v ++ q) = startsWithIgnoreCase pre v :=
  Text.startsWithIgnoreCase_append (h.head_toLower hquery hfragment)

theorem IsQuery.takeWhile_append (h : IsQuery q) (t : Text) {p : Char → Bool}
    (hp : ∀ c, startsQuery c = true → p c = false) : (t ++ q).takeWhile p = t.takeWhile p := by
  obtain ⟨c, hc, hstarts⟩ := h
  obtain ⟨q, rfl⟩ := List.head?_eq_some_iff.mp hc
  rw [List.takeWhile_append]
  split
  next hall =>
    rw [List.takeWhile_cons_of_neg (by simp [hp c hstarts]), List.append_nil]
    exact ((List.takeWhile_prefix p).eq_of_length hall).symm
  · rfl

theorem IsQuery.stripQueryAndFragment_append (h : IsQuery q) (hquery : '?' ∉ v)
    (hfragment : '#' ∉ v) : stripQueryAndFragment (v ++ q) = v := by
  have hstops : ∀ c, startsQuery c = true → decide (c ≠ '?' ∧ c ≠ '#') = false := by
    intro c hc
    rcases of_decide_eq_true hc with rfl | rfl <;> decide
  exact (h.takeWhile_append v hstops).trans (stripQueryAndFragment_eq_self hquery hfragment)

/-- The authority is read up to the query at most. -/
theorem hasValidRawHttpAuthoritySyntax_query (hq : IsQuery q) (hq' : IsQuery q') :
    hasValidRawHttpAuthoritySyntax (v ++ q) false =
      hasValidRawHttpAuthoritySyntax (v ++ q') false := by
  have hstops : ∀ c, startsQuery c = true → decide (c ≠ '/' ∧ c ≠ '?' ∧ c ≠ '#') = false := by
    intro c hc
    rcases of_decide_eq_true hc with rfl | rfl <;> decide
  have hslash {q : Text} (hq : IsQuery q) (t : Text) :
      startsWith "/".toList (t ++ q) = startsWith "/".toList t := by
    rw [startsWith, startsWith, Bool.eq_iff_iff, List.isPrefixOf_iff_prefix,
      List.isPrefixOf_iff_prefix, prefix_append_iff]
    obtain ⟨d, hd, hstarts⟩ := hq
    intro c hc
    obtain rfl : d = c := Option.some.inj (hd.symm.trans hc)
    rcases of_decide_eq_true hstarts with rfl | rfl <;> decide
  have hempty {q : Text} (hq : IsQuery q) (t : Text) : (t ++ q).isEmpty = false := by
    simp [hq.ne_nil]
  have hlength {pre : Text} (h : startsWithIgnoreCase pre v = true) :
      pre.length ≤ v.length := by
    rw [startsWithIgnoreCase, Bool.and_eq_true, decide_eq_true_iff] at h
    exact h.1
  unfold hasValidRawHttpAuthoritySyntax
  rw [hq.startsWithIgnoreCase_append (by decide) (by decide),
    hq.startsWithIgnoreCase_append (by decide) (by decide),
    hq'.startsWithIgnoreCase_append (by decide) (by decide),
    hq'.startsWithIgnoreCase_append (by decide) (by decide)]
  by_cases hhttp : startsWithIgnoreCase "http://".toList v = true
  · have hdrop (q : Text) : (v ++ q).drop 7 = v.drop 7 ++ q :=
      List.drop_append_of_le_length (hlength hhttp)
    simp only [if_pos hhttp, hdrop, hempty hq, hempty hq', hslash hq, hslash hq',
      hq.takeWhile_append _ hstops, hq'.takeWhile_append _ hstops]
  · by_cases hhttps : startsWithIgnoreCase "https://".toList v = true
    · have hdrop (q : Text) : (v ++ q).drop 8 = v.drop 8 ++ q :=
        List.drop_append_of_le_length (hlength hhttps)
      simp only [if_neg hhttp, if_pos hhttps, hdrop, hempty hq, hempty hq', hslash hq, hslash hq',
        hq.takeWhile_append _ hstops, hq'.takeWhile_append _ hstops]
    · simp only [if_neg hhttp, if_neg hhttps, Bool.false_and, Bool.false_eq_true, if_false]

/-- Texts that differ in their queries are both refused by the parser, or have the same parts. -/
theorem Dependencies.Queries.parseUrl_cases (urls : deps.Queries) (hquery : '?' ∉ v)
    (hfragment : '#' ∉ v) (hq : IsQuery q) (hq' : IsQuery q') :
    deps.parseUrl (v ++ q) = none ∧ deps.parseUrl (v ++ q') = none ∨
      ∃ url url', deps.parseUrl (v ++ q) = some url ∧ deps.parseUrl (v ++ q') = some url' ∧
        url'.scheme = url.scheme ∧ url'.hostStr = url.hostStr ∧
          clearedUrl deps url' = clearedUrl deps url := by
  have hparts := urls.parts hquery hfragment hq hq'
  cases hparse : deps.parseUrl (v ++ q) with
  | none =>
    rw [hparse, Option.map_none, eq_comm, Option.map_eq_none_iff] at hparts
    exact .inl ⟨rfl, hparts⟩
  | some url =>
    rw [hparse, Option.map_some, eq_comm, Option.map_eq_some_iff] at hparts
    obtain ⟨url', hparse', heq⟩ := hparts
    obtain ⟨hscheme, hhost, hcleared⟩ := by simpa only [Prod.mk.injEq] using heq
    exact .inr ⟨url, url', rfl, hparse', hscheme, hhost, hcleared⟩

/-- The redaction of a URI does not depend on its query and its fragment. -/
theorem redactUriForLogs_query (urls : deps.Queries) (hquery : '?' ∉ v) (hfragment : '#' ∉ v)
    (hq : IsQuery q) (hq' : IsQuery q') :
    redactUriForLogs deps (v ++ q) = redactUriForLogs deps (v ++ q') := by
  have hparse := urls.parseUrl_cases hquery hfragment hq hq'
  have hfallback : redactUriWithoutUrlNormalization (v ++ q) =
      redactUriWithoutUrlNormalization (v ++ q') := by
    rw [redactUriWithoutUrlNormalization, redactUriWithoutUrlNormalization,
      hq.stripQueryAndFragment_append hquery hfragment,
      hq'.stripQueryAndFragment_append hquery hfragment]
  have hvalid : isValidAbsoluteHttpUriText deps (v ++ q) =
      isValidAbsoluteHttpUriText deps (v ++ q') := by
    unfold isValidAbsoluteHttpUriText
    rw [hasValidRawHttpAuthoritySyntax_query hq hq']
    rcases hparse with ⟨hnone, hnone'⟩ | ⟨url, url', hurl, hurl', hscheme, hhost, -⟩
    · rw [hnone, hnone']
    · rw [hurl, hurl']
      dsimp only
      rw [hscheme, hhost]
  unfold redactUriForLogs
  rw [hq.startsWithIgnoreCase_append (by decide) (by decide),
    hq.startsWithIgnoreCase_append (by decide) (by decide),
    hq'.startsWithIgnoreCase_append (by decide) (by decide),
    hq'.startsWithIgnoreCase_append (by decide) (by decide), hvalid, hfallback]
  dsimp only
  split_ifs
  · rfl
  rcases hparse with ⟨hnone, hnone'⟩ | ⟨url, url', hurl, hurl', -, -, hcleared⟩
  · rw [hnone, hnone']
  · rw [clearedUrl, clearedUrl] at hcleared
    rw [hurl, hurl']
    dsimp only
    rw [hcleared]

theorem redactUserinfoInAuthority_ne_nil {t : Text} (h : t ≠ []) :
    redactUserinfoInAuthority t ≠ [] := by
  obtain heq | ⟨lead, rest, -, hlead, heq⟩ := redactUserinfoInAuthority_cases t
  · rwa [heq]
  · rw [heq]
    exact List.append_ne_nil_of_left_ne_nil hlead _

theorem redactNonAuthorityCredentials_ne_nil {t : Text} (h : t ≠ []) :
    redactNonAuthorityCredentials t ≠ [] := by
  rcases redactNonAuthorityCredentials_cases t with heq | ⟨scheme, _, suffix, -, -, -, heq⟩
  · rwa [heq]
  · rw [heq]
    simp

theorem redactUriForLogs_ne_nil (urls : deps.Queries) {t : Text} {c : Char}
    (hhead : t.head? = some c) (hc : startsQuery c = false) : redactUriForLogs deps t ≠ [] := by
  have hstrip : stripQueryAndFragment t ≠ [] := by
    obtain ⟨t, rfl⟩ := List.head?_eq_some_iff.mp hhead
    rw [startsQuery, decide_eq_false_iff_not] at hc
    push Not at hc
    simp [stripQueryAndFragment, hc]
  have hfallback : redactUriWithoutUrlNormalization t ≠ [] :=
    redactNonAuthorityCredentials_ne_nil (redactUserinfoInAuthority_ne_nil hstrip)
  unfold redactUriForLogs
  dsimp only
  split_ifs
  · exact hfallback
  · split
    · exact hfallback
    next url hparse =>
      refine redactNonAuthorityCredentials_ne_nil (redactUserinfoInAuthority_ne_nil ?_)
      have htext := urls.cleared_ne_nil hparse
      rw [clearedUrl] at htext
      unfold redactSensitivePathSegments
      split
      · exact htext
      · exact htext
      · split_ifs
        · exact htext
        · exact urls.setPath_ne_nil htext

/-! ## The scan of a word with a query -/

variable {u : Text} {offset start len : ℕ}

theorem IsQuery.parted (h : IsQuery q) : Parted uriLikePatterns (toAsciiLowercase q) := by
  intro c hc p hp
  have hclean : ∀ p ∈ uriLikePatterns, '?' ∉ p ∧ '#' ∉ p := by decide
  exact h.head_toLower (hclean p hp).1 (hclean p hp).2 c hc

theorem findUriLikeStart_append_of_some (hq : IsQuery q) {found : ℕ × ℕ}
    (h : findUriLikeStart (toAsciiLowercase u) offset = some found) :
    findUriLikeStart (toAsciiLowercase (u ++ q)) offset = some found := by
  rw [toAsciiLowercase_append]
  exact findFirst_append_of_some separate_uriLikePatterns nil_notMem_uriLikePatterns
    hq.parted h

theorem findUriLikeStart_append_of_none (hq : IsQuery q) (hoffset : offset ≤ u.length)
    (h : findUriLikeStart (toAsciiLowercase u) offset = none) :
    findUriLikeStart (toAsciiLowercase (u ++ q)) offset =
      (findUriLikeStart (toAsciiLowercase q) 0).map
        fun found ↦ (u.length + found.1, found.2) := by
  rw [toAsciiLowercase_append, ← length_toAsciiLowercase u]
  rw [← length_toAsciiLowercase] at hoffset
  exact findFirst_append_of_none separate_uriLikePatterns hq.parted hoffset h

/-- Without separators a span ends where the next one begins. -/
theorem uriLikeSpanEnd_eq {core : Text} (hplain : ∀ c ∈ core, isSpanSeparator c = false)
    (lower : Text) (start len : ℕ) :
    uriLikeSpanEnd core lower start len =
      ((findUriLikeStart lower (start + len)).map Prod.fst).getD core.length := by
  unfold uriLikeSpanEnd
  split
  next hnone => rw [hnone]; rfl
  next next' _ hsome =>
    have hnone : (slice core start next').zipIdx.reverse.find? (isSpanSeparator ·.1) = none := by
      rw [List.find?_eq_none]
      intro x hx
      have hmem := List.mem_zipIdx_iff_getElem?.mp (List.mem_reverse.mp hx)
      have hcore := (List.drop_subset _ _) (List.take_subset _ _ (List.mem_of_getElem? hmem))
      simp [hplain _ hcore]
    rw [hnone, hsome]
    rfl

theorem findUriLikeStart_length (core : Text) :
    findUriLikeStart (toAsciiLowercase core) core.length = none := by
  refine findFirst_eq_none_iff.mpr fun i hi hbegins ↦ ?_
  exact absurd (lt_length_of_begins hbegins) (Nat.not_lt.mpr hi)

theorem Scans.ne_nil (urls : deps.Queries) {core rest : Text} (h : Scans deps core offset rest)
    (hfound : findUriLikeStart (toAsciiLowercase core) offset = some (start, len)) :
    rest ≠ [] := by
  cases h with
  | done hnone =>
    rw [hnone] at hfound
    cases hfound
  | @span _ start' len' rest hsome hrest =>
    have hend := lt_uriLikeSpanEnd hsome
    obtain ⟨-, ⟨p, hp, -, hbegins⟩, -⟩ := findFirst_eq_some hsome
    obtain ⟨c, hc, hstarts⟩ := head_of_begins ⟨p, hp, hbegins⟩
    have hhead : (slice core start' (uriLikeSpanEnd core (toAsciiLowercase core) start'
        len')).head? = some c := by
      rw [slice, List.head?_take, if_neg (Nat.sub_ne_zero_of_lt hend), List.head?_drop, hc]
    have hshown := redactUriForLogs_ne_nil urls hhead hstarts
    simp [hshown]

theorem slice_append_of_le {stop : ℕ} (hstart : start ≤ u.length) (hstop : stop ≤ u.length) :
    slice (u ++ q) start stop = slice u start stop := by
  have hle : stop - start ≤ (u.drop start).length := by
    rw [List.length_drop]
    exact Nat.sub_le_sub_right hstop _
  rw [slice, slice, List.drop_append_of_le_length hstart, List.take_append_of_le_length hle]

theorem slice_append_add (hstart : start ≤ u.length) (i : ℕ) :
    slice (u ++ q) start (u.length + i) = u.drop start ++ q.take i := by
  have hlength : u.length + i - start = (u.drop start).length + i := by
    rw [List.length_drop, Nat.sub_add_comm hstart]
  rw [slice, List.drop_append_of_le_length hstart, hlength, List.take_length_add_append]

theorem slice_self (t : Text) (i : ℕ) : slice t i i = [] := by
  rw [slice, Nat.sub_self, List.take_zero]

/-- The spans before the last one do not depend on the query. If no scheme begins in the query, it
ends the last span; else it is cut there, and what follows is shown as well. -/
theorem exists_scans_append (urls : deps.Queries) (hu : ∀ c ∈ u, isSpanSeparator c = false)
    (hstart : findUriLikeStart (toAsciiLowercase u) start = some (start, len)) :
    ∃ shown last, last <:+ u ∧ ∀ q, IsQuery q → (∀ c ∈ q, isSpanSeparator c = false) →
      (findUriLikeStart (toAsciiLowercase q) 0 = none →
        Scans deps (u ++ q) start (shown ++ redactUriForLogs deps (last ++ q))) ∧
      ∀ i k, findUriLikeStart (toAsciiLowercase q) 0 = some (i, k) → ∃ rest ≠ [],
        Scans deps (u ++ q) start
          (shown ++ redactUriForLogs deps (last ++ q.take i) ++ rest) := by
  induction hleft : u.length - start using Nat.strong_induction_on generalizing start len with
  | _ left ih =>
    obtain ⟨-, ⟨p, hp, hlen, hbegins⟩, -⟩ := findFirst_eq_some hstart
    have hlt : start < u.length := lt_length_of_begins ⟨p, hp, hbegins⟩
    have hpos : 0 < len := by
      rw [← hlen]
      exact List.length_pos_iff.mpr fun hnil ↦ nil_notMem_uriLikePatterns (hnil ▸ hp)
    have hfits : start + len ≤ u.length := by
      have hle := hbegins.length_le
      rw [List.length_drop, length_toAsciiLowercase] at hle
      omega
    have hplain {q : Text} (hq : ∀ c ∈ q, isSpanSeparator c = false) :
        ∀ c ∈ u ++ q, isSpanSeparator c = false := List.forall_mem_append.mpr ⟨hu, hq⟩
    cases hnext : findUriLikeStart (toAsciiLowercase u) (start + len) with
    | none =>
      refine ⟨[], u.drop start, List.drop_suffix _ _, fun q hquery hq ↦ ?_⟩
      have hfirst := findUriLikeStart_append_of_some hquery hstart
      have hend := uriLikeSpanEnd_eq (hplain hq) (toAsciiLowercase (u ++ q)) start len
      rw [findUriLikeStart_append_of_none hquery hfits hnext] at hend
      constructor
      · intro hnone
        rw [hnone, Option.map_none, Option.map_none, Option.getD_none,
          List.length_append] at hend
        have hdone : Scans deps (u ++ q) (u.length + q.length) [] := by
          have hlast := findUriLikeStart_length (u ++ q)
          rw [List.length_append] at hlast
          have hrest : Scans deps (u ++ q) _ _ := .done hlast
          rwa [List.drop_eq_nil_of_le (by rw [List.length_append])] at hrest
        have hspan := Scans.span hfirst (hend ▸ hdone)
        rwa [hend, slice_self, slice_append_add hlt.le, List.take_length, List.append_nil]
          at hspan
      · intro i k hsome
        rw [hsome, Option.map_some, Option.map_some, Option.getD_some] at hend
        dsimp only at hend
        obtain ⟨rest, hrest⟩ := exists_scans deps (u ++ q) (u.length + i)
        have hfound : findUriLikeStart (toAsciiLowercase (u ++ q)) (start + len) =
            some (u.length + i, k) := by
          rw [findUriLikeStart_append_of_none hquery hfits hnext, hsome]
          rfl
        have hagain := findFirst_self separate_uriLikePatterns hfound
        refine ⟨rest, hrest.ne_nil urls hagain, ?_⟩
        have hspan := Scans.span hfirst (hend ▸ hrest)
        rwa [hend, slice_self, slice_append_add hlt.le] at hspan
    | some found =>
      obtain ⟨hle, ⟨p', hp', -, hbegins'⟩, -⟩ := findFirst_eq_some hnext
      have hlt' : found.1 < u.length := lt_length_of_begins ⟨p', hp', hbegins'⟩
      have hagain := findFirst_self separate_uriLikePatterns hnext
      obtain ⟨shown, last, hlast, hscans⟩ := ih (u.length - found.1) (by omega) hagain rfl
      refine ⟨redactUriForLogs deps (slice u start found.1) ++ shown, last, hlast,
        fun q hquery hq ↦ ?_⟩
      have hfirst := findUriLikeStart_append_of_some hquery hstart
      have hend := uriLikeSpanEnd_eq (hplain hq) (toAsciiLowercase (u ++ q)) start len
      rw [findUriLikeStart_append_of_some hquery hnext, Option.map_some,
        Option.getD_some] at hend
      obtain ⟨hnone, hsome⟩ := hscans q hquery hq
      constructor
      · intro hq
        have hspan := Scans.span hfirst (hend ▸ hnone hq)
        rwa [hend, slice_self, slice_append_of_le hlt.le hlt'.le, List.nil_append,
          ← List.append_assoc] at hspan
      · intro i k hq
        obtain ⟨rest, hne, hrest⟩ := hsome i k hq
        refine ⟨rest, hne, ?_⟩
        have hspan := Scans.span hfirst (hend ▸ hrest)
        rwa [hend, slice_self, slice_append_of_le hlt.le hlt'.le, List.nil_append,
          ← List.append_assoc, ← List.append_assoc] at hspan

end Query

/-! ## Words -/

theorem splitInclusive_eq_singleton {p : Char → Bool} {t : Text} (hne : t ≠ [])
    (h : ∀ c ∈ t, p c = false) : splitInclusive p t = [t] := by
  induction t with
  | nil => exact absurd rfl hne
  | cons c t ih =>
    rw [List.forall_mem_cons] at h
    rw [splitInclusive, if_neg (by simp [h.1])]
    cases t with
    | nil => rfl
    | cons d t => rw [ih (List.cons_ne_nil d t) h.2]

theorem redactUriLikeTextForLogs_word (deps : Dependencies) {t : Text} (hne : t ≠ [])
    (h : ∀ c ∈ t, isWhitespace c = false) :
    redactUriLikeTextForLogs deps t = redactUriLikeTokenForLogs deps t := by
  have hlast : ¬ isWhitespace (t.getLast hne) = true := by
    simp [h _ (List.getLast_mem hne)]
  rw [redactUriLikeTextForLogs, splitInclusive_eq_singleton hne h]
  simp only [List.map_cons, List.map_nil, List.flatten_cons, List.flatten_nil, List.append_nil]
  rw [List.rdropWhile_eq_self_iff.mpr fun _ ↦ hlast, List.rtakeWhile_eq_nil_iff.mpr fun _ ↦ hlast,
    List.append_nil]

end Reqx
