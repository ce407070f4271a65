import Reqx.Core.LogTexts
import Reqx.Driver.RequestTexts

/-!
# Queries in log texts

What a log shows of a word that is an HTTP URL with a query or a fragment. Nothing
behind the first `?` or `#` is shown, unless a further scheme begins there.
-/

namespace Reqx

open Text

/-- A word that is an HTTP URL with a query or a fragment. -/
structure UriToken (t : Text) : Prop where
  scheme : "http://".toList <+: t ∨ "https://".toList <+: t
  plain : ∀ c ∈ t, isWhitespace c = false ∧ isSpanSeparator c = false
  query : ∃ c ∈ t, startsQuery c = true

def queryPart (t : Text) : Text := t.dropWhile fun c ↦ c ≠ '?' ∧ c ≠ '#'

/-- No scheme begins in the text, in any letter case. -/
def NamesNoUri (t : Text) : Prop := ∀ p ∈ uriLikePatterns, ¬ p <:+: toAsciiLowercase t

/-- The words are alike up to the first `?` or `#` and end in the same punctuation. -/
structure AlikeBeforeQuery (t t' : Text) : Prop where
  before : stripQueryAndFragment t' = stripQueryAndFragment t
  trailing : t'.rtakeWhile isTrailingPunctuation = t.rtakeWhile isTrailingPunctuation

variable {deps : Dependencies} {t : Text}

theorem namesNoUri_iff : NamesNoUri t ↔ findUriLikeStart (toAsciiLowercase t) 0 = none := by
  simp only [findUriLikeStart, findFirst_eq_none_iff, NamesNoUri, Slices.infix_iff_prefix_drop,
    Begins, Nat.zero_le, true_implies, not_exists, not_and]
  exact ⟨fun h i p hp ↦ h p hp i, fun h p hp i ↦ h i p hp⟩

/-! ## The parts of a word -/

theorem strip_append_queryPart (t : Text) : stripQueryAndFragment t ++ queryPart t = t :=
  List.takeWhile_append_dropWhile

/-- A word is cut into the part before its query, the query, and the punctuation behind it. -/
theorem UriToken.parts (h : UriToken t) :
    ∃ q, IsQuery q ∧
      t.rdropWhile isTrailingPunctuation = stripQueryAndFragment t ++ q ∧
        queryPart t = q ++ t.rtakeWhile isTrailingPunctuation := by
  have hwhole := strip_append_queryPart t
  cases hquery : queryPart t with
  | nil =>
    obtain ⟨c, hc, hstarts⟩ := h.query
    have hkept := List.dropWhile_eq_nil_iff.mp hquery c hc
    rw [startsQuery, decide_eq_true_iff] at hstarts
    rw [decide_eq_true_iff] at hkept
    exact absurd hstarts (not_or.mpr hkept)
  | cons c r =>
    have hstarts : c = '?' ∨ c = '#' := by
      have hhead : (queryPart t).head? = some c := by
        rw [hquery]
        rfl
      rw [queryPart, ← List.find?_not_eq_head?_dropWhile] at hhead
      simpa [or_iff_not_imp_left] using List.find?_some hhead
    have hplain : isTrailingPunctuation c = false := by
      rcases hstarts with rfl | rfl <;> decide
    refine ⟨c :: r.rdropWhile isTrailingPunctuation, ⟨c, rfl, decide_eq_true hstarts⟩, ?_, ?_⟩
    · conv_lhs => rw [← hwhole, hquery]
      exact rdropWhile_append_cons _ hplain r
    · conv_rhs => rw [← hwhole, hquery]
      rw [rtakeWhile_append_cons _ hplain, List.cons_append,
        List.rdropWhile_append_rtakeWhile]

theorem UriToken.ne_nil (h : UriToken t) : t ≠ [] := by
  obtain ⟨c, hc, -⟩ := h.query
  exact List.ne_nil_of_mem hc

theorem UriToken.prefix_strip (h : UriToken t) {p : Text} (hquery : '?' ∉ p) (hfragment : '#' ∉ p)
    (hp : p <+: t) : p <+: stripQueryAndFragment t := by
  obtain ⟨q, ⟨d, hd, hstarts⟩, -, hpart⟩ := h.parts
  have hhead : ∀ c ∈ (queryPart t).head?, c ∉ p := by
    obtain ⟨q, rfl⟩ := List.head?_eq_some_iff.mp hd
    intro c hc
    rw [hpart] at hc
    cases hc
    rcases of_decide_eq_true hstarts with rfl | rfl
    · exact hquery
    · exact hfragment
  rwa [← strip_append_queryPart t, prefix_append_iff hhead] at hp

/-- The first span begins with the word. -/
theorem UriToken.findUriLikeStart_eq (h : UriToken t) :
    ∃ len, findUriLikeStart (toAsciiLowercase (stripQueryAndFragment t)) 0 =
      some (0, len) := by
  obtain ⟨p, hp, hstart⟩ : ∃ p ∈ uriLikePatterns, p <+: t :=
    h.scheme.elim (fun h ↦ ⟨_, by decide, h⟩) (fun h ↦ ⟨_, by decide, h⟩)
  have hclean : ∀ p ∈ uriLikePatterns, '?' ∉ p ∧ '#' ∉ p ∧ toAsciiLowercase p = p := by
    decide
  obtain ⟨hquery, hfragment, hlower⟩ := hclean p hp
  refine ⟨p.length, (findFirst_eq_some_iff separate_uriLikePatterns).mpr
    ⟨Nat.le_refl 0, ⟨p, hp, rfl, ?_⟩, fun j _ hj ↦ absurd hj (Nat.not_lt_zero j)⟩⟩
  have hmap := (h.prefix_strip hquery hfragment hstart).map Char.toLower
  rwa [← toAsciiLowercase, ← toAsciiLowercase, hlower] at hmap

theorem UriToken.redactUriLikeTextForLogs_eq (h : UriToken t) (deps : Dependencies) :
    redactUriLikeTextForLogs deps t =
      redactUriLikeCoreForLogs deps (t.rdropWhile isTrailingPunctuation) ++
        t.rtakeWhile isTrailingPunctuation := by
  obtain ⟨c, r, rfl, hc⟩ : ∃ c r, t = c :: r ∧ isLeadingPunctuation c = false := by
    rcases h.scheme with ⟨r, rfl⟩ | ⟨r, rfl⟩
    · exact ⟨_, _, rfl, by decide⟩
    · exact ⟨_, _, rfl, by decide⟩
  obtain ⟨q, hq, hcore, -⟩ := h.parts
  obtain ⟨len, hfound⟩ := h.findUriLikeStart_eq
  have hfound' := findUriLikeStart_append_of_some hq hfound
  rw [← hcore] at hfound'
  have hleading : (c :: r).takeWhile isLeadingPunctuation = [] :=
    List.takeWhile_cons_of_neg (by simp [hc])
  have hwithout : (c :: r).dropWhile isLeadingPunctuation = c :: r :=
    List.dropWhile_cons_of_neg (by simp [hc])
  rw [redactUriLikeTextForLogs_word deps h.ne_nil fun d hd ↦ (h.plain d hd).1,
    redactUriLikeTokenForLogs, hleading, hwithout, hfound', if_neg (by simp), List.nil_append]

/-- Punctuation names no URI and continues none. -/
theorem UriToken.namesNoUri_queryPart {q : Text}
    (hquery : queryPart t = q ++ t.rtakeWhile isTrailingPunctuation) :
    NamesNoUri (queryPart t) ↔ findUriLikeStart (toAsciiLowercase q) 0 = none := by
  have hother : ∀ c ∈ toAsciiLowercase (t.rtakeWhile isTrailingPunctuation),
      ∀ p ∈ uriLikePatterns, c ∉ p := by
    intro c hc p hp
    obtain ⟨d, hd, rfl⟩ := List.mem_map.mp hc
    have htrailing : isTrailingPunctuation d = true := List.mem_rtakeWhile_imp hd
    have hlower : d.toLower = d := by
      simp only [isTrailingPunctuation, decide_eq_true_eq, List.mem_cons, List.not_mem_nil,
        or_false] at htrailing
      rcases htrailing with rfl | rfl | rfl | rfl | rfl | rfl | rfl | rfl <;> rfl
    have hscheme : ∀ p ∈ uriLikePatterns, ∀ c ∈ p, isTrailingPunctuation c = false := by
      simp [uriLikePatterns, isTrailingPunctuation]
    rw [hlower]
    intro hmem
    exact Bool.false_ne_true ((hscheme p hp d hmem).symm.trans htrailing)
  rw [namesNoUri_iff, hquery, toAsciiLowercase_append]
  cases hfound : findUriLikeStart (toAsciiLowercase q) 0 with
  | none =>
    have hnone : findFirst uriLikePatterns
        (toAsciiLowercase (t.rtakeWhile isTrailingPunctuation)) 0 = none :=
      findFirst_eq_none_of_notMem nil_notMem_uriLikePatterns hother
    have happend := findFirst_append_of_none separate_uriLikePatterns
      (fun c hc ↦ hother c (List.mem_of_mem_head? hc)) (Nat.zero_le _) hfound
    rw [hnone] at happend
    exact iff_of_true happend rfl
  | some found =>
    have happend := findFirst_append_of_some separate_uriLikePatterns
      nil_notMem_uriLikePatterns (fun c hc ↦ hother c (List.mem_of_mem_head? hc)) hfound
    exact iff_of_false (by rw [findUriLikeStart, happend]; simp) (by simp)

/-! ## What is shown -/

/-- Words that are alike before the query are shown alike, up to the URIs that the query names. -/
theorem UriToken.exists_shown (urls : deps.Queries) (ht : UriToken t) :
    ∃ shown, ∀ t', UriToken t' → stripQueryAndFragment t' = stripQueryAndFragment t →
      (NamesNoUri (queryPart t') → redactUriLikeTextForLogs deps t' =
        shown ++ t'.rtakeWhile isTrailingPunctuation) ∧
      (¬ NamesNoUri (queryPart t') → ∃ rest ≠ [], redactUriLikeTextForLogs deps t' =
        shown ++ rest ++ t'.rtakeWhile isTrailingPunctuation) := by
  obtain ⟨hclean₁, hclean₂⟩ := notMem_stripQueryAndFragment t
  obtain ⟨len, hfirst⟩ := ht.findUriLikeStart_eq
  have hplain : ∀ c ∈ stripQueryAndFragment t, isSpanSeparator c = false := fun c hc ↦
    (ht.plain c ((List.takeWhile_sublist _).subset hc)).2
  obtain ⟨shown, last, hlast, hscans⟩ := exists_scans_append urls hplain hfirst
  have hmark : IsQuery ['?'] := ⟨'?', rfl, rfl⟩
  have hany {q : Text} (hq : IsQuery q) :
      redactUriForLogs deps (last ++ q) = redactUriForLogs deps (last ++ ['?']) :=
    redactUriForLogs_query urls (fun h ↦ hclean₁ (hlast.subset h))
      (fun h ↦ hclean₂ (hlast.subset h)) hq hmark
  refine ⟨shown ++ redactUriForLogs deps (last ++ ['?']), fun t' ht' hbefore ↦ ?_⟩
  obtain ⟨q, hq, hcore, hquery⟩ := ht'.parts
  have hq' : ∀ c ∈ q, isSpanSeparator c = false := by
    intro c hc
    have hmem : c ∈ queryPart t' := hquery ▸ List.mem_append_left _ hc
    exact (ht'.plain c ((List.dropWhile_sublist _).subset hmem)).2
  obtain ⟨hnone, hsome⟩ := hscans q hq hq'
  rw [ht'.redactUriLikeTextForLogs_eq, hcore, hbefore, UriToken.namesNoUri_queryPart hquery]
  constructor
  · intro hnames
    rw [(hnone hnames).core_eq, hany hq]
  · intro hnames
    obtain ⟨⟨i, k⟩, hfound⟩ := Option.ne_none_iff_exists'.mp hnames
    obtain ⟨rest, hne, hrest⟩ := hsome i k hfound
    refine ⟨rest, hne, ?_⟩
    -- The query is cut behind its first character at the earliest.
    have hcut : IsQuery (q.take i) := by
      obtain ⟨d, hd, hstarts⟩ := hq
      obtain ⟨-, ⟨p, hp, -, hbegins⟩, -⟩ := findFirst_eq_some hfound
      obtain ⟨c, hc, hother⟩ := head_of_begins ⟨p, hp, hbegins⟩
      refine ⟨d, ?_, hstarts⟩
      cases i with
      | zero =>
        rw [← List.head?_eq_getElem?, hd] at hc
        cases hc
        rw [hstarts] at hother
        cases hother
      | succ i => rwa [List.head?_take, if_neg (Nat.succ_ne_zero i)]
    rw [hrest.core_eq, hany hcut]

/-- The word with an empty query. -/
theorem UriToken.exists_empty_query (ht : UriToken t) :
    ∃ t', UriToken t' ∧ AlikeBeforeQuery t t' ∧ NamesNoUri (queryPart t') := by
  set u := stripQueryAndFragment t with hu
  set punctuation := t.rtakeWhile isTrailingPunctuation with hpunctuation
  obtain ⟨hquery, hfragment⟩ := notMem_stripQueryAndFragment t
  have hmark : IsQuery ('?' :: punctuation) := ⟨'?', rfl, rfl⟩
  have hstrip : stripQueryAndFragment (u ++ '?' :: punctuation) = u :=
    hmark.stripQueryAndFragment_append hquery hfragment
  have htrailing : (u ++ '?' :: punctuation).rtakeWhile isTrailingPunctuation = punctuation := by
    rw [rtakeWhile_append_cons u (by decide), hpunctuation, List.rtakeWhile_idempotent]
  have hpart : queryPart (u ++ '?' :: punctuation) = ['?'] ++ punctuation := by
    have hwhole := strip_append_queryPart (u ++ '?' :: punctuation)
    rwa [hstrip, List.append_cancel_left_eq] at hwhole
  refine ⟨u ++ '?' :: punctuation, ⟨?_, ?_, '?', by simp, rfl⟩, ⟨hstrip, htrailing⟩, ?_⟩
  · refine ht.scheme.imp ?_ ?_ <;>
    · intro hstart
      exact (ht.prefix_strip (by decide) (by decide) hstart).trans (List.prefix_append _ _)
  · simp only [List.forall_mem_append, List.forall_mem_cons]
    exact ⟨fun c hc ↦ ht.plain c ((List.takeWhile_sublist _).subset hc), ⟨by decide, by decide⟩,
      fun c hc ↦ ht.plain c (List.rtakeWhile_suffix _ _ |>.subset hc)⟩
  · rw [UriToken.namesNoUri_queryPart (q := ['?']) (by rw [hpart, htrailing])]
    decide

/-- A word is shown like every other one that is alike before the query and names no URI in its
query, if and only if its own query names no URI. -/
theorem log_redaction_hides_query_iff (urls : deps.Queries) (ht : UriToken t) :
    (∀ t', UriToken t' → AlikeBeforeQuery t t' → NamesNoUri (queryPart t') →
      redactUriLikeTextForLogs deps t = redactUriLikeTextForLogs deps t') ↔
        NamesNoUri (queryPart t) := by
  obtain ⟨shown, hshown⟩ := ht.exists_shown urls
  obtain ⟨hnone, hsome⟩ := hshown t ht rfl
  refine ⟨fun hsame ↦ ?_, fun hnames t' ht' halike hnames' ↦ ?_⟩
  · by_contra hnames
    obtain ⟨rest, hne, hrest⟩ := hsome hnames
    obtain ⟨t', ht', halike, hnames'⟩ := ht.exists_empty_query
    have hequal := hsame t' ht' halike hnames'
    rw [hrest, (hshown t' ht' halike.before).1 hnames', halike.trailing, List.append_assoc,
      List.append_cancel_left_eq] at hequal
    exact hne (List.append_left_eq_self.mp hequal)
  · rw [hnone hnames, (hshown t' ht' halike.before).1 hnames', halike.trailing]

namespace RequestTexts

open Driver.Sample (parsers known knownUrls)

theorem queries_parsers : parsers.Queries where
  parts {v q q'} hquery hfragment hq hq' := by
    have hparts {q : Text} (hq : IsQuery q) : (parsers.parseUrl (v ++ q)).map
        (fun url ↦ (url.scheme, url.hostStr, clearedUrl parsers url)) = (known knownUrls v).map
          fun url ↦ (url.scheme, url.hostStr, clearedUrl parsers url) := by
      change ((known knownUrls (stripQueryAndFragment (v ++ q))).map _).map _ = _
      rw [hq.stripQueryAndFragment_append hquery hfragment, Option.map_map]
      rfl
    rw [hparts hq, hparts hq']
  cleared_ne_nil hparse := by
    have htable : ∀ entry ∈ knownUrls, (clearedUrl parsers entry.2).text ≠ [] := by decide +kernel
    obtain ⟨known, hknown, -, -, hcleared⟩ := exists_known_of_parseUrl hparse
    rw [hcleared]
    exact htable (_, known) hknown
  setPath_ne_nil h := h

end RequestTexts

open RequestTexts
open Driver.Sample (parsers)

theorem log_redaction_hides_query :
    (∀ t', UriToken t' → AlikeBeforeQuery "http://a.test/x?token=secret".toList t' →
      NamesNoUri (queryPart t') →
        redactUriLikeTextForLogs parsers "http://a.test/x?token=secret".toList =
          redactUriLikeTextForLogs parsers t') ↔
      NamesNoUri (queryPart "http://a.test/x?token=secret".toList) :=
  log_redaction_hides_query_iff queries_parsers
    ⟨.inl (by decide), by simp [isWhitespace, isSpanSeparator], '?', by decide, rfl⟩

theorem log_redaction_shows_query :
    UriToken "http://a.test/x?next=http://b.test/secret".toList ∧
      UriToken "http://a.test/x?next=".toList ∧
      AlikeBeforeQuery "http://a.test/x?next=http://b.test/secret".toList
        "http://a.test/x?next=".toList ∧
      redactUriLikeTextForLogs parsers "http://a.test/x?next=http://b.test/secret".toList =
        "http://a.test/xhttp://b.test/secret".toList ∧
      redactUriLikeTextForLogs parsers "http://a.test/x?next=".toList =
        "http://a.test/x".toList :=
  ⟨⟨.inl (by decide), by simp [isWhitespace, isSpanSeparator], '?', by decide, rfl⟩,
    ⟨.inl (by decide), by simp [isWhitespace, isSpanSeparator], '?', by decide, rfl⟩,
    ⟨by decide +kernel, by decide +kernel⟩, by decide +kernel, by decide +kernel⟩

end Reqx
