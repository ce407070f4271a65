import Reqx.Library.Splitting

/-!
# Queries of request paths

`append_query` adds an encoded query to a path text that may have a query and a
fragment already. A path text has three parts, and only the query changes.
-/

namespace Reqx

open Text

/-! ## The code -/

/-- What is pushed between a path without its fragment and the new query. -/
def querySeparator (path : Text) : Text :=
  match splitOnce '?' path with
  | none => ['?']
  | some (_, query) => if !query.isEmpty && query.getLast? ≠ some '&' then ['&'] else []

def appendQuery (path query : Text) : Text :=
  if query.isEmpty then path
  else
    let fragment := path.dropWhile (· ≠ '#')
    let path := path.takeWhile (· ≠ '#')
    path ++ querySeparator path ++ query ++ fragment

/-! ## The parts of a path text -/

@[ext] structure PathText where
  before : Text
  query : Option Text
  fragment : Text
  before_clean : '?' ∉ before ∧ '#' ∉ before
  query_clean : ∀ q ∈ query, '#' ∉ q
  fragment_head : ∀ c ∈ fragment.head?, c = '#'

namespace PathText

def withoutFragment (p : PathText) : Text := p.before ++ (p.query.map (List.cons '?')).getD []

def text (p : PathText) : Text := p.withoutFragment ++ p.fragment

theorem hash_notMem_withoutFragment (p : PathText) : '#' ∉ p.withoutFragment := by
  have hquery := p.query_clean
  unfold withoutFragment
  cases hcase : p.query with
  | none => simpa using p.before_clean.2
  | some q =>
    have hq : '#' ∉ q := hquery q hcase
    simp [p.before_clean.2, hq]

theorem takeWhile_text (p : PathText) : p.text.takeWhile (· ≠ '#') = p.withoutFragment := by
  unfold text
  cases hcase : p.fragment with
  | nil => rw [List.append_nil, takeWhile_ne_eq_self p.hash_notMem_withoutFragment]
  | cons c fragment =>
    obtain rfl : c = '#' := p.fragment_head c (by rw [hcase]; rfl)
    exact takeWhile_ne_append p.hash_notMem_withoutFragment fragment

theorem dropWhile_text (p : PathText) : p.text.dropWhile (· ≠ '#') = p.fragment := by
  have hwhole : p.text.takeWhile (· ≠ '#') ++ p.text.dropWhile (· ≠ '#') = p.text :=
    List.takeWhile_append_dropWhile
  rw [takeWhile_text] at hwhole
  exact List.append_cancel_left hwhole

theorem splitOnce_withoutFragment (p : PathText) :
    splitOnce '?' p.withoutFragment = p.query.map fun q ↦ (p.before, q) := by
  unfold withoutFragment
  cases p.query with
  | none =>
    rw [Option.map_none, Option.getD_none, List.append_nil,
      splitOnce_eq_none p.before_clean.1]
    rfl
  | some q => exact splitOnce_append p.before_clean.1 q

/-- The parts of any text. -/
def ofText (t : Text) : PathText where
  before := (t.takeWhile (· ≠ '#')).takeWhile (· ≠ '?')
  query := (splitOnce '?' (t.takeWhile (· ≠ '#'))).map Prod.snd
  fragment := t.dropWhile (· ≠ '#')
  before_clean := ⟨notMem_takeWhile_ne _ _, fun h ↦
    notMem_takeWhile_ne '#' t ((List.takeWhile_prefix _).subset h)⟩
  query_clean := by
    intro q hq hhash
    obtain ⟨⟨a, b⟩, hsplit, rfl⟩ := Option.map_eq_some_iff.mp hq
    refine notMem_takeWhile_ne '#' t ?_
    rw [(splitOnce_eq_some hsplit).1]
    exact List.mem_append_right _ (List.mem_cons_of_mem _ hhash)
  fragment_head := by
    intro c hc
    rw [← List.find?_not_eq_head?_dropWhile] at hc
    simpa using List.find?_some hc

theorem text_ofText (t : Text) : (ofText t).text = t := by
  have hwithout : (ofText t).withoutFragment = t.takeWhile (· ≠ '#') := by
    unfold withoutFragment ofText
    dsimp only
    cases hsplit : splitOnce '?' (t.takeWhile (· ≠ '#')) with
    | none =>
      have hplain : '?' ∉ t.takeWhile (· ≠ '#') := splitOnce_eq_none_iff.mp hsplit
      rw [Option.map_none, Option.map_none, Option.getD_none, List.append_nil,
        takeWhile_ne_eq_self hplain]
    | some parts =>
      obtain ⟨heq, hfirst⟩ := splitOnce_eq_some hsplit
      rw [heq, takeWhile_ne_append hfirst]
      rfl
  rw [text, hwithout]
  exact List.takeWhile_append_dropWhile

theorem ofText_text (p : PathText) : ofText p.text = p := by
  have hbefore : p.withoutFragment.takeWhile (· ≠ '?') = p.before := by
    unfold withoutFragment
    cases p.query with
    | none =>
      rw [Option.map_none, Option.getD_none, List.append_nil,
        takeWhile_ne_eq_self p.before_clean.1]
    | some q => exact takeWhile_ne_append p.before_clean.1 q
  have hquery : (splitOnce '?' p.withoutFragment).map Prod.snd = p.query := by
    rw [splitOnce_withoutFragment]
    cases p.query <;> rfl
  rw [← takeWhile_text] at hbefore hquery
  exact PathText.ext hbefore hquery p.dropWhile_text

/-! ## The new query -/

/-- A query behind the old one. -/
def joinQuery (old : Option Text) (new : Text) : Text :=
  match old with
  | none => new
  | some old => if old = [] ∨ old.getLast? = some '&' then old ++ new else old ++ '&' :: new

theorem hash_notMem_joinQuery {old : Option Text} {new : Text} (hold : ∀ q ∈ old, '#' ∉ q)
    (hnew : '#' ∉ new) : '#' ∉ joinQuery old new := by
  cases old with
  | none => exact hnew
  | some old =>
    have hold' : '#' ∉ old := hold old rfl
    unfold joinQuery
    dsimp only
    split <;> simp [hold', hnew]

def append (p : PathText) (new : Text) (hnew : '#' ∉ new) : PathText where
  before := p.before
  query := some (joinQuery p.query new)
  fragment := p.fragment
  before_clean := p.before_clean
  query_clean := by
    rintro q ⟨⟩
    exact hash_notMem_joinQuery p.query_clean hnew
  fragment_head := p.fragment_head

/-- The code appends to the query and leaves the other parts alone. -/
theorem appendQuery_text (p : PathText) {new : Text} (hne : new ≠ []) (hnew : '#' ∉ new) :
    appendQuery p.text new = (p.append new hnew).text := by
  have hseparator : p.withoutFragment ++ querySeparator p.withoutFragment ++ new =
      p.before ++ '?' :: joinQuery p.query new := by
    rw [querySeparator, splitOnce_withoutFragment, withoutFragment]
    cases p.query with
    | none => simp [joinQuery]
    | some old =>
      by_cases hempty : old = []
      · simp [joinQuery, hempty]
      · by_cases hlast : old.getLast? = some '&'
        · simp [joinQuery, hempty, hlast]
        · simp [joinQuery, hempty, hlast]
  have hempty : ¬ new.isEmpty = true := by simpa using hne
  unfold appendQuery
  rw [if_neg hempty, dropWhile_text, takeWhile_text]
  dsimp only
  rw [hseparator]
  rfl

end PathText

/-- The items of a query that are not empty. -/
def queryItems (query : Text) : List Text := (split '&' query).filter (· ≠ [])

theorem queryItems_append_cons (a b : Text) :
    queryItems (a ++ '&' :: b) = queryItems a ++ queryItems b := by
  rw [queryItems, split_append_cons, List.filter_append]
  rfl

theorem queryItems_nil : queryItems [] = [] := by decide

theorem queryItems_joinQuery (old : Option Text) (new : Text) :
    queryItems (PathText.joinQuery old new) = queryItems (old.getD []) ++ queryItems new := by
  cases old with
  | none => rfl
  | some old =>
    unfold PathText.joinQuery
    dsimp only
    rw [Option.getD_some]
    split
    next hends =>
      rcases hends with rfl | hlast
      · rfl
      · -- The last separator of the old query stands before the new one.
        obtain ⟨start, rfl⟩ := List.getLast?_eq_some_iff.mp hlast
        rw [List.append_assoc, List.singleton_append, queryItems_append_cons,
          queryItems_append_cons, queryItems_nil, List.append_nil]
    · exact queryItems_append_cons old new

theorem joinQuery_joinQuery (old : Option Text) {first second : Text} (hfirst : first ≠ [])
    (hlast : first.getLast? ≠ some '&') :
    PathText.joinQuery (some (PathText.joinQuery old first)) second =
      PathText.joinQuery old (first ++ '&' :: second) := by
  have hend (start : Text) : (start ++ first).getLast? = first.getLast? :=
    List.getLast?_append_of_ne_nil _ hfirst
  have hne (start : Text) : start ++ first ≠ [] := List.append_ne_nil_of_right_ne_nil _ hfirst
  cases old with
  | none => simp [PathText.joinQuery, hfirst, hlast]
  | some old =>
    by_cases hopen : old = [] ∨ old.getLast? = some '&'
    · simp only [PathText.joinQuery, if_pos hopen]
      rw [if_neg (by rw [hend]; exact not_or.mpr ⟨hne old, hlast⟩), List.append_assoc]
    · simp only [PathText.joinQuery, if_neg hopen]
      have hparts : old ++ '&' :: first = (old ++ ['&']) ++ first := by simp
      rw [hparts, if_neg (by rw [hend]; exact not_or.mpr ⟨hne _, hlast⟩)]
      simp

/-- Appending changes the query only, adds its items behind the old ones, and two queries may be
appended one after the other or at once. -/
theorem append_query_laws :
    (∀ path query : Text, '#' ∉ query →
      (PathText.ofText (appendQuery path query)).before = (PathText.ofText path).before ∧
      (PathText.ofText (appendQuery path query)).fragment = (PathText.ofText path).fragment ∧
      queryItems ((PathText.ofText (appendQuery path query)).query.getD []) =
        queryItems ((PathText.ofText path).query.getD []) ++ queryItems query) ∧
    (∀ path : Text, appendQuery path [] = path) ∧
    ∀ path first second : Text, first ≠ [] → second ≠ [] → '#' ∉ first → '#' ∉ second →
      first.getLast? ≠ some '&' →
      appendQuery (appendQuery path first) second = appendQuery path (first ++ '&' :: second) := by
  refine ⟨?_, fun path ↦ rfl, ?_⟩
  · intro path query hquery
    by_cases hempty : query = []
    · subst hempty
      exact ⟨rfl, rfl, (List.append_nil _).symm⟩
    · obtain ⟨p, rfl⟩ : ∃ p : PathText, p.text = path := ⟨_, PathText.text_ofText path⟩
      rw [p.appendQuery_text hempty hquery, PathText.ofText_text, PathText.ofText_text]
      exact ⟨rfl, rfl, queryItems_joinQuery p.query query⟩
  · intro path first second hfirst hsecond hhash hhash' hlast
    obtain ⟨p, rfl⟩ : ∃ p : PathText, p.text = path := ⟨_, PathText.text_ofText path⟩
    have hjoined : '#' ∉ first ++ '&' :: second := by simp [hhash, hhash']
    rw [p.appendQuery_text hfirst hhash, PathText.appendQuery_text _ hsecond hhash',
      p.appendQuery_text (by simp) hjoined]
    unfold PathText.append
    simp only [PathText.text, PathText.withoutFragment, joinQuery_joinQuery p.query hfirst hlast]

example : appendQuery "/v1?q=?#fragment?".toList "next=a+b%2Bc".toList =
    "/v1?q=?&next=a+b%2Bc#fragment?".toList := by decide

end Reqx
