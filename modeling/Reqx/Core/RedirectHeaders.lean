import Reqx.Core.Redirect

/-!
# Which headers follow a redirect

All that `sanitize_headers_for_redirect` does is to keep some names with all their
values. The names it removes are partly read off the map that it changes.
-/

namespace MultiMap

variable {κ ν : Type*}

/-- The values of the keys with a property. -/
def keep (q : κ → Bool) (m : MultiMap κ ν) : MultiMap κ ν := ⟨m.entries.filter fun p ↦ q p.1⟩

@[simp] theorem mem_keep {q : κ → Bool} {m : MultiMap κ ν} {p : κ × ν} :
    p ∈ m.keep q ↔ p ∈ m ∧ q p.1 = true := by
  simp [mem_def, keep]

theorem keep_keep (q r : κ → Bool) (m : MultiMap κ ν) :
    (m.keep q).keep r = m.keep fun k ↦ q k && r k := by
  simp [keep, List.filter_filter, Bool.and_comm]

theorem keep_congr {q r : κ → Bool} {m : MultiMap κ ν} (h : ∀ p ∈ m, q p.1 = r p.1) :
    m.keep q = m.keep r := by
  rw [keep, keep, List.filter_congr h]

variable [DecidableEq κ]

theorem remove_eq_keep (m : MultiMap κ ν) (k : κ) : m.remove k = m.keep (· ≠ k) := rfl

theorem removeAll_eq_keep (m : MultiMap κ ν) (ks : List κ) : m.removeAll ks = m.keep (· ∉ ks) := by
  induction ks generalizing m with
  | nil => simp [removeAll, keep]
  | cons k ks ih =>
    have hstep : m.removeAll (k :: ks) = (m.remove k).removeAll ks := rfl
    rw [hstep, ih, remove_eq_keep, keep_keep]
    simp [keep]

theorem getAll_keep (q : κ → Bool) (m : MultiMap κ ν) (k : κ) :
    (m.keep q).getAll k = if q k then m.getAll k else [] := by
  simp only [getAll, keep, List.filter_filter]
  split_ifs with hq
  · congr 1
    apply List.filter_congr
    rintro ⟨k', v⟩ _
    by_cases hk : k' = k
    · simp [hk, hq]
    · simp [hk]
  · rw [List.map_eq_nil_iff, List.filter_eq_nil_iff]
    rintro ⟨k', v⟩ _
    by_cases hk : k' = k
    · simp [hk, hq]
    · simp [hk]

end MultiMap

namespace Reqx

def hopByHopHeaders : List HeaderName :=
  [.connection, .keepAlive, .proxyConnection, .te, .trailer, .transferEncoding, .upgrade]

section Filter

variable (deps : Dependencies) (headers : HeaderMap) (dropsBody sameOriginRedirect : Bool)

def keptByRedirect (name : HeaderName) : Bool :=
  decide (name ∉ connectionScopedHeaders deps headers) && decide (name ∉ hopByHopHeaders) &&
    decide (name ≠ .host) && (!dropsBody || decide (name ∉ bodyHeaders)) &&
    (sameOriginRedirect || decide (name ∉ [.authorization, .cookie]) &&
      decide (name ∉ sensitiveHeaders headers)) && decide (name ≠ .proxyAuthorization)

variable {headers}

/-- Names lose all their values or none, so the names that are left when the sensitive ones
are looked for are sensitive if they were from the start. -/
theorem mem_sensitiveHeaders_keep {q : HeaderName → Bool} {name : HeaderName} :
    name ∈ sensitiveHeaders (headers.keep q) ↔
      q name = true ∧ name ∈ sensitiveHeaders headers := by
  simp only [mem_sensitiveHeaders, MultiMap.mem_keep]
  constructor
  · rintro ⟨value, ⟨hmem, hq⟩, hsensitive⟩
    exact ⟨hq, value, hmem, hsensitive⟩
  · rintro ⟨hq, value, hmem, hsensitive⟩
    exact ⟨value, ⟨hmem, hq⟩, hsensitive⟩

theorem removeCredentials_keep (q : HeaderName → Bool) :
    removeCredentials (headers.keep q) = headers.keep fun name ↦ q name &&
      (decide (name ∉ [.authorization, .cookie]) && decide (name ∉ sensitiveHeaders headers)) := by
  unfold removeCredentials
  rw [MultiMap.removeAll_eq_keep, MultiMap.removeAll_eq_keep, MultiMap.keep_keep,
    MultiMap.keep_keep]
  apply MultiMap.keep_congr
  rintro ⟨name, value⟩ _
  simp only [mem_sensitiveHeaders_keep]
  cases q name <;> by_cases hname : name ∈ [HeaderName.authorization, .cookie] <;> simp [hname]

variable (headers)

theorem sanitizeHeadersForRedirect_eq_keep :
    sanitizeHeadersForRedirect deps headers dropsBody sameOriginRedirect =
      headers.keep (keptByRedirect deps headers dropsBody sameOriginRedirect) := by
  have hhop : (removeHopByHopRedirectHeaders deps headers).remove .host = headers.keep fun name ↦
      decide (name ∉ connectionScopedHeaders deps headers) && decide (name ∉ hopByHopHeaders) &&
        decide (name ≠ .host) := by
    unfold removeHopByHopRedirectHeaders
    rw [MultiMap.remove_eq_keep, MultiMap.removeAll_eq_keep, MultiMap.removeAll_eq_keep,
      MultiMap.keep_keep, MultiMap.keep_keep]
    exact MultiMap.keep_congr fun _ _ ↦ (Bool.and_assoc _ _ _).symm
  unfold sanitizeHeadersForRedirect
  rw [hhop]
  cases dropsBody <;> cases sameOriginRedirect <;>
    simp only [MultiMap.removeAll_eq_keep, MultiMap.remove_eq_keep, MultiMap.keep_keep,
      removeCredentials_keep, Bool.false_eq_true, if_true, if_false] <;>
    exact MultiMap.keep_congr fun _ _ ↦ by simp [keptByRedirect]

/-- What a redirect removes for its own sake is not there the second time. -/
theorem keptByRedirect_keep {name : HeaderName}
    (h : keptByRedirect deps headers dropsBody sameOriginRedirect name = true) :
    keptByRedirect deps
      (headers.keep (keptByRedirect deps headers dropsBody sameOriginRedirect))
      dropsBody sameOriginRedirect name = true := by
  have hconnection : connectionScopedHeaders deps
      (headers.keep (keptByRedirect deps headers dropsBody sameOriginRedirect)) = [] := by
    have hgone : keptByRedirect deps headers dropsBody sameOriginRedirect .connection = false := by
      simp [keptByRedirect, hopByHopHeaders]
    unfold connectionScopedHeaders
    rw [MultiMap.getAll_keep, hgone]
    rfl
  have hsensitive : name ∈ sensitiveHeaders
      (headers.keep (keptByRedirect deps headers dropsBody sameOriginRedirect)) ↔
        name ∈ sensitiveHeaders headers := by
    rw [mem_sensitiveHeaders_keep, h]
    simp
  rw [keptByRedirect] at h ⊢
  simp only [hconnection, hsensitive, Bool.and_eq_true] at h ⊢
  exact ⟨⟨⟨⟨⟨by simp, h.1.1.1.1.2⟩, h.1.1.1.2⟩, h.1.1.2⟩, h.1.2⟩, h.2⟩

theorem sanitizeHeadersForRedirect_twice :
    sanitizeHeadersForRedirect deps
        (sanitizeHeadersForRedirect deps headers dropsBody sameOriginRedirect)
        dropsBody sameOriginRedirect =
      sanitizeHeadersForRedirect deps headers dropsBody sameOriginRedirect := by
  rw [sanitizeHeadersForRedirect_eq_keep, sanitizeHeadersForRedirect_eq_keep, MultiMap.keep_keep]
  apply MultiMap.keep_congr
  rintro ⟨name, value⟩ _
  by_cases hkept : keptByRedirect deps headers dropsBody sameOriginRedirect name = true
  · rw [hkept, keptByRedirect_keep _ _ _ _ hkept]
    rfl
  · rw [Bool.eq_false_iff.mpr hkept]
    rfl

end Filter

/-! ## The names in words -/

/-- What the documentation of `HeaderName::from_bytes` says: names are normalised to lower
case, so that the letter case of the bytes does not matter, and no name is empty. -/
structure Dependencies.HeaderNames (deps : Dependencies) : Prop where
  normalizes : ∀ bytes name, deps.headerNameFromBytes bytes = some name →
    name.text = Text.toAsciiLowercase bytes
  caseless : ∀ bytes bytes', Text.eqIgnoreAsciiCase bytes bytes' = true →
    deps.headerNameFromBytes bytes = deps.headerNameFromBytes bytes'
  nonempty : deps.headerNameFromBytes [] = none

/-- The texts that are the text of a header name. -/
def Dependencies.IsHeaderName (deps : Dependencies) (name : HeaderName) : Prop :=
  deps.headerNameFromBytes name.text = some name

/-- A textual `Connection` value lists the name between its commas, in any letter case. -/
def ListedByConnection (headers : HeaderMap) (name : HeaderName) : Prop :=
  ∃ value ∈ headers.getAll .connection, ∃ text, value.toStr = some text ∧
    ∃ token ∈ Text.split ',' text, Text.eqIgnoreAsciiCase (Text.trim token) name.text = true

def alwaysDropped : List HeaderName :=
  ["connection", "keep-alive", "proxy-connection", "te", "trailer", "transfer-encoding",
    "upgrade", "host", "proxy-authorization"].map HeaderName.ofString

theorem mem_alwaysDropped {name : HeaderName} : name ∈ alwaysDropped ↔
    name ∈ hopByHopHeaders ∨ name = .host ∨ name = .proxyAuthorization := by
  have hlist : alwaysDropped = hopByHopHeaders ++ [.host, .proxyAuthorization] := rfl
  rw [hlist, List.mem_append, List.mem_pair]

/-- The names that do not follow a redirect. -/
inductive RedirectDrops (headers : HeaderMap) (dropsBody sameOriginRedirect : Bool)
    (name : HeaderName) : Prop
  | always (h : name ∈ alwaysDropped)
  | listed (h : ListedByConnection headers name)
  | body (hbody : dropsBody = true) (h : name ∈ ["content-encoding", "content-length",
      "content-type", "content-digest", "content-md5", "digest", "expect"].map HeaderName.ofString)
  | credentials (horigin : sameOriginRedirect = false)
      (h : name ∈ ["authorization", "cookie"].map HeaderName.ofString)
  | sensitive (horigin : sameOriginRedirect = false) (value : HeaderValue)
      (hvalue : value ∈ headers.getAll name) (h : value.isSensitive = true)

variable {deps : Dependencies} {name : HeaderName}

theorem mem_connectionScopedHeaders (hdeps : deps.HeaderNames) (hname : deps.IsHeaderName name)
    (headers : HeaderMap) :
    name ∈ connectionScopedHeaders deps headers ↔ ListedByConnection headers name := by
  have htoken : ∀ token, (if (Text.trim token).isEmpty then none
      else deps.headerNameFromBytes (Text.trim token)) = some name ↔
        Text.eqIgnoreAsciiCase (Text.trim token) name.text = true := by
    intro token
    constructor
    · intro h
      split_ifs at h
      have hlower := hdeps.normalizes _ _ h
      have hself := hdeps.normalizes _ _ hname
      rw [Text.eqIgnoreAsciiCase, decide_eq_true_eq, ← hlower]
      exact hself
    · intro h
      have hsome := (hdeps.caseless _ _ h).trans hname
      have hne : (Text.trim token).isEmpty = false := by
        rw [List.isEmpty_eq_false_iff]
        intro hempty
        rw [hempty, hdeps.nonempty] at hsome
        cases hsome
      rw [hne]
      exact hsome
  simp only [connectionScopedHeaders, List.mem_filterMap, List.mem_flatMap, htoken]
  constructor
  · rintro ⟨token, ⟨text, ⟨value, hvalue, htext⟩, hmem⟩, heq⟩
    exact ⟨value, hvalue, text, htext, token, hmem, heq⟩
  · rintro ⟨value, hvalue, text, htext, token, hmem, heq⟩
    exact ⟨token, ⟨text, ⟨value, hvalue, htext⟩, hmem⟩, heq⟩

theorem keptByRedirect_eq_false_iff (hdeps : deps.HeaderNames) (hname : deps.IsHeaderName name)
    (headers : HeaderMap) (dropsBody sameOriginRedirect : Bool) :
    keptByRedirect deps headers dropsBody sameOriginRedirect name = false ↔
      RedirectDrops headers dropsBody sameOriginRedirect name := by
  have hscoped := mem_connectionScopedHeaders hdeps hname headers
  constructor
  · intro h
    by_contra hdrops
    have hnever : name ∉ alwaysDropped := fun hmem ↦ hdrops (.always hmem)
    rw [mem_alwaysDropped, not_or, not_or] at hnever
    rw [Bool.eq_false_iff] at h
    apply h
    simp only [keptByRedirect, Bool.and_eq_true, Bool.or_eq_true, Bool.not_eq_true',
      decide_eq_true_eq]
    refine ⟨⟨⟨⟨⟨fun hmem ↦ hdrops (.listed (hscoped.mp hmem)), hnever.1⟩, hnever.2.1⟩, ?_⟩, ?_⟩,
      hnever.2.2⟩
    · cases dropsBody with
      | false => exact .inl rfl
      | true => exact .inr fun hmem ↦ hdrops (.body rfl hmem)
    · cases sameOriginRedirect with
      | true => exact .inl rfl
      | false =>
        refine .inr ⟨fun hmem ↦ hdrops (.credentials rfl hmem), fun hmem ↦ ?_⟩
        obtain ⟨value, hvalue, hsensitive⟩ := mem_sensitiveHeaders.mp hmem
        exact hdrops (.sensitive rfl value (MultiMap.mem_getAll.mpr hvalue) hsensitive)
  · intro h
    rw [Bool.eq_false_iff]
    intro hkept
    simp only [keptByRedirect, Bool.and_eq_true, Bool.or_eq_true, Bool.not_eq_true',
      decide_eq_true_eq] at hkept
    obtain ⟨⟨⟨⟨⟨hconnection, hhop⟩, hhost⟩, hbody⟩, hcredentials⟩, hproxy⟩ := hkept
    cases h with
    | always h => exact (mem_alwaysDropped.mp h).elim hhop fun h ↦ h.elim hhost hproxy
    | listed h => exact hconnection (hscoped.mpr h)
    | body hdrops h => exact (hbody.resolve_left (by simp [hdrops])) h
    | credentials horigin h => exact (hcredentials.resolve_left (by simp [horigin])).1 h
    | sensitive horigin value hvalue h =>
      refine (hcredentials.resolve_left (by simp [horigin])).2 ?_
      exact mem_sensitiveHeaders.mpr ⟨value, MultiMap.mem_getAll.mp hvalue, h⟩

theorem redirect_header_filter (hdeps : deps.HeaderNames) (headers : HeaderMap)
    (dropsBody sameOriginRedirect : Bool) :
    (∀ name, deps.IsHeaderName name →
      (RedirectDrops headers dropsBody sameOriginRedirect name →
        (sanitizeHeadersForRedirect deps headers dropsBody sameOriginRedirect).containsKey name =
          false) ∧
      (¬ RedirectDrops headers dropsBody sameOriginRedirect name →
        (sanitizeHeadersForRedirect deps headers dropsBody sameOriginRedirect).getAll name =
          headers.getAll name)) ∧
    sanitizeHeadersForRedirect deps
        (sanitizeHeadersForRedirect deps headers dropsBody sameOriginRedirect)
        dropsBody sameOriginRedirect =
      sanitizeHeadersForRedirect deps headers dropsBody sameOriginRedirect := by
  refine ⟨fun name hname ↦ ?_, sanitizeHeadersForRedirect_twice _ _ _ _⟩
  have hiff := keptByRedirect_eq_false_iff hdeps hname headers dropsBody sameOriginRedirect
  rw [sanitizeHeadersForRedirect_eq_keep, ← MultiMap.getAll_eq_nil_iff, MultiMap.getAll_keep]
  constructor
  · intro hdrops
    rw [hiff.mpr hdrops]
    rfl
  · intro hkept
    rw [← hiff, Bool.not_eq_false] at hkept
    rw [hkept]
    rfl

namespace RedirectHeaders

/-- Parsers of which only the one for header names ever succeeds. -/
def names : Dependencies where
  parseUri _ := none
  parseUrl _ := none
  joinUrl _ _ := none
  setUsername url _ := url
  setPassword url _ := url
  setQuery url _ := url
  setFragment url _ := url
  setPath url _ := url
  headerNameFromBytes bytes :=
    if bytes.isEmpty then none else some ⟨Text.toAsciiLowercase bytes⟩
  parseHttpDate _ := none

theorem headerNames_names : names.HeaderNames where
  normalizes := by
    intro bytes name h
    simp only [names] at h
    split_ifs at h
    rw [← Option.some.inj h]
  caseless := by
    intro bytes bytes' h
    rw [Text.eqIgnoreAsciiCase, decide_eq_true_eq] at h
    have hempty : bytes.isEmpty = bytes'.isEmpty := by
      have hlength := congrArg List.isEmpty h
      simpa [Text.toAsciiLowercase] using hlength
    simp only [names, h, hempty]
  nonempty := rfl

/-- A value of the first name lists the second one; the third has a sensitive value. -/
def mixed : HeaderMap :=
  ⟨[(.connection, .ofString "close, X-Trace "), (.ofString "x-trace", .ofString "1"),
    (.ofString "x-token", .ofString "a"), (.ofString "x-token", ⟨[98], true⟩),
    (.ofString "accept", .ofString "c"), (.ofString "accept", .ofString "d")]⟩

theorem redirect_header_filter_mixed :
    ((sanitizeHeadersForRedirect names mixed false false).containsKey (.ofString "x-trace") =
        false ∧
      (sanitizeHeadersForRedirect names mixed false false).containsKey (.ofString "x-token") =
        false) ∧
    sanitizeHeadersForRedirect names (sanitizeHeadersForRedirect names mixed false false)
        false false = sanitizeHeadersForRedirect names mixed false false := by
  obtain ⟨hnames, htwice⟩ := redirect_header_filter headerNames_names mixed false false
  have htrace : names.IsHeaderName (.ofString "x-trace") := by
    rw [Dependencies.IsHeaderName]
    decide
  have htoken : names.IsHeaderName (.ofString "x-token") := by
    rw [Dependencies.IsHeaderName]
    decide
  refine ⟨⟨(hnames _ htrace).1 (.listed ?_), (hnames _ htoken).1 ?_⟩, htwice⟩
  · exact ⟨.ofString "close, X-Trace ", by decide, "close, X-Trace ".toList, by decide,
      " X-Trace ".toList, by decide, by decide⟩
  · exact .sensitive rfl ⟨[98], true⟩ (by decide) rfl

end RedirectHeaders

end Reqx
