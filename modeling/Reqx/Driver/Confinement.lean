import Reqx.Driver.Run

/-!
# Credentials stay with their origin

The header map of the execution state only ever shrinks: retries leave it
alone and redirects remove names. A value that must not reach another origin
goes along only with redirects inside one origin, so wherever it still is, the
target has the origin of the first one.
-/

namespace Reqx.Driver

variable {σ C A : Type}

def AtOrigin (home uri : Uri) : Prop := uri = home ∨ SameOrigin home uri

theorem AtOrigin.trans {home uri next : Uri} (h : AtOrigin home uri) (hnext : AtOrigin uri next) :
    AtOrigin home next := by
  rcases hnext with rfl | hnext
  · exact h
  rcases h with rfl | h
  · exact .inr hnext
  · exact .inr (h.trans hnext)

/-- What a pass lets through: every header was there before, and a credential only if the
target kept its origin. -/
theorem Passed.headers_kept {rt : Runtime} {c : Client} {t : Turn C A} {s s' : SendState σ}
    {U : Tally σ C A} (h : Passed rt c t s U (.running s')) {entry : HeaderName × HeaderValue}
    (hentry : entry ∈ s'.execution.currentHeaders) :
    entry ∈ s.execution.currentHeaders ∧
      (IsCredential entry → AtOrigin s.execution.currentUri s'.execution.currentUri) := by
  obtain ⟨limit, htight, -⟩ := tightened_cases c t s
  cases h with
  | retried request g hrequest hroom =>
    rw [htight] at hentry ⊢
    exact ⟨hentry, fun _ ↦ .inl rfl⟩
  | redirected request g status headers action hrequest haction =>
    rw [htight] at hentry haction ⊢
    obtain ⟨-, -, horigin⟩ := RequestExecutionState.nextRedirectAction_eq_some haction
    obtain ⟨hbefore, -, hcross⟩ := mem_sanitizeHeadersForRedirect hentry
    refine ⟨hbefore, ?_⟩
    intro hcredential
    -- Across origins the sanitizing has removed every credential.
    cases hsame : action.sameOriginRedirect with
    | false => exact absurd hcredential (hcross hsame)
    | true => exact .inr (sameOrigin_iff.mp (horigin.symm.trans hsame))

namespace SendCall

variable {q : SendCall σ} {turns : List (Turn C A)} {s : SendState σ}

structure Confined (q : SendCall σ) (s : SendState σ) : Prop where
  ofRequest : ∀ entry ∈ s.execution.currentHeaders, entry ∈ q.input.mergedHeaders
  atOrigin : ∀ entry ∈ s.execution.currentHeaders, IsCredential entry →
    AtOrigin q.input.uri s.execution.currentUri

theorem Confined.step {t : Turn C A} {U : Tally σ C A} {s' : SendState σ} (hs : Confined q s)
    (h : Passed q.runtime q.client t s U (.running s')) : Confined q s' where
  ofRequest entry hentry := hs.ofRequest entry (h.headers_kept hentry).1
  atOrigin entry hentry hcredential := by
    obtain ⟨hbefore, hkept⟩ := h.headers_kept hentry
    exact (hs.atOrigin entry hbefore hcredential).trans (hkept hcredential)

theorem confined_of_running (h : q.after turns = .running s) : Confined q s := by
  refine running_invariant (P := fun _ _ s ↦ Confined q s) ?_ ?_ h
  · exact ⟨fun _ hentry ↦ hentry, fun _ _ _ ↦ .inl rfl⟩
  · intro _ t _ s U s' hs hpassed
    exact hs.step hpassed

theorem headers_shrink (h : q.after turns = .running s) {later : List (Turn C A)} {s' : SendState σ}
    (hlater : q.after (turns ++ later) = .running s') {entry : HeaderName × HeaderValue}
    (hentry : entry ∈ s'.execution.currentHeaders) : entry ∈ s.execution.currentHeaders := by
  induction later using List.reverseRecOn generalizing s' with
  | nil =>
    rw [List.append_nil, h] at hlater
    cases hlater
    exact hentry
  | append_singleton later t ih =>
    rw [← List.append_assoc] at hlater
    obtain ⟨s₁, U, hrunning, -, hpassed⟩ := running_of_running_concat hlater
    exact ih hrunning (hpassed.headers_kept hentry).1

end SendCall

/-- A credential of the request is at the top of a pass only if the target has the origin of
the first one; once a hop has left that origin the credentials are gone for good; and no pass
adds a header name. -/
theorem credentials_confined (q : SendCall σ) (turns : List (Turn C A)) (s : SendState σ)
    (h : q.after turns = .running s) :
    (∀ entry ∈ s.execution.currentHeaders, IsCredential entry →
      entry ∈ q.input.mergedHeaders ∧ AtOrigin q.input.uri s.execution.currentUri) ∧
    (¬ AtOrigin q.input.uri s.execution.currentUri → ∀ later s',
      q.after (turns ++ later) = .running s' →
        ∀ entry ∈ s'.execution.currentHeaders, ¬ IsCredential entry) ∧
    (∀ t s', q.after (turns ++ [t]) = .running s' → ∀ name,
      s'.execution.currentHeaders.containsKey name = true →
        s.execution.currentHeaders.containsKey name = true) := by
  have hconfined := SendCall.confined_of_running h
  refine ⟨?_, ?_, ?_⟩
  · intro entry hentry hcredential
    exact ⟨hconfined.ofRequest entry hentry, hconfined.atOrigin entry hentry hcredential⟩
  · intro hleft later s' hlater entry hentry hcredential
    have hbefore := SendCall.headers_shrink h hlater hentry
    exact hleft (hconfined.atOrigin entry hbefore hcredential)
  · intro t s' hnext name hname
    obtain ⟨value, hvalue⟩ := MultiMap.containsKey_iff.mp hname
    exact MultiMap.containsKey_iff.mpr ⟨value, SendCall.headers_shrink h hnext hvalue⟩

theorem Sample.not_atOrigin : ¬ AtOrigin (Sample.uri "a.test") (Sample.uri "b.test") := by
  rintro (h | h)
  · exact absurd h (by decide +kernel)
  · exact absurd (sameOrigin_iff.mpr h) (by decide +kernel)

theorem credentials_confined_there_and_back :
    ∃ s s', (Sample.call .get .default).after [Sample.hop 1 "b.test"] = .running s ∧
      (Sample.call .get .default).after [Sample.hop 1 "b.test", Sample.hop 2 "a.test"] =
        .running s' ∧
      s'.execution.currentUri = Sample.uri "a.test" ∧
        (.authorization, .ofString "token") ∉ s'.execution.currentHeaders := by
  refine ⟨_, _, rfl, rfl, rfl, ?_⟩
  intro hmem
  have hgone := (credentials_confined (Sample.call .get .default) [Sample.hop 1 "b.test"] _ rfl).2.1
  exact hgone Sample.not_atOrigin [Sample.hop 2 "a.test"] _ rfl _ hmem (.inl rfl)

end Reqx.Driver
