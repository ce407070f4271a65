import Reqx.Driver.Run

/-!
# Bodies and their headers along a call

Taking a streaming body for an attempt leaves an empty one behind. What keeps
that empty body from being sent in place of the stream is the flag of the
execution state: without it there is no retry, and no redirect but one that
drops the body anyway.
-/

namespace Reqx.Driver

variable {σ C A : Type}

def Tally.bodyDropped (T : Tally σ C A) : Bool := T.redirects.any RedirectAction.dropsBody

theorem Tally.bodyDropped_append (T U : Tally σ C A) :
    (T ++ U).bodyDropped = (T.bodyDropped || U.bodyDropped) := by
  simp [bodyDropped, append_def]

/-- The invariant at the top of a pass, after the events that `T` counts. -/
structure BodyTracked (q : SendCall σ) (T : Tally σ C A) (s : SendState σ) : Prop where
  body : s.body = if T.bodyDropped then .default else q.input.body
  replayable : s.execution.bodyReplayable = (T.bodyDropped || q.input.body.isReplayable)
  sent : T.sent = [] ∨ s.execution.bodyReplayable = true
  headers : T.bodyDropped = true → ∀ entry ∈ s.execution.currentHeaders, entry.1 ∉ bodyHeaders

namespace BodyTracked

variable {q : SendCall σ} {T U : Tally σ C A} {s s' : SendState σ} {t : Turn C A}

theorem isReplayable (h : BodyTracked q T s) (hflag : s.execution.bodyReplayable = true) :
    s.body.isReplayable = true := by
  rw [h.body]
  cases hdropped : T.bodyDropped with
  | true => rfl
  | false => simpa [hdropped] using h.replayable.symm.trans hflag

theorem body_left (h : BodyTracked q T s) (hflag : s.execution.bodyReplayable = true) :
    s.body.takeForAttempt.2 = if T.bodyDropped then .default else q.input.body := by
  rw [RequestBody.takeForAttempt_snd_of_isReplayable (h.isReplayable hflag), h.body]

theorem step (h : BodyTracked q T s) (hpassed : Passed q.runtime q.client t s U (.running s')) :
    BodyTracked q (T ++ U) s' := by
  obtain ⟨limit, htight, -, -, hroom⟩ := tightened_cases q.client t s
  cases hpassed with
  | retried request g hrequest hleft =>
    -- Room for another attempt means that the flag is set.
    rw [htight] at hleft ⊢
    obtain ⟨hflag, -⟩ := hroom hleft
    have hdropped : (T ++ ⟨[request], g.toList, g.endedAs .failure, [], q.client.retryCost,
        0⟩).bodyDropped = T.bodyDropped := by
      rw [Tally.bodyDropped_append]
      exact Bool.or_false _
    refine ⟨?_, ?_, .inr hflag, ?_⟩ <;> rw [hdropped]
    · exact h.body_left hflag
    · exact h.replayable
    · exact h.headers
  | redirected request g status headers action hrequest haction =>
    rw [htight] at haction ⊢
    obtain ⟨-, hkept, -⟩ := RequestExecutionState.nextRedirectAction_eq_some haction
    have hdropped : (T ++ ⟨[request], g.toList, g.endedAs .success, [action], 0,
        0⟩).bodyDropped = (T.bodyDropped || action.dropsBody) := by
      rw [Tally.bodyDropped_append]
      simp [Tally.bodyDropped]
    cases hdrops : action.dropsBody with
    | true =>
      refine ⟨?_, ?_, .inr ?_, ?_⟩
      · simp [hdropped, hdrops]
      · simp [hdropped, hdrops, RequestExecutionState.applyRedirect]
      · simp [hdrops, RequestExecutionState.applyRedirect]
      · intro _ entry hentry
        exact (mem_sanitizeHeadersForRedirect hentry).2.1 hdrops
    | false =>
      -- A redirect that keeps the body is followed only with the flag set.
      have hflag : s.execution.bodyReplayable = true := by simpa [hdrops] using hkept
      rw [hdrops, Bool.or_false] at hdropped
      refine ⟨?_, ?_, .inr ?_, ?_⟩
      · rw [hdropped]
        exact h.body_left hflag
      · rw [hdropped, ← h.replayable]
        simp [hdrops, RequestExecutionState.applyRedirect]
      · simp [hflag, RequestExecutionState.applyRedirect]
      · intro hbefore entry hentry
        rw [hdropped] at hbefore
        exact h.headers hbefore entry (mem_sanitizeHeadersForRedirect hentry).1

theorem of_running {turns : List (Turn C A)} (h : q.after turns = .running s) :
    BodyTracked q (q.soFar turns) s := by
  refine SendCall.running_invariant (P := fun _ T s ↦ BodyTracked q T s) ?_ ?_ h
  · refine ⟨rfl, rfl, .inl rfl, ?_⟩
    intro hdropped
    cases hdropped
  · intro _ t T s U s' hs hpassed
    exact hs.step hpassed

end BodyTracked

/-! ## Retries -/

/-- A new attempt number means that the send just made could be repeated: its body was
replayable, and the request as the interceptors left it was eligible. -/
theorem retries_are_safe (q : SendCall σ) (turns : List (Turn C A)) (t : Turn C A)
    (s s' : SendState σ) (h : q.after turns = .running s)
    (h' : q.after (turns ++ [t]) = .running s')
    (hattempt : s'.execution.attempt ≠ s.execution.attempt) :
    s'.execution.attempt = s.execution.attempt + 1 ∧
      ∃ request, (q.soFar (turns ++ [t])).sent = (q.soFar turns).sent ++ [request] ∧
        request.body.isReplayable = true ∧
        request.intercepted = t.interceptors s.execution.context request.carried ∧
        request.headers = q.client.finishHeaders q.runtime request.uri request.intercepted ∧
        q.client.supportsRetry request.method request.intercepted = true := by
  obtain ⟨U, hsum, hpassed⟩ := SendCall.passed_of_running h t
  obtain ⟨limit, htight, -, -, hroom⟩ := tightened_cases q.client t s
  rw [h'] at hpassed
  cases hpassed with
  | retried request g hrequest hleft =>
    rw [htight] at hleft
    obtain ⟨hflag, heligible⟩ := hroom hleft
    refine ⟨by rw [htight], request, ?_, ?_, ?_, hrequest.headers, ?_⟩
    · rw [hsum]
      rfl
    · rw [hrequest.body]
      exact (BodyTracked.of_running h).isReplayable hflag
    · rw [hrequest.intercepted, hrequest.carried]
      rfl
    · rw [hrequest.method, hrequest.intercepted]
      exact heligible
  | redirected request g status headers action hrequest haction =>
    -- A redirect keeps the attempt number.
    rw [htight] at hattempt
    exact absurd rfl hattempt

theorem retries_are_safe_timeout :
    ∃ request, ((Sample.call .get .default).soFar [Sample.turn 1 .timedOut]).sent = [request] ∧
      request.body.isReplayable = true ∧
        strictRetryEligibility request.method request.intercepted = true := by
  obtain ⟨-, request, hsent, hbody, -, -, heligible⟩ :=
    retries_are_safe (Sample.call .get .default) [] (Sample.turn 1 .timedOut) _ _ rfl rfl
      (by decide)
  exact ⟨request, hsent, hbody, heligible⟩

/-! ## Sends -/

/-- What a send owes to the request, after the events that `T` counts: its body, its framing,
and the headers that describe a body. -/
structure SoundSend (q : SendCall σ) (T : Tally σ C A) (t : Turn C A)
    (request : SentRequest σ) : Prop where
  streaming : ∀ stream, q.input.body = .streaming stream →
    T.sent = [] ∧ request.body = .streaming stream ∨
      T.bodyDropped = true ∧ request.body = .buffered []
  buffered : ∀ bytes, q.input.body = .buffered bytes →
    request.body = .buffered (if T.bodyDropped then [] else bytes)
  framed : WellFramed request.headers request.body.knownLength
  stripped : T.bodyDropped = true → ∀ name ∈ bodyHeaders,
    request.carried.containsKey name = false ∧
      (∃ context, request.intercepted = t.interceptors context request.carried) ∧
        request.headers.containsKey name = request.intercepted.containsKey name

section FinishHeaders

variable (c : Client) (rt : Runtime) (uri : Uri) (headers : HeaderMap)

theorem getAll_finishHeaders {name : HeaderName} (hname : name ≠ .proxyAuthorization) :
    (c.finishHeaders rt uri headers).getAll name = (markSensitiveHeaders headers).getAll name := by
  have hremove : ((markSensitiveHeaders headers).remove .proxyAuthorization).getAll name =
      (markSensitiveHeaders headers).getAll name := by
    rw [MultiMap.getAll_remove, if_neg hname]
  cases rt with
  | blocking => exact hremove
  | async =>
    change (c.applyHttpProxyAuthHeader uri _).getAll name = _
    unfold Client.applyHttpProxyAuthHeader
    split
    · exact hremove
    · split
      · rw [MultiMap.getAll_insert_of_ne _ _ hname, hremove]
      · exact hremove

theorem containsKey_finishHeaders {name : HeaderName} (hname : name ≠ .proxyAuthorization) :
    (c.finishHeaders rt uri headers).containsKey name = headers.containsKey name := by
  rw [Bool.eq_iff_iff, ← not_iff_not, Bool.not_eq_true, Bool.not_eq_true,
    ← MultiMap.getAll_eq_nil_iff, ← MultiMap.getAll_eq_nil_iff,
    getAll_finishHeaders c rt uri headers hname, markSensitiveHeaders, MultiMap.getAll_mapValues,
    List.map_eq_nil_iff]

theorem wellFramed_finishHeaders {bodyLen : Option ℕ} (h : WellFramed headers bodyLen) :
    WellFramed (c.finishHeaders rt uri headers) bodyLen :=
  h.markSensitiveHeaders.congr (getAll_finishHeaders c rt uri headers (by decide))
    (getAll_finishHeaders c rt uri headers (by decide))

end FinishHeaders

theorem BodyTracked.soundSend {q : SendCall σ} {T : Tally σ C A} {t : Turn C A} {s : SendState σ}
    {request : SentRequest σ} (h : BodyTracked q T s)
    (hrequest : Dispatched q.runtime q.client t s request) : SoundSend q T t request where
  streaming stream hstream := by
    have hbody := hrequest.body.trans h.body
    cases hdropped : T.bodyDropped with
    | true => exact .inr ⟨rfl, by simpa [hdropped, RequestBody.default] using hbody⟩
    | false =>
      -- The flag is not set, so nothing has been sent.
      have hflag := h.replayable
      rw [hdropped, hstream] at hflag
      refine .inl ⟨h.sent.resolve_right (by simp [hflag, RequestBody.isReplayable]), ?_⟩
      simpa [hdropped, hstream] using hbody
  buffered bytes hbytes := by
    rw [hrequest.body, h.body, hbytes]
    cases T.bodyDropped <;> rfl
  framed := by
    rw [hrequest.headers, hrequest.body]
    exact wellFramed_finishHeaders _ _ _ _ hrequest.framed
  stripped hdropped name hname := by
    have hplain : name ≠ .proxyAuthorization := by
      rintro rfl
      exact absurd hname (by decide)
    refine ⟨?_, ⟨s.execution.context, ?_⟩, ?_⟩
    · rw [hrequest.carried, MultiMap.containsKey_eq_false_iff]
      intro value hvalue
      exact h.headers hdropped _ hvalue hname
    · rw [hrequest.intercepted, hrequest.carried]
      rfl
    · rw [hrequest.headers]
      exact containsKey_finishHeaders _ _ _ _ hplain

/-- A turn adds at most one send, and that send is sound. -/
theorem every_send_sound (q : SendCall σ) (turns : List (Turn C A)) (t : Turn C A) :
    (q.soFar (turns ++ [t])).sent = (q.soFar turns).sent ∨
      ∃ request, (q.soFar (turns ++ [t])).sent = (q.soFar turns).sent ++ [request] ∧
        SoundSend q (q.soFar turns) t request := by
  cases hturns : q.after turns with
  | finished f =>
    left
    rw [(SendCall.after_concat_of_finished hturns t).2]
  | running s =>
    have htracked := BodyTracked.of_running hturns
    obtain ⟨U, hsum, hpassed⟩ := SendCall.passed_of_running hturns t
    rw [hsum]
    generalize q.after (turns ++ [t]) = phase at hpassed
    cases hpassed with
    | notSent g ending limit outcome houtcome => exact .inl (List.append_nil _)
    | retried request g hrequest hroom =>
      exact .inr ⟨request, rfl, htracked.soundSend hrequest⟩
    | redirected request g status headers action hrequest haction =>
      exact .inr ⟨request, rfl, htracked.soundSend hrequest⟩
    | returned request g ended credits outcome hrequest hguards hmarks hfresh hcredits hkeeps =>
      exact .inr ⟨request, rfl, htracked.soundSend hrequest⟩

end Reqx.Driver
