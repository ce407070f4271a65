import Reqx.Driver.Deadline

/-!
# The two clients agree

The loops of the async and the blocking client differ in how they wait for
permits, in what they do about a proxy, in how a transport reports an error and
in how a body arrives. Where the waits are granted and the transports give the
same answers, both go through the same states, with the same events but for the
proxy credentials that only the async client sends, and but for how many bytes
of a body that is too large were read.
-/

namespace Reqx.Driver

open Logged

variable {σ C A : Type}

/-- `actual_bytes` counts up to the end of the read that crosses the limit, and the reads are
not the same in the two clients. -/
def withoutActualBytes : Error → Error
  | .responseBodyTooLarge limitBytes _ method uri => .responseBodyTooLarge limitBytes 0 method uri
  | error => error

/-- An event without `actual_bytes` and without the header that only the async client adds. -/
def Event.comparable : Event σ C A → Event σ C A
  | .sent request => .sent { request with headers := request.headers.remove .proxyAuthorization }
  | .failed context error => .failed context (withoutActualBytes error)
  | event => event

def Phase.comparable : Phase σ C A → Phase σ C A
  | .finished ⟨x, .failed error⟩ => .finished ⟨x, .failed (withoutActualBytes error)⟩
  | phase => phase

/-- Neither transport refuses a request by itself. -/
structure Client.Accepts (c : Client) : Prop where
  tlsBackend : c.unavailableTlsBackend = none
  proxy : ∀ uri, c.validateProxyAuthorization (c.usesProxy uri) = .ok ()

def SendCall.deadlineAt (q : SendCall σ) : Option ℕ :=
  totalTimeoutDeadline q.client.instantMax q.input.executionOptions.totalTimeout
    q.requestStartedAt

/-- A turn in which the permits are granted in time and nobody gives up; what is left open are
the answers of the limiter, the breaker, the budget and the transport. -/
structure Scripted (deadlineAt : Option ℕ) (t : Turn C A) : Prop where
  awaited : t.abandonedAt = none
  hostPermit : t.hostPermitTimedOut = false ∧ t.semaphoreClosed = false
  adaptive : t.adaptiveTimedOut = false
  inTime : ∀ deadline ∈ deadlineAt,
    t.hostPermitAskedAt < deadline ∧ t.adaptiveAskedAt < deadline
  built : t.requestBuildError = none

/-- The same turn, but the bytes of the body arrive in other pieces, none of them empty. -/
inductive Recut : Turn C A → Turn C A → Prop
  | pieces (t : Turn C A) (pieces : List Bytes) (hbytes : pieces.flatten = t.body.pieces.flatten)
      (hpieces : ∀ piece ∈ pieces, piece ≠ []) : Recut t { t with body := ⟨pieces, t.body.ending⟩ }

/-- The same pass in both clients. -/
abbrev PassesAgree (x y : Logged (Event σ C A) (Phase σ C A)) : Prop :=
  Agrees Event.comparable Phase.comparable x y

section Parts

variable {c : Client} {mode : ResponseMode} {t : Turn C A} {x : RequestExecutionState}
  {body : RequestBody σ} {g : AttemptGuards C A} {context : RequestContext} {t' : Turn C A}

theorem not_abandons (ht : t.abandonedAt = none) (rt : Runtime) (point : AwaitPoint) :
    rt.abandons t point = false := by
  cases rt <;> simp [Runtime.abandons, ht]

theorem acquireHostRequestPermit_eq (ht : Scripted (c.totalTimeoutDeadline x) t) :
    c.acquireHostRequestPermit t x .async = c.acquireHostRequestPermit t x .blocking := by
  unfold Client.acquireHostRequestPermit
  split
  · rfl
  · cases hdeadline : c.totalTimeoutDeadline x with
    | none => simp [ht.hostPermit.2]
    | some deadline =>
      have hasked := (ht.inTime deadline (hdeadline ▸ rfl)).1
      simp [ht.hostPermit.1, ht.hostPermit.2, not_le.mpr hasked]

theorem adaptiveGranted_eq (ht : Scripted (c.totalTimeoutDeadline x) t) :
    c.adaptiveGranted t x .async = c.adaptiveGranted t x .blocking := by
  unfold Client.adaptiveGranted
  cases hdeadline : c.totalTimeoutDeadline x with
  | none => rfl
  | some deadline =>
    have hasked := (ht.inTime deadline (hdeadline ▸ rfl)).2
    simp [hasked]

theorem beginAttempt_eq (ht : Scripted (c.totalTimeoutDeadline x) t) :
    (beginAttempt .async c t x context : Logged (Event σ C A) _) =
      beginAttempt .blocking c t x context := by
  unfold beginAttempt Client.acquireRateLimitSlot Client.beginAdaptiveAttempt
  simp only [not_abandons ht.awaited, acquireHostRequestPermit_eq ht, adaptiveGranted_eq ht]

/-! ## Bodies -/

section Reads

open Client

variable {rt : Runtime} {maxBytes : ℕ} {reads pieces : List Bytes}

theorem flatten_bodyReads : (bodyReads rt pieces).flatten = pieces.flatten := by
  cases rt with
  | async => rfl
  | blocking =>
    induction pieces with
    | nil => rfl
    | cons piece rest ih =>
      change ((if piece.isEmpty then [piece] else Chunks.chunks 8192 piece) ++
        bodyReads .blocking rest).flatten = piece ++ rest.flatten
      rw [List.flatten_append, ih]
      split
      · rw [List.flatten_singleton]
      · rw [Chunks.flatten_chunks (by decide)]

theorem ne_nil_of_mem_bodyReads (hpieces : ∀ piece ∈ pieces, piece ≠ []) :
    ∀ data ∈ bodyReads .blocking pieces, data ≠ [] := by
  intro data hdata
  obtain ⟨piece, hpiece, hread⟩ := List.mem_flatMap.mp hdata
  split at hread
  next hempty => exact absurd (List.isEmpty_iff.mp hempty) (hpieces piece hpiece)
  next => exact Chunks.ne_nil_of_mem_chunks (by decide) hread

/-- The reads come to all the bytes of the body, if these fit. -/
theorem readReaderLimited_spec (rt : Runtime) (ending : BodyEnd) (collected : Bytes)
    (reads : List Bytes) (hreads : rt = .blocking → ∀ data ∈ reads, data ≠ [])
    (hcollected : saturatingAdd collected.length 0 ≤ maxBytes) :
    if saturatingAdd collected.length reads.flatten.length ≤ maxBytes then
      readReaderLimited rt maxBytes ending collected reads =
        readReaderLimited rt maxBytes ending (collected ++ reads.flatten) []
    else ∃ actualBytes,
      readReaderLimited rt maxBytes ending collected reads = .error (.tooLarge actualBytes) := by
  induction reads generalizing collected with
  | nil => rw [List.flatten_nil, List.length_nil, List.append_nil, if_pos hcollected]
  | cons data rest ih =>
    have hnotEnd : ¬(rt = .blocking ∧ data.isEmpty) := fun h ↦
      hreads h.1 data List.mem_cons_self (List.isEmpty_iff.mp h.2)
    rw [readReaderLimited, if_neg hnotEnd, List.flatten_cons, List.length_append]
    by_cases hread : saturatingAdd collected.length data.length > maxBytes
    · rw [if_pos hread, if_neg (by unfold saturatingAdd at *; omega)]
      exact ⟨_, rfl⟩
    · have hrest := ih (collected ++ data)
        (fun hrt data' h ↦ hreads hrt data' (List.mem_cons_of_mem _ h))
        (by rw [List.length_append]; exact not_lt.mp hread)
      rw [if_neg hread, ← List.append_assoc]
      rwa [List.length_append, saturatingAdd, Nat.add_assoc] at hrest

theorem readAllBodyLimited_of_first {body : BodyAnswer} {data : Bytes} {rest : List Bytes}
    (hreads : bodyReads rt body.pieces = data :: rest) (hlarge : maxBytes < data.length)
    (hsize : data.length ≤ usizeMax) :
    readAllBodyLimited rt maxBytes body = .error (.tooLarge data.length) := by
  have hdata : data.isEmpty = false :=
    List.isEmpty_eq_false_iff.mpr (List.ne_nil_of_length_pos (by omega))
  have htotal : saturatingAdd ([] : Bytes).length data.length = data.length :=
    (saturatingAdd_of_le (by simpa using hsize)).trans (Nat.zero_add _)
  rw [readAllBodyLimited, hreads, readReaderLimited, hdata, htotal]
  simp [hlarge]

/-- Both clients get the same bytes or the same error, or both find the body too large. -/
theorem readAllBodyLimited_recut (maxBytes : ℕ) (ending : BodyEnd)
    (hbytes : pieces.flatten = reads.flatten) (hpieces : ∀ piece ∈ pieces, piece ≠ []) :
    readAllBodyLimited .async maxBytes ⟨reads, ending⟩ =
        readAllBodyLimited .blocking maxBytes ⟨pieces, ending⟩ ∨
      ∃ actualBytes actualBytes',
        readAllBodyLimited .async maxBytes ⟨reads, ending⟩ = .error (.tooLarge actualBytes) ∧
          readAllBodyLimited .blocking maxBytes ⟨pieces, ending⟩ =
            .error (.tooLarge actualBytes') := by
  have hasync := readReaderLimited_spec .async ending [] (bodyReads .async reads) (by simp)
    (Nat.zero_le maxBytes)
  have hblocking := readReaderLimited_spec .blocking ending [] (bodyReads .blocking pieces)
    (fun _ ↦ ne_nil_of_mem_bodyReads hpieces) (Nat.zero_le maxBytes)
  rw [flatten_bodyReads] at hasync hblocking
  rw [hbytes] at hblocking
  split at hasync
  next hfits =>
    rw [if_pos hfits] at hblocking
    exact .inl (hasync.trans hblocking.symm)
  next hlarge =>
    rw [if_neg hlarge] at hblocking
    obtain ⟨actualBytes, hasync⟩ := hasync
    obtain ⟨actualBytes', hblocking⟩ := hblocking
    exact .inr ⟨actualBytes, actualBytes', hasync, hblocking⟩

end Reads

theorem readBody_agrees (ht : t.abandonedAt = none) (hcut : Recut t t') (status : StatusCode)
    (headers : HeaderMap) :
    PassesAgree (readBody .async c mode t x body g context status headers)
      (readBody .blocking c mode t' x body g context status headers) := by
  obtain ⟨pieces, hbytes, hpieces⟩ := hcut
  have hread := readAllBodyLimited_recut x.options.maxResponseBodyBytes t.body.ending hbytes
    hpieces
  unfold readBody Client.readDecodedResponseBodyWithRetry Client.readResponseBodyWithRetry
  rcases hread with hsame | ⟨actualBytes, actualBytes', hasync, hblocking⟩
  · refine .of_eq ?_
    replace hsame : Client.readAllBodyLimited .async x.options.maxResponseBodyBytes t.body = _ :=
      hsame
    simp only [not_abandons ht, hsame]
    rfl
  · replace hasync : Client.readAllBodyLimited .async x.options.maxResponseBodyBytes t.body = _ :=
      hasync
    simp only [not_abandons ht, hasync, hblocking]
    cases x.phaseTimeout t.readAt with
    | none => exact .refl _
    | some readTimeout =>
      cases x.errorIfElapsed t.bodyStartedAt with
      | some error => exact .refl _
      | none => exact ⟨rfl, rfl⟩

theorem settleNonSuccess_agrees (ht : t.abandonedAt = none) (hcut : Recut t t')
    (transportTimeout : ℕ) (status : StatusCode) (headers : HeaderMap) :
    PassesAgree (settleNonSuccess .async c mode t x body g context transportTimeout status headers)
      (settleNonSuccess .blocking c mode t' x body g context transportTimeout status headers) := by
  have hread : ∀ x g, PassesAgree (readBody .async c mode t x body g context status headers)
      (readBody .blocking c mode t' x body g context status headers) :=
    fun _ _ ↦ readBody_agrees ht hcut status headers
  obtain ⟨pieces, hbytes, hpieces⟩ := hcut
  unfold settleNonSuccess
  refine (Agrees.refl _).bind fun _ ↦ (Agrees.refl _).bind fun ⟨schedule, x⟩ ↦ ?_
  refine (Agrees.refl _).bind fun g ↦ ?_
  cases schedule with
  | error error => exact .refl _
  | ok schedule =>
    cases schedule with
    | scheduled delay => exact .refl _
    | notScheduled =>
      dsimp only
      split
      · exact .refl _
      · exact hread x g

theorem settleResponse_agrees (ht : t.abandonedAt = none) (hcut : Recut t t') (transportTimeout : ℕ)
    (status : StatusCode) (headers : HeaderMap) :
    PassesAgree (settleResponse .async c mode t x body g context transportTimeout status headers)
      (settleResponse .blocking c mode t' x body g context transportTimeout status headers) := by
  unfold settleResponse
  split
  · exact .refl _
  · exact .refl _
  · refine (Agrees.refl _).bind fun _ ↦ ?_
    split
    · split
      · exact .refl _
      · exact readBody_agrees ht hcut status headers
    · exact settleNonSuccess_agrees ht hcut transportTimeout status headers

/-! ## A send -/

theorem finishHeaders_remove (uri : Uri) (intercepted : HeaderMap) :
    (c.finishHeaders .async uri intercepted).remove .proxyAuthorization =
      (c.finishHeaders .blocking uri intercepted).remove .proxyAuthorization := by
  unfold Client.finishHeaders Client.applyHttpProxyAuthHeader
  dsimp only
  split
  · rfl
  · split
    · exact MultiMap.remove_insert _ _ _
    · rfl

theorem attemptRequest_agrees (s : SendState σ) (transportTimeout : ℕ) :
    Event.comparable (.sent (attemptRequest .async c t s transportTimeout) : Event σ C A) =
      .comparable (.sent (attemptRequest .blocking c t s transportTimeout)) := by
  unfold Event.comparable attemptRequest
  dsimp only
  rw [finishHeaders_remove]

variable {s : SendState σ}

/-- The request goes out in both clients, and the answer becomes the same result. -/
theorem transmit_agrees (hclient : c.Accepts) (ht : t.requestBuildError = none)
    (hmethod : x.currentMethod = s.execution.currentMethod)
    (hredacted : x.currentRedactedUri = redactUriForLogs c.deps s.execution.currentUri.text)
    (transportTimeout : ℕ) :
    Agrees Event.comparable id
      (c.transmit t x .async (attemptRequest .async c t s transportTimeout) :
        Logged (Event σ C A) _)
      (c.transmit t x .blocking (attemptRequest .blocking c t s transportTimeout)) := by
  have hsent : Agrees Event.comparable id
      (tell [(.sent (attemptRequest .async c t s transportTimeout) : Event σ C A)])
      (tell [.sent (attemptRequest .blocking c t s transportTimeout)]) :=
    ⟨congrArg (fun event ↦ [event]) (attemptRequest_agrees s transportTimeout), rfl⟩
  unfold Client.transmit Client.runOnce Client.sendTransportRequest
  simp only [ht, hclient.proxy, hclient.tlsBackend]
  refine hsent.bind fun _ ↦ ?_
  cases t.transport with
  | response status headers => exact .refl _
  | timedOut => exact .refl _
  | failed kind source =>
    refine .of_eq ?_
    rw [hmethod, hredacted]
    rfl

theorem dispatch_agrees (hclient : c.Accepts) {deadlineAt : Option ℕ} (ht : Scripted deadlineAt t)
    (hcut : Recut t t')
    (hredacted : s.execution.currentRedactedUri =
      redactUriForLogs c.deps s.execution.currentUri.text) :
    PassesAgree (dispatch .async c mode t s g) (dispatch .blocking c mode t' s g) := by
  have hsettle : ∀ x (body : RequestBody σ) timeout status headers,
      PassesAgree (settleResponse .async c mode t x body g x.context timeout status headers)
        (settleResponse .blocking c mode t' x body g x.context timeout status headers) :=
    fun _ _ ↦ settleResponse_agrees ht.awaited hcut
  obtain ⟨pieces, hbytes, hpieces⟩ := hcut
  obtain ⟨limit, htight, -⟩ := tightened_cases c t s
  unfold dispatch
  dsimp only [interceptedHeaders]
  rw [← interceptedHeaders, ← tightened, htight]
  split
  · exact .refl _
  split
  · exact .refl _
  next transportTimeout htimeout =>
    refine (transmit_agrees hclient ht.built rfl hredacted transportTimeout).bind fun answer ↦ ?_
    simp only [not_abandons ht.awaited]
    cases answer with
    | error error => exact .refl _
    | ok answer => exact hsettle _ _ _ _ _

theorem pass_agrees (hclient : c.Accepts) (ht : Scripted (c.totalTimeoutDeadline s.execution) t)
    (hcut : Recut t t')
    (hredacted : s.execution.currentRedactedUri =
      redactUriForLogs c.deps s.execution.currentUri.text) :
    PassesAgree (pass .async c mode t (.running s)) (pass .blocking c mode t' (.running s)) := by
  have hdispatch (g : AttemptGuards C A) : PassesAgree (dispatch .async c mode t s g)
      (dispatch .blocking c mode t' s g) := dispatch_agrees hclient ht hcut hredacted
  obtain ⟨pieces, hbytes, hpieces⟩ := hcut
  unfold pass
  dsimp only
  have hblocking (t : Turn C A) : Runtime.blocking.abandons t .sleep = false := rfl
  simp only [not_abandons ht.awaited, hblocking, Bool.false_eq_true, if_false]
  split
  · unfold iterate
    rw [beginAttempt_eq ht]
    refine (Agrees.refl _).bind fun _ ↦ (Agrees.refl _).bind fun result ↦ ?_
    cases result with
    | error outcome => exact .refl _
    | ok g => exact hdispatch g
  · exact .refl _

end Parts

/-! ## Runs -/

theorem forall₂_concat_left {α β : Type} {R : α → β → Prop} {l : List α} {a : α} {l' : List β}
    (h : List.Forall₂ R (l ++ [a]) l') : ∃ l₀ b, List.Forall₂ R l l₀ ∧ R a b ∧ l' = l₀ ++ [b] := by
  rw [← List.forall₂_reverse_iff, List.reverse_concat, List.forall₂_cons_left_iff] at h
  obtain ⟨b, u, hab, hl, hu⟩ := h
  refine ⟨u.reverse, b, ?_, hab, ?_⟩
  · rwa [← List.forall₂_reverse_iff, List.reverse_reverse]
  · rw [← List.reverse_cons, ← hu, List.reverse_reverse]

namespace SendCall

/-- The same call in the client with this runtime. -/
def inRuntime (q : SendCall σ) (runtime : Runtime) : SendCall σ := { q with runtime }

theorem events_nil (q : SendCall σ) : q.events ([] : List (Turn C A)) = [] := rfl

variable {q : SendCall σ}

theorem redacted_of_running
    (hprepared : q.input.redactedUriText = redactUriForLogs q.client.deps q.input.uri.text)
    {turns : List (Turn C A)} {s : SendState σ} (h : q.after turns = .running s) :
    s.execution.currentRedactedUri =
      redactUriForLogs q.client.deps s.execution.currentUri.text := by
  refine running_invariant (P := fun _ _ s ↦ s.execution.currentRedactedUri =
    redactUriForLogs q.client.deps s.execution.currentUri.text) hprepared ?_ h
  intro turns t T s U s' hs hpassed
  obtain ⟨limit, htight, -⟩ := tightened_cases q.client t s
  cases hpassed with
  | retried request g hrequest hroom =>
    rw [htight]
    exact hs
  | redirected request g status headers action hrequest haction =>
    exact (RequestExecutionState.nextRedirectAction_target haction).2

theorem deadlineAt_eq {turns : List (Turn C A)} {s : SendState σ} (h : q.after turns = .running s) :
    q.client.totalTimeoutDeadline s.execution = q.deadlineAt := by
  obtain ⟨hoptions, hstarted⟩ := options_of_running h
  rw [Client.totalTimeoutDeadline, hoptions, hstarted]
  rfl

end SendCall

theorem Phase.eq_of_comparable_running {phase : Phase σ C A} {s : SendState σ}
    (h : phase.comparable = .running s) : phase = .running s := by
  unfold Phase.comparable at h
  split at h
  · cases h
  · exact h

theorem Phase.finished_of_comparable {phase : Phase σ C A} {f : Finish C A}
    (h : phase.comparable = (Phase.finished f : Phase σ C A).comparable) :
    ∃ f', phase = .finished f' := by
  cases phase with
  | finished f' => exact ⟨f', rfl⟩
  | running s =>
    have hrunning := Phase.eq_of_comparable_running h.symm
    cases hrunning

/-- Both clients end in the same phase after any script, in buffered and in stream mode, and
have caused the same events; each transport cuts the bodies as it likes. -/
theorem drivers_agree (q : SendCall σ) (hclient : q.client.Accepts)
    (hprepared : q.input.redactedUriText = redactUriForLogs q.client.deps q.input.uri.text)
    {turns turns' : List (Turn C A)} (hturns : ∀ t ∈ turns, Scripted q.deadlineAt t)
    (hcut : List.Forall₂ Recut turns turns') :
    ((q.inRuntime .async).after turns).comparable =
        ((q.inRuntime .blocking).after turns').comparable ∧
      ((q.inRuntime .async).events turns).map Event.comparable =
        ((q.inRuntime .blocking).events turns').map Event.comparable := by
  -- Both are in one phase before the last turn, and agree on the pass that it makes.
  induction turns using List.reverseRecOn generalizing turns' with
  | nil =>
    obtain rfl := List.forall₂_nil_left_iff.mp hcut
    rw [SendCall.after_nil, SendCall.after_nil, SendCall.events_nil, SendCall.events_nil]
    exact ⟨rfl, rfl⟩
  | append_singleton turns t ih =>
    obtain ⟨turns', t', hbefore', hlast', rfl⟩ := forall₂_concat_left hcut
    obtain ⟨hbefore, hlast⟩ := List.forall_mem_append.mp hturns
    have ht := List.forall_mem_singleton.mp hlast
    obtain ⟨hafter, hevents⟩ := ih hbefore hbefore'
    have hpass : PassesAgree (pass .async q.client q.mode t ((q.inRuntime .async).after turns))
        (pass .blocking q.client q.mode t' ((q.inRuntime .blocking).after turns')) := by
      cases hphase : (q.inRuntime .blocking).after turns' with
      | finished f =>
        rw [hphase] at hafter
        obtain ⟨f', hf'⟩ := Phase.finished_of_comparable hafter
        rw [hf'] at hafter ⊢
        exact ⟨rfl, hafter⟩
      | running s =>
        rw [hphase] at hafter
        rw [Phase.eq_of_comparable_running hafter]
        refine pass_agrees hclient ?_ hlast'
          (SendCall.redacted_of_running (q := q.inRuntime .blocking) hprepared hphase)
        exact SendCall.deadlineAt_eq hphase ▸ ht
    rw [SendCall.after_concat, SendCall.after_concat, SendCall.events_concat,
      SendCall.events_concat, List.map_append, List.map_append, hevents]
    exact ⟨hpass.2, congrArg _ hpass.1⟩

theorem Sample.accepts : Sample.client.Accepts := ⟨rfl, fun _ ↦ rfl⟩

/-- A turn of the small call, where nobody waits for long. -/
theorem Sample.scripted (k : ℕ) (transport : TransportAnswer) :
    Scripted none (Sample.turn k transport) := by
  refine ⟨rfl, ⟨rfl, rfl⟩, rfl, fun _ h ↦ ?_, rfl⟩
  cases h

/-- A successful answer with a body in these pieces. -/
def Sample.answer (k : ℕ) (pieces : List Bytes) : Turn ℕ Unit :=
  { Sample.turn k (.response Sample.ok ⟨[]⟩) with body := ⟨pieces, .complete⟩ }

theorem drivers_agree_retry_and_hop :
    (((Sample.call .get .default).inRuntime .async).after [Sample.turn 1 .timedOut,
        Sample.hop 2 "b.test", Sample.answer 3 [[1, 2], [3]]]).comparable =
      (((Sample.call .get .default).inRuntime .blocking).after [Sample.turn 1 .timedOut,
        Sample.hop 2 "b.test", Sample.answer 3 [[1], [2, 3]]]).comparable := by
  refine (drivers_agree (Sample.call .get .default) Sample.accepts rfl (fun t ht ↦ ?_) ?_).1
  · simp only [List.mem_cons, List.not_mem_nil, or_false] at ht
    rcases ht with rfl | rfl | rfl
    · exact Sample.scripted 1 _
    · exact Sample.scripted 2 _
    · obtain ⟨hawaited, hhost, hadaptive, hinTime, hbuilt⟩ :=
        Sample.scripted 3 (.response Sample.ok ⟨[]⟩)
      exact ⟨hawaited, hhost, hadaptive, hinTime, hbuilt⟩
  · exact .cons (.pieces _ [] rfl (by simp)) (.cons (.pieces _ [] rfl (by simp))
      (.cons (.pieces _ [[1], [2, 3]] rfl (by simp)) .nil))

theorem Sample.after_of_tooLarge (rt : Runtime) {pieces : List Bytes} {actualBytes : ℕ}
    (h : Client.readAllBodyLimited rt 100 ⟨pieces, .complete⟩ = .error (.tooLarge actualBytes)) :
    ((Sample.call .get .default).inRuntime rt).after [Sample.answer 1 pieces] =
      .finished ⟨(Sample.call .get .default).first.execution,
        .failed (.responseBodyTooLarge 100 actualBytes .get "https://a.test".toList)⟩ := by
  have hread : ((Sample.call .get .default).inRuntime rt).after [Sample.answer 1 pieces] =
      (readBody rt Sample.client .buffered (Sample.answer 1 pieces)
        (Sample.call .get .default).first.execution .default ⟨some 1, none⟩
        (Sample.call .get .default).first.execution.context Sample.ok ⟨[]⟩).value := by
    cases rt <;> rfl
  have htooLarge : Client.readAllBodyLimited rt
      (Sample.call .get .default).first.execution.options.maxResponseBodyBytes
      (Sample.answer 1 pieces).body = _ := h
  rw [hread]
  unfold readBody Client.readDecodedResponseBodyWithRetry Client.readResponseBodyWithRetry
  simp only [htooLarge, not_abandons (t := Sample.answer 1 pieces) rfl]
  rfl

/-- On 20000 bytes in one piece the async client counts all of them, the blocking client only
those of its first buffer. -/
theorem drivers_count_differently :
    ((Sample.call .get .default).inRuntime .async).after
        [Sample.answer 1 [List.replicate 20000 0]] =
      .finished ⟨(Sample.call .get .default).first.execution,
        .failed (.responseBodyTooLarge 100 20000 .get "https://a.test".toList)⟩ ∧
    ((Sample.call .get .default).inRuntime .blocking).after
        [Sample.answer 1 [List.replicate 20000 0]] =
      .finished ⟨(Sample.call .get .default).first.execution,
        .failed (.responseBodyTooLarge 100 8192 .get "https://a.test".toList)⟩ := by
  have hpiece : (List.replicate 20000 0 : Bytes).length = 20000 := List.length_replicate
  generalize (List.replicate 20000 0 : Bytes) = piece at hpiece
  have hne : piece ≠ [] := List.ne_nil_of_length_pos (by omega)
  obtain ⟨rest, hrest⟩ := Chunks.exists_chunks_eq_cons (by decide : 0 < 8192) hne
  have hfirst : (Chunks.chunk 8192 0 piece).length = 8192 := by
    rw [Chunks.length_chunk]
    omega
  have hreads : Client.bodyReads .blocking [piece] = Chunks.chunk 8192 0 piece :: rest := by
    simp [Client.bodyReads, hne, hrest]
  refine ⟨Sample.after_of_tooLarge .async ?_, Sample.after_of_tooLarge .blocking ?_⟩
  · have hframe : Client.bodyReads .async [piece] = piece :: [] := rfl
    rw [readAllBodyLimited_of_first hframe (by omega) (by rw [hpiece]; decide), hpiece]
  · rw [readAllBodyLimited_of_first hreads (by omega) (by rw [hfirst]; decide), hfirst]

end Reqx.Driver
