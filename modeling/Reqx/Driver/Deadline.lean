import Reqx.Driver.PassOrder
import Reqx.Driver.Permits

/-!
# The total timeout of a request

Whatever the loop starts, it starts with time left: sends, body reads, sleeps
before a retry and waits for the rate limiter. A retry or a wait that would
use up the time ends the request instead, before the budget is asked.
-/

namespace Reqx.Driver

open Logged

variable {σ C A : Type}

/-! ## Time left -/

/-- A request with a total timeout: its two timeouts and its start. -/
structure Deadline where
  total : ℕ
  requestTimeout : ℕ
  startedAt : ℕ

namespace Deadline

variable (d : Deadline)

def left (now : ℕ) : ℕ := d.total - elapsed d.startedAt now

/-- The execution state runs under this deadline. -/
structure Governs (x : RequestExecutionState) : Prop where
  total : x.options.totalTimeout = some d.total
  requestTimeout : x.options.requestTimeout = d.requestTimeout
  startedAt : x.requestStartedAt = d.startedAt

def Allows (timeout now : ℕ) : Prop := timeout ≤ d.requestTimeout ∧ timeout ≤ d.left now

variable {d} {x : RequestExecutionState}

theorem Governs.phaseTimeout (hx : d.Governs x) {now timeout : ℕ}
    (h : x.phaseTimeout now = some timeout) :
    elapsed d.startedAt now < d.total ∧ d.Allows timeout now := by
  unfold RequestExecutionState.phaseTimeout at h
  rw [hx.total, hx.requestTimeout, hx.startedAt] at h
  exact phaseTimeout_eq_some h

theorem Governs.boundedRetryDelay (hx : d.Governs x) (delay now : ℕ) :
    boundedRetryDelay delay x.options.totalTimeout x.requestStartedAt now =
      if delay < d.left now then some delay else none := by
  rw [hx.total, hx.startedAt]
  exact boundedRetryDelay_total

end Deadline

/-! ## Events in time -/

/-- The event was started with time left, by the clock readings of the turn. -/
def OnTime (d : Deadline) (t : Turn C A) : Event σ C A → Prop
  | .sent request =>
    elapsed d.startedAt request.sentAt < d.total ∧ d.Allows request.timeout request.sentAt
  | .readStarted timeout => d.Allows timeout t.readAt
  | .waited wait => ∃ now, (wait, now) ∈ t.limiterWaits ∧ wait < d.left now
  | .slept delay => delay < d.left t.retryAt
  | _ => True

/-- The policy allows the retry and attempts are left. -/
def Allowed (policy : RetryPolicy) (decision : RetryDecision) : Prop :=
  decision.attempt < decision.maxAttempts ∧ policy.shouldRetryDecision decision = true

variable (policy : RetryPolicy) (d : Deadline) (t : Turn C A)

/-- A retry that is asked for has the time that it needs, if it is allowed at all. -/
def Harmless (e : Event σ C A) : Prop :=
  OnTime d t e ∧ ∀ decision delay, e = .retryAsked decision delay →
    Allowed policy decision → delay < d.left t.retryAt

/-- Nothing late is asked for, and no token taken. -/
def Quiet (e : Event σ C A) : Prop := Harmless policy d t e ∧ e.isTokenTaken = false

def Free (e : Event σ C A) : Prop := OnTime d t e ∧ e.isTokenTaken = false

def EndsLate (phase : Phase σ C A) : Prop :=
  ∃ f : Finish C A, phase = .finished f ∧ f.outcome = .failed f.execution.deadlineError

/-- Nothing about the pass was late, or it ended for being late and took no token. -/
def Obeys (es : List (Event σ C A)) (phase : Phase σ C A) : Prop :=
  (∀ e ∈ es, Harmless policy d t e) ∨ EndsLate phase ∧ ∀ e ∈ es, Free d t e

/-- The event has nothing to do with time. -/
def Plain : Event σ C A → Prop
  | .sent _ | .readStarted _ | .waited _ | .slept _ | .retryAsked _ _ | .tokenTaken => False
  | _ => True

variable {policy d t}

variable {e : Event σ C A}

theorem Plain.quiet (h : Plain e) : Quiet policy d t e := by
  cases e with
  | sent | readStarted | waited | slept | retryAsked | tokenTaken => exact h.elim
  | _ => exact ⟨⟨trivial, fun _ _ h ↦ by cases h⟩, rfl⟩

theorem Quiet.free (h : Quiet policy d t e) : Free d t e := ⟨h.1.1, h.2⟩

theorem Plain.free (h : Plain e) : Free d t e := by
  have hquiet : Quiet .standard d t e := h.quiet
  exact hquiet.free

theorem Obeys.append {es es' : List (Event σ C A)} {phase : Phase σ C A}
    (hes : ∀ e ∈ es, Quiet policy d t e) (h : Obeys policy d t es' phase) :
    Obeys policy d t (es ++ es') phase := by
  rcases h with h | ⟨hlate, h⟩
  · exact .inl (List.forall_mem_append.mpr ⟨fun e he ↦ (hes e he).1, h⟩)
  · exact .inr ⟨hlate, List.forall_mem_append.mpr ⟨fun e he ↦ (hes e he).free, h⟩⟩

section Rules

variable {α : Type} {y : Logged (Event σ C A) α} {f : α → Logged (Event σ C A) (Phase σ C A)}

/-- A part without late retries comes first. -/
theorem Obeys.bind (hy : y.All (Quiet policy d t)) (hf : (f y.value).Ensures (Obeys policy d t)) :
    (y >>= f).Ensures (Obeys policy d t) :=
  Obeys.append hy hf

theorem obeys_plain_bind (hy : y.All Plain) (hf : (f y.value).Ensures (Obeys policy d t)) :
    (y >>= f).Ensures (Obeys policy d t) :=
  Obeys.bind (hy.mono fun _ he ↦ he.quiet) hf

theorem plain_of_report (h : y.All Report) : y.All Plain := by
  refine h.mono fun e he ↦ ?_
  cases e with
  | sent | readStarted | waited | slept | retryAsked | tokenTaken => cases he
  | _ => trivial

theorem harmless_of_report (h : y.All Report) : y.All (Harmless policy d t) :=
  (plain_of_report h).mono fun _ he ↦ he.quiet.1

theorem obeys_of_report {y : Logged (Event σ C A) (Phase σ C A)} (h : y.All Report) :
    y.Ensures (Obeys policy d t) :=
  .inl (harmless_of_report h)

end Rules

section Parts

variable {g : AttemptGuards C A} {x : RequestExecutionState} {c : Client}
  {context : RequestContext} {rt : Runtime} {mode : ResponseMode} {body : RequestBody σ}

theorem plain_tell {e : Event σ C A} (h : Plain e) : (tell [e]).All Plain :=
  all_tell.mpr fun _ he ↦ List.mem_singleton.mp he ▸ h

/-! ## Admission -/

/-- The limiter is asked until it answers zero, and one of its answers is too long a wait. -/
def Overlong (d : Deadline) : List (ℕ × ℕ) → Prop
  | [] => False
  | (wait, now) :: rest => wait ≠ 0 ∧ (d.left now ≤ wait ∨ Overlong d rest)

variable (dropped : Bool) (host : Option Text) {waits : List (ℕ × ℕ)}

theorem quiet_waitForSlot (hx : d.Governs x) (hwaits : waits ⊆ t.limiterWaits) :
    (Client.waitForSlot x dropped host waits : Logged (Event σ C A) _).All
      (Quiet policy d t) := by
  have hplain : Plain (.limiterCalled (.acquireDelay host) : Event σ C A) := trivial
  have hcalled := (plain_tell hplain).mono fun _ he ↦ (he.quiet : Quiet policy d t _)
  induction waits with
  | nil =>
    cases dropped with
    | false => exact hcalled.bind fun _ ↦ all_pure _
    | true => exact all_pure _
  | cons first rest ih =>
    obtain ⟨wait, now⟩ := first
    obtain ⟨hfirst, hrest⟩ := List.cons_subset.mp hwaits
    refine hcalled.bind fun _ ↦ ?_
    split
    · exact all_pure _
    · rw [hx.boundedRetryDelay]
      split
      · exact all_pure _
      next wait' hwait =>
        split at hwait
        next hshort =>
          cases hwait
          refine All.bind (all_tell.mpr fun e he ↦ ?_) fun _ ↦ ih hrest
          rw [List.mem_singleton.mp he]
          exact ⟨⟨⟨now, hfirst, hshort⟩, fun _ _ h ↦ by cases h⟩, rfl⟩
        · cases hwait

theorem waitForSlot_overlong (hx : d.Governs x) (h : Overlong d waits) :
    (Client.waitForSlot x dropped host waits : Logged (Event σ C A) _).value =
      .error x.deadlineError := by
  induction waits with
  | nil => exact h.elim
  | cons first rest ih =>
    obtain ⟨wait, now⟩ := first
    obtain ⟨hwait, hlong⟩ := h
    unfold Client.waitForSlot
    rw [if_neg hwait, hx.boundedRetryDelay]
    by_cases hshort : wait < d.left now
    · rw [if_pos hshort]
      exact ih (hlong.resolve_left (not_le.mpr hshort))
    · rw [if_neg hshort]
      rfl

theorem quiet_acquireRateLimitSlot (hx : d.Governs x) :
    (c.acquireRateLimitSlot t x rt : Logged (Event σ C A) _).All (Quiet policy d t) := by
  unfold Client.acquireRateLimitSlot
  split
  · exact all_pure _
  · exact quiet_waitForSlot _ _ hx (List.Subset.refl _)

theorem quiet_beginAttempt (hx : d.Governs x) :
    (beginAttempt rt c t x context : Logged (Event σ C A) _).All (Quiet policy d t) := by
  have hplain {α : Type} {y : Logged (Event σ C A) α} (h : y.All Plain) :
      y.All (Quiet policy d t) := h.mono fun _ he ↦ he.quiet
  unfold beginAttempt
  refine (quiet_acquireRateLimitSlot hx).bind fun slot ↦ ?_
  split
  · exact hplain (plain_of_report ((report_tell rfl).bind fun _ ↦ all_pure _))
  split
  · exact all_pure _
  split
  · exact all_pure _
  split
  · exact hplain (plain_of_report ((report_tell rfl).bind fun _ ↦ all_pure _))
  refine (hplain (all_beginCircuitAttempt fun _ ↦ trivial)).bind fun circuit ↦ hplain ?_
  split
  · exact plain_of_report ((report_tell rfl).bind fun _ ↦ all_pure _)
  split
  · exact plain_of_report ((report_finish _).bind fun _ ↦ all_pure _)
  refine (all_beginAdaptiveAttempt fun _ ↦ trivial).bind fun adaptive ↦ ?_
  split
  · exact plain_of_report ((report_finish _).bind fun _ ↦ (report_tell rfl).bind fun _ ↦ all_pure _)
  · exact all_pure _

/-! ## Retries -/

/-- The answer to a question about a retry: without one, with one in time, or too late. -/
inductive Answered {β : Type} (policy : RetryPolicy) (d : Deadline) (t : Turn C A)
    (retry : ℕ → β) (x : RequestExecutionState) :
    List (Event σ C A) → Except Error β → RequestExecutionState → Prop
  | kept {es : List (Event σ C A)} (hes : ∀ e ∈ es, Quiet policy d t e) (result : Except Error β)
      (hresult : ∀ delay, result ≠ .ok (retry delay)) : Answered policy d t retry x es result x
  | scheduled {es : List (Event σ C A)} (hes : ∀ e ∈ es, Harmless policy d t e) {delay : ℕ}
      (hdelay : delay < d.left t.retryAt) :
      Answered policy d t retry x es (.ok (retry delay)) { x with attempt := x.attempt + 1 }
  | late {es : List (Event σ C A)} (hes : ∀ e ∈ es, Free d t e) :
      Answered policy d t retry x es (.error x.deadlineError) x

/-- The plan is about the attempt that the state counts. -/
def PlanFor (x : RequestExecutionState) (plan : RetryPlan) : Prop :=
  plan.decision.attempt = x.attempt ∧ plan.decision.maxAttempts = x.maxAttempts

theorem harmless_retryAsked {decision : RetryDecision} {delay : ℕ}
    (h : Allowed policy decision → delay < d.left t.retryAt) :
    Harmless policy d t (.retryAsked decision delay : Event σ C A) :=
  ⟨trivial, fun _ _ heq ↦ by cases heq; exact h⟩

theorem prepareRetry_answered (hx : d.Governs x) {plan : RetryPlan} (hplan : PlanFor x plan) :
    (c.prepareRetry t x context plan : Logged (Event σ C A) _).Ensures fun es result ↦
      Answered x.options.retryPolicy d t .scheduled x es result.1 result.2 := by
  unfold Client.prepareRetry RequestExecutionState.prepareRetrySchedule
  rw [hx.boundedRetryDelay]
  apply ensures_tell_bind.mpr
  split
  next hrefused =>
    -- Without attempts left, or against the policy, nothing is scheduled.
    refine .kept (fun e he ↦ ?_) _ fun _ h ↦ by cases h
    rw [List.mem_singleton.mp he]
    refine ⟨harmless_retryAsked fun hallowed ↦ ?_, rfl⟩
    obtain ⟨hroom, hretry⟩ := hallowed
    rw [hplan.1, hplan.2] at hroom
    simp [not_le.mpr hroom, hretry] at hrefused
  · by_cases hshort : plan.delay < d.left t.retryAt
    · rw [if_pos hshort]
      have hasked : Harmless x.options.retryPolicy d t
          (.retryAsked plan.decision plan.delay : Event σ C A) := harmless_retryAsked fun _ ↦ hshort
      have hscheduled : Plain (.retryScheduled context plan.decision plan.delay : Event σ C A) :=
        trivial
      have htoken : Harmless x.options.retryPolicy d t (.tokenTaken : Event σ C A) :=
        ⟨trivial, fun _ _ h ↦ by cases h⟩
      have hfailed (error : Error) : Plain (.failed context error : Event σ C A) := trivial
      unfold Client.tryConsumeRetryBudget
      dsimp only
      split
      · exact .scheduled (List.forall_mem_cons.mpr ⟨hasked,
          List.forall_mem_singleton.mpr hscheduled.quiet.1⟩) hshort
      · split
        · exact .scheduled (List.forall_mem_cons.mpr ⟨hasked, List.forall_mem_cons.mpr
            ⟨htoken, List.forall_mem_singleton.mpr hscheduled.quiet.1⟩⟩) hshort
        · exact .kept (List.forall_mem_cons.mpr ⟨⟨hasked, rfl⟩,
            List.forall_mem_singleton.mpr (hfailed _).quiet⟩) _ fun _ h ↦ by cases h
    · rw [if_neg hshort]
      exact .late (List.forall_mem_cons.mpr ⟨⟨trivial, rfl⟩,
        List.forall_mem_singleton.mpr ⟨trivial, rfl⟩⟩)

theorem planFor_transportFailurePlan {error : Error} {draw : ℕ} {plan : RetryPlan}
    (h : x.transportFailurePlan error c.backoffSource draw = .retry plan) : PlanFor x plan := by
  unfold RequestExecutionState.transportFailurePlan at h
  split at h
  next decision hdecision =>
    cases h
    cases error with
    | transport | timeout =>
      cases hdecision
      exact ⟨rfl, rfl⟩
    | _ => cases hdecision
  · split at h <;> cases h

theorem harmless_sleep {delay : ℕ} (hdelay : delay < d.left t.retryAt) :
    (Client.sleep delay : Logged (Event σ C A) Unit).All (Harmless policy d t) := by
  unfold Client.sleep
  split
  · exact all_pure _
  · exact List.forall_mem_singleton.mpr ⟨hdelay, fun _ _ h ↦ by cases h⟩

/-- After a failure the retry sleeps in time, and the pass ends. -/
theorem harmless_retry {delay : ℕ} (hdelay : delay < d.left t.retryAt) (phase : Phase σ C A) :
    (g.markFailure >>= fun g ↦ Client.sleep delay >>= fun _ ↦ leave g phase).All
      (Harmless policy d t) :=
  (harmless_of_report (report_finish .failure)).bind fun _ ↦
    (harmless_sleep hdelay).bind fun _ ↦ harmless_of_report (report_leave phase)

theorem report_markFailure_leave (phase : Phase σ C A) :
    (g.markFailure >>= fun g ↦ leave g phase).All Report :=
  (report_finish .failure).bind fun _ ↦ report_leave phase

/-- A pass that learns only that it is late fails with the deadline's error. -/
theorem obeys_late {es : List (Event σ C A)} (hes : ∀ e ∈ es, Free d t e) :
    (g.markFailure >>= fun g ↦ leave g (.finished ⟨x, .failed x.deadlineError⟩ :
      Phase σ C A)).Ensures fun es' phase ↦ Obeys policy d t (es ++ es') phase := by
  have hrest := plain_of_report (report_markFailure_leave (g := g)
    (.finished ⟨x, .failed x.deadlineError⟩ : Phase σ C A))
  exact .inr ⟨⟨_, rfl, rfl⟩, List.forall_mem_append.mpr ⟨hes, hrest.mono fun _ he ↦ he.free⟩⟩

theorem obeys_followSchedule {es : List (Event σ C A)} {schedule : Except Error RetrySchedule}
    {x' : RequestExecutionState} (h : Answered policy d t .scheduled x es schedule x')
    {k : AttemptGuards C A → Logged (Event σ C A) (Phase σ C A)}
    (hk : x' = x → (k g).Ensures (Obeys policy d t)) :
    (followSchedule x' body g schedule k).Ensures fun es' phase ↦
      Obeys policy d t (es ++ es') phase := by
  cases h with
  | kept hes result hresult =>
    refine Obeys.append hes ?_
    cases schedule with
    | error error => exact obeys_of_report (report_markFailure_leave _)
    | ok schedule =>
      cases schedule with
      | notScheduled => exact hk rfl
      | scheduled delay => exact absurd rfl (hresult delay)
  | scheduled hes hdelay =>
    exact .inl (List.forall_mem_append.mpr ⟨hes, harmless_retry hdelay _⟩)
  | late hes => exact obeys_late hes

theorem obeys_settleFailure (hx : d.Governs x) (error : Error) :
    (settleFailure c t x body g context error).Ensures
      (Obeys x.options.retryPolicy d t) := by
  unfold settleFailure
  split
  next plan hplan =>
    refine Ensures.bind (prepareRetry_answered hx (planFor_transportFailurePlan hplan)) ?_
    rintro es ⟨schedule, x'⟩ hanswer
    refine obeys_followSchedule hanswer fun _ ↦ ?_
    exact obeys_of_report ((report_finish _).bind fun _ ↦ report_fail _)
  next disposition hplan =>
    apply obeys_of_report
    cases disposition <;> exact (report_finish _).bind fun _ ↦ report_fail _

/-! ## Response bodies -/

theorem handleBodyReadFailure_answered (hx : d.Governs x) (failure : BodyReadFailure)
    (hplan : ∀ error plan, failure = .retryable error plan → PlanFor x plan) :
    (c.handleBodyReadFailure t x context failure : Logged (Event σ C A) _).Ensures
      fun es result ↦ Answered x.options.retryPolicy d t .retry x es result.1 result.2 := by
  have hfailed (error : Error) : Plain (.failed context error : Event σ C A) := trivial
  unfold Client.handleBodyReadFailure
  cases failure with
  | terminal error =>
    exact .kept (List.forall_mem_singleton.mpr (hfailed _).quiet) _ fun _ h ↦ by cases h
  | retryable error plan =>
    refine Ensures.bind (prepareRetry_answered hx (hplan error plan rfl)) ?_
    rintro es ⟨schedule, x'⟩
      (hanswer : Answered x.options.retryPolicy d t RetrySchedule.scheduled x es schedule x')
    cases hanswer with
    | kept hes result hresult =>
      cases schedule with
      | error error =>
        exact .kept (List.forall_mem_append.mpr ⟨hes, all_pure _⟩) _ fun _ h ↦ by cases h
      | ok schedule =>
        cases schedule with
        | notScheduled =>
          exact .kept (List.forall_mem_append.mpr ⟨hes,
            List.forall_mem_singleton.mpr (hfailed _).quiet⟩) _ fun _ h ↦ by cases h
        | scheduled delay => exact absurd rfl (hresult delay)
    | scheduled hes hdelay =>
      exact .scheduled (List.forall_mem_append.mpr ⟨hes, all_pure _⟩) hdelay
    | late hes => exact .late (List.forall_mem_append.mpr ⟨hes, all_pure _⟩)

theorem Answered.append {β : Type} {retry : ℕ → β} {es es' : List (Event σ C A)}
    {result : Except Error β} {x' : RequestExecutionState} (hes : ∀ e ∈ es, Quiet policy d t e)
    (h : Answered policy d t retry x es' result x') :
    Answered policy d t retry x (es ++ es') result x' := by
  cases h with
  | kept hes' result hresult => exact .kept (List.forall_mem_append.mpr ⟨hes, hes'⟩) _ hresult
  | scheduled hes' hdelay =>
    exact .scheduled (List.forall_mem_append.mpr ⟨fun e he ↦ (hes e he).1, hes'⟩) hdelay
  | late hes' => exact .late (List.forall_mem_append.mpr ⟨fun e he ↦ (hes e he).free, hes'⟩)

theorem readResponseBodyWithRetry_answered (hx : d.Governs x) {readTimeout : ℕ}
    (htimeout : d.Allows readTimeout t.readAt) :
    (c.readResponseBodyWithRetry t x rt context readTimeout : Logged (Event σ C A) _).Ensures
      fun es result ↦ Answered x.options.retryPolicy d t .retry x es result.1 result.2 := by
  have hstarted : Quiet x.options.retryPolicy d t (.readStarted readTimeout : Event σ C A) :=
    ⟨⟨htimeout, fun _ _ h ↦ by cases h⟩, rfl⟩
  have hfailed (error : Error) : Plain (.failed context error : Event σ C A) := trivial
  unfold Client.readResponseBodyWithRetry
  refine ensures_tell_bind.mpr (Answered.append (List.forall_mem_singleton.mpr hstarted) ?_)
  split
  · exact .kept (all_pure _) _ fun _ h ↦ by cases h
  · exact .kept (List.forall_mem_singleton.mpr (hfailed _).quiet) _ fun _ h ↦ by cases h
  · refine handleBodyReadFailure_answered hx _ fun error plan hplan ↦ ?_
    unfold RequestExecutionState.responseBodyTimeoutFailure at hplan
    split at hplan
    · cases hplan
    · cases hplan
      exact ⟨rfl, rfl⟩
  · refine handleBodyReadFailure_answered hx _ fun error plan hplan ↦ ?_
    cases hplan
    exact ⟨rfl, rfl⟩

theorem readDecodedResponseBodyWithRetry_answered (hx : d.Governs x) (status : StatusCode)
    (headers : HeaderMap) {readTimeout : ℕ} (htimeout : d.Allows readTimeout t.readAt) :
    (c.readDecodedResponseBodyWithRetry t x rt context status headers readTimeout :
      Logged (Event σ C A) _).Ensures fun es result ↦
        Answered x.options.retryPolicy d t .retry x es result.1 result.2.2 := by
  have hfailed (error : Error) : Plain (.failed context error : Event σ C A) := trivial
  unfold Client.readDecodedResponseBodyWithRetry
  split
  · exact .kept (List.forall_mem_singleton.mpr (hfailed _).quiet) _ fun _ h ↦ by cases h
  refine Ensures.bind (readResponseBodyWithRetry_answered hx htimeout) ?_
  rintro es ⟨result, x'⟩ (hanswer : Answered x.options.retryPolicy d t
    Client.BodyReadOutcome.retry x es result x')
  cases hanswer with
  | kept hes result hresult =>
    refine Answered.append hes ?_
    cases result with
    | error error => exact .kept (all_pure _) _ fun _ h ↦ by cases h
    | ok outcome =>
      cases outcome with
      | retry delay => exact absurd rfl (hresult delay)
      | body bytes =>
        dsimp only
        split
        · exact .kept (List.forall_mem_singleton.mpr (hfailed _).quiet) _
            fun _ h ↦ by cases h
        · exact .kept (all_pure _) _ fun _ h ↦ by cases h
  | scheduled hes hdelay =>
    exact .scheduled (List.forall_mem_append.mpr ⟨hes, all_pure _⟩) hdelay
  | late hes => exact .late (List.forall_mem_append.mpr ⟨hes, all_pure _⟩)

theorem obeys_readBody (hx : d.Governs x) (status : StatusCode) (headers : HeaderMap) :
    (readBody rt c mode t x body g context status headers).Ensures
      (Obeys x.options.retryPolicy d t) := by
  unfold readBody
  split
  · exact obeys_of_report ((report_finish _).bind fun _ ↦ report_fail _)
  next readTimeout htimeout =>
    split
    · exact obeys_of_report (report_leave _)
    refine Ensures.bind (readDecodedResponseBodyWithRetry_answered hx status headers
      (hx.phaseTimeout htimeout).2) ?_
    rintro es ⟨result, headers, x'⟩ (hanswer : Answered x.options.retryPolicy d t
      Client.BodyReadOutcome.retry x es result x')
    cases hanswer with
    | kept hes result hresult =>
      refine Obeys.append hes ?_
      cases result with
      | error error => exact obeys_of_report ((report_finish _).bind fun _ ↦ report_leave _)
      | ok outcome =>
        cases outcome with
        | retry delay => exact absurd rfl (hresult delay)
        | body bytes => exact obeys_of_report (report_finishResponse _ _ _)
    | scheduled hes hdelay =>
      exact .inl (List.forall_mem_append.mpr ⟨hes, harmless_retry hdelay _⟩)
    | late hes => exact obeys_late hes

/-! ## A pass -/

theorem obeys_settleNonSuccess (hx : d.Governs x) (transportTimeout : ℕ) (status : StatusCode)
    (headers : HeaderMap) :
    (settleNonSuccess rt c mode t x body g context transportTimeout status headers).Ensures
      (Obeys x.options.retryPolicy d t) := by
  unfold settleNonSuccess
  refine obeys_plain_bind (plain_of_report (report_observeServerThrottle _ _ _ _)) ?_
  refine Ensures.bind (prepareRetry_answered hx ⟨rfl, rfl⟩) ?_
  rintro es ⟨schedule, x'⟩ hanswer
  refine obeys_followSchedule hanswer ?_
  rintro rfl
  split
  · exact obeys_of_report (report_returnStream _ _ _ _)
  · exact obeys_readBody hx status headers

theorem obeys_settleResponse (hx : d.Governs x) (transportTimeout : ℕ) (status : StatusCode)
    (headers : HeaderMap) :
    (settleResponse rt c mode t x body g context transportTimeout status headers).Ensures
      (Obeys x.options.retryPolicy d t) := by
  unfold settleResponse
  split
  · exact obeys_of_report ((report_finish _).bind fun _ ↦ report_fail _)
  · refine obeys_of_report ((report_tell rfl).bind fun _ ↦ (report_finish _).bind fun _ ↦ ?_)
    exact (report_tell rfl).bind fun _ ↦ report_leave _
  · refine obeys_plain_bind (plain_tell trivial) ?_
    split
    · split
      · exact obeys_of_report (report_returnStream _ _ _ _)
      · exact obeys_readBody hx status headers
    · exact obeys_settleNonSuccess hx transportTimeout status headers

theorem transmit_sent (request : SentRequest σ) :
    (c.transmit t x rt request : Logged (Event σ C A) _).All (· = .sent request) := by
  have htell {α : Type} (f : Unit → Logged (Event σ C A) α) (hf : (f ()).events = []) :
      (Logged.tell [(.sent request : Event σ C A)] >>= f).All (· = .sent request) := by
    refine all_bind.mpr ⟨all_tell.mpr fun e he ↦ List.mem_singleton.mp he, fun e he ↦ ?_⟩
    rw [hf] at he
    cases he
  cases rt with
  | blocking =>
    simp only [Client.transmit, Client.runOnce]
    split
    · exact all_pure _
    · split
      · exact all_pure _
      · refine htell _ ?_
        split <;> rfl
  | async =>
    refine htell _ ?_
    split
    · rfl
    · split <;> rfl

theorem Deadline.Governs.tighten (hx : d.Governs x) (headers : HeaderMap)
    (supportsRetry : RetryEligibility) : d.Governs (x.tightenRetryEligibility headers supportsRetry)
      ∧ (x.tightenRetryEligibility headers supportsRetry).options = x.options := by
  unfold RequestExecutionState.tightenRetryEligibility
  split
  · exact ⟨⟨hx.total, hx.requestTimeout, hx.startedAt⟩, rfl⟩
  · exact ⟨hx, rfl⟩

variable {s : SendState σ}

theorem obeys_dispatch (hs : d.Governs s.execution) :
    (dispatch rt c mode t s g).Ensures (Obeys s.execution.options.retryPolicy d t) := by
  obtain ⟨hx, hoptions⟩ := hs.tighten (interceptedHeaders t s) c.supportsRetry
  rw [← hoptions]
  unfold dispatch
  dsimp only
  split
  · exact obeys_of_report ((report_finish _).bind fun _ ↦ report_fail _)
  split
  · exact obeys_of_report ((report_finish _).bind fun _ ↦ report_fail _)
  next transportTimeout htimeout =>
    refine Obeys.bind ((transmit_sent _).mono ?_) ?_
    · rintro e rfl
      exact ⟨⟨hx.phaseTimeout htimeout, fun _ _ h ↦ by cases h⟩, rfl⟩
    split
    · exact obeys_of_report (report_leave _)
    split
    · exact obeys_settleFailure hx _
    · exact obeys_settleResponse hx _ _ _

theorem obeys_pass (hs : d.Governs s.execution) :
    (pass rt c mode t (.running s)).Ensures (Obeys s.execution.options.retryPolicy d t) := by
  unfold pass
  dsimp only
  split
  · exact .inl (all_pure _)
  split
  · refine obeys_plain_bind (plain_tell trivial) (Obeys.bind (quiet_beginAttempt hs) ?_)
    split
    · exact .inl (all_pure _)
    · exact obeys_dispatch hs
  · exact obeys_of_report ((report_tell rfl).bind fun _ ↦ all_pure _)

theorem beginAttempt_overlong (hx : d.Governs x) (hlimiter : c.rateLimiter.isSome = true)
    (hwaits : Overlong d t.limiterWaits) :
    (beginAttempt rt c t x context : Logged (Event σ C A) _).value =
      .error (.failed x.deadlineError) := by
  have hslot : (c.acquireRateLimitSlot t x rt : Logged (Event σ C A) _).Ensures
      fun _ result ↦ result = .error x.deadlineError := by
    unfold Client.acquireRateLimitSlot
    rw [if_neg (by simp [Option.isNone_iff_eq_none, Option.isSome_iff_ne_none.mp hlimiter])]
    exact waitForSlot_overlong _ _ hx hwaits
  have hbegin : (beginAttempt rt c t x context : Logged (Event σ C A) _).Ensures
      fun _ result ↦ result = .error (.failed x.deadlineError) := by
    unfold beginAttempt
    refine hslot.bind ?_
    rintro _ _ rfl
    rfl
  exact hbegin

/-- A wait that is too long ends the request before anything else of the pass. -/
theorem pass_overlong (hs : d.Governs s.execution) (hlimiter : c.rateLimiter.isSome = true)
    (hwaits : Overlong d t.limiterWaits) (hawaited : rt.abandons t .sleep = false) :
    (pass rt c mode t (.running s)).Ensures fun es phase ↦
      EndsLate phase ∧ ∀ e ∈ es, Free d t e := by
  have hstarted : Plain (.requestStarted s.execution.context : Event σ C A) := trivial
  have hfailed (error : Error) : Plain (.failed s.execution.context error : Event σ C A) := trivial
  unfold pass
  dsimp only
  rw [hawaited, if_neg Bool.false_ne_true]
  split
  · have hbegin : (beginAttempt rt c t s.execution s.execution.context :
        Logged (Event σ C A) _).Ensures fun es result ↦
          (∀ e ∈ es, Quiet .standard d t e) ∧
            result = .error (.failed s.execution.deadlineError) :=
      ⟨quiet_beginAttempt hs, beginAttempt_overlong hs hlimiter hwaits⟩
    refine ensures_tell_bind.mpr (Ensures.bind hbegin ?_)
    rintro es result ⟨hes, rfl⟩
    refine ⟨⟨_, rfl, rfl⟩, List.forall_mem_append.mpr
      ⟨List.forall_mem_singleton.mpr hstarted.free, List.forall_mem_append.mpr ⟨?_, all_pure _⟩⟩⟩
    exact fun e he ↦ (hes e he).free
  · exact ⟨⟨_, rfl, rfl⟩, List.forall_mem_singleton.mpr (hfailed _).free⟩

end Parts

/-! ## Runs -/

namespace SendCall

variable (q : SendCall σ)

/-- The deadline of a call with this total timeout. -/
def deadline (total : ℕ) : Deadline :=
  ⟨total, q.input.executionOptions.requestTimeout, q.requestStartedAt⟩

variable {q}

theorem options_of_running {turns : List (Turn C A)} {s : SendState σ}
    (h : q.after turns = .running s) :
    s.execution.options = q.input.executionOptions ∧
      s.execution.requestStartedAt = q.requestStartedAt := by
  have hinvariant := running_invariant (C := C) (A := A) (q := q) (P := fun _ _ s ↦
    s.execution.options = q.input.executionOptions ∧
      s.execution.requestStartedAt = q.requestStartedAt)
    ⟨rfl, rfl⟩ ?_ h
  · exact hinvariant
  intro turns t T s U s' hs hpassed
  obtain ⟨limit, htight, -⟩ := tightened_cases q.client t s
  cases hpassed with
  | retried request g hrequest hroom =>
    rw [htight]
    exact hs
  | redirected request g status headers action hrequest haction =>
    rw [htight]
    exact hs

theorem governs {total : ℕ} (htotal : q.input.executionOptions.totalTimeout = some total)
    {turns : List (Turn C A)} {s : SendState σ} (h : q.after turns = .running s) :
    (q.deadline total).Governs s.execution := by
  obtain ⟨hoptions, hstarted⟩ := options_of_running h
  exact ⟨hoptions ▸ htotal, hoptions ▸ rfl, hstarted⟩

end SendCall

/-- What a pass does about time. Its readings of the clock are those of the turn. -/
structure Punctual (q : SendCall σ) (d : Deadline) (t : Turn C A) (es : List (Event σ C A))
    (phase : Phase σ C A) : Prop where
  sends : ∀ request, .sent request ∈ es → elapsed d.startedAt request.sentAt < d.total ∧
    request.timeout ≤ d.requestTimeout ∧ request.timeout ≤ d.left request.sentAt
  reads : ∀ timeout, .readStarted timeout ∈ es →
    timeout ≤ d.requestTimeout ∧ timeout ≤ d.left t.readAt
  sleeps : ∀ delay, .slept delay ∈ es → delay < d.left t.retryAt
  waits : ∀ wait, .waited wait ∈ es → ∃ now, (wait, now) ∈ t.limiterWaits ∧ wait < d.left now
  late_retry : ∀ decision delay, .retryAsked decision delay ∈ es →
    Allowed q.input.executionOptions.retryPolicy decision → d.left t.retryAt ≤ delay →
      EndsLate phase ∧ .tokenTaken ∉ es
  late_wait : q.client.rateLimiter.isSome = true → q.runtime.abandons t .sleep = false →
    Overlong d t.limiterWaits → EndsLate phase ∧ .tokenTaken ∉ es

theorem Free.not_mem {es : List (Event σ C A)} (h : ∀ e ∈ es, Free d t e) : .tokenTaken ∉ es := by
  intro hmem
  cases (h _ hmem).2

theorem send_loop_punctual (q : SendCall σ) {total : ℕ}
    (htotal : q.input.executionOptions.totalTimeout = some total) (turns : List (Turn C A))
    {s : SendState σ} (hs : q.after turns = .running s) (t : Turn C A) :
    Punctual q (q.deadline total) t (pass q.runtime q.client q.mode t (.running s)).events
      (q.after (turns ++ [t])) := by
  have hgoverns := SendCall.governs htotal hs
  have hoptions := (SendCall.options_of_running hs).1
  have hobeys : (pass q.runtime q.client q.mode t (.running s)).Ensures
      (Obeys q.input.executionOptions.retryPolicy (q.deadline total) t) :=
    hoptions ▸ obeys_pass hgoverns
  have hontime : ∀ e ∈ (pass q.runtime q.client q.mode t (.running s)).events,
      OnTime (q.deadline total) t e := by
    rcases hobeys with h | ⟨-, h⟩
    · exact fun e he ↦ (h e he).1
    · exact fun e he ↦ (h e he).1
  rw [SendCall.after_concat, hs]
  refine ⟨fun request ↦ hontime _, fun timeout ↦ hontime _, fun delay ↦ hontime _,
    fun wait ↦ hontime _, fun decision delay hasked hallowed hlate ↦ ?_,
    fun hlimiter hawaited hwaits ↦ ?_⟩
  · rcases hobeys with h | ⟨hends, h⟩
    · exact absurd ((h _ hasked).2 decision delay rfl hallowed) (not_lt.mpr hlate)
    · exact ⟨hends, Free.not_mem h⟩
  · obtain ⟨hends, h⟩ := pass_overlong hgoverns hlimiter hwaits hawaited
    exact ⟨hends, Free.not_mem h⟩

/-- A call that must be over after five seconds. -/
def Sample.timedCall : SendCall Unit :=
  let call := Sample.call .get .default
  { call with
    input := { call.input with
      executionOptions := { call.input.executionOptions with totalTimeout := some (fromSecs 5) } } }

theorem send_loop_punctual_timed_call :
    Sample.timedCall.input.executionOptions.totalTimeout = some (fromSecs 5) ∧
      Punctual Sample.timedCall (Sample.timedCall.deadline (fromSecs 5)) (Sample.turn 1 .timedOut)
        (pass .blocking Sample.client .buffered (Sample.turn 1 .timedOut)
          (.running Sample.timedCall.first)).events
        (Sample.timedCall.after ([] ++ [Sample.turn 1 .timedOut])) :=
  ⟨rfl, send_loop_punctual Sample.timedCall rfl [] rfl (Sample.turn 1 .timedOut)⟩

end Reqx.Driver
