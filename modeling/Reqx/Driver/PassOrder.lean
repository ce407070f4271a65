import Reqx.Driver.Run

/-!
# The order of a pass

A pass first admits its attempt: it asks for a slot until it gets one, and
begins the guards. Then the request is sent, and all the rest follows from the
answer. The log of a pass does not hold what the limiter answers; those are
the waits of the turn.
-/

namespace Reqx.Driver

open Logged

variable {σ C A : Type}

/-! ## Answers of the limiter -/

def Event.asksForSlot : Event σ C A → Bool
  | .limiterCalled (.acquireDelay _) => true
  | _ => false

/-- The events of a pass with the delays that the limiter answers: the next wait of the turn,
and zero once the waits are over. -/
def answered : List (ℕ × ℕ) → List (Event σ C A) → List (Event σ C A × ℕ)
  | _, [] => []
  | waits, e :: es =>
    if e.asksForSlot then (e, (waits.head?.map Prod.fst).getD 0) :: answered waits.tail es
    else (e, 0) :: answered waits es

theorem answered_cons_quiet {e : Event σ C A} (h : e.asksForSlot = false) (waits : List (ℕ × ℕ))
    (es : List (Event σ C A)) : answered waits (e :: es) = (e, 0) :: answered waits es := by
  rw [answered, if_neg (by simp [h])]

theorem answered_append (waits : List (ℕ × ℕ)) (es es' : List (Event σ C A)) :
    answered waits (es ++ es') =
      answered waits es ++ answered (waits.drop (es.countP Event.asksForSlot)) es' := by
  induction es generalizing waits with
  | nil => rfl
  | cons e es ih =>
    cases hasks : e.asksForSlot with
    | true =>
      simp only [List.cons_append, answered, hasks, if_true, ih, List.countP_cons,
        List.drop_tail]
    | false => simp [answered, hasks, ih]

@[simp] theorem map_fst_answered (waits : List (ℕ × ℕ)) (es : List (Event σ C A)) :
    (answered waits es).map Prod.fst = es := by
  induction es generalizing waits with
  | nil => rfl
  | cons e es ih =>
    rw [answered]
    split <;> rw [List.map_cons, ih]

theorem countP_answered (p : Event σ C A → Bool) (waits : List (ℕ × ℕ)) (es : List (Event σ C A)) :
    (answered waits es).countP (fun o ↦ p o.1) = es.countP p := by
  conv_rhs => rw [← map_fst_answered waits es, List.countP_map]
  rfl

theorem mem_fst_answered {waits : List (ℕ × ℕ)} {es : List (Event σ C A)} {o : Event σ C A × ℕ}
    (h : o ∈ answered waits es) : o.1 ∈ es := by
  rw [← map_fst_answered waits es]
  exact List.mem_map_of_mem h

/-! ## Before and after the send -/

/-- What a pass does to admit its attempt. -/
def Event.isEarly : Event σ C A → Bool
  | .requestStarted _ | .limiterCalled (.acquireDelay _) | .waited _ | .begun _ | .ended _ _
  | .failed _ _ => true
  | _ => false

/-- What a pass does after it has sent its request, or found that it cannot send it. -/
def Event.isLate : Event σ C A → Bool
  | .requestStarted _ | .limiterCalled (.acquireDelay _) | .waited _ | .begun _ | .sent _ => false
  | _ => true

/-- What a pass tells about an attempt that it settles. -/
def Event.isReport : Event σ C A → Bool
  | .limiterCalled (.acquireDelay _) => false
  | .limiterCalled _ | .ended _ _ | .responded _ _ _ | .redirected _ | .throttleObserved _ _ _
  | .retryScheduled _ _ _ | .successCredited | .failed _ _ => true
  | _ => false

def Early (e : Event σ C A) : Prop := e.isEarly = true

def Late (e : Event σ C A) : Prop := e.isLate = true

def Report (e : Event σ C A) : Prop := e.isReport = true

section Parts

variable {rt : Runtime} {c : Client} {mode : ResponseMode} {t : Turn C A}
  {x : RequestExecutionState} {body : RequestBody σ} {g : AttemptGuards C A}
  {context : RequestContext}

theorem all_finish {p : Event σ C A → Prop} {ending : Resilience.Ending}
    (h : ∀ guard, p (.ended guard ending)) : (g.finish ending : Logged (Event σ C A) _).All p := by
  refine All.bind (all_tell.mpr fun e he ↦ ?_) fun _ ↦ all_pure _
  obtain ⟨guard, -, rfl⟩ := List.mem_map.mp he
  exact h guard

theorem early_finish (ending : Resilience.Ending) :
    (g.finish ending : Logged (Event σ C A) _).All Early := all_finish fun _ ↦ rfl

theorem early_tell {e : Event σ C A} (h : e.isEarly = true) : (tell [e]).All Early :=
  all_tell.mpr fun _ he ↦ List.mem_singleton.mp he ▸ h

/-! ## Reports -/

theorem report_finish (ending : Resilience.Ending) :
    (g.finish ending : Logged (Event σ C A) _).All Report := all_finish fun _ ↦ rfl

theorem report_leave (phase : Phase σ C A) : (leave g phase).All Report :=
  (report_finish _).bind fun _ ↦ all_pure _

theorem report_tell {e : Event σ C A} (h : e.isReport = true) : (tell [e]).All Report :=
  all_tell.mpr fun _ he ↦ List.mem_singleton.mp he ▸ h

theorem report_fail (error : Error) :
    (fail g x context error : Logged (Event σ C A) (Phase σ C A)).All Report :=
  (report_tell rfl).bind fun _ ↦ report_leave _

theorem report_recordCompleted (completion : RequestCompletion) (retryBudget : Bool) :
    (completion.recordCompleted g retryBudget : Logged (Event σ C A) _).All Report := by
  have hattempt : (completion.recordAttempt g : Logged (Event σ C A) _).All Report := by
    cases completion <;> exact report_finish _
  refine hattempt.bind fun g ↦ ?_
  split
  · exact (report_tell rfl).bind fun _ ↦ all_pure _
  · exact all_pure _

theorem report_returnStream (completion : RequestCompletion) (transportTimeout : ℕ)
    (status : StatusCode) (headers : HeaderMap) :
    (returnStream c x g completion transportTimeout status headers :
      Logged (Event σ C A) (Phase σ C A)).All Report := by
  have hlifecycle : (completion.intoStreamLifecycle g c.retryBudget :
      Logged (Event σ C A) _).All Report := by
    cases completion with
    | failure => exact (report_finish _).bind fun _ ↦ all_pure _
    | success =>
      unfold RequestCompletion.intoStreamLifecycle
      dsimp only
      split <;> exact all_pure _
  exact hlifecycle.bind fun _ ↦ report_leave _

theorem report_finishResponse (status : StatusCode) (headers : HeaderMap) (responseBody : Bytes) :
    (finishResponse c mode x g context status headers responseBody :
      Logged (Event σ C A) (Phase σ C A)).All Report := by
  unfold finishResponse
  split
  · exact (report_recordCompleted _ _).bind fun _ ↦ report_leave _
  · refine (report_recordCompleted _ _).bind fun _ ↦ ?_
    split
    · exact report_leave _
    · exact report_fail _

theorem report_observeServerThrottle (status : StatusCode) (headers : HeaderMap)
    (host : Option Text) (fallbackDelay : ℕ) :
    (c.observeServerThrottle t context status headers host fallbackDelay :
      Logged (Event σ C A) Unit).All Report := by
  unfold Client.observeServerThrottle
  split
  · exact all_pure _
  split
  · exact (report_tell rfl).bind fun _ ↦ report_tell rfl
  · exact report_tell rfl

/-! ## After the send -/

theorem late_of_report {α : Type} {y : Logged (Event σ C A) α} (h : y.All Report) : y.All Late := by
  refine h.mono fun e he ↦ ?_
  cases e with
  | limiterCalled call =>
    cases call with
    | acquireDelay host => cases he
    | _ => rfl
  | requestStarted | waited | begun | sent => cases he
  | _ => rfl

theorem late_finish (ending : Resilience.Ending) :
    (g.finish ending : Logged (Event σ C A) _).All Late := late_of_report (report_finish _)

theorem late_leave (phase : Phase σ C A) : (leave g phase).All Late :=
  late_of_report (report_leave _)

theorem late_tell {e : Event σ C A} (h : e.isLate = true) : (tell [e]).All Late :=
  all_tell.mpr fun _ he ↦ List.mem_singleton.mp he ▸ h

theorem late_sleep (delay : ℕ) : (Client.sleep delay : Logged (Event σ C A) Unit).All Late := by
  unfold Client.sleep
  split
  · exact all_pure _
  · exact late_tell rfl

theorem late_tryConsumeRetryBudget (method : Method) (uri : Text) :
    (c.tryConsumeRetryBudget t method uri : Logged (Event σ C A) _).All Late := by
  unfold Client.tryConsumeRetryBudget
  split
  · exact all_pure _
  split
  · exact (late_tell rfl).bind fun _ ↦ all_pure _
  · exact all_pure _

theorem late_prepareRetry (plan : RetryPlan) :
    (c.prepareRetry t x context plan : Logged (Event σ C A) _).All Late := by
  unfold Client.prepareRetry
  have hschedule : (x.prepareRetrySchedule plan.decision plan.delay t.retryAt
      (c.tryConsumeRetryBudget t) : Logged (Event σ C A) _).All Late := by
    unfold RequestExecutionState.prepareRetrySchedule
    split
    · exact all_pure _
    split
    · exact all_pure _
    · refine (late_tryConsumeRetryBudget _ _).bind fun result ↦ ?_
      cases result <;> exact all_pure _
  refine (late_tell rfl).bind fun _ ↦ hschedule.bind fun result ↦ ?_
  obtain ⟨schedule, x'⟩ := result
  rcases schedule with error | _ | delay
  · exact (late_tell rfl).bind fun _ ↦ all_pure _
  · exact all_pure _
  · exact (late_tell rfl).bind fun _ ↦ all_pure _

theorem late_followSchedule {schedule : Except Error RetrySchedule}
    {k : AttemptGuards C A → Logged (Event σ C A) (Phase σ C A)} (hk : ∀ g, (k g).All Late) :
    (followSchedule x body g schedule k).All Late := by
  rcases schedule with error | _ | delay
  · exact (late_finish _).bind fun _ ↦ late_leave _
  · exact (all_pure _).bind fun _ ↦ hk _
  · exact (late_finish _).bind fun _ ↦ (late_sleep delay).bind fun _ ↦ late_leave _

theorem late_settleFailure (error : Error) :
    (settleFailure c t x body g context error).All Late := by
  unfold settleFailure
  split
  · exact (late_prepareRetry _).bind fun _ ↦ late_followSchedule fun _ ↦
      late_of_report ((report_finish _).bind fun _ ↦ report_fail _)
  next disposition hplan =>
    cases disposition <;> exact late_of_report ((report_finish _).bind fun _ ↦ report_fail _)

theorem late_handleBodyReadFailure (failure : BodyReadFailure) :
    (c.handleBodyReadFailure t x context failure : Logged (Event σ C A) _).All Late := by
  unfold Client.handleBodyReadFailure
  cases failure with
  | terminal error => exact (late_tell rfl).bind fun _ ↦ all_pure _
  | retryable error plan =>
    refine (late_prepareRetry plan).bind fun result ↦ ?_
    obtain ⟨schedule, x'⟩ := result
    rcases schedule with error | _ | delay
    · exact all_pure _
    · exact (late_tell rfl).bind fun _ ↦ all_pure _
    · exact all_pure _

theorem late_readDecodedResponseBodyWithRetry (status : StatusCode) (headers : HeaderMap)
    (readTimeout : ℕ) :
    (c.readDecodedResponseBodyWithRetry t x rt context status headers readTimeout :
      Logged (Event σ C A) _).All Late := by
  have hread : (c.readResponseBodyWithRetry t x rt context readTimeout :
      Logged (Event σ C A) _).All Late := by
    unfold Client.readResponseBodyWithRetry
    refine (late_tell rfl).bind fun _ ↦ ?_
    split
    · exact all_pure _
    · exact (late_tell rfl).bind fun _ ↦ all_pure _
    · exact late_handleBodyReadFailure _
    · exact late_handleBodyReadFailure _
  unfold Client.readDecodedResponseBodyWithRetry
  split
  · exact (late_tell rfl).bind fun _ ↦ all_pure _
  refine hread.bind fun result ↦ ?_
  rcases result with ⟨error | body | delay, x'⟩
  · exact all_pure _
  · dsimp only
    split
    · exact (late_tell rfl).bind fun _ ↦ all_pure _
    · exact all_pure _
  · exact all_pure _

theorem late_readBody (status : StatusCode) (headers : HeaderMap) :
    (readBody rt c mode t x body g context status headers).All Late := by
  unfold readBody
  split
  · exact late_of_report ((report_finish _).bind fun _ ↦ report_fail _)
  split
  · exact late_leave _
  refine (late_readDecodedResponseBodyWithRetry _ _ _).bind fun result ↦ ?_
  rcases result with ⟨error | body | delay, headers', x'⟩
  · exact (late_finish _).bind fun _ ↦ late_leave _
  · exact (all_pure _).bind fun _ ↦ late_of_report (report_finishResponse _ _ _)
  · exact (all_pure _).bind fun _ ↦ (late_finish _).bind fun _ ↦
      (late_sleep _).bind fun _ ↦ late_leave _

theorem late_settleResponse (transportTimeout : ℕ) (status : StatusCode) (headers : HeaderMap) :
    (settleResponse rt c mode t x body g context transportTimeout status headers).All Late := by
  unfold settleResponse
  split
  · exact late_of_report ((report_finish _).bind fun _ ↦ report_fail _)
  · exact (late_tell rfl).bind fun _ ↦ (late_finish _).bind fun _ ↦
      (late_tell rfl).bind fun _ ↦ late_leave _
  · refine (late_tell rfl).bind fun _ ↦ ?_
    split
    · split
      · exact late_of_report (report_returnStream _ _ _ _)
      · exact late_readBody _ _
    · unfold settleNonSuccess
      refine (late_of_report (report_observeServerThrottle _ _ _ _)).bind fun _ ↦
        (late_prepareRetry _).bind fun _ ↦ late_followSchedule fun _ ↦ ?_
      split
      · exact late_of_report (report_returnStream _ _ _ _)
      · exact late_readBody _ _

/-! ## Admission -/

theorem early_waitForSlot (dropped : Bool) (host : Option Text) (waits : List (ℕ × ℕ)) :
    (Client.waitForSlot x dropped host waits : Logged (Event σ C A) _).All Early := by
  induction waits with
  | nil =>
    cases dropped with
    | false => exact (early_tell rfl).bind fun _ ↦ all_pure _
    | true => exact all_pure _
  | cons wait waits ih =>
    unfold Client.waitForSlot
    refine (early_tell rfl).bind fun _ ↦ ?_
    split
    · exact all_pure _
    split
    · exact all_pure _
    · exact (early_tell rfl).bind fun _ ↦ ih

/-- The last question to the limiter is the one that it answers with zero. -/
theorem waitForSlot_granted (dropped : Bool) (host : Option Text) (waits : List (ℕ × ℕ)) :
    (Client.waitForSlot x dropped host waits : Logged (Event σ C A) _).Ensures fun es result ↦
      result = .ok true → (.limiterCalled (.acquireDelay host), 0) ∈ answered waits es := by
  induction waits with
  | nil =>
    cases dropped with
    | false => exact fun _ ↦ List.mem_singleton_self _
    | true => exact fun h ↦ by cases h
  | cons wait waits ih =>
    obtain ⟨wait, now⟩ := wait
    unfold Client.waitForSlot
    apply ensures_tell_bind.mpr
    split
    next hzero =>
      subst hzero
      exact fun _ ↦ List.mem_singleton_self _
    next hwait =>
      split
      · exact fun h ↦ by cases h
      next wait' hbounded =>
        apply ensures_tell_bind.mpr
        apply ih.mono
        intro es result hgranted hok
        rw [answered_append]
        refine List.mem_append_right _ ?_
        change _ ∈ answered waits (.waited wait' :: es)
        rw [answered_cons_quiet rfl]
        exact List.mem_cons_of_mem _ (hgranted hok)

theorem all_beginCircuitAttempt {p : Event σ C A → Prop} (h : ∀ guard, p (.begun guard)) :
    (c.beginCircuitAttempt t x : Logged (Event σ C A) _).All p := by
  unfold Client.beginCircuitAttempt
  split
  · exact all_pure _
  split
  · exact (all_tell.mpr (List.forall_mem_singleton.mpr (h _))).bind fun _ ↦ all_pure _
  · exact all_pure _

theorem all_beginAdaptiveAttempt {p : Event σ C A → Prop} (h : ∀ guard, p (.begun guard)) :
    (c.beginAdaptiveAttempt t x rt : Logged (Event σ C A) _).All p := by
  unfold Client.beginAdaptiveAttempt
  split
  · exact all_pure _
  split
  · exact (all_tell.mpr (List.forall_mem_singleton.mpr (h _))).bind fun _ ↦ all_pure _
  · exact all_pure _

theorem early_acquireRateLimitSlot :
    (c.acquireRateLimitSlot t x rt : Logged (Event σ C A) _).All Early := by
  unfold Client.acquireRateLimitSlot
  split
  · exact all_pure _
  · exact early_waitForSlot _ _ _

theorem early_beginAttempt :
    (beginAttempt rt c t x context : Logged (Event σ C A) _).All Early := by
  unfold beginAttempt
  refine early_acquireRateLimitSlot.bind fun slot ↦ ?_
  cases slot with
  | error error => exact (early_tell rfl).bind fun _ ↦ all_pure _
  | ok granted =>
    dsimp only
    split
    · exact all_pure _
    split
    · exact all_pure _
    split
    · exact (early_tell rfl).bind fun _ ↦ all_pure _
    refine (all_beginCircuitAttempt fun _ ↦ rfl).bind fun circuit ↦ ?_
    cases circuit with
    | error error => exact (early_tell rfl).bind fun _ ↦ all_pure _
    | ok circuit =>
      dsimp only
      split
      · exact (early_finish _).bind fun _ ↦ all_pure _
      refine (all_beginAdaptiveAttempt fun _ ↦ rfl).bind fun adaptive ↦ ?_
      cases adaptive with
      | error error =>
        exact (early_finish _).bind fun _ ↦ (early_tell rfl).bind fun _ ↦ all_pure _
      | ok adaptive => exact all_pure _

theorem beginCircuitAttempt_admits :
    (c.beginCircuitAttempt t x : Logged (Event σ C A) _).Ensures fun _ result ↦
      ∀ circuit, result = .ok circuit → circuit.isSome = c.circuitBreaker := by
  unfold Client.beginCircuitAttempt
  split
  next hnone =>
    rintro circuit ⟨⟩
    simpa using hnone.symm
  next hsome =>
    rw [Bool.not_eq_true, Bool.not_eq_false'] at hsome
    split
    · rintro circuit ⟨⟩
      exact hsome.symm
    · rintro circuit ⟨⟩

/-- An attempt that is admitted has its slot, and its circuit attempt if there is a breaker. -/
theorem beginAttempt_admits :
    (beginAttempt rt c t x context : Logged (Event σ C A) _).Ensures fun es result ↦
      ∀ g, result = .ok g →
        (c.rateLimiter.isSome = true →
          (.limiterCalled (.acquireDelay x.rateLimitHost), 0) ∈ answered t.limiterWaits es) ∧
        g.circuit.isSome = c.circuitBreaker := by
  have hslot : (c.acquireRateLimitSlot t x rt : Logged (Event σ C A) _).Ensures fun es result ↦
      result = .ok true → c.rateLimiter.isSome = true →
        (.limiterCalled (.acquireDelay x.rateLimitHost), 0) ∈ answered t.limiterWaits es := by
    unfold Client.acquireRateLimitSlot
    split
    next hnone =>
      intro _ hsome
      rw [Option.isNone_iff_eq_none.mp hnone] at hsome
      cases hsome
    · exact (waitForSlot_granted _ _ _).mono fun _ _ hgranted hok _ ↦ hgranted hok
  unfold beginAttempt
  apply hslot.bind
  intro es slot hgranted
  cases slot with
  | error error => rintro g ⟨⟩
  | ok granted =>
    dsimp only
    split
    · rintro g ⟨⟩
    next hslot =>
    rw [Bool.eq_true_of_not_eq_false hslot] at hgranted
    split
    · rintro g ⟨⟩
    split
    · rintro g ⟨⟩
    apply beginCircuitAttempt_admits.bind
    intro es' circuit hcircuit
    cases circuit with
    | error error => rintro g ⟨⟩
    | ok circuit =>
      dsimp only
      split
      · rintro g ⟨⟩
      have hany : (c.beginAdaptiveAttempt t x rt : Logged (Event σ C A) _).Ensures
          fun _ _ ↦ True := trivial
      apply hany.bind
      rintro es'' adaptive -
      cases adaptive with
      | error error => rintro g ⟨⟩
      | ok adaptive =>
        rintro g ⟨⟩
        refine ⟨fun hlimiter ↦ ?_, hcircuit circuit rfl⟩
        rw [answered_append]
        exact List.mem_append_left _ (hgranted rfl hlimiter)

/-- Guards are begun first and ended last. -/
def Nested (es : List (Event σ C A)) : Prop :=
  ∃ before after, es = before ++ after ∧ (∀ e ∈ before, e.ended? = none) ∧
    ∀ e ∈ after, e.begun? = none

theorem nested_pure {α : Type} (a : α) :
    (pure a : Logged (Event σ C A) α).Ensures fun es _ ↦ Nested es :=
  ⟨[], [], rfl, by simp, by simp⟩

theorem nested_of_begun {α : Type} {y : Logged (Event σ C A) α}
    (h : y.All fun e ↦ e.begun? = none) : y.Ensures fun es _ ↦ Nested es :=
  ⟨[], y.events, rfl, by simp, h⟩

theorem nested_bind {α β : Type} {y : Logged (Event σ C A) α} {f : α → Logged (Event σ C A) β}
    (hy : Tallies y fun T _ ↦ T.ended = []) (hf : ∀ a, (f a).Ensures fun es _ ↦ Nested es) :
    (y >>= f).Ensures fun es _ ↦ Nested es := by
  obtain ⟨before, after, hes, hbefore, hafter⟩ := hf y.value
  refine ⟨y.events ++ before, after, ?_, ?_, hafter⟩
  · rw [List.append_assoc, ← hes]
    rfl
  · exact List.forall_mem_append.mpr ⟨List.filterMap_eq_nil_iff.mp hy, hbefore⟩

theorem beginAttempt_nested :
    (beginAttempt rt c t x context : Logged (Event σ C A) _).Ensures fun es _ ↦ Nested es := by
  have hfinish (g : AttemptGuards C A) (ending : Resilience.Ending) :
      (g.finish ending : Logged (Event σ C A) _).All fun e ↦ e.begun? = none := by
    refine All.bind (all_tell.mpr fun e he ↦ ?_) fun _ ↦ all_pure _
    obtain ⟨guard, -, rfl⟩ := List.mem_map.mp he
    rfl
  have hfailed (error : Error) :
      (tell [Event.failed context error] : Logged (Event σ C A) _).All fun e ↦ e.begun? = none :=
    List.forall_mem_singleton.mpr rfl
  have hslot : Tallies (c.acquireRateLimitSlot t x rt : Logged (Event σ C A) _)
      fun T _ ↦ T.ended = [] := acquireRateLimitSlot_spec.mono fun T _ h ↦ h ▸ rfl
  have hcircuit : Tallies (c.beginCircuitAttempt t x : Logged (Event σ C A) _)
      fun T _ ↦ T.ended = [] := by
    apply beginCircuitAttempt_spec.mono
    rintro T result (⟨error, rfl, rfl⟩ | ⟨circuit, rfl, rfl⟩) <;> rfl
  have hadaptive : Tallies (c.beginAdaptiveAttempt t x rt : Logged (Event σ C A) _)
      fun T _ ↦ T.ended = [] := by
    apply beginAdaptiveAttempt_spec.mono
    rintro T result (⟨error, rfl, rfl⟩ | ⟨adaptive, rfl, -, rfl⟩) <;> rfl
  unfold beginAttempt
  refine nested_bind hslot fun slot ↦ ?_
  cases slot with
  | error error => exact nested_bind rfl fun _ ↦ nested_pure _
  | ok granted =>
    dsimp only
    split
    · exact nested_pure _
    split
    · exact nested_pure _
    split
    · exact nested_bind rfl fun _ ↦ nested_pure _
    refine nested_bind hcircuit fun circuit ↦ ?_
    cases circuit with
    | error error => exact nested_bind rfl fun _ ↦ nested_pure _
    | ok circuit =>
      dsimp only
      split
      · exact nested_of_begun ((hfinish _ _).bind fun _ ↦ all_pure _)
      refine nested_bind hadaptive fun adaptive ↦ ?_
      cases adaptive with
      | error error =>
        exact nested_of_begun ((hfinish _ _).bind fun _ ↦ (hfailed _).bind fun _ ↦ all_pure _)
      | ok adaptive => exact nested_pure _

/-! ## The send -/

/-- The events begin with the send of a request to this target, or have no send at all. -/
def SendsFirst (uri : Uri) (es : List (Event σ C A)) : Prop :=
  ∃ (request? : Option (SentRequest σ)) (rest : List (Event σ C A)),
    es = (request?.map Event.sent).toList ++ rest ∧ (∀ e ∈ rest, Late e) ∧
      ∀ request ∈ request?, request.uri = uri

theorem sendsFirst_of_late {uri : Uri} {es : List (Event σ C A)} (h : ∀ e ∈ es, Late e) :
    SendsFirst uri es :=
  ⟨none, es, rfl, h, fun _ hnone ↦ by cases hnone⟩

theorem transmit_events (request : SentRequest σ) :
    (c.transmit t x rt request : Logged (Event σ C A) _).Ensures fun es _ ↦
      es = [] ∨ es = [.sent request] := by
  cases rt with
  | blocking =>
    simp only [Client.transmit, Client.runOnce]
    split
    · exact .inl rfl
    split
    · exact .inl rfl
    · apply ensures_tell_bind.mpr
      split <;> exact .inr rfl
  | async =>
    apply ensures_tell_bind.mpr
    split
    · exact .inr rfl
    · split <;> exact .inr rfl

theorem dispatch_sendsFirst (s : SendState σ) :
    (dispatch rt c mode t s g).Ensures fun es _ ↦ SendsFirst s.execution.currentUri es := by
  unfold dispatch
  dsimp only
  split
  · exact sendsFirst_of_late (late_of_report ((report_finish _).bind fun _ ↦ report_fail _))
  split
  · exact sendsFirst_of_late (late_of_report ((report_finish _).bind fun _ ↦ report_fail _))
  next transportTimeout htimeout =>
    apply (transmit_events (attemptRequest rt c t s transportTimeout)).bind
    intro es answer hes
    have hrest {y : Logged (Event σ C A) (Phase σ C A)} (hy : y.All Late) :
        y.Ensures fun es' _ ↦ SendsFirst s.execution.currentUri (es ++ es') := by
      rcases hes with rfl | rfl
      · exact sendsFirst_of_late hy
      · exact ⟨some (attemptRequest rt c t s transportTimeout), y.events, rfl, hy,
          fun request h ↦ by cases h; rfl⟩
    apply hrest
    split
    · exact late_leave _
    split
    · exact late_settleFailure _
    · exact late_settleResponse _ _ _

/-! ## A whole pass -/

/-- The events of a pass: those that admit the attempt, and those of the attempt. -/
structure Staged (c : Client) (t : Turn C A) (s : SendState σ)
    (admission attempt : List (Event σ C A)) : Prop where
  early : ∀ e ∈ admission, Early e
  nested : Nested admission
  sends : SendsFirst s.execution.currentUri attempt
  slot : attempt ≠ [] → c.rateLimiter.isSome = true →
    (.limiterCalled (.acquireDelay s.execution.rateLimitHost), 0) ∈
      answered t.limiterWaits admission
  circuit : attempt ≠ [] → ∃ g : AttemptGuards C A,
    g.circuit.isSome = c.circuitBreaker ∧ tally admission = .guardsBegun g.toList

variable (rt c mode t) in
theorem pass_staged (s : SendState σ) :
    (pass rt c mode t (.running s)).Ensures fun es _ ↦ ∃ admission attempt,
      es = admission ++ attempt ∧ Staged c t s admission attempt := by
  have hrefused {es : List (Event σ C A)} (hes : ∀ e ∈ es, Early e) (hnested : Nested es) :
      ∃ admission attempt, es = admission ++ attempt ∧ Staged c t s admission attempt :=
    ⟨es, [], (List.append_nil es).symm, hes, hnested, sendsFirst_of_late (by simp),
      fun h ↦ absurd rfl h, fun h ↦ absurd rfl h⟩
  unfold pass
  dsimp only
  split
  · exact hrefused (all_pure _) ⟨[], [], rfl, by simp, by simp⟩
  split
  · unfold iterate
    apply ensures_tell_bind.mpr
    have hspec : Tallies (beginAttempt rt c t s.execution s.execution.context :
        Logged (Event σ C A) _) Begun := beginAttempt_spec
    apply Ensures.bind (Ensures.and hspec (Ensures.and early_beginAttempt
      (Ensures.and beginAttempt_nested beginAttempt_admits)))
    rintro es result ⟨hbegun, hearly, ⟨before, after, hes, hbefore, hafter⟩, hadmits⟩
    have hnested : Nested ([Event.requestStarted s.execution.context] ++ es) :=
      ⟨[Event.requestStarted s.execution.context] ++ before, after,
        by rw [hes, List.append_assoc],
        List.forall_mem_append.mpr ⟨List.forall_mem_singleton.mpr rfl, hbefore⟩, hafter⟩
    have hstart : ∀ e ∈ [Event.requestStarted s.execution.context] ++ es, Early e :=
      List.forall_mem_append.mpr ⟨List.forall_mem_singleton.mpr rfl, hearly⟩
    cases result with
    | error outcome =>
      apply ensures_pure.mpr
      rw [List.append_nil]
      exact hrefused hstart hnested
    | ok g =>
      obtain ⟨hslot, hcircuit⟩ := hadmits g rfl
      apply (dispatch_sendsFirst s).mono
      intro es' phase hsends
      refine ⟨[Event.requestStarted s.execution.context] ++ es, es',
        (List.append_assoc _ _ _).symm, hstart, hnested, hsends, fun _ hlimiter ↦ ?_,
        fun _ ↦ ⟨g, hcircuit, ?_⟩⟩
      · rw [List.singleton_append, answered_cons_quiet rfl]
        exact List.mem_cons_of_mem _ (hslot hlimiter)
      · generalize htally : tally es = T at hbegun
        cases hbegun
        rw [tally_append, htally]
        exact Tally.zero_append _
  · exact hrefused (List.forall_mem_singleton.mpr rfl)
      ⟨[], _, rfl, by simp, List.forall_mem_singleton.mpr rfl⟩

end Parts

end Reqx.Driver
