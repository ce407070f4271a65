import Reqx.Driver.SendLoop

/-!
# What one pass can do

Every part of the loop body is described once, by the tally of its events and
the phase it leads to. `Passed` says what a whole pass can do; the theorems
about runs use nothing else of the loop body.
-/

namespace Reqx.Driver

open Logged Tally
open Resilience (Ending)

variable {σ C A : Type}

/-! ## Tallies -/

namespace Tally

theorem append_def (T U : Tally σ C A) :
    T ++ U = ⟨T.sent ++ U.sent, T.begun ++ U.begun, T.ended ++ U.ended,
      T.redirects ++ U.redirects, T.tokens + U.tokens, T.credits + U.credits⟩ := rfl

@[simp] theorem zero_append (T : Tally σ C A) : zero ++ T = T := by
  simp [append_def, zero]

@[simp] theorem append_zero (T : Tally σ C A) : T ++ zero = T := by
  simp [append_def, zero]

theorem append_assoc (T U V : Tally σ C A) : T ++ U ++ V = T ++ (U ++ V) := by
  simp [append_def, Nat.add_assoc]

def guardsEnded (ended : List (Guard C A × Ending)) : Tally σ C A := { zero with ended }

def tokensTaken (tokens : ℕ) : Tally σ C A := { zero with tokens }

end Tally

@[simp] theorem tally_append (es es' : List (Event σ C A)) :
    tally (es ++ es') = tally es ++ tally es' := by
  simp [tally, append_def]

@[simp] theorem tally_ended (guards : List (Guard C A)) (ending : Ending) :
    tally (guards.map (.ended · ending) : List (Event σ C A)) =
      .guardsEnded (guards.map (·, ending)) := by
  induction guards with
  | nil => rfl
  | cons guard guards ih =>
    have hcons := tally_append [(.ended guard ending : Event σ C A)]
      (guards.map (.ended · ending))
    rw [ih] at hcons
    exact hcons

/-- The computation ends with this tally of its events and this value. -/
def Tallies {α : Type} (y : Logged (Event σ C A) α) (post : Tally σ C A → α → Prop) : Prop :=
  y.Ensures fun es a ↦ post (tally es) a

section Rules

variable {α β : Type} {y : Logged (Event σ C A) α} {f : α → Logged (Event σ C A) β}
  {post : Tally σ C A → β → Prop}

theorem tallies_pure {b : β} : Tallies (pure b : Logged (Event σ C A) β) post ↔ post .zero b :=
  Iff.rfl

theorem tallies_bind :
    Tallies (y >>= f) post ↔ Tallies y fun T a ↦ Tallies (f a) fun U b ↦ post (T ++ U) b := by
  simp only [Tallies, ensures_bind, tally_append]

theorem Tallies.bind {mid : Tally σ C A → α → Prop} (hy : Tallies y mid)
    (hf : ∀ T a, mid T a → Tallies (f a) fun U b ↦ post (T ++ U) b) : Tallies (y >>= f) post := by
  apply Ensures.bind hy
  intro es a hmid
  have hrest := hf (tally es) a hmid
  simpa only [Tallies, tally_append] using hrest

theorem Tallies.mono {z : Logged (Event σ C A) β} {pre : Tally σ C A → β → Prop}
    (hz : Tallies z pre) (h : ∀ T b, pre T b → post T b) : Tallies z post :=
  Ensures.mono hz fun es b hpre ↦ h (tally es) b hpre

theorem tallies_tell {es : List (Event σ C A)} {post : Tally σ C A → Unit → Prop} :
    Tallies (tell es) post ↔ post (tally es) () := Iff.rfl

theorem tallies_finish {g : AttemptGuards C A} {ending : Ending}
    {post : Tally σ C A → AttemptGuards C A → Prop} :
    Tallies (g.finish ending) post ↔ post (.guardsEnded (g.endedAs ending)) .empty := by
  simp [AttemptGuards.finish, AttemptGuards.endedAs, tallies_bind, tallies_tell, tallies_pure]

theorem tallies_tell_bind {es : List (Event σ C A)} {f : Unit → Logged (Event σ C A) β} :
    Tallies (tell es >>= f) post ↔ Tallies (f ()) fun U b ↦ post (tally es ++ U) b := by
  rw [tallies_bind, tallies_tell]

theorem tallies_finish_bind {g : AttemptGuards C A} {ending : Ending}
    {f : AttemptGuards C A → Logged (Event σ C A) β} :
    Tallies (g.finish ending >>= f) post ↔
      Tallies (f .empty) fun U b ↦ post (.guardsEnded (g.endedAs ending) ++ U) b := by
  rw [tallies_bind, tallies_finish]

theorem tallies_leave_empty {phase : Phase σ C A} {post : Tally σ C A → Phase σ C A → Prop} :
    Tallies (leave .empty phase) post ↔ post .zero phase := Iff.rfl

theorem tallies_fail_empty {x : RequestExecutionState} {context : RequestContext} {error : Error}
    {post : Tally σ C A → Phase σ C A → Prop} :
    Tallies (fail .empty x context error) post ↔ post .zero (.finished ⟨x, .failed error⟩) :=
  Iff.rfl

end Rules

/-! ## Retries -/

def Client.retryCost (c : Client) : ℕ := if c.retryBudget then 1 else 0

/-- What `prepare_retry` can do: only a retry that is scheduled takes a token. -/
inductive Scheduled (c : Client) (x : RequestExecutionState) :
    Tally σ C A → Except Error RetrySchedule × RequestExecutionState → Prop
  | scheduled (delay : ℕ) (hroom : x.attempt < x.maxAttempts) :
      Scheduled c x (.tokensTaken c.retryCost)
        (.ok (.scheduled delay), { x with attempt := x.attempt + 1 })
  | notScheduled : Scheduled c x .zero (.ok .notScheduled, x)
  | failed (error : Error) : Scheduled c x .zero (.error error, x)

variable {rt : Runtime} {c : Client} {mode : ResponseMode} {t : Turn C A}
  {x : RequestExecutionState} {body : RequestBody σ} {g : AttemptGuards C A}
  {context : RequestContext}

theorem tryConsumeRetryBudget_spec (method : Method) (uri : Text) :
    Tallies (c.tryConsumeRetryBudget t method uri : Logged (Event σ C A) _) fun T result ↦
      (result = .ok () ∧ T = .tokensTaken c.retryCost) ∨
        ((∃ error, result = .error error) ∧ T = .zero) := by
  unfold Client.tryConsumeRetryBudget
  cases hbudget : c.retryBudget with
  | false => exact .inl ⟨rfl, by simp only [Client.retryCost, hbudget]; rfl⟩
  | true =>
    cases t.budgetGrants with
    | false => exact .inr ⟨⟨_, rfl⟩, rfl⟩
    | true => exact .inl ⟨rfl, by simp only [Client.retryCost, hbudget]; rfl⟩

theorem prepareRetrySchedule_spec (decision : RetryDecision) (delay now : ℕ) :
    Tallies (x.prepareRetrySchedule decision delay now (c.tryConsumeRetryBudget t) :
      Logged (Event σ C A) _) (Scheduled c x) := by
  unfold RequestExecutionState.prepareRetrySchedule
  split
  · exact .notScheduled
  next hallowed =>
    have hroom : x.attempt < x.maxAttempts := by
      simp only [ge_iff_le, Bool.or_eq_true, decide_eq_true_eq, not_or, not_le] at hallowed
      exact hallowed.1
    split
    · exact .failed _
    next delay hdelay =>
      apply (tryConsumeRetryBudget_spec _ _).bind
      rintro T result (⟨rfl, rfl⟩ | ⟨⟨error, rfl⟩, rfl⟩)
      · rw [tallies_pure, append_zero]
        exact .scheduled delay hroom
      · rw [tallies_pure, append_zero]
        exact .failed error

theorem prepareRetry_spec (plan : RetryPlan) :
    Tallies (c.prepareRetry t x context plan : Logged (Event σ C A) _) (Scheduled c x) := by
  unfold Client.prepareRetry
  apply tallies_tell_bind.mpr
  have hquiet : tally [(.retryAsked plan.decision plan.delay : Event σ C A)] = .zero := rfl
  simp only [hquiet, zero_append]
  apply (prepareRetrySchedule_spec plan.decision plan.delay t.retryAt).bind
  rintro T result hresult
  cases hresult with
  | scheduled delay hroom =>
    rw [tallies_bind, tallies_tell, tallies_pure, append_zero]
    exact .scheduled delay hroom
  | notScheduled => exact .notScheduled
  | failed error => exact .failed error

/-! ## The end of an attempt -/

def StreamLifecycle.held (l : StreamLifecycle C A) : List (Guard C A) :=
  (l.hooks.map fun hooks ↦ hooks.attempts.toList).getD []

/-- The guards that the caller of the loop gets along with the outcome. -/
def Outcome.held : Outcome C A → List (Guard C A)
  | .stream returned => returned.lifecycle.held
  | _ => []

def Creditable (x : RequestExecutionState) (status : StatusCode) : Prop :=
  status.isSuccess = true ∨ x.options.retryPolicy.isRetryableStatus status = false

def EarnsCredit (rt : Runtime) (t : Turn C A) (x : RequestExecutionState) : Prop :=
  ∃ status headers bytes, t.transport = .response status headers ∧ Creditable x status ∧
    Client.readAllBodyLimited rt x.options.maxResponseBodyBytes t.body = .ok bytes

def Outcome.isStream : Outcome C A → Bool
  | .stream _ => true
  | _ => false

/-- At most one credit, for a response that earns it and is not left to a stream. -/
def Outcome.Credits (rt : Runtime) (t : Turn C A) (x : RequestExecutionState)
    (outcome : Outcome C A) (credits : ℕ) : Prop :=
  credits = 0 ∨ credits = 1 ∧ outcome.isStream = false ∧ EarnsCredit rt t x

/-- A stream that has not been completed, with a budget only if it can be credited. -/
def Outcome.Fresh (x : RequestExecutionState) : Outcome C A → Prop
  | .stream returned =>
    returned.lifecycle.completed = false ∧
      (returned.lifecycle.hooks.isSome → Creditable x returned.status)
  | _ => True

/-- A stream that can be credited has all the guards of its attempt. -/
def Outcome.Keeps (x : RequestExecutionState) (outcome : Outcome C A)
    (ended : List (Guard C A × Ending)) : Prop :=
  match outcome with
  | .stream returned => Creditable x returned.status → ended = []
  | _ => True

/-- Only a future that is dropped drops its guards instead of ending them. -/
def Outcome.Marks (outcome : Outcome C A) (ended : List (Guard C A × Ending)) : Prop :=
  outcome = .abandoned ∨ ∀ e ∈ ended, e.2 ≠ .drop

variable {ending : Ending}

theorem AttemptGuards.ne_drop_of_mem_endedAs (h : ending ≠ .drop) :
    ∀ e ∈ g.endedAs ending, e.2 ≠ .drop := by
  intro e he
  obtain ⟨guard, -, rfl⟩ := List.mem_map.mp he
  exact h

@[simp] theorem AttemptGuards.map_fst_endedAs (ending : Ending) :
    (g.endedAs ending).map Prod.fst = g.toList := by
  simp [AttemptGuards.endedAs, Function.comp_def]

/-- How an attempt that was sent ends. Its guards `g` end with it, unless a
returned stream holds them. -/
inductive Settled (rt : Runtime) (c : Client) (t : Turn C A) (x : RequestExecutionState)
    (body : RequestBody σ) (g : AttemptGuards C A) : Tally σ C A → Phase σ C A → Prop
  | retried (hroom : x.attempt < x.maxAttempts) :
      Settled rt c t x body g { guardsEnded (g.endedAs .failure) with tokens := c.retryCost }
        (.running ⟨{ x with attempt := x.attempt + 1 }, body⟩)
  | redirected (status : StatusCode) (headers : HeaderMap) (action : RedirectAction)
      (haction : x.nextRedirectAction c.deps status headers = .ok (some action)) :
      Settled rt c t x body g { guardsEnded (g.endedAs .success) with redirects := [action] }
        (.running ⟨(x.applyRedirect c.deps action c.supportsRetry).1,
          if action.dropsBody then .default else body⟩)
  | returned (ended : List (Guard C A × Ending)) (credits : ℕ) (outcome : Outcome C A)
      (hguards : ended.map Prod.fst ++ outcome.held = g.toList) (hmarks : outcome.Marks ended)
      (hfresh : outcome.Fresh x) (hcredits : outcome.Credits rt t x credits)
      (hkeeps : outcome.Keeps x ended) :
      Settled rt c t x body g { guardsEnded ended with credits }
        (.finished ⟨x, outcome⟩)

theorem Settled.ended (hending : ending ≠ .drop) (credits : ℕ) {outcome : Outcome C A}
    (hheld : outcome.held = []) (hfresh : outcome.Fresh x)
    (hcredits : outcome.Credits rt t x credits) (hkeeps : outcome.Keeps x (g.endedAs ending)) :
    Settled rt c t x body g { guardsEnded (g.endedAs ending) with credits }
      (.finished ⟨x, outcome⟩) :=
  .returned _ credits outcome (by simp [hheld]) (.inr (g.ne_drop_of_mem_endedAs hending)) hfresh
    hcredits hkeeps

theorem Settled.failed (error : Error) (hending : ending ≠ .drop) :
    Settled rt c t x body g (.guardsEnded (g.endedAs ending)) (.finished ⟨x, .failed error⟩) :=
  .ended hending 0 rfl trivial (.inl rfl) trivial

variable {T : Tally σ C A}

theorem Settled.begun_eq {phase : Phase σ C A} (h : Settled rt c t x body g T phase) :
    T.begun = [] := by
  cases h <;> rfl

theorem sleep_spec (delay : ℕ) :
    Tallies (Client.sleep delay : Logged (Event σ C A) Unit) fun T _ ↦ T = .zero := by
  unfold Client.sleep
  split <;> rfl

theorem finish_fail_spec (hending : ending ≠ .drop) (error : Error) :
    Tallies (g.finish ending >>= fun attempts ↦ fail attempts x context error)
      (Settled rt c t x body g) := by
  apply tallies_finish_bind.mpr
  rw [tallies_fail_empty, append_zero]
  exact .failed error hending

theorem leave_abandoned_spec :
    Tallies (leave g (.finished ⟨x, .abandoned⟩)) (Settled rt c t x body g) := by
  apply tallies_finish_bind.mpr
  rw [tallies_pure, append_zero]
  refine .returned (g.endedAs .drop) 0 .abandoned ?_ (.inl rfl) trivial (.inl rfl) trivial
  simp [Outcome.held]

/-- A schedule is followed with its own tally, or the attempt goes on with its guards. -/
theorem followSchedule_spec {schedule : Except Error RetrySchedule} {x' : RequestExecutionState}
    {k : AttemptGuards C A → Logged (Event σ C A) (Phase σ C A)}
    (h : Scheduled c x T (schedule, x')) (hk : x' = x → Tallies (k g) (Settled rt c t x body g)) :
    Tallies (followSchedule x' body g schedule k) fun U phase ↦
      Settled rt c t x body g (T ++ U) phase := by
  unfold followSchedule
  cases h with
  | scheduled delay hroom =>
    apply tallies_finish_bind.mpr
    apply (sleep_spec delay).bind
    rintro _ - rfl
    rw [tallies_leave_empty, append_zero, append_zero]
    exact .retried hroom
  | notScheduled =>
    -- Nothing was recorded, so the rest still has all the guards.
    apply (hk rfl).mono
    intro U phase hsettled
    rw [zero_append]
    exact hsettled
  | failed error =>
    apply tallies_finish_bind.mpr
    rw [tallies_leave_empty, append_zero]
    exact .failed error (by decide)

theorem settleFailure_spec (error : Error) :
    Tallies (settleFailure c t x body g context error) (Settled rt c t x body g) := by
  unfold settleFailure
  split
  next plan hplan =>
    apply (prepareRetry_spec plan).bind
    rintro T ⟨schedule, x'⟩ hschedule
    apply followSchedule_spec hschedule
    rintro rfl
    exact finish_fail_spec (by decide) error
  next disposition hplan =>
    cases disposition with
    | failure => exact finish_fail_spec (by decide) error
    | cancel => exact finish_fail_spec (by decide) error

/-! ## Responses -/

theorem returnStream_spec (completion : RequestCompletion) (transportTimeout : ℕ)
    (status : StatusCode) (headers : HeaderMap)
    (hcreditable : completion = .success ↔ Creditable x status) :
    Tallies (returnStream c x g completion transportTimeout status headers)
      (Settled rt c t x body g) := by
  unfold returnStream RequestCompletion.intoStreamLifecycle
  cases completion with
  | failure =>
    apply tallies_bind.mpr
    apply tallies_finish_bind.mpr
    rw [tallies_pure, tallies_leave_empty, append_zero, append_zero]
    refine .ended (by decide) 0 rfl ?_ (.inl rfl) fun hstatus ↦ ?_
    · exact ⟨rfl, fun h ↦ by cases h⟩
    · cases hcreditable.mpr hstatus
  | success =>
    dsimp only
    split
    · next hempty =>
        -- Without a budget and without guards there is nothing left to complete.
        have hnone : g = .empty := by
          cases g with
          | mk circuit adaptive =>
            cases circuit <;> cases adaptive <;> simp_all [AttemptGuards.isEmpty,
              AttemptGuards.empty]
        subst hnone
        refine .returned [] 0 _ rfl (.inr (by simp)) ?_ (.inl rfl) fun _ ↦ rfl
        exact ⟨rfl, fun h ↦ by cases h⟩
    · refine .returned [] 0 _ rfl (.inr (by simp)) ?_ (.inl rfl) fun _ ↦ rfl
      exact ⟨rfl, fun _ ↦ hcreditable.mp rfl⟩

theorem recordCompleted_spec (completion : RequestCompletion) (retryBudget : Bool) :
    Tallies (completion.recordCompleted g retryBudget : Logged (Event σ C A) _) fun T left ↦
      left = .empty ∧ ∃ ending credits, ending ≠ .drop ∧
        T = { guardsEnded (g.endedAs ending) with credits } ∧
          (credits = 0 ∨ credits = 1 ∧ completion = .success) := by
  unfold RequestCompletion.recordCompleted RequestCompletion.recordAttempt
  cases completion with
  | failure =>
    apply tallies_finish_bind.mpr
    exact ⟨rfl, .failure, 0, by decide, append_zero _, .inl rfl⟩
  | success =>
    apply tallies_finish_bind.mpr
    cases retryBudget with
    | false => exact ⟨rfl, .success, 0, by decide, append_zero _, .inl rfl⟩
    | true =>
      refine ⟨rfl, .success, 1, by decide, ?_, .inr ⟨rfl, rfl⟩⟩
      change guardsEnded (g.endedAs .success) ++ { zero with credits := 1 } = _
      simp [append_def, guardsEnded, zero]

theorem finishResponse_spec (status : StatusCode) (headers : HeaderMap) (responseBody : Bytes)
    (hearned : Creditable x status → EarnsCredit rt t x) :
    Tallies (finishResponse c mode x g context status headers responseBody)
      (Settled rt c t x body g) := by
  unfold finishResponse
  split
  next hsuccess =>
    apply (recordCompleted_spec .success c.retryBudget).bind
    rintro T left ⟨rfl, ending, credits, hending, rfl, hcredits⟩
    rw [tallies_leave_empty, append_zero]
    refine .ended hending credits rfl trivial ?_ trivial
    exact hcredits.imp_right fun h ↦ ⟨h.1, rfl, hearned (.inl hsuccess)⟩
  next hfailure =>
    apply (recordCompleted_spec _ c.retryBudget).bind
    rintro T left ⟨rfl, ending, credits, hending, rfl, hcredits⟩
    have hcredit : credits = 0 ∨ credits = 1 ∧ EarnsCredit rt t x := by
      refine hcredits.imp_right fun h ↦ ⟨h.1, hearned (.inr ?_)⟩
      simpa [RequestCompletion.fromResponseStatus] using h.2
    split
    · rw [tallies_leave_empty, append_zero]
      exact .ended hending credits rfl trivial (hcredit.imp_right fun h ↦ ⟨h.1, rfl, h.2⟩) trivial
    · rw [tallies_fail_empty, append_zero]
      exact .ended hending credits rfl trivial (hcredit.imp_right fun h ↦ ⟨h.1, rfl, h.2⟩) trivial

inductive BodyRead (rt : Runtime) (c : Client) (t : Turn C A) (x : RequestExecutionState) :
    Tally σ C A → Except Error Client.BodyReadOutcome → RequestExecutionState → Prop
  | retried (delay : ℕ) (hroom : x.attempt < x.maxAttempts) :
      BodyRead rt c t x (.tokensTaken c.retryCost) (.ok (.retry delay))
        { x with attempt := x.attempt + 1 }
  | failed (error : Error) : BodyRead rt c t x .zero (.error error) x
  | complete (body bytes : Bytes)
      (hread : Client.readAllBodyLimited rt x.options.maxResponseBodyBytes t.body = .ok bytes) :
      BodyRead rt c t x .zero (.ok (.body body)) x

theorem handleBodyReadFailure_spec (failure : BodyReadFailure) :
    Tallies (c.handleBodyReadFailure t x context failure : Logged (Event σ C A) _) fun T result ↦
      BodyRead rt c t x T result.1 result.2 := by
  unfold Client.handleBodyReadFailure
  cases failure with
  | terminal error => exact .failed error
  | retryable error plan =>
    apply (prepareRetry_spec plan).bind
    rintro T ⟨schedule, x'⟩ hschedule
    cases hschedule with
    | scheduled delay hroom =>
      rw [tallies_pure, append_zero]
      exact .retried delay hroom
    | notScheduled => exact .failed error
    | failed error => exact .failed error

theorem readResponseBodyWithRetry_spec (readTimeout : ℕ) :
    Tallies (c.readResponseBodyWithRetry t x rt context readTimeout : Logged (Event σ C A) _)
      fun T result ↦ BodyRead rt c t x T result.1 result.2 := by
  unfold Client.readResponseBodyWithRetry
  apply tallies_tell_bind.mpr
  have hquiet : tally [(.readStarted readTimeout : Event σ C A)] = .zero := rfl
  simp only [hquiet, zero_append]
  split
  next bytes hread => exact .complete bytes bytes hread
  next actualBytes hread => exact .failed _
  next hread => exact handleBodyReadFailure_spec _
  next source hread => exact handleBodyReadFailure_spec _

theorem readDecodedResponseBodyWithRetry_spec (status : StatusCode) (headers : HeaderMap)
    (readTimeout : ℕ) :
    Tallies (c.readDecodedResponseBodyWithRetry t x rt context status headers readTimeout :
      Logged (Event σ C A) _) fun T result ↦ BodyRead rt c t x T result.1 result.2.2 := by
  unfold Client.readDecodedResponseBodyWithRetry
  split
  · exact .failed _
  apply (readResponseBodyWithRetry_spec readTimeout).bind
  rintro T ⟨result, x'⟩ hresult
  cases hresult with
  | retried delay hroom =>
    rw [tallies_pure, append_zero]
    exact .retried delay hroom
  | failed error => exact .failed error
  | complete body bytes hread =>
    dsimp only
    split
    · exact .failed _
    · exact .complete _ bytes hread

theorem readBody_spec (status : StatusCode) (headers responseHeaders : HeaderMap)
    (hanswer : t.transport = .response status responseHeaders) :
    Tallies (readBody rt c mode t x body g context status headers)
      (Settled rt c t x body g) := by
  unfold readBody
  split
  · exact finish_fail_spec (by decide) _
  next readTimeout htimeout =>
    split
    · exact leave_abandoned_spec
    apply (readDecodedResponseBodyWithRetry_spec status headers readTimeout).bind
    rintro T ⟨result, decodedHeaders, x'⟩ hresult
    cases hresult with
    | retried delay hroom =>
      apply tallies_bind.mpr
      apply tallies_pure.mpr
      apply tallies_finish_bind.mpr
      apply (sleep_spec delay).bind
      rintro _ - rfl
      rw [tallies_leave_empty, append_zero, append_zero, zero_append]
      exact .retried hroom
    | failed error =>
      apply tallies_finish_bind.mpr
      rw [tallies_leave_empty, append_zero]
      exact .failed error (by decide)
    | complete responseBody bytes hread =>
      apply tallies_bind.mpr
      apply tallies_pure.mpr
      simp only [zero_append]
      apply finishResponse_spec status decodedHeaders responseBody
      exact fun hcreditable ↦ ⟨status, responseHeaders, bytes, hanswer, hcreditable, hread⟩

theorem observeServerThrottle_spec (status : StatusCode) (headers : HeaderMap) (host : Option Text)
    (fallbackDelay : ℕ) :
    Tallies (c.observeServerThrottle t context status headers host fallbackDelay :
      Logged (Event σ C A) Unit) fun T _ ↦ T = .zero := by
  unfold Client.observeServerThrottle
  split
  · rfl
  · split <;> rfl

theorem settleNonSuccess_spec (transportTimeout : ℕ) (status : StatusCode) (headers : HeaderMap)
    (hanswer : t.transport = .response status headers) (hstatus : ¬status.isSuccess = true) :
    Tallies (settleNonSuccess rt c mode t x body g context transportTimeout status headers)
      (Settled rt c t x body g) := by
  unfold settleNonSuccess
  apply (observeServerThrottle_spec status headers _ _).bind
  rintro _ - rfl
  simp only [zero_append]
  apply (prepareRetry_spec _).bind
  rintro T ⟨schedule, x'⟩ hschedule
  apply followSchedule_spec hschedule
  rintro rfl
  split
  · apply returnStream_spec _ transportTimeout status headers
    simp [RequestCompletion.fromResponseStatus, Creditable, hstatus]
  · exact readBody_spec status headers headers hanswer

theorem settleResponse_spec (transportTimeout : ℕ) (status : StatusCode) (headers : HeaderMap)
    (hanswer : t.transport = .response status headers) :
    Tallies (settleResponse rt c mode t x body g context transportTimeout status headers)
      (Settled rt c t x body g) := by
  unfold settleResponse
  split
  next error hredirect => exact finish_fail_spec (by decide) error
  next action hredirect =>
    apply tallies_tell_bind.mpr
    apply tallies_finish_bind.mpr
    apply tallies_tell_bind.mpr
    rw [tallies_leave_empty, append_zero]
    have htally : tally ([.responded context status headers] : List (Event σ C A)) ++
        (guardsEnded (g.endedAs .success) ++ tally [.redirected action]) =
          { guardsEnded (g.endedAs .success) with redirects := [action] } := by
      change guardsEnded (g.endedAs .success) ++
        { zero with redirects := [action] } = _
      simp [append_def, guardsEnded, zero]
    rw [htally]
    exact .redirected status headers action hredirect
  next hredirect =>
    apply tallies_tell_bind.mpr
    have hquiet : tally ([.responded context status headers] : List (Event σ C A)) = .zero := rfl
    simp only [hquiet, zero_append]
    split
    next hsuccess =>
      split
      · exact returnStream_spec .success transportTimeout status headers
          (iff_of_true rfl (.inl hsuccess))
      · exact readBody_spec status headers headers hanswer
    next hfailure =>
      exact settleNonSuccess_spec transportTimeout status headers hanswer hfailure

/-! ## Admission and transmission -/

def Tally.guardsBegun (guards : List (Guard C A)) : Tally σ C A :=
  { zero with begun := guards }

def Tally.requestSent (request : SentRequest σ) : Tally σ C A :=
  ⟨[request], [], [], [], 0, 0⟩

/-- How an attempt starts. If it does not, the guards it already had have ended. -/
inductive Begun : Tally σ C A → Except (Outcome C A) (AttemptGuards C A) → Prop
  | ok (g : AttemptGuards C A) : Begun (.guardsBegun g.toList) (.ok g)
  | failed (g : AttemptGuards C A) (error : Error) :
      Begun (.guardsBegun g.toList ++ .guardsEnded (g.endedAs .cancel)) (.error (.failed error))
  | abandoned (g : AttemptGuards C A) :
      Begun (.guardsBegun g.toList ++ .guardsEnded (g.endedAs .drop)) (.error .abandoned)

theorem waitForSlot_spec (dropped : Bool) (host : Option Text) (waits : List (ℕ × ℕ)) :
    Tallies (Client.waitForSlot x dropped host waits : Logged (Event σ C A) _) fun T _ ↦
      T = .zero := by
  induction waits with
  | nil => cases dropped <;> rfl
  | cons wait waits ih =>
    unfold Client.waitForSlot
    apply tallies_tell_bind.mpr
    split
    · rfl
    split
    · rfl
    · apply tallies_tell_bind.mpr
      apply ih.mono
      rintro T _ rfl
      rfl

theorem acquireRateLimitSlot_spec :
    Tallies (c.acquireRateLimitSlot t x rt : Logged (Event σ C A) _) fun T _ ↦ T = .zero := by
  unfold Client.acquireRateLimitSlot
  split
  · rfl
  · exact waitForSlot_spec _ _ _

theorem beginCircuitAttempt_spec :
    Tallies (c.beginCircuitAttempt t x : Logged (Event σ C A) _) fun T result ↦
      (∃ error, result = .error error ∧ T = .zero) ∨
        ∃ circuit, result = .ok circuit ∧
          T = .guardsBegun (⟨circuit, none⟩ : AttemptGuards C A).toList := by
  unfold Client.beginCircuitAttempt
  split
  · exact .inr ⟨none, rfl, rfl⟩
  · split
    next attempt hcircuit => exact .inr ⟨some attempt, rfl, rfl⟩
    next retryAfter hcircuit => exact .inl ⟨_, rfl, rfl⟩

theorem beginAdaptiveAttempt_spec :
    Tallies (c.beginAdaptiveAttempt t x rt : Logged (Event σ C A) _) fun T result ↦
      (∃ error, result = .error error ∧ T = .zero) ∨
        ∃ adaptive, result = .ok adaptive ∧ adaptive.isSome = c.adaptiveConcurrency ∧
          T = .guardsBegun (⟨none, adaptive⟩ : AttemptGuards C A).toList := by
  unfold Client.beginAdaptiveAttempt
  split
  next hnone =>
    rw [Bool.not_eq_true'] at hnone
    exact .inr ⟨none, rfl, hnone.symm, rfl⟩
  next hsome =>
    rw [Bool.not_eq_true, Bool.not_eq_false'] at hsome
    split
    · exact .inr ⟨some t.adaptive, rfl, hsome.symm, rfl⟩
    · exact .inl ⟨_, rfl, rfl⟩

theorem beginAttempt_spec :
    Tallies (beginAttempt rt c t x context : Logged (Event σ C A) _) Begun := by
  unfold beginAttempt
  apply acquireRateLimitSlot_spec.bind
  rintro _ slot rfl
  simp only [zero_append]
  cases slot with
  | error error => exact .failed .empty error
  | ok granted =>
    dsimp only
    split
    · exact .abandoned .empty
    split
    · exact .abandoned .empty
    split
    · exact .failed .empty _
    apply beginCircuitAttempt_spec.bind
    rintro T result (⟨error, rfl, rfl⟩ | ⟨circuit, rfl, rfl⟩)
    · exact .failed .empty error
    dsimp only
    split
    · apply tallies_finish_bind.mpr
      rw [tallies_pure, append_zero]
      exact .abandoned ⟨circuit, none⟩
    apply beginAdaptiveAttempt_spec.bind
    rintro T result (⟨error, rfl, rfl⟩ | ⟨adaptive, rfl, -, rfl⟩)
    · apply tallies_finish_bind.mpr
      apply tallies_tell_bind.mpr
      rw [tallies_pure, append_zero, zero_append]
      have hquiet : tally ([.failed context error] : List (Event σ C A)) = .zero := rfl
      rw [hquiet, append_zero]
      exact .failed ⟨circuit, none⟩ error
    · rw [tallies_pure, append_zero]
      have hboth : (guardsBegun (⟨circuit, none⟩ : AttemptGuards C A).toList ++
          guardsBegun (⟨none, adaptive⟩ : AttemptGuards C A).toList : Tally σ C A) =
            .guardsBegun (⟨circuit, adaptive⟩ : AttemptGuards C A).toList := by
        simp [append_def, guardsBegun, zero, AttemptGuards.toList]
      rw [hboth]
      exact .ok ⟨circuit, adaptive⟩

/-- A request that is handed over, or an error for which nothing is tried again. -/
inductive Transmitted (t : Turn C A) (x : RequestExecutionState) (request : SentRequest σ) :
    Tally σ C A → Except Error (StatusCode × HeaderMap) → Prop
  | answered (status : StatusCode) (headers : HeaderMap)
      (hanswer : t.transport = .response status headers) :
      Transmitted t x request (.requestSent request) (.ok (status, headers))
  | failed (error : Error) :
      Transmitted t x request (.requestSent request) (.error error)
  | notSent (error : Error) (hterminal : x.transportRetryDecisionFromError error = none) :
      Transmitted t x request .zero (.error error)

theorem transmit_spec (request : SentRequest σ) :
    Tallies (c.transmit t x rt request : Logged (Event σ C A) _) (Transmitted t x request) := by
  cases rt with
  | blocking =>
    change Tallies (c.runOnce t x request) _
    unfold Client.runOnce
    split
    · exact .notSent _ rfl
    split
    next error hproxy =>
      -- The only error of the proxy check is about the configuration.
      apply Transmitted.notSent error
      unfold Client.validateProxyAuthorization at hproxy
      split at hproxy
      · cases hproxy
      · split at hproxy
        · cases hproxy
        · cases hproxy
          rfl
    · apply tallies_tell_bind.mpr
      split
      next status headers hanswer => exact .answered status headers hanswer
      · exact .failed _
      · exact .failed _
  | async =>
    change Tallies (c.sendTransportRequest t x request) _
    unfold Client.sendTransportRequest
    apply tallies_tell_bind.mpr
    split
    · exact .failed _
    split
    next status headers hanswer => exact .answered status headers hanswer
    · exact .failed _
    · exact .failed _

/-! ## A whole pass -/

/-- How the request of a pass comes from the state at the top of the loop. -/
structure Dispatched (rt : Runtime) (c : Client) (t : Turn C A) (s : SendState σ)
    (request : SentRequest σ) : Prop where
  method : request.method = s.execution.currentMethod
  uri : request.uri = s.execution.currentUri
  carried : request.carried = s.execution.currentHeaders
  intercepted : request.intercepted = interceptedHeaders t s
  headers : request.headers = c.finishHeaders rt request.uri request.intercepted
  body : request.body = s.body
  framed : WellFramed request.intercepted s.body.knownLength

def tightened (c : Client) (t : Turn C A) (s : SendState σ) : RequestExecutionState :=
  s.execution.tightenRetryEligibility (interceptedHeaders t s) c.supportsRetry

/-- What one pass can do. -/
inductive Passed (rt : Runtime) (c : Client) (t : Turn C A) (s : SendState σ) :
    Tally σ C A → Phase σ C A → Prop
  | notSent (g : AttemptGuards C A) (ending : Ending) (limit : ℕ) (outcome : Outcome C A)
      (houtcome : outcome = .abandoned ∨ ending ≠ .drop ∧ ∃ error, outcome = .failed error) :
      Passed rt c t s ⟨[], g.toList, g.endedAs ending, [], 0, 0⟩
        (.finished ⟨{ s.execution with maxAttempts := limit }, outcome⟩)
  | retried (request : SentRequest σ) (g : AttemptGuards C A)
      (hrequest : Dispatched rt c t s request)
      (hroom : (tightened c t s).attempt < (tightened c t s).maxAttempts) :
      Passed rt c t s ⟨[request], g.toList, g.endedAs .failure, [], c.retryCost, 0⟩
        (.running ⟨{ tightened c t s with attempt := (tightened c t s).attempt + 1 },
          s.body.takeForAttempt.2⟩)
  | redirected (request : SentRequest σ) (g : AttemptGuards C A) (status : StatusCode)
      (headers : HeaderMap) (action : RedirectAction) (hrequest : Dispatched rt c t s request)
      (haction : (tightened c t s).nextRedirectAction c.deps status headers = .ok (some action)) :
      Passed rt c t s ⟨[request], g.toList, g.endedAs .success, [action], 0, 0⟩
        (.running ⟨((tightened c t s).applyRedirect c.deps action c.supportsRetry).1,
          if action.dropsBody then .default else s.body.takeForAttempt.2⟩)
  | returned (request : SentRequest σ) (g : AttemptGuards C A)
      (ended : List (Guard C A × Ending)) (credits : ℕ) (outcome : Outcome C A)
      (hrequest : Dispatched rt c t s request)
      (hguards : ended.map Prod.fst ++ outcome.held = g.toList) (hmarks : outcome.Marks ended)
      (hfresh : outcome.Fresh (tightened c t s))
      (hcredits : outcome.Credits rt t (tightened c t s) credits)
      (hkeeps : outcome.Keeps (tightened c t s) ended) :
      Passed rt c t s ⟨[request], g.toList, ended, [], 0, credits⟩
        (.finished ⟨tightened c t s, outcome⟩)

variable {s : SendState σ}

theorem Settled.passed {request : SentRequest σ} {phase : Phase σ C A}
    (hrequest : Dispatched rt c t s request)
    (h : Settled rt c t (tightened c t s) s.body.takeForAttempt.2 g T phase) :
    Passed rt c t s (.guardsBegun g.toList ++ (.requestSent request ++ T)) phase := by
  have htotal : (.guardsBegun g.toList ++ (.requestSent request ++ T) : Tally σ C A) =
      ⟨request :: T.sent, g.toList ++ T.begun, T.ended, T.redirects, T.tokens, T.credits⟩ := by
    simp [append_def, guardsBegun, requestSent, zero]
  rw [htotal]
  cases h with
  | retried hroom => simpa [guardsEnded, zero] using .retried request g hrequest hroom
  | redirected status headers action haction =>
    simpa [guardsEnded, zero] using
      .redirected request g status headers action hrequest haction
  | returned ended credits outcome hguards hmarks hfresh hcredits hkeeps =>
    simpa [guardsEnded, zero] using
      .returned request g ended credits outcome hrequest hguards hmarks hfresh hcredits hkeeps

theorem Passed.of_notSent (g : AttemptGuards C A) (ending : Ending) (limit : ℕ)
    {outcome : Outcome C A}
    (houtcome : outcome = .abandoned ∨ ending ≠ .drop ∧ ∃ error, outcome = .failed error) :
    Passed rt c t s (.guardsBegun g.toList ++ .guardsEnded (g.endedAs ending))
      (.finished ⟨{ s.execution with maxAttempts := limit }, outcome⟩) := by
  simpa [append_def, guardsBegun, guardsEnded, zero] using
    Passed.notSent g ending limit outcome houtcome

theorem notSent_spec {limit : ℕ} (hending : ending ≠ .drop) (error : Error)
    (context : RequestContext) :
    Tallies (g.finish ending >>= fun attempts ↦
        fail attempts { s.execution with maxAttempts := limit } context error) fun T phase ↦
      T.begun = [] ∧ Passed rt c t s (.guardsBegun g.toList ++ T) phase := by
  apply tallies_finish_bind.mpr
  rw [tallies_fail_empty, append_zero]
  exact ⟨rfl, .of_notSent g ending limit (.inr ⟨hending, error, rfl⟩)⟩

theorem transportFailurePlan_of_none {error : Error} {source : Option BackoffSource} {draw : ℕ}
    (hterminal : x.transportRetryDecisionFromError error = none) :
    ∃ disposition, x.transportFailurePlan error source draw = .terminal disposition := by
  unfold RequestExecutionState.transportFailurePlan
  rw [hterminal]
  dsimp only
  split <;> exact ⟨_, rfl⟩

theorem settleFailure_of_terminal {error : Error}
    (hterminal : x.transportRetryDecisionFromError error = none) :
    ∃ ending, ending ≠ .drop ∧ settleFailure c t x body g context error =
      g.finish ending >>= fun attempts ↦ fail attempts x context error := by
  obtain ⟨disposition, hplan⟩ := transportFailurePlan_of_none hterminal
  unfold settleFailure
  rw [hplan]
  cases disposition with
  | failure => exact ⟨.failure, by decide, rfl⟩
  | cancel => exact ⟨.cancel, by decide, rfl⟩

/-- An attempt that was admitted begins no other guards. -/
theorem dispatch_spec (s : SendState σ) :
    Tallies (dispatch rt c mode t s g) fun T phase ↦
      T.begun = [] ∧ Passed rt c t s (.guardsBegun g.toList ++ T) phase := by
  unfold dispatch
  obtain ⟨limit, htight, -⟩ := s.execution.tightenRetryEligibility_cases
    (interceptedHeaders t s) c.supportsRetry
  dsimp only
  split
  next error hinvalid =>
    rw [htight]
    exact notSent_spec (by decide) error _
  next hvalid =>
    split
    next hdeadline =>
      rw [htight]
      exact notSent_spec (by decide) _ _
    next transportTimeout htimeout =>
      have hrequest : Dispatched rt c t s (attemptRequest rt c t s transportTimeout) :=
        { method := rfl
          uri := rfl
          carried := rfl
          intercepted := rfl
          headers := rfl
          body := s.body.takeForAttempt_fst
          framed := wellFramed_of_validate hvalid }
      -- Once the request is handed over, all that is left is how the attempt settles.
      have hsent {y : Logged (Event σ C A) (Phase σ C A)}
          (hy : Tallies y (Settled rt c t (tightened c t s) s.body.takeForAttempt.2 g)) :
          Tallies y fun U phase ↦
            (requestSent (attemptRequest rt c t s transportTimeout) ++ U).begun = [] ∧
              Passed rt c t s (.guardsBegun g.toList ++
                (.requestSent (attemptRequest rt c t s transportTimeout) ++ U)) phase :=
        hy.mono fun U phase hsettled ↦ ⟨hsettled.begun_eq, hsettled.passed hrequest⟩
      apply (transmit_spec (attemptRequest rt c t s transportTimeout)).bind
      rintro T answer htransmitted
      cases htransmitted with
      | answered status headers hanswer =>
        split
        · exact hsent leave_abandoned_spec
        · exact hsent (settleResponse_spec transportTimeout status headers hanswer)
      | failed error =>
        split
        · exact hsent leave_abandoned_spec
        · exact hsent (settleFailure_spec error)
      | notSent error hterminal =>
        simp only [zero_append]
        split
        · apply tallies_finish_bind.mpr
          rw [tallies_pure, append_zero, htight]
          exact ⟨rfl, .of_notSent g .drop limit (.inl rfl)⟩
        · obtain ⟨ending, hending, hend⟩ := settleFailure_of_terminal hterminal
          rw [hend, htight]
          exact notSent_spec hending error _

theorem iterate_spec (s : SendState σ) : Tallies (iterate rt c mode t s) (Passed rt c t s) := by
  unfold iterate
  apply tallies_tell_bind.mpr
  have hquiet : tally ([.requestStarted s.execution.context] : List (Event σ C A)) = .zero := rfl
  simp only [hquiet, zero_append]
  apply beginAttempt_spec.bind
  rintro T result hbegun
  cases hbegun with
  | failed g error =>
    rw [tallies_pure, append_zero]
    exact .of_notSent g .cancel s.execution.maxAttempts (.inr ⟨by decide, error, rfl⟩)
  | abandoned g =>
    rw [tallies_pure, append_zero]
    exact .of_notSent g .drop s.execution.maxAttempts (.inl rfl)
  | ok g => exact (dispatch_spec s).mono fun _ _ h ↦ h.2

/-- Leaving through the loop condition is one way of ending without a send. -/
theorem pass_running_spec (s : SendState σ) :
    Tallies (pass rt c mode t (.running s)) (Passed rt c t s) := by
  unfold pass
  dsimp only
  split
  · exact .of_notSent .empty .drop s.execution.maxAttempts (.inl rfl)
  split
  · exact iterate_spec s
  · apply tallies_tell_bind.mpr
    apply tallies_pure.mpr
    exact .notSent .empty .cancel s.execution.maxAttempts _ (.inr ⟨by decide, _, rfl⟩)

end Reqx.Driver
