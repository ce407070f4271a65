import Reqx.Driver.Calls
import Reqx.Library.Pairs

/-!
# What calls hold and what they have told

Permits are handed over and never copied, so those of all calls and those that
are left add up to the limit of the client. Every call tells the metrics once
how it ended: itself, or through the stream that it has returned.
-/

namespace Reqx.Metrics

open Recording

/-! ## How an action closes a request -/

inductive Closing where
  | succeeded | failed | canceled
  deriving DecidableEq, Repr

def Closing.counter : Closing → Counter
  | .succeeded => .requestsSucceeded
  | .failed => .requestsFailed
  | .canceled => .requestsCanceled

/-- How an action ends the request, if it does. -/
def Action.closing? : Action → Option Closing
  | .completeSuccess _ | .streamSuccess => some .succeeded
  | .completeError _ | .streamError _ => some .failed
  | .drop | .streamCanceled => some .canceled
  | .intoStream _ => none

inductive Standing where
  | pending | opened | closed
  deriving DecidableEq, Repr

def Owner.standing : Owner → Standing
  | .pending _ => .pending
  | .stream completion => if completion.inFlightGuard.isSome then .opened else .closed
  | .gone => .closed

def Standing.after : Standing → Action → Option Standing
  | .pending, .completeSuccess _ | .pending, .completeError _ | .pending, .drop => some .closed
  | .pending, .intoStream _ => some .opened
  | .opened, .streamSuccess | .opened, .streamError _ | .opened, .streamCanceled => some .closed
  | _, _ => none

/-- How often updates count a request as ended like this. -/
def closes (es : List Update) (c : Closing) : ℕ := times es (.up c.counter)

def oneIf (ending : Option Closing) (c : Closing) : ℕ := if ending = some c then 1 else 0

theorem closes_append (es es' : List Update) (c : Closing) :
    closes (es ++ es') c = closes es c + closes es' c :=
  times_append es es' _

theorem closes_success (status latency : ℕ) (c : Closing) :
    closes (recordRequestCompletedSuccess status latency).events c =
      oneIf (some .succeeded) c := by
  cases c <;> rfl

theorem closes_canceled (latency : ℕ) (c : Closing) :
    closes (recordRequestCompletedCanceled latency).events c = oneIf (some .canceled) c := by
  cases c <;> rfl

theorem closes_error (error : Error) (latency : ℕ) (c : Closing) :
    closes (recordRequestCompletedError error latency).events c = oneIf (some .failed) c := by
  have hkinds : ∀ kind ∈ errorKinds,
      (.up .requestsFailed :: latencyMarks ++ .count .errorCodeCounts :: kind).count
        (.up c.counter) = oneIf (some .failed) c := by
    cases c <;> decide
  exact hkinds _ (marks_recordErrorKind error)

/-- The guard that leaves afterwards closes nothing. -/
theorem closes_left (es : List Update) (c : Closing) :
    closes (es ++ [.sub .inFlight 1] ++ []) c = closes es c := by
  rw [closes_append, closes_append]
  cases c <;> rfl

theorem Accounted.act_standing {owner : Owner} {ms : List Mark} (h : Accounted owner ms) (now : ℕ)
    {action : Action} {standing : Standing} (hafter : owner.standing.after action = some standing) :
    (owner.act now action).value.standing = standing ∧
      ∀ c, closes (owner.act now action).events c = oneIf action.closing? c := by
  cases h with
  | pending p hguard hopen =>
    obtain ⟨startedAt, inFlight, completed⟩ := p
    obtain rfl : inFlight = ⟨true⟩ := hguard
    obtain rfl : completed = false := hopen
    cases action with
    | completeSuccess status =>
      cases hafter
      exact ⟨rfl, fun c ↦ (closes_left _ c).trans (closes_success _ _ c)⟩
    | completeError error =>
      cases hafter
      exact ⟨rfl, fun c ↦ (closes_left _ c).trans (closes_error _ _ c)⟩
    | drop =>
      cases hafter
      exact ⟨rfl, fun c ↦ (closes_left _ c).trans (closes_canceled _ c)⟩
    | intoStream status =>
      cases hafter
      exact ⟨rfl, fun _ ↦ rfl⟩
    | streamSuccess | streamError | streamCanceled => cases hafter
  | stream s hguard =>
    obtain ⟨startedAt, status, inFlight⟩ := s
    obtain rfl : inFlight = some ⟨true⟩ := hguard
    cases action with
    | streamSuccess =>
      cases hafter
      exact ⟨rfl, fun c ↦ (closes_left _ c).trans (closes_success _ _ c)⟩
    | streamError error =>
      cases hafter
      exact ⟨rfl, fun c ↦ (closes_left _ c).trans (closes_error _ _ c)⟩
    | streamCanceled =>
      cases hafter
      exact ⟨rfl, fun c ↦ (closes_left _ c).trans (closes_canceled _ c)⟩
    | completeSuccess | completeError | intoStream | drop => cases hafter
  | ended s hguard closing hclosing =>
    rw [Owner.standing, hguard] at hafter
    cases action <;> cases hafter
  | gone closing hclosing => cases action <;> cases hafter

end Reqx.Metrics

namespace Reqx.Driver

open Reqx.Stream (Completion Moves Tidy Transport World)

variable {rt : Runtime} {σ C A : Type}

/-! ## Streams of calls -/

section Streams

abbrev CallEvent (C A : Type) : Type :=
  Stream.Event (StreamResilienceHooks C A) Metrics.StreamCompletion

/-- What a log has told the metrics. -/
def recorded (es : List (CallEvent C A)) : List Metrics.Action := es.filterMap Call.told

theorem recorded_append (es es' : List (CallEvent C A)) :
    recorded (es ++ es') = recorded es ++ recorded es' :=
  List.filterMap_append

theorem recorded_eq_nil {es : List (CallEvent C A)} (h : ∀ e ∈ es, e.isRecord = false) :
    recorded es = [] := by
  refine List.filterMap_eq_nil_iff.mpr fun e he ↦ ?_
  cases e with
  | metrics m c => cases h _ he
  | _ => rfl

def Completion.action : Completion → Metrics.Action
  | .success => .streamSuccess
  | .error error => .streamError error
  | .canceled => .streamCanceled

theorem recorded_records
    (l : Stream.StreamLifecycle (StreamResilienceHooks C A) Metrics.StreamCompletion)
    (c : Completion) :
    recorded (l.records c) = l.completion.toList.map fun _ ↦ Completion.action c := by
  obtain ⟨completion, hooks, completed⟩ := l
  cases completion <;> cases hooks <;> cases c <;> rfl

/-- How a use of a stream leaves it: somewhat further on, or completed. -/
inductive Used (s : CallStream rt C A) : CallStream rt C A → Prop
  | moved {w : World (StreamResilienceHooks C A) Metrics.StreamCompletion}
      {es : List (CallEvent C A)} {s' : CallStream rt C A} (h : Moves w s es s') : Used s s'
  | completed {w : World (StreamResilienceHooks C A) Metrics.StreamCompletion}
      {es : List (CallEvent C A)} {s' : CallStream rt C A} (h : Moves w s es s')
      (c : Completion) : Used s (s'.complete c)

variable {s s' : CallStream rt C A}

theorem used_read (hs : Tidy s) (w : World (StreamResilienceHooks C A) Metrics.StreamCompletion)
    (capacity : ℕ) : Used s (Stream.read rt w s capacity).2 := by
  have hread := Stream.readRan_read rt w hs capacity
  generalize Stream.read rt w s capacity = result at hread
  cases hread with
  | pending hmoves => exact .moved hmoves
  | delivered hmoves => exact .moved hmoves
  | ended hmoves => exact .completed hmoves _
  | failed hmoves => exact .completed hmoves _

theorem used_consume (hs : Tidy s) (w : World (StreamResilienceHooks C A) Metrics.StreamCompletion)
    (codecs : Codecs) (helper : Stream.Helper) :
    Used s (Stream.consume rt w s codecs helper).2 := by
  have hconsume := Stream.helperRan_consume rt w codecs helper hs
  generalize Stream.consume rt w s codecs helper = result at hconsume
  cases hconsume with
  | ok hmoves => exact .completed hmoves _
  | failed hmoves => exact .completed hmoves _
  | abandoned hmoves => exact .moved hmoves

/-- An open stream has the transport, the permit and the accounting of its call; a completed one
has told how it ended, and has nothing. -/
structure StreamOk (limited : Bool) (s : CallStream rt C A) : Prop where
  tidy : Tidy s
  opened : s.lifecycle.completed = false →
    s.globalPermit = limited ∧ s.lifecycle.completion.isSome = true ∧ recorded s.log = []
  closed : s.lifecycle.completed = true →
    s.globalPermit = false ∧ Transport.held s.body = false ∧
      ∃ c, recorded s.log = [Completion.action c]

variable {limited : Bool}

theorem StreamOk.moved {w : World (StreamResilienceHooks C A) Metrics.StreamCompletion}
    {es : List (CallEvent C A)} (h : StreamOk limited s) (hmoves : Moves w s es s') :
    StreamOk limited s' := by
  have hrecorded : recorded s'.log = recorded s.log := by
    rw [hmoves.log_eq, recorded_append, recorded_eq_nil hmoves.unrecorded, List.append_nil]
  have hpermit : s'.globalPermit = s.globalPermit := by
    rw [hmoves.eq]
    rfl
  refine ⟨hmoves.tidy h.tidy, ?_, ?_⟩
  · rw [hmoves.lifecycle_eq, hrecorded, hpermit]
    exact h.opened
  · rw [hmoves.lifecycle_eq, hrecorded, hpermit, hmoves.held]
    exact h.closed

theorem recorded_complete (s : CallStream rt C A) (c : Completion) :
    ∃ es, (s.complete c).log = s.log ++ es ∧
      recorded es = if s.lifecycle.completed then []
        else s.lifecycle.completion.toList.map fun _ ↦ Completion.action c := by
  cases hcompleted : s.lifecycle.completed with
  | true =>
    refine ⟨[], ?_, rfl⟩
    simp [Stream.ResponseStream.complete, Stream.StreamLifecycle.complete, hcompleted, Pure.pure]
  | false => exact ⟨_, Stream.log_complete_of_open hcompleted, recorded_records _ c⟩

theorem Used.recorded_log (h : Used s s') :
    recorded s'.log = recorded s.log ++ recorded (s'.log.drop s.log.length) := by
  have hprefix : s.log <+: s'.log := by
    cases h with
    | moved hmoves =>
      rw [hmoves.log_eq]
      exact List.prefix_append _ _
    | @completed w es s₁ hmoves c =>
      obtain ⟨es', hlog, -⟩ := recorded_complete s₁ c
      rw [hlog, hmoves.log_eq, List.append_assoc]
      exact List.prefix_append _ _
  obtain ⟨es, hes⟩ := hprefix
  rw [← hes, List.drop_left, recorded_append]

/-- A completed stream stays as it is, an open one tells how it ended. -/
theorem StreamOk.complete (h : StreamOk limited s) (c : Completion) :
    StreamOk limited (s.complete c) := by
  obtain ⟨es, hlog, hes⟩ := recorded_complete s c
  refine ⟨Stream.tidy_complete s c, fun hopen ↦ ?_, fun _ ↦ ⟨rfl, Transport.held_released, ?_⟩⟩
  · rw [Stream.completed_complete] at hopen
    cases hopen
  rw [hlog, recorded_append, hes]
  cases hcompleted : s.lifecycle.completed with
  | true =>
    obtain ⟨-, -, c', hc'⟩ := h.closed hcompleted
    exact ⟨c', by rw [hc', if_pos rfl, List.append_nil]⟩
  | false =>
    obtain ⟨-, hsome, hnone⟩ := h.opened hcompleted
    obtain ⟨completion, hcompletion⟩ := Option.isSome_iff_exists.mp hsome
    exact ⟨c, by rw [hnone, hcompletion]; rfl⟩

/-- What a use tells the metrics: nothing, or how the stream has ended now. -/
theorem StreamOk.used (h : StreamOk limited s) (hused : Used s s') :
    StreamOk limited s' ∧
      ((s'.lifecycle.completed = s.lifecycle.completed ∧
          recorded (s'.log.drop s.log.length) = []) ∨
        (s.lifecycle.completed = false ∧ s'.lifecycle.completed = true ∧
          ∃ c, recorded (s'.log.drop s.log.length) = [Completion.action c])) := by
  cases hused with
  | moved hmoves =>
    refine ⟨h.moved hmoves, .inl ⟨by rw [hmoves.lifecycle_eq], ?_⟩⟩
    rw [hmoves.log_eq, List.drop_left]
    exact recorded_eq_nil hmoves.unrecorded
  | @completed w es s₁ hmoves c =>
    obtain ⟨es', hlog, hes'⟩ := recorded_complete s₁ c
    have hnew : recorded ((s₁.complete c).log.drop s.log.length) = recorded es' := by
      rw [hlog, hmoves.log_eq, List.append_assoc, List.drop_left, recorded_append,
        recorded_eq_nil hmoves.unrecorded, List.nil_append]
    rw [hmoves.lifecycle_eq] at hes'
    refine ⟨(h.moved hmoves).complete c, ?_⟩
    rw [hnew, hes', Stream.completed_complete]
    cases hcompleted : s.lifecycle.completed with
    | true => exact .inl ⟨rfl, rfl⟩
    | false =>
      obtain ⟨-, hsome, -⟩ := h.opened hcompleted
      obtain ⟨completion, hcompletion⟩ := Option.isSome_iff_exists.mp hsome
      exact .inr ⟨rfl, rfl, c, by rw [hcompletion]; rfl⟩

end Streams

/-! ## What a move does -/

def CallResult.closing : CallResult → Metrics.Closing
  | .response _ _ _ => .succeeded
  | .failed _ | .mismatched _ => .failed
  | .abandoned => .canceled

def CallResult.isMismatch : CallResult → Bool
  | .mismatched _ => true
  | _ => false

/-- A stream is sound, and a result is not one of a mismatch. -/
def Stage.Ok (k : LimitedClient) : Stage rt σ C A → Prop
  | .waiting | .sending _ => True
  | .returning result | .ended result => result.isMismatch = false
  | .streaming s => StreamOk k.maxInFlight.isSome s

namespace Call

/-- Where the accounting of a call stands. -/
def standing (call : Call rt σ C A) : Metrics.Standing :=
  match call.stage with
  | .waiting | .sending _ => .pending
  | .returning _ | .ended _ => .closed
  | .streaming s => if s.lifecycle.completed then .closed else .opened

/-- How a call has ended, by its result or by what its stream has told. -/
def ending (call : Call rt σ C A) : Option Metrics.Closing :=
  match call.stage with
  | .waiting | .sending _ => none
  | .returning result | .ended result => some result.closing
  | .streaming s => (recorded s.log).findSome? Metrics.Action.closing?

def isWaiting (call : Call rt σ C A) : Bool :=
  match call.stage with
  | .waiting => true
  | _ => false

def isReturning (call : Call rt σ C A) : Bool :=
  match call.stage with
  | .returning _ => true
  | _ => false

def isMismatch (call : Call rt σ C A) : Bool :=
  match call.stage with
  | .returning result | .ended result => result.isMismatch
  | _ => false

/-- Whether a call can be using a transport. -/
def transports (call : Call rt σ C A) : ℕ :=
  match call.stage with
  | .sending _ => 1
  | .streaming s => (Transport.held s.body).toNat
  | _ => 0

/-- No permit is lost or made on the way from one stage to another. -/
def Conserves (k : LimitedClient) (call call' : Call rt σ C A) : Prop :=
  ∀ available left, k.permitsLeft available (call.stage.permitUse call'.stage) = some left →
    left + call'.permits k = available + call.permits k

/-- What a move makes of a call: nothing that the metrics hear of, or one thing. -/
structure Moved (k : LimitedClient) (call : Call rt σ C A) (step : Call.Step rt σ C A) :
    Prop where
  ok : step.1.stage.Ok k
  permits : call.Conserves k step.1
  told : (step.2 = [] ∧ step.1.standing = call.standing ∧ step.1.ending = call.ending) ∨
    ∃ action, step.2 = [action] ∧ call.standing.after action = some step.1.standing ∧
      call.ending = none ∧ step.1.ending = action.closing?

variable {k : LimitedClient} {call : Call rt σ C A}

/-! ### Permits -/

theorem permitsLeft_takes {available left : ℕ} (h : k.permitsLeft available .takes = some left) :
    left + k.maxInFlight.isSome.toNat = available := by
  unfold LimitedClient.permitsLeft at h
  cases hlimit : k.maxInFlight <;> simp [hlimit] at h ⊢ <;> omega

theorem permitsLeft_gives {available left : ℕ} (h : k.permitsLeft available .gives = some left) :
    left = available + k.maxInFlight.isSome.toNat := by
  unfold LimitedClient.permitsLeft at h
  cases hlimit : k.maxInFlight <;> simp [hlimit] at h ⊢ <;> omega

theorem conserves_of_keeps {call' : Call rt σ C A}
    (hkeeps : call.stage.permitUse call'.stage = .keeps)
    (hpermits : call'.permits k = call.permits k) : call.Conserves k call' := by
  intro available left hleft
  rw [hkeeps] at hleft
  cases hleft
  rw [hpermits]

theorem conserves_ended (hpending : call.standing = .pending) (result : CallResult) :
    call.Conserves k (call.set (.ended result)) := by
  obtain ⟨mode, input, requestStartedAt, stage⟩ := call
  cases stage with
  | waiting => exact conserves_of_keeps rfl rfl
  | sending s => exact fun available left hleft ↦ permitsLeft_gives hleft
  | returning | ended => cases hpending
  | streaming s =>
    simp only [standing] at hpending
    split at hpending <;> cases hpending

theorem conserves_streaming {s s' : CallStream rt C A} (hstage : call.stage = .streaming s)
    (h : StreamOk k.maxInFlight.isSome s) (h' : StreamOk k.maxInFlight.isSome s')
    (hcompleted : s'.lifecycle.completed = s.lifecycle.completed ∨
      s.lifecycle.completed = false ∧ s'.lifecycle.completed = true) :
    call.Conserves k (call.set (.streaming s')) := by
  have hpermit {s : CallStream rt C A} (h : StreamOk k.maxInFlight.isSome s) :
      s.globalPermit = (!s.lifecycle.completed && k.maxInFlight.isSome) := by
    cases hopen : s.lifecycle.completed with
    | false => exact (h.opened hopen).1
    | true => exact (h.closed hopen).1
  obtain hsame | ⟨hopen, hclosed⟩ := hcompleted
  · have heq : s'.globalPermit = s.globalPermit := by rw [hpermit h, hpermit h', hsame]
    refine conserves_of_keeps ?_ ?_
    · simp [set, hstage, Stage.permitUse, heq]
    · simp only [set, permits, hstage, heq]
  · intro available left hleft
    have hgiven : s'.globalPermit = false := by rw [hpermit h', hclosed]; rfl
    have hheld : s.globalPermit = k.maxInFlight.isSome := by rw [hpermit h, hopen]; rfl
    simp only [set, permits, hstage, Stage.permitUse, hgiven, hheld] at hleft ⊢
    cases hlimited : k.maxInFlight.isSome with
    | false =>
      rw [hlimited] at hleft
      cases hleft
      rfl
    | true =>
      rw [hlimited] at hleft
      rw [permitsLeft_gives hleft, hlimited]
      rfl

/-! ### Moves -/

theorem unmoved (h : call.stage.Ok k) : Moved k call (call, []) := by
  refine ⟨h, conserves_of_keeps ?_ rfl, .inl ⟨rfl, rfl, rfl⟩⟩
  cases hstage : call.stage <;> simp [Stage.permitUse]

/-- A call that is pending ends by itself. -/
theorem moved_ended {action : Metrics.Action} {result : CallResult}
    (hpending : call.standing = .pending) (hnone : call.ending = none)
    (hresult : result.isMismatch = false)
    (hafter : Metrics.Standing.pending.after action = some .closed)
    (haction : action.closing? = some result.closing) :
    Moved k call (call.set (.ended result), [action]) :=
  ⟨hresult, conserves_ended hpending result,
    .inr ⟨action, rfl, hpending ▸ hafter, hnone, haction.symm⟩⟩

theorem moved_acquire (h : call.stage.Ok k) (wait : PermitWait) :
    Moved k call (call.acquire k wait) := by
  unfold Call.acquire
  split
  next hstage =>
    have hpending : call.standing = .pending := by rw [standing, hstage]
    have hnone : call.ending = none := by rw [ending, hstage]
    split
    · exact moved_ended hpending hnone rfl rfl rfl
    split
    · exact moved_ended hpending hnone rfl rfl rfl
    · refine ⟨trivial, fun available left hleft ↦ ?_, .inl ⟨rfl, hpending.symm, hnone.symm⟩⟩
      rw [hstage] at hleft
      rw [permits, permits, hstage]
      exact permitsLeft_takes hleft
  next => exact unmoved h

section Sending

variable {s : SendState σ} {outcome : Outcome C A}

theorem moved_returning {action : Metrics.Action} {result : CallResult}
    (hstage : call.stage = .sending s) (hresult : result.isMismatch = false)
    (hafter : Metrics.Standing.pending.after action = some .closed)
    (haction : action.closing? = some result.closing) :
    Moved k call (call.set (.returning result), [action]) := by
  refine ⟨hresult, conserves_of_keeps ?_ ?_, .inr ⟨action, rfl, ?_, ?_, haction.symm⟩⟩
  · rw [hstage]
    rfl
  · rw [permits, permits, hstage]
    rfl
  · rw [standing, hstage]
    exact hafter
  · rw [ending, hstage]

theorem moved_finishBuffered (hstage : call.stage = .sending s)
    (hfits : outcome.FitsMode .buffered) : Moved k call (call.finishBuffered outcome) := by
  cases outcome with
  | failed error => exact moved_returning hstage rfl rfl rfl
  | response status headers body => exact moved_returning hstage rfl rfl rfl
  | stream response => cases hfits
  | abandoned =>
    exact moved_ended (by rw [standing, hstage]) (by rw [ending, hstage]) rfl rfl rfl

theorem streamOk_open {response : StreamResponse C A} (arrival : Arrival rt)
    (hfresh : response.lifecycle.completed = false) (deadlineSlack : ℕ) (limited : Bool)
    (completion : Metrics.StreamCompletion) :
    StreamOk limited (response.open arrival deadlineSlack limited completion) ∧
      (response.open arrival deadlineSlack limited completion).lifecycle.completed = false ∧
      (response.open arrival deadlineSlack limited completion).log = [] := by
  refine ⟨⟨fun hheld ↦ ?_, fun _ ↦ ⟨rfl, rfl, rfl⟩, fun hcompleted ↦ ?_⟩, hfresh, rfl⟩
  · cases rt <;> cases hheld
  · cases hfresh.symm.trans hcompleted

theorem moved_finishStream (arrival : Arrival rt) (hstage : call.stage = .sending s)
    (hfits : outcome.FitsMode .stream)
    (hfresh : ∀ response, outcome = .stream response → response.lifecycle.completed = false) :
    Moved k call (call.finishStream k arrival outcome) := by
  have hpending : call.standing = .pending := by rw [standing, hstage]
  have hnone : call.ending = none := by rw [ending, hstage]
  cases outcome with
  | failed error => exact moved_ended hpending hnone rfl rfl rfl
  | response status headers body => cases hfits
  | stream response =>
    obtain ⟨hok, hopen, hlog⟩ := streamOk_open arrival (hfresh response rfl)
      k.streamDeadlineSlack k.maxInFlight.isSome
      ⟨call.requestStartedAt, response.status.code, some ⟨true⟩⟩
    refine ⟨hok, conserves_of_keeps ?_ ?_, .inr ⟨_, rfl, ?_, hnone, ?_⟩⟩
    · rw [hstage]
      rfl
    · rw [permits, permits, hstage]
      rfl
    · rw [hpending]
      simp [standing, finishStream, set, hopen, Metrics.Standing.after]
    · simp [ending, finishStream, set, hlog, recorded, Metrics.Action.closing?]
  | abandoned => exact moved_ended hpending hnone rfl rfl rfl

end Sending

theorem fresh_of_pass {c : Client} {mode : ResponseMode} {t : Turn C A} {s : SendState σ}
    {f : Finish C A} (h : (pass rt c mode t (.running s)).value = .finished f)
    {response : StreamResponse C A} (hresponse : f.outcome = .stream response) :
    response.lifecycle.completed = false := by
  have hpassed : Passed rt c t s _ (pass rt c mode t (.running s)).value := pass_running_spec s
  generalize tally (pass rt c mode t (.running s)).events = T at hpassed
  rw [h] at hpassed
  cases hpassed with
  | notSent g ending limit outcome houtcome =>
    obtain rfl | ⟨-, error, rfl⟩ := houtcome <;> cases hresponse
  | returned request g ended credits outcome hrequest hguards hmarks hfresh =>
    obtain rfl : outcome = .stream response := hresponse
    exact hfresh.1

theorem moved_turn (h : call.stage.Ok k) (t : Turn C A) (arrival : Arrival rt) :
    Moved k call (call.turn k t arrival) := by
  unfold turn
  split
  next s hstage =>
    have hfits : Fits call.mode (pass rt k.client call.mode t (.running s)) := fits_pass s
    unfold Fits at hfits
    split
    next s' hpass =>
      refine ⟨trivial, conserves_of_keeps ?_ ?_, .inl ⟨rfl, ?_, ?_⟩⟩
      · rw [hstage]
        rfl
      · rw [permits, permits, hstage]
        rfl
      · rw [standing, standing, hstage]
        rfl
      · rw [ending, ending, hstage]
        rfl
    next f hpass =>
      rw [hpass] at hfits
      split
      next hmode =>
        rw [hmode] at hfits
        exact moved_finishBuffered hstage hfits
      next hmode =>
        rw [hmode] at hfits
        exact moved_finishStream arrival hstage hfits fun _ ↦ fresh_of_pass hpass
  next => exact unmoved h

theorem moved_finish (h : call.stage.Ok k) : Moved k call call.finish := by
  unfold finish
  split
  next result hstage =>
    rw [hstage] at h
    refine ⟨h, fun available left hleft ↦ ?_, .inl ⟨rfl, ?_, ?_⟩⟩
    · rw [hstage] at hleft
      rw [permits, permits, hstage]
      exact permitsLeft_gives hleft
    · rw [standing, standing, hstage]
      rfl
    · rw [ending, ending, hstage]
      rfl
  next => exact unmoved h

theorem moved_useStream (h : call.stage.Ok k) {change : CallStream rt C A → CallStream rt C A}
    (hchange : ∀ s, Tidy s → Used s (change s)) : Moved k call (call.useStream change) := by
  unfold useStream
  split
  next s hstage =>
    rw [hstage] at h
    obtain ⟨hok, htold⟩ := StreamOk.used h (hchange s h.tidy)
    have hlog := (hchange s h.tidy).recorded_log
    refine ⟨hok, conserves_streaming hstage h hok (htold.imp And.left fun h ↦ ⟨h.1, h.2.1⟩), ?_⟩
    obtain ⟨hsame, hnothing⟩ | ⟨hopen, hclosed, c, hc⟩ := htold
    · refine .inl ⟨hnothing, ?_, ?_⟩
      · simp only [standing, set, hstage, hsame]
      · simp only [ending, set, hstage, hlog, hnothing, List.append_nil]
    · obtain ⟨-, -, hnone⟩ := h.opened hopen
      refine .inr ⟨_, hc, ?_, ?_, ?_⟩
      · simp only [standing, set, hstage, hopen, hclosed]
        cases c <;> rfl
      · simp only [ending, hstage, hnone]
        rfl
      · simp only [ending, set, hlog, hnone, hc]
        cases c <;> rfl
  next => exact unmoved h

theorem moved_move (h : call.stage.Ok k) (m : CallMove rt C A) : Moved k call (call.move k m) := by
  cases m with
  | acquire wait => exact moved_acquire h wait
  | turn t arrival => exact moved_turn h t arrival
  | finish => exact moved_finish h
  | read w capacity => exact moved_useStream h fun s hs ↦ used_read hs w capacity
  | consume w codecs helper => exact moved_useStream h fun s hs ↦ used_consume hs w codecs helper
  | drop =>
    refine moved_useStream h fun s _ ↦ ?_
    exact .completed (.refl ⟨fun _ ↦ 0, fun _ ↦ false, fun _ ↦ false, fun _ ↦ .done,
      fun _ ↦ 0⟩ s) .canceled

end Call

/-! ## Runs -/

/-- The accounting of a call agrees with its stage. -/
structure Accounts (call : Call rt σ C A) (r : Metrics.Request) : Prop where
  ok : r.Ok
  standing : r.owner.standing = call.standing
  closes : ∀ c, Metrics.closes (r.done ++ r.pending) c = Metrics.oneIf call.ending c

section Accounts

variable {k : LimitedClient} {call : Call rt σ C A} {r : Metrics.Request}

theorem accounts_start (mode : ResponseMode) (input : RetryRequestInput σ) (now : ℕ) :
    Accounts (⟨mode, input, now, .waiting⟩ : Call rt σ C A) (.new now) :=
  ⟨Metrics.Request.ok_new now, rfl, fun c ↦ by cases c <;> rfl⟩

/-- The next update is made. -/
theorem Accounts.advance {u : Metrics.Update} {rest : List Metrics.Update} (h : Accounts call r)
    (hpending : r.pending = u :: rest) :
    Accounts call { r with done := r.done ++ [u], pending := rest } := by
  have hsame : r.done ++ [u] ++ rest = r.done ++ r.pending := by
    rw [hpending, List.append_assoc]
    rfl
  refine ⟨?_, h.standing, fun c ↦ ?_⟩
  · have hok : Metrics.Accounted r.owner (Metrics.marks (r.done ++ r.pending)) := h.ok
    rw [← hsame] at hok
    exact hok
  · rw [hsame]
    exact h.closes c

theorem Accounts.act {call' : Call rt σ C A} {action : Metrics.Action} (h : Accounts call r)
    (hpending : r.pending = []) (now : ℕ)
    (hafter : call.standing.after action = some call'.standing) (hnone : call.ending = none)
    (hending : call'.ending = action.closing?) : Accounts call' (r.act now action) := by
  have hok : Metrics.Accounted r.owner (Metrics.marks (r.done ++ r.pending)) := h.ok
  rw [← h.standing] at hafter
  obtain ⟨hstanding, hcloses⟩ := hok.act_standing now hafter
  have hact : r.act now action =
      { r with owner := (r.owner.act now action).value
               pending := (r.owner.act now action).events } := by
    rw [Metrics.Request.act, hpending]
  refine ⟨(Metrics.Request.Ok.act h.ok now action).1, ?_, fun c ↦ ?_⟩
  · rw [hact]
    exact hstanding
  · have hbefore := h.closes c
    rw [hpending, List.append_nil, hnone] at hbefore
    rw [hact, Metrics.closes_append, hcloses, hbefore, hending]
    exact Nat.zero_add _

end Accounts

namespace CallSystem

variable {k : LimitedClient} {s : CallSystem rt σ C A}

structure Ok (k : LimitedClient) (s : CallSystem rt σ C A) : Prop where
  permits : s.available + Shares.total (Call.permits k) s.calls = k.maxInFlight.getD 0
  calls : ∀ call ∈ s.calls, call.stage.Ok k
  accounts : List.Forall₂ Accounts s.calls s.metrics.requests
  metrics : ∃ ops, s.metrics = .run ops ∧ ops.countP Metrics.Op.isStart = s.calls.length

theorem ok_initial : Ok k (initial k : CallSystem rt σ C A) where
  permits := Nat.add_zero _
  calls _ hcall := by cases hcall
  accounts := .nil
  metrics := ⟨[], rfl, rfl⟩

theorem Ok.start (h : s.Ok k) (mode : ResponseMode) (input : RetryRequestInput σ) (now : ℕ) :
    (s.step k (.start mode input now)).Ok k := by
  obtain ⟨ops, hops, hstarts⟩ := h.metrics
  refine ⟨?_, ?_, ?_, ops ++ [.start now], ?_, ?_⟩
  · simpa [step, Call.permits] using h.permits
  · intro call hcall
    obtain hcall | hcall := List.mem_append.mp hcall
    · exact h.calls call hcall
    · rw [List.mem_singleton.mp hcall]
      trivial
  · exact List.rel_append h.accounts (.cons (accounts_start mode input now) .nil)
  · rw [Metrics.System.run_concat, ← hops]
    rfl
  · rw [List.countP_append, hstarts, step, List.length_append]
    rfl

theorem Ok.account (h : s.Ok k) (index : ℕ) : (s.step k (.account index)).Ok k := by
  obtain ⟨ops, hops, hstarts⟩ := h.metrics
  refine ⟨h.permits, h.calls, ?_, ops ++ [.advance index], ?_, ?_⟩
  · simp only [step, Metrics.System.step]
    split
    · exact h.accounts
    next r hr =>
      split
      · exact h.accounts
      next u rest hpending =>
        obtain ⟨call, hcall⟩ : ∃ call, s.calls[index]? = some call := by
          refine ⟨_, List.getElem?_eq_getElem ?_⟩
          rw [h.accounts.length_eq]
          exact (List.getElem?_eq_some_iff.mp hr).1
        exact Pairs.set_right h.accounts hcall ((Pairs.of_getElem? h.accounts hcall hr).advance
          hpending)
  · rw [Metrics.System.run_concat, ← hops]
    rfl
  · rw [List.countP_append, hstarts]
    rfl

theorem Ok.move (h : s.Ok k) (index now : ℕ) (m : CallMove rt C A) :
    (s.step k (.move index now m)).Ok k := by
  obtain ⟨ops, hops, hstarts⟩ := h.metrics
  simp only [step, CallSystem.move]
  split
  next call r hcall hr =>
    obtain ⟨hok, hconserves, htold⟩ := Call.moved_move (h.calls call (List.mem_of_getElem? hcall)) m
    have haccounts := Pairs.of_getElem? h.accounts hcall hr
    generalize call.move k m = step at hok hconserves htold
    obtain ⟨call', actions⟩ := step
    dsimp only at hok hconserves htold ⊢
    split
    next available hpending hleft =>
      have hleft := hconserves s.available available hleft
      have htotal := Shares.total_set (Call.permits k) hcall call'
      have hpermits := h.permits
      have hcalls : ∀ call ∈ s.calls.set index call', call.stage.Ok k := by
        intro call₁ hcall₁
        obtain hmem | rfl := List.mem_or_eq_of_mem_set hcall₁
        · exact h.calls call₁ hmem
        · exact hok
      refine ⟨?_, hcalls, ?_, ?_⟩
      · dsimp only
        omega
      · obtain ⟨rfl, hstanding, hending⟩ | ⟨action, rfl, hafter, hnone, hending⟩ := htold
        · refine Pairs.set_left h.accounts hr ⟨haccounts.ok, ?_, ?_⟩
          · rw [hstanding, haccounts.standing]
          · rw [hending]
            exact haccounts.closes
        · have hact := haccounts.act hpending now hafter hnone hending
          simp only [List.foldl_cons, List.foldl_nil, Metrics.System.step, hr]
          exact Pairs.set h.accounts index hact
      · refine ⟨ops ++ actions.map (.act index now), ?_, ?_⟩
        · rw [hops, Metrics.System.run, Metrics.System.run, List.foldl_append, List.foldl_map]
        · rw [List.countP_append, hstarts, List.length_set, List.countP_map,
            List.countP_eq_zero.mpr fun _ _ ↦ by simp [Metrics.Op.isStart]]
          rfl
    next => exact h
  next => exact h

theorem ok_run (ops : List (CallOp rt σ C A)) : Ok k (run k ops) := by
  induction ops using List.reverseRecOn with
  | nil => exact ok_initial
  | append_singleton ops op ih =>
    rw [run, List.foldl_append, ← run]
    cases op with
    | start mode input now => exact ih.start mode input now
    | move index now m => exact ih.move index now m
    | account index => exact ih.account index

end CallSystem

/-! ## What holds in every state -/

section Guarantees

variable {k : LimitedClient} {call : Call rt σ C A}

theorem Call.transports_le (h : call.stage.Ok k) (hlimited : k.maxInFlight.isSome = true) :
    call.transports ≤ call.permits k := by
  obtain ⟨mode, input, requestStartedAt, stage⟩ := call
  cases stage with
  | waiting | returning | ended => exact Nat.zero_le _
  | sending s => simp [transports, permits, hlimited]
  | streaming s =>
    cases hcompleted : s.lifecycle.completed with
    | true =>
      obtain ⟨-, hheld, -⟩ := StreamOk.closed h hcompleted
      simp [transports, hheld]
    | false =>
      obtain ⟨hpermit, -, -⟩ := StreamOk.opened h hcompleted
      simp only [transports, permits, hpermit, hlimited]
      cases Transport.held s.body <;> decide

/-- A call that has not ended waits or has a permit, and only one that is about to return has a
permit after its end. -/
theorem Call.standing_add (h : call.stage.Ok k) (hlimited : k.maxInFlight.isSome = true) :
    call.ending.isNone.toNat + call.isReturning.toNat =
      call.isWaiting.toNat + call.permits k := by
  obtain ⟨mode, input, requestStartedAt, stage⟩ := call
  cases stage with
  | waiting => rfl
  | sending s => simp [ending, isReturning, isWaiting, permits, hlimited]
  | returning result => simp [ending, isReturning, isWaiting, permits, hlimited]
  | ended result => rfl
  | streaming s =>
    cases hcompleted : s.lifecycle.completed with
    | true =>
      obtain ⟨hpermit, -, c, hc⟩ := StreamOk.closed h hcompleted
      simp only [ending, isReturning, isWaiting, permits, hpermit, hc]
      cases c <;> rfl
    | false =>
      obtain ⟨hpermit, -, hnone⟩ := StreamOk.opened h hcompleted
      simp only [ending, isReturning, isWaiting, permits, hpermit, hnone, hlimited]
      rfl

theorem Accounts.live_eq {r : Metrics.Request} (h : Accounts call r) (hok : call.stage.Ok k) :
    call.ending.isNone.toNat = r.owner.live := by
  have hlive : r.owner.live = if r.owner.standing = .closed then 0 else 1 := by
    cases r.owner with
    | pending p => rfl
    | stream completion =>
      cases hguard : completion.inFlightGuard.isSome <;>
        simp [Metrics.Owner.live, Metrics.Owner.standing, hguard]
    | gone => rfl
  rw [hlive, h.standing]
  obtain ⟨mode, input, requestStartedAt, stage⟩ := call
  cases stage with
  | waiting | sending | returning | ended => rfl
  | streaming s =>
    cases hcompleted : s.lifecycle.completed with
    | true =>
      obtain ⟨-, -, c, hc⟩ := StreamOk.closed hok hcompleted
      simp only [Call.ending, Call.standing, hcompleted, hc]
      cases c <;> rfl
    | false =>
      obtain ⟨-, -, hnone⟩ := StreamOk.opened hok hcompleted
      simp only [Call.ending, Call.standing, hcompleted, hnone]
      rfl

/-- What a snapshot of the metrics shows of the calls, when none of them has an update left. -/
structure ShowsCalls (k : LimitedClient) (s : CallSystem rt σ C A) (m : Metrics.RequestMetrics) :
    Prop where
  started : m.started = s.calls.length
  succeeded : m.succeeded = s.calls.countP fun call ↦ call.ending = some .succeeded
  failed : m.failed = s.calls.countP fun call ↦ call.ending = some .failed
  canceled : m.canceled = s.calls.countP fun call ↦ call.ending = some .canceled
  inFlight : m.inFlight = s.calls.countP fun call ↦ call.ending.isNone
  permits : ∀ limit ∈ k.maxInFlight,
    m.inFlight + s.calls.countP Call.isReturning =
      s.calls.countP Call.isWaiting + (limit - s.available)

namespace CallSystem

variable {s : CallSystem rt σ C A}

theorem Ok.counter_eq (h : s.Ok k) (hquiet : s.metrics.Quiet) (hfits : s.calls.length ≤ usizeMax)
    (c : Metrics.Closing) :
    s.metrics.inner.counter c.counter = s.calls.countP fun call ↦ call.ending = some c := by
  obtain ⟨ops, hops, hstarts⟩ := h.metrics
  have hmetrics : s.metrics.Ok := hops ▸ Metrics.System.ok_run (hstarts ▸ hfits)
  have hshown := hmetrics.shows.counter c.counter (by cases c <;> decide) (by cases c <;> decide)
  rw [hshown, Shares.countP_eq_total]
  refine (Pairs.total_eq h.accounts fun call _ r hr haccounts ↦ ?_).symm
  have hcloses := haccounts.closes c
  rw [hquiet r hr, List.append_nil] at hcloses
  rw [← Metrics.closes, hcloses, Metrics.oneIf]
  by_cases hending : call.ending = some c <;> simp [hending]

theorem Ok.live_eq (h : s.Ok k) :
    s.metrics.live = s.calls.countP fun call ↦ call.ending.isNone := by
  rw [Shares.countP_eq_total, Metrics.System.live]
  refine (Pairs.total_eq h.accounts fun call hcall r _ haccounts ↦ ?_).symm
  exact haccounts.live_eq (h.calls call hcall)

theorem length_eq (calls : List (Call rt σ C A)) :
    calls.length = calls.countP (fun call ↦ call.ending = some .succeeded) +
      calls.countP (fun call ↦ call.ending = some .failed) +
      calls.countP (fun call ↦ call.ending = some .canceled) +
      calls.countP fun call ↦ call.ending.isNone := by
  induction calls with
  | nil => rfl
  | cons call calls ih =>
    simp only [List.length_cons, List.countP_cons, ih]
    rcases call.ending with _ | _ | _ | _ <;> simp <;> omega

theorem Ok.showsCalls (h : s.Ok k) (hquiet : s.metrics.Quiet) (hfits : s.calls.length ≤ usizeMax) :
    ShowsCalls k s s.metrics.inner.snapshot.requests := by
  obtain ⟨ops, hops, hstarts⟩ := h.metrics
  have hmetrics : s.metrics.Ok := hops ▸ Metrics.System.ok_run (hstarts ▸ hfits)
  have hledger := hmetrics.shows.ledger (hmetrics.balanced hquiet)
  have hsucceeded := h.counter_eq hquiet hfits .succeeded
  have hfailed := h.counter_eq hquiet hfits .failed
  have hcanceled := h.counter_eq hquiet hfits .canceled
  have hinFlight := hledger.inFlight.trans h.live_eq
  refine ⟨?_, hsucceeded, hfailed, hcanceled, hinFlight, fun limit hlimit ↦ ?_⟩
  · -- Every call has ended in one of three ways, or not yet.
    rw [length_eq, ← hsucceeded, ← hfailed, ← hcanceled, ← h.live_eq]
    exact hledger.started
  · have hlimited : k.maxInFlight.isSome = true := by rw [Option.mem_def.mp hlimit]; rfl
    have hpermits := h.permits
    rw [Option.mem_def.mp hlimit, Option.getD_some] at hpermits
    have htotal := Shares.total_congr fun call hcall ↦
      Call.standing_add (h.calls call hcall) hlimited
    rw [Shares.total_add, Shares.total_add, ← Shares.countP_eq_total, ← Shares.countP_eq_total,
      ← Shares.countP_eq_total] at htotal
    omega

end CallSystem

/-- In whatever order calls are made, granted permits, carried on, dropped and read from: the
permits of a client are all accounted for, and as many transports are in use at most. A call
answers in its own mode. Once all calls have ended the permits are back. Whenever no update of
the metrics is under way, they show every call once, by how it has ended, or in flight. -/
theorem calls_accounted (k : LimitedClient) (ops : List (CallOp rt σ C A)) :
    let s := CallSystem.run k ops
    (∀ limit ∈ k.maxInFlight,
      s.available + Shares.total (Call.permits k) s.calls = limit ∧
        Shares.total Call.transports s.calls ≤ limit ∧
        ((∀ call ∈ s.calls, call.ending.isSome = true ∧ call.isReturning = false) →
          s.available = limit)) ∧
    (∀ call ∈ s.calls, call.isMismatch = false) ∧
    (s.metrics.Quiet → s.calls.length ≤ usizeMax →
      ShowsCalls k s s.metrics.inner.snapshot.requests) := by
  intro s
  have hok : s.Ok k := CallSystem.ok_run ops
  refine ⟨fun limit hlimit ↦ ?_, fun call hcall ↦ ?_, hok.showsCalls⟩
  · have hlimited : k.maxInFlight.isSome = true := by rw [Option.mem_def.mp hlimit]; rfl
    have hpermits := hok.permits
    rw [Option.mem_def.mp hlimit, Option.getD_some] at hpermits
    have htransports : Shares.total Call.transports s.calls ≤
        Shares.total (Call.permits k) s.calls :=
      Shares.total_le_total fun call hcall ↦ Call.transports_le (hok.calls call hcall) hlimited
    refine ⟨hpermits, by omega, fun hended ↦ ?_⟩
    have hnone : Shares.total (Call.permits k) s.calls = 0 := by
      rw [Shares.total, List.sum_eq_zero_iff]
      intro n hn
      obtain ⟨call, hcall, rfl⟩ := List.mem_map.mp hn
      obtain ⟨hending, hreturning⟩ := hended call hcall
      have hstanding := Call.standing_add (hok.calls call hcall) hlimited
      rw [hreturning, Option.isNone_eq_false_iff.mpr hending] at hstanding
      simp at hstanding
      omega
    omega
  · have hstage := hok.calls call hcall
    obtain ⟨mode, input, requestStartedAt, stage⟩ := call
    cases stage with
    | waiting | sending | streaming => rfl
    | returning | ended => exact hstage

end Guarantees

namespace Sample

def oneAtATime : LimitedClient where
  client := { client with requestLimiters := true }
  maxInFlight := some 1
  streamDeadlineSlack := 0
  limiters _ := rfl

def quietWorld : Stream.World (StreamResilienceHooks ℕ Unit) Metrics.StreamCompletion where
  now _ := 0
  timerElapsed _ := false
  abandons _ := false
  writer _ := .done
  taken _ := 0

def answered (k : ℕ) : CallMove .async ℕ Unit :=
  .turn (turn k (.response ok .empty)) ⟨[.data [1, 2], .data [3]], false⟩

def accounts (index : ℕ) : List (CallOp .async Unit ℕ Unit) := List.replicate 9 (.account index)

/-- A stream that is read from and dropped, a call that waits for its permit, and one that comes
after both. -/
def mixedCalls : List (CallOp .async Unit ℕ Unit) :=
  [.start .stream (call .get .default).input 0, .start .buffered (call .get .default).input 0] ++
    accounts 0 ++ accounts 1 ++
    [.move 0 1 (.acquire {}), .move 1 1 (.acquire {}), .move 0 2 (answered 1)] ++ accounts 0 ++
    [.move 0 3 (.read quietWorld 2), .move 1 3 (.acquire {}), .move 0 4 .drop] ++ accounts 0 ++
    [.move 1 5 (.acquire {}), .move 1 6 (answered 2)] ++ accounts 1 ++
    [.move 1 7 .finish, .start .stream (call .get .default).input 8] ++ accounts 2

end Sample

theorem calls_accounted_mixed :
    let s := CallSystem.run Sample.oneAtATime Sample.mixedCalls
    s.calls.map Call.ending = [some .canceled, some .succeeded, none] ∧ s.available = 1 ∧
      ShowsCalls Sample.oneAtATime s s.metrics.inner.snapshot.requests := by
  obtain ⟨-, -, hshows⟩ := calls_accounted Sample.oneAtATime Sample.mixedCalls
  exact ⟨by decide +kernel, by decide +kernel, hshows (by decide +kernel) (by decide +kernel)⟩

end Reqx.Driver
