import Mathlib.Data.List.Basic
import Reqx.Stream.Body

/-!
# What an operation can do

An operation on a stream talks to the outside and so makes the log longer.
`Moves` is what every such stretch keeps; `Ran` adds how the operation ended.
The rules for `Ran` follow the shape of the operations, so that a property of
a whole one comes from what its log says.
-/

namespace Reqx.Stream

variable {T H M α β : Type}

/-! ## Reading a log -/

def FramePoll.bytes : FramePoll → Bytes
  | .data bytes => bytes
  | _ => []

namespace Event

def received : Event H M → Bytes
  | .polled (some frame) => frame.bytes
  | .read (.ok bytes) => bytes
  | _ => []

def written : Event H M → Bytes
  | .wrote bytes _ => bytes
  | _ => []

/-- The answer ends the operation without a value. -/
def fails : Event H M → Bool
  | .checked deadlineAt now => deadlineElapsed deadlineAt now
  | .polled (some (.failed _)) => true
  | .timer elapsed => elapsed
  | .suspended abandoned => abandoned
  | .read (.error error) => error.kind ≠ .interrupted
  | .wrote _ answer => answer ≠ .done
  | .flushed answer => answer ≠ .done
  | _ => false

def isTransport : Event H M → Bool
  | .polled _ => true
  | .read _ => true
  | _ => false

/-- The transport reports the end of the body. -/
def isEnd : Event H M → Bool
  | .polled none => true
  | .read (.ok []) => true
  | _ => false

def isRecord : Event H M → Bool
  | .hooks .. => true
  | .metrics .. => true
  | _ => false

end Event

section Logs

variable (es es' : List (Event H M))

def received : Bytes := es.flatMap Event.received

def written : Bytes := es.flatMap Event.written

def Calm : Prop := ∀ e ∈ es, e.fails = false

def EndReported : Prop := ∃ e ∈ es, e.isEnd

instance : Decidable (Calm es) := inferInstanceAs (Decidable (∀ e ∈ es, e.fails = false))

instance : Decidable (EndReported es) := inferInstanceAs (Decidable (∃ e ∈ es, e.isEnd))

/-- Nothing is read and nothing is written. -/
def Idle : Prop := received es = [] ∧ written es = []

@[simp] theorem received_append : received (es ++ es') = received es ++ received es' :=
  List.flatMap_append

@[simp] theorem written_append : written (es ++ es') = written es ++ written es' :=
  List.flatMap_append

@[simp] theorem received_nil : received ([] : List (Event H M)) = [] := rfl

@[simp] theorem written_nil : written ([] : List (Event H M)) = [] := rfl

@[simp] theorem received_cons (e : Event H M) : received (e :: es) = e.received ++ received es :=
  List.flatMap_cons

@[simp] theorem written_cons (e : Event H M) : written (e :: es) = e.written ++ written es :=
  List.flatMap_cons

theorem received_singleton (e : Event H M) : received [e] = e.received :=
  List.flatMap_singleton _ _

theorem written_singleton (e : Event H M) : written [e] = e.written :=
  List.flatMap_singleton _ _

variable {es es'}

@[simp] theorem calm_append : Calm (es ++ es') ↔ Calm es ∧ Calm es' := List.forall_mem_append

@[simp] theorem calm_nil : Calm ([] : List (Event H M)) := List.forall_mem_nil _

@[simp] theorem calm_cons {e : Event H M} : Calm (e :: es) ↔ e.fails = false ∧ Calm es :=
  List.forall_mem_cons

theorem calm_singleton {e : Event H M} : Calm [e] ↔ e.fails = false :=
  List.forall_mem_singleton

theorem EndReported.append_left (h : EndReported es') : EndReported (es ++ es') := by
  obtain ⟨e, hmem, hend⟩ := h
  exact ⟨e, List.mem_append_right es hmem, hend⟩

theorem EndReported.append_right (h : EndReported es) : EndReported (es ++ es') := by
  obtain ⟨e, hmem, hend⟩ := h
  exact ⟨e, List.mem_append_left es' hmem, hend⟩

theorem idle_nil : Idle ([] : List (Event H M)) := ⟨rfl, rfl⟩

theorem Idle.append (h : Idle es) (h' : Idle es') : Idle (es ++ es') := by
  simp [Idle, h.1, h.2, h'.1, h'.2]

end Logs

/-! ## Stretches of an operation -/

/-- From this log on the deadline stays ahead, no frame timer fires, no future is dropped
and the writer takes everything. -/
structure World.SmoothFrom (w : World H M) (log : List (Event H M)) (deadlineAt : Option ℕ) :
    Prop where
  now_lt : ∀ es deadline, deadlineAt = some deadline → w.now (log ++ es) < deadline
  timer : ∀ es, w.timerElapsed (log ++ es) = false
  stays : ∀ es, w.abandons (log ++ es) = false
  writer : ∀ es, w.writer (log ++ es) = .done

theorem World.SmoothFrom.append {w : World H M} {log : List (Event H M)} {deadlineAt : Option ℕ}
    (h : w.SmoothFrom log deadlineAt) (es : List (Event H M)) :
    w.SmoothFrom (log ++ es) deadlineAt where
  now_lt es' := by simpa only [List.append_assoc] using h.now_lt (es ++ es')
  timer es' := by simpa only [List.append_assoc] using h.timer (es ++ es')
  stays es' := by simpa only [List.append_assoc] using h.stays (es ++ es')
  writer es' := by simpa only [List.append_assoc] using h.writer (es ++ es')

/-- The stream with another transport and a longer log. -/
def ResponseStream.moved (s : ResponseStream T H M) (body : T) (es : List (Event H M)) :
    ResponseStream T H M :=
  { s with body, log := s.log ++ es }

section Moves

variable [Transport T]

structure Moves (w : World H M) (s : ResponseStream T H M) (es : List (Event H M))
    (s' : ResponseStream T H M) : Prop where
  eq : s' = s.moved s'.body es
  held : Transport.held s'.body = Transport.held s.body
  rest : Transport.rest s.body = received es ++ Transport.rest s'.body
  untouched : Transport.held s.body = false →
    s'.body = s.body ∧ ∀ e ∈ es, e.isTransport = false
  unrecorded : ∀ e ∈ es, e.isRecord = false
  smooth : w.SmoothFrom s.log s.timing.deadlineAt → Transport.Faultless s.body →
    Calm es ∧ Transport.Faultless s'.body

variable {w : World H M} {s s' s'' : ResponseStream T H M} {es es' : List (Event H M)}

namespace Moves

theorem refl (w : World H M) (s : ResponseStream T H M) : Moves w s [] s where
  eq := by simp [ResponseStream.moved]
  held := rfl
  rest := rfl
  untouched _ := ⟨rfl, List.forall_mem_nil _⟩
  unrecorded := List.forall_mem_nil _
  smooth _ hbody := ⟨calm_nil, hbody⟩

theorem log_eq (h : Moves w s es s') : s'.log = s.log ++ es := by
  rw [h.eq]
  rfl

theorem timing_eq (h : Moves w s es s') : s'.timing = s.timing := by
  rw [h.eq]
  rfl

theorem lifecycle_eq (h : Moves w s es s') : s'.lifecycle = s.lifecycle := by
  rw [h.eq]
  rfl

theorem trans (h : Moves w s es s') (h' : Moves w s' es' s'') : Moves w s (es ++ es') s'' where
  eq := by
    rw [h'.eq, h.eq]
    simp [ResponseStream.moved]
  held := h'.held.trans h.held
  rest := by rw [h.rest, h'.rest, received_append, List.append_assoc]
  untouched hheld := by
    obtain ⟨hbody, hes⟩ := h.untouched hheld
    obtain ⟨hbody', hes'⟩ := h'.untouched (h.held.trans hheld)
    exact ⟨hbody'.trans hbody, List.forall_mem_append.mpr ⟨hes, hes'⟩⟩
  unrecorded := List.forall_mem_append.mpr ⟨h.unrecorded, h'.unrecorded⟩
  smooth hw hbody := by
    obtain ⟨hcalm, hbody'⟩ := h.smooth hw hbody
    have hw' : w.SmoothFrom s'.log s'.timing.deadlineAt := by
      rw [h.log_eq, h.timing_eq]
      exact hw.append es
    obtain ⟨hcalm', hbody''⟩ := h'.smooth hw' hbody'
    exact ⟨calm_append.mpr ⟨hcalm, hcalm'⟩, hbody''⟩

/-- An answer that is not about the transport. -/
theorem tell {e : Event H M} (htransport : e.isTransport = false) (hrecord : e.isRecord = false)
    (hreceived : e.received = [])
    (hsmooth : w.SmoothFrom s.log s.timing.deadlineAt → e.fails = false) :
    Moves w s [e] (s.tell [e]) where
  eq := rfl
  held := rfl
  rest := by simp [ResponseStream.tell, hreceived]
  untouched _ := ⟨rfl, List.forall_mem_singleton.mpr htransport⟩
  unrecorded := List.forall_mem_singleton.mpr hrecord
  smooth hw hbody := ⟨calm_singleton.mpr (hsmooth hw), hbody⟩

end Moves

/-! ## How an operation ends -/

/-- An operation that started in `s` ended like this. `ok` and `stopped` say what its part
of the log has to do with its result; a failure may have completed the stream. -/
inductive Ran (w : World H M) (s : ResponseStream T H M)
    (ok : List (Event H M) → α → ResponseStream T H M → Prop)
    (stopped : List (Event H M) → Stop → Prop) : StreamAttempt T H M α → Prop
  | ok {es : List (Event H M)} {a : α} {s' : ResponseStream T H M} (hmoves : Moves w s es s')
      (hcalm : Calm es) (hok : ok es a s') : Ran w s ok stopped (.ok a, s')
  | stopped {es : List (Event H M)} {stop : Stop} {s' : ResponseStream T H M}
      (hmoves : Moves w s es s') (hstopped : stopped es stop) :
      Ran w s ok stopped (.error stop, s')
  | completed {es : List (Event H M)} {error : Error} {s' : ResponseStream T H M}
      (hmoves : Moves w s es s') (hstopped : stopped es (.failed error)) :
      Ran w s ok stopped (.error (.failed error), s'.completeError error)

theorem ResponseStream.complete_complete (s : ResponseStream T H M) (c c' : Completion) :
    (s.complete c).complete c' = s.complete c := by
  by_cases hcompleted : s.lifecycle.completed <;>
    simp [complete, releaseTransport, StreamLifecycle.complete, hcompleted, Bind.bind, Pure.pure]

theorem completeOnError_completeOnError (x : StreamAttempt T H M α) :
    completeOnError (completeOnError x) = completeOnError x := by
  rcases x with ⟨(error | _) | a, s⟩
  · exact congrArg (Prod.mk _) (s.complete_complete (.error error) (.error error))
  · rfl
  · rfl

theorem completeOnError_andThen {x : StreamAttempt T H M α}
    {f : α → ResponseStream T H M → StreamAttempt T H M β}
    (hx : completeOnError x = x) (hf : ∀ a s, completeOnError (f a s) = f a s) :
    completeOnError (x.andThen f) = x.andThen f := by
  rcases x with ⟨(error | _) | a, s⟩
  · exact Prod.ext rfl (congrArg Prod.snd hx :)
  · rfl
  · exact hf a s

namespace Ran

variable {ok : List (Event H M) → α → ResponseStream T H M → Prop}
  {stopped : List (Event H M) → Stop → Prop} {x : StreamAttempt T H M α}

theorem mono {ok' : List (Event H M) → α → ResponseStream T H M → Prop}
    {stopped' : List (Event H M) → Stop → Prop} (h : Ran w s ok stopped x)
    (hok : ∀ es a s', Moves w s es s' → Calm es → ok es a s' → ok' es a s')
    (hstopped : ∀ es stop, stopped es stop → stopped' es stop) : Ran w s ok' stopped' x := by
  cases h with
  | ok hmoves hcalm hpost => exact .ok hmoves hcalm (hok _ _ _ hmoves hcalm hpost)
  | stopped hmoves hpost => exact .stopped hmoves (hstopped _ _ hpost)
  | completed hmoves hpost => exact .completed hmoves (hstopped _ _ hpost)

theorem of_stopped {stop : Stop}
    {ok' : List (Event H M) → β → ResponseStream T H M → Prop}
    (h : Ran w s ok stopped (.error stop, s')) : Ran w s ok' stopped (.error stop, s') := by
  cases h with
  | stopped hmoves hpost => exact .stopped hmoves hpost
  | completed hmoves hpost => exact .completed hmoves hpost

/-- A stretch before an operation belongs to its part of the log. -/
theorem after {es : List (Event H M)}
    (h : Ran w s' (fun es' ↦ ok (es ++ es')) (fun es' ↦ stopped (es ++ es')) x)
    (hmoves : Moves w s es s') (hcalm : Calm es) : Ran w s ok stopped x := by
  cases h with
  | ok hmoves' hcalm' hpost =>
    exact .ok (hmoves.trans hmoves') (calm_append.mpr ⟨hcalm, hcalm'⟩) hpost
  | stopped hmoves' hpost => exact .stopped (hmoves.trans hmoves') hpost
  | completed hmoves' hpost => exact .completed (hmoves.trans hmoves') hpost

theorem andThen {ok' : List (Event H M) → β → ResponseStream T H M → Prop}
    {stopped' : List (Event H M) → Stop → Prop}
    {f : α → ResponseStream T H M → StreamAttempt T H M β}
    (h : Ran w s ok stopped x) (hstopped : ∀ es stop, stopped es stop → stopped' es stop)
    (hf : ∀ es a s', Moves w s es s' → ok es a s' →
      Ran w s' (fun es' ↦ ok' (es ++ es')) (fun es' ↦ stopped' (es ++ es')) (f a s')) :
    Ran w s ok' stopped' (x.andThen f) := by
  cases h with
  | ok hmoves hcalm hpost => exact (hf _ _ _ hmoves hpost).after hmoves hcalm
  | stopped hmoves hpost => exact .stopped hmoves (hstopped _ _ hpost)
  | completed hmoves hpost => exact .completed hmoves (hstopped _ _ hpost)

theorem completeOnError (h : Ran w s ok stopped x) : Ran w s ok stopped (completeOnError x) := by
  cases h with
  | ok hmoves hcalm hpost => exact .ok hmoves hcalm hpost
  | @stopped es stop s' hmoves hpost =>
    cases stop with
    | failed error => exact .completed hmoves hpost
    | abandoned => exact .stopped hmoves hpost
  | @completed es error s' hmoves hpost =>
    have hagain := completeOnError_completeOnError (α := α) (.error (.failed error), s')
    rw [Stream.completeOnError] at hagain
    rw [hagain]
    exact .completed hmoves hpost

/-- An operation that completes the stream on every failure. -/
theorem settled (h : Ran w s ok stopped x) (hx : Stream.completeOnError x = x) :
    (∃ es a s', Moves w s es s' ∧ Calm es ∧ ok es a s' ∧ x = (.ok a, s')) ∨
      (∃ es error s', Moves w s es s' ∧ stopped es (.failed error) ∧
        x = (.error (.failed error), s'.completeError error)) ∨
      ∃ es s', Moves w s es s' ∧ stopped es .abandoned ∧ x = (.error .abandoned, s') := by
  cases h with
  | ok hmoves hcalm hpost => exact .inl ⟨_, _, _, hmoves, hcalm, hpost, rfl⟩
  | completed hmoves hpost => exact .inr (.inl ⟨_, _, _, hmoves, hpost, rfl⟩)
  | @stopped es stop s' hmoves hpost =>
    cases stop with
    | failed error => exact .inr (.inl ⟨_, _, _, hmoves, hpost, hx.symm⟩)
    | abandoned => exact .inr (.inr ⟨_, _, hmoves, hpost, rfl⟩)

theorem of_eq {y : StreamAttempt T H M α} (h : Ran w s ok stopped x)
    (hx : x = y) : Ran w s ok stopped y :=
  hx ▸ h

theorem of_ok {a : α} (h : Ran w s ok stopped (.ok a, s')) :
    ∃ es, Moves w s es s' ∧ Calm es ∧ ok es a s' := by
  cases h with
  | ok hmoves hcalm hpost => exact ⟨_, hmoves, hcalm, hpost⟩

end Ran

/-- What asking the transport for a chunk leaves in the log: the chunk, or the end. -/
def Yields (s : ResponseStream T H M) (es : List (Event H M)) (result : Option Bytes)
    (s' : ResponseStream T H M) : Prop :=
  written es = [] ∧ Transport.buffered s'.body = Transport.buffered s.body ∧
    match result with
    | some chunk => received es = chunk ∧ chunk ≠ []
    | none =>
      received es = [] ∧ Transport.rest s'.body = [] ∧
        (Transport.held s.body → EndReported es)

/-- The transport gave no bytes yet. -/
def Waits (s : ResponseStream T H M) (es : List (Event H M)) (s' : ResponseStream T H M) : Prop :=
  Idle es ∧ Transport.buffered s'.body = Transport.buffered s.body

/-- The outside gave an answer that ends the operation. -/
def Broke (es : List (Event H M)) : Prop := written es = [] ∧ ¬Calm es

def Broken (es : List (Event H M)) (stop : Stop) : Prop := Broke es ∧ stop ≠ .abandoned

/-- A look at the deadline found it elapsed. -/
def Expired (es : List (Event H M)) (stop : Stop) : Prop :=
  Idle es ∧ ¬Calm es ∧ stop ≠ .abandoned

theorem Expired.broken {stop : Stop} (h : Expired es stop) : Broken es stop :=
  ⟨⟨h.1.2, h.2.1⟩, h.2.2⟩

theorem Waits.trans (h : Waits s es s') (h' : Waits s' es' s'') : Waits s (es ++ es') s'' :=
  ⟨h.1.append h'.1, h'.2.trans h.2⟩

theorem Waits.yields {result : Option Bytes} (h : Waits s es s') (hmoves : Moves w s es s')
    (h' : Yields s' es' result s'') : Yields s (es ++ es') result s'' := by
  obtain ⟨⟨hreceived, hwritten⟩, hbuffered⟩ := h
  obtain ⟨hwritten', hbuffered', hresult⟩ := h'
  refine ⟨by simp [hwritten, hwritten'], hbuffered'.trans hbuffered, ?_⟩
  cases result with
  | some chunk => exact ⟨by simp [hreceived, hresult.1], hresult.2⟩
  | none =>
    obtain ⟨hreceived', hrest, hend⟩ := hresult
    refine ⟨by simp [hreceived, hreceived'], hrest, fun hheld ↦ ?_⟩
    exact (hend (hmoves.held.trans hheld)).append_left

theorem Broke.append_left (h' : Broke es') (h : Idle es) : Broke (es ++ es') :=
  ⟨by simp [h.2, h'.1], fun hcalm ↦ h'.2 (calm_append.mp hcalm).2⟩

theorem Broken.append_left {stop : Stop} (h' : Broken es' stop) (h : Idle es) :
    Broken (es ++ es') stop :=
  ⟨h'.1.append_left h, h'.2⟩

/-- How a read ends: with bytes or none yet, at the end of the stream, or with an error. -/
inductive ReadRan (w : World H M) (s : ResponseStream T H M) :
    StreamAttempt T H M (Poll Bytes) → Prop
  | pending {es : List (Event H M)} {s' : ResponseStream T H M} (hmoves : Moves w s es s')
      (hcalm : Calm es) (hwaits : Waits s es s') : ReadRan w s (.ok .pending, s')
  | delivered {es : List (Event H M)} {s' : ResponseStream T H M} {bytes : Bytes}
      (hmoves : Moves w s es s') (hcalm : Calm es) (hwritten : written es = [])
      (hbytes : Transport.buffered s.body ++ received es = bytes ++ Transport.buffered s'.body) :
      ReadRan w s (.ok (.ready bytes), s')
  | ended {es : List (Event H M)} {s' : ResponseStream T H M} (hmoves : Moves w s es s')
      (hcalm : Calm es) (hyields : Yields s es none s')
      (hbuffered : Transport.buffered s.body = []) :
      ReadRan w s (.ok (.ready []), s'.completeSuccess)
  | failed {es : List (Event H M)} {s' : ResponseStream T H M} {error : Error}
      (hmoves : Moves w s es s') (hbroke : Broke es) :
      ReadRan w s (.error (.failed error), s'.completeError error)

/-- A read that fails completes the stream. -/
theorem Ran.readRan {ok : List (Event H M) → α → ResponseStream T H M → Prop} {stop : Stop}
    (h : Ran w s ok Broken (.error stop, s')) :
    ReadRan w s (Stream.completeOnError (.error stop, s')) := by
  have hran : Ran w s (fun _ (_ : Poll Bytes) _ ↦ False) Broken (.error stop, s') :=
    h.of_stopped
  obtain ⟨_, _, _, -, -, hfalse, -⟩ | ⟨es, error, s'', hmoves, hbroken, hresult⟩ |
      ⟨_, _, -, hbroken, -⟩ := hran.completeOnError.settled (completeOnError_completeOnError _)
  · exact hfalse.elim
  · rw [hresult]
    exact .failed hmoves hbroken.1
  · exact absurd rfl hbroken.2

/-- The transport is at work, or nothing is left of it. -/
def Tidy (s : ResponseStream T H M) : Prop :=
  Transport.held s.body = false → s.body = Transport.released

theorem Moves.tidy (h : Moves w s es s') (hs : Tidy s) : Tidy s' := by
  intro hheld
  have hheld' := h.held.symm.trans hheld
  rw [(h.untouched hheld').1]
  exact hs hheld'

/-! ## Deadlines and writes -/

theorem ran_ensureWithinDeadline (w : World H M) (s : ResponseStream T H M) :
    Ran w s (fun es _ s' ↦ Idle es ∧ s'.body = s.body) Expired (s.ensureWithinDeadline w) := by
  unfold ResponseStream.ensureWithinDeadline
  split
  · exact .ok (.refl w s) calm_nil ⟨idle_nil, rfl⟩
  · next deadlineAt hdeadline =>
    have hmoves : Moves w s [.checked deadlineAt (w.now s.log)]
        (s.tell [.checked deadlineAt (w.now s.log)]) := by
      refine .tell rfl rfl rfl fun hw ↦ ?_
      have hlt := hw.now_lt [] deadlineAt hdeadline
      rw [List.append_nil] at hlt
      simpa [Event.fails, deadlineElapsed] using hlt
    dsimp only
    split
    · next helapsed =>
      exact .stopped hmoves ⟨⟨rfl, rfl⟩, by simpa [Event.fails] using helapsed, nofun⟩
    · next helapsed => exact .ok hmoves (by simpa [Event.fails] using helapsed) ⟨⟨rfl, rfl⟩, rfl⟩

def Operation.bytes : Operation → Bytes
  | .writeAll chunk => chunk
  | .flush => []

namespace Operation

variable (op : Operation) (answer : WriterAnswer) (taken : ℕ)

theorem received_event : (op.event answer taken : Event H M).received = [] := by
  cases op <;> rfl

theorem written_event_done : (op.event .done taken : Event H M).written = op.bytes := by
  cases op <;> rfl

theorem written_event_isPrefix : (op.event answer taken : Event H M).written <+: op.bytes := by
  cases op with
  | flush => exact List.prefix_rfl
  | writeAll chunk =>
    rw [event]
    dsimp only [Event.written, bytes]
    split
    · exact List.prefix_rfl
    · exact List.take_prefix _ _

theorem fails_event : (op.event answer taken : Event H M).fails = false ↔ answer = .done := by
  cases op <;> simp [event, Event.fails]

theorem moves_tell (w : World H M) (s : ResponseStream T H M)
    (h : w.SmoothFrom s.log s.timing.deadlineAt → answer = .done) :
    Moves w s [op.event answer taken] (s.tell [op.event answer taken]) := by
  refine .tell ?_ ?_ (op.received_event answer taken) fun hw ↦
    (op.fails_event answer taken).mpr (h hw)
  · cases op <;> rfl
  · cases op <;> rfl

end Operation

theorem settledAnswer_done (rt : Driver.Runtime) (deadlineAt : Option ℕ) :
    settledAnswer rt deadlineAt .done = .done := by
  cases rt <;> cases deadlineAt <;> rfl

/-- What a write or a flush leaves in the log when it succeeds, and when it does not. -/
def Performed (op : Operation) (es : List (Event H M)) : Prop :=
  received es = [] ∧ written es = op.bytes ∧ (op = .flush → .flushed .done ∈ es)

def Refused (op : Operation) (es : List (Event H M)) : Prop :=
  received es = [] ∧ written es <+: op.bytes ∧ ¬Calm es

theorem ran_perform (rt : Driver.Runtime) (w : World H M) (s : ResponseStream T H M)
    (op : Operation) :
    Ran w s (fun es _ s' ↦ Performed op es ∧ s'.body = s.body) (fun es _ ↦ Refused op es)
      (s.perform rt w op) := by
  have hsmooth : w.SmoothFrom s.log s.timing.deadlineAt →
      settledAnswer rt s.timing.deadlineAt (w.writer s.log) = .done := by
    intro hw
    have hdone := hw.writer []
    rw [List.append_nil] at hdone
    rw [hdone, settledAnswer_done]
  unfold ResponseStream.perform
  generalize settledAnswer rt s.timing.deadlineAt (w.writer s.log) = answer at hsmooth ⊢
  have hmoves := op.moves_tell answer (w.taken s.log) w s hsmooth
  have hrefused : answer ≠ .done →
      Refused op [(op.event answer (w.taken s.log) : Event H M)] := by
    intro hanswer
    refine ⟨?_, ?_, ?_⟩
    · rw [received_singleton, Operation.received_event]
    · rw [written_singleton]
      exact op.written_event_isPrefix answer _
    · rw [calm_singleton, Operation.fails_event]
      exact hanswer
  cases answer with
  | done =>
    refine .ok hmoves (calm_singleton.mpr ((op.fails_event _ _).mpr rfl)) ⟨⟨?_, ?_, ?_⟩, rfl⟩
    · rw [received_singleton, Operation.received_event]
    · rw [written_singleton, Operation.written_event_done]
    · rintro rfl
      exact List.mem_singleton_self _
  | failed source => exact .stopped hmoves (hrefused nofun)
  | elapsed => exact .stopped hmoves (hrefused nofun)
  | abandoned => exact .stopped hmoves (hrefused nofun)

theorem ran_writeWithDeadline (rt : Driver.Runtime) (w : World H M) (s : ResponseStream T H M)
    (op : Operation) :
    Ran w s (fun es _ s' ↦ Performed op es ∧ s'.body = s.body) (fun es _ ↦ Refused op es)
      (s.writeWithDeadline rt w op) := by
  have hexpired : ∀ (es : List (Event H M)) stop, Expired es stop → Refused op es := by
    rintro es stop ⟨⟨hreceived, hwritten⟩, hcalm, -⟩
    exact ⟨hreceived, hwritten ▸ List.nil_prefix, hcalm⟩
  refine Ran.completeOnError ?_
  refine (ran_ensureWithinDeadline w s).andThen hexpired ?_
  rintro es - s₁ - ⟨⟨hreceived, hwritten⟩, hbody⟩
  refine (ran_perform rt w s₁ op).andThen ?_ ?_
  · rintro es₁ - ⟨hreceived₁, hwritten₁, hcalm₁⟩
    refine ⟨?_, ?_, fun hcalm ↦ hcalm₁ (calm_append.mp hcalm).2⟩
    · rw [received_append, hreceived, hreceived₁, List.append_nil]
    · rw [written_append, hwritten, List.nil_append]
      exact hwritten₁
  · rintro es₁ - s₂ - ⟨⟨hreceived₁, hwritten₁, hflush⟩, hbody₁⟩
    refine (ran_ensureWithinDeadline w s₂).mono ?_ ?_
    · rintro es₂ - s₃ - - ⟨⟨hreceived₂, hwritten₂⟩, hbody₂⟩
      refine ⟨⟨?_, ?_, fun hop ↦ ?_⟩, hbody₂.trans (hbody₁.trans hbody)⟩
      · simp [hreceived, hreceived₁, hreceived₂]
      · simp [hwritten, hwritten₁, hwritten₂]
      · simp [hflush hop]
    · rintro es₂ - ⟨⟨hreceived₂, hwritten₂⟩, hcalm₂, -⟩
      refine ⟨?_, ?_, fun hcalm ↦ hcalm₂ ?_⟩
      · simp [hreceived, hreceived₁, hreceived₂]
      · simp [hwritten, hwritten₁, hwritten₂]
      · exact (calm_append.mp (calm_append.mp hcalm).2).2

end Moves

end Reqx.Stream
