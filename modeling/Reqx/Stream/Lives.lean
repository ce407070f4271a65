import Reqx.Stream.Outcome

/-!
# The life of a stream

A caller reads from a stream as often as they like, may then hand it to a
helper, and drops it in the end. `Reading` follows the reads; `Phase` says
where that leaves the stream: still open, or completed once and for all.
-/

namespace Reqx.Stream

open Driver (Runtime)

variable {T H M : Type}

/-! ## The two stream types -/

def BodyOf : Runtime → Type
  | .async => StreamBody
  | .blocking => BlockingBody

instance instTransportBodyOf : (rt : Runtime) → Transport (BodyOf rt)
  | .async => StreamBody.instTransport
  | .blocking => BlockingBody.instTransport

/-- What the transport of a response will answer. -/
def SourceOf : Runtime → Type
  | .async => List FramePoll
  | .blocking => ScriptedReader UInt8 IoError

def BodyOf.new : (rt : Runtime) → SourceOf rt → BodyOf rt
  | .async, frames => StreamBody.new frames
  | .blocking, reader => BlockingBody.new reader

def read : (rt : Runtime) → World H M → ResponseStream (BodyOf rt) H M → ℕ →
    StreamAttempt (BodyOf rt) H M (Poll Bytes)
  | .async, w, s, capacity => Async.pollRead w s capacity
  | .blocking, w, s, capacity =>
    (Blocking.readChunk w s capacity).andThen fun bytes s ↦ (.ok (.ready bytes), s)

def consume : (rt : Runtime) → World H M → ResponseStream (BodyOf rt) H M → Codecs → Helper →
    StreamAttempt (BodyOf rt) H M Output
  | .async => Async.consume
  | .blocking => Blocking.consume

def readAll (rt : Runtime) (w : World H M) (s : ResponseStream (BodyOf rt) H M) :
    List ℕ → List (Except Stop (Poll Bytes)) × ResponseStream (BodyOf rt) H M
  | [] => ([], s)
  | capacity :: capacities =>
    let (result, s) := read rt w s capacity
    let (results, s) := readAll rt w s capacities
    (result :: results, s)

/-- A response as the client hands it out. -/
structure Opening (rt : Runtime) (H M : Type) where
  status : StatusCode
  headers : HeaderMap
  source : SourceOf rt
  context : ResponseStreamContext H M
  metrics : Option M
  fresh : context.lifecycle.completed = false

def Opening.stream {rt : Runtime} (o : Opening rt H M) : ResponseStream (BodyOf rt) H M :=
  let s := ResponseStream.new o.status o.headers (BodyOf.new rt o.source) o.context
  match o.metrics with
  | none => s
  | some metrics => s.attachCompletion metrics

/-- The body of the response. -/
def Opening.bytes : {rt : Runtime} → Opening rt H M → Bytes
  | .async, o => List.flatMap FramePoll.bytes o.source
  | .blocking, o => ScriptedReader.source o.source

namespace Opening

variable {rt : Runtime} (o : Opening rt H M) (w : World H M) (capacities : List ℕ)

def results : List (Except Stop (Poll Bytes)) := (readAll rt w o.stream capacities).1

def afterReads : ResponseStream (BodyOf rt) H M := (readAll rt w o.stream capacities).2

end Opening

/-- What a caller does with a stream. -/
structure Use where
  reads : List ℕ
  helper : Option Helper
  dropped : Bool

namespace Use

variable {rt : Runtime} (u : Use) (w : World H M) (codecs : Codecs) (o : Opening rt H M)

def afterReads : ResponseStream (BodyOf rt) H M := o.afterReads w u.reads

def afterHelper : ResponseStream (BodyOf rt) H M :=
  match u.helper with
  | none => u.afterReads w o
  | some helper => (consume rt w (u.afterReads w o) codecs helper).2

def run : ResponseStream (BodyOf rt) H M :=
  if u.dropped then (u.afterHelper w codecs o).drop else u.afterHelper w codecs o

end Use

/-! ## Reads in a row -/

section Reading

variable [Transport T] {w : World H M} {s s' s'' : ResponseStream T H M}
  {es es' : List (Event H M)}

inductive Reading (w : World H M) : ResponseStream T H M → List (Except Stop (Poll Bytes)) →
    ResponseStream T H M → Prop
  | nil (s : ResponseStream T H M) : Reading w s [] s
  | cons {s s' s'' : ResponseStream T H M} {result : Except Stop (Poll Bytes)}
      {results : List (Except Stop (Poll Bytes))} (hread : ReadRan w s (result, s'))
      (hrest : Reading w s' results s'') : Reading w s (result :: results) s''

def deliveredBy : Except Stop (Poll Bytes) → Bytes
  | .ok (.ready bytes) => bytes
  | _ => []

def delivered (results : List (Except Stop (Poll Bytes))) : Bytes := results.flatMap deliveredBy

theorem tidy_complete (s : ResponseStream T H M) (c : Completion) : Tidy (s.complete c) :=
  fun _ ↦ rfl

variable {result : Except Stop (Poll Bytes)}

theorem ReadRan.tidy (h : ReadRan w s (result, s')) (hs : Tidy s) : Tidy s' := by
  cases h with
  | pending hmoves => exact hmoves.tidy hs
  | delivered hmoves => exact hmoves.tidy hs
  | ended => exact tidy_complete _ _
  | failed => exact tidy_complete _ _

theorem remaining_complete (s : ResponseStream T H M) (c : Completion) :
    remaining (s.complete c) = [] := by
  rw [remaining, List.append_eq_nil_iff]
  exact ⟨Transport.buffered_released, Transport.rest_released⟩

/-- A read moves bytes from what remains to the caller. -/
theorem ReadRan.deliveredBy_append (h : ReadRan w s (result, s')) (hok : result.isOk) :
    deliveredBy result ++ remaining s' = remaining s := by
  cases h with
  | pending hmoves _ hwaits =>
    rw [remaining, remaining, hmoves.rest, hwaits.1.1, hwaits.2]
    rfl
  | delivered hmoves _ _ hbytes =>
    rw [remaining, remaining, hmoves.rest, ← List.append_assoc _ (received _), hbytes,
      List.append_assoc]
    rfl
  | ended hmoves _ hyields hbuffered =>
    obtain ⟨-, -, hreceived, hrest, -⟩ := hyields
    rw [ResponseStream.completeSuccess, remaining_complete, remaining, hbuffered,
      hmoves.rest, hreceived, hrest]
    rfl
  | failed => cases hok

variable {results : List (Except Stop (Poll Bytes))}

theorem Reading.delivered_append (h : Reading w s results s')
    (hok : ∀ result ∈ results, result.isOk) : delivered results ++ remaining s' = remaining s := by
  induction h with
  | nil s => rfl
  | cons hread hrest ih =>
    rw [List.forall_mem_cons] at hok
    rw [delivered, List.flatMap_cons, List.append_assoc, ← delivered, ih hok.2]
    exact hread.deliveredBy_append hok.1

/-! ## What reads leave in the log -/

theorem calm_records (l : StreamLifecycle H M) (c : Completion) : Calm (l.records c) := by
  intro e he
  simp only [StreamLifecycle.records, List.mem_append, List.mem_map] at he
  obtain ⟨h, -, rfl⟩ | ⟨m, -, rfl⟩ := he <;> rfl

theorem written_records (l : StreamLifecycle H M) (c : Completion) :
    written (l.records c) = [] := by
  refine List.flatMap_eq_nil_iff.mpr fun e he ↦ ?_
  simp only [StreamLifecycle.records, List.mem_append, List.mem_map] at he
  obtain ⟨h, -, rfl⟩ | ⟨m, -, rfl⟩ := he <;> rfl

theorem log_complete_of_open {c : Completion} (hopen : s.lifecycle.completed = false) :
    (s.complete c).log = s.log ++ s.lifecycle.records c := by
  simp [ResponseStream.complete, StreamLifecycle.complete, hopen, Bind.bind, Pure.pure,
    Logged.tell]

/-- A completion adds nothing to the log, or its records. -/
theorem log_complete (s : ResponseStream T H M) (c : Completion) :
    ∃ es, (s.complete c).log = s.log ++ es ∧ Calm es ∧ written es = [] := by
  cases hcompleted : s.lifecycle.completed with
  | true =>
    refine ⟨[], ?_, calm_nil, rfl⟩
    simp [ResponseStream.complete, StreamLifecycle.complete, hcompleted, Pure.pure]
  | false =>
    exact ⟨s.lifecycle.records c, log_complete_of_open hcompleted, calm_records _ _,
      written_records _ _⟩

theorem Moves.log_complete (h : Moves w s es s') (c : Completion) :
    ∃ es', (s'.complete c).log = s.log ++ (es ++ es') ∧ Calm es' ∧ written es' = [] := by
  obtain ⟨es', hlog, hcalm, hwritten⟩ := Stream.log_complete s' c
  rw [h.log_eq, List.append_assoc] at hlog
  exact ⟨es', hlog, hcalm, hwritten⟩

/-- Exactly the reads that fail leave an answer in the log that is a failure. -/
theorem ReadRan.calm_iff (h : ReadRan w s (result, s')) :
    ∃ es, s'.log = s.log ++ es ∧ (Calm es ↔ result.isOk) := by
  cases h with
  | pending hmoves hcalm => exact ⟨_, hmoves.log_eq, iff_of_true hcalm rfl⟩
  | delivered hmoves hcalm => exact ⟨_, hmoves.log_eq, iff_of_true hcalm rfl⟩
  | ended hmoves hcalm =>
    obtain ⟨es', hlog, hcalm', -⟩ := hmoves.log_complete .success
    exact ⟨_, hlog, iff_of_true (calm_append.mpr ⟨hcalm, hcalm'⟩) rfl⟩
  | failed hmoves hbroke =>
    obtain ⟨es', hlog, -, -⟩ := hmoves.log_complete (.error _)
    exact ⟨_, hlog, iff_of_false (fun hcalm ↦ hbroke.2 (calm_append.mp hcalm).1) nofun⟩

theorem Reading.calm_iff (h : Reading w s results s') :
    ∃ es, s'.log = s.log ++ es ∧ (Calm es ↔ ∀ result ∈ results, result.isOk) := by
  induction h with
  | nil s => exact ⟨[], (List.append_nil _).symm, iff_of_true calm_nil (List.forall_mem_nil _)⟩
  | cons hread hrest ih =>
    obtain ⟨es, hlog, hcalm⟩ := hread.calm_iff
    obtain ⟨es', hlog', hcalm'⟩ := ih
    refine ⟨es ++ es', by rw [hlog', hlog, List.append_assoc], ?_⟩
    rw [calm_append, hcalm, hcalm', List.forall_mem_cons]

/-- Until its end is reported, a stream that is only read and does not fail stays open. -/
theorem Reading.held_or_ended (h : Reading w s results s') (hok : ∀ result ∈ results, result.isOk)
    (hs : Transport.held s.body ∨ EndReported s.log) :
    Transport.held s'.body ∨ EndReported s'.log := by
  induction h with
  | nil s => exact hs
  | @cons s s₁ s₂ result results hread hrest ih =>
    rw [List.forall_mem_cons] at hok
    refine ih hok.2 ?_
    obtain hheld | hend := hs
    · cases hread with
      | pending hmoves => exact .inl (hmoves.held.trans hheld)
      | delivered hmoves => exact .inl (hmoves.held.trans hheld)
      | ended hmoves _ hyields =>
        obtain ⟨es', hlog, -, -⟩ := hmoves.log_complete .success
        refine .inr ?_
        rw [ResponseStream.completeSuccess, hlog]
        exact (hyields.2.2.2.2 hheld).append_right.append_left
      | failed => cases hok.1
    · obtain ⟨es, hlog, -⟩ := hread.calm_iff
      rw [hlog]
      exact .inr hend.append_right

theorem ReadRan.smooth (h : ReadRan w s (result, s')) (hw : w.SmoothFrom s.log s.timing.deadlineAt)
    (hbody : Transport.Faultless s.body) :
    result.isOk ∧ w.SmoothFrom s'.log s'.timing.deadlineAt ∧ Transport.Faultless s'.body := by
  cases h with
  | pending hmoves =>
    refine ⟨rfl, ?_, (hmoves.smooth hw hbody).2⟩
    rw [hmoves.log_eq, hmoves.timing_eq]
    exact hw.append _
  | delivered hmoves =>
    refine ⟨rfl, ?_, (hmoves.smooth hw hbody).2⟩
    rw [hmoves.log_eq, hmoves.timing_eq]
    exact hw.append _
  | ended hmoves =>
    obtain ⟨es', hlog, -, -⟩ := hmoves.log_complete .success
    refine ⟨rfl, ?_, Transport.faultless_released⟩
    rw [ResponseStream.completeSuccess, hlog]
    have htiming := congrArg StreamTiming.deadlineAt hmoves.timing_eq
    exact htiming ▸ hw.append _
  | failed hmoves hbroke => exact absurd (hmoves.smooth hw hbody).1 hbroke.2

theorem Reading.smooth (h : Reading w s results s') (hw : w.SmoothFrom s.log s.timing.deadlineAt)
    (hbody : Transport.Faultless s.body) :
    (∀ result ∈ results, result.isOk) ∧ w.SmoothFrom s'.log s'.timing.deadlineAt ∧
      Transport.Faultless s'.body := by
  induction h with
  | nil s => exact ⟨List.forall_mem_nil _, hw, hbody⟩
  | cons hread hrest ih =>
    obtain ⟨hok, hw', hbody'⟩ := hread.smooth hw hbody
    obtain ⟨hoks, hw'', hbody''⟩ := ih hw' hbody'
    exact ⟨List.forall_mem_cons.mpr ⟨hok, hoks⟩, hw'', hbody''⟩

theorem Reading.tidy (h : Reading w s results s') (hs : Tidy s) : Tidy s' := by
  induction h with
  | nil s => exact hs
  | cons hread hrest ih => exact ih (hread.tidy hs)

/-! ## Completed once -/

/-- Where operations that started in `s₀` leave a stream. `done` is what the log has to say
before a success is recorded. -/
inductive Phase (w : World H M) (done : List (Event H M) → Prop) (s₀ : ResponseStream T H M) :
    ResponseStream T H M → Prop
  | opened {es : List (Event H M)} {s : ResponseStream T H M} (hmoves : Moves w s₀ es s) :
      Phase w done s₀ s
  | closed {es es' : List (Event H M)} {s₁ s : ResponseStream T H M} {c : Completion}
      (hmoves : Moves w s₀ es s₁) (hdone : c = .success → done es)
      (hafter : Moves w (s₁.complete c) es' s) : Phase w done s₀ s

theorem completed_complete (s : ResponseStream T H M) (c : Completion) :
    (s.complete c).lifecycle.completed = true := by
  by_cases hcompleted : s.lifecycle.completed <;>
    simp [ResponseStream.complete, StreamLifecycle.complete, hcompleted, Bind.bind, Pure.pure]

theorem complete_tell (hcompleted : s.lifecycle.completed = true) (es : List (Event H M))
    (c : Completion) : (s.tell es).complete c = (s.complete c).tell es := by
  simp [ResponseStream.complete, ResponseStream.tell, ResponseStream.releaseTransport,
    StreamLifecycle.complete, hcompleted, Pure.pure]

/-- Once it is completed, nothing of a stream changes but its log. -/
theorem Moves.eq_of_complete {c : Completion} (h : Moves w (s.complete c) es s') :
    s' = (s.complete c).tell es := by
  have hbody := (h.untouched Transport.held_released).1
  rw [h.eq, hbody]
  rfl

theorem Moves.complete_eq {c : Completion} (h : Moves w (s.complete c) es s') (c' : Completion) :
    s'.complete c' = s' := by
  rw [h.eq_of_complete, complete_tell (completed_complete s c) es c', s.complete_complete]

namespace Phase

variable {done : List (Event H M) → Prop} {s₀ : ResponseStream T H M}

theorem mono {done' : List (Event H M) → Prop} (h : Phase w done s₀ s)
    (hdone : ∀ es, done es → done' es) : Phase w done' s₀ s := by
  cases h with
  | opened hmoves => exact .opened hmoves
  | closed hmoves hsuccess hafter =>
    exact .closed hmoves (fun hc ↦ hdone _ (hsuccess hc)) hafter

theorem moves (h : Phase w done s₀ s) (hmoves : Moves w s es s') : Phase w done s₀ s' := by
  cases h with
  | opened hbefore => exact .opened (hbefore.trans hmoves)
  | closed hbefore hdone hafter => exact .closed hbefore hdone (hafter.trans hmoves)

/-- An operation completes the stream, unless that has happened before. -/
theorem complete {c : Completion} (h : Phase w done s₀ s) (hmoves : Moves w s es s')
    (hdone : ∀ es₀, Moves w s₀ es₀ s → c = .success → done (es₀ ++ es)) :
    Phase w done s₀ (s'.complete c) := by
  cases h with
  | opened hbefore =>
    exact .closed (hbefore.trans hmoves) (hdone _ hbefore) (.refl w _)
  | closed hbefore hdone' hafter =>
    have hafter' := hafter.trans hmoves
    rw [hafter'.complete_eq c]
    exact .closed hbefore hdone' hafter'

theorem read {result : Except Stop (Poll Bytes)} (h : Phase w EndReported s₀ s)
    (hheld : Transport.held s₀.body) (hread : ReadRan w s (result, s')) :
    Phase w EndReported s₀ s' := by
  cases hread with
  | pending hmoves => exact h.moves hmoves
  | delivered hmoves => exact h.moves hmoves
  | ended hmoves _ hyields =>
    refine h.complete hmoves fun es₀ hbefore _ ↦ EndReported.append_left ?_
    exact hyields.2.2.2.2 (hbefore.held.trans hheld)
  | failed hmoves => exact h.complete hmoves nofun

theorem reading {results : List (Except Stop (Poll Bytes))} (hreading : Reading w s results s')
    (h : Phase w EndReported s₀ s) (hheld : Transport.held s₀.body) :
    Phase w EndReported s₀ s' := by
  induction hreading with
  | nil s => exact h
  | cons hread hrest ih => exact ih (h.read hheld hread)

theorem completed_iff (h : Phase w done s₀ s) (hs₀ : s₀.lifecycle.completed = false) :
    s.lifecycle.completed = false ↔ ∃ es, Moves w s₀ es s := by
  cases h with
  | opened hmoves =>
    rw [hmoves.lifecycle_eq]
    exact iff_of_true hs₀ ⟨_, hmoves⟩
  | closed hmoves hdone hafter =>
    have hcompleted : s.lifecycle.completed = true := by
      rw [hafter.lifecycle_eq]
      exact completed_complete _ _
    refine iff_of_false (by rw [hcompleted]; decide) fun ⟨es, hmoves'⟩ ↦ ?_
    rw [hmoves'.lifecycle_eq, hs₀] at hcompleted
    cases hcompleted

end Phase

/-- The answer that `helper` waits for before it records a success. -/
def Helper.Finished (helper : Helper) (es : List (Event H M)) : Prop :=
  match helper with
  | .intoBytesLimited _ => True
  | .intoResponseLimited _ => ∃ body, .decoded (.ok body) ∈ es
  | .copyToWriter | .copyToWriterLimited _ => .flushed .done ∈ es

theorem Delivers.finished {codecs : Codecs} {helper : Helper} {output : Output}
    (h : Delivers codecs helper s es output) : helper.Finished es := by
  cases helper with
  | intoBytesLimited maxBytes => trivial
  | intoResponseLimited maxBytes =>
    obtain ⟨-, headers, body, -, -, hmem⟩ := h
    exact ⟨body, hmem⟩
  | copyToWriter => exact h.2.2
  | copyToWriterLimited maxBytes => exact h.2.2

theorem Helper.Finished.append_left {helper : Helper} (h : helper.Finished es') :
    helper.Finished (es ++ es') := by
  cases helper with
  | intoBytesLimited maxBytes => trivial
  | intoResponseLimited maxBytes =>
    obtain ⟨body, hmem⟩ := h
    exact ⟨body, List.mem_append_right es hmem⟩
  | copyToWriter => exact List.mem_append_right es h
  | copyToWriterLimited maxBytes => exact List.mem_append_right es h

end Reading

theorem readRan_read (rt : Runtime) (w : World H M) {s : ResponseStream (BodyOf rt) H M}
    (hs : Tidy s) (capacity : ℕ) : ReadRan w s (read rt w s capacity) := by
  cases rt with
  | async => exact Async.readRan_pollRead w hs capacity
  | blocking => exact Blocking.readRan_readChunk w s capacity

theorem helperRan_consume (rt : Runtime) (w : World H M) (codecs : Codecs) (helper : Helper)
    {s : ResponseStream (BodyOf rt) H M} (hs : Tidy s) :
    HelperRan w codecs helper s (consume rt w s codecs helper) := by
  cases rt with
  | async => exact Async.helperRan_consume w codecs helper hs
  | blocking => exact Blocking.helperRan_consume w codecs helper s

theorem reading_readAll (rt : Runtime) (w : World H M) {s : ResponseStream (BodyOf rt) H M}
    (hs : Tidy s) (capacities : List ℕ) :
    Reading w s (readAll rt w s capacities).1 (readAll rt w s capacities).2 := by
  induction capacities generalizing s with
  | nil => exact .nil s
  | cons capacity capacities ih =>
    have hread := readRan_read rt w hs capacity
    exact .cons hread (ih (hread.tidy hs))

end Reqx.Stream
