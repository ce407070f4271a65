import Reqx.Library.ScriptedReader
import Reqx.Stream.Moves

/-!
# The blocking stream

The transport of a blocking stream is a reader: a read of no bytes is its end,
and an interrupted read is repeated. Unlike the async stream it keeps nothing
that it has read.
-/

namespace Reqx.Stream

variable {H M : Type}

structure BlockingBody where
  body : Option (ScriptedReader UInt8 IoError)
  deriving DecidableEq

namespace BlockingBody

def new (reader : ScriptedReader UInt8 IoError) : BlockingBody := ⟨some reader⟩

def script (b : BlockingBody) : List (ReadEvent IoError) := (b.body.map (·.script)).getD []

instance instTransport : Transport BlockingBody where
  held b := b.body.isSome
  released := ⟨none⟩
  buffered _ := []
  rest b := (b.body.map (·.source)).getD []
  Faultless b := ∀ error, .error error ∈ b.script → error.kind = .interrupted
  held_released := rfl
  buffered_released := rfl
  rest_released := rfl
  faultless_released _ hmem := absurd hmem List.not_mem_nil

end BlockingBody

def isTimeoutIoError (error : IoError) : Bool :=
  error.kind = .timedOut || error.kind = .wouldBlock || error.wrapsTimeout

namespace Blocking

variable (w : World H M) (s : ResponseStream BlockingBody H M)

/-! ## Reads -/

def currentReadIsDeadlineLimited : Bool × ResponseStream BlockingBody H M :=
  match s.timing.deadlineAt with
  | none => (false, s)
  | some deadlineAt =>
    (deadlineLimitsWait (durationFromMillisSaturating (max s.timeoutMs 1)) deadlineAt
      (w.now s.log), s.tell [.clock (w.now s.log)])

def mapReadError (source : IoError) (deadlineLimited : Bool) :
    Error × ResponseStream BlockingBody H M :=
  let now := w.now s.log
  let s := s.tell [.clock now]
  if isTimeoutIoError source then
    if s.timing.deadlineAt.any fun deadlineAt ↦
        deadlineElapsed deadlineAt now ||
          (deadlineLimited && deadlineWithinSlack deadlineAt now s.deadlineSlack) then
      (s.deadlineExceededError, s)
    else (.timeout .responseBody s.timeoutMs s.method s.uriRedacted, s)
  else (.readBody [source.message.toList], s)

/-- One read from the transport. -/
def didRead (result : Except IoError Bytes) (reader : ScriptedReader UInt8 IoError) :
    ResponseStream BlockingBody H M :=
  { s with body := ⟨some reader⟩, log := s.log ++ [.read result] }

section Termination

variable {w s} {s' : ResponseStream BlockingBody H M}

theorem body_of_ensureWithinDeadline (h : s.ensureWithinDeadline w = (.ok (), s')) :
    s'.body = s.body := by
  have hran := (ran_ensureWithinDeadline w s).of_eq h
  obtain ⟨es, -, -, -, hbody⟩ := hran.of_ok
  exact hbody

theorem body_currentReadIsDeadlineLimited (w : World H M) (s : ResponseStream BlockingBody H M) :
    (currentReadIsDeadlineLimited w s).2.body = s.body := by
  unfold currentReadIsDeadlineLimited
  split <;> rfl

theorem script_length_lt {wanted : ℕ} {source : IoError}
    {reader reader' : ScriptedReader UInt8 IoError}
    (hcheck : s.ensureWithinDeadline w = (.ok (), s'))
    (hbody : (currentReadIsDeadlineLimited w s').2.body.body = some reader)
    (hread : reader.read wanted = (.error source, reader')) :
    reader'.script.length < s.body.script.length := by
  rw [body_currentReadIsDeadlineLimited, body_of_ensureWithinDeadline hcheck] at hbody
  simpa [BlockingBody.script, hbody] using ScriptedReader.script_length_lt_of_read_error hread

end Termination

/-- The loop of `read_chunk_internal`, up to what it returns. -/
def readChunkLoop (wanted : ℕ) (s : ResponseStream BlockingBody H M) :
    StreamAttempt BlockingBody H M Bytes :=
  match hcheck : s.ensureWithinDeadline w with
  | (.error stop, s) => completeOnError (.error stop, s)
  | (.ok (), s') =>
    let limited := currentReadIsDeadlineLimited w s'
    match hbody : limited.2.body.body with
    | none => (.ok [], limited.2)
    | some reader =>
      match hread : reader.read wanted with
      | (.ok bytes, reader) =>
        let s := didRead limited.2 (.ok bytes) reader
        (completeOnError (s.ensureWithinDeadline w)).andThen fun _ s ↦ (.ok bytes, s)
      | (.error source, reader) =>
        have := script_length_lt hcheck hbody hread
        let s := didRead limited.2 (.error source) reader
        if source.kind = .interrupted then readChunkLoop wanted s
        else
          let failure := mapReadError w s source limited.1
          (.error (.failed failure.1), failure.2.completeError failure.1)
termination_by s.body.script.length

/-- `wanted` is the length of the buffer. -/
def readChunkInternal (wanted : ℕ) (completeSuccessOnEof : Bool) :
    StreamAttempt BlockingBody H M Bytes :=
  if wanted = 0 || s.body.body.isNone then (.ok [], s)
  else
    (readChunkLoop w wanted s).andThen fun read s ↦
      (.ok read, if read.isEmpty && completeSuccessOnEof then s.completeSuccess else s)

def readChunk (wanted : ℕ) : StreamAttempt BlockingBody H M Bytes :=
  readChunkInternal w s wanted true

/-- To a helper a read of no bytes is the end. -/
def chunkOf (bytes : Bytes) : Option Bytes := if bytes.isEmpty then none else some bytes

/-- The helpers read into a buffer of 8192 bytes. -/
def nextChunk : StreamAttempt BlockingBody H M (Option Bytes) :=
  (readChunkInternal w s 8192 false).andThen fun read s ↦ (.ok (chunkOf read), s)

/-! ## What a read does -/

section Reading

variable {w s} {s' : ResponseStream BlockingBody H M} {es : List (Event H M)} {wanted : ℕ}
  {reader reader' : ScriptedReader UInt8 IoError}

theorem moves_currentRead (w : World H M) (s : ResponseStream BlockingBody H M) :
    ∃ es, Idle es ∧ Calm es ∧ Moves w s es (currentReadIsDeadlineLimited w s).2 := by
  unfold currentReadIsDeadlineLimited
  split
  · exact ⟨[], idle_nil, calm_nil, .refl w s⟩
  · exact ⟨_, ⟨rfl, rfl⟩, calm_singleton.mpr rfl, .tell rfl rfl rfl fun _ ↦ rfl⟩

theorem moves_mapReadError (w : World H M) (s : ResponseStream BlockingBody H M) (source : IoError)
    (deadlineLimited : Bool) :
    ∃ es, Idle es ∧ Moves w s es (mapReadError w s source deadlineLimited).2 := by
  have hmoves : Moves w s [.clock (w.now s.log)] (s.tell [.clock (w.now s.log)]) :=
    .tell rfl rfl rfl fun _ ↦ rfl
  refine ⟨[.clock (w.now s.log)], ⟨rfl, rfl⟩, ?_⟩
  unfold mapReadError
  dsimp only
  split
  · split <;> exact hmoves
  · exact hmoves

theorem moves_didRead_ok {bytes : Bytes} (hwanted : 0 < wanted) (hbody : s.body.body = some reader)
    (hread : reader.read wanted = (.ok bytes, reader')) :
    Moves w s [.read (.ok bytes)] (didRead s (.ok bytes) reader') where
  eq := rfl
  held := by simp [Transport.held, didRead, hbody]
  rest := by
    obtain ⟨n, -, -, rfl, hsource⟩ := ScriptedReader.read_ok hread hwanted
    simp [Transport.rest, didRead, hbody, hsource, Event.received]
  untouched hheld := by simp [Transport.held, hbody] at hheld
  unrecorded := List.forall_mem_singleton.mpr rfl
  smooth _ hfaultless := by
    refine ⟨calm_singleton.mpr rfl, fun error hmem ↦ hfaultless error ?_⟩
    simp only [BlockingBody.script, hbody, Option.map_some, Option.getD_some]
    exact (ScriptedReader.script_suffix_of_read hread).mem hmem

theorem moves_didRead_error {source : IoError} (hbody : s.body.body = some reader)
    (hread : reader.read wanted = (.error source, reader')) :
    Moves w s [.read (.error source)] (didRead s (.error source) reader') where
  eq := rfl
  held := by simp [Transport.held, didRead, hbody]
  rest := by
    have hsource := (ScriptedReader.read_error hread).1
    simp [Transport.rest, didRead, hbody, hsource, Event.received]
  untouched hheld := by simp [Transport.held, hbody] at hheld
  unrecorded := List.forall_mem_singleton.mpr rfl
  smooth _ hfaultless := by
    have hscript := (ScriptedReader.read_error hread).2
    simp only [Transport.Faultless, BlockingBody.script, hbody, Option.map_some,
      Option.getD_some, hscript, List.mem_cons] at hfaultless
    refine ⟨calm_singleton.mpr ?_, fun error hmem ↦ hfaultless error (.inr hmem)⟩
    simp [Event.fails, hfaultless source (.inl rfl)]

theorem yields_chunkOf {bytes : Bytes} (hwritten : written es = [])
    (hreceived : received es = bytes)
    (hend : bytes = [] → Transport.rest s'.body = [] ∧ (Transport.held s.body → EndReported es)) :
    Yields s es (chunkOf bytes) s' := by
  refine ⟨hwritten, rfl, ?_⟩
  cases bytes with
  | nil => exact ⟨hreceived, hend rfl⟩
  | cons byte bytes => exact ⟨hreceived, List.cons_ne_nil _ _⟩

/-- What happens before the transport is read. -/
theorem moves_before_read (hcheck : s.ensureWithinDeadline w = (.ok (), s')) :
    ∃ es, Idle es ∧ Calm es ∧ Moves w s es (currentReadIsDeadlineLimited w s').2 ∧
      (currentReadIsDeadlineLimited w s').2.body = s.body := by
  have hran := (ran_ensureWithinDeadline w s).of_eq hcheck
  obtain ⟨es, hmoves, hcalm, hidle, hbody⟩ := hran.of_ok
  obtain ⟨es', hidle', hcalm', hmoves'⟩ := moves_currentRead w s'
  exact ⟨es ++ es', hidle.append hidle', calm_append.mpr ⟨hcalm, hcalm'⟩, hmoves.trans hmoves',
    (body_currentReadIsDeadlineLimited w s').trans hbody⟩

theorem ran_readChunkLoop (w : World H M) (s : ResponseStream BlockingBody H M)
    (hwanted : 0 < wanted) :
    Ran w s (fun es bytes ↦ Yields s es (chunkOf bytes)) Broken
      (readChunkLoop w wanted s) := by
  fun_induction readChunkLoop w wanted s with
  | case1 s stop s₁ hcheck =>
    have hran := (ran_ensureWithinDeadline w s).of_eq hcheck
    exact (hran.of_stopped.mono (fun _ _ _ _ _ ↦ id) fun _ _ ↦ Expired.broken).completeOnError
  | case2 s s₁ hcheck limited hbody =>
    obtain ⟨es, hidle, hcalm, hmoves, hsame⟩ := moves_before_read hcheck
    refine .ok hmoves hcalm (yields_chunkOf hidle.2 hidle.1 fun _ ↦ ⟨?_, fun hheld ↦ ?_⟩)
    · simp only [Transport.rest, limited, hbody, Option.map_none, Option.getD_none]
    · rw [← hsame] at hheld
      simp [Transport.held, limited, hbody] at hheld
  | case3 s s₁ hcheck limited reader hbody bytes reader' hread s₂ =>
    obtain ⟨es, hidle, hcalm, hmoves, -⟩ := moves_before_read hcheck
    have hread' := hmoves.trans (moves_didRead_ok hwanted hbody hread)
    refine Ran.after ?_ hread' (calm_append.mpr ⟨hcalm, calm_singleton.mpr rfl⟩)
    refine (ran_ensureWithinDeadline w s₂).completeOnError.andThen ?_ ?_
    · rintro es' stop ⟨hidle', hcalm', hstop⟩
      refine ⟨⟨?_, fun h ↦ hcalm' (calm_append.mp h).2⟩, hstop⟩
      simp [hidle.2, hidle'.2, Event.written]
    · rintro es' - s₃ hmoves₃ ⟨hidle', hbody'⟩
      refine .ok (.refl w s₃) calm_nil (yields_chunkOf ?_ ?_ ?_)
      · simp [hidle.2, hidle'.2, Event.written]
      · simp [hidle.1, hidle'.1, Event.received]
      · rintro rfl
        refine ⟨?_, fun _ ↦ ⟨.read (.ok []), by simp, rfl⟩⟩
        rw [hbody']
        exact (ScriptedReader.source_eq_nil_of_read hread hwanted).2
  | case4 s s₁ hcheck limited reader hbody source reader' hread hlt s₂ hkind ih =>
    obtain ⟨es, hidle, hcalm, hmoves, -⟩ := moves_before_read hcheck
    have hread' := hmoves.trans (moves_didRead_error hbody hread)
    have hwaits : Waits s (es ++ [.read (.error source)]) s₂ :=
      ⟨hidle.append ⟨rfl, rfl⟩, rfl⟩
    refine Ran.after (ih.mono ?_ ?_) hread'
      (calm_append.mpr ⟨hcalm, by simp [Event.fails, hkind]⟩)
    · exact fun _ _ _ _ _ hyields ↦ hwaits.yields hread' hyields
    · exact fun _ _ hbroken ↦ hbroken.append_left hwaits.1
  | case5 s s₁ hcheck limited reader hbody source reader' hread hlt s₂ hkind failure =>
    obtain ⟨es, hidle, hcalm, hmoves, -⟩ := moves_before_read hcheck
    have hread' := hmoves.trans (moves_didRead_error hbody hread)
    obtain ⟨es', hidle', hmoves'⟩ := moves_mapReadError w s₂ source limited.1
    refine .completed (hread'.trans hmoves') ⟨⟨?_, fun h ↦ ?_⟩, fun h ↦ ?_⟩
    · simp [hidle.2, hidle'.2, Event.written]
    · simp [Event.fails, hkind] at h
    · cases h

theorem completeOnError_readChunkLoop (w : World H M) (s : ResponseStream BlockingBody H M)
    (wanted : ℕ) : completeOnError (readChunkLoop w wanted s) = readChunkLoop w wanted s := by
  fun_induction readChunkLoop w wanted s with
  | case1 s stop s₁ hcheck => exact completeOnError_completeOnError _
  | case2 s s₁ hcheck limited hbody => rfl
  | case3 s s₁ hcheck limited reader hbody bytes reader' hread s₂ =>
    exact completeOnError_andThen (completeOnError_completeOnError _) fun _ _ ↦ rfl
  | case4 s s₁ hcheck limited reader hbody source reader' hread hlt s₂ hkind ih => exact ih
  | case5 s s₁ hcheck limited reader hbody source reader' hread hlt s₂ hkind failure =>
    exact completeOnError_completeOnError (.error (.failed failure.1), failure.2)

theorem readRan_readChunk (w : World H M) (s : ResponseStream BlockingBody H M) (wanted : ℕ) :
    ReadRan w s ((readChunk w s wanted).andThen fun bytes s ↦ (.ok (.ready bytes), s)) := by
  unfold readChunk readChunkInternal
  split
  · exact .delivered (.refl w s) calm_nil rfl rfl
  · next hreads =>
    simp only [Bool.or_eq_true, decide_eq_true_eq, not_or] at hreads
    obtain ⟨es, bytes, s', hmoves, hcalm, hyields, hresult⟩ |
        ⟨es, error, s', hmoves, hbroken, hresult⟩ | ⟨es, s', -, hbroken, -⟩ :=
      (ran_readChunkLoop w s (Nat.pos_of_ne_zero hreads.1)).settled
        (completeOnError_readChunkLoop w s wanted)
    · rw [hresult]
      cases bytes with
      | nil => exact .ended hmoves hcalm hyields rfl
      | cons byte bytes =>
        obtain ⟨hwritten, -, hreceived, -⟩ := hyields
        refine .delivered hmoves hcalm hwritten ?_
        rw [hreceived]
        exact (List.append_nil _).symm
    · rw [hresult]
      exact .failed hmoves hbroken.1
    · exact absurd rfl hbroken.2

theorem nextChunk_of_isNone (w : World H M) (hbody : s.body.body = none) :
    nextChunk w s = (.ok none, s) := by
  simp [nextChunk, readChunkInternal, hbody, Attempt.andThen, chunkOf]

theorem nextChunk_of_isSome (w : World H M) (hbody : s.body.body = some reader) :
    nextChunk w s =
      (readChunkLoop w 8192 s).andThen fun read s ↦ (.ok (chunkOf read), s) := by
  rw [nextChunk, readChunkInternal, if_neg (by simp [hbody])]
  rcases readChunkLoop w 8192 s with ⟨stop | read, s'⟩
  · rfl
  · simp [Attempt.andThen]

theorem ran_nextChunk (w : World H M) (s : ResponseStream BlockingBody H M) :
    Ran w s (Yields s) (fun es _ ↦ Broke es) (nextChunk w s) := by
  rcases hbody : s.body.body with _ | reader
  · rw [nextChunk_of_isNone w hbody]
    refine .ok (.refl w s) calm_nil ⟨rfl, rfl, rfl, ?_, ?_⟩
    · simp [Transport.rest, hbody]
    · simp [Transport.held, hbody]
  · rw [nextChunk_of_isSome w hbody]
    refine (ran_readChunkLoop w s (by decide)).andThen (fun _ _ hbroken ↦ hbroken.1) ?_
    intro es read s' _ hyields
    refine .ok (.refl w s') calm_nil ?_
    rwa [List.append_nil]

theorem completeOnError_nextChunk (w : World H M) (s : ResponseStream BlockingBody H M) :
    completeOnError (nextChunk w s) = nextChunk w s := by
  rcases hbody : s.body.body with _ | reader
  · rw [nextChunk_of_isNone w hbody]
    rfl
  · rw [nextChunk_of_isSome w hbody]
    exact completeOnError_andThen (completeOnError_readChunkLoop w s 8192) fun _ _ ↦ rfl

end Reading

end Blocking

end Reqx.Stream
