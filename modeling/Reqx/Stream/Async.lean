import Reqx.Stream.Moves

/-!
# The async stream

The transport of an async stream answers every poll with a frame, with
nothing yet, with an error or with the end. `read_buffer` keeps what a read
could not deliver of a frame. A poll result with an error in it is a `Stop`
here.
-/

namespace Reqx.Stream

variable {H M : Type}

/-- `inner` is what the polls of the transport will answer. -/
structure StreamBody where
  inner : Option (List FramePoll)
  readBuffer : Bytes
  frameTimeout : Option ℕ
  frameTimeoutDeadlineLimited : Bool
  deriving DecidableEq

namespace StreamBody

def new (frames : List FramePoll) : StreamBody := ⟨some frames, [], none, false⟩

def frames (b : StreamBody) : List FramePoll := b.inner.getD []

instance instTransport : Transport StreamBody where
  held b := b.inner.isSome
  released := ⟨none, [], none, false⟩
  buffered := readBuffer
  rest b := b.frames.flatMap FramePoll.bytes
  Faultless b := ∀ source, .failed source ∉ b.frames
  held_released := rfl
  buffered_released := rfl
  rest_released := rfl
  faultless_released _ := List.not_mem_nil

theorem length_lt_of_inner {b : StreamBody} {frame : FramePoll} {frames : List FramePoll}
    (hinner : b.inner = some (frame :: frames)) : frames.length < b.frames.length := by
  simp [StreamBody.frames, hinner]

end StreamBody

namespace Async

variable (w : World H M) (s : ResponseStream StreamBody H M)

/-! ## Frames and their timer -/

def setFrameTimeout (frameTimeout : Option ℕ) (frameTimeoutDeadlineLimited : Bool) :
    ResponseStream StreamBody H M :=
  { s with body := { s.body with frameTimeout, frameTimeoutDeadlineLimited } }

def clearFrameTimeout : ResponseStream StreamBody H M := setFrameTimeout s none false

def effectiveFrameTimeout : StreamAttempt StreamBody H M (ℕ × Bool) :=
  let phaseTimeout := durationFromMillisSaturating (max s.timeoutMs 1)
  match s.timing.deadlineAt with
  | none => (.ok (phaseTimeout, false), s)
  | some deadlineAt =>
    let now := w.now s.log
    let s := s.tell [.checked deadlineAt now]
    if deadlineElapsed deadlineAt now then (.error (.failed s.deadlineExceededError), s)
    else
      (.ok (min phaseTimeout (saturatingDurationSince deadlineAt now),
        deadlineLimitsWait phaseTimeout deadlineAt now), s)

def ensureFrameTimeout : StreamAttempt StreamBody H M Unit :=
  if s.body.frameTimeout.isNone then
    (effectiveFrameTimeout w s).andThen fun (timeout, deadlineLimited) s ↦
      (.ok (), setFrameTimeout s (some timeout) deadlineLimited)
  else (.ok (), s)

/-- The transport is pending: the timer of the frame decides. -/
def pollFrameTimeout : StreamAttempt StreamBody H M (Poll (Option Bytes)) :=
  (ensureFrameTimeout w s).andThen fun _ s ↦
    let elapsed := w.timerElapsed s.log
    let s := s.tell [.timer elapsed]
    if elapsed then
      let now := w.now s.log
      let s := s.tell [.clock now]
      let error :=
        if s.timing.deadlineAt.any fun deadlineAt ↦
            deadlineElapsed deadlineAt now ||
              (s.body.frameTimeoutDeadlineLimited &&
                deadlineWithinSlack deadlineAt now s.deadlineSlack) then
          s.deadlineExceededError
        else s.responseBodyTimeoutError
      (.error (.failed error), clearFrameTimeout s)
    else (.ok .pending, s)

/-- One poll of the transport. -/
def polled (frame : Option FramePoll) (frames : List FramePoll) : ResponseStream StreamBody H M :=
  { s with body := { s.body with inner := some frames }, log := s.log ++ [.polled frame] }

def pollNextChunk (s : ResponseStream StreamBody H M) :
    StreamAttempt StreamBody H M (Poll (Option Bytes)) :=
  match hinner : s.body.inner with
  | none => (.ok (.ready none), s)
  | some frames =>
    match s.ensureWithinDeadline w with
    | (.error stop, s) => (.error stop, clearFrameTimeout s)
    | (.ok (), s) =>
      match frames with
      | [] => (.ok (.ready none), clearFrameTimeout (polled s none []))
      | .data bytes :: frames =>
        have := StreamBody.length_lt_of_inner hinner
        let s := clearFrameTimeout (polled s (some (.data bytes)) frames)
        if bytes.isEmpty then pollNextChunk s else (.ok (.ready (some bytes)), s)
      | .trailers :: frames =>
        have := StreamBody.length_lt_of_inner hinner
        pollNextChunk (clearFrameTimeout (polled s (some .trailers) frames))
      | .failed source :: frames =>
        (.error (.failed (.readBody source)),
          clearFrameTimeout (polled s (some (.failed source)) frames))
      | .pending :: frames => pollFrameTimeout w (polled s (some .pending) frames)
termination_by s.body.frames.length

section Polling

variable {w s} {s' : ResponseStream StreamBody H M} {es : List (Event H M)}
  {frame : FramePoll} {frames : List FramePoll}

theorem moves_polled (hinner : s.body.inner = some (frame :: frames)) :
    Moves w s [.polled (some frame)] (polled s (some frame) frames) where
  eq := rfl
  held := by simp [Transport.held, polled, hinner]
  rest := by
    simp [Transport.rest, StreamBody.frames, polled, hinner, Event.received]
  untouched hheld := by simp [Transport.held, hinner] at hheld
  unrecorded := List.forall_mem_singleton.mpr rfl
  smooth _ hbody := by
    simp only [Transport.Faultless, StreamBody.frames, hinner, Option.getD_some,
      List.mem_cons, not_or] at hbody
    refine ⟨?_, fun source ↦ (hbody source).2⟩
    cases frame with
    | failed source => exact absurd rfl (hbody source).1
    | _ => exact calm_singleton.mpr rfl

theorem moves_polled_none (hinner : s.body.inner = some []) :
    Moves w s [.polled none] (polled s none []) where
  eq := rfl
  held := by simp [Transport.held, polled, hinner]
  rest := by simp [Transport.rest, StreamBody.frames, polled, hinner, Event.received]
  untouched hheld := by simp [Transport.held, hinner] at hheld
  unrecorded := List.forall_mem_singleton.mpr rfl
  smooth _ _ := ⟨calm_singleton.mpr rfl, by simp [Transport.Faultless, StreamBody.frames, polled]⟩

theorem moves_setFrameTimeout (hheld : s.body.inner.isSome) (frameTimeout : Option ℕ)
    (deadlineLimited : Bool) :
    Moves w s [] (setFrameTimeout s frameTimeout deadlineLimited) where
  eq := by simp [ResponseStream.moved, setFrameTimeout]
  held := rfl
  rest := rfl
  untouched h := absurd hheld (by simpa [Transport.held] using h)
  unrecorded := List.forall_mem_nil _
  smooth _ hbody := ⟨calm_nil, hbody⟩

theorem ran_effectiveFrameTimeout (w : World H M) (s : ResponseStream StreamBody H M) :
    Ran w s (fun es _ s' ↦ Idle es ∧ s'.body = s.body) Expired (effectiveFrameTimeout w s) := by
  have hcheck := ran_ensureWithinDeadline w s
  unfold ResponseStream.ensureWithinDeadline at hcheck
  unfold effectiveFrameTimeout
  split
  · exact .ok (.refl w s) calm_nil ⟨idle_nil, rfl⟩
  · next deadlineAt hdeadline =>
    simp only [hdeadline] at hcheck
    dsimp only
    split
    · next helapsed =>
      rw [if_pos helapsed] at hcheck
      exact hcheck.of_stopped
    · next helapsed =>
      rw [if_neg helapsed] at hcheck
      obtain ⟨es, hmoves, hcalm, hpost⟩ := hcheck.of_ok
      exact .ok hmoves hcalm hpost

/-- While the transport is held, nothing of the stream but the timer changes. -/
theorem ran_ensureFrameTimeout (w : World H M) {s : ResponseStream StreamBody H M}
    (hheld : s.body.inner.isSome) :
    Ran w s (fun es _ s' ↦ Idle es ∧ s'.body.inner = s.body.inner ∧
        s'.body.readBuffer = s.body.readBuffer)
      Expired (ensureFrameTimeout w s) := by
  unfold ensureFrameTimeout
  split
  · refine (ran_effectiveFrameTimeout w s).andThen (fun _ _ ↦ id) ?_
    rintro es ⟨timeout, deadlineLimited⟩ s₁ hmoves ⟨hidle, hbody⟩
    have hheld₁ : s₁.body.inner.isSome := by rw [hbody]; exact hheld
    refine .ok (moves_setFrameTimeout hheld₁ _ _) calm_nil ?_
    rw [List.append_nil]
    exact ⟨hidle, (congrArg StreamBody.inner hbody :), (congrArg StreamBody.readBuffer hbody :)⟩
  · exact .ok (.refl w s) calm_nil ⟨idle_nil, rfl, rfl⟩

theorem ran_pollFrameTimeout (w : World H M) {s : ResponseStream StreamBody H M}
    (hheld : s.body.inner.isSome) :
    Ran w s (fun es result s' ↦ result = .pending ∧ Waits s es s' ∧ s'.body.inner = s.body.inner)
      Broken (pollFrameTimeout w s) := by
  refine (ran_ensureFrameTimeout w hheld).andThen (fun _ _ h ↦ h.broken) ?_
  rintro es - s₁ hmoves ⟨hidle, hinner, hbuffer⟩
  set s₂ := s₁.tell [.timer (w.timerElapsed s₁.log)]
  have htimer : Moves w s₁ [.timer (w.timerElapsed s₁.log)] s₂ := by
    refine .tell rfl rfl rfl fun hw ↦ ?_
    have hnot := hw.timer []
    rwa [List.append_nil] at hnot
  dsimp only
  split
  · next helapsed =>
    -- The reading of the clock only chooses between two errors.
    have hclock : Moves w s₂ [.clock (w.now s₂.log)] (s₂.tell [.clock (w.now s₂.log)]) :=
      .tell rfl rfl rfl fun _ ↦ rfl
    have hheld₂ : (s₂.tell [.clock (w.now s₂.log)]).body.inner.isSome := by
      rw [← hinner] at hheld
      exact hheld
    refine .stopped ((htimer.trans hclock).trans (moves_setFrameTimeout hheld₂ _ _))
      ⟨⟨?_, fun hcalm ↦ ?_⟩, nofun⟩
    · simp [hidle.2, Event.written]
    · simp [helapsed, Event.fails] at hcalm
  · next helapsed =>
    refine .ok htimer ?_ ⟨rfl, ⟨?_, hbuffer⟩, hinner⟩
    · simpa [Event.fails] using helapsed
    · exact hidle.append ⟨rfl, rfl⟩

/-- What a poll for the next chunk gives, besides a failure. -/
def Polled (s : ResponseStream StreamBody H M) (es : List (Event H M))
    (result : Poll (Option Bytes)) (s' : ResponseStream StreamBody H M) : Prop :=
  match result with
  | .pending => Waits s es s' ∧ s'.body.frames.length < s.body.frames.length
  | .ready result => Yields s es result s'

theorem moves_clearFrameTimeout (h : Moves w s es s') (hheld : s'.body.inner.isSome) :
    Moves w s es (clearFrameTimeout s') := by
  have hclear := h.trans (moves_setFrameTimeout hheld none false)
  rwa [List.append_nil] at hclear

/-- A poll that goes on after frames without bytes. -/
theorem ran_polled_after {x : StreamAttempt StreamBody H M (Poll (Option Bytes))}
    (h : Ran w s' (Polled s') Broken x) (hmoves : Moves w s es s') (hcalm : Calm es)
    (hwaits : Waits s es s') (hlt : s'.body.frames.length < s.body.frames.length) :
    Ran w s (Polled s) Broken x := by
  refine Ran.after (h.mono ?_ fun _ _ hbroken ↦ hbroken.append_left hwaits.1) hmoves hcalm
  rintro es' (_ | result) s'' - - hpolled
  · exact ⟨hwaits.trans hpolled.1, hpolled.2.trans hlt⟩
  · exact hwaits.yields hmoves hpolled

theorem clearFrameTimeout_complete (s : ResponseStream StreamBody H M) (c : Completion) :
    clearFrameTimeout (s.complete c) = s.complete c := rfl

/-- A frame that is polled after the look at the deadline. -/
theorem moves_frame {s₁ : ResponseStream StreamBody H M}
    (hcheck : s.ensureWithinDeadline w = (.ok (), s₁))
    (hinner : s.body.inner = some (frame :: frames)) :
    ∃ es, Idle es ∧ Calm es ∧ Moves w s (es ++ [.polled (some frame)])
      (polled s₁ (some frame) frames) ∧ s₁.body.readBuffer = s.body.readBuffer := by
  have hran := (ran_ensureWithinDeadline w s).of_eq hcheck
  obtain ⟨es, hmoves, hcalm, hidle, hbody⟩ := hran.of_ok
  rw [← hbody] at hinner
  exact ⟨es, hidle, hcalm, hmoves.trans (moves_polled hinner), congrArg _ hbody⟩

theorem ran_pollNextChunk (w : World H M) (s : ResponseStream StreamBody H M) :
    Ran w s (Polled s) Broken (pollNextChunk w s) := by
  fun_induction pollNextChunk w s with
  | case1 s hinner =>
    refine .ok (.refl w s) calm_nil ⟨rfl, rfl, rfl, ?_, ?_⟩
    · simp [Transport.rest, StreamBody.frames, hinner]
    · simp [Transport.held, hinner]
  | case2 s frames hinner stop s₁ hcheck =>
    have hran := (ran_ensureWithinDeadline w s).of_eq hcheck
    cases hran with
    | stopped hmoves hpost =>
      have hheld : s₁.body.inner.isSome := by
        have := hmoves.held
        simpa [Transport.held, hinner] using this
      exact .stopped (moves_clearFrameTimeout hmoves hheld) hpost.broken
    | completed hmoves hpost =>
      rw [ResponseStream.completeError, clearFrameTimeout_complete]
      exact .completed hmoves hpost.broken
  | case3 s s₁ hcheck hinner =>
    have hran := (ran_ensureWithinDeadline w s).of_eq hcheck
    obtain ⟨es, hmoves, hcalm, hidle, hbody⟩ := hran.of_ok
    have hinner₁ : s₁.body.inner = some [] := by rw [hbody, hinner]
    refine .ok (moves_clearFrameTimeout (hmoves.trans (moves_polled_none hinner₁)) rfl) ?_
      ⟨?_, ?_, ?_, ?_, ?_⟩
    · exact calm_append.mpr ⟨hcalm, calm_singleton.mpr rfl⟩
    · simp [hidle.2, Event.written]
    · exact (congrArg StreamBody.readBuffer hbody :)
    · simp [hidle.1, Event.received]
    · rfl
    · exact fun _ ↦ ⟨.polled none, by simp, rfl⟩
  | case4 s s₁ hcheck bytes frames hinner hlt s₂ hempty _ ih =>
    obtain ⟨es, hidle, hcalm, hmoves, hbuffer⟩ := moves_frame hcheck hinner
    refine ran_polled_after ih (moves_clearFrameTimeout hmoves rfl) ?_ ⟨?_, hbuffer⟩ hlt
    · exact calm_append.mpr ⟨hcalm, calm_singleton.mpr rfl⟩
    · refine hidle.append ⟨?_, rfl⟩
      rw [received_singleton]
      exact List.isEmpty_iff.mp hempty
  | case5 s s₁ hcheck bytes frames hinner hlt s₂ hempty =>
    obtain ⟨es, hidle, hcalm, hmoves, hbuffer⟩ := moves_frame hcheck hinner
    refine .ok (moves_clearFrameTimeout hmoves rfl) ?_ ⟨?_, hbuffer, ?_, ?_⟩
    · exact calm_append.mpr ⟨hcalm, calm_singleton.mpr rfl⟩
    · simp [hidle.2, Event.written]
    · simp [hidle.1, Event.received, FramePoll.bytes]
    · simpa using hempty
  | case6 s s₁ hcheck frames hinner hlt _ ih =>
    obtain ⟨es, hidle, hcalm, hmoves, hbuffer⟩ := moves_frame hcheck hinner
    refine ran_polled_after ih (moves_clearFrameTimeout hmoves rfl) ?_ ⟨?_, hbuffer⟩ hlt
    · exact calm_append.mpr ⟨hcalm, calm_singleton.mpr rfl⟩
    · exact hidle.append ⟨rfl, rfl⟩
  | case7 s s₁ hcheck source frames hinner =>
    obtain ⟨es, hidle, hcalm, hmoves, hbuffer⟩ := moves_frame hcheck hinner
    refine .stopped (moves_clearFrameTimeout hmoves rfl) ⟨⟨?_, fun h ↦ ?_⟩, nofun⟩
    · simp [hidle.2, Event.written]
    · simp [Event.fails] at h
  | case8 s s₁ hcheck frames hinner =>
    obtain ⟨es, hidle, hcalm, hmoves, hbuffer⟩ := moves_frame hcheck hinner
    have hwaits : Waits s (es ++ [.polled (some .pending)])
        (polled s₁ (some .pending) frames) := ⟨hidle.append ⟨rfl, rfl⟩, hbuffer⟩
    have hran := ran_pollFrameTimeout w (s := polled s₁ (some .pending) frames) rfl
    refine Ran.after (hran.mono ?_ fun _ _ hbroken ↦ hbroken.append_left hwaits.1) hmoves ?_
    · rintro es' - s' - - ⟨rfl, hwaits', hinner'⟩
      refine ⟨hwaits.trans hwaits', ?_⟩
      rw [StreamBody.frames, hinner']
      exact StreamBody.length_lt_of_inner hinner
    · exact calm_append.mpr ⟨hcalm, calm_singleton.mpr rfl⟩

theorem frames_length_lt_of_pending (h : pollNextChunk w s = (.ok .pending, s')) :
    s'.body.frames.length < s.body.frames.length := by
  have hran := (ran_pollNextChunk w s).of_eq h
  obtain ⟨es, -, -, -, hlt⟩ := hran.of_ok
  exact hlt

theorem rest_length_lt_of_chunk {chunk : Bytes}
    (h : pollNextChunk w s = (.ok (.ready (some chunk)), s')) :
    (Transport.rest s'.body).length < (Transport.rest s.body).length := by
  have hran := (ran_pollNextChunk w s).of_eq h
  obtain ⟨es, hmoves, -, -, -, hreceived, hne⟩ := hran.of_ok
  have hpos := List.length_pos_iff.mpr hne
  rw [hmoves.rest, hreceived, List.length_append]
  omega

end Polling

/-! ## Chunks and reads -/

/-- While the transport is pending, the future is polled again or dropped. -/
def nextChunk (s : ResponseStream StreamBody H M) : StreamAttempt StreamBody H M (Option Bytes) :=
  match h : pollNextChunk w s with
  | (.error stop, s) => (.error stop, s)
  | (.ok (.ready result), s) => (.ok result, s)
  | (.ok .pending, s') =>
    have := frames_length_lt_of_pending h
    if w.abandons s'.log then (.error .abandoned, s'.tell [.suspended true])
    else nextChunk (s'.tell [.suspended false])
termination_by s.body.frames.length

def setReadBuffer (readBuffer : Bytes) : ResponseStream StreamBody H M :=
  { s with body := { s.body with readBuffer } }

def takePendingChunk : StreamAttempt StreamBody H M (Option Bytes) :=
  if s.body.readBuffer.isEmpty then (.ok none, s)
  else
    (s.ensureWithinDeadline w).andThen fun _ s ↦
      (.ok (some s.body.readBuffer), setReadBuffer s [])

/-- `split_to` and `put_slice` of a read that finds bytes in the buffer. -/
def deliver (capacity : ℕ) : StreamAttempt StreamBody H M (Poll Bytes) :=
  (completeOnError (s.ensureWithinDeadline w)).andThen fun _ s ↦
    let toCopy := min s.body.readBuffer.length capacity
    (.ok (.ready (s.body.readBuffer.take toCopy)),
      setReadBuffer s (s.body.readBuffer.drop toCopy))

def pollReadLoop (capacity : ℕ) (s : ResponseStream StreamBody H M) :
    StreamAttempt StreamBody H M (Poll Bytes) :=
  if !s.body.readBuffer.isEmpty then deliver w s capacity
  else
    match h : pollNextChunk w s with
    | (.ok (.ready (some chunk)), s') =>
      have := rest_length_lt_of_chunk h
      pollReadLoop capacity (setReadBuffer s' chunk)
    | (.error stop, s) => completeOnError (.error stop, s)
    | (.ok (.ready none), s) => (.ok (.ready []), s.completeSuccess)
    | (.ok .pending, s) => (.ok .pending, s)
termination_by (Transport.rest s.body).length

/-- `capacity` is what remains of the buffer of the caller. -/
def pollRead (capacity : ℕ) : StreamAttempt StreamBody H M (Poll Bytes) :=
  if capacity = 0 then (.ok (.ready []), s) else pollReadLoop w capacity s

section Reading

variable {w s} {s' : ResponseStream StreamBody H M} {es : List (Event H M)}

theorem moves_setReadBuffer (hheld : s.body.inner.isSome) (readBuffer : Bytes) :
    Moves w s [] (setReadBuffer s readBuffer) where
  eq := by simp [ResponseStream.moved, setReadBuffer]
  held := rfl
  rest := rfl
  untouched h := absurd hheld (by simpa [Transport.held] using h)
  unrecorded := List.forall_mem_nil _
  smooth _ hbody := ⟨calm_nil, hbody⟩

theorem moves_suspended {abandoned : Bool} (h : w.abandons s.log = abandoned) :
    Moves w s [.suspended abandoned] (s.tell [.suspended abandoned]) := by
  refine .tell rfl rfl rfl fun hw ↦ ?_
  have hstays := hw.stays []
  rw [List.append_nil] at hstays
  exact h.symm.trans hstays

theorem ran_nextChunk (w : World H M) (s : ResponseStream StreamBody H M) :
    Ran w s (Yields s) (fun es _ ↦ Broke es) (nextChunk w s) := by
  fun_induction nextChunk w s with
  | case1 s stop s₁ h =>
    have hran := (ran_pollNextChunk w s).of_eq h
    exact hran.of_stopped.mono (fun _ _ _ _ _ ↦ id) fun _ _ hbroken ↦ hbroken.1
  | case2 s result s₁ h =>
    have hran := (ran_pollNextChunk w s).of_eq h
    obtain ⟨es, hmoves, hcalm, hyields⟩ := hran.of_ok
    exact .ok hmoves hcalm hyields
  | case3 s s₁ h hlt habandons =>
    have hran := (ran_pollNextChunk w s).of_eq h
    obtain ⟨es, hmoves, hcalm, hwaits, -⟩ := hran.of_ok
    refine .stopped (hmoves.trans (moves_suspended habandons)) ?_
    exact Broke.append_left ⟨rfl, by simp [Event.fails]⟩ hwaits.1
  | case4 s s₁ h hlt habandons ih =>
    have hran := (ran_pollNextChunk w s).of_eq h
    obtain ⟨es, hmoves, hcalm, hwaits, -⟩ := hran.of_ok
    have hmoves₁ := hmoves.trans (moves_suspended (Bool.eq_false_iff.mpr habandons))
    have hwaits₁ : Waits s (es ++ [.suspended false]) (s₁.tell [.suspended false]) :=
      ⟨hwaits.1.append ⟨rfl, rfl⟩, hwaits.2⟩
    refine Ran.after (ih.mono ?_ ?_) hmoves₁ (calm_append.mpr ⟨hcalm, calm_singleton.mpr rfl⟩)
    · exact fun _ _ _ _ _ hyields ↦ hwaits₁.yields hmoves₁ hyields
    · exact fun _ _ hbroke ↦ hbroke.append_left hwaits₁.1

theorem held_of_readBuffer (hs : Tidy s) (hbuffer : s.body.readBuffer ≠ []) :
    s.body.inner.isSome := by
  by_contra hnone
  have hreleased := hs (Bool.eq_false_iff.mpr hnone)
  exact hbuffer (by rw [hreleased]; rfl)

/-- The pending chunk is all of the buffer, if there is anything in it. -/
theorem ran_takePendingChunk (w : World H M) {s : ResponseStream StreamBody H M} (hs : Tidy s) :
    Ran w s (fun es chunk s' ↦ Idle es ∧ chunk.getD [] = s.body.readBuffer ∧
        s'.body.readBuffer = [] ∧ s'.body.inner = s.body.inner)
      Expired (takePendingChunk w s) := by
  unfold takePendingChunk
  split
  · next hempty =>
    have hnil := List.isEmpty_iff.mp hempty
    exact .ok (.refl w s) calm_nil ⟨idle_nil, hnil.symm, hnil, rfl⟩
  · next hempty =>
    refine (ran_ensureWithinDeadline w s).andThen (fun _ _ ↦ id) ?_
    rintro es - s₁ - ⟨hidle, hbody⟩
    have hheld : s₁.body.inner.isSome := by
      rw [hbody]
      exact held_of_readBuffer hs fun hnil ↦ hempty (List.isEmpty_iff.mpr hnil)
    refine .ok (moves_setReadBuffer hheld []) calm_nil ?_
    rw [List.append_nil]
    exact ⟨hidle, (congrArg StreamBody.readBuffer hbody :), rfl,
      (congrArg StreamBody.inner hbody :)⟩

theorem ran_deliver (w : World H M) (hs : Tidy s) (hbuffer : s.body.readBuffer ≠ [])
    (capacity : ℕ) :
    Ran w s (fun es result s' ↦ Idle es ∧
        ∃ bytes, result = .ready bytes ∧ s.body.readBuffer = bytes ++ s'.body.readBuffer)
      Expired (deliver w s capacity) := by
  refine (ran_ensureWithinDeadline w s).completeOnError.andThen (fun _ _ ↦ id) ?_
  rintro es - s₁ hmoves ⟨hidle, hbody⟩
  have hheld : s₁.body.inner.isSome := by rw [hbody]; exact held_of_readBuffer hs hbuffer
  refine .ok (moves_setReadBuffer hheld _) calm_nil ?_
  rw [List.append_nil, ← hbody]
  exact ⟨hidle, _, rfl, (List.take_append_drop _ _).symm⟩

/-- A read that has put all it received into the buffer delivers from there. -/
theorem readRan_deliver (hmoves : Moves w s es s') (hcalm : Calm es) (hwritten : written es = [])
    (hbytes : s.body.readBuffer ++ received es = s'.body.readBuffer) (hs : Tidy s)
    (hbuffer : s'.body.readBuffer ≠ []) (capacity : ℕ) : ReadRan w s (deliver w s' capacity) := by
  have hsettled : completeOnError (deliver w s' capacity) = deliver w s' capacity :=
    completeOnError_andThen (completeOnError_completeOnError _) fun _ _ ↦ rfl
  obtain ⟨es', _, s'', hmoves', hcalm', ⟨hidle, bytes, rfl, hdeliver⟩, hresult⟩ |
      ⟨es', error, s'', hmoves', hexpired, hresult⟩ | ⟨es', s'', -, hexpired, -⟩ :=
    (ran_deliver w (hmoves.tidy hs) hbuffer capacity).settled hsettled
  · rw [hresult]
    refine .delivered (hmoves.trans hmoves') (calm_append.mpr ⟨hcalm, hcalm'⟩) ?_ ?_
    · rw [written_append, hwritten, hidle.2, List.append_nil]
    · rw [received_append, hidle.1, List.append_nil]
      exact hbytes.trans hdeliver
  · rw [hresult]
    refine .failed (hmoves.trans hmoves') ⟨?_, fun h ↦ hexpired.2.1 (calm_append.mp h).2⟩
    rw [written_append, hwritten, hexpired.1.2, List.append_nil]
  · exact absurd rfl hexpired.2.2

theorem pollReadLoop_of_ne_nil (w : World H M) (hbuffer : s.body.readBuffer ≠ []) (capacity : ℕ) :
    pollReadLoop w capacity s = deliver w s capacity := by
  rw [pollReadLoop, if_pos]
  simpa using hbuffer

theorem readRan_pollReadLoop (w : World H M) (hs : Tidy s) (capacity : ℕ) :
    ReadRan w s (pollReadLoop w capacity s) := by
  by_cases hbuffer : s.body.readBuffer = []
  · have hran := ran_pollNextChunk w s
    rw [pollReadLoop, if_neg (by simp [hbuffer])]
    split
    · next chunk s₁ h =>
      rw [h] at hran
      obtain ⟨es, hmoves, hcalm, hwritten, hbuffered, hreceived, hne⟩ := hran.of_ok
      rw [pollReadLoop_of_ne_nil w hne]
      have hheld : s₁.body.inner.isSome := by
        by_contra hnone
        have hreleased := hs (hmoves.held.symm.trans (Bool.eq_false_iff.mpr hnone))
        have hrest := hmoves.rest
        rw [hreleased, hreceived] at hrest
        exact hne (List.append_eq_nil_iff.mp hrest.symm).1
      have hset := hmoves.trans (moves_setReadBuffer hheld chunk)
      rw [List.append_nil] at hset
      refine readRan_deliver hset hcalm hwritten ?_ hs hne capacity
      rw [hbuffer, hreceived]
      rfl
    · next stop s₁ h =>
      rw [h] at hran
      exact hran.readRan
    · next s₁ h =>
      rw [h] at hran
      obtain ⟨es, hmoves, hcalm, hyields⟩ := hran.of_ok
      exact .ended hmoves hcalm hyields hbuffer
    · next s₁ h =>
      rw [h] at hran
      obtain ⟨es, hmoves, hcalm, hwaits, -⟩ := hran.of_ok
      exact .pending hmoves hcalm hwaits
  · rw [pollReadLoop_of_ne_nil w hbuffer]
    exact readRan_deliver (.refl w s) calm_nil rfl (List.append_nil _) hs hbuffer capacity

theorem readRan_pollRead (w : World H M) (hs : Tidy s) (capacity : ℕ) :
    ReadRan w s (pollRead w s capacity) := by
  unfold pollRead
  split
  · exact .delivered (.refl w s) calm_nil rfl (List.append_nil _)
  · exact readRan_pollReadLoop w hs capacity

end Reading

end Async

end Reqx.Stream
