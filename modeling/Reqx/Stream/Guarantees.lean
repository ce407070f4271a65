import Reqx.Driver.Run
import Reqx.Stream.Lives

/-!
# What holds of every stream

Three results about the whole life of a response stream, for both stream
types, whatever the transport, the clock and the writer answer: no byte is
lost or repeated, a helper succeeds on a whole body, and one outcome is
recorded.
-/

namespace Reqx.Stream

open Driver (Runtime)

variable {T H M : Type} {rt : Runtime}

namespace Opening

variable (o : Opening rt H M)

theorem held_stream : Transport.held o.stream.body = true := by
  rcases o with ⟨_, _, _, _, metrics, _⟩
  cases rt <;> cases metrics <;> rfl

theorem log_stream : o.stream.log = [] := by
  rcases o with ⟨_, _, _, _, metrics, _⟩
  cases metrics <;> rfl

theorem completed_stream : o.stream.lifecycle.completed = false := by
  rcases o with ⟨_, _, _, _, metrics, hfresh⟩
  cases metrics <;> exact hfresh

theorem permits_stream : o.stream.globalPermit = o.context.globalPermit ∧
    o.stream.hostPermit = o.context.hostPermit := by
  rcases o with ⟨_, _, _, _, metrics, _⟩
  cases metrics <;> exact ⟨rfl, rfl⟩

theorem tidy_stream : Tidy o.stream := fun hheld ↦ by
  rw [o.held_stream] at hheld
  cases hheld

theorem remaining_stream : remaining o.stream = o.bytes := by
  rcases o with ⟨_, _, _, _, metrics, _⟩
  cases rt <;> cases metrics <;> rfl

variable (w : World H M) (capacities : List ℕ)

theorem reading : Reading w o.stream (o.results w capacities) (o.afterReads w capacities) :=
  reading_readAll rt w o.tidy_stream capacities

theorem tidy_afterReads : Tidy (o.afterReads w capacities) :=
  (o.reading w capacities).tidy o.tidy_stream

end Opening

/-! ## Small streams

A world in which nothing goes wrong, for runs on concrete inputs. -/

namespace Sample

def world : World Unit Unit where
  now _ := 0
  timerElapsed _ := false
  abandons _ := false
  writer _ := .done
  taken _ := 0

theorem smooth_world (log : List (Event Unit Unit)) : world.SmoothFrom log none :=
  ⟨nofun, fun _ ↦ rfl, fun _ ↦ rfl, fun _ ↦ rfl⟩

def opening (rt : Runtime) (source : SourceOf rt) : Opening rt Unit Unit where
  status := Driver.Sample.ok
  headers := ⟨[]⟩
  source
  context :=
    { method := .get
      uriRedacted := "https://a.test".toList
      timeoutMs := 1000
      timing := ⟨none, none⟩
      deadlineSlack := 0
      lifecycle := .new ()
      globalPermit := true
      hostPermit := false }
  metrics := some ()
  fresh := rfl

def noCodecs : Codecs := Driver.Sample.client.codecs

def zeros (n : ℕ) : Bytes := List.replicate n 0

theorem length_zeros (n : ℕ) : (zeros n).length = n := List.length_replicate

def dataFrames (chunks : List Bytes) : Opening .async Unit Unit :=
  opening .async (chunks.map FramePoll.data)

theorem faultless_dataFrames (chunks : List Bytes) :
    Transport.Faultless (dataFrames chunks).stream.body := by
  intro source hmem
  obtain ⟨chunk, -, heq⟩ := List.mem_map.mp (hmem : FramePoll.failed source ∈ chunks.map .data)
  cases heq

theorem remaining_dataFrames (chunks : List Bytes) :
    remaining ((dataFrames chunks).afterReads world []) = chunks.flatten := by
  refine (dataFrames chunks).remaining_stream.trans ?_
  exact (List.flatMap_map _ _ _).trans List.flatMap_id'

/-- Three bytes in two frames, with all that can come between them. -/
def three : Opening .async Unit Unit :=
  opening .async [.data [1, 2], .data [], .pending, .trailers, .data [3]]

theorem faultless_three : Transport.Faultless three.stream.body := by
  intro source hmem
  have hmem' : FramePoll.failed source ∈ [.data [1, 2], .data [], .pending, .trailers, .data [3]] :=
    hmem
  simp at hmem'

/-- A body that breaks off after its first byte. -/
def brokenFrames : Opening .async Unit Unit := opening .async [.data [1], .failed []]

def brokenReader : Opening .blocking Unit Unit :=
  opening .blocking ⟨[1, 2], [.piece 0, .error ⟨.unexpectedEof, "", false⟩]⟩

end Sample

/-! ## Bytes -/

/-- The helper hands out the bytes as they came. -/
def Helper.isRaw : Helper → Bool
  | .intoResponseLimited _ => false
  | _ => true

/-- The bytes a helper has delivered: in its output, or to the writer. -/
def handedOut (output : Output) (es : List (Event H M)) : Bytes :=
  match output with
  | .bytes body => body
  | .response _ _ body => body
  | .copied _ => written es

section Bytes

variable [Transport T] {w : World H M} {s s' : ResponseStream T H M} {codecs : Codecs}
  {helper : Helper} {result : Except Stop Output}

variable {output : Output}

theorem Delivers.handedOut_eq {es : List (Event H M)} (h : Delivers codecs helper s es output)
    (hraw : helper.isRaw) : handedOut output es = remaining s := by
  cases helper with
  | intoBytesLimited maxBytes =>
    obtain ⟨-, rfl⟩ := h
    rfl
  | intoResponseLimited maxBytes => cases hraw
  | copyToWriter =>
    obtain ⟨hwritten, rfl, -⟩ := h
    exact hwritten
  | copyToWriterLimited maxBytes =>
    obtain ⟨hwritten, rfl, -⟩ := h
    exact hwritten

theorem Delivers.written_isPrefix {es : List (Event H M)} (h : Delivers codecs helper s es output) :
    written es <+: remaining s := by
  cases helper with
  | intoBytesLimited maxBytes => exact h.1 ▸ List.nil_prefix
  | intoResponseLimited maxBytes => exact h.1 ▸ List.nil_prefix
  | copyToWriter => exact h.1 ▸ List.prefix_rfl
  | copyToWriterLimited maxBytes => exact h.1 ▸ List.prefix_rfl

theorem handedOut_append {es es' : List (Event H M)} (h : written es' = []) :
    handedOut output (es ++ es') = handedOut output es := by
  cases output with
  | bytes body => rfl
  | response status headers body => rfl
  | copied count => rw [handedOut, written_append, h, List.append_nil, handedOut]

/-- What a helper wrote, and what it handed out if it succeeded. -/
theorem HelperRan.handedOut_eq (h : HelperRan w codecs helper s (result, s'))
    (hraw : helper.isRaw) :
    ∃ es, s'.log = s.log ++ es ∧ written es <+: remaining s ∧
      Fits helper.maxBytes (written es).length ∧
      ∀ output, result = .ok output → handedOut output es = remaining s ∧ remaining s' = [] := by
  cases h with
  | @ok es s₁ output hmoves hcalm hwhole =>
    obtain ⟨es', hlog, -, hwritten⟩ := hmoves.log_complete .success
    have hprefix := hwhole.delivers.written_isPrefix
    refine ⟨es ++ es', hlog, ?_, ?_, ?_⟩
    · rwa [written_append, hwritten, List.append_nil]
    · rw [written_append, hwritten, List.append_nil]
      exact hwhole.fits.mono hprefix.length_le
    · rintro _ ⟨⟩
      rw [handedOut_append hwritten]
      exact ⟨hwhole.delivers.handedOut_eq hraw, remaining_complete _ _⟩
  | @failed es s₁ error hmoves hcut =>
    obtain ⟨es', hlog, -, hwritten⟩ := hmoves.log_complete (.error error)
    refine ⟨es ++ es', hlog, ?_, ?_, nofun⟩
    · rw [written_append, hwritten, List.append_nil]
      exact hcut.written_isPrefix
    · rw [written_append, hwritten, List.append_nil]
      exact hcut.fits
  | abandoned hmoves hcut =>
    exact ⟨_, hmoves.log_eq, hcut.written_isPrefix, hcut.fits, nofun⟩

theorem HelperRan.endReported {x : StreamAttempt T H M Output}
    (h : HelperRan w codecs helper s x) (hok : x.1 = .ok output)
    (hs : Transport.held s.body ∨ EndReported s.log) : EndReported x.2.log := by
  cases h with
  | ok hmoves hcalm hwhole =>
    obtain ⟨es', hlog, -, -⟩ := hmoves.log_complete .success
    rw [ResponseStream.completeSuccess, hlog]
    rcases hs with hheld | hend
    · exact (hwhole.drained.2 hheld).append_right.append_left
    · exact hend.append_right
  | failed => cases hok
  | abandoned => cases hok

/-- When nothing outside goes wrong, only the limit decides. -/
theorem HelperRan.isOk_iff (h : HelperRan w codecs helper s (result, s')) (hraw : helper.isRaw)
    (hw : w.SmoothFrom s.log s.timing.deadlineAt) (hbody : Transport.Faultless s.body) :
    result.isOk ↔ Fits helper.maxBytes (remaining s).length := by
  have hfails {es : List (Event H M)} {s₁ : ResponseStream T H M} (hmoves : Moves w s es s₁)
      (hcut : Cut helper s es) : ¬Fits helper.maxBytes (remaining s).length := by
    rcases hcut.why with hcalm | hfits | ⟨maxBytes, error, rfl, -⟩
    · exact absurd (hmoves.smooth hw hbody).1 hcalm
    · exact hfits
    · cases hraw
  cases h with
  | ok hmoves hcalm hwhole => exact iff_of_true rfl hwhole.fits
  | failed hmoves hcut => exact iff_of_false nofun (hfails hmoves hcut)
  | abandoned hmoves hcut => exact iff_of_false nofun (hfails hmoves hcut)

end Bytes

section Exact

variable (w : World H M) (codecs : Codecs) (o : Opening rt H M) (capacities : List ℕ)

/-- As long as no read fails, what was delivered and what remains make up the body. A helper
delivers a part of the rest within its limit, all of it if it succeeds, and unless something
else goes wrong it succeeds when the rest is within the limit. -/
theorem stream_bytes_exact (helper : Helper) (hraw : helper.isRaw) :
    ((∀ result ∈ o.results w capacities, result.isOk) →
      delivered (o.results w capacities) ++ remaining (o.afterReads w capacities) = o.bytes) ∧
    (∃ es, (consume rt w (o.afterReads w capacities) codecs helper).2.log =
        (o.afterReads w capacities).log ++ es ∧
      written es <+: remaining (o.afterReads w capacities) ∧
      Fits helper.maxBytes (written es).length ∧
      ∀ output, (consume rt w (o.afterReads w capacities) codecs helper).1 = .ok output →
        handedOut output es = remaining (o.afterReads w capacities) ∧
        remaining (consume rt w (o.afterReads w capacities) codecs helper).2 = []) ∧
    (w.SmoothFrom [] o.stream.timing.deadlineAt → Transport.Faultless o.stream.body →
      (∀ result ∈ o.results w capacities, result.isOk) ∧
      ((consume rt w (o.afterReads w capacities) codecs helper).1.isOk ↔
        Fits helper.maxBytes (remaining (o.afterReads w capacities)).length)) := by
  have hreading := o.reading w capacities
  have hhelper := helperRan_consume rt w codecs helper (o.tidy_afterReads w capacities)
  rw [← o.remaining_stream]
  refine ⟨hreading.delivered_append, hhelper.handedOut_eq hraw, fun hw hbody ↦ ?_⟩
  rw [← o.log_stream] at hw
  obtain ⟨hok, hw', hbody'⟩ := hreading.smooth hw hbody
  exact ⟨hok, hhelper.isOk_iff hraw hw' hbody'⟩

open Reqx.Stream.Sample in
theorem stream_bytes_exact_three :
    (consume .async world (three.afterReads world [1]) noCodecs (.copyToWriterLimited 2)).1.isOk ∧
      ¬(consume .async world (three.afterReads world [1]) noCodecs
        (.copyToWriterLimited 1)).1.isOk := by
  have hlength : (remaining (three.afterReads world [1])).length = 2 := by decide +kernel
  have htwo := (stream_bytes_exact world noCodecs three [1] (.copyToWriterLimited 2) rfl).2.2
    (smooth_world []) faultless_three
  have hone := (stream_bytes_exact world noCodecs three [1] (.copyToWriterLimited 1) rfl).2.2
    (smooth_world []) faultless_three
  rw [htwo.2, hone.2, hlength]
  exact ⟨fits_some_iff.mpr (by decide), fun hfits ↦ fits_some_iff.mp hfits (by decide)⟩

/-- The counter of a copy stops at `usize::MAX`, so this limit lets everything through. -/
theorem copy_limited_usizeMax_isOk (hw : w.SmoothFrom [] o.stream.timing.deadlineAt)
    (hbody : Transport.Faultless o.stream.body) :
    (consume rt w (o.afterReads w capacities) codecs (.copyToWriterLimited usizeMax)).1.isOk := by
  have hhelper := helperRan_consume rt w codecs (.copyToWriterLimited usizeMax)
    (o.tidy_afterReads w capacities)
  rw [← o.log_stream] at hw
  obtain ⟨-, hw', hbody'⟩ := (o.reading w capacities).smooth hw hbody
  refine (hhelper.isOk_iff rfl hw' hbody').mpr fun limit hlimit ↦ .inr ?_
  cases hlimit
  exact le_rfl

open Reqx.Stream.Sample in
theorem copy_limited_exceeds_usizeMax :
    let o := dataFrames [zeros (2 ^ 63 - 1), zeros (2 ^ 63 - 1), zeros 2]
    usizeMax < (remaining (o.afterReads world [])).length ∧
      (consume .async world (o.afterReads world []) noCodecs
        (.copyToWriterLimited usizeMax)).1.isOk := by
  refine ⟨?_, copy_limited_usizeMax_isOk world noCodecs _ [] (smooth_world [])
    (faultless_dataFrames _)⟩
  rw [remaining_dataFrames]
  simp only [List.flatten_cons, List.flatten_nil, List.length_append, List.length_nil,
    length_zeros, usizeMax]
  decide

/-! ## Whole bodies -/

/-- A helper that succeeds has seen the end of the body, and no read failed before, exactly if
no answer to those reads was a failure. -/
theorem helper_success_whole_iff (helper : Helper) {output : Output}
    (hok : (consume rt w (o.afterReads w capacities) codecs helper).1 = .ok output) :
    (EndReported (consume rt w (o.afterReads w capacities) codecs helper).2.log ∧
      ∀ result ∈ o.results w capacities, result.isOk) ↔
    Calm (o.afterReads w capacities).log := by
  have hreading := o.reading w capacities
  obtain ⟨es, hlog, hcalm⟩ := hreading.calm_iff
  rw [o.log_stream, List.nil_append] at hlog
  rw [hlog, hcalm]
  refine ⟨And.right, fun hoks ↦ ⟨?_, hoks⟩⟩
  have hopen := hreading.held_or_ended hoks (.inl o.held_stream)
  have hhelper := helperRan_consume rt w codecs helper (o.tidy_afterReads w capacities)
  exact hhelper.endReported hok hopen

open Reqx.Stream.Sample in
theorem helper_success_whole_iff_three :
    EndReported (consume .async world (three.afterReads world [1]) noCodecs
      (.intoBytesLimited 2)).2.log ∧ ∀ result ∈ three.results world [1], result.isOk := by
  have hok : (consume .async world (three.afterReads world [1]) noCodecs
      (.intoBytesLimited 2)).1 = .ok (.bytes [2, 3]) := by
    decide +kernel
  exact (helper_success_whole_iff world noCodecs three [1] _ hok).mpr (by decide +kernel)

open Reqx.Stream.Sample in
/-- After a read that failed, a helper takes the stream for an empty one. -/
theorem helper_succeeds_after_failed_read :
    (brokenFrames.results world [1, 1] = [.ok (.ready [1]), .error (.failed (.readBody []))] ∧
      (consume .async world (brokenFrames.afterReads world [1, 1]) noCodecs
        (.intoBytesLimited 0)).1 = .ok (.bytes []) ∧
      ¬EndReported (consume .async world (brokenFrames.afterReads world [1, 1]) noCodecs
        (.intoBytesLimited 0)).2.log) ∧
    (brokenReader.results world [1, 1] = [.ok (.ready [1]), .error (.failed (.readBody [[]]))] ∧
      (consume .blocking world (brokenReader.afterReads world [1, 1]) noCodecs
        (.intoBytesLimited 0)).1 = .ok (.bytes []) ∧
      ¬EndReported (consume .blocking world (brokenReader.afterReads world [1, 1]) noCodecs
        (.intoBytesLimited 0)).2.log) := by
  decide +kernel

end Exact

/-! ## One outcome -/

section Outcome

variable [Transport T] {w : World H M} {s₀ s s' : ResponseStream T H M}

theorem Phase.helper {codecs : Codecs} {helper : Helper} {result : Except Stop Output}
    (h : Phase w EndReported s₀ s) (hheld : Transport.held s₀.body)
    (hhelper : HelperRan w codecs helper s (result, s')) :
    Phase w (fun es ↦ EndReported es ∧ (s.lifecycle.completed = false → helper.Finished es))
      s₀ s' := by
  have hphase : Phase w
      (fun es ↦ EndReported es ∧ (s.lifecycle.completed = false → helper.Finished es)) s₀ s := by
    cases h with
    | opened hmoves => exact .opened hmoves
    | closed hmoves hdone hafter =>
      refine .closed hmoves (fun hc ↦ ⟨hdone hc, fun hopen ↦ ?_⟩) hafter
      rw [hafter.lifecycle_eq, completed_complete] at hopen
      cases hopen
  cases hhelper with
  | ok hmoves _ hwhole =>
    refine hphase.complete hmoves fun es₀ hbefore _ ↦ ⟨?_, fun _ ↦ ?_⟩
    · exact (hwhole.drained.2 (hbefore.held.trans hheld)).append_left
    · exact hwhole.delivers.finished.append_left
  | failed hmoves => exact hphase.complete hmoves nofun
  | abandoned hmoves => exact hphase.moves hmoves

end Outcome

namespace Use

variable (u : Use) (w : World H M) (codecs : Codecs) (o : Opening rt H M)

/-- What the log has to say before a success is recorded: the end of the body, and what the
helper waits for if it found the stream open. -/
def Done (es : List (Event H M)) : Prop :=
  EndReported es ∧ ∀ helper, u.helper = some helper →
    (u.afterReads w o).lifecycle.completed = false → helper.Finished es

theorem phase_afterReads : Phase w EndReported o.stream (u.afterReads w o) :=
  Phase.reading (o.reading w u.reads) (.opened (.refl w _)) o.held_stream

theorem phase_afterHelper : Phase w (u.Done w o) o.stream (u.afterHelper w codecs o) := by
  have hphase := u.phase_afterReads w o
  unfold afterHelper
  split
  · next hnone =>
    have hdone (es : List (Event H M)) (hend : EndReported es) : u.Done w o es :=
      ⟨hend, fun helper hsome ↦ by rw [hnone] at hsome; cases hsome⟩
    exact hphase.mono hdone
  · next helper hsome =>
    have hhelper := helperRan_consume rt w codecs helper (o.tidy_afterReads w u.reads)
    refine (hphase.helper o.held_stream hhelper).mono ?_
    rintro es ⟨hend, hfinished⟩
    refine ⟨hend, fun helper' hsome' ↦ ?_⟩
    cases hsome.symm.trans hsome'
    exact hfinished

theorem phase_run : Phase w (u.Done w o) o.stream (u.run w codecs o) := by
  have hphase := u.phase_afterHelper w codecs o
  unfold run
  split
  · exact hphase.complete (.refl w _) nofun
  · exact hphase

theorem dropped_of_open (hopen : (u.run w codecs o).lifecycle.completed = false) :
    u.dropped = false := by
  by_contra hdropped
  rw [Bool.not_eq_false] at hdropped
  rw [run, if_pos hdropped, ResponseStream.drop, completed_complete] at hopen
  cases hopen

/-- In every life of a stream one outcome is recorded, the same on the hooks and on the
metrics. That releases the transport and the permits, and the transport is never asked
again. -/
theorem one_terminal_outcome :
    ((u.run w codecs o).lifecycle.completed = false →
      u.dropped = false ∧ Transport.held (u.run w codecs o).body = true ∧
        (u.run w codecs o).globalPermit = o.context.globalPermit ∧
        (u.run w codecs o).hostPermit = o.context.hostPermit ∧
        ∀ e ∈ (u.run w codecs o).log, e.isRecord = false) ∧
    ((u.run w codecs o).lifecycle.completed = true →
      (u.run w codecs o).body = Transport.released ∧
        (u.run w codecs o).globalPermit = false ∧ (u.run w codecs o).hostPermit = false ∧
        ∃ c before after,
          (u.run w codecs o).log = before ++ o.stream.lifecycle.records c ++ after ∧
          (∀ e ∈ before ++ after, e.isRecord = false) ∧
          (∀ e ∈ after, e.isTransport = false) ∧ (c = .success → u.Done w o before)) := by
  have hphase := u.phase_run w codecs o
  refine ⟨fun hopen ↦ ⟨u.dropped_of_open w codecs o hopen, ?_⟩, fun hclosed ↦ ?_⟩
  · obtain ⟨es, hmoves⟩ := (hphase.completed_iff o.completed_stream).mp hopen
    obtain ⟨hglobal, hhost⟩ := o.permits_stream
    refine ⟨hmoves.held.trans o.held_stream, ?_, ?_, ?_⟩
    · rw [hmoves.eq]
      exact hglobal
    · rw [hmoves.eq]
      exact hhost
    · rw [hmoves.log_eq, o.log_stream]
      exact hmoves.unrecorded
  · cases hphase with
    | opened hmoves =>
      rw [hmoves.lifecycle_eq, o.completed_stream] at hclosed
      cases hclosed
    | @closed es es' s₁ s c hmoves hdone hafter =>
      have hafter' := hafter.untouched Transport.held_released
      refine ⟨hafter'.1, ?_, ?_, c, es, es', ?_, ?_, hafter'.2, hdone⟩
      · rw [hafter.eq]
        rfl
      · rw [hafter.eq]
        rfl
      · rw [hafter.log_eq, log_complete_of_open (hmoves.lifecycle_eq ▸ o.completed_stream),
          hmoves.log_eq, hmoves.lifecycle_eq, o.log_stream, List.nil_append]
      · exact List.forall_mem_append.mpr ⟨hmoves.unrecorded, hafter.unrecorded⟩

end Use

end Reqx.Stream
