import Reqx.Upload.Progress

/-!
# How a run ends

A run that gets past the checks of its options and its checkpoint goes through
the loop, calls `complete_upload` when the source has ended with every part
present, and aborts if it is configured to and something failed.
-/

namespace Reqx.Upload

variable {E σ : Type}

theorem mapM_eq_ok {α β ε : Type} {f : α → Except ε β} {l : List α}
    (h : ∀ x ∈ l, ∃ y, f x = .ok y) :
    ∃ ys, l.mapM f = .ok ys ∧ List.Forall₂ (fun x y ↦ f x = .ok y) l ys := by
  induction l with
  | nil => exact ⟨[], rfl, .nil⟩
  | cons x l ih =>
    obtain ⟨y, hy⟩ := h x List.mem_cons_self
    obtain ⟨ys, hys, hall⟩ := ih fun z hz ↦ h z (List.mem_cons_of_mem x hz)
    refine ⟨y :: ys, ?_, .cons hy hall⟩
    rw [List.mapM_cons, hy, hys]
    rfl

/-- Where a run begins. -/
inductive Start where
  | fresh
  | resume (checkpoint : ResumableUploadCheckpoint)

namespace ResumableUploader

variable (u : ResumableUploader E σ)

def run (begins : Start) (reader : SourceReader) (state : σ) :
    Logged (Event E) (Except (ResumableUploadError E) ResumableUploadResult × σ) :=
  match begins with
  | .fresh => u.upload reader state
  | .resume checkpoint => u.resume reader checkpoint state

/-- The calls before the session, and the checkpoint the session starts from. -/
inductive Opened : Start → List (Event E) → ResumableUploadCheckpoint → Bool → Prop
  | fresh (uploadId : Text) :
      Opened .fresh [.createUpload (.ok uploadId)] (u.freshCheckpoint uploadId) false
  | resumed (checkpoint : ResumableUploadCheckpoint) :
      Opened (.resume checkpoint) [] checkpoint true

variable (source : Bytes) (start : ResumableUploadCheckpoint)

/-- The source has ended, and these are its parts in order. -/
structure Ordered (log : List (Event E)) (parts : Parts) (blocks : List (Block E))
    (ordered : List UploadedPart) : Prop extends u.Progress source start log parts blocks where
  ended : .read (.ok []) ∈ log
  all : chunksRead log = Chunks.count u.options.partSize source
  pos : 0 < Chunks.count u.options.partSize source
  length_eq : ordered.length = Chunks.count u.options.partSize source
  get : ∀ (i : ℕ) (key : UInt32), key.toNat = i + 1 → i < ordered.length →
    ordered[i]? = parts[key]?

section Completion

variable {u source start} {log : List (Event E)} {parts : Parts} {blocks : List (Block E)}

theorem Progress.totalParts_toNat (h : u.Progress source start log parts blocks) (resumed : Bool) :
    (sessionAt source start resumed (chunksRead log) parts).totalParts.toNat = chunksRead log := by
  have hlt := h.lt_size
  have hmin : min (chunksRead log + 1 - 1) maxResumableUploadPartNumber.toNat = chunksRead log :=
    min_eq_left (Nat.le_of_lt_succ hlt)
  rw [ResumableUploadSession.totalParts, sessionAt, hmin]
  exact UInt32.toNat_ofNat_of_lt hlt

theorem completedPart_eq_ok_iff {s : ResumableUploadSession} {key : UInt32} {part : UploadedPart} :
    s.completedPart (E := E) key = .ok part ↔ s.parts[key]? = some part := by
  rw [ResumableUploadSession.completedPart, ResumableUploadSession.parts]
  cases s.checkpoint.completedParts[key]? <;> simp

theorem Progress.orderedParts (h : u.Progress source start log parts blocks) (resumed : Bool) :
    ∃ ordered,
      (sessionAt source start resumed (chunksRead log) parts).orderedParts (E := E) = .ok ordered ∧
      ordered.length = chunksRead log ∧
      ∀ (i : ℕ) (key : UInt32), key.toNat = i + 1 → i < ordered.length →
        ordered[i]? = parts[key]? := by
  have hfound : ∀ current ∈ List.range' 1 (chunksRead log), ∃ part,
      (sessionAt source start resumed (chunksRead log) parts).completedPart (E := E)
        (.ofNat current) = .ok part := by
    intro current hcurrent
    obtain ⟨hpos, hle⟩ := List.mem_range'_1.mp hcurrent
    have hlt := h.lt_size
    have htoNat : (UInt32.ofNat current).toNat = current := UInt32.toNat_ofNat_of_lt (by omega)
    obtain ⟨part, hpart, -⟩ := h.present (.ofNat current) (by omega) (by omega)
    exact ⟨part, completedPart_eq_ok_iff.mpr hpart⟩
  obtain ⟨ordered, hordered, hall⟩ := mapM_eq_ok hfound
  obtain ⟨hlength, hget⟩ := List.forall₂_iff_get.mp hall
  rw [List.length_range'] at hlength
  refine ⟨ordered, ?_, hlength.symm, fun i key hi hlt ↦ ?_⟩
  · rw [ResumableUploadSession.orderedParts, h.totalParts_toNat resumed]
    exact hordered
  · have hi' := completedPart_eq_ok_iff.mp (hget i (by rw [List.length_range']; omega) hlt)
    rw [List.get_eq_getElem, List.getElem_range', Nat.one_mul, Nat.add_comm, ← hi,
      UInt32.ofNat_toNat] at hi'
    rw [List.getElem?_eq_getElem hlt]
    exact hi'.symm

theorem Progress.ordered (h : u.Progress source start log parts blocks) (resumed : Bool)
    (hended : .read (.ok []) ∈ log)
    (hall : Chunks.count u.options.partSize source ≤ chunksRead log) :
    Chunks.count u.options.partSize source = 0 ∧
      (sessionAt source start resumed (chunksRead log) parts).orderedCompletedParts (E := E) =
        .error (.emptyUploadBody { start with completedParts := parts }) ∨
      ∃ ordered, (sessionAt source start resumed (chunksRead log) parts).orderedCompletedParts
        (E := E) = .ok ordered ∧ u.Ordered source start log parts blocks ordered := by
  have hcount : chunksRead log = Chunks.count u.options.partSize source :=
    le_antisymm h.le_count hall
  have htotal := h.totalParts_toNat resumed
  unfold ResumableUploadSession.orderedCompletedParts
  split_ifs with hzero
  · exact .inl ⟨hcount ▸ htotal ▸ congrArg UInt32.toNat hzero, rfl⟩
  · obtain ⟨ordered, hordered, hlength, hget⟩ := h.orderedParts resumed
    have hpos : chunksRead log ≠ 0 := fun heq ↦ hzero (UInt32.toNat_inj.mp (htotal.trans heq))
    refine .inr ⟨ordered, hordered, h, hended, hcount, ?_, hlength.trans hcount, hget⟩
    omega

end Completion

/-- How the loop and the completion end, before any abort. -/
inductive PartsEnded (resumed : Bool) : List (Event E) →
    Except (ResumableUploadError E) (List UploadedPart) → ResumableUploadSession → Prop
  | completed {log : List (Event E)} {parts : Parts} {blocks : List (Block E)}
      {ordered : List UploadedPart} {session : ResumableUploadSession}
      (done : u.Ordered source start log parts blocks ordered)
      (session_eq : session = sessionAt source start resumed (chunksRead log) parts) :
      PartsEnded resumed (log ++ [.completeUpload start.uploadId ordered (.ok ())]) (.ok ordered)
        session
  | rejected {log : List (Event E)} {parts : Parts} {blocks : List (Block E)}
      {ordered : List UploadedPart} {session : ResumableUploadSession}
      (done : u.Ordered source start log parts blocks ordered)
      (checkpoint : session.checkpoint = { start with completedParts := parts }) (refusal : E) :
      PartsEnded resumed (log ++ [.completeUpload start.uploadId ordered (.error refusal)])
        (.error (.completeFailed session.checkpoint refusal)) session
  | failed {log : List (Event E)} {parts : Parts} {blocks : List (Block E)}
      {error : ResumableUploadError E} {session : ResumableUploadSession}
      (trail : u.Trail source start log parts blocks)
      (checkpoint : session.checkpoint = { start with completedParts := parts })
      (carried : error.checkpoint = some session.checkpoint)
      (tooMany : UInt32.size ≤ chunksRead log → error =
        .tooManyUploadParts UInt32.size maxResumableUploadPartNumber session.checkpoint) :
      PartsEnded resumed log (.error error) session

/-- How a run ends that got past the checks: it may abort after a failure. -/
inductive RunEnded (resumed : Bool) : List (Event E) →
    Except (ResumableUploadError E) ResumableUploadResult → Prop
  | succeeded {log : List (Event E)} {ordered : List UploadedPart}
      {session : ResumableUploadSession}
      (parts : u.PartsEnded source start resumed log (.ok ordered) session) :
      RunEnded resumed log (.ok (session.finish ordered))
  | kept {log : List (Event E)} {error : ResumableUploadError E}
      {session : ResumableUploadSession}
      (parts : u.PartsEnded source start resumed log (.error error) session)
      (configured : u.options.abortOnError = false) :
      RunEnded resumed log (.error error)
  | aborted {log : List (Event E)} {error : ResumableUploadError E}
      {session : ResumableUploadSession}
      (parts : u.PartsEnded source start resumed log (.error error) session)
      (configured : u.options.abortOnError = true) :
      RunEnded resumed (log ++ [.abortUpload start.uploadId (.ok ())]) (.error error)
  | abortFailed {log : List (Event E)} {error : ResumableUploadError E}
      {session : ResumableUploadSession}
      (parts : u.PartsEnded source start resumed log (.error error) session)
      (configured : u.options.abortOnError = true) (refusal : E) :
      RunEnded resumed (log ++ [.abortUpload start.uploadId (.error refusal)])
        (.error (.abortFailed start.uploadId error refusal))

/-- A run that stopped before its session, or one that had a session. -/
inductive Ran (begins : Start) : List (Event E) →
    Except (ResumableUploadError E) ResumableUploadResult → Prop
  | badOptions {error : ResumableUploadError E} (invalid : u.options.validate = .error error) :
      Ran begins [] (.error error)
  | notCreated (begins_eq : begins = .fresh) (refusal : E) :
      Ran begins [.createUpload (.error refusal)] (.error (.createFailed refusal))
  | badCheckpoint {opening : List (Event E)} {start : ResumableUploadCheckpoint} {resumed : Bool}
      {error : ResumableUploadError E} (opened : u.Opened begins opening start resumed)
      (invalid : validateCheckpoint u.options start = .error error) :
      Ran begins opening (.error error)
  | session {opening log : List (Event E)} {start : ResumableUploadCheckpoint} {resumed : Bool}
      {result : Except (ResumableUploadError E) ResumableUploadResult}
      (opened : u.Opened begins opening start resumed)
      (valid : validateCheckpoint (E := E) u.options start = .ok ())
      (options : u.options.validate (E := E) = .ok ())
      (ended : u.RunEnded source start resumed log result) :
      Ran begins (opening ++ log) result

section Runs

variable {u source start} {resumed : Bool}

theorem progress_nil (hvalid : validateCheckpoint (E := E) u.options start = .ok ()) :
    u.Progress source start [] start.completedParts [] := by
  obtain ⟨-, -, -, -, hkeys⟩ := validateCheckpoint_eq_ok_iff.mp hvalid
  refine ⟨⟨Nat.zero_le _, rfl, ?_, nofun, .nil, nofun⟩, Nat.succ_pos _, nofun, ?_⟩
  · intro key part
    refine ⟨fun hpart ↦ .inr ⟨hpart, .inl ?_⟩, ?_⟩
    · exact Nat.pos_of_ne_zero fun hzero ↦ (hkeys key part hpart).1 (UInt32.toNat_inj.mp hzero)
    · rintro (hmem | ⟨hpart, -⟩)
      · cases hmem
      · exact hpart
  · intro key hpos hle
    exact absurd hle (not_le.mpr hpos)

theorem completeParts_spec {log : List (Event E)} {parts : Parts} {blocks : List (Block E)}
    (h : u.Progress source start log parts blocks) (hended : .read (.ok []) ∈ log)
    (hall : Chunks.count u.options.partSize source ≤ chunksRead log) (state : σ) :
    Logged.Ensures
      (u.completeParts (sessionAt source start resumed (chunksRead log) parts) state) fun log' r ↦
      u.PartsEnded source start resumed (log ++ log') r.1 r.2.1 := by
  unfold completeParts
  rcases h.ordered resumed hended hall with ⟨-, herror⟩ | ⟨ordered, hordered, hdone⟩
  · rw [herror]
    refine Logged.ensures_pure.mpr ?_
    rw [List.append_nil]
    exact .failed h.toTrail rfl rfl fun hle ↦ absurd h.lt_size (not_lt.mpr hle)
  · rw [hordered]
    split
    · next heq => cases heq
    · next heq =>
      obtain rfl := Except.ok.inj heq
      rcases u.backend.completeUpload state
        (sessionAt source start resumed (chunksRead log) parts).uploadId ordered with
        ⟨reply, state'⟩
      cases reply with
      | error refusal => exact .rejected hdone rfl refusal
      | ok _ => exact .completed hdone rfl

variable {reader : SourceReader}

theorem uploadLoop_ended (hoptions : u.options.validate (E := E) = .ok ())
    (hvalid : validateCheckpoint (E := E) u.options start = .ok ())
    (hreader : reader.source = source) (state : σ) :
    Logged.Ensures (u.uploadLoop ⟨start, resumed, 0, 1⟩ reader state) fun log r ↦
      u.LoopEnded source start resumed log r.1 r.2.1 := by
  obtain ⟨hsize, hattempts⟩ := u.options.of_validate hoptions
  obtain ⟨-, hstart, -⟩ := validateCheckpoint_eq_ok_iff.mp hvalid
  have hbegin : (⟨start, resumed, 0, 1⟩ : ResumableUploadSession) =
      sessionAt source start resumed (chunksRead ([] : List (Event E))) start.completedParts := by
    simp [sessionAt, chunksRead]
  rw [hbegin]
  exact uploadLoop_spec hsize hattempts hstart (progress_nil hvalid)
    (by simp [hreader, chunksRead]) state

theorem uploadParts_spec (hoptions : u.options.validate (E := E) = .ok ())
    (hvalid : validateCheckpoint (E := E) u.options start = .ok ())
    (hreader : reader.source = source) (state : σ) :
    Logged.Ensures (u.uploadParts ⟨start, resumed, 0, 1⟩ reader state) fun log r ↦
      u.PartsEnded source start resumed log r.1 r.2.1 := by
  refine (uploadLoop_ended hoptions hvalid hreader state).bind ?_
  rintro log ⟨result, session, state'⟩ hend
  cases hend with
  | failed trail checkpoint carried tooMany =>
    refine Logged.ensures_pure.mpr ?_
    rw [List.append_nil]
    exact .failed trail checkpoint carried tooMany
  | finished progress ended all session_eq =>
    obtain rfl : session = sessionAt source start resumed (chunksRead log) _ := session_eq
    exact completeParts_spec progress ended all state'

theorem PartsEnded.uploadId_eq {log : List (Event E)}
    {result : Except (ResumableUploadError E) (List UploadedPart)}
    {session : ResumableUploadSession} (h : u.PartsEnded source start resumed log result session) :
    session.uploadId = start.uploadId := by
  cases h with
  | completed done session_eq => rw [session_eq]; rfl
  | rejected done checkpoint refusal => rw [ResumableUploadSession.uploadId, checkpoint]
  | failed trail checkpoint carried tooMany => rw [ResumableUploadSession.uploadId, checkpoint]

theorem uploadWithCheckpoint_spec (hoptions : u.options.validate (E := E) = .ok ())
    (hvalid : validateCheckpoint (E := E) u.options start = .ok ())
    (hreader : reader.source = source) (state : σ) :
    Logged.Ensures (u.uploadWithCheckpoint reader start resumed state) fun log r ↦
      u.RunEnded source start resumed log r.1 := by
  have hnew : ResumableUploadSession.new (E := E) u.options start resumed =
      .ok ⟨start, resumed, 0, 1⟩ := by
    rw [ResumableUploadSession.new, hvalid]
  rw [uploadWithCheckpoint, hnew]
  refine (uploadParts_spec hoptions hvalid hreader state).bind ?_
  rintro log ⟨result, session, state'⟩ hend
  have hid : session.uploadId = start.uploadId := hend.uploadId_eq
  cases result with
  | ok ordered =>
    refine Logged.ensures_pure.mpr ?_
    rw [List.append_nil]
    exact .succeeded hend
  | error error =>
    refine Logged.ensures_bind.mpr ?_
    rw [hid, abortErrorIfConfigured]
    cases hconfigured : u.options.abortOnError with
    | false =>
      refine Logged.ensures_pure.mpr (Logged.ensures_pure.mpr ?_)
      rw [List.append_nil, List.append_nil]
      exact .kept hend hconfigured
    | true =>
      rcases u.backend.abortUpload state' start.uploadId with ⟨reply, state''⟩
      cases reply with
      | error refusal => exact .abortFailed hend hconfigured refusal
      | ok _ => exact .aborted hend hconfigured

theorem ran_of_opened {begins : Start} {opening : List (Event E)}
    (hoptions : u.options.validate (E := E) = .ok ())
    (hopened : u.Opened begins opening start resumed) (hreader : reader.source = source)
    (state : σ) :
    Logged.Ensures (u.uploadWithCheckpoint reader start resumed state) fun log r ↦
      u.Ran source begins (opening ++ log) r.1 := by
  cases hvalid : validateCheckpoint (E := E) u.options start with
  | error error =>
    have hnew : ResumableUploadSession.new (E := E) u.options start resumed = .error error := by
      rw [ResumableUploadSession.new, hvalid]
    rw [uploadWithCheckpoint, hnew]
    refine Logged.ensures_pure.mpr ?_
    rw [List.append_nil]
    exact .badCheckpoint hopened hvalid
  | ok _ =>
    refine (uploadWithCheckpoint_spec hoptions hvalid hreader state).mono fun log r hend ↦ ?_
    exact .session hopened hvalid hoptions hend

theorem run_spec (begins : Start) (reader : SourceReader) (state : σ) :
    Logged.Ensures (u.run begins reader state) fun log r ↦ u.Ran reader.source begins log r.1 := by
  cases hoptions : u.options.validate (E := E) with
  | error error =>
    cases begins with
    | fresh =>
      rw [run, upload, hoptions]
      exact .badOptions hoptions
    | resume checkpoint =>
      rw [run, resume, hoptions]
      exact .badOptions hoptions
  | ok _ =>
    cases begins with
    | fresh =>
      rw [run, upload, hoptions]
      split
      · next heq => cases heq
      · rcases u.backend.createUpload state with ⟨reply, state'⟩
        cases reply with
        | error refusal => exact .notCreated rfl refusal
        | ok uploadId =>
          exact ran_of_opened hoptions (.fresh uploadId) rfl state'
    | resume checkpoint =>
      rw [run, resume, hoptions]
      exact ran_of_opened hoptions (.resumed checkpoint) rfl state

variable (u) in
theorem ran (begins : Start) (reader : SourceReader) (state : σ) :
    u.Ran reader.source begins (u.run begins reader state).events
      (u.run begins reader state).value.1 :=
  run_spec begins reader state

end Runs

end ResumableUploader

/-! ## A small uploader -/

namespace Sample

def options : ResumableUploadOptions :=
  { ResumableUploadOptions.default with
    partSize := 2
    maxAttempts := 2
    partChecksumAlgorithm := some .md5
    verifyRemoteEtag := true }

/-- The tokens are other spellings of the digest below. -/
def part (partNumber : UInt32) (data : Bytes) : UploadedPart :=
  ⟨partNumber, " \"AB\" ".toList, data.length, some "'aB'".toList⟩

def backend (refused : Option UInt32) : Backend Unit Unit where
  createUpload _ := (.ok "id".toList, ())
  uploadPart _ _ partNumber data :=
    if refused = some partNumber then (.error (), ()) else (.ok (part partNumber data), ())
  completeUpload _ _ _ := (.ok (), ())
  abortUpload _ _ := (.ok (), ())

def uploader (refused : Option UInt32) : ResumableUploader Unit Unit :=
  ⟨options, .async, ⟨fun _ ↦ [171], fun _ ↦ []⟩, backend refused, fun _ ↦ 0⟩

def reader : SourceReader := ⟨[1, 2, 3], [.piece 0, .error ⟨.interrupted, "", false⟩]⟩

def result : ResumableUploadResult := ⟨"id".toList, 3, 2, false, [part 1 [1, 2], part 2 [3]]⟩

theorem run_ok : ((uploader none).run .fresh reader ()).value.1 = .ok result := by
  have h : ((uploader none).run .fresh reader ()).value.1.toOption = some result := by
    decide +kernel
  cases hrun : ((uploader none).run .fresh reader ()).value.1 with
  | error error =>
    rw [hrun] at h
    cases h
  | ok other =>
    rw [hrun] at h
    exact congrArg _ (Option.some.inj h)

theorem run_error : ∃ error checkpoint,
    ((uploader (some 2)).run .fresh reader ()).value.1 = .error error ∧
      error.checkpoint = some checkpoint := by
  have h : (match ((uploader (some 2)).run .fresh reader ()).value.1 with
      | .error error => error.checkpoint.isSome
      | .ok _ => false) = true := by
    decide +kernel
  cases hrun : ((uploader (some 2)).run .fresh reader ()).value.1 with
  | error error =>
    rw [hrun] at h
    obtain ⟨checkpoint, hcheckpoint⟩ := Option.isSome_iff_exists.mp h
    exact ⟨error, checkpoint, rfl, hcheckpoint⟩
  | ok other =>
    rw [hrun] at h
    cases h

end Sample

end Reqx.Upload
