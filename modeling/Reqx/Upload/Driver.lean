import Reqx.Library.Chunks
import Reqx.Library.Logged
import Reqx.Upload.Session
import Reqx.Upload.Source

/-!
# The upload drivers

`upload` and `resume` of both runtimes. The backend is a machine of its own that
answers the four calls as it likes. A run leaves a log of the chunks it read, the
calls it made with their replies, and the pauses between them.
-/

namespace Reqx.Upload

open Driver (Runtime)

/-- The backend of the caller, with a state of its own. -/
structure Backend (E σ : Type) where
  createUpload : σ → Except E Text × σ
  uploadPart : σ → Text → UInt32 → Bytes → Except E UploadedPart × σ
  completeUpload : σ → Text → List UploadedPart → Except E Unit × σ
  abortUpload : σ → Text → Except E Unit × σ

inductive Event (E : Type) where
  | read (result : Except IoError Bytes)
  | createUpload (reply : Except E Text)
  | uploadPart (uploadId : Text) (partNumber : UInt32) (data : Bytes)
      (reply : Except E UploadedPart)
  | sleep (delay : ℕ)
  | completeUpload (uploadId : Text) (parts : List UploadedPart) (reply : Except E Unit)
  | abortUpload (uploadId : Text) (reply : Except E Unit)

/-- A pause of no length is no call of `sleep`. -/
def pause {E : Type} (delay : ℕ) : List (Event E) := if delay = 0 then [] else [.sleep delay]

/-- The uploader and what it runs on: `draw` is the random generator behind the jitter. -/
structure ResumableUploader (E σ : Type) where
  options : ResumableUploadOptions
  runtime : Runtime
  digests : Digests
  backend : Backend E σ
  draw : σ → ℕ

theorem lt_of_recordFailure_ok {E : Type} {options : ResumableUploadOptions}
    {session : ResumableUploadSession} {plan : UploadPartPlan} {attempt draw delay : ℕ} {source : E}
    (h : recordFailure options session plan attempt draw source = .ok delay) :
    attempt < options.maxAttempts := by
  unfold recordFailure at h
  split at h
  · cases h
  · omega

/-- Only a chunk that was read makes the loop go on, and it shortens the source. -/
theorem source_length_lt {rt : Runtime} {reader reader' : SourceReader} {partSize : ℕ}
    {chunk : Bytes} (hread : readChunk rt reader partSize = (.ok chunk, reader'))
    (hchunk : chunk ≠ []) : reader'.source.length < reader.source.length := by
  obtain ⟨rfl, hrest, -⟩ := readChunk_ok hread
  obtain ⟨hsize, hsource⟩ := not_or.mp (mt List.take_eq_nil_iff.mpr hchunk)
  have hpos := List.length_pos_iff.mpr hsource
  rw [hrest, List.length_drop]
  omega

namespace ResumableUploader

variable {E σ : Type} (u : ResumableUploader E σ)

def uploadPartWithRetries (session : ResumableUploadSession) (plan : UploadPartPlan) (attempt : ℕ)
    (state : σ) : Logged (Event E) (Except (ResumableUploadError E) UploadedPart × σ) :=
  let (reply, state) := u.backend.uploadPart state session.uploadId plan.partNumber plan.chunk
  do
    Logged.tell [.uploadPart session.uploadId plan.partNumber plan.chunk reply]
    match reply with
    | .ok part => return (.ok part, state)
    | .error source =>
      match h : recordFailure u.options session plan attempt (u.draw state) source with
      | .error error => return (.error error, state)
      | .ok delay =>
        have := lt_of_recordFailure_ok h
        Logged.tell (pause delay)
        uploadPartWithRetries session plan (attempt + 1) state
termination_by u.options.maxAttempts - attempt

/-- The loop over the chunks. -/
def uploadLoop (session : ResumableUploadSession) (reader : SourceReader) (state : σ) :
    Logged (Event E) (Except (ResumableUploadError E) Unit × ResumableUploadSession × σ) :=
  match hread : readChunk u.runtime reader u.options.partSize with
  | (.error source, _) => do
    Logged.tell [.read (.error source)]
    return (.error (session.sourceReadError source), session, state)
  | (.ok chunk, reader') => do
    Logged.tell [.read (.ok chunk)]
    match hnext : session.nextChunk u.digests u.options chunk with
    | (.error error, session) => return (.error error, session, state)
    | (.ok .finish, session) => return (.ok (), session, state)
    | (.ok .skip, session) =>
      have := source_length_lt hread (ResumableUploadSession.ne_nil_of_nextChunk hnext nofun)
      uploadLoop session reader' state
    | (.ok (.upload plan), session) =>
      have := source_length_lt hread (ResumableUploadSession.ne_nil_of_nextChunk hnext nofun)
      let (uploaded, state) ← u.uploadPartWithRetries session plan 1 state
      match uploaded with
      | .error error => return (.error error, session, state)
      | .ok uploaded =>
        match session.acceptUploadedPart u.options plan uploaded with
        | (.error error, session) => return (.error error, session, state)
        | (.ok (), session) => uploadLoop session reader' state
termination_by reader.source.length

section Equations

variable {u} {session : ResumableUploadSession} {plan : UploadPartPlan} {attempt : ℕ}
  {state state' : σ} {reader reader' : SourceReader} {chunk : Bytes}

theorem uploadPartWithRetries_ok {part : UploadedPart}
    (hcall : u.backend.uploadPart state session.uploadId plan.partNumber plan.chunk =
      (.ok part, state')) :
    u.uploadPartWithRetries session plan attempt state =
      ⟨[.uploadPart session.uploadId plan.partNumber plan.chunk (.ok part)],
        (.ok part, state')⟩ := by
  rw [uploadPartWithRetries, hcall]
  rfl

theorem uploadPartWithRetries_error {source : E}
    (hcall : u.backend.uploadPart state session.uploadId plan.partNumber plan.chunk =
      (.error source, state')) :
    u.uploadPartWithRetries session plan attempt state = (do
      Logged.tell [.uploadPart session.uploadId plan.partNumber plan.chunk (.error source)]
      if attempt ≥ u.options.maxAttempts then
        return (.error (session.partUploadFailed plan attempt source), state')
      else
        Logged.tell (pause (u.options.backoffForRetry attempt (u.draw state')))
        u.uploadPartWithRetries session plan (attempt + 1) state') := by
  rw [uploadPartWithRetries, hcall]
  refine congrArg (Bind.bind _) (funext fun _ ↦ ?_)
  simp only
  split
  · next error h =>
    unfold recordFailure at h
    split at h
    · next hle =>
      cases h
      rw [if_pos hle]
    · cases h
  · next delay h =>
    have hlt := lt_of_recordFailure_ok h
    rw [recordFailure, if_neg (not_le.mpr hlt)] at h
    cases h
    rw [if_neg (not_le.mpr hlt)]

theorem uploadPartWithRetries_last {source : E}
    (hcall : u.backend.uploadPart state session.uploadId plan.partNumber plan.chunk =
      (.error source, state')) (hattempt : u.options.maxAttempts ≤ attempt) :
    u.uploadPartWithRetries session plan attempt state =
      ⟨[.uploadPart session.uploadId plan.partNumber plan.chunk (.error source)],
        (.error (session.partUploadFailed plan attempt source), state')⟩ := by
  rw [uploadPartWithRetries_error hcall, if_pos hattempt]
  rfl

theorem uploadPartWithRetries_again {source : E}
    (hcall : u.backend.uploadPart state session.uploadId plan.partNumber plan.chunk =
      (.error source, state')) (hattempt : attempt < u.options.maxAttempts) :
    u.uploadPartWithRetries session plan attempt state =
      ⟨.uploadPart session.uploadId plan.partNumber plan.chunk (.error source) ::
          (pause (u.options.backoffForRetry attempt (u.draw state')) ++
            (u.uploadPartWithRetries session plan (attempt + 1) state').events),
        (u.uploadPartWithRetries session plan (attempt + 1) state').value⟩ := by
  rw [uploadPartWithRetries_error hcall, if_neg (not_le.mpr hattempt)]
  rfl

theorem uploadLoop_read_error {source : IoError}
    (hread : readChunk u.runtime reader u.options.partSize = (.error source, reader')) :
    u.uploadLoop session reader state =
      ⟨[.read (.error source)], (.error (session.sourceReadError source), session, state)⟩ := by
  rw [uploadLoop]
  split
  · next heq =>
    rw [hread] at heq
    cases heq
    rfl
  · next heq =>
    rw [hread] at heq
    cases heq

theorem uploadLoop_read_ok
    (hread : readChunk u.runtime reader u.options.partSize = (.ok chunk, reader')) :
    u.uploadLoop session reader state = (do
      Logged.tell [.read (.ok chunk)]
      match session.nextChunk u.digests u.options chunk with
      | (.error error, session) => return (.error error, session, state)
      | (.ok .finish, session) => return (.ok (), session, state)
      | (.ok .skip, session) => u.uploadLoop session reader' state
      | (.ok (.upload plan), session) =>
        let (uploaded, state) ← u.uploadPartWithRetries session plan 1 state
        match uploaded with
        | .error error => return (.error error, session, state)
        | .ok uploaded =>
          match session.acceptUploadedPart u.options plan uploaded with
          | (.error error, session) => return (.error error, session, state)
          | (.ok (), session) => u.uploadLoop session reader' state) := by
  rw [uploadLoop]
  split
  · next heq =>
    rw [hread] at heq
    cases heq
  · next heq =>
    rw [hread] at heq
    cases heq
    refine congrArg (Bind.bind _) (funext fun _ ↦ ?_)
    split <;> next hnext => simp only [hnext]

end Equations

def abortErrorIfConfigured (uploadId : Text) (error : ResumableUploadError E) (state : σ) :
    Logged (Event E) (ResumableUploadError E × σ) :=
  if u.options.abortOnError then
    let (reply, state) := u.backend.abortUpload state uploadId
    do
      Logged.tell [.abortUpload uploadId reply]
      match reply with
      | .error source => return (.abortFailed uploadId error source, state)
      | .ok () => return (error, state)
  else return (error, state)

def completeParts (session : ResumableUploadSession) (state : σ) :
    Logged (Event E)
      (Except (ResumableUploadError E) (List UploadedPart) × ResumableUploadSession × σ) :=
  match session.orderedCompletedParts with
  | .error error => return (.error error, session, state)
  | .ok orderedParts =>
    let (reply, state) := u.backend.completeUpload state session.uploadId orderedParts
    do
      Logged.tell [.completeUpload session.uploadId orderedParts reply]
      match reply with
      | .error source => return (.error (session.completeUploadFailed source), session, state)
      | .ok () => return (.ok orderedParts, session, state)

/-- The block whose result decides about the abort: the loop, then `complete_upload`. -/
def uploadParts (session : ResumableUploadSession) (reader : SourceReader) (state : σ) :
    Logged (Event E)
      (Except (ResumableUploadError E) (List UploadedPart) × ResumableUploadSession × σ) := do
  let (result, session, state) ← u.uploadLoop session reader state
  match result with
  | .error error => return (.error error, session, state)
  | .ok () => u.completeParts session state

def uploadWithCheckpoint (reader : SourceReader) (checkpoint : ResumableUploadCheckpoint)
    (resumed : Bool) (state : σ) :
    Logged (Event E) (Except (ResumableUploadError E) ResumableUploadResult × σ) :=
  match ResumableUploadSession.new u.options checkpoint resumed with
  | .error error => return (.error error, state)
  | .ok session => do
    let (result, session, state) ← u.uploadParts session reader state
    match result with
    | .ok parts => return (.ok (session.finish parts), state)
    | .error error =>
      let (error, state) ← u.abortErrorIfConfigured session.uploadId error state
      return (.error error, state)

/-- The checkpoint a fresh upload starts from. -/
def freshCheckpoint (uploadId : Text) : ResumableUploadCheckpoint :=
  { ResumableUploadCheckpoint.new uploadId u.options.partSize with
    checksumAlgorithm := u.options.partChecksumAlgorithm }

def upload (reader : SourceReader) (state : σ) :
    Logged (Event E) (Except (ResumableUploadError E) ResumableUploadResult × σ) :=
  match u.options.validate with
  | .error error => return (.error error, state)
  | .ok () =>
    let (reply, state) := u.backend.createUpload state
    do
      Logged.tell [.createUpload reply]
      match reply with
      | .error source => return (.error (.createFailed source), state)
      | .ok uploadId => u.uploadWithCheckpoint reader (u.freshCheckpoint uploadId) false state

def resume (reader : SourceReader) (checkpoint : ResumableUploadCheckpoint) (state : σ) :
    Logged (Event E) (Except (ResumableUploadError E) ResumableUploadResult × σ) :=
  match u.options.validate with
  | .error error => return (.error error, state)
  | .ok () => u.uploadWithCheckpoint reader checkpoint true state

end ResumableUploader

end Reqx.Upload
