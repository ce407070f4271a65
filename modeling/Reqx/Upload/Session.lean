import Reqx.Upload.Options

/-!
# One upload session

The checkpoint of a run with the number of the next part. A chunk of the source
is skipped when the checkpoint has its part, and planned for upload otherwise;
a reply of the backend enters the checkpoint only after it has been checked.
-/

namespace Reqx.Upload

variable {E : Type}

def validateCheckpoint (options : ResumableUploadOptions) (checkpoint : ResumableUploadCheckpoint) :
    Except (ResumableUploadError E) Unit :=
  if checkpoint.version ≠ resumableUploadCheckpointVersion then
    .error (.unsupportedCheckpointVersion checkpoint.version resumableUploadCheckpointVersion)
  else if checkpoint.partSize ≠ options.partSize then
    .error (.checkpointPartSizeMismatch checkpoint.partSize options.partSize)
  else if (Text.trim checkpoint.uploadId).isEmpty then .error .emptyUploadId
  else if checkpoint.checksumAlgorithm ≠ options.partChecksumAlgorithm then
    .error (.checkpointChecksumAlgorithmMismatch
      ((checkpoint.checksumAlgorithm.map PartChecksumAlgorithm.asStr).getD "none")
      ((options.partChecksumAlgorithm.map PartChecksumAlgorithm.asStr).getD "none"))
  else
    match checkpoint.completedParts.toList.find? fun e ↦ e.1 == 0 || e.2.partNumber != e.1 with
    | some (checkpointKey, part) =>
      .error (.invalidCheckpointPartNumber checkpointKey part.partNumber)
    | none => .ok ()

def checkpointPartMatches (existing : UploadedPart) (expectedSize : ℕ)
    (expectedChecksum : Option Text) (verifyRemoteEtag : Bool) : Bool :=
  if existing.size ≠ expectedSize then false
  else
    match expectedChecksum with
    | none => true
    | some expectedChecksum =>
      match existing.checksum with
      | none => false
      | some existingChecksum =>
        if normalizeToken existingChecksum ≠ normalizeToken expectedChecksum then false
        else !verifyRemoteEtag ||
          decide (normalizeToken existing.etag = normalizeToken expectedChecksum)

/-- `u32::try_from` on a `u64`. -/
def u32TryFrom (n : ℕ) : Option UInt32 := if n < UInt32.size then some (.ofNat n) else none

/-- The keys of the map are visited in ascending order. -/
def checkpointHasRemainingParts (checkpoint : ResumableUploadCheckpoint) (nextPartNumber : ℕ) :
    Option UInt32 :=
  (u32TryFrom nextPartNumber).bind fun nextPartNumber ↦
    checkpoint.completedParts.keys.find? fun partNumber ↦ nextPartNumber ≤ partNumber

structure UploadPartPlan where
  partNumber : UInt32
  chunk : Bytes
  expectedChecksum : Option Text
  deriving DecidableEq

inductive UploadChunkAction where
  | finish
  | skip
  | upload (plan : UploadPartPlan)
  deriving DecidableEq

/-- `total_bytes` and `part_number` are of type `u64`. -/
structure ResumableUploadSession where
  checkpoint : ResumableUploadCheckpoint
  resumed : Bool
  totalBytes : ℕ
  partNumber : ℕ

def u64Max : ℕ := 2 ^ 64 - 1

namespace ResumableUploadSession

def new (options : ResumableUploadOptions) (checkpoint : ResumableUploadCheckpoint)
    (resumed : Bool) : Except (ResumableUploadError E) ResumableUploadSession :=
  match validateCheckpoint options checkpoint with
  | .error error => .error error
  | .ok () => .ok ⟨checkpoint, resumed, 0, 1⟩

variable (s : ResumableUploadSession)

def uploadId : Text := s.checkpoint.uploadId

/-- `part_number += 1`, which would wrap at the end of `u64`. -/
def advancePartNumber : ResumableUploadSession :=
  { s with partNumber := (s.partNumber + 1) % 2 ^ 64 }

def currentPartNumber : Except (ResumableUploadError E) UInt32 :=
  match u32TryFrom s.partNumber with
  | some partNumber => .ok partNumber
  | none => .error (.tooManyUploadParts s.partNumber maxResumableUploadPartNumber s.checkpoint)

def countBytes (n : ℕ) : ResumableUploadSession :=
  { s with totalBytes := min (s.totalBytes + n) u64Max }

def removePart (partNumber : UInt32) : ResumableUploadSession :=
  { s with
    checkpoint := { s.checkpoint with
      completedParts := s.checkpoint.completedParts.erase partNumber } }

def insertPart (partNumber : UInt32) (part : UploadedPart) : ResumableUploadSession :=
  { s with
    checkpoint := { s.checkpoint with
      completedParts := s.checkpoint.completedParts.insert partNumber part } }

def sourceReadError (source : IoError) : ResumableUploadError E := .sourceRead source s.checkpoint

def nextChunk (digests : Digests) (options : ResumableUploadOptions) (chunk : Bytes) :
    Except (ResumableUploadError E) UploadChunkAction × ResumableUploadSession :=
  if chunk.isEmpty then
    match checkpointHasRemainingParts s.checkpoint s.partNumber with
    | some expectedPartNumber =>
      (.error (s.sourceReadError
        { kind := .unexpectedEof
          message :=
            "source ended before checkpointed part " ++ toString expectedPartNumber.toNat }), s)
    | none => (.ok .finish, s)
  else
    match s.currentPartNumber with
    | .error error => (.error error, s)
    | .ok partNumber =>
      let s := s.countBytes chunk.length
      let expectedChecksum := options.expectedChecksum digests chunk
      let plan := ⟨partNumber, chunk, expectedChecksum⟩
      match s.checkpoint.completedParts[partNumber]? with
      | some existing =>
        if checkpointPartMatches existing chunk.length expectedChecksum
            options.verifyRemoteEtag then
          (.ok .skip, s.advancePartNumber)
        else (.ok (.upload plan), s.removePart partNumber)
      | none => (.ok (.upload plan), s)

variable {s} in
theorem ne_nil_of_nextChunk {digests : Digests} {options : ResumableUploadOptions} {chunk : Bytes}
    {action : UploadChunkAction} {s' : ResumableUploadSession}
    (h : s.nextChunk (E := E) digests options chunk = (.ok action, s'))
    (haction : action ≠ .finish) : chunk ≠ [] := by
  rintro rfl
  simp only [nextChunk, List.isEmpty_nil, if_true] at h
  split at h
  · cases h
  · cases h
    exact haction rfl

def acceptUploadedPart (options : ResumableUploadOptions) (plan : UploadPartPlan)
    (uploaded : UploadedPart) : Except (ResumableUploadError E) Unit × ResumableUploadSession :=
  if uploaded.partNumber ≠ plan.partNumber then
    (.error (.partNumberMismatch plan.partNumber uploaded.partNumber s.checkpoint), s)
  else if uploaded.size ≠ plan.chunk.length then
    (.error (.partSizeMismatch plan.partNumber plan.chunk.length uploaded.size s.checkpoint), s)
  else
    match options.validateUploadedPart s.checkpoint plan.partNumber uploaded
        plan.expectedChecksum with
    | .error error => (.error error, s)
    | .ok () =>
      let uploaded := { uploaded with checksum := uploaded.checksum.or plan.expectedChecksum }
      (.ok (), (s.insertPart plan.partNumber uploaded).advancePartNumber)

def partUploadFailed (plan : UploadPartPlan) (attempts : ℕ) (source : E) : ResumableUploadError E :=
  .partUploadFailed plan.partNumber attempts s.checkpoint source

def completeUploadFailed (source : E) : ResumableUploadError E :=
  .completeFailed s.checkpoint source

def totalParts : UInt32 :=
  .ofNat (min (s.partNumber - 1) maxResumableUploadPartNumber.toNat)

/-- One pass of the loop below. -/
def completedPart (current : UInt32) : Except (ResumableUploadError E) UploadedPart :=
  match s.checkpoint.completedParts[current]? with
  | none => .error (.missingCompletedPart current s.checkpoint)
  | some part => .ok part

/-- The loop over `1..=total_parts`. -/
def orderedParts : Except (ResumableUploadError E) (List UploadedPart) :=
  (List.range' 1 s.totalParts.toNat).mapM fun current ↦ s.completedPart (.ofNat current)

def orderedCompletedParts : Except (ResumableUploadError E) (List UploadedPart) :=
  if s.totalParts = 0 then .error (.emptyUploadBody s.checkpoint) else s.orderedParts

def finish (completedParts : List UploadedPart) : ResumableUploadResult :=
  ⟨s.checkpoint.uploadId, s.totalBytes, s.totalParts, s.resumed, completedParts⟩

end ResumableUploadSession

/-- `UploadPartRetry::record_failure` at the given attempt: the pause before the next one. -/
def recordFailure (options : ResumableUploadOptions) (session : ResumableUploadSession)
    (plan : UploadPartPlan) (attempt draw : ℕ) (source : E) : Except (ResumableUploadError E) ℕ :=
  if attempt ≥ options.maxAttempts then .error (session.partUploadFailed plan attempt source)
  else .ok (options.backoffForRetry attempt draw)

end Reqx.Upload
