import Reqx.Core.Retry

/-!
# Resumable uploads: options, parts, checkpoints

The data of the uploader and the checks on it. The digest functions come from
other crates and are a parameter; everything made of a digest is modelled. A
`u32` is a `UInt32`, so that a part number cannot leave its range unnoticed.
-/

namespace Reqx.Upload

def resumableUploadCheckpointVersion : ℕ := 2
def maxResumableUploadPartNumber : UInt32 := 4294967295

inductive PartChecksumAlgorithm where
  | md5 | sha256
  deriving DecidableEq, Repr

def PartChecksumAlgorithm.asStr : PartChecksumAlgorithm → String
  | .md5 => "md5"
  | .sha256 => "sha256"

/-- `md5::compute` and `Sha256`. -/
structure Digests where
  md5 : Bytes → Bytes
  sha256 : Bytes → Bytes

def encodeHexLower (bytes : Bytes) : Text :=
  bytes.flatMap fun byte ↦ [Nat.digitChar (byte.toNat / 16), Nat.digitChar (byte.toNat % 16)]

def PartChecksumAlgorithm.computeHex (digests : Digests) (algorithm : PartChecksumAlgorithm)
    (data : Bytes) : Text :=
  match algorithm with
  | .md5 => encodeHexLower (digests.md5 data)
  | .sha256 => encodeHexLower (digests.sha256 data)

def quote : Char := '"'
def apostrophe : Char := Char.ofNat 39

def normalizeToken (value : Text) : Text :=
  Text.toAsciiLowercase
    (Text.trimMatches (· = apostrophe) (Text.trimMatches (· = quote) (Text.trim value)))

structure UploadedPart where
  partNumber : UInt32
  etag : Text
  size : ℕ
  checksum : Option Text
  deriving DecidableEq

abbrev Parts := Std.TreeMap UInt32 UploadedPart

structure ResumableUploadCheckpoint where
  version : ℕ
  uploadId : Text
  partSize : ℕ
  checksumAlgorithm : Option PartChecksumAlgorithm
  completedParts : Parts

def ResumableUploadCheckpoint.new (uploadId : Text) (partSize : ℕ) : ResumableUploadCheckpoint :=
  ⟨resumableUploadCheckpointVersion, uploadId, partSize, none, ∅⟩

structure ResumableUploadResult where
  uploadId : Text
  totalBytes : ℕ
  totalParts : UInt32
  resumed : Bool
  completedParts : List UploadedPart
  deriving DecidableEq

/-! ## Errors -/

inductive ResumableUploadError (E : Type) where
  | invalidOptions (partSize maxAttempts baseBackoffMs maxBackoffMs : ℕ) (jitterRatio : ℚ)
      (message : String)
  | createFailed (source : E)
  | checkpointPartSizeMismatch (checkpointPartSize optionsPartSize : ℕ)
  | checkpointChecksumAlgorithmMismatch (checkpointChecksumAlgorithm optionsChecksumAlgorithm :
      String)
  | unsupportedCheckpointVersion (checkpointVersion supportedVersion : ℕ)
  | invalidCheckpointPartNumber (checkpointKey partNumber : UInt32)
  | emptyUploadId
  | sourceRead (source : IoError) (checkpoint : ResumableUploadCheckpoint)
  | partUploadFailed (partNumber : UInt32) (attempts : ℕ)
      (checkpoint : ResumableUploadCheckpoint) (source : E)
  | partNumberMismatch (expectedPartNumber actualPartNumber : UInt32)
      (checkpoint : ResumableUploadCheckpoint)
  | partSizeMismatch (partNumber : UInt32) (expectedSize actualSize : ℕ)
      (checkpoint : ResumableUploadCheckpoint)
  | partChecksumMismatch (partNumber : UInt32) (expectedChecksum actualChecksum : Text)
      (checkpoint : ResumableUploadCheckpoint)
  | partEtagMismatch (partNumber : UInt32) (expectedEtag actualEtag : Text)
      (checkpoint : ResumableUploadCheckpoint)
  | completeFailed (checkpoint : ResumableUploadCheckpoint) (source : E)
  | abortFailed (uploadId : Text) (original : ResumableUploadError E) (source : E)
  | emptyUploadBody (checkpoint : ResumableUploadCheckpoint)
  | missingCompletedPart (partNumber : UInt32) (checkpoint : ResumableUploadCheckpoint)
  | tooManyUploadParts (attemptedPartNumber : ℕ) (maxPartNumber : UInt32)
      (checkpoint : ResumableUploadCheckpoint)

namespace ResumableUploadError

variable {E : Type}

/-- `checkpoint` and `into_checkpoint`. -/
def checkpoint : ResumableUploadError E → Option ResumableUploadCheckpoint
  | .sourceRead _ checkpoint | .partUploadFailed _ _ checkpoint _
  | .partNumberMismatch _ _ checkpoint | .partSizeMismatch _ _ _ checkpoint
  | .partChecksumMismatch _ _ _ checkpoint | .partEtagMismatch _ _ _ checkpoint
  | .completeFailed checkpoint _ | .emptyUploadBody checkpoint
  | .missingCompletedPart _ checkpoint | .tooManyUploadParts _ _ checkpoint => some checkpoint
  | .abortFailed _ original _ => original.checkpoint
  | .invalidOptions .. | .createFailed _ | .checkpointPartSizeMismatch ..
  | .checkpointChecksumAlgorithmMismatch .. | .unsupportedCheckpointVersion ..
  | .invalidCheckpointPartNumber .. | .emptyUploadId => none

end ResumableUploadError

/-! ## Options -/

structure ResumableUploadOptions where
  partSize : ℕ
  maxAttempts : ℕ
  baseBackoff : ℕ
  maxBackoff : ℕ
  jitterRatio : ℚ
  abortOnError : Bool
  partChecksumAlgorithm : Option PartChecksumAlgorithm
  verifyRemoteEtag : Bool

namespace ResumableUploadOptions

variable {E : Type} (o : ResumableUploadOptions)

def default : ResumableUploadOptions where
  partSize := 8 * 1024 * 1024
  maxAttempts := 3
  baseBackoff := fromMillis 200
  maxBackoff := fromSecs 2
  jitterRatio := 1 / 5
  abortOnError := false
  partChecksumAlgorithm := none
  verifyRemoteEtag := false

/-- `draw` is what the random generator gives. -/
def backoffForRetry (retryIndex draw : ℕ) : ℕ :=
  exponentialBackoffWithJitter retryIndex o.baseBackoff o.maxBackoff o.jitterRatio draw

def invalid (message : String) : ResumableUploadError E :=
  .invalidOptions o.partSize o.maxAttempts (durationMillisCeil o.baseBackoff)
    (durationMillisCeil o.maxBackoff) o.jitterRatio message

def isizeMax : ℕ := 2 ^ 63 - 1

def validate : Except (ResumableUploadError E) Unit :=
  if o.partSize = 0 then .error (o.invalid "part_size must be greater than zero")
  else if o.partSize > isizeMax then .error (o.invalid "part_size must not exceed isize::MAX")
  else if o.maxAttempts = 0 then .error (o.invalid "max_attempts must be greater than zero")
  else if o.baseBackoff = 0 then .error (o.invalid "base_backoff must be greater than zero")
  else if o.maxBackoff = 0 then .error (o.invalid "max_backoff must be greater than zero")
  else if o.maxBackoff < o.baseBackoff then
    .error (o.invalid "max_backoff must be greater than or equal to base_backoff")
  else if ¬(0 ≤ o.jitterRatio ∧ o.jitterRatio ≤ 1) then
    .error (o.invalid "jitter_ratio must be finite and between 0.0 and 1.0")
  else if o.verifyRemoteEtag = true ∧ o.partChecksumAlgorithm = none then
    .error (o.invalid "verify_remote_etag requires part_checksum_algorithm")
  else .ok ()

def expectedChecksum (digests : Digests) (chunk : Bytes) : Option Text :=
  o.partChecksumAlgorithm.map fun algorithm ↦ algorithm.computeHex digests chunk

def validateUploadedPart (checkpoint : ResumableUploadCheckpoint) (partNumber : UInt32)
    (uploaded : UploadedPart) (expectedChecksum : Option Text) :
    Except (ResumableUploadError E) Unit :=
  match expectedChecksum with
  | none => .ok ()
  | some expectedChecksum =>
    let expected := normalizeToken expectedChecksum
    match (uploaded.checksum.map normalizeToken).filter (· ≠ expected) with
    | some actual => .error (.partChecksumMismatch partNumber expected actual checkpoint)
    | none =>
      if o.verifyRemoteEtag = true ∧ normalizeToken uploaded.etag ≠ expected then
        .error (.partEtagMismatch partNumber expected (normalizeToken uploaded.etag) checkpoint)
      else .ok ()

theorem default_validate : default.validate (E := E) = .ok () := by
  unfold validate default
  norm_num [isizeMax, fromMillis, fromSecs, nanosPerMilli, nanosPerSecond]

theorem of_validate (h : o.validate (E := E) = .ok ()) : 0 < o.partSize ∧ 0 < o.maxAttempts := by
  simp only [validate, ite_error_eq_ok] at h
  obtain ⟨hsize, -, hattempts, -⟩ := h
  exact ⟨Nat.pos_of_ne_zero hsize, Nat.pos_of_ne_zero hattempts⟩

end ResumableUploadOptions

end Reqx.Upload
