import Reqx.Upload.Session

/-!
# Replies, recorded parts, chunks

A reply enters the checkpoint if it is acceptable for its chunk, and a recorded
part is skipped if it fits its chunk. The two checks are written separately in
the source; a part that was accepted fits.
-/

namespace Reqx.Upload

variable {E : Type} (digests : Digests) (options : ResumableUploadOptions)

/-- The replies that `accept_uploaded_part` lets through. -/
def Acceptable (partNumber : UInt32) (chunk : Bytes) (uploaded : UploadedPart) : Prop :=
  uploaded.partNumber = partNumber ∧ uploaded.size = chunk.length ∧
    ∀ expected ∈ options.expectedChecksum digests chunk,
      (∀ checksum ∈ uploaded.checksum, normalizeToken checksum = normalizeToken expected) ∧
        (options.verifyRemoteEtag = true → normalizeToken uploaded.etag = normalizeToken expected)

instance decidableAcceptable (partNumber : UInt32) (chunk : Bytes) (uploaded : UploadedPart) :
    Decidable (Acceptable digests options partNumber chunk uploaded) :=
  inferInstanceAs (Decidable (_ ∧ _ ∧ _))

/-- What the checkpoint keeps of an accepted reply. -/
def recorded (chunk : Bytes) (uploaded : UploadedPart) : UploadedPart :=
  { uploaded with checksum := uploaded.checksum.or (options.expectedChecksum digests chunk) }

def Fits (part : UploadedPart) (chunk : Bytes) : Prop :=
  checkpointPartMatches part chunk.length (options.expectedChecksum digests chunk)
    options.verifyRemoteEtag = true

variable {digests options} {partNumber : UInt32} {chunk : Bytes} {uploaded part : UploadedPart}

theorem fits_iff :
    Fits digests options part chunk ↔ part.size = chunk.length ∧
      ∀ expected ∈ options.expectedChecksum digests chunk,
        (∃ checksum ∈ part.checksum, normalizeToken checksum = normalizeToken expected) ∧
          (options.verifyRemoteEtag = true →
            normalizeToken part.etag = normalizeToken expected) := by
  unfold Fits checkpointPartMatches
  by_cases hsize : part.size = chunk.length
  · cases options.expectedChecksum digests chunk with
    | none => simp [hsize]
    | some expected =>
      cases part.checksum with
      | none => simp [hsize]
      | some checksum =>
        by_cases hchecksum : normalizeToken checksum = normalizeToken expected
        · cases options.verifyRemoteEtag <;> simp [hsize, hchecksum]
        · simp [hsize, hchecksum]
  · simp [hsize]

theorem Acceptable.fits_recorded (h : Acceptable digests options partNumber chunk uploaded) :
    Fits digests options (recorded digests options chunk uploaded) chunk := by
  obtain ⟨-, hsize, htokens⟩ := h
  refine fits_iff.mpr ⟨hsize, fun expected hexpected ↦ ⟨?_, (htokens expected hexpected).2⟩⟩
  cases hchecksum : uploaded.checksum with
  | none => exact ⟨expected, by simpa [recorded, hchecksum] using hexpected, rfl⟩
  | some checksum =>
    exact ⟨checksum, by simp [recorded, hchecksum], (htokens expected hexpected).1 _ hchecksum⟩

variable (digests options) in
theorem validateUploadedPart_cases (checkpoint : ResumableUploadCheckpoint)
    (hnumber : uploaded.partNumber = partNumber) (hsize : uploaded.size = chunk.length) :
    options.validateUploadedPart (E := E) checkpoint partNumber uploaded
        (options.expectedChecksum digests chunk) = .ok () ∧
        Acceptable digests options partNumber chunk uploaded ∨
      ∃ error : ResumableUploadError E,
        options.validateUploadedPart checkpoint partNumber uploaded
          (options.expectedChecksum digests chunk) = .error error ∧
        error.checkpoint = some checkpoint ∧
        ¬Acceptable digests options partNumber chunk uploaded := by
  unfold ResumableUploadOptions.validateUploadedPart Acceptable
  cases options.expectedChecksum digests chunk with
  | none => exact .inl ⟨rfl, hnumber, hsize, nofun⟩
  | some expected =>
    by_cases hchecksum : ∀ checksum ∈ uploaded.checksum,
        normalizeToken checksum = normalizeToken expected
    · have hfilter : (uploaded.checksum.map normalizeToken).filter
          (· ≠ normalizeToken expected) = none := by
        cases hc : uploaded.checksum with
        | none => rfl
        | some checksum => simp [hchecksum checksum hc]
      simp only [hfilter]
      by_cases hetag : options.verifyRemoteEtag = true ∧
          normalizeToken uploaded.etag ≠ normalizeToken expected
      · rw [if_pos hetag]
        refine .inr ⟨_, rfl, rfl, fun h ↦ hetag.2 ((h.2.2 expected rfl).2 hetag.1)⟩
      · rw [if_neg hetag]
        refine .inl ⟨rfl, hnumber, hsize, ?_⟩
        rintro _ ⟨⟩
        exact ⟨hchecksum, fun hverify ↦ not_not.mp fun hne ↦ hetag ⟨hverify, hne⟩⟩
    · push Not at hchecksum
      obtain ⟨checksum, hc, hne⟩ := hchecksum
      have hfilter : (uploaded.checksum.map normalizeToken).filter
          (· ≠ normalizeToken expected) = some (normalizeToken checksum) := by
        rw [Option.mem_def.mp hc]
        simp [hne]
      simp only [hfilter]
      exact .inr ⟨_, rfl, rfl, fun h ↦ hne ((h.2.2 expected rfl).1 checksum hc)⟩

theorem u32TryFrom_toNat (number : UInt32) : u32TryFrom number.toNat = some number := by
  rw [u32TryFrom, if_pos number.toNat_lt_size, UInt32.ofNat_toNat]

namespace ResumableUploadSession

/-- The session with other completed parts. -/
def withParts (s : ResumableUploadSession) (parts : Parts) : ResumableUploadSession :=
  { s with checkpoint := { s.checkpoint with completedParts := parts } }

def parts (s : ResumableUploadSession) : Parts := s.checkpoint.completedParts

variable {s : ResumableUploadSession}

theorem nextChunk_nil_cases (s : ResumableUploadSession) :
    s.nextChunk (E := E) digests options [] = (.ok .finish, s) ∨
      ∃ error : ResumableUploadError E, error.checkpoint = some s.checkpoint ∧
        s.nextChunk digests options [] = (.error error, s) := by
  simp only [nextChunk, List.isEmpty_nil, if_true]
  cases checkpointHasRemainingParts s.checkpoint s.partNumber with
  | none => exact .inl rfl
  | some expectedPartNumber => exact .inr ⟨_, rfl, rfl⟩

theorem nextChunk_of_fits (hchunk : chunk ≠ []) (hnumber : s.partNumber = partNumber.toNat)
    (hpart : s.parts[partNumber]? = some part) (hfits : Fits digests options part chunk) :
    s.nextChunk (E := E) digests options chunk =
      (.ok .skip, (s.countBytes chunk.length).advancePartNumber) := by
  have hnonempty : chunk.isEmpty = false := List.isEmpty_eq_false_iff.mpr hchunk
  have hexisting : (s.countBytes chunk.length).checkpoint.completedParts[partNumber]? =
      some part := hpart
  have hmatches : checkpointPartMatches part chunk.length (options.expectedChecksum digests chunk)
      options.verifyRemoteEtag = true := hfits
  simp only [nextChunk, hnonempty, currentPartNumber, hnumber, u32TryFrom_toNat, hexisting,
    hmatches, if_true, Bool.false_eq_true, if_false]

theorem nextChunk_of_not_fits (hchunk : chunk ≠ []) (hnumber : s.partNumber = partNumber.toNat)
    (hpart : ∀ part, s.parts[partNumber]? = some part → ¬Fits digests options part chunk) :
    ∃ parts : Parts,
      s.nextChunk (E := E) digests options chunk =
        (.ok (.upload ⟨partNumber, chunk, options.expectedChecksum digests chunk⟩),
          (s.countBytes chunk.length).withParts parts) ∧
      ∀ key : UInt32, parts[key]? = if key = partNumber then none else s.parts[key]? := by
  have hnonempty : chunk.isEmpty = false := List.isEmpty_eq_false_iff.mpr hchunk
  have hsame : (s.countBytes chunk.length).checkpoint.completedParts = s.parts := rfl
  cases hexisting : s.parts[partNumber]? with
  | none =>
    refine ⟨s.parts, ?_, fun key ↦ ?_⟩
    · simp only [nextChunk, hnonempty, currentPartNumber, hnumber, u32TryFrom_toNat, hsame,
        hexisting, Bool.false_eq_true, if_false]
      rfl
    · split_ifs with hkey
      · rw [hkey, hexisting]
      · rfl
  | some part =>
    refine ⟨s.parts.erase partNumber, ?_, fun key ↦ ?_⟩
    · have hmatches : checkpointPartMatches part chunk.length
          (options.expectedChecksum digests chunk) options.verifyRemoteEtag = false :=
        Bool.eq_false_iff.mpr (hpart part hexisting)
      simp only [nextChunk, hnonempty, currentPartNumber, hnumber, u32TryFrom_toNat, hsame,
        hexisting, hmatches, Bool.false_eq_true, if_false]
      rfl
    · simp only [Std.TreeMap.getElem?_erase, Std.compare_eq_iff_eq, @eq_comm _ partNumber key]

theorem nextChunk_of_size_le (hchunk : chunk ≠ []) (hnumber : UInt32.size ≤ s.partNumber) :
    s.nextChunk (E := E) digests options chunk =
      (.error (.tooManyUploadParts s.partNumber maxResumableUploadPartNumber s.checkpoint), s) := by
  have hnonempty : chunk.isEmpty = false := List.isEmpty_eq_false_iff.mpr hchunk
  simp only [nextChunk, hnonempty, currentPartNumber, u32TryFrom, if_neg (not_lt.mpr hnumber),
    Bool.false_eq_true, if_false]

theorem acceptUploadedPart_of_acceptable
    (h : Acceptable digests options partNumber chunk uploaded) :
    s.acceptUploadedPart (E := E) options
        ⟨partNumber, chunk, options.expectedChecksum digests chunk⟩ uploaded =
      (.ok (), (s.withParts (s.parts.insert partNumber
        (recorded digests options chunk uploaded))).advancePartNumber) := by
  rcases validateUploadedPart_cases (E := E) digests options s.checkpoint h.1 h.2.1 with
    ⟨hok, -⟩ | ⟨_, _, _, hnot⟩
  · rw [acceptUploadedPart, if_neg (not_not.mpr h.1), if_neg (not_not.mpr h.2.1), hok]
    rfl
  · exact absurd h hnot

theorem acceptUploadedPart_of_not_acceptable
    (h : ¬Acceptable digests options partNumber chunk uploaded) :
    ∃ error : ResumableUploadError E, error.checkpoint = some s.checkpoint ∧
      s.acceptUploadedPart options ⟨partNumber, chunk, options.expectedChecksum digests chunk⟩
        uploaded = (.error error, s) := by
  unfold acceptUploadedPart
  by_cases hnumber : uploaded.partNumber = partNumber
  · by_cases hsize : uploaded.size = chunk.length
    · rcases validateUploadedPart_cases (E := E) digests options s.checkpoint hnumber hsize with
        ⟨_, hacceptable⟩ | ⟨error, herror, hcheckpoint, -⟩
      · exact absurd hacceptable h
      · refine ⟨error, hcheckpoint, ?_⟩
        rw [if_neg (not_not.mpr hnumber), if_neg (not_not.mpr hsize), herror]
    · exact ⟨_, rfl, by rw [if_neg (not_not.mpr hnumber), if_pos hsize]⟩
  · exact ⟨_, rfl, by rw [if_pos hnumber]⟩

end ResumableUploadSession

/-! ## Valid checkpoints -/

/-- The checkpoint is valid if the other fields agree with the options and
every part is kept under its own number. -/
theorem validateCheckpoint_eq_ok_iff {checkpoint : ResumableUploadCheckpoint} :
    validateCheckpoint (E := E) options checkpoint = .ok () ↔
      checkpoint.version = resumableUploadCheckpointVersion ∧
      checkpoint.partSize = options.partSize ∧ (Text.trim checkpoint.uploadId).isEmpty = false ∧
      checkpoint.checksumAlgorithm = options.partChecksumAlgorithm ∧
      ∀ (key : UInt32) (part : UploadedPart), checkpoint.completedParts[key]? = some part →
        key ≠ 0 ∧ part.partNumber = key := by
  have hfind : checkpoint.completedParts.toList.find?
      (fun e ↦ e.1 == 0 || e.2.partNumber != e.1) = none ↔
      ∀ (key : UInt32) (part : UploadedPart), checkpoint.completedParts[key]? = some part →
        key ≠ 0 ∧ part.partNumber = key := by
    rw [List.find?_eq_none, Prod.forall]
    refine forall₂_congr fun key part ↦ ?_
    rw [Std.TreeMap.mem_toList_iff_getElem?_eq_some]
    simp
  rw [← hfind]
  simp only [validateCheckpoint, ite_error_eq_ok, ne_eq, not_not, Bool.not_eq_true]
  refine and_congr_right' (and_congr_right' (and_congr_right' (and_congr_right' ?_)))
  cases checkpoint.completedParts.toList.find? (fun e ↦ e.1 == 0 || e.2.partNumber != e.1) with
  | none => simp
  | some e => simp

end Reqx.Upload
