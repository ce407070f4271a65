import Reqx.Upload.Outcome

/-!
# What a run guarantees

A run that succeeds has completed the upload with exactly the chunks of its
source. The checkpoint of a run that fails tells what was accepted, and no more.
The calls of every run follow one protocol.
-/

namespace Reqx.Upload

variable {E σ : Type}

/-- The error below a failed abort. -/
def ResumableUploadError.cause : ResumableUploadError E → ResumableUploadError E
  | .abortFailed _ original _ => original.cause
  | error => error

namespace ResumableUploader

variable {u : ResumableUploader E σ} {source : Bytes} {start : ResumableUploadCheckpoint}
  {log : List (Event E)} {parts : Parts} {blocks : List (Block E)}

theorem Trail.mem_calls (h : u.Trail source start log parts blocks) {e : Event E}
    (he : e ∈ backendCalls log) :
    ∃ b ∈ blocks, ∃ reply ∈ b.replies,
      e = .uploadPart start.uploadId b.partNumber (u.partData source b.partNumber) reply := by
  rw [h.calls] at he
  obtain ⟨b, hb, hcall⟩ := List.mem_flatMap.mp he
  obtain ⟨reply, hreply, rfl⟩ := List.mem_map.mp hcall
  exact ⟨b, hb, reply, hreply, rfl⟩

theorem Trail.accepted_call (h : u.Trail source start log parts blocks) {key : UInt32}
    {part : UploadedPart} (hmem : (key, part) ∈ u.acceptedParts log) :
    ∃ uploaded,
      .uploadPart start.uploadId key (u.partData source key) (.ok uploaded) ∈ backendCalls log ∧
      Acceptable u.digests u.options key (u.partData source key) uploaded ∧
      part = recorded u.digests u.options (u.partData source key) uploaded := by
  rw [← acceptedParts_backendCalls] at hmem
  obtain ⟨uploadId, data, uploaded, hcall, hacceptable, rfl⟩ := u.mem_acceptedParts_iff.mp hmem
  obtain ⟨b, hb, reply, hreply, heq⟩ := h.mem_calls hcall
  obtain ⟨rfl, rfl, rfl, rfl⟩ := Event.uploadPart.inj heq
  exact ⟨uploaded, hcall, hacceptable, rfl⟩

/-- A part of the checkpoint is kept under its own number. -/
theorem Contents.partNumber_eq {examined : ℕ} (h : u.Contents source start examined
      (u.acceptedParts log) parts)
    (hvalid : validateCheckpoint (E := E) u.options start = .ok ())
    {key : UInt32} {part : UploadedPart} (hpart : parts[key]? = some part) :
    part.partNumber = key := by
  rcases (h key part).mp hpart with hmem | ⟨hstart, -⟩
  · obtain ⟨-, data, uploaded, -, hacceptable, rfl⟩ := u.mem_acceptedParts_iff.mp hmem
    exact hacceptable.1
  · exact ((validateCheckpoint_eq_ok_iff.mp hvalid).2.2.2.2 key part hstart).2

theorem Trail.validateCheckpoint (h : u.Trail source start log parts blocks)
    (hvalid : validateCheckpoint (E := E) u.options start = .ok ()) :
    Upload.validateCheckpoint (E := E) u.options { start with completedParts := parts } =
      .ok () := by
  obtain ⟨hversion, hsize, hid, halgorithm, hkeys⟩ := validateCheckpoint_eq_ok_iff.mp hvalid
  refine validateCheckpoint_eq_ok_iff.mpr ⟨hversion, hsize, hid, halgorithm, ?_⟩
  intro key part hpart
  refine ⟨?_, h.contents.partNumber_eq hvalid hpart⟩
  rintro rfl
  rcases (h.contents 0 part).mp hpart with hmem | ⟨hstart, -⟩
  · obtain ⟨b, hb, hnumber⟩ := h.accepted_le hmem
    have hpos := (h.allowed b hb).pos
    rw [hnumber] at hpos
    cases hpos
  · exact (hkeys 0 part hstart).1 rfl

theorem Opened.backendCalls_eq {begins : Start} {opening : List (Event E)} {resumed : Bool}
    (h : u.Opened begins opening start resumed) : backendCalls opening = opening := by
  cases h <;> rfl

theorem partData_eq_chunk {i : ℕ} {key : UInt32} (hkey : key.toNat = i + 1) :
    u.partData source key = Chunks.chunk u.options.partSize i source := by
  rw [partData, hkey, Nat.add_sub_cancel]

/-- What is known of each part that completes the upload. -/
theorem Ordered.part {ordered : List UploadedPart}
    (h : u.Ordered source start log parts blocks ordered)
    (hvalid : Upload.validateCheckpoint (E := E) u.options start = .ok ()) {i : ℕ}
    {part : UploadedPart} (hpart : ordered[i]? = some part) :
    part.partNumber.toNat = i + 1 ∧ parts[part.partNumber]? = some part ∧
      Fits u.digests u.options part (Chunks.chunk u.options.partSize i source) := by
  have hlt : i < ordered.length := (List.getElem?_eq_some_iff.mp hpart).1
  have hsize := h.lt_size
  have hall := h.all
  have hlength := h.length_eq
  have hkey : (UInt32.ofNat (i + 1)).toNat = i + 1 := UInt32.toNat_ofNat_of_lt (by omega)
  have hget := h.get i _ hkey hlt
  rw [hpart] at hget
  have hnumber := h.contents.partNumber_eq hvalid hget.symm
  obtain ⟨part', hpart', hfits⟩ := h.present (UInt32.ofNat (i + 1)) (by omega) (by omega)
  obtain rfl : part = part' := Option.some.inj (hget.trans hpart')
  refine ⟨hnumber ▸ hkey, hnumber ▸ hpart', ?_⟩
  rwa [partData_eq_chunk hkey] at hfits

/-- An upload that succeeds has called `complete_upload` once, at the end, with the
chunks of the source in order. -/
theorem success_is_complete_and_exact {begins : Start} {reader : SourceReader} {state : σ}
    {result : ResumableUploadResult} (h : (u.run begins reader state).value.1 = .ok result) :
    ∃ (opening uploads : List (Event E)) (start : ResumableUploadCheckpoint)
      (ordered : List UploadedPart),
      u.Opened begins opening start result.resumed ∧
      backendCalls (u.run begins reader state).events =
        opening ++ uploads ++ [.completeUpload start.uploadId ordered (.ok ())] ∧
      (∀ e ∈ uploads, ∃ partNumber data reply,
        e = .uploadPart start.uploadId partNumber data reply) ∧
      0 < Chunks.count u.options.partSize reader.source ∧
      ordered.length = Chunks.count u.options.partSize reader.source ∧
      result.uploadId = start.uploadId ∧ result.completedParts = ordered ∧
      result.totalParts.toNat = ordered.length ∧
      result.totalBytes = min reader.source.length u64Max ∧
      ∀ (i : ℕ) (part : UploadedPart), ordered[i]? = some part →
        part.partNumber.toNat = i + 1 ∧
        part.size = (Chunks.chunk u.options.partSize i reader.source).length ∧
        ((∃ uploaded,
          .uploadPart start.uploadId part.partNumber
            (Chunks.chunk u.options.partSize i reader.source) (.ok uploaded) ∈ uploads ∧
          Acceptable u.digests u.options part.partNumber
            (Chunks.chunk u.options.partSize i reader.source) uploaded ∧
          part = recorded u.digests u.options
            (Chunks.chunk u.options.partSize i reader.source) uploaded) ∨
        start.completedParts[part.partNumber]? = some part ∧
          ∀ expected ∈ u.options.expectedChecksum u.digests
              (Chunks.chunk u.options.partSize i reader.source),
            ∃ checksum ∈ part.checksum, normalizeToken checksum = normalizeToken expected) := by
  have hran := u.ran begins reader state
  rw [h] at hran
  generalize (u.run begins reader state).events = events at hran
  cases hran with
  | session opened valid options ended =>
    cases ended with
    | succeeded parts =>
      cases parts with
      | completed done session_eq =>
        rename_i log _ _
        subst session_eq
        obtain ⟨hsize, -⟩ := u.options.of_validate options
        obtain ⟨-, hpartSize, -⟩ := validateCheckpoint_eq_ok_iff.mp valid
        refine ⟨_, backendCalls log, _, _, opened, ?_, ?_, done.pos, done.length_eq, rfl,
          rfl, ?_, ?_, ?_⟩
        · rw [backendCalls_append, backendCalls_append, opened.backendCalls_eq,
            List.append_assoc]
          rfl
        · intro e he
          obtain ⟨b, -, reply, -, rfl⟩ := done.mem_calls he
          exact ⟨_, _, reply, rfl⟩
        · exact (done.totalParts_toNat _).trans (done.all.trans done.length_eq.symm)
        · change min (min (chunksRead log * _) reader.source.length) u64Max = _
          rw [hpartSize, Chunks.min_count_mul hsize done.all.ge]
        · intro i part hpart
          obtain ⟨hnumber, hget, hfits⟩ := done.part valid hpart
          have hsizes := fits_iff.mp hfits
          refine ⟨hnumber, hsizes.1, ?_⟩
          rcases (done.contents part.partNumber part).mp hget with hmem | ⟨hstart, -⟩
          · obtain ⟨uploaded, hcall, hacceptable, heq⟩ := done.accepted_call hmem
            rw [partData_eq_chunk hnumber] at hcall hacceptable heq
            exact .inl ⟨uploaded, hcall, hacceptable, heq⟩
          · exact .inr ⟨hstart, fun expected hexpected ↦ (hsizes.2 expected hexpected).1⟩

theorem success_is_complete_and_exact_sample :
    ∃ (ordered : List UploadedPart) (calls : List (Event Unit)), ordered.length = 2 ∧
      backendCalls ((Sample.uploader none).run .fresh Sample.reader ()).events =
        calls ++ [.completeUpload "id".toList ordered (.ok ())] := by
  obtain ⟨opening, uploads, start, ordered, -, hcalls, -, -, hlength, hid, -⟩ :=
    success_is_complete_and_exact Sample.run_ok
  rw [← hid] at hcalls
  exact ⟨ordered, opening ++ uploads, hlength, hcalls⟩

/-! ## The checkpoint of an error -/

theorem checkpoint_of_validate_error {options : ResumableUploadOptions}
    {error : ResumableUploadError E} (h : options.validate = .error error) :
    error.checkpoint = none := by
  unfold ResumableUploadOptions.validate at h
  split_ifs at h <;> cases h <;> rfl

theorem checkpoint_of_validateCheckpoint_error {options : ResumableUploadOptions}
    {checkpoint : ResumableUploadCheckpoint} {error : ResumableUploadError E}
    (h : Upload.validateCheckpoint options checkpoint = .error error) :
    error.checkpoint = none := by
  unfold Upload.validateCheckpoint at h
  split_ifs at h
  · cases h
    rfl
  · cases h
    rfl
  · cases h
    rfl
  · cases h
    rfl
  · split at h <;> cases h
    rfl

variable {resumed : Bool} {error : ResumableUploadError E} {session : ResumableUploadSession}

/-- What the log of a failed run and the checkpoint in its error have to do with each other. -/
def Faithful (u : ResumableUploader E σ) (source : Bytes) (start : ResumableUploadCheckpoint)
    (log : List (Event E)) (checkpoint : ResumableUploadCheckpoint) : Prop :=
  Upload.validateCheckpoint (E := E) u.options checkpoint = .ok () ∧
    checkpoint.uploadId = start.uploadId ∧
    u.Contents source start (chunksRead log) (u.acceptedParts log) checkpoint.completedParts

theorem Faithful.append {checkpoint : ResumableUploadCheckpoint} {e : Event E}
    (h : u.Faithful source start log checkpoint) (hchunk : e.isChunk = false)
    (hpart : u.acceptedPart e = none) : u.Faithful source start (log ++ [e]) checkpoint := by
  obtain ⟨hvalid, hid, hcontents⟩ := h
  refine ⟨hvalid, hid, ?_⟩
  rw [chunksRead_append, acceptedParts_append, show chunksRead [e] = 0 by simp [chunksRead, hchunk],
    show u.acceptedParts [e] = [] by simp [acceptedParts, hpart], Nat.add_zero, List.append_nil]
  exact hcontents

theorem Trail.faithful (h : u.Trail source start log parts blocks)
    (hvalid : Upload.validateCheckpoint (E := E) u.options start = .ok ()) :
    u.Faithful source start log { start with completedParts := parts } :=
  ⟨h.validateCheckpoint hvalid, rfl, h.contents⟩

theorem PartsEnded.faithful (h : u.PartsEnded source start resumed log (.error error) session)
    (hvalid : Upload.validateCheckpoint (E := E) u.options start = .ok ()) :
    ∃ checkpoint, error.checkpoint = some checkpoint ∧
      u.Faithful source start log checkpoint := by
  cases h with
  | rejected done checkpoint refusal =>
    refine ⟨session.checkpoint, rfl, Faithful.append ?_ rfl rfl⟩
    rw [checkpoint]
    exact done.faithful hvalid
  | failed trail checkpoint carried tooMany =>
    exact ⟨_, carried, checkpoint ▸ trail.faithful hvalid⟩

theorem RunEnded.faithful (h : u.RunEnded source start resumed log (.error error))
    (hvalid : Upload.validateCheckpoint (E := E) u.options start = .ok ()) :
    ∃ checkpoint, error.checkpoint = some checkpoint ∧
      u.Faithful source start log checkpoint := by
  cases h with
  | kept parts configured => exact parts.faithful hvalid
  | aborted parts configured =>
    obtain ⟨checkpoint, hcarried, hfaithful⟩ := parts.faithful hvalid
    exact ⟨checkpoint, hcarried, hfaithful.append rfl rfl⟩
  | abortFailed parts configured refusal =>
    obtain ⟨checkpoint, hcarried, hfaithful⟩ := parts.faithful hvalid
    exact ⟨checkpoint, hcarried, hfaithful.append rfl rfl⟩

theorem Ran.faithful {begins : Start} {checkpoint : ResumableUploadCheckpoint}
    (h : u.Ran source begins log (.error error))
    (hcheckpoint : error.checkpoint = some checkpoint) :
    ∃ (opening rest : List (Event E)) (start : ResumableUploadCheckpoint) (resumed : Bool),
      log = opening ++ rest ∧ u.Opened begins opening start resumed ∧
        u.Faithful source start rest checkpoint := by
  cases h with
  | badOptions invalid =>
    rw [checkpoint_of_validate_error invalid] at hcheckpoint
    cases hcheckpoint
  | notCreated begins_eq refusal => cases hcheckpoint
  | badCheckpoint opened invalid =>
    rw [checkpoint_of_validateCheckpoint_error invalid] at hcheckpoint
    cases hcheckpoint
  | session opened valid options ended =>
    obtain ⟨checkpoint', hcarried, hfaithful⟩ := ended.faithful valid
    obtain rfl : checkpoint' = checkpoint := Option.some.inj (hcarried.symm.trans hcheckpoint)
    exact ⟨_, _, _, _, rfl, opened, hfaithful⟩

/-- The checkpoint in an error has what the run started with, without the parts that do
not fit the chunks read so far, and what was accepted since. -/
theorem error_checkpoint_is_faithful {begins : Start} {reader : SourceReader} {state : σ}
    {checkpoint : ResumableUploadCheckpoint}
    (h : (u.run begins reader state).value.1 = .error error)
    (hcheckpoint : error.checkpoint = some checkpoint) :
    ∃ (opening rest : List (Event E)) (start : ResumableUploadCheckpoint) (resumed : Bool),
      (u.run begins reader state).events = opening ++ rest ∧
      u.Opened begins opening start resumed ∧
      Upload.validateCheckpoint (E := E) u.options checkpoint = .ok () ∧
      checkpoint.uploadId = start.uploadId ∧
      ∀ (key : UInt32) (part : UploadedPart), checkpoint.completedParts[key]? = some part ↔
        (key, part) ∈ u.acceptedParts rest ∨
          start.completedParts[key]? = some part ∧
            (chunksRead rest < key.toNat ∨
              Fits u.digests u.options part (u.partData reader.source key)) := by
  have hran := u.ran begins reader state
  rw [h] at hran
  obtain ⟨opening, rest, start, resumed, hlog, hopened, hvalid, hid, hcontents⟩ :=
    hran.faithful hcheckpoint
  exact ⟨opening, rest, start, resumed, hlog, hopened, hvalid, hid, hcontents⟩

theorem error_checkpoint_is_faithful_sample :
    ∃ error checkpoint,
      ((Sample.uploader (some 2)).run .fresh Sample.reader ()).value.1 = .error error ∧
      error.checkpoint = some checkpoint ∧
      Upload.validateCheckpoint (E := Unit) Sample.options checkpoint = .ok () := by
  obtain ⟨error, checkpoint, hrun, hcheckpoint⟩ := Sample.run_error
  obtain ⟨-, -, -, -, -, -, hvalid, -⟩ := error_checkpoint_is_faithful hrun hcheckpoint
  exact ⟨error, checkpoint, hrun, hcheckpoint, hvalid⟩

end ResumableUploader

end Reqx.Upload
