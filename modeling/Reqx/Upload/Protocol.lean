import Reqx.Upload.Guarantees

/-!
# The protocol of the calls

The calls of a run are, in order: `create_upload` for a fresh upload, one block of
`upload_part` calls for each part that is not skipped, at most one
`complete_upload`, and `abort_upload` after a failure if it is configured. A
backend that accepts everything receives every chunk, up to the last part number
there is.
-/

namespace Reqx.Upload

variable {E σ : Type}

namespace ResumableUploader

/-- The calls of a session, between those before it and those after it. -/
structure Calls (u : ResumableUploader E σ) (source : Bytes) (start : ResumableUploadCheckpoint)
    (log opening : List (Event E)) (blocks : List (Block E)) (completion abort : List (Event E)) :
    Prop where
  calls : backendCalls log =
    opening ++ (blocks.flatMap (Block.calls start.uploadId (u.partData source)) ++ completion) ++
      abort
  increasing : blocks.Pairwise fun a b ↦ a.partNumber.toNat < b.partNumber.toNat
  number : ∀ b ∈ blocks, 0 < b.partNumber.toNat ∧
    b.partNumber.toNat ≤ Chunks.count u.options.partSize source
  attempts : ∀ b ∈ blocks, b.replies.length ≤ u.options.maxAttempts
  skipped : ∀ b ∈ blocks, ∀ part, start.completedParts[b.partNumber]? = some part →
    ¬Fits u.digests u.options part (u.partData source b.partNumber)
  succeeded : ∀ b ∈ blocks.dropLast, ∃ uploaded, b.last = .ok uploaded
  completion_eq : completion = [] ∨ ∃ ordered reply,
    completion = [.completeUpload start.uploadId ordered reply] ∧
      (∃ before after, log = before ++ .completeUpload start.uploadId ordered reply :: after ∧
        .read (.ok []) ∈ before) ∧
      (∀ b ∈ blocks, ∃ uploaded, b.last = .ok uploaded) ∧
      ordered.length = Chunks.count u.options.partSize source ∧
      ∀ (i : ℕ) (part : UploadedPart), ordered[i]? = some part → part.partNumber.toNat = i + 1 ∧
        Fits u.digests u.options part (Chunks.chunk u.options.partSize i source)

/-- The calls of a run whose checkpoint passed validation. The abort depends on the result. -/
structure Protocol (u : ResumableUploader E σ) (source : Bytes) (start : ResumableUploadCheckpoint)
    (log opening : List (Event E)) (blocks : List (Block E)) (completion abort : List (Event E))
    (result : Except (ResumableUploadError E) ResumableUploadResult) : Prop
    extends u.Calls source start log opening blocks completion abort where
  abort_eq : (abort = [] ∧ ¬(u.options.abortOnError = true ∧ ∃ error, result = .error error)) ∨
    (∃ reply, abort = [.abortUpload start.uploadId reply]) ∧ u.options.abortOnError = true ∧
      ∃ error, result = .error error
  tooMany : UInt32.size ≤ chunksRead log → ∃ error checkpoint, result = .error error ∧
    error.cause = .tooManyUploadParts UInt32.size maxResumableUploadPartNumber checkpoint

section Protocol

variable {u : ResumableUploader E σ} {source : Bytes} {start : ResumableUploadCheckpoint}
  {log : List (Event E)} {begins : Start} {resumed : Bool} {parts : Parts}
  {blocks : List (Block E)} {completion : List (Event E)}

theorem Trail.calls_spec (h : u.Trail source start log parts blocks)
    (hcompletion : backendCalls completion = completion)
    (hclause : completion = [] ∨ ∃ ordered reply,
      completion = [.completeUpload start.uploadId ordered reply] ∧ .read (.ok []) ∈ log ∧
        (∀ b ∈ blocks, ∃ uploaded, b.last = .ok uploaded) ∧
        ordered.length = Chunks.count u.options.partSize source ∧
        ∀ (i : ℕ) (part : UploadedPart), ordered[i]? = some part → part.partNumber.toNat = i + 1 ∧
          Fits u.digests u.options part (Chunks.chunk u.options.partSize i source)) :
    u.Calls source start (log ++ completion) [] blocks completion [] where
  calls := by rw [backendCalls_append, h.calls, hcompletion, List.nil_append, List.append_nil]
  increasing := h.increasing
  number b hb := ⟨(h.allowed b hb).pos, (h.allowed b hb).le_examined.trans h.le_count⟩
  attempts b hb := by
    have hlt := (h.allowed b hb).attempts
    rw [Block.replies, List.length_append, List.length_map, List.length_singleton]
    exact hlt
  skipped b hb := (h.allowed b hb).needed
  succeeded b hb := (h.settled b hb).imp fun _ huploaded ↦ huploaded.1
  completion_eq := by
    refine hclause.imp_right ?_
    rintro ⟨ordered, reply, rfl, hread, hrest⟩
    exact ⟨ordered, reply, rfl, ⟨log, [], rfl, hread⟩, hrest⟩

theorem Ordered.calls_spec {ordered : List UploadedPart}
    (h : u.Ordered source start log parts blocks ordered)
    (hvalid : Upload.validateCheckpoint (E := E) u.options start = .ok ()) (reply : Except E Unit) :
    u.Calls source start (log ++ [.completeUpload start.uploadId ordered reply]) [] blocks
      [.completeUpload start.uploadId ordered reply] [] := by
  refine h.toTrail.calls_spec rfl (.inr ⟨ordered, reply, rfl, h.ended, ?_, h.length_eq, ?_⟩)
  · intro b hb
    exact (h.allSettled b hb).imp fun _ huploaded ↦ huploaded.1
  · intro i part hpart
    obtain ⟨hnumber, -, hfits⟩ := h.part hvalid hpart
    exact ⟨hnumber, hfits⟩

theorem PartsEnded.calls_spec {result : Except (ResumableUploadError E) (List UploadedPart)}
    {session : ResumableUploadSession} (h : u.PartsEnded source start resumed log result session)
    (hvalid : Upload.validateCheckpoint (E := E) u.options start = .ok ()) :
    ∃ blocks completion, u.Calls source start log [] blocks completion [] := by
  cases h with
  | completed done session_eq => exact ⟨_, _, done.calls_spec hvalid (.ok ())⟩
  | rejected done checkpoint refusal => exact ⟨_, _, done.calls_spec hvalid (.error refusal)⟩
  | failed trail checkpoint carried tooMany =>
    have hcalls := trail.calls_spec rfl (.inl rfl)
    rw [List.append_nil] at hcalls
    exact ⟨_, _, hcalls⟩

theorem Calls.surround {opening abort : List (Event E)}
    (h : u.Calls source start log [] blocks completion [])
    (hopening : backendCalls opening = opening) (habort : backendCalls abort = abort) :
    u.Calls source start (opening ++ (log ++ abort)) opening blocks completion abort where
  calls := by
    rw [backendCalls_append, backendCalls_append, hopening, habort, h.calls, List.nil_append,
      List.append_nil, ← List.append_assoc]
  increasing := h.increasing
  number := h.number
  attempts := h.attempts
  skipped := h.skipped
  succeeded := h.succeeded
  completion_eq := by
    refine h.completion_eq.imp_right ?_
    rintro ⟨ordered, reply, heq, ⟨before, after, rfl, hread⟩, hrest⟩
    exact ⟨ordered, reply, heq, ⟨opening ++ before, after ++ abort, by simp,
      List.mem_append_right _ hread⟩, hrest⟩

theorem PartsEnded.tooMany {result : Except (ResumableUploadError E) (List UploadedPart)}
    {session : ResumableUploadSession} (h : u.PartsEnded source start resumed log result session)
    (hle : UInt32.size ≤ chunksRead log) :
    result = .error (.tooManyUploadParts UInt32.size maxResumableUploadPartNumber
      session.checkpoint) := by
  cases h with
  | completed done session_eq =>
    rw [chunksRead_append] at hle
    exact absurd done.lt_size (not_lt.mpr hle)
  | rejected done checkpoint refusal =>
    rw [chunksRead_append] at hle
    exact absurd done.lt_size (not_lt.mpr hle)
  | failed trail checkpoint carried tooMany => rw [tooMany hle]

theorem Opened.chunksRead_eq {opening : List (Event E)}
    (h : u.Opened begins opening start resumed) : chunksRead opening = 0 := by
  cases h <;> rfl

theorem RunEnded.protocol {result : Except (ResumableUploadError E) ResumableUploadResult}
    {opening : List (Event E)} (h : u.RunEnded source start resumed log result)
    (hvalid : Upload.validateCheckpoint (E := E) u.options start = .ok ())
    (hopened : u.Opened begins opening start resumed) :
    ∃ blocks completion abort,
      u.Protocol source start (opening ++ log) opening blocks completion abort result := by
  have hread : ∀ log : List (Event E), chunksRead (opening ++ log) = chunksRead log := by
    intro log
    rw [chunksRead_append, hopened.chunksRead_eq, Nat.zero_add]
  have hconcat : ∀ (log : List (Event E)) (e : Event E), e.isChunk = false →
      chunksRead (log ++ [e]) = chunksRead log := by
    intro log e he
    rw [chunksRead_append]
    simp [chunksRead, he]
  cases h with
  | succeeded parts =>
    obtain ⟨blocks, completion, hcalls⟩ := parts.calls_spec hvalid
    have hcalls : u.Calls source start (opening ++ (log ++ [])) opening blocks completion [] :=
      hcalls.surround hopened.backendCalls_eq rfl
    rw [List.append_nil] at hcalls
    refine ⟨blocks, completion, [], hcalls, .inl ⟨rfl, by simp⟩, fun hle ↦ ?_⟩
    cases parts.tooMany (hread log ▸ hle)
  | kept parts configured =>
    obtain ⟨blocks, completion, hcalls⟩ := parts.calls_spec hvalid
    have hcalls : u.Calls source start (opening ++ (log ++ [])) opening blocks completion [] :=
      hcalls.surround hopened.backendCalls_eq rfl
    rw [List.append_nil] at hcalls
    refine ⟨blocks, completion, [], hcalls, .inl ⟨rfl, by simp [configured]⟩, fun hle ↦ ?_⟩
    rw [Except.error.inj (parts.tooMany (hread log ▸ hle))]
    exact ⟨_, _, rfl, rfl⟩
  | aborted parts configured | abortFailed parts configured _ =>
    obtain ⟨blocks, completion, hcalls⟩ := parts.calls_spec hvalid
    refine ⟨blocks, completion, _, hcalls.surround hopened.backendCalls_eq rfl,
      .inr ⟨⟨_, rfl⟩, configured, _, rfl⟩, fun hle ↦ ?_⟩
    rw [hread, hconcat _ _ rfl] at hle
    rw [Except.error.inj (parts.tooMany hle)]
    exact ⟨_, _, rfl, rfl⟩

end Protocol

/-! ## A backend that accepts everything -/

structure Obliging (u : ResumableUploader E σ) : Prop where
  creates : ∀ state, ∃ uploadId state', u.backend.createUpload state = (.ok uploadId, state') ∧
    (Text.trim uploadId).isEmpty = false
  uploads : ∀ state uploadId key data, ∃ uploaded state',
    u.backend.uploadPart state uploadId key data = (.ok uploaded, state') ∧
      Acceptable u.digests u.options key data uploaded
  completes : ∀ state uploadId ordered, ∃ state',
    u.backend.completeUpload state uploadId ordered = (.ok (), state')

/-- After so many chunks, with no part beyond them. -/
structure Ahead (s : ResumableUploadSession) (chunks : ℕ) : Prop where
  partNumber : s.partNumber = chunks + 1
  lt_size : chunks < UInt32.size
  le : ∀ (key : UInt32) (part : UploadedPart), s.parts[key]? = some part → key.toNat ≤ chunks

section Obliging

variable {u : ResumableUploader E σ} {s : ResumableUploadSession} {chunks : ℕ} {source : Bytes}

theorem Ahead.hasRemainingParts (h : Ahead s chunks) :
    checkpointHasRemainingParts s.checkpoint s.partNumber = none := by
  rw [checkpointHasRemainingParts, h.partNumber]
  by_cases hlt : chunks + 1 < UInt32.size
  · rw [u32TryFrom, if_pos hlt]
    refine List.find?_eq_none.mpr fun key hkey ↦ ?_
    obtain ⟨part, hpart⟩ := Option.isSome_iff_exists.mp
      (Std.TreeMap.mem_iff_isSome_getElem?.mp (Std.TreeMap.mem_keys.mp hkey))
    have hle := h.le key part hpart
    have hnext : (UInt32.ofNat (chunks + 1)).toNat = chunks + 1 := UInt32.toNat_ofNat_of_lt hlt
    rw [decide_eq_true_iff, UInt32.le_iff_toNat_le, hnext]
    omega
  · rw [u32TryFrom, if_neg hlt]
    rfl

theorem Ahead.nextChunk_nil (h : Ahead s chunks) :
    s.nextChunk (E := E) u.digests u.options [] = (.ok .finish, s) := by
  simp only [ResumableUploadSession.nextChunk, List.isEmpty_nil, if_true, h.hasRemainingParts]

theorem Ahead.advance {parts : Parts} {key : UInt32} (h : Ahead s chunks)
    (hkey : key.toNat = chunks + 1) (n : ℕ)
    (hparts : ∀ key' part, parts[key']? = some part → key' = key ∨ s.parts[key']? = some part) :
    Ahead ((s.countBytes n).withParts parts).advancePartNumber (chunks + 1) := by
  have hlt : chunks + 1 < UInt32.size := hkey ▸ key.toNat_lt_size
  refine ⟨?_, hlt, fun key' part hpart ↦ ?_⟩
  · change (s.partNumber + 1) % 2 ^ 64 = _
    rw [h.partNumber]
    exact Nat.mod_eq_of_lt (by unfold UInt32.size at hlt; omega)
  · rcases hparts key' part hpart with rfl | hold
    · exact hkey.le
    · exact (h.le key' part hold).trans (Nat.le_succ _)

theorem uploadLoop_of_obliging {s : ResumableUploadSession} {chunks : ℕ} (hu : u.Obliging)
    (hsize : 0 < u.options.partSize) (h : Ahead s chunks) {reader : SourceReader}
    (hfaultless : reader.Faultless)
    (hreader : reader.source = source.drop (chunks * u.options.partSize)) (state : σ) :
    Logged.Ensures (u.uploadLoop s reader state) fun _ r ↦
      r.1 = .ok () ∧ Chunks.count u.options.partSize source < UInt32.size ∨
      (∃ checkpoint, r.1 = .error (.tooManyUploadParts UInt32.size maxResumableUploadPartNumber
        checkpoint)) ∧ UInt32.size ≤ Chunks.count u.options.partSize source := by
  obtain ⟨reader', hfetch, hrest, hfaultless'⟩ := hfaultless.readChunk u.runtime u.options.partSize
  obtain ⟨chunk, hchunk⟩ : ∃ chunk, Chunks.chunk u.options.partSize chunks source = chunk :=
    ⟨_, rfl⟩
  have hread : readChunk u.runtime reader u.options.partSize = (.ok chunk, reader') := by
    rw [hfetch, hreader, ← hchunk]
    rfl
  rw [hreader, Chunks.drop_drop_chunk] at hrest
  rw [uploadLoop_read_ok hread]
  refine Logged.ensures_tell_bind.mpr ?_
  by_cases hnil : chunk = []
  · have hcount := (Chunks.chunk_eq_nil_iff hsize).mp (hchunk.trans hnil)
    rw [hnil, h.nextChunk_nil]
    exact .inl ⟨rfl, hcount.trans_lt h.lt_size⟩
  have hcount := (Chunks.chunk_ne_nil_iff hsize).mp (hchunk ▸ hnil)
  by_cases hmax : chunks + 1 < UInt32.size
  swap
  · have hlast : s.partNumber = UInt32.size :=
      h.partNumber.trans (le_antisymm h.lt_size (not_lt.mp hmax))
    rw [ResumableUploadSession.nextChunk_of_size_le hnil hlast.ge, hlast]
    exact .inr ⟨⟨_, rfl⟩, (not_lt.mp hmax).trans hcount⟩
  obtain ⟨key, hkey⟩ : ∃ key : UInt32, key.toNat = chunks + 1 :=
    ⟨.ofNat (chunks + 1), UInt32.toNat_ofNat_of_lt hmax⟩
  have hnumber : s.partNumber = key.toNat := h.partNumber.trans hkey.symm
  by_cases hfits : ∃ part, s.parts[key]? = some part ∧ Fits u.digests u.options part chunk
  · obtain ⟨part, hpart, hfits⟩ := hfits
    rw [ResumableUploadSession.nextChunk_of_fits hnil hnumber hpart hfits]
    exact uploadLoop_of_obliging hu hsize (h.advance hkey _ fun _ _ ↦ .inr) hfaultless' hrest state
  · push Not at hfits
    obtain ⟨parts, hnext, hparts⟩ :=
      ResumableUploadSession.nextChunk_of_not_fits (E := E) hnil hnumber hfits
    obtain ⟨uploaded, state', hcall, hacceptable⟩ := hu.uploads state
      ((s.countBytes chunk.length).withParts parts).uploadId key chunk
    rw [hnext]
    refine Logged.ensures_bind.mpr ?_
    rw [uploadPartWithRetries_ok hcall]
    simp only [Logged.Ensures, ResumableUploadSession.acceptUploadedPart_of_acceptable hacceptable]
    refine uploadLoop_of_obliging hu hsize (h.advance hkey chunk.length ?_) hfaultless' hrest state'
    intro key' part hpart
    simp only [Std.TreeMap.getElem?_insert, Std.compare_eq_iff_eq] at hpart
    split_ifs at hpart with hsame
    · exact .inl hsame.symm
    · rw [show ResumableUploadSession.parts _ = parts from rfl, hparts,
        if_neg (Ne.symm hsame)] at hpart
      exact .inr hpart
termination_by reader.source.length
decreasing_by
  all_goals exact source_length_lt hread hnil

variable (u) in
theorem validateCheckpoint_freshCheckpoint {uploadId : Text}
    (hid : (Text.trim uploadId).isEmpty = false) :
    Upload.validateCheckpoint (E := E) u.options (u.freshCheckpoint uploadId) = .ok () :=
  validateCheckpoint_eq_ok_iff.mpr ⟨rfl, rfl, hid, rfl, by
    simp [freshCheckpoint, ResumableUploadCheckpoint.new]⟩

theorem completeParts_of_obliging {start : ResumableUploadCheckpoint} {resumed : Bool}
    {log : List (Event E)} {parts : Parts} {blocks : List (Block E)} (hu : u.Obliging)
    (h : u.Progress source start log parts blocks) (hended : .read (.ok []) ∈ log)
    (hall : Chunks.count u.options.partSize source ≤ chunksRead log)
    (hpos : 0 < Chunks.count u.options.partSize source) (state : σ) :
    Logged.Ensures (u.completeParts (sessionAt source start resumed (chunksRead log) parts) state)
      fun _ r ↦ ∃ ordered, r.1 = .ok ordered := by
  unfold completeParts
  rcases h.ordered resumed hended hall with ⟨hzero, -⟩ | ⟨ordered, hordered, -⟩
  · exact absurd hzero hpos.ne'
  · rw [hordered]
    split
    · next heq => cases heq
    · next heq =>
      obtain rfl := Except.ok.inj heq
      obtain ⟨state', hcall⟩ := hu.completes state
        (sessionAt source start resumed (chunksRead log) parts).uploadId ordered
      rw [hcall]
      exact ⟨ordered, rfl⟩

/-- With no part from before, the parts of the source are uploaded and completed, unless
there are more of them than part numbers. -/
theorem uploadParts_of_obliging {start : ResumableUploadCheckpoint} {resumed : Bool}
    (hu : u.Obliging) (hoptions : u.options.validate (E := E) = .ok ())
    (hvalid : Upload.validateCheckpoint (E := E) u.options start = .ok ())
    (hstart : ∀ key : UInt32, start.completedParts[key]? = none) {reader : SourceReader}
    (hfaultless : reader.Faultless) (hreader : reader.source = source)
    (hpos : 0 < Chunks.count u.options.partSize source) (state : σ) :
    Logged.Ensures (u.uploadParts ⟨start, resumed, 0, 1⟩ reader state) fun _ r ↦
      (∃ ordered, r.1 = .ok ordered) ∧ Chunks.count u.options.partSize source < UInt32.size ∨
      (∃ checkpoint, r.1 = .error (.tooManyUploadParts UInt32.size maxResumableUploadPartNumber
        checkpoint)) ∧ UInt32.size ≤ Chunks.count u.options.partSize source := by
  obtain ⟨hsize, -⟩ := u.options.of_validate hoptions
  have hahead : Ahead ⟨start, resumed, 0, 1⟩ 0 := by
    refine ⟨rfl, Nat.succ_pos _, fun key part hpart ↦ ?_⟩
    rw [show ResumableUploadSession.parts _ = start.completedParts from rfl, hstart] at hpart
    cases hpart
  have hloop : Logged.Ensures (u.uploadLoop ⟨start, resumed, 0, 1⟩ reader state) _ :=
    uploadLoop_ended hoptions hvalid hreader state
  have hfree := uploadLoop_of_obliging hu hsize hahead hfaultless (by simpa using hreader) state
  refine (hloop.and hfree).bind ?_
  rintro log ⟨result, session, state'⟩ ⟨hend, ⟨hok, hlt⟩ | ⟨⟨checkpoint, herror⟩, hle⟩⟩
  · obtain rfl : result = .ok () := hok
    cases hend with
    | finished progress ended all session_eq =>
      obtain rfl : session = sessionAt source start resumed (chunksRead log) _ := session_eq
      exact (completeParts_of_obliging hu progress ended all hpos state').mono
        fun _ _ hordered ↦ .inl ⟨hordered, hlt⟩
  · obtain rfl : result = .error _ := herror
    exact .inr ⟨⟨checkpoint, rfl⟩, hle⟩

theorem uploadWithCheckpoint_of_obliging {start : ResumableUploadCheckpoint} {resumed : Bool}
    (hu : u.Obliging) (hoptions : u.options.validate (E := E) = .ok ())
    (hvalid : Upload.validateCheckpoint (E := E) u.options start = .ok ())
    (hstart : ∀ key : UInt32, start.completedParts[key]? = none) {reader : SourceReader}
    (hfaultless : reader.Faultless) (hreader : reader.source = source)
    (hpos : 0 < Chunks.count u.options.partSize source) (state : σ) :
    Logged.Ensures (u.uploadWithCheckpoint reader start resumed state) fun _ r ↦
      (∃ result, r.1 = .ok result) ∧ Chunks.count u.options.partSize source < UInt32.size ∨
      (∃ error checkpoint, r.1 = .error error ∧ error.cause =
        .tooManyUploadParts UInt32.size maxResumableUploadPartNumber checkpoint) ∧
        UInt32.size ≤ Chunks.count u.options.partSize source := by
  have hnew : ResumableUploadSession.new (E := E) u.options start resumed =
      .ok ⟨start, resumed, 0, 1⟩ := by
    rw [ResumableUploadSession.new, hvalid]
  rw [uploadWithCheckpoint, hnew]
  refine (uploadParts_of_obliging hu hoptions hvalid hstart hfaultless hreader hpos state).bind ?_
  rintro log ⟨result, session, state'⟩ (⟨⟨ordered, hok⟩, hlt⟩ | ⟨⟨checkpoint, herror⟩, hle⟩)
  · obtain rfl : result = .ok ordered := hok
    exact .inl ⟨⟨_, rfl⟩, hlt⟩
  · obtain rfl : result = .error _ := herror
    refine Logged.ensures_bind.mpr ?_
    rw [abortErrorIfConfigured]
    cases u.options.abortOnError with
    | false => exact .inr ⟨⟨_, _, rfl, rfl⟩, hle⟩
    | true =>
      rcases u.backend.abortUpload state' session.uploadId with ⟨reply, state''⟩
      cases reply with
      | error refusal => exact .inr ⟨⟨_, _, rfl, rfl⟩, hle⟩
      | ok _ => exact .inr ⟨⟨_, _, rfl, rfl⟩, hle⟩

theorem upload_of_obliging (hu : u.Obliging) (hoptions : u.options.validate (E := E) = .ok ())
    {reader : SourceReader} (hfaultless : reader.Faultless)
    (hpos : 0 < Chunks.count u.options.partSize reader.source) (state : σ) :
    Logged.Ensures (u.run .fresh reader state) fun _ r ↦
      (∃ result, r.1 = .ok result) ∧
        Chunks.count u.options.partSize reader.source < UInt32.size ∨
      (∃ error checkpoint, r.1 = .error error ∧ error.cause =
        .tooManyUploadParts UInt32.size maxResumableUploadPartNumber checkpoint) ∧
        UInt32.size ≤ Chunks.count u.options.partSize reader.source := by
  obtain ⟨uploadId, state', hcreate, hid⟩ := hu.creates state
  rw [run, upload, hoptions]
  split
  · next heq => cases heq
  · rw [hcreate]
    exact uploadWithCheckpoint_of_obliging hu hoptions
      (u.validateCheckpoint_freshCheckpoint hid) (fun _ ↦ rfl) hfaultless rfl hpos state'

end Obliging

/-- The run stopped before its checkpoint was found valid, with these calls. -/
def StoppedEarly (u : ResumableUploader E σ) (begins : Start) (calls : List (Event E)) : Prop :=
  (calls = [] ∧ ∃ error, u.options.validate (E := E) = .error error) ∨
    (begins = .fresh ∧ ∃ refusal, calls = [.createUpload (.error refusal)]) ∨
    ∃ start resumed error, u.Opened begins calls start resumed ∧
      Upload.validateCheckpoint (E := E) u.options start = .error error

/-- The calls of every run follow the protocol. Part 4294967295 may be the last one,
and the next chunk is one too many. -/
theorem calls_follow_protocol (u : ResumableUploader E σ) (begins : Start) (reader : SourceReader)
    (state : σ) :
    ((∃ error, (u.run begins reader state).value.1 = .error error) ∧
        u.StoppedEarly begins (backendCalls (u.run begins reader state).events) ∨
      ∃ opening start resumed blocks completion abort,
        u.Opened begins opening start resumed ∧
        Upload.validateCheckpoint (E := E) u.options start = .ok () ∧
        u.Protocol reader.source start (u.run begins reader state).events opening blocks completion
          abort (u.run begins reader state).value.1) ∧
    (u.Obliging → reader.Faultless → u.options.validate (E := E) = .ok () →
      0 < Chunks.count u.options.partSize reader.source →
      (Chunks.count u.options.partSize reader.source ≤ 4294967295 →
        ∃ result, (u.run .fresh reader state).value.1 = .ok result) ∧
      (4294967295 < Chunks.count u.options.partSize reader.source →
        ∃ error checkpoint, (u.run .fresh reader state).value.1 = .error error ∧
          error.cause = .tooManyUploadParts 4294967296 4294967295 checkpoint)) := by
  constructor
  · have hran := u.ran begins reader state
    generalize (u.run begins reader state).value.1 = result at hran
    generalize (u.run begins reader state).events = events at hran
    cases hran with
    | badOptions invalid => exact .inl ⟨⟨_, rfl⟩, .inl ⟨rfl, _, invalid⟩⟩
    | notCreated begins_eq refusal =>
      exact .inl ⟨⟨_, rfl⟩, .inr (.inl ⟨begins_eq, refusal, rfl⟩)⟩
    | badCheckpoint opened invalid =>
      exact .inl ⟨⟨_, rfl⟩, .inr (.inr ⟨_, _, _, opened.backendCalls_eq.symm ▸ opened, invalid⟩)⟩
    | session opened valid options ended =>
      obtain ⟨blocks, completion, abort, hprotocol⟩ := ended.protocol valid opened
      exact .inr ⟨_, _, _, blocks, completion, abort, opened, valid, hprotocol⟩
  · intro hu hfaultless hoptions hpos
    rcases upload_of_obliging hu hoptions hfaultless hpos state with ⟨hok, hlt⟩ | ⟨herror, hle⟩
    · refine ⟨fun _ ↦ hok, fun hmany ↦ ?_⟩
      unfold UInt32.size at hlt
      omega
    · refine ⟨fun hfew ↦ ?_, fun _ ↦ herror⟩
      unfold UInt32.size at hle
      omega

theorem obliging_sample : (Sample.uploader none).Obliging where
  creates _ := ⟨_, _, rfl, by decide⟩
  uploads _ _ key data := by
    have hchecksum : normalizeToken "'aB'".toList = normalizeToken (encodeHexLower [171]) := by
      decide
    have hetag : normalizeToken " \"AB\" ".toList = normalizeToken (encodeHexLower [171]) := by
      decide
    refine ⟨Sample.part key data, (), rfl, rfl, rfl, ?_⟩
    rintro _ ⟨⟩
    refine ⟨?_, fun _ ↦ hetag⟩
    rintro _ ⟨⟩
    exact hchecksum
  completes _ _ _ := ⟨(), rfl⟩

/-- A source with as many parts as there are part numbers. -/
theorem calls_follow_protocol_last_part :
    ∃ source : Bytes, Chunks.count 2 source = 4294967295 ∧
      ∃ result, ((Sample.uploader none).run .fresh ⟨source, []⟩ ()).value.1 = .ok result := by
  obtain ⟨source, hlength⟩ : ∃ source : Bytes, source.length = 8589934590 :=
    ⟨List.replicate 8589934590 0, List.length_replicate⟩
  have hcount : Chunks.count 2 source = 4294967295 := by
    rw [Chunks.count, hlength, Nat.ceilDiv_eq_add_pred_div]
  have hvalid : Sample.options.validate (E := Unit) = .ok () := by
    unfold ResumableUploadOptions.validate Sample.options ResumableUploadOptions.default
    norm_num [ResumableUploadOptions.isizeMax, fromMillis, fromSecs, nanosPerMilli, nanosPerSecond]
    exact fun h ↦ absurd h (Option.some_ne_none _)
  obtain ⟨-, hlast⟩ := calls_follow_protocol (Sample.uploader none) .fresh ⟨source, []⟩ ()
  have hpos : 0 < Chunks.count 2 source := by
    rw [hcount]
    decide
  have hfaultless : SourceReader.Faultless ⟨source, []⟩ := fun _ h ↦ absurd h List.not_mem_nil
  exact ⟨source, hcount, (hlast obliging_sample hfaultless hvalid hpos).1 hcount.le⟩

end ResumableUploader

end Reqx.Upload
