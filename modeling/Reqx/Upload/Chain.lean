import Reqx.Upload.Guarantees

/-!
# Chains of runs

A fresh upload that fails is resumed from the checkpoint in its error, and again,
each time with another backend, reader and runtime. A part that was accepted once
fits its chunk ever after, so it is never called again.
-/

namespace Reqx.Upload

open Driver (Runtime)

variable {E σ : Type}

def Start.parts : Start → Parts
  | .fresh => ∅
  | .resume checkpoint => checkpoint.completedParts

namespace ResumableUploader

variable {u : ResumableUploader E σ} {source : Bytes} {start : ResumableUploadCheckpoint}
  {log : List (Event E)} {parts : Parts} {blocks : List (Block E)} {begins : Start}
  {result : Except (ResumableUploadError E) ResumableUploadResult}

variable {resumed : Bool}

theorem Opened.parts_eq {opening : List (Event E)} (h : u.Opened begins opening start resumed) :
    start.completedParts = begins.parts := by
  cases h <;> rfl

theorem Trail.nodup_accepted (h : u.Trail source start log parts blocks) :
    ((u.acceptedParts log).map Prod.fst).Nodup := by
  have haccepted : u.acceptedParts log = blocks.filterMap fun b ↦ u.acceptedPart
      (.uploadPart start.uploadId b.partNumber (u.partData source b.partNumber) b.last) := by
    rw [← acceptedParts_backendCalls, h.calls, List.filterMap_eq_flatMap_toList, acceptedParts,
      List.filterMap_flatMap]
    exact List.flatMap_congr fun b _ ↦ u.acceptedParts_calls start.uploadId (u.partData source) b
  have hkey : ∀ (b : Block E) e, e ∈ u.acceptedPart
      (.uploadPart start.uploadId b.partNumber (u.partData source b.partNumber) b.last) →
      e.1 = b.partNumber := by
    intro b e he
    cases hlast : b.last with
    | error refusal =>
      rw [hlast] at he
      cases he
    | ok uploaded =>
      rw [hlast, Option.mem_def, acceptedPart] at he
      split_ifs at he
      cases he
      rfl
  rw [haccepted, List.Nodup, List.pairwise_map]
  refine h.increasing.filterMap _ fun a b hlt e he e' he' heq ↦ ?_
  rw [hkey a e he, hkey b e' he'] at heq
  exact absurd (congrArg UInt32.toNat heq) hlt.ne

/-- The calls of a run for parts, when the run starts from these parts. -/
structure Uploads (u : ResumableUploader E σ) (source : Bytes) (parts : Parts)
    (log : List (Event E)) : Prop where
  nodup : ((u.acceptedParts log).map Prod.fst).Nodup
  fits : ∀ e ∈ u.acceptedParts log, Fits u.digests u.options e.2 (u.partData source e.1)
  needed : ∀ uploadId key data reply, .uploadPart uploadId key data reply ∈ log →
    ∀ part, parts[key]? = some part → ¬Fits u.digests u.options part (u.partData source key)

/-- An event that calls no part. -/
def Quiet (e : Event E) : Prop := ∀ uploadId key data reply, e ≠ .uploadPart uploadId key data reply

theorem acceptedParts_of_quiet (h : ∀ e ∈ log, Quiet e) : u.acceptedParts log = [] := by
  refine List.filterMap_eq_nil_iff.mpr fun e he ↦ ?_
  cases e with
  | uploadPart uploadId key data reply => exact absurd rfl (h _ he uploadId key data reply)
  | _ => rfl

theorem uploads_of_quiet (h : ∀ e ∈ log, Quiet e) : u.Uploads source parts log := by
  have hnone : u.acceptedParts log = [] := acceptedParts_of_quiet h
  refine ⟨by simp [hnone], by simp [hnone], ?_⟩
  intro uploadId key data reply hmem
  exact absurd rfl (h _ hmem uploadId key data reply)

/-- Events that call no part can be left out. -/
theorem Uploads.surround {before after : List (Event E)} (h : u.Uploads source parts log)
    (hbefore : ∀ e ∈ before, Quiet e) (hafter : ∀ e ∈ after, Quiet e) :
    u.Uploads source parts (before ++ (log ++ after)) := by
  have haccepted : u.acceptedParts (before ++ (log ++ after)) = u.acceptedParts log := by
    rw [acceptedParts_append, acceptedParts_append, acceptedParts_of_quiet hbefore,
      acceptedParts_of_quiet hafter, List.nil_append, List.append_nil]
  refine ⟨haccepted ▸ h.nodup, haccepted ▸ h.fits, ?_⟩
  intro uploadId key data reply hmem
  simp only [List.mem_append] at hmem
  rcases hmem with hmem | hmem | hmem
  · exact absurd rfl (hbefore _ hmem uploadId key data reply)
  · exact h.needed uploadId key data reply hmem
  · exact absurd rfl (hafter _ hmem uploadId key data reply)

theorem Uploads.concat {e : Event E} (h : u.Uploads source parts log) (he : Quiet e) :
    u.Uploads source parts (log ++ [e]) :=
  h.surround (List.forall_mem_nil _) (List.forall_mem_singleton.mpr he)

theorem Trail.uploads (h : u.Trail source start log parts blocks) :
    u.Uploads source start.completedParts log := by
  refine ⟨h.nodup_accepted, ?_, ?_⟩
  · rintro ⟨key, part⟩ he
    obtain ⟨uploaded, -, hacceptable, rfl⟩ := h.accepted_call he
    exact hacceptable.fits_recorded
  · intro uploadId key data reply hmem
    obtain ⟨b, hb, reply', -, heq⟩ := h.mem_calls (List.mem_filter.mpr ⟨hmem, rfl⟩)
    obtain ⟨-, rfl, -⟩ := Event.uploadPart.inj heq
    exact (h.allowed b hb).needed

theorem PartsEnded.uploads {session : ResumableUploadSession}
    {result : Except (ResumableUploadError E) (List UploadedPart)}
    (h : u.PartsEnded source start resumed log result session) :
    u.Uploads source start.completedParts log := by
  cases h with
  | completed done session_eq => exact done.uploads.concat nofun
  | rejected done checkpoint refusal =>
    exact done.uploads.concat nofun
  | failed trail checkpoint carried tooMany => exact trail.uploads

theorem RunEnded.uploads (h : u.RunEnded source start resumed log result) :
    u.Uploads source start.completedParts log := by
  cases h with
  | succeeded parts => exact parts.uploads
  | kept parts configured => exact parts.uploads
  | aborted parts configured => exact parts.uploads.concat nofun
  | abortFailed parts configured refusal =>
    exact parts.uploads.concat nofun

theorem Opened.quiet {opening : List (Event E)} (h : u.Opened begins opening start resumed) :
    ∀ e ∈ opening, Quiet e := by
  cases h with
  | fresh uploadId => simp [Quiet]
  | resumed checkpoint => nofun

theorem Ran.uploads (h : u.Ran source begins log result) : u.Uploads source begins.parts log := by
  cases h with
  | badOptions invalid => exact uploads_of_quiet nofun
  | notCreated begins_eq refusal => exact uploads_of_quiet (by simp [Quiet])
  | badCheckpoint opened invalid => exact uploads_of_quiet opened.quiet
  | session opened valid options ended =>
    have huploads := ended.uploads.surround opened.quiet (List.forall_mem_nil _)
    rwa [List.append_nil, opened.parts_eq] at huploads

/-- The checkpoint of a failed run: accepted parts, and parts of the start. -/
theorem Ran.checkpoint {error : ResumableUploadError E} {checkpoint : ResumableUploadCheckpoint}
    (h : u.Ran source begins log (.error error))
    (hcheckpoint : error.checkpoint = some checkpoint) :
    ∃ examined, ∀ (key : UInt32) (part : UploadedPart),
      checkpoint.completedParts[key]? = some part ↔
        (key, part) ∈ u.acceptedParts log ∨ begins.parts[key]? = some part ∧
          (examined < key.toNat ∨ Fits u.digests u.options part (u.partData source key)) := by
  obtain ⟨opening, rest, start, resumed, rfl, hopened, -, -, hcontents⟩ := h.faithful hcheckpoint
  refine ⟨chunksRead rest, fun key part ↦ ?_⟩
  rw [acceptedParts_append, acceptedParts_of_quiet hopened.quiet, List.nil_append,
    ← hopened.parts_eq]
  exact hcontents key part

/-- The parts of a successful run: accepted, or of the start. -/
theorem Ran.completed {outcome : ResumableUploadResult}
    (h : u.Ran source begins log (.ok outcome)) :
    (∃ uploadId, .completeUpload uploadId outcome.completedParts (.ok ()) ∈ log) ∧
      outcome.completedParts.length = Chunks.count u.options.partSize source ∧
      ∀ (i : ℕ) (part : UploadedPart), outcome.completedParts[i]? = some part →
        part.partNumber.toNat = i + 1 ∧
          ((part.partNumber, part) ∈ u.acceptedParts log ∨
            begins.parts[part.partNumber]? = some part) := by
  cases h with
  | session opened valid options ended =>
    cases ended with
    | succeeded parts =>
      cases parts with
      | completed done session_eq =>
        refine ⟨⟨_, List.mem_append_right _ (List.mem_append_right _ List.mem_cons_self)⟩,
          done.length_eq, fun i part hpart ↦ ?_⟩
        obtain ⟨hnumber, hget, -⟩ := done.part valid hpart
        refine ⟨hnumber, ((done.contents part.partNumber part).mp hget).imp ?_ ?_⟩
        · intro hmem
          rw [acceptedParts_append, acceptedParts_append]
          exact List.mem_append_right _ (List.mem_append_left _ hmem)
        · rintro ⟨hstart, -⟩
          rwa [← opened.parts_eq]

end ResumableUploader

/-! ## The chain -/

/-- What one run of a chain meets, besides the source. -/
structure Attempt (E σ : Type) where
  runtime : Runtime
  backend : Backend E σ
  draw : σ → ℕ
  script : List (ReadEvent IoError)
  state : σ

/-- The uploader with the same options under these circumstances. -/
def Attempt.uploader (a : Attempt E σ) (u : ResumableUploader E σ) : ResumableUploader E σ :=
  { u with runtime := a.runtime, backend := a.backend, draw := a.draw }

def Attempt.run (a : Attempt E σ) (u : ResumableUploader E σ) (source : Bytes) (begins : Start) :
    Logged (Event E) (Except (ResumableUploadError E) ResumableUploadResult × σ) :=
  (a.uploader u).run begins ⟨source, a.script⟩ a.state

theorem Attempt.ran (a : Attempt E σ) (u : ResumableUploader E σ) (source : Bytes)
    (begins : Start) : (a.uploader u).Ran source begins (a.run u source begins).events
      (a.run u source begins).value.1 :=
  (a.uploader u).ran begins ⟨source, a.script⟩ a.state

/-- The logs of failed runs, first of a fresh upload, then of resumes from the
checkpoint of the error before, and where the next run begins. -/
inductive Chain (u : ResumableUploader E σ) (source : Bytes) :
    List (List (Event E)) → Start → Prop
  | nil : Chain u source [] .fresh
  | failed {logs : List (List (Event E))} {begins : Start} {error : ResumableUploadError E}
      {checkpoint : ResumableUploadCheckpoint} (chain : Chain u source logs begins)
      (a : Attempt E σ) (failed : (a.run u source begins).value.1 = .error error)
      (carried : error.checkpoint = some checkpoint) :
      Chain u source (logs ++ [(a.run u source begins).events]) (.resume checkpoint)

namespace ResumableUploader

variable {u : ResumableUploader E σ} {source : Bytes} {logs : List (List (Event E))}
  {log : List (Event E)} {begins : Start}
  {result : Except (ResumableUploadError E) ResumableUploadResult}

/-- No call of the later log is for a part accepted in the earlier one. -/
def CallsNone (u : ResumableUploader E σ) (earlier later : List (Event E)) : Prop :=
  ∀ e ∈ u.acceptedParts earlier, ∀ uploadId data reply,
    .uploadPart uploadId e.1 data reply ∉ later

/-- What holds of the logs of a chain. -/
structure Chained (u : ResumableUploader E σ) (source : Bytes) (logs : List (List (Event E))) :
    Prop where
  nodup : ((logs.flatMap u.acceptedParts).map Prod.fst).Nodup
  fits : ∀ e ∈ logs.flatMap u.acceptedParts,
    Fits u.digests u.options e.2 (u.partData source e.1)
  callsNone : logs.Pairwise u.CallsNone

/-- The parts a run begins with are those accepted before. -/
def Begins (u : ResumableUploader E σ) (logs : List (List (Event E))) (begins : Start) : Prop :=
  ∀ (key : UInt32) (part : UploadedPart), begins.parts[key]? = some part ↔
    (key, part) ∈ logs.flatMap u.acceptedParts

theorem Chained.run (h : u.Chained source logs) (hbegins : u.Begins logs begins)
    (huploads : u.Uploads source begins.parts log) : u.Chained source (logs ++ [log]) := by
  obtain ⟨hnodup, hfits, hneeded⟩ := huploads
  -- A part accepted before is among the parts of the start, and fits there.
  have hcalls : ∀ e ∈ logs.flatMap u.acceptedParts, ∀ uploadId data reply,
      .uploadPart uploadId e.1 data reply ∉ log := by
    intro e he uploadId data reply hmem
    exact hneeded uploadId e.1 data reply hmem e.2 ((hbegins e.1 e.2).mpr he) (h.fits e he)
  refine ⟨?_, ?_, ?_⟩
  · rw [List.flatMap_append, List.flatMap_singleton, List.map_append]
    refine List.nodup_append.mpr ⟨h.nodup, hnodup, ?_⟩
    rintro key hkey _ hkey' rfl
    obtain ⟨e, he, rfl⟩ := List.mem_map.mp hkey
    obtain ⟨⟨_, part⟩, he', rfl⟩ := List.mem_map.mp hkey'
    obtain ⟨uploadId, data, uploaded, hmem, -⟩ := u.mem_acceptedParts_iff.mp he'
    exact hcalls e he uploadId data _ hmem
  · intro e he
    rw [List.flatMap_append, List.flatMap_singleton] at he
    exact (List.mem_append.mp he).elim (h.fits e) (hfits e)
  · refine List.pairwise_append.mpr ⟨h.callsNone, List.pairwise_singleton _ _, ?_⟩
    rintro earlier hearlier _ hlater e he
    obtain rfl := List.mem_singleton.mp hlater
    exact hcalls e (List.mem_flatMap.mpr ⟨earlier, hearlier, he⟩)

theorem Begins.resume {checkpoint : ResumableUploadCheckpoint} {examined : ℕ}
    (h : u.Chained source logs) (hbegins : u.Begins logs begins)
    (hcontents : ∀ (key : UInt32) (part : UploadedPart),
      checkpoint.completedParts[key]? = some part ↔
        (key, part) ∈ u.acceptedParts log ∨ begins.parts[key]? = some part ∧
          (examined < key.toNat ∨ Fits u.digests u.options part (u.partData source key))) :
    u.Begins (logs ++ [log]) (.resume checkpoint) := by
  intro key part
  rw [List.flatMap_append, List.flatMap_singleton, List.mem_append]
  refine (hcontents key part).trans ?_
  rw [hbegins key part, or_comm]
  exact or_congr_left ⟨And.left, fun hmem ↦ ⟨hmem, .inr (h.fits (key, part) hmem)⟩⟩

/-- Acceptance and fitting look at the options and the digests only. -/
theorem attempt_uploads (a : Attempt E σ) :
    u.Uploads source begins.parts (a.run u source begins).events := by
  have huploads := (a.ran u source begins).uploads
  exact ⟨huploads.nodup, huploads.fits, huploads.needed⟩

theorem chained_of_chain (h : Chain u source logs begins) :
    u.Chained source logs ∧ u.Begins logs begins := by
  induction h with
  | nil =>
    refine ⟨⟨.nil, nofun, .nil⟩, fun key part ↦ ?_⟩
    simp [Start.parts]
  | @failed logs begins error checkpoint chain a failed carried ih =>
    obtain ⟨hchained, hbegins⟩ := ih
    have hran := a.ran u source begins
    rw [failed] at hran
    obtain ⟨examined, hcontents⟩ := hran.checkpoint carried
    exact ⟨hchained.run hbegins (attempt_uploads a), Begins.resume hchained hbegins hcontents⟩

/-- Over a chain of runs every part is accepted at most once, no part accepted in one
run is called in a later one, and a run that succeeds completes the upload with the
parts accepted over the chain. -/
theorem accepted_once_over_chain (h : Chain u source logs begins) (a : Attempt E σ) :
    (((logs ++ [(a.run u source begins).events]).flatMap u.acceptedParts).map Prod.fst).Nodup ∧
      (logs ++ [(a.run u source begins).events]).Pairwise (fun earlier later ↦
        ∀ e ∈ u.acceptedParts earlier, ∀ uploadId data reply,
          .uploadPart uploadId e.1 data reply ∉ later) ∧
      ∀ result, (a.run u source begins).value.1 = .ok result →
        (∃ uploadId, .completeUpload uploadId result.completedParts (.ok ()) ∈
          (a.run u source begins).events) ∧
        result.completedParts.length = Chunks.count u.options.partSize source ∧
        ∀ (i : ℕ) (part : UploadedPart), result.completedParts[i]? = some part →
          part.partNumber.toNat = i + 1 ∧ (part.partNumber, part) ∈
            (logs ++ [(a.run u source begins).events]).flatMap u.acceptedParts := by
  obtain ⟨hchained, hbegins⟩ := chained_of_chain h
  have hall := hchained.run hbegins (attempt_uploads a)
  refine ⟨hall.nodup, hall.callsNone, fun result hresult ↦ ?_⟩
  have hran := a.ran u source begins
  rw [hresult] at hran
  obtain ⟨hcomplete, hlength, hparts⟩ := hran.completed
  refine ⟨hcomplete, hlength, fun i part hpart ↦ ?_⟩
  obtain ⟨hnumber, hsource⟩ := hparts i part hpart
  refine ⟨hnumber, ?_⟩
  rw [List.flatMap_append, List.flatMap_singleton, List.mem_append]
  exact (hsource.imp_right (hbegins _ _).mp).symm

/-- The second part is refused in the first run and accepted in the next. -/
theorem accepted_once_over_chain_sample :
    ∃ logs begins, Chain (Sample.uploader none) Sample.reader.source logs begins ∧ logs ≠ [] ∧
      ((logs.flatMap (Sample.uploader none).acceptedParts).map Prod.fst ++
        ((Sample.uploader none).acceptedParts ((Attempt.mk .blocking (Sample.backend none)
          (fun _ ↦ 0) [] ()).run (Sample.uploader none) Sample.reader.source begins).events).map
          Prod.fst).Nodup := by
  obtain ⟨error, checkpoint, hrun, hcheckpoint⟩ := Sample.run_error
  have hchain : Chain (Sample.uploader none) Sample.reader.source _ (.resume checkpoint) :=
    .failed .nil ⟨.async, Sample.backend (some 2), fun _ ↦ 0, Sample.reader.script, ()⟩ hrun
      hcheckpoint
  refine ⟨_, _, hchain, List.cons_ne_nil _ _, ?_⟩
  have hnodup := (accepted_once_over_chain hchain
    ⟨.blocking, Sample.backend none, fun _ ↦ 0, [], ()⟩).1
  rwa [List.flatMap_append, List.flatMap_singleton, List.map_append] at hnodup

end ResumableUploader

end Reqx.Upload
