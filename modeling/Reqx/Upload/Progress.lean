import Reqx.Upload.Acceptance
import Reqx.Upload.Driver

/-!
# What the loop over the chunks has done

The calls of the loop fall into blocks, one for each part that was not skipped: a
block repeats one call until it succeeds or the attempts are used up. From the
log alone one reads which parts were accepted and how many chunks were examined,
and these determine the completed parts of the checkpoint.
-/

namespace Reqx.Upload

open ResumableUploadSession

variable {E σ : Type}

/-! ## Logs -/

def Event.isBackendCall : Event E → Bool
  | .createUpload _ | .uploadPart .. | .completeUpload .. | .abortUpload .. => true
  | .read _ | .sleep _ => false

def Event.isChunk : Event E → Bool
  | .read (.ok (_ :: _)) => true
  | _ => false

def backendCalls (log : List (Event E)) : List (Event E) := log.filter Event.isBackendCall

def chunksRead (log : List (Event E)) : ℕ := log.countP Event.isChunk

@[simp] theorem backendCalls_append (log log' : List (Event E)) :
    backendCalls (log ++ log') = backendCalls log ++ backendCalls log' := List.filter_append ..

@[simp] theorem chunksRead_append (log log' : List (Event E)) :
    chunksRead (log ++ log') = chunksRead log + chunksRead log' := List.countP_append

@[simp] theorem backendCalls_pause (delay : ℕ) : backendCalls (E := E) (pause delay) = [] := by
  unfold pause
  split_ifs <;> rfl

@[simp] theorem chunksRead_pause (delay : ℕ) : chunksRead (E := E) (pause delay) = 0 := by
  unfold pause
  split_ifs <;> rfl

/-- A part that was called: the attempts that failed and the last reply. -/
structure Block (E : Type) where
  partNumber : UInt32
  failures : List E
  last : Except E UploadedPart

def Block.replies (b : Block E) : List (Except E UploadedPart) :=
  b.failures.map Except.error ++ [b.last]

def Block.calls (uploadId : Text) (partData : UInt32 → Bytes) (b : Block E) : List (Event E) :=
  b.replies.map (.uploadPart uploadId b.partNumber (partData b.partNumber))

namespace ResumableUploader

variable (u : ResumableUploader E σ)

/-- The part that a call and its reply add to the checkpoint. -/
def acceptedPart : Event E → Option (UInt32 × UploadedPart)
  | .uploadPart _ partNumber data (.ok uploaded) =>
    if Acceptable u.digests u.options partNumber data uploaded then
      some (partNumber, recorded u.digests u.options data uploaded)
    else none
  | _ => none

def acceptedParts (log : List (Event E)) : List (UInt32 × UploadedPart) :=
  log.filterMap u.acceptedPart

/-- The chunk of the source with this part number. -/
def partData (source : Bytes) (partNumber : UInt32) : Bytes :=
  Chunks.chunk u.options.partSize (partNumber.toNat - 1) source

@[simp] theorem acceptedParts_append (log log' : List (Event E)) :
    u.acceptedParts (log ++ log') = u.acceptedParts log ++ u.acceptedParts log' :=
  List.filterMap_append

theorem acceptedParts_read (log : List (Event E)) (result : Except IoError Bytes) :
    u.acceptedParts (log ++ [Event.read result]) = u.acceptedParts log :=
  (u.acceptedParts_append log _).trans (List.append_nil _)

theorem acceptedParts_backendCalls (log : List (Event E)) :
    u.acceptedParts (backendCalls log) = u.acceptedParts log := by
  rw [acceptedParts, backendCalls, List.filterMap_filter]
  refine List.filterMap_congr fun e _ ↦ ?_
  cases e <;> rfl

theorem acceptedParts_calls (uploadId : Text) (partData : UInt32 → Bytes) (b : Block E) :
    u.acceptedParts (b.calls uploadId partData) =
      (u.acceptedPart
        (.uploadPart uploadId b.partNumber (partData b.partNumber) b.last)).toList := by
  have hfailures : u.acceptedParts ((b.failures.map Except.error).map
      (.uploadPart uploadId b.partNumber (partData b.partNumber))) = [] := by
    refine List.filterMap_eq_nil_iff.mpr fun e he ↦ ?_
    obtain ⟨_, hreply, rfl⟩ := List.mem_map.mp he
    obtain ⟨_, _, rfl⟩ := List.mem_map.mp hreply
    rfl
  rw [Block.calls, Block.replies, List.map_append, acceptedParts_append, hfailures, List.nil_append]
  cases hlast : u.acceptedPart
      (.uploadPart uploadId b.partNumber (partData b.partNumber) b.last) <;>
    simp [acceptedParts, hlast]

theorem mem_acceptedParts_iff {log : List (Event E)} {key : UInt32} {part : UploadedPart} :
    (key, part) ∈ u.acceptedParts log ↔ ∃ uploadId data uploaded,
      .uploadPart uploadId key data (.ok uploaded) ∈ log ∧
        Acceptable u.digests u.options key data uploaded ∧
        part = recorded u.digests u.options data uploaded := by
  rw [acceptedParts, List.mem_filterMap]
  constructor
  · rintro ⟨e, he, hpart⟩
    unfold acceptedPart at hpart
    split at hpart
    · split_ifs at hpart with hacceptable
      cases hpart
      exact ⟨_, _, _, he, hacceptable, rfl⟩
    · cases hpart
  · rintro ⟨uploadId, data, uploaded, he, hacceptable, rfl⟩
    exact ⟨_, he, if_pos hacceptable⟩

/-! ## One part -/

theorem uploadPartWithRetries_spec (session : ResumableUploadSession) (plan : UploadPartPlan)
    (attempt : ℕ) (hattempt : attempt ≤ u.options.maxAttempts) (state : σ) :
    Logged.Ensures (u.uploadPartWithRetries session plan attempt state) fun log r ↦
      ∃ b : Block E, b.partNumber = plan.partNumber ∧
        backendCalls log = b.calls session.uploadId (fun _ ↦ plan.chunk) ∧
        chunksRead log = 0 ∧ attempt + b.failures.length ≤ u.options.maxAttempts ∧
        r.1 = b.last.mapError (session.partUploadFailed plan u.options.maxAttempts) := by
  rcases hcall : u.backend.uploadPart state session.uploadId plan.partNumber plan.chunk with
    ⟨reply, state'⟩
  cases reply with
  | ok part =>
    rw [uploadPartWithRetries_ok hcall]
    exact ⟨⟨plan.partNumber, [], .ok part⟩, rfl, rfl, rfl, hattempt, rfl⟩
  | error source =>
    rcases hattempt.eq_or_lt with rfl | hlt
    · rw [uploadPartWithRetries_last hcall le_rfl]
      exact ⟨⟨plan.partNumber, [], .error source⟩, rfl, rfl, rfl, le_rfl, rfl⟩
    · rw [uploadPartWithRetries_again hcall hlt]
      obtain ⟨b, hnumber, hcalls, hreads, hlength, hresult⟩ :=
        uploadPartWithRetries_spec session plan (attempt + 1) hlt state'
      refine ⟨⟨plan.partNumber, source :: b.failures, b.last⟩, rfl, ?_, ?_, ?_, hresult⟩
      · refine congrArg (_ :: ·) ((backendCalls_append _ _).trans ?_)
        rw [backendCalls_pause, List.nil_append, hcalls, Block.calls, hnumber]
        rfl
      · refine (chunksRead_append [_] (pause _ ++ _)).trans ?_
        rw [chunksRead_append, chunksRead_pause, hreads]
        rfl
      · rw [List.length_cons]
        omega
termination_by u.options.maxAttempts - attempt

/-! ## The invariant of the loop -/

variable (source : Bytes) (start : ResumableUploadCheckpoint)

/-- The completed parts: what was accepted, and what the start had, without the
parts among the first `examined` that do not fit. -/
def Contents (examined : ℕ) (accepted : List (UInt32 × UploadedPart)) (parts : Parts) : Prop :=
  ∀ (key : UInt32) (part : UploadedPart), parts[key]? = some part ↔
    (key, part) ∈ accepted ∨ start.completedParts[key]? = some part ∧
      (examined < key.toNat ∨ Fits u.digests u.options part (u.partData source key))

/-- A part that was called had been examined and was not there, or did not fit. -/
structure Allowed (examined : ℕ) (b : Block E) : Prop where
  pos : 0 < b.partNumber.toNat
  le_examined : b.partNumber.toNat ≤ examined
  attempts : b.failures.length < u.options.maxAttempts
  needed : ∀ part, start.completedParts[b.partNumber]? = some part →
    ¬Fits u.digests u.options part (u.partData source b.partNumber)

def Settled (b : Block E) : Prop :=
  ∃ uploaded, b.last = .ok uploaded ∧
    Acceptable u.digests u.options b.partNumber (u.partData source b.partNumber) uploaded

/-- What holds of the log whenever the loop may stop. -/
structure Trail (log : List (Event E)) (parts : Parts) (blocks : List (Block E)) : Prop where
  le_count : chunksRead log ≤ Chunks.count u.options.partSize source
  calls : backendCalls log = blocks.flatMap (Block.calls start.uploadId (u.partData source))
  contents : u.Contents source start (chunksRead log) (u.acceptedParts log) parts
  allowed : ∀ b ∈ blocks, u.Allowed source start (chunksRead log) b
  increasing : blocks.Pairwise fun a b ↦ a.partNumber.toNat < b.partNumber.toNat
  settled : ∀ b ∈ blocks.dropLast, u.Settled source b

/-- What holds at the top of the loop: besides, every part so far is there and fits. -/
structure Progress (log : List (Event E)) (parts : Parts) (blocks : List (Block E)) : Prop
    extends u.Trail source start log parts blocks where
  lt_size : chunksRead log < UInt32.size
  allSettled : ∀ b ∈ blocks, u.Settled source b
  present : ∀ key : UInt32, 0 < key.toNat → key.toNat ≤ chunksRead log →
    ∃ part, parts[key]? = some part ∧ Fits u.digests u.options part (u.partData source key)

/-- The part that the next chunk belongs to. -/
structure Next (log : List (Event E)) (key : UInt32) (chunk : Bytes) : Prop where
  toNat_eq : key.toNat = chunksRead log + 1
  data : chunk = u.partData source key
  ne_nil : chunk ≠ []

/-- The calls for the part that the next chunk belongs to. -/
structure Called (log : List (Event E)) (key : UInt32) (chunk : Bytes) (b : Block E)
    (calls : List (Event E)) : Prop extends u.Next source log key chunk where
  partNumber : b.partNumber = key
  attempts : b.failures.length < u.options.maxAttempts
  calls_eq : backendCalls calls = b.calls start.uploadId (u.partData source)
  reads : chunksRead calls = 0

section Steps

variable {u source start} {examined : ℕ} {accepted : List (UInt32 × UploadedPart)}
  {log : List (Event E)} {parts parts' : Parts} {blocks : List (Block E)} {key : UInt32}
  {part : UploadedPart}

theorem Contents.of_fits (h : u.Contents source start examined accepted parts)
    (hkey : key.toNat = examined + 1) (hpart : parts[key]? = some part)
    (hfits : Fits u.digests u.options part (u.partData source key)) :
    u.Contents source start (examined + 1) accepted parts := by
  intro key' part'
  rw [h key' part']
  refine or_congr_right (and_congr_right fun hstart ↦ ?_)
  by_cases hsame : key' = key
  · subst hsame
    have hpart' := (h key' part').mpr (.inr ⟨hstart, .inl (by omega)⟩)
    obtain rfl : part = part' := Option.some.inj (hpart.symm.trans hpart')
    exact iff_of_true (.inr hfits) (.inr hfits)
  · have hne : key'.toNat ≠ key.toNat := mt UInt32.toNat_inj.mp hsame
    exact or_congr_left (by omega)

theorem Contents.not_fits_start (h : u.Contents source start examined accepted parts)
    (hkey : key.toNat = examined + 1)
    (hnot : ∀ part, parts[key]? = some part →
      ¬Fits u.digests u.options part (u.partData source key))
    (hstart : start.completedParts[key]? = some part) :
    ¬Fits u.digests u.options part (u.partData source key) :=
  hnot part ((h key part).mpr (.inr ⟨hstart, .inl (by omega)⟩))

theorem Contents.removed (h : u.Contents source start examined accepted parts)
    (hkey : key.toNat = examined + 1) (hnew : ∀ part, (key, part) ∉ accepted)
    (hnot : ∀ part, parts[key]? = some part →
      ¬Fits u.digests u.options part (u.partData source key))
    (hparts' : ∀ key' : UInt32, parts'[key']? = if key' = key then none else parts[key']?) :
    u.Contents source start (examined + 1) accepted parts' := by
  intro key' part'
  rw [hparts' key']
  split_ifs with hsame
  · subst hsame
    refine iff_of_false nofun ?_
    rintro (hmem | ⟨hstart, hlater | hfits⟩)
    · exact hnew part' hmem
    · omega
    · exact h.not_fits_start hkey hnot hstart hfits
  · have hne : key'.toNat ≠ key.toNat := mt UInt32.toNat_inj.mp hsame
    rw [h key' part']
    exact or_congr_right (and_congr_right' (or_congr_left (by omega)))

theorem Contents.inserted (h : u.Contents source start examined accepted parts)
    (hnone : parts[key]? = none) :
    u.Contents source start examined (accepted ++ [(key, part)]) (parts.insert key part) := by
  intro key' part'
  rw [Std.TreeMap.getElem?_insert]
  simp only [Std.compare_eq_iff_eq, List.mem_append, List.mem_singleton, Prod.mk.injEq]
  by_cases hsame : key = key'
  · subst hsame
    have hrest := (h key part').not.mp (by rw [hnone]; nofun)
    rw [not_or] at hrest
    simp only [if_true, Option.some.injEq, true_and, hrest.1, false_or, hrest.2, or_false]
    exact eq_comm
  · rw [if_neg hsame, h key' part']
    simp only [Ne.symm hsame, false_and, or_false]

theorem Trail.accepted_le (h : u.Trail source start log parts blocks)
    (hmem : (key, part) ∈ u.acceptedParts log) : ∃ b ∈ blocks, b.partNumber = key := by
  obtain ⟨uploadId, data, uploaded, hcall, -⟩ := u.mem_acceptedParts_iff.mp hmem
  have hcall' : .uploadPart uploadId key data (.ok uploaded) ∈ backendCalls log :=
    List.mem_filter.mpr ⟨hcall, rfl⟩
  rw [h.calls] at hcall'
  obtain ⟨b, hb, hcall''⟩ := List.mem_flatMap.mp hcall'
  obtain ⟨reply, -, heq⟩ := List.mem_map.mp hcall''
  exact ⟨b, hb, (Event.uploadPart.inj heq).2.1⟩

variable {b : Block E}

theorem Allowed.mono {examined' : ℕ} (h : u.Allowed source start examined b)
    (hle : examined ≤ examined') : u.Allowed source start examined' b :=
  { h with le_examined := h.le_examined.trans hle }

/-- Reading one more event that is not a call. -/
theorem Trail.read {result : Except IoError Bytes} (h : u.Trail source start log parts blocks)
    (hcount : chunksRead (log ++ [Event.read result]) ≤ Chunks.count u.options.partSize source)
    (hcontents : u.Contents source start (chunksRead (log ++ [Event.read result]))
      (u.acceptedParts log) parts') :
    u.Trail source start (log ++ [Event.read result]) parts' blocks where
  le_count := hcount
  calls := by rw [backendCalls_append, h.calls]; exact List.append_nil _
  contents := by rwa [acceptedParts_read]
  allowed b hb := (h.allowed b hb).mono (by rw [chunksRead_append]; exact Nat.le_add_right _ _)
  increasing := h.increasing
  settled := h.settled

variable {calls : List (Event E)}

/-- One more block of calls. -/
theorem Trail.call (h : u.Trail source start log parts blocks)
    (hsettled : ∀ b ∈ blocks, u.Settled source b)
    (hcalls : backendCalls calls = b.calls start.uploadId (u.partData source))
    (hreads : chunksRead calls = 0) (hb : u.Allowed source start (chunksRead log) b)
    (hlast : ∀ b' ∈ blocks, b'.partNumber.toNat < b.partNumber.toNat)
    (hcontents : u.Contents source start (chunksRead log) (u.acceptedParts (log ++ calls)) parts') :
    u.Trail source start (log ++ calls) parts' (blocks ++ [b]) := by
  have hread : chunksRead (log ++ calls) = chunksRead log := by
    rw [chunksRead_append, hreads, Nat.add_zero]
  refine ⟨hread ▸ h.le_count, ?_, hread ▸ hcontents, ?_, ?_, ?_⟩
  · rw [backendCalls_append, h.calls, hcalls, List.flatMap_append, List.flatMap_singleton]
  · intro b' hb'
    rw [hread]
    rcases List.mem_append.mp hb' with hb' | hb'
    · exact h.allowed b' hb'
    · rwa [List.mem_singleton.mp hb']
  · refine List.pairwise_append.mpr ⟨h.increasing, List.pairwise_singleton _ _, ?_⟩
    intro b' hb' b'' hb''
    rw [List.mem_singleton.mp hb'']
    exact hlast b' hb'
  · rwa [List.dropLast_concat]

theorem acceptedParts_eq_of_calls {uploadId : Text}
    (hcalls : backendCalls calls = b.calls uploadId (u.partData source)) :
    u.acceptedParts calls = (u.acceptedPart (.uploadPart uploadId b.partNumber
      (u.partData source b.partNumber) b.last)).toList := by
  rw [← acceptedParts_backendCalls, hcalls, acceptedParts_calls]

variable {chunk : Bytes}

theorem chunksRead_read (hchunk : chunk ≠ []) :
    chunksRead (log ++ [Event.read (.ok chunk)]) = chunksRead log + 1 := by
  rw [chunksRead_append]
  cases chunk with
  | nil => exact absurd rfl hchunk
  | cons byte chunk => rfl

theorem Next.lt_count (hn : u.Next source log key chunk) (hsize : 0 < u.options.partSize) :
    chunksRead log < Chunks.count u.options.partSize source := by
  have hne := hn.ne_nil
  rw [hn.data, partData, hn.toNat_eq, Nat.add_sub_cancel] at hne
  exact (Chunks.chunk_ne_nil_iff hsize).mp hne

/-- The end of the source, or an error, leaves everything as it is. -/
theorem Progress.stopped {result : Except IoError Bytes}
    (h : u.Progress source start log parts blocks)
    (hnone : (Event.read (E := E) result).isChunk = false) :
    u.Progress source start (log ++ [Event.read result]) parts blocks := by
  have hread : chunksRead (log ++ [Event.read result]) = chunksRead log := by
    rw [chunksRead_append]
    simp [chunksRead, hnone]
  exact
    { h.toTrail.read (hread ▸ h.le_count) (hread ▸ h.contents) with
      lt_size := hread ▸ h.lt_size
      allSettled := h.allSettled
      present := hread ▸ h.present }

/-- A chunk was read whose part is there. -/
theorem Progress.skipped (h : u.Progress source start log parts blocks)
    (hsize : 0 < u.options.partSize) (hn : u.Next source log key chunk)
    (hpart : parts[key]? = some part) (hfits : Fits u.digests u.options part chunk) :
    u.Progress source start (log ++ [Event.read (.ok chunk)]) parts blocks := by
  have hread : chunksRead (log ++ [Event.read (.ok chunk)]) = chunksRead log + 1 :=
    chunksRead_read hn.ne_nil
  have hkey := hn.toNat_eq
  rw [hn.data] at hfits
  refine { h.toTrail.read ?_ ?_ with lt_size := ?_, allSettled := h.allSettled, present := ?_ }
  · exact hread ▸ hn.lt_count hsize
  · exact hread ▸ h.contents.of_fits hkey hpart hfits
  · exact hread ▸ hkey ▸ key.toNat_lt_size
  · intro key' hpos hle
    rw [hread] at hle
    rcases hle.eq_or_lt with heq | hlt
    · obtain rfl : key' = key := UInt32.toNat_inj.mp (heq.trans hkey.symm)
      exact ⟨part, hpart, hfits⟩
    · exact h.present key' hpos (Nat.le_of_lt_succ hlt)

/-- The part of this chunk has to be uploaded; one that does not fit is taken out. -/
structure Planned (key : UInt32) (chunk : Bytes) (parts parts' : Parts) : Prop where
  not_fits : ∀ part, parts[key]? = some part → ¬Fits u.digests u.options part chunk
  parts_eq : ∀ key' : UInt32, parts'[key']? = if key' = key then none else parts[key']?

/-- A chunk was read whose part has to be uploaded. -/
theorem Progress.planned (h : u.Progress source start log parts blocks)
    (hsize : 0 < u.options.partSize) (hn : u.Next source log key chunk)
    (hplanned : u.Planned key chunk parts parts') :
    u.Trail source start (log ++ [Event.read (.ok chunk)]) parts' blocks := by
  have hread : chunksRead (log ++ [Event.read (.ok chunk)]) = chunksRead log + 1 :=
    chunksRead_read hn.ne_nil
  have hkey := hn.toNat_eq
  have hnot := hplanned.not_fits
  rw [hn.data] at hnot
  refine h.toTrail.read (hread ▸ hn.lt_count hsize)
    (hread ▸ h.contents.removed hkey ?_ hnot hplanned.parts_eq)
  intro part hmem
  obtain ⟨b, hb, rfl⟩ := h.accepted_le hmem
  have hle := (h.allowed b hb).le_examined
  omega

/-- The part of that chunk was called. -/
theorem Progress.called (h : u.Progress source start log parts blocks)
    (hsize : 0 < u.options.partSize) (hcalled : u.Called source start log key chunk b calls)
    (hplanned : u.Planned key chunk parts parts')
    {parts'' : Parts}
    (hcontents : u.Contents source start (chunksRead log + 1)
      (u.acceptedParts log ++ u.acceptedParts calls) parts'') :
    u.Trail source start (log ++ [Event.read (.ok chunk)] ++ calls) parts'' (blocks ++ [b]) := by
  have hread : chunksRead (log ++ [Event.read (.ok chunk)]) = chunksRead log + 1 :=
    chunksRead_read hcalled.ne_nil
  have hkey := hcalled.toNat_eq
  have hnumber := hcalled.partNumber
  subst hnumber
  refine (h.planned hsize hcalled.toNext hplanned).call h.allSettled hcalled.calls_eq
    hcalled.reads ?_ ?_ ?_
  · refine ⟨by omega, by omega, hcalled.attempts, fun part hpart ↦ ?_⟩
    have hnot := hplanned.not_fits
    rw [hcalled.data] at hnot
    exact h.contents.not_fits_start hkey hnot hpart
  · intro b' hb'
    have hle := (h.allowed b' hb').le_examined
    omega
  · rwa [hread, acceptedParts_append, acceptedParts_read]

/-- No call for the part led to a part in the checkpoint. -/
theorem Progress.refused (h : u.Progress source start log parts blocks)
    (hsize : 0 < u.options.partSize) (hcalled : u.Called source start log key chunk b calls)
    (hplanned : u.Planned key chunk parts parts')
    (hrefused : ∀ uploaded, b.last = .ok uploaded →
      ¬Acceptable u.digests u.options key chunk uploaded) :
    u.Trail source start (log ++ [Event.read (.ok chunk)] ++ calls) parts' (blocks ++ [b]) := by
  have hread : chunksRead (log ++ [Event.read (.ok chunk)]) = chunksRead log + 1 :=
    chunksRead_read hcalled.ne_nil
  have haccepted : u.acceptedParts calls = [] := by
    rw [acceptedParts_eq_of_calls hcalled.calls_eq, hcalled.partNumber, ← hcalled.data]
    cases hlast : b.last with
    | error e => rfl
    | ok uploaded => rw [acceptedPart, if_neg (hrefused uploaded hlast), Option.toList_none]
  refine h.called hsize hcalled hplanned ?_
  have hcontents := (h.planned hsize hcalled.toNext hplanned).contents
  rw [hread, acceptedParts_read] at hcontents
  rwa [haccepted, List.append_nil]

theorem Progress.extended {uploaded : UploadedPart} (h : u.Progress source start log parts blocks)
    (hsize : 0 < u.options.partSize) (hcalled : u.Called source start log key chunk b calls)
    (hplanned : u.Planned key chunk parts parts')
    (hlast : b.last = .ok uploaded)
    (hacceptable : Acceptable u.digests u.options key chunk uploaded) :
    u.Progress source start (log ++ [Event.read (.ok chunk)] ++ calls)
      (parts'.insert key (recorded u.digests u.options chunk uploaded)) (blocks ++ [b]) := by
  have hread : chunksRead (log ++ [Event.read (.ok chunk)] ++ calls) = chunksRead log + 1 := by
    rw [chunksRead_append, hcalled.reads, chunksRead_read hcalled.ne_nil, Nat.add_zero]
  have hkey := hcalled.toNat_eq
  have haccepted : u.acceptedParts calls =
      [(key, recorded u.digests u.options chunk uploaded)] := by
    rw [acceptedParts_eq_of_calls hcalled.calls_eq, hcalled.partNumber, ← hcalled.data, hlast,
      acceptedPart, if_pos hacceptable, Option.toList_some]
  have hcontents := (h.planned hsize hcalled.toNext hplanned).contents
  rw [chunksRead_read hcalled.ne_nil, acceptedParts_read] at hcontents
  have htrail := h.called hsize hcalled hplanned (haccepted ▸ hcontents.inserted
    (by rw [hplanned.parts_eq, if_pos rfl]))
  refine { htrail with lt_size := ?_, allSettled := ?_, present := ?_ }
  · exact hread ▸ hkey ▸ key.toNat_lt_size
  · intro b' hb'
    rcases List.mem_append.mp hb' with hb' | hb'
    · exact h.allSettled b' hb'
    · rw [List.mem_singleton.mp hb', Settled, hcalled.partNumber, ← hcalled.data]
      exact ⟨uploaded, hlast, hacceptable⟩
  · intro key' hpos hle
    rw [Std.TreeMap.getElem?_insert]
    simp only [Std.compare_eq_iff_eq]
    split_ifs with hsame
    · subst hsame
      exact ⟨_, rfl, hcalled.data ▸ hacceptable.fits_recorded⟩
    · have hne : key.toNat ≠ key'.toNat := mt UInt32.toNat_inj.mp hsame
      rw [hplanned.parts_eq, if_neg (Ne.symm hsame)]
      exact h.present key' hpos (by omega)

end Steps

end ResumableUploader

/-- The session after so many chunks. -/
def sessionAt (source : Bytes) (start : ResumableUploadCheckpoint) (resumed : Bool) (chunks : ℕ)
    (parts : Parts) : ResumableUploadSession where
  checkpoint := { start with completedParts := parts }
  resumed := resumed
  totalBytes := min (min (chunks * start.partSize) source.length) u64Max
  partNumber := chunks + 1

theorem sessionAt_advance (source : Bytes) (start : ResumableUploadCheckpoint) (resumed : Bool)
    {chunks : ℕ} (parts parts' : Parts) (hchunks : chunks + 1 < UInt32.size) :
    (((sessionAt source start resumed chunks parts).countBytes
      (Chunks.chunk start.partSize chunks source).length).withParts parts').advancePartNumber =
      sessionAt source start resumed (chunks + 1) parts' := by
  have hbytes : min (chunks * start.partSize) source.length +
      (Chunks.chunk start.partSize chunks source).length =
      min ((chunks + 1) * start.partSize) source.length := Chunks.min_add_length_chunk
  have hnumber : (chunks + 1 + 1) % 2 ^ 64 = chunks + 1 + 1 :=
    Nat.mod_eq_of_lt (by unfold UInt32.size at hchunks; omega)
  simp only [sessionAt, countBytes, withParts,
    advancePartNumber, hnumber, ← hbytes]
  congr 1
  omega

namespace ResumableUploader

variable (u : ResumableUploader E σ) (source : Bytes) (start : ResumableUploadCheckpoint)
  (resumed : Bool)

/-- How the loop ends. -/
inductive LoopEnded :
    List (Event E) → Except (ResumableUploadError E) Unit → ResumableUploadSession → Prop
  | finished {log : List (Event E)} {parts : Parts} {blocks : List (Block E)}
      {session : ResumableUploadSession}
      (progress : u.Progress source start log parts blocks) (ended : .read (.ok []) ∈ log)
      (all : Chunks.count u.options.partSize source ≤ chunksRead log)
      (session_eq : session = sessionAt source start resumed (chunksRead log) parts) :
      LoopEnded log (.ok ()) session
  | failed {log : List (Event E)} {parts : Parts} {blocks : List (Block E)}
      {error : ResumableUploadError E} {session : ResumableUploadSession}
      (trail : u.Trail source start log parts blocks)
      (checkpoint : session.checkpoint = { start with completedParts := parts })
      (carried : error.checkpoint = some session.checkpoint)
      (tooMany : UInt32.size ≤ chunksRead log → error =
        .tooManyUploadParts UInt32.size maxResumableUploadPartNumber session.checkpoint) :
      LoopEnded log (.error error) session

variable {u source start resumed}

section Ends

variable {log : List (Event E)} {parts : Parts} {blocks : List (Block E)} {key : UInt32}
  {chunk : Bytes}

theorem Progress.failed (h : u.Progress source start log parts blocks)
    {error : ResumableUploadError E} {session : ResumableUploadSession}
    (hsession : session.checkpoint = { start with completedParts := parts })
    (herror : error.checkpoint = some session.checkpoint) :
    u.LoopEnded source start resumed log (.error error) session :=
  .failed h.toTrail hsession herror fun hle ↦ absurd h.lt_size (not_lt.mpr hle)

/-- The source is at its end. -/
theorem Progress.finished (h : u.Progress source start log parts blocks)
    (hall : Chunks.count u.options.partSize source ≤ chunksRead log) :
    u.LoopEnded source start resumed (log ++ [Event.read (.ok [])]) (.ok ())
      (sessionAt source start resumed (chunksRead log) parts) := by
  have hread : chunksRead (log ++ [Event.read (E := E) (.ok [])]) = chunksRead log :=
    chunksRead_append ..
  exact .finished (h.stopped rfl) (by simp) (hread ▸ hall) (by rw [hread])

/-- The chunk after the last part number there is. -/
theorem Progress.tooMany (h : u.Progress source start log parts blocks)
    (hcount : chunksRead log < Chunks.count u.options.partSize source) (hchunk : chunk ≠ [])
    (hlast : chunksRead log + 1 = UInt32.size) :
    u.LoopEnded source start resumed (log ++ [Event.read (.ok chunk)])
      (.error (.tooManyUploadParts
        (sessionAt source start resumed (chunksRead log) parts).partNumber
        maxResumableUploadPartNumber
        (sessionAt source start resumed (chunksRead log) parts).checkpoint))
      (sessionAt source start resumed (chunksRead log) parts) := by
  have hread : chunksRead (log ++ [Event.read (.ok chunk)]) = chunksRead log + 1 :=
    chunksRead_read hchunk
  refine .failed (h.toTrail.read (hread ▸ hcount) ?_) rfl rfl
    fun _ ↦ congrArg (ResumableUploadError.tooManyUploadParts · _ _) hlast
  rw [hread]
  intro key part
  rw [h.contents key part]
  have hkey := key.toNat_lt_size
  exact or_congr_right (and_congr_right' (or_congr_left (by omega)))

end Ends

section Session

variable {log : List (Event E)} {parts parts' : Parts} {key : UInt32} {chunk : Bytes}

theorem Next.advance (hn : u.Next source log key chunk)
    (hstart : start.partSize = u.options.partSize) :
    (((sessionAt source start resumed (chunksRead log) parts).countBytes chunk.length).withParts
      parts').advancePartNumber = sessionAt source start resumed (chunksRead log + 1) parts' := by
  have hchunk := hn.data
  rw [partData, hn.toNat_eq, Nat.add_sub_cancel, ← hstart] at hchunk
  rw [hchunk]
  exact sessionAt_advance source start resumed parts parts' (hn.toNat_eq ▸ key.toNat_lt_size)

theorem Next.skip {part : UploadedPart} (hn : u.Next source log key chunk)
    (hstart : start.partSize = u.options.partSize) (hpart : parts[key]? = some part)
    (hfits : Fits u.digests u.options part chunk) :
    (sessionAt source start resumed (chunksRead log) parts).nextChunk (E := E) u.digests u.options
      chunk = (.ok .skip, sessionAt source start resumed (chunksRead log + 1) parts) := by
  rw [← hn.advance hstart]
  exact nextChunk_of_fits hn.ne_nil hn.toNat_eq.symm hpart hfits

theorem Next.accept {uploaded : UploadedPart} (hn : u.Next source log key chunk)
    (hstart : start.partSize = u.options.partSize)
    (hacceptable : Acceptable u.digests u.options key chunk uploaded) :
    (((sessionAt source start resumed (chunksRead log) parts).countBytes chunk.length).withParts
      parts').acceptUploadedPart (E := E) u.options
        ⟨key, chunk, u.options.expectedChecksum u.digests chunk⟩ uploaded =
      (.ok (), sessionAt source start resumed (chunksRead log + 1)
        (parts'.insert key (recorded u.digests u.options chunk uploaded))) := by
  rw [acceptUploadedPart_of_acceptable hacceptable, ← hn.advance hstart]
  rfl

end Session

/-- The part of the next chunk is uploaded, and the loop goes on if the reply is accepted. -/
theorem Progress.upload_spec {log : List (Event E)} {parts parts' : Parts} {blocks : List (Block E)}
    {key : UInt32} {chunk : Bytes} (h : u.Progress source start log parts blocks)
    (hsize : 0 < u.options.partSize) (hattempts : 0 < u.options.maxAttempts)
    (hstart : start.partSize = u.options.partSize) (hn : u.Next source log key chunk)
    (hplanned : u.Planned key chunk parts parts')
    {session : ResumableUploadSession} (hsession : session =
      ((sessionAt source start resumed (chunksRead log) parts).countBytes chunk.length).withParts
        parts') {reader : SourceReader}
    (hnext : ∀ log' parts' blocks' state', u.Progress source start log' parts' blocks' →
      chunksRead log' = chunksRead log + 1 →
      Logged.Ensures
        (u.uploadLoop (sessionAt source start resumed (chunksRead log') parts') reader state')
        fun log'' r ↦ u.LoopEnded source start resumed (log' ++ log'') r.1 r.2.1) (state : σ) :
    Logged.Ensures (do
      let (uploaded, state) ← u.uploadPartWithRetries session
        ⟨key, chunk, u.options.expectedChecksum u.digests chunk⟩ 1 state
      match uploaded with
      | .error error => return (.error error, session, state)
      | .ok uploaded =>
        match session.acceptUploadedPart u.options
          ⟨key, chunk, u.options.expectedChecksum u.digests chunk⟩ uploaded with
        | (.error error, session) => return (.error error, session, state)
        | (.ok (), session) => u.uploadLoop session reader state)
      fun log' r ↦
        u.LoopEnded source start resumed (log ++ [Event.read (.ok chunk)] ++ log') r.1 r.2.1 := by
  refine (u.uploadPartWithRetries_spec _ _ 1 hattempts state).bind ?_
  rintro calls ⟨result, state'⟩ ⟨b, hnumber, hcalls, hreads, hlength, hresult⟩
  have hcalled : u.Called source start log key chunk b calls := by
    refine ⟨hn, hnumber, by omega, ?_, hreads⟩
    rw [hcalls, Block.calls, Block.calls, hnumber, ← hn.data, hsession]
    rfl
  have hread : chunksRead (log ++ [Event.read (.ok chunk)] ++ calls) = chunksRead log + 1 := by
    rw [chunksRead_append, hreads, chunksRead_read hn.ne_nil, Nat.add_zero]
  have hsmall : ¬UInt32.size ≤ chunksRead (log ++ [Event.read (.ok chunk)] ++ calls) := by
    rw [hread, ← hn.toNat_eq]
    exact not_le.mpr key.toNat_lt_size
  have hcheckpoint : session.checkpoint = { start with completedParts := parts' } := by
    rw [hsession]
    rfl
  simp only at hresult
  simp only [← List.append_assoc]
  cases hlast : b.last with
  | error e =>
    obtain rfl : result = .error _ := by rw [hresult, hlast]; rfl
    refine Logged.ensures_pure.mpr ?_
    rw [List.append_nil]
    exact .failed (h.refused hsize hcalled hplanned (by simp [hlast])) hcheckpoint rfl
      fun hle ↦ absurd hle hsmall
  | ok uploaded =>
    obtain rfl : result = .ok uploaded := by rw [hresult, hlast]; rfl
    by_cases hacceptable : Acceptable u.digests u.options key chunk uploaded
    · simp only [hsession, hn.accept hstart hacceptable]
      rw [← hread]
      exact hnext _ _ _ state' (h.extended hsize hcalled hplanned hlast hacceptable) hread
    · obtain ⟨e, he, haccept⟩ :=
        session.acceptUploadedPart_of_not_acceptable (E := E) hacceptable
      simp only [haccept]
      refine Logged.ensures_pure.mpr ?_
      rw [List.append_nil]
      refine .failed (h.refused hsize hcalled hplanned ?_) hcheckpoint he
        fun hle ↦ absurd hle hsmall
      intro uploaded' hlast'
      rwa [Except.ok.inj (hlast.symm.trans hlast')] at hacceptable

theorem uploadLoop_spec {log : List (Event E)} {parts : Parts} {blocks : List (Block E)}
    (hsize : 0 < u.options.partSize) (hattempts : 0 < u.options.maxAttempts)
    (hstart : start.partSize = u.options.partSize) (h : u.Progress source start log parts blocks)
    {reader : SourceReader}
    (hreader : reader.source = source.drop (chunksRead log * u.options.partSize)) (state : σ) :
    Logged.Ensures
      (u.uploadLoop (sessionAt source start resumed (chunksRead log) parts) reader state)
      fun log' r ↦ u.LoopEnded source start resumed (log ++ log') r.1 r.2.1 := by
  rcases hfetch : readChunk u.runtime reader u.options.partSize with ⟨result, reader'⟩
  cases result with
  | error error =>
    rw [uploadLoop_read_error hfetch]
    exact (h.stopped rfl).failed rfl rfl
  | ok chunk =>
    obtain ⟨hchunk, hrest, -⟩ := readChunk_ok hfetch
    rw [hreader] at hchunk hrest
    rw [Chunks.drop_drop_chunk] at hrest
    rw [uploadLoop_read_ok hfetch]
    refine Logged.ensures_tell_bind.mpr ?_
    simp only [← List.append_assoc]
    by_cases hnil : chunk = []
    · subst hnil
      have hall := (Chunks.chunk_eq_nil_iff hsize).mp hchunk.symm
      rcases nextChunk_nil_cases (E := E) _ with hnext | ⟨e, he, hnext⟩
      · rw [hnext]
        refine Logged.ensures_pure.mpr ?_
        rw [List.append_nil]
        exact h.finished hall
      · rw [hnext]
        refine Logged.ensures_pure.mpr ?_
        rw [List.append_nil]
        exact (h.stopped rfl).failed rfl he
    have hcount := (Chunks.chunk_ne_nil_iff hsize).mp (hchunk ▸ hnil)
    by_cases hmax : chunksRead log + 1 < UInt32.size
    swap
    · have hlast : chunksRead log + 1 = UInt32.size := le_antisymm h.lt_size (not_lt.mp hmax)
      rw [nextChunk_of_size_le hnil hlast.ge]
      refine Logged.ensures_pure.mpr ?_
      rw [List.append_nil]
      exact h.tooMany hcount hnil hlast
    obtain ⟨key, hkey⟩ : ∃ key : UInt32, key.toNat = chunksRead log + 1 :=
      ⟨.ofNat (chunksRead log + 1), UInt32.toNat_ofNat_of_lt hmax⟩
    have hn : u.Next source log key chunk := by
      refine ⟨hkey, ?_, hnil⟩
      rw [partData, hkey, Nat.add_sub_cancel]
      exact hchunk
    by_cases hfits : ∃ part, parts[key]? = some part ∧ Fits u.digests u.options part chunk
    · obtain ⟨part, hpart, hfits⟩ := hfits
      have hread : chunksRead (log ++ [Event.read (.ok chunk)]) = chunksRead log + 1 :=
        chunksRead_read hnil
      rw [hn.skip hstart hpart hfits, ← hread]
      exact uploadLoop_spec hsize hattempts hstart (h.skipped hsize hn hpart hfits)
        (hread ▸ hrest) state
    · push Not at hfits
      obtain ⟨parts', hnext, hparts'⟩ := nextChunk_of_not_fits (E := E)
        (s := sessionAt source start resumed (chunksRead log) parts) hnil hkey.symm hfits
      rw [hnext]
      exact h.upload_spec hsize hattempts hstart hn ⟨hfits, hparts'⟩ rfl
        (fun log' parts' blocks' state' h' hread' ↦ uploadLoop_spec hsize hattempts hstart h'
          (hread' ▸ hrest) state') state
termination_by reader.source.length
decreasing_by
  all_goals exact source_length_lt hfetch hnil

end ResumableUploader

end Reqx.Upload
