import Reqx.Stream.Helpers

/-!
# What the helpers do

Each loop is followed through its log: what it received, what it wrote, and
whether it stopped because of an answer from outside or because of its limit.
A helper adds the last part, the flush or the decoding, and completes the
stream.
-/

namespace Reqx.Stream

open Driver (Runtime)

variable {T H M : Type}

/-! ## Limits -/

/-- So many bytes are within the limit. The counter stops at `usize::MAX`. -/
def Fits (maxBytes : Option ℕ) (n : ℕ) : Prop :=
  ∀ limit ∈ maxBytes, n ≤ limit ∨ usizeMax ≤ limit

theorem fits_zero (maxBytes : Option ℕ) : Fits maxBytes 0 := fun _ _ ↦ .inl (Nat.zero_le _)

theorem Fits.mono {maxBytes : Option ℕ} {m n : ℕ} (h : Fits maxBytes n) (hle : m ≤ n) :
    Fits maxBytes m :=
  fun limit hlimit ↦ (h limit hlimit).imp_left hle.trans

theorem saturatingAdd_min (n k : ℕ) : saturatingAdd (min n usizeMax) k = min (n + k) usizeMax := by
  unfold saturatingAdd
  omega

theorem exceeded_eq_none_iff {maxBytes : Option ℕ} {n : ℕ} :
    exceeded maxBytes (min n usizeMax) = none ↔ Fits maxBytes n := by
  simp only [exceeded, Option.filter_eq_none_iff, Fits, Option.mem_def, decide_eq_true_eq,
    gt_iff_lt, not_lt, min_le_iff]

theorem fits_some_iff {maxBytes n : ℕ} : Fits (some maxBytes) n ↔ ¬min n usizeMax > maxBytes := by
  simp only [Fits, Option.mem_some_iff, forall_eq', gt_iff_lt, not_lt, min_le_iff]

section Loops

variable [Transport T] {w : World H M} {s s' s'' : ResponseStream T H M}
  {es es' : List (Event H M)}

/-- The body was read to its end. -/
def Drained (s : ResponseStream T H M) (es : List (Event H M)) (s' : ResponseStream T H M) : Prop :=
  Transport.rest s'.body = [] ∧ (Transport.held s.body → EndReported es)

/-- Why a loop that had let `n` bytes through did not come to its end. -/
def Overrun (maxBytes : Option ℕ) (n : ℕ) (es : List (Event H M)) : Prop :=
  ¬Calm es ∨ ¬Fits maxBytes (n + (received es).length)

theorem Overrun.append_left {maxBytes : Option ℕ} {n : ℕ}
    (h : Overrun maxBytes (n + (received es).length) es') : Overrun maxBytes n (es ++ es') := by
  refine h.imp (fun hcalm happend ↦ hcalm (calm_append.mp happend).2) fun hfits ↦ ?_
  rwa [received_append, List.length_append, ← Nat.add_assoc]

theorem Drained.append_left (hmoves : Moves w s es s') (h : Drained s' es' s'') :
    Drained s (es ++ es') s'' :=
  ⟨h.1, fun hheld ↦ (h.2 (hmoves.held.trans hheld)).append_left⟩

/-! ## Collecting -/

theorem ran_collectChunk (completes : Bool) (w : World H M) (maxBytes : ℕ) (collected chunk : Bytes)
    (s : ResponseStream T H M) {totalLen n : ℕ} (hn : totalLen = min n usizeMax) :
    Ran w s (fun es result s' ↦ es = [] ∧ s'.body = s.body ∧
        result = (collected ++ chunk, min (n + chunk.length) usizeMax) ∧
        Fits (some maxBytes) (n + chunk.length))
      (fun es _ ↦ es = [] ∧ ¬Fits (some maxBytes) (n + chunk.length))
      (collectChunk completes maxBytes collected totalLen chunk s) := by
  unfold collectChunk
  rw [hn, saturatingAdd_min]
  dsimp only
  split
  · next hover =>
    have hfits : ¬Fits (some maxBytes) (n + chunk.length) := by
      rw [fits_some_iff, not_not]
      exact hover
    cases completes with
    | true => exact .completed (.refl w s) ⟨rfl, hfits⟩
    | false => exact .stopped (.refl w s) ⟨rfl, hfits⟩
  · next hover => exact .ok (.refl w s) calm_nil ⟨rfl, rfl, rfl, fits_some_iff.mpr hover⟩

theorem ran_readLoop (src : ChunkSource T H M) (completes : Bool) (w : World H M) (maxBytes : ℕ)
    (collected : Bytes) (totalLen : ℕ) (s : ResponseStream T H M) {n : ℕ}
    (hn : totalLen = min n usizeMax) (hfits : Fits (some maxBytes) n) :
    Ran w s (fun es body s' ↦ written es = [] ∧ body = collected ++ received es ∧
        Fits (some maxBytes) (n + (received es).length) ∧ Drained s es s')
      (fun es _ ↦ written es = [] ∧ Overrun (some maxBytes) n es)
      (readLoop src completes w maxBytes collected totalLen s) := by
  fun_induction readLoop src completes w maxBytes collected totalLen s generalizing n with
  | case1 collected totalLen s stop s₁ hnext =>
    refine ((src.ran w s).of_eq hnext).of_stopped.mono (fun _ _ _ _ _ ↦ id) ?_
    exact fun _ _ hbroke ↦ ⟨hbroke.1, .inl hbroke.2⟩
  | case2 collected totalLen s s₁ hnext =>
    obtain ⟨es, hmoves, hcalm, hwritten, -, hreceived, hrest, hend⟩ :=
      ((src.ran w s).of_eq hnext).of_ok
    refine .ok hmoves hcalm ⟨hwritten, ?_, ?_, hrest, hend⟩
    · rw [hreceived, List.append_nil]
    · rwa [hreceived]
  | case3 collected totalLen s chunk s₁ hnext stop s₂ hchunk =>
    obtain ⟨es, hmoves, hcalm, hwritten, -, hreceived, -⟩ :=
      ((src.ran w s).of_eq hnext).of_ok
    have hcollect := (ran_collectChunk completes w maxBytes collected chunk s₁ hn).of_eq hchunk
    refine Ran.after (hcollect.of_stopped.mono (fun _ _ _ _ _ ↦ id) ?_) hmoves hcalm
    rintro _ _ ⟨rfl, hover⟩
    rw [List.append_nil]
    exact ⟨hwritten, .inr (by rwa [hreceived])⟩
  | case4 collected totalLen s chunk s₁ hnext collected' totalLen' s₂ hchunk hlt ih =>
    obtain ⟨es, hmoves, hcalm, hwritten, -, hreceived, -⟩ :=
      ((src.ran w s).of_eq hnext).of_ok
    have hcollect := (ran_collectChunk completes w maxBytes collected chunk s₁ hn).of_eq hchunk
    obtain ⟨_, hmoves₁, -, rfl, hbody, hresult, hfits₁⟩ := hcollect.of_ok
    cases hresult
    have hmoves₂ := hmoves.trans hmoves₁
    rw [List.append_nil] at hmoves₂
    refine Ran.after ((ih rfl hfits₁).mono ?_ ?_) hmoves₂ hcalm
    · rintro es' body s₃ - - ⟨hwritten', rfl, hfits', hdrained⟩
      refine ⟨?_, ?_, ?_, hdrained.append_left hmoves₂⟩
      · rw [written_append, hwritten, hwritten', List.append_nil]
      · rw [received_append, hreceived, List.append_assoc]
      · rwa [received_append, hreceived, List.length_append, ← Nat.add_assoc]
    · rintro es' - ⟨hwritten', hoverrun⟩
      rw [← hreceived] at hoverrun
      exact ⟨by rw [written_append, hwritten, hwritten', List.append_nil],
        hoverrun.append_left⟩

/-! ## Copying -/

theorem ran_copyChunk (rt : Runtime) (w : World H M) (maxBytes : Option ℕ) (chunk : Bytes)
    (s : ResponseStream T H M) {copied n : ℕ} (hn : copied = min n usizeMax)
    (hfits : Fits maxBytes n) :
    Ran w s (fun es result s' ↦ Performed (.writeAll chunk) es ∧ s'.body = s.body ∧
        result = min (n + chunk.length) usizeMax ∧ Fits maxBytes (n + chunk.length))
      (fun es _ ↦ received es = [] ∧ written es <+: chunk ∧
        Fits maxBytes (n + (written es).length) ∧
        (¬Calm es ∨ ¬Fits maxBytes (n + chunk.length)))
      (copyChunk rt w maxBytes copied chunk s) := by
  unfold copyChunk
  rw [hn, saturatingAdd_min]
  dsimp only
  split
  · next limit hexceeded =>
    refine .completed (.refl w s) ⟨rfl, List.nil_prefix, hfits, .inr fun hall ↦ ?_⟩
    rw [exceeded_eq_none_iff.mpr hall] at hexceeded
    cases hexceeded
  · next hexceeded =>
    have hall := exceeded_eq_none_iff.mp hexceeded
    refine (ran_writeWithDeadline rt w s (.writeAll chunk)).andThen ?_ ?_
    · rintro es - ⟨hreceived, hwritten, hcalm⟩
      exact ⟨hreceived, hwritten, hall.mono (Nat.add_le_add_left hwritten.length_le n),
        .inl hcalm⟩
    · rintro es - s₁ - ⟨hperformed, hbody⟩
      refine .ok (.refl w s₁) calm_nil ?_
      rw [List.append_nil]
      exact ⟨hperformed, hbody, rfl, hall⟩

/-- What a loop wrote before it stopped, and why it did. -/
def CutOff (maxBytes : Option ℕ) (n : ℕ) (es : List (Event H M)) : Prop :=
  written es <+: received es ∧ Fits maxBytes (n + (written es).length) ∧ Overrun maxBytes n es

theorem ran_copyLoop (src : ChunkSource T H M) (w : World H M) (maxBytes : Option ℕ) (copied : ℕ)
    (s : ResponseStream T H M) {n : ℕ} (hn : copied = min n usizeMax) (hfits : Fits maxBytes n) :
    Ran w s (fun es result s' ↦ written es = received es ∧
        result = min (n + (received es).length) usizeMax ∧
        Fits maxBytes (n + (received es).length) ∧ Drained s es s')
      (fun es _ ↦ CutOff maxBytes n es) (copyLoop src w maxBytes copied s) := by
  fun_induction copyLoop src w maxBytes copied s generalizing n with
  | case1 copied s stop s₁ hnext =>
    refine ((src.ran w s).of_eq hnext).of_stopped.mono (fun _ _ _ _ _ ↦ id) ?_
    rintro es - ⟨hwritten, hcalm⟩
    exact ⟨hwritten ▸ List.nil_prefix, by rwa [hwritten], .inl hcalm⟩
  | case2 copied s s₁ hnext =>
    obtain ⟨es, hmoves, hcalm, hwritten, -, hreceived, hrest, hend⟩ :=
      ((src.ran w s).of_eq hnext).of_ok
    refine .ok hmoves hcalm ⟨by rw [hwritten, hreceived], ?_, ?_, hrest, hend⟩
    · rwa [hreceived]
    · rwa [hreceived]
  | case3 copied s chunk s₁ hnext stop s₂ hchunk =>
    obtain ⟨es, hmoves, hcalm, hwritten, -, hreceived, -⟩ :=
      ((src.ran w s).of_eq hnext).of_ok
    have hcopy := (ran_copyChunk src.runtime w maxBytes chunk s₁ hn hfits).of_eq hchunk
    refine Ran.after (hcopy.of_stopped.mono (fun _ _ _ _ _ ↦ id) ?_) hmoves hcalm
    rintro es' - ⟨hreceived', hwritten', hfits', hwhy⟩
    refine ⟨?_, ?_, ?_⟩
    · simpa [hwritten, hreceived, hreceived'] using hwritten'
    · simpa [hwritten] using hfits'
    · refine hwhy.imp (fun hcalm' h ↦ hcalm' (calm_append.mp h).2) fun hover ↦ ?_
      simpa [hreceived, hreceived'] using hover
  | case4 copied s chunk s₁ hnext copied' s₂ hchunk hlt ih =>
    obtain ⟨es, hmoves, hcalm, hwritten, -, hreceived, -⟩ :=
      ((src.ran w s).of_eq hnext).of_ok
    have hcopy := (ran_copyChunk src.runtime w maxBytes chunk s₁ hn hfits).of_eq hchunk
    obtain ⟨es₁, hmoves₁, hcalm₁, ⟨hreceived₁, hwritten₁, -⟩, hbody, hresult, hfits₁⟩ :=
      hcopy.of_ok
    have hchunked : written (es ++ es₁) = chunk ∧ received (es ++ es₁) = chunk := by
      simp [hwritten, hwritten₁, hreceived, hreceived₁, Operation.bytes]
    refine Ran.after ((ih hresult hfits₁).mono ?_ ?_) (hmoves.trans hmoves₁)
      (calm_append.mpr ⟨hcalm, hcalm₁⟩)
    · rintro es' result s₃ - - ⟨hwritten', hresult', hfits', hdrained⟩
      refine ⟨?_, ?_, ?_, hdrained.append_left (hmoves.trans hmoves₁)⟩
      · rw [written_append, received_append, hchunked.1, hchunked.2, hwritten']
      · rwa [received_append, hchunked.2, List.length_append, ← Nat.add_assoc]
      · rwa [received_append, hchunked.2, List.length_append, ← Nat.add_assoc]
    · rintro es' - ⟨hwritten', hfits', hoverrun⟩
      refine ⟨?_, ?_, ?_⟩
      · rw [written_append, received_append, hchunked.1, hchunked.2]
        exact (List.prefix_append_right_inj chunk).mpr hwritten'
      · rwa [written_append, hchunked.1, List.length_append, ← Nat.add_assoc]
      · rw [← hchunked.2] at hoverrun
        exact hoverrun.append_left

/-! ## With what was buffered -/

/-- All of the body was read, what was buffered first. -/
def ReadWhole (maxBytes : ℕ) (s : ResponseStream T H M) (es : List (Event H M)) (body : Bytes)
    (s' : ResponseStream T H M) : Prop :=
  written es = [] ∧ body = Transport.buffered s.body ++ received es ∧
    Fits (some maxBytes) body.length ∧ Drained s es s'

/-- All of the body was written, what was buffered first. -/
def CopyWhole (maxBytes : Option ℕ) (s : ResponseStream T H M) (es : List (Event H M)) (copied : ℕ)
    (s' : ResponseStream T H M) : Prop :=
  written es = Transport.buffered s.body ++ received es ∧
    copied = min (written es).length usizeMax ∧ Fits maxBytes (written es).length ∧
    Drained s es s'

/-- What was written before the limit or an answer from outside ended it. -/
def CutShort (maxBytes : Option ℕ) (s : ResponseStream T H M) (es : List (Event H M)) : Prop :=
  written es <+: Transport.buffered s.body ++ received es ∧
    Fits maxBytes (written es).length ∧
    Overrun maxBytes (Transport.buffered s.body).length es

theorem cutShort_of_unwritten {maxBytes : Option ℕ} (hwritten : written es = [])
    (hoverrun : Overrun maxBytes (Transport.buffered s.body).length es) :
    CutShort maxBytes s es := by
  refine ⟨hwritten ▸ List.nil_prefix, ?_, hoverrun⟩
  rw [hwritten]
  exact fits_zero _

end Loops

namespace Async

variable {w : World H M} {s s' : ResponseStream StreamBody H M} {es : List (Event H M)}

theorem ran_readLoop_after (maxBytes : ℕ) (collected : Bytes) {totalLen : ℕ}
    (hn : totalLen = min collected.length usizeMax) (hfits : Fits (some maxBytes) collected.length)
    (hmoves : Moves w s es s') (hidle : Idle es)
    (hcollected : collected = Transport.buffered s.body) :
    Ran w s' (fun es' ↦ ReadWhole maxBytes s (es ++ es'))
      (fun es' _ ↦ CutShort (some maxBytes) s (es ++ es'))
      (readLoop rawChunks false w maxBytes collected totalLen s') := by
  refine (ran_readLoop rawChunks false w maxBytes collected totalLen s' hn hfits).mono ?_ ?_
  · rintro es' _ s'' - - ⟨hwritten, rfl, hfits', hdrained⟩
    refine ⟨?_, ?_, ?_, hdrained.append_left hmoves⟩
    · rw [written_append, hidle.2, hwritten, List.append_nil]
    · rw [received_append, hidle.1, List.nil_append, hcollected]
    · rwa [List.length_append]
  · rintro es' - ⟨hwritten, hoverrun⟩
    refine cutShort_of_unwritten ?_ (Overrun.append_left ?_)
    · rw [written_append, hidle.2, hwritten, List.append_nil]
    · rwa [hidle.1, List.length_nil, Nat.add_zero, ← hcollected]

theorem ran_readRawBytesLimited (w : World H M) (hs : Tidy s) (maxBytes : ℕ) :
    Ran w s (ReadWhole maxBytes s) (fun es _ ↦ CutShort (some maxBytes) s es)
      (readRawBytesLimited w s maxBytes) := by
  refine (ran_takePendingChunk w hs).andThen ?_ ?_
  · rintro es - ⟨hidle, hcalm, -⟩
    exact cutShort_of_unwritten hidle.2 (.inl hcalm)
  · rintro es (_ | chunk) s₁ hmoves ⟨hidle, hpending, -, -⟩
    · exact ran_readLoop_after maxBytes [] rfl (fits_zero _) hmoves hidle hpending
    · have hchunk : chunk = Transport.buffered s.body := hpending
      refine (ran_collectChunk false w maxBytes [] chunk s₁ (n := 0) rfl).andThen ?_ ?_
      · rintro _ - ⟨rfl, hover⟩
        rw [List.append_nil]
        refine cutShort_of_unwritten hidle.2 (.inr ?_)
        rw [hidle.1, ← hchunk]
        rwa [Nat.zero_add] at hover
      · rintro _ _ s₂ hmoves₁ ⟨rfl, -, rfl, hfits⟩
        have hmoves₂ := hmoves.trans hmoves₁
        simp only [List.append_nil, List.nil_append, Nat.zero_add] at hmoves₂ hfits ⊢
        exact ran_readLoop_after maxBytes chunk rfl hfits hmoves₂ hidle hchunk

/-- What `copy_to_writer` does before the flush. -/
def copyBody (w : World H M) (s : ResponseStream StreamBody H M) (maxBytes : Option ℕ) :
    StreamAttempt StreamBody H M ℕ :=
  (completeOnError (takePendingChunk w s)).andThen fun pending s ↦
    match pending with
    | none => copyLoop copiedChunks w maxBytes 0 s
    | some chunk =>
      (copyChunk .async w maxBytes 0 chunk s).andThen fun copied s ↦
        copyLoop copiedChunks w maxBytes copied s

theorem copyTo_eq (w : World H M) (s : ResponseStream StreamBody H M) (maxBytes : Option ℕ) :
    copyTo w s maxBytes =
      (copyBody w s maxBytes).andThen fun copied s ↦ finishCopy .async w copied s := by
  unfold copyTo copyBody
  rcases completeOnError (takePendingChunk w s) with ⟨_ | _ | chunk, s₁⟩
  · rfl
  · rfl
  · dsimp only [Attempt.andThen]
    rcases copyChunk .async w maxBytes 0 chunk s₁ with ⟨_ | copied, s₂⟩ <;> rfl

/-- A copy loop that starts once the pending chunk is written. -/
theorem ran_copyLoop_after (maxBytes : Option ℕ) {copied : ℕ}
    (hn : copied = min (Transport.buffered s.body).length usizeMax)
    (hfits : Fits maxBytes (Transport.buffered s.body).length) (hmoves : Moves w s es s')
    (hreceived : received es = []) (hwritten : written es = Transport.buffered s.body) :
    Ran w s' (fun es' ↦ CopyWhole maxBytes s (es ++ es'))
      (fun es' _ ↦ CutShort maxBytes s (es ++ es'))
      (copyLoop copiedChunks w maxBytes copied s') := by
  refine (ran_copyLoop copiedChunks w maxBytes copied s' hn hfits).mono ?_ ?_
  · rintro es' _ s'' - - ⟨hwritten', rfl, hfits', hdrained⟩
    refine ⟨?_, ?_, ?_, hdrained.append_left hmoves⟩
    · rw [written_append, received_append, hwritten, hreceived, hwritten', List.nil_append]
    · rw [written_append, hwritten, hwritten', List.length_append]
    · rwa [written_append, hwritten, hwritten', List.length_append]
  · rintro es' - ⟨hwritten', hfits', hoverrun⟩
    refine ⟨?_, ?_, Overrun.append_left ?_⟩
    · rw [written_append, received_append, hwritten, hreceived, List.nil_append]
      exact (List.prefix_append_right_inj _).mpr hwritten'
    · rwa [written_append, hwritten, List.length_append]
    · rwa [hreceived, List.length_nil, Nat.add_zero]

theorem ran_copyBody (w : World H M) (hs : Tidy s) (maxBytes : Option ℕ) :
    Ran w s (CopyWhole maxBytes s) (fun es _ ↦ CutShort maxBytes s es) (copyBody w s maxBytes) := by
  refine (ran_takePendingChunk w hs).completeOnError.andThen ?_ ?_
  · rintro es - ⟨hidle, hcalm, -⟩
    exact cutShort_of_unwritten hidle.2 (.inl hcalm)
  · rintro es (_ | chunk) s₁ hmoves ⟨hidle, hpending, -, -⟩
    · have hbuffered : [] = Transport.buffered s.body := hpending
      refine ran_copyLoop_after maxBytes ?_ ?_ hmoves hidle.1 ?_
      · rw [← hbuffered]
        rfl
      · rw [← hbuffered]
        exact fits_zero _
      · rw [← hbuffered]
        exact hidle.2
    · have hchunk : chunk = Transport.buffered s.body := hpending
      refine (ran_copyChunk .async w maxBytes chunk s₁ (n := 0) rfl (fits_zero _)).andThen ?_ ?_
      · rintro es₁ - ⟨hreceived, hwritten, hfits, hwhy⟩
        rw [Nat.zero_add] at hfits hwhy
        refine ⟨?_, ?_, ?_⟩
        · rw [written_append, received_append, hidle.1, hidle.2, hreceived, List.nil_append,
            List.append_nil, List.append_nil, ← hchunk]
          exact hwritten
        · rwa [written_append, hidle.2, List.nil_append]
        · refine hwhy.imp (fun hcalm h ↦ hcalm (calm_append.mp h).2) fun hover ↦ ?_
          rwa [received_append, hidle.1, hreceived, ← hchunk]
      · rintro es₁ _ s₂ hmoves₁ ⟨⟨hreceived, hwritten, -⟩, -, rfl, hfits⟩
        rw [Nat.zero_add] at hfits ⊢
        simp only [← List.append_assoc]
        refine ran_copyLoop_after maxBytes (by rw [hchunk]) (hchunk ▸ hfits)
          (hmoves.trans hmoves₁) ?_ ?_
        · rw [received_append, hidle.1, hreceived, List.append_nil]
        · rw [written_append, hidle.2, hwritten, List.nil_append]
          exact hchunk

end Async

end Reqx.Stream
