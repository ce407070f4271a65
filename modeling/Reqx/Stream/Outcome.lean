import Reqx.Stream.Consumption

/-!
# How a helper ends

A helper that succeeds has let all of the remaining body through and completes
the stream with a success. One that fails completes it with its error, one
whose future is dropped leaves that to the drop of the stream; both have let
no more through than their limit allows.
-/

namespace Reqx.Stream

open Driver (Runtime)

variable {T H M : Type}

def Helper.maxBytes : Helper → Option ℕ
  | .intoBytesLimited maxBytes => some maxBytes
  | .intoResponseLimited maxBytes => some maxBytes
  | .copyToWriter => none
  | .copyToWriterLimited maxBytes => some maxBytes

section Ends

variable [Transport T] {w : World H M} {codecs : Codecs} {helper : Helper}
  {s s' : ResponseStream T H M} {es : List (Event H M)}

/-- The part of the body that the caller has not got yet. -/
def remaining (s : ResponseStream T H M) : Bytes :=
  Transport.buffered s.body ++ Transport.rest s.body

/-- What a helper that succeeds hands out, with the last answer it needed for that. -/
def Delivers (codecs : Codecs) (helper : Helper) (s : ResponseStream T H M) (es : List (Event H M))
    (output : Output) : Prop :=
  match helper with
  | .intoBytesLimited _ => written es = [] ∧ output = .bytes (remaining s)
  | .intoResponseLimited maxBytes =>
    written es = [] ∧ ∃ headers body,
      (decodeBody codecs maxBytes (remaining s) s).1 = .ok (headers, body) ∧
      output = .response s.status headers body ∧ .decoded (.ok body) ∈ es
  | .copyToWriter | .copyToWriterLimited _ =>
    written es = remaining s ∧ output = .copied (min (remaining s).length usizeMax) ∧
      .flushed .done ∈ es

structure Whole (codecs : Codecs) (helper : Helper) (s : ResponseStream T H M)
    (es : List (Event H M)) (output : Output) (s' : ResponseStream T H M) : Prop where
  drained : Drained s es s'
  fits : Fits helper.maxBytes (remaining s).length
  delivers : Delivers codecs helper s es output

/-- What a helper let through before it ended without a result, and why it ended. -/
structure Cut (helper : Helper) (s : ResponseStream T H M) (es : List (Event H M)) : Prop where
  written_isPrefix : written es <+: remaining s
  fits : Fits helper.maxBytes (written es).length
  why : ¬Calm es ∨ ¬Fits helper.maxBytes (remaining s).length ∨
    ∃ maxBytes error, helper = .intoResponseLimited maxBytes ∧ .decoded (.error error) ∈ es

inductive HelperRan (w : World H M) (codecs : Codecs) (helper : Helper)
    (s : ResponseStream T H M) : StreamAttempt T H M Output → Prop
  | ok {es : List (Event H M)} {s' : ResponseStream T H M} {output : Output}
      (hmoves : Moves w s es s') (hcalm : Calm es)
      (hwhole : Whole codecs helper s es output s') :
      HelperRan w codecs helper s (.ok output, s'.completeSuccess)
  | failed {es : List (Event H M)} {s' : ResponseStream T H M} {error : Error}
      (hmoves : Moves w s es s') (hcut : Cut helper s es) :
      HelperRan w codecs helper s (.error (.failed error), s'.completeError error)
  | abandoned {es : List (Event H M)} {s' : ResponseStream T H M}
      (hmoves : Moves w s es s') (hcut : Cut helper s es) :
      HelperRan w codecs helper s (.error .abandoned, s')

/-- Like `Cut`, with what was received in place of all that remained. -/
def CutEarly (helper : Helper) (s : ResponseStream T H M) (es : List (Event H M)) : Prop :=
  written es <+: Transport.buffered s.body ++ received es ∧
    Fits helper.maxBytes (written es).length ∧
    (Overrun helper.maxBytes (Transport.buffered s.body).length es ∨
      ∃ maxBytes error, helper = .intoResponseLimited maxBytes ∧ .decoded (.error error) ∈ es)

theorem Drained.received_eq (h : Drained s es s') (hmoves : Moves w s es s') :
    Transport.buffered s.body ++ received es = remaining s := by
  rw [remaining, hmoves.rest, h.1, List.append_nil]

theorem CutEarly.cut (h : CutEarly helper s es) (hmoves : Moves w s es s') :
    Cut helper s es where
  written_isPrefix := by
    refine h.1.trans ?_
    rw [remaining, hmoves.rest, ← List.append_assoc]
    exact List.prefix_append _ _
  fits := h.2.1
  why := by
    rcases h.2.2 with (hcalm | hover) | hundecoded
    · exact .inl hcalm
    · refine .inr (.inl fun hfits ↦ hover (hfits.mono ?_))
      rw [remaining, hmoves.rest, List.length_append, List.length_append]
      omega
    · exact .inr (.inr hundecoded)

theorem helperRan_of_ran {x : StreamAttempt T H M Output}
    (h : Ran w s (Whole codecs helper s) (fun es _ ↦ CutEarly helper s es) x)
    (hx : completeOnError x = x) :
    HelperRan w codecs helper s (x.andThen fun output s ↦ (.ok output, s.completeSuccess)) := by
  obtain ⟨es, output, s', hmoves, hcalm, hwhole, rfl⟩ |
      ⟨es, error, s', hmoves, hcut, rfl⟩ | ⟨es, s', hmoves, hcut, rfl⟩ := h.settled hx
  · exact .ok hmoves hcalm hwhole
  · exact .failed hmoves (hcut.cut hmoves)
  · exact .abandoned hmoves (hcut.cut hmoves)

variable {maxBytes : Option ℕ}

theorem CutShort.cutEarly (h : CutShort maxBytes s es) (hmaxBytes : helper.maxBytes = maxBytes) :
    CutEarly helper s es := by
  subst hmaxBytes
  exact ⟨h.1, h.2.1, .inl h.2.2⟩

/-- What a helper does after the loop, when it fails. -/
theorem cutEarly_after {es' : List (Event H M)} (hmaxBytes : helper.maxBytes = maxBytes)
    (hwritten : written es <+: Transport.buffered s.body ++ received es)
    (hfits : Fits maxBytes (written es).length) (hidle : Idle es')
    (hwhy : ¬Calm es' ∨
      ∃ maxBytes error, helper = .intoResponseLimited maxBytes ∧ .decoded (.error error) ∈ es') :
    CutEarly helper s (es ++ es') := by
  subst hmaxBytes
  refine ⟨?_, ?_, ?_⟩
  · rwa [written_append, received_append, hidle.1, hidle.2, List.append_nil, List.append_nil]
  · rwa [written_append, hidle.2, List.append_nil]
  · rcases hwhy with hcalm | ⟨maxBytes, error, hhelper, hmem⟩
    · exact .inl (.inl fun h ↦ hcalm (calm_append.mp h).2)
    · exact .inr ⟨maxBytes, error, hhelper, List.mem_append_right es hmem⟩

/-! ## The last part of a helper -/

theorem helperRan_bytes {maxBytes : ℕ} {x : StreamAttempt T H M Bytes}
    (h : Ran w s (ReadWhole maxBytes s) (fun es _ ↦ CutShort (some maxBytes) s es) x)
    (hx : completeOnError x = x) :
    HelperRan w codecs (.intoBytesLimited maxBytes) s
      (x.andThen fun body s ↦ (.ok (.bytes body), s.completeSuccess)) := by
  have hran : Ran w s (Whole codecs (.intoBytesLimited maxBytes) s)
      (fun es _ ↦ CutEarly (.intoBytesLimited maxBytes) s es)
      (x.andThen fun body s ↦ (.ok (.bytes body), s)) := by
    refine h.andThen (fun es _ hcut ↦ hcut.cutEarly rfl) ?_
    rintro es body s₁ hmoves ⟨hwritten, rfl, hfits, hdrained⟩
    rw [hdrained.received_eq hmoves] at hfits ⊢
    refine .ok (.refl w s₁) calm_nil ?_
    rw [List.append_nil]
    exact ⟨hdrained, hfits, hwritten, rfl⟩
  have hsettled := completeOnError_andThen hx
    (f := fun body s ↦ (.ok (Output.bytes body), s)) fun _ _ ↦ rfl
  have hhelper := helperRan_of_ran hran hsettled
  rwa [Attempt.andThen_assoc] at hhelper

/-- Whether a stopped operation has completed the stream does not depend on its value. -/
theorem completeOnError_error {α β : Type} {stop : Stop}
    (h : completeOnError ((.error stop, s) : StreamAttempt T H M α) =
      (.error stop, s)) :
    completeOnError ((.error stop, s) : StreamAttempt T H M β) =
      (.error stop, s) := by
  cases stop with
  | failed error => exact Prod.ext rfl (congrArg Prod.snd h :)
  | abandoned => rfl

theorem completeOnError_writeWithDeadline (rt : Runtime) (w : World H M) (s : ResponseStream T H M)
    (op : Operation) :
    completeOnError (s.writeWithDeadline rt w op) = s.writeWithDeadline rt w op :=
  completeOnError_completeOnError _

theorem helperRan_copied (rt : Runtime) {x : StreamAttempt T H M ℕ}
    (hmaxBytes : helper.maxBytes = maxBytes)
    (hdelivers : ∀ es, written es = remaining s → Event.flushed .done ∈ es →
      Delivers codecs helper s es (.copied (min (remaining s).length usizeMax)))
    (h : Ran w s (CopyWhole maxBytes s) (fun es _ ↦ CutShort maxBytes s es) x)
    (hx : completeOnError x = x) :
    HelperRan w codecs helper s (x.andThen fun copied s ↦ finishCopy rt w copied s) := by
  have hran : Ran w s (Whole codecs helper s) (fun es _ ↦ CutEarly helper s es)
      (x.andThen fun copied s ↦
        (s.writeWithDeadline rt w .flush).andThen fun _ s ↦ (.ok (.copied copied), s)) := by
    refine h.andThen (fun es _ hcut ↦ hcut.cutEarly hmaxBytes) ?_
    rintro es copied s₁ hmoves ⟨hwritten, rfl, hfits, hdrained⟩
    refine (ran_writeWithDeadline rt w s₁ .flush).andThen ?_ ?_
    · rintro es₁ - ⟨hreceived₁, hwritten₁, hcalm₁⟩
      refine cutEarly_after hmaxBytes (hwritten ▸ List.prefix_rfl) hfits
        ⟨hreceived₁, List.prefix_nil.mp hwritten₁⟩ (.inl hcalm₁)
    · rintro es₁ - s₂ hmoves₁ ⟨⟨hreceived₁, hwritten₁, hflushed⟩, hbody⟩
      refine .ok (.refl w s₂) calm_nil ?_
      rw [hdrained.received_eq hmoves] at hwritten
      rw [List.append_nil, hwritten]
      rw [hwritten, ← hmaxBytes] at hfits
      refine ⟨⟨?_, fun hheld ↦ (hdrained.2 hheld).append_right⟩, hfits, hdelivers _ ?_ ?_⟩
      · rw [hbody]
        exact hdrained.1
      · rw [written_append, hwritten, hwritten₁]
        exact List.append_nil _
      · exact List.mem_append_right es (hflushed rfl)
  have hsettled := completeOnError_andThen hx
    (f := fun copied s ↦
      (s.writeWithDeadline rt w .flush).andThen fun _ s ↦ (.ok (Output.copied copied), s))
    fun _ s ↦ completeOnError_andThen (completeOnError_writeWithDeadline rt w s .flush)
      fun _ _ ↦ rfl
  have hhelper := helperRan_of_ran hran hsettled
  simp only [Attempt.andThen_assoc] at hhelper
  exact hhelper

theorem decodeBody_moved (codecs : Codecs) (maxBytes : ℕ) (body : Bytes)
    (hmoves : Moves w s es s') :
    (decodeBody codecs maxBytes body s').1 = (decodeBody codecs maxBytes body s).1 := by
  rw [hmoves.eq]
  dsimp only [decodeBody, ResponseStream.moved]
  cases shouldDecodeContentEncodedBody s.method s.status body.length with
  | false => rfl
  | true => cases decodeContentEncodedBodyLimited codecs body s.headers maxBytes <;> rfl

theorem ran_decodeBody (w : World H M) (codecs : Codecs) (maxBytes : ℕ) (body : Bytes)
    (s : ResponseStream T H M) :
    Ran w s (fun es result s' ↦ es = [.decoded (.ok result.2)] ∧ s'.body = s.body ∧
        (decodeBody codecs maxBytes body s).1 = .ok result)
      (fun es _ ↦ ∃ error, es = [.decoded (.error error)])
      (decodeBody codecs maxBytes body s) := by
  have hmoves (result : Except Error Bytes) :
      Moves w s [.decoded result] (s.tell [.decoded result]) :=
    .tell rfl rfl rfl fun _ ↦ rfl
  have hcalm (result : Except Error Bytes) : Calm [(.decoded result : Event H M)] :=
    calm_singleton.mpr rfl
  unfold decodeBody
  split
  · split
    · exact .stopped (hmoves _) ⟨_, rfl⟩
    · exact .ok (hmoves _) (hcalm _) ⟨rfl, rfl, rfl⟩
  · exact .ok (hmoves _) (hcalm _) ⟨rfl, rfl, rfl⟩

/-- The part of `respond` before the stream is completed. -/
def respondBody (w : World H M) (codecs : Codecs) (maxBytes : ℕ) (body : Bytes)
    (s : ResponseStream T H M) : StreamAttempt T H M Output :=
  (completeOnError (s.ensureWithinDeadline w)).andThen fun _ s ↦
    (completeOnError (decodeBody codecs maxBytes body s)).andThen fun (headers, body) s ↦
      (completeOnError (s.ensureWithinDeadline w)).andThen fun _ s ↦
        (.ok (.response s.status headers body), s)

theorem ran_respondBody (w : World H M) (codecs : Codecs) (maxBytes : ℕ) (body : Bytes)
    (s : ResponseStream T H M) :
    Ran w s (fun es output s' ↦ Idle es ∧ s'.body = s.body ∧ ∃ headers decoded,
        (decodeBody codecs maxBytes body s).1 = .ok (headers, decoded) ∧
        output = .response s.status headers decoded ∧ .decoded (.ok decoded) ∈ es)
      (fun es _ ↦ Idle es ∧ (¬Calm es ∨ ∃ error, .decoded (.error error) ∈ es))
      (respondBody w codecs maxBytes body s) := by
  refine (ran_ensureWithinDeadline w s).completeOnError.andThen ?_ ?_
  · rintro es - ⟨hidle, hcalm, -⟩
    exact ⟨hidle, .inl hcalm⟩
  rintro es - s₁ hmoves ⟨hidle, hbody⟩
  refine (ran_decodeBody w codecs maxBytes body s₁).completeOnError.andThen ?_ ?_
  · rintro _ - ⟨error, rfl⟩
    exact ⟨hidle.append ⟨rfl, rfl⟩, .inr ⟨error, by simp⟩⟩
  rintro _ ⟨headers, decoded⟩ s₂ hmoves₁ ⟨rfl, hbody₁, hdecoded⟩
  refine (ran_ensureWithinDeadline w s₂).completeOnError.andThen ?_ ?_
  · rintro es₂ - ⟨hidle₂, hcalm₂, -⟩
    refine ⟨hidle.append (Idle.append ⟨rfl, rfl⟩ hidle₂), .inl fun hcalm ↦ hcalm₂ ?_⟩
    exact (calm_append.mp (calm_append.mp hcalm).2).2
  rintro es₂ - s₃ hmoves₂ ⟨hidle₂, hbody₂⟩
  refine .ok (.refl w s₃) calm_nil ⟨?_, hbody₂.trans (hbody₁.trans hbody), headers, decoded, ?_⟩
  · rw [List.append_nil]
    exact hidle.append (Idle.append ⟨rfl, rfl⟩ hidle₂)
  · rw [decodeBody_moved codecs maxBytes body hmoves] at hdecoded
    refine ⟨hdecoded, ?_, by simp⟩
    rw [((hmoves.trans hmoves₁).trans hmoves₂).eq]
    rfl

theorem completeOnError_respondBody (w : World H M) (codecs : Codecs) (maxBytes : ℕ) (body : Bytes)
    (s : ResponseStream T H M) :
    completeOnError (respondBody w codecs maxBytes body s) =
      respondBody w codecs maxBytes body s :=
  completeOnError_andThen (completeOnError_completeOnError _) fun _ _ ↦
    completeOnError_andThen (completeOnError_completeOnError _) fun _ _ ↦
      completeOnError_andThen (completeOnError_completeOnError _) fun _ _ ↦ rfl

theorem respond_eq (w : World H M) (codecs : Codecs) (maxBytes : ℕ) (body : Bytes)
    (s : ResponseStream T H M) :
    respond w codecs maxBytes body s =
      (respondBody w codecs maxBytes body s).andThen fun output s ↦
        (.ok output, s.completeSuccess) := by
  simp only [respond, respondBody, Attempt.andThen_assoc]
  rfl

theorem helperRan_response {maxBytes : ℕ} {x : StreamAttempt T H M Bytes}
    (h : Ran w s (ReadWhole maxBytes s) (fun es _ ↦ CutShort (some maxBytes) s es) x)
    (hx : completeOnError x = x) :
    HelperRan w codecs (.intoResponseLimited maxBytes) s
      (x.andThen fun body s ↦ respond w codecs maxBytes body s) := by
  have hran : Ran w s (Whole codecs (.intoResponseLimited maxBytes) s)
      (fun es _ ↦ CutEarly (.intoResponseLimited maxBytes) s es)
      (x.andThen fun body s ↦ respondBody w codecs maxBytes body s) := by
    refine h.andThen (fun es _ hcut ↦ hcut.cutEarly rfl) ?_
    rintro es body s₁ hmoves ⟨hwritten, rfl, hfits, hdrained⟩
    rw [hdrained.received_eq hmoves] at hfits ⊢
    refine (ran_respondBody w codecs maxBytes (remaining s) s₁).mono ?_ ?_
    · rintro es₁ output s₂ - - ⟨hidle, hbody, headers, decoded, hdecoded, rfl, hmem⟩
      rw [decodeBody_moved codecs maxBytes _ hmoves] at hdecoded
      refine ⟨⟨?_, fun hheld ↦ (hdrained.2 hheld).append_right⟩, hfits, ?_, headers, decoded,
        hdecoded, ?_, List.mem_append_right es hmem⟩
      · rw [hbody]
        exact hdrained.1
      · rw [written_append, hwritten, hidle.2, List.append_nil]
      · rw [hmoves.eq]
        rfl
    · rintro es₁ - ⟨hidle, hwhy⟩
      refine cutEarly_after rfl (hwritten ▸ List.nil_prefix) ?_ hidle
        (hwhy.imp_right fun ⟨error, hmem⟩ ↦ ⟨maxBytes, error, rfl, hmem⟩)
      rw [hwritten]
      exact fits_zero _
  have hsettled := completeOnError_andThen hx fun body s ↦
    completeOnError_respondBody w codecs maxBytes body s
  have hhelper := helperRan_of_ran hran hsettled
  simp only [Attempt.andThen_assoc, ← respond_eq] at hhelper
  exact hhelper

/-! ## Failures complete the stream -/

theorem completeOnError_collectChunk (maxBytes : ℕ) (collected : Bytes) (totalLen : ℕ)
    (chunk : Bytes) (s : ResponseStream T H M) :
    completeOnError (collectChunk true maxBytes collected totalLen chunk s) =
      collectChunk true maxBytes collected totalLen chunk s := by
  unfold collectChunk
  dsimp only
  split
  · exact congrArg (Prod.mk _) (s.complete_complete _ _)
  · rfl

theorem completeOnError_readLoop (src : ChunkSource T H M)
    (hsrc : ∀ w s, completeOnError (src.next w s) = src.next w s) (w : World H M) (maxBytes : ℕ)
    (collected : Bytes) (totalLen : ℕ) (s : ResponseStream T H M) :
    completeOnError (readLoop src true w maxBytes collected totalLen s) =
      readLoop src true w maxBytes collected totalLen s := by
  fun_induction readLoop src true w maxBytes collected totalLen s with
  | case1 collected totalLen s stop s₁ hnext =>
    have hsettled := hsrc w s
    rw [hnext] at hsettled
    exact completeOnError_error hsettled
  | case2 collected totalLen s s₁ hnext => rfl
  | case3 collected totalLen s chunk s₁ hnext stop s₂ hchunk =>
    have hsettled := completeOnError_collectChunk maxBytes collected totalLen chunk s₁
    rw [hchunk] at hsettled
    exact completeOnError_error hsettled
  | case4 collected totalLen s chunk s₁ hnext collected' totalLen' s₂ hchunk hlt ih => exact ih

theorem completeOnError_copyChunk (rt : Runtime) (w : World H M) (maxBytes : Option ℕ) (copied : ℕ)
    (chunk : Bytes) (s : ResponseStream T H M) :
    completeOnError (copyChunk rt w maxBytes copied chunk s) =
      copyChunk rt w maxBytes copied chunk s := by
  unfold copyChunk
  dsimp only
  split
  · exact congrArg (Prod.mk _) (s.complete_complete _ _)
  · exact completeOnError_andThen (completeOnError_writeWithDeadline rt w s _) fun _ _ ↦ rfl

theorem completeOnError_copyLoop (src : ChunkSource T H M)
    (hsrc : ∀ w s, completeOnError (src.next w s) = src.next w s) (w : World H M)
    (maxBytes : Option ℕ) (copied : ℕ) (s : ResponseStream T H M) :
    completeOnError (copyLoop src w maxBytes copied s) = copyLoop src w maxBytes copied s := by
  fun_induction copyLoop src w maxBytes copied s with
  | case1 copied s stop s₁ hnext =>
    have hsettled := hsrc w s
    rw [hnext] at hsettled
    exact completeOnError_error hsettled
  | case2 copied s s₁ hnext => rfl
  | case3 copied s chunk s₁ hnext stop s₂ hchunk =>
    have hsettled := completeOnError_copyChunk src.runtime w maxBytes copied chunk s₁
    rw [hchunk] at hsettled
    exact completeOnError_error hsettled
  | case4 copied s chunk s₁ hnext copied' s₂ hchunk hlt ih => exact ih

end Ends

/-! ## The helpers of the two stream types -/

namespace Async

theorem completeOnError_copyBody (w : World H M) (s : ResponseStream StreamBody H M)
    (maxBytes : Option ℕ) : completeOnError (copyBody w s maxBytes) = copyBody w s maxBytes := by
  have hloop := completeOnError_copyLoop (copiedChunks (H := H) (M := M))
    fun w s ↦ completeOnError_completeOnError (nextChunk w s)
  refine completeOnError_andThen (completeOnError_completeOnError _) ?_
  rintro (_ | chunk) s
  · exact hloop w maxBytes 0 s
  · exact completeOnError_andThen (completeOnError_copyChunk .async w maxBytes 0 chunk s)
      fun copied s ↦ hloop w maxBytes copied s

theorem helperRan_consume (w : World H M) (codecs : Codecs) (helper : Helper)
    {s : ResponseStream StreamBody H M} (hs : Tidy s) :
    HelperRan w codecs helper s (consume w s codecs helper) := by
  cases helper with
  | intoBytesLimited maxBytes =>
    exact helperRan_bytes (ran_readRawBytesLimited w hs maxBytes).completeOnError
      (completeOnError_completeOnError _)
  | intoResponseLimited maxBytes =>
    exact helperRan_response (ran_readRawBytesLimited w hs maxBytes).completeOnError
      (completeOnError_completeOnError _)
  | copyToWriter =>
    rw [consume, copyToWriter, copyTo_eq]
    exact helperRan_copied .async rfl (fun _ hwritten hflushed ↦ ⟨hwritten, rfl, hflushed⟩)
      (ran_copyBody w hs none) (completeOnError_copyBody w s none)
  | copyToWriterLimited maxBytes =>
    rw [consume, copyToWriterLimited, copyTo_eq]
    exact helperRan_copied .async rfl (fun _ hwritten hflushed ↦ ⟨hwritten, rfl, hflushed⟩)
      (ran_copyBody w hs (some maxBytes)) (completeOnError_copyBody w s (some maxBytes))

end Async

namespace Blocking

/-- A blocking stream has nothing buffered. -/
theorem ran_readBody (w : World H M) (maxBytes : ℕ) (s : ResponseStream BlockingBody H M) :
    Ran w s (ReadWhole maxBytes s) (fun es _ ↦ CutShort (some maxBytes) s es)
      (readLoop chunks true w maxBytes [] 0 s) := by
  refine (ran_readLoop chunks true w maxBytes [] 0 s (n := 0) rfl (fits_zero _)).mono ?_ ?_
  · rintro es body s₁ - - ⟨hwritten, rfl, hfits, hdrained⟩
    rw [Nat.zero_add] at hfits
    exact ⟨hwritten, rfl, hfits, hdrained⟩
  · rintro es - ⟨hwritten, hoverrun⟩
    exact cutShort_of_unwritten hwritten hoverrun

theorem ran_copyBody (w : World H M) (maxBytes : Option ℕ) (s : ResponseStream BlockingBody H M) :
    Ran w s (CopyWhole maxBytes s) (fun es _ ↦ CutShort maxBytes s es)
      (copyLoop chunks w maxBytes 0 s) := by
  refine (ran_copyLoop chunks w maxBytes 0 s (n := 0) rfl (fits_zero _)).mono ?_ ?_
  · rintro es copied s₁ - - ⟨hwritten, rfl, hfits, hdrained⟩
    rw [Nat.zero_add] at hfits ⊢
    rw [← hwritten] at hfits ⊢
    exact ⟨hwritten, rfl, hfits, hdrained⟩
  · rintro es - ⟨hwritten, hfits, hoverrun⟩
    rw [Nat.zero_add] at hfits
    exact ⟨hwritten, hfits, hoverrun⟩

theorem helperRan_consume (w : World H M) (codecs : Codecs) (helper : Helper)
    (s : ResponseStream BlockingBody H M) :
    HelperRan w codecs helper s (consume w s codecs helper) := by
  have hread := completeOnError_readLoop (chunks (H := H) (M := M))
    completeOnError_nextChunk w
  have hcopy := completeOnError_copyLoop (chunks (H := H) (M := M))
    completeOnError_nextChunk w
  cases helper with
  | intoBytesLimited maxBytes =>
    exact helperRan_bytes (ran_readBody w maxBytes s) (hread maxBytes [] 0 s)
  | intoResponseLimited maxBytes =>
    exact helperRan_response (ran_readBody w maxBytes s) (hread maxBytes [] 0 s)
  | copyToWriter =>
    exact helperRan_copied .blocking rfl
      (fun _ hwritten hflushed ↦ ⟨hwritten, rfl, hflushed⟩) (ran_copyBody w none s)
      (hcopy none 0 s)
  | copyToWriterLimited maxBytes =>
    exact helperRan_copied .blocking rfl
      (fun _ hwritten hflushed ↦ ⟨hwritten, rfl, hflushed⟩) (ran_copyBody w (some maxBytes) s)
      (hcopy (some maxBytes) 0 s)

end Blocking

end Reqx.Stream
