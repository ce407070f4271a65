import Mathlib.Data.List.Infix
import Reqx.Core.ContentDecoding
import Reqx.Core.Preparation

/-!
# Content negotiation

The codings a request offers are the ones the client can undo. A server that
keeps to the offer can apply them in any order and number, and the client reads
the body it started from.
-/

namespace Reqx

/-- The codings that `Accept-Encoding` values name. -/
def offeredCodings (values : List HeaderValue) : List Text :=
  (values.filterMap HeaderValue.toStr).flatMap fun value ↦ (Text.split ',' value).map Text.trim

/-- Encoders whose output the client's decoders undo. -/
structure Encoders (codecs : Codecs) (maxBytes : ℕ) where
  encode : Coding → Bytes → Bytes
  undone : ∀ coding body, codecs.supports coding = true → body.length ≤ maxBytes →
    Layer codecs maxBytes (encode coding body) coding body

namespace Encoders

variable {codecs : Codecs} {maxBytes : ℕ} (encoders : Encoders codecs maxBytes)

/-- The first coding is applied first, and is listed first. -/
def encodeAll (codings : List Coding) (body : Bytes) : Bytes :=
  codings.foldl (fun body coding ↦ encoders.encode coding body) body

theorem decodes_encodeAll {codings : List Coding} {body : Bytes}
    (hsupports : ∀ coding ∈ codings, codecs.supports coding = true)
    (hfits : ∀ applied, applied <+: codings →
      (encoders.encodeAll applied body).length ≤ maxBytes) :
    Decodes codecs maxBytes codings.reverse (encoders.encodeAll codings body) body := by
  induction codings using List.reverseRecOn with
  | nil => exact .nil body
  | append_singleton codings coding ih =>
    have hbefore : (encoders.encodeAll codings body).length ≤ maxBytes :=
      hfits codings (List.prefix_append codings [coding])
    have hlast : codecs.supports coding = true := hsupports coding (by simp)
    have hrest := ih (fun c hc ↦ hsupports c (by simp [hc]))
      fun applied happlied ↦ hfits applied (happlied.trans (List.prefix_append codings [coding]))
    rw [List.reverse_concat, encodeAll, List.foldl_concat]
    exact .cons (encoders.undone coding _ hlast hbefore) hbefore hrest

end Encoders

/-- The codings other than `identity` that the client was compiled with. -/
def Codecs.compiled (codecs : Codecs) : List Coding :=
  [.gzip, .deflate, .br, .zstd].filter fun coding ↦ codecs.supports coding

theorem Codecs.mem_compiled {codecs : Codecs} {coding : Coding} :
    coding ∈ codecs.compiled ↔ coding ≠ .identity ∧ codecs.supports coding = true := by
  cases coding <;> simp [compiled]

/-- What the table of offers says for each set of compiled codecs. -/
theorem mem_offeredCodings_enabled (codecs : Codecs) (name : Text) :
    name ∈ offeredCodings ((enabledAcceptEncoding codecs).map HeaderValue.ofString).toList ↔
      ∃ coding ∈ codecs.compiled, coding.name = name := by
  rw [← List.mem_map]
  apply List.Perm.mem_iff
  unfold enabledAcceptEncoding Codecs.compiled
  cases hgzip : codecs.compressionGzip <;> cases hbrotli : codecs.compressionBrotli <;>
    cases hzstd : codecs.compressionZstd <;>
    simp only [Codecs.supports, hgzip, hbrotli, hzstd] <;> decide

namespace RequestExecutionPreparation

variable {σ : Type} {codecs : Codecs} {p : RequestExecutionPreparation σ}

theorem mem_offered_of_negotiates (h : p.negotiates = true) (name : Text) :
    name ∈ offeredCodings ((p.mergedHeaders codecs).getAll .acceptEncoding) ↔
      ∃ coding ∈ codecs.compiled, coding.name = name := by
  rw [getAll_mergedHeaders, if_pos (by simp [h])]
  exact mem_offeredCodings_enabled codecs name

/-- A request that negotiates offers the codings the client was compiled with and nothing else,
and the client reads any body that is encoded with what was offered. -/
theorem negotiated_body_is_read (hnegotiates : p.negotiates = true) {maxBytes : ℕ}
    (hreads : codecs.Reads maxBytes) (encoders : Encoders codecs maxBytes) :
    (∀ name, name ∈ offeredCodings ((p.mergedHeaders codecs).getAll .acceptEncoding) ↔
      ∃ coding ∈ codecs.compiled, coding.name = name) ∧
    ∀ (codings : List Coding) (headers : HeaderMap) (body : Bytes),
      (∀ coding ∈ codings,
        coding.name ∈ offeredCodings ((p.mergedHeaders codecs).getAll .acceptEncoding)) →
      listedCodings headers = some (codings.map Coding.name) →
      (∀ applied, applied <+: codings → (encoders.encodeAll applied body).length ≤ maxBytes) →
      decodeContentEncodedBodyLimited codecs (encoders.encodeAll codings body) headers maxBytes =
        .ok body := by
  refine ⟨mem_offered_of_negotiates hnegotiates, ?_⟩
  intro codings headers body hoffered hlisted hfits
  have hsupports (coding : Coding) (h : coding ∈ codings) : codecs.supports coding = true := by
    obtain ⟨coding', hcompiled, hname⟩ :=
      (mem_offered_of_negotiates hnegotiates coding.name).mp (hoffered coding h)
    obtain rfl := Coding.name_injective hname
    exact (Codecs.mem_compiled.mp hcompiled).2
  exact (decodeContentEncodedBodyLimited_eq_ok hreads _ headers).mpr
    ⟨hfits codings (List.prefix_refl codings), codings, hlisted, hsupports,
      encoders.decodes_encodeAll hsupports hfits⟩

end RequestExecutionPreparation

namespace Sample

/-- The only coding puts one byte in front of a short body. -/
def markedCodecs : Codecs where
  compressionGzip := false
  compressionBrotli := true
  compressionZstd := false
  multiGzDecoder _ := ⟨[], none⟩
  zlibDecoder _ := ⟨[], none⟩
  deflateDecoder _ := ⟨[], none⟩
  brotliDecompressor body := ⟨[body.tail.take 10], none⟩
  zstdDecoder _ := .error []

theorem reads_markedCodecs : markedCodecs.Reads 10 where
  buffer := by
    intro body reader hopens piece hpiece
    have hshort : piece.length ≤ 10 := by
      cases hopens with
      | zstd hreader => cases hreader
      | br =>
        obtain rfl := List.mem_singleton.mp hpiece
        exact List.length_take_le 10 body.tail
      | _ => cases hpiece
    exact hshort.trans (by decide)
  counted := fun _ _ _ ↦ .inl (by decide)

def markedEncoders : Encoders markedCodecs 10 where
  encode
    | .br, body => 0 :: body
    | _, body => body
  undone := by
    intro coding body hsupports hfits
    cases coding with
    | identity => exact .identity
    | br =>
      refine .br ⟨?_, rfl⟩
      have htake : body.take 10 = body := List.take_of_length_le hfits
      cases body with
      | nil => rfl
      | cons b body => simp [markedCodecs, Reader.output, Reader.delivered, htake]
    | gzip | deflate | zstd => cases hsupports

def plainPreparation : RequestExecutionPreparation Unit where
  endpointSelector := none
  configuredBaseUrl := []
  method := .get
  path := []
  defaultHeaders := .empty
  headers := .empty
  body := none
  executionOptions := {}
  defaults := ⟨1, none, .standard, 1, .none, .error⟩
  defaultAutoAcceptEncoding := true

def markedHeaders : HeaderMap := ⟨[(.contentEncoding, .ofString "BR , br")]⟩

end Sample

theorem negotiated_body_is_read_twice :
    decodeContentEncodedBodyLimited Sample.markedCodecs [0, 0, 7, 8] Sample.markedHeaders 10 =
      .ok [7, 8] := by
  refine (RequestExecutionPreparation.negotiated_body_is_read (p := Sample.plainPreparation)
    (by decide) Sample.reads_markedCodecs Sample.markedEncoders).2 [.br, .br]
    Sample.markedHeaders [7, 8] (by decide) (by decide) ?_
  have hfits : ∀ applied ∈ [Coding.br, .br].inits,
      (Sample.markedEncoders.encodeAll applied [7, 8]).length ≤ 10 := by decide
  exact fun applied happlied ↦ hfits applied ((List.mem_inits applied _).mpr happlied)

end Reqx
