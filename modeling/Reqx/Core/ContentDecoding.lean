import Reqx.Library.Splitting
import Reqx.Core.ContentEncoding

/-!
# What content decoding returns

A reader stands for the bytes it delivers and for whether it fails after them; how it
splits them does not matter. A body is decoded by the layers of its codings, the last
one that is listed first.
-/

namespace Reqx

open Reader Text

/-! ## One reader -/

namespace Reader

/-- The pieces before the end: an empty one means that there are no more. -/
def delivered (r : Reader) : List Bytes := r.pieces.takeWhile fun piece ↦ !piece.isEmpty

def output (r : Reader) : Bytes := r.delivered.flatten

def fails (r : Reader) : Bool := r.failure.isSome && r.pieces.all fun piece ↦ !piece.isEmpty

def Yields (r : Reader) (bytes : Bytes) : Prop := r.output = bytes ∧ r.fails = false

/-- A `usize` counts the bytes as far as the limit goes. -/
def Counted (maxBytes : ℕ) (r : Reader) : Prop :=
  maxBytes < usizeMax ∨ r.output.length ≤ usizeMax

end Reader

/-- What a caller can tell about a result: an error is one of the size, or of the decoding. -/
inductive DecodeOutcome where
  | ok (body : Bytes)
  | sizeError
  | decodeError
  deriving DecidableEq, Repr

def decodeOutcome : Except DecodeContentEncodingError Bytes → DecodeOutcome
  | .ok body => .ok body
  | .error (.tooLarge _) => .sizeError
  | .error (.decode ..) => .decodeError

theorem decodeOutcome_eq_ok {result : Except DecodeContentEncodingError Bytes} {body : Bytes} :
    decodeOutcome result = .ok body ↔ result = .ok body := by
  unfold decodeOutcome
  split <;> simp

/-- The outcome of reading a stream to its end within a limit. -/
def limited (maxBytes : ℕ) (output : Bytes) (fails : Bool) : DecodeOutcome :=
  if maxBytes < output.length then .sizeError
  else if fails then .decodeError
  else .ok output

variable {maxBytes : ℕ}

theorem limited_eq_ok {output body : Bytes} {fails : Bool} :
    limited maxBytes output fails = .ok body ↔
      output = body ∧ fails = false ∧ body.length ≤ maxBytes := by
  unfold limited
  split_ifs with hlarge hfails
  · refine iff_of_false (by simp) ?_
    rintro ⟨rfl, -, hle⟩
    omega
  · simp [hfails]
  · simp only [DecodeOutcome.ok.injEq]
    constructor
    · rintro rfl
      exact ⟨rfl, by simpa using hfails, not_lt.mp hlarge⟩
    · rintro ⟨rfl, -, -⟩
      rfl

theorem limited_eq_decodeError {output : Bytes} {fails : Bool} :
    limited maxBytes output fails = .decodeError ↔
      output.length ≤ maxBytes ∧ fails = true := by
  unfold limited
  split_ifs with hlarge hfails
  · simp [hlarge]
  · simp [not_lt.mp hlarge, hfails]
  · simp [hfails]

section Loop

variable {encoding : Text} {maxBytes : ℕ} {failure : Option Text} {chunk decoded : Bytes}
  {rest : List Bytes}

theorem Reader.output_cons_of_empty (h : chunk.isEmpty = true) :
    output ⟨chunk :: rest, failure⟩ = [] := by
  simp [output, delivered, h]

theorem Reader.output_cons (h : ¬ chunk.isEmpty = true) :
    output ⟨chunk :: rest, failure⟩ = chunk ++ output ⟨rest, failure⟩ := by
  simp [output, delivered, h]

theorem maxBytes_lt_saturatingAdd {a b : ℕ} (h : maxBytes < usizeMax ∨ a + b ≤ usizeMax) :
    saturatingAdd a b > maxBytes ↔ maxBytes < a + b := by
  unfold saturatingAdd
  omega

/-- `[0_u8; 8 * 1024]` in `read_to_end_limited`. -/
def chunkSize : ℕ := 8 * 1024

theorem readPieces_cons :
    readPieces encoding maxBytes failure decoded (chunk :: rest) =
      if chunk.isEmpty then ⟨[chunk], .ok decoded⟩
      else if saturatingAdd decoded.length chunk.length > maxBytes then
        ⟨[chunk], .error (.tooLarge (saturatingAdd decoded.length chunk.length))⟩
      else
        ⟨chunk :: (readPieces encoding maxBytes failure (decoded ++ chunk) rest).events,
          (readPieces encoding maxBytes failure (decoded ++ chunk) rest).value⟩ := by
  rw [readPieces]
  split_ifs <;> rfl

theorem readPieces_outcome (pieces : List Bytes) (hdecoded : decoded.length ≤ maxBytes)
    (hcounted : maxBytes < usizeMax ∨
      decoded.length + (output ⟨pieces, failure⟩).length ≤ usizeMax) :
    decodeOutcome (readPieces encoding maxBytes failure decoded pieces).value =
      limited maxBytes (decoded ++ output ⟨pieces, failure⟩)
        (fails ⟨pieces, failure⟩) := by
  induction pieces generalizing decoded with
  | nil =>
    have houtput : output ⟨[], failure⟩ = [] := rfl
    rw [houtput, List.append_nil, limited, if_neg hdecoded.not_gt]
    cases failure <;> rfl
  | cons chunk rest ih =>
    rw [readPieces_cons]
    by_cases hempty : chunk.isEmpty = true
    · -- What comes after an empty read is not looked at.
      have hfails : fails ⟨chunk :: rest, failure⟩ = false := by
        simp [fails, hempty]
      rw [if_pos hempty, output_cons_of_empty hempty, hfails, List.append_nil, limited,
        if_neg hdecoded.not_gt]
      rfl
    · have hfails : fails ⟨chunk :: rest, failure⟩ = fails ⟨rest, failure⟩ := by
        simp [fails, hempty]
      rw [output_cons hempty, List.length_append] at hcounted
      have hsum : saturatingAdd decoded.length chunk.length > maxBytes ↔
          maxBytes < decoded.length + chunk.length :=
        maxBytes_lt_saturatingAdd (hcounted.imp_right fun h ↦ by omega)
      rw [if_neg hempty, output_cons hempty, hfails]
      split_ifs with hlarge
      · have hlarge' := hsum.mp hlarge
        rw [limited, if_pos]
        · rfl
        · rw [List.length_append, List.length_append]
          omega
      · rw [hsum, not_lt, ← List.length_append] at hlarge
        rw [ih hlarge, List.append_assoc]
        rw [List.length_append]
        omega

end Loop

variable {r : Reader}

theorem Reader.Counted.from_start (h : r.Counted maxBytes) :
    maxBytes < usizeMax ∨ ([] : Bytes).length + r.output.length ≤ usizeMax := by
  rwa [List.length_nil, Nat.zero_add]

/-- Only what a reader delivers, and whether it fails then, decides the outcome. -/
theorem readToEndLimited_outcome (h : r.Counted maxBytes) (encoding : Text) :
    decodeOutcome (readToEndLimited r encoding maxBytes).value =
      limited maxBytes r.output r.fails :=
  readPieces_outcome r.pieces (Nat.zero_le _) h.from_start

theorem readToEndLimited_eq_ok (h : r.Counted maxBytes) {encoding : Text} {body : Bytes} :
    (readToEndLimited r encoding maxBytes).value = .ok body ↔
      r.Yields body ∧ body.length ≤ maxBytes := by
  rw [← decodeOutcome_eq_ok, readToEndLimited_outcome h, limited_eq_ok, Yields, and_assoc]

/-! ## The bytes that a reader is asked for -/

/-- How far a reader may go beyond the limit: by a buffer, if that makes the size error. -/
def DecodeOutcome.overrun : DecodeOutcome → ℕ
  | .sizeError => chunkSize
  | _ => 0

theorem DecodeOutcome.overrun_le (outcome : DecodeOutcome) : outcome.overrun ≤ chunkSize := by
  cases outcome <;> simp [overrun]

/-- The pieces that were taken before the last one fit the limit, and the last one fits the
buffer. -/
theorem length_events_readPieces (encoding : Text) {failure : Option Text} {pieces : List Bytes}
    {decoded : Bytes} (hpieces : ∀ piece ∈ pieces, piece.length ≤ chunkSize)
    (hdecoded : decoded.length ≤ maxBytes)
    (hcounted : maxBytes < usizeMax ∨
      decoded.length + (output ⟨pieces, failure⟩).length ≤ usizeMax) :
    decoded.length + (readPieces encoding maxBytes failure decoded pieces).events.flatten.length ≤
      maxBytes +
        (decodeOutcome (readPieces encoding maxBytes failure decoded pieces).value).overrun := by
  induction pieces generalizing decoded with
  | nil =>
    have hevents : (readPieces encoding maxBytes failure decoded []).events = [] := by
      cases failure <;> rfl
    rw [hevents]
    exact hdecoded.trans (Nat.le_add_right _ _)
  | cons chunk rest ih =>
    obtain ⟨hchunk, hrest⟩ := List.forall_mem_cons.mp hpieces
    rw [readPieces_cons]
    split_ifs with hempty hlarge
    · rw [List.isEmpty_iff.mp hempty]
      exact hdecoded.trans (Nat.le_add_right _ _)
    · rw [List.flatten_singleton]
      exact Nat.add_le_add hdecoded hchunk
    · rw [output_cons hempty, List.length_append] at hcounted
      rw [maxBytes_lt_saturatingAdd (hcounted.imp_right fun h ↦ by omega), not_lt,
        ← List.length_append] at hlarge
      have hnext := ih hrest hlarge (by
        rw [List.length_append]
        omega)
      rw [List.length_append] at hnext
      rwa [List.flatten_cons, List.length_append, ← Nat.add_assoc]

/-- What a reader produces. -/
theorem length_produced (h : r.Counted maxBytes)
    (hpieces : ∀ piece ∈ r.pieces, piece.length ≤ chunkSize) (encoding : Text) :
    ∃ produced : Bytes, (readToEndLimited r encoding maxBytes).events = [produced] ∧
      produced.length ≤
        maxBytes + (decodeOutcome (readToEndLimited r encoding maxBytes).value).overrun := by
  have hlength := length_events_readPieces encoding hpieces (Nat.zero_le _) h.from_start
  rw [List.length_nil, Nat.zero_add] at hlength
  exact ⟨_, rfl, hlength⟩

/-! ## Layers -/

inductive Coding where
  | identity | gzip | deflate | br | zstd
  deriving DecidableEq, Repr

def Coding.name : Coding → Text
  | .identity => "identity".toList
  | .gzip => "gzip".toList
  | .deflate => "deflate".toList
  | .br => "br".toList
  | .zstd => "zstd".toList

theorem Coding.name_injective : Function.Injective Coding.name := by
  intro a b h
  cases a <;> cases b <;> first | rfl | (exact absurd h (by decide))

def Codecs.supports (codecs : Codecs) : Coding → Bool
  | .identity => true
  | .gzip | .deflate => codecs.compressionGzip
  | .br => codecs.compressionBrotli
  | .zstd => codecs.compressionZstd

/-- The readers that the codecs make of a body. -/
inductive Codecs.Opens (codecs : Codecs) (body : Bytes) : Reader → Prop
  | gzip : Opens codecs body (codecs.multiGzDecoder body)
  | zlib : Opens codecs body (codecs.zlibDecoder body)
  | raw : Opens codecs body (codecs.deflateDecoder body)
  | br : Opens codecs body (codecs.brotliDecompressor body)
  | zstd {reader : Reader} (h : codecs.zstdDecoder body = .ok reader) : Opens codecs body reader

/-- What `Read` promises: a piece is not longer than the buffer. The bytes can be counted in a
`usize`, which matters if the limit is the largest one. -/
structure Codecs.Reads (codecs : Codecs) (maxBytes : ℕ) : Prop where
  buffer : ∀ body reader, codecs.Opens body reader →
    ∀ piece ∈ reader.pieces, piece.length ≤ chunkSize
  counted : ∀ body reader, codecs.Opens body reader → reader.Counted maxBytes

variable {codecs codecs' : Codecs} {maxBytes : ℕ} {encoding encoding' : Text} {body out x : Bytes}

/-- The branch of `decodeOne` for a coding. -/
def decodeWith (codecs : Codecs) (encoding : Text) (body : Bytes) (maxBytes : ℕ) :
    Coding → Logged Bytes (Except DecodeContentEncodingError Bytes)
  | .identity => return .ok body
  | .gzip => readToEndLimited (codecs.multiGzDecoder body) encoding maxBytes
  | .deflate => decodeDeflateLimited codecs body encoding maxBytes
  | .br => readToEndLimited (codecs.brotliDecompressor body) encoding maxBytes
  | .zstd =>
    match codecs.zstdDecoder body with
    | .error message => return .error (.decode encoding message)
    | .ok decoder => readToEndLimited decoder encoding maxBytes

theorem decodeOne_of_supports {coding : Coding}
    (hname : toAsciiLowercase encoding = coding.name) (h : codecs.supports coding = true) :
    decodeOne codecs encoding body maxBytes = decodeWith codecs encoding body maxBytes coding := by
  have hidentity : "identity".toList = Coding.identity.name := rfl
  have hgzip : "gzip".toList = Coding.gzip.name := rfl
  have hdeflate : "deflate".toList = Coding.deflate.name := rfl
  have hbr : "br".toList = Coding.br.name := rfl
  have hzstd : "zstd".toList = Coding.zstd.name := rfl
  rw [decodeOne, hname, hidentity, hgzip, hdeflate, hbr, hzstd]
  simp only [Coding.name_injective.eq_iff]
  cases coding with
  | zstd =>
    simp only [Codecs.supports] at h
    cases hreader : codecs.zstdDecoder body <;> simp [decodeWith, h, hreader]
  | _ =>
    simp only [Codecs.supports] at h
    simp [decodeWith, h]

theorem decodeOne_of_not_supports
    (h : ∀ coding : Coding, toAsciiLowercase encoding = coding.name →
      codecs.supports coding = false) :
    decodeOne codecs encoding body maxBytes = pure (.error
      (.decode (toAsciiLowercase encoding) "unsupported content-encoding".toList)) := by
  unfold decodeOne
  dsimp only
  split_ifs with hidentity hgzip hdeflate hbr hzstd
  · exact absurd (h .identity hidentity) (by simp [Codecs.supports])
  · simp only [Bool.and_eq_true, decide_eq_true_eq] at hgzip
    exact absurd (h .gzip hgzip.2) (by simp [Codecs.supports, hgzip.1])
  · simp only [Bool.and_eq_true, decide_eq_true_eq] at hdeflate
    exact absurd (h .deflate hdeflate.2) (by simp [Codecs.supports, hdeflate.1])
  · simp only [Bool.and_eq_true, decide_eq_true_eq] at hbr
    exact absurd (h .br hbr.2) (by simp [Codecs.supports, hbr.1])
  · simp only [Bool.and_eq_true, decide_eq_true_eq] at hzstd
    exact absurd (h .zstd hzstd.2) (by simp [Codecs.supports, hzstd.1])
  · rfl

/-- A layer of a coding turns the one body into the other. -/
inductive Layer (codecs : Codecs) (maxBytes : ℕ) (body : Bytes) : Coding → Bytes → Prop
  | identity : Layer codecs maxBytes body .identity body
  | gzip {out : Bytes} (h : (codecs.multiGzDecoder body).Yields out) :
      Layer codecs maxBytes body .gzip out
  | zlib {out : Bytes} (h : (codecs.zlibDecoder body).Yields out) :
      Layer codecs maxBytes body .deflate out
  | raw {out : Bytes} (hfails : (codecs.zlibDecoder body).fails = true)
      (hsize : (codecs.zlibDecoder body).output.length ≤ maxBytes)
      (h : (codecs.deflateDecoder body).Yields out) : Layer codecs maxBytes body .deflate out
  | br {out : Bytes} (h : (codecs.brotliDecompressor body).Yields out) :
      Layer codecs maxBytes body .br out
  | zstd {out : Bytes} {reader : Reader} (hreader : codecs.zstdDecoder body = .ok reader)
      (h : reader.Yields out) : Layer codecs maxBytes body .zstd out

/-- Layer by layer, with every result within the limit. -/
inductive Decodes (codecs : Codecs) (maxBytes : ℕ) : List Coding → Bytes → Bytes → Prop
  | nil (body : Bytes) : Decodes codecs maxBytes [] body body
  | cons {coding : Coding} {codings : List Coding} {body out x : Bytes}
      (hlayer : Layer codecs maxBytes body coding out) (hsize : out.length ≤ maxBytes)
      (hrest : Decodes codecs maxBytes codings out x) :
      Decodes codecs maxBytes (coding :: codings) body x

theorem decodeDeflateLimited_eq :
    decodeDeflateLimited codecs body encoding maxBytes =
      if decodeOutcome (readToEndLimited (codecs.zlibDecoder body) encoding maxBytes).value =
          .decodeError then
        ⟨(readToEndLimited (codecs.zlibDecoder body) encoding maxBytes).events ++
            (readToEndLimited (codecs.deflateDecoder body) encoding maxBytes).events,
          (readToEndLimited (codecs.deflateDecoder body) encoding maxBytes).value⟩
      else readToEndLimited (codecs.zlibDecoder body) encoding maxBytes := by
  unfold decodeDeflateLimited
  obtain ⟨events, value⟩ := readToEndLimited (codecs.zlibDecoder body) encoding maxBytes
  have hdone : Logged.mk (events ++ []) value = ⟨events, value⟩ := by rw [List.append_nil]
  cases value with
  | ok decoded => exact hdone
  | error error =>
    cases error with
    | tooLarge actualBytes => exact hdone
    | decode encoding' message => rfl

/-- The fallback is taken if and only if the first reader fails within the limit. -/
theorem decodeDeflateLimited_eq_ok (h : codecs.Reads maxBytes) :
    (decodeDeflateLimited codecs body encoding maxBytes).value = .ok out ↔
      Layer codecs maxBytes body .deflate out ∧ out.length ≤ maxBytes := by
  have hzlib := h.counted body _ .zlib
  rw [decodeDeflateLimited_eq, readToEndLimited_outcome hzlib]
  split_ifs with hfallback
  · obtain ⟨hsize, hfails⟩ := limited_eq_decodeError.mp hfallback
    rw [readToEndLimited_eq_ok (h.counted body _ .raw)]
    refine and_congr_left fun _ ↦ ⟨.raw hfails hsize, fun hlayer ↦ ?_⟩
    cases hlayer with
    | zlib hyields =>
      rw [hyields.2] at hfails
      cases hfails
    | raw _ _ hyields => exact hyields
  · rw [readToEndLimited_eq_ok hzlib]
    refine and_congr_left fun _ ↦ ⟨.zlib, fun hlayer ↦ ?_⟩
    cases hlayer with
    | zlib hyields => exact hyields
    | raw hfails hsize _ => exact absurd (limited_eq_decodeError.mpr ⟨hsize, hfails⟩) hfallback

theorem decodeWith_eq_ok (h : codecs.Reads maxBytes) (hbody : body.length ≤ maxBytes)
    (coding : Coding) :
    (decodeWith codecs encoding body maxBytes coding).value = .ok out ↔
      Layer codecs maxBytes body coding out ∧ out.length ≤ maxBytes := by
  cases coding with
  | identity =>
    constructor
    · intro hok
      cases hok
      exact ⟨.identity, hbody⟩
    · rintro ⟨hlayer, -⟩
      cases hlayer
      rfl
  | gzip =>
    rw [decodeWith, readToEndLimited_eq_ok (h.counted body _ .gzip)]
    refine and_congr_left fun _ ↦ ⟨.gzip, fun hlayer ↦ ?_⟩
    cases hlayer
    assumption
  | deflate => exact decodeDeflateLimited_eq_ok h
  | br =>
    rw [decodeWith, readToEndLimited_eq_ok (h.counted body _ .br)]
    refine and_congr_left fun _ ↦ ⟨.br, fun hlayer ↦ ?_⟩
    cases hlayer
    assumption
  | zstd =>
    rw [decodeWith]
    cases hreader : codecs.zstdDecoder body with
    | error message =>
      refine iff_of_false (by simp) ?_
      rintro ⟨hlayer, -⟩
      cases hlayer with
      | zstd hreader' _ =>
        rw [hreader] at hreader'
        cases hreader'
    | ok reader =>
      dsimp only
      rw [readToEndLimited_eq_ok (h.counted body _ (.zstd hreader))]
      refine and_congr_left fun _ ↦ ⟨.zstd hreader, fun hlayer ↦ ?_⟩
      cases hlayer with
      | zstd hreader' hyields =>
        rw [hreader] at hreader'
        cases hreader'
        exact hyields

theorem decodeOne_eq_ok (h : codecs.Reads maxBytes) (hbody : body.length ≤ maxBytes) :
    (decodeOne codecs encoding body maxBytes).value = .ok out ↔
      ∃ coding : Coding, toAsciiLowercase encoding = coding.name ∧
        codecs.supports coding = true ∧ Layer codecs maxBytes body coding out ∧
        out.length ≤ maxBytes := by
  by_cases hcoding : ∃ coding : Coding, toAsciiLowercase encoding = coding.name ∧
      codecs.supports coding = true
  · obtain ⟨coding, hname, hsupports⟩ := hcoding
    rw [decodeOne_of_supports hname hsupports, decodeWith_eq_ok h hbody]
    constructor
    · intro hlayer
      exact ⟨coding, hname, hsupports, hlayer⟩
    · rintro ⟨coding', hname', -, hlayer⟩
      obtain rfl := Coding.name_injective (hname.symm.trans hname')
      exact hlayer
  · rw [decodeOne_of_not_supports]
    · refine iff_of_false (by intro hok; cases hok) ?_
      rintro ⟨coding, hname, hsupports, -⟩
      exact hcoding ⟨coding, hname, hsupports⟩
    · intro coding hname
      rw [Bool.eq_false_iff]
      exact fun hsupports ↦ hcoding ⟨coding, hname, hsupports⟩

theorem value_decodeAll_cons (encodings : List Text) :
    (decodeAll codecs maxBytes (encoding :: encodings) body).value =
      match (decodeOne codecs encoding body maxBytes).value with
      | .error error => .error error
      | .ok body => (decodeAll codecs maxBytes encodings body).value := by
  rw [decodeAll]
  cases (decodeOne codecs encoding body maxBytes).value <;> rfl

theorem decodeAll_eq_ok (h : codecs.Reads maxBytes) (encodings : List Text)
    (hbody : body.length ≤ maxBytes) :
    (decodeAll codecs maxBytes encodings body).value = .ok x ↔
      ∃ codings : List Coding, encodings.map toAsciiLowercase = codings.map Coding.name ∧
        (∀ coding ∈ codings, codecs.supports coding = true) ∧
        Decodes codecs maxBytes codings body x := by
  induction encodings generalizing body with
  | nil =>
    constructor
    · intro hok
      cases hok
      exact ⟨[], rfl, by simp, .nil _⟩
    · rintro ⟨codings, hnames, -, hdecodes⟩
      obtain rfl := List.map_eq_nil_iff.mp hnames.symm
      cases hdecodes
      rfl
  | cons encoding encodings ih =>
    rw [value_decodeAll_cons]
    constructor
    · intro hok
      cases hone : (decodeOne codecs encoding body maxBytes).value with
      | error error =>
        rw [hone] at hok
        cases hok
      | ok out =>
        rw [hone] at hok
        obtain ⟨coding, hname, hsupports, hlayer, hsize⟩ := (decodeOne_eq_ok h hbody).mp hone
        obtain ⟨codings, hnames, hall, hdecodes⟩ := (ih hsize).mp hok
        exact ⟨coding :: codings, by simp [hname, hnames],
          List.forall_mem_cons.mpr ⟨hsupports, hall⟩, .cons hlayer hsize hdecodes⟩
    · rintro ⟨codings, hnames, hall, hdecodes⟩
      cases hdecodes with
      | nil => simp at hnames
      | @cons coding codings _ out _ hlayer hsize hrest =>
        obtain ⟨hsupports, hall⟩ := List.forall_mem_cons.mp hall
        rw [List.map_cons, List.map_cons, List.cons.injEq] at hnames
        have hone : (decodeOne codecs encoding body maxBytes).value = .ok out :=
          (decodeOne_eq_ok h hbody).mpr ⟨coding, hnames.1, hsupports, hlayer, hsize⟩
        rw [hone]
        exact (ih hsize).mpr ⟨codings, hnames.2, hall, hrest⟩

/-! ## Readers that deliver the same -/

def Reader.stream (r : Reader) : Bytes × Bool := (r.output, r.fails)

/-- The codecs have the same features and, up to how the bytes are split, the same readers. -/
structure Codecs.SameStreams (codecs codecs' : Codecs) : Prop where
  supports : codecs.supports = codecs'.supports
  gzip : ∀ body, (codecs.multiGzDecoder body).stream = (codecs'.multiGzDecoder body).stream
  zlib : ∀ body, (codecs.zlibDecoder body).stream = (codecs'.zlibDecoder body).stream
  raw : ∀ body, (codecs.deflateDecoder body).stream = (codecs'.deflateDecoder body).stream
  br : ∀ body, (codecs.brotliDecompressor body).stream = (codecs'.brotliDecompressor body).stream
  zstd : ∀ body, (codecs.zstdDecoder body).toOption.map stream =
    (codecs'.zstdDecoder body).toOption.map stream

theorem readToEndLimited_congr {r r' : Reader} (h : r.Counted maxBytes) (h' : r'.Counted maxBytes)
    (hstream : r.stream = r'.stream) (encoding encoding' : Text) :
    decodeOutcome (readToEndLimited r encoding maxBytes).value =
      decodeOutcome (readToEndLimited r' encoding' maxBytes).value := by
  obtain ⟨houtput, hfails⟩ := Prod.mk.inj hstream
  rw [readToEndLimited_outcome h, readToEndLimited_outcome h', houtput, hfails]

section Congr

variable (h : codecs.Reads maxBytes) (h' : codecs'.Reads maxBytes)
  (hsame : codecs.SameStreams codecs')

include h h' hsame

theorem decodeWith_congr (coding : Coding) :
    decodeOutcome (decodeWith codecs encoding body maxBytes coding).value =
      decodeOutcome (decodeWith codecs' encoding' body maxBytes coding).value := by
  cases coding with
  | identity => rfl
  | gzip =>
    exact readToEndLimited_congr (h.counted body _ .gzip) (h'.counted body _ .gzip)
      (hsame.gzip body) encoding encoding'
  | deflate =>
    have hzlib := readToEndLimited_congr (h.counted body _ .zlib) (h'.counted body _ .zlib)
      (hsame.zlib body) encoding encoding'
    have hraw := readToEndLimited_congr (h.counted body _ .raw) (h'.counted body _ .raw)
      (hsame.raw body) encoding encoding'
    rw [decodeWith, decodeWith, decodeDeflateLimited_eq, decodeDeflateLimited_eq, hzlib]
    split_ifs
    · exact hraw
    · exact hzlib
  | br =>
    exact readToEndLimited_congr (h.counted body _ .br) (h'.counted body _ .br) (hsame.br body)
      encoding encoding'
  | zstd =>
    have hzstd := hsame.zstd body
    rw [decodeWith, decodeWith]
    cases hreader : codecs.zstdDecoder body with
    | error message =>
      cases hreader' : codecs'.zstdDecoder body with
      | error message' => rfl
      | ok reader' =>
        rw [hreader, hreader'] at hzstd
        cases hzstd
    | ok reader =>
      cases hreader' : codecs'.zstdDecoder body with
      | error message' =>
        rw [hreader, hreader'] at hzstd
        cases hzstd
      | ok reader' =>
        rw [hreader, hreader'] at hzstd
        exact readToEndLimited_congr (h.counted body _ (.zstd hreader))
          (h'.counted body _ (.zstd hreader')) (Option.some.inj hzstd) encoding encoding'

theorem decodeOne_congr
    (hencoding : toAsciiLowercase encoding = toAsciiLowercase encoding') (body : Bytes) :
    decodeOutcome (decodeOne codecs encoding body maxBytes).value =
      decodeOutcome (decodeOne codecs' encoding' body maxBytes).value := by
  by_cases hcoding : ∃ coding : Coding, toAsciiLowercase encoding = coding.name ∧
      codecs.supports coding = true
  · obtain ⟨coding, hname, hsupports⟩ := hcoding
    rw [decodeOne_of_supports hname hsupports]
    rw [hencoding] at hname
    rw [hsame.supports] at hsupports
    rw [decodeOne_of_supports hname hsupports]
    exact decodeWith_congr h h' hsame coding
  · have hnone : ∀ coding : Coding, toAsciiLowercase encoding = coding.name →
        codecs.supports coding = false := by
      intro coding hname
      rw [Bool.eq_false_iff]
      exact fun hsupports ↦ hcoding ⟨coding, hname, hsupports⟩
    have hone : decodeOne codecs encoding body maxBytes = _ := decodeOne_of_not_supports hnone
    rw [hencoding, hsame.supports] at hnone
    have hone' : decodeOne codecs' encoding' body maxBytes = _ := decodeOne_of_not_supports hnone
    rw [hone, hone']
    rfl

theorem decodeAll_congr {encodings encodings' : List Text}
    (hencodings : encodings.map toAsciiLowercase = encodings'.map toAsciiLowercase) :
    decodeOutcome (decodeAll codecs maxBytes encodings body).value =
      decodeOutcome (decodeAll codecs' maxBytes encodings' body).value := by
  induction encodings generalizing encodings' body with
  | nil =>
    obtain rfl := List.map_eq_nil_iff.mp hencodings.symm
    rfl
  | cons encoding encodings ih =>
    cases encodings' with
    | nil => cases hencodings
    | cons encoding' encodings' =>
      rw [List.map_cons, List.map_cons, List.cons.injEq] at hencodings
      have hone := decodeOne_congr h h' hsame hencodings.1 body
      rw [value_decodeAll_cons, value_decodeAll_cons]
      cases hread : (decodeOne codecs encoding body maxBytes).value with
      | ok out =>
        rw [hread] at hone
        have hread' := decodeOutcome_eq_ok.mp hone.symm
        rw [hread']
        exact ih hencodings.2
      | error error =>
        rw [hread] at hone
        cases hread' : (decodeOne codecs' encoding' body maxBytes).value with
        | ok out' =>
          rw [hread'] at hone
          have hfalse := decodeOutcome_eq_ok.mp hone
          cases hfalse
        | error error' =>
          rw [hread'] at hone
          exact hone

end Congr

/-! ## The headers -/

/-- The codings that the values list. -/
def codingsOf (values : List Text) : List Text :=
  (values.flatMap fun value ↦ (split ',' value).map trim).filter fun item ↦ !item.isEmpty

/-- What is left of the headers if letter case, spaces and empty items are set aside. There is
nothing if a value has no text. -/
def listedCodings (headers : HeaderMap) : Option (List Text) :=
  ((headers.getAll .contentEncoding).mapM HeaderValue.toStr).map fun values ↦
    (codingsOf values).map toAsciiLowercase

/-- One value may list what several do. -/
theorem codingsOf_intercalate (values : List Text) :
    codingsOf [List.intercalate [','] values] = codingsOf values := by
  cases values with
  | nil => rfl
  | cons value values =>
    have hsplit := split_intercalate ',' (List.cons_ne_nil value values)
    rw [codingsOf, List.flatMap_singleton, hsplit, codingsOf, List.map_flatMap]

theorem decodeContentEncodedBodyLimited_eq_ok (h : codecs.Reads maxBytes) (body : Bytes)
    (headers : HeaderMap) :
    decodeContentEncodedBodyLimited codecs body headers maxBytes = .ok x ↔
      body.length ≤ maxBytes ∧ ∃ codings : List Coding,
        listedCodings headers = some (codings.map Coding.name) ∧
        (∀ coding ∈ codings, codecs.supports coding = true) ∧
        Decodes codecs maxBytes codings.reverse body x := by
  unfold decodeContentEncodedBodyLimited decodeContentEncodedBodyLogged listedCodings
  split_ifs with hlarge
  · exact iff_of_false (by simp) fun hok ↦ absurd hok.1 (not_le.mpr hlarge)
  · have hbody := not_lt.mp hlarge
    cases (headers.getAll .contentEncoding).mapM HeaderValue.toStr with
    | none => simp
    | some values =>
      dsimp only
      rw [Option.map_some, decodeAll_eq_ok h _ hbody]
      change (∃ codings : List Coding, (codingsOf values).reverse.map toAsciiLowercase =
        codings.map Coding.name ∧ _) ↔ _
      simp only [hbody, true_and, Option.some.injEq, List.map_reverse]
      constructor
      · rintro ⟨codings, hnames, hall, hdecodes⟩
        refine ⟨codings.reverse, ?_, by simpa using hall, by simpa using hdecodes⟩
        rw [List.map_reverse, ← hnames, List.reverse_reverse]
      · rintro ⟨codings, hnames, hall, hdecodes⟩
        refine ⟨codings.reverse, ?_, by simpa using hall, hdecodes⟩
        rw [hnames, List.map_reverse]

theorem decodeContentEncodedBodyLimited_congr (h : codecs.Reads maxBytes)
    (h' : codecs'.Reads maxBytes) (hsame : codecs.SameStreams codecs') (body : Bytes)
    {headers headers' : HeaderMap} (hlisted : listedCodings headers = listedCodings headers') :
    decodeOutcome (decodeContentEncodedBodyLimited codecs body headers maxBytes) =
      decodeOutcome (decodeContentEncodedBodyLimited codecs' body headers' maxBytes) := by
  unfold decodeContentEncodedBodyLimited decodeContentEncodedBodyLogged
  unfold listedCodings at hlisted
  split_ifs
  · rfl
  · cases hvalues : (headers.getAll .contentEncoding).mapM HeaderValue.toStr with
    | none =>
      rw [hvalues] at hlisted
      have hnone := Option.map_eq_none_iff.mp hlisted.symm
      rw [hnone]
    | some values =>
      rw [hvalues] at hlisted
      obtain ⟨values', hvalues', hnames⟩ := Option.map_eq_some_iff.mp hlisted.symm
      rw [hvalues']
      apply decodeAll_congr h h' hsame
      rw [List.map_reverse, List.map_reverse]
      exact congrArg List.reverse hnames.symm

/-! ## What the layers produce -/

/-- No reader goes beyond the limit by more than a buffer. A deflate layer may have two readers,
and the first of them has then stayed within the limit. -/
def Produced (maxBytes : ℕ) (encoding : Text) (layer : List Bytes) : Prop :=
  (∀ produced ∈ layer, produced.length ≤ maxBytes + 8 * 1024) ∧
    layer.flatten.length ≤ if toAsciiLowercase encoding = "deflate".toList then
      2 * maxBytes + 8 * 1024 else maxBytes + 8 * 1024

theorem Produced.nil : Produced maxBytes encoding [] := ⟨by simp, Nat.zero_le _⟩

theorem Produced.one {produced : Bytes} (h : produced.length ≤ maxBytes + chunkSize) :
    Produced maxBytes encoding [produced] := by
  unfold chunkSize at h
  refine ⟨List.forall_mem_singleton.mpr h, ?_⟩
  rw [List.flatten_singleton]
  split_ifs <;> omega

theorem readToEndLimited_produced (h : codecs.Reads maxBytes) {reader : Reader}
    (hopens : codecs.Opens body reader) (encoding encoding' : Text) :
    Produced maxBytes encoding' (readToEndLimited reader encoding maxBytes).events := by
  obtain ⟨produced, hevents, hlength⟩ :=
    length_produced (h.counted body reader hopens) (h.buffer body reader hopens) encoding
  rw [hevents]
  exact .one (hlength.trans (Nat.add_le_add_left (DecodeOutcome.overrun_le _) _))

theorem decodeDeflateLimited_produced (h : codecs.Reads maxBytes)
    (hname : toAsciiLowercase encoding = "deflate".toList) :
    Produced maxBytes encoding (decodeDeflateLimited codecs body encoding maxBytes).events := by
  rw [decodeDeflateLimited_eq]
  split_ifs with hfallback
  · -- The zlib reader has failed, so it has stayed within the limit.
    obtain ⟨zlib, hzlib, hzlibLength⟩ :=
      length_produced (h.counted body _ .zlib) (h.buffer body _ .zlib) encoding
    obtain ⟨raw, hraw, hrawLength⟩ :=
      length_produced (h.counted body _ .raw) (h.buffer body _ .raw) encoding
    have hoverrun := DecodeOutcome.overrun_le
      (decodeOutcome (readToEndLimited (codecs.deflateDecoder body) encoding maxBytes).value)
    have hfailed : DecodeOutcome.decodeError.overrun = 0 := rfl
    rw [hfallback, hfailed] at hzlibLength
    unfold chunkSize at hoverrun
    rw [hzlib, hraw, Produced, if_pos hname]
    constructor
    · intro produced hproduced
      simp only [List.cons_append, List.nil_append, List.mem_cons, List.not_mem_nil,
        or_false] at hproduced
      rcases hproduced with rfl | rfl <;> omega
    · simp only [List.cons_append, List.nil_append, List.flatten_cons, List.flatten_nil,
        List.append_nil, List.length_append]
      omega
  · exact readToEndLimited_produced h .zlib encoding encoding

theorem decodeOne_produced (h : codecs.Reads maxBytes) (encoding : Text) (body : Bytes) :
    Produced maxBytes encoding (decodeOne codecs encoding body maxBytes).events := by
  unfold decodeOne
  dsimp only
  split_ifs with hidentity hgzip hdeflate hbr hzstd
  · exact .nil
  · exact readToEndLimited_produced h .gzip encoding encoding
  · simp only [Bool.and_eq_true, decide_eq_true_eq] at hdeflate
    exact decodeDeflateLimited_produced h hdeflate.2
  · exact readToEndLimited_produced h .br encoding encoding
  · cases hreader : codecs.zstdDecoder body with
    | error message => exact .nil
    | ok reader => exact readToEndLimited_produced h (.zstd hreader) encoding encoding
  · exact .nil

theorem decodeAll_produced (h : codecs.Reads maxBytes) (encodings : List Text) (body : Bytes) :
    ∀ layer ∈ (decodeAll codecs maxBytes encodings body).events,
      Produced maxBytes layer.1 layer.2 := by
  induction encodings generalizing body with
  | nil => exact Logged.all_pure _
  | cons encoding encodings ih =>
    rw [decodeAll]
    refine Logged.All.bind (Logged.all_tell.mpr ?_) fun _ ↦ ?_
    · exact List.forall_mem_singleton.mpr (decodeOne_produced h encoding body)
    · split
      · exact Logged.all_pure _
      · exact ih _

/-- What is returned, what it depends on, and how much each layer produces on the way. -/
theorem content_decoding_bounded (h : codecs.Reads maxBytes) :
    (∀ body headers x, decodeContentEncodedBodyLimited codecs body headers maxBytes = .ok x ↔
      body.length ≤ maxBytes ∧ ∃ codings : List Coding,
        listedCodings headers = some (codings.map Coding.name) ∧
        (∀ coding ∈ codings, codecs.supports coding = true) ∧
        Decodes codecs maxBytes codings.reverse body x) ∧
    (∀ codecs' : Codecs, codecs'.Reads maxBytes → codecs.SameStreams codecs' →
      ∀ body headers headers', listedCodings headers = listedCodings headers' →
        decodeOutcome (decodeContentEncodedBodyLimited codecs body headers maxBytes) =
          decodeOutcome (decodeContentEncodedBodyLimited codecs' body headers' maxBytes)) ∧
    (∀ values, codingsOf [List.intercalate [','] values] = codingsOf values) ∧
    ∀ body headers, ∀ layer ∈ (decodeContentEncodedBodyLogged codecs body headers maxBytes).events,
      Produced maxBytes layer.1 layer.2 := by
  refine ⟨fun body headers x ↦ decodeContentEncodedBodyLimited_eq_ok h body headers,
    fun codecs' h' hsame body headers headers' hlisted ↦
      decodeContentEncodedBodyLimited_congr h h' hsame body hlisted,
    codingsOf_intercalate, fun body headers ↦ ?_⟩
  unfold decodeContentEncodedBodyLogged
  split
  · exact Logged.all_pure _
  · split
    · exact Logged.all_pure _
    · exact decodeAll_produced h _ body

namespace ContentDecoding

/-- Codecs that repeat a short body; the reader for zlib always fails. -/
def shortCodecs : Codecs where
  compressionGzip := true
  compressionBrotli := false
  compressionZstd := false
  multiGzDecoder body := ⟨[body.take 2, body.take 2], none⟩
  zlibDecoder body := ⟨[body.take 1], some "corrupt deflate stream".toList⟩
  deflateDecoder body := ⟨[body.take 2], none⟩
  brotliDecompressor _ := ⟨[], none⟩
  zstdDecoder _ := .error "zstd".toList

theorem reads_shortCodecs : shortCodecs.Reads 10 where
  buffer := by
    intro body reader hopens piece hpiece
    have hshort : piece.length ≤ 2 := by
      cases hopens with
      | zstd hreader => cases hreader
      | br => cases hpiece
      | _ =>
        simp only [shortCodecs, List.mem_cons, List.not_mem_nil, or_false, or_self] at hpiece
        rw [hpiece, List.length_take]
        omega
    exact hshort.trans (by decide)
  counted := fun _ _ _ ↦ .inl (by decide)

def headers : HeaderMap :=
  ⟨[(.contentEncoding, .ofString "Deflate, "), (.contentEncoding, .ofString ",GZIP")]⟩

theorem content_decoding_bounded_deflate :
    decodeContentEncodedBodyLimited shortCodecs [7] headers 10 = .ok [7, 7] := by
  refine ((content_decoding_bounded reads_shortCodecs).1 [7] headers [7, 7]).mpr
    ⟨by decide, [.deflate, .gzip], by decide, by decide, ?_⟩
  refine .cons (.gzip ⟨rfl, rfl⟩) (by decide) ?_
  refine .cons (.raw rfl (by decide) ⟨rfl, rfl⟩) (by decide) ?_
  exact .nil _

/-- The zlib reader fails after one byte, and the raw one delivers a byte and a full buffer. -/
def twoReaderCodecs : Codecs :=
  { shortCodecs with
    zlibDecoder _ := ⟨[[0]], some "corrupt deflate stream".toList⟩
    deflateDecoder _ := ⟨[[0], List.replicate 8192 0], none⟩ }

theorem deflate_produces_more :
    ∃ layer ∈ (decodeContentEncodedBodyLogged twoReaderCodecs [7]
        ⟨[(.contentEncoding, .ofString "deflate")]⟩ 1).events,
      1 + 8 * 1024 < layer.2.flatten.length := by
  decide +kernel

end ContentDecoding

end Reqx
