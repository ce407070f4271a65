import Reqx.Stream.Async
import Reqx.Stream.Blocking

/-!
# Helpers that consume a stream

The loops of the two stream types differ in where a chunk comes from and in
who completes the stream when one is too many; they are written once over a
`ChunkSource`. The byte counters saturate, so a limit of `usize::MAX` is no
limit.
-/

namespace Reqx.Stream

open Driver (Runtime)

variable {T H M : Type} [Transport T]

/-- Where a loop takes its chunks from, with what asking for one does. -/
structure ChunkSource (T H M : Type) [Transport T] where
  runtime : Runtime
  next : World H M → ResponseStream T H M → StreamAttempt T H M (Option Bytes)
  ran : ∀ w s, Ran w s (Yields s) (fun es _ ↦ Broke es) (next w s)

variable {s s' : ResponseStream T H M}

theorem ChunkSource.rest_length_lt (src : ChunkSource T H M) {w : World H M} {chunk : Bytes}
    (h : src.next w s = (.ok (some chunk), s')) :
    (Transport.rest s'.body).length < (Transport.rest s.body).length := by
  have hran := (src.ran w s).of_eq h
  obtain ⟨es, hmoves, -, -, -, hreceived, hne⟩ := hran.of_ok
  have hpos := List.length_pos_iff.mpr hne
  rw [hmoves.rest, hreceived, List.length_append]
  omega

/-! ## Collecting -/

/-- One chunk of a loop that collects. Only the blocking one completes the stream itself. -/
def collectChunk (completes : Bool) (maxBytes : ℕ) (collected : Bytes) (totalLen : ℕ)
    (chunk : Bytes) (s : ResponseStream T H M) : StreamAttempt T H M (Bytes × ℕ) :=
  let totalLen := saturatingAdd totalLen chunk.length
  if totalLen > maxBytes then
    let error := s.responseBodyTooLargeError maxBytes totalLen
    (.error (.failed error), if completes then s.completeError error else s)
  else (.ok (collected ++ chunk, totalLen), s)

theorem body_of_collectChunk {completes : Bool} {maxBytes totalLen totalLen' : ℕ}
    {collected collected' chunk : Bytes}
    (h : collectChunk completes maxBytes collected totalLen chunk s =
      (.ok (collected', totalLen'), s')) : s'.body = s.body := by
  unfold collectChunk at h
  dsimp only at h
  split at h <;> cases h
  rfl

def readLoop (src : ChunkSource T H M) (completes : Bool) (w : World H M) (maxBytes : ℕ)
    (collected : Bytes) (totalLen : ℕ) (s : ResponseStream T H M) : StreamAttempt T H M Bytes :=
  match hnext : src.next w s with
  | (.error stop, s) => (.error stop, s)
  | (.ok none, s) => (.ok collected, s)
  | (.ok (some chunk), s') =>
    match hchunk : collectChunk completes maxBytes collected totalLen chunk s' with
    | (.error stop, s) => (.error stop, s)
    | (.ok (collected, totalLen), s'') =>
      have : (Transport.rest s''.body).length < (Transport.rest s.body).length := by
        rw [body_of_collectChunk hchunk]
        exact src.rest_length_lt hnext
      readLoop src completes w maxBytes collected totalLen s''
termination_by (Transport.rest s.body).length

/-! ## Copying -/

/-- The limit that so many bytes exceed. -/
def exceeded (maxBytes : Option ℕ) (copied : ℕ) : Option ℕ := maxBytes.filter (copied > ·)

/-- One chunk of a loop that copies. `copy_to_writer` has no limit and counts after the
write, which makes no difference. -/
def copyChunk (rt : Runtime) (w : World H M) (maxBytes : Option ℕ) (copied : ℕ) (chunk : Bytes)
    (s : ResponseStream T H M) : StreamAttempt T H M ℕ :=
  let copied := saturatingAdd copied chunk.length
  match exceeded maxBytes copied with
  | some maxBytes =>
    let error := s.responseBodyTooLargeError maxBytes copied
    (.error (.failed error), s.completeError error)
  | none =>
    (s.writeWithDeadline rt w (.writeAll chunk)).andThen fun _ s ↦ (.ok copied, s)

theorem body_of_copyChunk {rt : Runtime} {w : World H M} {maxBytes : Option ℕ} {copied copied' : ℕ}
    {chunk : Bytes} (h : copyChunk rt w maxBytes copied chunk s = (.ok copied', s')) :
    s'.body = s.body := by
  unfold copyChunk at h
  dsimp only at h
  split at h
  · cases h
  · have hran := ran_writeWithDeadline rt w s (.writeAll chunk)
    rcases hwrite : s.writeWithDeadline rt w (.writeAll chunk) with ⟨stop | _, s₁⟩
    · rw [hwrite] at h
      cases h
    · rw [hwrite] at h hran
      obtain ⟨es, -, -, -, hbody⟩ := hran.of_ok
      cases h
      exact hbody

def copyLoop (src : ChunkSource T H M) (w : World H M) (maxBytes : Option ℕ) (copied : ℕ)
    (s : ResponseStream T H M) : StreamAttempt T H M ℕ :=
  match hnext : src.next w s with
  | (.error stop, s) => (.error stop, s)
  | (.ok none, s) => (.ok copied, s)
  | (.ok (some chunk), s') =>
    match hchunk : copyChunk src.runtime w maxBytes copied chunk s' with
    | (.error stop, s) => (.error stop, s)
    | (.ok copied, s'') =>
      have : (Transport.rest s''.body).length < (Transport.rest s.body).length := by
        rw [body_of_copyChunk hchunk]
        exact src.rest_length_lt hnext
      copyLoop src w maxBytes copied s''
termination_by (Transport.rest s.body).length

/-! ## The helpers -/

inductive Helper where
  | intoBytesLimited (maxBytes : ℕ)
  | intoResponseLimited (maxBytes : ℕ)
  | copyToWriter
  | copyToWriterLimited (maxBytes : ℕ)
  deriving DecidableEq

inductive Output where
  | bytes (body : Bytes)
  | response (status : StatusCode) (headers : HeaderMap) (body : Bytes)
  | copied (count : ℕ)
  deriving DecidableEq

def finishCopy (rt : Runtime) (w : World H M) (copied : ℕ) (s : ResponseStream T H M) :
    StreamAttempt T H M Output :=
  (s.writeWithDeadline rt w .flush).andThen fun _ s ↦ (.ok (.copied copied), s.completeSuccess)

/-- The decoding part of `into_response_limited`, between two looks at the deadline. -/
def decodeBody (codecs : Codecs) (maxBytes : ℕ) (body : Bytes) (s : ResponseStream T H M) :
    StreamAttempt T H M (HeaderMap × Bytes) :=
  if shouldDecodeContentEncodedBody s.method s.status body.length then
    match decodeContentEncodedBodyLimited codecs body s.headers maxBytes with
    | .error error =>
      let error := error.intoError s.method s.uriRedacted maxBytes
      (.error (.failed error), s.tell [.decoded (.error error)])
    | .ok body =>
      (.ok (if s.headers.containsKey .contentEncoding then removeContentEncodingHeaders s.headers
        else s.headers, body), s.tell [.decoded (.ok body)])
  else (.ok (s.headers, body), s.tell [.decoded (.ok body)])

def respond (w : World H M) (codecs : Codecs) (maxBytes : ℕ) (body : Bytes)
    (s : ResponseStream T H M) : StreamAttempt T H M Output :=
  (completeOnError (s.ensureWithinDeadline w)).andThen fun _ s ↦
    (completeOnError (decodeBody codecs maxBytes body s)).andThen fun (headers, body) s ↦
      (completeOnError (s.ensureWithinDeadline w)).andThen fun _ s ↦
        (.ok (.response s.status headers body), s.completeSuccess)

namespace Async

def rawChunks : ChunkSource StreamBody H M := ⟨.async, nextChunk, ran_nextChunk⟩

/-- In the loops that copy, a failure completes the stream. -/
def copiedChunks : ChunkSource StreamBody H M where
  runtime := .async
  next w s := completeOnError (nextChunk w s)
  ran w s := (ran_nextChunk w s).completeOnError

variable (w : World H M) (s : ResponseStream StreamBody H M)

def readRawBytesLimited (maxBytes : ℕ) : StreamAttempt StreamBody H M Bytes :=
  (takePendingChunk w s).andThen fun pending s ↦
    match pending with
    | none => readLoop rawChunks false w maxBytes [] 0 s
    | some chunk =>
      (collectChunk false maxBytes [] 0 chunk s).andThen fun (collected, totalLen) s ↦
        readLoop rawChunks false w maxBytes collected totalLen s

def intoBytesLimited (maxBytes : ℕ) : StreamAttempt StreamBody H M Output :=
  (completeOnError (readRawBytesLimited w s maxBytes)).andThen fun body s ↦
    (.ok (.bytes body), s.completeSuccess)

def intoResponseLimited (codecs : Codecs) (maxBytes : ℕ) : StreamAttempt StreamBody H M Output :=
  (completeOnError (readRawBytesLimited w s maxBytes)).andThen fun body s ↦
    respond w codecs maxBytes body s

/-- `copy_to_writer` and `copy_to_writer_limited`. -/
def copyTo (maxBytes : Option ℕ) : StreamAttempt StreamBody H M Output :=
  (completeOnError (takePendingChunk w s)).andThen fun pending s ↦
    match pending with
    | none =>
      (copyLoop copiedChunks w maxBytes 0 s).andThen fun copied s ↦
        finishCopy .async w copied s
    | some chunk =>
      (copyChunk .async w maxBytes 0 chunk s).andThen fun copied s ↦
        (copyLoop copiedChunks w maxBytes copied s).andThen fun copied s ↦
          finishCopy .async w copied s

def copyToWriter : StreamAttempt StreamBody H M Output := copyTo w s none

def copyToWriterLimited (maxBytes : ℕ) : StreamAttempt StreamBody H M Output :=
  copyTo w s (some maxBytes)

def consume (codecs : Codecs) (helper : Helper) : StreamAttempt StreamBody H M Output :=
  match helper with
  | .intoBytesLimited maxBytes => intoBytesLimited w s maxBytes
  | .intoResponseLimited maxBytes => intoResponseLimited w s codecs maxBytes
  | .copyToWriter => copyToWriter w s
  | .copyToWriterLimited maxBytes => copyToWriterLimited w s maxBytes

end Async

namespace Blocking

def chunks : ChunkSource BlockingBody H M := ⟨.blocking, nextChunk, ran_nextChunk⟩

variable (w : World H M) (s : ResponseStream BlockingBody H M)

def intoBytesLimited (maxBytes : ℕ) : StreamAttempt BlockingBody H M Output :=
  (readLoop chunks true w maxBytes [] 0 s).andThen fun body s ↦
    (.ok (.bytes body), s.completeSuccess)

def intoResponseLimited (codecs : Codecs) (maxBytes : ℕ) : StreamAttempt BlockingBody H M Output :=
  (readLoop chunks true w maxBytes [] 0 s).andThen fun body s ↦
    respond w codecs maxBytes body s

/-- `copy_to_writer` and `copy_to_writer_limited`. -/
def copyTo (maxBytes : Option ℕ) : StreamAttempt BlockingBody H M Output :=
  (copyLoop chunks w maxBytes 0 s).andThen fun copied s ↦ finishCopy .blocking w copied s

def copyToWriter : StreamAttempt BlockingBody H M Output := copyTo w s none

def copyToWriterLimited (maxBytes : ℕ) : StreamAttempt BlockingBody H M Output :=
  copyTo w s (some maxBytes)

def consume (codecs : Codecs) (helper : Helper) : StreamAttempt BlockingBody H M Output :=
  match helper with
  | .intoBytesLimited maxBytes => intoBytesLimited w s maxBytes
  | .intoResponseLimited maxBytes => intoResponseLimited w s codecs maxBytes
  | .copyToWriter => copyToWriter w s
  | .copyToWriterLimited maxBytes => copyToWriterLimited w s maxBytes

end Blocking

end Reqx.Stream
