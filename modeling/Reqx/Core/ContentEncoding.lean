import Reqx.Core.Error
import Reqx.Library.Logged

/-!
# Content decoding

The codecs are not part of the repository. A codec turns a body into a reader,
which yields its output in pieces and may fail after the last of them.
-/

namespace Reqx

structure Reader where
  pieces : List Bytes
  failure : Option Text
  deriving DecidableEq

structure Codecs where
  compressionGzip : Bool
  compressionBrotli : Bool
  compressionZstd : Bool
  multiGzDecoder : Bytes → Reader
  zlibDecoder : Bytes → Reader
  deflateDecoder : Bytes → Reader
  brotliDecompressor : Bytes → Reader
  zstdDecoder : Bytes → Except Text Reader

inductive DecodeContentEncodingError where
  | decode (encoding message : Text)
  | tooLarge (actualBytes : ℕ)
  deriving DecidableEq

def DecodeContentEncodingError.intoError (error : DecodeContentEncodingError) (method : Method)
    (uri : Text) (maxBytes : ℕ) : Error :=
  match error with
  | .decode encoding message => .decodeContentEncoding encoding message method uri
  | .tooLarge actualBytes => .responseBodyTooLarge maxBytes actualBytes method uri

/-- The loop of `read_to_end_limited`. The log holds the pieces that it takes from the reader. -/
def readPieces (encoding : Text) (maxBytes : ℕ) (failure : Option Text) :
    Bytes → List Bytes → Logged Bytes (Except DecodeContentEncodingError Bytes)
  | decoded, [] =>
    match failure with
    | none => return .ok decoded
    | some message => return .error (.decode encoding message)
  | decoded, chunk :: rest => do
    Logged.tell [chunk]
    -- An empty read is the end of the output.
    if chunk.isEmpty then
      return .ok decoded
    else if saturatingAdd decoded.length chunk.length > maxBytes then
      return .error (.tooLarge (saturatingAdd decoded.length chunk.length))
    else readPieces encoding maxBytes failure (decoded ++ chunk) rest

/-- The log has one entry for each reader, with all that was taken from it. -/
def readToEndLimited (reader : Reader) (encoding : Text) (maxBytes : ℕ) :
    Logged Bytes (Except DecodeContentEncodingError Bytes) := do
  let loop := readPieces encoding maxBytes reader.failure [] reader.pieces
  Logged.tell [loop.events.flatten]
  return loop.value

def decodeDeflateLimited (codecs : Codecs) (body : Bytes) (encoding : Text) (maxBytes : ℕ) :
    Logged Bytes (Except DecodeContentEncodingError Bytes) := do
  match ← readToEndLimited (codecs.zlibDecoder body) encoding maxBytes with
  | .error (.decode ..) => readToEndLimited (codecs.deflateDecoder body) encoding maxBytes
  | result => return result

def shouldDecodeContentEncodedBody (method : Method) (status : StatusCode) (bodyLen : ℕ) : Bool :=
  if bodyLen = 0 then false
  else if method = .head then false
  else if status.isInformational || status.code = 204 || status.code = 304 then false
  else true

def decodeOne (codecs : Codecs) (encoding : Text) (body : Bytes) (maxBytes : ℕ) :
    Logged Bytes (Except DecodeContentEncodingError Bytes) :=
  let lower := Text.toAsciiLowercase encoding
  if lower = "identity".toList then return .ok body
  else if codecs.compressionGzip && lower = "gzip".toList then
    readToEndLimited (codecs.multiGzDecoder body) encoding maxBytes
  else if codecs.compressionGzip && lower = "deflate".toList then
    decodeDeflateLimited codecs body encoding maxBytes
  else if codecs.compressionBrotli && lower = "br".toList then
    readToEndLimited (codecs.brotliDecompressor body) encoding maxBytes
  else if codecs.compressionZstd && lower = "zstd".toList then
    match codecs.zstdDecoder body with
    | .error message => return .error (.decode encoding message)
    | .ok decoder => readToEndLimited decoder encoding maxBytes
  else return .error (.decode lower "unsupported content-encoding".toList)

/-- The log has one entry for each layer: its coding, and what its readers produced. -/
def decodeAll (codecs : Codecs) (maxBytes : ℕ) :
    List Text → Bytes → Logged (Text × List Bytes) (Except DecodeContentEncodingError Bytes)
  | [], body => return .ok body
  | encoding :: rest, body => do
    let layer := decodeOne codecs encoding body maxBytes
    Logged.tell [(encoding, layer.events)]
    match layer.value with
    | .error error => return .error error
    | .ok body => decodeAll codecs maxBytes rest body

def decodeContentEncodedBodyLogged (codecs : Codecs) (body : Bytes) (headers : HeaderMap)
    (maxBytes : ℕ) : Logged (Text × List Bytes) (Except DecodeContentEncodingError Bytes) :=
  if body.length > maxBytes then return .error (.tooLarge body.length)
  else
    match (headers.getAll .contentEncoding).mapM HeaderValue.toStr with
    | none =>
      return .error
        (.decode "content-encoding".toList "failed to convert header to a str".toList)
    | some values =>
      let encodings := (values.flatMap fun value ↦ (Text.split ',' value).map Text.trim).filter
        fun item ↦ !item.isEmpty
      decodeAll codecs maxBytes encodings.reverse body

/-- `decode_content_encoded_body_limited` without the log. -/
def decodeContentEncodedBodyLimited (codecs : Codecs) (body : Bytes) (headers : HeaderMap)
    (maxBytes : ℕ) : Except DecodeContentEncodingError Bytes :=
  (decodeContentEncodedBodyLogged codecs body headers maxBytes).value

def removeContentEncodingHeaders (headers : HeaderMap) : HeaderMap :=
  headers.removeAll [.contentEncoding, .contentLength]

end Reqx
