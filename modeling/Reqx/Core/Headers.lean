import Reqx.Library.Utf8
import Reqx.Core.Error

/-!
# Request headers

The framing check of a request, the marks that keep credentials out of logs,
and the excerpt of a body that an error shows.
-/

namespace Reqx

def isSensitiveHeaderName (name : HeaderName) : Bool :=
  name ∈ [.authorization, .cookie, .proxyAuthorization, .setCookie]

def markSensitiveHeaderValue (name : HeaderName) (value : HeaderValue) : HeaderValue :=
  if isSensitiveHeaderName name then value.setSensitive true else value

def markSensitiveHeaders (headers : HeaderMap) : HeaderMap :=
  headers.mapValues markSensitiveHeaderValue

def contentLengthValue (value : HeaderValue) : Option ℕ :=
  (value.toStr.filter fun text ↦ !text.isEmpty && text.all Char.isDigit).bind Text.parseU64

def validateRequestFramingHeaders (headers : HeaderMap) (expectedBodyLen : Option ℕ)
    (method : Method) (redactedUri : Text) : Except Error Unit :=
  if headers.containsKey .contentLength && headers.containsKey .transferEncoding then
    .error (.invalidRequestFraming method redactedUri
      "content-length and transfer-encoding cannot be combined")
  else if headers.containsKey .transferEncoding then
    .error (.invalidRequestFraming method redactedUri
      "transfer-encoding is managed by the transport")
  else
    match headers.getAll .contentLength with
    | [] => .ok ()
    | _ :: _ :: _ =>
      .error (.invalidRequestFraming method redactedUri
        "content-length must contain exactly one value")
    | [contentLength] =>
      match contentLengthValue contentLength with
      | none =>
        .error (.invalidRequestFraming method redactedUri
          "content-length must be an unsigned decimal integer within the u64 range")
      | some contentLength =>
        if expectedBodyLen.any (contentLength ≠ ·) then
          .error (.invalidRequestFraming method redactedUri
            "content-length does not match the buffered request body")
        else .ok ()

def maxErrorBodyLen : ℕ := 2048

def truncateBody (body : Bytes) : Text :=
  let text := Utf8.fromUtf8Lossy (body.take ((maxErrorBodyLen + 1) * 4))
  if maxErrorBodyLen < text.length then text.take maxErrorBodyLen ++ "...(truncated)".toList
  else text

/-! ## What the framing check accepts -/

/-- Some number below `2 ^ 64` is written in these bytes with digits only. -/
def HeaderValue.Declares (value : HeaderValue) (n : ℕ) : Prop :=
  ∃ text, value.toStr = some text ∧ text ≠ [] ∧ (∀ c ∈ text, c.isDigit = true) ∧
    Text.decimalValue text = n ∧ n < 2 ^ 64

/-- No transfer coding, at most one declared length, and the right one if the body is known. -/
def WellFramed (headers : HeaderMap) (bodyLen : Option ℕ) : Prop :=
  headers.getAll .transferEncoding = [] ∧
    (headers.getAll .contentLength = [] ∨
      ∃ value n, headers.getAll .contentLength = [value] ∧ value.Declares n ∧
        ∀ len, bodyLen = some len → n = len)

theorem declares_of_contentLengthValue {value : HeaderValue} {n : ℕ}
    (h : contentLengthValue value = some n) : value.Declares n := by
  obtain ⟨text, hfilter, hparse⟩ := Option.bind_eq_some_iff.mp h
  obtain ⟨htext, hdigits⟩ := Option.filter_eq_some_iff.mp hfilter
  simp only [Bool.and_eq_true, Bool.not_eq_true', List.isEmpty_eq_false_iff,
    List.all_eq_true] at hdigits
  obtain ⟨hne, hall⟩ := hdigits
  -- A text of digits has no plus sign for the parser to strip.
  have hvalue := Text.parseU64_eq_some hparse
  rw [Text.stripPlus_of_digits hall] at hvalue
  exact ⟨text, htext, hne, hall, hvalue⟩

variable {bodyLen : Option ℕ}

theorem wellFramed_of_validate {headers : HeaderMap} {method : Method} {redactedUri : Text}
    (h : validateRequestFramingHeaders headers bodyLen method redactedUri = .ok ()) :
    WellFramed headers bodyLen := by
  unfold validateRequestFramingHeaders at h
  split at h
  · cases h
  split at h
  · cases h
  next hcoding =>
    refine ⟨MultiMap.getAll_eq_nil_iff.mpr (by simpa using hcoding), ?_⟩
    split at h
    · next hnone => exact .inl hnone
    · cases h
    next value hone =>
      split at h
      · cases h
      next n hvalue =>
        split at h
        · cases h
        next hlen =>
          refine .inr ⟨value, n, hone, declares_of_contentLengthValue hvalue, ?_⟩
          rintro len rfl
          simpa using hlen

theorem WellFramed.markSensitiveHeaders {headers : HeaderMap} (h : WellFramed headers bodyLen) :
    WellFramed (markSensitiveHeaders headers) bodyLen := by
  have hlength (value : HeaderValue) :
      markSensitiveHeaderValue .contentLength value = value := by
    simp [markSensitiveHeaderValue, isSensitiveHeaderName, HeaderName.contentLength,
      HeaderName.authorization, HeaderName.cookie, HeaderName.proxyAuthorization,
      HeaderName.setCookie, HeaderName.ofString]
  obtain ⟨hcoding, hlen⟩ := h
  refine ⟨by rw [Reqx.markSensitiveHeaders, MultiMap.getAll_mapValues, hcoding]; rfl, ?_⟩
  rw [Reqx.markSensitiveHeaders, MultiMap.getAll_mapValues]
  rcases hlen with hnone | ⟨value, n, hone, hrest⟩
  · exact .inl (by rw [hnone]; rfl)
  · exact .inr ⟨value, n, by rw [hone, List.map_singleton, hlength], hrest⟩

theorem WellFramed.congr {headers headers' : HeaderMap} (h : WellFramed headers bodyLen)
    (hcoding : headers'.getAll .transferEncoding = headers.getAll .transferEncoding)
    (hlength : headers'.getAll .contentLength = headers.getAll .contentLength) :
    WellFramed headers' bodyLen := by
  rw [WellFramed, hcoding, hlength]
  exact h

end Reqx
