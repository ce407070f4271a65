import Reqx.Core.Execution

/-!
# Request builders

The calls that set headers and bodies, with the flag that remembers whether a
`Content-Length` came from `body_reader_with_length`. Both clients have the same
builder; what they stream is a parameter.
-/

namespace Reqx

/-- `HeaderValue::from` on a `u64`. -/
def HeaderValue.fromU64 (n : UInt64) : HeaderValue :=
  ⟨(Nat.toDigits 10 n.toNat).map fun c ↦ UInt8.ofNat c.toNat, false⟩

/-- The part of a `RequestBuilder` that the header and body calls read and write. -/
structure RequestBuilder (σ : Type) where
  headers : HeaderMap
  body : Option (RequestBody σ)
  helperContentLength : Bool

namespace RequestBuilder

variable {σ : Type}

def new : RequestBuilder σ := ⟨.empty, none, false⟩

def header (builder : RequestBuilder σ) (name : HeaderName) (value : HeaderValue) :
    RequestBuilder σ :=
  { builder with
    helperContentLength := if name = .contentLength then false else builder.helperContentLength
    headers := builder.headers.insert name (markSensitiveHeaderValue name value) }

def clearContentLength (builder : RequestBuilder σ) : RequestBuilder σ :=
  { builder with
    headers := builder.headers.remove .contentLength
    helperContentLength := false }

/-- The method `body`. -/
def setBody (builder : RequestBuilder σ) (body : Bytes) : RequestBuilder σ :=
  { builder.clearContentLength with body := some (.buffered body) }

def bodyReader (builder : RequestBuilder σ) (reader : σ) : RequestBuilder σ :=
  let builder := if builder.helperContentLength then builder.clearContentLength else builder
  { builder with body := some (.streaming reader) }

def bodyReaderWithLength (builder : RequestBuilder σ) (reader : σ) (contentLength : UInt64) :
    RequestBuilder σ :=
  let builder := builder.bodyReader reader
  { builder with
    headers := builder.headers.insert .contentLength (.fromU64 contentLength)
    helperContentLength := true }

/-- A payload that a serializer has turned into bytes, with its content type. -/
def serialized (builder : RequestBuilder σ) (payload : Except (List Text) Bytes)
    (failure : List Text → Error) (contentType : String) : Except Error (RequestBuilder σ) :=
  match payload with
  | .error source => .error (failure source)
  | .ok body => .ok ((builder.setBody body).header .contentType (.ofString contentType))

def json (builder : RequestBuilder σ) (payload : Except (List Text) Bytes) :
    Except Error (RequestBuilder σ) :=
  builder.serialized payload .serializeJson "application/json"

def form (builder : RequestBuilder σ) (payload : Except (List Text) Bytes) :
    Except Error (RequestBuilder σ) :=
  builder.serialized payload .serializeForm "application/x-www-form-urlencoded"

end RequestBuilder

/-! ## Sequences of calls -/

/-- A payload of `json` and `form` stands for what its serializer makes of it. -/
inductive BuilderCall (σ : Type) where
  | header (name : HeaderName) (value : HeaderValue)
  | body (body : Bytes)
  | json (payload : Except (List Text) Bytes)
  | form (payload : Except (List Text) Bytes)
  | bodyReader (reader : σ)
  | bodyReaderWithLength (reader : σ) (contentLength : UInt64)

namespace BuilderCall

variable {σ : Type}

def apply (builder : RequestBuilder σ) : BuilderCall σ → Except Error (RequestBuilder σ)
  | header name value => .ok (builder.header name value)
  | body bytes => .ok (builder.setBody bytes)
  | json payload => builder.json payload
  | form payload => builder.form payload
  | bodyReader reader => .ok (builder.bodyReader reader)
  | bodyReaderWithLength reader contentLength =>
    .ok (builder.bodyReaderWithLength reader contentLength)

def isContentLengthHeader : BuilderCall σ → Bool
  | header name _ => name = .contentLength
  | _ => false

def isBufferedBody : BuilderCall σ → Bool
  | body _ | json _ | form _ => true
  | _ => false

def isReaderWithLength : BuilderCall σ → Bool
  | bodyReaderWithLength .. => true
  | _ => false

def setsBody : BuilderCall σ → Bool
  | header .. => false
  | _ => true

end BuilderCall

/-- A serializer that fails ends the sequence. -/
def RequestBuilder.run {σ : Type} (builder : RequestBuilder σ) :
    List (BuilderCall σ) → Except Error (RequestBuilder σ)
  | [] => .ok builder
  | call :: calls =>
    match call.apply builder with
    | .error error => .error error
    | .ok builder => builder.run calls

/-! ## The declared length -/

section Length

variable {σ : Type} {builder builder' : RequestBuilder σ} {calls past : List (BuilderCall σ)}
  {call : BuilderCall σ}

/-- The declared lengths of a builder and whether a reader brought them along. -/
def RequestBuilder.declared (builder : RequestBuilder σ) : List HeaderValue × Bool :=
  (builder.headers.getAll .contentLength, builder.helperContentLength)

/-- What one call makes of the declared length. -/
def BuilderCall.declare : BuilderCall σ → List HeaderValue × Bool → List HeaderValue × Bool
  | header name value, (lengths, helper) =>
    if name = .contentLength then ([value], false) else (lengths, helper)
  | body _, _ | json _, _ | form _, _ => ([], false)
  | bodyReader _, (lengths, helper) => if helper then ([], false) else (lengths, helper)
  | bodyReaderWithLength _ contentLength, _ => ([.fromU64 contentLength], true)

theorem markSensitiveHeaderValue_contentLength (value : HeaderValue) :
    markSensitiveHeaderValue .contentLength value = value := by
  refine if_neg ?_
  decide

theorem RequestBuilder.declared_header (builder : RequestBuilder σ) (name : HeaderName)
    (value : HeaderValue) :
    (builder.header name value).declared =
      (@BuilderCall.header σ name value).declare builder.declared := by
  by_cases hname : name = .contentLength
  · subst hname
    simp only [declared, RequestBuilder.header, BuilderCall.declare, if_true,
      MultiMap.getAll_insert_self, markSensitiveHeaderValue_contentLength]
  · simp only [declared, RequestBuilder.header, BuilderCall.declare, if_neg hname,
      MultiMap.getAll_insert_of_ne _ _ (Ne.symm hname)]

theorem RequestBuilder.declared_clearContentLength (builder : RequestBuilder σ) :
    builder.clearContentLength.declared = ([], false) := by
  simp only [declared, clearContentLength, MultiMap.getAll_remove, if_true]

theorem RequestBuilder.declared_serialized {payload : Except (List Text) Bytes}
    {failure : List Text → Error} {contentType : String}
    (h : builder.serialized payload failure contentType = .ok builder') :
    builder'.declared = ([], false) := by
  cases payload with
  | error source => cases h
  | ok body =>
    cases h
    have hname : HeaderName.contentType ≠ .contentLength := by decide
    rw [declared_header, BuilderCall.declare, if_neg hname]
    exact builder.declared_clearContentLength

theorem BuilderCall.declared_apply (h : call.apply builder = .ok builder') :
    builder'.declared = call.declare builder.declared := by
  cases call with
  | header name value =>
    cases h
    exact builder.declared_header name value
  | body bytes =>
    cases h
    exact builder.declared_clearContentLength
  | json payload => exact RequestBuilder.declared_serialized h
  | form payload => exact RequestBuilder.declared_serialized h
  | bodyReader reader =>
    cases h
    cases hhelper : builder.helperContentLength with
    | true =>
      have hcleared := builder.declared_clearContentLength
      simpa [RequestBuilder.bodyReader, RequestBuilder.declared, declare, hhelper]
        using hcleared
    | false => simp [RequestBuilder.bodyReader, RequestBuilder.declared, declare, hhelper]
  | bodyReaderWithLength reader contentLength =>
    cases h
    simp [RequestBuilder.bodyReaderWithLength, RequestBuilder.declared, declare,
      MultiMap.getAll_insert_self]

/-- Where the declared length comes from, after these calls. -/
inductive LengthOrigin (past : List (BuilderCall σ)) : List HeaderValue × Bool → Prop
  | absent : LengthOrigin past ([], false)
  | explicit {before after : List (BuilderCall σ)} {value : HeaderValue} :
      past = before ++ .header .contentLength value :: after →
      (∀ call ∈ after, call.isContentLengthHeader = false ∧ call.isBufferedBody = false ∧
        call.isReaderWithLength = false) →
      LengthOrigin past ([value], false)
  | reader {before after : List (BuilderCall σ)} {reader : σ} {contentLength : UInt64} :
      past = before ++ .bodyReaderWithLength reader contentLength :: after →
      (∀ call ∈ after, call.setsBody = false ∧ call.isContentLengthHeader = false) →
      LengthOrigin past ([.fromU64 contentLength], true)

/-- A call that leaves the length alone is one more call behind its origin. -/
theorem LengthOrigin.keep {declared : List HeaderValue × Bool} (h : LengthOrigin past declared)
    (hlength : call.declare declared = declared)
    (hexplicit : declared.2 = false → call.isContentLengthHeader = false ∧
      call.isBufferedBody = false ∧ call.isReaderWithLength = false)
    (hreader : declared.2 = true → call.setsBody = false ∧ call.isContentLengthHeader = false) :
    LengthOrigin (past ++ [call]) (call.declare declared) := by
  rw [hlength]
  cases h with
  | absent => exact .absent
  | explicit hpast hafter =>
    refine .explicit (by rw [hpast, List.append_assoc, List.cons_append]) ?_
    exact List.forall_mem_append.mpr ⟨hafter, List.forall_mem_singleton.mpr (hexplicit rfl)⟩
  | reader hpast hafter =>
    refine .reader (by rw [hpast, List.append_assoc, List.cons_append]) ?_
    exact List.forall_mem_append.mpr ⟨hafter, List.forall_mem_singleton.mpr (hreader rfl)⟩

theorem LengthOrigin.step {declared : List HeaderValue × Bool} (h : LengthOrigin past declared)
    (call : BuilderCall σ) : LengthOrigin (past ++ [call]) (call.declare declared) := by
  cases call with
  | header name value =>
    by_cases hname : name = .contentLength
    · subst hname
      exact .explicit rfl (by simp)
    · exact h.keep (if_neg hname) (fun _ ↦ ⟨decide_eq_false hname, rfl, rfl⟩)
        fun _ ↦ ⟨rfl, decide_eq_false hname⟩
  | body bytes => exact .absent
  | json payload => exact .absent
  | form payload => exact .absent
  | bodyReader reader =>
    obtain ⟨lengths, helper⟩ := declared
    cases helper with
    | true => exact .absent
    | false => exact h.keep rfl (fun _ ↦ ⟨rfl, rfl, rfl⟩) (fun h ↦ absurd h Bool.false_ne_true)
  | bodyReaderWithLength reader contentLength => exact .reader rfl (by simp)

theorem LengthOrigin.run (h : LengthOrigin past builder.declared)
    (hrun : builder.run calls = .ok builder') : LengthOrigin (past ++ calls) builder'.declared := by
  induction calls generalizing past builder with
  | nil =>
    cases hrun
    rwa [List.append_nil]
  | cons call calls ih =>
    unfold RequestBuilder.run at hrun
    split at hrun
    · cases hrun
    next next' hcall =>
      have hstep := h.step call
      rw [← BuilderCall.declared_apply hcall] at hstep
      rw [List.append_cons]
      exact ih hstep hrun

end Length

/-- The builder declares no length, or that of the last explicit header, which came after every
buffered body and every reader with a length, or that of the last reader with a length, after which
neither a body nor an explicit header was set. -/
def RequestBuilder.LengthAccounted {σ : Type} (builder : RequestBuilder σ)
    (calls : List (BuilderCall σ)) : Prop :=
  builder.headers.getAll .contentLength = [] ∨
  (∃ before value after, calls = before ++ .header .contentLength value :: after ∧
    builder.headers.getAll .contentLength = [value] ∧
    ∀ call ∈ after, call.isContentLengthHeader = false ∧ call.isBufferedBody = false ∧
      call.isReaderWithLength = false) ∨
  ∃ before reader contentLength after,
    calls = before ++ .bodyReaderWithLength reader contentLength :: after ∧
    builder.headers.getAll .contentLength = [.fromU64 contentLength] ∧
    ∀ call ∈ after, call.setsBody = false ∧ call.isContentLengthHeader = false

theorem declared_length_follows_body {σ : Type} {calls : List (BuilderCall σ)}
    {builder : RequestBuilder σ} (h : RequestBuilder.new.run calls = .ok builder) :
    builder.LengthAccounted calls := by
  have hstart : LengthOrigin ([] : List (BuilderCall σ))
      (RequestBuilder.new : RequestBuilder σ).declared := .absent
  have horigin := hstart.run h
  rw [List.nil_append] at horigin
  generalize hdeclared : builder.declared = declared at horigin
  have hlengths : builder.headers.getAll .contentLength = declared.1 := congrArg Prod.fst hdeclared
  unfold RequestBuilder.LengthAccounted
  rw [hlengths]
  cases horigin with
  | absent => exact .inl rfl
  | explicit hpast hafter => exact .inr (.inl ⟨_, _, _, hpast, rfl, hafter⟩)
  | reader hpast hafter => exact .inr (.inr ⟨_, _, _, _, hpast, rfl, hafter⟩)

/-- A reader with a length, another reader in its place, and an explicit length. -/
theorem declared_length_follows_body_readers :
    ∃ builder : RequestBuilder Unit,
      RequestBuilder.new.run [.bodyReaderWithLength () 7, .bodyReader (),
        .header .contentLength (.ofString "3")] = .ok builder ∧
      builder.headers.getAll .contentLength = [.ofString "3"] ∧
      builder.LengthAccounted [.bodyReaderWithLength () 7, .bodyReader (),
        .header .contentLength (.ofString "3")] :=
  ⟨_, rfl, by decide, declared_length_follows_body rfl⟩

end Reqx
