import Reqx.Driver.Pass

/-!
# Runs of the send loop

A call fixes the client and the request. After any list of turns the loop is
in some phase, and the events so far have some tally. Whatever every pass
keeps holds of the state at the top of every pass, and a finished call has
one last pass in which it finished.
-/

namespace Reqx.Driver

variable {σ C A : Type}

/-- One call of `send_request_with_retry_mode`. -/
structure SendCall (σ : Type) where
  runtime : Runtime
  client : Client
  mode : ResponseMode
  input : RetryRequestInput σ
  requestStartedAt : ℕ

namespace SendCall

variable (q : SendCall σ)

def first : SendState σ :=
  ⟨(RequestExecutionState.fromRequest q.input q.requestStartedAt q.client.supportsRetry).1,
    q.input.body⟩

def after (turns : List (Turn C A)) : Phase σ C A :=
  (sendRequestWithRetryMode σ C A q.runtime q.client q.mode).final
    (start q.client q.input q.requestStartedAt) turns

def events (turns : List (Turn C A)) : List (Event σ C A) :=
  ((sendRequestWithRetryMode σ C A q.runtime q.client q.mode).outputs
    (start q.client q.input q.requestStartedAt) turns).flatten

def soFar (turns : List (Turn C A)) : Tally σ C A := tally (q.events turns)

theorem after_nil : q.after ([] : List (Turn C A)) = .running q.first := rfl

theorem after_concat (turns : List (Turn C A)) (t : Turn C A) :
    q.after (turns ++ [t]) = (pass q.runtime q.client q.mode t (q.after turns)).value :=
  Machine.final_concat _ _ _ _

theorem events_concat (turns : List (Turn C A)) (t : Turn C A) :
    q.events (turns ++ [t]) =
      q.events turns ++ (pass q.runtime q.client q.mode t (q.after turns)).events := by
  simp only [events, Machine.outputs_concat, List.flatten_append, List.flatten_singleton]
  rfl

theorem soFar_concat (turns : List (Turn C A)) (t : Turn C A) :
    q.soFar (turns ++ [t]) = q.soFar turns ++
      tally (pass q.runtime q.client q.mode t (q.after turns)).events := by
  rw [soFar, events_concat, tally_append, ← soFar]

variable {q} {turns : List (Turn C A)} {t : Turn C A}

theorem passed_of_running {s : SendState σ} (h : q.after turns = .running s) (t : Turn C A) :
    ∃ U, q.soFar (turns ++ [t]) = q.soFar turns ++ U ∧
      Passed q.runtime q.client t s U (q.after (turns ++ [t])) := by
  refine ⟨_, q.soFar_concat turns t, ?_⟩
  rw [after_concat, h]
  exact pass_running_spec s

theorem after_concat_of_finished {f : Finish C A} (h : q.after turns = .finished f) (t : Turn C A) :
    q.after (turns ++ [t]) = .finished f ∧ q.soFar (turns ++ [t]) = q.soFar turns := by
  rw [after_concat, soFar_concat, h]
  exact ⟨rfl, Tally.append_zero _⟩

theorem running_of_running_concat {s' : SendState σ} (h : q.after (turns ++ [t]) = .running s') :
    ∃ s U, q.after turns = .running s ∧ q.soFar (turns ++ [t]) = q.soFar turns ++ U ∧
      Passed q.runtime q.client t s U (.running s') := by
  cases hturns : q.after turns with
  | finished f =>
    rw [(after_concat_of_finished hturns t).1] at h
    cases h
  | running s =>
    obtain ⟨U, htally, hpassed⟩ := passed_of_running hturns t
    rw [h] at hpassed
    exact ⟨s, U, rfl, htally, hpassed⟩

/-- What holds at the top of the first pass and is kept by every pass that leads to another
one holds at the top of every pass. -/
theorem running_invariant {P : List (Turn C A) → Tally σ C A → SendState σ → Prop}
    (hfirst : P [] .zero q.first)
    (hstep : ∀ turns t T s U s', P turns T s →
      Passed q.runtime q.client t s U (.running s') → P (turns ++ [t]) (T ++ U) s')
    {s : SendState σ} (h : q.after turns = .running s) : P turns (q.soFar turns) s := by
  -- The last turn is split off: the call was running before it.
  induction turns using List.reverseRecOn generalizing s with
  | nil =>
    rw [after_nil] at h
    cases h
    exact hfirst
  | append_singleton turns t ih =>
    obtain ⟨s₀, U, hturns, htally, hpassed⟩ := running_of_running_concat h
    rw [htally]
    exact hstep turns t _ s₀ U s (ih hturns) hpassed

theorem last_pass {f : Finish C A} (h : q.after turns = .finished f) :
    ∃ before t rest s U, turns = before ++ t :: rest ∧ q.after before = .running s ∧
      q.after (before ++ [t]) = .finished f ∧ q.soFar turns = q.soFar before ++ U ∧
        Passed q.runtime q.client t s U (.finished f) := by
  induction turns using List.reverseRecOn with
  | nil => cases h
  | append_singleton turns t ih =>
    cases hturns : q.after turns with
    | running s =>
      obtain ⟨U, htally, hpassed⟩ := passed_of_running hturns t
      rw [h] at hpassed
      exact ⟨turns, t, [], s, U, rfl, hturns, h, htally, hpassed⟩
    | finished f' =>
      -- A turn after the end changes nothing, so the last pass lies further back.
      obtain ⟨hafter, htally⟩ := after_concat_of_finished hturns t
      obtain rfl : f' = f := Phase.finished.inj (hafter.symm.trans h)
      obtain ⟨before, last, rest, s, U, rfl, hbefore, hlast, hsum, hpassed⟩ := ih hturns
      refine ⟨before, last, rest ++ [t], s, U, ?_, hbefore, hlast, htally.trans hsum, hpassed⟩
      simp

end SendCall

/-! ## One pass, as the run theorems use it -/

variable {c : Client} {t : Turn C A} {s : SendState σ}

theorem tightened_cases (c : Client) (t : Turn C A) (s : SendState σ) :
    ∃ limit, tightened c t s = { s.execution with maxAttempts := limit } ∧
      limit ≤ s.execution.maxAttempts ∧
      (s.execution.attempt ≤ s.execution.maxAttempts → s.execution.attempt ≤ limit) ∧
        (s.execution.attempt < limit → s.execution.bodyReplayable = true ∧
          c.supportsRetry s.execution.currentMethod (interceptedHeaders t s) = true) :=
  RequestExecutionState.tightenRetryEligibility_cases _ _

/-! ## A small call

A client for the hosts `a.test` and `b.test`, for runs on concrete inputs. -/

namespace Sample

def uri (host : String) : Uri :=
  ⟨some "https".toList, some host.toList, some host.toList, none, ("https://" ++ host).toList⟩

def url (host : String) : Url :=
  ⟨"https".toList, [], none, some host.toList, [], none, none, none, ("https://" ++ host).toList⟩

def deps : Dependencies where
  parseUri text := if text = "https://b.test".toList then some (uri "b.test") else uri "a.test"
  parseUrl text := if text = "https://b.test".toList then some (url "b.test") else url "a.test"
  joinUrl base _ := some base
  setUsername url _ := url
  setPassword url _ := url
  setQuery url _ := url
  setFragment url _ := url
  setPath url _ := url
  headerNameFromBytes _ := none
  parseHttpDate _ := none

def client : Client where
  deps
  codecs :=
    { compressionGzip := false
      compressionBrotli := false
      compressionZstd := false
      multiGzDecoder _ := ⟨[], none⟩
      zlibDecoder _ := ⟨[], none⟩
      deflateDecoder _ := ⟨[], none⟩
      brotliDecompressor _ := ⟨[], none⟩
      zstdDecoder _ := .error [] }
  instantMax := 2 ^ 64
  supportsRetry := strictRetryEligibility
  backoffSource := some fun _ _ ↦ 0
  retryBudget := true
  circuitBreaker := true

def call (method : Method) (body : RequestBody Unit) : SendCall Unit where
  runtime := .blocking
  client
  mode := .buffered
  requestStartedAt := 0
  input :=
    { method
      body
      uri := uri "a.test"
      redactedUriText := "https://a.test".toList
      mergedHeaders := ⟨[(.authorization, .ofString "token"), (.contentType, .ofString "text")]⟩
      executionOptions :=
        { requestTimeout := fromSecs 10
          totalTimeout := none
          retryPolicy := .standard
          maxResponseBodyBytes := 100
          redirectPolicy := .follow
          statusPolicy := .error } }

def ok : StatusCode := ⟨200, by decide⟩

def serviceUnavailable : StatusCode := ⟨503, by decide⟩

/-- The breaker grants attempt `k` and the transport gives this answer. -/
def turn (k : ℕ) (transport : TransportAnswer) : Turn ℕ Unit :=
  { circuit := .ok k, adaptive := (), transport }

/-- A redirect that makes any request a GET without a body. -/
def hop (k : ℕ) (host : String) : Turn ℕ Unit :=
  turn k (.response .seeOther ⟨[(.location, .ofString ("https://" ++ host))]⟩)

end Sample

end Reqx.Driver
