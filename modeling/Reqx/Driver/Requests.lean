import Reqx.Core.Query
import Reqx.Driver.Bounds
import Reqx.Driver.Build
import Reqx.Driver.Confinement

/-!
# Requests of a built client

A request as its builder hands it over, what the client makes of it before the
send loop starts, and what the settings of the client come to in whatever the
loop sends.
-/

namespace Reqx.Driver

open Reqx.Checks Reqx.Resilience

variable {F σ C A : Type}

/-! ## From a request to the send loop -/

/-- What a finished `RequestBuilder` consists of besides its client. -/
structure Request (σ : Type) where
  method : Method
  path : Text
  query : Text
  parts : RequestBuilder σ
  executionOverrides : RequestExecutionOverrides

namespace ClientInner

/-- The client as the send loop sees it. -/
def client (inner : ClientInner F) (tools : BuilderTools) (codecs : Codecs) (instantMax : ℕ) :
    Client where
  deps := tools.deps
  codecs
  instantMax
  supportsRetry := inner.retryEligibility
  backoffSource := inner.backoffSource
  retryBudget := inner.retryBudget.isSome
  circuitBreaker := inner.circuitBreaker.isSome
  adaptiveConcurrency := inner.adaptiveConcurrency.isSome
  requestLimiters := inner.maxInFlight.isSome || inner.maxInFlightPerHost.isSome
  rateLimiter :=
    if inner.globalRateLimit.isSome || inner.perHostRateLimit.isSome then
      some ⟨inner.globalRateLimit.isSome, inner.perHostRateLimit.isSome⟩
    else none
  serverThrottleScope := inner.serverThrottleScope
  proxyConfig := inner.proxyConfig.map fun proxy ↦
    ⟨proxy.uri.text, proxy.authorization, shouldBypassProxyUri tools.net proxy.noProxyRules⟩
  -- The blocking builder makes an agent for the proxy whenever there is one.
  proxyAgent := decide (inner.runtime = .blocking) && inner.proxyConfig.isSome

def preparation (inner : ClientInner F) (mode : ResponseMode) (request : Request σ) :
    RequestExecutionPreparation σ where
  endpointSelector := inner.endpointSelector
  configuredBaseUrl := inner.baseUrl
  method := request.method
  path := appendQuery request.path request.query
  defaultHeaders := inner.defaultHeaders
  headers := request.parts.headers
  body := request.parts.body
  executionOptions := request.executionOverrides
  defaults := inner.requestDefaults
  defaultAutoAcceptEncoding :=
    match mode with
    | .buffered => inner.bufferedAutoAcceptEncoding
    | .stream => inner.streamAutoAcceptEncoding

/-- `send_request` and `send_request_stream` up to the send loop. -/
def sendCall (inner : ClientInner F) (tools : BuilderTools) (codecs : Codecs) (instantMax : ℕ)
    (mode : ResponseMode) (request : Request σ) (requestStartedAt : ℕ) :
    Except Error (SendCall σ) := do
  let input ← (inner.preparation mode request).prepareRetryRequestInput tools.deps codecs
  return {
    runtime := inner.runtime
    client := inner.client tools codecs instantMax
    mode
    input
    requestStartedAt }

end ClientInner

/-! ## What the loop sends -/

theorem Passed.dispatched {rt : Runtime} {c : Client} {t : Turn C A} {s : SendState σ}
    {U : Tally σ C A} {phase : Phase σ C A} (h : Passed rt c t s U phase) {request : SentRequest σ}
    (hsent : request ∈ U.sent) : Dispatched rt c t s request := by
  cases h with
  | notSent => cases hsent
  | retried _ _ hrequest => rwa [List.mem_singleton.mp hsent]
  | redirected _ _ _ _ _ hrequest => rwa [List.mem_singleton.mp hsent]
  | returned _ _ _ _ _ hrequest => rwa [List.mem_singleton.mp hsent]

namespace SendCall

variable {q : SendCall σ} {turns : List (Turn C A)} {request : SentRequest σ}

/-- Every request was sent in a pass that started from a running call. -/
theorem dispatched_of_sent (h : request ∈ (q.soFar turns).sent) :
    ∃ before t s, before ++ [t] <+: turns ∧ q.after before = .running s ∧
      Dispatched q.runtime q.client t s request := by
  induction turns using List.reverseRecOn with
  | nil => cases h
  | append_singleton turns t ih =>
    have hearlier (hsent : request ∈ (q.soFar turns).sent) :
        ∃ before t' s, before ++ [t'] <+: turns ++ [t] ∧ q.after before = .running s ∧
          Dispatched q.runtime q.client t' s request := by
      obtain ⟨before, t', s, hbefore, hrest⟩ := ih hsent
      exact ⟨before, t', s, hbefore.trans (List.prefix_append _ _), hrest⟩
    cases hturns : q.after turns with
    | finished f =>
      rw [(after_concat_of_finished hturns t).2] at h
      exact hearlier h
    | running s =>
      obtain ⟨U, hsum, hpassed⟩ := passed_of_running hturns t
      rw [hsum] at h
      obtain hsent | hsent := List.mem_append.mp h
      · exact hearlier hsent
      exact ⟨turns, t, s, List.prefix_rfl, hturns, hpassed.dispatched hsent⟩

/-- Until a redirect is followed the call sends the request it was made for. -/
structure Unredirected (q : SendCall σ) (T : Tally σ C A) (s : SendState σ) : Prop where
  method : T.redirects = [] → s.execution.currentMethod = q.input.method
  headers : T.redirects = [] → s.execution.currentHeaders = q.input.mergedHeaders

theorem Unredirected.step {T U : Tally σ C A} {s s' : SendState σ} {t : Turn C A}
    (h : Unredirected q T s) (hpassed : Passed q.runtime q.client t s U (.running s')) :
    Unredirected q (T ++ U) s' := by
  obtain ⟨limit, htight, -⟩ := tightened_cases q.client t s
  cases hpassed with
  | retried =>
    rw [htight]
    exact ⟨fun hnone ↦ h.method (List.append_eq_nil_iff.mp hnone).1,
      fun hnone ↦ h.headers (List.append_eq_nil_iff.mp hnone).1⟩
  | redirected =>
    refine ⟨fun hnone ↦ ?_, fun hnone ↦ ?_⟩ <;> cases (List.append_eq_nil_iff.mp hnone).2

theorem unredirected_of_running {s : SendState σ} (h : q.after turns = .running s) :
    Unredirected q (q.soFar turns) s := by
  refine running_invariant (P := fun _ T s ↦ Unredirected q T s) ⟨fun _ ↦ rfl, fun _ ↦ rfl⟩ ?_ h
  intro _ t T s U s' hs hpassed
  exact hs.step hpassed

theorem soFar_append (turns later : List (Turn C A)) :
    ∃ U, q.soFar (turns ++ later) = q.soFar turns ++ U := by
  induction later using List.reverseRecOn with
  | nil => exact ⟨.zero, by rw [List.append_nil, Tally.append_zero]⟩
  | append_singleton later t ih =>
    obtain ⟨U, hU⟩ := ih
    refine ⟨U ++ tally (pass q.runtime q.client q.mode t (q.after (turns ++ later))).events, ?_⟩
    rw [← List.append_assoc, soFar_concat, hU, Tally.append_assoc]

/-- What a request that was sent carries: headers of the request that was prepared, all of them
if no redirect was followed, and credentials only to the first origin. -/
structure Carries (q : SendCall σ) (redirects : List RedirectAction) (request : SentRequest σ) :
    Prop where
  ofRequest : ∀ entry ∈ request.carried, entry ∈ q.input.mergedHeaders
  whole : redirects = [] → request.carried = q.input.mergedHeaders
  credentials : ∀ entry ∈ request.carried, IsCredential entry → AtOrigin q.input.uri request.uri

theorem carries_of_sent (h : request ∈ (q.soFar turns).sent) :
    Carries q (q.soFar turns).redirects request := by
  obtain ⟨before, t, s, ⟨later, hturns⟩, hbefore, hrequest⟩ := dispatched_of_sent h
  have hconfined := confined_of_running hbefore
  refine ⟨fun entry hentry ↦ ?_, fun hnone ↦ ?_, fun entry hentry hcredential ↦ ?_⟩
  · rw [hrequest.carried] at hentry
    exact hconfined.ofRequest entry hentry
  · -- No redirect in all the turns, so none before this one.
    obtain ⟨U, hsum⟩ := q.soFar_append before ([t] ++ later)
    rw [← hturns, List.append_assoc, hsum] at hnone
    rw [hrequest.carried]
    exact (unredirected_of_running hbefore).headers (List.append_eq_nil_iff.mp hnone).1
  · rw [hrequest.carried] at hentry
    rw [hrequest.uri]
    exact hconfined.atOrigin entry hentry hcredential

end SendCall

/-! ## What the settings come to -/

section Settings

variable {tools : BuilderTools} {f : F64 F} {settings : List (Setting F)} {inner : ClientInner F}

/-- The values for a header name: those of the request if it has any, and otherwise what the
settings of the client come to. -/
def wantedHeaders (tools : BuilderTools) (codecs : Codecs) (settings : List (Setting F))
    (userAgent : Bytes) (p : RequestExecutionPreparation σ) (name : HeaderName) :
    List HeaderValue :=
  if p.negotiates && name = .acceptEncoding then
    ((enabledAcceptEncoding codecs).map HeaderValue.ofString).toList
  else if p.headers.containsKey name || name = .contentLength then p.headers.getAll name
  else if name = .userAgent then [(lastHeader tools settings .userAgent).getD ⟨userAgent, false⟩]
  else (lastHeader tools settings name).toList

/-- What the settings of a client come to in a request, after some turns of its send loop. -/
structure FollowsSettings (tools : BuilderTools) (codecs : Codecs) (settings : List (Setting F))
    (inner : ClientInner F) (mode : ResponseMode) (request : Request σ) (q : SendCall σ)
    (T : Tally σ C A) : Prop where
  defaults : inner.requestDefaults.Inherits (lastOverrides settings)
    ClientProfile.standardSdk.defaults.options
  options : q.input.executionOptions.Inherits request.executionOverrides inner.requestDefaults
  valid : q.input.executionOptions.Valid
  bounded : T.sent.length ≤ q.input.executionOptions.retryPolicy.maxAttempts +
    q.input.executionOptions.redirectPolicy.maxRedirects
  safe : ∀ sent ∈ T.sent, SafeTarget sent.uri
  headers : ∃ userAgent, tools.headerValueFromStr inner.clientName = .ok userAgent ∧
    ∀ sent ∈ T.sent,
      (∀ entry ∈ sent.carried, entry.2 ∈
        wantedHeaders tools codecs settings userAgent (inner.preparation mode request) entry.1) ∧
      (T.redirects = [] → ∀ name, sent.carried.getAll name =
        wantedHeaders tools codecs settings userAgent (inner.preparation mode request) name)
  credentials : ∀ sent ∈ T.sent, ∀ entry ∈ sent.carried, IsCredential entry →
    AtOrigin q.input.uri sent.uri
  origin : isValidAbsoluteHttpUriText tools.deps (appendQuery request.path request.query) = false →
    ∃ baseUrl base, selectBaseUrl tools.deps inner.endpointSelector request.method
        (appendQuery request.path request.query) inner.baseUrl = .ok baseUrl ∧
      tools.deps.parseUri baseUrl = some base ∧
      q.input.uri.schemeStr = base.schemeStr ∧ q.input.uri.authority = base.authority

theorem getAll_mergedHeaders_of_built (hbuilt : Built tools f settings inner) (codecs : Codecs)
    (mode : ResponseMode) (request : Request σ) :
    ∃ userAgent, tools.headerValueFromStr inner.clientName = .ok userAgent ∧
      ∀ name, ((inner.preparation mode request).mergedHeaders codecs).getAll name =
        wantedHeaders tools codecs settings userAgent (inner.preparation mode request) name := by
  obtain ⟨userAgent, hvalue, hheaders⟩ := hbuilt.headers
  refine ⟨userAgent, hvalue, fun name ↦ ?_⟩
  have hdefaults : (inner.preparation mode request).defaultHeaders.getAll name =
      if name = .userAgent then [(lastHeader tools settings .userAgent).getD ⟨userAgent, false⟩]
      else (lastHeader tools settings name).toList := hheaders name
  rw [RequestExecutionPreparation.getAll_mergedHeaders, hdefaults]
  rfl

/-- The first target of a request is safe, and that of the base URL unless the path is absolute. -/
theorem target_of_sendCall {mode : ResponseMode} {request : Request σ} {q : SendCall σ}
    {instantMax requestStartedAt : ℕ} (parsers : tools.deps.Documented)
    (hbuilt : Built tools f settings inner)
    (hcall : inner.sendCall tools codecs instantMax mode request requestStartedAt = .ok q) :
    SafeTarget q.input.uri ∧
      (isValidAbsoluteHttpUriText tools.deps (appendQuery request.path request.query) = false →
        ∃ baseUrl base, selectBaseUrl tools.deps inner.endpointSelector request.method
            (appendQuery request.path request.query) inner.baseUrl = .ok baseUrl ∧
          tools.deps.parseUri baseUrl = some base ∧
          q.input.uri.schemeStr = base.schemeStr ∧ q.input.uri.authority = base.authority) := by
  obtain ⟨input, hinput, hq⟩ := bind_eq_ok.mp hcall
  obtain ⟨baseUrl, hbase, hinput⟩ := bind_eq_ok.mp hinput
  obtain ⟨⟨uriText, uri⟩, huri, hinput⟩ := bind_eq_ok.mp hinput
  obtain ⟨options, -, hinput⟩ := bind_eq_ok.mp hinput
  obtain rfl := Except.ok.inj hinput
  obtain rfl := Except.ok.inj hq
  obtain ⟨hsafe, horigin⟩ :=
    resolveUri_safe parsers (validateBaseUrl_of_selectBaseUrl hbuilt.baseUrl hbase) huri
  refine ⟨hsafe, fun hrelative ↦ ?_⟩
  obtain ⟨base, hparse, hscheme, hauthority⟩ := horigin hrelative
  exact ⟨baseUrl, base, hbase, hparse, hscheme, hauthority⟩

end Settings

/-- Whatever settings a client is built with, whatever a request overrides and whatever the
network answers: the options of the request are valid and its own or those that were set last, it
is sent to safe targets, not more often than these options allow, and before the interceptors it
has the headers that the request and the settings ask for, credentials only at the first origin. -/
theorem requests_follow_settings {tools : BuilderTools} {f : F64 F} {codecs : Codecs}
    {settings : List (Setting F)} {inner : ClientInner F} {mode : ResponseMode}
    {request : Request σ} {q : SendCall σ} {instantMax requestStartedAt : ℕ}
    (parsers : tools.deps.Documented) (hmade : MadeFrom tools f settings inner)
    (hcall : inner.sendCall tools codecs instantMax mode request requestStartedAt = .ok q)
    (turns : List (Turn C A)) :
    FollowsSettings tools codecs settings inner mode request q (q.soFar turns) := by
  have hbuilt := hmade.built
  obtain ⟨hsafe, horigin⟩ := target_of_sendCall parsers hbuilt hcall
  obtain ⟨input, hinput, hq⟩ := bind_eq_ok.mp hcall
  obtain ⟨baseUrl, -, hinput⟩ := bind_eq_ok.mp hinput
  obtain ⟨⟨uriText, uri⟩, -, hinput⟩ := bind_eq_ok.mp hinput
  obtain ⟨options, hoptions, hinput⟩ := bind_eq_ok.mp hinput
  obtain rfl := Except.ok.inj hinput
  obtain rfl := Except.ok.inj hq
  obtain ⟨hvalid, hinherits⟩ := resolve_sound hbuilt.valid hoptions
  obtain ⟨userAgent, hvalue, hheaders⟩ :=
    getAll_mergedHeaders_of_built hbuilt codecs mode request
  exact {
    defaults := hbuilt.inherits
    options := hinherits
    valid := hvalid
    bounded := SendCall.sends_le hvalid.retryPolicy
    safe := (SendCall.targets parsers hsafe turns).1
    headers := by
      refine ⟨userAgent, hvalue, fun sent hsent ↦ ⟨fun entry hentry ↦ ?_, fun hnone name ↦ ?_⟩⟩
      · rw [← hheaders, MultiMap.mem_getAll]
        exact (SendCall.carries_of_sent hsent).ofRequest entry hentry
      · rw [(SendCall.carries_of_sent hsent).whole hnone]
        exact hheaders name
    credentials := fun sent hsent ↦ (SendCall.carries_of_sent hsent).credentials
    origin := horigin }

namespace Sample

def item : Request Unit :=
  ⟨.get, "/items".toList, "a=1".toList, .new, { redirectPolicy := some .follow }⟩

/-- A first attempt that fails, and a redirect to another host. -/
def strayTurns : List (Turn ℕ Unit) := [turn 1 .timedOut, hop 2 "b.test", turn 3 .timedOut]

end Sample

theorem requests_follow_settings_stray :
    ∃ inner q, Sample.asyncBuild = .ok inner ∧
      inner.sendCall Sample.builderTools Sample.client.codecs 0 .buffered Sample.item 0 = .ok q ∧
      (q.soFar Sample.strayTurns).sent.length = 3 ∧
      FollowsSettings Sample.builderTools Sample.client.codecs
        (Sample.asyncSteps.filterMap AsyncSetting.shared?) inner .buffered Sample.item q
        (q.soFar Sample.strayTurns) := by
  have hrun : (do
      let inner ← Sample.asyncBuild
      let q ← inner.sendCall Sample.builderTools Sample.client.codecs 0 .buffered Sample.item 0
      return (q.soFar Sample.strayTurns).sent.length) = .ok 3 := by
    decide +kernel
  obtain ⟨inner, hinner, hrun⟩ := bind_eq_ok.mp hrun
  obtain ⟨q, hq, hrun⟩ := bind_eq_ok.mp hrun
  obtain ⟨b, hsteps, hbuild⟩ := bind_eq_ok.mp hinner
  exact ⟨inner, q, hinner, hq, Except.ok.inj hrun,
    requests_follow_settings Sample.documented_parsers (.async hsteps hbuild) hq Sample.strayTurns⟩

end Reqx.Driver
