import Reqx.Driver.SharedClient

/-!
# Rates of a shared client

Every send of a call is paid with a slot that the limiter granted to the same
pass, so the requests of a client together are sent no faster than its policies
allow, however many of them run and in whatever order they get along.
-/

namespace Reqx.Driver

open Interleaving SharedClient
open RateLimit
open Resilience

variable {σ A : Type}

/-! ## Slots and sends -/

/-- The limiter answers a question about a host of this bucket with zero. -/
def grantsSlot (k : BucketId) (o : Occurrence σ A) : Bool :=
  match o.1 with
  | .limiterCalled (.acquireDelay host) => decide (o.2 = 0) && decide (k ∈ bucketsOf host)
  | _ => false

/-- A request is sent to a host of this bucket. -/
def sendsTo (k : BucketId) (o : Occurrence σ A) : Bool :=
  match o.1 with
  | .sent request => decide (k ∈ bucketsOf (rateLimitBucketKey request.uri))
  | _ => false

section Calls

variable {rt : Runtime} {c : ControlledClient} {k : BucketId} {mode : ResponseMode}
  {input : RetryRequestInput σ} {os : List (Occurrence σ A)} {phase : Phase σ CircuitAttempt A}

theorem sendsTo_of_late {o : Occurrence σ A} (h : Late o.1) : sendsTo k o = false := by
  obtain ⟨e, delay⟩ := o
  cases e <;> first | rfl | cases h

theorem sendsTo_of_early {o : Occurrence σ A} (h : Early o.1) : sendsTo k o = false := by
  obtain ⟨e, delay⟩ := o
  cases e <;> first | rfl | cases h

theorem countP_sendsTo_eq_zero {os : List (Occurrence σ A)} (h : ∀ o ∈ os, Early o.1 ∨ Late o.1) :
    os.countP (sendsTo k) = 0 := by
  rw [List.countP_eq_zero]
  intro o ho
  rw [Bool.not_eq_true]
  exact (h o ho).elim sendsTo_of_early sendsTo_of_late

/-- The slot of a pass is granted before its request is sent, to the same bucket. -/
theorem pass_affords (hlimiter : c.client.rateLimiter.isSome = true) (t : Turn CircuitAttempt A)
    (s : SendState σ) :
    Affords 0 (sendsTo k) (grantsSlot k)
      (answered t.limiterWaits (pass rt c.client mode t (.running s)).events) := by
  obtain ⟨admission, attempt, hes, hstaged⟩ := pass_staged rt c.client mode t s
  obtain ⟨request?, rest, hattempt, hlate, htarget⟩ := hstaged.sends
  rw [hes, answered_append]
  have hadmission : (answered t.limiterWaits admission).countP (sendsTo k) = 0 :=
    countP_sendsTo_eq_zero fun o ho ↦ .inl (hstaged.early _ (mem_fst_answered ho))
  have hrest (waits : List (ℕ × ℕ)) : (answered waits rest).countP (sendsTo k) = 0 :=
    countP_sendsTo_eq_zero fun o ho ↦ .inr (hlate _ (mem_fst_answered ho))
  cases request? with
  | none =>
    have hnone : attempt = rest := hattempt
    refine affords_of_countP_le (Nat.le_of_eq ?_)
    rw [List.countP_append, hadmission, hnone, hrest]
  | some request =>
    have hsent : attempt = .sent request :: rest := hattempt
    by_cases hk : k ∈ bucketsOf (rateLimitBucketKey request.uri)
    · have hslot := hstaged.slot (by rw [hsent]; exact List.cons_ne_nil _ _) hlimiter
      have hpaid : 1 ≤ (answered t.limiterWaits admission).countP (grantsSlot k) := by
        refine List.countP_pos_iff.mpr ⟨_, hslot, ?_⟩
        rw [htarget request rfl] at hk
        exact Bool.and_eq_true_iff.mpr ⟨rfl, decide_eq_true hk⟩
      have hone (waits : List (ℕ × ℕ)) :
          Affords 1 (sendsTo k) (grantsSlot k) (answered waits attempt) := by
        apply affords_of_countP_le
        rw [hsent, answered_cons_quiet rfl, List.countP_cons, hrest]
        split <;> omega
      refine (affords_of_countP_le hadmission.le).append (hone _) ?_
      omega
    · refine affords_of_countP_le (Nat.le_of_eq ?_)
      rw [List.countP_append, hadmission, hsent, answered_cons_quiet rfl, List.countP_cons, hrest]
      simp [sendsTo, hk]

theorem Reached.affords (hlimiter : c.client.rateLimiter.isSome = true)
    (h : Reached rt c mode input os phase) : Affords 0 (sendsTo k) (grantsSlot k) os := by
  induction h with
  | start requestStartedAt => exact affords_of_countP_le le_rfl
  | turn h t ih =>
    rename_i os phase
    apply ih.append_balanced
    cases phase with
    | running s => exact pass_affords hlimiter t s
    | finished f => exact affords_of_countP_le le_rfl
  | complete h outcome ih =>
    rename_i os phase
    refine ih.append_balanced (affords_of_countP_le ?_)
    exact (countP_sendsTo_eq_zero fun o ho ↦
      .inr (late_complete outcome phase _ (mem_fst_answered ho))).le

end Calls

/-! ## The limiter of a client -/

section Limiter

variable {rt : Runtime} {c : ControlledClient} {created : ℕ} {s : SharedClient σ A}
  {k : BucketId} {p : RateLimitPolicy} {before history : List (ℕ × ℕ × Occurrence σ A)}

theorem limiter_of_policy (created : ℕ) (hk : c.limits.policy? k = some p) :
    c.client.rateLimiter.isSome = true ∧
      ∃ l, RateLimiter.new c.limits.global c.limits.perHost c.limits.instantMax created =
        some l := by
  have hsome : (c.limits.global.isSome || c.limits.perHost.isSome) = true := by
    cases k with
    | global =>
      have hglobal : c.limits.global = some p := hk
      rw [hglobal]
      rfl
    | host key =>
      have hhost : c.limits.perHost = some p := hk
      rw [hhost, Bool.or_comm]
      rfl
  constructor
  · rw [c.rateLimiter_eq, if_pos hsome]
    rfl
  · refine Option.isSome_iff_exists.mp ?_
    unfold RateLimiter.new
    split
    next hnone => simp_all
    · rfl

theorem SharedClient.Ok.doneBy_affords (h : s.Ok rt c created)
    (hlimiter : c.client.rateLimiter.isSome = true) {index : ℕ} (hindex : index < s.calls.length) :
    Affords 0 (sendsTo k) (grantsSlot k) (s.doneBy index) :=
  (h.reached index _ (List.getElem?_eq_getElem hindex)).affords hlimiter |>.mono
    (List.prefix_append _ _)

/-- Sends are paid with slots of the same call. -/
theorem SharedClient.Ok.sends_le_slots (h : s.Ok rt c created)
    (hlimiter : c.client.rateLimiter.isSome = true) (hbefore : before <+: s.history) (index : ℕ) :
    (project before index).countP (fun e ↦ sendsTo k e.2) ≤
      (project before index).countP fun e ↦ grantsSlot k e.2 := by
  by_cases hindex : index < s.calls.length
  · have hdone := (project_isPrefix hbefore index).map Prod.snd
    have hle := h.doneBy_affords (k := k) hlimiter hindex _ hdone
    simpa only [List.countP_map, Function.comp_def, Nat.add_zero] using hle
  · have hnone : project before index = [] := by
      rw [List.eq_nil_iff_forall_not_mem]
      intro e he
      exact hindex (h.owned _ (hbefore.subset (mem_project.mp he)))
    rw [hnone]
    rfl

/-! ## What the limiter was asked -/

/-- The calls of the limiter in a history. -/
def limiterCalls (history : List (ℕ × ℕ × Occurrence σ A)) : List (ℕ × Call) :=
  (history.map Prod.snd).filterMap limiterCall

theorem limiterCall_time (e : ℕ × Occurrence σ A) (call : ℕ × Call)
    (h : limiterCall e = some call) : call.1 = e.1 := by
  unfold limiterCall at h
  split at h <;> cases h
  rfl

theorem grantsSlot_eq (k : BucketId) (e : ℕ × Occurrence σ A) (call : ℕ × Call) (answer : Answer)
    (hcall : limiterCall e = some call) (hagrees : limiterAgrees e answer = true) :
    grantsSlot k e.2 = grantedTo k (call, answer) := by
  obtain ⟨now, event, delay⟩ := e
  unfold limiterCall at hcall
  split at hcall <;> cases hcall
  next called hevent =>
    dsimp only at hevent
    subst hevent
    cases called with
    | observeServerThrottle host delay configuredScope hint => rfl
    | acquireDelay host =>
      cases answer with
      | scope resolved => cases hagrees
      | delay duration =>
        obtain rfl : duration = delay := of_decide_eq_true hagrees
        cases duration <;> rfl

theorem grantsSlot_of_quiet (k : BucketId) (e : ℕ × Occurrence σ A) (h : limiterCall e = none) :
    grantsSlot k e.2 = false := by
  obtain ⟨now, event, delay⟩ := e
  cases event <;> first | rfl | cases h

theorem SharedClient.limiterCalls_times (s : SharedClient σ A) :
    ((limiterCalls s.history).map Prod.fst).Sublist s.times := by
  have hsublist := Machine.filterMap_map_sublist limiterCall_time (s.history.map Prod.snd)
  rwa [List.map_map] at hsublist

theorem SharedClient.Ok.admits_limiterCalls (h : s.Ok rt c created) :
    (Ledger.machine c.limits).Admits Ledger.Later (.opened c.limits created)
      (limiterCalls s.history) :=
  Ledger.admits_later (h.timely.ordered.sublist (s.limiterCalls_times.cons_cons created)).isChain

theorem SharedClient.Ok.replay_limiter (h : s.Ok rt c created) {l : RateLimiter}
    (hnew : RateLimiter.new c.limits.global c.limits.perHost c.limits.instantMax created =
      some l) :
    ∃ l', RateLimiter.machine.replay limiterCall limiterAgrees l (s.history.map Prod.snd) =
      some l' := by
  have hanswered := h.replayed.limiter
  rw [Replays, ControlledClient.controls, hnew] at hanswered
  obtain ⟨l', hl', -⟩ := Option.map_eq_some_iff.mp hanswered
  exact ⟨l', hl'⟩

theorem simulates_limits (c : ControlledClient) :
    RateLimiter.machine.Simulates (Ledger.machine c.limits) Ledger.Later (Refines c.limits) :=
  simulates_ledger c.limits_valid (transparent_maybeCleanup c.limits_valid)

section Hint

variable {t delay : ℕ} {host : Option Text} {scope : ServerThrottleScope}
  {hint : Option ServerThrottleScope}

theorem not_granted_after_hint {l : RateLimiter} {ledger : Ledger} {calls : List (ℕ × Call)}
    (h : Refines c.limits l ledger)
    (hadmits : (Ledger.machine c.limits).Admits Ledger.Later ledger
      ((t, .observeServerThrottle host delay scope hint) :: calls))
    (hk : c.limits.policy? k = some p)
    (happlies : (resolveServerThrottleScope scope hint (host.bind normalizeHostKey).isSome
      c.limits.global.isSome c.limits.perHost.isSome).appliesTo host k = true)
    (hmax : t + min delay p.maxThrottleDelay ≤ c.limits.instantMax) :
    ∀ e ∈ RateLimiter.machine.trace
        (RateLimiter.machine.step l (t, .observeServerThrottle host delay scope hint)).2 calls,
      e.1.1 < t + min delay p.maxThrottleDelay → grantedTo k e = false := by
  obtain ⟨hlater, hcalls⟩ := hadmits
  have hnext := (simulates_limits c _ _ _ h hlater).2
  rw [(simulates_limits c).trace_eq hnext hcalls]
  refine Machine.forall_mem_trace (P := Ledger.HeldUntil k (t + min delay p.maxThrottleDelay))
    (Q := fun call granted ↦ call.1 < t + min delay p.maxThrottleDelay →
      grantedTo k (call, granted) = false)
    (fun σ call hσ hok ↦ hσ.step hk call hok) ?_ hcalls
  exact Ledger.heldUntil_observe ledger hk host scope hint rfl happlies hmax

/-- While a bucket is on hold after the hint of a server, no slot of it is granted. -/
theorem SharedClient.Ok.no_slot_after_hint (h : s.Ok rt c created)
    {before after : List (ℕ × ℕ × Occurrence σ A)} {index answer : ℕ}
    (hhistory : s.history = before ++
      (index, t, .limiterCalled (.observeServerThrottle host delay scope hint), answer) :: after)
    (hk : c.limits.policy? k = some p)
    (happlies : (resolveServerThrottleScope scope hint (host.bind normalizeHostKey).isSome
      c.limits.global.isSome c.limits.perHost.isSome).appliesTo host k = true)
    (hmax : t + min delay p.maxThrottleDelay ≤ c.limits.instantMax) :
    ∀ e ∈ after, e.2.1 < t + min delay p.maxThrottleDelay → grantsSlot k e.2.2 = false := by
  obtain ⟨-, l, hnew⟩ := limiter_of_policy created hk
  obtain ⟨l', hreplay⟩ := h.replay_limiter hnew
  have hcalls : limiterCalls s.history = limiterCalls before ++
      (t, .observeServerThrottle host delay scope hint) :: limiterCalls after := by
    simp [limiterCalls, limiterCall, hhistory]
  have hadmits := h.admits_limiterCalls
  rw [hcalls] at hadmits
  obtain ⟨hbefore, hrest⟩ := Machine.admits_append.mp hadmits
  rw [hhistory, List.map_append, Machine.replay_append, Option.bind_eq_some_iff] at hreplay
  obtain ⟨mid, hmid, hreplay⟩ := hreplay
  have hreached := (simulates_limits c).final (refines_new hnew) hbefore
  rw [limiterCalls, Machine.final_of_replay hmid] at hreached
  have hheld := not_granted_after_hint hreached hrest hk happlies hmax
  obtain ⟨next, hhint, hreplayed⟩ := Machine.replay_cons_eq_some hreplay
  obtain rfl : next = (RateLimiter.machine.step mid
      (t, .observeServerThrottle host delay scope hint)).2 := by
    rcases Machine.follow_eq_some hhint with ⟨hquiet, -⟩ | ⟨call, hcall, -, hnext⟩
    · cases hquiet
    · cases hcall
      exact hnext
  intro e he htime
  cases hcall : limiterCall e.2 with
  | none => exact grantsSlot_of_quiet k _ hcall
  | some call =>
    obtain ⟨granted, hagrees, hmem⟩ :=
      Machine.mem_trace_of_replay hreplayed (List.mem_map_of_mem he) hcall
    rw [grantsSlot_eq k _ _ _ hcall hagrees]
    refine hheld _ hmem ?_
    rw [limiterCall_time _ _ hcall]
    exact htime

/-- A hint without a configured scope is put on some bucket of its host. -/
theorem resolved_applies (L : Limits) (host : Option Text) (hint : Option ServerThrottleScope)
    (hk : k ∈ bucketsOf host) (hpolicy : (L.policy? k).isSome = true) :
    ∃ k' ∈ bucketsOf host, (L.policy? k').isSome = true ∧
      (resolveServerThrottleScope .auto hint (host.bind normalizeHostKey).isSome
        L.global.isSome L.perHost.isSome).appliesTo host k' = true := by
  obtain ⟨global, perHost, instantMax⟩ := L
  by_cases hperHost : perHost.isSome = true ∧ (host.bind normalizeHostKey).isSome = true
  · obtain ⟨hperHost, hkey⟩ := hperHost
    obtain ⟨key, hkey⟩ := Option.isSome_iff_exists.mp hkey
    by_cases hglobal : global.isSome = true ∧ hint = some .global
    · refine ⟨.global, List.mem_cons_self, hglobal.1, ?_⟩
      simp [hglobal, resolveServerThrottleScope, resolveAutoServerThrottleScope,
        ServerThrottleScope.appliesTo, ServerThrottleScope.applyGlobal]
    · refine ⟨.host key, host_mem_bucketsOf.mpr hkey, hperHost, ?_⟩
      rw [hkey, hperHost]
      rcases hint with _ | _ | _ | _ | _ <;> cases hsome : global.isSome <;>
        simp_all [resolveServerThrottleScope, resolveAutoServerThrottleScope,
          ServerThrottleScope.appliesTo, ServerThrottleScope.applyHost]
  · -- Only the global bucket is left for this host.
    have hglobal : global.isSome = true := by
      cases k with
      | global => exact hpolicy
      | host key =>
        exact absurd ⟨hpolicy, Option.isSome_iff_exists.mpr ⟨key, host_mem_bucketsOf.mp hk⟩⟩
          hperHost
    refine ⟨.global, List.mem_cons_self, hglobal, ?_⟩
    have havailable : ((host.bind normalizeHostKey).isSome && perHost.isSome) = false := by
      rw [Bool.and_comm, ← Bool.not_eq_true, Bool.and_eq_true]
      exact hperHost
    rw [hglobal]
    rcases hint with _ | _ | _ | _ | _ <;>
      simp [resolveServerThrottleScope, resolveAutoServerThrottleScope, havailable,
        ServerThrottleScope.appliesTo, ServerThrottleScope.applyGlobal]

end Hint

end Limiter

/-- After the hint of a server, until its pause is over or the longest that the policy allows, a
call sends to the buckets of the hint only on slots that it was granted before. Without a
configured scope there is a hinted bucket among those of the host, if any has a policy. -/
theorem sends_after_hint (rt : Runtime) (c : ControlledClient) (created : ℕ)
    (ops : List (SharedOp σ A)) {before after : List (ℕ × ℕ × Occurrence σ A)}
    {index t answer delay : ℕ} {host : Option Text} {scope : ServerThrottleScope}
    {hint : Option ServerThrottleScope} {resolved : ServerThrottleScope}
    (hhistory : (SharedClient.run rt c created ops).history = before ++
      (index, t, .limiterCalled (.observeServerThrottle host delay scope hint), answer) :: after)
    (hresolved : resolveServerThrottleScope scope hint (host.bind normalizeHostKey).isSome
      c.limits.global.isSome c.limits.perHost.isSome = resolved) :
    (∀ k p, c.limits.policy? k = some p → resolved.appliesTo host k = true →
      t + min delay p.maxThrottleDelay ≤ c.limits.instantMax →
      (SharedClient.run rt c created ops).clock < t + min delay p.maxThrottleDelay →
      ∀ j, (project (SharedClient.run rt c created ops).history j).countP
          (fun e ↦ sendsTo k e.2) ≤
        (project before j).countP fun e ↦ grantsSlot k e.2) ∧
    (scope = .auto → ∀ k ∈ bucketsOf host, (c.limits.policy? k).isSome = true →
      ∃ k' ∈ bucketsOf host, (c.limits.policy? k').isSome = true ∧
        resolved.appliesTo host k' = true) := by
  subst hresolved
  set s := run rt c created ops with hs
  have hok : s.Ok rt c created := ok_run created ops
  constructor
  · intro k p hk happlies hmax hclock j
    have hlimiter := (limiter_of_policy created hk).1
    have hpaid := hok.sends_le_slots (k := k) hlimiter List.prefix_rfl j
    have hnone := hok.no_slot_after_hint hhistory hk happlies hmax
    have hlate : (project after j).countP (fun e ↦ grantsSlot k e.2) = 0 := by
      rw [List.countP_eq_zero]
      intro e he
      have hmem : (j, e) ∈ after := mem_project.mp he
      have htime : e.1 ≤ s.clock := by
        refine hok.timely.le_last _ (List.mem_cons_of_mem _ (List.mem_map.mpr ⟨(j, e), ?_, rfl⟩))
        rw [hhistory]
        exact List.mem_append_right _ (List.mem_cons_of_mem _ hmem)
      rw [Bool.not_eq_true]
      exact hnone _ hmem (htime.trans_lt hclock)
    have hslots : (project s.history j).countP (fun e ↦ grantsSlot k e.2) =
        (project before j).countP fun e ↦ grantsSlot k e.2 := by
      rw [hhistory, project_append, List.countP_append]
      by_cases hj : j = index
      · rw [hj, project_cons_self, List.countP_cons, ← hj, hlate]
        rfl
      · rw [project_cons_ne hj, hlate, Nat.add_zero]
    exact hpaid.trans_eq hslots
  · rintro rfl k hk hpolicy
    exact resolved_applies c.limits host hint hk hpolicy

theorem sends_after_hint_standard :
    let s := SharedClient.run .blocking Sample.controlled 0
      (Sample.sharedOps [Sample.tooManyRequests, Sample.tooManyRequests])
    s.history.length = 13 ∧
      (project s.history 0).countP (fun e ↦ sendsTo (.host "a.test:443".toList) e.2) ≤
        (project (s.history.take 5) 0).countP
          fun e ↦ grantsSlot (.host "a.test:443".toList) e.2 := by
  intro s
  have hhistory : s.history = s.history.take 5 ++
      (0, fromMillis 6, .limiterCalled (.observeServerThrottle (some "a.test:443".toList)
        (fromSecs 2) .auto none), 0) :: s.history.drop 6 := by
    decide +kernel
  have hbefore : s.clock <
      fromMillis 6 + min (fromSecs 2) RateLimitPolicy.standard.maxThrottleDelay := by
    decide +kernel
  exact ⟨by decide +kernel, (sends_after_hint .blocking Sample.controlled 0
    (Sample.sharedOps [Sample.tooManyRequests, Sample.tooManyRequests]) hhistory rfl).1 _ .standard
      rfl (by decide) (by decide) hbefore 0⟩

end Reqx.Driver
