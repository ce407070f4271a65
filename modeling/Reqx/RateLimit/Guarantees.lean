import Reqx.RateLimit.Cleanup

/-!
# What the limiter guarantees

The rate bound and the server hints are properties of the ledger; the
refinement carries them to the limiter, evictions included.
-/

namespace Reqx.RateLimit

open Accrual RateLimiter Account

variable {L : Limits} {l : RateLimiter} {σ : Ledger} {k : BucketId} {p : RateLimitPolicy}

def grantedTo (k : BucketId) : (ℕ × Call) × Answer → Bool
  | ((_, .acquireDelay host), .delay 0) => decide (k ∈ bucketsOf host)
  | _ => false

def slotsGranted (k : BucketId) (s t : ℕ) (trace : List ((ℕ × Call) × Answer)) : ℕ :=
  trace.countP fun e ↦ decide (s ≤ e.1.1 ∧ e.1.1 ≤ t) && grantedTo k e

/-! ## Answers of the ledger -/

theorem Account.wait_pos {a : Account} {now : ℕ} (hready : a.ready = false)
    (hhold : ∀ deadline, a.hold = some deadline → now < deadline) : 0 < a.wait p now := by
  unfold wait
  cases hdeadline : a.hold with
  | some deadline => exact Nat.sub_pos_of_lt (hhold deadline hdeadline)
  | none =>
    have hlevel : ¬ 1 ≤ a.level := by simpa [ready, hdeadline] using hready
    simp only [hlevel, if_false]
    exact lt_max_of_lt_right Nat.one_pos

/-- A slot is granted exactly when every bucket it needs is ready. -/
theorem Ledger.acquire_eq_zero_iff (host : Option Text)
    (hhold : ∀ k p, L.policy? k = some p → ∀ deadline, (σ.account k).hold = some deadline →
      σ.time < deadline) :
    (σ.acquire L host).1 = 0 ↔ (L.neededBy host).all fun e ↦ (σ.account e.1).ready := by
  unfold Ledger.acquire
  by_cases hready : (L.neededBy host).all fun e ↦ (σ.account e.1).ready
  · simp [hready]
  · rw [if_neg hready]
    refine iff_of_false ?_ hready
    obtain ⟨⟨k, p⟩, hmem, hnot⟩ : ∃ e ∈ L.neededBy host, (σ.account e.1).ready = false := by
      simpa using hready
    have hk := (Limits.mem_neededBy.mp hmem).2
    have hpos : 0 < (σ.account k).wait p σ.time :=
      wait_pos hnot fun deadline hdeadline ↦ hhold k p hk deadline hdeadline
    have hle : (σ.account k).wait p σ.time ≤
        ((L.neededBy host).map fun e ↦ (σ.account e.1).wait e.2 σ.time).foldr max 0 :=
      List.le_max_of_le (List.mem_map_of_mem (f := fun e ↦ (σ.account e.1).wait e.2 σ.time) hmem)
        le_rfl
    exact (hpos.trans_le hle).ne'

theorem Ledger.upTo_hold_lt (σ : Ledger) (now : ℕ) (hk : L.policy? k = some p) {deadline : ℕ}
    (hhold : ((σ.upTo L now).account k).hold = some deadline) : now < deadline := by
  rw [Ledger.upTo_account hk, advance, Option.filter_eq_some_iff] at hhold
  simpa using hhold.2

theorem Ledger.acquire_cases (σ : Ledger) (now : ℕ) (hk : L.policy? k = some p)
    (host : Option Text) :
    let answer := (σ.upTo L now).acquire L host
    (answer.1 = 0 ∧ k ∈ bucketsOf host) ∧ ((σ.upTo L now).account k).ready ∧
        answer.2.account k = ((σ.upTo L now).account k).spend ∨
      ¬ (answer.1 = 0 ∧ k ∈ bucketsOf host) ∧
        answer.2.account k = (σ.upTo L now).account k := by
  have hzero := Ledger.acquire_eq_zero_iff (L := L) (σ := σ.upTo L now) host
    fun k p hk deadline hdeadline ↦ σ.upTo_hold_lt now hk hdeadline
  dsimp only
  by_cases hready : (L.neededBy host).all fun e ↦ ((σ.upTo L now).account e.1).ready
  · by_cases hin : k ∈ bucketsOf host
    · refine .inl ⟨⟨hzero.mpr hready, hin⟩, ?_, ?_⟩
      · exact List.all_eq_true.mp hready (k, p) (Limits.mem_neededBy.mpr ⟨hin, hk⟩)
      · rw [Ledger.acquire, if_pos hready]
        simp [hin]
    · refine .inr ⟨fun hc ↦ hin hc.2, ?_⟩
      rw [Ledger.acquire, if_pos hready]
      simp [hin]
  · refine .inr ⟨fun hc ↦ hready (hzero.mp hc.1), ?_⟩
    rw [Ledger.acquire, if_neg hready]

theorem Account.throttle_level (a : Account) (instantMax now delay : ℕ) :
    (a.throttle p instantMax now delay).level = a.level := by
  unfold throttle
  dsimp only
  split_ifs <;> rfl

theorem Ledger.observe_level (σ : Ledger) (hk : L.policy? k = some p) (host : Option Text)
    (delay : ℕ) (configuredScope : ServerThrottleScope)
    (headerScopeHint : Option ServerThrottleScope) :
    ((σ.observe L host delay configuredScope headerScopeHint).2.account k).level =
      (σ.account k).level := by
  simp only [Ledger.observe, Ledger.holdWhere_account hk]
  split_ifs
  · exact (σ.account k).throttle_level L.instantMax σ.time delay
  · rfl

/-! ## The rate bound -/

def spending (k : BucketId) (e : (ℕ × Call) × Answer) : ℚ × ℚ :=
  (asSecs e.1.1, if grantedTo k e then 1 else 0)

/-- One call takes from a bucket what it grants, after the accrual. -/
theorem Ledger.step_level (σ : Ledger) (hk : L.policy? k = some p) (call : ℕ × Call)
    (hlater : σ.time ≤ call.1) :
    let amount := (spending k (call, ((Ledger.machine L).step σ call).1)).2
    let level := accrue (p.burst : ℚ) p.requestsPerSecond
      (asSecs call.1 - asSecs σ.time) (σ.account k).level
    0 ≤ amount ∧ (amount ≤ level ∨ amount = 0) ∧
      ((((Ledger.machine L).step σ call).2).account k).level = level - amount := by
  obtain ⟨now, call⟩ := call
  have hlevel : ((σ.upTo L now).account k).level = accrue (p.burst : ℚ) p.requestsPerSecond
      (asSecs now - asSecs σ.time) (σ.account k).level := by
    rw [Ledger.upTo_account hk, advance, asSecs_sub hlater]
  dsimp only
  rw [← hlevel]
  cases call with
  | acquireDelay host =>
    have hgrant : grantedTo k ((now, .acquireDelay host),
        ((Ledger.machine L).step σ (now, .acquireDelay host)).1) =
          decide (((σ.upTo L now).acquire L host).1 = 0 ∧ k ∈ bucketsOf host) := by
      simp only [Ledger.machine]
      cases ((σ.upTo L now).acquire L host).1 <;> simp [grantedTo]
    have hnext : ((Ledger.machine L).step σ (now, .acquireDelay host)).2 =
        ((σ.upTo L now).acquire L host).2 := rfl
    simp only [spending, hgrant, hnext]
    rcases σ.acquire_cases now hk host with ⟨htaken, hready, hspend⟩ | ⟨hnot, hsame⟩
    · have hone := (ready_iff.mp hready).2
      simp [htaken, hspend, spend, hone]
    · simp [hnot, hsame]
  | observeServerThrottle host delay configuredScope headerScopeHint =>
    have hsame := (σ.upTo L now).observe_level hk host delay configuredScope headerScopeHint
    have hnext : ((Ledger.machine L).step σ
        (now, .observeServerThrottle host delay configuredScope headerScopeHint)).2 =
          ((σ.upTo L now).observe L host delay configuredScope headerScopeHint).2 := rfl
    simp [spending, grantedTo, hnext, hsame]

theorem Ledger.metered (hL : L.Valid) (hk : L.policy? k = some p) {calls : List (ℕ × Call)}
    (hcalls : (Ledger.machine L).Admits Ledger.Later σ calls) (hlow : 0 ≤ (σ.account k).level)
    (hhigh : (σ.account k).level ≤ p.burst) :
    Metered (p.burst : ℚ) p.requestsPerSecond (asSecs σ.time) (σ.account k).level
      (((Ledger.machine L).trace σ calls).map (spending k)) := by
  have hrate := ((p.validate_eq_ok_iff).mp (hL k p hk)).1.le
  induction calls generalizing σ with
  | nil => exact .nil
  | cons call calls ih =>
    obtain ⟨hlater, hrest⟩ := hcalls
    obtain ⟨hnonneg, hcovered, hlevel⟩ := σ.step_level hk call hlater
    have hgain : 0 ≤ accrue (p.burst : ℚ) p.requestsPerSecond (asSecs call.1 - asSecs σ.time)
        (σ.account k).level := by
      have hle := le_accrue hrate (asSecs_nonneg (call.1 - σ.time)) hhigh
      rw [asSecs_sub hlater] at hle
      exact hlow.trans hle
    have hpaid : (spending k (call, ((Ledger.machine L).step σ call).1)).2 ≤
        accrue (p.burst : ℚ) p.requestsPerSecond (asSecs call.1 - asSecs σ.time)
          (σ.account k).level := by
      rcases hcovered with hle | hzero
      · exact hle
      · rw [hzero]
        exact hgain
    have hcap : accrue (p.burst : ℚ) p.requestsPerSecond (asSecs call.1 - asSecs σ.time)
        (σ.account k).level ≤ p.burst := accrue_le_cap
    rw [Machine.trace_cons, List.map_cons]
    refine .cons hhigh (asSecs_le_asSecs_iff.mpr hlater) hnonneg hpaid ?_
    have htail := ih hrest (by rw [hlevel]; linarith) (by rw [hlevel]; linarith)
    rw [Ledger.step_time, hlevel] at htail
    exact htail

theorem spentIn_spending (k : BucketId) (s t : ℕ) (trace : List ((ℕ × Call) × Answer)) :
    spentIn (asSecs s) (asSecs t) (trace.map (spending k)) = slotsGranted k s t trace := by
  induction trace with
  | nil => simp [spentIn, slotsGranted]
  | cons e trace ih =>
    have hcount : slotsGranted k s t (e :: trace) = slotsGranted k s t trace +
        if decide (s ≤ e.1.1 ∧ e.1.1 ≤ t) && grantedTo k e then 1 else 0 :=
      List.countP_cons
    rw [List.map_cons, spentIn_cons, ih, hcount]
    by_cases hin : s ≤ e.1.1 ∧ e.1.1 ≤ t <;> by_cases hgrant : grantedTo k e <;>
      simp [spending, asSecs_le_asSecs_iff, hin, hgrant, add_comm]

theorem Ledger.slotsGranted_le (hL : L.Valid) (hk : L.policy? k = some p) (now : ℕ)
    {calls : List (ℕ × Call)}
    (hcalls : (Ledger.machine L).Admits Ledger.Later (.opened L now) calls) {s t : ℕ}
    (hst : s ≤ t) :
    (slotsGranted k s t ((Ledger.machine L).trace (.opened L now) calls) : ℚ) ≤
      p.burst + p.requestsPerSecond * asSecs (t - s) := by
  have hrate := ((p.validate_eq_ok_iff).mp (hL k p hk)).1.le
  have hfull : ((Ledger.opened L now).account k).level = p.burst := by
    simp [Ledger.opened, hk, full]
  have hmetered := Ledger.metered hL hk hcalls (by simp [hfull]) hfull.le
  rw [← spentIn_spending, asSecs_sub hst]
  exact hmetered.spentIn_le hrate (Nat.cast_nonneg _) (asSecs_le_asSecs_iff.mpr hst)

/-! ## Server hints -/

/-- The bucket is on hold at least until the deadline, unless that has passed. -/
def Ledger.HeldUntil (k : BucketId) (deadline : ℕ) (σ : Ledger) : Prop :=
  σ.time < deadline → ∃ hold, (σ.account k).hold = some hold ∧ deadline ≤ hold

theorem Ledger.HeldUntil.upTo {deadline now : ℕ} (h : σ.HeldUntil k deadline)
    (hk : L.policy? k = some p) (hlater : σ.time ≤ now) : (σ.upTo L now).HeldUntil k deadline := by
  intro hnow
  change now < deadline at hnow
  obtain ⟨hold, hhold, hle⟩ := h (hlater.trans_lt hnow)
  refine ⟨hold, ?_, hle⟩
  rw [Ledger.upTo_account hk, advance, hhold]
  simp [Option.filter, hnow.trans_le hle]

theorem Account.throttle_hold {a : Account} {deadline hold : ℕ} (hhold : a.hold = some hold)
    (hle : deadline ≤ hold) (instantMax now delay : ℕ) :
    ∃ hold', (a.throttle p instantMax now delay).hold = some hold' ∧ deadline ≤ hold' := by
  unfold throttle
  dsimp only
  split_ifs
  · exact ⟨hold, hhold, hle⟩
  · exact ⟨_, rfl, hle.trans (by simp [hhold])⟩

/-- A call before the deadline is refused, and leaves the hold in place. -/
theorem Ledger.HeldUntil.step {deadline : ℕ} (h : σ.HeldUntil k deadline)
    (hk : L.policy? k = some p) (call : ℕ × Call) (hlater : σ.time ≤ call.1) :
    (call.1 < deadline → grantedTo k (call, ((Ledger.machine L).step σ call).1) = false) ∧
      ((Ledger.machine L).step σ call).2.HeldUntil k deadline := by
  obtain ⟨now, call⟩ := call
  have hup := h.upTo hk hlater
  cases call with
  | acquireDelay host =>
    rcases σ.acquire_cases now hk host with ⟨htaken, hready, hspend⟩ | ⟨hnot, hsame⟩
    · -- A bucket on hold is not ready, so this happens after the deadline only.
      have hfree := (ready_iff.mp hready).1
      have hdone : ¬ now < deadline := by
        intro hnow
        obtain ⟨hold, hhold, -⟩ := hup hnow
        rw [hfree] at hhold
        cases hhold
      refine ⟨fun hnow ↦ absurd hnow hdone, fun hnow ↦ absurd ?_ hdone⟩
      simpa using hnow
    · constructor
      · intro _
        simp only [Ledger.machine]
        cases hanswer : ((σ.upTo L now).acquire L host).1 with
        | zero => simpa [grantedTo] using fun hin ↦ hnot ⟨hanswer, hin⟩
        | succ duration => rfl
      · intro hnow
        have hnow' : (σ.upTo L now).time < deadline := by simpa using hnow
        simpa [Ledger.machine, hsame] using hup hnow'
  | observeServerThrottle host delay configuredScope headerScopeHint =>
    refine ⟨fun _ ↦ rfl, fun hnow ↦ ?_⟩
    obtain ⟨hold, hhold, hle⟩ := hup hnow
    simp only [Ledger.machine, Ledger.observe, Ledger.holdWhere_account hk]
    split_ifs
    · exact throttle_hold hhold hle L.instantMax _ delay
    · exact ⟨hold, hhold, hle⟩

theorem Ledger.heldUntil_observe (σ : Ledger) (hk : L.policy? k = some p) {now delay : ℕ}
    (host : Option Text) (configuredScope : ServerThrottleScope)
    (headerScopeHint : Option ServerThrottleScope) {resolved : ServerThrottleScope}
    (hscope : ((σ.upTo L now).observe L host delay configuredScope headerScopeHint).1 = resolved)
    (happlies : resolved.appliesTo host k)
    (hmax : now + min delay p.maxThrottleDelay ≤ L.instantMax) :
    ((σ.upTo L now).observe L host delay configuredScope headerScopeHint).2.HeldUntil k
      (now + min delay p.maxThrottleDelay) := by
  intro hnow
  change now < now + min delay p.maxThrottleDelay at hnow
  have hset : ¬ (min delay p.maxThrottleDelay = 0 ∨
      L.instantMax < now + min delay p.maxThrottleDelay) := by
    omega
  simp only [Ledger.observe] at hscope
  simp only [Ledger.observe, Ledger.holdWhere_account hk, hscope, happlies, if_true]
  unfold throttle
  rw [Ledger.upTo_time, if_neg hset]
  exact ⟨_, rfl, le_max_right _ _⟩

/-! ## The limiter -/

section Limiter

def Limits.standard : Limits := ⟨some .standard, some .standard, durationMax⟩

theorem Limits.standard_valid : Limits.standard.Valid := by
  intro k p hk
  obtain rfl : RateLimitPolicy.standard = p := by
    cases k <;> exact Option.some.inj hk
  exact (RateLimitPolicy.validate_eq_ok_iff _).mpr (by norm_num [RateLimitPolicy.standard])

/-- The limiter that `Limits.standard` gives at the origin of the clock. -/
def RateLimiter.standard : RateLimiter :=
  ⟨some (.new .standard 0), some .standard, ∅, 0, 0, durationMax⟩

theorem RateLimiter.new_standard : new Limits.standard.global Limits.standard.perHost
    Limits.standard.instantMax 0 = some .standard := rfl

def hostA : Option Text := some "a.example:443".toList
def hostB : Option Text := some "b.example:443".toList

variable {created : ℕ} {calls : List (ℕ × Call)}

theorem granted_slots_bounded (hL : L.Valid)
    (hnew : RateLimiter.new L.global L.perHost L.instantMax created = some l)
    (hclock : List.IsChain (· ≤ ·) (created :: calls.map Prod.fst)) {s t : ℕ} (hst : s ≤ t) :
    (∀ p, L.global = some p →
      (slotsGranted .global s t (RateLimiter.machine.trace l calls) : ℚ) ≤
        p.burst + p.requestsPerSecond * asSecs (t - s)) ∧
    ∀ key p, L.perHost = some p →
      (slotsGranted (.host key) s t (RateLimiter.machine.trace l calls) : ℚ) ≤
        p.burst + p.requestsPerSecond * asSecs (t - s) := by
  have hcalls := Ledger.admits_later (L := L) (σ := .opened L created) hclock
  have htrace := (simulates_ledger hL (transparent_maybeCleanup hL)).trace_eq
    (refines_new hnew) hcalls
  rw [machine, htrace]
  exact ⟨fun p hp ↦ Ledger.slotsGranted_le (k := .global) hL hp created hcalls hst,
    fun key p hp ↦ Ledger.slotsGranted_le (k := .host key) hL hp created hcalls hst⟩

theorem granted_slots_bounded_standard :
    slotsGranted .global 0 0 (RateLimiter.machine.trace .standard
      [(0, .acquireDelay hostA), (0, .acquireDelay hostB)]) = 2 ∧
    (slotsGranted .global 0 0 (RateLimiter.machine.trace .standard
      [(0, .acquireDelay hostA), (0, .acquireDelay hostB)]) : ℚ) ≤ 50 + 50 * asSecs (0 - 0) :=
  ⟨by decide +kernel,
    (granted_slots_bounded Limits.standard_valid new_standard (by decide) le_rfl).1
      .standard rfl⟩

theorem eviction_unobservable (hL : L.Valid)
    (hnew : RateLimiter.new L.global L.perHost L.instantMax created = some l)
    (hclock : List.IsChain (· ≤ ·) (created :: calls.map Prod.fst)) :
    RateLimiter.machine.outputs l calls = RateLimiter.referenceMachine.outputs l calls := by
  have hcalls := Ledger.admits_later (L := L) (σ := .opened L created) hclock
  have hcleaned := (simulates_ledger hL (transparent_maybeCleanup hL)).outputs_eq
    (refines_new hnew) hcalls
  have hreference := (simulates_ledger hL transparent_none).outputs_eq (refines_new hnew) hcalls
  exact hcleaned.trans hreference.symm

theorem eviction_unobservable_aged :
    (RateLimiter.machine.final .standard
      [(0, .acquireDelay hostA), (fromSecs 301, .acquireDelay hostB)]).perHost.size = 1 ∧
    RateLimiter.machine.outputs .standard
        [(0, .acquireDelay hostA), (fromSecs 301, .acquireDelay hostB)] =
      RateLimiter.referenceMachine.outputs .standard
        [(0, .acquireDelay hostA), (fromSecs 301, .acquireDelay hostB)] :=
  ⟨by decide +kernel,
    eviction_unobservable Limits.standard_valid new_standard (by decide)⟩

theorem server_throttle_honoured (hL : L.Valid)
    (hnew : RateLimiter.new L.global L.perHost L.instantMax created = some l)
    (before after : List (ℕ × Call)) (t delay : ℕ) (host : Option Text)
    (configuredScope : ServerThrottleScope) (headerScopeHint : Option ServerThrottleScope)
    {resolved : ServerThrottleScope}
    (hclock : List.IsChain (· ≤ ·) (created :: (before ++
      (t, .observeServerThrottle host delay configuredScope headerScopeHint) :: after).map
        Prod.fst))
    (hscope : (RateLimiter.machine.step (RateLimiter.machine.final l before)
      (t, .observeServerThrottle host delay configuredScope headerScopeHint)).1 = .scope resolved)
    (hk : L.policy? k = some p) (happlies : resolved.appliesTo host k)
    (hmax : t + min delay p.maxThrottleDelay ≤ L.instantMax) :
    ∀ e ∈ RateLimiter.machine.trace (RateLimiter.machine.final l (before ++
        [(t, .observeServerThrottle host delay configuredScope headerScopeHint)])) after,
      e.1.1 < t + min delay p.maxThrottleDelay → grantedTo k e = false := by
  have hcalls := Ledger.admits_later (L := L) (σ := .opened L created) hclock
  obtain ⟨hbefore, hlater, hafter⟩ := Machine.admits_append.mp hcalls
  have hsim := simulates_ledger hL (transparent_maybeCleanup hL)
  have hreached := hsim.final (refines_new hnew) hbefore
  obtain ⟨hanswer, hnext⟩ := hsim _ _ _ hreached hlater
  have hscope' := Answer.scope.inj (hanswer.symm.trans hscope)
  rw [Machine.final_concat, machine, hsim.trace_eq hnext hafter]
  refine Machine.forall_mem_trace (P := Ledger.HeldUntil k (t + min delay p.maxThrottleDelay))
    (Q := fun call answer ↦ call.1 < t + min delay p.maxThrottleDelay →
      grantedTo k (call, answer) = false)
    (fun σ call hσ hok ↦ hσ.step hk call hok) ?_ hafter
  exact Ledger.heldUntil_observe _ hk host configuredScope headerScopeHint hscope' happlies hmax

theorem server_throttle_honoured_standard :
    grantedTo (.host "a.example:443".toList)
      ((5, .acquireDelay hostA), .delay (fromSecs 1 - 5)) = false :=
  server_throttle_honoured (p := .standard) Limits.standard_valid new_standard []
    [(5, .acquireDelay hostA)] 0 (fromSecs 1) hostA .auto none (by decide)
    (show _ = Answer.scope .host by decide +kernel) rfl (by decide) (by decide) _
    (by decide +kernel) (by decide)

end Limiter

end Reqx.RateLimit
