import Reqx.RateLimit.BucketAccount

/-!
# The limiter refines its ledger

A bucket that is missing from the table stands for a full account. Every
cleanup that respects this reading is invisible in the answers.
-/

namespace Reqx.RateLimit

variable {L : Limits} {l l' : RateLimiter} {σ σ' : Ledger} {k : BucketId} {p : RateLimitPolicy}

namespace RateLimiter

def bucket? (l : RateLimiter) : BucketId → Option TokenBucket
  | .global => l.global
  | .host key => l.perHost[key]?.map PerHostRateLimitEntry.bucket

def current (l : RateLimiter) (p : RateLimitPolicy) (k : BucketId) (now : ℕ) : TokenBucket :=
  (l.bucket? k).getD (.new p now)

theorem hostBucket_eq_current (l : RateLimiter) (p : RateLimitPolicy) (key : Text) (now : ℕ) :
    l.hostBucket p key now = l.current p (.host key) now := by
  cases hentry : l.perHost[key]? <;> simp [hostBucket, current, bucket?, hentry]

end RateLimiter

structure Refines (L : Limits) (l : RateLimiter) (σ : Ledger) : Prop where
  global_policy : l.global.map TokenBucket.policy = L.global
  perHostPolicy_eq : l.perHostPolicy = L.perHost
  instantMax_eq : l.instantMax = L.instantMax
  sound : ∀ k p, L.policy? k = some p → (l.current p k σ.time).Sound p σ.time
  account : ∀ k p, L.policy? k = some p → (l.current p k σ.time).account σ.time = σ.account k

namespace Refines

theorem current_later (hL : L.Valid) (h : Refines L l σ) (hk : L.policy? k = some p) {now : ℕ}
    (hnow : σ.time ≤ now) :
    (l.current p k now).Sound p now ∧
      (l.current p k now).account now = (σ.upTo L now).account k := by
  have hsound := h.sound k p hk
  have haccount := h.account k p hk
  rw [Ledger.upTo_account hk, ← haccount]
  unfold RateLimiter.current at hsound haccount ⊢
  cases hb : l.bucket? k with
  | none =>
    simp only [Option.getD_none, TokenBucket.account_new]
    exact ⟨TokenBucket.sound_new p now, (Account.advance_full (hL k p hk) σ.time).symm⟩
  | some b =>
    simp only [hb, Option.getD_some] at hsound ⊢
    exact ⟨hsound.mono hnow, hsound.account_later (hL k p hk) hnow⟩

theorem upTo (hL : L.Valid) (h : Refines L l σ) {now : ℕ} (hnow : σ.time ≤ now) :
    Refines L l (σ.upTo L now) where
  global_policy := h.global_policy
  perHostPolicy_eq := h.perHostPolicy_eq
  instantMax_eq := h.instantMax_eq
  sound _ _ hk := (h.current_later hL hk hnow).1
  account _ _ hk := (h.current_later hL hk hnow).2

/-- Change some buckets and their accounts in the same way. -/
theorem update (h : Refines L l σ) (hglobal : l'.global.isSome = l.global.isSome)
    (hpolicy : l'.perHostPolicy = l.perHostPolicy) (hmax : l'.instantMax = l.instantMax)
    (htime : σ'.time = σ.time)
    (hcurrent : ∀ k p, L.policy? k = some p → (l'.current p k σ.time).Sound p σ.time ∧
      (l'.current p k σ.time).account σ.time = σ'.account k) : Refines L l' σ' where
  global_policy := by
    have hold := h.global_policy
    cases hL : L.global with
    | none =>
      rw [hL, Option.map_eq_none_iff] at hold
      simpa [hold] using hglobal
    | some p =>
      have hb := (hcurrent .global p hL).1.policy_eq
      rw [hL, Option.map_eq_some_iff] at hold
      obtain ⟨b, hb', -⟩ := hold
      obtain ⟨b', hb''⟩ : ∃ b', l'.global = some b' := by
        rw [← Option.isSome_iff_exists, hglobal, hb']
        rfl
      simpa [RateLimiter.current, RateLimiter.bucket?, hb''] using hb
  perHostPolicy_eq := hpolicy.trans h.perHostPolicy_eq
  instantMax_eq := hmax.trans h.instantMax_eq
  sound k p hk := by
    rw [htime]
    exact (hcurrent k p hk).1
  account k p hk := by
    rw [htime]
    exact (hcurrent k p hk).2

theorem congr (h : Refines L l σ) (htime : σ'.time = σ.time)
    (haccount : ∀ k p, L.policy? k = some p → σ'.account k = σ.account k) : Refines L l σ' := by
  apply h.update rfl rfl rfl htime
  intro k p hk
  rw [haccount k p hk]
  exact ⟨h.sound k p hk, h.account k p hk⟩

theorem global_eq_some (h : Refines L l σ) {p : RateLimitPolicy} (hp : L.global = some p) :
    ∃ b, l.global = some b := by
  have hmap := h.global_policy
  rw [hp, Option.map_eq_some_iff] at hmap
  obtain ⟨b, hb, -⟩ := hmap
  exact ⟨b, hb⟩

theorem global_isSome (h : Refines L l σ) : l.global.isSome = L.global.isSome := by
  rw [← h.global_policy, Option.isSome_map]

end Refines

theorem refines_new {now : ℕ}
    (hnew : RateLimiter.new L.global L.perHost L.instantMax now = some l) :
    Refines L l (.opened L now) := by
  obtain rfl : ⟨L.global.map (TokenBucket.new · now), L.perHost, ∅, now, 0, L.instantMax⟩ = l := by
    unfold RateLimiter.new at hnew
    split_ifs at hnew
    exact Option.some.inj hnew
  have hcurrent : ∀ k p, L.policy? k = some p →
      RateLimiter.current ⟨L.global.map (TokenBucket.new · now), L.perHost, ∅, now, 0,
        L.instantMax⟩ p k now = .new p now := by
    intro k p hk
    cases k with
    | global =>
      have hglobal : L.global = some p := hk
      simp [RateLimiter.current, RateLimiter.bucket?, hglobal]
    | host key => simp [RateLimiter.current, RateLimiter.bucket?]
  constructor
  · cases L.global <;> rfl
  · rfl
  · rfl
  · intro k p hk
    rw [Ledger.opened, hcurrent k p hk]
    exact TokenBucket.sound_new p now
  · intro k p hk
    simp only [Ledger.opened, hcurrent k p hk, TokenBucket.account_new, hk, Option.map_some,
      Option.getD_some]

/-! ## Acquiring a slot -/

theorem Refines.lockedBuckets (h : Refines L l σ) (host : Option Text) :
    List.Forall₂ (fun b e ↦ b.Sound e.2 σ.time ∧ b.account σ.time = σ.account e.1)
      (l.lockedBuckets (host.bind normalizeHostKey) σ.time) (L.neededBy host) := by
  have hcurrent : ∀ k p, L.policy? k = some p → (l.current p k σ.time).Sound p σ.time ∧
      (l.current p k σ.time).account σ.time = σ.account k :=
    fun k p hk ↦ ⟨h.sound k p hk, h.account k p hk⟩
  unfold RateLimiter.lockedBuckets Limits.neededBy
  rw [h.perHostPolicy_eq]
  apply List.rel_append
  · cases hp : L.global with
    | none =>
      have hnone : l.global = none := by simpa [hp] using h.global_policy
      simp [hnone]
    | some p =>
      obtain ⟨b, hb⟩ := h.global_eq_some hp
      simpa [RateLimiter.current, RateLimiter.bucket?, hb] using hcurrent .global p hp
  · cases hp : L.perHost with
    | none => exact .nil
    | some p =>
      cases host.bind normalizeHostKey with
      | none => exact .nil
      | some key =>
        simpa [RateLimiter.hostBucket_eq_current] using hcurrent (.host key) p hp

theorem Refines.bucket?_updateLocked (h : Refines L l σ) (hk : L.policy? k = some p)
    (host : Option Text) (f : TokenBucket → TokenBucket) :
    (l.updateLocked (host.bind normalizeHostKey) σ.time f).bucket? k =
      if k ∈ bucketsOf host then some (f (l.current p k σ.time)) else l.bucket? k := by
  cases k with
  | global =>
    obtain ⟨b, hb⟩ := h.global_eq_some hk
    have hin : BucketId.global ∈ bucketsOf host := List.mem_cons_self
    rw [if_pos hin]
    simp [RateLimiter.updateLocked, RateLimiter.bucket?, RateLimiter.current, hb]
  | host key =>
    have hpolicy : l.perHostPolicy = some p := h.perHostPolicy_eq.trans hk
    simp only [host_mem_bucketsOf, RateLimiter.updateLocked, RateLimiter.bucket?, hpolicy]
    cases host.bind normalizeHostKey with
    | none => simp
    | some key' =>
      simp only [Std.TreeMap.getElem?_insert, Option.some.injEq, Std.compare_eq_iff_eq]
      by_cases hkey : key' = key
      · subst hkey
        simp [RateLimiter.hostBucket_eq_current]
      · simp [hkey]

theorem Refines.updateLocked (h : Refines L l σ) (host : Option Text)
    {f : TokenBucket → TokenBucket} {g : Account → Account}
    (hfg : ∀ k p, L.policy? k = some p → k ∈ bucketsOf host →
      (f (l.current p k σ.time)).Sound p σ.time ∧
        (f (l.current p k σ.time)).account σ.time = g (σ.account k)) :
    Refines L (l.updateLocked (host.bind normalizeHostKey) σ.time f)
      { σ with
        account := fun k ↦ if k ∈ bucketsOf host then g (σ.account k) else σ.account k } := by
  apply h.update
  · simp [RateLimiter.updateLocked]
  · rfl
  · rfl
  · rfl
  · intro k p hk
    have hbucket := h.bucket?_updateLocked hk host f
    by_cases hin : k ∈ bucketsOf host
    · simp only [RateLimiter.current, hbucket, if_pos hin, Option.getD_some]
      exact hfg k p hk hin
    · simp only [RateLimiter.current, hbucket, if_neg hin]
      exact ⟨h.sound k p hk, h.account k p hk⟩

section Lists

variable {now : ℕ} {buckets : List TokenBucket} {needed : List (BucketId × RateLimitPolicy)}

theorem all_canConsumeNow (h : List.Forall₂
    (fun b e ↦ b.Sound e.2 now ∧ b.account now = σ.account e.1) buckets needed) :
    (buckets.all fun b ↦ (b.canConsumeNow now).1) =
      needed.all fun e ↦ (σ.account e.1).ready := by
  induction h with
  | nil => rfl
  | cons hhead _ ih =>
    rw [List.all_cons, List.all_cons, ih, hhead.1.canConsumeNow_fst, hhead.2]

theorem map_waitDuration (h : List.Forall₂
    (fun b e ↦ b.Sound e.2 now ∧ b.account now = σ.account e.1) buckets needed)
    (hvalid : ∀ e ∈ needed, e.2.validate = .ok ()) :
    (buckets.map fun b ↦ ((b.canConsumeNow now).2.waitDuration now).1) =
      needed.map fun e ↦ (σ.account e.1).wait e.2 now := by
  induction h with
  | nil => rfl
  | cons hhead _ ih =>
    have hfirst := (hhead.1.waitDuration_canConsumeNow (hvalid _ List.mem_cons_self)).1
    rw [List.map_cons, List.map_cons, hfirst, hhead.2,
      ih fun e he ↦ hvalid e (List.mem_cons_of_mem _ he)]

end Lists

theorem Refines.acquire (hL : L.Valid) (h : Refines L l σ) (host : Option Text) :
    (l.acquireLocked host σ.time).1 = (σ.acquire L host).1 ∧
      Refines L (l.acquireLocked host σ.time).2 (σ.acquire L host).2 := by
  have hlocked := h.lockedBuckets host
  have hvalid : ∀ e ∈ L.neededBy host, e.2.validate = .ok () :=
    fun e he ↦ hL e.1 e.2 (Limits.mem_neededBy.mp he).2
  unfold RateLimiter.acquireLocked Ledger.acquire
  simp only [all_canConsumeNow hlocked, map_waitDuration hlocked hvalid]
  by_cases hready : (L.neededBy host).all fun e ↦ (σ.account e.1).ready
  · rw [if_pos hready, if_pos hready]
    refine ⟨rfl, h.updateLocked host fun k p hk hin ↦ ?_⟩
    have hk' : (σ.account k).ready :=
      List.all_eq_true.mp hready (k, p) (Limits.mem_neededBy.mpr ⟨hin, hk⟩)
    rw [← h.account k p hk] at hk' ⊢
    exact (h.sound k p hk).consumeReadyToken (hL k p hk) hk'
  · rw [if_neg hready, if_neg hready]
    refine ⟨rfl, ?_⟩
    have hsame := h.updateLocked (g := id) (f := fun b ↦
      ((b.canConsumeNow σ.time).2.waitDuration σ.time).2) host fun k p hk _ ↦ by
        have hsound := h.sound k p hk
        rw [(hsound.waitDuration_canConsumeNow (hL k p hk)).2, id, ← h.account k p hk]
        exact ⟨hsound.refill (hL k p hk), hsound.account_refill (hL k p hk)⟩
    simpa using hsame

/-! ## Observing a server hint -/

theorem Refines.throttleGlobal (h : Refines L l σ) (scope : ServerThrottleScope) (delay : ℕ) :
    Refines L (l.throttleGlobal scope delay σ.time)
      (σ.holdWhere L (fun k ↦ scope.applyGlobal && decide (k = .global)) delay) := by
  unfold RateLimiter.throttleGlobal
  cases scope.applyGlobal with
  | false => exact h.congr rfl fun k p hk ↦ by simp [Ledger.holdWhere_account hk]
  | true =>
    apply h.update
    · simp
    · rfl
    · rfl
    · rfl
    · intro k p hk
      have hsound := h.sound k p hk
      have haccount := h.account k p hk
      rw [Ledger.holdWhere_account hk]
      cases k with
      | global =>
        obtain ⟨b, hb⟩ := h.global_eq_some hk
        simp only [RateLimiter.current, RateLimiter.bucket?, hb, Option.getD_some]
          at hsound haccount
        have hthrottle := hsound.applyThrottle l.instantMax delay
        simpa [RateLimiter.current, RateLimiter.bucket?, hb, haccount, h.instantMax_eq]
          using hthrottle
      | host key =>
        simpa [RateLimiter.current, RateLimiter.bucket?] using ⟨hsound, haccount⟩

theorem Refines.storeHost_throttled (h : Refines L l σ) (hp : L.perHost = some p) (key : Text)
    (delay : ℕ) :
    Refines L (l.storeHost key
        ((l.hostBucket p key σ.time).applyThrottle l.instantMax σ.time delay) σ.time)
      (σ.holdWhere L (· = .host key) delay) := by
  apply h.update
  · rfl
  · rfl
  · rfl
  · rfl
  · intro k p' hk
    have hsame := And.intro (h.sound k p' hk) (h.account k p' hk)
    rw [Ledger.holdWhere_account hk]
    cases k with
    | global => simpa [RateLimiter.current, RateLimiter.bucket?, RateLimiter.storeHost] using hsame
    | host key' =>
      by_cases hkey : key = key'
      · subst hkey
        obtain rfl : p = p' := Option.some.inj (hp.symm.trans hk)
        have hthrottle := hsame.1.applyThrottle l.instantMax delay
        rw [hsame.2, h.instantMax_eq] at hthrottle
        simpa [RateLimiter.current, RateLimiter.bucket?, RateLimiter.storeHost,
          RateLimiter.hostBucket_eq_current, h.instantMax_eq] using hthrottle
      · simpa [RateLimiter.current, RateLimiter.bucket?, RateLimiter.storeHost,
          Std.TreeMap.getElem?_insert, hkey, Ne.symm hkey] using hsame

/-- A cleanup that only removes buckets whose accounts are full. -/
def Transparent (L : Limits) (cleanup : RateLimiter → ℕ → RateLimiter) : Prop :=
  ∀ l σ, Refines L l σ → Refines L (cleanup l σ.time) σ

variable {cleanup : RateLimiter → ℕ → RateLimiter}

theorem Refines.throttleHost (hclean : Transparent L cleanup) (h : Refines L l σ)
    (scope : ServerThrottleScope) (hostKey : Option Text) (delay : ℕ) :
    Refines L (l.throttleHostWith cleanup scope hostKey delay σ.time)
      (σ.holdWhere L (fun k ↦ scope.applyHost && decide (hostKey.map .host = some k)) delay) := by
  unfold RateLimiter.throttleHostWith
  rw [h.perHostPolicy_eq]
  cases hostKey with
  | none => cases L.perHost <;> exact h.congr rfl fun k p hk ↦ by simp [Ledger.holdWhere_account hk]
  | some key =>
    cases hp : L.perHost with
    | none =>
      refine h.congr rfl fun k p hk ↦ ?_
      have hk' : k ≠ .host key := by
        rintro rfl
        simp [Limits.policy?, hp] at hk
      simp [Ledger.holdWhere_account hk, Ne.symm hk']
    | some p =>
      cases happly : scope.applyHost with
      | false => exact h.congr rfl fun k p hk ↦ by simp [Ledger.holdWhere_account hk]
      | true =>
        refine ((hclean l σ h).storeHost_throttled hp key delay).congr rfl fun k p hk ↦ ?_
        simp [Ledger.holdWhere_account hk, eq_comm]

theorem Refines.observe (hclean : Transparent L cleanup) (h : Refines L l σ) (host : Option Text)
    (delay : ℕ) (configuredScope : ServerThrottleScope)
    (headerScopeHint : Option ServerThrottleScope) :
    (l.observeServerThrottleWith cleanup host delay configuredScope headerScopeHint σ.time).1 =
        (σ.observe L host delay configuredScope headerScopeHint).1 ∧
      Refines L
        (l.observeServerThrottleWith cleanup host delay configuredScope headerScopeHint σ.time).2
        (σ.observe L host delay configuredScope headerScopeHint).2 := by
  simp only [RateLimiter.observeServerThrottleWith, Ledger.observe, h.global_isSome,
    h.perHostPolicy_eq, true_and]
  generalize resolveServerThrottleScope configuredScope headerScopeHint
    (host.bind normalizeHostKey).isSome L.global.isSome L.perHost.isSome = scope
  by_cases hzero : delay = 0
  · rw [if_pos hzero]
    refine h.congr rfl fun k p hk ↦ ?_
    simp [Ledger.holdWhere_account hk, Account.throttle, hzero]
  · rw [if_neg hzero]
    have hglobal := h.throttleGlobal scope delay
    refine (hglobal.throttleHost hclean scope (host.bind normalizeHostKey) delay).congr rfl
      fun k p hk ↦ ?_
    -- No bucket is hit twice: the two scopes choose different buckets.
    simp only [Ledger.holdWhere_account hk]
    cases hkey : host.bind normalizeHostKey <;> cases happly : scope.applyGlobal <;> cases k <;>
      simp [ServerThrottleScope.appliesTo, hkey, happly, Ledger.holdWhere]

/-- With a transparent cleanup the limiter and its ledger give the same answers. -/
theorem simulates_ledger (hL : L.Valid) (hclean : Transparent L cleanup) :
    (RateLimiter.machineWith cleanup).Simulates (Ledger.machine L) Ledger.Later (Refines L) := by
  rintro l σ ⟨now, call⟩ h hlater
  have hnow := h.upTo hL hlater
  cases call with
  | acquireDelay host =>
    have hclean' : Refines L (if l.perHostPolicy.isSome then cleanup l now else l)
        (σ.upTo L now) := by
      split_ifs
      · exact hclean l (σ.upTo L now) hnow
      · exact hnow
    obtain ⟨hanswer, hnext⟩ := hclean'.acquire hL host
    exact ⟨congrArg Answer.delay hanswer, hnext⟩
  | observeServerThrottle host delay configuredScope headerScopeHint =>
    obtain ⟨hanswer, hnext⟩ := hnow.observe hclean host delay configuredScope headerScopeHint
    exact ⟨congrArg Answer.scope hanswer, hnext⟩

end Reqx.RateLimit
