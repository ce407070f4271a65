import Reqx.Library.Table
import Reqx.RateLimit.Guarantees
import Reqx.Driver.HostLimit

/-!
# The per-host tables stay bounded

A cleanup stops when the table is small enough or when no idle entry is left,
and every use of a table cleans it up, or finds it small, before it adds an
entry. Entries in use are not removed, so the size of a table is bounded by the
larger of its capacity and the number of entries in use.
-/

namespace Reqx

/-! ## Evictions -/

namespace Driver

section Eviction

variable {E : Type} {isIdle : E → Bool} {lastUsedAt : E → ℕ} {entries : Std.TreeMap Text E}

theorem oldestIdleHost_eq_none (h : oldestIdleHost isIdle lastUsedAt entries = none) (host : Text)
    (entry : E) (hentry : entries[host]? = some entry) : isIdle entry = false := by
  rw [oldestIdleHost, Option.map_eq_none_iff, List.argmin_eq_none, List.filter_eq_nil_iff] at h
  have hbusy := h (host, entry) (Std.TreeMap.mem_toList_iff_getElem?_eq_some.mpr hentry)
  exact Bool.eq_false_iff.mpr hbusy

theorem size_erase_oldestIdleHost {host : Text}
    (h : oldestIdleHost isIdle lastUsedAt entries = some host) :
    (entries.erase host).size = entries.size - 1 := by
  obtain ⟨⟨key, entry⟩, hmin, rfl⟩ := Option.map_eq_some_iff.mp h
  have hmem := (List.mem_filter.mp (List.argmin_mem hmin)).1
  have hentry := Std.TreeMap.mem_toList_iff_getElem?_eq_some.mp hmem
  rw [Std.TreeMap.size_erase, if_pos]
  rw [Std.TreeMap.contains_eq_isSome_getElem?, hentry]
  rfl

/-- The exit of the loop. -/
def Trimmed (isIdle : E → Bool) (cap : ℕ) (entries : Std.TreeMap Text E) : Prop :=
  entries.size ≤ cap ∨ ∀ (key : Text) entry, entries[key]? = some entry → isIdle entry = false

theorem trimmed_evictOldestIdleHosts {cap fuel : ℕ} (hfuel : entries.size ≤ fuel) :
    Trimmed isIdle cap (evictOldestIdleHosts isIdle lastUsedAt cap fuel entries) := by
  induction fuel generalizing entries with
  | zero => exact .inl (hfuel.trans (Nat.zero_le cap))
  | succ fuel ih =>
    unfold evictOldestIdleHosts
    split_ifs with hsize
    · cases hkey : oldestIdleHost isIdle lastUsedAt entries with
      | none => exact .inr (oldestIdleHost_eq_none hkey)
      | some key =>
        apply ih
        rw [size_erase_oldestIdleHost hkey]
        omega
    · exact .inl (Nat.le_of_not_lt hsize)

theorem Trimmed.size_le {cap : ℕ} (h : Trimmed isIdle cap entries) :
    entries.size ≤ max cap (Table.count (fun entry ↦ !isIdle entry) entries) := by
  rcases h with hsmall | hbusy
  · exact hsmall.trans (le_max_left _ _)
  · have hcount := Table.size_eq_count (t := entries) (p := fun entry ↦ !isIdle entry) <| by
      intro host entry hentry
      rw [hbusy host entry hentry]
      rfl
    exact hcount.le.trans (le_max_right _ _)

variable (isIdle lastUsedAt)

theorem size_cleanupStalePerHostLimiters (entries : Std.TreeMap Text E)
    (now entryTtl maxEntries : ℕ) :
    (cleanupStalePerHostLimiters isIdle lastUsedAt entries now entryTtl maxEntries).size ≤
      max maxEntries (Table.count (fun entry ↦ !isIdle entry)
        (cleanupStalePerHostLimiters isIdle lastUsedAt entries now entryTtl maxEntries)) :=
  (trimmed_evictOldestIdleHosts le_rfl).size_le

end Eviction

end Driver

/-! ## Rate limits -/

namespace RateLimit

namespace TokenBucket

variable {b : TokenBucket} {now : ℕ}

section Arithmetic

variable [TokenArithmetic]

/-- At this time the bucket is not full, or it is still throttled. -/
def isBusy (now : ℕ) (b : TokenBucket) : Bool := !(b.refill now).isIdle now

theorem refill_of_le (h : now ≤ b.lastRefillAt) : b.refill now = b := if_pos h

theorem le_lastRefillAt_refill (b : TokenBucket) (now : ℕ) : now ≤ (b.refill now).lastRefillAt := by
  unfold refill
  split_ifs with hle
  · exact hle
  · exact le_rfl

@[simp] theorem refill_refill (b : TokenBucket) (now : ℕ) :
    (b.refill now).refill now = b.refill now :=
  refill_of_le (b.le_lastRefillAt_refill now)

@[simp] theorem refill_policy (b : TokenBucket) (now : ℕ) : (b.refill now).policy = b.policy := by
  unfold refill
  split_ifs <;> rfl

@[simp] theorem isBusy_refill (b : TokenBucket) (now : ℕ) :
    (b.refill now).isBusy now = b.isBusy now := by
  rw [isBusy, refill_refill, isBusy]

end Arithmetic

theorem isBusy_consume (hburst : 0 < b.policy.burst) (h : b.isBusy now = true) :
    (b.refill now).consumeReadyToken.isBusy now = true := by
  have hrefill : (b.refill now).consumeReadyToken.refill now = (b.refill now).consumeReadyToken :=
    refill_of_le (b.le_lastRefillAt_refill now)
  rw [isBusy, Bool.not_eq_true', Bool.eq_false_iff] at h ⊢
  rw [hrefill]
  intro hidle
  apply h
  simp only [isIdle, consumeReadyToken, isThrottled, refill_policy, Bool.and_eq_true,
    decide_eq_true_eq, le_max_iff, rounded_exact] at hidle ⊢
  obtain ⟨hfull | hzero, hfree⟩ := hidle
  · exact ⟨by linarith, hfree⟩
  · have hpos : (0 : ℚ) < b.policy.burst := by exact_mod_cast hburst
    exact absurd hzero hpos.not_ge

theorem isBusy_of_throttled {until_ : ℕ} (hthrottle : b.throttleUntil = some until_)
    (hlater : now < until_) : b.isBusy now = true := by
  have hheld : (b.refill now).throttleUntil = some until_ := by
    unfold refill
    split_ifs
    · exact hthrottle
    · simp [hthrottle, hlater]
  simp [isBusy, isIdle, isThrottled, hheld, hlater]

theorem isBusy_applyThrottle (instantMax delay : ℕ) (h : b.isBusy now = true) :
    (b.applyThrottle instantMax now delay).isBusy now = true := by
  unfold applyThrottle
  dsimp only
  split_ifs with hzero
  · exact h
  · exact h
  · refine isBusy_of_throttled rfl ?_
    split <;> omega

end TokenBucket

variable {now : ℕ} {before cleaned after : Entries}

section Arithmetic

variable [TokenArithmetic]

def PerHostRateLimitEntry.isBusy (now : ℕ) (entry : PerHostRateLimitEntry) : Bool :=
  entry.bucket.isBusy now

def PerHostRateLimitEntry.refill (now : ℕ) (entry : PerHostRateLimitEntry) :
    PerHostRateLimitEntry :=
  { entry with bucket := entry.bucket.refill now }

@[simp] theorem PerHostRateLimitEntry.isBusy_refill (now : ℕ) (entry : PerHostRateLimitEntry) :
    (entry.refill now).isBusy now = entry.isBusy now :=
  entry.bucket.isBusy_refill now

theorem PerHostRateLimitEntry.isBusy_eq (now : ℕ) (entry : PerHostRateLimitEntry) :
    entry.isBusy now = !(entry.refill now).bucket.isIdle now := rfl

/-- The second table has the same entries in use as the first. -/
structure Entries.Cleaned (now : ℕ) (before after : Entries) : Prop where
  kept : Table.Carries (PerHostRateLimitEntry.isBusy now) (PerHostRateLimitEntry.isBusy now)
    before after
  known : Table.Carries (PerHostRateLimitEntry.isBusy now) (PerHostRateLimitEntry.isBusy now)
    after before
  size_le : after.size ≤
    max perHostRateLimitMaxEntries (Table.count (PerHostRateLimitEntry.isBusy now) after)

theorem evictOldestIdle_eq (now fuel : ℕ) (entries : Entries) :
    evictOldestIdle now fuel entries = Driver.evictOldestIdleHosts
      (fun entry ↦ entry.bucket.isIdle now) PerHostRateLimitEntry.lastUsedAt
      perHostRateLimitMaxEntries fuel entries := by
  induction fuel generalizing entries with
  | zero => rfl
  | succ fuel ih =>
    simp only [evictOldestIdle, Driver.evictOldestIdleHosts, ih]
    rfl

theorem evictsIdle_cleanupStale (entries : Entries) (now : ℕ) :
    Driver.EvictsIdle (fun entry ↦ entry.bucket.isIdle now)
      (entries.filterMap fun _ entry ↦ retainEntry now entry)
      (cleanupStalePerHostRateLimits entries now) := by
  rw [cleanupStalePerHostRateLimits, evictOldestIdle_eq]
  exact Driver.evictsIdle_evictOldestIdleHosts _ _ _

theorem retainEntry_of_isBusy {entry : PerHostRateLimitEntry} (h : entry.isBusy now = true) :
    retainEntry now entry = some (entry.refill now) := by
  have hbusy : (!(entry.bucket.refill now).isIdle now) = true := h
  simp only [retainEntry, hbusy, Bool.true_or, if_true]
  rfl

theorem eq_refill_of_retainEntry {entry entry' : PerHostRateLimitEntry}
    (h : retainEntry now entry = some entry') : entry' = entry.refill now := by
  unfold retainEntry at h
  dsimp only at h
  split_ifs at h
  exact (Option.some.inj h).symm

theorem getElem?_cleanupStale {entries : Entries} {key : Text} {entry' : PerHostRateLimitEntry}
    (h : (cleanupStalePerHostRateLimits entries now)[key]? = some entry') :
    ∃ entry, entries[key]? = some entry ∧ entry' = entry.refill now := by
  rcases evictsIdle_cleanupStale entries now key with heq | ⟨hnone, -⟩
  · rw [heq, Std.TreeMap.getElem?_filterMap', Option.bind_eq_some_iff] at h
    obtain ⟨entry, hentry, hretain⟩ := h
    exact ⟨entry, hentry, eq_refill_of_retainEntry hretain⟩
  · rw [hnone] at h
    cases h

theorem cleaned_cleanupStale (entries : Entries) (now : ℕ) :
    Entries.Cleaned now entries (cleanupStalePerHostRateLimits entries now) where
  kept := by
    intro key entry hentry hbusy
    have hretained : (entries.filterMap fun _ entry ↦ retainEntry now entry)[key]? =
        some (entry.refill now) := by
      rw [Std.TreeMap.getElem?_filterMap', hentry]
      exact retainEntry_of_isBusy hbusy
    rcases evictsIdle_cleanupStale entries now key with heq | ⟨-, old, hold, hidle⟩
    · exact ⟨entry.refill now, heq.trans hretained, (entry.isBusy_refill now).trans hbusy⟩
    · obtain rfl : entry.refill now = old := Option.some.inj (hretained.symm.trans hold)
      have hidle' : (entry.refill now).bucket.isIdle now = true := hidle
      rw [PerHostRateLimitEntry.isBusy_eq, hidle'] at hbusy
      cases hbusy
  known := by
    intro key entry' hentry' hbusy
    obtain ⟨entry, hentry, rfl⟩ := getElem?_cleanupStale hentry'
    exact ⟨entry, hentry, (entry.isBusy_refill now).symm.trans hbusy⟩
  size_le := by
    have htrimmed : Driver.Trimmed (fun entry ↦ entry.bucket.isIdle now)
        perHostRateLimitMaxEntries (cleanupStalePerHostRateLimits entries now) := by
      rw [cleanupStalePerHostRateLimits, evictOldestIdle_eq]
      exact Driver.trimmed_evictOldestIdleHosts le_rfl
    refine htrimmed.size_le.trans (max_le_max le_rfl (Table.Carries.count_le ?_))
    -- The loop looks at buckets that the cleanup has refilled.
    intro key entry' hentry' hbusy
    refine ⟨entry', hentry', ?_⟩
    obtain ⟨entry, -, rfl⟩ := getElem?_cleanupStale hentry'
    rwa [PerHostRateLimitEntry.isBusy_refill, PerHostRateLimitEntry.isBusy_eq]

theorem cleaned_maybeCleanup (l : RateLimiter) (now : ℕ) :
    Entries.Cleaned now l.perHost (l.maybeCleanupStalePerHostRateLimits now).perHost := by
  unfold RateLimiter.maybeCleanupStalePerHostRateLimits
  dsimp only
  split_ifs with hdue
  · exact cleaned_cleanupStale _ _
  · have hsmall : l.perHost.size ≤ perHostRateLimitMaxEntries := by
      rw [not_or, not_lt] at hdue
      exact hdue.1
    exact ⟨fun _ entry hentry hbusy ↦ ⟨entry, hentry, hbusy⟩,
      fun _ entry hentry hbusy ↦ ⟨entry, hentry, hbusy⟩, hsmall.trans (le_max_left _ _)⟩

end Arithmetic

/-- At most one entry was added or changed, and no entry went out of use. -/
def Entries.Touched (now : ℕ) (before after : Entries) : Prop :=
  after.size ≤ before.size + 1 ∧
    Table.Carries (PerHostRateLimitEntry.isBusy now) (PerHostRateLimitEntry.isBusy now)
      before after

theorem Entries.touched_refl (now : ℕ) (entries : Entries) : entries.Touched now entries :=
  ⟨Nat.le_succ _, fun _ entry hentry hbusy ↦ ⟨entry, hentry, hbusy⟩⟩

theorem Entries.touched_insert {entries : Entries} {key : Text} {bucket : TokenBucket}
    (h : ∀ entry, entries[key]? = some entry → entry.isBusy now = true →
      bucket.isBusy now = true) (lastUsedAt : ℕ) :
    entries.Touched now (entries.insert key ⟨bucket, lastUsedAt⟩) :=
  ⟨Std.TreeMap.size_insert_le, Table.carries_insert h fun _ hbusy ↦ hbusy⟩

/-- The table was cleaned up, or small, before an entry was touched. -/
def Entries.Used (now : ℕ) (before after : Entries) : Prop :=
  ∃ cleaned, Entries.Cleaned now before cleaned ∧ Entries.Touched now cleaned after

section Operations

variable {l : RateLimiter}

theorem touched_updateLocked {f : TokenBucket → TokenBucket}
    (h : ∀ (key : Text) entry, l.perHost[key]? = some entry → entry.isBusy now = true →
      (f entry.bucket).isBusy now = true) (hostKey : Option Text) :
    l.perHost.Touched now (l.updateLocked hostKey now f).perHost := by
  unfold RateLimiter.updateLocked
  dsimp only
  split
  next policy key _ =>
    apply Entries.touched_insert
    intro entry hentry hbusy
    rw [RateLimiter.hostBucket, hentry]
    exact h key entry hentry hbusy
  · exact Entries.touched_refl _ _

theorem touched_acquireLocked
    (hburst : ∀ (key : Text) entry, l.perHost[key]? = some entry → 0 < entry.bucket.policy.burst)
    (host : Option Text) : l.perHost.Touched now (l.acquireLocked host now).2.perHost := by
  unfold RateLimiter.acquireLocked
  dsimp only
  split_ifs
  · apply touched_updateLocked
    intro key entry hentry hbusy
    exact TokenBucket.isBusy_consume (hburst key entry hentry) hbusy
  · apply touched_updateLocked
    intro key entry _ hbusy
    rw [TokenBucket.Sound.waitDuration_snd, TokenBucket.canConsumeNow, TokenBucket.isBusy_refill,
      TokenBucket.isBusy_refill]
    exact hbusy

theorem touched_throttled (hostPolicy : RateLimitPolicy) (key : Text) (delay : ℕ) :
    l.perHost.Touched now (l.storeHost key
      ((l.hostBucket hostPolicy key now).applyThrottle l.instantMax now delay) now).perHost := by
  apply Entries.touched_insert
  intro entry hentry hbusy
  rw [RateLimiter.hostBucket, hentry]
  exact TokenBucket.isBusy_applyThrottle _ _ hbusy

end Operations

theorem acquireLocked_perHost {l : RateLimiter} (h : l.perHostPolicy = none) (host : Option Text)
    (now : ℕ) : (l.acquireLocked host now).2.perHost = l.perHost := by
  unfold RateLimiter.acquireLocked RateLimiter.updateLocked
  simp only [h]
  split_ifs <;> rfl

/-- The call locks the table of the hosts. -/
def RateLimiter.usesPerHost (l : RateLimiter) : Call → Bool
  | .acquireDelay _ => l.perHostPolicy.isSome
  | .observeServerThrottle host delay configuredScope headerScopeHint =>
    let hostKey := host.bind normalizeHostKey
    let resolvedScope := resolveServerThrottleScope configuredScope headerScopeHint
      hostKey.isSome l.global.isSome l.perHostPolicy.isSome
    decide (delay ≠ 0) && resolvedScope.applyHost && l.perHostPolicy.isSome && hostKey.isSome

theorem machine_step_acquireDelay (l : RateLimiter) (now : ℕ) (host : Option Text) :
    (RateLimiter.machine.step l (now, .acquireDelay host)).2 =
      ((if l.perHostPolicy.isSome then l.maybeCleanupStalePerHostRateLimits now
        else l).acquireLocked host now).2 := rfl

theorem machine_step_observe (l : RateLimiter) (now : ℕ) (host : Option Text) (delay : ℕ)
    (configuredScope : ServerThrottleScope) (headerScopeHint : Option ServerThrottleScope) :
    (RateLimiter.machine.step l
        (now, .observeServerThrottle host delay configuredScope headerScopeHint)).2 =
      let resolvedScope := resolveServerThrottleScope configuredScope headerScopeHint
        (host.bind normalizeHostKey).isSome l.global.isSome l.perHostPolicy.isSome
      if delay = 0 then l
      else (l.throttleGlobal resolvedScope delay now).throttleHostWith
        RateLimiter.maybeCleanupStalePerHostRateLimits resolvedScope (host.bind normalizeHostKey)
        delay now := rfl

@[simp] theorem throttleGlobal_perHost (l : RateLimiter) (scope : ServerThrottleScope)
    (delay now : ℕ) : (l.throttleGlobal scope delay now).perHost = l.perHost := by
  unfold RateLimiter.throttleGlobal
  split_ifs <;> rfl

@[simp] theorem throttleGlobal_perHostPolicy (l : RateLimiter) (scope : ServerThrottleScope)
    (delay now : ℕ) : (l.throttleGlobal scope delay now).perHostPolicy = l.perHostPolicy := by
  unfold RateLimiter.throttleGlobal
  split_ifs <;> rfl

theorem throttleHost_perHost (l : RateLimiter) (scope : ServerThrottleScope) (hostKey : Option Text)
    (delay now : ℕ) :
    let after := (l.throttleHostWith RateLimiter.maybeCleanupStalePerHostRateLimits scope hostKey
      delay now).perHost
    ((scope.applyHost && l.perHostPolicy.isSome && hostKey.isSome) = true →
      l.perHost.Used now after) ∧
    ((scope.applyHost && l.perHostPolicy.isSome && hostKey.isSome) = false →
      after = l.perHost) := by
  unfold RateLimiter.throttleHostWith
  cases hpolicy : l.perHostPolicy with
  | none => simp
  | some policy =>
    cases hostKey with
    | none => simp
    | some key =>
      cases happlies : scope.applyHost with
      | false => simp
      | true =>
        refine ⟨fun _ ↦ ?_, fun hunused ↦ ?_⟩
        · exact ⟨_, cleaned_maybeCleanup l now, touched_throttled policy key delay⟩
        · cases hunused

/-- A call leaves the table alone, or cleans it up before it touches an entry. -/
theorem step_perHost {L : Limits} {l : RateLimiter} {σ : Ledger} (hL : L.Valid) (h : Refines L l σ)
    {call : ℕ × Call} (hlater : σ.time ≤ call.1) :
    let after := (RateLimiter.machine.step l call).2.perHost
    (l.usesPerHost call.2 = true → l.perHost.Used call.1 after) ∧
      (l.usesPerHost call.2 = false → after = l.perHost) := by
  obtain ⟨now, call⟩ := call
  cases call with
  | acquireDelay host =>
    have hrefines := transparent_maybeCleanup hL l (σ.upTo L now) (h.upTo hL hlater)
    rw [machine_step_acquireDelay]
    cases hpolicy : l.perHostPolicy with
    | none =>
      refine ⟨fun huses ↦ ?_, fun _ ↦ acquireLocked_perHost hpolicy host now⟩
      simp [RateLimiter.usesPerHost, hpolicy] at huses
    | some policy =>
      refine ⟨fun _ ↦ ?_, fun hunused ↦ ?_⟩
      · refine ⟨_, cleaned_maybeCleanup l now, touched_acquireLocked ?_ host⟩
        intro key entry hentry
        have hp := h.perHostPolicy_eq.symm.trans hpolicy
        rw [(hrefines.entries_sound hp key entry hentry).policy_eq]
        exact ((RateLimitPolicy.validate_eq_ok_iff policy).mp (hL (.host key) policy hp)).2
      · simp [RateLimiter.usesPerHost, hpolicy] at hunused
  | observeServerThrottle host delay configuredScope headerScopeHint =>
    rw [machine_step_observe]
    dsimp only [RateLimiter.usesPerHost]
    generalize resolveServerThrottleScope _ _ _ _ _ = scope
    by_cases hdelay : delay = 0
    · simp [hdelay]
    · have hthrottle := throttleHost_perHost (l.throttleGlobal scope delay now) scope
        (host.bind normalizeHostKey) delay now
      rw [throttleGlobal_perHost, throttleGlobal_perHostPolicy] at hthrottle
      simpa [hdelay] using hthrottle

namespace Entries.Used

variable (h : before.Used now after)

include h

theorem kept : Table.Carries (PerHostRateLimitEntry.isBusy now) (PerHostRateLimitEntry.isBusy now)
    before after := by
  obtain ⟨cleaned, hclean, -, htouched⟩ := h
  exact hclean.kept.trans htouched

theorem size_le : after.size ≤ max perHostRateLimitMaxEntries
    (Table.count (PerHostRateLimitEntry.isBusy now) before) + 1 := by
  obtain ⟨cleaned, hclean, hsize, -⟩ := h
  have hbound := hclean.size_le.trans (max_le_max le_rfl hclean.known.count_le)
  exact hsize.trans (Nat.succ_le_succ hbound)

end Entries.Used

end RateLimit

/-! ## Concurrency limits -/

namespace Driver

variable {limit : ℕ} {s : HostLimiters}

/-- A permit of the semaphore is out, or a call holds a handle to it. -/
def PerHostLimiterEntry.isHeld (s : HostLimiters) (entry : PerHostLimiterEntry) : Bool :=
  decide (0 < s.outstanding entry.semaphore ∨ 0 < s.handles entry.semaphore)

namespace HostLimiters

variable {entry : PerHostLimiterEntry}

theorem Counted.isIdle_eq (h : Counted limit s) {host : Text}
    (hentry : s.perHost[host]? = some entry) : entry.isIdle s.heap = !entry.isHeld s := by
  obtain ⟨hlimit, cell, hcell, rfl⟩ := h.entries host entry hentry
  obtain ⟨hpermits, howners, -⟩ := h.cells entry.semaphore cell hcell
  have hin : InTable s.perHost entry.semaphore cell.host := by
    rw [InTable, hentry]
    rfl
  rw [if_pos hin] at howners
  rw [PerHostLimiterEntry.isIdle, hcell, PerHostLimiterEntry.isHeld, Bool.eq_iff_iff]
  simp only [Bool.and_eq_true, beq_iff_eq, Bool.not_eq_true', decide_eq_false_iff_not]
  omega

/-! ### The lookup -/

theorem evictsIdle_perHost_cleanup (s : HostLimiters) (now : ℕ) :
    EvictsIdle (PerHostLimiterEntry.isIdle s.heap) s.perHost (s.cleanup now).perHost :=
  evictsIdle_cleanup _ _ _

theorem Counted.cleanup_keeps (h : Counted limit s) (now : ℕ) {host : Text}
    (hentry : s.perHost[host]? = some entry) (hheld : entry.isHeld s = true) :
    (s.cleanup now).perHost[host]? = some entry := by
  rcases s.evictsIdle_perHost_cleanup now host with heq | ⟨-, old, hold, hidle⟩
  · exact heq.trans hentry
  · obtain rfl : entry = old := Option.some.inj (hentry.symm.trans hold)
    rw [h.isIdle_eq hentry, hheld] at hidle
    cases hidle

theorem Counted.size_cleanup_le (h : Counted limit s) (now : ℕ) :
    (s.cleanup now).perHost.size ≤
      max perHostLimiterMaxEntries (Table.count (PerHostLimiterEntry.isHeld s) s.perHost) := by
  have hsize := size_cleanupStalePerHostLimiters (PerHostLimiterEntry.isIdle s.heap)
    PerHostLimiterEntry.lastUsedAt s.perHost now perHostLimiterEntryTtl perHostLimiterMaxEntries
  refine hsize.trans (max_le_max le_rfl (Table.Carries.count_le ?_))
  intro host entry hentry hbusy
  rcases s.evictsIdle_perHost_cleanup now host with heq | ⟨hnone, -⟩
  · have hbefore : s.perHost[host]? = some entry := heq.symm.trans hentry
    have hheld : (!entry.isIdle s.heap) = true := hbusy
    rw [h.isIdle_eq hbefore, Bool.not_not] at hheld
    exact ⟨entry, hbefore, hheld⟩
  · cases hnone.symm.trans hentry

theorem useEntry_keeps (s : HostLimiters) (host : Text) (limit now : ℕ) {other : Text}
    (hentry : s.perHost[other]? = some entry) :
    ∃ entry', (s.useEntry host limit now).2.perHost[other]? = some entry' ∧
      entry'.semaphore = entry.semaphore := by
  unfold useEntry
  split
  next old hold =>
    simp only [Std.TreeMap.getElem?_insert]
    split_ifs with heq
    · obtain rfl : host = other := Std.compare_eq_iff_eq.mp heq
      obtain rfl : entry = old := Option.some.inj (hentry.symm.trans hold)
      exact ⟨_, rfl, rfl⟩
    · exact ⟨entry, hentry, rfl⟩
  next hnone =>
    simp only [Std.TreeMap.getElem?_insert]
    split_ifs with heq
    · obtain rfl : host = other := Std.compare_eq_iff_eq.mp heq
      cases hnone.symm.trans hentry
    · exact ⟨entry, hentry, rfl⟩

theorem size_useEntry_le (s : HostLimiters) (host : Text) (limit now : ℕ) :
    (s.useEntry host limit now).2.perHost.size ≤ s.perHost.size + 1 := by
  unfold useEntry
  split <;> exact Std.TreeMap.size_insert_le

theorem useEntry_calls (s : HostLimiters) (host : Text) (limit now : ℕ) :
    (s.useEntry host limit now).2.calls = s.calls := by
  unfold useEntry
  split <;> rfl

theorem tryAcquire_perHost (s : HostLimiters) (semaphore : ℕ) (deadlineAt : Option ℕ) :
    (s.tryAcquire semaphore deadlineAt).perHost = s.perHost := by
  unfold tryAcquire
  split
  · rfl
  · split_ifs <;> rfl

theorem tryAcquire_calls (s : HostLimiters) (semaphore : ℕ) (deadlineAt : Option ℕ) :
    s.calls <+: (s.tryAcquire semaphore deadlineAt).calls := by
  unfold tryAcquire
  split
  · exact List.prefix_rfl
  · split_ifs <;> exact List.prefix_append _ _

theorem isHeld_of_calls {s s' : HostLimiters} (h : s.calls <+: s'.calls)
    {entry entry' : PerHostLimiterEntry} (hsame : entry'.semaphore = entry.semaphore)
    (hheld : entry.isHeld s = true) : entry'.isHeld s' = true := by
  obtain ⟨rest, hrest⟩ := h
  rw [PerHostLimiterEntry.isHeld, decide_eq_true_iff] at hheld ⊢
  simp only [outstanding, handles, hsame, ← hrest, Shares.total_append] at hheld ⊢
  omega

/-- What a lookup of `key` does to the table. -/
structure LookedUp (s after : HostLimiters) : Prop where
  kept : ∀ (host : Text) (entry : PerHostLimiterEntry), s.perHost[host]? = some entry →
    entry.isHeld s = true →
      ∃ entry', after.perHost[host]? = some entry' ∧ entry'.semaphore = entry.semaphore
  calls : s.calls <+: after.calls
  size_le : after.perHost.size ≤
    max perHostLimiterMaxEntries (Table.count (PerHostLimiterEntry.isHeld s) s.perHost) + 1

theorem Counted.lookedUp (h : Counted limit s) (key : Text) (semaphore : ℕ) (deadlineAt : Option ℕ)
    (now : ℕ) :
    LookedUp s (((s.cleanup now).useEntry key limit now).2.tryAcquire semaphore deadlineAt) where
  kept host entry hentry hheld := by
    rw [tryAcquire_perHost]
    exact useEntry_keeps _ _ _ _ (h.cleanup_keeps now hentry hheld)
  calls := by
    have hcalls := tryAcquire_calls ((s.cleanup now).useEntry key limit now).2 semaphore deadlineAt
    rwa [useEntry_calls] at hcalls
  size_le := by
    rw [tryAcquire_perHost]
    exact (size_useEntry_le _ _ _ _).trans (Nat.succ_le_succ (h.size_cleanup_le now))

theorem LookedUp.carries {after : HostLimiters} (h : LookedUp s after) :
    Table.Carries (PerHostLimiterEntry.isHeld s) (PerHostLimiterEntry.isHeld after)
      s.perHost after.perHost := by
  intro host entry hentry hheld
  obtain ⟨entry', hentry', hsame⟩ := h.kept host entry hentry hheld
  exact ⟨entry', hentry', isHeld_of_calls h.calls hsame hheld⟩

variable (rt : Runtime) {hostLimit : HostLimit}

theorem Counted.acquireHost_lookedUp (h : Counted hostLimit.permits s) {host : Option Text}
    (hkey : (host.bind normalizeHostKey).isSome) (deadlineAt : Option ℕ) (now : ℕ) :
    LookedUp s (s.step rt (some hostLimit) (.acquireHost host deadlineAt now)) := by
  obtain ⟨key, hkey⟩ := Option.isSome_iff_exists.mp hkey
  simp only [HostLimiters.step, acquireHost, hkey]
  exact h.lookedUp key _ deadlineAt now

/-- Only a lookup changes the table. -/
theorem step_perHost_eq {action : HostLimiterAction}
    (h : ∀ host deadlineAt now, action = .acquireHost host deadlineAt now →
      host.bind normalizeHostKey = none) :
    (s.step rt (some hostLimit) action).perHost = s.perHost := by
  cases action with
  | acquireHost host deadlineAt now =>
    simp only [step, acquireHost, h host deadlineAt now rfl]
  | poll call now =>
    simp only [step, poll]
    repeat' split
    all_goals rfl
  | deliver call =>
    simp only [step, deliver]
    repeat' split
    all_goals rfl
  | cancel call =>
    simp only [step, cancel]
    split <;> rfl
  | releasePermit call =>
    simp only [step, releasePermit]
    split <;> rfl
  | dropHandle call =>
    simp only [step, dropHandle]
    split <;> rfl

theorem Counted.step_keeps (h : Counted hostLimit.permits s) (action : HostLimiterAction)
    {host : Text} (hentry : s.perHost[host]? = some entry) (hheld : entry.isHeld s = true) :
    ∃ entry', (s.step rt (some hostLimit) action).perHost[host]? = some entry' ∧
      entry'.semaphore = entry.semaphore := by
  by_cases hlookup : ∃ host deadlineAt now, action = .acquireHost host deadlineAt now ∧
      (host.bind normalizeHostKey).isSome
  · obtain ⟨host', deadlineAt, now, rfl, hkey⟩ := hlookup
    exact (h.acquireHost_lookedUp rt hkey deadlineAt now).kept host entry hentry hheld
  · rw [step_perHost_eq]
    · exact ⟨entry, hentry, rfl⟩
    · rintro host' deadlineAt now rfl
      rw [← Option.not_isSome_iff_eq_none]
      exact fun hkey ↦ hlookup ⟨host', deadlineAt, now, rfl, hkey⟩

end HostLimiters

end Driver

/-! ## Both tables -/

open RateLimit Driver in
/-- After every use of a table its size is bounded by its capacity, or by the number of entries in
use before or after, and one; and no entry in use is removed. -/
theorem per_host_tables_bounded {L : Limits} (hL : L.Valid) {created : ℕ} {l : RateLimiter}
    (hnew : RateLimiter.new L.global L.perHost L.instantMax created = some l)
    (calls : List (ℕ × Call)) (call : ℕ × Call)
    (hclock : List.IsChain (· ≤ ·) (created :: (calls ++ [call]).map Prod.fst)) (rt : Runtime)
    (limit : HostLimit) (actions : List HostLimiterAction) :
    (let before := RateLimiter.machine.final l calls
     let after := RateLimiter.machine.final l (calls ++ [call])
     let busy := fun entries : Entries ↦
       Table.count (PerHostRateLimitEntry.isBusy call.1) entries
     (before.usesPerHost call.2 = true →
        after.perHost.size ≤ max perHostRateLimitMaxEntries (busy before.perHost) + 1 ∧
        after.perHost.size ≤ max perHostRateLimitMaxEntries (busy after.perHost) + 1) ∧
      ∀ (key : Text) entry, before.perHost[key]? = some entry → entry.isBusy call.1 = true →
        ∃ entry', after.perHost[key]? = some entry' ∧ entry'.isBusy call.1 = true) ∧
    (let before := HostLimiters.run rt (some limit) actions
     let held := fun s : HostLimiters ↦ Table.count (PerHostLimiterEntry.isHeld s) s.perHost
     (∀ host deadlineAt now, (host.bind normalizeHostKey).isSome →
        let after := HostLimiters.run rt (some limit)
          (actions ++ [.acquireHost host deadlineAt now])
        after.perHost.size ≤ max perHostLimiterMaxEntries (held before) + 1 ∧
        after.perHost.size ≤ max perHostLimiterMaxEntries (held after) + 1) ∧
      ∀ action (host : Text) entry, before.perHost[host]? = some entry →
        entry.isHeld before = true →
          ∃ entry', (HostLimiters.run rt (some limit) (actions ++ [action])).perHost[host]? =
            some entry' ∧ entry'.semaphore = entry.semaphore) := by
  constructor
  · have hcalls := Ledger.admits_later (L := L) (σ := .opened L created) hclock
    obtain ⟨hbefore, hlater, -⟩ := Machine.admits_append.mp hcalls
    have hreached := (simulates_ledger hL (transparent_maybeCleanup hL)).final
      (refines_new hnew) hbefore
    obtain ⟨hused, hunused⟩ := step_perHost hL hreached hlater
    dsimp only
    rw [Machine.final_concat]
    refine ⟨fun huses ↦ ?_, ?_⟩
    · have hsize := (hused huses).size_le
      have hmono := (hused huses).kept.count_le
      exact ⟨hsize, hsize.trans (Nat.succ_le_succ (max_le_max le_rfl hmono))⟩
    · cases huses : (RateLimiter.machine.final l calls).usesPerHost call.2 with
      | true => exact (hused huses).kept
      | false =>
        intro key entry hentry hbusy
        exact ⟨entry, (hunused huses).symm ▸ hentry, hbusy⟩
  · have hcounted := HostLimiters.counted_run rt limit actions
    have hconcat (action : HostLimiterAction) :
        HostLimiters.run rt (some limit) (actions ++ [action]) =
          (HostLimiters.run rt (some limit) actions).step rt (some limit) action := by
      rw [HostLimiters.run, List.foldl_append]
      rfl
    refine ⟨fun host deadlineAt now hkey ↦ ?_, fun action host entry hentry hheld ↦ ?_⟩
    · dsimp only
      rw [hconcat]
      have hlookup := hcounted.acquireHost_lookedUp rt hkey deadlineAt now
      have hmono := hlookup.carries.count_le
      exact ⟨hlookup.size_le, hlookup.size_le.trans (Nat.succ_le_succ (max_le_max le_rfl hmono))⟩
    · rw [hconcat]
      exact hcounted.step_keeps rt action hentry hheld

open RateLimit Driver in
theorem per_host_tables_bounded_two_hosts :
    (RateLimiter.machine.final .standard
        [(0, .acquireDelay hostA), (1, .acquireDelay hostB)]).perHost.size = 2 ∧
      (HostLimiters.run .async (some ⟨1, by decide⟩)
        [.acquireHost hostA none 0, .acquireHost hostB none 0]).perHost.size ≤
          max perHostLimiterMaxEntries (Table.count (PerHostLimiterEntry.isHeld
            (HostLimiters.run .async (some ⟨1, by decide⟩) [.acquireHost hostA none 0]))
            (HostLimiters.run .async (some ⟨1, by decide⟩)
              [.acquireHost hostA none 0]).perHost) + 1 := by
  have hbounded := per_host_tables_bounded Limits.standard_valid RateLimiter.new_standard
    [(0, .acquireDelay hostA)] (1, .acquireDelay hostB) (by decide) .async ⟨1, by decide⟩
    [.acquireHost hostA none 0]
  exact ⟨by decide +kernel, (hbounded.2.1 hostB none 0 (by decide +kernel)).1⟩

end Reqx
