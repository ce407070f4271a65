import Reqx.Driver.HostTables

/-!
# What a cleanup of a per-host table removes

The first phase drops the idle entries that are too old. The second is a loop that
deletes the oldest idle entry while the table is too large: what it has deleted so far
is older than all that is idle and left, and it stops at the cap.
-/

namespace Reqx.Driver

section Loop

variable {E : Type} {isIdle : E → Bool} {lastUsedAt : E → ℕ} {cap : ℕ}
  {before middle after entries : Std.TreeMap Text E}

/-- The loop of a cleanup may lead from the one table to the other. -/
structure Evicts (isIdle : E → Bool) (lastUsedAt : E → ℕ) (cap : ℕ)
    (before after : Std.TreeMap Text E) : Prop where
  kept : ∀ (key : Text) entry, after[key]? = some entry → before[key]? = some entry
  idle : ∀ (key : Text) entry, before[key]? = some entry → after[key]? = none →
    isIdle entry = true
  oldest : ∀ (key : Text) entry, before[key]? = some entry → after[key]? = none →
    ∀ (key' : Text) entry', after[key']? = some entry' → isIdle entry' = true →
      lastUsedAt entry ≤ lastUsedAt entry'
  stops : before.size ≤ cap → after = before
  enough : cap ≤ before.size → cap ≤ after.size

theorem Evicts.refl (entries : Std.TreeMap Text E) :
    Evicts isIdle lastUsedAt cap entries entries := by
  have hstays : ∀ (key : Text) entry, entries[key]? = some entry → entries[key]? ≠ none :=
    fun key entry hentry hnone ↦ Option.some_ne_none entry (hentry.symm.trans hnone)
  exact ⟨fun _ _ hentry ↦ hentry,
    fun key entry hentry hnone ↦ absurd hnone (hstays key entry hentry),
    fun key entry hentry hnone ↦ absurd hnone (hstays key entry hentry),
    fun _ ↦ rfl, fun hsize ↦ hsize⟩

/-- The choice of `min_by_key`. -/
theorem oldestIdleHost_eq_some {key : Text}
    (h : oldestIdleHost isIdle lastUsedAt entries = some key) :
    ∃ entry, entries[key]? = some entry ∧ isIdle entry = true ∧
      ∀ (key' : Text) entry', entries[key']? = some entry' → isIdle entry' = true →
        lastUsedAt entry ≤ lastUsedAt entry' := by
  obtain ⟨⟨key, entry⟩, hmin, rfl⟩ := Option.map_eq_some_iff.mp h
  obtain ⟨hmem, hidle⟩ := List.mem_filter.mp (List.argmin_mem hmin)
  refine ⟨entry, Std.TreeMap.mem_toList_iff_getElem?_eq_some.mp hmem, hidle, ?_⟩
  intro key' entry' hentry' hidle'
  refine List.le_of_mem_argmin (a := (key', entry')) ?_ hmin
  exact List.mem_filter.mpr ⟨Std.TreeMap.mem_toList_iff_getElem?_eq_some.mpr hentry', hidle'⟩

/-- A round of the loop, followed by the rest of it. -/
theorem Evicts.erase {key : Text} (hcap : cap < entries.size)
    (hkey : oldestIdleHost isIdle lastUsedAt entries = some key)
    (h : Evicts isIdle lastUsedAt cap (entries.erase key) after) :
    Evicts isIdle lastUsedAt cap entries after := by
  obtain ⟨oldest, holdest, hidle, hmin⟩ := oldestIdleHost_eq_some hkey
  have hsub : ∀ (key' : Text) entry', (entries.erase key)[key']? = some entry' →
      entries[key']? = some entry' := by
    intro key' entry' hentry'
    rw [Std.TreeMap.getElem?_erase] at hentry'
    split_ifs at hentry'
    exact hentry'
  have hkept : ∀ (key' : Text) entry', after[key']? = some entry' → entries[key']? = some entry' :=
    fun key' entry' hentry' ↦ hsub key' entry' (h.kept key' entry' hentry')
  -- What is gone in the end went in this round or in a later one.
  have hgone : ∀ (key' : Text) entry', entries[key']? = some entry' →
      entry' = oldest ∨ (entries.erase key)[key']? = some entry' := by
    intro key' entry' hentry'
    by_cases hsame : compare key key' = .eq
    · obtain rfl := Std.compare_eq_iff_eq.mp hsame
      exact .inl (Option.some.inj (hentry'.symm.trans holdest))
    · right
      rw [Std.TreeMap.getElem?_erase, if_neg hsame]
      exact hentry'
  refine ⟨hkept, ?_, ?_, fun hsmall ↦ absurd hcap hsmall.not_gt, fun _ ↦ ?_⟩
  · intro key' entry' hentry' hnone
    rcases hgone key' entry' hentry' with rfl | hlater
    · exact hidle
    · exact h.idle key' entry' hlater hnone
  · intro key' entry' hentry' hnone other entry hentry hidle'
    rcases hgone key' entry' hentry' with rfl | hlater
    · exact hmin other entry (hkept other entry hentry) hidle'
    · exact h.oldest key' entry' hlater hnone other entry hentry hidle'
  · apply h.enough
    rw [size_erase_oldestIdleHost hkey]
    omega

theorem evicts_evictOldestIdleHosts (fuel : ℕ) (entries : Std.TreeMap Text E) :
    Evicts isIdle lastUsedAt cap entries
      (evictOldestIdleHosts isIdle lastUsedAt cap fuel entries) := by
  induction fuel generalizing entries with
  | zero => exact .refl entries
  | succ fuel ih =>
    unfold evictOldestIdleHosts
    split_ifs with hsize
    · cases hkey : oldestIdleHost isIdle lastUsedAt entries with
      | none => exact .refl entries
      | some key => exact (ih (entries.erase key)).erase hsize hkey
    · exact .refl entries

/-- A loop that may go on for longer does nothing more. -/
theorem evictOldestIdleHosts_of_le {fuel : ℕ} (hfuel : entries.size ≤ fuel) :
    evictOldestIdleHosts isIdle lastUsedAt cap fuel entries =
      evictOldestIdleHosts isIdle lastUsedAt cap entries.size entries := by
  induction fuel generalizing entries with
  | zero => rw [Nat.le_zero.mp hfuel]
  | succ fuel ih =>
    rcases Nat.eq_zero_or_pos entries.size with hzero | hpos
    · have hsmall : ¬ entries.size > cap := by omega
      rw [hzero, evictOldestIdleHosts.eq_2, if_neg hsmall]
      rfl
    · obtain ⟨size, hsize⟩ := Nat.exists_eq_succ_of_ne_zero hpos.ne'
      rw [hsize]
      unfold evictOldestIdleHosts
      split_ifs
      · cases hkey : oldestIdleHost isIdle lastUsedAt entries with
        | none => rfl
        | some key =>
          have hless : (entries.erase key).size = size := by
            rw [size_erase_oldestIdleHost hkey, hsize, Nat.succ_sub_one]
          dsimp only
          rw [ih (by omega), hless]
      · rfl

end Loop

/-! ## Both phases -/

section Effect

variable {E : Type}

/-- What a cleanup at a time does to a table whose entries it refreshes first. -/
structure CleanupEffect (isIdle : E → Bool) (lastUsedAt : E → ℕ) (refresh : E → E)
    (now ttl cap : ℕ) (before after : Std.TreeMap Text E) : Prop where
  kept : ∀ (key : Text) entry', after[key]? = some entry' →
    ∃ entry, before[key]? = some entry ∧ entry' = refresh entry
  onlyIdle : ∀ (key : Text) entry, before[key]? = some entry → after[key]? = none →
    isIdle (refresh entry) = true
  stale : ∀ (key : Text) entry, before[key]? = some entry → isIdle (refresh entry) = true →
    ttl < saturatingDurationSince now (lastUsedAt entry) → after[key]? = none
  trimmed : Trimmed isIdle cap after
  oldest : ∀ (key : Text) entry, before[key]? = some entry → after[key]? = none →
    saturatingDurationSince now (lastUsedAt entry) ≤ ttl →
    ∀ (key' : Text) entry', after[key']? = some entry' → isIdle entry' = true →
      lastUsedAt entry ≤ lastUsedAt entry'
  enough : ∀ (key : Text) entry, before[key]? = some entry → after[key]? = none →
    saturatingDurationSince now (lastUsedAt entry) ≤ ttl → cap ≤ after.size

variable {isIdle : E → Bool} {lastUsedAt : E → ℕ} {refresh : E → E} {now ttl cap : ℕ}
  {before retained after : Std.TreeMap Text E}

/-- The first phase leaves the refreshed entries that are not both idle and old. -/
theorem Evicts.cleanupEffect (h : Evicts isIdle lastUsedAt cap retained after)
    (htrimmed : Trimmed isIdle cap after)
    (hlast : ∀ entry, lastUsedAt (refresh entry) = lastUsedAt entry)
    (hretained : ∀ key : Text, retained[key]? = before[key]?.bind fun entry ↦
      if !isIdle (refresh entry) ||
          decide (saturatingDurationSince now (lastUsedAt entry) ≤ ttl) then
        some (refresh entry)
      else none) : CleanupEffect isIdle lastUsedAt refresh now ttl cap before after := by
  have hyoung : ∀ (key : Text) entry, before[key]? = some entry →
      saturatingDurationSince now (lastUsedAt entry) ≤ ttl →
        retained[key]? = some (refresh entry) := by
    intro key entry hentry hle
    rw [hretained, hentry]
    simp [hle]
  refine ⟨?_, ?_, ?_, htrimmed, ?_, ?_⟩
  · intro key entry' hentry'
    have hbefore := h.kept key entry' hentry'
    rw [hretained, Option.bind_eq_some_iff] at hbefore
    obtain ⟨entry, hentry, hif⟩ := hbefore
    split_ifs at hif
    exact ⟨entry, hentry, (Option.some.inj hif).symm⟩
  · intro key entry hentry hnone
    by_contra hbusy
    have hkept : retained[key]? = some (refresh entry) := by
      rw [hretained, hentry]
      simp [hbusy]
    exact hbusy (h.idle key _ hkept hnone)
  · intro key entry hentry hidle hold
    have hdropped : retained[key]? = none := by
      rw [hretained, hentry]
      simp [hidle, hold]
    rw [Option.eq_none_iff_forall_ne_some]
    intro entry' hentry'
    rw [h.kept key entry' hentry'] at hdropped
    cases hdropped
  · intro key entry hentry hnone hle key' entry' hentry' hidle'
    rw [← hlast entry]
    exact h.oldest key _ (hyoung key entry hentry hle) hnone key' entry' hentry' hidle'
  · intro key entry hentry hnone hle
    have hkept := hyoung key entry hentry hle
    apply h.enough
    by_contra hsmall
    rw [h.stops (not_le.mp hsmall).le, hkept] at hnone
    cases hnone

end Effect

variable {E : Type} (isIdle : E → Bool) (lastUsedAt : E → ℕ)

theorem cleanupEffect_limiters (entries : Std.TreeMap Text E) (now ttl cap : ℕ) :
    CleanupEffect isIdle lastUsedAt id now ttl cap entries
      (cleanupStalePerHostLimiters isIdle lastUsedAt entries now ttl cap) := by
  refine (evicts_evictOldestIdleHosts _ _).cleanupEffect (trimmed_evictOldestIdleHosts le_rfl)
    (fun _ ↦ rfl) fun key ↦ ?_
  rw [Std.TreeMap.getElem?_filter']
  cases entries[key]? <;> rfl

end Reqx.Driver

namespace Reqx.RateLimit

theorem cleanupEffect_rateLimits (entries : Entries) (now : ℕ) :
    Driver.CleanupEffect (fun entry ↦ entry.bucket.isIdle now) PerHostRateLimitEntry.lastUsedAt
      (PerHostRateLimitEntry.refill now) now perHostRateLimitEntryTtl perHostRateLimitMaxEntries
      entries (cleanupStalePerHostRateLimits entries now) := by
  rw [cleanupStalePerHostRateLimits, evictOldestIdle_eq]
  refine (Driver.evicts_evictOldestIdleHosts _ _).cleanupEffect
    (Driver.trimmed_evictOldestIdleHosts le_rfl) (fun _ ↦ rfl) fun key ↦ ?_
  rw [Std.TreeMap.getElem?_filterMap']
  rfl

theorem evictOldestIdle_of_le {entries : Entries} {now fuel : ℕ} (hfuel : entries.size ≤ fuel) :
    evictOldestIdle now fuel entries = evictOldestIdle now entries.size entries := by
  rw [evictOldestIdle_eq, evictOldestIdle_eq, Driver.evictOldestIdleHosts_of_le hfuel]

end Reqx.RateLimit

namespace Reqx.Driver

/-- The loops stop after as many rounds as there are entries, whatever is left to them. -/
theorem cleanup_effect :
    (∀ (E : Type) (isIdle : E → Bool) (lastUsedAt : E → ℕ) (cap : ℕ)
      (entries : Std.TreeMap Text E),
      (∀ more, evictOldestIdleHosts isIdle lastUsedAt cap (entries.size + more) entries =
        evictOldestIdleHosts isIdle lastUsedAt cap entries.size entries) ∧
      ∀ now ttl, CleanupEffect isIdle lastUsedAt id now ttl cap entries
        (cleanupStalePerHostLimiters isIdle lastUsedAt entries now ttl cap)) ∧
    ∀ (entries : RateLimit.Entries) (now : ℕ),
      (∀ more, RateLimit.evictOldestIdle now (entries.size + more) entries =
        RateLimit.evictOldestIdle now entries.size entries) ∧
      CleanupEffect (fun entry ↦ entry.bucket.isIdle now)
        RateLimit.PerHostRateLimitEntry.lastUsedAt (RateLimit.PerHostRateLimitEntry.refill now)
        now RateLimit.perHostRateLimitEntryTtl RateLimit.perHostRateLimitMaxEntries entries
        (RateLimit.cleanupStalePerHostRateLimits entries now) :=
  ⟨fun _ isIdle lastUsedAt cap entries ↦
    ⟨fun more ↦ evictOldestIdleHosts_of_le (Nat.le_add_right _ more),
      fun now ttl ↦ cleanupEffect_limiters isIdle lastUsedAt entries now ttl cap⟩,
    fun entries now ↦ ⟨fun more ↦ RateLimit.evictOldestIdle_of_le (Nat.le_add_right _ more),
      RateLimit.cleanupEffect_rateLimits entries now⟩⟩

end Reqx.Driver
