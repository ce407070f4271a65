import Reqx.RateLimit.Refinement

/-!
# The cleanup removes full accounts only

Both evictions, by age and by number, take entries that are idle: full and not
throttled. The bucket that would replace such an entry has the same account.
-/

namespace Reqx.RateLimit

variable {p : RateLimitPolicy} {now : ℕ} {entries : Entries}

def Entries.Sound (p : RateLimitPolicy) (now : ℕ) (entries : Entries) : Prop :=
  ∀ (key : Text) (entry : PerHostRateLimitEntry), entries[key]? = some entry →
    entry.bucket.Sound p now

def Entries.account (p : RateLimitPolicy) (now : ℕ) (entries : Entries) (key : Text) : Account :=
  (entries[key]?.map fun entry ↦ entry.bucket.account now).getD (.full p)

/-- The second table is sound and shows the same accounts as the first. -/
structure Entries.Shows (p : RateLimitPolicy) (now : ℕ) (before after : Entries) : Prop where
  sound : Entries.Sound p now after
  account_eq : ∀ key, Entries.account p now after key = Entries.account p now before key

theorem Entries.Sound.erase (h : Entries.Sound p now entries) (hp : p.validate = .ok ())
    {key : Text} {entry : PerHostRateLimitEntry} (hentry : entries[key]? = some entry)
    (hidle : entry.bucket.isIdle now) : Entries.Shows p now entries (entries.erase key) where
  sound key' entry' hentry' := by
    rw [Std.TreeMap.getElem?_erase] at hentry'
    split_ifs at hentry' with hkey
    exact h key' entry' hentry'
  account_eq key' := by
    unfold Entries.account
    rw [Std.TreeMap.getElem?_erase]
    split_ifs with hkey
    · obtain rfl : key = key' := Std.compare_eq_iff_eq.mp hkey
      have hfull := (h key entry hentry).account_of_isIdle hp hidle
      simp [hentry, hfull]
    · rfl

theorem oldestIdleKey_spec {key : Text} (hkey : oldestIdleKey entries now = some key) :
    ∃ entry, entries[key]? = some entry ∧ entry.bucket.isIdle now := by
  unfold oldestIdleKey at hkey
  obtain ⟨⟨key', entry⟩, hmin, rfl⟩ := Option.map_eq_some_iff.mp hkey
  obtain ⟨hmem, hidle⟩ := List.mem_filter.mp (List.argmin_mem hmin)
  exact ⟨entry, Std.TreeMap.mem_toList_iff_getElem?_eq_some.mp hmem, hidle⟩

theorem evictOldestIdle_shows (hp : p.validate = .ok ()) (fuel : ℕ)
    (h : Entries.Sound p now entries) :
    Entries.Shows p now entries (evictOldestIdle now fuel entries) := by
  induction fuel generalizing entries with
  | zero => exact ⟨h, fun _ ↦ rfl⟩
  | succ fuel ih =>
    unfold evictOldestIdle
    split_ifs
    · cases hkey : oldestIdleKey entries now with
      | none => exact ⟨h, fun _ ↦ rfl⟩
      | some key =>
        obtain ⟨entry, hentry, hidle⟩ := oldestIdleKey_spec hkey
        have herase := h.erase hp hentry hidle
        have hrest := ih herase.sound
        exact ⟨hrest.sound, fun key' ↦ (hrest.account_eq key').trans (herase.account_eq key')⟩
    · exact ⟨h, fun _ ↦ rfl⟩

theorem retain_shows (hp : p.validate = .ok ()) (h : Entries.Sound p now entries) :
    Entries.Shows p now entries (entries.filterMap fun _ entry ↦ retainEntry now entry) where
  sound key entry' hentry' := by
    rw [Std.TreeMap.getElem?_filterMap', Option.bind_eq_some_iff] at hentry'
    obtain ⟨entry, hentry, hretain⟩ := hentry'
    have hrefill := (h key entry hentry).refill hp
    unfold retainEntry at hretain
    dsimp only at hretain
    split_ifs at hretain
    cases hretain
    exact hrefill
  account_eq key := by
    unfold Entries.account
    rw [Std.TreeMap.getElem?_filterMap']
    cases hentry : entries[key]? with
    | none => rfl
    | some entry =>
      have hsound := h key entry hentry
      have hrefill := hsound.account_refill hp
      simp only [Option.bind_some, retainEntry, Option.map_some, Option.getD_some]
      split_ifs with hkeep
      · exact hrefill
      · have hidle : (entry.bucket.refill now).isIdle now := by
          simp only [Bool.or_eq_true, not_or, Bool.not_eq_true', Bool.not_eq_false] at hkeep
          exact hkeep.1
        rw [Option.map_none, Option.getD_none, ← hrefill,
          (hsound.refill hp).account_of_isIdle hp hidle]

theorem cleanupStalePerHostRateLimits_shows (hp : p.validate = .ok ())
    (h : Entries.Sound p now entries) :
    Entries.Shows p now entries (cleanupStalePerHostRateLimits entries now) := by
  have hretain := retain_shows hp h
  have hevict := evictOldestIdle_shows hp
    (entries.filterMap fun _ entry ↦ retainEntry now entry).size hretain.sound
  exact ⟨hevict.sound, fun key ↦ (hevict.account_eq key).trans (hretain.account_eq key)⟩

/-! ## Cleanups of the limiter -/

variable {L : Limits} {l : RateLimiter} {σ : Ledger}

theorem Entries.current_of_sound (h : Entries.Sound p now l.perHost) (key : Text) :
    (l.current p (.host key) now).Sound p now ∧
      (l.current p (.host key) now).account now = Entries.account p now l.perHost key := by
  rw [← RateLimiter.hostBucket_eq_current]
  unfold RateLimiter.hostBucket Entries.account
  cases hentry : l.perHost[key]? with
  | none => exact ⟨TokenBucket.sound_new p now, TokenBucket.account_new p now⟩
  | some entry => exact ⟨h key entry hentry, rfl⟩

theorem Refines.entries_sound (h : Refines L l σ) (hp : L.perHost = some p) :
    Entries.Sound p σ.time l.perHost := by
  intro key entry hentry
  simpa [RateLimiter.current, RateLimiter.bucket?, hentry] using h.sound (.host key) p hp

theorem Refines.replace_perHost (h : Refines L l σ) {after : Entries} (lastCleanupMs : ℕ)
    (hshows : ∀ p, L.perHost = some p → Entries.Shows p σ.time l.perHost after) :
    Refines L { l with perHost := after, perHostLastCleanupMs := lastCleanupMs } σ := by
  apply h.update
  · rfl
  · rfl
  · rfl
  · rfl
  · intro k p hk
    cases k with
    | global => exact ⟨h.sound .global p hk, h.account .global p hk⟩
    | host key =>
      have hbefore := Entries.current_of_sound (h.entries_sound hk) key
      have hafter := Entries.current_of_sound
        (l := { l with perHost := after, perHostLastCleanupMs := lastCleanupMs })
        (hshows p hk).sound key
      refine ⟨hafter.1, ?_⟩
      rw [hafter.2, (hshows p hk).account_eq key, ← hbefore.2]
      exact h.account (.host key) p hk

theorem transparent_maybeCleanup (hL : L.Valid) :
    Transparent L RateLimiter.maybeCleanupStalePerHostRateLimits := by
  intro l σ h
  unfold RateLimiter.maybeCleanupStalePerHostRateLimits
  dsimp only
  split_ifs
  · exact h.replace_perHost _ fun p hp ↦
      cleanupStalePerHostRateLimits_shows (hL (.host []) p hp) (h.entries_sound hp)
  · exact h

theorem transparent_none : Transparent L fun l _ ↦ l := fun _ _ h ↦ h

end Reqx.RateLimit
