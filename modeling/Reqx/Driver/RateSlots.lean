import Reqx.Library.Rounding
import Reqx.Driver.HostTables

/-!
# A slot is taken from all buckets or from none

What one call of `acquire_delay` does, in any state of the limiter. The call cleans
up the table of the hosts first, so the bucket of the host is the one it finds then.
The tokens are `f64` numbers; those of a burst of at most `2 ^ 53` can be counted.
-/

namespace Reqx.RateLimit

open TokenBucket

open Rounding (Representable)
open TokenArithmetic (rounded)

/-- Results have 53 bits, and where these are enough for a number that is neither small nor
large the result is exact. -/
structure TokenArithmetic.IsF64 (arithmetic : TokenArithmetic) : Prop where
  representable : ∀ x, Representable 53 (rounded x)
  exact : ∀ k e : ℤ, 0 ≤ k → k ≤ 2 ^ 53 → -52 ≤ e → e ≤ 0 → rounded (k * 2 ^ e) = k * 2 ^ e

/-- To the nearest number, with no bound on the exponent. -/
@[reducible] def binary64 : TokenArithmetic := ⟨Rounding.roundTo 53⟩

theorem isF64_binary64 : binary64.IsF64 where
  representable := Rounding.representable_roundTo (by decide)
  exact k e hk hle _ _ := Rounding.roundTo_of_representable (by decide)
    (Rounding.representable_of_le_two_pow (by decide) hk hle e) (by positivity)

namespace TokenBucket

/-- The bucket has a token that may be used. -/
def HasSlot (now : ℕ) (b : TokenBucket) : Prop := b.isThrottled now = false ∧ 1 ≤ b.tokens

def charged (b : TokenBucket) : TokenBucket := { b with tokens := b.tokens - 1 }

/-- The bucket counts its tokens in numbers of 53 bits, up to a burst that it can count. -/
structure InRange (b : TokenBucket) : Prop where
  representable : Representable 53 b.tokens
  tokens_le : b.tokens ≤ b.policy.burst
  burst_le : b.policy.burst ≤ 2 ^ 53

end TokenBucket

/-- All buckets of the limiter count their tokens, and so do the ones that it makes. -/
structure RateLimiter.InRange (l : RateLimiter) : Prop where
  globalBucket : ∀ b, l.global = some b → b.InRange
  hosts : ∀ (key : Text) entry, l.perHost[key]? = some entry → entry.bucket.InRange
  burst_le : ∀ policy, l.perHostPolicy = some policy → policy.burst ≤ 2 ^ 53

theorem foldr_max_mem {waits : List ℕ} (h : waits.foldr max 0 ≠ 0) : waits.foldr max 0 ∈ waits := by
  have hne : waits ≠ [] := by
    rintro rfl
    exact h rfl
  exact List.maximum_mem (List.foldr_max_of_ne_nil hne).symm

section Arithmetic

variable [arithmetic : TokenArithmetic]

theorem TokenArithmetic.IsF64.rounded_natCast (h : arithmetic.IsF64) {n : ℕ} (hn : n ≤ 2 ^ 53) :
    rounded (n : ℚ) = n := by
  simpa using h.exact n 0 (Int.natCast_nonneg n) (by exact_mod_cast hn) (by decide) le_rfl

namespace TokenBucket

variable {b : TokenBucket} {now : ℕ}

theorem inRange_new (h : arithmetic.IsF64) {policy : RateLimitPolicy}
    (hburst : policy.burst ≤ 2 ^ 53) (now : ℕ) : (new policy now).InRange :=
  ⟨h.representable _, (h.rounded_natCast hburst).le, hburst⟩

theorem InRange.refill (h : arithmetic.IsF64) (hb : b.InRange) (now : ℕ) :
    (b.refill now).InRange := by
  unfold TokenBucket.refill
  split_ifs
  · exact hb
  · exact ⟨min_rec' (Representable 53) (h.representable _) (h.representable _),
      (min_le_right _ _).trans (h.rounded_natCast hb.burst_le).le, hb.burst_le⟩

theorem canConsumeNow_iff : (b.canConsumeNow now).1 = true ↔ (b.refill now).HasSlot now := by
  simp [canConsumeNow, HasSlot]

theorem HasSlot.consume (harith : arithmetic.IsF64) (hb : b.InRange) (h : b.HasSlot now) :
    b.consumeReadyToken = b.charged := by
  have hburst : (b.policy.burst : ℚ) ≤ 2 ^ 53 := by exact_mod_cast hb.burst_le
  obtain ⟨k, e, hk, hle, hlow, hhigh, hleft⟩ :=
    hb.representable.exists_sub_one (by decide) h.2 (hb.tokens_le.trans hburst)
  have hexact : rounded (b.tokens - 1) = b.tokens - 1 := by
    rw [hleft]
    exact harith.exact k e hk hle hlow hhigh
  rw [consumeReadyToken, charged, hexact, max_eq_left (sub_nonneg.mpr h.2)]

/-- A bucket makes its caller wait if and only if it has no slot. -/
theorem waitDuration_eq_zero_iff : (b.waitDuration now).1 = 0 ↔ (b.refill now).HasSlot now := by
  unfold waitDuration HasSlot
  dsimp only
  split_ifs with hthrottled htokens
  · have hlater : ∃ until_, (b.refill now).throttleUntil = some until_ ∧ now < until_ := by
      rw [isThrottled, Option.any_eq_true] at hthrottled
      obtain ⟨until_, huntil, hlt⟩ := hthrottled
      exact ⟨until_, huntil, of_decide_eq_true hlt⟩
    obtain ⟨until_, huntil, hlt⟩ := hlater
    refine iff_of_false ?_ ?_
    · rw [huntil, Option.getD_some, saturatingDurationSince]
      exact Nat.sub_ne_zero_of_lt hlt
    · rw [hthrottled]
      simp
  · exact iff_of_true rfl ⟨Bool.eq_false_iff.mpr hthrottled, htokens⟩
  · refine iff_of_false ?_ fun h ↦ htokens h.2
    exact Nat.one_le_iff_ne_zero.mp (le_max_right _ _)

end TokenBucket

namespace RateLimiter

variable (l : RateLimiter) (host : Option Text) (now : ℕ)

/-- The limiter as `acquire_delay` finds it once the locks are held. -/
def cleaned : RateLimiter :=
  if l.perHostPolicy.isSome then l.maybeCleanupStalePerHostRateLimits now else l

/-- The buckets that a request to the host needs. -/
def applicable : List TokenBucket :=
  (l.cleaned now).lockedBuckets (host.bind normalizeHostKey) now

@[simp] theorem cleaned_global : (l.cleaned now).global = l.global := by
  unfold cleaned maybeCleanupStalePerHostRateLimits
  dsimp only
  split_ifs <;> rfl

@[simp] theorem cleaned_perHostPolicy : (l.cleaned now).perHostPolicy = l.perHostPolicy := by
  unfold cleaned maybeCleanupStalePerHostRateLimits
  dsimp only
  split_ifs <;> rfl

/-- Entries that stay are at most refilled, and an entry that goes was idle. -/
structure OnlyCleaned (now : ℕ) (before after : Entries) : Prop where
  stays : ∀ (key : Text) entry', after[key]? = some entry' → ∃ entry, before[key]? = some entry ∧
    (entry' = entry ∨ entry' = entry.refill now)
  idle : ∀ (key : Text) entry, before[key]? = some entry → after[key]? = none →
    (entry.bucket.refill now).isIdle now = true

theorem onlyCleaned_cleaned : OnlyCleaned now l.perHost (l.cleaned now).perHost := by
  have hsame : OnlyCleaned now l.perHost l.perHost :=
    ⟨fun key entry' hentry ↦ ⟨entry', hentry, .inl rfl⟩, fun key entry hentry hnone ↦ by
      rw [hentry] at hnone
      cases hnone⟩
  unfold cleaned
  split_ifs
  · refine ⟨fun key entry' hentry' ↦ ?_, fun key entry hentry hnone ↦ ?_⟩
    · unfold maybeCleanupStalePerHostRateLimits at hentry'
      dsimp only at hentry'
      split_ifs at hentry'
      · obtain ⟨entry, hentry, hrefill⟩ := getElem?_cleanupStale hentry'
        exact ⟨entry, hentry, .inr hrefill⟩
      · exact hsame.stays key entry' hentry'
    · -- A busy entry would be carried over.
      by_contra hbusy
      have hbusy' : entry.isBusy now = true := by
        rw [PerHostRateLimitEntry.isBusy_eq, Bool.not_eq_true', Bool.eq_false_iff]
        exact hbusy
      obtain ⟨entry', hentry', -⟩ := (cleaned_maybeCleanup l now).kept key entry hentry hbusy'
      rw [hnone] at hentry'
      cases hentry'
  · exact hsame

theorem acquireDelay_eq : l.acquireDelay host now = (l.cleaned now).acquireLocked host now := rfl

theorem updateLocked_getElem? (f : TokenBucket → TokenBucket) (hostKey : Option Text) (key : Text)
    (h : l.perHostPolicy = none ∨ hostKey ≠ some key) :
    (l.updateLocked hostKey now f).perHost[key]? = l.perHost[key]? := by
  unfold updateLocked
  dsimp only
  split
  next policy key' hpolicy =>
    rw [Std.TreeMap.getElem?_insert, if_neg]
    intro heq
    obtain rfl : key' = key := Std.compare_eq_iff_eq.mp heq
    rcases h with h | h
    · rw [h] at hpolicy
      cases hpolicy
    · exact h rfl
  · rfl

theorem updateLocked_getElem?_self (f : TokenBucket → TokenBucket) {policy : RateLimitPolicy}
    (hpolicy : l.perHostPolicy = some policy) (key : Text) :
    (l.updateLocked (some key) now f).perHost[key]? =
      some ⟨f (l.hostBucket policy key now), now⟩ := by
  unfold updateLocked
  rw [hpolicy]
  exact Std.TreeMap.getElem?_insert_self

/-- What a call does to the refilled buckets that it locks. -/
def chargeAfter (delay : ℕ) (b : TokenBucket) : TokenBucket :=
  if delay = 0 then (b.refill now).charged else b.refill now

/-- A slot of every bucket was taken, or the caller waits for the slowest one. -/
structure AllOrNothing (delay : ℕ) (after : RateLimiter) : Prop where
  granted_iff : delay = 0 ↔ ∀ b ∈ l.applicable host now, (b.refill now).HasSlot now
  slowest : delay ≠ 0 →
    delay ∈ (l.applicable host now).map (fun b ↦ (b.waitDuration now).1) ∧
      ∀ b ∈ l.applicable host now, (b.waitDuration now).1 ≤ delay
  globalBucket : after.global = l.global.map (chargeAfter now delay)
  hostBucket : ∀ policy key, l.perHostPolicy = some policy →
    host.bind normalizeHostKey = some key →
    after.perHost[key]? =
      some ⟨chargeAfter now delay ((l.cleaned now).hostBucket policy key now), now⟩
  others : ∀ key, l.perHostPolicy = none ∨ host.bind normalizeHostKey ≠ some key →
    after.perHost[key]? = (l.cleaned now).perHost[key]?
  cleaned : OnlyCleaned now l.perHost (l.cleaned now).perHost

variable {l host now}

theorem applicable_all_iff :
    ((l.applicable host now).all fun b ↦ (b.canConsumeNow now).1) = true ↔
      ∀ b ∈ l.applicable host now, (b.refill now).HasSlot now := by
  simp only [List.all_eq_true, canConsumeNow_iff]

theorem acquireDelay_of_ready (h : ∀ b ∈ l.applicable host now, (b.refill now).HasSlot now) :
    l.acquireDelay host now = (0, (l.cleaned now).updateLocked (host.bind normalizeHostKey) now
      fun b ↦ (b.refill now).consumeReadyToken) :=
  if_pos (applicable_all_iff.mpr h)

theorem acquireDelay_of_not_ready (h : ¬ ∀ b ∈ l.applicable host now, (b.refill now).HasSlot now) :
    l.acquireDelay host now =
      (((l.applicable host now).map fun b ↦ (b.waitDuration now).1).foldr max 0,
        (l.cleaned now).updateLocked (host.bind normalizeHostKey) now (·.refill now)) := by
  -- The second refill finds the bucket at this time already.
  have hwait : ∀ b : TokenBucket,
      (b.canConsumeNow now).2.waitDuration now = b.waitDuration now := by
    intro b
    rw [canConsumeNow, waitDuration, refill_refill]
    rfl
  have hlocked : (l.cleaned now).acquireLocked host now = _ :=
    if_neg (mt applicable_all_iff.mp h)
  rw [acquireDelay_eq, hlocked]
  simp only [hwait, Sound.waitDuration_snd]
  rfl

theorem mem_applicable_global {b : TokenBucket} (h : l.global = some b) :
    b ∈ l.applicable host now := by
  refine List.mem_append_left _ ?_
  rw [cleaned_global, h]
  exact List.mem_singleton_self b

theorem mem_applicable_host {policy : RateLimitPolicy} {key : Text}
    (hpolicy : l.perHostPolicy = some policy) (hkey : host.bind normalizeHostKey = some key) :
    (l.cleaned now).hostBucket policy key now ∈ l.applicable host now := by
  refine List.mem_append_right _ ?_
  rw [cleaned_perHostPolicy, hpolicy, hkey]
  exact List.mem_singleton_self _

/-- The locked buckets are the applicable ones, and no other bucket is touched. -/
theorem allOrNothing_updateLocked {delay : ℕ} {f : TokenBucket → TokenBucket}
    (hgranted : delay = 0 ↔ ∀ b ∈ l.applicable host now, (b.refill now).HasSlot now)
    (hslowest : delay ≠ 0 →
      delay ∈ (l.applicable host now).map (fun b ↦ (b.waitDuration now).1) ∧
        ∀ b ∈ l.applicable host now, (b.waitDuration now).1 ≤ delay)
    (hf : ∀ b ∈ l.applicable host now, f b = chargeAfter now delay b) :
    l.AllOrNothing host now delay
      ((l.cleaned now).updateLocked (host.bind normalizeHostKey) now f) where
  granted_iff := hgranted
  slowest := hslowest
  globalBucket := by
    change (l.cleaned now).global.map f = _
    rw [cleaned_global]
    exact Option.map_congr fun b hb ↦ hf b (mem_applicable_global hb)
  hostBucket := by
    intro policy key hpolicy hkey
    have hpolicy' : (l.cleaned now).perHostPolicy = some policy := by
      rw [cleaned_perHostPolicy, hpolicy]
    rw [hkey, updateLocked_getElem?_self _ _ _ hpolicy', hf _ (mem_applicable_host hpolicy hkey)]
  others := by
    intro key hkey
    rw [← l.cleaned_perHostPolicy now] at hkey
    exact updateLocked_getElem? _ _ _ _ _ hkey
  cleaned := l.onlyCleaned_cleaned now

theorem InRange.of_mem_applicable (harith : arithmetic.IsF64) (h : l.InRange) {b : TokenBucket}
    (hb : b ∈ l.applicable host now) : b.InRange := by
  unfold applicable lockedBuckets at hb
  rw [List.mem_append, Option.mem_toList, Option.mem_toList, cleaned_global,
    cleaned_perHostPolicy] at hb
  rcases hb with hglobal | hhost
  · exact h.globalBucket b hglobal
  · obtain ⟨policy, hpolicy, hhost⟩ := Option.bind_eq_some_iff.mp hhost
    obtain ⟨key, -, rfl⟩ := Option.map_eq_some_iff.mp hhost
    unfold hostBucket
    cases hentry : (l.cleaned now).perHost[key]? with
    | none => exact inRange_new harith (h.burst_le policy hpolicy) now
    | some entry' =>
      obtain ⟨entry, hbefore, rfl | rfl⟩ := (l.onlyCleaned_cleaned now).stays key entry' hentry
      · exact h.hosts key entry' hbefore
      · exact (h.hosts key entry hbefore).refill harith now

variable (l host now)

theorem acquire_delay_all_or_nothing (harith : arithmetic.IsF64) (hrange : l.InRange) :
    l.AllOrNothing host now (l.acquireDelay host now).1 (l.acquireDelay host now).2 := by
  by_cases hready : ∀ b ∈ l.applicable host now, (b.refill now).HasSlot now
  · rw [acquireDelay_of_ready hready]
    exact allOrNothing_updateLocked (iff_of_true rfl hready) (fun hne ↦ absurd rfl hne)
      fun b hb ↦ (hready b hb).consume harith
        ((hrange.of_mem_applicable harith hb).refill harith now)
  · rw [acquireDelay_of_not_ready hready]
    have hle : ∀ b ∈ l.applicable host now, (b.waitDuration now).1 ≤
        ((l.applicable host now).map fun b ↦ (b.waitDuration now).1).foldr max 0 := fun b hb ↦
      List.le_max_of_le (List.mem_map_of_mem (f := fun b ↦ (b.waitDuration now).1) hb) le_rfl
    -- The bucket that is not ready asks for a wait, so the largest wait is positive.
    have hpos : ((l.applicable host now).map fun b ↦ (b.waitDuration now).1).foldr max 0 ≠ 0 := by
      intro hzero
      refine hready fun b hb ↦ waitDuration_eq_zero_iff.mp (Nat.le_zero.mp ?_)
      exact (hle b hb).trans hzero.le
    exact allOrNothing_updateLocked (iff_of_false hpos hready)
      (fun _ ↦ ⟨foldr_max_mem hpos, hle⟩) fun b _ ↦ (if_neg hpos).symm

end RateLimiter

end Arithmetic

namespace Sample

/-- A new limiter for all hosts together. -/
def globalLimiter (burst : ℕ) : RateLimiter :=
  ⟨some (@new binary64 ⟨50, burst, 0⟩ 0), none, ∅, 0, 0, 0⟩

theorem inRange_globalLimiter : (globalLimiter 2).InRange where
  globalBucket b hb := by
    cases hb
    exact @inRange_new binary64 isF64_binary64 _ (by decide) 0
  hosts key entry hentry := by simp [globalLimiter] at hentry
  burst_le policy hpolicy := by cases hpolicy

end Sample

theorem acquire_delay_first_slot :
    @RateLimiter.AllOrNothing binary64 (Sample.globalLimiter 2) none 0
      (@RateLimiter.acquireDelay binary64 (Sample.globalLimiter 2) none 0).1
      (@RateLimiter.acquireDelay binary64 (Sample.globalLimiter 2) none 0).2 :=
  @RateLimiter.acquire_delay_all_or_nothing binary64 (Sample.globalLimiter 2) none 0
    isF64_binary64 Sample.inRange_globalLimiter

theorem Sample.rounded_burst : binary64.rounded (2 ^ 60 : ℕ) = 2 ^ 60 := by
  have hpow : Representable 53 (2 ^ 60 : ℕ) := ⟨1, 60, by norm_num, by norm_num⟩
  exact (Rounding.roundTo_of_representable (by decide) hpow (by positivity)).trans (by norm_num)

theorem Sample.rounded_burst_sub_one : binary64.rounded (2 ^ 60 - 1) = 2 ^ 60 := by
  have hlog : Int.log 2 ((2 : ℚ) ^ 60 - 1) = 59 := by
    have hcast : ((2 : ℚ) ^ 60 - 1) = (2 ^ 60 - 1 : ℕ) := by norm_num
    have hnat : Nat.log 2 (2 ^ 60 - 1) = 59 :=
      Nat.log_eq_of_pow_le_of_lt_pow (by norm_num) (by norm_num)
    rw [hcast, Int.log_natCast, hnat]
    rfl
  change Rounding.roundTo 53 (2 ^ 60 - 1) = 2 ^ 60
  rw [Rounding.roundTo, Rounding.lastPlace, hlog, if_neg (by norm_num)]
  norm_num [round_eq]

/-- In `f64` a burst of `2 ^ 60` is not counted down: the slot is granted and the bucket stays
full. -/
theorem slot_without_charge :
    (⟨50, 2 ^ 60, 0⟩ : RateLimitPolicy).validate = .ok () ∧
    (@RateLimiter.acquireDelay binary64 (Sample.globalLimiter (2 ^ 60)) none 0).1 = 0 ∧
      (@RateLimiter.acquireDelay binary64 (Sample.globalLimiter (2 ^ 60)) none 0).2.global =
        (Sample.globalLimiter (2 ^ 60)).global := by
  have hnew : @new binary64 ⟨50, 2 ^ 60, 0⟩ 0 = ⟨⟨50, 2 ^ 60, 0⟩, 2 ^ 60, 0, none⟩ :=
    congrArg (mk _ · 0 none) Sample.rounded_burst
  have hready : ∀ b ∈ @RateLimiter.applicable binary64 (Sample.globalLimiter (2 ^ 60)) none 0,
      (@TokenBucket.refill binary64 b 0).HasSlot 0 := by
    intro b hb
    obtain rfl : b = @new binary64 ⟨50, 2 ^ 60, 0⟩ 0 := List.mem_singleton.mp hb
    rw [hnew]
    exact ⟨rfl, by norm_num [TokenBucket.refill]⟩
  rw [@RateLimiter.acquireDelay_of_ready binary64 _ _ _ hready]
  refine ⟨by decide, rfl, ?_⟩
  change some (@consumeReadyToken binary64 (@TokenBucket.refill binary64
    (@new binary64 ⟨50, 2 ^ 60, 0⟩ 0) 0)) = some (@new binary64 _ 0)
  rw [hnew, @refill_of_le _ _ binary64 le_rfl]
  refine congrArg some (congrArg (mk _ · 0 none) ?_)
  change max (binary64.rounded (2 ^ 60 - 1)) 0 = 2 ^ 60
  rw [Sample.rounded_burst_sub_one]
  norm_num

end Reqx.RateLimit
