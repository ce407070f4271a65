import Mathlib.Data.Rat.Floor
import Reqx.RateLimit.Guarantees

/-!
# A caller that is alone gets its slot

The first wait outlasts every throttle. The second one is long enough for the missing
tokens up to half a nanosecond, because waits are rounded, and the third one makes up
for that.
-/

namespace Reqx

theorem le_roundTiesEven_add_half (q : ℚ) : q ≤ roundTiesEven q + 1 / 2 := by
  unfold roundTiesEven
  have hfloor : q < q.floor.toNat + 1 := by
    have hlt : q < (⌊q⌋ : ℚ) + 1 := Int.lt_floor_add_one q
    have hle : (⌊q⌋ : ℚ) ≤ (q.floor.toNat : ℚ) := by exact_mod_cast Int.self_le_toNat ⌊q⌋
    linarith
  dsimp only
  split_ifs with hlow hhigh <;> push_cast <;> linarith

/-- What is left of a delay after it was rounded, if it was not cut off. -/
theorem le_durationFromSecsF64Saturating {seconds : ℚ}
    (h : durationFromSecsF64Saturating seconds < durationMax) :
    seconds ≤ asSecs (durationFromSecsF64Saturating seconds) + 1 / (2 * nanosPerSecond) := by
  have hnanos : (0 : ℚ) < nanosPerSecond := by norm_num [nanosPerSecond]
  unfold durationFromSecsF64Saturating at h ⊢
  split_ifs at h ⊢ with hzero hmax
  · have hnonneg := asSecs_nonneg 0
    have hhalf : (0 : ℚ) ≤ 1 / (2 * nanosPerSecond) := by positivity
    linarith
  · exact absurd h (lt_irrefl _)
  · have hround := le_roundTiesEven_add_half (seconds * nanosPerSecond)
    have hdiv := div_le_div_of_nonneg_right hround hnanos.le
    rw [mul_div_cancel_right₀ _ hnanos.ne', add_div, div_div] at hdiv
    exact hdiv

namespace RateLimit

open Accrual

/-- The time that rounding may leave out of a wait, in seconds. -/
def roundingError : ℚ := 1 / (2 * nanosPerSecond)

theorem asSecs_one : asSecs 1 = 2 * roundingError := by
  norm_num [asSecs, roundingError, nanosPerSecond]

namespace Account

variable {a : Account} {p : RateLimitPolicy} {now delay : ℕ}

theorem advance_level (a : Account) (p : RateLimitPolicy) (now delay : ℕ) :
    (a.advance p now (now + delay)).level =
      min (p.burst : ℚ) (a.level + p.requestsPerSecond * asSecs delay) := by
  rw [advance, Nat.add_sub_cancel_left]
  rfl

/-- After its wait an account is not on hold. -/
theorem hold_advance (h : a.wait p now ≤ delay) : (a.advance p now (now + delay)).hold = none := by
  rw [advance, Option.filter_eq_none_iff]
  intro deadline hdeadline
  rw [wait, hdeadline] at h
  dsimp only at h
  rw [decide_eq_true_eq]
  omega

/-- An account that is not on hold misses at most what rounding left out of its wait. -/
theorem level_advance (hp : p.validate = .ok ()) (hhold : a.hold = none) (h : a.wait p now ≤ delay)
    (hdelay : delay < durationMax) :
    1 ≤ (a.advance p now (now + delay)).level + p.requestsPerSecond * roundingError := by
  obtain ⟨hrate, hburst⟩ := (p.validate_eq_ok_iff).mp hp
  have hburst' : (1 : ℚ) ≤ p.burst := by exact_mod_cast hburst
  have herror : 0 ≤ p.requestsPerSecond * roundingError := by
    unfold roundingError
    positivity
  have hdelay' := asSecs_nonneg delay
  rw [advance_level, ← min_add_add_right, le_min_iff]
  refine ⟨by linarith, ?_⟩
  rw [wait, hhold] at h
  dsimp only at h
  split_ifs at h with hlevel
  · have hgain := mul_nonneg hrate.le hdelay'
    linarith
  · have hmissing : max (1 - a.level) 0 = 1 - a.level := max_eq_left (by linarith)
    rw [hmissing, max_le_iff] at h
    have hround := le_durationFromSecsF64Saturating (h.1.trans_lt hdelay)
    have hsecs := hround.trans (add_le_add_left (asSecs_le_asSecs_iff.mpr h.1) roundingError)
    rw [div_le_iff₀ hrate] at hsecs
    linarith

/-- A nanosecond more is enough then. -/
theorem ready_advance (hp : p.validate = .ok ()) (hhold : a.hold = none)
    (hlevel : 1 ≤ a.level + p.requestsPerSecond * roundingError) (hdelay : 0 < delay) :
    (a.advance p now (now + delay)).ready = true := by
  obtain ⟨hrate, hburst⟩ := (p.validate_eq_ok_iff).mp hp
  have hburst' : (1 : ℚ) ≤ p.burst := by exact_mod_cast hburst
  have hone : 2 * roundingError ≤ asSecs delay := by
    rw [← asSecs_one, asSecs_le_asSecs_iff]
    exact hdelay
  refine ready_iff.mpr ⟨?_, ?_⟩
  · rw [advance, hhold]
    rfl
  · rw [advance_level, le_min_iff]
    refine ⟨hburst', ?_⟩
    have herror : 0 ≤ p.requestsPerSecond * roundingError := by
      unfold roundingError
      positivity
    have hgain := mul_le_mul_of_nonneg_left hone hrate.le
    linarith

end Account

namespace Ledger

variable {L : Limits} {host : Option Text} {σ : Ledger} {now : ℕ}

/-- What holds of the accounts that a request needs, as a call at this time sees them. -/
def Sees (L : Limits) (host : Option Text) (P : Account → RateLimitPolicy → Prop) (σ : Ledger)
    (now : ℕ) : Prop :=
  ∀ e ∈ L.neededBy host, P ((σ.upTo L now).account e.1) e.2

def Free (a : Account) (_ : RateLimitPolicy) : Prop := a.hold = none

def Near (a : Account) (p : RateLimitPolicy) : Prop :=
  a.hold = none ∧ 1 ≤ a.level + p.requestsPerSecond * roundingError

def Ready (a : Account) (_ : RateLimitPolicy) : Prop := a.ready = true

theorem acquire_eq_zero_of_ready (h : Sees L host Ready σ now) :
    ((σ.upTo L now).acquire L host).1 = 0 := by
  rw [acquire, if_pos (List.all_eq_true.mpr h)]

/-- A refused caller has to wait for every account, and nothing was spent. -/
theorem acquire_refused (h : ((σ.upTo L now).acquire L host).1 ≠ 0) :
    ((σ.upTo L now).acquire L host).2 = σ.upTo L now ∧
      Sees L host (fun a p ↦ a.wait p now ≤ ((σ.upTo L now).acquire L host).1) σ now := by
  unfold acquire at h ⊢
  split_ifs at h ⊢
  · exact absurd rfl h
  · refine ⟨rfl, fun e he ↦ ?_⟩
    exact List.le_max_of_le
      (List.mem_map_of_mem (f := fun e ↦ ((σ.upTo L now).account e.1).wait e.2 now) he) le_rfl

/-- What a wait does to each account is what it does to all that a request needs. -/
theorem Sees.later {P Q : Account → RateLimitPolicy → Prop} {delay : ℕ} (hL : L.Valid)
    (h : Sees L host P σ now)
    (hstep : ∀ a p, p.validate = .ok () → P a p → Q (a.advance p now (now + delay)) p) :
    Sees L host Q (σ.upTo L now) (now + delay) := by
  rintro ⟨k, p⟩ he
  have hk := (Limits.mem_neededBy.mp he).2
  have hadvance : ((σ.upTo L now).upTo L (now + delay)).account k =
      ((σ.upTo L now).account k).advance p now (now + delay) := upTo_account hk _ _
  rw [hadvance]
  exact hstep _ p (hL k p hk) (h (k, p) he)

/-- The answers to a caller that waits as long as it is told, up to the first slot. -/
def delays (L : Limits) (host : Option Text) : ℕ → Ledger → ℕ → List ℕ
  | 0, _, _ => []
  | calls + 1, σ, now =>
    let (delay, σ) := (σ.upTo L now).acquire L host
    if delay = 0 then [0] else delay :: delays L host calls σ (now + delay)

/-- A property that gets better with each refusal, down to a slot. -/
theorem zero_mem_delays_succ {P Q : Account → RateLimitPolicy → Prop} {calls : ℕ} (hL : L.Valid)
    (h : Sees L host P σ now)
    (hbound : ∀ delay ∈ delays L host (calls + 1) σ now, delay < durationMax)
    (hstep : ∀ delay a p, p.validate = .ok () → 0 < delay → delay < durationMax →
      a.wait p now ≤ delay → P a p → Q (a.advance p now (now + delay)) p)
    (hnext : ∀ delay, Sees L host Q (σ.upTo L now) (now + delay) →
      (∀ d ∈ delays L host calls (σ.upTo L now) (now + delay), d < durationMax) →
      0 ∈ delays L host calls (σ.upTo L now) (now + delay)) :
    0 ∈ delays L host (calls + 1) σ now := by
  unfold delays at hbound ⊢
  dsimp only at hbound ⊢
  by_cases hzero : ((σ.upTo L now).acquire L host).1 = 0
  · rw [if_pos hzero]
    exact List.mem_singleton_self 0
  · obtain ⟨hsame, hwaits⟩ := acquire_refused hzero
    rw [if_neg hzero, hsame] at hbound ⊢
    rw [List.forall_mem_cons] at hbound
    refine List.mem_cons_of_mem _ (hnext _ ?_ hbound.2)
    have hboth : Sees L host (fun a p ↦ P a p ∧ a.wait p now ≤ _) σ now :=
      fun e he ↦ ⟨h e he, hwaits e he⟩
    exact hboth.later hL fun a p hp hP ↦
      hstep _ a p hp (Nat.pos_of_ne_zero hzero) hbound.1 hP.2 hP.1

theorem zero_mem_delays_four (hL : L.Valid)
    (hbound : ∀ delay ∈ delays L host 4 σ now, delay < durationMax) :
    0 ∈ delays L host 4 σ now := by
  have hany : Sees L host (fun _ _ ↦ True) σ now := fun _ _ ↦ trivial
  refine zero_mem_delays_succ (Q := Free) hL hany hbound
    (fun _ a p _ _ _ hwait _ ↦ Account.hold_advance hwait) fun first hfree hbound ↦ ?_
  refine zero_mem_delays_succ (Q := Near) hL hfree hbound
    (fun _ a p hp _ hmax hwait hhold ↦
      ⟨Account.hold_advance hwait, Account.level_advance hp hhold hwait hmax⟩)
    fun second hnear hbound ↦ ?_
  refine zero_mem_delays_succ (Q := Ready) hL hnear hbound
    (fun _ a p hp hpos _ _ hnear ↦ Account.ready_advance hp hnear.1 hnear.2 hpos)
    fun third hready _ ↦ ?_
  unfold delays
  dsimp only
  rw [if_pos (acquire_eq_zero_of_ready hready)]
  exact List.mem_singleton_self 0

end Ledger

/-! ## The limiter -/

namespace RateLimiter

/-- The answers to a caller that waits as long as it is told, up to the first slot. -/
def delays (host : Option Text) : ℕ → RateLimiter → ℕ → List ℕ
  | 0, _, _ => []
  | calls + 1, l, now =>
    let (delay, l) := l.acquireDelay host now
    if delay = 0 then [0] else delay :: delays host calls l (now + delay)

theorem delays_eq_ledger {L : Limits} (hL : L.Valid) {l : RateLimiter} {σ : Ledger}
    (h : Refines L l σ) (host : Option Text) (calls : ℕ) {now : ℕ} (hnow : σ.time ≤ now) :
    delays host calls l now = Ledger.delays L host calls σ now := by
  induction calls generalizing l σ now with
  | zero => rfl
  | succ calls ih =>
    obtain ⟨hanswer, hnext⟩ := simulates_ledger hL (transparent_maybeCleanup hL) l σ
      (now, .acquireDelay host) h hnow
    have hdelay : (l.acquireDelay host now).1 = ((σ.upTo L now).acquire L host).1 :=
      Answer.delay.inj hanswer
    unfold delays Ledger.delays
    dsimp only
    rw [hdelay]
    split_ifs
    · rfl
    · rw [List.cons_inj_right]
      refine ih hnext ?_
      rw [Ledger.step_time]
      exact Nat.le_add_right _ _

variable {L : Limits} {l : RateLimiter} {created : ℕ} {calls : List (ℕ × Call)}

theorem lone_waiter_served (hL : L.Valid)
    (hnew : RateLimiter.new L.global L.perHost L.instantMax created = some l) (now : ℕ)
    (hclock : List.IsChain (· ≤ ·) (created :: (calls.map Prod.fst ++ [now]))) (host : Option Text)
    (hmax : ∀ delay ∈ delays host 4 (machine.final l calls) now, delay < durationMax) :
    0 ∈ delays host 4 (machine.final l calls) now := by
  have hclock' : List.IsChain (· ≤ ·) ((Ledger.opened L created).time ::
      (calls ++ [(now, Call.acquireDelay host)]).map Prod.fst) := by
    rw [List.map_append]
    exact hclock
  obtain ⟨hbefore, hlater, -⟩ := Machine.admits_append.mp (Ledger.admits_later (L := L) hclock')
  have hsim := simulates_ledger hL (transparent_maybeCleanup hL)
  have hreached := hsim.final (refines_new hnew) hbefore
  rw [machine, delays_eq_ledger hL hreached host 4 hlater] at hmax ⊢
  exact Ledger.zero_mem_delays_four hL hmax

/-- A token in a third of a second, a time that has to be rounded. -/
def thirds : Limits := ⟨some ⟨3, 1, fromSecs 30⟩, none, durationMax⟩

theorem thirds_valid : thirds.Valid := by
  intro k p hk
  have hp : p = ⟨3, 1, fromSecs 30⟩ := by
    cases k with
    | global => exact (Option.some.inj hk).symm
    | host key => cases hk
  rw [hp, RateLimitPolicy.validate_eq_ok_iff]
  norm_num

def newThirds : RateLimiter := ⟨some (.new ⟨3, 1, fromSecs 30⟩ 0), none, ∅, 0, 0, durationMax⟩

theorem new_thirds : RateLimiter.new thirds.global thirds.perHost thirds.instantMax 0 =
    some newThirds := rfl

def throttledThirds : RateLimiter :=
  machine.final newThirds
    [(0, .acquireDelay none), (0, .observeServerThrottle none 1 .global none)]

/-- The throttle, the token and the rounding each cost a call. -/
theorem lone_waiter_served_fourth :
    delays none 4 throttledThirds 0 = [1, 333333332, 1, 0] ∧ 0 ∈ delays none 4 throttledThirds 0 :=
  ⟨by decide +kernel,
    lone_waiter_served thirds_valid new_thirds 0 (by decide) none (by decide +kernel)⟩

end RateLimiter

end RateLimit

end Reqx
