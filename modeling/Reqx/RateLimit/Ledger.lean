import Reqx.Library.Accrual
import Reqx.RateLimit.Limiter

/-!
# The ledger of a rate limiter

What the limiter is for, without a table and without eviction: every bucket is
an account that is there from the start. It accrues tokens up to its burst, and
a server hint puts it on hold until a deadline.
-/

namespace Reqx.RateLimit

open Accrual

inductive BucketId where
  | global
  | host (key : Text)
  deriving DecidableEq, Repr

/-- The buckets a request to a host draws on, if they have a policy. -/
def bucketsOf (host : Option Text) : List BucketId :=
  .global :: ((host.bind normalizeHostKey).map BucketId.host).toList

theorem host_mem_bucketsOf {host : Option Text} {key : Text} :
    .host key ∈ bucketsOf host ↔ host.bind normalizeHostKey = some key := by
  unfold bucketsOf
  cases host.bind normalizeHostKey <;> simp [eq_comm]

def ServerThrottleScope.appliesTo (scope : ServerThrottleScope) (host : Option Text) :
    BucketId → Bool
  | .global => scope.applyGlobal
  | .host key => scope.applyHost && decide (host.bind normalizeHostKey = some key)

structure Limits where
  global : Option RateLimitPolicy
  perHost : Option RateLimitPolicy
  instantMax : ℕ

namespace Limits

def policy? (L : Limits) : BucketId → Option RateLimitPolicy
  | .global => L.global
  | .host _ => L.perHost

def Valid (L : Limits) : Prop := ∀ k p, L.policy? k = some p → p.validate = .ok ()

def neededBy (L : Limits) (host : Option Text) : List (BucketId × RateLimitPolicy) :=
  (L.global.map fun p ↦ (BucketId.global, p)).toList ++
    (L.perHost.bind fun p ↦
      (host.bind normalizeHostKey).map fun key ↦ (BucketId.host key, p)).toList

theorem mem_neededBy {L : Limits} {host : Option Text} {k : BucketId} {p : RateLimitPolicy} :
    (k, p) ∈ L.neededBy host ↔ k ∈ bucketsOf host ∧ L.policy? k = some p := by
  obtain ⟨global, perHost, instantMax⟩ := L
  unfold neededBy bucketsOf
  cases k <;> cases global <;> cases perHost <;> cases host.bind normalizeHostKey <;>
    simp [policy?, eq_comm]

end Limits

/-- Tokens, and the deadline of a hold that has not passed, at some instant. -/
structure Account where
  level : ℚ
  hold : Option ℕ

namespace Account

def full (p : RateLimitPolicy) : Account := ⟨p.burst, none⟩

def advance (p : RateLimitPolicy) (before now : ℕ) (a : Account) : Account :=
  ⟨accrue p.burst p.requestsPerSecond (asSecs (now - before)) a.level, a.hold.filter (now < ·)⟩

def ready (a : Account) : Bool := a.hold.isNone && decide (1 ≤ a.level)

theorem ready_iff {a : Account} : a.ready = true ↔ a.hold = none ∧ 1 ≤ a.level := by
  simp [ready]

def wait (p : RateLimitPolicy) (now : ℕ) (a : Account) : ℕ :=
  match a.hold with
  | some deadline => deadline - now
  | none =>
    if 1 ≤ a.level then 0
    else max (durationFromSecsF64Saturating (max (1 - a.level) 0 / p.requestsPerSecond)) 1

def spend (a : Account) : Account := { a with level := a.level - 1 }

def throttle (p : RateLimitPolicy) (instantMax now delay : ℕ) (a : Account) : Account :=
  let cappedDelay := min delay p.maxThrottleDelay
  if cappedDelay = 0 ∨ instantMax < now + cappedDelay then a
  else { a with hold := some (max (a.hold.getD 0) (now + cappedDelay)) }

end Account

structure Ledger where
  time : ℕ
  account : BucketId → Account

namespace Ledger

variable (L : Limits)

def opened (now : ℕ) : Ledger where
  time := now
  account k := ((L.policy? k).map Account.full).getD ⟨0, none⟩

def upTo (σ : Ledger) (now : ℕ) : Ledger where
  time := now
  account k :=
    match L.policy? k with
    | some p => (σ.account k).advance p σ.time now
    | none => σ.account k

def acquire (σ : Ledger) (host : Option Text) : ℕ × Ledger :=
  if (L.neededBy host).all fun e ↦ (σ.account e.1).ready then
    (0, { σ with
      account := fun k ↦ if k ∈ bucketsOf host then (σ.account k).spend else σ.account k })
  else (((L.neededBy host).map fun e ↦ (σ.account e.1).wait e.2 σ.time).foldr max 0, σ)

def holdWhere (σ : Ledger) (chosen : BucketId → Bool) (delay : ℕ) : Ledger where
  time := σ.time
  account k :=
    match L.policy? k with
    | some p =>
      if chosen k then (σ.account k).throttle p L.instantMax σ.time delay else σ.account k
    | none => σ.account k

def observe (σ : Ledger) (host : Option Text) (delay : ℕ) (configuredScope : ServerThrottleScope)
    (headerScopeHint : Option ServerThrottleScope) : ServerThrottleScope × Ledger :=
  let resolved := resolveServerThrottleScope configuredScope headerScopeHint
    (host.bind normalizeHostKey).isSome L.global.isSome L.perHost.isSome
  (resolved, σ.holdWhere L (resolved.appliesTo host) delay)

def machine : Machine (ℕ × Call) Answer Ledger where
  step σ call :=
    match call.2 with
    | .acquireDelay host =>
      let (duration, σ) := (σ.upTo L call.1).acquire L host
      (.delay duration, σ)
    | .observeServerThrottle host delay configuredScope headerScopeHint =>
      let (resolved, σ) :=
        (σ.upTo L call.1).observe L host delay configuredScope headerScopeHint
      (.scope resolved, σ)

def Later (σ : Ledger) (call : ℕ × Call) : Prop := σ.time ≤ call.1

variable {L}

@[simp] theorem upTo_time (σ : Ledger) (now : ℕ) : (σ.upTo L now).time = now := rfl

theorem upTo_account {k : BucketId} {p : RateLimitPolicy} (hk : L.policy? k = some p) (σ : Ledger)
    (now : ℕ) : (σ.upTo L now).account k = (σ.account k).advance p σ.time now := by
  simp [upTo, hk]

theorem holdWhere_account {k : BucketId} {p : RateLimitPolicy} (hk : L.policy? k = some p)
    (σ : Ledger) (chosen : BucketId → Bool) (delay : ℕ) :
    (σ.holdWhere L chosen delay).account k =
      if chosen k then (σ.account k).throttle p L.instantMax σ.time delay else σ.account k := by
  simp [holdWhere, hk]

@[simp] theorem acquire_time (σ : Ledger) (host : Option Text) :
    (σ.acquire L host).2.time = σ.time := by
  unfold acquire
  split_ifs <;> rfl

@[simp] theorem step_time (σ : Ledger) (call : ℕ × Call) :
    ((machine L).step σ call).2.time = call.1 := by
  obtain ⟨now, call⟩ := call
  cases call with
  | acquireDelay host => simp [machine]
  | observeServerThrottle host delay configuredScope headerScopeHint => rfl

/-- Non-decreasing clock readings are what the ledger admits. -/
theorem admits_later {σ : Ledger} {calls : List (ℕ × Call)}
    (hclock : List.IsChain (· ≤ ·) (σ.time :: calls.map Prod.fst)) :
    (machine L).Admits Later σ calls := by
  induction calls generalizing σ with
  | nil => trivial
  | cons call calls ih =>
    rw [List.map_cons, List.isChain_cons_cons] at hclock
    refine ⟨hclock.1, ih ?_⟩
    rw [step_time]
    exact hclock.2

end Ledger

end Reqx.RateLimit
