import Mathlib.Data.Finset.Card
import Reqx.Library.Machine
import Reqx.Core.Uri
import Reqx.RateLimit.TokenBucket

/-!
# The rate limiter

A global bucket and one bucket per host. `acquire_delay` and
`observe_server_throttle` are written over the cleanup they call, so that the
limiter without one is an instance of the same text.
-/

namespace Reqx.RateLimit

inductive ServerThrottleScope where
  | auto | host | global | both
  deriving DecidableEq, Repr

namespace ServerThrottleScope

def applyHost : ServerThrottleScope → Bool
  | .host | .both => true
  | .auto | .global => false

def applyGlobal : ServerThrottleScope → Bool
  | .global | .both => true
  | .auto | .host => false

end ServerThrottleScope

def resolveAutoServerThrottleScope (headerScopeHint : Option ServerThrottleScope)
    (hasHost hasGlobalRateLimit hasPerHostRateLimit : Bool) : ServerThrottleScope :=
  let hostAvailable := hasHost && hasPerHostRateLimit
  match headerScopeHint with
  | some .both =>
    match hasGlobalRateLimit, hostAvailable with
    | true, true => .both
    | true, false => .global
    | false, true => .host
    | false, false => .both
  | some .global =>
    if hasGlobalRateLimit then .global else if hostAvailable then .host else .global
  | some .host | _ =>
    if hostAvailable then .host else if hasGlobalRateLimit then .global else .host

def resolveServerThrottleScope (configuredScope : ServerThrottleScope)
    (headerScopeHint : Option ServerThrottleScope)
    (hasHost hasGlobalRateLimit hasPerHostRateLimit : Bool) : ServerThrottleScope :=
  match configuredScope with
  | .auto =>
    resolveAutoServerThrottleScope headerScopeHint hasHost hasGlobalRateLimit hasPerHostRateLimit
  | other => other

def containsScopeToken (value : Text) (tokens : List String) : Bool :=
  (value.splitOnP fun c ↦ !c.isAlphanum).any fun token ↦ token ∈ tokens.map String.toList

def serverThrottleScopeFromHeaderValue (value : Text) : Option ServerThrottleScope :=
  let normalized := Text.toAsciiLowercase (Text.trim value)
  if normalized.isEmpty then none
  else
    let hasBothScope := containsScopeToken normalized ["both", "all"]
    let hasGlobalScope := containsScopeToken normalized ["global", "shared"]
    let hasHostScope :=
      containsScopeToken normalized ["host", "resource", "bucket", "user", "local"]
    if hasBothScope || (hasGlobalScope && hasHostScope) then some .both
    else if hasGlobalScope then some .global
    else if hasHostScope then some .host
    else none

def rateLimitScopeHeaders : List HeaderName :=
  ["x-ratelimit-scope", "ratelimit-scope", "x-rate-limit-scope"].map HeaderName.ofString

def serverThrottleScopeFromHeaders (headers : HeaderMap) : Option ServerThrottleScope :=
  (rateLimitScopeHeaders.flatMap headers.getAll).findSome? fun value ↦
    value.toStr.bind serverThrottleScopeFromHeaderValue

structure PerHostRateLimitEntry where
  bucket : TokenBucket
  lastUsedAt : ℕ
  deriving DecidableEq

abbrev Entries := Std.TreeMap Text PerHostRateLimitEntry

def perHostRateLimitEntryTtl : ℕ := fromSecs 300
def perHostRateLimitMaxEntries : ℕ := 1024
def perHostRateLimitCleanupInterval : ℕ := fromSecs 5

section Cleanup

variable [TokenArithmetic]

/-- The key `min_by_key` picks: the first one in key order on a tie. -/
def oldestIdleKey (entries : Entries) (now : ℕ) : Option Text :=
  ((entries.toList.filter fun e ↦ e.2.bucket.isIdle now).argmin fun e ↦ e.2.lastUsedAt).map
    Prod.fst

/-- The loop of the capacity-based eviction. Each round removes one entry, so
the number of entries is enough fuel. -/
def evictOldestIdle (now : ℕ) : ℕ → Entries → Entries
  | 0, entries => entries
  | fuel + 1, entries =>
    if entries.size > perHostRateLimitMaxEntries then
      match oldestIdleKey entries now with
      | none => entries
      | some key => evictOldestIdle now fuel (entries.erase key)
    else entries

def retainEntry (now : ℕ) (entry : PerHostRateLimitEntry) : Option PerHostRateLimitEntry :=
  let entry := { entry with bucket := entry.bucket.refill now }
  if !entry.bucket.isIdle now ||
      decide (saturatingDurationSince now entry.lastUsedAt ≤ perHostRateLimitEntryTtl) then
    some entry
  else none

def cleanupStalePerHostRateLimits (entries : Entries) (now : ℕ) : Entries :=
  let retained := entries.filterMap fun _ entry ↦ retainEntry now entry
  evictOldestIdle now retained.size retained

end Cleanup

structure RateLimiter where
  global : Option TokenBucket
  perHostPolicy : Option RateLimitPolicy
  perHost : Entries
  perHostCleanupOrigin : ℕ
  perHostLastCleanupMs : ℕ
  instantMax : ℕ

namespace RateLimiter

def u64Max : ℕ := 2 ^ 64 - 1

def storeHost (l : RateLimiter) (key : Text) (bucket : TokenBucket) (now : ℕ) : RateLimiter :=
  { l with perHost := l.perHost.insert key ⟨bucket, now⟩ }

section Arithmetic

variable [TokenArithmetic]

def new (globalPolicy perHostPolicy : Option RateLimitPolicy) (instantMax now : ℕ) :
    Option RateLimiter :=
  if globalPolicy.isNone && perHostPolicy.isNone then none
  else some ⟨globalPolicy.map (TokenBucket.new · now), perHostPolicy, ∅, now, 0, instantMax⟩

-- The per-host lock is held, so the compare-exchange of the source succeeds at once.
def maybeCleanupStalePerHostRateLimits (l : RateLimiter) (now : ℕ) : RateLimiter :=
  let nowMs := min (asMillis (saturatingDurationSince now l.perHostCleanupOrigin)) u64Max
  let cleanupIntervalMs := min (asMillis perHostRateLimitCleanupInterval) u64Max
  if l.perHost.size > perHostRateLimitMaxEntries ∨
      cleanupIntervalMs ≤ nowMs - l.perHostLastCleanupMs then
    { l with
      perHost := cleanupStalePerHostRateLimits l.perHost now
      perHostLastCleanupMs := nowMs }
  else l

/-- `entry(host).or_insert_with(..)`: the bucket of a host, new if there is none. -/
def hostBucket (l : RateLimiter) (policy : RateLimitPolicy) (key : Text) (now : ℕ) : TokenBucket :=
  match l.perHost[key]? with
  | some entry => entry.bucket
  | none => TokenBucket.new policy now

def lockedBuckets (l : RateLimiter) (hostKey : Option Text) (now : ℕ) : List TokenBucket :=
  l.global.toList ++
    (l.perHostPolicy.bind fun policy ↦
      hostKey.map fun key ↦ l.hostBucket policy key now).toList

def updateLocked (l : RateLimiter) (hostKey : Option Text) (now : ℕ)
    (f : TokenBucket → TokenBucket) : RateLimiter :=
  { l with
    global := l.global.map f
    perHost :=
      match l.perHostPolicy, hostKey with
      | some policy, some key => l.perHost.insert key ⟨f (l.hostBucket policy key now), now⟩
      | _, _ => l.perHost }

/-- `acquire_delay` once the locks are held and the table is clean. -/
def acquireLocked (l : RateLimiter) (host : Option Text) (now : ℕ) : ℕ × RateLimiter :=
  let hostKey := host.bind normalizeHostKey
  let buckets := l.lockedBuckets hostKey now
  if buckets.all fun b ↦ (b.canConsumeNow now).1 then
    (0, l.updateLocked hostKey now fun b ↦ (b.canConsumeNow now).2.consumeReadyToken)
  else
    ((buckets.map fun b ↦ ((b.canConsumeNow now).2.waitDuration now).1).foldr max 0,
      l.updateLocked hostKey now fun b ↦ ((b.canConsumeNow now).2.waitDuration now).2)

end Arithmetic

def throttleGlobal (l : RateLimiter) (scope : ServerThrottleScope) (delay now : ℕ) : RateLimiter :=
  if scope.applyGlobal then
    { l with global := l.global.map (TokenBucket.applyThrottle · l.instantMax now delay) }
  else l

section Operations

variable [TokenArithmetic] (cleanup : RateLimiter → ℕ → RateLimiter)

def acquireDelayWith (l : RateLimiter) (host : Option Text) (now : ℕ) : ℕ × RateLimiter :=
  (if l.perHostPolicy.isSome then cleanup l now else l).acquireLocked host now

def throttleHostWith (l : RateLimiter) (scope : ServerThrottleScope) (hostKey : Option Text)
    (delay now : ℕ) : RateLimiter :=
  match l.perHostPolicy, hostKey with
  | some policy, some key =>
    if scope.applyHost then
      let l := cleanup l now
      let bucket := (l.hostBucket policy key now).applyThrottle l.instantMax now delay
      l.storeHost key bucket now
    else l
  | _, _ => l

def observeServerThrottleWith (l : RateLimiter) (host : Option Text) (delay : ℕ)
    (configuredScope : ServerThrottleScope) (headerScopeHint : Option ServerThrottleScope)
    (now : ℕ) : ServerThrottleScope × RateLimiter :=
  let hostKey := host.bind normalizeHostKey
  let resolvedScope := resolveServerThrottleScope configuredScope headerScopeHint
    hostKey.isSome l.global.isSome l.perHostPolicy.isSome
  (resolvedScope,
    if delay = 0 then l
    else
      (l.throttleGlobal resolvedScope delay now).throttleHostWith cleanup resolvedScope hostKey
        delay now)

def acquireDelay : RateLimiter → Option Text → ℕ → ℕ × RateLimiter :=
  acquireDelayWith maybeCleanupStalePerHostRateLimits

def observeServerThrottle : RateLimiter → Option Text → ℕ → ServerThrottleScope →
    Option ServerThrottleScope → ℕ → ServerThrottleScope × RateLimiter :=
  observeServerThrottleWith maybeCleanupStalePerHostRateLimits

end Operations

end RateLimiter

/-! ## Runs -/

inductive Call where
  | acquireDelay (host : Option Text)
  | observeServerThrottle (host : Option Text) (delay : ℕ)
      (configuredScope : ServerThrottleScope) (headerScopeHint : Option ServerThrottleScope)
  deriving DecidableEq, Repr

inductive Answer where
  | delay (duration : ℕ)
  | scope (resolved : ServerThrottleScope)
  deriving DecidableEq, Repr

namespace RateLimiter

/-- A limiter that cleans up its table in the given way, driven by timed calls. -/
def machineWith (cleanup : RateLimiter → ℕ → RateLimiter) :
    Machine (ℕ × Call) Answer RateLimiter where
  step l call :=
    match call.2 with
    | .acquireDelay host =>
      let (duration, l) := l.acquireDelayWith cleanup host call.1
      (.delay duration, l)
    | .observeServerThrottle host delay configuredScope headerScopeHint =>
      let (resolved, l) :=
        l.observeServerThrottleWith cleanup host delay configuredScope headerScopeHint call.1
      (.scope resolved, l)

def machine : Machine (ℕ × Call) Answer RateLimiter :=
  machineWith maybeCleanupStalePerHostRateLimits

def referenceMachine : Machine (ℕ × Call) Answer RateLimiter := machineWith fun l _ ↦ l

end RateLimiter

end Reqx.RateLimit
