import Reqx.Core.Timing

/-!
# The token bucket

The functions that change a bucket while they answer a question return the
answer and the new bucket. Tokens are rational numbers, and what the source
computes with `f64` is passed through a rounding; without one the tokens are
exact.
-/

namespace Reqx.RateLimit

structure RateLimitPolicy where
  requestsPerSecond : ℚ
  burst : ℕ
  maxThrottleDelay : ℕ
  deriving DecidableEq

namespace RateLimitPolicy

def standard : RateLimitPolicy := ⟨50, 50, fromSecs 30⟩

def invalidPolicy (p : RateLimitPolicy) (message : String) : Error :=
  .invalidRateLimitPolicy p.requestsPerSecond p.burst message

def validate (p : RateLimitPolicy) : Except Error Unit :=
  if p.requestsPerSecond ≤ 0 then
    .error (p.invalidPolicy "requests_per_second must be finite and > 0")
  else if p.burst = 0 then .error (p.invalidPolicy "burst must be >= 1")
  else .ok ()

theorem validate_eq_ok_iff (p : RateLimitPolicy) :
    p.validate = .ok () ↔ 0 < p.requestsPerSecond ∧ 0 < p.burst := by
  unfold validate
  split_ifs with hrate hburst
  · simp [hrate.not_gt]
  · simp [hburst]
  · simpa using ⟨not_le.mp hrate, Nat.pos_of_ne_zero hburst⟩

end RateLimitPolicy

/-- The rounding of the results of `f64` operations. -/
class TokenArithmetic where
  rounded : ℚ → ℚ

open TokenArithmetic (rounded)

/-- Exact rational numbers. -/
instance exactArithmetic : TokenArithmetic := ⟨id⟩

@[simp] theorem rounded_exact (x : ℚ) : rounded x = x := rfl

/-- `Duration::as_secs_f64`. -/
def asSecsF64 [TokenArithmetic] (duration : ℕ) : ℚ :=
  rounded (rounded (duration / nanosPerSecond : ℕ) +
    rounded ((duration % nanosPerSecond : ℕ) / nanosPerSecond))

@[simp] theorem asSecsF64_exact (duration : ℕ) : asSecsF64 duration = asSecs duration := by
  have hsplit : (duration : ℚ) = nanosPerSecond * (duration / nanosPerSecond : ℕ) +
      (duration % nanosPerSecond : ℕ) := by
    exact_mod_cast (Nat.div_add_mod duration nanosPerSecond).symm
  have hpos : (nanosPerSecond : ℚ) ≠ 0 := by norm_num [nanosPerSecond]
  simp only [asSecsF64, asSecs, rounded_exact]
  rw [hsplit, add_div, mul_div_cancel_left₀ _ hpos]

structure TokenBucket where
  policy : RateLimitPolicy
  tokens : ℚ
  lastRefillAt : ℕ
  throttleUntil : Option ℕ
  deriving DecidableEq

namespace TokenBucket

def isThrottled (b : TokenBucket) (now : ℕ) : Bool := b.throttleUntil.any (now < ·)

section Arithmetic

variable [TokenArithmetic]

def new (policy : RateLimitPolicy) (now : ℕ) : TokenBucket :=
  ⟨policy, rounded policy.burst, now, none⟩

def refill (b : TokenBucket) (now : ℕ) : TokenBucket :=
  if now ≤ b.lastRefillAt then b
  else
    let elapsedSecs := asSecsF64 (now - b.lastRefillAt)
    let replenished := rounded (elapsedSecs * b.policy.requestsPerSecond)
    { b with
      lastRefillAt := now
      tokens := min (rounded (b.tokens + replenished)) (rounded b.policy.burst)
      throttleUntil := b.throttleUntil.filter (now < ·) }

def waitDuration (b : TokenBucket) (now : ℕ) : ℕ × TokenBucket :=
  let b := b.refill now
  if b.isThrottled now then (saturatingDurationSince (b.throttleUntil.getD 0) now, b)
  else if 1 ≤ b.tokens then (0, b)
  else
    let neededTokens := max (rounded (1 - b.tokens)) 0
    let delaySecs := rounded (neededTokens / b.policy.requestsPerSecond)
    -- Zero would mean that a token was consumed.
    (max (durationFromSecsF64Saturating delaySecs) 1, b)

def canConsumeNow (b : TokenBucket) (now : ℕ) : Bool × TokenBucket :=
  let b := b.refill now
  (!b.isThrottled now && decide (1 ≤ b.tokens), b)

def consumeReadyToken (b : TokenBucket) : TokenBucket :=
  { b with tokens := max (rounded (b.tokens - 1)) 0 }

def isIdle (b : TokenBucket) (now : ℕ) : Bool :=
  decide (rounded b.policy.burst ≤ b.tokens) && !b.isThrottled now

end Arithmetic

/-- `instantMax` is the last instant the clock can represent. -/
def applyThrottle (b : TokenBucket) (instantMax now delay : ℕ) : TokenBucket :=
  let cappedDelay := min delay b.policy.maxThrottleDelay
  if cappedDelay = 0 then b
  else if instantMax < now + cappedDelay then b
  else
    { b with
      throttleUntil := some (match b.throttleUntil with
        | some existing => max existing (now + cappedDelay)
        | none => now + cappedDelay) }

end TokenBucket

end Reqx.RateLimit
