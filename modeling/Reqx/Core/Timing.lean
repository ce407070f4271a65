import Mathlib.Algebra.Order.Field.Basic
import Mathlib.Algebra.Order.Ring.Rat
import Mathlib.Tactic.NormNum
import Mathlib.Tactic.Positivity
import Reqx.Core.Error

/-!
# Deadlines and delays

The clock-dependent helpers take the instant that the source reads inside them
as an explicit argument `now`.
-/

namespace Reqx

def elapsed (requestStartedAt now : ℕ) : ℕ :=
  saturatingDurationSince now requestStartedAt

def durationMillisCeil (duration : ℕ) : ℕ :=
  (duration + (nanosPerMilli - 1)) / nanosPerMilli

def phaseTimeout (perAttemptTimeout : ℕ) (totalTimeout : Option ℕ) (requestStartedAt now : ℕ) :
    Option ℕ :=
  match totalTimeout with
  | none => some perAttemptTimeout
  | some total =>
    if elapsed requestStartedAt now ≥ total then none
    else some (min perAttemptTimeout (total - elapsed requestStartedAt now))

def totalTimeoutExpired (totalTimeout : Option ℕ) (requestStartedAt now : ℕ) : Bool :=
  match totalTimeout with
  | none => false
  | some total => elapsed requestStartedAt now ≥ total

/-- `Instant::checked_add`: the monotonic clock ends at `instantMax`. -/
def totalTimeoutDeadline (instantMax : ℕ) (totalTimeout : Option ℕ) (requestStartedAt : ℕ) :
    Option ℕ :=
  totalTimeout.bind fun timeout ↦
    if requestStartedAt + timeout ≤ instantMax then some (requestStartedAt + timeout) else none

def boundedRetryDelay (retryDelay : ℕ) (totalTimeout : Option ℕ) (requestStartedAt now : ℕ) :
    Option ℕ :=
  match totalTimeout with
  | none => some retryDelay
  | some total =>
    if elapsed requestStartedAt now ≥ total then none
    else if retryDelay ≥ total - elapsed requestStartedAt now then none
    else some retryDelay

section Total

variable {perAttemptTimeout retryDelay total requestStartedAt now value : ℕ}

theorem phaseTimeout_eq_some
    (h : phaseTimeout perAttemptTimeout (some total) requestStartedAt now = some value) :
    elapsed requestStartedAt now < total ∧ value ≤ perAttemptTimeout ∧
      value ≤ total - elapsed requestStartedAt now := by
  unfold phaseTimeout at h
  dsimp only at h
  split at h
  · cases h
  next hleft =>
    cases h
    exact ⟨not_le.mp hleft, min_le_left _ _, min_le_right _ _⟩

/-- A total timeout that has expired leaves no time, and no delay is shorter than that. -/
theorem boundedRetryDelay_total :
    boundedRetryDelay retryDelay (some total) requestStartedAt now =
      if retryDelay < total - elapsed requestStartedAt now then some retryDelay else none := by
  unfold boundedRetryDelay
  dsimp only
  split
  next hexpired => rw [Nat.sub_eq_zero_of_le hexpired, if_neg (Nat.not_lt_zero _)]
  · split
    next hlong => rw [if_neg (not_lt.mpr hlong)]
    next hshort => rw [if_pos (not_le.mp hshort)]

end Total

def asSecs (duration : ℕ) : ℚ := duration / nanosPerSecond

theorem asSecs_nonneg (duration : ℕ) : 0 ≤ asSecs duration := by
  unfold asSecs
  positivity

theorem asSecs_sub {later earlier : ℕ} (h : earlier ≤ later) :
    asSecs (later - earlier) = asSecs later - asSecs earlier := by
  unfold asSecs
  rw [Nat.cast_sub h, sub_div]

theorem asSecs_le_asSecs_iff {a b : ℕ} : asSecs a ≤ asSecs b ↔ a ≤ b := by
  have hpos : (0 : ℚ) < nanosPerSecond := by norm_num [nanosPerSecond]
  rw [asSecs, asSecs, div_le_div_iff_of_pos_right hpos, Nat.cast_le]

def roundTiesEven (q : ℚ) : ℕ :=
  let low := q.floor.toNat
  let fraction := q - low
  if fraction < 1 / 2 then low
  else if 1 / 2 < fraction then low + 1
  else if low % 2 = 0 then low
  else low + 1

/-- `Duration::from_secs_f64` on an exact number of seconds rounds to the nearest nanosecond. -/
def durationFromSecsF64Saturating (seconds : ℚ) : ℕ :=
  if seconds ≤ 0 then 0
  else if seconds ≥ asSecs durationMax then durationMax
  else roundTiesEven (seconds * nanosPerSecond)

def deadlineExceededError (totalTimeout : Option ℕ) (method : Method) (uri : Text) : Error :=
  .deadlineExceeded ((totalTimeout.map durationMillisCeil).getD 0) method uri

def durationFromNanosSaturating (nanoseconds : ℕ) : ℕ :=
  if nanoseconds / nanosPerSecond > 2 ^ 64 - 1 then durationMax else nanoseconds

-- `now` is a reading of the system clock; a date in the past asks for no wait.
def parseRetryAfter (deps : Dependencies) (headers : HeaderMap) (now : ℕ) : Option ℕ :=
  ((headers.get? .retryAfter).bind HeaderValue.toStr).bind fun value ↦
    let rawValue := Text.trim value
    match Text.parseU64 rawValue with
    | some seconds => some (fromSecs seconds)
    | none => (deps.parseHttpDate rawValue).map (· - now)

def parseRetryAfterCapped (deps : Dependencies) (headers : HeaderMap) (now maxDelay : ℕ) :
    Option ℕ :=
  (parseRetryAfter deps headers now).map (min · maxDelay)

end Reqx
