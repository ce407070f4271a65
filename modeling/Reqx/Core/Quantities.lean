import Mathlib.Algebra.Group.Nat.Defs
import Mathlib.Order.Lattice
import Mathlib.Order.Nat
import Mathlib.Tactic.Common

/-!
# Machine quantities

Counters of type `usize` are natural numbers with the bound of the 64-bit
targets. A `Duration` and an `Instant` are natural numbers of nanoseconds, the
latter since the origin of the monotonic clock. The difference of two instants
is the truncated difference, as in `saturating_duration_since`.
-/

namespace Reqx

def usizeMax : ℕ := 2 ^ 64 - 1

def saturatingAdd (a b : ℕ) : ℕ := min (a + b) usizeMax

theorem saturatingAdd_of_le {a b : ℕ} (h : a + b ≤ usizeMax) : saturatingAdd a b = a + b :=
  min_eq_left h

def nanosPerMilli : ℕ := 1000000

def nanosPerSecond : ℕ := 1000000000

/-- `Duration::MAX`: `u64::MAX` seconds and 999 999 999 nanoseconds. -/
def durationMax : ℕ := 2 ^ 64 * nanosPerSecond - 1

def fromSecs (seconds : ℕ) : ℕ := seconds * nanosPerSecond

def fromMillis (milliseconds : ℕ) : ℕ := milliseconds * nanosPerMilli

def asMillis (duration : ℕ) : ℕ := duration / nanosPerMilli

def saturatingDurationSince (later earlier : ℕ) : ℕ := later - earlier

end Reqx
