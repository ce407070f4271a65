import Mathlib.Data.Rat.Defs
import Reqx.Core.Quantities
import Reqx.Resilience.CircuitSystem

/-!
# The adaptive concurrency controller

A permit is granted while fewer requests are in flight than the current limit
allows. A permit that ends with a verdict moves the limit; one that is
cancelled or dropped only gives its place back. Both clients run this state
under a lock; they differ in how they wait for a place.
-/

namespace Reqx.Resilience

/-- The operations on `f64` that the controller uses. -/
structure F64 (F : Type) where
  ofRat : ℚ → F
  ofUsize : ℕ → F
  asSecs : ℕ → F
  add : F → F → F
  mul : F → F → F
  le : F → F → Bool
  lt : F → F → Bool
  isFinite : F → Bool
  floorToUsize : F → ℕ
  floorToUsize_le : ∀ x, floorToUsize x ≤ usizeMax

/-- Exact arithmetic in place of `f64`. -/
def F64.exact : F64 ℚ where
  ofRat x := x
  ofUsize n := n
  asSecs d := d / 1000000000
  add x y := x + y
  mul x y := x * y
  le x y := x ≤ y
  lt x y := x < y
  isFinite _ := true
  floorToUsize x := min x.floor.toNat usizeMax
  floorToUsize_le _ := min_le_right _ _

structure AdaptiveConcurrencyPolicy (F : Type) where
  minLimit : ℕ
  initialLimit : ℕ
  maxLimit : ℕ
  increaseStep : ℕ
  decreaseRatio : F
  highLatencyThreshold : ℕ
  fits : minLimit ≤ usizeMax ∧ initialLimit ≤ usizeMax ∧ maxLimit ≤ usizeMax
  deriving DecidableEq

structure AdaptiveConcurrencyState (F : Type) where
  inFlight : ℕ
  currentLimit : ℕ
  ewmaLatencyMs : F
  deriving DecidableEq

inductive AdaptiveConcurrencyOutcome where
  | success | failure
  deriving DecidableEq, Repr

variable {F : Type} (f : F64 F) (policy : AdaptiveConcurrencyPolicy F)

namespace AdaptiveConcurrencyState

def new : AdaptiveConcurrencyState F := ⟨0, policy.initialLimit, f.ofRat 0⟩

variable (s : AdaptiveConcurrencyState F)

def tryAcquire : Bool × AdaptiveConcurrencyState F :=
  if s.inFlight ≥ s.currentLimit then (false, s)
  else (true, { s with inFlight := saturatingAdd s.inFlight 1 })

def nextEwma (latencyMs : F) : F :=
  if f.le s.ewmaLatencyMs (f.ofRat (1 / 2 ^ 52)) then latencyMs
  else f.add (f.mul s.ewmaLatencyMs (f.ofRat (4 / 5))) (f.mul latencyMs (f.ofRat (1 / 5)))

def nextLimit (shouldDecrease : Bool) : ℕ :=
  if shouldDecrease then
    max (f.floorToUsize (f.mul (f.ofUsize s.currentLimit) policy.decreaseRatio)) policy.minLimit
  else min (saturatingAdd s.currentLimit policy.increaseStep) policy.maxLimit

def releaseAndRecord (outcome : AdaptiveConcurrencyOutcome) (latency : ℕ) :
    AdaptiveConcurrencyState F :=
  let ewmaLatencyMs := s.nextEwma f (f.mul (f.asSecs latency) (f.ofRat 1000))
  let thresholdMs := f.mul (f.asSecs policy.highLatencyThreshold) (f.ofRat 1000)
  let shouldDecrease := outcome = .failure || f.lt thresholdMs ewmaLatencyMs
  ⟨s.inFlight - 1, s.nextLimit f policy shouldDecrease, ewmaLatencyMs⟩

def releaseWithoutRecord : AdaptiveConcurrencyState F := { s with inFlight := s.inFlight - 1 }

end AdaptiveConcurrencyState

structure AdaptiveConcurrencyPermit where
  startedAt : ℕ
  completed : Bool
  deriving DecidableEq, Repr

/-- One round of the loop of `acquire`. -/
def AdaptiveConcurrencyState.acquire (s : AdaptiveConcurrencyState F) (now : ℕ) :
    Option AdaptiveConcurrencyPermit × AdaptiveConcurrencyState F :=
  match s.tryAcquire with
  | (false, s) => (none, s)
  | (true, s) => (some ⟨now, false⟩, s)

namespace AdaptiveConcurrencyPermit

variable (p : AdaptiveConcurrencyPermit) (now : ℕ) (s : AdaptiveConcurrencyState F)

def latency : ℕ := saturatingDurationSince now p.startedAt

def drop : AdaptiveConcurrencyState F := if p.completed then s else s.releaseWithoutRecord

def markSuccess : AdaptiveConcurrencyState F :=
  { p with completed := true }.drop (s.releaseAndRecord f policy .success (p.latency now))

def markFailure : AdaptiveConcurrencyState F :=
  { p with completed := true }.drop (s.releaseAndRecord f policy .failure (p.latency now))

def cancel : AdaptiveConcurrencyState F :=
  { p with completed := true }.drop s.releaseWithoutRecord

def finish (e : Ending) : AdaptiveConcurrencyState F :=
  match e with
  | .success => p.markSuccess f policy now s
  | .failure => p.markFailure f policy now s
  | .cancel => p.cancel s
  | .drop => p.drop s

end AdaptiveConcurrencyPermit

/-- A permit as it is handed out. Each of its methods takes it away from its owner. -/
abbrev LivePermit := { p : AdaptiveConcurrencyPermit // p.completed = false }

namespace AdaptiveConcurrencyState

variable {s s' : AdaptiveConcurrencyState F}

/-- The counter and the limit are what a `usize` can hold. -/
def Fits (s : AdaptiveConcurrencyState F) : Prop := s.currentLimit ≤ usizeMax

theorem fits_new : (new f policy).Fits := policy.fits.2.1

/-- A place that is taken is one more request in flight; the limit keeps the counter from
saturating. -/
theorem tryAcquire_spec (hs : s.Fits) (h : s.tryAcquire = (true, s')) :
    s.inFlight < s.currentLimit ∧ s'.inFlight = s.inFlight + 1 ∧
      s'.currentLimit = s.currentLimit := by
  unfold tryAcquire at h
  split at h
  · cases h
  next hfree =>
    cases h
    have hlimit : s.currentLimit ≤ usizeMax := hs
    exact ⟨by omega, saturatingAdd_of_le (by omega), rfl⟩

theorem acquire_spec {now : ℕ} {p : AdaptiveConcurrencyPermit} (hs : s.Fits)
    (h : s.acquire now = (some p, s')) :
    s'.inFlight = s.inFlight + 1 ∧ p = ⟨now, false⟩ ∧ s'.Fits := by
  unfold acquire at h
  split at h
  · cases h
  next s₁ hacquired =>
    cases h
    obtain ⟨-, hcount, hlimit⟩ := tryAcquire_spec hs hacquired
    exact ⟨hcount, rfl, hlimit.trans_le hs⟩

variable (s)

theorem nextLimit_le (shouldDecrease : Bool) : s.nextLimit f policy shouldDecrease ≤ usizeMax := by
  unfold nextLimit
  split
  · exact max_le (f.floorToUsize_le _) policy.fits.1
  · exact (min_le_right _ _).trans policy.fits.2.2

theorem fits_releaseAndRecord (outcome : AdaptiveConcurrencyOutcome) (latency : ℕ) :
    (s.releaseAndRecord f policy outcome latency).Fits :=
  s.nextLimit_le f policy _

end AdaptiveConcurrencyState

/-- Whatever ends a permit gives its place back. -/
theorem LivePermit.finish_spec (p : LivePermit) (e : Ending) (now : ℕ)
    {s : AdaptiveConcurrencyState F} (hs : s.Fits) :
    (p.val.finish f policy now s e).inFlight = s.inFlight - 1 ∧
      (p.val.finish f policy now s e).Fits := by
  obtain ⟨p, hlive⟩ := p
  cases e with
  | success => exact ⟨rfl, s.fits_releaseAndRecord f policy _ _⟩
  | failure => exact ⟨rfl, s.fits_releaseAndRecord f policy _ _⟩
  | cancel => exact ⟨rfl, hs⟩
  | drop =>
    simp only [AdaptiveConcurrencyPermit.finish, AdaptiveConcurrencyPermit.drop, hlive]
    exact ⟨rfl, hs⟩

end Reqx.Resilience
