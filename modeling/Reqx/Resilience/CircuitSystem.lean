import Mathlib.Data.List.DropRight
import Reqx.Resilience.CircuitBreaker

/-!
# Interleaved attempts on one breaker

The breaker is driven by any number of attempts. Every operation holds the
state lock from its clock reading to its last write, so an interleaving is a
list of operations. `live` are the attempts that have not ended yet; `log`
remembers what happened and is read by no operation.
-/

namespace Reqx.Resilience

inductive Ending where
  | success | failure | cancel | drop
  deriving DecidableEq, Repr

def Ending.isCancelled : Ending → Bool
  | .cancel | .drop => true
  | .success | .failure => false

def CircuitAttempt.finish (a : CircuitAttempt) (e : Ending) (now : ℕ) (b : CircuitBreaker) :
    CircuitBreaker :=
  match e with
  | .success => a.markSuccess b
  | .failure => a.markFailure b now
  | .cancel => a.cancel b
  | .drop => a.drop b

def CircuitAttempt.admittedIn (a : CircuitAttempt) (kind : CircuitAttemptKind)
    (generation : ℕ) : Bool :=
  a.kind = kind ∧ a.generation = generation

theorem CircuitAttempt.admittedIn_own {a : CircuitAttempt} {kind : CircuitAttemptKind}
    (h : a.kind = kind) : a.admittedIn kind a.generation = true :=
  decide_eq_true ⟨h, rfl⟩

theorem CircuitAttempt.admittedIn_other {a : CircuitAttempt} {generation : ℕ}
    (h : a.generation ≠ generation) (kind : CircuitAttemptKind) :
    a.admittedIn kind generation = false :=
  decide_eq_false fun hin ↦ h hin.2

inductive CircuitEvent where
  | begun (attempt : CircuitAttempt) (now : ℕ)
  | refused (retryAfter : ℕ) (now : ℕ)
  | ended (attempt : CircuitAttempt) (ending : Ending) (now : ℕ)
  deriving DecidableEq, Repr

inductive CircuitOp where
  | begin
  | finish (index : ℕ) (ending : Ending)
  deriving DecidableEq, Repr

structure CircuitSystem where
  breaker : CircuitBreaker
  live : List CircuitAttempt
  log : List CircuitEvent
  deriving DecidableEq

namespace CircuitSystem

def initial (policy : CircuitBreakerPolicy) : CircuitSystem := ⟨.new policy, [], []⟩

def step (s : CircuitSystem) (now : ℕ) : CircuitOp → CircuitSystem
  | .begin =>
    match s.breaker.begin now with
    | (.ok a, b) => ⟨b, s.live ++ [a], s.log ++ [.begun a now]⟩
    | (.error retryAfter, b) => ⟨b, s.live, s.log ++ [.refused retryAfter now]⟩
  | .finish index e =>
    match s.live[index]? with
    | none => s
    | some a => ⟨a.finish e now s.breaker, s.live.eraseIdx index, s.log ++ [.ended a e now]⟩

def run (s : CircuitSystem) (ops : List (ℕ × CircuitOp)) : CircuitSystem :=
  ops.foldl (fun s op ↦ s.step op.1 op.2) s

def liveIn (s : CircuitSystem) (kind : CircuitAttemptKind) (generation : ℕ) : ℕ :=
  s.live.countP fun a ↦ a.admittedIn kind generation

end CircuitSystem

/-! ## Reading the log -/

def CircuitEvent.endingIn (kind : CircuitAttemptKind) (generation : ℕ) :
    CircuitEvent → Option Ending
  | .ended a e _ => if a.admittedIn kind generation then some e else none
  | _ => none

/-- The endings of the attempts admitted in a generation, oldest first. -/
def endingsIn (kind : CircuitAttemptKind) (generation : ℕ) (log : List CircuitEvent) :
    List Ending :=
  log.filterMap (CircuitEvent.endingIn kind generation)

def successesIn (kind : CircuitAttemptKind) (generation : ℕ) (log : List CircuitEvent) : ℕ :=
  (endingsIn kind generation log).count .success

def verdictsIn (kind : CircuitAttemptKind) (generation : ℕ) (log : List CircuitEvent) :
    List Ending :=
  (endingsIn kind generation log).filter fun e ↦ !e.isCancelled

/-- The last `k` entries exist and are failures. -/
def LastAllFailures (k : ℕ) (verdicts : List Ending) : Prop :=
  k ≤ verdicts.length ∧ ∀ e ∈ verdicts.rtake k, e = .failure

def trailingFailures (verdicts : List Ending) : ℕ :=
  (verdicts.reverse.takeWhile (· = .failure)).length

theorem trailingFailures_concat (verdicts : List Ending) (e : Ending) :
    trailingFailures (verdicts ++ [e]) =
      if e = .failure then trailingFailures verdicts + 1 else 0 := by
  by_cases he : e = .failure <;> simp [trailingFailures, he]

theorem lastAllFailures_iff (k : ℕ) (verdicts : List Ending) :
    LastAllFailures k verdicts ↔ k ≤ trailingFailures verdicts := by
  induction verdicts using List.reverseRecOn generalizing k with
  | nil =>
    simp only [LastAllFailures, trailingFailures, List.length_nil, List.reverse_nil,
      List.takeWhile_nil, Nat.le_zero]
    constructor
    · exact fun h ↦ h.1
    · rintro rfl
      exact ⟨rfl, by simp⟩
  | append_singleton verdicts e ih =>
    cases k with
    | zero => simp [LastAllFailures]
    | succ k =>
      have htake : (verdicts ++ [e]).rtake (k + 1) = verdicts.rtake k ++ [e] := by
        simp [List.rtake_concat_succ]
      rw [trailingFailures_concat, LastAllFailures, htake]
      by_cases he : e = .failure
      · rw [if_pos he, Nat.succ_le_succ_iff, ← ih k, LastAllFailures]
        simp [he, or_imp]
      · rw [if_neg he]
        simp [he]

@[simp] theorem endingsIn_append (kind : CircuitAttemptKind) (generation : ℕ)
    (log log' : List CircuitEvent) :
    endingsIn kind generation (log ++ log') =
      endingsIn kind generation log ++ endingsIn kind generation log' :=
  List.filterMap_append

@[simp] theorem endingsIn_begun (kind : CircuitAttemptKind) (generation : ℕ)
    (a : CircuitAttempt) (now : ℕ) : endingsIn kind generation [.begun a now] = [] := rfl

@[simp] theorem endingsIn_refused (kind : CircuitAttemptKind) (generation d now : ℕ) :
    endingsIn kind generation [.refused d now] = [] := rfl

theorem endingsIn_ended (kind : CircuitAttemptKind) (generation : ℕ) (a : CircuitAttempt)
    (e : Ending) (now : ℕ) :
    endingsIn kind generation [.ended a e now] =
      if a.admittedIn kind generation then [e] else [] := by
  by_cases h : a.admittedIn kind generation <;> simp [endingsIn, CircuitEvent.endingIn, h]

end Reqx.Resilience
