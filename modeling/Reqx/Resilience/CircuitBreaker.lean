import Reqx.Core.Timing

/-!
# The circuit breaker

One breaker is shared by all attempts of a client. The identity token
`Arc<()>` of a state cycle becomes a number: `fresh` is the next number no
token has used, so two tokens are equal exactly when they were cloned from one
allocation. The instants read under the state lock are arguments.
-/

namespace Reqx.Resilience

structure CircuitBreakerPolicy where
  failureThreshold : ℕ
  openTimeout : ℕ
  halfOpenMaxRequests : ℕ
  halfOpenSuccessThreshold : ℕ
  failureThreshold_le : failureThreshold ≤ usizeMax
  halfOpenMaxRequests_le : halfOpenMaxRequests ≤ usizeMax
  halfOpenSuccessThreshold_le : halfOpenSuccessThreshold ≤ usizeMax
  deriving DecidableEq

namespace CircuitBreakerPolicy

def standard : CircuitBreakerPolicy where
  failureThreshold := 5
  openTimeout := fromSecs 10
  halfOpenMaxRequests := 2
  halfOpenSuccessThreshold := 2
  failureThreshold_le := by decide
  halfOpenMaxRequests_le := by decide
  halfOpenSuccessThreshold_le := by decide

def invalidPolicy (p : CircuitBreakerPolicy) (message : String) : Error :=
  .invalidCircuitBreakerPolicy p.failureThreshold (durationMillisCeil p.openTimeout)
    p.halfOpenMaxRequests p.halfOpenSuccessThreshold message

def validate (p : CircuitBreakerPolicy) : Except Error Unit :=
  if p.failureThreshold = 0 then
    .error (p.invalidPolicy "failure_threshold must be >= 1")
  else if p.openTimeout = 0 then
    .error (p.invalidPolicy "open_timeout must be greater than zero")
  else if p.halfOpenMaxRequests = 0 then
    .error (p.invalidPolicy "half_open_max_requests must be >= 1")
  else if p.halfOpenSuccessThreshold = 0 then
    .error (p.invalidPolicy "half_open_success_threshold must be >= 1")
  else .ok ()

theorem validate_eq_ok_iff (p : CircuitBreakerPolicy) :
    p.validate = .ok () ↔ 0 < p.failureThreshold ∧ 0 < p.openTimeout ∧
      0 < p.halfOpenMaxRequests ∧ 0 < p.halfOpenSuccessThreshold := by
  unfold validate
  split_ifs with hfail hopen hmax hsucc <;> simp <;> omega

example : standard.validate = .ok () := by decide

end CircuitBreakerPolicy

inductive CircuitAttemptKind where
  | closed | halfOpen
  deriving DecidableEq, Repr

inductive CircuitState where
  | closed (generation : ℕ) (consecutiveFailures : ℕ)
  | opened (openedAt : ℕ)
  | halfOpen (generation : ℕ) (activeRequests successfulRequests : ℕ)
  deriving DecidableEq, Repr

def CircuitState.belongsTo : CircuitState → ℕ → Bool
  | .closed generation _, attempt => generation = attempt
  | .halfOpen generation _ _, attempt => generation = attempt
  | .opened _, _ => false

structure CircuitBreaker where
  policy : CircuitBreakerPolicy
  state : CircuitState
  fresh : ℕ
  deriving DecidableEq

structure CircuitAttempt where
  generation : ℕ
  kind : CircuitAttemptKind
  completed : Bool
  deriving DecidableEq, Repr

namespace CircuitBreaker

def new (policy : CircuitBreakerPolicy) : CircuitBreaker := ⟨policy, .closed 0 0, 1⟩

def begin (b : CircuitBreaker) (now : ℕ) : Except ℕ CircuitAttempt × CircuitBreaker :=
  match b.state with
  | .closed generation _ => (.ok ⟨generation, .closed, false⟩, b)
  | .opened openedAt =>
    let elapsed := saturatingDurationSince now openedAt
    if elapsed ≥ b.policy.openTimeout then
      (.ok ⟨b.fresh, .halfOpen, false⟩,
        { b with state := .halfOpen b.fresh 1 0, fresh := b.fresh + 1 })
    else (.error (b.policy.openTimeout - elapsed), b)
  | .halfOpen generation active successful =>
    if active ≥ b.policy.halfOpenMaxRequests ∨
        successful ≥ b.policy.halfOpenSuccessThreshold then
      (.error (fromMillis 0), b)
    else
      (.ok ⟨generation, .halfOpen, false⟩,
        { b with state := .halfOpen generation (saturatingAdd active 1) successful })

def closeHalfOpenIfRecovered (b : CircuitBreaker) : CircuitBreaker :=
  match b.state with
  | .halfOpen _ active successful =>
    if active = 0 ∧ successful ≥ b.policy.halfOpenSuccessThreshold then
      { b with state := .closed b.fresh 0, fresh := b.fresh + 1 }
    else b
  | _ => b

def recordSuccess (b : CircuitBreaker) (kind : CircuitAttemptKind) (generation : ℕ) :
    CircuitBreaker :=
  if b.state.belongsTo generation = false then b else
  match b.state, kind with
  | .closed g _, .closed => { b with state := .closed g 0 }
  | .halfOpen g active successful, .halfOpen =>
    { b with state := .halfOpen g (active - 1) (saturatingAdd successful 1) }
      |>.closeHalfOpenIfRecovered
  | _, _ => b

def recordFailure (b : CircuitBreaker) (kind : CircuitAttemptKind) (generation : ℕ) (now : ℕ) :
    CircuitBreaker :=
  if b.state.belongsTo generation = false then b else
  match b.state, kind with
  | .closed g failures, .closed =>
    if saturatingAdd failures 1 ≥ b.policy.failureThreshold then
      { b with state := .opened now }
    else { b with state := .closed g (saturatingAdd failures 1) }
  | .halfOpen _ _ _, .halfOpen => { b with state := .opened now }
  | _, _ => b

def recordCancel (b : CircuitBreaker) (kind : CircuitAttemptKind) (generation : ℕ) :
    CircuitBreaker :=
  if b.state.belongsTo generation = false then b else
  match b.state, kind with
  | .halfOpen g active successful, .halfOpen =>
    { b with state := .halfOpen g (active - 1) successful } |>.closeHalfOpenIfRecovered
  | _, _ => b

/-! What `begin` does in each state. -/

section Begin

variable {b : CircuitBreaker} {now : ℕ}

theorem begin_closed {g failures : ℕ} (hstate : b.state = .closed g failures) :
    b.begin now = (.ok ⟨g, .closed, false⟩, b) := by
  rw [begin, hstate]

theorem begin_elapsed {openedAt : ℕ} (hstate : b.state = .opened openedAt)
    (hwait : b.policy.openTimeout ≤ saturatingDurationSince now openedAt) :
    b.begin now = (.ok ⟨b.fresh, .halfOpen, false⟩,
      { b with state := .halfOpen b.fresh 1 0, fresh := b.fresh + 1 }) := by
  rw [begin, hstate]
  exact if_pos hwait

theorem begin_waiting {openedAt : ℕ} (hstate : b.state = .opened openedAt)
    (hwait : ¬ b.policy.openTimeout ≤ saturatingDurationSince now openedAt) :
    b.begin now = (.error (b.policy.openTimeout - saturatingDurationSince now openedAt), b) := by
  rw [begin, hstate]
  exact if_neg hwait

theorem begin_full {g active successful : ℕ} (hstate : b.state = .halfOpen g active successful)
    (hfull : b.policy.halfOpenMaxRequests ≤ active ∨
      b.policy.halfOpenSuccessThreshold ≤ successful) :
    b.begin now = (.error (fromMillis 0), b) := by
  rw [begin, hstate]
  exact if_pos hfull

theorem begin_probe {g active successful : ℕ} (hstate : b.state = .halfOpen g active successful)
    (hroom : ¬ (b.policy.halfOpenMaxRequests ≤ active ∨
      b.policy.halfOpenSuccessThreshold ≤ successful)) :
    b.begin now = (.ok ⟨g, .halfOpen, false⟩,
      { b with state := .halfOpen g (saturatingAdd active 1) successful }) := by
  rw [begin, hstate]
  exact if_neg hroom

end Begin

end CircuitBreaker

namespace CircuitAttempt

/-- `Drop` of an attempt: an attempt nobody completed counts as cancelled. -/
def drop (a : CircuitAttempt) (b : CircuitBreaker) : CircuitBreaker :=
  if a.completed then b else b.recordCancel a.kind a.generation

def markSuccess (a : CircuitAttempt) (b : CircuitBreaker) : CircuitBreaker :=
  { a with completed := true }.drop (b.recordSuccess a.kind a.generation)

def markFailure (a : CircuitAttempt) (b : CircuitBreaker) (now : ℕ) : CircuitBreaker :=
  { a with completed := true }.drop (b.recordFailure a.kind a.generation now)

def cancel (a : CircuitAttempt) (b : CircuitBreaker) : CircuitBreaker :=
  { a with completed := true }.drop (b.recordCancel a.kind a.generation)

end CircuitAttempt

end Reqx.Resilience
