import Mathlib.Data.List.Induction
import Mathlib.Data.Rat.Floor
import Reqx.Core.Timing
import Reqx.Library.Machine
import Reqx.Library.Windows

/-!
# The retry budget

A retry is granted while fewer retries were granted in the current window than
its allowance: a fixed number and a share of the successes of the window. A
window starts with the first call after the end of the last one. The ratio is
an exact number here.
-/

namespace Reqx.Resilience

structure RetryBudgetPolicy where
  window : ℕ
  retryRatio : ℚ
  minRetriesPerWindow : ℕ
  fits : minRetriesPerWindow ≤ usizeMax

namespace RetryBudgetPolicy

def standard : RetryBudgetPolicy := ⟨fromSecs 10, 1 / 5, 3, by decide⟩

variable (policy : RetryBudgetPolicy)

def invalidPolicy (message : String) : Error :=
  .invalidRetryBudgetPolicy (durationMillisCeil policy.window) policy.retryRatio
    policy.minRetriesPerWindow message

def validate : Except Error Unit :=
  if policy.window = 0 then .error (policy.invalidPolicy "window must be greater than zero")
  else if ¬(0 ≤ policy.retryRatio ∧ policy.retryRatio ≤ 1) then
    .error (policy.invalidPolicy "retry_ratio must be finite and between 0.0 and 1.0")
  else .ok ()

/-- The share of the successes, as a number of retries. -/
def ratioAllowance (successes : ℕ) : ℕ := ⌊policy.retryRatio * successes⌋₊

/-- What `validate` accepts. -/
structure Valid : Prop where
  window_pos : 0 < policy.window
  ratio_nonneg : 0 ≤ policy.retryRatio
  ratio_le_one : policy.retryRatio ≤ 1

variable {policy}

theorem valid_of_validate (h : policy.validate = .ok ()) : policy.Valid := by
  unfold validate at h
  simp only [ite_error_eq_ok, not_not] at h
  obtain ⟨hwindow, ⟨hlow, hhigh⟩, -⟩ := h
  exact ⟨Nat.pos_of_ne_zero hwindow, hlow, hhigh⟩

theorem ratioAllowance_mono (hratio : 0 ≤ policy.retryRatio) {m n : ℕ} (h : m ≤ n) :
    policy.ratioAllowance m ≤ policy.ratioAllowance n := by
  apply Nat.floor_le_floor
  gcongr

end RetryBudgetPolicy

structure RetryBudgetState where
  windowStartedAt : ℕ
  requestsSucceeded : ℕ
  retriesConsumed : ℕ
  deriving DecidableEq, Repr

namespace RetryBudgetState

variable (policy : RetryBudgetPolicy) (s : RetryBudgetState) (now : ℕ)

def new : RetryBudgetState := ⟨now, 0, 0⟩

def refreshRetryBudgetWindow : RetryBudgetState :=
  if saturatingDurationSince now s.windowStartedAt ≥ policy.window then ⟨now, 0, 0⟩ else s

def recordSuccess : RetryBudgetState :=
  let s := s.refreshRetryBudgetWindow policy now
  { s with requestsSucceeded := saturatingAdd s.requestsSucceeded 1 }

def totalAllowance : ℕ :=
  saturatingAdd (min (policy.ratioAllowance s.requestsSucceeded) usizeMax)
    policy.minRetriesPerWindow

def tryConsumeRetry : Bool × RetryBudgetState :=
  let s := s.refreshRetryBudgetWindow policy now
  if s.retriesConsumed ≥ s.totalAllowance policy then (false, s)
  else (true, { s with retriesConsumed := saturatingAdd s.retriesConsumed 1 })

end RetryBudgetState

/-! ## Calls and their log -/

inductive BudgetCall where
  | recordSuccess (now : ℕ)
  | tryConsumeRetry (now : ℕ)
  deriving DecidableEq, Repr

def BudgetCall.now : BudgetCall → ℕ
  | .recordSuccess now | .tryConsumeRetry now => now

inductive BudgetAnswer where
  | recorded | granted | refused
  deriving DecidableEq, Repr

structure BudgetEntry where
  time : ℕ
  window : ℕ
  answer : BudgetAnswer
  deriving DecidableEq, Repr

/-- Every call is logged with its time and with the window that it was accounted in. -/
def retryBudget (policy : RetryBudgetPolicy) :
    Machine BudgetCall BudgetEntry RetryBudgetState where
  step s call :=
    match call with
    | .recordSuccess now =>
      let s := s.recordSuccess policy now
      (⟨now, s.windowStartedAt, .recorded⟩, s)
    | .tryConsumeRetry now =>
      let (granted, s) := s.tryConsumeRetry policy now
      (⟨now, s.windowStartedAt, if granted then .granted else .refused⟩, s)

section Log

variable (log : List BudgetEntry)

def answeredIn (answer : BudgetAnswer) (window : ℕ) : ℕ :=
  log.countP fun entry ↦ entry.answer = answer && entry.window = window

def grantedBetween (start stop : ℕ) : ℕ :=
  log.countP fun entry ↦
    entry.answer = .granted && (decide (start ≤ entry.time) && decide (entry.time ≤ stop))

theorem answeredIn_concat (answer : BudgetAnswer) (window : ℕ) (entry : BudgetEntry) :
    answeredIn (log ++ [entry]) answer window = answeredIn log answer window +
      if entry.answer = answer ∧ entry.window = window then 1 else 0 := by
  rw [answeredIn, List.countP_append, List.countP_singleton]
  simp only [Bool.and_eq_true, decide_eq_true_eq]
  rfl

end Log

/-! ## The invariant -/

variable {policy : RetryBudgetPolicy}

/-- The window and the counters of the state, as the log of the calls until `last` has them. -/
structure Tracks (policy : RetryBudgetPolicy) (log : List BudgetEntry) (last : ℕ)
    (s : RetryBudgetState) : Prop where
  spaced : Windows.Spaced BudgetEntry.time BudgetEntry.window policy.window log
  current : ∀ entry ∈ log,
    entry.window = s.windowStartedAt ∨ entry.window + policy.window ≤ s.windowStartedAt
  started : s.windowStartedAt ≤ last
  succeeded : s.requestsSucceeded = min (answeredIn log .recorded s.windowStartedAt) usizeMax
  consumed : s.retriesConsumed = answeredIn log .granted s.windowStartedAt
  bounded : ∀ window, answeredIn log .granted window ≤
    policy.minRetriesPerWindow + policy.ratioAllowance (answeredIn log .recorded window)

namespace Tracks

variable {log : List BudgetEntry} {last now : ℕ} {s : RetryBudgetState}

theorem new (start : ℕ) : Tracks policy [] start (.new start) := by
  refine ⟨.nil, fun _ h ↦ ?_, le_rfl, ?_, rfl, fun _ ↦ Nat.zero_le _⟩
  · cases h
  · exact (Nat.zero_min _).symm

/-- A window without entries has no counts. -/
theorem answeredIn_eq_zero {window : ℕ} (h : ∀ entry ∈ log, entry.window < window)
    (answer : BudgetAnswer) : answeredIn log answer window = 0 := by
  rw [answeredIn, List.countP_eq_zero]
  intro entry hentry
  have hlt := h entry hentry
  simp only [Bool.and_eq_true, decide_eq_true_eq, not_and]
  intro _
  omega

theorem refresh (hpos : 0 < policy.window) (h : Tracks policy log last s) (hnow : last ≤ now) :
    Tracks policy log now (s.refreshRetryBudgetWindow policy now) ∧
      now < (s.refreshRetryBudgetWindow policy now).windowStartedAt + policy.window := by
  unfold RetryBudgetState.refreshRetryBudgetWindow saturatingDurationSince
  have hstarted := h.started
  split
  next hexpired =>
    have hold : ∀ entry ∈ log, entry.window + policy.window ≤ now := by
      intro entry hentry
      rcases h.current entry hentry with heq | hle <;> omega
    have hempty (answer : BudgetAnswer) : answeredIn log answer now = 0 := by
      apply answeredIn_eq_zero
      intro entry hentry
      have := hold entry hentry
      omega
    refine ⟨⟨h.spaced, fun entry hentry ↦ .inr (hold entry hentry), le_rfl, ?_, ?_, h.bounded⟩, ?_⟩
    · rw [hempty]
      exact (Nat.zero_min _).symm
    · exact (hempty _).symm
    · exact Nat.lt_add_of_pos_right hpos
  · refine ⟨⟨h.spaced, h.current, hstarted.trans hnow, h.succeeded, h.consumed, h.bounded⟩, ?_⟩
    omega

/-- One more entry in the current window. -/
theorem concat (hratio : 0 ≤ policy.retryRatio) (h : Tracks policy log now s)
    (hinside : now < s.windowStartedAt + policy.window) (answer : BudgetAnswer)
    {s' : RetryBudgetState} (hwindow : s'.windowStartedAt = s.windowStartedAt)
    (hsucceeded : s'.requestsSucceeded =
      min (answeredIn log .recorded s.windowStartedAt + if answer = .recorded then 1 else 0)
        usizeMax)
    (hconsumed : s'.retriesConsumed =
      answeredIn log .granted s.windowStartedAt + if answer = .granted then 1 else 0)
    (hallowed : answer = .granted → answeredIn log .granted s.windowStartedAt <
      policy.minRetriesPerWindow +
        policy.ratioAllowance (answeredIn log .recorded s.windowStartedAt)) :
    Tracks policy (log ++ [⟨now, s.windowStartedAt, answer⟩]) now s' := by
  have hcount (answer' : BudgetAnswer) :
      answeredIn (log ++ [⟨now, s.windowStartedAt, answer⟩]) answer' s.windowStartedAt =
        answeredIn log answer' s.windowStartedAt + if answer = answer' then 1 else 0 := by
    rw [answeredIn_concat]
    simp only [and_true]
  refine ⟨h.spaced.concat ⟨h.started, hinside⟩ h.current, ?_, ?_, ?_, ?_, fun window ↦ ?_⟩
  · rw [hwindow, List.forall_mem_append, List.forall_mem_singleton]
    exact ⟨h.current, .inl rfl⟩
  · rw [hwindow]
    exact h.started
  · rw [hwindow, hcount]
    exact hsucceeded
  · rw [hwindow, hcount]
    exact hconsumed
  · have hmono : policy.ratioAllowance (answeredIn log .recorded window) ≤
        policy.ratioAllowance (answeredIn (log ++ [⟨now, s.windowStartedAt, answer⟩]) .recorded
          window) := by
      apply policy.ratioAllowance_mono hratio
      rw [answeredIn_concat]
      exact Nat.le_add_right _ _
    have hbefore := h.bounded window
    rw [answeredIn_concat log .granted]
    split
    next hgranted =>
      obtain ⟨hanswer, rfl⟩ := hgranted
      have hroom := hallowed hanswer
      dsimp only at hroom hmono ⊢
      omega
    · omega

theorem totalAllowance_eq (h : Tracks policy log now s) :
    s.totalAllowance policy = min (policy.minRetriesPerWindow + policy.ratioAllowance
      (min (answeredIn log .recorded s.windowStartedAt) usizeMax)) usizeMax := by
  rw [RetryBudgetState.totalAllowance, saturatingAdd, h.succeeded]
  omega

theorem totalAllowance_le (hratio : 0 ≤ policy.retryRatio) (h : Tracks policy log now s) :
    s.totalAllowance policy ≤ usizeMax ∧ s.totalAllowance policy ≤ policy.minRetriesPerWindow +
      policy.ratioAllowance (answeredIn log .recorded s.windowStartedAt) := by
  have hmono : policy.ratioAllowance (min (answeredIn log .recorded s.windowStartedAt) usizeMax) ≤
      policy.ratioAllowance (answeredIn log .recorded s.windowStartedAt) :=
    policy.ratioAllowance_mono hratio (min_le_left _ _)
  rw [h.totalAllowance_eq]
  omega

end Tracks

theorem step_tryConsumeRetry (s : RetryBudgetState) (now : ℕ) :
    (retryBudget policy).step s (.tryConsumeRetry now) =
      let s := s.refreshRetryBudgetWindow policy now
      if s.totalAllowance policy ≤ s.retriesConsumed then (⟨now, s.windowStartedAt, .refused⟩, s)
      else (⟨now, s.windowStartedAt, .granted⟩,
        { s with retriesConsumed := saturatingAdd s.retriesConsumed 1 }) := by
  simp only [retryBudget, RetryBudgetState.tryConsumeRetry, ge_iff_le]
  split <;> rfl

variable {log : List BudgetEntry}

theorem Tracks.step {last : ℕ} {s : RetryBudgetState} (hvalid : policy.Valid)
    (h : Tracks policy log last s) {call : BudgetCall} (hnow : last ≤ call.now) :
    Tracks policy (log ++ [((retryBudget policy).step s call).1]) call.now
      ((retryBudget policy).step s call).2 := by
  cases call with
  | recordSuccess now =>
    obtain ⟨hs, hinside⟩ := h.refresh hvalid.window_pos hnow
    dsimp only [BudgetCall.now] at hs hinside
    refine hs.concat hvalid.ratio_nonneg hinside .recorded rfl ?_ hs.consumed fun hanswer ↦ ?_
    · change saturatingAdd (s.refreshRetryBudgetWindow policy now).requestsSucceeded 1 = _
      rw [saturatingAdd, hs.succeeded, if_pos rfl]
      omega
    · cases hanswer
  | tryConsumeRetry now =>
    obtain ⟨hs, hinside⟩ := h.refresh hvalid.window_pos hnow
    rw [step_tryConsumeRetry]
    dsimp only [BudgetCall.now] at hs hinside ⊢
    split
    · refine hs.concat hvalid.ratio_nonneg hinside .refused rfl hs.succeeded hs.consumed ?_
      intro hanswer
      cases hanswer
    next hroom =>
      obtain ⟨hmax, hallowance⟩ := hs.totalAllowance_le hvalid.ratio_nonneg
      rw [not_le] at hroom
      refine hs.concat hvalid.ratio_nonneg hinside .granted rfl hs.succeeded ?_ fun _ ↦ ?_
      · rw [if_pos rfl, ← hs.consumed]
        exact saturatingAdd_of_le (by omega)
      · rw [← hs.consumed]
        exact hroom.trans_le hallowance

/-! ## Whole runs -/

/-- What a budget that was made at `start` answers. -/
def budgetLog (policy : RetryBudgetPolicy) (start : ℕ) (calls : List BudgetCall) :
    List BudgetEntry :=
  (retryBudget policy).outputs (.new start) calls

/-- The readings of the clock do not decrease. -/
def InOrder (start : ℕ) (calls : List BudgetCall) : Prop :=
  (start :: calls.map BudgetCall.now).Pairwise (· ≤ ·)

theorem inOrder_concat {start : ℕ} {calls : List BudgetCall} {call : BudgetCall} :
    InOrder start (calls ++ [call]) ↔
      InOrder start calls ∧ ∀ last ∈ start :: calls.map BudgetCall.now, last ≤ call.now := by
  have hsplit : start :: (calls ++ [call]).map BudgetCall.now =
      (start :: calls.map BudgetCall.now) ++ [call.now] := by simp
  rw [InOrder, hsplit, List.pairwise_append]
  simp only [List.pairwise_singleton, true_and, List.forall_mem_singleton]
  rfl

theorem tracks_budgetLog (hvalid : policy.Valid) {start : ℕ} {calls : List BudgetCall}
    (hclock : InOrder start calls) :
    ∃ last ∈ start :: calls.map BudgetCall.now, Tracks policy (budgetLog policy start calls) last
      ((retryBudget policy).final (.new start) calls) := by
  induction calls using List.reverseRecOn with
  | nil => exact ⟨start, List.mem_singleton_self _, Tracks.new start⟩
  | append_singleton calls call ih =>
    obtain ⟨hbefore, hlast⟩ := inOrder_concat.mp hclock
    obtain ⟨last, hmem, htracks⟩ := ih hbefore
    refine ⟨call.now, ?_, ?_⟩
    · rw [List.map_append]
      exact List.mem_cons_of_mem _ (List.mem_append_right _ (List.mem_singleton_self _))
    · rw [budgetLog, Machine.outputs_concat, Machine.final_concat]
      exact htracks.step hvalid (hlast last hmem)

theorem grantedBetween_le {start stop w₁ w₂ : ℕ}
    (h : ∀ entry ∈ log, start ≤ entry.time → entry.time ≤ stop →
      entry.window = w₁ ∨ entry.window = w₂) :
    grantedBetween log start stop ≤ answeredIn log .granted w₁ + answeredIn log .granted w₂ := by
  apply Windows.countP_le_add
  intro entry hentry hgranted
  simp only [Bool.and_eq_true, decide_eq_true_eq] at hgranted ⊢
  obtain ⟨hanswer, hstart, hstop⟩ := hgranted
  exact (h entry hentry hstart hstop).imp (⟨hanswer, ·⟩) (⟨hanswer, ·⟩)

theorem Tracks.of_refused {last now : ℕ} {s : RetryBudgetState} (hvalid : policy.Valid)
    (h : Tracks policy log last s) (hnow : last ≤ now) {entry : BudgetEntry}
    (hentry : ((retryBudget policy).step s (.tryConsumeRetry now)).1 = entry)
    (hrefused : entry.answer = .refused) :
    policy.minRetriesPerWindow + policy.ratioAllowance (answeredIn log .recorded entry.window) ≤
        answeredIn log .granted entry.window ∨
      usizeMax ≤ answeredIn log .recorded entry.window ∨
      usizeMax ≤ answeredIn log .granted entry.window := by
  obtain ⟨hs, -⟩ := h.refresh hvalid.window_pos hnow
  rw [step_tryConsumeRetry] at hentry
  dsimp only at hentry
  split at hentry <;> subst hentry
  next hfull =>
    dsimp only
    rw [hs.totalAllowance_eq, hs.consumed] at hfull
    by_cases hrecorded : usizeMax ≤ answeredIn log .recorded
        (s.refreshRetryBudgetWindow policy now).windowStartedAt
    · exact .inr (.inl hrecorded)
    · rw [Nat.min_eq_left (Nat.le_of_not_le hrecorded)] at hfull
      omega
  · cases hrefused

theorem step_windowStartedAt (hpos : 0 < policy.window) (s : RetryBudgetState) (call : BudgetCall) :
    ((retryBudget policy).step s call).2.windowStartedAt = s.windowStartedAt ∨
      s.windowStartedAt + policy.window ≤ ((retryBudget policy).step s call).2.windowStartedAt := by
  have hrefresh (now : ℕ) :
      (s.refreshRetryBudgetWindow policy now).windowStartedAt = s.windowStartedAt ∨
        s.windowStartedAt + policy.window ≤
          (s.refreshRetryBudgetWindow policy now).windowStartedAt := by
    unfold RetryBudgetState.refreshRetryBudgetWindow saturatingDurationSince
    split
    · right
      dsimp only
      omega
    · exact .inl rfl
  cases call with
  | recordSuccess now => exact hrefresh now
  | tryConsumeRetry now =>
    rw [step_tryConsumeRetry]
    dsimp only
    split <;> exact hrefresh now

/-- The grants of a window at every moment, the reason of a refusal, the distance of consecutive
windows, and the grants of an interval that is shorter than a window. -/
theorem retry_budget_bounded (policy : RetryBudgetPolicy) (hpolicy : policy.validate = .ok ())
    (start : ℕ) (calls : List BudgetCall) (hclock : InOrder start calls) :
    let log := budgetLog policy start calls
    let s := (retryBudget policy).final (.new start) calls
    let allowance := fun window ↦ policy.minRetriesPerWindow +
      policy.ratioAllowance (answeredIn log .recorded window)
    (∀ window, answeredIn log .granted window ≤ allowance window) ∧
    (∀ now, InOrder start (calls ++ [.tryConsumeRetry now]) →
      ∀ entry, ((retryBudget policy).step s (.tryConsumeRetry now)).1 = entry →
        entry.answer = .refused →
          allowance entry.window ≤ answeredIn log .granted entry.window ∨
          -- The counters of the state do not go beyond this number.
          usizeMax ≤ answeredIn log .recorded entry.window ∨
          usizeMax ≤ answeredIn log .granted entry.window) ∧
    (∀ call, let next := ((retryBudget policy).step s call).2
      next.windowStartedAt = s.windowStartedAt ∨
        s.windowStartedAt + policy.window ≤ next.windowStartedAt) ∧
    ∀ earliest latest, latest < earliest + policy.window → ∃ w₁ w₂,
      (∀ entry ∈ log, earliest ≤ entry.time → entry.time ≤ latest →
        entry.window = w₁ ∨ entry.window = w₂) ∧
      grantedBetween log earliest latest ≤ 2 * policy.minRetriesPerWindow +
        policy.ratioAllowance (answeredIn log .recorded w₁) +
        policy.ratioAllowance (answeredIn log .recorded w₂) := by
  have hvalid := RetryBudgetPolicy.valid_of_validate hpolicy
  obtain ⟨last, hlast, htracks⟩ := tracks_budgetLog hvalid hclock
  refine ⟨htracks.bounded, ?_, step_windowStartedAt hvalid.window_pos _, ?_⟩
  · intro now hclock' entry hentry hrefused
    exact htracks.of_refused hvalid ((inOrder_concat.mp hclock').2 last hlast) hentry hrefused
  · intro earliest latest hshort
    obtain ⟨w₁, w₂, hwindows⟩ := htracks.spaced.two_windows hshort
    refine ⟨w₁, w₂, hwindows, (grantedBetween_le hwindows).trans ?_⟩
    have hbound₁ := htracks.bounded w₁
    have hbound₂ := htracks.bounded w₂
    omega

namespace RetryBudget.Sample

def calls : List BudgetCall :=
  [.recordSuccess 1, .tryConsumeRetry 2, .tryConsumeRetry (fromSecs 12)]

end RetryBudget.Sample

theorem retry_budget_bounded_two_windows :
    RetryBudgetPolicy.standard.validate = .ok () ∧ InOrder 0 RetryBudget.Sample.calls ∧
      ∀ window, answeredIn (budgetLog .standard 0 RetryBudget.Sample.calls) .granted window ≤
        RetryBudgetPolicy.standard.minRetriesPerWindow +
          RetryBudgetPolicy.standard.ratioAllowance
            (answeredIn (budgetLog .standard 0 RetryBudget.Sample.calls) .recorded window) := by
  have hpolicy : RetryBudgetPolicy.standard.validate = .ok () := by
    rw [RetryBudgetPolicy.validate, if_neg (by decide), if_neg]
    rw [not_not, RetryBudgetPolicy.standard]
    norm_num
  have hclock : InOrder 0 RetryBudget.Sample.calls := by
    unfold InOrder
    decide
  exact ⟨hpolicy, hclock, (retry_budget_bounded .standard hpolicy 0 _ hclock).1⟩

/-! ## A full counter -/

namespace RetryBudget.Sample

/-- The largest fixed number of retries, and one more for every success. -/
def generous : RetryBudgetPolicy := ⟨1, 1, usizeMax, le_rfl⟩

def retries (n : ℕ) : List BudgetCall :=
  .recordSuccess 0 :: List.replicate n (.tryConsumeRetry 0)

theorem retries_succ (n : ℕ) : retries (n + 1) = retries n ++ [.tryConsumeRetry 0] := by
  rw [retries, List.replicate_succ', ← List.cons_append, retries]

theorem generous_valid : generous.validate = .ok () := by
  rw [RetryBudgetPolicy.validate, if_neg (by decide), if_neg]
  rw [not_not, generous]
  norm_num

theorem generous_ratioAllowance_one : generous.ratioAllowance 1 = 1 := by
  rw [RetryBudgetPolicy.ratioAllowance, generous]
  norm_num

theorem generous_totalAllowance (n : ℕ) :
    RetryBudgetState.totalAllowance generous ⟨0, 1, n⟩ = usizeMax := by
  rw [RetryBudgetState.totalAllowance, generous_ratioAllowance_one, saturatingAdd]
  exact Nat.min_eq_right (Nat.le_add_left _ _)

theorem step_retry (n : ℕ) :
    (retryBudget generous).step ⟨0, 1, n⟩ (.tryConsumeRetry 0) =
      if usizeMax ≤ n then (⟨0, 0, .refused⟩, ⟨0, 1, n⟩)
      else (⟨0, 0, .granted⟩, ⟨0, 1, saturatingAdd n 1⟩) := by
  have hrefresh : RetryBudgetState.refreshRetryBudgetWindow generous ⟨0, 1, n⟩ 0 = ⟨0, 1, n⟩ := by
    have hinside : ¬saturatingDurationSince 0 0 ≥ generous.window := by decide
    exact if_neg hinside
  rw [step_tryConsumeRetry, hrefresh]
  dsimp only
  rw [generous_totalAllowance]

theorem retries_granted {n : ℕ} (h : n ≤ usizeMax) :
    (retryBudget generous).final (.new 0) (retries n) = ⟨0, 1, n⟩ ∧
      answeredIn (budgetLog generous 0 (retries n)) .recorded 0 = 1 ∧
      answeredIn (budgetLog generous 0 (retries n)) .granted 0 = n := by
  induction n with
  | zero => exact ⟨rfl, rfl, rfl⟩
  | succ n ih =>
    obtain ⟨hfinal, hrecorded, hgranted⟩ := ih (Nat.le_of_succ_le h)
    have hstep := step_retry n
    rw [if_neg (by omega), saturatingAdd_of_le h] at hstep
    rw [budgetLog] at hrecorded hgranted
    rw [retries_succ, budgetLog, Machine.outputs_concat, Machine.final_concat, hfinal, hstep,
      answeredIn_concat, answeredIn_concat, hrecorded, hgranted]
    exact ⟨rfl, rfl, rfl⟩

theorem retries_inOrder (n : ℕ) : InOrder 0 (retries n) := by
  have hzero : 0 :: (retries n).map BudgetCall.now = List.replicate (n + 2) 0 := by
    rw [retries, List.map_cons, List.map_replicate]
    rfl
  rw [InOrder, hzero, List.pairwise_replicate]
  exact .inr le_rfl

end RetryBudget.Sample

open RetryBudget.Sample in
theorem retry_refused_below_allowance :
    generous.validate = .ok () ∧ InOrder 0 (retries usizeMax ++ [.tryConsumeRetry 0]) ∧
      ((retryBudget generous).step ((retryBudget generous).final (.new 0) (retries usizeMax))
        (.tryConsumeRetry 0)).1 = ⟨0, 0, .refused⟩ ∧
      answeredIn (budgetLog generous 0 (retries usizeMax)) .granted 0 <
        generous.minRetriesPerWindow + generous.ratioAllowance
          (answeredIn (budgetLog generous 0 (retries usizeMax)) .recorded 0) := by
  obtain ⟨hfinal, hrecorded, hgranted⟩ := retries_granted le_rfl
  refine ⟨generous_valid, ?_, ?_, ?_⟩
  · rw [← retries_succ]
    exact retries_inOrder _
  · rw [hfinal, step_retry, if_pos le_rfl]
  · rw [hrecorded, hgranted, generous_ratioAllowance_one]
    exact Nat.lt_succ_self _

end Reqx.Resilience
