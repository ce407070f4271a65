import Mathlib.Data.List.Perm.Basic
import Reqx.Resilience.CircuitSystem

/-!
# The counters of the breaker and the attempts behind them

Attempts outlive state changes, so the counters of the current state are tied
to the attempts that carry the current generation number. Numbers at or above
`fresh` occur nowhere, which is what makes a new state start from nothing.
-/

namespace Reqx.Resilience

open CircuitSystem CircuitEvent CircuitAttempt

variable {p : CircuitBreakerPolicy} {s : CircuitSystem}

/-! ## Single operations -/

variable {a : CircuitAttempt}

theorem CircuitAttempt.finish_eq (ha : a.completed = false) (e : Ending) (now : ℕ)
    (b : CircuitBreaker) :
    a.finish e now b = match e with
      | .success => b.recordSuccess a.kind a.generation
      | .failure => b.recordFailure a.kind a.generation now
      | .cancel | .drop => b.recordCancel a.kind a.generation := by
  cases e <;> simp [finish, markSuccess, markFailure, cancel, drop, ha]

namespace CircuitBreaker

variable {b : CircuitBreaker}

variable {a : CircuitAttempt}

/-- A result that carries an old generation number is ignored. -/
theorem finish_of_not_belongsTo (ha : a.completed = false)
    (hb : b.state.belongsTo a.generation = false) (e : Ending) (now : ℕ) :
    a.finish e now b = b := by
  rw [finish_eq ha]
  cases e <;> simp [recordSuccess, recordFailure, recordCancel, hb]

theorem finish_closed (ha : a.completed = false) {failures : ℕ}
    (hb : b.state = .closed a.generation failures) (hk : a.kind = .closed) (e : Ending) (now : ℕ) :
    a.finish e now b = match e with
      | .success => { b with state := .closed a.generation 0 }
      | .failure =>
        if b.policy.failureThreshold ≤ saturatingAdd failures 1 then
          { b with state := .opened now }
        else { b with state := .closed a.generation (saturatingAdd failures 1) }
      | .cancel | .drop => b := by
  rw [finish_eq ha]
  cases e <;> simp [recordSuccess, recordFailure, recordCancel, CircuitState.belongsTo, hb, hk]

theorem finish_halfOpen (ha : a.completed = false) {active successful : ℕ}
    (hb : b.state = .halfOpen a.generation active successful) (hk : a.kind = .halfOpen) (e : Ending)
    (now : ℕ) :
    a.finish e now b =
      if e = .failure then { b with state := .opened now } else
      let successful' := if e = .success then saturatingAdd successful 1 else successful
      if active - 1 = 0 ∧ b.policy.halfOpenSuccessThreshold ≤ successful' then
        { b with state := .closed b.fresh 0, fresh := b.fresh + 1 }
      else { b with state := .halfOpen a.generation (active - 1) successful' } := by
  rw [finish_eq ha]
  cases e <;>
    simp [recordSuccess, recordFailure, recordCancel, CircuitState.belongsTo, hb, hk,
      closeHalfOpenIfRecovered]

end CircuitBreaker

/-! ## The invariant -/

structure ClosedCounts (s : CircuitSystem) (g failures : ℕ) : Prop where
  lt_fresh : g < s.breaker.fresh
  kinds : ∀ a ∈ s.live, a.generation = g → a.kind = .closed
  below : failures < s.breaker.policy.failureThreshold
  trailing : failures = trailingFailures (verdictsIn .closed g s.log)

structure HalfOpenCounts (s : CircuitSystem) (g active successful : ℕ) : Prop where
  lt_fresh : g < s.breaker.fresh
  kinds : ∀ a ∈ s.live, a.generation = g → a.kind = .halfOpen
  active_eq : active = s.liveIn .halfOpen g
  active_le : active ≤ s.breaker.policy.halfOpenMaxRequests
  successful_eq : successful = min (successesIn .halfOpen g s.log) usizeMax
  no_failure : .failure ∉ endingsIn .halfOpen g s.log
  pending : active = 0 → successful < s.breaker.policy.halfOpenSuccessThreshold

structure Consistent (p : CircuitBreakerPolicy) (s : CircuitSystem) : Prop where
  policy : s.breaker.policy = p
  uncompleted : ∀ a ∈ s.live, a.completed = false
  live_lt : ∀ a ∈ s.live, a.generation < s.breaker.fresh
  endings_fresh : ∀ kind g, s.breaker.fresh ≤ g → endingsIn kind g s.log = []
  probes : ∀ g, successesIn .halfOpen g s.log + s.liveIn .halfOpen g ≤
    p.halfOpenSuccessThreshold - 1 + p.halfOpenMaxRequests
  closed : ∀ g n, s.breaker.state = .closed g n → ClosedCounts s g n
  halfOpen : ∀ g n k, s.breaker.state = .halfOpen g n k → HalfOpenCounts s g n k

theorem consistent_initial (hp : p.validate = .ok ()) : Consistent p (.initial p) := by
  obtain ⟨hfail, -, -, -⟩ := (p.validate_eq_ok_iff).mp hp
  constructor
  case closed =>
    intro g n hstate
    have hgn : 0 = g ∧ 0 = n := by
      simpa [initial, CircuitBreaker.new] using hstate
    obtain ⟨rfl, rfl⟩ := hgn
    constructor
    · exact Nat.zero_lt_one
    · intro a ha
      simp [initial] at ha
    · exact hfail
    · rfl
  all_goals
    simp [initial, CircuitBreaker.new, liveIn, successesIn, endingsIn]

/-! ## Removing the attempt that ended -/

variable {index : ℕ}

theorem countP_eraseIdx_add {live : List CircuitAttempt} (hget : live[index]? = some a)
    (q : CircuitAttempt → Bool) :
    (live.eraseIdx index).countP q + (if q a then 1 else 0) = live.countP q := by
  obtain ⟨hlt, rfl⟩ := List.getElem?_eq_some_iff.mp hget
  have hperm := (List.getElem_cons_eraseIdx_perm hlt).countP_eq q
  rw [← hperm, List.countP_cons]

theorem successesIn_append_ended (kind : CircuitAttemptKind) (g : ℕ) (log : List CircuitEvent)
    (a : CircuitAttempt) (e : Ending) (now : ℕ) :
    successesIn kind g (log ++ [ended a e now]) =
      successesIn kind g log + if a.admittedIn kind g ∧ e = .success then 1 else 0 := by
  simp only [successesIn, endingsIn_append, endingsIn_ended, List.count_append]
  by_cases ha : a.admittedIn kind g
  · by_cases he : e = .success <;> simp [ha, he]
  · simp [ha]

theorem verdictsIn_append_ended (kind : CircuitAttemptKind) (g : ℕ) (log : List CircuitEvent)
    (a : CircuitAttempt) (e : Ending) (now : ℕ) :
    verdictsIn kind g (log ++ [ended a e now]) =
      verdictsIn kind g log ++ if a.admittedIn kind g ∧ e.isCancelled = false then [e] else [] := by
  simp only [verdictsIn, endingsIn_append, endingsIn_ended, List.filter_append]
  by_cases ha : a.admittedIn kind g
  · cases e <;> simp [ha, Ending.isCancelled]
  · simp [ha]

/-! ## Admission -/

theorem liveIn_admitted (b : CircuitBreaker) (live : List CircuitAttempt) (log : List CircuitEvent)
    (a : CircuitAttempt) (kind : CircuitAttemptKind) (g : ℕ) :
    liveIn ⟨b, live ++ [a], log⟩ kind g =
      liveIn ⟨b, live, log⟩ kind g + if a.admittedIn kind g then 1 else 0 := by
  simp [liveIn, List.countP_cons]

theorem Consistent.refuse (h : Consistent p s) (retryAfter now : ℕ) :
    Consistent p ⟨s.breaker, s.live, s.log ++ [refused retryAfter now]⟩ := by
  constructor
  case policy => exact h.policy
  case uncompleted => exact h.uncompleted
  case live_lt => exact h.live_lt
  case endings_fresh =>
    intro kind g hg
    simpa using h.endings_fresh kind g hg
  case probes =>
    intro g
    simpa [successesIn, liveIn] using h.probes g
  case closed =>
    intro g n hstate
    have hc := h.closed g n hstate
    exact ⟨hc.lt_fresh, hc.kinds, hc.below, by simpa [verdictsIn] using hc.trailing⟩
  case halfOpen =>
    intro g n k hstate
    have hc := h.halfOpen g n k hstate
    exact ⟨hc.lt_fresh, hc.kinds, hc.active_eq, hc.active_le,
      by simpa [successesIn] using hc.successful_eq, by simpa using hc.no_failure, hc.pending⟩

variable {b : CircuitBreaker}

/-- What an admission must say about the new state to keep the invariant. -/
theorem Consistent.admitted (h : Consistent p s) (now : ℕ) (hpolicy : b.policy = s.breaker.policy)
    (hfresh : s.breaker.fresh ≤ b.fresh) (ha : a.completed = false) (hlt : a.generation < b.fresh)
    (hprobe : a.kind = .halfOpen →
      successesIn .halfOpen a.generation s.log + s.liveIn .halfOpen a.generation + 1 ≤
        p.halfOpenSuccessThreshold - 1 + p.halfOpenMaxRequests)
    (hclosed : ∀ g n, b.state = .closed g n →
      ClosedCounts ⟨b, s.live ++ [a], s.log ++ [begun a now]⟩ g n)
    (hhalf : ∀ g n k, b.state = .halfOpen g n k →
      HalfOpenCounts ⟨b, s.live ++ [a], s.log ++ [begun a now]⟩ g n k) :
    Consistent p ⟨b, s.live ++ [a], s.log ++ [begun a now]⟩ := by
  constructor
  case policy => exact hpolicy.trans h.policy
  case uncompleted =>
    intro a' ha'
    rcases List.mem_append.mp ha' with ha' | ha'
    · exact h.uncompleted a' ha'
    · rw [List.mem_singleton.mp ha']
      exact ha
  case live_lt =>
    intro a' ha'
    rcases List.mem_append.mp ha' with ha' | ha'
    · exact (h.live_lt a' ha').trans_le hfresh
    · rw [List.mem_singleton.mp ha']
      exact hlt
  case endings_fresh =>
    intro kind g hg
    simpa using h.endings_fresh kind g (hfresh.trans hg)
  case probes =>
    intro g
    have hsucc : successesIn .halfOpen g (s.log ++ [begun a now]) =
        successesIn .halfOpen g s.log := by
      simp [successesIn]
    rw [liveIn_admitted, hsucc]
    by_cases hg : a.admittedIn .halfOpen g
    · obtain ⟨hkind, rfl⟩ : a.kind = .halfOpen ∧ a.generation = g := by
        simpa [admittedIn] using hg
      rw [if_pos hg]
      exact hprobe hkind
    · rw [if_neg hg]
      exact h.probes g
  case closed => exact hclosed
  case halfOpen => exact hhalf

theorem Consistent.begin_closed (h : Consistent p s) {g n : ℕ}
    (hstate : s.breaker.state = .closed g n) (now : ℕ) : Consistent p (s.step now .begin) := by
  have hcounts := h.closed g n hstate
  simp only [step, CircuitBreaker.begin_closed hstate]
  apply h.admitted now
  · rfl
  · exact le_rfl
  · rfl
  · exact hcounts.lt_fresh
  · intro hkind
    simp at hkind
  · intro g' n' hstate'
    obtain ⟨rfl, rfl⟩ : g = g' ∧ n = n' := by simpa [hstate] using hstate'
    refine ⟨hcounts.lt_fresh, ?_, hcounts.below, ?_⟩
    · intro a ha hga
      rcases List.mem_append.mp ha with ha | ha
      · exact hcounts.kinds a ha hga
      · rw [List.mem_singleton.mp ha]
    · simpa [verdictsIn] using hcounts.trailing
  · intro g' n' k' hstate'
    simp [hstate] at hstate'

/-- Nothing alive belongs to a generation that is yet to come. -/
theorem Consistent.liveIn_fresh (h : Consistent p s) (kind : CircuitAttemptKind) :
    s.liveIn kind s.breaker.fresh = 0 := by
  rw [liveIn, List.countP_eq_zero]
  intro a ha
  have hlt := h.live_lt a ha
  simp only [admittedIn, decide_eq_true_eq, not_and]
  omega

theorem Consistent.begin_opened (hp : p.validate = .ok ()) (h : Consistent p s) {openedAt : ℕ}
    (hstate : s.breaker.state = .opened openedAt) (now : ℕ) : Consistent p (s.step now .begin) := by
  obtain ⟨-, -, hmax, -⟩ := (p.validate_eq_ok_iff).mp hp
  have hnone := h.liveIn_fresh .halfOpen
  have hfresh := h.endings_fresh .halfOpen s.breaker.fresh le_rfl
  have hzero : successesIn .halfOpen s.breaker.fresh s.log = 0 := by simp [successesIn, hfresh]
  by_cases hwait : s.breaker.policy.openTimeout ≤ saturatingDurationSince now openedAt
  · simp only [step, CircuitBreaker.begin_elapsed hstate hwait]
    apply h.admitted now
    · rfl
    · exact Nat.le_succ _
    · rfl
    · exact Nat.lt_succ_self _
    · intro _
      rw [hzero, hnone]
      omega
    · intro g' n' hstate'
      simp at hstate'
    · intro g' n' k' hstate'
      obtain ⟨rfl, rfl, rfl⟩ : s.breaker.fresh = g' ∧ 1 = n' ∧ 0 = k' := by
        simpa using hstate'
      constructor
      · exact Nat.lt_succ_self _
      · intro a ha hga
        rcases List.mem_append.mp ha with ha | ha
        · exact absurd hga (h.live_lt a ha).ne
        · rw [List.mem_singleton.mp ha]
      · rw [liveIn_admitted]
        change 1 = s.liveIn .halfOpen s.breaker.fresh + _
        simp [hnone, admittedIn]
      · change 1 ≤ s.breaker.policy.halfOpenMaxRequests
        rw [h.policy]
        exact hmax
      · simp [successesIn, hfresh]
      · simp [hfresh]
      · simp
  · simp only [step, CircuitBreaker.begin_waiting hstate hwait]
    exact h.refuse _ now

theorem Consistent.begin_halfOpen (h : Consistent p s) {g active successful : ℕ}
    (hstate : s.breaker.state = .halfOpen g active successful) (now : ℕ) :
    Consistent p (s.step now .begin) := by
  have hcounts := h.halfOpen g active successful hstate
  by_cases hfull : s.breaker.policy.halfOpenMaxRequests ≤ active ∨
      s.breaker.policy.halfOpenSuccessThreshold ≤ successful
  · simp only [step, CircuitBreaker.begin_full hstate hfull]
    exact h.refuse _ now
  · simp only [step, CircuitBreaker.begin_probe hstate hfull]
    rw [not_or, not_le, not_le] at hfull
    obtain ⟨hroom, hsucc⟩ := hfull
    have hadd : saturatingAdd active 1 = active + 1 :=
      saturatingAdd_of_le (by have := s.breaker.policy.halfOpenMaxRequests_le; omega)
    apply h.admitted now
    · rfl
    · exact le_rfl
    · rfl
    · exact hcounts.lt_fresh
    · intro _
      -- `successful` is below the threshold, so it has not been clipped.
      have hclip := hcounts.successful_eq
      have hthr := s.breaker.policy.halfOpenSuccessThreshold_le
      have hactive := hcounts.active_eq
      simp only [h.policy] at hroom hsucc hthr
      change successesIn .halfOpen g s.log + s.liveIn .halfOpen g + 1 ≤ _
      omega
    · intro g' n' hstate'
      simp at hstate'
    · intro g' n' k' hstate'
      obtain ⟨rfl, rfl, rfl⟩ : g = g' ∧ saturatingAdd active 1 = n' ∧ successful = k' := by
        simpa using hstate'
      constructor
      · exact hcounts.lt_fresh
      · intro a ha hga
        rcases List.mem_append.mp ha with ha | ha
        · exact hcounts.kinds a ha hga
        · rw [List.mem_singleton.mp ha]
      · rw [liveIn_admitted, hadd, hcounts.active_eq]
        simp [liveIn, admittedIn]
      · rw [hadd]
        exact hroom
      · simpa [successesIn] using hcounts.successful_eq
      · simpa using hcounts.no_failure
      · intro hzero
        omega

theorem Consistent.step_begin (hp : p.validate = .ok ()) (h : Consistent p s) (now : ℕ) :
    Consistent p (s.step now .begin) := by
  cases hstate : s.breaker.state with
  | closed g n => exact h.begin_closed hstate now
  | opened openedAt => exact h.begin_opened hp hstate now
  | halfOpen g active successful => exact h.begin_halfOpen hstate now

/-! ## Endings -/

theorem liveIn_erase (hget : s.live[index]? = some a) (b : CircuitBreaker) (log : List CircuitEvent)
    (kind : CircuitAttemptKind) (g : ℕ) :
    liveIn ⟨b, s.live.eraseIdx index, log⟩ kind g +
      (if a.admittedIn kind g then 1 else 0) = s.liveIn kind g :=
  countP_eraseIdx_add hget fun a ↦ a.admittedIn kind g

theorem Consistent.endings_fresh_ended (h : Consistent p s) (ha : a ∈ s.live) (e : Ending) (now : ℕ)
    (kind : CircuitAttemptKind) {g : ℕ} (hg : s.breaker.fresh ≤ g) :
    endingsIn kind g (s.log ++ [ended a e now]) = [] := by
  have hlt := h.live_lt a ha
  have hne : a.admittedIn kind g = false := by
    simp only [admittedIn, decide_eq_false_iff_not, not_and]
    omega
  rw [endingsIn_append, endingsIn_ended, h.endings_fresh kind g hg, hne]
  rfl

/-- What an ending must say about the new state to keep the invariant. -/
theorem Consistent.finished (h : Consistent p s) (hget : s.live[index]? = some a) (e : Ending)
    (now : ℕ) (hpolicy : b.policy = s.breaker.policy) (hfresh : s.breaker.fresh ≤ b.fresh)
    (hclosed : ∀ g n, b.state = .closed g n →
      ClosedCounts ⟨b, s.live.eraseIdx index, s.log ++ [ended a e now]⟩ g n)
    (hhalf : ∀ g n k, b.state = .halfOpen g n k →
      HalfOpenCounts ⟨b, s.live.eraseIdx index, s.log ++ [ended a e now]⟩ g n k) :
    Consistent p ⟨b, s.live.eraseIdx index, s.log ++ [ended a e now]⟩ := by
  have hsub : ∀ a' ∈ s.live.eraseIdx index, a' ∈ s.live :=
    fun a' ha' ↦ List.eraseIdx_subset ha'
  have hmem : a ∈ s.live := List.mem_of_getElem? hget
  constructor
  case policy => exact hpolicy.trans h.policy
  case uncompleted => exact fun a' ha' ↦ h.uncompleted a' (hsub a' ha')
  case live_lt => exact fun a' ha' ↦ (h.live_lt a' (hsub a' ha')).trans_le hfresh
  case endings_fresh =>
    exact fun kind g hg ↦ h.endings_fresh_ended hmem e now kind (hfresh.trans hg)
  case probes =>
    intro g
    have hlive := liveIn_erase hget b (s.log ++ [ended a e now]) .halfOpen g
    have hprobes := h.probes g
    rw [successesIn_append_ended]
    -- A probe that ends leaves `live`, and adds at most one success.
    by_cases hg : a.admittedIn .halfOpen g
    · by_cases he : e = .success <;> simp only [hg, he, if_true, and_self, and_false, if_false]
        at hlive ⊢ <;> omega
    · simp only [hg, Bool.false_eq_true, false_and, if_false, Nat.add_zero] at hlive ⊢
      omega
  case closed => exact hclosed
  case halfOpen => exact hhalf

theorem Consistent.finish_stale (h : Consistent p s) (hget : s.live[index]? = some a)
    (hb : s.breaker.state.belongsTo a.generation = false) (e : Ending) (now : ℕ) :
    Consistent p ⟨s.breaker, s.live.eraseIdx index, s.log ++ [ended a e now]⟩ := by
  have hsub : ∀ a' ∈ s.live.eraseIdx index, a' ∈ s.live :=
    fun a' ha' ↦ List.eraseIdx_subset ha'
  apply h.finished hget e now
  · rfl
  · exact le_rfl
  · intro g n hstate
    have hcounts := h.closed g n hstate
    have hga : g ≠ a.generation := by simpa [CircuitState.belongsTo, hstate] using hb
    have hne := admittedIn_other hga.symm .closed
    refine ⟨hcounts.lt_fresh, fun a' ha' ↦ hcounts.kinds a' (hsub a' ha'), hcounts.below, ?_⟩
    rw [verdictsIn_append_ended, hne]
    simpa using hcounts.trailing
  · intro g n k hstate
    have hcounts := h.halfOpen g n k hstate
    have hga : g ≠ a.generation := by simpa [CircuitState.belongsTo, hstate] using hb
    have hne := admittedIn_other hga.symm .halfOpen
    have hlive := liveIn_erase hget s.breaker (s.log ++ [ended a e now]) .halfOpen g
    rw [hne] at hlive
    refine ⟨hcounts.lt_fresh, fun a' ha' ↦ hcounts.kinds a' (hsub a' ha'), ?_,
      hcounts.active_le, ?_, ?_, hcounts.pending⟩
    · exact hcounts.active_eq.trans (by simpa using hlive.symm)
    · rw [successesIn_append_ended, hne]
      simpa using hcounts.successful_eq
    · rw [endingsIn_append, endingsIn_ended, hne]
      simpa using hcounts.no_failure

theorem Consistent.finish_opening (h : Consistent p s) (hget : s.live[index]? = some a) (e : Ending)
    (now : ℕ) :
    Consistent p ⟨{ s.breaker with state := .opened now }, s.live.eraseIdx index,
      s.log ++ [ended a e now]⟩ := by
  apply h.finished hget e now
  · rfl
  · exact le_rfl
  · intro g n hb
    simp at hb
  · intro g n k hb
    simp at hb

theorem Consistent.finish_staying_closed (h : Consistent p s) (hget : s.live[index]? = some a)
    {failures n : ℕ} (hstate : s.breaker.state = .closed a.generation failures) (e : Ending)
    (now : ℕ) (hpolicy : b.policy = s.breaker.policy) (hfresh : b.fresh = s.breaker.fresh)
    (hb : b.state = .closed a.generation n) (hbelow : n < s.breaker.policy.failureThreshold)
    (htrail : n = trailingFailures (verdictsIn .closed a.generation
      (s.log ++ [ended a e now]))) :
    Consistent p ⟨b, s.live.eraseIdx index, s.log ++ [ended a e now]⟩ := by
  have hcounts := h.closed _ _ hstate
  apply h.finished hget e now hpolicy hfresh.ge
  · intro g n' hb'
    obtain ⟨rfl, rfl⟩ : a.generation = g ∧ n = n' := by simpa [hb] using hb'
    refine ⟨?_, fun a' ha' ↦ hcounts.kinds a' (List.eraseIdx_subset ha'), ?_, htrail⟩
    · change a.generation < b.fresh
      rw [hfresh]
      exact hcounts.lt_fresh
    · change n < b.policy.failureThreshold
      rw [hpolicy]
      exact hbelow
  · intro g n' k' hb'
    simp [hb] at hb'

theorem Consistent.finish_current_closed (h : Consistent p s) (hget : s.live[index]? = some a)
    {failures : ℕ} (hstate : s.breaker.state = .closed a.generation failures) (e : Ending)
    (now : ℕ) :
    Consistent p ⟨a.finish e now s.breaker, s.live.eraseIdx index,
      s.log ++ [ended a e now]⟩ := by
  have hmem : a ∈ s.live := List.mem_of_getElem? hget
  have hcounts := h.closed _ _ hstate
  have hkind := hcounts.kinds a hmem rfl
  have hin := admittedIn_own hkind
  rw [CircuitBreaker.finish_closed (h.uncompleted a hmem) hstate hkind]
  cases e with
  | success =>
    refine h.finish_staying_closed hget hstate .success now ?_ ?_ ?_
      (Nat.zero_lt_of_lt hcounts.below) ?_
    · rfl
    · rfl
    · rfl
    · simp [verdictsIn_append_ended, hin, Ending.isCancelled, trailingFailures_concat]
  | failure =>
    have hadd : saturatingAdd failures 1 = failures + 1 := by
      apply saturatingAdd_of_le
      have hbelow := hcounts.below
      have hle := s.breaker.policy.failureThreshold_le
      omega
    simp only [hadd]
    by_cases hopen : s.breaker.policy.failureThreshold ≤ failures + 1
    · rw [if_pos hopen]
      exact h.finish_opening hget .failure now
    · rw [if_neg hopen]
      refine h.finish_staying_closed hget hstate .failure now ?_ ?_ ?_ (not_le.mp hopen) ?_
      · rfl
      · rfl
      · rfl
      · simp [verdictsIn_append_ended, hin, Ending.isCancelled, trailingFailures_concat,
          ← hcounts.trailing]
  | cancel | drop =>
    apply h.finish_staying_closed hget hstate _ now rfl rfl hstate hcounts.below
    simpa [verdictsIn_append_ended, Ending.isCancelled] using hcounts.trailing

theorem Consistent.finish_recovering (hp : p.validate = .ok ()) (h : Consistent p s)
    (hget : s.live[index]? = some a) (e : Ending) (now : ℕ) :
    Consistent p ⟨{ s.breaker with
        state := .closed s.breaker.fresh 0, fresh := s.breaker.fresh + 1 },
      s.live.eraseIdx index, s.log ++ [ended a e now]⟩ := by
  obtain ⟨hfail, -, -, -⟩ := (p.validate_eq_ok_iff).mp hp
  apply h.finished hget e now
  · rfl
  · exact Nat.le_succ _
  · intro g n hb
    obtain ⟨rfl, rfl⟩ : s.breaker.fresh = g ∧ 0 = n := by simpa using hb
    constructor
    · exact Nat.lt_succ_self _
    · intro a' ha' hga
      exact absurd hga (h.live_lt a' (List.eraseIdx_subset ha')).ne
    · change 0 < s.breaker.policy.failureThreshold
      rw [h.policy]
      exact hfail
    · rw [verdictsIn, h.endings_fresh_ended (List.mem_of_getElem? hget) e now .closed le_rfl]
      rfl
  · intro g n k hb
    simp at hb

/-- The counter follows the number of successes, clipped at the largest `usize`. -/
theorem HalfOpenCounts.successful_ended {g active successful : ℕ}
    (hcounts : HalfOpenCounts s g active successful) (hin : a.admittedIn .halfOpen g = true)
    (e : Ending) (now : ℕ) :
    (if e = .success then saturatingAdd successful 1 else successful) =
      min (successesIn .halfOpen g (s.log ++ [ended a e now])) usizeMax := by
  have hbefore := hcounts.successful_eq
  rw [successesIn_append_ended]
  by_cases hs : e = .success
  · simp only [hs, hin, saturatingAdd, and_self, if_true]
    omega
  · simpa [hs] using hbefore

/-- A probe ended without deciding: `successful'` is what the counter holds afterwards. -/
theorem Consistent.finish_probing (h : Consistent p s) (hget : s.live[index]? = some a)
    {active successful successful' : ℕ}
    (hstate : s.breaker.state = .halfOpen a.generation active successful) {e : Ending}
    (he : e ≠ .failure) (now : ℕ)
    (hcount : successful' =
      min (successesIn .halfOpen a.generation (s.log ++ [ended a e now])) usizeMax)
    (hopen : active - 1 = 0 → successful' < s.breaker.policy.halfOpenSuccessThreshold) :
    Consistent p ⟨{ s.breaker with state := .halfOpen a.generation (active - 1) successful' },
      s.live.eraseIdx index, s.log ++ [ended a e now]⟩ := by
  have hcounts := h.halfOpen _ _ _ hstate
  have hin := admittedIn_own (hcounts.kinds a (List.mem_of_getElem? hget) rfl)
  have hlive := liveIn_erase hget
    { s.breaker with state := .halfOpen a.generation (active - 1) successful' }
    (s.log ++ [ended a e now]) .halfOpen a.generation
  rw [hin, if_pos rfl, ← hcounts.active_eq] at hlive
  apply h.finished hget e now
  · rfl
  · exact le_rfl
  · intro g n hb
    simp at hb
  · intro g n k hb
    obtain ⟨rfl, rfl, rfl⟩ : a.generation = g ∧ active - 1 = n ∧ successful' = k := by
      simpa using hb
    constructor
    · exact hcounts.lt_fresh
    · exact fun a' ha' ↦ hcounts.kinds a' (List.eraseIdx_subset ha')
    · exact (Nat.eq_sub_of_add_eq hlive).symm
    · exact (Nat.sub_le _ _).trans hcounts.active_le
    · exact hcount
    · rw [endingsIn_append, endingsIn_ended, hin, if_pos rfl, List.mem_append, not_or,
        List.mem_singleton]
      exact ⟨hcounts.no_failure, Ne.symm he⟩
    · exact hopen

theorem Consistent.finish_current_halfOpen (hp : p.validate = .ok ()) (h : Consistent p s)
    (hget : s.live[index]? = some a) {active successful : ℕ}
    (hstate : s.breaker.state = .halfOpen a.generation active successful) (e : Ending) (now : ℕ) :
    Consistent p ⟨a.finish e now s.breaker, s.live.eraseIdx index,
      s.log ++ [ended a e now]⟩ := by
  have hmem : a ∈ s.live := List.mem_of_getElem? hget
  have hcounts := h.halfOpen _ _ _ hstate
  have hkind := hcounts.kinds a hmem rfl
  have hin := admittedIn_own hkind
  rw [CircuitBreaker.finish_halfOpen (h.uncompleted a hmem) hstate hkind]
  by_cases he : e = .failure
  · rw [if_pos he]
    exact h.finish_opening hget e now
  rw [if_neg he]
  have hcount := hcounts.successful_ended hin e now
  generalize (if e = .success then saturatingAdd successful 1 else successful) = successful'
    at hcount
  dsimp only
  by_cases hclose : active - 1 = 0 ∧ s.breaker.policy.halfOpenSuccessThreshold ≤ successful'
  · rw [if_pos hclose]
    exact h.finish_recovering hp hget e now
  · rw [if_neg hclose]
    apply h.finish_probing hget hstate he now hcount
    intro hzero
    exact not_le.mp fun hle ↦ hclose ⟨hzero, hle⟩

theorem Consistent.step_finish (hp : p.validate = .ok ()) (h : Consistent p s) (now index : ℕ)
    (e : Ending) : Consistent p (s.step now (.finish index e)) := by
  cases hget : s.live[index]? with
  | none =>
    simp only [step, hget]
    exact h
  | some a =>
    simp only [step, hget]
    have hmem : a ∈ s.live := List.mem_of_getElem? hget
    cases hbelongs : s.breaker.state.belongsTo a.generation with
    | false =>
      rw [CircuitBreaker.finish_of_not_belongsTo (h.uncompleted a hmem) hbelongs]
      exact h.finish_stale hget hbelongs e now
    | true =>
      cases hstate : s.breaker.state with
      | closed g n =>
        obtain rfl : g = a.generation := by
          simpa [CircuitState.belongsTo, hstate] using hbelongs
        exact h.finish_current_closed hget hstate e now
      | opened openedAt => simp [CircuitState.belongsTo, hstate] at hbelongs
      | halfOpen g active successful =>
        obtain rfl : g = a.generation := by
          simpa [CircuitState.belongsTo, hstate] using hbelongs
        exact h.finish_current_halfOpen hp hget hstate e now

theorem Consistent.step (hp : p.validate = .ok ()) (h : Consistent p s) (now : ℕ) (op : CircuitOp) :
    Consistent p (s.step now op) := by
  cases op with
  | begin => exact h.step_begin hp now
  | finish index e => exact h.step_finish hp now index e

theorem Consistent.run (hp : p.validate = .ok ()) (h : Consistent p s)
    (ops : List (ℕ × CircuitOp)) : Consistent p (s.run ops) := by
  induction ops generalizing s with
  | nil => exact h
  | cons op ops ih => exact ih (h.step hp op.1 op.2)

/-! ## What the counters mean -/

/-- The counters of the state are the counts of the attempts they stand for,
and a half-open breaker without a live probe admits the next one. -/
structure CountsAttempts (p : CircuitBreakerPolicy) (s : CircuitSystem) : Prop where
  active_eq : ∀ g active successful, s.breaker.state = .halfOpen g active successful →
    active = s.liveIn .halfOpen g ∧ active ≤ p.halfOpenMaxRequests
  not_clipped : ∀ g active successful, s.breaker.state = .halfOpen g active successful →
    ∀ a ∈ s.live, a.generation = g → 1 ≤ active
  not_stuck : ∀ g successful, s.breaker.state = .halfOpen g 0 successful →
    successful < p.halfOpenSuccessThreshold ∧
      ∀ now, (s.breaker.begin now).1 = .ok ⟨g, .halfOpen, false⟩
  failures_lt : ∀ g failures, s.breaker.state = .closed g failures →
    failures < p.failureThreshold
  successes_le : ∀ g, successesIn .halfOpen g s.log ≤
    p.halfOpenSuccessThreshold - 1 + p.halfOpenMaxRequests

theorem Consistent.countsAttempts (hp : p.validate = .ok ()) (h : Consistent p s) :
    CountsAttempts p s := by
  obtain ⟨-, -, hmax, -⟩ := (p.validate_eq_ok_iff).mp hp
  constructor
  case active_eq =>
    intro g active successful hstate
    have hcounts := h.halfOpen _ _ _ hstate
    rw [← h.policy]
    exact ⟨hcounts.active_eq, hcounts.active_le⟩
  case not_clipped =>
    intro g active successful hstate a ha hga
    have hcounts := h.halfOpen _ _ _ hstate
    rw [hcounts.active_eq, liveIn, Nat.one_le_iff_ne_zero, Ne,
      List.countP_eq_zero, not_forall]
    refine ⟨a, fun hnone ↦ hnone ha ?_⟩
    simp [admittedIn, hga, hcounts.kinds a ha hga]
  case not_stuck =>
    intro g successful hstate
    have hpending := (h.halfOpen _ _ _ hstate).pending rfl
    rw [h.policy] at hpending
    refine ⟨hpending, fun now ↦ ?_⟩
    have hroom : ¬ (p.halfOpenMaxRequests = 0 ∨ p.halfOpenSuccessThreshold ≤ successful) := by
      omega
    simp [CircuitBreaker.begin, hstate, h.policy, hroom]
  case failures_lt =>
    intro g failures hstate
    rw [← h.policy]
    exact (h.closed g failures hstate).below
  case successes_le =>
    intro g
    have hprobes := h.probes g
    omega

theorem circuit_counts_live_attempts (hp : p.validate = .ok ()) (ops : List (ℕ × CircuitOp)) :
    CountsAttempts p ((CircuitSystem.initial p).run ops) :=
  ((consistent_initial hp).run hp ops).countsAttempts hp

def CircuitOp.intoHalfOpen : List (ℕ × CircuitOp) :=
  (List.replicate 5 [(0, .begin), (0, .finish 0 .failure)]).flatten ++ [(fromSecs 10, .begin)]

theorem circuit_counts_live_attempts_halfOpen :
    ((CircuitSystem.initial .standard).run CircuitOp.intoHalfOpen).breaker.state =
        .halfOpen 1 1 0 ∧
      CountsAttempts .standard ((CircuitSystem.initial .standard).run CircuitOp.intoHalfOpen) :=
  ⟨by decide, circuit_counts_live_attempts (by decide) _⟩

end Reqx.Resilience
