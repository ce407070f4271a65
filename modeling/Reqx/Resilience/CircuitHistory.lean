import Reqx.Resilience.CircuitInvariant

/-!
# The breaker against the history of its current generation

The counters are gone from the statements here. A transition is described by
what the log says about the attempts of the current generation, and an open
breaker by the instant at which it opened.
-/

namespace Reqx.Resilience

variable {p : CircuitBreakerPolicy} {s : CircuitSystem}

def CircuitState.generation? : CircuitState → Option ℕ
  | .closed generation _ | .halfOpen generation _ _ => some generation
  | .opened _ => none

theorem CircuitState.belongsTo_eq_false_iff (state : CircuitState) (g : ℕ) :
    state.belongsTo g = false ↔ state.generation? ≠ some g := by
  cases state <;> simp [belongsTo, generation?]

variable {a : CircuitAttempt}

theorem Consistent.finish_earlier (h : Consistent p s) (ha : a ∈ s.live)
    (hg : s.breaker.state.generation? ≠ some a.generation) (e : Ending) (now : ℕ) :
    a.finish e now s.breaker = s.breaker :=
  CircuitBreaker.finish_of_not_belongsTo (h.uncompleted a ha)
    ((s.breaker.state.belongsTo_eq_false_iff a.generation).mpr hg) e now

/-! ## One operation on a closed breaker -/

/-- The operation ends an attempt of the closed generation `g` by a failure,
and with it the last `failureThreshold` verdicts of `g` are failures. -/
def CompletesFailures (p : CircuitBreakerPolicy) (s : CircuitSystem) (g now : ℕ) (op : CircuitOp) :
    Prop :=
  ∃ index a, op = .finish index .failure ∧ s.live[index]? = some a ∧ a.admittedIn .closed g ∧
    LastAllFailures p.failureThreshold (verdictsIn .closed g (s.log ++ [.ended a .failure now]))

variable {index : ℕ}

theorem completesFailures_finish_iff (hget : s.live[index]? = some a) (g now : ℕ) (e : Ending) :
    CompletesFailures p s g now (.finish index e) ↔ e = .failure ∧ a.admittedIn .closed g ∧
      LastAllFailures p.failureThreshold
        (verdictsIn .closed g (s.log ++ [CircuitEvent.ended a .failure now])) := by
  constructor
  · rintro ⟨index', a', hop, hget', hin, hlast⟩
    cases hop
    obtain rfl : a = a' := by simpa [hget] using hget'
    exact ⟨rfl, hin, hlast⟩
  · rintro ⟨rfl, hin, hlast⟩
    exact ⟨index, a, rfl, hget, hin, hlast⟩

variable {g failures : ℕ}

theorem Consistent.lastAllFailures_iff_closed (h : Consistent p s)
    (hstate : s.breaker.state = .closed g failures) (ha : a.admittedIn .closed g) (now : ℕ) :
    LastAllFailures p.failureThreshold
        (verdictsIn .closed g (s.log ++ [CircuitEvent.ended a .failure now])) ↔
      p.failureThreshold ≤ saturatingAdd failures 1 := by
  have hcounts := h.closed g failures hstate
  have hadd : saturatingAdd failures 1 = failures + 1 := by
    apply saturatingAdd_of_le
    have hbelow := hcounts.below
    have hle := s.breaker.policy.failureThreshold_le
    omega
  rw [lastAllFailures_iff, verdictsIn_append_ended]
  simp [ha, Ending.isCancelled, trailingFailures_concat, ← hcounts.trailing, hadd]

theorem Consistent.finish_closed_cases (h : Consistent p s)
    (hstate : s.breaker.state = .closed g failures) (hget : s.live[index]? = some a)
    (ha : a.generation = g) (e : Ending) (now : ℕ) :
    (s.step now (.finish index e)).breaker.state = .opened now ∧
        CompletesFailures p s g now (.finish index e) ∨
      (∃ n, (s.step now (.finish index e)).breaker.state = .closed g n) ∧
        ¬ CompletesFailures p s g now (.finish index e) := by
  subst ha
  have hmem : a ∈ s.live := List.mem_of_getElem? hget
  have hkind := (h.closed _ _ hstate).kinds a hmem rfl
  have hin := CircuitAttempt.admittedIn_own hkind
  rw [completesFailures_finish_iff hget, h.lastAllFailures_iff_closed hstate hin]
  simp only [CircuitSystem.step, hget,
    CircuitBreaker.finish_closed (h.uncompleted a hmem) hstate hkind, h.policy]
  cases e with
  | success => exact .inr ⟨⟨0, rfl⟩, by simp⟩
  | failure =>
    by_cases hopen : p.failureThreshold ≤ saturatingAdd failures 1
    · rw [if_pos hopen]
      exact .inl ⟨rfl, rfl, hin, hopen⟩
    · rw [if_neg hopen]
      exact .inr ⟨⟨_, rfl⟩, fun hc ↦ hopen hc.2.2⟩
  | cancel | drop => exact .inr ⟨⟨failures, hstate⟩, by simp⟩

theorem Consistent.step_closed (h : Consistent p s) (hstate : s.breaker.state = .closed g failures)
    (now : ℕ) (op : CircuitOp) :
    (s.step now op).breaker.state = .opened now ∧ CompletesFailures p s g now op ∨
      (∃ n, (s.step now op).breaker.state = .closed g n) ∧ ¬ CompletesFailures p s g now op := by
  cases op with
  | begin =>
    simp only [CircuitSystem.step, CircuitBreaker.begin_closed hstate]
    refine .inr ⟨⟨failures, hstate⟩, ?_⟩
    rintro ⟨index, a, hop, -⟩
    cases hop
  | finish index e =>
    cases hget : s.live[index]? with
    | none =>
      simp only [CircuitSystem.step, hget]
      refine .inr ⟨⟨failures, hstate⟩, ?_⟩
      rintro ⟨index', a, hop, hget', -⟩
      cases hop
      simp [hget] at hget'
    | some a =>
      by_cases hg : a.generation = g
      · exact h.finish_closed_cases hstate hget hg e now
      · have hmem : a ∈ s.live := List.mem_of_getElem? hget
        have hearlier := h.finish_earlier hmem
          (by simp [CircuitState.generation?, hstate, Ne.symm hg]) e now
        rw [completesFailures_finish_iff hget]
        simp only [CircuitSystem.step, hget, hearlier]
        exact .inr ⟨⟨failures, hstate⟩, by simp [CircuitAttempt.admittedIn, hg]⟩

/-! ## One operation on a half-open breaker -/

/-- The operation ends a probe of the half-open generation `g` by a failure. -/
def FailsProbe (s : CircuitSystem) (g : ℕ) (op : CircuitOp) : Prop :=
  ∃ index a, op = .finish index .failure ∧ s.live[index]? = some a ∧ a.admittedIn .halfOpen g

/-- The operation ends the last live probe of `g`; no probe of `g` has failed,
this one included, and enough of them have succeeded. -/
def CompletesRecovery (p : CircuitBreakerPolicy) (s : CircuitSystem) (g now : ℕ) (op : CircuitOp) :
    Prop :=
  ∃ index a e, op = .finish index e ∧ s.live[index]? = some a ∧ a.admittedIn .halfOpen g ∧
    (s.step now op).liveIn .halfOpen g = 0 ∧
    .failure ∉ endingsIn .halfOpen g (s.log ++ [.ended a e now]) ∧
    p.halfOpenSuccessThreshold ≤ successesIn .halfOpen g (s.log ++ [.ended a e now])

theorem failsProbe_finish_iff (hget : s.live[index]? = some a) (g : ℕ) (e : Ending) :
    FailsProbe s g (.finish index e) ↔ e = .failure ∧ a.admittedIn .halfOpen g := by
  constructor
  · rintro ⟨index', a', hop, hget', hin⟩
    cases hop
    obtain rfl : a = a' := by simpa [hget] using hget'
    exact ⟨rfl, hin⟩
  · rintro ⟨rfl, hin⟩
    exact ⟨index, a, rfl, hget, hin⟩

theorem completesRecovery_finish_iff (hget : s.live[index]? = some a) (g now : ℕ) (e : Ending) :
    CompletesRecovery p s g now (.finish index e) ↔ a.admittedIn .halfOpen g ∧
      (s.step now (.finish index e)).liveIn .halfOpen g = 0 ∧
      .failure ∉ endingsIn .halfOpen g (s.log ++ [CircuitEvent.ended a e now]) ∧
      p.halfOpenSuccessThreshold ≤
        successesIn .halfOpen g (s.log ++ [CircuitEvent.ended a e now]) := by
  constructor
  · rintro ⟨index', a', e', hop, hget', hrest⟩
    cases hop
    obtain rfl : a = a' := by simpa [hget] using hget'
    exact hrest
  · intro hrest
    exact ⟨index, a, e, rfl, hget, hrest⟩

variable {g active successful : ℕ}

/-- The success counter may clip, but never below the threshold it is compared with. -/
theorem Consistent.successful_ge_iff (h : Consistent p s)
    (hstate : s.breaker.state = .halfOpen g active successful) (ha : a.admittedIn .halfOpen g)
    (e : Ending) (now : ℕ) :
    p.halfOpenSuccessThreshold ≤ successesIn .halfOpen g (s.log ++ [CircuitEvent.ended a e now]) ↔
      p.halfOpenSuccessThreshold ≤
        if e = .success then saturatingAdd successful 1 else successful := by
  have hcount := (h.halfOpen g active successful hstate).successful_eq
  have hle := p.halfOpenSuccessThreshold_le
  rw [successesIn_append_ended]
  by_cases he : e = .success
  · simp only [he, ha, saturatingAdd, and_self, if_true]
    omega
  · simp only [he, and_false, if_false, Nat.add_zero]
    omega

theorem step_halfOpen_begin (hstate : s.breaker.state = .halfOpen g active successful) (now : ℕ) :
    ∃ n, (s.step now .begin).breaker.state = .halfOpen g n successful := by
  by_cases hfull : s.breaker.policy.halfOpenMaxRequests ≤ active ∨
      s.breaker.policy.halfOpenSuccessThreshold ≤ successful
  · simp only [CircuitSystem.step, CircuitBreaker.begin_full hstate hfull]
    exact ⟨active, hstate⟩
  · simp only [CircuitSystem.step, CircuitBreaker.begin_probe hstate hfull]
    exact ⟨saturatingAdd active 1, rfl⟩

theorem Consistent.finish_halfOpen_cases (h : Consistent p s)
    (hstate : s.breaker.state = .halfOpen g active successful) (hget : s.live[index]? = some a)
    (ha : a.generation = g) (e : Ending) (now : ℕ) :
    (s.step now (.finish index e)).breaker.state = .opened now ∧
        FailsProbe s g (.finish index e) ∧ ¬ CompletesRecovery p s g now (.finish index e) ∨
      (s.step now (.finish index e)).breaker.state = .closed s.breaker.fresh 0 ∧
        ¬ FailsProbe s g (.finish index e) ∧ CompletesRecovery p s g now (.finish index e) ∨
      (∃ n k, (s.step now (.finish index e)).breaker.state = .halfOpen g n k) ∧
        ¬ FailsProbe s g (.finish index e) ∧
        ¬ CompletesRecovery p s g now (.finish index e) := by
  subst ha
  have hmem : a ∈ s.live := List.mem_of_getElem? hget
  have hcounts := h.halfOpen _ _ _ hstate
  have hkind := hcounts.kinds a hmem rfl
  have hin := CircuitAttempt.admittedIn_own hkind
  have hlive : ∀ b, CircuitSystem.liveIn
      ⟨b, s.live.eraseIdx index, s.log ++ [CircuitEvent.ended a e now]⟩ .halfOpen a.generation =
        active - 1 := by
    intro b
    have herase := liveIn_erase hget b (s.log ++ [CircuitEvent.ended a e now]) .halfOpen
      a.generation
    rw [hin, if_pos rfl, ← hcounts.active_eq] at herase
    exact Nat.eq_sub_of_add_eq herase
  have hnofail :
      .failure ∉ endingsIn .halfOpen a.generation (s.log ++ [CircuitEvent.ended a e now]) ↔
        e ≠ .failure := by
    rw [endingsIn_append, endingsIn_ended, hin, if_pos rfl, List.mem_append, not_or,
      List.mem_singleton]
    exact ⟨fun hno ↦ Ne.symm hno.2, fun hno ↦ ⟨hcounts.no_failure, Ne.symm hno⟩⟩
  rw [failsProbe_finish_iff hget, completesRecovery_finish_iff hget, hnofail,
    h.successful_ge_iff hstate hin e now]
  simp only [CircuitSystem.step, hget, hlive,
    CircuitBreaker.finish_halfOpen (h.uncompleted a hmem) hstate hkind, h.policy]
  by_cases he : e = .failure
  · rw [if_pos he]
    exact .inl ⟨rfl, ⟨he, hin⟩, fun hc ↦ hc.2.2.1 he⟩
  rw [if_neg he]
  by_cases hclose : active - 1 = 0 ∧ p.halfOpenSuccessThreshold ≤
      if e = .success then saturatingAdd successful 1 else successful
  · rw [if_pos hclose]
    exact .inr (.inl ⟨rfl, fun hc ↦ he hc.1, hin, hclose.1, he, hclose.2⟩)
  · rw [if_neg hclose]
    exact .inr (.inr ⟨⟨_, _, rfl⟩, fun hc ↦ he hc.1, fun hc ↦ hclose ⟨hc.2.1, hc.2.2.2⟩⟩)

theorem Consistent.step_halfOpen (h : Consistent p s)
    (hstate : s.breaker.state = .halfOpen g active successful) (now : ℕ) (op : CircuitOp) :
    (s.step now op).breaker.state = .opened now ∧
        FailsProbe s g op ∧ ¬ CompletesRecovery p s g now op ∨
      (s.step now op).breaker.state = .closed s.breaker.fresh 0 ∧
        ¬ FailsProbe s g op ∧ CompletesRecovery p s g now op ∨
      (∃ n k, (s.step now op).breaker.state = .halfOpen g n k) ∧
        ¬ FailsProbe s g op ∧ ¬ CompletesRecovery p s g now op := by
  cases op with
  | begin =>
    obtain ⟨n, hn⟩ := step_halfOpen_begin hstate now
    refine .inr (.inr ⟨⟨n, successful, hn⟩, ?_, ?_⟩)
    · rintro ⟨index, a, hop, -⟩
      cases hop
    · rintro ⟨index, a, e, hop, -⟩
      cases hop
  | finish index e =>
    cases hget : s.live[index]? with
    | none =>
      have hstep : s.step now (.finish index e) = s := by simp [CircuitSystem.step, hget]
      rw [hstep]
      refine .inr (.inr ⟨⟨active, successful, hstate⟩, ?_, ?_⟩)
      · rintro ⟨index', a, hop, hget', -⟩
        cases hop
        simp [hget] at hget'
      · rintro ⟨index', a, e', hop, hget', -⟩
        cases hop
        simp [hget] at hget'
    | some a =>
      by_cases hg : a.generation = g
      · exact h.finish_halfOpen_cases hstate hget hg e now
      · have hmem : a ∈ s.live := List.mem_of_getElem? hget
        have hearlier := h.finish_earlier hmem
          (by simp [CircuitState.generation?, hstate, Ne.symm hg]) e now
        have hnot := CircuitAttempt.admittedIn_other hg .halfOpen
        rw [failsProbe_finish_iff hget, completesRecovery_finish_iff hget, hnot]
        simp only [CircuitSystem.step, hget, hearlier]
        exact .inr (.inr ⟨⟨active, successful, hstate⟩, by simp, by simp⟩)

/-! ## An open breaker -/

theorem begin_opened_refused (hp : s.breaker.policy.validate = .ok ()) {openedAt now : ℕ}
    (hstate : s.breaker.state = .opened openedAt)
    (hnow : now < openedAt + s.breaker.policy.openTimeout) :
    s.breaker.begin now =
      (.error (s.breaker.policy.openTimeout - saturatingDurationSince now openedAt),
        s.breaker) := by
  obtain ⟨-, htimeout, -, -⟩ := (s.breaker.policy.validate_eq_ok_iff).mp hp
  have hwait : ¬ s.breaker.policy.openTimeout ≤ saturatingDurationSince now openedAt := by
    unfold saturatingDurationSince
    omega
  exact CircuitBreaker.begin_waiting hstate hwait

theorem begin_opened_granted {b : CircuitBreaker} {openedAt now : ℕ}
    (hstate : b.state = .opened openedAt) (hnow : openedAt + b.policy.openTimeout ≤ now) :
    (b.begin now).1 = .ok ⟨b.fresh, .halfOpen, false⟩ := by
  have hwait : b.policy.openTimeout ≤ saturatingDurationSince now openedAt := by
    unfold saturatingDurationSince
    omega
  rw [CircuitBreaker.begin_elapsed hstate hwait]

theorem Consistent.step_opened (hp : p.validate = .ok ()) (h : Consistent p s) {openedAt : ℕ}
    (hstate : s.breaker.state = .opened openedAt) (now : ℕ) (op : CircuitOp)
    (hearly : op = .begin → now < openedAt + p.openTimeout) :
    (s.step now op).breaker = s.breaker ∧
      ∀ a t, .begun a t ∈ (s.step now op).log → .begun a t ∈ s.log := by
  cases op with
  | begin =>
    have hrefused := begin_opened_refused (h.policy.symm ▸ hp) hstate
      (h.policy.symm ▸ hearly rfl)
    simp [CircuitSystem.step, hrefused]
  | finish index e =>
    cases hget : s.live[index]? with
    | none => simp [CircuitSystem.step, hget]
    | some a =>
      have hearlier := h.finish_earlier (List.mem_of_getElem? hget)
        (by simp [CircuitState.generation?, hstate]) e now
      simp [CircuitSystem.step, hget, hearlier]

theorem Consistent.run_opened (hp : p.validate = .ok ()) (h : Consistent p s) {openedAt : ℕ}
    (hstate : s.breaker.state = .opened openedAt) (ops : List (ℕ × CircuitOp))
    (hearly : ∀ op ∈ ops, op.2 = .begin → op.1 < openedAt + p.openTimeout) :
    (s.run ops).breaker = s.breaker ∧
      ∀ a t, .begun a t ∈ (s.run ops).log → .begun a t ∈ s.log := by
  induction ops generalizing s with
  | nil => exact ⟨rfl, fun _ _ hmem ↦ hmem⟩
  | cons op ops ih =>
    obtain ⟨hbreaker, hlog⟩ :=
      h.step_opened hp hstate op.1 op.2 (hearly op List.mem_cons_self)
    have hstate' : (s.step op.1 op.2).breaker.state = .opened openedAt := by
      rw [hbreaker]
      exact hstate
    obtain ⟨hrun, hruns⟩ := ih (h.step hp op.1 op.2) hstate'
      fun op' hop' ↦ hearly op' (List.mem_cons_of_mem op hop')
    exact ⟨hrun.trans hbreaker, fun a t hmem ↦ hlog a t (hruns a t hmem)⟩

/-! ## The specification -/

/-- What the next operation does to the breaker, in terms of the log alone. -/
structure FollowsHistory (p : CircuitBreakerPolicy) (s : CircuitSystem) : Prop where
  earlier : ∀ a ∈ s.live, s.breaker.state.generation? ≠ some a.generation →
    ∀ e now, a.finish e now s.breaker = s.breaker
  closed : ∀ g n, s.breaker.state = .closed g n → ∀ now op,
    (s.step now op).breaker.state = .opened now ∧ CompletesFailures p s g now op ∨
      (∃ n', (s.step now op).breaker.state = .closed g n') ∧ ¬ CompletesFailures p s g now op
  no_failed_probe : ∀ g n k, s.breaker.state = .halfOpen g n k →
    .failure ∉ endingsIn .halfOpen g s.log
  halfOpen : ∀ g n k, s.breaker.state = .halfOpen g n k → ∀ now op,
    (s.step now op).breaker.state = .opened now ∧
        FailsProbe s g op ∧ ¬ CompletesRecovery p s g now op ∨
      (∃ g', (s.step now op).breaker.state = .closed g' 0) ∧
        ¬ FailsProbe s g op ∧ CompletesRecovery p s g now op ∨
      (∃ n' k', (s.step now op).breaker.state = .halfOpen g n' k') ∧
        ¬ FailsProbe s g op ∧ ¬ CompletesRecovery p s g now op
  opened : ∀ t, s.breaker.state = .opened t → ∀ ops : List (ℕ × CircuitOp),
    (∀ op ∈ ops, op.2 = .begin → op.1 < t + p.openTimeout) →
      (s.run ops).breaker.state = .opened t ∧
      (∀ a now, .begun a now ∈ (s.run ops).log → .begun a now ∈ s.log) ∧
      ∀ now, t + p.openTimeout ≤ now →
        ∃ g, ((s.run ops).breaker.begin now).1 = .ok ⟨g, .halfOpen, false⟩
  renewed : ∀ now op g, (s.step now op).breaker.state.generation? = some g →
    s.breaker.state.generation? ≠ some g →
      (∀ a ∈ s.live, a.generation ≠ g) ∧ ∀ kind, endingsIn kind g s.log = []

theorem Consistent.fresh_of_renewed (hp : p.validate = .ok ()) (h : Consistent p s) {now : ℕ}
    {op : CircuitOp} {g : ℕ} (hnew : (s.step now op).breaker.state.generation? = some g)
    (hold : s.breaker.state.generation? ≠ some g) : s.breaker.fresh ≤ g := by
  cases hstate : s.breaker.state with
  | closed g' n =>
    rcases h.step_closed hstate now op with ⟨hs, -⟩ | ⟨⟨n', hs⟩, -⟩
    · simp [hs, CircuitState.generation?] at hnew
    · rw [hs] at hnew
      rw [hstate] at hold
      exact absurd hnew hold
  | halfOpen g' n k =>
    rcases h.step_halfOpen hstate now op with ⟨hs, -⟩ | ⟨hs, -⟩ | ⟨⟨n', k', hs⟩, -⟩
    · simp [hs, CircuitState.generation?] at hnew
    · rw [hs] at hnew
      exact (Option.some.inj hnew).le
    · rw [hs] at hnew
      rw [hstate] at hold
      exact absurd hnew hold
  | opened t =>
    by_cases hop : op = .begin
    · subst hop
      by_cases hwait : s.breaker.policy.openTimeout ≤ saturatingDurationSince now t
      · simp only [CircuitSystem.step, CircuitBreaker.begin_elapsed hstate hwait] at hnew
        exact (Option.some.inj hnew).le
      · simp only [CircuitSystem.step, CircuitBreaker.begin_waiting hstate hwait] at hnew
        simp [hstate, CircuitState.generation?] at hnew
    · obtain ⟨hsame, -⟩ := h.step_opened hp hstate now op fun hb ↦ absurd hb hop
      simp [hsame, hstate, CircuitState.generation?] at hnew

theorem Consistent.followsHistory (hp : p.validate = .ok ()) (h : Consistent p s) :
    FollowsHistory p s := by
  constructor
  case earlier => exact fun a ha hg e now ↦ h.finish_earlier ha hg e now
  case closed => exact fun g n hstate now op ↦ h.step_closed hstate now op
  case no_failed_probe => exact fun g n k hstate ↦ (h.halfOpen g n k hstate).no_failure
  case halfOpen =>
    intro g n k hstate now op
    rcases h.step_halfOpen hstate now op with hopens | ⟨hcloses, hwhy⟩ | hstays
    · exact .inl hopens
    · exact .inr (.inl ⟨⟨s.breaker.fresh, hcloses⟩, hwhy⟩)
    · exact .inr (.inr hstays)
  case opened =>
    intro t hstate ops hearly
    obtain ⟨hbreaker, hlog⟩ := h.run_opened hp hstate ops hearly
    rw [hbreaker]
    refine ⟨hstate, hlog, fun now hnow ↦ ⟨s.breaker.fresh, ?_⟩⟩
    exact begin_opened_granted hstate (h.policy.symm ▸ hnow)
  case renewed =>
    intro now op g hnew hold
    have hfresh := h.fresh_of_renewed hp hnew hold
    refine ⟨fun a ha ↦ ?_, fun kind ↦ h.endings_fresh kind g hfresh⟩
    exact ((h.live_lt a ha).trans_le hfresh).ne

theorem circuit_follows_history (hp : p.validate = .ok ()) (ops : List (ℕ × CircuitOp)) :
    FollowsHistory p ((CircuitSystem.initial p).run ops) :=
  ((consistent_initial hp).run hp ops).followsHistory hp

theorem circuit_follows_history_halfOpen :
    FailsProbe ((CircuitSystem.initial .standard).run CircuitOp.intoHalfOpen) 1
        (.finish 0 .failure) ∧
      FollowsHistory .standard ((CircuitSystem.initial .standard).run CircuitOp.intoHalfOpen) :=
  ⟨⟨0, ⟨1, .halfOpen, false⟩, rfl, by decide, by decide⟩, circuit_follows_history (by decide) _⟩

end Reqx.Resilience
