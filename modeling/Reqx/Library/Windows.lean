import Mathlib.Data.Finset.Card
import Mathlib.Data.List.Basic
import Mathlib.Order.Nat
import Mathlib.Tactic.Common

/-!
# Accounting windows

Events are accounted in windows of one length. A window is named by the time
at which it started; the next one starts when something happens after the end
of the last one. An interval shorter than a window meets at most two of them.
-/

namespace Windows

variable {ε : Type*} {time window : ε → ℕ} {length : ℕ} {log : List ε}

/-- Every event lies in its window, and different windows do not overlap. -/
structure Spaced (time window : ε → ℕ) (length : ℕ) (log : List ε) : Prop where
  inside : ∀ e ∈ log, window e ≤ time e ∧ time e < window e + length
  apart : ∀ e ∈ log, ∀ e' ∈ log, window e < window e' → window e + length ≤ window e'

theorem Spaced.nil : Spaced time window length [] := by
  refine ⟨fun e he ↦ ?_, fun e he ↦ ?_⟩
  · cases he
  · cases he

/-- The next event lies in the current window or in one that starts after its end. -/
theorem Spaced.concat (h : Spaced time window length log) {e : ε}
    (hinside : window e ≤ time e ∧ time e < window e + length)
    (hlast : ∀ e' ∈ log, window e' = window e ∨ window e' + length ≤ window e) :
    Spaced time window length (log ++ [e]) := by
  refine ⟨?_, fun e₁ he₁ e₂ he₂ hlt ↦ ?_⟩
  · rw [List.forall_mem_append, List.forall_mem_singleton]
    exact ⟨h.inside, hinside⟩
  · rw [List.mem_append, List.mem_singleton] at he₁ he₂
    rcases he₁ with he₁ | rfl <;> rcases he₂ with he₂ | rfl
    · exact h.apart e₁ he₁ e₂ he₂ hlt
    · rcases hlast e₁ he₁ with heq | hle
      · omega
      · exact hle
    · rcases hlast e₂ he₂ with heq | hle <;> omega
    · omega

/-- Three windows do not fit around an interval shorter than one. -/
theorem Spaced.two_windows (h : Spaced time window length log) {start stop : ℕ}
    (hshort : stop < start + length) :
    ∃ w₁ w₂, ∀ e ∈ log, start ≤ time e → time e ≤ stop → window e = w₁ ∨ window e = w₂ := by
  by_cases hone : ∃ w, ∀ e ∈ log, start ≤ time e → time e ≤ stop → window e = w
  · obtain ⟨w, hw⟩ := hone
    exact ⟨w, w, fun e he hstart hstop ↦ .inl (hw e he hstart hstop)⟩
  push Not at hone
  obtain ⟨e₁, he₁, hstart₁, hstop₁, -⟩ := hone 0
  obtain ⟨e₂, he₂, hstart₂, hstop₂, hne⟩ := hone (window e₁)
  refine ⟨window e₁, window e₂, fun e he hstart hstop ↦ ?_⟩
  by_contra hneither
  obtain ⟨hne₁, hne₂⟩ := not_or.mp hneither
  have hin := h.inside e he
  have hin₁ := h.inside e₁ he₁
  have hin₂ := h.inside e₂ he₂
  have h₁ := h.apart e he e₁ he₁
  have h₁' := h.apart e₁ he₁ e he
  have h₂ := h.apart e he e₂ he₂
  have h₂' := h.apart e₂ he₂ e he
  have h₃ := h.apart e₁ he₁ e₂ he₂
  have h₃' := h.apart e₂ he₂ e₁ he₁
  omega

/-- As many windows as fit between the first start and the last event, and one more. -/
theorem Spaced.card_windows_le (h : Spaced time window length log) (hpos : 0 < length)
    {start stop : ℕ} (hstart : ∀ e ∈ log, start ≤ window e) (hstop : ∀ e ∈ log, time e ≤ stop) :
    (log.map window).toFinset.card ≤ (stop - start) / length + 1 := by
  have hmem {w : ℕ} (hw : w ∈ (log.map window).toFinset) : ∃ e ∈ log, window e = w :=
    List.mem_map.mp (List.mem_toFinset.mp hw)
  -- A window is numbered by the whole lengths that fit before it.
  rw [← Finset.card_range ((stop - start) / length + 1)]
  refine Finset.card_le_card_of_injOn (fun w ↦ (w - start) / length) ?_ ?_
  · intro w hw
    obtain ⟨e, he, rfl⟩ := hmem hw
    have hinside := (h.inside e he).1.trans (hstop e he)
    have hle : (window e - start) / length ≤ (stop - start) / length :=
      Nat.div_le_div_right (Nat.sub_le_sub_right hinside start)
    exact Finset.mem_coe.mpr (Finset.mem_range.mpr (Nat.lt_succ_of_le hle))
  · have hlt : ∀ e ∈ log, ∀ e' ∈ log, window e < window e' →
        (window e - start) / length < (window e' - start) / length := by
      intro e he e' he' hlt
      have hapart := h.apart e he e' he' hlt
      have hfirst := hstart e he
      have hnext : (window e - start) + length ≤ window e' - start := by omega
      calc (window e - start) / length < (window e - start) / length + 1 := Nat.lt_succ_self _
        _ = ((window e - start) + length) / length := (Nat.add_div_right _ hpos).symm
        _ ≤ (window e' - start) / length := Nat.div_le_div_right hnext
    intro w hw w' hw' heq
    obtain ⟨e, he, rfl⟩ := hmem hw
    obtain ⟨e', he', rfl⟩ := hmem hw'
    rcases lt_trichotomy (window e) (window e') with hcase | hcase | hcase
    · exact absurd heq (hlt e he e' he' hcase).ne
    · exact hcase
    · exact absurd heq (hlt e' he' e he hcase).ne'

theorem countP_le_add {p q r : ε → Bool} (h : ∀ e ∈ log, p e = true → q e = true ∨ r e = true) :
    log.countP p ≤ log.countP q + log.countP r := by
  induction log with
  | nil => exact Nat.zero_le _
  | cons e log ih =>
    have hrest := ih fun e' he' ↦ h e' (List.mem_cons_of_mem _ he')
    have hfirst := h e List.mem_cons_self
    rw [List.countP_cons, List.countP_cons, List.countP_cons]
    cases hp : p e with
    | false => simp only [Bool.false_eq_true, if_false]; omega
    | true =>
      rcases hfirst hp with hq | hr
      · simp only [hq, if_true]
        omega
      · simp only [hr, if_true]
        omega

end Windows
