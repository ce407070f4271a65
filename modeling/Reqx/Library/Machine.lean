import Mathlib.Data.List.Basic
import Mathlib.Tactic.Common

/-!
# Machines with outputs

A deterministic machine answers every input and moves to its next state. Runs,
the inputs a run may be given, and the rule that two machines related by a
simulation answer alike.
-/

structure Machine (I O S : Type*) where
  step : S → I → O × S

namespace Machine

variable {I O S T : Type*}

def outputs (m : Machine I O S) : S → List I → List O
  | _, [] => []
  | s, i :: is => (m.step s i).1 :: m.outputs (m.step s i).2 is

def final (m : Machine I O S) (s : S) (is : List I) : S := is.foldl (fun s i ↦ (m.step s i).2) s

def trace (m : Machine I O S) (s : S) (is : List I) : List (I × O) := is.zip (m.outputs s is)

/-- Every input of the run is allowed in the state that receives it. -/
def Admits (m : Machine I O S) (ok : S → I → Prop) : S → List I → Prop
  | _, [] => True
  | s, i :: is => ok s i ∧ m.Admits ok (m.step s i).2 is

@[simp] theorem outputs_nil (m : Machine I O S) (s : S) : m.outputs s [] = [] := rfl

@[simp] theorem outputs_cons (m : Machine I O S) (s : S) (i : I) (is : List I) :
    m.outputs s (i :: is) = (m.step s i).1 :: m.outputs (m.step s i).2 is := rfl

@[simp] theorem trace_nil (m : Machine I O S) (s : S) : m.trace s [] = [] := rfl

@[simp] theorem trace_cons (m : Machine I O S) (s : S) (i : I) (is : List I) :
    m.trace s (i :: is) = (i, (m.step s i).1) :: m.trace (m.step s i).2 is := rfl

@[simp] theorem final_cons (m : Machine I O S) (s : S) (i : I) (is : List I) :
    m.final s (i :: is) = m.final (m.step s i).2 is := rfl

theorem final_concat (m : Machine I O S) (s : S) (is : List I) (i : I) :
    m.final s (is ++ [i]) = (m.step (m.final s is) i).2 := by
  simp [final]

theorem outputs_concat (m : Machine I O S) (s : S) (is : List I) (i : I) :
    m.outputs s (is ++ [i]) = m.outputs s is ++ [(m.step (m.final s is) i).1] := by
  induction is generalizing s with
  | nil => rfl
  | cons j is ih => simp only [List.cons_append, outputs_cons, ih, final_cons]

theorem admits_append {m : Machine I O S} {ok : S → I → Prop} {s : S} {is js : List I} :
    m.Admits ok s (is ++ js) ↔ m.Admits ok s is ∧ m.Admits ok (m.final s is) js := by
  induction is generalizing s with
  | nil => simp [Admits, final]
  | cons i is ih => simp only [List.cons_append, Admits, ih, final_cons, and_assoc]

theorem map_snd_trace (m : Machine I O S) (s : S) (is : List I) :
    (m.trace s is).map Prod.snd = m.outputs s is := by
  induction is generalizing s with
  | nil => rfl
  | cons i is ih => rw [trace_cons, List.map_cons, ih, outputs_cons]

theorem forall_mem_trace {m : Machine I O S} {ok : S → I → Prop} {P : S → Prop}
    {Q : I → O → Prop} (hstep : ∀ s i, P s → ok s i → Q i (m.step s i).1 ∧ P (m.step s i).2)
    {s : S} (hs : P s) {is : List I} (his : m.Admits ok s is) : ∀ e ∈ m.trace s is, Q e.1 e.2 := by
  induction is generalizing s with
  | nil => simp
  | cons i is ih =>
    obtain ⟨hq, hnext⟩ := hstep s i hs his.1
    intro e he
    rcases List.mem_cons.mp he with rfl | he
    · exact hq
    · exact ih hnext his.2 e he

section Simulation

variable {m : Machine I O S} {n : Machine I O T} {ok : T → I → Prop} {R : S → T → Prop}

/-- The abstract machine decides which inputs are allowed. -/
def Simulates (m : Machine I O S) (n : Machine I O T) (ok : T → I → Prop)
    (R : S → T → Prop) : Prop :=
  ∀ s t i, R s t → ok t i →
    (m.step s i).1 = (n.step t i).1 ∧ R (m.step s i).2 (n.step t i).2

theorem Simulates.outputs_eq (h : m.Simulates n ok R) {s : S} {t : T} (hst : R s t)
    {is : List I} (his : n.Admits ok t is) : m.outputs s is = n.outputs t is := by
  induction is generalizing s t with
  | nil => rfl
  | cons i is ih =>
    obtain ⟨hout, hnext⟩ := h s t i hst his.1
    rw [outputs_cons, outputs_cons, hout, ih hnext his.2]

theorem Simulates.trace_eq (h : m.Simulates n ok R) {s : S} {t : T} (hst : R s t)
    {is : List I} (his : n.Admits ok t is) : m.trace s is = n.trace t is := by
  rw [trace, trace, h.outputs_eq hst his]

theorem Simulates.final (h : m.Simulates n ok R) {s : S} {t : T} (hst : R s t)
    {is : List I} (his : n.Admits ok t is) : R (m.final s is) (n.final t is) := by
  induction is generalizing s t with
  | nil => exact hst
  | cons i is ih => exact ih (h s t i hst his.1).2 his.2

end Simulation

/-! ## Logs

The events of a log may ask a machine. An event can only happen if the machine
gives an answer that the event agrees with. -/

section Logs

variable {E : Type*} {m : Machine I O S} {ask : E → Option I} {agrees : E → O → Bool}
  {s s' : S} {log : List E}

def follow (m : Machine I O S) (ask : E → Option I) (agrees : E → O → Bool) (s : S) (e : E) :
    Option S :=
  match ask e with
  | none => some s
  | some i => if agrees e (m.step s i).1 then some (m.step s i).2 else none

/-- The state after a log whose events all can happen. -/
def replay (m : Machine I O S) (ask : E → Option I) (agrees : E → O → Bool) (s : S)
    (log : List E) : Option S :=
  log.foldlM (m.follow ask agrees) s

theorem follow_eq_some {e : E} (h : m.follow ask agrees s e = some s') :
    ask e = none ∧ s' = s ∨
      ∃ i, ask e = some i ∧ agrees e (m.step s i).1 = true ∧ s' = (m.step s i).2 := by
  unfold follow at h
  split at h
  next hask => exact .inl ⟨hask, (Option.some.inj h).symm⟩
  next i hask =>
    split at h
    next hagrees => exact .inr ⟨i, hask, hagrees, (Option.some.inj h).symm⟩
    · cases h

theorem replay_cons_eq_some {e : E} (h : m.replay ask agrees s (e :: log) = some s') :
    ∃ mid, m.follow ask agrees s e = some mid ∧ m.replay ask agrees mid log = some s' := by
  rw [replay, List.foldlM_cons] at h
  exact Option.bind_eq_some_iff.mp h

theorem replay_append (log log' : List E) :
    m.replay ask agrees s (log ++ log') =
      (m.replay ask agrees s log).bind fun mid ↦ m.replay ask agrees mid log' := by
  rw [replay, List.foldlM_append]
  rfl

theorem final_of_replay (h : m.replay ask agrees s log = some s') :
    m.final s (log.filterMap ask) = s' := by
  induction log generalizing s with
  | nil => exact Option.some.inj h
  | cons e log ih =>
    obtain ⟨mid, hfollow, hrest⟩ := replay_cons_eq_some h
    rcases follow_eq_some hfollow with ⟨hask, rfl⟩ | ⟨i, hask, -, rfl⟩
    · rw [List.filterMap_cons_none hask]
      exact ih hrest
    · rw [List.filterMap_cons_some hask, final_cons]
      exact ih hrest

/-- Events of the log are counted by the answers that the machine gave them. -/
theorem countP_of_replay (h : m.replay ask agrees s log = some s') {p : E → Bool}
    {q : I × O → Bool} (hquiet : ∀ e, ask e = none → p e = false)
    (hasks : ∀ e i o, ask e = some i → agrees e o = true → p e = q (i, o)) :
    log.countP p = (m.trace s (log.filterMap ask)).countP q := by
  induction log generalizing s with
  | nil => rfl
  | cons e log ih =>
    obtain ⟨mid, hfollow, hrest⟩ := replay_cons_eq_some h
    rcases follow_eq_some hfollow with ⟨hask, rfl⟩ | ⟨i, hask, hagrees, rfl⟩
    · rw [List.filterMap_cons_none hask, List.countP_cons, hquiet e hask, ih hrest]
      rfl
    · rw [List.filterMap_cons_some hask, trace_cons, List.countP_cons, List.countP_cons,
        hasks e i _ hask hagrees, ih hrest]

theorem mem_trace_of_replay (h : m.replay ask agrees s log = some s') {e : E} (he : e ∈ log)
    {i : I} (hask : ask e = some i) :
    ∃ o, agrees e o = true ∧ (i, o) ∈ m.trace s (log.filterMap ask) := by
  induction log generalizing s with
  | nil => cases he
  | cons e' log ih =>
    obtain ⟨mid, hfollow, hrest⟩ := replay_cons_eq_some h
    rcases follow_eq_some hfollow with ⟨hask', rfl⟩ | ⟨j, hask', hagrees, rfl⟩
    · rw [List.filterMap_cons_none hask']
      rcases List.mem_cons.mp he with rfl | he
      · rw [hask] at hask'
        cases hask'
      · exact ih hrest he
    · rw [List.filterMap_cons_some hask', trace_cons]
      rcases List.mem_cons.mp he with rfl | he
      · obtain rfl : i = j := Option.some.inj (hask.symm.trans hask')
        exact ⟨_, hagrees, List.mem_cons_self⟩
      · obtain ⟨o, ho, hmem⟩ := ih hrest he
        exact ⟨o, ho, List.mem_cons_of_mem _ hmem⟩

theorem filterMap_map_sublist {T : Type*} {g : I → T} {time : E → T}
    (hask : ∀ e i, ask e = some i → g i = time e) (log : List E) :
    ((log.filterMap ask).map g).Sublist (log.map time) := by
  induction log with
  | nil => exact .slnil
  | cons e log ih =>
    cases hi : ask e with
    | none =>
      rw [List.filterMap_cons_none hi]
      exact ih.cons _
    | some i =>
      rw [List.filterMap_cons_some hi, List.map_cons, List.map_cons, hask e i hi]
      exact ih.cons_cons _

end Logs

end Machine
