import Mathlib.Data.List.Forall2
import Mathlib.Data.List.Induction

/-!
# Chains of checks

A computation that can fail, in steps: it succeeds when every step does, and
otherwise it gives the error of the first step that fails.
-/

namespace Reqx.Checks

variable {ε α β σ : Type}

theorem bind_eq_ok {x : Except ε α} {f : α → Except ε β} {b : β} :
    x >>= f = .ok b ↔ ∃ a, x = .ok a ∧ f a = .ok b := by
  cases x with
  | error e => simp [bind, Except.bind]
  | ok a => simp [bind, Except.bind]

theorem exists_of_isOk {x : Except ε α} (h : x.isOk = true) : ∃ a, x = .ok a := by
  cases x with
  | error e => cases h
  | ok a => exact ⟨a, rfl⟩

/-- A state that every step of a successful fold keeps, holds at its end. -/
theorem foldlM_induction {f : σ → α → Except ε σ} {p : List α → σ → Prop} {start : σ}
    (hstart : p [] start) (hstep : ∀ done s a s', p done s → f s a = .ok s' → p (done ++ [a]) s')
    {l : List α} {s : σ} (h : l.foldlM f start = .ok s) : p l s := by
  induction l using List.reverseRecOn generalizing s with
  | nil =>
    obtain rfl : start = s := by injection h
    exact hstart
  | append_singleton l a ih =>
    rw [List.foldlM_append] at h
    obtain ⟨before, hbefore, hlast⟩ := bind_eq_ok.mp h
    obtain ⟨after, hafter, hend⟩ := bind_eq_ok.mp hlast
    obtain rfl : after = s := by injection hend
    exact hstep l before a after (ih hbefore) hafter

/-! ## Loops that collect -/

/-- A loop that appends what each round returns. -/
def collect (f : α → Except ε (List β)) (collected : List β) (l : List α) : Except ε (List β) :=
  l.foldlM (fun collected a ↦ do return collected ++ (← f a)) collected

theorem collect_eq_ok_iff {f : α → Except ε (List β)} {collected : List β} {l : List α}
    {found : List β} :
    collect f collected l = .ok found ↔
      ∃ parts, l.Forall₂ (fun a part ↦ f a = .ok part) parts ∧
        found = collected ++ parts.flatten := by
  induction l generalizing collected with
  | nil => simp [collect, pure, Except.pure, List.forall₂_nil_left_iff, eq_comm]
  | cons a l ih =>
    have hcons : collect f collected (a :: l) =
        f a >>= fun part ↦ collect f (collected ++ part) l := by
      rw [collect, List.foldlM_cons]
      cases f a <;> rfl
    rw [hcons, bind_eq_ok]
    constructor
    · rintro ⟨part, hpart, hrest⟩
      obtain ⟨parts, hparts, rfl⟩ := ih.mp hrest
      exact ⟨part :: parts, .cons hpart hparts, by simp⟩
    · rintro ⟨parts, hparts, rfl⟩
      cases hparts with
      | @cons _ part _ parts hpart hparts =>
        exact ⟨part, hpart, ih.mpr ⟨parts, hparts, by simp⟩⟩

theorem collect_singletons {f : α → Except ε (List β)} {r : α → β → Prop}
    (hf : ∀ a part, f a = .ok part → ∃ b, r a b ∧ part = [b]) {l : List α} {found : List β}
    (h : collect f [] l = .ok found) : l.Forall₂ r found := by
  obtain ⟨parts, hparts, rfl⟩ := collect_eq_ok_iff.mp h
  rw [List.nil_append]
  clear h
  induction hparts with
  | nil => exact .nil
  | @cons a part l parts hpart _ ih =>
    obtain ⟨b, hb, rfl⟩ := hf a part hpart
    exact .cons hb ih

end Reqx.Checks
