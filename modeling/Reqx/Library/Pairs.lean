import Mathlib.Data.List.Forall2
import Reqx.Library.Shares

/-!
# Paired lists

Two lists whose entries at the same place belong together, one of them the
account of the other. Places are replaced in both at once, or in one of them by
an entry that still belongs there, and totals carry over.
-/

namespace Pairs

open List

variable {α β : Type*} {R : α → β → Prop} {l : List α} {l' : List β} {i : ℕ} {a : α} {b : β}

theorem of_getElem? (h : Forall₂ R l l') (ha : l[i]? = some a) (hb : l'[i]? = some b) : R a b := by
  induction h generalizing i with
  | nil => cases ha
  | cons hab hrest ih =>
    cases i with
    | zero =>
      cases ha
      cases hb
      exact hab
    | succ i => exact ih ha hb

theorem set (h : Forall₂ R l l') (i : ℕ) (hab : R a b) : Forall₂ R (l.set i a) (l'.set i b) := by
  induction h generalizing i with
  | nil => exact .nil
  | cons hcd hrest ih =>
    cases i with
    | zero => exact .cons hab hrest
    | succ i => exact .cons hcd (ih i)

theorem set_left (h : Forall₂ R l l') (hb : l'[i]? = some b) (hab : R a b) :
    Forall₂ R (l.set i a) l' := by
  have hset := set h i hab
  obtain ⟨hi, rfl⟩ := List.getElem?_eq_some_iff.mp hb
  rwa [List.set_getElem_self] at hset

theorem set_right (h : Forall₂ R l l') (ha : l[i]? = some a) (hab : R a b) :
    Forall₂ R l (l'.set i b) := by
  have hset := set h i hab
  obtain ⟨hi, rfl⟩ := List.getElem?_eq_some_iff.mp ha
  rwa [List.set_getElem_self] at hset

theorem total_eq {f : α → ℕ} {g : β → ℕ} (h : Forall₂ R l l')
    (hfg : ∀ a ∈ l, ∀ b ∈ l', R a b → f a = g b) : Shares.total f l = Shares.total g l' := by
  induction h with
  | nil => rfl
  | cons hab hrest ih =>
    rw [Shares.total_cons, Shares.total_cons,
      hfg _ List.mem_cons_self _ List.mem_cons_self hab,
      ih fun a ha b hb ↦ hfg a (List.mem_cons_of_mem _ ha) b (List.mem_cons_of_mem _ hb)]

end Pairs
