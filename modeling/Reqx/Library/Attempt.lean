import Mathlib.Tactic.Common

/-!
# Computations that may stop

A computation ends with a value or with an error, and leaves a state in either
case. In a sequence the first error ends the whole.
-/

/-- How a computation ended, and the state it left. -/
abbrev Attempt (ε σ α : Type) := Except ε α × σ

namespace Attempt

variable {ε σ α β : Type}

def andThen (x : Attempt ε σ α) (f : α → σ → Attempt ε σ β) : Attempt ε σ β :=
  match x with
  | (.error e, s) => (.error e, s)
  | (.ok a, s) => f a s

theorem andThen_assoc {γ : Type} (x : Attempt ε σ α) (f : α → σ → Attempt ε σ β)
    (g : β → σ → Attempt ε σ γ) :
    (x.andThen f).andThen g = x.andThen fun a s ↦ (f a s).andThen g := by
  rcases x with ⟨e | a, s⟩ <;> rfl

end Attempt
