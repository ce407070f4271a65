import Mathlib.Tactic.Common

/-!
# Computations that leave a log

A computation returns a value and the list of the events it caused. The rules
for postconditions follow the shape of a program: what a sequence ensures is
what its first part ensures, followed by what the rest ensures of the longer
log.
-/

structure Logged (ε α : Type) where
  events : List ε
  value : α

namespace Logged

variable {ε α β : Type}

instance : Monad (Logged ε) where
  pure a := ⟨[], a⟩
  bind x f := ⟨x.events ++ (f x.value).events, (f x.value).value⟩

def tell (es : List ε) : Logged ε Unit := ⟨es, ()⟩

/-- The computation ends with this log and this value. -/
def Ensures (x : Logged ε α) (post : List ε → α → Prop) : Prop := post x.events x.value

variable {x : Logged ε α} {f : α → Logged ε β} {post : List ε → β → Prop}

theorem ensures_bind :
    Ensures (x >>= f) post ↔
      Ensures x fun es a ↦ Ensures (f a) fun es' b ↦ post (es ++ es') b := Iff.rfl

theorem ensures_pure {b : β} : Ensures (pure b) post ↔ post [] b := Iff.rfl

theorem ensures_tell_bind {es : List ε} {f : Unit → Logged ε β} :
    Ensures (tell es >>= f) post ↔ Ensures (f ()) fun es' b ↦ post (es ++ es') b := Iff.rfl

theorem Ensures.bind {mid : List ε → α → Prop} (hx : Ensures x mid)
    (hf : ∀ es a, mid es a → Ensures (f a) fun es' b ↦ post (es ++ es') b) :
    Ensures (x >>= f) post :=
  hf x.events x.value hx

theorem Ensures.and {y : Logged ε β} {pre : List ε → β → Prop} (hy : Ensures y pre)
    (hy' : Ensures y post) : Ensures y fun es b ↦ pre es b ∧ post es b :=
  ⟨hy, hy'⟩

theorem Ensures.mono {y : Logged ε β} {pre : List ε → β → Prop} (hy : Ensures y pre)
    (h : ∀ es b, pre es b → post es b) : Ensures y post :=
  h y.events y.value hy

/-- Every event of the computation satisfies `p`. -/
def All (p : ε → Prop) (x : Logged ε α) : Prop := x.Ensures fun es _ ↦ ∀ e ∈ es, p e

variable {p : ε → Prop}

theorem all_pure (a : α) : All p (pure a : Logged ε α) := fun _ h ↦ nomatch h

theorem all_tell {es : List ε} : All p (tell es) ↔ ∀ e ∈ es, p e := Iff.rfl

theorem all_bind : All p (x >>= f) ↔ All p x ∧ All p (f x.value) := List.forall_mem_append

theorem All.bind (hx : All p x) (hf : ∀ a, All p (f a)) : All p (x >>= f) :=
  all_bind.mpr ⟨hx, hf x.value⟩

theorem All.mono {p' : ε → Prop} (hx : All p x) (h : ∀ e, p e → p' e) : All p' x :=
  fun e he ↦ h e (hx e he)

section Agrees

variable {ε' β' : Type} {view : ε → ε'} {see : β → β'}

/-- The logs, seen through `view`, and the values, seen through `see`, are the same. -/
def Agrees (view : ε → ε') (see : β → β') (x y : Logged ε β) : Prop :=
  x.events.map view = y.events.map view ∧ see x.value = see y.value

theorem Agrees.refl (x : Logged ε β) : Agrees view see x x := ⟨rfl, rfl⟩

theorem Agrees.of_eq {x y : Logged ε β} (h : x = y) : Agrees view see x y := h ▸ .refl x

theorem Agrees.bind {x y : Logged ε α} {f g : α → Logged ε β} (hxy : Agrees view id x y)
    (hfg : ∀ a, Agrees view see (f a) (g a)) : Agrees view see (x >>= f) (y >>= g) := by
  obtain ⟨hevents, hvalue⟩ := hxy
  obtain ⟨hevents', hvalue'⟩ := hfg x.value
  refine ⟨?_, ?_⟩
  · change (x.events ++ (f x.value).events).map view = (y.events ++ (g y.value).events).map view
    rw [List.map_append, List.map_append, hevents, hevents', show x.value = y.value from hvalue]
  · change see (f x.value).value = see (g y.value).value
    rw [hvalue', show x.value = y.value from hvalue]

end Agrees

end Logged
