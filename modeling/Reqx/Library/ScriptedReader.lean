import Mathlib.Data.List.Infix
import Mathlib.Order.Nat

/-!
# Readers

A reader delivers a fixed string in pieces of any size and may fail at any
call. What the calls do is a script; a failed call delivers nothing and takes
nothing from the string.
-/

/-- What one call of a reader does: it delivers at most `more + 1` elements, or it fails. -/
inductive ReadEvent (ε : Type) where
  | piece (more : ℕ)
  | error (error : ε)
  deriving DecidableEq

/-- After the script the reader delivers all it is asked for. -/
structure ScriptedReader (α ε : Type) where
  source : List α
  script : List (ReadEvent ε)
  deriving DecidableEq

namespace ScriptedReader

variable {α ε : Type}

def read (r : ScriptedReader α ε) (wanted : ℕ) : Except ε (List α) × ScriptedReader α ε :=
  match r.script with
  | [] => (.ok (r.source.take wanted), ⟨r.source.drop wanted, []⟩)
  | .piece more :: script =>
    (.ok (r.source.take (min wanted (more + 1))),
      ⟨r.source.drop (min wanted (more + 1)), script⟩)
  | .error error :: script => (.error error, ⟨r.source, script⟩)

variable {r r' : ScriptedReader α ε} {wanted : ℕ}

theorem read_ok {bytes : List α} (h : r.read wanted = (.ok bytes, r')) (hwanted : 0 < wanted) :
    ∃ n, 0 < n ∧ n ≤ wanted ∧ bytes = r.source.take n ∧ r'.source = r.source.drop n := by
  unfold read at h
  split at h
  · cases h
    exact ⟨wanted, hwanted, le_rfl, rfl, rfl⟩
  · next more script _ =>
    cases h
    exact ⟨min wanted (more + 1), by omega, min_le_left _ _, rfl, rfl⟩
  · cases h

/-- A call that delivers nothing has found the end of the string. -/
theorem source_eq_nil_of_read (h : r.read wanted = (.ok [], r')) (hwanted : 0 < wanted) :
    r.source = [] ∧ r'.source = [] := by
  obtain ⟨n, hn, -, hnil, hrest⟩ := read_ok h hwanted
  have hsource := (List.take_eq_nil_iff.mp hnil.symm).resolve_left hn.ne'
  exact ⟨hsource, by rw [hrest, hsource, List.drop_nil]⟩

theorem read_error {error : ε} (h : r.read wanted = (.error error, r')) :
    r'.source = r.source ∧ r.script = .error error :: r'.script := by
  unfold read at h
  split at h
  · cases h
  · cases h
  · next heq =>
    cases h
    exact ⟨rfl, heq⟩

theorem script_suffix_of_read {result : Except ε (List α)} (h : r.read wanted = (result, r')) :
    r'.script <:+ r.script := by
  unfold read at h
  split at h <;> next heq =>
    cases h
    simp [heq, List.suffix_cons]

theorem script_length_lt_of_read_error {error : ε} (h : r.read wanted = (.error error, r')) :
    r'.script.length < r.script.length := by
  rw [(read_error h).2]
  exact Nat.lt_succ_self _

end ScriptedReader
