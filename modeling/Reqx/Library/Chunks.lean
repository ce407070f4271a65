import Mathlib.Algebra.Order.Floor.Div
import Mathlib.Tactic.Common

/-!
# Cutting a list into chunks

A list cut into pieces of `size` elements has `⌈length / size⌉` nonempty
pieces; the last one may be shorter than the others.
-/

namespace Chunks

variable {α : Type*} {size i : ℕ} {l : List α}

def chunk (size i : ℕ) (l : List α) : List α := (l.drop (i * size)).take size

def count (size : ℕ) (l : List α) : ℕ := l.length ⌈/⌉ size

theorem lt_count_iff (hsize : 0 < size) : i < count size l ↔ i * size < l.length := by
  rw [← not_le, count, ceilDiv_le_iff_le_mul hsize, not_le, Nat.mul_comm]

theorem length_chunk : (chunk size i l).length = min size (l.length - i * size) := by
  simp [chunk]

theorem chunk_ne_nil_iff (hsize : 0 < size) : chunk size i l ≠ [] ↔ i < count size l := by
  rw [lt_count_iff hsize, ← List.length_pos_iff, length_chunk]
  omega

theorem chunk_eq_nil_iff (hsize : 0 < size) : chunk size i l = [] ↔ count size l ≤ i := by
  rw [← not_lt, ← chunk_ne_nil_iff hsize, not_not]

theorem drop_drop_chunk : (l.drop (i * size)).drop size = l.drop ((i + 1) * size) := by
  rw [List.drop_drop, Nat.succ_mul]

/-- What the first `i` chunks hold together, and one more chunk. -/
theorem min_add_length_chunk :
    min (i * size) l.length + (chunk size i l).length = min ((i + 1) * size) l.length := by
  rw [length_chunk, Nat.succ_mul]
  omega

theorem min_count_mul (hsize : 0 < size) (hi : count size l ≤ i) :
    min (i * size) l.length = l.length := by
  rw [← not_lt, lt_count_iff hsize] at hi
  omega

def chunks (size : ℕ) (l : List α) : List (List α) :=
  (List.range (count size l)).map (chunk size · l)

theorem ne_nil_of_mem_chunks (hsize : 0 < size) {piece : List α} (h : piece ∈ chunks size l) :
    piece ≠ [] := by
  obtain ⟨i, hi, rfl⟩ := List.mem_map.mp h
  exact (chunk_ne_nil_iff hsize).mpr (List.mem_range.mp hi)

theorem exists_chunks_eq_cons (hsize : 0 < size) (hl : l ≠ []) :
    ∃ rest, chunks size l = chunk size 0 l :: rest := by
  have hpos : 0 < count size l := by
    rw [lt_count_iff hsize, Nat.zero_mul]
    exact List.length_pos_iff.mpr hl
  obtain ⟨n, hn⟩ := Nat.exists_eq_succ_of_ne_zero hpos.ne'
  rw [chunks, hn, List.range_succ_eq_map, List.map_cons]
  exact ⟨_, rfl⟩

theorem flatten_chunks (hsize : 0 < size) : (chunks size l).flatten = l := by
  have htake : ∀ n, ((List.range n).map (chunk size · l)).flatten = l.take (n * size) := by
    intro n
    induction n with
    | zero => simp
    | succ n ih =>
      rw [List.range_succ, List.map_append, List.flatten_append, ih, Nat.succ_mul,
        List.take_add]
      simp [chunk]
  have hcount := min_count_mul hsize (le_refl (count size l))
  rw [chunks, htake, List.take_of_length_le]
  omega

end Chunks
