import Mathlib.Data.List.Basic
import Mathlib.Data.List.Range

/-!
# Chunks of a list

`chunksExact n l` cuts a list into parts of `n` elements and leaves out what remains.
-/

namespace Chunks

variable {α : Type*}

def chunksExact (n : Nat) (l : List α) : List (List α) :=
  (List.range (l.length / n)).map fun i => (l.drop (n * i)).take n

@[simp] theorem length_chunksExact (n : Nat) (l : List α) :
    (chunksExact n l).length = l.length / n := by
  simp [chunksExact]

theorem length_of_mem {n : Nat} {l chunk : List α} (h : chunk ∈ chunksExact n l) :
    chunk.length = n := by
  obtain ⟨i, hi, rfl⟩ := List.mem_map.mp h
  have hi : i < l.length / n := List.mem_range.mp hi
  have hn : 0 < n := by
    by_contra hn
    obtain rfl : n = 0 := by omega
    simp at hi
  have hend : n * (i + 1) ≤ l.length := (Nat.mul_le_mul_left n hi).trans (Nat.mul_div_le l.length n)
  rw [List.length_take, List.length_drop]
  rw [Nat.mul_succ] at hend
  omega

theorem flatten_chunks (n k : Nat) (l : List α) :
    ((List.range k).map fun i => (l.drop (n * i)).take n).flatten = l.take (n * k) := by
  induction k with
  | zero => simp
  | succ k ih =>
    rw [List.range_succ, List.map_append, List.flatten_append, ih, Nat.mul_succ, List.take_add]
    simp

/-- The chunks of a list whose length they divide are all of it. -/
theorem flatten_chunksExact {n : Nat} {l : List α} (h : n ∣ l.length) :
    (chunksExact n l).flatten = l := by
  rw [chunksExact, flatten_chunks, Nat.mul_div_cancel' h, List.take_length]

end Chunks
