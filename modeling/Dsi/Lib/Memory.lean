import Mathlib.Data.List.Basic

/-!
# Dsi.Lib.Memory

Memory that is written in pieces: what stands in a range behind a write into it, in front
of it or behind it.
-/

namespace Memory

variable {α : Type}

/-- Memory with `bs` stored from `offset` on. -/
def put (offset : Nat) (bs : List α) (mem : Nat → α) (i : Nat) : α :=
  if offset ≤ i then (bs[i - offset]?).getD (mem i) else mem i

/-- The `n` cells from `offset` on. -/
def slice (mem : Nat → α) (offset n : Nat) : List α := (List.range n).map fun i => mem (offset + i)

variable {mem mem' : Nat → α} {bs : List α} {offset o n : Nat}

@[simp] theorem length_slice (mem : Nat → α) (o n : Nat) : (slice mem o n).length = n := by
  simp [slice]

@[simp] theorem slice_zero (mem : Nat → α) (o : Nat) : slice mem o 0 = [] := rfl

theorem slice_add (mem : Nat → α) (o m n : Nat) :
    slice mem o (m + n) = slice mem o m ++ slice mem (o + m) n := by
  simp [slice, List.range_add, Nat.add_assoc, Function.comp_def]

theorem slice_congr (h : ∀ i, o ≤ i → i < o + n → mem i = mem' i) :
    slice mem o n = slice mem' o n := by
  refine List.map_congr_left fun i hi => h (o + i) (Nat.le_add_right o i) ?_
  exact Nat.add_lt_add_left (List.mem_range.mp hi) o

theorem put_of_lt (mem : Nat → α) (bs : List α) {i : Nat} (h : i < offset) :
    put offset bs mem i = mem i := if_neg (Nat.not_le.mpr h)

theorem put_of_le (mem : Nat → α) {i : Nat} (h : offset + bs.length ≤ i) :
    put offset bs mem i = mem i := by
  rw [put, if_pos (by omega), List.getElem?_eq_none (by omega), Option.getD_none]

/-- What was stored. -/
theorem slice_put (offset : Nat) (bs : List α) (mem : Nat → α) :
    slice (put offset bs mem) offset bs.length = bs := by
  refine List.ext_getElem (length_slice ..) fun i hi hi' => ?_
  simp [slice, put, List.getElem?_eq_getElem hi']

theorem slice_put_before (bs : List α) (mem : Nat → α) (h : o + n ≤ offset) :
    slice (put offset bs mem) o n = slice mem o n :=
  slice_congr fun _ _ hi => put_of_lt mem bs (by omega)

theorem slice_put_behind (mem : Nat → α) (h : offset + bs.length ≤ o) :
    slice (put offset bs mem) o n = slice mem o n :=
  slice_congr fun _ hi _ => put_of_le mem (by omega)

end Memory
