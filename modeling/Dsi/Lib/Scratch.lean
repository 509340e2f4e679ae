import Dsi.Lib.Sequence

/-!
# Dsi.Lib.Scratch

A scratch buffer that a loop fills, hands over whenever it is full, and fills again from its
first slot on.  What it hands over are the batches of the elements, whatever the slots hold of
the batches before.
-/

namespace Sequence

variable {α β : Type} {size : Nat}

/-! ## Batches -/

/-- No batch is empty or too long, if the first one may take one more element. -/
theorem length_of_mem_batches {acc l batch : List α} (hacc : acc.length < size)
    (h : batch ∈ batches size acc l) : 0 < batch.length ∧ batch.length ≤ size := by
  induction l generalizing acc with
  | nil =>
      cases acc with
      | nil => cases h
      | cons a acc =>
          rw [batches, List.mem_singleton] at h
          · subst h
            exact ⟨Nat.succ_pos _, Nat.le_of_lt hacc⟩
          · exact List.cons_ne_nil a acc
  | cons x xs ih =>
      rw [batches] at h
      split at h
      · next hfull =>
        rcases List.mem_cons.mp h with rfl | hrest
        · rw [List.length_append, List.length_singleton, hfull]
          exact ⟨Nat.zero_lt_of_lt hacc, Nat.le_refl _⟩
        · have hnil : ([] : List α).length < size := Nat.zero_lt_of_lt hacc
          exact ih hnil hrest
      · next hroom =>
        refine ih ?_ h
        rw [List.length_append, List.length_singleton]
        omega

/-! ## The buffer -/

/-- A buffer of `size` slots and its counter, which is the index of the next slot. -/
structure Scratch (α : Type) (size : Nat) where
  slots : List α
  count : Nat
  length_slots : slots.length = size
  count_lt : count < size

namespace Scratch

/-- A buffer as `memset` leaves it. -/
def empty [Inhabited α] (h : 0 < size) : Scratch α size :=
  ⟨List.replicate size default, 0, List.length_replicate, h⟩

/-- The slots behind which the counter stands. -/
def used (s : Scratch α size) : List α := s.slots.take s.count

@[simp] theorem used_empty [Inhabited α] (h : 0 < size) : (empty h : Scratch α size).used = [] :=
  List.take_zero

@[simp] theorem length_used (s : Scratch α size) : s.used.length = s.count := by
  rw [used, List.length_take, s.length_slots, Nat.min_eq_left (Nat.le_of_lt s.count_lt)]

/-- The next slot is written and the counter goes up; when it comes to the end, it is given to
`f` with the slots, and starts again. -/
def put (f : Nat → List α → β) (x : α) (s : Scratch α size) : List β × Scratch α size :=
  let slots := s.slots.set s.count x
  have hslots : slots.length = size := List.length_set.trans s.length_slots
  if h : s.count + 1 = size then
    ([f (s.count + 1) slots], ⟨slots, 0, hslots, Nat.zero_lt_of_lt s.count_lt⟩)
  else ([], ⟨slots, s.count + 1, hslots, Nat.lt_of_le_of_ne s.count_lt h⟩)

/-- What is left behind the loop. -/
def rest (f : Nat → List α → β) (s : Scratch α size) : List β :=
  if 0 < s.count then [f s.count s.slots] else []

/-- What a batch is made into, if only the slots below the counter are read. -/
def Reads (f : Nat → List α → β) (g : List α → β) : Prop :=
  ∀ count slots, count ≤ slots.length → f count slots = g (slots.take count)

variable {f : Nat → List α → β} {g : List α → β} {s : Scratch α size} {x : α}

theorem take_set (s : Scratch α size) (x : α) :
    (s.slots.set s.count x).take (s.count + 1) = s.used ++ [x] := by
  have hlt : s.count < s.slots.length := s.length_slots.symm ▸ s.count_lt
  rw [List.take_add_one, List.take_set_of_le (Nat.le_refl _), List.getElem?_set_self hlt]
  rfl

theorem put_of_full (hf : Reads f g) (h : s.count + 1 = size) :
    (s.put f x).1 = [g (s.used ++ [x])] ∧ (s.put f x).2.used = [] := by
  unfold put
  rw [dif_pos h]
  refine ⟨?_, List.take_zero⟩
  rw [hf _ _ (by rw [List.length_set, s.length_slots]; exact s.count_lt), take_set]

theorem put_of_room (h : s.count + 1 ≠ size) :
    (s.put f x).1 = [] ∧ (s.put f x).2.used = s.used ++ [x] := by
  unfold put
  rw [dif_neg h]
  exact ⟨rfl, s.take_set x⟩

theorem rest_eq (hf : Reads f g) (s : Scratch α size) :
    s.rest f = (batches size s.used []).map g := by
  unfold rest
  by_cases h : 0 < s.count
  · obtain ⟨a, l, hl⟩ := List.exists_cons_of_length_pos (s.length_used.symm ▸ h)
    rw [if_pos h, hf _ _ (s.length_slots.symm ▸ Nat.le_of_lt s.count_lt), ← used, hl]
    rfl
  · have hnil : s.used = [] := List.length_eq_zero_iff.mp (by rw [length_used]; omega)
    rw [if_neg h, hnil]
    rfl

/-- One more element in front of what a loop hands over. -/
theorem put_batches (hf : Reads f g) (s : Scratch α size) (x : α) (xs : List α) :
    (s.put f x).1 ++ (batches size (s.put f x).2.used xs).map g =
      (batches size s.used (x :: xs)).map g := by
  rw [batches, length_used]
  by_cases h : s.count + 1 = size
  · obtain ⟨hout, hused⟩ := s.put_of_full (x := x) hf h
    rw [hout, hused, if_pos h]
    rfl
  · obtain ⟨hout, hused⟩ := s.put_of_room (f := f) (x := x) h
    rw [hout, hused, if_neg h]
    rfl

end Scratch

end Sequence
