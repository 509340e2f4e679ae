import Mathlib.Data.List.Induction
import Dsi.Lib.Sequence

/-!
# Dsi.Lib.Vector

Loops that erase elements of the `std::vector` they run over, over arbitrary
element types, and the search from the back.  What such a loop compares with may
be a reference into the vector itself, which reads another element after an
`erase` has moved the ones behind it.
-/

namespace Sequence

variable {α κ : Type}

/-! ## std::remove_if -/

/-- `std::remove_if(begin, end, p)` without the `erase` that usually follows. -/
def removeIfShift (p : α → Bool) (l : List α) : List α :=
  l.filter (fun x => !p x) ++ l.drop (l.filter (fun x => !p x)).length

theorem mem_of_mem_removeIfShift {p : α → Bool} {l : List α} {x : α}
    (h : x ∈ removeIfShift p l) : x ∈ l := by
  rw [removeIfShift, List.mem_append] at h
  cases h with
  | inl h => exact (List.mem_filter.mp h).1
  | inr h => exact List.mem_of_mem_drop h

theorem mem_removeIfShift_of_not {p : α → Bool} {l : List α} {x : α} (h : x ∈ l)
    (hx : p x = false) : x ∈ removeIfShift p l := by
  rw [removeIfShift, List.mem_append]
  exact Or.inl (List.mem_filter.mpr ⟨h, by simp [hx]⟩)

/-- The shift is not seen in the part `q` if it removes nothing of it, and repeats
nothing of it at the end. -/
theorem filter_removeIfShift {p q : α → Bool} {l : List α} (hp : ∀ x ∈ l, q x = true → p x = false)
    (htail : ∀ x ∈ l.drop (l.filter (fun x => !p x)).length, q x = false) :
    (removeIfShift p l).filter q = l.filter q := by
  have hnil : (l.drop (l.filter (fun x => !p x)).length).filter q = [] :=
    List.filter_eq_nil_iff.mpr (fun x hx => by simp [htail x hx])
  rw [removeIfShift, List.filter_append, hnil, List.append_nil]
  exact filter_filter_of_imp (fun x hx hq => by simp [hp x hx hq])

/-- The shift alone does what `erase` would do if there is nothing to remove, and only
then: it leaves the length as it is. -/
theorem removeIfShift_eq_filter_iff {p : α → Bool} {l : List α} :
    removeIfShift p l = l.filter (fun x => !p x) ↔ ∀ x ∈ l, p x = false := by
  rw [removeIfShift, List.append_right_eq_self, List.drop_eq_nil_iff]
  constructor
  · intro hlen x hx
    have hall := List.length_filter_eq_length_iff.mp
      (Nat.le_antisymm (List.length_filter_le _ _) hlen)
    simpa using hall x hx
  · intro h
    have hself : l.filter (fun x => !p x) = l :=
      List.filter_eq_self.mpr (fun x hx => by simp [h x hx])
    exact Nat.le_of_eq (congrArg List.length hself.symm)

/-! ## The last match -/

/-- The position of the last element that satisfies `p`, as a loop finds it that
runs from the back. -/
def lastIdx? (p : α → Bool) : List α → Option Nat
  | [] => none
  | x :: xs =>
      match lastIdx? p xs with
      | some i => some (i + 1)
      | none => if p x then some 0 else none

theorem lastIdx?_eq_none {p : α → Bool} {l : List α} :
    lastIdx? p l = none ↔ ∀ x ∈ l, p x = false := by
  induction l with
  | nil => simp [lastIdx?]
  | cons x xs ih =>
      rw [lastIdx?, List.forall_mem_cons, ← ih]
      cases lastIdx? p xs with
      | some i => simp
      | none => cases p x <;> simp

/-- The last match splits the list; nothing behind it matches. -/
theorem lastIdx?_eq_some {p : α → Bool} {l : List α} {i : Nat} (h : lastIdx? p l = some i) :
    ∃ front x back, l = front ++ x :: back ∧ front.length = i ∧ p x = true ∧
      ∀ y ∈ back, p y = false := by
  induction l generalizing i with
  | nil => simp [lastIdx?] at h
  | cons x xs ih =>
      rw [lastIdx?] at h
      cases hxs : lastIdx? p xs with
      | some j =>
          rw [hxs] at h
          obtain ⟨front, y, back, hl, hj, hy, hback⟩ := ih hxs
          refine ⟨x :: front, y, back, by rw [hl, List.cons_append], ?_, hy, hback⟩
          rw [List.length_cons, hj]
          exact Option.some.inj h
      | none =>
          rw [hxs] at h
          by_cases hx : p x = true
          · rw [if_pos hx] at h
            exact ⟨[], x, xs, rfl, Option.some.inj h, hx, lastIdx?_eq_none.mp hxs⟩
          · rw [if_neg hx] at h
            exact absurd h (by simp)

theorem lastIdx?_append_cons {p : α → Bool} {front back : List α} {x : α} (hx : p x = true)
    (hback : ∀ y ∈ back, p y = false) :
    lastIdx? p (front ++ x :: back) = some front.length := by
  induction front with
  | nil => rw [List.nil_append, lastIdx?, lastIdx?_eq_none.mpr hback, if_pos hx, List.length_nil]
  | cons y ys ih => rw [List.cons_append, lastIdx?, ih, List.length_cons]

/-- The last match is at its position. -/
theorem findRev?_eq {p : α → Bool} {l : List α} :
    l.findRev? p = (lastIdx? p l).bind (fun i => l[i]?) := by
  cases h : lastIdx? p l with
  | none =>
      rw [Option.bind_none, List.findRev?_eq_find?_reverse, List.find?_eq_none]
      intro x hx
      rw [lastIdx?_eq_none.mp h x (List.mem_reverse.mp hx)]
      exact Bool.false_ne_true
  | some i =>
      obtain ⟨front, x, back, rfl, rfl, hx, hback⟩ := lastIdx?_eq_some h
      have hnone : back.reverse.find? p = none := by
        rw [List.find?_eq_none]
        intro y hy
        rw [hback y (List.mem_reverse.mp hy)]
        exact Bool.false_ne_true
      rw [List.findRev?_eq_find?_reverse, List.reverse_append, List.reverse_cons,
        List.find?_append, List.find?_append, hnone, List.find?_cons_of_pos hx]
      simp

/-! ## Erasing while running down -/

/-- The loop

```
for(idx = n - 1; idx >= 0; idx--)
   if(test(ref, v[idx]))
      v.erase(v.begin() + idx);
```

where `reread` tells what the reference reads behind an `erase`. -/
def eraseDown (test : κ → α → Bool) (reread : κ → List α → κ) : Nat → κ → List α → List α
  | 0, _, l => l
  | idx + 1, k, l =>
      match l[idx]? with
      | none => l
      | some x =>
          if test k x then eraseDown test reread idx (reread k (l.eraseIdx idx)) (l.eraseIdx idx)
          else eraseDown test reread idx k l

/-- A reference that no `erase` can change. -/
def steady (k : κ) (_ : List α) : κ := k

/-- A reference to a part of the element at a position.  Behind the end the
memory of the last element that stood there is left. -/
def aliased (part : α → κ) (pos : Nat) (k : κ) (l : List α) : κ := (l[pos]?.map part).getD k

/-- Whatever the reference reads, the loop only removes. -/
theorem eraseDown_sublist (test : κ → α → Bool) (reread : κ → List α → κ) (idx : Nat) (k : κ)
    (l : List α) : (eraseDown test reread idx k l).Sublist l := by
  induction idx generalizing k l with
  | zero => exact List.Sublist.refl l
  | succ idx ih =>
      rw [eraseDown]
      split
      · exact List.Sublist.refl l
      · split
        · exact (ih _ _).trans (List.eraseIdx_sublist l idx)
        · exact ih _ _

theorem eraseDown_steady_append (test : κ → α → Bool) (k : κ) (front back : List α) :
    eraseDown test steady front.length k (front ++ back) =
      front.filter (fun x => !test k x) ++ back := by
  induction front using List.reverseRecOn generalizing back with
  | nil => rfl
  | append_singleton front x ih =>
      rw [List.length_append, List.length_singleton, eraseDown, List.append_assoc,
        List.getElem?_append_right (Nat.le_refl _), Nat.sub_self]
      simp only [List.singleton_append, List.getElem?_cons_zero]
      by_cases hx : test k x = true
      · rw [if_pos hx, List.eraseIdx_append_of_length_le (Nat.le_refl _), Nat.sub_self]
        simp only [steady, List.eraseIdx_cons_zero]
        rw [ih back, List.filter_append, List.filter_cons_of_neg (by simp [hx]), List.filter_nil,
          List.append_nil]
      · rw [if_neg hx, ih (x :: back), List.filter_append,
          List.filter_cons_of_pos (by simp [hx]), List.filter_nil, List.append_assoc,
          List.singleton_append]

/-- With a steady reference the loop removes exactly what it tests for. -/
theorem eraseDown_steady (test : κ → α → Bool) (k : κ) (l : List α) :
    eraseDown test steady l.length k l = l.filter (fun x => !test k x) := by
  have h := eraseDown_steady_append test k l []
  simpa only [List.append_nil] using h

end Sequence
