import Mathlib.Data.List.Basic
import Mathlib.Data.List.Nodup
import Mathlib.Logic.Function.Basic

/-!
# Dsi.Lib.LinkedList

Singly linked lists in a heap, over an arbitrary type of addresses: the chain of
links that leads from one address to another, and what an update of one link
does to it.  `next` is partial, since the address of a freed node has no link.
-/

/-- The links lead from `p` through the nodes `l` to `q`. -/
def Linked {α : Type} (next : α → Option α) (p : α) : List α → α → Prop
  | [], q => p = q
  | x :: xs, q => p = x ∧ ∃ n, next x = some n ∧ Linked next n xs q

namespace Linked

variable {α : Type} {next next' : α → Option α} {p q x n : α} {l l' : List α}

@[simp] theorem nil : Linked next p [] q ↔ p = q := Iff.rfl

theorem cons :
    Linked next p (x :: l) q ↔ p = x ∧ ∃ n, next x = some n ∧ Linked next n l q := Iff.rfl

theorem append :
    Linked next p (l ++ l') q ↔ ∃ m, Linked next p l m ∧ Linked next m l' q := by
  induction l generalizing p with
  | nil => simp
  | cons x l ih =>
      rw [List.cons_append, cons]
      constructor
      · rintro ⟨hp, n, hn, hl⟩
        obtain ⟨m, hm, hl'⟩ := ih.mp hl
        exact ⟨m, ⟨hp, n, hn, hm⟩, hl'⟩
      · rintro ⟨m, ⟨hp, n, hn, hm⟩, hl'⟩
        exact ⟨hp, n, hn, ih.mpr ⟨m, hm, hl'⟩⟩

theorem concat : Linked next p (l ++ [x]) q ↔ Linked next p l x ∧ next x = some q := by
  rw [append]
  constructor
  · rintro ⟨m, hm, rfl, n, hn, rfl⟩
    exact ⟨hm, hn⟩
  · rintro ⟨hl, hx⟩
    exact ⟨x, hl, rfl, q, hx, rfl⟩

/-- Every node of a chain has a link. -/
theorem isSome (h : Linked next p l q) (hmem : x ∈ l) : (next x).isSome := by
  induction l generalizing p with
  | nil => exact absurd hmem List.not_mem_nil
  | cons y l ih =>
      obtain ⟨-, n, hn, hl⟩ := h
      rcases List.mem_cons.mp hmem with rfl | hmem
      · rw [hn]
        rfl
      · exact ih hl hmem

/-- A chain depends on the links of its own nodes only. -/
theorem congr (h : Linked next p l q) (hnext : ∀ x ∈ l, next' x = next x) :
    Linked next' p l q := by
  induction l generalizing p with
  | nil => exact h
  | cons y l ih =>
      obtain ⟨hp, n, hn, hl⟩ := h
      refine ⟨hp, n, (hnext y (List.mem_cons_self ..)).trans hn, ih hl fun x hx => ?_⟩
      exact hnext x (List.mem_cons_of_mem _ hx)

/-- The first node of a chain that does not end at once is where it starts. -/
theorem head (h : Linked next p (x :: l) q) : p = x := h.1

/-- The chain behind a node starts at the node's link. -/
theorem behind {d : α} (h : Linked next p (l ++ d :: l') q) :
    ∃ n, next d = some n ∧ Linked next n l' q := by
  obtain ⟨m, -, -, hrest⟩ := append.mp h
  exact hrest

variable [DecidableEq α]

/-- The link of a node outside the chain may be written. -/
theorem update (h : Linked next p l q) (hx : x ∉ l) (n : Option α) :
    Linked (Function.update next x n) p l q := by
  refine h.congr fun y hy => Function.update_of_ne ?_ _ _
  rintro rfl
  exact hx hy

/-- Writing the link of a node of the chain leads the way before it elsewhere. -/
theorem redirect {d : α} (h : Linked next p (l ++ d :: l') q) (hd : d ∉ l) (n : α) :
    Linked (Function.update next d (some n)) p (l ++ [d]) n := by
  obtain ⟨m, hm, rfl, -⟩ := append.mp h
  exact concat.mpr ⟨hm.update hd _, Function.update_self ..⟩

/-- Pushing at the back: the last node is linked to a new one. -/
theorem push_back (h : Linked next p (l ++ [x]) q) (hnodup : (l ++ [x]).Nodup) (n : α) :
    Linked (Function.update next x (some n)) p (l ++ [x]) n := by
  have hx : x ∉ l := fun hmem =>
    List.disjoint_of_nodup_append hnodup hmem (List.mem_cons_self ..)
  exact h.redirect hx n

/-- A new node `x` is hooked in behind the node `d`. -/
theorem hook {d : α} (h : Linked next p (l ++ d :: l') q) (hnodup : (l ++ d :: l').Nodup)
    (hx : x ∉ l ++ d :: l') :
    Linked (Function.update (Function.update next x (next d)) d (some x)) p
      (l ++ d :: x :: l') q := by
  obtain ⟨n, hn, hrest⟩ := h.behind
  have hd : d ∉ l := fun hmem =>
    List.disjoint_of_nodup_append hnodup hmem (List.mem_cons_self ..)
  have hd' : d ∉ l' := (List.nodup_cons.mp (List.nodup_append.mp hnodup).2.1).1
  have hxd : x ≠ d := fun hxd => hx (hxd ▸ List.mem_append_right _ (List.mem_cons_self ..))
  have hx' : x ∉ l' := fun hmem => hx (List.mem_append_right _ (List.mem_cons_of_mem _ hmem))
  have hto : Linked (Function.update (Function.update next x (next d)) d (some x)) p
      (l ++ [d]) x := (h.update hx (next d)).redirect hd x
  have hfrom : Linked (Function.update (Function.update next x (next d)) d (some x)) x
      (x :: l') q := by
    refine ⟨rfl, n, ?_, (hrest.update hx' _).update hd' _⟩
    rw [Function.update_of_ne hxd, Function.update_self, hn]
  have hwhole := append.mpr ⟨x, hto, hfrom⟩
  rwa [List.append_assoc, List.singleton_append] at hwhole

/-- The node `x` behind the node `d` is unhooked. -/
theorem unhook {d : α} (h : Linked next p (l ++ d :: x :: l') q)
    (hnodup : (l ++ d :: x :: l').Nodup) (o : Option α) :
    Linked (Function.update (Function.update next d (next x)) x o) p (l ++ d :: l') q := by
  obtain ⟨n, -, rfl, m, hm, hrest⟩ := h.behind
  have hbehind := (List.nodup_append.mp hnodup).2.1
  have hd : d ∉ l := fun hmem =>
    List.disjoint_of_nodup_append hnodup hmem (List.mem_cons_self ..)
  have hx : n ∉ l ++ [d] := by
    rw [List.append_cons] at hnodup
    exact fun hmem => List.disjoint_of_nodup_append hnodup hmem (List.mem_cons_self ..)
  have hd' : d ∉ l' := fun hmem =>
    (List.nodup_cons.mp hbehind).1 (List.mem_cons_of_mem _ hmem)
  have hx' : n ∉ l' := (List.nodup_cons.mp (List.nodup_cons.mp hbehind).2).1
  have hto : Linked (Function.update (Function.update next d (next n)) n o) p (l ++ [d]) m := by
    rw [hm]
    exact (h.redirect hd m).update hx o
  have hwhole := append.mpr ⟨m, hto, (hrest.update hd' _).update hx' _⟩
  rwa [List.append_assoc, List.singleton_append] at hwhole

end Linked
