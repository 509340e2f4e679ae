import Dsi.Common.Slist
import Dsi.Lib.Sequence

/-!
# Dsi.Common.SlistRuns

Sequences of operations on an `Slist`, and the same operations on the sequence of elements that
it stands for.

* `slist_refines`: the list represents the sequence behind all of them, and returns what is
  found there.
-/

namespace Dsi

open Slist Sequence

/-- The operations, with the iterators and the elements that they are given. -/
inductive SlistOp (α : Type) where
  | pushFront (a : α)
  | popFront
  | insert (w : SlistNode α) (a : α)
  | insertAfter (w : SlistNode α) (a : α)
  | erase (w : SlistNode α)
  | removeIf (pred : α → Bool)
  | reverse
  | clear
  | size

/-- What they return. -/
inductive SlistResult (α : Type) where
  | void
  | iterator (n : SlistNode α)
  | length (n : Nat)
  deriving DecidableEq, Repr

namespace SlistOp

variable {α : Type} [DecidableEq α]

/-- An operation on the list. -/
def apply (fuel : Nat) (h : SlistHooks α) :
    SlistOp α → Except SlistFault (SlistResult α × SlistHooks α)
  | .pushFront a => (Slist.pushFront a h).map (.void, ·)
  | .popFront => (Slist.popFront h).map (.void, ·)
  | .insert w a => (Slist.insert fuel w a h).map fun r => (.iterator r.1, r.2)
  | .insertAfter w a => (Slist.insertAfter w a h).map fun r => (.iterator r.1, r.2)
  | .erase w => (Slist.erase fuel w h).map fun r => (.iterator r.1, r.2)
  | .removeIf pred => (Slist.removeIf pred fuel h).map (.void, ·)
  | .reverse => (Slist.reverse fuel h).map (.void, ·)
  | .clear => .ok (.void, Slist.clear h)
  | .size => (Slist.size fuel h).map (.length ·, h)

/-- The place of an iterator in the sequence.  `end()` is behind the last element. -/
def position (l : List α) : SlistNode α → Nat
  | .mFirst => l.length
  | .element a => l.idxOf a

/-- The operation on the sequence. -/
def onSequence (l : List α) : SlistOp α → SlistResult α × List α
  | .pushFront a => (.void, a :: l)
  | .popFront => (.void, l.tail)
  | .insert w a => (.iterator (.element a), l.insertIdx (position l w) a)
  | .insertAfter w a => (.iterator (.element a), l.insertIdx (position l w + 1) a)
  | .erase w => (.iterator (headNode (l.drop (position l w + 1))), l.eraseIdx (position l w))
  | .removeIf pred => (.void, l.filter (!pred ·))
  | .reverse => (.void, l.reverse)
  | .clear => (.void, [])
  | .size => (.length l.length, l)

/-- May the element be put into the list?  It is in memory and not in the list. -/
def isFree (memory : SlistHooks α) (l : List α) (a : α) : Bool :=
  (memory (.element a)).isSome && a ∉ l

/-- The preconditions: elements that are free, and positions in the list. -/
def valid (memory : SlistHooks α) (l : List α) : SlistOp α → Bool
  | .pushFront a => isFree memory l a
  | .popFront => l ≠ []
  | .insert w a => isFree memory l a && (w = .mFirst || w ∈ l.map .element)
  | .insertAfter w a => isFree memory l a && w ∈ l.map .element
  | .erase w => w ∈ l.map .element
  | _ => true

/-- One operation of a run: the list, and what was returned up to here. -/
def step (fuel : Nat) (s : SlistHooks α × List (SlistResult α)) (op : SlistOp α) :
    Except SlistFault (SlistHooks α × List (SlistResult α)) :=
  (op.apply fuel s.1).map fun r => (r.2, s.2 ++ [r.1])

/-- The same on the sequence. -/
def stepSequence (t : List α × List (SlistResult α)) (op : SlistOp α) :
    List α × List (SlistResult α) :=
  ((op.onSequence t.1).2, t.2 ++ [(op.onSequence t.1).1])

/-! ## Positions -/

theorem position_element {l l' : List α} {a : α} (ha : a ∉ l) :
    position (l ++ a :: l') (.element a) = l.length := by
  rw [position, List.idxOf_append_of_notMem ha, List.idxOf_cons_self, Nat.add_zero]

/-- An iterator into the list has a part of it before it and shows the head of the other. -/
theorem split_of_mem {l : List α} {w : SlistNode α} (hw : w ∈ l.map .element) :
    ∃ front a back, l = front ++ a :: back ∧ w = .element a ∧ position l w = front.length := by
  obtain ⟨a, ha, rfl⟩ := List.mem_map.mp hw
  obtain ⟨front, back, rfl, hnot⟩ := List.eq_append_cons_of_mem ha
  exact ⟨front, a, back, rfl, rfl, position_element hnot⟩

theorem split_of_position {l : List α} {w : SlistNode α}
    (hw : w = .mFirst ∨ w ∈ l.map .element) :
    ∃ front back, l = front ++ back ∧ w = headNode back ∧ position l w = front.length := by
  cases hw with
  | inl hend => exact ⟨l, [], (List.append_nil l).symm, hend, by rw [hend, position]⟩
  | inr hmem =>
      obtain ⟨front, a, back, hl, hw, hposition⟩ := split_of_mem hmem
      exact ⟨front, a :: back, hl, hw, hposition⟩

/-! ## One operation -/

/-- What an operation keeps: the list represents the sequence, and what was in memory is. -/
structure Keeps (memory h : SlistHooks α) (l : List α) : Prop where
  represents : Represents h l
  alive : ∀ a, (memory (.element a)).isSome → (h (.element a)).isSome

namespace Keeps

variable {memory h h' : SlistHooks α} {l l' : List α} {a : α}

/-- Only elements outside the list have to be looked after. -/
theorem of_represents (hk : Keeps memory h l) (hr : Represents h' l')
    (hout : ∀ a, a ∉ l' → (h (.element a)).isSome → (h' (.element a)).isSome) :
    Keeps memory h' l' where
  represents := hr
  alive a ha := by
    by_cases hmem : a ∈ l'
    · exact isSome_of_isHooked (hr.isHooked hmem)
    · exact hout a hmem (hk.alive a ha)

theorem free (hk : Keeps memory h l) (ha : isFree memory l a = true) :
    a ∉ l ∧ (h (.element a)).isSome := by
  obtain ⟨hlive, hnot⟩ := Bool.and_eq_true_iff.mp ha
  exact ⟨of_decide_eq_true hnot, hk.alive a hlive⟩

/-- An operation whose preconditions hold does to the list what it does to the sequence. -/
theorem apply {op : SlistOp α} {fuel : Nat} (hk : Keeps memory h l)
    (hvalid : op.valid memory l = true) (hfuel : l.length < fuel) :
    ∃ h', op.apply fuel h = .ok ((op.onSequence l).1, h') ∧
      Keeps memory h' (op.onSequence l).2 := by
  have hr := hk.represents
  cases op with
  | pushFront a =>
      obtain ⟨ha, hlive⟩ := hk.free hvalid
      obtain ⟨h', hpush, hr', hother⟩ := hr.pushFront_eq ha hlive
      refine ⟨h', by rw [SlistOp.apply, hpush]; rfl, hk.of_represents hr' fun b hb hsome => ?_⟩
      rwa [hother b fun hba => hb (hba ▸ List.mem_cons_self ..)]
  | popFront =>
      cases l with
      | nil => exact absurd hvalid (by simp [valid])
      | cons a l =>
          obtain ⟨h', hpop, hr', hself, hother⟩ := hr.popFront_eq
          refine ⟨h', by rw [SlistOp.apply, hpop]; rfl,
            hk.of_represents hr' fun b hb hsome => ?_⟩
          by_cases hba : b = a
          · rw [hba, hself]; rfl
          · rwa [hother b hba]
  | insert w a =>
      obtain ⟨hfree, hw⟩ := Bool.and_eq_true_iff.mp hvalid
      obtain ⟨ha, hlive⟩ := hk.free hfree
      obtain ⟨front, back, rfl, rfl, hposition⟩ :=
        split_of_position ((Bool.or_eq_true_iff.mp hw).imp of_decide_eq_true of_decide_eq_true)
      have hle : front.length ≤ fuel := by
        rw [List.length_append] at hfuel
        omega
      obtain ⟨h', hinsert, hr', hother⟩ := hr.insert_eq ha hlive hle
      refine ⟨h', by rw [SlistOp.apply, hinsert]; rfl, ?_⟩
      rw [onSequence, hposition, insertIdx_append]
      exact hk.of_represents hr' fun b hb hsome => by rwa [hother b hb]
  | insertAfter w a =>
      obtain ⟨hfree, hw⟩ := Bool.and_eq_true_iff.mp hvalid
      obtain ⟨ha, hlive⟩ := hk.free hfree
      obtain ⟨front, b, back, rfl, rfl, hposition⟩ := split_of_mem (of_decide_eq_true hw)
      obtain ⟨h', hinsert, hr', hother⟩ := hr.insertAfter_eq ha hlive
      refine ⟨h', by rw [SlistOp.apply, hinsert]; rfl, ?_⟩
      have hplace := insertIdx_append (front ++ [b]) back a
      rw [List.length_append, List.length_singleton, ← List.append_cons, List.append_assoc,
        List.singleton_append] at hplace
      rw [onSequence, hposition, hplace]
      exact hk.of_represents hr' fun x hx hsome => by rwa [hother x hx]
  | erase w =>
      obtain ⟨front, a, back, rfl, rfl, hposition⟩ := split_of_mem (of_decide_eq_true hvalid)
      have hle : front.length ≤ fuel := by
        rw [List.length_append] at hfuel
        omega
      obtain ⟨h', herase, hr', hself, hother⟩ := hr.erase_eq hle
      have hbehind : (front ++ a :: back).drop (front.length + 1) = back := by
        rw [List.append_cons]
        exact List.drop_left' (by simp)
      have hrest : (front ++ a :: back).eraseIdx front.length = front ++ back := by
        rw [List.eraseIdx_append_of_length_le (Nat.le_refl _), Nat.sub_self]
        rfl
      rw [onSequence, hposition, hbehind, hrest]
      refine ⟨h', by rw [SlistOp.apply, herase]; rfl, hk.of_represents hr' fun b hb hsome => ?_⟩
      by_cases hba : b = a
      · rw [hba, hself]; rfl
      · have hnot : b ∉ front ++ a :: back := by
          rw [List.perm_middle.mem_iff, List.mem_cons, not_or]
          exact ⟨hba, hb⟩
        rwa [hother b hnot]
  | removeIf pred =>
      obtain ⟨h', hremove, hr', hremoved, hkept⟩ := hr.removeIf_eq pred hfuel
      refine ⟨h', by rw [SlistOp.apply, hremove]; rfl,
        hk.of_represents hr' fun b hb hsome => ?_⟩
      by_cases hmem : b ∈ l
      · have hpred : pred b = true := by
          by_contra hnot
          exact hb (List.mem_filter.mpr ⟨hmem, by simp [hnot]⟩)
        rw [hremoved b hmem hpred]
        rfl
      · rwa [hkept b hmem]
  | reverse =>
      obtain ⟨h', hreverse, hr', hkept⟩ := hr.reverse_eq hfuel
      refine ⟨h', by rw [SlistOp.apply, hreverse]; rfl,
        hk.of_represents hr' fun b hb hsome => ?_⟩
      rwa [hkept b fun hmem => hb (List.mem_reverse.mpr hmem)]
  | clear =>
      refine ⟨Slist.clear h, rfl, hk.of_represents (.clear_eq h) fun b _ hsome => ?_⟩
      rwa [Slist.clear, Function.update_of_ne (by simp)]
  | size =>
      exact ⟨h, by rw [SlistOp.apply, hr.size_eq hfuel]; rfl, hk⟩

end Keeps

/-! ## Runs -/

/-- An operation adds one element at most. -/
theorem length_onSequence (op : SlistOp α) (l : List α) :
    (op.onSequence l).2.length ≤ l.length + 1 := by
  cases op with
  | pushFront a => exact Nat.le_refl _
  | popFront => rw [onSequence, List.length_tail]; omega
  | insert w a => exact List.length_insertIdx_le_succ
  | insertAfter w a => exact List.length_insertIdx_le_succ
  | erase w => exact Nat.le_succ_of_le (List.eraseIdx_sublist _ _).length_le
  | removeIf pred => exact Nat.le_succ_of_le (List.length_filter_le _ _)
  | reverse => rw [onSequence, List.length_reverse]; omega
  | clear => exact Nat.zero_le _
  | size => exact Nat.le_succ _

/-- So a list is never longer than the run up to it. -/
theorem along_length {P : List α × List (SlistResult α) → SlistOp α → Prop}
    {t : List α × List (SlistResult α)} {ops : List (SlistOp α)} {fuel : Nat}
    (ha : Run.Along stepSequence P t ops) (hfuel : t.1.length + ops.length ≤ fuel) :
    Run.Along stepSequence (fun t op => P t op ∧ t.1.length < fuel) t ops := by
  induction ops generalizing t with
  | nil => trivial
  | cons op ops ih =>
      have hstep := length_onSequence op t.1
      rw [List.length_cons] at hfuel
      refine ⟨⟨ha.1, by omega⟩, ih ha.2 ?_⟩
      show (op.onSequence t.1).2.length + ops.length ≤ fuel
      omega

/-- The list and the sequence, with what the operations on them returned. -/
def Related (memory : SlistHooks α) (s : SlistHooks α × List (SlistResult α))
    (t : List α × List (SlistResult α)) : Prop := Keeps memory s.1 t.1 ∧ s.2 = t.2

theorem simulates_step (memory : SlistHooks α) (fuel : Nat)
    (s : SlistHooks α × List (SlistResult α)) (t : List α × List (SlistResult α))
    (op : SlistOp α) (h : Related memory s t)
    (hop : op.valid memory t.1 = true ∧ t.1.length < fuel) :
    ∃ s', step fuel s op = .ok s' ∧ Related memory s' (stepSequence t op) := by
  obtain ⟨hooks, results⟩ := s
  obtain ⟨hk, rfl⟩ := h
  obtain ⟨hooks', happly, hk'⟩ := hk.apply hop.1 hop.2
  exact ⟨(hooks', t.2 ++ [(op.onSequence t.1).1]), by rw [step, happly]; rfl, hk', rfl⟩

/-- Behind every sequence of operations whose preconditions hold, on a list that was empty, the
circle represents the sequence, and the operations returned what they return on the sequence. -/
theorem slist_refines (memory : SlistHooks α) (ops : List (SlistOp α))
    (hvalid : Run.Along stepSequence (fun t op => op.valid memory t.1 = true) ([], []) ops)
    {fuel : Nat} (hfuel : ops.length ≤ fuel) :
    ∃ h, Partial.run (step fuel) (Slist.clear memory, []) ops =
        .ok (h, (Run.run stepSequence ([], []) ops).2) ∧
      Represents h (Run.run stepSequence ([], []) ops).1 := by
  have hkeeps : Keeps memory (Slist.clear memory) [] :=
    ⟨.clear_eq memory, fun a ha => by rwa [Slist.clear, Function.update_of_ne (by simp)]⟩
  have hstart : Related memory (Slist.clear memory, []) ([], []) := ⟨hkeeps, rfl⟩
  have hbound := along_length hvalid (by simpa using hfuel)
  obtain ⟨⟨h, results⟩, hrun, hk, rfl⟩ :=
    Partial.simulates (simulates_step memory fuel) hstart hbound
  exact ⟨h, hrun, hk.represents⟩

/-- Every operation once or twice, on a list of numbers all of which are in memory. -/
theorem slist_refines_all_operations :
    let ops : List (SlistOp Nat) :=
      [.pushFront 1, .pushFront 2, .insert .mFirst 3, .insertAfter (.element 2) 4,
        .insert (.element 3) 5, .erase (.element 4), .size, .reverse, .removeIf (· = 5),
        .erase (.element 2), .popFront, .clear, .pushFront 1, .insertAfter (.element 1) 3]
    let memory : SlistHooks Nat := fun _ => some none
    Run.run stepSequence ([], []) ops =
        ([1, 3], [.void, .void, .iterator (.element 3), .iterator (.element 4),
          .iterator (.element 5), .iterator (.element 1), .length 4, .void, .void,
          .iterator .mFirst, .void, .void, .void, .iterator (.element 3)]) ∧
      ∃ h, Partial.run (step 14) (Slist.clear memory, []) ops =
          .ok (h, (Run.run stepSequence ([], []) ops).2) ∧
        Represents h (Run.run stepSequence ([], []) ops).1 :=
  ⟨by decide, slist_refines _ _ (by decide) (by decide)⟩

end SlistOp

end Dsi
