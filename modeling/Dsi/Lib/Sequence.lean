/-!
# Dsi.Lib.Sequence

The containers and algorithms of the C++ library a stateful program leans on,
over arbitrary element types: the shifting `std::remove`, updates through a
pointer to the first match, insertion at `std::lower_bound` and `std::set`.
-/

namespace Sequence

variable {α : Type}

/-! ## std::remove -/

/-- `std::remove(begin, end, v)` without the `erase` that usually follows: the
elements other than `v` move to the front, the positions behind them keep what
they held. -/
def removeShift [DecidableEq α] (v : α) (l : List α) : List α :=
  l.filter (· ≠ v) ++ l.drop (l.filter (· ≠ v)).length

theorem length_removeShift [DecidableEq α] (v : α) (l : List α) :
    (removeShift v l).length = l.length := by
  have hle := List.length_filter_le (fun x => decide (x ≠ v)) l
  rw [removeShift, List.length_append, List.length_drop]
  omega

theorem mem_of_mem_removeShift [DecidableEq α] {v x : α} {l : List α}
    (h : x ∈ removeShift v l) : x ∈ l := by
  rw [removeShift, List.mem_append] at h
  cases h with
  | inl h => exact (List.mem_filter.mp h).1
  | inr h => exact List.mem_of_mem_drop h

theorem mem_removeShift_of_ne [DecidableEq α] {v x : α} {l : List α}
    (h : x ∈ l) (hne : x ≠ v) : x ∈ removeShift v l := by
  rw [removeShift, List.mem_append]
  exact Or.inl (List.mem_filter.mpr ⟨h, by simpa using hne⟩)

theorem removeShift_of_not_mem [DecidableEq α] {v : α} {l : List α} (h : v ∉ l) :
    removeShift v l = l := by
  have hfilter : l.filter (· ≠ v) = l :=
    List.filter_eq_self.mpr (fun x hx => decide_eq_true (fun heq => h (heq ▸ hx)))
  rw [removeShift, hfilter, List.drop_length, List.append_nil]

/-! ## Writing through a pointer to the first match -/

/-- Applies `f` to the first element that satisfies `p`. -/
def modifyFirst (p : α → Bool) (f : α → α) : List α → List α
  | [] => []
  | x :: xs => if p x then f x :: xs else x :: modifyFirst p f xs

/-- `modifyFirst` keeps every attribute that `f` keeps. -/
theorem map_modifyFirst {β : Type} {p : α → Bool} {f : α → α} {g : α → β}
    (h : ∀ x, g (f x) = g x) (l : List α) : (modifyFirst p f l).map g = l.map g := by
  induction l with
  | nil => rfl
  | cons x xs ih =>
      rw [modifyFirst]
      split
      · rw [List.map_cons, List.map_cons, h]
      · rw [List.map_cons, List.map_cons, ih]

theorem mem_modifyFirst {p : α → Bool} {f : α → α} {l : List α} {y : α}
    (h : y ∈ modifyFirst p f l) : y ∈ l ∨ ∃ x ∈ l, p x = true ∧ y = f x := by
  induction l with
  | nil => exact absurd h List.not_mem_nil
  | cons x xs ih =>
      rw [modifyFirst] at h
      split at h
      · next hp =>
        cases h with
        | head => exact Or.inr ⟨x, List.mem_cons_self, hp, rfl⟩
        | tail _ h => exact Or.inl (List.mem_cons_of_mem _ h)
      · cases h with
        | head => exact Or.inl List.mem_cons_self
        | tail _ h =>
            cases ih h with
            | inl h => exact Or.inl (List.mem_cons_of_mem _ h)
            | inr h =>
                obtain ⟨z, hz, hp, rfl⟩ := h
                exact Or.inr ⟨z, List.mem_cons_of_mem _ hz, hp, rfl⟩

/-- The first match is the only element that `modifyFirst` writes. -/
theorem modifyFirst_of_find? {p : α → Bool} {l : List α} {x : α} (h : l.find? p = some x) :
    ∃ front back, l = front ++ x :: back ∧
      ∀ f, modifyFirst p f l = front ++ f x :: back := by
  induction l with
  | nil => simp at h
  | cons y ys ih =>
      cases hy : p y with
      | true =>
          have hyx : y = x := by simpa [hy] using h
          subst hyx
          exact ⟨[], ys, rfl, fun f => by rw [modifyFirst, if_pos hy, List.nil_append]⟩
      | false =>
          obtain ⟨front, back, hl, hf⟩ := ih (by simpa [hy] using h)
          exact ⟨y :: front, back, by rw [hl, List.cons_append],
            fun f => by simp [modifyFirst, hy, hf]⟩

/-- A match that is written into something else is one match less. -/
theorem filter_modifyFirst {p : α → Bool} {f : α → α} {l : List α} {x : α}
    (h : l.find? p = some x) (hf : p (f x) = false) :
    l.filter p = x :: (modifyFirst p f l).filter p := by
  induction l with
  | nil => simp at h
  | cons y ys ih =>
      cases hy : p y with
      | true =>
          have hyx : y = x := by simpa [hy] using h
          subst hyx
          rw [modifyFirst, if_pos hy, List.filter_cons_of_pos hy,
            List.filter_cons_of_neg (Bool.eq_false_iff.mp hf)]
      | false =>
          have hne := Bool.eq_false_iff.mp hy
          rw [modifyFirst, if_neg hne, List.filter_cons_of_neg hne, List.filter_cons_of_neg hne]
          exact ih (by simpa [hy] using h)

/-- What no match is and none is written into is as it was. -/
theorem filter_modifyFirst_of_disjoint {p q : α → Bool} {f : α → α} {l : List α}
    (h : ∀ x, p x = true → q x = false ∧ q (f x) = false) :
    (modifyFirst p f l).filter q = l.filter q := by
  induction l with
  | nil => rfl
  | cons y ys ih =>
      rw [modifyFirst]
      split
      · next hy =>
        obtain ⟨hq, hqf⟩ := h y hy
        rw [List.filter_cons_of_neg (Bool.eq_false_iff.mp hq),
          List.filter_cons_of_neg (Bool.eq_false_iff.mp hqf)]
      · rw [List.filter_cons, List.filter_cons, ih]

/-! ## Inserting behind a part of a list -/

theorem insertIdx_append (l l' : List α) (a : α) :
    (l ++ l').insertIdx l.length a = l ++ a :: l' := by
  induction l with
  | nil => rfl
  | cons b l ih => rw [List.cons_append, List.length_cons, List.insertIdx_succ_cons, ih]; rfl

/-! ## Elements with distinct keys -/

section Keys

variable {κ γ : Type} [DecidableEq κ] {key : γ → κ}

theorem modify_eq_map {l : List γ} (hl : (l.map key).Nodup) {i : Nat} {c : γ}
    (h : l[i]? = some c) (f : γ → γ) :
    l.modify i f = l.map (fun x => if key x = key c then f x else x) := by
  induction l generalizing i with
  | nil => simp at h
  | cons x xs ih =>
      have hxs := List.nodup_cons.mp hl
      cases i with
      | zero =>
          have hx : x = c := by simpa using h
          subst hx
          have htail : xs.map (fun y => if key y = key x then f y else y) = xs := by
            rw [List.map_congr_left (g := id), List.map_id]
            intro y hy
            have hne : key y ≠ key x := fun he => hxs.1 (he ▸ List.mem_map_of_mem hy)
            rw [if_neg hne, id]
          simp [htail]
      | succ i =>
          have hc : xs[i]? = some c := by simpa using h
          have hne : key x ≠ key c :=
            fun he => hxs.1 (he ▸ List.mem_map_of_mem (List.mem_of_getElem? hc))
          rw [List.modify_succ_cons, List.map_cons, if_neg hne, ih hxs.2 hc]

theorem eraseP_eq_filter {l : List γ} (hl : (l.map key).Nodup) (k : κ) :
    l.eraseP (fun x => key x = k) = l.filter (fun x => key x ≠ k) := by
  induction l with
  | nil => rfl
  | cons x xs ih =>
      have hxs := List.nodup_cons.mp hl
      by_cases hx : key x = k
      · have htail : xs.filter (fun y => key y ≠ k) = xs := by
          rw [List.filter_eq_self]
          intro y hy
          have hne : key y ≠ k := fun he => hxs.1 (hx ▸ he ▸ List.mem_map_of_mem hy)
          simpa using hne
        rw [List.filter_cons_of_neg (by simpa using hx), htail]
        simp [hx]
      · rw [List.filter_cons_of_pos (by simpa using hx), ← ih hxs.2]
        simp [hx]

end Keys

/-! ## std::lower_bound -/

/-- Inserts `x` at `std::lower_bound`: behind the elements that `before` puts in
front of it. -/
def insertLower (before : α → Bool) (x : α) (l : List α) : List α :=
  l.takeWhile before ++ x :: l.dropWhile before

theorem mem_insertLower {before : α → Bool} {x y : α} {l : List α} :
    y ∈ insertLower before x l ↔ y = x ∨ y ∈ l := by
  have h : y ∈ l ↔ y ∈ l.takeWhile before ∨ y ∈ l.dropWhile before := by
    rw [← List.mem_append, List.takeWhile_append_dropWhile]
  rw [insertLower, List.mem_append, List.mem_cons, h]
  constructor
  · rintro (h | h | h)
    · exact Or.inr (Or.inl h)
    · exact Or.inl h
    · exact Or.inr (Or.inr h)
  · rintro (h | h | h)
    · exact Or.inr (Or.inl h)
    · exact Or.inl h
    · exact Or.inr (Or.inr h)

/-- In a list ordered by the transitive `r`, whose elements are those `before`
holds of followed by the others, the insertion keeps the order. -/
theorem pairwise_insertLower {r : α → α → Prop} {before : α → Bool} {x : α} {l : List α}
    (hl : l.Pairwise r) (hbefore : ∀ y, before y = true → r y x)
    (hafter : ∀ y z, before y = false → (y = z ∨ r y z) → r x z) :
    (insertLower before x l).Pairwise r := by
  induction l with
  | nil => simp [insertLower]
  | cons y ys ih =>
      have hys := List.pairwise_cons.mp hl
      cases hy : before y with
      | true =>
          have htail := ih hys.2
          simp only [insertLower, List.takeWhile_cons, List.dropWhile_cons, hy, if_true,
            List.cons_append]
          refine List.pairwise_cons.mpr ⟨?_, htail⟩
          intro z hz
          cases mem_insertLower.mp hz with
          | inl h => exact h ▸ hbefore y hy
          | inr h => exact hys.1 z h
      | false =>
          simp only [insertLower, List.takeWhile_cons, List.dropWhile_cons, hy,
            Bool.false_eq_true, if_false, List.nil_append]
          refine List.pairwise_cons.mpr ⟨?_, hl⟩
          intro z hz
          cases hz with
          | head => exact hafter y y hy (Or.inl rfl)
          | tail _ hz => exact hafter y z hy (Or.inr (hys.1 z hz))

/-- A search does not see the insertion of an element it is not for. -/
theorem find?_insertLower {before p : α → Bool} {x : α} {l : List α} (hx : p x = false) :
    (insertLower before x l).find? p = l.find? p := by
  rw [insertLower, List.find?_append, List.find?_cons_of_neg (by simp [hx]),
    ← List.find?_append, List.takeWhile_append_dropWhile]

/-- A search does not see that an element is erased that it is not for. -/
theorem find?_eraseP {p q : α → Bool} {l : List α} (h : ∀ x ∈ l, q x = true → p x = false) :
    (l.eraseP q).find? p = l.find? p := by
  induction l with
  | nil => rfl
  | cons x xs ih =>
      cases hq : q x with
      | true =>
          rw [List.eraseP_cons_of_pos hq,
            List.find?_cons_of_neg (by simp [h x List.mem_cons_self hq])]
      | false =>
          rw [List.eraseP_cons_of_neg (by simp [hq]), List.find?_cons, List.find?_cons,
            ih (fun y hy => h y (List.mem_cons_of_mem x hy))]

/-! ## The part of a list that is left alone -/

/-- A filter that lets all of `q` pass is not seen in the part `q`. -/
theorem filter_filter_of_imp {p q : α → Bool} {l : List α}
    (h : ∀ x ∈ l, q x = true → p x = true) : (l.filter p).filter q = l.filter q := by
  rw [List.filter_filter]
  refine List.filter_congr (fun x hx => ?_)
  cases hq : q x with
  | false => rfl
  | true => rw [h x hx hq, Bool.true_and]

/-- A map that keeps the part `q` element by element is not seen in it. -/
theorem filter_mapIdx {q : α → Bool} {f : Nat → α → α} {l : List α}
    (h : ∀ i x, l[i]? = some x → q (f i x) = q x ∧ (q x = true → f i x = x)) :
    (l.mapIdx f).filter q = l.filter q := by
  induction l generalizing f with
  | nil => rfl
  | cons x xs ih =>
      have hhead := h 0 x rfl
      have htail := ih (f := fun i => f (i + 1)) (fun i y hy => h (i + 1) y hy)
      rw [List.mapIdx_cons]
      cases hq : q x with
      | true =>
          rw [hhead.2 hq, List.filter_cons_of_pos hq, List.filter_cons_of_pos hq, htail]
      | false =>
          have hnot : q (f 0 x) = false := hhead.1.trans hq
          rw [List.filter_cons_of_neg (by simp [hnot]), List.filter_cons_of_neg (by simp [hq]),
            htail]

/-- A change that `g` does not see. -/
theorem map_modify {β : Type} {g : α → β} {f : α → α} (h : ∀ x, g (f x) = g x) (l : List α)
    (pos : Nat) : (l.modify pos f).map g = l.map g := by
  induction l generalizing pos with
  | nil => simp
  | cons x xs ih =>
      cases pos with
      | zero => rw [List.modify_zero_cons, List.map_cons, List.map_cons, h]
      | succ pos => rw [List.modify_succ_cons, List.map_cons, List.map_cons, ih]

/-- A change of an element outside of the part `q` is not seen in it. -/
theorem filter_modify {q : α → Bool} {f : α → α} {l : List α} {pos : Nat}
    (h : ∀ x, l[pos]? = some x → q x = false ∧ q (f x) = false) :
    (l.modify pos f).filter q = l.filter q := by
  induction l generalizing pos with
  | nil => simp
  | cons x xs ih =>
      cases pos with
      | zero =>
          have hx := h x rfl
          rw [List.modify_zero_cons, List.filter_cons_of_neg (by simp [hx.2]),
            List.filter_cons_of_neg (by simp [hx.1])]
      | succ pos =>
          rw [List.modify_succ_cons, List.filter_cons, List.filter_cons, ih (fun y hy => h y hy)]

/-- An element erased outside of the part `q` is not seen in it. -/
theorem filter_eraseP {p q : α → Bool} {l : List α}
    (h : ∀ x, l.find? p = some x → q x = false) : (l.eraseP p).filter q = l.filter q := by
  induction l with
  | nil => rfl
  | cons x xs ih =>
      cases hp : p x with
      | true =>
          have hx := h x (List.find?_cons_of_pos hp)
          rw [List.eraseP_cons_of_pos hp, List.filter_cons_of_neg (by simp [hx])]
      | false =>
          have htail := ih (fun y hy => h y (by rw [List.find?_cons_of_neg (by simp [hp]), hy]))
          rw [List.eraseP_cons_of_neg (by simp [hp]), List.filter_cons, List.filter_cons, htail]

/-! ## Batches and records -/

/-- Cuts `l` into batches of `size`, the way a loop does that collects elements in
`acc` and hands the collection on when it is full, and once more at the end. -/
def batches (size : Nat) : List α → List α → List (List α)
  | [], [] => []
  | acc, [] => [acc]
  | acc, x :: xs =>
      if acc.length + 1 = size then (acc ++ [x]) :: batches size [] xs
      else batches size (acc ++ [x]) xs

theorem flatten_batches (size : Nat) (acc l : List α) :
    (batches size acc l).flatten = acc ++ l := by
  induction l generalizing acc with
  | nil => cases acc <;> simp [batches]
  | cons x xs ih =>
      rw [batches]
      split
      · rw [List.flatten_cons, ih, List.nil_append, List.append_assoc, List.singleton_append]
      · rw [ih, List.append_assoc, List.singleton_append]

/-- Handles `count` records one after the other, each of them read right before
it is handled.  Without a record to read the loop ends with `none`, and what was
handled before stays done. -/
def recordLoop {σ β : Type} (f : α → σ → β × σ) : Nat → List α → σ → Option (List β) × σ
  | 0, _, s => (some [], s)
  | _ + 1, [], s => (none, s)
  | k + 1, x :: xs, s =>
      let r := f x s
      let rest := recordLoop f k xs r.2
      (rest.1.map (r.1 :: ·), rest.2)

/-- What every handled record preserves, the loop preserves. -/
theorem recordLoop_preserves {σ β : Type} {f : α → σ → β × σ} {I : σ → Prop}
    {count : Nat} {records : List α} {s : σ} (h : I s)
    (hf : ∀ x ∈ records.take count, ∀ s, I s → I (f x s).2) :
    I (recordLoop f count records s).2 := by
  induction records generalizing count s with
  | nil => cases count <;> exact h
  | cons x xs ih =>
      cases count with
      | zero => exact h
      | succ k =>
          rw [List.take_succ_cons] at hf
          exact ih (hf x List.mem_cons_self s h)
            (fun y hy => hf y (List.mem_cons_of_mem _ hy))

/-- Every record that the loop handles meets `P` in the state it is handled in. -/
def recordAlong {σ β : Type} (f : α → σ → β × σ) (P : α → σ → Bool) : Nat → List α → σ → Bool
  | k + 1, x :: xs, s => P x s && recordAlong f P k xs (f x s).2
  | _, _, _ => true

theorem recordLoop_preserves_along {σ β : Type} {f : α → σ → β × σ} {P : α → σ → Bool}
    {I : σ → Prop} (hf : ∀ x s, P x s = true → I s → I (f x s).2) {count : Nat}
    {records : List α} {s : σ} (h : I s) (ha : recordAlong f P count records s = true) :
    I (recordLoop f count records s).2 := by
  induction records generalizing count s with
  | nil => cases count <;> exact h
  | cons x xs ih =>
      cases count with
      | zero => exact h
      | succ k =>
          have hx := Bool.and_eq_true_iff.mp ha
          exact ih (hf x s hx.1 h) hx.2

/-- The loop ends early if and only if there are fewer records than announced. -/
theorem recordLoop_eq_none_iff {σ β : Type} {f : α → σ → β × σ} {count : Nat} {records : List α}
    {s : σ} : (recordLoop f count records s).1 = none ↔ records.length < count := by
  induction records generalizing count s with
  | nil => cases count <;> simp [recordLoop]
  | cons x xs ih =>
      cases count with
      | zero => simp [recordLoop]
      | succ k =>
          rw [recordLoop, Option.map_eq_none_iff, ih, List.length_cons, Nat.succ_lt_succ_iff]

/-- Where a record either leaves the state as it is or adds to what `μ` counts, nothing was
added by the loop if and only if every record that it handled leaves the state it began in. -/
theorem recordLoop_adds_nothing_iff {σ β : Type} {f : α → σ → β × σ} {P : α → σ → Bool}
    {μ : σ → Nat} (hkeeps : ∀ x s, P x s = true → (f x s).2 = s)
    (hadds : ∀ x s, P x s = false → μ s < μ (f x s).2) {count : Nat} {records : List α} {s : σ} :
    μ (recordLoop f count records s).2 = μ s ↔ ∀ x ∈ records.take count, P x s = true := by
  have hle (x : α) (s : σ) : μ s ≤ μ (f x s).2 := by
    cases hx : P x s with
    | true => exact Nat.le_of_eq (congrArg μ (hkeeps x s hx)).symm
    | false => exact Nat.le_of_lt (hadds x s hx)
  induction records generalizing count s with
  | nil => cases count <;> simp [recordLoop]
  | cons x xs ih =>
      cases count with
      | zero => simp [recordLoop]
      | succ k =>
          rw [recordLoop, List.take_succ_cons, List.forall_mem_cons]
          cases hx : P x s with
          | true =>
              dsimp only
              rw [hkeeps x s hx]
              exact ⟨fun h => ⟨rfl, ih.mp h⟩, fun h => ih.mpr h.2⟩
          | false =>
              have hrest : μ (f x s).2 ≤ μ (recordLoop f k xs (f x s).2).2 :=
                recordLoop_preserves (I := fun t => μ (f x s).2 ≤ μ t) (Nat.le_refl _)
                  (fun y _ t ht => Nat.le_trans ht (hle y t))
              have hlt := hadds x s hx
              dsimp only
              exact iff_of_false (by omega) (fun h => by simpa using h.1)

/-- A loop whose records all leave the state as it is leaves it as it is. -/
theorem recordLoop_of_keeps {σ β : Type} {f : α → σ → β × σ} {count : Nat} {records : List α}
    {s : σ} (h : ∀ x ∈ records.take count, (f x s).2 = s) :
    (recordLoop f count records s).2 = s :=
  recordLoop_preserves (I := (· = s)) rfl (fun x hx t ht => by rw [ht]; exact h x hx)

end Sequence

/-! ## std::set -/

/-- `std::set`, ordered by a numeric key: its elements in iteration order. -/
structure OrderedSet (α : Type) (key : α → Nat) where
  elems : List α
  sorted : elems.Pairwise (fun x y => key x < key y)

namespace OrderedSet

variable {α : Type} {key : α → Nat}

/-- The empty set. -/
def empty : OrderedSet α key := ⟨[], List.Pairwise.nil⟩

/-- Insertion into the ordered elements. -/
def insertElem (key : α → Nat) (x : α) : List α → List α
  | [] => [x]
  | y :: ys =>
      if key x < key y then x :: y :: ys
      else if key x = key y then y :: ys
      else y :: insertElem key x ys

theorem mem_of_mem_insertElem {x y : α} {l : List α} (h : y ∈ insertElem key x l) :
    y = x ∨ y ∈ l := by
  induction l with
  | nil => exact Or.inl (List.mem_singleton.mp h)
  | cons z zs ih =>
      rw [insertElem] at h
      split at h
      · exact List.mem_cons.mp h
      · split at h
        · exact Or.inr h
        · cases h with
          | head => exact Or.inr List.mem_cons_self
          | tail _ h => exact (ih h).imp_right (List.mem_cons_of_mem _)

theorem mem_insertElem_iff (hkey : ∀ x y, key x = key y → x = y) {x y : α} {l : List α} :
    y ∈ insertElem key x l ↔ y = x ∨ y ∈ l := by
  induction l with
  | nil => simp [insertElem]
  | cons z zs ih =>
      rw [insertElem]
      split
      · exact List.mem_cons
      · split
        · next h =>
          have hxz := hkey x z h
          subst hxz
          simp
        · simp only [List.mem_cons, ih]
          exact or_left_comm

theorem pairwise_insertElem {x : α} {l : List α}
    (hl : l.Pairwise (fun x y => key x < key y)) :
    (insertElem key x l).Pairwise (fun x y => key x < key y) := by
  induction l with
  | nil => simp [insertElem]
  | cons y ys ih =>
      have hys := List.pairwise_cons.mp hl
      rw [insertElem]
      split
      · next h =>
        refine List.pairwise_cons.mpr ⟨?_, hl⟩
        intro z hz
        cases hz with
        | head => exact h
        | tail _ hz => exact Nat.lt_trans h (hys.1 z hz)
      · split
        · exact hl
        · next h1 h2 =>
          have hlt : key y < key x := by omega
          refine List.pairwise_cons.mpr ⟨?_, ih hys.2⟩
          intro z hz
          cases mem_of_mem_insertElem hz with
          | inl h => exact h ▸ hlt
          | inr h => exact hys.1 z h

/-- `insert`. -/
def insert (x : α) (s : OrderedSet α key) : OrderedSet α key :=
  ⟨insertElem key x s.elems, pairwise_insertElem s.sorted⟩

/-- `erase(x)`. -/
def erase [DecidableEq α] (x : α) (s : OrderedSet α key) : OrderedSet α key :=
  ⟨s.elems.filter (· ≠ x), s.sorted.filter _⟩

/-- `find(x) != end()`. -/
def contains [DecidableEq α] (x : α) (s : OrderedSet α key) : Bool := x ∈ s.elems

@[simp] theorem contains_iff [DecidableEq α] {x : α} {s : OrderedSet α key} :
    s.contains x = true ↔ x ∈ s.elems := by
  simp [contains]

@[simp] theorem mem_erase [DecidableEq α] {x y : α} {s : OrderedSet α key} :
    y ∈ (s.erase x).elems ↔ y ∈ s.elems ∧ y ≠ x := by
  simp [erase]

theorem mem_insert (hkey : ∀ x y, key x = key y → x = y) {x y : α} {s : OrderedSet α key} :
    y ∈ (s.insert x).elems ↔ y = x ∨ y ∈ s.elems :=
  mem_insertElem_iff hkey

end OrderedSet
