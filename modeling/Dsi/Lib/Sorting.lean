import Mathlib.Data.List.Chain
import Mathlib.Data.List.Sort

/-!
# Dsi.Lib.Sorting

Sorting with a three-way comparison, over arbitrary element types: the contract
that such a comparison has to obey, what a library's sort promises for one that
does and for one that does not, and the rank of an element in a list.
-/

namespace Sorting

/-- The contract of `Comparable`: the sign of a comparison is reversed with its
arguments, and what it says is transitive. -/
structure Contract {α : Type} (cmp : α → α → Int) : Prop where
  sign_swap : ∀ x y, (cmp x y).sign = -(cmp y x).sign
  trans : ∀ x y z, 0 < cmp x y → 0 < cmp y z → 0 < cmp x z
  congr : ∀ x y z, cmp x y = 0 → (cmp x z).sign = (cmp y z).sign

section Contract

variable {α : Type} {cmp : α → α → Int}

theorem Contract.nonneg_swap (h : Contract cmp) {x y : α} : cmp x y ≤ 0 ↔ 0 ≤ cmp y x := by
  have hsign := h.sign_swap x y
  rw [← Int.sign_nonneg_iff, ← Int.sign_nonpos_iff]
  omega

theorem Contract.nonneg_trans (h : Contract cmp) {x y z : α} (hxy : 0 ≤ cmp x y)
    (hyz : 0 ≤ cmp y z) : 0 ≤ cmp x z := by
  rcases hxy.lt_or_eq with hxy | hxy
  · rcases hyz.lt_or_eq with hyz | hyz
    · exact (h.trans x y z hxy hyz).le
    · -- `z` compares with `x` as `y` does
      have hzy : cmp z y = 0 := by
        have hsign := h.sign_swap z y
        rw [← hyz] at hsign
        simpa using hsign
      have hcongr := h.congr z y x hzy
      have hswap := h.sign_swap x y
      have hswap' := h.sign_swap x z
      rw [← Int.sign_nonneg_iff]
      have hpos := Int.sign_pos_iff.mpr hxy
      omega
  · have hcongr := h.congr x y z hxy.symm
    rw [← Int.sign_nonneg_iff] at hyz ⊢
    omega

end Contract

/-- A library's sort: for a comparison that obeys the contract it gives the
elements in ascending order, and it leaves a list alone in which no element
compares less than the one before it, whatever the comparison. -/
structure LibrarySort where
  sort : {α : Type} → (α → α → Int) → List α → List α
  perm : ∀ {α : Type} {cmp : α → α → Int}, Contract cmp → ∀ l : List α, (sort cmp l).Perm l
  sorted : ∀ {α : Type} {cmp : α → α → Int}, Contract cmp → ∀ l : List α,
    (sort cmp l).Pairwise (fun a b => cmp a b ≤ 0)
  eq_self_of_run : ∀ {α : Type} {cmp : α → α → Int} {l : List α},
    l.IsChain (fun a b => 0 ≤ cmp b a) → sort cmp l = l

/-- A merge sort that looks first whether the list is one run. -/
def runSort {α : Type} (cmp : α → α → Int) (l : List α) : List α :=
  if l.IsChain (fun a b => 0 ≤ cmp b a) then l else l.mergeSort (fun a b => decide (cmp a b ≤ 0))

/-- It is such a sort. -/
def timSort : LibrarySort where
  sort := runSort
  perm h l := by
    rw [runSort]
    split
    · exact .refl _
    · exact List.mergeSort_perm _ _
  sorted {α cmp} h l := by
    rw [runSort]
    split
    · next hrun =>
      have htrans : Trans (fun a b => 0 ≤ cmp b a) (fun a b => 0 ≤ cmp b a)
          (fun a b => 0 ≤ cmp b a) := ⟨fun hab hbc => h.nonneg_trans hbc hab⟩
      exact hrun.pairwise.imp fun hab => h.nonneg_swap.mpr hab
    · refine (List.pairwise_mergeSort ?_ ?_ l).imp fun hab => of_decide_eq_true hab
      · simp only [decide_eq_true_eq, h.nonneg_swap]
        exact fun a b c hab hbc => h.nonneg_trans hbc hab
      · intro a b
        simp only [Bool.or_eq_true, decide_eq_true_eq, h.nonneg_swap (x := b)]
        exact Int.le_total _ _
  eq_self_of_run h := if_pos h

/-- The elements stand where their ranks say if and only if they are in order. -/
theorem rank_eq_index_iff {α : Type} (f : α → Int) (l : List α) :
    (∀ i (hi : i < l.length), l.countP (fun y => f y < f l[i]) = i) ↔
      l.Pairwise (fun a b => f a < f b) := by
  constructor
  · intro h
    refine List.pairwise_iff_getElem.mpr fun i j hi hj hij => ?_
    by_contra hnot
    -- the earlier element has at least the rank of the later one
    have hle : l.countP (fun y => f y < f l[j]) ≤ l.countP (fun y => f y < f l[i]) :=
      List.countP_mono_left fun y _ hy => by
        simp only [decide_eq_true_eq] at hy ⊢
        omega
    rw [h i hi, h j hj] at hle
    omega
  · intro h
    induction l with
    | nil => simp
    | cons a l ih =>
        obtain ⟨ha, hl⟩ := List.pairwise_cons.mp h
        intro i hi
        cases i with
        | zero =>
            refine List.countP_eq_zero.mpr fun y hy => ?_
            rcases List.mem_cons.mp hy with rfl | hy
            · simp
            · have hlt := ha y hy
              simp
              omega
        | succ i =>
            have hlt : i < l.length := Nat.lt_of_succ_lt_succ hi
            rw [List.getElem_cons_succ, List.countP_cons, ih hl i hlt,
              if_pos (by simpa using ha _ (List.getElem_mem hlt))]

end Sorting
