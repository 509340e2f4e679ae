import Dsi.Lib.Sequence
import Mathlib.Data.List.Nodup

/-!
# Dsi.Lib.RefCount

Reference counting over arbitrary cells and keys.  A list of cells is counted
against a list of references when each cell counts the references to its key and
every reference but the free ones has a cell.  The lemmas are the operations of
such a scheme: a reference comes or goes without a cell, takes a cell, leaves one,
a cell is created, cells are written without touching key and count.

`Counts` is the weaker half of it, for cells that are only a part of what the
references refer to.
-/

open Sequence

namespace RefCount

variable {κ γ : Type} [DecidableEq κ] {key : γ → κ} {count : γ → Nat} {free : κ}

/-! ## Counted cells -/

/-- The cells count the references. -/
structure Counted (key : γ → κ) (count : γ → Nat) (free : κ) (refs : List κ) (cells : List γ) :
    Prop where
  count_eq : ∀ c ∈ cells, count c = refs.count (key c)
  exists_cell : ∀ r ∈ refs, r ≠ free → ∃ c ∈ cells, key c = r
  nodup : (cells.map key).Nodup
  ne_free : ∀ c ∈ cells, key c ≠ free

namespace Counted

variable {refs refs' : List κ} {cells : List γ}

theorem perm (h : Counted key count free refs cells) (hp : refs.Perm refs') :
    Counted key count free refs' cells where
  count_eq c hc := by rw [h.count_eq c hc, hp.count_eq]
  exists_cell r hr := h.exists_cell r (hp.mem_iff.mpr hr)
  nodup := h.nodup
  ne_free := h.ne_free

theorem cons_free (h : Counted key count free refs cells) :
    Counted key count free (free :: refs) cells where
  count_eq c hc := by
    rw [h.count_eq c hc, List.count_cons_of_ne (h.ne_free c hc).symm]
  exists_cell r hr hne := h.exists_cell r ((List.mem_cons.mp hr).resolve_left hne) hne
  nodup := h.nodup
  ne_free := h.ne_free

theorem of_cons_free (h : Counted key count free (free :: refs) cells) :
    Counted key count free refs cells where
  count_eq c hc := by
    rw [h.count_eq c hc, List.count_cons_of_ne (h.ne_free c hc).symm]
  exists_cell r hr := h.exists_cell r (List.mem_cons_of_mem _ hr)
  nodup := h.nodup
  ne_free := h.ne_free

/-- No references, no cells. -/
theorem nil : Counted key count free [] [] where
  count_eq _ hc := absurd hc List.not_mem_nil
  exists_cell _ hr := absurd hr List.not_mem_nil
  nodup := List.nodup_nil
  ne_free _ hc := absurd hc List.not_mem_nil

/-- A new cell, that nothing refers to yet. -/
theorem cons_cell (h : Counted key count free refs cells) {c : γ} (h0 : count c = 0)
    (hne : key c ≠ free) (hfresh : ∀ c' ∈ cells, key c' ≠ key c) :
    Counted key count free refs (c :: cells) where
  count_eq c' hc' := by
    cases List.mem_cons.mp hc' with
    | inl he =>
        have hnot : key c ∉ refs := by
          intro hmem
          obtain ⟨c'', hc'', hkey⟩ := h.exists_cell _ hmem hne
          exact hfresh c'' hc'' hkey
        rw [he, h0, List.count_eq_zero.mpr hnot]
    | inr hc' => exact h.count_eq c' hc'
  exists_cell r hr hr0 := by
    obtain ⟨c', hc', hkey⟩ := h.exists_cell r hr hr0
    exact ⟨c', List.mem_cons_of_mem _ hc', hkey⟩
  nodup := by
    refine List.nodup_cons.mpr ⟨?_, h.nodup⟩
    intro hmem
    obtain ⟨c', hc', hkey⟩ := List.mem_map.mp hmem
    exact hfresh c' hc' hkey
  ne_free c' hc' := by
    cases List.mem_cons.mp hc' with
    | inl he => exact he ▸ hne
    | inr hc' => exact h.ne_free c' hc'

/-- Cells may be written as long as their keys and counts stay. -/
theorem map_cells (h : Counted key count free refs cells) {f : γ → γ}
    (hf : ∀ c, key (f c) = key c ∧ count (f c) = count c) :
    Counted key count free refs (cells.map f) where
  count_eq c hc := by
    obtain ⟨x, hx, rfl⟩ := List.mem_map.mp hc
    rw [(hf x).1, (hf x).2, h.count_eq x hx]
  exists_cell r hr hne := by
    obtain ⟨c, hc, hkey⟩ := h.exists_cell r hr hne
    exact ⟨f c, List.mem_map_of_mem hc, (hf c).1.trans hkey⟩
  nodup := by
    have hkeys : (cells.map f).map key = cells.map key := by
      rw [List.map_map]
      exact List.map_congr_left (fun c _ => (hf c).1)
    exact hkeys ▸ h.nodup
  ne_free c hc := by
    obtain ⟨x, hx, rfl⟩ := List.mem_map.mp hc
    rw [(hf x).1]
    exact h.ne_free x hx

theorem modify_cell (h : Counted key count free refs cells) (i : Nat) {f : γ → γ}
    (hf : ∀ c, key (f c) = key c ∧ count (f c) = count c) :
    Counted key count free refs (cells.modify i f) := by
  cases hi : cells[i]? with
  | none =>
      have hle : cells.length ≤ i := List.getElem?_eq_none_iff.mp hi
      rw [List.modify_eq_self hle]
      exact h
  | some c =>
      rw [modify_eq_map h.nodup hi]
      refine h.map_cells (fun x => ?_)
      split
      · exact hf x
      · exact ⟨rfl, rfl⟩

/-- Writing one cell together with the references to it. -/
theorem write_cell (h : Counted key count free refs cells) {i : Nat} {c : γ}
    (hc : cells[i]? = some c) {f : γ → γ} (hkey : ∀ x, key (f x) = key x)
    (hcount : count (f c) = refs'.count (key c))
    (hother : ∀ k, k ≠ key c → k ≠ free → refs'.count k = refs.count k)
    (hmem : ∀ r ∈ refs', r = key c ∨ r ∈ refs) :
    Counted key count free refs' (cells.modify i f) := by
  have hcell := List.mem_of_getElem? hc
  rw [modify_eq_map h.nodup hc]
  constructor
  case count_eq =>
    intro c' hc'
    obtain ⟨x, hx, rfl⟩ := List.mem_map.mp hc'
    by_cases hk : key x = key c
    · have hxc : x = c := List.inj_on_of_nodup_map h.nodup hx hcell hk
      subst hxc
      rw [if_pos rfl, hcount, hkey]
    · rw [if_neg hk, h.count_eq x hx, hother _ hk (h.ne_free x hx)]
  case exists_cell =>
    intro r hr hne
    cases hmem r hr with
    | inl he =>
        refine ⟨f c, List.mem_map.mpr ⟨c, hcell, if_pos rfl⟩, ?_⟩
        rw [hkey, he]
    | inr hr =>
        obtain ⟨x, hx, hxr⟩ := h.exists_cell r hr hne
        refine ⟨_, List.mem_map_of_mem hx, ?_⟩
        split
        · rw [hkey, hxr]
        · exact hxr
  case nodup =>
    have hkeys : (cells.map (fun x => if key x = key c then f x else x)).map key =
        cells.map key := by
      rw [List.map_map]
      refine List.map_congr_left (fun x _ => ?_)
      simp only [Function.comp_apply]
      split
      · exact hkey x
      · rfl
    exact hkeys ▸ h.nodup
  case ne_free =>
    intro c' hc'
    obtain ⟨x, hx, rfl⟩ := List.mem_map.mp hc'
    split
    · rw [hkey]
      exact h.ne_free x hx
    · exact h.ne_free x hx

/-- A free reference takes a cell. -/
theorem acquire (h : Counted key count free (free :: refs) cells) {i : Nat} {c : γ}
    (hc : cells[i]? = some c) {f : γ → γ}
    (hf : ∀ x, key (f x) = key x ∧ count (f x) = count x + 1) :
    Counted key count free (key c :: refs) (cells.modify i f) := by
  have hcell := List.mem_of_getElem? hc
  refine h.of_cons_free.write_cell hc (fun x => (hf x).1) ?_ ?_ ?_
  · rw [(hf c).2, h.of_cons_free.count_eq c hcell, List.count_cons_self]
  · intro k hk _
    rw [List.count_cons_of_ne hk.symm]
  · intro r hr
    exact List.mem_cons.mp hr

/-- A free reference takes a new cell. -/
theorem acquire_new (h : Counted key count free (free :: refs) cells) {c : γ} (h1 : count c = 1)
    (hne : key c ≠ free) (hfresh : ∀ c' ∈ cells, key c' ≠ key c) :
    Counted key count free (key c :: refs) (cells ++ [c]) where
  count_eq c' hc' := by
    rcases List.mem_append.mp hc' with hold | hnew
    · rw [h.count_eq c' hold, List.count_cons_of_ne (h.ne_free c' hold).symm,
        List.count_cons_of_ne (hfresh c' hold).symm]
    · have hnot : key c ∉ refs := by
        intro hmem
        obtain ⟨c'', hc'', hkey⟩ := h.exists_cell _ (List.mem_cons_of_mem _ hmem) hne
        exact hfresh c'' hc'' hkey
      rw [List.mem_singleton.mp hnew, h1, List.count_cons_self, List.count_eq_zero.mpr hnot]
  exists_cell r hr hr0 := by
    rcases List.mem_cons.mp hr with rfl | hold
    · exact ⟨c, List.mem_append_right _ (List.mem_singleton_self c), rfl⟩
    · obtain ⟨c', hc', hkey⟩ := h.exists_cell r (List.mem_cons_of_mem _ hold) hr0
      exact ⟨c', List.mem_append_left _ hc', hkey⟩
  nodup := by
    rw [List.map_append, List.map_singleton, List.nodup_append_comm, List.singleton_append,
      List.nodup_cons]
    refine ⟨fun hmem => ?_, h.nodup⟩
    obtain ⟨c', hc', hkey⟩ := List.mem_map.mp hmem
    exact hfresh c' hc' hkey
  ne_free c' hc' := by
    rcases List.mem_append.mp hc' with hold | hnew
    · exact h.ne_free c' hold
    · exact List.mem_singleton.mp hnew ▸ hne

/-- A reference that is not the last one leaves its cell. -/
theorem release {c : γ} (h : Counted key count free (key c :: refs) cells) {i : Nat}
    (hc : cells[i]? = some c) {f : γ → γ}
    (hf : ∀ x, key (f x) = key x ∧ count (f x) = count x - 1) :
    Counted key count free refs (cells.modify i f) := by
  have hcell := List.mem_of_getElem? hc
  refine h.write_cell hc (fun x => (hf x).1) ?_ ?_ ?_
  · rw [(hf c).2, h.count_eq c hcell, List.count_cons_self, Nat.add_sub_cancel]
  · intro k hk _
    rw [List.count_cons_of_ne hk.symm]
  · intro r hr
    exact Or.inr (List.mem_cons_of_mem _ hr)

/-- The last reference leaves, and its cell goes. -/
theorem release_last {k : κ} (h : Counted key count free (k :: refs) cells)
    (hlast : k ∉ refs) :
    Counted key count free refs (cells.eraseP (fun x => key x = k)) := by
  rw [eraseP_eq_filter h.nodup]
  constructor
  case count_eq =>
    intro c hc
    obtain ⟨hc, hne⟩ := List.mem_filter.mp hc
    have hne : k ≠ key c := fun he => by simp [he] at hne
    rw [h.count_eq c hc, List.count_cons_of_ne hne]
  case exists_cell =>
    intro r hr hne
    obtain ⟨c, hc, hkey⟩ := h.exists_cell r (List.mem_cons_of_mem _ hr) hne
    refine ⟨c, List.mem_filter.mpr ⟨hc, ?_⟩, hkey⟩
    have hrk : key c ≠ k := fun he => hlast (he ▸ hkey ▸ hr)
    simpa using hrk
  case nodup => exact h.nodup.sublist (List.filter_sublist.map key)
  case ne_free => exact fun c hc => h.ne_free c (List.mem_filter.mp hc).1

/-- The count of a cell tells whether a further reference is there. -/
theorem count_sub_one_eq_zero {c : γ} (h : Counted key count free (key c :: refs) cells)
    (hc : c ∈ cells) : count c - 1 = 0 ↔ key c ∉ refs := by
  rw [h.count_eq c hc, List.count_cons_self, Nat.add_sub_cancel, List.count_eq_zero]

end Counted

/-! ## Counting a part -/

/-- A reference leaves the cell with its key, which goes with the last one. -/
def releaseKey (key : γ → κ) (count : γ → Nat) (drop : γ → γ) (k : κ) (cells : List γ) : List γ :=
  cells.filterMap (fun c =>
    if key c = k then (if count c - 1 = 0 then none else some (drop c)) else some c)

section Release

variable {drop : γ → γ} {k : κ} {cells : List γ}

theorem releaseKey_of_not_mem (h : ∀ c ∈ cells, key c ≠ k) :
    releaseKey key count drop k cells = cells := by
  unfold releaseKey
  rw [List.filterMap_congr (g := some) (fun c hc => if_neg (h c hc)), List.filterMap_some]

theorem releaseKey_eq_eraseP (drop : γ → γ) (hn : (cells.map key).Nodup) {c : γ} (hc : c ∈ cells)
    (h0 : count c - 1 = 0) :
    releaseKey key count drop (key c) cells = cells.eraseP (fun x => key x = key c) := by
  rw [eraseP_eq_filter hn, ← List.filterMap_eq_filter]
  refine List.filterMap_congr (fun x hx => ?_)
  by_cases hk : key x = key c
  · obtain rfl : x = c := List.inj_on_of_nodup_map hn hx hc hk
    simp [h0, Option.guard]
  · simp [hk, Option.guard]

theorem releaseKey_eq_modify (drop : γ → γ) (hn : (cells.map key).Nodup) {i : Nat} {c : γ}
    (hc : cells[i]? = some c) (h0 : count c - 1 ≠ 0) :
    releaseKey key count drop (key c) cells = cells.modify i drop := by
  rw [modify_eq_map hn hc, ← List.filterMap_eq_map]
  refine List.filterMap_congr (fun x hx => ?_)
  by_cases hk : key x = key c
  · obtain rfl : x = c := List.inj_on_of_nodup_map hn hx (List.mem_of_getElem? hc) hk
    simp [h0]
  · simp [hk]

theorem of_mem_releaseKey {c' : γ} (h : c' ∈ releaseKey key count drop k cells) :
    ∃ c ∈ cells, (c' = c ∧ key c ≠ k) ∨ (c' = drop c ∧ key c = k) := by
  obtain ⟨c, hc, hsome⟩ := List.mem_filterMap.mp h
  refine ⟨c, hc, ?_⟩
  split at hsome
  · next hk =>
    split at hsome
    · exact absurd hsome (by simp)
    · exact Or.inr ⟨(Option.some.inj hsome).symm, hk⟩
  · next hk => exact Or.inl ⟨(Option.some.inj hsome).symm, hk⟩

theorem nodup_releaseKey (hdrop : ∀ c, key (drop c) = key c) (hn : (cells.map key).Nodup) :
    ((releaseKey key count drop k cells).map key).Nodup := by
  induction cells with
  | nil => exact hn
  | cons c cs ih =>
      obtain ⟨hc, hcs⟩ := List.nodup_cons.mp hn
      have hkeys : key c ∉ (releaseKey key count drop k cs).map key := by
        intro hmem
        obtain ⟨c', hc', hk⟩ := List.mem_map.mp hmem
        obtain ⟨x, hx, ⟨rfl, _⟩ | ⟨rfl, _⟩⟩ := of_mem_releaseKey hc'
        · exact hc (hk ▸ List.mem_map_of_mem hx)
        · exact hc (hk ▸ hdrop x ▸ List.mem_map_of_mem hx)
      unfold releaseKey at *
      rw [List.filterMap_cons]
      split
      · exact ih hcs
      · next x hx =>
        have hxc : key x = key c := by
          split at hx
          · split at hx
            · exact absurd hx (by simp)
            · rw [← Option.some.inj hx, hdrop]
          · rw [Option.some.inj hx]
        rw [List.map_cons, hxc]
        exact List.nodup_cons.mpr ⟨hkeys, ih hcs⟩

end Release

/-- The cells count the references to them; other references may have no cell. -/
structure Counts (key : γ → κ) (count : γ → Nat) (refs : List κ) (cells : List γ) : Prop where
  nodup : (cells.map key).Nodup
  count_eq : ∀ c ∈ cells, count c = refs.count (key c)

namespace Counts

variable {refs refs' : List κ} {cells : List γ}

/-- References elsewhere do not matter. -/
theorem congr (h : Counts key count refs cells)
    (hr : ∀ c ∈ cells, refs'.count (key c) = refs.count (key c)) :
    Counts key count refs' cells :=
  ⟨h.nodup, fun c hc => (h.count_eq c hc).trans (hr c hc).symm⟩

theorem perm (h : Counts key count refs cells) (hp : refs.Perm refs') :
    Counts key count refs' cells :=
  h.congr (fun _ _ => (hp.count_eq _).symm)

/-- A reference comes. -/
theorem acquire {take : γ → γ} (h : Counts key count refs cells)
    (htake : ∀ c, key (take c) = key c ∧ count (take c) = count c + 1) (k : κ) :
    Counts key count (k :: refs) (cells.map (fun c => if key c = k then take c else c)) where
  nodup := by
    have hkeys : (cells.map (fun c => if key c = k then take c else c)).map key =
        cells.map key := by
      rw [List.map_map]
      refine List.map_congr_left (fun c _ => ?_)
      simp only [Function.comp_apply]
      split
      · exact (htake c).1
      · rfl
    exact hkeys ▸ h.nodup
  count_eq c' hc' := by
    obtain ⟨c, hc, rfl⟩ := List.mem_map.mp hc'
    split
    · next hk => rw [(htake c).2, (htake c).1, h.count_eq c hc, hk, List.count_cons_self]
    · next hk => rw [h.count_eq c hc, List.count_cons_of_ne (fun he => hk he.symm)]

/-- A new cell, that nothing refers to yet. -/
theorem cons {c : γ} (h : Counts key count refs cells) (h0 : count c = 0) (hc : key c ∉ refs)
    (hfresh : key c ∉ cells.map key) : Counts key count refs (c :: cells) where
  nodup := List.nodup_cons.mpr ⟨hfresh, h.nodup⟩
  count_eq c' hc' := by
    cases List.mem_cons.mp hc' with
    | inl he => rw [he, h0, List.count_eq_zero.mpr hc]
    | inr hold => exact h.count_eq c' hold

/-- A reference leaves. -/
theorem release {drop : γ → γ} {k : κ} (h : Counts key count (k :: refs) cells)
    (hdrop : ∀ c, key (drop c) = key c ∧ count (drop c) = count c - 1) :
    Counts key count refs (releaseKey key count drop k cells) where
  nodup := nodup_releaseKey (fun c => (hdrop c).1) h.nodup
  count_eq c' hc' := by
    obtain ⟨c, hc, ⟨rfl, hk⟩ | ⟨rfl, hk⟩⟩ := of_mem_releaseKey hc'
    · rw [h.count_eq c' hc, List.count_cons_of_ne hk.symm]
    · rw [(hdrop c).2, (hdrop c).1, h.count_eq c hc, hk, List.count_cons_self,
        Nat.add_sub_cancel]

/-- A cell that a further reference refers to stays. -/
theorem mem_releaseKey {drop : γ → γ} {k : κ} (h : Counts key count (k :: refs) cells) {c : γ}
    (hc : c ∈ cells) (hr : key c ∈ refs) :
    ∃ c' ∈ releaseKey key count drop k cells, c' = c ∨ c' = drop c := by
  by_cases hk : key c = k
  · have hpos := List.count_pos_iff.mpr hr
    have hne : count c - 1 ≠ 0 := by
      rw [h.count_eq c hc, hk, List.count_cons_self]
      rw [hk] at hpos
      omega
    exact ⟨drop c, List.mem_filterMap.mpr ⟨c, hc, by simp [hk, hne]⟩, Or.inr rfl⟩
  · exact ⟨c, List.mem_filterMap.mpr ⟨c, hc, by simp [hk]⟩, Or.inl rfl⟩

end Counts

end RefCount
