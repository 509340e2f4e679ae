import Mathlib.Data.List.Basic
import Mathlib.Data.List.Pairwise

/-!
# Dsi.Lib.Comparison

Strict orders given by a comparison function, as the ordered containers of C++
take them, and the lists that are in such an order: in front of equal members the
order leaves no choice.
-/

/-- `lt` is a strict total order. -/
structure StrictComparison {α : Type} (lt : α → α → Bool) : Prop where
  irrefl : ∀ a, lt a a = false
  trans : ∀ a b c, lt a b = true → lt b c = true → lt a c = true
  connected : ∀ a b, lt a b = false → lt b a = false → a = b

namespace StrictComparison

variable {α β : Type} {lt : α → α → Bool}

theorem ne (h : StrictComparison lt) {a b : α} (hab : lt a b = true) : a ≠ b := by
  rintro rfl
  rw [h.irrefl a] at hab
  contradiction

theorem asymm (h : StrictComparison lt) {a b : α} (hab : lt a b = true) : lt b a = false := by
  cases hba : lt b a with
  | false => rfl
  | true => exact absurd rfl (h.ne (h.trans a b a hab hba))

/-- The order of a number that tells the values apart. -/
theorem of_int {f : α → Int} (hf : ∀ a b, f a = f b → a = b)
    (hlt : ∀ a b, lt a b = true ↔ f a < f b) : StrictComparison lt where
  irrefl a := by
    rw [← Bool.not_eq_true, hlt]
    exact Int.lt_irrefl _
  trans a b c hab hbc := (hlt a c).mpr (Int.lt_trans ((hlt a b).mp hab) ((hlt b c).mp hbc))
  connected a b hab hba := by
    rw [← Bool.not_eq_true, hlt] at hab hba
    exact hf a b (by omega)

/-- `operator<` of `std::pair`. -/
theorem prod {lt' : β → β → Bool} (h : StrictComparison lt) (h' : StrictComparison lt') :
    StrictComparison
      (fun x y : α × β => lt x.1 y.1 || (!lt y.1 x.1 && lt' x.2 y.2)) where
  irrefl x := by simp [h.irrefl, h'.irrefl]
  trans x y z hxy hyz := by
    simp only [Bool.or_eq_true, Bool.and_eq_true, Bool.not_eq_true'] at hxy hyz ⊢
    -- where a first component is not smaller, it is the same
    rcases hxy with hxy | ⟨hyx, hxy⟩ <;> rcases hyz with hyz | ⟨hzy, hyz⟩
    · exact Or.inl (h.trans _ _ _ hxy hyz)
    · cases hlt : lt y.1 z.1 with
      | true => exact Or.inl (h.trans _ _ _ hxy hlt)
      | false => exact Or.inl (h.connected _ _ hlt hzy ▸ hxy)
    · cases hlt : lt x.1 y.1 with
      | true => exact Or.inl (h.trans _ _ _ hlt hyz)
      | false => exact Or.inl (h.connected _ _ hlt hyx ▸ hyz)
    · cases hlt : lt x.1 y.1 with
      | true =>
          cases hlt' : lt y.1 z.1 with
          | true => exact Or.inl (h.trans _ _ _ hlt hlt')
          | false => exact Or.inl (h.connected _ _ hlt' hzy ▸ hlt)
      | false =>
          rw [h.connected _ _ hlt hyx]
          exact Or.inr ⟨hzy, h'.trans _ _ _ hxy hyz⟩
  connected x y hxy hyx := by
    simp only [Bool.or_eq_false_iff, Bool.and_eq_false_imp, Bool.not_eq_true'] at hxy hyx
    have hfst := h.connected _ _ hxy.1 hyx.1
    exact Prod.ext hfst (h'.connected _ _ (hxy.2 hyx.1) (hyx.2 hxy.1))

/-- Keys in order are distinct. -/
theorem nodup_keys (h : StrictComparison lt) {m : List (α × β)}
    (hm : m.Pairwise (fun a b => lt a.1 b.1 = true)) : (m.map (·.1)).Nodup :=
  (List.pairwise_map.mpr hm).imp fun hab => h.ne hab

/-- Entries in the order of their keys are determined by their members. -/
theorem eq_of_mem_iff (h : StrictComparison lt) {m m' : List (α × β)}
    (hm : m.Pairwise (fun a b => lt a.1 b.1 = true))
    (hm' : m'.Pairwise (fun a b => lt a.1 b.1 = true)) (hmem : ∀ e, e ∈ m ↔ e ∈ m') : m = m' := by
  have hnodup : ∀ {m : List (α × β)}, m.Pairwise (fun a b => lt a.1 b.1 = true) → m.Nodup :=
    fun hm => hm.imp fun hab => fun he => h.ne hab (congrArg Prod.fst he)
  have hperm : m.Perm m' := (List.perm_ext_iff_of_nodup (hnodup hm) (hnodup hm')).mpr hmem
  refine hperm.eq_of_pairwise (fun a b _ _ hab hba => ?_) hm hm'
  rw [h.asymm hab] at hba
  contradiction

end StrictComparison
