import Dsi.Lib.Comparison
import Dsi.Stream.Types
import Mathlib.Data.List.Forall2

/-!
# Dsi.Stream.Overlay

What a read makes of the variable it reads into.  `overlay` is the value that a
variable holds after a written value was read over its old content: integers and
strings are replaced, the elements of a vector are read over those that are
there, and the entries of a map are added to those that are there.
-/

namespace Dsi

/-! ## The order of the keys -/

section Order

variable {α β : Type} {lt : α → α → Bool}

open Ty in
theorem strictComparison_lexLt (h : StrictComparison lt) : StrictComparison (lexLt lt) where
  irrefl l := by
    induction l with
    | nil => rfl
    | cons a l ih => rw [lexLt, h.irrefl a, ih]; rfl
  trans as bs cs hab hbc := by
    induction as generalizing bs cs with
    | nil =>
        cases cs with
        | nil => cases bs <;> contradiction
        | cons c cs => rfl
    | cons a as ih =>
        cases bs with
        | nil => contradiction
        | cons b bs =>
            cases cs with
            | nil => contradiction
            | cons c cs =>
                rw [lexLt] at hab hbc ⊢
                cases hlt : lt a b with
                | true =>
                    cases hlt' : lt b c with
                    | true => rw [h.trans a b c hlt hlt']; rfl
                    | false =>
                        cases hgt' : lt c b with
                        | true => simp [hlt', hgt'] at hbc
                        | false =>
                            obtain rfl := h.connected b c hlt' hgt'
                            rw [hlt]; rfl
                | false =>
                    cases hgt : lt b a with
                    | true => simp [hlt, hgt] at hab
                    | false =>
                        obtain rfl := h.connected a b hlt hgt
                        simp only [hlt, Bool.false_eq_true, if_false] at hab
                        split
                        · rfl
                        · next hnlt =>
                          rw [if_neg hnlt] at hbc
                          split
                          · next hgt' => rw [if_pos hgt'] at hbc; contradiction
                          · next hgt' => rw [if_neg hgt'] at hbc; exact ih bs cs hab hbc
  connected as bs hab hba := by
    induction as generalizing bs with
    | nil =>
        cases bs with
        | nil => rfl
        | cons b bs => contradiction
    | cons a as ih =>
        cases bs with
        | nil => contradiction
        | cons b bs =>
            rw [lexLt] at hab hba
            cases hlt : lt a b with
            | true => simp [hlt] at hab
            | false =>
                cases hgt : lt b a with
                | true => simp [hgt] at hba
                | false =>
                    obtain rfl := h.connected a b hlt hgt
                    simp only [hlt, Bool.false_eq_true, if_false] at hab hba
                    rw [ih bs hab hba]

theorem strictComparison_slt (n : Nat) : StrictComparison (fun a b : BitVec n => a.slt b) :=
  .of_int (f := BitVec.toInt) (fun _ _ => BitVec.eq_of_toInt_eq) (fun a b => by simp [BitVec.slt])

theorem strictComparison_ult (n : Nat) : StrictComparison (fun a b : BitVec n => a.ult b) :=
  .of_int (f := fun a => (a.toNat : Int)) (fun _ _ h => BitVec.eq_of_toNat_eq (Int.ofNat.inj h))
    (fun a b => by simp [BitVec.ult])

/-- The keys of a map are totally ordered. -/
theorem Ty.strictComparison_less (t : Ty) : StrictComparison t.less := by
  induction t with
  | int signed w =>
      cases signed with
      | true => exact strictComparison_slt _
      | false => exact strictComparison_ult _
  | bool => constructor <;> decide
  | enum signed =>
      cases signed with
      | true => exact strictComparison_slt _
      | false => exact strictComparison_ult _
  | string =>
      refine strictComparison_lexLt (.of_int (f := fun a => (a.toNat : Int)) ?_ ?_)
      · exact fun _ _ h => UInt8.toNat_inj.mp (Int.ofNat.inj h)
      · simp [UInt8.lt_iff_toNat_lt]
  | wstring => exact strictComparison_lexLt (.of_int (f := id) (fun _ _ h => h) (by simp))
  | vector t ih => exact strictComparison_lexLt ih
  | map k v ihk ihv => exact strictComparison_lexLt (ihk.prod ihv)

/-! ## Assignments to a map -/

/-- An assignment brings no other value than its own. -/
theorem mem_of_mem_mapAssign {key : α} {value : β} {m : List (α × β)} {e : α × β}
    (h : e ∈ mapAssign lt key value m) : e ∈ m ∨ e.2 = value := by
  induction m with
  | nil =>
      rw [mapAssign, List.mem_singleton] at h
      exact .inr (congrArg Prod.snd h)
  | cons x m ih =>
      rw [mapAssign] at h
      split at h
      · rcases List.mem_cons.mp h with rfl | hmem
        · exact .inl List.mem_cons_self
        · exact (ih hmem).imp (List.mem_cons_of_mem _) id
      · split at h
        · rcases List.mem_cons.mp h with rfl | hmem
          · exact .inr rfl
          · exact .inl hmem
        · rcases List.mem_cons.mp h with rfl | hmem
          · exact .inr rfl
          · exact .inl (List.mem_cons_of_mem _ hmem)

/-- After `m[key] = value` the map has this entry, and those of other keys. -/
theorem mem_mapAssign (h : StrictComparison lt) {key : α} {value : β} {m : List (α × β)}
    (hm : m.Pairwise (fun a b => lt a.1 b.1 = true)) (e : α × β) :
    e ∈ mapAssign lt key value m ↔ e = (key, value) ∨ (e ∈ m ∧ e.1 ≠ key) := by
  induction m with
  | nil => simp [mapAssign]
  | cons x m ih =>
      obtain ⟨hx, hm⟩ := List.pairwise_cons.mp hm
      rw [mapAssign]
      split
      · next hlt =>
        have hne : x.1 ≠ key := h.ne hlt
        rw [List.mem_cons, ih hm, List.mem_cons]
        constructor
        · rintro (rfl | hnew | ⟨he, hkey⟩)
          · exact Or.inr ⟨Or.inl rfl, hne⟩
          · exact Or.inl hnew
          · exact Or.inr ⟨Or.inr he, hkey⟩
        · rintro (hnew | ⟨rfl | he, hkey⟩)
          · exact Or.inr (Or.inl hnew)
          · exact Or.inl rfl
          · exact Or.inr (Or.inr ⟨he, hkey⟩)
      · next hnlt =>
        split
        · next hgt =>
          -- everything from here on has a greater key
          have hne : ∀ e ∈ x :: m, e.1 ≠ key := by
            intro e he
            cases List.mem_cons.mp he with
            | inl hex => exact hex ▸ (h.ne hgt).symm
            | inr he => exact (h.ne (h.trans _ _ _ hgt (hx e he))).symm
          rw [List.mem_cons]
          exact or_congr Iff.rfl ⟨fun he => ⟨he, hne e he⟩, And.left⟩
        · next hngt =>
          have hkey : x.1 = key := h.connected _ _ (by simpa using hnlt) (by simpa using hngt)
          have hne : ∀ e ∈ m, e.1 ≠ key := fun e he => hkey ▸ (h.ne (hx e he)).symm
          rw [List.mem_cons, List.mem_cons, hkey]
          constructor
          · rintro (hnew | he)
            · exact Or.inl hnew
            · exact Or.inr ⟨Or.inr he, hne e he⟩
          · rintro (hnew | ⟨rfl | he, hnot⟩)
            · exact Or.inl hnew
            · exact absurd hkey hnot
            · exact Or.inr he

theorem pairwise_mapAssign (h : StrictComparison lt) {key : α} {value : β} {m : List (α × β)}
    (hm : m.Pairwise (fun a b => lt a.1 b.1 = true)) :
    (mapAssign lt key value m).Pairwise (fun a b => lt a.1 b.1 = true) := by
  induction m with
  | nil => simp [mapAssign]
  | cons x m ih =>
      have hcons := List.pairwise_cons.mp hm
      rw [mapAssign]
      split
      · next hlt =>
        refine List.pairwise_cons.mpr ⟨fun e he => ?_, ih hcons.2⟩
        rcases (mem_mapAssign h hcons.2 e).mp he with rfl | ⟨he, -⟩
        · exact hlt
        · exact hcons.1 e he
      · split
        · next hgt =>
          refine List.pairwise_cons.mpr ⟨fun e he => ?_, hm⟩
          cases List.mem_cons.mp he with
          | inl hex => exact hex ▸ hgt
          | inr he => exact h.trans _ _ _ hgt (hcons.1 e he)
        · exact List.pairwise_cons.mpr hcons

/-- A sequence of assignments with distinct keys. -/
def mapAssigns (lt : α → α → Bool) (es m : List (α × β)) : List (α × β) :=
  es.foldl (fun m e => mapAssign lt e.1 e.2 m) m

theorem pairwise_mapAssigns (h : StrictComparison lt) (es : List (α × β)) {m : List (α × β)}
    (hm : m.Pairwise (fun a b => lt a.1 b.1 = true)) :
    (mapAssigns lt es m).Pairwise (fun a b => lt a.1 b.1 = true) := by
  induction es generalizing m with
  | nil => exact hm
  | cons x es ih => exact ih (pairwise_mapAssign h hm)

theorem mem_mapAssigns (h : StrictComparison lt) {es m : List (α × β)}
    (hes : (es.map (·.1)).Nodup) (hm : m.Pairwise (fun a b => lt a.1 b.1 = true)) (e : α × β) :
    e ∈ mapAssigns lt es m ↔ e ∈ es ∨ (e ∈ m ∧ e.1 ∉ es.map (·.1)) := by
  induction es generalizing m with
  | nil => simp [mapAssigns]
  | cons x es ih =>
      obtain ⟨hx, hes⟩ := List.nodup_cons.mp (List.map_cons ▸ hes)
      have hassigned : (mapAssign lt x.1 x.2 m).Pairwise (fun a b => lt a.1 b.1 = true) :=
        pairwise_mapAssign h hm
      have hrest := ih hes hassigned
      rw [mem_mapAssign h hm] at hrest
      rw [mapAssigns, List.foldl_cons, ← mapAssigns, hrest, List.mem_cons, List.map_cons,
        List.mem_cons, not_or]
      constructor
      · rintro (he | ⟨rfl | ⟨he, hne⟩, hnot⟩)
        · exact Or.inl (Or.inr he)
        · exact Or.inl (Or.inl rfl)
        · exact Or.inr ⟨he, hne, hnot⟩
      · rintro ((rfl | he) | ⟨he, hne, hnot⟩)
        · exact Or.inr ⟨Or.inl rfl, hx⟩
        · exact Or.inl he
        · exact Or.inr ⟨Or.inr ⟨he, hne⟩, hnot⟩

/-- Assigned in order, the entries are all that is there if no other key was. -/
theorem mapAssigns_eq_self_iff (h : StrictComparison lt) {es m : List (α × β)}
    (hes : es.Pairwise (fun a b => lt a.1 b.1 = true))
    (hm : m.Pairwise (fun a b => lt a.1 b.1 = true)) :
    mapAssigns lt es m = es ↔ ∀ e ∈ m, e.1 ∈ es.map (·.1) := by
  have hmem := mem_mapAssigns h (h.nodup_keys hes) hm
  constructor
  · intro heq e he
    by_contra hnot
    have hassigned : e ∈ mapAssigns lt es m := (hmem e).mpr (Or.inr ⟨he, hnot⟩)
    rw [heq] at hassigned
    exact hnot (List.mem_map_of_mem hassigned)
  · intro hkeys
    refine h.eq_of_mem_iff (pairwise_mapAssigns h es hm) hes (fun e => ?_)
    rw [hmem]
    exact ⟨fun he => he.elim id (fun he => absurd (hkeys e he.1) he.2), Or.inl⟩

end Order

/-! ## What a read leaves -/

section Overlay

/-- A variable that is overlaid with one value after the other. -/
def carry {α : Type} (f : α → α → α) : α → List α → List α
  | _, [] => []
  | a, x :: xs => f a x :: carry f (f a x) xs

variable (junk : (n : Nat) → BitVec n)

/-- The content of a variable that held `old` after `v` was read into it.  The
entries of a map go through one variable for the keys and one for the values. -/
def overlay : (t : Ty) → t.Val → t.Val → t.Val
  | .vector t, old, v =>
      List.zipWith (overlay t) (CIStream.resize (t.init fun n => 0#n) v.length old) v
  | .map k e, old, v =>
      mapAssigns k.less
        ((carry (overlay k) (k.init junk) (v.map (·.1))).zip
          (carry (overlay e) (e.init junk) (v.map (·.2)))) old
  | .int _ _, _, v | .bool, _, v | .enum _, _, v | .string, _, v | .wstring, _, v => v

/-- A variable that takes each value as it is. -/
theorem carry_eq_self_iff {α : Type} {f : α → α → α} {a : α} {l : List α} :
    carry f a l = l ↔ (a :: l).IsChain (fun a b => f a b = b) := by
  induction l generalizing a with
  | nil => simp [carry]
  | cons x l ih =>
      rw [carry, List.cons.injEq, List.isChain_cons_cons]
      constructor
      · rintro ⟨hx, hl⟩
        rw [hx] at hl
        exact ⟨hx, ih.mp hl⟩
      · rintro ⟨hx, hl⟩
        rw [hx]
        exact ⟨rfl, ih.mpr hl⟩

theorem length_carry {α : Type} (f : α → α → α) (a : α) (l : List α) :
    (carry f a l).length = l.length := by
  induction l generalizing a with
  | nil => rfl
  | cons x l ih => simp [carry, ih]

theorem carry_of_forall {α : Type} {f : α → α → α} (hf : ∀ a b, f a b = b) (a : α) (l : List α) :
    carry f a l = l := by
  induction l generalizing a with
  | nil => rfl
  | cons x l ih => rw [carry, ih, hf]

theorem zipWith_eq_right_iff {α β : Type} {f : α → β → β} {as : List α} {bs : List β}
    (hlen : as.length = bs.length) :
    List.zipWith f as bs = bs ↔ List.Forall₂ (fun a b => f a b = b) as bs := by
  induction as generalizing bs with
  | nil =>
      obtain rfl := List.length_eq_zero_iff.mp hlen.symm
      simp
  | cons a as ih =>
      cases bs with
      | nil => contradiction
      | cons b bs =>
          rw [List.zipWith_cons_cons, List.cons.injEq, List.forall₂_cons, ih (Nat.succ.inj hlen)]

end Overlay

end Dsi
