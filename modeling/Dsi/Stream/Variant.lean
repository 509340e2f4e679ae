import Dsi.Stream.Overwrite

/-!
# Dsi.Stream.Variant

Variants on a stream (`TVariant.hpp`, `TypeListAlgos.hpp` and the operators in
`COStream.hpp` and `CIStream.hpp`).  The writer sends the type ID, which is the
position of the stored type in the type list plus one, and then the value.  The
reader creates the alternative through a table of its own and reads the value
into it.
-/

namespace Dsi

/-- The operators of the types that stand in a variant; a writer only appends. -/
structure StreamTypes (τ : Type) where
  Val : τ → Type
  /-- `T()` -/
  create : (t : τ) → Val t
  write : (t : τ) → Val t → COStream → COStream
  read : (t : τ) → Val t → CIStream → Option (Val t × CIStream)
  le_write : ∀ t v out, out <+: write t v out

/-- The type list of a variant. -/
structure TypeList (τ : Type) where
  types : List τ
  two_le : 2 ≤ types.length
  le_fifteen : types.length ≤ 15

namespace TypeList

variable {τ : Type} [DecidableEq τ] (ts : TypeList τ)

/-- A type that occurs in the list. -/
abbrev Alternative := { t : τ // t ∈ ts.types }

def Size : Nat := ts.types.length

/-- `Find`: the first position of a type. -/
def Find (t : ts.Alternative) : Nat := ts.types.idxOf t.val

/-- `RelaxedTypeAt`; no type stands for `SNilType`. -/
def RelaxedTypeAt (n : Nat) : Option ts.Alternative :=
  if h : n < ts.types.length then some ⟨ts.types[n], List.getElem_mem h⟩ else none

def typeIdOf (t : ts.Alternative) : Nat := ts.Find t + 1

theorem find_lt (t : ts.Alternative) : ts.Find t < ts.Size := List.idxOf_lt_length_iff.mpr t.2

@[simp]
theorem relaxedTypeAt_find (t : ts.Alternative) : ts.RelaxedTypeAt (ts.Find t) = some t := by
  simp [RelaxedTypeAt, Find, List.idxOf_lt_length_iff.mpr t.2]

/-- A type that stands at some position of the list is found there or before. -/
theorem find_le_of_relaxedTypeAt {n : Nat} {t : ts.Alternative}
    (h : ts.RelaxedTypeAt n = some t) : ts.Find t ≤ n := by
  rw [RelaxedTypeAt] at h
  split at h
  · next hn =>
    obtain rfl := Option.some.inj h
    by_contra hlt
    have hbefore := List.not_of_lt_findIdx (Nat.lt_of_not_le hlt)
    simp at hbefore
  · contradiction

end TypeList

section Variant

variable {τ : Type} [DecidableEq τ] (S : StreamTypes τ) (ts : TypeList τ)

/-- `TVariant`: empty, or a value of a type of the list.  `mIdx` goes with the
type, since it is only set together with it. -/
inductive TVariant where
  | unset
  | of (t : ts.Alternative) (value : S.Val t.val)

namespace TVariant

variable {S ts}

def mIdx : TVariant S ts → Nat
  | .unset => 0
  | .of t _ => ts.typeIdOf t

/-- `getTypeId`. -/
def getTypeId (v : TVariant S ts) : Nat := v.mIdx

def isEmpty (v : TVariant S ts) : Bool := v.mIdx == 0

/-- `get<T>`: `NULL` if the stored type is another one.  The source compares the type IDs, that is
the first positions of the types in the list. -/
def get (t : ts.Alternative) : TVariant S ts → Option (S.Val t.val)
  | .unset => none
  | .of u value => if h : u = t then some (h ▸ value) else none

end TVariant

/-! ## The function tables -/

/-- An entry of the table of `TVariantHelper::eval`. -/
inductive Callfunc where
  | void
  | nil
  | value (t : ts.Alternative)

/-- How many types the table has entries for: the helper is specialised for
up to five types and stands for 15 otherwise. -/
def TVariantHelper.tableSize (size : Nat) : Nat := if size ≤ 5 then size else 15

def TVariantHelper.funcs : List (Callfunc ts) :=
  .void :: (List.range (tableSize ts.Size)).map fun n =>
    match ts.RelaxedTypeAt n with
    | some t => .value t
    | none => .nil

variable {S ts} in
/-- `TVariantHelper::eval` with a visitor for the empty variant and one for each
type.  There is no result for an entry outside the table and for a null pointer. -/
def TVariantHelper.eval {ρ : Type} (visitEmpty : ρ) (visit : (t : ts.Alternative) → S.Val t.val → ρ)
    (i : Nat) (v : TVariant S ts) : Option ρ :=
  match (funcs ts)[i]? with
  | some .void => some visitEmpty
  | some .nil => some visitEmpty
  | some (.value t) => (v.get t).map (visit t)
  | none => none

/-- The positions in the type list that the table of
`VariantDeserializationHelper::reset` names, after its first entry. -/
def VariantDeserializationHelper.positions : List Nat :=
  [0, 1, 2, 3, 4, 5, 6, 7, 7, 8, 10, 11, 12, 13, 14]

def VariantDeserializationHelper.funcs : List (Option ts.Alternative) :=
  none :: positions.map ts.RelaxedTypeAt

/-- `VariantDeserializationHelper::reset`; what the variant held is destroyed. -/
def VariantDeserializationHelper.reset (idx : Int) : TVariant S ts :=
  if 0 < idx ∧ idx ≤ ts.Size then
    match (funcs ts)[idx.toNat]? with
    | some (some t) => .of t (S.create t.val)
    | _ => .unset
  else .unset

/-! ## The operators -/

variable {S ts}

/-- `operator<<`. -/
def TVariant.write (raw : Nat → UInt8) (v : TVariant S ts) (os : COStream) : Option COStream :=
  let os := COStream.writeInt raw 4 v.getTypeId os
  TVariantHelper.eval os (fun t value => S.write t.val value os) v.mIdx v

variable (S ts) in
/-- `operator>>`. -/
def TVariant.read (is : CIStream) : Option (TVariant S ts × CIStream) :=
  let (typeId, is) := CIStream.readInt 4 0 is
  let var := VariantDeserializationHelper.reset S ts typeId.toInt
  if var.isEmpty then some (var, is)
  else
    -- a visit of the empty variant is an assertion
    (TVariantHelper.eval none
      (fun t value => (S.read t.val value is).map fun (value, is) => (TVariant.of t value, is))
      var.mIdx var).join

/-! ## What the tables name -/

omit [DecidableEq τ] in
theorem TVariantHelper.size_le_tableSize (ts : TypeList τ) : ts.Size ≤ tableSize ts.Size := by
  have hle : ts.Size ≤ 15 := ts.le_fifteen
  rw [tableSize]
  split <;> omega

/-- The writer's table has every type at its type ID. -/
theorem TVariantHelper.funcs_typeIdOf (t : ts.Alternative) :
    (funcs ts)[ts.typeIdOf t]? = some (.value t) := by
  have hlt : ts.Find t < tableSize ts.Size :=
    Nat.lt_of_lt_of_le (ts.find_lt t) (size_le_tableSize ts)
  simp [funcs, TypeList.typeIdOf, hlt]

@[simp]
theorem TVariantHelper.eval_of {ρ : Type} {visitEmpty : ρ}
    {visit : (t : ts.Alternative) → S.Val t.val → ρ} (t : ts.Alternative) (value : S.Val t.val) :
    eval visitEmpty visit (ts.typeIdOf t) (.of t value) = some (visit t value) := by
  simp [eval, funcs_typeIdOf, TVariant.get]

@[simp]
theorem TVariantHelper.eval_unset {ρ : Type} {visitEmpty : ρ}
    {visit : (t : ts.Alternative) → S.Val t.val → ρ} (v : TVariant S ts) :
    eval visitEmpty visit 0 v = some visitEmpty := by
  simp [eval, funcs]

namespace VariantDeserializationHelper

/-- Which of its own types the reader's table has at a type ID. -/
theorem reset_typeIdOf {t u : ts.Alternative} {n : Nat} (hn : positions[ts.Find t]? = some n)
    (hu : ts.RelaxedTypeAt n = some u) :
    reset S ts (ts.typeIdOf t) = .of u (S.create u.val) := by
  have hlt := ts.find_lt t
  have hrange : 0 < (ts.typeIdOf t : Int) ∧ (ts.typeIdOf t : Int) ≤ ts.Size := by
    simp only [TypeList.typeIdOf]
    omega
  rw [reset, if_pos hrange]
  simp [funcs, TypeList.typeIdOf, hn, hu]

/-- Every type ID but two names the type that the writer means. -/
theorem reset_of_ne {t : ts.Alternative} (h9 : ts.typeIdOf t ≠ 9) (h10 : ts.typeIdOf t ≠ 10) :
    reset S ts (ts.typeIdOf t) = .of t (S.create t.val) := by
  have hpositions : ∀ n < 15, n + 1 ≠ 9 → n + 1 ≠ 10 → positions[n]? = some n := by decide
  have hlt : ts.Find t < 15 := Nat.lt_of_lt_of_le (ts.find_lt t) ts.le_fifteen
  exact reset_typeIdOf (hpositions _ hlt h9 h10) (ts.relaxedTypeAt_find t)

/-- At those two it names the type before. -/
theorem exists_reset_of_eq {t : ts.Alternative} (h : ts.typeIdOf t = 9 ∨ ts.typeIdOf t = 10) :
    ∃ u ≠ t, reset S ts (ts.typeIdOf t) = .of u (S.create u.val) := by
  obtain ⟨n, hfind, hn⟩ : ∃ n, ts.Find t = n + 1 ∧ positions[n + 1]? = some n := by
    rcases h with h | h
    · exact ⟨7, Nat.succ.inj h, rfl⟩
    · exact ⟨8, Nat.succ.inj h, rfl⟩
  have hlt : n < ts.types.length := by
    have hsize := ts.find_lt t
    rw [hfind] at hsize
    exact Nat.lt_of_succ_lt hsize
  have hat : ts.RelaxedTypeAt n = some ⟨ts.types[n], List.getElem_mem hlt⟩ := dif_pos hlt
  refine ⟨_, fun hut => ?_, reset_typeIdOf (hfind ▸ hn) hat⟩
  have hle := ts.find_le_of_relaxedTypeAt hat
  rw [hut, hfind] at hle
  omega

end VariantDeserializationHelper

/-! ## Round trips -/

section RoundTrip

variable (raw : Nat → UInt8)

/-- At this place of the stream the value is read back into a new variable, and
the offset ends behind it. -/
def ReadsBack (S : StreamTypes τ) (t : τ) (value : S.Val t) (out : COStream) : Prop :=
  ∀ data, S.write t value out <+: data →
    S.read t (S.create t) ⟨data, out.length, false⟩ =
      some (value, ⟨data, (S.write t value out).length, false⟩)

/-- At this place of the stream the variant is written, and what is read is the
variant again, with the offset behind the bytes written. -/
def TVariant.RoundTrips (v : TVariant S ts) (out : COStream) : Prop :=
  ∃ os, v.write raw out = some os ∧ ∀ data, os <+: data →
    TVariant.read S ts ⟨data, out.length, false⟩ = some (v, ⟨data, os.length, false⟩)

/-- What follows the type ID is read into what `reset` made of it. -/
theorem TVariant.read_typeId {data : List UInt8} {out : COStream} {n : Nat} (hn : n < 2 ^ 31)
    (h : COStream.writeInt raw 4 n out <+: data) :
    TVariant.read S ts ⟨data, out.length, false⟩ =
      match VariantDeserializationHelper.reset S ts n with
      | .unset => some (.unset, ⟨data, (COStream.writeInt raw 4 n out).length, false⟩)
      | .of t value =>
          (S.read t.val value ⟨data, (COStream.writeInt raw 4 n out).length, false⟩).map
            fun (value, is) => (.of t value, is) := by
  have hnat : (BitVec.ofNat (8 * 4) n).toNat = n := by
    rw [BitVec.toNat_ofNat, Nat.mod_eq_of_lt (Nat.lt_trans hn (by decide))]
  have hint : (BitVec.ofNat (8 * 4) n).toInt = n := CIStream.toInt_of_lt hnat hn
  simp only [TVariant.read, CIStream.readInt_writeInt raw 0 h, hint]
  cases VariantDeserializationHelper.reset S ts n with
  | unset => simp [isEmpty, mIdx]
  | of t value =>
      have hne : ts.typeIdOf t ≠ 0 := Nat.succ_ne_zero _
      simp [isEmpty, mIdx, hne]

/-- The tables agree on the type ID, and the value is read back behind it. -/
def TVariant.Recreated (out : COStream) : TVariant S ts → Prop
  | .unset => True
  | .of t value =>
      ts.typeIdOf t ≠ 9 ∧ ts.typeIdOf t ≠ 10 ∧
        ReadsBack S t.val value (COStream.writeInt raw 4 (ts.typeIdOf t) out)

theorem TypeList.typeIdOf_lt (t : ts.Alternative) : ts.typeIdOf t < 2 ^ 31 := by
  have hlt : ts.Find t < 15 := Nat.lt_of_lt_of_le (ts.find_lt t) ts.le_fifteen
  rw [typeIdOf]
  omega

theorem TVariant.roundTrips_unset (out : COStream) :
    (TVariant.unset : TVariant S ts).RoundTrips raw out := by
  refine ⟨COStream.writeInt raw 4 0 out, by simp [write, getTypeId, mIdx], fun data h => ?_⟩
  rw [read_typeId raw (by decide) h]
  simp [VariantDeserializationHelper.reset]

/-- The bytes of a value behind those of its type ID. -/
theorem TVariant.write_of (t : ts.Alternative) (value : S.Val t.val) (out : COStream) :
    (TVariant.of t value : TVariant S ts).write raw out =
      some (S.write t.val value (COStream.writeInt raw 4 (ts.typeIdOf t) out)) := by
  simp [write, getTypeId, mIdx]

theorem TVariant.roundTrips_of_iff (t : ts.Alternative) (value : S.Val t.val) (out : COStream) :
    (TVariant.of t value : TVariant S ts).RoundTrips raw out ↔
      ts.typeIdOf t ≠ 9 ∧ ts.typeIdOf t ≠ 10 ∧
        ReadsBack S t.val value (COStream.writeInt raw 4 (ts.typeIdOf t) out) := by
  have hword {data}
    (h : S.write t.val value (COStream.writeInt raw 4 (ts.typeIdOf t) out) <+: data) :
      COStream.writeInt raw 4 (ts.typeIdOf t) out <+: data := (S.le_write _ _ _).trans h
  rw [RoundTrips, write_of]
  constructor
  · rintro ⟨os, hos, hread⟩
    obtain rfl := Option.some.inj hos
    by_cases h : ts.typeIdOf t = 9 ∨ ts.typeIdOf t = 10
    · -- the alternative that is created is not the one that was written
      obtain ⟨u, hut, hreset⟩ := VariantDeserializationHelper.exists_reset_of_eq (S := S) h
      have hsame := hread _ (List.prefix_refl _)
      rw [read_typeId raw (ts.typeIdOf_lt t) (hword (List.prefix_refl _)), hreset] at hsame
      obtain ⟨⟨y, is⟩, -, heq⟩ := Option.map_eq_some_iff.mp hsame
      exact absurd (TVariant.of.inj (Prod.mk.inj heq).1).1 hut
    · obtain ⟨h9, h10⟩ := not_or.mp h
      refine ⟨h9, h10, fun data hdata => ?_⟩
      have hsame := hread data hdata
      rw [read_typeId raw (ts.typeIdOf_lt t) (hword hdata),
        VariantDeserializationHelper.reset_of_ne h9 h10] at hsame
      obtain ⟨⟨y, is⟩, hy, heq⟩ := Option.map_eq_some_iff.mp hsame
      simp only [Prod.mk.injEq, TVariant.of.injEq, heq_eq_eq, true_and] at heq
      rw [hy, heq.1, heq.2]
  · rintro ⟨h9, h10, hback⟩
    refine ⟨_, rfl, fun data hdata => ?_⟩
    rw [read_typeId raw (ts.typeIdOf_lt t) (hword hdata),
      VariantDeserializationHelper.reset_of_ne h9 h10]
    simp [hback data hdata]

theorem TVariant.roundTrips_iff_recreated (v : TVariant S ts) (out : COStream) :
    v.RoundTrips raw out ↔ v.Recreated raw out := by
  cases v with
  | unset => exact iff_of_true (roundTrips_unset raw out) trivial
  | of t value => exact roundTrips_of_iff raw t value out

end RoundTrip

end Variant

/-! ## Variants of the types of the streams -/

section Types

variable (raw : Nat → UInt8) (junk : (n : Nat) → BitVec n)

/-- The types that both streams have operators for. -/
def Ty.streamTypes : StreamTypes Ty where
  Val := Ty.Val
  create t := t.init fun n => 0#n
  write := COStream.write raw
  read := CIStream.read junk
  le_write t v out := CIStream.le_write raw t v out

theorem readsBack_streamTypes_iff {t : Ty} {v : t.Val} (hfree : t.KeysMapFree) (hvalid : t.Valid v)
    (hfits : t.Fits v) (out : COStream) :
    ReadsBack (Ty.streamTypes raw junk) t v out ↔ t.Overwrites (t.init fun n => 0#n) v := by
  have hordered := Ty.ordered_init (fun n => 0#n) t
  constructor
  · intro h
    refine overwrites_of_overlay junk hfree hordered hvalid ?_
    have hread := h _ (List.prefix_refl _)
    simp only [Ty.streamTypes] at hread
    rw [CIStream.read_overlay raw junk t v _ hvalid hfits out (List.prefix_refl _)] at hread
    exact (Prod.mk.inj (Option.some.inj hread)).1
  · intro h data hdata
    simp only [Ty.streamTypes] at hdata ⊢
    rw [CIStream.read_overlay raw junk t v _ hvalid hfits out hdata,
      overlay_of_overwrites junk hordered hvalid h]

/-- **Variants on a stream**: a variant comes back, with the offset behind it, if
and only if it is empty, or its type ID is not 9 or 10 and the operators of its
alternative read the value back.  For the types of the streams the latter says
that the value overwrites a new one. -/
theorem TVariant.roundTrips_iff :
    (∀ {τ : Type} [DecidableEq τ] {S : StreamTypes τ} {ts : TypeList τ} (v : TVariant S ts)
      (out : COStream), v.RoundTrips raw out ↔ v.Recreated raw out) ∧
    ∀ (ts : TypeList Ty) (t : ts.Alternative) (value : t.val.Val) (out : COStream),
      t.val.KeysMapFree → t.val.Valid value → t.val.Fits value →
        ((TVariant.of t value : TVariant (Ty.streamTypes raw junk) ts).RoundTrips raw out ↔
          ts.typeIdOf t ≠ 9 ∧ ts.typeIdOf t ≠ 10 ∧
            t.val.Overwrites (t.val.init fun n => 0#n) value) := by
  refine ⟨fun v out => v.roundTrips_iff_recreated raw out, ?_⟩
  intro ts t value out hfree hvalid hfits
  have hback := readsBack_streamTypes_iff raw junk hfree hvalid hfits
  refine (roundTrips_of_iff (S := Ty.streamTypes raw junk) raw t value out).trans ?_
  exact and_congr_right' (and_congr_right' (hback _))

end Types

/-- Nine types, of which the last two are written alike. -/
def nineTypes : TypeList Ty where
  types := [.bool, .string, .wstring, .int true .w8, .int true .w16, .int true .w32,
    .int true .w64, .int false .w32, .enum false]
  two_le := by decide
  le_fifteen := by decide

/-- A string comes back as the second of nine alternatives. -/
theorem roundTrips_string_of_nine :
    (TVariant.of ⟨.string, by decide⟩ [0x61] :
      TVariant (Ty.streamTypes (fun _ => 0xee) fun n => -1#n) nineTypes).RoundTrips
        (fun _ => 0xee) [7] := by
  refine ((TVariant.roundTrips_iff _ _).2 nineTypes ⟨.string, by decide⟩ [0x61] [7]
    trivial trivial (by simp [Ty.Fits])).mpr ⟨by decide, by decide, trivial⟩

/-- The ninth alternative comes back as the eighth. -/
theorem not_roundTrips_ninth :
    ¬ (TVariant.of ⟨.enum false, by decide⟩ 5#32 :
      TVariant (Ty.streamTypes (fun _ => 0) fun n => 0#n) nineTypes).RoundTrips
        (fun _ => 0) [] := by
  rintro ⟨os, hos, hread⟩
  obtain rfl : [9, 0, 0, 0, 5, 0, 0, 0] = os := Option.some.inj hos
  have heighth : TVariant.read (Ty.streamTypes (fun _ => 0) fun n => 0#n) nineTypes
      ⟨[9, 0, 0, 0, 5, 0, 0, 0], 0, false⟩ =
      some (.of ⟨.int false .w32, by decide⟩ 5#32, ⟨[9, 0, 0, 0, 5, 0, 0, 0], 8, false⟩) := by rfl
  have hsame := heighth.symm.trans (hread _ (List.prefix_refl _))
  have htype := (TVariant.of.inj (Prod.mk.inj (Option.some.inj hsame)).1).1
  simp at htype

end Dsi
