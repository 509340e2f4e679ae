import Dsi.Stream.Types
import Dsi.Lib.Run

/-!
# Dsi.Stream.Position

The position of a `CIStream` under any sequence of reads.  A scalar is aligned before its
end is compared with the end of the payload, so that a read which fails may leave the
offset behind the payload; the length that is left is an unsigned difference and wraps
around then.  Every other read stays inside.
-/

namespace Dsi

namespace CIStream

/-! ## Raw reads -/

/-- `glen`: a difference of two `size_t`. -/
def glen (s : CIStream) : Nat :=
  (BitVec.ofNat 64 s.mData.length - BitVec.ofNat 64 s.mOffset).toNat

/-- `gbump`. -/
def gbump (len : UInt64) (s : CIStream) : CIStream :=
  if len.toNat ≤ s.glen then
    { s with mOffset := (BitVec.ofNat 64 s.mOffset + BitVec.ofNat 64 len.toNat).toNat }
  else
    { s with mOffset := s.mData.length, mError := true }

/-! ## Reads -/

/-- What can be done with a stream. -/
inductive Read where
  | scalar (w : Width)
  | bool
  | string
  | wstring
  | gbump (len : UInt64)

/-- The stream behind a read; what the variable held before is of no concern for it. -/
def apply (s : CIStream) : Read → CIStream
  | .scalar w => (readInt w.bytes 0 s).2
  | .bool => (readInt 4 0 s).2
  | .string => (readString [] s).2
  | .wstring => (readWString [] s).2
  | .gbump len => s.gbump len

/-- The bytes of the payload that a generic `read(T&)` looks at: an offset and a number. -/
def touchedInt (size : Nat) (s : CIStream) : List (Nat × Nat) :=
  if s.mError then []
  else
    let offset := s.mOffset + padding s.mOffset size
    if offset + size ≤ s.mData.length then [(offset, size)] else []

/-- The bytes that a string of `taken numOfBytes` bytes is constructed from, behind those of
its length. -/
def touchedString (taken : Nat → Nat) (s : CIStream) : List (Nat × Nat) :=
  touchedInt 4 s ++
    let (numOfBytes, s) := readInt 4 0 s
    if ¬ s.mError ∧ 0 < numOfBytes.toNat ∧ numOfBytes.toNat ≤ s.mData.length - s.mOffset then
      [(s.mOffset, taken numOfBytes.toNat)]
    else []

/-- The bytes of the payload that a read looks at. -/
def touched (s : CIStream) : Read → List (Nat × Nat)
  | .scalar w => touchedInt w.bytes s
  | .bool => touchedInt 4 s
  | .string => touchedString id s
  | .wstring => touchedString (· - 1) s
  | .gbump _ => []

/-- The get pointer is inside the payload or at its end, and the length that is left is the
length of what follows it. -/
structure InRange (s : CIStream) : Prop where
  offset : s.mOffset ≤ s.mData.length
  glen : s.glen = s.mData.length - s.mOffset

/-- A read leaves the stream in range, looks at nothing but the payload, and does not take
an error back. -/
structure StaysInRange (s : CIStream) (r : Read) : Prop where
  range : (s.apply r).InRange
  inside : ∀ a ∈ s.touched r, a.1 + a.2 ≤ s.mData.length
  sticky : s.mError = true → (s.apply r).mError = true

/-- The size of the scalar that a read begins with. -/
def Read.size : Read → Nat
  | .scalar w => w.bytes
  | .bool | .string | .wstring => 4
  | .gbump _ => 1

/-- The alignment of the scalar that the read begins with does not lead past the payload. -/
def alignsInside (s : CIStream) (r : Read) : Bool :=
  s.mError || decide (s.mOffset + padding s.mOffset r.size ≤ s.mData.length)

variable {s : CIStream}

theorem glen_of_le (h : s.mOffset ≤ s.mData.length) (hsize : s.mData.length < 2 ^ 64) :
    s.glen = s.mData.length - s.mOffset := by
  unfold glen
  rw [BitVec.toNat_sub, BitVec.toNat_ofNat, BitVec.toNat_ofNat]
  omega

theorem inRange_of_le (h : s.mOffset ≤ s.mData.length) (hsize : s.mData.length < 2 ^ 64) :
    s.InRange := ⟨h, glen_of_le h hsize⟩

/-- Three cases of a generic read. -/
theorem readInt_cases (size : Nat) (old : BitVec (8 * size)) (s : CIStream) :
    (s.mError = true ∧ readInt size old s = (old, s)) ∨
    (s.mError = false ∧ s.mOffset + padding s.mOffset size + size ≤ s.mData.length ∧
      (readInt size old s).2 = { s with mOffset := s.mOffset + padding s.mOffset size + size }) ∨
    (s.mError = false ∧ s.mData.length < s.mOffset + padding s.mOffset size + size ∧
      readInt size old s =
        (old, { s with mOffset := s.mOffset + padding s.mOffset size, mError := true })) := by
  unfold readInt
  cases herror : s.mError with
  | true => exact .inl ⟨rfl, by simp⟩
  | false =>
      by_cases hfits : s.mOffset + padding s.mOffset size + size ≤ s.mData.length
      · exact .inr (.inl ⟨rfl, hfits, by simp [hfits]⟩)
      · exact .inr (.inr ⟨rfl, Nat.lt_of_not_le hfits, by simp [hfits]⟩)

/-! ## One read -/

/-- Where both kinds of strings leave the stream. -/
def skipString (s : CIStream) : CIStream :=
  let (numOfBytes, s) := readInt 4 0 s
  if ¬ s.mError ∧ 0 < numOfBytes.toNat then
    if numOfBytes.toNat ≤ s.mData.length - s.mOffset then
      { s with mOffset := s.mOffset + numOfBytes.toNat }
    else { s with mError := true }
  else s

theorem readInt_of_mError {size : Nat} (old : BitVec (8 * size)) (h : s.mError = true) :
    readInt size old s = (old, s) := by
  unfold readInt
  rw [if_pos h]

theorem skipString_of_mError (h : s.mError = true) : s.skipString = s := by
  unfold skipString
  rw [readInt_of_mError 0 h]
  simp [h]

theorem readString_snd (old : List UInt8) (s : CIStream) : (readString old s).2 = s.skipString := by
  unfold readString
  split
  · next h => exact (skipString_of_mError h).symm
  · unfold skipString
    dsimp only
    split
    · split <;> rfl
    · rfl

theorem readWString_snd (old : List Int) (s : CIStream) : (readWString old s).2 = s.skipString := by
  unfold readWString
  split
  · next h => exact (skipString_of_mError h).symm
  · unfold skipString
    dsimp only
    split
    · split <;> rfl
    · rfl

theorem padding_one (offset : Nat) : padding offset 1 = 0 := by
  simp [padding]

/-- A generic read keeps an error. -/
theorem mError_readInt {size : Nat} (old : BitVec (8 * size)) (h : s.mError = true) :
    (readInt size old s).2.mError = true := by
  rw [readInt_of_mError old h]
  exact h

/-- What a generic read does to a stream that is in range. -/
theorem range_readInt {size : Nat} (old : BitVec (8 * size)) (h : s.InRange)
    (hsize : s.mData.length < 2 ^ 64) : (readInt size old s).2.InRange ↔
      (s.mError || decide (s.mOffset + padding s.mOffset size ≤ s.mData.length)) = true := by
  obtain ⟨herror, heq⟩ | ⟨herror, hfits, heq⟩ | ⟨herror, hshort, heq⟩ := readInt_cases size old s
  · rw [heq, herror]
    simp [h]
  · rw [heq, herror, Bool.false_or, decide_eq_true_eq]
    exact ⟨fun _ => by omega, fun _ => inRange_of_le hfits hsize⟩
  · rw [heq, herror, Bool.false_or, decide_eq_true_eq]
    exact ⟨fun hr => hr.offset, fun hle => inRange_of_le hle hsize⟩

theorem inside_touchedInt {size : Nat} : ∀ a ∈ touchedInt size s, a.1 + a.2 ≤ s.mData.length := by
  unfold touchedInt
  intro a ha
  split at ha
  · cases ha
  · dsimp only at ha
    split at ha
    · next hfits =>
      obtain rfl := List.mem_singleton.mp ha
      exact hfits
    · cases ha

theorem mData_readInt {size : Nat} (old : BitVec (8 * size)) :
    (readInt size old s).2.mData = s.mData := by
  obtain ⟨_, heq⟩ | ⟨_, _, heq⟩ | ⟨_, _, heq⟩ := readInt_cases size old s <;> rw [heq]

/-- A string begins with its length, and does not pass the end behind it. -/
theorem range_skipString (hsize : s.mData.length < 2 ^ 64) :
    s.skipString.InRange ↔ (readInt 4 0 s).2.InRange := by
  have hdata : (readInt 4 0 s).2.mData = s.mData := mData_readInt 0
  unfold skipString
  generalize readInt 4 0 s = r at hdata
  obtain ⟨n, s'⟩ := r
  dsimp only at hdata ⊢
  rw [← hdata] at hsize
  split
  · split
    · next hfits =>
      refine ⟨fun hr => ?_, fun hr => inRange_of_le ?_ hsize⟩
      · exact inRange_of_le (Nat.le_trans (Nat.le_add_right _ _) hr.offset) hsize
      · have hle := hr.offset
        show s'.mOffset + n.toNat ≤ s'.mData.length
        omega
    · exact ⟨fun hr => inRange_of_le hr.offset hsize, fun hr => inRange_of_le hr.offset hsize⟩
  · rfl

theorem inside_touchedString {taken : Nat → Nat} (htaken : ∀ n, taken n ≤ n) :
    ∀ a ∈ s.touchedString taken, a.1 + a.2 ≤ s.mData.length := by
  intro a ha
  rcases List.mem_append.mp ha with hlen | ha
  · exact inside_touchedInt a hlen
  · have hcases := readInt_cases 4 0 s
    generalize readInt 4 0 s = r at hcases ha
    obtain ⟨n, s'⟩ := r
    dsimp only at ha
    split at ha
    · next hcond =>
      obtain rfl := List.mem_singleton.mp ha
      have hn := htaken n.toNat
      obtain ⟨herror, heq⟩ | ⟨_, hfits, rfl⟩ | ⟨_, _, heq⟩ := hcases
      · obtain ⟨-, rfl⟩ := Prod.mk.inj heq
        exact absurd herror hcond.1
      · have hleft := hcond.2.2
        dsimp only at hleft ⊢
        omega
      · obtain ⟨-, rfl⟩ := Prod.mk.inj heq
        exact absurd rfl hcond.1
    · cases ha

/-- `gbump` stops at the end. -/
theorem range_gbump (h : s.InRange) (hsize : s.mData.length < 2 ^ 64) (len : UInt64) :
    (s.gbump len).InRange := by
  have hle := h.offset
  unfold gbump
  split
  · next hlen =>
    rw [h.glen] at hlen
    refine inRange_of_le ?_ hsize
    simp only [BitVec.toNat_add, BitVec.toNat_ofNat]
    omega
  · exact inRange_of_le (Nat.le_refl _) hsize

theorem mError_skipString (h : s.mError = true) : s.skipString.mError = true := by
  rw [skipString_of_mError h]
  exact h

theorem mError_gbump (h : s.mError = true) (len : UInt64) : (s.gbump len).mError = true := by
  unfold gbump
  split
  · exact h
  · rfl

/-- A read keeps the stream in range exactly when the alignment of its scalar does. -/
theorem staysInRange_iff (h : s.InRange) (hsize : s.mData.length < 2 ^ 64) (r : Read) :
    s.StaysInRange r ↔ s.alignsInside r = true := by
  have hstring : s.skipString.InRange ↔ s.alignsInside .string = true :=
    (range_skipString hsize).trans (range_readInt 0 h hsize)
  cases r with
  | scalar w =>
      refine ⟨fun hs => (range_readInt 0 h hsize).mp hs.range, fun hc => ?_⟩
      exact ⟨(range_readInt 0 h hsize).mpr hc, inside_touchedInt, mError_readInt 0⟩
  | bool =>
      refine ⟨fun hs => (range_readInt 0 h hsize).mp hs.range, fun hc => ?_⟩
      exact ⟨(range_readInt 0 h hsize).mpr hc, inside_touchedInt, mError_readInt 0⟩
  | string =>
      have happly : s.apply .string = s.skipString := readString_snd [] s
      refine ⟨fun hs => hstring.mp (happly ▸ hs.range), fun hc => ⟨?_, ?_, fun he => ?_⟩⟩
      · rw [happly]
        exact hstring.mpr hc
      · exact inside_touchedString Nat.le_refl
      · rw [happly]
        exact mError_skipString he
  | wstring =>
      have happly : s.apply .wstring = s.skipString := readWString_snd [] s
      refine ⟨fun hs => hstring.mp (happly ▸ hs.range), fun hc => ⟨?_, ?_, fun he => ?_⟩⟩
      · rw [happly]
        exact hstring.mpr hc
      · exact inside_touchedString (fun n => Nat.sub_le n 1)
      · rw [happly]
        exact mError_skipString he
  | gbump len =>
      refine ⟨fun _ => ?_, fun _ => ?_⟩
      · simp [alignsInside, Read.size, padding_one, h.offset]
      · exact ⟨range_gbump h hsize len, fun _ ha => (by cases ha), fun he => mError_gbump he len⟩

/-! ## Sequences of reads -/

theorem mData_apply (s : CIStream) (r : Read) : (s.apply r).mData = s.mData := by
  have hskip : s.skipString.mData = s.mData := by
    have hdata : (readInt 4 0 s).2.mData = s.mData := mData_readInt 0
    unfold skipString
    dsimp only
    split
    · split <;> exact hdata
    · exact hdata
  cases r with
  | scalar w => exact mData_readInt 0
  | bool => exact mData_readInt 0
  | string => exact (congrArg mData (readString_snd [] s)).trans hskip
  | wstring => exact (congrArg mData (readWString_snd [] s)).trans hskip
  | gbump len =>
      show (s.gbump len).mData = s.mData
      unfold gbump
      split <;> rfl

/-- From a stream in range on, every read stays in range exactly when every scalar that is
read without an error is aligned inside the payload. -/
theorem along_staysInRange_iff (h : s.InRange) (hsize : s.mData.length < 2 ^ 64)
    (rs : List Read) : Run.Along apply StaysInRange s rs ↔
      Run.Along apply (fun s r => s.alignsInside r = true) s rs := by
  have hstep (s : CIStream) (r : Read) (hs : s.InRange ∧ s.mData.length < 2 ^ 64)
      (hr : s.StaysInRange r) : (s.apply r).InRange ∧ (s.apply r).mData.length < 2 ^ 64 :=
    ⟨hr.range, (mData_apply s r).symm ▸ hs.2⟩
  constructor
  · exact Run.along_of_invariant hstep (fun s r hs => (staysInRange_iff hs.1 hs.2 r).mp) ⟨h, hsize⟩
  · exact Run.along_of_invariant
      (fun s r hs hc => hstep s r hs ((staysInRange_iff hs.1 hs.2 r).mpr hc))
      (fun s r hs => (staysInRange_iff hs.1 hs.2 r).mpr) ⟨h, hsize⟩

/-- Whatever is read from a payload, in any order: the position stays in range exactly when
no scalar is aligned past the end. -/
theorem position_in_range_iff (payload : List UInt8) (hsize : payload.length < 2 ^ 64)
    (rs : List Read) : Run.Along apply StaysInRange (create payload) rs ↔
      Run.Along apply (fun s r => s.alignsInside r = true) (create payload) rs :=
  along_staysInRange_iff (inRange_of_le (Nat.zero_le _) hsize) hsize rs

/-- A string that is too long and a jump past the end leave the stream in range. -/
theorem position_in_range_string :
    Run.Along apply StaysInRange (create [9, 0, 0, 0, 65, 66])
      [.string, .gbump 7, .wstring, .scalar .w64] :=
  (position_in_range_iff _ (by decide) _).mpr (by decide)

/-- One byte is read, and then an integer of four: the offset is 4 in a payload of one byte,
and 2^64 - 3 bytes are left. -/
theorem not_position_in_range_aligned :
    let rs := [Read.scalar .w8, .scalar .w32]
    let s := Run.run apply (create [7]) rs
    s.mOffset = 4 ∧ s.glen = 2 ^ 64 - 3 ∧ (s.gbump 100).mOffset = 104 ∧
      ¬ Run.Along apply StaysInRange (create [7]) rs := by
  refine ⟨by decide, by decide, by decide, fun h => ?_⟩
  have hle := h.2.1.range.offset
  revert hle
  decide

end CIStream

end Dsi
