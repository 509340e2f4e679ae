import Dsi.Stream.Types

/-!
# Dsi.Stream.Attributes

The attributes of a service and their updates (`include/dsi/private/attributes.hpp`),
and what the generated stub and proxy do with them (`CDSIStub.cpp.jet`,
`CDSIProxy.cpp.jet`): a complete update is one value on the stream, a partial
update of a vector is its kind, a position, a count and the elements sent.

No value stands for an access outside a vector and for the exception that
`resize` throws.
-/

namespace Dsi

/-- `DataStateType`. -/
inductive DataStateType where
  | DATA_NOT_AVAILABLE
  | DATA_INVALID
  | DATA_OK
  deriving DecidableEq, Repr

/-- `UpdateType`. -/
inductive UpdateType where
  | UPDATE_NONE
  | UPDATE_COMPLETE
  | UPDATE_INSERT
  | UPDATE_REPLACE
  | UPDATE_DELETE
  deriving DecidableEq, Repr

/-- The enumerator, as it is written to a stream. -/
def UpdateType.bits : UpdateType → BitVec 32
  | .UPDATE_NONE => -1
  | .UPDATE_COMPLETE => 0
  | .UPDATE_INSERT => 1
  | .UPDATE_REPLACE => 2
  | .UPDATE_DELETE => 3

/-- `AttributeBase`. -/
structure AttributeBase (t : Ty) where
  mValue : t.Val
  mState : DataStateType

/-- `ServerAttribute`, the attribute of a stub. -/
abbrev ServerAttribute := AttributeBase

/-- `ClientAttribute`, the copy of a proxy. -/
abbrev ClientAttribute := AttributeBase

/-! ## Complete updates -/

/-- `operator<<(COStream&, ServerAttribute)`. -/
def ServerAttribute.write {t : Ty} (raw : Nat → UInt8) (attr : ServerAttribute t)
    (ostream : COStream) : COStream :=
  COStream.write raw t attr.mValue ostream

/-- `operator>>(CIStream&, ClientAttribute)`: the value is read over the old one. -/
def ClientAttribute.read {t : Ty} (junk : (n : Nat) → BitVec n) (attr : ClientAttribute t)
    (istream : CIStream) : Option (ClientAttribute t × CIStream) :=
  (CIStream.read junk t attr.mValue istream).map fun (v, s) => ({ attr with mValue := v }, s)

/-! ## Vectors -/

section Vectors

variable {α : Type}

/-- `v.insert(v.begin() + position, from.begin(), from.end())`. -/
def insertAt (position : Int) (source v : List α) : Option (List α) :=
  if 0 ≤ position ∧ position ≤ v.length then
    some (v.take position.toNat ++ source ++ v.drop position.toNat)
  else none

/-- `std::copy(from.begin(), from.end(), v.begin() + position)`. -/
def copyTo (position : Int) (source v : List α) : Option (List α) :=
  if 0 ≤ position ∧ position + source.length ≤ v.length then
    some (v.take position.toNat ++ source ++ v.drop (position.toNat + source.length))
  else none

/-- `v.erase(v.begin() + position, v.begin() + position + count)`. -/
def eraseRange (position count : Int) (v : List α) : Option (List α) :=
  if 0 ≤ position ∧ 0 ≤ count ∧ position + count ≤ v.length then
    some (v.take position.toNat ++ v.drop (position.toNat + count.toNat))
  else none

/-- `count` elements from `&v[position]` on. -/
def slice (position count : Int) (v : List α) : Option (List α) :=
  if 0 ≤ position ∧ 0 ≤ count ∧ position + count ≤ v.length then
    some ((v.drop position.toNat).take count.toNat)
  else none

end Vectors

/-! ## Partial updates -/

/-- A negative position stands for the start of the vector. -/
def normalPosition (position : Int16) : Int16 := if position < 0 then 0 else position

/-- A size that is assigned to an `int16_t`. -/
def restCount (size : Nat) (position : Int16) : Int16 := Int16.ofInt (size - position.toInt)

/-- `ServerAttribute<std::vector<T> >::set`, with the position and the count it
gives back. -/
def ServerAttribute.set {t : Ty} (source : List t.Val) (type : UpdateType) (position count : Int16)
    (attr : ServerAttribute (.vector t)) :
    Option (ServerAttribute (.vector t) × Int16 × Int16) :=
  let position := normalPosition position
  let done (v : List t.Val) (position count : Int16) :
      ServerAttribute (.vector t) × Int16 × Int16 :=
    ({ mValue := v, mState := .DATA_OK }, position, count)
  match type with
  | .UPDATE_COMPLETE => some (done source 0 (Int16.ofNat source.length))
  | .UPDATE_INSERT =>
      (insertAt position.toInt source attr.mValue).map
        (done · position (Int16.ofNat source.length))
  | .UPDATE_REPLACE =>
      (copyTo position.toInt source attr.mValue).map
        (done · position (Int16.ofNat source.length))
  | .UPDATE_DELETE =>
      let count := if count < 0 then restCount attr.mValue.length position else count
      (eraseRange position.toInt count.toInt attr.mValue).map (done · position count)
  | .UPDATE_NONE => some (done attr.mValue position count)

/-- `writePartialAttribute`. -/
def writePartialAttribute (raw : Nat → UInt8) {t : Ty} (v : List t.Val) (type : UpdateType)
    (position count : Int16) (ostream : COStream) : Option COStream :=
  let position := normalPosition position
  let count := if count < 0 then restCount v.length position else count
  let ostream := COStream.write raw (.enum true) type.bits ostream
  let ostream := COStream.write raw (.int true .w16) position.toBitVec ostream
  let ostream := COStream.write raw (.int true .w16) count.toBitVec ostream
  let size : Int := if type = .UPDATE_DELETE then 0 else count.toInt
  let ostream := COStream.write raw (.int true .w32) (BitVec.ofInt 32 size) ostream
  if 0 < size then
    (slice position.toInt size v).map
      (fun elems => elems.foldl (fun out x => COStream.write raw t x out) ostream)
  else some ostream

/-- `readPartialAttribute`: the vector, the arguments that come back, and the
stream.  The local variables other than the vector start with any content. -/
def readPartialAttribute (junk : (n : Nat) → BitVec n) {t : Ty} (v : List t.Val)
    (istream : CIStream) : Option ((List t.Val × BitVec 32 × Int16 × Int16) × CIStream) := do
  let (type, istream) ← CIStream.read junk (.enum true) (junk 32) istream
  let (position, istream) ← CIStream.read junk (.int true .w16) (junk 16) istream
  let (count, istream) ← CIStream.read junk (.int true .w16) (junk 16) istream
  let (vec, istream) ← CIStream.read junk (.vector t) [] istream
  let updated ←
    if type = UpdateType.UPDATE_COMPLETE.bits then some vec
    else if type = UpdateType.UPDATE_INSERT.bits then insertAt (BitVec.toInt position) vec v
    else if type = UpdateType.UPDATE_REPLACE.bits then copyTo (BitVec.toInt position) vec v
    else if type = UpdateType.UPDATE_DELETE.bits then
      eraseRange (BitVec.toInt position) (BitVec.toInt count) v
    else some v
  some ((updated, type, ⟨⟨position⟩⟩, ⟨⟨count⟩⟩), istream)

end Dsi
