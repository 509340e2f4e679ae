import Dsi.Lib.LittleEndian
import Dsi.Stream.Utf8

/-!
# Dsi.Stream.Types

The serializer `COStream` and the deserializer `CIStream` (`include/dsi`,
`src/base`) for the types they are defined on.  The overloads of `operator<<`
and `operator>>` become one function each by recursion on the type.

Memory is available, so a writer is the list of bytes written; a padding byte is
whatever the buffer held there (`raw`).  A reader is given the variable it reads
into, since not every type is overwritten completely; `junk` is the content of
an integer that is declared without an initial value.  The machine is
little-endian, as everywhere in this development.
-/

namespace Dsi

/-! ## Types and values -/

/-- The widths of the intrinsic integers. -/
inductive Width where
  | w8
  | w16
  | w32
  | w64
  deriving DecidableEq, Repr

/-- `sizeof`. -/
def Width.bytes : Width → Nat
  | .w8 => 1
  | .w16 => 2
  | .w32 => 4
  | .w64 => 8

/-- The types built from integers, `bool`, enumerators and strings by vectors and maps.  The streams
have operators for `float` and `double` besides, which are left out: they move the four or
eight bytes of the value as those of an integer of this width do. -/
inductive Ty where
  | int (signed : Bool) (w : Width)
  | bool
  | enum (signed : Bool)
  | string
  | wstring
  | vector (t : Ty)
  | map (key value : Ty)
  deriving DecidableEq, Repr

namespace Ty

/-- The values of a type: integers and enumerators are bit patterns, a `wchar_t`
is a number, and a `std::map` is the list of its entries in iteration order. -/
@[reducible] def Val : Ty → Type
  | .int _ w => BitVec (8 * w.bytes)
  | .bool => Bool
  | .enum _ => BitVec 32
  | .string => List UInt8
  | .wstring => List Int
  | .vector t => List t.Val
  | .map k v => List (k.Val × v.Val)

/-- `std::lexicographical_compare`. -/
def lexLt {α : Type} (lt : α → α → Bool) : List α → List α → Bool
  | [], [] => false
  | [], _ :: _ => true
  | _ :: _, [] => false
  | a :: as, b :: bs => if lt a b then true else if lt b a then false else lexLt lt as bs

/-- `std::less`, the order of the keys of a map. -/
def less : (t : Ty) → t.Val → t.Val → Bool
  | .int true _, a, b => a.slt b
  | .int false _, a, b => a.ult b
  | .bool, a, b => !a && b
  | .enum true, a, b => a.slt b
  | .enum false, a, b => a.ult b
  | .string, a, b => lexLt (fun x y => decide (x < y)) a b
  | .wstring, a, b => lexLt (fun x y => decide (x < y)) a b
  | .vector t, a, b => lexLt t.less a b
  | .map k v, a, b =>
      lexLt (fun x y => k.less x.1 y.1 || (!k.less y.1 x.1 && v.less x.2 y.2)) a b

/-- A variable of a type that is just declared or, with `x = 0`, the value of
`T()`: containers are empty. -/
def init (x : (n : Nat) → BitVec n) : (t : Ty) → t.Val
  | .int _ w => x (8 * w.bytes)
  | .bool => (x 8 != 0)
  | .enum _ => x 32
  | .string => []
  | .wstring => []
  | .vector _ => []
  | .map _ _ => []

end Ty

/-- `m[key] = value` on the entries of a map. -/
def mapAssign {α β : Type} (lt : α → α → Bool) (key : α) (value : β) :
    List (α × β) → List (α × β)
  | [] => [(key, value)]
  | e :: m =>
      if lt e.1 key then e :: mapAssign lt key value m
      else if lt key e.1 then (key, value) :: e :: m
      else (e.1, value) :: m

/-- `-offset & (sizeof(T) - 1)` on `size_t`: the bytes up to the next multiple of
the size. -/
def padding (offset size : Nat) : Nat :=
  (-(BitVec.ofNat 64 offset) &&& BitVec.ofNat 64 (size - 1)).toNat

/-! ## `COStream` -/

/-- What `COStream` has written. -/
abbrev COStream := List UInt8

namespace COStream

variable (raw : Nat → UInt8)

/-- The generic `write(const T&)` for a type of `size` bytes. -/
def writeInt (size value : Nat) (out : COStream) : COStream :=
  out ++ (List.range (padding out.length size)).map (fun i => raw (out.length + i)) ++
    LittleEndian.bytes size value

/-- `write(const std::string&)`; the length is cut to 32 bits. -/
def writeString (buf : List UInt8) (out : COStream) : COStream :=
  let out := writeInt raw 4 (buf.length % 2 ^ 32) out
  if buf.length ≠ 0 then out ++ buf else out

/-- `write(const std::wstring&)`: the length counts the terminator. -/
def writeWString (str : List Int) (out : COStream) : COStream :=
  if str.length ≠ 0 then
    let temp := toUTF8 str
    writeInt raw 4 ((temp.length % 2 ^ 32 + 1) % 2 ^ 32) out ++ (temp ++ [0])
  else
    writeInt raw 4 0 out

/-- `operator<<`. -/
def write : (t : Ty) → t.Val → COStream → COStream
  | .int _ w, v, out => writeInt raw w.bytes v.toNat out
  | .bool, v, out => writeInt raw 4 (if v then 1 else 0) out
  | .enum _, v, out => writeInt raw 4 v.toNat out
  | .string, v, out => writeString raw v out
  | .wstring, v, out => writeWString raw v out
  | .vector t, v, out =>
      v.foldl (fun out x => write t x out) (writeInt raw 4 (v.length % 2 ^ 32) out)
  | .map k e, v, out =>
      v.foldl (fun out x => write e x.2 (write k x.1 out))
        (writeInt raw 4 (v.length % 2 ^ 32) out)

end COStream

/-! ## `CIStream` -/

/-- The members of `CIStream`; `mError` is either 0 or `ERANGE`. -/
structure CIStream where
  mData : List UInt8
  mOffset : Nat
  mError : Bool
  deriving DecidableEq, Repr

namespace CIStream

variable (junk : (n : Nat) → BitVec n)

/-- The constructor. -/
def create (payload : List UInt8) : CIStream := ⟨payload, 0, false⟩

/-- The generic `read(T&)` for a type of `size` bytes. -/
def readInt (size : Nat) (old : BitVec (8 * size)) (s : CIStream) : BitVec (8 * size) × CIStream :=
  if s.mError then
    (old, s)
  else
    let offset := s.mOffset + padding s.mOffset size
    if offset + size ≤ s.mData.length then
      (.ofNat _ (LittleEndian.value ((s.mData.drop offset).take size)),
        { s with mOffset := offset + size })
    else
      (old, { s with mOffset := offset, mError := true })

/-- `read(std::string&)`. -/
def readString (old : List UInt8) (s : CIStream) : List UInt8 × CIStream :=
  if s.mError then
    (old, s)
  else
    let (numOfBytes, s) := readInt 4 0 s
    if ¬ s.mError ∧ 0 < numOfBytes.toNat then
      if numOfBytes.toNat ≤ s.mData.length - s.mOffset then
        ((s.mData.drop s.mOffset).take numOfBytes.toNat,
          { s with mOffset := s.mOffset + numOfBytes.toNat })
      else
        (old, { s with mError := true })
    else
      ([], s)

/-- `read(std::wstring&)`; the terminator is not decoded. -/
def readWString (old : List Int) (s : CIStream) : List Int × CIStream :=
  if s.mError then
    (old, s)
  else
    let (numOfBytes, s) := readInt 4 0 s
    if ¬ s.mError ∧ 0 < numOfBytes.toNat then
      if numOfBytes.toNat ≤ s.mData.length - s.mOffset then
        (fromUTF8 ((s.mData.drop s.mOffset).take (numOfBytes.toNat - 1)),
          { s with mOffset := s.mOffset + numOfBytes.toNat })
      else
        (old, { s with mError := true })
    else
      ([], s)

/-- `v.resize(n)`. -/
def resize {α : Type} (zero : α) (n : Nat) (v : List α) : List α :=
  v.take n ++ List.replicate (n - v.length) zero

/-- The loop over the elements of a vector. -/
def readEach {α : Type} (rd : α → CIStream → Option (α × CIStream)) :
    List α → CIStream → Option (List α × CIStream)
  | [], s => some ([], s)
  | x :: xs, s => do
      let (x, s) ← rd x s
      let (xs, s) ← readEach rd xs s
      some (x :: xs, s)

/-- The loop over the entries of a map: `key` and `value` are the same variables
in every turn. -/
def readEntries {α β : Type} (lt : α → α → Bool) (rk : α → CIStream → Option (α × CIStream))
    (rv : β → CIStream → Option (β × CIStream)) :
    Nat → α → β → List (α × β) → CIStream → Option (List (α × β) × CIStream)
  | 0, _, _, m, s => some (m, s)
  | n + 1, key, value, m, s => do
      let (key, s) ← rk key s
      let (value, s) ← rv value s
      readEntries lt rk rv n key value (mapAssign lt key value m) s

/-- `operator>>` into a variable that holds `old`.  No value stands for the
exception that `resize` throws for a negative size. -/
def read : (t : Ty) → t.Val → CIStream → Option (t.Val × CIStream)
  | .int _ w, old, s => some (readInt w.bytes old s)
  | .bool, _, s =>
      let (bval, s) := readInt 4 0 s
      some (bval.toNat != 0, s)
  | .enum _, old, s => some (readInt 4 old s)
  | .string, old, s => some (readString old s)
  | .wstring, old, s => some (readWString old s)
  | .vector t, old, s =>
      let (newSize, s) := readInt 4 0 s
      if newSize.toInt < 0 then
        none
      else
        readEach (read t) (resize (t.init fun n => 0#n) newSize.toNat old) s
  | .map k v, old, s =>
      let (newSize, s) := readInt 4 0 s
      readEntries k.less (read k) (read v) newSize.toInt.toNat (k.init junk) (v.init junk) old s

/-- Read a sequence of values, each into a fresh variable. -/
def readSeq : List Ty → CIStream → Option (List ((t : Ty) × t.Val) × CIStream)
  | [], s => some ([], s)
  | t :: ts, s => do
      let (v, s) ← read junk t (t.init junk) s
      let (vs, s) ← readSeq ts s
      some (⟨t, v⟩ :: vs, s)

end CIStream

end Dsi
