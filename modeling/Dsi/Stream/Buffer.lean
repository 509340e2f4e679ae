import Dsi.Transport.Packets
import Dsi.Lib.Partial
import Dsi.Stream.RoundTrip

/-!
# Dsi.Stream.Buffer

The buffer behind a `COStream` (`CBuffer`, `CRequestWriter`): the bytes lie in an array inside
the object until they outgrow it, and in a block of the heap from then on.  A `size_t` has 64
bits and wraps around.

`written_write` connects the buffer to the list of bytes that `COStream` is elsewhere: a write
appends to it what it appends to that list.
-/

namespace Dsi

namespace Private

/-! ## Memory -/

/-- `PTRDIFF_MAX`, the size of the largest object. -/
def PTRDIFF_MAX : Nat := 2 ^ 63 - 1

/-- The heap: the sizes that `realloc` returns a block for, none of them larger than an object
can be, and what a new block of a size holds. -/
structure Heap where
  allocates : Nat → Bool
  fresh : Nat → Nat → UInt8
  le_max : ∀ n, allocates n = true → n ≤ PTRDIFF_MAX

/-- `a + b` and `a - b` of `size_t`. -/
def sizeAdd (a b : Nat) : Nat := (a + b) % 2 ^ 64

def sizeSub (a b : Nat) : Nat := (a + 2 ^ 64 - b % 2 ^ 64) % 2 ^ 64

/-- `memcpy` to an offset of a block; a block has no bytes behind its end. -/
def memcpy (bytes : List UInt8) (offset : Nat) (block : List UInt8) : Option (List UInt8) :=
  if offset + bytes.length ≤ block.length then
    some (block.take offset ++ bytes ++ block.drop (offset + bytes.length))
  else
    none

/-! ## `CBuffer` -/

/-- `IncrementFunctionType`: the two functions there are. -/
inductive IncrementFunction where
  | one2one
  | powerOf2
  deriving DecidableEq, Repr

/-- The loop of `powerOf2`.  After as many turns as a `size_t` has bits `rc` is 0 and stays 0. -/
def powerOf2Loop (newCapacity : Nat) : Nat → Nat → Option Nat
  | 0, _ => none
  | fuel + 1, rc =>
      if rc < newCapacity then powerOf2Loop newCapacity fuel ((2 * rc) % 2 ^ 64) else some rc

/-- The new capacity; `powerOf2` does not come back for the largest ones. -/
def IncrementFunction.eval (newCapacity : Nat) : IncrementFunction → Option Nat
  | .one2one => some newCapacity
  | .powerOf2 => powerOf2Loop newCapacity 65 payloadSize

/-- The members of `CBuffer`: `mBuf` is `mBuffer` or a block of the heap. -/
structure CBuffer where
  mCapacity : Nat
  mBuf : Option (List UInt8)
  mSize : Nat
  mCalculator : IncrementFunction
  mBuffer : List UInt8
  deriving DecidableEq, Repr

/-- What ends a write early: `realloc` returns no block, `powerOf2` does not come back, and a
store behind the end of the buffer. -/
inductive BufferFault where
  | noMemory
  | endless
  | overrun
  deriving DecidableEq, Repr

namespace CBuffer

/-- The constructor; `raw` is what the array holds before anything is written. -/
def create (func : IncrementFunction) (raw : Nat → UInt8) : CBuffer :=
  ⟨payloadSize, none, 0, func, (List.range payloadSize).map raw⟩

/-- The memory that `mBuf` points at. -/
def memory (b : CBuffer) : List UInt8 := b.mBuf.getD b.mBuffer

/-- `pbump`. -/
def pbump (count : Nat) (b : CBuffer) : CBuffer := { b with mSize := sizeAdd b.mSize count }

/-- The buffer with other bytes in the memory that `mBuf` points at. -/
def setMemory (block : List UInt8) (b : CBuffer) : CBuffer :=
  match b.mBuf with
  | none => { b with mBuffer := block }
  | some _ => { b with mBuf := some block }

/-- A store of bytes at the put pointer. -/
def put (bytes : List UInt8) (b : CBuffer) : Except BufferFault CBuffer :=
  match memcpy bytes b.mSize b.memory with
  | none => .error .overrun
  | some block => .ok (b.setMemory block)

variable (heap : Heap)

/-- The block that `realloc` returns. -/
def realloc (old : List UInt8) (size : Nat) : List UInt8 :=
  old.take size ++
    (List.range (size - old.length)).map (fun i => heap.fresh size (old.length + i))

/-- `setCapacity`: the first block has no predecessor, and takes over what the array holds. -/
def setCapacity (newCapacity : Nat) (b : CBuffer) : Except BufferFault CBuffer :=
  if newCapacity > payloadSize ∧ newCapacity > b.mCapacity then
    match b.mCalculator.eval newCapacity with
    | none => .error .endless
    | some actualNewCapacity =>
        if heap.allocates actualNewCapacity then
          match b.mBuf with
          | some old =>
              .ok { b with
                mBuf := some (realloc heap old actualNewCapacity)
                mCapacity := actualNewCapacity }
          | none =>
              match memcpy (b.mBuffer.take b.mSize) 0 (realloc heap [] actualNewCapacity) with
              | none => .error .overrun
              | some block => .ok { b with mBuf := some block, mCapacity := actualNewCapacity }
        else
          .error .noMemory
  else
    .ok b

/-! ## `CRequestWriter` and `COStream` -/

/-- `avail`. -/
def avail (b : CBuffer) : Nat := sizeSub b.mCapacity b.mSize

/-- `sbrk`. -/
def sbrk (amount : Nat) (b : CBuffer) : Except BufferFault CBuffer :=
  b.setCapacity heap (sizeAdd b.mCapacity amount)

/-- `setCapacity` of the stream, which asks for the difference to the size. -/
def setStreamCapacity (newCapacity : Nat) (b : CBuffer) : Except BufferFault CBuffer :=
  b.sbrk heap (sizeSub newCapacity b.mSize)

/-- The test at the begin of a write, and the growth if it fails. -/
def reserve (amount : Nat) (b : CBuffer) : Except BufferFault CBuffer :=
  if amount < b.avail then .ok b else b.setStreamCapacity heap (sizeAdd b.mSize amount)

/-- The generic `write(const T&)` for a type of `size` bytes. -/
def writeInt (size value : Nat) (b : CBuffer) : Except BufferFault CBuffer := do
  let b ← b.reserve heap (2 * size)
  let b := b.pbump (padding b.mSize size)
  let b ← b.put (LittleEndian.bytes size value)
  .ok (b.pbump size)

/-- `write(const void*, size_t)`. -/
def writeBlob (data : List UInt8) (b : CBuffer) : Except BufferFault CBuffer := do
  let b ← b.reserve heap data.length
  let b ← b.put data
  .ok (b.pbump data.length)

/-- `write(const std::string&)`. -/
def writeString (buf : List UInt8) (b : CBuffer) : Except BufferFault CBuffer := do
  let b ← b.writeInt heap 4 (buf.length % 2 ^ 32)
  if buf.length ≠ 0 then b.writeBlob heap buf else .ok b

/-- `write(const std::wstring&)`. -/
def writeWString (str : List Int) (b : CBuffer) : Except BufferFault CBuffer :=
  if str.length ≠ 0 then do
    let temp := toUTF8 str
    let b ← b.writeInt heap 4 ((temp.length % 2 ^ 32 + 1) % 2 ^ 32)
    b.writeBlob heap (temp ++ [0])
  else
    b.writeInt heap 4 0

/-- The overloads of `write`. -/
inductive Write where
  | scalar (w : Width) (value : BitVec (8 * w.bytes))
  | bool (b : Bool)
  | string (buf : List UInt8)
  | wstring (str : List Int)
  | blob (data : List UInt8)

def write (b : CBuffer) : Write → Except BufferFault CBuffer
  | .scalar w value => b.writeInt heap w.bytes value.toNat
  | .bool v => b.writeInt heap 4 (if v then 1 else 0)
  | .string buf => b.writeString heap buf
  | .wstring str => b.writeWString heap str
  | .blob data => b.writeBlob heap data

/-! ## What is to hold -/

/-- The bytes that a write copies in one piece are in memory, so they are no larger than an object
can be. -/
def Write.InMemory : Write → Prop
  | .scalar .. | .bool _ => True
  | .string buf => buf.length ≤ PTRDIFF_MAX
  | .wstring str => (toUTF8 str).length + 1 ≤ PTRDIFF_MAX
  | .blob data => data.length ≤ PTRDIFF_MAX

/-- The padding and the size of what a write appends at an offset. -/
def Write.extent (offset : Nat) : Write → Nat
  | .scalar w _ => padding offset w.bytes + w.bytes
  | .bool _ => padding offset 4 + 4
  | .string buf => padding offset 4 + 4 + buf.length
  | .wstring str => padding offset 4 + 4 + if str.length ≠ 0 then (toUTF8 str).length + 1 else 0
  | .blob data => data.length

/-- The bytes that are written. -/
def written (b : CBuffer) : List UInt8 := b.memory.take b.mSize

/-- What a write appends to the list of the bytes written: padding, which is what the buffer held
there (`raw`), and the value. -/
def Write.append (raw : Nat → UInt8) (out : COStream) : Write → COStream
  | .scalar w value => COStream.writeInt raw w.bytes value.toNat out
  | .bool v => COStream.writeInt raw 4 (if v then 1 else 0) out
  | .string buf => COStream.writeString raw buf out
  | .wstring str => COStream.writeWString raw str out
  | .blob data => out ++ data

/-- The buffer as `flush` sees it. -/
def view (b : CBuffer) : Dsi.CBuffer := ⟨fun k => b.memory.getD k 0, b.mSize⟩

/-- Behind a write: it is inside the capacity, and the capacity is that of the memory; the bytes
written earlier are what they were; the size has advanced by what was appended, and what was
appended is the value, as the stream writes it. -/
structure Advances (b : CBuffer) (w : Write) (b' : CBuffer) : Prop where
  inside : b'.mSize ≤ b'.mCapacity ∧ b'.memory.length = b'.mCapacity
  kept : ∀ i < b.mSize, b'.memory[i]? = b.memory[i]?
  size : b'.mSize = b.mSize + w.extent b.mSize
  content : ∃ raw, b'.written = w.append raw b.written

/-- A write stores nothing behind the end of the buffer, and advances if the reallocation that it
may need succeeds. -/
structure Safe (b : CBuffer) (w : Write) : Prop where
  inside : b.write heap w ≠ .error .overrun
  advances : ∀ b', b.write heap w = .ok b' → Advances b w b'

/-! ## `size_t` -/

/-- A difference that is not negative. -/
theorem sizeSub_of_le {a b : Nat} (h : b ≤ a) (ha : a < 2 ^ 64) : sizeSub a b = a - b := by
  unfold sizeSub
  omega

/-- What is added is taken away, also over the wrap. -/
theorem sizeSub_sizeAdd {a b : Nat} (hb : b < 2 ^ 64) : sizeSub (sizeAdd a b) a = b := by
  unfold sizeSub sizeAdd
  omega

/-- A sum that does not wrap. -/
theorem sizeAdd_of_lt {a b : Nat} (h : a + b < 2 ^ 64) : sizeAdd a b = a + b := Nat.mod_eq_of_lt h

/-- The padding is smaller than the size. -/
theorem padding_lt {size : Nat} (hpos : 0 < size) (offset : Nat) :
    padding offset size < size := by
  have hle : padding offset size ≤ size - 1 := by
    unfold padding
    rw [BitVec.toNat_and]
    refine Nat.le_trans Nat.and_le_right ?_
    rw [BitVec.toNat_ofNat]
    exact Nat.mod_le _ _
  omega

/-! ## Capacities -/

/-- The loop ends above the size, and below twice the size unless it starts there. -/
theorem powerOf2Loop_bounds {n c : Nat} : ∀ {fuel rc : Nat}, powerOf2Loop n fuel rc = some c →
    n ≤ c ∧ (c = rc ∨ c < 2 * n)
  | 0, _, h => by cases h
  | fuel + 1, rc, h => by
      rw [powerOf2Loop] at h
      split at h
      · next hlt =>
        obtain ⟨hle, hc⟩ := powerOf2Loop_bounds h
        have hmod := Nat.mod_le (2 * rc) (2 ^ 64)
        exact ⟨hle, Or.inr (by omega)⟩
      · next hlt =>
        obtain rfl := Option.some.inj h
        exact ⟨Nat.le_of_not_lt hlt, Or.inl rfl⟩

/-- The loop ends before it wraps for sizes up to 2 ^ 63. -/
theorem powerOf2Loop_isSome {n : Nat} (hn : n ≤ 2 ^ 63) :
    ∀ {fuel rc : Nat}, n ≤ rc * 2 ^ fuel → (powerOf2Loop n (fuel + 1) rc).isSome = true
  | 0, rc, h => by
      rw [powerOf2Loop, if_neg (by omega)]
      rfl
  | fuel + 1, rc, h => by
      rw [powerOf2Loop]
      split
      · next hlt =>
        rw [Nat.mod_eq_of_lt (by omega)]
        refine powerOf2Loop_isSome hn ?_
        rw [Nat.mul_comm 2, Nat.mul_assoc, ← Nat.pow_succ']
        exact h
      · rfl

/-- The new capacity is no smaller than the one asked for, and less than twice as large. -/
theorem IncrementFunction.eval_bounds {f : IncrementFunction} {n c : Nat} (h : f.eval n = some c)
    (hn : payloadSize < n) : n ≤ c ∧ c < 2 * n := by
  cases f with
  | one2one =>
      obtain rfl := Option.some.inj h
      omega
  | powerOf2 =>
      obtain ⟨hle, hc⟩ := powerOf2Loop_bounds h
      omega

/-- So does every increment function. -/
theorem IncrementFunction.eval_isSome {f : IncrementFunction} {n : Nat} (hn : n ≤ 2 ^ 63) :
    ∃ c, f.eval n = some c := by
  cases f with
  | one2one => exact ⟨n, rfl⟩
  | powerOf2 =>
      refine Option.isSome_iff_exists.mp (powerOf2Loop_isSome hn ?_)
      exact Nat.le_trans hn (by decide)

/-! ## The invariant -/

/-- The capacity is that of the memory, never less than that of the array, and no larger than an
object can be; what is written is inside. -/
structure Fits (b : CBuffer) : Prop where
  array : b.mBuffer.length = payloadSize
  length : b.memory.length = b.mCapacity
  least : payloadSize ≤ b.mCapacity
  most : b.mCapacity ≤ PTRDIFF_MAX
  size : b.mSize ≤ b.mCapacity

/-- A new buffer fits its array. -/
theorem fits_create (func : IncrementFunction) (raw : Nat → UInt8) : (create func raw).Fits := by
  refine ⟨by simp [create], by simp [create, memory], Nat.le_refl _, ?_, Nat.zero_le _⟩
  show payloadSize ≤ PTRDIFF_MAX
  decide

variable {heap : Heap} {b : CBuffer}

/-- As many bytes are written as the size says. -/
theorem Fits.length_written (hb : b.Fits) : b.written.length = b.mSize := by
  rw [written, List.length_take, hb.length]
  exact Nat.min_eq_left hb.size

/-- They are the front of the memory. -/
theorem getElem?_written {i : Nat} (hi : i < b.mSize) : b.written[i]? = b.memory[i]? :=
  List.getElem?_take_of_lt hi

/-- The memory that is set. -/
@[simp] theorem memory_setMemory (block : List UInt8) : (b.setMemory block).memory = block := by
  unfold setMemory memory
  cases b.mBuf <;> simp

/-- The size stays. -/
@[simp] theorem mSize_setMemory (block : List UInt8) : (b.setMemory block).mSize = b.mSize := by
  unfold setMemory
  cases b.mBuf <;> rfl

/-- Memory of the same length. -/
theorem Fits.setMemory {block : List UInt8} (hb : b.Fits) (h : block.length = b.memory.length) :
    (b.setMemory block).Fits := by
  have hcap : (b.setMemory block).mCapacity = b.mCapacity := by
    unfold CBuffer.setMemory
    cases b.mBuf <;> rfl
  refine ⟨?_, ?_, hcap ▸ hb.least, hcap ▸ hb.most, ?_⟩
  · have harray := hb.array
    unfold CBuffer.setMemory
    cases hbuf : b.mBuf with
    | none => rw [← harray, h, memory, hbuf]; rfl
    | some old => exact harray
  · rw [memory_setMemory, h, hb.length, hcap]
  · rw [mSize_setMemory, hcap]
    exact hb.size

/-- Moving the put pointer inside the capacity. -/
theorem Fits.pbump {count : Nat} (hb : b.Fits) (h : b.mSize + count ≤ b.mCapacity) :
    (b.pbump count).Fits ∧ (b.pbump count).mSize = b.mSize + count := by
  have hmax : PTRDIFF_MAX = 2 ^ 63 - 1 := rfl
  have hmost := hb.most
  have hsize : (b.pbump count).mSize = b.mSize + count := sizeAdd_of_lt (by omega)
  exact ⟨⟨hb.array, hb.length, hb.least, hmost, hsize ▸ h⟩, hsize⟩

/-! ## Growth -/

/-- The block that is returned has the size asked for and begins with the old one. -/
theorem length_realloc {old : List UInt8} {size : Nat} (h : old.length ≤ size) :
    (realloc heap old size).length = size := by
  rw [realloc, List.length_append, List.length_take, List.length_map, List.length_range]
  omega

/-- A reallocation keeps the front. -/
theorem take_realloc {old : List UInt8} {size n : Nat} (h : n ≤ old.length)
    (hsize : old.length ≤ size) : (realloc heap old size).take n = old.take n := by
  rw [realloc, List.take_of_length_le hsize, List.take_append_of_le_length h]

/-- A copy inside the block changes its range and nothing in front of it. -/
theorem memcpy_of_le {bytes block : List UInt8} {offset : Nat}
    (h : offset + bytes.length ≤ block.length) : ∃ block', memcpy bytes offset block = some block' ∧
      block'.length = block.length ∧
      block'.take (offset + bytes.length) = block.take offset ++ bytes := by
  have hfront : (block.take offset ++ bytes).length = offset + bytes.length := by
    rw [List.length_append, List.length_take, Nat.min_eq_left (by omega)]
  refine ⟨_, if_pos h, ?_, ?_⟩
  · rw [List.length_append, hfront, List.length_drop]
    omega
  · rw [← hfront, List.take_left]

/-- The faults `F` do not come from the memory: if one of them would, there is memory for every
object, and no object is larger than `total`. -/
def Spares (F : BufferFault → Prop) (heap : Heap) (total : Nat) : Prop :=
  F .noMemory ∨ F .endless →
    (∀ n ≤ PTRDIFF_MAX, heap.allocates n = true) ∧ total ≤ PTRDIFF_MAX

/-- What a growth makes of the buffer. -/
structure Grown (b : CBuffer) (capacity : Nat) (b' : CBuffer) : Prop where
  fits : b'.Fits
  size : b'.mSize = b.mSize
  written : b'.written = b.written
  capacity : capacity ≤ b'.mCapacity

variable {F : BufferFault → Prop}

/-- A buffer that grows has room, and what it had. -/
theorem setCapacity_spec {newCapacity : Nat} (hb : b.Fits) (hF : Spares F heap (2 * newCapacity)) :
    Partial.Avoids F (Grown b newCapacity) (b.setCapacity heap newCapacity) := by
  unfold setCapacity
  split
  · next hgrow =>
    cases hcalc : b.mCalculator.eval newCapacity with
    | none =>
        intro hendless
        obtain ⟨_, hmax⟩ := hF (Or.inr hendless)
        obtain ⟨c, hc⟩ := @IncrementFunction.eval_isSome b.mCalculator newCapacity
          (by simp only [PTRDIFF_MAX] at hmax; omega)
        rw [hcalc] at hc
        cases hc
    | some c =>
        obtain ⟨hle, hlt⟩ := IncrementFunction.eval_bounds hcalc hgrow.1
        have hsize := hb.size
        have hleast := hb.least
        dsimp only
        split
        · next halloc =>
          have hmost := heap.le_max c halloc
          have hleast' : payloadSize ≤ c := by omega
          have hsize' : b.mSize ≤ c := by omega
          cases hbuf : b.mBuf with
          | some old =>
              have hmem : b.memory = old := by rw [memory, hbuf]; rfl
              have hold : old.length = b.mCapacity := hmem ▸ hb.length
              have hgrows : old.length ≤ c := by omega
              refine ⟨⟨hb.array, length_realloc hgrows, hleast', hmost, hsize'⟩, rfl, ?_, hle⟩
              rw [written, written, hmem]
              exact take_realloc (hold ▸ hsize) hgrows
          | none =>
              have hmem : b.memory = b.mBuffer := by rw [memory, hbuf]; rfl
              have hcap : b.mCapacity = payloadSize := by rw [← hb.length, hmem, hb.array]
              have hnew : (realloc heap [] c).length = c := length_realloc (Nat.zero_le c)
              have harray := hb.array
              have hfront : (b.mBuffer.take b.mSize).length = b.mSize := by
                rw [List.length_take]
                omega
              obtain ⟨block, hcopy, hlength, htake⟩ := @memcpy_of_le (b.mBuffer.take b.mSize)
                (realloc heap [] c) 0 (by omega)
              rw [hcopy]
              refine ⟨⟨hb.array, hlength.trans hnew, hleast', hmost, hsize'⟩, rfl, ?_, hle⟩
              rw [written, written, hmem]
              rw [hfront, Nat.zero_add, List.take_zero, List.nil_append] at htake
              exact htake
        · next halloc =>
          intro hnone
          obtain ⟨hall, hmax⟩ := hF (Or.inl hnone)
          exact halloc (hall c (by omega))
  · next hgrow =>
    have hleast := hb.least
    exact ⟨hb, rfl, rfl, by omega⟩

/-- The test at the begin of a write: behind it there is room for twice the size, or for the
blob. -/
theorem reserve_spec {amount : Nat} (hb : b.Fits) (hamount : amount ≤ PTRDIFF_MAX)
    (hF : Spares F heap (2 * (b.mSize + 2 * amount))) :
    Partial.Avoids F (Grown b (b.mSize + amount)) (b.reserve heap amount) := by
  have hmax : PTRDIFF_MAX = 2 ^ 63 - 1 := rfl
  have hsize := hb.size
  have hmost := hb.most
  have havail : b.avail = b.mCapacity - b.mSize := sizeSub_of_le hsize (by omega)
  unfold reserve
  split
  · next hroom => exact ⟨hb, rfl, rfl, by omega⟩
  · next hroom =>
    have hask : b.setStreamCapacity heap (sizeAdd b.mSize amount) =
        b.setCapacity heap (b.mCapacity + amount) := by
      rw [setStreamCapacity, sizeSub_sizeAdd (by omega), sbrk, sizeAdd_of_lt (by omega)]
    rw [hask]
    have hgrown := @setCapacity_spec heap b F (b.mCapacity + amount) hb
      (fun h => ⟨(hF h).1, Nat.le_trans (by omega) (hF h).2⟩)
    exact hgrown.imp fun b' h => ⟨h.fits, h.size, h.written, by have := h.capacity; omega⟩

/-! ## Writes -/

/-- A store with room for it appends the bytes behind the padding, which is what was there. -/
theorem put_spec {bytes : List UInt8} {pad : Nat} (hb : b.Fits)
    (hroom : b.mSize + pad + bytes.length ≤ b.mCapacity) :
    ∃ b', (b.pbump pad).put bytes = .ok b' ∧ (b'.pbump bytes.length).Fits ∧
      (b'.pbump bytes.length).written =
        b.written ++ (List.range pad).map (fun i => b.memory.getD (b.mSize + i) 0) ++ bytes := by
  have hlength := hb.length
  obtain ⟨hpad, hoffset⟩ := @Fits.pbump b pad hb (by omega)
  have hmem : (b.pbump pad).memory = b.memory := rfl
  have hcap : (b.pbump pad).mCapacity = b.mCapacity := rfl
  obtain ⟨block, hcopy, hblock, htake⟩ := @memcpy_of_le bytes b.memory (b.mSize + pad) (by omega)
  have hgap : b.memory.take (b.mSize + pad) =
      b.written ++ (List.range pad).map (fun i => b.memory.getD (b.mSize + i) 0) := by
    rw [List.take_add, written, List.append_cancel_left_eq]
    refine List.ext_getElem (by simp; omega) fun i h₁ h₂ => ?_
    have hi : b.mSize + i < b.memory.length := by
      rw [List.length_map, List.length_range] at h₂
      omega
    rw [List.getElem_take, List.getElem_drop, List.getElem_map, List.getElem_range,
      List.getD_eq_getElem?_getD, List.getElem?_eq_getElem hi]
    rfl
  have hstored := hpad.setMemory (hblock.trans (congrArg List.length hmem.symm))
  have hcap' : ((b.pbump pad).setMemory block).mCapacity = b.mCapacity := by
    rw [← hstored.length, memory_setMemory, hblock, hlength]
  obtain ⟨hfits, hend⟩ := @Fits.pbump _ bytes.length hstored
    (by rw [mSize_setMemory, hoffset, hcap']; exact hroom)
  refine ⟨(b.pbump pad).setMemory block, ?_, hfits, ?_⟩
  · rw [put, hmem, hoffset, hcopy]
  · have hblock' : (((b.pbump pad).setMemory block).pbump bytes.length).memory = block :=
      memory_setMemory block
    rw [written, hblock', hend, mSize_setMemory, hoffset, htake, hgap]

/-- The generic write: twice the size is room for the padding and the value. -/
theorem writeInt_spec {size value : Nat} (hb : b.Fits) (hpos : 0 < size)
    (hsize : 2 * size ≤ PTRDIFF_MAX) (hF : Spares F heap (2 * (b.mSize + 2 * (2 * size)))) :
    Partial.Avoids F
      (fun b' => b'.Fits ∧ ∃ raw, b'.written = COStream.writeInt raw size value b.written)
      (b.writeInt heap size value) := by
  refine (reserve_spec hb hsize hF).bind fun b₁ hgrown => ?_
  have hlt := padding_lt hpos b₁.mSize
  have hcapacity := hgrown.capacity
  have hmSize := hgrown.size
  have hbytes := LittleEndian.length_bytes size value
  obtain ⟨b₂, hput, hfits, hwritten⟩ := @put_spec b₁ (LittleEndian.bytes size value)
    (padding b₁.mSize size) hgrown.fits (by omega)
  dsimp only
  rw [hput]
  rw [hbytes] at hfits hwritten
  refine ⟨hfits, fun i => b₁.memory.getD i 0, ?_⟩
  have hout : b.written.length = b₁.mSize := hb.length_written.trans hmSize.symm
  rw [hwritten, hgrown.written, COStream.writeInt, hout]

/-- A blob goes behind what is written. -/
theorem writeBlob_spec {data : List UInt8} (hb : b.Fits) (hdata : data.length ≤ PTRDIFF_MAX)
    (hF : Spares F heap (2 * (b.mSize + 2 * data.length))) :
    Partial.Avoids F (fun b' => b'.Fits ∧ b'.written = b.written ++ data)
      (b.writeBlob heap data) := by
  refine (reserve_spec hb hdata hF).bind fun b₁ hgrown => ?_
  have hcapacity := hgrown.capacity
  have hmSize := hgrown.size
  obtain ⟨b₂, hput, hfits, hwritten⟩ := @put_spec b₁ data 0 hgrown.fits (by omega)
  have hstill : b₁.pbump 0 = b₁ := by
    have hmax : PTRDIFF_MAX = 2 ^ 63 - 1 := rfl
    have hmost := hgrown.fits.most
    have hle := hgrown.fits.size
    rw [pbump, sizeAdd_of_lt (by omega), Nat.add_zero]
  rw [hstill] at hput
  rw [hput]
  refine ⟨hfits, ?_⟩
  rw [hwritten, hgrown.written]
  simp

/-- A heap that has larger blocks has smaller ones. -/
theorem Spares.mono {m n : Nat} (h : Spares F heap n) (hmn : m ≤ n) : Spares F heap m :=
  fun hF => ⟨(h hF).1, Nat.le_trans hmn (h hF).2⟩

/-- Behind the length of a string. -/
theorem mSize_writeInt {raw : Nat → UInt8} {value : Nat} {b' : CBuffer} (hb : b.Fits)
    (hb' : b'.Fits) (h : b'.written = COStream.writeInt raw 4 value b.written) :
    b'.mSize ≤ b.mSize + 8 := by
  have hlt := @padding_lt 4 (by decide) b.mSize
  rw [← hb'.length_written, h, COStream.length_writeInt, hb.length_written]
  omega

/-- A string goes behind what is written, with its length and its padding. -/
theorem writeString_spec {buf : List UInt8} (hb : b.Fits) (hbuf : buf.length ≤ PTRDIFF_MAX)
    (hF : Spares F heap (2 * (b.mSize + 2 * (8 + buf.length)))) :
    Partial.Avoids F
      (fun b' => b'.Fits ∧ ∃ raw, b'.written = COStream.writeString raw buf b.written)
      (b.writeString heap buf) := by
  have hlen := @writeInt_spec heap b F 4 (buf.length % 2 ^ 32) hb (by decide) (by decide)
    (hF.mono (by omega))
  refine hlen.bind fun b₁ hb₁ => ?_
  obtain ⟨hb₁, raw, hwritten⟩ := hb₁
  have hsize := mSize_writeInt hb hb₁ hwritten
  split
  · next hne =>
    refine (writeBlob_spec hb₁ hbuf (hF.mono (by omega))).imp fun b₂ hb₂ => ?_
    obtain ⟨hb₂, hblob⟩ := hb₂
    refine ⟨hb₂, raw, ?_⟩
    rw [hblob, hwritten, COStream.writeString, if_pos hne]
  · next heq =>
    refine ⟨hb₁, raw, ?_⟩
    rw [hwritten, COStream.writeString, if_neg heq]

/-- So does a wide string, in UTF-8. -/
theorem writeWString_spec {str : List Int} (hb : b.Fits)
    (hstr : (toUTF8 str).length + 1 ≤ PTRDIFF_MAX)
    (hF : Spares F heap (2 * (b.mSize + 2 * (8 + ((toUTF8 str).length + 1))))) :
    Partial.Avoids F
      (fun b' => b'.Fits ∧ ∃ raw, b'.written = COStream.writeWString raw str b.written)
      (b.writeWString heap str) := by
  have hlen (value : Nat) := @writeInt_spec heap b F 4 value hb (by decide) (by decide)
    (hF.mono (by omega))
  unfold writeWString
  split
  · next hne =>
    refine (hlen _).bind fun b₁ hb₁ => ?_
    obtain ⟨hb₁, raw, hwritten⟩ := hb₁
    have hsize := mSize_writeInt hb hb₁ hwritten
    have htemp : (toUTF8 str ++ [0]).length = (toUTF8 str).length + 1 := List.length_append
    refine (writeBlob_spec hb₁ (htemp ▸ hstr) (hF.mono (by omega))).imp fun b₂ hb₂ => ?_
    obtain ⟨hb₂, hblob⟩ := hb₂
    refine ⟨hb₂, raw, ?_⟩
    rw [hblob, hwritten, COStream.writeWString, if_pos hne]
  · next heq =>
    refine (hlen 0).imp fun b₁ hb₁ => ?_
    obtain ⟨hb₁, raw, hwritten⟩ := hb₁
    refine ⟨hb₁, raw, ?_⟩
    rw [hwritten, COStream.writeWString, if_neg heq]

/-- The room that a write asks for at most. -/
def Write.room : Write → Nat
  | .scalar w _ => 2 * w.bytes
  | .bool _ => 8
  | .string buf => 8 + buf.length
  | .wstring str => 8 + ((toUTF8 str).length + 1)
  | .blob data => data.length

/-- A write keeps the invariant, and appends to what is written what the stream appends to the
list of bytes that stands for it. -/
theorem written_write {w : Write} (hb : b.Fits) (hw : w.InMemory)
    (hF : Spares F heap (2 * (b.mSize + 2 * w.room))) :
    Partial.Avoids F (fun b' => b'.Fits ∧ ∃ raw, b'.written = w.append raw b.written)
      (b.write heap w) := by
  cases w with
  | scalar w value =>
      refine writeInt_spec hb ?_ ?_ hF
      · cases w <;> decide
      · cases w <;> decide
  | bool v => exact writeInt_spec hb (by decide) (by decide) hF
  | string buf => exact writeString_spec hb hw hF
  | wstring str => exact writeWString_spec hb hw hF
  | blob data =>
      exact (writeBlob_spec hb hw hF).imp fun b' ⟨hb', h⟩ => ⟨hb', fun _ => 0, h⟩

/-- A write takes its extent. -/
theorem length_append (raw : Nat → UInt8) (w : Write) (out : COStream) :
    (w.append raw out).length = out.length + w.extent out.length := by
  have hint (size value : Nat) := COStream.length_writeInt raw size value out
  cases w with
  | scalar w value => exact (hint _ _).trans (Nat.add_assoc ..)
  | bool v => exact (hint _ _).trans (Nat.add_assoc ..)
  | string buf =>
      rw [Write.append, COStream.writeString, Write.extent]
      split
      · rw [List.length_append, hint, Nat.add_assoc, Nat.add_assoc, Nat.add_assoc]
      · next heq =>
        have hzero : buf.length = 0 := Decidable.not_not.mp heq
        rw [hint, hzero, Nat.add_zero, Nat.add_assoc]
  | wstring str =>
      rw [Write.append, COStream.writeWString, Write.extent]
      split
      · rw [List.length_append, hint, Nat.add_assoc, Nat.add_assoc, Nat.add_assoc,
          List.length_append]
        rfl
      · rw [hint, Nat.add_zero, Nat.add_assoc]
  | blob data => exact List.length_append

/-- A write keeps what is there. -/
theorem prefix_append (raw : Nat → UInt8) (w : Write) (out : COStream) :
    out <+: w.append raw out := by
  cases w with
  | scalar w value => exact COStream.le_writeInt raw _ _ out
  | bool v => exact COStream.le_writeInt raw _ _ out
  | string buf => exact CIStream.le_write raw .string buf out
  | wstring str => exact CIStream.le_write raw .wstring str out
  | blob data => exact List.prefix_append out data

/-- So the size advances by the extent, the bytes before it stay, and the value is behind them. -/
theorem advances_of_written {b' : CBuffer} {w : Write} {raw : Nat → UInt8} (hb : b.Fits)
    (hb' : b'.Fits) (h : b'.written = w.append raw b.written) : Advances b w b' := by
  have hsize : b'.mSize = b.mSize + w.extent b.mSize := by
    rw [← hb'.length_written, h, length_append, hb.length_written]
  refine ⟨⟨hb'.size, hb'.length⟩, fun i hi => ?_, hsize, raw, h⟩
  obtain ⟨rest, hrest⟩ := prefix_append raw w b.written
  rw [← getElem?_written hi, ← getElem?_written (b := b') (by omega), h, ← hrest]
  exact List.getElem?_append_left (hb.length_written.symm ▸ hi)

/-- One write, from any state of the invariant. -/
theorem safe_write {w : Write} (hb : b.Fits) (hw : w.InMemory) : Safe heap b w := by
  have hspec := @written_write heap b (· = .overrun) w hb hw (fun h => by simp at h)
  constructor
  · intro h
    rw [h] at hspec
    exact hspec rfl
  · intro b' h
    rw [h] at hspec
    obtain ⟨hb', raw, hwritten⟩ := hspec
    exact advances_of_written hb hb' hwritten

/-- A write that returns leaves a buffer that fits. -/
theorem fits_write {w : Write} {b' : CBuffer} (hb : b.Fits) (hw : w.InMemory)
    (h : b.write heap w = .ok b') : b'.Fits := by
  have hspec := @written_write heap b (· = .overrun) w hb hw (fun h => by simp at h)
  rw [h] at hspec
  exact hspec.1

/-- The room that all the writes ask for. -/
def room (ws : List Write) : Nat := (ws.map Write.room).sum

/-- The extent of a write is at most its room, wherever it starts. -/
theorem extent_le_room (w : Write) (offset : Nat) : w.extent offset ≤ w.room := by
  have hlt (size : Nat) (hpos : 0 < size) := padding_lt hpos offset
  cases w with
  | scalar w value =>
      have hpos : 0 < w.bytes := by cases w <;> decide
      have := hlt _ hpos
      simp only [Write.extent, Write.room]
      omega
  | bool v =>
      have := hlt 4 (by decide)
      simp only [Write.extent, Write.room]
      omega
  | string buf =>
      have := hlt 4 (by decide)
      simp only [Write.extent, Write.room]
      omega
  | wstring str =>
      have := hlt 4 (by decide)
      simp only [Write.extent, Write.room]
      split <;> omega
  | blob data => exact Nat.le_refl _

/-- Where there is memory for every object, all the writes return. -/
theorem exists_run (hall : ∀ n ≤ PTRDIFF_MAX, heap.allocates n = true) {ws : List Write}
    (hws : ∀ w ∈ ws, w.InMemory) (hb : b.Fits)
    (hroom : 2 * (b.mSize + 2 * room ws) ≤ PTRDIFF_MAX) :
    ∃ b', Partial.run (write heap) b ws = .ok b' := by
  induction ws generalizing b with
  | nil => exact ⟨b, rfl⟩
  | cons w ws ih =>
      have hw := hws w List.mem_cons_self
      have hsum : room (w :: ws) = w.room + room ws := by simp [room]
      obtain ⟨b₁, hwrite, hb₁, raw, hwritten⟩ :=
        (@written_write heap b (fun _ => True) w hb hw
          (fun _ => ⟨hall, Nat.le_trans (by omega) hroom⟩)).exists_ok
      have hsize := (advances_of_written hb hb₁ hwritten).size
      have hextent := extent_le_room w b.mSize
      rw [Partial.run_cons_of_ok hwrite]
      exact ih (fun w' hw' => hws w' (List.mem_cons_of_mem w hw')) hb₁ (by omega)

/-- The writes of a run are all safe. -/
theorem along_safe {ws : List Write} (hws : ∀ w ∈ ws, w.InMemory) (hb : b.Fits) :
    Partial.Along (write heap) (Safe heap) b ws := by
  induction ws generalizing b with
  | nil => trivial
  | cons w ws ih =>
      have hw := hws w List.mem_cons_self
      refine ⟨safe_write hb hw, ?_⟩
      cases hwrite : write heap b w with
      | error e => trivial
      | ok b' =>
          have hrest (w') (hw' : w' ∈ ws) := hws w' (List.mem_cons_of_mem w hw')
          exact ih hrest (fits_write hb hw hwrite)

/-! ## The whole output -/

/-- The padding is what the output holds in its place. -/
theorem writeInt_congr {raw raw' : Nat → UInt8} {size value : Nat} {out data : COStream}
    (hle : COStream.writeInt raw size value out <+: data)
    (h : ∀ i < data.length, data[i]? = some (raw' i)) :
    COStream.writeInt raw' size value out = COStream.writeInt raw size value out := by
  have hlen := COStream.length_writeInt raw size value out
  have hpad : (List.range (padding out.length size)).map (fun i => raw' (out.length + i)) =
      (List.range (padding out.length size)).map (fun i => raw (out.length + i)) := by
    refine List.map_congr_left fun i hi => ?_
    have hi' : i < padding out.length size := List.mem_range.mp hi
    have hbyte : (COStream.writeInt raw size value out)[out.length + i]? =
        some (raw (out.length + i)) := by
      rw [COStream.writeInt, List.append_assoc, List.getElem?_append_right (by omega),
        Nat.add_sub_cancel_left, List.getElem?_append_left (by simpa using hi')]
      simp [hi']
    obtain ⟨rest, hrest⟩ := hle
    have hdata := h (out.length + i) (by rw [← hrest, List.length_append]; omega)
    rw [← hrest, List.getElem?_append_left (by omega), hbyte] at hdata
    exact (Option.some.inj hdata).symm
  rw [COStream.writeInt, COStream.writeInt, hpad]

/-- The padding is what lies in the memory already. -/
theorem append_congr {raw raw' : Nat → UInt8} {w : Write} {out data : COStream}
    (hle : w.append raw out <+: data) (h : ∀ i < data.length, data[i]? = some (raw' i)) :
    w.append raw' out = w.append raw out := by
  cases w with
  | scalar w value => exact writeInt_congr hle h
  | bool v => exact writeInt_congr hle h
  | string buf =>
      simp only [Write.append, COStream.writeString] at hle ⊢
      split at hle
      · rw [if_pos ‹_›, if_pos ‹_›, writeInt_congr ((List.prefix_append _ _).trans hle) h]
      · rw [if_neg ‹_›, if_neg ‹_›, writeInt_congr hle h]
  | wstring str =>
      simp only [Write.append, COStream.writeWString] at hle ⊢
      split at hle
      · rw [if_pos ‹_›, if_pos ‹_›, writeInt_congr ((List.prefix_append _ _).trans hle) h]
      · rw [if_neg ‹_›, if_neg ‹_›, writeInt_congr hle h]
  | blob data => rfl

/-- A run of writes that returns has written what the stream appends to the list of bytes. -/
theorem written_run {ws : List Write} {b' : CBuffer} (hws : ∀ w ∈ ws, w.InMemory) (hb : b.Fits)
    (hrun : Partial.run (write heap) b ws = .ok b') :
    b.written <+: b'.written ∧
      ∀ raw, (∀ i < b'.written.length, b'.written[i]? = some (raw i)) →
        b'.written = ws.foldl (Write.append raw) b.written := by
  induction ws generalizing b with
  | nil =>
      obtain rfl := Except.ok.inj hrun
      exact ⟨List.prefix_refl _, fun raw _ => rfl⟩
  | cons w ws ih =>
      obtain ⟨b₁, hwrite, hrest⟩ := Partial.bind_eq_ok hrun
      have hw := hws w List.mem_cons_self
      have hspec := @written_write heap b (· = .overrun) w hb hw (fun h => by simp at h)
      rw [hwrite] at hspec
      obtain ⟨hb₁, raw₁, hwritten⟩ := hspec
      obtain ⟨hle, hall⟩ := ih (fun w' hw' => hws w' (List.mem_cons_of_mem w hw')) hb₁ hrest
      refine ⟨(hwritten ▸ prefix_append raw₁ w b.written).trans hle, fun raw hraw => ?_⟩
      rw [hall raw hraw, List.foldl_cons, append_congr (hwritten ▸ hle) hraw, hwritten]

/-- The padding of all the writes is what the output holds in its place. -/
theorem exists_written_of_run {ws : List Write} {b' : CBuffer} (hws : ∀ w ∈ ws, w.InMemory)
    (hb : b.Fits) (hrun : Partial.run (write heap) b ws = .ok b') :
    ∃ raw, b'.written = ws.foldl (Write.append raw) b.written := by
  have hheld (i : Nat) (hi : i < b'.written.length) :
      b'.written[i]? = some (b'.written.getD i 0) := by
    rw [List.getD_eq_getElem?_getD, List.getElem?_eq_getElem hi]
    rfl
  exact ⟨fun i => b'.written.getD i 0, (written_run hws hb hrun).2 _ hheld⟩

/-- So does a sequence of writes. -/
theorem fits_run {ws : List Write} {b' : CBuffer} (hws : ∀ w ∈ ws, w.InMemory) (hb : b.Fits)
    (hrun : Partial.run (write heap) b ws = .ok b') : b'.Fits := by
  induction ws generalizing b with
  | nil => exact Except.ok.inj hrun ▸ hb
  | cons w ws ih =>
      obtain ⟨b₁, hwrite, hrest⟩ := Partial.bind_eq_ok hrun
      have hb₁ := fits_write hb (hws w List.mem_cons_self) hwrite
      exact ih (fun w' hw' => hws w' (List.mem_cons_of_mem w hw')) hb₁ hrest

/-- The writes of `operator<<`. -/
def writes : (t : Ty) → t.Val → List Write
  | .int _ w, v => [.scalar w v]
  | .bool, v => [.bool v]
  | .enum _, v => [.scalar .w32 v]
  | .string, v => [.string v]
  | .wstring, v => [.wstring v]
  | .vector t, v => .scalar .w32 (BitVec.ofNat 32 v.length) :: v.flatMap (writes t)
  | .map k e, v =>
      .scalar .w32 (BitVec.ofNat 32 v.length) :: v.flatMap (fun x => writes k x.1 ++ writes e x.2)

/-- The writes of a value, one after the other, are the value. -/
theorem foldl_append_writes (raw : Nat → UInt8) (t : Ty) (v : t.Val) (out : COStream) :
    (writes t v).foldl (Write.append raw) out = COStream.write raw t v out := by
  induction t generalizing out with
  | int signed w => rfl
  | bool => rfl
  | enum signed => rfl
  | string => rfl
  | wstring => rfl
  | vector t ih =>
      rw [writes, List.foldl_cons, List.foldl_flatMap, COStream.write]
      simp only [Write.append, ih]
      rfl
  | map k e ihk ihe =>
      rw [writes, List.foldl_cons, List.foldl_flatMap, COStream.write]
      simp only [Write.append, List.foldl_append, ihk, ihe]
      rfl

/-- A value that is written through the buffer is written as it is to the list of bytes. -/
theorem written_writes {t : Ty} {v : t.Val} {b' : CBuffer} (hv : ∀ w ∈ writes t v, w.InMemory)
    (hb : b.Fits) (hrun : Partial.run (write heap) b (writes t v) = .ok b') :
    ∃ raw, b'.written = COStream.write raw t v b.written := by
  obtain ⟨raw, hwritten⟩ := exists_written_of_run hv hb hrun
  exact ⟨raw, hwritten.trans (foldl_append_writes raw t v b.written)⟩

/-- What `flush` sends is what is written. -/
theorem data_view (hb : b.Fits) : b.view.data = b.written := by
  have hsize := hb.size
  have hlength := hb.length
  refine List.ext_getElem ?_ fun i h₁ h₂ => ?_
  · rw [Dsi.CBuffer.length_data, hb.length_written]
    rfl
  · have hi : i < b.mSize := hb.length_written ▸ h₂
    have hmem : i < b.memory.length := by omega
    simp [Dsi.CBuffer.data, Dsi.CBuffer.slice, view, written, List.getElem?_eq_getElem hmem]

/-! ## Sequences of writes -/

/-- Every sequence of writes stays inside the buffer, keeps what is written, advances by the
padding and the size of every value and has the values where it was, as long as the reallocations
succeed; what `flush` sends then is all the values; and where there is memory for every object, the
reallocations succeed. -/
theorem writes_safe (heap : Heap) (func : IncrementFunction) (raw : Nat → UInt8) (ws : List Write)
    (hws : ∀ w ∈ ws, w.InMemory) :
    Partial.Along (write heap) (Safe heap) (create func raw) ws ∧
      (∀ b, Partial.run (write heap) (create func raw) ws = .ok b →
        ∃ raw, b.view.data = ws.foldl (Write.append raw) []) ∧
      ((∀ n ≤ PTRDIFF_MAX, heap.allocates n = true) → 4 * room ws ≤ PTRDIFF_MAX →
        ∃ b, Partial.run (write heap) (create func raw) ws = .ok b) := by
  have hfits := fits_create func raw
  refine ⟨along_safe hws hfits, fun b hrun => ?_, fun hall hroom => ?_⟩
  · obtain ⟨raw', hwritten⟩ := exists_written_of_run hws hfits hrun
    exact ⟨raw', (data_view (fits_run hws hfits hrun)).trans hwritten⟩
  · refine exists_run hall hws hfits ?_
    show 2 * (0 + 2 * room ws) ≤ PTRDIFF_MAX
    omega

/-- A heap that has a block for every size up to 64 KiB. -/
def smallHeap : Heap where
  allocates n := n ≤ 65536
  fresh _ _ := 0
  le_max n hn := Nat.le_trans (of_decide_eq_true hn) (by decide)

/-- A blob fills the array but for three bytes; the integer behind it moves the buffer to the
heap. -/
theorem writes_safe_first_growth :
    Partial.Along (write smallHeap) (Safe smallHeap) (create .powerOf2 fun _ => 0)
      [.blob (List.replicate 4053 7), .scalar .w64 5] :=
  (writes_safe smallHeap .powerOf2 (fun _ => 0) [.blob (List.replicate 4053 7), .scalar .w64 5]
    (by
      simp only [List.forall_mem_cons, Write.InMemory, List.length_replicate]
      exact ⟨by decide, trivial, nofun⟩)).1

end CBuffer

end Private

end Dsi
