import Dsi.Lib.LittleEndian

/-!
# Dsi.Lib.CLayout

C structures and unions as byte lists: the size and the alignment of a type, the
offset of a member, the object that a `memset` and a number of assignments leave
in memory, and what is found where a member stands.  The rules are the ones the
common C ABIs share:

1. a scalar is aligned to its size;
2. a member stands at the next address its alignment divides;
3. a structure is aligned like its most demanding member, and padded at its end
   to a multiple of that.

`member_object` is what a reader relies on: at the offset of a member stands what
was stored there, whatever follows the object in memory.
-/

namespace CLayout

open LittleEndian

/-! ## Types -/

/-- The bytes from address `n` to the next address that `align` divides. -/
def pad (align n : Nat) : Nat := (align - n % align) % align

theorem dvd_add_pad {align : Nat} (h : 0 < align) (n : Nat) : align ∣ n + pad align n := by
  have hlt : n % align < align := Nat.mod_lt n h
  have hsplit : n + (align - n % align) = align * (n / align) + align := by
    have hdiv := Nat.div_add_mod n align
    omega
  rw [pad, Nat.dvd_iff_mod_eq_zero, Nat.add_mod, Nat.mod_mod, ← Nat.add_mod, hsplit]
  simp

/-- An object type.  Its size is a multiple of its alignment, so that the elements
of an array are aligned as well. -/
structure CType where
  size : Nat
  align : Nat
  align_pos : 0 < align
  align_dvd : align ∣ size

/-- The members of a structure or a union, in the order of their declaration. -/
abbrev Members := List (String × CType)

/-- A scalar of `k` bytes. -/
def CType.scalar (k : Nat) (h : 0 < k) : CType := ⟨k, k, h, Nat.dvd_refl k⟩

def char : CType := .scalar 1 (by decide)

def uint16 : CType := .scalar 2 (by decide)

def int32 : CType := .scalar 4 (by decide)

def uint32 : CType := .scalar 4 (by decide)

def uint64 : CType := .scalar 8 (by decide)

@[simp] theorem size_scalar (k : Nat) (h : 0 < k) : (CType.scalar k h).size = k := rfl

/-- An array of `n` elements. -/
def CType.array (t : CType) (n : Nat) : CType :=
  ⟨n * t.size, t.align, t.align_pos, Nat.dvd_trans t.align_dvd (Nat.dvd_mul_left t.size n)⟩

/-- The alignment that all members ask for. -/
def alignOf : Members → Nat
  | [] => 1
  | (_, t) :: ms => max t.align (alignOf ms)

theorem alignOf_pos : (ms : Members) → 0 < alignOf ms
  | [] => Nat.one_pos
  | (_, t) :: _ => Nat.lt_of_lt_of_le t.align_pos (Nat.le_max_left ..)

/-- Where members end of which the first does not stand before address `n`. -/
def extent : Nat → Members → Nat
  | n, [] => n
  | n, (_, t) :: ms => extent (n + pad t.align n + t.size) ms

/-- The size of the largest member. -/
def largest : Members → Nat
  | [] => 0
  | (_, t) :: ms => max t.size (largest ms)

/-- `struct { ms }`. -/
def CType.struct (ms : Members) : CType where
  size := extent 0 ms + pad (alignOf ms) (extent 0 ms)
  align := alignOf ms
  align_pos := alignOf_pos ms
  align_dvd := dvd_add_pad (alignOf_pos ms) _

/-- `union { ms }`. -/
def CType.union (ms : Members) : CType where
  size := largest ms + pad (alignOf ms) (largest ms)
  align := alignOf ms
  align_pos := alignOf_pos ms
  align_dvd := dvd_add_pad (alignOf_pos ms) _

/-! ## Members -/

/-- The way from address `n` to the member `f`. -/
def offsetFrom : Nat → Members → String → Nat
  | _, [], _ => 0
  | n, (g, t) :: ms, f =>
      if g = f then pad t.align n
      else pad t.align n + t.size + offsetFrom (n + pad t.align n + t.size) ms f

/-- `offsetof(struct { ms }, f)`. -/
def offsetof (ms : Members) (f : String) : Nat := offsetFrom 0 ms f

/-- The memory from a member on, of the structure that `mem` starts with. -/
def member (ms : Members) (f : String) (mem : List UInt8) : List UInt8 :=
  mem.drop (offsetof ms f)

/-! ## Objects -/

/-- A value as an object of `size` bytes holds it that was zero before. -/
def store (size : Nat) (bs : List UInt8) : List UInt8 := (bs ++ List.replicate size 0).take size

@[simp] theorem length_store (size : Nat) (bs : List UInt8) : (store size bs).length = size := by
  simp [store]

@[simp] theorem store_nil (size : Nat) : store size [] = List.replicate size 0 := by
  simp [store]

theorem store_of_length {size : Nat} {bs : List UInt8} (h : bs.length = size) :
    store size bs = bs := by
  subst h
  simp [store]

@[simp] theorem store_bytes (k n : Nat) : store k (bytes k n) = bytes k n :=
  store_of_length (length_bytes k n)

/-- The members from address `n` on, with the padding in front of each and at the
end of the structure. -/
def objectFrom (align : Nat) : Nat → Members → List (String × List UInt8) → List UInt8
  | n, [], _ => List.replicate (pad align n) 0
  | n, (f, t) :: ms, vs =>
      List.replicate (pad t.align n) 0 ++ (store t.size ((vs.lookup f).getD []) ++
        objectFrom align (n + pad t.align n + t.size) ms vs)

/-- A structure that was set to zero before the assignments `vs`. -/
def object (ms : Members) (vs : List (String × List UInt8)) : List UInt8 :=
  objectFrom (alignOf ms) 0 ms vs

/-- What the assignments leave in the member `f`. -/
def stored : Members → List (String × List UInt8) → String → List UInt8
  | [], _, _ => []
  | (g, t) :: ms, vs, f => if g = f then store t.size ((vs.lookup f).getD []) else stored ms vs f

/-- What stands behind the member `f`. -/
def behindFrom (align : Nat) :
    Nat → Members → List (String × List UInt8) → String → List UInt8
  | n, [], _, _ => List.replicate (pad align n) 0
  | n, (g, t) :: ms, vs, f =>
      if g = f then objectFrom align (n + pad t.align n + t.size) ms vs
      else behindFrom align (n + pad t.align n + t.size) ms vs f

def behind (ms : Members) (vs : List (String × List UInt8)) (f : String) : List UInt8 :=
  behindFrom (alignOf ms) 0 ms vs f

theorem length_objectFrom (align n : Nat) (ms : Members) (vs : List (String × List UInt8)) :
    n + (objectFrom align n ms vs).length = extent n ms + pad align (extent n ms) := by
  induction ms generalizing n with
  | nil => simp [objectFrom, extent]
  | cons m ms ih =>
      obtain ⟨f, t⟩ := m
      have hrest := ih (n + pad t.align n + t.size)
      simp only [objectFrom, extent, List.length_append, List.length_replicate, length_store]
      omega

theorem length_object (ms : Members) (vs : List (String × List UInt8)) :
    (object ms vs).length = (CType.struct ms).size := by
  have h := length_objectFrom (alignOf ms) 0 ms vs
  simpa [object, CType.struct] using h

@[simp] theorem store_object (ms : Members) (vs : List (String × List UInt8)) :
    store (CType.struct ms).size (object ms vs) = object ms vs :=
  store_of_length (length_object ms vs)

theorem drop_offsetFrom (align n : Nat) (ms : Members) (vs : List (String × List UInt8))
    (f : String) (rest : List UInt8) :
    (objectFrom align n ms vs ++ rest).drop (offsetFrom n ms f) =
      stored ms vs f ++ (behindFrom align n ms vs f ++ rest) := by
  induction ms generalizing n with
  | nil => simp [objectFrom, offsetFrom, stored, behindFrom]
  | cons m ms ih =>
      obtain ⟨g, t⟩ := m
      by_cases hg : g = f
      · subst hg
        simp [objectFrom, offsetFrom, stored, behindFrom]
      · have hrest := ih (n + pad t.align n + t.size)
        simp only [objectFrom, offsetFrom, stored, behindFrom, if_neg hg, List.append_assoc]
        rw [← hrest, ← List.drop_drop, ← List.drop_drop]
        congr 1
        rw [List.drop_left' (by simp), List.drop_left' (by simp)]

/-- At the offset of a member stands what was stored there. -/
@[simp] theorem member_object (ms : Members) (vs : List (String × List UInt8)) (f : String)
    (rest : List UInt8) :
    member ms f (object ms vs ++ rest) = stored ms vs f ++ (behind ms vs f ++ rest) :=
  drop_offsetFrom (alignOf ms) 0 ms vs f rest

/-! ## Reading -/

/-- The number in the `k` bytes in front. -/
def readNat (k : Nat) (mem : List UInt8) : Nat := value (mem.take k)

@[simp] theorem readNat_bytes (k n : Nat) (rest : List UInt8) :
    readNat k (bytes k n ++ rest) = n % 256 ^ k := by
  rw [readNat, List.take_left' (length_bytes k n), value_bytes]

/-- The C string that starts in front. -/
def cstring (mem : List UInt8) : List UInt8 := mem.takeWhile (· ≠ 0)

/-- Bytes that are not NUL belong to the string they stand in front of. -/
theorem cstring_left {s : List UInt8} (h : 0 ∉ s) (rest : List UInt8) :
    cstring (s ++ rest) = s ++ cstring rest := by
  rw [cstring, List.takeWhile_append_of_pos (by grind)]
  rfl

theorem zero_notMem_cstring (mem : List UInt8) : 0 ∉ cstring mem := by
  intro h
  have hall := List.all_takeWhile (p := (· ≠ 0)) (l := mem)
  simpa using List.all_eq_true.mp hall 0 h

/-- `strncpy(dest, s, n)`. -/
def strncpy (n : Nat) (s : List UInt8) : List UInt8 := store n s

@[simp] theorem length_strncpy (n : Nat) (s : List UInt8) : (strncpy n s).length = n :=
  length_store n s

/-- A string that fits is copied and filled up with zeros. -/
theorem strncpy_eq (n : Nat) (s : List UInt8) :
    strncpy n s = s.take n ++ List.replicate (n - s.length) 0 := by
  simp [strncpy, store, List.take_append]

/-- `strcat(dest, s)`, of which `dest` is the memory from the destination on. -/
def strcat (dest s : List UInt8) : List UInt8 :=
  cstring dest ++ s ++ 0 :: dest.drop ((cstring dest).length + s.length + 1)

/-- Zeros behind a string end it. -/
theorem cstring_replicate {k : Nat} (h : 0 < k) (rest : List UInt8) :
    cstring (List.replicate k 0 ++ rest) = [] := by
  obtain ⟨k, rfl⟩ := Nat.exists_eq_add_of_lt h
  simp [cstring, List.replicate_succ]

/-- Appending to a string that fills an array up with zeros. -/
theorem strcat_replicate {s : List UInt8} (h : 0 ∉ s) (k : Nat) (t : List UInt8) :
    strcat (s ++ List.replicate (k + 1) 0) t =
      s ++ t ++ 0 :: List.replicate (k - t.length) 0 := by
  have hcstring : cstring (s ++ List.replicate (k + 1) 0) = s := by
    have hzeros := cstring_replicate (Nat.succ_pos k) []
    rw [List.append_nil] at hzeros
    rw [cstring_left h, hzeros, List.append_nil]
  have hdrop : (s ++ List.replicate (k + 1) 0).drop (s.length + t.length + 1) =
      List.replicate (k - t.length) (0 : UInt8) := by
    rw [Nat.add_assoc, ← List.drop_drop, List.drop_left, List.drop_replicate]
    congr 1
    omega
  rw [strcat, hcstring, hdrop]

/-- Appending keeps the size of an array that has room for it. -/
theorem length_strcat {dest s : List UInt8}
    (h : (cstring dest).length + s.length < dest.length) :
    (strcat dest s).length = dest.length := by
  simp [strcat]
  omega

/-- What is appended belongs to the string. -/
theorem cstring_strcat (dest : List UInt8) {s : List UInt8} (h : 0 ∉ s) (rest : List UInt8) :
    cstring (strcat dest s ++ rest) = cstring dest ++ s := by
  have hnul : 0 ∉ cstring dest ++ s := by
    simp [zero_notMem_cstring, h]
  rw [strcat, List.append_assoc, cstring_left hnul]
  simp [cstring]

/-- An object of `size` bytes that held `old` before `new` was copied over it. -/
def memcpy (size : Nat) (old : Nat → UInt8) (new : List UInt8) : List UInt8 :=
  new ++ (List.range' new.length (size - new.length)).map old

/-- An object that is overwritten as a whole. -/
theorem memcpy_of_length {size : Nat} {new : List UInt8} (h : new.length = size)
    (old : Nat → UInt8) : memcpy size old new = new := by
  simp [memcpy, h]

/-! ## Arrays -/

variable {α : Type} {f : α → List UInt8} {k : Nat}

theorem length_array (h : ∀ a, (f a).length = k) (l : List α) :
    (l.flatMap f).length = l.length * k := by
  induction l with
  | nil => simp
  | cons a l ih => simp [ih, h a, Nat.succ_mul, Nat.add_comm]

/-- The elements of an array from the `i`-th on. -/
theorem drop_array (h : ∀ a, (f a).length = k) (i : Nat) (l : List α) :
    (l.flatMap f).drop (i * k) = (l.drop i).flatMap f := by
  induction l generalizing i with
  | nil => simp
  | cons a l ih =>
      cases i with
      | zero => simp
      | succ i =>
          have hdrop : (f a ++ l.flatMap f).drop (k + i * k) = (l.flatMap f).drop (i * k) := by
            rw [← List.drop_drop, List.drop_left' (h a)]
          simpa [Nat.succ_mul, Nat.add_comm, ← ih] using hdrop

end CLayout
