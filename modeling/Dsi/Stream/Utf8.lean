import Mathlib.Algebra.Group.Int.Defs
import Mathlib.Algebra.Group.Nat.Defs

/-!
# Dsi.Stream.Utf8

The conversions `toUTF8` and `fromUTF8` (`src/base/utf8.cpp`) between wide
strings and UTF-8.  A `wchar_t` is a signed 32-bit number; `Int` stands for it,
since no value leaves its range here.  The first loop of `toUTF8` only computes
how much memory to reserve and is a function of its own, `newSize`.

* `utf8_roundtrip`: code points survive the way through UTF-8, and as many bytes
  are reserved as are pushed.
-/

namespace Dsi

/-! ## Encoding -/

/-- The bytes that `toUTF8` pushes for one wide character. -/
def encodeWChar (w : Int) : List UInt8 :=
  let n := w.toNat
  if w ≤ 0x7f then
    [UInt8.ofNat (w % 256).toNat]
  else if w ≤ 0x7ff then
    [UInt8.ofNat (0xc0 ||| ((n >>> 6) &&& 0x1f)), UInt8.ofNat (0x80 ||| (n &&& 0x3f))]
  else if w ≤ 0xffff then
    [UInt8.ofNat (0xe0 ||| ((n >>> 12) &&& 0x0f)), UInt8.ofNat (0x80 ||| ((n >>> 6) &&& 0x3f)),
      UInt8.ofNat (0x80 ||| (n &&& 0x3f))]
  else if w ≤ 0x10ffff then
    [UInt8.ofNat (0xf0 ||| ((n >>> 18) &&& 0x07)), UInt8.ofNat (0x80 ||| ((n >>> 12) &&& 0x3f)),
      UInt8.ofNat (0x80 ||| ((n >>> 6) &&& 0x3f)), UInt8.ofNat (0x80 ||| (n &&& 0x3f))]
  else
    [0x3f]

/-- What the first loop of `toUTF8` adds for one wide character. -/
def sizeWChar (w : Int) : Nat :=
  if w ≤ 0x7f then 1
  else if w ≤ 0x7ff then 2
  else if w ≤ 0xffff then 3
  else if w ≤ 0x10ffff then 4
  else 1

/-- The first loop of `toUTF8`. -/
def newSize (src : List Int) : Nat := src.foldl (fun newSize w => newSize + sizeWChar w) 0

/-- `toUTF8`. -/
def toUTF8 (src : List Int) : List UInt8 := src.flatMap encodeWChar

/-! ## Decoding -/

/-- The variables of `fromUTF8`: the character that is being put together, the
bytes it still lacks, and what is decoded. -/
structure Utf8Decoder where
  w : Nat
  bytes : Nat
  dest : List Int
  deriving DecidableEq, Repr

/-- `L'?'`, which stands for what cannot be decoded. -/
def utf8Err : Int := 0x3f

/-- The body of the loop of `fromUTF8`.  A lead byte inside a sequence drops the
sequence without a mark. -/
def Utf8Decoder.step (d : Utf8Decoder) (b : UInt8) : Utf8Decoder :=
  let c := b.toNat
  if c ≤ 0x7f then
    { d with
      bytes := 0
      dest := (if d.bytes ≠ 0 then d.dest ++ [utf8Err] else d.dest) ++ [(c : Int)] }
  else if c ≤ 0xbf then
    if d.bytes ≠ 0 then
      let w := (d.w <<< 6) ||| (c &&& 0x3f)
      { w := w
        bytes := d.bytes - 1
        dest := if d.bytes - 1 = 0 then d.dest ++ [(w : Int)] else d.dest }
    else
      { d with dest := d.dest ++ [utf8Err] }
  else if c ≤ 0xdf then
    { d with bytes := 1, w := c &&& 0x1f }
  else if c ≤ 0xef then
    { d with bytes := 2, w := c &&& 0x0f }
  else if c ≤ 0xf7 then
    { d with bytes := 3, w := c &&& 0x07 }
  else
    { d with bytes := 0, dest := d.dest ++ [utf8Err] }

/-- `fromUTF8`. -/
def fromUTF8 (src : List UInt8) : List Int :=
  let d := src.foldl Utf8Decoder.step ⟨0, 0, []⟩
  if d.bytes ≠ 0 then d.dest ++ [utf8Err] else d.dest

/-! ## Sizes -/

theorem length_encodeWChar (w : Int) : (encodeWChar w).length = sizeWChar w := by
  unfold encodeWChar sizeWChar
  dsimp only
  split
  · rfl
  split
  · rfl
  split
  · rfl
  split <;> rfl

theorem foldl_sizeWChar (src : List Int) (n : Nat) :
    src.foldl (fun newSize w => newSize + sizeWChar w) n = n + (toUTF8 src).length := by
  induction src generalizing n with
  | nil => rfl
  | cons w src ih =>
      rw [List.foldl_cons, ih, toUTF8, toUTF8, List.flatMap_cons, List.length_append,
        length_encodeWChar, Nat.add_assoc]

/-- The two loops agree, also on what is no code point. -/
theorem newSize_eq (src : List Int) : newSize src = (toUTF8 src).length := by
  rw [newSize, foldl_sizeWChar, Nat.zero_add]

/-- No string is so long that a `size_t` does not hold the size. -/
theorem newSize_le (src : List Int) : newSize src ≤ 4 * src.length := by
  rw [newSize_eq]
  induction src with
  | nil => exact Nat.le_refl 0
  | cons w src ih =>
      have hw : sizeWChar w ≤ 4 := by
        unfold sizeWChar
        split
        · decide
        split
        · decide
        split
        · decide
        split <;> decide
      rw [toUTF8, List.flatMap_cons, List.length_append, length_encodeWChar, List.length_cons]
      rw [toUTF8] at ih
      omega

/-! ## Bits -/

/-- A mask of low bits is a remainder. -/
theorem and_mask (n k : Nat) : n &&& (2 ^ k - 1) = n % 2 ^ k := Nat.and_two_pow_sub_one_eq_mod n k

/-- A tag in the high bits is added. -/
theorem tag_or {a b k : Nat} (h : b < 2 ^ k) : (2 ^ k * a) ||| b = 2 ^ k * a + b :=
  (Nat.two_pow_add_eq_or_of_lt h a).symm

theorem toNat_lead2 (n : Nat) :
    (UInt8.ofNat (0xc0 ||| ((n >>> 6) &&& 0x1f))).toNat = 0xc0 + n / 64 % 32 := by
  have hmask : (n >>> 6) &&& 0x1f = n / 64 % 32 := by
    rw [Nat.shiftRight_eq_div_pow]
    exact and_mask (n / 2 ^ 6) 5
  have htag : 0xc0 ||| (n / 64 % 32) = 0xc0 + n / 64 % 32 :=
    tag_or (a := 3) (k := 6) (by omega)
  rw [hmask, htag, UInt8.toNat_ofNat', Nat.mod_eq_of_lt (by omega)]

theorem toNat_lead3 (n : Nat) :
    (UInt8.ofNat (0xe0 ||| ((n >>> 12) &&& 0x0f))).toNat = 0xe0 + n / 4096 % 16 := by
  have hmask : (n >>> 12) &&& 0x0f = n / 4096 % 16 := by
    rw [Nat.shiftRight_eq_div_pow]
    exact and_mask (n / 2 ^ 12) 4
  have htag : 0xe0 ||| (n / 4096 % 16) = 0xe0 + n / 4096 % 16 :=
    tag_or (a := 7) (k := 5) (by omega)
  rw [hmask, htag, UInt8.toNat_ofNat', Nat.mod_eq_of_lt (by omega)]

theorem toNat_lead4 (n : Nat) :
    (UInt8.ofNat (0xf0 ||| ((n >>> 18) &&& 0x07))).toNat = 0xf0 + n / 262144 % 8 := by
  have hmask : (n >>> 18) &&& 0x07 = n / 262144 % 8 := by
    rw [Nat.shiftRight_eq_div_pow]
    exact and_mask (n / 2 ^ 18) 3
  have htag : 0xf0 ||| (n / 262144 % 8) = 0xf0 + n / 262144 % 8 :=
    tag_or (a := 15) (k := 4) (by omega)
  rw [hmask, htag, UInt8.toNat_ofNat', Nat.mod_eq_of_lt (by omega)]

/-- A continuation byte carries six bits. -/
theorem toNat_tail (n : Nat) : (UInt8.ofNat (0x80 ||| (n &&& 0x3f))).toNat = 0x80 + n % 64 := by
  have hmask : n &&& 0x3f = n % 64 := and_mask n 6
  have htag : 0x80 ||| (n % 64) = 0x80 + n % 64 := tag_or (a := 2) (k := 6) (by omega)
  rw [hmask, htag, UInt8.toNat_ofNat', Nat.mod_eq_of_lt (by omega)]

/-! ## One character -/

namespace Utf8Decoder

variable (d : Utf8Decoder) {b : UInt8} {x : Nat}

theorem step_ascii (hd : d.bytes = 0) (hb : b.toNat ≤ 0x7f) :
    d.step b = ⟨d.w, 0, d.dest ++ [(b.toNat : Int)]⟩ := by
  simp [step, hb, hd]

theorem step_lead2 (hb : b.toNat = 0xc0 + x) (hx : x < 32) : d.step b = ⟨x, 1, d.dest⟩ := by
  have hmask : (0xc0 + x) &&& 0x1f = (0xc0 + x) % 32 := and_mask _ 5
  have hx' : (0xc0 + x) % 32 = x := by omega
  simp only [step, hb, hmask, hx']
  rw [if_neg (by omega), if_neg (by omega), if_pos (by omega)]

theorem step_lead3 (hb : b.toNat = 0xe0 + x) (hx : x < 16) : d.step b = ⟨x, 2, d.dest⟩ := by
  have hmask : (0xe0 + x) &&& 0x0f = (0xe0 + x) % 16 := and_mask _ 4
  have hx' : (0xe0 + x) % 16 = x := by omega
  simp only [step, hb, hmask, hx']
  rw [if_neg (by omega), if_neg (by omega), if_neg (by omega), if_pos (by omega)]

theorem step_lead4 (hb : b.toNat = 0xf0 + x) (hx : x < 8) : d.step b = ⟨x, 3, d.dest⟩ := by
  have hmask : (0xf0 + x) &&& 0x07 = (0xf0 + x) % 8 := and_mask _ 3
  have hx' : (0xf0 + x) % 8 = x := by omega
  simp only [step, hb, hmask, hx']
  rw [if_neg (by omega), if_neg (by omega), if_neg (by omega), if_neg (by omega),
    if_pos (by omega)]

theorem shift_join {w x : Nat} (hx : x < 64) :
    w <<< 6 ||| ((0x80 + x) &&& 0x3f) = w * 64 + x := by
  have hmask : (0x80 + x) &&& 0x3f = (0x80 + x) % 64 := and_mask _ 6
  have hx' : (0x80 + x) % 64 = x := by omega
  have htag := tag_or (a := w) (k := 6) hx
  rw [hmask, hx', Nat.shiftLeft_eq, Nat.mul_comm]
  omega

/-- A continuation byte appends its six bits. -/
theorem step_tail {w k : Nat} {dest : List Int} (hb : b.toNat = 0x80 + x) (hx : x < 64) :
    step ⟨w, k + 2, dest⟩ b = ⟨w * 64 + x, k + 1, dest⟩ := by
  simp only [step, hb, shift_join hx]
  rw [if_neg (by omega), if_pos (by omega), if_pos (by omega), if_neg (by omega)]
  rfl

/-- The last continuation byte completes the character. -/
theorem step_last {w : Nat} {dest : List Int} (hb : b.toNat = 0x80 + x) (hx : x < 64) :
    step ⟨w, 1, dest⟩ b = ⟨w * 64 + x, 0, dest ++ [((w * 64 + x : Nat) : Int)]⟩ := by
  simp only [step, hb, shift_join hx]
  rw [if_neg (by omega), if_pos (by omega), if_pos Nat.one_ne_zero, if_pos trivial]

/-- The bytes of a code point are decoded to it. -/
theorem foldl_encodeWChar (hd : d.bytes = 0) {w : Int} (h0 : 0 ≤ w) (hw : w ≤ 0x10ffff) :
    ∃ w', (encodeWChar w).foldl step d = ⟨w', 0, d.dest ++ [w]⟩ := by
  obtain ⟨n, rfl⟩ : ∃ n : Nat, w = n := ⟨w.toNat, by omega⟩
  unfold encodeWChar
  simp only [Int.toNat_natCast]
  by_cases h1 : (n : Int) ≤ 0x7f
  · have hb : (UInt8.ofNat ((n : Int) % 256).toNat).toNat = n := by
      rw [UInt8.toNat_ofNat']
      omega
    rw [if_pos h1]
    refine ⟨d.w, ?_⟩
    rw [List.foldl_cons, List.foldl_nil, step_ascii d hd (by omega), hb]
  rw [if_neg h1]
  have h6 : (UInt8.ofNat (0x80 ||| ((n >>> 6) &&& 0x3f))).toNat = 0x80 + n / 64 % 64 := by
    rw [toNat_tail, Nat.shiftRight_eq_div_pow]
  have h12 : (UInt8.ofNat (0x80 ||| ((n >>> 12) &&& 0x3f))).toNat = 0x80 + n / 4096 % 64 := by
    rw [toNat_tail, Nat.shiftRight_eq_div_pow]
  by_cases h2 : (n : Int) ≤ 0x7ff
  · have hw2 : n / 64 % 32 * 64 + n % 64 = n := by omega
    rw [if_pos h2]
    refine ⟨n, ?_⟩
    rw [List.foldl_cons, step_lead2 d (toNat_lead2 n) (by omega),
      List.foldl_cons, step_last (toNat_tail n) (by omega), hw2]
    rfl
  rw [if_neg h2]
  by_cases h3 : (n : Int) ≤ 0xffff
  · have hw3 : (n / 4096 % 16 * 64 + n / 64 % 64) * 64 + n % 64 = n := by omega
    rw [if_pos h3]
    refine ⟨n, ?_⟩
    rw [List.foldl_cons, step_lead3 d (toNat_lead3 n) (by omega),
      List.foldl_cons, step_tail h6 (by omega),
      List.foldl_cons, step_last (toNat_tail n) (by omega), hw3]
    rfl
  have hw4 : ((n / 262144 % 8 * 64 + n / 4096 % 64) * 64 + n / 64 % 64) * 64 + n % 64 = n := by
    omega
  rw [if_neg h3, if_pos hw]
  refine ⟨n, ?_⟩
  rw [List.foldl_cons, step_lead4 d (toNat_lead4 n) (by omega),
    List.foldl_cons, step_tail h12 (by omega),
    List.foldl_cons, step_tail h6 (by omega),
    List.foldl_cons, step_last (toNat_tail n) (by omega), hw4]
  rfl

theorem foldl_toUTF8 (hd : d.bytes = 0) {s : List Int} (hs : ∀ w ∈ s, 0 ≤ w ∧ w ≤ 0x10ffff) :
    ∃ w', (toUTF8 s).foldl step d = ⟨w', 0, d.dest ++ s⟩ := by
  induction s generalizing d with
  | nil =>
      obtain ⟨w, bytes, dest⟩ := d
      subst hd
      exact ⟨w, by simp [toUTF8]⟩
  | cons w s ih =>
      obtain ⟨h0, hw⟩ := hs w List.mem_cons_self
      obtain ⟨w1, hhead⟩ := foldl_encodeWChar d hd h0 hw
      obtain ⟨w2, htail⟩ :=
        ih ⟨w1, 0, d.dest ++ [w]⟩ rfl fun x hx => hs x (List.mem_cons_of_mem w hx)
      refine ⟨w2, ?_⟩
      rw [toUTF8, List.flatMap_cons, List.foldl_append, hhead]
      simpa [toUTF8] using htail

end Utf8Decoder

/-- Code points survive the way through UTF-8. -/
theorem fromUTF8_toUTF8 {s : List Int} (hs : ∀ w ∈ s, 0 ≤ w ∧ w ≤ 0x10ffff) :
    fromUTF8 (toUTF8 s) = s := by
  obtain ⟨w, hrun⟩ := Utf8Decoder.foldl_toUTF8 ⟨0, 0, []⟩ rfl hs
  rw [fromUTF8, hrun]
  simp

/-- Wide strings of code points come back from UTF-8, and the first loop of `toUTF8` counts the
bytes that the second one pushes. -/
theorem utf8_roundtrip {s : List Int} (hs : ∀ w ∈ s, 0 ≤ w ∧ w ≤ 0x10ffff) :
    fromUTF8 (toUTF8 s) = s ∧ newSize s = (toUTF8 s).length :=
  ⟨fromUTF8_toUTF8 hs, newSize_eq s⟩

/-- The first and the last code points of each length, and of the surrogates. -/
theorem utf8_roundtrip_bounds :
    let s : List Int := [0, 0x7f, 0x80, 0x7ff, 0x800, 0xd800, 0xdfff, 0xffff, 0x10000, 0x10ffff]
    newSize s = 26 ∧ fromUTF8 (toUTF8 s) = s ∧ newSize s = (toUTF8 s).length :=
  ⟨by decide, utf8_roundtrip (by decide)⟩

end Dsi
