import Mathlib.Algebra.Group.Int.Defs
import Mathlib.Algebra.GroupWithZero.Nat

/-!
# Dsi.Lib.LittleEndian

Fixed-width little-endian integers on byte lists: the bytes a C structure
holds on a little-endian machine, and a reader that takes them off the front
of a stream again.  Nothing here knows about any particular message format;
the module depends only on the Lean 4 core library.
-/

namespace LittleEndian

/-- The low `k` bytes of `n`, least significant first. -/
def bytes : Nat → Nat → List UInt8
  | 0, _ => []
  | k + 1, n => UInt8.ofNat n :: bytes k (n / 256)

/-- The number that little-endian bytes spell. -/
def value : List UInt8 → Nat
  | [] => 0
  | b :: bs => b.toNat + 256 * value bs

@[simp] theorem length_bytes (k n : Nat) : (bytes k n).length = k := by
  induction k generalizing n with
  | zero => rfl
  | succ k ih => simp [bytes, ih]

/-- Reading the bytes back gives the number, reduced to the width they hold. -/
theorem value_bytes (k n : Nat) : value (bytes k n) = n % 256 ^ k := by
  induction k generalizing n with
  | zero => simp [bytes, value, Nat.mod_one]
  | succ k ih =>
      have hbyte : (UInt8.ofNat n).toNat = n % 256 := by simp
      rw [bytes, value, ih, hbyte, Nat.pow_succ, Nat.mul_comm (256 ^ k) 256, Nat.mod_mul]

/-- Split the first `k` bytes off a stream, when there are that many. -/
def split? (k : Nat) (bs : List UInt8) : Option (List UInt8 × List UInt8) :=
  if k ≤ bs.length then some (bs.take k, bs.drop k) else none

/-- Splitting off exactly the bytes in front leaves what follows. -/
theorem split?_append {front rest : List UInt8} {k : Nat} (h : front.length = k) :
    split? k (front ++ rest) = some (front, rest) := by
  subst h
  simp [split?]

/-- A successful split shortens the stream by the bytes taken. -/
theorem length_of_split? {k : Nat} {bs front rest : List UInt8}
    (h : split? k bs = some (front, rest)) : rest.length + k = bs.length := by
  unfold split? at h
  by_cases hk : k ≤ bs.length
  · rw [if_pos hk] at h
    have hrest : bs.drop k = rest := congrArg Prod.snd (Option.some.inj h)
    rw [← hrest, List.length_drop]
    omega
  · rw [if_neg hk] at h; contradiction

/-- Read a `k`-byte integer off the front of a stream. -/
def read? (k : Nat) (bs : List UInt8) : Option (Nat × List UInt8) :=
  (split? k bs).map fun p => (value p.1, p.2)

/-- An integer that fits its width reads back from its own bytes. -/
theorem read?_bytes_append (k n : Nat) (h : n < 256 ^ k) (rest : List UInt8) :
    read? k (bytes k n ++ rest) = some (n, rest) := by
  unfold read?
  rw [split?_append (length_bytes k n)]
  simp [value_bytes, Nat.mod_eq_of_lt h]

end LittleEndian
