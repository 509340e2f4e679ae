import Mathlib.Data.Stream.Init

/-!
# Dsi.Lib.Device

A device that takes bytes in pieces.  What the calls of a write function bring
is a stream of replies: each call is ready to take some number of bytes, is
interrupted, or fails.  The stream is the adversary of every loop that writes
until everything is gone; the module knows nothing about any of them.
-/

namespace Device

/-- What one call of the device's write function does. -/
inductive Reply where
  /-- Up to `n` of the bytes offered are taken. -/
  | accepts (n : Nat)
  /-- The call is interrupted by a signal (`EINTR`) and takes nothing. -/
  | interrupted
  /-- The call fails with another error. -/
  | failed
  deriving DecidableEq, Repr

/-- The bytes the device is ready to take in a call. -/
def Reply.count : Reply → Nat
  | .accepts n => n
  | .interrupted => 0
  | .failed => 0

/-- The bytes the device is ready to take in its first `k` calls. -/
def taken (dev : Stream' Reply) : Nat → Nat
  | 0 => 0
  | k + 1 => dev.head.count + taken dev.tail k

/-- No call fails, and after any number of calls one takes a byte again. -/
structure KeepsAccepting (dev : Stream' Reply) : Prop where
  never_failed : ∀ k, dev.get k ≠ .failed
  again : ∀ k, ∃ j, k ≤ j ∧ 0 < (dev.get j).count

namespace KeepsAccepting

variable {dev : Stream' Reply}

theorem tail (h : KeepsAccepting dev) : KeepsAccepting dev.tail where
  never_failed k := h.never_failed (k + 1)
  again k := by
    obtain ⟨j, hj, hc⟩ := h.again (k + 1)
    obtain ⟨i, rfl⟩ : ∃ i, j = i + 1 := ⟨j - 1, by omega⟩
    exact ⟨i, by omega, hc⟩

theorem drop (h : KeepsAccepting dev) (k : Nat) : KeepsAccepting (dev.drop k) := by
  induction k generalizing dev with
  | zero => exact h
  | succ k ih => exact ih h.tail

theorem head_ne_failed (h : KeepsAccepting dev) : dev.head ≠ .failed := h.never_failed 0

/-- A device answers with bytes taken or with an interruption. -/
theorem head_cases (h : KeepsAccepting dev) :
    dev.head = .interrupted ∨ ∃ n, dev.head = .accepts n := by
  cases hr : dev.head with
  | accepts n => exact .inr ⟨n, rfl⟩
  | interrupted => exact .inl rfl
  | failed => exact absurd hr h.head_ne_failed

end KeepsAccepting

/-- A piece that is still to come is part of what is taken up to it. -/
theorem count_get_le_taken (dev : Stream' Reply) (j : Nat) :
    (dev.get j).count ≤ taken dev (j + 1) := by
  induction j generalizing dev with
  | zero => exact Nat.le_add_right _ _
  | succ j ih => exact Nat.le_trans (ih dev.tail) (Nat.le_add_left _ _)

theorem taken_add (dev : Stream' Reply) (i j : Nat) :
    taken dev (i + j) = taken dev i + taken (dev.drop i) j := by
  induction i generalizing dev with
  | zero => simp [taken]
  | succ i ih =>
      have hsplit := ih dev.tail
      rw [Nat.succ_add, taken, taken, hsplit, Nat.add_assoc]
      rfl

/-- What a device takes in the long run has no bound. -/
theorem KeepsAccepting.exists_le_taken {dev : Stream' Reply} (h : KeepsAccepting dev) (m : Nat) :
    ∃ k, m ≤ taken dev k := by
  induction m with
  | zero => exact ⟨0, Nat.zero_le _⟩
  | succ m ih =>
      obtain ⟨k, hk⟩ := ih
      obtain ⟨j, -, hj⟩ := (h.drop k).again 0
      refine ⟨k + (j + 1), ?_⟩
      have hone := count_get_le_taken (dev.drop k) j
      rw [taken_add]
      omega

/-! ## A device that always takes the same number of bytes -/

theorem keepsAccepting_const {n : Nat} (h : 0 < n) :
    KeepsAccepting (Stream'.const (.accepts n)) where
  never_failed _ := nofun
  again k := ⟨k, Nat.le_refl k, h⟩

theorem taken_const (n k : Nat) : taken (Stream'.const (.accepts n)) k = n * k := by
  induction k with
  | zero => rfl
  | succ k ih =>
      have htail : (Stream'.const (Reply.accepts n)).tail = Stream'.const (.accepts n) := rfl
      rw [taken, htail, ih]
      change n + n * k = n * (k + 1)
      rw [Nat.mul_succ, Nat.add_comm]

end Device
