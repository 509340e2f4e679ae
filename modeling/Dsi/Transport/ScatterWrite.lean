import Dsi.Lib.Device
import Dsi.Transport.Packets

/-!
# Dsi.Transport.ScatterWrite

The blocking scatter write: `IODevice::write_all(iovec*)`
(`src/common/CDevices.hpp`) with `adopt_iov_pointers` (`src/common/io.cpp`),
and the calls that `CRequestWriter::flush` makes of it through
`CBaseChannel::sendAll`.  The device is a stream of replies, so that a write
may be cut into any pieces; `write_all` works on the caller's array in place.
-/

namespace Dsi

open Device

namespace Scatter

/-! ## The array of segments -/

/-- An `iovec`: the `iov_len` bytes from `iov_base` on.  Moving the base over
bytes that are gone drops them. -/
abbrev Iovec := List UInt8

/-- `calculate_total_length`. -/
def calculateTotalLength (iov : List Iovec) : Nat := (iov.map List.length).sum

/-- The loop of `adopt_iov_pointers`: the segments as it leaves them, and
`skip`.  A segment that is only shortened does not change `rc`, so the segments
behind it are treated as well. -/
def adoptIovPointers : List Iovec → Nat → List Iovec × Nat
  | [], _ => ([], 0)
  | s :: ss, rc =>
      if rc = 0 then
        (s :: ss, 0)
      else if s.length ≤ rc then
        let r := adoptIovPointers ss (rc - s.length)
        (s :: r.1, r.2 + 1)
      else
        let r := adoptIovPointers ss rc
        (s.drop rc :: r.1, r.2)

/-- The local state of `write_all`: the caller's array, cut where `_iov` points
to, and the bytes the device has accepted; `total` is their number. -/
structure Progress where
  passed : List Iovec
  window : List Iovec
  sent : List UInt8
  deriving DecidableEq, Repr

namespace Progress

/-- The caller's array. -/
def iov (w : Progress) : List Iovec := w.passed ++ w.window

/-- The device accepts the first `rc` bytes of the window. -/
def accept (w : Progress) (rc : Nat) : Progress :=
  { w with sent := w.sent ++ w.window.flatten.take rc }

/-- `adopt_iov_pointers(_iov, iovlen, rc)`. -/
def adopt (w : Progress) (rc : Nat) : Progress :=
  let r := adoptIovPointers w.window rc
  { w with passed := w.passed ++ r.1.take r.2, window := r.1.drop r.2 }

end Progress

/-- What `write_all` leaves: whether `ec` is `io::ok`, the caller's array, the
bytes accepted, and the device as the next call finds it. -/
structure Written where
  ok : Bool
  iov : List Iovec
  sent : List UInt8
  dev : Stream' Reply

/-- The end of `write_all`: `get_write_all_error_code(total, total_len)`. -/
def finish (totalLen : Nat) (w : Progress) (dev : Stream' Reply) : Written :=
  ⟨w.sent.length == totalLen, w.iov, w.sent, dev⟩

/-- The loop of `write_all`; the fuel bounds the number of calls. -/
def writeLoop (totalLen : Nat) : Nat → Stream' Reply → Progress → Option Written
  | 0, _, _ => none
  | fuel + 1, dev, w =>
      match dev.head with
      | .failed => some (finish totalLen w dev.tail)
      | .interrupted =>
          if w.sent.length < totalLen then
            writeLoop totalLen fuel dev.tail w
          else
            some (finish totalLen w dev.tail)
      | .accepts n =>
          let rc := min n (calculateTotalLength w.window)
          let w' := w.accept rc
          if w'.sent.length < totalLen then
            writeLoop totalLen fuel dev.tail (w'.adopt rc)
          else
            some (finish totalLen w' dev.tail)

/-- `IODevice::write_all(iov, iovlen, ec)`. -/
def writeAll (fuel : Nat) (iov : List Iovec) (dev : Stream' Reply) : Option Written :=
  writeLoop (calculateTotalLength iov) fuel dev ⟨[], iov, []⟩

/-- The write returns, with success, and the device has accepted every byte of
every segment, once and in order. -/
def WritesAll (iov : List Iovec) (dev : Stream' Reply) : Prop :=
  ∃ fuel r, writeAll fuel iov dev = some r ∧ r.ok = true ∧ r.sent = iov.flatten

/-- The place `c` in the concatenation is inside a segment, neither at its
start nor at its end, and that segment is not the last one. -/
def InsideNonLast : List Iovec → Nat → Prop
  | [], _ => False
  | [_], _ => False
  | s :: t :: ss, c =>
      (0 < c ∧ c < s.length) ∨ (s.length ≤ c ∧ InsideNonLast (t :: ss) (c - s.length))

/-! ## One call of `adopt_iov_pointers` -/

theorem calculateTotalLength_eq (iov : List Iovec) :
    calculateTotalLength iov = iov.flatten.length := by
  simp [calculateTotalLength]

@[simp] theorem adoptIovPointers_zero (iov : List Iovec) : adoptIovPointers iov 0 = (iov, 0) := by
  cases iov <;> simp [adoptIovPointers]

/-- The segments that the window has left after `rc` bytes. -/
def left (iov : List Iovec) (rc : Nat) : List Iovec :=
  (adoptIovPointers iov rc).1.drop (adoptIovPointers iov rc).2

theorem left_zero (iov : List Iovec) : left iov 0 = iov := by
  simp [left]

theorem left_cons_of_le {s : Iovec} {ss : List Iovec} {rc : Nat} (h0 : rc ≠ 0)
    (h : s.length ≤ rc) : left (s :: ss) rc = left ss (rc - s.length) := by
  simp [left, adoptIovPointers, h0, h]

/-- Whatever is treated behind a shortened segment, the window keeps no more
than the segments themselves. -/
theorem length_drop_adopt_le (iov : List Iovec) (rc k : Nat) :
    ((adoptIovPointers iov rc).1.drop k).flatten.length ≤ (iov.drop k).flatten.length := by
  induction iov generalizing rc k with
  | nil => simp [adoptIovPointers]
  | cons s ss ih =>
      unfold adoptIovPointers
      by_cases h0 : rc = 0
      · rw [if_pos h0]
      · rw [if_neg h0]
        by_cases hs : s.length ≤ rc
        · rw [if_pos hs]
          cases k with
          | zero => simpa using ih (rc - s.length) 0
          | succ k => simpa using ih (rc - s.length) k
        · rw [if_neg hs]
          cases k with
          | zero =>
              have hrest := ih rc 0
              simp only [List.drop_zero, List.flatten_cons, List.length_append, List.length_drop]
                at hrest ⊢
              omega
          | succ k => simpa using ih rc k

theorem length_drop_flatten_le (iov : List Iovec) (k : Nat) :
    (iov.drop k).flatten.length ≤ iov.flatten.length := by
  have hsplit : (iov.take k ++ iov.drop k).flatten.length = iov.flatten.length := by
    rw [List.take_append_drop]
  rw [List.flatten_append, List.length_append] at hsplit
  omega

/-- Behind a segment that `rc` only shortens, either a segment is skipped, and
then the shortened one is what the window loses, or every one of them is
shortened as well. -/
theorem length_adopt_tail (t : Iovec) (ss : List Iovec) {rc : Nat} (h0 : 0 < rc) :
    0 < (adoptIovPointers (t :: ss) rc).2 ∨
      (adoptIovPointers (t :: ss) rc).1.flatten.length < (t :: ss).flatten.length := by
  unfold adoptIovPointers
  rw [if_neg (Nat.ne_of_gt h0)]
  by_cases ht : t.length ≤ rc
  · rw [if_pos ht]
    exact .inl (Nat.succ_pos _)
  · rw [if_neg ht]
    refine .inr ?_
    have hrest := length_drop_adopt_le ss rc 0
    simp only [List.drop_zero, List.flatten_cons, List.length_append, List.length_drop]
      at hrest ⊢
    omega

/-- A write that ends inside a segment which is not the last one costs the
window bytes that were never sent. -/
theorem length_left_lt {iov : List Iovec} {rc : Nat} (h : InsideNonLast iov rc) :
    (left iov rc).flatten.length < iov.flatten.length - rc := by
  induction iov generalizing rc with
  | nil => exact h.elim
  | cons s ss ih =>
      cases ss with
      | nil => exact h.elim
      | cons t ss =>
          rcases h with ⟨h0, hs⟩ | ⟨hs, hin⟩
          · have hcut : left (s :: t :: ss) rc =
                (s.drop rc :: (adoptIovPointers (t :: ss) rc).1).drop
                  (adoptIovPointers (t :: ss) rc).2 := by
              rw [left, adoptIovPointers, if_neg (Nat.ne_of_gt h0), if_neg (by omega)]
            have htail := length_adopt_tail t ss h0
            rw [hcut, List.flatten_cons, List.length_append]
            cases hk : (adoptIovPointers (t :: ss) rc).2 with
            | zero =>
                rw [hk] at htail
                simp only [List.drop_zero, List.flatten_cons, List.length_append,
                  List.length_drop] at htail ⊢
                omega
            | succ k =>
                have hle := length_drop_adopt_le (t :: ss) rc k
                have hall := length_drop_flatten_le (t :: ss) k
                rw [List.drop_succ_cons]
                omega
          · by_cases h0 : rc = 0
            · -- an empty segment in front of the place 0: nothing behind it is entered
              exfalso
              subst h0
              have hnil : s.length = 0 := by omega
              rw [hnil, Nat.sub_zero] at hin
              have hlt := ih hin
              rw [left_zero] at hlt
              omega
            · have hlt := ih hin
              rw [left_cons_of_le h0 hs, List.flatten_cons, List.length_append]
              omega

/-- A write that ends at the border of a segment, or in the last one, leaves
the window at the first byte that was not sent. -/
theorem flatten_left {iov : List Iovec} {rc : Nat} (h : ¬ InsideNonLast iov rc) :
    (left iov rc).flatten = iov.flatten.drop rc := by
  induction iov generalizing rc with
  | nil => simp [left, adoptIovPointers]
  | cons s ss ih =>
      by_cases h0 : rc = 0
      · rw [h0, left_zero, List.drop_zero]
      by_cases hs : s.length ≤ rc
      · rw [left_cons_of_le h0 hs, List.flatten_cons, List.drop_append, List.drop_eq_nil_of_le hs,
          List.nil_append]
        cases ss with
        | nil => simp [left, adoptIovPointers]
        | cons t ss => exact ih fun hin => h (.inr ⟨hs, hin⟩)
      · cases ss with
        | nil => simp [left, adoptIovPointers, h0, hs]
        | cons t ss => exact absurd (.inl ⟨Nat.pos_of_ne_zero h0, Nat.lt_of_not_le hs⟩) h

/-- Every segment but the last one is as it was. -/
theorem dropLast_adopt {iov : List Iovec} {rc : Nat} (h : ¬ InsideNonLast iov rc) :
    (adoptIovPointers iov rc).1.dropLast = iov.dropLast ∧
      ((adoptIovPointers iov rc).1 = [] ↔ iov = []) := by
  induction iov generalizing rc with
  | nil => simp [adoptIovPointers]
  | cons s ss ih =>
      unfold adoptIovPointers
      by_cases h0 : rc = 0
      · simp [h0]
      rw [if_neg h0]
      by_cases hs : s.length ≤ rc
      · rw [if_pos hs]
        cases ss with
        | nil => simp [adoptIovPointers]
        | cons t ss =>
            obtain ⟨hlast, hnil⟩ := ih fun hin => h (.inr ⟨hs, hin⟩)
            have hne : (adoptIovPointers (t :: ss) (rc - s.length)).1 ≠ [] := by
              simpa using mt hnil.mp
            exact ⟨by rw [List.dropLast_cons_of_ne_nil hne, hlast]; rfl, by simp⟩
      · rw [if_neg hs]
        cases ss with
        | nil => simp [adoptIovPointers]
        | cons t ss => exact absurd (.inl ⟨Nat.pos_of_ne_zero h0, Nat.lt_of_not_le hs⟩) h

theorem lt_length_of_inside {iov : List Iovec} {c : Nat} (h : InsideNonLast iov c) :
    0 < c ∧ c < iov.flatten.length := by
  have hlt := length_left_lt h
  refine ⟨Nat.pos_of_ne_zero fun h0 => ?_, by omega⟩
  rw [h0, left_zero, Nat.sub_zero] at hlt
  exact Nat.lt_irrefl _ hlt

/-- Places in what is left are places in the array, `rc` bytes on. -/
theorem insideNonLast_left {iov : List Iovec} {rc : Nat} (h : ¬ InsideNonLast iov rc) (c : Nat) :
    InsideNonLast (left iov rc) c ↔ InsideNonLast iov (rc + c) := by
  induction iov generalizing rc with
  | nil => simp [left, adoptIovPointers, InsideNonLast]
  | cons s ss ih =>
      by_cases h0 : rc = 0
      · rw [h0, left_zero, Nat.zero_add]
      cases ss with
      | nil =>
          by_cases hs : s.length ≤ rc
          · simp [left, adoptIovPointers, h0, hs, InsideNonLast]
          · simp [left, adoptIovPointers, h0, hs, InsideNonLast]
      | cons t ss =>
          by_cases hs : s.length ≤ rc
          · rw [left_cons_of_le h0 hs, ih fun hin => h (.inr ⟨hs, hin⟩)]
            have hsub : rc - s.length + c = rc + c - s.length := by omega
            rw [hsub]
            constructor
            · intro hin
              exact .inr ⟨by omega, hin⟩
            · rintro (⟨-, hlt⟩ | ⟨-, hin⟩)
              · omega
              · exact hin
          · exact absurd (.inl ⟨Nat.pos_of_ne_zero h0, Nat.lt_of_not_le hs⟩) h

/-! ## Runs of `write_all` -/

/-- The number of calls a write of `total` bytes takes. -/
def TakesCalls (total : Nat) (dev : Stream' Reply) (k : Nat) : Prop :=
  0 < k ∧ total ≤ taken dev k ∧ ∀ i, 0 < i → i < k → taken dev i < total

theorem takesCalls_one {total : Nat} {dev : Stream' Reply} (h : total ≤ dev.head.count) :
    TakesCalls total dev 1 :=
  ⟨Nat.one_pos, by simpa [taken] using h, fun i hi hlt => by omega⟩

/-- The first call counts when it does not take everything. -/
theorem TakesCalls.succ {total k : Nat} {dev : Stream' Reply} (hlt : dev.head.count < total)
    (h : TakesCalls (total - dev.head.count) dev.tail k) : TakesCalls total dev (k + 1) := by
  obtain ⟨hk, htot, hbefore⟩ := h
  refine ⟨Nat.succ_pos k, by rw [taken]; omega, fun i hi hik => ?_⟩
  obtain ⟨j, rfl⟩ : ∃ j, i = j + 1 := ⟨i - 1, by omega⟩
  rw [taken]
  rcases Nat.eq_zero_or_pos j with rfl | hj
  · simpa [taken] using hlt
  · have hpre := hbefore j hj (by omega)
    omega

theorem TakesCalls.unique {total k l : Nat} {dev : Stream' Reply} (hk : TakesCalls total dev k)
    (hl : TakesCalls total dev l) : k = l := by
  rcases Nat.lt_trichotomy k l with hlt | heq | hlt
  · have hpre := hl.2.2 k hk.1 hlt
    have htot := hk.2.1
    omega
  · exact heq
  · have hpre := hk.2.2 l hl.1 hlt
    have htot := hl.2.1
    omega

theorem sent_adopt (w : Progress) (rc : Nat) : (w.adopt rc).sent = w.sent := rfl

theorem iov_adopt (w : Progress) (rc : Nat) :
    (w.adopt rc).iov = w.passed ++ (adoptIovPointers w.window rc).1 := by
  simp [Progress.adopt, Progress.iov]

theorem length_sent_accept (w : Progress) (rc : Nat) :
    (w.accept rc).sent.length = w.sent.length + min rc w.window.flatten.length := by
  simp [Progress.accept]

section Loop

variable {totalLen fuel : Nat} {dev : Stream' Reply} {w : Progress}

theorem writeLoop_interrupted (hr : dev.head = .interrupted) :
    writeLoop totalLen (fuel + 1) dev w =
      if w.sent.length < totalLen then writeLoop totalLen fuel dev.tail w
      else some (finish totalLen w dev.tail) := by
  rw [writeLoop, hr]

theorem writeLoop_accepts {n rc : Nat} (hr : dev.head = .accepts n)
    (hrc : rc = min n w.window.flatten.length) :
    writeLoop totalLen (fuel + 1) dev w =
      if w.sent.length + rc < totalLen then
        writeLoop totalLen fuel dev.tail ((w.accept rc).adopt rc)
      else
        some (finish totalLen (w.accept rc) dev.tail) := by
  have hlen : (w.accept rc).sent.length = w.sent.length + rc := by
    rw [length_sent_accept]
    omega
  rw [writeLoop, hr]
  simp only [calculateTotalLength_eq, ← hrc, hlen]

/-- More fuel does not change what a returned write left. -/
theorem writeLoop_mono {r : Written} (h : writeLoop totalLen fuel dev w = some r) (d : Nat) :
    writeLoop totalLen (fuel + d) dev w = some r := by
  induction fuel generalizing dev w with
  | zero => simp [writeLoop] at h
  | succ fuel ih =>
      rw [Nat.succ_add]
      cases hr : dev.head with
      | failed =>
          rw [writeLoop, hr] at h ⊢
          exact h
      | interrupted =>
          rw [writeLoop_interrupted hr] at h ⊢
          by_cases hc : w.sent.length < totalLen
          · rw [if_pos hc] at h ⊢
            exact ih h
          · rw [if_neg hc] at h ⊢
            exact h
      | accepts n =>
          rw [writeLoop_accepts hr rfl] at h ⊢
          by_cases hc : w.sent.length + min n w.window.flatten.length < totalLen
          · rw [if_pos hc] at h ⊢
            exact ih h
          · rw [if_neg hc] at h ⊢
            exact h

/-- A window that has lost bytes is never written to the end: what it still
offers stays less than what is still asked for. -/
theorem writeLoop_eq_none_of_lt (hdev : KeepsAccepting dev)
    (hlt : w.sent.length + w.window.flatten.length < totalLen) :
    writeLoop totalLen fuel dev w = none := by
  induction fuel generalizing dev w with
  | zero => rfl
  | succ fuel ih =>
      rcases hdev.head_cases with hr | ⟨n, hr⟩
      · rw [writeLoop_interrupted hr, if_pos (by omega)]
        exact ih hdev.tail hlt
      · obtain ⟨rc, hrc⟩ : ∃ rc, rc = min n w.window.flatten.length := ⟨_, rfl⟩
        rw [writeLoop_accepts hr hrc, if_pos (by omega)]
        refine ih hdev.tail ?_
        have hleft : (left w.window rc).flatten.length ≤ w.window.flatten.length - rc := by
          by_cases hin : InsideNonLast w.window rc
          · exact Nat.le_of_lt (length_left_lt hin)
          · rw [flatten_left hin, List.length_drop]
        have hwin : ((w.accept rc).adopt rc).window = left w.window rc := rfl
        rw [hwin, sent_adopt, length_sent_accept]
        omega

/-- A place where the device stops inside a segment that is not the last one:
the write does not return. -/
theorem writeLoop_eq_none_of_inside {k : Nat} (hdev : KeepsAccepting dev)
    (hall : w.sent.length + w.window.flatten.length = totalLen)
    (hin : InsideNonLast w.window (taken dev k)) :
    writeLoop totalLen fuel dev w = none := by
  induction fuel generalizing dev w k with
  | zero => rfl
  | succ fuel ih =>
      have hpos := lt_length_of_inside hin
      cases k with
      | zero => exact absurd hpos.1 (Nat.lt_irrefl 0)
      | succ k =>
          rcases hdev.head_cases with hr | ⟨n, hr⟩
          · rw [writeLoop_interrupted hr, if_pos (by omega)]
            rw [taken, hr, Reply.count, Nat.zero_add] at hin
            exact ih hdev.tail hall hin
          · rw [taken, hr, Reply.count] at hin hpos
            have hrc : n = min n w.window.flatten.length := by omega
            rw [writeLoop_accepts hr hrc, if_pos (by omega)]
            by_cases hnow : InsideNonLast w.window n
            · refine writeLoop_eq_none_of_lt hdev.tail ?_
              have hlost := length_left_lt hnow
              have hwin : ((w.accept n).adopt n).window = left w.window n := rfl
              rw [hwin, sent_adopt, length_sent_accept]
              omega
            · have hwin : ((w.accept n).adopt n).window = left w.window n := rfl
              refine ih hdev.tail ?_ (k := k) ?_
              · rw [hwin, sent_adopt, length_sent_accept, flatten_left hnow, List.length_drop]
                omega
              · rw [hwin]
                exact (insideNonLast_left hnow _).mpr hin

/-- A call that takes all that is left ends the write. -/
theorem writeLoop_last (hdev : KeepsAccepting dev)
    (hall : w.sent.length + w.window.flatten.length = totalLen)
    (hlast : w.window.flatten.length ≤ dev.head.count) :
    writeLoop totalLen 1 dev w = some ⟨true, w.iov, w.sent ++ w.window.flatten, dev.drop 1⟩ := by
  rcases hdev.head_cases with hr | ⟨n, hr⟩
  · rw [hr, Reply.count, Nat.le_zero] at hlast
    rw [writeLoop_interrupted hr, if_neg (by omega), finish, List.length_eq_zero_iff.mp hlast,
      List.append_nil, beq_iff_eq.mpr (by omega)]
    rfl
  · rw [hr, Reply.count] at hlast
    have hrc : w.window.flatten.length = min n w.window.flatten.length := by omega
    have hsent : (w.accept w.window.flatten.length).sent = w.sent ++ w.window.flatten := by
      rw [Progress.accept, List.take_length]
    rw [writeLoop_accepts hr hrc, if_neg (by omega), finish, hsent, List.length_append,
      beq_iff_eq.mpr (by omega)]
    rfl

/-- While the device stops only at borders and in the last segment, the write
takes everything and leaves all segments but the last one as they were. -/
theorem writeLoop_of_not_inside {m : Nat} (hdev : KeepsAccepting dev)
    (hall : w.sent.length + w.window.flatten.length = totalLen)
    (hm : w.window.flatten.length ≤ taken dev m)
    (hin : ∀ k, ¬ InsideNonLast w.window (taken dev k)) :
    ∃ k iov, TakesCalls w.window.flatten.length dev k ∧ iov.dropLast = w.iov.dropLast ∧
      writeLoop totalLen k dev w =
        some ⟨true, iov, w.sent ++ w.window.flatten, dev.drop k⟩ := by
  induction m generalizing dev w with
  | zero =>
      have hlast : w.window.flatten.length ≤ dev.head.count :=
        Nat.le_trans hm (Nat.zero_le _)
      exact ⟨1, w.iov, takesCalls_one hlast, rfl, writeLoop_last hdev hall hlast⟩
  | succ m ih =>
      by_cases hlast : w.window.flatten.length ≤ dev.head.count
      · exact ⟨1, w.iov, takesCalls_one hlast, rfl, writeLoop_last hdev hall hlast⟩
      have hmore : dev.head.count < w.window.flatten.length := Nat.lt_of_not_le hlast
      rw [taken] at hm
      rcases hdev.head_cases with hr | ⟨n, hr⟩
      · have hcount : dev.head.count = 0 := by rw [hr]; rfl
        obtain ⟨k, iov, hk, hiov, hrun⟩ := ih hdev.tail hall (by omega) fun k hk => by
          refine hin (k + 1) ?_
          rw [taken, hcount, Nat.zero_add]
          exact hk
        refine ⟨k + 1, iov, TakesCalls.succ hmore (by rwa [hcount, Nat.sub_zero]), hiov, ?_⟩
        rw [writeLoop_interrupted hr, if_pos (by omega), hrun]
        rfl
      · have hcount : dev.head.count = n := by rw [hr]; rfl
        have hnow : ¬ InsideNonLast w.window n := by
          have hone := hin 1
          rwa [taken, taken, Nat.add_zero, hcount] at hone
        have hwin : ((w.accept n).adopt n).window = left w.window n := rfl
        have hlen : (left w.window n).flatten.length = w.window.flatten.length - n := by
          rw [flatten_left hnow, List.length_drop]
        have hne : w.window ≠ [] := by
          intro hnil
          rw [hnil] at hmore
          exact Nat.not_lt_zero _ hmore
        obtain ⟨hkeep, hempty⟩ := dropLast_adopt hnow
        obtain ⟨k, iov, hk, hiov, hrun⟩ := ih hdev.tail (w := (w.accept n).adopt n)
          (by rw [hwin, hlen, sent_adopt, length_sent_accept]; omega)
          (by rw [hwin, hlen]; omega)
          fun k hk => hin (k + 1) (by
            rw [taken, hcount]
            exact (insideNonLast_left hnow _).mp hk)
        refine ⟨k + 1, iov, TakesCalls.succ hmore (by rw [hcount, ← hlen]; exact hk), ?_, ?_⟩
        · have harr : ((w.accept n).adopt n).iov = w.passed ++ (adoptIovPointers w.window n).1 :=
            iov_adopt _ _
          rw [hiov, harr, List.dropLast_append_of_ne_nil (mt hempty.mp hne), hkeep, Progress.iov,
            List.dropLast_append_of_ne_nil hne]
        · have hsent : ((w.accept n).adopt n).sent ++ (left w.window n).flatten =
              w.sent ++ w.window.flatten := by
            rw [sent_adopt, flatten_left hnow, Progress.accept, List.append_assoc,
              List.take_append_drop]
          have hrc : n = min n w.window.flatten.length := by omega
          rw [writeLoop_accepts hr hrc, if_pos (by omega), hrun, hwin, hsent]
          rfl

end Loop

/-- What a write that takes everything leaves, with any fuel that lasts. -/
theorem writeAll_of_not_inside {iov : List Iovec} {dev : Stream' Reply} (hdev : KeepsAccepting dev)
    (hin : ∀ k, ¬ InsideNonLast iov (taken dev k)) :
    ∃ k iov', TakesCalls iov.flatten.length dev k ∧ iov'.dropLast = iov.dropLast ∧
      ∀ fuel, k ≤ fuel → writeAll fuel iov dev = some ⟨true, iov', iov.flatten, dev.drop k⟩ := by
  obtain ⟨m, hm⟩ := hdev.exists_le_taken iov.flatten.length
  have hall : ([] : List UInt8).length + iov.flatten.length = calculateTotalLength iov := by
    rw [calculateTotalLength_eq, List.length_nil, Nat.zero_add]
  obtain ⟨k, iov', hk, hiov, hrun⟩ :=
    writeLoop_of_not_inside (w := ⟨[], iov, []⟩) hdev hall hm hin
  refine ⟨k, iov', hk, hiov, fun fuel hfuel => ?_⟩
  have hmono := writeLoop_mono hrun (fuel - k)
  rwa [Nat.add_sub_cancel' hfuel] at hmono

/-- A write that returns was never stopped inside a segment that is not the
last one. -/
theorem not_inside_of_writeAll {iov : List Iovec} {dev : Stream' Reply} {fuel : Nat} {r : Written}
    (hdev : KeepsAccepting dev) (hrun : writeAll fuel iov dev = some r) (k : Nat) :
    ¬ InsideNonLast iov (taken dev k) := by
  intro hin
  have hnone : writeLoop (calculateTotalLength iov) fuel dev ⟨[], iov, []⟩ = none :=
    writeLoop_eq_none_of_inside hdev (by simp [calculateTotalLength]) hin
  rw [writeAll, hnone] at hrun
  contradiction

/-- A write takes everything exactly when no call stops inside a segment that
is not the last one. -/
theorem writesAll_iff {iov : List Iovec} {dev : Stream' Reply} (hdev : KeepsAccepting dev) :
    WritesAll iov dev ↔ ∀ k, ¬ InsideNonLast iov (taken dev k) := by
  constructor
  · rintro ⟨fuel, r, hrun, -, -⟩
    exact not_inside_of_writeAll hdev hrun
  · intro hin
    obtain ⟨k, iov', -, -, hrun⟩ := writeAll_of_not_inside hdev hin
    exact ⟨k, _, hrun k (Nat.le_refl k), rfl, rfl⟩

end Scatter

/-! ## `CRequestWriter::flush` over a device -/

namespace CRequestWriter

open Scatter

/-- The array of the first `sendAll(iov, 3)`. -/
def firstIov (w : CRequestWriter) : List Iovec :=
  if w.haveEventInfo then
    [w.firstHeader.encode, w.mInfo.encode,
      w.mBuf.slice 0 (w.firstHeader.packetLength.toNat - sizeofEventInfo)]
  else
    [w.firstHeader.encode, [], w.mBuf.slice 0 w.firstHeader.packetLength.toNat]

/-- The packets that the loop over the remaining data sends. -/
def morePackets (w : CRequestWriter) : List Packet :=
  if w.totalLength > payloadSize then
    w.continuation w.firstHeader (payloadSize - sizeofEventInfo)
  else
    []

/-- What `flush` leaves: its return value, and for every packet handed to the
channel the bytes the device accepted. -/
structure Flushed where
  ret : Bool
  packets : List (List UInt8)
  deriving DecidableEq, Repr

/-- The calls of `sendAll`.  The loop sets `iov[1]` before each of them and
leaves `iov[0]` as the last one left it: it covers the end of `mHeader`, which
meanwhile holds the next header. -/
def sendPackets (fuel : Nat) : List Iovec → List Packet → Stream' Reply → Option Flushed
  | iov, [], dev =>
      match writeAll fuel iov dev with
      | none => none
      | some r => some ⟨r.ok, [r.sent]⟩
  | iov, p :: ps, dev =>
      match writeAll fuel iov dev with
      | none => none
      | some r =>
          if r.ok then
            let moved := sizeofMessageHeader - (r.iov.headD []).length
            (sendPackets fuel [p.header.encode.drop moved, p.payload] ps r.dev).map fun f =>
              ⟨f.ret, r.sent :: f.packets⟩
          else
            some ⟨false, [r.sent]⟩

/-- `CRequestWriter::flush` with the writes cut as the device likes. -/
def flushTo (fuel : Nat) (w : CRequestWriter) (dev : Stream' Reply) : Option Flushed :=
  sendPackets fuel w.firstIov w.morePackets dev

/-- The message is flushed: every packet goes out as its complete header and
its payload. -/
def FlushSends (w : CRequestWriter) (dev : Stream' Reply) : Prop :=
  ∃ fuel, w.flushTo fuel dev = some ⟨true, w.flush.map fun p => p.header.encode ++ p.payload⟩

/-- The segments of a continuation packet. -/
def packetIov (p : Packet) : List Iovec := [p.header.encode, p.payload]

/-- The segments of all packets of a message. -/
def iovs (w : CRequestWriter) : List (List Iovec) := w.firstIov :: w.morePackets.map packetIov

/-- No call stops inside a segment that is not the last one of its packet, where
each packet begins with the call behind the last one of the packet before it. -/
def CutsFit : List (List Iovec) → Stream' Reply → Prop
  | [], _ => True
  | iov :: rest, dev =>
      (∀ k, ¬ InsideNonLast iov (taken dev k)) ∧
        ∀ k, TakesCalls iov.flatten.length dev k → CutsFit rest (dev.drop k)

theorem flatten_firstIov (w : CRequestWriter) :
    w.firstIov.flatten = w.firstPacket.header.encode ++ w.firstPacket.payload := by
  unfold firstIov firstPacket
  by_cases h : w.haveEventInfo = true
  · simp [h]
  · simp [h]

/-- Packets are sent with their headers in front. -/
theorem exists_firstIov (w : CRequestWriter) :
    ∃ s t, w.firstIov = [w.firstHeader.encode, s, t] := by
  unfold firstIov
  by_cases h : w.haveEventInfo = true
  · exact ⟨_, _, if_pos h⟩
  · exact ⟨_, _, if_neg h⟩

theorem sendPackets_mono {fuel : Nat} {iov : List Iovec} {ps : List Packet} {dev : Stream' Reply}
    {f : Flushed} (h : sendPackets fuel iov ps dev = some f) (d : Nat) :
    sendPackets (fuel + d) iov ps dev = some f := by
  induction ps generalizing iov dev f with
  | nil =>
      unfold sendPackets at h ⊢
      cases hw : writeAll fuel iov dev with
      | none => rw [hw] at h; contradiction
      | some r =>
          have hmore : writeAll (fuel + d) iov dev = some r := writeLoop_mono hw d
          rw [hw] at h
          rw [hmore]
          exact h
  | cons p ps ih =>
      unfold sendPackets at h ⊢
      cases hw : writeAll fuel iov dev with
      | none => rw [hw] at h; contradiction
      | some r =>
          have hmore : writeAll (fuel + d) iov dev = some r := writeLoop_mono hw d
          rw [hw] at h
          rw [hmore]
          simp only at h ⊢
          by_cases hok : r.ok = true
          · rw [if_pos hok] at h ⊢
            obtain ⟨g, hg, hfg⟩ := Option.map_eq_some_iff.mp h
            rw [ih hg, Option.map_some, hfg]
          · rw [if_neg hok] at h ⊢
            exact h

theorem headD_of_dropLast {iov tail : List Iovec} {hdr : Iovec} (h : iov.dropLast = hdr :: tail) :
    iov.headD [] = hdr := by
  match iov, h with
  | _ :: _ :: _, h => exact (List.cons.inj h).1

section Packets

variable {hdr : Iovec} {iov tail : List Iovec} {dev : Stream' Reply}

/-- Behind a packet that went out whole, `iov[0]` still covers the complete
header. -/
theorem sendPackets_cons (hdev : KeepsAccepting dev) (hiov : iov.dropLast = hdr :: tail)
    (hlen : hdr.length = sizeofMessageHeader) (hin : ∀ k, ¬ InsideNonLast iov (taken dev k))
    (p : Packet) (ps : List Packet) :
    ∃ k, TakesCalls iov.flatten.length dev k ∧ ∀ fuel, k ≤ fuel →
      sendPackets fuel iov (p :: ps) dev =
        (sendPackets fuel (packetIov p) ps (dev.drop k)).map fun f =>
          ⟨f.ret, iov.flatten :: f.packets⟩ := by
  obtain ⟨k, iov', hk, hlast, hrun⟩ := writeAll_of_not_inside hdev hin
  refine ⟨k, hk, fun fuel hfuel => ?_⟩
  have hhead : iov'.headD [] = hdr := headD_of_dropLast (hlast.trans hiov)
  rw [sendPackets, hrun fuel hfuel]
  simp only [if_true, hhead, hlen, Nat.sub_self, List.drop_zero]
  rfl

theorem not_inside_of_sendPackets {fuel : Nat} {ps : List Packet} {f : Flushed}
    (hdev : KeepsAccepting dev) (hrun : sendPackets fuel iov ps dev = some f) (k : Nat) :
    ¬ InsideNonLast iov (taken dev k) := by
  cases hw : writeAll fuel iov dev with
  | none => cases ps <;> simp [sendPackets, hw] at hrun
  | some r => exact not_inside_of_writeAll hdev hw k

/-- A message goes out packet by packet exactly when every packet does. -/
theorem sendPackets_iff (ps : List Packet) (hdev : KeepsAccepting dev)
    (hiov : iov.dropLast = hdr :: tail) (hlen : hdr.length = sizeofMessageHeader) :
    (∃ fuel, sendPackets fuel iov ps dev =
      some ⟨true, iov.flatten :: ps.map fun p => p.header.encode ++ p.payload⟩) ↔
      CutsFit (iov :: ps.map packetIov) dev := by
  induction ps generalizing iov dev hdr tail with
  | nil =>
      constructor
      · rintro ⟨fuel, hrun⟩
        exact ⟨not_inside_of_sendPackets hdev hrun, fun _ _ => trivial⟩
      · rintro ⟨hin, -⟩
        obtain ⟨k, iov', -, -, hrun⟩ := writeAll_of_not_inside hdev hin
        refine ⟨k, ?_⟩
        rw [sendPackets, hrun k (Nat.le_refl k)]
        rfl
  | cons p ps ih =>
      have hflat : (packetIov p).flatten = p.header.encode ++ p.payload := by simp [packetIov]
      have hheader : (packetIov p).dropLast = [p.header.encode] := rfl
      constructor
      · rintro ⟨fuel, hrun⟩
        have hin := not_inside_of_sendPackets hdev hrun
        refine ⟨hin, fun k hk => ?_⟩
        obtain ⟨l, hl, hstep⟩ := sendPackets_cons hdev hiov hlen hin p ps
        obtain rfl := hk.unique hl
        rw [List.map_cons]
        refine (ih (hdev.drop k) hheader (MessageHeader.length_encode _)).mp ?_
        refine ⟨fuel + k, ?_⟩
        have hmono := sendPackets_mono hrun k
        rw [hstep _ (Nat.le_add_left k fuel)] at hmono
        obtain ⟨g, hg, hgf⟩ := Option.map_eq_some_iff.mp hmono
        obtain ⟨hret, hpackets⟩ := Flushed.mk.inj hgf
        rw [hg, hflat]
        exact congrArg some (Flushed.mk.injEq .. ▸ ⟨hret, (List.cons.inj hpackets).2⟩)
      · rintro ⟨hin, hrest⟩
        obtain ⟨k, hk, hstep⟩ := sendPackets_cons hdev hiov hlen hin p ps
        have hfit := hrest k hk
        rw [List.map_cons] at hfit
        obtain ⟨fuel, hrun⟩ :=
          (ih (hdev.drop k) hheader (MessageHeader.length_encode _)).mpr hfit
        refine ⟨fuel + k, ?_⟩
        rw [hstep _ (Nat.le_add_left k fuel), sendPackets_mono hrun k, Option.map_some, hflat]
        rfl

end Packets

theorem flushSends_iff {dev : Stream' Reply} (hdev : KeepsAccepting dev) (w : CRequestWriter) :
    w.FlushSends dev ↔ CutsFit w.iovs dev := by
  obtain ⟨s, t, hfirst⟩ := w.exists_firstIov
  have hlast : w.firstIov.dropLast = w.firstHeader.encode :: [s] := by
    rw [hfirst]
    rfl
  have hiff := sendPackets_iff w.morePackets hdev hlast (MessageHeader.length_encode _)
  rw [flatten_firstIov] at hiff
  exact hiff

end CRequestWriter

open Scatter CRequestWriter

/-- **Scatter write**: with a device that keeps accepting bytes, `write_all`
returns with every byte of its segments accepted, once and in order, exactly
when no call stops inside a segment that is not the last one; and `flush` sends
every packet of a message with its complete header and payload exactly when
this holds in each of its packets. -/
theorem scatter_write_iff (dev : Stream' Reply) (hdev : KeepsAccepting dev) :
    (∀ iov, WritesAll iov dev ↔ ∀ k, ¬ InsideNonLast iov (taken dev k)) ∧
      ∀ w : CRequestWriter, w.FlushSends dev ↔ CutsFit w.iovs dev :=
  ⟨fun _ => writesAll_iff hdev, flushSends_iff hdev⟩

/-- A device that takes three bytes at a time: two segments of three and four
bytes are written whole. -/
theorem writesAll_in_threes :
    KeepsAccepting (Stream'.const (.accepts 3)) ∧
      WritesAll [[1, 2, 3], [4, 5, 6, 7]] (Stream'.const (.accepts 3)) := by
  have hdev : KeepsAccepting (Stream'.const (.accepts 3)) := keepsAccepting_const (by decide)
  refine ⟨hdev, ((scatter_write_iff _ hdev).1 _).mpr fun k => ?_⟩
  rw [taken_const]
  rintro (⟨hpos, hlt⟩ | ⟨-, hin⟩)
  · change 3 * k < 3 at hlt
    omega
  · exact hin

/-- A device that takes one byte and then everything stops inside the first
segment: the write never returns. -/
theorem not_writesAll_stopped_inside :
    ¬ WritesAll [[1, 2, 3], [4, 5]] (Stream'.cons (.accepts 1) (Stream'.const (.accepts 100))) := by
  have hdev : KeepsAccepting (Stream'.cons (.accepts 1) (Stream'.const (.accepts 100))) := by
    refine ⟨fun k => ?_, fun k => ⟨k + 1, Nat.le_succ k, Nat.succ_pos 99⟩⟩
    cases k with
    | zero => exact nofun
    | succ k => exact nofun
  intro h
  exact (writesAll_iff hdev).mp h 1 (.inl ⟨by decide, by decide⟩)

end Dsi
