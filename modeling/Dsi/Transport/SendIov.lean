import Mathlib.Data.Nat.Find
import Dsi.Lib.Device

/-!
# Dsi.Transport.SendIov

The scatter send of the client library: `sendiov`
(`src/servicebroker/clientIo.cpp`), which sends the segments of a request until
all of its bytes are gone.  It moves `hdr.msg_iov` over the segments that are
sent but looks for them from the front of the array `in`.
-/

namespace Dsi.SendIov

open Device

/-! ## The loop -/

/-- `sendmsg` transfers at most this many bytes in one call, so that its result
fits the `int` that `sendiov` keeps it in. -/
def maxCount : Nat := 0x7ffff000

variable {α : Type}

/-- The array `in` with the place `hdr.msg_iov` points to, and the bytes sent;
`total` is their number.  `hdr.msg_iovlen` is the length of the window. -/
structure Hdr (α : Type) where
  iov : List (List α)
  moved : Nat
  sent : List α
  deriving DecidableEq, Repr

/-- The loop over `in[i]`: the segments as it leaves them, and `empty_iovs`. -/
def adaptLoop : List (List α) → Nat → List (List α) × Nat
  | [], _ => ([], 0)
  | s :: ss, rc =>
      if rc = 0 then
        (s :: ss, 0)
      else if rc < s.length then
        (s.drop rc :: ss, 0)
      else
        let r := adaptLoop ss (rc - s.length)
        (s :: r.1, r.2 + 1)

namespace Hdr

/-- The segments `hdr` describes. -/
def window (h : Hdr α) : List (List α) := h.iov.drop h.moved

/-- `hdr.msg_iovlen`. -/
def msgIovlen (h : Hdr α) : Nat := h.iov.length - h.moved

/-- What `sendmsg` returns when the device is ready to take `n` bytes. -/
def count (h : Hdr α) (n : Nat) : Nat := min (min n maxCount) h.window.flatten.length

/-- The first `rc` bytes of the window are sent. -/
def send (h : Hdr α) (rc : Nat) : Hdr α := { h with sent := h.sent ++ h.window.flatten.take rc }

/-- The segments of `in` that the loop counts as sent. -/
def emptyIovs (h : Hdr α) (rc : Nat) : Nat := (adaptLoop (h.iov.take h.msgIovlen) rc).2

/-- The array and the window after a partial send. -/
def adapt (h : Hdr α) (rc : Nat) : Hdr α :=
  { h with
    iov := (adaptLoop (h.iov.take h.msgIovlen) rc).1 ++ h.iov.drop h.msgIovlen
    moved := h.moved + h.emptyIovs rc }

end Hdr

/-- What `sendiov` returns, and what the socket got. -/
structure Sent (α : Type) where
  haveError : Bool
  sent : List α
  deriving DecidableEq, Repr

/-- The loop of `sendiov`; the fuel bounds the number of calls. -/
def sendLoop (totalLen : Nat) : Nat → Stream' Reply → Hdr α → Option (Sent α)
  | 0, _, _ => none
  | fuel + 1, dev, h =>
      match dev.head with
      | .failed => some ⟨true, h.sent⟩
      | .interrupted =>
          if h.sent.length < totalLen then sendLoop totalLen fuel dev.tail h
          else some ⟨false, h.sent⟩
      | .accepts n =>
          let rc := h.count n
          let h' := h.send rc
          if h'.sent.length < totalLen then sendLoop totalLen fuel dev.tail (h'.adapt rc)
          else some ⟨false, h'.sent⟩

/-- `sendiov(fd, in, len, total_len)`. -/
def sendiov (fuel : Nat) (iov : List (List α)) (totalLen : Nat) (dev : Stream' Reply) :
    Option (Sent α) :=
  sendLoop totalLen fuel dev ⟨iov, 0, []⟩

/-- The send returns, without an error, and the socket has got every byte of
every segment, once and in order. -/
def SendsAll (iov : List (List α)) (dev : Stream' Reply) : Prop :=
  ∃ fuel, sendiov fuel iov iov.flatten.length dev = some ⟨false, iov.flatten⟩

/-! ## When the window follows -/

/-- The state the next call finds when the loop goes on. -/
def next (totalLen : Nat) (h : Hdr α) : Reply → Hdr α
  | .accepts n =>
      if (h.send (h.count n)).sent.length < totalLen then (h.send (h.count n)).adapt (h.count n)
      else h.send (h.count n)
  | _ => h

/-- The state before call `k`. -/
def stateAt (totalLen : Nat) (h : Hdr α) (dev : Stream' Reply) : Nat → Hdr α
  | 0 => h
  | k + 1 => stateAt totalLen (next totalLen h dev.head) dev.tail k

/-- A partial send is counted right: the window has not moved yet, so that it
starts where the array does, or it has and as many of its own segments as the
loop counts from the front of the array hold just the bytes sent. -/
def StepFits (totalLen : Nat) (h : Hdr α) (r : Reply) : Prop :=
  let rc := h.count r.count
  h.sent.length + rc < totalLen →
    h.moved = 0 ∨ (h.window.take (h.emptyIovs rc)).flatten.length = rc

instance (totalLen : Nat) (h : Hdr α) (r : Reply) : Decidable (StepFits totalLen h r) :=
  inferInstanceAs (Decidable (_ → _))

/-- Every partial send of the request is counted right. -/
def WindowFits (iov : List (List α)) (dev : Stream' Reply) : Prop :=
  ∀ k, StepFits iov.flatten.length (stateAt iov.flatten.length ⟨iov, 0, []⟩ dev k) (dev.get k)

/-! ## One partial send -/

/-- Nothing was sent, so nothing is taken away. -/
@[simp] theorem adaptLoop_zero (l : List (List α)) : adaptLoop l 0 = (l, 0) := by
  cases l <;> simp [adaptLoop]

/-- From the front of an array, the loop finds the first byte not sent. -/
theorem flatten_drop_adaptLoop (l : List (List α)) (rc : Nat) :
    ((adaptLoop l rc).1.drop (adaptLoop l rc).2).flatten = l.flatten.drop rc := by
  induction l generalizing rc with
  | nil => simp [adaptLoop]
  | cons s ss ih =>
      unfold adaptLoop
      by_cases h0 : rc = 0
      · simp [h0]
      rw [if_neg h0]
      by_cases hs : rc < s.length
      · rw [if_pos hs]
        simp [List.drop_append, Nat.sub_eq_zero_of_le (Nat.le_of_lt hs)]
      · have hnil : s.drop rc = [] := List.drop_eq_nil_of_le (by omega)
        rw [if_neg hs, List.flatten_cons, List.drop_append, hnil, List.nil_append]
        exact ih (rc - s.length)

/-- Behind the segment it stops in, the loop changes nothing. -/
theorem drop_adaptLoop (l : List (List α)) (rc : Nat) :
    (adaptLoop l rc).1.drop ((adaptLoop l rc).2 + 1) = l.drop ((adaptLoop l rc).2 + 1) := by
  induction l generalizing rc with
  | nil => simp [adaptLoop]
  | cons s ss ih =>
      unfold adaptLoop
      by_cases h0 : rc = 0
      · simp [h0]
      rw [if_neg h0]
      by_cases hs : rc < s.length
      · rw [if_pos hs]
        rfl
      · rw [if_neg hs]
        simpa using ih (rc - s.length)

/-- No buffer is taken out of the vector. -/
theorem length_adaptLoop (l : List (List α)) (rc : Nat) :
    (adaptLoop l rc).1.length = l.length := by
  induction l generalizing rc with
  | nil => simp [adaptLoop]
  | cons s ss ih =>
      unfold adaptLoop
      by_cases h0 : rc = 0
      · simp [h0]
      rw [if_neg h0]
      by_cases hs : rc < s.length
      · simp [hs]
      · simp [hs, ih]

namespace Hdr

/-- The buffers behind the one that is cut are left alone. -/
theorem iov_adapt_drop (h : Hdr α) (rc : Nat) :
    (h.adapt rc).iov.drop (h.emptyIovs rc + 1) = h.iov.drop (h.emptyIovs rc + 1) := by
  have hback : h.iov = h.iov.take h.msgIovlen ++ h.iov.drop h.msgIovlen :=
    (List.take_append_drop _ _).symm
  have hloop := drop_adaptLoop (h.iov.take h.msgIovlen) rc
  have hlen := length_adaptLoop (h.iov.take h.msgIovlen) rc
  change ((adaptLoop (h.iov.take h.msgIovlen) rc).1 ++ h.iov.drop h.msgIovlen).drop
      (h.emptyIovs rc + 1) = _
  conv => rhs; rw [hback]
  rw [List.drop_append, List.drop_append, hlen]
  exact congrArg (· ++ _) hloop

/-- Once the window has moved, the segment that the loop shortens is not in it:
the window only loses the segments counted. -/
theorem window_adapt_of_pos {h : Hdr α} (hpos : 0 < h.moved) (rc : Nat) :
    (h.adapt rc).window = h.window.drop (h.emptyIovs rc) := by
  have hsplit (l : List (List α)) : l.drop (h.moved + h.emptyIovs rc) =
      (l.drop (h.emptyIovs rc + 1)).drop (h.moved - 1) := by
    rw [List.drop_drop]
    congr 1
    omega
  change (h.adapt rc).iov.drop (h.moved + h.emptyIovs rc) = _
  rw [window, List.drop_drop, hsplit, hsplit, h.iov_adapt_drop]

/-- A window that starts where the array does is adapted as it should be. -/
theorem flatten_window_adapt_of_zero {h : Hdr α} (hzero : h.moved = 0) (rc : Nat) :
    (h.adapt rc).window.flatten = h.window.flatten.drop rc := by
  have hall : h.iov.take h.msgIovlen = h.iov := by
    rw [msgIovlen, hzero, Nat.sub_zero, List.take_length]
  have hrest : h.iov.drop h.msgIovlen = [] := by
    rw [msgIovlen, hzero, Nat.sub_zero, List.drop_length]
  have hloop := flatten_drop_adaptLoop h.iov rc
  rw [window, window, adapt, emptyIovs, hall, hrest, hzero, List.append_nil, Nat.zero_add,
    List.drop_zero]
  exact hloop

/-- What a partial send takes off the window. -/
def lost (h : Hdr α) (rc : Nat) : Nat :=
  if h.moved = 0 then rc else (h.window.take (h.emptyIovs rc)).flatten.length

/-- What is lost is taken from the front of what is left. -/
theorem flatten_window_adapt (h : Hdr α) (rc : Nat) :
    (h.adapt rc).window.flatten = h.window.flatten.drop (h.lost rc) := by
  unfold lost
  by_cases hzero : h.moved = 0
  · rw [if_pos hzero, flatten_window_adapt_of_zero hzero]
  · have hback : h.window.flatten = (h.window.take (h.emptyIovs rc)).flatten ++
        (h.window.drop (h.emptyIovs rc)).flatten := by
      rw [← List.flatten_append, List.take_append_drop]
    rw [if_neg hzero, window_adapt_of_pos (Nat.pos_of_ne_zero hzero)]
    conv => rhs; rw [hback]
    rw [List.drop_left]

@[simp] theorem window_send (h : Hdr α) (rc : Nat) : (h.send rc).window = h.window := rfl

@[simp] theorem lost_send (h : Hdr α) (rc k : Nat) : (h.send rc).lost k = h.lost k := rfl

/-- Nothing is sent by adapting. -/
@[simp] theorem sent_adapt (h : Hdr α) (rc : Nat) : (h.adapt rc).sent = h.sent := rfl

/-- No call sends more than there is. -/
theorem count_le (h : Hdr α) (n : Nat) : h.count n ≤ h.window.flatten.length := Nat.min_le_right _ _

/-- What a call accepts is sent. -/
theorem length_sent_send (h : Hdr α) (n : Nat) :
    (h.send (h.count n)).sent.length = h.sent.length + h.count n := by
  have hle := h.count_le n
  rw [send, List.length_append, List.length_take, Nat.min_eq_left hle]

end Hdr

/-- A call that accepts nothing sends nothing. -/
@[simp] theorem Hdr.send_zero (h : Hdr α) : h.send 0 = h := by simp [Hdr.send]

/-- And nothing has to be adapted behind it. -/
@[simp] theorem Hdr.adapt_zero (h : Hdr α) : h.adapt 0 = h := by
  simp [Hdr.adapt, Hdr.emptyIovs]

/-- A call is counted right if as many bytes go as were sent, or all of them were. -/
theorem stepFits_iff {totalLen : Nat} {h : Hdr α} {r : Reply} :
    StepFits totalLen h r ↔ (h.sent.length + h.count r.count < totalLen →
      h.lost (h.count r.count) = h.count r.count) := by
  unfold StepFits Hdr.lost
  by_cases hzero : h.moved = 0
  · simp [hzero]
  · simp [hzero]

/-! ## Runs of `sendiov` -/

/-- A reply with its count cut to what one call transfers. -/
def capped : Reply → Reply
  | .accepts n => .accepts (min n maxCount)
  | r => r

/-- A call accepts no more than the largest count. -/
theorem count_capped (r : Reply) : (capped r).count = min r.count maxCount := by
  cases r <;> simp [capped, Reply.count]

/-- A device that is capped keeps accepting. -/
theorem keepsAccepting_capped {dev : Stream' Reply} (h : KeepsAccepting dev) :
    KeepsAccepting (dev.map capped) where
  never_failed k := by
    have hk := h.never_failed k
    rw [Stream'.get_map]
    cases hr : dev.get k with
    | failed => exact absurd hr hk
    | interrupted => exact nofun
    | accepts n => exact nofun
  again k := by
    obtain ⟨j, hj, hpos⟩ := h.again k
    refine ⟨j, hj, ?_⟩
    rw [Stream'.get_map, count_capped]
    exact Nat.lt_min.mpr ⟨hpos, by decide⟩

section Run

variable {totalLen fuel : Nat} {dev : Stream' Reply} {h : Hdr α}

/-- A call that is not the last one sends and adapts. -/
theorem next_eq (hr : dev.head ≠ .failed)
    (hlt : h.sent.length + h.count dev.head.count < totalLen) :
    next totalLen h dev.head =
      (h.send (h.count dev.head.count)).adapt (h.count dev.head.count) := by
  cases hd : dev.head with
  | failed => exact absurd hd hr
  | interrupted => simp [next, Reply.count, Hdr.count]
  | accepts n =>
      rw [hd] at hlt
      have hlen := h.length_sent_send n
      exact if_pos (hlen ▸ hlt)

/-- One call, and the rest of the loop. -/
theorem sendLoop_succ (hr : dev.head ≠ .failed) :
    sendLoop totalLen (fuel + 1) dev h =
      if h.sent.length + h.count dev.head.count < totalLen then
        sendLoop totalLen fuel dev.tail (next totalLen h dev.head)
      else
        some ⟨false, (h.send (h.count dev.head.count)).sent⟩ := by
  cases hd : dev.head with
  | failed => exact absurd hd hr
  | interrupted => simp [sendLoop, hd, next, Reply.count, Hdr.count]
  | accepts n =>
      have hlen := h.length_sent_send n
      have hcount : (Reply.accepts n).count = n := rfl
      rw [sendLoop, hd, hcount]
      simp only [hlen]
      by_cases hlt : h.sent.length + h.count n < totalLen
      · rw [if_pos hlt, if_pos hlt, next, hlen, if_pos hlt]
      · rw [if_neg hlt, if_neg hlt]

/-- What the socket has got it keeps. -/
theorem sent_of_sendLoop {r : Sent α} (hrun : sendLoop totalLen fuel dev h = some r) :
    h.sent <+: r.sent := by
  induction fuel generalizing dev h with
  | zero => simp [sendLoop] at hrun
  | succ fuel ih =>
      by_cases hr : dev.head = .failed
      · rw [sendLoop, hr] at hrun
        obtain rfl := Option.some.inj hrun
        exact List.prefix_refl _
      · rw [sendLoop_succ hr] at hrun
        have hgrow : h.sent <+: (h.send (h.count dev.head.count)).sent :=
          List.prefix_append _ _
        by_cases hlt : h.sent.length + h.count dev.head.count < totalLen
        · rw [if_pos hlt, next_eq hr hlt] at hrun
          have hrest := ih hrun
          rw [Hdr.sent_adapt] at hrest
          exact hgrow.trans hrest
        · rw [if_neg hlt] at hrun
          obtain rfl := Option.some.inj hrun
          exact hgrow

/-- An error is returned only when a call failed. -/
theorem failed_of_haveError {r : Sent α} (hrun : sendLoop totalLen fuel dev h = some r)
    (herr : r.haveError = true) : ∃ k, dev.get k = .failed := by
  induction fuel generalizing dev h with
  | zero => simp [sendLoop] at hrun
  | succ fuel ih =>
      by_cases hr : dev.head = .failed
      · exact ⟨0, hr⟩
      · rw [sendLoop_succ hr] at hrun
        by_cases hlt : h.sent.length + h.count dev.head.count < totalLen
        · rw [if_pos hlt] at hrun
          obtain ⟨k, hk⟩ := ih hrun
          exact ⟨k + 1, hk⟩
        · rw [if_neg hlt] at hrun
          obtain rfl := Option.some.inj hrun
          contradiction

/-- A window that starts at another byte than the next one to be sent: the
socket gets that byte in its place, or no byte ever. -/
theorem sendLoop_ne_of_window {full : List α} {p : Nat} (hdev : KeepsAccepting dev)
    (hwin : h.window.flatten = full.drop p) (hlt : h.sent.length < full.length)
    (hne : full[p]? ≠ full[h.sent.length]?) :
    sendLoop full.length fuel dev h ≠ some ⟨false, full⟩ := by
  induction fuel generalizing dev with
  | zero => simp [sendLoop]
  | succ fuel ih =>
      intro hrun
      have hr := hdev.head_ne_failed
      rw [sendLoop_succ hr] at hrun
      by_cases hzero : h.count dev.head.count = 0
      · rw [hzero, Nat.add_zero, if_pos hlt, next_eq hr (by omega), hzero, Hdr.send_zero,
          Hdr.adapt_zero] at hrun
        exact ih hdev.tail hrun
      · -- the byte at `p` takes the place of the next one, and stays there
        have hsent : (h.send (h.count dev.head.count)).sent <+: full := by
          by_cases hmore : h.sent.length + h.count dev.head.count < full.length
          · rw [if_pos hmore, next_eq hr hmore] at hrun
            exact sent_of_sendLoop hrun
          · rw [if_neg hmore] at hrun
            have heq : (h.send (h.count dev.head.count)).sent = full :=
              congrArg Sent.sent (Option.some.inj hrun)
            exact heq.symm ▸ List.prefix_refl full
        have hle := h.count_le dev.head.count
        have hlen := h.length_sent_send dev.head.count
        have hbyte : (h.send (h.count dev.head.count)).sent[h.sent.length]? = full[p]? := by
          rw [Hdr.send, List.getElem?_append_right (Nat.le_refl _), Nat.sub_self, hwin,
            List.getElem?_take_of_lt (by omega), List.getElem?_drop, Nat.add_zero]
        have hplace := List.prefix_iff_getElem?.mp hsent h.sent.length (by omega)
        rw [← List.getElem?_eq_getElem] at hplace
        exact hne (hbyte.symm.trans hplace.symm)

/-- What a call sends is what it accepts of what there is. -/
theorem count_eq (h : Hdr α) (r : Reply) :
    h.count r.count = min (capped r).count h.window.flatten.length := by
  rw [count_capped]
  rfl

/-- A call that takes all that is left ends the send. -/
theorem sendLoop_last {full : List α} (hdev : KeepsAccepting dev)
    (hall : h.sent ++ h.window.flatten = full)
    (hlast : h.window.flatten.length ≤ (capped dev.head).count) :
    sendLoop full.length 1 dev h = some ⟨false, full⟩ := by
  have hlen : h.sent.length + h.window.flatten.length = full.length := by
    rw [← hall, List.length_append]
  have hcount : h.count dev.head.count = h.window.flatten.length := by
    rw [count_eq, Nat.min_eq_right hlast]
  rw [sendLoop_succ hdev.head_ne_failed, hcount, if_neg (by omega), Hdr.send, List.take_length,
    hall]

/-- A partial send that is counted right leaves the window at the next byte. -/
theorem next_of_fits {full : List α} (hr : dev.head ≠ .failed)
    (hall : h.sent ++ h.window.flatten = full)
    (hlt : h.sent.length + h.count dev.head.count < full.length)
    (hfits : StepFits full.length h dev.head) :
    (next full.length h dev.head).window.flatten =
        h.window.flatten.drop (h.count dev.head.count) ∧
      (next full.length h dev.head).sent ++ (next full.length h dev.head).window.flatten =
        full := by
  have hlost := stepFits_iff.mp hfits hlt
  have hwin : (next full.length h dev.head).window.flatten =
      h.window.flatten.drop (h.count dev.head.count) := by
    rw [next_eq hr hlt, Hdr.flatten_window_adapt, Hdr.window_send, Hdr.lost_send, hlost]
  refine ⟨hwin, ?_⟩
  rw [hwin, next_eq hr hlt, Hdr.sent_adapt, Hdr.send, List.append_assoc, List.take_append_drop,
    hall]

/-- While every partial send is counted right, the socket gets the rest of the
request. -/
theorem sendLoop_of_fits {full : List α} {m : Nat} (hdev : KeepsAccepting dev)
    (hall : h.sent ++ h.window.flatten = full)
    (hm : h.window.flatten.length ≤ taken (dev.map capped) m)
    (hfits : ∀ k, StepFits full.length (stateAt full.length h dev k) (dev.get k)) :
    ∃ fuel, sendLoop full.length fuel dev h = some ⟨false, full⟩ := by
  induction m generalizing dev h with
  | zero => exact ⟨1, sendLoop_last hdev hall (Nat.le_trans hm (Nat.zero_le _))⟩
  | succ m ih =>
      by_cases hlast : h.window.flatten.length ≤ (capped dev.head).count
      · exact ⟨1, sendLoop_last hdev hall hlast⟩
      have hr := hdev.head_ne_failed
      have hlen : h.sent.length + h.window.flatten.length = full.length := by
        rw [← hall, List.length_append]
      have hcount : h.count dev.head.count = (capped dev.head).count := by
        rw [count_eq, Nat.min_eq_left (by omega)]
      have hlt : h.sent.length + h.count dev.head.count < full.length := by omega
      obtain ⟨hwin, hnext⟩ := next_of_fits hr hall hlt (hfits 0)
      have hrest : (next full.length h dev.head).window.flatten.length ≤
          taken (dev.tail.map capped) m := by
        have hhead : (dev.map capped).head = capped dev.head := rfl
        have htail : (dev.map capped).tail = dev.tail.map capped := rfl
        rw [taken, hhead, htail] at hm
        rw [hwin, List.length_drop]
        omega
      obtain ⟨fuel, hrun⟩ := ih hdev.tail hnext hrest fun k => hfits (k + 1)
      refine ⟨fuel + 1, ?_⟩
      rw [sendLoop_succ hr, if_pos hlt, hrun]

/-- What a call accepts is sent, whether it is the last one or not. -/
theorem length_sent_next (totalLen : Nat) (h : Hdr α) (r : Reply) :
    (next totalLen h r).sent.length = h.sent.length + h.count r.count := by
  cases r with
  | accepts n =>
      have hlen := h.length_sent_send n
      by_cases hlt : (h.send (h.count n)).sent.length < totalLen
      · rw [next, if_pos hlt, Hdr.sent_adapt]
        exact hlen
      · rw [next, if_neg hlt]
        exact hlen
  | interrupted => simp [next, Reply.count, Hdr.count]
  | failed => simp [next, Reply.count, Hdr.count]

/-- The state behind some calls and some more. -/
theorem stateAt_add (totalLen : Nat) (h : Hdr α) (dev : Stream' Reply) (i k : Nat) :
    stateAt totalLen h dev (i + k) =
      stateAt totalLen (stateAt totalLen h dev i) (dev.drop i) k := by
  induction i generalizing h dev with
  | zero => rw [Nat.zero_add]; rfl
  | succ i ih =>
      rw [Nat.succ_add]
      exact ih _ _

/-- Nothing is partial any more once everything is sent. -/
theorem stepFits_of_done {k : Nat} {r : Reply} (hdone : totalLen ≤ h.sent.length) :
    StepFits totalLen (stateAt totalLen h dev k) r := by
  induction k generalizing dev h with
  | zero =>
      rw [stepFits_iff, stateAt]
      intro hlt
      omega
  | succ k ih =>
      have hlen := length_sent_next totalLen h dev.head
      exact ih (by omega)

/-- The first partial send that is counted wrong: where the window then starts,
another byte than the next one spoils the request. -/
theorem sendLoop_ne_of_not_fits {full : List α} {k : Nat} (hdev : KeepsAccepting dev)
    (hall : h.sent ++ h.window.flatten = full)
    (hbefore : ∀ j < k, StepFits full.length (stateAt full.length h dev j) (dev.get j))
    (hnot : ¬ StepFits full.length (stateAt full.length h dev k) (dev.get k))
    (hbytes : ∀ p, p ≠ (stateAt full.length h dev (k + 1)).sent.length →
      (stateAt full.length h dev (k + 1)).sent.length < full.length →
        full[p]? ≠ full[(stateAt full.length h dev (k + 1)).sent.length]?) :
    sendLoop full.length fuel dev h ≠ some ⟨false, full⟩ := by
  induction k generalizing dev h fuel with
  | zero =>
      cases fuel with
      | zero => simp [sendLoop]
      | succ fuel =>
          have hr := hdev.head_ne_failed
          have hlen : h.sent.length + h.window.flatten.length = full.length := by
            rw [← hall, List.length_append]
          obtain ⟨hlt, hlost⟩ := Classical.not_imp.mp (mt stepFits_iff.mpr hnot)
          change h.sent.length + h.count dev.head.count < full.length at hlt
          change h.lost (h.count dev.head.count) ≠ h.count dev.head.count at hlost
          have hwin : (next full.length h dev.head).window.flatten =
              full.drop (h.sent.length + h.lost (h.count dev.head.count)) := by
            rw [next_eq hr hlt, Hdr.flatten_window_adapt, Hdr.window_send, Hdr.lost_send, ← hall,
              List.drop_append]
            simp
          have hsent := length_sent_next full.length h dev.head
          rw [sendLoop_succ hr, if_pos hlt]
          have hdue : (next full.length h dev.head).sent.length < full.length := by omega
          refine sendLoop_ne_of_window hdev.tail hwin hdue (hbytes _ ?_ hdue)
          change _ ≠ (next full.length h dev.head).sent.length
          omega
  | succ k ih =>
      cases fuel with
      | zero => simp [sendLoop]
      | succ fuel =>
          have hr := hdev.head_ne_failed
          by_cases hlt : h.sent.length + h.count dev.head.count < full.length
          · obtain ⟨-, hnext⟩ := next_of_fits hr hall hlt (hbefore 0 (Nat.succ_pos k))
            rw [sendLoop_succ hr, if_pos hlt]
            exact ih hdev.tail hnext (fun j hj => hbefore (j + 1) (by omega)) hnot hbytes
          · have hsent := length_sent_next full.length h dev.head
            have hdone : full.length ≤ (next full.length h dev.head).sent.length := by omega
            exact absurd (stepFits_of_done hdone) hnot

end Run

/-! ## Segments of the same lengths -/

/-- Two states that differ in the bytes only. -/
structure SameShape (h h' : Hdr α) : Prop where
  iov : h.iov.map List.length = h'.iov.map List.length
  moved : h.moved = h'.moved
  sent : h.sent.length = h'.sent.length

/-- The loop over the array does not look at the bytes. -/
theorem adaptLoop_shape {l l' : List (List α)} (h : l.map List.length = l'.map List.length)
    (rc : Nat) :
    (adaptLoop l rc).1.map List.length = (adaptLoop l' rc).1.map List.length ∧
      (adaptLoop l rc).2 = (adaptLoop l' rc).2 := by
  induction l generalizing l' rc with
  | nil =>
      obtain rfl : l' = [] := by simpa using h.symm
      exact ⟨rfl, rfl⟩
  | cons s ss ih =>
      cases l' with
      | nil => contradiction
      | cons s' ss' =>
          obtain ⟨hs, hss⟩ := List.cons.inj h
          unfold adaptLoop
          by_cases h0 : rc = 0
          · simpa [h0] using ⟨hs, hss⟩
          rw [if_neg h0, if_neg h0]
          by_cases hlt : rc < s.length
          · rw [if_pos hlt, if_pos (hs ▸ hlt)]
            exact ⟨by simp [hs, hss], rfl⟩
          · obtain ⟨hlen, hcount⟩ := ih hss (rc - s.length)
            rw [if_neg hlt, if_neg (hs ▸ hlt), ← hs]
            exact ⟨congrArg₂ List.cons hs hlen, congrArg (· + 1) hcount⟩

namespace SameShape

variable {h h' : Hdr α} (hsame : SameShape h h')
include hsame

/-- The windows have the same shape. -/
theorem window : h.window.map List.length = h'.window.map List.length := by
  rw [Hdr.window, Hdr.window, List.map_drop, List.map_drop, hsame.iov, hsame.moved]

/-- So they have as many bytes. -/
theorem length_window : h.window.flatten.length = h'.window.flatten.length := by
  rw [List.length_flatten, List.length_flatten, hsame.window]

/-- So a call accepts as many. -/
theorem count (n : Nat) : h.count n = h'.count n := by
  rw [Hdr.count, Hdr.count, hsame.length_window]

/-- They have as many buffers left. -/
theorem msgIovlen : h.msgIovlen = h'.msgIovlen := by
  have hlen : h.iov.length = h'.iov.length := by
    have hmap := congrArg List.length hsame.iov
    rwa [List.length_map, List.length_map] at hmap
  rw [Hdr.msgIovlen, Hdr.msgIovlen, hlen, hsame.moved]

/-- And the same ones behind. -/
theorem front : (h.iov.take h.msgIovlen).map List.length =
    (h'.iov.take h'.msgIovlen).map List.length := by
  rw [List.map_take, List.map_take, hsame.iov, hsame.msgIovlen]

/-- So the same buffers are used up. -/
theorem emptyIovs (rc : Nat) : h.emptyIovs rc = h'.emptyIovs rc :=
  (adaptLoop_shape hsame.front rc).2

/-- A call sends as many bytes of both. -/
theorem send (n : Nat) : SameShape (h.send (h.count n)) (h'.send (h'.count n)) where
  iov := hsame.iov
  moved := hsame.moved
  sent := by rw [h.length_sent_send, h'.length_sent_send, hsame.count, hsame.sent]

/-- And they are adapted alike. -/
theorem adapt (rc : Nat) : SameShape (h.adapt rc) (h'.adapt rc) where
  iov := by
    rw [Hdr.adapt, Hdr.adapt, List.map_append, List.map_append, List.map_drop, List.map_drop,
      (adaptLoop_shape hsame.front rc).1, hsame.iov, hsame.msgIovlen]
  moved := by rw [Hdr.adapt, Hdr.adapt, hsame.moved, hsame.emptyIovs]
  sent := hsame.sent

/-- So they have the same shape behind a call. -/
theorem next (totalLen : Nat) (r : Reply) :
    SameShape (SendIov.next totalLen h r) (SendIov.next totalLen h' r) := by
  cases r with
  | accepts n =>
      have hsend := hsame.send n
      by_cases hlt : (h.send (h.count n)).sent.length < totalLen
      · rw [SendIov.next, SendIov.next, if_pos hlt, if_pos (hsend.sent ▸ hlt), hsame.count]
        rw [hsame.count] at hsend
        exact hsend.adapt _
      · rw [SendIov.next, SendIov.next, if_neg hlt, if_neg (hsend.sent ▸ hlt)]
        exact hsend
  | interrupted => exact hsame
  | failed => exact hsame

/-- And behind any number of them. -/
theorem stateAt (totalLen : Nat) (dev : Stream' Reply) (k : Nat) :
    SameShape (SendIov.stateAt totalLen h dev k) (SendIov.stateAt totalLen h' dev k) := by
  induction k generalizing h h' dev with
  | zero => exact hsame
  | succ k ih => exact ih (hsame.next totalLen dev.head) dev.tail

/-- So both are counted right or both wrong. -/
theorem stepFits (totalLen : Nat) (r : Reply) :
    StepFits totalLen h r ↔ StepFits totalLen h' r := by
  have hfront : (h.window.take (h'.emptyIovs (h'.count r.count))).flatten.length =
      (h'.window.take (h'.emptyIovs (h'.count r.count))).flatten.length := by
    rw [List.length_flatten, List.length_flatten, List.map_take, List.map_take, hsame.window]
  simp only [StepFits, hsame.count, hsame.sent, hsame.moved, hsame.emptyIovs, hfront]

end SameShape

/-! ## The request as a whole -/

/-- Segments of the same lengths, filled with the byte that `f` has for each
place. -/
def fill (f : Nat → UInt8) : Nat → List (List UInt8) → List (List UInt8)
  | _, [] => []
  | start, s :: ss =>
      (List.range s.length).map (fun i => f (start + i)) :: fill f (start + s.length) ss

/-- A vector that is filled keeps its shape. -/
theorem map_length_fill (f : Nat → UInt8) (start : Nat) (iov : List (List UInt8)) :
    (fill f start iov).map List.length = iov.map List.length := by
  induction iov generalizing start with
  | nil => rfl
  | cons s ss ih => simp [fill, ih]

/-- A vector is filled from its start to its end. -/
theorem flatten_fill (f : Nat → UInt8) (start : Nat) (iov : List (List UInt8)) :
    (fill f start iov).flatten = (List.range iov.flatten.length).map fun i => f (start + i) := by
  induction iov generalizing start with
  | nil => rfl
  | cons s ss ih =>
      rw [fill, List.flatten_cons, ih, List.flatten_cons, List.length_append, List.range_add,
        List.map_append, List.map_map]
      simp [Function.comp_def, Nat.add_assoc]

/-- A request of the same lengths in which the byte at one place is like no
other. -/
theorem exists_marked (iov : List (List UInt8)) (t : Nat) :
    ∃ iov' : List (List UInt8), iov'.map List.length = iov.map List.length ∧
      ∀ p, p ≠ t → t < iov.flatten.length → iov'.flatten[p]? ≠ iov'.flatten[t]? := by
  refine ⟨fill (fun i => if i = t then 1 else 0) 0 iov, map_length_fill _ _ _, ?_⟩
  intro p hne ht
  rw [flatten_fill, List.getElem?_map, List.getElem?_map, List.getElem?_range ht]
  by_cases hp : p < iov.flatten.length
  · rw [List.getElem?_range hp]
    simp [hne]
  · rw [List.getElem?_eq_none (by simpa using hp)]
    simp

/-- All requests with segments of these lengths are sent exactly when every
partial send is counted right. -/
theorem sendsAll_shape_iff {iov : List (List UInt8)} {dev : Stream' Reply}
    (hdev : KeepsAccepting dev) :
    (∀ iov' : List (List UInt8), iov'.map List.length = iov.map List.length → SendsAll iov' dev) ↔
      WindowFits iov dev := by
  have hshape {iov' : List (List UInt8)} (h : iov'.map List.length = iov.map List.length) :
      iov'.flatten.length = iov.flatten.length ∧ SameShape ⟨iov', 0, []⟩ ⟨iov, 0, []⟩ :=
    ⟨by rw [List.length_flatten, List.length_flatten, h], h, rfl, rfl⟩
  constructor
  · intro hsends
    by_contra hnot
    -- the first wrong count, and a request in which the byte then due is like no other
    have hex := Classical.not_forall.mp hnot
    obtain ⟨iov', hmap, hbytes⟩ := exists_marked iov
      (stateAt iov.flatten.length ⟨iov, 0, []⟩ dev (Nat.find hex + 1)).sent.length
    obtain ⟨hlen, hsame⟩ := hshape hmap
    obtain ⟨fuel, hrun⟩ := hsends iov' hmap
    have hall : (⟨iov', 0, []⟩ : Hdr UInt8).sent ++ (⟨iov', 0, []⟩ : Hdr UInt8).window.flatten =
        iov'.flatten := rfl
    refine sendLoop_ne_of_not_fits (k := Nat.find hex) hdev hall ?_ ?_ ?_ hrun
    · intro j hj
      rw [hlen]
      exact ((hsame.stateAt _ dev j).stepFits _ _).mpr (Classical.not_not.mp (Nat.find_min hex hj))
    · rw [hlen]
      exact mt ((hsame.stateAt _ dev _).stepFits _ _).mp (Nat.find_spec hex)
    · rw [hlen, (hsame.stateAt _ dev _).sent]
      exact hbytes
  · intro hfits iov' h
    obtain ⟨hlen, hsame⟩ := hshape h
    obtain ⟨m, hm⟩ := (keepsAccepting_capped hdev).exists_le_taken iov'.flatten.length
    refine sendLoop_of_fits (h := ⟨iov', 0, []⟩) hdev rfl hm fun k => ?_
    rw [hlen]
    exact ((hsame.stateAt _ dev k).stepFits _ _).mpr (hfits k)

/-- **Scatter send**: with a socket that keeps accepting bytes, `sendiov`
returns without error after handing over every byte of its segments, once and
in order, whatever the bytes are, exactly when every partial send is counted
right; and it returns an error only if a call failed. -/
theorem sendiov_iff (iov : List (List UInt8)) (dev : Stream' Reply) :
    (KeepsAccepting dev →
      ((∀ iov' : List (List UInt8), iov'.map List.length = iov.map List.length →
        SendsAll iov' dev) ↔ WindowFits iov dev)) ∧
    ∀ fuel r, sendiov fuel iov iov.flatten.length dev = some r → r.haveError = true →
      ∃ k, dev.get k = .failed :=
  ⟨sendsAll_shape_iff, fun _ _ => failed_of_haveError⟩

/-- Two bytes at a time: the window moves once, and what is then left goes out
with the next call. -/
theorem sendsAll_in_pairs :
    KeepsAccepting (Stream'.const (.accepts 2)) ∧
      SendsAll ([[1, 2, 3], [4, 5]] : List (List UInt8)) (Stream'.const (.accepts 2)) := by
  have hdev := keepsAccepting_const (n := 2) (by decide)
  refine ⟨hdev, ((sendiov_iff [[1, 2, 3], [4, 5]] _).1 hdev).mpr (fun k => ?_) _ rfl⟩
  match k with
  | 0 => decide
  | 1 => decide
  | 2 => decide
  | k + 3 =>
      have hdone : 5 ≤ (stateAt 5 ⟨[[1, 2, 3], [4, 5]], 0, []⟩
          (Stream'.const (.accepts 2)) 3 : Hdr UInt8).sent.length := by decide
      rw [Nat.add_comm, stateAt_add]
      exact stepFits_of_done hdone

/-- One byte at a time: the second partial send is counted from the front of
the array, and the byte behind it is never sent. -/
theorem not_sendsAll_byte_by_byte :
    ¬ SendsAll ([[1], [2, 3], [4]] : List (List UInt8)) (Stream'.const (.accepts 1)) := by
  rintro ⟨fuel, hrun⟩
  have hdev := keepsAccepting_const (n := 1) (by decide)
  have hall : (⟨[[1], [2, 3], [4]], 0, []⟩ : Hdr UInt8).sent ++
      (⟨[[1], [2, 3], [4]], 0, []⟩ : Hdr UInt8).window.flatten = [1, 2, 3, 4] := rfl
  refine sendLoop_ne_of_not_fits (k := 1) hdev hall ?_ (by decide) ?_ hrun
  · intro j hj
    obtain rfl : j = 0 := by omega
    decide
  · intro p hne _
    change ([1, 2, 3, 4] : List UInt8)[p]? ≠ some 3
    change p ≠ 2 at hne
    match p with
    | 0 => decide
    | 1 => decide
    | 3 => decide
    | p + 4 => simp

end Dsi.SendIov
