import Mathlib.Data.Nat.Find
import Dsi.Lib.Device

/-!
# Dsi.Transport.AllEvents

The asynchronous full reads and writes: `ReadAllEvent::doEval` and
`WriteAllEvent::doEval` (`src/common/CHandlerT.hpp`) on the members of
`IOAllEvent` (`src/common/CHandler.hpp`).  Each poll event makes one call, and
the event is armed again until `len_` bytes are through; then the completion
routine is called, and when it returns true the event starts over.

The two functions differ in the call they make and in what they report for a
call that moves no byte, so they are one definition with these as parameters.
The repetition of an interrupted call is a step of its own here, which changes
nothing.
-/

namespace Dsi.AllEvent

open Device

/-! ## `IOAllEvent` -/

/-- The part of `io::error_code` that the two events distinguish. -/
inductive ErrorCode where
  | ok
  | eof
  | error
  deriving DecidableEq, Repr

/-- What the completion routine is called with, and what it finds. -/
structure Completion (σ : Type) where
  total : Nat
  ec : ErrorCode
  found : σ

/-- What a kind of event does: `call cur len` moves `len` bytes at `buf_ + cur`,
`zero` is reported when a call moves no byte, and `again` is what a completion
routine that returns true does with the buffer. -/
structure Operation (σ : Type) where
  call : Nat → Nat → σ → σ
  zero : ErrorCode
  again : σ → σ

/-- `IOAllEvent`: `len_`, the place of `cur_` in the buffer, `total_`, the data
on both sides of the calls, and the completions so far. -/
structure IOAllEvent (σ : Type) where
  len : Nat
  cur : Nat
  total : Nat
  data : σ
  done : List (Completion σ)

variable {σ : Type} (op : Operation σ)

namespace IOAllEvent

/-- The completion routine is called, and `reset()` behind it. -/
def complete (e : IOAllEvent σ) (ec : ErrorCode) : IOAllEvent σ :=
  { e with
    cur := 0
    total := 0
    data := op.again e.data
    done := e.done ++ [⟨e.total, ec, e.data⟩] }

/-- A call that moves `len > 0` bytes: `cur_` is set to `buf_ + len`. -/
def move (e : IOAllEvent σ) (len : Nat) : IOAllEvent σ :=
  { e with
    cur := len
    total := e.total + len
    data := op.call e.cur len e.data }

/-- `doEval` when the call is ready to move so many bytes. -/
def doEval (r : Reply) (e : IOAllEvent σ) : IOAllEvent σ :=
  match r with
  | .interrupted => e
  | .failed => e.complete op .error
  | .accepts n =>
      let len := min n (e.len - e.total)
      let e' := if 0 < len then e.move op len else e
      if e'.total = e'.len ∨ len = 0 then e'.complete op (if len = 0 then op.zero else .ok) else e'

/-- The event after `k` calls. -/
def runAt (e : IOAllEvent σ) (dev : Stream' Reply) : Nat → IOAllEvent σ
  | 0 => e
  | k + 1 => doEval op (dev.get k) (runAt e dev k)

/-- The call stays inside the buffer, nothing is left over behind a completion,
and every completion so far was reported as success for `len_` bytes. -/
structure Regular (e : IOAllEvent σ) : Prop where
  inside : e.cur + (e.len - e.total) ≤ e.len
  open_ : e.total < e.len ∨ (e.len = 0 ∧ e.total = 0)
  success : ∀ c ∈ e.done, c.ec = .ok ∧ c.total = e.len

end IOAllEvent

/-! ## The two events -/

/-- A buffer with the bytes at `cur` replaced. -/
def overwrite (buf : List UInt8) (cur : Nat) (bytes : List UInt8) : List UInt8 :=
  buf.take cur ++ bytes ++ buf.drop (cur + bytes.length)

/-- The buffer of a read, and the stream that is still to be delivered. -/
structure ReadData where
  buf : List UInt8
  rest : Stream' UInt8

/-- `IOFuncsT::read` into the buffer; a read of no byte is the end of the
stream. -/
def readOp : Operation ReadData where
  call cur len d := ⟨overwrite d.buf cur (d.rest.take len), d.rest.drop len⟩
  zero := .eof
  again := id

/-- The buffer of a write with the ones that the completion routine puts in its
place one after the other, and the bytes sent. -/
structure WriteData where
  bufs : Stream' (List UInt8)
  sent : List UInt8

/-- `IOFuncsT::write` from the buffer. -/
def writeOp : Operation WriteData where
  call cur len d := { d with sent := d.sent ++ (d.bufs.head.drop cur).take len }
  zero := .ok
  again d := { d with bufs := d.bufs.tail }

/-- `ReadAllEvent(buf, len, func)` on a stream. -/
def readAllEvent (buf : List UInt8) (src : Stream' UInt8) : IOAllEvent ReadData :=
  ⟨buf.length, 0, 0, ⟨buf, src⟩, []⟩

/-- `WriteAllEvent(buf, len, func)`. -/
def writeAllEvent (len : Nat) (bufs : Stream' (List UInt8)) : IOAllEvent WriteData :=
  ⟨len, 0, 0, ⟨bufs, []⟩, []⟩

open IOAllEvent

/-- Full reads of `len` bytes: whatever the stream and the buffer hold, every
call stays inside the buffer, the completion routine is called with success once
for every `len` bytes, and the buffer then holds just these. -/
def ReadsAll (len : Nat) (dev : Stream' Reply) : Prop :=
  ∀ (src : Stream' UInt8) (buf : List UInt8), buf.length = len → ∀ k,
    let e := (readAllEvent buf src).runAt readOp dev k
    e.Regular ∧ e.data.rest = src.drop (e.done.length * len + e.total) ∧
      ∀ i c, e.done[i]? = some c → c.found.buf = (src.drop (i * len)).take len

/-- Full writes of `len` bytes: whatever the buffers hold, every call stays
inside the buffer, the completion routine is called with success once for every
`len` bytes, and then just the buffers so far are sent. -/
def WritesAll (len : Nat) (dev : Stream' Reply) : Prop :=
  ∀ bufs : Stream' (List UInt8), (∀ i, (bufs.get i).length = len) → ∀ k,
    let e := (writeAllEvent len bufs).runAt writeOp dev k
    e.Regular ∧ e.data.sent.length = e.done.length * len + e.total ∧
      ∀ i c, e.done[i]? = some c → c.found.sent = (bufs.take (i + 1)).flatten

/-! ## Pieces -/

/-- The bytes come in pieces: no call fails or moves nothing, and there is
always another piece. -/
structure Delivers (dev : Stream' Reply) : Prop extends KeepsAccepting dev where
  ne_zero : ∀ k, dev.get k ≠ .accepts 0

/-- The number of rounds behind, the bytes of the current one that are through,
and the pieces they came in. -/
structure Round where
  behind : Nat
  filled : Nat
  pieces : Nat
  deriving DecidableEq, Repr

/-- A piece is part of the current round as far as that goes. -/
def Round.next (len : Nat) (x : Round) (r : Reply) : Round :=
  match r with
  | .accepts n =>
      if x.filled + min n (len - x.filled) = len then ⟨x.behind + 1, 0, 0⟩
      else ⟨x.behind, x.filled + min n (len - x.filled), x.pieces + 1⟩
  | _ => x

/-- The round before call `k`. -/
def roundAt (len : Nat) (dev : Stream' Reply) : Nat → Round
  | 0 => ⟨0, 0, 0⟩
  | k + 1 => (roundAt len dev k).next len (dev.get k)

/-- Every round of `len` bytes comes in at most two pieces. -/
def TwoPieces (len : Nat) (dev : Stream' Reply) : Prop := ∀ k, (roundAt len dev k).pieces < 2

/-! ## One call -/

section Step

variable {op} {e : IOAllEvent σ} {n : Nat}

/-- A piece that does not fill the buffer arms the event again. -/
theorem doEval_more (hn : 0 < n) (hlt : e.total + n < e.len) :
    doEval op (.accepts n) e = e.move op n := by
  have hmin : min n (e.len - e.total) = n := by omega
  have htotal : (e.move op n).total = e.total + n := rfl
  have hlen : (e.move op n).len = e.len := rfl
  simp only [doEval, hmin, if_pos hn]
  rw [if_neg]
  omega

/-- A piece that fills the buffer completes it. -/
theorem doEval_last (hopen : e.total < e.len) (hge : e.len ≤ e.total + n) :
    doEval op (.accepts n) e = (e.move op (e.len - e.total)).complete op .ok := by
  have hmin : min n (e.len - e.total) = e.len - e.total := by omega
  have htotal : (e.move op (e.len - e.total)).total = e.total + (e.len - e.total) := rfl
  have hlen : (e.move op (e.len - e.total)).len = e.len := rfl
  simp only [doEval, hmin, if_pos (Nat.sub_pos_of_lt hopen)]
  rw [if_pos (.inl (by omega)), if_neg (by omega)]

/-- An event of no bytes is complete at once. -/
theorem doEval_empty (hlen : e.len = 0) :
    doEval op (.accepts n) e = e.complete op op.zero := by
  simp [doEval, hlen]

/-- Where the event stands in a round: behind one piece `cur_` is where the next
one belongs, behind more it is not. -/
structure Places (len : Nat) (e : IOAllEvent σ) (x : Round) : Prop where
  length : e.len = len
  behind : e.done.length = x.behind
  filled : e.total = x.filled
  inRound : e.total < len ∨ (len = 0 ∧ e.total = 0)
  first : x.pieces = 0 → e.cur = 0 ∧ e.total = 0
  second : x.pieces = 1 → e.cur = e.total ∧ 0 < e.total
  later : 2 ≤ x.pieces → e.cur < e.total
  success : ∀ c ∈ e.done, c.ec = .ok ∧ c.total = len

/-- The bytes of the round are among all of them. -/
theorem Places.cur_le {len : Nat} {x : Round} (h : Places len e x) : e.cur ≤ e.total := by
  have hfirst := h.first
  have hsecond := h.second
  have hlater := h.later
  omega

/-- The event is in the middle of its buffer. -/
theorem Places.regular {len : Nat} {x : Round} (h : Places len e x) : e.Regular := by
  have hcur := h.cur_le
  have hround := h.inRound
  have hlen := h.length
  exact ⟨by omega, by omega, fun c hc => hlen ▸ h.success c hc⟩

/-- Behind less than two pieces `cur_` is right. -/
theorem Places.cur_eq {len : Nat} {x : Round} (h : Places len e x) (hx : x.pieces < 2) :
    e.cur = e.total := by
  have hfirst := h.first
  have hsecond := h.second
  omega

/-- A buffer that is full ends its round. -/
theorem Places.complete {len : Nat} {x : Round} {e' : IOAllEvent σ} (h : Places len e x)
    (hlen : e'.len = len) (hdone : e'.done = e.done) (htotal : e'.total = len) :
    Places len (e'.complete op .ok) ⟨x.behind + 1, 0, 0⟩ where
  length := hlen
  behind := by
    change (e'.done ++ [_]).length = _
    rw [List.length_append, hdone, h.behind]
    rfl
  filled := rfl
  inRound := by
    change 0 < len ∨ (len = 0 ∧ 0 = 0)
    omega
  first _ := ⟨rfl, rfl⟩
  second := nofun
  later := nofun
  success c hc := by
    rcases List.mem_append.mp hc with hold | hnew
    · exact h.success c (hdone ▸ hold)
    · obtain rfl := List.mem_singleton.mp hnew
      exact ⟨rfl, htotal⟩

/-- A reply moves the event to the next place. -/
theorem Places.step {len : Nat} {x : Round} {r : Reply} (h : Places len e x)
    (hzero : 0 < len ∨ op.zero = .ok) (hr : r ≠ .failed) (h0 : r ≠ .accepts 0) :
    Places len (doEval op r e) (x.next len r) := by
  have hlen := h.length
  have hfilled := h.filled
  have hround := h.inRound
  cases r with
  | failed => exact absurd rfl hr
  | interrupted => exact h
  | accepts n =>
      have hn : 0 < n := Nat.pos_of_ne_zero fun hn => h0 (congrArg Reply.accepts hn)
      rcases Nat.eq_zero_or_pos len with hl | hpos
      · have hok : op.zero = .ok := by
          rcases hzero with hz | hz
          · omega
          · exact hz
        have hnext : x.next len (.accepts n) = ⟨x.behind + 1, 0, 0⟩ := by
          rw [Round.next, if_pos (by omega)]
        rw [doEval_empty (by omega), hnext, hok]
        exact h.complete hlen rfl (by omega)
      by_cases hlt : e.total + n < len
      · have hmin : min n (len - x.filled) = n := by omega
        have hnext : x.next len (.accepts n) = ⟨x.behind, x.filled + n, x.pieces + 1⟩ := by
          rw [Round.next, hmin, if_neg (by omega)]
        rw [doEval_more hn (by omega), hnext]
        have hcur : (e.move op n).cur = n := rfl
        have htotal : (e.move op n).total = e.total + n := rfl
        exact
          { length := hlen
            behind := h.behind
            filled := congrArg (· + n) hfilled
            inRound := by omega
            first := nofun
            second := fun hx => by
              have hx0 : x.pieces = 0 := by simpa using hx
              have hfirst := h.first hx0
              omega
            later := fun hx => by
              have hcur0 := h.second
              have hcur1 := h.later
              have hx0 : 2 ≤ x.pieces + 1 := hx
              omega
            success := h.success }
      · have hnext : x.next len (.accepts n) = ⟨x.behind + 1, 0, 0⟩ := by
          rw [Round.next, if_pos (by omega)]
        rw [doEval_last (by omega) (by omega), hnext]
        refine h.complete hlen rfl ?_
        change e.total + (e.len - e.total) = len
        omega

end Step

section Run

variable {op} {e : IOAllEvent σ} {len : Nat} {dev : Stream' Reply}

/-- The places over a whole run. -/
theorem places_runAt (hdev : Delivers dev) (hzero : 0 < len ∨ op.zero = .ok)
    (hlen : e.len = len) (hstart : e.cur = 0 ∧ e.total = 0 ∧ e.done = []) (k : Nat) :
    Places len (e.runAt op dev k) (roundAt len dev k) := by
  induction k with
  | zero =>
      obtain ⟨hcur, htotal, hdone⟩ := hstart
      exact ⟨hlen, by rw [runAt, hdone]; rfl, htotal, by rw [runAt]; omega,
        fun _ => ⟨hcur, htotal⟩, nofun, nofun,
        fun c hc => by rw [runAt, hdone] at hc; contradiction⟩
  | succ k ih => exact ih.step hzero (hdev.never_failed k) (hdev.ne_zero k)

/-- Sooner or later a piece comes, and until then nothing changes. -/
theorem exists_piece (op : Operation σ) (e : IOAllEvent σ) (hdev : Delivers dev) (k : Nat) :
    ∃ j n, k ≤ j ∧ 0 < n ∧ dev.get j = .accepts n ∧ e.runAt op dev j = e.runAt op dev k := by
  obtain ⟨j, hj, hpos⟩ := hdev.again k
  obtain ⟨d, rfl⟩ : ∃ d, j = k + d := ⟨j - k, by omega⟩
  induction d generalizing k with
  | zero =>
      cases hr : dev.get k with
      | accepts n =>
          rw [Nat.add_zero, hr] at hpos
          exact ⟨k, n, Nat.le_refl k, hpos, hr, rfl⟩
      | interrupted => rw [Nat.add_zero, hr] at hpos; contradiction
      | failed => exact absurd hr (hdev.never_failed k)
  | succ d ih =>
      cases hr : dev.get k with
      | accepts n =>
          have hn : n ≠ 0 := fun hn => hdev.ne_zero k (hn ▸ hr)
          exact ⟨k, n, Nat.le_refl k, Nat.pos_of_ne_zero hn, hr, rfl⟩
      | interrupted =>
          have hmove : k + (d + 1) = (k + 1) + d := by omega
          rw [hmove] at hpos
          obtain ⟨i, n, hi, hn, hget, hsame⟩ := ih (k + 1) (by omega) hpos
          refine ⟨i, n, by omega, hn, hget, hsame.trans ?_⟩
          rw [runAt, hr]
          rfl
      | failed => exact absurd hr (hdev.never_failed k)

/-- Every round is completed, and what every piece before the last one keeps
still holds then. -/
theorem exists_completion {P : IOAllEvent σ → Prop} (hdev : Delivers dev) (hpos : 0 < len)
    (hplaces : ∀ k, Places len (e.runAt op dev k) (roundAt len dev k))
    (hP : ∀ e n, P e → 0 < n → e.total + n < e.len → P (e.move op n)) (k : Nat)
    (hk : P (e.runAt op dev k)) :
    ∃ i n, P (e.runAt op dev i) ∧ (e.runAt op dev i).done = (e.runAt op dev k).done ∧
      dev.get i = .accepts n ∧ len ≤ (e.runAt op dev i).total + n := by
  obtain ⟨m, hm⟩ : ∃ m, len - (e.runAt op dev k).total ≤ m := ⟨_, Nat.le_refl _⟩
  induction m generalizing k with
  | zero =>
      have hround := (hplaces k).inRound
      omega
  | succ m ih =>
      obtain ⟨j, n, -, hn, hget, hsame⟩ := exists_piece op e hdev k
      have hlen := (hplaces k).length
      by_cases hlt : (e.runAt op dev k).total + n < len
      · have hnext : e.runAt op dev (j + 1) = (e.runAt op dev k).move op n := by
          rw [runAt, hget, hsame, doEval_more hn (by omega)]
        have htotal : ((e.runAt op dev k).move op n).total = (e.runAt op dev k).total + n := rfl
        obtain ⟨i, n', hi, hdone, hcall, hlast⟩ :=
          ih (j + 1) (by rw [hnext]; exact hP _ n hk hn (by omega)) (by rw [hnext]; omega)
        exact ⟨i, n', hi, by rw [hdone, hnext]; rfl, hcall, hlast⟩
      · exact ⟨j, n, hsame ▸ hk, by rw [hsame], hget, by rw [hsame]; omega⟩

/-- The completion of a round is the next one in the list. -/
theorem done_of_last (op : Operation σ) (e : IOAllEvent σ) {i n : Nat}
    (hget : dev.get i = .accepts n)
    (hopen : (e.runAt op dev i).total < (e.runAt op dev i).len)
    (hfull : (e.runAt op dev i).len ≤ (e.runAt op dev i).total + n) :
    ∃ c, (e.runAt op dev (i + 1)).done[(e.runAt op dev i).done.length]? = some c ∧
      c.found = ((e.runAt op dev i).move op
        ((e.runAt op dev i).len - (e.runAt op dev i).total)).data := by
  rw [runAt, hget, doEval_last hopen hfull]
  exact ⟨_, List.getElem?_concat_length, rfl⟩

end Run

/-! ## Reading -/

/-- A stream is taken in two parts. -/
theorem take_add (s : Stream' UInt8) (a b : Nat) :
    s.take (a + b) = s.take a ++ (s.drop a).take b := by
  induction a generalizing s with
  | zero => simp
  | succ a ih =>
      rw [Nat.succ_add, Stream'.take_succ, Stream'.take_succ, ih s.tail, List.cons_append]
      rfl

/-- What is written into a buffer keeps its length. -/
theorem length_overwrite {buf bytes : List UInt8} {cur : Nat}
    (h : cur + bytes.length ≤ buf.length) : (overwrite buf cur bytes).length = buf.length := by
  simp only [overwrite, List.length_append, List.length_take, List.length_drop]
  omega

/-- The bytes are behind what was there before. -/
theorem take_overwrite (buf bytes : List UInt8) (cur : Nat)
    (h : cur + bytes.length ≤ buf.length) :
    (overwrite buf cur bytes).take (cur + bytes.length) = buf.take cur ++ bytes := by
  have hlen : (buf.take cur ++ bytes).length = cur + bytes.length := by
    rw [List.length_append, List.length_take]
    omega
  rw [overwrite, ← hlen, List.take_left]

/-- What a read event holds in round `done.length`: the buffer begins with the
bytes of the round that are through. -/
structure ReadInv (src : Stream' UInt8) (len : Nat) (e : IOAllEvent ReadData) : Prop where
  size : e.data.buf.length = len
  rest : e.data.rest = src.drop (e.done.length * len + e.total)
  front : e.data.buf.take e.total = (src.drop (e.done.length * len)).take e.total
  found : ∀ i c, e.done[i]? = some c → c.found.buf = (src.drop (i * len)).take len

namespace ReadInv

variable {src : Stream' UInt8} {len : Nat} {e : IOAllEvent ReadData}

/-- A piece that is put where it belongs. -/
theorem move (h : ReadInv src len e) {n : Nat} (hcur : e.cur = e.total)
    (hle : e.total + n ≤ len) : ReadInv src len (e.move readOp n) where
  size := by
    change (overwrite e.data.buf e.cur (e.data.rest.take n)).length = len
    have hsize := h.size
    rw [length_overwrite (by rw [Stream'.length_take]; omega), hsize]
  rest := by
    change e.data.rest.drop n = src.drop (e.done.length * len + (e.total + n))
    rw [h.rest, Stream'.drop_drop, Nat.add_assoc]
  front := by
    have hsize := h.size
    have hlen : (e.data.rest.take n).length = n := Stream'.length_take n _
    have htake := take_overwrite e.data.buf (e.data.rest.take n) e.total (by omega)
    rw [hlen] at htake
    change (overwrite e.data.buf e.cur (e.data.rest.take n)).take (e.total + n) =
      (src.drop (e.done.length * len)).take (e.total + n)
    rw [hcur, htake, h.front, h.rest, take_add, Stream'.drop_drop]
  found := h.found

/-- A buffer that is full holds the bytes of its round. -/
theorem complete (h : ReadInv src len e) (hfull : e.total = len) :
    ReadInv src len (e.complete readOp .ok) where
  size := h.size
  rest := by
    change e.data.rest = src.drop ((e.done ++ [_]).length * len + 0)
    rw [h.rest, List.length_append, List.length_singleton, Nat.succ_mul, hfull, Nat.add_zero]
  front := by
    change e.data.buf.take 0 = Stream'.take 0 _
    rw [List.take_zero, Stream'.take_zero]
  found i c hc := by
    change (e.done ++ [⟨e.total, .ok, e.data⟩])[i]? = some c at hc
    by_cases hi : i < e.done.length
    · rw [List.getElem?_append_left hi] at hc
      exact h.found i c hc
    · rw [List.getElem?_append_right (Nat.le_of_not_lt hi)] at hc
      obtain ⟨hlt, hget⟩ := List.getElem?_eq_some_iff.mp hc
      have hi0 : i = e.done.length := by
        rw [List.length_singleton] at hlt
        omega
      subst hi0
      have hfront := h.front
      rw [hfull, List.take_of_length_le (Nat.le_of_eq h.size)] at hfront
      simp only [Nat.sub_self, List.getElem_cons_zero] at hget
      rw [← hget]
      exact hfront

end ReadInv

section Read

variable {len : Nat} {dev : Stream' Reply} {buf : List UInt8}

/-- A read is where its replies say. -/
theorem places_read (src : Stream' UInt8) (hdev : Delivers dev) (hpos : 0 < len)
    (hbuf : buf.length = len) (k : Nat) :
    Places len ((readAllEvent buf src).runAt readOp dev k) (roundAt len dev k) :=
  places_runAt hdev (.inl hpos) hbuf ⟨rfl, rfl, rfl⟩ k

/-- Rounds of at most two pieces are read as they should be. -/
theorem readInv_runAt (src : Stream' UInt8) (hdev : Delivers dev) (hpos : 0 < len)
    (hbuf : buf.length = len) (htwo : TwoPieces len dev) (k : Nat) :
    ReadInv src len ((readAllEvent buf src).runAt readOp dev k) := by
  induction k with
  | zero => exact ⟨hbuf, by simp [readAllEvent, runAt], by simp [readAllEvent, runAt], nofun⟩
  | succ k ih =>
      have hplaces := places_read src hdev hpos hbuf k
      have hcur := hplaces.cur_eq (htwo k)
      have hlen := hplaces.length
      have hround := hplaces.inRound
      rw [runAt]
      cases hr : dev.get k with
      | failed => exact absurd hr (hdev.never_failed k)
      | interrupted => exact ih
      | accepts n =>
          have hn : 0 < n := Nat.pos_of_ne_zero fun hn => hdev.ne_zero k (hn ▸ hr)
          by_cases hlt : ((readAllEvent buf src).runAt readOp dev k).total + n < len
          · rw [doEval_more hn (by omega)]
            exact ih.move hcur (by omega)
          · rw [doEval_last (by omega) (by omega)]
            refine (ih.move hcur (by omega)).complete ?_
            change _ + (_ - _) = len
            omega

/-- A device that delivers every buffer in two pieces at most reads all of it. -/
theorem readsAll_of_twoPieces (hdev : Delivers dev) (hpos : 0 < len) (htwo : TwoPieces len dev) :
    ReadsAll len dev := by
  intro src buf hbuf k
  have hinv := readInv_runAt src hdev hpos hbuf htwo k
  exact ⟨(places_read src hdev hpos hbuf k).regular, hinv.rest, hinv.found⟩

/-- The stream of zeros with a single one. -/
def markedStream (t : Nat) : Stream' UInt8 := fun i => if i = t then 1 else 0

/-- In front of its mark the stream is all zeros. -/
theorem take_markedStream {t a n : Nat} (h : a + n ≤ t) :
    ((markedStream t).drop a).take n = List.replicate n 0 := by
  induction n generalizing a with
  | zero => rfl
  | succ n ih =>
      have hhead : ((markedStream t).drop a).head = 0 := if_neg (by simp; omega)
      rw [Stream'.take_succ, hhead, List.replicate_succ, Stream'.tail_eq_drop, Stream'.drop_drop,
        ih (by omega)]

/-- Zeros over zeros. -/
theorem overwrite_replicate {n cur l : Nat} (h : cur + l ≤ n) :
    overwrite (List.replicate n 0) cur (List.replicate l 0) = List.replicate n 0 := by
  rw [overwrite, List.take_replicate, List.drop_replicate, List.length_replicate,
    List.replicate_append_replicate, List.replicate_append_replicate]
  congr 1
  omega

/-- What is behind the bytes stays. -/
theorem getElem?_overwrite {buf bytes : List UInt8} {cur i : Nat} (hcur : cur ≤ buf.length)
    (h : cur + bytes.length ≤ i) : (overwrite buf cur bytes)[i]? = buf[i]? := by
  have hlen : (buf.take cur ++ bytes).length = cur + bytes.length := by
    rw [List.length_append, List.length_take]
    omega
  rw [overwrite, List.getElem?_append_right (by omega), hlen, List.getElem?_drop]
  congr 1
  omega

/-- A piece of zeros leaves a buffer of zeros. -/
theorem buf_move_of_zeros {e : IOAllEvent ReadData} {t a n : Nat}
    (hbuf : e.data.buf = List.replicate len 0) (hrest : e.data.rest = (markedStream t).drop a)
    (hcur : e.cur + n ≤ len) (hle : a + n ≤ t) :
    (e.move readOp n).data.buf = List.replicate len 0 := by
  change overwrite e.data.buf e.cur (e.data.rest.take n) = _
  rw [hbuf, hrest, take_markedStream hle, overwrite_replicate hcur]

/-- Until the single one comes, a buffer of zeros stays one. -/
theorem buf_of_markedStream (hdev : Delivers dev) (hpos : 0 < len) (hreads : ReadsAll len dev)
    (t k : Nat)
    (hle : ((readAllEvent (List.replicate len 0) (markedStream t)).runAt readOp dev k).done.length
      * len + ((readAllEvent (List.replicate len 0) (markedStream t)).runAt readOp dev k).total
      ≤ t) :
    ((readAllEvent (List.replicate len 0) (markedStream t)).runAt readOp dev k).data.buf =
      List.replicate len 0 := by
  induction k with
  | zero => rfl
  | succ k ih =>
      have hbuf : (List.replicate len (0 : UInt8)).length = len := List.length_replicate ..
      have hplaces := places_read (markedStream t) hdev hpos hbuf k
      obtain ⟨-, hrest, -⟩ := hreads (markedStream t) _ hbuf k
      rw [runAt] at hle ⊢
      generalize (readAllEvent (List.replicate len 0) (markedStream t)).runAt readOp dev k = e
        at hle ih hplaces hrest ⊢
      have hcur := hplaces.cur_le
      have hlen := hplaces.length
      have hround := hplaces.inRound
      cases hr : dev.get k with
      | failed => exact absurd hr (hdev.never_failed k)
      | interrupted =>
          rw [hr] at hle
          exact ih hle
      | accepts n =>
          have hn : 0 < n := Nat.pos_of_ne_zero fun hn => hdev.ne_zero k (hn ▸ hr)
          rw [hr] at hle
          by_cases hlt : e.total + n < len
          · rw [doEval_more hn (by omega)] at hle ⊢
            change e.done.length * len + (e.total + n) ≤ t at hle
            exact buf_move_of_zeros (ih (by omega)) hrest (by omega) (by omega)
          · rw [doEval_last (by omega) (by omega)] at hle ⊢
            change (e.done ++ [_]).length * len + 0 ≤ t at hle
            rw [List.length_append, List.length_singleton, Nat.succ_mul] at hle
            exact buf_move_of_zeros (ih (by omega)) hrest (by omega) (by omega)

/-- A byte behind the place of every piece to come: `cur_` lags behind the
bytes that are through. -/
def LastStale (len : Nat) (e : IOAllEvent ReadData) : Prop :=
  e.len = len ∧ e.cur < e.total ∧ e.data.buf.length = len ∧ e.data.buf[len - 1]? = some 0

/-- Behind two pieces the last byte of the buffer is out of reach. -/
theorem LastStale.move {e : IOAllEvent ReadData} {n : Nat} (h : LastStale len e) (hn : 0 < n)
    (hle : e.total + n ≤ len) : LastStale len (e.move readOp n) := by
  obtain ⟨hlen, hcur, hsize, hlast⟩ := h
  have htake : (e.data.rest.take n).length = n := Stream'.length_take n _
  have hlag : n < e.total + n := by omega
  refine ⟨hlen, hlag, ?_, ?_⟩
  · change (overwrite e.data.buf e.cur (e.data.rest.take n)).length = len
    rw [length_overwrite (by omega), hsize]
  · change (overwrite e.data.buf e.cur (e.data.rest.take n))[len - 1]? = some 0
    rw [getElem?_overwrite (by omega) (by omega), hlast]

/-- A round of more than two pieces is completed with a byte that was not
read. -/
theorem not_readsAll_of_pieces (hdev : Delivers dev) (hpos : 0 < len) {k : Nat}
    (hk : 2 ≤ (roundAt len dev k).pieces) : ¬ ReadsAll len dev := by
  intro hreads
  obtain ⟨t, ht⟩ : ∃ t, t = (roundAt len dev k).behind * len + (len - 1) := ⟨_, rfl⟩
  have hbuf : (List.replicate len (0 : UInt8)).length = len := List.length_replicate ..
  have hplaces := places_read (markedStream t) hdev hpos hbuf
  have hstale : LastStale len
      ((readAllEvent (List.replicate len 0) (markedStream t)).runAt readOp dev k) := by
    have hround := (hplaces k).inRound
    have hzeros := buf_of_markedStream hdev hpos hreads t k (by rw [(hplaces k).behind]; omega)
    refine ⟨(hplaces k).length, (hplaces k).later hk, by rw [hzeros, hbuf], ?_⟩
    rw [hzeros, List.getElem?_replicate_of_lt (by omega)]
  obtain ⟨i, n, hlate, hdone, hget, hfull⟩ := exists_completion hdev hpos hplaces
    (fun e n he hn hlt => LastStale.move he hn (by rw [← he.1]; omega)) k hstale
  have hlen := (hplaces i).length
  have hround := (hplaces i).inRound
  obtain ⟨c, hc, hfound⟩ := done_of_last readOp
    (readAllEvent (List.replicate len 0) (markedStream t)) hget (by omega) (by omega)
  obtain ⟨-, -, hbytes⟩ := hreads (markedStream t) _ hbuf (i + 1)
  have hplace := congrArg (fun l : List UInt8 => l[len - 1]?) (hbytes _ c hc)
  have hsome : 0 < len - ((readAllEvent (List.replicate len 0) (markedStream t)).runAt
      readOp dev i).total := by omega
  have hkept := (hlate.move hsome (by omega)).2.2.2
  rw [hdone, (hplaces k).behind] at hplace
  simp only [hfound, hlen] at hplace
  rw [hkept, Stream'.getElem?_take (by omega), Stream'.get_drop, ← ht] at hplace
  have hone : (markedStream t).get t = 1 := if_pos rfl
  rw [hone] at hplace
  contradiction

end Read

/-! ## Writing -/

/-- What a write event has sent: the buffers of the rounds behind, and the
bytes of the current one that are through. -/
structure WriteInv (bufs : Stream' (List UInt8)) (e : IOAllEvent WriteData) : Prop where
  coming : e.data.bufs = bufs.drop e.done.length
  sent : e.data.sent = (bufs.take e.done.length).flatten ++ (bufs.get e.done.length).take e.total
  found : ∀ i c, e.done[i]? = some c → c.found.sent = (bufs.take (i + 1)).flatten

section Write

variable {len : Nat} {dev : Stream' Reply} {bufs : Stream' (List UInt8)}

/-- A write is where its replies say. -/
theorem places_write (bufs : Stream' (List UInt8)) (len : Nat) (hdev : Delivers dev) (k : Nat) :
    Places len ((writeAllEvent len bufs).runAt writeOp dev k) (roundAt len dev k) :=
  places_runAt hdev (.inr rfl) (rfl : (writeAllEvent len bufs).len = len) ⟨rfl, rfl, rfl⟩ k

namespace WriteInv

variable {e : IOAllEvent WriteData}

/-- The next buffer is the one that is not done. -/
theorem head_bufs (h : WriteInv bufs e) : e.data.bufs.head = bufs.get e.done.length := by
  rw [h.coming, Stream'.head_drop]

/-- A piece that is taken from where it belongs. -/
theorem move (h : WriteInv bufs e) {n : Nat} (hcur : e.cur = e.total) :
    WriteInv bufs (e.move writeOp n) where
  coming := h.coming
  sent := by
    change e.data.sent ++ (e.data.bufs.head.drop e.cur).take n =
      (bufs.take e.done.length).flatten ++ (bufs.get e.done.length).take (e.total + n)
    rw [h.sent, h.head_bufs, hcur, List.append_assoc, List.take_add]
  found := h.found

/-- A buffer that is sent whole is the next of those behind. -/
theorem complete (h : WriteInv bufs e) (hlen : (bufs.get e.done.length).length = len)
    (hfull : e.total = len) : WriteInv bufs (e.complete writeOp .ok) := by
  have hall : e.data.sent = (bufs.take (e.done.length + 1)).flatten := by
    rw [h.sent, hfull, List.take_of_length_le (Nat.le_of_eq hlen), Stream'.take_succ',
      List.flatten_append, List.flatten_singleton]
  have hdone : (e.complete writeOp .ok).done.length = e.done.length + 1 :=
    List.length_append
  refine ⟨?_, ?_, ?_⟩
  · rw [hdone]
    change e.data.bufs.tail = bufs.drop (e.done.length + 1)
    rw [h.coming, Stream'.tail_eq_drop, Stream'.drop_drop]
  · rw [hdone]
    change e.data.sent = _ ++ (bufs.get (e.done.length + 1)).take 0
    rw [hall, List.take_zero, List.append_nil]
  · intro i c hc
    change (e.done ++ [⟨e.total, .ok, e.data⟩])[i]? = some c at hc
    rcases Nat.lt_trichotomy i e.done.length with hi | rfl | hi
    · rw [List.getElem?_append_left hi] at hc
      exact h.found i c hc
    · rw [List.getElem?_concat_length] at hc
      obtain rfl := Option.some.inj hc
      exact hall
    · rw [List.getElem?_eq_none (by rw [List.length_append]; exact hi)] at hc
      contradiction

end WriteInv

/-- Rounds of at most two pieces are written as they should be. -/
theorem writeInv_runAt (hdev : Delivers dev) (hbufs : ∀ i, (bufs.get i).length = len)
    (htwo : TwoPieces len dev) (k : Nat) :
    WriteInv bufs ((writeAllEvent len bufs).runAt writeOp dev k) := by
  induction k with
  | zero => exact ⟨rfl, by simp [writeAllEvent, runAt], nofun⟩
  | succ k ih =>
      have hplaces := places_write bufs len hdev k
      have hcur := hplaces.cur_eq (htwo k)
      rw [runAt]
      generalize (writeAllEvent len bufs).runAt writeOp dev k = e at ih hplaces hcur ⊢
      have hlen := hplaces.length
      have hround := hplaces.inRound
      cases hr : dev.get k with
      | failed => exact absurd hr (hdev.never_failed k)
      | interrupted => exact ih
      | accepts n =>
          have hn : 0 < n := Nat.pos_of_ne_zero fun hn => hdev.ne_zero k (hn ▸ hr)
          rcases Nat.eq_zero_or_pos len with hl | hpos
          · rw [doEval_empty (by omega)]
            exact ih.complete (hbufs _) (by omega)
          by_cases hlt : e.total + n < len
          · rw [doEval_more hn (by omega)]
            exact ih.move hcur
          · rw [doEval_last (by omega) (by omega)]
            refine (ih.move hcur).complete (hbufs _) ?_
            change e.total + (e.len - e.total) = len
            omega

/-- Buffers of one length. -/
theorem length_flatten_take (hbufs : ∀ i, (bufs.get i).length = len) (m : Nat) :
    (bufs.take m).flatten.length = m * len := by
  induction m with
  | zero => simp
  | succ m ih =>
      rw [Stream'.take_succ', List.flatten_append, List.length_append, ih,
        List.flatten_singleton, hbufs, Nat.succ_mul]

/-- A device that takes every buffer in two pieces at most writes all of it. -/
theorem writesAll_of_twoPieces (hdev : Delivers dev) (htwo : TwoPieces len dev) :
    WritesAll len dev := by
  intro bufs hbufs k
  have hinv := writeInv_runAt hdev hbufs htwo k
  have hplaces := places_write bufs len hdev k
  have hround := hplaces.inRound
  refine ⟨hplaces.regular, ?_, hinv.found⟩
  rw [hinv.sent, List.length_append, length_flatten_take hbufs, List.length_take, hbufs,
    Nat.min_eq_left (by omega)]

/-- A buffer of zeros with a single one. -/
def markedBuffer (len f : Nat) : List UInt8 := (List.range len).map fun i => if i = f then 1 else 0

/-- A buffer with one mark. -/
theorem getElem?_markedBuffer {len f i : Nat} (hi : i < len) :
    (markedBuffer len f)[i]? = some (if i = f then 1 else 0) := by
  rw [markedBuffer, List.getElem?_map, List.getElem?_range hi]
  rfl

/-- A completion routine that leaves the buffer as it is. -/
theorem bufs_runAt_const (b : List UInt8) (k : Nat) :
    ((writeAllEvent len (Stream'.const b)).runAt writeOp dev k).data.bufs = Stream'.const b := by
  induction k with
  | zero => rfl
  | succ k ih =>
      rw [runAt]
      generalize (writeAllEvent len (Stream'.const b)).runAt writeOp dev k = e at ih ⊢
      have hmove (n : Nat) : (if 0 < n then e.move writeOp n else e).data.bufs =
          Stream'.const b := by
        split
        · exact ih
        · exact ih
      cases dev.get k with
      | failed => exact congrArg Stream'.tail ih
      | interrupted => exact ih
      | accepts n =>
          have hcall := hmove (min n (e.len - e.total))
          simp only [doEval]
          generalize (if 0 < min n (e.len - e.total) then e.move writeOp (min n (e.len - e.total))
            else e) = e' at hcall ⊢
          split
          · exact congrArg Stream'.tail hcall
          · exact hcall

/-- The byte at a place that is sent already, or with the next piece, is not the
one that belongs there. -/
def SendsZero (len place : Nat) (e : IOAllEvent WriteData) : Prop :=
  e.len = len ∧ ∀ n, 0 < n → (e.move writeOp n).data.sent[place]? = some 0

/-- The event sends zeros until it comes to the place. -/
theorem SendsZero.move {place n : Nat} {e : IOAllEvent WriteData} (h : SendsZero len place e)
    (hn : 0 < n) : SendsZero len place (e.move writeOp n) := by
  refine ⟨h.1, fun n' _ => ?_⟩
  have hbyte := h.2 n hn
  obtain ⟨hlt, -⟩ := List.getElem?_eq_some_iff.mp hbyte
  change ((e.move writeOp n).data.sent ++ _)[place]? = some 0
  rw [List.getElem?_append_left hlt, hbyte]

/-- Behind two pieces the next byte is taken from the wrong place. -/
theorem not_writesAll_of_pieces (hdev : Delivers dev) {k : Nat}
    (hk : 2 ≤ (roundAt len dev k).pieces) : ¬ WritesAll len dev := by
  intro hwrites
  obtain ⟨b, hlenb, hmark⟩ : ∃ b : List UInt8, b.length = len ∧
      ∀ i < len, b[i]? = some (if i = (roundAt len dev k).filled then 1 else 0) :=
    ⟨markedBuffer len _, by simp [markedBuffer], fun _ => getElem?_markedBuffer⟩
  have hbufs : ∀ i, ((Stream'.const b).get i).length = len := fun _ => hlenb
  have hplaces := places_write (Stream'.const b) len hdev
  obtain ⟨-, hsent, -⟩ := hwrites _ hbufs k
  have hlag := (hplaces k).later hk
  have hpos : 0 < len := by
    have hround := (hplaces k).inRound
    omega
  have hzero : SendsZero len
      ((roundAt len dev k).behind * len + (roundAt len dev k).filled)
      ((writeAllEvent len (Stream'.const b)).runAt writeOp dev k) := by
    have hround := (hplaces k).inRound
    have hfilled := (hplaces k).filled
    refine ⟨(hplaces k).length, fun n hn => ?_⟩
    rw [← (hplaces k).behind, ← hfilled, ← hsent]
    change (_ ++ List.take n (List.drop _ (Stream'.head _)))[_]? = some 0
    rw [List.getElem?_append_right (Nat.le_refl _), Nat.sub_self,
      List.getElem?_take_of_lt hn, List.getElem?_drop, bufs_runAt_const]
    change b[_ + 0]? = some 0
    rw [hmark _ (by omega), if_neg (by omega)]
  obtain ⟨i, n, hlate, hdone, hget, hfull⟩ := exists_completion hdev hpos hplaces
    (fun e n he hn _ => SendsZero.move he hn) k hzero
  have hlen := (hplaces i).length
  have hround := (hplaces i).inRound
  obtain ⟨c, hc, hfound⟩ := done_of_last writeOp (writeAllEvent len (Stream'.const b)) hget
    (by omega) (by omega)
  obtain ⟨-, -, hbytes⟩ := hwrites _ hbufs (i + 1)
  have hall := hbytes _ c hc
  have hbyte := hlate.2 (len - ((writeAllEvent len (Stream'.const b)).runAt writeOp dev i).total)
    (by omega)
  rw [hfound, hlen, hdone, (hplaces k).behind, Stream'.take_succ', List.flatten_append,
    List.flatten_singleton] at hall
  have hroundk := (hplaces k).inRound
  have hfilled := (hplaces k).filled
  rw [hall, List.getElem?_append_right (by rw [length_flatten_take hbufs]; omega),
    length_flatten_take hbufs, Nat.add_sub_cancel_left, Stream'.get_const, hmark _ (by omega),
    if_pos rfl] at hbyte
  contradiction

end Write

/-! ## Both events -/

/-- **Full reads and writes**: over every run of pieces, `ReadAllEvent` and
`WriteAllEvent` bring each byte to its place exactly when every round of `len_`
bytes comes in at most two pieces. -/
theorem all_events_iff (len : Nat) (dev : Stream' Reply) (hdev : Delivers dev) :
    (0 < len → (ReadsAll len dev ↔ TwoPieces len dev)) ∧
      (WritesAll len dev ↔ TwoPieces len dev) := by
  refine ⟨fun hpos => ⟨fun h k => ?_, readsAll_of_twoPieces hdev hpos⟩,
    fun h k => ?_, writesAll_of_twoPieces hdev⟩
  · exact Nat.lt_of_not_le fun hk => not_readsAll_of_pieces hdev hpos hk h
  · exact Nat.lt_of_not_le fun hk => not_writesAll_of_pieces hdev hk h

/-- A device that always accepts some bytes delivers. -/
theorem delivers_const {n : Nat} (h : 0 < n) : Delivers (Stream'.const (.accepts n)) where
  toKeepsAccepting := keepsAccepting_const h
  ne_zero _ hk := Nat.ne_of_gt h (Reply.accepts.inj hk)

/-- Buffers of four bytes through a device that moves three at a time. -/
theorem all_events_four_in_threes :
    Delivers (Stream'.const (.accepts 3)) ∧ ReadsAll 4 (Stream'.const (.accepts 3)) ∧
      WritesAll 4 (Stream'.const (.accepts 3)) := by
  have hdev := delivers_const (n := 3) (by decide)
  have htwo : TwoPieces 4 (Stream'.const (.accepts 3)) := by
    intro k
    have hround : roundAt 4 (Stream'.const (.accepts 3)) k = ⟨k / 2, k % 2 * 3, k % 2⟩ := by
      induction k with
      | zero => rfl
      | succ k ih =>
          rw [roundAt, ih]
          change Round.next 4 ⟨k / 2, k % 2 * 3, k % 2⟩ (.accepts 3) = _
          rcases Nat.mod_two_eq_zero_or_one k with hk | hk
          · have hsucc : (k + 1) % 2 = 1 ∧ (k + 1) / 2 = k / 2 := by omega
            simp [Round.next, hk, hsucc]
          · have hsucc : (k + 1) % 2 = 0 ∧ (k + 1) / 2 = k / 2 + 1 := by omega
            simp [Round.next, hk, hsucc]
    rw [hround]
    exact Nat.mod_lt k (by decide)
  obtain ⟨hread, hwrite⟩ := all_events_iff 4 _ hdev
  exact ⟨hdev, (hread (by decide)).mpr htwo, hwrite.mpr htwo⟩

/-- A buffer of three bytes that come one at a time: the third byte is put where
the second one is. -/
theorem not_readsAll_three_in_ones : ¬ ReadsAll 3 (Stream'.const (.accepts 1)) := by
  have hdev := delivers_const (n := 1) (by decide)
  have hk : 2 ≤ (roundAt 3 (Stream'.const (.accepts 1)) 2).pieces := by decide
  exact not_readsAll_of_pieces hdev (by decide) hk

end Dsi.AllEvent
