import Dsi.Transport.SendIov
import Dsi.Broker.Responses

/-!
# Dsi.Broker.ClientIo

A call of the client library (`src/servicebroker/clientIo.cpp`): `sendAndReceiveV` sends
the request frame with its segments, receives the response frame and spreads the body
over the buffers of the caller.  The places where it waits for the socket are the states of
`Client`: a step is one pass of the loop in `sendiov` or in `recvAll`.
-/

namespace Dsi

open CLayout LittleEndian SendIov

/-! ## The arguments of a call -/

/-- The arguments of `sendAndReceiveV`: the command, the segments to be sent, of which
`none` is a null pointer without a length, and the lengths of the buffers to be filled. -/
structure IoCall where
  cmd : Nat
  ins : List (Option (List UInt8))
  outs : List Nat
  deriving DecidableEq, Repr

namespace IoCall

/-- The bytes of the segments. -/
def body (c : IoCall) : List UInt8 := (c.ins.map (·.getD [])).flatten

/-- The sum of the lengths of the segments. -/
def totalBodyLength (c : IoCall) : Nat := (c.ins.map fun s => (s.getD []).length).sum

/-- `INIT_REQUEST_FRAME`. -/
def header (c : IoCall) : List UInt8 :=
  object Layout.sb_request_frame
    [("fr_envelope", object Layout.sb_frame
      [("fr_magic", bytes 4 SB_FRAME_MAGIC), ("fr_size", bytes 4 c.totalBodyLength)]),
      ("fr_cmd", bytes 4 c.cmd)]

/-- The segments that are sent: the header takes the place of a null pointer in front, or a
copy of the array has it in front. -/
def iov (c : IoCall) : List (List UInt8) :=
  match c.ins with
  | none :: ins => c.header :: ins.map (·.getD [])
  | ins => c.header :: ins.map (·.getD [])

/-- `total_body_length + sizeof(f)`. -/
def totalLength (c : IoCall) : Nat := c.totalBodyLength + sizeof_sb_request_frame

/-- `sendAndReceive`: one segment and at most one buffer, which is the same memory. -/
def sendAndReceive (cmd : Nat) (input : List UInt8) (outputlen : Nat) : IoCall where
  cmd := cmd
  ins := [none, some input]
  outs := if 0 < outputlen then [outputlen] else []

end IoCall

/-- What a call returned: whether it succeeded, the return code if it was stored, and what
the buffers got. -/
structure IoResult where
  ok : Bool
  rc : Option Int32
  outs : List (List UInt8)
  deriving DecidableEq, Repr

/-! ## One pass of `recvAll` -/

/-- What a call of `recv` does: it delivers up to `n + 1` bytes of those that are there, and
waits while there are none. -/
inductive RecvReply where
  | delivers (n : Nat)
  | interrupted
  /-- An error, or the end of the stream. -/
  | failed
  deriving DecidableEq, Repr

/-- Where `recvAll` is behind a call of `recv`. -/
inductive RecvState where
  | more (got : List UInt8)
  | all (got : List UInt8)
  | error
  deriving DecidableEq, Repr

/-- One pass of the loop of `recvAll`, which wants `len` bytes and has `got`. -/
def recvAll (len : Nat) (got : List UInt8) (r : RecvReply) (down : List UInt8) :
    RecvState × List UInt8 :=
  match r with
  | .failed => (.error, down)
  | .interrupted => (if got.length < len then .more got else .all got, down)
  | .delivers n =>
      let rc := min (min (n + 1) maxCount) (min (len - got.length) down.length)
      if len - got.length = 0 then (.error, down)
      else
        let got' := got ++ down.take rc
        (if got'.length < len then .more got' else .all got', down.drop rc)

/-! ## A call in progress -/

/-- The loop over the buffers: those that are filled, the one that is being filled with
`cur` bytes, `rest` in front of it, and the lengths of those that follow. -/
structure BodyRead where
  filled : List (List UInt8)
  got : List UInt8
  cur : Nat
  rest : Nat
  outs : List Nat
  deriving DecidableEq, Repr

/-- Where `sendAndReceiveV` is. -/
inductive Client where
  | idle
  | sending (c : IoCall) (h : Hdr UInt8)
  | header (c : IoCall) (got : List UInt8)
  | body (c : IoCall) (retval : Int32) (b : BodyRead)
  deriving DecidableEq

namespace Client

variable (abi : SizeType)

/-- The head of the loop over the buffers. -/
def nextBuffer (c : IoCall) (retval : Int32) (filled : List (List UInt8)) (rest : Nat) :
    List Nat → Client × Option IoResult
  | [] => (.idle, some ⟨true, some retval, filled⟩)
  | len :: outs =>
      if 0 < rest then
        (.body c retval { filled := filled, got := [], cur := if len < rest then len else rest
                          rest := rest, outs := outs }, none)
      else (.idle, some ⟨true, some retval, filled ++ List.replicate (outs.length + 1) []⟩)

/-- The frame envelope is there. -/
def evalHeader (c : IoCall) (f : List UInt8) : Client × Option IoResult :=
  if frMagic f ≠ SB_FRAME_MAGIC then (.idle, some ⟨false, none, List.replicate c.outs.length []⟩)
  else
    nextBuffer c (readInt32 (member Layout.sb_response_frame "fr_returncode" f)) []
      (abi.ofInt (frSize f)) c.outs

/-- A call of `sendmsg` in `sendiov`: what it sends, and where the call is then. -/
def send (r : Device.Reply) : Client → (Client × Option IoResult) × List UInt8
  | .sending c h =>
      match r with
      | .failed => ((.idle, some ⟨false, none, List.replicate c.outs.length []⟩), [])
      | _ =>
          let h' := next c.totalLength h r
          let client := if h'.sent.length < c.totalLength then sending c h' else header c []
          ((client, none), h.window.flatten.take (h.count r.count))
  | client => ((client, none), [])

/-- A call of `recv` in `recvAll`. -/
def recv (r : RecvReply) (down : List UInt8) : Client → (Client × Option IoResult) × List UInt8
  | .header c got =>
      match recvAll sizeof_sb_response_frame got r down with
      | (.more got, down) => ((.header c got, none), down)
      | (.all got, down) => (evalHeader abi c got, down)
      | (.error, down) => ((.idle, some ⟨false, none, List.replicate c.outs.length []⟩), down)
  | .body c retval b =>
      match recvAll b.cur b.got r down with
      | (.more got, down) => ((.body c retval { b with got := got }, none), down)
      | (.all got, down) =>
          (nextBuffer c retval (b.filled ++ [got]) (b.rest - b.cur) b.outs, down)
      | (.error, down) =>
          ((.idle, some ⟨false, some retval, b.filled ++ b.got :: b.outs.map fun _ => []⟩), down)
  | client => ((client, none), down)

end Client

/-! ## The request -/

namespace IoCall

variable (c : IoCall)

/-- What the call sends. -/
def request : List UInt8 := c.header ++ c.body

theorem flatten_iov : c.iov.flatten = c.request := by
  unfold iov request body
  split
  · next ins hins => simp [hins]
  · rfl

theorem length_body : c.body.length = c.totalBodyLength := by
  rw [body, totalBodyLength, List.length_flatten, List.map_map]
  rfl

theorem length_header : c.header.length = sizeof_sb_request_frame := length_object ..

theorem length_request : c.request.length = c.totalLength := by
  rw [request, List.length_append, length_header, length_body, totalLength, Nat.add_comm]

/-- The calls of the library send what the dispatcher decodes. -/
theorem request_sendAndReceive (cmd : Dcmd) (input : List UInt8) (outputlen : Nat) :
    (sendAndReceive cmd.code input outputlen).request = requestFrame cmd input := by
  simp [request, header, requestFrame, sendAndReceive, body, totalBodyLength]

end IoCall

/-! ## Frames -/

/-- The two words of an envelope. -/
theorem frMagic_append (rest : List UInt8) :
    frMagic (bytes 4 SB_FRAME_MAGIC ++ rest) = SB_FRAME_MAGIC := by
  rw [frMagic_eq, readNat_bytes]
  rfl

theorem frSize_append {magic : List UInt8} (hmagic : magic.length = 4) {n : Nat} (h : n < 2 ^ 31)
    (rest : List UInt8) : frSize (magic ++ (bytes 4 n ++ rest)) = n := by
  rw [frSize_eq, List.drop_left' hmagic, readInt32_bytes, Int32.toInt_ofNat_of_lt h]

/-- The four words of a request frame. -/
theorem object_sb_request_frame {magic size cmd : List UInt8} (hmagic : magic.length = 4)
    (hsize : size.length = 4) (hcmd : cmd.length = 4) :
    object Layout.sb_request_frame
      [("fr_envelope", object Layout.sb_frame [("fr_magic", magic), ("fr_size", size)]),
        ("fr_cmd", cmd)] = magic ++ (size ++ (cmd ++ List.replicate 4 0)) := by
  have hobject : ∀ envelope, object Layout.sb_request_frame
      [("fr_envelope", envelope), ("fr_cmd", cmd)] =
        store 8 envelope ++ (store 4 cmd ++ (store 4 [] ++ [])) := fun _ => rfl
  have hstore : store 8 (magic ++ size) = magic ++ size :=
    store_of_length (by rw [List.length_append, hmagic, hsize])
  rw [hobject, object_sb_frame hmagic hsize, hstore, store_of_length hcmd, store_nil,
    List.append_nil, List.append_assoc]

theorem IoCall.header_eq (c : IoCall) : c.header = bytes 4 SB_FRAME_MAGIC ++
    (bytes 4 c.totalBodyLength ++ (bytes 4 c.cmd ++ List.replicate 4 0)) :=
  object_sb_request_frame (length_bytes ..) (length_bytes ..) (length_bytes ..)

theorem IoCall.frMagic_request (c : IoCall) : frMagic c.request = SB_FRAME_MAGIC := by
  rw [request, header_eq, List.append_assoc]
  exact frMagic_append _

theorem IoCall.frSize_request {c : IoCall} (h : c.totalBodyLength < 2 ^ 31) :
    frSize c.request = c.totalBodyLength := by
  rw [request, header_eq, List.append_assoc, List.append_assoc]
  exact frSize_append (length_bytes ..) h _

/-- A call whose segments have fewer than 2^31 bytes sends a frame. -/
def IoCall.requestFrame (c : IoCall) (h : c.totalBodyLength < 2 ^ 31) : Incoming.Frame where
  bytes := c.request
  magic := c.frMagic_request
  length := by
    rw [c.length_request, totalLength, frSize_request h]
    rfl
  nonneg := by
    rw [frSize_request h]
    exact Int.natCast_nonneg _

namespace SBResponse

variable (a : SBResponse)

theorem header_eq : a.header = bytes 4 SB_FRAME_MAGIC ++
    (int32Bytes (.ofNat a.body.length) ++ (int32Bytes a.retval ++ List.replicate 4 0)) :=
  initResponseFrame_eq ..

theorem length_header : a.header.length = sizeof_sb_response_frame := length_initResponseFrame ..

theorem frMagic_header : frMagic a.header = SB_FRAME_MAGIC := by
  rw [header_eq]
  exact frMagic_append _

theorem frSize_header (h : a.body.length < 2 ^ 31) : frSize a.header = a.body.length := by
  rw [header_eq, frSize_eq, List.drop_left' (length_bytes ..), readInt32_int32Bytes,
    Int32.toInt_ofNat_of_lt h]

theorem retval_header :
    readInt32 (member Layout.sb_response_frame "fr_returncode" a.header) = a.retval := by
  have hoffset : ∀ mem, member Layout.sb_response_frame "fr_returncode" mem = mem.drop 8 :=
    fun _ => rfl
  have hfront : (bytes 4 SB_FRAME_MAGIC ++ int32Bytes (.ofNat a.body.length)).length = 8 := by
    rw [List.length_append, length_bytes, length_int32Bytes]
  rw [hoffset, header_eq, ← List.append_assoc, List.drop_left' hfront, readInt32_int32Bytes]

end SBResponse

/-! ## Spreading a body over buffers -/

/-- The body has room in the buffers, none of which is empty in front of its end. -/
def IoCall.Fits : List Nat → Nat → Prop
  | _, 0 => True
  | [], _ + 1 => False
  | len :: outs, n + 1 => 0 < len ∧ Fits outs (n + 1 - len)

instance : (outs : List Nat) → (n : Nat) → Decidable (IoCall.Fits outs n)
  | _, 0 => by unfold IoCall.Fits; infer_instance
  | [], _ + 1 => inferInstanceAs (Decidable False)
  | len :: outs, n + 1 =>
      @instDecidableAnd _ _ (inferInstance : Decidable (0 < len))
        (instDecidableFits outs (n + 1 - len))

/-- The body cut into the buffers. -/
def IoCall.spread : List Nat → List UInt8 → List (List UInt8)
  | [], _ => []
  | len :: outs, body => body.take len :: spread outs (body.drop len)

/-- What a call returns that is answered with `a`. -/
def IoCall.result (c : IoCall) (a : SBResponse) : IoResult :=
  ⟨true, some a.retval, spread c.outs a.body⟩

theorem IoCall.spread_nil (outs : List Nat) : spread outs [] = List.replicate outs.length [] := by
  induction outs with
  | nil => rfl
  | cons len outs ih => rw [spread, List.take_nil, List.drop_nil, ih]; rfl

/-! ## Receiving an answer -/

namespace Client

open IoCall

variable (abi : SizeType) {c : IoCall} {a : SBResponse} {client : Client} {outs : List Nat}
  {consumed down body got : List UInt8} {filled : List (List UInt8)}

/-- The call has consumed part of the frame of the answer, and waits for the rest of it. -/
inductive Awaits (c : IoCall) (a : SBResponse) : List UInt8 → Client → Prop where
  | header {got : List UInt8} (hgot : got.length < sizeof_sb_response_frame) :
      Awaits c a got (.header c got)
  | body {filled : List (List UInt8)} {got body : List UInt8} {cur : Nat} {outs : List Nat}
      (hbody : a.body = filled.flatten ++ body) (hgot : got.length < cur)
      (hcur : cur ≤ body.length)
      (hspread : spread c.outs a.body = filled ++ body.take cur :: spread outs (body.drop cur))
      (hfits : Fits outs (body.length - cur)) :
      Awaits c a (a.header ++ (filled.flatten ++ got))
        (.body c a.retval ⟨filled, got, cur, body.length, outs⟩)

/-- A call of `recv` that does not fail takes the bytes in front, and no more than are wanted. -/
theorem recvAll_eq {len : Nat} (hgot : got.length < len) {r : RecvReply} (hr : r ≠ .failed)
    (down : List UInt8) : ∃ k, (got ++ down.take k).length ≤ len ∧ recvAll len got r down =
      (if (got ++ down.take k).length < len then .more (got ++ down.take k)
        else .all (got ++ down.take k), down.drop k) := by
  cases r with
  | failed => exact absurd rfl hr
  | interrupted =>
      refine ⟨0, ?_, ?_⟩
      · rw [List.take_zero, List.append_nil]
        exact Nat.le_of_lt hgot
      · rw [recvAll, List.take_zero, List.append_nil, List.drop_zero]
  | delivers n =>
      refine ⟨min (min (n + 1) maxCount) (min (len - got.length) down.length), ?_, ?_⟩
      · rw [List.length_append, List.length_take]
        omega
      · rw [recvAll]
        exact if_neg (by omega)

/-- The head of the loop over the buffers: there is nothing left, or a buffer for it. -/
theorem nextBuffer_awaits (filled : List (List UInt8)) (body : List UInt8)
    (hbody : a.body = filled.flatten ++ body)
    (hspread : spread c.outs a.body = filled ++ spread outs body)
    (hfits : Fits outs body.length) :
    (nextBuffer c a.retval filled body.length outs).2 = none ∧
        Awaits c a (a.header ++ filled.flatten)
          (nextBuffer c a.retval filled body.length outs).1 ∨
      a.header ++ filled.flatten = a.frame ∧
        nextBuffer c a.retval filled body.length outs = (.idle, some (c.result a)) := by
  by_cases hpos : 0 < body.length
  · cases outs with
    | nil =>
        obtain ⟨n, hn⟩ := Nat.exists_eq_add_of_lt hpos
        rw [hn] at hfits
        exact hfits.elim
    | cons len outs =>
        obtain ⟨n, hn⟩ := Nat.exists_eq_add_of_lt hpos
        rw [hn, Nat.zero_add] at hfits
        obtain ⟨hlen, hfits⟩ := hfits
        have hcur : (if len < body.length then len else body.length) = min len body.length := by
          split <;> omega
        have htake : body.take (min len body.length) = body.take len :=
          List.take_eq_take_min.symm
        have hdrop : body.drop (min len body.length) = body.drop len := by
          rcases Nat.le_total len body.length with hle | hle
          · rw [Nat.min_eq_left hle]
          · rw [Nat.min_eq_right hle, List.drop_length, List.drop_eq_nil_of_le hle]
        have hrest : body.length - min len body.length = n + 1 - len := by omega
        have hawaits : Awaits c a (a.header ++ (filled.flatten ++ []))
            (.body c a.retval ⟨filled, [], min len body.length, body.length, outs⟩) :=
          .body hbody (by rw [List.length_nil]; omega) (Nat.min_le_right ..)
            (by rw [htake, hdrop]; exact hspread) (by rw [hrest]; exact hfits)
        rw [List.append_nil] at hawaits
        rw [nextBuffer, if_pos hpos, hcur]
        exact Or.inl ⟨rfl, hawaits⟩
  · obtain rfl : body = [] := List.length_eq_zero_iff.mp (Nat.eq_zero_of_not_pos hpos)
    rw [List.append_nil] at hbody
    rw [spread_nil] at hspread
    refine Or.inr ⟨by rw [← hbody]; rfl, ?_⟩
    cases outs with
    | nil =>
        rw [List.length_nil, List.replicate_zero, List.append_nil] at hspread
        rw [nextBuffer, result, hspread]
    | cons len outs =>
        rw [nextBuffer, if_neg hpos, result, hspread]
        rfl

/-- The envelope of an answer is accepted. -/
theorem evalHeader_header (hlen : a.body.length < 2 ^ 31) :
    evalHeader abi c a.header = nextBuffer c a.retval [] a.body.length c.outs := by
  have hsize : abi.ofInt (frSize a.header) = a.body.length := by
    rw [a.frSize_header hlen,
      abi.ofInt_of_nonneg (Int.natCast_nonneg _) (by omega), Int.toNat_natCast]
  have hretval : readInt32 (member Layout.sb_response_frame "fr_returncode" a.header) =
      a.retval := a.retval_header
  rw [evalHeader, if_neg (not_not.mpr a.frMagic_header), hsize, hretval]

/-- While all that is on the way is the frame of the answer, a call of `recv` brings the call
on, or it returns with the answer and nothing of the frame is left. -/
theorem recv_awaits (hlen : a.body.length < 2 ^ 31) (hfits : Fits c.outs a.body.length)
    (h : Awaits c a consumed client) (hpre : consumed ++ down <+: a.frame) {r : RecvReply}
    (hr : r ≠ .failed) :
    ∃ consumed', consumed' ++ (client.recv abi r down).2 = consumed ++ down ∧
      ((client.recv abi r down).1.2 = none ∧ Awaits c a consumed' (client.recv abi r down).1.1 ∨
        consumed' = a.frame ∧ (client.recv abi r down).1 = (.idle, some (c.result a))) := by
  cases h with
  | header hgot =>
      obtain ⟨k, hk, hrecv⟩ := recvAll_eq hgot hr down
      have hall : (consumed ++ down.take k) ++ down.drop k = consumed ++ down := by
        rw [List.append_assoc, List.take_append_drop]
      by_cases hmore : (consumed ++ down.take k).length < sizeof_sb_response_frame
      · rw [if_pos hmore] at hrecv
        rw [recv, hrecv]
        exact ⟨_, hall, Or.inl ⟨rfl, .header hmore⟩⟩
      · -- these are the bytes of the header
        have hheader : consumed ++ down.take k = a.header := by
          obtain ⟨rest, hrest⟩ := hpre
          rw [← hall, List.append_assoc] at hrest
          exact (List.append_inj hrest (by rw [a.length_header]; omega)).1
        rw [if_neg hmore, hheader] at hrecv
        rw [recv, hrecv]
        dsimp only
        rw [evalHeader_header abi hlen]
        refine ⟨a.header, by rw [← hheader]; exact hall, ?_⟩
        have hnext := @nextBuffer_awaits c a c.outs [] a.body rfl rfl hfits
        rwa [List.flatten_nil, List.append_nil] at hnext
  | body hbody hgot hcur hspread hfits =>
      rename_i filled got body cur outs
      obtain ⟨k, hk, hrecv⟩ := recvAll_eq hgot hr down
      have hall : (a.header ++ (filled.flatten ++ (got ++ down.take k))) ++ down.drop k =
          a.header ++ (filled.flatten ++ got) ++ down := by
        simp only [List.append_assoc, List.take_append_drop]
      by_cases hmore : (got ++ down.take k).length < cur
      · rw [if_pos hmore] at hrecv
        rw [recv, hrecv]
        exact ⟨_, hall, Or.inl ⟨rfl, .body hbody hmore hcur hspread hfits⟩⟩
      · -- these are the next bytes of the body
        have hnext : got ++ down.take k = body.take cur := by
          obtain ⟨rest, hrest⟩ := hpre
          have hframe : a.frame = a.header ++ (filled.flatten ++ body) := by
            rw [← hbody]
            rfl
          rw [← hall, hframe, List.append_assoc, List.append_assoc, List.append_cancel_left_eq,
            List.append_assoc, List.append_cancel_left_eq] at hrest
          have htake := congrArg (List.take cur) hrest
          rwa [List.take_left' (by omega)] at htake
        rw [if_neg hmore, hnext] at hrecv
        rw [recv, hrecv]
        dsimp only
        rw [hnext] at hall
        refine ⟨_, hall, ?_⟩
        have hflatten : (filled ++ [body.take cur]).flatten = filled.flatten ++ body.take cur := by
          rw [List.flatten_append, List.flatten_singleton]
        have hnext := nextBuffer_awaits (c := c) (a := a) (filled ++ [body.take cur])
          (body.drop cur) (by rw [hflatten, List.append_assoc, List.take_append_drop]; exact hbody)
          (by rw [List.append_assoc]; exact hspread) (by rw [List.length_drop]; exact hfits)
        rwa [List.length_drop, hflatten] at hnext

end Client

end Dsi
