import Dsi.Lib.Memory
import Dsi.Broker.FrameReader
import Dsi.Broker.RequestFormat

/-!
# Dsi.Broker.Responses

The response frame that a request leaves in the write buffer of its connection: the
default of `ServicebrokerClientBase::eval`, what the handler writes and prepares through
`SocketMessageContext`, and `sendDeferredResponse` for a request that was kept.
-/

namespace Dsi

open CLayout LittleEndian

namespace Layout

def sb_response_frame : Members :=
  [("fr_envelope", .struct sb_frame), ("fr_returncode", int32), ("fr_padding", int32)]

end Layout

/-- `sizeof(sb_response_frame_t)`. -/
def sizeof_sb_response_frame : Nat := (CType.struct Layout.sb_response_frame).size

/-- The header of a response has 16 bytes. -/
@[simp] theorem sizeof_sb_response_frame_eq : sizeof_sb_response_frame = 16 := by decide

/-- `INIT_RESPONSE_FRAME`. -/
def initResponseFrame (size retval : Int32) : List UInt8 :=
  object Layout.sb_response_frame
    [("fr_envelope", object Layout.sb_frame
      [("fr_magic", bytes 4 SB_FRAME_MAGIC), ("fr_size", int32Bytes size)]),
      ("fr_returncode", int32Bytes retval)]

namespace AutoBuffer

/-- `memcpy(buf_ + offset, bs, len)`. -/
def put (offset : Nat) (bs : List UInt8) (b : AutoBuffer) : AutoBuffer :=
  match b.block with
  | none => { b with internal_ := Memory.put offset bs b.internal_ }
  | some mem => { b with block := some (Memory.put offset bs mem) }

/-- `write`; a new block of `len` bytes holds `fresh len`. -/
def write (fresh : Nat → Nat → UInt8) (bs : List UInt8) (offset : Nat) (b : AutoBuffer) :
    AutoBuffer :=
  (b.reserve (fresh (bs.length + offset)) (bs.length + offset)).put offset bs

/-- `set`. -/
def set (off : Nat) (b : AutoBuffer) : AutoBuffer := { b with ptr_ := off }

/-- `response()`. -/
def response (b : AutoBuffer) : List UInt8 := b.bytes sizeof_sb_response_frame

end AutoBuffer

/-! ## The context of a request -/

/-- `SocketMessageContext`, of which the response needs the write buffer and the offset. -/
structure SocketMessageContext where
  mWriteBuffer : AutoBuffer
  mPutOffset : Nat := 0

namespace SocketMessageContext

variable (fresh : Nat → Nat → UInt8)

def writeAncillaryData (buf : List UInt8) (c : SocketMessageContext) : SocketMessageContext where
  mWriteBuffer := c.mWriteBuffer.write fresh buf (c.mPutOffset + sizeof_sb_response_frame)
  mPutOffset := c.mPutOffset + buf.length

/-- `fr_size` and `fr_returncode` of the response are assigned. -/
def assign (size retval : Int32) (b : AutoBuffer) : AutoBuffer :=
  (b.put (offsetof Layout.sb_frame "fr_size") (int32Bytes size)).put
    (offsetof Layout.sb_response_frame "fr_returncode") (int32Bytes retval)

/-- `prepareResponse(retval, force)`. -/
def prepareResponse (retval : Int32) (c : SocketMessageContext) : SocketMessageContext :=
  let size := if 0 < c.mPutOffset ∧ retval.toInt ≤ 0 then c.mPutOffset else 0
  { c with mWriteBuffer := assign (.ofNat size) retval c.mWriteBuffer }

/-- `prepareResponse(retval, data, len)`. -/
def prepareResponseData (retval : Int32) (data : List UInt8) (c : SocketMessageContext) :
    SocketMessageContext :=
  let size := if 0 < c.mPutOffset ∧ retval.toInt = 0 then c.mPutOffset else data.length
  { c with mWriteBuffer :=
      (assign (.ofNat size) retval c.mWriteBuffer).write fresh data sizeof_sb_response_frame }

end SocketMessageContext

/-- How a handler ends: it keeps the context, or prepares a response with or without data. -/
inductive Prepared where
  | deferResponse
  | retval (retval : Int32)
  | data (retval : Int32) (data : List UInt8)
  deriving DecidableEq, Repr

/-- What a handler does to its context: ancillary data first. -/
structure Handling where
  ancillary : List (List UInt8) := []
  prepared : Prepared
  deriving DecidableEq, Repr

namespace AutoBuffer

variable (fresh : Nat → Nat → UInt8)

/-- The context of a request in front of its response: `INIT_RESPONSE_FRAME` with
`FNDUnknownCommand`, and the ancillary data. -/
def context (h : Handling) (b : AutoBuffer) : SocketMessageContext :=
  h.ancillary.foldl (fun c buf => c.writeAncillaryData fresh buf)
    { mWriteBuffer := b.put 0 (initResponseFrame 0 (.ofInt SBStatus.FNDUnknownCommand.toInt)) }

/-- The write buffer behind the dispatcher. -/
def respond (h : Handling) (b : AutoBuffer) : AutoBuffer :=
  match h.prepared with
  | .deferResponse => (b.context fresh h).mWriteBuffer
  | .retval retval => ((b.context fresh h).prepareResponse retval).mWriteBuffer
  | .data retval data => ((b.context fresh h).prepareResponseData fresh retval data).mWriteBuffer

/-- `sendDeferredResponse`, up to the socket. -/
def respondDeferred (status retval : Int32) (data : List UInt8) (b : AutoBuffer) : AutoBuffer :=
  if status.toInt ≠ 0 then
    b.put 0 (initResponseFrame 0 (.ofInt SBStatus.FNDInternalError.toInt))
  else if retval.toInt ≤ 0 then
    (b.write fresh data sizeof_sb_response_frame).put 0
      (initResponseFrame (.ofNat data.length) retval)
  else b.put 0 (initResponseFrame 0 retval)

end AutoBuffer

/-! ## What a client is to be told -/

/-- A return code and the body of a response. -/
structure SBResponse where
  retval : Int32
  body : List UInt8
  deriving DecidableEq, Repr

namespace SBResponse

/-- The header of a response. -/
def header (a : SBResponse) : List UInt8 := initResponseFrame (.ofNat a.body.length) a.retval

/-- The frame of a response. -/
def frame (a : SBResponse) : List UInt8 := a.header ++ a.body

end SBResponse

/-- The answer of a handler.  Ancillary data is sent with a code that is no error, and data
that is prepared besides is written over its front. -/
def Handling.answered (h : Handling) : Option SBResponse :=
  match h.prepared with
  | .deferResponse => none
  | .retval retval => some ⟨retval, if retval.toInt ≤ 0 then h.ancillary.flatten else []⟩
  | .data retval data =>
      some ⟨retval, if 0 < h.ancillary.flatten.length ∧ retval.toInt = 0 then
        (data ++ h.ancillary.flatten.drop data.length).take h.ancillary.flatten.length else data⟩

/-- The answer of a request that was kept. -/
def answeredDeferred (status retval : Int32) (data : List UInt8) : SBResponse :=
  if status.toInt ≠ 0 then ⟨.ofInt SBStatus.FNDInternalError.toInt, []⟩
  else if retval.toInt ≤ 0 then ⟨retval, data⟩
  else ⟨retval, []⟩

/-! ## Memory of a buffer -/

namespace AutoBuffer

variable {b : AutoBuffer} {offset o n : Nat} {bs : List UInt8}

/-- The bytes that are used are the front of the memory. -/
theorem bytes_eq_slice (b : AutoBuffer) (n : Nat) : b.bytes n = Memory.slice b.buf_ 0 n := by
  simp [bytes, Memory.slice]

@[simp] theorem buf_put (offset : Nat) (bs : List UInt8) (b : AutoBuffer) :
    (b.put offset bs).buf_ = Memory.put offset bs b.buf_ := by
  cases hb : b.block <;> simp [put, buf_, hb]

@[simp] theorem capa_put (offset : Nat) (bs : List UInt8) (b : AutoBuffer) :
    (b.put offset bs).capa_ = b.capa_ := by
  cases hb : b.block <;> simp [put, hb]

@[simp] theorem ptr_put (offset : Nat) (bs : List UInt8) (b : AutoBuffer) :
    (b.put offset bs).ptr_ = b.ptr_ := by
  cases hb : b.block <;> simp [put, hb]

/-- A block that is allocated holds what the buffer held. -/
theorem slice_reserve (fresh : Nat → UInt8) (len : Nat) (h : o + n ≤ b.capa_) :
    Memory.slice (b.reserve fresh len).buf_ o n = Memory.slice b.buf_ o n := by
  refine Memory.slice_congr fun i _ hi => ?_
  rw [reserve]
  split
  · split
    · exact if_pos (by omega)
    · rfl
  · rfl

/-- There is room behind `reserve`. -/
theorem le_capa_reserve_self (h : tAutoBufferType.Size ≤ b.capa_) (fresh : Nat → UInt8)
    (len : Nat) : len ≤ (b.reserve fresh len).capa_ := by
  rw [reserve]
  split
  · have hsize : tAutoBufferType.Size < len := by omega
    simp [hsize]
  · omega

variable (fresh : Nat → Nat → UInt8)

@[simp] theorem ptr_write (bs : List UInt8) (offset : Nat) (b : AutoBuffer) :
    (b.write fresh bs offset).ptr_ = b.ptr_ := by
  rw [write, ptr_put, ptr_reserve]

/-- A buffer that is written to never shrinks. -/
theorem le_capa_write (bs : List UInt8) (offset : Nat) (b : AutoBuffer) :
    b.capa_ ≤ (b.write fresh bs offset).capa_ := by
  rw [write, capa_put]
  exact le_capa_reserve _ _ b

/-- And has room for what is written. -/
theorem le_capa_write_self (h : tAutoBufferType.Size ≤ b.capa_) (bs : List UInt8) (offset : Nat) :
    offset + bs.length ≤ (b.write fresh bs offset).capa_ := by
  rw [write, capa_put, Nat.add_comm]
  exact le_capa_reserve_self h _ _

/-- What is written is there. -/
theorem slice_write (bs : List UInt8) (offset : Nat) (b : AutoBuffer) :
    Memory.slice (b.write fresh bs offset).buf_ offset bs.length = bs := by
  rw [write, buf_put]
  exact Memory.slice_put ..

/-- What is in front of it stays. -/
theorem slice_write_before (bs : List UInt8) (h : o + n ≤ offset) (hcapa : o + n ≤ b.capa_) :
    Memory.slice (b.write fresh bs offset).buf_ o n = Memory.slice b.buf_ o n := by
  rw [write, buf_put, Memory.slice_put_before bs _ h, slice_reserve _ _ hcapa]

end AutoBuffer

/-! ## The frame in the buffer -/

theorem length_int32Bytes (x : Int32) : (int32Bytes x).length = 4 := length_bytes 4 _

/-- The two words of an envelope. -/
theorem object_sb_frame {magic size : List UInt8} (hmagic : magic.length = 4)
    (hsize : size.length = 4) :
    object Layout.sb_frame [("fr_magic", magic), ("fr_size", size)] = magic ++ size := by
  have hobject : object Layout.sb_frame [("fr_magic", magic), ("fr_size", size)] =
      store 4 magic ++ (store 4 size ++ []) := rfl
  rw [hobject, store_of_length hmagic, store_of_length hsize, List.append_nil]

/-- The four words of a response frame. -/
theorem object_sb_response_frame {magic size retval : List UInt8} (hmagic : magic.length = 4)
    (hsize : size.length = 4) (hretval : retval.length = 4) :
    object Layout.sb_response_frame
      [("fr_envelope", object Layout.sb_frame [("fr_magic", magic), ("fr_size", size)]),
        ("fr_returncode", retval)] =
      magic ++ (size ++ (retval ++ List.replicate 4 0)) := by
  have hobject : ∀ envelope, object Layout.sb_response_frame
      [("fr_envelope", envelope), ("fr_returncode", retval)] =
        store 8 envelope ++ (store 4 retval ++ (store 4 [] ++ [])) := fun _ => rfl
  have hstore : store 8 (magic ++ size) = magic ++ size :=
    store_of_length (by rw [List.length_append, hmagic, hsize])
  rw [hobject, object_sb_frame hmagic hsize, hstore, store_of_length hretval, store_nil,
    List.append_nil, List.append_assoc]

/-- A response starts with the magic, its size and its return code. -/
theorem initResponseFrame_eq (size retval : Int32) :
    initResponseFrame size retval =
      bytes 4 SB_FRAME_MAGIC ++ (int32Bytes size ++ (int32Bytes retval ++ List.replicate 4 0)) :=
  object_sb_response_frame (length_bytes ..) (length_int32Bytes size) (length_int32Bytes retval)

theorem length_initResponseFrame (size retval : Int32) :
    (initResponseFrame size retval).length = sizeof_sb_response_frame := length_object ..

namespace AutoBuffer

/-- The buffer holds a header and a body behind it, and has room for both. -/
structure Composed (header body : List UInt8) (b : AutoBuffer) : Prop where
  header_eq : Memory.slice b.buf_ 0 sizeof_sb_response_frame = header
  body_eq : Memory.slice b.buf_ sizeof_sb_response_frame body.length = body
  room : sizeof_sb_response_frame + body.length ≤ b.capa_
  size : tAutoBufferType.Size ≤ b.capa_

variable {b : AutoBuffer} {header body bs : List UInt8} {size retval : Int32}

/-- A response that is composed has room for its header. -/
theorem Composed.le (h : Composed header body b) : sizeof_sb_response_frame ≤ b.capa_ :=
  Nat.le_trans (Nat.le_add_right ..) h.room

/-- The buffer starts with the whole frame. -/
theorem Composed.bytes_eq (h : Composed header body b) :
    b.bytes (sizeof_sb_response_frame + body.length) = header ++ body := by
  rw [bytes_eq_slice, Memory.slice_add, Nat.zero_add, h.header_eq, h.body_eq]

/-- A header is stored in front. -/
theorem composed_init (h : Composed header body b) (size retval : Int32) :
    Composed (initResponseFrame size retval) body (b.put 0 (initResponseFrame size retval)) where
  header_eq := by
    rw [buf_put, ← length_initResponseFrame size retval]
    exact Memory.slice_put ..
  body_eq := by
    have hbehind : 0 + (initResponseFrame size retval).length ≤ sizeof_sb_response_frame :=
      Nat.le_of_eq (by rw [length_initResponseFrame, Nat.zero_add])
    rw [buf_put, Memory.slice_put_behind _ hbehind, h.body_eq]
  room := by
    rw [capa_put]
    exact h.room
  size := by
    rw [capa_put]
    exact h.size

/-- A buffer with nothing in it yet. -/
theorem composed_nil (h : tAutoBufferType.Size ≤ b.capa_) :
    Composed (Memory.slice b.buf_ 0 sizeof_sb_response_frame) [] b where
  header_eq := rfl
  body_eq := rfl
  room := Nat.le_trans (by decide) h
  size := h

/-- The assignment of the two words in the middle of a header. -/
theorem Composed.assign (h : Composed (initResponseFrame size retval) body b)
    (size' retval' : Int32) : Composed (initResponseFrame size' retval') body
      (SocketMessageContext.assign size' retval' b) := by
  have hsize : offsetof Layout.sb_frame "fr_size" = 4 := by decide
  have hretval : offsetof Layout.sb_response_frame "fr_returncode" = 8 := by decide
  have hsplit : ∀ mem : Nat → UInt8, Memory.slice mem 0 sizeof_sb_response_frame =
      Memory.slice mem 0 4 ++ (Memory.slice mem 4 4 ++ (Memory.slice mem 8 4 ++
        Memory.slice mem 12 4)) := by
    intro mem
    rw [sizeof_sb_response_frame_eq, ← Memory.slice_add mem 8 4 4, ← Memory.slice_add mem 4 4 8]
    exact Memory.slice_add mem 0 4 12
  have hheader := h.header_eq
  rw [hsplit, initResponseFrame_eq] at hheader
  obtain ⟨hmagic, hrest⟩ := List.append_inj hheader (by simp)
  obtain ⟨-, hrest⟩ := List.append_inj hrest (by simp [length_int32Bytes])
  obtain ⟨-, hpadding⟩ := List.append_inj hrest (by simp [length_int32Bytes])
  have hlen := length_int32Bytes
  refine ⟨?_, ?_, ?_, ?_⟩
  · rw [hsplit, initResponseFrame_eq]
    simp only [SocketMessageContext.assign, buf_put, hsize, hretval]
    refine congrArg₂ _ ?_ (congrArg₂ _ ?_ (congrArg₂ _ ?_ ?_))
    · rw [Memory.slice_put_before _ _ (by decide), Memory.slice_put_before _ _ (by decide), hmagic]
    · rw [Memory.slice_put_before _ _ (by decide)]
      simpa only [hlen] using Memory.slice_put 4 (int32Bytes size') b.buf_
    · simpa only [hlen] using Memory.slice_put 8 (int32Bytes retval') _
    · rw [Memory.slice_put_behind _ (by simp [hlen]), Memory.slice_put_behind _ (by simp [hlen]),
        hpadding]
  · simp only [SocketMessageContext.assign, buf_put, hsize, hretval]
    rw [Memory.slice_put_behind _ (by simp [hlen]), Memory.slice_put_behind _ (by simp [hlen]),
      h.body_eq]
  · simpa only [SocketMessageContext.assign, capa_put] using h.room
  · simpa only [SocketMessageContext.assign, capa_put] using h.size

variable (fresh : Nat → Nat → UInt8)

/-- More is written behind the body. -/
theorem Composed.append (h : Composed header body b) (bs : List UInt8) :
    Composed header (body ++ bs)
      (b.write fresh bs (body.length + sizeof_sb_response_frame)) where
  header_eq := by
    rw [slice_write_before fresh bs (by simp) (by simpa using h.le), h.header_eq]
  body_eq := by
    have hbody : sizeof_sb_response_frame + body.length =
        body.length + sizeof_sb_response_frame := Nat.add_comm ..
    rw [List.length_append, Memory.slice_add,
      slice_write_before fresh bs (Nat.le_of_eq hbody) h.room, h.body_eq, hbody, slice_write]
  room := by
    have hself := le_capa_write_self fresh h.size bs (body.length + sizeof_sb_response_frame)
    rw [List.length_append]
    omega
  size := Nat.le_trans h.size (le_capa_write fresh ..)

/-- Data is written over the front of the body. -/
theorem Composed.overwrite (h : Composed header body b) (bs : List UInt8) :
    Composed header (bs ++ body.drop bs.length) (b.write fresh bs sizeof_sb_response_frame) where
  header_eq := by
    rw [slice_write_before fresh bs (by simp) (by simpa using h.le), h.header_eq]
  body_eq := by
    rw [List.length_append, Memory.slice_add, slice_write]
    congr 1
    rw [write, buf_put, Memory.slice_put_behind _ (Nat.le_refl _)]
    by_cases hle : body.length ≤ bs.length
    · rw [List.drop_eq_nil_of_le hle, List.length_nil, Memory.slice_zero]
    · have hroom := h.room
      have hbody := h.body_eq
      have hlen : body.length = bs.length + (body.length - bs.length) := by omega
      rw [slice_reserve _ _ (by rw [List.length_drop]; omega), List.length_drop]
      rw [hlen, Memory.slice_add] at hbody
      have hdrop := congrArg (List.drop bs.length) hbody
      rw [List.drop_left' (Memory.length_slice ..)] at hdrop
      exact hdrop
  room := by
    have hself := le_capa_write_self fresh h.size bs sizeof_sb_response_frame
    have hle := le_capa_write fresh bs sizeof_sb_response_frame b
    have hroom := h.room
    rw [List.length_append, List.length_drop]
    omega
  size := Nat.le_trans h.size (le_capa_write fresh ..)

/-- Only part of the body counts. -/
theorem Composed.take (h : Composed header body b) (n : Nat) : Composed header (body.take n) b where
  header_eq := h.header_eq
  body_eq := by
    have hbody := h.body_eq
    have hlen : body.length = min n body.length + (body.length - min n body.length) := by omega
    rw [hlen, Memory.slice_add] at hbody
    have htake := congrArg (List.take (min n body.length)) hbody
    rw [List.take_left' (Memory.length_slice ..)] at htake
    rw [List.length_take, htake, ← List.take_eq_take_min]
  room := by
    have hroom := h.room
    rw [List.length_take]
    omega
  size := h.size

/-! ## What the handlers leave -/

/-- The buffer holds the frame of the answer. -/
def Responds (a : SBResponse) (b : AutoBuffer) : Prop := Composed a.header a.body b

/-- What is sent of it is the frame of the answer. -/
theorem Responds.bytes_eq {a : SBResponse} (h : Responds a b) :
    b.bytes (sizeof_sb_response_frame + a.body.length) = a.frame := Composed.bytes_eq h

end AutoBuffer

open AutoBuffer

namespace SocketMessageContext

variable (fresh : Nat → Nat → UInt8) {c : SocketMessageContext} {size retval : Int32}
  {body : List UInt8}

/-- The context has a header and the ancillary data in its buffer. -/
structure Holds (size retval : Int32) (body : List UInt8) (c : SocketMessageContext) : Prop where
  composed : Composed (initResponseFrame size retval) body c.mWriteBuffer
  offset : c.mPutOffset = body.length

/-- Ancillary data goes behind the body. -/
theorem Holds.writeAncillaryData (h : Holds size retval body c) (buf : List UInt8) :
    Holds size retval (body ++ buf) (c.writeAncillaryData fresh buf) where
  composed := by
    have happend := h.composed.append fresh buf
    rw [← h.offset] at happend
    exact happend
  offset := by rw [SocketMessageContext.writeAncillaryData, h.offset, List.length_append]

/-- So does any number of pieces. -/
theorem Holds.ancillary (h : Holds size retval body c) (bufs : List (List UInt8)) :
    Holds size retval (body ++ bufs.flatten)
      (bufs.foldl (fun c buf => c.writeAncillaryData fresh buf) c) := by
  induction bufs generalizing body c with
  | nil => simpa using h
  | cons buf bufs ih =>
      have hrest := ih (h.writeAncillaryData fresh buf)
      rwa [List.append_assoc] at hrest

end SocketMessageContext

namespace AutoBuffer

variable {b : AutoBuffer} (fresh : Nat → Nat → UInt8) {a : SBResponse}

/-- Before the handler answers, the response says that the command is unknown. -/
theorem holds_context (h : Handling) (hcapa : tAutoBufferType.Size ≤ b.capa_) :
    (b.context fresh h).Holds 0 (.ofInt SBStatus.FNDUnknownCommand.toInt) h.ancillary.flatten := by
  have hinit : SocketMessageContext.Holds 0 (.ofInt SBStatus.FNDUnknownCommand.toInt) []
      { mWriteBuffer := b.put 0 (initResponseFrame 0 (.ofInt SBStatus.FNDUnknownCommand.toInt)) } :=
    ⟨composed_init (composed_nil hcapa) .., rfl⟩
  exact hinit.ancillary fresh h.ancillary

/-- A response that is prepared is the answer, with its return code and its length in front. -/
theorem responds_respond {h : Handling} (hcapa : tAutoBufferType.Size ≤ b.capa_)
    (ha : h.answered = some a) : Responds a (b.respond fresh h) := by
  obtain ⟨hcomposed, hoffset⟩ := holds_context fresh h hcapa
  rw [respond]
  cases hprepared : h.prepared with
  | deferResponse => simp [Handling.answered, hprepared] at ha
  | retval retval =>
      simp only [Handling.answered, hprepared, Option.some.injEq] at ha
      obtain rfl := ha
      simp only [SocketMessageContext.prepareResponse, hoffset, Responds, SBResponse.header]
      have hassign := hcomposed.assign
      by_cases hok : retval.toInt ≤ 0
      · have hsize : (if 0 < h.ancillary.flatten.length ∧ retval.toInt ≤ 0 then
            h.ancillary.flatten.length else 0) = h.ancillary.flatten.length := by
          split <;> omega
        rw [hsize, if_pos hok]
        exact hassign ..
      · rw [if_neg hok, if_neg fun hsize => hok hsize.2]
        exact (hassign ..).take 0
  | data retval data =>
      simp only [Handling.answered, hprepared, Option.some.injEq] at ha
      obtain rfl := ha
      simp only [SocketMessageContext.prepareResponseData, hoffset, Responds, SBResponse.header]
      by_cases hanc : 0 < h.ancillary.flatten.length ∧ retval.toInt = 0
      · have hlen : ((data ++ h.ancillary.flatten.drop data.length).take
            h.ancillary.flatten.length).length = h.ancillary.flatten.length := by
          rw [List.length_take, List.length_append, List.length_drop]
          omega
        rw [if_pos hanc, if_pos hanc, hlen]
        exact ((hcomposed.assign ..).overwrite fresh data).take _
      · rw [if_neg hanc, if_neg hanc]
        have hdata := ((hcomposed.assign (.ofNat data.length) retval).overwrite fresh
          data).take data.length
        rwa [List.take_left' rfl] at hdata

/-- The buffer of a request that is kept. -/
theorem le_capa_respond {h : Handling} (hcapa : tAutoBufferType.Size ≤ b.capa_)
    (ha : h.answered = none) : tAutoBufferType.Size ≤ (b.respond fresh h).capa_ := by
  obtain ⟨hcomposed, -⟩ := holds_context fresh h hcapa
  rw [respond]
  cases hprepared : h.prepared with
  | deferResponse => exact hcomposed.size
  | retval retval => simp [Handling.answered, hprepared] at ha
  | data retval data => simp [Handling.answered, hprepared] at ha

/-- The answer of a request that was kept. -/
theorem responds_respondDeferred (hcapa : tAutoBufferType.Size ≤ b.capa_) (status retval : Int32)
    (data : List UInt8) : Responds (answeredDeferred status retval data)
      (b.respondDeferred fresh status retval data) := by
  have hnil := composed_nil hcapa
  rw [answeredDeferred, respondDeferred]
  by_cases hstatus : status.toInt ≠ 0
  · rw [if_pos hstatus, if_pos hstatus]
    exact composed_init hnil ..
  · rw [if_neg hstatus, if_neg hstatus]
    by_cases hok : retval.toInt ≤ 0
    · rw [if_pos hok, if_pos hok]
      have hdata := hnil.append fresh data
      rw [List.length_nil, Nat.zero_add, List.nil_append] at hdata
      exact composed_init hdata ..
    · rw [if_neg hok, if_neg hok]
      exact composed_init hnil ..

end AutoBuffer

end Dsi
