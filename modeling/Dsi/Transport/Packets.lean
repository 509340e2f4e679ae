import Dsi.Message

/-!
# Dsi.Transport.Packets

Fragmentation and reassembly of DSI messages: `CRequestWriter::flush`
(`src/base/CRequestWriter.cpp`) cuts a message into packets and
`CRequestReader::receiveAll` (`src/base/CRequestReader.cpp`) puts the payloads
together again.  Sends and receives succeed completely and memory is
available, so a channel is the list of bytes that travels through it; tracing
has no effect on them and is left out.
-/

namespace Dsi

open LittleEndian

/-! ## The output buffer -/

/-- `Private::CBuffer` as `flush` sees it: the memory from `gptr()` on and the
number of bytes written.  `mem k` for `k` at or past `mSize` is whatever lies
behind the data. -/
structure CBuffer where
  mem : Nat → UInt8
  mSize : Nat

namespace CBuffer

/-- The `len` bytes from `gptr() + off` on. -/
def slice (b : CBuffer) (off len : Nat) : List UInt8 :=
  (List.range len).map fun i => b.mem (off + i)

/-- The data written to the buffer. -/
def data (b : CBuffer) : List UInt8 := b.slice 0 b.mSize

@[simp] theorem length_slice (b : CBuffer) (off len : Nat) : (b.slice off len).length = len := by
  simp [slice]

@[simp] theorem length_data (b : CBuffer) : b.data.length = b.mSize := by
  simp [data]

end CBuffer

/-! ## `CRequestWriter` -/

/-- The members of a `CRequestWriter` that `flush` uses. -/
structure CRequestWriter where
  mHeader : MessageHeader
  mInfo : EventInfo
  mBuf : CBuffer

/-- One packet: a header and the bytes sent behind it in the same scatter
write. -/
structure Packet where
  header : MessageHeader
  payload : List UInt8
  deriving DecidableEq, Repr

namespace CRequestWriter

/-- The constructor for a command between a client and a server. -/
def create (cmd : Command) (clientID serverID : SPartyID) (protoMinor : UInt16) (info : EventInfo)
    (buf : CBuffer) : CRequestWriter :=
  { mHeader :=
      { type := messageMagic, protoMajor := 4, protoMinor := protoMinor, serverID := serverID
        clientID := clientID, cmd := cmd.toUInt32, flags := 0, packetLength := 0, reserved := 0 }
    mInfo := info
    mBuf := buf }

/-- Connect and disconnect requests do not have an event info. -/
def haveEventInfo (w : CRequestWriter) : Bool :=
  w.mHeader.cmd == Command.DataRequest.toUInt32 || w.mHeader.cmd == Command.DataResponse.toUInt32

/-- `totalLength`: the buffer, and the event info if there is one. -/
def totalLength (w : CRequestWriter) : Nat :=
  w.mBuf.mSize + if w.haveEventInfo then sizeofEventInfo else 0

/-- What the message carries: the event info of a data message, then the
buffer. -/
def message (w : CRequestWriter) : List UInt8 :=
  (if w.haveEventInfo then w.mInfo.encode else []) ++ w.mBuf.data

/-- The length and the flag that `flush` writes into the header before a packet
when `rest` bytes are still to be sent. -/
def setPacket (h : MessageHeader) (rest : Nat) : MessageHeader :=
  if rest > payloadSize then
    { h with packetLength := .ofNat payloadSize, flags := h.flags ||| moreDataFlag }
  else
    { h with packetLength := .ofNat rest, flags := h.flags &&& ~~~moreDataFlag }

/-- The loop that sends the remaining data: `dataSent` is an offset into the
buffer, `totalLength` counts the event info too. -/
def continuation (w : CRequestWriter) (h : MessageHeader) (dataSent : Nat) : List Packet :=
  if dataSent < w.totalLength then
    let h' := setPacket h (w.totalLength - dataSent)
    ⟨h', w.mBuf.slice dataSent h'.packetLength.toNat⟩ ::
      continuation w h' (dataSent + payloadSize)
  else
    []
termination_by w.totalLength - dataSent
decreasing_by
  simp only [payloadSize, packetSize, sizeofMessageHeader]
  omega

/-- The header of the first packet; clearing `type` marks the writer as
flushed. -/
def firstHeader (w : CRequestWriter) : MessageHeader :=
  setPacket { w.mHeader with type := 0 } w.totalLength

/-- The first packet: a data message sends its event info before the buffer. -/
def firstPacket (w : CRequestWriter) : Packet :=
  if w.haveEventInfo then
    ⟨w.firstHeader,
      w.mInfo.encode ++ w.mBuf.slice 0 (w.firstHeader.packetLength.toNat - sizeofEventInfo)⟩
  else
    ⟨w.firstHeader, w.mBuf.slice 0 w.firstHeader.packetLength.toNat⟩

/-- `CRequestWriter::flush`: the packets handed to the channel, in order. -/
def flush (w : CRequestWriter) : List Packet :=
  w.firstPacket ::
    if w.totalLength > payloadSize then
      w.continuation w.firstHeader (payloadSize - sizeofEventInfo)
    else
      []

end CRequestWriter

/-- The bytes a sequence of packets puts on the wire. -/
def wire (ps : List Packet) : List UInt8 := ps.flatMap fun p => p.header.encode ++ p.payload

/-- The payloads of a sequence of packets, one after the other. -/
def payloads (ps : List Packet) : List UInt8 := ps.flatMap fun p => p.payload

/-! ## `CRequestReader` -/

/-- What `receiveAll` leaves behind: its return value, `mBuf`, and the bytes
still waiting in the channel. -/
structure Received where
  ok : Bool
  mBuf : List UInt8
  rest : List UInt8
  deriving DecidableEq, Repr

namespace CRequestReader

/-- The loop over the continuation packets.  `mCurrent` is only moved to the
member `mHdr` when the header read into it announces a payload; from then on
(`moved`) every header that is read is the current one. -/
def receiveMore (mCurrent : MessageHeader) (moved : Bool) (mBuf stream : List UInt8) : Received :=
  if mCurrent.moreData then
    match _ : MessageHeader.read? stream with
    | none => ⟨false, mBuf, stream⟩
    | some (mHdr, stream') =>
        if mHdr.packetLength = 0 then
          receiveMore (if moved then mHdr else mCurrent) moved mBuf stream'
        else
          match _ : split? mHdr.packetLength.toNat stream' with
          | none => ⟨false, mBuf, stream'⟩
          | some (payload, stream'') => receiveMore mHdr true (mBuf ++ payload) stream''
  else
    ⟨true, mBuf, stream⟩
termination_by stream.length
decreasing_by
  · exact MessageHeader.length_lt_of_read? ‹_›
  · have h1 := MessageHeader.length_lt_of_read? ‹MessageHeader.read? stream = some _›
    have h2 := length_of_split? ‹split? _ _ = some _›
    omega

/-- `CRequestReader::receiveAll`, called after the first header was read. -/
def receiveAll (hdr : MessageHeader) (stream : List UInt8) : Received :=
  if hdr.packetLength = 0 then
    ⟨true, [], stream⟩
  else
    match split? hdr.packetLength.toNat stream with
    | none => ⟨false, [], stream⟩
    | some (payload, stream') => receiveMore hdr false payload stream'

end CRequestReader

/-! ## The header of a packet -/

theorem payloadSize_eq : payloadSize = 4056 := rfl

private theorem or_moreDataFlag_and (x : UInt32) :
    (x ||| moreDataFlag) &&& moreDataFlag = moreDataFlag := by
  apply UInt32.toNat_inj.mp
  apply Nat.eq_of_testBit_eq
  intro i
  simp only [UInt32.toNat_and, UInt32.toNat_or, Nat.testBit_and, Nat.testBit_or]
  cases x.toNat.testBit i <;> cases (moreDataFlag.toNat).testBit i <;> rfl

private theorem and_not_moreDataFlag_and (x : UInt32) :
    (x &&& ~~~moreDataFlag) &&& moreDataFlag = 0 := by
  have hmask : ~~~moreDataFlag &&& moreDataFlag = 0 := by decide
  rw [UInt32.and_assoc, hmask, UInt32.and_zero]

namespace CRequestWriter

/-- The announced length is what is left, cut at the payload size. -/
theorem packetLength_setPacket (h : MessageHeader) (rest : Nat) :
    (setPacket h rest).packetLength.toNat = min rest payloadSize := by
  unfold setPacket
  rw [payloadSize_eq]
  by_cases hr : rest > 4056
  · rw [if_pos hr]
    change (UInt32.ofNat 4056).toNat = min rest 4056
    rw [Nat.min_eq_right (Nat.le_of_lt hr)]
    rfl
  · rw [if_neg hr]
    change (UInt32.ofNat rest).toNat = min rest 4056
    rw [UInt32.toNat_ofNat', Nat.mod_eq_of_lt (by omega), Nat.min_eq_left (by omega)]

/-- The flag says whether another packet follows. -/
theorem moreData_setPacket (h : MessageHeader) (rest : Nat) :
    (setPacket h rest).moreData = decide (rest > payloadSize) := by
  unfold setPacket MessageHeader.moreData
  by_cases hr : rest > payloadSize
  · rw [if_pos hr, or_moreDataFlag_and]
    simp [hr, moreDataFlag]
  · rw [if_neg hr, and_not_moreDataFlag_and]
    simp [hr]

/-! ## What is sent -/

theorem length_message (w : CRequestWriter) : w.message.length = w.totalLength := by
  unfold message totalLength
  cases w.haveEventInfo
  · simp
  · simp [Nat.add_comm]

/-- The continuation packets carry as many bytes as `totalLength` exceeds the
offset they start from. -/
theorem length_payloads_continuation (w : CRequestWriter) (h : MessageHeader) (dataSent : Nat) :
    (payloads (w.continuation h dataSent)).length = w.totalLength - dataSent := by
  induction h, dataSent using continuation.induct (w := w) with
  | case1 h dataSent hlt h' ih =>
      rw [continuation, if_pos hlt]
      simp only [payloads, List.flatMap_cons, List.length_append, CBuffer.length_slice] at ih ⊢
      rw [ih, packetLength_setPacket]
      omega
  | case2 h dataSent hge =>
      rw [continuation, if_neg hge]
      simp only [payloads, List.flatMap_nil, List.length_nil]
      omega

/-- A message longer than one packet is sent with `sizeof(EventInfo)` bytes too
many: the continuation starts at an offset that leaves room for the event info,
and counts it again in the total. -/
theorem length_payloads_flush_of_gt (w : CRequestWriter) (h : w.totalLength > payloadSize) :
    (payloads w.flush).length = w.totalLength + sizeofEventInfo := by
  have hcont := length_payloads_continuation w w.firstHeader (payloadSize - sizeofEventInfo)
  have hfirst : w.firstPacket.payload.length = payloadSize := by
    have hlen : w.firstHeader.packetLength.toNat = payloadSize := by
      rw [firstHeader, packetLength_setPacket, Nat.min_eq_right (Nat.le_of_lt h)]
    unfold firstPacket
    cases w.haveEventInfo
    · simp [hlen]
    · simp only [if_true, List.length_append, EventInfo.length_encode, CBuffer.length_slice, hlen]
      decide
  simp only [flush, if_pos h, payloads, List.flatMap_cons, List.length_append] at hcont ⊢
  rw [hcont, hfirst]
  rw [payloadSize_eq] at h ⊢
  simp only [sizeofEventInfo]
  omega

/-- A message that fits is sent as one packet, without the flag, that carries
exactly the message. -/
theorem flush_of_le (w : CRequestWriter) (h : w.totalLength ≤ payloadSize) :
    w.flush = [⟨w.firstHeader, w.message⟩] := by
  have hlen : w.firstHeader.packetLength.toNat = w.totalLength := by
    rw [firstHeader, packetLength_setPacket, Nat.min_eq_left h]
  have hfirst : w.firstPacket = ⟨w.firstHeader, w.message⟩ := by
    unfold firstPacket message
    cases hinfo : w.haveEventInfo
    · have hsize : w.totalLength = w.mBuf.mSize := by simp [totalLength, hinfo]
      simp [hlen, hsize, CBuffer.data]
    · have hsize : w.totalLength - sizeofEventInfo = w.mBuf.mSize := by simp [totalLength, hinfo]
      simp [hlen, hsize, CBuffer.data]
  rw [flush, if_neg (by omega), hfirst]

end CRequestWriter

/-! ## The round trip -/

/-- Fragmentation and reassembly of the message of a writer: the payloads are
the message, every packet announces its own length, all but the last carry the
flag, and a reader that has taken the first header off the channel ends with the
message in its buffer and the channel at what follows the last packet. -/
structure RoundTrips (w : CRequestWriter) : Prop where
  payload : payloads w.flush = w.message
  announced : ∀ p ∈ w.flush, p.header.packetLength.toNat = p.payload.length
  more : ∀ p ∈ w.flush.dropLast, p.header.moreData = true
  last : ∀ p ∈ w.flush.getLast?, p.header.moreData = false
  received : ∀ rest, ∃ hdr stream,
    MessageHeader.read? (wire w.flush ++ rest) = some (hdr, stream) ∧
      CRequestReader.receiveAll hdr stream = ⟨true, w.message, rest⟩

/-- One packet without the flag is received as its payload. -/
theorem CRequestReader.receiveAll_append (h : MessageHeader) (payload rest : List UInt8)
    (hlen : h.packetLength.toNat = payload.length) (hmore : h.moreData = false) :
    receiveAll h (payload ++ rest) = ⟨true, payload, rest⟩ := by
  unfold receiveAll
  by_cases hz : h.packetLength = 0
  · have hnil : payload = [] := by
      apply List.eq_nil_of_length_eq_zero
      rw [← hlen, hz]
      rfl
    rw [if_pos hz, hnil]
    rfl
  · rw [if_neg hz, split?_append hlen.symm]
    simp [receiveMore, hmore]

/-- Too many bytes are sent for a message of more than one packet. -/
theorem not_roundTrips_of_gt (w : CRequestWriter) (hgt : w.totalLength > payloadSize) :
    ¬ RoundTrips w := by
  intro h
  have hsent := w.length_payloads_flush_of_gt hgt
  rw [h.payload, w.length_message] at hsent
  simp only [sizeofEventInfo] at hsent
  omega

/-- **Packet round trip**: a message survives fragmentation and reassembly
exactly when it fits into a single packet. -/
theorem roundTrips_iff_totalLength_le (w : CRequestWriter) :
    RoundTrips w ↔ w.totalLength ≤ payloadSize := by
  constructor
  · intro h
    exact Nat.le_of_not_lt fun hgt => not_roundTrips_of_gt w hgt h
  · intro hle
    have hflush := w.flush_of_le hle
    have hlen : w.firstHeader.packetLength.toNat = w.message.length := by
      rw [CRequestWriter.firstHeader, CRequestWriter.packetLength_setPacket,
        Nat.min_eq_left hle, w.length_message]
    have hmore : w.firstHeader.moreData = false := by
      rw [CRequestWriter.firstHeader, CRequestWriter.moreData_setPacket]
      exact decide_eq_false (by omega)
    refine ⟨?_, ?_, ?_, ?_, ?_⟩
    · simp [hflush, payloads]
    · simp [hflush, hlen]
    · simp [hflush]
    · simp [hflush, hmore]
    · intro rest
      refine ⟨_, w.message ++ rest, ?_, CRequestReader.receiveAll_append _ _ _ hlen hmore⟩
      rw [hflush]
      simp only [wire, List.flatMap_cons, List.flatMap_nil, List.append_nil, List.append_assoc]
      exact MessageHeader.read?_encode_append _ _

/-- A connect request with one byte more than a packet holds does not survive:
the sixteen bytes before the boundary are sent twice. -/
theorem not_roundTrips_connect_4057 :
    ¬ RoundTrips (.create .ConnectRequest ⟨1, 0⟩ ⟨2, 0⟩ 0 default ⟨fun _ => 0, 4057⟩) :=
  not_roundTrips_of_gt _ (by decide)

end Dsi
