import Dsi.Lib.LittleEndian

/-!
# Dsi.Message

The party IDs shared by the servicebroker and the DSI library
(`include/dsi/private/servicebroker.h`), and the two structures that stand in
front of every DSI message (`include/dsi/DSI.hpp`): `MessageHeader`, as it is
transferred on the wire, and `EventInfo`, which data messages carry behind it.
Signed 32-bit members are kept as their bit pattern.
-/

namespace Dsi

open LittleEndian

/-! ## Party IDs -/

/-- `SPartyID`: the union of a 64-bit `globalID` with its two halves.  Two IDs
are equal as 64-bit values exactly when both halves are. -/
structure SPartyID where
  localID : UInt32
  extendedID : UInt32
  deriving DecidableEq, Repr, Inhabited

namespace SPartyID

/-- The 64-bit view of the union. -/
def globalID (p : SPartyID) : Nat := p.extendedID.toNat * 2 ^ 32 + p.localID.toNat

/-- `SPartyID::operator==`.  It looks at the local half only. -/
def opEq (lhs rhs : SPartyID) : Bool := lhs.localID == rhs.localID

theorem globalID_inj {p q : SPartyID} (h : p.globalID = q.globalID) : p = q := by
  obtain ⟨pl, pe⟩ := p
  obtain ⟨ql, qe⟩ := q
  have hp := pl.toNat_lt
  have hq := ql.toNat_lt
  simp only [globalID] at h
  have he : pe.toNat = qe.toNat := by omega
  have hl : pl.toNat = ql.toNat := by omega
  rw [UInt32.toNat_inj.mp he, UInt32.toNat_inj.mp hl]

end SPartyID

/-! ## Message headers -/

/-- `DSI::Command`. -/
inductive Command where
  | Invalid
  | DataRequest
  | DataResponse
  | ConnectRequest
  | DisconnectRequest
  | ConnectResponse
  deriving DecidableEq, Repr

/-- The numbers of the enumeration, as they stand in the header. -/
def Command.toUInt32 : Command → UInt32
  | .Invalid => 0
  | .DataRequest => 7
  | .DataResponse => 8
  | .ConnectRequest => 9
  | .DisconnectRequest => 10
  | .ConnectResponse => 11

/-- `DSI_MORE_DATA_FLAG`. -/
def moreDataFlag : UInt32 := 1

/-- `DSI_MESSAGE_MAGIC`. -/
def messageMagic : UInt32 := 0x200

/-- `DSI::MessageHeader`. -/
structure MessageHeader where
  type : UInt32
  protoMajor : UInt16
  protoMinor : UInt16
  serverID : SPartyID
  clientID : SPartyID
  cmd : UInt32
  flags : UInt32
  packetLength : UInt32
  reserved : UInt32
  deriving DecidableEq, Repr

/-- `sizeof(DSI::MessageHeader)`. -/
def sizeofMessageHeader : Nat := 40

/-- `DSI_PACKET_SIZE`. -/
def packetSize : Nat := 4 * 1024

/-- `DSI_PAYLOAD_SIZE`: what a packet holds behind its header. -/
def payloadSize : Nat := packetSize - sizeofMessageHeader

namespace MessageHeader

/-- The flag test of `CRequestReader::receiveAll`. -/
def moreData (h : MessageHeader) : Bool := h.flags &&& moreDataFlag != 0

/-- The header as it lies in memory and on the wire. -/
def encode (h : MessageHeader) : List UInt8 :=
  bytes 4 h.type.toNat ++ (bytes 2 h.protoMajor.toNat ++ (bytes 2 h.protoMinor.toNat ++
  (bytes 4 h.serverID.localID.toNat ++ (bytes 4 h.serverID.extendedID.toNat ++
  (bytes 4 h.clientID.localID.toNat ++ (bytes 4 h.clientID.extendedID.toNat ++
  (bytes 4 h.cmd.toNat ++ (bytes 4 h.flags.toNat ++ (bytes 4 h.packetLength.toNat ++
  bytes 4 h.reserved.toNat)))))))))

/-- The header that bytes in memory spell, member by member. -/
def decode (bs : List UInt8) : Option MessageHeader := do
  let (type, bs) ← LittleEndian.read? 4 bs
  let (protoMajor, bs) ← LittleEndian.read? 2 bs
  let (protoMinor, bs) ← LittleEndian.read? 2 bs
  let (serverLocal, bs) ← LittleEndian.read? 4 bs
  let (serverExtended, bs) ← LittleEndian.read? 4 bs
  let (clientLocal, bs) ← LittleEndian.read? 4 bs
  let (clientExtended, bs) ← LittleEndian.read? 4 bs
  let (cmd, bs) ← LittleEndian.read? 4 bs
  let (flags, bs) ← LittleEndian.read? 4 bs
  let (packetLength, bs) ← LittleEndian.read? 4 bs
  let (reserved, _) ← LittleEndian.read? 4 bs
  pure { type := .ofNat type, protoMajor := .ofNat protoMajor, protoMinor := .ofNat protoMinor
         serverID := ⟨.ofNat serverLocal, .ofNat serverExtended⟩
         clientID := ⟨.ofNat clientLocal, .ofNat clientExtended⟩
         cmd := .ofNat cmd, flags := .ofNat flags
         packetLength := .ofNat packetLength, reserved := .ofNat reserved }

/-- Receiving `sizeof(MessageHeader)` bytes from a stream into a header
variable. -/
def read? (bs : List UInt8) : Option (MessageHeader × List UInt8) := do
  let (front, rest) ← split? sizeofMessageHeader bs
  let h ← decode front
  pure (h, rest)

@[simp] theorem length_encode (h : MessageHeader) : h.encode.length = sizeofMessageHeader := by
  simp [encode, sizeofMessageHeader]

theorem decode_encode (h : MessageHeader) : decode h.encode = some h := by
  have h32 : ∀ (x : UInt32) (r : List UInt8),
      LittleEndian.read? 4 (bytes 4 x.toNat ++ r) = some (x.toNat, r) := fun x r =>
    read?_bytes_append 4 x.toNat (Nat.lt_of_lt_of_eq x.toNat_lt (by decide)) r
  have h16 : ∀ (x : UInt16) (r : List UInt8),
      LittleEndian.read? 2 (bytes 2 x.toNat ++ r) = some (x.toNat, r) := fun x r =>
    read?_bytes_append 2 x.toNat (Nat.lt_of_lt_of_eq x.toNat_lt (by decide)) r
  have hlast := read?_bytes_append 4 h.reserved.toNat
    (Nat.lt_of_lt_of_eq h.reserved.toNat_lt (by decide)) []
  rw [List.append_nil] at hlast
  simp only [decode, encode, h32, h16, hlast, Option.bind_eq_bind, Option.bind_some,
    Option.pure_def, UInt32.ofNat_toNat, UInt16.ofNat_toNat]

/-- A header reads back from its own bytes, whatever follows them. -/
theorem read?_encode_append (h : MessageHeader) (rest : List UInt8) :
    read? (h.encode ++ rest) = some (h, rest) := by
  simp [read?, split?_append (length_encode h), decode_encode]

/-- A received header shortens the stream. -/
theorem length_lt_of_read? {bs rest : List UInt8} {h : MessageHeader}
    (hr : read? bs = some (h, rest)) : rest.length < bs.length := by
  simp only [read?, Option.bind_eq_bind, Option.bind_eq_some_iff, Option.pure_def,
    Option.some.injEq, Prod.mk.injEq, Prod.exists] at hr
  obtain ⟨front, rest', hs, h', -, -, rfl⟩ := hr
  have hlen := length_of_split? hs
  simp only [sizeofMessageHeader] at hlen
  omega

end MessageHeader

/-! ## Event information -/

/-- `DSI::EventInfo`; `requestType` is the union of the request and the
response type. -/
structure EventInfo where
  ifVersion : UInt32
  requestType : UInt32
  requestID : UInt32
  sequenceNumber : UInt32
  deriving DecidableEq, Repr, Inhabited

/-- `sizeof(DSI::EventInfo)`. -/
def sizeofEventInfo : Nat := 16

namespace EventInfo

/-- The event information as it lies in memory and on the wire. -/
def encode (i : EventInfo) : List UInt8 :=
  bytes 4 i.ifVersion.toNat ++ (bytes 4 i.requestType.toNat ++
  (bytes 4 i.requestID.toNat ++ bytes 4 i.sequenceNumber.toNat))

@[simp] theorem length_encode (i : EventInfo) : i.encode.length = sizeofEventInfo := by
  simp [encode, sizeofEventInfo]

end EventInfo

end Dsi
