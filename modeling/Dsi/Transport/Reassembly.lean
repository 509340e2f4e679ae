import Dsi.Transport.Packets

/-!
# Dsi.Transport.Reassembly

`CRequestReader::receiveAll` on any stream of packets.  What a message is, a specification
says on its own: the packets up to and including the first one without the flag.  The
reader tests the flag of the current header, and an empty packet does not become the
current one until there was a continuation with a payload.
-/

namespace Dsi

open LittleEndian

/-- The call delivers this message, if there is one, and fails otherwise. -/
def Received.Delivers (r : Received) : Option (List UInt8 × List UInt8) → Prop
  | some (payload, rest) => r = ⟨true, payload, rest⟩
  | none => r.ok = false

namespace CRequestReader

/-! ## Messages -/

/-- The message that starts with this header: the payloads of the packets up to and
including the first one without the flag, and what follows it in the channel. -/
def message (hdr : MessageHeader) (stream : List UInt8) : Option (List UInt8 × List UInt8) :=
  match _ : split? hdr.packetLength.toNat stream with
  | none => none
  | some (payload, rest) =>
      if hdr.moreData then
        match _ : MessageHeader.read? rest with
        | none => none
        | some (next, rest') => (message next rest').map fun m => (payload ++ m.1, m.2)
      else some (payload, rest)
termination_by stream.length
decreasing_by
  have h1 := MessageHeader.length_lt_of_read? ‹_›
  have h2 := length_of_split? ‹split? _ _ = some _›
  omega

variable {hdr : MessageHeader} {moved : Bool} {buf stream rest payload : List UInt8}

end CRequestReader

end Dsi
