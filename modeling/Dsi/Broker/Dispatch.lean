import Dsi.Broker.Types
import Dsi.Lib.CLayout

/-!
# Dsi.Broker.Dispatch

How the broker turns the bytes on a connection into a call of a handler: the
argument structures of `include/dsi/private/servicebroker.h`, the frame of
`servicebroker/frames.h`, the buffer of `AutoBuffer.hpp`, and `handleRead`,
`eval` and `Servicebroker::dispatch` up to the handler.

The handler and its arguments are a `Request`.  A request whose length test fails
is answered with `FNDInternalError` like an unreadable one; both are `malformed`.
-/

namespace Dsi

open CLayout

/-- `DSI_SERVICEBROKER_VERSION_MAJOR`. -/
def DSI_SERVICEBROKER_VERSION_MAJOR : Nat := 4

/-- `DSI_SERVICEBROKER_VERSION_MINOR`. -/
def DSI_SERVICEBROKER_VERSION_MINOR : Nat := 0

/-! ## Structures -/

namespace Layout

def SFNDInterfaceVersion : Members := [("majorVersion", uint16), ("minorVersion", uint16)]

def SPartyID.s : Members := [("localID", uint32), ("extendedID", uint32)]

/-- The 64-bit view asks for the alignment that the attribute repeats. -/
def SPartyID : CType := .union [("s", .struct SPartyID.s), ("globalID", uint64)]

def SFNDImplementationVersion : Members :=
  [("majorVersion", uint16), ("minorVersion", uint16), ("patchlevel", uint16)]

def SFNDInterfaceDescription : Members :=
  [("version", .struct SFNDInterfaceVersion), ("name", .array char (NAME_MAX + 1))]

def SFNDInterfaceDescriptionEx : Members :=
  [("implVersion", .struct SFNDImplementationVersion), ("chid", int32), ("pid", int32),
    ("nd", int32), ("serverID", SPartyID), ("ifDescription", .struct SFNDInterfaceDescription)]

def SFNDChannelInfo : Members := [("nid", uint32), ("pid", int32), ("chid", int32)]

def SConnectionInfo : Members :=
  [("ifVersion", .struct SFNDInterfaceVersion), ("channel", .struct SFNDChannelInfo),
    ("serverID", SPartyID), ("clientID", SPartyID)]

def SServerInfo : Members := [("channel", .struct SFNDChannelInfo), ("serverID", SPartyID)]

def SFNDPulseInfo : Members :=
  [("code", int32), ("value", int32), ("chid", int32), ("pid", int32)]

def SFNDNotificationDescription : Members :=
  [("cookie", uint32), ("pulse", .struct SFNDPulseInfo),
    ("ifDescription", .struct SFNDInterfaceDescription)]

def SFNDNotificationID : Members := [("cookie", uint32), ("notificationID", uint32)]

/-! Every argument is a union of what the client sends, `i`, and what it gets back, `o`. -/

def SFNDInterfaceRegisterArg.i : Members :=
  [("sbVersion", .struct SFNDInterfaceVersion),
    ("ifDescription", .struct SFNDInterfaceDescription),
    ("implVersion", .struct SFNDImplementationVersion), ("chid", int32), ("pid", int32)]

def SFNDInterfaceRegisterArg : CType :=
  .union [("i", .struct SFNDInterfaceRegisterArg.i), ("o", .struct [("serverID", SPartyID)])]

def SFNDInterfaceRegisterGroupIDArg.i : Members :=
  [("sbVersion", .struct SFNDInterfaceVersion),
    ("ifDescription", .struct SFNDInterfaceDescription),
    ("implVersion", .struct SFNDImplementationVersion), ("chid", int32), ("pid", int32),
    ("grpid", int32)]

def SFNDInterfaceRegisterGroupIDArg : CType :=
  .union [("i", .struct SFNDInterfaceRegisterGroupIDArg.i), ("o", .struct [("serverID", SPartyID)])]

def SFNDInterfaceRegisterExArg.i : Members :=
  [("sbVersion", .struct SFNDInterfaceVersion),
    ("implVersion", .struct SFNDImplementationVersion), ("chid", int32), ("pid", int32),
    ("ifCount", int32)]

def SFNDInterfaceRegisterExArg : CType :=
  .union [("i", .struct SFNDInterfaceRegisterExArg.i),
    ("o", .struct [("serverID", .array SPartyID 1)])]

def SFNDInterfaceRegisterMasterExArg.i : Members :=
  [("sbVersion", .struct SFNDInterfaceVersion), ("ifCount", int32)]

def SFNDInterfaceRegisterMasterExArg : CType :=
  .union [("i", .struct SFNDInterfaceRegisterMasterExArg.i),
    ("o", .struct [("serverID", .array SPartyID 1)])]

def SFNDInterfaceUnregisterArg.i : Members :=
  [("sbVersion", .struct SFNDInterfaceVersion), ("reserved", uint32), ("serverID", SPartyID)]

def SFNDInterfaceUnregisterArg : CType := .union [("i", .struct SFNDInterfaceUnregisterArg.i)]

def SFNDInterfaceAttachArg.i : Members :=
  [("sbVersion", .struct SFNDInterfaceVersion),
    ("ifDescription", .struct SFNDInterfaceDescription)]

def SFNDInterfaceAttachArg : CType :=
  .union [("i", .struct SFNDInterfaceAttachArg.i), ("o", .struct SConnectionInfo)]

def SFNDInterfaceAttachExtendedArg.i : Members :=
  [("sbVersion", .struct SFNDInterfaceVersion), ("pulse", .struct SFNDPulseInfo),
    ("ifDescription", .struct SFNDInterfaceDescription)]

def SFNDInterfaceAttachExtendedArg : CType :=
  .union [("i", .struct SFNDInterfaceAttachExtendedArg.i),
    ("o", .struct [("connInfo", .struct SConnectionInfo), ("notificationID", uint32)])]

def SFNDGetServerInformation.i : Members :=
  [("sbVersion", .struct SFNDInterfaceVersion),
    ("ifDescription", .struct SFNDInterfaceDescription)]

def SFNDGetServerInformation : CType :=
  .union [("i", .struct SFNDGetServerInformation.i), ("o", .struct SServerInfo)]

def SFNDNotifyServerDisconnectArg.i : Members :=
  [("sbVersion", .struct SFNDInterfaceVersion), ("reserved", uint32), ("serverID", SPartyID),
    ("pulse", .struct SFNDPulseInfo)]

def SFNDNotifyServerDisconnectArg : CType :=
  .union [("i", .struct SFNDNotifyServerDisconnectArg.i),
    ("o", .struct [("notificationID", uint32)])]

def SFNDNotifyServerAvailableArg.i : Members :=
  [("sbVersion", .struct SFNDInterfaceVersion), ("pulse", .struct SFNDPulseInfo),
    ("ifDescription", .struct SFNDInterfaceDescription)]

def SFNDNotifyServerAvailableArg : CType :=
  .union [("i", .struct SFNDNotifyServerAvailableArg.i),
    ("o", .struct [("notificationID", uint32)])]

def SFNDNotifyServerAvailableExArg.i : Members :=
  [("sbVersion", .struct SFNDInterfaceVersion), ("count", int32)]

def SFNDNotifyServerAvailableExArg : CType :=
  .union [("i", .struct SFNDNotifyServerAvailableExArg.i),
    ("o", .struct [("notifications", .array (.struct SFNDNotificationID) 1)])]

def SFNDInterfaceDetachArg.i : Members :=
  [("sbVersion", .struct SFNDInterfaceVersion), ("reserved", uint32), ("clientID", SPartyID)]

def SFNDInterfaceDetachArg : CType := .union [("i", .struct SFNDInterfaceDetachArg.i)]

def SFNDMasterPingIdArg.i : Members :=
  [("sbVersion", .struct SFNDInterfaceVersion), ("id", uint32), ("reserved", uint32)]

def SFNDMasterPingIdArg : CType := .union [("i", .struct SFNDMasterPingIdArg.i)]

def SFNDNotifyClientDetachArg.i : Members :=
  [("sbVersion", .struct SFNDInterfaceVersion), ("reserved", uint32), ("clientID", SPartyID),
    ("pulse", .struct SFNDPulseInfo)]

def SFNDNotifyClientDetachArg : CType :=
  .union [("i", .struct SFNDNotifyClientDetachArg.i), ("o", .struct [("notificationID", uint32)])]

def SFNDClearNotificationArg.i : Members :=
  [("sbVersion", .struct SFNDInterfaceVersion), ("notificationID", uint32)]

def SFNDClearNotificationArg : CType := .union [("i", .struct SFNDClearNotificationArg.i)]

def SFNDGetInterfaceListArg.i : Members :=
  [("sbVersion", .struct SFNDInterfaceVersion), ("inElementCount", uint32)]

def SFNDGetInterfaceListArg : CType :=
  .union [("i", .struct SFNDGetInterfaceListArg.i),
    ("o", .struct [("interfaceDescriptions", .array (.struct SFNDInterfaceDescription) 1)])]

def SFNDNotifyInterfaceListChangeArg.i : Members :=
  [("sbVersion", .struct SFNDInterfaceVersion), ("pulse", .struct SFNDPulseInfo)]

def SFNDNotifyInterfaceListChangeArg : CType :=
  .union [("i", .struct SFNDNotifyInterfaceListChangeArg.i),
    ("o", .struct [("notificationID", uint32)])]

def SFNDMatchInterfaceListArg.i : Members :=
  [("sbVersion", .struct SFNDInterfaceVersion), ("inElementCount", uint32),
    ("regExpr", .array char (NAME_MAX + 1))]

def SFNDMatchInterfaceListArg : CType :=
  .union [("i", .struct SFNDMatchInterfaceListArg.i),
    ("o", .struct [("interfaceDescriptions", .array (.struct SFNDInterfaceDescription) 1)])]

def SFNDNotifyInterfaceListMatchArg.i : Members :=
  [("sbVersion", .struct SFNDInterfaceVersion), ("pulse", .struct SFNDPulseInfo),
    ("regExpr", .array char (NAME_MAX + 1))]

def SFNDNotifyInterfaceListMatchArg : CType :=
  .union [("i", .struct SFNDNotifyInterfaceListMatchArg.i),
    ("o", .struct [("notificationID", uint32)])]

def sb_frame : Members := [("fr_magic", int32), ("fr_size", int32)]

def sb_request_frame : Members :=
  [("fr_envelope", .struct sb_frame), ("fr_cmd", int32), ("fr_padding", int32)]

end Layout

/-! ## Commands -/

/-- The commands that carry an argument: all but `DCMD_FND_MASTER_PING`. -/
inductive Dcmd where
  | DCMD_FND_REGISTER_INTERFACE
  | DCMD_FND_REGISTER_INTERFACE_EX
  | DCMD_FND_REGISTER_INTERFACE_GROUPID
  | DCMD_FND_UNREGISTER_INTERFACE
  | DCMD_FND_ATTACH_INTERFACE
  | DCMD_FND_ATTACH_INTERFACE_EXTENDED
  | DCMD_FND_GET_SERVER_INFORMATION
  | DCMD_FND_DETACH_INTERFACE
  | DCMD_FND_NOTIFY_SERVER_DISCONNECT
  | DCMD_FND_NOTIFY_SERVER_AVAILABLE
  | DCMD_FND_NOTIFY_SERVER_AVAILABLE_EX
  | DCMD_FND_NOTIFY_CLIENT_DETACH
  | DCMD_FND_CLEAR_NOTIFICATION
  | DCMD_FND_REGISTER_MASTER_INTERFACE_EX
  | DCMD_FND_GET_INTERFACELIST
  | DCMD_FND_NOTIFY_INTERFACELIST_CHANGE
  | DCMD_FND_MATCH_INTERFACELIST
  | DCMD_FND_NOTIFY_INTERFACELIST_MATCH
  | DCMD_FND_MASTER_PING_ID
  deriving DecidableEq, Repr

namespace Dcmd

/-- The union a command is defined with, which is also the one the dispatcher
measures its requests with. -/
def arg : Dcmd → CType
  | DCMD_FND_REGISTER_INTERFACE => Layout.SFNDInterfaceRegisterArg
  | DCMD_FND_REGISTER_INTERFACE_EX => Layout.SFNDInterfaceRegisterExArg
  | DCMD_FND_REGISTER_INTERFACE_GROUPID => Layout.SFNDInterfaceRegisterGroupIDArg
  | DCMD_FND_UNREGISTER_INTERFACE => Layout.SFNDInterfaceUnregisterArg
  | DCMD_FND_ATTACH_INTERFACE => Layout.SFNDInterfaceAttachArg
  | DCMD_FND_ATTACH_INTERFACE_EXTENDED => Layout.SFNDInterfaceAttachExtendedArg
  | DCMD_FND_GET_SERVER_INFORMATION => Layout.SFNDGetServerInformation
  | DCMD_FND_DETACH_INTERFACE => Layout.SFNDInterfaceDetachArg
  | DCMD_FND_NOTIFY_SERVER_DISCONNECT => Layout.SFNDNotifyServerDisconnectArg
  | DCMD_FND_NOTIFY_SERVER_AVAILABLE => Layout.SFNDNotifyServerAvailableArg
  | DCMD_FND_NOTIFY_SERVER_AVAILABLE_EX => Layout.SFNDNotifyServerAvailableExArg
  | DCMD_FND_NOTIFY_CLIENT_DETACH => Layout.SFNDNotifyClientDetachArg
  | DCMD_FND_CLEAR_NOTIFICATION => Layout.SFNDClearNotificationArg
  | DCMD_FND_REGISTER_MASTER_INTERFACE_EX => Layout.SFNDInterfaceRegisterMasterExArg
  | DCMD_FND_GET_INTERFACELIST => Layout.SFNDGetInterfaceListArg
  | DCMD_FND_NOTIFY_INTERFACELIST_CHANGE => Layout.SFNDNotifyInterfaceListChangeArg
  | DCMD_FND_MATCH_INTERFACELIST => Layout.SFNDMatchInterfaceListArg
  | DCMD_FND_NOTIFY_INTERFACELIST_MATCH => Layout.SFNDNotifyInterfaceListMatchArg
  | DCMD_FND_MASTER_PING_ID => Layout.SFNDMasterPingIdArg

/-- The command number in front of the union in its definition. -/
def number : Dcmd → Nat
  | DCMD_FND_REGISTER_INTERFACE => 0
  | DCMD_FND_UNREGISTER_INTERFACE => 1
  | DCMD_FND_ATTACH_INTERFACE => 2
  | DCMD_FND_DETACH_INTERFACE => 3
  | DCMD_FND_NOTIFY_SERVER_DISCONNECT => 4
  | DCMD_FND_NOTIFY_SERVER_AVAILABLE => 5
  | DCMD_FND_NOTIFY_SERVER_AVAILABLE_EX => 5
  | DCMD_FND_NOTIFY_CLIENT_DETACH => 6
  | DCMD_FND_CLEAR_NOTIFICATION => 7
  | DCMD_FND_GET_INTERFACELIST => 8
  | DCMD_FND_NOTIFY_INTERFACELIST_CHANGE => 9
  | DCMD_FND_MATCH_INTERFACELIST => 10
  | DCMD_FND_NOTIFY_INTERFACELIST_MATCH => 11
  | DCMD_FND_REGISTER_INTERFACE_EX => 12
  | DCMD_FND_REGISTER_INTERFACE_GROUPID => 13
  | DCMD_FND_REGISTER_MASTER_INTERFACE_EX => 30
  | DCMD_FND_MASTER_PING_ID => 32
  | DCMD_FND_ATTACH_INTERFACE_EXTENDED => 35
  | DCMD_FND_GET_SERVER_INFORMATION => 37

/-- `_DCMD_MISC`. -/
def DCMD_MISC : Nat := 0x05

/-- The value of a command, `__DIOTF(_DCMD_MISC, number, arg)` as a `dcmd_t`. -/
def code (cmd : Dcmd) : Nat :=
  (cmd.arg.size * 2 ^ 16 + DCMD_MISC * 2 ^ 8 + cmd.number + 0xC0000000) % 2 ^ 32

/-- The cases of the first `switch` of the dispatcher. -/
def all : List Dcmd :=
  [DCMD_FND_REGISTER_INTERFACE, DCMD_FND_REGISTER_INTERFACE_EX,
    DCMD_FND_REGISTER_INTERFACE_GROUPID, DCMD_FND_UNREGISTER_INTERFACE,
    DCMD_FND_ATTACH_INTERFACE, DCMD_FND_ATTACH_INTERFACE_EXTENDED,
    DCMD_FND_GET_SERVER_INFORMATION, DCMD_FND_DETACH_INTERFACE,
    DCMD_FND_NOTIFY_SERVER_DISCONNECT, DCMD_FND_NOTIFY_SERVER_AVAILABLE,
    DCMD_FND_NOTIFY_SERVER_AVAILABLE_EX, DCMD_FND_NOTIFY_CLIENT_DETACH,
    DCMD_FND_CLEAR_NOTIFICATION, DCMD_FND_REGISTER_MASTER_INTERFACE_EX,
    DCMD_FND_GET_INTERFACELIST, DCMD_FND_NOTIFY_INTERFACELIST_CHANGE,
    DCMD_FND_MATCH_INTERFACELIST, DCMD_FND_NOTIFY_INTERFACELIST_MATCH, DCMD_FND_MASTER_PING_ID]

/-- The case that a command on the wire selects. -/
def ofCode? (cmd : Nat) : Option Dcmd := all.find? (·.code = cmd)

/-- No two commands share a value, although two of them share a number. -/
@[simp] theorem ofCode?_code (cmd : Dcmd) : ofCode? cmd.code = some cmd := by
  cases cmd <;> decide

/-- The length tests in front of the handlers. -/
def lengthTest (cmd : Dcmd) (nBytes : Nat) : Bool :=
  match cmd with
  | DCMD_FND_REGISTER_INTERFACE_EX => decide (cmd.arg.size < nBytes)
  | DCMD_FND_NOTIFY_SERVER_AVAILABLE_EX | DCMD_FND_REGISTER_MASTER_INTERFACE_EX
  | DCMD_FND_MASTER_PING_ID => decide (cmd.arg.size ≤ nBytes)
  | DCMD_FND_GET_INTERFACELIST | DCMD_FND_MATCH_INTERFACELIST => true
  | _ => nBytes == cmd.arg.size

end Dcmd

/-- `DCMD_FND_MASTER_PING`, `__DION(_DCMD_MISC, 31)`. -/
def DCMD_FND_MASTER_PING : Nat := Dcmd.DCMD_MISC * 2 ^ 8 + 31

/-- The union a request is received into. -/
def Layout.rcvBuffer : CType :=
  .union [("sbVersion", .struct SFNDInterfaceVersion),
    ("ifRegisterArg", SFNDInterfaceRegisterArg),
    ("ifRegisterExArg", SFNDInterfaceRegisterExArg),
    ("ifRegisterGroupIDArg", SFNDInterfaceRegisterGroupIDArg),
    ("ifUnregisterArg", SFNDInterfaceUnregisterArg),
    ("ifAttachArg", SFNDInterfaceAttachArg),
    ("ifAttachExtendedArg", SFNDInterfaceAttachExtendedArg),
    ("getServerInformationArg", SFNDGetServerInformation),
    ("ifDetachArg", SFNDInterfaceDetachArg),
    ("notifyServerDisconnectArg", SFNDNotifyServerDisconnectArg),
    ("notifyClientDetachArg", SFNDNotifyClientDetachArg),
    ("notifyServerAvailableArg", SFNDNotifyServerAvailableArg),
    ("notifyServerAvailableExArg", SFNDNotifyServerAvailableExArg),
    ("clearNotificationArg", SFNDClearNotificationArg),
    ("ifRegisterMasterExArg", SFNDInterfaceRegisterMasterExArg),
    ("ifGetInterfaceListArg", SFNDGetInterfaceListArg),
    ("notifyInterfaceListChangeArg", SFNDNotifyInterfaceListChangeArg),
    ("ifMatchInterfaceListArg", SFNDMatchInterfaceListArg),
    ("notifyInterfaceListMatchArg", SFNDNotifyInterfaceListMatchArg),
    ("masterPingIdArg", SFNDMasterPingIdArg)]

/-! ## Reading the arguments -/

def readUInt32 (mem : List UInt8) : UInt32 := UInt32.ofNat (readNat 4 mem)

def readInt32 (mem : List UInt8) : Int32 := (readUInt32 mem).toInt32

def readPartyID (mem : List UInt8) : SPartyID where
  localID := readUInt32 (member Layout.SPartyID.s "localID" mem)
  extendedID := readUInt32 (member Layout.SPartyID.s "extendedID" mem)

def readPulse (mem : List UInt8) : SFNDPulseInfo where
  code := readUInt32 (member Layout.SFNDPulseInfo "code" mem)
  value := readUInt32 (member Layout.SFNDPulseInfo "value" mem)
  chid := readInt32 (member Layout.SFNDPulseInfo "chid" mem)
  pid := readUInt32 (member Layout.SFNDPulseInfo "pid" mem)

/-- `InterfaceDescription(const SFNDInterfaceDescription&)`: a name that is not
terminated goes on behind its array, here to the end of the buffer at most. -/
def readDescription (mem : List UInt8) : InterfaceDescription :=
  let version (f : String) := readNat 2
    (member Layout.SFNDInterfaceVersion f (member Layout.SFNDInterfaceDescription "version" mem))
  { name := cstring (member Layout.SFNDInterfaceDescription "name" mem)
    majorVersion := Int32.ofNat (version "majorVersion")
    minorVersion := Int32.ofNat (version "minorVersion") }

def readDescriptionEx (mem : List UInt8) : SFNDInterfaceDescriptionEx :=
  let field (f : String) := member Layout.SFNDInterfaceDescriptionEx f mem
  { chid := readInt32 (field "chid")
    pid := readUInt32 (field "pid")
    nd := readUInt32 (field "nd")
    serverID := readPartyID (field "serverID")
    ifDescription := readDescription (field "ifDescription") }

def readNotification (mem : List UInt8) : SFNDNotificationDescription :=
  let field (f : String) := member Layout.SFNDNotificationDescription f mem
  { cookie := readUInt32 (field "cookie")
    pulse := readPulse (field "pulse")
    ifDescription := readDescription (field "ifDescription") }

/-! ## Receiving -/

/-- What the memory holds that nothing was received into: the receive buffer, the
record of a handler in front of its `i`-th read, and the uninitialised pulse of
`Request.attachInterfaceExtended`. -/
structure Stale where
  rcvBuffer : Nat → UInt8
  record : Nat → Nat → UInt8
  pulse : SFNDPulseInfo
  deriving Inhabited

/-- `AutoBuffer::read`, with the offset counted behind the frame: the bytes copied,
of which there is at least one, and fewer than asked for at the end of the body. -/
def AutoBuffer.read (body : List UInt8) (len offset : Nat) : Option (List UInt8) :=
  let rc := if len + offset ≤ body.length then len else body.length - offset
  if 0 < rc then some ((body.drop offset).take rc) else none

/-- The records of type `ms` that `readAncillaryData` delivers behind `offset`. -/
def ancillaryData (stale : Stale) (body : List UInt8) (ms : Members) (offset : Nat) :
    List (List UInt8) :=
  let len := (CType.struct ms).size
  (List.range ((body.length - offset + (len - 1)) / len)).map fun i =>
    memcpy len (stale.record i) (((AutoBuffer.read body len (offset + i * len))).getD [])

/-- The handler of a command with its arguments, which it takes from the receive
buffer `arg` and behind the argument from `body`. -/
def Dcmd.handler (stale : Stale) (body arg : List UInt8) : Dcmd → Request
  | .DCMD_FND_REGISTER_INTERFACE =>
      let i := Layout.SFNDInterfaceRegisterArg.i
      .registerInterface (readDescription (member i "ifDescription" arg))
        (readUInt32 (member i "pid" arg)) (readInt32 (member i "chid" arg))
  | .DCMD_FND_REGISTER_INTERFACE_EX =>
      let i := Layout.SFNDInterfaceRegisterExArg.i
      .registerInterfaceEx (readInt32 (member i "ifCount" arg)) (readUInt32 (member i "pid" arg))
        (readInt32 (member i "chid" arg))
        ((ancillaryData stale body Layout.SFNDInterfaceDescription (CType.struct i).size).map
          readDescription)
  | .DCMD_FND_REGISTER_INTERFACE_GROUPID =>
      let i := Layout.SFNDInterfaceRegisterGroupIDArg.i
      .registerInterfaceGroupID (readDescription (member i "ifDescription" arg))
        (readUInt32 (member i "pid" arg)) (readInt32 (member i "chid" arg))
        (readInt32 (member i "grpid" arg))
  | .DCMD_FND_UNREGISTER_INTERFACE =>
      .unregisterInterface
        (readPartyID (member Layout.SFNDInterfaceUnregisterArg.i "serverID" arg))
  | .DCMD_FND_ATTACH_INTERFACE =>
      .attachInterface
        (readDescription (member Layout.SFNDInterfaceAttachArg.i "ifDescription" arg))
  | .DCMD_FND_ATTACH_INTERFACE_EXTENDED =>
      let i := Layout.SFNDInterfaceAttachExtendedArg.i
      .attachInterfaceExtended (readPulse (member i "pulse" arg))
        (readDescription (member i "ifDescription" arg)) stale.pulse
  | .DCMD_FND_GET_SERVER_INFORMATION =>
      .getServerInformation
        (readDescription (member Layout.SFNDGetServerInformation.i "ifDescription" arg))
  | .DCMD_FND_DETACH_INTERFACE =>
      .detachInterface (readPartyID (member Layout.SFNDInterfaceDetachArg.i "clientID" arg))
  | .DCMD_FND_NOTIFY_SERVER_DISCONNECT =>
      let i := Layout.SFNDNotifyServerDisconnectArg.i
      .notifyServerDisconnect (readPartyID (member i "serverID" arg))
        (readPulse (member i "pulse" arg))
  | .DCMD_FND_NOTIFY_SERVER_AVAILABLE =>
      let i := Layout.SFNDNotifyServerAvailableArg.i
      .notifyServerAvailable (readPulse (member i "pulse" arg))
        (readDescription (member i "ifDescription" arg))
  | .DCMD_FND_NOTIFY_SERVER_AVAILABLE_EX =>
      let i := Layout.SFNDNotifyServerAvailableExArg.i
      .notifyServerAvailableEx (readInt32 (member i "count" arg))
        ((ancillaryData stale body Layout.SFNDNotificationDescription (CType.struct i).size).map
          readNotification)
  | .DCMD_FND_NOTIFY_CLIENT_DETACH =>
      let i := Layout.SFNDNotifyClientDetachArg.i
      .notifyClientDetach (readPartyID (member i "clientID" arg)) (readPulse (member i "pulse" arg))
  | .DCMD_FND_CLEAR_NOTIFICATION =>
      .clearNotification
        (readUInt32 (member Layout.SFNDClearNotificationArg.i "notificationID" arg))
  | .DCMD_FND_REGISTER_MASTER_INTERFACE_EX =>
      let i := Layout.SFNDInterfaceRegisterMasterExArg.i
      .registerMasterInterfaceEx (readInt32 (member i "ifCount" arg))
        ((ancillaryData stale body Layout.SFNDInterfaceDescriptionEx (CType.struct i).size).map
          readDescriptionEx)
  | .DCMD_FND_GET_INTERFACELIST =>
      .getInterfaceList (readInt32 (member Layout.SFNDGetInterfaceListArg.i "inElementCount" arg))
  | .DCMD_FND_NOTIFY_INTERFACELIST_CHANGE =>
      .notifyInterfaceListChange
        (readPulse (member Layout.SFNDNotifyInterfaceListChangeArg.i "pulse" arg))
  | .DCMD_FND_MATCH_INTERFACELIST =>
      let i := Layout.SFNDMatchInterfaceListArg.i
      .matchInterfaceList (readInt32 (member i "inElementCount" arg))
        (cstring (member i "regExpr" arg))
  | .DCMD_FND_NOTIFY_INTERFACELIST_MATCH =>
      let i := Layout.SFNDNotifyInterfaceListMatchArg.i
      .notifyInterfaceListMatch (readPulse (member i "pulse" arg))
        (cstring (member i "regExpr" arg))
  | .DCMD_FND_MASTER_PING_ID =>
      .masterPingId (readUInt32 (member Layout.SFNDMasterPingIdArg.i "id" arg))

/-- `Servicebroker::check(SFNDInterfaceVersion)`. -/
def checkVersion (mem : List UInt8) : Bool :=
  readNat 2 (member Layout.SFNDInterfaceVersion "majorVersion" mem) ==
      DSI_SERVICEBROKER_VERSION_MAJOR &&
    decide (readNat 2 (member Layout.SFNDInterfaceVersion "minorVersion" mem) ≤
      DSI_SERVICEBROKER_VERSION_MINOR)

/-- `Servicebroker::dispatch` up to the handler, on the body of a request. -/
def Servicebroker.dispatch (stale : Stale) (cmd : Nat) (body : List UInt8) : Request :=
  if cmd = DCMD_FND_MASTER_PING then .masterPing
  else
    match Dcmd.ofCode? cmd with
    | none => .malformed
    | some cmd =>
        match AutoBuffer.read body Layout.rcvBuffer.size 0 with
        | none => .malformed
        | some received =>
            let rcvBuffer := memcpy Layout.rcvBuffer.size stale.rcvBuffer received
            if (CType.struct Layout.SFNDInterfaceVersion).size ≤ received.length ∧
                checkVersion rcvBuffer then
              if cmd.lengthTest received.length then cmd.handler stale body rcvBuffer
              else .malformed
            else .badFoundationVersion

/-- `SB_FRAME_MAGIC`. -/
def SB_FRAME_MAGIC : Nat := 1263682131

/-- `handleRead` and `eval`: the first request of a connection that delivered
`stream`.  There is none while the frame is incomplete, which it stays if its size
is negative; a wrong magic closes the connection. -/
def receive (stale : Stale) (stream : List UInt8) : Option Request :=
  let f := Layout.sb_request_frame
  let envelope := member f "fr_envelope" stream
  let fr_size := (readInt32 (member Layout.sb_frame "fr_size" envelope)).toInt
  let body := stream.drop (CType.struct f).size
  if stream.length < (CType.struct f).size then none
  else if readNat 4 (member Layout.sb_frame "fr_magic" envelope) ≠ SB_FRAME_MAGIC then none
  else if 0 ≤ fr_size ∧ fr_size ≤ body.length then
    some (Servicebroker.dispatch stale (readNat 4 (member f "fr_cmd" stream))
      (body.take fr_size.toNat))
  else none

end Dsi
