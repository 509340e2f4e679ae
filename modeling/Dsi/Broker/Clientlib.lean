import Dsi.Broker.Dispatch
import Dsi.Broker.Tables

/-!
# Dsi.Broker.Clientlib

The calls of the client library (`servicebroker/clientlib.c`) and the request frames
they send (`servicebroker/clientIo.cpp`), against the dispatcher of the broker that
receives them.

A call fills the input half of its argument union and sends `sizeof(arg.i)` bytes of
it, while the dispatcher measures most requests with the size of the whole union.
`Call.Agrees` says that the broker takes a frame for what the caller asked, and
`Call.Transports` which calls that is true of.
-/

namespace Dsi

open CLayout LittleEndian

/-! ## What a caller passes -/

/-- A C string of a caller that `NAME_MAX` allows. -/
structure Name where
  chars : CString
  noNul : 0 ∉ chars
  length_le : chars.length ≤ NAME_MAX

/-- `SFNDInterfaceDescription` in the memory of a caller, with a terminated name. -/
structure SFNDInterfaceDescription where
  majorVersion : UInt16
  minorVersion : UInt16
  name : List UInt8
  length_name : name.length = NAME_MAX + 1
  terminated : 0 ∈ name

/-- The descriptions a caller counts with an `int`. -/
abbrev Descriptions := { ifDescr : List SFNDInterfaceDescription // ifDescr.length < 2 ^ 31 }

/-- The process of a caller: its ID and its view of the group database. -/
structure Process where
  getpid : UInt32
  getgrnam : CString → Option Int32

/-- The calls that talk to the broker, with arguments that are not `NULL`; a group
name and a regular expression may be. -/
inductive Call where
  | SBRegisterInterface (ifName : Name) (majorVersion minorVersion : Int32) (chid : Int32)
  | SBRegisterInterfaceTCP (ifName : Name) (majorVersion minorVersion : Int32)
      (ipaddress : UInt32) (port : UInt16)
  | SBRegisterGroupInterface (ifName : Name) (majorVersion minorVersion : Int32) (chid : Int32)
      (groupName : Option CString)
  | SBRegisterInterfaceEx (ifDescr : Descriptions) (chid : Int32)
  | SBRegisterInterfaceExTCP (ifDescr : Descriptions) (ipaddress : UInt32) (port : UInt16)
  | SBUnregisterInterface (serverId : SPartyID)
  | SBAttachInterface (ifName : Name) (majorVersion minorVersion : Int32)
  | SBAttachInterfaceExtended (ifName : Name) (majorVersion minorVersion : Int32)
      (chid code value : Int32)
  | SBGetServerInformation (ifName : Name) (majorVersion minorVersion : Int32)
  | SBAttachInterfaceTCP (ifName : Name) (majorVersion minorVersion : Int32)
  | SBDetachInterface (clientId : SPartyID)
  | SBSetClientDetachNotification (clientID : SPartyID) (chid code value : Int32)
  | SBSetServerAvailableNotification (ifName : Name) (majorVersion minorVersion : Int32)
      (chid code value : Int32)
  | SBSetServerDisconnectNotification (serverID : SPartyID) (chid code value : Int32)
  | SBClearNotification (notificationID : UInt32)
  | SBGetInterfaceList (inCount : Int32)
  | SBSetInterfaceListChangeNotification (chid code value : Int32)
  | SBMatchInterfaceList (regExpr : Option Name) (inCount : Int32)
  | SBSetInterfaceMatchChangeNotification (regExpr : Option Name) (chid code value : Int32)

/-! ## Filling the argument -/

def uint32Bytes (x : UInt32) : List UInt8 := bytes 4 x.toNat

def int32Bytes (x : Int32) : List UInt8 := uint32Bytes x.toUInt32

def partyIDBytes (id : SPartyID) : List UInt8 :=
  object Layout.SPartyID.s
    [("localID", uint32Bytes id.localID), ("extendedID", uint32Bytes id.extendedID)]

/-- A version, of which the low 16 bits are kept. -/
def versionBytes (majorVersion minorVersion : Nat) : List UInt8 :=
  object Layout.SFNDInterfaceVersion
    [("majorVersion", bytes 2 majorVersion), ("minorVersion", bytes 2 minorVersion)]

/-- The version of the client library. -/
def sbVersion : List UInt8 :=
  versionBytes DSI_SERVICEBROKER_VERSION_MAJOR DSI_SERVICEBROKER_VERSION_MINOR

/-- `INIT_ARGUMENT` and the assignments that follow it. -/
def argument (i : Members) (vs : List (String × List UInt8)) : List UInt8 :=
  object i (("sbVersion", sbVersion) :: vs)

/-- The description with the array `name`. -/
def descriptionBytes (name : List UInt8) (majorVersion minorVersion : Nat) : List UInt8 :=
  object Layout.SFNDInterfaceDescription
    [("version", versionBytes majorVersion minorVersion), ("name", name)]

/-- `FILL_DESCRIPTION`. -/
def FILL_DESCRIPTION (ifname : Name) (major minor : Int32) : List UInt8 :=
  descriptionBytes (strncpy (NAME_MAX + 1) ifname.chars) major.toUInt32.toNat minor.toUInt32.toNat

/-- `FILL_DESCRIPTION_TCP`.  The copy of a name that leaves no room for the suffix is
cut; the terminating NUL then goes behind the array, on a byte that is zero already
or that is not sent. -/
def FILL_DESCRIPTION_TCP (ifname : Name) (major minor : Int32) : List UInt8 :=
  let name := strncpy (NAME_MAX + 1 - 4) ifname.chars ++ List.replicate 4 0
  descriptionBytes ((strcat name tcpSuffix).take (NAME_MAX + 1)) major.toUInt32.toNat
    minor.toUInt32.toNat

/-- The fields that the notification calls set of a pulse. -/
def pulseBytes (p : Process) (chid code value : Int32) : List UInt8 :=
  object Layout.SFNDPulseInfo
    [("chid", int32Bytes chid), ("pid", uint32Bytes p.getpid), ("code", int32Bytes code),
      ("value", int32Bytes value)]

/-- `gr_gid` of the group, or `SB_UNKNOWN_GROUP_ID` without one; `none` if there is no
group of that name. -/
def Process.grpid? (p : Process) : Option CString → Option Int32
  | none => some SB_UNKNOWN_GROUP_ID
  | some groupName => p.getgrnam groupName

/-- A regular expression as the calls copy it, nothing if it is `NULL`. -/
def regExprBytes : Option Name → List UInt8
  | none => []
  | some regExpr => strncpy (NAME_MAX + 1) regExpr.chars

namespace SFNDInterfaceDescription

def bytes (d : SFNDInterfaceDescription) : List UInt8 :=
  descriptionBytes d.name d.majorVersion.toNat d.minorVersion.toNat

/-- The description with its name as a C string. -/
def toInterfaceDescription (d : SFNDInterfaceDescription) : InterfaceDescription :=
  ⟨cstring d.name, Int32.ofNat d.majorVersion.toNat, Int32.ofNat d.minorVersion.toNat⟩

/-- The array that `SBRegisterInterfaceExTCP` makes of a name: the suffix is appended
where it fits, a longer name is invalidated. -/
def tcpName (d : SFNDInterfaceDescription) : List UInt8 :=
  if (cstring d.name).length ≤ NAME_MAX - 4 then strcat d.name tcpSuffix else d.name.set 0 0

def tcpBytes (d : SFNDInterfaceDescription) : List UInt8 :=
  descriptionBytes d.tcpName d.majorVersion.toNat d.minorVersion.toNat

end SFNDInterfaceDescription

/-- The two parts that `SBRegisterInterfaceEx` and `SBRegisterInterfaceExTCP` send: the
argument, and the descriptions as `record` leaves them. -/
def registerExBody (chid : Int32) (pid : UInt32) (ifDescr : Descriptions)
    (record : SFNDInterfaceDescription → List UInt8) : List UInt8 :=
  argument Layout.SFNDInterfaceRegisterExArg.i
    [("chid", int32Bytes chid), ("pid", uint32Bytes pid),
      ("ifCount", int32Bytes (Int32.ofNat ifDescr.val.length))] ++
  ifDescr.val.flatMap record

/-! ## Sending -/

/-- `sendAndReceiveV`: the frame in front of the body it announces. -/
def requestFrame (cmd : Dcmd) (body : List UInt8) : List UInt8 :=
  object Layout.sb_request_frame
    [("fr_envelope", object Layout.sb_frame
      [("fr_magic", bytes 4 SB_FRAME_MAGIC), ("fr_size", bytes 4 body.length)]),
      ("fr_cmd", bytes 4 cmd.code)] ++ body

namespace Call

/-- The request frame a call sends, if its arguments pass the checks in front of it. -/
def frame (p : Process) : Call → Option (List UInt8)
  | SBRegisterInterface ifName major minor chid =>
      some (requestFrame .DCMD_FND_REGISTER_INTERFACE
        (argument Layout.SFNDInterfaceRegisterArg.i
          [("ifDescription", FILL_DESCRIPTION ifName major minor), ("chid", int32Bytes chid),
            ("pid", uint32Bytes p.getpid)]))
  | SBRegisterInterfaceTCP ifName major minor ipaddress port =>
      some (requestFrame .DCMD_FND_REGISTER_INTERFACE
        (argument Layout.SFNDInterfaceRegisterArg.i
          [("ifDescription", FILL_DESCRIPTION_TCP ifName major minor),
            ("chid", int32Bytes (Int32.ofNat port.toNat)), ("pid", uint32Bytes ipaddress)]))
  | SBRegisterGroupInterface ifName major minor chid groupName =>
      (p.grpid? groupName).map fun grpid =>
        requestFrame .DCMD_FND_REGISTER_INTERFACE_GROUPID
          (argument Layout.SFNDInterfaceRegisterGroupIDArg.i
            [("ifDescription", FILL_DESCRIPTION ifName major minor), ("chid", int32Bytes chid),
              ("pid", uint32Bytes p.getpid), ("grpid", int32Bytes grpid)])
  | SBRegisterInterfaceEx ifDescr chid =>
      some (requestFrame .DCMD_FND_REGISTER_INTERFACE_EX
        (registerExBody chid p.getpid ifDescr SFNDInterfaceDescription.bytes))
  | SBRegisterInterfaceExTCP ifDescr ipaddress port =>
      if 0 < ifDescr.val.length then
        some (requestFrame .DCMD_FND_REGISTER_INTERFACE_EX
          (registerExBody (Int32.ofNat port.toNat) ipaddress ifDescr
            SFNDInterfaceDescription.tcpBytes))
      else none
  | SBUnregisterInterface serverId =>
      some (requestFrame .DCMD_FND_UNREGISTER_INTERFACE
        (argument Layout.SFNDInterfaceUnregisterArg.i [("serverID", partyIDBytes serverId)]))
  | SBAttachInterface ifName major minor =>
      some (requestFrame .DCMD_FND_ATTACH_INTERFACE
        (argument Layout.SFNDInterfaceAttachArg.i
          [("ifDescription", FILL_DESCRIPTION ifName major minor)]))
  | SBAttachInterfaceExtended ifName major minor chid code value =>
      some (requestFrame .DCMD_FND_ATTACH_INTERFACE_EXTENDED
        (argument Layout.SFNDInterfaceAttachExtendedArg.i
          [("pulse", pulseBytes p chid code value),
            ("ifDescription", FILL_DESCRIPTION ifName major minor)]))
  | SBGetServerInformation ifName major minor =>
      some (requestFrame .DCMD_FND_GET_SERVER_INFORMATION
        (argument Layout.SFNDGetServerInformation.i
          [("ifDescription", FILL_DESCRIPTION ifName major minor)]))
  | SBAttachInterfaceTCP ifName major minor =>
      some (requestFrame .DCMD_FND_ATTACH_INTERFACE
        (argument Layout.SFNDInterfaceAttachArg.i
          [("ifDescription", FILL_DESCRIPTION_TCP ifName major minor)]))
  | SBDetachInterface clientId =>
      some (requestFrame .DCMD_FND_DETACH_INTERFACE
        (argument Layout.SFNDInterfaceDetachArg.i [("clientID", partyIDBytes clientId)]))
  | SBSetClientDetachNotification clientID chid code value =>
      some (requestFrame .DCMD_FND_NOTIFY_CLIENT_DETACH
        (argument Layout.SFNDNotifyClientDetachArg.i
          [("clientID", partyIDBytes clientID), ("pulse", pulseBytes p chid code value)]))
  | SBSetServerAvailableNotification ifName major minor chid code value =>
      some (requestFrame .DCMD_FND_NOTIFY_SERVER_AVAILABLE
        (argument Layout.SFNDNotifyServerAvailableArg.i
          [("ifDescription", FILL_DESCRIPTION ifName major minor),
            ("pulse", pulseBytes p chid code value)]))
  | SBSetServerDisconnectNotification serverID chid code value =>
      some (requestFrame .DCMD_FND_NOTIFY_SERVER_DISCONNECT
        (argument Layout.SFNDNotifyServerDisconnectArg.i
          [("serverID", partyIDBytes serverID), ("pulse", pulseBytes p chid code value)]))
  | SBClearNotification notificationID =>
      some (requestFrame .DCMD_FND_CLEAR_NOTIFICATION
        (argument Layout.SFNDClearNotificationArg.i
          [("notificationID", uint32Bytes notificationID)]))
  | SBGetInterfaceList inCount =>
      if 0 < inCount then
        some (requestFrame .DCMD_FND_GET_INTERFACELIST
          (argument Layout.SFNDGetInterfaceListArg.i [("inElementCount", int32Bytes inCount)]))
      else none
  | SBSetInterfaceListChangeNotification chid code value =>
      some (requestFrame .DCMD_FND_NOTIFY_INTERFACELIST_CHANGE
        (argument Layout.SFNDNotifyInterfaceListChangeArg.i
          [("pulse", pulseBytes p chid code value)]))
  | SBMatchInterfaceList regExpr inCount =>
      if 0 < inCount then
        some (requestFrame .DCMD_FND_MATCH_INTERFACELIST
          (argument Layout.SFNDMatchInterfaceListArg.i
            [("inElementCount", int32Bytes inCount), ("regExpr", regExprBytes regExpr)]))
      else none
  | SBSetInterfaceMatchChangeNotification regExpr chid code value =>
      some (requestFrame .DCMD_FND_NOTIFY_INTERFACELIST_MATCH
        (argument Layout.SFNDNotifyInterfaceListMatchArg.i
          [("pulse", pulseBytes p chid code value), ("regExpr", regExprBytes regExpr)]))

/-! ## Agreement -/

/-- The pulse of a caller. -/
def pulse (p : Process) (chid code value : Int32) : SFNDPulseInfo :=
  ⟨code.toUInt32, value.toUInt32, chid, p.getpid⟩

/-- The handler that the command of a call names, with the values of the caller.  A
TCP call is about the interface with the suffix in its name. -/
def request (p : Process) (stackPulse : SFNDPulseInfo) : Call → Request
  | SBRegisterInterface ifName major minor chid =>
      .registerInterface ⟨ifName.chars, major, minor⟩ p.getpid chid
  | SBRegisterInterfaceTCP ifName major minor ipaddress port =>
      .registerInterface ⟨ifName.chars ++ tcpSuffix, major, minor⟩ ipaddress
        (Int32.ofNat port.toNat)
  | SBRegisterGroupInterface ifName major minor chid groupName =>
      .registerInterfaceGroupID ⟨ifName.chars, major, minor⟩ p.getpid chid
        ((p.grpid? groupName).getD SB_UNKNOWN_GROUP_ID)
  | SBRegisterInterfaceEx ifDescr chid =>
      .registerInterfaceEx (Int32.ofNat ifDescr.val.length) p.getpid chid
        (ifDescr.val.map (·.toInterfaceDescription))
  | SBRegisterInterfaceExTCP ifDescr ipaddress port =>
      .registerInterfaceEx (Int32.ofNat ifDescr.val.length) ipaddress (Int32.ofNat port.toNat)
        (ifDescr.val.map fun d =>
          let d := d.toInterfaceDescription
          { d with name := d.name ++ tcpSuffix })
  | SBUnregisterInterface serverId => .unregisterInterface serverId
  | SBAttachInterface ifName major minor => .attachInterface ⟨ifName.chars, major, minor⟩
  | SBAttachInterfaceExtended ifName major minor chid code value =>
      .attachInterfaceExtended (pulse p chid code value) ⟨ifName.chars, major, minor⟩ stackPulse
  | SBGetServerInformation ifName major minor =>
      .getServerInformation ⟨ifName.chars, major, minor⟩
  | SBAttachInterfaceTCP ifName major minor =>
      .attachInterface ⟨ifName.chars ++ tcpSuffix, major, minor⟩
  | SBDetachInterface clientId => .detachInterface clientId
  | SBSetClientDetachNotification clientID chid code value =>
      .notifyClientDetach clientID (pulse p chid code value)
  | SBSetServerAvailableNotification ifName major minor chid code value =>
      .notifyServerAvailable (pulse p chid code value) ⟨ifName.chars, major, minor⟩
  | SBSetServerDisconnectNotification serverID chid code value =>
      .notifyServerDisconnect serverID (pulse p chid code value)
  | SBClearNotification notificationID => .clearNotification notificationID
  | SBGetInterfaceList inCount => .getInterfaceList inCount
  | SBSetInterfaceListChangeNotification chid code value =>
      .notifyInterfaceListChange (pulse p chid code value)
  | SBMatchInterfaceList regExpr inCount =>
      .matchInterfaceList inCount ((regExpr.map Name.chars).getD [])
  | SBSetInterfaceMatchChangeNotification regExpr chid code value =>
      .notifyInterfaceListMatch (pulse p chid code value) ((regExpr.map Name.chars).getD [])

/-- The broker takes the frame a call sends, if it sends one, for the request of the
call, whatever its memory held before. -/
def Agrees (p : Process) (c : Call) : Prop :=
  ∀ stream, c.frame p = some stream →
    ∀ stale : Stale, receive stale stream = some (c.request p stale.pulse)

/-- A version that the description of an interface can hold. -/
def FitsVersion (version : Int32) : Prop := 0 ≤ version.toInt ∧ version.toInt < 2 ^ 16

/-- The list of interfaces fits behind its argument into a frame. -/
def FitsFrame (ifDescr : Descriptions) : Prop :=
  (CType.struct Layout.SFNDInterfaceRegisterExArg.i).size +
    ifDescr.val.length * (CType.struct Layout.SFNDInterfaceDescription).size < 2 ^ 31

/-- When a call reaches its handler unchanged: its versions fit into 16 bits, its TCP
names leave room for the suffix, its list of interfaces is not empty and not longer than
the size field of a frame can say, and it registers for no group.  A call that sends
nothing asks nothing. -/
def Transports (p : Process) : Call → Prop
  | SBRegisterInterface _ major minor _ | SBAttachInterface _ major minor
  | SBAttachInterfaceExtended _ major minor .. | SBGetServerInformation _ major minor
  | SBSetServerAvailableNotification _ major minor .. => FitsVersion major ∧ FitsVersion minor
  | SBRegisterInterfaceTCP ifName major minor .. =>
      ifName.chars.length ≤ NAME_MAX + 1 - 4 ∧ FitsVersion major ∧ FitsVersion minor
  | SBAttachInterfaceTCP ifName major minor =>
      ifName.chars.length ≤ NAME_MAX - 4 ∧ FitsVersion major ∧ FitsVersion minor
  | SBRegisterGroupInterface _ _ _ _ groupName => p.grpid? groupName = none
  | SBRegisterInterfaceEx ifDescr _ => 0 < ifDescr.val.length ∧ FitsFrame ifDescr
  | SBRegisterInterfaceExTCP ifDescr .. =>
      (∀ d ∈ ifDescr.val, (cstring d.name).length ≤ NAME_MAX - 4) ∧ FitsFrame ifDescr
  | _ => True

end Call

end Dsi
