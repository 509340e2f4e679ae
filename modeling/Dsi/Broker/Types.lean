import Dsi.Message

/-!
# Dsi.Broker.Types

The values the servicebroker passes around: interface descriptions, pulses,
return codes, requests, responses and the jobs a slave sends to its master
(`include/dsi/private/servicebroker.h`, `servicebroker/JobQueue.hpp`).

A request is taken behind the length tests of `Servicebroker::dispatch`, as the
input half of its argument union.  The multi-record requests carry the announced
count and the records that successive calls of `readAncillaryData` deliver; a
call behind the last of them fails.
-/

namespace Dsi

/-! ## Descriptions and codes -/

/-- A C string: the bytes in front of the terminating NUL. -/
abbrev CString := List UInt8

/-- `InterfaceDescription`, and `SFNDInterfaceDescription` with its name read as
a C string: the two are converted into each other at every call. -/
structure InterfaceDescription where
  name : CString
  majorVersion : Int32
  minorVersion : Int32
  deriving DecidableEq, Repr, Inhabited

/-- `SFNDPulseInfo`. -/
structure SFNDPulseInfo where
  code : UInt32
  value : UInt32
  chid : Int32
  pid : UInt32
  deriving DecidableEq, Repr, Inhabited

/-- `SFNDChannelInfo`. -/
structure SFNDChannelInfo where
  nid : UInt32
  pid : UInt32
  chid : Int32
  deriving DecidableEq, Repr, Inhabited

/-- `SConnectionInfo`. -/
structure SConnectionInfo where
  majorVersion : Int32
  minorVersion : Int32
  channel : SFNDChannelInfo
  serverID : SPartyID
  clientID : SPartyID
  deriving DecidableEq, Repr, Inhabited

/-- `SServerInfo`. -/
structure SServerInfo where
  channel : SFNDChannelInfo
  serverID : SPartyID
  deriving DecidableEq, Repr, Inhabited

/-- `SFNDInterfaceDescriptionEx`, a record of `REGISTER_MASTER_INTERFACE_EX`. -/
structure SFNDInterfaceDescriptionEx where
  chid : Int32
  pid : UInt32
  nd : UInt32
  serverID : SPartyID
  ifDescription : InterfaceDescription
  deriving DecidableEq, Repr, Inhabited

/-- `SFNDNotificationDescription`, a record of `NOTIFY_SERVER_AVAILABLE_EX`. -/
structure SFNDNotificationDescription where
  cookie : UInt32
  pulse : SFNDPulseInfo
  ifDescription : InterfaceDescription
  deriving DecidableEq, Repr, Inhabited

/-- `SFNDNotificationID`, what `NOTIFY_SERVER_AVAILABLE_EX` returns per record. -/
structure SFNDNotificationID where
  cookie : UInt32
  notificationID : UInt32
  deriving DecidableEq, Repr, Inhabited

/-- `SBStatus`. -/
inductive SBStatus where
  | FNDOK
  | FNDVersionMismatch
  | FNDUnknownInterface
  | FNDInterfaceAlreadyRegistered
  | FNDInvalidServerID
  | FNDInvalidClientID
  | FNDInvalidNotificationID
  | FNDBadArgument
  | FNDBadFoundationVersion
  | FNDRegularExpression
  | FNDAccessDenied
  | FNDUnknownCommand
  | FNDInternalError
  deriving DecidableEq, Repr

/-- The number of a status, as it stands in a response. -/
def SBStatus.toInt : SBStatus → Int
  | .FNDOK => 0
  | .FNDVersionMismatch => 1
  | .FNDUnknownInterface => 2
  | .FNDInterfaceAlreadyRegistered => 3
  | .FNDInvalidServerID => 4
  | .FNDInvalidClientID => 5
  | .FNDInvalidNotificationID => 6
  | .FNDBadArgument => 7
  | .FNDBadFoundationVersion => 8
  | .FNDRegularExpression => 9
  | .FNDAccessDenied => 10
  | .FNDUnknownCommand => 11
  | .FNDInternalError => 12

/-- `Notification::INVALID_NOTIFICATION_ID`. -/
def INVALID_NOTIFICATION_ID : UInt32 := 0xffffffff

/-- `SB_LOCAL_NODE_ADDRESS`. -/
def SB_LOCAL_NODE_ADDRESS : UInt32 := 0

/-- `SB_LOCAL_IP_ADDRESS`, 127.0.0.1. -/
def SB_LOCAL_IP_ADDRESS : UInt32 := 0x7f000001

/-- `SB_UNKNOWN_USER_ID`. -/
def SB_UNKNOWN_USER_ID : Int32 := -1

/-- `SB_UNKNOWN_GROUP_ID`. -/
def SB_UNKNOWN_GROUP_ID : Int32 := -1

/-- `NAME_MAX`. -/
def NAME_MAX : Nat := 255

/-- `MAX_MULTIPLE_COUNT`: the records of one batch. -/
def MAX_MULTIPLE_COUNT : Nat := 32

/-- The pulses a master sends to the slave that set a notification there. -/
inductive MasterPulse where
  | PULSE_MASTER_SERVER_AVAILABLE
  | PULSE_MASTER_SERVER_DISCONNECT
  | PULSE_MASTER_CLIENT_DETACH
  | PULSE_MASTER_SERVERLIST_CHANGE
  | PULSE_MASTER_ATTACH_EXTENDED
  deriving DecidableEq, Repr

/-- The pulse codes of `NotificationList.hpp`. -/
def MasterPulse.code : MasterPulse → UInt32
  | .PULSE_MASTER_SERVER_AVAILABLE => 20
  | .PULSE_MASTER_SERVER_DISCONNECT => 21
  | .PULSE_MASTER_CLIENT_DETACH => 22
  | .PULSE_MASTER_SERVERLIST_CHANGE => 23
  | .PULSE_MASTER_ATTACH_EXTENDED => 24

/-! ## Requests and responses -/

/-- The requests a connection can send, with the input half of their arguments.
`stackPulse` of `attachInterfaceExtended` is not sent: it stands for what the
uninitialised pulse of `serverDisconnectArg` holds when the handler is entered. -/
inductive Request where
  | masterPing
  | masterPingId (id : UInt32)
  | registerInterface (ifDescription : InterfaceDescription) (pid : UInt32) (chid : Int32)
  | registerInterfaceEx (ifCount : Int32) (pid : UInt32) (chid : Int32)
      (records : List InterfaceDescription)
  | registerInterfaceGroupID (ifDescription : InterfaceDescription) (pid : UInt32) (chid : Int32)
      (grpid : Int32)
  | registerMasterInterfaceEx (ifCount : Int32) (records : List SFNDInterfaceDescriptionEx)
  | unregisterInterface (serverID : SPartyID)
  | attachInterface (ifDescription : InterfaceDescription)
  | attachInterfaceExtended (pulse : SFNDPulseInfo) (ifDescription : InterfaceDescription)
      (stackPulse : SFNDPulseInfo)
  | getServerInformation (ifDescription : InterfaceDescription)
  | detachInterface (clientID : SPartyID)
  | notifyServerDisconnect (serverID : SPartyID) (pulse : SFNDPulseInfo)
  | notifyServerAvailable (pulse : SFNDPulseInfo) (ifDescription : InterfaceDescription)
  | notifyServerAvailableEx (count : Int32) (records : List SFNDNotificationDescription)
  | notifyClientDetach (clientID : SPartyID) (pulse : SFNDPulseInfo)
  | clearNotification (notificationID : UInt32)
  | getInterfaceList (inElementCount : Int32)
  | notifyInterfaceListChange (pulse : SFNDPulseInfo)
  | matchInterfaceList (inElementCount : Int32) (regExpr : CString)
  | notifyInterfaceListMatch (pulse : SFNDPulseInfo) (regExpr : CString)
  /-- A request that fails the version check. -/
  | badFoundationVersion
  /-- A request of the wrong length, an unreadable one or an unknown command. -/
  | malformed
  deriving DecidableEq, Repr

/-- The payload of a response: the output half of the argument union, or what
`writeAncillaryData` put behind the frame. -/
inductive ResponseBody where
  | empty
  | serverID (id : SPartyID)
  | serverIDs (ids : List SPartyID)
  | connInfo (info : SConnectionInfo)
  /-- `connInfo` is `none` where the union still holds the request there. -/
  | attachExtended (connInfo : Option SConnectionInfo) (notificationID : UInt32)
  | serverInfo (info : SServerInfo)
  | notificationID (id : UInt32)
  | notificationIDs (ids : List SFNDNotificationID)
  | interfaces (descriptions : List InterfaceDescription)
  deriving DecidableEq, Repr

/-- A response frame. -/
structure Response where
  returncode : Int
  body : ResponseBody
  deriving DecidableEq, Repr

/-- `prepareResponse(status)` without data. -/
def Response.status (s : SBStatus) : Response := ⟨s.toInt, .empty⟩

/-! ## Jobs -/

/-- The command of a job together with the input half of its argument. -/
inductive JobArg where
  | attachInterface (ifDescription : InterfaceDescription)
  | attachInterfaceExtended (pulse : SFNDPulseInfo) (ifDescription : InterfaceDescription)
  | getServerInformation (ifDescription : InterfaceDescription)
  | detachInterface (clientID : SPartyID)
  | notifyServerDisconnect (serverID : SPartyID) (pulse : SFNDPulseInfo)
  | notifyServerAvailableEx (records : List SFNDNotificationDescription)
  | notifyClientDetach (clientID : SPartyID) (pulse : SFNDPulseInfo)
  | clearNotification (notificationID : UInt32)
  | unregisterInterface (serverID : SPartyID)
  | registerMasterInterfaceEx (records : List SFNDInterfaceDescriptionEx)
  | getInterfaceList (inElementCount : Int32)
  | matchInterfaceList (inElementCount : Int32) (regExpr : CString)
  | notifyInterfaceListChange (pulse : SFNDPulseInfo)
  | notifyInterfaceListMatch (pulse : SFNDPulseInfo) (regExpr : CString)
  deriving DecidableEq, Repr

/-- `Job`: the connection that waits for the answer, if any, and the cookie. -/
structure Job where
  cookie : UInt32
  ctx : Option Nat
  arg : JobArg
  deriving DecidableEq, Repr

/-- What `sendAndReceive` leaves in a job: the transport status, the return
value of the master, and the argument buffer as each reply handler reads it. -/
structure JobResult where
  status : Int
  ret_val : Int
  connInfo : SConnectionInfo := default
  serverInfo : SServerInfo := default
  notificationID : UInt32 := 0
  notifications : Nat → SFNDNotificationID := fun _ => default
  serverID : Nat → SPartyID := fun _ => default
  interfaceDescriptions : Nat → InterfaceDescription := fun _ => default

/-- What a broker does to the outside: a response, the late response to a
deferred request, a notification that is sent (`delivered` tells whether its
pulse channel could be opened) and a job handed to the master's queue. -/
inductive Output where
  | response (c : Nat) (r : Response)
  | deferredResponse (c : Nat) (r : Response)
  | sent (notificationID : UInt32) (code value : UInt32) (delivered : Bool)
  | job (j : Job)
  deriving DecidableEq, Repr

/-- The notification ID an output sends, if it sends one. -/
def Output.sentID? : Output → Option UInt32
  | .sent id _ _ _ => some id
  | _ => none

/-- The job an output hands to the master, if it hands one over. -/
def Output.job? : Output → Option Job
  | .job j => some j
  | _ => none

end Dsi
