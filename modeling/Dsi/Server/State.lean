import Dsi.Message
import Dsi.Lib.Partial
import Dsi.Lib.Vector

/-!
# Dsi.Server.State

A server of the DSI library (`include/dsi/CServer.hpp`, `base/CServer.cpp`)
together with the stub that the code generator writes for its interface: the
tables of the interface, the data of one `CServer` object, and the operations
that look up and remove notifications, sessions and connections.

What breaks the process off is a `Fault`.  `NDEBUG` tells whether the assertions
are compiled in.
-/

namespace Dsi

namespace CServer

open Sequence

/-! ## Constants -/

/-- `RESPONSE_ID_FIRST`. -/
def RESPONSE_ID_FIRST : UInt32 := 0x80000000

/-- `ATTRIBUTE_ID_FIRST`. -/
def ATTRIBUTE_ID_FIRST : UInt32 := 0xC0000000

/-- `DSI::INVALID_ID`, which is also `UPD_ID_NOP` of every interface. -/
def INVALID_ID : UInt32 := 0xFFFFFFFF

/-- `UPD_ID_implVersion`. -/
def UPD_ID_implVersion : UInt32 := 0xFFFFFFFE

/-- `DSI::INVALID_SEQUENCE_NR`. -/
def INVALID_SEQUENCE_NR : Int32 := 0

/-- `DSI::INVALID_SESSION_ID`. -/
def INVALID_SESSION_ID : Int32 := -1

/-- `DSI_PROTOCOL_VERSION_MINOR`. -/
def DSI_PROTOCOL_VERSION_MINOR : UInt16 := 0

/-- `isAttributeId`. -/
def isAttributeId (id : UInt32) : Bool := ATTRIBUTE_ID_FIRST ≤ id

/-- `isResponseId`. -/
def isResponseId (id : UInt32) : Bool := RESPONSE_ID_FIRST ≤ id && id < ATTRIBUTE_ID_FIRST

/-- `DSI::RequestType`. -/
inductive RequestType where
  | REQUEST
  | REQUEST_NOTIFY
  | REQUEST_STOP_NOTIFY
  | REQUEST_LOAD_COMPONENT
  | REQUEST_STOP_ALL_NOTIFY
  | REQUEST_REGISTER_NOTIFY
  | REQUEST_STOP_REGISTER_NOTIFY
  | REQUEST_STOP_ALL_REGISTER_NOTIFY
  deriving DecidableEq, Repr

/-- `DSI::ResultType`. -/
inductive ResultType where
  | RESULT_OK
  | RESULT_INVALID
  | RESULT_DATA_OK
  | RESULT_DATA_INVALID
  | RESULT_REQUEST_ERROR
  | RESULT_REQUEST_BUSY
  deriving DecidableEq, Repr

/-- `DSI::DataStateType`. -/
inductive DataStateType where
  | DATA_NOT_AVAILABLE
  | DATA_INVALID
  | DATA_OK
  deriving DecidableEq, Repr

/-! ## The interface -/

/-- What the code generator tells apart in `processRequest`. -/
inductive MethodKind where
  | request
  | register
  | unregister
  deriving DecidableEq, Repr

/-- A request method: the update ID of its response, `UPD_ID_NOP` if it has none,
and whether `istream` is without an error when the parameters were read. -/
structure RequestMethod where
  kind : MethodKind
  response : UInt32
  decodes : List UInt8 → Bool
  response_id : response = INVALID_ID ∨ isResponseId response = true

/-- The interface with the environment of the process: the update IDs of the
request methods are their positions, `responseMethods` is the number of its responses.
`grow` is the capacity a full vector of this size gets, `uninitialised` what is found in
the member that the `k`-th copy of a `SessionData` does not initialise. -/
structure Config where
  requestMethods : List RequestMethod
  responseMethods : Nat := 1
  attributes : List UInt32
  mTCPIPEnabled : Bool := false
  NDEBUG : Bool := false
  grow : Nat → Nat := fun n => if n = 0 then 1 else 2 * n
  uninitialised : Nat → UInt32 := fun _ => 0

namespace Config

variable (cfg : Config)

/-- `getResponse` of the stub. -/
def getResponse (requestId : UInt32) : UInt32 :=
  (cfg.requestMethods[requestId.toNat]?.map (·.response)).getD INVALID_ID

/-- `mResponseStateMap` is one word of 64 bits.  The index of a response is its update ID,
of which the word takes the last six bits; in a longer bitset it is the index of a word far
behind the last one. -/
def statesFit : Bool := cfg.responseMethods ≤ 64

/-- The update ID is one of a register method. -/
def isRegister (updateId : UInt32) : Bool :=
  cfg.requestMethods[updateId.toNat]?.any (fun m => m.kind == .register)

end Config

theorem Config.getResponse_id (cfg : Config) (requestId : UInt32) :
    cfg.getResponse requestId = INVALID_ID ∨ isResponseId (cfg.getResponse requestId) = true := by
  rw [Config.getResponse]
  cases cfg.requestMethods[requestId.toNat]? with
  | none => exact Or.inl rfl
  | some m => exact m.response_id

/-! ## The data of a server -/

/-- `SessionData`. -/
structure SessionData where
  sessionId : Int32 := INVALID_SESSION_ID
  clientID : SPartyID
  sequenceNr : Int32 := INVALID_SEQUENCE_NR
  updateId : UInt32 := INVALID_ID
  deriving DecidableEq, Repr

/-- `Notification`.  The update ID of its base class is never read. -/
structure Notification where
  sessionId : Int32 := INVALID_SESSION_ID
  clientID : SPartyID
  sequenceNr : Int32 := INVALID_SEQUENCE_NR
  notifyID : UInt32
  deriving DecidableEq, Repr

/-- `ClientConnection`; `expired` tells whether the channel is gone. -/
structure ClientConnection where
  id : Int32
  clientID : SPartyID
  serverID : SPartyID
  notificationID : UInt32
  channel : Nat
  expired : Bool := false
  protoMinor : UInt16
  deriving DecidableEq, Repr

/-- A data response in the channel of a client, without its payload. -/
structure Message where
  clientID : SPartyID
  serverID : SPartyID
  protoMinor : UInt16
  responseType : ResultType
  requestID : UInt32
  sequenceNumber : Int32
  deriving DecidableEq, Repr

/-- What a server does to the outside: a message to a client, the call of the
user's handler of a request with the session it runs in, the call of the
unregister method that belongs to a register method, and a notification that is
cleared at the servicebroker. -/
inductive Output where
  | message (m : Message)
  | called (requestId : UInt32) (clientID : SPartyID) (sequenceNr : Int32) (sessionId : Int32)
  | unregister (updateId : UInt32) (sessionId : Int32)
  | clearNotification (notificationID : UInt32)
  deriving DecidableEq, Repr

/-- The message of an output, if it is one. -/
def Output.message? : Output → Option Message
  | .message m => some m
  | _ => none

/-- The unregister callback of an output, if it is one. -/
def Output.unregister? : Output → Option (UInt32 × Int32)
  | .unregister updateId sessionId => some (updateId, sessionId)
  | _ => none

/-- What breaks the process off: a vector or bitset indexed outside its elements, a failed
assertion and a member of a null pointer. -/
inductive Fault where
  | outOfRange
  | assertion
  | nullPointer
  deriving DecidableEq, Repr

end CServer

/-- `CServer` with the members of its stub.  `mResponseStateMap` is read by update ID: the
responses of an interface have bits of their own as long as they fit into one word.
`mUnblockedSessions` is kept in the order of insertion, `nextID` is the counter
behind `DSI::createId`, and `copies` numbers the copies of `SessionData`. -/
structure CServer where
  mSessionId : Int32 := CServer.INVALID_SESSION_ID
  mResponseId : UInt32 := CServer.INVALID_ID
  mClientID : SPartyID := ⟨0, 0⟩
  mCurrentSequenceNr : Int32 := CServer.INVALID_SEQUENCE_NR
  mClientConnections : List CServer.ClientConnection := []
  mNotifications : List CServer.Notification := []
  mUnblockedSessions : List (Int32 × CServer.Notification) := []
  mSessions : List CServer.SessionData := []
  mSessionsCapacity : Nat := 0
  mActiveSessions : List Int32 := []
  mResponseStateMap : UInt32 → Bool := fun _ => false
  attributeState : UInt32 → CServer.DataStateType := fun _ => .DATA_NOT_AVAILABLE
  nextID : Nat := 1
  copies : Nat := 0
  log : List CServer.Output := []

namespace CServer

open Sequence

/-! ## Elementary updates -/

/-- Records something the outside sees. -/
def emit (o : Output) (s : CServer) : CServer := { s with log := s.log ++ [o] }

/-- `DSI::createId`. -/
def createId (s : CServer) : Int32 × CServer :=
  ((UInt32.ofNat s.nextID).toInt32, { s with nextID := s.nextID + 1 })

/-- `setResponseState`. -/
def setResponseState (responseId : UInt32) (value : Bool) (s : CServer) : CServer :=
  { s with mResponseStateMap := fun id =>
      if id = responseId then value else s.mResponseStateMap id }

/-- `isResponseDangling`. -/
def isResponseDangling (id : UInt32) (s : CServer) : Bool :=
  id != INVALID_ID && s.mResponseStateMap id

/-- `isSessionActive`. -/
def isSessionActive (sessionId : Int32) (s : CServer) : Bool :=
  s.mActiveSessions.contains sessionId

/-- `getAttributeState` of the stub. -/
def getAttributeState (cfg : Config) (id : UInt32) (s : CServer) : Except Fault DataStateType :=
  if id ∈ cfg.attributes then .ok (s.attributeState id)
  else if id = UPD_ID_implVersion ∨ cfg.NDEBUG then .ok .DATA_NOT_AVAILABLE
  else .error .assertion

/-! ## Notifications -/

/-- The test of `removeNotification`. -/
def isRemoved (id : UInt32) (clientID : SPartyID) (n : Notification) : Bool :=
  SPartyID.opEq n.clientID clientID && (id == INVALID_ID || n.notifyID == id)

/-- `removeNotification`, for a `clientID` that reads as `reread` says behind
an erased element. -/
def removeNotificationBy (reread : SPartyID → List Notification → SPartyID)
    (clientID : SPartyID) (id : UInt32) (s : CServer) : CServer :=
  { s with mNotifications :=
      eraseDown (isRemoved id) reread s.mNotifications.length clientID s.mNotifications }

/-- `removeNotification`. -/
def removeNotification (clientID : SPartyID) (id : UInt32) : CServer → CServer :=
  removeNotificationBy steady clientID id

/-- `removeSessionNotifications`: `std::remove_if` whose result is not erased. -/
def removeSessionNotifications (sessionId : Int32) (s : CServer) : CServer :=
  { s with mNotifications := removeIfShift (fun n => n.sessionId == sessionId) s.mNotifications }

/-! ## Connections -/

/-- `mClientConnections.find`. -/
def findConnection (clientID : SPartyID) (s : CServer) : Option ClientConnection :=
  s.mClientConnections.find? (fun conn => conn.clientID == clientID)

/-- `findClientConnection`; the notifications of a client that is not connected
are removed. -/
def findClientConnectionBy (reread : SPartyID → List Notification → SPartyID)
    (clientID : SPartyID) (s : CServer) : Option ClientConnection × CServer :=
  match s.findConnection clientID with
  | some conn => (some conn, s)
  | none => (none, s.removeNotificationBy reread clientID INVALID_ID)

/-- `findClientConnection` with a `clientID` of its own. -/
def findClientConnection (clientID : SPartyID) : CServer → Option ClientConnection × CServer :=
  findClientConnectionBy steady clientID

/-- `findClientConnection(mNotifications[idx].clientID)`: the reference lies in
the vector the notifications are removed from. -/
def findClientConnectionAt (idx : Nat) (n : Notification) :
    CServer → Option ClientConnection × CServer :=
  findClientConnectionBy (aliased (·.clientID) idx) n.clientID

/-- `conn && !conn->channel.expired()`. -/
def live (conn : Option ClientConnection) : Option ClientConnection :=
  conn.filter (fun conn => !conn.expired)

/-- `else assert(!conn->channel.expired())`, where `conn` is null or its channel
has expired. -/
def assertChannel (cfg : Config) (conn : Option ClientConnection) : Except Fault Unit :=
  if cfg.NDEBUG then .ok ()
  else
    match conn with
    | none => .error .nullPointer
    | some _ => .error .assertion

/-- The message that a `CRequestWriter` with these arguments flushes. -/
def ClientConnection.message (conn : ClientConnection) (responseType : ResultType)
    (requestID : UInt32) (sequenceNumber : Int32) : Message :=
  { clientID := conn.clientID, serverID := conn.serverID, protoMinor := conn.protoMinor
    responseType := responseType, requestID := requestID, sequenceNumber := sequenceNumber }

/-! ## Sessions -/

/-- `findSession`: the position of the last matching session. -/
def findSession (seqNr : Int32) (clientID : SPartyID) (s : CServer) : Option Nat :=
  if seqNr = INVALID_SEQUENCE_NR then none
  else lastIdx? (fun sd => SPartyID.opEq sd.clientID clientID && sd.sequenceNr == seqNr)
    s.mSessions

/-- The session at a position. -/
def sessionIdAt (pos : Nat) (s : CServer) : Int32 :=
  (s.mSessions[pos]?.map (·.sessionId)).getD INVALID_SESSION_ID

/-- The copy constructor of `SessionData`, which leaves the update ID as it is
found in the memory of the copy. -/
def SessionData.copy (cfg : Config) (k : Nat) (sd : SessionData) : SessionData :=
  { sd with updateId := cfg.uninitialised k }

/-- `mSessions.push_back`: the new element is a copy, and a full vector copies its
elements into a larger one. -/
def pushSession (cfg : Config) (sd : SessionData) (s : CServer) : CServer :=
  if s.mSessions.length < s.mSessionsCapacity then
    { s with
      mSessions := s.mSessions ++ [sd.copy cfg s.copies]
      copies := s.copies + 1 }
  else
    { s with
      mSessions := (s.mSessions ++ [sd]).mapIdx (fun i sd => sd.copy cfg (s.copies + i))
      mSessionsCapacity := max (cfg.grow s.mSessions.length) (s.mSessions.length + 1)
      copies := s.copies + s.mSessions.length + 1 }

/-- `removeSession`. -/
def removeSession (sessionId : Int32) (s : CServer) : CServer :=
  let s := s.removeSessionNotifications sessionId
  { s with mSessions := s.mSessions.eraseP (fun sd => sd.sessionId == sessionId) }

/-- The callback of `removeAllSessions` for one session: the unregister method of
the register method whose update ID it carries. -/
def SessionData.callback (cfg : Config) (sd : SessionData) : Option Output :=
  if cfg.isRegister sd.updateId then some (.unregister sd.updateId sd.sessionId) else none

/-- `removeUnblockedSessions`. -/
def removeUnblockedSessions (clientID : SPartyID) (s : CServer) : CServer :=
  { s with mUnblockedSessions :=
      s.mUnblockedSessions.filter (fun u => !SPartyID.opEq u.2.clientID clientID) }

end CServer

end Dsi
