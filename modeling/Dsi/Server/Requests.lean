import Dsi.Server.State

/-!
# Dsi.Server.Requests

What a server does: updates and responses to its clients (`CServer.cpp` and the
response methods of `CDSIStub.cpp.jet`), the calls an application makes, the
requests of the clients, connections that come and go, and the steps of the whole
server.

The application is in the events: a data request carries the calls that its
handler makes, a client that is gone the calls of the unregister methods, and calls
outside of a handler are events of their own.
-/

namespace Dsi

namespace CServer

open Sequence

/-! ## Updates -/

/-- The body of `sendNotification` for the element at `idx`. -/
def notifyOne (cfg : Config) (id : UInt32) (idx : Nat) (n : Notification) (s : CServer) :
    Except Fault CServer :=
  let r := s.findClientConnectionAt idx n
  match live r.1 with
  | some conn =>
      r.2.getAttributeState cfg id >>= fun state =>
        let rtyp : ResultType := if state = .DATA_OK then .RESULT_DATA_OK else .RESULT_DATA_INVALID
        .ok (r.2.emit (.message (conn.message rtyp id INVALID_SEQUENCE_NR)))
  | none => assertChannel cfg r.1 >>= fun _ => .ok r.2

/-- The loop of `sendNotification` from `idx` on.  It makes at most as many rounds
as the vector has elements when it starts. -/
def notifyLoop (cfg : Config) (id : UInt32) : Nat → Nat → CServer → Except Fault CServer
  | 0, _, s => .ok s
  | rounds + 1, idx, s =>
      match s.mNotifications[idx]? with
      | none => .ok s
      | some n =>
          if n.notifyID = id then
            s.notifyOne cfg id idx n >>= notifyLoop cfg id rounds (idx + 1)
          else notifyLoop cfg id rounds (idx + 1) s

/-- `sendNotification`. -/
def sendNotification (cfg : Config) (id : UInt32) (s : CServer) : Except Fault CServer :=
  notifyLoop cfg id s.mNotifications.length 0 s

/-! ## Responses -/

/-- What the response methods of the stub and `sendResponse` have of their own: the
response they look for, the ID and the type in the messages, and whether the
channel is asserted. -/
structure ResponseLoop where
  responseId : UInt32
  id : UInt32
  type : ResultType
  asserts : Bool

namespace ResponseLoop

variable (l : ResponseLoop)

/-- The element is waiting for the response. -/
def selects (s : CServer) (n : Notification) : Bool :=
  n.notifyID == l.responseId &&
    (n.sessionId == INVALID_SESSION_ID || s.isSessionActive n.sessionId)

/-- The loop body for the element at `idx`. -/
def one (cfg : Config) (idx : Nat) (n : Notification) (s : CServer) : Except Fault CServer :=
  let r := s.findClientConnectionAt idx n
  match live r.1 with
  | some conn =>
      let s := r.2.emit (.message
        { clientID := n.clientID, serverID := conn.serverID, protoMinor := conn.protoMinor
          responseType := l.type, requestID := l.id, sequenceNumber := n.sequenceNr })
      if n.sequenceNr ≠ INVALID_SEQUENCE_NR ∧ n.sessionId = INVALID_SESSION_ID then
        .ok { s with mNotifications := s.mNotifications.eraseIdx idx }
      else .ok s
  | none => if l.asserts then assertChannel cfg r.1 >>= fun _ => .ok r.2 else .ok r.2

/-- The loop from `idx - 1` down. -/
def loop (cfg : Config) : Nat → CServer → Except Fault CServer
  | 0, s => .ok s
  | idx + 1, s =>
      match s.mNotifications[idx]? with
      | none => .error .outOfRange
      | some n =>
          if l.selects s n then l.one cfg idx n s >>= loop cfg idx else loop cfg idx s

/-- The loop, and the reset of `mResponseId` behind it. -/
def run (cfg : Config) (s : CServer) : Except Fault CServer :=
  l.loop cfg s.mNotifications.length s >>= fun s =>
    .ok (if s.mResponseId = l.responseId then { s with mResponseId := INVALID_ID } else s)

end ResponseLoop

/-- `sendResponse`. -/
def sendResponse (cfg : Config) (responseId id : UInt32) (type : ResultType) (s : CServer) :
    Except Fault CServer :=
  ResponseLoop.run ⟨responseId, id, type, true⟩ cfg s

/-- A response method of the stub. -/
def responseMethod (cfg : Config) (id : UInt32) (s : CServer) : Except Fault CServer :=
  if cfg.statesFit then
    ResponseLoop.run ⟨id, id, .RESULT_OK, false⟩ cfg (s.setResponseState id false)
  else .error .outOfRange

/-- The type that `sendError` gives its messages for an ID that is no attribute. -/
def errorType (id : UInt32) : ResultType :=
  if isResponseId id then .RESULT_INVALID else .RESULT_REQUEST_ERROR

/-- The response that `sendError` ends for an ID that is no attribute. -/
def errorResponse (cfg : Config) (id : UInt32) : UInt32 :=
  if isResponseId id then id else cfg.getResponse id

/-- `sendError` of the stub. -/
def sendError (cfg : Config) (id : UInt32) (s : CServer) : Except Fault CServer :=
  if isAttributeId id then
    s.getAttributeState cfg id >>= fun state =>
      if state ≠ .DATA_INVALID then
        sendNotification cfg id { s with attributeState := fun id' =>
          if id' = id then .DATA_INVALID else s.attributeState id' }
      else .ok s
  else
    let responseId := errorResponse cfg id
    if responseId ≠ INVALID_ID then
      if cfg.statesFit then
        sendResponse cfg responseId id (errorType id) (s.setResponseState responseId false)
      else .error .outOfRange
    else .ok s

/-- `sendErrorToClient`. -/
def sendErrorToClient (cfg : Config) (clientID : SPartyID) (id : UInt32) (type : ResultType)
    (seqNr : Int32) (s : CServer) : Except Fault CServer :=
  let r := s.findClientConnection clientID
  match live r.1 with
  | some conn => .ok (r.2.emit (.message (conn.message type id seqNr)))
  | none => assertChannel cfg r.1 >>= fun _ => .ok r.2

/-! ## Unblocking -/

/-- The test of `unblockRequest`. -/
def isCurrent (s : CServer) (n : Notification) : Bool :=
  n.notifyID == s.mResponseId && n.sessionId == INVALID_SESSION_ID &&
    SPartyID.opEq n.clientID s.mClientID

/-- The loop of `unblockRequest`: the last matching notification becomes an
unblocked session. -/
def takeCurrent (s : CServer) : Int32 × CServer :=
  match lastIdx? s.isCurrent s.mNotifications with
  | none => (INVALID_SESSION_ID, s)
  | some idx =>
      match s.mNotifications[idx]? with
      | none => (INVALID_SESSION_ID, s)
      | some n =>
          let r := s.createId
          (r.1, { r.2 with
            mUnblockedSessions :=
              s.mUnblockedSessions.filter (fun u => u.1 != r.1) ++ [(r.1, n)]
            mNotifications := s.mNotifications.eraseIdx idx })

/-- `unblockRequest`. -/
def unblockRequest (cfg : Config) (s : CServer) : Except Fault (Int32 × CServer) :=
  if s.mCurrentSequenceNr = INVALID_SEQUENCE_NR ∧ cfg.NDEBUG = false then .error .assertion
  else if s.mResponseId = INVALID_ID then .ok (INVALID_SESSION_ID, s)
  else if cfg.statesFit then
    let r := s.takeCurrent
    .ok (r.1, { r.2.setResponseState s.mResponseId false with
      mResponseId := INVALID_ID, mCurrentSequenceNr := INVALID_SEQUENCE_NR })
  else .error .outOfRange

/-- `prepareResponse`. -/
def prepareResponse (cfg : Config) (handle : Int32) (s : CServer) : Except Fault CServer :=
  if s.mResponseId ≠ INVALID_ID ∧ cfg.NDEBUG = false then .error .assertion
  else
    match s.mUnblockedSessions.find? (fun u => u.1 == handle) with
    | none => .ok s
    | some u =>
        let s := { s with
          mUnblockedSessions := s.mUnblockedSessions.filter (fun u => u.1 != handle)
          mResponseId := u.2.notifyID
          mClientID := u.2.clientID
          mNotifications := s.mNotifications ++ [u.2] }
        if cfg.statesFit then .ok (s.setResponseState u.2.notifyID true)
        else .error .outOfRange

/-! ## The application -/

/-- What the application calls.  Setting an attribute is setting its state
and sending its notification. -/
inductive UserCall where
  | unblockRequest
  | prepareResponse (handle : Int32)
  | response (id : UInt32)
  | sendError (id : UInt32)
  | setAttributeState (id : UInt32) (state : DataStateType)
  | sendNotification (id : UInt32)
  | addActiveSession (sessionId : Int32)
  | clearActiveSessions
  deriving DecidableEq, Repr

/-- One call. -/
def call (cfg : Config) (s : CServer) : UserCall → Except Fault CServer
  | .unblockRequest => s.unblockRequest cfg >>= fun r => .ok r.2
  | .prepareResponse handle => s.prepareResponse cfg handle
  | .response id => s.responseMethod cfg id
  | .sendError id => s.sendError cfg id
  | .setAttributeState id state =>
      .ok { s with attributeState := fun id' => if id' = id then state else s.attributeState id' }
  | .sendNotification id => s.sendNotification cfg id
  | .addActiveSession sessionId =>
      .ok { s with mActiveSessions := sessionId :: s.mActiveSessions }
  | .clearActiveSessions => .ok { s with mActiveSessions := [] }

/-- Calls one after the other. -/
def calls (cfg : Config) (s : CServer) (user : List UserCall) : Except Fault CServer :=
  Partial.run (call cfg) s user

/-! ## Requests -/

/-- `CDataRequestHandle`. -/
structure DataRequest where
  requestType : RequestType
  requestId : UInt32
  clientID : SPartyID
  protoMinor : UInt16
  sequenceNr : Int32
  payload : List UInt8
  deriving DecidableEq, Repr

/-- The user's handler of a request is entered, and makes its calls. -/
def callHandler (cfg : Config) (h : DataRequest) (user : List UserCall) (s : CServer) :
    Except Fault CServer :=
  calls cfg (s.emit (.called h.requestId s.mClientID h.sequenceNr s.mSessionId)) user

/-- `if (session) mSessionId = session->sessionId` in `processRequest`. -/
def enterSession (session : Option Nat) (s : CServer) : CServer :=
  match session with
  | none => s
  | some pos => { s with mSessionId := s.sessionIdAt pos }

/-- The register branch of `processRequest` up to the parameters: without a session
it is made here. -/
def openSession (cfg : Config) (h : DataRequest) (session : Option Nat) (s : CServer) :
    Except Fault CServer :=
  if s.mSessionId = INVALID_SESSION_ID then
    let r := s.createId
    .ok { r.2.pushSession cfg
        { sessionId := r.1, clientID := s.mClientID, sequenceNr := h.sequenceNr
          updateId := h.requestId } with mSessionId := r.1 }
  else
    match session with
    | none => .error .nullPointer
    | some pos =>
        .ok { s with mSessions :=
          s.mSessions.modify pos (fun sd => { sd with updateId := h.requestId }) }

/-- The parameters are read; without an error the handler is called. -/
def readAndCall (cfg : Config) (m : RequestMethod) (h : DataRequest) (user : List UserCall)
    (s : CServer) : Except Fault CServer :=
  if m.decodes h.payload then s.callHandler cfg h user else .ok s

/-- The unregister branch of `processRequest`. -/
def endSession (cfg : Config) (h : DataRequest) (user : List UserCall) (s : CServer) :
    Except Fault CServer :=
  if s.mSessionId ≠ INVALID_SESSION_ID then
    s.callHandler cfg h user >>= fun s => .ok (s.removeSession s.mSessionId)
  else .ok s

/-- `mSessionId = DSI::INVALID_SESSION_ID`. -/
def leaveSession (s : CServer) : CServer := { s with mSessionId := INVALID_SESSION_ID }

/-- `processRequest` of the stub, for one method. -/
def processMethod (cfg : Config) (m : RequestMethod) (h : DataRequest) (user : List UserCall)
    (s : CServer) : Except Fault CServer :=
  let session := s.findSession h.sequenceNr s.mClientID
  match m.kind with
  | .request => s.readAndCall cfg m h user
  | .register =>
      (s.enterSession session).openSession cfg h session >>= fun s =>
        s.readAndCall cfg m h user >>= fun s => .ok s.leaveSession
  | .unregister =>
      (s.enterSession session).endSession cfg h user >>= fun s => .ok s.leaveSession

/-- `processRequest` of the stub. -/
def processRequest (cfg : Config) (h : DataRequest) (user : List UserCall) (s : CServer) :
    Except Fault CServer :=
  match cfg.requestMethods[h.requestId.toNat]? with
  | none => .ok s
  | some m => s.processMethod cfg m h user

/-- The notification of a request for its response. -/
def DataRequest.notification (h : DataRequest) (responseId : UInt32) : Notification :=
  { clientID := h.clientID, sequenceNr := h.sequenceNr, notifyID := responseId }

/-- `handleDataRequest` in front of `processRequest`, for a request that is not
refused. -/
def acceptRequest (h : DataRequest) (responseId : UInt32) (s : CServer) : CServer :=
  let s := { s with mResponseId := responseId }
  let s :=
    if responseId ≠ INVALID_ID then
      { s with mNotifications := s.mNotifications ++ [h.notification responseId] }.setResponseState
        responseId true
    else s
  { s with mClientID := h.clientID, mCurrentSequenceNr := h.sequenceNr }

/-- `handleDataRequest` behind `processRequest`. -/
def finishRequest (s : CServer) : CServer :=
  { s with
    mResponseId := INVALID_ID
    mCurrentSequenceNr := INVALID_SEQUENCE_NR
    mClientID := ⟨0, 0⟩ }

/-- `handleDataRequest` for `REQUEST`. -/
def handleRequest (cfg : Config) (h : DataRequest) (user : List UserCall) (s : CServer) :
    Except Fault CServer :=
  let responseId := cfg.getResponse h.requestId
  if responseId ≠ INVALID_ID ∧ cfg.statesFit = false then .error .outOfRange
  else if s.isResponseDangling responseId then
    s.sendErrorToClient cfg h.clientID h.requestId .RESULT_REQUEST_BUSY h.sequenceNr
  else
    (s.acceptRequest h responseId).processRequest cfg h user >>= fun s => .ok s.finishRequest

/-- The search for a notification that is already set. -/
def isSet (h : DataRequest) (n : Notification) : Bool :=
  SPartyID.opEq n.clientID h.clientID && n.notifyID == h.requestId &&
    (h.requestType == .REQUEST_NOTIFY || n.sequenceNr == h.sequenceNr)

/-- A new notification; a registered one gets the session of its sequence number,
which is made if it is not there yet. -/
def addNotification (cfg : Config) (h : DataRequest) (s : CServer) : CServer :=
  if h.requestType = .REQUEST_REGISTER_NOTIFY then
    match s.findSession h.sequenceNr h.clientID with
    | some pos =>
        { s with mNotifications := s.mNotifications ++
          [{ h.notification h.requestId with sessionId := s.sessionIdAt pos }] }
    | none =>
        let r := s.createId
        let s := r.2.pushSession cfg
          { sessionId := r.1, clientID := h.clientID, sequenceNr := h.sequenceNr }
        { s with mNotifications := s.mNotifications ++
          [{ h.notification h.requestId with sessionId := r.1 }] }
  else
    { s with mNotifications := s.mNotifications ++
      [{ clientID := h.clientID, notifyID := h.requestId }] }

/-- The value of an attribute for the client that has just asked for it. -/
def sendAttribute (cfg : Config) (h : DataRequest) (s : CServer) : Except Fault CServer :=
  s.getAttributeState cfg h.requestId >>= fun state =>
    match state with
    | .DATA_OK =>
        let r := s.findClientConnection h.clientID
        match live r.1 with
        | some conn =>
            .ok (r.2.emit (.message
              (conn.message .RESULT_DATA_OK h.requestId INVALID_SEQUENCE_NR)))
        | none => assertChannel cfg r.1 >>= fun _ => .ok r.2
    | .DATA_INVALID => s.sendNotification cfg h.requestId
    | .DATA_NOT_AVAILABLE => .ok s

/-- `handleDataRequest` for `REQUEST_NOTIFY` and `REQUEST_REGISTER_NOTIFY`. -/
def handleNotify (cfg : Config) (h : DataRequest) (s : CServer) : Except Fault CServer :=
  let s := if s.mNotifications.any (isSet h) then s else s.addNotification cfg h
  if isAttributeId h.requestId then s.sendAttribute cfg h else .ok s

/-- `handleDataRequest` for `REQUEST_STOP_ALL_REGISTER_NOTIFY`. -/
def handleStopSession (h : DataRequest) (s : CServer) : CServer :=
  match s.findSession h.sequenceNr h.clientID with
  | some pos => s.removeSessionNotifications (s.sessionIdAt pos)
  | none => s

/-- The switch of `handleDataRequest`. -/
def dispatchRequest (cfg : Config) (h : DataRequest) (user : List UserCall) (s : CServer) :
    Except Fault CServer :=
  match h.requestType with
  | .REQUEST => s.handleRequest cfg h user
  | .REQUEST_NOTIFY | .REQUEST_REGISTER_NOTIFY => s.handleNotify cfg h
  | .REQUEST_STOP_NOTIFY | .REQUEST_STOP_REGISTER_NOTIFY =>
      .ok (s.removeNotification h.clientID h.requestId)
  | .REQUEST_STOP_ALL_NOTIFY => .ok (s.removeNotification h.clientID INVALID_ID)
  | .REQUEST_STOP_ALL_REGISTER_NOTIFY => .ok (s.handleStopSession h)
  | .REQUEST_LOAD_COMPONENT => .ok s

/-- The protocol version that is expected from a client. -/
def protoMinorOf (conn : Option ClientConnection) : UInt16 :=
  (conn.map (·.protoMinor)).getD DSI_PROTOCOL_VERSION_MINOR

/-- `handleDataRequest`. -/
def handleDataRequest (cfg : Config) (h : DataRequest) (user : List UserCall) (s : CServer) :
    Except Fault CServer :=
  let r := s.findClientConnection h.clientID
  if protoMinorOf r.1 ≠ h.protoMinor then .ok r.2 else r.2.dispatchRequest cfg h user

/-! ## Connections -/

/-- What a connect request and the calls for it deliver: the header, the channel
that was attached, `expired` if that failed, and the detach notification that was
set. -/
structure ConnectRequest where
  clientID : SPartyID
  serverID : SPartyID
  protoMinor : UInt16
  tcp : Bool := false
  channel : Nat
  expired : Bool := false
  notificationID : UInt32
  deriving DecidableEq, Repr

/-- `handleConnectRequest`, `handleConnectRequestTCP` and the legacy variant, up to
their answer.  The set keeps a connection that is already there. -/
def handleConnectRequest (cfg : Config) (q : ConnectRequest) (s : CServer) : CServer :=
  if q.tcp && !cfg.mTCPIPEnabled then s
  else
    let r := s.createId
    let conn : ClientConnection :=
      { id := r.1, clientID := q.clientID, serverID := q.serverID
        notificationID := q.notificationID, channel := q.channel, expired := q.expired
        protoMinor :=
          if q.protoMinor < DSI_PROTOCOL_VERSION_MINOR then q.protoMinor
          else DSI_PROTOCOL_VERSION_MINOR }
    if (s.findConnection q.clientID).isSome then r.2
    else
      { r.2 with
        mClientConnections :=
          insertLower (fun c => c.clientID.globalID < conn.clientID.globalID) conn
            s.mClientConnections }

/-- The loop of `removeAllSessions`.  `user` has what the application calls in one
callback after the other. -/
def removeAllLoop (cfg : Config) (clientID : SPartyID) :
    List SessionData → List (List UserCall) → CServer → Except Fault (List SessionData × CServer)
  | [], _, s => .ok ([], s)
  | sd :: sessions, user, s =>
      if SPartyID.opEq sd.clientID clientID then
        match sd.callback cfg with
        | none =>
            removeAllLoop cfg clientID sessions user
              { s with mCurrentSequenceNr := INVALID_SEQUENCE_NR }
        | some o =>
            calls cfg { s.emit o with mCurrentSequenceNr := sd.sequenceNr } (user.headD []) >>=
              fun s => removeAllLoop cfg clientID sessions user.tail
                { s with mCurrentSequenceNr := INVALID_SEQUENCE_NR }
      else
        removeAllLoop cfg clientID sessions user s >>= fun r => .ok (sd :: r.1, r.2)

/-- `removeAllSessions` of the stub. -/
def removeAllSessions (cfg : Config) (clientID : SPartyID) (user : List (List UserCall))
    (s : CServer) : Except Fault CServer :=
  removeAllLoop cfg clientID s.mSessions user { s with mClientID := clientID } >>= fun r =>
    .ok { r.2 with mSessions := r.1, mClientID := ⟨0, 0⟩ }

/-- What `handleDisconnectRequest` and `handleClientDetached` do with a client that
is gone. -/
def dropClient (cfg : Config) (clientID : SPartyID) (user : List (List UserCall)) (s : CServer) :
    Except Fault CServer :=
  (s.removeNotification clientID INVALID_ID).removeAllSessions cfg clientID user >>= fun s =>
    .ok { s.removeUnblockedSessions clientID with
      mClientConnections := s.mClientConnections.eraseP (fun conn => conn.clientID == clientID) }

/-- `handleDisconnectRequest`. -/
def handleDisconnectRequest (cfg : Config) (clientID : SPartyID) (user : List (List UserCall))
    (s : CServer) : Except Fault CServer :=
  match s.findConnection clientID with
  | none => .ok s
  | some conn =>
      let s :=
        if conn.notificationID ≠ 0 then s.emit (.clearNotification conn.notificationID) else s
      s.dropClient cfg conn.clientID user

/-- `handleClientDetached`. -/
def handleClientDetached (cfg : Config) (id : Int32) (user : List (List UserCall)) (s : CServer) :
    Except Fault CServer :=
  match s.mClientConnections.find? (fun conn => conn.id == id) with
  | none => .ok s
  | some conn => s.dropClient cfg conn.clientID user

/-- `cleanupClientConnection`. -/
def cleanupClientConnection (s : CServer) (conn : ClientConnection) : CServer :=
  (s.emit (.clearNotification conn.notificationID)).removeNotification conn.clientID INVALID_ID

/-- `unregisterInterface`, as far as it concerns the clients. -/
def unregisterInterface (s : CServer) : CServer :=
  { s.mClientConnections.foldl cleanupClientConnection s with mClientConnections := [] }

/-- A channel is destroyed: the weak pointers to it expire. -/
def closeChannel (channel : Nat) (s : CServer) : CServer :=
  { s with mClientConnections := s.mClientConnections.map (fun conn =>
      if conn.channel = channel then { conn with expired := true } else conn) }

/-! ## The server -/

/-- What can happen to a server.  `createId` stands for the other users of the
counter in the process. -/
inductive Event where
  | connect (q : ConnectRequest)
  | disconnect (clientID : SPartyID) (user : List (List UserCall))
  | detached (id : Int32) (user : List (List UserCall))
  | dataRequest (h : DataRequest) (user : List UserCall)
  | user (user : List UserCall)
  | channelClosed (channel : Nat)
  | unregisterInterface
  | createId
  deriving DecidableEq, Repr

/-- One step of the server. -/
def step (cfg : Config) (s : CServer) : Event → Except Fault CServer
  | .connect q => .ok (s.handleConnectRequest cfg q)
  | .disconnect clientID user => s.handleDisconnectRequest cfg clientID user
  | .detached id user => s.handleClientDetached cfg id user
  | .dataRequest h user => s.handleDataRequest cfg h user
  | .user user => calls cfg s user
  | .channelClosed channel => .ok (s.closeChannel channel)
  | .unregisterInterface => .ok s.unregisterInterface
  | .createId => .ok s.createId.2

/-- The server behind a sequence of events, if none of them breaks the process
off. -/
def run (cfg : Config) : CServer → List Event → Except Fault CServer := Partial.run (step cfg)

/-- A freshly constructed server. -/
def init : CServer := {}

end CServer

end Dsi
