import Dsi.Broker.State

/-!
# Dsi.Broker.Handlers

The request handlers of `Servicebroker.cpp` and `ClientSpecificData::clear`.
A handler takes the context of the calling connection and returns the new state
with the response, or without one if the response is deferred until the master
has answered the job that the handler put into the queue.

The server cache and the asynchronous mode are switched off in every build
(`USE_SERVER_CACHE` is not defined, `Main.cpp` passes `false` for both), so their
branches are not modelled.
-/

namespace Dsi

open Sequence

namespace Broker

/-- The data of a connection; an unknown one has none. -/
def dataOf (c : Nat) (b : Broker) : ClientSpecificData := (b.data? c).getD {}

/-- A response with the output half of the argument. -/
def respond (b : Broker) (body : ResponseBody) : Broker × Option Response := (b, some ⟨0, body⟩)

/-- A response with a status only. -/
def fail (b : Broker) (s : SBStatus) : Broker × Option Response := (b, some (Response.status s))

/-! ## Forwarding to the master -/

/-- The entries that `registerInterfacesMaster` puts into a batch. -/
def registerEligible (cfg : Config) (e : ServerListEntry) : Bool :=
  e.masterID = noPartyID && !e.isLocal && cfg.forwardService e.ifDescription.name

/-- The record of an entry. -/
def registerRecord (e : ServerListEntry) : SFNDInterfaceDescriptionEx :=
  { chid := e.chid, pid := e.pid, nd := e.nid, serverID := e.partyID,
    ifDescription := e.ifDescription }

/-- `registerInterfacesMaster`. -/
def registerInterfacesMaster (cfg : Config) (b : Broker) : Broker :=
  if b.isMasterConnected cfg then
    let records := (b.mConnectedServers.entries.filter (registerEligible cfg)).map registerRecord
    (batches MAX_MULTIPLE_COUNT [] records).foldl
      (fun b batch => b.eval ⟨UInt32.ofNat batch.length, none, .registerMasterInterfaceEx batch⟩)
      { b with
        mConnectedServers := b.mConnectedServers.mapMasterID
          (fun e => if registerEligible cfg e then pendingMasterID else e.masterID) }
  else b

/-- `unregisterInterfaceMaster`, for an entry with this `masterID`.  Every caller
removes the entry right after, so the `masterID` it resets is not kept. -/
def unregisterInterfaceMaster (cfg : Config) (masterID : SPartyID) (b : Broker) : Broker :=
  if 0 < masterID.extendedID.toInt32 ∧ b.isMasterConnected cfg then
    b.eval ⟨0, none, .unregisterInterface masterID⟩
  else b

/-- The pulse a slave asks its master to send. -/
def masterPulse (cfg : Config) (code : MasterPulse) (value : UInt32) : SFNDPulseInfo :=
  { code := code.code, value := value, chid := cfg.sigAddrMinor, pid := cfg.sigAddrMajor }

/-- The notifications that `forwardServerAvailableNotifications` puts into a pool. -/
def forwardEligible (cfg : Config) (n : Notification) : Bool :=
  n.poolID = 0 && !n.isLocal && cfg.forwardService n.ifDescription.name

/-- The loop of `forwardServerAvailableNotifications`: the notifications with
their pools, and the records for the pools it had to create. -/
def forwardLoop (cfg : Config) : List Notification → Broker →
    List Notification × List SFNDNotificationDescription × Broker
  | [], b => ([], [], b)
  | n :: ns, b =>
      if forwardEligible cfg n then
        match b.mMasterNotificationPool.findIdx? (·.isFor n.ifDescription false) with
        | some pos =>
            let r := forwardLoop cfg ns b
            ({ n with poolID := b.poolIDAt pos } :: r.1, r.2.1, r.2.2)
        | none =>
            let b := b.addPoolDescription n.ifDescription false
            let record : SFNDNotificationDescription :=
              { cookie := b.poolIDAt 0
                pulse := masterPulse cfg .PULSE_MASTER_SERVER_AVAILABLE (b.poolIDAt 0)
                ifDescription := n.ifDescription }
            let r := forwardLoop cfg ns b
            ({ n with poolID := b.poolIDAt 0 } :: r.1, record :: r.2.1, r.2.2)
      else
        let r := forwardLoop cfg ns b
        (n :: r.1, r.2.1, r.2.2)

/-- `forwardServerAvailableNotifications`.  It writes `poolID` without
`NotificationPoolEntry::attach`, so the new members are not counted. -/
def forwardServerAvailableNotifications (cfg : Config) (b : Broker) : Broker :=
  if b.isMasterConnected cfg then
    let r := forwardLoop cfg b.mServerConnectNotifications b
    (batches MAX_MULTIPLE_COUNT [] r.2.1).foldl
      (fun b batch => b.eval ⟨UInt32.ofNat batch.length, none, .notifyServerAvailableEx batch⟩)
      { r.2.2 with mServerConnectNotifications := r.1 }
  else b

/-! ## Servers -/

/-- What follows the checks of `addInterface` and of a record of
`handleRegisterMasterInterface`: the entry goes into the table and into the data
of its connection, and the clients that wait for it are notified. -/
def addEntry (cfg : Config) (c : Nat) (entry : ServerListEntry) (b : Broker) : Broker :=
  let b := { b with mConnectedServers := b.mConnectedServers.add entry }
  let b := b.modifyData c (·.addServer entry.partyID)
  let b := b.triggerDescription cfg .serverConnect entry.ifDescription entry.grpid
  b.triggerAllDescription cfg .serverListChange entry.ifDescription

/-- `addInterface`. -/
def addInterface (cfg : Config) (ctx : SocketConnectionContext) (d : InterfaceDescription)
    (pid : UInt32) (chid : Int32) (isLocal : Bool) (grpid : Int32) (b : Broker) :
    Option SPartyID × Broker :=
  if (b.mConnectedServers.findName d.name).isSome then (none, b)
  else
    let partyID : SPartyID := ⟨UInt32.ofNat b.mNextServerID, cfg.mExtendedID⟩
    let b := { b with mNextServerID := b.mNextServerID + 1 }
    (some partyID, b.addEntry cfg ctx.mId
      { partyID := partyID, nid := ctx.mNodeAddress, pid := pid, chid := chid,
        ifDescription := d, grpid := grpid, isLocal := isLocal })

/-- `handleRegisterInterface`. -/
def handleRegisterInterface (cfg : Config) (ctx : SocketConnectionContext)
    (d : InterfaceDescription) (pid : UInt32) (chid : Int32) (b : Broker) :
    Broker × Option Response :=
  if check d then
    if ctx.isLocal then
      let r := b.addInterface cfg ctx d pid chid (cfg.isLocalService d.name) SB_UNKNOWN_GROUP_ID
      let b := r.2.registerInterfacesMaster cfg
      match r.1 with
      | some id => b.respond (.serverID id)
      | none => b.fail .FNDInterfaceAlreadyRegistered
    else b.fail .FNDBadArgument
  else b.fail .FNDBadArgument

/-- One record of `handleRegisterInterfaceEx`. -/
def registerRecordEx (cfg : Config) (ctx : SocketConnectionContext) (pid : UInt32) (chid : Int32)
    (d : InterfaceDescription) (b : Broker) : SPartyID × Broker :=
  let r := b.addInterface cfg ctx d pid chid (cfg.isLocalService d.name) SB_UNKNOWN_GROUP_ID
  (r.1.getD ⟨0xffffffff, 0xffffffff⟩, r.2)

/-- `handleRegisterInterfaceEx`. -/
def handleRegisterInterfaceEx (cfg : Config) (ctx : SocketConnectionContext) (ifCount : Int32)
    (pid : UInt32) (chid : Int32) (records : List InterfaceDescription) (b : Broker) :
    Broker × Option Response :=
  let r := recordLoop (registerRecordEx cfg ctx pid chid) ifCount.toInt.toNat records b
  match r.1 with
  | none => r.2.fail .FNDBadArgument
  | some ids => (r.2.registerInterfacesMaster cfg).respond (.serverIDs ids)

/-- `handleRegisterInterfaceGroupID`. -/
def handleRegisterInterfaceGroupID (cfg : Config) (ctx : SocketConnectionContext)
    (d : InterfaceDescription) (pid : UInt32) (chid grpid : Int32) (b : Broker) :
    Broker × Option Response :=
  if check d && ctx.isLocal then
    let r := b.addInterface cfg ctx d pid chid (cfg.isLocalService d.name) grpid
    let b := r.2.registerInterfacesMaster cfg
    match r.1 with
    | some id => b.respond (.serverID id)
    | none => b.fail .FNDBadArgument
  else b.fail .FNDBadArgument

/-- The conditions under which a record of `handleRegisterMasterInterface` is refused. -/
def refusesRecord (cfg : Config) (r : SFNDInterfaceDescriptionEx) (b : Broker) : Bool :=
  r.serverID.extendedID = cfg.mExtendedID ||
    (!check r.ifDescription || r.chid ≤ 0) ||
    (b.mConnectedServers.findName r.ifDescription.name).isSome ||
    (r.serverID.extendedID = 0 && cfg.mExtendedID ≠ 1000)

/-- The entry that `handleRegisterMasterInterface` makes of a record.  A slave
outside tree mode gets an extended ID from its connection. -/
def masterEntry (ctx : SocketConnectionContext) (r : SFNDInterfaceDescriptionEx) :
    ServerListEntry :=
  { partyID :=
      ⟨r.serverID.localID,
        if r.serverID.extendedID = 0 then UInt32.ofNat (1000 + ctx.mId)
        else r.serverID.extendedID⟩
    nid := ctx.mNodeAddress
    pid := ctx.translateRemote r.ifDescription.name r.pid
    chid := r.chid
    ifDescription := r.ifDescription }

/-- One record of `handleRegisterMasterInterface`. -/
def registerMasterRecord (cfg : Config) (ctx : SocketConnectionContext)
    (r : SFNDInterfaceDescriptionEx) (b : Broker) : SPartyID × Broker :=
  if b.refusesRecord cfg r then (⟨r.serverID.localID, 0xffffffff⟩, b)
  else ((masterEntry ctx r).partyID, b.addEntry cfg ctx.mId (masterEntry ctx r))

/-- `handleRegisterMasterInterface`. -/
def handleRegisterMasterInterface (cfg : Config) (ctx : SocketConnectionContext)
    (ifCount : Int32) (records : List SFNDInterfaceDescriptionEx) (b : Broker) :
    Broker × Option Response :=
  let r := recordLoop (registerMasterRecord cfg ctx) ifCount.toInt.toNat records b
  let b := r.2.registerInterfacesMaster cfg
  match r.1 with
  | none => b.fail .FNDBadArgument
  | some ids => b.respond (.serverIDs ids)

/-- The entry leaves the server table, its clients leave the client table. -/
def dropServer (serverID : SPartyID) (b : Broker) : Broker :=
  { b with
    mConnectedServers := b.mConnectedServers.remove serverID
    mAttachedClients := b.mAttachedClients.removeServer serverID }

/-- `handleUnregisterInterface`. -/
def handleUnregisterInterface (cfg : Config) (ctx : SocketConnectionContext)
    (serverID : SPartyID) (b : Broker) : Broker × Option Response :=
  if (b.dataOf ctx.mId).mServerList.contains serverID then
    let b := b.modifyData ctx.mId (·.removeServer serverID)
    match b.mConnectedServers.findID serverID with
    | none => b.fail .FNDBadArgument
    | some entry =>
        let b := b.trigger cfg .serverDisconnect serverID
        let b := b.unregisterInterfaceMaster cfg entry.masterID
        let b := b.dropServer serverID
        (b.triggerAll cfg .serverListChange).respond .empty
  else b.fail .FNDBadArgument

/-! ## Setting notifications -/

/-- `checkAccessPrivileges`. -/
def checkAccessPrivileges (cfg : Config) (ctx : SocketConnectionContext) (e : ServerListEntry) :
    Bool :=
  e.grpid = SB_UNKNOWN_GROUP_ID ||
    (ctx.mUid ≠ SB_UNKNOWN_USER_ID && (ctx.mUid = 0 || cfg.isGroupMember e.grpid ctx.mUid))

/-- The notification on a server that is not here: it joins the pool that monitors
the server at the master, which is created and set there if there is none. -/
def monitorServer (cfg : Config) (serverID : SPartyID) (notificationID : UInt32) (b : Broker) :
    Broker :=
  match b.findNotification .serverDisconnect notificationID with
  | none => b
  | some _ =>
      match b.mMasterNotificationPool.findIdx? (·.monitors serverID) with
      | some pos => b.attachPool pos .serverDisconnect notificationID
      | none =>
          let b := b.addPoolServer serverID
          let b := b.eval ⟨b.poolIDAt 0, none, .notifyServerDisconnect serverID
            (masterPulse cfg .PULSE_MASTER_SERVER_DISCONNECT (b.poolIDAt 0))⟩
          b.attachPool 0 .serverDisconnect notificationID

/-- `handleNotifyServerDisconnectNoResponse`; `none` stands for `FNDInternalError`. -/
def handleNotifyServerDisconnectNoResponse (cfg : Config) (ctx : SocketConnectionContext)
    (serverID : SPartyID) (pulse : SFNDPulseInfo) (b : Broker) : Option UInt32 × Broker :=
  let r := b.addParty cfg .serverDisconnect serverID ctx pulse
  if r.1 = INVALID_NOTIFICATION_ID then (none, r.2)
  else
    let b := r.2.modifyData ctx.mId (·.addNotification r.1)
    let missing := (b.mConnectedServers.findID serverID).isNone
    if missing && cfg.mExtendedID ≠ serverID.extendedID && b.isMasterConnected cfg then
      (some r.1, b.monitorServer cfg serverID r.1)
    else if missing then (some r.1, b.trigger cfg .serverDisconnect serverID)
    else (some r.1, b)

/-- `handleNotifyServerDisconnect`. -/
def handleNotifyServerDisconnect (cfg : Config) (ctx : SocketConnectionContext)
    (serverID : SPartyID) (pulse : SFNDPulseInfo) (b : Broker) : Broker × Option Response :=
  let r := b.handleNotifyServerDisconnectNoResponse cfg ctx serverID pulse
  match r.1 with
  | some id => r.2.respond (.notificationID id)
  | none => r.2.fail .FNDInternalError

/-- `handleNotifyServerAvailableNoResponse`. -/
def handleNotifyServerAvailableNoResponse (cfg : Config) (ctx : SocketConnectionContext)
    (pulse : SFNDPulseInfo) (d : InterfaceDescription) (b : Broker) :
    Except SBStatus UInt32 × Broker :=
  let isLocal := cfg.isLocalService d.name
  let entry := b.mConnectedServers.findDescription d
  if entry.any (fun e => !checkAccessPrivileges cfg ctx e) then (.error .FNDAccessDenied, b)
  else
    let r := b.addDescription cfg .serverConnect d ctx pulse isLocal
    if r.1 = INVALID_NOTIFICATION_ID then (.error .FNDBadArgument, r.2)
    else
      let b := r.2.modifyData ctx.mId (·.addNotification r.1)
      if entry.isSome then
        (.ok r.1, b.triggerDescription cfg .serverConnect d SB_UNKNOWN_GROUP_ID)
      else if !isLocal && b.isMasterConnected cfg then
        (.ok r.1, b.forwardServerAvailableNotifications cfg)
      else (.ok r.1, b)

/-- `handleNotifyServerAvailable(SFNDNotifyServerAvailableArg)`. -/
def handleNotifyServerAvailable (cfg : Config) (ctx : SocketConnectionContext)
    (pulse : SFNDPulseInfo) (d : InterfaceDescription) (b : Broker) : Broker × Option Response :=
  let r := b.handleNotifyServerAvailableNoResponse cfg ctx pulse d
  match r.1 with
  | .ok id => r.2.respond (.notificationID id)
  | .error s => r.2.fail s

/-- One record of `handleNotifyServerAvailable(SFNDNotifyServerAvailableExArg)`:
the same steps, with `-1` for the ID of a notification that was not set. -/
def notifyAvailableRecord (cfg : Config) (ctx : SocketConnectionContext)
    (n : SFNDNotificationDescription) (b : Broker) : SFNDNotificationID × Broker :=
  let r := b.handleNotifyServerAvailableNoResponse cfg ctx n.pulse n.ifDescription
  (⟨n.cookie, match r.1 with | .ok id => id | .error _ => INVALID_NOTIFICATION_ID⟩, r.2)

/-- `handleNotifyServerAvailable(SFNDNotifyServerAvailableExArg)`. -/
def handleNotifyServerAvailableEx (cfg : Config) (ctx : SocketConnectionContext) (count : Int32)
    (records : List SFNDNotificationDescription) (b : Broker) : Broker × Option Response :=
  let r := recordLoop (notifyAvailableRecord cfg ctx) count.toInt.toNat records b
  match r.1 with
  | none => r.2.fail .FNDBadArgument
  | some ids => r.2.respond (.notificationIDs ids)

/-- `handleNotifyClientDetach`. -/
def handleNotifyClientDetach (cfg : Config) (ctx : SocketConnectionContext) (clientID : SPartyID)
    (pulse : SFNDPulseInfo) (b : Broker) : Broker × Option Response :=
  let r := b.addParty cfg .clientDetach clientID ctx pulse
  if r.1 = INVALID_NOTIFICATION_ID then r.2.fail .FNDInternalError
  else
    let b := r.2.modifyData ctx.mId (·.addNotification r.1)
    let b :=
      if b.isMasterConnected cfg && cfg.mExtendedID ≠ clientID.extendedID then
        b.eval ⟨r.1, none, .notifyClientDetach clientID
          (masterPulse cfg .PULSE_MASTER_CLIENT_DETACH r.1)⟩
      else if b.mAttachedClients.finds clientID then b
      else b.trigger cfg .clientDetach clientID
    b.respond (.notificationID r.1)

/-- `handleNotifyInterfaceListChange`. -/
def handleNotifyInterfaceListChange (cfg : Config) (ctx : SocketConnectionContext)
    (pulse : SFNDPulseInfo) (b : Broker) : Broker × Option Response :=
  let r := b.addPlain cfg .serverListChange ctx pulse
  if r.1 = INVALID_NOTIFICATION_ID then r.2.fail .FNDBadArgument
  else
    let b := r.2.modifyData ctx.mId (·.addNotification r.1)
    let b := b.evalMaster cfg ⟨r.1, none, .notifyInterfaceListChange
      (masterPulse cfg .PULSE_MASTER_SERVERLIST_CHANGE r.1)⟩
    b.respond (.notificationID r.1)

/-- The servers that `handleNotifyInterfaceListMatch` shows to a caller. -/
def listMatchVisible (ctx : SocketConnectionContext) (e : ServerListEntry) : Bool :=
  ctx.mNodeAddress == SB_LOCAL_NODE_ADDRESS || !e.isLocal

/-- `handleNotifyInterfaceListMatch`. -/
def handleNotifyInterfaceListMatch (cfg : Config) (ctx : SocketConnectionContext)
    (pulse : SFNDPulseInfo) (regExpr : CString) (b : Broker) : Broker × Option Response :=
  let r := b.addRegExp cfg .serverListChange regExpr ctx pulse
  if r.1 = INVALID_NOTIFICATION_ID then r.2.fail .FNDBadArgument
  else
    let b := r.2.modifyData ctx.mId (·.addNotification r.1)
    let b := b.evalMaster cfg ⟨r.1, none, .notifyInterfaceListMatch
      (masterPulse cfg .PULSE_MASTER_SERVERLIST_CHANGE r.1) regExpr⟩
    let matched := (b.findNotification .serverListChange r.1).any (fun n =>
      b.mConnectedServers.entries.any (fun e =>
        listMatchVisible ctx e && matchRegExp cfg e.ifDescription.name n))
    let b :=
      if matched then
        b.sweep cfg true .serverListChange
          (fun _ n => if n.notificationID = r.1 then .notify else .keep)
      else b
    b.respond (.notificationID r.1)

/-- `handleClearNofification`. -/
def handleClearNotification (cfg : Config) (ctx : SocketConnectionContext)
    (notificationID : UInt32) (b : Broker) : Broker × Option Response :=
  if notificationID ∈ (b.dataOf ctx.mId).mNotificationList then
    let b := b.modifyData ctx.mId (·.removeNotification notificationID)
    let b := b.removeNotification cfg .clientDetach notificationID
    let b := b.removeNotification cfg .serverDisconnect notificationID
    let b := b.removeNotification cfg .serverConnect notificationID
    let b := b.removeNotification cfg .serverListChange notificationID
    b.respond .empty
  else b.fail .FNDInvalidNotificationID

/-! ## Attaching and detaching -/

/-- The client ID that `addClient` gives out next.  Outside tree mode it takes the
extended ID of the server. -/
def nextClientIDFor (cfg : Config) (serverID : SPartyID) (b : Broker) : SPartyID :=
  ⟨UInt32.ofNat b.mNextClientID, if cfg.isTreeMode then cfg.mExtendedID else serverID.extendedID⟩

/-- `addClient`. -/
def addClient (cfg : Config) (c : Nat) (serverID : SPartyID) (b : Broker) : SPartyID × Broker :=
  let clientID := b.nextClientIDFor cfg serverID
  let b := { b with
    mNextClientID := b.mNextClientID + 1
    mAttachedClients := b.mAttachedClients ++ [⟨clientID, serverID, c⟩] }
  (clientID, if clientID.globalID ≠ 0 then b.modifyData c (·.addClient clientID) else b)

/-- `handleAttachLocalInterface`; `none` stands for `FNDAccessDenied`.  The node
translator of `Main.cpp` returns 0 for every node. -/
def handleAttachLocalInterface (cfg : Config) (ctx : SocketConnectionContext)
    (entry : ServerListEntry) (b : Broker) : Option SConnectionInfo × Broker :=
  if entry.grpid = SB_UNKNOWN_GROUP_ID ∨ (ctx.isLocal ∧ checkAccessPrivileges cfg ctx entry) then
    let r := b.addClient cfg ctx.mId entry.partyID
    (some
      { majorVersion := entry.ifDescription.majorVersion
        minorVersion := entry.ifDescription.minorVersion
        channel :=
          { nid := 0
            pid := ctx.translateLocal entry.ifDescription.name entry.pid
            chid := entry.chid }
        serverID := entry.partyID
        clientID := r.1 }, r.2)
  else (none, b)

/-- `handleAttachInterface(SFNDInterfaceAttachArg)`. -/
def handleAttachInterface (cfg : Config) (ctx : SocketConnectionContext)
    (d : InterfaceDescription) (b : Broker) : Broker × Option Response :=
  if check d then
    match b.mConnectedServers.findDescription d with
    | some entry =>
        let r := b.handleAttachLocalInterface cfg ctx entry
        match r.1 with
        | some info => r.2.respond (.connInfo info)
        | none => r.2.fail .FNDAccessDenied
    | none =>
        if !cfg.isLocalService d.name && cfg.forwardService d.name && b.isMasterConnected cfg then
          let job : Job := ⟨UInt32.ofNat b.mNextPendingRemoteServerRequestID, some ctx.mId,
            .attachInterface d⟩
          let b := { b with
            mNextPendingRemoteServerRequestID := b.mNextPendingRemoteServerRequestID + 1 }
          (b.eval job, none)
        else b.fail .FNDUnknownInterface
  else b.fail .FNDBadArgument

/-- The pool of an extended attach: its position, and whether it was there before. -/
def extendedPool (d : InterfaceDescription) (b : Broker) : Nat × Bool × Broker :=
  match b.mMasterNotificationPool.findIdx? (·.isFor d true) with
  | some pos => (pos, true, b)
  | none => (0, false, b.addPoolDescription d true)

/-- The end of `forwardAttachExtendedToMaster`, when the notification has joined
the pool at `pos`: the master is asked for the first member of a pool and again
after the server was reported, and who comes while it is asked just waits. -/
def askMasterExtended (cfg : Config) (c : Nat) (d : InterfaceDescription) (pos : Nat)
    (poolFound : Bool) (notificationID : UInt32) (b : Broker) : Broker × Option Response :=
  let job : Job := ⟨0, some c, .attachInterfaceExtended
    (masterPulse cfg .PULSE_MASTER_ATTACH_EXTENDED (b.poolIDAt pos)) d⟩
  match b.poolStateAt pos with
  | .STATE_CONNECTED => ((b.modifyPool pos (·.setState .STATE_PRECACHING)).eval job, none)
  | .STATE_PRECACHING => (if poolFound then b else b.eval job, none)
  | _ =>
      if poolFound then
        (b, some ⟨SBStatus.FNDUnknownInterface.toInt, .attachExtended none notificationID⟩)
      else (b.eval job, none)

/-- `forwardAttachExtendedToMaster`. -/
def forwardAttachExtendedToMaster (cfg : Config) (ctx : SocketConnectionContext)
    (pulse : SFNDPulseInfo) (d : InterfaceDescription) (b : Broker) : Broker × Option Response :=
  let p := b.extendedPool d
  let r := p.2.2.addDescription cfg .serverConnect d ctx pulse (cfg.isLocalService d.name)
  if r.1 = INVALID_NOTIFICATION_ID then r.2.fail .FNDInvalidNotificationID
  else
    match r.2.findNotification .serverConnect r.1 with
    | none => r.2.fail .FNDInternalError
    | some _ =>
        let b := r.2.modifyData ctx.mId (·.addNotification r.1)
        (b.attachPool p.1 .serverConnect r.1).askMasterExtended cfg ctx.mId d p.1 p.2.1 r.1

/-- `handleAttachInterface(SFNDInterfaceAttachExtendedArg)`.  The disconnect
notification on a server found here is set with the pulse of an argument that the
handler never fills. -/
def handleAttachInterfaceExtended (cfg : Config) (ctx : SocketConnectionContext)
    (pulse : SFNDPulseInfo) (d : InterfaceDescription) (stackPulse : SFNDPulseInfo) (b : Broker) :
    Broker × Option Response :=
  if check d then
    match b.mConnectedServers.findDescription d with
    | some entry =>
        let r := b.handleAttachLocalInterface cfg ctx entry
        match r.1 with
        | none => r.2.fail .FNDAccessDenied
        | some info =>
            let s := r.2.handleNotifyServerDisconnectNoResponse cfg ctx entry.partyID stackPulse
            match s.1 with
            | some id => s.2.respond (.attachExtended (some info) id)
            | none => s.2.fail .FNDInternalError
    | none =>
        if cfg.isLocalService d.name || !cfg.forwardService d.name || !b.isMasterConnected cfg then
          let r := b.handleNotifyServerAvailableNoResponse cfg ctx pulse d
          match r.1 with
          | .ok id => (r.2, some ⟨SBStatus.FNDUnknownInterface.toInt, .attachExtended none id⟩)
          | .error s => r.2.fail s
        else b.forwardAttachExtendedToMaster cfg ctx pulse d
  else b.fail .FNDBadArgument

/-- `handleGetServerInformation`. -/
def handleGetServerInformation (cfg : Config) (ctx : SocketConnectionContext)
    (d : InterfaceDescription) (b : Broker) : Broker × Option Response :=
  if check d then
    match b.mConnectedServers.findDescription d with
    | some entry =>
        b.respond (.serverInfo
          { channel :=
              { nid := entry.nid
                pid := ctx.translateLocal entry.ifDescription.name entry.pid
                chid := entry.chid }
            serverID := entry.partyID })
    | none =>
        if !cfg.isLocalService d.name && b.isMasterConnected cfg then
          let cookie := UInt32.ofNat b.mNextPendingRemoteServerRequestID
          let b := { b with
            mNextPendingRemoteServerRequestID := b.mNextPendingRemoteServerRequestID + 1
            mPendingRemoteServersRequests :=
              (cookie, d) :: b.mPendingRemoteServersRequests.filter (·.1 ≠ cookie) }
          (b.eval ⟨cookie, some ctx.mId, .getServerInformation d⟩, none)
        else b.fail .FNDUnknownInterface
  else b.fail .FNDBadArgument

/-- `handleDetachInterface`. -/
def handleDetachInterface (cfg : Config) (ctx : SocketConnectionContext) (clientID : SPartyID)
    (b : Broker) : Broker × Option Response :=
  if (b.dataOf ctx.mId).mClientList.contains clientID && b.mAttachedClients.finds clientID then
    let b := b.trigger cfg .clientDetach clientID
    let b := { b with mAttachedClients := b.mAttachedClients.remove clientID }
    (b.modifyData ctx.mId (·.removeClient clientID)).respond .empty
  else if b.isMasterConnected cfg then
    let b := b.eval ⟨0, some ctx.mId, .detachInterface clientID⟩
    (b.modifyData ctx.mId (·.removeClient clientID), none)
  else b.fail .FNDInvalidClientID

/-! ## Interface lists -/

/-- The interfaces that `handleGetInterfaceList` and `handleMatchInterfaceList`
show to a caller. -/
def listVisible (ctx : SocketConnectionContext) (e : ServerListEntry) : Bool :=
  !ctx.mSlave || !e.isLocal

/-- `sizeof(SFNDInterfaceDescription)`. -/
def sizeofInterfaceDescription : Nat := 260

/-- `sizeof(Job)`, where pointers and sizes have 64 bits. -/
def sizeofJob : Nat := 320

/-- What `handleGetInterfaceList` asks `Job::create` to put behind the `Job`: the request
of eight bytes or, reckoned in `size_t` from a count that is signed, the answer. -/
def listArgSize (inCount : Int32) : Nat :=
  max 8 ((sizeofInterfaceDescription + inCount.toInt * sizeofInterfaceDescription) % 2 ^ 64).toNat

/-- `handleGetInterfaceList`.  The count is returned negated. -/
def handleGetInterfaceList (cfg : Config) (ctx : SocketConnectionContext) (inCount : Int32)
    (b : Broker) : Broker × Option Response :=
  if b.isMasterConnected cfg then
    (b.eval ⟨inCount.toUInt32, some ctx.mId, .getInterfaceList inCount⟩, none)
  else if b.mConnectedServers.entries.length ≤ inCount.toUInt32.toNat then
    let l := (b.mConnectedServers.entries.filter (listVisible ctx)).map (·.ifDescription)
    (b, some ⟨-l.length, .interfaces l⟩)
  else b.fail .FNDBadArgument

/-- The loop of `handleMatchInterfaceList`: `none` when a further match does not
fit. -/
def matchLoop (cfg : Config) (ctx : SocketConnectionContext) (inCount : Int32)
    (regExpr : CString) : List ServerListEntry → List InterfaceDescription →
    Option (List InterfaceDescription)
  | [], acc => some acc
  | e :: es, acc =>
      if cfg.regexec regExpr e.ifDescription.name then
        if inCount.toInt ≤ acc.length then none
        else if listVisible ctx e then matchLoop cfg ctx inCount regExpr es
          (acc ++ [e.ifDescription])
        else matchLoop cfg ctx inCount regExpr es acc
      else matchLoop cfg ctx inCount regExpr es acc

/-- `handleMatchInterfaceList`. -/
def handleMatchInterfaceList (cfg : Config) (ctx : SocketConnectionContext) (inCount : Int32)
    (regExpr : CString) (b : Broker) : Broker × Option Response :=
  if !cfg.regcomp regExpr then (b, some ⟨-SBStatus.FNDRegularExpression.toInt, .empty⟩)
  else if b.isMasterConnected cfg then
    (b.eval ⟨inCount.toUInt32, some ctx.mId, .matchInterfaceList inCount regExpr⟩, none)
  else
    match matchLoop cfg ctx inCount regExpr b.mConnectedServers.entries [] with
    | some l => (b, some ⟨-l.length, .interfaces l⟩)
    | none => b.fail .FNDBadArgument

/-- The process breaks off at this request: `Job::create` clears more than it allocates,
because the sum of its sizes is no `size_t` any more; or `AutoBuffer::write` does not
take the null pointer of `prepareResponse(-FNDRegularExpression, 0, 0)`. -/
def breaksOff (cfg : Config) (b : Broker) : Request → Bool
  | .getInterfaceList n =>
      b.isMasterConnected cfg && decide (2 ^ 64 ≤ sizeofJob + listArgSize n)
  | .matchInterfaceList _ regExpr => !cfg.regcomp regExpr && !cfg.ndebug
  | _ => false

/-! ## Slaves -/

/-- `setSlave`. -/
def setSlave (c : Nat) (b : Broker) : Broker :=
  b.setConnection c ((b.conns c).map (fun k => { k with mSlave := true }))

/-- `handleMasterPingId`.  The stale connections with the same ID that the
connection acceptor disposes of are closed by events of their own. -/
def handleMasterPingId (ctx : SocketConnectionContext) (id : UInt32) (b : Broker) :
    Broker × Option Response :=
  let b := b.modifyData ctx.mId (fun d => { d with mExtendedID := id })
  (b.setSlave ctx.mId).respond .empty

/-! ## Dispatching and closing -/

/-- `Servicebroker::dispatch` for requests. -/
def dispatch (cfg : Config) (ctx : SocketConnectionContext) (b : Broker) :
    Request → Broker × Option Response
  | .masterPing => (b.setSlave ctx.mId).respond .empty
  | .masterPingId id => b.handleMasterPingId ctx id
  | .registerInterface d pid chid => b.handleRegisterInterface cfg ctx d pid chid
  | .registerInterfaceEx n pid chid rs => b.handleRegisterInterfaceEx cfg ctx n pid chid rs
  | .registerInterfaceGroupID d pid chid gid =>
      b.handleRegisterInterfaceGroupID cfg ctx d pid chid gid
  | .registerMasterInterfaceEx n rs => b.handleRegisterMasterInterface cfg ctx n rs
  | .unregisterInterface id => b.handleUnregisterInterface cfg ctx id
  | .attachInterface d => b.handleAttachInterface cfg ctx d
  | .attachInterfaceExtended pulse d stackPulse =>
      b.handleAttachInterfaceExtended cfg ctx pulse d stackPulse
  | .getServerInformation d => b.handleGetServerInformation cfg ctx d
  | .detachInterface id => b.handleDetachInterface cfg ctx id
  | .notifyServerDisconnect id pulse => b.handleNotifyServerDisconnect cfg ctx id pulse
  | .notifyServerAvailable pulse d => b.handleNotifyServerAvailable cfg ctx pulse d
  | .notifyServerAvailableEx n rs => b.handleNotifyServerAvailableEx cfg ctx n rs
  | .notifyClientDetach id pulse => b.handleNotifyClientDetach cfg ctx id pulse
  | .clearNotification id => b.handleClearNotification cfg ctx id
  | .getInterfaceList n => b.handleGetInterfaceList cfg ctx n
  | .notifyInterfaceListChange pulse => b.handleNotifyInterfaceListChange cfg ctx pulse
  | .matchInterfaceList n re => b.handleMatchInterfaceList cfg ctx n re
  | .notifyInterfaceListMatch pulse re => b.handleNotifyInterfaceListMatch cfg ctx pulse re
  | .badFoundationVersion => b.fail .FNDBadFoundationVersion
  | .malformed => b.fail .FNDInternalError

/-- One server of `ClientSpecificData::clear`. -/
def clearServer (cfg : Config) (b : Broker) (serverID : SPartyID) : Broker :=
  match b.mConnectedServers.findID serverID with
  | none => b
  | some entry =>
      (b.unregisterInterfaceMaster cfg entry.masterID).dropServer serverID

/-- One client of `ClientSpecificData::clear`. -/
def clearClient (cfg : Config) (b : Broker) (clientID : SPartyID) : Broker :=
  let b := { b with mAttachedClients := b.mAttachedClients.remove clientID }
  b.evalMaster cfg ⟨0, none, .detachInterface clientID⟩

/-- `ClientSpecificData::clear`. -/
def clear (cfg : Config) (c : Nat) (b : Broker) : Broker :=
  let d := b.dataOf c
  let b := d.mServerList.elems.foldl (clearServer cfg) b
  let b := d.mClientList.elems.foldl (clearClient cfg) b
  let b := b.triggerList cfg .serverDisconnect d.mServerList
  let b := b.triggerList cfg .clientDetach d.mClientList
  let b := b.removeNotificationsOf cfg .serverDisconnect c
  let b := b.removeNotificationsOf cfg .clientDetach c
  let b := b.removeNotificationsOf cfg .serverConnect c
  let b := b.removeNotificationsOf cfg .serverListChange c
  if d.mServerList.elems ≠ [] then b.triggerAll cfg .serverListChange else b

end Broker

end Dsi
