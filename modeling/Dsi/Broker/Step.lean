import Dsi.Broker.Handlers

/-!
# Dsi.Broker.Step

The rest of the broker process: the replies of the master
(`handleJobFinished`), the pulses it sends, the connection to it being made and
lost, the worker thread (`WorkerThread.cpp`, `MasterAdapter.cpp`), and the steps
of the whole process.

A handler runs to its end before the next event: all of them are called from the
dispatcher loop of the main thread.  The worker thread runs beside it, so its
steps are events of their own.
-/

namespace Dsi

open Sequence

namespace Broker

/-! ## Replies of the master -/

/-- `EINVAL`. -/
def EINVAL : Int := 22

/-- `EIO`. -/
def EIO : Int := 5

/-- What a reply handler leaves in the job for the client that waits for it. -/
structure JobReply where
  status : Int
  ret_val : Int
  body : ResponseBody

/-- `sendDeferredResponse`. -/
def JobReply.response (r : JobReply) : Response :=
  if r.status ≠ 0 then Response.status .FNDInternalError
  else if r.ret_val ≤ 0 then ⟨r.ret_val, r.body⟩ else ⟨r.ret_val, .empty⟩

/-- `handleJobFinishedAttachExtended` behind its consistency checks: the server is
at the master if its channel is set. -/
def finishAttachExtended (cfg : Config) (c : Nat) (res : JobResult) (mainID poolID : UInt32)
    (pos : Nat) (b : Broker) : JobReply × Broker :=
  let state := b.poolStateAt pos
  let count := (b.mServerConnectNotifications.filter (fun n => n.poolID = poolID)).length
  let b := b.modifyPool pos (fun np => { np with notificationID := res.notificationID })
  let b := b.setMasterNotificationID .serverConnect res.notificationID poolID
  if state = .STATE_DEFERRED ∧ count = 0 then
    (⟨SBStatus.FNDInternalError.toInt, res.ret_val, .empty⟩, b)
  else if res.connInfo.channel.chid ≠ 0 then
    let r := b.addClient cfg c res.connInfo.serverID
    let b := r.2.moveNotifications .serverDisconnect .serverConnect poolID
    let b := b.setType .serverDisconnect poolID res.connInfo.serverID
    (⟨0, res.ret_val, .attachExtended (some { res.connInfo with clientID := r.1 }) mainID⟩,
      b.modifyPool pos (·.setStateServer res.connInfo.serverID))
  else
    (⟨0, res.ret_val, .attachExtended (some res.connInfo) mainID⟩,
      b.modifyPool pos (·.setState .STATE_CONNECTING))

/-- `handleJobFinishedAttachExtended`. -/
def handleJobFinishedAttachExtended (cfg : Config) (job : Job) (res : JobResult) (b : Broker) :
    JobReply × Broker :=
  let internalError : JobReply := ⟨SBStatus.FNDInternalError.toInt, res.ret_val, .empty⟩
  match b.mPendingAttachExtendedJobs.lookup job.cookie with
  | none => (internalError, b)
  | some mainID =>
      let done (r : JobReply × Broker) : JobReply × Broker :=
        (r.1, { r.2 with mPendingAttachExtendedJobs :=
          r.2.mPendingAttachExtendedJobs.filter (·.1 ≠ job.cookie) })
      match b.findNotification .serverConnect mainID with
      | none => done (internalError, b)
      | some n =>
          match b.mMasterNotificationPool.findPool n.poolID with
          | none => done (internalError, b)
          | some pos =>
              if b.poolStateAt pos ≠ .STATE_DEFERRED ∧ b.poolStateAt pos ≠ .STATE_PRECACHING then
                done (internalError, b)
              else done (b.finishAttachExtended cfg (job.ctx.getD 0) res mainID n.poolID pos)

/-- The master's ID for a pool, if the pool is still there; otherwise the
notification is cleared at the master again. -/
def storePoolNotification (cfg : Config) (poolID notificationID : UInt32) (b : Broker) : Broker :=
  match b.mMasterNotificationPool.findPool poolID with
  | some pos => b.modifyPool pos (fun np => { np with notificationID := notificationID })
  | none => b.createClearNotificationJob cfg notificationID

/-- One record of the `NOTIFY_SERVER_AVAILABLE_EX` reply. -/
def finishAvailableRecord (cfg : Config) (b : Broker) (r : SFNDNotificationID) : Broker :=
  if r.notificationID = INVALID_NOTIFICATION_ID then b
  else b.storePoolNotification cfg r.cookie r.notificationID

/-- The master's ID for a notification that has no pool. -/
def storeMasterNotification (cfg : Config) (k : NotificationKind) (id masterID : UInt32)
    (b : Broker) : Broker :=
  match b.findNotification k id with
  | some _ => b.modifyNotification k id (fun n => { n with masterNotificationID := masterID })
  | none => b.createClearNotificationJob cfg masterID

/-- One ID of the `REGISTER_MASTER_INTERFACE_EX` reply. -/
def finishRegisterRecord (cfg : Config) (b : Broker) (id : SPartyID) : Broker :=
  match b.mConnectedServers.findByLocalIDandInvalidMasterID id.localID with
  | some _ =>
      if id.extendedID = 0xffffffff then b
      else { b with mConnectedServers :=
        b.mConnectedServers.setMasterID (ServerList.isPendingLocalID id.localID) id }
  | none => b.unregisterInterfaceMaster cfg id

/-- Appends the local interfaces to the list of the master, in a buffer of
`capacity` elements. -/
def appendLocal (p : ServerListEntry → Bool) (capacity : Int) : List ServerListEntry →
    List InterfaceDescription → Option (List InterfaceDescription)
  | [], acc => some acc
  | e :: es, acc =>
      if p e then
        if capacity ≤ acc.length then none
        else appendLocal p capacity es (acc ++ [e.ifDescription])
      else appendLocal p capacity es acc

/-- The reply to `GET_INTERFACELIST` and `MATCH_INTERFACELIST`. -/
def finishInterfaceList (p : ServerListEntry → Bool) (inCount : Int32) (res : JobResult)
    (b : Broker) : JobReply :=
  match appendLocal p inCount.toInt b.mConnectedServers.entries
      ((List.range res.ret_val.toNat).map res.interfaceDescriptions) with
  | some l => ⟨0, -l.length, .interfaces l⟩
  | none => ⟨EINVAL, res.ret_val, .empty⟩

/-- The switch of `handleJobFinished` over the command, for `status == 0`. -/
def jobReply (cfg : Config) (job : Job) (res : JobResult) (b : Broker) : JobReply × Broker :=
  let plain (body : ResponseBody) : JobReply := ⟨0, res.ret_val, body⟩
  match job.arg with
  | .attachInterface _ =>
      (plain (.connInfo res.connInfo),
        b.modifyData (job.ctx.getD 0) (·.addClient res.connInfo.clientID))
  | .attachInterfaceExtended _ _ => b.handleJobFinishedAttachExtended cfg job res
  | .getServerInformation _ =>
      if (b.mPendingRemoteServersRequests.lookup job.cookie).isSome then
        (plain (.serverInfo res.serverInfo),
          { b with mPendingRemoteServersRequests :=
            b.mPendingRemoteServersRequests.filter (·.1 ≠ job.cookie) })
      else (⟨SBStatus.FNDInternalError.toInt, res.ret_val, .empty⟩, b)
  | .notifyServerAvailableEx _ =>
      (plain .empty, ((List.range job.cookie.toNat).map res.notifications).foldl
        (finishAvailableRecord cfg) b)
  | .notifyServerDisconnect _ _ =>
      (plain .empty, b.storePoolNotification cfg job.cookie res.notificationID)
  | .notifyClientDetach _ _ =>
      (plain .empty, b.storeMasterNotification cfg .clientDetach job.cookie res.notificationID)
  | .notifyInterfaceListChange _ =>
      (plain .empty, b.storeMasterNotification cfg .serverListChange job.cookie res.notificationID)
  | .notifyInterfaceListMatch _ _ =>
      (plain .empty, b.storeMasterNotification cfg .serverListChange job.cookie res.notificationID)
  | .registerMasterInterfaceEx _ =>
      (plain .empty, ((List.range job.cookie.toNat).map res.serverID).foldl
        (finishRegisterRecord cfg) b)
  | .getInterfaceList n =>
      (b.finishInterfaceList (fun e => e.isLocal || !cfg.forwardService e.ifDescription.name) n
        res, b)
  | .matchInterfaceList n re =>
      (b.finishInterfaceList (fun e => (e.isLocal || !cfg.forwardService e.ifDescription.name) &&
        cfg.regexec re e.ifDescription.name) n res, b)
  | .detachInterface _ | .unregisterInterface _ | .clearNotification _ => (plain .empty, b)

/-- `Job::finalize`: the connection that waits gets its answer. -/
def finalize (job : Job) (r : JobReply) (b : Broker) : Broker :=
  match job.ctx with
  | none => b
  | some c =>
      match b.conns c with
      | none => b
      | some k =>
          (b.setConnection c (some { k with deferred := false })).emit
            (.deferredResponse c r.response)

/-- `handleJobFinished`. -/
def handleJobFinished (cfg : Config) (job : Job) (res : JobResult) (b : Broker) : Broker :=
  if res.status = 0 then
    let r := b.jobReply cfg job res
    r.2.finalize job r.1
  else b.finalize job ⟨res.status, res.ret_val, .empty⟩

/-! ## Pulses -/

/-- `handleMasterConnected`. -/
def handleMasterConnected (cfg : Config) (b : Broker) : Broker :=
  (b.registerInterfacesMaster cfg).forwardServerAvailableNotifications cfg

/-- `handleMasterDisconnected`. -/
def handleMasterDisconnected (cfg : Config) (b : Broker) : Broker :=
  let b := { b with
    mConnectedServers := b.mConnectedServers.clearMasterIDs
    mMasterNotificationPool := []
    mPendingRemoteServersRequests := []
    mPendingAttachExtendedJobs := [] }
  let b := b.sweep cfg false .serverDisconnect (fun b n =>
    if n.active ∧ cfg.mExtendedID ≠ n.partyID.extendedID ∧
        (b.mConnectedServers.findID n.partyID).isNone then .fire else .keep)
  let b := b.triggerNotLocal cfg .clientDetach cfg.mExtendedID
  b.clearMasterNotification .serverConnect

/-- `handleMasterClientDetach`. -/
def handleMasterClientDetach (cfg : Config) (id : UInt32) (b : Broker) : Broker :=
  match b.findNotification .clientDetach id with
  | some n => b.trigger cfg .clientDetach n.partyID
  | none => b.triggerID cfg .clientDetach id true

/-- `handleMasterAttachExtended`. -/
def handleMasterAttachExtended (cfg : Config) (poolID : UInt32) (b : Broker) : Broker :=
  match b.mMasterNotificationPool.findPool poolID with
  | none => b
  | some pos =>
      match b.poolStateAt pos with
      | .STATE_MONITOR_DISCONNECT => b.triggerPool cfg .serverDisconnect poolID
      | .STATE_CONNECTING =>
          (b.modifyPool pos (·.setState .STATE_CONNECTED)).triggerPool cfg .serverConnect poolID
      | _ => b

/-- `Servicebroker::dispatch` for the pulses of the master. -/
def dispatchPulse (cfg : Config) (pulse : MasterPulse) (value : UInt32) (b : Broker) : Broker :=
  match pulse with
  | .PULSE_MASTER_SERVER_AVAILABLE => b.triggerPool cfg .serverConnect value
  | .PULSE_MASTER_SERVER_DISCONNECT => b.triggerPool cfg .serverDisconnect value
  | .PULSE_MASTER_CLIENT_DETACH => b.handleMasterClientDetach cfg value
  | .PULSE_MASTER_SERVERLIST_CHANGE => b.triggerID cfg .serverListChange value false
  | .PULSE_MASTER_ATTACH_EXTENDED => b.handleMasterAttachExtended cfg value

/-- `Servicebroker::dispatch` for what the worker thread reports. -/
def dispatchInternal (cfg : Config) (b : Broker) : InternalNotification → Broker
  | .jobExecuted job res => b.handleJobFinished cfg job res
  | .masterConnected => b.handleMasterConnected cfg
  | .masterDisconnected => b.handleMasterDisconnected cfg

/-! ## The worker thread -/

/-- The steps of `WorkerThread::run` that change something: a job is taken off the
queue and failed while there is no master, the socket is connected, the ID ping is
answered or not, a job is taken off the queue for execution, `sendAndReceive`
returns, the periodic ping fails, and the thread is stopped. -/
inductive WorkerStep where
  | removePending
  | connect
  | idPing (ok : Bool)
  | pop
  | finish (raw : JobResult)
  | pingFailed
  | stop

/-- `MasterConnectorSocket::execute` on the result of `sendAndReceive`. -/
def execute (raw : JobResult) : JobResult :=
  if raw.status = 0 then
    if raw.ret_val < 0 then { raw with ret_val := -raw.ret_val }
    else if raw.ret_val = SBStatus.FNDBadArgument.toInt then { raw with status := EINVAL }
    else raw
  else raw

/-- `mConnected` is reset and the main thread is told. -/
def disconnectMaster (phase : MasterPhase) (b : Broker) : Broker :=
  { b with phase := phase, pipe := b.pipe ++ [.masterDisconnected] }

/-- One step of the worker thread; a step that is not possible changes nothing.  The
jobs pushed after the queue was found empty are in it still when the socket is
connected. -/
def workerStep (b : Broker) (w : WorkerStep) : Broker :=
  match w, b.phase, b.executing, b.mQueue with
  | .removePending, .disconnected, _, job :: q =>
      { b with mQueue := q, pipe := b.pipe ++ [.jobExecuted job { status := EIO, ret_val := 0 }] }
  | .connect, .disconnected, _, _ => { b with phase := .idPing }
  | .idPing true, .idPing, _, _ =>
      { b with phase := .connected, pipe := b.pipe ++ [.masterConnected] }
  | .idPing false, .idPing, _, _ => { b with phase := .disconnected }
  | .pop, .connected, none, job :: q => { b with executing := some job, mQueue := q }
  | .finish raw, .connected, some job, _ =>
      let b := { b with executing := none, pipe := b.pipe ++ [.jobExecuted job (execute raw)] }
      if raw.status = 0 then b else b.disconnectMaster .disconnected
  | .pingFailed, .connected, none, _ => b.disconnectMaster .disconnected
  | .stop, .stopped, _, _ => b
  | .stop, _, none, _ => b.disconnectMaster .stopped
  | _, _, _, _ => b

/-! ## The process -/

/-- What can happen to a broker. -/
inductive Event where
  | connected (nodeAddress localAddress : UInt32) (uid : Int32)
  | request (c : Nat) (r : Request)
  | closed (c : Nat)
  | pulse (p : MasterPulse) (value : UInt32)
  | deliver
  | worker (w : WorkerStep)

/-- A new connection: `ServicebrokerClientBase::ServicebrokerClientBase`. -/
def openConnection (nodeAddress localAddress : UInt32) (uid : Int32) (b : Broker) : Broker :=
  { b.setConnection b.nextConnectionId (some
      { mNodeAddress := nodeAddress, mLocalAddress := localAddress, mUid := uid }) with
    nextConnectionId := b.nextConnectionId + 1 }

/-- `ServicebrokerClientBase::eval`: a connection whose answer is deferred is not
read from.  Where the process breaks off nothing is behind the request. -/
def request (cfg : Config) (c : Nat) (r : Request) (b : Broker) : Broker :=
  match b.conns c with
  | none => b
  | some k =>
      if k.deferred || b.breaksOff cfg r then b
      else
        let s := b.dispatch cfg (k.ctx c) r
        match s.2 with
        | some resp => s.1.emit (.response c resp)
        | none => s.1.setConnection c ((s.1.conns c).map (fun k => { k with deferred := true }))

/-- `ServicebrokerClientBase::~ServicebrokerClientBase`, for a connection whose
socket is armed and reports the end, and for a TCP connection whose timer finds that
nothing was read since it fired last. -/
def closeConnection (cfg : Config) (c : Nat) (b : Broker) : Broker :=
  match b.conns c with
  | none => b
  | some k => if k.held then b else (b.clear cfg c).setConnection c none

/-- The result of a job is for a connection that was closed while it waited.  The job
still refers to it, and of what comes behind that access nothing can be said. -/
def lostContext (b : Broker) : InternalNotification → Bool
  | .jobExecuted job _ => job.ctx.any (fun c => (b.conns c).isNone)
  | .masterConnected | .masterDisconnected => false

/-- The notification that the main thread takes out of the pipe and handles next. -/
def delivered (b : Broker) : Option InternalNotification :=
  b.pipe.head?.filter (fun n => !b.lostContext n)

/-- One step of the process. -/
def step (cfg : Config) (b : Broker) : Event → Broker
  | .connected nodeAddress localAddress uid => b.openConnection nodeAddress localAddress uid
  | .request c r => b.request cfg c r
  | .closed c => b.closeConnection cfg c
  | .pulse p value => b.dispatchPulse cfg p value
  | .deliver =>
      match b.pipe with
      | [] => b
      | n :: rest =>
          if b.lostContext n then b else { b with pipe := rest }.dispatchInternal cfg n
  | .worker w => b.workerStep w

/-- A freshly started broker. -/
def init : Broker := {}

end Broker

end Dsi
