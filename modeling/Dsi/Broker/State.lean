import Dsi.Broker.Tables

/-!
# Dsi.Broker.State

The state of one servicebroker process: the tables of the `Servicebroker`
singleton, its connections, and the link to the master with the job queue, the
job under execution and the pipe over which the worker thread talks back.  On
top of it the operations of `Notification`, `NotificationPoolEntry` and
`NotificationList`, which all modules of the broker use.

`log` is the history of what the broker did to the outside.
-/

namespace Dsi

open Sequence

/-- What the worker thread is doing about the master.  `mConnected` is set when
the socket is connected, before the ID ping is answered. -/
inductive MasterPhase where
  | disconnected
  | idPing
  | connected
  | stopped
  deriving DecidableEq, Repr

/-- `InternalNotification`: what the worker thread writes into the pipe. -/
inductive InternalNotification where
  | jobExecuted (job : Job) (result : JobResult)
  | masterConnected
  | masterDisconnected

/-- The four notification lists. -/
inductive NotificationKind where
  | serverConnect
  | serverDisconnect
  | clientDetach
  | serverListChange
  deriving DecidableEq, Repr

/-- The broker.  The counters never wrap here; the IDs taken from them are their
values modulo `2 ^ 32`. -/
structure Broker where
  mConnectedServers : ServerList := ServerList.empty
  mAttachedClients : ClientList := []
  mServerConnectNotifications : List Notification := []
  mServerDisconnectNotifications : List Notification := []
  mClientDetachNotifications : List Notification := []
  mServerListChangeNotifications : List Notification := []
  mMasterNotificationPool : NotificationPool := []
  mPendingRemoteServersRequests : List (UInt32 × InterfaceDescription) := []
  mPendingAttachExtendedJobs : List (UInt32 × UInt32) := []
  mNextClientID : Nat := 100001
  mNextServerID : Nat := 500001
  mNextPendingRemoteServerRequestID : Nat := 1
  sNextNotificationID : Nat := 0
  nextPoolID : Nat := 100000
  nextConnectionId : Nat := 1
  attachCalls : Nat := 0
  conns : Nat → Option Connection := fun _ => none
  phase : MasterPhase := .disconnected
  mQueue : List Job := []
  executing : Option Job := none
  pipe : List InternalNotification := []
  log : List Output := []

namespace Broker

/-! ## Elementary updates -/

/-- The notification list of a kind. -/
def notifications (b : Broker) : NotificationKind → List Notification
  | .serverConnect => b.mServerConnectNotifications
  | .serverDisconnect => b.mServerDisconnectNotifications
  | .clientDetach => b.mClientDetachNotifications
  | .serverListChange => b.mServerListChangeNotifications

/-- Replaces the notification list of a kind. -/
def setNotifications (b : Broker) (k : NotificationKind) (l : List Notification) : Broker :=
  match k with
  | .serverConnect => { b with mServerConnectNotifications := l }
  | .serverDisconnect => { b with mServerDisconnectNotifications := l }
  | .clientDetach => { b with mClientDetachNotifications := l }
  | .serverListChange => { b with mServerListChangeNotifications := l }

/-- Records something the outside sees. -/
def emit (o : Output) (b : Broker) : Broker := { b with log := b.log ++ [o] }

/-- `isMasterConnected`. -/
def isMasterConnected (cfg : Config) (b : Broker) : Bool :=
  cfg.hasMaster && (b.phase == .idPing || b.phase == .connected)

/-- `MasterAdapter::eval`: the job goes into the queue of the worker thread. -/
def eval (job : Job) (b : Broker) : Broker :=
  { b with mQueue := b.mQueue ++ [job], log := b.log ++ [.job job] }

/-- Writes one connection. -/
def setConnection (c : Nat) (k : Option Connection) (b : Broker) : Broker :=
  { b with conns := fun c' => if c' = c then k else b.conns c' }

/-- Updates the `ClientSpecificData` of a connection. -/
def modifyData (c : Nat) (f : ClientSpecificData → ClientSpecificData) (b : Broker) : Broker :=
  b.setConnection c ((b.conns c).map (fun k => { k with data := f k.data }))

/-- The data of a connection. -/
def data? (c : Nat) (b : Broker) : Option ClientSpecificData := (b.conns c).map (·.data)

/-- Hands a job to the master if it is connected. -/
def evalMaster (cfg : Config) (job : Job) (b : Broker) : Broker :=
  if b.isMasterConnected cfg then b.eval job else b

/-- `createClearNotificationJob`. -/
def createClearNotificationJob (cfg : Config) (notificationID : UInt32) (b : Broker) : Broker :=
  b.evalMaster cfg ⟨0, none, .clearNotification notificationID⟩

/-! ## Notification pool -/

/-- `NotificationPool::add`: the new entry stands at position 0. -/
def addPool (mDataSwitch : DataSwitch) (mPoolState : EPoolState) (b : Broker) : Broker :=
  { b with
    mMasterNotificationPool :=
      { poolID := UInt32.ofNat b.nextPoolID, mDataSwitch := mDataSwitch,
        mPoolState := mPoolState } :: b.mMasterNotificationPool
    nextPoolID := b.nextPoolID + 1 }

/-- `NotificationPool::add(InterfaceDescription, isDeferredPool)`. -/
def addPoolDescription (d : InterfaceDescription) (isDeferredPool : Bool) (b : Broker) : Broker :=
  b.addPool (.ifDescription d) (if isDeferredPool then .STATE_DEFERRED else .STATE_CONNECTING)

/-- `NotificationPool::add(SPartyID)`. -/
def addPoolServer (id : SPartyID) (b : Broker) : Broker :=
  b.addPool (.serverID id) .STATE_MONITOR_DISCONNECT

/-- Updates the pool entry at a position. -/
def modifyPool (pos : Nat) (f : NotificationPoolEntry → NotificationPoolEntry) (b : Broker) :
    Broker :=
  { b with mMasterNotificationPool := b.mMasterNotificationPool.modify pos f }

/-- `mMasterNotificationPool[pos].getPoolID()`. -/
def poolIDAt (pos : Nat) (b : Broker) : UInt32 :=
  (b.mMasterNotificationPool[pos]?.map (·.poolID)).getD 0

/-- `mMasterNotificationPool[pos].getState()`. -/
def poolStateAt (pos : Nat) (b : Broker) : EPoolState :=
  (b.mMasterNotificationPool[pos]?.map (·.mPoolState)).getD .STATE_UNDEFINED

/-- `NotificationPoolEntry::attach` for the notification with this ID in this
list: the notification takes the pool's ID, the pool counts one more. -/
def attachPool (pos : Nat) (k : NotificationKind) (notificationID : UInt32) (b : Broker) : Broker :=
  (b.setNotifications k (modifyFirst (fun n => n.notificationID = notificationID)
      (fun n => { n with poolID := b.poolIDAt pos }) (b.notifications k))).modifyPool pos
    (fun np => { np with mRefCount := np.mRefCount + 1 })

/-- `NotificationPoolEntry::detach`. -/
def detachPool (cfg : Config) (pos : Nat) (b : Broker) : Broker :=
  match b.mMasterNotificationPool[pos]? with
  | none => b
  | some np =>
      if np.mRefCount - 1 = 0 then
        let b :=
          { b with mMasterNotificationPool := b.mMasterNotificationPool.removePool np.poolID }
        if np.notificationID ≠ INVALID_NOTIFICATION_ID then
          b.createClearNotificationJob cfg np.notificationID
        else b
      else b.modifyPool pos (fun np => { np with mRefCount := np.mRefCount - 1 })

/-! ## Notifications -/

/-- The part of `Notification::~Notification` that concerns the hosting ID list. -/
def unhost (n : Notification) (b : Broker) : Broker :=
  match n.host with
  | some c => b.modifyData c (·.removeNotification n.notificationID)
  | none => b

/-- The part of `Notification::~Notification` that concerns the master: a member
of a pool leaves it, any other notification known there is cleared.  The clear
job carries the local ID. -/
def releaseMaster (cfg : Config) (n : Notification) (b : Broker) : Broker :=
  if n.poolID ≠ 0 then
    match b.mMasterNotificationPool.findPool n.poolID with
    | some pos => b.detachPool cfg pos
    | none => b
  else if n.masterNotificationID ≠ INVALID_NOTIFICATION_ID then
    b.createClearNotificationJob cfg n.notificationID
  else b

/-- `Notification::~Notification`. -/
def destroy (cfg : Config) (n : Notification) (b : Broker) : Broker :=
  (b.unhost n).releaseMaster cfg n

/-- `Notification::doConnect`. -/
def doConnect (cfg : Config) (n : Notification) (b : Broker) : Notification × Broker :=
  let b' := { b with attachCalls := b.attachCalls + 1 }
  if cfg.attach b.attachCalls n.nid n.pulse.pid n.pulse.chid then ({ n with coid := true }, b')
  else ({ n with coid := false, pulse := ⟨0, 0, 0, 0⟩ }, b')

/-- `Notification::connect`: slaves are connected at once. -/
def connect (cfg : Config) (ctx : SocketConnectionContext) (pulse : SFNDPulseInfo)
    (n : Notification) (b : Broker) : Notification × Bool × Broker :=
  let n := { n with pulse := pulse, nid := ctx.mNodeAddress }
  if ctx.mSlave then
    let r := b.doConnect cfg n
    (r.1, r.1.coid, r.2)
  else (n, true, b)

/-- `Notification::send`. -/
def send (cfg : Config) (n : Notification) (b : Broker) : Notification × Broker :=
  let r := if n.coid then (n, b) else b.doConnect cfg n
  (r.1, r.2.emit (.sent n.notificationID r.1.pulse.code r.1.pulse.value r.1.coid))

/-- `Notification::Notification`. -/
def createNotification (b : Broker) : Notification × Broker :=
  ({ notificationID := UInt32.ofNat (b.sNextNotificationID + 1) },
    { b with sNextNotificationID := b.sNextNotificationID + 1 })

/-- `Notification::matchRegExp`. -/
def matchRegExp (cfg : Config) (name : CString) (n : Notification) : Bool :=
  match n.regExpr with
  | none => false
  | some re => cfg.regexec re name

/-! ## Notification lists -/

/-- What a loop over a notification list does with an element: leave it, send it
and leave it, deactivate it, send and erase it, or erase it. -/
inductive Action where
  | keep
  | notify
  | deactivate
  | fire
  | drop
  deriving DecidableEq, Repr

/-- The loops of `NotificationList.cpp`, with `once` for those that break after
the first hit.  The list itself is not read by what they call, so it is put back
at the end. -/
def sweepLoop (cfg : Config) (once : Bool) (act : Broker → Notification → Action) :
    List Notification → Broker → List Notification × Broker
  | [], b => ([], b)
  | n :: ns, b =>
      match act b n with
      | .keep =>
          let r := sweepLoop cfg once act ns b
          (n :: r.1, r.2)
      | .deactivate =>
          let r := sweepLoop cfg once act ns b
          ({ n with active := false } :: r.1, r.2)
      | .notify =>
          let s := b.send cfg n
          if once then (s.1 :: ns, s.2)
          else
            let r := sweepLoop cfg once act ns s.2
            (s.1 :: r.1, r.2)
      | .fire =>
          let s := b.send cfg n
          let b' := s.2.destroy cfg s.1
          if once then (ns, b') else sweepLoop cfg once act ns b'
      | .drop =>
          let b' := b.destroy cfg n
          if once then (ns, b') else sweepLoop cfg once act ns b'

/-- A loop over the list of a kind. -/
def sweep (cfg : Config) (once : Bool) (k : NotificationKind)
    (act : Broker → Notification → Action) (b : Broker) : Broker :=
  let r := sweepLoop cfg once act (b.notifications k) b
  r.2.setNotifications k r.1

/-- The loops that send and erase the active notifications satisfying `p`. -/
def fireIf (p : Notification → Bool) (_ : Broker) (n : Notification) : Action :=
  if n.active && p n then .fire else .keep

/-- `NotificationList::trigger(SPartyID)`. -/
def trigger (cfg : Config) (k : NotificationKind) (id : SPartyID) : Broker → Broker :=
  sweep cfg false k (fireIf (fun n => n.partyID = id))

/-- The versions of a notification and of an interface, as `trigger` compares them. -/
def versionMatch (n : Notification) (d : InterfaceDescription) : Bool :=
  n.ifDescription.majorVersion = d.majorVersion ∧ n.ifDescription.minorVersion ≤ d.minorVersion

/-- The decision of `NotificationList::trigger(InterfaceDescription, gid_t)`. -/
def triggerAction (cfg : Config) (d : InterfaceDescription) (grpid : Int32) (_ : Broker)
    (n : Notification) : Action :=
  if n.ifDescription.name = d.name ∧ n.active ∧ versionMatch n d then
    if grpid = SB_UNKNOWN_GROUP_ID ∨ n.uid = 0 ∨ cfg.isGroupMember grpid n.uid then .fire
    else .deactivate
  else .keep

/-- `NotificationList::trigger(InterfaceDescription, gid_t)`. -/
def triggerDescription (cfg : Config) (k : NotificationKind) (d : InterfaceDescription)
    (grpid : Int32) : Broker → Broker :=
  sweep cfg false k (triggerAction cfg d grpid)

/-- `NotificationList::trigger(notificationid_t, removeIt)`. -/
def triggerID (cfg : Config) (k : NotificationKind) (id : UInt32) (removeIt : Bool) :
    Broker → Broker :=
  sweep cfg true k (fun _ n =>
    if n.active ∧ n.notificationID = id then (if removeIt then .fire else .notify) else .keep)

/-- `NotificationList::triggerPool`. -/
def triggerPool (cfg : Config) (k : NotificationKind) (poolID : UInt32) : Broker → Broker :=
  sweep cfg false k (fireIf (fun n => n.poolID = poolID))

/-- `NotificationList::trigger(PartyIDList)`. -/
def triggerList (cfg : Config) (k : NotificationKind) (ids : PartyIDList) : Broker → Broker :=
  sweep cfg false k (fireIf (fun n => ids.contains n.partyID))

/-- `NotificationList::triggerNotLocal`. -/
def triggerNotLocal (cfg : Config) (k : NotificationKind) (extendedID : UInt32) :
    Broker → Broker :=
  sweep cfg false k (fireIf (fun n => n.partyID.extendedID ≠ extendedID))

/-- `NotificationList::triggerAll()`. -/
def triggerAll (cfg : Config) (k : NotificationKind) : Broker → Broker :=
  sweep cfg false k (fun _ n => if n.active ∧ n.regExpr = none then .notify else .keep)

/-- `NotificationList::triggerAll(InterfaceDescription)`. -/
def triggerAllDescription (cfg : Config) (k : NotificationKind) (d : InterfaceDescription) :
    Broker → Broker :=
  sweep cfg false k (fun _ n =>
    if n.active ∧ (n.regExpr = none ∨ matchRegExp cfg d.name n) then .notify else .keep)

/-- `NotificationList::remove(notificationid_t)`. -/
def removeNotification (cfg : Config) (k : NotificationKind) (id : UInt32) : Broker → Broker :=
  sweep cfg true k (fun _ n => if n.notificationID = id then .drop else .keep)

/-- `NotificationList::remove(NotificationIDList)` with the list of a connection.
The list is a reference: the destructors of the erased notifications shift it
while the loop runs. -/
def removeNotificationsOf (cfg : Config) (k : NotificationKind) (c : Nat) : Broker → Broker :=
  sweep cfg false k (fun b n =>
    if n.notificationID ∈ ((b.data? c).map (·.mNotificationList)).getD [] then .drop else .keep)

/-- `NotificationList::find`. -/
def findNotification (k : NotificationKind) (id : UInt32) (b : Broker) : Option Notification :=
  (b.notifications k).find? (fun n => n.notificationID = id)

/-- Writes the first notification with this ID. -/
def modifyNotification (k : NotificationKind) (id : UInt32) (f : Notification → Notification)
    (b : Broker) : Broker :=
  b.setNotifications k (modifyFirst (fun n => n.notificationID = id) f (b.notifications k))

/-- Writes every notification of a list. -/
def mapNotifications (k : NotificationKind) (f : Notification → Notification) (b : Broker) :
    Broker :=
  b.setNotifications k ((b.notifications k).map f)

/-- `NotificationList::clearMasterNotification`. -/
def clearMasterNotification (k : NotificationKind) : Broker → Broker :=
  mapNotifications k
    (fun n => { n with masterNotificationID := INVALID_NOTIFICATION_ID, poolID := 0 })

/-- `NotificationList::setMasterNotificationID`. -/
def setMasterNotificationID (k : NotificationKind) (id poolID : UInt32) : Broker → Broker :=
  mapNotifications k
    (fun n => if n.poolID = poolID then { n with masterNotificationID := id } else n)

/-- `NotificationList::setType`. -/
def setType (k : NotificationKind) (poolID : UInt32) (partyID : SPartyID) : Broker → Broker :=
  mapNotifications k (fun n => if n.poolID = poolID then { n with partyID := partyID } else n)

/-- `NotificationList::move`.  The copy constructor takes the pool ID away from
the source, and `add(Notification&)` then copies it from there. -/
def moveNotifications (target source : NotificationKind) (poolID : UInt32) (b : Broker) : Broker :=
  let moved := (b.notifications source).filter (fun n => n.poolID = poolID)
  let kept := (b.notifications source).filter (fun n => n.poolID ≠ poolID)
  (b.setNotifications source kept).setNotifications target
    ((moved.map (fun n => { n with poolID := 0 })).reverse ++ b.notifications target)

/-- The common part of `NotificationList::add`: a fresh notification is connected,
filled by `setup` and put in front. -/
def addNotification (cfg : Config) (k : NotificationKind) (ctx : SocketConnectionContext)
    (pulse : SFNDPulseInfo) (setup : Notification → Notification) (b : Broker) : UInt32 × Broker :=
  let e := b.createNotification
  let r := e.2.connect cfg ctx pulse e.1
  if r.2.1 then
    (r.1.notificationID, r.2.2.setNotifications k (setup r.1 :: r.2.2.notifications k))
  else (INVALID_NOTIFICATION_ID, r.2.2)

/-- `NotificationList::add(ctx, pulse)`. -/
def addPlain (cfg : Config) (k : NotificationKind) (ctx : SocketConnectionContext)
    (pulse : SFNDPulseInfo) : Broker → UInt32 × Broker :=
  addNotification cfg k ctx pulse id

/-- `NotificationList::add(regExpr, ctx, pulse)`. -/
def addRegExp (cfg : Config) (k : NotificationKind) (regExpr : CString)
    (ctx : SocketConnectionContext) (pulse : SFNDPulseInfo) (b : Broker) : UInt32 × Broker :=
  if cfg.regcomp regExpr then
    addNotification cfg k ctx pulse (fun n => { n with regExpr := some regExpr }) b
  else (INVALID_NOTIFICATION_ID, b.createNotification.2)

/-- `NotificationList::add(host, clientID, ctx, pulse)`. -/
def addParty (cfg : Config) (k : NotificationKind) (id : SPartyID) (ctx : SocketConnectionContext)
    (pulse : SFNDPulseInfo) : Broker → UInt32 × Broker :=
  addNotification cfg k ctx pulse (fun n => { n with partyID := id, host := some ctx.mId })

/-- `NotificationList::add(host, ifDescription, ctx, pulse, local, uid)`. -/
def addDescription (cfg : Config) (k : NotificationKind) (d : InterfaceDescription)
    (ctx : SocketConnectionContext) (pulse : SFNDPulseInfo) (isLocal : Bool) :
    Broker → UInt32 × Broker :=
  addNotification cfg k ctx pulse (fun n =>
    { n with ifDescription := d, host := some ctx.mId, isLocal := isLocal, uid := ctx.mUid })

end Broker

end Dsi
