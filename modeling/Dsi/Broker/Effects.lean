import Dsi.Broker.Frame

/-!
# Dsi.Broker.Effects

Every handler of the broker is a sequence of a few kinds of updates.  `Prim`
lists them, each under a `Label`, and for every handler one lemma says which
labels its updates have.  An invariant that the updates under these labels
preserve is then preserved by the handler (`Prims.preserves`), so that the
invariants of the broker are proved per update and not per handler.
-/

namespace Dsi

open Sequence

namespace Broker

/-! ## Updates -/

/-- `b'` has the tables of `b`: it differs at most in the connections, the
pending requests, the job queue (apart from `REGISTER_MASTER_INTERFACE_EX` jobs)
and the log (apart from notifications). -/
structure Quiet (b b' : Broker) : Prop where
  servers : b'.mConnectedServers = b.mConnectedServers
  clients : b'.mAttachedClients = b.mAttachedClients
  notifications : ∀ k, b'.notifications k = b.notifications k
  pools : b'.mMasterNotificationPool = b.mMasterNotificationPool
  attachJobs : b'.mPendingAttachExtendedJobs = b.mPendingAttachExtendedJobs
  nextClientID : b'.mNextClientID = b.mNextClientID
  nextServerID : b'.mNextServerID = b.mNextServerID
  nextNotificationID : b'.sNextNotificationID = b.sNextNotificationID
  nextPoolID : b'.nextPoolID = b.nextPoolID
  phase : b'.phase = b.phase
  registerJobs : b'.registerJobs = b.registerJobs
  sentIDs : b'.sentIDs = b.sentIDs
  log : b.log <+: b'.log

/-- What is no notification leaves the tables as they are. -/
theorem quiet_emit {o : Output} (h : o.sentID? = none) (b : Broker) : Quiet b (b.emit o) := by
  constructor
  case log => exact List.prefix_append _ _
  case sentIDs => simp [sentIDs, emit, h]
  all_goals intros; rfl

/-- A job that registers nothing is not looked at by the tables. -/
theorem quiet_eval {j : Job} (h : isRegisterJob j = false) (b : Broker) : Quiet b (b.eval j) := by
  constructor
  case log => exact List.prefix_append _ _
  case registerJobs => exact registerJobs_eval h b
  case sentIDs => simp [sentIDs, eval, Output.sentID?]
  all_goals intros; rfl

theorem Quiet.refl (b : Broker) : Quiet b b := by
  constructor
  case log => exact List.prefix_rfl
  all_goals intros; rfl

/-- Without a connected master there is not even the job. -/
theorem quiet_evalMaster (cfg : Config) {j : Job} (h : isRegisterJob j = false) (b : Broker) :
    Quiet b (b.evalMaster cfg j) := by
  unfold evalMaster
  split
  · exact quiet_eval h b
  · exact Quiet.refl b

/-- The tables do not hold the connections. -/
theorem quiet_setConnection (c : Nat) (k : Option Connection) (b : Broker) :
    Quiet b (b.setConnection c k) := by
  constructor
  case log => exact List.prefix_rfl
  all_goals intros; rfl

/-- What a connection owns is kept with the connection. -/
theorem quiet_modifyData (c : Nat) (f : ClientSpecificData → ClientSpecificData) (b : Broker) :
    Quiet b (b.modifyData c f) :=
  quiet_setConnection c _ b

/-- The kinds of updates. -/
inductive Label where
  | quiet
  | addEntry
  | removeServer
  | masterID
  | clients
  | create (k : NotificationKind)
  | sweep (k : NotificationKind)
  | addPool
  | attach
  | pool
  | forward
  deriving DecidableEq

/-- A fill of a fresh notification that sets none of its IDs. -/
def Plain (setup : Notification → Notification) : Prop :=
  ∀ n, (setup n).notificationID = n.notificationID ∧ (setup n).poolID = n.poolID ∧
    (setup n).masterNotificationID = n.masterNotificationID

/-- The updates. -/
inductive Prim (cfg : Config) : Label → Broker → Broker → Prop where
  | quiet {b b' : Broker} (h : Quiet b b') : Prim cfg .quiet b b'
  | addEntry (b : Broker) (c : Nat) (e : ServerListEntry) (next : Nat)
      (hname : b.mConnectedServers.findName e.ifDescription.name = none)
      (hmaster : e.masterID = noPartyID) : Prim cfg .addEntry b
      ({ b with mNextServerID := next }.addEntry cfg c e)
  | removeServer (b : Broker) (id : SPartyID) : Prim cfg .removeServer b
      { b with mConnectedServers := b.mConnectedServers.remove id }
  | registerMaster (b : Broker) : Prim cfg .masterID b (b.registerInterfacesMaster cfg)
  | setMasterID (b : Broker) (p : ServerListEntry → Bool) (id : SPartyID) : Prim cfg .masterID b
      { b with mConnectedServers := b.mConnectedServers.setMasterID p id }
  | clients (b : Broker) (l : ClientList) (next : Nat) : Prim cfg .clients b
      { b with mAttachedClients := l, mNextClientID := next }
  | create (b : Broker) (k : NotificationKind) (ctx : SocketConnectionContext)
      (pulse : SFNDPulseInfo) {setup : Notification → Notification} (h : Plain setup) :
      Prim cfg (.create k) b (b.addNotification cfg k ctx pulse setup).2
  | skip (b : Broker) (k : NotificationKind) : Prim cfg (.create k) b b.createNotification.2
  | sweep (b : Broker) (once : Bool) {k : NotificationKind}
      {act : Broker → Notification → Action}
      (h : k ≠ .serverListChange → ∀ b n, act b n ≠ .notify) :
      Prim cfg (.sweep k) b (b.sweep cfg once k act)
  | addPool (b : Broker) (s : DataSwitch) (st : EPoolState) :
      Prim cfg .addPool b (b.addPool s st)
  | attach (b : Broker) (pos : Nat) (k : NotificationKind) {n : Notification}
      (hk : k = .serverConnect ∨ k = .serverDisconnect)
      (hn : b.findNotification k n.notificationID = some n) (h0 : n.poolID = 0)
      (hpos : pos < b.mMasterNotificationPool.length) :
      Prim cfg .attach b (b.attachPool pos k n.notificationID)
  | modifyPool (b : Broker) (pos : Nat) {f : NotificationPoolEntry → NotificationPoolEntry}
      (h : ∀ np, (f np).poolID = np.poolID ∧ (f np).mRefCount = np.mRefCount ∧
        (f np).mDataSwitch = np.mDataSwitch ∧ ((f np).mPoolState = .STATE_MONITOR_DISCONNECT ↔
          np.mPoolState = .STATE_MONITOR_DISCONNECT)) :
      Prim cfg .pool b (b.modifyPool pos f)
  | storeMaster (b : Broker) (k : NotificationKind) (id masterID : UInt32) : Prim cfg .pool b
      (b.modifyNotification k id (fun n => { n with masterNotificationID := masterID }))
  | forward (b : Broker) : Prim cfg .forward b (b.forwardServerAvailableNotifications cfg)

/-- A sequence of updates with labels from `L`. -/
inductive Prims (cfg : Config) (L : List Label) : Broker → Broker → Prop where
  | refl (b : Broker) : Prims cfg L b b
  | tail {b b' b'' : Broker} {l : Label} (hs : Prims cfg L b b') (hl : l ∈ L)
      (h : Prim cfg l b' b'') : Prims cfg L b b''

namespace Prims

variable {cfg : Config} {L M : List Label} {b b' b'' : Broker}

/-- One update under its label. -/
theorem single {l : Label} (hl : l ∈ L) (h : Prim cfg l b b') : Prims cfg L b b' :=
  (refl b).tail hl h

/-- Updates behind updates. -/
theorem trans (h : Prims cfg L b b') (h' : Prims cfg L b' b'') : Prims cfg L b b'' := by
  induction h' with
  | refl => exact h
  | tail _ hl hp ih => exact ih.tail hl hp

/-- More labels may be allowed. -/
theorem mono (hL : ∀ l ∈ L, l ∈ M) (h : Prims cfg L b b') : Prims cfg M b b' := by
  induction h with
  | refl => exact refl _
  | tail _ hl hp ih => exact ih.tail (hL _ hl) hp

/-- A quiet change at the end, where quiet changes are allowed. -/
theorem quiet (hl : .quiet ∈ L) (h : Prims cfg L b b') (h' : Quiet b' b'') : Prims cfg L b b'' :=
  h.tail hl (.quiet h')

/-- What every update with a label from `L` preserves, the sequence preserves. -/
theorem preserves {I : Broker → Prop} (hI : ∀ l ∈ L, ∀ b b', Prim cfg l b b' → I b → I b')
    (h : Prims cfg L b b') (hb : I b) : I b' := by
  induction h with
  | refl => exact hb
  | tail _ hl hp ih => exact hI _ hl _ _ hp ih

end Prims

/-- A sequence of updates with labels from `L`, with at most one pool created on
the way and the pools as they were up to there. -/
inductive AddsPool (cfg : Config) (L : List Label) (b b' : Broker) : Prop where
  | none (h : Prims cfg L b b')
  | one {b₁ : Broker} (h : Prims cfg L b b₁)
      (hpools : b₁.mMasterNotificationPool = b.mMasterNotificationPool)
      (hnext : b₁.nextPoolID = b.nextPoolID) {s : DataSwitch} {st : EPoolState}
      (h' : Prims cfg L (b₁.addPool s st) b')

namespace AddsPool

variable {cfg : Config} {L M : List Label} {b b₀ b' b'' : Broker}

/-- A handler that adds a pool first is a sequence of updates with one more label. -/
theorem prims (hL : ∀ l ∈ L, l ∈ M) (hadd : .addPool ∈ M) (h : AddsPool cfg L b b') :
    Prims cfg M b b' := by
  cases h with
  | none h => exact h.mono hL
  | one h _ _ h' => exact ((h.mono hL).tail hadd (.addPool _ _ _)).trans (h'.mono hL)

theorem mono (hL : ∀ l ∈ L, l ∈ M) (h : AddsPool cfg L b b') : AddsPool cfg M b b' := by
  cases h with
  | none h => exact .none (h.mono hL)
  | one h hpools hnext h' => exact .one (h.mono hL) hpools hnext (h'.mono hL)

theorem trans (h : AddsPool cfg L b b') (h' : Prims cfg L b' b'') : AddsPool cfg L b b'' := by
  cases h with
  | none h => exact .none (h.trans h')
  | one h hpools hnext h₁ => exact .one h hpools hnext (h₁.trans h')

/-- Updates in front that leave the pools and their counter alone. -/
theorem head (h : Prims cfg L b b₀)
    (hpools : b₀.mMasterNotificationPool = b.mMasterNotificationPool)
    (hnext : b₀.nextPoolID = b.nextPoolID) (h' : AddsPool cfg L b₀ b') : AddsPool cfg L b b' := by
  cases h' with
  | none h' => exact .none (h.trans h')
  | one h₁ hpools₁ hnext₁ h' =>
      exact .one (h.trans h₁) (hpools₁.trans hpools) (hnext₁.trans hnext) h'

/-- What every update with a label from `L` preserves, and the creation of the
next pool, the sequence preserves. -/
theorem preserves {I : Broker → Prop} (hI : ∀ l ∈ L, ∀ b b', Prim cfg l b b' → I b → I b')
    (hadd : ∀ b₁ : Broker, b₁.mMasterNotificationPool = b.mMasterNotificationPool →
      b₁.nextPoolID = b.nextPoolID → I b₁ → ∀ s st, I (b₁.addPool s st))
    (h : AddsPool cfg L b b') (hb : I b) : I b' := by
  cases h with
  | none h => exact h.preserves hI hb
  | one h hpools hnext h' => exact h'.preserves hI (hadd _ hpools hnext (h.preserves hI hb) _ _)

end AddsPool

/-! ## Handlers -/

section Handlers

variable (cfg : Config)

/-- A quiet change is one update. -/
theorem prims_quiet {b b' : Broker} (h : Quiet b b') : Prims cfg [.quiet] b b' :=
  .single (by simp) (.quiet h)

/-- `trigger` sends once and for all, it does not only notify. -/
theorem fireIf_ne_notify (p : Notification → Bool) (b : Broker) (n : Notification) :
    fireIf p b n ≠ .notify := by
  unfold fireIf
  split <;> simp

/-- So does the trigger of a description. -/
theorem triggerAction_ne_notify (d : InterfaceDescription) (grpid : Int32) (b : Broker)
    (n : Notification) : triggerAction cfg d grpid b n ≠ .notify := by
  unfold triggerAction
  split
  · split <;> simp
  · simp

/-- A sweep with a condition is an update of its list. -/
theorem prim_fireIf (k : NotificationKind) (p : Notification → Bool) (b : Broker) :
    Prim cfg (.sweep k) b (b.sweep cfg false k (fireIf p)) :=
  .sweep b false (fun _ => fireIf_ne_notify p)

/-- `trigger` of a party is an update of the list. -/
theorem prim_trigger (k : NotificationKind) (id : SPartyID) (b : Broker) :
    Prim cfg (.sweep k) b (b.trigger cfg k id) :=
  prim_fireIf cfg k _ b

/-- `trigger` of a description is an update of the list. -/
theorem prim_triggerDescription (k : NotificationKind) (d : InterfaceDescription) (grpid : Int32)
    (b : Broker) : Prim cfg (.sweep k) b (b.triggerDescription cfg k d grpid) :=
  .sweep b false (fun _ => triggerAction_ne_notify cfg d grpid)

/-- A removal by the notification ID is an update of the list. -/
theorem prim_removeNotification (k : NotificationKind) (id : UInt32) (b : Broker) :
    Prim cfg (.sweep k) b (b.removeNotification cfg k id) := by
  refine .sweep b true (fun _ b n => ?_)
  split <;> simp

/-- A removal by the connection is an update of the list. -/
theorem prim_removeNotificationsOf (k : NotificationKind) (c : Nat) (b : Broker) :
    Prim cfg (.sweep k) b (b.removeNotificationsOf cfg k c) := by
  refine .sweep b false (fun _ b n => ?_)
  split <;> simp

/-- The list of the interface list changes may be swept with any action. -/
theorem prim_listChange (once : Bool) (act : Broker → Notification → Action) (b : Broker) :
    Prim cfg (.sweep .serverListChange) b (b.sweep cfg once .serverListChange act) :=
  .sweep b once (fun h => absurd rfl h)

/-- A notification for a party is a new one of its list. -/
theorem prim_addParty (k : NotificationKind) (id : SPartyID) (ctx : SocketConnectionContext)
    (pulse : SFNDPulseInfo) (b : Broker) :
    Prim cfg (.create k) b (b.addParty cfg k id ctx pulse).2 :=
  .create b k ctx pulse (fun _ => ⟨rfl, rfl, rfl⟩)

/-- A notification for an interface is a new one of its list. -/
theorem prim_addDescription (k : NotificationKind) (d : InterfaceDescription)
    (ctx : SocketConnectionContext) (pulse : SFNDPulseInfo) (isLocal : Bool) (b : Broker) :
    Prim cfg (.create k) b (b.addDescription cfg k d ctx pulse isLocal).2 :=
  .create b k ctx pulse (fun _ => ⟨rfl, rfl, rfl⟩)

/-- The master is told of a server that goes, and no table changes. -/
theorem prims_unregisterInterfaceMaster (masterID : SPartyID) (b : Broker) :
    Prims cfg [.quiet] b (b.unregisterInterfaceMaster cfg masterID) := by
  unfold unregisterInterfaceMaster
  split
  · exact .single (by simp) (.quiet (quiet_eval rfl b))
  · exact .refl b

/-! The states a registration leaves: the old one if it is refused, and otherwise the
one behind the hand-over to the master. -/

section Registering

variable {cfg} {ctx : SocketConnectionContext} {I : Broker → Prop} {b : Broker} {pid : UInt32}
  {chid : Int32}

/-- A refused registration leaves the broker alone; the other one adds the entry and tells the
master. -/
theorem handleRegisterInterface_leaves {d : InterfaceDescription} (hrefused : I b)
    (hdone : check d = true → ctx.isLocal = true →
      I ((b.addInterface cfg ctx d pid chid (cfg.isLocalService d.name)
        SB_UNKNOWN_GROUP_ID).2.registerInterfacesMaster cfg)) :
    I (b.handleRegisterInterface cfg ctx d pid chid).1 := by
  unfold handleRegisterInterface
  split
  · next hcheck =>
    split
    · next hlocal =>
      dsimp only
      split <;> exact hdone hcheck hlocal
    · exact hrefused
  · exact hrefused

/-- The same for a group: the entry is added, or nothing is. -/
theorem handleRegisterInterfaceGroupID_leaves {d : InterfaceDescription} {grpid : Int32}
    (hrefused : I b)
    (hdone : (check d && ctx.isLocal) = true →
      I ((b.addInterface cfg ctx d pid chid (cfg.isLocalService d.name)
        grpid).2.registerInterfacesMaster cfg)) :
    I (b.handleRegisterInterfaceGroupID cfg ctx d pid chid grpid).1 := by
  unfold handleRegisterInterfaceGroupID
  split
  · next hcheck =>
    dsimp only
    split <;> exact hdone hcheck
  · exact hrefused

/-- The records are registered one by one, and the master is told if they were all there. -/
theorem handleRegisterInterfaceEx_leaves {n : Int32} {rs : List InterfaceDescription}
    (hshort : I (recordLoop (registerRecordEx cfg ctx pid chid) n.toInt.toNat rs b).2)
    (hdone : I ((recordLoop (registerRecordEx cfg ctx pid chid) n.toInt.toNat rs
      b).2.registerInterfacesMaster cfg)) :
    I (b.handleRegisterInterfaceEx cfg ctx n pid chid rs).1 := by
  unfold handleRegisterInterfaceEx
  dsimp only
  split
  · exact hshort
  · exact hdone

/-- The records of a slave are registered one by one, and the master is told. -/
theorem handleRegisterMasterInterface_leaves {n : Int32} {rs : List SFNDInterfaceDescriptionEx}
    (hdone : I ((recordLoop (registerMasterRecord cfg ctx) n.toInt.toNat rs
      b).2.registerInterfacesMaster cfg)) :
    I (b.handleRegisterMasterInterface cfg ctx n rs).1 := by
  unfold handleRegisterMasterInterface
  dsimp only
  split <;> exact hdone

end Registering

/-- The labels of the updates that register a server. -/
def registerLabels : List Label := [.quiet, .addEntry, .masterID]

/-- A new interface: its entry, and the notifications that it triggers. -/
theorem prims_addInterface (ctx : SocketConnectionContext) (d : InterfaceDescription)
    (pid : UInt32) (chid : Int32) (isLocal : Bool) (grpid : Int32) (b : Broker) :
    Prims cfg registerLabels b (b.addInterface cfg ctx d pid chid isLocal grpid).2 := by
  unfold addInterface
  split
  · exact .refl b
  · next hname =>
    exact .single (by simp [registerLabels])
      (.addEntry b ctx.mId _ _ (by simpa using hname) rfl)

/-- Registrations may be passed on to the master behind other updates. -/
theorem prims_registerMaster {b b' : Broker} (h : Prims cfg registerLabels b b') :
    Prims cfg registerLabels b (b'.registerInterfacesMaster cfg) :=
  h.tail (by simp [registerLabels]) (.registerMaster b')

theorem prims_handleRegisterInterface (ctx : SocketConnectionContext) (d : InterfaceDescription)
    (pid : UInt32) (chid : Int32) (b : Broker) :
    Prims cfg registerLabels b (b.handleRegisterInterface cfg ctx d pid chid).1 :=
  handleRegisterInterface_leaves (.refl b) fun _ _ =>
    prims_registerMaster cfg (prims_addInterface cfg ctx d pid chid _ _ b)

theorem prims_handleRegisterInterfaceGroupID (ctx : SocketConnectionContext)
    (d : InterfaceDescription) (pid : UInt32) (chid grpid : Int32) (b : Broker) :
    Prims cfg registerLabels b
      (b.handleRegisterInterfaceGroupID cfg ctx d pid chid grpid).1 :=
  handleRegisterInterfaceGroupID_leaves (.refl b) fun _ =>
    prims_registerMaster cfg (prims_addInterface cfg ctx d pid chid _ grpid b)

theorem prims_handleRegisterInterfaceEx (ctx : SocketConnectionContext) (ifCount : Int32)
    (pid : UInt32) (chid : Int32) (records : List InterfaceDescription) (b : Broker) :
    Prims cfg registerLabels b
      (b.handleRegisterInterfaceEx cfg ctx ifCount pid chid records).1 := by
  have h : Prims cfg registerLabels b (recordLoop (registerRecordEx cfg ctx pid chid)
      ifCount.toInt.toNat records b).2 := by
    refine recordLoop_preserves (I := Prims cfg registerLabels b) (.refl b) ?_
    intro d _ s hs
    exact hs.trans (prims_addInterface cfg ctx d pid chid _ _ s)
  exact handleRegisterInterfaceEx_leaves h (prims_registerMaster cfg h)

/-- A record of a slave that is taken adds its entry. -/
theorem prims_registerMasterRecord (ctx : SocketConnectionContext)
    (r : SFNDInterfaceDescriptionEx) (b : Broker) :
    Prims cfg registerLabels b (b.registerMasterRecord cfg ctx r).2 := by
  unfold registerMasterRecord
  split
  · exact .refl b
  · next hrefuse =>
    have hname : b.mConnectedServers.findName r.ifDescription.name = none := by
      simp only [refusesRecord, Bool.or_eq_true, not_or] at hrefuse
      simpa using hrefuse.1.2
    exact .single (by simp [registerLabels]) (.addEntry b ctx.mId (masterEntry ctx r) _ hname rfl)

theorem prims_handleRegisterMasterInterface (ctx : SocketConnectionContext) (ifCount : Int32)
    (records : List SFNDInterfaceDescriptionEx) (b : Broker) :
    Prims cfg registerLabels b
      (b.handleRegisterMasterInterface cfg ctx ifCount records).1 := by
  have h : Prims cfg registerLabels b (recordLoop (registerMasterRecord cfg ctx)
      ifCount.toInt.toNat records b).2 := by
    refine recordLoop_preserves (I := Prims cfg registerLabels b) (.refl b) ?_
    intro r _ s hs
    exact hs.trans (prims_registerMasterRecord cfg ctx r s)
  exact handleRegisterMasterInterface_leaves (prims_registerMaster cfg h)

/-- A server goes with its clients. -/
theorem prims_dropServer (id : SPartyID) (b : Broker) :
    Prims cfg [.removeServer, .clients] b (b.dropServer id) := by
  have h : Prims cfg [.removeServer, .clients] b
      { b with mConnectedServers := b.mConnectedServers.remove id } :=
    .single (by simp) (.removeServer b id)
  exact h.tail (by simp) (.clients _ (b.mAttachedClients.removeServer id) b.mNextClientID)

/-- The labels of the updates that unregister a server. -/
def unregisterLabels : List Label :=
  [.quiet, .removeServer, .clients, .sweep .serverDisconnect, .sweep .serverListChange]

/-- The server is dropped and those who watch it are told. -/
theorem prims_handleUnregisterInterface (ctx : SocketConnectionContext) (serverID : SPartyID)
    (b : Broker) :
    Prims cfg unregisterLabels b (b.handleUnregisterInterface cfg ctx serverID).1 := by
  unfold handleUnregisterInterface
  split
  · have h1 : Prims cfg unregisterLabels b (b.modifyData ctx.mId (·.removeServer serverID)) :=
      .single (by simp [unregisterLabels]) (.quiet (quiet_modifyData _ _ b))
    dsimp only
    split
    · exact h1
    · next entry _ =>
      have h2 := h1.tail (by simp [unregisterLabels])
        (prim_trigger cfg .serverDisconnect serverID _)
      have h3 := h2.trans ((prims_unregisterInterfaceMaster cfg entry.masterID _).mono
        (by simp [unregisterLabels]))
      have h4 := h3.trans ((prims_dropServer cfg serverID _).mono (by simp [unregisterLabels]))
      exact h4.tail (by simp [unregisterLabels]) (prim_listChange cfg false _ _)
  · exact .refl b

/-- The labels of the updates that set a notification on a server going away. -/
def disconnectLabels : List Label :=
  [.quiet, .create .serverDisconnect, .sweep .serverDisconnect, .attach]

/-- A notification that was just added is found, without a pool. -/
theorem findNotification_addNotification (k : NotificationKind) (ctx : SocketConnectionContext)
    (pulse : SFNDPulseInfo) {setup : Notification → Notification} (hs : Plain setup) {b : Broker}
    (h : (b.addNotification cfg k ctx pulse setup).1 ≠ INVALID_NOTIFICATION_ID) :
    ∃ n, n.notificationID = (b.addNotification cfg k ctx pulse setup).1 ∧ n.poolID = 0 ∧
      (b.addNotification cfg k ctx pulse setup).2.findNotification k n.notificationID =
        some n := by
  obtain ⟨a, p, coid, hadd | hadd⟩ := addNotification_cases cfg k ctx pulse setup b
  · rw [hadd]
    refine ⟨setup (b.fresh ctx.mNodeAddress p coid), (hs _).1, (hs _).2.1, ?_⟩
    simp [findNotification]
  · rw [hadd] at h
    exact absurd rfl h

/-- A new notification is in no pool. -/
theorem pools_addNotification (k : NotificationKind) (ctx : SocketConnectionContext)
    (pulse : SFNDPulseInfo) (setup : Notification → Notification) (b : Broker) :
    (b.addNotification cfg k ctx pulse setup).2.mMasterNotificationPool =
        b.mMasterNotificationPool ∧
      (b.addNotification cfg k ctx pulse setup).2.nextPoolID = b.nextPoolID := by
  obtain ⟨a, p, coid, h | h⟩ := addNotification_cases cfg k ctx pulse setup b
  · rw [h]; cases k <;> exact ⟨rfl, rfl⟩
  · rw [h]; exact ⟨rfl, rfl⟩

/-- A notification on a remote server gets a pool that is monitored by the master. -/
theorem addsPool_monitorServer (serverID : SPartyID) {n : Notification} (b : Broker)
    (hn : b.findNotification .serverDisconnect n.notificationID = some n) (h0 : n.poolID = 0) :
    AddsPool cfg [.quiet, .attach] b (b.monitorServer cfg serverID n.notificationID) := by
  unfold monitorServer
  rw [hn]
  dsimp only
  split
  · next pos hpos =>
    have hlt : pos < b.mMasterNotificationPool.length :=
      (List.findIdx?_eq_some_iff_getElem.mp hpos).1
    exact .none (.single (by simp) (.attach b pos .serverDisconnect (Or.inr rfl) hn h0 hlt))
  · have h1 : Prims cfg [.quiet, .attach] (b.addPoolServer serverID) _ :=
      .single (by simp) (.quiet (quiet_eval (j := ⟨(b.addPoolServer serverID).poolIDAt 0, none,
        .notifyServerDisconnect serverID (masterPulse cfg .PULSE_MASTER_SERVER_DISCONNECT
          ((b.addPoolServer serverID).poolIDAt 0))⟩) rfl _))
    have h2 := h1.tail (l := .attach) (by simp)
      (.attach _ 0 .serverDisconnect (Or.inr rfl) hn h0 (Nat.succ_pos _))
    exact .one (.refl b) rfl rfl h2

/-- Only a server that is not local is monitored with a pool. -/
theorem addsPool_notifyServerDisconnect (ctx : SocketConnectionContext) (serverID : SPartyID)
    (pulse : SFNDPulseInfo) (b : Broker) : AddsPool cfg disconnectLabels b
      (b.handleNotifyServerDisconnectNoResponse cfg ctx serverID pulse).2 := by
  have hpools := pools_addNotification cfg .serverDisconnect ctx pulse
    (fun n => { n with partyID := serverID, host := some ctx.mId }) b
  have h1 : Prims cfg disconnectLabels b (b.addParty cfg .serverDisconnect serverID ctx pulse).2 :=
    .single (by simp [disconnectLabels]) (prim_addParty cfg _ serverID ctx pulse b)
  have hplain : Plain (fun n => { n with partyID := serverID, host := some ctx.mId }) :=
    fun _ => ⟨rfl, rfl, rfl⟩
  have hfind := findNotification_addNotification cfg (b := b) .serverDisconnect ctx pulse hplain
  unfold handleNotifyServerDisconnectNoResponse addParty
  unfold addParty at h1
  revert h1 hfind hpools
  generalize b.addNotification cfg .serverDisconnect ctx pulse
    (fun n => { n with partyID := serverID, host := some ctx.mId }) = r
  intro hpools h1 hfind
  dsimp only
  split
  · exact .none h1
  · next hid =>
    obtain ⟨n, hn, h0, hfind⟩ := hfind hid
    have h2 := h1.quiet (by simp [disconnectLabels])
      (quiet_modifyData ctx.mId (·.addNotification r.1) r.2)
    split
    · have h3 := addsPool_monitorServer cfg serverID
        (r.2.modifyData ctx.mId (·.addNotification r.1)) hfind h0
      rw [hn] at h3
      exact .head h2 hpools.1 hpools.2 (h3.mono (by simp [disconnectLabels]))
    · split
      · exact .none (h2.tail (by simp [disconnectLabels])
          (prim_trigger cfg .serverDisconnect serverID _))
      · exact .none h2

/-- The labels of the updates that set a notification on an available server. -/
def availableLabels : List Label :=
  [.quiet, .create .serverConnect, .sweep .serverConnect, .forward]

/-- The notification is there before the list is searched, so it may fire at once. -/
theorem prims_notifyServerAvailable (ctx : SocketConnectionContext) (pulse : SFNDPulseInfo)
    (d : InterfaceDescription) (b : Broker) : Prims cfg availableLabels b
      (b.handleNotifyServerAvailableNoResponse cfg ctx pulse d).2 := by
  have h1 : Prims cfg availableLabels b
      (b.addDescription cfg .serverConnect d ctx pulse (cfg.isLocalService d.name)).2 :=
    .single (by simp [availableLabels]) (prim_addDescription cfg _ d ctx pulse _ b)
  unfold handleNotifyServerAvailableNoResponse
  dsimp only
  generalize b.addDescription cfg .serverConnect d ctx pulse (cfg.isLocalService d.name) = r at *
  split
  · exact .refl b
  · split
    · exact h1
    · have h2 := h1.quiet (by simp [availableLabels])
        (quiet_modifyData ctx.mId (·.addNotification r.1) r.2)
      split
      · exact h2.tail (by simp [availableLabels])
          (prim_triggerDescription cfg .serverConnect d SB_UNKNOWN_GROUP_ID _)
      · split
        · exact h2.tail (by simp [availableLabels]) (.forward _)
        · exact h2

theorem prims_handleNotifyServerAvailable (ctx : SocketConnectionContext) (pulse : SFNDPulseInfo)
    (d : InterfaceDescription) (b : Broker) :
    Prims cfg availableLabels b (b.handleNotifyServerAvailable cfg ctx pulse d).1 := by
  unfold handleNotifyServerAvailable
  dsimp only
  split <;> exact prims_notifyServerAvailable cfg ctx pulse d b

theorem prims_handleNotifyServerAvailableEx (ctx : SocketConnectionContext) (count : Int32)
    (records : List SFNDNotificationDescription) (b : Broker) :
    Prims cfg availableLabels b (b.handleNotifyServerAvailableEx cfg ctx count records).1 := by
  have h : Prims cfg availableLabels b (recordLoop (notifyAvailableRecord cfg ctx)
      count.toInt.toNat records b).2 := by
    refine recordLoop_preserves (I := Prims cfg availableLabels b) (.refl b) ?_
    intro n _ s hs
    exact hs.trans (prims_notifyServerAvailable cfg ctx n.pulse n.ifDescription s)
  unfold handleNotifyServerAvailableEx
  dsimp only
  split <;> exact h

theorem addsPool_handleNotifyServerDisconnect (ctx : SocketConnectionContext) (serverID : SPartyID)
    (pulse : SFNDPulseInfo) (b : Broker) :
    AddsPool cfg disconnectLabels b
      (b.handleNotifyServerDisconnect cfg ctx serverID pulse).1 := by
  unfold handleNotifyServerDisconnect
  dsimp only
  split <;> exact addsPool_notifyServerDisconnect cfg ctx serverID pulse b

/-- The labels of the updates that set a notification on a client going away. -/
def detachLabels : List Label := [.quiet, .create .clientDetach, .sweep .clientDetach]

/-- A notification for a client is new in its list, or fires at once. -/
theorem prims_handleNotifyClientDetach (ctx : SocketConnectionContext) (clientID : SPartyID)
    (pulse : SFNDPulseInfo) (b : Broker) :
    Prims cfg detachLabels b (b.handleNotifyClientDetach cfg ctx clientID pulse).1 := by
  have h1 : Prims cfg detachLabels b (b.addParty cfg .clientDetach clientID ctx pulse).2 :=
    .single (by simp [detachLabels]) (prim_addParty cfg _ clientID ctx pulse b)
  unfold handleNotifyClientDetach
  dsimp only
  generalize b.addParty cfg .clientDetach clientID ctx pulse = r at *
  split
  · exact h1
  · have h2 := h1.quiet (by simp [detachLabels])
      (quiet_modifyData ctx.mId (·.addNotification r.1) r.2)
    dsimp only [respond]
    split
    · exact h2.quiet (by simp [detachLabels]) (quiet_eval rfl _)
    · split
      · exact h2
      · exact h2.tail (by simp [detachLabels]) (prim_trigger cfg .clientDetach clientID _)

/-- The labels of the updates that set a notification on the interface list. -/
def listLabels : List Label := [.quiet, .create .serverListChange, .sweep .serverListChange]

/-- A notification for the list of interfaces is new in its list. -/
theorem prims_handleNotifyInterfaceListChange (ctx : SocketConnectionContext)
    (pulse : SFNDPulseInfo) (b : Broker) :
    Prims cfg listLabels b (b.handleNotifyInterfaceListChange cfg ctx pulse).1 := by
  have h1 : Prims cfg listLabels b (b.addPlain cfg .serverListChange ctx pulse).2 :=
    .single (by simp [listLabels]) (.create b _ ctx pulse (fun _ => ⟨rfl, rfl, rfl⟩))
  unfold handleNotifyInterfaceListChange
  dsimp only
  generalize b.addPlain cfg .serverListChange ctx pulse = r at *
  split
  · exact h1
  · have h2 := h1.quiet (by simp [listLabels])
      (quiet_modifyData ctx.mId (·.addNotification r.1) r.2)
    exact h2.quiet (by simp [listLabels]) (quiet_evalMaster cfg rfl _)

/-- An expression that does not compile uses up an ID. -/
theorem prim_addRegExp (k : NotificationKind) (regExpr : CString) (ctx : SocketConnectionContext)
    (pulse : SFNDPulseInfo) (b : Broker) :
    Prim cfg (.create k) b (b.addRegExp cfg k regExpr ctx pulse).2 := by
  unfold addRegExp
  split
  · exact .create b k ctx pulse (fun _ => ⟨rfl, rfl, rfl⟩)
  · exact .skip b k

theorem prims_handleNotifyInterfaceListMatch (ctx : SocketConnectionContext)
    (pulse : SFNDPulseInfo) (regExpr : CString) (b : Broker) :
    Prims cfg listLabels b (b.handleNotifyInterfaceListMatch cfg ctx pulse regExpr).1 := by
  have h1 : Prims cfg listLabels b (b.addRegExp cfg .serverListChange regExpr ctx pulse).2 :=
    .single (by simp [listLabels]) (prim_addRegExp cfg _ regExpr ctx pulse b)
  unfold handleNotifyInterfaceListMatch
  dsimp only
  generalize b.addRegExp cfg .serverListChange regExpr ctx pulse = r at *
  split
  · exact h1
  · have h2 := h1.quiet (by simp [listLabels])
      (quiet_modifyData ctx.mId (·.addNotification r.1) r.2)
    have h3 := h2.quiet (by simp [listLabels]) (quiet_evalMaster cfg
      (j := ⟨r.1, none, .notifyInterfaceListMatch
        (masterPulse cfg .PULSE_MASTER_SERVERLIST_CHANGE r.1) regExpr⟩) rfl _)
    dsimp only [respond]
    split
    · exact h3.tail (by simp [listLabels]) (prim_listChange cfg true _ _)
    · exact h3

/-- The labels of the updates that clear a notification. -/
def clearLabels : List Label :=
  [.quiet, .sweep .clientDetach, .sweep .serverDisconnect, .sweep .serverConnect,
    .sweep .serverListChange]

/-- All four lists are swept for the ID. -/
theorem prims_handleClearNotification (ctx : SocketConnectionContext) (id : UInt32) (b : Broker) :
    Prims cfg clearLabels b (b.handleClearNotification cfg ctx id).1 := by
  unfold handleClearNotification
  split
  · have h1 : Prims cfg clearLabels b (b.modifyData ctx.mId (·.removeNotification id)) :=
      .single (by simp [clearLabels]) (.quiet (quiet_modifyData _ _ b))
    have h2 := h1.tail (by simp [clearLabels]) (prim_removeNotification cfg .clientDetach id _)
    have h3 := h2.tail (by simp [clearLabels]) (prim_removeNotification cfg .serverDisconnect id _)
    have h4 := h3.tail (by simp [clearLabels]) (prim_removeNotification cfg .serverConnect id _)
    exact h4.tail (by simp [clearLabels]) (prim_removeNotification cfg .serverListChange id _)
  · exact .refl b

/-- The labels of the updates that attach a client. -/
def attachLabels : List Label := [.quiet, .clients]

/-- A new client takes the next ID of the broker. -/
theorem prims_addClient (c : Nat) (serverID : SPartyID) (b : Broker) :
    Prims cfg attachLabels b (b.addClient cfg c serverID).2 := by
  have h1 : Prims cfg attachLabels b { b with
      mAttachedClients := b.mAttachedClients ++ [⟨b.nextClientIDFor cfg serverID, serverID, c⟩]
      mNextClientID := b.mNextClientID + 1 } :=
    .single (by simp [attachLabels]) (.clients b _ _)
  unfold addClient
  dsimp only
  split
  · exact h1.quiet (by simp [attachLabels]) (quiet_modifyData c _ _)
  · exact h1

/-- The client is added if the group lets it in. -/
theorem prims_handleAttachLocalInterface (ctx : SocketConnectionContext) (e : ServerListEntry)
    (b : Broker) : Prims cfg attachLabels b (b.handleAttachLocalInterface cfg ctx e).2 := by
  unfold handleAttachLocalInterface
  split
  · exact prims_addClient cfg ctx.mId e.partyID b
  · exact .refl b

theorem prims_handleAttachInterface (ctx : SocketConnectionContext) (d : InterfaceDescription)
    (b : Broker) : Prims cfg attachLabels b (b.handleAttachInterface cfg ctx d).1 := by
  unfold handleAttachInterface
  split
  · split
    · next entry _ =>
      dsimp only
      split <;> exact prims_handleAttachLocalInterface cfg ctx entry b
    · split
      · refine .single (l := .quiet) (by simp [attachLabels]) (.quiet ?_)
        constructor
        case log => exact List.prefix_append _ _
        case registerJobs => exact registerJobs_eval rfl b
        case sentIDs => simp [sentIDs, eval, Output.sentID?]
        all_goals intros; rfl
      · exact .refl b
  · exact .refl b

/-- Nothing but a job comes from a question for a server. -/
theorem prims_handleGetServerInformation (ctx : SocketConnectionContext)
    (d : InterfaceDescription) (b : Broker) :
    Prims cfg [.quiet] b (b.handleGetServerInformation cfg ctx d).1 := by
  unfold handleGetServerInformation
  split
  · split
    · exact .refl b
    · split
      · refine .single (l := .quiet) (by simp) (.quiet ?_)
        constructor
        case log => exact List.prefix_append _ _
        case registerJobs => exact registerJobs_eval rfl b
        case sentIDs => simp [sentIDs, eval, Output.sentID?]
        all_goals intros; rfl
      · exact .refl b
  · exact .refl b

/-- The client goes and the detach notifications for it fire. -/
theorem prims_handleDetachInterface (ctx : SocketConnectionContext) (clientID : SPartyID)
    (b : Broker) : Prims cfg [.quiet, .clients, .sweep .clientDetach] b
      (b.handleDetachInterface cfg ctx clientID).1 := by
  unfold handleDetachInterface
  split
  · have h1 : Prims cfg [.quiet, .clients, .sweep .clientDetach] b
        (b.trigger cfg .clientDetach clientID) :=
      .single (by simp) (prim_trigger cfg .clientDetach clientID b)
    have h2 := h1.tail (by simp)
      (.clients _ ((b.trigger cfg .clientDetach clientID).mAttachedClients.remove clientID)
        (b.trigger cfg .clientDetach clientID).mNextClientID)
    exact h2.quiet (by simp) (quiet_modifyData ctx.mId _ _)
  · split
    · have h1 : Prims cfg [.quiet, .clients, .sweep .clientDetach] b
          (b.eval ⟨0, some ctx.mId, .detachInterface clientID⟩) :=
        .single (l := .quiet) (by simp) (.quiet (quiet_eval rfl b))
      exact h1.quiet (by simp) (quiet_modifyData ctx.mId _ _)
    · exact .refl b

/-- A list that is asked for changes no table. -/
theorem prims_handleGetInterfaceList (ctx : SocketConnectionContext) (inCount : Int32)
    (b : Broker) : Prims cfg [.quiet] b (b.handleGetInterfaceList cfg ctx inCount).1 := by
  unfold handleGetInterfaceList
  split
  · exact .single (l := .quiet) (by simp) (.quiet (quiet_eval rfl b))
  · split <;> exact .refl b

/-- Nor does one with an expression. -/
theorem prims_handleMatchInterfaceList (ctx : SocketConnectionContext) (inCount : Int32)
    (regExpr : CString) (b : Broker) :
    Prims cfg [.quiet] b (b.handleMatchInterfaceList cfg ctx inCount regExpr).1 := by
  unfold handleMatchInterfaceList
  split
  · exact .refl b
  · split
    · exact .single (l := .quiet) (by simp) (.quiet (quiet_eval rfl b))
    · split <;> exact .refl b

/-- The labels of the updates of an extended attach. -/
def attachExtendedLabels : List Label :=
  [.quiet, .clients, .create .serverDisconnect, .sweep .serverDisconnect, .addPool, .attach,
    .pool, .create .serverConnect, .sweep .serverConnect, .forward]

/-- The labels of the updates of an extended attach at the master. -/
def forwardAttachLabels : List Label := [.quiet, .create .serverConnect, .attach, .pool]

/-- The pool of an interface is there behind the search, found or made. -/
theorem addsPool_extendedPool (d : InterfaceDescription) (b : Broker) :
    AddsPool cfg forwardAttachLabels b (b.extendedPool d).2.2 ∧
      (b.extendedPool d).1 < (b.extendedPool d).2.2.mMasterNotificationPool.length := by
  unfold extendedPool
  split
  · next pos hpos => exact ⟨.none (.refl b), (List.findIdx?_eq_some_iff_getElem.mp hpos).1⟩
  · exact ⟨.one (.refl b) rfl rfl (.refl _), Nat.succ_pos _⟩

/-- A state that is set changes neither the ID nor the count nor whom the pool is for, and no pool
starts or stops to be one that monitors a disconnect. -/
theorem setState_spec (st : EPoolState) (np : NotificationPoolEntry) :
    (np.setState st).poolID = np.poolID ∧ (np.setState st).mRefCount = np.mRefCount ∧
      (np.setState st).mDataSwitch = np.mDataSwitch ∧
      ((np.setState st).mPoolState = .STATE_MONITOR_DISCONNECT ↔
        np.mPoolState = .STATE_MONITOR_DISCONNECT) := by
  unfold NotificationPoolEntry.setState
  split <;> simp_all

/-- The master is asked, and the pool waits for the answer. -/
theorem prims_askMasterExtended (c : Nat) (d : InterfaceDescription) (pos : Nat)
    (poolFound : Bool) (id : UInt32) (b : Broker) :
    Prims cfg [.quiet, .pool] b (b.askMasterExtended cfg c d pos poolFound id).1 := by
  have heval (j : Job) (h : isRegisterJob j = false) : Prims cfg [.quiet, .pool] b (b.eval j) :=
    .single (l := .quiet) List.mem_cons_self (.quiet (quiet_eval h b))
  unfold askMasterExtended
  dsimp only
  split
  · have h1 : Prims cfg [.quiet, .pool] b (b.modifyPool pos (·.setState .STATE_PRECACHING)) :=
      .single (by simp) (.modifyPool b pos (setState_spec .STATE_PRECACHING))
    exact h1.quiet List.mem_cons_self (quiet_eval rfl _)
  · split
    · exact .refl b
    · exact heval _ rfl
  · split
    · exact .refl b
    · exact heval _ rfl

/-- An extended attach that goes on to the master joins the pool of its interface. -/
theorem addsPool_forwardAttachExtendedToMaster (ctx : SocketConnectionContext)
    (pulse : SFNDPulseInfo) (d : InterfaceDescription) (b : Broker) :
    AddsPool cfg forwardAttachLabels b
      (b.forwardAttachExtendedToMaster cfg ctx pulse d).1 := by
  obtain ⟨h1, hpos⟩ := addsPool_extendedPool cfg d b
  unfold forwardAttachExtendedToMaster
  dsimp only
  generalize b.extendedPool d = p at h1 hpos ⊢
  have h2 : Prims cfg forwardAttachLabels p.2.2 _ := .single (by simp [forwardAttachLabels])
    (prim_addDescription cfg .serverConnect d ctx pulse (cfg.isLocalService d.name) p.2.2)
  have hplain : Plain (fun n => { n with
      ifDescription := d, host := some ctx.mId, isLocal := cfg.isLocalService d.name,
      uid := ctx.mUid }) := fun _ => ⟨rfl, rfl, rfl⟩
  have hfind := findNotification_addNotification cfg (b := p.2.2) .serverConnect ctx pulse hplain
  have hlen := hpos
  rw [← (pools_addNotification cfg .serverConnect ctx pulse
    (fun n => { n with ifDescription := d, host := some ctx.mId,
                       isLocal := cfg.isLocalService d.name, uid := ctx.mUid }) p.2.2).1] at hlen
  unfold addDescription at h2 ⊢
  generalize p.2.2.addNotification cfg .serverConnect ctx pulse _ = r at h2 hfind hlen ⊢
  refine h1.trans ?_
  split
  · exact h2
  · next hid =>
    obtain ⟨n, hn, h0, hfind⟩ := hfind hid
    rw [← hn, hfind]
    have h3 := h2.quiet List.mem_cons_self
      (quiet_modifyData ctx.mId (·.addNotification n.notificationID) _)
    have h4 := h3.tail (l := .attach) (by simp)
      (.attach _ p.1 .serverConnect (Or.inl rfl) hfind h0 hlen)
    exact h4.trans ((prims_askMasterExtended cfg ctx.mId d p.1 p.2.1 n.notificationID _).mono
      (by simp))

variable {cfg} in
/-- The states an extended attach leaves. -/
theorem handleAttachInterfaceExtended_leaves {I : Broker → Prop} {ctx : SocketConnectionContext}
    {pulse stackPulse : SFNDPulseInfo} {d : InterfaceDescription} {b : Broker} (hbad : I b)
    (hdenied : ∀ entry, check d = true → b.mConnectedServers.findDescription d = some entry →
      I (b.handleAttachLocalInterface cfg ctx entry).2)
    (hhere : ∀ entry, check d = true → b.mConnectedServers.findDescription d = some entry →
      (b.handleAttachLocalInterface cfg ctx entry).1.isSome = true →
        I ((b.handleAttachLocalInterface cfg ctx entry).2.handleNotifyServerDisconnectNoResponse
          cfg ctx entry.partyID stackPulse).2)
    (hwaits : b.mConnectedServers.findDescription d = none →
      I (b.handleNotifyServerAvailableNoResponse cfg ctx pulse d).2)
    (hforward : b.isMasterConnected cfg = true →
      I (b.forwardAttachExtendedToMaster cfg ctx pulse d).1) :
    I (b.handleAttachInterfaceExtended cfg ctx pulse d stackPulse).1 := by
  unfold handleAttachInterfaceExtended
  split
  · next hcheck =>
    split
    · next entry hfind =>
      dsimp only
      split
      · exact hdenied entry hcheck hfind
      · next info hinfo =>
        have hset := hhere entry hcheck hfind (by rw [hinfo]; rfl)
        split <;> exact hset
    · next hfind =>
      split
      · dsimp only
        split <;> exact hwaits hfind
      · next hmaster => exact hforward (by simp_all)
  · exact hbad

/-- An extended attach is a local attach with a notification, or a notification, or goes on to the
master. -/
theorem prims_handleAttachInterfaceExtended (ctx : SocketConnectionContext)
    (pulse : SFNDPulseInfo) (d : InterfaceDescription) (stackPulse : SFNDPulseInfo) (b : Broker) :
    Prims cfg attachExtendedLabels b
      (b.handleAttachInterfaceExtended cfg ctx pulse d stackPulse).1 := by
  have hattach (entry : ServerListEntry) := (prims_handleAttachLocalInterface cfg ctx entry b).mono
    (M := attachExtendedLabels) (by simp [attachLabels, attachExtendedLabels])
  refine handleAttachInterfaceExtended_leaves (.refl b) (fun entry _ _ => hattach entry) ?_ ?_ ?_
  · intro entry _ _ _
    exact (hattach entry).trans ((addsPool_notifyServerDisconnect cfg ctx entry.partyID stackPulse
      _).prims (by simp [disconnectLabels, attachExtendedLabels]) (by simp [attachExtendedLabels]))
  · intro _
    exact (prims_notifyServerAvailable cfg ctx pulse d b).mono
      (by simp [availableLabels, attachExtendedLabels])
  · intro _
    exact (addsPool_forwardAttachExtendedToMaster cfg ctx pulse d b).prims
      (by simp [forwardAttachLabels, attachExtendedLabels]) (by simp [attachExtendedLabels])

/-! ## Events -/

/-- The labels of the updates of a request. -/
def requestLabels : Request → List Label
  | .registerInterface .. | .registerInterfaceEx .. | .registerInterfaceGroupID ..
  | .registerMasterInterfaceEx .. => registerLabels
  | .unregisterInterface .. => unregisterLabels
  | .attachInterface .. => attachLabels
  | .attachInterfaceExtended .. => attachExtendedLabels
  | .detachInterface .. => [.quiet, .clients, .sweep .clientDetach]
  | .notifyServerDisconnect .. => disconnectLabels ++ [.addPool]
  | .notifyServerAvailable .. | .notifyServerAvailableEx .. => availableLabels
  | .notifyClientDetach .. => detachLabels
  | .clearNotification .. => clearLabels
  | .notifyInterfaceListChange .. | .notifyInterfaceListMatch .. => listLabels
  | .masterPing | .masterPingId .. | .getServerInformation .. | .getInterfaceList ..
  | .matchInterfaceList .. | .badFoundationVersion | .malformed => [.quiet]

/-- Every request may change what is quiet. -/
theorem quiet_mem_requestLabels (r : Request) : .quiet ∈ requestLabels r := by
  cases r <;> exact List.mem_cons_self

/-- The labels of a request say what its handler may change. -/
theorem prims_dispatch (ctx : SocketConnectionContext) (r : Request) (b : Broker) :
    Prims cfg (requestLabels r) b (b.dispatch cfg ctx r).1 := by
  cases r with
  | masterPing =>
      exact .single (l := .quiet) List.mem_cons_self (.quiet (quiet_setConnection _ _ b))
  | masterPingId id =>
      have h : Prims cfg [.quiet] b
        (b.modifyData ctx.mId (fun d => { d with mExtendedID := id })) :=
        .single List.mem_cons_self (.quiet (quiet_modifyData _ _ b))
      exact h.quiet List.mem_cons_self (quiet_setConnection _ _ _)
  | registerInterface => exact prims_handleRegisterInterface cfg ctx _ _ _ b
  | registerInterfaceEx => exact prims_handleRegisterInterfaceEx cfg ctx _ _ _ _ b
  | registerInterfaceGroupID => exact prims_handleRegisterInterfaceGroupID cfg ctx _ _ _ _ b
  | registerMasterInterfaceEx => exact prims_handleRegisterMasterInterface cfg ctx _ _ b
  | unregisterInterface => exact prims_handleUnregisterInterface cfg ctx _ b
  | attachInterface => exact prims_handleAttachInterface cfg ctx _ b
  | attachInterfaceExtended => exact prims_handleAttachInterfaceExtended cfg ctx _ _ _ b
  | getServerInformation => exact prims_handleGetServerInformation cfg ctx _ b
  | detachInterface => exact prims_handleDetachInterface cfg ctx _ b
  | notifyServerDisconnect =>
      exact (addsPool_handleNotifyServerDisconnect cfg ctx _ _ b).prims
        (fun _ => List.mem_append_left _) (by simp [requestLabels])
  | notifyServerAvailable => exact prims_handleNotifyServerAvailable cfg ctx _ _ b
  | notifyServerAvailableEx => exact prims_handleNotifyServerAvailableEx cfg ctx _ _ b
  | notifyClientDetach => exact prims_handleNotifyClientDetach cfg ctx _ _ b
  | clearNotification => exact prims_handleClearNotification cfg ctx _ b
  | getInterfaceList => exact prims_handleGetInterfaceList cfg ctx _ b
  | notifyInterfaceListChange => exact prims_handleNotifyInterfaceListChange cfg ctx _ b
  | matchInterfaceList => exact prims_handleMatchInterfaceList cfg ctx _ _ b
  | notifyInterfaceListMatch => exact prims_handleNotifyInterfaceListMatch cfg ctx _ _ b
  | badFoundationVersion => exact .refl b
  | malformed => exact .refl b

/-- Around the handler of a request only the connection changes. -/
theorem quiet_request {c : Nat} {k : Connection} (r : Request) {b : Broker}
    (hk : b.conns c = some k) (hdeferred : k.deferred = false)
    (hbreaks : b.breaksOff cfg r = false) :
    Quiet (b.dispatch cfg (k.ctx c) r).1 (b.request cfg c r) := by
  simp only [request, hk, hdeferred, hbreaks, Bool.or_self, Bool.false_eq_true, if_false]
  split
  · exact quiet_emit rfl _
  · exact quiet_setConnection _ _ _

/-- A request at which the process breaks off leaves the state of the model as it was. -/
theorem request_of_breaksOff {r : Request} {b : Broker} (h : b.breaksOff cfg r = true) (c : Nat) :
    b.request cfg c r = b := by
  unfold request
  split
  · rfl
  · simp [h]

/-- A request is dispatched if its connection is read from and the process goes on. -/
theorem request_cases (c : Nat) (r : Request) (b : Broker) :
    b.request cfg c r = b ∨
      ∃ k, b.conns c = some k ∧ k.deferred = false ∧ b.breaksOff cfg r = false ∧
        Quiet (b.dispatch cfg (k.ctx c) r).1 (b.request cfg c r) := by
  cases hk : b.conns c with
  | none => exact Or.inl (by simp [request, hk])
  | some k =>
      cases hdeferred : k.deferred with
      | true => exact Or.inl (by simp [request, hk, hdeferred])
      | false =>
          cases hbreaks : b.breaksOff cfg r with
          | true => exact Or.inl (request_of_breaksOff cfg hbreaks c)
          | false =>
              exact Or.inr ⟨k, rfl, hdeferred, rfl, quiet_request cfg r hk hdeferred hbreaks⟩

/-- The labels of a request say what it may change, the connection included. -/
theorem prims_request (c : Nat) (r : Request) (b : Broker) :
    Prims cfg (requestLabels r) b (b.request cfg c r) := by
  cases request_cases cfg c r b with
  | inl hsame => rw [hsame]; exact .refl b
  | inr h =>
      obtain ⟨k, _, _, _, hquiet⟩ := h
      exact (prims_dispatch cfg (k.ctx c) r b).quiet (quiet_mem_requestLabels r) hquiet

/-- The labels of the updates of a closing connection. -/
def closeLabels : List Label :=
  [.quiet, .removeServer, .clients, .sweep .serverDisconnect, .sweep .clientDetach,
    .sweep .serverConnect, .sweep .serverListChange]

/-- A server of a connection that closes is dropped. -/
theorem prims_clearServer (b : Broker) (id : SPartyID) :
    Prims cfg [.quiet, .removeServer, .clients] b (b.clearServer cfg id) := by
  unfold clearServer
  split
  · exact .refl b
  · next entry _ =>
    have h := (prims_unregisterInterfaceMaster cfg entry.masterID b).mono
      (M := [.quiet, .removeServer, .clients]) (by simp)
    exact h.trans ((prims_dropServer cfg id _).mono (by simp))

/-- A client of a connection that closes is removed. -/
theorem prims_clearClient (b : Broker) (id : SPartyID) :
    Prims cfg [.quiet, .clients] b (b.clearClient cfg id) := by
  have h : Prims cfg [.quiet, .clients] b
      { b with mAttachedClients := b.mAttachedClients.remove id } :=
    .single (by simp) (.clients b _ b.mNextClientID)
  exact h.quiet (by simp) (quiet_evalMaster cfg rfl _)

/-- Updates over the elements of a list. -/
theorem prims_foldl {L : List Label} {α : Type} {f : Broker → α → Broker}
    (hf : ∀ b x, Prims cfg L b (f b x)) (l : List α) (b : Broker) :
    Prims cfg L b (l.foldl f b) := by
  induction l generalizing b with
  | nil => exact .refl b
  | cons x xs ih => exact (hf b x).trans (ih (f b x))

/-- What a connection owned goes, and those who watch it are told. -/
theorem prims_clear (c : Nat) (b : Broker) : Prims cfg closeLabels b (b.clear cfg c) := by
  have h1 := (prims_foldl cfg (prims_clearServer cfg) (b.dataOf c).mServerList.elems b).mono
    (M := closeLabels) (by simp [closeLabels])
  have h2 := h1.trans ((prims_foldl cfg (prims_clearClient cfg)
    (b.dataOf c).mClientList.elems _).mono (by simp [closeLabels]))
  have h3 := h2.tail (by simp [closeLabels]) (prim_fireIf cfg .serverDisconnect
    (fun n => (b.dataOf c).mServerList.contains n.partyID) _)
  have h4 := h3.tail (by simp [closeLabels]) (prim_fireIf cfg .clientDetach
    (fun n => (b.dataOf c).mClientList.contains n.partyID) _)
  have h5 := h4.tail (by simp [closeLabels])
    (prim_removeNotificationsOf cfg .serverDisconnect c _)
  have h6 := h5.tail (by simp [closeLabels]) (prim_removeNotificationsOf cfg .clientDetach c _)
  have h7 := h6.tail (by simp [closeLabels]) (prim_removeNotificationsOf cfg .serverConnect c _)
  have h8 := h7.tail (by simp [closeLabels])
    (prim_removeNotificationsOf cfg .serverListChange c _)
  unfold clear
  dsimp only
  split
  · exact h8.tail (by simp [closeLabels]) (prim_listChange cfg false _ _)
  · exact h8

/-- The connection itself is in no table. -/
theorem prims_closeConnection (c : Nat) (b : Broker) :
    Prims cfg closeLabels b (b.closeConnection cfg c) := by
  unfold closeConnection
  split
  · exact .refl b
  · split
    · exact .refl b
    · exact (prims_clear cfg c b).quiet (by simp [closeLabels]) (quiet_setConnection _ _ _)

/-- A result that is delivered has its context. -/
theorem lostContext_of_delivered {b : Broker} {n : InternalNotification}
    (h : b.delivered = some n) : b.lostContext n = false := by
  simpa using (Option.filter_eq_some_iff.mp h).2

/-- Nothing is there to be delivered. -/
theorem deliver_of_none {b : Broker} (h : b.delivered = none) : b.step cfg .deliver = b := by
  cases hpipe : b.pipe with
  | nil => simp [step, hpipe]
  | cons n rest =>
      have hlost : b.lostContext n = true := by simpa [delivered, hpipe] using h
      simp [step, hpipe, hlost]

/-- What is delivered is the front of the pipe. -/
theorem deliver_of_some {b : Broker} {n : InternalNotification} (h : b.delivered = some n) :
    ∃ rest, b.pipe = n :: rest ∧
      b.step cfg .deliver = { b with pipe := rest }.dispatchInternal cfg n := by
  cases hpipe : b.pipe with
  | nil => simp [delivered, hpipe] at h
  | cons m rest =>
      obtain ⟨hlost, rfl⟩ : b.lostContext m = false ∧ m = n := by
        simpa [delivered, hpipe, Option.filter_some] using h
      exact ⟨rest, rfl, by simp [step, hpipe, hlost]⟩

/-- A delivery takes the first notification off the pipe and handles it, unless the pipe
is empty or the notification is for a connection that is gone. -/
theorem deliver_cases (b : Broker) :
    b.step cfg .deliver = b ∨
      ∃ n rest, b.pipe = n :: rest ∧ b.delivered = some n ∧
        b.step cfg .deliver = { b with pipe := rest }.dispatchInternal cfg n := by
  cases h : b.delivered with
  | none => exact Or.inl (deliver_of_none cfg h)
  | some n =>
      obtain ⟨rest, hpipe, hstep⟩ := deliver_of_some cfg h
      exact Or.inr ⟨n, rest, hpipe, rfl, hstep⟩

/-- A new connection owns nothing. -/
theorem prims_openConnection (nodeAddress localAddress : UInt32) (uid : Int32) (b : Broker) :
    Prims cfg [.quiet] b (b.openConnection nodeAddress localAddress uid) := by
  refine .single (l := .quiet) (by simp) (.quiet ?_)
  constructor
  case log => exact List.prefix_rfl
  all_goals intros; rfl

/-- The labels of the updates of a pulse of the master. -/
def pulseLabels : List Label :=
  [.pool, .sweep .serverConnect, .sweep .serverDisconnect, .sweep .clientDetach,
    .sweep .serverListChange]

theorem prims_dispatchPulse (p : MasterPulse) (value : UInt32) (b : Broker) :
    Prims cfg pulseLabels b (b.dispatchPulse cfg p value) := by
  cases p with
  | PULSE_MASTER_SERVER_AVAILABLE =>
      exact .single (by simp [pulseLabels]) (prim_fireIf cfg .serverConnect _ b)
  | PULSE_MASTER_SERVER_DISCONNECT =>
      exact .single (by simp [pulseLabels]) (prim_fireIf cfg .serverDisconnect _ b)
  | PULSE_MASTER_CLIENT_DETACH =>
      simp only [dispatchPulse, handleMasterClientDetach]
      split
      · exact .single (by simp [pulseLabels]) (prim_trigger cfg .clientDetach _ b)
      · refine .single (l := .sweep .clientDetach) (by simp [pulseLabels])
          (.sweep b true (fun _ _ n => ?_))
        split <;> simp
  | PULSE_MASTER_SERVERLIST_CHANGE =>
      exact .single (by simp [pulseLabels]) (prim_listChange cfg true _ b)
  | PULSE_MASTER_ATTACH_EXTENDED =>
      simp only [dispatchPulse, handleMasterAttachExtended]
      split
      · exact .refl b
      · next pos _ =>
        split
        · exact .single (by simp [pulseLabels]) (prim_fireIf cfg .serverDisconnect _ b)
        · have h : Prims cfg pulseLabels b (b.modifyPool pos (·.setState .STATE_CONNECTED)) :=
            .single (by simp [pulseLabels]) (.modifyPool b pos (setState_spec .STATE_CONNECTED))
          exact h.tail (by simp [pulseLabels]) (prim_fireIf cfg .serverConnect _ _)
        · exact .refl b

/-- The labels of the updates of a reply of the master. -/
def replyLabels : List Label := [.quiet, .pool, .masterID]

/-- The master's ID of a pool is stored in it. -/
theorem prims_storePoolNotification (poolID id : UInt32) (b : Broker) :
    Prims cfg replyLabels b (b.storePoolNotification cfg poolID id) := by
  unfold storePoolNotification
  split
  · exact .single (l := .pool) (by simp [replyLabels])
      (.modifyPool b _ (fun _ => ⟨rfl, rfl, rfl, Iff.rfl⟩))
  · exact .single (l := .quiet) (by simp [replyLabels]) (.quiet (quiet_evalMaster cfg rfl b))

/-- The ID goes to the pool that was asked for. -/
theorem prims_finishAvailableRecord (b : Broker) (r : SFNDNotificationID) :
    Prims cfg replyLabels b (b.finishAvailableRecord cfg r) := by
  unfold finishAvailableRecord
  split
  · exact .refl b
  · exact prims_storePoolNotification cfg _ _ b

/-- The master's ID of a notification is stored in it. -/
theorem prims_storeMasterNotification (k : NotificationKind) (id masterID : UInt32)
    (b : Broker) : Prims cfg replyLabels b (b.storeMasterNotification cfg k id masterID) := by
  unfold storeMasterNotification
  split
  · exact .single (l := .pool) (by simp [replyLabels]) (.storeMaster b k id masterID)
  · exact .single (l := .quiet) (by simp [replyLabels]) (.quiet (quiet_evalMaster cfg rfl b))

/-- The master's ID of a server is stored in its entry. -/
theorem prims_finishRegisterRecord (b : Broker) (id : SPartyID) :
    Prims cfg replyLabels b (b.finishRegisterRecord cfg id) := by
  unfold finishRegisterRecord
  split
  · split
    · exact .refl b
    · exact .single (l := .masterID) (by simp [replyLabels]) (.setMasterID b _ id)
  · exact (prims_unregisterInterfaceMaster cfg id b).mono (by simp [replyLabels])

/-- Since nothing is ever put into `mPendingAttachExtendedJobs`, the reply to an
extended attach finds no pending job and changes nothing. -/
theorem handleJobFinishedAttachExtended_of_empty (job : Job) (res : JobResult) {b : Broker}
    (h : b.mPendingAttachExtendedJobs = []) :
    b.handleJobFinishedAttachExtended cfg job res =
      (⟨SBStatus.FNDInternalError.toInt, res.ret_val, .empty⟩, b) := by
  unfold handleJobFinishedAttachExtended
  rw [h]
  rfl

/-- The reply of the master to a job, where no attach waits for another one. -/
theorem prims_jobReply (job : Job) (res : JobResult) {b : Broker}
    (h : b.mPendingAttachExtendedJobs = []) :
    Prims cfg replyLabels b (b.jobReply cfg job res).2 := by
  unfold jobReply
  split
  · exact .single (l := .quiet) (by simp [replyLabels]) (.quiet (quiet_modifyData _ _ b))
  · rw [handleJobFinishedAttachExtended_of_empty cfg job res h]
    exact .refl b
  · split
    · refine .single (l := .quiet) (by simp [replyLabels]) (.quiet ?_)
      constructor
      case log => exact List.prefix_rfl
      all_goals intros; rfl
    · exact .refl b
  · exact prims_foldl cfg (prims_finishAvailableRecord cfg) _ b
  · exact prims_storePoolNotification cfg _ _ b
  · exact prims_storeMasterNotification cfg _ _ _ b
  · exact prims_storeMasterNotification cfg _ _ _ b
  · exact prims_storeMasterNotification cfg _ _ _ b
  · exact prims_foldl cfg (prims_finishRegisterRecord cfg) _ b
  · exact .refl b
  · exact .refl b
  · exact .refl b
  · exact .refl b
  · exact .refl b

/-- The answer goes to the connection that waits. -/
theorem quiet_finalize (job : Job) (r : JobReply) (b : Broker) : Quiet b (b.finalize job r) := by
  unfold finalize
  split
  · exact Quiet.refl b
  · split
    · exact Quiet.refl b
    · constructor
      case log => exact List.prefix_append _ _
      case sentIDs => simp [sentIDs, emit, setConnection, Output.sentID?]
      all_goals intros; rfl

/-- A finished job stores what the master replied and answers. -/
theorem prims_handleJobFinished (job : Job) (res : JobResult) {b : Broker}
    (h : b.mPendingAttachExtendedJobs = []) :
    Prims cfg replyLabels b (b.handleJobFinished cfg job res) := by
  unfold handleJobFinished
  split
  · exact (prims_jobReply cfg job res h).quiet (by simp [replyLabels]) (quiet_finalize _ _ _)
  · exact .single (l := .quiet) (by simp [replyLabels]) (.quiet (quiet_finalize _ _ b))

end Handlers

end Broker

end Dsi
