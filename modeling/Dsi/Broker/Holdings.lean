import Dsi.Broker.ServerTable

/-!
# Dsi.Broker.Holdings

What the connections hold: the IDs of their servers, of their clients and of their
notifications.  `Prim` forgets the connections, so every handler is walked once
more here: it is a sequence of `Move`s, which tell what happens to these lists and to
the IDs of the notifications that are set.
-/

namespace Dsi

open Sequence

/-- The ID lists of a connection. -/
def Connection.holdings (k : Connection) : PartyIDList × PartyIDList × List UInt32 :=
  (k.data.mServerList, k.data.mClientList, k.data.mNotificationList)

namespace Broker

/-! ## Moves -/

/-- The connections of `b'` hold what those of `b` hold, and the same notifications are
set. -/
structure Still (b b' : Broker) : Prop where
  holdings : ∀ c, (b'.conns c).map Connection.holdings = (b.conns c).map Connection.holdings
  ids : ∀ k, ids (b'.notifications k) = ids (b.notifications k)
  nextNotificationID : b'.sNextNotificationID = b.sNextNotificationID
  nextConnectionId : b'.nextConnectionId = b.nextConnectionId

namespace Still

variable {b b' b'' : Broker}

/-- Changes that the holdings do not depend on. -/
theorem of_eq (hconns : b'.conns = b.conns) (hnotes : b'.notifications = b.notifications)
    (hnext : b'.sNextNotificationID = b.sNextNotificationID)
    (hid : b'.nextConnectionId = b.nextConnectionId) : Still b b' where
  holdings c := by rw [hconns]
  ids k := by rw [hnotes]
  nextNotificationID := hnext
  nextConnectionId := hid

theorem refl (b : Broker) : Still b b := of_eq rfl rfl rfl rfl

/-- Moves behind moves. -/
theorem trans (h : Still b b') (h' : Still b' b'') : Still b b'' where
  holdings c := (h'.holdings c).trans (h.holdings c)
  ids k := (h'.ids k).trans (h.ids k)
  nextNotificationID := h'.nextNotificationID.trans h.nextNotificationID
  nextConnectionId := h'.nextConnectionId.trans h.nextConnectionId

end Still

/-- The kinds of moves. -/
inductive MoveLabel where
  | still
  | sweep
  | create
  | server
  | addClient
  | removeClient
  | clear
  deriving DecidableEq

/-- What happens to the holdings while connection `c` is served.  A notification that
is set goes into its list unless its ID is `INVALID_NOTIFICATION_ID`. -/
inductive Move (cfg : Config) (c : Nat) : MoveLabel → Broker → Broker → Prop where
  | still {b b' : Broker} (h : Still b b') : Move cfg c .still b b'
  | sweep (b : Broker) (once : Bool) (k : NotificationKind)
      (act : Broker → Notification → Action) : Move cfg c .sweep b (b.sweep cfg once k act)
  | hosted (b : Broker) (k : NotificationKind) {ctx : SocketConnectionContext}
      (pulse : SFNDPulseInfo) {setup : Notification → Notification} (h : Plain setup)
      (hc : ctx.mId = c) (hid : (b.addNotification cfg k ctx pulse setup).1 ≠
        INVALID_NOTIFICATION_ID) :
      Move cfg c .create b ((b.addNotification cfg k ctx pulse setup).2.modifyData c
        (·.addNotification (b.addNotification cfg k ctx pulse setup).1))
  | failed (b : Broker) (k : NotificationKind) (ctx : SocketConnectionContext)
      (pulse : SFNDPulseInfo) {setup : Notification → Notification} (h : Plain setup)
      (hid : (b.addNotification cfg k ctx pulse setup).1 = INVALID_NOTIFICATION_ID) :
      Move cfg c .create b (b.addNotification cfg k ctx pulse setup).2
  | skipped (b : Broker) : Move cfg c .create b b.createNotification.2
  | addServer (b : Broker) (id : SPartyID) :
      Move cfg c .server b (b.modifyData c (·.addServer id))
  | removeServer (b : Broker) (id : SPartyID) :
      Move cfg c .server b (b.modifyData c (·.removeServer id))
  | addClient (b : Broker) (id : SPartyID) :
      Move cfg c .addClient b (b.modifyData c (·.addClient id))
  | removeClient (b : Broker) (id : SPartyID) :
      Move cfg c .removeClient b (b.modifyData c (·.removeClient id))
  | clear (b : Broker) {ctx : SocketConnectionContext} (hc : ctx.mId = c) (id : UInt32) :
      Move cfg c .clear b (b.handleClearNotification cfg ctx id).1

/-- A sequence of moves with labels from `L`. -/
inductive Moves (cfg : Config) (c : Nat) (L : List MoveLabel) : Broker → Broker → Prop where
  | refl (b : Broker) : Moves cfg c L b b
  | tail {b b' b'' : Broker} {l : MoveLabel} (hs : Moves cfg c L b b') (hl : l ∈ L)
      (h : Move cfg c l b' b'') : Moves cfg c L b b''

namespace Moves

variable {cfg : Config} {c : Nat} {L M : List MoveLabel} {b b' b'' : Broker}

/-- One move under its label. -/
theorem single {l : MoveLabel} (hl : l ∈ L) (h : Move cfg c l b b') : Moves cfg c L b b' :=
  (refl b).tail hl h

theorem trans (h : Moves cfg c L b b') (h' : Moves cfg c L b' b'') : Moves cfg c L b b'' := by
  induction h' with
  | refl => exact h
  | tail _ hl hm ih => exact ih.tail hl hm

/-- More labels may be allowed. -/
theorem mono (hL : L ⊆ M) (h : Moves cfg c L b b') : Moves cfg c M b b' := by
  induction h with
  | refl => exact refl _
  | tail _ hl hm ih => exact ih.tail (hL hl) hm

/-- A change that moves nothing, at the end of a sequence of moves. -/
theorem still (hl : .still ∈ L) (h : Moves cfg c L b b') (h' : Still b' b'') :
    Moves cfg c L b b'' :=
  h.tail hl (.still h')

/-- A trigger at the end of a sequence of moves. -/
theorem trigger (hl : .sweep ∈ L) (h : Moves cfg c L b b') (k : NotificationKind)
    (id : SPartyID) : Moves cfg c L b (b'.trigger cfg k id) :=
  h.tail hl (.sweep b' false k (fireIf (fun n => n.partyID = id)))

/-- What every move with a label from `L` preserves, the sequence preserves. -/
theorem preserves {I : Broker → Prop} (hI : ∀ l ∈ L, ∀ b b', Move cfg c l b b' → I b → I b')
    (h : Moves cfg c L b b') (hb : I b) : I b' := by
  induction h with
  | refl => exact hb
  | tail _ hl hm ih => exact hI _ hl _ _ hm ih

end Moves

/-! ## What is still -/

section Handlers

variable (cfg : Config)

theorem still_emit (o : Output) (b : Broker) : Still b (b.emit o) := .of_eq rfl rfl rfl rfl

theorem still_eval (j : Job) (b : Broker) : Still b (b.eval j) := .of_eq rfl rfl rfl rfl

/-- A job for the master moves nothing. -/
theorem still_evalMaster (j : Job) (b : Broker) : Still b (b.evalMaster cfg j) := by
  unfold evalMaster
  split
  · exact still_eval j b
  · exact .refl b

/-- A connection that is set with its holdings moves nothing. -/
theorem still_setConnection {c : Nat} {k : Option Connection} {b : Broker}
    (h : k.map Connection.holdings = (b.conns c).map Connection.holdings) :
    Still b (b.setConnection c k) where
  holdings c' := by
    simp only [setConnection]
    split
    · next hc => rw [h, hc]
    · rfl
  ids _ := rfl
  nextNotificationID := rfl
  nextConnectionId := rfl

/-- So do other changes of what a connection has. -/
theorem still_modifyData (c : Nat) {f : ClientSpecificData → ClientSpecificData}
    (hf : ∀ d, (f d).mServerList = d.mServerList ∧ (f d).mClientList = d.mClientList ∧
      (f d).mNotificationList = d.mNotificationList) (b : Broker) :
    Still b (b.modifyData c f) := by
  refine still_setConnection ?_
  cases b.conns c with
  | none => rfl
  | some k =>
      obtain ⟨hs, hc, hn⟩ := hf k.data
      simp only [Option.map_some, Connection.holdings, hs, hc, hn]

/-- A list with the same IDs holds the same. -/
theorem still_setNotifications (k : NotificationKind) {l : List Notification} {b : Broker}
    (h : ids l = ids (b.notifications k)) : Still b (b.setNotifications k l) where
  holdings c := by cases k <;> rfl
  ids k' := by
    rw [notifications_setNotifications]
    split
    · next hk => rw [h, hk]
    · rfl
  nextNotificationID := by cases k <;> rfl
  nextConnectionId := by cases k <;> rfl

/-- A notification that is changed keeps its ID. -/
theorem still_modifyFirst (k : NotificationKind) {p : Notification → Bool}
    {f : Notification → Notification} (hf : ∀ n, (f n).notificationID = n.notificationID)
    (b : Broker) : Still b (b.setNotifications k (modifyFirst p f (b.notifications k))) :=
  still_setNotifications k (map_modifyFirst hf _)

/-- The registrations at the master move nothing. -/
theorem still_registerInterfacesMaster (b : Broker) :
    Still b (b.registerInterfacesMaster cfg) := by
  rw [registerInterfacesMaster_eq]
  split
  · exact .of_eq rfl rfl rfl rfl
  · exact .refl b

/-- Nor does an unregistration there. -/
theorem still_unregisterInterfaceMaster (masterID : SPartyID) (b : Broker) :
    Still b (b.unregisterInterfaceMaster cfg masterID) := by
  unfold unregisterInterfaceMaster
  split
  · exact still_eval _ b
  · exact .refl b

/-- A notification that is forwarded stays where it is. -/
theorem still_forward (b : Broker) : Still b (b.forwardServerAvailableNotifications cfg) := by
  obtain ⟨l, pools, next, js, hb, hl, _⟩ := forward_cases cfg b
  rw [hb]
  constructor
  case ids =>
    intro k
    cases k with
    | serverConnect => exact hl.map_eq (fun _ _ => rfl)
    | serverDisconnect => rfl
    | clientDetach => rfl
    | serverListChange => rfl
  all_goals intros; rfl

/-- A notification that joins a pool stays in its list. -/
theorem still_attachPool (pos : Nat) (k : NotificationKind) (id : UInt32) (b : Broker) :
    Still b (b.attachPool pos k id) := by
  have h : Still b (b.setNotifications k (modifyFirst (fun n => n.notificationID = id)
      (fun n => { n with poolID := b.poolIDAt pos }) (b.notifications k))) :=
    still_modifyFirst k (by intro; rfl) b
  exact h.trans (.of_eq rfl rfl rfl rfl)

/-- A server that is monitored moves nothing. -/
theorem still_monitorServer (serverID : SPartyID) (id : UInt32) (b : Broker) :
    Still b (b.monitorServer cfg serverID id) := by
  unfold monitorServer
  split
  · exact .refl b
  · split
    · exact still_attachPool _ _ _ b
    · have h : Still b (b.addPoolServer serverID) := .of_eq rfl rfl rfl rfl
      exact (h.trans (still_eval _ _)).trans (still_attachPool _ _ _ _)

/-- What the master is asked moves nothing. -/
theorem still_askMasterExtended (c : Nat) (d : InterfaceDescription) (pos : Nat)
    (poolFound : Bool) (id : UInt32) (b : Broker) :
    Still b (b.askMasterExtended cfg c d pos poolFound id).1 := by
  unfold askMasterExtended
  dsimp only
  split
  · exact .of_eq rfl rfl rfl rfl
  · split
    · exact .refl b
    · exact still_eval _ b
  · split
    · exact .refl b
    · exact still_eval _ b

/-! ## Requests -/

/-- The labels of a request that sets notifications. -/
def notifyMoves : List MoveLabel := [.still, .sweep, .create]

/-- The labels of a request that registers or unregisters servers. -/
def serverMoves : List MoveLabel := [.still, .sweep, .server]

/-- The labels of a request that attaches a client. -/
def attachMoves : List MoveLabel := [.still, .sweep, .create, .addClient]

/-- The labels of a request that detaches a client. -/
def detachMoves : List MoveLabel := [.still, .sweep, .removeClient]

/-- The server of a new entry is held by its connection. -/
theorem moves_addEntry (c : Nat) (e : ServerListEntry) (b : Broker) :
    Moves cfg c serverMoves b (b.addEntry cfg c e) := by
  have h1 : Moves cfg c serverMoves b { b with mConnectedServers := b.mConnectedServers.add e } :=
    .single (l := .still) (by simp [serverMoves]) (.still (.of_eq rfl rfl rfl rfl))
  have h2 := h1.tail (l := .server) (by simp [serverMoves]) (.addServer _ e.partyID)
  have h3 := h2.tail (l := .sweep) (by simp [serverMoves])
    (.sweep _ false .serverConnect (triggerAction cfg e.ifDescription e.grpid))
  exact h3.tail (l := .sweep) (by simp [serverMoves]) (.sweep _ false .serverListChange _)

/-- A new interface may trigger the notifications that wait for it. -/
theorem moves_addInterface (ctx : SocketConnectionContext) (d : InterfaceDescription)
    (pid : UInt32) (chid : Int32) (isLocal : Bool) (grpid : Int32) (b : Broker) :
    Moves cfg ctx.mId serverMoves b (b.addInterface cfg ctx d pid chid isLocal grpid).2 := by
  unfold addInterface
  split
  · exact .refl b
  · have h : Moves cfg ctx.mId serverMoves b { b with mNextServerID := b.mNextServerID + 1 } :=
      .single (l := .still) (by simp [serverMoves]) (.still (.of_eq rfl rfl rfl rfl))
    exact h.trans (moves_addEntry cfg ctx.mId _ _)

/-- Registrations may be passed on to the master behind other moves. -/
theorem moves_registerMaster {c : Nat} {b b' : Broker} (h : Moves cfg c serverMoves b b') :
    Moves cfg c serverMoves b (b'.registerInterfacesMaster cfg) :=
  h.still (by simp [serverMoves]) (still_registerInterfacesMaster cfg b')

/-- Records are handled one by one, each with moves of the same kind. -/
theorem moves_recordLoop {α β : Type} {c : Nat} {L : List MoveLabel} {f : α → Broker → β × Broker}
    (hf : ∀ x b, Moves cfg c L b (f x b).2) (n : Nat) (xs : List α) (b : Broker) :
    Moves cfg c L b (recordLoop f n xs b).2 := by
  refine recordLoop_preserves (I := Moves cfg c L b) (.refl b) ?_
  intro x _ s hs
  exact hs.trans (hf x s)

/-- A record of a slave moves what a registration does. -/
theorem moves_registerMasterRecord (ctx : SocketConnectionContext)
    (r : SFNDInterfaceDescriptionEx) (b : Broker) :
    Moves cfg ctx.mId serverMoves b (b.registerMasterRecord cfg ctx r).2 := by
  unfold registerMasterRecord
  split
  · exact .refl b
  · exact moves_addEntry cfg ctx.mId _ b

/-- The server leaves its connection, and those who watch it are told. -/
theorem moves_handleUnregisterInterface (ctx : SocketConnectionContext) (serverID : SPartyID)
    (b : Broker) :
    Moves cfg ctx.mId serverMoves b (b.handleUnregisterInterface cfg ctx serverID).1 := by
  have h1 : Moves cfg ctx.mId serverMoves b (b.modifyData ctx.mId (·.removeServer serverID)) :=
    .single (l := .server) (by simp [serverMoves]) (.removeServer b serverID)
  unfold handleUnregisterInterface
  split
  · dsimp only
    split
    · exact h1
    · next entry _ =>
      have h2 := h1.trigger (by simp [serverMoves]) .serverDisconnect serverID
      have h3 := h2.still (by simp [serverMoves])
        (still_unregisterInterfaceMaster cfg entry.masterID _)
      have h4 := h3.still (by simp [serverMoves])
        (show Still _ (Broker.dropServer serverID _) from .of_eq rfl rfl rfl rfl)
      exact h4.tail (l := .sweep) (by simp [serverMoves]) (.sweep _ false .serverListChange _)
  · exact .refl b

/-- A notification that is set goes into the list of its connection, or the handler
fails. -/
theorem moves_notify (ctx : SocketConnectionContext) (k : NotificationKind)
    (pulse : SFNDPulseInfo) {setup : Notification → Notification} (hs : Plain setup) (b : Broker) :
    ((b.addNotification cfg k ctx pulse setup).1 = INVALID_NOTIFICATION_ID →
        Moves cfg ctx.mId notifyMoves b (b.addNotification cfg k ctx pulse setup).2) ∧
      ((b.addNotification cfg k ctx pulse setup).1 ≠ INVALID_NOTIFICATION_ID →
        Moves cfg ctx.mId notifyMoves b ((b.addNotification cfg k ctx pulse setup).2.modifyData
          ctx.mId (·.addNotification (b.addNotification cfg k ctx pulse setup).1))) :=
  ⟨fun h => .single (l := .create) (by simp [notifyMoves]) (.failed b k ctx pulse hs h),
    fun h => .single (l := .create) (by simp [notifyMoves]) (.hosted b k pulse hs rfl h)⟩

/-- A disconnect notification is made and held, and may fire at once. -/
theorem moves_notifyServerDisconnect (ctx : SocketConnectionContext) (serverID : SPartyID)
    (pulse : SFNDPulseInfo) (b : Broker) : Moves cfg ctx.mId notifyMoves b
      (b.handleNotifyServerDisconnectNoResponse cfg ctx serverID pulse).2 := by
  obtain ⟨hfail, hset⟩ := moves_notify cfg ctx .serverDisconnect pulse
    (show Plain (fun n => { n with partyID := serverID, host := some ctx.mId }) from
      fun _ => ⟨rfl, rfl, rfl⟩) b
  unfold handleNotifyServerDisconnectNoResponse addParty
  generalize b.addNotification cfg .serverDisconnect ctx pulse
    (fun n => { n with partyID := serverID, host := some ctx.mId }) = r at *
  dsimp only
  split
  · next h => exact hfail h
  · next h =>
    split
    · exact (hset h).still (by simp [notifyMoves]) (still_monitorServer cfg serverID r.1 _)
    · split
      · exact (hset h).trigger (by simp [notifyMoves]) .serverDisconnect _
      · exact hset h

/-- So is a notification for an interface. -/
theorem moves_notifyServerAvailable (ctx : SocketConnectionContext) (pulse : SFNDPulseInfo)
    (d : InterfaceDescription) (b : Broker) : Moves cfg ctx.mId notifyMoves b
      (b.handleNotifyServerAvailableNoResponse cfg ctx pulse d).2 := by
  have hplain : Plain (fun n => { n with
      ifDescription := d, host := some ctx.mId, isLocal := cfg.isLocalService d.name,
      uid := ctx.mUid }) := fun _ => ⟨rfl, rfl, rfl⟩
  obtain ⟨hfail, hset⟩ := moves_notify cfg ctx .serverConnect pulse hplain b
  unfold handleNotifyServerAvailableNoResponse addDescription
  dsimp only
  generalize b.addNotification cfg .serverConnect ctx pulse _ = r at *
  split
  · exact .refl b
  · split
    · next h => exact hfail h
    · next h =>
      split
      · exact (hset h).tail (l := .sweep) (by simp [notifyMoves])
          (.sweep _ false .serverConnect (triggerAction cfg d SB_UNKNOWN_GROUP_ID))
      · split
        · exact (hset h).still (by simp [notifyMoves]) (still_forward cfg _)
        · exact hset h

/-- So is one for a client. -/
theorem moves_handleNotifyClientDetach (ctx : SocketConnectionContext) (clientID : SPartyID)
    (pulse : SFNDPulseInfo) (b : Broker) : Moves cfg ctx.mId notifyMoves b
      (b.handleNotifyClientDetach cfg ctx clientID pulse).1 := by
  obtain ⟨hfail, hset⟩ := moves_notify cfg ctx .clientDetach pulse
    (show Plain (fun n => { n with partyID := clientID, host := some ctx.mId }) from
      fun _ => ⟨rfl, rfl, rfl⟩) b
  unfold handleNotifyClientDetach addParty
  generalize b.addNotification cfg .clientDetach ctx pulse
    (fun n => { n with partyID := clientID, host := some ctx.mId }) = r at *
  dsimp only
  split
  · next h => exact hfail h
  · next h =>
    dsimp only [respond]
    split
    · exact (hset h).still (by simp [notifyMoves]) (still_eval _ _)
    · split
      · exact hset h
      · exact (hset h).trigger (by simp [notifyMoves]) .clientDetach _

/-- So is one for the list of interfaces. -/
theorem moves_handleNotifyInterfaceListChange (ctx : SocketConnectionContext)
    (pulse : SFNDPulseInfo) (b : Broker) : Moves cfg ctx.mId notifyMoves b
      (b.handleNotifyInterfaceListChange cfg ctx pulse).1 := by
  obtain ⟨hfail, hset⟩ := moves_notify cfg ctx .serverListChange pulse
    (show Plain id from fun _ => ⟨rfl, rfl, rfl⟩) b
  unfold handleNotifyInterfaceListChange addPlain
  generalize b.addNotification cfg .serverListChange ctx pulse id = r at *
  dsimp only
  split
  · next h => exact hfail h
  · next h => exact (hset h).still (by simp [notifyMoves]) (still_evalMaster cfg _ _)

/-- So is one with an expression that compiles. -/
theorem moves_handleNotifyInterfaceListMatch (ctx : SocketConnectionContext)
    (pulse : SFNDPulseInfo) (regExpr : CString) (b : Broker) : Moves cfg ctx.mId notifyMoves b
      (b.handleNotifyInterfaceListMatch cfg ctx pulse regExpr).1 := by
  have hadd : ((b.addRegExp cfg .serverListChange regExpr ctx pulse).1 = INVALID_NOTIFICATION_ID →
        Moves cfg ctx.mId notifyMoves b (b.addRegExp cfg .serverListChange regExpr ctx pulse).2) ∧
      ((b.addRegExp cfg .serverListChange regExpr ctx pulse).1 ≠ INVALID_NOTIFICATION_ID →
        Moves cfg ctx.mId notifyMoves b
          ((b.addRegExp cfg .serverListChange regExpr ctx pulse).2.modifyData ctx.mId
            (·.addNotification (b.addRegExp cfg .serverListChange regExpr ctx pulse).1))) := by
    unfold addRegExp
    split
    · exact moves_notify cfg ctx .serverListChange pulse
        (show Plain (fun n => { n with regExpr := some regExpr }) from
      fun _ => ⟨rfl, rfl, rfl⟩) b
    · refine ⟨fun _ => ?_, fun h => absurd rfl h⟩
      exact .single (l := .create) (by simp [notifyMoves]) (.skipped b)
  obtain ⟨hfail, hset⟩ := hadd
  unfold handleNotifyInterfaceListMatch
  generalize b.addRegExp cfg .serverListChange regExpr ctx pulse = r at *
  dsimp only
  split
  · next h => exact hfail h
  · next h =>
    have hask := (hset h).still (by simp [notifyMoves]) (still_evalMaster cfg
      ⟨r.1, none, .notifyInterfaceListMatch
        (masterPulse cfg .PULSE_MASTER_SERVERLIST_CHANGE r.1) regExpr⟩ _)
    dsimp only [respond]
    split
    · exact hask.tail (l := .sweep) (by simp [notifyMoves]) (.sweep _ true _ _)
    · exact hask

/-- The new client is held by the connection that attaches. -/
theorem moves_addClient (c : Nat) (serverID : SPartyID) (b : Broker) :
    Moves cfg c attachMoves b (b.addClient cfg c serverID).2 := by
  have h : Moves cfg c attachMoves b { b with
      mNextClientID := b.mNextClientID + 1
      mAttachedClients := b.mAttachedClients ++ [⟨b.nextClientIDFor cfg serverID, serverID, c⟩] } :=
    .single (l := .still) (by simp [attachMoves]) (.still (.of_eq rfl rfl rfl rfl))
  unfold addClient
  dsimp only
  split
  · exact h.tail (l := .addClient) (by simp [attachMoves]) (.addClient _ _)
  · exact h

/-- A client that the group refuses is not held. -/
theorem moves_handleAttachLocalInterface (ctx : SocketConnectionContext) (e : ServerListEntry)
    (b : Broker) : Moves cfg ctx.mId attachMoves b (b.handleAttachLocalInterface cfg ctx e).2 := by
  unfold handleAttachLocalInterface
  split
  · exact moves_addClient cfg ctx.mId e.partyID b
  · exact .refl b

/-- Only an attach that is answered here moves anything. -/
theorem moves_handleAttachInterface (ctx : SocketConnectionContext) (d : InterfaceDescription)
    (b : Broker) : Moves cfg ctx.mId attachMoves b (b.handleAttachInterface cfg ctx d).1 := by
  unfold handleAttachInterface
  split
  · split
    · next entry _ =>
      dsimp only
      split <;> exact moves_handleAttachLocalInterface cfg ctx entry b
    · split
      · exact .single (l := .still) (by simp [attachMoves]) (.still (.of_eq rfl rfl rfl rfl))
      · exact .refl b
  · exact .refl b

/-- The notification of the attach is made, held, and joins its pool. -/
theorem moves_forwardAttachExtendedToMaster (ctx : SocketConnectionContext)
    (pulse : SFNDPulseInfo) (d : InterfaceDescription) (b : Broker) :
    Moves cfg ctx.mId notifyMoves b (b.forwardAttachExtendedToMaster cfg ctx pulse d).1 := by
  have hpool : Moves cfg ctx.mId notifyMoves b (b.extendedPool d).2.2 := by
    refine .single (l := .still) (by simp [notifyMoves]) (.still ?_)
    unfold extendedPool
    split
    · exact .refl b
    · exact .of_eq rfl rfl rfl rfl
  unfold forwardAttachExtendedToMaster addDescription
  dsimp only
  generalize b.extendedPool d = p at *
  have hplain : Plain (fun n => { n with
      ifDescription := d, host := some ctx.mId, isLocal := cfg.isLocalService d.name,
      uid := ctx.mUid }) := fun _ => ⟨rfl, rfl, rfl⟩
  obtain ⟨hfail, hset⟩ := moves_notify cfg ctx .serverConnect pulse hplain p.2.2
  have hfind := findNotification_addNotification cfg (b := p.2.2) .serverConnect ctx pulse hplain
  generalize p.2.2.addNotification cfg .serverConnect ctx pulse _ = r at *
  refine hpool.trans ?_
  split
  · next h => exact hfail h
  · next h =>
    obtain ⟨n, hn, _, hfind⟩ := hfind h
    rw [← hn, hfind]
    have hset := hn ▸ hset h
    have hattach := hset.still (by simp [notifyMoves])
      (still_attachPool p.1 .serverConnect n.notificationID _)
    exact hattach.still (by simp [notifyMoves]) (still_askMasterExtended cfg _ d p.1 p.2.1 _ _)

/-- An extended attach may move what a notification does. -/
theorem notifyMoves_subset_attachMoves : notifyMoves ⊆ attachMoves := by
  simp [notifyMoves, attachMoves]

/-- A client and a notification, or a notification alone. -/
theorem moves_handleAttachInterfaceExtended (ctx : SocketConnectionContext)
    (pulse : SFNDPulseInfo) (d : InterfaceDescription) (stackPulse : SFNDPulseInfo) (b : Broker) :
    Moves cfg ctx.mId attachMoves b
      (b.handleAttachInterfaceExtended cfg ctx pulse d stackPulse).1 := by
  unfold handleAttachInterfaceExtended
  split
  · split
    · next entry _ =>
      have h1 := moves_handleAttachLocalInterface cfg ctx entry b
      dsimp only
      split
      · exact h1
      · have h2 := h1.trans ((moves_notifyServerDisconnect cfg ctx entry.partyID stackPulse _).mono
          notifyMoves_subset_attachMoves)
        split <;> exact h2
    · split
      · have h1 := (moves_notifyServerAvailable cfg ctx pulse d b).mono
          notifyMoves_subset_attachMoves
        dsimp only
        split <;> exact h1
      · exact (moves_forwardAttachExtendedToMaster cfg ctx pulse d b).mono
          notifyMoves_subset_attachMoves
  · exact .refl b

/-- The client leaves its connection, and those who watch it are told. -/
theorem moves_handleDetachInterface (ctx : SocketConnectionContext) (clientID : SPartyID)
    (b : Broker) :
    Moves cfg ctx.mId detachMoves b (b.handleDetachInterface cfg ctx clientID).1 := by
  unfold handleDetachInterface
  split
  · have h1 : Moves cfg ctx.mId detachMoves b (b.trigger cfg .clientDetach clientID) :=
      .single (l := .sweep) (by simp [detachMoves]) (.sweep b false .clientDetach _)
    have h2 := h1.still (by simp [detachMoves]) (show Still _
      { b.trigger cfg .clientDetach clientID with
        mAttachedClients :=
          (b.trigger cfg .clientDetach clientID).mAttachedClients.remove clientID } from
      .of_eq rfl rfl rfl rfl)
    exact h2.tail (l := .removeClient) (by simp [detachMoves]) (.removeClient _ clientID)
  · split
    · have h1 : Moves cfg ctx.mId detachMoves b
          (b.eval ⟨0, some ctx.mId, .detachInterface clientID⟩) :=
        .single (l := .still) (by simp [detachMoves]) (.still (still_eval _ b))
      exact h1.tail (l := .removeClient) (by simp [detachMoves]) (.removeClient _ clientID)
    · exact .refl b

/-- The labels of the moves of a request. -/
def moveLabels : Request → List MoveLabel
  | .registerInterface .. | .registerInterfaceEx .. | .registerInterfaceGroupID ..
  | .registerMasterInterfaceEx .. | .unregisterInterface .. => serverMoves
  | .attachInterface .. | .attachInterfaceExtended .. => attachMoves
  | .detachInterface .. => detachMoves
  | .clearNotification .. => [.still, .clear]
  | .notifyServerDisconnect .. | .notifyServerAvailable .. | .notifyServerAvailableEx ..
  | .notifyClientDetach .. | .notifyInterfaceListChange ..
  | .notifyInterfaceListMatch .. => notifyMoves
  | .masterPing | .masterPingId .. | .getServerInformation .. | .getInterfaceList ..
  | .matchInterfaceList .. | .badFoundationVersion | .malformed => [.still]

/-- Every request may change what moves nothing. -/
theorem still_mem_moveLabels (r : Request) : .still ∈ moveLabels r := by
  cases r <;> exact List.mem_cons_self

theorem still_setSlave (c : Nat) (b : Broker) : Still b (b.setSlave c) := by
  refine still_setConnection ?_
  cases b.conns c <;> rfl

/-- The labels of a request say what its handler may move. -/
theorem moves_dispatch (ctx : SocketConnectionContext) (r : Request) (b : Broker) :
    Moves cfg ctx.mId (moveLabels r) b (b.dispatch cfg ctx r).1 := by
  have hstill {b' : Broker} (h : Still b b') : Moves cfg ctx.mId (moveLabels r) b b' :=
    .single (still_mem_moveLabels r) (.still h)
  cases r with
  | masterPing => exact hstill (still_setSlave ctx.mId b)
  | masterPingId id =>
      have h := still_modifyData ctx.mId (f := fun d => { d with mExtendedID := id })
        (fun _ => ⟨rfl, rfl, rfl⟩) b
      exact hstill (h.trans (still_setSlave ctx.mId _))
  | registerInterface d pid chid =>
      exact handleRegisterInterface_leaves (.refl b) fun _ _ =>
        moves_registerMaster cfg (moves_addInterface cfg ctx d pid chid _ _ b)
  | registerInterfaceGroupID d pid chid grpid =>
      exact handleRegisterInterfaceGroupID_leaves (.refl b) fun _ =>
        moves_registerMaster cfg (moves_addInterface cfg ctx d pid chid _ grpid b)
  | registerInterfaceEx n pid chid rs =>
      have h := moves_recordLoop cfg (f := registerRecordEx cfg ctx pid chid) (fun d s =>
        moves_addInterface cfg ctx d pid chid _ _ s) n.toInt.toNat rs b
      exact handleRegisterInterfaceEx_leaves h (moves_registerMaster cfg h)
  | registerMasterInterfaceEx n rs =>
      have h := moves_registerMaster cfg (moves_recordLoop cfg
        (moves_registerMasterRecord cfg ctx) n.toInt.toNat rs b)
      exact handleRegisterMasterInterface_leaves h
  | unregisterInterface id => exact moves_handleUnregisterInterface cfg ctx id b
  | attachInterface d => exact moves_handleAttachInterface cfg ctx d b
  | attachInterfaceExtended pulse d stackPulse =>
      exact moves_handleAttachInterfaceExtended cfg ctx pulse d stackPulse b
  | getServerInformation d =>
      refine hstill ?_
      simp only [dispatch, handleGetServerInformation]
      split
      · split
        · exact .refl b
        · split
          · exact .of_eq rfl rfl rfl rfl
          · exact .refl b
      · exact .refl b
  | detachInterface id => exact moves_handleDetachInterface cfg ctx id b
  | notifyServerDisconnect id pulse =>
      have h := moves_notifyServerDisconnect cfg ctx id pulse b
      simp only [dispatch, handleNotifyServerDisconnect]
      split <;> exact h
  | notifyServerAvailable pulse d =>
      have h := moves_notifyServerAvailable cfg ctx pulse d b
      simp only [dispatch, handleNotifyServerAvailable]
      split <;> exact h
  | notifyServerAvailableEx n rs =>
      have h := moves_recordLoop cfg (f := notifyAvailableRecord cfg ctx) (fun r s =>
        moves_notifyServerAvailable cfg ctx r.pulse r.ifDescription s) n.toInt.toNat rs b
      simp only [dispatch, handleNotifyServerAvailableEx]
      split <;> exact h
  | notifyClientDetach id pulse => exact moves_handleNotifyClientDetach cfg ctx id pulse b
  | clearNotification id => exact .single (l := .clear) (by simp [moveLabels]) (.clear b rfl id)
  | getInterfaceList n =>
      refine hstill ?_
      simp only [dispatch, handleGetInterfaceList]
      split
      · exact still_eval _ b
      · split <;> exact .refl b
  | notifyInterfaceListChange pulse =>
      exact moves_handleNotifyInterfaceListChange cfg ctx pulse b
  | matchInterfaceList n re =>
      refine hstill ?_
      simp only [dispatch, handleMatchInterfaceList]
      split
      · exact .refl b
      · split
        · exact still_eval _ b
        · split <;> exact .refl b
  | notifyInterfaceListMatch pulse re =>
      exact moves_handleNotifyInterfaceListMatch cfg ctx pulse re b
  | badFoundationVersion => exact .refl b
  | malformed => exact .refl b

/-- A request is dispatched, and then its answer is sent or deferred. -/
theorem request_still (c : Nat) (r : Request) (b : Broker) :
    b.request cfg c r = b ∨
      ∃ k, b.conns c = some k ∧ k.deferred = false ∧ b.breaksOff cfg r = false ∧
        Still (b.dispatch cfg (k.ctx c) r).1 (b.request cfg c r) := by
  cases hk : b.conns c with
  | none => exact Or.inl (by simp [request, hk])
  | some k =>
      cases hdeferred : k.deferred with
      | true => exact Or.inl (by simp [request, hk, hdeferred])
      | false =>
          cases hbreaks : b.breaksOff cfg r with
          | true => exact Or.inl (request_of_breaksOff cfg hbreaks c)
          | false =>
              refine Or.inr ⟨k, rfl, hdeferred, rfl, ?_⟩
              simp only [request, hk, hdeferred, hbreaks, Bool.or_self, Bool.false_eq_true,
                if_false]
              split
              · exact still_emit _ _
              · refine still_setConnection ?_
                cases (b.dispatch cfg (k.ctx c) r).1.conns c <;> rfl

/-- The labels of a request say what it may move, its answer included. -/
theorem moves_request (c : Nat) (r : Request) (b : Broker) :
    Moves cfg c (moveLabels r) b (b.request cfg c r) := by
  cases request_still cfg c r b with
  | inl hsame => rw [hsame]; exact .refl b
  | inr h =>
      obtain ⟨k, _, _, _, hstill⟩ := h
      exact (moves_dispatch cfg (k.ctx c) r b).still (still_mem_moveLabels r) hstill

/-! ## Other events -/

/-- An answer to a connection that waits moves nothing. -/
theorem still_finalize (job : Job) (r : JobReply) (b : Broker) : Still b (b.finalize job r) := by
  unfold finalize
  split
  · exact .refl b
  · next c _ =>
    split
    · exact .refl b
    · next k hk =>
      have h : Still b (b.setConnection c (some { k with deferred := false })) :=
        still_setConnection (by rw [hk]; rfl)
      exact h.trans (still_emit _ _)

/-- What is stored in a pool moves nothing. -/
theorem still_storePoolNotification (poolID id : UInt32) (b : Broker) :
    Still b (b.storePoolNotification cfg poolID id) := by
  unfold storePoolNotification
  split
  · exact .of_eq rfl rfl rfl rfl
  · exact still_evalMaster cfg _ b

/-- Nor does what is stored in a notification. -/
theorem still_storeMasterNotification (k : NotificationKind) (id masterID : UInt32)
    (b : Broker) : Still b (b.storeMasterNotification cfg k id masterID) := by
  unfold storeMasterNotification
  split
  · exact still_modifyFirst k (by intro; rfl) b
  · exact still_evalMaster cfg _ b

/-- Changes over the elements of a list that each move nothing. -/
theorem still_foldl {α : Type} {f : Broker → α → Broker} (hf : ∀ b x, Still b (f b x))
    (l : List α) (b : Broker) : Still b (l.foldl f b) := by
  induction l generalizing b with
  | nil => exact .refl b
  | cons x xs ih => exact (hf b x).trans (ih (f b x))

/-- The reply to a record that was forwarded moves nothing. -/
theorem still_finishAvailableRecord (b : Broker) (r : SFNDNotificationID) :
    Still b (b.finishAvailableRecord cfg r) := by
  unfold finishAvailableRecord
  split
  · exact .refl b
  · exact still_storePoolNotification cfg _ _ b

/-- Nor does the reply to a registration. -/
theorem still_finishRegisterRecord (b : Broker) (id : SPartyID) :
    Still b (b.finishRegisterRecord cfg id) := by
  unfold finishRegisterRecord
  split
  · split
    · exact .refl b
    · exact .of_eq rfl rfl rfl rfl
  · exact still_unregisterInterfaceMaster cfg id b

/-- The reply to an attach is the only one that changes what a connection holds. -/
theorem still_jobReply {job : Job} (res : JobResult) {b : Broker}
    (h : b.mPendingAttachExtendedJobs = []) (hjob : ∀ d, job.arg ≠ .attachInterface d) :
    Still b (b.jobReply cfg job res).2 := by
  unfold jobReply
  split
  · next d hd => exact absurd hd (hjob d)
  · rw [handleJobFinishedAttachExtended_of_empty cfg job res h]
    exact .refl b
  · split
    · exact .of_eq rfl rfl rfl rfl
    · exact .refl b
  · exact still_foldl (still_finishAvailableRecord cfg) _ b
  · exact still_storePoolNotification cfg _ _ b
  · exact still_storeMasterNotification cfg _ _ _ b
  · exact still_storeMasterNotification cfg _ _ _ b
  · exact still_storeMasterNotification cfg _ _ _ b
  · exact still_foldl (still_finishRegisterRecord cfg) _ b
  · exact .refl b
  · exact .refl b
  · exact .refl b
  · exact .refl b
  · exact .refl b

/-- The labels of what no connection asked for. -/
def quietMoves : List MoveLabel := [.still, .sweep]

/-- The labels of what is not done for a request: the reply to an attach adds a client. -/
def eventMoves : List MoveLabel := [.still, .sweep, .addClient]

/-- What is moved quietly may be moved by every event. -/
theorem quietMoves_subset_eventMoves : quietMoves ⊆ eventMoves := by
  simp [quietMoves, eventMoves]

/-- The end of the job of an attach that the master has answered. -/
def endsAttach (job : Job) (res : JobResult) : Bool :=
  res.status == 0 && match job.arg with | .attachInterface _ => true | _ => false

/-- A finished job that ends no attach moves nothing. -/
theorem still_handleJobFinished {job : Job} {res : JobResult} {b : Broker}
    (h : b.mPendingAttachExtendedJobs = []) (hjob : endsAttach job res = false) :
    Still b (b.handleJobFinished cfg job res) := by
  unfold handleJobFinished
  split
  · next hstatus =>
    refine (still_jobReply cfg res h (fun d hd => ?_)).trans (still_finalize job _ _)
    simp [endsAttach, hstatus, hd] at hjob
  · exact still_finalize job _ b

/-- The end of an attach adds the client ID that the buffer of the job holds. -/
theorem handleJobFinished_of_endsAttach {job : Job} {res : JobResult}
    (hjob : endsAttach job res = true) (b : Broker) :
    b.handleJobFinished cfg job res =
      (b.modifyData (job.ctx.getD 0) (·.addClient res.connInfo.clientID)).finalize job
        ⟨0, res.ret_val, .connInfo res.connInfo⟩ := by
  obtain ⟨hstatus, harg⟩ := Bool.and_eq_true_iff.mp hjob
  split at harg
  · next d hd =>
    simp only [handleJobFinished, beq_iff_eq.mp hstatus, if_true, jobReply, hd]
  · cases harg

/-- The loss of the master fires the notifications of its servers. -/
theorem moves_handleMasterDisconnected (c : Nat) (b : Broker) :
    Moves cfg c quietMoves b (b.handleMasterDisconnected cfg) := by
  have h1 : Moves cfg c quietMoves b { b with
      mConnectedServers := b.mConnectedServers.clearMasterIDs
      mMasterNotificationPool := []
      mPendingRemoteServersRequests := []
      mPendingAttachExtendedJobs := [] } :=
    .single (l := .still) (by simp [quietMoves]) (.still (.of_eq rfl rfl rfl rfl))
  have h2 := h1.tail (l := .sweep) (by simp [quietMoves])
    (.sweep _ false .serverDisconnect (fun b n =>
      if n.active ∧ cfg.mExtendedID ≠ n.partyID.extendedID ∧
          (b.mConnectedServers.findID n.partyID).isNone then .fire else .keep))
  have h3 := h2.tail (l := .sweep) (by simp [quietMoves]) (.sweep _ false .clientDetach
    (fireIf (fun n => n.partyID.extendedID ≠ cfg.mExtendedID)))
  refine h3.still (by simp [quietMoves]) (still_setNotifications .serverConnect ?_)
  simp [ids, Function.comp_def]

/-- A pulse of the master fires the notifications of its pool. -/
theorem moves_dispatchPulse (c : Nat) (p : MasterPulse) (value : UInt32) (b : Broker) :
    Moves cfg c quietMoves b (b.dispatchPulse cfg p value) := by
  have hsweep (b' : Broker) (h : Moves cfg c quietMoves b b') (once : Bool)
      (k : NotificationKind) (act : Broker → Notification → Action) :
      Moves cfg c quietMoves b (b'.sweep cfg once k act) :=
    h.tail (l := .sweep) (by simp [quietMoves]) (.sweep b' once k act)
  cases p with
  | PULSE_MASTER_SERVER_AVAILABLE => exact hsweep b (.refl b) false .serverConnect _
  | PULSE_MASTER_SERVER_DISCONNECT => exact hsweep b (.refl b) false .serverDisconnect _
  | PULSE_MASTER_CLIENT_DETACH =>
      simp only [dispatchPulse, handleMasterClientDetach]
      split
      · exact hsweep b (.refl b) false .clientDetach _
      · exact hsweep b (.refl b) true .clientDetach _
  | PULSE_MASTER_SERVERLIST_CHANGE => exact hsweep b (.refl b) true .serverListChange _
  | PULSE_MASTER_ATTACH_EXTENDED =>
      simp only [dispatchPulse, handleMasterAttachExtended]
      split
      · exact .refl b
      · next pos _ =>
        split
        · exact hsweep b (.refl b) false .serverDisconnect _
        · have h : Moves cfg c quietMoves b (b.modifyPool pos (·.setState .STATE_CONNECTED)) :=
            .single (l := .still) (by simp [quietMoves]) (.still (.of_eq rfl rfl rfl rfl))
          exact hsweep _ h false .serverConnect _
        · exact .refl b

/-- The event brings the end of an attach. -/
def attachEnds (b : Broker) : Event → Bool
  | .deliver =>
      match b.delivered with
      | some (.jobExecuted job res) => endsAttach job res
      | _ => false
  | _ => false

/-- What the master and the worker thread cause leaves the parties of the connections alone,
but for the end of an attach. -/
theorem moves_quiet_step {b : Broker} (h : b.mPendingAttachExtendedJobs = []) {e : Event}
    (he : fromConnection e = false) (hopen : ∀ node loc uid, e ≠ .connected node loc uid)
    (hends : b.attachEnds e = false) : ∃ c, Moves cfg c quietMoves b (b.step cfg e) := by
  cases e with
  | connected node loc uid => exact absurd rfl (hopen node loc uid)
  | request => simp [fromConnection] at he
  | closed => simp [fromConnection] at he
  | pulse p value => exact ⟨0, moves_dispatchPulse cfg 0 p value b⟩
  | deliver =>
      obtain hsame | ⟨m, rest, _, hdelivered, hstep⟩ := deliver_cases cfg b
      · exact ⟨0, hsame.symm ▸ .refl b⟩
      · rw [hstep]
        have hrest : Moves cfg 0 quietMoves b { b with pipe := rest } :=
          .single (l := .still) (by simp [quietMoves]) (.still (.of_eq rfl rfl rfl rfl))
        cases m with
        | jobExecuted job res =>
            have hjob : endsAttach job res = false := by
              simpa [attachEnds, hdelivered] using hends
            exact ⟨0, hrest.still (by simp [quietMoves]) (still_handleJobFinished cfg h hjob)⟩
        | masterConnected =>
            have hregister := hrest.still (by simp [quietMoves])
              (still_registerInterfacesMaster cfg _)
            exact ⟨0, hregister.still (by simp [quietMoves]) (still_forward cfg _)⟩
        | masterDisconnected =>
            exact ⟨0, hrest.trans (moves_handleMasterDisconnected cfg 0 _)⟩
  | worker w =>
      obtain ⟨_, hconns, hid, hnotes, hnext⟩ := workerStep_frame b w
      exact ⟨0, .single (l := .still) (by simp [quietMoves])
        (.still (.of_eq hconns (funext hnotes) hnext hid))⟩

/-- What the master and the worker thread cause is no more than that a client is added. -/
theorem moves_step {b : Broker} (h : b.mPendingAttachExtendedJobs = []) {e : Event}
    (he : fromConnection e = false) (hopen : ∀ node loc uid, e ≠ .connected node loc uid) :
    ∃ c, Moves cfg c eventMoves b (b.step cfg e) := by
  cases hends : b.attachEnds e with
  | false =>
      obtain ⟨c, hm⟩ := moves_quiet_step cfg h he hopen hends
      exact ⟨c, hm.mono quietMoves_subset_eventMoves⟩
  | true =>
      unfold attachEnds at hends
      split at hends
      · split at hends
        · next job res hdelivered =>
          obtain ⟨rest, _, hstep⟩ := deliver_of_some cfg hdelivered
          refine ⟨job.ctx.getD 0, ?_⟩
          simp only [hstep, dispatchInternal, handleJobFinished_of_endsAttach cfg hends]
          have hrest : Moves cfg (job.ctx.getD 0) eventMoves b { b with pipe := rest } :=
            .single (l := .still) (by simp [eventMoves]) (.still (.of_eq rfl rfl rfl rfl))
          exact (hrest.tail (l := .addClient) (by simp [eventMoves]) (.addClient _ _)).still
            (by simp [eventMoves]) (still_finalize job _ _)
        · cases hends
      · cases hends

end Handlers

/-! ## What moves leave alone -/

/-- The servers of an open connection. -/
def serverList (c : Nat) (b : Broker) : Option PartyIDList :=
  (b.conns c).map (·.data.mServerList)

/-- The clients of an open connection. -/
def clientList (c : Nat) (b : Broker) : Option PartyIDList :=
  (b.conns c).map (·.data.mClientList)

/-- The servers and the clients of a connection. -/
def parties (k : Connection) : PartyIDList × PartyIDList := (k.data.mServerList, k.data.mClientList)

/-- What does not depend on the data of a connection stays. -/
theorem map_conns_modifyData {β : Type} {g : Connection → β} {c : Nat}
    {f : ClientSpecificData → ClientSpecificData} (hf : ∀ k, g { k with data := f k.data } = g k)
    (b : Broker) (c' : Nat) : ((b.modifyData c f).conns c').map g = (b.conns c').map g := by
  simp only [modifyData, setConnection]
  split
  · next hc =>
    rw [hc, Option.map_map]
    exact congrArg (Option.map · _) (funext hf)
  · rfl

/-- A new notification leaves the connections as they are. -/
theorem conns_addNotification (cfg : Config) (k : NotificationKind)
    (ctx : SocketConnectionContext) (pulse : SFNDPulseInfo) (setup : Notification → Notification)
    (b : Broker) : (b.addNotification cfg k ctx pulse setup).2.conns = b.conns ∧
      (b.addNotification cfg k ctx pulse setup).2.nextConnectionId = b.nextConnectionId := by
  obtain ⟨a, p, coid, h | h⟩ := addNotification_cases cfg k ctx pulse setup b
  · rw [h]; cases k <;> exact ⟨rfl, rfl⟩
  · rw [h]; exact ⟨rfl, rfl⟩

/-- What is blind to the notification IDs of a connection does not see a sweep. -/
theorem map_conns_sweep {β : Type} {g : Connection → β} (hg : ∀ k, g k.core = g k)
    (cfg : Config) (once : Bool) (k : NotificationKind) (act : Broker → Notification → Action)
    (b : Broker) (c : Nat) :
    ((b.sweep cfg once k act).conns c).map g = (b.conns c).map g := by
  have hcore := congrArg (Option.map g) (conns_sweep cfg once k act b c)
  rwa [Option.map_map, Option.map_map, show g ∘ Connection.core = g from funext hg] at hcore

/-- A sweep opens no connection. -/
theorem nextConnectionId_sweep (cfg : Config) (once : Bool) (k : NotificationKind)
    (act : Broker → Notification → Action) (b : Broker) :
    (b.sweep cfg once k act).nextConnectionId = b.nextConnectionId := by
  cases k <;> exact (frame_sweepLoop cfg once act _ b).nextConnectionId

/-- Clearing a notification is seen in the notification IDs only. -/
theorem map_conns_handleClearNotification {β : Type} {g : Connection → β}
    (hg : ∀ k, g k.core = g k) (cfg : Config) (ctx : SocketConnectionContext) (id : UInt32)
    (b : Broker) (c : Nat) :
    ((b.handleClearNotification cfg ctx id).1.conns c).map g = (b.conns c).map g ∧
      (b.handleClearNotification cfg ctx id).1.nextConnectionId = b.nextConnectionId := by
  have hremove (k : Connection) : g { k with data := k.data.removeNotification id } = g k :=
    (hg _).symm.trans (hg k)
  unfold handleClearNotification
  split
  · simp only [respond, removeNotification, map_conns_sweep hg, nextConnectionId_sweep]
    exact ⟨map_conns_modifyData hremove b c, rfl⟩
  · exact ⟨rfl, rfl⟩

section Moves

variable {cfg : Config} {c : Nat} {b b' : Broker}

/-- What depends on the holdings only stays. -/
theorem Still.map_conns {β : Type} {g : Connection → β} {f : _ → β}
    (hg : ∀ k, g k = f k.holdings) (h : Still b b') (c : Nat) :
    (b'.conns c).map g = (b.conns c).map g := by
  have hf := congrArg (Option.map f) (h.holdings c)
  rwa [Option.map_map, Option.map_map,
    show f ∘ Connection.holdings = g from funext (fun k => (hg k).symm)] at hf

/-- Only the moves for servers and clients touch the servers and clients of a connection. -/
theorem Move.parties {l : MoveLabel} (h : Move cfg c l b b') (hserver : l ≠ .server)
    (hadd : l ≠ .addClient) (hremove : l ≠ .removeClient) (c' : Nat) :
    (b'.conns c').map parties = (b.conns c').map parties := by
  cases h with
  | still h => exact h.map_conns (f := fun t => (t.1, t.2.1)) (fun _ => rfl) c'
  | sweep _ once k act => exact map_conns_sweep (by intro; rfl) cfg once k act b c'
  | hosted _ k pulse hs =>
      rw [map_conns_modifyData (by intro; rfl), (conns_addNotification cfg k _ pulse _ b).1]
  | failed _ k ctx pulse hs => rw [(conns_addNotification cfg k ctx pulse _ b).1]
  | skipped => rfl
  | addServer => exact absurd rfl hserver
  | removeServer => exact absurd rfl hserver
  | addClient => exact absurd rfl hadd
  | removeClient => exact absurd rfl hremove
  | clear _ _ id =>
      exact (map_conns_handleClearNotification (by intro; rfl) cfg _ id b c').1

theorem Still.serverList (h : Still b b') (c : Nat) : b'.serverList c = b.serverList c :=
  h.map_conns (f := fun t => t.1) (fun _ => rfl) c

theorem serverList_sweep (cfg : Config) (once : Bool) (k : NotificationKind)
    (act : Broker → Notification → Action) (b : Broker) (c : Nat) :
    (b.sweep cfg once k act).serverList c = b.serverList c :=
  map_conns_sweep (by intro; rfl) cfg once k act b c

/-- The servers of a connection stay where no server comes or goes. -/
theorem Moves.serverList {L : List MoveLabel} (h : Moves cfg c L b b') (hL : .server ∉ L)
    (c' : Nat) : b'.serverList c' = b.serverList c' := by
  refine h.preserves (I := fun b' => b'.serverList c' = b.serverList c') ?_ rfl
  intro l hl b₁ b₂ hmove hb
  refine Eq.trans ?_ hb
  have hserver : l ≠ .server := fun he => hL (he ▸ hl)
  by_cases hclient : l = .addClient ∨ l = .removeClient
  · cases hmove with
    | addClient => exact map_conns_modifyData (by intro; rfl) b₁ c'
    | removeClient => exact map_conns_modifyData (by intro; rfl) b₁ c'
    | _ => simp at hclient
  · have hparties := congrArg (Option.map Prod.fst)
      (hmove.parties hserver (fun he => hclient (Or.inl he)) (fun he => hclient (Or.inr he)) c')
    rwa [Option.map_map, Option.map_map] at hparties

/-- No move opens or closes a connection. -/
theorem Move.conns {l : MoveLabel} (h : Move cfg c l b b') (c' : Nat) :
    (b'.conns c').map (fun _ => ()) = (b.conns c').map (fun _ => ()) ∧
      b'.nextConnectionId = b.nextConnectionId := by
  cases h with
  | still h => exact ⟨h.map_conns (f := fun _ => ()) (fun _ => rfl) c', h.nextConnectionId⟩
  | sweep _ once k act =>
      exact ⟨map_conns_sweep (fun _ => rfl) cfg once k act b c',
        nextConnectionId_sweep cfg once k act b⟩
  | @hosted _ k ctx pulse setup =>
      have hconns := conns_addNotification cfg k ctx pulse setup b
      exact ⟨(map_conns_modifyData (fun _ => rfl) _ c').trans (by rw [hconns.1]), hconns.2⟩
  | @failed _ k ctx pulse setup =>
      have hconns := conns_addNotification cfg k ctx pulse setup b
      exact ⟨by rw [hconns.1], hconns.2⟩
  | skipped => exact ⟨rfl, rfl⟩
  | addServer => exact ⟨map_conns_modifyData (fun _ => rfl) b c', rfl⟩
  | removeServer => exact ⟨map_conns_modifyData (fun _ => rfl) b c', rfl⟩
  | addClient => exact ⟨map_conns_modifyData (fun _ => rfl) b c', rfl⟩
  | removeClient => exact ⟨map_conns_modifyData (fun _ => rfl) b c', rfl⟩
  | clear _ _ id => exact map_conns_handleClearNotification (fun _ => rfl) cfg _ id b c'

/-- While a connection is served none is opened or closed. -/
theorem Moves.conns {L : List MoveLabel} (h : Moves cfg c L b b') (c' : Nat) :
    (b'.conns c').isSome = (b.conns c').isSome ∧ b'.nextConnectionId = b.nextConnectionId := by
  have hsome {o o' : Option Connection} (ho : o.map (fun _ => ()) = o'.map (fun _ => ())) :
      o.isSome = o'.isSome := by
    cases o <;> cases o' <;> simp_all
  refine h.preserves (I := fun b' => (b'.conns c').isSome = (b.conns c').isSome ∧
    b'.nextConnectionId = b.nextConnectionId) ?_ ⟨rfl, rfl⟩
  intro l hl b₁ b₂ hmove hb
  have hconns := hmove.conns c'
  exact ⟨(hsome hconns.1).trans hb.1, hconns.2.trans hb.2⟩

end Moves

/-! ## Closing a connection -/

/-- A server that is cleared goes by the table, the holdings go with the connection. -/
theorem still_clearServer (cfg : Config) (b : Broker) (id : SPartyID) :
    Still b (b.clearServer cfg id) := by
  unfold clearServer
  split
  · exact .refl b
  · next entry _ =>
    exact (still_unregisterInterfaceMaster cfg entry.masterID b).trans (.of_eq rfl rfl rfl rfl)

/-- So does a client. -/
theorem still_clearClient (cfg : Config) (b : Broker) (id : SPartyID) :
    Still b (b.clearClient cfg id) := by
  have h : Still b { b with mAttachedClients := b.mAttachedClients.remove id } :=
    .of_eq rfl rfl rfl rfl
  exact h.trans (still_evalMaster cfg _ _)

/-- The servers and clients of a connection leave the tables before its notifications
are touched. -/
def clearParties (cfg : Config) (c : Nat) (b : Broker) : Broker :=
  (b.dataOf c).mClientList.elems.foldl (clearClient cfg)
    ((b.dataOf c).mServerList.elems.foldl (clearServer cfg) b)

/-- So do all parties of a connection. -/
theorem still_clearParties (cfg : Config) (c : Nat) (b : Broker) :
    Still b (b.clearParties cfg c) :=
  (still_foldl (still_clearServer cfg) _ b).trans (still_foldl (still_clearClient cfg) _ _)

theorem clear_eq (cfg : Config) (c : Nat) (b : Broker) :
    b.clear cfg c =
      let d := b.dataOf c
      let b := b.clearParties cfg c
      let b := b.triggerList cfg .serverDisconnect d.mServerList
      let b := b.triggerList cfg .clientDetach d.mClientList
      let b := b.removeNotificationsOf cfg .serverDisconnect c
      let b := b.removeNotificationsOf cfg .clientDetach c
      let b := b.removeNotificationsOf cfg .serverConnect c
      let b := b.removeNotificationsOf cfg .serverListChange c
      if d.mServerList.elems ≠ [] then b.triggerAll cfg .serverListChange else b := rfl

/-- The sweeps of `clear` leave the server table alone, and of the connections everything
but the notification IDs. -/
theorem clear_frame {β : Type} {g : Connection → β} (hg : ∀ k, g k.core = g k) (cfg : Config)
    (c : Nat) (b : Broker) (c' : Nat) :
    (b.clear cfg c).mConnectedServers = (b.clearParties cfg c).mConnectedServers ∧
      ((b.clear cfg c).conns c').map g = ((b.clearParties cfg c).conns c').map g ∧
      (b.clear cfg c).nextConnectionId = b.nextConnectionId := by
  have hnext := (still_clearParties cfg c b).nextConnectionId
  rw [clear_eq]
  dsimp only
  split
  · simp only [triggerAll, removeNotificationsOf, triggerList, servers_sweep, map_conns_sweep hg,
      nextConnectionId_sweep]
    exact ⟨trivial, trivial, hnext⟩
  · simp only [removeNotificationsOf, triggerList, servers_sweep, map_conns_sweep hg,
      nextConnectionId_sweep]
    exact ⟨trivial, trivial, hnext⟩

/-- A connection closes with all its data, unless it is not open or is held by the job it waits
for. -/
theorem closeConnection_cases (cfg : Config) (c : Nat) (b : Broker) :
    b.closeConnection cfg c = b ∨ ∃ k, b.conns c = some k ∧ k.held = false ∧
      b.closeConnection cfg c = (b.clear cfg c).setConnection c none := by
  unfold closeConnection
  split
  · exact Or.inl rfl
  · next k hk =>
    split
    · exact Or.inl rfl
    · next hheld => exact Or.inr ⟨k, hk, by simpa using hheld, rfl⟩

/-! ## Connection numbers -/

/-- Connections get their numbers in turn. -/
def NumbersFresh (b : Broker) : Prop := ∀ c, b.nextConnectionId ≤ c → b.conns c = none

/-- A step opens at most the connection with the next number. -/
theorem conns_step (cfg : Config) {b : Broker} (hattach : b.mPendingAttachExtendedJobs = [])
    (e : Event) : (∀ c, ((b.step cfg e).conns c).isSome = true → (b.conns c).isSome = true ∨
        (c = b.nextConnectionId ∧ c < (b.step cfg e).nextConnectionId)) ∧
      b.nextConnectionId ≤ (b.step cfg e).nextConnectionId := by
  have hmoves {c : Nat} {L : List MoveLabel} (hm : Moves cfg c L b (b.step cfg e)) :
      (∀ c, ((b.step cfg e).conns c).isSome = true → (b.conns c).isSome = true ∨
        (c = b.nextConnectionId ∧ c < (b.step cfg e).nextConnectionId)) ∧
      b.nextConnectionId ≤ (b.step cfg e).nextConnectionId :=
    ⟨fun c' hc' => Or.inl ((hm.conns c').1 ▸ hc'), Nat.le_of_eq (hm.conns 0).2.symm⟩
  cases e with
  | connected node loc uid =>
      refine ⟨fun c hc => ?_, Nat.le_succ _⟩
      simp only [Broker.step, openConnection, setConnection] at hc ⊢
      split at hc
      · exact Or.inr (by omega)
      · exact Or.inl hc
  | request c r => exact hmoves (moves_request cfg c r b)
  | closed c =>
      simp only [Broker.step]
      rcases closeConnection_cases cfg c b with hsame | ⟨k, _, _, hclose⟩
      · rw [hsame]
        exact ⟨fun _ => Or.inl, Nat.le_refl _⟩
      · rw [hclose]
        have hframe (c' : Nat) := clear_frame (g := fun _ => ()) (fun _ => rfl) cfg c b c'
        refine ⟨fun c' hc' => Or.inl ?_, Nat.le_of_eq (hframe 0).2.2.symm⟩
        have hconns := (hframe c').2.1
        rw [(still_clearParties cfg c b).map_conns (f := fun _ => ()) (fun _ => rfl)] at hconns
        simp only [setConnection] at hc'
        split at hc'
        · cases hc'
        · rw [← Option.isSome_map (f := fun _ => ()), hconns, Option.isSome_map] at hc'
          exact hc'
  | pulse p value =>
      obtain ⟨c, hm⟩ := moves_step cfg hattach (e := .pulse p value) rfl (by simp)
      exact hmoves hm
  | deliver =>
      obtain ⟨c, hm⟩ := moves_step cfg hattach (e := .deliver) rfl (by simp)
      exact hmoves hm
  | worker w =>
      obtain ⟨c, hm⟩ := moves_step cfg hattach (e := .worker w) rfl (by simp)
      exact hmoves hm

/-- Moves use no number of a connection that is still to come. -/
theorem NumbersFresh.moves {cfg : Config} {c : Nat} {L : List MoveLabel} {b b' : Broker}
    (h : NumbersFresh b) (hm : Moves cfg c L b b') : NumbersFresh b' := by
  intro c' hc'
  obtain ⟨hsome, hnext⟩ := hm.conns c'
  rw [hnext] at hc'
  rw [h c' hc'] at hsome
  simpa using hsome

/-- A step takes the next number at most. -/
theorem NumbersFresh.step (cfg : Config) {b : Broker} (h : NumbersFresh b)
    (hattach : b.mPendingAttachExtendedJobs = []) (e : Event) : NumbersFresh (b.step cfg e) := by
  intro c hc
  obtain ⟨hopened, hle⟩ := conns_step cfg hattach e
  by_contra hsome
  rcases hopened c (Option.isSome_iff_ne_none.mpr hsome) with hold | ⟨_, hlt⟩
  · rw [h c (by omega)] at hold
    cases hold
  · omega

/-- Behind every run the numbers to come are unused. -/
theorem numbersFresh_run (cfg : Config) (es : List Event) :
    NumbersFresh (Run.run (step cfg) init es) := by
  induction es using List.reverseRecOn with
  | nil => exact fun _ _ => rfl
  | append_singleton es e ih =>
      rw [Run.run_append]
      exact ih.step cfg (attachJobs_run cfg es) e

/-- There is no connection 0. -/
theorem conns_zero_run (cfg : Config) (es : List Event) :
    (Run.run (step cfg) init es).conns 0 = none ∧
      0 < (Run.run (step cfg) init es).nextConnectionId := by
  induction es using List.reverseRecOn with
  | nil => exact ⟨rfl, Nat.one_pos⟩
  | append_singleton es e ih =>
      rw [Run.run_append, Run.run_cons, Run.run_nil]
      obtain ⟨hopened, hle⟩ := conns_step cfg (attachJobs_run cfg es) e
      refine ⟨?_, Nat.lt_of_lt_of_le ih.2 hle⟩
      by_contra hsome
      rcases hopened 0 (Option.isSome_iff_ne_none.mpr hsome) with hold | ⟨hzero, _⟩
      · rw [ih.1] at hold
        cases hold
      · exact Nat.lt_irrefl 0 (hzero ▸ ih.2)

end Broker

end Dsi
