import Dsi.Broker.AllOrNothing

/-!
# Dsi.Broker.ExactIDs

Whether the list of notification IDs of a connection is exact: the IDs of the notifications
that the connection has set and that are still there, and no others.
`ClientSpecificData::removeNotification` is a `std::remove` without the `erase` that belongs to
it, so the list stays as long as it was when a notification goes.  It is exact as long as no
notification goes before its connection does.
-/

namespace Dsi

open Sequence

namespace Broker

/-- The loop takes a notification out of the list. -/
def Action.erases : Action → Bool
  | .fire | .drop => true
  | .keep | .notify | .deactivate => false

/-! ## The condition -/

/-- No active notification of the list meets `p`. -/
def noneWaits (k : NotificationKind) (p : Notification → Bool) (b : Broker) : Bool :=
  (b.notifications k).all (fun n => !(n.active && p n))

/-- The ID of the next notification is a new one, and not `INVALID_NOTIFICATION_ID`. -/
def nextIDFits (b : Broker) : Bool := decide (b.sNextNotificationID + 1 < 2 ^ 32 - 1)

/-- Nobody who may see the server waits for it. -/
def sparesEntry (cfg : Config) (d : InterfaceDescription) (grpid : Int32) (b : Broker) : Bool :=
  (b.notifications .serverConnect).all (fun n => !(triggerAction cfg d grpid b n).erases)

/-- The interface is refused, or nobody waits for it. -/
def sparesInterface (cfg : Config) (grpid : Int32) (d : InterfaceDescription) (b : Broker) :
    Bool :=
  (b.mConnectedServers.findName d.name).isSome || sparesEntry cfg d grpid b

/-- A notification on a server is not sent at once. -/
def sparesAvailable (cfg : Config) (ctx : SocketConnectionContext) (pulse : SFNDPulseInfo)
    (d : InterfaceDescription) (b : Broker) : Bool :=
  let entry := b.mConnectedServers.findDescription d
  b.nextIDFits && (entry.isNone || entry.any (fun e => !checkAccessPrivileges cfg ctx e) ||
    !attaches cfg ctx pulse b)

/-- The request takes no notification away, neither one that was there nor one that it sets
itself. -/
def sparesRequest (cfg : Config) (ctx : SocketConnectionContext) (b : Broker) : Request → Bool
  | .registerInterface d _ _ =>
      !(check d && ctx.isLocal) || sparesInterface cfg SB_UNKNOWN_GROUP_ID d b
  | .registerInterfaceEx n pid chid rs =>
      recordAlong (registerRecordEx cfg ctx pid chid) (sparesInterface cfg SB_UNKNOWN_GROUP_ID)
        n.toInt.toNat rs b
  | .registerInterfaceGroupID d _ _ gid =>
      !(check d && ctx.isLocal) || sparesInterface cfg gid d b
  | .registerMasterInterfaceEx n rs =>
      recordAlong (registerMasterRecord cfg ctx) (fun r b => b.refusesRecord cfg r ||
        sparesEntry cfg r.ifDescription (masterEntry ctx r).grpid b) n.toInt.toNat rs b
  | .unregisterInterface id =>
      !(b.dataOf ctx.mId).mServerList.contains id || (b.mConnectedServers.findID id).isNone ||
        noneWaits .serverDisconnect (fun n => n.partyID = id) b
  | .detachInterface id =>
      !((b.dataOf ctx.mId).mClientList.contains id && b.mAttachedClients.finds id) ||
        noneWaits .clientDetach (fun n => n.partyID = id) b
  | .notifyServerDisconnect id pulse =>
      b.nextIDFits && (!attaches cfg ctx pulse b || (b.mConnectedServers.findID id).isSome ||
        (cfg.mExtendedID ≠ id.extendedID && b.isMasterConnected cfg))
  | .notifyServerAvailable pulse d => sparesAvailable cfg ctx pulse d b
  | .notifyServerAvailableEx n rs =>
      recordAlong (notifyAvailableRecord cfg ctx)
        (fun r => sparesAvailable cfg ctx r.pulse r.ifDescription) n.toInt.toNat rs b
  | .notifyClientDetach id pulse =>
      b.nextIDFits && (!attaches cfg ctx pulse b || b.mAttachedClients.finds id ||
        (cfg.mExtendedID ≠ id.extendedID && b.isMasterConnected cfg))
  | .attachInterfaceExtended .. | .notifyInterfaceListChange .. | .notifyInterfaceListMatch .. =>
      b.nextIDFits
  | .clearNotification id => id ∉ (b.dataOf ctx.mId).mNotificationList
  | _ => true

/-- The pulse of the master reaches no notification that is erased with it. -/
def sparesPulse (value : UInt32) (b : Broker) : MasterPulse → Bool
  | .PULSE_MASTER_SERVER_AVAILABLE => noneWaits .serverConnect (fun n => n.poolID = value) b
  | .PULSE_MASTER_SERVER_DISCONNECT => noneWaits .serverDisconnect (fun n => n.poolID = value) b
  | .PULSE_MASTER_CLIENT_DETACH =>
      (b.findNotification .clientDetach value).all (fun n =>
        noneWaits .clientDetach (fun n' => n'.partyID = n.partyID) b)
  | .PULSE_MASTER_SERVERLIST_CHANGE => true
  | .PULSE_MASTER_ATTACH_EXTENDED =>
      (b.mMasterNotificationPool.findPool value).all (fun pos =>
        match b.poolStateAt pos with
        | .STATE_MONITOR_DISCONNECT => noneWaits .serverDisconnect (fun n => n.poolID = value) b
        | .STATE_CONNECTING => noneWaits .serverConnect (fun n => n.poolID = value) b
        | _ => true)

/-- No notification is on a server or a client of the master, which is lost. -/
def sparesMasterDisconnected (cfg : Config) (b : Broker) : Bool :=
  noneWaits .serverDisconnect (fun n => cfg.mExtendedID ≠ n.partyID.extendedID &&
    (b.mConnectedServers.findID n.partyID).isNone) b &&
  noneWaits .clientDetach (fun n => n.partyID.extendedID ≠ cfg.mExtendedID) b

/-- The servers and clients of the connection have no notifications of others on them. -/
def sparesClose (c : Nat) (b : Broker) : Bool :=
  let d := b.dataOf c
  noneWaits .serverDisconnect (fun n =>
    n.notificationID ∉ d.mNotificationList && d.mServerList.contains n.partyID) b &&
  noneWaits .clientDetach (fun n =>
    n.notificationID ∉ d.mNotificationList && d.mClientList.contains n.partyID) b

/-- The step takes no notification of a connection that stays open away: none is cleared, and
none is sent that is erased when it is sent. -/
def spares (cfg : Config) (b : Broker) : Event → Bool
  | .request c r =>
      (b.conns c).all (fun k => k.deferred || sparesRequest cfg (k.ctx c) b r)
  | .closed c => (b.conns c).all (fun k => k.held || sparesClose c b)
  | .pulse p value => sparesPulse value b p
  | .deliver =>
      match b.pipe with
      | .masterDisconnected :: _ => sparesMasterDisconnected cfg b
      | _ => true
  | .connected .. | .worker _ => true

open Classical in
/-- The ID list of every open connection is exact behind the run: an ID is in it, which is what
`notificationExists` asks, if and only if there is a notification with this ID that the
connection has set; any other ID is answered `FNDInvalidNotificationID` when it is to be
cleared; and the list is as long as there are such notifications. -/
structure ExactIDs (cfg : Config) (es : List Event) (b : Broker) : Prop where
  exists_iff : ∀ c k, b.conns c = some k → ∀ id, id ∈ k.data.mNotificationList ↔
    ∃ kind, ∃ n ∈ b.notifications kind, n.notificationID = id ∧ MadeFor cfg es c id
  cleared : ∀ c k, b.conns c = some k → ∀ id,
    (¬ ∃ kind, ∃ n ∈ b.notifications kind, n.notificationID = id ∧ MadeFor cfg es c id) →
      (b.dispatch cfg (k.ctx c) (.clearNotification id)).2 =
        some (Response.status .FNDInvalidNotificationID)
  length_eq : ∀ c k, b.conns c = some k → k.data.mNotificationList.length =
    (b.live.filter (fun n => MadeFor cfg es c n.notificationID)).length

/-! ## Loops -/

section Loops

variable {cfg : Config} {b : Broker}

/-- A notification takes nothing out of a list that it is not in. -/
theorem notificationList_destroy {n : Notification} {c : Nat}
    (h : n.notificationID ∉ b.notificationList c) :
    (b.destroy cfg n).notificationList c = b.notificationList c := by
  rw [destroy, notificationList_of_conns (conns_releaseMaster cfg n _), unhost]
  split
  · rw [notificationList_modifyData]
    split
    · next hc =>
      subst hc
      rw [notificationList] at h ⊢
      cases hd : b.data? c with
      | none => rfl
      | some d =>
          rw [hd] at h
          exact removeShift_of_not_mem h
    · rfl
  · rfl

/-- A loop that erases only notifications whose IDs are not in `K` leaves those in `K`. -/
theorem ids_sweepLoop_filter (K : UInt32 → Prop) [DecidablePred K] (once : Bool)
    {act : Broker → Notification → Action} {ns : List Notification}
    (hact : ∀ n ∈ ns, K n.notificationID → ∀ b', Frame b b' → (act b' n).erases = false) :
    (ids (sweepLoop cfg once act ns b).1).filter K = (ids ns).filter K := by
  induction ns generalizing b with
  | nil => rfl
  | cons n ns ih =>
      have hrest {b' : Broker} (hf : Frame b b') :
          (ids (sweepLoop cfg once act ns b').1).filter K = (ids ns).filter K :=
        ih (fun m hm hk b'' hf' => hact m (List.mem_cons_of_mem _ hm) hk b'' (hf.trans hf'))
      have hkeep {l : List Notification} {n' : Notification}
          (hn' : n'.notificationID = n.notificationID)
          (hl : (ids l).filter K = (ids ns).filter K) :
          (ids (n' :: l)).filter K = (ids (n :: ns)).filter K := by
        simp only [ids, List.map_cons, List.filter_cons, hn'] at hl ⊢
        rw [hl]
      have hgone (he : (act b n).erases = true) :
          (ids ns).filter K = (ids (n :: ns)).filter K := by
        have hk : ¬ K n.notificationID := fun hk => by
          rw [hact n List.mem_cons_self hk b (.refl b)] at he
          cases he
        rw [ids, ids, List.map_cons, List.filter_cons, if_neg (by simpa using hk)]
      obtain ⟨pulse, coid, hs⟩ := send_fst cfg n b
      have hsid : (b.send cfg n).1.notificationID = n.notificationID := by rw [hs]
      have hsend := frame_send cfg n b
      rw [sweepLoop]
      split
      · exact hkeep rfl (hrest (.refl b))
      · exact hkeep rfl (hrest (.refl b))
      · dsimp only
        split
        · exact hkeep hsid rfl
        · exact hkeep hsid (hrest hsend)
      · next hfire =>
        dsimp only
        split
        · exact hgone (by rw [hfire]; rfl)
        · exact (hrest (hsend.trans (frame_destroy cfg _ _))).trans (hgone (by rw [hfire]; rfl))
      · next hdrop =>
        dsimp only
        split
        · exact hgone (by rw [hdrop]; rfl)
        · exact (hrest (frame_destroy cfg n b)).trans (hgone (by rw [hdrop]; rfl))

/-- A loop that erases no notification whose ID is in the list of a connection leaves the list
as it is. -/
theorem notificationList_sweepLoop (once : Bool) {act : Broker → Notification → Action}
    {ns : List Notification} {c : Nat} (hact : ∀ n ∈ ns, n.notificationID ∈ b.notificationList c →
      ∀ b', Frame b b' → (act b' n).erases = false) :
    (sweepLoop cfg once act ns b).2.notificationList c = b.notificationList c := by
  induction ns generalizing b with
  | nil => rfl
  | cons n ns ih =>
      have hrest {b' : Broker} (hf : Frame b b')
          (hlist : b'.notificationList c = b.notificationList c) :
          (sweepLoop cfg once act ns b').2.notificationList c = b.notificationList c :=
        (ih (fun m hm hk b'' hf' => hact m (List.mem_cons_of_mem _ hm) (hlist ▸ hk) b''
          (hf.trans hf'))).trans hlist
      have hgone (he : (act b n).erases = true) {b' : Broker} {n' : Notification}
          (hn' : n'.notificationID = n.notificationID)
          (hlist : b'.notificationList c = b.notificationList c) :
          (b'.destroy cfg n').notificationList c = b.notificationList c := by
        refine (notificationList_destroy (fun hmem => ?_)).trans hlist
        rw [hn', hlist] at hmem
        rw [hact n List.mem_cons_self hmem b (.refl b)] at he
        cases he
      obtain ⟨pulse, coid, hs⟩ := send_fst cfg n b
      have hsid : (b.send cfg n).1.notificationID = n.notificationID := by rw [hs]
      have hsend := frame_send cfg n b
      have hsent : (b.send cfg n).2.notificationList c = b.notificationList c :=
        notificationList_of_conns (conns_send cfg n b) c
      rw [sweepLoop]
      split
      · exact hrest (.refl b) rfl
      · exact hrest (.refl b) rfl
      · dsimp only
        split
        · exact hsent
        · exact hrest hsend hsent
      · next hfire =>
        have hlist := hgone (by rw [hfire]; rfl) hsid hsent
        dsimp only
        split
        · exact hlist
        · exact hrest (hsend.trans (frame_destroy cfg _ _)) hlist
      · next hdrop =>
        have hlist := hgone (by rw [hdrop]; rfl) rfl (rfl : b.notificationList c = _)
        dsimp only
        split
        · exact hlist
        · exact hrest (frame_destroy cfg n b) hlist

/-- A sweep that erases none of some notifications keeps them all. -/
theorem ids_live_sweep_filter (K : UInt32 → Prop) [DecidablePred K] (once : Bool)
    {k : NotificationKind} {act : Broker → Notification → Action}
    (hact : ∀ n ∈ b.notifications k, K n.notificationID →
      ∀ b', Frame b b' → (act b' n).erases = false) :
    ((ids (b.sweep cfg once k act).live).filter K).Perm ((ids b.live).filter K) := by
  have hswept := ((live_sweep_perm cfg once k act b).map (·.notificationID)).filter K
  rw [List.map_append, List.filter_append] at hswept
  have hbefore := (ids_live_perm b k).filter K
  have hkept := @ids_sweepLoop_filter cfg b K _ once act (b.notifications k) hact
  rw [List.filter_append, ← hkept] at hbefore
  exact hswept.trans hbefore.symm

/-- A sweep that erases none of a connection's notifications keeps its list. -/
theorem notificationList_sweep (once : Bool) {k : NotificationKind}
    {act : Broker → Notification → Action} {c : Nat}
    (hact : ∀ n ∈ b.notifications k, n.notificationID ∈ b.notificationList c →
      ∀ b', Frame b b' → (act b' n).erases = false) :
    (b.sweep cfg once k act).notificationList c = b.notificationList c := by
  rw [sweep_eq]
  refine Eq.trans ?_ (@notificationList_sweepLoop cfg b once act (b.notifications k) c hact)
  cases k <;> rfl

end Loops

/-! ## What is set -/

/-- While connection `c` was served some notifications were set for it and nothing was taken
away. -/
structure Grown (c : Nat) (b b' : Broker) : Prop where
  others : ∀ c', c' ≠ c → b'.notificationList c' = b.notificationList c'
  set : ∃ new, b'.notificationList c = b.notificationList c ++ new ∧
    (ids b'.live).Perm (new ++ ids b.live) ∧
    ∀ id ∈ new, Made b.sNextNotificationID b'.sNextNotificationID id
  opened : (b'.conns c).isSome = (b.conns c).isSome
  next : b.sNextNotificationID ≤ b'.sNextNotificationID
  fits : b.sNextNotificationID < 2 ^ 32 - 1 → b'.sNextNotificationID < 2 ^ 32 - 1

namespace Grown

variable {cfg : Config} {c : Nat} {b b' b'' : Broker}

/-- The lists, the live notifications and the counter are all that counts. -/
theorem of_eq (hlists : ∀ c, b'.notificationList c = b.notificationList c)
    (hlive : (ids b'.live).Perm (ids b.live)) (hopened : (b'.conns c).isSome = (b.conns c).isSome)
    (hnext : b'.sNextNotificationID = b.sNextNotificationID) : Grown c b b' where
  others c' _ := hlists c'
  set := ⟨[], by rw [hlists, List.append_nil], hlive, by simp⟩
  opened := hopened
  next := Nat.le_of_eq hnext.symm
  fits h := hnext ▸ h

theorem refl (c : Nat) (b : Broker) : Grown c b b := of_eq (fun _ => rfl) (.refl _) rfl rfl

/-- One growth behind the other. -/
theorem trans (h : Grown c b b') (h' : Grown c b' b'') : Grown c b b'' where
  others c' hc := (h'.others c' hc).trans (h.others c' hc)
  set := by
    obtain ⟨new, hlist, hlive, hmade⟩ := h.set
    obtain ⟨new', hlist', hlive', hmade'⟩ := h'.set
    refine ⟨new ++ new', by rw [hlist', hlist, List.append_assoc], ?_, fun id hid => ?_⟩
    · refine (hlive'.trans (hlive.append_left new')).trans ?_
      rw [← List.append_assoc]
      exact List.perm_append_comm.append_right _
    · rw [made_trans h.next h'.next]
      exact (List.mem_append.mp hid).imp (hmade id) (hmade' id)
  opened := h'.opened.trans h.opened
  next := Nat.le_trans h.next h'.next
  fits hlt := h'.fits (h.fits hlt)

/-- Nothing is moved, so nothing grows. -/
theorem of_still (h : Still b b') : Grown c b b' :=
  of_eq h.notificationList (by rw [ids_live_congr h.ids])
    (by
      have hopened := congrArg Option.isSome (h.holdings c)
      rwa [Option.isSome_map, Option.isSome_map] at hopened)
    h.nextNotificationID

/-- A change that moves nothing, at the end. -/
theorem still (h : Grown c b b') (h' : Still b' b'') : Grown c b b'' := h.trans (.of_still h')

/-- The other data of a connection do not count. -/
theorem modifyData (h : Grown c b b') (c' : Nat) {f : ClientSpecificData → ClientSpecificData}
    (hf : ∀ d, (f d).mNotificationList = d.mNotificationList) :
    Grown c b (b'.modifyData c' f) := by
  refine h.trans (of_eq (fun c'' => ?_) (.refl _) ?_ rfl)
  · rw [notificationList_modifyData]
    simp only [hf]
    split
    · next hc => rw [hc]; rfl
    · rfl
  · simp only [Broker.modifyData, setConnection]
    split
    · next hc => rw [hc, Option.isSome_map]
    · rfl

/-- A loop that erases nothing. -/
theorem sweep (h : Grown c b b') (once : Bool) {k : NotificationKind}
    {act : Broker → Notification → Action} (hact : ∀ n ∈ b'.notifications k, ∀ b'',
      b''.mConnectedServers = b'.mConnectedServers → (act b'' n).erases = false) :
    Grown c b (b'.sweep cfg once k act) := by
  refine h.trans (of_eq (fun c' => ?_) ?_ ?_ (nextNotificationID_sweep cfg once k act b'))
  · exact notificationList_sweep once (fun n hn _ b'' hf => hact n hn b'' hf.servers)
  · have hperm := @ids_live_sweep_filter cfg b' (fun _ => True) _ once k act
      (fun n hn _ b'' hf => hact n hn b'' hf.servers)
    simpa using hperm
  · have hconns := congrArg Option.isSome (conns_sweep cfg once k act b' c)
    rwa [Option.isSome_map, Option.isSome_map] at hconns

/-- A notification that a trigger does not meet is not erased. -/
theorem erases_fireIf {p : Notification → Bool} {n : Notification}
    (hn : (!(n.active && p n)) = true) (b : Broker) : (fireIf p b n).erases = false := by
  rw [Bool.not_eq_true'] at hn
  rw [fireIf, hn, if_neg Bool.false_ne_true]
  rfl

/-- A loop that sends and erases, where nobody waits. -/
theorem fireIf (h : Grown c b b') {k : NotificationKind} {p : Notification → Bool}
    (hp : noneWaits k p b' = true) : Grown c b (b'.sweep cfg false k (Broker.fireIf p)) :=
  h.sweep false (fun n hn b'' _ => erases_fireIf (List.all_eq_true.mp hp n hn) b'')

/-- A loop that only sends. -/
theorem notify (h : Grown c b b') (once : Bool) (k : NotificationKind)
    {p : Notification → Prop} [DecidablePred p] :
    Grown c b (b'.sweep cfg once k (fun _ n => if p n then .notify else .keep)) :=
  h.sweep once (fun n _ _ _ => by split <;> rfl)

/-- A notification is set and its ID goes into the list of the connection. -/
theorem addNotification {s : Broker} {id : UInt32} (hopen : (b.conns c).isSome = true)
    (hconns : s.conns = b.conns) (hnext : s.sNextNotificationID = b.sNextNotificationID + 1)
    (hlive : (ids s.live).Perm (id :: ids b.live))
    (hid : id = UInt32.ofNat (b.sNextNotificationID + 1)) (hfits : b.nextIDFits = true) :
    Grown c b (s.modifyData c (·.addNotification id)) := by
  have hlt : b.sNextNotificationID + 1 < 2 ^ 32 - 1 := of_decide_eq_true hfits
  have hnext' : (s.modifyData c (·.addNotification id)).sNextNotificationID =
      b.sNextNotificationID + 1 := hnext
  obtain ⟨k, hk⟩ := Option.isSome_iff_exists.mp hopen
  constructor
  case others =>
    intro c' hc
    rw [notificationList_modifyData, if_neg hc, notificationList_of_conns hconns]
  case set =>
    refine ⟨[id], ?_, hlive, fun x hx => ?_⟩
    · rw [notificationList_modifyData, if_pos rfl, notificationList, data?, data?, hconns, hk]
      rfl
    · rw [hnext', List.mem_singleton.mp hx]
      exact made_succ.mpr hid
  case opened =>
    rw [Broker.modifyData, setConnection]
    dsimp only
    rw [if_pos rfl, Option.isSome_map, hconns]
  case next => omega
  case fits => exact fun _ => hnext' ▸ hlt

/-- `NotificationList::add`, and what the handlers do with the ID. -/
theorem add (cfg : Config) {ctx : SocketConnectionContext}
    (hopen : (b.conns ctx.mId).isSome = true)
    (hfits : b.nextIDFits = true) (k : NotificationKind) (pulse : SFNDPulseInfo)
    {setup : Notification → Notification} (hs : Plain setup) :
    ((b.addNotification cfg k ctx pulse setup).1 = INVALID_NOTIFICATION_ID →
        Grown ctx.mId b (b.addNotification cfg k ctx pulse setup).2) ∧
      ((b.addNotification cfg k ctx pulse setup).1 ≠ INVALID_NOTIFICATION_ID →
        attaches cfg ctx pulse b = true ∧
        Grown ctx.mId b ((b.addNotification cfg k ctx pulse setup).2.modifyData ctx.mId
          (·.addNotification (b.addNotification cfg k ctx pulse setup).1))) := by
  have hlt : b.sNextNotificationID + 1 < 2 ^ 32 - 1 := of_decide_eq_true hfits
  rw [addNotification_eq]
  cases attaches cfg ctx pulse b with
  | false =>
      refine ⟨fun _ => ?_, fun h => absurd rfl h⟩
      exact ⟨fun _ _ => rfl, ⟨[], (List.append_nil _).symm, .refl _, by simp⟩, rfl,
        Nat.le_succ _, fun _ => hlt⟩
  | true =>
      refine ⟨fun h => absurd h (ofNat_ne_invalid hlt), fun _ => ⟨rfl, ?_⟩⟩
      have hlive := (live_setNotifications_perm (b.created (b.attachCalls + ctx.mSlave.toNat)) k
        (setup (b.fresh ctx.mNodeAddress pulse ctx.mSlave) :: b.notifications k)).map
          (·.notificationID)
      rw [List.map_append, List.map_cons, (hs _).1] at hlive
      refine addNotification hopen ?_ ?_ ?_ rfl hfits
      · cases k <;> rfl
      · cases k <;> rfl
      · refine hlive.trans (List.perm_middle.trans (List.Perm.cons _ ?_))
        exact (ids_live_perm b k).symm

end Grown

/-! ## Requests -/

section Requests

variable {cfg : Config} {ctx : SocketConnectionContext} {b : Broker}

/-- Whether the master is connected is a matter of the phase. -/
theorem isMasterConnected_of_phase {b' : Broker} (h : b'.phase = b.phase) :
    b'.isMasterConnected cfg = b.isMasterConnected cfg := by
  rw [isMasterConnected, h, isMasterConnected]

/-- A new notification attaches nobody. -/
theorem clients_addNotification (k : NotificationKind) (pulse : SFNDPulseInfo)
    (setup : Notification → Notification) :
    (b.addNotification cfg k ctx pulse setup).2.mAttachedClients = b.mAttachedClients := by
  obtain ⟨a, p, coid, h | h⟩ := addNotification_cases cfg k ctx pulse setup b
  · rw [h]; cases k <;> rfl
  · rw [h]; rfl

/-- A new entry that spares the notifications triggers none of them once and for all. -/
theorem grown_addEntry {c : Nat} {e : ServerListEntry}
    (h : sparesEntry cfg e.ifDescription e.grpid b = true) : Grown c b (b.addEntry cfg c e) := by
  have hadd : Grown c b { b with mConnectedServers := b.mConnectedServers.add e } :=
    .of_still (.of_eq rfl rfl rfl rfl)
  have hdata := hadd.modifyData c (f := (·.addServer e.partyID)) (fun _ => rfl)
  have hfire : Grown c b (Broker.sweep cfg false .serverConnect
      (triggerAction cfg e.ifDescription e.grpid) _) :=
    hdata.sweep false (fun n hn _ _ => (Bool.not_eq_true' _).mp (List.all_eq_true.mp h n hn))
  exact hfire.notify false .serverListChange

/-- So does a new interface. -/
theorem grown_addInterface {d : InterfaceDescription} {pid : UInt32} {chid grpid : Int32}
    {isLocal : Bool} (h : sparesInterface cfg grpid d b = true) :
    Grown ctx.mId b (b.addInterface cfg ctx d pid chid isLocal grpid).2 := by
  rw [sparesInterface, Bool.or_eq_true] at h
  unfold addInterface
  split
  · exact .refl _ b
  · next hname =>
    have hentry := h.resolve_left hname
    have hcount : Grown ctx.mId b { b with mNextServerID := b.mNextServerID + 1 } :=
      .of_still (.of_eq rfl rfl rfl rfl)
    exact hcount.trans (grown_addEntry hentry)

/-- Registrations may be passed on to the master at the end. -/
theorem Grown.registerMaster {c : Nat} {b b' : Broker} (h : Grown c b b') :
    Grown c b (b'.registerInterfacesMaster cfg) :=
  h.still (still_registerInterfacesMaster cfg b')

/-- A record of a slave that is refused, or spares the notifications. -/
theorem grown_registerMasterRecord {r : SFNDInterfaceDescriptionEx}
    (h : (b.refusesRecord cfg r ||
      sparesEntry cfg r.ifDescription (masterEntry ctx r).grpid b) = true) :
    Grown ctx.mId b (b.registerMasterRecord cfg ctx r).2 := by
  rw [Bool.or_eq_true] at h
  unfold registerMasterRecord
  split
  · exact .refl _ b
  · next hrefuse => exact grown_addEntry (h.resolve_left hrefuse)

/-- A server that nobody watches goes. -/
theorem grown_handleUnregisterInterface {serverID : SPartyID}
    (h : sparesRequest cfg ctx b (.unregisterInterface serverID) = true) :
    Grown ctx.mId b (b.handleUnregisterInterface cfg ctx serverID).1 := by
  have hdata := (Grown.refl ctx.mId b).modifyData ctx.mId (f := (·.removeServer serverID))
    (fun _ => rfl)
  unfold handleUnregisterInterface
  split
  · next hserver =>
    dsimp only
    split
    · exact hdata
    · next entry hentry =>
      have hfound : b.mConnectedServers.findID serverID = some entry := hentry
      have hwaits : noneWaits .serverDisconnect (fun n => n.partyID = serverID) b = true := by
        simpa [sparesRequest, hserver, hfound] using h
      have hfire : Grown ctx.mId b (Broker.trigger cfg .serverDisconnect serverID _) :=
        hdata.fireIf hwaits
      have hmaster := hfire.still (still_unregisterInterfaceMaster cfg entry.masterID _)
      have hdrop := hmaster.still
        (show Still _ (Broker.dropServer serverID _) from .of_eq rfl rfl rfl rfl)
      exact hdrop.notify false .serverListChange
  · exact .refl _ b

/-- A client that nobody watches goes. -/
theorem grown_handleDetachInterface {clientID : SPartyID}
    (h : sparesRequest cfg ctx b (.detachInterface clientID) = true) :
    Grown ctx.mId b (b.handleDetachInterface cfg ctx clientID).1 := by
  unfold handleDetachInterface
  split
  · next hclient =>
    have hwaits : noneWaits .clientDetach (fun n => n.partyID = clientID) b = true := by
      simpa [sparesRequest, hclient] using h
    have hfire : Grown ctx.mId b (b.trigger cfg .clientDetach clientID) :=
      (Grown.refl ctx.mId b).fireIf hwaits
    have hremove := hfire.still (show Still _
      { b.trigger cfg .clientDetach clientID with
        mAttachedClients :=
          (b.trigger cfg .clientDetach clientID).mAttachedClients.remove clientID } from
      .of_eq rfl rfl rfl rfl)
    exact hremove.modifyData ctx.mId (fun _ => rfl)
  · split
    · have heval : Grown ctx.mId b (b.eval ⟨0, some ctx.mId, .detachInterface clientID⟩) :=
        .of_still (still_eval _ b)
      exact heval.modifyData ctx.mId (fun _ => rfl)
    · exact .refl _ b

/-- The notification is listed for its connection, if it does not fire at once. -/
theorem grown_notifyServerDisconnect {serverID : SPartyID} {pulse : SFNDPulseInfo}
    (hopen : (b.conns ctx.mId).isSome = true)
    (h : sparesRequest cfg ctx b (.notifyServerDisconnect serverID pulse) = true) :
    Grown ctx.mId b (b.handleNotifyServerDisconnectNoResponse cfg ctx serverID pulse).2 := by
  obtain ⟨hfits, hspares⟩ := Bool.and_eq_true_iff.mp h
  obtain ⟨hfail, hset⟩ := Grown.add cfg hopen hfits .serverDisconnect pulse
    (show Plain (fun n => { n with partyID := serverID, host := some ctx.mId }) from
      fun _ => ⟨rfl, rfl, rfl⟩)
  have hservers := servers_addNotification cfg .serverDisconnect ctx pulse
    (fun n => { n with partyID := serverID, host := some ctx.mId }) b
  have hphase := phase_addNotification cfg .serverDisconnect ctx pulse
    (fun n => { n with partyID := serverID, host := some ctx.mId }) b
  unfold handleNotifyServerDisconnectNoResponse addParty
  generalize b.addNotification cfg .serverDisconnect ctx pulse
    (fun n => { n with partyID := serverID, host := some ctx.mId }) = r at *
  dsimp only
  split
  · next hid => exact hfail hid
  · next hid =>
    obtain ⟨hattaches, hadded⟩ := hset hid
    have hthere : (r.2.modifyData ctx.mId (·.addNotification r.1)).mConnectedServers.findID
        serverID = b.mConnectedServers.findID serverID := congrArg (·.findID serverID) hservers
    have hmaster : (r.2.modifyData ctx.mId (·.addNotification r.1)).isMasterConnected cfg =
        b.isMasterConnected cfg := isMasterConnected_of_phase hphase
    rw [hthere, hmaster]
    split
    · exact hadded.still (still_monitorServer cfg serverID r.1 _)
    · split
      · next hask hmissing =>
        -- the notification would be sent at once
        rw [hmissing] at hask
        rw [Option.isNone_iff_eq_none] at hmissing
        rw [hattaches, hmissing] at hspares
        exact absurd hspares (by simpa using hask)
      · exact hadded

/-- So is one for an interface, if it does not fire at once. -/
theorem grown_notifyServerAvailable {pulse : SFNDPulseInfo} {d : InterfaceDescription}
    (hopen : (b.conns ctx.mId).isSome = true) (h : sparesAvailable cfg ctx pulse d b = true) :
    Grown ctx.mId b (b.handleNotifyServerAvailableNoResponse cfg ctx pulse d).2 := by
  obtain ⟨hfits, hspares⟩ := Bool.and_eq_true_iff.mp h
  have hplain : Plain (fun n => { n with
      ifDescription := d, host := some ctx.mId, isLocal := cfg.isLocalService d.name,
      uid := ctx.mUid }) := fun _ => ⟨rfl, rfl, rfl⟩
  obtain ⟨hfail, hset⟩ := Grown.add cfg hopen hfits .serverConnect pulse hplain
  unfold handleNotifyServerAvailableNoResponse addDescription
  dsimp only at hspares ⊢
  generalize b.addNotification cfg .serverConnect ctx pulse _ = r at *
  split
  · exact .refl _ b
  · next hallowed =>
    split
    · next hid => exact hfail hid
    · next hid =>
      obtain ⟨hattaches, hadded⟩ := hset hid
      rw [hattaches, Bool.not_true, Bool.or_false, Bool.or_eq_true] at hspares
      have hnone := hspares.resolve_right hallowed
      split
      · next hsome =>
        rw [Option.isNone_iff_eq_none] at hnone
        rw [hnone] at hsome
        cases hsome
      · split
        · exact hadded.still (still_forward cfg _)
        · exact hadded

/-- So is one for a client, if it does not fire at once. -/
theorem grown_handleNotifyClientDetach {clientID : SPartyID} {pulse : SFNDPulseInfo}
    (hopen : (b.conns ctx.mId).isSome = true)
    (h : sparesRequest cfg ctx b (.notifyClientDetach clientID pulse) = true) :
    Grown ctx.mId b (b.handleNotifyClientDetach cfg ctx clientID pulse).1 := by
  obtain ⟨hfits, hspares⟩ := Bool.and_eq_true_iff.mp h
  obtain ⟨hfail, hset⟩ := Grown.add cfg hopen hfits .clientDetach pulse
    (show Plain (fun n => { n with partyID := clientID, host := some ctx.mId }) from
      fun _ => ⟨rfl, rfl, rfl⟩)
  have hclients := @clients_addNotification cfg ctx b .clientDetach pulse
    (fun n => { n with partyID := clientID, host := some ctx.mId })
  have hphase := phase_addNotification cfg .clientDetach ctx pulse
    (fun n => { n with partyID := clientID, host := some ctx.mId }) b
  unfold handleNotifyClientDetach addParty
  generalize b.addNotification cfg .clientDetach ctx pulse
    (fun n => { n with partyID := clientID, host := some ctx.mId }) = r at *
  dsimp only
  split
  · next hid => exact hfail hid
  · next hid =>
    obtain ⟨hattaches, hadded⟩ := hset hid
    have hthere : (r.2.modifyData ctx.mId (·.addNotification r.1)).mAttachedClients.finds
        clientID = b.mAttachedClients.finds clientID := congrArg (·.finds clientID) hclients
    have hmaster : (r.2.modifyData ctx.mId (·.addNotification r.1)).isMasterConnected cfg =
        b.isMasterConnected cfg := isMasterConnected_of_phase hphase
    dsimp only [respond]
    rw [hthere, hmaster]
    split
    · exact hadded.still (still_eval _ _)
    · next hask =>
      split
      · exact hadded
      · next hmissing =>
        rw [hattaches] at hspares
        rw [Bool.and_comm] at hask
        simp only [Bool.not_true, Bool.false_or, Bool.or_eq_true] at hspares
        exact absurd (hspares.resolve_left hmissing) hask

/-- A notification for the list of interfaces never fires at once for good. -/
theorem grown_handleNotifyInterfaceListChange {pulse : SFNDPulseInfo}
    (hopen : (b.conns ctx.mId).isSome = true) (hfits : b.nextIDFits = true) :
    Grown ctx.mId b (b.handleNotifyInterfaceListChange cfg ctx pulse).1 := by
  obtain ⟨hfail, hset⟩ := Grown.add cfg hopen hfits .serverListChange pulse
    (show Plain id from fun _ => ⟨rfl, rfl, rfl⟩)
  unfold handleNotifyInterfaceListChange addPlain
  generalize b.addNotification cfg .serverListChange ctx pulse id = r at *
  dsimp only
  split
  · next hid => exact hfail hid
  · next hid => exact (hset hid).2.still (still_evalMaster cfg _ _)

/-- Nor does one with an expression. -/
theorem grown_handleNotifyInterfaceListMatch {pulse : SFNDPulseInfo} {regExpr : CString}
    (hopen : (b.conns ctx.mId).isSome = true) (hfits : b.nextIDFits = true) :
    Grown ctx.mId b (b.handleNotifyInterfaceListMatch cfg ctx pulse regExpr).1 := by
  have hlt : b.sNextNotificationID + 1 < 2 ^ 32 - 1 := of_decide_eq_true hfits
  have hadd : ((b.addRegExp cfg .serverListChange regExpr ctx pulse).1 = INVALID_NOTIFICATION_ID →
        Grown ctx.mId b (b.addRegExp cfg .serverListChange regExpr ctx pulse).2) ∧
      ((b.addRegExp cfg .serverListChange regExpr ctx pulse).1 ≠ INVALID_NOTIFICATION_ID →
        Grown ctx.mId b ((b.addRegExp cfg .serverListChange regExpr ctx pulse).2.modifyData
          ctx.mId
            (·.addNotification (b.addRegExp cfg .serverListChange regExpr ctx pulse).1))) := by
    unfold addRegExp
    split
    · obtain ⟨hfail, hset⟩ := Grown.add cfg hopen hfits .serverListChange pulse
        (show Plain (fun n => { n with regExpr := some regExpr }) from fun _ => ⟨rfl, rfl, rfl⟩)
      exact ⟨hfail, fun hid => (hset hid).2⟩
    · refine ⟨fun _ => ?_, fun h => absurd rfl h⟩
      exact ⟨fun _ _ => rfl, ⟨[], (List.append_nil _).symm, .refl _, by simp⟩, rfl,
        Nat.le_succ _, fun _ => hlt⟩
  obtain ⟨hfail, hset⟩ := hadd
  unfold handleNotifyInterfaceListMatch
  generalize b.addRegExp cfg .serverListChange regExpr ctx pulse = r at *
  dsimp only
  split
  · next hid => exact hfail hid
  · next hid =>
    have hask := (hset hid).still (still_evalMaster cfg
      ⟨r.1, none, .notifyInterfaceListMatch
        (masterPulse cfg .PULSE_MASTER_SERVERLIST_CHANGE r.1) regExpr⟩ _)
    dsimp only [respond]
    split
    · exact hask.notify true .serverListChange
    · exact hask

/-- A client is no notification. -/
theorem grown_addClient (c : Nat) (serverID : SPartyID) :
    Grown c b (b.addClient cfg c serverID).2 := by
  have hcount : Grown c b { b with
      mNextClientID := b.mNextClientID + 1
      mAttachedClients := b.mAttachedClients ++ [⟨b.nextClientIDFor cfg serverID, serverID, c⟩] } :=
    .of_still (.of_eq rfl rfl rfl rfl)
  unfold addClient
  dsimp only
  split
  · exact hcount.modifyData c (fun _ => rfl)
  · exact hcount

/-- So a local attach lists nothing. -/
theorem grown_handleAttachLocalInterface (e : ServerListEntry) :
    Grown ctx.mId b (b.handleAttachLocalInterface cfg ctx e).2 := by
  unfold handleAttachLocalInterface
  split
  · exact grown_addClient ctx.mId e.partyID
  · exact .refl _ b

/-- Nor does an attach. -/
theorem grown_handleAttachInterface (d : InterfaceDescription) :
    Grown ctx.mId b (b.handleAttachInterface cfg ctx d).1 := by
  unfold handleAttachInterface
  split
  · split
    · next entry _ =>
      dsimp only
      split <;> exact grown_handleAttachLocalInterface entry
    · split
      · exact .of_still (.of_eq rfl rfl rfl rfl)
      · exact .refl _ b
  · exact .refl _ b

/-- The notification of an extended attach is listed for its connection. -/
theorem grown_forwardAttachExtendedToMaster {pulse : SFNDPulseInfo} {d : InterfaceDescription}
    (hopen : (b.conns ctx.mId).isSome = true) (hfits : b.nextIDFits = true) :
    Grown ctx.mId b (b.forwardAttachExtendedToMaster cfg ctx pulse d).1 := by
  have hpool : Grown ctx.mId b (b.extendedPool d).2.2 ∧
      (b.extendedPool d).2.2.nextIDFits = true := by
    unfold extendedPool
    split
    · exact ⟨.refl _ b, hfits⟩
    · exact ⟨.of_still (.of_eq rfl rfl rfl rfl), hfits⟩
  unfold forwardAttachExtendedToMaster addDescription
  dsimp only
  generalize b.extendedPool d = p at *
  have hplain : Plain (fun n => { n with
      ifDescription := d, host := some ctx.mId, isLocal := cfg.isLocalService d.name,
      uid := ctx.mUid }) := fun _ => ⟨rfl, rfl, rfl⟩
  obtain ⟨hfail, hset⟩ := Grown.add cfg (hpool.1.opened.trans hopen) hpool.2
    .serverConnect pulse hplain
  have hfind := findNotification_addNotification cfg (b := p.2.2) .serverConnect ctx pulse hplain
  generalize p.2.2.addNotification cfg .serverConnect ctx pulse _ = r at *
  refine hpool.1.trans ?_
  split
  · next hid => exact hfail hid
  · next hid =>
    obtain ⟨n, hn, _, hfind⟩ := hfind hid
    rw [← hn, hfind]
    have hset := hn ▸ (hset hid).2
    have hattach := hset.still (still_attachPool p.1 .serverConnect n.notificationID _)
    exact hattach.still (still_askMasterExtended cfg _ d p.1 p.2.1 _ _)

/-- The server was found in the table, so the notification on its end is not sent at once. -/
theorem grown_handleAttachInterfaceExtended {pulse : SFNDPulseInfo} {d : InterfaceDescription}
    {stackPulse : SFNDPulseInfo} (hopen : (b.conns ctx.mId).isSome = true)
    (hfits : b.nextIDFits = true) :
    Grown ctx.mId b (b.handleAttachInterfaceExtended cfg ctx pulse d stackPulse).1 := by
  have hlocal (entry : ServerListEntry) := @grown_handleAttachLocalInterface cfg ctx b entry
  refine handleAttachInterfaceExtended_leaves (.refl _ b) (fun entry _ _ => hlocal entry) ?_ ?_ ?_
  · intro entry _ hentry _
    have hfound := findID_of_findDescription hentry
    have hframe : (b.handleAttachLocalInterface cfg ctx entry).2.mConnectedServers =
          b.mConnectedServers ∧
        (b.handleAttachLocalInterface cfg ctx entry).2.sNextNotificationID =
          b.sNextNotificationID := by
      unfold handleAttachLocalInterface addClient
      split
      · dsimp only
        split <;> exact ⟨rfl, rfl⟩
      · exact ⟨rfl, rfl⟩
    have hfits' : (b.handleAttachLocalInterface cfg ctx entry).2.nextIDFits = true := by
      rwa [nextIDFits, hframe.2]
    refine (hlocal entry).trans
      (grown_notifyServerDisconnect ((hlocal entry).opened.trans hopen) ?_)
    simp [sparesRequest, hfits', hframe.1, hfound]
  · intro hnone
    exact grown_notifyServerAvailable hopen (by simp [sparesAvailable, hfits, hnone])
  · intro _
    exact grown_forwardAttachExtendedToMaster hopen hfits

/-- A request that spares the notifications of others lists what it makes. -/
theorem grown_dispatch {r : Request} (hopen : (b.conns ctx.mId).isSome = true)
    (h : sparesRequest cfg ctx b r = true) : Grown ctx.mId b (b.dispatch cfg ctx r).1 := by
  have hstart := Grown.refl ctx.mId b
  cases r with
  | masterPing => exact hstart.still (still_setSlave ctx.mId b)
  | masterPingId id =>
      have hdata := hstart.modifyData ctx.mId (f := fun d => { d with mExtendedID := id })
        (fun _ => rfl)
      exact hdata.still (still_setSlave ctx.mId _)
  | registerInterface d pid chid =>
      rw [sparesRequest, Bool.or_eq_true] at h
      refine handleRegisterInterface_leaves hstart fun hcheck hlocal => ?_
      exact (grown_addInterface (h.resolve_left (by simp [hcheck, hlocal]))).registerMaster
  | registerInterfaceGroupID d pid chid grpid =>
      rw [sparesRequest, Bool.or_eq_true] at h
      refine handleRegisterInterfaceGroupID_leaves hstart fun hboth => ?_
      exact (grown_addInterface (h.resolve_left (by simp [hboth]))).registerMaster
  | registerInterfaceEx n pid chid rs =>
      have hrecord (d : InterfaceDescription) (s : Broker)
          (hd : sparesInterface cfg SB_UNKNOWN_GROUP_ID d s = true) :
          Grown ctx.mId s (registerRecordEx cfg ctx pid chid d s).2 := grown_addInterface hd
      have hloop := recordLoop_preserves_along (I := Grown ctx.mId b)
        (fun d s hd hs => hs.trans (hrecord d s hd)) hstart h
      exact handleRegisterInterfaceEx_leaves hloop hloop.registerMaster
  | registerMasterInterfaceEx n rs =>
      have hloop := recordLoop_preserves_along (I := Grown ctx.mId b)
        (fun r s hr hs => hs.trans (grown_registerMasterRecord hr)) hstart h
      exact handleRegisterMasterInterface_leaves hloop.registerMaster
  | unregisterInterface id => exact grown_handleUnregisterInterface h
  | attachInterface d => exact grown_handleAttachInterface d
  | attachInterfaceExtended pulse d stackPulse =>
      exact grown_handleAttachInterfaceExtended hopen h
  | getServerInformation d =>
      refine .of_still ?_
      simp only [dispatch, handleGetServerInformation]
      split
      · split
        · exact .refl b
        · split
          · exact .of_eq rfl rfl rfl rfl
          · exact .refl b
      · exact .refl b
  | detachInterface id => exact grown_handleDetachInterface h
  | notifyServerDisconnect id pulse =>
      have hset := grown_notifyServerDisconnect hopen h
      simp only [dispatch, handleNotifyServerDisconnect]
      split <;> exact hset
  | notifyServerAvailable pulse d =>
      have hset : Grown ctx.mId b _ := grown_notifyServerAvailable hopen h
      simp only [dispatch, handleNotifyServerAvailable]
      split <;> exact hset
  | notifyServerAvailableEx n rs =>
      have hloop := recordLoop_preserves_along (I := Grown ctx.mId b)
        (f := notifyAvailableRecord cfg ctx) (fun r s hr hs =>
          hs.trans (grown_notifyServerAvailable (hs.opened.trans hopen) hr)) hstart h
      simp only [dispatch, handleNotifyServerAvailableEx]
      split <;> exact hloop
  | notifyClientDetach id pulse => exact grown_handleNotifyClientDetach hopen h
  | clearNotification id =>
      have hnot : id ∉ (b.dataOf ctx.mId).mNotificationList := by simpa [sparesRequest] using h
      simp only [dispatch, handleClearNotification]
      rw [if_neg hnot]
      exact hstart
  | getInterfaceList n =>
      refine .of_still ?_
      simp only [dispatch, handleGetInterfaceList]
      split
      · exact still_eval _ b
      · split <;> exact .refl b
  | notifyInterfaceListChange pulse => exact grown_handleNotifyInterfaceListChange hopen h
  | matchInterfaceList n re =>
      refine .of_still ?_
      simp only [dispatch, handleMatchInterfaceList]
      split
      · exact .refl b
      · split
        · exact still_eval _ b
        · split <;> exact .refl b
  | notifyInterfaceListMatch pulse re => exact grown_handleNotifyInterfaceListMatch hopen h
  | badFoundationVersion => exact hstart
  | malformed => exact hstart

/-! ## Other events -/

/-- A pulse for a pool without members erases nothing. -/
theorem grown_dispatchPulse {p : MasterPulse} {value : UInt32} (c : Nat)
    (h : sparesPulse value b p = true) : Grown c b (b.dispatchPulse cfg p value) := by
  have hstart := Grown.refl c b
  cases p with
  | PULSE_MASTER_SERVER_AVAILABLE => exact hstart.fireIf h
  | PULSE_MASTER_SERVER_DISCONNECT => exact hstart.fireIf h
  | PULSE_MASTER_CLIENT_DETACH =>
      simp only [dispatchPulse, handleMasterClientDetach]
      split
      · next n hfind =>
        rw [sparesPulse, hfind] at h
        exact hstart.fireIf h
      · next hfind =>
        -- no notification has the ID
        refine hstart.sweep true (fun n hn _ _ => ?_)
        have hne := List.find?_eq_none.mp hfind n hn
        rw [if_neg (fun hboth => hne (by simpa using hboth.2))]
        rfl
  | PULSE_MASTER_SERVERLIST_CHANGE =>
      exact hstart.notify true .serverListChange
  | PULSE_MASTER_ATTACH_EXTENDED =>
      simp only [dispatchPulse, handleMasterAttachExtended]
      split
      · exact hstart
      · next pos hfind =>
        rw [sparesPulse, hfind] at h
        dsimp only [Option.all] at h
        split
        · next hstate =>
          rw [hstate] at h
          exact hstart.fireIf h
        · next hstate =>
          rw [hstate] at h
          have hpool : Grown c b (b.modifyPool pos (·.setState .STATE_CONNECTED)) :=
            .of_still (.of_eq rfl rfl rfl rfl)
          exact hpool.fireIf h
        · exact hstart

/-- The loss of the master erases nothing where no one watches its servers. -/
theorem grown_handleMasterDisconnected (c : Nat) (h : sparesMasterDisconnected cfg b = true) :
    Grown c b (b.handleMasterDisconnected cfg) := by
  obtain ⟨hservers, hclients⟩ := Bool.and_eq_true_iff.mp h
  unfold handleMasterDisconnected
  dsimp only
  generalize hb₁ : ({ b with
      mConnectedServers := b.mConnectedServers.clearMasterIDs
      mMasterNotificationPool := []
      mPendingRemoteServersRequests := []
      mPendingAttachExtendedJobs := [] } : Broker) = b₁
  have hreset : Grown c b b₁ := hb₁ ▸ .of_still (.of_eq rfl rfl rfl rfl)
  have hthere (id : SPartyID) : (b₁.mConnectedServers.findID id).isNone =
      (b.mConnectedServers.findID id).isNone := by
    rw [← hb₁]
    exact ServerList.isNone_findID_mapMasterID _ _ _
  have hfire : Grown c b (b₁.sweep cfg false .serverDisconnect (fun b n =>
      if n.active ∧ cfg.mExtendedID ≠ n.partyID.extendedID ∧
        (b.mConnectedServers.findID n.partyID).isNone then .fire else .keep)) := by
    refine hreset.sweep false (fun n hn b' hb' => ?_)
    rw [← hb₁] at hn
    have hnot := List.all_eq_true.mp hservers n hn
    rw [hb', hthere, if_neg (fun hall => ?_)]
    · rfl
    · simp [hall.1, hall.2.1, hall.2.2] at hnot
  have hdetach : noneWaits .clientDetach (fun n => n.partyID.extendedID ≠ cfg.mExtendedID)
      (b₁.sweep cfg false .serverDisconnect (fun b n =>
        if n.active ∧ cfg.mExtendedID ≠ n.partyID.extendedID ∧
          (b.mConnectedServers.findID n.partyID).isNone then .fire else .keep)) = true := by
    rw [noneWaits, notifications_sweep_of_ne cfg _ _ _ _ (by decide), ← hb₁]
    exact hclients
  exact (hfire.fireIf hdetach).still
    (still_setNotifications .serverConnect (by simp [ids, Function.comp_def]))

end Requests

/-! ## The invariant -/

open Classical in
/-- The list of every connection holds the IDs of its notifications that are set. -/
def OwnIDs (H : Nat → UInt32 → Prop) (b : Broker) : Prop :=
  ∀ c, (b.notificationList c).Perm ((ids b.live).filter (H c))

namespace OwnIDs

variable {cfg : Config} {H : Nat → UInt32 → Prop} {X : UInt32 → Prop} {b b' : Broker}

/-- The lists and the live notifications are all that counts. -/
theorem of_eq (h : OwnIDs H b) (hlists : ∀ c, b'.notificationList c = b.notificationList c)
    (hlive : ids b'.live = ids b.live) : OwnIDs H b' := by
  intro c
  rw [hlists, hlive]
  exact h c

/-- Only what is granted counts, not how it is said. -/
theorem congr {H' : Nat → UInt32 → Prop} (h : OwnIDs H b) (hH : ∀ c id, H c id ↔ H' c id) :
    OwnIDs H' b := by
  rwa [show H' = H from funext (fun c => funext (fun id => propext (hH c id).symm))]

open Classical in
/-- What is set for a connection goes into its list. -/
theorem grown (h : OwnIDs H b) (hhosted : Hosted H X b) {c : Nat} (hg : Grown c b b')
    (hfits : b'.sNextNotificationID ≤ 2 ^ 32) :
    OwnIDs (grant H c b.sNextNotificationID b'.sNextNotificationID) b' := by
  obtain ⟨new, hlist, hlive, hmade⟩ := hg.set
  have hold (c' : Nat) : (ids b.live).filter (grant H c b.sNextNotificationID
      b'.sNextNotificationID c') = (ids b.live).filter (H c') := by
    refine List.filter_congr (fun id hid => ?_)
    have hnot := (hhosted.live id hid).not_again hfits
    simp [grant, hnot]
  intro c'
  have hperm := (hlive.filter (grant H c b.sNextNotificationID b'.sNextNotificationID c'))
  rw [List.filter_append, hold] at hperm
  refine List.Perm.trans ?_ hperm.symm
  by_cases hc : c' = c
  · subst hc
    have hnew : new.filter (grant H c' b.sNextNotificationID b'.sNextNotificationID c') = new :=
      List.filter_eq_self.mpr (fun id hid => decide_eq_true (Or.inr ⟨rfl, hmade id hid⟩))
    rw [hnew, hlist]
    exact ((h c').append_right new).trans List.perm_append_comm
  · have hnew : new.filter (grant H c b.sNextNotificationID b'.sNextNotificationID c') = [] := by
      refine List.filter_eq_nil_iff.mpr (fun id hid => ?_)
      have hnot : ¬ H c' id := fun hH => (hhosted.made c' id hH).not_again hfits (hmade id hid)
      simp [grant, hnot, hc]
    rw [hnew, List.nil_append, hg.others c' hc]
    exact h c'

end OwnIDs

/-! ## Closing a connection -/

/-- What happened to `b` since the connection is being closed concerned no other connection. -/
structure Aside (c : Nat) (b b' : Broker) : Prop where
  own : b'.notificationList c ⊆ b.notificationList c
  lists : ∀ c', c' ≠ c → b'.notificationList c' = b.notificationList c'
  sub : ids b'.live ⊆ ids b.live
  kept : ∀ c', c' ≠ c → ((ids b'.live).filter (· ∈ b.notificationList c')).Perm
    ((ids b.live).filter (· ∈ b.notificationList c'))

namespace Aside

variable {cfg : Config} {c : Nat} {b b' : Broker}

/-- Nothing is moved at the other connections. -/
theorem of_still (h : Still b b') : Aside c b b' where
  own := by rw [h.notificationList]; exact List.Subset.refl _
  lists c' _ := h.notificationList c'
  sub := by rw [ids_live_congr h.ids]; exact List.Subset.refl _
  kept c' _ := by rw [ids_live_congr h.ids]

/-- A sweep that erases nothing of the other connections. -/
theorem sweep (h : Aside c b b') (once : Bool) {k : NotificationKind}
    {act : Broker → Notification → Action} (hact : ∀ c', c' ≠ c → ∀ n ∈ b'.notifications k,
      n.notificationID ∈ b.notificationList c' → ∀ b'', Frame b' b'' →
        (act b'' n).erases = false) : Aside c b (b'.sweep cfg once k act) where
  own := List.Subset.trans (lists_sweep cfg once k act b' c) h.own
  lists c' hc := by
    rw [notificationList_sweep once (fun n hn hid => hact c' hc n hn (h.lists c' hc ▸ hid)),
      h.lists c' hc]
  sub := by
    intro id hid
    obtain ⟨k', hk'⟩ := mem_ids_live.mp hid
    exact h.sub (mem_ids_live.mpr ⟨k', (ids_sweep_sublist cfg once k act b' k').subset hk'⟩)
  kept c' hc := (ids_live_sweep_filter _ once (hact c' hc)).trans (h.kept c' hc)

/-- The notifications of the connection that is closed are removed. -/
theorem removeNotificationsOf (cfg : Config) (h : Aside c b b')
    (hdisjoint : ∀ c', c' ≠ c → ∀ id ∈ b.notificationList c', id ∉ b.notificationList c)
    (k : NotificationKind) : Aside c b (b'.removeNotificationsOf cfg k c) := by
  refine h.sweep false (fun c' hc n _ hid b'' hf => ?_)
  have hnot : n.notificationID ∉ b''.notificationList c :=
    fun hmem => hdisjoint c' hc _ hid (h.own (hf.lists c hmem))
  unfold Broker.notificationList at hnot
  rw [if_neg hnot]
  rfl

/-- A connection that is cleared takes only its own notifications along, if nobody else watches its
parties. -/
theorem clear (cfg : Config)
    (hdisjoint : ∀ c', c' ≠ c → ∀ id ∈ b.notificationList c', id ∉ b.notificationList c)
    (hspares : sparesClose c b = true) :
    Aside c b (b.clear cfg c) := by
  obtain ⟨hservers, hclients⟩ := Bool.and_eq_true_iff.mp hspares
  have hfire {b₁ : Broker} (h : Aside c b b₁) {k : NotificationKind} {l : PartyIDList}
      (hnotes : b₁.notifications k = b.notifications k)
      (hwaits : noneWaits k (fun n => n.notificationID ∉ (b.dataOf c).mNotificationList &&
        l.contains n.partyID) b = true) : Aside c b (b₁.triggerList cfg k l) := by
    refine h.sweep false (fun c' hc n hn hid _ _ => Grown.erases_fireIf ?_ _)
    have hnot := hdisjoint c' hc _ hid
    rw [hnotes] at hn
    have hn := List.all_eq_true.mp hwaits n hn
    dsimp only at hn
    rwa [← notificationList_eq, decide_eq_true hnot, Bool.true_and] at hn
  obtain ⟨hnotes, _⟩ := clearParties_frame cfg c b
  have h₁ := of_still (c := c) (still_clearParties cfg c b)
  have h₂ := hfire h₁ (congrFun hnotes .serverDisconnect) hservers
  have h₃ := hfire h₂ ((notifications_sweep_of_ne cfg _ _ _ _ (by decide)).trans
    (congrFun hnotes .clientDetach)) hclients
  have h₄ := h₃.removeNotificationsOf cfg hdisjoint .serverDisconnect
  have h₅ := h₄.removeNotificationsOf cfg hdisjoint .clientDetach
  have h₆ := h₅.removeNotificationsOf cfg hdisjoint .serverConnect
  have h₇ := h₆.removeNotificationsOf cfg hdisjoint .serverListChange
  rw [clear_clearEnd, clearEnd]
  split
  · exact h₇.sweep false (fun _ _ n _ _ _ _ => by split <;> rfl)
  · exact h₇

end Aside

open Classical in
/-- A connection takes its notifications with it. -/
theorem OwnIDs.closeConnection {cfg : Config} {H : Nat → UInt32 → Prop} {b : Broker} {c : Nat}
    (h : OwnIDs H b) (hhosted : Hosted H (· = INVALID_NOTIFICATION_ID) b)
    (hvalid : b.sNextNotificationID < 2 ^ 32 - 1) (hspares : sparesClose c b = true) :
    OwnIDs H ((b.clear cfg c).setConnection c none) := by
  have hdisjoint : ∀ c', c' ≠ c → ∀ id ∈ b.notificationList c', id ∉ b.notificationList c :=
    fun c' hc id hid hmem => hc (hhosted.disjoint c' c id (hhosted.lists c' id hid)
      (hhosted.lists c id hmem))
  have haside := Aside.clear cfg hdisjoint hspares
  intro c'
  have hlive : ids ((b.clear cfg c).setConnection c none).live = ids (b.clear cfg c).live := rfl
  rw [notificationList_setConnection, hlive]
  split
  · next hc =>
    subst hc
    obtain ⟨_, hgone⟩ := hhosted.clear cfg c'
    have hnone : (ids (b.clear cfg c').live).filter (H c') = [] := by
      refine List.filter_eq_nil_iff.mpr (fun id hid hH => ?_)
      obtain ⟨k, hk⟩ := mem_ids_live.mp hid
      obtain ⟨n, hn, rfl⟩ := List.mem_map.mp hk
      refine hgone k n hn ⟨of_decide_eq_true hH, ?_⟩
      obtain ⟨i, _, hi, hmade⟩ := hhosted.live _ (haside.sub hid)
      rw [hmade]
      exact ofNat_ne_invalid (by omega)
    rw [hnone]
    exact .refl _
  · next hc =>
    rw [haside.lists c' hc]
    have hmem : ∀ id ∈ ids b.live, decide (H c' id) = decide (id ∈ b.notificationList c') := by
      intro id hid
      rw [decide_eq_decide, (h c').mem_iff, List.mem_filter, decide_eq_true_eq]
      exact (and_iff_right hid).symm
    have hbefore := h c'
    rw [List.filter_congr hmem] at hbefore
    rw [List.filter_congr (fun id hid => hmem id (haside.sub hid))]
    exact hbefore.trans (haside.kept c' hc).symm

/-! ## Runs -/

/-- A message of the pipe takes no ID from a list; the loss of the master has to spare the
notifications for that. -/
theorem grown_deliver {cfg : Config} {b : Broker} (hattach : b.mPendingAttachExtendedJobs = [])
    (hspares : spares cfg b .deliver = true) : Grown 0 b (b.step cfg .deliver) := by
  obtain hsame | ⟨m, rest, hpipe, _, hstep⟩ := deliver_cases cfg b
  · rw [hsame]
    exact .refl _ b
  · rw [hstep]
    have hrest : Grown 0 b { b with pipe := rest } := .of_still (.of_eq rfl rfl rfl rfl)
    cases m with
    | jobExecuted job res =>
        cases hends : endsAttach job res with
        | true =>
            simp only [dispatchInternal, handleJobFinished_of_endsAttach cfg hends]
            have hadd := hrest.modifyData (job.ctx.getD 0)
              (f := (·.addClient res.connInfo.clientID)) (fun _ => rfl)
            exact hadd.still (still_finalize job _ _)
        | false => exact hrest.still (still_handleJobFinished cfg hattach hends)
    | masterConnected =>
        exact (hrest.still (still_registerInterfacesMaster cfg _)).still (still_forward cfg _)
    | masterDisconnected =>
        rw [spares, hpipe] at hspares
        exact hrest.trans (grown_handleMasterDisconnected 0 hspares)

/-- A request that spares the notifications lengthens the list of its connection at most. -/
theorem grown_request {cfg : Config} {b : Broker} {c : Nat} {r : Request}
    (hspares : spares cfg b (.request c r) = true) : Grown c b (b.step cfg (.request c r)) := by
  rcases request_still cfg c r b with hsame | ⟨k, hk, hdeferred, -, hstill⟩
  · rw [Broker.step, hsame]
    exact .refl c b
  · rw [spares, hk] at hspares
    have hrequest : sparesRequest cfg (k.ctx c) b r = true := by
      simpa [hdeferred] using hspares
    have hopen : (b.conns (k.ctx c).mId).isSome = true := by
      rw [show (k.ctx c).mId = c from rfl, hk]
      rfl
    exact (grown_dispatch hopen hrequest).still hstill

/-- A step that spares the notifications keeps the lists exact. -/
theorem OwnIDs.step {cfg : Config} {H : Nat → UInt32 → Prop} {b : Broker} (h : OwnIDs H b)
    (hhosted : Hosted H (· = INVALID_NOTIFICATION_ID) b) (hfresh : NumbersFresh b)
    (hattach : b.mPendingAttachExtendedJobs = []) (hfits : b.sNextNotificationID < 2 ^ 32 - 1)
    {e : Event} (hspares : spares cfg b e = true) :
    OwnIDs (fun c id => H c id ∨ ∃ r, e = .request c r ∧
        Made b.sNextNotificationID (b.step cfg e).sNextNotificationID id) (b.step cfg e) ∧
      (b.step cfg e).sNextNotificationID < 2 ^ 32 - 1 := by
  have hquiet (he : ∀ c r, e ≠ .request c r) (h' : OwnIDs H (b.step cfg e))
      (hfits' : (b.step cfg e).sNextNotificationID < 2 ^ 32 - 1) :
      OwnIDs (fun c id => H c id ∨ ∃ r, e = .request c r ∧
          Made b.sNextNotificationID (b.step cfg e).sNextNotificationID id) (b.step cfg e) ∧
        (b.step cfg e).sNextNotificationID < 2 ^ 32 - 1 :=
    ⟨h'.congr (by simp [he]), hfits'⟩
  have hgrown {c : Nat} (he : ∀ c r, e ≠ .request c r) (hg : Grown c b (b.step cfg e))
      (hnext : (b.step cfg e).sNextNotificationID = b.sNextNotificationID) :
      OwnIDs (fun c id => H c id ∨ ∃ r, e = .request c r ∧
          Made b.sNextNotificationID (b.step cfg e).sNextNotificationID id) (b.step cfg e) ∧
        (b.step cfg e).sNextNotificationID < 2 ^ 32 - 1 := by
    have howned := h.grown hhosted hg (by omega)
    rw [hnext, grant_self] at howned
    exact hquiet he howned (by omega)
  cases e with
  | connected node loc uid =>
      refine hquiet (by simp) (h.of_eq (fun c => ?_) rfl) hfits
      have hset := notificationList_setConnection b.nextConnectionId c (some
        { mNodeAddress := node, mLocalAddress := loc, mUid := uid }) b
      refine hset.trans ?_
      split
      · next hc =>
        rw [hc, notificationList, data?, hfresh _ (Nat.le_refl _)]
        rfl
      · rfl
  | request c r =>
      have hg := grown_request hspares
      have hfits' := hg.fits hfits
      refine ⟨(h.grown hhosted hg (by omega)).congr (fun c' id => ?_), hfits'⟩
      simp only [grant, Event.request.injEq]
      constructor
      · rintro (hold | ⟨rfl, hmade⟩)
        · exact Or.inl hold
        · exact Or.inr ⟨r, ⟨rfl, rfl⟩, hmade⟩
      · rintro (hold | ⟨_, ⟨rfl, _⟩, hmade⟩)
        · exact Or.inl hold
        · exact Or.inr ⟨rfl, hmade⟩
  | closed c =>
      have hnext := next_of_prims cfg (by simp [closeLabels]) (prims_closeConnection cfg c b)
      refine hquiet (by simp) ?_ (hnext ▸ hfits)
      rw [Broker.step]
      rcases closeConnection_cases cfg c b with hsame | ⟨k, hk, hheld, hclose⟩
      · rwa [hsame]
      · rw [spares, hk] at hspares
        rw [hclose]
        exact h.closeConnection hhosted hfits (by simpa [hheld] using hspares)
  | pulse p value =>
      obtain ⟨c, hm⟩ := moves_step cfg hattach (e := .pulse p value) rfl (by simp)
      exact hgrown (by simp) (grown_dispatchPulse 0 hspares) (hm.next_eq (by simp [eventMoves]))
  | deliver =>
      obtain ⟨c, hm⟩ := moves_step cfg hattach (e := .deliver) rfl (by simp)
      exact hgrown (c := 0) (by simp) (grown_deliver hattach hspares)
        (hm.next_eq (by simp [eventMoves]))
  | worker w =>
      obtain ⟨c, hm⟩ := moves_step cfg hattach (e := .worker w) rfl (by simp)
      obtain ⟨_, hconns, hid, hnotes, hnext⟩ := workerStep_frame b w
      exact hgrown (c := 0) (by simp) (.of_still (.of_eq hconns (funext hnotes) hnext hid)) hnext

/-- In every run whose steps spare the notifications the lists are exact. -/
theorem owned_run {cfg : Config} {es : List Event}
    (h : Run.Along (step cfg) (fun b e => spares cfg b e = true) init es) :
    OwnIDs (MadeFor cfg es) (Run.run (step cfg) init es) ∧
      (Run.run (step cfg) init es).sNextNotificationID < 2 ^ 32 - 1 := by
  induction es using List.reverseRecOn with
  | nil =>
      refine ⟨fun c => ?_, by simp [init]⟩
      simp [ids, live, kinds, Broker.notifications, init, notificationList, data?]
  | append_singleton es e ih =>
      obtain ⟨hbefore, hlast⟩ := Run.along_append.mp h
      obtain ⟨howned, hfits⟩ := ih hbefore
      rw [Run.run_append, Run.run_cons, Run.run_nil]
      have hstep := howned.step (hosted_run (Nat.le_of_lt (by omega))) (numbersFresh_run cfg es)
        (attachJobs_run cfg es) hfits hlast.1
      exact ⟨hstep.1.congr (fun c id => madeFor_snoc.symm), hstep.2⟩

open Classical in
/-- Behind every run whose steps spare the notifications of the connections that stay open the
list of every connection is exact. -/
theorem exactIDs_of_spares (cfg : Config) (es : List Event)
    (h : Run.Along (step cfg) (fun b e => spares cfg b e = true) init es) :
    ExactIDs cfg es (Run.run (step cfg) init es) := by
  obtain ⟨howned, hfits⟩ := owned_run h
  have hlist {c : Nat} {k : Connection} (hk : (Run.run (step cfg) init es).conns c = some k) :
      (Run.run (step cfg) init es).notificationList c = k.data.mNotificationList := by
    rw [notificationList, data?, hk]
    rfl
  have hexists {c : Nat} {k : Connection} (hk : (Run.run (step cfg) init es).conns c = some k)
      (id : UInt32) : id ∈ k.data.mNotificationList ↔
        ∃ kind, ∃ n ∈ (Run.run (step cfg) init es).notifications kind,
          n.notificationID = id ∧ MadeFor cfg es c id := by
    rw [← hlist hk, (howned c).mem_iff, List.mem_filter, decide_eq_true_eq, mem_ids_live]
    simp only [ids, List.mem_map]
    constructor
    · rintro ⟨⟨kind, n, hn, hid⟩, hmade⟩
      exact ⟨kind, n, hn, hid, hmade⟩
    · rintro ⟨kind, n, hn, hid, hmade⟩
      exact ⟨⟨kind, n, hn, hid⟩, hmade⟩
  constructor
  case exists_iff => exact fun c k hk id => hexists hk id
  case cleared =>
    intro c k hk id hnone
    have hnot : id ∉ ((Run.run (step cfg) init es).dataOf (k.ctx c).mId).mNotificationList := by
      rw [← notificationList_eq, show (k.ctx c).mId = c from rfl, hlist hk, hexists hk]
      exact hnone
    rw [dispatch, handleClearNotification, if_neg hnot]
    rfl
  case length_eq =>
    intro c k hk
    rw [← hlist hk, (howned c).length_eq, ids, List.filter_map, List.length_map]
    rfl

/-- Two connections set notifications, and the first one goes with its own. -/
theorem exactIDs_of_spares_closed :
    let es : List Event := [.connected 0 0 0, .connected 0 0 0,
      .request 1 (.notifyInterfaceListChange ⟨1, 2, 3, 4⟩),
      .request 2 (.notifyServerAvailable ⟨1, 2, 3, 4⟩ ⟨[65], 1, 0⟩),
      .request 2 (.notifyInterfaceListChange ⟨1, 2, 3, 4⟩), .closed 1]
    (Run.run (step aloneConfig) init es).notificationList 2 = [2, 3] ∧
      ExactIDs aloneConfig es (Run.run (step aloneConfig) init es) :=
  ⟨by decide, exactIDs_of_spares aloneConfig _ (by decide)⟩

/-- A notification is cleared.  Its ID stays in the list, so it is cleared a second time. -/
theorem not_exactIDs_cleared :
    let es : List Event := [.connected 0 0 0,
      .request 1 (.notifyInterfaceListChange ⟨1, 2, 3, 4⟩), .request 1 (.clearNotification 1)]
    let b := Run.run (step aloneConfig) init es
    ids b.live = [] ∧ b.notificationList 1 = [1] ∧
      (b.dispatch aloneConfig ⟨1, 0, 0, 0, false⟩ (.clearNotification 1)).2 = some ⟨0, .empty⟩ ∧
      ¬ ExactIDs aloneConfig es b := by
  intro es b
  have hlive : ids b.live = [] := by decide
  refine ⟨hlive, by decide, by decide, fun h => ?_⟩
  obtain ⟨k, hk⟩ : ∃ k, b.conns 1 = some k := Option.isSome_iff_exists.mp (by decide)
  have hlength := h.length_eq 1 k hk
  have hnone : b.live = [] := List.map_eq_nil_iff.mp hlive
  have hlist : k.data.mNotificationList.length = 1 := by
    have hids : b.notificationList 1 = [1] := by decide
    rw [notificationList, data?, hk] at hids
    exact congrArg List.length hids
  rw [hnone, hlist] at hlength
  cases hlength

end Broker

end Dsi
