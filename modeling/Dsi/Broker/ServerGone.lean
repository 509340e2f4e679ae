import Dsi.Broker.Availability
import Dsi.Broker.Watch

/-!
# Dsi.Broker.ServerGone

Disconnect notifications on a broker without a master.  Servers leave the table
in `handleUnregisterInterface` and in `ClientSpecificData::clear`; both send the
notifications on the server that goes, and a notification on a server that is not
there is sent when it is set.  With distinct server IDs, and as long as the
notification IDs fit, every notification is therefore sent exactly once.
-/

namespace Dsi

open Sequence

namespace Broker

/-! ## Fresh server IDs -/

/-- A local registration of the interface is refused or takes an ID that is not in
the table. -/
def freshInterface (cfg : Config) (d : InterfaceDescription) (b : Broker) : Bool :=
  (b.mConnectedServers.findName d.name).isSome ||
    (b.mConnectedServers.findID ⟨UInt32.ofNat b.mNextServerID, cfg.mExtendedID⟩).isNone

/-- A record of a slave is refused or brings an ID that is not in the table. -/
def freshRecord (cfg : Config) (ctx : SocketConnectionContext) (r : SFNDInterfaceDescriptionEx)
    (b : Broker) : Bool :=
  b.refusesRecord cfg r || (b.mConnectedServers.findID (masterEntry ctx r).partyID).isNone

/-- The servers that a request registers get IDs that are not in the table. -/
def freshRequest (cfg : Config) (ctx : SocketConnectionContext) (b : Broker) : Request → Bool
  | .registerInterface d _ _ => !(check d && ctx.isLocal) || b.freshInterface cfg d
  | .registerInterfaceGroupID d _ _ _ => !(check d && ctx.isLocal) || b.freshInterface cfg d
  | .registerInterfaceEx n pid chid rs =>
      recordAlong (registerRecordEx cfg ctx pid chid) (freshInterface cfg) n.toInt.toNat rs b
  | .registerMasterInterfaceEx n rs =>
      recordAlong (registerMasterRecord cfg ctx) (freshRecord cfg ctx) n.toInt.toNat rs b
  | _ => true

/-- `freshRequest` for a connection that is read from. -/
def serverIDsFresh (cfg : Config) (b : Broker) : Event → Bool
  | .request c r =>
      match b.conns c with
      | some k => k.deferred || b.freshRequest cfg (k.ctx c) r
      | none => true
  | _ => true

/-- A server that is not found is not there. -/
theorem not_serverThere_of_findID {b : Broker} {id : SPartyID}
    (h : (b.mConnectedServers.findID id).isNone = true) : ¬ ServerThere b id := by
  rw [serverThere_iff_findID]
  cases hfind : b.mConnectedServers.findID id <;> simp_all

/-- A new interface gets a fresh ID. -/
theorem ServerIDsNodup.addInterface {cfg : Config} (ctx : SocketConnectionContext)
    {d : InterfaceDescription} (pid : UInt32) (chid : Int32) (isLocal : Bool) (grpid : Int32)
    {b : Broker} (h : ServerIDsNodup b) (hfresh : b.freshInterface cfg d = true) :
    ServerIDsNodup (b.addInterface cfg ctx d pid chid isLocal grpid).2 := by
  unfold Broker.addInterface
  split
  · exact h
  · next hname =>
    have hnone := (Bool.or_eq_true_iff.mp hfresh).resolve_left hname
    exact ServerIDsNodup.addEntry (b := { b with mNextServerID := b.mNextServerID + 1 }) cfg
      ctx.mId h (not_serverThere_of_findID hnone)

/-- So does the record of a slave. -/
theorem ServerIDsNodup.registerMasterRecord {cfg : Config} {ctx : SocketConnectionContext}
    {r : SFNDInterfaceDescriptionEx} {b : Broker} (h : ServerIDsNodup b)
    (hfresh : b.freshRecord cfg ctx r = true) :
    ServerIDsNodup (b.registerMasterRecord cfg ctx r).2 := by
  unfold Broker.registerMasterRecord
  split
  · exact h
  · next hrefuse =>
    have hnone := (Bool.or_eq_true_iff.mp hfresh).resolve_left hrefuse
    exact h.addEntry cfg ctx.mId (not_serverThere_of_findID hnone)

/-- A registration at the master gives no ID of this broker. -/
theorem ServerIDsNodup.registerInterfacesMaster (cfg : Config) {b : Broker}
    (h : ServerIDsNodup b) : ServerIDsNodup (b.registerInterfacesMaster cfg) :=
  h.prim (.registerMaster b : Prim cfg .masterID b _) (by simp)

/-- So every request with fresh IDs keeps them different. -/
theorem ServerIDsNodup.dispatch {cfg : Config} {ctx : SocketConnectionContext} {r : Request}
    {b : Broker} (h : ServerIDsNodup b) (hfresh : b.freshRequest cfg ctx r = true) :
    ServerIDsNodup (b.dispatch cfg ctx r).1 := by
  have hprims := prims_dispatch cfg ctx r b
  cases r with
  | registerInterface d pid chid =>
      refine handleRegisterInterface_leaves h fun hcheck hlocal => ?_
      have hd : b.freshInterface cfg d = true := by
        simpa [freshRequest, hcheck, hlocal] using hfresh
      exact (h.addInterface ctx pid chid _ _ hd).registerInterfacesMaster cfg
  | registerInterfaceGroupID d pid chid grpid =>
      refine handleRegisterInterfaceGroupID_leaves h fun hboth => ?_
      have hd : b.freshInterface cfg d = true := by
        simpa [freshRequest, hboth] using hfresh
      exact (h.addInterface ctx pid chid _ grpid hd).registerInterfacesMaster cfg
  | registerInterfaceEx n pid chid rs =>
      have h1 : ServerIDsNodup (recordLoop (registerRecordEx cfg ctx pid chid) n.toInt.toNat rs
          b).2 :=
        recordLoop_preserves_along (fun d s hd hs => hs.addInterface ctx pid chid _ _ hd) h hfresh
      exact handleRegisterInterfaceEx_leaves h1 (h1.registerInterfacesMaster cfg)
  | registerMasterInterfaceEx n rs =>
      have h1 : ServerIDsNodup (recordLoop (Broker.registerMasterRecord cfg ctx) n.toInt.toNat rs
          b).2 :=
        recordLoop_preserves_along (fun r s hr hs => hs.registerMasterRecord hr) h hfresh
      exact handleRegisterMasterInterface_leaves (h1.registerInterfacesMaster cfg)
  | _ =>
      refine h.prims hprims ?_
      simp [requestLabels, unregisterLabels, attachLabels, attachExtendedLabels, detachLabels,
        clearLabels, listLabels, disconnectLabels, availableLabels]

/-! ## Setting a notification -/

/-- A notification for a server is set, or fires at once. -/
theorem setParty_notifyServerDisconnect {cfg : Config} (ctx : SocketConnectionContext)
    (serverID : SPartyID) (pulse : SFNDPulseInfo) {b : Broker}
    (hmaster : b.isMasterConnected cfg = false)
    (hfits : b.sNextNotificationID + 1 < 2 ^ 32 - 1) :
    SetParty .serverDisconnect ServerThere cfg serverID b
      (b.handleNotifyServerDisconnectNoResponse cfg ctx serverID pulse).1
      (b.handleNotifyServerDisconnectNoResponse cfg ctx serverID pulse).2 := by
  have hadd : Prims cfg [.quiet, .create .serverDisconnect] b
      (b.addParty cfg .serverDisconnect serverID ctx pulse).2 :=
    .single (by simp) (prim_addParty cfg _ serverID ctx pulse b)
  have hdata := hadd.quiet (by simp) (quiet_modifyData ctx.mId
    (·.addNotification (b.addParty cfg .serverDisconnect serverID ctx pulse).1) _)
  have hmaster' : ((b.addParty cfg .serverDisconnect serverID ctx pulse).2.modifyData ctx.mId
      (·.addNotification (b.addParty cfg .serverDisconnect serverID ctx pulse).1)
        ).isMasterConnected cfg = false := hdata.isMasterConnected.trans hmaster
  have hthere := hdata.serverThere_iff (by simp) (by simp) serverID
  rw [serverThere_iff_findID] at hthere
  unfold handleNotifyServerDisconnectNoResponse
  dsimp only
  cases addParty_cases cfg .serverDisconnect serverID ctx pulse hfits with
  | inl hfail =>
      rw [if_pos hfail.1]
      exact .failed hadd hfail.2
  | inr hok =>
      obtain ⟨new, hactive, hparty, hid, hvalid, hnotes⟩ := hok
      rw [if_neg (hid ▸ hvalid), hmaster', Bool.and_false, if_neg Bool.false_ne_true, hid]
      rw [hid] at hdata hthere
      split
      · next hmissing =>
        refine .sent hdata hnotes hactive hparty (fun h => ?_)
        have hsome := hthere.mpr h
        simp_all
      · next hfound =>
        exact .waits hdata hnotes hactive hparty
          (hthere.mp (Option.isSome_iff_ne_none.mpr (by simpa using hfound)))

/-! ## The table -/

/-- A server that goes leaves the others different. -/
theorem ServerIDsNodup.clearServer {cfg : Config} {b : Broker} (h : ServerIDsNodup b)
    (id : SPartyID) : ServerIDsNodup (b.clearServer cfg id) :=
  h.prims (prims_clearServer cfg b id) (by simp)

/-- `ServerList::find` and `ServerList::remove` take the server away. -/
theorem serverThere_clearServer {cfg : Config} {b : Broker} (h : ServerIDsNodup b)
    (serverID id : SPartyID) :
    ServerThere (b.clearServer cfg serverID) id ↔ ServerThere b id ∧ id ≠ serverID := by
  unfold Broker.clearServer
  split
  · next hnone =>
    refine ⟨fun hid => ⟨hid, fun he => ?_⟩, fun hid => hid.1⟩
    rw [serverThere_iff_findID, he, hnone] at hid
    simp at hid
  · next entry _ =>
    have hquiet := (prims_unregisterInterfaceMaster cfg entry.masterID b).serverThere_iff
      (by simp) (by simp) id
    rw [← hquiet]
    exact serverThere_remove (h.prims (prims_unregisterInterfaceMaster cfg entry.masterID b)
      (by simp)) rfl id

/-- The servers of a connection go, and no others. -/
theorem serverThere_foldl_clearServer (cfg : Config) (l : List SPartyID) {b : Broker}
    (h : ServerIDsNodup b) (id : SPartyID) :
    ServerThere (l.foldl (Broker.clearServer cfg) b) id ↔ ServerThere b id ∧ id ∉ l := by
  induction l generalizing b with
  | nil => simp
  | cons x xs ih =>
      rw [List.foldl_cons, ih (h.clearServer x), serverThere_clearServer h, List.mem_cons, not_or,
        and_assoc]

/-- What an entry that is removed was before does not matter for the connections. -/
theorem notificationList_clearServer (cfg : Config) (c : Nat) (b : Broker) (id : SPartyID) :
    (b.clearServer cfg id).notificationList c = b.notificationList c := by
  unfold Broker.clearServer unregisterInterfaceMaster
  split
  · rfl
  · split <;> rfl

/-- A client that goes is in no list of notifications. -/
theorem notificationList_clearClient (cfg : Config) (c : Nat) (b : Broker) (id : SPartyID) :
    (b.clearClient cfg id).notificationList c = b.notificationList c := by
  unfold Broker.clearClient evalMaster
  dsimp only
  split <;> rfl

/-- Changes over the elements of a list that leave the list of IDs alone. -/
theorem notificationList_foldl {f : Broker → SPartyID → Broker} {c : Nat}
    (hf : ∀ b id, (f b id).notificationList c = b.notificationList c) (l : List SPartyID)
    (b : Broker) : (l.foldl f b).notificationList c = b.notificationList c := by
  induction l generalizing b with
  | nil => rfl
  | cons x xs ih => rw [List.foldl_cons, ih, hf]

/-! ## Handlers -/

/-- The disconnect notifications, watched. -/
abbrev ServerWatched (cleared : List UInt32) (b b' : Broker) : Prop :=
  Watched .serverDisconnect ServerThere cleared b b'

/-- Updates of other tables. -/
theorem serverWatched_of_prims {cfg : Config} {L : List Label} {b b' : Broker}
    (hall : AllThere .serverDisconnect ServerThere b) (hp : Prims cfg L b b')
    (hsweep : .sweep .serverDisconnect ∉ L) (hcreate : .create .serverDisconnect ∉ L)
    (hremove : .removeServer ∉ L) (cleared : List UInt32) : ServerWatched cleared b b' :=
  watched_of_prims hp hsweep hcreate (Or.inl rfl)
    (fun n hn hactive => hp.serverThere hremove (hall n hn hactive)) cleared

/-- Further updates of other tables, which register no server either. -/
theorem ServerWatched.then {cfg : Config} {L : List Label} {cleared : List UInt32}
    {b b' b'' : Broker} (h : ServerWatched cleared b b') (hp : Prims cfg L b' b'')
    (hsweep : .sweep .serverDisconnect ∉ L) (hcreate : .create .serverDisconnect ∉ L)
    (hremove : .removeServer ∉ L) (hadd : .addEntry ∉ L) : ServerWatched cleared b b'' :=
  h.trans (serverWatched_of_prims h.all hp hsweep hcreate hremove cleared)
    (fun id => (hp.serverThere_iff hadd hremove id).mp) hp.sentIDs_prefix

/-- A server that is unregistered fires the notifications on it. -/
theorem serverWatched_handleUnregisterInterface {cfg : Config} (ctx : SocketConnectionContext)
    (serverID : SPartyID) {b : Broker} (hall : AllThere .serverDisconnect ServerThere b)
    (hnodup : ServerIDsNodup b) (cleared : List UInt32) :
    ServerWatched cleared b (b.handleUnregisterInterface cfg ctx serverID).1 := by
  unfold handleUnregisterInterface
  split
  · have h1 : Prims cfg [.quiet] b (b.modifyData ctx.mId (·.removeServer serverID)) :=
      .single (by simp) (.quiet (quiet_modifyData _ _ b))
    dsimp only
    split
    · exact serverWatched_of_prims hall h1 (by simp) (by simp) (by simp) cleared
    · next entry _ =>
      -- the notifications are sent before the server leaves the table
      generalize hb₁ : b.modifyData ctx.mId (·.removeServer serverID) = b₁ at h1 ⊢
      have h2 : Prims cfg [.sweep .serverDisconnect] b₁
          (b₁.trigger cfg .serverDisconnect serverID) :=
        .single (by simp) (prim_trigger cfg _ serverID b₁)
      have h3 := prims_unregisterInterfaceMaster cfg entry.masterID
        (b₁.trigger cfg .serverDisconnect serverID)
      have h4 := prims_dropServer cfg serverID ((b₁.trigger cfg .serverDisconnect
        serverID).unregisterInterfaceMaster cfg entry.masterID)
      have htail : Prims cfg [.quiet, .removeServer, .clients] _ _ :=
        (h3.mono (by simp)).trans (h4.mono (by simp))
      have hnodup₃ := ((hnodup.prims h1 (by simp)).prims h2 (by simp)).prims h3 (by simp)
      have hthere (id : SPartyID) : ServerThere (((b₁.trigger cfg .serverDisconnect
          serverID).unregisterInterfaceMaster cfg entry.masterID).dropServer serverID) id ↔ _ :=
        serverThere_remove hnodup₃ rfl id
      have hback (id : SPartyID) := ((h3.serverThere_iff (by simp) (by simp) id).trans
        (h2.serverThere_iff (by simp) (by simp) id)).trans
          (h1.serverThere_iff (by simp) (by simp) id)
      have hfire : ServerWatched cleared b (((b₁.trigger cfg .serverDisconnect
          serverID).unregisterInterfaceMaster cfg entry.masterID).dropServer serverID) := by
        refine watched_fire cfg (p := (· = serverID)) (h1.persists (by simp) (Or.inl rfl))
          (h1.inherits (by simp)) (htail.persists (by simp) (Or.inl rfl)) (htail.inherits (by simp))
          htail.sentIDs_prefix ?_ cleared
        intro n hn hactive
        rw [hthere, hback]
        simp [hall n hn hactive]
      exact hfire.then (.single (L := [.sweep .serverListChange]) (by simp)
        (prim_listChange cfg false _ _)) (by simp) (by simp) (by simp) (by simp)
  · exact serverWatched_of_prims hall (prims_quiet cfg (.refl b)) (by simp) (by simp) (by simp)
      cleared

/-- A notification that is cleared goes without a pulse. -/
theorem serverWatched_handleClearNotification {cfg : Config} (ctx : SocketConnectionContext)
    (id : UInt32) {b : Broker} (hall : AllThere .serverDisconnect ServerThere b) :
    ServerWatched ((b.notificationList ctx.mId).filter (· = id)) b
      (b.handleClearNotification cfg ctx id).1 := by
  unfold handleClearNotification
  split
  · next hown =>
    have h1 : Prims cfg [.quiet, .sweep .clientDetach] b (b.modifyData ctx.mId
        (·.removeNotification id)) := .single (by simp) (.quiet (quiet_modifyData _ _ b))
    have h2 := h1.tail (by simp) (prim_removeNotification cfg .clientDetach id _)
    have hwatched := serverWatched_of_prims hall h2 (by simp) (by simp) (by simp)
      ((b.notificationList ctx.mId).filter (· = id))
    dsimp only
    generalize ((b.modifyData ctx.mId (·.removeNotification id)).removeNotification cfg
      .clientDetach id) = b₂ at *
    have hthere (x : SPartyID) : ServerThere (b₂.removeNotification cfg .serverDisconnect id) x ↔
        ServerThere b₂ x :=
      (Prims.single (L := [.sweep .serverDisconnect]) (by simp)
        (prim_removeNotification cfg .serverDisconnect id b₂)).serverThere_iff (by simp) (by simp) x
    have hdrop : ServerWatched ((b.notificationList ctx.mId).filter (· = id)) b₂
        (b₂.removeNotification cfg .serverDisconnect id) := by
      refine watched_sweep hwatched.all (fun n hclear b' _ => ?_) (fun x => (hthere x).mpr)
      rw [if_neg]
      intro he
      refine hclear (List.mem_filter.mpr ⟨?_, by simpa using he⟩)
      rw [notificationList_eq, he]
      exact hown
    have hboth := hwatched.trans hdrop (fun x => (hthere x).mp)
      (sentIDs_prefix_sweep cfg true .serverDisconnect _ b₂)
    have h3 : Prims cfg [.sweep .serverConnect, .sweep .serverListChange]
        (b₂.removeNotification cfg .serverDisconnect id) _ :=
      .single (by simp) (prim_removeNotification cfg .serverConnect id _)
    exact ServerWatched.then hboth (h3.tail (by simp)
      (prim_removeNotification cfg .serverListChange id _)) (by simp) (by simp) (by simp) (by simp)
  · exact serverWatched_of_prims hall (prims_quiet cfg (.refl b)) (by simp) (by simp) (by simp)
      _

/-- `ClientSpecificData::clear`: here the servers leave the table first. -/
theorem serverWatched_clear {cfg : Config} (c : Nat) {b : Broker}
    (hall : AllThere .serverDisconnect ServerThere b) (hnodup : ServerIDsNodup b) :
    ServerWatched (b.notificationList c) b (b.clear cfg c) := by
  have h1 := (prims_foldl cfg (prims_clearServer cfg) (b.dataOf c).mServerList.elems b)
  have h2 := (prims_foldl cfg (prims_clearClient cfg) (b.dataOf c).mClientList.elems
    ((b.dataOf c).mServerList.elems.foldl (Broker.clearServer cfg) b))
  have hthere := serverThere_foldl_clearServer cfg (b.dataOf c).mServerList.elems hnodup
  have hlists : ((b.dataOf c).mClientList.elems.foldl (Broker.clearClient cfg)
      ((b.dataOf c).mServerList.elems.foldl (Broker.clearServer cfg) b)).notificationList c =
        b.notificationList c := by
    rw [notificationList_foldl (notificationList_clearClient cfg c),
      notificationList_foldl (notificationList_clearServer cfg c)]
  unfold Broker.clear
  dsimp only
  generalize (b.dataOf c).mServerList.elems.foldl (Broker.clearServer cfg) b = b₁ at *
  generalize (b.dataOf c).mClientList.elems.foldl (Broker.clearClient cfg) b₁ = b₂ at *
  have h12 : Prims cfg [.quiet, .removeServer, .clients] b b₂ := h1.trans (h2.mono (by simp))
  -- the notifications on the servers of the connection
  generalize hb₃ : b₂.triggerList cfg .serverDisconnect (b.dataOf c).mServerList = b₃
  have h3 : Prims cfg [.sweep .serverDisconnect] b₂ b₃ :=
    hb₃ ▸ .single (by simp) (prim_fireIf cfg .serverDisconnect _ b₂)
  have hfire : ServerWatched (b.notificationList c) b b₃ := by
    refine watched_fire cfg (p := (b.dataOf c).mServerList.contains)
      (h12.persists (by simp) (Or.inl rfl)) (h12.inherits (by simp)) (persists_of_eq ?_)
      (inherits_of_eq ?_) ?_ ?_ _
    · rw [← hb₃]; rfl
    · rw [← hb₃]; rfl
    · rw [← hb₃]; exact List.prefix_rfl
    · intro n hn hactive
      rw [h3.serverThere_iff (by simp) (by simp), h2.serverThere_iff (by simp) (by simp), hthere]
      simp [hall n hn hactive, OrderedSet.contains]
  have hlists₃ : b₃.notificationList c ⊆ b.notificationList c := by
    rw [← hb₃, ← hlists]
    exact lists_sweep cfg false .serverDisconnect _ b₂ c
  generalize hb₄ : b₃.triggerList cfg .clientDetach (b.dataOf c).mClientList = b₄
  have h4 : Prims cfg [.sweep .clientDetach] b₃ b₄ :=
    hb₄ ▸ .single (by simp) (prim_fireIf cfg .clientDetach _ b₃)
  have hlists₄ : b₄.notificationList c ⊆ b.notificationList c := by
    rw [← hb₄]
    exact List.Subset.trans (lists_sweep cfg false .clientDetach _ b₃ c) hlists₃
  -- the notifications of the connection itself
  have hthere₅ (x : SPartyID) : ServerThere (b₄.removeNotificationsOf cfg .serverDisconnect c) x ↔
      ServerThere b₄ x :=
    (Prims.single (L := [.sweep .serverDisconnect]) (by simp)
      (prim_removeNotificationsOf cfg .serverDisconnect c b₄)).serverThere_iff (by simp) (by simp) x
  have hwatched₄ := ServerWatched.then hfire h4 (by simp) (by simp) (by simp) (by simp)
  have hdrop : ServerWatched (b.notificationList c) b₄
      (b₄.removeNotificationsOf cfg .serverDisconnect c) := by
    refine watched_sweep hwatched₄.all (fun n hclear b' hframe => ?_) (fun x => (hthere₅ x).mpr)
    exact if_neg (fun hmem => hclear (hlists₄ (hframe.lists c hmem)))
  have hboth := hwatched₄.trans hdrop (fun x => (hthere₅ x).mp)
    (sentIDs_prefix_sweep cfg false .serverDisconnect _ b₄)
  have h6 : Prims cfg [.sweep .clientDetach, .sweep .serverConnect, .sweep .serverListChange]
      (b₄.removeNotificationsOf cfg .serverDisconnect c) _ :=
    .single (by simp) (prim_removeNotificationsOf cfg .clientDetach c _)
  have h7 := h6.tail (by simp) (prim_removeNotificationsOf cfg .serverConnect c _)
  have h8 := h7.tail (by simp) (prim_removeNotificationsOf cfg .serverListChange c _)
  split
  · exact ServerWatched.then hboth (h8.tail (by simp) (prim_listChange cfg false _ _)) (by simp)
      (by simp) (by simp) (by simp)
  · exact ServerWatched.then hboth h8 (by simp) (by simp) (by simp) (by simp)

/-- A new notification on a server that is not there fires at once. -/
theorem serverWatched_notifyServerDisconnect {cfg : Config} (ctx : SocketConnectionContext)
    (serverID : SPartyID) (pulse : SFNDPulseInfo) {b : Broker}
    (hall : AllThere .serverDisconnect ServerThere b) (hmaster : b.isMasterConnected cfg = false)
    (hfits : b.sNextNotificationID + 1 < 2 ^ 32 - 1) (cleared : List UInt32) :
    ServerWatched cleared b
      (b.handleNotifyServerDisconnectNoResponse cfg ctx serverID pulse).2 := by
  have hset := setParty_notifyServerDisconnect ctx serverID pulse hmaster hfits
  exact hset.watched hall (fun _ => hset.prims.serverThere (by simp)) cleared

/-- Every request fires the notifications on the servers that it takes away. -/
theorem serverWatched_dispatch {cfg : Config} {c : Nat} (ctx : SocketConnectionContext)
    (hc : ctx.mId = c) {r : Request} {b : Broker}
    (hall : AllThere .serverDisconnect ServerThere b) (hnodup : ServerIDsNodup b)
    (hmaster : b.isMasterConnected cfg = false)
    (hfits : b.sNextNotificationID + notificationsSet r < 2 ^ 32 - 1) :
    ServerWatched (b.clearedBy (.request c r)) b (b.dispatch cfg ctx r).1 := by
  have hprims := prims_dispatch cfg ctx r b
  cases r with
  | unregisterInterface id => exact serverWatched_handleUnregisterInterface ctx id hall hnodup _
  | clearNotification id => exact hc ▸ serverWatched_handleClearNotification ctx id hall
  | notifyServerDisconnect id pulse =>
      have h := serverWatched_notifyServerDisconnect ctx id pulse hall hmaster hfits []
      simp only [Broker.dispatch, handleNotifyServerDisconnect]
      split <;> exact h
  | attachInterfaceExtended pulse d stackPulse =>
      simp only [Broker.dispatch, handleAttachInterfaceExtended]
      split
      · split
        · next entry _ =>
          have hattach := prims_handleAttachLocalInterface cfg ctx entry b
          have hfirst := serverWatched_of_prims hall hattach (by simp [attachLabels])
            (by simp [attachLabels]) (by simp [attachLabels]) []
          have hmaster' : (b.handleAttachLocalInterface cfg ctx entry).2.isMasterConnected cfg =
              false := hattach.isMasterConnected.trans hmaster
          have hnext := next_of_prims cfg (by simp [attachLabels]) hattach
          have hset := setParty_notifyServerDisconnect ctx entry.partyID stackPulse hmaster'
            (by rw [hnext]; exact hfits)
          have hsecond := hset.watched hfirst.all (fun _ => hset.prims.serverThere (by simp)) []
          have hboth := hfirst.trans hsecond
            (fun id => (hset.prims.serverThere_iff (by simp) (by simp) id).mp)
            hset.prims.sentIDs_prefix
          split
          · exact hfirst
          · split <;> exact hboth
        · -- without a master the client waits for the server to come
          rw [hmaster, Bool.not_false, Bool.or_true, if_pos rfl]
          have h := serverWatched_of_prims hall (prims_notifyServerAvailable cfg ctx pulse d b)
            (by simp [availableLabels]) (by simp [availableLabels]) (by simp [availableLabels]) []
          split <;> exact h
      · exact serverWatched_of_prims hall (prims_quiet cfg (.refl b)) (by simp) (by simp)
          (by simp) _
  | _ =>
      refine serverWatched_of_prims hall hprims ?_ ?_ ?_ _ <;>
      simp [requestLabels, registerLabels, attachLabels, detachLabels, listLabels, availableLabels]

/-! ## Runs -/

/-- The condition on a step: the notification IDs fit, and no server takes an ID
that is in the table. -/
def serverStep (cfg : Config) (b : Broker) (e : Event) : Prop :=
  aloneEvent e = true ∧ idsFit b e = true ∧ serverIDsFresh cfg b e = true

instance (cfg : Config) (b : Broker) (e : Event) : Decidable (serverStep cfg b e) :=
  inferInstanceAs (Decidable (_ ∧ _ ∧ _))

/-- The invariant. -/
structure ServerInv (b : Broker) : Prop where
  phase : b.phase = .disconnected
  nodup : ServerIDsNodup b
  once : KindOnce .serverDisconnect b
  all : AllThere .serverDisconnect ServerThere b
  fits : b.sNextNotificationID < 2 ^ 32 - 1

/-- At the beginning there are no servers. -/
theorem serverInv_init : ServerInv init where
  phase := rfl
  nodup := List.nodup_nil
  once := ⟨by rintro id (h | h) <;> exact absurd h List.not_mem_nil,
    fun _ _ h => absurd h List.not_mem_nil⟩
  all _ hn := absurd hn List.not_mem_nil
  fits := by decide

/-- There is no master. -/
theorem ServerInv.isMasterConnected {b : Broker} (h : ServerInv b) (cfg : Config) :
    b.isMasterConnected cfg = false := by
  simp [Broker.isMasterConnected, h.phase]

/-- Every event with fresh IDs keeps them different. -/
theorem ServerIDsNodup.step {cfg : Config} {b : Broker} {e : Event} (h : ServerIDsNodup b)
    (he : aloneEvent e = true) (hfresh : serverIDsFresh cfg b e = true) :
    ServerIDsNodup (b.step cfg e) := by
  have hprims := prims_step cfg b he
  cases e with
  | request c r =>
      cases request_cases cfg c r b with
      | inl hsame => exact (congrArg ServerIDsNodup hsame).mpr h
      | inr hdispatch =>
          obtain ⟨k, hk, hdeferred, _, hquiet⟩ := hdispatch
          simp only [serverIDsFresh, hk, hdeferred, Bool.false_or] at hfresh
          exact (h.dispatch hfresh).prim (.quiet hquiet : Prim cfg .quiet _ _) (by simp)
  | closed c => exact h.prims hprims (by simp [aloneLabels, closeLabels])
  | connected => exact h.prims hprims (by simp [aloneLabels])
  | pulse => simp [aloneEvent] at he
  | deliver => simp [aloneEvent] at he
  | worker => simp [aloneEvent] at he

/-- Every event fires the notifications on the servers that go. -/
theorem ServerInv.watched {cfg : Config} {b : Broker} {e : Event} (h : ServerInv b)
    (he : serverStep cfg b e) : ServerWatched (b.clearedBy e) b (b.step cfg e) := by
  have hmaster := h.isMasterConnected cfg
  obtain ⟨he, hfits, hfresh⟩ := he
  cases e with
  | request c r =>
      simp only [idsFit, decide_eq_true_eq] at hfits
      cases request_cases cfg c r b with
      | inl hsame =>
          rw [Broker.step, hsame]
          exact serverWatched_of_prims h.all (prims_quiet cfg (.refl b)) (by simp) (by simp)
            (by simp) _
      | inr hdispatch =>
          obtain ⟨k, hk, _, _, hquiet⟩ := hdispatch
          have hwatched : ServerWatched (b.clearedBy (.request c r)) b
              (b.dispatch cfg (k.ctx c) r).1 :=
            serverWatched_dispatch (k.ctx c) rfl h.all h.nodup hmaster hfits
          exact hwatched.then (prims_quiet cfg hquiet)
            (by simp) (by simp) (by simp) (by simp)
  | closed c =>
      simp only [Broker.step, closeConnection, clearedBy]
      split
      · exact serverWatched_of_prims h.all (prims_quiet cfg (.refl b)) (by simp) (by simp)
          (by simp) _
      · split
        · exact serverWatched_of_prims h.all (prims_quiet cfg (.refl b)) (by simp) (by simp)
            (by simp) _
        · exact (serverWatched_clear c h.all h.nodup).then (prims_quiet cfg
            (quiet_setConnection c none _)) (by simp) (by simp) (by simp) (by simp)
  | connected nodeAddress localAddress uid =>
      exact serverWatched_of_prims h.all
        (prims_openConnection cfg nodeAddress localAddress uid b) (by simp) (by simp) (by simp) _
  | pulse => simp [aloneEvent] at he
  | deliver => simp [aloneEvent] at he
  | worker => simp [aloneEvent] at he

/-- So the notifications on servers are watched in every run. -/
theorem watchInv_serverInv (cfg : Config) :
    WatchInv cfg .serverDisconnect ServerThere (serverStep cfg) ServerInv where
  step b e h he := by
    have hprims := prims_step cfg b he.1
    exact
      { phase := hprims.preserves (I := fun b' => b'.phase = .disconnected)
          (fun _ _ _ _ hp hb => hp.phase.trans hb) h.phase
        nodup := h.nodup.step he.1 he.2.2
        once := h.once.prims (by decide) hprims
        all := (h.watched he).all
        fits := next_step he.1 he.2.1 h.fits }
  prims b e _ he := ⟨_, prims_step cfg b he.1⟩
  fits b h := Nat.lt_trans h.fits (by decide)
  once b h := h.once
  watched b e h he := h.watched he

/-- Disconnect notifications on a broker without a master, in every run in which
the notification IDs fit and no server ID is given twice.  No active notification is
on a server that is gone.  A notification that nobody clears waits, or is sent
exactly once with the step in which its server goes.  A notification that is set on
a server that is gone already is sent in that step, and never again. -/
theorem server_gone_of_along (cfg : Config) (es : List Event)
    (h : Run.Along (step cfg) (serverStep cfg) init es) :
    AllThere .serverDisconnect ServerThere (Run.run (step cfg) init es) ∧
      (∀ pre post, es = pre ++ post → ∀ n ∈ (Run.run (step cfg) init pre).notifications
          .serverDisconnect, n.active = true →
        Run.Along (step cfg) (fun b e => n.notificationID ∉ clearedBy b e)
          (Run.run (step cfg) init pre) post →
        SentOnceAlong .serverDisconnect ServerThere cfg (Run.run (step cfg) init pre) post
          n.notificationID n.partyID) ∧
      ∀ pre c serverID pulse post id,
        es = pre ++ .request c (.notifyServerDisconnect serverID pulse) :: post →
        let b := Run.run (step cfg) init pre
        let b' := b.step cfg (.request c (.notifyServerDisconnect serverID pulse))
        Answers cfg b c (.notifyServerDisconnect serverID pulse) id →
        (ServerThere b serverID → Waits .serverDisconnect ServerThere b' id serverID) ∧
          (¬ ServerThere b serverID → b.sentIDs.count id = 0 ∧ b'.sentIDs.count id = 1 ∧
            (Run.run (step cfg) init es).sentIDs.count id = 1) := by
  have hinv := watchInv_serverInv cfg
  have hrun (pre post : List Event) (hes : es = pre ++ post) :
      ServerInv (Run.run (step cfg) init pre) ∧
        Run.Along (step cfg) (serverStep cfg) (Run.run (step cfg) init pre) post := by
    rw [hes, Run.along_append] at h
    exact ⟨Run.invariant hinv.step serverInv_init h.1, h.2⟩
  refine ⟨(hrun es [] (by simp)).1.all, ?_, ?_⟩
  · intro pre post hes n hn hactive hclear
    obtain ⟨hb, hpost⟩ := hrun pre post hes
    exact hinv.sentOnceAlong hb hpost hn hactive (hb.all n hn hactive) hclear
  · intro pre c serverID pulse post id hes b b' hanswers
    obtain ⟨hb, hpost⟩ := hrun pre _ hes
    obtain ⟨k, hk, hdeferred, hresponse⟩ := hanswers
    have hfits : b.sNextNotificationID + 1 < 2 ^ 32 - 1 := of_decide_eq_true hpost.1.2.1
    have hset := setParty_notifyServerDisconnect (k.ctx c) serverID pulse
      (hb.isMasterConnected cfg) hfits
    have hquiet := quiet_request cfg (.notifyServerDisconnect serverID pulse) hk hdeferred rfl
    simp only [Broker.dispatch, handleNotifyServerDisconnect] at hresponse hquiet
    generalize b.handleNotifyServerDisconnectNoResponse cfg (k.ctx c) serverID pulse = r at *
    split at hresponse
    · next id' hid =>
      obtain rfl : id' = id := by simpa [respond] using hresponse
      rw [hid] at hset hquiet
      have hthere₁ (x : SPartyID) : ServerThere b x → ServerThere r.2 x :=
        hset.prims.serverThere (by simp)
      have hthere (x : SPartyID) (hx : ServerThere b x) : ServerThere b' x :=
        (prims_quiet cfg hquiet).serverThere (by simp) (hthere₁ x hx)
      have hset' := hinv.set (by decide) hb hpost hset hquiet hthere hthere₁
      rw [hes, Run.run_append]
      exact hset'
    · simp [fail, Response.status] at hresponse

/-- One server is unregistered, the other goes with its connection, and the first is
asked for once more. -/
theorem server_gone_unregistered_and_closed :
    let es : List Event := [.connected 0 0 0, .connected 0 0 0,
      .request 1 (.registerInterface ⟨[65], 1, 0⟩ 0 1),
      .request 1 (.registerInterface ⟨[66], 1, 0⟩ 0 1),
      .request 2 (.notifyServerDisconnect ⟨500001, 1000⟩ ⟨7, 0, 0, 0⟩),
      .request 2 (.notifyServerDisconnect ⟨500002, 1000⟩ ⟨7, 0, 0, 0⟩),
      .request 1 (.unregisterInterface ⟨500001, 1000⟩), .closed 1,
      .request 2 (.notifyServerDisconnect ⟨500001, 1000⟩ ⟨7, 0, 0, 0⟩)]
    let b := Run.run (step aloneConfig) init es
    b.sentIDs = [1, 2, 3] ∧ AllThere .serverDisconnect ServerThere b :=
  ⟨by decide, (server_gone_of_along _ _ (by decide)).1⟩

/-! ## When an ID is given twice -/

/-- A slave outside tree mode and a slave in tree mode with the ID 1001 register a
server each, and a client asks for the one server ID that both of them got. -/
def twoServersOneID : List Event :=
  [.connected 0 0 0, .connected 0 0 0, .connected 0 0 0,
    .request 1 (.registerMasterInterfaceEx 1 [⟨1, 0, 0, ⟨500001, 0⟩, ⟨[65], 1, 0⟩⟩]),
    .request 2 (.registerMasterInterfaceEx 1 [⟨1, 0, 0, ⟨500001, 1001⟩, ⟨[66], 1, 0⟩⟩]),
    .request 3 (.notifyServerDisconnect ⟨500001, 1001⟩ ⟨7, 0, 0, 0⟩)]

/-- The connection ID of a slave outside tree mode gives it the extended ID that
another slave has, and neither the table nor `handleRegisterMasterInterface` looks
for the ID.  When one of the two servers is unregistered, the notification is sent
although a server with the ID is still there. -/
theorem sent_while_there_same_id :
    let b := Run.run (step aloneConfig) init twoServersOneID
    let e := Event.request 1 (.unregisterInterface ⟨500001, 1001⟩)
    (∀ e' ∈ twoServersOneID ++ [e], aloneEvent e' = true) ∧
      Waits .serverDisconnect ServerThere b 1 ⟨500001, 1001⟩ ∧
      Run.Along (step aloneConfig) (fun b e => 1 ∉ clearedBy b e) b [e] ∧
      ServerThere (b.step aloneConfig e) ⟨500001, 1001⟩ ∧
      ¬ SentOnceAlong .serverDisconnect ServerThere aloneConfig b [e] 1 ⟨500001, 1001⟩ := by
  intro b e
  have hthere : ServerThere (b.step aloneConfig e) ⟨500001, 1001⟩ := by
    unfold ServerThere
    decide
  refine ⟨by decide, ⟨?_, by decide, by decide⟩, by decide, hthere, ?_⟩
  · unfold ServerThere
    decide
  · rintro (hwaits | ⟨pre, e', post, hes, _, hgone, _⟩)
    · have hsent : (b.step aloneConfig e).sentIDs.count 1 = 1 := by decide
      exact absurd (hsent.symm.trans hwaits.unsent) (by decide)
    · cases pre with
      | nil =>
          obtain ⟨rfl, rfl⟩ := List.cons.inj hes
          exact hgone hthere
      | cons x xs => simp at hes

end Broker

end Dsi
