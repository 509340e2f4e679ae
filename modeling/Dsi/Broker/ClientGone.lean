import Dsi.Broker.ServerGone

/-!
# Dsi.Broker.ClientGone

Detach notifications on a broker without a master.  A client leaves the client
table when it detaches, when its connection is closed, and when its server goes
(`ClientList::removeServer`).  The first two send the notifications on the client;
the third does not, so it may only meet clients that nobody watches.
-/

namespace Dsi

open Sequence

namespace Broker

/-! ## The client table -/

/-- The client with this ID is attached. -/
def ClientThere (b : Broker) (id : SPartyID) : Prop :=
  ∃ e ∈ b.mAttachedClients, e.mClientId = id

/-- `ClientThere` as a test. -/
def hasClient (b : Broker) (id : SPartyID) : Bool :=
  b.mAttachedClients.any (fun e => e.mClientId = id)

/-- The test for a client. -/
@[simp] theorem hasClient_iff {b : Broker} {id : SPartyID} :
    b.hasClient id = true ↔ ClientThere b id := by
  simp [hasClient, ClientThere]

/-- No two clients have the same ID. -/
def ClientIDsNodup (b : Broker) : Prop :=
  (b.mAttachedClients.map (·.mClientId)).Nodup

/-- Only the updates of the client table change it. -/
theorem Prim.clients_eq {cfg : Config} {l : Label} {b b' : Broker} (hp : Prim cfg l b b')
    (hl : l ≠ .clients) : b'.mAttachedClients = b.mAttachedClients := by
  cases hp with
  | quiet hq => exact hq.clients
  | addEntry _ c e next =>
      simp only [Broker.addEntry, triggerDescription, triggerAllDescription, clients_sweep]
      rfl
  | removeServer => rfl
  | registerMaster => exact (registerInterfacesMaster_frame cfg b).2.2.2.2.2.1
  | setMasterID => rfl
  | clients => exact absurd rfl hl
  | create _ k ctx pulse _ =>
      obtain ⟨a, p, coid, hadd | hadd⟩ := addNotification_cases cfg k ctx pulse _ b
      · rw [hadd]; cases k <;> rfl
      · rw [hadd]; rfl
  | skip => rfl
  | sweep _ once _ => exact clients_sweep cfg once _ _ b
  | addPool => rfl
  | attach _ _ k => cases k <;> rfl
  | modifyPool => rfl
  | storeMaster _ k => cases k <;> rfl
  | forward =>
      obtain ⟨l, pools, next, js, hb, _⟩ := forward_cases cfg b
      rw [hb]

/-- Updates without clients keep the clients. -/
theorem Prims.clients_eq {cfg : Config} {L : List Label} {b b' : Broker} (hp : Prims cfg L b b')
    (hL : .clients ∉ L) : b'.mAttachedClients = b.mAttachedClients :=
  hp.preserves (I := fun b' => b'.mAttachedClients = b.mAttachedClients)
    (fun _ hl _ _ hprim hb => (hprim.clients_eq (fun he => hL (he ▸ hl))).trans hb) rfl

/-- The attached clients are all that counts. -/
theorem clientThere_congr {b b' : Broker} (h : b'.mAttachedClients = b.mAttachedClients)
    (id : SPartyID) : ClientThere b' id ↔ ClientThere b id := by
  rw [ClientThere, ClientThere, h]

/-- Fewer clients still differ. -/
theorem ClientIDsNodup.sublist {b b' : Broker} (h : ClientIDsNodup b)
    (hs : b'.mAttachedClients.Sublist b.mAttachedClients) : ClientIDsNodup b' :=
  List.Nodup.sublist (hs.map _) h

/-- `ClientList::remove` with distinct IDs. -/
theorem remove_eq_filter {b : Broker} (h : ClientIDsNodup b) (id : SPartyID) :
    b.mAttachedClients.remove id = b.mAttachedClients.filter (fun e => e.mClientId ≠ id) :=
  eraseP_eq_filter h id

/-! ### Closing a connection -/

/-- A server that goes takes its clients along. -/
theorem clients_clearServer (cfg : Config) (b : Broker) (id : SPartyID) :
    (b.clearServer cfg id).mAttachedClients =
      if (b.mConnectedServers.findID id).isSome then b.mAttachedClients.removeServer id
      else b.mAttachedClients := by
  unfold Broker.clearServer
  cases b.mConnectedServers.findID id with
  | none => rfl
  | some entry =>
      have hquiet := (prims_unregisterInterfaceMaster cfg entry.masterID b).clients_eq (by simp)
      simp [dropServer, hquiet]

/-- No server comes when one goes. -/
theorem serverThere_of_clearServer {cfg : Config} {b : Broker} {id x : SPartyID}
    (h : ServerThere (b.clearServer cfg id) x) : ServerThere b x := by
  unfold Broker.clearServer at h
  split at h
  · exact h
  · next entry _ =>
    obtain ⟨e, he, hid⟩ := h
    have hmem := (ServerList.remove_sublist id _).subset he
    exact ((prims_unregisterInterfaceMaster cfg entry.masterID b).serverThere_iff (by simp)
      (by simp) x).mp ⟨e, hmem, hid⟩

/-- The servers of a connection take their clients along. -/
theorem clients_foldl_clearServer_sublist (cfg : Config) (l : List SPartyID) (b : Broker) :
    (l.foldl (Broker.clearServer cfg) b).mAttachedClients.Sublist b.mAttachedClients := by
  induction l generalizing b with
  | nil => exact List.Sublist.refl _
  | cons x xs ih =>
      refine (ih _).trans ?_
      rw [clients_clearServer]
      split
      · exact List.filter_sublist
      · exact List.Sublist.refl _

/-- The clients of other servers stay. -/
theorem mem_foldl_clearServer (cfg : Config) {l : List SPartyID} {b : Broker}
    {e : ClientListEntry} (he : e ∈ b.mAttachedClients)
    (hl : ∀ id ∈ l, e.mServerId = id → ¬ ServerThere b id) :
    e ∈ (l.foldl (Broker.clearServer cfg) b).mAttachedClients := by
  induction l generalizing b with
  | nil => exact he
  | cons x xs ih =>
      refine ih ?_ ?_
      · rw [clients_clearServer]
        split
        · next hfound =>
          refine List.mem_filter.mpr ⟨he, ?_⟩
          have hne : e.mServerId ≠ x := fun hx =>
            hl x List.mem_cons_self hx (serverThere_iff_findID.mpr hfound)
          simpa using hne
        · exact he
      · intro id hid heid hthere
        exact hl id (List.mem_cons_of_mem _ hid) heid (serverThere_of_clearServer hthere)

/-- A client of a connection goes. -/
theorem clients_clearClient (cfg : Config) (b : Broker) (id : SPartyID) :
    (b.clearClient cfg id).mAttachedClients = b.mAttachedClients.remove id := by
  unfold Broker.clearClient
  exact (quiet_evalMaster cfg rfl _).clients

/-- The clients of a connection go, and no others. -/
theorem clients_foldl_clearClient (cfg : Config) (l : List SPartyID) {b : Broker}
    (h : ClientIDsNodup b) : (l.foldl (Broker.clearClient cfg) b).mAttachedClients =
      b.mAttachedClients.filter (fun e => e.mClientId ∉ l) := by
  induction l generalizing b with
  | nil => simp
  | cons x xs ih =>
      have hx := clients_clearClient cfg b x
      rw [remove_eq_filter h] at hx
      have hnodup : ClientIDsNodup (b.clearClient cfg x) :=
        h.sublist (hx ▸ List.filter_sublist)
      rw [List.foldl_cons, ih hnodup, hx, List.filter_filter]
      congr 1
      funext e
      simp [Bool.and_comm]

/-! ## Conditions -/

/-- Somebody watches the client. -/
def detachWatched (b : Broker) (id : SPartyID) : Bool :=
  b.mClientDetachNotifications.any (fun n => n.active && decide (n.partyID = id))

/-- Nobody watches a client of these servers, the clients `own` apart. -/
def clientsUnwatched (servers own : SPartyID → Bool) (b : Broker) : Bool :=
  b.mAttachedClients.all (fun e =>
    !servers e.mServerId || own e.mClientId || !b.detachWatched e.mClientId)

/-- The access check of `handleAttachLocalInterface`. -/
def mayAttach (cfg : Config) (ctx : SocketConnectionContext) (e : ServerListEntry) : Bool :=
  decide (e.grpid = SB_UNKNOWN_GROUP_ID) || (ctx.isLocal && checkAccessPrivileges cfg ctx e)

/-- An attach to a server that is here is refused or gives the client an ID that is
not in the table. -/
def freshClient (cfg : Config) (ctx : SocketConnectionContext) (d : InterfaceDescription)
    (b : Broker) : Bool :=
  !check d ||
    match b.mConnectedServers.findDescription d with
    | some e => !mayAttach cfg ctx e || !b.hasClient (b.nextClientIDFor cfg e.partyID)
    | none => true

/-- The condition on a request. -/
def clientRequest (cfg : Config) (ctx : SocketConnectionContext) (b : Broker) : Request → Bool
  | .unregisterInterface id =>
      !(b.dataOf ctx.mId).mServerList.contains id ||
        (b.mConnectedServers.findID id).isNone ||
        b.clientsUnwatched (· = id) (fun _ => false)
  | .attachInterface d => b.freshClient cfg ctx d
  | .attachInterfaceExtended _ d _ => b.freshClient cfg ctx d
  | .notifyClientDetach id _ => !b.mAttachedClients.finds id || b.hasClient id
  | _ => true

/-- The condition on an event of a connection that is read from, or that ends. -/
def clientEvent (cfg : Config) (b : Broker) : Event → Bool
  | .request c r =>
      match b.conns c with
      | some k => k.deferred || b.clientRequest cfg (k.ctx c) r
      | none => true
  | .closed c =>
      match b.conns c with
      | some k => k.held || b.clientsUnwatched
          (fun s => k.data.mServerList.contains s && (b.mConnectedServers.findID s).isSome)
          k.data.mClientList.contains
      | none => true
  | _ => true

/-- Nobody watches a client that goes with its server. -/
theorem not_watched_of_clientsUnwatched {servers own : SPartyID → Bool} {b : Broker}
    (h : b.clientsUnwatched servers own = true) {e : ClientListEntry}
    (he : e ∈ b.mAttachedClients) (hs : servers e.mServerId = true)
    (ho : own e.mClientId = false) {n : Notification} (hn : n ∈ b.mClientDetachNotifications)
    (hactive : n.active = true) : n.partyID ≠ e.mClientId := by
  intro hparty
  have hclient := List.all_eq_true.mp h e he
  have hwatched : b.detachWatched e.mClientId = true :=
    List.any_eq_true.mpr ⟨n, hn, by simp [hactive, hparty]⟩
  simp [hs, ho, hwatched] at hclient

/-! ## Handlers -/

/-- The detach notifications, watched. -/
abbrev ClientWatched (cleared : List UInt32) (b b' : Broker) : Prop :=
  Watched .clientDetach ClientThere cleared b b'

/-- Updates of other tables. -/
theorem clientWatched_of_prims {cfg : Config} {L : List Label} {b b' : Broker}
    (hall : AllThere .clientDetach ClientThere b) (hp : Prims cfg L b b')
    (hsweep : .sweep .clientDetach ∉ L) (hcreate : .create .clientDetach ∉ L)
    (hclients : .clients ∉ L) (cleared : List UInt32) : ClientWatched cleared b b' :=
  watched_of_prims hp hsweep hcreate (Or.inr rfl)
    (fun n hn hactive =>
      (clientThere_congr (hp.clients_eq hclients) _).mpr (hall n hn hactive)) cleared

/-- Further updates of other tables. -/
theorem ClientWatched.then {cfg : Config} {L : List Label} {cleared : List UInt32}
    {b b' b'' : Broker} (h : ClientWatched cleared b b') (hp : Prims cfg L b' b'')
    (hsweep : .sweep .clientDetach ∉ L) (hcreate : .create .clientDetach ∉ L)
    (hclients : .clients ∉ L) : ClientWatched cleared b b'' :=
  h.trans (clientWatched_of_prims h.all hp hsweep hcreate hclients cleared)
    (fun id => (clientThere_congr (hp.clients_eq hclients) id).mp) hp.sentIDs_prefix

/-- A client that is there is found. -/
theorem finds_of_clientThere {b : Broker} {id : SPartyID} (h : ClientThere b id) :
    b.mAttachedClients.finds id = true := by
  obtain ⟨e, he, rfl⟩ := h
  exact List.any_eq_true.mpr ⟨e, he, by simp [SPartyID.opEq]⟩

/-- A notification for a client is set, or fires at once. -/
theorem setParty_notifyClientDetach {cfg : Config} (ctx : SocketConnectionContext)
    (clientID : SPartyID) (pulse : SFNDPulseInfo) {b : Broker}
    (hmaster : b.isMasterConnected cfg = false)
    (hfits : b.sNextNotificationID + 1 < 2 ^ 32 - 1)
    (hfinds : b.mAttachedClients.finds clientID = true → ClientThere b clientID) :
    ∃ id, SetParty .clientDetach ClientThere cfg clientID b id
        (b.handleNotifyClientDetach cfg ctx clientID pulse).1 ∧
      ∀ id', (b.handleNotifyClientDetach cfg ctx clientID pulse).2 =
        some ⟨0, .notificationID id'⟩ → id = some id' := by
  have hadd : Prims cfg [.quiet, .create .clientDetach] b
      (b.addParty cfg .clientDetach clientID ctx pulse).2 :=
    .single (by simp) (prim_addParty cfg _ clientID ctx pulse b)
  have hdata := hadd.quiet (by simp) (quiet_modifyData ctx.mId
    (·.addNotification (b.addParty cfg .clientDetach clientID ctx pulse).1) _)
  have hmaster' : ((b.addParty cfg .clientDetach clientID ctx pulse).2.modifyData ctx.mId
      (·.addNotification (b.addParty cfg .clientDetach clientID ctx pulse).1)
        ).isMasterConnected cfg = false := hdata.isMasterConnected.trans hmaster
  have hclients := hdata.clients_eq (by simp)
  unfold handleNotifyClientDetach
  dsimp only
  cases addParty_cases cfg .clientDetach clientID ctx pulse hfits with
  | inl hfail =>
      rw [if_pos hfail.1]
      exact ⟨none, .failed hadd hfail.2, fun id' h => by simp [fail, Response.status] at h⟩
  | inr hok =>
      obtain ⟨new, hactive, hparty, hid, hvalid, hnotes⟩ := hok
      rw [if_neg (hid ▸ hvalid), hmaster', Bool.false_and, if_neg Bool.false_ne_true, hclients, hid]
      rw [hid] at hdata
      refine ⟨some new.notificationID, ?_, fun id' h => by simpa [respond] using h⟩
      split
      · next hfound => exact .waits hdata hnotes hactive hparty (hfinds hfound)
      · next hmissing =>
        exact .sent hdata hnotes hactive hparty (fun h => hmissing (finds_of_clientThere h))

/-- What unregistering a server does to the client table. -/
theorem clients_handleUnregisterInterface (cfg : Config) (ctx : SocketConnectionContext)
    (serverID : SPartyID) (b : Broker) :
    (b.handleUnregisterInterface cfg ctx serverID).1.mAttachedClients =
      if (b.dataOf ctx.mId).mServerList.contains serverID &&
          (b.mConnectedServers.findID serverID).isSome then
        b.mAttachedClients.removeServer serverID
      else b.mAttachedClients := by
  unfold handleUnregisterInterface
  have hdata : (b.modifyData ctx.mId (·.removeServer serverID)).mConnectedServers =
    b.mConnectedServers := rfl
  cases (b.dataOf ctx.mId).mServerList.contains serverID with
  | false => simp [fail]
  | true =>
      simp only [if_true, hdata, Bool.true_and]
      cases b.mConnectedServers.findID serverID with
      | none => rfl
      | some entry =>
          simp only [respond, triggerAll, clients_sweep, dropServer, Option.isSome_some, if_true]
          rw [(prims_unregisterInterfaceMaster cfg entry.masterID _).clients_eq (by simp), trigger,
            clients_sweep]
          rfl

/-- `ClientList::removeServer` sends nothing, so no client that goes may be watched. -/
theorem clientWatched_handleUnregisterInterface {cfg : Config} (ctx : SocketConnectionContext)
    (serverID : SPartyID) {b : Broker} (hall : AllThere .clientDetach ClientThere b)
    (hok : b.clientRequest cfg ctx (.unregisterInterface serverID) = true)
    (cleared : List UInt32) :
    ClientWatched cleared b (b.handleUnregisterInterface cfg ctx serverID).1 := by
  have hprims := prims_handleUnregisterInterface cfg ctx serverID b
  refine watched_of_prims hprims (by simp [unregisterLabels]) (by simp [unregisterLabels])
    (Or.inr rfl) (fun n hn hactive => ?_) cleared
  obtain ⟨e, he, hid⟩ := hall n hn hactive
  refine ⟨e, ?_, hid⟩
  rw [clients_handleUnregisterInterface]
  split
  · next hgoes =>
    rw [Bool.and_eq_true] at hgoes
    have hfound : (b.mConnectedServers.findID serverID).isNone = false := by
      simpa using hgoes.2
    simp only [clientRequest, hgoes.1, hfound, Bool.not_true, Bool.false_or] at hok
    have hne : e.mServerId ≠ serverID := fun hs =>
      not_watched_of_clientsUnwatched hok he (by simpa using hs) rfl hn hactive hid.symm
    exact List.mem_filter.mpr ⟨he, by simpa using hne⟩
  · exact he

/-- What a detach does to the client table. -/
theorem clients_handleDetachInterface (cfg : Config) (ctx : SocketConnectionContext)
    (clientID : SPartyID) (b : Broker) :
    (b.handleDetachInterface cfg ctx clientID).1.mAttachedClients =
      if (b.dataOf ctx.mId).mClientList.contains clientID && b.mAttachedClients.finds clientID then
        b.mAttachedClients.remove clientID
      else b.mAttachedClients := by
  unfold handleDetachInterface
  split
  · simp only [respond, trigger, clients_sweep]
    rfl
  · split <;> rfl

/-- A client that is detached fires the notifications on it. -/
theorem clientWatched_handleDetachInterface {cfg : Config} (ctx : SocketConnectionContext)
    (clientID : SPartyID) {b : Broker} (hall : AllThere .clientDetach ClientThere b)
    (hnodup : ClientIDsNodup b) (hmaster : b.isMasterConnected cfg = false)
    (cleared : List UInt32) :
    ClientWatched cleared b (b.handleDetachInterface cfg ctx clientID).1 := by
  unfold handleDetachInterface
  split
  · -- the notifications are sent before the client leaves the table
    have h1 : Prims cfg [.clients, .quiet] (b.trigger cfg .clientDetach clientID)
        { b.trigger cfg .clientDetach clientID with
          mAttachedClients :=
            (b.trigger cfg .clientDetach clientID).mAttachedClients.remove clientID } :=
      .single (by simp) (.clients _ _ _)
    have h2 := h1.quiet (by simp) (quiet_modifyData ctx.mId (·.removeClient clientID) _)
    refine watched_fire cfg (p := (· = clientID)) (persists_of_eq rfl) (inherits_of_eq rfl)
      (h2.persists (by simp) (Or.inr rfl)) (h2.inherits (by simp)) h2.sentIDs_prefix ?_ cleared
    intro n hn hactive
    obtain ⟨e, he, hid⟩ := hall n hn hactive
    have hclients : (b.trigger cfg .clientDetach clientID).mAttachedClients.remove clientID =
        b.mAttachedClients.filter (fun e => e.mClientId ≠ clientID) := by
      rw [trigger, clients_sweep, remove_eq_filter hnodup]
    simp only [ClientThere, modifyData, setConnection, hclients, List.mem_filter]
    constructor
    · rintro ⟨e', ⟨_, hne⟩, hid'⟩
      simpa [hid'] using hne
    · intro hne
      exact ⟨e, ⟨he, by simpa [hid] using hne⟩, hid⟩
  · rw [hmaster, if_neg Bool.false_ne_true]
    exact clientWatched_of_prims hall (prims_quiet cfg (.refl b)) (by simp) (by simp) (by simp) _

/-- A notification that is cleared goes without a pulse. -/
theorem clientWatched_handleClearNotification {cfg : Config} (ctx : SocketConnectionContext)
    (id : UInt32) {b : Broker} (hall : AllThere .clientDetach ClientThere b) :
    ClientWatched ((b.notificationList ctx.mId).filter (· = id)) b
      (b.handleClearNotification cfg ctx id).1 := by
  unfold handleClearNotification
  split
  · next hown =>
    have hwatched := clientWatched_of_prims hall
      (prims_quiet cfg (quiet_modifyData ctx.mId (·.removeNotification id) b)) (by simp) (by simp)
      (by simp) ((b.notificationList ctx.mId).filter (· = id))
    dsimp only
    generalize b.modifyData ctx.mId (·.removeNotification id) = b₁ at *
    have hthere (x : SPartyID) : ClientThere (b₁.removeNotification cfg .clientDetach id) x ↔
        ClientThere b₁ x :=
      clientThere_congr (clients_sweep cfg true .clientDetach _ b₁) x
    have hdrop : ClientWatched ((b.notificationList ctx.mId).filter (· = id)) b₁
        (b₁.removeNotification cfg .clientDetach id) := by
      refine watched_sweep hwatched.all (fun n hclear b' _ => ?_) (fun x => (hthere x).mpr)
      rw [if_neg]
      intro he
      refine hclear (List.mem_filter.mpr ⟨?_, by simpa using he⟩)
      rw [notificationList_eq, he]
      exact hown
    have hboth := hwatched.trans hdrop (fun x => (hthere x).mp)
      (sentIDs_prefix_sweep cfg true .clientDetach _ b₁)
    have h3 : Prims cfg [.sweep .serverDisconnect, .sweep .serverConnect, .sweep .serverListChange]
        (b₁.removeNotification cfg .clientDetach id) _ :=
      .single (by simp) (prim_removeNotification cfg .serverDisconnect id _)
    have h4 := h3.tail (by simp) (prim_removeNotification cfg .serverConnect id _)
    exact ClientWatched.then hboth (h4.tail (by simp)
      (prim_removeNotification cfg .serverListChange id _)) (by simp) (by simp) (by simp)
  · exact clientWatched_of_prims hall (prims_quiet cfg (.refl b)) (by simp) (by simp) (by simp) _

/-- The clients that are left when the servers and the clients of a connection are
cleared. -/
theorem clientThere_cleared (cfg : Config) {servers clients : PartyIDList} {b : Broker}
    (hnodup : ClientIDsNodup b)
    (hok : b.clientsUnwatched (fun s => servers.contains s && (b.mConnectedServers.findID s).isSome)
      clients.contains = true) {n : Notification} (hn : n ∈ b.notifications .clientDetach)
    (hactive : n.active = true) (hthere : ClientThere b n.partyID) :
    ClientThere (clients.elems.foldl (Broker.clearClient cfg)
        (servers.elems.foldl (Broker.clearServer cfg) b)) n.partyID ↔
      clients.contains n.partyID = false := by
  have hsub := clients_foldl_clearServer_sublist cfg servers.elems b
  rw [ClientThere, clients_foldl_clearClient cfg _ (hnodup.sublist hsub)]
  simp only [List.mem_filter]
  constructor
  · rintro ⟨e, ⟨_, hnot⟩, hid⟩
    rw [hid] at hnot
    simpa [OrderedSet.contains] using hnot
  · intro hnot
    obtain ⟨e, he, hid⟩ := hthere
    refine ⟨e, ⟨mem_foldl_clearServer cfg he (fun s hs hes hfound => ?_), ?_⟩, hid⟩
    · -- a client of a server that goes is not watched
      have hserver : (servers.contains e.mServerId &&
          (b.mConnectedServers.findID e.mServerId).isSome) = true := by
        rw [hes, Bool.and_eq_true]
        exact ⟨by simpa using hs, serverThere_iff_findID.mp hfound⟩
      exact not_watched_of_clientsUnwatched hok he hserver (by rw [hid]; exact hnot) hn hactive
        hid.symm
    · rw [hid]
      simpa [OrderedSet.contains] using hnot

/-- The clients of a connection that closes fire the notifications on them. -/
theorem clientWatched_clear {cfg : Config} (c : Nat) {b : Broker}
    (hall : AllThere .clientDetach ClientThere b) (hnodup : ClientIDsNodup b)
    (hok : b.clientsUnwatched (fun s => (b.dataOf c).mServerList.contains s &&
      (b.mConnectedServers.findID s).isSome) (b.dataOf c).mClientList.contains = true) :
    ClientWatched (b.notificationList c) b (b.clear cfg c) := by
  have h1 := (prims_foldl cfg (prims_clearServer cfg) (b.dataOf c).mServerList.elems b)
  have h2 := (prims_foldl cfg (prims_clearClient cfg) (b.dataOf c).mClientList.elems
    ((b.dataOf c).mServerList.elems.foldl (Broker.clearServer cfg) b))
  have hthere := fun n hn hactive => clientThere_cleared cfg hnodup hok
    (n := n) hn hactive (hall n hn hactive)
  have hlists : ((b.dataOf c).mClientList.elems.foldl (Broker.clearClient cfg)
      ((b.dataOf c).mServerList.elems.foldl (Broker.clearServer cfg) b)).notificationList c =
        b.notificationList c := by
    rw [notificationList_foldl (notificationList_clearClient cfg c),
      notificationList_foldl (notificationList_clearServer cfg c)]
  unfold Broker.clear
  dsimp only
  generalize (b.dataOf c).mServerList.elems.foldl (Broker.clearServer cfg) b = b₁ at *
  generalize (b.dataOf c).mClientList.elems.foldl (Broker.clearClient cfg) b₁ = b₂ at *
  generalize hb₃ : b₂.triggerList cfg .serverDisconnect (b.dataOf c).mServerList = b₃
  have h3 : Prims cfg [.sweep .serverDisconnect] b₂ b₃ :=
    hb₃ ▸ .single (by simp) (prim_fireIf cfg .serverDisconnect _ b₂)
  have h13 : Prims cfg [.quiet, .removeServer, .clients, .sweep .serverDisconnect] b b₃ :=
    ((h1.mono (by simp)).trans (h2.mono (by simp))).trans (h3.mono (by simp))
  have hlists₃ : b₃.notificationList c ⊆ b.notificationList c := by
    rw [← hb₃, ← hlists]
    exact lists_sweep cfg false .serverDisconnect _ b₂ c
  -- the notifications on the clients of the connection
  generalize hb₄ : b₃.triggerList cfg .clientDetach (b.dataOf c).mClientList = b₄
  have hlists₄ : b₄.notificationList c ⊆ b.notificationList c := by
    rw [← hb₄]
    exact List.Subset.trans (lists_sweep cfg false .clientDetach _ b₃ c) hlists₃
  have hfire : ClientWatched (b.notificationList c) b b₄ := by
    refine watched_fire cfg (p := (b.dataOf c).mClientList.contains)
      (h13.persists (by simp) (Or.inr rfl)) (h13.inherits (by simp)) (persists_of_eq ?_)
      (inherits_of_eq ?_) ?_ ?_ _
    · rw [← hb₄]; rfl
    · rw [← hb₄]; rfl
    · rw [← hb₄]; exact List.prefix_rfl
    · intro n hn hactive
      have h4 : b₄.mAttachedClients = b₂.mAttachedClients := by
        rw [← hb₄, triggerList, clients_sweep, ← hb₃, triggerList, clients_sweep]
      exact (clientThere_congr h4 _).trans (hthere n hn hactive)
  have hwatched₅ := ClientWatched.then hfire (.single (L := [.sweep .serverDisconnect]) (by simp)
    (prim_removeNotificationsOf cfg .serverDisconnect c b₄)) (by simp) (by simp) (by simp)
  have hlists₅ := List.Subset.trans (lists_sweep cfg false .serverDisconnect (fun b n =>
    if n.notificationID ∈ ((b.data? c).map (·.mNotificationList)).getD [] then .drop else .keep)
      b₄ c) hlists₄
  generalize hb₅ : b₄.removeNotificationsOf cfg .serverDisconnect c = b₅ at *
  -- the notifications of the connection itself
  have hthere₆ (x : SPartyID) : ClientThere (b₅.removeNotificationsOf cfg .clientDetach c) x ↔
      ClientThere b₅ x :=
    clientThere_congr (clients_sweep cfg false .clientDetach _ b₅) x
  have hdrop : ClientWatched (b.notificationList c) b₅
      (b₅.removeNotificationsOf cfg .clientDetach c) := by
    refine watched_sweep hwatched₅.all (fun n hclear b' hframe => ?_) (fun x => (hthere₆ x).mpr)
    have hmem := hframe.lists c
    rw [← hb₅] at hmem
    exact if_neg (fun h => hclear (hlists₅ (hmem h)))
  have hboth := hwatched₅.trans hdrop (fun x => (hthere₆ x).mp)
    (sentIDs_prefix_sweep cfg false .clientDetach _ b₅)
  have h7 : Prims cfg [.sweep .serverConnect, .sweep .serverListChange]
      (b₅.removeNotificationsOf cfg .clientDetach c) _ :=
    .single (by simp) (prim_removeNotificationsOf cfg .serverConnect c _)
  have h8 := h7.tail (by simp) (prim_removeNotificationsOf cfg .serverListChange c _)
  split
  · exact ClientWatched.then hboth (h8.tail (by simp) (prim_listChange cfg false _ _)) (by simp)
      (by simp) (by simp)
  · exact ClientWatched.then hboth h8 (by simp) (by simp) (by simp)

/-- What an attach to a server that is here does to the client table. -/
theorem clients_handleAttachLocalInterface (cfg : Config) (ctx : SocketConnectionContext)
    (e : ServerListEntry) (b : Broker) :
    (b.handleAttachLocalInterface cfg ctx e).2.mAttachedClients =
      if mayAttach cfg ctx e then
        b.mAttachedClients ++ [⟨b.nextClientIDFor cfg e.partyID, e.partyID, ctx.mId⟩]
      else b.mAttachedClients := by
  have hclient : (b.addClient cfg ctx.mId e.partyID).2.mAttachedClients =
      b.mAttachedClients ++ [⟨b.nextClientIDFor cfg e.partyID, e.partyID, ctx.mId⟩] := by
    unfold addClient
    dsimp only
    split <;> rfl
  unfold handleAttachLocalInterface mayAttach
  simp only [Bool.or_eq_true, decide_eq_true_eq, Bool.and_eq_true]
  split
  · exact hclient
  · rfl

/-- A client that comes fires nothing. -/
theorem clientWatched_handleAttachLocalInterface (cfg : Config) (ctx : SocketConnectionContext)
    (e : ServerListEntry) {b : Broker} (hall : AllThere .clientDetach ClientThere b)
    (cleared : List UInt32) :
    ClientWatched cleared b (b.handleAttachLocalInterface cfg ctx e).2 := by
  refine watched_of_prims (prims_handleAttachLocalInterface cfg ctx e b) (by simp [attachLabels])
    (by simp [attachLabels]) (Or.inr rfl) (fun n hn hactive => ?_) cleared
  obtain ⟨e', he', hid⟩ := hall n hn hactive
  refine ⟨e', ?_, hid⟩
  rw [clients_handleAttachLocalInterface]
  split
  · exact List.mem_append_left _ he'
  · exact he'

/-- A client that attaches gets a new ID. -/
theorem ClientIDsNodup.handleAttachLocalInterface {cfg : Config} {ctx : SocketConnectionContext}
    {d : InterfaceDescription} {e : ServerListEntry} {b : Broker} (h : ClientIDsNodup b)
    (hcheck : check d = true) (hfind : b.mConnectedServers.findDescription d = some e)
    (hfresh : b.freshClient cfg ctx d = true) :
    ClientIDsNodup (b.handleAttachLocalInterface cfg ctx e).2 := by
  unfold ClientIDsNodup
  rw [clients_handleAttachLocalInterface]
  split
  · next hmay =>
    simp only [freshClient, hcheck, hfind, hmay, Bool.not_true, Bool.false_or] at hfresh
    rw [List.map_append, List.nodup_append]
    refine ⟨h, List.nodup_singleton _, ?_⟩
    intro x hx y hy hxy
    obtain ⟨e', he', rfl⟩ := List.mem_map.mp hx
    rw [List.map_singleton, List.mem_singleton] at hy
    have hthere : b.hasClient (b.nextClientIDFor cfg e.partyID) = true :=
      hasClient_iff.mpr ⟨e', he', hxy.trans hy⟩
    rw [hthere] at hfresh
    exact absurd hfresh (by decide)
  · exact h

/-- Every request fires the notifications on the clients that it takes away. -/
theorem clientWatched_dispatch {cfg : Config} {c : Nat} (ctx : SocketConnectionContext)
    (hc : ctx.mId = c) {r : Request} {b : Broker}
    (hall : AllThere .clientDetach ClientThere b) (hnodup : ClientIDsNodup b)
    (hmaster : b.isMasterConnected cfg = false)
    (hfits : b.sNextNotificationID + notificationsSet r < 2 ^ 32 - 1)
    (hok : b.clientRequest cfg ctx r = true) :
    ClientWatched (b.clearedBy (.request c r)) b (b.dispatch cfg ctx r).1 := by
  have hprims := prims_dispatch cfg ctx r b
  cases r with
  | unregisterInterface id => exact clientWatched_handleUnregisterInterface ctx id hall hok _
  | clearNotification id => exact hc ▸ clientWatched_handleClearNotification ctx id hall
  | detachInterface id => exact clientWatched_handleDetachInterface ctx id hall hnodup hmaster _
  | notifyClientDetach id pulse =>
      have hfinds (h : b.mAttachedClients.finds id = true) : ClientThere b id := by
        simpa [clientRequest, h] using hok
      obtain ⟨_, hset, _⟩ := setParty_notifyClientDetach ctx id pulse hmaster hfits hfinds
      exact hset.watched hall
        (fun x => (clientThere_congr (hset.prims.clients_eq (by simp)) x).mpr) _
  | attachInterface d =>
      simp only [Broker.dispatch, handleAttachInterface, hmaster, Bool.and_false,
        Bool.false_eq_true, if_false]
      split
      · split
        · next entry _ =>
          have h := clientWatched_handleAttachLocalInterface cfg ctx entry hall []
          split <;> exact h
        · exact clientWatched_of_prims hall (prims_quiet cfg (.refl b)) (by simp) (by simp)
            (by simp) _
      · exact clientWatched_of_prims hall (prims_quiet cfg (.refl b)) (by simp) (by simp)
          (by simp) _
  | attachInterfaceExtended pulse d stackPulse =>
      simp only [Broker.dispatch, handleAttachInterfaceExtended]
      split
      · split
        · next entry _ =>
          have hfirst := clientWatched_handleAttachLocalInterface cfg ctx entry hall []
          have hset := (addsPool_notifyServerDisconnect cfg ctx entry.partyID stackPulse
            (b.handleAttachLocalInterface cfg ctx entry).2).prims
              (M := disconnectLabels ++ [.addPool]) (by simp_all) (by simp)
          have hboth := hfirst.then hset (by simp [disconnectLabels]) (by simp [disconnectLabels])
            (by simp [disconnectLabels])
          split
          · exact hfirst
          · split <;> exact hboth
        · rw [hmaster, Bool.not_false, Bool.or_true, if_pos rfl]
          have h := clientWatched_of_prims hall (prims_notifyServerAvailable cfg ctx pulse d b)
            (by simp [availableLabels]) (by simp [availableLabels]) (by simp [availableLabels]) []
          split <;> exact h
      · exact clientWatched_of_prims hall (prims_quiet cfg (.refl b)) (by simp) (by simp)
          (by simp) _
  | _ =>
      refine clientWatched_of_prims hall hprims ?_ ?_ ?_ _ <;>
      simp [requestLabels, registerLabels, listLabels, availableLabels, disconnectLabels]

/-- Updates without clients keep the IDs different. -/
theorem ClientIDsNodup.prims {cfg : Config} {L : List Label} {b b' : Broker}
    (h : ClientIDsNodup b) (hp : Prims cfg L b b') (hL : .clients ∉ L) : ClientIDsNodup b' :=
  h.sublist (hp.clients_eq hL ▸ List.Sublist.refl _)

/-- So does every request, if its client gets a new ID. -/
theorem ClientIDsNodup.dispatch {cfg : Config} {ctx : SocketConnectionContext} {r : Request}
    {b : Broker} (h : ClientIDsNodup b) (hmaster : b.isMasterConnected cfg = false)
    (hok : b.clientRequest cfg ctx r = true) : ClientIDsNodup (b.dispatch cfg ctx r).1 := by
  have hprims := prims_dispatch cfg ctx r b
  cases r with
  | unregisterInterface id =>
      refine h.sublist ?_
      rw [Broker.dispatch, clients_handleUnregisterInterface]
      split
      · exact List.filter_sublist
      · exact List.Sublist.refl _
  | detachInterface id =>
      refine h.sublist ?_
      rw [Broker.dispatch, clients_handleDetachInterface]
      split
      · exact List.eraseP_sublist
      · exact List.Sublist.refl _
  | attachInterface d =>
      simp only [Broker.dispatch, handleAttachInterface, hmaster, Bool.and_false,
        Bool.false_eq_true, if_false]
      split
      · next hcheck =>
        split
        · next entry hfind =>
          have h1 := h.handleAttachLocalInterface hcheck hfind hok
          split <;> exact h1
        · exact h
      · exact h
  | attachInterfaceExtended pulse d stackPulse =>
      simp only [Broker.dispatch, handleAttachInterfaceExtended]
      split
      · next hcheck =>
        split
        · next entry hfind =>
          have h1 := h.handleAttachLocalInterface hcheck hfind hok
          have hset := (addsPool_notifyServerDisconnect cfg ctx entry.partyID stackPulse
            (b.handleAttachLocalInterface cfg ctx entry).2).prims
              (M := disconnectLabels ++ [.addPool]) (by simp_all) (by simp)
          have h2 := h1.prims hset (by simp [disconnectLabels])
          split
          · exact h1
          · split <;> exact h2
        · rw [hmaster, Bool.not_false, Bool.or_true, if_pos rfl]
          have h1 := h.prims (prims_notifyServerAvailable cfg ctx pulse d b)
            (by simp [availableLabels])
          split <;> exact h1
      · exact h
  | _ =>
      refine h.prims hprims ?_
      simp [requestLabels, registerLabels, listLabels, availableLabels, disconnectLabels,
        detachLabels, clearLabels]

/-- So does a connection that closes. -/
theorem ClientIDsNodup.clear {cfg : Config} (c : Nat) {b : Broker} (h : ClientIDsNodup b) :
    ClientIDsNodup (b.clear cfg c) := by
  have h1 : ClientIDsNodup ((b.dataOf c).mServerList.elems.foldl (Broker.clearServer cfg) b) :=
    h.sublist (clients_foldl_clearServer_sublist cfg _ b)
  have h2 : ClientIDsNodup ((b.dataOf c).mClientList.elems.foldl (Broker.clearClient cfg)
      ((b.dataOf c).mServerList.elems.foldl (Broker.clearServer cfg) b)) :=
    h1.sublist (clients_foldl_clearClient cfg _ h1 ▸ List.filter_sublist)
  refine h2.sublist ?_
  unfold Broker.clear
  dsimp only
  split
  · simp only [triggerAll, triggerList, removeNotificationsOf, clients_sweep, List.Sublist.refl]
  · simp only [triggerList, removeNotificationsOf, clients_sweep, List.Sublist.refl]

/-! ## Runs -/

/-- The condition on a step: the notification IDs fit, no client takes an ID that is
in the table, no watched client goes with its server, and no notification is set on
an unknown client that shares its local ID with an attached one. -/
def clientStep (cfg : Config) (b : Broker) (e : Event) : Prop :=
  aloneEvent e = true ∧ idsFit b e = true ∧ clientEvent cfg b e = true

instance (cfg : Config) (b : Broker) (e : Event) : Decidable (clientStep cfg b e) :=
  inferInstanceAs (Decidable (_ ∧ _ ∧ _))

/-- The invariant. -/
structure ClientInv (b : Broker) : Prop where
  phase : b.phase = .disconnected
  nodup : ClientIDsNodup b
  once : KindOnce .clientDetach b
  all : AllThere .clientDetach ClientThere b
  fits : b.sNextNotificationID < 2 ^ 32 - 1

/-- At the beginning there are no clients. -/
theorem clientInv_init : ClientInv init where
  phase := rfl
  nodup := List.nodup_nil
  once := ⟨by rintro id (h | h) <;> exact absurd h List.not_mem_nil,
    fun _ _ h => absurd h List.not_mem_nil⟩
  all _ hn := absurd hn List.not_mem_nil
  fits := by decide

/-- There is no master. -/
theorem ClientInv.isMasterConnected {b : Broker} (h : ClientInv b) (cfg : Config) :
    b.isMasterConnected cfg = false := by
  simp [Broker.isMasterConnected, h.phase]

theorem dataOf_eq {b : Broker} {c : Nat} {k : Connection} (h : b.conns c = some k) :
    b.dataOf c = k.data := by
  simp [dataOf, data?, h]

/-- Every step fires the notifications on the clients that go. -/
theorem ClientInv.step_watched {cfg : Config} {b : Broker} {e : Event} (h : ClientInv b)
    (he : clientStep cfg b e) :
    ClientWatched (b.clearedBy e) b (b.step cfg e) ∧ ClientIDsNodup (b.step cfg e) := by
  have hmaster := h.isMasterConnected cfg
  have hsame (b' : Broker) (hb' : b' = b) :
      ClientWatched (b.clearedBy e) b b' ∧ ClientIDsNodup b' := by
    rw [hb']
    exact ⟨clientWatched_of_prims h.all (prims_quiet cfg (.refl b)) (by simp) (by simp) (by simp) _,
      h.nodup⟩
  obtain ⟨he, hfits, hok⟩ := he
  cases e with
  | request c r =>
      simp only [idsFit, decide_eq_true_eq] at hfits
      cases request_cases cfg c r b with
      | inl hnone => exact hsame _ hnone
      | inr hdispatch =>
          obtain ⟨k, hk, hdeferred, _, hquiet⟩ := hdispatch
          simp only [clientEvent, hk, hdeferred, Bool.false_or] at hok
          have hwatched : ClientWatched (b.clearedBy (.request c r)) b
              (b.dispatch cfg (k.ctx c) r).1 :=
            clientWatched_dispatch (k.ctx c) rfl h.all h.nodup hmaster hfits hok
          exact ⟨hwatched.then (prims_quiet cfg hquiet) (by simp) (by simp) (by simp),
            (h.nodup.dispatch hmaster hok).prims (prims_quiet cfg hquiet) (by simp)⟩
  | closed c =>
      cases hk : b.conns c with
      | none => exact hsame _ (by simp [Broker.step, closeConnection, hk])
      | some k =>
          cases hheld : k.held with
          | true => exact hsame _ (by simp [Broker.step, closeConnection, hk, hheld])
          | false =>
              simp only [clientEvent, hk, hheld, Bool.false_or, ← dataOf_eq hk] at hok
              have hclose : b.step cfg (.closed c) = (b.clear cfg c).setConnection c none := by
                simp [Broker.step, closeConnection, hk, hheld]
              have hquiet := prims_quiet cfg (quiet_setConnection c none (b.clear cfg c))
              rw [hclose]
              exact ⟨(clientWatched_clear c h.all h.nodup hok).then hquiet (by simp) (by simp)
                (by simp), (h.nodup.clear c).prims hquiet (by simp)⟩
  | connected nodeAddress localAddress uid =>
      have hopen := prims_openConnection cfg nodeAddress localAddress uid b
      exact ⟨clientWatched_of_prims h.all hopen (by simp) (by simp) (by simp) _,
        h.nodup.prims hopen (by simp)⟩
  | pulse => simp [aloneEvent] at he
  | deliver => simp [aloneEvent] at he
  | worker => simp [aloneEvent] at he

/-- So the notifications on clients are watched in every run. -/
theorem watchInv_clientInv (cfg : Config) :
    WatchInv cfg .clientDetach ClientThere (clientStep cfg) ClientInv where
  step b e h he := by
    have hprims := prims_step cfg b he.1
    exact
      { phase := hprims.preserves (I := fun b' => b'.phase = .disconnected)
          (fun _ _ _ _ hp hb => hp.phase.trans hb) h.phase
        nodup := (h.step_watched he).2
        once := h.once.prims (by decide) hprims
        all := (h.step_watched he).1.all
        fits := next_step he.1 he.2.1 h.fits }
  prims b e _ he := ⟨_, prims_step cfg b he.1⟩
  fits b h := Nat.lt_trans h.fits (by decide)
  once b h := h.once
  watched b e h he := (h.step_watched he).1

/-- Detach notifications on a broker without a master, in every run whose steps meet
the condition.  No active notification is on a client that is gone.  A notification
that nobody clears waits, or is sent exactly once with the step in which its client
goes.  A notification that is set on a client that is gone already is sent in that
step, and never again. -/
theorem client_gone_of_along (cfg : Config) (es : List Event)
    (h : Run.Along (step cfg) (clientStep cfg) init es) :
    AllThere .clientDetach ClientThere (Run.run (step cfg) init es) ∧
      (∀ pre post, es = pre ++ post → ∀ n ∈ (Run.run (step cfg) init pre).notifications
          .clientDetach, n.active = true →
        Run.Along (step cfg) (fun b e => n.notificationID ∉ clearedBy b e)
          (Run.run (step cfg) init pre) post →
        SentOnceAlong .clientDetach ClientThere cfg (Run.run (step cfg) init pre) post
          n.notificationID n.partyID) ∧
      ∀ pre c clientID pulse post id,
        es = pre ++ .request c (.notifyClientDetach clientID pulse) :: post →
        let b := Run.run (step cfg) init pre
        let b' := b.step cfg (.request c (.notifyClientDetach clientID pulse))
        Answers cfg b c (.notifyClientDetach clientID pulse) id →
        (ClientThere b clientID → Waits .clientDetach ClientThere b' id clientID) ∧
          (¬ ClientThere b clientID → b.sentIDs.count id = 0 ∧ b'.sentIDs.count id = 1 ∧
            (Run.run (step cfg) init es).sentIDs.count id = 1) := by
  have hinv := watchInv_clientInv cfg
  have hrun (pre post : List Event) (hes : es = pre ++ post) :
      ClientInv (Run.run (step cfg) init pre) ∧
        Run.Along (step cfg) (clientStep cfg) (Run.run (step cfg) init pre) post := by
    rw [hes, Run.along_append] at h
    exact ⟨Run.invariant hinv.step clientInv_init h.1, h.2⟩
  refine ⟨(hrun es [] (by simp)).1.all, ?_, ?_⟩
  · intro pre post hes n hn hactive hclear
    obtain ⟨hb, hpost⟩ := hrun pre post hes
    exact hinv.sentOnceAlong hb hpost hn hactive (hb.all n hn hactive) hclear
  · intro pre c clientID pulse post id hes b b' hanswers
    obtain ⟨hb, hpost⟩ := hrun pre _ hes
    obtain ⟨k, hk, hdeferred, hresponse⟩ := hanswers
    have hfits : b.sNextNotificationID + 1 < 2 ^ 32 - 1 := of_decide_eq_true hpost.1.2.1
    have hok : b.clientRequest cfg (k.ctx c) (.notifyClientDetach clientID pulse) = true := by
      have hevent : b.clientEvent cfg (.request c (.notifyClientDetach clientID pulse)) = true :=
        hpost.1.2.2
      simpa only [clientEvent, hk, hdeferred, Bool.false_or] using hevent
    have hfinds (hf : b.mAttachedClients.finds clientID = true) : ClientThere b clientID := by
      simpa [clientRequest, hf] using hok
    obtain ⟨id', hset, hid⟩ := setParty_notifyClientDetach (k.ctx c) clientID pulse
      (hb.isMasterConnected cfg) hfits hfinds
    rw [hid id hresponse] at hset
    have hquiet := quiet_request cfg (.notifyClientDetach clientID pulse) hk hdeferred rfl
    have hclients₁ := hset.prims.clients_eq (by simp)
    have hset' := hinv.set (by decide) hb hpost hset hquiet
      (fun x => (clientThere_congr (hquiet.clients.trans hclients₁) x).mpr)
      (fun x => (clientThere_congr hclients₁ x).mpr)
    rw [hes, Run.run_append]
    exact hset'

/-- One client detaches, the other goes with its connection, and the first is asked
for once more. -/
theorem client_gone_detached_and_closed :
    let es : List Event := [.connected 0 0 0, .connected 0 0 0, .connected 0 0 0,
      .request 1 (.registerInterface ⟨[65], 1, 0⟩ 0 1),
      .request 2 (.attachInterface ⟨[65], 1, 0⟩), .request 3 (.attachInterface ⟨[65], 1, 0⟩),
      .request 1 (.notifyClientDetach ⟨100001, 1000⟩ ⟨7, 0, 0, 0⟩),
      .request 1 (.notifyClientDetach ⟨100002, 1000⟩ ⟨7, 0, 0, 0⟩),
      .request 2 (.detachInterface ⟨100001, 1000⟩), .closed 3,
      .request 1 (.notifyClientDetach ⟨100001, 1000⟩ ⟨7, 0, 0, 0⟩)]
    let b := Run.run (step aloneConfig) init es
    b.sentIDs = [1, 2, 3] ∧ AllThere .clientDetach ClientThere b :=
  ⟨by decide, (client_gone_of_along _ _ (by decide)).1⟩

/-! ## When the server goes -/

/-- A client attaches and its server asks to be told when it goes; then the server is
unregistered. -/
def unregisterRun : List Event :=
  [.connected 0 0 0, .connected 0 0 0,
    .request 1 (.registerInterface ⟨[65], 1, 0⟩ 0 1),
    .request 2 (.attachInterface ⟨[65], 1, 0⟩),
    .request 1 (.notifyClientDetach ⟨100001, 1000⟩ ⟨7, 0, 0, 0⟩),
    .request 1 (.unregisterInterface ⟨500001, 1000⟩)]

/-- `ClientList::removeServer` takes the client out of the table, and the
notification on it stays, unsent and active. -/
theorem watched_client_gone_with_server :
    let b := Run.run (step aloneConfig) init unregisterRun
    (∀ e ∈ unregisterRun, aloneEvent e = true) ∧ b.sentIDs = [] ∧
      ¬ AllThere .clientDetach ClientThere b := by
  intro b
  refine ⟨by decide, by decide, fun hall => ?_⟩
  have hgone : ∃ n ∈ b.notifications .clientDetach,
      n.active = true ∧ b.hasClient n.partyID = false := by
    decide
  obtain ⟨n, hn, hactive, hmissing⟩ := hgone
  have hthere := hasClient_iff.mpr (hall n hn hactive)
  exact absurd (hmissing.symm.trans hthere) (by decide)

end Broker

end Dsi
