import Dsi.Broker.Monitor
import Dsi.Broker.ServerTable

/-!
# Dsi.Broker.OwnPools

Disconnect notifications of a slave and the pools of their servers, over whole runs.
`NotificationPool::find(SPartyID)` may find the pool of another server with the same local
ID.  As long as it finds the server's own, a notification on a server elsewhere is in the
pool of exactly that server, the master was asked for it, and a pulse for a pool sends
exactly the notifications on its server.
-/

namespace Dsi

open Sequence NotificationPool NotificationPoolEntry

namespace Broker

/-! ## The property -/

/-- The notification is in the pool of exactly its server, for which the master was
asked. -/
def InOwnPool (cfg : Config) (b : Broker) (n : Notification) : Prop :=
  ∃ np ∈ b.mMasterNotificationPool, np.poolID = n.poolID ∧
    np.mPoolState = .STATE_MONITOR_DISCONNECT ∧ np.mDataSwitch = .serverID n.partyID ∧
    monitorJob cfg np.poolID n.partyID ∈ b.jobs

/-- What the broker keeps: a notification that waits for a server elsewhere is in the pool
of that server, so is every one that is in a pool, and the pulses for a pool send exactly
the notifications on its server. -/
structure OwnPools (cfg : Config) (b : Broker) : Prop where
  elsewhere : ∀ n ∈ b.mServerDisconnectNotifications, n.active = true →
    ¬ ServerThere b n.partyID → InOwnPool cfg b n
  pooled : ∀ n ∈ b.mServerDisconnectNotifications, n.poolID ≠ 0 → InOwnPool cfg b n
  pulses : ∀ np ∈ b.mMasterNotificationPool, ∀ serverID,
    np.mPoolState = .STATE_MONITOR_DISCONNECT → np.mDataSwitch = .serverID serverID →
    ∀ p, p = .PULSE_MASTER_SERVER_DISCONNECT ∨ p = .PULSE_MASTER_ATTACH_EXTENDED →
      (b.step cfg (.pulse p np.poolID)).sentIDs = b.sentIDs ++
        ids (b.mServerDisconnectNotifications.filter
          (fun n => n.active && n.partyID = serverID))

/-! ## The condition -/

/-- A notification on the server would be set where it belongs: its ID is valid, a server
here has no pool, and the pool that is found for one elsewhere is its own. -/
def setsOwn (cfg : Config) (ctx : SocketConnectionContext) (serverID : SPartyID)
    (pulse : SFNDPulseInfo) (b : Broker) : Bool :=
  !attaches cfg ctx pulse b ||
    (UInt32.ofNat (b.sNextNotificationID + 1) != INVALID_NOTIFICATION_ID &&
      if (b.mConnectedServers.findID serverID).isSome then
        b.mMasterNotificationPool.monitors.all (fun np => np.mDataSwitch != .serverID serverID)
      else
        cfg.mExtendedID == serverID.extendedID || !b.isMasterConnected cfg ||
          (b.mMasterNotificationPool.find? (·.monitors serverID)).all
            (fun np => np.mDataSwitch == .serverID serverID))

/-- The condition on a request. -/
def requestOwn (cfg : Config) (ctx : SocketConnectionContext) (b : Broker) : Request → Bool
  | .notifyServerDisconnect serverID pulse => b.setsOwn cfg ctx serverID pulse
  | .attachInterfaceExtended _ d stackPulse =>
      !check d || (b.mConnectedServers.findDescription d).all (fun entry =>
        (b.handleAttachLocalInterface cfg ctx entry).1.isNone ||
          b.setsOwn cfg ctx entry.partyID stackPulse)
  | _ => true

/-- The condition on a step: the IDs of the pools fit, a request that sets a disconnect
notification sets it where it belongs, and when the master is lost no notification on a
server here is in a pool. -/
def stepOwn (cfg : Config) (b : Broker) (e : Event) : Bool :=
  decide ((b.step cfg e).nextPoolID ≤ 2 ^ 32) &&
    match e with
    | .request c r =>
        match b.conns c with
        | none => true
        | some k => k.deferred || b.requestOwn cfg (k.ctx c) r
    | .deliver =>
        match b.pipe with
        | .masterDisconnected :: _ => b.mServerDisconnectNotifications.all (fun n =>
            n.poolID = 0 || (n.active && (b.mConnectedServers.findID n.partyID).isNone))
        | _ => true
    | _ => true

/-! ## Setting a notification -/

section Setting

variable {cfg : Config} {b b' : Broker} {serverID : SPartyID}

/-- The pool that is found is in the table, and monitors a server. -/
theorem find?_monitors_of_findIdx? {pos : Nat}
    (h : b.mMasterNotificationPool.findIdx? (·.monitors serverID) = some pos) :
    ∃ np, b.mMasterNotificationPool[pos]? = some np ∧
      b.mMasterNotificationPool.find? (·.monitors serverID) = some np ∧
      np ∈ b.mMasterNotificationPool.monitors := by
  obtain ⟨hlt, hfound, _⟩ := List.findIdx?_eq_some_iff_getElem.mp h
  have hpos := List.getElem?_eq_getElem hlt
  generalize b.mMasterNotificationPool[pos] = np at hpos hfound
  refine ⟨np, hpos, ?_, mem_monitors.mpr ⟨List.mem_of_getElem? hpos, ?_⟩⟩
  · rw [List.find?_eq_bind_findIdx?_getElem?, h]
    exact hpos
  · exact (Bool.and_eq_true_iff.mp hfound).1

/-- Where none is found no pool is on the server. -/
theorem ne_of_findIdx?_monitors
    (h : b.mMasterNotificationPool.findIdx? (·.monitors serverID) = none)
    {np : NotificationPoolEntry} (hnp : np ∈ b.mMasterNotificationPool.monitors) :
    np.mDataSwitch ≠ .serverID serverID := by
  intro hswitch
  obtain ⟨hmem, hmonitor⟩ := mem_monitors.mp hnp
  have hnot := List.findIdx?_eq_none_iff.mp h np hmem
  have hstate : (np.mPoolState == .STATE_MONITOR_DISCONNECT) = true := hmonitor
  rw [NotificationPoolEntry.monitors, hstate, hswitch] at hnot
  simp [SPartyID.opEq] at hnot

/-- A new notification on a server, without a pool. -/
theorem MonitorInv.cons (h : MonitorInv cfg nobody b) {n : Notification}
    (hnotes : b'.notifications .serverDisconnect = n :: b.notifications .serverDisconnect)
    (hzero : n.poolID = 0) (htable : PoolTable b')
    (hpools : b'.mMasterNotificationPool = b.mMasterNotificationPool)
    (hservers : b'.mConnectedServers = b.mConnectedServers) (hlog : b.log <+: b'.log) :
    MonitorInv cfg (· = n.partyID) b' where
  table := htable
  pools np hnp := by
    rw [hpools] at hnp
    obtain ⟨s, hm⟩ := h.pools np hnp
    refine ⟨s, hm.switch, hm.foreign, jobs_subset_of_log hlog hm.asked, fun m hm' hid => ?_,
      fun hhere m hm' hactive hparty => ?_⟩
    · rw [hnotes] at hm'
      rcases List.mem_cons.mp hm' with rfl | hold
      · have hne := h.table.cells.nonzero np (mem_monitors.mp hnp).1
        exact absurd (hid.symm.trans hzero) hne
      · exact hm.members m hold hid
    · rw [hnotes] at hm'
      rcases List.mem_cons.mp hm' with rfl | hold
      · exact absurd hparty.symm hhere
      · exact hm.all (fun hno => hno) m hold hactive hparty
  unique := by
    rw [hpools]
    exact h.unique
  pooled m hm hne := by
    rw [hnotes] at hm
    rw [hpools]
    rcases List.mem_cons.mp hm with rfl | hold
    · exact absurd hzero hne
    · exact h.pooled m hold hne
  waits m hm hactive := by
    rw [hnotes] at hm
    rcases List.mem_cons.mp hm with rfl | hold
    · exact Or.inl rfl
    · rw [ServerThere, hservers]
      exact Or.inr ((h.waits m hold hactive).resolve_left (fun hno => hno))

/-- A new pool of the server, for which the master is asked. -/
theorem MonitorInv.addPoolServer (h : MonitorInv cfg (· = serverID) b)
    (hforeign : serverID.extendedID ≠ cfg.mExtendedID) (hfits : b.nextPoolID < 2 ^ 32)
    (hnone : ∀ np ∈ b.mMasterNotificationPool.monitors, np.mDataSwitch ≠ .serverID serverID) :
    MonitorInv cfg (· = serverID) ((b.addPoolServer serverID).eval
      (monitorJob cfg (UInt32.ofNat b.nextPoolID) serverID)) := by
  have hnew : (UInt32.ofNat b.nextPoolID).toNat = b.nextPoolID := UInt32.toNat_ofNat_of_lt' hfits
  have htable := h.table.addPool hfits (.serverID serverID) .STATE_MONITOR_DISCONNECT
  have hjobs : b.jobs ⊆ ((b.addPoolServer serverID).eval
      (monitorJob cfg (UInt32.ofNat b.nextPoolID) serverID)).jobs :=
    jobs_subset_of_log (List.prefix_append _ _)
  -- the monitors are the new pool and the old ones
  have hmonitors {np : NotificationPoolEntry} (hnp : np ∈ ((b.addPoolServer serverID).eval
      (monitorJob cfg (UInt32.ofNat b.nextPoolID) serverID)).mMasterNotificationPool.monitors) :
      np.poolID = UInt32.ofNat b.nextPoolID ∧ np.mDataSwitch = .serverID serverID ∨
        np ∈ b.mMasterNotificationPool.monitors := by
    rcases List.mem_cons.mp hnp with rfl | hold
    · exact Or.inl ⟨rfl, rfl⟩
    · exact Or.inr hold
  refine ⟨htable.congr (fun _ => rfl) rfl rfl rfl, fun np hnp => ?_,
    fun np hnp np' hnp' hsame => ?_, fun n hn hne => ?_, h.waits⟩
  · rcases hmonitors hnp with ⟨hid, hswitch⟩ | hold
    · refine ⟨serverID, hswitch, hforeign, ?_, fun n hn hpool => ?_, fun hhere => absurd rfl hhere⟩
      · rw [hid, jobs_eval]
        exact List.mem_append_right _ List.mem_cons_self
      · have hlt := h.table.refsBelow n (mem_live.mpr ⟨.serverDisconnect, hn⟩)
        rw [hpool, hid, hnew] at hlt
        exact absurd hlt (Nat.lt_irrefl _)
    · obtain ⟨s, hm⟩ := h.pools np hold
      exact ⟨s, hm.switch, hm.foreign, hjobs hm.asked, hm.members, hm.all⟩
  · rcases hmonitors hnp with ⟨hid, hswitch⟩ | hold <;>
      rcases hmonitors hnp' with ⟨hid', hswitch'⟩ | hold'
    · exact hid'.trans hid.symm
    · exact absurd (hsame.trans hswitch) (hnone np' hold')
    · exact absurd (hsame.symm.trans hswitch') (hnone np hold)
    · exact h.unique np hold np' hold' hsame
  · obtain ⟨np, hnp, hid⟩ := h.pooled n hn hne
    exact ⟨np, List.mem_cons_of_mem _ hnp, hid⟩

/-- The new notification takes the pool of its server, where the others on the server
are. -/
theorem MonitorInv.attachPool {n : Notification} {rest : List Notification}
    (h : MonitorInv cfg (· = n.partyID) b)
    (hnotes : b.notifications .serverDisconnect = n :: rest) (hzero : n.poolID = 0) {pos : Nat}
    {np : NotificationPoolEntry} (hpos : b.mMasterNotificationPool[pos]? = some np)
    (hnp : np ∈ b.mMasterNotificationPool.monitors) (hswitch : np.mDataSwitch = .serverID n.partyID)
    (hothers : ∀ m ∈ rest, m.active = true → m.partyID = n.partyID → m.poolID = np.poolID) :
    MonitorInv cfg nobody (b.attachPool pos .serverDisconnect n.notificationID) ∧
      (b.attachPool pos .serverDisconnect n.notificationID).notifications .serverDisconnect =
        { n with poolID := np.poolID } :: rest := by
  have hfind : b.findNotification .serverDisconnect n.notificationID = some n := by
    simp [findNotification, hnotes]
  obtain ⟨htable, hkept⟩ := h.table.attachPool hfind hzero hpos
  have hid : b.poolIDAt pos = np.poolID := by simp [poolIDAt, hpos]
  have hlist : (b.attachPool pos .serverDisconnect n.notificationID).notifications
      .serverDisconnect = { n with poolID := np.poolID } :: rest := by
    have hset : (b.attachPool pos .serverDisconnect n.notificationID).notifications
        .serverDisconnect = modifyFirst (fun m => m.notificationID = n.notificationID)
          (fun m => { m with poolID := b.poolIDAt pos }) (b.notifications .serverDisconnect) := rfl
    rw [hset, hnotes, hid]
    simp [modifyFirst]
  have hne := h.table.cells.nonzero np (mem_monitors.mp hnp).1
  refine ⟨⟨htable, fun np' hnp' => ?_, fun np₁ hnp₁ np₂ hnp₂ hsame => ?_, fun m hm hm0 => ?_,
    fun m hm hactive => ?_⟩, hlist⟩
  · obtain ⟨np₀, hnp₀, hid₀, hswitch₀, _⟩ := (hkept []).origin np' hnp'
    obtain ⟨s, hm⟩ := h.pools np₀ hnp₀
    refine ⟨s, hswitch₀.trans hm.switch, hm.foreign, hid₀ ▸ hm.asked, fun m hm' hpool => ?_,
      fun _ m hm' hactive hparty => ?_⟩
    · rw [hlist] at hm'
      rcases List.mem_cons.mp hm' with rfl | hold
      · -- the new member is on the server of the pool
        have heq : np = np₀ := List.inj_on_of_nodup_map h.table.cells.nodup (mem_monitors.mp hnp).1
          (mem_monitors.mp hnp₀).1 (hpool.trans hid₀)
        subst heq
        exact DataSwitch.serverID.inj (hswitch.symm.trans hm.switch)
      · exact hm.members m (hnotes ▸ List.mem_cons_of_mem _ hold) (hpool.trans hid₀)
    · rw [hlist] at hm'
      rw [hid₀]
      by_cases hs : s = n.partyID
      · -- both pools are the one of the server
        subst hs
        have heq := h.unique np hnp np₀ hnp₀ (hm.switch.trans hswitch.symm)
        rcases List.mem_cons.mp hm' with rfl | hold
        · exact heq.symm
        · exact (hothers m hold hactive hparty).trans heq.symm
      · rcases List.mem_cons.mp hm' with rfl | hold
        · exact absurd hparty.symm hs
        · exact hm.all hs m (hnotes ▸ List.mem_cons_of_mem _ hold) hactive hparty
  · obtain ⟨np₁', hnp₁', hid₁, hswitch₁, _⟩ := (hkept []).origin np₁ hnp₁
    obtain ⟨np₂', hnp₂', hid₂, hswitch₂, _⟩ := (hkept []).origin np₂ hnp₂
    have hold := h.unique np₁' hnp₁' np₂' hnp₂' (hswitch₂.symm.trans (hsame.trans hswitch₁))
    exact hid₂.trans (hold.trans hid₁.symm)
  · rw [hlist] at hm
    have hold : ∃ np ∈ b.mMasterNotificationPool.monitors, np.poolID = m.poolID := by
      rcases List.mem_cons.mp hm with rfl | hold
      · exact ⟨np, hnp, rfl⟩
      · exact h.pooled m (hnotes ▸ List.mem_cons_of_mem _ hold) hm0
    obtain ⟨np₀, hnp₀, hid₀⟩ := hold
    obtain ⟨np', hnp', hsame⟩ := (hkept [np₀.poolID]).survives np₀ hnp₀ List.mem_cons_self
    exact ⟨np', hnp', hsame.1.trans hid₀⟩
  · rw [hlist] at hm
    rcases List.mem_cons.mp hm with rfl | hold
    · exact Or.inr (Or.inr hne)
    · rcases h.waits m (hnotes ▸ List.mem_cons_of_mem _ hold) hactive with haway | hwaits
      · rw [hothers m hold hactive haway]
        exact Or.inr (Or.inr hne)
      · exact Or.inr hwaits

/-- A notification on a server elsewhere is in a pool of it. -/
theorem MonitorInv.exists_pool (h : MonitorInv cfg nobody b) {n : Notification}
    (hn : n ∈ b.notifications .serverDisconnect) (hne : n.poolID ≠ 0) :
    ∃ np ∈ b.mMasterNotificationPool.monitors, np.poolID = n.poolID ∧
      np.mDataSwitch = .serverID n.partyID ∧ MonitorsServer cfg nobody b np n.partyID := by
  obtain ⟨np, hnp, hid⟩ := h.pooled n hn hne
  obtain ⟨s, hm⟩ := h.pools np hnp
  obtain rfl : n.partyID = s := hm.members n hn hid.symm
  exact ⟨np, hnp, hid, hm.switch, hm⟩

theorem MonitorInv.ne_zero (h : MonitorInv cfg nobody b) {n : Notification}
    (hn : n ∈ b.notifications .serverDisconnect) (hactive : n.active = true)
    (hgone : ¬ ServerThere b n.partyID) : n.poolID ≠ 0 :=
  ((h.waits n hn hactive).resolve_left (fun hno => hno)).resolve_left hgone

/-- The new notification on a server elsewhere joins the pool of the server, which is
created if there is none. -/
theorem MonitorInv.monitorServer {n : Notification} {rest : List Notification}
    (h : MonitorInv cfg (· = n.partyID) b)
    (hnotes : b.notifications .serverDisconnect = n :: rest) (hzero : n.poolID = 0)
    (hforeign : n.partyID.extendedID ≠ cfg.mExtendedID)
    (hfound : (b.mMasterNotificationPool.find? (·.monitors n.partyID)).all
      (fun np => np.mDataSwitch == .serverID n.partyID) = true)
    (hrest : ∀ m ∈ rest, m.active = true → m.partyID = n.partyID →
      ∃ np ∈ b.mMasterNotificationPool.monitors, np.poolID = m.poolID ∧
        np.mDataSwitch = .serverID n.partyID)
    (hfits : (b.monitorServer cfg n.partyID n.notificationID).nextPoolID ≤ 2 ^ 32) :
    MonitorInv cfg nobody (b.monitorServer cfg n.partyID n.notificationID) ∧
      ∃ poolID ≠ 0, (b.monitorServer cfg n.partyID n.notificationID).notifications
        .serverDisconnect = { n with poolID := poolID } :: rest := by
  have hfind : b.findNotification .serverDisconnect n.notificationID = some n := by
    simp [findNotification, hnotes]
  unfold Broker.monitorServer at hfits ⊢
  rw [hfind] at hfits ⊢
  dsimp only at hfits ⊢
  split at hfits
  · next pos hpos =>
    obtain ⟨np, hnp, hfirst, hmonitor⟩ := find?_monitors_of_findIdx? hpos
    rw [hfirst] at hfound
    have hswitch : np.mDataSwitch = .serverID n.partyID := by simpa using hfound
    obtain ⟨hinv, hlist⟩ := h.attachPool hnotes hzero hnp hmonitor hswitch
      fun m hm hactive hparty => by
        obtain ⟨np', hnp', hid, hswitch'⟩ := hrest m hm hactive hparty
        rw [← hid]
        exact h.unique np hmonitor np' hnp' (hswitch'.trans hswitch.symm)
    exact ⟨hinv, np.poolID, h.table.cells.nonzero np (mem_monitors.mp hmonitor).1, hlist⟩
  · next hpos =>
    have hnone {np : NotificationPoolEntry} (hnp : np ∈ b.mMasterNotificationPool.monitors) :
        np.mDataSwitch ≠ .serverID n.partyID := ne_of_findIdx?_monitors hpos hnp
    have hlt : b.nextPoolID < 2 ^ 32 := Nat.lt_of_succ_le hfits
    have hadded := h.addPoolServer hforeign hlt fun np hnp => hnone hnp
    -- nobody on the server can be in a pool, for there is none
    have hothers : ∀ m ∈ rest, m.active = true → m.partyID = n.partyID →
        m.poolID = UInt32.ofNat b.nextPoolID := by
      intro m hm hactive hparty
      obtain ⟨np', hnp', _, hswitch'⟩ := hrest m hm hactive hparty
      exact absurd hswitch' (hnone hnp')
    obtain ⟨hinv, hlist⟩ := hadded.attachPool hnotes hzero
      (show _[0]? = some _ from rfl) List.mem_cons_self rfl hothers
    exact ⟨hinv, _, hadded.table.cells.nonzero _ List.mem_cons_self, hlist⟩

/-- What a request for a disconnect notification on the server leaves: an ID if one was
set, which is in a pool if the server is elsewhere. -/
structure SetsIn (cfg : Config) (serverID : SPartyID) (b : Broker) (r : Option UInt32 × Broker) :
    Prop where
  inv : MonitorInv cfg nobody r.2
  set : ∀ id, r.1 = some id → b.isMasterConnected cfg = true →
    serverID.extendedID ≠ cfg.mExtendedID → ¬ ServerThere b serverID →
      ∃ n ∈ r.2.notifications .serverDisconnect, n.notificationID = id ∧ n.partyID = serverID ∧
        n.active = true ∧ n.poolID ≠ 0

theorem MonitorInv.notifyServerDisconnect (h : MonitorInv cfg nobody b)
    {ctx : SocketConnectionContext} {pulse : SFNDPulseInfo}
    (hown : b.setsOwn cfg ctx serverID pulse = true)
    (hfits : (b.handleNotifyServerDisconnectNoResponse cfg ctx serverID pulse).2.nextPoolID ≤
      2 ^ 32) :
    SetsIn cfg serverID b (b.handleNotifyServerDisconnectNoResponse cfg ctx serverID pulse) := by
  have hfailed (a : Nat) : SetsIn cfg serverID b (none, b.created a) := by
    have hstep : PoolStep nobody b (b.created a) :=
      .of_eq (fun _ hid => Or.inr hid) rfl rfl List.prefix_rfl
    exact ⟨h.poolStep hstep (h.table.congr (fun _ => rfl) rfl rfl rfl), fun id hid => by cases hid⟩
  unfold handleNotifyServerDisconnectNoResponse addParty at hfits ⊢
  cases hattaches : attaches cfg ctx pulse b with
  | false =>
      rw [addNotification_of_not_attaches hattaches]
      exact hfailed _
  | true =>
      rw [setsOwn, hattaches, Bool.not_true, Bool.false_or, Bool.and_eq_true, bne_iff_ne] at hown
      obtain ⟨hvalid, hown⟩ := hown
      obtain ⟨a, p, coid, hadd | hadd⟩ := addNotification_cases cfg .serverDisconnect ctx pulse
        (fun n => { n with partyID := serverID, host := some ctx.mId }) b
      · have hplain : Plain (fun n => { n with partyID := serverID, host := some ctx.mId }) :=
          fun _ => ⟨rfl, rfl, rfl⟩
        have htable : PoolTable (b.addNotification cfg .serverDisconnect ctx pulse _).2 :=
          h.table.addNotification cfg hplain
        rw [hadd] at hfits htable ⊢
        generalize hn : { b.fresh ctx.mNodeAddress p coid with
          partyID := serverID, host := some ctx.mId } = n at hfits htable ⊢
        have hid : UInt32.ofNat (b.sNextNotificationID + 1) = n.notificationID := hn ▸ rfl
        have hparty : serverID = n.partyID := hn ▸ rfl
        have hzero : n.poolID = 0 := hn ▸ rfl
        have hactive : n.active = true := hn ▸ rfl
        rw [hid] at hvalid hfits ⊢
        subst hparty
        dsimp only at hfits ⊢
        rw [if_neg hvalid] at hfits ⊢
        have hcons : MonitorInv cfg (· = n.partyID)
            (((b.created a).setNotifications .serverDisconnect
              (n :: b.notifications .serverDisconnect)).modifyData ctx.mId
                (·.addNotification n.notificationID)) :=
          h.cons (n := n) rfl hzero (htable.congr (fun _ => rfl) rfl rfl rfl) rfl rfl
            List.prefix_rfl
        generalize hb₁ : ((b.created a).setNotifications .serverDisconnect
          (n :: b.notifications .serverDisconnect)).modifyData ctx.mId
            (·.addNotification n.notificationID) = b₁ at hcons hfits ⊢
        have hservers : b₁.mConnectedServers = b.mConnectedServers := hb₁ ▸ rfl
        have hpools : b₁.mMasterNotificationPool = b.mMasterNotificationPool := hb₁ ▸ rfl
        have hnotes : b₁.notifications .serverDisconnect =
          n :: b.notifications .serverDisconnect := hb₁ ▸ rfl
        have hmaster : b₁.isMasterConnected cfg = b.isMasterConnected cfg := hb₁ ▸ rfl
        rw [hservers, hmaster] at hfits ⊢
        cases hfind : b.mConnectedServers.findID n.partyID with
        | some e =>
            have hthere : ServerThere b n.partyID := serverThere_iff_findID.mpr (by rw [hfind]; rfl)
            rw [hfind, Option.isSome_some, if_pos rfl] at hown
            refine ⟨hcons.settle fun m hm _ hon => ?_, fun _ _ _ _ hgone => absurd hthere hgone⟩
            rw [hon]
            refine ⟨Or.inl (by rwa [ServerThere, hservers]), fun np hnp hswitch => ?_⟩
            rw [hpools] at hnp
            exact absurd hswitch (by simpa using List.all_eq_true.mp hown np hnp)
        | none =>
            have hgone : ¬ ServerThere b n.partyID := by
              rw [serverThere_iff_findID, hfind]
              exact Bool.false_ne_true
            rw [hfind] at hfits hown
            by_cases helse : cfg.mExtendedID ≠ n.partyID.extendedID ∧
                b.isMasterConnected cfg = true
            · obtain ⟨hforeign, hconnected⟩ := helse
              rw [if_pos (by simp [hforeign, hconnected])] at hfits ⊢
              have hfound : (b₁.mMasterNotificationPool.find? (·.monitors n.partyID)).all
                  (fun np => np.mDataSwitch == .serverID n.partyID) = true := by
                simpa [hforeign, hconnected, hpools] using hown
              obtain ⟨hinv, poolID, hne, hlist⟩ := hcons.monitorServer hnotes hzero
                (Ne.symm hforeign) hfound (fun m hm hact hsame => by
                  obtain ⟨np, hnp, hpool, hswitch, _⟩ :=
                    h.exists_pool hm (h.ne_zero hm hact (hsame ▸ hgone))
                  exact ⟨np, hpools ▸ hnp, hpool, hsame ▸ hswitch⟩) hfits
              refine ⟨hinv, fun id hanswer _ _ _ => ?_⟩
              cases hanswer
              exact ⟨{ n with poolID := poolID }, hlist ▸ List.mem_cons_self, rfl, rfl, hactive,
                hne⟩
            · have hnot : ¬ ((Option.isNone (none : Option ServerListEntry) &&
                  decide (cfg.mExtendedID ≠ n.partyID.extendedID) &&
                    b.isMasterConnected cfg) = true) := by
                simpa using helse
              rw [if_neg hnot] at hfits ⊢
              have hfired := (keepsPools_sweep cfg false .serverDisconnect
                (fireIf (fun m => m.partyID = n.partyID)) b₁).inv hfits hcons
              refine ⟨hfired.settle fun m hm hact hon => ?_,
                fun _ _ hconnected hforeign _ => absurd ⟨Ne.symm hforeign, hconnected⟩ helse⟩
              rw [notifications_sweep_fireIf] at hm
              simpa [hact, hon] using (List.mem_filter.mp hm).2
      · rw [hadd]
        exact hfailed a

end Setting

/-! ## Other requests -/

section Handlers

variable {cfg : Config} {away : SPartyID → Prop} {b : Broker}

theorem keepsPools_forwardAttachExtendedToMaster (cfg : Config) (ctx : SocketConnectionContext)
    (pulse : SFNDPulseInfo) (d : InterfaceDescription) (b : Broker) :
    KeepsPools away b (b.forwardAttachExtendedToMaster cfg ctx pulse d).1 := by
  have hpool : KeepsPools away b (b.extendedPool d).2.2 := by
    unfold extendedPool
    split
    · exact .of_quiet (.refl b)
    · refine ⟨Nat.le_succ _, fun hfits h => ⟨h.addPool hfits _ _, ?_⟩⟩
      exact .of_eq (fun _ hid => Or.inr hid) rfl rfl List.prefix_rfl
  have hpos := (addsPool_extendedPool cfg d b).2
  unfold forwardAttachExtendedToMaster
  dsimp only
  generalize b.extendedPool d = p at hpool hpos ⊢
  have hplain : Plain (fun n => { n with
      ifDescription := d, host := some ctx.mId, isLocal := cfg.isLocalService d.name,
      uid := ctx.mUid }) := fun _ => ⟨rfl, rfl, rfl⟩
  have hadd : KeepsPools away p.2.2 _ := (prim_addDescription cfg .serverConnect d ctx pulse
    (cfg.isLocalService d.name) p.2.2).keepsPools (by simp) (by simp) (by simp) (by simp)
  have hfind := findNotification_addNotification cfg (b := p.2.2) .serverConnect ctx pulse hplain
  rw [← (pools_addNotification cfg .serverConnect ctx pulse _ p.2.2).1] at hpos
  unfold addDescription at hadd ⊢
  generalize p.2.2.addNotification cfg .serverConnect ctx pulse _ = r at hadd hfind hpos ⊢
  refine hpool.trans ?_
  split
  · exact hadd
  · next hid =>
    obtain ⟨n, hn, h0, hfind⟩ := hfind hid
    rw [← hn, hfind]
    have hdata : KeepsPools away p.2.2 (r.2.modifyData ctx.mId
        (·.addNotification n.notificationID)) :=
      hadd.trans (.of_quiet (quiet_modifyData ctx.mId (·.addNotification n.notificationID) _))
    have hattached : KeepsPools away p.2.2 ((r.2.modifyData ctx.mId
        (·.addNotification n.notificationID)).attachPool p.1 .serverConnect n.notificationID) := by
      refine hdata.trans ⟨Nat.le_refl _, fun _ h => ?_⟩
      obtain ⟨htable, hkept⟩ := h.attachPool (k := .serverConnect) (n := n) hfind h0
        (List.getElem?_eq_getElem hpos)
      exact ⟨htable, fun _ hid => Or.inr hid, fun m hm => ⟨m, hm, rfl, rfl, fun ha => ha⟩, hkept _,
        List.prefix_rfl⟩
    have hasked := prims_askMasterExtended cfg ctx.mId d p.1 p.2.1 n.notificationID
      ((r.2.modifyData ctx.mId (·.addNotification n.notificationID)).attachPool p.1 .serverConnect
        n.notificationID)
    exact hattached.trans (hasked.keepsPools (by simp) (by simp) (by simp) (by simp))

/-- The notifications on the server are sent before it leaves the table. -/
theorem MonitorInv.handleUnregisterInterface (h : MonitorInv cfg nobody b)
    (ctx : SocketConnectionContext) (serverID : SPartyID)
    (hfits : (b.handleUnregisterInterface cfg ctx serverID).1.nextPoolID ≤ 2 ^ 32) :
    MonitorInv cfg nobody (b.handleUnregisterInterface cfg ctx serverID).1 := by
  have hdata : KeepsPools nobody b (b.modifyData ctx.mId (·.removeServer serverID)) :=
    .of_quiet (quiet_modifyData ctx.mId (·.removeServer serverID) b)
  unfold Broker.handleUnregisterInterface at hfits ⊢
  split
  · next hown =>
    rw [if_pos hown] at hfits
    dsimp only at hfits ⊢
    split
    · next hfind =>
      rw [hfind] at hfits
      exact hdata.inv hfits h
    · next entry hfind =>
      rw [hfind] at hfits
      generalize b.modifyData ctx.mId (·.removeServer serverID) = b₁ at hdata hfits ⊢
      have hfire : KeepsPools nobody b₁ (b₁.trigger cfg .serverDisconnect serverID) :=
        keepsPools_sweep cfg false .serverDisconnect _ b₁
      have hgone : ∀ n ∈ (b₁.trigger cfg .serverDisconnect serverID).notifications
          .serverDisconnect, n.active = true → n.partyID ≠ serverID := by
        intro n hn hactive hparty
        rw [trigger, notifications_sweep_fireIf] at hn
        simpa [hactive, hparty] using (List.mem_filter.mp hn).2
      generalize b₁.trigger cfg .serverDisconnect serverID = b₂ at hfire hgone hfits ⊢
      have hmaster := prims_unregisterInterfaceMaster cfg entry.masterID b₂
      have hdrop := prims_dropServer cfg serverID (b₂.unregisterInterfaceMaster cfg entry.masterID)
      have hlist : Prims cfg [.sweep .serverListChange] ((b₂.unregisterInterfaceMaster cfg
          entry.masterID).dropServer serverID) _ :=
        .single (by simp) (prim_listChange cfg false
          (fun _ n => if n.active ∧ n.regExpr = none then .notify else .keep) _)
      have hdropped : KeepsPools (· = serverID) (b₂.unregisterInterfaceMaster cfg entry.masterID)
          ((b₂.unregisterInterfaceMaster cfg entry.masterID).dropServer serverID) :=
        keepsPools_dropServer (by rfl) _
      have hrest := ((hmaster.keepsPools (by simp) (by simp) (by simp) (by simp)).trans
        hdropped).trans (hlist.keepsPools (by simp) (by simp) (by simp) (by simp))
      have hinv := (hdata.trans hfire).inv (Nat.le_trans hrest.next hfits) h
      refine hinv.leave hrest hfits fun n hn hactive hparty => ?_
      have hinherits := ((hmaster.inherits (k := .serverDisconnect) (by simp)).trans
        (hdrop.inherits (by simp))).trans (hlist.inherits (by simp))
      obtain ⟨m, hm, hd⟩ := hinherits n hn
      exact hgone m hm (hd.active hactive) (hd.partyID ▸ hparty)
  · next hnot =>
    rw [if_neg hnot] at hfits
    exact h

theorem keepsPools_clearServer (cfg : Config) {serverID : SPartyID} (haway : away serverID)
    (b : Broker) : KeepsPools away b (b.clearServer cfg serverID) := by
  unfold clearServer
  split
  · exact .of_quiet (.refl b)
  · next entry _ =>
    have hmaster := prims_unregisterInterfaceMaster cfg entry.masterID b
    exact (hmaster.keepsPools (by simp) (by simp) (by simp) (by simp)).trans
      (keepsPools_dropServer haway _)

/-- The servers of a connection leave the table before the notifications on them are
sent. -/
theorem MonitorInv.clear (h : MonitorInv cfg nobody b) (c : Nat)
    (hfits : (b.clear cfg c).nextPoolID ≤ 2 ^ 32) : MonitorInv cfg nobody (b.clear cfg c) := by
  have hservers : KeepsPools (· ∈ (b.dataOf c).mServerList.elems) b
      ((b.dataOf c).mServerList.elems.foldl (clearServer cfg) b) :=
    keepsPools_foldl (fun id hid b => keepsPools_clearServer cfg hid b) b
  have hclients := prims_foldl cfg (prims_clearClient cfg) (b.dataOf c).mClientList.elems
    ((b.dataOf c).mServerList.elems.foldl (clearServer cfg) b)
  unfold Broker.clear at hfits ⊢
  dsimp only at hfits ⊢
  generalize (b.dataOf c).mServerList.elems.foldl (clearServer cfg) b = b₁ at *
  generalize (b.dataOf c).mClientList.elems.foldl (clearClient cfg) b₁ = b₂ at *
  have hfire : KeepsPools (· ∈ (b.dataOf c).mServerList.elems) b₂
      (b₂.triggerList cfg .serverDisconnect (b.dataOf c).mServerList) :=
    keepsPools_sweep cfg false .serverDisconnect _ b₂
  have hgone : ∀ n ∈ (b₂.triggerList cfg .serverDisconnect
      (b.dataOf c).mServerList).notifications .serverDisconnect, n.active = true →
        n.partyID ∉ (b.dataOf c).mServerList.elems := by
    intro n hn hactive hparty
    rw [triggerList, notifications_sweep_fireIf] at hn
    simpa [hactive, hparty, OrderedSet.contains] using (List.mem_filter.mp hn).2
  generalize b₂.triggerList cfg .serverDisconnect (b.dataOf c).mServerList = b₃ at *
  have hbefore : KeepsPools (· ∈ (b.dataOf c).mServerList.elems) b b₃ :=
    (hservers.trans (hclients.keepsPools (by simp) (by simp) (by simp) (by simp))).trans hfire
  -- the notifications of the connection itself
  let rest : List Label := [.sweep .clientDetach, .sweep .serverDisconnect, .sweep .serverConnect,
    .sweep .serverListChange]
  have h₄ : Prims cfg rest b₃ _ := .single (by simp [rest])
    (prim_fireIf cfg .clientDetach (fun n => (b.dataOf c).mClientList.contains n.partyID) b₃)
  have h₅ := h₄.tail (by simp [rest]) (prim_removeNotificationsOf cfg .serverDisconnect c _)
  have h₆ := h₅.tail (by simp [rest]) (prim_removeNotificationsOf cfg .clientDetach c _)
  have h₇ := h₆.tail (by simp [rest]) (prim_removeNotificationsOf cfg .serverConnect c _)
  have h₈ := h₇.tail (by simp [rest]) (prim_removeNotificationsOf cfg .serverListChange c _)
  -- behind the loops over the servers nobody waits for one of them
  have hdone {b' : Broker} (hrest : Prims cfg rest b₃ b') (hfits : b'.nextPoolID ≤ 2 ^ 32) :
      MonitorInv cfg nobody b' := by
    refine h.leave (hbefore.trans (hrest.keepsPools (by simp [rest]) (by simp [rest])
      (by simp [rest]) (by simp [rest]))) hfits fun n hn hactive => ?_
    obtain ⟨m, hm, hd⟩ := hrest.inherits (k := .serverDisconnect) (by simp [rest]) n hn
    rw [hd.partyID]
    exact hgone m hm (hd.active hactive)
  split
  · next hany =>
    rw [if_pos hany] at hfits
    exact hdone (h₈.tail (by simp [rest]) (prim_listChange cfg false _ _)) hfits
  · next hnone =>
    rw [if_neg hnone] at hfits
    exact hdone h₈ hfits

/-- The client that is attached does not matter for the notification on its server. -/
theorem setsOwn_handleAttachLocalInterface (cfg : Config) (ctx : SocketConnectionContext)
    (entry : ServerListEntry) (serverID : SPartyID) (pulse : SFNDPulseInfo) (b : Broker) :
    (b.handleAttachLocalInterface cfg ctx entry).2.setsOwn cfg ctx serverID pulse =
      b.setsOwn cfg ctx serverID pulse := by
  unfold handleAttachLocalInterface addClient
  split
  · dsimp only
    split <;> rfl
  · rfl

theorem MonitorInv.handleAttachInterfaceExtended (h : MonitorInv cfg nobody b)
    {ctx : SocketConnectionContext} {pulse stackPulse : SFNDPulseInfo} {d : InterfaceDescription}
    (hown : b.requestOwn cfg ctx (.attachInterfaceExtended pulse d stackPulse) = true)
    (hfits : (b.handleAttachInterfaceExtended cfg ctx pulse d stackPulse).1.nextPoolID ≤ 2 ^ 32) :
    MonitorInv cfg nobody (b.handleAttachInterfaceExtended cfg ctx pulse d stackPulse).1 := by
  have hclient (entry : ServerListEntry) :
      KeepsPools nobody b (b.handleAttachLocalInterface cfg ctx entry).2 :=
    (prims_handleAttachLocalInterface cfg ctx entry b).keepsPools (by simp [attachLabels])
      (by simp [attachLabels]) (by simp [attachLabels]) (by simp [attachLabels])
  revert hfits
  refine handleAttachInterfaceExtended_leaves
    (I := fun b' => b'.nextPoolID ≤ 2 ^ 32 → MonitorInv cfg nobody b') (fun _ => h)
    (fun entry _ _ hfits => (hclient entry).inv hfits h) ?_ ?_ ?_
  · intro entry hcheck hfind hattached hfits
    have hset : b.setsOwn cfg ctx entry.partyID stackPulse = true := by
      rw [requestOwn, hcheck, hfind] at hown
      simpa [Option.isSome_iff_ne_none.mp hattached] using hown
    rw [← setsOwn_handleAttachLocalInterface cfg ctx entry] at hset
    have hnext := ((addsPool_notifyServerDisconnect cfg ctx entry.partyID stackPulse
      (b.handleAttachLocalInterface cfg ctx entry).2).prims
        (M := disconnectLabels ++ [.addPool]) (fun _ => List.mem_append_left _)
          (by simp)).nextPoolID_le
    have hclient := (hclient entry).inv (Nat.le_trans hnext hfits) h
    exact (hclient.notifyServerDisconnect hset hfits).inv
  · intro _ hfits
    exact ((prims_notifyServerAvailable cfg ctx pulse d b).keepsPools (by simp [availableLabels])
      (by simp [availableLabels]) (by simp [availableLabels]) (by simp [availableLabels])).inv
        hfits h
  · intro _ hfits
    exact (keepsPools_forwardAttachExtendedToMaster cfg ctx pulse d b).inv hfits h

theorem MonitorInv.dispatch (h : MonitorInv cfg nobody b) {ctx : SocketConnectionContext}
    {r : Request} (hown : b.requestOwn cfg ctx r = true)
    (hfits : (b.dispatch cfg ctx r).1.nextPoolID ≤ 2 ^ 32) :
    MonitorInv cfg nobody (b.dispatch cfg ctx r).1 := by
  have hprims := prims_dispatch cfg ctx r b
  cases r with
  | unregisterInterface serverID => exact h.handleUnregisterInterface ctx serverID hfits
  | attachInterfaceExtended => exact h.handleAttachInterfaceExtended hown hfits
  | notifyServerDisconnect serverID pulse =>
      have hset := h.notifyServerDisconnect hown
      simp only [Broker.dispatch, handleNotifyServerDisconnect] at hfits ⊢
      generalize b.handleNotifyServerDisconnectNoResponse cfg ctx serverID pulse = r at *
      split at hfits <;> exact (hset hfits).inv
  | _ =>
      refine (hprims.keepsPools ?_ ?_ ?_ ?_).inv hfits h <;>
        simp [requestLabels, registerLabels, attachLabels, detachLabels, clearLabels, listLabels,
          availableLabels]

/-- The master is lost: the pools go, and with them the notifications that were in one. -/
theorem MonitorInv.handleMasterDisconnected (h : MonitorInv cfg nobody b)
    (hown : ∀ n ∈ b.mServerDisconnectNotifications, n.poolID = 0 ∨
      n.active = true ∧ ¬ ServerThere b n.partyID) :
    MonitorInv cfg nobody (b.handleMasterDisconnected cfg) := by
  have hpools : (b.handleMasterDisconnected cfg).mMasterNotificationPool = [] :=
    pools_sweep_of_nil cfg false .clientDetach _
      (pools_sweep_of_nil cfg false .serverDisconnect _ rfl)
  have hnext : (b.handleMasterDisconnected cfg).nextPoolID = b.nextPoolID :=
    (nextPoolID_sweep cfg _ _ _ _).trans (nextPoolID_sweep cfg _ _ _ _)
  have hthere (id : SPartyID) (hid : ServerThere b id) :
      ServerThere (b.handleMasterDisconnected cfg) id := by
    have hids := ServerList.map_eq_of_cores (g := (·.partyID)) (by intros; rfl)
      (cores_handleMasterDisconnected cfg b)
    obtain ⟨e, he, rfl⟩ := hid
    exact List.mem_map.mp (hids ▸ List.mem_map_of_mem he)
  -- a disconnect notification that stays was in no pool
  have hstays : ∀ n ∈ (b.handleMasterDisconnected cfg).notifications .serverDisconnect,
      n ∈ b.notifications .serverDisconnect ∧ n.poolID = 0 := by
    intro n hn
    obtain ⟨hk, _⟩ | ⟨_, hold, hleft⟩ := mem_handleMasterDisconnected hn
    · cases hk
    · refine ⟨hold, by_contra fun hne => ?_⟩
      obtain ⟨hactive, hgone⟩ := (hown n hold).resolve_left hne
      obtain ⟨np, _, _, _, hm⟩ := h.exists_pool hold hne
      have hnone : (b.mConnectedServers.findID n.partyID).isNone = true := by
        rw [serverThere_iff_findID] at hgone
        simpa using hgone
      simp [outlives, lostWithMaster, hactive, Ne.symm hm.foreign, hnone] at hleft
  have hlive : ∀ n ∈ (b.handleMasterDisconnected cfg).live, n.poolID.toNat < b.nextPoolID := by
    intro n hn
    obtain ⟨k, hk⟩ := mem_live.mp hn
    obtain ⟨_, _, hzero⟩ | ⟨_, hold, _⟩ := mem_handleMasterDisconnected hk
    · rw [hzero]
      exact h.table.positive
    · exact h.table.refsBelow n (mem_live.mpr ⟨k, hold⟩)
  have hcells : Cells b.nextPoolID ((b.handleMasterDisconnected cfg).live.map (·.poolID)) [] :=
    ⟨List.nodup_nil, fun _ h => absurd h List.not_mem_nil, fun _ h => absurd h List.not_mem_nil,
      List.nodup_nil, fun _ h => absurd h List.not_mem_nil⟩
  have hnone (np : NotificationPoolEntry) :
      np ∉ (b.handleMasterDisconnected cfg).mMasterNotificationPool.monitors := by
    rw [hpools]
    exact List.not_mem_nil
  refine ⟨⟨?_, ?_, ?_, ?_⟩, fun np hnp => absurd hnp (hnone np),
    fun np hnp => absurd hnp (hnone np), fun n hn hne => absurd (hstays n hn).2 hne,
    fun n hn hactive => ?_⟩
  · rw [hpools, hnext]
    exact hcells
  · rw [hnext]
    exact hlive
  · rw [hnext]
    exact h.table.positive
  · exact (attachJobs_sweep cfg _ _ _ _).trans (attachJobs_sweep cfg _ _ _ _)
  · obtain ⟨hold, hzero⟩ := hstays n hn
    have hwaits := (h.waits n hold hactive).resolve_left (fun hno => hno)
    exact Or.inr (Or.inl (hthere _ (hwaits.resolve_right fun hne => hne hzero)))

end Handlers

/-! ## Steps -/

section Steps

variable {cfg : Config} {b : Broker}

theorem MonitorInv.workerStep (h : MonitorInv cfg nobody b) (w : WorkerStep) :
    MonitorInv cfg nobody (b.workerStep w) := by
  have hsame (b' : Broker) (hn : ∀ k, b'.notifications k = b.notifications k)
      (hp : b'.mMasterNotificationPool = b.mMasterNotificationPool)
      (hs : b'.mConnectedServers = b.mConnectedServers)
      (hnext : b'.nextPoolID = b.nextPoolID)
      (ha : b'.mPendingAttachExtendedJobs = b.mPendingAttachExtendedJobs)
      (hlog : b'.log = b.log) : MonitorInv cfg nobody b' :=
    h.poolStep (.of_eq (fun _ hid => .inr (by rwa [ServerThere, hs])) (hn _) (congrArg _ hp)
      (hlog ▸ List.prefix_rfl)) (h.table.congr hn hp hnext ha)
  simp only [Broker.workerStep, disconnectMaster]
  split <;> try exact hsame _ (fun _ => rfl) rfl rfl rfl rfl rfl
  split <;> exact hsame _ (fun _ => rfl) rfl rfl rfl rfl rfl

/-- The condition on a request that is dispatched. -/
theorem requestOwn_of_stepOwn {c : Nat} {r : Request} {k : Connection}
    (hown : stepOwn cfg b (.request c r) = true) (hk : b.conns c = some k)
    (hdeferred : k.deferred = false) :
    (b.request cfg c r).nextPoolID ≤ 2 ^ 32 ∧ b.requestOwn cfg (k.ctx c) r = true := by
  simp only [stepOwn, Bool.and_eq_true, decide_eq_true_eq, hk, hdeferred, Bool.false_or] at hown
  exact hown

theorem MonitorInv.step {e : Event} (h : MonitorInv cfg nobody b) (hown : stepOwn cfg b e = true) :
    MonitorInv cfg nobody (b.step cfg e) := by
  have hstep := hown
  unfold stepOwn at hown
  rw [Bool.and_eq_true, decide_eq_true_eq] at hown
  obtain ⟨hfits, hown⟩ := hown
  cases e with
  | connected nodeAddress localAddress uid =>
      exact ((prims_openConnection cfg nodeAddress localAddress uid b).keepsPools (by simp)
        (by simp) (by simp) (by simp)).inv hfits h
  | request c r =>
      simp only [Broker.step] at hfits ⊢
      obtain hsame | ⟨k, hk, hdeferred, _, hquiet⟩ := request_cases cfg c r b
      · rw [hsame]
        exact h
      · have hrequest := (requestOwn_of_stepOwn hstep hk hdeferred).2
        have hlast : KeepsPools nobody (b.dispatch cfg (k.ctx c) r).1 (b.request cfg c r) :=
          .of_quiet hquiet
        exact hlast.inv hfits (h.dispatch hrequest (Nat.le_trans hlast.next hfits))
  | closed c =>
      simp only [Broker.step, closeConnection] at hfits ⊢
      split
      · exact h
      · next k hk =>
        rw [hk] at hfits
        split
        · exact h
        · next hdeferred =>
          dsimp only at hfits
          rw [if_neg hdeferred] at hfits
          have hlast : KeepsPools nobody (b.clear cfg c) ((b.clear cfg c).setConnection c none) :=
            .of_quiet (quiet_setConnection c none _)
          exact hlast.inv hfits (h.clear c (Nat.le_trans hlast.next hfits))
  | pulse p value =>
      exact ((prims_dispatchPulse cfg p value b).keepsPools (by simp [pulseLabels])
        (by simp [pulseLabels]) (by simp [pulseLabels]) (by simp [pulseLabels])).inv hfits h
  | deliver =>
      obtain hsame | ⟨m, rest, hpipe, _, hdeliver⟩ := deliver_cases cfg b
      · rw [hsame]
        exact h
      · rw [hdeliver] at hfits ⊢
        dsimp only at hown
        rw [hpipe] at hown
        have h' : MonitorInv cfg nobody { b with pipe := rest } :=
          h.poolStep (.of_eq (fun _ hid => Or.inr hid) rfl rfl List.prefix_rfl)
            (h.table.congr (fun _ => rfl) rfl rfl rfl)
        cases m with
        | jobExecuted job res =>
            exact ((prims_handleJobFinished cfg job res h'.table.attachJobs).keepsPools
              (by simp [replyLabels]) (by simp [replyLabels]) (by simp [replyLabels])
              (by simp [replyLabels])).inv hfits h'
        | masterConnected =>
            have hprims : Prims cfg [.masterID, .forward] { b with pipe := rest }
                (Broker.handleMasterConnected cfg { b with pipe := rest }) :=
              (Prims.single (by simp) (.registerMaster _)).tail (by simp) (.forward _)
            exact (hprims.keepsPools (by simp) (by simp) (by simp) (by simp)).inv hfits h'
        | masterDisconnected =>
            refine h'.handleMasterDisconnected fun n hn => ?_
            have hlost := List.all_eq_true.mp hown n hn
            rw [serverThere_iff_findID]
            simpa using hlost
  | worker w => exact h.workerStep w

end Steps

/-! ## Runs -/

section Runs

variable {cfg : Config} {b : Broker}

theorem monitorInv_init (cfg : Config) : MonitorInv cfg nobody init where
  table :=
    { cells := ⟨List.nodup_nil, fun _ h => absurd h List.not_mem_nil,
        fun _ h => absurd h List.not_mem_nil, List.nodup_nil,
        fun _ h => absurd h List.not_mem_nil⟩
      refsBelow := fun _ h => absurd h List.not_mem_nil
      positive := by decide
      attachJobs := rfl }
  pools _ h := absurd h List.not_mem_nil
  unique _ h := absurd h List.not_mem_nil
  pooled _ h := absurd h List.not_mem_nil
  waits _ h := absurd h List.not_mem_nil

theorem MonitorInv.inOwnPool (h : MonitorInv cfg nobody b) {n : Notification}
    (hn : n ∈ b.notifications .serverDisconnect) (hne : n.poolID ≠ 0) : InOwnPool cfg b n := by
  obtain ⟨np, hnp, hid, hswitch, hm⟩ := h.exists_pool hn hne
  obtain ⟨hmem, hmonitor⟩ := mem_monitors.mp hnp
  exact ⟨np, hmem, hid, eq_of_beq hmonitor, hswitch, hm.asked⟩

/-- Both pulses for a pool on a server send its members. -/
theorem MonitorInv.step_pulse (h : MonitorInv cfg nobody b) {np : NotificationPoolEntry}
    (hnp : np ∈ b.mMasterNotificationPool) (hstate : np.mPoolState = .STATE_MONITOR_DISCONNECT)
    {p : MasterPulse} (hp : p = .PULSE_MASTER_SERVER_DISCONNECT ∨
      p = .PULSE_MASTER_ATTACH_EXTENDED) :
    b.step cfg (.pulse p np.poolID) = b.triggerPool cfg .serverDisconnect np.poolID := by
  rcases hp with rfl | rfl
  · rfl
  · simp only [Broker.step, dispatchPulse, handleMasterAttachExtended]
    cases hfind : b.mMasterNotificationPool.findPool np.poolID with
    | none =>
        have hnot := List.findIdx?_eq_none_iff.mp hfind np hnp
        simp at hnot
    | some pos =>
        obtain ⟨hlt, hid, _⟩ := List.findIdx?_eq_some_iff_getElem.mp hfind
        have hpos := List.getElem?_eq_getElem hlt
        generalize b.mMasterNotificationPool[pos] = np' at hpos hid
        have hsame : np' = np := List.inj_on_of_nodup_map h.table.cells.nodup
          (List.mem_of_getElem? hpos) hnp (of_decide_eq_true hid)
        have hat : b.poolStateAt pos = .STATE_MONITOR_DISCONNECT := by
          simp [poolStateAt, hpos, hsame, hstate]
        dsimp only
        rw [hat]

theorem MonitorInv.ownPools (h : MonitorInv cfg nobody b) : OwnPools cfg b where
  elsewhere _ hn hactive hgone := h.inOwnPool hn (h.ne_zero hn hactive hgone)
  pooled _ hn hne := h.inOwnPool hn hne
  pulses np hnp serverID hstate hswitch p hp := by
    obtain ⟨s, hm⟩ := h.pools np (mem_monitors.mpr ⟨hnp, by simp [isMonitor, hstate]⟩)
    obtain rfl : s = serverID := DataSwitch.serverID.inj (hm.switch.symm.trans hswitch)
    rw [h.step_pulse hnp hstate hp, triggerPool, sentIDs_sweep_fireIf, ids]
    congr 2
    refine List.filter_congr fun n hn => ?_
    cases hactive : n.active with
    | false => rfl
    | true =>
        have hiff : n.poolID = np.poolID ↔ n.partyID = s :=
          ⟨hm.members n hn, hm.all (fun hno => hno) n hn hactive⟩
        simp [hiff]

/-- Disconnect notifications of a slave, in every run in which they are set where they
belong.  In every state a notification on a server elsewhere is in the pool of exactly
that server, for which the master was asked, and a pulse of the master for a pool sends
the notifications on its server.  This is so from the answer to the request on. -/
theorem own_pools_of_along (cfg : Config) (es : List Event)
    (h : Run.Along (step cfg) (fun b e => stepOwn cfg b e = true) init es) :
    OwnPools cfg (Run.run (step cfg) init es) ∧
      ∀ pre c serverID pulse post id,
        es = pre ++ .request c (.notifyServerDisconnect serverID pulse) :: post →
        let b := Run.run (step cfg) init pre
        let b' := b.step cfg (.request c (.notifyServerDisconnect serverID pulse))
        Answers cfg b c (.notifyServerDisconnect serverID pulse) id →
        b.isMasterConnected cfg = true → serverID.extendedID ≠ cfg.mExtendedID →
        ¬ ServerThere b serverID →
          ∃ n ∈ b'.mServerDisconnectNotifications, n.notificationID = id ∧
            n.partyID = serverID ∧ n.active = true ∧ InOwnPool cfg b' n := by
  have hrun (pre post : List Event) (hes : es = pre ++ post) :
      MonitorInv cfg nobody (Run.run (step cfg) init pre) ∧
        Run.Along (step cfg) (fun b e => stepOwn cfg b e = true) (Run.run (step cfg) init pre)
          post := by
    rw [hes, Run.along_append] at h
    exact ⟨Run.invariant (fun _ _ hb he => hb.step he) (monitorInv_init cfg) h.1, h.2⟩
  refine ⟨(hrun es [] (by simp)).1.ownPools, ?_⟩
  intro pre c serverID pulse post id hes b b' hanswers hconnected hforeign hgone
  obtain ⟨hb, hpost⟩ := hrun pre _ hes
  have hb' : MonitorInv cfg nobody b' := hb.step hpost.1
  obtain ⟨k, hk, hdeferred, hresponse⟩ := hanswers
  obtain ⟨hfits, hown⟩ := requestOwn_of_stepOwn hpost.1 hk hdeferred
  have hquiet := quiet_request cfg (.notifyServerDisconnect serverID pulse) hk hdeferred rfl
  have hset := hb.notifyServerDisconnect hown
  simp only [Broker.dispatch, handleNotifyServerDisconnect] at hresponse hquiet
  generalize b.handleNotifyServerDisconnectNoResponse cfg (k.ctx c) serverID pulse = r at *
  split at hresponse
  · next id' hid =>
    obtain rfl : id' = id := by simpa [respond] using hresponse
    rw [hid] at hquiet
    obtain ⟨n, hn, hnid, hparty, hactive, hne⟩ := (hset (hquiet.nextPoolID ▸ hfits)).set id' hid
      hconnected hforeign hgone
    have hn' : n ∈ b'.notifications .serverDisconnect :=
      (hquiet.notifications .serverDisconnect).symm ▸ hn
    exact ⟨n, hn', hnid, hparty, hactive, hb'.inOwnPool hn' hne⟩
  · simp [fail, Response.status] at hresponse

/-- Two clients wait for one server elsewhere and one of them for another, which has
another local half.  The pulse for the first server reaches both. -/
theorem own_pools_two_servers :
    let es := slaveWithTwoClients ++
      [.request 1 (.notifyServerDisconnect ⟨5, 2001⟩ ⟨7, 0, 0, 0⟩),
        .request 2 (.notifyServerDisconnect ⟨6, 2002⟩ ⟨7, 0, 0, 0⟩),
        .request 2 (.notifyServerDisconnect ⟨5, 2001⟩ ⟨7, 0, 0, 0⟩)]
    let b := Run.run (step slaveConfig) init es
    b.mServerDisconnectNotifications.map (fun n => (n.partyID, n.poolID)) =
        [(⟨5, 2001⟩, 100000), (⟨6, 2002⟩, 100001), (⟨5, 2001⟩, 100000)] ∧
      (b.step slaveConfig (.pulse .PULSE_MASTER_SERVER_DISCONNECT 100000)).sentIDs = [3, 1] ∧
      OwnPools slaveConfig b :=
  ⟨by decide, by decide, (own_pools_of_along _ _ (by decide)).1⟩

/-- Two servers of different slaves have the same local half.  The notification on the
second joins the pool of the first, so the master is never asked for the second, and the
pulse for the first sends the notifications on both. -/
theorem not_ownPools_same_local_id :
    let es := slaveWithTwoClients ++
      [.request 1 (.notifyServerDisconnect ⟨5, 2001⟩ ⟨7, 0, 0, 0⟩),
        .request 2 (.notifyServerDisconnect ⟨5, 2002⟩ ⟨7, 0, 0, 0⟩)]
    let b := Run.run (step slaveConfig) init es
    b.mMasterNotificationPool.map (fun np => (np.poolID, np.mDataSwitch)) =
        [(100000, .serverID ⟨5, 2001⟩)] ∧
      b.mServerDisconnectNotifications.map (fun n => (n.partyID, n.poolID)) =
        [(⟨5, 2002⟩, 100000), (⟨5, 2001⟩, 100000)] ∧
      (b.step slaveConfig (.pulse .PULSE_MASTER_SERVER_DISCONNECT 100000)).sentIDs = [2, 1] ∧
      ¬ OwnPools slaveConfig b := by
  intro es b
  refine ⟨by decide, by decide, by decide, fun h => ?_⟩
  have hpooled : ∀ n ∈ b.mServerDisconnectNotifications, n.poolID ≠ 0 →
      ∃ np ∈ b.mMasterNotificationPool, np.poolID = n.poolID ∧
        np.mDataSwitch = .serverID n.partyID := by
    intro n hn hne
    obtain ⟨np, hnp, hid, _, hswitch, _⟩ := h.pooled n hn hne
    exact ⟨np, hnp, hid, hswitch⟩
  revert hpooled
  decide

end Runs

end Broker

end Dsi
