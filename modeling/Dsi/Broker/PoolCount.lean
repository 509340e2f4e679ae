import Dsi.Broker.Live
import Dsi.Lib.RefCount
import Dsi.Lib.Run

/-!
# Dsi.Broker.PoolCount

Reference counting of the notification pools.  The live notifications are the
references, the pools the cells; `RefCount.Counted` is kept by every update of
the broker but two: `forwardServerAvailableNotifications` puts notifications into
pools without counting them, and `handleMasterDisconnected` empties the pools and
leaves the disconnect notifications it does not send in them.
-/

namespace Dsi

open Sequence RefCount

namespace Broker

/-! ## The property -/

/-- Every pool counts its members, and every member has its pool. -/
structure PoolsCounted (b : Broker) : Prop where
  count : ∀ np ∈ b.mMasterNotificationPool,
    np.mRefCount = (b.live.filter (fun n => n.poolID = np.poolID)).length
  pool : ∀ n ∈ b.live, n.poolID ≠ 0 → ∃ np ∈ b.mMasterNotificationPool, np.poolID = n.poolID

/-- No pool counts more than the live notifications, which memory bounds far below 2 ^ 32. -/
theorem PoolsCounted.mRefCount_le {b : Broker} (h : PoolsCounted b) :
    ∀ np ∈ b.mMasterNotificationPool, np.mRefCount ≤ b.live.length := by
  intro np hnp
  rw [h.count np hnp]
  exact List.length_filter_le ..

/-- Clearing a member of a pool leaves the pool to a member that stays, and asks
the master for nothing. -/
def ClearKeepsPool (cfg : Config) (b : Broker) : Prop :=
  ∀ c id poolID, poolID ≠ 0 → (∀ n ∈ b.live, n.notificationID = id → n.poolID = poolID) →
    let b' := b.step cfg (.request c (.clearNotification id))
    (∃ n ∈ b'.live, n.poolID = poolID) →
      (∃ np ∈ b'.mMasterNotificationPool, np.poolID = poolID) ∧ b'.jobs = b.jobs

/-! ## The invariant -/

/-- The counting invariant of a list of references and the pools of a broker. -/
def CountedPools (refs : List UInt32) (pools : NotificationPool) : Prop :=
  Counted (fun np : NotificationPoolEntry => np.poolID) (·.mRefCount) 0 refs pools

/-- What the steps keep: the pools count the live notifications, and only connect
and disconnect notifications are in pools. -/
structure PoolInv (b : Broker) : Prop where
  counted : CountedPools (b.live.map (·.poolID)) b.mMasterNotificationPool
  unpooled : ∀ k, k ≠ .serverConnect → k ≠ .serverDisconnect →
    ∀ n ∈ b.notifications k, n.poolID = 0
  attachJobs : b.mPendingAttachExtendedJobs = []

/-- The invariant says what the property does. -/
theorem PoolInv.poolsCounted {b : Broker} (h : PoolInv b) : PoolsCounted b where
  count np hnp := by
    have hcount := h.counted.count_eq np hnp
    rw [List.count, List.countP_map, List.countP_eq_length_filter] at hcount
    simpa [Function.comp_def, BEq.beq] using hcount
  pool n hn hne := h.counted.exists_cell n.poolID (List.mem_map_of_mem hn) hne

/-- The notifications and the pools are all that counts. -/
theorem PoolInv.congr {b b' : Broker} (h : PoolInv b)
    (hn : ∀ k, b'.notifications k = b.notifications k)
    (hp : b'.mMasterNotificationPool = b.mMasterNotificationPool)
    (ha : b'.mPendingAttachExtendedJobs = b.mPendingAttachExtendedJobs) : PoolInv b' where
  counted := by rw [live_congr hn, hp]; exact h.counted
  unpooled k := by rw [hn k]; exact h.unpooled k
  attachJobs := ha.trans h.attachJobs

/-- A quiet change counts nothing. -/
theorem PoolInv.quiet {b b' : Broker} (h : PoolInv b) (hq : Quiet b b') : PoolInv b' :=
  h.congr hq.notifications hq.pools hq.attachJobs

/-! ## Leaving a pool -/

/-- A pool that a member leaves counts one less, or goes with the last one. -/
theorem countedPools_detachPool (cfg : Config) {refs : List UInt32} {b : Broker} {pos : Nat}
    {np : NotificationPoolEntry} (hnp : b.mMasterNotificationPool[pos]? = some np)
    (h : CountedPools (np.poolID :: refs) b.mMasterNotificationPool) :
    CountedPools refs (b.detachPool cfg pos).mMasterNotificationPool := by
  have hmem := List.mem_of_getElem? hnp
  have hlast := h.count_sub_one_eq_zero hmem
  unfold detachPool
  rw [hnp]
  dsimp only
  split
  · next hzero =>
    have hcounted := h.release_last (hlast.mp hzero)
    split
    · unfold createClearNotificationJob evalMaster
      split <;> exact hcounted
    · exact hcounted
  · exact h.release hnp (fun _ => ⟨rfl, rfl⟩)

/-- A pool that keeps a member asks the master for nothing. -/
theorem log_detachPool (cfg : Config) {refs : List UInt32} {b : Broker} {pos : Nat}
    {np : NotificationPoolEntry} (hnp : b.mMasterNotificationPool[pos]? = some np)
    (h : CountedPools (np.poolID :: refs) b.mMasterNotificationPool) (hmem : np.poolID ∈ refs) :
    (b.detachPool cfg pos).log = b.log := by
  have hlast := h.count_sub_one_eq_zero (List.mem_of_getElem? hnp)
  unfold detachPool
  rw [hnp]
  dsimp only
  rw [if_neg (fun hzero => hlast.mp hzero hmem)]
  rfl

/-- The list of a connection is in no pool. -/
theorem pools_unhost (n : Notification) (b : Broker) :
    (b.unhost n).mMasterNotificationPool = b.mMasterNotificationPool := by
  unfold unhost
  split <;> rfl

/-- Nothing is seen outside when an ID leaves the list of its connection. -/
theorem log_unhost (n : Notification) (b : Broker) : (b.unhost n).log = b.log := by
  unfold unhost
  split <;> rfl

/-- The pool of a counted member is found. -/
theorem exists_findPool {refs : List UInt32} {pools : NotificationPool} {poolID : UInt32}
    (h : CountedPools (poolID :: refs) pools) (hne : poolID ≠ 0) :
    ∃ pos np, pools.findPool poolID = some pos ∧ pools[pos]? = some np ∧ np.poolID = poolID := by
  obtain ⟨np, hnp, hkey⟩ := h.exists_cell poolID List.mem_cons_self hne
  have hsome : (pools.findPool poolID).isSome := by
    rw [NotificationPool.findPool, List.findIdx?_isSome, List.any_eq_true]
    exact ⟨np, hnp, decide_eq_true hkey⟩
  obtain ⟨pos, hpos⟩ := Option.isSome_iff_exists.mp hsome
  obtain ⟨hlt, hp, _⟩ := List.findIdx?_eq_some_iff_getElem.mp hpos
  exact ⟨pos, pools[pos], hpos, List.getElem?_eq_getElem hlt, of_decide_eq_true hp⟩

/-- A notification that goes leaves its pool. -/
theorem countedPools_destroy (cfg : Config) {refs : List UInt32} {n : Notification} {b : Broker}
    (h : CountedPools (n.poolID :: refs) b.mMasterNotificationPool) :
    CountedPools refs (b.destroy cfg n).mMasterNotificationPool := by
  rw [← pools_unhost n b] at h
  unfold destroy releaseMaster
  split
  · next hne =>
    obtain ⟨pos, np, hpos, hnp, hid⟩ := exists_findPool h hne
    rw [hpos]
    rw [← hid] at h
    exact countedPools_detachPool cfg hnp h
  · next h0 =>
    have h0 : n.poolID = 0 := Decidable.not_not.mp h0
    rw [h0] at h
    have hfree := h.of_cons_free
    split
    · unfold createClearNotificationJob evalMaster
      split <;> exact hfree
    · exact hfree

/-- A notification that leaves others in its pool asks the master for nothing. -/
theorem log_destroy (cfg : Config) {refs : List UInt32} {n : Notification} {b : Broker}
    (h : CountedPools (n.poolID :: refs) b.mMasterNotificationPool) (hne : n.poolID ≠ 0)
    (hmem : n.poolID ∈ refs) : (b.destroy cfg n).log = b.log := by
  rw [← pools_unhost n b] at h
  obtain ⟨pos, np, hpos, hnp, hid⟩ := exists_findPool h hne
  rw [destroy, releaseMaster, if_pos hne, hpos, ← log_unhost n b]
  rw [← hid] at h hmem
  exact log_detachPool cfg hnp h hmem

/-- The loops over a list keep the count; `refs` are the references outside the
part of the list that is still to come. -/
theorem countedPools_sweepLoop (cfg : Config) (once : Bool)
    (act : Broker → Notification → Action) (ns : List Notification) (refs : List UInt32)
    (b : Broker) (h : CountedPools (refs ++ ns.map (·.poolID)) b.mMasterNotificationPool) :
    CountedPools (refs ++ (sweepLoop cfg once act ns b).1.map (·.poolID))
      (sweepLoop cfg once act ns b).2.mMasterNotificationPool := by
  induction ns generalizing refs b with
  | nil => exact h
  | cons n ns ih =>
      -- the head of the list either joins `refs` or leaves its pool
      have hkeep : ∀ b', b'.mMasterNotificationPool = b.mMasterNotificationPool →
          CountedPools (refs ++ n.poolID :: (sweepLoop cfg once act ns b').1.map (·.poolID))
            (sweepLoop cfg once act ns b').2.mMasterNotificationPool := by
        intro b' hb'
        have h' := ih (refs ++ [n.poolID]) b' (by rw [hb']; simpa using h)
        simpa using h'
      have hleave : CountedPools (n.poolID :: (refs ++ ns.map (·.poolID)))
          b.mMasterNotificationPool := h.perm List.perm_middle
      obtain ⟨pulse, coid, hs⟩ := send_fst cfg n b
      have hsend := pools_send cfg n b
      rw [sweepLoop]
      split
      · exact hkeep b rfl
      · exact hkeep b rfl
      · dsimp only
        rw [hs]
        split
        · rw [hsend]
          exact h
        · exact hkeep _ hsend
      · have hfire : CountedPools (refs ++ ns.map (·.poolID))
            ((b.send cfg n).2.destroy cfg (b.send cfg n).1).mMasterNotificationPool := by
          refine countedPools_destroy cfg ?_
          rw [hs, hsend]
          exact hleave
        dsimp only
        split
        · exact hfire
        · exact ih refs _ hfire
      · have hdrop := countedPools_destroy cfg hleave
        dsimp only
        split
        · exact hdrop
        · exact ih refs _ hdrop

/-! ## Updates -/

/-- The list is put back behind the sweep, and the pools stay as it left them. -/
theorem pools_sweep (cfg : Config) (once : Bool) (k : NotificationKind)
    (act : Broker → Notification → Action) (b : Broker) :
    (b.sweep cfg once k act).mMasterNotificationPool =
      (sweepLoop cfg once act (b.notifications k) b).2.mMasterNotificationPool := by
  rw [sweep_eq]
  cases k <;> rfl

/-- A sweep takes every member that goes out of its pool. -/
theorem PoolInv.sweep (cfg : Config) (once : Bool) (k : NotificationKind)
    {act : Broker → Notification → Action} {b : Broker} (h : PoolInv b) :
    PoolInv (b.sweep cfg once k act) where
  counted := by
    have hlive := (b.live_perm k).map (·.poolID)
    have hswept := (live_sweep_perm cfg once k act b).map (·.poolID)
    rw [List.map_append] at hlive hswept
    rw [pools_sweep]
    exact (countedPools_sweepLoop cfg once act _ _ b (h.counted.perm hlive)).perm hswept.symm
  unpooled k' hc hd n hn := by
    obtain ⟨m, hm, pulse, coid, active, rfl, _⟩ := remains_of_mem_sweep cfg once k act b hn
    exact h.unpooled k' hc hd m hm
  attachJobs := (attachJobs_sweep cfg once k act b).trans h.attachJobs

/-- A new notification is in no pool. -/
theorem PoolInv.addNotification (cfg : Config) {k : NotificationKind}
    {ctx : SocketConnectionContext} {pulse : SFNDPulseInfo} {setup : Notification → Notification}
    (hs : Plain setup) {b : Broker} (h : PoolInv b) :
    PoolInv (b.addNotification cfg k ctx pulse setup).2 := by
  obtain ⟨a, p, coid, hadd | hadd⟩ := addNotification_cases cfg k ctx pulse setup b
  · have hzero : (setup (b.fresh ctx.mNodeAddress p coid)).poolID = 0 := (hs _).2.1
    rw [hadd]
    generalize setup (b.fresh ctx.mNodeAddress p coid) = n at hzero
    have hids := ((b.created a).live_cons_perm k n).map (·.poolID)
    rw [List.map_cons, hzero] at hids
    constructor
    case counted =>
      have hpools : ((b.created a).setNotifications k (n :: b.notifications k)
          ).mMasterNotificationPool = b.mMasterNotificationPool := by cases k <;> rfl
      rw [hpools]
      exact h.counted.cons_free.perm hids.symm
    case unpooled =>
      intro k' hc hd m hm
      rw [notifications_setNotifications] at hm
      split at hm
      · next hk =>
        cases List.mem_cons.mp hm with
        | inl he => rw [he, hzero]
        | inr hm => exact h.unpooled k (hk ▸ hc) (hk ▸ hd) m hm
      · exact h.unpooled k' hc hd m hm
    case attachJobs => cases k <;> exact h.attachJobs
  · rw [hadd]
    exact h.congr (fun _ => rfl) rfl rfl

/-- A notification that joins is counted. -/
theorem PoolInv.attachPool {b : Broker} (h : PoolInv b) {pos : Nat} {k : NotificationKind}
    {n : Notification} (hk : k = .serverConnect ∨ k = .serverDisconnect)
    (hn : b.findNotification k n.notificationID = some n) (h0 : n.poolID = 0)
    (hpos : pos < b.mMasterNotificationPool.length) :
    PoolInv (b.attachPool pos k n.notificationID) := by
  have hnp := List.getElem?_eq_getElem hpos
  generalize b.mMasterNotificationPool[pos] = np at hnp
  have hid : b.poolIDAt pos = np.poolID := by simp [poolIDAt, hnp]
  -- before: the notification is a free reference; after: one to the pool
  obtain ⟨refs, hbefore, hbehind⟩ := poolIDs_attachPool hn h0 pos
  rw [hid] at hbehind
  have hacquired := (h.counted.perm hbefore).acquire hnp
    (f := fun np => { np with mRefCount := np.mRefCount + 1 }) (fun _ => ⟨rfl, rfl⟩)
  constructor
  case counted =>
    have hpools : (b.attachPool pos k n.notificationID).mMasterNotificationPool =
        b.mMasterNotificationPool.modify pos
          (fun np => { np with mRefCount := np.mRefCount + 1 }) := by cases k <;> rfl
    rw [hpools]
    exact hacquired.perm hbehind.symm
  case unpooled =>
    intro k' hc hd m hm
    have hne : k' ≠ k := by
      rintro rfl
      cases hk with
      | inl hk => exact hc hk
      | inr hk => exact hd hk
    refine h.unpooled k' hc hd m ?_
    have hm : m ∈ (b.setNotifications k (modifyFirst (fun n' => n'.notificationID =
      n.notificationID) (fun n' => { n' with poolID := b.poolIDAt pos })
        (b.notifications k))).notifications k' := hm
    rwa [notifications_setNotifications, if_neg hne] at hm
  case attachJobs => cases k <;> exact h.attachJobs

/-- A new pool counts nobody. -/
theorem PoolInv.addPool {b : Broker} (h : PoolInv b) (hne : UInt32.ofNat b.nextPoolID ≠ 0)
    (hfresh : ∀ np ∈ b.mMasterNotificationPool, np.poolID ≠ UInt32.ofNat b.nextPoolID)
    (s : DataSwitch) (st : EPoolState) : PoolInv (b.addPool s st) where
  counted := h.counted.cons_cell rfl hne hfresh
  unpooled := h.unpooled
  attachJobs := h.attachJobs

/-- A list may be written as long as the pool IDs stay. -/
theorem PoolInv.setNotifications {b : Broker} (h : PoolInv b) {k : NotificationKind}
    {l : List Notification} (hl : l.map (·.poolID) = (b.notifications k).map (·.poolID)) :
    PoolInv (b.setNotifications k l) where
  counted := by
    have hpools : (b.setNotifications k l).mMasterNotificationPool =
        b.mMasterNotificationPool := by cases k <;> rfl
    rw [hpools]
    exact h.counted.perm (poolIDs_setNotifications hl)
  unpooled k' hc hd n hn := by
    rw [notifications_setNotifications] at hn
    split at hn
    · next hk =>
      have hmem : n.poolID ∈ (b.notifications k).map (·.poolID) :=
        hl ▸ List.mem_map_of_mem hn
      obtain ⟨m, hm, hid⟩ := List.mem_map.mp hmem
      rw [← hid]
      exact h.unpooled k (hk ▸ hc) (hk ▸ hd) m hm
    · exact h.unpooled k' hc hd n hn
  attachJobs := by cases k <;> exact h.attachJobs

/-- The updates that keep the count. -/
theorem PoolInv.prim {cfg : Config} {l : Label} {b b' : Broker} (h : PoolInv b)
    (hp : Prim cfg l b b') (hadd : l ≠ .addPool) (hforward : l ≠ .forward) : PoolInv b' := by
  cases hp with
  | quiet hq => exact h.quiet hq
  | addEntry _ c e next =>
      have h1 : PoolInv { b with
          mConnectedServers := b.mConnectedServers.add e, mNextServerID := next } :=
        h.congr (fun _ => rfl) rfl rfl
      have h2 := h1.quiet (quiet_modifyData c (·.addServer e.partyID) _)
      exact (h2.sweep cfg false .serverConnect).sweep cfg false .serverListChange
  | removeServer => exact h.congr (fun _ => rfl) rfl rfl
  | registerMaster =>
      obtain ⟨hn, _, _, hpools, hattach, _⟩ := registerInterfacesMaster_frame cfg b
      exact h.congr hn hpools hattach
  | setMasterID => exact h.congr (fun _ => rfl) rfl rfl
  | clients => exact h.congr (fun _ => rfl) rfl rfl
  | create _ _ _ _ hs => exact h.addNotification cfg hs
  | skip => exact h.congr (fun _ => rfl) rfl rfl
  | sweep _ once _ => exact h.sweep cfg once _
  | addPool => exact absurd rfl hadd
  | attach _ _ _ hk hn h0 hpos => exact h.attachPool hk hn h0 hpos
  | modifyPool _ pos hf =>
      exact ⟨h.counted.modify_cell pos (fun np => ⟨(hf np).1, (hf np).2.1⟩), h.unpooled,
        h.attachJobs⟩
  | storeMaster => exact h.setNotifications (map_modifyFirst (by intro; rfl) _)
  | forward => exact absurd rfl hforward

/-! ## When the count is kept -/

/-- Nothing waits that `forwardServerAvailableNotifications` would put into a pool. -/
def noneToForward (cfg : Config) (b : Broker) : Bool :=
  b.mServerConnectNotifications.all (fun n => !forwardEligible cfg n)

/-- The pulse channel of a new notification can be opened, or need not be yet. -/
def attaches (cfg : Config) (ctx : SocketConnectionContext) (pulse : SFNDPulseInfo) (b : Broker) :
    Bool :=
  !ctx.mSlave || cfg.attach b.attachCalls ctx.mNodeAddress pulse.pid pulse.chid

/-- A request to be notified of an available server does not reach
`forwardServerAvailableNotifications`, or finds nothing to put into a pool there,
not even its own notification. -/
def availableCounted (cfg : Config) (ctx : SocketConnectionContext) (pulse : SFNDPulseInfo)
    (d : InterfaceDescription) (b : Broker) : Bool :=
  cfg.isLocalService d.name || !b.isMasterConnected cfg ||
    (b.mConnectedServers.findDescription d).isSome || !attaches cfg ctx pulse b ||
    (!cfg.forwardService d.name && noneToForward cfg b)

/-- The next pool ID is not zero and not in use. -/
def poolIDFits (b : Broker) : Bool :=
  UInt32.ofNat b.nextPoolID != 0 &&
    b.mMasterNotificationPool.all (fun np => np.poolID != UInt32.ofNat b.nextPoolID)

/-- The condition on a request. -/
def requestCounted (cfg : Config) (ctx : SocketConnectionContext) (b : Broker) : Request → Bool
  | .notifyServerAvailable pulse d => availableCounted cfg ctx pulse d b
  | .notifyServerAvailableEx count records =>
      recordAlong (notifyAvailableRecord cfg ctx)
        (fun n b => availableCounted cfg ctx n.pulse n.ifDescription b) count.toInt.toNat records b
  | .notifyServerDisconnect _ _ => b.poolIDFits
  | .attachInterfaceExtended pulse d _ =>
      b.poolIDFits && (cfg.forwardService d.name || availableCounted cfg ctx pulse d b)
  | _ => true

/-- The disconnect notifications that `handleMasterDisconnected` sends. -/
def lostWithMaster (cfg : Config) (b : Broker) (n : Notification) : Bool :=
  n.active && cfg.mExtendedID ≠ n.partyID.extendedID &&
    (b.mConnectedServers.findID n.partyID).isNone

/-- The condition on a step: requests keep the count, nothing is forwarded
uncounted when the master is there again, and every disconnect notification in a
pool is sent when the master is lost. -/
def stepCounted (cfg : Config) (b : Broker) : Event → Bool
  | .request c r =>
      match b.conns c with
      | none => true
      | some k => k.deferred || requestCounted cfg (k.ctx c) b r
  | .deliver =>
      match b.pipe with
      | .masterConnected :: _ => !b.isMasterConnected cfg || noneToForward cfg b
      | .masterDisconnected :: _ =>
          b.mServerDisconnectNotifications.all (fun n => n.poolID = 0 || lostWithMaster cfg b n)
      | _ => true
  | _ => true

/-! ## Handlers -/

/-- Nothing is forwarded where no notification waits for the master. -/
theorem forwardLoop_of_none (cfg : Config) {ns : List Notification} (b : Broker)
    (h : ns.all (fun n => !forwardEligible cfg n) = true) : forwardLoop cfg ns b = (ns, [], b) := by
  induction ns with
  | nil => rfl
  | cons n ns ih =>
      rw [List.all_cons, Bool.and_eq_true] at h
      have hn : forwardEligible cfg n = false := by simpa using h.1
      rw [forwardLoop, hn, ih h.2]
      rfl

/-- So the broker stays as it is. -/
theorem forward_of_none {cfg : Config} {b : Broker} (h : noneToForward cfg b = true) :
    b.forwardServerAvailableNotifications cfg = b := by
  unfold forwardServerAvailableNotifications
  rw [forwardLoop_of_none cfg b h]
  split <;> rfl

/-- Updates that neither make a pool nor forward count right. -/
theorem PoolInv.prims {cfg : Config} {L : List Label} {b b' : Broker} (h : PoolInv b)
    (hadd : .addPool ∉ L) (hforward : .forward ∉ L) (hp : Prims cfg L b b') : PoolInv b' := by
  refine hp.preserves (fun l hl _ _ hprim hb => ?_) h
  exact hb.prim hprim (fun he => hadd (he ▸ hl)) (fun he => hforward (he ▸ hl))

/-- A new pool with a fresh ID counts right. -/
theorem PoolInv.addsPool {cfg : Config} {L : List Label} {b b' : Broker} (h : PoolInv b)
    (hadd : .addPool ∉ L) (hforward : .forward ∉ L) (hp : AddsPool cfg L b b')
    (hfits : b.poolIDFits = true) : PoolInv b' := by
  rw [poolIDFits, Bool.and_eq_true, List.all_eq_true] at hfits
  refine hp.preserves (fun l hl _ _ hprim hb => ?_) ?_ h
  · exact hb.prim hprim (fun he => hadd (he ▸ hl)) (fun he => hforward (he ▸ hl))
  · intro b₁ hpools hnext h₁ s st
    refine h₁.addPool (by simpa [hnext] using hfits.1) ?_ s st
    intro np hnp
    rw [hpools] at hnp
    simpa [hnext] using hfits.2 np hnp

/-- The connect notifications behind a new one. -/
theorem noneToForward_addDescription {cfg : Config} (ctx : SocketConnectionContext)
    (pulse : SFNDPulseInfo) {d : InterfaceDescription} {b : Broker}
    (hd : cfg.forwardService d.name = false) (h : noneToForward cfg b = true) (isLocal : Bool) :
    noneToForward cfg (b.addDescription cfg .serverConnect d ctx pulse isLocal).2 = true := by
  unfold addDescription
  obtain ⟨a, p, coid, hadd | hadd⟩ := addNotification_cases cfg .serverConnect ctx pulse
    (fun n => { n with ifDescription := d, host := some ctx.mId, isLocal := isLocal,
                       uid := ctx.mUid }) b
  · rw [hadd]
    have hnew : noneToForward cfg b = true := h
    simp only [noneToForward, setNotifications, notifications, List.all_cons, Bool.and_eq_true]
    exact ⟨by simp [forwardEligible, hd], hnew⟩
  · rw [hadd]
    exact h

/-- Where the pulse channel cannot be opened nothing is set. -/
theorem addNotification_of_not_attaches {cfg : Config} {ctx : SocketConnectionContext}
    {pulse : SFNDPulseInfo} {b : Broker} (h : attaches cfg ctx pulse b = false)
    (k : NotificationKind) (setup : Notification → Notification) :
    b.addNotification cfg k ctx pulse setup =
      (INVALID_NOTIFICATION_ID, b.created (b.attachCalls + 1)) := by
  simp only [attaches, Bool.or_eq_false_iff, Bool.not_eq_false'] at h
  unfold addNotification connect doConnect createNotification
  simp [h.1, h.2, created]

/-- A notification for an interface that is not forwarded. -/
theorem PoolInv.notifyServerAvailable {cfg : Config} {ctx : SocketConnectionContext}
    {pulse : SFNDPulseInfo} {d : InterfaceDescription} {b : Broker} (h : PoolInv b)
    (hc : availableCounted cfg ctx pulse d b = true) :
    PoolInv (b.handleNotifyServerAvailableNoResponse cfg ctx pulse d).2 := by
  have h1 := h.prim (prim_addDescription cfg .serverConnect d ctx pulse
    (cfg.isLocalService d.name) b) (by simp) (by simp)
  have hphase := phase_addNotification cfg .serverConnect ctx pulse (fun n => { n with
    ifDescription := d, host := some ctx.mId, isLocal := cfg.isLocalService d.name,
    uid := ctx.mUid }) b
  unfold handleNotifyServerAvailableNoResponse
  dsimp only
  split
  · exact h
  · split
    · exact h1
    · next hid =>
      have h2 := h1.quiet (quiet_modifyData ctx.mId (·.addNotification
        (b.addDescription cfg .serverConnect d ctx pulse (cfg.isLocalService d.name)).1) _)
      split
      · exact h2.sweep cfg false .serverConnect
      · split
        · next hentry hmaster =>
          have hattach : attaches cfg ctx pulse b = true := by
            by_contra hne
            exact hid (congrArg Prod.fst (addNotification_of_not_attaches (by simpa using hne) _ _))
          rw [Bool.and_eq_true, isMasterConnected] at hmaster
          have hmaster' : b.isMasterConnected cfg = true := by
            rw [isMasterConnected, ← hphase]
            exact hmaster.2
          have hlocal : cfg.isLocalService d.name = false := by simpa using hmaster.1
          have hnone : cfg.forwardService d.name = false ∧ noneToForward cfg b = true := by
            simpa [availableCounted, hmaster', hattach, hlocal, hentry] using hc
          have hfwd := noneToForward_addDescription ctx pulse hnone.1 hnone.2
            (cfg.isLocalService d.name)
          have heq := forward_of_none (b := modifyData ctx.mId (·.addNotification
            (b.addDescription cfg .serverConnect d ctx pulse (cfg.isLocalService d.name)).1)
              (b.addDescription cfg .serverConnect d ctx pulse (cfg.isLocalService d.name)).2) hfwd
          rw [heq]
          exact h2
        · exact h2

/-- An extended attach counts its notification in its pool. -/
theorem PoolInv.handleAttachInterfaceExtended {cfg : Config} {ctx : SocketConnectionContext}
    {pulse : SFNDPulseInfo} {d : InterfaceDescription} {b : Broker} (h : PoolInv b)
    (stackPulse : SFNDPulseInfo) (hfits : b.poolIDFits = true)
    (hc : cfg.forwardService d.name = true ∨ availableCounted cfg ctx pulse d b = true) :
    PoolInv (b.handleAttachInterfaceExtended cfg ctx pulse d stackPulse).1 := by
  unfold Broker.handleAttachInterfaceExtended
  split
  · split
    · next entry _ =>
      have h1 := h.prims (by simp [attachLabels]) (by simp [attachLabels])
        (prims_handleAttachLocalInterface cfg ctx entry b)
      have hfits' : (b.handleAttachLocalInterface cfg ctx entry).2.poolIDFits = true := by
        unfold handleAttachLocalInterface addClient
        split
        · dsimp only
          split <;> exact hfits
        · exact hfits
      dsimp only
      split
      · exact h1
      · have h2 := h1.addsPool (by simp [disconnectLabels]) (by simp [disconnectLabels])
          (addsPool_notifyServerDisconnect cfg ctx entry.partyID stackPulse _) hfits'
        split <;> exact h2
    · split
      · next hlocal =>
        have hc' : availableCounted cfg ctx pulse d b = true := by
          cases hc with
          | inl hf =>
              simp only [hf, Bool.not_true, Bool.or_false, Bool.or_eq_true] at hlocal
              simp only [availableCounted, Bool.or_eq_true]
              exact Or.inl (Or.inl (Or.inl hlocal))
          | inr hc => exact hc
        have h1 := h.notifyServerAvailable hc'
        dsimp only
        split <;> exact h1
      · exact h.addsPool (by simp [forwardAttachLabels]) (by simp [forwardAttachLabels])
          (addsPool_forwardAttachExtendedToMaster cfg ctx pulse d b) hfits
  · exact h

/-- A request whose notifications are counted. -/
theorem PoolInv.dispatch {cfg : Config} {ctx : SocketConnectionContext} {r : Request} {b : Broker}
    (h : PoolInv b) (hc : requestCounted cfg ctx b r = true) :
    PoolInv (b.dispatch cfg ctx r).1 := by
  have hprims := prims_dispatch cfg ctx r b
  cases r with
  | notifyServerAvailable pulse d =>
      have h1 := h.notifyServerAvailable hc
      simp only [Broker.dispatch, handleNotifyServerAvailable]
      split <;> exact h1
  | notifyServerAvailableEx count records =>
      have h1 := recordLoop_preserves_along (f := notifyAvailableRecord cfg ctx) (I := PoolInv)
        (fun n _ hn hs => hs.notifyServerAvailable hn) h hc
      simp only [Broker.dispatch, handleNotifyServerAvailableEx]
      split <;> exact h1
  | notifyServerDisconnect serverID pulse =>
      exact h.addsPool (by simp [disconnectLabels]) (by simp [disconnectLabels])
        (addsPool_handleNotifyServerDisconnect cfg ctx serverID pulse b) hc
  | attachInterfaceExtended pulse d stackPulse =>
      simp only [requestCounted, Bool.and_eq_true, Bool.or_eq_true] at hc
      exact h.handleAttachInterfaceExtended stackPulse hc.1 hc.2
  | _ =>
      refine h.prims ?_ ?_ hprims <;> simp [requestLabels, registerLabels, unregisterLabels,
        attachLabels, detachLabels, clearLabels, listLabels]

/-! ## The master is lost -/

/-- Without pools a notification that goes leaves none. -/
theorem pools_destroy_of_nil (cfg : Config) (n : Notification) {b : Broker}
    (h : b.mMasterNotificationPool = []) : (b.destroy cfg n).mMasterNotificationPool = [] := by
  rw [← pools_unhost n b] at h
  unfold destroy releaseMaster
  split
  · rw [h]
    exact h
  · split
    · unfold createClearNotificationJob evalMaster
      split <;> exact h
    · exact h

/-- Without pools a sweep makes none. -/
theorem pools_sweepLoop_of_nil (cfg : Config) (once : Bool)
    (act : Broker → Notification → Action) (ns : List Notification) {b : Broker}
    (h : b.mMasterNotificationPool = []) :
    (sweepLoop cfg once act ns b).2.mMasterNotificationPool = [] := by
  induction ns generalizing b with
  | nil => exact h
  | cons n ns ih =>
      have hsend := (pools_send cfg n b).trans h
      have hfire := pools_destroy_of_nil cfg (b.send cfg n).1 hsend
      have hdrop := pools_destroy_of_nil cfg n h
      rw [sweepLoop]
      split
      · exact ih h
      · exact ih h
      · dsimp only
        split
        · exact hsend
        · exact ih hsend
      · dsimp only
        split
        · exact hfire
        · exact ih hfire
      · dsimp only
        split
        · exact hdrop
        · exact ih hdrop

/-- So there is none behind it. -/
theorem pools_sweep_of_nil (cfg : Config) (once : Bool) (k : NotificationKind)
    (act : Broker → Notification → Action) {b : Broker} (h : b.mMasterNotificationPool = []) :
    (b.sweep cfg once k act).mMasterNotificationPool = [] := by
  rw [pools_sweep]
  exact pools_sweepLoop_of_nil cfg once act _ h

/-- Nothing is counted where nothing is in a pool. -/
theorem PoolInv.of_unpooled {b : Broker} (hp : b.mMasterNotificationPool = [])
    (hn : ∀ k, ∀ n ∈ b.notifications k, n.poolID = 0) (ha : b.mPendingAttachExtendedJobs = []) :
    PoolInv b where
  counted := by
    rw [hp]
    have hzero : ∀ r ∈ b.live.map (·.poolID), r = 0 := by
      intro r hr
      obtain ⟨n, hmem, rfl⟩ := List.mem_map.mp hr
      obtain ⟨k, hk⟩ := mem_live.mp hmem
      exact hn k n hk
    generalize b.live.map (·.poolID) = refs at hzero
    induction refs with
    | nil => exact Counted.nil
    | cons r refs ih =>
        rw [hzero r List.mem_cons_self]
        exact (ih (fun r hr => hzero r (List.mem_cons_of_mem _ hr))).cons_free
  unpooled k _ _ := hn k
  attachJobs := ha

/-- The notifications that the loss of the master leaves in a list. -/
def outlives (cfg : Config) (b : Broker) : NotificationKind → Notification → Bool
  | .serverDisconnect, n => !lostWithMaster cfg b n
  | .clientDetach, n => !(n.active && n.partyID.extendedID ≠ cfg.mExtendedID)
  | _, _ => true

/-- Behind the loss of the master a connect notification has forgotten it, and any other
one is left as it was. -/
theorem mem_handleMasterDisconnected {cfg : Config} {b : Broker} {k : NotificationKind}
    {n : Notification} (hn : n ∈ (b.handleMasterDisconnected cfg).notifications k) :
    (k = .serverConnect ∧ n.masterNotificationID = INVALID_NOTIFICATION_ID ∧ n.poolID = 0) ∨
      (k ≠ .serverConnect ∧ n ∈ b.notifications k ∧ outlives cfg b k n = true) := by
  unfold Broker.handleMasterDisconnected at hn
  generalize hb₁ : ({ b with
    mConnectedServers := b.mConnectedServers.clearMasterIDs
    mMasterNotificationPool := []
    mPendingRemoteServersRequests := []
    mPendingAttachExtendedJobs := [] } : Broker) = b₁ at hn
  have hnotes : ∀ k, b₁.notifications k = b.notifications k := by
    intro k
    rw [← hb₁]
    cases k <;> rfl
  have hlost : ∀ b', Frame b₁ b' → ∀ n, (if n.active ∧ cfg.mExtendedID ≠ n.partyID.extendedID ∧
      (b'.mConnectedServers.findID n.partyID).isNone then Action.fire else .keep) =
        if lostWithMaster cfg b n then .fire else .keep := by
    intro b' hf n
    have hnone : (b'.mConnectedServers.findID n.partyID).isNone =
        (b.mConnectedServers.findID n.partyID).isNone := by
      rw [hf.servers, ← hb₁]
      exact ServerList.isNone_findID_mapMasterID _ _ _
    simp only [hnone, lostWithMaster, Bool.and_eq_true, decide_eq_true_eq, and_assoc]
  dsimp only at hn
  rw [clearMasterNotification, mapNotifications, notifications_setNotifications] at hn
  split at hn
  · next hk =>
    obtain ⟨m, _, rfl⟩ := List.mem_map.mp hn
    exact .inl ⟨hk, rfl, rfl⟩
  · next hk =>
    refine .inr ⟨hk, ?_⟩
    cases k with
    | serverConnect => exact absurd rfl hk
    | serverDisconnect =>
        rw [triggerNotLocal, notifications_sweep_of_ne cfg _ _ _ _ (by decide),
          notifications_sweep, if_pos rfl, hnotes] at hn
        obtain ⟨m, hm, hres⟩ := mem_sweepLoop cfg hlost hn
        cases hl : lostWithMaster cfg b m with
        | true =>
            rw [if_pos hl] at hres
            cases hres <;> contradiction
        | false =>
            rw [hl] at hres
            cases hres with
            | kept => exact ⟨hm, by simp [outlives, hl]⟩
            | deactivated h => cases h
            | notified h => cases h
    | clientDetach =>
        rw [triggerNotLocal, notifications_sweep_fireIf,
          notifications_sweep_of_ne cfg _ _ _ _ (by decide), hnotes] at hn
        exact List.mem_filter.mp hn
    | serverListChange =>
        rw [triggerNotLocal, notifications_sweep_of_ne cfg _ _ _ _ (by decide),
          notifications_sweep_of_ne cfg _ _ _ _ (by decide), hnotes] at hn
        exact ⟨hn, rfl⟩

/-- With the master all pools go, and all their members. -/
theorem PoolInv.handleMasterDisconnected {cfg : Config} {b : Broker} (h : PoolInv b)
    (hc : ∀ n ∈ b.mServerDisconnectNotifications, n.poolID = 0 ∨ lostWithMaster cfg b n = true) :
    PoolInv (b.handleMasterDisconnected cfg) := by
  refine PoolInv.of_unpooled ?_ ?_ ?_
  · exact pools_sweep_of_nil cfg false .clientDetach _
      (pools_sweep_of_nil cfg false .serverDisconnect _ rfl)
  · intro k n hn
    obtain ⟨_, _, hzero⟩ | ⟨hk, hold, hleft⟩ := mem_handleMasterDisconnected hn
    · exact hzero
    · by_cases hd : k = .serverDisconnect
      · subst hd
        refine (hc n hold).resolve_right ?_
        intro hlost
        simp [outlives, hlost] at hleft
      · exact h.unpooled k hk hd n hold
  · exact (attachJobs_sweep cfg _ _ _ _).trans (attachJobs_sweep cfg _ _ _ _)

/-! ## Runs -/

/-- What the main thread takes out of the pipe. -/
theorem PoolInv.dispatchInternal {cfg : Config} {b : Broker} (h : PoolInv b)
    {m : InternalNotification}
    (hconn : m = .masterConnected → b.isMasterConnected cfg = true → noneToForward cfg b = true)
    (hdisc : m = .masterDisconnected → ∀ n ∈ b.mServerDisconnectNotifications,
      n.poolID = 0 ∨ lostWithMaster cfg b n = true) :
    PoolInv (b.dispatchInternal cfg m) := by
  cases m with
  | jobExecuted job res =>
      exact h.prims (by simp [replyLabels]) (by simp [replyLabels])
        (prims_handleJobFinished cfg job res h.attachJobs)
  | masterConnected =>
      have h1 : PoolInv (b.registerInterfacesMaster cfg) :=
        h.prim (.registerMaster b) (by simp) (by simp)
      have hforward : (b.registerInterfacesMaster cfg).forwardServerAvailableNotifications cfg =
          b.registerInterfacesMaster cfg := by
        rw [registerInterfacesMaster_eq]
        split
        · next hm => exact forward_of_none (hconn rfl hm)
        · next hm =>
          rw [forwardServerAvailableNotifications, if_neg hm]
      simp only [Broker.dispatchInternal, handleMasterConnected]
      rw [hforward]
      exact h1
  | masterDisconnected => exact h.handleMasterDisconnected (hdisc rfl)

/-- The worker has no pools. -/
theorem PoolInv.workerStep {b : Broker} (h : PoolInv b) (w : WorkerStep) :
    PoolInv (b.workerStep w) := by
  unfold Broker.workerStep disconnectMaster
  split <;> try exact h.congr (fun _ => rfl) rfl rfl
  dsimp only
  split <;> exact h.congr (fun _ => rfl) rfl rfl

/-- A step that is counted keeps the invariant. -/
theorem PoolInv.step {cfg : Config} {b : Broker} {e : Event} (h : PoolInv b)
    (hc : stepCounted cfg b e = true) : PoolInv (b.step cfg e) := by
  cases e with
  | connected nodeAddress localAddress uid => exact h.congr (fun _ => rfl) rfl rfl
  | request c r =>
      simp only [Broker.step, request]
      simp only [stepCounted] at hc
      split
      · exact h
      · next k hk =>
        rw [hk] at hc
        split
        · exact h
        · next hread =>
          have hdeferred : k.deferred = false := by simp_all
          have h1 := h.dispatch (r := r) (by simpa [hdeferred] using hc)
          split
          · exact h1.quiet (quiet_emit rfl _)
          · exact h1.quiet (quiet_setConnection _ _ _)
  | closed c =>
      exact h.prims (by simp [closeLabels]) (by simp [closeLabels]) (prims_closeConnection cfg c b)
  | pulse p value =>
      exact h.prims (by simp [pulseLabels]) (by simp [pulseLabels])
        (prims_dispatchPulse cfg p value b)
  | deliver =>
      obtain hsame | ⟨m, rest, hpipe, _, hstep⟩ := deliver_cases cfg b
      · rw [hsame]
        exact h
      · rw [hstep]
        simp only [stepCounted, hpipe] at hc
        have h1 : PoolInv { b with pipe := rest } := h.congr (fun _ => rfl) rfl rfl
        refine h1.dispatchInternal ?_ ?_
        · rintro rfl hm
          have hm : b.isMasterConnected cfg = true := hm
          have hnone : noneToForward cfg b = true := by simpa [hm] using hc
          exact hnone
        · rintro rfl n hn
          have hall : n.poolID = 0 ∨ lostWithMaster cfg b n = true := by
            simpa using List.all_eq_true.mp hc n hn
          exact hall
  | worker w => exact h.workerStep w

/-- At the beginning there are no pools. -/
theorem poolInv_init : PoolInv init := by
  refine PoolInv.of_unpooled rfl ?_ rfl
  intro k n hn
  cases k <;> exact absurd hn List.not_mem_nil

/-! ## Clearing one of several members -/

/-- The loop of `NotificationList::remove` hits a member of a pool that keeps
another one: nothing is sent. -/
theorem log_sweepLoop_remove (cfg : Config) {id poolID : UInt32} (hne : poolID ≠ 0)
    (ns : List Notification) (refs : List UInt32) (b : Broker)
    (h : CountedPools (refs ++ ns.map (·.poolID)) b.mMasterNotificationPool)
    (hid : ∀ n ∈ ns, n.notificationID = id → n.poolID = poolID) :
    let r := sweepLoop cfg true (fun _ n => if n.notificationID = id then .drop else .keep) ns b
    poolID ∈ refs ++ r.1.map (·.poolID) → r.2.log = b.log := by
  induction ns generalizing refs b with
  | nil => exact fun _ => rfl
  | cons n ns ih =>
      intro r hmem
      by_cases hn : n.notificationID = id
      · have hpool := hid n List.mem_cons_self hn
        have hr : r = (ns, b.destroy cfg n) := by simp [r, sweepLoop, hn]
        rw [hr] at hmem ⊢
        have hcounted := h.perm List.perm_middle
        exact log_destroy cfg hcounted (hpool ▸ hne) (hpool ▸ hmem)
      · have hr : r = (n :: (sweepLoop cfg true (fun _ n => if n.notificationID = id then .drop
            else .keep) ns b).1, (sweepLoop cfg true (fun _ n => if n.notificationID = id then .drop
            else .keep) ns b).2) := by simp [r, sweepLoop, hn]
        rw [hr] at hmem ⊢
        refine ih (refs ++ [n.poolID]) b (by simpa using h)
          (fun m hm => hid m (List.mem_cons_of_mem _ hm)) ?_
        simpa using hmem

/-- A member that leaves others in its pool asks the master for nothing. -/
theorem log_removeNotification {cfg : Config} {b : Broker} (h : PoolInv b) {id poolID : UInt32}
    (hne : poolID ≠ 0) (hid : ∀ n ∈ b.live, n.notificationID = id → n.poolID = poolID)
    {k : NotificationKind} (hmem : ∃ n ∈ (b.removeNotification cfg k id).live, n.poolID = poolID) :
    (b.removeNotification cfg k id).log = b.log := by
  have hlive := (b.live_perm k).map (·.poolID)
  rw [List.map_append] at hlive
  have hlog := log_sweepLoop_remove cfg hne (b.notifications k) _ b (h.counted.perm hlive)
    (fun n hn => hid n (mem_live.mpr ⟨k, hn⟩))
  obtain ⟨n, hn, hpool⟩ := hmem
  have hswept := (live_sweep_perm cfg true k (fun _ n => if n.notificationID = id then .drop
    else .keep) b).mem_iff.mp hn
  have hrefs := List.mem_map_of_mem (f := fun n : Notification => n.poolID) hswept
  rw [List.map_append, hpool] at hrefs
  have hsame := hlog hrefs
  unfold removeNotification
  rw [sweep_eq]
  cases k <;> exact hsame

/-- A loop brings no notification and no member. -/
theorem remains_of_mem_live_sweep {cfg : Config} {once : Bool} {k : NotificationKind}
    {act : Broker → Notification → Action} {b : Broker} {n' : Notification}
    (h : n' ∈ (b.sweep cfg once k act).live) : ∃ n ∈ b.live, Remains n n' := by
  obtain ⟨k', hk'⟩ := mem_live.mp h
  obtain ⟨n, hn, hr⟩ := remains_of_mem_sweep cfg once k act b hk'
  exact ⟨n, mem_live.mpr ⟨k', hn⟩, hr⟩

/-- So it is with the removals from all four lists. -/
theorem log_removeNotifications {cfg : Config} {id poolID : UInt32} (hne : poolID ≠ 0)
    (ks : List NotificationKind) {b : Broker} (h : PoolInv b)
    (hid : ∀ n ∈ b.live, n.notificationID = id → n.poolID = poolID) :
    let b' := ks.foldl (fun b k => b.removeNotification cfg k id) b
    (∃ n ∈ b'.live, n.poolID = poolID) → (∃ n ∈ b.live, n.poolID = poolID) ∧ b'.log = b.log := by
  induction ks generalizing b with
  | nil => exact fun hmem => ⟨hmem, rfl⟩
  | cons k ks ih =>
      intro b' hmem
      have h1 : PoolInv (b.removeNotification cfg k id) := h.sweep cfg true k
      have hid1 : ∀ n ∈ (b.removeNotification cfg k id).live, n.notificationID = id →
          n.poolID = poolID := by
        intro n hn hnid
        obtain ⟨m, hm, _, _, _, rfl, _⟩ := remains_of_mem_live_sweep hn
        exact hid m hm hnid
      obtain ⟨hmem1, hlog⟩ := ih h1 hid1 hmem
      have hlog1 := log_removeNotification h hne hid hmem1
      obtain ⟨n, hn, hpool⟩ := hmem1
      obtain ⟨m, hm, _, _, _, rfl, _⟩ := remains_of_mem_live_sweep hn
      exact ⟨⟨m, hm, hpool⟩, hlog.trans hlog1⟩

/-- A pool stays with its other members, and the master is asked for nothing. -/
theorem PoolInv.clearKeepsPool {cfg : Config} {b : Broker} (h : PoolInv b) :
    ClearKeepsPool cfg b := by
  intro c id poolID hne hid b' hmem
  have h' : PoolInv b' := h.step (by
    simp only [stepCounted, requestCounted]
    split <;> simp)
  constructor
  · obtain ⟨n, hn, hn'⟩ := hmem
    exact hn' ▸ h'.poolsCounted.pool n hn (hn' ▸ hne)
  clear h'
  revert hmem
  simp only [b', Broker.step, request, Broker.dispatch, handleClearNotification]
  split
  · exact fun _ => rfl
  · next k _ =>
    split
    · exact fun _ => rfl
    · by_cases hin : id ∈ (b.dataOf (k.ctx c).mId).mNotificationList
      · have h0 : PoolInv (b.modifyData c (·.removeNotification id)) :=
          h.quiet (quiet_modifyData _ _ b)
        simp only [if_pos hin, respond]
        intro hmem
        have hlog := (log_removeNotifications hne
          [.clientDetach, .serverDisconnect, .serverConnect, .serverListChange] h0 hid hmem).2
        simp only [jobs, emit, List.filterMap_append, List.filterMap_cons, Output.job?,
          List.filterMap_nil, List.append_nil]
        exact congrArg (List.filterMap Output.job?) hlog
      · simp [if_neg hin, fail, jobs, emit, Output.job?]

/-- In every run whose steps put no notification into a pool uncounted, take no
pool ID twice and lose no pool with a member, the pools count their members, and
clearing one of several members of a pool keeps the pool. -/
theorem pools_counted_of_along (cfg : Config) (es : List Event)
    (h : Run.Along (step cfg) (fun b e => stepCounted cfg b e = true) init es) :
    PoolsCounted (Run.run (step cfg) init es) ∧
      ClearKeepsPool cfg (Run.run (step cfg) init es) := by
  have hinv : PoolInv (Run.run (step cfg) init es) :=
    Run.invariant (I := PoolInv) (fun _ _ hb hc => hb.step hc) poolInv_init h
  exact ⟨hinv.poolsCounted, hinv.clearKeepsPool⟩

/-- A slave outside tree mode. -/
def slaveConfig : Config := { theId := 0, hasMaster := true }

/-- The master is connected, and two clients are there. -/
def slaveWithTwoClients : List Event :=
  [.worker .connect, .worker (.idPing true), .deliver, .connected 0 0 0, .connected 0 0 0]

/-- Two clients attach to the same unknown interface. -/
theorem pools_counted_two_attaches :
    let es := slaveWithTwoClients ++
      [.request 1 (.attachInterfaceExtended ⟨1, 0, 0, 0⟩ ⟨[65], 1, 0⟩ ⟨0, 0, 0, 0⟩),
        .request 2 (.attachInterfaceExtended ⟨2, 0, 0, 0⟩ ⟨[65], 1, 0⟩ ⟨0, 0, 0, 0⟩)]
    let b := Run.run (step slaveConfig) init es
    b.mMasterNotificationPool.map (·.mRefCount) = [2] ∧ PoolsCounted b ∧
      ClearKeepsPool slaveConfig b :=
  ⟨by decide, pools_counted_of_along _ _ (by decide)⟩

/-- Two clients wait for the same interface: its pool counts nobody, and goes
with the first of them. -/
theorem not_poolsCounted_two_waiters :
    let es := slaveWithTwoClients ++
      [.request 1 (.notifyServerAvailable ⟨1, 0, 0, 0⟩ ⟨[65], 1, 0⟩),
        .request 2 (.notifyServerAvailable ⟨2, 0, 0, 0⟩ ⟨[65], 1, 0⟩)]
    let b := Run.run (step slaveConfig) init es
    ¬ PoolsCounted b ∧ ¬ ClearKeepsPool slaveConfig b := by
  intro es b
  constructor
  · intro h
    have hcount : ∀ np ∈ b.mMasterNotificationPool,
        np.mRefCount = (b.live.filter (fun n => n.poolID = np.poolID)).length := h.count
    revert hcount
    decide
  · intro h
    have hclear := h 1 1 100000 (by decide) (by decide)
    revert hclear
    decide

end Broker

end Dsi
