import Dsi.Broker.PoolLeases
import Dsi.Broker.AttachExtended
import Dsi.Lib.Run

/-!
# Dsi.Broker.PoolGrants

The runs of a slave, with the IDs that the master has returned for pools and those that
were given back since the two are connected.  As long as the master returns new IDs that
are not the local IDs of other notifications, each of them is in its pool or was given
back exactly once, in whatever order replies, pulses and requests arrive.
-/

namespace Dsi

open Leases Sequence

namespace Broker

/-! ## The reply to a job -/

section Reply

variable {cfg : Config} {b : Broker} {pending : List UInt32} {granted : List (UInt32 × UInt32)}
  {released : List UInt32}

/-- The answer to a notification without a pool spares the IDs of the pools: it is cleared
under its local ID once the master knows it, and under the ID at the master if it is gone
already. -/
def sparesPools (granted : List (UInt32 × UInt32)) (k : NotificationKind) (id masterID : UInt32)
    (b : Broker) : Bool :=
  match b.findNotification k id with
  | some _ => masterID == INVALID_NOTIFICATION_ID || !(granted.map Prod.snd).contains id
  | none => !(granted.map Prod.snd).contains masterID

theorem leasedFrom_storeMaster {k : NotificationKind} {id masterID : UInt32}
    (h : Leased cfg pending granted released b)
    (hspares : b.sparesPools granted k id masterID = true) :
    LeasedFrom cfg pending granted released b (b.storeMasterNotification cfg k id masterID) := by
  unfold sparesPools at hspares
  unfold storeMasterNotification
  split
  · next found hfound =>
    simp only [hfound, Bool.or_eq_true, beq_iff_eq, Bool.not_eq_true', List.contains_eq_mem,
      decide_eq_false_iff_not] at hspares
    have hcases {k' : NotificationKind} {n' : Notification}
        (hn' : n' ∈ (b.modifyNotification k id
          (fun n => { n with masterNotificationID := masterID })).notifications k') :
        n' ∈ b.notifications k' ∨ n'.notificationID = id ∧ n'.masterNotificationID = masterID := by
      rw [modifyNotification, notifications_setNotifications] at hn'
      split at hn'
      · next hk =>
        rw [hk]
        refine (mem_modifyFirst hn').imp_right ?_
        rintro ⟨n, _, hid, rfl⟩
        exact ⟨of_decide_eq_true hid, rfl⟩
      · exact .inl hn'
    refine ⟨[], by cases k <;> exact (List.append_nil _).symm, ?_⟩
    simp only [List.flatMap_nil, List.filterMap_nil, List.append_nil]
    refine ⟨by cases k <;> exact h.sound, by cases k <;> exact h.counted,
      by cases k <;> exact h.asked, fun k' n' hn' hknown => ?_, by cases k <;> exact h.master⟩
    rcases hcases hn' with hold | ⟨hid, hmaster⟩
    · exact h.others k' n' hold hknown
    · rw [hid]
      exact hspares.resolve_left (hmaster ▸ hknown)
  · next hnone =>
    simp only [hnone, Bool.not_eq_true', List.contains_eq_mem, decide_eq_false_iff_not] at hspares
    exact leasedFrom_createClear { h with sound := h.sound.release hspares }

/-- The IDs of the notifications that are known to the master on their own. -/
def knownIDs (b : Broker) : List UInt32 :=
  (b.live.filter (·.masterNotificationID ≠ INVALID_NOTIFICATION_ID)).map (·.notificationID)

/-- The IDs were neither granted nor given back before, and no notification has one. -/
def returnsNew (granted : List (UInt32 × UInt32)) (released : List UInt32) (xs : List UInt32)
    (b : Broker) : Bool :=
  decide xs.Nodup && xs.all (fun x => !(granted.map Prod.snd).contains x && !released.contains x &&
    !(b.leases.map Prod.snd).contains (some x) && !b.knownIDs.contains x)

/-- The answers name the pools that were asked for, and whatever comes back, served or not,
leaves the IDs alone that were granted before. -/
def replyFits (granted : List (UInt32 × UInt32)) (job : Job) (res : JobResult) (b : Broker) :
    Bool :=
  match job.arg with
  | .notifyServerAvailableEx _ | .notifyServerDisconnect _ _ =>
      (job.answers res).map (·.cookie) == job.pools &&
        (job.answers res).all (fun r => !(granted.map Prod.snd).contains r.notificationID)
  | .notifyClientDetach _ _ => b.sparesPools granted .clientDetach job.cookie res.notificationID
  | .notifyInterfaceListChange _ | .notifyInterfaceListMatch _ _ =>
      b.sparesPools granted .serverListChange job.cookie res.notificationID
  | _ => true

theorem keepsLeases_finishRegisterRecord (b : Broker) (id : SPartyID) :
    KeepsLeases cfg b (finishRegisterRecord cfg b id) := by
  unfold finishRegisterRecord
  split
  · split
    · exact .refl b
    · exact .of_eq rfl rfl rfl rfl rfl
  · exact keepsLeases_unregisterInterfaceMaster cfg id b

/-- A result that is processed: no ID is granted with it. -/
theorem leasedFrom_jobReply {job : Job} {res : JobResult}
    (hattach : b.mPendingAttachExtendedJobs = [])
    (hcounter : (b.jobReply cfg job res).2.nextPoolID ≤ 2 ^ 32)
    (h : Leased cfg (job.pools ++ pending) granted released b)
    (hfits : b.replyFits granted job res = true) :
    LeasedFrom cfg pending granted released b (b.jobReply cfg job res).2 := by
  have hnotGranted {rs : List SFNDNotificationID}
      (hall : rs.all (fun r => !(granted.map Prod.snd).contains r.notificationID) = true) :
      ∀ r ∈ rs, r.notificationID ∉ granted.map Prod.snd := by
    simpa using hall
  have hplain (hno : job.pools = []) (hkeeps : KeepsLeases cfg b (b.jobReply cfg job res).2) :
      LeasedFrom cfg pending granted released b (b.jobReply cfg job res).2 := by
    rw [hno, List.nil_append] at h
    exact hkeeps.leased hcounter h
  unfold replyFits Job.answers at hfits
  cases harg : job.arg with
  | notifyServerAvailableEx records =>
      simp only [Job.pools, harg, Bool.and_eq_true, beq_iff_eq] at h hfits
      rw [← hfits.1] at h
      simp only [jobReply, harg]
      exact leasedFrom_finish h (hnotGranted hfits.2)
  | notifyServerDisconnect serverID pulse =>
      simp only [Job.pools, harg, Bool.and_eq_true] at h hfits
      have hnew := hnotGranted hfits.2 _ (List.mem_singleton_self _)
      simp only [jobReply, harg]
      by_cases hvalid : res.notificationID = INVALID_NOTIFICATION_ID
      · rw [hvalid] at hnew ⊢
        exact leasedFrom_store_invalid h hnew
      · exact leasedFrom_store h hvalid hnew
  | notifyClientDetach _ _ =>
      simp only [Job.pools, harg] at h hfits
      simp only [jobReply, harg]
      exact leasedFrom_storeMaster h hfits
  | notifyInterfaceListChange _ | notifyInterfaceListMatch _ _ =>
      simp only [Job.pools, harg] at h hfits
      simp only [jobReply, harg]
      exact leasedFrom_storeMaster h hfits
  | registerMasterInterfaceEx _ =>
      refine hplain (by simp only [Job.pools, harg]) ?_
      simp only [jobReply, harg]
      exact .foldl (fun b id => keepsLeases_finishRegisterRecord b id) _ b
  | attachInterfaceExtended _ _ =>
      refine hplain (by simp only [Job.pools, harg]) ?_
      simp only [jobReply, harg, handleJobFinishedAttachExtended_of_empty cfg job res hattach]
      exact .refl b
  | getServerInformation _ =>
      refine hplain (by simp only [Job.pools, harg]) ?_
      simp only [jobReply, harg]
      split
      · exact .of_eq rfl rfl rfl rfl rfl
      · exact .refl b
  | attachInterface _ =>
      refine hplain (by simp only [Job.pools, harg]) ?_
      simp only [jobReply, harg]
      exact .of_eq rfl rfl rfl rfl rfl
  | getInterfaceList _ | matchInterfaceList _ _ | detachInterface _ | unregisterInterface _
  | clearNotification _ =>
      refine hplain (by simp only [Job.pools, harg]) ?_
      simp only [jobReply, harg]
      exact .refl b

/-- A result with which the master returns new IDs. -/
theorem leasedFrom_jobReply_grant {job : Job} {res : JobResult}
    (hattach : b.mPendingAttachExtendedJobs = [])
    (hcounter : (b.jobReply cfg job res).2.nextPoolID ≤ 2 ^ 32)
    (h : Leased cfg (job.pools ++ pending) granted released b)
    (hfits : b.replyFits granted job res = true)
    (hnew : b.returnsNew granted released ((grantsOf (job.answers res)).map Prod.snd) = true)
    (hmaster : b.isMasterConnected cfg = true) :
    LeasedFrom cfg pending (granted ++ grantsOf (job.answers res)) released b
      (b.jobReply cfg job res).2 := by
  by_cases hnone : grantsOf (job.answers res) = []
  · rw [hnone, List.append_nil]
    exact leasedFrom_jobReply hattach hcounter h hfits
  -- all answers are stored as the records of a batch are
  have hreply : (b.jobReply cfg job res).2 =
      (job.answers res).foldl (finishAvailableRecord cfg) b := by
    unfold Job.answers at hnone ⊢
    unfold jobReply
    cases harg : job.arg with
    | notifyServerDisconnect _ _ =>
        simp only [harg] at hnone ⊢
        have hvalid : res.notificationID ≠ INVALID_NOTIFICATION_ID := by
          rintro hinvalid
          exact hnone (by simp [grantsOf, hinvalid])
        exact (if_neg hvalid).symm
    | notifyServerAvailableEx _ => rfl
    | _ => exact absurd (by simp only [harg]; rfl) hnone
  have hcookies : (job.answers res).map (·.cookie) = job.pools := by
    unfold replyFits Job.answers at hfits
    unfold Job.answers at hnone ⊢
    cases harg : job.arg with
    | notifyServerAvailableEx _ | notifyServerDisconnect _ _ =>
        simp only [harg, Bool.and_eq_true, beq_iff_eq] at hfits
        exact hfits.1
    | _ => exact absurd (by simp only [harg]; rfl) hnone
  rw [hreply]
  rw [← hcookies] at h
  simp only [returnsNew, Bool.and_eq_true, decide_eq_true_eq, List.all_eq_true,
    Bool.not_eq_true', List.contains_eq_mem, decide_eq_false_iff_not] at hnew
  obtain ⟨hnodup, hall⟩ := hnew
  have hfresh : ∀ x ∈ (grantsOf (job.answers res)).map Prod.snd, b.freshAt granted released x := by
    intro x hx
    obtain ⟨⟨⟨hgranted, hreleased⟩, hheld⟩, _⟩ := hall x hx
    exact ⟨hgranted, hreleased, hheld⟩
  refine leasedFrom_finish_grant h hnodup hfresh (fun k n hn hknown hx => ?_) hmaster
  refine (hall _ hx).2 (List.mem_map.mpr ⟨n, List.mem_filter.mpr ⟨?_, by simpa using hknown⟩, rfl⟩)
  exact mem_live.mpr ⟨k, hn⟩

end Reply

/-! ## Steps of the main thread -/

section Steps

variable {cfg : Config} {b b' : Broker} {pending : List UInt32}
  {granted : List (UInt32 × UInt32)} {released : List UInt32}

/-- The IDs that were granted are of no interest any more. -/
theorem Leased.reset (h : Leased cfg pending granted released b) (released' : List UInt32) :
    Leased cfg pending [] released' b where
  sound := h.sound.restart released'
  counted := h.counted
  asked := h.asked
  others _ _ _ _ hx := by cases hx
  master := .inl rfl

theorem keepsLeases_request (c : Nat) (r : Request) (b : Broker) :
    KeepsLeases cfg b (b.request cfg c r) := by
  unfold request
  split
  · exact .refl b
  · next k _ =>
    split
    · exact .refl b
    · have hdispatch := keepsLeases_dispatch cfg (k.ctx c) r b
      dsimp only
      split
      · exact hdispatch.trans (.of_eq rfl rfl rfl rfl rfl)
      · exact hdispatch.trans (.of_eq rfl rfl rfl rfl rfl)

theorem keepsLeases_closeConnection (c : Nat) (b : Broker) :
    KeepsLeases cfg b (b.closeConnection cfg c) := by
  unfold closeConnection
  split
  · exact .refl b
  · split
    · exact .refl b
    · exact (keepsLeases_clear cfg c b).trans (.of_eq rfl rfl rfl rfl rfl)

theorem keepsLeases_handleMasterConnected (b : Broker) :
    KeepsLeases cfg b (b.handleMasterConnected cfg) :=
  (keepsLeases_registerInterfacesMaster cfg b).trans (keepsLeases_forward _)

theorem keepsLeases_finalize (job : Job) (r : JobReply) (b : Broker) :
    KeepsLeases cfg b (b.finalize job r) := by
  unfold finalize
  split
  · exact .refl b
  · split
    · exact .refl b
    · exact .of_eq rfl rfl rfl rfl rfl

theorem link_finalize (job : Job) (r : JobReply) (b : Broker) :
    (b.finalize job r).pipe = b.pipe ∧ (b.finalize job r).executing = b.executing := by
  unfold finalize
  split
  · exact ⟨rfl, rfl⟩
  · split <;> exact ⟨rfl, rfl⟩

theorem link_handleJobFinished (cfg : Config) (job : Job) (res : JobResult) {b : Broker}
    (hattach : b.mPendingAttachExtendedJobs = []) :
    (b.handleJobFinished cfg job res).pipe = b.pipe ∧
      (b.handleJobFinished cfg job res).executing = b.executing := by
  unfold handleJobFinished
  split
  · have hcalm := calm_jobReply cfg job res hattach
    obtain ⟨hpipe, hexec⟩ := link_finalize job (b.jobReply cfg job res).1 (b.jobReply cfg job res).2
    exact ⟨hpipe.trans hcalm.pipe, hexec.trans hcalm.executing⟩
  · exact link_finalize job _ b

/-- A result that is processed and answered: no ID is granted with it. -/
theorem leasedFrom_handleJobFinished {job : Job} {res : JobResult}
    (hattach : b.mPendingAttachExtendedJobs = [])
    (hcounter : (b.handleJobFinished cfg job res).nextPoolID ≤ 2 ^ 32)
    (h : Leased cfg (job.pools ++ pending) granted released b)
    (hfits : res.status = 0 → b.replyFits granted job res = true) :
    LeasedFrom cfg pending granted released b (b.handleJobFinished cfg job res) := by
  unfold handleJobFinished at hcounter ⊢
  split at hcounter
  · next hstatus =>
    rw [if_pos hstatus]
    have hkeeps : KeepsLeases cfg (b.jobReply cfg job res).2 _ :=
      keepsLeases_finalize job (b.jobReply cfg job res).1 _
    have hreply := leasedFrom_jobReply hattach (Nat.le_trans hkeeps.next hcounter) h (hfits hstatus)
    exact hreply.trans fun hb => hkeeps.leased hcounter hb
  · next hstatus =>
    rw [if_neg hstatus]
    have hforget : Leased cfg pending granted released b :=
      h.of_ledger (h.sound.forget (List.sublist_append_right _ _)) rfl
        (List.subset_append_right _ _) rfl rfl h.others h.master
    exact (keepsLeases_finalize job _ b).leased hcounter hforget

/-- A successful job that brings new IDs. -/
theorem leasedFrom_handleJobFinished_grant {job : Job} {res : JobResult}
    (hattach : b.mPendingAttachExtendedJobs = [])
    (hcounter : (b.handleJobFinished cfg job res).nextPoolID ≤ 2 ^ 32)
    (h : Leased cfg (job.pools ++ pending) granted released b) (hstatus : res.status = 0)
    (hfits : b.replyFits granted job res = true)
    (hnew : b.returnsNew granted released ((grantsOf (job.answers res)).map Prod.snd) = true)
    (hmaster : b.isMasterConnected cfg = true) :
    LeasedFrom cfg pending (granted ++ grantsOf (job.answers res)) released b
      (b.handleJobFinished cfg job res) := by
  unfold handleJobFinished at hcounter ⊢
  rw [if_pos hstatus] at hcounter ⊢
  have hkeeps : KeepsLeases cfg (b.jobReply cfg job res).2 _ :=
    keepsLeases_finalize job (b.jobReply cfg job res).1 _
  have hreply := leasedFrom_jobReply_grant hattach (Nat.le_trans hkeeps.next hcounter) h hfits hnew
    hmaster
  exact hreply.trans fun hb => hkeeps.leased hcounter hb

/-- The pools are gone with the master; whatever asks for one still is answered. -/
theorem leasedFrom_handleMasterDisconnected (h : Leased cfg pending [] released b)
    (hcounter : (b.handleMasterDisconnected cfg).nextPoolID ≤ 2 ^ 32) :
    LeasedFrom cfg pending [] released b (b.handleMasterDisconnected cfg) := by
  unfold handleMasterDisconnected at hcounter ⊢
  dsimp only at hcounter ⊢
  generalize hb₀ : ({ b with
    mConnectedServers := b.mConnectedServers.clearMasterIDs
    mMasterNotificationPool := []
    mPendingRemoteServersRequests := []
    mPendingAttachExtendedJobs := [] } : Broker) = b₀ at hcounter
  have hwiped : Leased cfg pending [] released b₀ := by
    subst hb₀
    exact ⟨h.sound.wipe released, fun e he => (by cases he), h.asked,
      fun _ _ _ _ hx => (by cases hx),
      .inl rfl⟩
  have hqueue : b₀.mQueue = b.mQueue := by
    subst hb₀
    rfl
  have hclear (b : Broker) : KeepsLeases cfg b (b.clearMasterNotification .serverConnect) := by
    refine .of_quiet rfl rfl rfl (fun k n' hn' hknown => ?_) rfl
    rw [clearMasterNotification, mapNotifications, notifications_setNotifications] at hn'
    split at hn'
    · obtain ⟨n, _, rfl⟩ := List.mem_map.mp hn'
      exact absurd rfl hknown
    · exact ⟨n', hn', hknown, rfl⟩
  have hkeeps : KeepsLeases cfg b₀ _ := ((keepsLeases_sweep false .serverDisconnect (fun b n =>
    if n.active ∧ cfg.mExtendedID ≠ n.partyID.extendedID ∧
      (b.mConnectedServers.findID n.partyID).isNone then .fire else .keep) b₀).trans
    (keepsLeases_sweep false .clientDetach
      (fireIf (fun n => n.partyID.extendedID ≠ cfg.mExtendedID)) _)).trans (hclear _)
  obtain ⟨js, hq, hdone⟩ := hkeeps.leased hcounter hwiped
  exact ⟨js, hqueue ▸ hq, hdone⟩

end Steps

/-! ## Runs -/

/-- The pools for which the answer of the master was not processed yet. -/
def asked (b : Broker) : List UInt32 := b.jobsInFlight.flatMap Job.pools

/-- There is no master, or its loss is not reported yet. -/
def lost (cfg : Config) (b : Broker) : Bool := !b.isMasterConnected cfg || b.pipe.any isLoss

/-- The pools and the IDs that a successful job brings back for them. -/
def InternalNotification.grants : InternalNotification → List (UInt32 × UInt32)
  | .jobExecuted job res =>
      if res.status = 0 ∧ res.ret_val = SBStatus.FNDOK.toInt then grantsOf (job.answers res) else []
  | .masterConnected | .masterDisconnected => []

/-- The IDs that the master returns for pools with this step. -/
def granted (b : Broker) : Event → List (UInt32 × UInt32)
  | .deliver => (b.delivered.map InternalNotification.grants).getD []
  | _ => []

/-- The IDs for which this step queues a clear job. -/
def released (cfg : Config) (b : Broker) : Event → List UInt32
  | .worker _ => []
  | e => ((b.step cfg e).mQueue.drop b.mQueue.length).filterMap Job.clears?

end Broker

/-- A broker, with the IDs that were granted to its pools and those that it gave back since
it is connected to the master. -/
structure PoolGrants where
  broker : Broker := {}
  granted : List (UInt32 × UInt32) := []
  released : List UInt32 := []

namespace PoolGrants

open Broker

/-- One step of the process. -/
def step (cfg : Config) (s : PoolGrants) (e : Event) : PoolGrants :=
  let b := s.broker.step cfg e
  if b.lost cfg then ⟨b, [], []⟩
  else ⟨b, s.granted ++ s.broker.granted e, s.released ++ s.broker.released cfg e⟩

/-- Every ID that was granted is with the live pool that it was requested for, or exactly
one clear job was queued for it. -/
def NoneLost (s : PoolGrants) : Prop :=
  ∀ g ∈ s.granted,
    (∃ np ∈ s.broker.mMasterNotificationPool, np.poolID = g.1 ∧ np.notificationID = g.2) ∨
      s.released.count g.2 = 1

-- by the list: a search through all pairs of numbers would decide it as well
instance (s : PoolGrants) : Decidable s.NoneLost :=
  List.decidableBAll (fun g : UInt32 × UInt32 => (∃ np ∈ s.broker.mMasterNotificationPool,
    np.poolID = g.1 ∧ np.notificationID = g.2) ∨ s.released.count g.2 = 1) s.granted

/-- The condition on a step: at most 2^32 pools are created, and the results of the jobs
leave the IDs alone that were granted before; those that come with a result are new. -/
def stepFits (cfg : Config) (s : PoolGrants) (e : Event) : Bool :=
  decide ((s.broker.step cfg e).nextPoolID ≤ 2 ^ 32) &&
    match e, s.broker.pipe with
    | .deliver, .jobExecuted job res :: _ =>
        res.status != 0 || s.broker.replyFits s.granted job res && (s.broker.lost cfg ||
          s.broker.returnsNew s.granted s.released ((s.broker.granted e).map Prod.snd))
    | _, _ => true

/-- The ledger is sound, and empty without a master. -/
structure Accounted (cfg : Config) (s : PoolGrants) : Prop where
  peers : Peers (fun _ _ => True) s.broker
  leased : Leased cfg s.broker.asked s.granted s.released s.broker
  lost : s.broker.lost cfg = true → s.granted = []

namespace Accounted

variable {cfg : Config} {s : PoolGrants} {e : Event}

theorem init (cfg : Config) : Accounted cfg {} where
  peers := ⟨rfl, by simp⟩
  leased := ⟨⟨List.nodup_nil, List.nodup_nil, fun _ hk => (by cases hk), List.nodup_nil,
    fun _ hg => (by cases hg), fun _ hg => (by cases hg)⟩, fun _ he => (by cases he),
    fun _ hp => (by cases hp), fun k _ hn => (by cases k <;> cases hn), .inl rfl⟩
  lost _ := rfl

theorem noneLost (h : Accounted cfg s) : s.NoneLost := by
  intro g hg
  refine (h.leased.sound.settled g hg).imp_left fun hheld => ?_
  obtain ⟨np, hnp, hlease⟩ := List.mem_map.mp hheld
  obtain ⟨hid, hname⟩ := Prod.mk.inj hlease
  refine ⟨np, hnp, hid, ?_⟩
  split at hname
  · cases hname
  · exact Option.some.inj hname

/-- The main thread has done its part from `b₀` on, and the ledger is kept. -/
theorem settle (hs : Accounted cfg s) (b₀ : Broker) {granted' : List (UInt32 × UInt32)}
    (hpipe : (s.broker.step cfg e).pipe = b₀.pipe)
    (hexec : (s.broker.step cfg e).executing = b₀.executing)
    (hleased : LeasedFrom cfg b₀.asked granted' s.released b₀ (s.broker.step cfg e))
    (hreleased : s.broker.released cfg e =
      ((s.broker.step cfg e).mQueue.drop b₀.mQueue.length).filterMap Job.clears?)
    (hgranted : (s.broker.step cfg e).lost cfg = false →
      granted' = s.granted ++ s.broker.granted e) : Accounted cfg (s.step cfg e) := by
  have hpeers : Peers _ (s.broker.step cfg e) := hs.peers.step (fun _ _ _ _ => trivial)
  obtain ⟨js, hq, hleased⟩ := hleased
  have hasked : (s.broker.step cfg e).asked = b₀.asked ++ js.flatMap Job.pools := by
    rw [asked, asked, jobsInFlight, jobsInFlight, hpipe, hexec, hq, ← List.append_assoc,
      List.flatMap_append]
  rw [hq, List.drop_left] at hreleased
  rw [← hasked] at hleased
  unfold PoolGrants.step
  dsimp only
  split
  · next hlost => exact ⟨hpeers, hleased.reset [], fun _ => rfl⟩
  · next hlost =>
    have hlost := Bool.not_eq_true _ ▸ hlost
    refine ⟨hpeers, ?_, fun hl => by rw [hlost] at hl; cases hl⟩
    rw [← hgranted hlost, hreleased]
    exact hleased

/-- Between two reports no ID is granted. -/
theorem between (hs : Accounted cfg s) (hcounter : (s.broker.step cfg e).nextPoolID ≤ 2 ^ 32)
    (hkeeps : KeepsLeases cfg s.broker (s.broker.step cfg e))
    (hpipe : (s.broker.step cfg e).pipe = s.broker.pipe)
    (hexec : (s.broker.step cfg e).executing = s.broker.executing)
    (hreleased : s.broker.released cfg e =
      ((s.broker.step cfg e).mQueue.drop s.broker.mQueue.length).filterMap Job.clears?)
    (hgranted : s.broker.granted e = []) : Accounted cfg (s.step cfg e) :=
  hs.settle s.broker hpipe hexec (hkeeps.leased hcounter hs.leased) hreleased
    (fun _ => by rw [hgranted, List.append_nil])

/-- What the worker thread does is of no concern for the ledger, unless the master is lost. -/
theorem worker (hs : Accounted cfg s) (w : WorkerStep) :
    Accounted cfg (s.step cfg (.worker w)) := by
  have hpeers : Peers _ (s.broker.step cfg (.worker w)) := hs.peers.step (fun _ _ _ _ => trivial)
  have hasked : (s.broker.workerStep w).asked.Perm s.broker.asked :=
    (jobsInFlight_workerStep s.broker w).flatMap_right _
  obtain ⟨hpools, hnotes, hnext⟩ : (s.broker.workerStep w).leases = s.broker.leases ∧
      (s.broker.workerStep w).notifications = s.broker.notifications ∧
      (s.broker.workerStep w).nextPoolID = s.broker.nextPoolID := by
    unfold Broker.workerStep disconnectMaster
    split <;> try exact ⟨rfl, rfl, rfl⟩
    dsimp only
    split <;> exact ⟨rfl, rfl, rfl⟩
  have hmove {granted' : List (UInt32 × UInt32)}
      (h : Leased cfg s.broker.asked granted' s.released s.broker)
      (hmaster : granted' = [] ∨ (s.broker.workerStep w).isMasterConnected cfg = true) :
      Leased cfg (s.broker.workerStep w).asked granted' s.released (s.broker.workerStep w) := by
    refine h.of_ledger ?_ (by rw [hpools]) hasked.subset hnext hnotes h.others hmaster
    rw [hpools]
    exact h.sound.setPending (hasked.nodup_iff.mpr h.sound.pending)
      (fun p hp => h.sound.waiting p (hasked.subset hp))
  unfold PoolGrants.step
  dsimp only [Broker.step]
  split
  · exact ⟨hpeers, (hmove (hs.leased.reset s.released) (.inl rfl)).reset [], fun _ => rfl⟩
  · next hlost =>
    simp only [Broker.lost, Bool.or_eq_true, Bool.not_eq_true', not_or, Bool.not_eq_false] at hlost
    have hgranted : s.granted ++ s.broker.granted (.worker w) = s.granted := List.append_nil _
    have hreleased : s.released ++ s.broker.released cfg (.worker w) = s.released :=
      List.append_nil _
    rw [hgranted, hreleased]
    refine ⟨hpeers, hmove hs.leased (.inr hlost.1), fun hl => ?_⟩
    simp [Broker.lost, hlost] at hl

/-- A report of the worker thread is processed. -/
theorem deliver (hs : Accounted cfg s) (hc : s.stepFits cfg .deliver = true) :
    Accounted cfg (s.step cfg .deliver) := by
  have hcounter : (s.broker.step cfg .deliver).nextPoolID ≤ 2 ^ 32 := by
    simp only [stepFits, Bool.and_eq_true, decide_eq_true_eq] at hc
    exact hc.1
  cases hdelivered : s.broker.delivered with
  | none =>
      have hsame := deliver_of_none cfg hdelivered
      exact hs.between hcounter (by rw [hsame]; exact .refl _) (by rw [hsame]) (by rw [hsame]) rfl
        (by simp [Broker.granted, hdelivered])
  | some m =>
      obtain ⟨rest, hpipe, hstep⟩ := deliver_of_some cfg hdelivered
      let b₀ : Broker := { s.broker with pipe := rest }
      have hstep : s.broker.step cfg .deliver = b₀.dispatchInternal cfg m := hstep
      have hattach : b₀.mPendingAttachExtendedJobs = [] := hs.peers.attachJobs
      have hgrants : s.broker.granted .deliver = InternalNotification.grants m := by
        simp [Broker.granted, hdelivered]
      have hasked : s.broker.asked =
          (InternalNotification.job? m).toList.flatMap Job.pools ++ b₀.asked := by
        simp only [asked, jobsInFlight, hpipe, b₀]
        cases m <;> simp [List.filterMap_cons, InternalNotification.job?]
      have htaken : Leased cfg
        (((InternalNotification.job? m).toList.flatMap Job.pools) ++ b₀.asked)
          s.granted s.released b₀ := by
        rw [← hasked]
        exact ⟨hs.leased.sound, hs.leased.counted, hs.leased.asked, hs.leased.others,
          hs.leased.master⟩
      cases m with
      | masterConnected =>
          have hcalm := calm_handleMasterConnected cfg b₀
          refine hs.settle b₀ (hstep ▸ hcalm.pipe) (hstep ▸ hcalm.executing) ?_ rfl
            (fun _ => by rw [hgrants, InternalNotification.grants, List.append_nil])
          rw [hstep] at hcounter ⊢
          exact (keepsLeases_handleMasterConnected b₀).leased hcounter htaken
      | masterDisconnected =>
          have hcalm := calm_handleMasterDisconnected cfg hattach
          have hnone : s.granted = [] := hs.lost (by simp [Broker.lost, hpipe, isLoss])
          refine hs.settle b₀ (hstep ▸ hcalm.pipe) (hstep ▸ hcalm.executing) ?_ rfl
            (fun _ => by rw [hgrants, InternalNotification.grants, List.append_nil])
          rw [hstep] at hcounter ⊢
          rw [hnone] at htaken ⊢
          exact leasedFrom_handleMasterDisconnected htaken hcounter
      | jobExecuted job res =>
          have hstep : s.broker.step cfg .deliver = b₀.handleJobFinished cfg job res := hstep
          obtain ⟨hpipe', hexec'⟩ := link_handleJobFinished cfg job res hattach
          have hdone : (s.broker.step cfg .deliver).lost cfg = s.broker.lost cfg := by
            rw [hstep, Broker.lost, Broker.lost, hpipe, List.any_cons]
            simp only [hpipe', (prims_handleJobFinished cfg job res hattach).isMasterConnected]
            rfl
          have hfits : res.status = 0 → s.broker.replyFits s.granted job res = true ∧
              (s.broker.lost cfg = false → s.broker.returnsNew s.granted s.released
                ((s.broker.granted .deliver).map Prod.snd) = true) := by
            intro hstatus
            simp only [stepFits, hpipe, hstatus, Bool.and_eq_true, Bool.or_eq_true] at hc
            obtain ⟨hreply, hnew⟩ := hc.2.resolve_left (by simp)
            exact ⟨hreply, fun hl => hnew.resolve_left (by simp [hl])⟩
          rw [hgrants] at hfits
          have hjob : (InternalNotification.job? (.jobExecuted job res)).toList.flatMap Job.pools =
              job.pools := by simp [InternalNotification.job?]
          rw [hjob] at htaken
          by_cases hgrant : s.broker.lost cfg = false ∧ res.status = 0 ∧
              res.ret_val = SBStatus.FNDOK.toInt
          · obtain ⟨hlost, hstatus, hok⟩ := hgrant
            have hmaster : b₀.isMasterConnected cfg = true := by
              simp only [Broker.lost, Bool.or_eq_false_iff, Bool.not_eq_false'] at hlost
              exact hlost.1
            have hall : InternalNotification.grants (.jobExecuted job res) =
                grantsOf (job.answers res) := if_pos ⟨hstatus, hok⟩
            rw [hall] at hfits hgrants
            obtain ⟨hreply, hnew⟩ := hfits hstatus
            have hreply := leasedFrom_handleJobFinished_grant hattach (hstep ▸ hcounter) htaken
              hstatus hreply (hnew hlost) hmaster
            exact hs.settle b₀ (hstep ▸ hpipe') (hstep ▸ hexec') (hstep ▸ hreply) rfl
              (fun _ => by rw [hgrants])
          · have hreply := leasedFrom_handleJobFinished hattach (hstep ▸ hcounter) htaken
              (fun hstatus => (hfits hstatus).1)
            refine hs.settle b₀ (hstep ▸ hpipe') (hstep ▸ hexec') (hstep ▸ hreply) rfl
              fun hl => ?_
            have hno : InternalNotification.grants (.jobExecuted job res) = [] :=
              if_neg fun hok => hgrant ⟨hdone ▸ hl, hok⟩
            rw [hgrants, hno, List.append_nil]

theorem step (hs : Accounted cfg s) (hc : s.stepFits cfg e = true) :
    Accounted cfg (s.step cfg e) := by
  have hcounter : (s.broker.step cfg e).nextPoolID ≤ 2 ^ 32 := by
    simp only [stepFits, Bool.and_eq_true, decide_eq_true_eq] at hc
    exact hc.1
  cases e with
  | connected nodeAddress localAddress uid =>
      exact hs.between hcounter (.of_eq rfl rfl rfl rfl rfl) rfl rfl rfl rfl
  | request c r =>
      have hlink : (s.broker.request cfg c r).pipe = s.broker.pipe ∧
          (s.broker.request cfg c r).executing = s.broker.executing := by
        unfold Broker.request
        split
        · exact ⟨rfl, rfl⟩
        · next k _ =>
          obtain ⟨hpipe, hexec, _⟩ := queue_dispatch cfg (k.ctx c) r s.broker
          split
          · exact ⟨rfl, rfl⟩
          · dsimp only
            split <;> exact ⟨hpipe, hexec⟩
      exact hs.between hcounter (keepsLeases_request c r s.broker) hlink.1 hlink.2 rfl rfl
  | closed c =>
      have hlink : (s.broker.closeConnection cfg c).pipe = s.broker.pipe ∧
          (s.broker.closeConnection cfg c).executing = s.broker.executing := by
        unfold Broker.closeConnection
        split
        · exact ⟨rfl, rfl⟩
        · split
          · exact ⟨rfl, rfl⟩
          · exact ⟨(calm_clear cfg c s.broker).pipe, (calm_clear cfg c s.broker).executing⟩
      exact hs.between hcounter (keepsLeases_closeConnection c s.broker) hlink.1 hlink.2 rfl rfl
  | pulse p value =>
      have hcalm := calm_dispatchPulse cfg p value s.broker
      exact hs.between hcounter (keepsLeases_dispatchPulse cfg p value s.broker) hcalm.pipe
        hcalm.executing rfl rfl
  | deliver => exact hs.deliver hc
  | worker w => exact hs.worker w

end Accounted

/-- In every run in which the IDs that the master returns are new, and apart from the local
IDs of what else is known there, no ID that was returned for a pool is lost. -/
theorem noneLost_of_along (cfg : Config) {es : List Event}
    (h : Run.Along (PoolGrants.step cfg) (fun s e => s.stepFits cfg e = true) {} es) :
    (Run.run (PoolGrants.step cfg) {} es).NoneLost :=
  (Run.invariant (I := Accounted cfg) (fun _ _ hs hc => hs.step hc) (.init cfg) h).noneLost

/-- One client is cleared before the master answers, the other one behind the answer: either
way the ID is given back once. -/
theorem noneLost_cleared_early_and_late :
    let es : List Event := masterComes ++ [.deliver, .connected 0 0 7,
      .request 1 (.notifyServerAvailable ⟨1, 2, 3, 4⟩ ⟨[65], 1, 0⟩), .worker .pop,
      .request 1 (.notifyServerAvailable ⟨1, 2, 3, 4⟩ ⟨[66], 1, 0⟩),
      .worker (.finish { status := 0, ret_val := 0, notifications := fun _ => ⟨100000, 77⟩ }),
      .deliver, .worker .pop, .request 1 (.clearNotification 2),
      .worker (.finish { status := 0, ret_val := 0, notifications := fun _ => ⟨100001, 78⟩ }),
      .deliver, .request 1 (.clearNotification 1)]
    let s := Run.run (PoolGrants.step slaveConfig) {} es
    s.granted = [(100000, 77), (100001, 78)] ∧ s.released = [78, 77] ∧ s.NoneLost :=
  ⟨by decide +kernel, by decide +kernel, noneLost_of_along slaveConfig (by decide +kernel)⟩

/-- A client asks twice to be told of changes of the list, once before there is a master: the
second notification has the local ID 2 and the ID 1 at the master, which returns 2 for the
pool of the third.  Both are cleared under 2. -/
theorem not_noneLost_local_id :
    let es : List Event :=
      [.connected 0 0 7, .request 1 (.notifyInterfaceListChange ⟨5, 6, 7, 8⟩)] ++ masterComes ++
        [.deliver, .request 1 (.notifyInterfaceListChange ⟨5, 6, 7, 9⟩), .worker .pop,
          .worker (.finish { status := 0, ret_val := 0, notificationID := 1 }), .deliver,
          .request 1 (.notifyServerAvailable ⟨1, 2, 3, 4⟩ ⟨[65], 1, 0⟩), .worker .pop,
          .worker (.finish { status := 0, ret_val := 0, notifications := fun _ => ⟨100000, 2⟩ }),
          .deliver, .request 1 (.clearNotification 2), .request 1 (.clearNotification 3)]
    let s := Run.run (PoolGrants.step slaveConfig) {} es
    s.granted = [(100000, 2)] ∧ s.released = [2, 2] ∧ s.broker.leases = [] ∧ ¬ s.NoneLost := by
  decide +kernel

end PoolGrants

end Dsi
