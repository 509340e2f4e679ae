import Dsi.Broker.Answers
import Dsi.Broker.Recovery
import Dsi.Lib.Leases

/-!
# Dsi.Broker.PoolLeases

The notification IDs that the master returns for the pools of a slave.  A pool asks for
one when it is created; the ID that comes back is stored in it, or given back with a
clear job if the pool is gone, and given back when the last member leaves.

A clear job for a notification without a pool carries the local ID.  As long as that is
not the ID of a pool at the master, and the master returns new IDs, none is lost.
-/

namespace Dsi

open Leases Sequence

/-- The pools for which the job asks the master for an ID. -/
def Job.pools (j : Job) : List UInt32 :=
  match j.arg with
  | .notifyServerAvailableEx records => records.map (·.cookie)
  | .notifyServerDisconnect _ _ => [j.cookie]
  | _ => []

/-- The ID that the job gives back to the master. -/
def Job.clears? (j : Job) : Option UInt32 :=
  match j.arg with
  | .clearNotification id => some id
  | _ => none

/-- What the master answers to a job that asks for pools. -/
def Job.answers (j : Job) (res : JobResult) : List SFNDNotificationID :=
  match j.arg with
  | .notifyServerAvailableEx _ => (List.range j.cookie.toNat).map res.notifications
  | .notifyServerDisconnect _ _ => [⟨j.cookie, res.notificationID⟩]
  | _ => []

/-- The pools and the IDs of the answers that have one. -/
def grantsOf (answers : List SFNDNotificationID) : List (UInt32 × UInt32) :=
  (answers.filter (·.notificationID ≠ INVALID_NOTIFICATION_ID)).map
    (fun r => (r.cookie, r.notificationID))

/-- The pool, and the ID at the master if it has one. -/
def NotificationPoolEntry.lease (np : NotificationPoolEntry) : UInt32 × Option UInt32 :=
  (np.poolID,
    if np.notificationID = INVALID_NOTIFICATION_ID then none else some np.notificationID)

namespace Broker

/-- The pools with their IDs at the master. -/
def leases (b : Broker) : List (UInt32 × Option UInt32) := b.mMasterNotificationPool.map (·.lease)

/-! ## The ledger -/

/-- The ledger of pool IDs is sound; the IDs of the pools stem from the counter, no
notification that is known to the master on its own has a local ID that was granted to
a pool, and the master is connected. -/
structure Leased (cfg : Config) (pending : List UInt32) (granted : List (UInt32 × UInt32))
    (released : List UInt32) (b : Broker) : Prop where
  sound : (⟨b.leases, pending, granted, released⟩ : Leases UInt32 UInt32).Sound
  counted : ∀ e ∈ b.leases, e.1.toNat < b.nextPoolID
  asked : ∀ p ∈ pending, p.toNat < b.nextPoolID
  others : ∀ k, ∀ n ∈ b.notifications k, n.masterNotificationID ≠ INVALID_NOTIFICATION_ID →
    n.notificationID ∉ granted.map Prod.snd
  master : granted = [] ∨ b.isMasterConnected cfg = true

/-- The ledger of `b'`, after what was queued on the way from `b`: that asks for the pools
that are new, and gives back the IDs of the pools that are gone. -/
def LeasedFrom (cfg : Config) (pending : List UInt32) (granted : List (UInt32 × UInt32))
    (released : List UInt32) (b b' : Broker) : Prop :=
  ∃ js, b'.mQueue = b.mQueue ++ js ∧
    Leased cfg (pending ++ js.flatMap Job.pools) granted (released ++ js.filterMap Job.clears?) b'

/-- The main thread keeps the ledger on the way from `b` to `b'`. -/
structure KeepsLeases (cfg : Config) (b b' : Broker) : Prop where
  phase : b'.phase = b.phase
  next : b.nextPoolID ≤ b'.nextPoolID
  leased : ∀ {pending granted released}, b'.nextPoolID ≤ 2 ^ 32 →
    Leased cfg pending granted released b → LeasedFrom cfg pending granted released b b'

/-- A job that is not about a pool. -/
def Job.plain (j : Job) : Prop := j.pools = [] ∧ j.clears? = none

/-- Nothing happens to the pools, and no notification becomes known to the master. -/
theorem Leased.of_leases {cfg : Config} {pending : List UInt32} {granted : List (UInt32 × UInt32)}
    {released : List UInt32} {b b' : Broker} (h : Leased cfg pending granted released b)
    (hphase : b'.phase = b.phase) (hnext : b'.nextPoolID = b.nextPoolID)
    (hleases : b'.leases = b.leases)
    (hnotes : ∀ k, ∀ n' ∈ b'.notifications k, n'.masterNotificationID ≠ INVALID_NOTIFICATION_ID →
      ∃ n ∈ b.notifications k, n.masterNotificationID ≠ INVALID_NOTIFICATION_ID ∧
        n.notificationID = n'.notificationID)
    {js : List Job} (hqueue : b'.mQueue = b.mQueue ++ js) (hjs : ∀ j ∈ js, Job.plain j) :
    LeasedFrom cfg pending granted released b b' := by
  have hpools : js.flatMap Job.pools = [] := List.flatMap_eq_nil_iff.mpr fun j hj => (hjs j hj).1
  have hclears : js.filterMap Job.clears? = [] :=
    List.filterMap_eq_nil_iff.mpr fun j hj => (hjs j hj).2
  refine ⟨js, hqueue, ?_⟩
  rw [hpools, hclears, List.append_nil, List.append_nil]
  refine ⟨hleases ▸ h.sound, ?_, hnext ▸ h.asked, fun k n' hn' hmaster => ?_, ?_⟩
  · rw [hleases, hnext]
    exact h.counted
  · obtain ⟨n, hn, hknown, hid⟩ := hnotes k n' hn' hmaster
    exact hid ▸ h.others k n hn hknown
  · rw [isMasterConnected, hphase]
    exact h.master

/-- Nor is a job queued. -/
theorem Leased.of_quiet {cfg : Config} {pending : List UInt32} {granted : List (UInt32 × UInt32)}
    {released : List UInt32} {b b' : Broker} (h : Leased cfg pending granted released b)
    (hphase : b'.phase = b.phase) (hnext : b'.nextPoolID = b.nextPoolID)
    (hleases : b'.leases = b.leases)
    (hnotes : ∀ k, ∀ n' ∈ b'.notifications k, n'.masterNotificationID ≠ INVALID_NOTIFICATION_ID →
      ∃ n ∈ b.notifications k, n.masterNotificationID ≠ INVALID_NOTIFICATION_ID ∧
        n.notificationID = n'.notificationID)
    (hqueue : b'.mQueue = b.mQueue) : LeasedFrom cfg pending granted released b b' := by
  have hnone : b'.mQueue = b.mQueue ++ [] := by rw [hqueue, List.append_nil]
  exact h.of_leases hphase hnext hleases hnotes hnone (by simp)

namespace KeepsLeases

variable {cfg : Config} {b b' b'' : Broker}

/-- The ledger is kept on both parts of the way. -/
theorem trans (h : KeepsLeases cfg b b') (h' : KeepsLeases cfg b' b'') : KeepsLeases cfg b b'' where
  phase := h'.phase.trans h.phase
  next := Nat.le_trans h.next h'.next
  leased hfits hb := by
    obtain ⟨js, hq, hb'⟩ := h.leased (Nat.le_trans h'.next hfits) hb
    obtain ⟨js', hq', hb''⟩ := h'.leased hfits hb'
    refine ⟨js ++ js', by rw [hq', hq, List.append_assoc], ?_⟩
    rw [List.flatMap_append, List.filterMap_append, ← List.append_assoc, ← List.append_assoc]
    exact hb''

/-- Nothing happens to the pools, and the jobs are about no pool. -/
theorem of_leases (hphase : b'.phase = b.phase) (hnext : b'.nextPoolID = b.nextPoolID)
    (hleases : b'.leases = b.leases)
    (hnotes : ∀ k, ∀ n' ∈ b'.notifications k, n'.masterNotificationID ≠ INVALID_NOTIFICATION_ID →
      ∃ n ∈ b.notifications k, n.masterNotificationID ≠ INVALID_NOTIFICATION_ID ∧
        n.notificationID = n'.notificationID)
    {js : List Job} (hqueue : b'.mQueue = b.mQueue ++ js)
    (hjs : ∀ j ∈ js, Job.plain j) : KeepsLeases cfg b b' where
  phase := hphase
  next := Nat.le_of_eq hnext.symm
  leased _ hb := hb.of_leases hphase hnext hleases hnotes hqueue hjs

/-- Nothing happens to the pools, and nothing is queued. -/
theorem of_quiet (hphase : b'.phase = b.phase) (hnext : b'.nextPoolID = b.nextPoolID)
    (hleases : b'.leases = b.leases)
    (hnotes : ∀ k, ∀ n' ∈ b'.notifications k, n'.masterNotificationID ≠ INVALID_NOTIFICATION_ID →
      ∃ n ∈ b.notifications k, n.masterNotificationID ≠ INVALID_NOTIFICATION_ID ∧
        n.notificationID = n'.notificationID)
    (hqueue : b'.mQueue = b.mQueue) : KeepsLeases cfg b b' where
  phase := hphase
  next := Nat.le_of_eq hnext.symm
  leased _ hb := hb.of_quiet hphase hnext hleases hnotes hqueue

/-- The pools, the notifications and the queue are all that counts. -/
theorem of_eq (hphase : b'.phase = b.phase) (hnext : b'.nextPoolID = b.nextPoolID)
    (hpools : b'.mMasterNotificationPool = b.mMasterNotificationPool)
    (hnotes : b'.notifications = b.notifications) (hqueue : b'.mQueue = b.mQueue) :
    KeepsLeases cfg b b' :=
  of_quiet hphase hnext (congrArg (List.map _) hpools)
    (fun _ n hn hmaster => ⟨n, hnotes ▸ hn, hmaster, rfl⟩) hqueue

theorem refl (b : Broker) : KeepsLeases cfg b b := of_eq rfl rfl rfl rfl rfl

/-- A job that is about no pool leaves the ledger alone. -/
theorem eval {j : Job} (hj : Job.plain j) (b : Broker) : KeepsLeases cfg b (b.eval j) :=
  of_leases rfl rfl rfl (fun _ n hn hmaster => ⟨n, hn, hmaster, rfl⟩) rfl
    (List.forall_mem_singleton.mpr hj)

/-- So does one that is made with a master only. -/
theorem evalMaster {j : Job} (hj : Job.plain j) (b : Broker) :
    KeepsLeases cfg b (b.evalMaster cfg j) := by
  unfold Broker.evalMaster
  split
  · exact eval hj b
  · exact refl b

/-- Every element keeps the ledger, and so do all of them. -/
theorem foldl {α : Type} {f : Broker → α → Broker} (hf : ∀ b x, KeepsLeases cfg b (f b x))
    (l : List α) (b : Broker) : KeepsLeases cfg b (l.foldl f b) := by
  induction l generalizing b with
  | nil => exact refl b
  | cons x l ih => exact (hf b x).trans (ih _)

end KeepsLeases

/-! ## Members leave -/

section Leave

variable {cfg : Config} {b b' b'' : Broker} {pending : List UInt32}
  {granted : List (UInt32 × UInt32)} {released : List UInt32}

/-- There is a lease for every pool. -/
theorem keys_leases (b : Broker) :
    b.leases.map Prod.fst = b.mMasterNotificationPool.map (·.poolID) := by
  rw [leases, List.map_map]
  rfl

/-- The ledger of a broker that has lost its master says nothing. -/
theorem Leased.restart (h : Leased cfg pending granted released b)
    (hmaster : b.isMasterConnected cfg = false) (released' : List UInt32) :
    Leased cfg pending granted released' b := by
  have hnone : granted = [] := h.master.resolve_right (by simp [hmaster])
  subst hnone
  exact { h with sound := h.sound.restart released' }

/-- A clear job gives the name back, unless there is no master. -/
theorem leasedFrom_createClear {id : UInt32} (h : Leased cfg pending granted (released ++ [id]) b) :
    LeasedFrom cfg pending granted released b (b.createClearNotificationJob cfg id) := by
  unfold createClearNotificationJob evalMaster
  split
  · refine ⟨[⟨0, none, .clearNotification id⟩], rfl, ?_⟩
    have hpending : [(⟨0, none, .clearNotification id⟩ : Job)].flatMap Job.pools = [] := rfl
    rw [hpending, List.append_nil]
    exact ⟨h.sound, h.counted, h.asked, h.others, h.master⟩
  · next hmaster =>
    refine ⟨[], (List.append_nil _).symm, ?_⟩
    have hnone := h.restart (Bool.not_eq_true _ ▸ hmaster) released
    simpa using hnone

theorem leasedFrom_refl (h : Leased cfg pending granted released b) :
    LeasedFrom cfg pending granted released b b :=
  ⟨[], (List.append_nil _).symm, by simpa using h⟩

/-- A pool that goes gives its ID back. -/
theorem Leased.removePool (h : Leased cfg pending granted released b) {np : NotificationPoolEntry}
    (hnp : np ∈ b.mMasterNotificationPool) : Leased cfg pending granted
      (released ++ np.lease.2.toList)
      { b with mMasterNotificationPool := b.mMasterNotificationPool.removePool np.poolID } := by
  obtain ⟨np', front, back, _, hid, hpools, herase⟩ := List.exists_of_eraseP
    (p := fun np' : NotificationPoolEntry => decide (np'.poolID = np.poolID)) hnp (by simp)
  have hkeys := h.sound.keys
  rw [keys_leases] at hkeys
  have hsame : np' = np := by
    refine List.inj_on_of_nodup_map hkeys ?_ hnp (by simpa using hid)
    rw [hpools]
    exact List.mem_append_right _ List.mem_cons_self
  subst hsame
  have hleases : b.leases =
      front.map (·.lease) ++ (np'.poolID, np'.lease.2) :: back.map (·.lease) := by
    rw [leases, hpools, List.map_append, List.map_cons]
    rfl
  have hgone : leases { b with
      mMasterNotificationPool := b.mMasterNotificationPool.removePool np'.poolID } =
        front.map (·.lease) ++ back.map (·.lease) := by
    rw [leases, ← List.map_append, ← herase]
    rfl
  refine ⟨?_, fun e he => h.counted e ?_, h.asked, h.others, h.master⟩
  · rw [hgone]
    exact h.sound.leave hleases
  · rw [hgone] at he
    rw [hleases]
    simp only [List.mem_append, List.mem_cons] at he ⊢
    tauto

/-- What is queued on both parts of the way is queued on it. -/
theorem LeasedFrom.trans (h : LeasedFrom cfg pending granted released b b')
    (h' : ∀ {pending released}, Leased cfg pending granted released b' →
      LeasedFrom cfg pending granted released b' b'') :
    LeasedFrom cfg pending granted released b b'' := by
  obtain ⟨js, hq, hb'⟩ := h
  obtain ⟨js', hq', hb''⟩ := h' hb'
  refine ⟨js ++ js', by rw [hq', hq, List.append_assoc], ?_⟩
  rw [List.flatMap_append, List.filterMap_append, ← List.append_assoc, ← List.append_assoc]
  exact hb''

/-- A pool that keeps its ID of the master keeps its lease. -/
theorem leases_modifyPool {f : NotificationPoolEntry → NotificationPoolEntry}
    (hf : ∀ np, (f np).lease = np.lease) (pos : Nat) (b : Broker) :
    (b.modifyPool pos f).leases = b.leases :=
  map_modify hf _ pos

/-- The last member of a pool gives its ID of the master back, the other ones do not. -/
theorem leasedFrom_detachPool (h : Leased cfg pending granted released b) (pos : Nat) :
    LeasedFrom cfg pending granted released b (b.detachPool cfg pos) := by
  unfold detachPool
  split
  · exact leasedFrom_refl h
  · next np hnp =>
    dsimp only
    split
    · have hremoved := h.removePool (List.mem_of_getElem? hnp)
      split
      · next hvalid =>
        have hlease : np.lease.2.toList = [np.notificationID] := by
          simp [NotificationPoolEntry.lease, hvalid]
        rw [hlease] at hremoved
        exact leasedFrom_createClear hremoved
      · next hinvalid =>
        have hlease : np.lease.2.toList = [] := by
          simp [NotificationPoolEntry.lease, Decidable.not_not.mp hinvalid]
        rw [hlease, List.append_nil] at hremoved
        exact leasedFrom_refl hremoved
    · refine h.of_quiet rfl rfl (leases_modifyPool ?_ pos b)
        (fun _ n hn hmaster => ⟨n, hn, hmaster, rfl⟩) rfl
      intro np
      rfl

/-- A notification that goes leaves its pool, or is cleared at the master under its own ID. -/
theorem leasedFrom_destroy (h : Leased cfg pending granted released b) {n : Notification}
    (hn : n.masterNotificationID ≠ INVALID_NOTIFICATION_ID →
      n.notificationID ∉ granted.map Prod.snd) :
    LeasedFrom cfg pending granted released b (b.destroy cfg n) := by
  have hhost : LeasedFrom cfg pending granted released b (b.unhost n) := by
    unfold unhost
    split
    · exact h.of_quiet rfl rfl rfl (fun _ n hn hmaster => ⟨n, hn, hmaster, rfl⟩) rfl
    · exact leasedFrom_refl h
  refine hhost.trans fun {pending released} hb => ?_
  rw [destroy, releaseMaster]
  split
  · split
    · exact leasedFrom_detachPool hb _
    · exact leasedFrom_refl hb
  · split
    · next hmaster =>
        exact leasedFrom_createClear { hb with sound := hb.sound.release (hn hmaster) }
    · exact leasedFrom_refl hb

/-- A notification that is sent stays in its pool. -/
theorem leasedFrom_send (h : Leased cfg pending granted released b) (n : Notification) :
    LeasedFrom cfg pending granted released b (b.send cfg n).2 := by
  have hframe := frame_send cfg n b
  refine h.of_quiet hframe.phase hframe.nextPoolID (congrArg (List.map _) (pools_send cfg n b))
    (fun k n' hn' hmaster => ⟨n', hframe.notifications k ▸ hn', hmaster, rfl⟩) ?_
  unfold send doConnect
  dsimp only
  split
  · rfl
  · split <;> rfl

/-- The loops over a list, when none of its members that the master knows has a local ID
that was granted to a pool. -/
theorem leasedFrom_sweepLoop (once : Bool) (act : Broker → Notification → Action)
    {ns : List Notification} (hns : ∀ n ∈ ns, n.masterNotificationID ≠ INVALID_NOTIFICATION_ID →
      n.notificationID ∉ granted.map Prod.snd) {pending : List UInt32} {released : List UInt32}
    {b : Broker} (h : Leased cfg pending granted released b) :
    LeasedFrom cfg pending granted released b (sweepLoop cfg once act ns b).2 := by
  induction ns generalizing pending released b with
  | nil => exact leasedFrom_refl h
  | cons n ns ih =>
      obtain ⟨hn, hns⟩ := List.forall_mem_cons.mp hns
      have hsend := leasedFrom_send h n
      rw [sweepLoop]
      split
      · exact ih hns h
      · exact ih hns h
      · dsimp only
        split
        · exact hsend
        · exact hsend.trans (ih hns)
      · have hfire : LeasedFrom cfg pending granted released b
            ((b.send cfg n).2.destroy cfg (b.send cfg n).1) := by
          refine hsend.trans fun hb => leasedFrom_destroy hb ?_
          obtain ⟨pulse, coid, hs⟩ := send_fst cfg n b
          rw [hs]
          exact hn
        dsimp only
        split
        · exact hfire
        · exact hfire.trans (ih hns)
      · have hdrop := leasedFrom_destroy h hn
        dsimp only
        split
        · exact hdrop
        · exact hdrop.trans (ih hns)

/-- A sweep gives back the IDs of the pools that it empties. -/
theorem keepsLeases_sweep (once : Bool) (k : NotificationKind)
    (act : Broker → Notification → Action) (b : Broker) :
    KeepsLeases cfg b (b.sweep cfg once k act) where
  phase := phase_sweep cfg once k act b
  next := Nat.le_of_eq (nextPoolID_sweep cfg once k act b).symm
  leased _ h := by
    have hloop := leasedFrom_sweepLoop once act (h.others k) h
    refine hloop.trans fun {pending released} hb => ?_
    have hframe := frame_sweepLoop cfg once act (b.notifications k) b
    rw [sweep_eq]
    refine hb.of_quiet (by cases k <;> rfl) (by cases k <;> rfl) (by cases k <;> rfl)
      (fun k' n' hn' hmaster => ?_) (by cases k <;> rfl)
    rw [notifications_setNotifications] at hn'
    split at hn'
    · next hk =>
      obtain ⟨n, hn, pulse, coid, active, rfl, _⟩ := remains_of_mem_sweepLoop cfg hn'
      refine ⟨n, ?_, hmaster, rfl⟩
      rw [hframe.notifications, hk]
      exact hn
    · exact ⟨n', hn', hmaster, rfl⟩

end Leave

/-! ## Pools are created -/

section Create

variable {cfg : Config} {b : Broker} {pending : List UInt32} {granted : List (UInt32 × UInt32)}
  {released : List UInt32}

/-- A new pool, before and after it is asked for. -/
theorem Leased.addPool (h : Leased cfg pending granted released b) (hfits : b.nextPoolID < 2 ^ 32)
    (s : DataSwitch) (st : EPoolState) : Leased cfg pending granted released (b.addPool s st) ∧
      Leased cfg (pending ++ [UInt32.ofNat b.nextPoolID]) granted released (b.addPool s st) := by
  have hnext : (UInt32.ofNat b.nextPoolID).toNat = b.nextPoolID := UInt32.toNat_ofNat_of_lt' hfits
  have hkey : UInt32.ofNat b.nextPoolID ∉ b.leases.map Prod.fst := by
    intro hmem
    obtain ⟨e, he, hid⟩ := List.mem_map.mp hmem
    have hlt := h.counted e he
    rw [hid, hnext] at hlt
    exact Nat.lt_irrefl _ hlt
  have hcreate : Leased cfg pending granted released (b.addPool s st) := by
    refine ⟨h.sound.create hkey, fun e he => ?_, fun p hp => Nat.lt_succ_of_lt (h.asked p hp),
      h.others, h.master⟩
    rcases List.mem_cons.mp he with rfl | he
    · exact Nat.lt_succ_of_le (Nat.le_of_eq hnext)
    · exact Nat.lt_succ_of_lt (h.counted e he)
  refine ⟨hcreate, { hcreate with sound := ?_, asked := fun p hp => ?_ }⟩
  · refine hcreate.sound.setPending ?_ fun p hp x hx => ?_
    · rw [← List.concat_eq_append]
      refine h.sound.pending.concat fun hmem => ?_
      have hlt := h.asked _ hmem
      rw [hnext] at hlt
      exact Nat.lt_irrefl _ hlt
    · rcases List.mem_append.mp hp with hp | hp
      · exact hcreate.sound.waiting p hp x hx
      · obtain rfl := List.mem_singleton.mp hp
        rcases List.mem_cons.mp hx with heq | hx
        · cases heq
        · exact hkey (List.mem_map_of_mem hx)
  · rcases List.mem_append.mp hp with hp | hp
    · exact hcreate.asked p hp
    · obtain rfl := List.mem_singleton.mp hp
      exact Nat.lt_succ_of_le (Nat.le_of_eq hnext)

/-- A new pool for which nothing is asked yet. -/
theorem keepsLeases_addPool (s : DataSwitch) (st : EPoolState) (b : Broker) :
    KeepsLeases cfg b (b.addPool s st) where
  phase := rfl
  next := Nat.le_succ _
  leased hfits h := leasedFrom_refl (h.addPool (Nat.lt_of_succ_le hfits) s st).1

/-- A new pool and the job that asks for its ID. -/
theorem keepsLeases_addPool_eval {s : DataSwitch} {st : EPoolState} {j : Job}
    (hpools : j.pools = [UInt32.ofNat b.nextPoolID]) (hclears : j.clears? = none) :
    KeepsLeases cfg b ((b.addPool s st).eval j) where
  phase := rfl
  next := Nat.le_succ _
  leased hfits h := by
    refine ⟨[j], rfl, ?_⟩
    have hnew := (h.addPool (Nat.lt_of_succ_le hfits) s st).2
    simp only [List.flatMap_cons, List.flatMap_nil, hpools, List.append_nil,
      List.filterMap_cons, hclears, List.filterMap_nil]
    exact ⟨hnew.sound, hnew.counted, hnew.asked, hnew.others, hnew.master⟩

/-- The loop creates the pools that its records ask for. -/
theorem leased_forwardLoop (ns : List Notification) {pending : List UInt32}
    {granted : List (UInt32 × UInt32)} {released : List UInt32} {b : Broker}
      (h : Leased cfg pending granted
      released b) (hfits : (forwardLoop cfg ns b).2.2.nextPoolID ≤ 2 ^ 32) :
    Leased cfg (pending ++ (forwardLoop cfg ns b).2.1.map (·.cookie)) granted released
      (forwardLoop cfg ns b).2.2 := by
  induction ns generalizing pending b with
  | nil => simpa [forwardLoop] using h
  | cons n ns ih =>
      rw [forwardLoop] at hfits ⊢
      split
      · next heligible =>
        rw [if_pos heligible] at hfits
        split
        · next pos hpos =>
          rw [hpos] at hfits
          exact ih h hfits
        · next hpos =>
          rw [hpos] at hfits
          have hnext := nextPoolID_le_forwardLoop cfg ns
            (b.addPoolDescription n.ifDescription false)
          have hnew := (h.addPool (Nat.lt_of_succ_le (Nat.le_trans hnext hfits))
            (.ifDescription n.ifDescription) .STATE_CONNECTING).2
          have hrest := ih hnew hfits
          rw [List.append_assoc] at hrest
          exact hrest
      · next heligible =>
        rw [if_neg heligible] at hfits
        exact ih h hfits

/-- The jobs ask for exactly the pools of the records. -/
theorem pools_batches (records : List SFNDNotificationDescription) :
    ((batches MAX_MULTIPLE_COUNT [] records).map (fun batch => (⟨UInt32.ofNat batch.length, none,
      .notifyServerAvailableEx batch⟩ : Job))).flatMap Job.pools = records.map (·.cookie) := by
  have hflat := flatten_batches MAX_MULTIPLE_COUNT [] records
  rw [List.nil_append] at hflat
  conv_rhs => rw [← hflat, List.map_flatten]
  rw [List.flatMap_map]
  rfl

/-- The batches that are forwarded give nothing back. -/
theorem clears_batches (records : List SFNDNotificationDescription) :
    ((batches MAX_MULTIPLE_COUNT [] records).map (fun batch => (⟨UInt32.ofNat batch.length, none,
      .notifyServerAvailableEx batch⟩ : Job))).filterMap Job.clears? = [] := by
  rw [List.filterMap_map]
  exact List.filterMap_eq_nil_iff.mpr fun _ _ => rfl

/-- Every notification that is forwarded gets a new pool, and its batch asks for the pool. -/
theorem keepsLeases_forward (b : Broker) :
    KeepsLeases cfg b (b.forwardServerAvailableNotifications cfg) := by
  unfold forwardServerAvailableNotifications
  split
  · obtain ⟨hframe, hrepooled⟩ := forwardLoop_frame cfg b.mServerConnectNotifications b
    have hnext := nextPoolID_le_forwardLoop cfg b.mServerConnectNotifications b
    have hloop {pending : List UInt32} {granted : List (UInt32 × UInt32)} {released : List UInt32}
        (h : Leased cfg pending granted released b) :=
      leased_forwardLoop b.mServerConnectNotifications h
    dsimp only
    rw [foldl_eval]
    generalize forwardLoop cfg b.mServerConnectNotifications b = r at hframe hrepooled hnext hloop
    refine ⟨by rw [hframe], hnext, fun hfits h => ⟨_, by rw [hframe], ?_⟩⟩
    have hleased := hloop h hfits
    rw [pools_batches, clears_batches, List.append_nil]
    refine ⟨hleased.sound, hleased.counted, hleased.asked, fun k n' hn' hmaster => ?_, ?_⟩
    · rw [hframe] at hleased
      cases k with
      | serverConnect =>
          have hids := hrepooled.map_eq
            (g := fun n => (n.masterNotificationID, n.notificationID)) (fun _ _ => rfl)
          obtain ⟨n, hn, heq⟩ := List.mem_map.mp (hids ▸ List.mem_map_of_mem hn')
          obtain ⟨hknown, hid⟩ := Prod.mk.inj heq
          exact hid ▸ h.others .serverConnect n hn (hknown ▸ hmaster)
      | serverDisconnect => exact hleased.others .serverDisconnect n' (hframe ▸ hn') hmaster
      | clientDetach => exact hleased.others .clientDetach n' (hframe ▸ hn') hmaster
      | serverListChange => exact hleased.others .serverListChange n' (hframe ▸ hn') hmaster
    · exact hleased.master
  · exact .refl b

end Create

/-! ## Requests -/

section Handlers

variable (cfg : Config)

/-- A pool that keeps its ID of the master keeps the ledger. -/
theorem keepsLeases_modifyPool {f : NotificationPoolEntry → NotificationPoolEntry}
    (hf : ∀ np, (f np).lease = np.lease) (pos : Nat) (b : Broker) :
    KeepsLeases cfg b (b.modifyPool pos f) :=
  .of_quiet rfl rfl (leases_modifyPool hf pos b) (fun _ n hn hmaster => ⟨n, hn, hmaster, rfl⟩) rfl

/-- A new notification is not known to the master. -/
theorem keepsLeases_addNotification (k : NotificationKind) (ctx : SocketConnectionContext)
    (pulse : SFNDPulseInfo) {setup : Notification → Notification} (hs : Plain setup) (b : Broker) :
    KeepsLeases cfg b (b.addNotification cfg k ctx pulse setup).2 := by
  obtain ⟨a, p, coid, h | h⟩ := addNotification_cases cfg k ctx pulse setup b
  · rw [h]
    refine .of_quiet (by cases k <;> rfl) (by cases k <;> rfl) (by cases k <;> rfl)
      (fun k' n' hn' hmaster => ?_) (by cases k <;> rfl)
    rw [notifications_setNotifications] at hn'
    split at hn'
    · next hk =>
      rcases List.mem_cons.mp hn' with rfl | hn'
      · exact absurd (hs _).2.2 hmaster
      · exact ⟨n', hk ▸ hn', hmaster, rfl⟩
    · exact ⟨n', hn', hmaster, rfl⟩
  · rw [h]
    exact .of_eq rfl rfl rfl rfl rfl

/-- A new notification for a party is in no pool. -/
theorem keepsLeases_addParty (k : NotificationKind) (id : SPartyID) (ctx : SocketConnectionContext)
    (pulse : SFNDPulseInfo) (b : Broker) : KeepsLeases cfg b (b.addParty cfg k id ctx pulse).2 :=
  keepsLeases_addNotification cfg k ctx pulse (by intro n; exact ⟨rfl, rfl, rfl⟩) b

/-- A new notification for an interface is in no pool. -/
theorem keepsLeases_addDescription (d : InterfaceDescription) (ctx : SocketConnectionContext)
    (pulse : SFNDPulseInfo) (isLocal : Bool) (b : Broker) :
    KeepsLeases cfg b (b.addDescription cfg .serverConnect d ctx pulse isLocal).2 :=
  keepsLeases_addNotification cfg .serverConnect ctx pulse (by intro n; exact ⟨rfl, rfl, rfl⟩) b

/-- A member that joins asks for nothing. -/
theorem keepsLeases_attachPool (pos : Nat) (k : NotificationKind) (id : UInt32) (b : Broker) :
    KeepsLeases cfg b (b.attachPool pos k id) := by
  have hjoin : KeepsLeases cfg b (b.setNotifications k
      (modifyFirst (fun n => n.notificationID = id) (fun n => { n with poolID := b.poolIDAt pos })
        (b.notifications k))) := by
    refine .of_quiet (by cases k <;> rfl) (by cases k <;> rfl) (by cases k <;> rfl)
      (fun k' n' hn' hmaster => ?_) (by cases k <;> rfl)
    rw [notifications_setNotifications] at hn'
    split at hn'
    · next hk =>
      subst hk
      rcases mem_modifyFirst hn' with hn' | ⟨n, hn, _, rfl⟩
      · exact ⟨n', hn', hmaster, rfl⟩
      · exact ⟨n, hn, hmaster, rfl⟩
    · exact ⟨n', hn', hmaster, rfl⟩
  exact hjoin.trans (keepsLeases_modifyPool cfg (by intro np; rfl) pos _)

/-- A new entry is about no pool. -/
theorem keepsLeases_addEntry (c : Nat) (e : ServerListEntry) (b : Broker) :
    KeepsLeases cfg b (b.addEntry cfg c e) := by
  have hadd : KeepsLeases cfg b ({ b with
      mConnectedServers := b.mConnectedServers.add e }.modifyData c (·.addServer e.partyID)) :=
    .of_eq rfl rfl rfl rfl rfl
  have hconnect := hadd.trans (keepsLeases_sweep false .serverConnect
    (triggerAction cfg e.ifDescription e.grpid) _)
  exact hconnect.trans (keepsLeases_sweep false .serverListChange _ _)

/-- A new interface triggers notifications, which may empty their pools. -/
theorem keepsLeases_addInterface (ctx : SocketConnectionContext) (d : InterfaceDescription)
    (pid : UInt32) (chid : Int32) (isLocal : Bool) (grpid : Int32) (b : Broker) :
    KeepsLeases cfg b (b.addInterface cfg ctx d pid chid isLocal grpid).2 := by
  unfold addInterface
  split
  · exact .refl b
  · have hnext : KeepsLeases cfg b { b with mNextServerID := b.mNextServerID + 1 } :=
      .of_eq rfl rfl rfl rfl rfl
    exact hnext.trans (keepsLeases_addEntry cfg ctx.mId _ _)

/-- Every record keeps the ledger, and so does the list. -/
theorem keepsLeases_recordLoop {α β : Type} {f : α → Broker → β × Broker}
    (hf : ∀ x b, KeepsLeases cfg b (f x b).2) (n : Nat) (xs : List α) (b : Broker) :
    KeepsLeases cfg b (recordLoop f n xs b).2 :=
  recordLoop_preserves (I := KeepsLeases cfg b) (.refl b) fun x _ s hs => hs.trans (hf x s)

/-- The batches of servers are about no pool. -/
theorem keepsLeases_registerInterfacesMaster (b : Broker) :
    KeepsLeases cfg b (b.registerInterfacesMaster cfg) := by
  rw [registerInterfacesMaster_eq]
  split
  · refine .of_leases rfl rfl rfl (fun _ n hn hmaster => ⟨n, hn, hmaster, rfl⟩) rfl fun j hj => ?_
    obtain ⟨batch, _, rfl⟩ := List.mem_map.mp hj
    exact ⟨rfl, rfl⟩
  · exact .refl b

/-- Registrations may be passed on to the master behind what keeps the ledger. -/
theorem keepsLeases_registerMaster {b b' : Broker} (h : KeepsLeases cfg b b') :
    KeepsLeases cfg b (b'.registerInterfacesMaster cfg) :=
  h.trans (keepsLeases_registerInterfacesMaster cfg b')

/-- An unregistration is about no pool. -/
theorem keepsLeases_unregisterInterfaceMaster (masterID : SPartyID) (b : Broker) :
    KeepsLeases cfg b (b.unregisterInterfaceMaster cfg masterID) := by
  unfold unregisterInterfaceMaster
  split
  · exact .eval ⟨rfl, rfl⟩ b
  · exact .refl b

/-- A pool that monitors a server is asked for when it is created. -/
theorem keepsLeases_monitorServer (serverID : SPartyID) (id : UInt32) (b : Broker) :
    KeepsLeases cfg b (b.monitorServer cfg serverID id) := by
  unfold monitorServer
  split
  · exact .refl b
  · split
    · exact keepsLeases_attachPool cfg _ _ _ b
    · exact (keepsLeases_addPool_eval rfl rfl).trans (keepsLeases_attachPool cfg _ _ _ _)

/-- A server that is monitored asks for its pool once, when the pool is made. -/
theorem keepsLeases_notifyServerDisconnect (ctx : SocketConnectionContext) (serverID : SPartyID)
    (pulse : SFNDPulseInfo) (b : Broker) :
    KeepsLeases cfg b (b.handleNotifyServerDisconnectNoResponse cfg ctx serverID pulse).2 := by
  have hadd := keepsLeases_addParty cfg .serverDisconnect serverID ctx pulse b
  unfold handleNotifyServerDisconnectNoResponse
  dsimp only
  generalize b.addParty cfg .serverDisconnect serverID ctx pulse = r at *
  split
  · exact hadd
  · have hdata : KeepsLeases cfg b (r.2.modifyData ctx.mId (·.addNotification r.1)) :=
      hadd.trans (.of_eq rfl rfl rfl rfl rfl)
    split
    · exact hdata.trans (keepsLeases_monitorServer cfg serverID r.1 _)
    · split
      · exact hdata.trans (keepsLeases_sweep false .serverDisconnect _ _)
      · exact hdata

/-- A notification that waits is forwarded, and asks for its pool. -/
theorem keepsLeases_notifyServerAvailable (ctx : SocketConnectionContext) (pulse : SFNDPulseInfo)
    (d : InterfaceDescription) (b : Broker) :
    KeepsLeases cfg b (b.handleNotifyServerAvailableNoResponse cfg ctx pulse d).2 := by
  have hadd := keepsLeases_addDescription cfg d ctx pulse (cfg.isLocalService d.name) b
  unfold handleNotifyServerAvailableNoResponse
  dsimp only
  generalize b.addDescription cfg .serverConnect d ctx pulse (cfg.isLocalService d.name) = r at *
  split
  · exact .refl b
  · split
    · exact hadd
    · have hdata : KeepsLeases cfg b (r.2.modifyData ctx.mId (·.addNotification r.1)) :=
        hadd.trans (.of_eq rfl rfl rfl rfl rfl)
      split
      · exact hdata.trans (keepsLeases_sweep false .serverConnect _ _)
      · split
        · exact hdata.trans (keepsLeases_forward _)
        · exact hdata

/-- The first attach to an interface asks for its pool. -/
theorem keepsLeases_askMasterExtended (c : Nat) (d : InterfaceDescription) (pos : Nat)
    (poolFound : Bool) (id : UInt32) (b : Broker) :
    KeepsLeases cfg b (b.askMasterExtended cfg c d pos poolFound id).1 := by
  unfold askMasterExtended
  dsimp only
  split
  · have hstate : KeepsLeases cfg b (b.modifyPool pos (·.setState .STATE_PRECACHING)) := by
      refine keepsLeases_modifyPool cfg (fun np => ?_) pos b
      unfold NotificationPoolEntry.setState
      split <;> rfl
    exact hstate.trans (.eval ⟨rfl, rfl⟩ _)
  · split
    · exact .refl b
    · exact .eval ⟨rfl, rfl⟩ b
  · split
    · exact .refl b
    · exact .eval ⟨rfl, rfl⟩ b

/-- An attach that goes on to the master asks for its pool if it made one. -/
theorem keepsLeases_forwardAttachExtendedToMaster (ctx : SocketConnectionContext)
    (pulse : SFNDPulseInfo) (d : InterfaceDescription) (b : Broker) :
    KeepsLeases cfg b (b.forwardAttachExtendedToMaster cfg ctx pulse d).1 := by
  have hpool : KeepsLeases cfg b (b.extendedPool d).2.2 := by
    unfold extendedPool
    split
    · exact .refl b
    · exact keepsLeases_addPool _ _ b
  unfold forwardAttachExtendedToMaster
  dsimp only
  generalize b.extendedPool d = p at hpool
  have hadd := hpool.trans (keepsLeases_addDescription cfg d ctx pulse
    (cfg.isLocalService d.name) p.2.2)
  generalize p.2.2.addDescription cfg .serverConnect d ctx pulse _ = r at hadd
  split
  · exact hadd
  · split
    · exact hadd
    · have hdata : KeepsLeases cfg b (r.2.modifyData ctx.mId (·.addNotification r.1)) :=
        hadd.trans (.of_eq rfl rfl rfl rfl rfl)
      exact (hdata.trans (keepsLeases_attachPool cfg p.1 .serverConnect r.1 _)).trans
        (keepsLeases_askMasterExtended cfg ctx.mId d p.1 p.2.1 r.1 _)

/-- A local attach is about no pool. -/
theorem keepsLeases_handleAttachLocalInterface (ctx : SocketConnectionContext)
    (e : ServerListEntry) (b : Broker) :
    KeepsLeases cfg b (b.handleAttachLocalInterface cfg ctx e).2 := by
  unfold handleAttachLocalInterface addClient
  split
  · dsimp only
    split <;> exact .of_eq rfl rfl rfl rfl rfl
  · exact .refl b

/-- An extended attach asks for at most one pool. -/
theorem keepsLeases_handleAttachInterfaceExtended (ctx : SocketConnectionContext)
    (pulse : SFNDPulseInfo) (d : InterfaceDescription) (stackPulse : SFNDPulseInfo) (b : Broker) :
    KeepsLeases cfg b (b.handleAttachInterfaceExtended cfg ctx pulse d stackPulse).1 := by
  unfold handleAttachInterfaceExtended
  split
  · split
    · next entry _ =>
      have hlocal := keepsLeases_handleAttachLocalInterface cfg ctx entry b
      dsimp only
      split
      · exact hlocal
      · have hwatch := hlocal.trans
          (keepsLeases_notifyServerDisconnect cfg ctx entry.partyID stackPulse _)
        split <;> exact hwatch
    · split
      · have hset := keepsLeases_notifyServerAvailable cfg ctx pulse d b
        dsimp only
        split <;> exact hset
      · exact keepsLeases_forwardAttachExtendedToMaster cfg ctx pulse d b
  · exact .refl b

/-- The notifications that fire may empty their pools. -/
theorem keepsLeases_handleUnregisterInterface (ctx : SocketConnectionContext)
    (serverID : SPartyID) (b : Broker) :
    KeepsLeases cfg b (b.handleUnregisterInterface cfg ctx serverID).1 := by
  have hdata : KeepsLeases cfg b (b.modifyData ctx.mId (·.removeServer serverID)) :=
    .of_eq rfl rfl rfl rfl rfl
  unfold handleUnregisterInterface
  split
  · dsimp only
    split
    · exact hdata
    · next entry _ =>
      have htrigger := hdata.trans (keepsLeases_sweep false .serverDisconnect
        (fireIf (fun n => n.partyID = serverID)) _)
      have hmaster := htrigger.trans
        (keepsLeases_unregisterInterfaceMaster cfg entry.masterID _)
      have hdrop : KeepsLeases cfg b (Broker.dropServer serverID _) :=
        hmaster.trans (.of_eq rfl rfl rfl rfl rfl)
      exact hdrop.trans (keepsLeases_sweep false .serverListChange _ _)
  · exact .refl b

/-- A detach notification is in no pool. -/
theorem keepsLeases_handleNotifyClientDetach (ctx : SocketConnectionContext) (clientID : SPartyID)
    (pulse : SFNDPulseInfo) (b : Broker) :
    KeepsLeases cfg b (b.handleNotifyClientDetach cfg ctx clientID pulse).1 := by
  have hadd := keepsLeases_addParty cfg .clientDetach clientID ctx pulse b
  unfold handleNotifyClientDetach
  dsimp only
  generalize b.addParty cfg .clientDetach clientID ctx pulse = r at *
  split
  · exact hadd
  · have hdata : KeepsLeases cfg b (r.2.modifyData ctx.mId (·.addNotification r.1)) :=
      hadd.trans (.of_eq rfl rfl rfl rfl rfl)
    refine hdata.trans ?_
    show KeepsLeases cfg _ (ite _ _ _)
    split
    · exact .eval ⟨rfl, rfl⟩ _
    · split
      · exact .refl _
      · exact keepsLeases_sweep false .clientDetach _ _

/-- A notification for the list of interfaces is in no pool. -/
theorem keepsLeases_handleNotifyInterfaceListChange (ctx : SocketConnectionContext)
    (pulse : SFNDPulseInfo) (b : Broker) :
    KeepsLeases cfg b (b.handleNotifyInterfaceListChange cfg ctx pulse).1 := by
  have hadd : KeepsLeases cfg b (b.addPlain cfg .serverListChange ctx pulse).2 :=
    keepsLeases_addNotification cfg .serverListChange ctx pulse
      (by intro n; exact ⟨rfl, rfl, rfl⟩) b
  unfold handleNotifyInterfaceListChange
  dsimp only
  generalize b.addPlain cfg .serverListChange ctx pulse = r at *
  split
  · exact hadd
  · have hdata : KeepsLeases cfg b (r.2.modifyData ctx.mId (·.addNotification r.1)) :=
      hadd.trans (.of_eq rfl rfl rfl rfl rfl)
    exact hdata.trans (.evalMaster ⟨rfl, rfl⟩ _)

/-- Nor is one with an expression. -/
theorem keepsLeases_handleNotifyInterfaceListMatch (ctx : SocketConnectionContext)
    (pulse : SFNDPulseInfo) (regExpr : CString) (b : Broker) :
    KeepsLeases cfg b (b.handleNotifyInterfaceListMatch cfg ctx pulse regExpr).1 := by
  have hadd : KeepsLeases cfg b (b.addRegExp cfg .serverListChange regExpr ctx pulse).2 := by
    unfold addRegExp
    split
    · exact keepsLeases_addNotification cfg _ ctx pulse (by intro n; exact ⟨rfl, rfl, rfl⟩) b
    · exact .of_eq rfl rfl rfl rfl rfl
  unfold handleNotifyInterfaceListMatch
  dsimp only
  generalize b.addRegExp cfg .serverListChange regExpr ctx pulse = r at *
  split
  · exact hadd
  · have hdata : KeepsLeases cfg b (r.2.modifyData ctx.mId (·.addNotification r.1)) :=
      hadd.trans (.of_eq rfl rfl rfl rfl rfl)
    have hask := hdata.trans (.evalMaster (j := ⟨r.1, none, .notifyInterfaceListMatch
      (masterPulse cfg .PULSE_MASTER_SERVERLIST_CHANGE r.1) regExpr⟩) ⟨rfl, rfl⟩ _)
    refine hask.trans ?_
    show KeepsLeases cfg _ (ite _ _ _)
    split
    · exact keepsLeases_sweep true .serverListChange _ _
    · exact .refl _

/-- A notification that is cleared may have been the last of its pool. -/
theorem keepsLeases_handleClearNotification (ctx : SocketConnectionContext) (id : UInt32)
    (b : Broker) : KeepsLeases cfg b (b.handleClearNotification cfg ctx id).1 := by
  have hremove (k : NotificationKind) (b : Broker) :
      KeepsLeases cfg b (b.removeNotification cfg k id) := keepsLeases_sweep true k _ b
  unfold handleClearNotification
  split
  · have hdata : KeepsLeases cfg b (b.modifyData ctx.mId (·.removeNotification id)) :=
      .of_eq rfl rfl rfl rfl rfl
    exact (((hdata.trans (hremove .clientDetach _)).trans (hremove .serverDisconnect _)).trans
      (hremove .serverConnect _)).trans (hremove .serverListChange _)
  · exact .refl b

/-- The detach notifications that fire are in no pool. -/
theorem keepsLeases_handleDetachInterface (ctx : SocketConnectionContext) (clientID : SPartyID)
    (b : Broker) : KeepsLeases cfg b (b.handleDetachInterface cfg ctx clientID).1 := by
  unfold handleDetachInterface
  split
  · have htrigger : KeepsLeases cfg b (b.trigger cfg .clientDetach clientID) :=
      keepsLeases_sweep false .clientDetach _ b
    exact htrigger.trans (.of_eq rfl rfl rfl rfl rfl)
  · split
    · have hask : KeepsLeases cfg b (b.eval ⟨0, some ctx.mId, .detachInterface clientID⟩) :=
        .eval ⟨rfl, rfl⟩ b
      exact hask.trans (.of_eq rfl rfl rfl rfl rfl)
    · exact .refl b

/-- Every request keeps the ledger. -/
theorem keepsLeases_dispatch (ctx : SocketConnectionContext) (r : Request) (b : Broker) :
    KeepsLeases cfg b (b.dispatch cfg ctx r).1 := by
  cases r with
  | masterPing => exact .of_eq rfl rfl rfl rfl rfl
  | masterPingId id => exact .of_eq rfl rfl rfl rfl rfl
  | registerInterface d pid chid =>
      exact handleRegisterInterface_leaves (.refl b) fun _ _ =>
        keepsLeases_registerMaster cfg (keepsLeases_addInterface cfg ctx d pid chid _ _ b)
  | registerInterfaceGroupID d pid chid grpid =>
      exact handleRegisterInterfaceGroupID_leaves (.refl b) fun _ =>
        keepsLeases_registerMaster cfg (keepsLeases_addInterface cfg ctx d pid chid _ grpid b)
  | registerInterfaceEx n pid chid rs =>
      have hloop := keepsLeases_recordLoop cfg (f := registerRecordEx cfg ctx pid chid)
        (fun d s => keepsLeases_addInterface cfg ctx d pid chid _ _ s) n.toInt.toNat rs b
      exact handleRegisterInterfaceEx_leaves hloop (keepsLeases_registerMaster cfg hloop)
  | registerMasterInterfaceEx n rs =>
      have hrecord (r : SFNDInterfaceDescriptionEx) (s : Broker) :
          KeepsLeases cfg s (s.registerMasterRecord cfg ctx r).2 := by
        unfold registerMasterRecord
        split
        · exact .refl s
        · exact keepsLeases_addEntry cfg ctx.mId _ s
      exact handleRegisterMasterInterface_leaves
        (keepsLeases_registerMaster cfg (keepsLeases_recordLoop cfg hrecord n.toInt.toNat rs b))
  | unregisterInterface id => exact keepsLeases_handleUnregisterInterface cfg ctx id b
  | attachInterface d =>
      simp only [Broker.dispatch, handleAttachInterface]
      split
      · split
        · next entry _ =>
          have hlocal := keepsLeases_handleAttachLocalInterface cfg ctx entry b
          split <;> exact hlocal
        · split
          · exact .of_leases rfl rfl rfl (fun _ n hn hmaster => ⟨n, hn, hmaster, rfl⟩) rfl
              (List.forall_mem_singleton.mpr ⟨rfl, rfl⟩)
          · exact .refl b
      · exact .refl b
  | attachInterfaceExtended pulse d stackPulse =>
      exact keepsLeases_handleAttachInterfaceExtended cfg ctx pulse d stackPulse b
  | getServerInformation d =>
      simp only [Broker.dispatch, handleGetServerInformation]
      split
      · split
        · exact .refl b
        · split
          · exact .of_leases rfl rfl rfl (fun _ n hn hmaster => ⟨n, hn, hmaster, rfl⟩) rfl
              (List.forall_mem_singleton.mpr ⟨rfl, rfl⟩)
          · exact .refl b
      · exact .refl b
  | detachInterface id => exact keepsLeases_handleDetachInterface cfg ctx id b
  | notifyServerDisconnect id pulse =>
      have hset := keepsLeases_notifyServerDisconnect cfg ctx id pulse b
      simp only [Broker.dispatch, handleNotifyServerDisconnect]
      split <;> exact hset
  | notifyServerAvailable pulse d =>
      have hset := keepsLeases_notifyServerAvailable cfg ctx pulse d b
      simp only [Broker.dispatch, handleNotifyServerAvailable]
      split <;> exact hset
  | notifyServerAvailableEx n rs =>
      have hset := keepsLeases_recordLoop cfg (f := notifyAvailableRecord cfg ctx)
        (fun x s => keepsLeases_notifyServerAvailable cfg ctx x.pulse x.ifDescription s)
        n.toInt.toNat rs b
      simp only [Broker.dispatch, handleNotifyServerAvailableEx]
      split <;> exact hset
  | notifyClientDetach id pulse =>
      exact keepsLeases_handleNotifyClientDetach cfg ctx id pulse b
  | clearNotification id => exact keepsLeases_handleClearNotification cfg ctx id b
  | getInterfaceList n =>
      simp only [Broker.dispatch, handleGetInterfaceList]
      split
      · exact .eval ⟨rfl, rfl⟩ b
      · split <;> exact .refl b
  | notifyInterfaceListChange pulse =>
      exact keepsLeases_handleNotifyInterfaceListChange cfg ctx pulse b
  | matchInterfaceList n re =>
      simp only [Broker.dispatch, handleMatchInterfaceList]
      split
      · exact .refl b
      · split
        · exact .eval ⟨rfl, rfl⟩ b
        · split <;> exact .refl b
  | notifyInterfaceListMatch pulse re =>
      exact keepsLeases_handleNotifyInterfaceListMatch cfg ctx pulse re b
  | badFoundationVersion => exact .refl b
  | malformed => exact .refl b

/-- So does a connection that closes. -/
theorem keepsLeases_clear (c : Nat) (b : Broker) : KeepsLeases cfg b (b.clear cfg c) := by
  have hserver (b : Broker) (id : SPartyID) : KeepsLeases cfg b (b.clearServer cfg id) := by
    unfold clearServer
    split
    · exact .refl b
    · exact (keepsLeases_unregisterInterfaceMaster cfg _ b).trans (.of_eq rfl rfl rfl rfl rfl)
  have hclient (b : Broker) (id : SPartyID) : KeepsLeases cfg b (b.clearClient cfg id) := by
    have hremove : KeepsLeases cfg b
        { b with mAttachedClients := b.mAttachedClients.remove id } := .of_eq rfl rfl rfl rfl rfl
    exact hremove.trans (.evalMaster ⟨rfl, rfl⟩ _)
  have hremove (k : NotificationKind) (b : Broker) :
      KeepsLeases cfg b (b.removeNotificationsOf cfg k c) := keepsLeases_sweep false k _ b
  have hparties := (KeepsLeases.foldl hserver (b.dataOf c).mServerList.elems b).trans
    (.foldl hclient (b.dataOf c).mClientList.elems _)
  have hservers := hparties.trans (keepsLeases_sweep false .serverDisconnect
    (fireIf (fun n => (b.dataOf c).mServerList.contains n.partyID)) _)
  have hclients := hservers.trans (keepsLeases_sweep false .clientDetach
    (fireIf (fun n => (b.dataOf c).mClientList.contains n.partyID)) _)
  have hgone := ((hclients.trans (hremove .serverDisconnect _)).trans
    (hremove .clientDetach _)).trans
      ((hremove .serverConnect _).trans (hremove .serverListChange _))
  unfold clear
  dsimp only
  split
  · exact hgone.trans (keepsLeases_sweep false .serverListChange _ _)
  · exact hgone

/-- So does a pulse of the master. -/
theorem keepsLeases_dispatchPulse (p : MasterPulse) (value : UInt32) (b : Broker) :
    KeepsLeases cfg b (b.dispatchPulse cfg p value) := by
  cases p with
  | PULSE_MASTER_SERVER_AVAILABLE => exact keepsLeases_sweep false .serverConnect _ b
  | PULSE_MASTER_SERVER_DISCONNECT => exact keepsLeases_sweep false .serverDisconnect _ b
  | PULSE_MASTER_CLIENT_DETACH =>
      simp only [dispatchPulse, handleMasterClientDetach]
      split
      · exact keepsLeases_sweep false .clientDetach _ b
      · exact keepsLeases_sweep true .clientDetach _ b
  | PULSE_MASTER_SERVERLIST_CHANGE => exact keepsLeases_sweep true .serverListChange _ b
  | PULSE_MASTER_ATTACH_EXTENDED =>
      simp only [dispatchPulse, handleMasterAttachExtended]
      split
      · exact .refl b
      · next pos _ =>
        split
        · exact keepsLeases_sweep false .serverDisconnect _ b
        · have hstate : KeepsLeases cfg b (b.modifyPool pos (·.setState .STATE_CONNECTED)) := by
            refine keepsLeases_modifyPool cfg (fun np => ?_) pos b
            unfold NotificationPoolEntry.setState
            split <;> rfl
          exact hstate.trans (keepsLeases_sweep false .serverConnect _ _)
        · exact .refl b

end Handlers

/-! ## Replies -/

section Replies

variable {cfg : Config} {b : Broker} {pending : List UInt32} {granted : List (UInt32 × UInt32)}
  {released : List UInt32}

/-- What storing the ID of a pool does to the ledger: a pool that is gone has its ID
given back. -/
theorem store_storePoolNotification (h : Leased cfg pending granted released b) (p : UInt32)
    {x : UInt32} (hx : x ≠ INVALID_NOTIFICATION_ID) :
    let l := Leases.store ⟨b.leases, pending, granted, released⟩ p x
    let b' := b.storePoolNotification cfg p x
    b'.leases = l.held ∧ ∃ js, b'.mQueue = b.mQueue ++ js ∧ js.flatMap Job.pools = [] ∧
      (b.isMasterConnected cfg = true → released ++ js.filterMap Job.clears? = l.released) := by
  have hkeys := h.sound.keys
  rw [keys_leases] at hkeys
  unfold Leases.store storePoolNotification NotificationPool.findPool
  dsimp only
  rw [keys_leases]
  split
  · next pos hpos =>
    obtain ⟨hlt, hid, _⟩ := List.findIdx?_eq_some_iff_getElem.mp hpos
    have hid : (b.mMasterNotificationPool[pos]).poolID = p := by simpa using hid
    rw [if_pos (List.mem_map.mpr ⟨_, List.getElem_mem hlt, hid⟩)]
    refine ⟨?_, [], (List.append_nil _).symm, rfl, fun _ => List.append_nil _⟩
    rw [leases, modifyPool, modify_eq_map hkeys (List.getElem?_eq_getElem hlt), hid, leases,
      List.map_map, List.map_map]
    refine List.map_congr_left fun np _ => ?_
    by_cases heq : np.poolID = p
    · simp [NotificationPoolEntry.lease, heq, hx]
    · simp [NotificationPoolEntry.lease, heq]
  · next hnone =>
    have hgone : p ∉ b.mMasterNotificationPool.map (·.poolID) := by
      simpa [List.findIdx?_eq_none_iff] using hnone
    rw [if_neg hgone]
    unfold createClearNotificationJob evalMaster
    split
    · exact ⟨rfl, [⟨0, none, .clearNotification x⟩], rfl, rfl, fun _ => rfl⟩
    · next hmaster => exact ⟨rfl, [], (List.append_nil _).symm, rfl, fun hc => absurd hc hmaster⟩

/-- A broker in which the IDs of the pools have changed, and nothing else. -/
theorem Leased.of_ledger {pending' : List UInt32} {granted' : List (UInt32 × UInt32)}
    {released' : List UInt32} {b' : Broker} (h : Leased cfg pending granted released b)
    (hsound : (⟨b'.leases, pending', granted', released'⟩ : Leases UInt32 UInt32).Sound)
    (hkeys : b'.leases.map Prod.fst = b.leases.map Prod.fst) (hpending : pending' ⊆ pending)
    (hnext : b'.nextPoolID = b.nextPoolID) (hnotes : b'.notifications = b.notifications)
    (hothers : ∀ k, ∀ n ∈ b.notifications k, n.masterNotificationID ≠ INVALID_NOTIFICATION_ID →
      n.notificationID ∉ granted'.map Prod.snd)
    (hmaster : granted' = [] ∨ b'.isMasterConnected cfg = true) :
    Leased cfg pending' granted' released' b' where
  sound := hsound
  counted e he := by
    have hmem : e.1 ∈ b.leases.map Prod.fst := hkeys ▸ List.mem_map_of_mem he
    obtain ⟨e', he', hid⟩ := List.mem_map.mp hmem
    rw [hnext, ← hid]
    exact h.counted e' he'
  asked p hp := hnext ▸ h.asked p (hpending hp)
  others k n hn := hothers k n (hnotes ▸ hn)
  master := hmaster

/-- What storing an ID leaves alone. -/
theorem storePoolNotification_frame (cfg : Config) (p x : UInt32) (b : Broker) :
    (b.storePoolNotification cfg p x).phase = b.phase ∧
      (b.storePoolNotification cfg p x).nextPoolID = b.nextPoolID ∧
      (b.storePoolNotification cfg p x).notifications = b.notifications := by
  unfold storePoolNotification createClearNotificationJob evalMaster
  split
  · exact ⟨rfl, rfl, rfl⟩
  · split <;> exact ⟨rfl, rfl, rfl⟩

/-- Is the ID new for the ledger of this broker? -/
def freshAt (granted : List (UInt32 × UInt32)) (released : List UInt32) (x : UInt32)
    (b : Broker) : Prop :=
  (⟨b.leases, [], granted, released⟩ : Leases UInt32 UInt32).Fresh x

/-- An ID that is not granted to anybody is stored. -/
theorem leasedFrom_store {p x : UInt32} (h : Leased cfg (p :: pending) granted released b)
    (hvalid : x ≠ INVALID_NOTIFICATION_ID) (hx : x ∉ granted.map Prod.snd) :
    LeasedFrom cfg pending granted released b (b.storePoolNotification cfg p x) := by
  obtain ⟨hleases, js, hq, hpools, hclears⟩ := store_storePoolNotification h p hvalid
  obtain ⟨hphase, hnext, hnotes⟩ := storePoolNotification_frame cfg p x b
  refine ⟨js, hq, ?_⟩
  rw [hpools, List.append_nil]
  have hsound := h.sound.store rfl hx
  refine h.of_ledger ?_ (by rw [hleases]; exact keys_store) (List.subset_cons_self _ _) hnext hnotes
    h.others (h.master.imp_right fun hm => by rwa [isMasterConnected, hphase])
  rw [hleases]
  rcases h.master with hnone | hmaster
  · subst hnone
    exact hsound.restart _
  · rw [hclears hmaster]
    simpa using hsound

/-- A new ID is granted to the pool that has asked for it. -/
theorem leasedFrom_grant {p x : UInt32} (h : Leased cfg (p :: pending) granted released b)
    (hvalid : x ≠ INVALID_NOTIFICATION_ID) (hfresh : b.freshAt granted released x)
    (hothers : ∀ k, ∀ n ∈ b.notifications k, n.masterNotificationID ≠ INVALID_NOTIFICATION_ID →
      n.notificationID ≠ x) (hmaster : b.isMasterConnected cfg = true) :
    ∃ js, (b.storePoolNotification cfg p x).mQueue = b.mQueue ++ js ∧
      Leased cfg (pending ++ js.flatMap Job.pools) (granted ++ [(p, x)])
        (released ++ js.filterMap Job.clears?) (b.storePoolNotification cfg p x) ∧
      ∀ y, b.freshAt granted released y → y ≠ x → freshAt (granted ++ [(p, x)])
        (released ++ js.filterMap Job.clears?) y (b.storePoolNotification cfg p x) := by
  obtain ⟨hleases, js, hq, hpools, hclears⟩ := store_storePoolNotification h p hvalid
  obtain ⟨hphase, hnext, hnotes⟩ := storePoolNotification_frame cfg p x b
  refine ⟨js, hq, ?_, fun y hy hne => ?_⟩
  · rw [hpools, List.append_nil, hclears hmaster]
    refine h.of_ledger ?_ (by rw [hleases]; exact keys_store) (List.subset_cons_self _ _) hnext
      hnotes (fun k n hn hknown => ?_) (.inr (by rwa [isMasterConnected, hphase]))
    · rw [hleases]
      exact h.sound.grant rfl hfresh
    · simp only [List.map_append, List.mem_append, List.map_cons, List.map_nil,
        List.mem_singleton]
      exact not_or.mpr ⟨h.others k n hn hknown, hothers k n hn hknown⟩
  · rw [freshAt, hleases, hclears hmaster]
    exact Leases.Fresh.grant (l := ⟨b.leases, p :: pending, granted, released⟩) (k := p) hy hne

/-- The reply without an ID to a pool that has asked. -/
theorem leasedFrom_store_invalid {p : UInt32} (h : Leased cfg (p :: pending) granted released b)
    (hx : INVALID_NOTIFICATION_ID ∉ granted.map Prod.snd) :
      LeasedFrom cfg pending granted released b
      (b.storePoolNotification cfg p INVALID_NOTIFICATION_ID) := by
  have hforget : Leased cfg pending granted released b :=
    h.of_ledger (h.sound.forget (List.sublist_cons_self _ _)) rfl (List.subset_cons_self _ _) rfl
      rfl h.others h.master
  unfold storePoolNotification
  split
  · next pos hpos =>
    refine hforget.of_quiet rfl rfl ?_ (fun _ n hn hmaster => ⟨n, hn, hmaster, rfl⟩) rfl
    -- a pool that has asked has no ID yet
    have hkeys := h.sound.keys
    rw [keys_leases] at hkeys
    obtain ⟨hlt, hid, _⟩ := List.findIdx?_eq_some_iff_getElem.mp hpos
    have hid : (b.mMasterNotificationPool[pos]).poolID = p := by simpa using hid
    rw [leases, modifyPool, modify_eq_map hkeys (List.getElem?_eq_getElem hlt), hid, leases,
      List.map_map]
    refine List.map_congr_left fun np hnp => ?_
    by_cases heq : np.poolID = p
    · have hnone : np.notificationID = INVALID_NOTIFICATION_ID := by
        by_contra hsome
        refine h.sound.waiting p List.mem_cons_self np.notificationID ?_
        exact List.mem_map.mpr ⟨np, hnp, by simp [NotificationPoolEntry.lease, heq, hsome]⟩
      simp [NotificationPoolEntry.lease, heq, hnone]
    · simp [heq]
  · exact leasedFrom_createClear { hforget with sound := hforget.sound.release hx }

/-- The answers to a job, when none of their IDs was granted. -/
theorem leasedFrom_finish {rs : List SFNDNotificationID} {pending : List UInt32}
    {released : List UInt32} {b : Broker}
    (h : Leased cfg (rs.map (·.cookie) ++ pending) granted released b)
    (hrs : ∀ r ∈ rs, r.notificationID ∉ granted.map Prod.snd) :
    LeasedFrom cfg pending granted released b (rs.foldl (finishAvailableRecord cfg) b) := by
  induction rs generalizing pending released b with
  | nil => exact leasedFrom_refl h
  | cons r rs ih =>
      obtain ⟨hr, hrs⟩ := List.forall_mem_cons.mp hrs
      have hfirst : LeasedFrom cfg (rs.map (·.cookie) ++ pending) granted released b
          (b.finishAvailableRecord cfg r) := by
        unfold finishAvailableRecord
        split
        · exact leasedFrom_refl (h.of_ledger (h.sound.forget (List.sublist_cons_self _ _)) rfl
            (List.subset_cons_self _ _) rfl rfl h.others h.master)
        · next hvalid => exact leasedFrom_store h hvalid hr
      obtain ⟨js, hq, hb⟩ := hfirst
      rw [List.append_assoc] at hb
      obtain ⟨js', hq', hb'⟩ := ih hb hrs
      refine ⟨js ++ js', by rw [List.foldl_cons, hq', hq, List.append_assoc], ?_⟩
      rw [List.flatMap_append, List.filterMap_append, ← List.append_assoc, ← List.append_assoc]
      exact hb'

/-- The answers to a job that the master has served, with new IDs. -/
theorem leasedFrom_finish_grant {rs : List SFNDNotificationID} {pending : List UInt32}
    {granted : List (UInt32 × UInt32)} {released : List UInt32} {b : Broker}
    (h : Leased cfg (rs.map (·.cookie) ++ pending) granted released b)
    (hnodup : ((grantsOf rs).map Prod.snd).Nodup)
    (hfresh : ∀ x ∈ (grantsOf rs).map Prod.snd, b.freshAt granted released x)
    (hothers : ∀ k, ∀ n ∈ b.notifications k, n.masterNotificationID ≠ INVALID_NOTIFICATION_ID →
      n.notificationID ∉ (grantsOf rs).map Prod.snd) (hmaster : b.isMasterConnected cfg = true) :
    LeasedFrom cfg pending (granted ++ grantsOf rs) released b
      (rs.foldl (finishAvailableRecord cfg) b) := by
  induction rs generalizing pending granted released b with
  | nil =>
      rw [grantsOf, List.filter_nil, List.map_nil, List.append_nil]
      exact leasedFrom_refl h
  | cons r rs ih =>
      rw [List.foldl_cons]
      by_cases hvalid : r.notificationID = INVALID_NOTIFICATION_ID
      · have hskip : b.finishAvailableRecord cfg r = b := if_pos hvalid
        have hgrants : grantsOf (r :: rs) = grantsOf rs := by simp [grantsOf, hvalid]
        rw [hgrants] at hnodup hfresh hothers ⊢
        rw [hskip]
        refine ih (h.of_ledger (h.sound.forget (List.sublist_cons_self _ _)) rfl
          (List.subset_cons_self _ _) rfl rfl h.others h.master) hnodup hfresh hothers hmaster
      · have hstore : b.finishAvailableRecord cfg r =
            b.storePoolNotification cfg r.cookie r.notificationID := if_neg hvalid
        have hgrants : grantsOf (r :: rs) = (r.cookie, r.notificationID) :: grantsOf rs := by
          simp [grantsOf, hvalid]
        rw [hgrants] at hnodup hfresh hothers ⊢
        rw [List.map_cons] at hnodup hfresh hothers
        obtain ⟨hnew, hnodup⟩ := List.nodup_cons.mp hnodup
        obtain ⟨hfirst, hfresh⟩ := List.forall_mem_cons.mp hfresh
        obtain ⟨hphase, _, hnotes⟩ :=
          storePoolNotification_frame cfg r.cookie r.notificationID b
        have hasked : Leased cfg (r.cookie :: (rs.map (·.cookie) ++ pending)) granted released b :=
          h
        obtain ⟨js, hq, hb, hstill⟩ := leasedFrom_grant hasked hvalid hfirst
          (fun k n hn hknown heq => hothers k n hn hknown (heq ▸ List.mem_cons_self)) hmaster
        rw [List.append_assoc] at hb
        obtain ⟨js', hq', hb'⟩ := ih hb hnodup
          (fun y hy => hstill y (hfresh y hy) fun heq => hnew (heq ▸ hy))
          (fun k n hn hknown hmem =>
            hothers k n (hnotes ▸ hn) hknown (List.mem_cons_of_mem _ hmem))
          (by rwa [isMasterConnected, hphase])
        rw [hstore]
        refine ⟨js ++ js', by rw [hq', hq, List.append_assoc], ?_⟩
        rw [List.flatMap_append, List.filterMap_append, ← List.append_assoc, ← List.append_assoc]
        rw [List.append_assoc granted] at hb'
        exact hb'

end Replies

end Broker

end Dsi
