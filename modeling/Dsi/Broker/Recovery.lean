import Dsi.Broker.AttachExtended

/-!
# Dsi.Broker.Recovery

A slave loses its master and finds it again.  The worker thread reports both over the
pipe; `handleMasterDisconnected` is meant to forget what the lost master knew, and
`handleMasterConnected` to hand everything that waits for news to the new one.

The connection is there before it is reported, and what is set in between is handed
over at once.  So the main thread knows less than the worker thread: it awaits a
master as long as the next report is a connection, or there is none and the worker
thread has no session.
-/

namespace Dsi

open Sequence

/-! ## Registrations at the master -/

/-- The job sets the notification of this pool, on this interface, at the master. -/
def JobArg.sets (poolID : UInt32) (d : InterfaceDescription) : JobArg → Bool
  | .notifyServerAvailableEx records =>
      records.any (fun r => r.cookie == poolID && r.ifDescription == d)
  | .attachInterfaceExtended pulse d' => pulse.value == poolID && d' == d
  | _ => false

/-- The job sets this list notification at the master. -/
def JobArg.setsList (n : Notification) : JobArg → Bool
  | .notifyInterfaceListChange pulse =>
      n.regExpr == none && pulse.value == n.notificationID
  | .notifyInterfaceListMatch pulse regExpr =>
      n.regExpr == some regExpr && pulse.value == n.notificationID
  | _ => false

/-- One of the jobs sets the notification of this pool. -/
def AsksPool (L : List Job) (poolID : UInt32) (d : InterfaceDescription) : Prop :=
  ∃ j ∈ L, j.arg.sets poolID d = true

/-- More jobs set the pool too. -/
theorem AsksPool.mono {L L' : List Job} {poolID : UInt32} {d : InterfaceDescription}
    (h : AsksPool L poolID d) (hsub : L ⊆ L') : AsksPool L' poolID d := by
  obtain ⟨j, hj, hsets⟩ := h
  exact ⟨j, hsub hj, hsets⟩

namespace Broker

/-- The jobs set every pool of an interface at the master, and those that the connect
notifications are in. -/
structure Covers (L : List Job) (b : Broker) : Prop where
  notifications : ∀ n ∈ b.mServerConnectNotifications, n.poolID ≠ 0 →
    AsksPool L n.poolID n.ifDescription
  pools : ∀ np ∈ b.mMasterNotificationPool, ∀ d, np.mDataSwitch = .ifDescription d →
    AsksPool L np.poolID d

/-! ## Forwarding -/

/-- What `Q` says of the pools at the start, it or a new record says of the pools and
of the pooled notifications at the end. -/
theorem forwardLoop_asked (cfg : Config) {Q : UInt32 → InterfaceDescription → Prop}
    (ns : List Notification) {b : Broker}
    (h : ∀ np ∈ b.mMasterNotificationPool, ∀ d, np.mDataSwitch = .ifDescription d →
      Q np.poolID d) :
    let r := forwardLoop cfg ns b
    let told (poolID : UInt32) (d : InterfaceDescription) : Prop :=
      Q poolID d ∨ ∃ x ∈ r.2.1, x.cookie = poolID ∧ x.ifDescription = d
    (∀ np ∈ r.2.2.mMasterNotificationPool, ∀ d, np.mDataSwitch = .ifDescription d →
        told np.poolID d) ∧
      ∀ n ∈ r.1, (n ∈ ns ∧ forwardEligible cfg n = false) ∨ told n.poolID n.ifDescription := by
  induction ns generalizing b Q with
  | nil => exact ⟨fun np hnp d hd => .inl (h np hnp d hd), by simp [forwardLoop]⟩
  | cons n ns ih =>
      rw [forwardLoop]
      split
      · split
        · next pos hpos =>
          obtain ⟨hpools, hns⟩ := ih h
          refine ⟨hpools, ?_⟩
          intro n' hn'
          cases List.mem_cons.mp hn' with
          | inl hhead =>
              obtain ⟨hlt, hfor, _⟩ := List.findIdx?_eq_some_iff_getElem.mp hpos
              have hdata : b.mMasterNotificationPool[pos].mDataSwitch =
                  .ifDescription n.ifDescription := by
                simp only [NotificationPoolEntry.isFor, Bool.and_eq_true, beq_iff_eq] at hfor
                exact hfor.2
              have hq := h _ (List.getElem_mem hlt) _ hdata
              refine .inr (.inl ?_)
              rw [hhead]
              simpa [poolIDAt, hlt] using hq
          | inr htail =>
              cases hns n' htail with
              | inl hkept => exact .inl ⟨List.mem_cons_of_mem _ hkept.1, hkept.2⟩
              | inr htold => exact .inr htold
        · -- the new pool is in the new record
          have hnew : ∀ np ∈ (b.addPoolDescription n.ifDescription false).mMasterNotificationPool,
              ∀ d, np.mDataSwitch = .ifDescription d →
                (Q np.poolID d ∨
                  (UInt32.ofNat b.nextPoolID = np.poolID ∧ n.ifDescription = d)) := by
            intro np hnp d hd
            cases List.mem_cons.mp hnp with
            | inl he =>
                rw [he] at hd ⊢
                exact .inr ⟨rfl, DataSwitch.ifDescription.inj hd⟩
            | inr hold => exact .inl (h np hold d hd)
          obtain ⟨hpools, hns⟩ := ih (Q := fun poolID d =>
            Q poolID d ∨ (UInt32.ofNat b.nextPoolID = poolID ∧ n.ifDescription = d)) hnew
          have hmerge {poolID : UInt32} {d : InterfaceDescription}
              {xs : List SFNDNotificationDescription} {x : SFNDNotificationDescription}
              (hx : x.cookie = UInt32.ofNat b.nextPoolID ∧ x.ifDescription = n.ifDescription)
              (htold : (Q poolID d ∨ (UInt32.ofNat b.nextPoolID = poolID ∧ n.ifDescription = d)) ∨
                ∃ y ∈ xs, y.cookie = poolID ∧ y.ifDescription = d) :
              Q poolID d ∨ ∃ y ∈ x :: xs, y.cookie = poolID ∧ y.ifDescription = d := by
            obtain (hq | ⟨hid, hd⟩) | ⟨y, hy, hyd⟩ := htold
            · exact .inl hq
            · exact .inr ⟨x, List.mem_cons_self, hx.1.trans hid, hx.2.trans hd⟩
            · exact .inr ⟨y, List.mem_cons_of_mem _ hy, hyd⟩
          refine ⟨fun np hnp d hd => hmerge ⟨rfl, rfl⟩ (hpools np hnp d hd), ?_⟩
          intro n' hn'
          cases List.mem_cons.mp hn' with
          | inl hhead =>
              rw [hhead]
              exact .inr (.inr ⟨_, List.mem_cons_self, rfl, rfl⟩)
          | inr htail =>
              cases hns n' htail with
              | inl hkept => exact .inl ⟨List.mem_cons_of_mem _ hkept.1, hkept.2⟩
              | inr htold => exact .inr (hmerge ⟨rfl, rfl⟩ htold)
      · next helig =>
        obtain ⟨hpools, hns⟩ := ih h
        refine ⟨hpools, ?_⟩
        intro n' hn'
        cases List.mem_cons.mp hn' with
        | inl hhead =>
            rw [hhead]
            exact .inl ⟨List.mem_cons_self, by simpa using helig⟩
        | inr htail =>
            cases hns n' htail with
            | inl hkept => exact .inl ⟨List.mem_cons_of_mem _ hkept.1, hkept.2⟩
            | inr htold => exact .inr htold

/-- The notifications that are not for this broker alone and that the configuration
forwards. -/
def forwards (cfg : Config) (n : Notification) : Bool :=
  !n.isLocal && cfg.forwardService n.ifDescription.name

/-- `forwardServerAvailableNotifications` puts every notification that is to be
forwarded into a pool, and asks the master for the new pools. -/
theorem Covers.forward {cfg : Config} {L : List Job} {b : Broker} (h : Covers L b)
    (hmaster : b.isMasterConnected cfg = true) :
    ∃ js, (b.forwardServerAvailableNotifications cfg).mQueue = b.mQueue ++ js ∧
      Covers (L ++ js) (b.forwardServerAvailableNotifications cfg) ∧
      ∀ n ∈ (b.forwardServerAvailableNotifications cfg).mServerConnectNotifications,
        forwards cfg n = true → AsksPool (L ++ js) n.poolID n.ifDescription := by
  obtain ⟨hpools, hns⟩ := forwardLoop_asked cfg b.mServerConnectNotifications h.pools
  have hframe := (forwardLoop_frame cfg b.mServerConnectNotifications b).1
  unfold forwardServerAvailableNotifications
  rw [if_pos hmaster]
  dsimp only
  rw [foldl_eval, hframe]
  refine ⟨_, rfl, ?_⟩
  have htold {poolID : UInt32} {d : InterfaceDescription}
      (ht : AsksPool L poolID d ∨ ∃ x ∈ (forwardLoop cfg b.mServerConnectNotifications b).2.1,
        x.cookie = poolID ∧ x.ifDescription = d) :
      AsksPool (L ++ (batches MAX_MULTIPLE_COUNT []
        (forwardLoop cfg b.mServerConnectNotifications b).2.1).map (fun batch =>
          ⟨UInt32.ofNat batch.length, none, .notifyServerAvailableEx batch⟩)) poolID d := by
    obtain hq | ⟨x, hx, hid, hd⟩ := ht
    · exact hq.mono (List.subset_append_left _ _)
    · have hflat : x ∈ (batches MAX_MULTIPLE_COUNT []
          (forwardLoop cfg b.mServerConnectNotifications b).2.1).flatten := by
        rw [flatten_batches, List.nil_append]
        exact hx
      obtain ⟨batch, hbatch, hmem⟩ := List.mem_flatten.mp hflat
      refine ⟨_, List.mem_append_right _ (List.mem_map.mpr ⟨batch, hbatch, rfl⟩), ?_⟩
      exact List.any_eq_true.mpr ⟨x, hmem, by simp [hid, hd]⟩
  refine ⟨⟨?_, fun np hnp d hd => htold (hpools np hnp d hd)⟩, ?_⟩
  · intro n hn hid
    cases hns n hn with
    | inl hkept => exact htold (.inl (h.notifications n hkept.1 hid))
    | inr ht => exact htold ht
  · intro n hn hforward
    cases hns n hn with
    | inl hkept =>
        refine htold (.inl (h.notifications n hkept.1 ?_))
        intro hzero
        simp only [forwards, Bool.and_eq_true, Bool.not_eq_true'] at hforward
        simp [forwardEligible, hzero, hforward] at hkept
    | inr ht => exact htold ht

/-! ## The other updates -/

/-- No pool is new in `b'`, up to the state and the number of members. -/
def PoolsFrom (b b' : Broker) : Prop :=
  ∀ np' ∈ b'.mMasterNotificationPool, ∃ np ∈ b.mMasterNotificationPool,
    np.poolID = np'.poolID ∧ np.mDataSwitch = np'.mDataSwitch

section PoolsFrom

variable {b b' b'' : Broker}

/-- The pools are all that counts. -/
theorem poolsFrom_of_eq (h : b'.mMasterNotificationPool = b.mMasterNotificationPool) :
    PoolsFrom b b' := by
  intro np hnp
  exact ⟨np, h ▸ hnp, rfl, rfl⟩

/-- No pool is new on both parts of the way. -/
theorem PoolsFrom.trans (h : PoolsFrom b b') (h' : PoolsFrom b' b'') : PoolsFrom b b'' := by
  intro np'' hnp''
  obtain ⟨np', hnp', hid', hdata'⟩ := h' np'' hnp''
  obtain ⟨np, hnp, hid, hdata⟩ := h np' hnp'
  exact ⟨np, hnp, hid.trans hid', hdata.trans hdata'⟩

/-- A pool that keeps its ID and whom it is for is not new. -/
theorem poolsFrom_modifyPool (pos : Nat) {f : NotificationPoolEntry → NotificationPoolEntry}
    (hf : ∀ np, (f np).poolID = np.poolID ∧ (f np).mDataSwitch = np.mDataSwitch) (b : Broker) :
    PoolsFrom b (b.modifyPool pos f) := by
  intro np' hnp'
  obtain ⟨i, hi, rfl⟩ := List.mem_iff_getElem.mp hnp'
  simp only [modifyPool, List.length_modify] at hi
  simp only [modifyPool, List.getElem_modify]
  split
  · exact ⟨_, List.getElem_mem hi, (hf _).1.symm, (hf _).2.symm⟩
  · exact ⟨_, List.getElem_mem hi, rfl, rfl⟩

/-- A job makes no pool. -/
theorem poolsFrom_evalMaster (cfg : Config) (job : Job) (b : Broker) :
    PoolsFrom b (b.evalMaster cfg job) := by
  unfold evalMaster
  split <;> exact poolsFrom_of_eq rfl

/-- A notification that goes makes no pool. -/
theorem poolsFrom_destroy (cfg : Config) (n : Notification) (b : Broker) :
    PoolsFrom b (b.destroy cfg n) := by
  have hdetach (pos : Nat) (b : Broker) : PoolsFrom b (b.detachPool cfg pos) := by
    have hremove (poolID : UInt32) : PoolsFrom b
        { b with mMasterNotificationPool := b.mMasterNotificationPool.removePool poolID } := by
      intro np hnp
      exact ⟨np, List.mem_of_mem_eraseP hnp, rfl, rfl⟩
    unfold detachPool
    split
    · exact poolsFrom_of_eq rfl
    · dsimp only
      split
      · split
        · exact (hremove _).trans (poolsFrom_evalMaster cfg _ _)
        · exact hremove _
      · refine poolsFrom_modifyPool pos ?_ b
        intro np
        exact ⟨rfl, rfl⟩
  have hhost : PoolsFrom b (b.unhost n) := by
    unfold unhost
    split <;> exact poolsFrom_of_eq rfl
  refine hhost.trans ?_
  rw [destroy, releaseMaster]
  split
  · split
    · exact hdetach _ _
    · exact poolsFrom_of_eq rfl
  · split
    · exact poolsFrom_evalMaster cfg _ _
    · exact poolsFrom_of_eq rfl

/-- A sweep makes no pool. -/
theorem poolsFrom_sweep (cfg : Config) (once : Bool) (k : NotificationKind)
    (act : Broker → Notification → Action) (b : Broker) : PoolsFrom b (b.sweep cfg once k act) := by
  have hsend (n : Notification) (b : Broker) : PoolsFrom b (b.send cfg n).2 := by
    unfold send doConnect
    dsimp only
    split
    · exact poolsFrom_of_eq rfl
    · split <;> exact poolsFrom_of_eq rfl
  have hloop (ns : List Notification) (b : Broker) :
      PoolsFrom b (sweepLoop cfg once act ns b).2 := by
    induction ns generalizing b with
    | nil => exact poolsFrom_of_eq rfl
    | cons n ns ih =>
        rw [sweepLoop]
        split
        · exact ih b
        · exact ih b
        · dsimp only
          split
          · exact hsend n b
          · exact (hsend n b).trans (ih _)
        · have hfire := (hsend n b).trans (poolsFrom_destroy cfg (b.send cfg n).1 _)
          dsimp only
          split
          · exact hfire
          · exact hfire.trans (ih _)
        · have hdrop := poolsFrom_destroy cfg n b
          dsimp only
          split
          · exact hdrop
          · exact hdrop.trans (ih _)
  refine (hloop (b.notifications k) b).trans ?_
  cases k <;> exact poolsFrom_of_eq rfl

end PoolsFrom

namespace Covers

variable {cfg : Config} {L : List Job} {b b' : Broker}

/-- More jobs cover what fewer do. -/
theorem mono (h : Covers L b) {L' : List Job} (hsub : L ⊆ L') : Covers L' b where
  notifications n hn hid := (h.notifications n hn hid).mono hsub
  pools np hnp d hd := (h.pools np hnp d hd).mono hsub

/-- Members and pools that were there before are covered as before. -/
theorem of_from (h : Covers L b)
    (hnotes : ∀ n' ∈ b'.mServerConnectNotifications, n'.poolID ≠ 0 →
      ∃ n ∈ b.mServerConnectNotifications, n.poolID = n'.poolID ∧
        n.ifDescription = n'.ifDescription)
    (hpools : PoolsFrom b b') : Covers L b' where
  notifications n' hn' hid := by
    obtain ⟨n, hn, hsame, hd⟩ := hnotes n' hn' hid
    rw [← hsame, ← hd]
    exact h.notifications n hn (hsame ▸ hid)
  pools np' hnp' d hd := by
    obtain ⟨np, hnp, hid, hdata⟩ := hpools np' hnp'
    rw [← hid]
    exact h.pools np hnp d (hdata.trans hd)

/-- The connect notifications and the pools are all that counts. -/
theorem of_eq (h : Covers L b)
    (hnotes : b'.mServerConnectNotifications = b.mServerConnectNotifications)
    (hpools : b'.mMasterNotificationPool = b.mMasterNotificationPool) : Covers L b' :=
  h.of_from (fun n hn _ => ⟨n, hnotes ▸ hn, rfl, rfl⟩) (poolsFrom_of_eq hpools)

/-- A sweep brings neither members nor pools. -/
theorem sweep (h : Covers L b) (once : Bool) (k : NotificationKind)
    (act : Broker → Notification → Action) : Covers L (b.sweep cfg once k act) := by
  refine h.of_from ?_ (poolsFrom_sweep cfg once k act b)
  intro n' hn' _
  obtain ⟨n, hn, _, _, _, rfl, _⟩ := remains_of_mem_sweep cfg once k act b
    (show n' ∈ (b.sweep cfg once k act).notifications .serverConnect from hn')
  exact ⟨n, hn, rfl, rfl⟩

/-- A new notification is in no pool. -/
theorem addNotification (h : Covers L b) (k : NotificationKind) (ctx : SocketConnectionContext)
    (pulse : SFNDPulseInfo) {setup : Notification → Notification} (hs : Plain setup) :
    Covers L (b.addNotification cfg k ctx pulse setup).2 := by
  obtain ⟨a, p, coid, hadd | hadd⟩ := addNotification_cases cfg k ctx pulse setup b
  · rw [hadd]
    refine h.of_from ?_ (poolsFrom_of_eq (by cases k <;> rfl))
    cases k with
    | serverConnect =>
        intro n' hn' hid
        cases List.mem_cons.mp hn' with
        | inl hnew =>
            rw [hnew, (hs _).2.1] at hid
            exact absurd rfl hid
        | inr hold => exact ⟨n', hold, rfl, rfl⟩
    | serverDisconnect => exact fun n' hn' _ => ⟨n', hn', rfl, rfl⟩
    | clientDetach => exact fun n' hn' _ => ⟨n', hn', rfl, rfl⟩
    | serverListChange => exact fun n' hn' _ => ⟨n', hn', rfl, rfl⟩
  · rw [hadd]
    exact h.of_eq rfl rfl

/-- Only updates that make a pool, fill one or forward can leave something uncovered. -/
theorem prim (h : Covers L b) {l : Label} (hp : Prim cfg l b b') (hpool : l ≠ .addPool)
    (hattach : l ≠ .attach) (hforward : l ≠ .forward) : Covers L b' := by
  cases hp with
  | quiet hq => exact h.of_eq (hq.notifications .serverConnect) hq.pools
  | addEntry _ c e next =>
      let b₁ : Broker := { b with
        mNextServerID := next
        mConnectedServers := b.mConnectedServers.add e }
      have h1 : Covers L (b₁.modifyData c (·.addServer e.partyID)) := h.of_eq rfl rfl
      exact (h1.sweep false .serverConnect _).sweep false .serverListChange _
  | removeServer => exact h.of_eq rfl rfl
  | registerMaster =>
      obtain ⟨hnotes, _, _, hpools, _⟩ := registerInterfacesMaster_frame cfg b
      exact h.of_eq (hnotes .serverConnect) hpools
  | setMasterID => exact h.of_eq rfl rfl
  | clients => exact h.of_eq rfl rfl
  | create _ k ctx pulse hs => exact h.addNotification k ctx pulse hs
  | skip => exact h.of_eq rfl rfl
  | sweep _ once => exact h.sweep once _ _
  | addPool => exact absurd rfl hpool
  | attach => exact absurd rfl hattach
  | modifyPool _ pos hf =>
      exact h.of_from (fun n hn _ => ⟨n, hn, rfl, rfl⟩)
        (poolsFrom_modifyPool pos (fun np => ⟨(hf np).1, (hf np).2.2.1⟩) b)
  | storeMaster _ k id masterID =>
      refine h.of_from ?_ (poolsFrom_of_eq (by cases k <;> rfl))
      intro n' hn' _
      cases k with
      | serverConnect =>
          cases mem_modifyFirst hn' with
          | inl hold => exact ⟨n', hold, rfl, rfl⟩
          | inr hnew =>
              obtain ⟨n, hn, _, rfl⟩ := hnew
              exact ⟨n, hn, rfl, rfl⟩
      | serverDisconnect => exact ⟨n', hn', rfl, rfl⟩
      | clientDetach => exact ⟨n', hn', rfl, rfl⟩
      | serverListChange => exact ⟨n', hn', rfl, rfl⟩
  | forward => exact absurd rfl hforward

/-- So can only sequences with such updates. -/
theorem prims (h : Covers L b) {M : List Label} (hp : Prims cfg M b b')
    (hM : .addPool ∉ M ∧ .attach ∉ M ∧ .forward ∉ M) : Covers L b' :=
  hp.preserves (fun _ hl _ _ hprim hb =>
    hb.prim hprim (fun he => hM.1 (he ▸ hl)) (fun he => hM.2.1 (he ▸ hl))
      (fun he => hM.2.2 (he ▸ hl))) h

end Covers

/-! ## Requests -/

/-- What is put into a pool on the way from `b` to `b'` is handed to the master. -/
structure HandsOver (cfg : Config) (b b' : Broker) : Prop where
  master : b'.isMasterConnected cfg = b.isMasterConnected cfg
  covers : ∀ L, Covers L b → ∃ js, b'.mQueue = b.mQueue ++ js ∧ Covers (L ++ js) b' ∧
    (b.isMasterConnected cfg = false → Covers L b')

namespace HandsOver

variable {cfg : Config} {b b' b'' : Broker}

theorem refl (b : Broker) : HandsOver cfg b b where
  master := rfl
  covers L h := ⟨[], (List.append_nil _).symm, (List.append_nil L).symm ▸ h, fun _ => h⟩

/-- What is put into pools on both parts of the way is handed over. -/
theorem trans (h : HandsOver cfg b b') (h' : HandsOver cfg b' b'') : HandsOver cfg b b'' where
  master := h'.master.trans h.master
  covers L hL := by
    obtain ⟨js, hq, hcovers, hno⟩ := h.covers L hL
    obtain ⟨js', hq', hcovers', _⟩ := h'.covers (L ++ js) hcovers
    refine ⟨js ++ js', by rw [hq', hq, List.append_assoc], ?_, ?_⟩
    · rw [← List.append_assoc]
      exact hcovers'
    · intro hmaster
      obtain ⟨_, _, _, hno'⟩ := h'.covers L (hno hmaster)
      exact hno' (h.master.trans hmaster)

/-- What covers nothing new needs no job. -/
theorem of_queue (hmaster : b'.isMasterConnected cfg = b.isMasterConnected cfg)
    (hqueue : ∃ js, b'.mQueue = b.mQueue ++ js) (hcovers : ∀ L, Covers L b → Covers L b') :
    HandsOver cfg b b' where
  master := hmaster
  covers L hL := by
    obtain ⟨js, hq⟩ := hqueue
    exact ⟨js, hq, (hcovers L hL).mono (List.subset_append_left _ _), fun _ => hcovers L hL⟩

/-- So does what answers nobody and defers nothing. -/
theorem of_calm (hc : Calm b b') (hmaster : b'.isMasterConnected cfg = b.isMasterConnected cfg)
    (hcovers : ∀ L, Covers L b → Covers L b') : HandsOver cfg b b' := by
  obtain ⟨js, hq, _⟩ := hc.queue
  exact .of_queue hmaster ⟨js, hq⟩ hcovers

/-- A forwarded notification is in the batch for its pool. -/
theorem forward (b : Broker) : HandsOver cfg b (b.forwardServerAvailableNotifications cfg) := by
  cases hmaster : b.isMasterConnected cfg with
  | false =>
      rw [forwardServerAvailableNotifications, hmaster, if_neg Bool.false_ne_true]
      exact .refl b
  | true =>
      refine ⟨(Prims.single (L := [.forward]) List.mem_cons_self (.forward b)).isMasterConnected,
        ?_⟩
      intro L hL
      obtain ⟨js, hq, hcovers, _⟩ := hL.forward hmaster
      exact ⟨js, hq, hcovers, fun hno => by rw [hmaster] at hno; cases hno⟩

end HandsOver

section Handlers

variable (cfg : Config)

/-- A pool that monitors a server is not for an interface. -/
theorem Covers.notifyServerDisconnect {L : List Job} {b : Broker} (h : Covers L b)
    (ctx : SocketConnectionContext) (serverID : SPartyID) (pulse : SFNDPulseInfo) :
    Covers L (b.handleNotifyServerDisconnectNoResponse cfg ctx serverID pulse).2 := by
  have hattach {b : Broker} (h : Covers L b) (pos : Nat) (id : UInt32) :
      Covers L (b.attachPool pos .serverDisconnect id) := by
    refine h.of_from (fun n hn _ => ⟨n, hn, rfl, rfl⟩) ?_
    refine poolsFrom_modifyPool pos ?_ (b.setNotifications .serverDisconnect _)
    intro np
    exact ⟨rfl, rfl⟩
  have hmonitor {b : Broker} (h : Covers L b) (id : UInt32) :
      Covers L (b.monitorServer cfg serverID id) := by
    unfold monitorServer
    split
    · exact h
    · split
      · exact hattach h _ _
      · have hpool : Covers L (b.addPoolServer serverID) := by
          refine ⟨h.notifications, ?_⟩
          intro np hnp d hd
          cases List.mem_cons.mp hnp with
          | inl hnew =>
              rw [hnew] at hd
              cases hd
          | inr hold => exact h.pools np hold d hd
        have heval (j : Job) : Covers L ((b.addPoolServer serverID).eval j) := hpool.of_eq rfl rfl
        exact hattach (heval _) 0 id
  have hadd : Covers L (b.addParty cfg .serverDisconnect serverID ctx pulse).2 :=
    h.addNotification .serverDisconnect ctx pulse (fun _ => ⟨rfl, rfl, rfl⟩)
  unfold handleNotifyServerDisconnectNoResponse
  dsimp only
  split
  · exact hadd
  · have hdata : Covers L ((b.addParty cfg .serverDisconnect serverID ctx pulse).2.modifyData
        ctx.mId (·.addNotification (b.addParty cfg .serverDisconnect serverID ctx pulse).1)) :=
      hadd.of_eq rfl rfl
    split
    · exact hmonitor hdata _
    · split
      · exact hdata.sweep false .serverDisconnect _
      · exact hdata

/-- A notification that waits is forwarded if the master is connected. -/
theorem handsOver_notifyServerAvailable (ctx : SocketConnectionContext) (pulse : SFNDPulseInfo)
    (d : InterfaceDescription) (b : Broker) :
    HandsOver cfg b (b.handleNotifyServerAvailableNoResponse cfg ctx pulse d).2 := by
  have hplain : Plain (fun n : Notification => { n with
      ifDescription := d
      host := some ctx.mId
      isLocal := cfg.isLocalService d.name
      uid := ctx.mUid }) := fun _ => ⟨rfl, rfl, rfl⟩
  have hadd : HandsOver cfg b
      (b.addDescription cfg .serverConnect d ctx pulse (cfg.isLocalService d.name)).2 := by
    refine .of_calm (calm_addNotification cfg _ ctx pulse _ b) ?_
      (fun L hL => hL.addNotification .serverConnect ctx pulse hplain)
    rw [isMasterConnected, addDescription, phase_addNotification, isMasterConnected]
  unfold handleNotifyServerAvailableNoResponse
  dsimp only
  generalize b.addDescription cfg .serverConnect d ctx pulse (cfg.isLocalService d.name) = r at hadd
  split
  · exact .refl b
  · split
    · exact hadd
    · have hdata : HandsOver cfg r.2 (r.2.modifyData ctx.mId (·.addNotification r.1)) :=
        .of_calm (calm_modifyData ctx.mId _ r.2) rfl (fun L hL => hL.of_eq rfl rfl)
      have hset := hadd.trans hdata
      split
      · refine hset.trans (.of_calm (calm_sweep cfg false .serverConnect _ _) ?_
          (fun L hL => hL.sweep false .serverConnect _))
        exact isMasterConnected_sweep cfg false .serverConnect _ _
      · split
        · exact hset.trans (.forward _)
        · exact hset

/-- The condition on an extended attach that goes to the master: its notification is set. -/
def attachSet (ctx : SocketConnectionContext) (pulse : SFNDPulseInfo) (d : InterfaceDescription)
    (b : Broker) : Bool :=
  !forwardsAttach cfg d b ||
    (attaches cfg ctx pulse b && decide (b.sNextNotificationID + 1 < 2 ^ 32 - 1))

/-- The notification has joined the pool at `pos`: the master is asked for a new pool. -/
theorem Covers.askMasterExtended {L : List Job} {b : Broker} (c : Nat) (d : InterfaceDescription)
    (pos : Nat) (poolFound : Bool) (id : UInt32)
    (hask : ∀ j : Job, j.arg.sets (b.poolIDAt pos) d = true → Covers (L ++ [j]) b)
    (hfound : poolFound = true → Covers L b) :
    ∃ js, (b.askMasterExtended cfg c d pos poolFound id).1.mQueue = b.mQueue ++ js ∧
      Covers (L ++ js) (b.askMasterExtended cfg c d pos poolFound id).1 := by
  let job : Job := ⟨0, some c, .attachInterfaceExtended
    (masterPulse cfg .PULSE_MASTER_ATTACH_EXTENDED (b.poolIDAt pos)) d⟩
  have hjob : Covers (L ++ [job]) b := hask job (by simp [job, JobArg.sets, masterPulse])
  have heval : ∃ js, (b.eval job).mQueue = b.mQueue ++ js ∧ Covers (L ++ js) (b.eval job) :=
    ⟨[job], rfl, hjob.of_eq rfl rfl⟩
  have hstay (h : poolFound = true) : ∃ js, b.mQueue = b.mQueue ++ js ∧ Covers (L ++ js) b :=
    ⟨[], (List.append_nil _).symm, (List.append_nil L).symm ▸ hfound h⟩
  unfold Broker.askMasterExtended
  dsimp only
  split
  · refine ⟨[job], rfl, ?_⟩
    have hmodify : Covers (L ++ [job]) (b.modifyPool pos (·.setState .STATE_PRECACHING)) :=
      hjob.of_from (fun n hn _ => ⟨n, hn, rfl, rfl⟩) (poolsFrom_modifyPool pos (by
        intro np
        have hkeeps := setState_spec .STATE_PRECACHING np
        exact ⟨hkeeps.1, hkeeps.2.2.1⟩) b)
    exact hmodify.of_eq rfl rfl
  · split
    · next h => exact hstay h
    · exact heval
  · split
    · next h => exact hstay h
    · exact heval

/-- A pool that is joined keeps its ID. -/
theorem poolIDAt_attachPool (pos : Nat) (k : NotificationKind) (id : UInt32) (b : Broker) :
    (b.attachPool pos k id).poolIDAt pos = b.poolIDAt pos := by
  have hpools : (b.attachPool pos k id).mMasterNotificationPool =
      b.mMasterNotificationPool.modify pos
        (fun np => { np with mRefCount := np.mRefCount + 1 }) := by
    cases k <;> rfl
  rw [poolIDAt, hpools, poolIDAt, List.getElem?_modify_eq, Option.map_eq_map, Option.map_map]
  rfl

/-- The notification of an extended attach stands in front of the list. -/
theorem addDescription_set {b : Broker} {ctx : SocketConnectionContext} {pulse : SFNDPulseInfo}
    (hattaches : attaches cfg ctx pulse b = true) (d : InterfaceDescription) (isLocal : Bool) :
    let r := b.addDescription cfg .serverConnect d ctx pulse isLocal
    r.1 = UInt32.ofNat (b.sNextNotificationID + 1) ∧
      r.2.mMasterNotificationPool = b.mMasterNotificationPool ∧ r.2.mQueue = b.mQueue ∧
      ∃ n, r.2.mServerConnectNotifications = n :: b.mServerConnectNotifications ∧
        n.notificationID = r.1 ∧ n.ifDescription = d := by
  intro r
  have hr : r = _ := (addNotification_eq .serverConnect pulse _).trans (if_pos hattaches)
  rw [hr]
  exact ⟨rfl, rfl, rfl, _, rfl, rfl, rfl⟩

/-- The notification in front of the list joins a pool for its interface. -/
theorem Covers.attachPool {L : List Job} {b : Broker} {n : Notification}
    {ns : List Notification} {pos : Nat} {id : UInt32}
    (hlist : b.mServerConnectNotifications = n :: ns) (hid : n.notificationID = id)
    (hns : ∀ n ∈ ns, n.poolID ≠ 0 → AsksPool L n.poolID n.ifDescription)
    (hpools : ∀ np ∈ b.mMasterNotificationPool, ∀ d, np.mDataSwitch = .ifDescription d →
      AsksPool L np.poolID d)
    (hpool : AsksPool L (b.poolIDAt pos) n.ifDescription) :
    Covers L (b.attachPool pos .serverConnect id) where
  notifications m hm hne := by
    have hfront : (b.attachPool pos .serverConnect id).mServerConnectNotifications =
        { n with poolID := b.poolIDAt pos } :: ns := by
      change modifyFirst (fun m => decide (m.notificationID = id))
        (fun m => { m with poolID := b.poolIDAt pos }) b.mServerConnectNotifications = _
      rw [hlist, modifyFirst, if_pos (decide_eq_true hid)]
    rw [hfront] at hm
    cases List.mem_cons.mp hm with
    | inl hnew => rw [hnew]; exact hpool
    | inr hold => exact hns m hold hne
  pools np hnp d hd := by
    have hfrom := poolsFrom_modifyPool pos
      (f := fun np => { np with mRefCount := np.mRefCount + 1 })
      (by intro np; exact ⟨rfl, rfl⟩) b
    obtain ⟨np₀, hnp₀, hid₀, hdata⟩ := hfrom np hnp
    rw [← hid₀]
    exact hpools np₀ hnp₀ d (hdata.trans hd)

/-- An extended attach that goes to the master, with its notification set. -/
theorem handsOver_forwardAttachExtendedToMaster (ctx : SocketConnectionContext)
    (pulse : SFNDPulseInfo) (d : InterfaceDescription) {b : Broker}
    (hmaster : b.isMasterConnected cfg = true) (hattaches : attaches cfg ctx pulse b = true)
    (hfits : b.sNextNotificationID + 1 < 2 ^ 32 - 1) :
    HandsOver cfg b (b.forwardAttachExtendedToMaster cfg ctx pulse d).1 where
  master := ((addsPool_forwardAttachExtendedToMaster cfg ctx pulse d b).prims
    (M := attachExtendedLabels) (by simp [forwardAttachLabels, attachExtendedLabels])
    (by simp [attachExtendedLabels])).isMasterConnected
  covers L hL := by
    -- the pool is there and asked for, or it is new and the job asks for it
    have hpool : ∃ b₀ pos poolFound, b.extendedPool d = (pos, poolFound, b₀) ∧
        b₀.mServerConnectNotifications = b.mServerConnectNotifications ∧
        b₀.mQueue = b.mQueue ∧ b₀.sNextNotificationID = b.sNextNotificationID ∧
        b₀.attachCalls = b.attachCalls ∧
        (poolFound = true → b₀ = b ∧ AsksPool L (b₀.poolIDAt pos) d) ∧
        ∀ np ∈ b₀.mMasterNotificationPool, ∀ d', np.mDataSwitch = .ifDescription d' →
          AsksPool L np.poolID d' ∨ (np.poolID = b₀.poolIDAt pos ∧ d' = d) := by
      unfold extendedPool
      split
      · next pos hpos =>
        obtain ⟨hlt, hfor, _⟩ := List.findIdx?_eq_some_iff_getElem.mp hpos
        have hdata : b.mMasterNotificationPool[pos].mDataSwitch = .ifDescription d := by
          simp only [NotificationPoolEntry.isFor, Bool.and_eq_true, beq_iff_eq] at hfor
          exact hfor.2
        have hasked := hL.pools _ (List.getElem_mem hlt) d hdata
        refine ⟨b, pos, true, rfl, rfl, rfl, rfl, rfl, fun _ => ⟨rfl, ?_⟩, ?_⟩
        · simpa [poolIDAt, hlt] using hasked
        · exact fun np hnp d' hd' => .inl (hL.pools np hnp d' hd')
      · refine ⟨_, 0, false, rfl, rfl, rfl, rfl, rfl, (fun h => by cases h), ?_⟩
        intro np hnp d' hd'
        cases List.mem_cons.mp hnp with
        | inl hnew =>
            rw [hnew] at hd' ⊢
            exact .inr ⟨rfl, (DataSwitch.ifDescription.inj hd').symm⟩
        | inr hold => exact .inl (hL.pools np hold d' hd')
    obtain ⟨b₀, pos, poolFound, hext, hconnects, hqueue, hnext, hcalls, hfound, hnew⟩ := hpool
    have hattaches₀ : attaches cfg ctx pulse b₀ = true := by rwa [attaches, hcalls]
    obtain ⟨hid, hpools, hq, n, hlist, hn, hd⟩ :=
      addDescription_set cfg hattaches₀ d (cfg.isLocalService d.name)
    unfold forwardAttachExtendedToMaster
    rw [hext]
    dsimp only
    generalize b₀.addDescription cfg .serverConnect d ctx pulse (cfg.isLocalService d.name) = r
      at hid hpools hq hlist hn
    have hvalid : r.1 ≠ INVALID_NOTIFICATION_ID := by
      rw [hid, hnext]
      exact ofNat_ne_invalid (by omega)
    have hfind : r.2.findNotification .serverConnect r.1 = some n := by
      simp [findNotification, notifications, hlist, hn]
    rw [if_neg hvalid, hfind]
    dsimp only
    have hsame : ((r.2.modifyData ctx.mId (·.addNotification r.1)).attachPool pos .serverConnect
        r.1).poolIDAt pos = b₀.poolIDAt pos := by
      rw [poolIDAt_attachPool, poolIDAt, poolIDAt, ← hpools]
      rfl
    have hjoin {L' : List Job} (hsub : L ⊆ L') (hasks : AsksPool L' (b₀.poolIDAt pos) d) :
        Covers L' ((r.2.modifyData ctx.mId (·.addNotification r.1)).attachPool pos .serverConnect
          r.1) := by
      refine Covers.attachPool hlist hn ?_ ?_ ?_
      · intro m hm hne
        exact (hL.notifications m (hconnects ▸ hm) hne).mono hsub
      · intro np hnp d' hd'
        have hnp : np ∈ b₀.mMasterNotificationPool := hpools ▸ hnp
        cases hnew np hnp d' hd' with
        | inl hold => exact hold.mono hsub
        | inr hpos => rw [hpos.1, hpos.2]; exact hasks
      · rw [hd]
        have hid₁ : (r.2.modifyData ctx.mId (·.addNotification r.1)).poolIDAt pos =
            b₀.poolIDAt pos := by
          rw [poolIDAt, poolIDAt, ← hpools]
          rfl
        rw [hid₁]
        exact hasks
    obtain ⟨js, hjs, hcovers⟩ := Covers.askMasterExtended cfg (L := L) ctx.mId d pos poolFound r.1
      (b := (r.2.modifyData ctx.mId (·.addNotification r.1)).attachPool pos .serverConnect r.1)
      (fun j hj => hjoin (List.subset_append_left _ _)
        ⟨j, List.mem_append_right _ List.mem_cons_self, hsame ▸ hj⟩)
      (fun hf => hjoin (List.Subset.refl _) (hfound hf).2)
    refine ⟨js, ?_, hcovers, fun hno => by rw [hmaster] at hno; cases hno⟩
    rw [hjs, ← hqueue, ← hq]
    rfl

/-- The condition on a request. -/
def requestHandsOver (ctx : SocketConnectionContext) (b : Broker) : Request → Bool
  | .attachInterfaceExtended pulse d _ => attachSet cfg ctx pulse d b
  | _ => true

/-- A request leaves the pipe and the worker alone, and adds jobs at the end of the queue. -/
theorem queue_dispatch (ctx : SocketConnectionContext) (r : Request) (b : Broker) :
    (b.dispatch cfg ctx r).1.pipe = b.pipe ∧ (b.dispatch cfg ctx r).1.executing = b.executing ∧
      ∃ js, (b.dispatch cfg ctx r).1.mQueue = b.mQueue ++ js := by
  have hreplies := replies_dispatch cfg ctx r b
  generalize b.dispatch cfg ctx r = s at hreplies
  cases hreplies with
  | answered _ hcalm =>
      obtain ⟨js, hq, _⟩ := hcalm.queue
      exact ⟨hcalm.pipe, hcalm.executing, js, hq⟩
  | lost _ hcalm =>
      obtain ⟨js, hq, _⟩ := hcalm.queue
      exact ⟨hcalm.pipe, hcalm.executing, js, hq⟩
  | deferred hasks =>
      obtain ⟨b₁, j, hb₁, _, hcalm⟩ := hasks
      obtain ⟨js, hq, _⟩ := hb₁.queue
      obtain ⟨js', hq', _⟩ := hcalm.queue
      refine ⟨hcalm.pipe.trans hb₁.pipe, hcalm.executing.trans hb₁.executing, js ++ [j] ++ js', ?_⟩
      rw [hq']
      simp [eval, hq]

/-- A request hands over what it puts into pools. -/
theorem handsOver_dispatch (ctx : SocketConnectionContext) {r : Request} {b : Broker}
    (hr : requestHandsOver cfg ctx b r = true) : HandsOver cfg b (b.dispatch cfg ctx r).1 := by
  have hprims := prims_dispatch cfg ctx r b
  obtain ⟨_, _, hqueue⟩ := queue_dispatch cfg ctx r b
  have hrest (hcovers : ∀ L, Covers L b → Covers L (b.dispatch cfg ctx r).1) :
      HandsOver cfg b (b.dispatch cfg ctx r).1 :=
    .of_queue hprims.isMasterConnected hqueue hcovers
  cases r with
  | notifyServerDisconnect id pulse =>
      refine hrest ?_
      intro L hL
      have h1 := hL.notifyServerDisconnect cfg ctx id pulse
      simp only [Broker.dispatch, handleNotifyServerDisconnect]
      split <;> exact h1
  | notifyServerAvailable pulse d =>
      have h1 := handsOver_notifyServerAvailable cfg ctx pulse d b
      simp only [Broker.dispatch, handleNotifyServerAvailable]
      split <;> exact h1
  | notifyServerAvailableEx count records =>
      have h1 : HandsOver cfg b (recordLoop (notifyAvailableRecord cfg ctx) count.toInt.toNat
          records b).2 :=
        recordLoop_preserves (.refl b) (fun n _ s hs =>
          hs.trans (handsOver_notifyServerAvailable cfg ctx n.pulse n.ifDescription s))
      simp only [Broker.dispatch, handleNotifyServerAvailableEx]
      split <;> exact h1
  | attachInterfaceExtended pulse d stackPulse =>
      simp only [Broker.dispatch, handleAttachInterfaceExtended] at hrest ⊢
      split
      · next hcheck =>
        split
        · next entry hfind =>
          simp only [hcheck, if_true, hfind] at hrest
          refine hrest ?_
          intro L hL
          have h1 : Covers L (b.handleAttachLocalInterface cfg ctx entry).2 :=
            hL.prims (prims_handleAttachLocalInterface cfg ctx entry b) (by simp [attachLabels])
          split
          · exact h1
          · have h2 := h1.notifyServerDisconnect cfg ctx entry.partyID stackPulse
            split <;> exact h2
        · next hnone =>
          split
          · have h1 := handsOver_notifyServerAvailable cfg ctx pulse d b
            split <;> exact h1
          · next hforward =>
            simp only [Bool.or_eq_true, not_or, Bool.not_eq_true', Bool.not_eq_true,
              Bool.not_eq_false] at hforward
            have hset : attaches cfg ctx pulse b = true ∧
                b.sNextNotificationID + 1 < 2 ^ 32 - 1 := by
              simpa [requestHandsOver, attachSet, forwardsAttach, hcheck, hnone, hforward] using hr
            exact handsOver_forwardAttachExtendedToMaster cfg ctx pulse d hforward.2 hset.1 hset.2
      · exact .refl b
  | _ =>
      refine hrest (fun L hL => hL.prims hprims ?_)
      simp [requestLabels, registerLabels, unregisterLabels, attachLabels, detachLabels,
        clearLabels, listLabels]

end Handlers

/-! ## Sessions -/

/-- Does the master confirm what the job sets there? -/
def confirms (job : Job) (res : JobResult) : Bool :=
  match job.arg with
  | .notifyServerAvailableEx records =>
      res.status == 0 && res.ret_val == SBStatus.FNDOK.toInt &&
        (List.range records.length).all (fun i =>
          (res.notifications i).notificationID != INVALID_NOTIFICATION_ID)
  | .notifyInterfaceListChange _ | .notifyInterfaceListMatch _ _ =>
      res.status == 0 && res.ret_val == SBStatus.FNDOK.toInt &&
        res.notificationID != INVALID_NOTIFICATION_ID
  | .attachInterfaceExtended _ _ =>
      res.status == 0 && res.notificationID != INVALID_NOTIFICATION_ID
  | _ => true

/-- The job that the master has executed and confirmed. -/
def confirmed? : InternalNotification → Option Job
  | .jobExecuted job res => if confirms job res then some job else none
  | _ => none

/-- The jobs that are queued for the master or known by it, and whose results were not
processed yet. -/
def registrations (b : Broker) : List Job :=
  b.pipe.filterMap confirmed? ++ b.executing.toList ++ b.mQueue

/-- The loss of the master is reported. -/
def isLoss : InternalNotification → Bool
  | .masterDisconnected => true
  | _ => false

/-- Does the main thread await a master, with these messages in the pipe? -/
def awaits (connected : Bool) : List InternalNotification → Bool
  | [] => !connected
  | .masterConnected :: rest => !rest.any isLoss
  | .masterDisconnected :: _ => false
  | .jobExecuted .. :: rest => awaits connected rest

/-- Does the main thread await a master? -/
def awaitsMaster (b : Broker) : Bool := awaits (b.phase == .connected) b.pipe

/-- The jobs that were handed to the awaited master: those behind its report, or, if its
ID ping is not answered yet, those in the queue. -/
def jobsBehind (b : Broker) : List InternalNotification → List Job
  | [] => if b.phase = .idPing then b.mQueue else []
  | .masterConnected :: rest => rest.filterMap confirmed? ++ b.executing.toList ++ b.mQueue
  | .masterDisconnected :: _ => []
  | .jobExecuted .. :: rest => jobsBehind b rest

/-- The jobs that were handed to the awaited master. -/
def newJobs (b : Broker) : List Job := b.jobsBehind b.pipe

/-- Behind a connection no other connection is reported before the loss. -/
def Followed (connected : Bool) : List InternalNotification → Prop
  | [] => True
  | .masterConnected :: rest => awaits connected rest = false ∧ Followed connected rest
  | .masterDisconnected :: rest => Followed connected rest
  | .jobExecuted .. :: rest => Followed connected rest

/-- As long as a master is awaited, whatever is in a pool was handed to it. -/
structure Resumes (b : Broker) : Prop where
  followed : Followed (b.phase == .connected) b.pipe
  covered : b.awaitsMaster = true → Covers b.newJobs b

section Sessions

variable {b b' : Broker} {connected : Bool}

/-- Behind a report of a loss no master is awaited. -/
theorem awaits_append_loss (l : List InternalNotification) (c : Bool) :
    awaits c (l ++ [.masterDisconnected]) = false := by
  fun_induction awaits c l with
  | case1 => rfl
  | case2 => simp [awaits, isLoss]
  | case3 => rfl
  | case4 _ _ rest ih => exact ih

/-- The result of a job changes nothing. -/
theorem awaits_append_job (l : List InternalNotification) (job : Job) (res : JobResult) :
    awaits connected (l ++ [.jobExecuted job res]) = awaits connected l := by
  fun_induction awaits connected l with
  | case1 => rfl
  | case2 => simp [awaits, isLoss]
  | case3 => rfl
  | case4 _ _ rest ih => exact ih

/-- A new connection is awaited until its report. -/
theorem awaits_append_connected (l : List InternalNotification) :
    awaits true (l ++ [.masterConnected]) = awaits false l := by
  fun_induction awaits false l with
  | case1 => rfl
  | case2 => simp [awaits, isLoss]
  | case3 => rfl
  | case4 _ _ rest ih => exact ih

/-- A loss may be reported at any time. -/
theorem followed_append_loss {l : List InternalNotification} (h : Followed connected l)
    (c : Bool) : Followed c (l ++ [.masterDisconnected]) := by
  fun_induction Followed connected l with
  | case1 => trivial
  | case2 rest ih => exact ⟨awaits_append_loss rest c, ih h.2⟩
  | case3 rest ih => exact ih h
  | case4 _ _ rest ih => exact ih h

/-- So may the result of a job. -/
theorem followed_append_job {l : List InternalNotification} (h : Followed connected l) (job : Job)
    (res : JobResult) : Followed connected (l ++ [.jobExecuted job res]) := by
  fun_induction Followed connected l with
  | case1 => trivial
  | case2 rest ih => exact ⟨(awaits_append_job rest job res).trans h.1, ih h.2⟩
  | case3 rest ih => exact ih h
  | case4 _ _ rest ih => exact ih h

/-- A connection is reported when there was none. -/
theorem followed_append_connected {l : List InternalNotification} (h : Followed false l) :
    Followed true (l ++ [.masterConnected]) := by
  fun_induction Followed false l with
  | case1 => exact ⟨rfl, trivial⟩
  | case2 rest ih => exact ⟨(awaits_append_connected rest).trans h.1, ih h.2⟩
  | case3 rest ih => exact ih h
  | case4 _ _ rest ih => exact ih h

/-- Without a connection a master is awaited, or a loss is to be reported. -/
theorem isLoss_of_not_awaits {l : List InternalNotification} (h : awaits false l = false) :
    l.any isLoss = true := by
  fun_induction awaits false l with
  | case1 => cases h
  | case2 rest => simpa [isLoss] using h
  | case3 => rfl
  | case4 _ _ rest ih => simpa [isLoss] using ih h

/-- Without a connection nothing but results of jobs is in front of the awaited master. -/
theorem jobsBehind_of_disconnected {l : List InternalNotification} (h : Followed false l)
    (ha : awaits false l = true) : b.jobsBehind l = b.jobsBehind [] := by
  fun_induction awaits false l with
  | case1 => rfl
  | case2 rest => simp [isLoss_of_not_awaits h.1] at ha
  | case3 => cases ha
  | case4 _ _ rest ih => exact ih h ha

/-- The jobs behind a report stay behind it. -/
theorem jobsBehind_append_subset {x : List InternalNotification}
    (hnone : b.jobsBehind [] ⊆ b'.jobsBehind x)
    (hsome : ∀ rest : List InternalNotification,
      rest.filterMap confirmed? ++ b.executing.toList ++ b.mQueue ⊆
        (rest ++ x).filterMap confirmed? ++ b'.executing.toList ++ b'.mQueue)
    (l : List InternalNotification) : b.jobsBehind l ⊆ b'.jobsBehind (l ++ x) := by
  fun_induction jobsBehind b l with
  | case1 h => rwa [jobsBehind, if_pos h] at hnone
  | case2 h => exact List.nil_subset _
  | case3 rest => exact hsome rest
  | case4 => exact List.nil_subset _
  | case5 _ _ rest ih => exact ih

/-- New jobs go to the awaited master, if it is there already. -/
theorem jobsBehind_append_queue {cfg : Config} {js : List Job}
    (hphase : b'.phase = b.phase) (hexec : b'.executing = b.executing)
    (hqueue : b'.mQueue = b.mQueue ++ js) (hmaster : b.isMasterConnected cfg = true)
    {l : List InternalNotification} (h : awaits (b.phase == .connected) l = true) :
    b.jobsBehind l ++ js ⊆ b'.jobsBehind l := by
  fun_induction jobsBehind b l with
  | case1 hping => rw [jobsBehind, hphase, if_pos hping, hqueue]; exact List.Subset.refl _
  | case2 hping =>
      have hno : b.phase ≠ .connected := by
        intro hc
        simp [awaits, hc] at h
      simp [isMasterConnected, hping, hno] at hmaster
  | case3 rest =>
      rw [jobsBehind, hexec, hqueue, List.append_assoc]
      exact List.Subset.refl _
  | case4 => cases h
  | case5 _ _ rest ih => exact ih h

/-- New jobs go to the end. -/
theorem jobsBehind_subset_queue {js : List Job} (hphase : b'.phase = b.phase)
    (hexec : b'.executing = b.executing) (hqueue : b'.mQueue = b.mQueue ++ js)
    (l : List InternalNotification) : b.jobsBehind l ⊆ b'.jobsBehind l := by
  have h : b.jobsBehind l ⊆ b'.jobsBehind (l ++ []) := by
    refine jobsBehind_append_subset ?_ ?_ l
    · rw [jobsBehind, jobsBehind, hphase]
      split
      · rw [hqueue]; exact List.subset_append_left _ _
      · exact List.Subset.refl _
    · intro rest
      rw [hexec, hqueue, List.append_nil, ← List.append_assoc]
      exact List.subset_append_left _ _
  rwa [List.append_nil] at h

end Sessions

namespace Resumes

variable {cfg : Config} {b b' : Broker}

/-- What the main thread does between two reports. -/
theorem handsOver (h : Resumes b) (hphase : b'.phase = b.phase) (hpipe : b'.pipe = b.pipe)
    (hexec : b'.executing = b.executing)
    (hh : b.awaitsMaster = true → HandsOver cfg b b') : Resumes b' where
  followed := by rw [hphase, hpipe]; exact h.followed
  covered ha := by
    have ha : b.awaitsMaster = true := by rwa [awaitsMaster, hphase, hpipe] at ha
    obtain ⟨js, hqueue, hcovers, hno⟩ := (hh ha).covers _ (h.covered ha)
    rw [newJobs, hpipe]
    cases hmaster : b.isMasterConnected cfg with
    | true => exact hcovers.mono (jobsBehind_append_queue hphase hexec hqueue hmaster ha)
    | false => exact (hno hmaster).mono (jobsBehind_subset_queue hphase hexec hqueue _)

/-- Changes that the awaited master does not depend on. -/
theorem congr (h : Resumes b) (hphase : b'.phase = b.phase) (hpipe : b'.pipe = b.pipe)
    (hexec : b'.executing = b.executing) (hqueue : b'.mQueue = b.mQueue)
    (hnotes : b'.mServerConnectNotifications = b.mServerConnectNotifications)
    (hpools : b'.mMasterNotificationPool = b.mMasterNotificationPool) : Resumes b' where
  followed := by rw [hphase, hpipe]; exact h.followed
  covered ha := by
    have ha : b.awaitsMaster = true := by rwa [awaitsMaster, hphase, hpipe] at ha
    rw [newJobs, hpipe]
    exact ((h.covered ha).of_eq hnotes hpools).mono
      (jobsBehind_subset_queue hphase hexec (hqueue.trans (List.append_nil _).symm) b.pipe)

/-- What the worker thread does. -/
theorem append (h : Resumes b) {x : List InternalNotification}
    (hnotes : b'.mServerConnectNotifications = b.mServerConnectNotifications)
    (hpools : b'.mMasterNotificationPool = b.mMasterNotificationPool)
    (hpipe : b'.pipe = b.pipe ++ x)
    (hfollowed : Followed (b'.phase == .connected) (b.pipe ++ x))
    (hawaits : awaits (b'.phase == .connected) (b.pipe ++ x) = true → b.awaitsMaster = true)
    (hnone : b.jobsBehind [] ⊆ b'.jobsBehind x)
    (hsome : b.awaitsMaster = true → ∀ rest : List InternalNotification,
      rest.filterMap confirmed? ++ b.executing.toList ++ b.mQueue ⊆
        (rest ++ x).filterMap confirmed? ++ b'.executing.toList ++ b'.mQueue) :
    Resumes b' where
  followed := by rw [hpipe]; exact hfollowed
  covered ha := by
    rw [awaitsMaster, hpipe] at ha
    have hcovers := (h.covered (hawaits ha)).of_eq hnotes hpools
    rw [newJobs, hpipe]
    exact hcovers.mono (jobsBehind_append_subset hnone (hsome (hawaits ha)) b.pipe)

/-- Behind a loss no master is awaited. -/
theorem of_disconnectMaster (h : Followed (b.phase == .connected) b.pipe) (phase : MasterPhase) :
    Resumes (b.disconnectMaster phase) where
  followed := followed_append_loss h _
  covered ha := by
    rw [awaitsMaster] at ha
    exact absurd ((awaits_append_loss b.pipe _).symm.trans ha) Bool.false_ne_true

/-- The worker hands on what it executes; a ping that fails ends the connection. -/
theorem workerStep (h : Resumes b) {w : WorkerStep}
    (hping : w = .idPing false → b.phase = .idPing → b.awaitsMaster = true → Covers [] b)
    (hfinish : ∀ raw job, w = .finish raw → raw.status = 0 → b.executing = some job →
      b.awaitsMaster = true → confirms job (execute raw) = true) :
    Resumes (b.workerStep w) := by
  unfold Broker.workerStep
  split
  · next job q hphase hq =>
    have hfollowed := followed_append_job h.followed job { status := EIO, ret_val := 0 }
    refine ⟨hfollowed, fun ha => ?_⟩
    have hawaits : b.awaitsMaster = true := (awaits_append_job b.pipe job _).symm.trans ha
    -- nothing was handed over, so nothing is in a pool
    have hcovers := h.covered hawaits
    have hold := h.followed
    rw [awaitsMaster, hphase] at hawaits
    rw [hphase] at hold
    rw [newJobs, jobsBehind_of_disconnected hold hawaits, jobsBehind, hphase,
      if_neg (by decide)] at hcovers
    refine Covers.mono (hcovers.of_eq ?_ ?_) (List.nil_subset _)
    · rfl
    · rfl
  · next hphase =>
    have hfollowed := h.followed
    rw [hphase] at hfollowed
    refine h.append (x := []) rfl rfl (List.append_nil _).symm ?_ ?_ ?_ ?_
    · rw [List.append_nil]; exact hfollowed
    · rw [List.append_nil, awaitsMaster, hphase]; exact id
    · simp [jobsBehind, hphase]
    · intro _ rest
      rw [List.append_nil]
      exact List.Subset.refl _
  · next hphase =>
    have hfollowed := h.followed
    rw [hphase] at hfollowed
    refine h.append (x := [.masterConnected]) rfl rfl rfl ?_ ?_ ?_ ?_
    · exact followed_append_connected hfollowed
    · rw [awaitsMaster, hphase]
      exact fun ha => (awaits_append_connected b.pipe).symm.trans ha
    · simp [jobsBehind, hphase]
    · intro _ rest
      simp [List.filterMap_append, List.filterMap_cons, confirmed?]
  · next hphase =>
    have hfollowed := h.followed
    rw [hphase] at hfollowed
    refine ⟨hfollowed, fun ha => ?_⟩
    have hawaits : b.awaitsMaster = true := by
      rw [awaitsMaster, hphase]
      exact ha
    have hcovers : Covers [] { b with phase := .disconnected } :=
      (hping rfl hphase hawaits).of_eq rfl rfl
    exact hcovers.mono (List.nil_subset _)
  · next job q hphase hexec hq =>
    refine h.append (x := []) rfl rfl (List.append_nil _).symm ?_ ?_ ?_ ?_
    · rw [List.append_nil]; exact h.followed
    · rw [List.append_nil]; exact id
    · simp [jobsBehind, hphase]
    · intro _ rest j hj
      simpa [hq, hexec] using hj
  · next raw job hphase hexec =>
    dsimp only
    split
    · next hstatus =>
      refine h.append (x := [.jobExecuted job (execute raw)]) rfl rfl rfl ?_ ?_ ?_ ?_
      · exact followed_append_job h.followed job _
      · rw [awaits_append_job]; exact id
      · simp [jobsBehind, hphase]
      · intro ha rest j hj
        have hconfirms := hfinish raw job rfl hstatus hexec ha
        simpa [hexec, List.filterMap_append, List.filterMap_cons, confirmed?, hconfirms] using hj
    · exact of_disconnectMaster (followed_append_job h.followed job _) .disconnected
  · exact of_disconnectMaster h.followed .disconnected
  · exact h
  · exact of_disconnectMaster h.followed .stopped
  · exact h

/-- The main thread takes a message off the pipe. -/
theorem tail (h : Resumes b) {m : InternalNotification} {rest : List InternalNotification}
    (hpipe : b.pipe = m :: rest) (hjob : ∃ job res, m = .jobExecuted job res) :
    Resumes { b with pipe := rest } := by
  obtain ⟨job, res, rfl⟩ := hjob
  have hfollowed := h.followed
  rw [hpipe] at hfollowed
  refine ⟨hfollowed, fun ha => ?_⟩
  have hawaits : b.awaitsMaster = true := by
    rw [awaitsMaster, hpipe]
    exact ha
  have hcovers : Covers b.newJobs { b with pipe := rest } := (h.covered hawaits).of_eq rfl rfl
  have hsub : b.jobsBehind rest ⊆ ({ b with pipe := rest } : Broker).jobsBehind rest := by
    have hqueue : ({ b with pipe := rest } : Broker).mQueue = b.mQueue ++ [] :=
      (List.append_nil _).symm
    refine jobsBehind_subset_queue ?_ ?_ hqueue rest
    · rfl
    · rfl
  rw [newJobs, hpipe] at hcovers
  exact hcovers.mono hsub

/-- The result of a job is in front of the report that is awaited. -/
theorem handleJobFinished (h : Resumes b) (hattach : b.mPendingAttachExtendedJobs = []) (job : Job)
    (res : JobResult) : Resumes (b.handleJobFinished cfg job res) := by
  have hprims := prims_handleJobFinished cfg job res hattach
  have hfinal (b : Broker) (r : JobReply) : (b.finalize job r).pipe = b.pipe ∧
      (b.finalize job r).executing = b.executing ∧ (b.finalize job r).mQueue = b.mQueue := by
    unfold finalize
    split
    · exact ⟨rfl, rfl, rfl⟩
    · split <;> exact ⟨rfl, rfl, rfl⟩
  have hframe : (b.handleJobFinished cfg job res).pipe = b.pipe ∧
      (b.handleJobFinished cfg job res).executing = b.executing ∧
      ∃ js, (b.handleJobFinished cfg job res).mQueue = b.mQueue ++ js := by
    unfold Broker.handleJobFinished
    split
    · have hcalm := calm_jobReply cfg job res hattach
      obtain ⟨hpipe, hexec, hqueue⟩ :=
        hfinal (b.jobReply cfg job res).2 (b.jobReply cfg job res).1
      obtain ⟨js, hjs, _⟩ := hcalm.queue
      exact ⟨hpipe.trans hcalm.pipe, hexec.trans hcalm.executing, js, hqueue.trans hjs⟩
    · obtain ⟨hpipe, hexec, hqueue⟩ := hfinal b ⟨res.status, res.ret_val, .empty⟩
      exact ⟨hpipe, hexec, [], hqueue.trans (List.append_nil _).symm⟩
  have hphase := hprims.preserves (I := fun b' => b'.phase = b.phase)
    (fun _ _ _ _ hprim hb => hprim.phase.trans hb) rfl
  have hhands : HandsOver cfg b (b.handleJobFinished cfg job res) :=
    .of_queue hprims.isMasterConnected hframe.2.2
      (fun L hL => hL.prims hprims (by simp [replyLabels]))
  exact h.handsOver hphase hframe.1 hframe.2.1 (fun _ => hhands)

/-- Behind the loss of a master nothing is in a pool. -/
theorem covers_handleMasterDisconnected (cfg : Config) (b : Broker) (L : List Job) :
    Covers L (b.handleMasterDisconnected cfg) where
  notifications n hn hid := by
    obtain ⟨m, _, rfl⟩ := List.mem_map.mp hn
    exact absurd rfl hid
  pools np hnp := by
    have hnone : (b.handleMasterDisconnected cfg).mMasterNotificationPool = [] :=
      pools_sweep_of_nil cfg false .clientDetach _
        (pools_sweep_of_nil cfg false .serverDisconnect _ rfl)
    rw [hnone] at hnp
    cases hnp

/-- The main thread takes the front of the pipe. -/
theorem dispatchInternal (h : Resumes b) (hattach : b.mPendingAttachExtendedJobs = [])
    {m : InternalNotification} {rest : List InternalNotification} (hpipe : b.pipe = m :: rest) :
    Resumes ({ b with pipe := rest }.dispatchInternal cfg m) := by
  have hfollowed := h.followed
  rw [hpipe] at hfollowed
  cases m with
  | jobExecuted job res => exact (h.tail hpipe ⟨job, res, rfl⟩).handleJobFinished hattach job res
  | masterConnected =>
      have hframe : ({ b with pipe := rest }.handleMasterConnected cfg).phase = b.phase := by
        obtain ⟨l, pools, next, js, hb, _⟩ :=
          forward_cases cfg ({ b with pipe := rest }.registerInterfacesMaster cfg)
        obtain ⟨_, _, _, _, _, _, _, hphase⟩ :=
          registerInterfacesMaster_frame cfg { b with pipe := rest }
        rw [Broker.handleMasterConnected, hb]
        exact hphase
      have hrest := (calm_handleMasterConnected cfg { b with pipe := rest }).pipe
      constructor
      case followed =>
        simp only [Broker.dispatchInternal]
        rw [hframe, hrest]
        exact hfollowed.2
      case covered =>
        intro ha
        simp only [Broker.dispatchInternal] at ha
        rw [awaitsMaster, hframe, hrest] at ha
        exact absurd (hfollowed.1.symm.trans ha) Bool.false_ne_true
  | masterDisconnected =>
      have hframe : ({ b with pipe := rest }.handleMasterDisconnected cfg).phase = b.phase :=
        (phase_sweep cfg false .clientDetach _ _).trans
          (phase_sweep cfg false .serverDisconnect _ _)
      have hrest := (calm_handleMasterDisconnected cfg (b := { b with pipe := rest }) hattach).pipe
      constructor
      case followed =>
        simp only [Broker.dispatchInternal]
        rw [hframe, hrest]
        exact hfollowed
      case covered => exact fun _ => covers_handleMasterDisconnected cfg _ _

end Resumes

/-! ## Steps -/

/-- Nothing that a master gave is kept with the notification. -/
def forgotten (n : Notification) : Bool :=
  n.masterNotificationID == INVALID_NOTIFICATION_ID && n.poolID == 0

/-- No notification keeps anything that a master gave. -/
def Forgotten (b : Broker) : Prop := ∀ k, ∀ n ∈ b.notifications k, forgotten n = true

/-- The connect notifications that are to be forwarded, and the notifications on the list
of interfaces, are queued for the master or known by it. -/
structure Recovered (cfg : Config) (b : Broker) : Prop where
  connects : ∀ n ∈ b.mServerConnectNotifications, forwards cfg n = true →
    AsksPool b.registrations n.poolID n.ifDescription
  lists : ∀ n ∈ b.mServerListChangeNotifications,
    ∃ j ∈ b.registrations, j.arg.setsList n = true

/-- What a step that reports the loss of a master, or its connection, leaves. -/
def Recovers (cfg : Config) (b : Broker) (e : Event) : Prop :=
  match e, b.pipe with
  | .deliver, .masterDisconnected :: _ => Forgotten (b.step cfg e)
  | .deliver, .masterConnected :: _ => Recovered cfg (b.step cfg e)
  | _, _ => True

/-- The notifications that outlive the loss of the master were not known there; connect
notifications always forget it. -/
def lossForgets (cfg : Config) (b : Broker) : Bool :=
  [.serverDisconnect, .clientDetach, .serverListChange].all (fun k =>
    (b.notifications k).all (fun n => !outlives cfg b k n || forgotten n))

/-- The notifications on the list of interfaces were handed over before. -/
def listsHandedOver (b : Broker) : Bool :=
  b.mServerListChangeNotifications.all (fun n => b.registrations.any (·.arg.setsList n))

/-- No connect notification is in a pool, and no pool is for an interface. -/
def nonePooled (b : Broker) : Bool :=
  b.mServerConnectNotifications.all (·.poolID == 0) &&
    b.mMasterNotificationPool.all (fun np =>
      match np.mDataSwitch with
      | .ifDescription _ => false
      | .serverID _ => true)

/-- The condition on a step. -/
def stepRecovers (cfg : Config) (b : Broker) : Event → Bool
  | .request c r =>
      match b.conns c with
      | none => true
      | some k => k.deferred || !b.awaitsMaster || requestHandsOver cfg (k.ctx c) b r
  | .deliver =>
      match b.pipe with
      | .masterDisconnected :: _ => lossForgets cfg b
      | .masterConnected :: rest => !rest.any isLoss && b.listsHandedOver
      | _ => true
  | .worker (.idPing false) => b.phase != .idPing || !b.awaitsMaster || b.nonePooled
  | .worker (.finish raw) =>
      match b.executing with
      | none => true
      | some job => raw.status != 0 || !b.awaitsMaster || confirms job (execute raw)
  | _ => true

/-- Without pools there is nothing to cover. -/
theorem covers_of_nonePooled {b : Broker} (h : b.nonePooled = true) (L : List Job) :
    Covers L b where
  notifications n hn hid := by
    simp only [nonePooled, Bool.and_eq_true, List.all_eq_true, beq_iff_eq] at h
    exact absurd (h.1 n hn) hid
  pools np hnp d hd := by
    simp only [nonePooled, Bool.and_eq_true, List.all_eq_true] at h
    have hnone := h.2 np hnp
    rw [hd] at hnone
    cases hnone

/-- The loss forgets what the old master knew, if it did not know the notifications that stay. -/
theorem forgotten_handleMasterDisconnected {cfg : Config} {b : Broker}
    (h : lossForgets cfg b = true) : Forgotten (b.handleMasterDisconnected cfg) := by
  intro k n hn
  obtain ⟨_, hid, hpool⟩ | ⟨hk, hold, hleft⟩ := mem_handleMasterDisconnected hn
  · simp [forgotten, hid, hpool]
  · have hkind : k ∈ [NotificationKind.serverDisconnect, .clientDetach, .serverListChange] := by
      cases k with
      | serverConnect => exact absurd rfl hk
      | serverDisconnect => simp
      | clientDetach => simp
      | serverListChange => simp
    have hall := List.all_eq_true.mp (List.all_eq_true.mp h k hkind) n hold
    simpa [hleft] using hall

/-- The main thread goes on between two reports. -/
theorem Resumes.step {cfg : Config} {b : Broker} (h : Resumes b)
    (hattach : b.mPendingAttachExtendedJobs = []) {e : Event}
    (hc : stepRecovers cfg b e = true) : Resumes (b.step cfg e) := by
  have hbetween {M : List Label} {b' : Broker} (hp : Prims cfg M b b')
      (hpipe : b'.pipe = b.pipe) (hexec : b'.executing = b.executing)
      (hh : b.awaitsMaster = true → HandsOver cfg b b') : Resumes b' :=
    h.handsOver (hp.preserves (I := fun b' => b'.phase = b.phase)
      (fun _ _ _ _ hprim hb => hprim.phase.trans hb) rfl) hpipe hexec hh
  have hcalm {M : List Label} {b' : Broker} (hp : Prims cfg M b b') (hcalm : Calm b b')
      (hM : .addPool ∉ M ∧ .attach ∉ M ∧ .forward ∉ M) : Resumes b' :=
    hbetween hp hcalm.pipe hcalm.executing
      (fun _ => .of_calm hcalm hp.isMasterConnected (fun L hL => hL.prims hp hM))
  cases e with
  | connected nodeAddress localAddress uid =>
      refine hbetween (prims_openConnection cfg nodeAddress localAddress uid b) rfl rfl ?_
      exact fun _ => .of_queue rfl ⟨[], (List.append_nil _).symm⟩ (fun L hL => hL.of_eq rfl rfl)
  | request c r =>
      simp only [Broker.step, request]
      simp only [stepRecovers] at hc
      split
      · exact h
      · next k hk =>
        split
        · exact h
        · next hread =>
          have hdeferred : k.deferred = false := by simp_all
          simp only [hk, hdeferred, Bool.false_or] at hc
          obtain ⟨hpipe, hexec, _⟩ := queue_dispatch cfg (k.ctx c) r b
          have hdone : Resumes (b.dispatch cfg (k.ctx c) r).1 := by
            refine hbetween (prims_dispatch cfg (k.ctx c) r b) hpipe hexec ?_
            intro ha
            exact handsOver_dispatch cfg (k.ctx c) (by simpa [ha] using hc)
          split
          · exact hdone.congr rfl rfl rfl rfl rfl rfl
          · exact hdone.congr rfl rfl rfl rfl rfl rfl
  | closed c =>
      simp only [Broker.step, closeConnection]
      split
      · exact h
      · split
        · exact h
        · have hclear : Resumes (b.clear cfg c) :=
            hcalm (prims_clear cfg c b) (calm_clear cfg c b) (by simp [closeLabels])
          exact hclear.congr rfl rfl rfl rfl rfl rfl
  | pulse p value =>
      exact hcalm (prims_dispatchPulse cfg p value b) (calm_dispatchPulse cfg p value b)
        (by simp [pulseLabels])
  | deliver =>
      obtain hsame | ⟨m, rest, hm, _, hstep⟩ := deliver_cases cfg b
      · rw [hsame]
        exact h
      · rw [hstep]
        exact h.dispatchInternal hattach hm
  | worker w =>
      refine h.workerStep ?_ ?_
      · rintro rfl hphase ha
        refine covers_of_nonePooled ?_ []
        simpa [stepRecovers, hphase, ha] using hc
      · rintro raw job rfl hstatus hexec ha
        simpa [stepRecovers, hexec, hstatus, ha] using hc

/-- The connection is reported while it is there: what waits for the master is handed
over, or was before. -/
theorem Resumes.recovered {cfg : Config} (hslave : cfg.hasMaster = true) {b : Broker}
    (h : Resumes b) {rest : List InternalNotification} (hpipe : b.pipe = .masterConnected :: rest)
    (hloss : rest.any isLoss = false) (hlists : b.listsHandedOver = true) :
    Recovered cfg ({ b with pipe := rest }.handleMasterConnected cfg) := by
  have hfollowed := h.followed
  rw [hpipe] at hfollowed
  have hphase : b.phase = .connected := by
    cases hconnected : b.phase == .connected with
    | true => exact beq_iff_eq.mp hconnected
    | false =>
        rw [hconnected] at hfollowed
        rw [isLoss_of_not_awaits hfollowed.1] at hloss
        cases hloss
  have hawaits : b.awaitsMaster = true := by
    rw [awaitsMaster, hpipe, awaits, hloss]
    rfl
  -- what was handed over before stays among the registrations
  generalize hb₀ : ({ b with pipe := rest } : Broker) = b₀
  have hnew : b.newJobs = b₀.registrations := by
    rw [newJobs, hpipe, ← hb₀]
    rfl
  have hold : b.registrations = b₀.registrations := by
    rw [registrations, hpipe, ← hb₀]
    rfl
  have hcovers₀ : Covers b₀.registrations b₀ := by
    rw [← hnew, ← hb₀]
    exact (h.covered hawaits).of_eq rfl rfl
  obtain ⟨hnotes, _, _, _, _, _, _, hphase₁⟩ := registerInterfacesMaster_frame cfg b₀
  have hcalm₁ := calm_registerInterfacesMaster cfg b₀
  have hcovers₁ : Covers b₀.registrations (b₀.registerInterfacesMaster cfg) :=
    hcovers₀.prim (.registerMaster b₀) (by decide) (by decide) (by decide)
  have hmaster : (b₀.registerInterfacesMaster cfg).isMasterConnected cfg = true := by
    rw [isMasterConnected, hphase₁, hslave, ← hb₀]
    simp [hphase]
  obtain ⟨js, hqueue, _, hforward⟩ := hcovers₁.forward hmaster
  have hcalm₂ := calm_forward cfg (b₀.registerInterfacesMaster cfg)
  obtain ⟨js₁, hqueue₁, _⟩ := hcalm₁.queue
  have hregistrations : (b₀.handleMasterConnected cfg).registrations =
      b₀.registrations ++ (js₁ ++ js) := by
    rw [registrations, handleMasterConnected, hcalm₂.pipe, hcalm₁.pipe, hcalm₂.executing,
      hcalm₁.executing, hqueue, hqueue₁, registrations]
    simp only [List.append_assoc]
  refine ⟨?_, ?_⟩
  · intro n hn hf
    refine (hforward n hn hf).mono ?_
    rw [hregistrations]
    intro j hj
    cases List.mem_append.mp hj with
    | inl hb => exact List.mem_append_left _ hb
    | inr hnew => exact List.mem_append_right _ (List.mem_append_right _ hnew)
  · intro n hn
    have hn : n ∈ b.mServerListChangeNotifications := by
      obtain ⟨l, pools, next, js, hb, _⟩ := forward_cases cfg (b₀.registerInterfacesMaster cfg)
      rw [handleMasterConnected, hb] at hn
      have hsame : (b₀.registerInterfacesMaster cfg).mServerListChangeNotifications =
          b.mServerListChangeNotifications :=
        (hnotes .serverListChange).trans (by rw [← hb₀]; rfl)
      exact hsame ▸ hn
    obtain ⟨j, hj, hsets⟩ := List.any_eq_true.mp (List.all_eq_true.mp hlists n hn)
    rw [hold] at hj
    refine ⟨j, ?_, hsets⟩
    rw [hregistrations]
    exact List.mem_append_left _ hj

/-- A step that meets the condition leaves the notifications set again at the new master. -/
theorem recovers_of_stepRecovers {cfg : Config} (hslave : cfg.hasMaster = true) {b : Broker}
    (h : Resumes b) {e : Event} (hc : stepRecovers cfg b e = true) : Recovers cfg b e := by
  unfold Recovers
  split
  · next hpipe =>
    simp only [stepRecovers, hpipe] at hc
    simp only [step, hpipe, dispatchInternal]
    exact forgotten_handleMasterDisconnected hc
  · next hpipe =>
    simp only [stepRecovers, hpipe, Bool.and_eq_true, Bool.not_eq_true'] at hc
    simp only [step, hpipe, dispatchInternal]
    exact h.recovered hslave hpipe hc.1 hc.2
  · trivial

/-- In every run of a slave whose steps meet the condition, behind the report of a lost
master no notification keeps anything it gave, and behind the report of a connection
every notification that waits for the master is queued for it or known by it. -/
theorem recovers_of_along (cfg : Config) (hslave : cfg.hasMaster = true) (es : List Event)
    (h : Run.Along (step cfg) (fun b e => stepRecovers cfg b e = true) init es) :
    Run.Along (step cfg) (Recovers cfg) init es := by
  have hinit : Resumes init ∧ Peers (fun _ _ => True) init :=
    ⟨⟨trivial, fun _ => covers_of_nonePooled rfl _⟩, ⟨rfl, fun _ _ _ => trivial⟩⟩
  refine Run.along_of_invariant (I := fun b => Resumes b ∧ Peers (fun _ _ => True) b) ?_ ?_ hinit h
  · rintro b e ⟨hresumes, hpeers⟩ hc
    exact ⟨hresumes.step hpeers.attachJobs hc, hpeers.step (fun _ _ _ _ => trivial)⟩
  · rintro b e ⟨hresumes, _⟩ hc
    exact recovers_of_stepRecovers hslave hresumes hc

/-- The worker thread connects to the master. -/
def masterComes : List Event := [.worker .connect, .worker (.idPing true)]

/-- A client waits for interface `A`.  The master comes, knows the notification and goes;
while the next one comes the client asks to be told of changes of the list. -/
theorem recovers_notifications_set_again :
    let es := [.connected 0 0 7, .request 1 (.notifyServerAvailable ⟨1, 2, 3, 4⟩ ⟨[65], 1, 0⟩)] ++
      masterComes ++
      [.deliver, .worker .pop,
        .worker (.finish { status := 0, ret_val := 0, notifications := fun _ => ⟨100000, 77⟩ }),
        .deliver, .worker .pingFailed, .deliver, .worker .connect,
        .request 1 (.notifyInterfaceListChange ⟨5, 6, 7, 8⟩), .worker (.idPing true), .deliver]
    (Run.run (step slaveConfig) init es).mQueue.map (·.arg) =
        [.notifyInterfaceListChange (masterPulse slaveConfig .PULSE_MASTER_SERVERLIST_CHANGE 2),
          .notifyServerAvailableEx
            [⟨100001, masterPulse slaveConfig .PULSE_MASTER_SERVER_AVAILABLE 100001,
              ⟨[65], 1, 0⟩⟩]] ∧
      Run.Along (step slaveConfig) (Recovers slaveConfig) init es :=
  ⟨by decide +kernel, recovers_of_along slaveConfig rfl _ (by decide +kernel)⟩

/-- A client asks to be told of changes of the list, and the master knows it.  When the loss
of the master is reported its ID stays with the notification; when the next one is
reported nothing is asked of it. -/
theorem not_recovers_list_notification :
    let es := masterComes ++
      [.deliver, .connected 0 0 7, .request 1 (.notifyInterfaceListChange ⟨5, 6, 7, 8⟩),
        .worker .pop, .worker (.finish { status := 0, ret_val := 0, notificationID := 77 }),
        .deliver, .worker .pingFailed]
    let b := Run.run (step slaveConfig) init es
    let b' := Run.run (step slaveConfig) init (es ++ .deliver :: masterComes)
    ¬ Recovers slaveConfig b .deliver ∧ ¬ Recovers slaveConfig b' .deliver := by
  intro es b b'
  constructor
  · intro h
    have hforgotten : ∀ n ∈ (b.step slaveConfig .deliver).mServerListChangeNotifications,
        forgotten n = true := h .serverListChange
    revert hforgotten
    decide
  · intro h
    have hlists : ∀ n ∈ (b'.step slaveConfig .deliver).mServerListChangeNotifications,
        ∃ j ∈ (b'.step slaveConfig .deliver).registrations, j.arg.setsList n = true := h.lists
    revert hlists
    decide

end Broker

end Dsi
