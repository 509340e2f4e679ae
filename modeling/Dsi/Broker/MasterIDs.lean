import Dsi.Broker.Forwarding
import Dsi.Broker.ServerTable

/-!
# Dsi.Broker.MasterIDs

The interfaces that a broker forwards to its master.  `registerInterfacesMaster` marks an entry
and puts its record into a batch.  The reply to the batch has an ID for each record, and each ID
goes to the first entry with its local half and the mark.

* `agreement_of_along`: when the master IDs of the table are those that the master stored.
-/

namespace Dsi

open Sequence

/-- The records of a batch. -/
def Job.batch (j : Job) : List SFNDInterfaceDescriptionEx :=
  match j.arg with
  | .registerMasterInterfaceEx records => records
  | _ => []

/-- The IDs in the reply to it. -/
def Job.replyIDs (j : Job) (res : JobResult) : List SPartyID :=
  (List.range j.cookie.toNat).map res.serverID

/-- The records that the master stored, with the IDs it stored them under. -/
def Job.stored (j : Job) (res : JobResult) : List (SFNDInterfaceDescriptionEx × SPartyID) :=
  if res.status = 0 ∧ res.ret_val = 0 then
    (j.batch.zip (j.replyIDs res)).filter (fun x => x.2.extendedID ≠ 0xffffffff)
  else []

namespace Broker

variable {cfg : Config} {b b' b'' : Broker}

/-! ## Batches -/

/-- A registration at the master is a batch of records. -/
theorem isRegisterJob_iff {j : Job} :
    isRegisterJob j = true ↔ ∃ records, j.arg = .registerMasterInterfaceEx records := by
  unfold isRegisterJob
  split
  · next records harg => exact iff_of_true rfl ⟨records, harg⟩
  · next hnot => exact iff_of_false Bool.false_ne_true fun ⟨records, harg⟩ => hnot records harg

/-- The servers of `b'` are servers of `b`, and the batches are the same. -/
structure Loses (b b' : Broker) : Prop where
  servers : b'.mConnectedServers.entries.Sublist b.mConnectedServers.entries
  jobs : b'.registerJobs.Perm b.registerJobs

namespace Loses

/-- The servers and the batches are all that counts. -/
theorem of_eq (hservers : b'.mConnectedServers = b.mConnectedServers)
    (hjobs : b'.registerJobs = b.registerJobs) : Loses b b' :=
  ⟨by rw [hservers], .of_eq hjobs⟩

theorem refl (b : Broker) : Loses b b := .of_eq rfl rfl

theorem trans (h : Loses b b') (h' : Loses b' b'') : Loses b b'' :=
  ⟨h'.servers.trans h.servers, h'.jobs.trans h.jobs⟩

end Loses

/-- A new entry makes no batch. -/
theorem registerJobs_addEntry (cfg : Config) (c : Nat) (e : ServerListEntry) (b : Broker) :
    (b.addEntry cfg c e).registerJobs = b.registerJobs := by
  simp only [Broker.addEntry, triggerDescription, triggerAllDescription, registerJobs_sweep]
  rfl

/-- Only registrations and the replies to them add servers, master IDs and batches. -/
theorem Prim.loses {l : Label} (hp : Prim cfg l b b') (hadd : l ≠ .addEntry)
    (hmaster : l ≠ .masterID) : Loses b b' := by
  cases hp with
  | quiet hq => exact .of_eq hq.servers hq.registerJobs
  | addEntry => exact absurd rfl hadd
  | removeServer _ id => exact ⟨ServerList.remove_sublist id _, .refl _⟩
  | registerMaster => exact absurd rfl hmaster
  | setMasterID => exact absurd rfl hmaster
  | clients => exact .of_eq rfl rfl
  | create _ k ctx pulse _ =>
      refine .of_eq (by rw [servers_addNotification]) ?_
      obtain ⟨a, p, coid, hadd | hadd⟩ := addNotification_cases cfg k ctx pulse _ b
      · rw [hadd]; cases k <;> rfl
      · rw [hadd]; rfl
  | skip => exact .of_eq rfl rfl
  | sweep => exact .of_eq (by rw [servers_sweep]) (by rw [registerJobs_sweep])
  | addPool => exact .of_eq rfl rfl
  | attach _ _ k => cases k <;> exact .of_eq rfl rfl
  | modifyPool => exact .of_eq rfl rfl
  | storeMaster _ k => cases k <;> exact .of_eq rfl rfl
  | forward =>
      obtain ⟨l, pools, next, js, hb, _, hjs⟩ := forward_cases cfg b
      rw [hb]
      refine .of_eq rfl ?_
      have hnone : js.filter isRegisterJob = [] := by
        rw [List.filter_eq_nil_iff]
        intro j hj
        simp [hjs j hj]
      simp only [registerJobs, jobsInFlight, List.filter_append, hnone, List.append_nil]

/-- Updates that neither add an entry nor set a master ID lose entries and batches at most. -/
theorem Prims.loses {L : List Label} (hp : Prims cfg L b b') (hadd : .addEntry ∉ L)
    (hmaster : .masterID ∉ L) : Loses b b' :=
  hp.preserves (fun _ hl _ _ hprim hb => hb.trans
    (hprim.loses (fun he => hadd (he ▸ hl)) (fun he => hmaster (he ▸ hl)))) (.refl b)

/-- What the other replies of the master do is no concern of the server table. -/
theorem loses_jobReply (hattach : b.mPendingAttachExtendedJobs = []) {job : Job}
    (hjob : isRegisterJob job = false) (res : JobResult) :
    Loses b (b.jobReply cfg job res).2 := by
  have hpool (poolID id : UInt32) (b : Broker) :
      Loses b (b.storePoolNotification cfg poolID id) := by
    unfold storePoolNotification
    split
    · exact .of_eq rfl rfl
    · have hquiet : Quiet b (b.evalMaster cfg ⟨0, none, .clearNotification id⟩) :=
        quiet_evalMaster cfg rfl b
      exact .of_eq hquiet.servers hquiet.registerJobs
  have hstore (k : NotificationKind) (id masterID : UInt32) :
      Loses b (b.storeMasterNotification cfg k id masterID) := by
    unfold storeMasterNotification
    split
    · cases k <;> exact .of_eq rfl rfl
    · have hquiet : Quiet b (b.evalMaster cfg ⟨0, none, .clearNotification masterID⟩) :=
        quiet_evalMaster cfg rfl b
      exact .of_eq hquiet.servers hquiet.registerJobs
  have hrecords (l : List SFNDNotificationID) (b : Broker) :
      Loses b (l.foldl (finishAvailableRecord cfg) b) := by
    induction l generalizing b with
    | nil => exact .refl b
    | cons r l ih =>
        refine Loses.trans ?_ (ih _)
        unfold finishAvailableRecord
        split
        · exact .refl b
        · exact hpool _ _ b
  unfold jobReply
  split
  · exact .of_eq rfl rfl
  · rw [handleJobFinishedAttachExtended_of_empty cfg job res hattach]
    exact .refl b
  · split
    · exact .of_eq rfl rfl
    · exact .refl b
  · exact hrecords _ b
  · exact hpool _ _ b
  · exact hstore _ _ _
  · exact hstore _ _ _
  · exact hstore _ _ _
  · next harg => simp [isRegisterJob, harg] at hjob
  all_goals exact .refl b

/-- A quiet change loses nothing. -/
theorem Quiet.loses (h : Quiet b b') : Loses b b' := .of_eq h.servers h.registerJobs

/-- A reply that has nothing for the server table. -/
theorem loses_handleJobFinished (hattach : b.mPendingAttachExtendedJobs = []) {job : Job}
    {res : JobResult} (h : isRegisterJob job = false ∨ res.status ≠ 0) :
    Loses b (b.handleJobFinished cfg job res) := by
  unfold handleJobFinished
  split
  · next hstatus =>
    have hjob := h.resolve_right (fun hne => hne hstatus)
    exact (loses_jobReply hattach hjob res).trans (quiet_finalize _ _ _).loses
  · exact (quiet_finalize _ _ b).loses

/-- The reply to a batch. -/
theorem handleJobFinished_register {job : Job} (hjob : isRegisterJob job = true) {res : JobResult}
    (hstatus : res.status = 0) :
    Quiet ((job.replyIDs res).foldl (finishRegisterRecord cfg) b)
      (b.handleJobFinished cfg job res) := by
  obtain ⟨records, harg⟩ := isRegisterJob_iff.mp hjob
  rw [handleJobFinished, if_pos hstatus, jobReply, harg]
  exact quiet_finalize _ _ _

/-! ## One ID of a reply -/

/-- Without an entry that waits the ID is given back to the master. -/
theorem finishRegisterRecord_of_none {id : SPartyID}
    (h : b.mConnectedServers.findByLocalIDandInvalidMasterID id.localID = none) :
    b.finishRegisterRecord cfg id = b.unregisterInterfaceMaster cfg id := by
  rw [finishRegisterRecord, h]

/-- A refused record changes nothing where an entry waits. -/
theorem finishRegisterRecord_of_refused {id : SPartyID} {e : ServerListEntry}
    (h : b.mConnectedServers.findByLocalIDandInvalidMasterID id.localID = some e)
    (hid : id.extendedID = 0xffffffff) : b.finishRegisterRecord cfg id = b := by
  rw [finishRegisterRecord, h]
  exact if_pos hid

/-- Nothing is written of an ID that finds no entry, or that was not given. -/
theorem servers_finishRegisterRecord {id : SPartyID}
    (h : b.mConnectedServers.findByLocalIDandInvalidMasterID id.localID = none ∨
      id.extendedID = 0xffffffff) :
    (b.finishRegisterRecord cfg id).mConnectedServers = b.mConnectedServers := by
  cases hfind : b.mConnectedServers.findByLocalIDandInvalidMasterID id.localID with
  | none =>
      rw [finishRegisterRecord_of_none hfind, unregisterInterfaceMaster]
      split <;> rfl
  | some e =>
      have hid := h.resolve_left (by simp [hfind])
      rw [finishRegisterRecord_of_refused hfind hid]

/-- An ID that finds an entry is written there and nowhere else. -/
theorem finishRegisterRecord_of_some (cfg : Config) {id : SPartyID} {e : ServerListEntry}
    (h : b.mConnectedServers.findByLocalIDandInvalidMasterID id.localID = some e)
    (hid : id.extendedID ≠ 0xffffffff) :
    ∃ front back l, b.mConnectedServers.entries = front ++ e :: back ∧
      l.entries = front ++ { e with masterID := id } :: back ∧
      b.finishRegisterRecord cfg id = { b with mConnectedServers := l } := by
  obtain ⟨front, back, hentries, hwrite⟩ := modifyFirst_of_find? h
  refine ⟨front, back, b.mConnectedServers.setMasterID (ServerList.isPendingLocalID id.localID) id,
    hentries, hwrite fun e => { e with masterID := id }, ?_⟩
  rw [finishRegisterRecord, h]
  exact if_neg hid

/-- The entries that `findByLocalIDandInvalidMasterID` takes for pending, in their order. -/
def pendingWith (localID : UInt32) (b : Broker) : List ServerListEntry :=
  b.mConnectedServers.entries.filter (ServerList.isPendingLocalID localID)

/-- The search finds the first of the entries that wait. -/
theorem find_eq_head_pendingWith (localID : UInt32) (b : Broker) :
    b.mConnectedServers.findByLocalIDandInvalidMasterID localID =
      (b.pendingWith localID).head? := List.head?_filter.symm

/-- An entry waits if it has the local ID and no ID of the master. -/
theorem mem_pendingWith {localID : UInt32} {e : ServerListEntry} :
    e ∈ b.pendingWith localID ↔ e ∈ b.mConnectedServers.entries ∧
      e.partyID.localID = localID ∧ e.masterID.localID = 0xffffffff := by
  simp [pendingWith, ServerList.isPendingLocalID]

/-- Only the servers count. -/
theorem pendingWith_congr (h : b'.mConnectedServers = b.mConnectedServers) (localID : UInt32) :
    b'.pendingWith localID = b.pendingWith localID := by
  rw [pendingWith, h, pendingWith]

/-- An ID that is written takes its entry out of the pending ones. -/
theorem pendingWith_finishRegisterRecord (cfg : Config) {id : SPartyID} {e : ServerListEntry}
    (h : b.mConnectedServers.findByLocalIDandInvalidMasterID id.localID = some e)
    (hid : id.extendedID ≠ 0xffffffff) (hlocal : id.localID ≠ 0xffffffff) (localID : UInt32) :
    b.pendingWith localID =
      (if id.localID = localID then [e] else []) ++
        (b.finishRegisterRecord cfg id).pendingWith localID := by
  have hfinish : b.finishRegisterRecord cfg id = { b with
      mConnectedServers :=
        b.mConnectedServers.setMasterID (ServerList.isPendingLocalID id.localID) id } := by
    rw [finishRegisterRecord, h]
    exact if_neg hid
  rw [hfinish]
  by_cases hsame : id.localID = localID
  · subst hsame
    rw [if_pos rfl]
    exact filter_modifyFirst h (by simp [ServerList.isPendingLocalID, hlocal])
  · rw [if_neg hsame]
    refine (filter_modifyFirst_of_disjoint fun e he => ?_).symm
    obtain ⟨hlocalID, -⟩ :
        e.partyID.localID = id.localID ∧ e.masterID.localID = 0xffffffff := by
      simpa [ServerList.isPendingLocalID] using he
    simp [ServerList.isPendingLocalID, hlocalID, hsame]

/-! ## The state between two events -/

/-- The worker may lose batches. -/
theorem loses_workerStep (b : Broker) (w : WorkerStep) : Loses b (b.workerStep w) where
  servers := by rw [(workerStep_frame b w).1]
  jobs := (jobsInFlight_workerStep b w).filter _

/-- Servers and batches come with requests and with messages of the worker thread. -/
theorem loses_step {e : Event} (hrequest : ∀ c r, e ≠ .request c r) (hdeliver : e ≠ .deliver) :
    Loses b (b.step cfg e) := by
  cases e with
  | connected nodeAddress localAddress uid =>
      exact (prims_openConnection cfg nodeAddress localAddress uid b).loses (by simp) (by simp)
  | request c r => exact absurd rfl (hrequest c r)
  | closed c =>
      exact (prims_closeConnection cfg c b).loses (by simp [closeLabels]) (by simp [closeLabels])
  | pulse p value =>
      exact (prims_dispatchPulse cfg p value b).loses (by simp [pulseLabels])
        (by simp [pulseLabels])
  | deliver => exact absurd rfl hdeliver
  | worker w => exact loses_workerStep b w

/-- Taking a message out of the pipe takes its job. -/
theorem registerJobs_pipe {m : InternalNotification} {rest : List InternalNotification}
    (hpipe : b.pipe = m :: rest) :
    b.registerJobs = (InternalNotification.job? m).toList.filter isRegisterJob ++
      ({ b with pipe := rest } : Broker).registerJobs := by
  simp only [registerJobs, jobsInFlight, hpipe]
  cases m with
  | jobExecuted job res =>
      simp only [InternalNotification.job?, List.filterMap_cons, List.cons_append,
        List.filter_cons, Option.toList_some, List.filter_nil]
      split <;> rfl
  | masterConnected => rfl
  | masterDisconnected => rfl

/-- With the master connected the new batches go behind the old ones. -/
theorem registerJobs_registerInterfacesMaster (hmaster : b.isMasterConnected cfg = true) :
    (b.registerInterfacesMaster cfg).registerJobs = b.registerJobs ++ b.registerBatches cfg := by
  have hall : (b.registerBatches cfg).filter isRegisterJob = b.registerBatches cfg := by
    refine List.filter_eq_self.mpr fun j hj => ?_
    obtain ⟨batch, -, rfl⟩ := List.mem_map.mp hj
    rfl
  rw [registerInterfacesMaster_eq, if_pos hmaster]
  simp only [registerJobs, jobsInFlight, ← List.append_assoc, List.filter_append, hall]

/-- A new connection to the master: the servers are registered and the notifications forwarded. -/
theorem prims_handleMasterConnected (cfg : Config) (b : Broker) :
    Prims cfg [.masterID, .forward] b (b.handleMasterConnected cfg) :=
  (Prims.single (by simp) (.registerMaster b)).tail (by simp) (.forward _)

/-- What a lost master leaves of the table. -/
theorem handleMasterDisconnected_loses (cfg : Config) (b : Broker) :
    (b.handleMasterDisconnected cfg).mConnectedServers = b.mConnectedServers.clearMasterIDs ∧
      (b.handleMasterDisconnected cfg).registerJobs = b.registerJobs := by
  simp only [handleMasterDisconnected, triggerNotLocal, clearMasterNotification, mapNotifications]
  constructor
  · show (sweep cfg false .clientDetach _ _).mConnectedServers = _
    rw [servers_sweep, servers_sweep]
  · show (sweep cfg false .clientDetach _ _).registerJobs = _
    rw [registerJobs_sweep, registerJobs_sweep]
    rfl

/-- Every batch whose reply is not yet processed meets `Q`. -/
def EveryBatch (Q : Job → Prop) (b : Broker) : Prop := ∀ j ∈ b.registerJobs, Q j

section EveryBatch

variable {Q : Job → Prop}

/-- Fewer batches meet what all of them do. -/
theorem EveryBatch.of_subset (h : EveryBatch Q b) (hjobs : b'.registerJobs ⊆ b.registerJobs) :
    EveryBatch Q b' := fun j hj => h j (hjobs hj)

/-- So do the batches that are left. -/
theorem EveryBatch.loses (h : EveryBatch Q b) (hl : Loses b b') : EveryBatch Q b' :=
  h.of_subset hl.jobs.subset

/-- And new batches meet what every batch does where it is made. -/
theorem EveryBatch.registerInterfacesMaster (hQ : ∀ b : Broker, ∀ j ∈ b.registerBatches cfg, Q j)
    (h : EveryBatch Q b) : EveryBatch Q (b.registerInterfacesMaster cfg) := by
  cases hmaster : b.isMasterConnected cfg with
  | false =>
      rw [registerInterfacesMaster_eq, hmaster, if_neg Bool.false_ne_true]
      exact h
  | true =>
      intro j hj
      rw [registerJobs_registerInterfacesMaster hmaster] at hj
      exact (List.mem_append.mp hj).elim (h j) (hQ b j)

/-- One update makes batches in `registerInterfacesMaster` only. -/
theorem EveryBatch.prim (hQ : ∀ b : Broker, ∀ j ∈ b.registerBatches cfg, Q j)
    (h : EveryBatch Q b) {l : Label} (hp : Prim cfg l b b') : EveryBatch Q b' := by
  by_cases hadd : l = .addEntry
  · subst hadd
    cases hp with
    | addEntry _ c e next =>
        exact h.of_subset (by rw [registerJobs_addEntry]; exact List.Subset.refl _)
  by_cases hmaster : l = .masterID
  · subst hmaster
    cases hp with
    | registerMaster => exact h.registerInterfacesMaster hQ
    | setMasterID => exact h
  · exact h.loses (hp.loses hadd hmaster)

/-- So does a sequence of updates. -/
theorem EveryBatch.prims (hQ : ∀ b : Broker, ∀ j ∈ b.registerBatches cfg, Q j)
    (h : EveryBatch Q b) {L : List Label} (hp : Prims cfg L b b') : EveryBatch Q b' :=
  hp.preserves (fun _ _ _ _ hprim hb => EveryBatch.prim hQ hb hprim) h

/-- And so does every step. -/
theorem EveryBatch.step (hQ : ∀ b : Broker, ∀ j ∈ b.registerBatches cfg, Q j)
    (h : EveryBatch Q b) (hattach : b.mPendingAttachExtendedJobs = []) (e : Event) :
    EveryBatch Q (b.step cfg e) := by
  cases e with
  | request c r => exact h.prims hQ (prims_request cfg c r b)
  | deliver =>
      obtain hsame | ⟨m, rest, hpipe, _, hstep⟩ := deliver_cases cfg b
      · rw [hsame]
        exact h
      · have hrest : EveryBatch Q { b with pipe := rest } :=
          h.of_subset (by rw [registerJobs_pipe hpipe]; exact List.subset_append_right _ _)
        rw [hstep]
        cases m with
        | jobExecuted job res =>
            exact hrest.prims hQ (prims_handleJobFinished cfg job res hattach)
        | masterConnected => exact hrest.prims hQ (prims_handleMasterConnected cfg _)
        | masterDisconnected =>
            have hjobs := (handleMasterDisconnected_loses cfg { b with pipe := rest }).2
            exact hrest.of_subset (hjobs ▸ List.Subset.refl _)
  | _ => exact h.loses (loses_step (by simp) (by simp))

end EveryBatch

/-- The job says how many records its batch has. -/
def Fits (j : Job) : Prop := j.cookie.toNat = j.batch.length

/-- A batch has at most `MAX_MULTIPLE_COUNT` records, which its cookie can hold. -/
theorem fits_registerBatches (b : Broker) : ∀ j ∈ b.registerBatches cfg, Fits j := by
  intro j hj
  obtain ⟨batch, hbatch, rfl⟩ := List.mem_map.mp hj
  have hle := (length_of_mem_batches (by decide) hbatch).2
  have hlt : batch.length < 2 ^ 32 := Nat.lt_of_le_of_lt hle (by decide)
  exact UInt32.toNat_ofNat_of_lt hlt

/-! ## What a request does to the table -/

/-- The record of the entry that a local registration adds. -/
def localRecord (cfg : Config) (ctx : SocketConnectionContext) (pid : UInt32) (chid : Int32)
    (d : InterfaceDescription) (b : Broker) : SFNDInterfaceDescriptionEx :=
  { chid := chid, pid := pid, nd := ctx.mNodeAddress
    serverID := ⟨UInt32.ofNat b.mNextServerID, cfg.mExtendedID⟩
    ifDescription := d }

section Registrations

variable (cfg : Config) (P : SFNDInterfaceDescriptionEx → Broker → Bool)
  (ctx : SocketConnectionContext)

/-- A local registration of the interface is refused or adds an entry whose record meets `P`. -/
def addsInterface (pid : UInt32) (chid : Int32) (d : InterfaceDescription) (b : Broker) : Bool :=
  (b.mConnectedServers.findName d.name).isSome || P (b.localRecord cfg ctx pid chid d) b

/-- So does a record of a slave. -/
def addsRecord (r : SFNDInterfaceDescriptionEx) (b : Broker) : Bool :=
  b.refusesRecord cfg r || P (registerRecord (masterEntry ctx r)) b

/-- The records of the entries that a request adds meet `P`. -/
def addsServers (b : Broker) : Request → Bool
  | .registerInterface d pid chid | .registerInterfaceGroupID d pid chid _ =>
      !(check d && ctx.isLocal) || addsInterface cfg P ctx pid chid d b
  | .registerInterfaceEx n pid chid rs =>
      recordAlong (registerRecordEx cfg ctx pid chid) (addsInterface cfg P ctx pid chid)
        n.toInt.toNat rs b
  | .registerMasterInterfaceEx n rs =>
      recordAlong (registerMasterRecord cfg ctx) (addsRecord cfg P ctx) n.toInt.toNat rs b
  | _ => true

end Registrations

/-- What losses, new entries and batches preserve, a request preserves. -/
theorem dispatch_preserves {P : SFNDInterfaceDescriptionEx → Broker → Bool} {I : Broker → Prop}
    (hloses : ∀ b b' : Broker, Loses b b' → b'.isMasterConnected cfg = b.isMasterConnected cfg →
      I b → I b')
    (hadd : ∀ (b : Broker) (c : Nat) (e : ServerListEntry) (next : Nat), e.masterID = noPartyID →
      b.mConnectedServers.findName e.ifDescription.name = none → P (registerRecord e) b = true →
        I b → I ({ b with mNextServerID := next }.addEntry cfg c e))
    (hmaster : ∀ b, I b → I (b.registerInterfacesMaster cfg)) {ctx : SocketConnectionContext}
    {r : Request} (hnew : b.addsServers cfg P ctx r = true) (h : I b) :
    I (b.dispatch cfg ctx r).1 := by
  have hinterface (pid : UInt32) (chid grpid : Int32) (isLocal : Bool) (d : InterfaceDescription)
      (b : Broker) (hnew : addsInterface cfg P ctx pid chid d b = true) (hb : I b) :
      I (b.addInterface cfg ctx d pid chid isLocal grpid).2 := by
    unfold Broker.addInterface
    split
    · exact hb
    · next hname =>
      have hP := (Bool.or_eq_true_iff.mp hnew).resolve_left hname
      exact hadd b ctx.mId _ _ rfl (by simpa using hname) hP hb
  have hrecord (r : SFNDInterfaceDescriptionEx) (b : Broker)
      (hnew : addsRecord cfg P ctx r b = true) (hb : I b) :
      I (b.registerMasterRecord cfg ctx r).2 := by
    unfold Broker.registerMasterRecord
    split
    · exact hb
    · next hrefuse =>
      have hP := (Bool.or_eq_true_iff.mp hnew).resolve_left hrefuse
      have hname : b.mConnectedServers.findName r.ifDescription.name = none := by
        simp only [refusesRecord, Bool.or_eq_true, not_or] at hrefuse
        simpa using hrefuse.1.2
      exact hadd b ctx.mId (masterEntry ctx r) b.mNextServerID rfl hname hP hb
  have hprims := prims_dispatch cfg ctx r b
  cases r with
  | registerInterface d pid chid =>
      refine handleRegisterInterface_leaves h fun hcheck hlocal => hmaster _ ?_
      have hd : addsInterface cfg P ctx pid chid d b = true := by
        simpa [addsServers, hcheck, hlocal] using hnew
      exact hinterface pid chid _ _ d b hd h
  | registerInterfaceGroupID d pid chid grpid =>
      refine handleRegisterInterfaceGroupID_leaves h fun hboth => hmaster _ ?_
      have hd : addsInterface cfg P ctx pid chid d b = true := by
        simpa [addsServers, hboth] using hnew
      exact hinterface pid chid grpid _ d b hd h
  | registerInterfaceEx n pid chid rs =>
      have h1 : I (recordLoop (registerRecordEx cfg ctx pid chid) n.toInt.toNat rs b).2 :=
        recordLoop_preserves_along (f := registerRecordEx cfg ctx pid chid)
          (fun d s hd hs => hinterface pid chid _ _ d s hd hs) h hnew
      exact handleRegisterInterfaceEx_leaves h1 (hmaster _ h1)
  | registerMasterInterfaceEx n rs =>
      have h1 : I (recordLoop (registerMasterRecord cfg ctx) n.toInt.toNat rs b).2 :=
        recordLoop_preserves_along (fun r s hr hs => hrecord r s hr hs) h hnew
      exact handleRegisterMasterInterface_leaves (hmaster _ h1)
  | _ =>
      refine hloses b _ (hprims.loses ?_ ?_) hprims.isMasterConnected h <;>
        simp [requestLabels, unregisterLabels, attachLabels, attachExtendedLabels, detachLabels,
          clearLabels, listLabels, disconnectLabels, availableLabels]

/-- A condition that always holds is met by every record. -/
theorem recordAlong_true {α σ β : Type} (f : α → σ → β × σ) {P : α → σ → Bool}
    (hP : ∀ x s, P x s = true) (n : Nat) (l : List α) (s : σ) : recordAlong f P n l s = true := by
  induction l generalizing n s with
  | nil => cases n <;> rfl
  | cons x l ih =>
      cases n with
      | zero => rfl
      | succ n => exact Bool.and_eq_true_iff.mpr ⟨hP x s, ih n _⟩

/-- And by every server that a request adds. -/
theorem addsServers_true (ctx : SocketConnectionContext) (b : Broker) (r : Request) :
    b.addsServers cfg (fun _ _ => true) ctx r = true := by
  cases r with
  | registerInterface => simp [addsServers, addsInterface]
  | registerInterfaceGroupID => simp [addsServers, addsInterface]
  | registerInterfaceEx => exact recordAlong_true _ (fun _ _ => by simp [addsInterface]) _ _ _
  | registerMasterInterfaceEx => exact recordAlong_true _ (fun _ _ => by simp [addsRecord]) _ _ _
  | _ => rfl

end Broker

/-! ## Agreement with the master -/

/-- A broker and what its master stored for it since it was connected. -/
structure Forwarded where
  broker : Broker := Broker.init
  stored : List (SFNDInterfaceDescriptionEx × SPartyID) := []

namespace Forwarded

open Broker

/-- What is known to be stored behind an event. -/
def storedBehind (s : Forwarded) : Event → List (SFNDInterfaceDescriptionEx × SPartyID)
  | .deliver =>
      match s.broker.delivered with
      | some (.jobExecuted job res) => s.stored ++ job.stored res
      | some .masterDisconnected => []
      | _ => s.stored
  | _ => s.stored

/-- One step. -/
def step (cfg : Config) (s : Forwarded) (e : Event) : Forwarded where
  broker := s.broker.step cfg e
  stored := s.storedBehind e

/-- Every master ID of the table is one that the master stored for the very entry. -/
def Agrees (s : Forwarded) : Prop :=
  ∀ e ∈ s.broker.mConnectedServers.entries, e.masterID ≠ noPartyID → e.masterID ≠ pendingMasterID →
    (registerRecord e, e.masterID) ∈ s.stored

/-- What the master stored of an interface that is gone, the broker takes back. -/
def TakesBack (cfg : Config) (s : Forwarded) (e : Event) : Prop :=
  match e, s.broker.delivered with
  | .deliver, some (.jobExecuted job res) =>
      s.broker.isMasterConnected cfg = true → ∀ x ∈ job.stored res,
        (∀ e ∈ s.broker.mConnectedServers.entries, registerRecord e ≠ x.1) →
          ∃ js, (s.broker.step cfg .deliver).mQueue = s.broker.mQueue ++ js ∧
            (⟨0, none, .unregisterInterface x.2⟩ : Job) ∈ js
  | _, _ => True

end Forwarded

namespace Broker

variable {cfg : Config} {b b' : Broker}

/-- The records that were given an ID. -/
def given (xs : List (SFNDInterfaceDescriptionEx × SPartyID)) :
    List (SFNDInterfaceDescriptionEx × SPartyID) :=
  xs.filter (fun x => x.2.extendedID ≠ 0xffffffff)

/-- Those that were given one with this local half. -/
def givenWith (localID : UInt32) (xs : List (SFNDInterfaceDescriptionEx × SPartyID)) :
    List (SFNDInterfaceDescriptionEx × SPartyID) :=
  (given xs).filter (fun x => x.2.localID = localID)

/-- The entries are those of the records, in their order.  An ID for which there is none is one
that can be given back. -/
def ownIn : List (SFNDInterfaceDescriptionEx × SPartyID) → List ServerListEntry → Bool
  | [], _ => true
  | x :: xs, [] => 0 < x.2.extendedID.toInt32 && ownIn xs []
  | x :: xs, e :: es => registerRecord e = x.1 && ownIn xs es

/-- The IDs of a reply that have one local half go to the pending entries that have it, one
after the other: these are the entries of their records. -/
def givesOwn (xs : List (SFNDInterfaceDescriptionEx × SPartyID)) (b : Broker) : Bool :=
  (given xs).all fun x => x.2.localID ≠ 0xffffffff &&
    ownIn (givenWith x.2.localID xs) (b.pendingWith x.2.localID)

/-- The ID is none, or finds no entry. -/
def findsNone (b : Broker) (id : SPartyID) : Bool :=
  id.extendedID = 0xffffffff ||
    (b.mConnectedServers.findByLocalIDandInvalidMasterID id.localID).isNone

/-- The reply to a batch, if it is one of the master, gives each entry its own ID; any other finds
no entry. -/
def replyFindsOwn (job : Job) (res : JobResult) (b : Broker) : Bool :=
  if res.ret_val = 0 then givesOwn (job.batch.zip (job.replyIDs res)) b
  else (job.replyIDs res).all b.findsNone

/-- The condition on a step: a reply that is evaluated gives each entry its own ID. -/
def stepFindsOwn (b : Broker) : Event → Bool
  | .deliver =>
      match b.pipe with
      | .jobExecuted job res :: rest =>
          !isRegisterJob job || res.status ≠ 0 ||
            replyFindsOwn job res { b with pipe := rest }
      | _ => true
  | _ => true

/-! ## The IDs of a reply -/

/-- What `givesOwn` says of each local half. -/
structure GivesOwn (xs : List (SFNDInterfaceDescriptionEx × SPartyID)) (b : Broker) : Prop where
  localID : ∀ x ∈ given xs, x.2.localID ≠ 0xffffffff
  own : ∀ l, ownIn (givenWith l xs) (b.pendingWith l) = true

/-- What is decided holds. -/
theorem givesOwn_of_eq_true {xs : List (SFNDInterfaceDescriptionEx × SPartyID)}
    (h : givesOwn xs b = true) : GivesOwn xs b := by
  simp only [givesOwn, List.all_eq_true, Bool.and_eq_true, decide_eq_true_eq] at h
  refine ⟨fun x hx => (h x hx).1, fun l => ?_⟩
  cases hgiven : givenWith l xs with
  | nil => rfl
  | cons x _ =>
      have hx : x ∈ givenWith l xs := hgiven ▸ List.mem_cons_self
      rw [givenWith, List.mem_filter, decide_eq_true_eq] at hx
      rw [← hgiven, ← hx.2]
      exact (h x hx.1).2

/-- A refused record stores nothing. -/
theorem given_cons_of_refused {x : SFNDInterfaceDescriptionEx × SPartyID}
    (xs : List (SFNDInterfaceDescriptionEx × SPartyID)) (hid : x.2.extendedID = 0xffffffff) :
    given (x :: xs) = given xs := List.filter_cons_of_neg (by simp [hid])

/-- The other ones are stored in their order. -/
theorem given_cons_of_stored {x : SFNDInterfaceDescriptionEx × SPartyID}
    (xs : List (SFNDInterfaceDescriptionEx × SPartyID)) (hid : x.2.extendedID ≠ 0xffffffff) :
    given (x :: xs) = x :: given xs := List.filter_cons_of_pos (by simp [hid])

namespace GivesOwn

variable {x : SFNDInterfaceDescriptionEx × SPartyID}
  {xs : List (SFNDInterfaceDescriptionEx × SPartyID)}

/-- The first of the records finds its own entry. -/
theorem own_head (h : GivesOwn (x :: xs) b) (hid : x.2.extendedID ≠ 0xffffffff) :
    ownIn (x :: givenWith x.2.localID xs) (b.pendingWith x.2.localID) = true := by
  have hown := h.own x.2.localID
  rwa [givenWith, given_cons_of_stored xs hid, List.filter_cons_of_pos (by simp)] at hown

/-- The first ID finds the entry of its record. -/
theorem record (h : GivesOwn (x :: xs) b) (hid : x.2.extendedID ≠ 0xffffffff)
    {e : ServerListEntry}
    (hfind : b.mConnectedServers.findByLocalIDandInvalidMasterID x.2.localID = some e) :
    registerRecord e = x.1 := by
  have hown := h.own_head hid
  rw [find_eq_head_pendingWith] at hfind
  obtain ⟨es, hes⟩ := List.head?_eq_some_iff.mp hfind
  rw [hes, ownIn, Bool.and_eq_true, decide_eq_true_eq] at hown
  exact hown.1

/-- If it finds none, it can be given back. -/
theorem positive (h : GivesOwn (x :: xs) b) (hid : x.2.extendedID ≠ 0xffffffff)
    (hfind : b.mConnectedServers.findByLocalIDandInvalidMasterID x.2.localID = none) :
    0 < x.2.extendedID.toInt32 := by
  have hown := h.own_head hid
  rw [find_eq_head_pendingWith, List.head?_eq_none_iff] at hfind
  rw [hfind, ownIn, Bool.and_eq_true, decide_eq_true_eq] at hown
  exact hown.1

/-- The other IDs find theirs behind it. -/
theorem tail (h : GivesOwn (x :: xs) b) : GivesOwn xs (b.finishRegisterRecord cfg x.2) := by
  by_cases hid : x.2.extendedID = 0xffffffff
  · have hgiven := given_cons_of_refused xs hid
    refine ⟨fun y hy => h.localID y (hgiven ▸ hy), fun l => ?_⟩
    rw [pendingWith_congr (servers_finishRegisterRecord (Or.inr hid))]
    have hown := h.own l
    rwa [givenWith, hgiven] at hown
  have hgiven := given_cons_of_stored xs hid
  refine ⟨fun y hy => h.localID y (hgiven ▸ List.mem_cons_of_mem _ hy), fun l => ?_⟩
  cases hfind : b.mConnectedServers.findByLocalIDandInvalidMasterID x.2.localID with
  | none =>
      rw [pendingWith_congr (servers_finishRegisterRecord (Or.inl hfind))]
      by_cases hl : x.2.localID = l
      · subst hl
        have hown := h.own_head hid
        rw [find_eq_head_pendingWith, List.head?_eq_none_iff] at hfind
        rw [hfind, ownIn, Bool.and_eq_true] at hown
        rw [hfind]
        exact hown.2
      · have hown := h.own l
        rwa [givenWith, hgiven, List.filter_cons_of_neg (by simp [hl])] at hown
  | some e =>
      have hpending := pendingWith_finishRegisterRecord cfg hfind hid
        (h.localID x (hgiven ▸ List.mem_cons_self)) l
      by_cases hl : x.2.localID = l
      · subst hl
        have hown := h.own_head hid
        rw [hpending, if_pos rfl, List.singleton_append, ownIn, Bool.and_eq_true] at hown
        exact hown.2
      · have hown := h.own l
        rw [if_neg hl, List.nil_append] at hpending
        rwa [hpending, givenWith, hgiven, List.filter_cons_of_neg (by simp [hl])] at hown

end GivesOwn

/-- Every master ID of the table is one of `stored`. -/
def HasStored (stored : List (SFNDInterfaceDescriptionEx × SPartyID)) (b : Broker) : Prop :=
  ∀ e ∈ b.mConnectedServers.entries, e.masterID ≠ noPartyID → e.masterID ≠ pendingMasterID →
    (registerRecord e, e.masterID) ∈ stored

section HasStored

variable {stored : List (SFNDInterfaceDescriptionEx × SPartyID)}

/-- What is stored stays with the entries that stay. -/
theorem HasStored.loses (h : HasStored stored b) (hl : Loses b b') : HasStored stored b' :=
  fun e he => h e (hl.servers.subset he)

/-- A new entry has no ID of the master, so nothing is stored in it. -/
theorem HasStored.addEntry (h : HasStored stored b) (c : Nat) {e : ServerListEntry} {next : Nat}
    (he : e.masterID = noPartyID) :
    HasStored stored ({ b with mNextServerID := next }.addEntry cfg c e) := by
  intro e' he'
  rw [servers_addEntry] at he'
  cases ServerList.mem_add.mp he' with
  | inl hnew => exact fun hne => absurd (hnew ▸ he) hne
  | inr hold => exact h e' hold

/-- An entry that is marked had no ID of the master. -/
theorem HasStored.registerInterfacesMaster (h : HasStored stored b) :
    HasStored stored (b.registerInterfacesMaster cfg) := by
  cases hmaster : b.isMasterConnected cfg with
  | false =>
      rw [registerInterfacesMaster_eq, hmaster, if_neg Bool.false_ne_true]
      exact h
  | true =>
      intro e' he' hnone hpending
      rw [entries_registerInterfacesMaster hmaster] at he'
      obtain ⟨e, he, rfl⟩ := List.mem_map.mp he'
      by_cases helig : registerEligible cfg e = true
      · exact absurd (if_pos helig) hpending
      · have hsame : marked cfg e = e := by rw [marked, if_neg helig]
        rw [hsame] at hnone hpending ⊢
        exact h e he hnone hpending

/-- IDs that find their own entries are stored for them. -/
theorem HasStored.finishAll {xs : List (SFNDInterfaceDescriptionEx × SPartyID)}
    (hxs : ∀ x ∈ xs, x.2.extendedID ≠ 0xffffffff → x ∈ stored) (hown : GivesOwn xs b)
    (h : HasStored stored b) :
    HasStored stored ((xs.map Prod.snd).foldl (finishRegisterRecord cfg) b) := by
  induction xs generalizing b with
  | nil => exact h
  | cons x xs ih =>
      refine ih (fun y hy => hxs y (List.mem_cons_of_mem _ hy)) hown.tail ?_
      cases hfind : b.mConnectedServers.findByLocalIDandInvalidMasterID x.2.localID with
      | none =>
          rw [finishRegisterRecord_of_none hfind]
          exact h.loses ((prims_unregisterInterfaceMaster cfg x.2 b).loses (by simp) (by simp))
      | some e =>
          by_cases hid : x.2.extendedID = 0xffffffff
          · rw [finishRegisterRecord_of_refused hfind hid]
            exact h
          obtain ⟨front, back, l, hentries, hl, hfinish⟩ :=
            finishRegisterRecord_of_some cfg hfind hid
          have hrecord : registerRecord e = x.1 := hown.record hid hfind
          rw [hfinish]
          intro e' he' hnone hpending
          have he' : e' ∈ front ++ { e with masterID := x.2 } :: back := hl ▸ he'
          rw [List.mem_append, List.mem_cons] at he'
          have hold (hmem : e' ∈ front ∨ e' ∈ back) : e' ∈ b.mConnectedServers.entries := by
            rw [hentries, List.mem_append, List.mem_cons]
            exact hmem.imp_right Or.inr
          rcases he' with hfront | rfl | hback
          · exact h e' (hold (Or.inl hfront)) hnone hpending
          · have hx : (registerRecord e, x.2) = x := by rw [hrecord]
            have hmem := hxs x List.mem_cons_self hid
            rw [← hx] at hmem
            exact hmem
          · exact h e' (hold (Or.inr hback)) hnone hpending

/-- IDs that find no entries change none. -/
theorem loses_finishAll {ids : List SPartyID} (h : ids.all b.findsNone = true) :
    Loses b (ids.foldl (finishRegisterRecord cfg) b) := by
  have hgen (b' : Broker) (hservers : b'.mConnectedServers = b.mConnectedServers)
      (hjobs : b'.registerJobs = b.registerJobs) :
      Loses b (ids.foldl (finishRegisterRecord cfg) b') := by
    induction ids generalizing b' with
    | nil => exact .of_eq hservers hjobs
    | cons id ids ih =>
        rw [List.all_cons, Bool.and_eq_true] at h
        rw [List.foldl_cons]
        cases hfind : b'.mConnectedServers.findByLocalIDandInvalidMasterID id.localID with
        | none =>
            rw [finishRegisterRecord_of_none hfind]
            unfold unregisterInterfaceMaster
            split
            · exact ih h.2 _ hservers ((registerJobs_eval rfl b').trans hjobs)
            · exact ih h.2 _ hservers hjobs
        | some e =>
            have hid : id.extendedID = 0xffffffff := by
              have hnone := h.1
              rw [findsNone, ← hservers, hfind] at hnone
              simpa using hnone
            rw [finishRegisterRecord_of_refused hfind hid]
            exact ih h.2 _ hservers hjobs
  exact hgen b rfl rfl

end HasStored

/-! ## What goes back to the master -/

/-- The records and the connection are the same, and jobs are only added. -/
structure Finishes (b b' : Broker) : Prop where
  records : b'.mConnectedServers.entries.map registerRecord =
    b.mConnectedServers.entries.map registerRecord
  phase : b'.phase = b.phase
  queue : b.mQueue <+: b'.mQueue

theorem Finishes.refl (b : Broker) : Finishes b b := ⟨rfl, rfl, List.prefix_refl _⟩

/-- Records that are finished behind records. -/
theorem Finishes.trans {b'' : Broker} (h : Finishes b b') (h' : Finishes b' b'') :
    Finishes b b'' :=
  ⟨h'.records.trans h.records, h'.phase.trans h.phase, h.queue.trans h'.queue⟩

/-- A finished record stores its ID or gives it back. -/
theorem finishes_finishRegisterRecord (cfg : Config) (b : Broker) (id : SPartyID) :
    Finishes b (b.finishRegisterRecord cfg id) := by
  cases hfind : b.mConnectedServers.findByLocalIDandInvalidMasterID id.localID with
  | none =>
      rw [finishRegisterRecord_of_none hfind]
      unfold unregisterInterfaceMaster
      split
      · exact ⟨rfl, rfl, List.prefix_append _ _⟩
      · exact .refl b
  | some e =>
      by_cases hid : id.extendedID = 0xffffffff
      · rw [finishRegisterRecord_of_refused hfind hid]
        exact .refl b
      obtain ⟨front, back, l, hentries, hl, hfinish⟩ :=
        finishRegisterRecord_of_some cfg hfind hid
      rw [hfinish]
      refine ⟨?_, rfl, List.prefix_refl _⟩
      show l.entries.map registerRecord = _
      rw [hl, hentries, List.map_append, List.map_append, List.map_cons, List.map_cons]
      rfl

/-- So do all the records of a batch. -/
theorem finishes_finishAll (cfg : Config) (ids : List SPartyID) (b : Broker) :
    Finishes b (ids.foldl (finishRegisterRecord cfg) b) := by
  induction ids generalizing b with
  | nil => exact .refl b
  | cons id ids ih => exact (finishes_finishRegisterRecord cfg b id).trans (ih _)

/-- An ID of an interface that is gone goes back to the master. -/
theorem takesBack_finishAll {xs : List (SFNDInterfaceDescriptionEx × SPartyID)}
    {x : SFNDInterfaceDescriptionEx × SPartyID} (hx : x ∈ xs) (hid : x.2.extendedID ≠ 0xffffffff)
    (hown : GivesOwn xs b) (hmaster : b.isMasterConnected cfg = true)
    (hgone : x.1 ∉ b.mConnectedServers.entries.map registerRecord) :
    ∃ js, ((xs.map Prod.snd).foldl (finishRegisterRecord cfg) b).mQueue = b.mQueue ++ js ∧
      (⟨0, none, .unregisterInterface x.2⟩ : Job) ∈ js := by
  induction xs generalizing b with
  | nil => exact absurd hx List.not_mem_nil
  | cons y xs ih =>
      rw [List.map_cons, List.foldl_cons]
      cases List.mem_cons.mp hx with
      | inl hhead =>
          subst hhead
          have hnone : b.mConnectedServers.findByLocalIDandInvalidMasterID x.2.localID = none := by
            cases hfind : b.mConnectedServers.findByLocalIDandInvalidMasterID x.2.localID with
            | none => rfl
            | some e =>
                have hrecord : registerRecord e = x.1 := hown.record hid hfind
                exact absurd (List.mem_map.mpr ⟨e, List.mem_of_find?_eq_some hfind, hrecord⟩) hgone
          have hpositive : 0 < x.2.extendedID.toInt32 := hown.positive hid hnone
          have hsent : b.finishRegisterRecord cfg x.2 =
              b.eval ⟨0, none, .unregisterInterface x.2⟩ := by
            rw [finishRegisterRecord_of_none hnone, unregisterInterfaceMaster,
              if_pos ⟨hpositive, hmaster⟩]
          rw [hsent]
          obtain ⟨js, hjs⟩ := (finishes_finishAll cfg (xs.map Prod.snd)
            (b.eval ⟨0, none, .unregisterInterface x.2⟩)).queue
          refine ⟨⟨0, none, .unregisterInterface x.2⟩ :: js, ?_, List.mem_cons_self⟩
          rw [← hjs]
          exact List.append_assoc _ _ _
      | inr htail =>
          have hstep := finishes_finishRegisterRecord cfg b y.2
          have hstill : (b.finishRegisterRecord cfg y.2).isMasterConnected cfg = true := by
            rw [isMasterConnected, hstep.phase]
            exact hmaster
          obtain ⟨js, hqueue, hmem⟩ := ih htail hown.tail hstill (hstep.records ▸ hgone)
          obtain ⟨js', hjs'⟩ := hstep.queue
          refine ⟨js' ++ js, ?_, List.mem_append_right _ hmem⟩
          rw [hqueue, ← hjs', List.append_assoc]

/-! ## Steps -/

/-- An answer to a connection queues no job. -/
theorem mQueue_finalize (job : Job) (r : JobReply) (b : Broker) :
    (b.finalize job r).mQueue = b.mQueue := by
  unfold finalize
  split
  · rfl
  · split <;> rfl

/-- The IDs of a reply are those of the records of its batch. -/
theorem map_snd_batch {job : Job} (hfit : job.cookie.toNat = job.batch.length) (res : JobResult) :
    (job.batch.zip (job.replyIDs res)).map Prod.snd = job.replyIDs res := by
  refine List.map_snd_zip ?_
  rw [Job.replyIDs, List.length_map, List.length_range]
  exact Nat.le_of_eq hfit

/-- What a reply stores: the records of the batch with the IDs that the master did not refuse. -/
theorem mem_stored {job : Job} {res : JobResult} {x : SFNDInterfaceDescriptionEx × SPartyID} :
    x ∈ job.stored res ↔ (res.status = 0 ∧ res.ret_val = 0) ∧
      x ∈ job.batch.zip (job.replyIDs res) ∧ x.2.extendedID ≠ 0xffffffff := by
  unfold Job.stored
  split
  · next hok => simp [hok]
  · next hnot => exact iff_of_false List.not_mem_nil fun h => hnot h.1

/-- Other jobs store nothing in the servers. -/
theorem stored_of_not_register {job : Job} (h : isRegisterJob job = false) (res : JobResult) :
    job.stored res = [] := by
  have hbatch : job.batch = [] := by
    unfold Job.batch
    split
    · next records harg => simp [isRegisterJob, harg] at h
    · rfl
  unfold Job.stored
  split
  · rw [hbatch]; rfl
  · rfl

section Steps

variable {stored : List (SFNDInterfaceDescriptionEx × SPartyID)}

/-- Less was stored. -/
theorem HasStored.mono {stored' : List (SFNDInterfaceDescriptionEx × SPartyID)}
    (h : HasStored stored b) (hsub : stored ⊆ stored') : HasStored stored' b :=
  fun e he hnone hpending => hsub (h e he hnone hpending)

/-- A request keeps what is stored. -/
theorem HasStored.request (h : HasStored stored b) (c : Nat) (r : Request) :
    HasStored stored (b.request cfg c r) := by
  cases request_cases cfg c r b with
  | inl hsame => rwa [hsame]
  | inr hdispatched =>
      obtain ⟨k, -, -, -, hquiet⟩ := hdispatched
      refine HasStored.loses ?_ hquiet.loses
      exact dispatch_preserves (P := fun _ _ => true) (I := HasStored stored)
        (fun _ _ hl _ hb => hb.loses hl) (fun _ c _ _ he _ _ hb => hb.addEntry c he)
        (fun _ hb => hb.registerInterfacesMaster) (addsServers_true _ _ _) h

/-- A reply gives the table IDs that the master stored, and takes back what is gone. -/
theorem HasStored.handleJobFinished (h : HasStored stored b)
    (hattach : b.mPendingAttachExtendedJobs = []) {job : Job} {res : JobResult}
    (hfit : isRegisterJob job = true → job.cookie.toNat = job.batch.length)
    (hown : (!isRegisterJob job || res.status ≠ 0 || replyFindsOwn job res b) = true) :
    HasStored (stored ++ job.stored res) (b.handleJobFinished cfg job res) := by
  by_cases hquiet : isRegisterJob job = false ∨ res.status ≠ 0
  · have hloses : Loses b (b.handleJobFinished cfg job res) :=
      loses_handleJobFinished hattach hquiet
    exact (h.loses hloses).mono (List.subset_append_left _ _)
  obtain ⟨hjob, hstatus⟩ : isRegisterJob job = true ∧ res.status = 0 := by
    simpa using hquiet
  have hreply : replyFindsOwn job res b = true := by
    simpa [hjob, hstatus] using hown
  refine HasStored.loses ?_ (handleJobFinished_register hjob hstatus).loses
  unfold replyFindsOwn at hreply
  split at hreply
  · next hret =>
    rw [← map_snd_batch (hfit hjob) res]
    refine HasStored.finishAll (fun x hx hid => ?_) (givesOwn_of_eq_true hreply)
      (h.mono (List.subset_append_left _ _))
    exact List.mem_append_right _ (mem_stored.mpr ⟨⟨hstatus, hret⟩, hx, hid⟩)
  · exact (h.loses (loses_finishAll hreply)).mono (List.subset_append_left _ _)

/-- So does a new connection to the master. -/
theorem HasStored.handleMasterConnected (h : HasStored stored b) :
    HasStored stored (b.handleMasterConnected cfg) :=
  h.registerInterfacesMaster.loses
    ((Prim.forward (b.registerInterfacesMaster cfg)).loses (by simp) (by simp))

/-- With the master everything that it stored is gone. -/
theorem hasStored_handleMasterDisconnected (b : Broker) :
    HasStored [] (b.handleMasterDisconnected cfg) := by
  intro e he hnone
  rw [(handleMasterDisconnected_loses cfg b).1] at he
  obtain ⟨e', -, rfl⟩ := List.mem_map.mp he
  exact absurd rfl hnone

end Steps

end Broker

namespace Forwarded

open Broker

variable {cfg : Config}

/-- What holds in every state of a run. -/
structure Inv (s : Forwarded) : Prop where
  agrees : Agrees s
  fits : EveryBatch Fits s.broker
  peers : Peers (fun _ _ => True) s.broker

/-- At the beginning nothing is stored. -/
theorem inv_init : Inv {} where
  agrees := nofun
  fits := nofun
  peers := ⟨rfl, fun _ _ _ => trivial⟩

/-- The job of a message in the pipe fits. -/
theorem Inv.fits_pipe {s : Forwarded} (hs : Inv s) {job : Job} {res : JobResult}
    {rest : List InternalNotification} (hpipe : s.broker.pipe = .jobExecuted job res :: rest)
    (hjob : isRegisterJob job = true) : job.cookie.toNat = job.batch.length := by
  refine hs.fits job ?_
  rw [registerJobs_pipe hpipe]
  exact List.mem_append_left _ (by simp [InternalNotification.job?, hjob])

/-- A step whose records find their own entries keeps what is stored. -/
theorem Inv.step {s : Forwarded} (hs : Inv s) {e : Event}
    (hown : stepFindsOwn s.broker e = true) : Inv (s.step cfg e) := by
  refine ⟨?_, hs.fits.step fits_registerBatches hs.peers.attachJobs e,
    hs.peers.step (fun _ _ _ _ => trivial)⟩
  show HasStored (s.storedBehind e) (s.broker.step cfg e)
  have hstored : HasStored s.stored s.broker := hs.agrees
  cases e with
  | request c r => exact hstored.request c r
  | deliver =>
      rw [storedBehind]
      cases hdelivered : s.broker.delivered with
      | none =>
          rw [deliver_of_none cfg hdelivered]
          exact hstored
      | some m =>
          obtain ⟨rest, hpipe, hstep⟩ := deliver_of_some cfg hdelivered
          have hrest : HasStored s.stored { s.broker with pipe := rest } := hstored
          rw [hstep]
          cases m with
          | jobExecuted job res =>
              refine hrest.handleJobFinished hs.peers.attachJobs (hs.fits_pipe hpipe) ?_
              simpa only [stepFindsOwn, hpipe] using hown
          | masterConnected => exact hrest.handleMasterConnected
          | masterDisconnected => exact hasStored_handleMasterDisconnected _
  | _ => exact hstored.loses (loses_step (by simp) (by simp))

/-- So every ID of the master that is taken back is that of the server which goes. -/
theorem Inv.takesBack {s : Forwarded} (hs : Inv s) {e : Event}
    (hown : stepFindsOwn s.broker e = true) : TakesBack cfg s e := by
  unfold TakesBack
  split
  case h_2 => trivial
  case h_1 job res hdelivered =>
    obtain ⟨rest, hpipe, hstep⟩ := deliver_of_some cfg hdelivered
    intro hmaster x hx hgone
    obtain ⟨⟨hstatus, hret⟩, hmem, hid⟩ := mem_stored.mp hx
    have hjob : isRegisterJob job = true := by
      by_contra hnot
      rw [stored_of_not_register (Bool.eq_false_iff.mpr hnot)] at hx
      exact absurd hx List.not_mem_nil
    have hall : givesOwn (job.batch.zip (job.replyIDs res)) { s.broker with pipe := rest } =
        true := by
      simpa [stepFindsOwn, hpipe, hjob, hstatus, hret, replyFindsOwn] using hown
    have hnone : x.1 ∉ s.broker.mConnectedServers.entries.map registerRecord := by
      intro hin
      obtain ⟨e, he, hrecord⟩ := List.mem_map.mp hin
      exact hgone e he hrecord
    obtain ⟨js, hqueue, hjs⟩ := takesBack_finishAll (b := { s.broker with pipe := rest })
      hmem hid (givesOwn_of_eq_true hall) hmaster hnone
    refine ⟨js, ?_, hjs⟩
    obtain ⟨records, harg⟩ := isRegisterJob_iff.mp hjob
    rw [hstep]
    show (({ s.broker with pipe := rest } : Broker).handleJobFinished cfg job res).mQueue = _
    rw [Broker.handleJobFinished, if_pos hstatus, jobReply, harg, mQueue_finalize]
    rw [map_snd_batch (hs.fits_pipe hpipe hjob)] at hqueue
    exact hqueue

/-- Along a run whose replies give each entry its own ID, the master IDs are those that the
master stored, and what it stored of interfaces that are gone is unregistered. -/
theorem agreement_of_along (cfg : Config) (es : List Event)
    (h : Run.Along (step cfg) (fun s e => stepFindsOwn s.broker e = true) {} es) :
    Agrees (Run.run (step cfg) {} es) ∧ Run.Along (step cfg) (TakesBack cfg) {} es := by
  have hstep (s : Forwarded) (e : Event) (hs : Inv s)
      (hown : stepFindsOwn s.broker e = true) : Inv (s.step cfg e) := hs.step hown
  have hback (s : Forwarded) (e : Event) (hs : Inv s)
      (hown : stepFindsOwn s.broker e = true) : TakesBack cfg s e := hs.takesBack hown
  exact ⟨(Run.invariant hstep inv_init h).agrees, Run.along_of_invariant hstep hback inv_init h⟩

/-- A slave in tree mode that forwards all services. -/
def treeConfig : Config := { theId := 2, hasMaster := true, mForwardServices := [[42]] }

/-- The master is connected, and two brokers are, behind which others have servers. -/
def treeWithTwoBrokers : List Event :=
  [.worker .connect, .worker (.idPing true), .deliver, .connected 9 0 (-1), .connected 8 0 (-1)]

/-- The reply to a batch of one record. -/
def masterReplies (id : SPartyID) : List Event :=
  [.worker .pop, .worker (.finish { status := 0, ret_val := 0, serverID := fun _ => id }), .deliver]

/-- Three servers are forwarded, of which one goes before its reply comes. -/
theorem agreement_two_brokers :
    let es := treeWithTwoBrokers ++
      [.request 1 (.registerMasterInterfaceEx 2
          [⟨1, 0, 9, ⟨500001, 2001⟩, ⟨[65], 1, 0⟩⟩, ⟨1, 0, 9, ⟨500002, 2001⟩, ⟨[66], 1, 0⟩⟩]),
        .request 2 (.registerMasterInterfaceEx 1 [⟨1, 0, 8, ⟨500003, 2002⟩, ⟨[67], 1, 0⟩⟩]),
        .request 1 (.unregisterInterface ⟨500002, 2001⟩), .worker .pop,
        .worker (.finish { status := 0, ret_val := 0,
                           serverID := fun i => ⟨UInt32.ofNat (500002 - i), 2001⟩ }),
        .deliver] ++ masterReplies ⟨500003, 2002⟩
    let s := Run.run (step treeConfig) {} es
    s.broker.mConnectedServers.entries.map (·.masterID) = [⟨500003, 2002⟩, ⟨500001, 2001⟩] ∧
      s.broker.mQueue.map (·.arg) = [.unregisterInterface ⟨500002, 2001⟩] ∧
      Agrees s ∧ Run.Along (step treeConfig) (TakesBack treeConfig) {} es :=
  ⟨by decide +kernel, by decide +kernel, agreement_of_along treeConfig _ (by decide +kernel)⟩

/-- Two brokers forward a server each, with one local ID. -/
def twoServersOneLocalID : List Event :=
  treeWithTwoBrokers ++
    [.request 1 (.registerMasterInterfaceEx 1 [⟨1, 0, 9, ⟨500001, 2001⟩, ⟨[65], 1, 0⟩⟩]),
      .request 2 (.registerMasterInterfaceEx 1 [⟨1, 0, 8, ⟨500001, 2002⟩, ⟨[66], 1, 0⟩⟩])]

/-- The reply to the first batch is written into the entry of the second one.  When the server
of the first is gone by then, nothing is unregistered. -/
theorem not_agreement_one_local_id :
    let s := Run.run (step treeConfig) {}
      (twoServersOneLocalID ++ masterReplies ⟨500001, 2001⟩)
    let s' := Run.run (step treeConfig) {}
      (twoServersOneLocalID ++ .closed 1 :: (masterReplies ⟨500001, 2001⟩).take 2)
    ¬ Agrees s ∧ ¬ TakesBack treeConfig s' .deliver := by
  intro s s'
  constructor
  · intro h
    revert h
    unfold Agrees
    decide +kernel
  · intro h
    obtain ⟨js, hqueue, hmem⟩ := h (by decide +kernel)
      (⟨1, 0, 9, ⟨500001, 2001⟩, ⟨[65], 1, 0⟩⟩, ⟨500001, 2001⟩) (by decide +kernel)
      (by decide +kernel)
    have hsent : (⟨0, none, .unregisterInterface ⟨500001, 2001⟩⟩ : Job) ∈
        (s'.broker.step treeConfig .deliver).mQueue :=
      hqueue ▸ List.mem_append_right _ hmem
    revert hsent
    decide +kernel

end Forwarded

end Dsi
