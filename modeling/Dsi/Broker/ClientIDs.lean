import Dsi.Broker.Access
import Dsi.Broker.Admission

/-!
# Dsi.Broker.ClientIDs

The client IDs that one broker assigns.  `mNextClientID` counts the clients, and every
attach that succeeds here takes its next value; the extended ID comes from the server
that was found, or in tree mode from the broker.  So what the client IDs of several
brokers share is decided by the extended IDs in their server tables.
-/

namespace Dsi

open Sequence

/-- What the answer to a successful attach says about the connection. -/
def Response.attached? : Response → Option SConnectionInfo
  | ⟨0, .connInfo info⟩ => some info
  | ⟨0, .attachExtended (some info) _⟩ => some info
  | _ => none

/-- The ID that the end of an attach at the master lets through. -/
def InternalNotification.attached? : InternalNotification → Option SPartyID
  | .jobExecuted job res =>
      match job.arg with
      | .attachInterface _ =>
          if res.status = 0 ∧ res.ret_val = 0 then some res.connInfo.clientID else none
      | _ => none
  | .masterConnected | .masterDisconnected => none

/-- An attach that failed on the way lets no ID through. -/
theorem InternalNotification.attached?_of_status {job : Job} {res : JobResult}
    (h : res.status ≠ 0) : (jobExecuted job res).attached? = none := by
  simp only [attached?]
  split
  · exact if_neg (fun hboth => h hboth.1)
  · rfl

namespace Broker

variable {cfg : Config} {b b' b'' : Broker}

/-! ## The extended IDs of the server table -/

/-- Every entry of `b'` is one of `b` or has an extended ID that satisfies `P`. -/
def NewIDs (P : UInt32 → Prop) (b b' : Broker) : Prop :=
  ∀ e ∈ b'.mConnectedServers.cores, e ∈ b.mConnectedServers.cores ∨ P e.partyID.extendedID

section

variable {P : UInt32 → Prop}

theorem NewIDs.refl (b : Broker) : NewIDs P b b := fun _ he => Or.inl he

/-- The IDs of the servers are all that counts. -/
theorem NewIDs.of_cores (h : NewIDs P b b')
    (hcores : b''.mConnectedServers.cores = b'.mConnectedServers.cores) : NewIDs P b b'' := by
  intro e he
  exact h e (hcores ▸ he)

/-- Only a new entry brings an ID. -/
theorem NewIDs.prim {l : Label} (h : NewIDs P b b') (hp : Prim cfg l b' b'')
    (hl : l ≠ .addEntry) : NewIDs P b b'' := by
  cases hp.serversLoss hl with
  | same hcores => exact h.of_cores hcores
  | removed id hremove =>
      intro e he
      refine h e (List.Sublist.subset ?_ he)
      rw [hremove]
      exact (ServerList.remove_sublist id _).map _

/-- So do only sequences with one. -/
theorem NewIDs.prims {L : List Label} (h : NewIDs P b b') (hp : Prims cfg L b' b'')
    (hL : .addEntry ∉ L) : NewIDs P b b'' :=
  hp.preserves (fun _ hl _ _ hprim hb => NewIDs.prim hb hprim (fun he => hL (he ▸ hl))) h

/-- A new entry brings its own. -/
theorem NewIDs.addEntry (h : NewIDs P b b') (c : Nat) {e : ServerListEntry}
    (he : P e.partyID.extendedID) : NewIDs P b (b'.addEntry cfg c e) := by
  intro x hx
  rw [servers_addEntry, ServerList.mem_cores_add] at hx
  rcases hx with rfl | hx
  · exact Or.inr he
  · exact h x hx

/-- A new interface has the extended ID of the broker. -/
theorem NewIDs.addInterface (h : NewIDs P b b') (hP : P cfg.mExtendedID)
    (ctx : SocketConnectionContext) (d : InterfaceDescription) (pid : UInt32) (chid : Int32)
    (isLocal : Bool) (grpid : Int32) :
    NewIDs P b (b'.addInterface cfg ctx d pid chid isLocal grpid).2 := by
  unfold Broker.addInterface
  split
  · exact h
  · have hnext : NewIDs P b { b' with mNextServerID := b'.mNextServerID + 1 } := h
    exact hnext.addEntry ctx.mId hP

/-- A registration at the master brings none. -/
theorem NewIDs.registerInterfacesMaster (h : NewIDs P b b') (cfg : Config) :
    NewIDs P b (b'.registerInterfacesMaster cfg) :=
  h.prim (.registerMaster b' : Prim cfg .masterID b' _) (by simp)

/-- The extended ID that the master gives a slave that has none. -/
theorem extendedID_masterEntry (ctx : SocketConnectionContext) (r : SFNDInterfaceDescriptionEx) :
    (masterEntry ctx r).partyID.extendedID =
      if r.serverID.extendedID = 0 then UInt32.ofNat (1000 + ctx.mId)
      else r.serverID.extendedID := rfl

/-- A registration gives the servers of this broker its extended ID, and those of a slave
one that is not 0, unless 1000 plus the number of the connection is 0. -/
theorem newIDs_dispatch (hP : P cfg.mExtendedID) (ctx : SocketConnectionContext) {r : Request}
    (hslave : fromSlave r = true → (∀ x, x ≠ 0 → P x) ∧ P (UInt32.ofNat (1000 + ctx.mId))) :
    NewIDs P b (b.dispatch cfg ctx r).1 := by
  have hstart : NewIDs P b b := .refl b
  have hprims := prims_dispatch cfg ctx r b
  cases r with
  | registerInterface d pid chid =>
      refine handleRegisterInterface_leaves hstart fun _ _ => ?_
      exact (hstart.addInterface hP ctx d pid chid _ _).registerInterfacesMaster cfg
  | registerInterfaceGroupID d pid chid grpid =>
      refine handleRegisterInterfaceGroupID_leaves hstart fun _ => ?_
      exact (hstart.addInterface hP ctx d pid chid _ grpid).registerInterfacesMaster cfg
  | registerInterfaceEx n pid chid rs =>
      have h1 : NewIDs P b
          (recordLoop (registerRecordEx cfg ctx pid chid) n.toInt.toNat rs b).2 := by
        refine recordLoop_preserves (I := NewIDs P b) hstart ?_
        intro d _ s hs
        exact hs.addInterface hP ctx d pid chid _ _
      exact handleRegisterInterfaceEx_leaves h1 (h1.registerInterfacesMaster cfg)
  | registerMasterInterfaceEx n rs =>
      obtain ⟨hsent, hmade⟩ := hslave rfl
      have h1 : NewIDs P b (recordLoop (registerMasterRecord cfg ctx) n.toInt.toNat rs b).2 := by
        refine recordLoop_preserves (I := NewIDs P b) hstart ?_
        intro x _ s hs
        unfold registerMasterRecord
        split
        · exact hs
        · refine hs.addEntry ctx.mId ?_
          rw [extendedID_masterEntry]
          split
          · exact hmade
          · next hne => exact hsent _ hne
      exact handleRegisterMasterInterface_leaves (h1.registerInterfacesMaster cfg)
  | _ =>
      refine hstart.prims hprims ?_
      simp [requestLabels, unregisterLabels, attachLabels, attachExtendedLabels, detachLabels,
        clearLabels, listLabels, disconnectLabels, availableLabels]

/-- The connection over which the event registers servers of a slave. -/
def slaveRegisters : Event → Option Nat
  | .request c r => if fromSlave r then some c else none
  | _ => none

/-- A step brings the IDs of the broker and those of its slaves. -/
theorem newIDs_step (hP : P cfg.mExtendedID) (hattach : b.mPendingAttachExtendedJobs = [])
    {e : Event} (hslave : ∀ c ∈ slaveRegisters e, (b.conns c).isSome = true →
      (∀ x, x ≠ 0 → P x) ∧ P (UInt32.ofNat (1000 + c))) : NewIDs P b (b.step cfg e) := by
  have hquiet (he : fromConnection e = false) : NewIDs P b (b.step cfg e) :=
    (NewIDs.refl b).of_cores (cores_step cfg hattach he)
  cases e with
  | request c r =>
      rcases request_cases cfg c r b with hsame | ⟨k, hk, _, _, hq⟩
      · exact (NewIDs.refl b).of_cores (congrArg (·.mConnectedServers.cores) hsame)
      · have hdispatch : NewIDs P b (b.dispatch cfg (k.ctx c) r).1 :=
          newIDs_dispatch hP (k.ctx c)
            (fun hr => hslave c (by simp [slaveRegisters, hr]) (by simp [hk]))
        exact hdispatch.of_cores (congrArg ServerList.cores hq.servers)
  | closed c => exact (NewIDs.refl b).prims (prims_closeConnection cfg c b) (by simp [closeLabels])
  | connected => exact hquiet rfl
  | pulse => exact hquiet rfl
  | deliver => exact hquiet rfl
  | worker => exact hquiet rfl

end

/-! ## The counter of the clients -/

/-- Only a client takes a client ID. -/
theorem Prim.nextClientID {l : Label} (h : Prim cfg l b b') (hl : l ≠ .clients) :
    b'.mNextClientID = b.mNextClientID := by
  have hsweep (b : Broker) (once : Bool) (k : NotificationKind)
      (act : Broker → Notification → Action) :
      (b.sweep cfg once k act).mNextClientID = b.mNextClientID := by
    cases k <;> exact (frame_sweepLoop cfg once act _ b).nextClientID
  cases h with
  | quiet hq => exact hq.nextClientID
  | addEntry =>
      simp only [Broker.addEntry, triggerDescription, triggerAllDescription, hsweep]
      rfl
  | registerMaster =>
      rw [registerInterfacesMaster_eq]
      split <;> rfl
  | clients => exact absurd rfl hl
  | create _ k ctx pulse =>
      obtain ⟨a, p, coid, h | h⟩ := addNotification_cases cfg k ctx pulse _ b
      · rw [h]; cases k <;> rfl
      · rw [h]; rfl
  | sweep => exact hsweep _ _ _ _
  | attach _ _ k => cases k <;> rfl
  | storeMaster _ k => cases k <;> rfl
  | forward =>
      obtain ⟨l, pools, next, js, hb, _⟩ := forward_cases cfg b
      rw [hb]
  | removeServer => rfl
  | setMasterID => rfl
  | skip => rfl
  | addPool => rfl
  | modifyPool => rfl

/-- So do only sequences with one. -/
theorem Prims.nextClientID {L : List Label} (h : Prims cfg L b b') (hL : .clients ∉ L) :
    b'.mNextClientID = b.mNextClientID := by
  refine h.preserves (I := fun b' => b'.mNextClientID = b.mNextClientID) ?_ rfl
  intro l hl b₁ b₂ hprim hb
  exact (hprim.nextClientID (fun he => hL (he ▸ hl))).trans hb

/-- An unregistration at the master takes none. -/
theorem nextClientID_unregisterInterfaceMaster (cfg : Config) (masterID : SPartyID) (b : Broker) :
    (b.unregisterInterfaceMaster cfg masterID).mNextClientID = b.mNextClientID :=
  (prims_unregisterInterfaceMaster cfg masterID b).nextClientID (by simp)

/-- Clients that go with their server give no ID back. -/
theorem nextClientID_handleUnregisterInterface (cfg : Config) (ctx : SocketConnectionContext)
    (serverID : SPartyID) (b : Broker) :
    (b.handleUnregisterInterface cfg ctx serverID).1.mNextClientID = b.mNextClientID := by
  unfold handleUnregisterInterface
  split
  · dsimp only
    split
    · rfl
    · simp only [respond]
      have hlist (b : Broker) : (b.triggerAll cfg .serverListChange).mNextClientID =
          b.mNextClientID := (prim_listChange cfg false _ b).nextClientID (by simp)
      have htrigger (b : Broker) : (b.trigger cfg .serverDisconnect serverID).mNextClientID =
          b.mNextClientID := (prim_trigger cfg _ serverID b).nextClientID (by simp)
      have hdrop (b : Broker) : (b.dropServer serverID).mNextClientID = b.mNextClientID := rfl
      rw [hlist, hdrop, nextClientID_unregisterInterfaceMaster, htrigger]
      rfl
  · rfl

/-- Nor does a client that is detached. -/
theorem nextClientID_handleDetachInterface (cfg : Config) (ctx : SocketConnectionContext)
    (clientID : SPartyID) (b : Broker) :
    (b.handleDetachInterface cfg ctx clientID).1.mNextClientID = b.mNextClientID := by
  unfold handleDetachInterface
  split
  · exact (prim_trigger cfg .clientDetach clientID b).nextClientID (by simp)
  · split <;> rfl

/-- Nor do those of a connection that closes. -/
theorem nextClientID_clear (cfg : Config) (c : Nat) (b : Broker) :
    (b.clear cfg c).mNextClientID = b.mNextClientID := by
  have hserver (b : Broker) (id : SPartyID) :
      (b.clearServer cfg id).mNextClientID = b.mNextClientID := by
    unfold clearServer
    split
    · rfl
    · exact nextClientID_unregisterInterfaceMaster cfg _ b
  have hclient (b : Broker) (id : SPartyID) :
      (b.clearClient cfg id).mNextClientID = b.mNextClientID := by
    unfold clearClient evalMaster
    dsimp only
    split <;> rfl
  have hfold (f : Broker → SPartyID → Broker)
      (hf : ∀ b id, (f b id).mNextClientID = b.mNextClientID) (l : List SPartyID) (b : Broker) :
      (l.foldl f b).mNextClientID = b.mNextClientID := by
    induction l generalizing b with
    | nil => rfl
    | cons id l ih => exact (ih (f b id)).trans (hf b id)
  have hsweep (once : Bool) (k : NotificationKind) (act : Broker → Notification → Action)
      (b : Broker) : (b.sweep cfg once k act).mNextClientID = b.mNextClientID := by
    cases k <;> exact (frame_sweepLoop cfg once act _ b).nextClientID
  simp only [clear, triggerList, removeNotificationsOf, triggerAll]
  split
  · rw [hsweep, hsweep, hsweep, hsweep, hsweep, hsweep, hsweep, hfold _ hclient, hfold _ hserver]
  · rw [hsweep, hsweep, hsweep, hsweep, hsweep, hsweep, hfold _ hclient, hfold _ hserver]

/-- The result of a handler: either an attach succeeded here, and its client has the next
ID for a server of the table, or the answer is about no attach. -/
inductive Assigns (cfg : Config) (b : Broker) : Broker × Option Response → Prop where
  | here {b' : Broker} {resp : Response} {info : SConnectionInfo} {e : ServerListEntry}
      (he : e ∈ b.mConnectedServers.entries) (hinfo : resp.attached? = some info)
      (hserver : info.serverID = e.partyID)
      (hclient : info.clientID = b.nextClientIDFor cfg e.partyID)
      (hnext : b'.mNextClientID = b.mNextClientID + 1) : Assigns cfg b (b', some resp)
  | other {b' : Broker} {resp : Option Response} (hnext : b.mNextClientID ≤ b'.mNextClientID)
      (hnone : resp.bind Response.attached? = none) : Assigns cfg b (b', resp)

namespace Assigns

variable {ctx : SocketConnectionContext}

/-- What attaches nobody takes no ID. -/
theorem of_eq {s : Broker × Option Response} (hnext : s.1.mNextClientID = b.mNextClientID)
    (hnone : s.2.bind Response.attached? = none) : Assigns cfg b s :=
  .other (Nat.le_of_eq hnext.symm) hnone

/-- An attach that succeeds here takes the next ID; one that is refused changes nothing. -/
theorem handleAttachLocalInterface (ctx : SocketConnectionContext) (e : ServerListEntry)
    (b : Broker) :
    let s := b.handleAttachLocalInterface cfg ctx e
    (∀ info, s.1 = some info → info.serverID = e.partyID ∧
        info.clientID = b.nextClientIDFor cfg e.partyID ∧
        s.2.mNextClientID = b.mNextClientID + 1) ∧
      (s.1 = none → s.2 = b) := by
  unfold Broker.handleAttachLocalInterface addClient
  split
  · refine ⟨fun info hinfo => ?_, nofun⟩
    obtain rfl := Option.some.inj hinfo
    dsimp only
    split <;> exact ⟨rfl, rfl, rfl⟩
  · exact ⟨nofun, fun _ => rfl⟩

/-- An attach that is answered here answers the ID that it took. -/
theorem handleAttachInterface (ctx : SocketConnectionContext) (d : InterfaceDescription)
    (b : Broker) : Assigns cfg b (b.handleAttachInterface cfg ctx d) := by
  unfold Broker.handleAttachInterface
  split
  · split
    · next e hfind =>
      obtain ⟨hsome, hnone⟩ := handleAttachLocalInterface ctx e b
      generalize b.handleAttachLocalInterface cfg ctx e = s at hsome hnone
      obtain ⟨info, b'⟩ := s
      cases info with
      | none => exact of_eq (congrArg (·.mNextClientID) (hnone rfl)) rfl
      | some info =>
          obtain ⟨hserver, hclient, hnext⟩ := hsome info rfl
          exact .here (mem_of_findDescription hfind).1 rfl hserver hclient hnext
    · split
      · exact of_eq rfl rfl
      · exact of_eq rfl rfl
  · exact of_eq rfl rfl

/-- So does an extended attach. -/
theorem handleAttachInterfaceExtended (ctx : SocketConnectionContext) (pulse : SFNDPulseInfo)
    (d : InterfaceDescription) (stackPulse : SFNDPulseInfo) (b : Broker) :
    Assigns cfg b (b.handleAttachInterfaceExtended cfg ctx pulse d stackPulse) := by
  unfold Broker.handleAttachInterfaceExtended
  split
  · split
    · next e hfind =>
      obtain ⟨hsome, hnone⟩ := handleAttachLocalInterface ctx e b
      generalize b.handleAttachLocalInterface cfg ctx e = s at hsome hnone
      obtain ⟨info, b'⟩ := s
      cases info with
      | none => exact of_eq (congrArg (·.mNextClientID) (hnone rfl)) rfl
      | some info =>
          obtain ⟨hserver, hclient, hnext⟩ := hsome info rfl
          have hwatch := ((addsPool_notifyServerDisconnect cfg ctx e.partyID stackPulse b').prims
            (M := .addPool :: disconnectLabels) (fun _ => List.mem_cons_of_mem _)
            List.mem_cons_self).nextClientID (by simp [disconnectLabels])
          dsimp only
          split
          · exact .here (mem_of_findDescription hfind).1 rfl hserver hclient (hwatch.trans hnext)
          · refine .other ?_ rfl
            have hstep : b'.mNextClientID = b.mNextClientID + 1 := hnext
            exact Nat.le_of_succ_le (Nat.le_of_eq (hwatch.trans hstep).symm)
    · split
      · have hset := (prims_notifyServerAvailable cfg ctx pulse d b).nextClientID
          (by simp [availableLabels])
        dsimp only
        split
        · exact of_eq hset rfl
        · next s _ => cases s <;> exact of_eq hset rfl
      · have hask := ((addsPool_forwardAttachExtendedToMaster cfg ctx pulse d b).prims
          (M := .addPool :: forwardAttachLabels) (fun _ => List.mem_cons_of_mem _)
          List.mem_cons_self).nextClientID (by simp [forwardAttachLabels])
        refine of_eq hask ?_
        unfold forwardAttachExtendedToMaster askMasterExtended
        dsimp only
        repeat' split
        all_goals rfl
  · exact of_eq rfl rfl

/-- What has no channel has no client. -/
theorem attached?_of_channel? {resp : Response} (h : resp.channel? = none) :
    resp.attached? = none := by
  unfold Response.attached?
  split
  · cases h
  · cases h
  · rfl

/-- Every request that answers a client's ID took it. -/
theorem dispatch (cfg : Config) (ctx : SocketConnectionContext) (r : Request) (b : Broker) :
    Assigns cfg b (b.dispatch cfg ctx r) := by
  have hplain (hr : r.description? = none)
      (hnext : (b.dispatch cfg ctx r).1.mNextClientID = b.mNextClientID) :
      Assigns cfg b (b.dispatch cfg ctx r) := by
    refine of_eq hnext ?_
    have hchannel : (b.dispatch cfg ctx r).2.bind Response.channel? = none := channel?_dispatch hr
    cases hresp : (b.dispatch cfg ctx r).2 with
    | none => rfl
    | some resp =>
        rw [hresp] at hchannel
        exact attached?_of_channel? hchannel
  have hprims := prims_dispatch cfg ctx r b
  cases r with
  | attachInterface d => exact handleAttachInterface ctx d b
  | attachInterfaceExtended pulse d stackPulse =>
      exact handleAttachInterfaceExtended ctx pulse d stackPulse b
  | getServerInformation d =>
      refine of_eq (hprims.nextClientID (by simp [requestLabels])) ?_
      simp only [Broker.dispatch, handleGetServerInformation]
      repeat' split
      all_goals rfl
  | unregisterInterface id =>
      exact hplain rfl (nextClientID_handleUnregisterInterface cfg ctx id b)
  | detachInterface id => exact hplain rfl (nextClientID_handleDetachInterface cfg ctx id b)
  | _ =>
      refine hplain rfl (hprims.nextClientID ?_)
      simp [requestLabels, registerLabels, detachLabels, clearLabels, listLabels,
        disconnectLabels, availableLabels]

end Assigns

/-! ## The answers of a step -/

/-- The answers that a step gives, each to a connection. -/
def answers (cfg : Config) (b : Broker) (e : Event) : List (Nat × Response) :=
  ((b.step cfg e).log.drop b.log.length).filterMap Output.answer?

/-- A step gives at most one answer. -/
theorem answers_cases (cfg : Config) (hattach : b.mPendingAttachExtendedJobs = []) (e : Event) :
    (b.answers cfg e).length ≤ 1 ∧ ∀ x ∈ b.answers cfg e, AnswerOf cfg b e x := by
  obtain ⟨as, ⟨os, hlog, hos⟩, hone, has⟩ := gives_step cfg hattach e
  have hanswers : b.answers cfg e = as := by rw [answers, hlog, List.drop_left, hos]
  rw [hanswers]
  exact ⟨hone, has⟩

/-- A client's ID in a reply is in its connection info. -/
theorem JobReply.of_attached? {r : JobReply} {info : SConnectionInfo}
    (h : r.response.attached? = some info) : r.status = 0 ∧ r.ret_val = 0 ∧
      (r.body = .connInfo info ∨ ∃ id, r.body = .attachExtended (some info) id) := by
  obtain ⟨status, ret, body⟩ := r
  unfold JobReply.response at h
  split at h
  · cases h
  · next hstatus =>
    refine ⟨Decidable.not_not.mp hstatus, ?_⟩
    dsimp only at h ⊢
    split at h
    · unfold Response.attached? at h
      split at h
      · next heq =>
        obtain ⟨rfl, rfl⟩ := Response.mk.inj heq
        obtain rfl := Option.some.inj h
        exact ⟨rfl, .inl rfl⟩
      · next heq =>
        obtain ⟨rfl, rfl⟩ := Response.mk.inj heq
        obtain rfl := Option.some.inj h
        exact ⟨rfl, .inr ⟨_, rfl⟩⟩
      · cases h
    · unfold Response.attached? at h
      split at h
      · next heq => cases (Response.mk.inj heq).2
      · next heq => cases (Response.mk.inj heq).2
      · cases h

/-- An answer about an attach at the master hands on the connection that came back. -/
theorem attached?_jobResult (hattach : b.mPendingAttachExtendedJobs = []) {job : Job}
    {res : JobResult} {info : SConnectionInfo}
    (h : (b.jobResult cfg job res).response.attached? = some info) :
    (InternalNotification.jobExecuted job res).attached? = some info.clientID := by
  obtain ⟨hstatus, hret, hbody⟩ := JobReply.of_attached? h
  unfold jobResult at hstatus hret hbody
  split at hbody
  · next hok =>
    rw [if_pos hok] at hret
    unfold jobReply at hbody hret
    unfold InternalNotification.attached?
    split at hbody
    · next harg =>
      rw [harg] at hret
      have hinfo : res.connInfo = info := by simpa using hbody
      have hzero : res.ret_val = 0 := hret
      simp [harg, hok, hzero, hinfo]
    · rw [handleJobFinishedAttachExtended_of_empty cfg job res hattach] at hbody
      simp at hbody
    · split at hbody <;> simp at hbody
    · simp at hbody
    · simp at hbody
    · simp at hbody
    · simp at hbody
    · simp at hbody
    · simp at hbody
    · unfold finishInterfaceList at hbody
      split at hbody <;> simp at hbody
    · unfold finishInterfaceList at hbody
      split at hbody <;> simp at hbody
    · simp at hbody
    · simp at hbody
    · simp at hbody
  · simp at hbody

/-- The main thread takes no ID for what it finds in the pipe. -/
theorem nextClientID_dispatchInternal (hattach : b.mPendingAttachExtendedJobs = [])
    (n : InternalNotification) : (b.dispatchInternal cfg n).mNextClientID = b.mNextClientID := by
  have hsweep (once : Bool) (k : NotificationKind) (act : Broker → Notification → Action)
      (b : Broker) : (b.sweep cfg once k act).mNextClientID = b.mNextClientID := by
    cases k <;> exact (frame_sweepLoop cfg once act _ b).nextClientID
  cases n with
  | jobExecuted job res =>
      exact (prims_handleJobFinished cfg job res hattach).nextClientID (by simp [replyLabels])
  | masterConnected =>
      have hregister : Prim cfg .masterID b (b.registerInterfacesMaster cfg) := .registerMaster b
      have hforward : Prim cfg .forward (b.registerInterfacesMaster cfg)
          (b.handleMasterConnected cfg) := .forward _
      exact (hforward.nextClientID (by simp)).trans (hregister.nextClientID (by simp))
  | masterDisconnected =>
      simp only [dispatchInternal, handleMasterDisconnected, triggerNotLocal,
        clearMasterNotification, mapNotifications]
      show (sweep cfg false .clientDetach _ _).mNextClientID = _
      rw [hsweep, hsweep]

/-- Nor does the worker. -/
theorem nextClientID_workerStep (b : Broker) (w : WorkerStep) :
    (b.workerStep w).mNextClientID = b.mNextClientID := by
  unfold workerStep disconnectMaster
  split <;> try rfl
  dsimp only
  split <;> rfl

/-- Only a request moves the counter, and never back. -/
theorem nextClientID_step (hattach : b.mPendingAttachExtendedJobs = []) {e : Event}
    (he : ∀ c r, e ≠ .request c r) : (b.step cfg e).mNextClientID = b.mNextClientID := by
  cases e with
  | request c r => exact absurd rfl (he c r)
  | connected => rfl
  | closed c =>
      simp only [step, closeConnection]
      split
      · rfl
      · split
        · rfl
        · exact nextClientID_clear cfg c b
  | pulse p value =>
      exact (prims_dispatchPulse cfg p value b).nextClientID (by simp [pulseLabels])
  | deliver =>
      obtain hsame | ⟨n, rest, _, _, hstep⟩ := deliver_cases cfg b
      · rw [hsame]
      · rw [hstep]
        exact nextClientID_dispatchInternal (b := { b with pipe := rest }) hattach n
  | worker w => exact nextClientID_workerStep b w

/-- Around its handler a request takes none. -/
theorem nextClientID_request (cfg : Config) {c : Nat} (r : Request) {k : Connection}
    (hk : b.conns c = some k) (hdeferred : k.deferred = false)
    (hbreaks : b.breaksOff cfg r = false) :
    (b.request cfg c r).mNextClientID = (b.dispatch cfg (k.ctx c) r).1.mNextClientID :=
  (quiet_request cfg r hk hdeferred hbreaks).nextClientID

/-- The counter of the clients never runs backwards. -/
theorem nextClientID_le_step (hattach : b.mPendingAttachExtendedJobs = []) (e : Event) :
    b.mNextClientID ≤ (b.step cfg e).mNextClientID := by
  by_cases he : ∀ c r, e ≠ .request c r
  · exact Nat.le_of_eq (nextClientID_step hattach he).symm
  · obtain ⟨c, he⟩ := not_forall.mp he
    obtain ⟨r, he⟩ := not_forall.mp he
    obtain rfl := not_ne_iff.mp he
    rcases request_cases cfg c r b with hsame | ⟨k, hk, hdeferred, hbreaks, _⟩
    · exact Nat.le_of_eq (congrArg (·.mNextClientID) hsame).symm
    · have hassigns := Assigns.dispatch cfg (k.ctx c) r b
      show _ ≤ (b.request cfg c r).mNextClientID
      rw [nextClientID_request cfg r hk hdeferred hbreaks]
      generalize b.dispatch cfg (k.ctx c) r = s at hassigns
      cases hassigns with
      | here _ _ _ _ hnext => exact Nat.le_of_succ_le (Nat.le_of_eq hnext.symm)
      | other hnext => exact hnext

/-! ## Attaches at the master -/

/-- The client IDs on their way from the worker thread to the main thread. -/
def attachIDs (b : Broker) : List SPartyID := b.pipe.filterMap InternalNotification.attached?

/-- The client ID that the worker thread reads from the master in this step. -/
def attachRead (b : Broker) : Event → Option SPartyID
  | .worker (.finish raw) =>
      match b.phase, b.executing with
      | .connected, some job => InternalNotification.attached? (.jobExecuted job (execute raw))
      | _, _ => none
  | _ => none

/-- The client ID that the main thread takes out of the pipe in this step. -/
def attachTaken (b : Broker) : Event → Option SPartyID
  | .deliver => b.delivered.bind InternalNotification.attached?
  | _ => none

/-- What the master answers to an attach is read by the worker. -/
theorem attachIDs_workerStep (b : Broker) (w : WorkerStep) :
    (b.workerStep w).attachIDs = b.attachIDs ++ (b.attachRead (.worker w)).toList := by
  have hfailed (job : Job) : InternalNotification.attached?
      (.jobExecuted job { status := EIO, ret_val := 0 }) = none :=
    InternalNotification.attached?_of_status (by simp [ EIO])
  have hconnected : InternalNotification.attached? .masterConnected = none := rfl
  have hdisconnected : InternalNotification.attached? .masterDisconnected = none := rfl
  cases w with
  | finish raw =>
      cases hphase : b.phase with
      | connected =>
          cases hexec : b.executing with
          | none => simp [workerStep, attachIDs, attachRead, hphase, hexec]
          | some job =>
              simp only [workerStep, attachIDs, attachRead, hphase, hexec, disconnectMaster]
              cases hend : InternalNotification.attached? (.jobExecuted job (execute raw)) <;>
              · split <;> simp [hend, hdisconnected]
      | _ => simp [workerStep, attachIDs, attachRead, hphase]
  | _ =>
      simp only [attachRead, Option.toList_none, List.append_nil]
      unfold attachIDs workerStep disconnectMaster
      split <;>
        simp_all

/-- What is taken out of the pipe puts nothing into it. -/
theorem pipe_dispatchInternal (hattach : b.mPendingAttachExtendedJobs = [])
    (n : InternalNotification) : (b.dispatchInternal cfg n).pipe = b.pipe := by
  cases n with
  | jobExecuted job res => exact (gives_handleJobFinished cfg hattach job res).1
  | masterConnected => exact (calm_handleMasterConnected cfg b).pipe
  | masterDisconnected => exact (calm_handleMasterDisconnected cfg hattach).pipe

/-- What is read of the master's IDs is taken later, once each. -/
theorem attachIDs_step (cfg : Config) (hattach : b.mPendingAttachExtendedJobs = []) (e : Event) :
    (b.attachTaken e).toList ++ (b.step cfg e).attachIDs =
      b.attachIDs ++ (b.attachRead e).toList := by
  have hsame {b' : Broker} (h : b'.pipe = b.pipe) : b'.attachIDs = b.attachIDs := by
    rw [attachIDs, h, attachIDs]
  cases e with
  | connected => simp [attachTaken, attachRead, step, openConnection, attachIDs, setConnection]
  | request c r =>
      have hpipe : (b.step cfg (.request c r)).pipe = b.pipe := (gives_request cfg c r b).1
      simp [attachTaken, attachRead, hsame hpipe]
  | closed c =>
      have hpipe : (b.step cfg (.closed c)).pipe = b.pipe := by
        simp only [step, closeConnection]
        split
        · rfl
        · split
          · rfl
          · exact (calm_clear cfg c b).pipe
      simp [attachTaken, attachRead, hsame hpipe]
  | pulse p value =>
      have hpipe : (b.step cfg (.pulse p value)).pipe = b.pipe :=
        (calm_dispatchPulse cfg p value b).pipe
      simp [attachTaken, attachRead, hsame hpipe]
  | deliver =>
      cases hdelivered : b.delivered with
      | none => simp [attachTaken, attachRead, deliver_of_none cfg hdelivered, hdelivered]
      | some n =>
          obtain ⟨rest, hpipe, hdeliver⟩ := deliver_of_some cfg hdelivered
          have hstep : (b.step cfg .deliver).pipe = rest := by
            rw [hdeliver]
            exact pipe_dispatchInternal (b := { b with pipe := rest }) hattach n
          rw [attachIDs, hstep, attachIDs, hpipe]
          cases hn : InternalNotification.attached? n <;>
            simp [attachTaken, attachRead, hdelivered, hn]
  | worker w =>
      rw [step, attachIDs_workerStep]
      simp [attachTaken]

end Broker

end Dsi
