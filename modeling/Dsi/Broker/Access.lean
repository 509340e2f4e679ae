import Dsi.Broker.AttachExtended

/-!
# Dsi.Broker.Access

Who learns the channel of a server that was registered for a group.  Brokers form a
tree: a slave forwards the servers in its table to its master, and asks its master
for the servers it does not have.  The channel of a server registered for a group
is meant for callers at the broker where it was registered whose user is root or a
member of the group.

The records of `REGISTER_MASTER_INTERFACE_EX` have no group, and
`GET_SERVER_INFORMATION` does not look at it.  Apart from these two ways the group
is kept.
-/

namespace Dsi

open Sequence

/-! ## Channels -/

/-- The channel that a response returns. -/
def Response.channel? (r : Response) : Option SFNDChannelInfo :=
  match r.body with
  | .connInfo info => some info.channel
  | .attachExtended (some info) _ => some info.channel
  | .serverInfo info => some info.channel
  | _ => none

/-- The interface that a request asks for. -/
def Request.description? : Request → Option InterfaceDescription
  | .attachInterface d | .attachInterfaceExtended _ d _ | .getServerInformation d => some d
  | _ => none

/-- The interface that a job asks the master for. -/
def JobArg.description? : JobArg → Option InterfaceDescription
  | .attachInterface d | .attachInterfaceExtended _ d | .getServerInformation d => some d
  | _ => none

/-- The channel that a result of the master brings. -/
def JobArg.channel? (res : JobResult) (arg : JobArg) : Option SFNDChannelInfo :=
  if res.status = 0 ∧ res.ret_val ≤ 0 then
    match arg with
    | .attachInterface _ | .attachInterfaceExtended .. => some res.connInfo.channel
    | .getServerInformation _ => some res.serverInfo.channel
    | _ => none
  else none

/-- The answer to a connection that an output is. -/
def Output.answer? : Output → Option (Nat × Response)
  | .response c r | .deferredResponse c r => some (c, r)
  | _ => none

/-- What a request registers: a channel, for the group `grpid` or for everybody. -/
structure Offer where
  grpid : Int32
  name : CString
  pid : UInt32
  chid : Int32
  deriving DecidableEq, Repr

/-- The offer that an entry of the server table stands for. -/
def ServerListEntry.offer (e : ServerListEntry) : Offer :=
  ⟨e.grpid, e.ifDescription.name, e.pid, e.chid⟩

/-- What the history says about channels: who may learn the channel of the interface
with this name.  `published` was registered for everybody, `restricted` at this
broker for a group. -/
structure Channels where
  published : CString → UInt32 → Int32 → Prop
  restricted : Int32 → CString → UInt32 → Int32 → Prop

/-- The history has this offer. -/
def Channels.Has (C : Channels) (o : Offer) : Prop :=
  if o.grpid = SB_UNKNOWN_GROUP_ID then C.published o.name o.pid o.chid
  else C.restricted o.grpid o.name o.pid o.chid

/-- `NodeAddressTranslator` may put another address in the place of the loopback
address. -/
structure Channels.Lawful (C : Channels) : Prop where
  published : ∀ {name chid}, C.published name SB_LOCAL_IP_ADDRESS chid →
    ∀ pid, C.published name pid chid
  restricted : ∀ {g name chid}, C.restricted g name SB_LOCAL_IP_ADDRESS chid →
    ∀ pid, C.restricted g name pid chid

namespace Channels.Lawful

variable {C : Channels} (hC : C.Lawful) (ctx : SocketConnectionContext) {name : CString}
  {pid : UInt32} {chid : Int32}

include hC

/-- What is published is published under its translated process ID. -/
theorem published_translateRemote (h : C.published name pid chid) :
    C.published name (ctx.translateRemote name pid) chid := by
  unfold SocketConnectionContext.translateRemote
  split
  · next hpid => exact hC.published (hpid.2.1 ▸ h) _
  · exact h

/-- So it is for a client on this node. -/
theorem published_translateLocal (h : C.published name pid chid) :
    C.published name (ctx.translateLocal name pid) chid := by
  unfold SocketConnectionContext.translateLocal
  split
  · next hpid => exact hC.published (hpid.2.1 ▸ h) _
  · exact h

/-- What is restricted to a group stays restricted to it. -/
theorem restricted_translateLocal {g : Int32} (h : C.restricted g name pid chid) :
    C.restricted g name (ctx.translateLocal name pid) chid := by
  unfold SocketConnectionContext.translateLocal
  split
  · next hpid => exact hC.restricted (hpid.2.1 ▸ h) _
  · exact h

end Channels.Lawful

namespace Broker

/-- The table holds no other channels than `C` says, and only published ones are on
their way to the master. -/
structure KeepsGroups (C : Channels) (b : Broker) : Prop where
  entries : ∀ e ∈ b.mConnectedServers.entries, C.Has e.offer
  jobs : ∀ j ∈ b.registerJobs, ∀ records, j.arg = .registerMasterInterfaceEx records →
    ∀ r ∈ records, C.published r.ifDescription.name r.pid r.chid

/-- `registerInterfacesMaster` finds no entry with a group to forward. -/
def withholds (cfg : Config) (b : Broker) : Bool :=
  !b.isMasterConnected cfg ||
    b.mConnectedServers.entries.all (fun e =>
      e.grpid == SB_UNKNOWN_GROUP_ID || !registerEligible cfg e)

/-- With the master connected, only entries of no group are sent there. -/
theorem withholds_iff {cfg : Config} {b : Broker} :
    b.withholds cfg = true ↔ (b.isMasterConnected cfg = true →
      ∀ e ∈ b.mConnectedServers.entries, registerEligible cfg e = true →
        e.grpid = SB_UNKNOWN_GROUP_ID) := by
  simp only [withholds, Bool.or_eq_true, Bool.not_eq_true', List.all_eq_true, beq_iff_eq]
  constructor
  · rintro (hnot | hall) hmaster e he helig
    · rw [hmaster] at hnot; cases hnot
    · cases hall e he with
      | inl hgroup => exact hgroup
      | inr hnot => rw [helig] at hnot; cases hnot
  · intro h
    cases hmaster : b.isMasterConnected cfg with
    | false => exact .inl rfl
    | true =>
        refine .inr (fun e he => ?_)
        cases helig : registerEligible cfg e with
        | false => exact .inr rfl
        | true => exact .inl (h hmaster e he helig)

namespace KeepsGroups

variable {cfg : Config} {C : Channels} {b b' : Broker}

/-- The servers and the batches are all that counts. -/
theorem of_cores (h : KeepsGroups C b)
    (hcores : b'.mConnectedServers.cores = b.mConnectedServers.cores)
    (hjobs : b'.registerJobs = b.registerJobs) : KeepsGroups C b' where
  entries e he := by
    have hmem : { e with masterID := noPartyID } ∈ b'.mConnectedServers.cores :=
      List.mem_map.mpr ⟨e, he, rfl⟩
    rw [hcores] at hmem
    obtain ⟨e', he', hsame⟩ := List.mem_map.mp hmem
    have hhas : C.Has { e' with masterID := noPartyID }.offer := h.entries e' he'
    rw [hsame] at hhas
    exact hhas
  jobs := by rw [hjobs]; exact h.jobs

/-- A quiet change keeps the groups. -/
theorem quiet (h : KeepsGroups C b) (hq : Quiet b b') : KeepsGroups C b' :=
  h.of_cores (by rw [hq.servers]) hq.registerJobs

/-- Only published channels are put into a batch. -/
theorem registerInterfacesMaster (h : KeepsGroups C b) (hw : b.withholds cfg = true) :
    KeepsGroups C (b.registerInterfacesMaster cfg) := by
  rw [registerInterfacesMaster_eq]
  split
  · next hmaster =>
    have hsame : KeepsGroups C { b with
        mConnectedServers := b.mConnectedServers.mapMasterID
          (fun e => if registerEligible cfg e then pendingMasterID else e.masterID) } :=
      h.of_cores (ServerList.cores_mapMasterID _ _) rfl
    refine ⟨hsame.entries, ?_⟩
    intro j hj records harg r hr
    simp only [registerJobs, jobsInFlight, ← List.append_assoc, List.filter_append] at hj
    cases List.mem_append.mp hj with
    | inl hold =>
        refine h.jobs j ?_ records harg r hr
        simpa only [registerJobs, jobsInFlight, List.filter_append] using hold
    | inr hnew =>
        obtain ⟨batch, hbatch, rfl⟩ := List.mem_map.mp (List.mem_filter.mp hnew).1
        obtain rfl := JobArg.registerMasterInterfaceEx.inj harg
        have hmem := List.mem_flatten.mpr ⟨batch, hbatch, hr⟩
        rw [flatten_batches, List.nil_append] at hmem
        obtain ⟨e, he, rfl⟩ := List.mem_map.mp hmem
        obtain ⟨he, helig⟩ := List.mem_filter.mp he
        have hgroup : e.offer.grpid = SB_UNKNOWN_GROUP_ID :=
          withholds_iff.mp hw hmaster e he helig
        have hhas := h.entries e he
        rw [Channels.Has, if_pos hgroup] at hhas
        exact hhas
  · exact h

/-- Only a new entry or a registration at the master can publish. -/
theorem prim (h : KeepsGroups C b) {l : Label} (hp : Prim cfg l b b') (hadd : l ≠ .addEntry)
    (hmaster : l ≠ .masterID) : KeepsGroups C b' := by
  cases hp with
  | quiet hq => exact h.quiet hq
  | addEntry => exact absurd rfl hadd
  | removeServer _ id =>
      refine ⟨fun e he => h.entries e ?_, h.jobs⟩
      exact (ServerList.remove_sublist id _).subset he
  | registerMaster => exact absurd rfl hmaster
  | setMasterID => exact absurd rfl hmaster
  | clients => exact h.of_cores rfl rfl
  | create _ k ctx pulse _ =>
      refine h.of_cores (by rw [servers_addNotification]) ?_
      obtain ⟨a, p, coid, hadd | hadd⟩ := addNotification_cases cfg k ctx pulse _ b
      · rw [hadd]; cases k <;> rfl
      · rw [hadd]; rfl
  | skip => exact h.of_cores rfl rfl
  | sweep => exact h.of_cores (by rw [servers_sweep]) (by rw [registerJobs_sweep])
  | addPool => exact h.of_cores rfl rfl
  | attach _ _ k => cases k <;> exact h.of_cores rfl rfl
  | modifyPool => exact h.of_cores rfl rfl
  | storeMaster _ k => cases k <;> exact h.of_cores rfl rfl
  | forward =>
      obtain ⟨l, pools, next, js, hb, _, hjs⟩ := forward_cases cfg b
      rw [hb]
      refine h.of_cores rfl ?_
      have hnone : js.filter isRegisterJob = [] := by
        rw [List.filter_eq_nil_iff]
        intro j hj
        simp [hjs j hj]
      simp only [registerJobs, jobsInFlight, List.filter_append, hnone, List.append_nil]

/-- So can only sequences with them. -/
theorem prims (h : KeepsGroups C b) {L : List Label} (hp : Prims cfg L b b')
    (hadd : .addEntry ∉ L) (hmaster : .masterID ∉ L) : KeepsGroups C b' :=
  hp.preserves (fun _ hl _ _ hprim hb =>
    hb.prim hprim (fun he => hadd (he ▸ hl)) (fun he => hmaster (he ▸ hl))) h

/-- A new entry keeps the group of its offer. -/
theorem addEntry (h : KeepsGroups C b) (c : Nat) {e : ServerListEntry}
    (he : C.Has e.offer) : KeepsGroups C (b.addEntry cfg c e) where
  entries e' he' := by
    rw [servers_addEntry] at he'
    cases ServerList.mem_add.mp he' with
    | inl hnew => exact hnew ▸ he
    | inr hold => exact h.entries e' hold
  jobs := by
    have hjobs : (b.addEntry cfg c e).registerJobs = b.registerJobs := by
      simp only [Broker.addEntry, triggerDescription, triggerAllDescription, registerJobs_sweep]
      rfl
    rw [hjobs]
    exact h.jobs

/-- The replies of the master bring no channels into the table. -/
theorem jobReply (h : KeepsGroups C b) (hattach : b.mPendingAttachExtendedJobs = []) (job : Job)
    (res : JobResult) : KeepsGroups C (b.jobReply cfg job res).2 := by
  have hpool {b : Broker} (h : KeepsGroups C b) (poolID id : UInt32) :
      KeepsGroups C (b.storePoolNotification cfg poolID id) := by
    unfold storePoolNotification
    split
    · exact h.of_cores rfl rfl
    · exact h.quiet (quiet_evalMaster cfg rfl b)
  have hnotification (k : NotificationKind) (id masterID : UInt32) :
      KeepsGroups C (b.storeMasterNotification cfg k id masterID) := by
    unfold storeMasterNotification
    split
    · cases k <;> exact h.of_cores rfl rfl
    · exact h.quiet (quiet_evalMaster cfg rfl b)
  unfold Broker.jobReply
  split
  · exact h.quiet (quiet_modifyData _ _ b)
  · rw [handleJobFinishedAttachExtended_of_empty cfg job res hattach]
    exact h
  · split
    · exact h.of_cores rfl rfl
    · exact h
  · refine List.foldlRecOn _ _ h ?_
    intro b hb r _
    unfold finishAvailableRecord
    split
    · exact hb
    · exact hpool hb _ _
  · exact hpool h _ _
  · exact hnotification _ _ _
  · exact hnotification _ _ _
  · exact hnotification _ _ _
  · refine List.foldlRecOn _ _ h ?_
    intro b hb id _
    unfold finishRegisterRecord
    split
    · split
      · exact hb
      · exact hb.of_cores (ServerList.cores_setMasterID _ _ _) rfl
    · unfold unregisterInterfaceMaster
      split
      · exact hb.quiet (quiet_eval rfl b)
      · exact hb
  · exact h
  · exact h
  · exact h
  · exact h
  · exact h

/-- More may be published. -/
theorem mono (h : KeepsGroups C b) {C' : Channels}
    (hpublished : ∀ name pid chid, C.published name pid chid → C'.published name pid chid)
    (hrestricted : ∀ g name pid chid, C.restricted g name pid chid →
      C'.restricted g name pid chid) : KeepsGroups C' b where
  entries e he := by
    have hhas := h.entries e he
    unfold Channels.Has at hhas ⊢
    split at hhas
    · next hgroup => rw [if_pos hgroup]; exact hpublished _ _ _ hhas
    · next hgroup => rw [if_neg hgroup]; exact hrestricted _ _ _ _ hhas
  jobs j hj records harg r hr := hpublished _ _ _ (h.jobs j hj records harg r hr)

/-- Fewer jobs are under way. -/
theorem of_subset (h : KeepsGroups C b)
    (hservers : b'.mConnectedServers = b.mConnectedServers)
    (hjobs : ∀ j ∈ b'.jobsInFlight, j ∈ b.jobsInFlight) : KeepsGroups C b' where
  entries := by rw [hservers]; exact h.entries
  jobs j hj := by
    obtain ⟨hmem, hreg⟩ := List.mem_filter.mp hj
    exact h.jobs j (List.mem_filter.mpr ⟨hjobs j hmem, hreg⟩)

end KeepsGroups

/-! ## Registering -/

/-- The offers that a registering request brings into the table. -/
def offers (cfg : Config) (ctx : SocketConnectionContext) (b : Broker) : Request → List Offer
  | .registerInterface d pid chid =>
      if check d && ctx.isLocal && (b.mConnectedServers.findName d.name).isNone then
        [⟨SB_UNKNOWN_GROUP_ID, d.name, pid, chid⟩]
      else []
  | .registerInterfaceEx ifCount pid chid records =>
      ((records.take ifCount.toInt.toNat).filter (fun d =>
        (b.mConnectedServers.findName d.name).isNone)).map (fun d =>
          ⟨SB_UNKNOWN_GROUP_ID, d.name, pid, chid⟩)
  | .registerInterfaceGroupID d pid chid grpid =>
      if check d && ctx.isLocal && (b.mConnectedServers.findName d.name).isNone then
        [⟨grpid, d.name, pid, chid⟩]
      else []
  | .registerMasterInterfaceEx ifCount records =>
      ((records.take ifCount.toInt.toNat).filter (fun r => !b.refusesRecord cfg r)).map (fun r =>
        ⟨SB_UNKNOWN_GROUP_ID, r.ifDescription.name, r.pid, r.chid⟩)
  | _ => []

/-- The condition on a request: `GET_SERVER_INFORMATION` finds nothing that the caller
may not attach to, and a registration finds no entry with a group to forward. -/
def requestGuarded (cfg : Config) (ctx : SocketConnectionContext) (b : Broker) : Request → Bool
  | .getServerInformation d =>
      !check d || (b.mConnectedServers.findDescription d).all (mayAttach cfg ctx)
  | .registerInterface .. | .registerInterfaceEx .. | .registerMasterInterfaceEx .. =>
      b.withholds cfg
  | .registerInterfaceGroupID d _ _ grpid =>
      b.withholds cfg &&
        (grpid == SB_UNKNOWN_GROUP_ID || !b.isMasterConnected cfg || cfg.isLocalService d.name ||
          !cfg.forwardService d.name)
  | _ => true

/-- What a registering request that was read in `b₀` keeps until it forwards. -/
structure Registering (cfg : Config) (C : Channels) (b₀ b : Broker) : Prop where
  kept : KeepsGroups C b
  withheld : b.withholds cfg = true
  names : ∀ name, b.mConnectedServers.findName name = none →
    b₀.mConnectedServers.findName name = none

namespace Registering

variable {cfg : Config} {C : Channels} {b₀ b : Broker}

theorem addEntry (h : Registering cfg C b₀ b) (c : Nat) {e : ServerListEntry} (he : C.Has e.offer)
    (hgroup : b.isMasterConnected cfg = true → registerEligible cfg e = true →
      e.grpid = SB_UNKNOWN_GROUP_ID) : Registering cfg C b₀ (b.addEntry cfg c e) where
  kept := h.kept.addEntry c he
  withheld := by
    have hmaster : (b.addEntry cfg c e).isMasterConnected cfg = b.isMasterConnected cfg := by
      simp only [Broker.addEntry, triggerDescription, triggerAllDescription,
        isMasterConnected_sweep]
      rfl
    rw [withholds_iff, hmaster, servers_addEntry]
    intro hm e' he' helig
    cases ServerList.mem_add.mp he' with
    | inl hnew => exact hnew ▸ hgroup hm (hnew ▸ helig)
    | inr hold => exact withholds_iff.mp h.withheld hm e' hold helig
  names name hnone := by
    refine h.names name ?_
    rw [servers_addEntry] at hnone
    cases hfind : b.mConnectedServers.findName name with
    | none => rfl
    | some e' =>
        obtain ⟨hmem, hname⟩ := ServerList.mem_of_findName hfind
        obtain ⟨e'', he''⟩ := ServerList.findName_of_mem (ServerList.mem_add.mpr (.inr hmem))
        rw [hname, hnone] at he''
        cases he''

/-- A new interface keeps the group of its offer. -/
theorem addInterface (h : Registering cfg C b₀ b) (ctx : SocketConnectionContext)
    (d : InterfaceDescription) (pid : UInt32) (chid : Int32) (isLocal : Bool) (grpid : Int32)
    (hhas : b₀.mConnectedServers.findName d.name = none → C.Has ⟨grpid, d.name, pid, chid⟩)
    (hgroup : b.isMasterConnected cfg = true →
      isLocal = false → cfg.forwardService d.name = true → grpid = SB_UNKNOWN_GROUP_ID) :
    Registering cfg C b₀ (b.addInterface cfg ctx d pid chid isLocal grpid).2 := by
  unfold Broker.addInterface
  split
  · exact h
  · next hname =>
    have hname : b.mConnectedServers.findName d.name = none := by simpa using hname
    have hnext : Registering cfg C b₀ { b with mNextServerID := b.mNextServerID + 1 } :=
      ⟨h.kept.of_cores rfl rfl, h.withheld, h.names⟩
    refine hnext.addEntry _ (hhas (h.names _ hname)) ?_
    intro hm helig
    simp only [registerEligible, Bool.and_eq_true, Bool.not_eq_true'] at helig
    exact hgroup hm helig.1.2 helig.2

/-- What is sent to the master belongs to no group. -/
theorem forward (h : Registering cfg C b₀ b) : KeepsGroups C (b.registerInterfacesMaster cfg) :=
  h.kept.registerInterfacesMaster h.withheld

end Registering

namespace KeepsGroups

variable {cfg : Config} {C : Channels} {b : Broker}

/-- At the start nothing new is registered. -/
theorem registering (h : KeepsGroups C b) (hw : b.withholds cfg = true) : Registering cfg C b b :=
  ⟨h, hw, fun _ => id⟩

/-- A request that offers what it may keeps the groups. -/
theorem dispatch (h : KeepsGroups C b) (hC : C.Lawful) {ctx : SocketConnectionContext}
    {r : Request} (hr : ∀ o ∈ b.offers cfg ctx r, C.Has o)
    (hg : requestGuarded cfg ctx b r = true) : KeepsGroups C (b.dispatch cfg ctx r).1 := by
  have hrest (hL : .addEntry ∉ requestLabels r ∧ .masterID ∉ requestLabels r) :
      KeepsGroups C (b.dispatch cfg ctx r).1 :=
    h.prims (prims_dispatch cfg ctx r b) hL.1 hL.2
  cases r with
  | registerInterface d pid chid =>
      refine handleRegisterInterface_leaves h fun hcheck hlocal => ?_
      exact ((h.registering hg).addInterface ctx d pid chid _ _ (fun hname => hr _ (by
        simp [offers, hcheck, hlocal, hname])) (fun _ _ _ => rfl)).forward
  | registerInterfaceEx n pid chid records =>
      have hloop : Registering cfg C b (recordLoop (registerRecordEx cfg ctx pid chid)
          n.toInt.toNat records b).2 := by
        refine recordLoop_preserves (h.registering hg) ?_
        intro d hd s hs
        refine hs.addInterface ctx d pid chid _ _ ?_ (fun _ _ _ => rfl)
        intro hname
        exact hr _ (List.mem_map.mpr ⟨d, List.mem_filter.mpr ⟨hd, by simp [hname]⟩, rfl⟩)
      exact handleRegisterInterfaceEx_leaves hloop.kept hloop.forward
  | registerInterfaceGroupID d pid chid grpid =>
      obtain ⟨hw, hgroup⟩ := Bool.and_eq_true_iff.mp hg
      refine handleRegisterInterfaceGroupID_leaves h fun hcheck => ?_
      exact ((h.registering hw).addInterface ctx d pid chid _ grpid (fun hname => hr _ (by
        simp only [offers, hcheck, hname, Option.isNone_none, Bool.and_true, if_true,
          List.mem_singleton])) (fun hm hlocal hforward => by
        simpa [hm, hlocal, hforward] using hgroup)).forward
  | registerMasterInterfaceEx n records =>
      have hloop : Registering cfg C b (recordLoop (registerMasterRecord cfg ctx)
          n.toInt.toNat records b).2 := by
        refine recordLoop_preserves (h.registering hg) ?_
        intro r hmem s hs
        unfold registerMasterRecord
        split
        · exact hs
        · next hrefuse =>
          have hnone : s.mConnectedServers.findName r.ifDescription.name = none := by
            simp only [refusesRecord, Bool.or_eq_true, not_or, Bool.not_eq_true] at hrefuse
            simpa using hrefuse.1.2
          have hb : b.refusesRecord cfg r = false := by
            rw [refusesRecord, hs.names _ hnone]
            rw [refusesRecord, hnone] at hrefuse
            simpa using hrefuse
          have hpublished : C.published r.ifDescription.name r.pid r.chid :=
            hr ⟨SB_UNKNOWN_GROUP_ID, r.ifDescription.name, r.pid, r.chid⟩
              (List.mem_map.mpr ⟨r, List.mem_filter.mpr ⟨hmem, by simp [hb]⟩, rfl⟩)
          exact hs.addEntry ctx.mId (hC.published_translateRemote ctx hpublished)
            (fun _ _ => rfl)
      exact handleRegisterMasterInterface_leaves hloop.forward
  | _ => exact hrest (by simp [requestLabels, unregisterLabels, attachLabels, attachExtendedLabels,
      disconnectLabels, availableLabels, detachLabels, clearLabels, listLabels])

end KeepsGroups

/-! ## What a broker answers -/

/-- A local caller whose user is root or a member of the group. -/
def admits (cfg : Config) (g : Int32) (node : UInt32) (uid : Int32) : Bool :=
  (node == SB_LOCAL_NODE_ADDRESS || node == SB_LOCAL_IP_ADDRESS) &&
    (uid == 0 || (uid != SB_UNKNOWN_USER_ID && cfg.isGroupMember g uid))

/-- The channel was published, or it was registered here for a group that the caller
belongs to. -/
def MayLearn (cfg : Config) (C : Channels) (node : UInt32) (uid : Int32) (name : CString)
    (ch : SFNDChannelInfo) : Prop :=
  C.published name ch.pid ch.chid ∨
    ∃ g, C.restricted g name ch.pid ch.chid ∧ admits cfg g node uid = true

section Answers

variable {cfg : Config} {C : Channels} {b : Broker} {ctx : SocketConnectionContext}

/-- The requests that ask for no interface are answered without a channel. -/
theorem channel?_dispatch {r : Request} (hr : r.description? = none) :
    (b.dispatch cfg ctx r).2.bind Response.channel? = none := by
  cases r with
  | attachInterface => cases hr
  | attachInterfaceExtended => cases hr
  | getServerInformation => cases hr
  | masterPing => rfl
  | masterPingId => rfl
  | badFoundationVersion => rfl
  | malformed => rfl
  | registerInterface =>
      simp only [dispatch, handleRegisterInterface]
      repeat' split
      all_goals rfl
  | registerInterfaceEx =>
      simp only [dispatch, handleRegisterInterfaceEx]
      split <;> rfl
  | registerInterfaceGroupID =>
      simp only [dispatch, handleRegisterInterfaceGroupID]
      repeat' split
      all_goals rfl
  | registerMasterInterfaceEx =>
      simp only [dispatch, handleRegisterMasterInterface]
      split <;> rfl
  | unregisterInterface =>
      simp only [dispatch, handleUnregisterInterface]
      repeat' split
      all_goals rfl
  | detachInterface =>
      simp only [dispatch, handleDetachInterface]
      repeat' split
      all_goals rfl
  | notifyServerDisconnect =>
      simp only [dispatch, handleNotifyServerDisconnect]
      split <;> rfl
  | notifyServerAvailable =>
      simp only [dispatch, handleNotifyServerAvailable]
      split <;> rfl
  | notifyServerAvailableEx =>
      simp only [dispatch, handleNotifyServerAvailableEx]
      split <;> rfl
  | notifyClientDetach =>
      simp only [dispatch, handleNotifyClientDetach]
      split <;> rfl
  | clearNotification =>
      simp only [dispatch, handleClearNotification]
      split <;> rfl
  | getInterfaceList =>
      simp only [dispatch, handleGetInterfaceList]
      repeat' split
      all_goals rfl
  | notifyInterfaceListChange =>
      simp only [dispatch, handleNotifyInterfaceListChange]
      split <;> rfl
  | matchInterfaceList =>
      simp only [dispatch, handleMatchInterfaceList]
      repeat' split
      all_goals rfl
  | notifyInterfaceListMatch =>
      simp only [dispatch, handleNotifyInterfaceListMatch]
      split <;> rfl

/-- An attach that goes on to the master gets no channel here. -/
theorem channel?_forwardAttachExtendedToMaster (pulse : SFNDPulseInfo)
    (d : InterfaceDescription) :
    (b.forwardAttachExtendedToMaster cfg ctx pulse d).2.bind Response.channel? = none := by
  unfold forwardAttachExtendedToMaster askMasterExtended
  dsimp only
  repeat' split
  all_goals rfl

/-- What is found has the name that is asked for. -/
theorem mem_of_findDescription {l : ServerList} {d : InterfaceDescription} {e : ServerListEntry}
    (h : l.findDescription d = some e) : e ∈ l.entries ∧ e.ifDescription.name = d.name := by
  unfold ServerList.findDescription at h
  split at h
  · exact absurd h (by simp)
  · next e' hname =>
    split at h
    · exact Option.some.inj h ▸ ServerList.mem_of_findName hname
    · exact absurd h (by simp)

/-- A caller that may attach to an entry may learn its channel. -/
theorem KeepsGroups.mayLearn (h : KeepsGroups C b) (hC : C.Lawful)
    {d : InterfaceDescription} {e : ServerListEntry}
    (hfind : b.mConnectedServers.findDescription d = some e) (hmay : mayAttach cfg ctx e = true)
    (nid : UInt32) :
    MayLearn cfg C ctx.mNodeAddress ctx.mUid d.name
      ⟨nid, ctx.translateLocal e.ifDescription.name e.pid, e.chid⟩ := by
  obtain ⟨hmem, hname⟩ := mem_of_findDescription hfind
  have hhas := h.entries e hmem
  rw [← hname]
  unfold Channels.Has at hhas
  split at hhas
  · exact .inl (hC.published_translateLocal ctx hhas)
  · next hgroup =>
    have hgroup : ¬ e.grpid = SB_UNKNOWN_GROUP_ID := hgroup
    refine .inr ⟨e.grpid, hC.restricted_translateLocal ctx hhas, ?_⟩
    simp only [mayAttach, hgroup, checkAccessPrivileges, decide_false, Bool.false_or,
      Bool.and_eq_true, Bool.or_eq_true, decide_eq_true_eq] at hmay
    simp only [admits, Bool.and_eq_true, Bool.or_eq_true, beq_iff_eq, bne_iff_ne]
    obtain ⟨hlocal, huser, hroot | hmember⟩ := hmay
    · exact ⟨by simpa [SocketConnectionContext.isLocal] using hlocal, .inl hroot⟩
    · exact ⟨by simpa [SocketConnectionContext.isLocal] using hlocal, .inr ⟨huser, hmember⟩⟩

/-- `handleAttachLocalInterface` gives out the channel to callers that may attach. -/
theorem KeepsGroups.mayLearn_attach (h : KeepsGroups C b) (hC : C.Lawful)
    {d : InterfaceDescription} {e : ServerListEntry} {info : SConnectionInfo}
    (hfind : b.mConnectedServers.findDescription d = some e)
    (hinfo : (b.handleAttachLocalInterface cfg ctx e).1 = some info) :
    MayLearn cfg C ctx.mNodeAddress ctx.mUid d.name info.channel := by
  unfold handleAttachLocalInterface at hinfo
  split at hinfo
  · next hmay =>
    have hmay : mayAttach cfg ctx e = true := by simpa [mayAttach] using hmay
    obtain rfl := Option.some.inj hinfo
    exact h.mayLearn hC hfind hmay 0
  · cases hinfo

/-- What is answered at once is for callers that may learn it. -/
theorem KeepsGroups.mayLearn_dispatch (h : KeepsGroups C b) (hC : C.Lawful) {r : Request}
    (hg : requestGuarded cfg ctx b r = true) {resp : Response}
    (hresp : (b.dispatch cfg ctx r).2 = some resp) {ch : SFNDChannelInfo}
    (hch : resp.channel? = some ch) :
    ∃ d, r.description? = some d ∧ MayLearn cfg C ctx.mNodeAddress ctx.mUid d.name ch := by
  cases hd : r.description? with
  | none =>
      have hnone : (b.dispatch cfg ctx r).2.bind Response.channel? = none := channel?_dispatch hd
      rw [hresp, Option.bind_some, hch] at hnone
      cases hnone
  | some d =>
      refine ⟨d, rfl, ?_⟩
      cases r with
      | attachInterface d' =>
          obtain rfl := Option.some.inj hd
          simp only [Broker.dispatch, handleAttachInterface] at hresp
          split at hresp
          · split at hresp
            · next e hfind =>
              split at hresp
              · next info hinfo =>
                obtain rfl := Option.some.inj hresp
                obtain rfl := Option.some.inj hch
                exact h.mayLearn_attach hC hfind hinfo
              · obtain rfl := Option.some.inj hresp
                cases hch
            · split at hresp
              · cases hresp
              · obtain rfl := Option.some.inj hresp
                cases hch
          · obtain rfl := Option.some.inj hresp
            cases hch
      | attachInterfaceExtended pulse d' stackPulse =>
          obtain rfl := Option.some.inj hd
          simp only [Broker.dispatch, handleAttachInterfaceExtended] at hresp
          split at hresp
          · split at hresp
            · next e hfind =>
              split at hresp
              · obtain rfl := Option.some.inj hresp
                cases hch
              · next info hinfo =>
                split at hresp
                · obtain rfl := Option.some.inj hresp
                  obtain rfl := Option.some.inj hch
                  exact h.mayLearn_attach hC hfind hinfo
                · obtain rfl := Option.some.inj hresp
                  cases hch
            · split at hresp
              · split at hresp
                all_goals
                  obtain rfl := Option.some.inj hresp
                  cases hch
              · have hnone : (b.forwardAttachExtendedToMaster cfg ctx pulse d').2.bind
                    Response.channel? = none := channel?_forwardAttachExtendedToMaster pulse d'
                rw [hresp, Option.bind_some, hch] at hnone
                cases hnone
          · obtain rfl := Option.some.inj hresp
            cases hch
      | getServerInformation d' =>
          obtain rfl := Option.some.inj hd
          simp only [Broker.dispatch, handleGetServerInformation] at hresp
          split at hresp
          · next hcheck =>
            split at hresp
            · next e hfind =>
              have hmay : mayAttach cfg ctx e = true := by
                simpa [requestGuarded, hcheck, hfind] using hg
              obtain rfl := Option.some.inj hresp
              obtain rfl := Option.some.inj hch
              exact h.mayLearn hC hfind hmay e.nid
            · split at hresp
              · cases hresp
              · obtain rfl := Option.some.inj hresp
                cases hch
          · obtain rfl := Option.some.inj hresp
            cases hch
      | _ => cases hd

end Answers

/-! ## The answers of a step -/

/-- Between `b` and `b'` these answers are given. -/
def Gives (b b' : Broker) (as : List (Nat × Response)) : Prop :=
  ∃ os, b'.log = b.log ++ os ∧ os.filterMap Output.answer? = as

section Gives

variable {cfg : Config} {b b' b'' : Broker}

/-- What is given on both parts of the way. -/
theorem Gives.trans {as as' : List (Nat × Response)} (h : Gives b b' as) (h' : Gives b' b'' as') :
    Gives b b'' (as ++ as') := by
  obtain ⟨os, hlog, hos⟩ := h
  obtain ⟨os', hlog', hos'⟩ := h'
  refine ⟨os ++ os', by rw [hlog', hlog, List.append_assoc], ?_⟩
  rw [List.filterMap_append, hos, hos']

/-- Nothing is given where nobody is answered. -/
theorem Calm.gives (h : Calm b b') : Gives b b' [] := by
  obtain ⟨os, hlog, hos⟩ := h.log
  refine ⟨os, hlog, ?_⟩
  rw [List.filterMap_eq_nil_iff]
  intro o ho
  have hsilent := hos o ho
  cases o with
  | response => cases hsilent
  | deferredResponse => cases hsilent
  | sent => rfl
  | job => rfl

/-- The log is all that counts. -/
theorem gives_of_log (h : b'.log = b.log) : Gives b b' [] := ⟨[], by rw [h, List.append_nil], rfl⟩

/-- A request is answered with the response of its handler. -/
theorem gives_request (cfg : Config) (c : Nat) (r : Request) (b : Broker) :
    (b.request cfg c r).pipe = b.pipe ∧
    ∃ as, Gives b (b.request cfg c r) as ∧ as.length ≤ 1 ∧ ∀ x ∈ as, ∃ k, b.conns c = some k ∧
      k.deferred = false ∧ b.breaksOff cfg r = false ∧ x.1 = c ∧
        (b.dispatch cfg (k.ctx c) r).2 = some x.2 := by
  unfold Broker.request
  split
  · exact ⟨rfl, [], gives_of_log rfl, by simp, by simp⟩
  · next k hk =>
    split
    · exact ⟨rfl, [], gives_of_log rfl, by simp, by simp⟩
    · next hread =>
      obtain ⟨hdeferred, hbreaks⟩ : k.deferred = false ∧ b.breaksOff cfg r = false := by
        simpa using hread
      have hreplies := replies_dispatch cfg (k.ctx c) r b
      generalize hs : b.dispatch cfg (k.ctx c) r = s at hreplies
      cases hreplies with
      | answered resp hcalm =>
          refine ⟨hcalm.pipe, [(c, resp)], hcalm.gives.trans ⟨[_], rfl, rfl⟩, by simp, ?_⟩
          intro x hx
          obtain rfl := List.mem_singleton.mp hx
          exact ⟨k, hk, hdeferred, hbreaks, rfl, by rw [hs]⟩
      | lost _ hcalm =>
          exact ⟨hcalm.pipe, [], hcalm.gives.trans (gives_of_log rfl), by simp, by simp⟩
      | deferred hasks =>
          obtain ⟨b₁, j, hb₁, _, hcalm⟩ := hasks
          have hask : Gives b₁ (b₁.eval j) [] := ⟨[.job j], rfl, rfl⟩
          refine ⟨hcalm.pipe.trans hb₁.pipe, [], ?_, by simp, by simp⟩
          exact hb₁.gives.trans (hask.trans (hcalm.gives.trans (gives_of_log rfl)))

/-- The answer to a job has no other channel than the one of the result. -/
theorem channel?_jobReply (hattach : b.mPendingAttachExtendedJobs = []) {job : Job}
    {res : JobResult} (hstatus : res.status = 0) {ch : SFNDChannelInfo}
    (hch : (b.jobReply cfg job res).1.response.channel? = some ch) :
    job.arg.channel? res = some ch := by
  have hplain {body : ResponseBody}
      (h : (JobReply.response ⟨0, res.ret_val, body⟩).channel? = some ch) :
      res.ret_val ≤ 0 ∧ Response.channel? ⟨res.ret_val, body⟩ = some ch := by
    rw [JobReply.response, if_neg (by simp)] at h
    split at h
    · next hle => exact ⟨hle, h⟩
    · cases h
  have hempty : (JobReply.response ⟨0, res.ret_val, .empty⟩).channel? ≠ some ch := by
    intro h
    cases (hplain h).2
  have hlist (p : ServerListEntry → Bool) (n : Int32) :
      (b.finishInterfaceList p n res).response.channel? ≠ some ch := by
    unfold finishInterfaceList JobReply.response
    split
    · dsimp only
      split
      · exact (Option.some_ne_none ch).symm
      · split <;> exact (Option.some_ne_none ch).symm
    · exact (Option.some_ne_none ch).symm
  unfold Broker.jobReply at hch
  unfold JobArg.channel?
  split at hch
  · next harg =>
    obtain ⟨hle, hch⟩ := hplain hch
    rw [harg, if_pos ⟨hstatus, hle⟩]
    exact hch
  · rw [handleJobFinishedAttachExtended_of_empty cfg job res hattach] at hch
    cases hch
  · next harg =>
    split at hch
    · obtain ⟨hle, hch⟩ := hplain hch
      rw [harg, if_pos ⟨hstatus, hle⟩]
      exact hch
    · cases hch
  · exact absurd hch hempty
  · exact absurd hch hempty
  · exact absurd hch hempty
  · exact absurd hch hempty
  · exact absurd hch hempty
  · exact absurd hch hempty
  · exact absurd hch (hlist _ _)
  · exact absurd hch (hlist _ _)
  · exact absurd hch hempty
  · exact absurd hch hempty
  · exact absurd hch hempty

/-- The end of a job is answered with its reply, to the connection that waits for it. -/
theorem gives_handleJobFinished (cfg : Config) (hattach : b.mPendingAttachExtendedJobs = [])
    (job : Job) (res : JobResult) : (b.handleJobFinished cfg job res).pipe = b.pipe ∧
    ∃ as, Gives b (b.handleJobFinished cfg job res) as ∧ as.length ≤ 1 ∧ ∀ x ∈ as,
      job.ctx = some x.1 ∧ x.2 = (b.jobResult cfg job res).response := by
  have hfinal (b : Broker) (r : JobReply) : (b.finalize job r).pipe = b.pipe ∧
      ∃ as, Gives b (b.finalize job r) as ∧ as.length ≤ 1 ∧
        ∀ x ∈ as, job.ctx = some x.1 ∧ x.2 = r.response := by
    unfold finalize
    split
    · exact ⟨rfl, [], gives_of_log rfl, by simp, by simp⟩
    · next c hc =>
      split
      · exact ⟨rfl, [], gives_of_log rfl, by simp, by simp⟩
      · exact ⟨rfl, [(c, r.response)], ⟨[_], rfl, rfl⟩, by simp, by simp [hc]⟩
  unfold handleJobFinished jobResult
  split
  · have hcalm := calm_jobReply cfg job res hattach
    obtain ⟨hpipe, as, has, hone, hr⟩ :=
      hfinal (b.jobReply cfg job res).2 (b.jobReply cfg job res).1
    exact ⟨hpipe.trans hcalm.pipe, as, hcalm.gives.trans has, hone, hr⟩
  · exact hfinal b ⟨res.status, res.ret_val, .empty⟩

/-- The answers that a step can give: the response to the request it is, or the reply to
the job whose end it brings. -/
inductive AnswerOf (cfg : Config) (b : Broker) : Event → Nat × Response → Prop where
  | request {c : Nat} {r : Request} {k : Connection} {resp : Response} (hk : b.conns c = some k)
      (hdeferred : k.deferred = false) (hbreaks : b.breaksOff cfg r = false)
      (h : (b.dispatch cfg (k.ctx c) r).2 = some resp) :
      AnswerOf cfg b (.request c r) (c, resp)
  | job {job : Job} {res : JobResult} {rest : List InternalNotification} {c : Nat}
      (hpipe : b.pipe = .jobExecuted job res :: rest)
      (hdelivered : b.delivered = some (.jobExecuted job res)) (hctx : job.ctx = some c) :
      AnswerOf cfg b .deliver
        (c, (({ b with pipe := rest } : Broker).jobResult cfg job res).response)

/-- A step gives at most one answer. -/
theorem gives_step (cfg : Config) (hattach : b.mPendingAttachExtendedJobs = []) (e : Event) :
    ∃ as, Gives b (b.step cfg e) as ∧ as.length ≤ 1 ∧ ∀ x ∈ as, AnswerOf cfg b e x := by
  cases e with
  | connected => exact ⟨[], gives_of_log rfl, by simp, by simp⟩
  | request c r =>
      obtain ⟨_, as, has, hone, hresp⟩ := gives_request cfg c r b
      refine ⟨as, has, hone, ?_⟩
      rintro ⟨c', resp⟩ hx
      obtain ⟨k, hk, hdeferred, hbreaks, rfl, hdispatch⟩ := hresp _ hx
      exact .request hk hdeferred hbreaks hdispatch
  | closed c =>
      refine ⟨[], ?_, by simp, by simp⟩
      simp only [Broker.step, closeConnection]
      split
      · exact gives_of_log rfl
      · split
        · exact gives_of_log rfl
        · exact (calm_clear cfg c b).gives.trans (gives_of_log rfl)
  | pulse p value => exact ⟨[], (calm_dispatchPulse cfg p value b).gives, by simp, by simp⟩
  | deliver =>
      obtain hsame | ⟨m, rest, hpipe, hdelivered, hstep⟩ := deliver_cases cfg b
      · exact ⟨[], gives_of_log (congrArg (·.log) hsame), by simp, by simp⟩
      · have hattach : { b with pipe := rest }.mPendingAttachExtendedJobs = [] := hattach
        have hrest : Gives b { b with pipe := rest } [] := gives_of_log rfl
        rw [hstep]
        cases m with
        | jobExecuted job res =>
            obtain ⟨_, as, has, hone, hres⟩ := gives_handleJobFinished cfg hattach job res
            refine ⟨as, hrest.trans has, hone, ?_⟩
            rintro ⟨c, resp⟩ hx
            obtain ⟨hctx, rfl⟩ := hres _ hx
            exact .job hpipe hdelivered hctx
        | masterConnected =>
            exact ⟨[], hrest.trans (calm_handleMasterConnected cfg _).gives, by simp, by simp⟩
        | masterDisconnected =>
            exact ⟨[], hrest.trans (calm_handleMasterDisconnected cfg hattach).gives, by simp,
              by simp⟩
  | worker w =>
      refine ⟨[], gives_of_log ?_, by simp, by simp⟩
      simp only [Broker.step]
      unfold workerStep disconnectMaster
      split <;> try rfl
      dsimp only
      split <;> rfl

/-- The reply of a job has no other channel than the one of its result. -/
theorem channel?_jobResult (hattach : b.mPendingAttachExtendedJobs = []) {job : Job}
    {res : JobResult} {ch : SFNDChannelInfo}
    (hch : (b.jobResult cfg job res).response.channel? = some ch) :
    job.arg.channel? res = some ch := by
  unfold jobResult at hch
  split at hch
  · next hstatus => exact channel?_jobReply hattach hstatus hch
  · next hstatus =>
    rw [JobReply.response, if_pos hstatus] at hch
    cases hch

end Gives

/-! ## One broker -/

/-- The condition on a step: besides the one on requests, no entry with a group is there
to forward when the master is connected. -/
def stepGuarded (cfg : Config) (b : Broker) : Event → Bool
  | .request c r =>
      match b.conns c with
      | none => true
      | some k => k.deferred || requestGuarded cfg (k.ctx c) b r
  | .deliver =>
      match b.pipe with
      | .masterConnected :: _ => b.withholds cfg
      | _ => true
  | _ => true

/-- The offers that a step brings into the table. -/
def stepOffers (cfg : Config) (b : Broker) : Event → List Offer
  | .request c r =>
      match b.conns c with
      | none => []
      | some k => if k.deferred then [] else b.offers cfg (k.ctx c) r
  | _ => []

/-- The channel that a step gets from the master, with the interface it was asked for. -/
def obtained (b : Broker) : Event → Option (InterfaceDescription × SFNDChannelInfo)
  | .worker (.finish raw) =>
      b.executing.bind (fun job => job.arg.description?.bind (fun d =>
        (job.arg.channel? (execute raw)).map (fun ch => (d, ch))))
  | _ => none

/-- What keeps the channels of groups at this broker: the table, the jobs and the
results of the master have no other channels than `C` says. -/
structure Confined (C : Channels) (b : Broker) : Prop where
  kept : KeepsGroups C b
  attachJobs : b.mPendingAttachExtendedJobs = []
  results : ∀ job res, .jobExecuted job res ∈ b.pipe → ∀ d ch, job.arg.description? = some d →
    job.arg.channel? res = some ch → C.published d.name ch.pid ch.chid

namespace Confined

variable {cfg : Config} {C : Channels} {b : Broker}

theorem mono (h : Confined C b) {C' : Channels}
    (hpublished : ∀ name pid chid, C.published name pid chid → C'.published name pid chid)
    (hrestricted : ∀ g name pid chid, C.restricted g name pid chid →
      C'.restricted g name pid chid) : Confined C' b where
  kept := h.kept.mono hpublished hrestricted
  attachJobs := h.attachJobs
  results job res hmem d ch hd hch := hpublished _ _ _ (h.results job res hmem d ch hd hch)

/-- What is taken out of the pipe keeps the groups, also where the servers are registered. -/
theorem dispatchInternal (h : Confined C b) {m : InternalNotification}
    (hw : m = .masterConnected → b.withholds cfg = true) :
    KeepsGroups C (b.dispatchInternal cfg m) ∧ (b.dispatchInternal cfg m).pipe = b.pipe := by
  cases m with
  | jobExecuted job res =>
      refine ⟨?_, (gives_handleJobFinished cfg h.attachJobs job res).1⟩
      simp only [Broker.dispatchInternal, handleJobFinished]
      split
      · exact (h.kept.jobReply h.attachJobs job res).quiet (quiet_finalize _ _ _)
      · exact h.kept.quiet (quiet_finalize _ _ _)
  | masterConnected =>
      refine ⟨?_, (calm_handleMasterConnected cfg b).pipe⟩
      exact (h.kept.registerInterfacesMaster (hw rfl)).prim (.forward _) (by simp) (by simp)
  | masterDisconnected =>
      refine ⟨?_, (calm_handleMasterDisconnected cfg h.attachJobs).pipe⟩
      have h1 : KeepsGroups C { b with
          mConnectedServers := b.mConnectedServers.clearMasterIDs
          mMasterNotificationPool := []
          mPendingRemoteServersRequests := []
          mPendingAttachExtendedJobs := [] } :=
        h.kept.of_cores (ServerList.cores_mapMasterID _ _) rfl
      simp only [Broker.dispatchInternal, handleMasterDisconnected, triggerNotLocal,
        clearMasterNotification, mapNotifications]
      refine h1.of_cores ?_ ?_
      · change (sweep cfg false .clientDetach _ _).mConnectedServers.cores = _
        rw [servers_sweep, servers_sweep]
      · change (sweep cfg false .clientDetach _ _).registerJobs = _
        rw [registerJobs_sweep, registerJobs_sweep]

/-- The results in the pipe come from the master. -/
theorem results_workerStep (h : Confined C b) {w : WorkerStep}
    (hobtained : ∀ d ch, b.obtained (.worker w) = some (d, ch) →
      C.published d.name ch.pid ch.chid) {job : Job} {res : JobResult}
    (hmem : .jobExecuted job res ∈ (b.workerStep w).pipe) {d : InterfaceDescription}
    {ch : SFNDChannelInfo} (hd : job.arg.description? = some d)
    (hch : job.arg.channel? res = some ch) : C.published d.name ch.pid ch.chid := by
  have hold (hmem : .jobExecuted job res ∈ b.pipe) : C.published d.name ch.pid ch.chid :=
    h.results job res hmem d ch hd hch
  unfold workerStep disconnectMaster at hmem
  split at hmem
  · simp only [List.mem_append, List.mem_singleton, InternalNotification.jobExecuted.injEq] at hmem
    obtain hmem | ⟨_, rfl⟩ := hmem
    · exact hold hmem
    · simp [JobArg.channel?, EIO] at hch
  · exact hold hmem
  · exact hold (by simpa using hmem)
  · exact hold hmem
  · exact hold hmem
  · next raw job' _ hexec =>
    have hpipe : .jobExecuted job res ∈ b.pipe ∨ job = job' ∧ res = execute raw := by
      dsimp only at hmem
      split at hmem <;> simpa using hmem
    obtain hmem | ⟨rfl, rfl⟩ := hpipe
    · exact hold hmem
    · exact hobtained d ch (by simp [obtained, hexec, hd, hch])
  · exact hold (by simpa using hmem)
  · exact hold hmem
  · exact hold (by simpa using hmem)
  · exact hold hmem

/-- A step that meets the condition gives every channel to those who may have it. -/
theorem step (h : Confined C b) (hC : C.Lawful) {e : Event}
    (hoffers : ∀ o ∈ b.stepOffers cfg e, C.Has o)
    (hobtained : ∀ d ch, b.obtained e = some (d, ch) → C.published d.name ch.pid ch.chid)
    (hg : stepGuarded cfg b e = true) : Confined C (b.step cfg e) := by
  have hpeers : Peers (fun _ _ => True) b := ⟨h.attachJobs, fun _ _ _ => trivial⟩
  have hattach : (b.step cfg e).mPendingAttachExtendedJobs = [] :=
    (hpeers.step (fun _ _ _ _ => trivial)).attachJobs
  have hpipe {b' : Broker} (hkept : KeepsGroups C b') (hsub : b'.pipe ⊆ b.pipe)
      (hattach : b'.mPendingAttachExtendedJobs = []) : Confined C b' :=
    ⟨hkept, hattach, fun job res hmem => h.results job res (hsub hmem)⟩
  have hsame {b' : Broker} (hkept : KeepsGroups C b') (heq : b'.pipe = b.pipe)
      (hattach : b'.mPendingAttachExtendedJobs = []) : Confined C b' :=
    hpipe hkept (heq ▸ List.Subset.refl _) hattach
  cases e with
  | connected => exact hsame (h.kept.of_cores rfl rfl) rfl hattach
  | request c r =>
      refine hsame ?_ (gives_request cfg c r b).1 hattach
      cases request_cases cfg c r b with
      | inl hunchanged => simp only [Broker.step, hunchanged]; exact h.kept
      | inr hdone =>
          obtain ⟨k, hk, hdeferred, _, hq⟩ := hdone
          simp only [stepOffers, hk, hdeferred, Bool.false_eq_true, if_false] at hoffers
          simp only [stepGuarded, hk, hdeferred, Bool.false_or] at hg
          exact (h.kept.dispatch hC hoffers hg).quiet hq
  | closed c =>
      refine hsame (h.kept.prims (prims_closeConnection cfg c b) (by simp [closeLabels])
        (by simp [closeLabels])) ?_ hattach
      simp only [Broker.step, closeConnection]
      split
      · rfl
      · split
        · rfl
        · exact (calm_clear cfg c b).pipe
  | pulse p value =>
      exact hsame (h.kept.prims (prims_dispatchPulse cfg p value b) (by simp [pulseLabels])
        (by simp [pulseLabels])) (calm_dispatchPulse cfg p value b).pipe hattach
  | deliver =>
      obtain hunchanged | ⟨m, rest, hm, _, hstep⟩ := deliver_cases cfg b
      · rw [hunchanged]
        exact h
      · rw [hstep] at hattach ⊢
        have h1 : Confined C { b with pipe := rest } := by
          refine hpipe (h.kept.of_subset rfl ?_) (by simp [hm]) h.attachJobs
          intro j hj
          simp only [jobsInFlight, hm, List.filterMap_cons] at hj ⊢
          cases InternalNotification.job? m with
          | none => exact hj
          | some j' => exact List.mem_cons_of_mem _ hj
        obtain ⟨hkept, hrest⟩ := h1.dispatchInternal (m := m) (by
          rintro rfl
          simp only [stepGuarded, hm] at hg
          exact hg)
        exact hpipe hkept (by rw [hrest, hm]; exact List.subset_cons_self _ _) hattach
  | worker w =>
      have hservers : (b.workerStep w).mConnectedServers = b.mConnectedServers := by
        unfold workerStep disconnectMaster
        split <;> try rfl
        dsimp only
        split <;> rfl
      exact ⟨h.kept.of_subset hservers (fun j hj => (jobsInFlight_workerStep b w).mem_iff.mp hj),
        hattach, fun job res hmem d ch hd hch => h.results_workerStep hobtained hmem hd hch⟩

end Confined

/-- The interface that the request or the job of a step asks for. -/
def asksFor (b : Broker) : Event → Option InterfaceDescription
  | .request _ r => r.description?
  | .deliver =>
      match b.pipe with
      | .jobExecuted job _ :: _ => job.arg.description?
      | _ => none
  | _ => none

/-- A channel that was returned to a caller, with the interface it asked for. -/
structure Returned where
  mNodeAddress : UInt32
  mUid : Int32
  ifDescription : Option InterfaceDescription
  channel : SFNDChannelInfo
  deriving DecidableEq, Repr

/-- The channels that a step returns. -/
def returned (cfg : Config) (b : Broker) (e : Event) : List Returned :=
  (((b.step cfg e).log.drop b.log.length).filterMap Output.answer?).filterMap (fun x =>
    (b.conns x.1).bind (fun k =>
      x.2.channel?.map (fun ch => ⟨k.mNodeAddress, k.mUid, b.asksFor e, ch⟩)))

/-- What a step returns is for callers that may learn it. -/
theorem Confined.mayLearn_returned {cfg : Config} {C : Channels} {b : Broker} (h : Confined C b)
    (hC : C.Lawful) {e : Event} (hg : stepGuarded cfg b e = true) {x : Returned}
    (hx : x ∈ b.returned cfg e) :
    ∃ d, x.ifDescription = some d ∧ MayLearn cfg C x.mNodeAddress x.mUid d.name x.channel := by
  obtain ⟨as, ⟨os, hlog, hos⟩, _, has⟩ := gives_step cfg h.attachJobs e
  rw [returned, hlog, List.drop_left, hos] at hx
  obtain ⟨a, ha, hax⟩ := List.mem_filterMap.mp hx
  obtain ⟨k, hk, hax⟩ := Option.bind_eq_some_iff.mp hax
  obtain ⟨ch, hch, rfl⟩ := Option.map_eq_some_iff.mp hax
  cases has a ha with
  | request hk' hdeferred _ hdispatch =>
      rw [hk', Option.some.injEq] at hk
      subst hk
      simp only [stepGuarded, hk', hdeferred, Bool.false_or] at hg
      exact h.kept.mayLearn_dispatch hC hg hdispatch hch
  | @job job res rest c hpipe _ hctx =>
      have hattach : { b with pipe := rest }.mPendingAttachExtendedJobs = [] := h.attachJobs
      have hch : job.arg.channel? res = some ch := channel?_jobResult hattach hch
      obtain ⟨d, hd⟩ : ∃ d, job.arg.description? = some d := by
        unfold JobArg.channel? at hch
        split at hch
        · split at hch
          · next harg => exact ⟨_, by rw [harg]; rfl⟩
          · next harg => exact ⟨_, by rw [harg]; rfl⟩
          · next harg => exact ⟨_, by rw [harg]; rfl⟩
          · cases hch
        · cases hch
      refine ⟨d, by simp [asksFor, hpipe, hd], .inl ?_⟩
      exact h.results job res (by simp [hpipe]) d ch hd hch

end Broker

end Dsi
