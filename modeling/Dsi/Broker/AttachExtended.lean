import Dsi.Broker.Answers
import Dsi.Broker.ClientGone

/-!
# Dsi.Broker.AttachExtended

`ATTACH_INTERFACE_EXTENDED` attaches to an interface and watches it at once.  Where
the broker knows the server, or has nobody to ask, the request is meant to be an
attach followed by a notification; where a master is asked, the client is meant to
learn the outcome there.
-/

namespace Dsi

open Sequence

namespace Broker

/-! ## Connections -/

/-- The connections that the acceptors of `ServicebrokerServer` make: credentials come
with a connection over the local socket, whose node is `SB_LOCAL_NODE_ADDRESS`, and
`CredentialsEvent` leaves the user unknown for one over TCP. -/
def accepted : Event → Bool
  | .connected nodeAddress _ uid =>
      nodeAddress == SB_LOCAL_NODE_ADDRESS || uid == SB_UNKNOWN_USER_ID
  | _ => true

/-- Nothing is pending for an extended attach, and `P` holds of the node and the user
of every connection. -/
structure Peers (P : UInt32 → Int32 → Prop) (b : Broker) : Prop where
  attachJobs : b.mPendingAttachExtendedJobs = []
  users : ∀ c k, b.conns c = some k → P k.mNodeAddress k.mUid

namespace Peers

variable {cfg : Config} {P : UInt32 → Int32 → Prop} {b b' : Broker}

theorem calm (h : Peers P b) (hc : Calm b b') : Peers P b' where
  attachJobs := hc.attachJobs.trans h.attachJobs
  users c k' hk' := by
    have hpeer := hc.conns c
    rw [hk'] at hpeer
    obtain ⟨k, hk, hkk⟩ := Option.map_eq_some_iff.mp hpeer.symm
    simp only [peer, Prod.mk.injEq] at hkk
    rw [← hkk.1, ← hkk.2.2.1]
    exact h.users c k hk

theorem setConnection (h : Peers P b) {c : Nat} {k : Option Connection}
    (hk : ∀ k', k = some k' → P k'.mNodeAddress k'.mUid) :
    Peers P (b.setConnection c k) where
  attachJobs := h.attachJobs
  users c' k' hk' := by
    simp only [Broker.setConnection] at hk'
    split at hk'
    · exact hk k' hk'
    · exact h.users c' k' hk'

theorem emit (h : Peers P b) (o : Output) : Peers P (b.emit o) := ⟨h.attachJobs, h.users⟩

theorem request (h : Peers P b) (c : Nat) (r : Request) : Peers P (b.request cfg c r) := by
  unfold Broker.request
  split
  · exact h
  · next k hk =>
    split
    · exact h
    · have hs := replies_dispatch cfg (k.ctx c) r b
      have hdefer {s : Broker} (hs : Peers P s) : Peers P
          (s.setConnection c ((s.conns c).map (fun k => { k with deferred := true }))) := by
        refine hs.setConnection ?_
        intro k' hk'
        obtain ⟨k₀, hk₀, rfl⟩ := Option.map_eq_some_iff.mp hk'
        exact hs.users c k₀ hk₀
      generalize b.dispatch cfg (k.ctx c) r = s at hs
      cases hs with
      | answered resp hcalm => exact (h.calm hcalm).emit _
      | lost _ hcalm => exact hdefer (h.calm hcalm)
      | deferred hasks =>
          obtain ⟨b₁, j, hb₁, _, hcalm⟩ := hasks
          have h₁ := h.calm hb₁
          exact hdefer ((show Peers P (b₁.eval j) from ⟨h₁.attachJobs, h₁.users⟩).calm hcalm)

theorem finalize (h : Peers P b) (job : Job) (r : JobReply) : Peers P (b.finalize job r) := by
  unfold Broker.finalize
  split
  · exact h
  · next c _ =>
    split
    · exact h
    · next k hk =>
      refine (h.setConnection ?_).emit _
      rintro k' ⟨⟩
      exact h.users c k hk

theorem dispatchInternal (h : Peers P b) (m : InternalNotification) :
    Peers P (b.dispatchInternal cfg m) := by
  cases m with
  | jobExecuted job res =>
      simp only [Broker.dispatchInternal, handleJobFinished]
      split
      · exact (h.calm (calm_jobReply cfg job res h.attachJobs)).finalize _ _
      · exact h.finalize _ _
  | masterConnected => exact h.calm (calm_handleMasterConnected cfg b)
  | masterDisconnected => exact h.calm (calm_handleMasterDisconnected cfg h.attachJobs)

theorem step (h : Peers P b) {e : Event}
    (he : ∀ node loc uid, e = .connected node loc uid → P node uid) : Peers P (b.step cfg e) := by
  cases e with
  | connected nodeAddress localAddress uid =>
      have hset := h.setConnection (c := b.nextConnectionId) (k := some
        { mNodeAddress := nodeAddress, mLocalAddress := localAddress, mUid := uid }) (by
          rintro k' ⟨⟩
          exact he _ _ _ rfl)
      exact ⟨hset.attachJobs, hset.users⟩
  | request c r => exact h.request c r
  | closed c =>
      simp only [Broker.step, closeConnection]
      split
      · exact h
      · split
        · exact h
        · exact (h.calm (calm_clear cfg c b)).setConnection (by simp)
  | pulse p value => exact h.calm (calm_dispatchPulse cfg p value b)
  | deliver =>
      obtain hsame | ⟨m, rest, _, _, hstep⟩ := deliver_cases cfg b
      · rw [hsame]
        exact h
      · have h₁ : Peers P { b with pipe := rest } := ⟨h.attachJobs, h.users⟩
        rw [hstep]
        exact h₁.dispatchInternal m
  | worker w =>
      simp only [Broker.step, workerStep, disconnectMaster]
      split <;> try exact ⟨h.attachJobs, h.users⟩
      split <;> exact ⟨h.attachJobs, h.users⟩

end Peers

theorem peers_run {cfg : Config} {P : UInt32 → Int32 → Prop} {es : List Event}
    (h : ∀ node loc uid, .connected node loc uid ∈ es → P node uid) :
    Peers P (Run.run (step cfg) init es) := by
  have hinit : Peers P init := ⟨rfl, by simp [init]⟩
  generalize init = b at hinit
  induction es generalizing b with
  | nil => exact hinit
  | cons e es ih =>
      refine ih (fun node loc uid he => h node loc uid (List.mem_cons_of_mem _ he)) _ ?_
      exact hinit.step (fun node loc uid he => h node loc uid (he ▸ List.mem_cons_self))

theorem attachJobs_run (cfg : Config) (es : List Event) :
    (Run.run (step cfg) init es).mPendingAttachExtendedJobs = [] :=
  (peers_run (P := fun _ _ => True) (fun _ _ _ _ => trivial)).attachJobs

/-- Behind connections that the acceptors made, a user that is known is a local one. -/
theorem users_run {cfg : Config} {es : List Event} (h : ∀ e ∈ es, accepted e = true) {c : Nat}
    {k : Connection} (hk : (Run.run (step cfg) init es).conns c = some k) :
    k.mNodeAddress = SB_LOCAL_NODE_ADDRESS ∨ k.mUid = SB_UNKNOWN_USER_ID := by
  refine (peers_run (P := fun node uid => node = SB_LOCAL_NODE_ADDRESS ∨ uid = SB_UNKNOWN_USER_ID)
    ?_).users c k hk
  intro node loc uid he
  simpa [accepted] using h _ he

/-! ## The outcome at the master -/

/-- Between `b` and `b'` connection `c` gets the late answer `r`. -/
def AnswersLate (c : Nat) (r : Response) (b b' : Broker) : Prop :=
  ∃ os, b'.log = b.log ++ os ∧ .deferredResponse c r ∈ os

/-- The client learns the outcome of its extended attach at the master, under its
notification `id`: if the server is there, the connection information of the master,
and the notification is one on the disconnection of that server; if it is not,
`FNDUnknownInterface`, and the notification still waits for the server. -/
def ReportsOutcome (c : Nat) (id : UInt32) (res : JobResult) (b b' : Broker) : Prop :=
  if res.ret_val = SBStatus.FNDOK.toInt then
    (∃ clientID, AnswersLate c
        ⟨SBStatus.FNDOK.toInt, .attachExtended (some { res.connInfo with clientID := clientID }) id⟩
        b b') ∧
      ∃ n ∈ b'.mServerDisconnectNotifications,
        n.notificationID = id ∧ n.partyID = res.connInfo.serverID
  else
    (∃ info, AnswersLate c ⟨SBStatus.FNDUnknownInterface.toInt, .attachExtended info id⟩ b b') ∧
      ∃ n ∈ b'.mServerConnectNotifications, n.notificationID = id

/-- With nothing pending the reply to an extended attach becomes an error. -/
theorem log_deliver_attachExtended (cfg : Config) {b : Broker}
    (hattach : b.mPendingAttachExtendedJobs = []) {job : Job} {res : JobResult}
    {rest : List InternalNotification} (hpipe : b.pipe = .jobExecuted job res :: rest)
    {pulse : SFNDPulseInfo} {d : InterfaceDescription}
    (harg : job.arg = .attachInterfaceExtended pulse d) (hstatus : res.status = 0) {c : Nat}
    (hctx : job.ctx = some c) :
    ∃ os, (b.step cfg .deliver).log = b.log ++ os ∧
      ∀ r, .deferredResponse c r ∈ os → r = Response.status .FNDInternalError := by
  have hreply : { b with pipe := rest }.jobReply cfg job res =
      (⟨SBStatus.FNDInternalError.toInt, res.ret_val, .empty⟩, { b with pipe := rest }) := by
    rw [jobReply, harg]
    exact handleJobFinishedAttachExtended_of_empty cfg job res hattach
  cases hk : b.conns c with
  | none =>
      have hlost : b.lostContext (.jobExecuted job res) = true := by simp [lostContext, hctx, hk]
      refine ⟨[], ?_, by simp⟩
      simp [Broker.step, hpipe, hlost]
  | some k =>
      have hlost : b.lostContext (.jobExecuted job res) = false := by
        simp [lostContext, hctx, hk]
      simp only [Broker.step, hpipe, hlost, Bool.false_eq_true, if_false, dispatchInternal,
        handleJobFinished, hstatus, if_true, hreply, finalize, hctx, hk]
      refine ⟨[_], rfl, ?_⟩
      intro r hr
      simp only [List.mem_singleton, Output.deferredResponse.injEq] at hr
      rw [hr.2]
      rfl

/-- An error alone reports no outcome. -/
theorem not_reportsOutcome {c : Nat} {b b' : Broker} {os : List Output}
    (hlog : b'.log = b.log ++ os)
    (hos : ∀ r, .deferredResponse c r ∈ os → r = Response.status .FNDInternalError)
    (id : UInt32) (res : JobResult) : ¬ ReportsOutcome c id res b b' := by
  have hnot (code : Int) (info : Option SConnectionInfo) :
      ¬ AnswersLate c ⟨code, .attachExtended info id⟩ b b' := by
    rintro ⟨os', hlog', hmem⟩
    have hsame : os' = os := List.append_cancel_left (hlog'.symm.trans hlog)
    have hr := hos _ (hsame ▸ hmem)
    cases hr
  unfold ReportsOutcome
  split
  · rintro ⟨⟨clientID, hanswer⟩, _⟩
    exact hnot _ _ hanswer
  · rintro ⟨⟨info, hanswer⟩, _⟩
    exact hnot _ _ hanswer

/-- Whatever the master answers to an extended attach, the client never learns it. -/
theorem attachExtended_never_reported (cfg : Config) (es : List Event) {job : Job}
    {res : JobResult} {rest : List InternalNotification}
    (hpipe : (Run.run (step cfg) init es).pipe = .jobExecuted job res :: rest) {c : Nat}
    (hctx : job.ctx = some c) {pulse : SFNDPulseInfo} {d : InterfaceDescription}
    (harg : job.arg = .attachInterfaceExtended pulse d) (hstatus : res.status = 0) (id : UInt32) :
    let b := Run.run (step cfg) init es
    ¬ ReportsOutcome c id res b (b.step cfg .deliver) := by
  intro b
  obtain ⟨os, hlog, hos⟩ := log_deliver_attachExtended cfg (attachJobs_run cfg es) hpipe harg
    hstatus hctx
  exact not_reportsOutcome hlog hos id res

/-- Client 1 attaches to an interface that it has to ask the master for, and the
master answers. -/
def attachAtMaster (reply : JobResult) : List Event :=
  slaveWithTwoClients ++
    [.request 1 (.attachInterfaceExtended ⟨1, 2, 3, 4⟩ ⟨[66], 1, 0⟩ ⟨0, 0, 0, 0⟩), .worker .pop,
      .worker (.finish reply)]

/-- The master has the server, as 500001. -/
def foundAtMaster : JobResult where
  status := 0
  ret_val := 0
  connInfo := ⟨1, 0, ⟨0, 0, 1⟩, ⟨500001, 1000⟩, ⟨100001, 1000⟩⟩
  notificationID := 7

/-- The server at the master is not reported. -/
theorem attachExtended_found_not_reported :
    let b := Run.run (step slaveConfig) init (attachAtMaster foundAtMaster)
    b.waits 1 = true ∧ ¬ ReportsOutcome 1 1 foundAtMaster b (b.step slaveConfig .deliver) :=
  ⟨by decide, attachExtended_never_reported slaveConfig (attachAtMaster foundAtMaster) rfl rfl rfl
    rfl 1⟩

/-- All that client 1 gets is an internal error, with its notification 1 still waiting
for the server that is there. -/
theorem attachExtended_found_internal_error :
    let b := Run.run (step slaveConfig) init (attachAtMaster foundAtMaster)
    let b' := b.step slaveConfig .deliver
    b'.log = b.log ++ [.deferredResponse 1 (Response.status .FNDInternalError)] ∧
      b'.mServerConnectNotifications.map (·.notificationID) = [1] ∧
      b'.mServerDisconnectNotifications = [] ∧ ¬ ReportsOutcome 1 1 foundAtMaster b b' := by
  intro b b'
  have hlog : b'.log = b.log ++ [.deferredResponse 1 (Response.status .FNDInternalError)] := by
    decide
  refine ⟨hlog, by decide, by decide, not_reportsOutcome hlog ?_ 1 foundAtMaster⟩
  intro r hr
  simpa using hr

/-! ## The extended attach without a master -/

/-- `ATTACH_INTERFACE` and, on the server it attached to, `NOTIFY_SERVER_DISCONNECT`;
where there is no such server, `NOTIFY_SERVER_AVAILABLE`, answered with
`FNDUnknownInterface`.  A description that `ATTACH_INTERFACE` refuses is refused. -/
def attachExtendedParts (cfg : Config) (ctx : SocketConnectionContext) (pulse : SFNDPulseInfo)
    (d : InterfaceDescription) (b : Broker) : Broker × Option Response :=
  let attached := b.dispatch cfg ctx (.attachInterface d)
  match attached.2 with
  | some ⟨_, .connInfo info⟩ =>
      let notified := attached.1.dispatch cfg ctx (.notifyServerDisconnect info.serverID pulse)
      match notified.2 with
      | some ⟨_, .notificationID id⟩ => (notified.1, some ⟨0, .attachExtended (some info) id⟩)
      | r => (notified.1, r)
  | r =>
      if r = some (Response.status .FNDBadArgument) then attached
      else
        let notified := attached.1.dispatch cfg ctx (.notifyServerAvailable pulse d)
        match notified.2 with
        | some ⟨_, .notificationID id⟩ =>
            (notified.1, some ⟨SBStatus.FNDUnknownInterface.toInt, .attachExtended none id⟩)
        | r => (notified.1, r)

/-- The extended attach does to the broker and answers what its parts do. -/
def Composes (cfg : Config) (ctx : SocketConnectionContext) (pulse : SFNDPulseInfo)
    (d : InterfaceDescription) (stackPulse : SFNDPulseInfo) (b : Broker) : Prop :=
  b.dispatch cfg ctx (.attachInterfaceExtended pulse d stackPulse) =
    b.attachExtendedParts cfg ctx pulse d

/-- A matching server is registered here that the caller may attach to. -/
def attachesHere (cfg : Config) (ctx : SocketConnectionContext) (d : InterfaceDescription)
    (b : Broker) : Bool :=
  check d && (b.mConnectedServers.findDescription d).any (mayAttach cfg ctx)

section Parts

variable {cfg : Config} {ctx : SocketConnectionContext} {b : Broker}

/-- A new notification is kept if its pulse channel can be opened, or need not be yet. -/
theorem addNotification_eq (k : NotificationKind) (pulse : SFNDPulseInfo)
    (setup : Notification → Notification) :
    b.addNotification cfg k ctx pulse setup =
      if attaches cfg ctx pulse b then
        (UInt32.ofNat (b.sNextNotificationID + 1),
          (b.created (b.attachCalls + ctx.mSlave.toNat)).setNotifications k
            (setup (b.fresh ctx.mNodeAddress pulse ctx.mSlave) :: b.notifications k))
      else (INVALID_NOTIFICATION_ID, b.created (b.attachCalls + ctx.mSlave.toNat)) := by
  unfold addNotification connect doConnect attaches
  cases hslave : ctx.mSlave with
  | false => rfl
  | true =>
      by_cases hattach : cfg.attach b.attachCalls ctx.mNodeAddress pulse.pid pulse.chid = true
      · simp only [hattach, if_true, createNotification, Bool.or_true]
        rfl
      · simp only [hattach, if_true, createNotification, Bool.not_true, Bool.or_self,
          Bool.false_eq_true, if_false]
        rfl

/-- On a server that is registered here a disconnect notification just waits. -/
theorem notifyServerDisconnect_of_there {id : SPartyID}
    (h : (b.mConnectedServers.findID id).isSome = true) (pulse : SFNDPulseInfo) :
    b.handleNotifyServerDisconnectNoResponse cfg ctx id pulse =
      let r := b.addParty cfg .serverDisconnect id ctx pulse
      if r.1 = INVALID_NOTIFICATION_ID then (none, r.2)
      else (some r.1, r.2.modifyData ctx.mId (·.addNotification r.1)) := by
  have hservers := servers_addNotification cfg .serverDisconnect ctx pulse
    (fun n => { n with partyID := id, host := some ctx.mId }) b
  unfold handleNotifyServerDisconnectNoResponse addParty
  dsimp only
  generalize b.addNotification cfg .serverDisconnect ctx pulse _ = r at hservers ⊢
  split
  · rfl
  · have hthere : ((r.2.modifyData ctx.mId (·.addNotification r.1)).mConnectedServers.findID
        id).isNone = false := by
      change (r.2.mConnectedServers.findID id).isNone = false
      rw [hservers]
      simpa using h
    simp [hthere]

/-- The disconnect notifications behind a request for one on a server registered here. -/
theorem disconnects_of_there {id : SPartyID}
    (h : (b.mConnectedServers.findID id).isSome = true) (pulse : SFNDPulseInfo) :
    (b.handleNotifyServerDisconnectNoResponse cfg ctx id pulse).2.mServerDisconnectNotifications =
      if attaches cfg ctx pulse b then
        { b.fresh ctx.mNodeAddress pulse ctx.mSlave with
          partyID := id
          host := some ctx.mId } :: b.mServerDisconnectNotifications
      else b.mServerDisconnectNotifications := by
  have hlist : (b.handleNotifyServerDisconnectNoResponse cfg ctx id
      pulse).2.mServerDisconnectNotifications =
        (b.addParty cfg .serverDisconnect id ctx pulse).2.mServerDisconnectNotifications := by
    rw [notifyServerDisconnect_of_there h]
    dsimp only
    split <;> rfl
  rw [hlist, addParty, addNotification_eq]
  cases attaches cfg ctx pulse b <;> rfl

/-- Two pulses have the same effect if they are the same, or if the pulse channel of
neither can be opened. -/
theorem notifyServerDisconnect_eq_iff {id : SPartyID}
    (h : (b.mConnectedServers.findID id).isSome = true) (pulse pulse' : SFNDPulseInfo) :
    b.handleNotifyServerDisconnectNoResponse cfg ctx id pulse' =
        b.handleNotifyServerDisconnectNoResponse cfg ctx id pulse ↔
      pulse' = pulse ∨ attaches cfg ctx pulse b = false ∧ attaches cfg ctx pulse' b = false := by
  constructor
  · intro heq
    have hlists := congrArg (fun r => r.2.mServerDisconnectNotifications) heq
    simp only [disconnects_of_there h] at hlists
    cases ha : attaches cfg ctx pulse b with
    | true =>
        cases ha' : attaches cfg ctx pulse' b with
        | true =>
            simp only [ha, ha', if_true, List.cons.injEq, Notification.mk.injEq, fresh] at hlists
            exact .inl (by simp_all)
        | false => exact absurd (congrArg List.length hlists) (by simp [ha, ha'])
    | false =>
        cases ha' : attaches cfg ctx pulse' b with
        | true => exact absurd (congrArg List.length hlists) (by simp [ha, ha'])
        | false => exact .inr ⟨rfl, rfl⟩
  · rintro (rfl | ⟨ha, ha'⟩)
    · rfl
    · simp only [notifyServerDisconnect_of_there h, addParty, addNotification_eq, ha, ha']
      rfl

theorem findID_of_findDescription {d : InterfaceDescription} {l : ServerList}
    {e : ServerListEntry} (h : l.findDescription d = some e) :
    (l.findID e.partyID).isSome = true := by
  unfold ServerList.findDescription at h
  split at h
  · exact absurd h (by simp)
  · next e' hname =>
    split at h
    · obtain rfl := Option.some.inj h
      exact ServerList.findID_isSome.mpr ⟨e', (ServerList.mem_of_findName hname).1, rfl⟩
    · exact absurd h (by simp)

/-- A caller that may attach does. -/
theorem attachLocal_of_may {e : ServerListEntry} (h : mayAttach cfg ctx e = true) :
    ∃ info b₁, b.handleAttachLocalInterface cfg ctx e = (some info, b₁) ∧
      info.serverID = e.partyID ∧ b₁.mConnectedServers = b.mConnectedServers ∧
      b₁.attachCalls = b.attachCalls := by
  unfold handleAttachLocalInterface
  rw [if_pos (by simpa [mayAttach] using h)]
  refine ⟨_, _, rfl, rfl, ?_⟩
  unfold addClient
  dsimp only
  split <;> exact ⟨rfl, rfl⟩

theorem attachLocal_of_not_may {e : ServerListEntry} (h : mayAttach cfg ctx e = false) :
    b.handleAttachLocalInterface cfg ctx e = (none, b) := by
  unfold handleAttachLocalInterface
  rw [if_neg (by simpa [mayAttach] using h)]

/-- The answer to an extended attach on a server registered here. -/
def attachExtendedReply (info : SConnectionInfo) (s : Option UInt32 × Broker) :
    Broker × Option Response :=
  match s.1 with
  | some id => s.2.respond (.attachExtended (some info) id)
  | none => s.2.fail .FNDInternalError

theorem attachExtendedReply_inj {info : SConnectionInfo} {s s' : Option UInt32 × Broker} :
    attachExtendedReply info s = attachExtendedReply info s' ↔ s = s' := by
  constructor
  · intro h
    obtain ⟨id, b⟩ := s
    obtain ⟨id', b'⟩ := s'
    have hbroker : b = b' := by
      have hfst := congrArg Prod.fst h
      cases id <;> cases id' <;> exact hfst
    have hid : id = id' := by
      have hsnd := congrArg Prod.snd h
      cases id <;> cases id' <;>
        simp_all [attachExtendedReply, respond, fail, Response.status]
    rw [hbroker, hid]
  · rintro rfl
    rfl

theorem composes_of_attachesHere {pulse stackPulse : SFNDPulseInfo} {d : InterfaceDescription}
    (h : attachesHere cfg ctx d b = true) :
    Composes cfg ctx pulse d stackPulse b ↔
      stackPulse = pulse ∨
        attaches cfg ctx pulse b = false ∧ attaches cfg ctx stackPulse b = false := by
  obtain ⟨hcheck, hany⟩ := Bool.and_eq_true_iff.mp h
  cases hfind : b.mConnectedServers.findDescription d with
  | none => simp [hfind] at hany
  | some e =>
      have hmay : mayAttach cfg ctx e = true := by simpa [hfind] using hany
      obtain ⟨info, b₁, hattach, hid, hservers, hcalls⟩ := attachLocal_of_may (b := b) hmay
      have hthere : (b₁.mConnectedServers.findID e.partyID).isSome = true := by
        rw [hservers]
        exact findID_of_findDescription hfind
      have hwhole : b.dispatch cfg ctx (.attachInterfaceExtended pulse d stackPulse) =
          attachExtendedReply info
            (b₁.handleNotifyServerDisconnectNoResponse cfg ctx e.partyID stackPulse) := by
        simp only [dispatch, handleAttachInterfaceExtended, hcheck, if_true, hfind, hattach]
        rfl
      have hparts : b.attachExtendedParts cfg ctx pulse d = attachExtendedReply info
          (b₁.handleNotifyServerDisconnectNoResponse cfg ctx e.partyID pulse) := by
        simp only [attachExtendedParts, dispatch, handleAttachInterface, hcheck, if_true, hfind,
          hattach, respond, hid, handleNotifyServerDisconnect]
        generalize b₁.handleNotifyServerDisconnectNoResponse cfg ctx e.partyID pulse = s
        obtain ⟨id, b₂⟩ := s
        cases id <;> rfl
      rw [Composes, hwhole, hparts, attachExtendedReply_inj, notifyServerDisconnect_eq_iff hthere,
        attaches, attaches, attaches, attaches, hcalls]

theorem composes_of_not_attachesHere {pulse stackPulse : SFNDPulseInfo}
    {d : InterfaceDescription} (h : attachesHere cfg ctx d b = false)
    (hlocal : forwardsAttach cfg d b = false)
    (huser : ctx.mNodeAddress = SB_LOCAL_NODE_ADDRESS ∨ ctx.mUid = SB_UNKNOWN_USER_ID) :
    Composes cfg ctx pulse d stackPulse b := by
  unfold Composes attachExtendedParts
  simp only [dispatch, handleAttachInterface, handleAttachInterfaceExtended,
    handleNotifyServerAvailable]
  cases hcheck : check d with
  | false => rfl
  | true =>
      simp only [if_true]
      cases hfind : b.mConnectedServers.findDescription d with
      | some e =>
          have hmay : mayAttach cfg ctx e = false := by
            simpa [attachesHere, hcheck, hfind] using h
          -- A user that passes the check on the group is a local one, so that the check fails.
          have hdenied : checkAccessPrivileges cfg ctx e = false := by
            simp only [mayAttach, Bool.or_eq_false_iff, Bool.and_eq_false_iff,
              decide_eq_false_iff_not] at hmay
            obtain ⟨hgroup, hremote | hdenied⟩ := hmay
            · have hnode : ctx.mNodeAddress ≠ SB_LOCAL_NODE_ADDRESS := by
                intro hnode
                simp [SocketConnectionContext.isLocal, hnode] at hremote
              simp [checkAccessPrivileges, hgroup, huser.resolve_left hnode]
            · exact hdenied
          have hnotify : b.handleNotifyServerAvailableNoResponse cfg ctx pulse d =
              (.error .FNDAccessDenied, b) := by
            simp [handleNotifyServerAvailableNoResponse, hfind, hdenied]
          simp only [attachLocal_of_not_may hmay, fail, hnotify]
          rfl
      | none =>
          have hask : (!cfg.isLocalService d.name && cfg.forwardService d.name &&
              b.isMasterConnected cfg) = false := by
            simpa [forwardsAttach, hcheck, hfind] using hlocal
          have hask' : (cfg.isLocalService d.name || !cfg.forwardService d.name ||
              !b.isMasterConnected cfg) = true := by
            revert hask
            cases cfg.isLocalService d.name <;> cases cfg.forwardService d.name <;>
              cases b.isMasterConnected cfg <;> decide
          simp only [hask, hask', if_true, Bool.false_eq_true, if_false, fail]
          generalize b.handleNotifyServerAvailableNoResponse cfg ctx pulse d = r
          obtain ⟨status, b'⟩ := r
          cases status <;> rfl

end Parts

/-- The extended attach without a master is the composition of its parts exactly where
the pulse that it never fills makes no difference: where the caller attaches to no
server, where that pulse happens to be the caller's, or where the pulse channel of
neither can be opened. -/
theorem attachExtended_composes_iff (cfg : Config) (es : List Event)
    (hes : ∀ e ∈ es, accepted e = true) (c : Nat) {k : Connection}
    (hk : (Run.run (step cfg) init es).conns c = some k) (pulse : SFNDPulseInfo)
    {d : InterfaceDescription} (stackPulse : SFNDPulseInfo)
    (hlocal : forwardsAttach cfg d (Run.run (step cfg) init es) = false) :
    let b := Run.run (step cfg) init es
    Composes cfg (k.ctx c) pulse d stackPulse b ↔
      (attachesHere cfg (k.ctx c) d b = true → stackPulse = pulse ∨
        attaches cfg (k.ctx c) pulse b = false ∧ attaches cfg (k.ctx c) stackPulse b = false) := by
  intro b
  cases hhere : attachesHere cfg (k.ctx c) d b with
  | true =>
      rw [composes_of_attachesHere hhere]
      exact ⟨fun h _ => h, fun h => h rfl⟩
  | false =>
      refine iff_of_true ?_ (fun h => absurd h (by simp))
      exact composes_of_not_attachesHere hhere hlocal (users_run hes hk)

/-- Two clients of a slave that has not found its master yet, the first with a server. -/
def serverOfOne : List Event :=
  [.connected 0 0 0, .connected 0 0 0, .request 1 (.registerInterface ⟨[65], 1, 0⟩ 0 1)]

/-- The extended attach to an interface that is not registered. -/
theorem composes_unknown_interface :
    let b := Run.run (step slaveConfig) init serverOfOne
    attachesHere slaveConfig ⟨2, 0, 0, 0, false⟩ ⟨[66], 1, 0⟩ b = false ∧
      Composes slaveConfig ⟨2, 0, 0, 0, false⟩ ⟨1, 2, 3, 4⟩ ⟨[66], 1, 0⟩ ⟨0, 0, 0, 0⟩ b :=
  ⟨by decide, (attachExtended_composes_iff slaveConfig serverOfOne (by decide) 2 rfl ⟨1, 2, 3, 4⟩
    ⟨0, 0, 0, 0⟩ (by decide)).mpr (by decide)⟩

/-- The disconnect notification of client 2 on the server of client 1 has the pulse
that was on the stack, not the one it asked for. -/
theorem not_composes_stack_pulse :
    let b := Run.run (step slaveConfig) init serverOfOne
    let pulses (s : Broker × Option Response) :=
      s.1.mServerDisconnectNotifications.map (·.pulse)
    pulses (b.dispatch slaveConfig ⟨2, 0, 0, 0, false⟩
        (.attachInterfaceExtended ⟨1, 2, 3, 4⟩ ⟨[65], 1, 0⟩ ⟨5, 6, 7, 8⟩)) = [⟨5, 6, 7, 8⟩] ∧
      pulses (b.attachExtendedParts slaveConfig ⟨2, 0, 0, 0, false⟩ ⟨1, 2, 3, 4⟩ ⟨[65], 1, 0⟩) =
        [⟨1, 2, 3, 4⟩] ∧
      ¬ Composes slaveConfig ⟨2, 0, 0, 0, false⟩ ⟨1, 2, 3, 4⟩ ⟨[65], 1, 0⟩ ⟨5, 6, 7, 8⟩ b := by
  intro b pulses
  refine ⟨by decide, by decide, ?_⟩
  intro h
  have hpulses := congrArg pulses h
  revert hpulses
  decide

end Broker

end Dsi
