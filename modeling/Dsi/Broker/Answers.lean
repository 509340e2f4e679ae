import Dsi.Broker.PoolCount

/-!
# Dsi.Broker.Answers

Every request gets one answer.  A handler answers at once, or it defers the answer
and hands a job with the context of the connection to the master; the connection is
not read from until that job is finished and its result sent.  A connection that ends
while it waits leaves its job behind.

Nearly everything a handler does is `Calm`: it answers nobody and asks the master
for nobody.  What remains is the one job of a deferred request, and the invariant
is that an open connection waits exactly as long as one such job is in flight.
-/

namespace Dsi

open Sequence

/-! ## What a connection sees -/

/-- What the history says about the exchange with one connection: an answer at
once, a job that carries its context, or the answer to that job. -/
inductive Mark where
  | answered
  | asked
  | answeredLate
  deriving DecidableEq, Repr

/-- The mark an output leaves in the exchange with connection `c`. -/
def Output.mark? (c : Nat) : Output → Option Mark
  | .response c' _ => if c' = c then some .answered else none
  | .deferredResponse c' _ => if c' = c then some .answeredLate else none
  | .sent .. => none
  | .job j => if j.ctx = some c then some .asked else none

/-- An exchange in which every question is answered once before the next begins.
The argument and the result tell whether an answer is outstanding. -/
def exchange : Bool → List Mark → Option Bool
  | waiting, [] => some waiting
  | false, .answered :: ms => exchange false ms
  | false, .asked :: ms => exchange true ms
  | true, .answeredLate :: ms => exchange false ms
  | _, _ :: _ => none

/-- An exchange in two parts. -/
theorem exchange_append (waiting : Bool) (ms ms' : List Mark) :
    exchange waiting (ms ++ ms') = (exchange waiting ms).bind (exchange · ms') := by
  fun_induction exchange waiting ms with
  | case1 waiting => rfl
  | case2 ms ih => rw [List.cons_append, exchange, ih]
  | case3 ms ih => rw [List.cons_append, exchange, ih]
  | case4 ms ih => rw [List.cons_append, exchange, ih]
  | case5 waiting m ms h₁ h₂ h₃ =>
      cases waiting with
      | false =>
          cases m with
          | answered => exact absurd rfl (h₁ rfl)
          | asked => exact absurd rfl (h₂ rfl)
          | answeredLate => rfl
      | true =>
          cases m with
          | answered => rfl
          | asked => rfl
          | answeredLate => exact absurd rfl (h₃ rfl)

/-- Does the output say nothing to any connection? -/
def Output.silent : Output → Bool
  | .sent .. => true
  | .job j => j.ctx.isNone
  | .response .. | .deferredResponse .. => false

/-- What is silent leaves no mark. -/
theorem Output.mark?_of_silent {o : Output} (h : o.silent = true) (c : Nat) : o.mark? c = none := by
  cases o with
  | sent => rfl
  | job j =>
      have hctx : j.ctx = none := by simpa [silent] using h
      simp [mark?, hctx]
  | response => exact absurd h (by simp [silent])
  | deferredResponse => exact absurd h (by simp [silent])

namespace Broker

/-- The marks of the exchange with a connection. -/
def marks (c : Nat) (b : Broker) : List Mark := b.log.filterMap (Output.mark? c)

/-- Does this connection wait for the answer to its last request? -/
def waits (c : Nat) (b : Broker) : Bool := ((b.conns c).map (·.deferred)).getD false

/-- Only the connection that is set may begin or cease to wait. -/
theorem waits_setConnection (c c' : Nat) (k : Option Connection) (b : Broker) :
    (b.setConnection c k).waits c' =
      if c' = c then (k.map (·.deferred)).getD false else b.waits c' := by
  unfold waits setConnection
  dsimp only
  split <;> rfl

/-- Does the history owe this connection, open or not, an answer? -/
def owed (c : Nat) (b : Broker) : Bool := exchange false (b.marks c) == some true

/-- What an exchange leaves open is what the connection is owed. -/
theorem owed_of_exchange {c : Nat} {b : Broker} {waiting : Bool}
    (h : exchange false (b.marks c) = some waiting) : b.owed c = waiting := by
  cases waiting <;> simp [owed, h]

/-- The jobs in flight that carry the context of this connection. -/
def jobsOf (c : Nat) (b : Broker) : List Job :=
  b.jobsInFlight.filter (fun j => j.ctx = some c)

/-! ## Calm updates -/

/-- What stays of a connection while it is open. -/
def peer (k : Connection) : UInt32 × UInt32 × Int32 × Bool :=
  (k.mNodeAddress, k.mLocalAddress, k.mUid, k.deferred)

/-- `b'` comes from `b` without a word to any connection: no answer and no job that
carries a context. -/
structure Calm (b b' : Broker) : Prop where
  conns : ∀ c, (b'.conns c).map peer = (b.conns c).map peer
  nextConnectionId : b'.nextConnectionId = b.nextConnectionId
  attachJobs : b'.mPendingAttachExtendedJobs = b.mPendingAttachExtendedJobs
  executing : b'.executing = b.executing
  pipe : b'.pipe = b.pipe
  queue : ∃ js, b'.mQueue = b.mQueue ++ js ∧ ∀ j ∈ js, j.ctx = none
  log : ∃ os, b'.log = b.log ++ os ∧ ∀ o ∈ os, o.silent = true

namespace Calm

variable {b b' b'' : Broker}

/-- Changes that the answers do not depend on. -/
theorem of_eq (hconns : b'.conns = b.conns) (hnext : b'.nextConnectionId = b.nextConnectionId)
    (hattach : b'.mPendingAttachExtendedJobs = b.mPendingAttachExtendedJobs)
    (hexecuting : b'.executing = b.executing) (hpipe : b'.pipe = b.pipe)
    (hqueue : b'.mQueue = b.mQueue) (hlog : b'.log = b.log) : Calm b b' where
  conns c := by rw [hconns]
  nextConnectionId := hnext
  attachJobs := hattach
  executing := hexecuting
  pipe := hpipe
  queue := ⟨[], by rw [hqueue, List.append_nil], by simp⟩
  log := ⟨[], by rw [hlog, List.append_nil], by simp⟩

theorem refl (b : Broker) : Calm b b := of_eq rfl rfl rfl rfl rfl rfl rfl

theorem trans (h : Calm b b') (h' : Calm b' b'') : Calm b b'' where
  conns c := (h'.conns c).trans (h.conns c)
  nextConnectionId := h'.nextConnectionId.trans h.nextConnectionId
  attachJobs := h'.attachJobs.trans h.attachJobs
  executing := h'.executing.trans h.executing
  pipe := h'.pipe.trans h.pipe
  queue := by
    obtain ⟨js, hq, hjs⟩ := h.queue
    obtain ⟨js', hq', hjs'⟩ := h'.queue
    refine ⟨js ++ js', by rw [hq', hq, List.append_assoc], ?_⟩
    intro j hj
    exact (List.mem_append.mp hj).elim (hjs j) (hjs' j)
  log := by
    obtain ⟨os, hl, hos⟩ := h.log
    obtain ⟨os', hl', hos'⟩ := h'.log
    refine ⟨os ++ os', by rw [hl', hl, List.append_assoc], ?_⟩
    intro o ho
    exact (List.mem_append.mp ho).elim (hos o) (hos' o)

/-- Nobody begins or ceases to wait. -/
theorem waits (h : Calm b b') (c : Nat) : b'.waits c = b.waits c := by
  have hc := congrArg (Option.map (fun p : UInt32 × UInt32 × Int32 × Bool => p.2.2.2)) (h.conns c)
  simp only [Option.map_map] at hc
  exact congrArg (·.getD false) hc

/-- Nothing is answered and nothing deferred. -/
theorem marks (h : Calm b b') (c : Nat) : b'.marks c = b.marks c := by
  obtain ⟨os, hlog, hos⟩ := h.log
  have hnone : os.filterMap (Output.mark? c) = [] := by
    rw [List.filterMap_eq_nil_iff]
    exact fun o ho => Output.mark?_of_silent (hos o ho) c
  rw [Broker.marks, hlog, List.filterMap_append, hnone, List.append_nil, Broker.marks]

/-- What a connection is owed stays. -/
theorem owed (h : Calm b b') (c : Nat) : b'.owed c = b.owed c := by
  rw [Broker.owed, h.marks, Broker.owed]

/-- The jobs of a connection stay. -/
theorem jobsOf (h : Calm b b') (c : Nat) : b'.jobsOf c = b.jobsOf c := by
  obtain ⟨js, hq, hjs⟩ := h.queue
  have hnone : js.filter (fun j => decide (j.ctx = some c)) = [] := by
    rw [List.filter_eq_nil_iff]
    intro j hj
    simp [hjs j hj]
  simp only [Broker.jobsOf, jobsInFlight, h.pipe, h.executing, hq, List.filter_append, hnone,
    List.append_nil]

end Calm

section Updates

variable (cfg : Config)

/-- A job without a context is nobody's. -/
theorem calm_eval {j : Job} (h : j.ctx = none) (b : Broker) : Calm b (b.eval j) := by
  constructor
  case queue => exact ⟨[j], rfl, by simpa using h⟩
  case log => exact ⟨[.job j], rfl, by simp [Output.silent, h]⟩
  all_goals intros; rfl

/-- Nor are any number of them. -/
theorem calm_foldl_eval {α : Type} {f : α → Job} (h : ∀ x, (f x).ctx = none) (l : List α)
    (b : Broker) : Calm b (l.foldl (fun b x => b.eval (f x)) b) := by
  induction l generalizing b with
  | nil => exact .refl b
  | cons x xs ih => exact (calm_eval (h x) b).trans (ih _)

/-- With or without a master, a job without a context is nobody's. -/
theorem calm_evalMaster {j : Job} (h : j.ctx = none) (b : Broker) :
    Calm b (b.evalMaster cfg j) := by
  unfold evalMaster
  split
  · exact calm_eval h b
  · exact .refl b

/-- A connection that is set without its state of waiting. -/
theorem calm_setConnection (c : Nat) {k : Option Connection} {b : Broker}
    (h : k.map peer = (b.conns c).map peer) : Calm b (b.setConnection c k) := by
  constructor
  case conns =>
    intro c'
    by_cases hc : c' = c
    · subst hc
      simpa [setConnection] using h
    · simp [setConnection, hc]
  case queue => exact ⟨[], (List.append_nil _).symm, by simp⟩
  case log => exact ⟨[], (List.append_nil _).symm, by simp⟩
  all_goals rfl

/-- What a connection owns has nothing to do with what it is owed. -/
theorem calm_modifyData (c : Nat) (f : ClientSpecificData → ClientSpecificData) (b : Broker) :
    Calm b (b.modifyData c f) := by
  refine calm_setConnection c ?_
  rw [Option.map_map]
  rfl

/-- The notification lists answer nobody. -/
theorem calm_setNotifications (k : NotificationKind) (l : List Notification) (b : Broker) :
    Calm b (b.setNotifications k l) := by
  cases k <;> exact .of_eq rfl rfl rfl rfl rfl rfl rfl

/-- A pulse is no answer. -/
theorem calm_send (n : Notification) (b : Broker) : Calm b (b.send cfg n).2 := by
  have hemit (b : Broker) (id code value : UInt32) (ok : Bool) :
      Calm b (b.emit (.sent id code value ok)) := by
    constructor
    case queue => exact ⟨[], (List.append_nil _).symm, by simp⟩
    case log => exact ⟨[_], rfl, by simp [Output.silent]⟩
    all_goals intros; rfl
  have hconnect : Calm b (b.doConnect cfg n).2 := by
    unfold doConnect
    dsimp only
    split <;> exact .of_eq rfl rfl rfl rfl rfl rfl rfl
  unfold send
  dsimp only
  split
  · exact hemit b _ _ _ _
  · exact hconnect.trans (hemit _ _ _ _ _)

/-- A pool that goes is cleared at the master by a job without a context. -/
theorem calm_detachPool (pos : Nat) (b : Broker) : Calm b (b.detachPool cfg pos) := by
  have hpools (b : Broker) (l : NotificationPool) :
      Calm b { b with mMasterNotificationPool := l } := .of_eq rfl rfl rfl rfl rfl rfl rfl
  unfold detachPool
  split
  · exact .refl b
  · dsimp only
    split
    · split
      · exact (hpools b _).trans (calm_evalMaster cfg rfl _)
      · exact hpools b _
    · exact hpools b _

/-- So is the notification at the master. -/
theorem calm_destroy (n : Notification) (b : Broker) : Calm b (b.destroy cfg n) := by
  have hhost : Calm b (b.unhost n) := by
    unfold unhost
    split
    · exact calm_modifyData _ _ b
    · exact .refl b
  refine hhost.trans ?_
  rw [destroy, releaseMaster]
  split
  · split
    · exact calm_detachPool cfg _ _
    · exact .refl _
  · split
    · exact calm_evalMaster cfg rfl _
    · exact .refl _

/-- A sweep sends and destroys. -/
theorem calm_sweepLoop (once : Bool) (act : Broker → Notification → Action)
    (ns : List Notification) (b : Broker) : Calm b (sweepLoop cfg once act ns b).2 := by
  induction ns generalizing b with
  | nil => exact .refl b
  | cons n ns ih =>
      have hsend := calm_send cfg n b
      rw [sweepLoop]
      split
      · exact ih b
      · exact ih b
      · dsimp only
        split
        · exact hsend
        · exact hsend.trans (ih _)
      · have hfire := hsend.trans (calm_destroy cfg (b.send cfg n).1 _)
        dsimp only
        split
        · exact hfire
        · exact hfire.trans (ih _)
      · have hdrop := calm_destroy cfg n b
        dsimp only
        split
        · exact hdrop
        · exact hdrop.trans (ih _)

/-- So it answers nobody, whatever the action. -/
theorem calm_sweep (once : Bool) (k : NotificationKind) (act : Broker → Notification → Action)
    (b : Broker) : Calm b (b.sweep cfg once k act) :=
  (calm_sweepLoop cfg once act _ b).trans (calm_setNotifications k _ _)

/-- A notification that is set is answered by its handler, not here. -/
theorem calm_addNotification (k : NotificationKind) (ctx : SocketConnectionContext)
    (pulse : SFNDPulseInfo) (setup : Notification → Notification) (b : Broker) :
    Calm b (b.addNotification cfg k ctx pulse setup).2 := by
  have hcreated (a : Nat) : Calm b (b.created a) := .of_eq rfl rfl rfl rfl rfl rfl rfl
  obtain ⟨a, p, coid, h | h⟩ := addNotification_cases cfg k ctx pulse setup b
  · rw [h]
    exact (hcreated a).trans (calm_setNotifications k _ _)
  · rw [h]
    exact hcreated a

/-- The registrations at the master carry no context. -/
theorem calm_registerInterfacesMaster (b : Broker) : Calm b (b.registerInterfacesMaster cfg) := by
  unfold registerInterfacesMaster
  split
  · have h : Calm b { b with
        mConnectedServers := b.mConnectedServers.mapMasterID
          (fun e => if registerEligible cfg e then pendingMasterID else e.masterID) } :=
      .of_eq rfl rfl rfl rfl rfl rfl rfl
    exact h.trans (calm_foldl_eval (f := fun batch => ⟨UInt32.ofNat batch.length, none,
      .registerMasterInterfaceEx batch⟩) (fun _ => rfl) _ _)
  · exact .refl b

/-- Nor does an unregistration. -/
theorem calm_unregisterInterfaceMaster (masterID : SPartyID) (b : Broker) :
    Calm b (b.unregisterInterfaceMaster cfg masterID) := by
  unfold unregisterInterfaceMaster
  split
  · exact calm_eval rfl b
  · exact .refl b

/-- Nor do the notifications that are forwarded. -/
theorem calm_forward (b : Broker) : Calm b (b.forwardServerAvailableNotifications cfg) := by
  unfold forwardServerAvailableNotifications
  split
  · have hloop := (forwardLoop_frame cfg b.mServerConnectNotifications b).1
    refine Calm.trans ?_ (calm_foldl_eval (fun _ => rfl) _ _)
    rw [hloop]
    exact .of_eq rfl rfl rfl rfl rfl rfl rfl
  · exact .refl b

theorem calm_addEntry (c : Nat) (e : ServerListEntry) (b : Broker) :
    Calm b (b.addEntry cfg c e) := by
  have h : Calm b { b with mConnectedServers := b.mConnectedServers.add e } :=
    .of_eq rfl rfl rfl rfl rfl rfl rfl
  have h1 := h.trans (calm_modifyData c (·.addServer e.partyID) _)
  have h2 := h1.trans (calm_sweep cfg false .serverConnect
    (triggerAction cfg e.ifDescription e.grpid) _)
  exact h2.trans (calm_sweep cfg false .serverListChange _ _)

theorem calm_attachPool (pos : Nat) (k : NotificationKind) (id : UInt32) (b : Broker) :
    Calm b (b.attachPool pos k id) :=
  (calm_setNotifications k _ b).trans (.of_eq rfl rfl rfl rfl rfl rfl rfl)

/-- Calm changes over the elements of a list. -/
theorem calm_foldl {α : Type} {f : Broker → α → Broker} (hf : ∀ b x, Calm b (f b x)) (l : List α)
    (b : Broker) : Calm b (l.foldl f b) := by
  induction l generalizing b with
  | nil => exact .refl b
  | cons x xs ih => exact (hf b x).trans (ih _)

end Updates

/-! ## Handlers -/

/-- The update hands one job with the context of connection `c` to the master and
is calm otherwise. -/
def Asks (c : Nat) (b b' : Broker) : Prop :=
  ∃ b₁ j, Calm b b₁ ∧ j.ctx = some c ∧ Calm (b₁.eval j) b'

/-- What a handler leaves: an answer and no job for the connection, or no answer and
one such job; under the condition `lost`, neither. -/
inductive Replies (c : Nat) (b : Broker) (lost : Prop) : Broker × Option Response → Prop where
  | answered {b' : Broker} (r : Response) (h : Calm b b') : Replies c b lost (b', some r)
  | deferred {b' : Broker} (h : Asks c b b') : Replies c b lost (b', none)
  | lost {b' : Broker} (hlost : lost) (h : Calm b b') : Replies c b lost (b', none)

section Handlers

variable (cfg : Config)

/-- A new interface triggers, and answers nobody. -/
theorem calm_addInterface (ctx : SocketConnectionContext) (d : InterfaceDescription) (pid : UInt32)
    (chid : Int32) (isLocal : Bool) (grpid : Int32) (b : Broker) :
    Calm b (b.addInterface cfg ctx d pid chid isLocal grpid).2 := by
  unfold addInterface
  split
  · exact .refl b
  · have h : Calm b { b with mNextServerID := b.mNextServerID + 1 } :=
      .of_eq rfl rfl rfl rfl rfl rfl rfl
    exact h.trans (calm_addEntry cfg ctx.mId _ _)

/-- A registration is answered at once, whether it is refused or not. -/
theorem replies_handleRegisterInterface (ctx : SocketConnectionContext) (d : InterfaceDescription)
    (pid : UInt32) (chid : Int32) (b : Broker) :
    Replies ctx.mId b False (b.handleRegisterInterface cfg ctx d pid chid) := by
  have h := (calm_addInterface cfg ctx d pid chid (cfg.isLocalService d.name) SB_UNKNOWN_GROUP_ID
    b).trans (calm_registerInterfacesMaster cfg _)
  unfold handleRegisterInterface
  split
  · split
    · dsimp only
      split <;> exact .answered _ h
    · exact .answered _ (.refl b)
  · exact .answered _ (.refl b)

theorem replies_handleRegisterInterfaceGroupID (ctx : SocketConnectionContext)
    (d : InterfaceDescription) (pid : UInt32) (chid grpid : Int32) (b : Broker) :
    Replies ctx.mId b False (b.handleRegisterInterfaceGroupID cfg ctx d pid chid grpid) := by
  have h := (calm_addInterface cfg ctx d pid chid (cfg.isLocalService d.name) grpid
    b).trans (calm_registerInterfacesMaster cfg _)
  unfold handleRegisterInterfaceGroupID
  split
  · dsimp only
    split <;> exact .answered _ h
  · exact .answered _ (.refl b)

/-- Records that are handled one by one. -/
theorem calm_recordLoop {α β : Type} {f : α → Broker → β × Broker}
    (hf : ∀ x b, Calm b (f x b).2) (n : Nat) (xs : List α) (b : Broker) :
    Calm b (recordLoop f n xs b).2 := by
  refine recordLoop_preserves (I := Calm b) (.refl b) ?_
  intro x _ s hs
  exact hs.trans (hf x s)

theorem replies_handleRegisterInterfaceEx (ctx : SocketConnectionContext) (ifCount : Int32)
    (pid : UInt32) (chid : Int32) (records : List InterfaceDescription) (b : Broker) :
    Replies ctx.mId b False (b.handleRegisterInterfaceEx cfg ctx ifCount pid chid records) := by
  have h := calm_recordLoop (f := registerRecordEx cfg ctx pid chid)
    (fun d s => calm_addInterface cfg ctx d pid chid _ _ s) ifCount.toInt.toNat records b
  unfold handleRegisterInterfaceEx
  dsimp only
  split
  · exact .answered _ h
  · exact .answered _ (h.trans (calm_registerInterfacesMaster cfg _))

theorem replies_handleRegisterMasterInterface (ctx : SocketConnectionContext) (ifCount : Int32)
    (records : List SFNDInterfaceDescriptionEx) (b : Broker) :
    Replies ctx.mId b False (b.handleRegisterMasterInterface cfg ctx ifCount records) := by
  have hrecord (r : SFNDInterfaceDescriptionEx) (s : Broker) :
      Calm s (s.registerMasterRecord cfg ctx r).2 := by
    unfold registerMasterRecord
    split
    · exact .refl s
    · exact calm_addEntry cfg ctx.mId _ s
  have h := (calm_recordLoop hrecord ifCount.toInt.toNat records b).trans
    (calm_registerInterfacesMaster cfg _)
  unfold handleRegisterMasterInterface
  dsimp only
  split <;> exact .answered _ h

/-- A server that goes answers nobody. -/
theorem calm_dropServer (id : SPartyID) (b : Broker) : Calm b (b.dropServer id) :=
  .of_eq rfl rfl rfl rfl rfl rfl rfl

/-- An unregistration is answered at once. -/
theorem replies_handleUnregisterInterface (ctx : SocketConnectionContext) (serverID : SPartyID)
    (b : Broker) : Replies ctx.mId b False (b.handleUnregisterInterface cfg ctx serverID) := by
  unfold handleUnregisterInterface
  split
  · have h1 := calm_modifyData ctx.mId (·.removeServer serverID) b
    dsimp only
    split
    · exact .answered _ h1
    · next entry _ =>
      have h2 := h1.trans (calm_sweep cfg false .serverDisconnect
        (fireIf (fun n => n.partyID = serverID)) _)
      have h3 := h2.trans (calm_unregisterInterfaceMaster cfg entry.masterID _)
      have h4 := h3.trans (calm_dropServer serverID _)
      exact .answered _ (h4.trans (calm_sweep cfg false .serverListChange _ _))
  · exact .answered _ (.refl b)

/-- The job that monitors a server carries no context. -/
theorem calm_monitorServer (serverID : SPartyID) (id : UInt32) (b : Broker) :
    Calm b (b.monitorServer cfg serverID id) := by
  unfold monitorServer
  split
  · exact .refl b
  · split
    · exact calm_attachPool _ _ _ b
    · have h : Calm b (b.addPoolServer serverID) := .of_eq rfl rfl rfl rfl rfl rfl rfl
      exact (h.trans (calm_eval rfl _)).trans (calm_attachPool _ _ _ _)

/-- The notification is set without an answer. -/
theorem calm_notifyServerDisconnect (ctx : SocketConnectionContext) (serverID : SPartyID)
    (pulse : SFNDPulseInfo) (b : Broker) :
    Calm b (b.handleNotifyServerDisconnectNoResponse cfg ctx serverID pulse).2 := by
  have h : Calm b (b.addParty cfg .serverDisconnect serverID ctx pulse).2 :=
    calm_addNotification cfg _ ctx pulse _ b
  unfold handleNotifyServerDisconnectNoResponse
  dsimp only
  generalize b.addParty cfg .serverDisconnect serverID ctx pulse = r at *
  split
  · exact h
  · have h' := h.trans (calm_modifyData ctx.mId (·.addNotification r.1) r.2)
    split
    · exact h'.trans (calm_monitorServer cfg serverID r.1 _)
    · split
      · exact h'.trans (calm_sweep cfg false .serverDisconnect _ _)
      · exact h'

/-- The ID is answered at once, also where the master is asked to monitor. -/
theorem replies_handleNotifyServerDisconnect (ctx : SocketConnectionContext) (serverID : SPartyID)
    (pulse : SFNDPulseInfo) (b : Broker) :
    Replies ctx.mId b False (b.handleNotifyServerDisconnect cfg ctx serverID pulse) := by
  unfold handleNotifyServerDisconnect
  dsimp only
  split <;> exact .answered _ (calm_notifyServerDisconnect cfg ctx serverID pulse b)

/-- The notification is set, and forwarded without a context. -/
theorem calm_notifyServerAvailable (ctx : SocketConnectionContext) (pulse : SFNDPulseInfo)
    (d : InterfaceDescription) (b : Broker) :
    Calm b (b.handleNotifyServerAvailableNoResponse cfg ctx pulse d).2 := by
  have h : Calm b
      (b.addDescription cfg .serverConnect d ctx pulse (cfg.isLocalService d.name)).2 :=
    calm_addNotification cfg _ ctx pulse _ b
  unfold handleNotifyServerAvailableNoResponse
  dsimp only
  generalize b.addDescription cfg .serverConnect d ctx pulse (cfg.isLocalService d.name) = r at *
  split
  · exact .refl b
  · split
    · exact h
    · have h' := h.trans (calm_modifyData ctx.mId (·.addNotification r.1) r.2)
      split
      · exact h'.trans (calm_sweep cfg false .serverConnect _ _)
      · split
        · exact h'.trans (calm_forward cfg _)
        · exact h'

theorem replies_handleNotifyServerAvailable (ctx : SocketConnectionContext) (pulse : SFNDPulseInfo)
    (d : InterfaceDescription) (b : Broker) :
    Replies ctx.mId b False (b.handleNotifyServerAvailable cfg ctx pulse d) := by
  unfold handleNotifyServerAvailable
  dsimp only
  split <;> exact .answered _ (calm_notifyServerAvailable cfg ctx pulse d b)

theorem replies_handleNotifyServerAvailableEx (ctx : SocketConnectionContext) (count : Int32)
    (records : List SFNDNotificationDescription) (b : Broker) :
    Replies ctx.mId b False (b.handleNotifyServerAvailableEx cfg ctx count records) := by
  have h := calm_recordLoop (f := notifyAvailableRecord cfg ctx)
    (fun n s => calm_notifyServerAvailable cfg ctx n.pulse n.ifDescription s) count.toInt.toNat
    records b
  unfold handleNotifyServerAvailableEx
  dsimp only
  split <;> exact .answered _ h

theorem replies_handleNotifyClientDetach (ctx : SocketConnectionContext) (clientID : SPartyID)
    (pulse : SFNDPulseInfo) (b : Broker) :
    Replies ctx.mId b False (b.handleNotifyClientDetach cfg ctx clientID pulse) := by
  have h : Calm b (b.addParty cfg .clientDetach clientID ctx pulse).2 :=
    calm_addNotification cfg _ ctx pulse _ b
  unfold handleNotifyClientDetach
  dsimp only
  generalize b.addParty cfg .clientDetach clientID ctx pulse = r at *
  split
  · exact .answered _ h
  · have h' := h.trans (calm_modifyData ctx.mId (·.addNotification r.1) r.2)
    refine .answered _ (h'.trans ?_)
    split
    · exact calm_eval rfl _
    · split
      · exact .refl _
      · exact calm_sweep cfg false .clientDetach _ _

theorem replies_handleNotifyInterfaceListChange (ctx : SocketConnectionContext)
    (pulse : SFNDPulseInfo) (b : Broker) :
    Replies ctx.mId b False (b.handleNotifyInterfaceListChange cfg ctx pulse) := by
  have h : Calm b (b.addPlain cfg .serverListChange ctx pulse).2 :=
    calm_addNotification cfg _ ctx pulse _ b
  unfold handleNotifyInterfaceListChange
  dsimp only
  generalize b.addPlain cfg .serverListChange ctx pulse = r at *
  split
  · exact .answered _ h
  · have h' := h.trans (calm_modifyData ctx.mId (·.addNotification r.1) r.2)
    exact .answered _ (h'.trans (calm_evalMaster cfg rfl _))

theorem replies_handleNotifyInterfaceListMatch (ctx : SocketConnectionContext)
    (pulse : SFNDPulseInfo) (regExpr : CString) (b : Broker) :
    Replies ctx.mId b False (b.handleNotifyInterfaceListMatch cfg ctx pulse regExpr) := by
  have h : Calm b (b.addRegExp cfg .serverListChange regExpr ctx pulse).2 := by
    unfold addRegExp
    split
    · exact calm_addNotification cfg _ ctx pulse _ b
    · exact .of_eq rfl rfl rfl rfl rfl rfl rfl
  unfold handleNotifyInterfaceListMatch
  dsimp only
  generalize b.addRegExp cfg .serverListChange regExpr ctx pulse = r at *
  split
  · exact .answered _ h
  · have h' := h.trans (calm_modifyData ctx.mId (·.addNotification r.1) r.2)
    have h'' := h'.trans (calm_evalMaster cfg (j := ⟨r.1, none, .notifyInterfaceListMatch
      (masterPulse cfg .PULSE_MASTER_SERVERLIST_CHANGE r.1) regExpr⟩) rfl _)
    refine .answered _ (h''.trans ?_)
    split
    · exact calm_sweep cfg true .serverListChange _ _
    · exact .refl _

/-- A notification that is cleared is answered at once. -/
theorem replies_handleClearNotification (ctx : SocketConnectionContext) (id : UInt32)
    (b : Broker) : Replies ctx.mId b False (b.handleClearNotification cfg ctx id) := by
  unfold handleClearNotification
  split
  · have h1 := calm_modifyData ctx.mId (·.removeNotification id) b
    have h2 := h1.trans (calm_sweep cfg true .clientDetach
      (fun _ n => if n.notificationID = id then .drop else .keep) _)
    have h3 := h2.trans (calm_sweep cfg true .serverDisconnect
      (fun _ n => if n.notificationID = id then .drop else .keep) _)
    have h4 := h3.trans (calm_sweep cfg true .serverConnect
      (fun _ n => if n.notificationID = id then .drop else .keep) _)
    exact .answered _ (h4.trans (calm_sweep cfg true .serverListChange _ _))
  · exact .answered _ (.refl b)

theorem calm_addClient (c : Nat) (serverID : SPartyID) (b : Broker) :
    Calm b (b.addClient cfg c serverID).2 := by
  have h : Calm b { b with
      mNextClientID := b.mNextClientID + 1
      mAttachedClients :=
        b.mAttachedClients ++ [⟨b.nextClientIDFor cfg serverID, serverID, c⟩] } :=
    .of_eq rfl rfl rfl rfl rfl rfl rfl
  unfold addClient
  dsimp only
  split
  · exact h.trans (calm_modifyData c _ _)
  · exact h

theorem calm_handleAttachLocalInterface (ctx : SocketConnectionContext) (e : ServerListEntry)
    (b : Broker) : Calm b (b.handleAttachLocalInterface cfg ctx e).2 := by
  unfold handleAttachLocalInterface
  split
  · exact calm_addClient cfg ctx.mId e.partyID b
  · exact .refl b

/-- A handler that hands a job over and defers the answer. -/
theorem Replies.of_eval {c : Nat} {b b₁ b' : Broker} {lost : Prop} {j : Job} (h : Calm b b₁)
    (hj : j.ctx = some c) (h' : Calm (b₁.eval j) b') : Replies c b lost (b', none) :=
  .deferred ⟨b₁, j, h, hj, h'⟩

/-- An attach is answered at once if the server is here, and by the master otherwise. -/
theorem replies_handleAttachInterface (ctx : SocketConnectionContext) (d : InterfaceDescription)
    (b : Broker) : Replies ctx.mId b False (b.handleAttachInterface cfg ctx d) := by
  unfold handleAttachInterface
  split
  · split
    · next entry _ =>
      dsimp only
      split <;> exact .answered _ (calm_handleAttachLocalInterface cfg ctx entry b)
    · split
      · have h : Calm b { b with
            mNextPendingRemoteServerRequestID := b.mNextPendingRemoteServerRequestID + 1 } :=
          .of_eq rfl rfl rfl rfl rfl rfl rfl
        exact .of_eval h rfl (.refl _)
      · exact .answered _ (.refl b)
  · exact .answered _ (.refl b)

/-- So is a question for a server. -/
theorem replies_handleGetServerInformation (ctx : SocketConnectionContext)
    (d : InterfaceDescription) (b : Broker) :
    Replies ctx.mId b False (b.handleGetServerInformation cfg ctx d) := by
  unfold handleGetServerInformation
  split
  · split
    · exact .answered _ (.refl b)
    · split
      · refine .of_eval ?_ rfl (.refl _)
        exact .of_eq rfl rfl rfl rfl rfl rfl rfl
      · exact .answered _ (.refl b)
  · exact .answered _ (.refl b)

/-- A client that is not here is detached by the master, which answers. -/
theorem replies_handleDetachInterface (ctx : SocketConnectionContext) (clientID : SPartyID)
    (b : Broker) : Replies ctx.mId b False (b.handleDetachInterface cfg ctx clientID) := by
  unfold handleDetachInterface
  split
  · have h1 := calm_sweep cfg false .clientDetach (fireIf (fun n => n.partyID = clientID)) b
    have h2 : Calm b { b.trigger cfg .clientDetach clientID with
        mAttachedClients :=
          (b.trigger cfg .clientDetach clientID).mAttachedClients.remove clientID } :=
      h1.trans (.of_eq rfl rfl rfl rfl rfl rfl rfl)
    exact .answered _ (h2.trans (calm_modifyData ctx.mId _ _))
  · split
    · exact .of_eval (.refl b) rfl (calm_modifyData ctx.mId _ _)
    · exact .answered _ (.refl b)

/-- The list is answered at once without a master, and by the master otherwise. -/
theorem replies_handleGetInterfaceList (ctx : SocketConnectionContext) (inCount : Int32)
    (b : Broker) : Replies ctx.mId b False (b.handleGetInterfaceList cfg ctx inCount) := by
  unfold handleGetInterfaceList
  split
  · exact .of_eval (.refl b) rfl (.refl _)
  · split <;> exact .answered _ (.refl b)

/-- An expression that does not compile is answered at once, if the process stays. -/
theorem replies_handleMatchInterfaceList (ctx : SocketConnectionContext) (inCount : Int32)
    (regExpr : CString) (b : Broker) :
    Replies ctx.mId b False (b.handleMatchInterfaceList cfg ctx inCount regExpr) := by
  unfold handleMatchInterfaceList
  split
  · exact .answered _ (.refl b)
  · split
    · exact .of_eval (.refl b) rfl (.refl _)
    · split <;> exact .answered _ (.refl b)

/-! ### The extended attach -/

/-- An `ATTACH_INTERFACE_EXTENDED` request that is forwarded to the master. -/
def forwardsAttach (d : InterfaceDescription) (b : Broker) : Bool :=
  check d && (b.mConnectedServers.findDescription d).isNone &&
    (!cfg.isLocalService d.name && cfg.forwardService d.name && b.isMasterConnected cfg)

/-- An `ATTACH_INTERFACE_EXTENDED` request that finds a pool for which the master was
asked again: it is deferred without a job of its own. -/
def joinsPrecaching (ctx : SocketConnectionContext) (pulse : SFNDPulseInfo)
    (d : InterfaceDescription) (b : Broker) : Bool :=
  forwardsAttach cfg d b && attaches cfg ctx pulse b &&
    (b.mMasterNotificationPool.findIdx? (·.isFor d true)).any
      (fun pos => b.poolStateAt pos == .STATE_PRECACHING)

/-- In a pool whose request is already under way a message is deferred without a job. -/
theorem replies_askMasterExtended (c : Nat) (d : InterfaceDescription) (pos : Nat)
    (poolFound : Bool) (id : UInt32) (b : Broker) :
    Replies c b (poolFound = true ∧ b.poolStateAt pos = .STATE_PRECACHING)
      (b.askMasterExtended cfg c d pos poolFound id) := by
  unfold askMasterExtended
  dsimp only
  split
  · have hstate : Calm b (b.modifyPool pos (·.setState .STATE_PRECACHING)) :=
      .of_eq rfl rfl rfl rfl rfl rfl rfl
    exact .of_eval hstate rfl (.refl _)
  · next hstate =>
    split
    · next hfound => exact .lost ⟨hfound, hstate⟩ (.refl b)
    · exact .of_eval (.refl b) rfl (.refl _)
  · split
    · exact .answered _ (.refl b)
    · exact .of_eval (.refl b) rfl (.refl _)

/-- Joining a pool leaves the states of the pools alone. -/
theorem poolStateAt_attachPool (pos : Nat) (k : NotificationKind) (id : UInt32) (b : Broker) :
    (b.attachPool pos k id).poolStateAt pos = b.poolStateAt pos := by
  have hpools : (b.attachPool pos k id).mMasterNotificationPool =
      b.mMasterNotificationPool.modify pos
        (fun np => { np with mRefCount := np.mRefCount + 1 }) := by
    cases k <;> rfl
  rw [poolStateAt, hpools, poolStateAt, List.getElem?_modify_eq, Option.map_eq_map,
    Option.map_map]
  rfl

/-- Calm changes in front of a reply. -/
theorem Replies.trans {c : Nat} {b b' : Broker} {lost lost' : Prop}
    {r : Broker × Option Response} (h : Calm b b') (hlost : lost → lost')
    (h' : Replies c b' lost r) : Replies c b lost' r := by
  cases h' with
  | answered r h' => exact .answered r (h.trans h')
  | deferred h' =>
      obtain ⟨b₁, j, hb, hj, hb'⟩ := h'
      exact .deferred ⟨b₁, j, h.trans hb, hj, hb'⟩
  | lost hl h' => exact .lost (hlost hl) (h.trans h')

/-- The attach is lost exactly if its pool is in `STATE_PRECACHING`. -/
theorem replies_forwardAttachExtendedToMaster (ctx : SocketConnectionContext)
    (pulse : SFNDPulseInfo) (d : InterfaceDescription) (b : Broker) :
    Replies ctx.mId b
      (attaches cfg ctx pulse b = true ∧
        ∃ pos, b.mMasterNotificationPool.findIdx? (·.isFor d true) = some pos ∧
          b.poolStateAt pos = .STATE_PRECACHING)
      (b.forwardAttachExtendedToMaster cfg ctx pulse d) := by
  have hpool : Calm b (b.extendedPool d).2.2 ∧ (b.extendedPool d).2.2.attachCalls = b.attachCalls ∧
      ((b.extendedPool d).2.1 = true →
        b.mMasterNotificationPool.findIdx? (·.isFor d true) = some (b.extendedPool d).1 ∧
          (b.extendedPool d).2.2 = b) := by
    unfold extendedPool
    split
    · next pos hpos => exact ⟨.refl b, rfl, fun _ => ⟨hpos, rfl⟩⟩
    · exact ⟨.of_eq rfl rfl rfl rfl rfl rfl rfl, rfl, by simp⟩
  obtain ⟨hcalm, hcalls, hfound⟩ := hpool
  have hadd := calm_addNotification cfg .serverConnect ctx pulse
    (fun n => { n with ifDescription := d, host := some ctx.mId,
                       isLocal := cfg.isLocalService d.name, uid := ctx.mUid })
    (b.extendedPool d).2.2
  have hpools := (pools_addNotification cfg .serverConnect ctx pulse
    (fun n => { n with ifDescription := d, host := some ctx.mId,
                       isLocal := cfg.isLocalService d.name, uid := ctx.mUid })
    (b.extendedPool d).2.2).1
  unfold forwardAttachExtendedToMaster
  dsimp only
  generalize b.extendedPool d = p at *
  refine .trans (hcalm.trans hadd) id ?_
  cases ha : attaches cfg ctx pulse b with
  | false =>
      have hnot : attaches cfg ctx pulse p.2.2 = false := by rwa [attaches, hcalls]
      have hinvalid : (p.2.2.addDescription cfg .serverConnect d ctx pulse
          (cfg.isLocalService d.name)).1 = INVALID_NOTIFICATION_ID :=
        congrArg Prod.fst (addNotification_of_not_attaches hnot _ _)
      rw [if_pos hinvalid]
      exact .answered _ (.refl _)
  | true =>
      unfold addDescription
      generalize p.2.2.addNotification cfg .serverConnect ctx pulse _ = r at hpools ⊢
      split
      · exact .answered _ (.refl _)
      · split
        · exact .answered _ (.refl _)
        · have h' := (calm_modifyData ctx.mId (·.addNotification r.1) r.2).trans
            (calm_attachPool p.1 .serverConnect r.1 _)
          refine .trans h' ?_ (replies_askMasterExtended cfg ctx.mId d p.1 p.2.1 r.1 _)
          rintro ⟨hp, hstate⟩
          obtain ⟨hpos, hsame⟩ := hfound hp
          refine ⟨rfl, p.1, hpos, ?_⟩
          rw [poolStateAt_attachPool] at hstate
          rw [← hstate, ← hsame, poolStateAt, poolStateAt, ← hpools]
          rfl

/-- A local attach is answered at once, one that goes on to the master by the master. -/
theorem replies_handleAttachInterfaceExtended (ctx : SocketConnectionContext)
    (pulse : SFNDPulseInfo) (d : InterfaceDescription) (stackPulse : SFNDPulseInfo) (b : Broker) :
    Replies ctx.mId b (joinsPrecaching cfg ctx pulse d b = true)
      (b.handleAttachInterfaceExtended cfg ctx pulse d stackPulse) := by
  unfold handleAttachInterfaceExtended
  split
  · next hcheck =>
    split
    · next entry _ =>
      have h1 := calm_handleAttachLocalInterface cfg ctx entry b
      dsimp only
      split
      · exact .answered _ h1
      · have h2 := h1.trans (calm_notifyServerDisconnect cfg ctx entry.partyID stackPulse _)
        split <;> exact .answered _ h2
    · next hnone =>
      split
      · have h1 := calm_notifyServerAvailable cfg ctx pulse d b
        dsimp only
        split <;> exact .answered _ h1
      · next hforward =>
        refine .trans (.refl b) ?_ (replies_forwardAttachExtendedToMaster cfg ctx pulse d b)
        rintro ⟨ha, pos, hpos, hstate⟩
        simp only [Bool.or_eq_true, not_or, Bool.not_eq_true', Bool.not_eq_true,
          Bool.not_eq_false] at hforward
        simp [joinsPrecaching, forwardsAttach, hcheck, hnone, hforward, ha, hpos, hstate]
  · exact .answered _ (.refl b)

/-! ### All of them -/

/-- The condition on a request: it is not deferred without a job. -/
def requestAnswered (ctx : SocketConnectionContext) (b : Broker) : Request → Bool
  | .attachInterfaceExtended pulse d _ => !joinsPrecaching cfg ctx pulse d b
  | _ => true

/-- Every request is answered or leaves one job, but for the attaches that are lost. -/
theorem replies_dispatch (ctx : SocketConnectionContext) (r : Request) (b : Broker) :
    Replies ctx.mId b (requestAnswered cfg ctx b r = false) (b.dispatch cfg ctx r) := by
  have hnever {s : Broker × Option Response} (h : Replies ctx.mId b False s) :
      Replies ctx.mId b (requestAnswered cfg ctx b r = false) s := .trans (.refl b) False.elim h
  have hslave (b : Broker) : Calm b (b.setSlave ctx.mId) := by
    refine calm_setConnection ctx.mId ?_
    rw [Option.map_map]
    rfl
  cases r with
  | masterPing => exact .answered _ (hslave b)
  | masterPingId id => exact .answered _ ((calm_modifyData ctx.mId _ b).trans (hslave _))
  | registerInterface => exact hnever (replies_handleRegisterInterface cfg ctx _ _ _ b)
  | registerInterfaceEx => exact hnever (replies_handleRegisterInterfaceEx cfg ctx _ _ _ _ b)
  | registerInterfaceGroupID =>
      exact hnever (replies_handleRegisterInterfaceGroupID cfg ctx _ _ _ _ b)
  | registerMasterInterfaceEx => exact hnever (replies_handleRegisterMasterInterface cfg ctx _ _ b)
  | unregisterInterface => exact hnever (replies_handleUnregisterInterface cfg ctx _ b)
  | attachInterface => exact hnever (replies_handleAttachInterface cfg ctx _ b)
  | attachInterfaceExtended pulse d stackPulse =>
      refine .trans (.refl b) ?_
        (replies_handleAttachInterfaceExtended cfg ctx pulse d stackPulse b)
      intro hjoins
      simp [requestAnswered, hjoins]
  | getServerInformation => exact hnever (replies_handleGetServerInformation cfg ctx _ b)
  | detachInterface => exact hnever (replies_handleDetachInterface cfg ctx _ b)
  | notifyServerDisconnect => exact hnever (replies_handleNotifyServerDisconnect cfg ctx _ _ b)
  | notifyServerAvailable => exact hnever (replies_handleNotifyServerAvailable cfg ctx _ _ b)
  | notifyServerAvailableEx => exact hnever (replies_handleNotifyServerAvailableEx cfg ctx _ _ b)
  | notifyClientDetach => exact hnever (replies_handleNotifyClientDetach cfg ctx _ _ b)
  | clearNotification => exact hnever (replies_handleClearNotification cfg ctx _ b)
  | getInterfaceList => exact hnever (replies_handleGetInterfaceList cfg ctx _ b)
  | notifyInterfaceListChange => exact hnever (replies_handleNotifyInterfaceListChange cfg ctx _ b)
  | matchInterfaceList => exact hnever (replies_handleMatchInterfaceList cfg ctx _ _ b)
  | notifyInterfaceListMatch => exact hnever (replies_handleNotifyInterfaceListMatch cfg ctx _ _ b)
  | badFoundationVersion => exact .answered _ (.refl b)
  | malformed => exact .answered _ (.refl b)

/-- A connection that closes is answered nothing. -/
theorem calm_clear (c : Nat) (b : Broker) : Calm b (b.clear cfg c) := by
  have hserver (b : Broker) (id : SPartyID) : Calm b (b.clearServer cfg id) := by
    unfold clearServer
    split
    · exact .refl b
    · exact (calm_unregisterInterfaceMaster cfg _ b).trans (calm_dropServer id _)
  have hclient (b : Broker) (id : SPartyID) : Calm b (b.clearClient cfg id) := by
    have h : Calm b { b with mAttachedClients := b.mAttachedClients.remove id } :=
      .of_eq rfl rfl rfl rfl rfl rfl rfl
    exact h.trans (calm_evalMaster cfg rfl _)
  have h1 := (calm_foldl hserver (b.dataOf c).mServerList.elems b).trans
    (calm_foldl hclient (b.dataOf c).mClientList.elems _)
  have h2 := h1.trans (calm_sweep cfg false .serverDisconnect
    (fireIf (fun n => (b.dataOf c).mServerList.contains n.partyID)) _)
  have h3 := h2.trans (calm_sweep cfg false .clientDetach
    (fireIf (fun n => (b.dataOf c).mClientList.contains n.partyID)) _)
  have hremove (k : NotificationKind) (b : Broker) : Calm b (b.removeNotificationsOf cfg k c) :=
    calm_sweep cfg false k _ b
  have h4 := ((h3.trans (hremove .serverDisconnect _)).trans (hremove .clientDetach _)).trans
    ((hremove .serverConnect _).trans (hremove .serverListChange _))
  unfold clear
  dsimp only
  split
  · exact h4.trans (calm_sweep cfg false .serverListChange _ _)
  · exact h4

/-- A pulse of the master answers nobody. -/
theorem calm_dispatchPulse (p : MasterPulse) (value : UInt32) (b : Broker) :
    Calm b (b.dispatchPulse cfg p value) := by
  cases p with
  | PULSE_MASTER_SERVER_AVAILABLE => exact calm_sweep cfg false .serverConnect _ b
  | PULSE_MASTER_SERVER_DISCONNECT => exact calm_sweep cfg false .serverDisconnect _ b
  | PULSE_MASTER_CLIENT_DETACH =>
      simp only [dispatchPulse, handleMasterClientDetach]
      split
      · exact calm_sweep cfg false .clientDetach _ b
      · exact calm_sweep cfg true .clientDetach _ b
  | PULSE_MASTER_SERVERLIST_CHANGE => exact calm_sweep cfg true .serverListChange _ b
  | PULSE_MASTER_ATTACH_EXTENDED =>
      simp only [dispatchPulse, handleMasterAttachExtended]
      split
      · exact .refl b
      · next pos _ =>
        split
        · exact calm_sweep cfg false .serverDisconnect _ b
        · have h : Calm b (b.modifyPool pos (·.setState .STATE_CONNECTED)) :=
            .of_eq rfl rfl rfl rfl rfl rfl rfl
          exact h.trans (calm_sweep cfg false .serverConnect _ _)
        · exact .refl b

/-- What is stored in a pool is nobody's answer. -/
theorem calm_storePoolNotification (poolID id : UInt32) (b : Broker) :
    Calm b (b.storePoolNotification cfg poolID id) := by
  unfold storePoolNotification
  split
  · exact .of_eq rfl rfl rfl rfl rfl rfl rfl
  · exact calm_evalMaster cfg rfl b

/-- Nor is what is stored in a notification. -/
theorem calm_storeMasterNotification (k : NotificationKind) (id masterID : UInt32) (b : Broker) :
    Calm b (b.storeMasterNotification cfg k id masterID) := by
  unfold storeMasterNotification
  split
  · exact calm_setNotifications k _ b
  · exact calm_evalMaster cfg rfl b

/-- The reply handlers themselves say nothing to the waiting connection. -/
theorem calm_jobReply (job : Job) (res : JobResult) {b : Broker}
    (h : b.mPendingAttachExtendedJobs = []) : Calm b (b.jobReply cfg job res).2 := by
  have havailable (b : Broker) (r : SFNDNotificationID) :
      Calm b (b.finishAvailableRecord cfg r) := by
    unfold finishAvailableRecord
    split
    · exact .refl b
    · exact calm_storePoolNotification cfg _ _ b
  have hregister (b : Broker) (id : SPartyID) : Calm b (b.finishRegisterRecord cfg id) := by
    unfold finishRegisterRecord
    split
    · split
      · exact .refl b
      · exact .of_eq rfl rfl rfl rfl rfl rfl rfl
    · exact calm_unregisterInterfaceMaster cfg id b
  unfold jobReply
  split
  · exact calm_modifyData _ _ b
  · rw [handleJobFinishedAttachExtended_of_empty cfg job res h]
    exact .refl b
  · split
    · exact .of_eq rfl rfl rfl rfl rfl rfl rfl
    · exact .refl b
  · exact calm_foldl havailable _ b
  · exact calm_storePoolNotification cfg _ _ b
  · exact calm_storeMasterNotification cfg _ _ _ b
  · exact calm_storeMasterNotification cfg _ _ _ b
  · exact calm_storeMasterNotification cfg _ _ _ b
  · exact calm_foldl hregister _ b
  · exact .refl b
  · exact .refl b
  · exact .refl b
  · exact .refl b
  · exact .refl b

/-- The jobs of a new connection to the master carry no context. -/
theorem calm_handleMasterConnected (b : Broker) : Calm b (b.handleMasterConnected cfg) :=
  (calm_registerInterfacesMaster cfg b).trans (calm_forward cfg _)

/-- Nobody waits in the pools that are emptied, where no attach waits for another one. -/
theorem calm_handleMasterDisconnected {b : Broker} (h : b.mPendingAttachExtendedJobs = []) :
    Calm b (b.handleMasterDisconnected cfg) := by
  have h1 : Calm b { b with
      mConnectedServers := b.mConnectedServers.clearMasterIDs
      mMasterNotificationPool := []
      mPendingRemoteServersRequests := []
      mPendingAttachExtendedJobs := [] } := .of_eq rfl rfl h.symm rfl rfl rfl rfl
  have h2 := h1.trans (calm_sweep cfg false .serverDisconnect (fun b n =>
    if n.active ∧ cfg.mExtendedID ≠ n.partyID.extendedID ∧
        (b.mConnectedServers.findID n.partyID).isNone then .fire else .keep) _)
  have h3 := h2.trans (calm_sweep cfg false .clientDetach
    (fireIf (fun n => n.partyID.extendedID ≠ cfg.mExtendedID)) _)
  exact h3.trans (calm_setNotifications .serverConnect _ _)

end Handlers

/-! ## Jobs and waiting connections -/

section Ledger

variable {cfg : Config} {b b' : Broker} {c : Nat}

theorem Calm.fresh (h : Calm b b') (hfresh : ∀ c, b.nextConnectionId ≤ c → b.conns c = none) :
    ∀ c, b'.nextConnectionId ≤ c → b'.conns c = none := by
  intro c hle
  rw [h.nextConnectionId] at hle
  have hnone := h.conns c
  rw [hfresh c hle] at hnone
  simpa using hnone

/-- The same connections are open. -/
theorem Calm.isSome (h : Calm b b') (c : Nat) : (b'.conns c).isSome = (b.conns c).isSome := by
  rw [← Option.isSome_map (f := peer), h.conns, Option.isSome_map]

/-- Closing or changing an open connection opens none. -/
theorem fresh_setConnection {k : Option Connection} (hk : b.conns c ≠ none ∨ k = none)
    (hfresh : ∀ c, b.nextConnectionId ≤ c → b.conns c = none) :
    ∀ c', (b.setConnection c k).nextConnectionId ≤ c' → (b.setConnection c k).conns c' = none := by
  intro c' hle
  have hnone := hfresh c' hle
  simp only [setConnection]
  split
  · next hc =>
    rcases hk with hopen | hk
    · exact absurd (hc ▸ hnone) hopen
    · exact hk
  · exact hnone

/-- The job of a deferred request is one more for its connection. -/
theorem jobsOf_ask {j : Job} (hc : Calm (b.eval j) b') (c' : Nat) :
    b'.jobsOf c' = b.jobsOf c' ++ [j].filter (fun j => j.ctx = some c') := by
  rw [hc.jobsOf, jobsOf, jobsOf, ← List.filter_append]
  simp [jobsInFlight, eval]

/-- A new connection waits for nothing. -/
theorem waits_openConnection (hfresh : ∀ c, b.nextConnectionId ≤ c → b.conns c = none)
    (nodeAddress localAddress : UInt32) (uid : Int32) (c : Nat) :
    (b.openConnection nodeAddress localAddress uid).waits c = b.waits c := by
  have hidle : b.waits b.nextConnectionId = false := by
    simp [waits, hfresh b.nextConnectionId (Nat.le_refl _)]
  have hset := waits_setConnection b.nextConnectionId c (some
    { mNodeAddress := nodeAddress, mLocalAddress := localAddress, mUid := uid }) b
  rw [Option.map_some, Option.getD_some] at hset
  refine Eq.trans hset ?_
  split
  · next hc => rw [hc, hidle]
  · rfl

/-- The next connection takes a new number. -/
theorem fresh_openConnection (hfresh : ∀ c, b.nextConnectionId ≤ c → b.conns c = none)
    (nodeAddress localAddress : UInt32) (uid : Int32) :
    ∀ c, (b.openConnection nodeAddress localAddress uid).nextConnectionId ≤ c →
      (b.openConnection nodeAddress localAddress uid).conns c = none := by
  intro c hle
  have hlt : b.nextConnectionId < c := hle
  have hnone := hfresh c (Nat.le_of_lt hlt)
  simpa [Broker.openConnection, setConnection, Nat.ne_of_gt hlt] using hnone

/-- The result of a job is taken out of the pipe. -/
theorem jobsOf_finish {job : Job} {res : JobResult} {rest : List InternalNotification}
    (hpipe : b.pipe = .jobExecuted job res :: rest) (hc : Calm { b with pipe := rest } b')
    (c' : Nat) : b.jobsOf c' = [job].filter (fun j => j.ctx = some c') ++ b'.jobsOf c' := by
  rw [hc.jobsOf, jobsOf, jobsOf, ← List.filter_append]
  simp [jobsInFlight, hpipe, InternalNotification.job?]

/-- What is taken out of the pipe is nobody's. -/
theorem jobsOf_takeNobody {m : InternalNotification} {rest : List InternalNotification}
    (hpipe : b.pipe = m :: rest) (hm : ∀ j, InternalNotification.job? m = some j → j.ctx = none)
      (c : Nat) :
    b.jobsOf c = { b with pipe := rest }.jobsOf c := by
  simp only [jobsOf, jobsInFlight, hpipe, List.filterMap_cons]
  cases hj : InternalNotification.job? m with
  | none => rfl
  | some j => simp [hm j hj]

/-- The late answer: the connection of the job waits no more. -/
theorem finalize_eq {job : Job} (hj : job.ctx = some c) {k : Connection}
    (hk : b.conns c = some k) (r : JobReply) :
    b.finalize job r = (b.setConnection c (some { k with deferred := false })).emit
      (.deferredResponse c r.response) := by
  simp [finalize, hj, hk]

/-- Who waits is connected and deferred. -/
theorem conns_of_waits (h : b.waits c = true) :
    ∃ k, b.conns c = some k ∧ k.deferred = true := by
  rw [waits] at h
  cases hk : b.conns c with
  | none => rw [hk] at h; cases h
  | some k =>
      rw [hk] at h
      exact ⟨k, rfl, h⟩

end Ledger

/-! ## The invariant -/

/-- Every exchange so far is one answer for every request, but one that is owed exactly
as long as one job with the context of the connection is in flight; and an open
connection waits exactly as long as it is owed an answer. -/
structure OneAnswer (b : Broker) : Prop where
  attachJobs : b.mPendingAttachExtendedJobs = []
  fresh : ∀ c, b.nextConnectionId ≤ c → b.conns c = none
  unheard : ∀ c, b.nextConnectionId ≤ c → b.owed c = false
  waiting : ∀ c, (b.conns c).isSome = true → b.waits c = b.owed c
  inFlight : ∀ c, (b.jobsOf c).length = (b.owed c).toNat
  exchanged : ∀ c, exchange false (b.marks c) = some (b.owed c)

namespace OneAnswer

variable {cfg : Config} {b b' : Broker}

theorem calm (h : OneAnswer b) (hc : Calm b b') : OneAnswer b' where
  attachJobs := hc.attachJobs.trans h.attachJobs
  fresh := hc.fresh h.fresh
  unheard c hle := by rw [hc.owed, h.unheard c (hc.nextConnectionId ▸ hle)]
  waiting c hopen := by rw [hc.waits, hc.owed, h.waiting c (hc.isSome c ▸ hopen)]
  inFlight c := by rw [hc.jobsOf, hc.owed, h.inFlight]
  exchanged c := by rw [hc.marks, hc.owed, h.exchanged]

/-- An open connection that does not wait is owed nothing. -/
theorem owed_of_idle (h : OneAnswer b) {c : Nat} {k : Connection} (hk : b.conns c = some k)
    (hidle : k.deferred = false) : b.owed c = false := by
  rw [← h.waiting c (by simp [hk])]
  simp [Broker.waits, hk, hidle]

/-- A connection that is owed nothing, and whose message is not deferred, is answered. -/
theorem answer (h : OneAnswer b) {c : Nat} (hidle : b.owed c = false) (r : Response) :
    OneAnswer (b.emit (.response c r)) := by
  have hexchanged (c' : Nat) :
      exchange false ((b.emit (.response c r)).marks c') = some (b.owed c') := by
    rw [marks, emit, List.filterMap_append, exchange_append]
    change (exchange false (b.marks c')).bind _ = _
    rw [h.exchanged]
    by_cases hc : c = c'
    · subst hc
      simp [Output.mark?, exchange, hidle]
    · simp [Output.mark?, exchange, hc]
  have howed (c' : Nat) : (b.emit (.response c r)).owed c' = b.owed c' :=
    owed_of_exchange (hexchanged c')
  constructor
  case attachJobs => exact h.attachJobs
  case fresh => exact h.fresh
  case unheard => exact fun c' hle => by rw [howed]; exact h.unheard c' hle
  case waiting => exact fun c' hopen => by rw [howed]; exact h.waiting c' hopen
  case inFlight => exact fun c' => by rw [howed]; exact h.inFlight c'
  case exchanged => exact fun c' => by rw [howed]; exact hexchanged c'

/-- The deferred answer: the job goes into the queue and the connection waits. -/
theorem ask (h : OneAnswer b) {c : Nat} {j : Job} (hj : j.ctx = some c)
    (hidle : b.owed c = false) (hc : Calm (b.eval j) b') {k : Connection}
    (hk : b'.conns c = some k) :
    OneAnswer (b'.setConnection c (some { k with deferred := true })) := by
  have hmarks (c' : Nat) : (b'.setConnection c (some { k with deferred := true })).marks c' =
      b.marks c' ++ [Output.job j].filterMap (Output.mark? c') := by
    have hcalm : b'.marks c' = (b.eval j).marks c' := hc.marks c'
    change b'.marks c' = _
    rw [hcalm, marks, marks, ← List.filterMap_append]
    rfl
  have hexchanged (c' : Nat) :
      exchange false ((b'.setConnection c (some { k with deferred := true })).marks c') =
        some (if c' = c then true else b.owed c') := by
    rw [hmarks, exchange_append, h.exchanged]
    by_cases hcc : c' = c
    · subst hcc
      simp [hidle, hj, Output.mark?, exchange]
    · simp [hj, hcc, Ne.symm hcc, Output.mark?, exchange]
  have howed (c' : Nat) : (b'.setConnection c (some { k with deferred := true })).owed c' =
      if c' = c then true else b.owed c' := owed_of_exchange (hexchanged c')
  have hconns (c' : Nat) : (b'.conns c').isSome = (b.conns c').isSome := hc.isSome c'
  have hopen : (b.conns c).isSome = true := by rw [← hconns, hk]; rfl
  constructor
  case attachJobs => exact hc.attachJobs.trans h.attachJobs
  case fresh =>
    exact fresh_setConnection (.inl (by rw [hk]; exact Option.some_ne_none k)) (hc.fresh h.fresh)
  case unheard =>
    intro c' hle
    have hle' : b.nextConnectionId ≤ c' := hc.nextConnectionId ▸ hle
    have hne : c' ≠ c := by
      rintro rfl
      rw [h.fresh c' hle'] at hopen
      cases hopen
    rw [howed, if_neg hne, h.unheard c' hle']
  case waiting =>
    intro c' hopen'
    have hwaits : b'.waits c' = b.waits c' := hc.waits c'
    rw [waits_setConnection, howed, hwaits]
    by_cases hcc : c' = c
    · simp [hcc]
    · rw [if_neg hcc, if_neg hcc]
      refine h.waiting c' ?_
      rw [← hconns]
      simpa [setConnection, hcc] using hopen'
  case inFlight =>
    intro c'
    change (b'.jobsOf c').length = _
    rw [jobsOf_ask hc, List.length_append, h.inFlight, howed]
    by_cases hcc : c' = c
    · subst hcc
      simp [hidle, hj]
    · simp [hj, hcc, Ne.symm hcc]
  case exchanged => exact fun c' => by rw [howed]; exact hexchanged c'

/-- A request that meets the condition is answered, or leaves one job. -/
theorem request (h : OneAnswer b) {c : Nat} {r : Request}
    (hr : ∀ k, b.conns c = some k → k.deferred = false → b.breaksOff cfg r = false →
      requestAnswered cfg (k.ctx c) b r = true) : OneAnswer (b.request cfg c r) := by
  unfold Broker.request
  split
  · exact h
  · next k hk =>
    split
    · exact h
    · next hread =>
      obtain ⟨hdeferred, hbreaks⟩ : k.deferred = false ∧ b.breaksOff cfg r = false := by
        simpa using hread
      have hidle : b.owed c = false := h.owed_of_idle hk hdeferred
      have hs : Replies c b _ (b.dispatch cfg (k.ctx c) r) := replies_dispatch cfg (k.ctx c) r b
      have hr := hr k hk hdeferred hbreaks
      generalize b.dispatch cfg (k.ctx c) r = s at hs
      cases hs with
      | lost hlost => exact absurd hr (by simp [hlost])
      | answered resp hcalm => exact (h.calm hcalm).answer (by rw [hcalm.owed, hidle]) resp
      | deferred hasks =>
          obtain ⟨b₁, j, hb₁, hj, hcalm⟩ := hasks
          have hpeer := (hcalm.conns c).trans (hb₁.conns c)
          rw [hk] at hpeer
          obtain ⟨k', hk', _⟩ := Option.map_eq_some_iff.mp hpeer
          dsimp only
          rw [hk']
          exact (h.calm hb₁).ask hj (by rw [hb₁.owed, hidle]) hcalm hk'

/-- What a closed connection is owed stays owed: its job is in flight still. -/
theorem closeConnection (h : OneAnswer b) (c : Nat) : OneAnswer (b.closeConnection cfg c) := by
  unfold Broker.closeConnection
  split
  · exact h
  · split
    · exact h
    · have hclear := h.calm (calm_clear cfg c b)
      constructor
      case attachJobs => exact hclear.attachJobs
      case fresh => exact fresh_setConnection (.inr rfl) hclear.fresh
      case unheard => exact hclear.unheard
      case waiting =>
        intro c' hopen
        have hne : c' ≠ c := by
          rintro rfl
          simp [setConnection] at hopen
        rw [waits_setConnection, if_neg hne]
        exact hclear.waiting c' (by simpa [setConnection, hne] using hopen)
      case inFlight => exact hclear.inFlight
      case exchanged => exact hclear.exchanged

/-- A new connection is owed nothing. -/
theorem openConnection (h : OneAnswer b) (nodeAddress localAddress : UInt32) (uid : Int32) :
    OneAnswer (b.openConnection nodeAddress localAddress uid) where
  attachJobs := h.attachJobs
  fresh := fresh_openConnection h.fresh nodeAddress localAddress uid
  unheard c hle := h.unheard c (Nat.le_of_succ_le hle)
  waiting c hopen := by
    rw [waits_openConnection h.fresh]
    change b.waits c = b.owed c
    by_cases hc : c = b.nextConnectionId
    · subst hc
      rw [h.unheard _ (Nat.le_refl _)]
      simp [Broker.waits, h.fresh _ (Nat.le_refl _)]
    · exact h.waiting c (by simpa [Broker.openConnection, setConnection, hc] using hopen)
  inFlight := h.inFlight
  exchanged := h.exchanged

/-- A job that carries a context is in flight for a connection that is owed an answer. -/
theorem owed_of_mem (h : OneAnswer b) {j : Job} (hmem : j ∈ b.jobsInFlight) {c : Nat}
    (hj : j.ctx = some c) : b.owed c = true := by
  have hpos : 0 < (b.jobsOf c).length :=
    List.length_pos_of_mem (List.mem_filter.mpr ⟨hmem, by simpa using hj⟩)
  rw [h.inFlight] at hpos
  cases hw : b.owed c with
  | true => rfl
  | false => rw [hw] at hpos; cases hpos

end OneAnswer

/-- The worker moves jobs and loses none. -/
theorem jobsInFlight_workerStep (b : Broker) (w : WorkerStep) :
    (b.workerStep w).jobsInFlight.Perm b.jobsInFlight := by
  unfold workerStep disconnectMaster
  split
  · next job q _ hq =>
    simp only [jobsInFlight, hq, List.filterMap_append, List.filterMap_cons,
      InternalNotification.job?, List.filterMap_nil, List.append_assoc, List.singleton_append]
    exact List.Perm.append_left _ List.perm_middle.symm
  · rfl
  · simp [jobsInFlight, List.filterMap_cons, InternalNotification.job?]
  · rfl
  · next job q hexec hq => simp [jobsInFlight, hq, hexec]
  · next raw job _ hexec =>
    dsimp only
    split <;> simp [jobsInFlight, hexec, List.filterMap_cons, InternalNotification.job?]
  · simp [jobsInFlight, List.filterMap_cons, InternalNotification.job?]
  · rfl
  · simp [jobsInFlight, List.filterMap_cons, InternalNotification.job?]
  · rfl

/-- The worker thread touches the link to the master only. -/
theorem workerStep_conns (b : Broker) (w : WorkerStep) :
    (b.workerStep w).conns = b.conns ∧ (b.workerStep w).log = b.log ∧
      (b.workerStep w).nextConnectionId = b.nextConnectionId ∧
      (b.workerStep w).mPendingAttachExtendedJobs = b.mPendingAttachExtendedJobs := by
  unfold Broker.workerStep disconnectMaster
  split <;> try exact ⟨rfl, rfl, rfl, rfl⟩
  dsimp only
  split <;> exact ⟨rfl, rfl, rfl, rfl⟩

namespace OneAnswer

variable {cfg : Config} {b b' : Broker}

/-- So what connections are owed does not depend on it. -/
theorem workerStep (h : OneAnswer b) (w : WorkerStep) : OneAnswer (b.workerStep w) := by
  obtain ⟨hconns, hlog, hnext, hattach⟩ := workerStep_conns b w
  have hwaits (c : Nat) : (b.workerStep w).waits c = b.waits c := by rw [waits, hconns, waits]
  have hmarks (c : Nat) : (b.workerStep w).marks c = b.marks c := by rw [marks, hlog, marks]
  have howed (c : Nat) : (b.workerStep w).owed c = b.owed c := by rw [owed, hmarks, owed]
  constructor
  case attachJobs => rw [hattach, h.attachJobs]
  case fresh => intro c hle; rw [hconns]; exact h.fresh c (hnext ▸ hle)
  case unheard => intro c hle; rw [howed]; exact h.unheard c (hnext ▸ hle)
  case waiting => intro c hopen; rw [hwaits, howed]; exact h.waiting c (hconns ▸ hopen)
  case inFlight =>
    intro c
    rw [howed, ← h.inFlight c]
    exact ((jobsInFlight_workerStep b w).filter _).length_eq
  case exchanged => intro c; rw [hmarks, howed]; exact h.exchanged c

/-- The result of a job for nobody is processed. -/
theorem finishNobody (h : OneAnswer b) {m : InternalNotification}
    {rest : List InternalNotification} (hpipe : b.pipe = m :: rest)
    (hm : ∀ j, InternalNotification.job? m = some j → j.ctx = none) :
      OneAnswer { b with pipe := rest } where
  attachJobs := h.attachJobs
  fresh := h.fresh
  unheard := h.unheard
  waiting := h.waiting
  inFlight c := by rw [← jobsOf_takeNobody hpipe hm]; exact h.inFlight c
  exchanged := h.exchanged

/-- The result of the job that connection `c` waits for is processed and sent. -/
theorem finishWaiting (h : OneAnswer b) {job : Job} {res : JobResult}
    {rest : List InternalNotification} (hpipe : b.pipe = .jobExecuted job res :: rest) {c : Nat}
    (hj : job.ctx = some c) (hopen : (b.conns c).isSome = true)
    (hc : Calm { b with pipe := rest } b') (r : JobReply) :
    OneAnswer (b'.finalize job r) ∧ (b'.finalize job r).waits c = false ∧
      (b'.finalize job r).log = b'.log ++ [.deferredResponse c r.response] := by
  have howed : b.owed c = true :=
    h.owed_of_mem (j := job) (by simp [jobsInFlight, hpipe, InternalNotification.job?]) hj
  have hconns (c' : Nat) : (b'.conns c').isSome = (b.conns c').isSome := hc.isSome c'
  obtain ⟨k, hk⟩ := Option.isSome_iff_exists.mp ((hconns c).trans hopen)
  have hfinal := finalize_eq hj hk r
  have hmarks (c' : Nat) : (b'.finalize job r).marks c' =
      b.marks c' ++ [Output.deferredResponse c r.response].filterMap (Output.mark? c') := by
    have hcalm : b'.marks c' = b.marks c' := hc.marks c'
    rw [hfinal, ← hcalm, marks, marks, ← List.filterMap_append]
    rfl
  have hexchanged (c' : Nat) : exchange false ((b'.finalize job r).marks c') =
      some (if c' = c then false else b.owed c') := by
    rw [hmarks, exchange_append, h.exchanged]
    by_cases hcc : c' = c
    · subst hcc
      simp [howed, Output.mark?, exchange]
    · simp [hcc, Ne.symm hcc, Output.mark?, exchange]
  have hafter (c' : Nat) : (b'.finalize job r).owed c' = if c' = c then false else b.owed c' :=
    owed_of_exchange (hexchanged c')
  have hwaits (c' : Nat) : (b'.finalize job r).waits c' =
      if c' = c then false else b.waits c' := by
    have hset := waits_setConnection c c' (some { k with deferred := false }) b'
    rw [hc.waits] at hset
    rw [hfinal]
    exact hset
  refine ⟨?_, by rw [hwaits, if_pos rfl], by rw [hfinal]; rfl⟩
  constructor
  case attachJobs => rw [hfinal]; exact hc.attachJobs.trans h.attachJobs
  case fresh =>
    rw [hfinal]
    exact fresh_setConnection (.inl (by rw [hk]; exact Option.some_ne_none k)) (hc.fresh h.fresh)
  case unheard =>
    intro c' hle
    have hle' : b.nextConnectionId ≤ c' := by
      rw [hfinal] at hle
      exact hc.nextConnectionId ▸ hle
    rw [hafter, h.unheard c' hle', ite_self]
  case waiting =>
    intro c' hopen'
    rw [hwaits, hafter]
    by_cases hcc : c' = c
    · rw [if_pos hcc, if_pos hcc]
    · rw [if_neg hcc, if_neg hcc]
      refine h.waiting c' ?_
      rw [← hconns]
      simpa [hfinal, emit, setConnection, hcc] using hopen'
  case inFlight =>
    intro c'
    have hnew : (b'.finalize job r).jobsOf c' = b'.jobsOf c' := by rw [hfinal]; rfl
    have hlen := h.inFlight c'
    rw [jobsOf_finish hpipe hc, List.length_append] at hlen
    rw [hnew, hafter]
    by_cases hcc : c' = c
    · subst hcc
      rw [howed] at hlen
      simp [hj] at hlen
      simp [hlen]
    · simpa [hj, hcc, Ne.symm hcc] using hlen
  case exchanged => exact fun c' => by rw [hafter]; exact hexchanged c'

end OneAnswer

/-- The reply with which a job ends. -/
def jobResult (cfg : Config) (job : Job) (res : JobResult) (b : Broker) : JobReply :=
  if res.status = 0 then (b.jobReply cfg job res).1 else ⟨res.status, res.ret_val, .empty⟩

/-- The condition on a step. -/
def stepAnswered (cfg : Config) (b : Broker) : Event → Bool
  | .request c r =>
      match b.conns c with
      | none => true
      | some k => k.deferred || (!b.breaksOff cfg r && requestAnswered cfg (k.ctx c) b r)
  | _ => true

/-- When the result of a job arrives that carries the context of an open connection, this
connection gets one late answer, the reply of the job, and waits no more. -/
theorem OneAnswer.deliver (cfg : Config) {b : Broker} (h : OneAnswer b) {job : Job}
    {res : JobResult} {rest : List InternalNotification}
    (hpipe : b.pipe = .jobExecuted job res :: rest) {c : Nat} (hj : job.ctx = some c)
    (hopen : (b.conns c).isSome = true) :
    OneAnswer (b.step cfg .deliver) ∧ (b.step cfg .deliver).waits c = false ∧
      ∃ os, (b.step cfg .deliver).log = b.log ++ os ++
          [.deferredResponse c
            (({ b with pipe := rest } : Broker).jobResult cfg job res).response] ∧
        ∀ o ∈ os, o.silent = true := by
  have hlost : b.lostContext (.jobExecuted job res) = false := by
    simp [lostContext, hj, Option.isNone_eq_false_iff.mpr hopen]
  simp only [Broker.step, hpipe, hlost, Bool.false_eq_true, if_false, dispatchInternal,
    handleJobFinished, jobResult]
  have hattach : { b with pipe := rest }.mPendingAttachExtendedJobs = [] := h.attachJobs
  split
  · have hcalm := calm_jobReply cfg job res hattach
    obtain ⟨hone, hidle, hlog⟩ := h.finishWaiting hpipe hj hopen hcalm
      ({ b with pipe := rest }.jobReply cfg job res).1
    obtain ⟨os, hos, hsilent⟩ := hcalm.log
    exact ⟨hone, hidle, os, by rw [hlog, hos], hsilent⟩
  · obtain ⟨hone, hidle, hlog⟩ := h.finishWaiting hpipe hj hopen (.refl _)
      ⟨res.status, res.ret_val, .empty⟩
    exact ⟨hone, hidle, [], by rw [hlog, List.append_nil], by simp⟩

/-- Every step keeps that each connection waits exactly while one job of its is under way. -/
theorem OneAnswer.step {cfg : Config} {b : Broker} {e : Event} (h : OneAnswer b)
    (hc : stepAnswered cfg b e = true) : OneAnswer (b.step cfg e) := by
  cases e with
  | connected nodeAddress localAddress uid => exact h.openConnection nodeAddress localAddress uid
  | request c r =>
      refine h.request ?_
      intro k hk hdeferred hbreaks
      simpa [stepAnswered, hk, hdeferred, hbreaks] using hc
  | closed c => exact h.closeConnection c
  | pulse p value => exact h.calm (calm_dispatchPulse cfg p value b)
  | deliver =>
      obtain hsame | ⟨m, rest, hpipe, hdelivered, hstep⟩ := deliver_cases cfg b
      · rw [hsame]
        exact h
      · have hlost := lostContext_of_delivered hdelivered
        cases m with
        | jobExecuted job res =>
            cases hj : job.ctx with
            | some c => exact (h.deliver cfg hpipe hj (by simpa [lostContext, hj] using hlost)).1
            | none =>
                have h1 : OneAnswer { b with pipe := rest } :=
                  h.finishNobody hpipe (fun j hjob => by cases hjob; exact hj)
                rw [hstep]
                simp only [dispatchInternal, handleJobFinished, finalize, hj]
                split
                · exact h1.calm (calm_jobReply cfg job res h1.attachJobs)
                · exact h1
        | masterConnected =>
            have h1 : OneAnswer { b with pipe := rest } :=
              h.finishNobody hpipe (fun j hjob => by cases hjob)
            rw [hstep]
            exact h1.calm (calm_handleMasterConnected cfg _)
        | masterDisconnected =>
            have h1 : OneAnswer { b with pipe := rest } :=
              h.finishNobody hpipe (fun j hjob => by cases hjob)
            rw [hstep]
            exact h1.calm (calm_handleMasterDisconnected cfg h1.attachJobs)
  | worker w => exact h.workerStep w

-- a count of -2 leaves 60 bytes of the sum for the forwarded job and its answer
example : (Run.run (step slaveConfig) init slaveWithTwoClients).breaksOff slaveConfig
    (.getInterfaceList (-2)) = true := by decide

end Broker

end Dsi
