import Dsi.Broker.Step
import Mathlib.Data.List.Forall2

/-!
# Dsi.Broker.Frame

What the operations on notifications leave alone.  `destroy`, `send` and the
loops built on them touch the notification ID lists of the connections, the
pools, the job queue and the log, and nothing else (`Frame`).  For the loops that
send and erase, the remaining list and the IDs sent are given exactly.
-/

namespace Dsi

open Sequence

namespace Broker

/-! ## The four lists -/

/-- One list is set, the other ones stay. -/
@[simp] theorem notifications_setNotifications (b : Broker) (k k' : NotificationKind)
    (l : List Notification) :
    (b.setNotifications k l).notifications k' = if k' = k then l else b.notifications k' := by
  cases k <;> cases k' <;> rfl

/-- The IDs of the notifications sent so far. -/
def sentIDs (b : Broker) : List UInt32 := b.log.filterMap Output.sentID?

/-- The job that a message in the pipe brings back. -/
def InternalNotification.job? : InternalNotification → Option Job
  | .jobExecuted job _ => some job
  | .masterConnected | .masterDisconnected => none

/-- The jobs whose result is not yet processed, oldest first. -/
def jobsInFlight (b : Broker) : List Job :=
  b.pipe.filterMap InternalNotification.job? ++ b.executing.toList ++ b.mQueue

/-- Is this a `REGISTER_MASTER_INTERFACE_EX` job? -/
def isRegisterJob (j : Job) : Bool :=
  match j.arg with
  | .registerMasterInterfaceEx _ => true
  | _ => false

/-- The `REGISTER_MASTER_INTERFACE_EX` jobs whose result is not yet processed. -/
def registerJobs (b : Broker) : List Job := b.jobsInFlight.filter isRegisterJob

/-- Other jobs are no registrations. -/
theorem registerJobs_eval {j : Job} (h : isRegisterJob j = false) (b : Broker) :
    (b.eval j).registerJobs = b.registerJobs := by
  simp [registerJobs, jobsInFlight, eval, h]

/-- The jobs handed to the master so far. -/
def jobs (b : Broker) : List Job := b.log.filterMap Output.job?

/-- A job goes behind the jobs before it. -/
theorem jobs_eval (j : Job) (b : Broker) : (b.eval j).jobs = b.jobs ++ [j] := by
  simp [jobs, eval, Output.job?]

/-- The jobs for the elements of a list go to the queue in their order. -/
theorem foldl_eval {α : Type} (f : α → Job) (l : List α) (b : Broker) :
    l.foldl (fun b x => b.eval (f x)) b =
      { b with mQueue := b.mQueue ++ l.map f, log := b.log ++ (l.map f).map .job } := by
  induction l generalizing b with
  | nil => simp
  | cons x xs ih =>
      rw [List.foldl_cons, ih]
      simp [eval]

/-- The jobs of `registerInterfacesMaster`. -/
def registerBatches (cfg : Config) (b : Broker) : List Job :=
  (batches MAX_MULTIPLE_COUNT []
      ((b.mConnectedServers.entries.filter (registerEligible cfg)).map registerRecord)).map
    (fun batch => ⟨UInt32.ofNat batch.length, none, .registerMasterInterfaceEx batch⟩)

/-- The registrations at the master: one batch after the other, and the entries that are sent are
marked. -/
theorem registerInterfacesMaster_eq (cfg : Config) (b : Broker) :
    b.registerInterfacesMaster cfg =
      if b.isMasterConnected cfg then
        { b with
          mConnectedServers := b.mConnectedServers.mapMasterID
            (fun e => if registerEligible cfg e then pendingMasterID else e.masterID)
          mQueue := b.mQueue ++ b.registerBatches cfg
          log := b.log ++ (b.registerBatches cfg).map .job }
      else b := by
  unfold registerInterfacesMaster
  dsimp only
  rw [foldl_eval]
  rfl

/-- What `registerInterfacesMaster` leaves alone. -/
theorem registerInterfacesMaster_frame (cfg : Config) (b : Broker) :
    (∀ k, (b.registerInterfacesMaster cfg).notifications k = b.notifications k) ∧
      (b.registerInterfacesMaster cfg).sNextNotificationID = b.sNextNotificationID ∧
      (b.registerInterfacesMaster cfg).sentIDs = b.sentIDs ∧
      (b.registerInterfacesMaster cfg).mMasterNotificationPool = b.mMasterNotificationPool ∧
      (b.registerInterfacesMaster cfg).mPendingAttachExtendedJobs =
        b.mPendingAttachExtendedJobs ∧
      (b.registerInterfacesMaster cfg).mAttachedClients = b.mAttachedClients ∧
      (b.registerInterfacesMaster cfg).conns = b.conns ∧
      (b.registerInterfacesMaster cfg).phase = b.phase := by
  rw [registerInterfacesMaster_eq]
  split
  · refine ⟨fun _ => rfl, rfl, ?_, rfl, rfl, rfl, rfl, rfl⟩
    simp [sentIDs, List.filterMap_append, List.filterMap_map, Function.comp_def, Output.sentID?]
  · exact ⟨fun _ => rfl, rfl, rfl, rfl, rfl, rfl, rfl, rfl⟩

/-- `l` is `ns` up to the pool IDs. -/
def Repooled (ns l : List Notification) : Prop :=
  List.Forall₂ (fun n n' => ∃ p, n' = { n with poolID := p }) ns l

/-- What does not depend on the pool stays. -/
theorem Repooled.map_eq {β : Type} {g : Notification → β}
    (hg : ∀ n p, g { n with poolID := p } = g n) {ns l : List Notification}
    (h : Repooled ns l) : l.map g = ns.map g := by
  induction h with
  | nil => rfl
  | cons hn _ ih =>
      obtain ⟨p, rfl⟩ := hn
      rw [List.map_cons, List.map_cons, hg, ih]

/-- Forwarding changes pools and jobs only. -/
theorem forwardLoop_frame (cfg : Config) (ns : List Notification) (b : Broker) :
    (forwardLoop cfg ns b).2.2 = { b with
        mMasterNotificationPool := (forwardLoop cfg ns b).2.2.mMasterNotificationPool
        nextPoolID := (forwardLoop cfg ns b).2.2.nextPoolID } ∧
      Repooled ns (forwardLoop cfg ns b).1 := by
  induction ns generalizing b with
  | nil => exact ⟨rfl, .nil⟩
  | cons n ns ih =>
      rw [forwardLoop]
      split
      · split
        · exact ⟨(ih b).1, .cons ⟨_, rfl⟩ (ih b).2⟩
        · have hnew := ih (b.addPoolDescription n.ifDescription false)
          exact ⟨hnew.1, .cons ⟨_, rfl⟩ hnew.2⟩
      · exact ⟨(ih b).1, .cons ⟨n.poolID, rfl⟩ (ih b).2⟩

/-- The counter of the pools never runs backwards. -/
theorem nextPoolID_le_forwardLoop (cfg : Config) (ns : List Notification) (b : Broker) :
    b.nextPoolID ≤ (forwardLoop cfg ns b).2.2.nextPoolID := by
  induction ns generalizing b with
  | nil => exact Nat.le_refl _
  | cons n ns ih =>
      rw [forwardLoop]
      split
      · split
        · exact ih b
        · exact Nat.le_of_succ_le (ih (b.addPoolDescription n.ifDescription false))
      · exact ih b

/-- `forwardServerAvailableNotifications` writes the result of its loop and sends
jobs. -/
theorem forward_eq {cfg : Config} {b : Broker} (h : b.isMasterConnected cfg = true) :
    ∃ js, b.forwardServerAvailableNotifications cfg =
        { b with
          mServerConnectNotifications := (forwardLoop cfg b.mServerConnectNotifications b).1
          mMasterNotificationPool :=
            (forwardLoop cfg b.mServerConnectNotifications b).2.2.mMasterNotificationPool
          nextPoolID := (forwardLoop cfg b.mServerConnectNotifications b).2.2.nextPoolID
          mQueue := b.mQueue ++ js
          log := b.log ++ js.map .job } ∧
      ∀ j ∈ js, isRegisterJob j = false := by
  have hframe := (forwardLoop_frame cfg b.mServerConnectNotifications b).1
  unfold forwardServerAvailableNotifications
  rw [if_pos h]
  dsimp only
  rw [foldl_eval, hframe]
  refine ⟨_, rfl, ?_⟩
  intro j hj
  obtain ⟨batch, _, rfl⟩ := List.mem_map.mp hj
  rfl

/-- `forwardServerAvailableNotifications` writes the pool IDs of the connect
notifications, creates pools and sends jobs. -/
theorem forward_cases (cfg : Config) (b : Broker) :
    ∃ l pools next js,
      b.forwardServerAvailableNotifications cfg =
          { b with mServerConnectNotifications := l, mMasterNotificationPool := pools,
                   nextPoolID := next, mQueue := b.mQueue ++ js,
                   log := b.log ++ js.map .job } ∧
        Repooled b.mServerConnectNotifications l ∧ ∀ j ∈ js, isRegisterJob j = false := by
  cases hmaster : b.isMasterConnected cfg with
  | true =>
      obtain ⟨js, hb, hjs⟩ := forward_eq hmaster
      exact ⟨_, _, _, js, hb, (forwardLoop_frame cfg _ b).2, hjs⟩
  | false =>
      refine ⟨b.mServerConnectNotifications, b.mMasterNotificationPool, b.nextPoolID, [],
        by simp [forwardServerAvailableNotifications, hmaster], ?_, by simp⟩
      exact List.forall₂_same.mpr (fun n _ => ⟨n.poolID, rfl⟩)

/-! ## Frame -/

/-- The notification IDs of a connection, as `removeNotificationsOf` reads them. -/
def notificationList (c : Nat) (b : Broker) : List UInt32 :=
  ((b.data? c).map (·.mNotificationList)).getD []

/-- The list of IDs is kept with the connection. -/
theorem notificationList_eq (c : Nat) (b : Broker) :
    b.notificationList c = (b.dataOf c).mNotificationList := by
  unfold notificationList dataOf
  cases b.data? c <;> rfl

/-- The job of `createClearNotificationJob`. -/
def clearJob (notificationID : UInt32) : Job := ⟨0, none, .clearNotification notificationID⟩

/-- `b'` differs from `b` at most in the notification ID lists of the
connections, where nothing is added, the pools, the job queue, which gets clear jobs
only, and the log. -/
structure Frame (b b' : Broker) : Prop where
  servers : b'.mConnectedServers = b.mConnectedServers
  clients : b'.mAttachedClients = b.mAttachedClients
  notifications : ∀ k, b'.notifications k = b.notifications k
  remoteRequests : b'.mPendingRemoteServersRequests = b.mPendingRemoteServersRequests
  attachJobs : b'.mPendingAttachExtendedJobs = b.mPendingAttachExtendedJobs
  nextClientID : b'.mNextClientID = b.mNextClientID
  nextServerID : b'.mNextServerID = b.mNextServerID
  nextRequestID : b'.mNextPendingRemoteServerRequestID = b.mNextPendingRemoteServerRequestID
  nextNotificationID : b'.sNextNotificationID = b.sNextNotificationID
  nextPoolID : b'.nextPoolID = b.nextPoolID
  nextConnectionId : b'.nextConnectionId = b.nextConnectionId
  conns : ∀ c, (b'.conns c).map Connection.core = (b.conns c).map Connection.core
  lists : ∀ c, b'.notificationList c ⊆ b.notificationList c
  phase : b'.phase = b.phase
  executing : b'.executing = b.executing
  pipe : b'.pipe = b.pipe
  registerJobs : b'.registerJobs = b.registerJobs
  clears : ∃ ids : List UInt32, b'.jobs = b.jobs ++ ids.map clearJob
  log : b.log <+: b'.log

namespace Frame

variable {b b' b'' : Broker}

theorem refl (b : Broker) : Frame b b := by
  constructor
  case clears => exact ⟨[], (List.append_nil _).symm⟩
  case log => exact List.prefix_rfl
  case lists => exact fun c => List.Subset.refl _
  all_goals intros; rfl

theorem trans (h : Frame b b') (h' : Frame b' b'') : Frame b b'' where
  servers := h'.servers.trans h.servers
  clients := h'.clients.trans h.clients
  notifications k := (h'.notifications k).trans (h.notifications k)
  remoteRequests := h'.remoteRequests.trans h.remoteRequests
  attachJobs := h'.attachJobs.trans h.attachJobs
  nextClientID := h'.nextClientID.trans h.nextClientID
  nextServerID := h'.nextServerID.trans h.nextServerID
  nextRequestID := h'.nextRequestID.trans h.nextRequestID
  nextNotificationID := h'.nextNotificationID.trans h.nextNotificationID
  nextPoolID := h'.nextPoolID.trans h.nextPoolID
  nextConnectionId := h'.nextConnectionId.trans h.nextConnectionId
  conns c := (h'.conns c).trans (h.conns c)
  lists c := List.Subset.trans (h'.lists c) (h.lists c)
  phase := h'.phase.trans h.phase
  executing := h'.executing.trans h.executing
  pipe := h'.pipe.trans h.pipe
  registerJobs := h'.registerJobs.trans h.registerJobs
  clears := by
    obtain ⟨ids, h⟩ := h.clears
    obtain ⟨ids', h'⟩ := h'.clears
    exact ⟨ids ++ ids', by rw [h', h, List.map_append, List.append_assoc]⟩
  log := h.log.trans h'.log

end Frame

section Operations

variable (cfg : Config)

/-- A notification is cleared at the master by a job. -/
theorem frame_createClearNotificationJob (id : UInt32) (b : Broker) :
    Frame b (b.createClearNotificationJob cfg id) := by
  unfold createClearNotificationJob evalMaster
  split
  · constructor
    case registerJobs => exact registerJobs_eval rfl b
    case clears => exact ⟨[id], jobs_eval _ b⟩
    case log => exact List.prefix_append _ _
    case lists => exact fun c => List.Subset.refl _
    all_goals intros; rfl
  · exact Frame.refl b

/-- The ID of a notification that goes leaves the list of its connection. -/
theorem frame_modifyData_removeNotification (c : Nat) (id : UInt32) (b : Broker) :
    Frame b (b.modifyData c (·.removeNotification id)) := by
  constructor
  case conns =>
    intro c'
    by_cases h : c' = c
    · subst h
      simp only [modifyData, setConnection, if_true, Option.map_map]
      rfl
    · simp only [modifyData, setConnection, if_neg h]
  case lists =>
    intro c' x hx
    by_cases h : c' = c
    · subst h
      simp only [notificationList, data?, modifyData, setConnection, if_true,
        Option.map_map] at hx ⊢
      cases hk : b.conns c' with
      | none => rw [hk] at hx; exact hx
      | some k => rw [hk] at hx; exact mem_of_mem_removeShift hx
    · simpa only [notificationList, data?, modifyData, setConnection, if_neg h] using hx
  case clears => exact ⟨[], (List.append_nil _).symm⟩
  case log => exact List.prefix_rfl
  all_goals intros; rfl

/-- The pools are not framed. -/
theorem frame_setPools (b : Broker) (l : NotificationPool) :
    Frame b { b with mMasterNotificationPool := l } := by
  constructor
  case clears => exact ⟨[], (List.append_nil _).symm⟩
  case log => exact List.prefix_rfl
  case lists => exact fun c => List.Subset.refl _
  all_goals intros; rfl

/-- A pool that loses its last member is cleared at the master. -/
theorem frame_detachPool (pos : Nat) (b : Broker) : Frame b (b.detachPool cfg pos) := by
  unfold detachPool
  split
  · exact Frame.refl b
  · dsimp only
    split
    · split
      · exact (frame_setPools b _).trans (frame_createClearNotificationJob cfg _ _)
      · exact frame_setPools b _
    · exact frame_setPools b _

/-- The ID goes from the connection that made it, if it is still there. -/
theorem frame_unhost (n : Notification) (b : Broker) : Frame b (b.unhost n) := by
  unfold unhost
  split
  · exact frame_modifyData_removeNotification _ _ b
  · exact Frame.refl b

/-- The master's notification is released with its pool or by its ID. -/
theorem frame_releaseMaster (n : Notification) (b : Broker) :
    Frame b (b.releaseMaster cfg n) := by
  unfold releaseMaster
  split
  · split
    · exact frame_detachPool cfg _ b
    · exact Frame.refl b
  · split
    · exact frame_createClearNotificationJob cfg _ b
    · exact Frame.refl b

/-- A notification that is destroyed leaves its connection and its pool. -/
theorem frame_destroy (n : Notification) (b : Broker) : Frame b (b.destroy cfg n) :=
  (frame_unhost n b).trans (frame_releaseMaster cfg n _)

/-- A pulse channel is connected or not, and nothing else happens. -/
theorem frame_doConnect (n : Notification) (b : Broker) : Frame b (b.doConnect cfg n).2 := by
  unfold doConnect
  dsimp only
  split <;>
  · constructor
    case clears => exact ⟨[], (List.append_nil _).symm⟩
    case log => exact List.prefix_rfl
    case lists => exact fun c => List.Subset.refl _
    all_goals intros; rfl

/-- What is no job and what is said outside changes no table. -/
theorem frame_emit {o : Output} (h : o.job? = none) (b : Broker) : Frame b (b.emit o) := by
  constructor
  case clears => exact ⟨[], by simp [jobs, emit, h]⟩
  case log => exact List.prefix_append _ _
  case lists => exact fun c => List.Subset.refl _
  all_goals intros; rfl

/-- A notification that is sent connects its channel first. -/
theorem frame_send (n : Notification) (b : Broker) : Frame b (b.send cfg n).2 := by
  unfold send
  dsimp only
  split
  · exact frame_emit rfl b
  · exact (frame_doConnect cfg n b).trans (frame_emit rfl _)

/-- A notification that is sent stays in its pool. -/
theorem pools_send (n : Notification) (b : Broker) :
    (b.send cfg n).2.mMasterNotificationPool = b.mMasterNotificationPool := by
  unfold send doConnect
  dsimp only
  split
  · rfl
  · split <;> rfl

/-- A sent notification keeps everything but its pulse channel. -/
theorem send_fst (n : Notification) (b : Broker) :
    ∃ pulse coid, (b.send cfg n).1 = { n with pulse := pulse, coid := coid } := by
  unfold send doConnect
  dsimp only
  split
  · exact ⟨n.pulse, n.coid, rfl⟩
  · split
    · exact ⟨n.pulse, true, rfl⟩
    · exact ⟨_, false, rfl⟩

/-- A sweep destroys and sends notifications, one after the other. -/
theorem frame_sweepLoop (once : Bool) (act : Broker → Notification → Action)
    (ns : List Notification) (b : Broker) : Frame b (sweepLoop cfg once act ns b).2 := by
  induction ns generalizing b with
  | nil => exact Frame.refl b
  | cons n ns ih =>
      rw [sweepLoop]
      split
      · exact ih b
      · exact ih b
      · have hsend := frame_send cfg n b
        dsimp only
        split
        · exact hsend
        · exact hsend.trans (ih _)
      · have hfire := (frame_send cfg n b).trans (frame_destroy cfg (b.send cfg n).1 _)
        dsimp only
        split
        · exact hfire
        · exact hfire.trans (ih _)
      · have hdrop := frame_destroy cfg n b
        dsimp only
        split
        · exact hdrop
        · exact hdrop.trans (ih _)

/-! ## What the loops send and keep -/

/-- Nothing is sent where a notification is cleared at the master. -/
theorem sentIDs_createClearNotificationJob (id : UInt32) (b : Broker) :
    (b.createClearNotificationJob cfg id).sentIDs = b.sentIDs := by
  unfold createClearNotificationJob evalMaster
  split
  · simp [sentIDs, eval, Output.sentID?]
  · rfl

/-- Nothing is sent where a notification is destroyed. -/
theorem sentIDs_destroy (n : Notification) (b : Broker) :
    (b.destroy cfg n).sentIDs = b.sentIDs := by
  have hhost : (b.unhost n).sentIDs = b.sentIDs := by
    unfold unhost
    split <;> rfl
  rw [destroy, ← hhost]
  generalize b.unhost n = b
  unfold releaseMaster
  split
  · split
    · unfold detachPool
      split
      · rfl
      · dsimp only
        split
        · split
          · exact sentIDs_createClearNotificationJob cfg _ _
          · rfl
        · rfl
    · rfl
  · split
    · exact sentIDs_createClearNotificationJob cfg _ _
    · rfl

/-- A notification that is sent is the last one of those that were. -/
theorem sentIDs_send (n : Notification) (b : Broker) :
    (b.send cfg n).2.sentIDs = b.sentIDs ++ [n.notificationID] := by
  unfold send doConnect
  dsimp only
  split
  · simp [sentIDs, emit, Output.sentID?]
  · split <;> simp [sentIDs, emit, Output.sentID?]

/-- Does the loop send the notification? -/
def Action.sends : Action → Bool
  | .notify | .fire => true
  | .keep | .deactivate | .drop => false

/-- What becomes of a notification that a loop does not erase. -/
inductive Residue (a : Action) (n : Notification) : Notification → Prop where
  | kept (h : a = .keep) : Residue a n n
  | deactivated (h : a = .deactivate) : Residue a n { n with active := false }
  | notified (h : a = .notify) (pulse : SFNDPulseInfo) (coid : Bool) :
      Residue a n { n with pulse := pulse, coid := coid }

/-- A loop over the whole list whose decisions do not look at what the loop changes. -/
theorem sentIDs_sweepLoop {act : Broker → Notification → Action} {a : Notification → Action}
    (ns : List Notification) (b : Broker) (hact : ∀ b', Frame b b' → ∀ n, act b' n = a n) :
    (sweepLoop cfg false act ns b).2.sentIDs =
      b.sentIDs ++ (ns.filter (fun n => (a n).sends)).map (·.notificationID) := by
  induction ns generalizing b with
  | nil => simp [sweepLoop]
  | cons n ns ih =>
      have hsend := frame_send cfg n b
      have hfire := hsend.trans (frame_destroy cfg (b.send cfg n).1 _)
      have hrest := fun b' h => ih b' (fun b'' h' => hact b'' (Frame.trans h h'))
      rw [sweepLoop, hact b (Frame.refl b), List.filter_cons]
      cases a n with
      | keep => simp [Action.sends, hrest b (Frame.refl b)]
      | deactivate => simp [Action.sends, hrest b (Frame.refl b)]
      | notify => simp [Action.sends, hrest _ hsend, sentIDs_send]
      | fire => simp [Action.sends, hrest _ hfire, sentIDs_send, sentIDs_destroy]
      | drop => simp [Action.sends, hrest _ (frame_destroy cfg n b), sentIDs_destroy]

/-- What a sweep leaves of a notification, its action says. -/
theorem mem_sweepLoop {act : Broker → Notification → Action} {a : Notification → Action}
    {ns : List Notification} {b : Broker} (hact : ∀ b', Frame b b' → ∀ n, act b' n = a n)
    {n' : Notification} (h : n' ∈ (sweepLoop cfg false act ns b).1) :
    ∃ n ∈ ns, Residue (a n) n n' := by
  induction ns generalizing b with
  | nil => exact absurd h List.not_mem_nil
  | cons n ns ih =>
      have hrest : ∀ b', Frame b b' → n' ∈ (sweepLoop cfg false act ns b').1 →
          ∃ m ∈ n :: ns, Residue (a m) m n' := by
        intro b' hf h
        obtain ⟨m, hm, hr⟩ := ih (fun b'' h' => hact b'' (hf.trans h')) h
        exact ⟨m, List.mem_cons_of_mem _ hm, hr⟩
      have hsend := frame_send cfg n b
      rw [sweepLoop, hact b (Frame.refl b)] at h
      cases ha : a n with
      | keep =>
          rw [ha] at h
          cases List.mem_cons.mp h with
          | inl h =>
              refine ⟨n, List.mem_cons_self, ?_⟩
              rw [h]
              exact .kept ha
          | inr h => exact hrest _ (Frame.refl b) h
      | deactivate =>
          rw [ha] at h
          cases List.mem_cons.mp h with
          | inl h =>
              refine ⟨n, List.mem_cons_self, ?_⟩
              rw [h]
              exact .deactivated ha
          | inr h => exact hrest _ (Frame.refl b) h
      | notify =>
          rw [ha] at h
          obtain ⟨pulse, coid, hs⟩ := send_fst cfg n b
          cases List.mem_cons.mp h with
          | inl h =>
              refine ⟨n, List.mem_cons_self, ?_⟩
              rw [h, hs]
              exact .notified ha pulse coid
          | inr h => exact hrest _ hsend h
      | fire => rw [ha] at h; exact hrest _ (hsend.trans (frame_destroy cfg _ _)) h
      | drop => rw [ha] at h; exact hrest _ (frame_destroy cfg n b) h

/-- `n'` is `n` up to the pulse channel, and no more active. -/
def Remains (n n' : Notification) : Prop :=
  ∃ pulse coid active, n' = { n with pulse := pulse, coid := coid, active := active } ∧
    (active = true → n.active = true)

/-- A notification that nothing happens to remains. -/
theorem Remains.refl (n : Notification) : Remains n n := ⟨n.pulse, n.coid, n.active, rfl, id⟩

/-- What stays in a list after any loop. -/
theorem remains_of_mem_sweepLoop {once : Bool} {act : Broker → Notification → Action}
    {ns : List Notification} {b : Broker} {n' : Notification}
    (h : n' ∈ (sweepLoop cfg once act ns b).1) : ∃ n ∈ ns, Remains n n' := by
  induction ns generalizing b with
  | nil => exact absurd h List.not_mem_nil
  | cons n ns ih =>
      have hrest : ∀ b, n' ∈ (sweepLoop cfg once act ns b).1 → ∃ m ∈ n :: ns, Remains m n' := by
        intro b h
        obtain ⟨m, hm, hr⟩ := ih h
        exact ⟨m, List.mem_cons_of_mem _ hm, hr⟩
      have htail : n' ∈ ns → ∃ m ∈ n :: ns, Remains m n' :=
        fun h => ⟨n', List.mem_cons_of_mem _ h, .refl n'⟩
      have hhead : ∀ m, Remains n m → n' = m → ∃ m ∈ n :: ns, Remains m n' :=
        fun m hr he => ⟨n, List.mem_cons_self, he ▸ hr⟩
      obtain ⟨pulse, coid, hs⟩ := send_fst cfg n b
      have hsent : Remains n (b.send cfg n).1 := ⟨pulse, coid, n.active, hs, id⟩
      rw [sweepLoop] at h
      split at h
      · exact (List.mem_cons.mp h).elim (hhead n (.refl n)) (hrest b)
      · exact (List.mem_cons.mp h).elim (hhead _ ⟨n.pulse, n.coid, false, rfl, by simp⟩) (hrest b)
      · dsimp only at h
        split at h
        · exact (List.mem_cons.mp h).elim (hhead _ hsent) htail
        · exact (List.mem_cons.mp h).elim (hhead _ hsent) (hrest _)
      · dsimp only at h
        split at h
        · exact htail h
        · exact hrest _ h
      · dsimp only at h
        split at h
        · exact htail h
        · exact hrest _ h

/-- A notification that the loop always keeps stays. -/
theorem mem_sweepLoop_of_keep (once : Bool) {act : Broker → Notification → Action}
    {ns : List Notification} {b : Broker} {n : Notification} (hn : n ∈ ns)
    (hact : ∀ b', Frame b b' → act b' n = .keep) : n ∈ (sweepLoop cfg once act ns b).1 := by
  induction ns generalizing b with
  | nil => exact absurd hn List.not_mem_nil
  | cons x xs ih =>
      by_cases hx : x = n
      · subst hx
        rw [sweepLoop, hact b (.refl b)]
        exact List.mem_cons_self
      · have hxs : n ∈ xs := (List.mem_cons.mp hn).resolve_left (fun he => hx he.symm)
        have hrest : ∀ b', Frame b b' → n ∈ (sweepLoop cfg once act xs b').1 :=
          fun b' hf => ih hxs (fun b'' h' => hact b'' (hf.trans h'))
        have hsend := frame_send cfg x b
        rw [sweepLoop]
        split
        · exact List.mem_cons_of_mem _ (hrest b (.refl b))
        · exact List.mem_cons_of_mem _ (hrest b (.refl b))
        · dsimp only
          split
          · exact List.mem_cons_of_mem _ hxs
          · exact List.mem_cons_of_mem _ (hrest _ hsend)
        · dsimp only
          split
          · exact hxs
          · exact hrest _ (hsend.trans (frame_destroy cfg _ _))
        · dsimp only
          split
          · exact hxs
          · exact hrest _ (frame_destroy cfg x b)

/-- The IDs that stay in a list are in the old order. -/
theorem ids_sweepLoop_sublist (once : Bool) (act : Broker → Notification → Action)
    (ns : List Notification) (b : Broker) :
    ((sweepLoop cfg once act ns b).1.map (·.notificationID)).Sublist
      (ns.map (·.notificationID)) := by
  induction ns generalizing b with
  | nil => exact List.Sublist.refl _
  | cons n ns ih =>
      rw [sweepLoop]
      split
      · exact (ih b).cons_cons _
      · exact (ih b).cons_cons _
      · obtain ⟨pulse, coid, hs⟩ := send_fst cfg n b
        dsimp only
        split
        · rw [hs]; exact List.Sublist.refl _
        · rw [hs]; exact (ih _).cons_cons _
      · dsimp only
        split
        · exact List.sublist_cons_self _ _
        · exact (ih _).cons _
      · dsimp only
        split
        · exact List.sublist_cons_self _ _
        · exact (ih _).cons _

/-- The loops that send and erase leave exactly the other notifications. -/
theorem sweepLoop_fireIf (p : Notification → Bool) (ns : List Notification) (b : Broker) :
    (sweepLoop cfg false (fireIf p) ns b).1 = ns.filter (fun n => !(n.active && p n)) := by
  induction ns generalizing b with
  | nil => rfl
  | cons n ns ih =>
      rw [sweepLoop, List.filter_cons]
      cases hn : n.active && p n with
      | true => simp [fireIf, hn, ih]
      | false => simp [fireIf, hn, ih]

/-! ## Whole loops -/

/-- A sweep runs over one list and puts it back. -/
theorem sweep_eq (once : Bool) (k : NotificationKind) (act : Broker → Notification → Action)
    (b : Broker) :
    b.sweep cfg once k act = (sweepLoop cfg once act (b.notifications k) b).2.setNotifications k
      (sweepLoop cfg once act (b.notifications k) b).1 := rfl

variable (once : Bool) (k : NotificationKind) (act : Broker → Notification → Action) (b : Broker)

/-- A sweep changes one list. -/
theorem notifications_sweep (k' : NotificationKind) :
    (b.sweep cfg once k act).notifications k' =
      if k' = k then (sweepLoop cfg once act (b.notifications k) b).1 else b.notifications k' := by
  rw [sweep_eq, notifications_setNotifications, (frame_sweepLoop cfg once act _ b).notifications]

/-- The other lists stay. -/
theorem notifications_sweep_of_ne {k' : NotificationKind} (h : k' ≠ k) :
    (b.sweep cfg once k act).notifications k' = b.notifications k' := by
  rw [notifications_sweep, if_neg h]

/-- The servers stay in a sweep. -/
@[simp] theorem servers_sweep :
    (b.sweep cfg once k act).mConnectedServers = b.mConnectedServers := by
  cases k <;> exact (frame_sweepLoop cfg once act _ b).servers

/-- The clients stay in a sweep. -/
@[simp] theorem clients_sweep :
    (b.sweep cfg once k act).mAttachedClients = b.mAttachedClients := by
  cases k <;> exact (frame_sweepLoop cfg once act _ b).clients

/-- A sweep makes no notification. -/
@[simp] theorem nextNotificationID_sweep :
    (b.sweep cfg once k act).sNextNotificationID = b.sNextNotificationID := by
  cases k <;> exact (frame_sweepLoop cfg once act _ b).nextNotificationID

/-- A sweep makes no pool. -/
@[simp] theorem nextPoolID_sweep :
    (b.sweep cfg once k act).nextPoolID = b.nextPoolID := by
  cases k <;> exact (frame_sweepLoop cfg once act _ b).nextPoolID

/-- No attach waits for another one because of a sweep. -/
@[simp] theorem attachJobs_sweep :
    (b.sweep cfg once k act).mPendingAttachExtendedJobs = b.mPendingAttachExtendedJobs := by
  cases k <;> exact (frame_sweepLoop cfg once act _ b).attachJobs

/-- A sweep does not touch the connection to the master. -/
@[simp] theorem phase_sweep : (b.sweep cfg once k act).phase = b.phase := by
  cases k <;> exact (frame_sweepLoop cfg once act _ b).phase

/-- The master is connected behind a sweep if it was before. -/
@[simp] theorem isMasterConnected_sweep :
    (b.sweep cfg once k act).isMasterConnected cfg = b.isMasterConnected cfg := by
  rw [isMasterConnected, phase_sweep, isMasterConnected]

/-- A sweep registers nothing at the master. -/
@[simp] theorem registerJobs_sweep :
    (b.sweep cfg once k act).registerJobs = b.registerJobs := by
  cases k <;> exact (frame_sweepLoop cfg once act _ b).registerJobs

/-- A sweep takes nothing back that was seen outside. -/
theorem log_sweep : b.log <+: (b.sweep cfg once k act).log := by
  cases k <;> exact (frame_sweepLoop cfg once act _ b).log

/-- The only jobs of a sweep clear notifications at the master. -/
theorem clears_sweep : ∃ ids : List UInt32,
    (b.sweep cfg once k act).jobs = b.jobs ++ ids.map clearJob := by
  cases k <;> exact (frame_sweepLoop cfg once act _ b).clears

/-- Of a connection a sweep changes the list of notifications only. -/
theorem conns_sweep (c : Nat) :
    ((b.sweep cfg once k act).conns c).map Connection.core =
      (b.conns c).map Connection.core := by
  cases k <;> exact (frame_sweepLoop cfg once act _ b).conns c

/-- And takes IDs out of it. -/
theorem lists_sweep (c : Nat) :
    (b.sweep cfg once k act).notificationList c ⊆ b.notificationList c := by
  cases k <;> exact (frame_sweepLoop cfg once act _ b).lists c

/-- A notification that the action keeps is there behind the sweep. -/
theorem mem_sweep_of_keep {act : Broker → Notification → Action} {n : Notification}
    (hn : n ∈ b.notifications k) (hact : ∀ b', Frame b b' → act b' n = .keep) :
    n ∈ (b.sweep cfg once k act).notifications k := by
  rw [notifications_sweep, if_pos rfl]
  exact mem_sweepLoop_of_keep cfg once hn hact

/-- A list that is set sends nothing. -/
@[simp] theorem sentIDs_setNotifications (l : List Notification) :
    (b.setNotifications k l).sentIDs = b.sentIDs := by
  cases k <;> rfl

/-- A sweep sends the notifications whose action does, in the order of the list. -/
theorem sentIDs_sweep {act : Broker → Notification → Action} {a : Notification → Action}
    (hact : ∀ b n, act b n = a n) :
    (b.sweep cfg false k act).sentIDs =
      b.sentIDs ++ ((b.notifications k).filter (fun n => (a n).sends)).map (·.notificationID) := by
  rw [sweep_eq, sentIDs_setNotifications, sentIDs_sweepLoop cfg _ b (fun b' _ => hact b')]

/-- A trigger takes the active notifications that meet its condition. -/
theorem notifications_sweep_fireIf (p : Notification → Bool) :
    (b.sweep cfg false k (fireIf p)).notifications k =
      (b.notifications k).filter (fun n => !(n.active && p n)) := by
  rw [notifications_sweep, if_pos rfl, sweepLoop_fireIf]

/-- And sends them, in the order of the list. -/
theorem sentIDs_sweep_fireIf (p : Notification → Bool) :
    (b.sweep cfg false k (fireIf p)).sentIDs =
      b.sentIDs ++ ((b.notifications k).filter (fun n => n.active && p n)).map
        (·.notificationID) := by
  have hact : ∀ b n, fireIf p b n = if n.active && p n then .fire else .keep := fun _ _ => rfl
  rw [sentIDs_sweep cfg k b hact]
  congr 2
  apply List.filter_congr
  intro n _
  cases n.active && p n <;> rfl

/-- What is there behind a sweep was there before. -/
theorem remains_of_mem_sweep {k' : NotificationKind} {n' : Notification}
    (h : n' ∈ (b.sweep cfg once k act).notifications k') :
    ∃ n ∈ b.notifications k', Remains n n' := by
  rw [notifications_sweep] at h
  split at h
  · next hk => rw [hk]; exact remains_of_mem_sweepLoop cfg h
  · exact ⟨n', h, .refl n'⟩

/-- A sweep brings no ID and keeps the order. -/
theorem ids_sweep_sublist (k' : NotificationKind) :
    (((b.sweep cfg once k act).notifications k').map (·.notificationID)).Sublist
      ((b.notifications k').map (·.notificationID)) := by
  rw [notifications_sweep]
  split
  · next h => rw [h]; exact ids_sweepLoop_sublist cfg once act _ b
  · exact List.Sublist.refl _

end Operations

/-! ## New notifications -/

/-- The next notification, connected or not. -/
def fresh (b : Broker) (nid : UInt32) (pulse : SFNDPulseInfo) (coid : Bool) : Notification :=
  { notificationID := UInt32.ofNat (b.sNextNotificationID + 1), pulse := pulse, coid := coid,
    nid := nid }

/-- The state behind the creation of a notification that is not in a list yet. -/
def created (b : Broker) (attachCalls : Nat) : Broker :=
  { b with sNextNotificationID := b.sNextNotificationID + 1, attachCalls := attachCalls }

/-- `addNotification` puts a fresh notification in front of the list, or fails
after creating it. -/
theorem addNotification_cases (cfg : Config) (k : NotificationKind)
    (ctx : SocketConnectionContext) (pulse : SFNDPulseInfo) (setup : Notification → Notification)
    (b : Broker) :
    ∃ attachCalls pulse' coid,
      b.addNotification cfg k ctx pulse setup =
          (UInt32.ofNat (b.sNextNotificationID + 1),
            (b.created attachCalls).setNotifications k
              (setup (b.fresh ctx.mNodeAddress pulse' coid) :: b.notifications k)) ∨
        b.addNotification cfg k ctx pulse setup =
          (INVALID_NOTIFICATION_ID, b.created attachCalls) := by
  unfold addNotification connect doConnect
  dsimp only
  split
  · split
    · exact ⟨_, pulse, true, Or.inl rfl⟩
    · exact ⟨_, pulse, false, Or.inr rfl⟩
  · exact ⟨b.attachCalls, pulse, false, Or.inl rfl⟩

/-- The connection of a client that is no slave is not opened yet, so that nothing
can fail. -/
theorem addNotification_of_not_slave (cfg : Config) (k : NotificationKind)
    {ctx : SocketConnectionContext} (h : ctx.mSlave = false) (pulse : SFNDPulseInfo)
    (setup : Notification → Notification) (b : Broker) :
    b.addNotification cfg k ctx pulse setup =
      (UInt32.ofNat (b.sNextNotificationID + 1),
        (b.created b.attachCalls).setNotifications k
          (setup (b.fresh ctx.mNodeAddress pulse false) :: b.notifications k)) := by
  unfold addNotification connect
  dsimp only
  rw [h]
  rfl

/-- A new notification does not touch the connection to the master. -/
theorem phase_addNotification (cfg : Config) (k : NotificationKind)
    (ctx : SocketConnectionContext) (pulse : SFNDPulseInfo) (setup : Notification → Notification)
    (b : Broker) : (b.addNotification cfg k ctx pulse setup).2.phase = b.phase := by
  obtain ⟨a, p, coid, h | h⟩ := addNotification_cases cfg k ctx pulse setup b
  · rw [h]; cases k <;> rfl
  · rw [h]; rfl

/-- Nor the servers. -/
theorem servers_addNotification (cfg : Config) (k : NotificationKind)
    (ctx : SocketConnectionContext) (pulse : SFNDPulseInfo) (setup : Notification → Notification)
    (b : Broker) :
    (b.addNotification cfg k ctx pulse setup).2.mConnectedServers = b.mConnectedServers := by
  obtain ⟨a, p, coid, h | h⟩ := addNotification_cases cfg k ctx pulse setup b
  · rw [h]; cases k <;> rfl
  · rw [h]; rfl

attribute [simp] trigger triggerDescription triggerID triggerPool triggerList triggerNotLocal
  triggerAll triggerAllDescription removeNotification removeNotificationsOf

end Broker

end Dsi
