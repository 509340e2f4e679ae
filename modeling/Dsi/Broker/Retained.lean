import Dsi.Broker.Availability
import Dsi.Broker.Leftovers

/-!
# Dsi.Broker.Retained

What becomes of a notification that `trigger(InterfaceDescription, gid_t)` has retained because
its owner may not access the server.  It stays in the list, but no loop sends what is not
`active`, and nothing sets the flag again.  So it waits, whatever is registered, until it is
cleared or its connection closes.
-/

namespace Dsi

open Sequence

namespace Broker

/-! ## What is promised -/

/-- A notification with this ID is retained. -/
def Retained (id : UInt32) (b : Broker) : Prop :=
  ∃ n ∈ b.notifications .serverConnect, n.notificationID = id ∧ n.active = false

/-- The event neither clears the notifications with this ID nor closes a connection that lists
it. -/
def keepsID (id : UInt32) (b : Broker) : Event → Bool
  | .request _ (.clearNotification id') => id' != id
  | .closed c => !(b.notificationList c).contains id
  | _ => true

/-- The owner of a notification may access a server. -/
def ownerMayAccess (cfg : Config) (e : ServerListEntry) (n : Notification) : Bool :=
  e.grpid = SB_UNKNOWN_GROUP_ID || n.uid = 0 || cfg.isGroupMember e.grpid n.uid

/-- A server is registered that a notification with this ID waits for and that its owner may
access. -/
def Arrives (cfg : Config) (id : UInt32) (b b' : Broker) : Prop :=
  ∃ n ∈ b.notifications .serverConnect, n.notificationID = id ∧
    ∃ e ∈ b'.mConnectedServers.entries,
      b.mConnectedServers.findName e.ifDescription.name = none ∧ Offers e n ∧
        ownerMayAccess cfg e n = true

/-- The notification is sent and leaves the list. -/
def Delivered (id : UInt32) (b b' : Broker) : Prop :=
  SentBetween b b' id ∧ ∀ n ∈ b'.notifications .serverConnect, n.notificationID ≠ id

/-- As long as the notification is kept, it is sent when a server arrives for it. -/
def ComesBack (cfg : Config) (id : UInt32) (b : Broker) (es : List Event) : Prop :=
  ∀ pre, pre <+: es → Run.Along (step cfg) (fun s e => keepsID id s e = true) b pre →
    Run.Along (step cfg)
      (fun s e => Arrives cfg id s (s.step cfg e) → Delivered id s (s.step cfg e)) b pre

/-- As long as the notification is kept, no server arrives for it. -/
def NoneArrives (cfg : Config) (id : UInt32) (b : Broker) (es : List Event) : Prop :=
  ∀ pre, pre <+: es → Run.Along (step cfg) (fun s e => keepsID id s e = true) b pre →
    Run.Along (step cfg) (fun s e => ¬ Arrives cfg id s (s.step cfg e)) b pre

/-! ## Updates -/

section Updates

variable {cfg : Config} {id : UInt32} {b b' : Broker}

theorem Retained.of_eq (h : Retained id b)
    (hnotes : b'.notifications .serverConnect = b.notifications .serverConnect) :
    Retained id b' := by
  rw [Retained, hnotes]
  exact h

/-- A loop that leaves what is not active alone leaves what is retained. -/
theorem Retained.sweep (h : Retained id b) (once : Bool) {k : NotificationKind}
    {act : Broker → Notification → Action}
    (hact : k = .serverConnect → ∀ b n, n.active = false → n.notificationID = id →
      act b n = .keep) : Retained id (b.sweep cfg once k act) := by
  by_cases hk : NotificationKind.serverConnect = k
  · obtain ⟨n, hn, hid, hretained⟩ := h
    subst hk
    exact ⟨n, mem_sweep_of_keep cfg once .serverConnect b hn
      (fun b' _ => hact rfl b' n hretained hid), hid, hretained⟩
  · exact h.of_eq (notifications_sweep_of_ne cfg once k act b hk)

theorem Retained.trigger (h : Retained id b) (k : NotificationKind) (p : Notification → Bool) :
    Retained id (b.sweep cfg false k (fireIf p)) :=
  h.sweep false (fun _ _ n hretained _ => by rw [fireIf, hretained, Bool.false_and]; rfl)

theorem Retained.triggerDescription (h : Retained id b) (k : NotificationKind)
    (d : InterfaceDescription) (grpid : Int32) :
    Retained id (b.triggerDescription cfg k d grpid) :=
  h.sweep false (fun _ _ n hretained _ => by simp [triggerAction, hretained])

/-- Writes to the list that keep the flag and the ID. -/
theorem Retained.of_map (h : Retained id b) {f : Notification → Notification}
    (hf : ∀ n, (f n).notificationID = n.notificationID ∧ (f n).active = n.active)
    (hnotes : b'.notifications .serverConnect = (b.notifications .serverConnect).map f) :
    Retained id b' := by
  obtain ⟨n, hn, hid, hretained⟩ := h
  rw [Retained, hnotes]
  exact ⟨f n, List.mem_map_of_mem hn, (hf n).1.trans hid, (hf n).2.trans hretained⟩

theorem Retained.modifyFirst (h : Retained id b) (k : NotificationKind)
    {p : Notification → Bool} {f : Notification → Notification}
    (hf : ∀ n, (f n).notificationID = n.notificationID ∧ (f n).active = n.active) :
    Retained id (b.setNotifications k (modifyFirst p f (b.notifications k))) := by
  rw [Retained, notifications_setNotifications]
  split
  · next hk =>
    obtain ⟨n, hn, hid, hretained⟩ := h
    rw [hk] at hn
    have hkeys := map_modifyFirst (p := p) (g := fun n => (n.notificationID, n.active))
      (fun n => Prod.ext (hf n).1 (hf n).2) (b.notifications k)
    have hmem : (n.notificationID, n.active) ∈
        (Sequence.modifyFirst p f (b.notifications k)).map
          (fun n => (n.notificationID, n.active)) := by
      rw [hkeys]
      exact List.mem_map_of_mem hn
    obtain ⟨n', hn', hsame⟩ := List.mem_map.mp hmem
    obtain ⟨hid', hactive'⟩ := Prod.mk.inj hsame
    exact ⟨n', hn', hid'.trans hid, hactive'.trans hretained⟩
  · exact h

/-- Every update but a loop over the connect notifications leaves what is retained. -/
theorem Prim.retained {l : Label} (hp : Prim cfg l b b') (hl : l ≠ .sweep .serverConnect)
    (h : Retained id b) : Retained id b' := by
  cases hp with
  | quiet hq => exact h.of_eq (hq.notifications _)
  | addEntry _ c e next =>
      have hentry : Retained id (({ b with
          mNextServerID := next, mConnectedServers := b.mConnectedServers.add e } :
            Broker).modifyData c (·.addServer e.partyID)) := h.of_eq rfl
      exact (hentry.triggerDescription .serverConnect e.ifDescription e.grpid).sweep false
        (fun hk => by cases hk)
  | removeServer => exact h.of_eq rfl
  | registerMaster => exact h.of_eq ((registerInterfacesMaster_frame cfg b).1 _)
  | setMasterID => exact h.of_eq rfl
  | clients => exact h.of_eq rfl
  | create _ k ctx pulse hs =>
      obtain ⟨n, hn, hfacts⟩ := h
      obtain ⟨a, p, coid, hadd | hadd⟩ := addNotification_cases cfg k ctx pulse _ b
      · rw [hadd, Retained, notifications_setNotifications]
        split
        · next hk =>
          rw [← hk]
          exact ⟨n, List.mem_cons_of_mem _ hn, hfacts⟩
        · exact ⟨n, hn, hfacts⟩
      · rw [hadd]
        exact ⟨n, hn, hfacts⟩
  | skip => exact h.of_eq rfl
  | @sweep _ once k act _ =>
      exact h.of_eq (notifications_sweep_of_ne cfg once k act b (fun hk => hl (hk ▸ rfl)))
  | addPool => exact h.of_eq rfl
  | @attach _ pos k n =>
      have hjoined := h.modifyFirst (p := fun m => m.notificationID = n.notificationID)
        (f := fun m => { m with poolID := b.poolIDAt pos }) k (fun _ => ⟨rfl, rfl⟩)
      exact hjoined.of_eq (by cases k <;> rfl)
  | modifyPool => exact h.of_eq rfl
  | storeMaster _ k => exact h.modifyFirst k (fun _ => ⟨rfl, rfl⟩)
  | forward =>
      obtain ⟨l, pools, next, js, hb, hrepooled, _⟩ := forward_cases cfg b
      obtain ⟨n, hn, hid, hretained⟩ := h
      rw [hb]
      have hkeys := hrepooled.map_eq (g := fun n => (n.notificationID, n.active))
        (fun _ _ => rfl)
      have hmem : (n.notificationID, n.active) ∈ l.map (fun n => (n.notificationID, n.active)) := by
        rw [hkeys]
        exact List.mem_map_of_mem hn
      obtain ⟨n', hn', hsame⟩ := List.mem_map.mp hmem
      obtain ⟨hid', hactive'⟩ := Prod.mk.inj hsame
      exact ⟨n', hn', hid'.trans hid, hactive'.trans hretained⟩

theorem Prims.retained {L : List Label} (hp : Prims cfg L b b') (hL : .sweep .serverConnect ∉ L)
    (h : Retained id b) : Retained id b' :=
  hp.preserves (fun _ hl _ _ hp h => hp.retained (fun he => hL (he ▸ hl)) h) h

end Updates

/-! ## Requests -/

section Requests

variable {cfg : Config} {id : UInt32} {b : Broker}

theorem Retained.notifyServerAvailable (h : Retained id b) (ctx : SocketConnectionContext)
    (pulse : SFNDPulseInfo) (d : InterfaceDescription) :
    Retained id (b.handleNotifyServerAvailableNoResponse cfg ctx pulse d).2 := by
  have hadded := (prim_addDescription cfg .serverConnect d ctx pulse
    (cfg.isLocalService d.name) b).retained (by simp) h
  unfold handleNotifyServerAvailableNoResponse
  dsimp only
  generalize b.addDescription cfg .serverConnect d ctx pulse (cfg.isLocalService d.name) = r
    at hadded
  have hlisted : Retained id (r.2.modifyData ctx.mId (·.addNotification r.1)) := hadded.of_eq rfl
  split
  · exact h
  · split
    · exact hadded
    · split
      · exact hlisted.triggerDescription .serverConnect d SB_UNKNOWN_GROUP_ID
      · split
        · exact (Prim.forward _).retained (by simp) hlisted
        · exact hlisted

theorem Retained.attachExtended (h : Retained id b) (ctx : SocketConnectionContext)
    (pulse : SFNDPulseInfo) (d : InterfaceDescription) (stackPulse : SFNDPulseInfo) :
    Retained id (b.handleAttachInterfaceExtended cfg ctx pulse d stackPulse).1 := by
  unfold handleAttachInterfaceExtended
  split
  · split
    · next entry _ =>
      have hattached := (prims_handleAttachLocalInterface cfg ctx entry b).retained
        (by simp [attachLabels]) h
      dsimp only
      split
      · exact hattached
      · have hwatched := ((addsPool_notifyServerDisconnect cfg ctx entry.partyID stackPulse _).prims
          (M := .addPool :: disconnectLabels) (fun _ => List.mem_cons_of_mem _)
          List.mem_cons_self).retained (by simp [disconnectLabels]) hattached
        split <;> exact hwatched
    · split
      · have hset := @Retained.notifyServerAvailable cfg id b h ctx pulse d
        dsimp only
        split <;> exact hset
      · exact ((addsPool_forwardAttachExtendedToMaster cfg ctx pulse d b).prims
          (M := .addPool :: forwardAttachLabels) (fun _ => List.mem_cons_of_mem _)
          List.mem_cons_self).retained (by simp [forwardAttachLabels]) h
  · exact h

theorem Retained.clearNotification (h : Retained id b) (ctx : SocketConnectionContext)
    {id' : UInt32} (hne : id' ≠ id) :
    Retained id (b.handleClearNotification cfg ctx id').1 := by
  have hremove {b : Broker} (h : Retained id b) (k : NotificationKind) :
      Retained id (b.removeNotification cfg k id') :=
    h.sweep true (fun _ _ n _ hid => if_neg (fun he => hne (he.symm.trans hid)))
  unfold handleClearNotification
  split
  · have hdata : Retained id (b.modifyData ctx.mId (·.removeNotification id')) := h.of_eq rfl
    exact hremove (hremove (hremove (hremove hdata _) _) _) _
  · exact h

/-- A request that does not clear the notification keeps it. -/
theorem Retained.dispatch (h : Retained id b) (ctx : SocketConnectionContext) {r : Request}
    (hr : r ≠ .clearNotification id) : Retained id (b.dispatch cfg ctx r).1 := by
  by_cases hlabel : .sweep .serverConnect ∈ requestLabels r
  · cases r with
    | notifyServerAvailable pulse d =>
        have hset := @Retained.notifyServerAvailable cfg id b h ctx pulse d
        rw [Broker.dispatch, handleNotifyServerAvailable]
        split <;> exact hset
    | notifyServerAvailableEx count records =>
        have hloop : Retained id
            (recordLoop (notifyAvailableRecord cfg ctx) count.toInt.toNat records b).2 :=
          recordLoop_preserves h
            (fun n _ b hb => hb.notifyServerAvailable ctx n.pulse n.ifDescription)
        rw [Broker.dispatch, handleNotifyServerAvailableEx]
        split <;> exact hloop
    | attachInterfaceExtended pulse d stackPulse => exact h.attachExtended ctx pulse d stackPulse
    | clearNotification id' => exact h.clearNotification ctx (fun he => hr (he ▸ rfl))
    | _ => simp [requestLabels, registerLabels, unregisterLabels, attachLabels, disconnectLabels,
        detachLabels, listLabels] at hlabel
  · exact (prims_dispatch cfg ctx r b).retained hlabel h

end Requests

/-! ## Steps -/

section Steps

variable {cfg : Config} {id : UInt32} {b : Broker}

theorem Retained.request (h : Retained id b) {c : Nat} {r : Request}
    (hr : r ≠ .clearNotification id) : Retained id (b.request cfg c r) := by
  rcases request_cases cfg c r b with hsame | ⟨k, _, _, _, hquiet⟩
  · rwa [hsame]
  · exact (h.dispatch (k.ctx c) hr).of_eq (hquiet.notifications _)

theorem Retained.closeConnection (h : Retained id b) {c : Nat}
    (hc : id ∉ b.notificationList c) : Retained id (b.closeConnection cfg c) := by
  obtain ⟨n, hn, hid, hretained⟩ := h
  unfold Broker.closeConnection
  split
  · exact ⟨n, hn, hid, hretained⟩
  · split
    · exact ⟨n, hn, hid, hretained⟩
    · rcases mem_or_sent_clear cfg hn (hid ▸ hc) with ⟨n', hn', hremains, hsame⟩ | ⟨hactive, _⟩
      · obtain ⟨_, _, _, rfl, _⟩ := hremains
        exact ⟨_, hn', hid, hsame.trans hretained⟩
      · rw [hretained] at hactive
        cases hactive

theorem Retained.dispatchPulse (h : Retained id b) (p : MasterPulse) (value : UInt32) :
    Retained id (b.dispatchPulse cfg p value) := by
  cases p with
  | PULSE_MASTER_SERVER_AVAILABLE => exact h.trigger .serverConnect _
  | PULSE_MASTER_SERVER_DISCONNECT => exact h.trigger .serverDisconnect _
  | PULSE_MASTER_CLIENT_DETACH =>
      simp only [Broker.dispatchPulse, handleMasterClientDetach]
      split
      · exact h.trigger .clientDetach _
      · exact h.sweep true (fun hk => by cases hk)
  | PULSE_MASTER_SERVERLIST_CHANGE => exact h.sweep true (fun hk => by cases hk)
  | PULSE_MASTER_ATTACH_EXTENDED =>
      simp only [Broker.dispatchPulse, handleMasterAttachExtended]
      split
      · exact h
      · next pos _ =>
        split
        · exact h.trigger .serverDisconnect _
        · have hstate : Retained id (b.modifyPool pos (·.setState .STATE_CONNECTED)) := h.of_eq rfl
          exact hstate.trigger .serverConnect _
        · exact h

theorem Retained.dispatchInternal (h : Retained id b) (hattach : b.mPendingAttachExtendedJobs = [])
    (m : InternalNotification) : Retained id (b.dispatchInternal cfg m) := by
  cases m with
  | jobExecuted job res =>
      exact (prims_handleJobFinished cfg job res hattach).retained (by simp [replyLabels]) h
  | masterConnected =>
      have hregistered : Retained id (b.registerInterfacesMaster cfg) :=
        (Prim.registerMaster b).retained (by simp) h
      exact (Prim.forward _).retained (by simp) hregistered
  | masterDisconnected =>
      have hcleared : Retained id { b with
          mConnectedServers := b.mConnectedServers.clearMasterIDs
          mMasterNotificationPool := []
          mPendingRemoteServersRequests := []
          mPendingAttachExtendedJobs := [] } := h.of_eq rfl
      have hgone (b : Broker) (h : Retained id b) : Retained id
          (b.sweep cfg false .serverDisconnect (fun b n =>
            if n.active ∧ cfg.mExtendedID ≠ n.partyID.extendedID ∧
              (b.mConnectedServers.findID n.partyID).isNone then .fire else .keep)) :=
        h.sweep false (fun hk => by cases hk)
      have hdetached := @Retained.trigger cfg id _ (hgone _ hcleared) .clientDetach
        (fun n => n.partyID.extendedID ≠ cfg.mExtendedID)
      exact hdetached.of_map (f := fun n =>
        { n with masterNotificationID := INVALID_NOTIFICATION_ID, poolID := 0 })
        (fun _ => ⟨rfl, rfl⟩) rfl

/-- What is retained and kept stays retained. -/
theorem Retained.step (h : Retained id b) (hattach : b.mPendingAttachExtendedJobs = []) {e : Event}
    (hkept : keepsID id b e = true) : Retained id (b.step cfg e) := by
  cases e with
  | connected => exact h.of_eq rfl
  | request c r =>
      refine h.request (fun hr => ?_)
      rw [hr, keepsID, bne_self_eq_false] at hkept
      cases hkept
  | closed c =>
      refine h.closeConnection (fun hc => ?_)
      rw [keepsID, List.contains_iff_mem.mpr hc] at hkept
      cases hkept
  | pulse p value => exact h.dispatchPulse p value
  | deliver =>
      obtain hsame | ⟨n, rest, _, _, hstep⟩ := deliver_cases cfg b
      · rw [hsame]
        exact h
      · rw [hstep]
        have hread : Retained id { b with pipe := rest } := h.of_eq rfl
        exact hread.dispatchInternal hattach n
  | worker w => exact h.of_eq ((workerStep_frame b w).2.2.2.1 _)

/-- What is retained is never delivered. -/
theorem Retained.not_delivered {b' : Broker} (h : Retained id b') : ¬ Delivered id b b' := by
  obtain ⟨n, hn, hid, _⟩ := h
  exact fun hdelivered => hdelivered.2 n hn hid

end Steps

/-! ## Runs -/

instance (id : UInt32) (b : Broker) : Decidable (Retained id b) :=
  inferInstanceAs (Decidable (∃ n ∈ b.notifications .serverConnect, _ ∧ _))

instance (e : ServerListEntry) (n : Notification) : Decidable (Offers e n) :=
  inferInstanceAs (Decidable (_ ∧ _))

instance (cfg : Config) (id : UInt32) (b b' : Broker) : Decidable (Arrives cfg id b b') :=
  inferInstanceAs (Decidable (∃ n ∈ b.notifications .serverConnect, _ ∧
    ∃ e ∈ b'.mConnectedServers.entries, _ ∧ _ ∧ _))

/-- What is retained at the end of a run is so as long as it is kept, and is not delivered when
a server arrives. -/
theorem along_retained (cfg : Config) (es₀ es : List Event) {id : UInt32}
    (h : Retained id (Run.run (step cfg) init es₀))
    (hkept : Run.Along (step cfg) (fun s e => keepsID id s e = true)
      (Run.run (step cfg) init es₀) es) :
    Run.Along (step cfg) (fun s e =>
      (Arrives cfg id s (s.step cfg e) → Delivered id s (s.step cfg e)) ↔
        ¬ Arrives cfg id s (s.step cfg e)) (Run.run (step cfg) init es₀) es := by
  have hstep (s : Broker) (e : Event)
      (hs : ∃ es, s = Run.run (step cfg) init es ∧ Retained id s)
      (he : keepsID id s e = true) : Retained id (s.step cfg e) := by
    obtain ⟨es, rfl, hretained⟩ := hs
    exact hretained.step (attachJobs_run cfg es) he
  refine Run.along_of_invariant (I := fun s => ∃ es, s = Run.run (step cfg) init es ∧ Retained id s)
    (fun s e hs he => ?_) (fun s e hs he => ?_) ⟨es₀, rfl, h⟩ hkept
  · have hretained := hstep s e hs he
    obtain ⟨es, rfl, _⟩ := hs
    exact ⟨es ++ [e], (Run.run_append (step cfg) init es [e]).symm, hretained⟩
  · have hnot := (hstep s e hs he).not_delivered (b := s)
    exact ⟨fun hcomes harrives => hnot (hcomes harrives),
      fun hnone harrives => absurd harrives hnone⟩

/-- A notification that is retained comes back if and only if no server arrives for it. -/
theorem comesBack_iff (cfg : Config) (es₀ es : List Event) (id : UInt32)
    (h : Retained id (Run.run (step cfg) init es₀)) :
    ComesBack cfg id (Run.run (step cfg) init es₀) es ↔
      NoneArrives cfg id (Run.run (step cfg) init es₀) es :=
  forall_congr' (fun pre => imp_congr_right (fun _ => forall_congr' (fun hkept =>
    Run.along_congr (along_retained cfg es₀ pre h hkept))))

/-- Client 1 waits for an interface that is registered for a group it does not belong to. -/
def retainedEvents : List Event :=
  [.connected 0 0 1000, .connected 0 0 0, .connected 0 0 1000,
    .request 1 (.notifyServerAvailable ⟨1, 1, 1, 1⟩ ⟨[65], 1, 0⟩),
    .request 2 (.registerInterfaceGroupID ⟨[65], 1, 0⟩ 7 1 5)]

/-- The interface is unregistered, client 3 of the same user waits for it as well, and the
interface is registered for everybody. -/
def arrivalEvents : List Event :=
  [.request 2 (.unregisterInterface ⟨500001, aloneConfig.mExtendedID⟩),
    .request 3 (.notifyServerAvailable ⟨1, 1, 1, 1⟩ ⟨[65], 1, 0⟩),
    .request 2 (.registerInterface ⟨[65], 1, 0⟩ 7 1)]

theorem not_comesBack_retainedEvents :
    Retained 1 (Run.run (step aloneConfig) init retainedEvents) ∧
      ¬ ComesBack aloneConfig 1 (Run.run (step aloneConfig) init retainedEvents) arrivalEvents := by
  have hretained : Retained 1 (Run.run (step aloneConfig) init retainedEvents) := by decide
  refine ⟨hretained, fun h => ?_⟩
  have hnone := (comesBack_iff aloneConfig retainedEvents arrivalEvents 1 hretained).mp h
    arrivalEvents List.prefix_rfl (by decide)
  exact hnone.2.2.1 (by decide)

/-- Of the two clients only the one that came later is told. -/
theorem not_comesBack_earlier :
    let b := Run.run (step aloneConfig) init retainedEvents
    (Run.run (step aloneConfig) b arrivalEvents).sentIDs = [2] ∧
      ¬ ComesBack aloneConfig 1 b arrivalEvents := by
  intro b
  refine ⟨by decide, fun h => ?_⟩
  have hlast := (h arrivalEvents List.prefix_rfl (by decide)).2.2.1 (by decide)
  have hstays : Retained 1 (Run.run (step aloneConfig) b arrivalEvents) := by decide
  exact hstays.not_delivered hlast

end Broker

end Dsi
