import Dsi.Broker.Once
import Dsi.Broker.Servers
import Dsi.Lib.Run

/-!
# Dsi.Broker.Availability

Waiting for a server, on a broker without a master: no active notification waits
for a server that is registered, whatever order servers and notifications come
and go in, and no notification is sent twice.  Both hold as long as the 32-bit
notification IDs do not wrap: the notification with the ID
`INVALID_NOTIFICATION_ID` is put into the list, but its caller takes it for not
created and leaves it there.
-/

namespace Dsi

open Sequence

namespace Broker

/-! ## The property -/

/-- The server offers what the notification waits for. -/
def Offers (e : ServerListEntry) (n : Notification) : Prop :=
  n.ifDescription.name = e.ifDescription.name ∧
    n.ifDescription.majorVersion = e.ifDescription.majorVersion ∧
    n.ifDescription.minorVersion ≤ e.ifDescription.minorVersion

/-- No active notification waits for a server that is there. -/
def NoneOverlooked (b : Broker) : Prop :=
  ∀ n ∈ b.mServerConnectNotifications, n.active = true →
    ∀ e ∈ b.mConnectedServers.entries, ¬ Offers e n

/-! ## Updates -/

/-- Waiting notifications and servers that were there before are not overlooked. -/
theorem NoneOverlooked.of_inherits {b b' : Broker} (h : NoneOverlooked b)
    (hn : Inherits .serverConnect b b')
    (hs : ∀ e' ∈ b'.mConnectedServers.entries, ∃ e ∈ b.mConnectedServers.entries,
      e.ifDescription = e'.ifDescription) : NoneOverlooked b' := by
  intro n' hn' hactive e' he' hoffers
  obtain ⟨n, hmem, _, _, active, _, _, rfl, hact⟩ := hn n' hn'
  obtain ⟨e, hemem, hedesc⟩ := hs e' he'
  refine h n hmem (hact hactive) e hemem ?_
  unfold Offers at hoffers ⊢
  rwa [hedesc]

/-- Servers that stay offer what they did. -/
theorem ServersLoss.descriptions {b b' : Broker} (hc : ServersLoss b b') :
    ∀ e' ∈ b'.mConnectedServers.entries, ∃ e ∈ b.mConnectedServers.entries,
      e.ifDescription = e'.ifDescription := by
  intro e' he'
  cases hc with
  | same hcores =>
      have hmap := ServerList.map_eq_of_cores (g := (·.ifDescription)) (by intros; rfl) hcores
      have hmem : e'.ifDescription ∈ b'.mConnectedServers.entries.map (·.ifDescription) :=
        List.mem_map_of_mem he'
      rw [hmap] at hmem
      exact List.mem_map.mp hmem
  | removed id hremove =>
      rw [hremove] at he'
      exact ⟨e', (ServerList.remove_sublist id _).subset he', rfl⟩

/-- An entry offers what a notification waits for if the names agree and the versions match. -/
theorem versionMatch_iff_offers {e : ServerListEntry} {n : Notification} :
    Offers e n ↔ n.ifDescription.name = e.ifDescription.name ∧
      versionMatch n e.ifDescription = true := by
  simp [Offers, versionMatch]

/-- What `trigger(InterfaceDescription, gid_t)` leaves active does not match. -/
theorem of_mem_triggerDescription {cfg : Config} {d : InterfaceDescription} {grpid : Int32}
    {b : Broker} {n' : Notification}
    (h : n' ∈ (b.triggerDescription cfg .serverConnect d grpid).mServerConnectNotifications)
    (hactive : n'.active = true) :
    n' ∈ b.mServerConnectNotifications ∧
      ¬ (n'.ifDescription.name = d.name ∧ versionMatch n' d = true) := by
  have h : n' ∈ (b.sweep cfg false .serverConnect (triggerAction cfg d grpid)).notifications
    .serverConnect := h
  rw [notifications_sweep, if_pos rfl] at h
  obtain ⟨n, hn, hres⟩ := mem_sweepLoop cfg (a := triggerAction cfg d grpid b)
    (fun _ _ _ => rfl) h
  have hnot : triggerAction cfg d grpid b n = .keep → n.active = true →
      ¬ (n.ifDescription.name = d.name ∧ versionMatch n d = true) := by
    intro hkeep hact hmatch
    unfold triggerAction at hkeep
    rw [if_pos ⟨hmatch.1, hact, hmatch.2⟩] at hkeep
    split at hkeep <;> contradiction
  cases hres with
  | kept hkeep => exact ⟨hn, hnot hkeep hactive⟩
  | deactivated => exact absurd hactive (by simp)
  | notified hnotify => exact absurd hnotify (triggerAction_ne_notify cfg d grpid b n)

/-- A new entry fires the notifications that wait for it. -/
theorem NoneOverlooked.addEntry {cfg : Config} {c : Nat} {e : ServerListEntry} {b : Broker}
    (h : NoneOverlooked b) : NoneOverlooked (b.addEntry cfg c e) := by
  intro n hn hactive e' he'
  unfold Broker.addEntry at hn
  have hn : n ∈ ((((({ b with mConnectedServers := b.mConnectedServers.add e } : Broker)
    ).modifyData c (·.addServer e.partyID)).triggerDescription cfg .serverConnect e.ifDescription
      e.grpid).sweep cfg false .serverListChange (fun _ n => if n.active ∧ (n.regExpr = none ∨
        matchRegExp cfg e.ifDescription.name n) then .notify else .keep)).notifications
          .serverConnect := hn
  rw [notifications_sweep_of_ne cfg _ _ _ _ (by decide)] at hn
  obtain ⟨hmem, hnot⟩ := of_mem_triggerDescription hn hactive
  rw [servers_addEntry, ServerList.mem_add] at he'
  cases he' with
  | inl he' =>
      rw [he', versionMatch_iff_offers]
      exact hnot
  | inr he' => exact h n hmem hactive e' he'

/-- Every update but a new connect notification keeps it. -/
theorem NoneOverlooked.prim {cfg : Config} {l : Label} {b b' : Broker} (h : NoneOverlooked b)
    (hp : Prim cfg l b b') (hl : l ≠ .create .serverConnect) : NoneOverlooked b' := by
  by_cases hadd : l = .addEntry
  · subst hadd
    cases hp with
    | addEntry _ c e next =>
        exact NoneOverlooked.addEntry (b := { b with mNextServerID := next }) h
  · exact h.of_inherits (hp.inherits hl) (hp.serversLoss hadd).descriptions

/-- A quiet change overlooks nobody. -/
theorem NoneOverlooked.quiet {b b' : Broker} (h : NoneOverlooked b) (hq : Quiet b b') :
    NoneOverlooked b' :=
  h.of_inherits (inherits_of_eq (hq.notifications .serverConnect))
    (fun e he => ⟨e, hq.servers ▸ he, rfl⟩)

/-! ## New notifications -/

/-- A notification for a server that is not there. -/
theorem NoneOverlooked.addDescription (cfg : Config) (ctx : SocketConnectionContext)
    (pulse : SFNDPulseInfo) {d : InterfaceDescription} (isLocal : Bool) {b : Broker}
    (h : NoneOverlooked b) (hnames : NamesNodup b)
    (hfind : b.mConnectedServers.findDescription d = none) :
    NoneOverlooked (b.addDescription cfg .serverConnect d ctx pulse isLocal).2 := by
  unfold Broker.addDescription
  obtain ⟨a, p, coid, hadd | hadd⟩ := addNotification_cases cfg .serverConnect ctx pulse
    (fun n => { n with ifDescription := d, host := some ctx.mId, isLocal := isLocal,
                       uid := ctx.mUid }) b
  · rw [hadd]
    intro n hn hactive e he hoffers
    cases List.mem_cons.mp hn with
    | inl hnew =>
        refine ServerList.not_offers_of_findDescription_none hnames hfind he ?_
        rw [hnew] at hoffers
        exact ⟨hoffers.1.symm, hoffers.2.1.symm, hoffers.2.2⟩
    | inr hold => exact h n hold hactive e he hoffers
  · rw [hadd]
    exact h

/-- A notification for a server that is there is sent at once. -/
theorem NoneOverlooked.triggerNew {cfg : Config} {d : InterfaceDescription} {grpid : Int32}
    {b b₁ : Broker} (h : NoneOverlooked b)
    (hservers : b₁.mConnectedServers = b.mConnectedServers)
    (hnew : ∀ n ∈ b₁.mServerConnectNotifications,
      n ∈ b.mServerConnectNotifications ∨ n.ifDescription = d) :
    NoneOverlooked (b₁.triggerDescription cfg .serverConnect d grpid) := by
  intro n hn hactive e he
  obtain ⟨hmem, hnot⟩ := of_mem_triggerDescription hn hactive
  have he : e ∈ b₁.mConnectedServers.entries := by simpa using he
  rw [hservers] at he
  cases hnew n hmem with
  | inl hold => exact h n hold hactive e he
  | inr hdesc =>
      refine absurd ⟨congrArg InterfaceDescription.name hdesc, ?_⟩ hnot
      simp [versionMatch, hdesc]

/-- A new notification waits for the interface that it is made for. -/
theorem mem_addDescription {cfg : Config} {ctx : SocketConnectionContext} {pulse : SFNDPulseInfo}
    {d : InterfaceDescription} {isLocal : Bool} {b : Broker} {n : Notification}
    (h : n ∈ (b.addDescription cfg .serverConnect d ctx pulse isLocal
      ).2.mServerConnectNotifications) :
    n ∈ b.mServerConnectNotifications ∨ n.ifDescription = d := by
  unfold Broker.addDescription at h
  obtain ⟨a, p, coid, hadd | hadd⟩ := addNotification_cases cfg .serverConnect ctx pulse
    (fun n => { n with ifDescription := d, host := some ctx.mId, isLocal := isLocal,
                       uid := ctx.mUid }) b
  · rw [hadd] at h
    cases List.mem_cons.mp h with
    | inl hnew => exact Or.inr (by rw [hnew])
    | inr hold => exact Or.inl hold
  · rw [hadd] at h
    exact Or.inl h

/-- `addDescription` fails only where it adds nothing, as long as the IDs fit. -/
theorem addDescription_of_invalid {cfg : Config} {ctx : SocketConnectionContext}
    {pulse : SFNDPulseInfo} {d : InterfaceDescription} {isLocal : Bool} {b : Broker}
    (hfits : b.sNextNotificationID + 1 < 2 ^ 32 - 1)
    (h : (b.addDescription cfg .serverConnect d ctx pulse isLocal).1 = INVALID_NOTIFICATION_ID) :
    (b.addDescription cfg .serverConnect d ctx pulse isLocal).2.mServerConnectNotifications =
      b.mServerConnectNotifications := by
  unfold Broker.addDescription at h ⊢
  obtain ⟨a, p, coid, hadd | hadd⟩ := addNotification_cases cfg .serverConnect ctx pulse
    (fun n => { n with ifDescription := d, host := some ctx.mId, isLocal := isLocal,
                       uid := ctx.mUid }) b
  · rw [hadd] at h
    exact absurd h (ofNat_ne_invalid hfits)
  · rw [hadd]
    rfl

/-! ## The invariants -/

/-- What is sent is sent once, on a broker without interface-list notifications
and as long as the IDs fit. -/
structure OnceInv (b : Broker) : Prop where
  bound : IdBound b
  noList : b.mServerListChangeNotifications = []
  once : b.sNextNotificationID < 2 ^ 32 - 1 → ∀ id, b.tally id ≤ 1

/-- No update but a new notification for the list of interfaces makes one. -/
theorem OnceInv.prim {cfg : Config} {l : Label} {b b' : Broker} (h : OnceInv b)
    (hp : Prim cfg l b b') (hl : l ≠ .create .serverListChange) : OnceInv b' where
  bound := h.bound.prim hp
  noList := by
    refine List.eq_nil_iff_forall_not_mem.mpr (fun n' hn' => ?_)
    obtain ⟨n, hn, _⟩ := hp.inherits hl n' hn'
    have hn : n ∈ b.mServerListChangeNotifications := hn
    rw [h.noList] at hn
    exact absurd hn List.not_mem_nil
  once hfits id := by
    by_cases hcreate : ∃ k, l = .create k
    · obtain ⟨k, rfl⟩ := hcreate
      have hc := hp.creates
      have hnext := hc.next
      have hold := h.once (by omega) id
      cases hc.tally_cases id with
      | inl hsame => rwa [hsame]
      | inr hnew =>
          have hzero : b.tally id = 0 := by
            refine h.bound.tally_eq_zero ?_
            rw [hnew.1, UInt32.toNat_ofNat', Nat.mod_eq_of_lt (by omega)]
            exact Nat.lt_succ_self _
          exact Nat.le_of_eq (by rw [hnew.2, hzero])
    · have hs := hp.settles (fun k hk => hcreate ⟨k, hk⟩)
      have hold := h.once (hs.next ▸ hfits) id
      refine Nat.le_trans (hs.tally_le id ?_) hold
      rw [h.noList]
      exact List.not_mem_nil

/-- So does no sequence without one. -/
theorem OnceInv.prims {cfg : Config} {L : List Label} {b b' : Broker} (h : OnceInv b)
    (hL : .create .serverListChange ∉ L) (hp : Prims cfg L b b') : OnceInv b' :=
  hp.preserves (fun _ hl _ _ hprim hb => hb.prim hprim (fun he => hL (he ▸ hl))) h

/-- No waiting notification is overlooked, as long as the IDs fit. -/
structure AwakeInv (b : Broker) : Prop where
  phase : b.phase = .disconnected
  names : NamesNodup b
  awake : b.sNextNotificationID < 2 ^ 32 - 1 → NoneOverlooked b

/-- No update but a new notification makes one that waits. -/
theorem AwakeInv.prim {cfg : Config} {l : Label} {b b' : Broker} (h : AwakeInv b)
    (hp : Prim cfg l b b') (hl : l ≠ .create .serverConnect) : AwakeInv b' where
  phase := hp.phase.trans h.phase
  names := h.names.prim hp
  awake hfits := (h.awake (Nat.lt_of_le_of_lt (next_le_of_prim hp) hfits)).prim hp hl

/-- A quiet change makes none. -/
theorem AwakeInv.quiet (cfg : Config) {b b' : Broker} (h : AwakeInv b) (hq : Quiet b b') :
    AwakeInv b' :=
  h.prim (Prim.quiet hq : Prim cfg .quiet b b') (by simp)

/-- Nor does a sequence without a new one. -/
theorem AwakeInv.prims {cfg : Config} {L : List Label} {b b' : Broker} (h : AwakeInv b)
    (hL : .create .serverConnect ∉ L) (hp : Prims cfg L b b') : AwakeInv b' :=
  hp.preserves (fun _ hl _ _ hprim hb => hb.prim hprim (fun he => hL (he ▸ hl))) h

/-- A new notification fires at once if the interface is there, and is active otherwise. -/
theorem AwakeInv.notifyServerAvailable (cfg : Config) (ctx : SocketConnectionContext)
    (pulse : SFNDPulseInfo) (d : InterfaceDescription) {b : Broker} (h : AwakeInv b) :
    AwakeInv (b.handleNotifyServerAvailableNoResponse cfg ctx pulse d).2 := by
  have hprims := prims_notifyServerAvailable cfg ctx pulse d b
  constructor
  case phase =>
    exact hprims.preserves (I := fun b' => b'.phase = .disconnected)
      (fun _ _ _ _ hp hb => hp.phase.trans hb) h.phase
  case names => exact hprims.preserves (fun _ _ _ _ hp hb => NamesNodup.prim hb hp) h.names
  case awake =>
    intro hfits
    have hmono := hprims.preserves (I := fun b' => b.sNextNotificationID ≤ b'.sNextNotificationID)
      (fun _ _ _ _ hp hb => Nat.le_trans hb (next_le_of_prim hp)) (Nat.le_refl _)
    have hb := h.awake (Nat.lt_of_le_of_lt hmono hfits)
    have hnext := next_addNotification cfg .serverConnect ctx pulse (fun n => { n with
      ifDescription := d, host := some ctx.mId, isLocal := cfg.isLocalService d.name,
      uid := ctx.mUid }) b
    have hservers := servers_addNotification cfg .serverConnect ctx pulse (fun n => { n with
      ifDescription := d, host := some ctx.mId, isLocal := cfg.isLocalService d.name,
      uid := ctx.mUid }) b
    revert hfits
    unfold handleNotifyServerAvailableNoResponse
    dsimp only
    split
    · exact fun _ => hb
    · split
      · next hid =>
        intro hfits
        have hfits := Nat.lt_of_le_of_lt (Nat.le_of_eq hnext.symm) hfits
        have hlist := addDescription_of_invalid hfits hid
        refine hb.of_inherits (inherits_of_eq hlist) (fun e he => ⟨e, ?_, rfl⟩)
        exact hservers ▸ he
      · split
        · exact fun _ => hb.triggerNew hservers (fun n hn => mem_addDescription hn)
        · next hentry =>
          have hfind : b.mConnectedServers.findDescription d = none := by simpa using hentry
          have h1 := hb.addDescription cfg ctx pulse (cfg.isLocalService d.name) h.names hfind
          have h2 := h1.quiet (quiet_modifyData ctx.mId (·.addNotification
            (b.addDescription cfg .serverConnect d ctx pulse (cfg.isLocalService d.name)).1) _)
          split
          · exact fun _ => h2.prim (.forward _) (by simp)
          · exact fun _ => h2

/-- So does the notification of an extended attach. -/
theorem AwakeInv.handleAttachInterfaceExtended {cfg : Config} {ctx : SocketConnectionContext}
    {pulse : SFNDPulseInfo} {d : InterfaceDescription} {stackPulse : SFNDPulseInfo} {b : Broker}
    (h : AwakeInv b) :
    AwakeInv (b.handleAttachInterfaceExtended cfg ctx pulse d stackPulse).1 := by
  have hmaster : b.isMasterConnected cfg = false := by simp [isMasterConnected, h.phase]
  have hattach (entry : ServerListEntry) := h.prims (by simp [attachLabels])
    (prims_handleAttachLocalInterface cfg ctx entry b)
  refine handleAttachInterfaceExtended_leaves h (fun entry _ _ => hattach entry) ?_ ?_ ?_
  · intro entry _ _ _
    exact (hattach entry).prims (L := disconnectLabels ++ [.addPool]) (by simp [disconnectLabels])
      ((addsPool_notifyServerDisconnect cfg ctx entry.partyID stackPulse _).prims
        (fun _ => List.mem_append_left _) (by simp))
  · intro _
    exact h.notifyServerAvailable cfg ctx pulse d
  · intro hconnected
    exact absurd (hmaster.symm.trans hconnected) Bool.false_ne_true

/-- So every request leaves active the notifications that wait. -/
theorem AwakeInv.dispatch (cfg : Config) (ctx : SocketConnectionContext) (r : Request) {b : Broker}
    (h : AwakeInv b) : AwakeInv (b.dispatch cfg ctx r).1 := by
  have hprims := prims_dispatch cfg ctx r b
  cases r with
  | notifyServerAvailable pulse d =>
      have h1 := h.notifyServerAvailable cfg ctx pulse d
      simp only [Broker.dispatch, handleNotifyServerAvailable]
      split <;> exact h1
  | notifyServerAvailableEx count records =>
      have h1 : AwakeInv
        (recordLoop (notifyAvailableRecord cfg ctx) count.toInt.toNat records b).2 :=
        recordLoop_preserves h
          (fun n _ _ hs => hs.notifyServerAvailable cfg ctx n.pulse n.ifDescription)
      simp only [Broker.dispatch, handleNotifyServerAvailableEx]
      split <;> exact h1
  | attachInterfaceExtended pulse d stackPulse => exact h.handleAttachInterfaceExtended
  | _ =>
      refine h.prims ?_ hprims
      simp [requestLabels, registerLabels, unregisterLabels, attachLabels, detachLabels,
        clearLabels, listLabels, disconnectLabels]

/-! ## Runs -/

/-- The requests of a broker on its own, without those that set notifications on
the interface list. -/
def setsNoListNotification : Request → Bool
  | .notifyInterfaceListChange _ | .notifyInterfaceListMatch _ _ => false
  | _ => true

/-- The events of such a broker. -/
def availabilityEvent : Event → Bool
  | .connected _ _ _ | .closed _ => true
  | .request _ r => setsNoListNotification r
  | _ => false

/-- The events are those of a broker without a master. -/
theorem aloneEvent_of_availabilityEvent {e : Event} (h : availabilityEvent e = true) :
    aloneEvent e = true := by
  cases e <;> simp_all [availabilityEvent, aloneEvent]

/-- Every such event keeps what fires once. -/
theorem OnceInv.step {cfg : Config} {b : Broker} {e : Event} (h : OnceInv b)
    (he : availabilityEvent e = true) : OnceInv (b.step cfg e) := by
  cases e with
  | connected nodeAddress localAddress uid =>
      exact h.prims (by simp) (prims_openConnection cfg nodeAddress localAddress uid b)
  | request c r =>
      refine h.prims ?_ (prims_request cfg c r b)
      cases r <;> simp_all [availabilityEvent, setsNoListNotification, requestLabels,
        registerLabels, unregisterLabels, attachLabels, attachExtendedLabels, detachLabels,
        clearLabels, disconnectLabels, availableLabels]
  | closed c => exact h.prims (by simp [closeLabels]) (prims_closeConnection cfg c b)
  | pulse => simp [availabilityEvent] at he
  | deliver => simp [availabilityEvent] at he
  | worker => simp [availabilityEvent] at he

/-- And what is active. -/
theorem AwakeInv.step {cfg : Config} {b : Broker} {e : Event} (h : AwakeInv b)
    (he : availabilityEvent e = true) : AwakeInv (b.step cfg e) := by
  cases e with
  | connected nodeAddress localAddress uid =>
      exact h.prims (by simp) (prims_openConnection cfg nodeAddress localAddress uid b)
  | request c r =>
      simp only [Broker.step, request]
      split
      · exact h
      · next k _ =>
        split
        · exact h
        · have h1 := h.dispatch cfg (k.ctx c) r
          split
          · exact h1.quiet cfg (quiet_emit rfl _)
          · exact h1.quiet cfg (quiet_setConnection _ _ _)
  | closed c => exact h.prims (by simp [closeLabels]) (prims_closeConnection cfg c b)
  | pulse => simp [availabilityEvent] at he
  | deliver => simp [availabilityEvent] at he
  | worker => simp [availabilityEvent] at he

/-- A broker on its own, whatever is registered, unregistered, waited for,
cleared and closed in whatever order: as long as the notification IDs fit, no
active notification waits for a server that is there, and no notification is sent
twice. -/
theorem none_overlooked_of_along (cfg : Config) (es : List Event)
    (h : Run.Along (step cfg) (fun b e => availabilityEvent e = true ∧ idsFit b e = true) init
      es) :
    NoneOverlooked (Run.run (step cfg) init es) ∧
      ∀ id, (Run.run (step cfg) init es).sentIDs.count id ≤ 1 := by
  have hinv : OnceInv (Run.run (step cfg) init es) ∧ AwakeInv (Run.run (step cfg) init es) ∧
      (Run.run (step cfg) init es).sNextNotificationID < 2 ^ 32 - 1 := by
    refine Run.invariant (I := fun b => OnceInv b ∧ AwakeInv b ∧
      b.sNextNotificationID < 2 ^ 32 - 1) ?_ ?_ h
    · intro b e hb he
      exact ⟨hb.1.step he.1, hb.2.1.step he.1,
        next_step (aloneEvent_of_availabilityEvent he.1) he.2 hb.2.2⟩
    · refine ⟨⟨?_, rfl, fun _ _ => Nat.zero_le 1⟩, ⟨rfl, List.nodup_nil, fun _ _ hn => ?_⟩,
        by decide⟩
      · rintro id (hid | hid) <;> exact absurd hid List.not_mem_nil
      · exact absurd hn List.not_mem_nil
  refine ⟨hinv.2.1.awake hinv.2.2, fun id => ?_⟩
  have htally := hinv.1.once hinv.2.2 id
  unfold tally at htally
  omega

/-- A broker without a master. -/
def aloneConfig : Config := { theId := 0, hasMaster := false }

/-- A client waits for version 1.1 of an interface, while 1.0 and then 1.2 are
registered. -/
theorem none_overlooked_upgrade :
    let es : List Event := [.connected 0 0 0, .connected 0 0 0,
      .request 1 (.notifyServerAvailable ⟨7, 0, 0, 0⟩ ⟨[65], 1, 1⟩),
      .request 2 (.registerInterface ⟨[65], 1, 0⟩ 0 1),
      .request 2 (.unregisterInterface ⟨500001, 1000⟩),
      .request 2 (.registerInterface ⟨[65], 1, 2⟩ 0 1)]
    let b := Run.run (step aloneConfig) init es
    b.sentIDs = [1] ∧ NoneOverlooked b ∧ ∀ id, b.sentIDs.count id ≤ 1 :=
  ⟨by decide, none_overlooked_of_along _ _ (by decide)⟩

/-! ## When the IDs wrap -/

/-- A client waits for an interface that is registered. -/
def waitForA : Event := .request 1 (.notifyServerAvailable ⟨7, 0, 0, 0⟩ ⟨[65], 1, 0⟩)

/-- The interface is registered, and asked for `k` times. -/
def askRun (k : Nat) : List Event :=
  [.connected 0 0 0, .request 1 (.registerInterface ⟨[65], 1, 0⟩ 0 1)] ++ List.replicate k waitForA

/-- The entry of the interface. -/
def entryOfA : ServerListEntry :=
  { partyID := ⟨500001, 1000⟩, nid := 0, pid := 0, chid := 1, ifDescription := ⟨[65], 1, 0⟩ }

/-- What the requests for the interface leave as it is. -/
structure Asked (b : Broker) : Prop where
  servers : b.mConnectedServers.entries = [entryOfA]
  conn : (b.conns 1).map (fun k => (k.ctx 1, k.deferred)) = some (⟨1, 0, 0, 0, false⟩, false)

/-- The notification that the next request creates. -/
def nextWaiting (b : Broker) : Notification :=
  { b.fresh 0 ⟨7, 0, 0, 0⟩ false with
    ifDescription := ⟨[65], 1, 0⟩, host := some 1, isLocal := false, uid := 0 }

/-- The state behind the creation of it. -/
def withWaiting (b : Broker) : Broker :=
  { b.created b.attachCalls with
    mServerConnectNotifications := b.nextWaiting :: b.mServerConnectNotifications }

/-- The next notification of this client: its ID, or the error when the counter has wrapped. -/
theorem notifyServerAvailable_of_asked {b : Broker} (h : Asked b) :
    b.handleNotifyServerAvailableNoResponse aloneConfig ⟨1, 0, 0, 0, false⟩ ⟨7, 0, 0, 0⟩
        ⟨[65], 1, 0⟩ =
      if UInt32.ofNat (b.sNextNotificationID + 1) = INVALID_NOTIFICATION_ID then
        (.error .FNDBadArgument, b.withWaiting)
      else
        (.ok (UInt32.ofNat (b.sNextNotificationID + 1)),
          (b.withWaiting.modifyData 1
            (·.addNotification (UInt32.ofNat (b.sNextNotificationID + 1)))).triggerDescription
              aloneConfig .serverConnect ⟨[65], 1, 0⟩ SB_UNKNOWN_GROUP_ID) := by
  have hfind : b.mConnectedServers.findDescription ⟨[65], 1, 0⟩ = some entryOfA := by
    simp only [ServerList.findDescription, ServerList.findName, h.servers]
    decide
  have hadd : b.addDescription aloneConfig .serverConnect ⟨[65], 1, 0⟩ ⟨1, 0, 0, 0, false⟩
      ⟨7, 0, 0, 0⟩ (aloneConfig.isLocalService [65]) =
        (UInt32.ofNat (b.sNextNotificationID + 1), b.withWaiting) :=
    addNotification_of_not_slave aloneConfig .serverConnect rfl _ _ b
  have haccess : (some entryOfA).any (fun e =>
      !checkAccessPrivileges aloneConfig ⟨1, 0, 0, 0, false⟩ e) = false := by decide
  unfold handleNotifyServerAvailableNoResponse
  dsimp only
  rw [hfind, haccess, hadd]
  rfl

/-- The request sets the notification and answers. -/
theorem step_waitForA {b : Broker} (h : Asked b) :
    ∃ o, b.step aloneConfig waitForA =
      (b.handleNotifyServerAvailableNoResponse aloneConfig ⟨1, 0, 0, 0, false⟩ ⟨7, 0, 0, 0⟩
        ⟨[65], 1, 0⟩).2.emit o := by
  obtain ⟨k, hk, hctx⟩ := Option.map_eq_some_iff.mp h.conn
  rw [Prod.mk.injEq] at hctx
  simp only [waitForA, Broker.step, request, breaksOff, hk, hctx.1, hctx.2, Bool.or_self,
    Bool.false_eq_true, if_false, dispatch, handleNotifyServerAvailable]
  split
  · next heq =>
    split <;> exact ⟨_, rfl⟩
  · next heq =>
    split at heq <;> exact absurd heq (by simp [respond, fail])

/-- It fires at once, so the list is as empty as before. -/
theorem asked_step {b : Broker} (h : Asked b) (hnone : b.mServerConnectNotifications = [])
    (hfits : b.sNextNotificationID + 1 < 2 ^ 32 - 1) :
    Asked (b.step aloneConfig waitForA) ∧
      (b.step aloneConfig waitForA).mServerConnectNotifications = [] ∧
      (b.step aloneConfig waitForA).sNextNotificationID = b.sNextNotificationID + 1 := by
  have hid := ofNat_ne_invalid hfits
  obtain ⟨o, hstep⟩ := step_waitForA h
  rw [hstep, notifyServerAvailable_of_asked h, if_neg hid]
  refine ⟨⟨?_, ?_⟩, ?_, ?_⟩
  · exact (congrArg ServerList.entries
      (servers_sweep aloneConfig false .serverConnect _ _)).trans h.servers
  · have hcore := conns_sweep aloneConfig false .serverConnect
      (triggerAction aloneConfig ⟨[65], 1, 0⟩ SB_UNKNOWN_GROUP_ID) (b.withWaiting.modifyData 1
        (·.addNotification (UInt32.ofNat (b.sNextNotificationID + 1)))) 1
    have hconn := congrArg (Option.map (fun k => (k.ctx 1, k.deferred))) hcore
    rw [Option.map_map, Option.map_map] at hconn
    refine hconn.trans ?_
    rw [← h.conn]
    simp only [modifyData, setConnection, if_true, Option.map_map]
    rfl
  · have hfire : triggerAction aloneConfig ⟨[65], 1, 0⟩ SB_UNKNOWN_GROUP_ID b b.nextWaiting =
        .fire := by
      simp [triggerAction, versionMatch, nextWaiting, fresh]
    have hlist : (b.withWaiting.modifyData 1 (·.addNotification
        (UInt32.ofNat (b.sNextNotificationID + 1)))).notifications .serverConnect =
          [b.nextWaiting] := congrArg (b.nextWaiting :: ·) hnone
    have hswept := notifications_sweep aloneConfig false .serverConnect
      (triggerAction aloneConfig ⟨[65], 1, 0⟩ SB_UNKNOWN_GROUP_ID) (b.withWaiting.modifyData 1
        (·.addNotification (UInt32.ofNat (b.sNextNotificationID + 1)))) .serverConnect
    rw [if_pos rfl, hlist, sweepLoop] at hswept
    refine hswept.trans ?_
    have hact : ∀ b' : Broker, triggerAction aloneConfig ⟨[65], 1, 0⟩ SB_UNKNOWN_GROUP_ID b'
        b.nextWaiting = .fire := fun _ => hfire
    rw [hact]
    rfl
  · exact nextNotificationID_sweep aloneConfig false .serverConnect _ _

/-- So it can be asked again and again. -/
theorem asked_run (k : Nat) (hk : k < 2 ^ 32 - 1) :
    let b := Run.run (step aloneConfig) init (askRun k)
    Asked b ∧ b.mServerConnectNotifications = [] ∧ b.sNextNotificationID = k := by
  induction k with
  | zero => exact ⟨⟨by decide, by decide⟩, by decide, by decide⟩
  | succ k ih =>
      obtain ⟨hasked, hnone, hnext⟩ := ih (by omega)
      have hrun : askRun (k + 1) = askRun k ++ [waitForA] := by
        rw [askRun, askRun, List.replicate_succ', List.append_assoc]
      have hstep := asked_step hasked hnone (by omega)
      rw [hrun, Run.run_append]
      exact ⟨hstep.1, hstep.2.1, hstep.2.2.trans (by rw [hnext])⟩

/-- Until the counter wraps, and the notification is lost. -/
theorem overlooked_askRun {k : Nat} (hk : k + 1 = 2 ^ 32 - 1) :
    ¬ NoneOverlooked (Run.run (step aloneConfig) init (askRun (k + 1))) := by
  obtain ⟨hasked, hnone, hnext⟩ := asked_run k (by omega)
  have hrun : askRun (k + 1) = askRun k ++ [waitForA] := by
    rw [askRun, askRun, List.replicate_succ', List.append_assoc]
  rw [hrun, Run.run_append]
  generalize Run.run (step aloneConfig) init (askRun k) = b at hasked hnone hnext ⊢
  have hid : UInt32.ofNat (b.sNextNotificationID + 1) = INVALID_NOTIFICATION_ID := by
    rw [hnext, hk, ← UInt32.toNat_inj, UInt32.toNat_ofNat']
    rfl
  obtain ⟨o, hstep⟩ := step_waitForA hasked
  rw [notifyServerAvailable_of_asked hasked, if_pos hid] at hstep
  rw [Run.run_cons, Run.run_nil, hstep]
  intro h
  refine h b.nextWaiting List.mem_cons_self rfl entryOfA ?_ ⟨rfl, rfl, Int32.le_refl _⟩
  have hservers : entryOfA ∈ b.mConnectedServers.entries := by simp [hasked.servers]
  exact hservers

/-- The run has only events of a broker without a master. -/
theorem availabilityEvent_of_mem_askRun {k : Nat} {e : Event} (he : e ∈ askRun k) :
    availabilityEvent e = true := by
  rw [askRun, List.mem_append, List.mem_replicate] at he
  cases he with
  | inl he =>
      revert e
      decide
  | inr he =>
      rw [he.2]
      rfl

/-- With the request whose notification gets the ID `INVALID_NOTIFICATION_ID`, an
active notification stays behind that waits for a registered server. -/
theorem overlooked_when_ids_wrap :
    (∀ e ∈ askRun 4294967295, availabilityEvent e = true) ∧
      ¬ NoneOverlooked (Run.run (step aloneConfig) init (askRun 4294967295)) :=
  ⟨fun _ he => availabilityEvent_of_mem_askRun he, overlooked_askRun (k := 4294967294) rfl⟩

end Broker

end Dsi
