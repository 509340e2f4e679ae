import Dsi.Broker.Live

/-!
# Dsi.Broker.Once

Notification IDs over a run.  The IDs of live and of sent notifications stay below
the counter, and an ID that is not on the list of the interface-list
notifications is, counted over what was sent and what is live, there at most once:
a loop that sends a notification takes it out of its list.
-/

namespace Dsi

open Sequence

namespace Broker

/-- The notification IDs of a list. -/
def ids (l : List Notification) : List UInt32 := l.map (·.notificationID)

/-- How often an ID was sent or is live. -/
def tally (b : Broker) (id : UInt32) : Nat := b.sentIDs.count id + (ids b.live).count id

/-- The counter does not give out `INVALID_NOTIFICATION_ID` before it is at its end. -/
theorem ofNat_ne_invalid {n : Nat} (h : n < 2 ^ 32 - 1) :
    UInt32.ofNat n ≠ INVALID_NOTIFICATION_ID := by
  intro he
  have hid := congrArg UInt32.toNat he
  rw [UInt32.toNat_ofNat', Nat.mod_eq_of_lt (by omega)] at hid
  have hinvalid : INVALID_NOTIFICATION_ID.toNat = 2 ^ 32 - 1 := rfl
  omega

/-! ## Loops -/

section Loops

variable (cfg : Config) (once : Bool) {act : Broker → Notification → Action}

/-- What a loop sends and what it keeps was in the list before. -/
theorem count_sweepLoop (hact : ∀ b n, act b n ≠ .notify) (id : UInt32) (ns : List Notification)
    (b : Broker) :
    (sweepLoop cfg once act ns b).2.sentIDs.count id +
        (ids (sweepLoop cfg once act ns b).1).count id ≤
      b.sentIDs.count id + (ids ns).count id := by
  induction ns generalizing b with
  | nil => exact Nat.le_refl _
  | cons n ns ih =>
      have hfire : ((b.send cfg n).2.destroy cfg (b.send cfg n).1).sentIDs =
          b.sentIDs ++ [n.notificationID] := by rw [sentIDs_destroy, sentIDs_send]
      have hdrop := sentIDs_destroy cfg n b
      have hcons : (ids (n :: ns)).count id =
          (ids ns).count id + [n.notificationID].count id := by
        simp [ids, List.count_cons]
      rw [sweepLoop]
      split
      · have hrest := ih b
        simp only [ids, List.map_cons, List.count_cons] at hrest ⊢
        omega
      · have hrest := ih b
        simp only [ids, List.map_cons, List.count_cons] at hrest ⊢
        omega
      · next hn => exact absurd hn (hact b n)
      · dsimp only
        split
        · dsimp only
          rw [hfire, hcons, List.count_append]
          omega
        · have hrest := ih ((b.send cfg n).2.destroy cfg (b.send cfg n).1)
          rw [hfire, List.count_append] at hrest
          omega
      · dsimp only
        split
        · dsimp only
          rw [hdrop, hcons]
          omega
        · have hrest := ih (b.destroy cfg n)
          rw [hdrop] at hrest
          omega

/-- A loop sends only what is in the list. -/
theorem count_sentIDs_sweepLoop_of_not_mem (act : Broker → Notification → Action) {id : UInt32}
    {ns : List Notification}
    (h : id ∉ ids ns) (b : Broker) :
    (sweepLoop cfg once act ns b).2.sentIDs.count id = b.sentIDs.count id := by
  induction ns generalizing b with
  | nil => rfl
  | cons n ns ih =>
      have hne : n.notificationID ≠ id := fun he => h (by simp [ids, he])
      have hrest := ih (fun hmem => h (List.mem_cons_of_mem _ hmem))
      have hsend : (b.send cfg n).2.sentIDs.count id = b.sentIDs.count id := by
        rw [sentIDs_send, List.count_append, List.count_singleton, if_neg (by simpa using hne),
          Nat.add_zero]
      have hfire : ((b.send cfg n).2.destroy cfg (b.send cfg n).1).sentIDs.count id =
          b.sentIDs.count id := by rw [sentIDs_destroy, hsend]
      have hdrop := congrArg (List.count id) (sentIDs_destroy cfg n b)
      rw [sweepLoop]
      split
      · exact hrest b
      · exact hrest b
      · dsimp only
        split
        · exact hsend
        · exact (hrest _).trans hsend
      · dsimp only
        split
        · exact hfire
        · exact (hrest _).trans hfire
      · dsimp only
        split
        · exact hdrop
        · exact (hrest _).trans hdrop

end Loops

/-! ## Updates -/

/-- An update that creates no notification: the lists only lose, what is sent was
live, and an ID off the interface-list notifications moves at most from live to
sent. -/
structure Settles (b b' : Broker) : Prop where
  next : b'.sNextNotificationID = b.sNextNotificationID
  ids_sublist : ∀ k, (ids (b'.notifications k)).Sublist (ids (b.notifications k))
  sent : ∀ id ∈ b'.sentIDs, id ∈ b.sentIDs ∨ id ∈ ids b.live
  tally_le : ∀ id, id ∉ ids b.mServerListChangeNotifications → b'.tally id ≤ b.tally id

/-- An update that creates the next notification, in the list of a kind or in none. -/
structure Creates (k : NotificationKind) (b b' : Broker) : Prop where
  next : b'.sNextNotificationID = b.sNextNotificationID + 1
  other : ∀ k', k' ≠ k → b'.notifications k' = b.notifications k'
  created : ids (b'.notifications k) = ids (b.notifications k) ∨
    ids (b'.notifications k) =
      UInt32.ofNat (b.sNextNotificationID + 1) :: ids (b.notifications k)
  sent : b'.sentIDs = b.sentIDs

/-- The live IDs are those of one list and those of the other ones. -/
theorem ids_live_perm (b : Broker) (k : NotificationKind) :
    (ids b.live).Perm (ids (b.others k) ++ ids (b.notifications k)) := by
  have h := (b.live_perm k).map (·.notificationID)
  rwa [List.map_append] at h

/-- A live ID is in one of the lists. -/
theorem mem_ids_live {b : Broker} {id : UInt32} :
    id ∈ ids b.live ↔ ∃ k, id ∈ ids (b.notifications k) := by
  simp only [ids, List.mem_map, mem_live]
  constructor
  · rintro ⟨n, ⟨k, hn⟩, hid⟩
    exact ⟨k, n, hn, hid⟩
  · rintro ⟨k, n, hn, hid⟩
    exact ⟨n, ⟨k, hn⟩, hid⟩

/-- The IDs of the live notifications, list by list. -/
theorem ids_live_congr {b b' : Broker}
    (h : ∀ k, ids (b'.notifications k) = ids (b.notifications k)) : ids b'.live = ids b.live := by
  simp only [ids, live, List.map_flatMap] at h ⊢
  rw [funext h]

/-- Nothing is sent and the IDs stay where they are. -/
theorem Settles.of_ids {b b' : Broker} (hnext : b'.sNextNotificationID = b.sNextNotificationID)
    (hids : ∀ k, ids (b'.notifications k) = ids (b.notifications k))
    (hsent : b'.sentIDs = b.sentIDs) : Settles b b' where
  next := hnext
  ids_sublist k := by rw [hids k]
  sent id hid := Or.inl (hsent ▸ hid)
  tally_le id _ := by
    exact Nat.le_of_eq (by rw [tally, tally, hsent, ids_live_congr hids])

/-- Notifications fire and go on both parts of the way. -/
theorem Settles.trans {b b' b'' : Broker} (h : Settles b b') (h' : Settles b' b'') :
    Settles b b'' where
  next := h'.next.trans h.next
  ids_sublist k := (h'.ids_sublist k).trans (h.ids_sublist k)
  sent id hid := by
    cases h'.sent id hid with
    | inl hid => exact h.sent id hid
    | inr hid =>
        obtain ⟨k, hk⟩ := mem_ids_live.mp hid
        exact Or.inr (mem_ids_live.mpr ⟨k, (h.ids_sublist k).subset hk⟩)
  tally_le id hid :=
    Nat.le_trans (h'.tally_le id (fun hmem => hid ((h.ids_sublist .serverListChange).subset hmem)))
      (h.tally_le id hid)

/-- What a sweep sends it takes out of its list, but for the list changes. -/
theorem settles_sweep (cfg : Config) (once : Bool) {k : NotificationKind}
    {act : Broker → Notification → Action}
    (hact : k ≠ .serverListChange → ∀ b n, act b n ≠ .notify) (b : Broker) :
    Settles b (b.sweep cfg once k act) where
  next := nextNotificationID_sweep cfg once k act b
  ids_sublist k' := ids_sweep_sublist cfg once k act b k'
  sent id hid := by
    by_cases hmem : id ∈ ids (b.notifications k)
    · exact Or.inr (mem_ids_live.mpr ⟨k, hmem⟩)
    · have hcount := count_sentIDs_sweepLoop_of_not_mem cfg once act hmem b
      rw [sweep_eq, sentIDs_setNotifications, ← List.count_pos_iff, hcount,
        List.count_pos_iff] at hid
      exact Or.inl hid
  tally_le id hid := by
    have hlive := (ids_live_perm b k).count_eq id
    have hswept : (ids (b.sweep cfg once k act).live).count id =
        (ids (b.others k)).count id +
          (ids (sweepLoop cfg once act (b.notifications k) b).1).count id := by
      have hperm := (live_sweep_perm cfg once k act b).map (·.notificationID)
      rw [List.map_append] at hperm
      rw [ids, hperm.count_eq, List.count_append]
      rfl
    rw [List.count_append] at hlive
    rw [tally, tally, hlive, hswept]
    have hsent : (b.sweep cfg once k act).sentIDs =
        (sweepLoop cfg once act (b.notifications k) b).2.sentIDs := by
      rw [sweep_eq, sentIDs_setNotifications]
    rw [hsent]
    by_cases hk : k = .serverListChange
    · subst hk
      have hcount := count_sentIDs_sweepLoop_of_not_mem cfg once act hid b
      have hsub := (ids_sweepLoop_sublist cfg once act b.mServerListChangeNotifications b
        ).count_le id
      simp only [ids, notifications] at hcount hsub ⊢
      omega
    · have hcount := count_sweepLoop cfg once (hact hk) id (b.notifications k) b
      omega

/-- A new entry fires the notifications that wait for it. -/
theorem settles_addEntry (cfg : Config) (c : Nat) (e : ServerListEntry) (next : Nat) (b : Broker) :
    Settles b ({ b with mNextServerID := next }.addEntry cfg c e) := by
  have h1 : Settles b ({ b with
      mConnectedServers := b.mConnectedServers.add e, mNextServerID := next }.modifyData c
        (·.addServer e.partyID)) := .of_ids rfl (fun _ => rfl) rfl
  have h2 := h1.trans (settles_sweep cfg false (k := .serverConnect)
    (fun _ => triggerAction_ne_notify cfg e.ifDescription e.grpid) _)
  exact h2.trans (settles_sweep cfg false (fun h => absurd rfl h) _)

/-- A new notification has the next ID. -/
theorem creates_addNotification (cfg : Config) (k : NotificationKind)
    (ctx : SocketConnectionContext) (pulse : SFNDPulseInfo) {setup : Notification → Notification}
    (hs : Plain setup) (b : Broker) :
    Creates k b (b.addNotification cfg k ctx pulse setup).2 := by
  obtain ⟨a, p, coid, hadd | hadd⟩ := addNotification_cases cfg k ctx pulse setup b
  · rw [hadd]
    constructor
    case next => cases k <;> rfl
    case other =>
      intro k' hk'
      dsimp only
      rw [notifications_setNotifications, if_neg hk']
      rfl
    case created =>
      right
      dsimp only
      rw [notifications_setNotifications, if_pos rfl, ids, List.map_cons, (hs _).1]
      rfl
    case sent => rw [sentIDs_setNotifications]; rfl
  · rw [hadd]
    exact ⟨rfl, fun _ _ => rfl, Or.inl rfl, rfl⟩

/-- A list with the same IDs. -/
theorem ids_setNotifications {b : Broker} {k : NotificationKind} {l : List Notification}
    (h : ids l = ids (b.notifications k)) (k' : NotificationKind) :
    ids ((b.setNotifications k l).notifications k') = ids (b.notifications k') := by
  rw [notifications_setNotifications]
  split
  · next hk => rw [hk, h]
  · rfl

/-- Every update settles or creates. -/
theorem Prim.settles {cfg : Config} {l : Label} {b b' : Broker} (h : Prim cfg l b b')
    (hcreate : ∀ k, l ≠ .create k) : Settles b b' := by
  cases h with
  | quiet hq => exact .of_ids hq.nextNotificationID (fun k => by rw [hq.notifications k]) hq.sentIDs
  | addEntry _ c e next => exact settles_addEntry cfg c e next b
  | removeServer => exact .of_ids rfl (fun _ => rfl) rfl
  | registerMaster =>
      have hframe := registerInterfacesMaster_frame cfg b
      exact .of_ids hframe.2.1 (fun k => by rw [hframe.1 k]) hframe.2.2.1
  | setMasterID => exact .of_ids rfl (fun _ => rfl) rfl
  | clients => exact .of_ids rfl (fun _ => rfl) rfl
  | create => exact absurd rfl (hcreate _)
  | skip => exact absurd rfl (hcreate _)
  | sweep _ once hact => exact settles_sweep cfg once hact b
  | addPool => exact .of_ids rfl (fun _ => rfl) rfl
  | attach _ _ k =>
      refine .of_ids (by cases k <;> rfl) (fun k' => ?_) (by cases k <;> rfl)
      exact ids_setNotifications (map_modifyFirst (by intro; rfl) _) k'
  | modifyPool => exact .of_ids rfl (fun _ => rfl) rfl
  | storeMaster _ k =>
      refine .of_ids (by cases k <;> rfl) (fun k' => ?_) (by cases k <;> rfl)
      exact ids_setNotifications (map_modifyFirst (by intro; rfl) _) k'
  | forward =>
      obtain ⟨l, pools, next, js, hb, hl, _⟩ := forward_cases cfg b
      rw [hb]
      refine .of_ids rfl (fun k => ?_) ?_
      · have hids : ids l = ids b.mServerConnectNotifications := hl.map_eq (by intros; rfl)
        cases k with
        | serverConnect => exact hids
        | serverDisconnect => rfl
        | clientDetach => rfl
        | serverListChange => rfl
      · simp [sentIDs, List.filterMap_append, List.filterMap_map, Function.comp_def,
          Output.sentID?]

/-- An update that makes a notification makes one. -/
theorem Prim.creates {cfg : Config} {k : NotificationKind} {b b' : Broker}
    (h : Prim cfg (.create k) b b') : Creates k b b' := by
  cases h with
  | create _ _ ctx pulse hs => exact creates_addNotification cfg k ctx pulse hs b
  | skip => exact ⟨rfl, fun _ _ => rfl, Or.inl rfl, rfl⟩

/-- No update takes the counter back. -/
theorem next_le_of_prim {cfg : Config} {l : Label} {b b' : Broker} (hp : Prim cfg l b b') :
    b.sNextNotificationID ≤ b'.sNextNotificationID := by
  by_cases hcreate : ∃ k, l = .create k
  · obtain ⟨k, rfl⟩ := hcreate
    rw [hp.creates.next]
    exact Nat.le_succ _
  · exact Nat.le_of_eq (hp.settles (fun k hk => hcreate ⟨k, hk⟩)).next.symm

/-! ## Bounds -/

/-- The counter of the broker bounds the IDs it ever gave out. -/
def IdBound (b : Broker) : Prop :=
  ∀ id, id ∈ b.sentIDs ∨ id ∈ ids b.live → id.toNat ≤ b.sNextNotificationID

/-- Notifications that fire and go leave no ID above the counter. -/
theorem IdBound.settles {b b' : Broker} (h : IdBound b) (hs : Settles b b') : IdBound b' := by
  intro id hid
  rw [hs.next]
  cases hid with
  | inl hid => exact h id (hs.sent id hid)
  | inr hid =>
      obtain ⟨k, hk⟩ := mem_ids_live.mp hid
      exact h id (Or.inr (mem_ids_live.mpr ⟨k, (hs.ids_sublist k).subset hk⟩))

/-- An ID is old, or the new one. -/
theorem Creates.mem_ids {k : NotificationKind} {b b' : Broker} (hc : Creates k b b')
    {id : UInt32} (k' : NotificationKind) (hid : id ∈ ids (b'.notifications k')) :
    id ∈ ids (b.notifications k') ∨ k' = k ∧ id = UInt32.ofNat (b.sNextNotificationID + 1) := by
  by_cases hk : k' = k
  · subst hk
    cases hc.created with
    | inl he => exact Or.inl (he ▸ hid)
    | inr he =>
        rw [he] at hid
        cases List.mem_cons.mp hid with
        | inl hid => exact Or.inr ⟨rfl, hid⟩
        | inr hid => exact Or.inl hid
  · rw [hc.other k' hk] at hid
    exact Or.inl hid

/-- The new ID is the counter. -/
theorem IdBound.creates {k : NotificationKind} {b b' : Broker} (h : IdBound b)
    (hc : Creates k b b') : IdBound b' := by
  intro id hid
  rw [hc.next]
  cases hid with
  | inl hid => exact Nat.le_succ_of_le (h id (Or.inl (hc.sent ▸ hid)))
  | inr hid =>
      obtain ⟨k', hk'⟩ := mem_ids_live.mp hid
      cases hc.mem_ids k' hk' with
      | inl hid => exact Nat.le_succ_of_le (h id (Or.inr (mem_ids_live.mpr ⟨k', hid⟩)))
      | inr hnew =>
          rw [hnew.2, UInt32.toNat_ofNat']
          exact Nat.mod_le _ _

/-- No update brings an ID above the counter. -/
theorem IdBound.prim {cfg : Config} {l : Label} {b b' : Broker} (hp : Prim cfg l b b')
    (h : IdBound b) : IdBound b' := by
  by_cases hl : ∃ k, l = .create k
  · obtain ⟨k, rfl⟩ := hl
    exact h.creates hp.creates
  · exact h.settles (hp.settles (fun k hk => hl ⟨k, hk⟩))

/-- Above the counter nothing was sent and nothing is live. -/
theorem IdBound.tally_eq_zero {b : Broker} (h : IdBound b) {id : UInt32}
    (hid : b.sNextNotificationID < id.toNat) : b.tally id = 0 := by
  have hsent : id ∉ b.sentIDs := fun hmem => Nat.not_le_of_lt hid (h id (Or.inl hmem))
  have hlive : id ∉ ids b.live := fun hmem => Nat.not_le_of_lt hid (h id (Or.inr hmem))
  rw [tally, List.count_eq_zero.mpr hsent, List.count_eq_zero.mpr hlive]

/-! ## At most once -/

/-- The ID is none of an interface-list notification, and was sent or is live at
most once. -/
structure Once (b : Broker) (id : UInt32) : Prop where
  notList : id ∉ ids b.mServerListChangeNotifications
  tally_le : b.tally id ≤ 1

/-- What is sent goes, so it is not sent again. -/
theorem Once.settles {b b' : Broker} {id : UInt32} (h : Once b id) (hs : Settles b b') :
    Once b' id where
  notList hmem := h.notList ((hs.ids_sublist .serverListChange).subset hmem)
  tally_le := Nat.le_trans (hs.tally_le id h.notList) h.tally_le

/-- The live IDs are the old ones, and the new one if it could be set. -/
theorem Creates.ids_live {k : NotificationKind} {b b' : Broker} (hc : Creates k b b') :
    (ids b'.live).Perm (ids b.live) ∨
      (ids b'.live).Perm (UInt32.ofNat (b.sNextNotificationID + 1) :: ids b.live) := by
  have hlive := ids_live_perm b k
  have hlive' := ids_live_perm b' k
  have hothers : b'.others k = b.others k := by
    unfold others
    refine List.flatMap_congr (fun k' hk' => hc.other k' ?_)
    simpa using (List.mem_filter.mp hk').2
  rw [hothers] at hlive'
  rcases hc.created with he | he
  · rw [he] at hlive'
    exact Or.inl (hlive'.trans hlive.symm)
  · rw [he] at hlive'
    exact Or.inr (hlive'.trans (List.perm_middle.trans (hlive.symm.cons _)))

/-- A creation adds the new ID to the tally, if it puts it into a list. -/
theorem Creates.tally_cases {k : NotificationKind} {b b' : Broker} (hc : Creates k b b')
    (id : UInt32) : b'.tally id = b.tally id ∨
      id = UInt32.ofNat (b.sNextNotificationID + 1) ∧ b'.tally id = b.tally id + 1 := by
  rw [tally, tally, hc.sent]
  cases hc.ids_live with
  | inl hperm => rw [hperm.count_eq]; exact Or.inl rfl
  | inr hperm =>
      rw [hperm.count_eq, List.count_cons]
      by_cases hid : UInt32.ofNat (b.sNextNotificationID + 1) = id
      · rw [if_pos (by simpa using hid)]
        exact Or.inr ⟨hid.symm, by omega⟩
      · rw [if_neg (by simpa using hid)]
        exact Or.inl (by omega)

/-- An ID that was given out before is not touched by a creation. -/
theorem Once.creates {k : NotificationKind} {b b' : Broker} {id : UInt32} (h : Once b id)
    (hc : Creates k b b') (hid : id.toNat ≤ b.sNextNotificationID)
    (hfits : b.sNextNotificationID + 1 < 2 ^ 32) : Once b' id := by
  have hne : id ≠ UInt32.ofNat (b.sNextNotificationID + 1) := by
    rintro rfl
    rw [UInt32.toNat_ofNat', Nat.mod_eq_of_lt hfits] at hid
    omega
  constructor
  case notList =>
    intro hmem
    cases hc.mem_ids .serverListChange hmem with
    | inl hmem => exact h.notList hmem
    | inr hnew => exact hne hnew.2
  case tally_le =>
    cases hc.tally_cases id with
    | inl he => exact he ▸ h.tally_le
    | inr hnew => exact absurd hnew.1 hne

/-- An update sends no ID a second time, as long as the counter does not wrap. -/
theorem Once.prim {cfg : Config} {l : Label} {b b' : Broker} {id : UInt32} (h : Once b id)
    (hp : Prim cfg l b b') (hid : id.toNat ≤ b.sNextNotificationID)
    (hfits : b'.sNextNotificationID < 2 ^ 32) : Once b' id := by
  by_cases hl : ∃ k, l = .create k
  · obtain ⟨k, rfl⟩ := hl
    exact h.creates hp.creates hid (hp.creates.next ▸ hfits)
  · exact h.settles (hp.settles (fun k hk => hl ⟨k, hk⟩))

/-! ## The counter -/

/-- How many notifications a request creates at most. -/
def notificationsSet : Request → Nat
  | .notifyServerDisconnect .. | .notifyServerAvailable .. | .notifyClientDetach ..
  | .notifyInterfaceListChange .. | .notifyInterfaceListMatch ..
  | .attachInterfaceExtended .. => 1
  | .notifyServerAvailableEx count records => min count.toInt.toNat records.length
  | _ => 0

section Counter

variable (cfg : Config)

/-- A new notification takes one ID, whether it can be set or not. -/
theorem next_addNotification (k : NotificationKind) (ctx : SocketConnectionContext)
    (pulse : SFNDPulseInfo) (setup : Notification → Notification) (b : Broker) :
    (b.addNotification cfg k ctx pulse setup).2.sNextNotificationID =
      b.sNextNotificationID + 1 := by
  obtain ⟨a, p, coid, h | h⟩ := addNotification_cases cfg k ctx pulse setup b
  · rw [h]; cases k <;> rfl
  · rw [h]; rfl

/-- Without a new notification the counter stays. -/
theorem next_of_prims {L : List Label} (hL : ∀ k, .create k ∉ L) {b b' : Broker}
    (h : Prims cfg L b b') : b'.sNextNotificationID = b.sNextNotificationID := by
  refine h.preserves (I := fun b' => b'.sNextNotificationID = b.sNextNotificationID) ?_ rfl
  intro l hl b₁ b₂ hp hb
  have hsettles := hp.settles (fun k hk => hL k (hk ▸ hl))
  exact hsettles.next.trans hb

/-- A server that is monitored takes no ID. -/
theorem next_monitorServer (serverID : SPartyID) (id : UInt32) (b : Broker) :
    (b.monitorServer cfg serverID id).sNextNotificationID = b.sNextNotificationID := by
  unfold monitorServer
  split
  · rfl
  · split <;> rfl

/-- A disconnect notification takes one ID. -/
theorem next_notifyServerDisconnect (ctx : SocketConnectionContext) (serverID : SPartyID)
    (pulse : SFNDPulseInfo) (b : Broker) :
    (b.handleNotifyServerDisconnectNoResponse cfg ctx serverID pulse).2.sNextNotificationID =
      b.sNextNotificationID + 1 := by
  have h := next_addNotification cfg .serverDisconnect ctx pulse
    (fun n => { n with partyID := serverID, host := some ctx.mId }) b
  unfold handleNotifyServerDisconnectNoResponse addParty
  dsimp only
  split
  · exact h
  · split
    · rw [next_monitorServer]
      exact h
    · split
      · exact (nextNotificationID_sweep cfg _ _ _ _).trans h
      · exact h

/-- A notification that is forwarded takes no new ID. -/
theorem next_forward (b : Broker) :
    (b.forwardServerAvailableNotifications cfg).sNextNotificationID = b.sNextNotificationID := by
  obtain ⟨l, pools, next, js, hb, _⟩ := forward_cases cfg b
  rw [hb]

/-- A notification for an interface takes one ID at most. -/
theorem next_notifyServerAvailable (ctx : SocketConnectionContext) (pulse : SFNDPulseInfo)
    (d : InterfaceDescription) (b : Broker) :
    (b.handleNotifyServerAvailableNoResponse cfg ctx pulse d).2.sNextNotificationID ≤
      b.sNextNotificationID + 1 := by
  have h := next_addNotification cfg .serverConnect ctx pulse (fun n => { n with
    ifDescription := d, host := some ctx.mId, isLocal := cfg.isLocalService d.name,
    uid := ctx.mUid }) b
  unfold handleNotifyServerAvailableNoResponse addDescription
  dsimp only
  split
  · exact Nat.le_succ _
  · split
    · exact Nat.le_of_eq h
    · split
      · exact Nat.le_of_eq ((nextNotificationID_sweep cfg _ _ _ _).trans h)
      · split
        · exact Nat.le_of_eq ((next_forward cfg _).trans h)
        · exact Nat.le_of_eq h

/-- A list of records takes one ID each at most. -/
theorem next_availableRecords (ctx : SocketConnectionContext) (count : Nat)
    (records : List SFNDNotificationDescription) (b : Broker) :
    (recordLoop (notifyAvailableRecord cfg ctx) count records b).2.sNextNotificationID ≤
      b.sNextNotificationID + min count records.length := by
  induction records generalizing count b with
  | nil => cases count <;> exact Nat.le_add_right _ _
  | cons r rs ih =>
      cases count with
      | zero => exact Nat.le_add_right _ _
      | succ count =>
          have hone := next_notifyServerAvailable cfg ctx r.pulse r.ifDescription b
          have hrest := ih count (notifyAvailableRecord cfg ctx r b).2
          simp only [recordLoop, notifyAvailableRecord, List.length_cons] at hrest ⊢
          omega

/-- A detach notification takes one ID. -/
theorem next_handleNotifyClientDetach (ctx : SocketConnectionContext) (clientID : SPartyID)
    (pulse : SFNDPulseInfo) (b : Broker) :
    (b.handleNotifyClientDetach cfg ctx clientID pulse).1.sNextNotificationID =
      b.sNextNotificationID + 1 := by
  have h := next_addNotification cfg .clientDetach ctx pulse
    (fun n => { n with partyID := clientID, host := some ctx.mId }) b
  unfold handleNotifyClientDetach addParty
  dsimp only
  split
  · exact h
  · dsimp only [respond]
    split
    · exact h
    · split
      · exact h
      · exact (nextNotificationID_sweep cfg _ _ _ _).trans h

theorem next_evalMaster (j : Job) (b : Broker) :
    (b.evalMaster cfg j).sNextNotificationID = b.sNextNotificationID := by
  unfold evalMaster
  split <;> rfl

/-- A notification for the list of interfaces takes one ID. -/
theorem next_handleNotifyInterfaceListChange (ctx : SocketConnectionContext)
    (pulse : SFNDPulseInfo) (b : Broker) :
    (b.handleNotifyInterfaceListChange cfg ctx pulse).1.sNextNotificationID =
      b.sNextNotificationID + 1 := by
  have h := next_addNotification cfg .serverListChange ctx pulse id b
  unfold handleNotifyInterfaceListChange addPlain
  dsimp only
  split
  · exact h
  · exact (next_evalMaster cfg _ _).trans h

/-- So does one with an expression. -/
theorem next_handleNotifyInterfaceListMatch (ctx : SocketConnectionContext)
    (pulse : SFNDPulseInfo) (regExpr : CString) (b : Broker) :
    (b.handleNotifyInterfaceListMatch cfg ctx pulse regExpr).1.sNextNotificationID =
      b.sNextNotificationID + 1 := by
  have h : (b.addRegExp cfg .serverListChange regExpr ctx pulse).2.sNextNotificationID =
      b.sNextNotificationID + 1 := by
    unfold addRegExp
    split
    · exact next_addNotification cfg .serverListChange ctx pulse _ b
    · rfl
  unfold handleNotifyInterfaceListMatch
  dsimp only
  split
  · exact h
  · dsimp only [respond]
    split
    · exact (nextNotificationID_sweep cfg _ _ _ _).trans ((next_evalMaster cfg _ _).trans h)
    · exact (next_evalMaster cfg _ _).trans h

/-- What the master is asked takes no ID. -/
theorem next_askMasterExtended (c : Nat) (d : InterfaceDescription) (pos : Nat)
    (poolFound : Bool) (id : UInt32) (b : Broker) :
    (b.askMasterExtended cfg c d pos poolFound id).1.sNextNotificationID =
      b.sNextNotificationID := by
  unfold askMasterExtended
  dsimp only
  split
  · rfl
  · split <;> rfl
  · split <;> rfl

/-- An extended attach that goes on to the master takes one ID. -/
theorem next_forwardAttachExtendedToMaster (ctx : SocketConnectionContext)
    (pulse : SFNDPulseInfo) (d : InterfaceDescription) (b : Broker) :
    (b.forwardAttachExtendedToMaster cfg ctx pulse d).1.sNextNotificationID =
      b.sNextNotificationID + 1 := by
  have hpool : (b.extendedPool d).2.2.sNextNotificationID = b.sNextNotificationID := by
    unfold extendedPool
    split <;> rfl
  have h := next_addNotification cfg .serverConnect ctx pulse (fun n => { n with
    ifDescription := d, host := some ctx.mId, isLocal := cfg.isLocalService d.name,
    uid := ctx.mUid }) (b.extendedPool d).2.2
  rw [hpool] at h
  unfold forwardAttachExtendedToMaster addDescription
  dsimp only
  split
  · exact h
  · split
    · exact h
    · exact (next_askMasterExtended cfg _ _ _ _ _ _).trans h

/-- An extended attach takes one ID at most. -/
theorem next_handleAttachInterfaceExtended (ctx : SocketConnectionContext)
    (pulse : SFNDPulseInfo) (d : InterfaceDescription) (stackPulse : SFNDPulseInfo) (b : Broker) :
    (b.handleAttachInterfaceExtended cfg ctx pulse d stackPulse).1.sNextNotificationID ≤
      b.sNextNotificationID + 1 := by
  unfold handleAttachInterfaceExtended
  split
  · split
    · next entry _ =>
      have h1 := next_of_prims cfg (by simp [attachLabels])
        (prims_handleAttachLocalInterface cfg ctx entry b)
      dsimp only
      split
      · exact Nat.le_succ_of_le (Nat.le_of_eq h1)
      · have h2 := next_notifyServerDisconnect cfg ctx entry.partyID stackPulse
          (b.handleAttachLocalInterface cfg ctx entry).2
        rw [h1] at h2
        split <;> exact Nat.le_of_eq h2
    · split
      · have h1 := next_notifyServerAvailable cfg ctx pulse d b
        dsimp only
        split <;> exact h1
      · exact Nat.le_of_eq (next_forwardAttachExtendedToMaster cfg ctx pulse d b)
  · exact Nat.le_succ _

/-- A request takes as many IDs as it sets notifications. -/
theorem next_dispatch (ctx : SocketConnectionContext) (r : Request) (b : Broker) :
    (b.dispatch cfg ctx r).1.sNextNotificationID ≤
      b.sNextNotificationID + notificationsSet r := by
  have hprims := prims_dispatch cfg ctx r b
  cases r with
  | notifyServerDisconnect serverID pulse =>
      have h := next_notifyServerDisconnect cfg ctx serverID pulse b
      simp only [dispatch, handleNotifyServerDisconnect]
      split <;> exact Nat.le_of_eq h
  | notifyServerAvailable pulse d =>
      have h := next_notifyServerAvailable cfg ctx pulse d b
      simp only [dispatch, handleNotifyServerAvailable]
      split <;> exact h
  | notifyServerAvailableEx count records =>
      have h := next_availableRecords cfg ctx count.toInt.toNat records b
      simp only [dispatch, handleNotifyServerAvailableEx]
      split <;> exact h
  | notifyClientDetach clientID pulse =>
      exact Nat.le_of_eq (next_handleNotifyClientDetach cfg ctx clientID pulse b)
  | notifyInterfaceListChange pulse =>
      exact Nat.le_of_eq (next_handleNotifyInterfaceListChange cfg ctx pulse b)
  | notifyInterfaceListMatch pulse regExpr =>
      exact Nat.le_of_eq (next_handleNotifyInterfaceListMatch cfg ctx pulse regExpr b)
  | attachInterfaceExtended pulse d stackPulse =>
      exact next_handleAttachInterfaceExtended cfg ctx pulse d stackPulse b
  | _ =>
      refine Nat.le_of_eq (next_of_prims cfg ?_ hprims)
      simp [requestLabels, registerLabels, unregisterLabels, attachLabels, clearLabels]

/-- The answer to a request takes none. -/
theorem next_request (c : Nat) (r : Request) (b : Broker) :
    (b.request cfg c r).sNextNotificationID ≤ b.sNextNotificationID + notificationsSet r := by
  unfold request
  split
  · exact Nat.le_add_right _ _
  · next k _ =>
    split
    · exact Nat.le_add_right _ _
    · have h := next_dispatch cfg (k.ctx c) r b
      dsimp only
      split <;> exact h

end Counter

/-! ## A broker on its own -/

/-- What happens to a broker without a master: connections and their requests. -/
def aloneEvent : Event → Bool
  | .connected _ _ _ | .request _ _ | .closed _ => true
  | _ => false

/-- The IDs of the notifications that the event may create are below
`INVALID_NOTIFICATION_ID`. -/
def idsFit (b : Broker) : Event → Bool
  | .request _ r => decide (b.sNextNotificationID + notificationsSet r < 2 ^ 32 - 1)
  | _ => true

/-- The labels of what can happen to a broker without a master. -/
def aloneLabels : Event → List Label
  | .request _ r => requestLabels r
  | .closed _ => closeLabels
  | _ => [.quiet]

/-- What happens to a broker without a master is a sequence of updates. -/
theorem prims_step (cfg : Config) (b : Broker) {e : Event} (he : aloneEvent e = true) :
    Prims cfg (aloneLabels e) b (b.step cfg e) := by
  cases e with
  | connected nodeAddress localAddress uid =>
      exact prims_openConnection cfg nodeAddress localAddress uid b
  | request c r => exact prims_request cfg c r b
  | closed c => exact prims_closeConnection cfg c b
  | pulse => simp [aloneEvent] at he
  | deliver => simp [aloneEvent] at he
  | worker => simp [aloneEvent] at he

/-- A step that fits keeps the counter from wrapping. -/
theorem next_step {cfg : Config} {b : Broker} {e : Event} (he : aloneEvent e = true)
    (hfits : idsFit b e = true) (h : b.sNextNotificationID < 2 ^ 32 - 1) :
    (b.step cfg e).sNextNotificationID < 2 ^ 32 - 1 := by
  cases e with
  | connected => exact h
  | request c r =>
      have hle := next_request cfg c r b
      simp only [idsFit, decide_eq_true_eq] at hfits
      exact Nat.lt_of_le_of_lt hle hfits
  | closed c =>
      have hsame := next_of_prims cfg (by simp [closeLabels]) (prims_closeConnection cfg c b)
      exact hsame ▸ h
  | pulse => simp [aloneEvent] at he
  | deliver => simp [aloneEvent] at he
  | worker => simp [aloneEvent] at he

end Broker

end Dsi
