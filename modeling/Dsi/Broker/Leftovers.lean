import Dsi.Broker.Access
import Dsi.Broker.Holdings

/-!
# Dsi.Broker.Leftovers

What a connection leaves behind.  Its list of notification IDs is edited in two ways:
`ClientSpecificData::clear` filters the notification lists by it, and every
notification that goes takes its ID out of it with `std::remove`, which shifts the list
and leaves stale IDs at its end.  The ID of a notification that is still set is never
lost: with distinct IDs only the notification itself takes its ID out.
-/

namespace Dsi

open Sequence

/-- The notification IDs in a response.  Where a notification was not set, the answer to
`NOTIFY_SERVER_AVAILABLE_EX` has `INVALID_NOTIFICATION_ID`. -/
def Response.notificationIDs (r : Response) : List UInt32 :=
  match r.body with
  | .attachExtended _ id | .notificationID id => [id]
  | .notificationIDs l => l.map (·.notificationID)
  | .empty | .serverID _ | .serverIDs _ | .connInfo _ | .serverInfo _ | .interfaces _ => []

namespace Broker

variable {cfg : Config}

/-! ## IDs -/

/-- The ID is one of those that the counter gave out on its way from `m` to `n`. -/
def Made (m n : Nat) (id : UInt32) : Prop := ∃ i, m < i ∧ i ≤ n ∧ id = UInt32.ofNat i

/-- No ID is made where the counter stays. -/
theorem not_made_self (n : Nat) (id : UInt32) : ¬ Made n n id := by
  rintro ⟨i, hlt, hle, _⟩
  omega

/-- An ID that is made stays made. -/
theorem Made.mono {m n p : Nat} {id : UInt32} (h : Made m n id) (hle : n ≤ p) : Made m p id := by
  obtain ⟨i, hm, hn, hid⟩ := h
  exact ⟨i, hm, by omega, hid⟩

/-- One step of the counter makes one ID. -/
theorem made_succ {n : Nat} {id : UInt32} : Made n (n + 1) id ↔ id = UInt32.ofNat (n + 1) := by
  constructor
  · rintro ⟨i, hlt, hle, rfl⟩
    rw [show i = n + 1 by omega]
  · rintro rfl
    exact ⟨n + 1, by omega, by omega, rfl⟩

theorem Made.from_zero {m n : Nat} {id : UInt32} (h : Made m n id) : Made 0 n id := by
  obtain ⟨i, hm, hn, hid⟩ := h
  exact ⟨i, by omega, hn, hid⟩

/-- What is made in two stretches is made in one of them. -/
theorem made_trans {m n p : Nat} (hmn : m ≤ n) (hnp : n ≤ p) (id : UInt32) :
    Made m p id ↔ Made m n id ∨ Made n p id := by
  constructor
  · rintro ⟨i, hm, hp, hid⟩
    rcases Nat.lt_or_ge n i with hlt | hge
    · exact Or.inr ⟨i, hlt, hp, hid⟩
    · exact Or.inl ⟨i, hm, hge, hid⟩
  · rintro (⟨i, hm, hn, hid⟩ | ⟨i, hn, hp, hid⟩)
    · exact ⟨i, hm, by omega, hid⟩
    · exact ⟨i, by omega, hp, hid⟩

/-- As long as the counter has not run around, no ID is given out twice. -/
theorem Made.not_again {n p : Nat} {id : UInt32} (h : Made 0 n id) (hfits : p ≤ 2 ^ 32) :
    ¬ Made n p id := by
  rintro ⟨j, hn, hp, rfl⟩
  obtain ⟨i, hi, hin, hid⟩ := h
  have hmod := congrArg UInt32.toNat hid
  rw [UInt32.toNat_ofNat', UInt32.toNat_ofNat', Nat.mod_eq_of_lt (by omega : i < 2 ^ 32)] at hmod
  rcases Nat.lt_or_ge j (2 ^ 32) with hlt | hge
  · rw [Nat.mod_eq_of_lt hlt] at hmod
    omega
  · obtain rfl : j = 2 ^ 32 := by omega
    rw [Nat.mod_self] at hmod
    omega

/-- The IDs of the notifications made so far are distinct. -/
def IDsDistinct (b : Broker) : Prop :=
  ((List.range' 1 b.sNextNotificationID).map UInt32.ofNat).Nodup

instance (b : Broker) : Decidable (IDsDistinct b) := inferInstanceAs (Decidable (List.Nodup _))

/-- Distinct IDs mean that the counter has not wrapped. -/
theorem IDsDistinct.fits {b : Broker} (h : IDsDistinct b) : b.sNextNotificationID ≤ 2 ^ 32 := by
  by_contra hlt
  have hsame : (1 : Nat) = 2 ^ 32 + 1 :=
    List.inj_on_of_nodup_map h (by rw [List.mem_range'_1]; omega) (by rw [List.mem_range'_1]; omega)
      (by decide)
  omega

/-! ## The list of a connection -/

/-- What a connection owns is changed there and nowhere else. -/
theorem notificationList_modifyData (c c' : Nat) (f : ClientSpecificData → ClientSpecificData)
    (b : Broker) : (b.modifyData c f).notificationList c' =
      if c' = c then ((b.data? c).map (fun d => (f d).mNotificationList)).getD []
      else b.notificationList c' := by
  simp only [notificationList, data?, modifyData, setConnection]
  split
  · rw [Option.map_map, Option.map_map, Option.map_map]
    rfl
  · rfl

theorem notificationList_setConnection (c c' : Nat) (k : Option Connection) (b : Broker) :
    (b.setConnection c k).notificationList c' =
      if c' = c then (k.map (·.data.mNotificationList)).getD [] else b.notificationList c' := by
  simp only [notificationList, data?, setConnection]
  split
  · rw [Option.map_map]
    rfl
  · rfl

/-- A list has its new ID besides the old ones. -/
theorem mem_notificationList_add {b : Broker} {c : Nat} (hc : (b.conns c).isSome) (id : UInt32)
    (c' : Nat) (x : UInt32) : x ∈ (b.modifyData c (·.addNotification id)).notificationList c' ↔
      x ∈ b.notificationList c' ∨ (c' = c ∧ x = id) := by
  rw [notificationList_modifyData]
  split
  · next hcc =>
    subst hcc
    obtain ⟨k, hk⟩ := Option.isSome_iff_exists.mp hc
    simp [Broker.notificationList, data?, hk, ClientSpecificData.addNotification]
  · next hcc => simp [hcc]

/-- A list that an ID is removed from has nothing new. -/
theorem mem_of_mem_notificationList_remove {b : Broker} {c c' : Nat} {id x : UInt32}
    (h : x ∈ (b.modifyData c (·.removeNotification id)).notificationList c') :
    x ∈ b.notificationList c' := by
  rw [notificationList_modifyData] at h
  split at h
  · next hc =>
    subst hc
    unfold Broker.notificationList
    cases hd : b.data? c' with
    | none => rw [hd] at h; exact h
    | some d =>
        rw [hd] at h
        exact mem_of_mem_removeShift h
  · exact h

/-- The other IDs stay in the list. -/
theorem mem_notificationList_remove {b : Broker} {c c' : Nat} {id x : UInt32}
    (h : x ∈ b.notificationList c') (hne : x ≠ id) :
    x ∈ (b.modifyData c (·.removeNotification id)).notificationList c' := by
  rw [notificationList_modifyData]
  split
  · next hc =>
    subst hc
    unfold Broker.notificationList at h
    cases hd : b.data? c' with
    | none => rw [hd] at h; exact h
    | some d =>
        rw [hd] at h
        exact mem_removeShift_of_ne h hne
  · exact h

theorem notificationList_of_conns {b b' : Broker} (h : b'.conns = b.conns) (c : Nat) :
    b'.notificationList c = b.notificationList c := by
  simp only [notificationList, data?, h]

/-- Where the holdings stay, so do the lists of IDs. -/
theorem Still.notificationList {b b' : Broker} (h : Still b b') (c : Nat) :
    b'.notificationList c = b.notificationList c := by
  have hmap := h.map_conns (g := fun k => k.data.mNotificationList) (f := fun t => t.2.2)
    (fun _ => rfl) c
  simp only [Broker.notificationList, data?, Option.map_map]
  exact congrArg (·.getD []) hmap

/-- A pulse that is sent leaves the connections alone. -/
theorem conns_send (cfg : Config) (n : Notification) (b : Broker) :
    (b.send cfg n).2.conns = b.conns := by
  unfold send doConnect
  dsimp only
  split
  · rfl
  · split <;> rfl

theorem conns_createClearNotificationJob (cfg : Config) (id : UInt32) (b : Broker) :
    (b.createClearNotificationJob cfg id).conns = b.conns := by
  unfold createClearNotificationJob evalMaster
  split <;> rfl

/-- The master's notification is released by a job, which leaves the connections alone. -/
theorem conns_releaseMaster (cfg : Config) (n : Notification) (b : Broker) :
    (b.releaseMaster cfg n).conns = b.conns := by
  unfold releaseMaster detachPool
  split
  · split
    · split
      · rfl
      · dsimp only
        split
        · split
          · exact conns_createClearNotificationJob cfg _ _
          · rfl
        · rfl
    · rfl
  · split
    · exact conns_createClearNotificationJob cfg _ b
    · rfl

/-- A notification takes no ID but its own out of the list it is in. -/
theorem mem_notificationList_destroy {n : Notification} {b : Broker} {c : Nat} {id : UInt32}
    (h : id ∈ b.notificationList c) (hne : id ≠ n.notificationID) :
    id ∈ (b.destroy cfg n).notificationList c := by
  unfold destroy
  rw [notificationList_of_conns (conns_releaseMaster cfg n _)]
  unfold unhost
  split
  · exact mem_notificationList_remove h hne
  · exact h

/-! ## Loops -/

/-- The IDs from `live` for which `Kept` says so are in the list of the connection. -/
def Listed (Kept : Nat → UInt32 → Prop) (live : List UInt32) (b : Broker) : Prop :=
  ∀ c id, Kept c id → id ∈ live → id ∈ b.notificationList c

section Loops

variable {Kept : Nat → UInt32 → Prop}

/-- Fewer live notifications are still listed. -/
theorem Listed.mono {live live' : List UInt32} {b : Broker} (h : Listed Kept live b)
    (hsub : live' ⊆ live) : Listed Kept live' b :=
  fun c id hk hid => h c id hk (hsub hid)

/-- The lists of the connections are all that counts. -/
theorem Listed.of_lists {live : List UInt32} {b b' : Broker} (h : Listed Kept live b)
    (hl : ∀ c, b'.notificationList c = b.notificationList c) : Listed Kept live b' :=
  fun c id hk hid => hl c ▸ h c id hk hid

/-- A notification that fires is still listed. -/
theorem Listed.send (cfg : Config) {live : List UInt32} {b : Broker} (h : Listed Kept live b)
    (n : Notification) : Listed Kept live (b.send cfg n).2 :=
  h.of_lists (fun c => notificationList_of_conns (conns_send cfg n b) c)

/-- When a notification goes, the IDs of the others stay in their lists. -/
theorem Listed.destroy {others rest : List UInt32} {n : Notification} {b : Broker}
    (h : Listed Kept (others ++ n.notificationID :: rest) b)
    (hnodup : (others ++ n.notificationID :: rest).Nodup) :
    Listed Kept (others ++ rest) (b.destroy cfg n) := by
  intro c id hk hid
  have hcons := List.nodup_cons.mp (List.perm_middle.nodup_iff.mp hnodup)
  have hmem : id ∈ others ++ n.notificationID :: rest := by
    simp only [List.mem_append, List.mem_cons] at hid ⊢
    tauto
  exact mem_notificationList_destroy (h c id hk hmem) (fun he => hcons.1 (he ▸ hid))

/-- An element that is taken out of a list without duplicates leaves one. -/
theorem nodup_middle {others rest : List UInt32} {id : UInt32}
    (h : (others ++ id :: rest).Nodup) : (others ++ rest).Nodup :=
  (List.nodup_cons.mp (List.perm_middle.nodup_iff.mp h)).2

/-- A loop over a notification list loses no ID of a notification that it leaves. -/
theorem listed_sweepLoop (cfg : Config) (once : Bool) (act : Broker → Notification → Action)
    (ns : List Notification) {others : List UInt32} {b : Broker}
    (h : Listed Kept (others ++ ids ns) b) (hnodup : (others ++ ids ns).Nodup) :
    Listed Kept (others ++ ids (sweepLoop cfg once act ns b).1)
      (sweepLoop cfg once act ns b).2 := by
  induction ns generalizing others b with
  | nil => exact h
  | cons n ns ih =>
      have hhead {b' : Broker} (h' : Listed Kept (others ++ n.notificationID :: ids ns) b') :
          Listed Kept (others ++ n.notificationID :: ids (sweepLoop cfg once act ns b').1)
            (sweepLoop cfg once act ns b').2 := by
        rw [List.append_cons] at h' ⊢
        exact ih h' (by rwa [← List.append_cons])
      have hgone {b' : Broker} (h' : Listed Kept (others ++ ids ns) b') :=
        ih h' (nodup_middle hnodup)
      obtain ⟨pulse, coid, hs⟩ := send_fst cfg n b
      have hsid : (b.send cfg n).1.notificationID = n.notificationID := by rw [hs]
      have hfired : Listed Kept (others ++ ids ns)
          ((b.send cfg n).2.destroy cfg (b.send cfg n).1) := by
        have hsent := h.send cfg n
        rw [ids, List.map_cons, ← hsid] at hsent hnodup
        exact hsent.destroy hnodup
      rw [sweepLoop]
      split
      · exact hhead h
      · exact hhead h
      · dsimp only
        split
        · rw [ids, List.map_cons, hsid]
          exact h.send cfg n
        · rw [ids, List.map_cons, hsid]
          exact hhead (h.send cfg n)
      · dsimp only
        split
        · exact hfired
        · exact hgone hfired
      · dsimp only
        split
        · exact h.destroy hnodup
        · exact hgone (h.destroy hnodup)

/-- A loop that erases every notification whose ID is in the list of connection `c` leaves
none that `Kept` gives to `c`. -/
theorem not_kept_sweepLoop (c : Nat) (ns : List Notification) {others : List UInt32} {b : Broker}
    (h : Listed Kept (others ++ ids ns) b) (hnodup : (others ++ ids ns).Nodup) :
    ∀ n ∈ (sweepLoop cfg false (fun b n =>
      if n.notificationID ∈ ((b.data? c).map (·.mNotificationList)).getD [] then .drop else .keep)
        ns b).1, ¬ Kept c n.notificationID := by
  induction ns generalizing others b with
  | nil => simp [sweepLoop]
  | cons n ns ih =>
      rw [sweepLoop]
      by_cases hmem : n.notificationID ∈ b.notificationList c
      · have hmem' := hmem
        unfold notificationList at hmem'
        rw [if_pos hmem']
        exact ih (h.destroy hnodup) (nodup_middle hnodup)
      · have hmem' := hmem
        unfold notificationList at hmem'
        rw [if_neg hmem']
        intro n' hn'
        rcases List.mem_cons.mp hn' with rfl | hn'
        · exact fun hk => hmem (h c _ hk (by simp [ids]))
        · rw [ids, List.map_cons, List.append_cons] at h hnodup
          exact ih h hnodup n' hn'

end Loops

/-- A removal takes the first notification with the ID out of its list. -/
theorem ids_removeNotification_loop (x : UInt32) (ns : List Notification) (b : Broker) :
    ids (sweepLoop cfg true (fun _ n => if n.notificationID = x then .drop else .keep) ns b).1 =
      (ids ns).erase x := by
  induction ns generalizing b with
  | nil => rfl
  | cons n ns ih =>
      rw [sweepLoop]
      by_cases hx : n.notificationID = x
      · simp [hx, ids]
      · have hne : (n.notificationID == x) = false := by simpa using hx
        simp only [hx, if_false]
        show n.notificationID :: ids _ = (n.notificationID :: ids ns).erase x
        rw [ih, List.erase_cons_tail (by simpa using hx)]

/-- Nothing is made where a notification is cleared. -/
theorem next_handleClearNotification (cfg : Config) (ctx : SocketConnectionContext) (id : UInt32)
    (b : Broker) : (b.handleClearNotification cfg ctx id).1.sNextNotificationID =
      b.sNextNotificationID := by
  unfold handleClearNotification
  split
  · simp only [respond, removeNotification, nextNotificationID_sweep]
    rfl
  · rfl

/-- Only the creation of a notification moves the counter. -/
theorem Move.next_eq {c : Nat} {l : MoveLabel} {b b' : Broker} (h : Move cfg c l b b')
    (hl : l ≠ .create) : b'.sNextNotificationID = b.sNextNotificationID := by
  cases h with
  | still hs => exact hs.nextNotificationID
  | sweep _ once k act => exact nextNotificationID_sweep cfg once k act b
  | hosted => exact absurd rfl hl
  | failed => exact absurd rfl hl
  | skipped => exact absurd rfl hl
  | addServer => rfl
  | removeServer => rfl
  | addClient => rfl
  | removeClient => rfl
  | clear _ _ id => exact next_handleClearNotification cfg _ id b

/-- The counter never runs backwards. -/
theorem Move.next_le {c : Nat} {l : MoveLabel} {b b' : Broker} (h : Move cfg c l b b') :
    b.sNextNotificationID ≤ b'.sNextNotificationID := by
  by_cases hl : l = .create
  · subst hl
    cases h with
    | @hosted _ k ctx pulse setup =>
        have hnext := next_addNotification cfg k ctx pulse setup b
        exact Nat.le_of_lt (hnext ▸ Nat.lt_succ_self _)
    | @failed _ k ctx pulse setup =>
        have hnext := next_addNotification cfg k ctx pulse setup b
        exact Nat.le_of_lt (hnext ▸ Nat.lt_succ_self _)
    | skipped => exact Nat.le_succ _
  · exact Nat.le_of_eq (h.next_eq hl).symm

/-- Without a new notification the counter stays. -/
theorem Moves.next_eq {c : Nat} {L : List MoveLabel} {b b' : Broker} (h : Moves cfg c L b b')
    (hL : .create ∉ L) : b'.sNextNotificationID = b.sNextNotificationID := by
  refine h.preserves (I := fun b' => b'.sNextNotificationID = b.sNextNotificationID) ?_ rfl
  exact fun l hl b₁ b₂ hm he => (hm.next_eq (fun hc => hL (hc ▸ hl))).trans he

theorem Moves.next_le {c : Nat} {L : List MoveLabel} {b b' : Broker} (h : Moves cfg c L b b') :
    b.sNextNotificationID ≤ b'.sNextNotificationID := by
  refine h.preserves (I := fun b' => b.sNextNotificationID ≤ b'.sNextNotificationID) ?_
    (Nat.le_refl _)
  exact fun l _ b₁ b₂ hm hle => Nat.le_trans hle hm.next_le

/-- The notifications of a connection leave the four lists. -/
def removeAllOf (cfg : Config) (c : Nat) (b : Broker) : Broker :=
  let b := b.removeNotificationsOf cfg .serverDisconnect c
  let b := b.removeNotificationsOf cfg .clientDetach c
  let b := b.removeNotificationsOf cfg .serverConnect c
  b.removeNotificationsOf cfg .serverListChange c

/-- The end of `clear`: who waits for a change of the servers is told if there were any. -/
def clearEnd (cfg : Config) (servers : PartyIDList) (c : Nat) (b : Broker) : Broker :=
  if servers.elems ≠ [] then (b.removeAllOf cfg c).triggerAll cfg .serverListChange
  else b.removeAllOf cfg c

/-- A connection is cleared in three parts: its parties, what watches them, and its own
notifications. -/
theorem clear_clearEnd (cfg : Config) (c : Nat) (b : Broker) :
    b.clear cfg c = (((b.clearParties cfg c).triggerList cfg .serverDisconnect
      (b.dataOf c).mServerList).triggerList cfg .clientDetach (b.dataOf c).mClientList).clearEnd
        cfg (b.dataOf c).mServerList c := rfl

/-! ## The invariant -/

/-- `H` says for which connection an ID was made.  The notifications that are set have
distinct IDs, the list of a connection holds IDs made for it, and the IDs of those
notifications among them that are set are all there, apart from those in `X`. -/
structure Hosted (H : Nat → UInt32 → Prop) (X : UInt32 → Prop) (b : Broker) : Prop where
  live : ∀ id ∈ ids b.live, Made 0 b.sNextNotificationID id
  nodup : (ids b.live).Nodup
  made : ∀ c id, H c id → Made 0 b.sNextNotificationID id
  disjoint : ∀ c c' id, H c id → H c' id → c = c'
  lists : ∀ c id, id ∈ b.notificationList c → H c id
  kept : Listed (fun c id => H c id ∧ ¬ X id) (ids b.live) b

/-- The IDs made for the connections, when those between `m` and `n` are made for `c`. -/
def grant (H : Nat → UInt32 → Prop) (c m n : Nat) : Nat → UInt32 → Prop :=
  fun c' id => H c' id ∨ (c' = c ∧ Made m n id)

/-- Nothing is granted where nothing is made. -/
theorem grant_self (H : Nat → UInt32 → Prop) (c n : Nat) : grant H c n n = H := by
  funext c' id
  simp [grant, not_made_self]

/-- Two grants to one connection are one. -/
theorem grant_grant (H : Nat → UInt32 → Prop) (c : Nat) {m n p : Nat} (hmn : m ≤ n) (hnp : n ≤ p) :
    grant (grant H c m n) c n p = grant H c m p := by
  funext c' id
  simp only [grant, made_trans hmn hnp id, eq_iff_iff]
  tauto

namespace Hosted

variable {H : Nat → UInt32 → Prop} {X : UInt32 → Prop} {b b' : Broker}

/-- The same IDs are live and the lists are the same. -/
theorem of_eq (h : Hosted H X b) (hlive : ids b'.live = ids b.live)
    (hnext : b'.sNextNotificationID = b.sNextNotificationID)
    (hlists : ∀ c, b'.notificationList c = b.notificationList c) : Hosted H X b' where
  live := by rw [hlive, hnext]; exact h.live
  nodup := by rw [hlive]; exact h.nodup
  made := by rw [hnext]; exact h.made
  disjoint := h.disjoint
  lists c id hid := h.lists c id (hlists c ▸ hid)
  kept := by rw [hlive]; exact h.kept.of_lists hlists

/-- The lists and the connections are all that counts. -/
theorem still (h : Hosted H X b) (hs : Still b b') : Hosted H X b' :=
  h.of_eq (ids_live_congr hs.ids) hs.nextNotificationID hs.notificationList

theorem modifyData (h : Hosted H X b) (c : Nat) {f : ClientSpecificData → ClientSpecificData}
    (hf : ∀ d, (f d).mNotificationList = d.mNotificationList) : Hosted H X (b.modifyData c f) := by
  refine h.of_eq rfl rfl (fun c' => ?_)
  rw [notificationList_modifyData]
  simp only [hf]
  split
  · next hc => rw [hc]; rfl
  · rfl

/-- More IDs may be missing from the lists. -/
theorem weaken {Y : UInt32 → Prop} (h : Hosted H X b) (hXY : ∀ id, X id → Y id) :
    Hosted H Y b where
  live := h.live
  nodup := h.nodup
  made := h.made
  disjoint := h.disjoint
  lists := h.lists
  kept c id hk hid := h.kept c id ⟨hk.1, fun hx => hk.2 (hXY id hx)⟩ hid

/-- A sweep makes no notification. -/
theorem sweep (cfg : Config) (h : Hosted H X b) (once : Bool) (k : NotificationKind)
    (act : Broker → Notification → Action) : Hosted H X (b.sweep cfg once k act) := by
  have hperm := (live_sweep_perm cfg once k act b).map (·.notificationID)
  rw [List.map_append] at hperm
  have hbefore := ids_live_perm b k
  have hsub := (ids_sweepLoop_sublist cfg once act (b.notifications k) b).append_left
    (ids (b.others k))
  have hlist (c : Nat) : (b.sweep cfg once k act).notificationList c =
      (sweepLoop cfg once act (b.notifications k) b).2.notificationList c := by
    rw [sweep_eq]
    cases k <;> rfl
  constructor
  case live =>
    intro id hid
    rw [nextNotificationID_sweep]
    exact h.live id (hbefore.mem_iff.mpr (hsub.subset (hperm.mem_iff.mp hid)))
  case nodup => exact hperm.nodup_iff.mpr ((hbefore.nodup_iff.mp h.nodup).sublist hsub)
  case made => rw [nextNotificationID_sweep]; exact h.made
  case disjoint => exact h.disjoint
  case lists =>
    intro c id hid
    exact h.lists c id (lists_sweep cfg once k act b c hid)
  case kept =>
    have hkept := listed_sweepLoop cfg once act (b.notifications k)
      (h.kept.mono hbefore.symm.subset) (hbefore.nodup_iff.mp h.nodup)
    exact (hkept.mono hperm.subset).of_lists hlist

/-! ### Making and clearing a notification -/

/-- A new notification is granted to the connection that it is made for. -/
theorem created (h : Hosted H X b) {k : NotificationKind} (hc : Creates k b b')
    (hfits : b'.sNextNotificationID ≤ 2 ^ 32) (hconns : b'.conns = b.conns) {c : Nat}
    (hX : UInt32.ofNat (b.sNextNotificationID + 1) ∈ ids b'.live →
      X (UInt32.ofNat (b.sNextNotificationID + 1))) :
    Hosted (grant H c b.sNextNotificationID b'.sNextNotificationID) X b' := by
  have hle : b.sNextNotificationID ≤ b'.sNextNotificationID := by rw [hc.next]; omega
  have hnew : Made b.sNextNotificationID b'.sNextNotificationID
      (UInt32.ofNat (b.sNextNotificationID + 1)) := by
    rw [hc.next]
    exact made_succ.mpr rfl
  have hfresh {id : UInt32} (hid : Made 0 b.sNextNotificationID id) :
      id ≠ UInt32.ofNat (b.sNextNotificationID + 1) := fun he =>
    hid.not_again hfits (he ▸ hnew)
  have hlive {id : UInt32} (hid : id ∈ ids b'.live) :
      id ∈ ids b.live ∨ id = UInt32.ofNat (b.sNextNotificationID + 1) := by
    rcases hc.ids_live with hperm | hperm
    · exact Or.inl (hperm.mem_iff.mp hid)
    · exact (List.mem_cons.mp (hperm.mem_iff.mp hid)).symm
  have hlists (c' : Nat) := notificationList_of_conns hconns c'
  constructor
  case live =>
    intro id hid
    rcases hlive hid with hold | rfl
    · exact (h.live id hold).mono hle
    · exact hnew.from_zero
  case nodup =>
    rcases hc.ids_live with hperm | hperm
    · exact hperm.nodup_iff.mpr h.nodup
    · refine hperm.nodup_iff.mpr (List.nodup_cons.mpr ⟨fun hmem => ?_, h.nodup⟩)
      exact hfresh (h.live _ hmem) rfl
  case made =>
    rintro c' id (hold | ⟨_, hid⟩)
    · exact (h.made c' id hold).mono hle
    · exact hid.from_zero
  case disjoint =>
    rintro c₁ c₂ id (h₁ | ⟨rfl, h₁⟩) (h₂ | ⟨rfl, h₂⟩)
    · exact h.disjoint c₁ c₂ id h₁ h₂
    · exact absurd h₂ ((h.made c₁ id h₁).not_again hfits)
    · exact absurd h₁ ((h.made c₂ id h₂).not_again hfits)
    · rfl
  case lists =>
    intro c' id hid
    rw [hlists] at hid
    exact Or.inl (h.lists c' id hid)
  case kept =>
    rintro c' id ⟨hmade, hX'⟩ hid
    rw [hlists]
    rcases hlive hid with hold | rfl
    · rcases hmade with hmade | ⟨_, hmade⟩
      · exact h.kept c' id ⟨hmade, hX'⟩ hold
      · exact absurd hmade ((h.live id hold).not_again hfits)
    · exact absurd (hX hid) hX'

/-- The missing ID goes into the list of its connection. -/
theorem addNotification {c : Nat} {id : UInt32} (h : Hosted H (fun x => X x ∨ x = id) b)
    (hid : H c id) (hc : (b.conns c).isSome) :
    Hosted H X (b.modifyData c (·.addNotification id)) where
  live := h.live
  nodup := h.nodup
  made := h.made
  disjoint := h.disjoint
  lists c' x hx := by
    rcases (mem_notificationList_add hc id c' x).mp hx with hold | ⟨rfl, rfl⟩
    · exact h.lists c' x hold
    · exact hid
  kept c' x hk hx := by
    rw [mem_notificationList_add hc]
    by_cases hnew : x = id
    · subst hnew
      exact Or.inr ⟨h.disjoint c' c x hk.1 hid, rfl⟩
    · exact Or.inl (h.kept c' x ⟨hk.1, by tauto⟩ hx)

/-- An ID is taken out of the list of a connection. -/
theorem removeNotification (h : Hosted H X b) (c : Nat) (id : UInt32) :
    Hosted H (fun x => X x ∨ x = id) (b.modifyData c (·.removeNotification id)) where
  live := h.live
  nodup := h.nodup
  made := h.made
  disjoint := h.disjoint
  lists c' x hx := h.lists c' x (mem_of_mem_notificationList_remove hx)
  kept c' x hk hx := mem_notificationList_remove
    (h.kept c' x ⟨hk.1, fun hX => hk.2 (Or.inl hX)⟩ hx) (fun he => hk.2 (Or.inr he))

/-- An ID that is not live does not count as missing. -/
theorem restore {id : UInt32} (h : Hosted H (fun x => X x ∨ x = id) b)
    (hid : id ∉ ids b.live) : Hosted H X b where
  live := h.live
  nodup := h.nodup
  made := h.made
  disjoint := h.disjoint
  lists := h.lists
  kept c x hk hx := by
    refine h.kept c x ⟨hk.1, ?_⟩ hx
    rintro (hX | rfl)
    · exact hk.2 hX
    · exact hid hx

/-- A removed ID is not in the list any more, since no two notifications have it. -/
theorem not_mem_removed (h : Hosted H X b) (k : NotificationKind) (id : UInt32) :
    id ∉ ids ((b.removeNotification cfg k id).notifications k) := by
  have hnodup := (ids_live_perm b k).nodup_iff.mp h.nodup
  rw [Broker.removeNotification, notifications_sweep, if_pos rfl, ids_removeNotification_loop]
  exact fun hmem => absurd rfl ((List.Nodup.mem_erase_iff hnodup.of_append_right).mp hmem).1

/-- A cleared notification is gone from the list of its connection and from the broker. -/
theorem handleClearNotification (h : Hosted H X b) (ctx : SocketConnectionContext)
    (id : UInt32) : Hosted H X (b.handleClearNotification cfg ctx id).1 := by
  have hstays {b : Broker} {k k' : NotificationKind} (hid : id ∉ ids (b.notifications k)) :
      id ∉ ids ((b.removeNotification cfg k' id).notifications k) :=
    fun hmem => hid ((ids_sweep_sublist cfg true k' _ b k).subset hmem)
  unfold Broker.handleClearNotification
  split
  · have h0 := h.removeNotification ctx.mId id
    have h1 := h0.sweep cfg true .clientDetach
      (fun _ n => if n.notificationID = id then .drop else .keep)
    have h2 := h1.sweep cfg true .serverDisconnect
      (fun _ n => if n.notificationID = id then .drop else .keep)
    have h3 := h2.sweep cfg true .serverConnect
      (fun _ n => if n.notificationID = id then .drop else .keep)
    have h4 := h3.sweep cfg true .serverListChange
      (fun _ n => if n.notificationID = id then .drop else .keep)
    refine h4.restore ?_
    rw [mem_ids_live]
    rintro ⟨k, hk⟩
    cases k with
    | clientDetach =>
        exact hstays (hstays (hstays (h0.not_mem_removed .clientDetach id))) hk
    | serverDisconnect => exact hstays (hstays (h1.not_mem_removed .serverDisconnect id)) hk
    | serverConnect => exact hstays (h2.not_mem_removed .serverConnect id) hk
    | serverListChange => exact h3.not_mem_removed .serverListChange id hk
  · exact h

/-! ### Moves -/

/-- One move keeps that every live notification is in the list of the connection that made it. -/
theorem move (h : Hosted H X b) (hX : X INVALID_NOTIFICATION_ID) {c : Nat} {l : MoveLabel}
    (hm : Move cfg c l b b') (hc : l = .create → (b.conns c).isSome)
    (hfits : b'.sNextNotificationID ≤ 2 ^ 32) :
    Hosted (grant H c b.sNextNotificationID b'.sNextNotificationID) X b' := by
  have hsame (hnext : b'.sNextNotificationID = b.sNextNotificationID) (h' : Hosted H X b') :
      Hosted (grant H c b.sNextNotificationID b'.sNextNotificationID) X b' := by
    rw [hnext, grant_self]
    exact h'
  -- the ID of a notification that was not set is not live
  have hunset (hids : ∀ k, ids (b'.notifications k) = ids (b.notifications k))
      (hnext : b'.sNextNotificationID = b.sNextNotificationID + 1) :
      UInt32.ofNat (b.sNextNotificationID + 1) ∉ ids b'.live := by
    rw [ids_live_congr hids]
    intro hmem
    rw [hnext] at hfits
    exact (h.live _ hmem).not_again hfits (made_succ.mpr rfl)
  cases hm with
  | still hs => exact hsame hs.nextNotificationID (h.still hs)
  | sweep _ once k act =>
      exact hsame (nextNotificationID_sweep cfg once k act b) (h.sweep cfg once k act)
  | @hosted _ k ctx pulse setup hs hctx hid =>
      have hcreates := creates_addNotification cfg k ctx pulse hs b
      obtain ⟨hconns, _⟩ := conns_addNotification cfg k ctx pulse setup b
      have hmade := (h.weaken (Y := fun x => X x ∨ x = UInt32.ofNat (b.sNextNotificationID + 1))
        (fun _ hx => Or.inl hx)).created (c := c) hcreates hfits hconns (fun _ => Or.inr rfl)
      have hnew : (b.addNotification cfg k ctx pulse setup).1 =
          UInt32.ofNat (b.sNextNotificationID + 1) := by
        obtain ⟨a, p, coid, hadd | hadd⟩ := addNotification_cases cfg k ctx pulse setup b
        · rw [hadd]
        · rw [hadd] at hid
          exact absurd rfl hid
      rw [hnew]
      refine hmade.addNotification (Or.inr ⟨rfl, ?_⟩) (hconns ▸ hc rfl)
      rw [hcreates.next]
      exact made_succ.mpr rfl
  | @failed _ k ctx pulse setup hs hid =>
      have hcreates := creates_addNotification cfg k ctx pulse hs b
      refine h.created hcreates hfits (conns_addNotification cfg k ctx pulse setup b).1 ?_
      intro hmem
      obtain ⟨a, p, coid, hadd | hadd⟩ := addNotification_cases cfg k ctx pulse setup b
      · rw [hadd] at hid
        have hinvalid : UInt32.ofNat (b.sNextNotificationID + 1) = INVALID_NOTIFICATION_ID := hid
        rw [hinvalid]
        exact hX
      · refine absurd hmem (hunset (fun k' => ?_) hcreates.next)
        rw [hadd]
        cases k' <;> rfl
  | skipped =>
      have hcreates : Creates .serverConnect b b.createNotification.2 :=
        ⟨rfl, fun _ _ => rfl, Or.inl rfl, rfl⟩
      exact h.created hcreates hfits rfl
        (fun hmem => absurd hmem (hunset (fun _ => rfl) rfl))
  | addServer => exact hsame rfl (h.modifyData c (fun _ => rfl))
  | removeServer => exact hsame rfl (h.modifyData c (fun _ => rfl))
  | addClient => exact hsame rfl (h.modifyData c (fun _ => rfl))
  | removeClient => exact hsame rfl (h.modifyData c (fun _ => rfl))
  | clear _ hctx id =>
      exact hsame (next_handleClearNotification cfg _ id b) (h.handleClearNotification _ id)

/-- A sequence of moves does, as every one of them does. -/
theorem moves (h : Hosted H X b) (hX : X INVALID_NOTIFICATION_ID) {c : Nat} {L : List MoveLabel}
    (hm : Moves cfg c L b b') (hc : .create ∈ L → (b.conns c).isSome)
    (hfits : b'.sNextNotificationID ≤ 2 ^ 32) :
    Hosted (grant H c b.sNextNotificationID b'.sNextNotificationID) X b' := by
  induction hm with
  | refl => rw [grant_self]; exact h
  | @tail b₁ b₂ l hs hl hmove ih =>
      have hle := hs.next_le
      have hle' := hmove.next_le
      rw [← grant_grant H c hle hle']
      refine (ih (by omega)).move hX hmove (fun he => ?_) hfits
      rw [(hs.conns c).1]
      exact hc (he ▸ hl)

/-! ### Closing a connection -/

/-- A connection whose notifications are removed keeps none. -/
theorem not_kept_removed (h : Hosted H X b) (k : NotificationKind) (c : Nat) :
    ∀ n ∈ (b.removeNotificationsOf cfg k c).notifications k,
      ¬ (H c n.notificationID ∧ ¬ X n.notificationID) := by
  have hbefore := ids_live_perm b k
  rw [removeNotificationsOf, notifications_sweep, if_pos rfl]
  exact not_kept_sweepLoop c (b.notifications k) (h.kept.mono hbefore.symm.subset)
    (hbefore.nodup_iff.mp h.nodup)

/-- Behind `clear` no notification is set whose ID was made for the connection. -/
theorem clear (cfg : Config) (h : Hosted H X b) (c : Nat) : Hosted H X (b.clear cfg c) ∧
    ∀ k, ∀ n ∈ (b.clear cfg c).notifications k,
      ¬ (H c n.notificationID ∧ ¬ X n.notificationID) := by
  have hstays {b : Broker} {k k' : NotificationKind} {once : Bool}
      {act : Broker → Notification → Action}
      (hgone : ∀ n ∈ b.notifications k, ¬ (H c n.notificationID ∧ ¬ X n.notificationID)) :
      ∀ n ∈ (b.sweep cfg once k' act).notifications k,
        ¬ (H c n.notificationID ∧ ¬ X n.notificationID) := by
    intro n' hn'
    obtain ⟨n, hn, pulse, coid, active, rfl, _⟩ := remains_of_mem_sweep cfg once k' act b hn'
    exact hgone n hn
  have hremove {b₃ : Broker} (h3 : Hosted H X b₃) : Hosted H X (b₃.removeAllOf cfg c) ∧
      ∀ k, ∀ n ∈ (b₃.removeAllOf cfg c).notifications k,
        ¬ (H c n.notificationID ∧ ¬ X n.notificationID) := by
    have h4 : Hosted H X (b₃.removeNotificationsOf cfg .serverDisconnect c) := h3.sweep cfg _ _ _
    have h5 : Hosted H X (Broker.removeNotificationsOf cfg .clientDetach c _) := h4.sweep cfg _ _ _
    have h6 : Hosted H X (Broker.removeNotificationsOf cfg .serverConnect c _) := h5.sweep cfg _ _ _
    have h7 : Hosted H X (b₃.removeAllOf cfg c) := h6.sweep cfg false .serverListChange _
    refine ⟨h7, fun k => ?_⟩
    cases k with
    | serverDisconnect =>
        exact hstays (hstays (hstays (h3.not_kept_removed .serverDisconnect c)))
    | clientDetach => exact hstays (hstays (h4.not_kept_removed .clientDetach c))
    | serverConnect => exact hstays (h5.not_kept_removed .serverConnect c)
    | serverListChange => exact h6.not_kept_removed .serverListChange c
  have h2 : Hosted H X ((b.clearParties cfg c).triggerList cfg .serverDisconnect
      (b.dataOf c).mServerList) := (h.still (still_clearParties cfg c b)).sweep cfg _ _ _
  obtain ⟨h7, hgone⟩ := hremove (h2.sweep cfg false .clientDetach
    (fireIf (fun n => (b.dataOf c).mClientList.contains n.partyID)))
  rw [clear_clearEnd, clearEnd]
  split
  · exact ⟨h7.sweep cfg _ _ _, fun k => hstays (hgone k)⟩
  · exact ⟨h7, hgone⟩

/-- A connection for which nothing is set may come or go. -/
theorem setConnection (h : Hosted H X b) {c : Nat} {k : Option Connection}
    (hk : (k.map (·.data.mNotificationList)).getD [] = [])
    (hnone : ∀ id ∈ ids b.live, ¬ (H c id ∧ ¬ X id)) : Hosted H X (b.setConnection c k) where
  live := h.live
  nodup := h.nodup
  made := h.made
  disjoint := h.disjoint
  lists c' id hid := by
    rw [notificationList_setConnection] at hid
    split at hid
    · rw [hk] at hid
      cases hid
    · exact h.lists c' id hid
  kept c' id hmade hid := by
    rw [notificationList_setConnection]
    split
    · next hc => exact absurd (hc ▸ hmade) (hnone id hid)
    · exact h.kept c' id hmade hid

/-- A new connection has made nothing. -/
theorem openConnection (h : Hosted H X b) (hfresh : NumbersFresh b) (node loc : UInt32)
    (uid : Int32) : Hosted H X (b.openConnection node loc uid) := by
  have hopened : Hosted H X (b.setConnection b.nextConnectionId (some
      { mNodeAddress := node, mLocalAddress := loc, mUid := uid })) := by
    refine h.setConnection rfl (fun id hid hmade => ?_)
    have hmem := h.kept _ id hmade hid
    have hnone := hfresh b.nextConnectionId (Nat.le_refl _)
    rw [notificationList, data?, hnone] at hmem
    cases hmem
  exact hopened.of_eq rfl rfl (fun _ => rfl)

/-- A connection that closes takes its notifications along. -/
theorem closeConnection (h : Hosted H X b) (c : Nat) : Hosted H X (b.closeConnection cfg c) := by
  rcases closeConnection_cases cfg c b with hsame | ⟨k, _, _, hclose⟩
  · rw [hsame]
    exact h
  · rw [hclose]
    obtain ⟨hcleared, hgone⟩ := h.clear cfg c
    refine hcleared.setConnection rfl (fun id hid => ?_)
    obtain ⟨k, hk⟩ := mem_ids_live.mp hid
    obtain ⟨n, hn, rfl⟩ := List.mem_map.mp hk
    exact hgone k n hn

/-- Only what is granted counts, not how it is said. -/
theorem congr {H' : Nat → UInt32 → Prop} (h : Hosted H X b) (hH : ∀ c id, H c id ↔ H' c id) :
    Hosted H' X b := by
  rwa [show H' = H from funext (fun c => funext (fun id => propext (hH c id).symm))]

end Hosted

/-! ## What the others lose -/

/-- The ID was sent on the way from `b` to `b'`. -/
def SentBetween (b b' : Broker) (id : UInt32) : Prop :=
  ∃ l, b'.sentIDs = b.sentIDs ++ l ∧ id ∈ l

/-- What was sent within a stretch was sent within a longer one. -/
theorem SentBetween.of_prefix {b₁ b₂ b₃ b₄ : Broker} {id : UInt32} (h : SentBetween b₂ b₃ id)
    (hbefore : b₁.sentIDs <+: b₂.sentIDs) (hafter : b₃.sentIDs <+: b₄.sentIDs) :
    SentBetween b₁ b₄ id := by
  obtain ⟨l, hl, hid⟩ := h
  obtain ⟨before, hbefore⟩ := hbefore
  obtain ⟨after, hafter⟩ := hafter
  refine ⟨before ++ l ++ after, ?_, by simp [hid]⟩
  rw [← hafter, hl, ← hbefore]
  simp

/-- A notification whose party is not one of those that go stays, any other that is
active is sent. -/
theorem mem_or_sent_triggerList (cfg : Config) {k : NotificationKind} (k' : NotificationKind)
    (l : PartyIDList)
    {b : Broker} {n : Notification} (hn : n ∈ b.notifications k) :
    n ∈ (b.triggerList cfg k' l).notifications k ∨ (k = k' ∧ n.active = true ∧
      l.contains n.partyID = true ∧ SentBetween b (b.triggerList cfg k' l) n.notificationID) := by
  by_cases hk : k = k'
  · subst hk
    by_cases hfires : (n.active && l.contains n.partyID) = true
    · have hboth := Bool.and_eq_true_iff.mp hfires
      refine Or.inr ⟨rfl, hboth.1, hboth.2, _, sentIDs_sweep_fireIf cfg k b _, ?_⟩
      exact List.mem_map_of_mem (List.mem_filter.mpr ⟨hn, hfires⟩)
    · refine Or.inl ?_
      rw [triggerList, notifications_sweep_fireIf]
      exact List.mem_filter.mpr ⟨hn, by rw [Bool.not_eq_true] at hfires; rw [hfires]; rfl⟩
  · exact Or.inl (by rwa [triggerList, notifications_sweep_of_ne cfg _ _ _ _ hk])

/-- A notification whose ID is not in the list of the connection is not removed. -/
theorem mem_removeNotificationsOf (cfg : Config) {k : NotificationKind} (k' : NotificationKind)
    {c : Nat} {b : Broker} {n : Notification} (hn : n ∈ b.notifications k)
    (hid : n.notificationID ∉ b.notificationList c) :
    n ∈ (b.removeNotificationsOf cfg k' c).notifications k ∧
      n.notificationID ∉ (b.removeNotificationsOf cfg k' c).notificationList c := by
  refine ⟨?_, fun hmem => hid (lists_sweep cfg false k' _ b c hmem)⟩
  by_cases hk : k = k'
  · subst hk
    refine mem_sweep_of_keep cfg false k b hn (fun b' hframe => if_neg ?_)
    exact fun hmem => hid (hframe.lists c hmem)
  · rwa [removeNotificationsOf, notifications_sweep_of_ne cfg _ _ _ _ hk]

/-- A notification that is told something stays in the list. -/
theorem mem_sweepLoop_of_notify (cfg : Config) {act : Broker → Notification → Action}
    (hact : ∀ b n, act b n = .notify ∨ act b n = .keep) {ns : List Notification} {n : Notification}
    (hn : n ∈ ns) (b : Broker) : ∃ n' ∈ (sweepLoop cfg false act ns b).1,
      Remains n n' ∧ n'.active = n.active := by
  induction ns generalizing b with
  | nil => cases hn
  | cons m ns ih =>
      rw [sweepLoop]
      cases hact b m with
      | inl hnotify =>
          obtain ⟨pulse, coid, hs⟩ := send_fst cfg m b
          simp only [hnotify, Bool.false_eq_true, if_false]
          rcases List.mem_cons.mp hn with rfl | hn
          · exact ⟨_, List.mem_cons_self, ⟨pulse, coid, n.active, hs, fun h => h⟩, by rw [hs]⟩
          · obtain ⟨n', hn', hsame⟩ := ih hn (b.send cfg m).2
            exact ⟨n', List.mem_cons_of_mem _ hn', hsame⟩
      | inr hkeep =>
          simp only [hkeep]
          rcases List.mem_cons.mp hn with rfl | hn
          · exact ⟨n, List.mem_cons_self, .refl n, rfl⟩
          · obtain ⟨n', hn', hsame⟩ := ih hn b
            exact ⟨n', List.mem_cons_of_mem _ hn', hsame⟩

/-- `triggerAll` leaves every notification there, since a list change is not sent once and for
all. -/
theorem mem_triggerAll (cfg : Config) {k k' : NotificationKind} {b : Broker} {n : Notification}
    (hn : n ∈ b.notifications k) :
    ∃ n' ∈ (b.triggerAll cfg k').notifications k, Remains n n' ∧ n'.active = n.active := by
  by_cases hk : k = k'
  · subst hk
    rw [triggerAll, notifications_sweep, if_pos rfl]
    refine mem_sweepLoop_of_notify cfg (fun b n => ?_) hn b
    split
    · exact Or.inl rfl
    · exact Or.inr rfl
  · exact ⟨n, by rwa [triggerAll, notifications_sweep_of_ne cfg _ _ _ _ hk], .refl n, rfl⟩

/-- The removals at the end of `clear` spare the notifications that the connection does not list. -/
theorem mem_clearEnd (cfg : Config) (servers : PartyIDList) {k : NotificationKind} {c : Nat}
    {b : Broker} {n : Notification} (hn : n ∈ b.notifications k)
    (hid : n.notificationID ∉ b.notificationList c) :
    ∃ n' ∈ (b.clearEnd cfg servers c).notifications k, Remains n n' ∧ n'.active = n.active := by
  have hremove : n ∈ (b.removeAllOf cfg c).notifications k := by
    have h1 := mem_removeNotificationsOf cfg .serverDisconnect hn hid
    have h2 := mem_removeNotificationsOf cfg .clientDetach h1.1 h1.2
    have h3 := mem_removeNotificationsOf cfg .serverConnect h2.1 h2.2
    exact (mem_removeNotificationsOf cfg _ h3.1 h3.2).1
  unfold clearEnd
  split
  · exact mem_triggerAll cfg hremove
  · exact ⟨n, hremove, .refl n, rfl⟩

theorem sentIDs_prefix_clearEnd (cfg : Config) (servers : PartyIDList) (c : Nat) (b : Broker) :
    b.sentIDs <+: (b.clearEnd cfg servers c).sentIDs := by
  have hremove : b.sentIDs <+: (b.removeAllOf cfg c).sentIDs :=
    (sentIDs_prefix_sweep cfg _ _ _ b).trans ((sentIDs_prefix_sweep cfg _ _ _ _).trans
      ((sentIDs_prefix_sweep cfg _ _ _ _).trans (sentIDs_prefix_sweep cfg _ _ _ _)))
  unfold clearEnd
  split
  · exact hremove.trans (sentIDs_prefix_sweep cfg _ _ _ _)
  · exact hremove

/-- Neither `clearServer` nor `clearClient` touches a notification or sends one. -/
theorem clearParties_frame (cfg : Config) (c : Nat) (b : Broker) :
    (b.clearParties cfg c).notifications = b.notifications ∧
      (b.clearParties cfg c).sentIDs = b.sentIDs := by
  have heval (j : Job) (b : Broker) : (b.eval j).sentIDs = b.sentIDs := by
    simp [sentIDs, eval, Output.sentID?]
  have hserver (b : Broker) (id : SPartyID) :
      (b.clearServer cfg id).notifications = b.notifications ∧
        (b.clearServer cfg id).sentIDs = b.sentIDs := by
    unfold clearServer unregisterInterfaceMaster
    split
    · exact ⟨rfl, rfl⟩
    · split
      · exact ⟨rfl, heval _ b⟩
      · exact ⟨rfl, rfl⟩
  have hclient (b : Broker) (id : SPartyID) :
      (b.clearClient cfg id).notifications = b.notifications ∧
        (b.clearClient cfg id).sentIDs = b.sentIDs := by
    unfold clearClient evalMaster
    dsimp only
    split
    · exact ⟨rfl, heval _ _⟩
    · exact ⟨rfl, rfl⟩
  have hfold {f : Broker → SPartyID → Broker}
      (hf : ∀ b id, (f b id).notifications = b.notifications ∧ (f b id).sentIDs = b.sentIDs)
      (l : List SPartyID) (b : Broker) : (l.foldl f b).notifications = b.notifications ∧
        (l.foldl f b).sentIDs = b.sentIDs := by
    induction l generalizing b with
    | nil => exact ⟨rfl, rfl⟩
    | cons x xs ih =>
        obtain ⟨hnotes, hsent⟩ := ih (f b x)
        exact ⟨hnotes.trans (hf b x).1, hsent.trans (hf b x).2⟩
  obtain ⟨hnotes, hsent⟩ := hfold hserver (b.dataOf c).mServerList.elems b
  obtain ⟨hnotes', hsent'⟩ := hfold hclient (b.dataOf c).mClientList.elems _
  exact ⟨hnotes'.trans hnotes, hsent'.trans hsent⟩

/-- A notification whose ID is not in the list of the connection stays when the connection
is cleared, or its server or client is one of the connection and it is sent. -/
theorem mem_or_sent_clear (cfg : Config) {k : NotificationKind} {c : Nat} {b : Broker}
    {n : Notification} (hn : n ∈ b.notifications k)
    (hid : n.notificationID ∉ b.notificationList c) :
    (∃ n' ∈ (b.clear cfg c).notifications k, Remains n n' ∧ n'.active = n.active) ∨
      (n.active = true ∧ SentBetween b (b.clear cfg c) n.notificationID ∧
        (k = .serverDisconnect ∧ (b.dataOf c).mServerList.contains n.partyID = true ∨
          k = .clientDetach ∧ (b.dataOf c).mClientList.contains n.partyID = true)) := by
  obtain ⟨hnotes, hsent⟩ := clearParties_frame cfg c b
  have hlist := (still_clearParties cfg c b).notificationList c
  rw [clear_clearEnd]
  generalize b.clearParties cfg c = b₁ at *
  generalize hb₂ : b₁.triggerList cfg .serverDisconnect (b.dataOf c).mServerList = b₂
  generalize hb₃ : b₂.triggerList cfg .clientDetach (b.dataOf c).mClientList = b₃
  have hsub₂ : b₂.notificationList c ⊆ b₁.notificationList c := hb₂ ▸ lists_sweep cfg _ _ _ b₁ c
  have hsub₃ : b₃.notificationList c ⊆ b₂.notificationList c := hb₃ ▸ lists_sweep cfg _ _ _ b₂ c
  have hend := sentIDs_prefix_clearEnd cfg (b.dataOf c).mServerList c b₃
  have hprefix₃ : b₂.sentIDs <+: b₃.sentIDs := hb₃ ▸ sentIDs_prefix_sweep cfg _ _ _ b₂
  have hprefix₂ : b.sentIDs <+: b₂.sentIDs := by
    rw [← hsent, ← hb₂]
    exact sentIDs_prefix_sweep cfg _ _ _ b₁
  rw [← congrFun hnotes k] at hn
  have hfirst := mem_or_sent_triggerList cfg .serverDisconnect (b.dataOf c).mServerList hn
  rw [hb₂] at hfirst
  rcases hfirst with hn₂ | ⟨hk, hactive, hgone, hfired⟩
  · have hsecond := mem_or_sent_triggerList cfg .clientDetach (b.dataOf c).mClientList hn₂
    rw [hb₃] at hsecond
    rcases hsecond with hn₃ | ⟨hk, hactive, hgone, hfired⟩
    · have hid₃ : n.notificationID ∉ b₃.notificationList c :=
        fun hmem => hid (hlist ▸ hsub₂ (hsub₃ hmem))
      exact Or.inl (mem_clearEnd cfg _ hn₃ hid₃)
    · exact Or.inr ⟨hactive, hfired.of_prefix hprefix₂ hend, Or.inr ⟨hk, hgone⟩⟩
  · have hfired' : SentBetween b b₂ n.notificationID := by
      obtain ⟨l, hl, hmem⟩ := hfired
      exact ⟨l, hsent ▸ hl, hmem⟩
    exact Or.inr ⟨hactive, hfired'.of_prefix List.prefix_rfl (hprefix₃.trans hend),
      Or.inl ⟨hk, hgone⟩⟩

/-! ## The IDs that are answered -/

/-- The valid notification IDs in the answers to a connection. -/
def handed (c : Nat) (b : Broker) : List UInt32 :=
  (b.log.filterMap Output.answer?).flatMap (fun x =>
    if x.1 = c then x.2.notificationIDs.filter (· ≠ INVALID_NOTIFICATION_ID) else [])

/-- An ID is handed to a connection that was answered with it. -/
theorem mem_handed {c : Nat} {b : Broker} {id : UInt32} :
    id ∈ handed c b ↔ ∃ resp, (c, resp) ∈ b.log.filterMap Output.answer? ∧
      id ∈ resp.notificationIDs ∧ id ≠ INVALID_NOTIFICATION_ID := by
  simp only [handed, List.mem_flatMap]
  constructor
  · rintro ⟨⟨c', resp⟩, hmem, hid⟩
    split at hid
    · next hc =>
      obtain rfl : c' = c := hc
      exact ⟨resp, hmem, by simpa using hid⟩
    · cases hid
  · rintro ⟨resp, hmem, hid, hvalid⟩
    exact ⟨(c, resp), hmem, by simp [hid, hvalid]⟩

/-- The IDs in the answer of a handler. -/
def answeredIDs (s : Broker × Option Response) : List UInt32 :=
  (s.2.map Response.notificationIDs).getD []

/-- The valid IDs in the answer were made by the handler. -/
def AnswersMade (b : Broker) (s : Broker × Option Response) : Prop :=
  ∀ id ∈ answeredIDs s, id ≠ INVALID_NOTIFICATION_ID →
    Made b.sNextNotificationID s.1.sNextNotificationID id

/-- Where no ID is answered, none has to be made. -/
theorem answersMade_of_nil {b : Broker} {s : Broker × Option Response}
    (h : answeredIDs s = []) : AnswersMade b s := by
  intro id hid
  rw [h] at hid
  cases hid

/-- One ID is answered, and it was made. -/
theorem answersMade_single {b : Broker} {s : Broker × Option Response} {new : UInt32}
    (h : answeredIDs s = [new])
    (hmade : Made b.sNextNotificationID s.1.sNextNotificationID new) : AnswersMade b s := by
  intro id hid _
  rw [h, List.mem_singleton] at hid
  exact hid ▸ hmade

section Answered

variable {cfg : Config} {ctx : SocketConnectionContext} {b : Broker}

/-- A notification that could be set has the ID that the counter made. -/
theorem made_addNotification {k : NotificationKind} {pulse : SFNDPulseInfo}
    {setup : Notification → Notification} {n : Nat}
    (hid : (b.addNotification cfg k ctx pulse setup).1 ≠ INVALID_NOTIFICATION_ID)
    (hnext : n = b.sNextNotificationID + 1) :
    Made b.sNextNotificationID n (b.addNotification cfg k ctx pulse setup).1 := by
  rw [hnext, made_succ]
  obtain ⟨a, p, coid, hadd | hadd⟩ := addNotification_cases cfg k ctx pulse setup b
  · rw [hadd]
  · rw [hadd] at hid
    exact absurd rfl hid

/-- The ID of a disconnect notification was made for it. -/
theorem made_notifyServerDisconnect {serverID : SPartyID} {pulse : SFNDPulseInfo} {id : UInt32}
    (h : (b.handleNotifyServerDisconnectNoResponse cfg ctx serverID pulse).1 = some id) :
    Made b.sNextNotificationID
      (b.handleNotifyServerDisconnectNoResponse cfg ctx serverID pulse).2.sNextNotificationID
      id := by
  have hnext := next_notifyServerDisconnect cfg ctx serverID pulse b
  unfold handleNotifyServerDisconnectNoResponse addParty at h hnext ⊢
  dsimp only at h hnext ⊢
  split at h
  · cases h
  · next hid =>
    have hmade := made_addNotification hid hnext
    split at h
    · exact Option.some.inj h ▸ hmade
    · split at h <;> exact Option.some.inj h ▸ hmade

/-- So was that of a notification for an interface, whether it fires at once or waits. -/
theorem made_notifyServerAvailable {pulse : SFNDPulseInfo} {d : InterfaceDescription}
    {id : UInt32}
    (h : (b.handleNotifyServerAvailableNoResponse cfg ctx pulse d).1 = .ok id) :
    Made b.sNextNotificationID
      (b.handleNotifyServerAvailableNoResponse cfg ctx pulse d).2.sNextNotificationID id := by
  have hnext := next_addNotification cfg .serverConnect ctx pulse (fun n => { n with
    ifDescription := d, host := some ctx.mId, isLocal := cfg.isLocalService d.name,
    uid := ctx.mUid }) b
  unfold handleNotifyServerAvailableNoResponse addDescription at h ⊢
  dsimp only at h ⊢
  split
  · next hdenied => simp [hdenied] at h
  · next hdenied =>
    rw [if_neg hdenied] at h
    split
    · next hid => simp [hid] at h
    · next hid =>
      rw [if_neg hid] at h
      split
      · next hentry =>
        rw [if_pos hentry] at h
        cases h
        exact made_addNotification hid ((nextNotificationID_sweep cfg _ _ _ _).trans hnext)
      · next hentry =>
        rw [if_neg hentry] at h
        split
        · next hask =>
          rw [if_pos hask] at h
          cases h
          exact made_addNotification hid ((next_forward cfg _).trans hnext)
        · next hask =>
          rw [if_neg hask] at h
          cases h
          exact made_addNotification hid hnext

/-- In a list of records every ID was made for its record. -/
theorem made_availableRecords {count : Nat} {records : List SFNDNotificationDescription}
    {ids : List SFNDNotificationID}
    (h : (recordLoop (notifyAvailableRecord cfg ctx) count records b).1 = some ids) :
    ∀ x ∈ ids, x.notificationID ≠ INVALID_NOTIFICATION_ID → Made b.sNextNotificationID
      (recordLoop (notifyAvailableRecord cfg ctx) count records b).2.sNextNotificationID
      x.notificationID := by
  induction records generalizing count b ids with
  | nil =>
      cases count with
      | zero => cases h; simp
      | succ => cases h
  | cons r rs ih =>
      cases count with
      | zero => cases h; simp
      | succ count =>
          have hle := (moves_notifyServerAvailable cfg ctx r.pulse r.ifDescription b).next_le
          have hrest := (moves_recordLoop cfg (f := notifyAvailableRecord cfg ctx) (fun r s =>
            moves_notifyServerAvailable cfg ctx r.pulse r.ifDescription s) count rs
              (notifyAvailableRecord cfg ctx r b).2).next_le
          rw [recordLoop] at h ⊢
          obtain ⟨tail, htail, rfl⟩ := Option.map_eq_some_iff.mp h
          intro x hx hvalid
          rcases List.mem_cons.mp hx with rfl | hx
          · refine Made.mono ?_ hrest
            simp only [notifyAvailableRecord] at hvalid ⊢
            split at hvalid
            · next hid => exact made_notifyServerAvailable hid
            · exact absurd rfl hvalid
          · obtain ⟨i, hlt, hi, hid⟩ := ih htail x hx hvalid
            refine ⟨i, ?_, hi, hid⟩
            exact Nat.lt_of_le_of_lt hle hlt

/-- Only a pool that waits for its interface is answered at once, with the ID. -/
theorem answeredIDs_askMasterExtended {c : Nat} {d : InterfaceDescription} {pos : Nat}
    {poolFound : Bool} {id : UInt32} :
    answeredIDs (b.askMasterExtended cfg c d pos poolFound id) = [] ∨
      answeredIDs (b.askMasterExtended cfg c d pos poolFound id) = [id] := by
  unfold askMasterExtended
  dsimp only
  split
  · exact Or.inl rfl
  · exact Or.inl rfl
  · split
    · exact Or.inr rfl
    · exact Or.inl rfl

/-- An attach that goes on to the master has the ID of its own notification. -/
theorem answersMade_forwardAttachExtendedToMaster (pulse : SFNDPulseInfo)
    (d : InterfaceDescription) :
    AnswersMade b (b.forwardAttachExtendedToMaster cfg ctx pulse d) := by
  have hnext := next_forwardAttachExtendedToMaster cfg ctx pulse d b
  have hpool : (b.extendedPool d).2.2.sNextNotificationID = b.sNextNotificationID := by
    unfold extendedPool
    split <;> rfl
  unfold forwardAttachExtendedToMaster addDescription at hnext ⊢
  dsimp only at hnext ⊢
  split
  · exact answersMade_of_nil rfl
  · next hid =>
    rw [if_neg hid] at hnext
    split
    · exact answersMade_of_nil rfl
    · next hfind =>
      simp only [hfind] at hnext
      have hmade := made_addNotification hid (hnext.trans (by rw [hpool]))
      rw [hpool] at hmade
      rcases answeredIDs_askMasterExtended with hnone | hone
      · exact answersMade_of_nil hnone
      · exact answersMade_single hone hmade

/-- A local attach answers with the ID that watches the server, one without a server with the ID
that waits for it. -/
theorem answersMade_attachInterfaceExtended (pulse : SFNDPulseInfo) (d : InterfaceDescription)
    (stackPulse : SFNDPulseInfo) :
    AnswersMade b (b.handleAttachInterfaceExtended cfg ctx pulse d stackPulse) := by
  unfold handleAttachInterfaceExtended
  split
  · split
    · next entry _ =>
      have hle := (moves_handleAttachLocalInterface cfg ctx entry b).next_le
      dsimp only
      split
      · exact answersMade_of_nil rfl
      · split
        · next id hid =>
          obtain ⟨i, hlt, hi, hmade⟩ := made_notifyServerDisconnect hid
          exact answersMade_single rfl ⟨i, Nat.lt_of_le_of_lt hle hlt, hi, hmade⟩
        · exact answersMade_of_nil rfl
    · split
      · dsimp only
        split
        · next hid => exact answersMade_single rfl (made_notifyServerAvailable hid)
        · exact answersMade_of_nil rfl
      · exact answersMade_forwardAttachExtendedToMaster pulse d
  · exact answersMade_of_nil rfl

/-- `NOTIFY_SERVER_DISCONNECT` answers the ID that it made. -/
theorem answersMade_notifyServerDisconnect (id : SPartyID) (pulse : SFNDPulseInfo) :
    AnswersMade b (b.handleNotifyServerDisconnect cfg ctx id pulse) := by
  simp only [handleNotifyServerDisconnect]
  split
  · next hid => exact answersMade_single rfl (made_notifyServerDisconnect hid)
  · exact answersMade_of_nil rfl

/-- `NOTIFY_SERVER_AVAILABLE` answers the ID that it made. -/
theorem answersMade_notifyServerAvailable (pulse : SFNDPulseInfo) (d : InterfaceDescription) :
    AnswersMade b (b.handleNotifyServerAvailable cfg ctx pulse d) := by
  simp only [handleNotifyServerAvailable]
  split
  · next hid => exact answersMade_single rfl (made_notifyServerAvailable hid)
  · exact answersMade_of_nil rfl

/-- `NOTIFY_SERVER_AVAILABLE_EX` answers the IDs that its records made. -/
theorem answersMade_notifyServerAvailableEx (count : Int32)
    (records : List SFNDNotificationDescription) :
    AnswersMade b (b.handleNotifyServerAvailableEx cfg ctx count records) := by
  simp only [handleNotifyServerAvailableEx]
  split
  · exact answersMade_of_nil rfl
  · next hids =>
    intro id hid hvalid
    obtain ⟨x, hx, rfl⟩ := List.mem_map.mp hid
    exact made_availableRecords hids x hx hvalid

/-- `NOTIFY_CLIENT_DETACH` answers the ID that it made. -/
theorem answersMade_notifyClientDetach (id : SPartyID) (pulse : SFNDPulseInfo) :
    AnswersMade b (b.handleNotifyClientDetach cfg ctx id pulse) := by
  have hnext := next_handleNotifyClientDetach cfg ctx id pulse b
  unfold handleNotifyClientDetach at hnext ⊢
  dsimp only at hnext ⊢
  split
  · exact answersMade_of_nil rfl
  · next hid =>
    rw [if_neg hid] at hnext
    exact answersMade_single rfl (made_addNotification hid hnext)

/-- `NOTIFY_INTERFACELIST` answers the ID that it made. -/
theorem answersMade_notifyInterfaceListChange (pulse : SFNDPulseInfo) :
    AnswersMade b (b.handleNotifyInterfaceListChange cfg ctx pulse) := by
  have hnext := next_handleNotifyInterfaceListChange cfg ctx pulse b
  unfold handleNotifyInterfaceListChange at hnext ⊢
  dsimp only at hnext ⊢
  split
  · exact answersMade_of_nil rfl
  · next hid =>
    rw [if_neg hid] at hnext
    exact answersMade_single rfl (made_addNotification hid hnext)

/-- An expression that compiles has the ID that the counter made. -/
theorem made_addRegExp {k : NotificationKind} {regExpr : CString} {pulse : SFNDPulseInfo} {n : Nat}
    (hid : (b.addRegExp cfg k regExpr ctx pulse).1 ≠ INVALID_NOTIFICATION_ID)
    (hnext : n = b.sNextNotificationID + 1) :
    Made b.sNextNotificationID n (b.addRegExp cfg k regExpr ctx pulse).1 := by
  unfold addRegExp at hid ⊢
  split
  · next hcomp =>
    rw [if_pos hcomp] at hid
    exact made_addNotification hid hnext
  · next hcomp =>
    rw [if_neg hcomp] at hid
    exact absurd rfl hid

/-- `NOTIFY_INTERFACELIST_MATCH` answers the ID that it made. -/
theorem answersMade_notifyInterfaceListMatch (pulse : SFNDPulseInfo) (regExpr : CString) :
    AnswersMade b (b.handleNotifyInterfaceListMatch cfg ctx pulse regExpr) := by
  have hnext := next_handleNotifyInterfaceListMatch cfg ctx pulse regExpr b
  unfold handleNotifyInterfaceListMatch at hnext ⊢
  dsimp only at hnext ⊢
  split
  · exact answersMade_of_nil rfl
  · next hid =>
    rw [if_neg hid] at hnext
    exact answersMade_single rfl (made_addRegExp hid hnext)

/-- A registration answers no notification ID. -/
theorem answeredIDs_registerInterface (d : InterfaceDescription) (pid : UInt32) (chid : Int32) :
    answeredIDs (b.handleRegisterInterface cfg ctx d pid chid) = [] := by
  simp only [handleRegisterInterface]
  repeat' split
  all_goals rfl

/-- Nor does a registration of several interfaces. -/
theorem answeredIDs_registerInterfaceEx (count : Int32) (pid : UInt32) (chid : Int32)
    (records : List InterfaceDescription) :
    answeredIDs (b.handleRegisterInterfaceEx cfg ctx count pid chid records) = [] := by
  simp only [handleRegisterInterfaceEx]
  split <;> rfl

/-- Nor does one for a group. -/
theorem answeredIDs_registerInterfaceGroupID (d : InterfaceDescription) (pid : UInt32)
    (chid grpid : Int32) :
    answeredIDs (b.handleRegisterInterfaceGroupID cfg ctx d pid chid grpid) = [] := by
  simp only [handleRegisterInterfaceGroupID]
  repeat' split
  all_goals rfl

/-- Nor does one of a slave. -/
theorem answeredIDs_registerMasterInterface (count : Int32)
    (records : List SFNDInterfaceDescriptionEx) :
    answeredIDs (b.handleRegisterMasterInterface cfg ctx count records) = [] := by
  simp only [handleRegisterMasterInterface]
  split <;> rfl

/-- An unregistration answers no notification ID. -/
theorem answeredIDs_unregisterInterface (serverID : SPartyID) :
    answeredIDs (b.handleUnregisterInterface cfg ctx serverID) = [] := by
  simp only [handleUnregisterInterface]
  repeat' split
  all_goals rfl

/-- An attach answers the client's and the server's ID only. -/
theorem answeredIDs_attachInterface (d : InterfaceDescription) :
    answeredIDs (b.handleAttachInterface cfg ctx d) = [] := by
  simp only [handleAttachInterface]
  repeat' split
  all_goals rfl

/-- A question for a server answers the server's ID only. -/
theorem answeredIDs_getServerInformation (d : InterfaceDescription) :
    answeredIDs (b.handleGetServerInformation cfg ctx d) = [] := by
  simp only [handleGetServerInformation]
  repeat' split
  all_goals rfl

/-- A detach answers no notification ID. -/
theorem answeredIDs_detachInterface (clientID : SPartyID) :
    answeredIDs (b.handleDetachInterface cfg ctx clientID) = [] := by
  simp only [handleDetachInterface]
  repeat' split
  all_goals rfl

/-- A cleared notification has no ID to answer. -/
theorem answeredIDs_clearNotification (id : UInt32) :
    answeredIDs (b.handleClearNotification cfg ctx id) = [] := by
  simp only [handleClearNotification]
  split <;> rfl

/-- A list of interfaces has no notification ID. -/
theorem answeredIDs_getInterfaceList (count : Int32) :
    answeredIDs (b.handleGetInterfaceList cfg ctx count) = [] := by
  simp only [handleGetInterfaceList]
  repeat' split
  all_goals rfl

/-- Nor has one with an expression. -/
theorem answeredIDs_matchInterfaceList (count : Int32) (regExpr : CString) :
    answeredIDs (b.handleMatchInterfaceList cfg ctx count regExpr) = [] := by
  simp only [handleMatchInterfaceList]
  repeat' split
  all_goals rfl

/-- An ID that a handler answers is one that it made. -/
theorem answersMade_dispatch (cfg : Config) (ctx : SocketConnectionContext) (r : Request)
    (b : Broker) : AnswersMade b (b.dispatch cfg ctx r) := by
  cases r with
  | notifyServerDisconnect id pulse => exact answersMade_notifyServerDisconnect id pulse
  | notifyServerAvailable pulse d => exact answersMade_notifyServerAvailable pulse d
  | notifyServerAvailableEx n rs => exact answersMade_notifyServerAvailableEx n rs
  | notifyClientDetach id pulse => exact answersMade_notifyClientDetach id pulse
  | notifyInterfaceListChange pulse => exact answersMade_notifyInterfaceListChange pulse
  | notifyInterfaceListMatch pulse re => exact answersMade_notifyInterfaceListMatch pulse re
  | attachInterfaceExtended pulse d stackPulse =>
      exact answersMade_attachInterfaceExtended pulse d stackPulse
  | masterPing => exact answersMade_of_nil rfl
  | masterPingId => exact answersMade_of_nil rfl
  | badFoundationVersion => exact answersMade_of_nil rfl
  | malformed => exact answersMade_of_nil rfl
  | registerInterface d pid chid =>
      exact answersMade_of_nil (answeredIDs_registerInterface d pid chid)
  | registerInterfaceEx n pid chid rs =>
      exact answersMade_of_nil (answeredIDs_registerInterfaceEx n pid chid rs)
  | registerInterfaceGroupID d pid chid gid =>
      exact answersMade_of_nil (answeredIDs_registerInterfaceGroupID d pid chid gid)
  | registerMasterInterfaceEx n rs =>
      exact answersMade_of_nil (answeredIDs_registerMasterInterface n rs)
  | unregisterInterface id => exact answersMade_of_nil (answeredIDs_unregisterInterface id)
  | attachInterface d => exact answersMade_of_nil (answeredIDs_attachInterface d)
  | getServerInformation d => exact answersMade_of_nil (answeredIDs_getServerInformation d)
  | detachInterface id => exact answersMade_of_nil (answeredIDs_detachInterface id)
  | clearNotification id => exact answersMade_of_nil (answeredIDs_clearNotification id)
  | getInterfaceList n => exact answersMade_of_nil (answeredIDs_getInterfaceList n)
  | matchInterfaceList n re => exact answersMade_of_nil (answeredIDs_matchInterfaceList n re)

/-- The reply to a job has no notification ID. -/
theorem notificationIDs_jobResult (hattach : b.mPendingAttachExtendedJobs = []) (job : Job)
    (res : JobResult) : (b.jobResult cfg job res).response.notificationIDs = [] := by
  have hbody {r : JobReply} (h : Response.notificationIDs ⟨r.ret_val, r.body⟩ = []) :
      r.response.notificationIDs = [] := by
    unfold JobReply.response
    split
    · rfl
    · split
      · exact h
      · rfl
  refine hbody ?_
  unfold jobResult
  split
  · unfold jobReply
    split
    · rfl
    · rw [handleJobFinishedAttachExtended_of_empty cfg job res hattach]
      rfl
    · split <;> rfl
    all_goals try rfl
    all_goals unfold finishInterfaceList
    all_goals split <;> rfl
  · rfl

/-- An ID that a step answers is one that it makes while it serves the connection. -/
theorem mem_handed_step (hattach : b.mPendingAttachExtendedJobs = []) {e : Event} {c : Nat}
    {id : UInt32} (h : id ∈ handed c (b.step cfg e)) : id ∈ handed c b ∨
      ∃ r, e = .request c r ∧
        Made b.sNextNotificationID (b.step cfg e).sNextNotificationID id := by
  obtain ⟨as, ⟨os, hlog, rfl⟩, _, has⟩ := gives_step cfg hattach e
  obtain ⟨resp, hmem, hid, hvalid⟩ := mem_handed.mp h
  rw [hlog, List.filterMap_append, List.mem_append] at hmem
  rcases hmem with hold | hnew
  · exact Or.inl (mem_handed.mpr ⟨resp, hold, hid, hvalid⟩)
  · refine Or.inr ?_
    cases has _ hnew with
    | @request _ r k _ hk hdeferred hbreaks hresp =>
        refine ⟨r, rfl, ?_⟩
        have hmade := answersMade_dispatch cfg (k.ctx c) r b id
          (by simpa [answeredIDs, hresp] using hid) hvalid
        have hnext : (b.request cfg c r).sNextNotificationID =
            (b.dispatch cfg (k.ctx c) r).1.sNextNotificationID := by
          simp only [Broker.request, hk, hdeferred, hbreaks, Bool.or_self, Bool.false_eq_true,
            if_false]
          split <;> rfl
        rw [Broker.step, hnext]
        exact hmade
    | @job job res rest _ _ _ hctx =>
        rw [notificationIDs_jobResult (b := { b with pipe := rest }) hattach] at hid
        cases hid

end Answered

/-! ## Runs -/

/-- The ID was made while a request of the connection was served. -/
def MadeFor (cfg : Config) (es : List Event) (c : Nat) (id : UInt32) : Prop :=
  ∃ es₁ r es₂, es = es₁ ++ .request c r :: es₂ ∧
    Made (Run.run (step cfg) init es₁).sNextNotificationID
      ((Run.run (step cfg) init es₁).step cfg (.request c r)).sNextNotificationID id

/-- One more event makes the IDs between the counter before it and behind it. -/
theorem madeFor_snoc {cfg : Config} {es : List Event} {e : Event} {c : Nat} {id : UInt32} :
    MadeFor cfg (es ++ [e]) c id ↔ MadeFor cfg es c id ∨ ∃ r, e = .request c r ∧
      Made (Run.run (step cfg) init es).sNextNotificationID
        ((Run.run (step cfg) init es).step cfg e).sNextNotificationID id := by
  constructor
  · rintro ⟨es₁, r, es₂, hes, hmade⟩
    rcases List.eq_nil_or_concat es₂ with rfl | ⟨es₂, x, rfl⟩
    · obtain ⟨rfl, he⟩ := List.append_inj' hes rfl
      obtain rfl := List.singleton_inj.mp he
      exact Or.inr ⟨r, rfl, hmade⟩
    · rw [List.concat_eq_append, ← List.cons_append, ← List.append_assoc] at hes
      exact Or.inl ⟨es₁, r, es₂, (List.append_inj' hes rfl).1, hmade⟩
  · rintro (⟨es₁, r, es₂, rfl, hmade⟩ | ⟨r, rfl, hmade⟩)
    · exact ⟨es₁, r, es₂ ++ [e], by simp, hmade⟩
    · exact ⟨es, r, [], rfl, hmade⟩

/-- Before and behind a step the IDs are in the lists of the connections that they were made
for. -/
theorem Hosted.step {cfg : Config} {H : Nat → UInt32 → Prop} {b : Broker}
    (h : Hosted H (· = INVALID_NOTIFICATION_ID) b) (hfresh : NumbersFresh b)
    (hattach : b.mPendingAttachExtendedJobs = []) (e : Event)
    (hfits : (b.step cfg e).sNextNotificationID ≤ 2 ^ 32) :
    Hosted (fun c id => H c id ∨ ∃ r, e = .request c r ∧
        Made b.sNextNotificationID (b.step cfg e).sNextNotificationID id)
      (· = INVALID_NOTIFICATION_ID) (b.step cfg e) := by
  have hquiet (he : ∀ c r, e ≠ .request c r)
      (h' : Hosted H (· = INVALID_NOTIFICATION_ID) (b.step cfg e)) :
      Hosted (fun c id => H c id ∨ ∃ r, e = .request c r ∧
          Made b.sNextNotificationID (b.step cfg e).sNextNotificationID id)
        (· = INVALID_NOTIFICATION_ID) (b.step cfg e) := by
    simpa [he] using h'
  have hmoves (he : fromConnection e = false)
      (hopen : ∀ node loc uid, e ≠ .connected node loc uid) :
      Hosted H (· = INVALID_NOTIFICATION_ID) (b.step cfg e) := by
    obtain ⟨c, hm⟩ := moves_step cfg hattach he hopen
    have hgrant := h.moves rfl hm (by simp [eventMoves]) hfits
    rwa [hm.next_eq (by simp [eventMoves]), grant_self] at hgrant
  cases e with
  | connected node loc uid => exact hquiet (by simp) (h.openConnection hfresh node loc uid)
  | request c r =>
      cases hk : b.conns c with
      | none =>
          have hsame : b.step cfg (.request c r) = b := by simp [Broker.step, request, hk]
          rw [hsame]
          exact h.congr (by simp [not_made_self])
      | some k =>
          refine (h.moves rfl (moves_request cfg c r b) (fun _ => by simp [hk]) hfits).congr ?_
          intro c' id
          simp only [grant, Event.request.injEq, Broker.step]
          constructor
          · rintro (hold | ⟨rfl, hmade⟩)
            · exact Or.inl hold
            · exact Or.inr ⟨r, ⟨rfl, rfl⟩, hmade⟩
          · rintro (hold | ⟨_, ⟨rfl, _⟩, hmade⟩)
            · exact Or.inl hold
            · exact Or.inr ⟨rfl, hmade⟩
  | closed c => exact hquiet (by simp) (h.closeConnection c)
  | pulse => exact hquiet (by simp) (hmoves rfl (by simp))
  | deliver => exact hquiet (by simp) (hmoves rfl (by simp))
  | worker => exact hquiet (by simp) (hmoves rfl (by simp))

/-- The counter does not go back in a step. -/
theorem next_le_step (cfg : Config) {b : Broker} (hattach : b.mPendingAttachExtendedJobs = [])
    (e : Event) : b.sNextNotificationID ≤ (b.step cfg e).sNextNotificationID := by
  cases e with
  | connected => exact Nat.le_refl _
  | request c r => exact (moves_request cfg c r b).next_le
  | closed c =>
      have hsame := next_of_prims cfg (by simp [closeLabels]) (prims_closeConnection cfg c b)
      exact Nat.le_of_eq hsame.symm
  | pulse p value =>
      obtain ⟨c, hm⟩ := moves_step cfg hattach (e := .pulse p value) rfl (by simp)
      exact hm.next_le
  | deliver =>
      obtain ⟨c, hm⟩ := moves_step cfg hattach (e := .deliver) rfl (by simp)
      exact hm.next_le
  | worker w =>
      obtain ⟨c, hm⟩ := moves_step cfg hattach (e := .worker w) rfl (by simp)
      exact hm.next_le

/-- Behind every run the live notifications are in the lists of the connections that made them. -/
theorem hosted_run {cfg : Config} {es : List Event}
    (hfits : (Run.run (step cfg) init es).sNextNotificationID ≤ 2 ^ 32) :
    Hosted (MadeFor cfg es) (· = INVALID_NOTIFICATION_ID) (Run.run (step cfg) init es) := by
  induction es using List.reverseRecOn with
  | nil =>
      have hnone (c : Nat) (id : UInt32) : ¬ MadeFor cfg [] c id := by
        rintro ⟨es₁, r, es₂, hes, _⟩
        simp at hes
      constructor
      case live => simp [ids, live, kinds, Broker.notifications, init]
      case nodup => simp [ids, live, kinds, Broker.notifications, init]
      case made => exact fun c id h => absurd h (hnone c id)
      case disjoint => exact fun c _ id h => absurd h (hnone c id)
      case lists =>
        intro c id h
        cases h
      case kept => exact fun c id h => absurd h.1 (hnone c id)
  | append_singleton es e ih =>
      rw [Run.run_append, Run.run_cons, Run.run_nil] at hfits ⊢
      have hle := next_le_step cfg (attachJobs_run cfg es) e
      have hstep := (ih (Nat.le_trans hle hfits)).step (numbersFresh_run cfg es)
        (attachJobs_run cfg es) e hfits
      exact hstep.congr (fun c id => madeFor_snoc.symm)

/-- An ID that a connection was answered was made for it. -/
theorem handed_run {cfg : Config} {es : List Event} {c : Nat} {id : UInt32}
    (h : id ∈ handed c (Run.run (step cfg) init es)) : MadeFor cfg es c id := by
  induction es using List.reverseRecOn with
  | nil => cases h
  | append_singleton es e ih =>
      rw [Run.run_append] at h
      rw [madeFor_snoc]
      exact (mem_handed_step (attachJobs_run cfg es) h).imp_left ih

/-- Clearing a connection leaves no notification whose ID was handed to it, nor any other
valid one that was made for it, and takes a notification of another connection only when
it sends it because its server or its client was one of the connection. -/
theorem clear_leaves_nothing (cfg : Config) (es : List Event)
    (h : IDsDistinct (Run.run (step cfg) init es)) (c : Nat) :
    let b := Run.run (step cfg) init es
    (∀ k, ∀ n ∈ (b.clear cfg c).notifications k, n.notificationID ∉ handed c b) ∧
      (∀ k, ∀ n ∈ (b.clear cfg c).notifications k,
        MadeFor cfg es c n.notificationID → n.notificationID = INVALID_NOTIFICATION_ID) ∧
      ∀ c', c' ≠ c → ∀ k, ∀ n ∈ b.notifications k,
        MadeFor cfg es c' n.notificationID ∨ n.notificationID ∈ handed c' b →
        (∃ n' ∈ (b.clear cfg c).notifications k, Remains n n' ∧ n'.active = n.active) ∨
          (n.active = true ∧ SentBetween b (b.clear cfg c) n.notificationID ∧
            (k = .serverDisconnect ∧ (b.dataOf c).mServerList.contains n.partyID = true ∨
              k = .clientDetach ∧ (b.dataOf c).mClientList.contains n.partyID = true)) := by
  intro b
  have hhosted := hosted_run h.fits
  obtain ⟨_, hgone⟩ := hhosted.clear cfg c
  refine ⟨?_, ?_, ?_⟩
  · intro k n hn hhanded
    exact hgone k n hn ⟨handed_run hhanded, (mem_handed.mp hhanded).choose_spec.2.2⟩
  · intro k n hn hmade
    by_contra hvalid
    exact hgone k n hn ⟨hmade, hvalid⟩
  · intro c' hc k n hn hother
    have hmade : MadeFor cfg es c' n.notificationID := hother.elim id handed_run
    refine mem_or_sent_clear cfg hn (fun hmem => hc ?_)
    exact hhosted.disjoint c' c _ hmade (hhosted.lists c _ hmem)

/-- A notification of the connection has fired, which left a stale ID in its list.  Its
other notification goes with it; connection 2 hears that the server is gone. -/
theorem clear_leaves_nothing_stale :
    let es : List Event := [.connected 0 0 0, .connected 0 0 0,
      .request 1 (.registerInterface ⟨[65], 1, 0⟩ 0 1),
      .request 1 (.notifyServerAvailable ⟨1, 2, 3, 4⟩ ⟨[65], 1, 0⟩),
      .request 1 (.notifyServerAvailable ⟨1, 2, 3, 4⟩ ⟨[66], 1, 0⟩),
      .request 2 (.notifyServerDisconnect ⟨500001, 1000⟩ ⟨1, 2, 3, 4⟩)]
    let b := Run.run (step aloneConfig) init es
    let b' := b.clear aloneConfig 1
    b.notificationList 1 = [1, 2] ∧ handed 1 b = [1, 2] ∧ ids b.live = [2, 3] ∧
      (∀ k, ∀ n ∈ b'.notifications k, n.notificationID ∉ handed 1 b) ∧
      ids b'.live = [] ∧ b'.sentIDs = b.sentIDs ++ [3] :=
  ⟨by decide, by decide, by decide, (clear_leaves_nothing aloneConfig _ (by decide) 1).1,
    by decide, by decide⟩

end Broker

end Dsi
