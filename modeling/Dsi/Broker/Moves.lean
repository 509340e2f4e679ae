import Dsi.Broker.Frame

/-!
# Dsi.Broker.Moves

`NotificationList::move`, object by object: the copy constructor of a notification takes
what it owns away from the one it copies, the list then copies the pool ID from that one
once more, and the destructor runs on what is left of it.  Everything but the pool ID
arrives.
-/

namespace Dsi

namespace Broker

/-! ## The loop -/

/-- What the copy constructor leaves of the notification that it copies. -/
def Notification.emptied (n : Notification) : Notification :=
  { n with host := none, regExpr := none, coid := false, poolID := 0
           masterNotificationID := INVALID_NOTIFICATION_ID, pulse := ⟨0, 0, 0, 0⟩ }

/-- `NotificationList::add(Notification&)`: the copy is put in front, and gets the pool ID
of the notification that was copied, as it is now. -/
def Notification.added (n : Notification) : Notification :=
  { n with poolID := (Notification.emptied n).poolID }

/-- The loop of `NotificationList::move` over the source: what stays there, what was put in
front of the target, and the broker behind the destructors. -/
def moveLoop (cfg : Config) (poolID : UInt32) :
    List Notification → List Notification → Broker → List Notification × List Notification × Broker
  | [], front, b => ([], front, b)
  | n :: source, front, b =>
      if poolID = n.poolID then
        moveLoop cfg poolID source (Notification.added n :: front)
          (b.destroy cfg (Notification.emptied n))
      else
        let r := moveLoop cfg poolID source front b
        (n :: r.1, r.2)

/-- `NotificationList::move`; the two lists may be one. -/
def move (cfg : Config) (target source : NotificationKind) (poolID : UInt32) (b : Broker) :
    Broker :=
  let r := moveLoop cfg poolID (b.notifications source) [] b
  let b := r.2.2.setNotifications source r.1
  b.setNotifications target (r.2.1 ++ b.notifications target)

/-- The notifications of a pool in one list. -/
def ofPool (poolID : UInt32) (k : NotificationKind) (b : Broker) : List Notification :=
  (b.notifications k).filter (fun n => n.poolID = poolID)

/-- The number of members that a pool has in all lists. -/
def members (poolID : UInt32) (b : Broker) : Nat :=
  (b.ofPool poolID .serverConnect).length + (b.ofPool poolID .serverDisconnect).length +
    (b.ofPool poolID .clientDetach).length + (b.ofPool poolID .serverListChange).length

/-- The notifications of the pool are put in front of the target as they are, everything
else stays where it is, and nothing else happens; whoever addresses the pool in the target
afterwards reaches them, and the pool has as many members as before. -/
structure Transfers (target source : NotificationKind) (poolID : UInt32) (b b' : Broker) :
    Prop where
  lists : ∃ front, front.Perm (b.ofPool poolID source) ∧ ∀ k, b'.notifications k =
    (if k = target then front else []) ++ if k = source then
      (b.notifications k).filter (fun n => n.poolID ≠ poolID) else b.notifications k
  queue : b'.mQueue = b.mQueue
  log : b'.log = b.log
  conns : b'.conns = b.conns
  pools : b'.mMasterNotificationPool = b.mMasterNotificationPool
  reached : ∀ s, ∀ n ∈ b.ofPool poolID source,
    { n with partyID := s } ∈ (b'.setType target poolID s).notifications target
  members : b'.members poolID = b.members poolID

/-- There is nothing left for the destructor. -/
theorem destroy_emptied (cfg : Config) (n : Notification) (b : Broker) :
    b.destroy cfg (Notification.emptied n) = b := by
  simp [destroy, unhost, releaseMaster, Notification.emptied]

theorem moveLoop_eq (cfg : Config) (poolID : UInt32) (source front : List Notification)
    (b : Broker) : moveLoop cfg poolID source front b =
      (source.filter (fun n => n.poolID ≠ poolID),
        ((source.filter (fun n => n.poolID = poolID)).map Notification.added).reverse ++ front,
        b) := by
  induction source generalizing front b with
  | nil => rfl
  | cons n source ih =>
      rw [moveLoop]
      by_cases hn : poolID = n.poolID
      · rw [if_pos hn, ih, destroy_emptied]
        simp [← hn]
      · rw [if_neg hn, ih]
        simp [Ne.symm hn]

/-- What `move` does to the lists. -/
theorem notifications_move (cfg : Config) (target source k : NotificationKind) (poolID : UInt32)
    (b : Broker) : (b.move cfg target source poolID).notifications k =
      (if k = target then ((b.ofPool poolID source).map Notification.added).reverse else []) ++
        if k = source then (b.notifications k).filter (fun n => n.poolID ≠ poolID)
        else b.notifications k := by
  simp only [move, moveLoop_eq, notifications_setNotifications, List.append_nil, ofPool]
  by_cases htarget : k = target
  · subst htarget
    by_cases hsource : k = source
    · subst hsource
      simp
    · simp [hsource]
  · by_cases hsource : k = source
    · subst hsource
      simp [htarget]
    · simp [htarget, hsource]

/-- `move` writes the two lists only. -/
theorem move_frame (cfg : Config) (target source : NotificationKind) (poolID : UInt32)
    (b : Broker) : (b.move cfg target source poolID).mQueue = b.mQueue ∧
      (b.move cfg target source poolID).log = b.log ∧
      (b.move cfg target source poolID).conns = b.conns ∧
      (b.move cfg target source poolID).mMasterNotificationPool = b.mMasterNotificationPool := by
  rw [move, moveLoop_eq]
  cases source <;> cases target <;> exact ⟨rfl, rfl, rfl, rfl⟩

/-- The calls of the broker move from one list to another. -/
theorem moveNotifications_eq (cfg : Config) {target source : NotificationKind}
    (h : target ≠ source) (poolID : UInt32) (b : Broker) :
    b.moveNotifications target source poolID = b.move cfg target source poolID := by
  rw [move, moveLoop_eq, moveNotifications]
  simp only [List.append_nil, notifications_setNotifications, if_neg h]
  rfl

/-! ## The transfer -/

variable {cfg : Config} {target source : NotificationKind} {poolID : UInt32} {b b' : Broker}

/-- A copy is complete when the pool ID is the one of no pool. -/
theorem added_eq_self_iff {n : Notification} : Notification.added n = n ↔ n.poolID = 0 := by
  constructor
  · intro h
    exact (congrArg Notification.poolID h).symm
  · intro h
    rw [Notification.added]
    exact congrArg (fun id => { n with poolID := id }) h.symm

/-- A permutation in front of the target and the others in place: the numbers of members agree. -/
theorem members_of_lists (h : ∃ front, front.Perm (b.ofPool poolID source) ∧
    ∀ k, b'.notifications k = (if k = target then front else []) ++ if k = source then
      (b.notifications k).filter (fun n => n.poolID ≠ poolID) else b.notifications k) :
    b'.members poolID = b.members poolID := by
  obtain ⟨front, hperm, hlists⟩ := h
  have hfront : front.filter (fun n => n.poolID = poolID) = front := by
    rw [List.filter_eq_self]
    intro n hn
    exact (List.mem_filter.mp (hperm.mem_iff.mp hn)).2
  have hlength := hperm.length_eq
  have hof (k : NotificationKind) : (b'.ofPool poolID k).length =
      (if k = target then (b.ofPool poolID source).length else 0) +
        if k = source then 0 else (b.ofPool poolID k).length := by
    rw [ofPool, hlists, List.filter_append, List.length_append]
    congr 1
    · split
      · rw [hfront, hlength]
      · rfl
    · split
      · simp [List.filter_filter]
      · rfl
  simp only [members, hof]
  cases source <;> cases target <;> simp <;> omega

/-- The notifications of a pool are transferred exactly when there are none in the source,
or the pool ID is the one of no pool. -/
theorem move_transfers_iff (cfg : Config) (target source : NotificationKind) (poolID : UInt32)
    (b : Broker) : Transfers target source poolID b (b.move cfg target source poolID) ↔
      poolID = 0 ∨ ∀ n ∈ b.notifications source, n.poolID ≠ poolID := by
  have hmoved : ∀ n ∈ b.ofPool poolID source, n.poolID = poolID := fun n hn => by
    simpa using (List.mem_filter.mp hn).2
  constructor
  · intro h
    by_contra hno
    obtain ⟨hzero, hsome⟩ := not_or.mp hno
    simp only [not_forall, not_not] at hsome
    obtain ⟨n, hn, hpool⟩ := hsome
    obtain ⟨front, hperm, hlists⟩ := h.lists
    -- both descriptions of the target have the same rest
    have hsame := (notifications_move cfg target source target poolID b).symm.trans (hlists target)
    rw [if_pos rfl, if_pos rfl] at hsame
    have hfront := List.append_cancel_right hsame
    have hin : n ∈ ((b.ofPool poolID source).map Notification.added).reverse := by
      rw [hfront]
      exact hperm.mem_iff.mpr (List.mem_filter.mpr ⟨hn, by simpa using hpool⟩)
    obtain ⟨n', _, rfl⟩ := List.mem_map.mp (List.mem_reverse.mp hin)
    exact hzero hpool.symm
  · intro h
    have hcopies : (b.ofPool poolID source).map Notification.added = b.ofPool poolID source := by
      refine (List.map_congr_left fun n hn => ?_).trans (List.map_id _)
      refine added_eq_self_iff.mpr ?_
      rcases h with hzero | hnone
      · exact (hmoved n hn).trans hzero
      · exact absurd (hmoved n hn) (hnone n (List.mem_filter.mp hn).1)
    have hlists : ∃ front, front.Perm (b.ofPool poolID source) ∧
        ∀ k, (b.move cfg target source poolID).notifications k =
          (if k = target then front else []) ++ if k = source then
            (b.notifications k).filter (fun n => n.poolID ≠ poolID) else b.notifications k := by
      refine ⟨(b.ofPool poolID source).reverse, List.reverse_perm _, fun k => ?_⟩
      rw [notifications_move, hcopies]
    obtain ⟨hqueue, hlog, hconns, hpools⟩ := move_frame cfg target source poolID b
    refine ⟨hlists, hqueue, hlog, hconns, hpools, fun s n hn => ?_, members_of_lists hlists⟩
    rw [setType, mapNotifications, notifications_setNotifications, if_pos rfl, notifications_move,
      hcopies, if_pos rfl]
    refine List.mem_map.mpr ⟨n, List.mem_append_left _ (List.mem_reverse.mpr hn), ?_⟩
    rw [if_pos (hmoved n hn)]

/-- A notification of pool 100000 is moved: it arrives without its pool, so that its server is
not set, and the pool, which counts one member, has none. -/
theorem not_move_transfers_pool :
    let n : Notification := { notificationID := 1, poolID := 100000, host := some 1 }
    let np : NotificationPoolEntry :=
      { poolID := 100000, mDataSwitch := .ifDescription ⟨[65], 1, 0⟩, mPoolState := .STATE_DEFERRED
        mRefCount := 1 }
    let b : Broker := { mServerConnectNotifications := [n], mMasterNotificationPool := [np] }
    let b' := b.move { theId := 0, hasMaster := true } .serverDisconnect .serverConnect 100000
    (b'.setType .serverDisconnect 100000 ⟨5, 6⟩).mServerDisconnectNotifications =
        [{ n with poolID := 0 }] ∧
      b'.mMasterNotificationPool = [np] ∧ b'.members 100000 = 0 ∧
      ¬ Transfers .serverDisconnect .serverConnect 100000 b b' := by
  refine ⟨by decide, by decide, by decide, fun h => ?_⟩
  have hmembers := h.members
  revert hmembers
  decide

end Broker

end Dsi
