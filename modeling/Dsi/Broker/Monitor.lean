import Dsi.Broker.ServerGone
import Dsi.Broker.PoolCount

/-!
# Dsi.Broker.Monitor

Disconnect notifications of a slave on servers that are not registered here.  They
share pools, one for each server, which the master is asked to pulse when the server
goes.  `NotificationPool::find(SPartyID)` compares the local halves of the IDs only,
so a notification may join the pool of another server; where it does not, the pools
are those of the servers and a pulse sends exactly the notifications on one server.

The pools on servers are counted here on their own (`Counts`), whatever happens to
the pools on interfaces.
-/

namespace Dsi

open Sequence RefCount

namespace NotificationPoolEntry

/-- The pool is one on a server. -/
def isMonitor (np : NotificationPoolEntry) : Bool := np.mPoolState == .STATE_MONITOR_DISCONNECT

/-- `mRefCount--`. -/
def release (np : NotificationPoolEntry) : NotificationPoolEntry :=
  { np with mRefCount := np.mRefCount - 1 }

/-- The two entries are the same pool. -/
def Same (np np' : NotificationPoolEntry) : Prop :=
  np'.poolID = np.poolID ∧ np'.mDataSwitch = np.mDataSwitch ∧ np'.isMonitor = np.isMonitor

theorem Same.refl (np : NotificationPoolEntry) : Same np np := ⟨rfl, rfl, rfl⟩

/-- Pools for the same purpose. -/
theorem Same.trans {np np' np'' : NotificationPoolEntry} (h : Same np np') (h' : Same np' np'') :
    Same np np'' :=
  ⟨h'.1.trans h.1, h'.2.1.trans h.2.1, h'.2.2.trans h.2.2⟩

theorem same_release (np : NotificationPoolEntry) : Same np np.release := ⟨rfl, rfl, rfl⟩

/-- A pool on an interface is none on a server. -/
theorem isMonitor_of_isFor {d : InterfaceDescription} {extendedSearch : Bool}
    {np : NotificationPoolEntry} (h : np.isFor d extendedSearch = true) :
    np.isMonitor = false := by
  unfold isFor at h
  unfold isMonitor
  cases hs : np.mPoolState <;> simp_all

end NotificationPoolEntry

open NotificationPoolEntry

namespace NotificationPool

/-- The pools on servers. -/
def monitors (l : NotificationPool) : NotificationPool := l.filter (·.isMonitor)

/-- What `NotificationPoolEntry::detach` does to the table. -/
def releasePool (poolID : UInt32) (l : NotificationPool) : NotificationPool :=
  releaseKey (·.poolID) (·.mRefCount) NotificationPoolEntry.release poolID l

/-- The pools that are monitored for a disconnect. -/
theorem mem_monitors {np : NotificationPoolEntry} {l : NotificationPool} :
    np ∈ l.monitors ↔ np ∈ l ∧ np.isMonitor = true := List.mem_filter

/-- A member that leaves a monitored pool leaves it among the monitored ones. -/
theorem monitors_releasePool (poolID : UInt32) (l : NotificationPool) :
    (l.releasePool poolID).monitors = l.monitors.releasePool poolID := by
  induction l with
  | nil => rfl
  | cons np l ih =>
      have hstate : np.release.isMonitor = np.isMonitor := rfl
      unfold monitors releasePool releaseKey at ih ⊢
      rw [List.filterMap_cons, List.filter_cons]
      cases hm : np.isMonitor <;> by_cases hk : np.poolID = poolID <;>
        by_cases h0 : np.mRefCount - 1 = 0 <;> simp [hk, h0, hm, hstate, ih]

/-- The table keeps the pools on servers that `refs` refers to, and gets no others. -/
structure Kept (refs : List UInt32) (l l' : NotificationPool) : Prop where
  origin : ∀ np' ∈ l'.monitors, ∃ np ∈ l.monitors, Same np np'
  survives : ∀ np ∈ l.monitors, np.poolID ∈ refs → ∃ np' ∈ l'.monitors, Same np np'

theorem Kept.refl (refs : List UInt32) (l : NotificationPool) : Kept refs l l :=
  ⟨fun np hnp => ⟨np, hnp, .refl np⟩, fun np hnp _ => ⟨np, hnp, .refl np⟩⟩

/-- Fewer references keep fewer pools. -/
theorem Kept.mono {refs refs' : List UInt32} {l l' : NotificationPool} (h : Kept refs l l')
    (hsub : refs' ⊆ refs) : Kept refs' l l' :=
  ⟨h.origin, fun np hnp hr => h.survives np hnp (hsub hr)⟩

/-- Pools that are kept on both parts of the way. -/
theorem Kept.trans {refs refs' : List UInt32} {l l' l'' : NotificationPool} (h : Kept refs l l')
    (h' : Kept refs' l' l'') (hsub : refs' ⊆ refs) : Kept refs' l l'' where
  origin np'' hnp'' := by
    obtain ⟨np', hnp', hs'⟩ := h'.origin np'' hnp''
    obtain ⟨np, hnp, hs⟩ := h.origin np' hnp'
    exact ⟨np, hnp, hs.trans hs'⟩
  survives np hnp hr := by
    obtain ⟨np', hnp', hs⟩ := h.survives np hnp (hsub hr)
    obtain ⟨np'', hnp'', hs'⟩ := h'.survives np' hnp' (hs.1.symm ▸ hr)
    exact ⟨np'', hnp'', hs.trans hs'⟩

/-- The pools have distinct IDs other than 0 and below `next`, and those on servers
count `refs`. -/
structure Cells (next : Nat) (refs : List UInt32) (l : NotificationPool) : Prop where
  nodup : (l.map (·.poolID)).Nodup
  nonzero : ∀ np ∈ l, np.poolID ≠ 0
  below : ∀ np ∈ l, np.poolID.toNat < next
  counts : Counts (·.poolID) (·.mRefCount) refs l.monitors

/-- The order of the references does not count. -/
theorem Cells.perm {next : Nat} {refs refs' : List UInt32} {l : NotificationPool}
    (h : Cells next refs l)
    (hp : refs.Perm refs') : Cells next refs' l :=
  ⟨h.nodup, h.nonzero, h.below, h.counts.perm hp⟩

/-- References that are not to a pool on a server do not matter. -/
theorem Cells.congr {next : Nat} {refs refs' : List UInt32} {l : NotificationPool}
    (h : Cells next refs l)
    (hr : ∀ np ∈ l.monitors, refs'.count np.poolID = refs.count np.poolID) : Cells next refs' l :=
  ⟨h.nodup, h.nonzero, h.below, h.counts.congr hr⟩

/-- A notification without a pool is no reference. -/
theorem Cells.cons_zero {next : Nat} {refs : List UInt32} {l : NotificationPool}
    (h : Cells next refs l) :
    Cells next (0 :: refs) l :=
  h.congr (fun np hnp => List.count_cons_of_ne (h.nonzero np (mem_monitors.mp hnp).1).symm)

/-- A new pool with the next ID. -/
theorem Cells.cons {next : Nat} {refs : List UInt32} {l : NotificationPool} (h : Cells next refs l)
    {np : NotificationPoolEntry} (hid : np.poolID.toNat = next) (hpos : 0 < next)
    (h0 : np.mRefCount = 0) (hrefs : ∀ p ∈ refs, p.toNat < next) :
    Cells (next + 1) refs (np :: l) := by
  have hfresh : np.poolID ∉ l.map (·.poolID) := by
    intro hmem
    obtain ⟨np', hnp', he⟩ := List.mem_map.mp hmem
    have he : np'.poolID = np.poolID := he
    have hlt := h.below np' hnp'
    rw [he] at hlt
    omega
  refine ⟨List.nodup_cons.mpr ⟨hfresh, h.nodup⟩, ?_, ?_, ?_⟩
  · intro np' hnp'
    cases List.mem_cons.mp hnp' with
    | inl he =>
        intro hzero
        rw [← he, hzero] at hid
        exact absurd hid (by simp; omega)
    | inr hold => exact h.nonzero np' hold
  · intro np' hnp'
    cases List.mem_cons.mp hnp' with
    | inl he => rw [he, hid]; exact Nat.lt_succ_self _
    | inr hold => exact Nat.lt_succ_of_lt (h.below np' hold)
  · unfold monitors
    rw [List.filter_cons]
    split
    · refine h.counts.cons h0 (fun hmem => ?_) (fun hmem => ?_)
      · have hlt := hrefs _ hmem
        omega
      · exact hfresh ((List.filter_sublist.map _).subset hmem)
    · exact h.counts

/-- The ID of a pool on an interface is not one of a pool on a server. -/
theorem Cells.ne_of_other {next : Nat} {refs : List UInt32} {l : NotificationPool}
    (h : Cells next refs l) {np np' : NotificationPoolEntry} (hnp : np ∈ l)
    (hm : np.isMonitor = false) (hnp' : np' ∈ l.monitors) : np.poolID ≠ np'.poolID := by
  intro hid
  obtain ⟨hmem, hm'⟩ := mem_monitors.mp hnp'
  have he : np = np' := List.inj_on_of_nodup_map h.nodup hnp hmem hid
  rw [he, hm'] at hm
  exact absurd hm (by decide)

/-- A reference moves between things that are no pools on servers. -/
theorem Cells.move {next : Nat} {p q : UInt32} {refs refs' : List UInt32} {l : NotificationPool}
    (h : Cells next (refs ++ p :: refs') l) (hp : ∀ np ∈ l.monitors, p ≠ np.poolID)
    (hq : ∀ np ∈ l.monitors, q ≠ np.poolID) : Cells next (refs ++ q :: refs') l := by
  refine h.congr (fun np hnp => ?_)
  rw [List.count_append, List.count_append, List.count_cons_of_ne (hp np hnp),
    List.count_cons_of_ne (hq np hnp)]

/-- Changes that keep the purpose of a pool. -/
theorem monitors_map {f : NotificationPoolEntry → NotificationPoolEntry}
    (hf : ∀ np, Same np (f np)) (l : NotificationPool) :
    monitors (l.map f) = l.monitors.map f := by
  rw [monitors, List.filter_map]
  exact congrArg (List.map f) (List.filter_congr (fun np _ => (hf np).2.2))

/-- Writing the pools without touching ID and kind. -/
theorem kept_map {f : NotificationPoolEntry → NotificationPoolEntry}
    (hf : ∀ np, Same np (f np)) (refs : List UInt32) (l : NotificationPool) :
    Kept refs l (l.map f) where
  origin np' hnp' := by
    rw [monitors_map hf] at hnp'
    obtain ⟨np, hnp, rfl⟩ := List.mem_map.mp hnp'
    exact ⟨np, hnp, hf np⟩
  survives np hnp _ := by
    rw [monitors_map hf]
    exact ⟨f np, List.mem_map_of_mem hnp, hf np⟩

/-- Writing the pools like this, and keeping a count. -/
theorem Cells.of_map {next : Nat} {refs refs' : List UInt32} {l : NotificationPool}
    (h : Cells next refs l) {f : NotificationPoolEntry → NotificationPoolEntry}
    (hf : ∀ np, Same np (f np))
    (hcounts : Counts (·.poolID) (·.mRefCount) refs' (l.monitors.map f)) :
    Cells next refs' (l.map f) where
  nodup := by
    have hids : (l.map f).map (·.poolID) = l.map (·.poolID) := by
      rw [List.map_map]
      exact List.map_congr_left (fun np _ => (hf np).1)
    rw [hids]
    exact h.nodup
  nonzero np' hnp' := by
    obtain ⟨np, hnp, rfl⟩ := List.mem_map.mp hnp'
    rw [(hf np).1]
    exact h.nonzero np hnp
  below np' hnp' := by
    obtain ⟨np, hnp, rfl⟩ := List.mem_map.mp hnp'
    rw [(hf np).1]
    exact h.below np hnp
  counts := by
    rw [monitors_map hf]
    exact hcounts

/-- The pools are written without touching ID, count and kind. -/
theorem Cells.map {next : Nat} {refs : List UInt32} {l : NotificationPool}
    (h : Cells next refs l) {f : NotificationPoolEntry → NotificationPoolEntry}
    (hf : ∀ np, Same np (f np) ∧ (f np).mRefCount = np.mRefCount) :
    Cells next refs (l.map f) := by
  refine h.of_map (fun np => (hf np).1) ⟨?_, ?_⟩
  · have hids : (l.monitors.map f).map (·.poolID) = l.monitors.map (·.poolID) := by
      rw [List.map_map]
      exact List.map_congr_left (fun np _ => (hf np).1.1)
    rw [hids]
    exact h.counts.nodup
  · intro np' hnp'
    obtain ⟨np, hnp, rfl⟩ := List.mem_map.mp hnp'
    rw [(hf np).2, (hf np).1.1]
    exact h.counts.count_eq np hnp

/-- A pool that is changed counts what it counted. -/
theorem Cells.modify {next : Nat} {refs : List UInt32} {l : NotificationPool}
    (h : Cells next refs l) (pos : Nat)
    {f : NotificationPoolEntry → NotificationPoolEntry}
    (hf : ∀ np, Same np (f np) ∧ (f np).mRefCount = np.mRefCount) :
    Cells next refs (l.modify pos f) ∧ Kept refs l (l.modify pos f) := by
  cases hpos : l[pos]? with
  | none =>
      rw [List.modify_eq_self (List.getElem?_eq_none_iff.mp hpos)]
      exact ⟨h, .refl _ _⟩
  | some np =>
      have hif (x : NotificationPoolEntry) :
          Same x (if x.poolID = np.poolID then f x else x) ∧
            (if x.poolID = np.poolID then f x else x).mRefCount = x.mRefCount := by
        split
        · exact hf x
        · exact ⟨.refl x, rfl⟩
      rw [modify_eq_map h.nodup hpos]
      exact ⟨h.map hif, kept_map (fun x => (hif x).1) refs l⟩

/-- A reference without a pool takes the one at `pos`. -/
theorem Cells.acquire {next : Nat} {refs : List UInt32} {l : NotificationPool}
    (h : Cells next (0 :: refs) l) {pos : Nat} {np : NotificationPoolEntry}
    (hpos : l[pos]? = some np) (refs' : List UInt32) :
    Cells next (np.poolID :: refs)
        (l.modify pos (fun np => { np with mRefCount := np.mRefCount + 1 })) ∧
      Kept refs' l (l.modify pos (fun np => { np with mRefCount := np.mRefCount + 1 })) := by
  have hsame (x : NotificationPoolEntry) : Same x
      (if x.poolID = np.poolID then { x with mRefCount := x.mRefCount + 1 } else x) := by
    split
    · exact ⟨rfl, rfl, rfl⟩
    · exact .refl x
  have hcounts : Counts (·.poolID) (·.mRefCount) refs l.monitors :=
    h.counts.congr (fun np' hnp' =>
      (List.count_cons_of_ne (h.nonzero np' (mem_monitors.mp hnp').1).symm).symm)
  have htake (np : NotificationPoolEntry) :
      ({ np with mRefCount := np.mRefCount + 1 } : NotificationPoolEntry).poolID = np.poolID ∧
        ({ np with mRefCount := np.mRefCount + 1 } : NotificationPoolEntry).mRefCount =
          np.mRefCount + 1 := ⟨rfl, rfl⟩
  have htaken := hcounts.acquire htake np.poolID
  rw [modify_eq_map h.nodup hpos]
  exact ⟨h.of_map hsame htaken, kept_map hsame refs' l⟩

/-- A reference that goes is taken from its pool. -/
theorem Cells.release {next : Nat} {poolID : UInt32} {refs : List UInt32} {l : NotificationPool}
    (h : Cells next (poolID :: refs) l) :
    Cells next refs (l.releasePool poolID) ∧ Kept refs l (l.releasePool poolID) := by
  refine ⟨⟨?_, ?_, ?_, ?_⟩, ?_, ?_⟩
  · exact nodup_releaseKey (fun _ => rfl) h.nodup
  · intro np' hnp'
    obtain ⟨np, hnp, ⟨rfl, _⟩ | ⟨rfl, _⟩⟩ := of_mem_releaseKey hnp'
    · exact h.nonzero np' hnp
    · exact h.nonzero np hnp
  · intro np' hnp'
    obtain ⟨np, hnp, ⟨rfl, _⟩ | ⟨rfl, _⟩⟩ := of_mem_releaseKey hnp'
    · exact h.below np' hnp
    · exact h.below np hnp
  · rw [monitors_releasePool]
    exact h.counts.release (fun _ => ⟨rfl, rfl⟩)
  · intro np' hnp'
    rw [monitors_releasePool] at hnp'
    obtain ⟨np, hnp, ⟨rfl, _⟩ | ⟨rfl, _⟩⟩ := of_mem_releaseKey hnp'
    · exact ⟨np', hnp, .refl np'⟩
    · exact ⟨np, hnp, same_release np⟩
  · intro np hnp hr
    rw [monitors_releasePool]
    obtain ⟨np', hnp', rfl | rfl⟩ := h.counts.mem_releaseKey hnp hr
    · exact ⟨np', hnp', .refl np'⟩
    · exact ⟨_, hnp', same_release np⟩

end NotificationPool

open NotificationPool

namespace Broker

/-! ## Loops -/

/-- A notification that goes releases its pool. -/
theorem pools_destroy (cfg : Config) (n : Notification) {b : Broker}
    (hn : (b.mMasterNotificationPool.map (·.poolID)).Nodup)
    (h0 : ∀ np ∈ b.mMasterNotificationPool, np.poolID ≠ 0) :
    (b.destroy cfg n).mMasterNotificationPool =
      b.mMasterNotificationPool.releasePool n.poolID := by
  have hnone (p : UInt32) (h : ∀ np ∈ b.mMasterNotificationPool, np.poolID ≠ p) :
      b.mMasterNotificationPool = b.mMasterNotificationPool.releasePool p :=
    (releaseKey_of_not_mem h).symm
  have hclear (id : UInt32) (b : Broker) :
      (b.createClearNotificationJob cfg id).mMasterNotificationPool =
        b.mMasterNotificationPool := by
    unfold createClearNotificationJob evalMaster
    split <;> rfl
  have hpools := pools_unhost n b
  unfold destroy releaseMaster
  split
  · rw [hpools]
    cases hpos : b.mMasterNotificationPool.findPool n.poolID with
    | none =>
        refine hpools.trans (hnone _ (fun np hnp he => ?_))
        have hsome : (b.mMasterNotificationPool.findPool n.poolID).isSome := by
          rw [NotificationPool.findPool, List.findIdx?_isSome, List.any_eq_true]
          exact ⟨np, hnp, decide_eq_true he⟩
        simp [hpos] at hsome
    | some pos =>
        obtain ⟨hlt, hp, _⟩ := List.findIdx?_eq_some_iff_getElem.mp hpos
        have hnp := List.getElem?_eq_getElem hlt
        generalize b.mMasterNotificationPool[pos] = np at hnp hp
        have hid : np.poolID = n.poolID := of_decide_eq_true hp
        dsimp only
        unfold detachPool
        rw [hpools, hnp, ← hid]
        dsimp only
        split
        · next hlast =>
          have herase := releaseKey_eq_eraseP NotificationPoolEntry.release hn
            (List.mem_of_getElem? hnp) hlast
          split
          · exact (hclear _ _).trans herase.symm
          · exact herase.symm
        · next hmore =>
          have hmodify := releaseKey_eq_modify NotificationPoolEntry.release hn hnp hmore
          rw [modifyPool, hpools]
          exact hmodify.symm
  · next hzero =>
    have hz : n.poolID = 0 := by simpa using hzero
    rw [hz, ← hnone 0 h0]
    split
    · exact (hclear _ _).trans hpools
    · exact hpools

/-- So the pool counts one less, or is gone with the last member. -/
theorem cells_destroy (cfg : Config) {next : Nat} {n : Notification} {refs : List UInt32}
    {b : Broker}
    (h : Cells next (n.poolID :: refs) b.mMasterNotificationPool) :
    Cells next refs (b.destroy cfg n).mMasterNotificationPool ∧
      Kept refs b.mMasterNotificationPool (b.destroy cfg n).mMasterNotificationPool := by
  rw [pools_destroy cfg n h.nodup h.nonzero]
  exact h.release

/-- The loops keep the count, and the pools that are still referred to; `refs` are the
references outside the list. -/
theorem cells_sweepLoop (cfg : Config) (once : Bool) (act : Broker → Notification → Action)
    {next : Nat} (ns : List Notification) (refs : List UInt32) (b : Broker)
    (h : Cells next (refs ++ ns.map (·.poolID)) b.mMasterNotificationPool) :
    Cells next (refs ++ (sweepLoop cfg once act ns b).1.map (·.poolID))
        (sweepLoop cfg once act ns b).2.mMasterNotificationPool ∧
      Kept (refs ++ (sweepLoop cfg once act ns b).1.map (·.poolID)) b.mMasterNotificationPool
        (sweepLoop cfg once act ns b).2.mMasterNotificationPool := by
  induction ns generalizing refs b with
  | nil => exact ⟨h, .refl _ _⟩
  | cons n ns ih =>
      have hkeep : ∀ b', b'.mMasterNotificationPool = b.mMasterNotificationPool →
          Cells next (refs ++ n.poolID :: (sweepLoop cfg once act ns b').1.map (·.poolID))
              (sweepLoop cfg once act ns b').2.mMasterNotificationPool ∧
            Kept (refs ++ n.poolID :: (sweepLoop cfg once act ns b').1.map (·.poolID))
              b.mMasterNotificationPool
              (sweepLoop cfg once act ns b').2.mMasterNotificationPool := by
        intro b' hb'
        have h' := ih (refs ++ [n.poolID]) b' (by rw [hb']; simpa using h)
        simpa [hb'] using h'
      have hleave : Cells next
        (n.poolID :: (refs ++ ns.map (·.poolID))) b.mMasterNotificationPool :=
        h.perm List.perm_middle
      -- the rest of the list refers to at most what it referred to before
      have hsub (b' : Broker) : refs ++ (sweepLoop cfg once act ns b').1.map (·.poolID) ⊆
          refs ++ ns.map (·.poolID) := by
        intro p hp
        cases List.mem_append.mp hp with
        | inl hp => exact List.mem_append_left _ hp
        | inr hp =>
            obtain ⟨n', hn', rfl⟩ := List.mem_map.mp hp
            obtain ⟨m, hm, pulse, coid, active, rfl, _⟩ := remains_of_mem_sweepLoop cfg hn'
            exact List.mem_append_right _ (List.mem_map.mpr ⟨m, hm, rfl⟩)
      have hgo : ∀ b', Cells next (refs ++ ns.map (·.poolID)) b'.mMasterNotificationPool ∧
          Kept (refs ++ ns.map (·.poolID)) b.mMasterNotificationPool b'.mMasterNotificationPool →
          Cells next (refs ++ (sweepLoop cfg once act ns b').1.map (·.poolID))
              (sweepLoop cfg once act ns b').2.mMasterNotificationPool ∧
            Kept (refs ++ (sweepLoop cfg once act ns b').1.map (·.poolID))
              b.mMasterNotificationPool
              (sweepLoop cfg once act ns b').2.mMasterNotificationPool := by
        intro b' hb'
        have h' := ih refs b' hb'.1
        exact ⟨h'.1, hb'.2.trans h'.2 (hsub b')⟩
      obtain ⟨pulse, coid, hs⟩ := send_fst cfg n b
      have hsend := pools_send cfg n b
      have hfire : Cells next (refs ++ ns.map (·.poolID))
            ((b.send cfg n).2.destroy cfg (b.send cfg n).1).mMasterNotificationPool ∧
          Kept (refs ++ ns.map (·.poolID)) b.mMasterNotificationPool
            ((b.send cfg n).2.destroy cfg (b.send cfg n).1).mMasterNotificationPool := by
        have hleave' : Cells next ((b.send cfg n).1.poolID :: (refs ++ ns.map (·.poolID)))
            (b.send cfg n).2.mMasterNotificationPool := by
          rw [hs, hsend]
          exact hleave
        have h1 := cells_destroy cfg hleave'
        rwa [hsend] at h1
      have hdrop := cells_destroy cfg hleave
      rw [sweepLoop]
      split
      · exact hkeep b rfl
      · exact hkeep b rfl
      · dsimp only
        rw [hs]
        split
        · rw [hsend]
          exact ⟨h, .refl _ _⟩
        · exact hkeep _ hsend
      · dsimp only
        split
        · exact hfire
        · exact hgo _ hfire
      · dsimp only
        split
        · exact hdrop
        · exact hgo _ hdrop

/-! ## The invariant -/

/-- The job that asks the master to tell when the server of a pool goes. -/
def monitorJob (cfg : Config) (poolID : UInt32) (serverID : SPartyID) : Job :=
  ⟨poolID, none, .notifyServerDisconnect serverID
    (masterPulse cfg .PULSE_MASTER_SERVER_DISCONNECT poolID)⟩

/-- The pool is the one of a server elsewhere: the master was asked, its members are on
that server, and the active notifications on that server are its members, unless it is
one of `away`. -/
structure MonitorsServer (cfg : Config) (away : SPartyID → Prop) (b : Broker)
    (np : NotificationPoolEntry) (serverID : SPartyID) : Prop where
  switch : np.mDataSwitch = .serverID serverID
  foreign : serverID.extendedID ≠ cfg.mExtendedID
  asked : monitorJob cfg np.poolID serverID ∈ b.jobs
  members : ∀ n ∈ b.notifications .serverDisconnect, n.poolID = np.poolID → n.partyID = serverID
  all : ¬ away serverID → ∀ n ∈ b.notifications .serverDisconnect, n.active = true →
    n.partyID = serverID → n.poolID = np.poolID

/-- The table of pools is in order. -/
structure PoolTable (b : Broker) : Prop where
  cells : Cells b.nextPoolID (b.live.map (·.poolID)) b.mMasterNotificationPool
  refsBelow : ∀ n ∈ b.live, n.poolID.toNat < b.nextPoolID
  positive : 0 < b.nextPoolID
  attachJobs : b.mPendingAttachExtendedJobs = []

/-- The invariant: every pool on a server is the only one of that server, a disconnect
notification in a pool has its pool, and an active one is on a server here, or one of
`away`, or in a pool. -/
structure MonitorInv (cfg : Config) (away : SPartyID → Prop) (b : Broker) : Prop where
  table : PoolTable b
  pools : ∀ np ∈ b.mMasterNotificationPool.monitors,
    ∃ serverID, MonitorsServer cfg away b np serverID
  unique : ∀ np ∈ b.mMasterNotificationPool.monitors, ∀ np' ∈ b.mMasterNotificationPool.monitors,
    np'.mDataSwitch = np.mDataSwitch → np'.poolID = np.poolID
  pooled : ∀ n ∈ b.notifications .serverDisconnect, n.poolID ≠ 0 →
    ∃ np ∈ b.mMasterNotificationPool.monitors, np.poolID = n.poolID
  waits : ∀ n ∈ b.notifications .serverDisconnect, n.active = true →
    away n.partyID ∨ ServerThere b n.partyID ∨ n.poolID ≠ 0

/-- No server is away. -/
def nobody (_ : SPartyID) : Prop := False

/-- What updates may do to servers, notifications, pools and history without harm: no
server but those of `away` goes, and no disconnect notification comes. -/
structure PoolStep (away : SPartyID → Prop) (b b' : Broker) : Prop where
  there : ∀ id, ServerThere b id → away id ∨ ServerThere b' id
  notes : ∀ n' ∈ b'.notifications .serverDisconnect, ∃ n ∈ b.notifications .serverDisconnect,
    n'.poolID = n.poolID ∧ n'.partyID = n.partyID ∧ (n'.active = true → n.active = true)
  kept : Kept ((b'.notifications .serverDisconnect).map (·.poolID)) b.mMasterNotificationPool
    b'.mMasterNotificationPool
  log : b.log <+: b'.log

section Invariant

variable {cfg : Config} {away away' : SPartyID → Prop} {b b' b'' : Broker}

/-- What was asked stays asked. -/
theorem jobs_subset_of_log (h : b.log <+: b'.log) : b.jobs ⊆ b'.jobs := by
  obtain ⟨l, hl⟩ := h
  intro j hj
  rw [jobs, ← hl, List.filterMap_append]
  exact List.mem_append_left _ hj

/-- Notifications keep their pools on both parts of the way. -/
theorem PoolStep.trans (h : PoolStep away b b') (h' : PoolStep away b' b'') :
    PoolStep away b b'' where
  there id hid := (h.there id hid).elim Or.inl (h'.there id)
  notes n'' hn'' := by
    obtain ⟨n', hn', hpool', hparty', hact'⟩ := h'.notes n'' hn''
    obtain ⟨n, hn, hpool, hparty, hact⟩ := h.notes n' hn'
    exact ⟨n, hn, hpool'.trans hpool, hparty'.trans hparty, fun ha => hact (hact' ha)⟩
  kept := by
    refine h.kept.trans h'.kept (fun p hp => ?_)
    obtain ⟨n'', hn'', rfl⟩ := List.mem_map.mp hp
    obtain ⟨n', hn', hpool', _⟩ := h'.notes n'' hn''
    exact List.mem_map.mpr ⟨n', hn', hpool'.symm⟩
  log := h.log.trans h'.log

/-- A step that keeps the pools of the notifications keeps them monitored. -/
theorem MonitorInv.poolStep (h : MonitorInv cfg away b) (hs : PoolStep away b b')
    (htable : PoolTable b') : MonitorInv cfg away b' where
  table := htable
  pools np' hnp' := by
    obtain ⟨np, hnp, hsame⟩ := hs.kept.origin np' hnp'
    obtain ⟨serverID, hm⟩ := h.pools np hnp
    refine ⟨serverID, hsame.2.1.trans hm.switch, hm.foreign, ?_, ?_, ?_⟩
    · rw [hsame.1]
      exact jobs_subset_of_log hs.log hm.asked
    · intro n' hn' hid
      obtain ⟨n, hn, hpool, hparty, _⟩ := hs.notes n' hn'
      rw [hparty]
      exact hm.members n hn (hpool.symm.trans (hid.trans hsame.1))
    · intro hhere n' hn' hactive hid
      obtain ⟨n, hn, hpool, hparty, hact⟩ := hs.notes n' hn'
      rw [hpool, hsame.1]
      exact hm.all hhere n hn (hact hactive) (hparty.symm.trans hid)
  unique np hnp np' hnp' hswitch := by
    obtain ⟨np₀, hnp₀, hsame⟩ := hs.kept.origin np hnp
    obtain ⟨np₀', hnp₀', hsame'⟩ := hs.kept.origin np' hnp'
    have hold := h.unique np₀ hnp₀ np₀' hnp₀' (hsame'.2.1.symm.trans (hswitch.trans hsame.2.1))
    exact hsame'.1.trans (hold.trans hsame.1.symm)
  pooled n' hn' hne := by
    obtain ⟨n, hn, hpool, _⟩ := hs.notes n' hn'
    rw [hpool] at hne
    obtain ⟨np, hnp, hid⟩ := h.pooled n hn hne
    have hmem : np.poolID ∈ (b'.notifications .serverDisconnect).map (·.poolID) :=
      List.mem_map.mpr ⟨n', hn', hpool.trans hid.symm⟩
    obtain ⟨np', hnp', hsame⟩ := hs.kept.survives np hnp hmem
    exact ⟨np', hnp', hsame.1.trans (hid.trans hpool.symm)⟩
  waits n' hn' hactive := by
    obtain ⟨n, hn, hpool, hparty, hact⟩ := hs.notes n' hn'
    rw [hparty, hpool]
    rcases h.waits n hn (hact hactive) with haway | hthere | hne
    · exact Or.inl haway
    · exact (hs.there _ hthere).imp_right Or.inl
    · exact Or.inr (Or.inr hne)

/-- With more servers away less is to be monitored. -/
theorem MonitorInv.mono (h : MonitorInv cfg away b) (hsub : ∀ id, away id → away' id) :
    MonitorInv cfg away' b where
  table := h.table
  pools np hnp := by
    obtain ⟨serverID, hm⟩ := h.pools np hnp
    exact ⟨serverID, hm.switch, hm.foreign, hm.asked, hm.members,
      fun hhere => hm.all fun haway => hhere (hsub _ haway)⟩
  unique := h.unique
  pooled := h.pooled
  waits n hn hactive := (h.waits n hn hactive).imp_left (hsub _)

/-- The active notifications on the servers that are away are where they belong. -/
theorem MonitorInv.settle (h : MonitorInv cfg away b)
    (hset : ∀ n ∈ b.notifications .serverDisconnect, n.active = true → away n.partyID →
      (ServerThere b n.partyID ∨ n.poolID ≠ 0) ∧
        ∀ np ∈ b.mMasterNotificationPool.monitors, np.mDataSwitch = .serverID n.partyID →
          n.poolID = np.poolID) : MonitorInv cfg nobody b where
  table := h.table
  pools np hnp := by
    obtain ⟨serverID, hm⟩ := h.pools np hnp
    refine ⟨serverID, hm.switch, hm.foreign, hm.asked, hm.members, fun _ n hn hactive hparty => ?_⟩
    by_cases haway : away serverID
    · subst hparty
      exact (hset n hn hactive haway).2 np hnp hm.switch
    · exact hm.all haway n hn hactive hparty
  unique := h.unique
  pooled := h.pooled
  waits n hn hactive := by
    rcases h.waits n hn hactive with haway | hwaits
    · exact Or.inr (hset n hn hactive haway).1
    · exact Or.inr hwaits

end Invariant

/-! ## Updates -/

/-- The updates keep the table of pools in order and do no harm, as long as the IDs of
the pools fit. -/
structure KeepsPools (away : SPartyID → Prop) (b b' : Broker) : Prop where
  next : b.nextPoolID ≤ b'.nextPoolID
  keeps : b'.nextPoolID ≤ 2 ^ 32 → PoolTable b → PoolTable b' ∧ PoolStep away b b'

section Updates

variable {cfg : Config} {away : SPartyID → Prop} {b b' b'' : Broker}

/-- The pools are kept on both parts of the way. -/
theorem KeepsPools.trans (h : KeepsPools away b b') (h' : KeepsPools away b' b'') :
    KeepsPools away b b'' where
  next := Nat.le_trans h.next h'.next
  keeps hfits hb := by
    obtain ⟨hb', hs⟩ := h.keeps (Nat.le_trans h'.next hfits) hb
    obtain ⟨hb'', hs'⟩ := h'.keeps hfits hb'
    exact ⟨hb'', hs.trans hs'⟩

/-- So the notifications on remote servers are still monitored. -/
theorem KeepsPools.inv (h : KeepsPools away b b') (hfits : b'.nextPoolID ≤ 2 ^ 32)
    (hb : MonitorInv cfg away b) : MonitorInv cfg away b' := by
  obtain ⟨htable, hs⟩ := h.keeps hfits hb.table
  exact hb.poolStep hs htable

/-- Behind the updates no active notification is on a server that went. -/
theorem MonitorInv.leave (h : MonitorInv cfg nobody b) (hkeeps : KeepsPools away b b')
    (hfits : b'.nextPoolID ≤ 2 ^ 32)
    (hnone : ∀ n ∈ b'.notifications .serverDisconnect, n.active = true → ¬ away n.partyID) :
    MonitorInv cfg nobody b' := by
  have hleft := hkeeps.inv hfits (h.mono fun _ hno => hno.elim)
  exact hleft.settle fun n hn hactive haway => absurd haway (hnone n hn hactive)

/-- Nothing happens to notifications and pools. -/
theorem PoolTable.congr (h : PoolTable b) (hn : ∀ k, b'.notifications k = b.notifications k)
    (hp : b'.mMasterNotificationPool = b.mMasterNotificationPool)
    (hnext : b'.nextPoolID = b.nextPoolID)
    (ha : b'.mPendingAttachExtendedJobs = b.mPendingAttachExtendedJobs) : PoolTable b' where
  cells := by rw [live_congr hn, hp, hnext]; exact h.cells
  refsBelow := by rw [live_congr hn, hnext]; exact h.refsBelow
  positive := by rw [hnext]; exact h.positive
  attachJobs := ha.trans h.attachJobs

/-- The servers, the notifications and the monitored pools are all that counts. -/
theorem PoolStep.of_eq (hthere : ∀ id, ServerThere b id → away id ∨ ServerThere b' id)
    (hn : b'.notifications .serverDisconnect = b.notifications .serverDisconnect)
    (hp : b'.mMasterNotificationPool.monitors = b.mMasterNotificationPool.monitors)
    (hlog : b.log <+: b'.log) : PoolStep away b b' where
  there := hthere
  notes n hn' := ⟨n, hn ▸ hn', rfl, rfl, id⟩
  kept := ⟨fun np hnp => ⟨np, hp ▸ hnp, .refl np⟩, fun np hnp _ => ⟨np, hp ▸ hnp, .refl np⟩⟩
  log := hlog

/-- Changes that the monitored pools do not depend on. -/
theorem KeepsPools.of_eq (hthere : ∀ id, ServerThere b id → away id ∨ ServerThere b' id)
    (hn : ∀ k, b'.notifications k = b.notifications k)
    (hp : b'.mMasterNotificationPool = b.mMasterNotificationPool)
    (hnext : b'.nextPoolID = b.nextPoolID)
    (ha : b'.mPendingAttachExtendedJobs = b.mPendingAttachExtendedJobs)
    (hlog : b.log <+: b'.log) : KeepsPools away b b' where
  next := Nat.le_of_eq hnext.symm
  keeps _ h := ⟨h.congr hn hp hnext ha, .of_eq hthere (hn _) (congrArg _ hp) hlog⟩

/-- A quiet change is one. -/
theorem KeepsPools.of_quiet (h : Quiet b b') : KeepsPools away b b' :=
  .of_eq (fun _ hid => .inr (by rwa [ServerThere, h.servers])) h.notifications h.pools h.nextPoolID
    h.attachJobs h.log

/-- A sweep takes notifications out of their pools. -/
theorem keepsPools_sweep (cfg : Config) (once : Bool) (k : NotificationKind)
    (act : Broker → Notification → Action) (b : Broker) :
    KeepsPools away b (b.sweep cfg once k act) := by
  refine ⟨Nat.le_of_eq (nextPoolID_sweep cfg once k act b).symm, fun _ h => ?_⟩
  have hlive := (b.live_perm k).map (·.poolID)
  have hswept := (live_sweep_perm cfg once k act b).map (·.poolID)
  rw [List.map_append] at hlive hswept
  have hcells := cells_sweepLoop cfg once act _ _ b (h.cells.perm hlive)
  have hkept := hcells.2.mono hswept.subset
  rw [← pools_sweep] at hcells hkept
  have hremains (k' : NotificationKind) (n' : Notification)
      (hn' : n' ∈ (b.sweep cfg once k act).notifications k') :
      ∃ n ∈ b.notifications k', Remains n n' := remains_of_mem_sweep cfg once k act b hn'
  refine ⟨⟨?_, ?_, ?_, ?_⟩, ⟨?_, ?_, ?_, ?_⟩⟩
  · rw [nextPoolID_sweep]
    exact hcells.1.perm hswept.symm
  · intro n' hn'
    obtain ⟨k', hk'⟩ := mem_live.mp hn'
    obtain ⟨n, hn, pulse, coid, active, rfl, _⟩ := hremains k' n' hk'
    rw [nextPoolID_sweep]
    exact h.refsBelow n (mem_live.mpr ⟨k', hn⟩)
  · rw [nextPoolID_sweep]
    exact h.positive
  · exact (attachJobs_sweep cfg once k act b).trans h.attachJobs
  · intro id hid
    right
    rwa [ServerThere, servers_sweep]
  · intro n' hn'
    obtain ⟨n, hn, pulse, coid, active, rfl, hact⟩ := hremains .serverDisconnect n' hn'
    exact ⟨n, hn, rfl, rfl, hact⟩
  · refine hkept.mono (fun p hp => ?_)
    obtain ⟨n', hn', rfl⟩ := List.mem_map.mp hp
    exact List.mem_map_of_mem (mem_live.mpr ⟨.serverDisconnect, hn'⟩)
  · exact log_sweep cfg once k act b

/-- A list is written without touching the pool IDs. -/
theorem PoolTable.setNotifications (h : PoolTable b) {k : NotificationKind}
    {l : List Notification} (hl : l.map (·.poolID) = (b.notifications k).map (·.poolID)) :
    PoolTable (b.setNotifications k l) := by
  have hids := poolIDs_setNotifications hl
  have hpools : (b.setNotifications k l).mMasterNotificationPool = b.mMasterNotificationPool := by
    cases k <;> rfl
  have hnext : (b.setNotifications k l).nextPoolID = b.nextPoolID := by cases k <;> rfl
  refine ⟨?_, ?_, ?_, ?_⟩
  · rw [hpools, hnext]
    exact h.cells.perm hids
  · intro n hn
    obtain ⟨m, hm, hid⟩ := List.mem_map.mp (hids.mem_iff.mpr (List.mem_map_of_mem hn))
    rw [hnext, ← hid]
    exact h.refsBelow m hm
  · rw [hnext]
    exact h.positive
  · cases k <;> exact h.attachJobs

/-- A new notification, without a pool. -/
theorem PoolTable.addNotification (cfg : Config) {k : NotificationKind}
    {ctx : SocketConnectionContext} {pulse : SFNDPulseInfo} {setup : Notification → Notification}
    (hs : Plain setup) (h : PoolTable b) :
    PoolTable (b.addNotification cfg k ctx pulse setup).2 := by
  obtain ⟨a, p, coid, hadd | hadd⟩ := addNotification_cases cfg k ctx pulse setup b
  · have hzero : (setup (b.fresh ctx.mNodeAddress p coid)).poolID = 0 := (hs _).2.1
    rw [hadd]
    generalize setup (b.fresh ctx.mNodeAddress p coid) = n at hzero
    have hlive := (b.created a).live_cons_perm k n
    have hids := hlive.map (·.poolID)
    rw [List.map_cons, hzero] at hids
    have hpools : ((b.created a).setNotifications k (n :: b.notifications k)
        ).mMasterNotificationPool = b.mMasterNotificationPool := by cases k <;> rfl
    have hnext : ((b.created a).setNotifications k (n :: b.notifications k)).nextPoolID =
        b.nextPoolID := by cases k <;> rfl
    refine ⟨?_, ?_, ?_, ?_⟩
    · rw [hpools, hnext]
      exact h.cells.cons_zero.perm hids.symm
    · intro m hm
      rw [hnext]
      cases List.mem_cons.mp (hlive.mem_iff.mp hm) with
      | inl he => rw [he, hzero]; exact h.positive
      | inr hold => exact h.refsBelow m hold
    · rw [hnext]
      exact h.positive
    · cases k <;> exact h.attachJobs
  · rw [hadd]
    exact h.congr (fun _ => rfl) rfl rfl rfl

/-- A new pool has the next ID. -/
theorem PoolTable.addPool (h : PoolTable b) (hfits : b.nextPoolID < 2 ^ 32) (s : DataSwitch)
    (st : EPoolState) : PoolTable (b.addPool s st) where
  cells := by
    refine h.cells.cons (UInt32.toNat_ofNat_of_lt' hfits) h.positive rfl (fun p hp => ?_)
    obtain ⟨n, hn, rfl⟩ := List.mem_map.mp hp
    exact h.refsBelow n hn
  refsBelow n hn := Nat.lt_succ_of_lt (h.refsBelow n hn)
  positive := Nat.succ_pos _
  attachJobs := h.attachJobs

/-- A notification without a pool takes one. -/
theorem PoolTable.attachPool (h : PoolTable b) {pos : Nat} {k : NotificationKind}
    {n : Notification} (hn : b.findNotification k n.notificationID = some n) (h0 : n.poolID = 0)
    {np : NotificationPoolEntry} (hpos : b.mMasterNotificationPool[pos]? = some np) :
    PoolTable (b.attachPool pos k n.notificationID) ∧
      ∀ refs, Kept refs b.mMasterNotificationPool
        (b.attachPool pos k n.notificationID).mMasterNotificationPool := by
  have hid : b.poolIDAt pos = np.poolID := by simp [poolIDAt, hpos]
  obtain ⟨refs, hbefore, hbehind⟩ := poolIDs_attachPool hn h0 pos
  rw [hid] at hbehind
  have hacquire := (h.cells.perm hbefore).acquire hpos
  have hpools : (b.attachPool pos k n.notificationID).mMasterNotificationPool =
      b.mMasterNotificationPool.modify pos
        (fun np => { np with mRefCount := np.mRefCount + 1 }) := by cases k <;> rfl
  have hnext : (b.attachPool pos k n.notificationID).nextPoolID = b.nextPoolID := by
    cases k <;> rfl
  rw [hpools]
  refine ⟨⟨?_, ?_, ?_, ?_⟩, fun refs' => (hacquire refs').2⟩
  · rw [hpools, hnext]
    exact (hacquire []).1.perm hbehind.symm
  · intro m hm
    rw [hnext]
    rcases List.mem_cons.mp (hbehind.mem_iff.mp (List.mem_map_of_mem hm)) with hnew | hold
    · rw [hnew]
      exact h.cells.below np (List.mem_of_getElem? hpos)
    · have hmem := hbefore.mem_iff.mpr (List.mem_cons_of_mem _ hold)
      obtain ⟨m', hm', hid'⟩ := List.mem_map.mp hmem
      rw [← hid']
      exact h.refsBelow m' hm'
  · rw [hnext]
    exact h.positive
  · cases k <;> exact h.attachJobs

/-- The loop of `forwardServerAvailableNotifications`: it moves references between
pools on interfaces, and creates such pools. -/
theorem cells_forwardLoop (cfg : Config) (ns : List Notification) (refs : List UInt32) {b : Broker}
    (hpos : 0 < b.nextPoolID) (hfits : (forwardLoop cfg ns b).2.2.nextPoolID ≤ 2 ^ 32)
    (h : Cells b.nextPoolID (refs ++ ns.map (·.poolID)) b.mMasterNotificationPool)
    (hrefs : ∀ p ∈ refs, p.toNat < b.nextPoolID)
    (hbelow : ∀ n ∈ ns, n.poolID.toNat < b.nextPoolID) :
    let r := forwardLoop cfg ns b
    Cells r.2.2.nextPoolID (refs ++ r.1.map (·.poolID)) r.2.2.mMasterNotificationPool ∧
      monitors r.2.2.mMasterNotificationPool = monitors b.mMasterNotificationPool ∧
      ∀ n ∈ r.1, n.poolID.toNat < r.2.2.nextPoolID := by
  induction ns generalizing refs b with
  | nil => exact ⟨h, rfl, hbelow⟩
  | cons n ns ih =>
      have htail : ∀ m ∈ ns, m.poolID.toNat < b.nextPoolID :=
        fun m hm => hbelow m (List.mem_cons_of_mem _ hm)
      -- the head is written with the pool ID `q`, the state has gone from `b` to `b'`
      have hgo (q : UInt32) (b' : Broker) (hnext : b.nextPoolID ≤ b'.nextPoolID)
          (hq : q.toNat < b'.nextPoolID)
          (hfits' : (forwardLoop cfg ns b').2.2.nextPoolID ≤ 2 ^ 32)
          (h' : Cells b'.nextPoolID (refs ++ q :: ns.map (·.poolID)) b'.mMasterNotificationPool)
          (hm : monitors b'.mMasterNotificationPool = monitors b.mMasterNotificationPool) :
          let r := forwardLoop cfg ns b'
          Cells r.2.2.nextPoolID (refs ++ q :: r.1.map (·.poolID)) r.2.2.mMasterNotificationPool ∧
            monitors r.2.2.mMasterNotificationPool = monitors b.mMasterNotificationPool ∧
            q.toNat < r.2.2.nextPoolID ∧ ∀ n ∈ r.1, n.poolID.toNat < r.2.2.nextPoolID := by
        have hrefs' : ∀ p ∈ refs ++ [q], p.toNat < b'.nextPoolID := by
          intro p hp
          cases List.mem_append.mp hp with
          | inl hp => exact Nat.lt_of_lt_of_le (hrefs p hp) hnext
          | inr hp => rw [List.mem_singleton.mp hp]; exact hq
        have hrest := ih (refs ++ [q]) (Nat.lt_of_lt_of_le hpos hnext) hfits'
          (by simpa using h') hrefs' (fun m hm => Nat.lt_of_lt_of_le (htail m hm) hnext)
        exact ⟨by simpa using hrest.1, hrest.2.1.trans hm,
          Nat.lt_of_lt_of_le hq (nextPoolID_le_forwardLoop cfg ns b'), hrest.2.2⟩
      have hzero : ∀ np ∈ monitors b.mMasterNotificationPool, 0 ≠ np.poolID :=
        fun np hnp => (h.nonzero np (mem_monitors.mp hnp).1).symm
      rw [forwardLoop] at hfits ⊢
      split
      · next helig =>
        rw [if_pos helig] at hfits
        have h0 : n.poolID = 0 := by
          simp only [forwardEligible, Bool.and_eq_true, decide_eq_true_eq] at helig
          exact helig.1.1
        rw [List.map_cons, h0] at h
        split
        · next pos hfind =>
          rw [hfind] at hfits
          obtain ⟨hlt, hfor, _⟩ := List.findIdx?_eq_some_iff_getElem.mp hfind
          have hnp := List.getElem?_eq_getElem hlt
          generalize b.mMasterNotificationPool[pos] = np at hnp hfor
          have hid : b.poolIDAt pos = np.poolID := by simp [poolIDAt, hnp]
          have hmem := List.mem_of_getElem? hnp
          have hmove := h.move hzero (fun np' hnp' => h.ne_of_other hmem
            (isMonitor_of_isFor hfor) hnp')
          rw [hid]
          have hdone := hgo np.poolID b (Nat.le_refl _) (h.below np hmem) hfits hmove rfl
          exact ⟨hdone.1, hdone.2.1, List.forall_mem_cons.mpr hdone.2.2⟩
        · next hfind =>
          rw [hfind] at hfits
          have hlt : b.nextPoolID < 2 ^ 32 := Nat.lt_of_succ_le (Nat.le_trans
            (nextPoolID_le_forwardLoop cfg ns (b.addPoolDescription n.ifDescription false)) hfits)
          have hnew : (UInt32.ofNat b.nextPoolID).toNat = b.nextPoolID :=
            UInt32.toNat_ofNat_of_lt' hlt
          have hrefs₀ : ∀ p ∈ refs ++ 0 :: ns.map (·.poolID), p.toNat < b.nextPoolID := by
            intro p hp
            rcases List.mem_append.mp hp with hp | hp
            · exact hrefs p hp
            · rcases List.mem_cons.mp hp with rfl | hp
              · exact hpos
              · obtain ⟨m, hm, rfl⟩ := List.mem_map.mp hp
                exact htail m hm
          have hcons : Cells (b.nextPoolID + 1) _
              (b.addPoolDescription n.ifDescription false).mMasterNotificationPool :=
            h.cons hnew hpos rfl hrefs₀
          have hmonitors : monitors (b.addPoolDescription n.ifDescription
              false).mMasterNotificationPool = monitors b.mMasterNotificationPool := rfl
          have hq : (b.addPoolDescription n.ifDescription false).poolIDAt 0 =
              UInt32.ofNat b.nextPoolID := rfl
          have hmove := hcons.move (q := UInt32.ofNat b.nextPoolID)
            (fun np' hnp' => hzero np' (hmonitors ▸ hnp')) (fun np' hnp' he => by
              have hbelow' := h.below np' (mem_monitors.mp (hmonitors ▸ hnp')).1
              rw [← he] at hbelow'
              omega)
          dsimp only
          rw [hq]
          have hdone := hgo (UInt32.ofNat b.nextPoolID) (b.addPoolDescription n.ifDescription false)
            (Nat.le_succ _) (by rw [hnew]; exact Nat.lt_succ_self _) hfits hmove hmonitors
          exact ⟨hdone.1, hdone.2.1, List.forall_mem_cons.mpr hdone.2.2⟩
      · next helig =>
        rw [if_neg helig] at hfits
        have hdone := hgo n.poolID b (Nat.le_refl _) (hbelow n List.mem_cons_self) hfits
          (by simpa using h) rfl
        exact ⟨hdone.1, hdone.2.1, List.forall_mem_cons.mpr hdone.2.2⟩

/-- The pools that are forwarded are not monitored for a disconnect. -/
theorem keepsPools_forward (cfg : Config) (b : Broker) :
    KeepsPools away b (b.forwardServerAvailableNotifications cfg) := by
  cases hmaster : b.isMasterConnected cfg with
  | true =>
      obtain ⟨js, hb, _⟩ := forward_eq hmaster
      have hnext := nextPoolID_le_forwardLoop cfg b.mServerConnectNotifications b
      have hloop (hfits : (forwardLoop cfg b.mServerConnectNotifications b).2.2.nextPoolID ≤ 2 ^ 32)
          (h : PoolTable b) := cells_forwardLoop cfg b.mServerConnectNotifications
        ((b.others .serverConnect).map (·.poolID)) h.positive hfits
      rw [hb]
      generalize forwardLoop cfg b.mServerConnectNotifications b = r at hnext hloop
      refine ⟨hnext, fun hfits h => ?_⟩
      have hlive := b.live_perm .serverConnect
      have hids := hlive.map (·.poolID)
      rw [List.map_append] at hids
      obtain ⟨hcells, hmonitors, hbelow⟩ := hloop hfits h (h.cells.perm hids)
        (fun p hp => by
          obtain ⟨n, hn, rfl⟩ := List.mem_map.mp hp
          exact h.refsBelow n (hlive.mem_iff.mpr (List.mem_append_left _ hn)))
        (fun n hn => h.refsBelow n (hlive.mem_iff.mpr (List.mem_append_right _ hn)))
      have hlive' (q : List Job) (o : List Output) : ({ b with
          mServerConnectNotifications := r.1
          mMasterNotificationPool := r.2.2.mMasterNotificationPool
          nextPoolID := r.2.2.nextPoolID, mQueue := q, log := o } : Broker).live.Perm
            (b.others .serverConnect ++ r.1) :=
        live_perm _ .serverConnect
      refine ⟨⟨?_, fun n hn => ?_, ?_, h.attachJobs⟩,
        .of_eq (fun _ hid => .inr hid) rfl hmonitors (List.prefix_append _ _)⟩
      · have hids' := (hlive' (b.mQueue ++ js) (b.log ++ js.map .job)).map (·.poolID)
        rw [List.map_append] at hids'
        exact hcells.perm hids'.symm
      · rcases List.mem_append.mp ((hlive' _ _).mem_iff.mp hn) with hold | hnew
        · exact Nat.lt_of_lt_of_le
            (h.refsBelow n (hlive.mem_iff.mpr (List.mem_append_left _ hold))) hnext
        · exact hbelow n hnew
      · exact Nat.lt_of_lt_of_le h.positive hnext
  | false =>
      rw [forwardServerAvailableNotifications, hmaster]
      exact .of_quiet (.refl b)

/-- Every element keeps the pools, and so do all of them. -/
theorem keepsPools_foldl {α : Type} {f : Broker → α → Broker} {l : List α}
    (hf : ∀ x ∈ l, ∀ b, KeepsPools away b (f b x)) (b : Broker) :
    KeepsPools away b (l.foldl f b) := by
  induction l generalizing b with
  | nil => exact .of_quiet (.refl b)
  | cons x xs ih =>
      have hrest (x' : α) (hx' : x' ∈ xs) := hf x' (List.mem_cons_of_mem _ hx')
      exact (hf x List.mem_cons_self b).trans (ih hrest (f b x))

/-- A server leaves the table. -/
theorem keepsPools_dropServer {serverID : SPartyID} (haway : away serverID) (b : Broker) :
    KeepsPools away b (b.dropServer serverID) := by
  refine .of_eq (fun id hid => ?_) (fun _ => rfl) rfl rfl rfl List.prefix_rfl
  by_cases hsame : id = serverID
  · exact Or.inl (hsame ▸ haway)
  · obtain ⟨e, he, rfl⟩ := hid
    exact Or.inr ⟨e, (List.mem_eraseP_of_neg (by simpa using hsame)).mpr he, rfl⟩

/-- The updates of other tables keep the pools, unless a server goes. -/
theorem Prim.keepsPools {l : Label} (hp : Prim cfg l b b') (hcreate : l ≠ .create .serverDisconnect)
    (hattach : l ≠ .attach) (hadd : l ≠ .addPool) (hremove : l ≠ .removeServer) :
    KeepsPools away b b' := by
  have hthere (id : SPartyID) (hid : ServerThere b id) : away id ∨ ServerThere b' id :=
    .inr ((Prims.single (L := [l]) (by simp) hp).serverThere (by simpa using hremove.symm) hid)
  have hlog := hp.log
  cases hp with
  | quiet hq => exact .of_quiet hq
  | addEntry _ c e next =>
      have hentry : KeepsPools away b ({ b with
          mConnectedServers := b.mConnectedServers.add e, mNextServerID := next }.modifyData c
            (·.addServer e.partyID)) := by
        refine .of_eq (fun id hid => .inr ?_) (fun _ => rfl) rfl rfl rfl List.prefix_rfl
        obtain ⟨e', he', rfl⟩ := hid
        exact ⟨e', ServerList.mem_add.mpr (Or.inr he'), rfl⟩
      exact (hentry.trans (keepsPools_sweep cfg false .serverConnect _ _)).trans
        (keepsPools_sweep cfg false .serverListChange _ _)
  | removeServer => exact absurd rfl hremove
  | registerMaster =>
      obtain ⟨hn, _, _, hpools, ha, _⟩ := registerInterfacesMaster_frame cfg b
      have hnext : (b.registerInterfacesMaster cfg).nextPoolID = b.nextPoolID := by
        rw [registerInterfacesMaster_eq]
        split <;> rfl
      exact .of_eq hthere hn hpools hnext ha hlog
  | setMasterID => exact .of_eq hthere (fun _ => rfl) rfl rfl rfl hlog
  | clients => exact .of_eq hthere (fun _ => rfl) rfl rfl rfl hlog
  | create _ k ctx pulse hs =>
      obtain ⟨hpools, hnext⟩ := pools_addNotification cfg k ctx pulse _ b
      refine ⟨Nat.le_of_eq hnext.symm, fun _ h => ⟨h.addNotification cfg hs, ?_⟩⟩
      refine .of_eq hthere ?_ (congrArg _ hpools) hlog
      obtain ⟨a, p, coid, h | h⟩ := addNotification_cases cfg k ctx pulse _ b
      · rw [h, notifications_setNotifications, if_neg (fun he => hcreate (by rw [he]))]
        rfl
      · rw [h]
        rfl
  | skip => exact .of_eq hthere (fun _ => rfl) rfl rfl rfl hlog
  | sweep _ once _ => exact keepsPools_sweep cfg once _ _ b
  | addPool => exact absurd rfl hadd
  | attach => exact absurd rfl hattach
  | modifyPool _ pos hf =>
      refine ⟨Nat.le_refl _, fun _ h => ?_⟩
      obtain ⟨hcells, hkept⟩ := h.cells.modify pos fun np =>
        ⟨⟨(hf np).1, (hf np).2.2.1, Bool.eq_iff_iff.mpr (by simpa [isMonitor] using (hf np).2.2.2)⟩,
          (hf np).2.1⟩
      refine ⟨⟨hcells, h.refsBelow, h.positive, h.attachJobs⟩,
        hthere, fun n hn => ⟨n, hn, rfl, rfl, id⟩, hkept.mono fun p hp => ?_, hlog⟩
      obtain ⟨n, hn, rfl⟩ := List.mem_map.mp hp
      exact List.mem_map_of_mem (mem_live.mpr ⟨.serverDisconnect, hn⟩)
  | storeMaster _ k id masterID =>
      refine ⟨by cases k <;> exact Nat.le_refl _, fun _ h => ⟨h.setNotifications
        (map_modifyFirst (by intro; rfl) _), hthere, fun n' hn' => ?_, ?_, hlog⟩⟩
      · rw [modifyNotification, notifications_setNotifications] at hn'
        split at hn'
        · next hk =>
          subst hk
          rcases mem_modifyFirst hn' with hold | ⟨n, hn, _, rfl⟩
          · exact ⟨n', hold, rfl, rfl, fun ha => ha⟩
          · exact ⟨n, hn, rfl, rfl, fun ha => ha⟩
        · exact ⟨n', hn', rfl, rfl, fun ha => ha⟩
      · cases k <;> exact .refl _ _
  | forward => exact keepsPools_forward cfg b

/-- Updates that make no disconnect notification and no pool, and remove no server. -/
theorem Prims.keepsPools {L : List Label} (hp : Prims cfg L b b')
    (hcreate : .create .serverDisconnect ∉ L) (hattach : .attach ∉ L) (hadd : .addPool ∉ L)
    (hremove : .removeServer ∉ L) : KeepsPools away b b' := by
  refine hp.preserves (I := KeepsPools away b) ?_ (.of_quiet (.refl b))
  intro l hl b₁ b₂ hprim hb
  have hne {l' : Label} (hnot : l' ∉ L) : l ≠ l' := fun he => hnot (he ▸ hl)
  exact hb.trans (hprim.keepsPools (hne hcreate) (hne hattach) (hne hadd) (hne hremove))

/-- Pool IDs are never taken back. -/
theorem Prim.nextPoolID_le {l : Label} (hp : Prim cfg l b b') : b.nextPoolID ≤ b'.nextPoolID := by
  have hother (h₁ : l ≠ .create .serverDisconnect) (h₂ : l ≠ .attach) (h₃ : l ≠ .addPool)
      (h₄ : l ≠ .removeServer) : KeepsPools nobody b b' := hp.keepsPools h₁ h₂ h₃ h₄
  cases hp with
  | create _ k ctx pulse hs => exact Nat.le_of_eq (pools_addNotification cfg k ctx pulse _ b).2.symm
  | attach _ pos k => cases k <;> exact Nat.le_refl _
  | addPool => exact Nat.le_succ _
  | skip => exact Nat.le_refl _
  | removeServer => exact Nat.le_refl _
  | _ => exact (hother (by simp) (by simp) (by simp) (by simp)).next

/-- The counter of the pools never runs backwards. -/
theorem Prims.nextPoolID_le {L : List Label} (hp : Prims cfg L b b') :
    b.nextPoolID ≤ b'.nextPoolID :=
  hp.preserves (I := fun b' => b.nextPoolID ≤ b'.nextPoolID)
    (fun _ _ _ _ hprim hle => Nat.le_trans hle hprim.nextPoolID_le) (Nat.le_refl _)

end Updates

end Broker

end Dsi
