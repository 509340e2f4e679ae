import Dsi.Broker.Effects
import Mathlib.Data.List.Nodup

/-!
# Dsi.Broker.Live

The live notifications of a broker: those of its four lists together.  An update
of one list is, up to the order, an update of the end of them all.
-/

namespace Dsi

open Sequence

namespace Broker

/-- The four kinds. -/
def kinds : List NotificationKind :=
  [.serverConnect, .serverDisconnect, .clientDetach, .serverListChange]

/-- The live notifications. -/
def live (b : Broker) : List Notification := kinds.flatMap b.notifications

/-- The live notifications outside one list. -/
def others (b : Broker) (k : NotificationKind) : List Notification :=
  (kinds.filter (· ≠ k)).flatMap b.notifications

/-- A live notification is in one of the lists. -/
theorem mem_live {b : Broker} {n : Notification} : n ∈ b.live ↔ ∃ k, n ∈ b.notifications k := by
  rw [live, List.mem_flatMap]
  constructor
  · rintro ⟨k, _, hn⟩
    exact ⟨k, hn⟩
  · rintro ⟨k, hn⟩
    exact ⟨k, by cases k <;> simp [kinds], hn⟩

/-- The live notifications are those of one list and those of the other ones. -/
theorem live_perm (b : Broker) (k : NotificationKind) :
    b.live.Perm (b.others k ++ b.notifications k) := by
  have hsplit (l l' l'' : List Notification) : (l ++ (l' ++ l'')).Perm (l ++ l'' ++ l') := by
    rw [List.append_assoc]
    exact List.perm_append_comm.append_left l
  cases k with
  | serverConnect =>
      have h := hsplit [] (b.notifications .serverConnect) (b.notifications .serverDisconnect ++
        (b.notifications .clientDetach ++ b.notifications .serverListChange))
      simpa [live, others, kinds] using h
  | serverDisconnect =>
      have h := hsplit (b.notifications .serverConnect) (b.notifications .serverDisconnect)
        (b.notifications .clientDetach ++ b.notifications .serverListChange)
      simpa [live, others, kinds] using h
  | clientDetach =>
      have h := hsplit (b.notifications .serverConnect ++ b.notifications .serverDisconnect)
        (b.notifications .clientDetach) (b.notifications .serverListChange)
      simpa [live, others, kinds] using h
  | serverListChange => simp [live, others, kinds]

/-- A list that is set is none of the other ones. -/
theorem others_setNotifications (b : Broker) (k : NotificationKind) (l : List Notification) :
    (b.setNotifications k l).others k = b.others k := by
  cases k <;> rfl

/-- Behind it its notifications are the live ones of the list. -/
theorem live_setNotifications_perm (b : Broker) (k : NotificationKind) (l : List Notification) :
    (b.setNotifications k l).live.Perm (b.others k ++ l) := by
  have h := (b.setNotifications k l).live_perm k
  rwa [others_setNotifications, notifications_setNotifications, if_pos rfl] at h

/-- A notification is put in front of a list. -/
theorem live_cons_perm (b : Broker) (k : NotificationKind) (n : Notification) :
    (b.setNotifications k (n :: b.notifications k)).live.Perm (n :: b.live) := by
  refine (live_setNotifications_perm b k _).trans ?_
  exact List.perm_middle.trans ((b.live_perm k).symm.cons n)

/-- A list is written, and the pool IDs stay. -/
theorem poolIDs_setNotifications {b : Broker} {k : NotificationKind} {l : List Notification}
    (hl : l.map (·.poolID) = (b.notifications k).map (·.poolID)) :
    (b.live.map (·.poolID)).Perm ((b.setNotifications k l).live.map (·.poolID)) := by
  have hperm := (live_setNotifications_perm b k l).map (·.poolID)
  have hlive := (b.live_perm k).map (·.poolID)
  rw [List.map_append] at hperm hlive
  rw [hl] at hperm
  exact hlive.trans hperm.symm

/-- A notification without a pool gets the ID of one. -/
theorem poolIDs_attachPool {b : Broker} {k : NotificationKind} {n : Notification}
    (hn : b.findNotification k n.notificationID = some n) (h0 : n.poolID = 0) (pos : Nat) :
    ∃ refs, (b.live.map (·.poolID)).Perm (0 :: refs) ∧
      ((b.attachPool pos k n.notificationID).live.map (·.poolID)).Perm
        (b.poolIDAt pos :: refs) := by
  obtain ⟨front, back, hlist, hmod⟩ := modifyFirst_of_find? hn
  have hbefore := (b.live_perm k).map (·.poolID)
  have hbehind := (live_setNotifications_perm b k
    (front ++ { n with poolID := b.poolIDAt pos } :: back)).map (·.poolID)
  rw [hlist] at hbefore
  simp only [List.map_append, List.map_cons, h0, ← List.append_assoc] at hbefore hbehind
  refine ⟨_, hbefore.trans List.perm_middle, ?_⟩
  unfold attachPool
  rw [hmod]
  exact hbehind.trans List.perm_middle

/-- The lists are all that counts. -/
theorem live_congr {b b' : Broker} (h : ∀ k, b'.notifications k = b.notifications k) :
    b'.live = b.live := by
  rw [live, live, funext h]

theorem others_congr {b b' : Broker} (h : ∀ k, b'.notifications k = b.notifications k)
    (k : NotificationKind) : b'.others k = b.others k := by
  rw [others, others, funext h]

theorem live_sweep_perm (cfg : Config) (once : Bool) (k : NotificationKind)
    (act : Broker → Notification → Action) (b : Broker) :
    (b.sweep cfg once k act).live.Perm
      (b.others k ++ (sweepLoop cfg once act (b.notifications k) b).1) := by
  have h := live_setNotifications_perm (sweepLoop cfg once act (b.notifications k) b).2 k
    (sweepLoop cfg once act (b.notifications k) b).1
  rwa [others_congr (frame_sweepLoop cfg once act _ b).notifications] at h

/-! ## What stays in a list -/

/-- `n'` is `n` up to the pulse channel and what the master knows of it, and no
more active. -/
def Descends (n n' : Notification) : Prop :=
  ∃ pulse coid active poolID masterNotificationID,
    n' = { n with pulse := pulse, coid := coid, active := active, poolID := poolID,
                  masterNotificationID := masterNotificationID } ∧
      (active = true → n.active = true)

theorem Descends.refl (n : Notification) : Descends n n :=
  ⟨n.pulse, n.coid, n.active, n.poolID, n.masterNotificationID, rfl, id⟩

theorem Descends.trans {n n' n'' : Notification} (h : Descends n n') (h' : Descends n' n'') :
    Descends n n'' := by
  obtain ⟨_, _, active, _, _, rfl, hactive⟩ := h
  obtain ⟨pulse, coid, active', poolID, masterID, rfl, hactive'⟩ := h'
  exact ⟨pulse, coid, active', poolID, masterID, rfl, fun ha => hactive (hactive' ha)⟩

theorem Descends.notificationID {n n' : Notification} (h : Descends n n') :
    n'.notificationID = n.notificationID := by
  obtain ⟨_, _, _, _, _, rfl, _⟩ := h
  rfl

theorem Descends.partyID {n n' : Notification} (h : Descends n n') : n'.partyID = n.partyID := by
  obtain ⟨_, _, _, _, _, rfl, _⟩ := h
  rfl

theorem Descends.active {n n' : Notification} (h : Descends n n') (hn' : n'.active = true) :
    n.active = true := by
  obtain ⟨_, _, _, _, _, rfl, hactive⟩ := h
  exact hactive hn'

theorem Remains.descends {n n' : Notification} (h : Remains n n') : Descends n n' := by
  obtain ⟨pulse, coid, active, rfl, hactive⟩ := h
  exact ⟨pulse, coid, active, n.poolID, n.masterNotificationID, rfl, hactive⟩

/-- Every notification of the list descends from one that was there before. -/
def Inherits (k : NotificationKind) (b b' : Broker) : Prop :=
  ∀ n' ∈ b'.notifications k, ∃ n ∈ b.notifications k, Descends n n'

theorem inherits_of_eq {k : NotificationKind} {b b' : Broker}
    (h : b'.notifications k = b.notifications k) : Inherits k b b' :=
  fun n' hn' => ⟨n', h ▸ hn', .refl n'⟩

theorem Inherits.trans {k : NotificationKind} {b b' b'' : Broker} (h : Inherits k b b')
    (h' : Inherits k b' b'') : Inherits k b b'' := by
  intro n'' hn''
  obtain ⟨n', hn', hd'⟩ := h' n'' hn''
  obtain ⟨n, hn, hd⟩ := h n' hn'
  exact ⟨n, hn, hd.trans hd'⟩

theorem inherits_sweep (cfg : Config) (once : Bool) (k k' : NotificationKind)
    (act : Broker → Notification → Action) (b : Broker) :
    Inherits k' b (b.sweep cfg once k act) := by
  intro n' hn'
  obtain ⟨n, hn, hr⟩ := remains_of_mem_sweep cfg once k act b hn'
  exact ⟨n, hn, hr.descends⟩

theorem inherits_modifyFirst {k k' : NotificationKind} {p : Notification → Bool}
    {f : Notification → Notification} (hf : ∀ n, Descends n (f n)) (b : Broker) :
    Inherits k' b (b.setNotifications k (modifyFirst p f (b.notifications k))) := by
  intro n' hn'
  rw [notifications_setNotifications] at hn'
  split at hn'
  · next hk =>
    rw [hk]
    cases mem_modifyFirst hn' with
    | inl hn' => exact ⟨n', hn', .refl n'⟩
    | inr hn' =>
        obtain ⟨n, hn, _, rfl⟩ := hn'
        exact ⟨n, hn, hf n⟩
  · exact ⟨n', hn', .refl n'⟩

theorem inherits_addEntry (cfg : Config) (c : Nat) (e : ServerListEntry) (k : NotificationKind)
    (b : Broker) : Inherits k b (b.addEntry cfg c e) := by
  have h1 : Inherits k b ({ b with mConnectedServers := b.mConnectedServers.add e }.modifyData c
      (·.addServer e.partyID)) := inherits_of_eq rfl
  exact (h1.trans (inherits_sweep cfg false .serverConnect k _ _)).trans
    (inherits_sweep cfg false .serverListChange k _ _)

theorem Repooled.inherits {b : Broker} {l : List Notification}
    (h : Repooled b.mServerConnectNotifications l) :
    ∀ n' ∈ l, ∃ n ∈ b.mServerConnectNotifications, Descends n n' := by
  generalize b.mServerConnectNotifications = ns at h ⊢
  induction h with
  | nil => exact fun _ hn' => absurd hn' List.not_mem_nil
  | cons hn _ ih =>
      intro n' hn'
      cases List.mem_cons.mp hn' with
      | inl he =>
          obtain ⟨p, rfl⟩ := hn
          exact ⟨_, List.mem_cons_self, he ▸ ⟨_, _, _, p, _, rfl, id⟩⟩
      | inr hn' =>
          obtain ⟨m, hm, hd⟩ := ih n' hn'
          exact ⟨m, List.mem_cons_of_mem _ hm, hd⟩

/-- Only the creation of a notification of its kind brings something new. -/
theorem Prim.inherits {cfg : Config} {l : Label} {b b' : Broker} (hp : Prim cfg l b b')
    {k : NotificationKind} (hl : l ≠ .create k) : Inherits k b b' := by
  cases hp with
  | quiet hq => exact inherits_of_eq (hq.notifications k)
  | addEntry _ c e next => exact inherits_addEntry cfg c e k _
  | removeServer => exact inherits_of_eq rfl
  | registerMaster => exact inherits_of_eq ((registerInterfacesMaster_frame cfg b).1 k)
  | setMasterID => exact inherits_of_eq rfl
  | clients => exact inherits_of_eq rfl
  | create _ k' ctx pulse hs =>
      have hne : k ≠ k' := fun he => hl (he ▸ rfl)
      obtain ⟨a, p, coid, hadd | hadd⟩ := addNotification_cases cfg k' ctx pulse _ b
      · rw [hadd]
        refine inherits_of_eq ?_
        rw [notifications_setNotifications, if_neg hne]
        rfl
      · rw [hadd]
        exact inherits_of_eq rfl
  | skip => exact inherits_of_eq rfl
  | sweep _ once _ => exact inherits_sweep cfg once _ k _ b
  | addPool => exact inherits_of_eq rfl
  | attach _ pos k' =>
      exact inherits_modifyFirst (fun n => ⟨_, _, _, b.poolIDAt pos, _, rfl, id⟩) b
  | modifyPool => exact inherits_of_eq rfl
  | storeMaster _ k' id masterID =>
      exact inherits_modifyFirst (fun n => ⟨_, _, _, _, masterID, rfl, fun h => h⟩) b
  | forward =>
      obtain ⟨l, pools, next, js, hb, hrepooled, _⟩ := forward_cases cfg b
      rw [hb]
      cases k with
      | serverConnect => exact hrepooled.inherits
      | serverDisconnect => exact inherits_of_eq rfl
      | clientDetach => exact inherits_of_eq rfl
      | serverListChange => exact inherits_of_eq rfl

end Broker

end Dsi
