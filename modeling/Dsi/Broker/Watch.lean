import Dsi.Broker.Once
import Dsi.Broker.Servers
import Dsi.Lib.Run

/-!
# Dsi.Broker.Watch

Notifications that watch something going away, on a broker without a master: a
notification of some kind on a party waits while the party is there, and is sent
in the step in which it goes (`SentWhenGone`).  What the updates of the broker do to
such notifications is said once for every kind and every notion of being there;
the disconnect and the detach notifications are its two instances.
-/

namespace Dsi

open Sequence

namespace Broker

/-! ## What a notification goes through -/

/-- The notification is still in its list, as active as before. -/
def Persists (k : NotificationKind) (b b' : Broker) : Prop :=
  ∀ n ∈ b.notifications k, ∃ n' ∈ b'.notifications k, Descends n n' ∧ n'.active = n.active

/-- The list is all that counts. -/
theorem persists_of_eq {k : NotificationKind} {b b' : Broker}
    (h : b'.notifications k = b.notifications k) : Persists k b b' :=
  fun n hn => ⟨n, h ▸ hn, .refl n, rfl⟩

/-- What persists on both parts of the way. -/
theorem Persists.trans {k : NotificationKind} {b b' b'' : Broker} (h : Persists k b b')
    (h' : Persists k b' b'') : Persists k b b'' := by
  intro n hn
  obtain ⟨n', hn', hd, ha⟩ := h n hn
  obtain ⟨n'', hn'', hd', ha'⟩ := h' n' hn'
  exact ⟨n'', hn'', hd.trans hd', ha'.trans ha⟩

/-- A change that keeps a notification active lets it persist. -/
theorem persists_modifyFirst {k k' : NotificationKind} {p : Notification → Bool}
    {f : Notification → Notification} (hf : ∀ n, Descends n (f n) ∧ (f n).active = n.active)
    (b : Broker) : Persists k' b (b.setNotifications k (modifyFirst p f (b.notifications k))) := by
  have hmem (l : List Notification) (n : Notification) (hn : n ∈ l) :
      ∃ n' ∈ modifyFirst p f l, Descends n n' ∧ n'.active = n.active := by
    induction l with
    | nil => exact absurd hn List.not_mem_nil
    | cons x xs ih =>
        rw [modifyFirst]
        split
        · cases List.mem_cons.mp hn with
          | inl he => exact ⟨f x, List.mem_cons_self, he ▸ hf x⟩
          | inr hn => exact ⟨n, List.mem_cons_of_mem _ hn, .refl n, rfl⟩
        · cases List.mem_cons.mp hn with
          | inl he => exact ⟨n, he ▸ List.mem_cons_self, .refl n, rfl⟩
          | inr hn =>
              obtain ⟨n', hn', hd⟩ := ih hn
              exact ⟨n', List.mem_cons_of_mem _ hn', hd⟩
  intro n hn
  rw [notifications_setNotifications]
  split
  · next hk => exact hmem _ n (hk ▸ hn)
  · exact ⟨n, hn, .refl n, rfl⟩

/-- A sweep of another list lets it persist. -/
theorem persists_sweep_of_ne (cfg : Config) (once : Bool) {k k' : NotificationKind} (h : k ≠ k')
    (act : Broker → Notification → Action) (b : Broker) :
    Persists k b (b.sweep cfg once k' act) :=
  persists_of_eq (notifications_sweep_of_ne cfg once k' act b h)

/-- Only a loop over its list can take a notification away. -/
theorem Prim.persists {cfg : Config} {l : Label} {b b' : Broker} (hp : Prim cfg l b b')
    {k : NotificationKind} (hl : l ≠ .sweep k)
    (hk : k = .serverDisconnect ∨ k = .clientDetach) : Persists k b b' := by
  cases hp with
  | quiet hq => exact persists_of_eq (hq.notifications k)
  | addEntry _ c e next =>
      have h1 : Persists k b ({ b with
          mConnectedServers := b.mConnectedServers.add e, mNextServerID := next }.modifyData c
            (·.addServer e.partyID)) := persists_of_eq rfl
      have hne : k ≠ .serverConnect ∧ k ≠ .serverListChange := by
        cases hk with
        | inl hk => rw [hk]; decide
        | inr hk => rw [hk]; decide
      exact (h1.trans (persists_sweep_of_ne cfg false hne.1 _ _)).trans
        (persists_sweep_of_ne cfg false hne.2 _ _)
  | removeServer => exact persists_of_eq rfl
  | registerMaster => exact persists_of_eq ((registerInterfacesMaster_frame cfg b).1 k)
  | setMasterID => exact persists_of_eq rfl
  | clients => exact persists_of_eq rfl
  | create _ k' ctx pulse hs =>
      obtain ⟨a, p, coid, hadd | hadd⟩ := addNotification_cases cfg k' ctx pulse _ b
      · rw [hadd]
        intro n hn
        refine ⟨n, ?_, .refl n, rfl⟩
        rw [notifications_setNotifications]
        split
        · next he => exact List.mem_cons_of_mem _ (he ▸ hn)
        · exact hn
      · rw [hadd]
        exact persists_of_eq rfl
  | skip => exact persists_of_eq rfl
  | sweep _ once _ => exact persists_sweep_of_ne cfg once (fun he => hl (by rw [he])) _ b
  | addPool => exact persists_of_eq rfl
  | attach _ pos k' =>
      exact persists_modifyFirst (fun n => ⟨⟨_, _, _, b.poolIDAt pos, _, rfl, id⟩, rfl⟩) b
  | modifyPool => exact persists_of_eq rfl
  | storeMaster _ k' id masterID =>
      exact persists_modifyFirst (fun n => ⟨⟨_, _, _, _, masterID, rfl, fun h => h⟩, rfl⟩) b
  | forward =>
      obtain ⟨l, pools, next, js, hb, _⟩ := forward_cases cfg b
      rw [hb]
      cases hk with
      | inl hk => rw [hk]; exact persists_of_eq rfl
      | inr hk => rw [hk]; exact persists_of_eq rfl

/-- Only a sweep of its list can end a notification. -/
theorem Prims.persists {cfg : Config} {L : List Label} {b b' : Broker} (hp : Prims cfg L b b')
    {k : NotificationKind} (hL : .sweep k ∉ L) (hk : k = .serverDisconnect ∨ k = .clientDetach) :
    Persists k b b' := by
  refine hp.preserves (I := Persists k b) ?_ (persists_of_eq rfl)
  intro l hl b₁ b₂ hprim hb
  exact hb.trans (hprim.persists (fun he => hL (he ▸ hl)) hk)

/-- Only an update that makes one brings a notification. -/
theorem Prims.inherits {cfg : Config} {L : List Label} {b b' : Broker} (hp : Prims cfg L b b')
    {k : NotificationKind} (hL : .create k ∉ L) : Inherits k b b' := by
  refine hp.preserves (I := Inherits k b) ?_ (inherits_of_eq rfl)
  intro l hl b₁ b₂ hprim hb
  exact hb.trans (hprim.inherits (fun he => hL (he ▸ hl)))

/-! ## The log -/

/-- What was sent stays sent. -/
theorem sentIDs_prefix_of_log {b b' : Broker} (h : b.log <+: b'.log) :
    b.sentIDs <+: b'.sentIDs := by
  obtain ⟨l, hl⟩ := h
  exact ⟨l.filterMap Output.sentID?, by rw [sentIDs, sentIDs, ← hl, List.filterMap_append]⟩

/-- A sweep only adds to what was sent. -/
theorem sentIDs_prefix_sweep (cfg : Config) (once : Bool) (k : NotificationKind)
    (act : Broker → Notification → Action) (b : Broker) :
    b.sentIDs <+: (b.sweep cfg once k act).sentIDs :=
  sentIDs_prefix_of_log (log_sweep cfg once k act b)

/-- What happened stays in the history. -/
theorem Prim.log {cfg : Config} {l : Label} {b b' : Broker} (hp : Prim cfg l b b') :
    b.log <+: b'.log := by
  cases hp with
  | quiet hq => exact hq.log
  | addEntry _ c e next =>
      have h1 := log_sweep cfg false .serverConnect
        (triggerAction cfg e.ifDescription e.grpid) ({ b with
          mConnectedServers := b.mConnectedServers.add e, mNextServerID := next }.modifyData c
            (·.addServer e.partyID))
      exact h1.trans (log_sweep cfg false .serverListChange _ _)
  | removeServer => exact List.prefix_rfl
  | registerMaster =>
      rw [registerInterfacesMaster_eq]
      split
      · exact List.prefix_append _ _
      · exact List.prefix_rfl
  | setMasterID => exact List.prefix_rfl
  | clients => exact List.prefix_rfl
  | create _ k ctx pulse hs =>
      obtain ⟨a, p, coid, hadd | hadd⟩ := addNotification_cases cfg k ctx pulse _ b
      · rw [hadd]
        cases k <;> exact List.prefix_rfl
      · rw [hadd]
        exact List.prefix_rfl
  | skip => exact List.prefix_rfl
  | sweep _ once _ => exact log_sweep cfg once _ _ b
  | addPool => exact List.prefix_rfl
  | attach _ _ k => cases k <;> exact List.prefix_rfl
  | modifyPool => exact List.prefix_rfl
  | storeMaster _ k => cases k <;> exact List.prefix_rfl
  | forward =>
      obtain ⟨l, pools, next, js, hb, _⟩ := forward_cases cfg b
      rw [hb]
      exact List.prefix_append _ _

/-- Updates only add to what was seen outside. -/
theorem Prims.log {cfg : Config} {L : List Label} {b b' : Broker} (hp : Prims cfg L b b') :
    b.log <+: b'.log :=
  hp.preserves (I := fun b' => b.log <+: b'.log)
    (fun _ _ _ _ hprim hb => hb.trans hprim.log) List.prefix_rfl

/-- What was sent stays sent. -/
theorem Prims.sentIDs_prefix {cfg : Config} {L : List Label} {b b' : Broker}
    (hp : Prims cfg L b b') : b.sentIDs <+: b'.sentIDs :=
  sentIDs_prefix_of_log hp.log

/-! ## One sending per notification -/

/-- The IDs of a kind are sent or live once, as long as they fit. -/
structure KindOnce (k : NotificationKind) (b : Broker) : Prop where
  bound : IdBound b
  once : b.sNextNotificationID < 2 ^ 32 → ∀ id ∈ ids (b.notifications k), Once b id

/-- No update sends a notification of the kind twice. -/
theorem KindOnce.prim {cfg : Config} {l : Label} {b b' : Broker} {k : NotificationKind}
    (hk : k ≠ .serverListChange) (h : KindOnce k b) (hp : Prim cfg l b b') : KindOnce k b' where
  bound := h.bound.prim hp
  once hfits id hid := by
    by_cases hcreate : ∃ k', l = .create k'
    · obtain ⟨k', rfl⟩ := hcreate
      have hc := hp.creates
      have hnext := hc.next
      cases hc.mem_ids k hid with
      | inl hold =>
          have hle := h.bound id (Or.inr (mem_ids_live.mpr ⟨k, hold⟩))
          exact (h.once (by omega) id hold).creates hc hle (by omega)
      | inr hnew =>
          -- the new ID is above everything that was sent or is live
          have htoNat : id.toNat = b.sNextNotificationID + 1 := by
            rw [hnew.2, UInt32.toNat_ofNat', Nat.mod_eq_of_lt (by omega)]
          have hzero : b.tally id = 0 := h.bound.tally_eq_zero (by omega)
          constructor
          case notList =>
            intro hlist
            cases hc.mem_ids .serverListChange hlist with
            | inl hold =>
                have hle := h.bound id (Or.inr (mem_ids_live.mpr ⟨.serverListChange, hold⟩))
                omega
            | inr hnew' => exact hk (hnew.1.trans hnew'.1.symm)
          case tally_le =>
            cases hc.tally_cases id with
            | inl hsame => omega
            | inr htally => omega
    · have hs := hp.settles (fun k' hk' => hcreate ⟨k', hk'⟩)
      exact (h.once (hs.next ▸ hfits) id ((hs.ids_sublist k).subset hid)).settles hs

/-- Nor does any sequence. -/
theorem KindOnce.prims {cfg : Config} {L : List Label} {b b' : Broker} {k : NotificationKind}
    (hk : k ≠ .serverListChange) (h : KindOnce k b) (hp : Prims cfg L b b') : KindOnce k b' :=
  hp.preserves (fun _ _ _ _ hprim hb => KindOnce.prim hk hb hprim) h

/-- The counter never runs backwards. -/
theorem next_le_of_prims {cfg : Config} {L : List Label} {b b' : Broker} (hp : Prims cfg L b b') :
    b.sNextNotificationID ≤ b'.sNextNotificationID :=
  hp.preserves (I := fun b' => b.sNextNotificationID ≤ b'.sNextNotificationID)
    (fun _ _ _ _ hprim hb => Nat.le_trans hb (next_le_of_prim hprim)) (Nat.le_refl _)

/-- An ID that was given out keeps its one sending for ever. -/
theorem Once.prims {cfg : Config} {L : List Label} {b b' : Broker} {id : UInt32} (h : Once b id)
    (hp : Prims cfg L b b') (hid : id.toNat ≤ b.sNextNotificationID)
    (hfits : b'.sNextNotificationID < 2 ^ 32) : Once b' id := by
  induction hp with
  | refl => exact h
  | tail hs _ hprim ih =>
      have hmono := next_le_of_prim hprim
      have hmono' := next_le_of_prims hs
      exact (ih (by omega)).prim hprim (by omega) hfits

/-- A live ID has not been sent. -/
theorem Once.not_sent {b : Broker} {id : UInt32} (h : Once b id) (hlive : id ∈ ids b.live) :
    b.sentIDs.count id = 0 := by
  have htally := h.tally_le
  have hpos := List.count_pos_iff.mpr hlive
  unfold tally at htally
  omega

/-- A sent ID was sent once and is not live. -/
theorem Once.sent_once {b : Broker} {id : UInt32} (h : Once b id) (hsent : id ∈ b.sentIDs) :
    b.sentIDs.count id = 1 ∧ id ∉ ids b.live := by
  have htally := h.tally_le
  have hpos := List.count_pos_iff.mpr hsent
  unfold tally at htally
  refine ⟨by omega, fun hlive => ?_⟩
  have hpos' := List.count_pos_iff.mpr hlive
  omega

/-- The ID was given out and sent, once and for ever. -/
structure SentOnce (b : Broker) (id : UInt32) : Prop where
  once : Once b id
  bound : id.toNat ≤ b.sNextNotificationID
  sent : id ∈ b.sentIDs

/-- What was sent is not sent again, as long as the counter does not wrap. -/
theorem SentOnce.prims {cfg : Config} {L : List Label} {b b' : Broker} {id : UInt32}
    (h : SentOnce b id) (hp : Prims cfg L b b') (hfits : b'.sNextNotificationID < 2 ^ 32) :
    SentOnce b' id where
  once := h.once.prims hp h.bound hfits
  bound := Nat.le_trans h.bound (next_le_of_prims hp)
  sent := hp.sentIDs_prefix.subset h.sent

/-- A notification that is sent behind its creation. -/
theorem KindOnce.sentOnce {cfg : Config} {L : List Label} {k : NotificationKind} {b b' : Broker}
    (h : KindOnce k b) (hp : Prims cfg L b b') (hfits : b'.sNextNotificationID < 2 ^ 32)
    {n : Notification} (hn : n ∈ b.notifications k) (hsent : n.notificationID ∈ b'.sentIDs) :
    SentOnce b' n.notificationID := by
  have hmono := next_le_of_prims hp
  have hbound := h.bound _ (Or.inr (mem_ids_live.mpr ⟨k, List.mem_map_of_mem hn⟩))
  have hb := h.once (by omega) _ (List.mem_map_of_mem hn)
  exact ⟨hb.prims hp hbound hfits, by omega, hsent⟩

/-! ## Watching -/

section Watching

variable (k : NotificationKind) (There : Broker → SPartyID → Prop)

/-- Every active notification is on somebody who is there. -/
def AllThere (b : Broker) : Prop :=
  ∀ n ∈ b.notifications k, n.active = true → There b n.partyID

/-- The notification waits for somebody who is there, unsent. -/
structure Waits (b : Broker) (id : UInt32) (party : SPartyID) : Prop where
  there : There b party
  listed : ∃ n ∈ b.notifications k, n.notificationID = id ∧ n.partyID = party ∧ n.active = true
  unsent : b.sentIDs.count id = 0

/-- What becomes of the notification `id` over a run: it waits up to the end, or it
is sent in the very step in which the party goes, and never again. -/
def SentOnceAlong (cfg : Config) (b : Broker) (es : List Event) (id : UInt32)
    (party : SPartyID) : Prop :=
  Waits k There (Run.run (step cfg) b es) id party ∨
    ∃ pre e post, es = pre ++ e :: post ∧
      Waits k There (Run.run (step cfg) b pre) id party ∧
      ¬ There (Run.run (step cfg) b (pre ++ [e])) party ∧
      (Run.run (step cfg) b (pre ++ [e])).sentIDs.count id = 1 ∧
      (Run.run (step cfg) b es).sentIDs.count id = 1

/-- What a step has to show for it, the notifications `cleared` apart: what is not there any
more was sent, what is there still waits, and so do only notifications on somebody who is
there. -/
structure Watched (cleared : List UInt32) (b b' : Broker) : Prop where
  sent : ∀ n ∈ b.notifications k, n.active = true → n.notificationID ∉ cleared →
    ¬ There b' n.partyID → n.notificationID ∈ b'.sentIDs
  waits : ∀ n ∈ b.notifications k, n.active = true → n.notificationID ∉ cleared →
    There b' n.partyID → ∃ n' ∈ b'.notifications k, Descends n n' ∧ n'.active = true
  all : AllThere k There b'

variable {k There}

/-- A notification of a list is live. -/
theorem mem_ids_live_of_mem {b : Broker} {n : Notification} (hn : n ∈ b.notifications k) :
    n.notificationID ∈ ids b.live :=
  mem_ids_live.mpr ⟨k, List.mem_map_of_mem hn⟩

/-- An active notification on somebody who is there waits. -/
theorem waits_of_mem {b : Broker} (honce : KindOnce k b) (hfits : b.sNextNotificationID < 2 ^ 32)
    {n : Notification} (hn : n ∈ b.notifications k) (hactive : n.active = true)
    (hthere : There b n.partyID) : Waits k There b n.notificationID n.partyID where
  there := hthere
  listed := ⟨n, hn, rfl, rfl, hactive⟩
  unsent := (honce.once hfits _ (List.mem_map_of_mem hn)).not_sent (mem_ids_live_of_mem hn)

/-- Two stages one after the other, if nobody comes back in the second. -/
theorem Watched.trans {cleared : List UInt32} {b b' b'' : Broker}
    (h : Watched k There cleared b b') (h' : Watched k There cleared b' b'')
    (hback : ∀ id, There b'' id → There b' id) (hgrow : b'.sentIDs <+: b''.sentIDs) :
    Watched k There cleared b b'' where
  sent n hn hactive hclear hthere := by
    by_cases hthere' : There b' n.partyID
    · obtain ⟨n', hn', hd, ha⟩ := h.waits n hn hactive hclear hthere'
      rw [← hd.notificationID] at hclear ⊢
      rw [← hd.partyID] at hthere
      exact h'.sent n' hn' ha hclear hthere
    · exact hgrow.subset (h.sent n hn hactive hclear hthere')
  waits n hn hactive hclear hthere := by
    obtain ⟨n', hn', hd, ha⟩ := h.waits n hn hactive hclear (hback _ hthere)
    rw [← hd.notificationID] at hclear
    rw [← hd.partyID] at hthere
    obtain ⟨n'', hn'', hd', ha'⟩ := h'.waits n' hn' ha hclear hthere
    exact ⟨n'', hn'', hd.trans hd', ha'⟩
  all := h'.all

/-- A stage that takes nobody away who is watched, and drops at most the
notifications with the IDs `cleared`. -/
theorem watched_of_inherits {cleared : List UInt32} {b b' : Broker}
    (hp : ∀ n ∈ b.notifications k, n.notificationID ∉ cleared →
      ∃ n' ∈ b'.notifications k, Descends n n' ∧ n'.active = n.active)
    (hi : Inherits k b b')
    (hthere : ∀ n ∈ b.notifications k, n.active = true → There b' n.partyID) :
    Watched k There cleared b b' where
  sent n hn hactive _ hgone := absurd (hthere n hn hactive) hgone
  waits n hn hactive hclear _ := by
    obtain ⟨n', hn', hd, ha⟩ := hp n hn hclear
    exact ⟨n', hn', hd, ha.trans hactive⟩
  all n' hn' hactive := by
    obtain ⟨n, hn, hd⟩ := hi n' hn'
    rw [hd.partyID]
    exact hthere n hn (hd.active hactive)

/-- Updates that do not touch the notifications of the kind. -/
theorem watched_of_prims {cfg : Config} {L : List Label} {b b' : Broker}
    (hp : Prims cfg L b b') (hsweep : .sweep k ∉ L) (hcreate : .create k ∉ L)
    (hk : k = .serverDisconnect ∨ k = .clientDetach)
    (hthere : ∀ n ∈ b.notifications k, n.active = true → There b' n.partyID)
    (cleared : List UInt32) : Watched k There cleared b b' :=
  watched_of_inherits (fun n hn _ => hp.persists hsweep hk n hn) (hp.inherits hcreate) hthere

/-- A loop that drops at most the notifications with the IDs `cleared`. -/
theorem watched_sweep {cfg : Config} {once : Bool} {act : Broker → Notification → Action}
    {cleared : List UInt32} {b : Broker} (hall : AllThere k There b)
    (hact : ∀ n, n.notificationID ∉ cleared → ∀ b', Frame b b' → act b' n = .keep)
    (hthere : ∀ id, There b id → There (b.sweep cfg once k act) id) :
    Watched k There cleared b (b.sweep cfg once k act) :=
  watched_of_inherits
    (fun n hn hclear => ⟨n, mem_sweep_of_keep cfg once k b hn (hact n hclear), .refl n, rfl⟩)
    (inherits_sweep cfg once k k act b) (fun n hn hactive => hthere _ (hall n hn hactive))

/-- A new notification on somebody who is there. -/
theorem watched_set_there {new : Notification} {b b' : Broker} (hall : AllThere k There b)
    (hnotes : b'.notifications k = new :: b.notifications k)
    (hthere : ∀ id, There b id → There b' id) (hnew : There b new.partyID)
    (cleared : List UInt32) : Watched k There cleared b b' where
  sent n hn hactive _ hgone := absurd (hthere _ (hall n hn hactive)) hgone
  waits n hn hactive _ _ := ⟨n, hnotes ▸ List.mem_cons_of_mem _ hn, .refl n, hactive⟩
  all := by
    intro n hn hactive
    rw [hnotes] at hn
    cases List.mem_cons.mp hn with
    | inl he => exact he ▸ hthere _ hnew
    | inr hold => exact hthere _ (hall n hold hactive)

/-- A new notification on somebody who is not there is sent at once, and no other. -/
theorem watched_set_gone {cfg : Config} {new : Notification} {b b₁ : Broker}
    (hall : AllThere k There b) (hnotes : b₁.notifications k = new :: b.notifications k)
    (hthere : ∀ id, There b id → There (b₁.trigger cfg k new.partyID) id)
    (hnew : ¬ There b new.partyID) (cleared : List UInt32) :
    Watched k There cleared b (b₁.trigger cfg k new.partyID) := by
  have hlist : (b₁.trigger cfg k new.partyID).notifications k = (b₁.notifications k).filter _ :=
    notifications_sweep_fireIf cfg k b₁ _
  rw [hnotes] at hlist
  constructor
  case sent => exact fun n hn hactive _ hgone => absurd (hthere _ (hall n hn hactive)) hgone
  case waits =>
    intro n hn hactive _ _
    refine ⟨n, ?_, .refl n, hactive⟩
    have hne : n.partyID ≠ new.partyID := fun he => hnew (he ▸ hall n hn hactive)
    rw [hlist]
    exact List.mem_filter.mpr ⟨List.mem_cons_of_mem _ hn, by simp [hne]⟩
  case all =>
    intro n hn hactive
    rw [hlist] at hn
    obtain ⟨hmem, hkept⟩ := List.mem_filter.mp hn
    cases List.mem_cons.mp hmem with
    | inl he => simp [← he, hactive] at hkept
    | inr hold => exact hthere _ (hall n hold hactive)

/-- The stages in which somebody goes: the notifications on the parties that
satisfy `p` are sent, and behind the last stage these are not there any more. -/
theorem watched_fire (cfg : Config) {p : SPartyID → Bool} {b b₁ b' : Broker}
    (hp₁ : Persists k b b₁) (hi₁ : Inherits k b b₁)
    (hp' : Persists k (b₁.sweep cfg false k (fireIf (fun n => p n.partyID))) b')
    (hi' : Inherits k (b₁.sweep cfg false k (fireIf (fun n => p n.partyID))) b')
    (hgrow : (b₁.sweep cfg false k (fireIf (fun n => p n.partyID))).sentIDs <+: b'.sentIDs)
    (hthere : ∀ n ∈ b.notifications k, n.active = true →
      (There b' n.partyID ↔ p n.partyID = false)) (cleared : List UInt32) :
    Watched k There cleared b b' := by
  have hnotes := notifications_sweep_fireIf cfg k b₁ (fun n => p n.partyID)
  have hsent := sentIDs_sweep_fireIf cfg k b₁ (fun n => p n.partyID)
  refine ⟨?_, ?_, ?_⟩
  · intro n hn hactive _ hgone
    obtain ⟨n₁, hn₁, hd, ha⟩ := hp₁ n hn
    have hpn : p n₁.partyID = true := by
      rw [hthere n hn hactive] at hgone
      simpa [hd.partyID] using hgone
    apply hgrow.subset
    rw [hsent, ← hd.notificationID]
    refine List.mem_append_right _ (List.mem_map_of_mem (List.mem_filter.mpr ⟨hn₁, ?_⟩))
    simp [ha, hactive, hpn]
  · intro n hn hactive _ hstill
    obtain ⟨n₁, hn₁, hd, ha⟩ := hp₁ n hn
    have hpn : p n₁.partyID = false := by
      rw [hd.partyID]
      exact (hthere n hn hactive).mp hstill
    have hmem : n₁ ∈ (b₁.sweep cfg false k (fireIf (fun n => p n.partyID))).notifications k := by
      rw [hnotes]
      exact List.mem_filter.mpr ⟨hn₁, by simp [hpn]⟩
    obtain ⟨n', hn', hd', ha'⟩ := hp' n₁ hmem
    exact ⟨n', hn', hd.trans hd', ha'.trans (ha.trans hactive)⟩
  · intro n' hn' hactive
    obtain ⟨n₂, hn₂, hd'⟩ := hi' n' hn'
    rw [hnotes] at hn₂
    obtain ⟨hmem, hkept⟩ := List.mem_filter.mp hn₂
    obtain ⟨n, hn, hd⟩ := hi₁ n₂ hmem
    have hactive₂ := hd'.active hactive
    rw [hd'.partyID, hd.partyID]
    refine (hthere n hn (hd.active hactive₂)).mpr ?_
    rw [← hd.partyID]
    simpa [hactive₂] using hkept

/-! ### Setting a notification -/

/-- What a handler that sets a notification on a party can do: fail, put the
notification on somebody who is there into the list, or send the one on somebody
who is not there. -/
inductive SetParty (k : NotificationKind) (There : Broker → SPartyID → Prop) (cfg : Config)
    (party : SPartyID) (b : Broker) : Option UInt32 → Broker → Prop where
  | failed {b₁ : Broker} (hp : Prims cfg [.quiet, .create k] b b₁)
      (hnotes : b₁.notifications k = b.notifications k) : SetParty k There cfg party b none b₁
  | waits {new : Notification} {b₁ : Broker} (hp : Prims cfg [.quiet, .create k] b b₁)
      (hnotes : b₁.notifications k = new :: b.notifications k) (hactive : new.active = true)
      (hparty : new.partyID = party) (hthere : There b party) :
      SetParty k There cfg party b (some new.notificationID) b₁
  | sent {new : Notification} {b₁ : Broker} (hp : Prims cfg [.quiet, .create k] b b₁)
      (hnotes : b₁.notifications k = new :: b.notifications k) (hactive : new.active = true)
      (hparty : new.partyID = party) (hgone : ¬ There b party) :
      SetParty k There cfg party b (some new.notificationID) (b₁.trigger cfg k party)

/-- The result of `NotificationList::add(host, clientID, ctx, pulse)`. -/
theorem addParty_cases (cfg : Config) (k : NotificationKind) (party : SPartyID)
    (ctx : SocketConnectionContext) (pulse : SFNDPulseInfo) {b : Broker}
    (hfits : b.sNextNotificationID + 1 < 2 ^ 32 - 1) :
    ((b.addParty cfg k party ctx pulse).1 = INVALID_NOTIFICATION_ID ∧
        (b.addParty cfg k party ctx pulse).2.notifications k = b.notifications k) ∨
      ∃ new : Notification, new.active = true ∧ new.partyID = party ∧
        (b.addParty cfg k party ctx pulse).1 = new.notificationID ∧
        new.notificationID ≠ INVALID_NOTIFICATION_ID ∧
        (b.addParty cfg k party ctx pulse).2.notifications k = new :: b.notifications k := by
  unfold addParty
  obtain ⟨a, p, coid, hadd | hadd⟩ := addNotification_cases cfg k ctx pulse
    (fun n => { n with partyID := party, host := some ctx.mId }) b
  · rw [hadd]
    let new : Notification :=
      { b.fresh ctx.mNodeAddress p coid with partyID := party, host := some ctx.mId }
    exact Or.inr ⟨new, rfl, rfl, rfl, ofNat_ne_invalid hfits, by simp [new]⟩
  · rw [hadd]
    exact Or.inl ⟨rfl, by cases k <;> rfl⟩

/-- A notification for a party is made, and fires at once at most. -/
theorem SetParty.prims {cfg : Config} {party : SPartyID} {b b' : Broker} {id : Option UInt32}
    (h : SetParty k There cfg party b id b') :
    Prims cfg [.quiet, .create k, .sweep k] b b' := by
  cases h with
  | failed hp => exact hp.mono (by simp)
  | waits hp => exact hp.mono (by simp)
  | sent hp => exact (hp.mono (by simp)).tail (by simp) (prim_trigger cfg k party _)

/-- Nobody goes, so nothing else has to fire. -/
theorem SetParty.watched {cfg : Config} {party : SPartyID} {b b' : Broker} {id : Option UInt32}
    (h : SetParty k There cfg party b id b') (hall : AllThere k There b)
    (hthere : ∀ id, There b id → There b' id) (cleared : List UInt32) :
    Watched k There cleared b b' := by
  cases h with
  | failed hp hnotes =>
      exact watched_of_inherits (fun n hn _ => ⟨n, hnotes ▸ hn, .refl n, rfl⟩)
        (inherits_of_eq hnotes) (fun n hn hactive => hthere _ (hall n hn hactive))
  | waits hp hnotes hactive hparty hnew =>
      exact watched_set_there hall hnotes hthere (hparty ▸ hnew) cleared
  | sent hp hnotes hactive hparty hgone =>
      rw [← hparty] at hthere ⊢
      exact watched_set_gone hall hnotes hthere (hparty ▸ hgone) cleared

/-- A notification on somebody who is there waits. -/
theorem SetParty.waits_of_there {cfg : Config} {party : SPartyID} {b b' : Broker} {id : UInt32}
    (h : SetParty k There cfg party b (some id) b') (hk : k ≠ .serverListChange)
    (honce : KindOnce k b) (hfits : b'.sNextNotificationID < 2 ^ 32)
    (hthere : ∀ id, There b id → There b' id) (hparty : There b party) :
    Waits k There b' id party := by
  have honce' := honce.prims hk h.prims
  cases h with
  | waits hp hnotes hactive hnew =>
      rw [← hnew] at hparty ⊢
      exact waits_of_mem honce' hfits (hnotes ▸ List.mem_cons_self) hactive (hthere _ hparty)
  | sent hp hnotes hactive hnew hgone => exact absurd hparty hgone

/-- A notification on somebody who is not there is sent at once. -/
theorem SetParty.sentOnce_of_gone {cfg : Config} {party : SPartyID} {b b' : Broker} {id : UInt32}
    (h : SetParty k There cfg party b (some id) b') (hk : k ≠ .serverListChange)
    (honce : KindOnce k b) (hfits : b'.sNextNotificationID < 2 ^ 32)
    (hparty : ¬ There b party) : b.sentIDs.count id = 0 ∧ SentOnce b' id := by
  cases h with
  | waits hp hnotes hactive hnew hthere => exact absurd hthere hparty
  | @sent new b₁ hp hnotes hactive hnew hgone =>
      have hmem : new ∈ b₁.notifications k := hnotes ▸ List.mem_cons_self
      have honce₁ := honce.prims hk hp
      have hfits₁ : b₁.sNextNotificationID < 2 ^ 32 := by simpa using hfits
      have hunsent := (honce₁.once hfits₁ _ (List.mem_map_of_mem hmem)).not_sent
        (mem_ids_live_of_mem hmem)
      refine ⟨Nat.le_zero.mp (hunsent ▸ hp.sentIDs_prefix.sublist.count_le _), ?_⟩
      have hsweep : Prims cfg [.sweep k] b₁ (b₁.trigger cfg k party) :=
        .single (by simp) (prim_trigger cfg k party b₁)
      refine honce₁.sentOnce hsweep hfits hmem ?_
      rw [trigger, sentIDs_sweep_fireIf]
      exact List.mem_append_right _
        (List.mem_map_of_mem (List.mem_filter.mpr ⟨hmem, by simp [hactive, hnew]⟩))

/-! ### Runs -/

/-- The notifications that an event clears: the one of the request, and all those of
the connection that is closed. -/
def clearedBy (b : Broker) : Event → List UInt32
  | .request c (.clearNotification id) => (b.notificationList c).filter (· = id)
  | .closed c => b.notificationList c
  | _ => []

/-- The invariant `I` makes the steps under `P` watch. -/
structure WatchInv (cfg : Config) (k : NotificationKind) (There : Broker → SPartyID → Prop)
    (P : Broker → Event → Prop) (I : Broker → Prop) : Prop where
  step : ∀ b e, I b → P b e → I (b.step cfg e)
  prims : ∀ b e, I b → P b e → ∃ L, Prims cfg L b (b.step cfg e)
  fits : ∀ b, I b → b.sNextNotificationID < 2 ^ 32
  once : ∀ b, I b → KindOnce k b
  watched : ∀ b e, I b → P b e → Watched k There (clearedBy b e) b (b.step cfg e)

/-- The request of the connection is answered with the ID of a notification. -/
def Answers (cfg : Config) (b : Broker) (c : Nat) (r : Request) (id : UInt32) : Prop :=
  ∃ k, b.conns c = some k ∧ k.deferred = false ∧
    (b.dispatch cfg (k.ctx c) r).2 = some ⟨0, .notificationID id⟩

section Runs

variable {cfg : Config} {P : Broker → Event → Prop} {I : Broker → Prop}

/-- So what was sent once is sent once in the whole run. -/
theorem WatchInv.sentOnce_run (h : WatchInv cfg k There P I) {b : Broker} (hb : I b)
    {es : List Event} (hes : Run.Along (Broker.step cfg) P b es) {id : UInt32}
    (hid : SentOnce b id) : SentOnce (Run.run (Broker.step cfg) b es) id := by
  induction es generalizing b with
  | nil => exact hid
  | cons e es ih =>
      obtain ⟨L, hp⟩ := h.prims b e hb hes.1
      have hnext := h.step b e hb hes.1
      exact ih hnext hes.2 (hid.prims hp (h.fits _ hnext))

/-- The run lemma: a notification that nobody clears waits, or is sent exactly once,
with the step in which its party goes. -/
theorem WatchInv.sentOnceAlong (h : WatchInv cfg k There P I) {b : Broker} (hb : I b)
    {es : List Event} (hes : Run.Along (Broker.step cfg) P b es) {n : Notification}
    (hn : n ∈ b.notifications k) (hactive : n.active = true) (hthere : There b n.partyID)
    (hclear : Run.Along (Broker.step cfg) (fun b e => n.notificationID ∉ clearedBy b e) b es) :
    SentOnceAlong k There cfg b es n.notificationID n.partyID := by
  induction es generalizing b n with
  | nil => exact Or.inl (waits_of_mem (h.once b hb) (h.fits b hb) hn hactive hthere)
  | cons e es ih =>
      have hwaits := waits_of_mem (h.once b hb) (h.fits b hb) hn hactive hthere
      have hnext := h.step b e hb hes.1
      have hw := h.watched b e hb hes.1
      obtain ⟨L, hp⟩ := h.prims b e hb hes.1
      by_cases hthere' : There (b.step cfg e) n.partyID
      · -- nothing has happened yet, so the rest of the run decides
        obtain ⟨n', hn', hd, ha⟩ := hw.waits n hn hactive hclear.1 hthere'
        rw [← hd.partyID] at hthere'
        have hclear' := hclear.2
        rw [← hd.notificationID] at hclear'
        have hrest := ih hnext hes.2 hn' ha hthere' hclear'
        rw [hd.notificationID, hd.partyID] at hrest
        cases hrest with
        | inl hend => exact Or.inl hend
        | inr hsent =>
            obtain ⟨pre, e', post, hes', hrest⟩ := hsent
            exact Or.inr ⟨e :: pre, e', post, by rw [hes', List.cons_append], hrest⟩
      · have hsent := hw.sent n hn hactive hclear.1 hthere'
        have honce := (h.once b hb).sentOnce hp (h.fits _ hnext) hn hsent
        have hend := h.sentOnce_run hnext hes.2 honce
        exact Or.inr ⟨[], e, es, rfl, hwaits, hthere', (honce.once.sent_once hsent).1,
          (hend.once.sent_once hend.sent).1⟩

/-- The step in which a notification is set. -/
theorem WatchInv.set (h : WatchInv cfg k There P I) (hk : k ≠ .serverListChange) {b b₁ : Broker}
    (hb : I b) {e : Event} {es : List Event} (hes : Run.Along (Broker.step cfg) P b (e :: es))
    {party : SPartyID} {id : UInt32} (hset : SetParty k There cfg party b (some id) b₁)
    (hquiet : Quiet b₁ (b.step cfg e))
    (hthere : ∀ id, There b id → There (b.step cfg e) id)
    (hthere₁ : ∀ id, There b id → There b₁ id) :
    (There b party → Waits k There (b.step cfg e) id party) ∧
      (¬ There b party → b.sentIDs.count id = 0 ∧ (b.step cfg e).sentIDs.count id = 1 ∧
        (Run.run (Broker.step cfg) b (e :: es)).sentIDs.count id = 1) := by
  have hnext := h.step b e hb hes.1
  have hfits : b₁.sNextNotificationID < 2 ^ 32 := hquiet.nextNotificationID ▸ h.fits _ hnext
  constructor
  · intro hparty
    obtain ⟨n, hn, hid, hnparty, hactive⟩ :=
      (hset.waits_of_there hk (h.once b hb) hfits hthere₁ hparty).listed
    rw [← hid, ← hnparty]
    rw [← hquiet.notifications k] at hn
    exact waits_of_mem (h.once _ hnext) (h.fits _ hnext) hn hactive (hnparty ▸ hthere _ hparty)
  · intro hparty
    obtain ⟨hzero, honce⟩ := hset.sentOnce_of_gone hk (h.once b hb) hfits hparty
    have hstep := honce.prims (prims_quiet cfg hquiet) (h.fits _ hnext)
    have hend := h.sentOnce_run hnext hes.2 hstep
    exact ⟨hzero, (hstep.once.sent_once hstep.sent).1, (hend.once.sent_once hend.sent).1⟩

end Runs

end Watching

end Broker

end Dsi
