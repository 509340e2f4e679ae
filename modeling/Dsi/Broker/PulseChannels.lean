import Mathlib.Data.Finset.Insert
import Mathlib.Data.Finset.Erase
import Mathlib.Data.List.Perm.Basic
import Dsi.Broker.Types
import Dsi.Lib.RefCount
import Dsi.Lib.Run

/-!
# Dsi.Broker.PulseChannels

The channels that the pulses of the notifications are sent on (`PulseChannelManager`), shared by
the notifications with the same target and counted, and the notifications as far as they hold them.

* `counts_iff`: the counts are those of the holders in every state of a run, and every descriptor is
  closed with its last holder, exactly when no slave's notification is connected that holds one;
* `counts_lists`: the notification lists never do that.
-/

namespace Dsi.Pulse

open RefCount Sequence

/-! ## The manager -/

/-- A descriptor of the operating system. -/
abbrev Descriptor := { fd : Int32 // 0 ≤ fd }

/-- `PulseChannel`.  The count is an `int`; `State.Counts.refCount_le` says why it does not
overflow. -/
structure PulseChannel where
  nid : Int32
  pid : Int32
  chid : Int32
  fd : Int32
  refCount : Nat
  deriving DecidableEq, Repr

namespace PulseChannel

/-- The triple that identifies the target. -/
def target (c : PulseChannel) : Int32 × Int32 × Int32 := (c.nid, c.pid, c.chid)

/-- `++refCount`. -/
def addRef (c : PulseChannel) : PulseChannel := { c with refCount := c.refCount + 1 }

/-- `--refCount`. -/
def dropRef (c : PulseChannel) : PulseChannel := { c with refCount := c.refCount - 1 }

end PulseChannel

/-- `PulseChannelManager`, with the descriptors that it has opened and not closed. -/
structure PulseChannelManager where
  mSockets : List PulseChannel := []
  opened : Finset Int32 := ∅
  deriving DecidableEq

/-- `tryAddRef`. -/
def tryAddRef (container : List PulseChannel) (target : Int32 × Int32 × Int32) :
    Int32 × List PulseChannel :=
  match container.findIdx? (·.target = target) with
  | some idx =>
      match container[idx]? with
      | some c => (c.fd, container.modify idx PulseChannel.addRef)
      | none => (-1, container)
  | none => (-1, container)

namespace PulseChannelManager

/-- `PulseChannelManager::attach`, with the descriptor that the operating system connects to the
target if it can. -/
def attach (target : Int32 × Int32 × Int32) (connected : Option Descriptor)
    (m : PulseChannelManager) : Int32 × PulseChannelManager :=
  let r := tryAddRef m.mSockets target
  if r.1 ≠ -1 then (r.1, { m with mSockets := r.2 })
  else
    match connected with
    | some rc =>
        (rc, { mSockets := r.2 ++ [⟨target.1, target.2.1, target.2.2, rc, 1⟩]
               opened := insert rc.1 m.opened })
    | none => (-1, { m with mSockets := r.2 })

/-- `SocketDestructor::eval`. -/
def close (fd : Int32) (m : PulseChannelManager) : PulseChannelManager :=
  { m with opened := m.opened.erase fd }

/-- `PulseChannelManager::detach`, which is `release`. -/
def detach (fd : Int32) (m : PulseChannelManager) : PulseChannelManager :=
  match m.mSockets.findIdx? (·.fd = fd) with
  | some idx =>
      let mSockets := m.mSockets.modify idx PulseChannel.dropRef
      if (mSockets[idx]?.map PulseChannel.refCount) = some 0 then
        { (m.close fd) with mSockets := mSockets.eraseIdx idx }
      else { m with mSockets := mSockets }
  | none => m

end PulseChannelManager

/-! ## Notifications -/

/-- `Notification`, as far as it holds a channel. -/
structure Notification where
  nid : Int32 := 0
  pulse : SFNDPulseInfo := ⟨0, 0, 0, 0⟩
  coid : Int32 := -1
  deriving DecidableEq, Repr

namespace Notification

/-- The target of the pulses. -/
def target (n : Notification) : Int32 × Int32 × Int32 :=
  (n.nid, n.pulse.pid.toInt32, n.pulse.chid)

/-- `Notification::doConnect`. -/
def doConnect (n : Notification) (connected : Option Descriptor) (m : PulseChannelManager) :
    Notification × Bool × PulseChannelManager :=
  let r := m.attach n.target connected
  if r.1 < 0 then ({ n with coid := r.1, pulse := ⟨0, 0, 0, 0⟩ }, false, r.2)
  else ({ n with coid := r.1 }, true, r.2)

/-- `Notification::connect`, for a connection with a node address that may be that of a slave. -/
def connect (n : Notification) (mNodeAddress : UInt32) (mSlave : Bool) (thePulse : SFNDPulseInfo)
    (connected : Option Descriptor) (m : PulseChannelManager) :
    Notification × Bool × PulseChannelManager :=
  let n := { n with pulse := thePulse, nid := mNodeAddress.toInt32 }
  if mSlave then n.doConnect connected m else (n, true, m)

/-- `Notification::send`. -/
def send (n : Notification) (connected : Option Descriptor) (m : PulseChannelManager) :
    Notification × PulseChannelManager :=
  if n.coid < 0 then
    let r := n.doConnect connected m
    (r.1, r.2.2)
  else (n, m)

/-- What the copy constructor leaves of the original; the copy has what it had. -/
def moved (n : Notification) : Notification := { n with pulse := ⟨0, 0, 0, 0⟩, coid := -1 }

/-- `Notification::~Notification`. -/
def destroy (n : Notification) (m : PulseChannelManager) : PulseChannelManager :=
  if n.coid ≠ -1 then m.detach n.coid else m

end Notification

/-! ## Runs -/

/-- The live notifications and the manager. -/
structure State where
  notifications : List Notification := []
  manager : PulseChannelManager := {}

namespace State

/-- The descriptors that the notifications hold. -/
def coids (s : State) : List Int32 := s.notifications.map Notification.coid

/-- What happens to a notification, told by its place. -/
inductive Op where
  | create
  | connect (i : Nat) (mNodeAddress : UInt32) (mSlave : Bool) (thePulse : SFNDPulseInfo)
      (connected : Option Descriptor)
  | send (i : Nat) (connected : Option Descriptor)
  | copy (i : Nat)
  | destroy (i : Nat)

/-- One operation. -/
def step (s : State) : Op → State
  | .create => { s with notifications := s.notifications ++ [{}] }
  | .connect i mNodeAddress mSlave thePulse connected =>
      match s.notifications[i]? with
      | some n =>
          let r := n.connect mNodeAddress mSlave thePulse connected s.manager
          ⟨s.notifications.set i r.1, r.2.2⟩
      | none => s
  | .send i connected =>
      match s.notifications[i]? with
      | some n =>
          let r := n.send connected s.manager
          ⟨s.notifications.set i r.1, r.2⟩
      | none => s
  | .copy i =>
      match s.notifications[i]? with
      | some n => { s with notifications := s.notifications.set i n.moved ++ [n] }
      | none => s
  | .destroy i =>
      match s.notifications[i]? with
      | some n => ⟨s.notifications.eraseIdx i, n.destroy s.manager⟩
      | none => s

/-- The descriptor that the operating system has for an operation. -/
def Op.connected? : Op → Option Descriptor
  | .connect _ _ _ _ connected => connected
  | .send _ connected => connected
  | _ => none

/-- The operating system returns descriptors that are not open. -/
def Fresh (s : State) (op : Op) : Prop := ∀ fd ∈ op.connected?, fd.1 ∉ s.manager.opened

/-- Every channel counts the notifications that hold its descriptor, channels differ in their
descriptors and in their targets, and the descriptors that are open are the held ones. -/
structure Counts (s : State) : Prop where
  refCount_eq : ∀ c ∈ s.manager.mSockets, c.refCount = s.coids.count c.fd
  fds_nodup : (s.manager.mSockets.map PulseChannel.fd).Nodup
  targets_nodup : (s.manager.mSockets.map PulseChannel.target).Nodup
  opened_iff : ∀ fd, fd ∈ s.manager.opened ↔ fd ≠ -1 ∧ fd ∈ s.coids

-- not by running through all descriptors
instance (s : State) (op : Op) : Decidable (Fresh s op) :=
  decidable_of_iff (op.connected?.all (fun fd => fd.1 ∉ s.manager.opened) = true)
    (by simp [Fresh, Option.all_eq_true])

/-- A descriptor is closed exactly when its last holder is destroyed. -/
def ClosesLast (s : State) (op : Op) : Prop :=
  ∀ fd, (fd ∈ s.manager.opened ∧ fd ∉ (s.step op).manager.opened) ↔
    ∃ i, op = .destroy i ∧ s.coids[i]? = some fd ∧ fd ≠ -1 ∧ s.coids.count fd = 1

/-- No notification of a slave is connected that holds a descriptor. -/
def Unconnected (s : State) : Op → Prop
  | .connect i _ mSlave _ _ => mSlave = true → ∀ n ∈ s.notifications[i]?, n.coid = -1
  | _ => True

/-- No channel counts more than the notifications, which memory bounds far below 2 ^ 31. -/
theorem Counts.refCount_le {s : State} (h : Counts s) :
    ∀ c ∈ s.manager.mSockets, c.refCount ≤ s.notifications.length := by
  intro c hc
  have hcount : s.coids.count c.fd ≤ s.coids.length := List.count_le_length
  rw [h.refCount_eq c hc]
  rwa [coids, List.length_map] at hcount

end State

/-! ## Counted channels -/

/-- The channels count the references, have descriptors that are open, and differ. -/
structure Held (refs : List Int32) (m : PulseChannelManager) : Prop where
  counted : Counted PulseChannel.fd PulseChannel.refCount (-1) refs m.mSockets
  targets_nodup : (m.mSockets.map PulseChannel.target).Nodup
  nonneg : ∀ fd ∈ m.mSockets.map PulseChannel.fd, 0 ≤ fd
  mem_refs : ∀ fd ∈ m.mSockets.map PulseChannel.fd, fd ∈ refs
  opened_iff : ∀ fd, fd ∈ m.opened ↔ fd ∈ m.mSockets.map PulseChannel.fd

/-- A descriptor is not the value for none. -/
theorem ne_of_nonneg {fd : Int32} (h : 0 ≤ fd) : fd ≠ -1 := by
  rintro rfl
  exact absurd h (by decide)

/-- What `attach` does: it adds a reference, opens a channel, or fails. -/
theorem attach_cases {m : PulseChannelManager} (hneg : ∀ c ∈ m.mSockets, c.fd ≠ -1)
    (target : Int32 × Int32 × Int32) (connected : Option Descriptor) :
    (∃ i c, m.mSockets[i]? = some c ∧ c.target = target ∧
        m.attach target connected =
          (c.fd, { m with mSockets := m.mSockets.modify i PulseChannel.addRef })) ∨
      ((∀ c ∈ m.mSockets, c.target ≠ target) ∧ ∃ rc, connected = some rc ∧
        m.attach target connected =
          (rc.1, ⟨m.mSockets ++ [⟨target.1, target.2.1, target.2.2, rc, 1⟩],
            insert rc.1 m.opened⟩)) ∨
      connected = none ∧ m.attach target connected = (-1, m) := by
  cases hfind : m.mSockets.findIdx? (·.target = target) with
  | some i =>
      obtain ⟨hlt, htarget, -⟩ := List.findIdx?_eq_some_iff_getElem.mp hfind
      have hi : m.mSockets[i]? = some m.mSockets[i] := List.getElem?_eq_getElem hlt
      refine Or.inl ⟨i, m.mSockets[i], hi, of_decide_eq_true htarget, ?_⟩
      simp only [PulseChannelManager.attach, tryAddRef, hfind, hi]
      rw [if_pos (hneg _ (List.getElem_mem hlt))]
  | none =>
      have hnone : ∀ c ∈ m.mSockets, c.target ≠ target := fun c hc =>
        of_decide_eq_false (List.findIdx?_eq_none_iff.mp hfind c hc)
      have htry : tryAddRef m.mSockets target = (-1, m.mSockets) := by rw [tryAddRef, hfind]
      have hattach : m.attach target connected =
          match connected with
          | some rc =>
              (rc.1, ⟨m.mSockets ++ [⟨target.1, target.2.1, target.2.2, rc, 1⟩],
                insert rc.1 m.opened⟩)
          | none => (-1, m) := by
        simp only [PulseChannelManager.attach, htry]
        rw [if_neg (not_not.mpr rfl)]
      cases connected with
      | some rc => exact Or.inr (Or.inl ⟨hnone, rc, rfl, hattach⟩)
      | none => exact Or.inr (Or.inr ⟨rfl, hattach⟩)

/-- What `detach` does with a descriptor of a channel. -/
theorem detach_of_mem {m : PulseChannelManager} {fd : Int32}
    (h : fd ∈ m.mSockets.map PulseChannel.fd) :
    ∃ i c, m.mSockets.findIdx? (·.fd = fd) = some i ∧ m.mSockets[i]? = some c ∧ c.fd = fd ∧
      m.detach fd =
        if c.refCount - 1 = 0 then ⟨m.mSockets.eraseIdx i, m.opened.erase fd⟩
        else { m with mSockets := m.mSockets.modify i PulseChannel.dropRef } := by
  obtain ⟨x, hx, hfd⟩ := List.mem_map.mp h
  cases hfind : m.mSockets.findIdx? (·.fd = fd) with
  | none => exact absurd hfd (of_decide_eq_false (List.findIdx?_eq_none_iff.mp hfind x hx))
  | some i =>
      obtain ⟨hlt, hkey, -⟩ := List.findIdx?_eq_some_iff_getElem.mp hfind
      have hi : m.mSockets[i]? = some m.mSockets[i] := List.getElem?_eq_getElem hlt
      refine ⟨i, m.mSockets[i], rfl, hi, of_decide_eq_true hkey, ?_⟩
      have hcount : (m.mSockets.modify i PulseChannel.dropRef)[i]?.map PulseChannel.refCount =
          some (m.mSockets[i].refCount - 1) := by
        rw [List.getElem?_modify_eq, hi]
        rfl
      simp only [PulseChannelManager.detach, hfind, hcount, Option.some_inj,
        PulseChannelManager.close, List.eraseIdx_modify_of_eq]

namespace Held

variable {refs refs' : List Int32} {m : PulseChannelManager}

/-- The order of the references does not count. -/
theorem perm (h : Held refs m) (hp : refs.Perm refs') : Held refs' m :=
  { h with
    counted := h.counted.perm hp
    mem_refs := fun fd hfd => hp.mem_iff.mp (h.mem_refs fd hfd) }

/-- A notification without a channel holds none. -/
theorem cons_free (h : Held refs m) : Held (-1 :: refs) m :=
  { h with
    counted := h.counted.cons_free
    mem_refs := fun fd hfd => List.mem_cons_of_mem _ (h.mem_refs fd hfd) }

/-- A channel has a descriptor. -/
theorem ne_free (h : Held refs m) {fd : Int32} (hfd : fd ∈ m.mSockets.map PulseChannel.fd) :
    fd ≠ -1 := ne_of_nonneg (h.nonneg fd hfd)

/-- So it may go without one. -/
theorem of_cons_free (h : Held (-1 :: refs) m) : Held refs m :=
  { h with
    counted := h.counted.of_cons_free
    mem_refs := fun fd hfd => (List.mem_cons.mp (h.mem_refs fd hfd)).resolve_left (h.ne_free hfd) }

/-- A descriptor that is held is that of a channel. -/
theorem mem_fds (h : Held refs m) {fd : Int32} (hfd : fd ∈ refs) (hne : fd ≠ -1) :
    fd ∈ m.mSockets.map PulseChannel.fd := by
  obtain ⟨c, hc, hkey⟩ := h.counted.exists_cell fd hfd hne
  exact hkey ▸ List.mem_map_of_mem hc

/-- A notification without a channel attaches to one. -/
theorem attach (h : Held (-1 :: refs) m) {connected : Option Descriptor}
    (hfresh : ∀ fd ∈ connected, fd.1 ∉ m.opened) (target : Int32 × Int32 × Int32) :
    Held ((m.attach target connected).1 :: refs) (m.attach target connected).2 := by
  have hrefs := h.of_cons_free
  obtain ⟨i, c, hi, -, heq⟩ | ⟨htarget, rc, rfl, heq⟩ | ⟨-, heq⟩ :=
    attach_cases h.counted.ne_free target connected
  · have hfds : (m.mSockets.modify i PulseChannel.addRef).map PulseChannel.fd =
        m.mSockets.map PulseChannel.fd := map_modify (f := PulseChannel.addRef) (fun _ => rfl) _ _
    have htargets : (m.mSockets.modify i PulseChannel.addRef).map PulseChannel.target =
        m.mSockets.map PulseChannel.target :=
      map_modify (f := PulseChannel.addRef) (fun _ => rfl) _ _
    rw [heq]
    constructor
    case counted => exact h.counted.acquire hi (fun _ => ⟨rfl, rfl⟩)
    case targets_nodup => exact htargets ▸ h.targets_nodup
    case nonneg => exact hfds ▸ h.nonneg
    case mem_refs => exact hfds ▸ fun fd hfd => List.mem_cons_of_mem _ (hrefs.mem_refs fd hfd)
    case opened_iff => exact hfds ▸ h.opened_iff
  · have hnew : rc.1 ∉ m.mSockets.map PulseChannel.fd := fun hmem =>
      hfresh rc rfl ((h.opened_iff rc.1).mpr hmem)
    let c : PulseChannel := ⟨target.1, target.2.1, target.2.2, rc, 1⟩
    have hfds {fd : Int32} : fd ∈ (m.mSockets ++ [c]).map PulseChannel.fd ↔
        fd ∈ m.mSockets.map PulseChannel.fd ∨ fd = rc.1 := by
      rw [List.map_append, List.mem_append, List.map_singleton, List.mem_singleton]
    rw [heq]
    constructor
    case counted =>
      exact h.counted.acquire_new (c := c) rfl (ne_of_nonneg rc.2) fun x hx hkey =>
        hnew (List.mem_map.mpr ⟨x, hx, hkey⟩)
    case targets_nodup =>
      rw [List.map_append, List.map_singleton, List.nodup_append_comm, List.singleton_append,
        List.nodup_cons]
      refine ⟨fun hmem => ?_, h.targets_nodup⟩
      obtain ⟨c, hc, hc'⟩ := List.mem_map.mp hmem
      exact htarget c hc hc'
    case nonneg => exact fun fd hfd => (hfds.mp hfd).elim (h.nonneg fd) (fun he => he ▸ rc.2)
    case mem_refs =>
      exact fun fd hfd => (hfds.mp hfd).elim
        (fun hold => List.mem_cons_of_mem _ (hrefs.mem_refs fd hold))
        (fun he => he ▸ List.mem_cons_self)
    case opened_iff =>
      intro fd
      rw [hfds, Finset.mem_insert, h.opened_iff, or_comm]
  · rw [heq]
    exact h

/-- A holder detaches. -/
theorem detach {fd : Int32} (h : Held (fd :: refs) m) (hne : fd ≠ -1) :
    Held refs (m.detach fd) := by
  obtain ⟨i, c, hfind, hi, rfl, heq⟩ := detach_of_mem (h.mem_fds List.mem_cons_self hne)
  have hcell := List.mem_of_getElem? hi
  have hlast := h.counted.count_sub_one_eq_zero hcell
  rw [heq]
  split
  · next h0 =>
    have herase : m.mSockets.eraseIdx i = m.mSockets.eraseP (·.fd = c.fd) := by
      rw [List.eraseP_eq_eraseIdx, hfind]
    have hfds {fd : Int32} : fd ∈ (m.mSockets.eraseP (·.fd = c.fd)).map PulseChannel.fd ↔
        fd ≠ c.fd ∧ fd ∈ m.mSockets.map PulseChannel.fd := by
      rw [eraseP_eq_filter h.counted.nodup]
      simp only [List.mem_map, List.mem_filter, decide_eq_true_iff]
      constructor
      · rintro ⟨x, ⟨hx, hxc⟩, rfl⟩
        exact ⟨hxc, x, hx, rfl⟩
      · rintro ⟨hne, x, hx, rfl⟩
        exact ⟨x, ⟨hx, hne⟩, rfl⟩
    rw [herase]
    constructor
    case counted => exact h.counted.release_last (hlast.mp h0)
    case targets_nodup => exact h.targets_nodup.sublist (List.eraseP_sublist.map _)
    case nonneg => exact fun fd hfd => h.nonneg fd (hfds.mp hfd).2
    case mem_refs =>
      exact fun fd hfd => (List.mem_cons.mp (h.mem_refs fd (hfds.mp hfd).2)).resolve_left
        (hfds.mp hfd).1
    case opened_iff =>
      intro fd
      rw [hfds, Finset.mem_erase, h.opened_iff]
  · next h0 =>
    have hmem : c.fd ∈ refs := not_not.mp fun hnot => h0 (hlast.mpr hnot)
    have hfds : (m.mSockets.modify i PulseChannel.dropRef).map PulseChannel.fd =
        m.mSockets.map PulseChannel.fd := map_modify (f := PulseChannel.dropRef) (fun _ => rfl) _ _
    have htargets : (m.mSockets.modify i PulseChannel.dropRef).map PulseChannel.target =
        m.mSockets.map PulseChannel.target :=
      map_modify (f := PulseChannel.dropRef) (fun _ => rfl) _ _
    constructor
    case counted => exact h.counted.release hi (fun _ => ⟨rfl, rfl⟩)
    case targets_nodup => exact htargets ▸ h.targets_nodup
    case nonneg => exact hfds ▸ h.nonneg
    case mem_refs =>
      exact hfds ▸ fun fd hfd => (List.mem_cons.mp (h.mem_refs fd hfd)).elim
        (fun he => he ▸ hmem) id
    case opened_iff => exact hfds ▸ h.opened_iff

end Held

/-! ## Steps -/

/-- A notification that connects holds the channel to its target. -/
@[simp] theorem Notification.coid_doConnect (n : Notification) (connected : Option Descriptor)
    (m : PulseChannelManager) :
    (n.doConnect connected m).1.coid = (m.attach n.target connected).1 := by
  rw [doConnect]
  split <;> rfl

/-- And the manager has attached it. -/
@[simp] theorem Notification.manager_doConnect (n : Notification) (connected : Option Descriptor)
    (m : PulseChannelManager) :
    (n.doConnect connected m).2.2 = (m.attach n.target connected).2 := by
  rw [doConnect]
  split <;> rfl

/-- Attaching closes nothing. -/
theorem subset_attach {m : PulseChannelManager} (hneg : ∀ c ∈ m.mSockets, c.fd ≠ -1)
    (target : Int32 × Int32 × Int32) (connected : Option Descriptor) :
    m.opened ⊆ (m.attach target connected).2.opened := by
  obtain ⟨i, c, -, -, heq⟩ | ⟨-, rc, -, heq⟩ | ⟨-, heq⟩ := attach_cases hneg target connected
  · rw [heq]
  · rw [heq]
    exact Finset.subset_insert _ _
  · rw [heq]

namespace State

variable {s : State} {i : Nat} {n : Notification}

/-- The descriptors of all notifications, one of them in front. -/
theorem coids_perm (h : s.notifications[i]? = some n) :
    s.coids.Perm (n.coid :: s.coids.eraseIdx i) := by
  obtain ⟨hlt, hget⟩ := List.getElem?_eq_some_iff.mp h
  have hlen : i < s.coids.length := by rw [coids, List.length_map]; exact hlt
  have hcoid : s.coids[i] = n.coid := by simp only [coids, List.getElem_map, hget]
  exact hcoid ▸ (List.getElem_cons_eraseIdx_perm hlen).symm

/-- One notification holds another descriptor. -/
theorem coids_set (h : s.notifications[i]? = some n) (n' : Notification) :
    ((s.notifications.set i n').map Notification.coid).Perm (n'.coid :: s.coids.eraseIdx i) := by
  obtain ⟨hlt, -⟩ := List.getElem?_eq_some_iff.mp h
  have hlen : i < s.coids.length := by rw [coids, List.length_map]; exact hlt
  rw [List.map_set]
  exact List.set_perm_cons_eraseIdx hlen n'.coid

/-- The channels count the notifications. -/
def Inv (s : State) : Prop := Held s.coids s.manager

/-- At the beginning there is no channel. -/
theorem inv_init : Inv {} where
  counted := Counted.nil
  targets_nodup := List.nodup_nil
  nonneg _ h := absurd h List.not_mem_nil
  mem_refs _ h := absurd h List.not_mem_nil
  opened_iff _ := iff_of_false (Finset.notMem_empty _) List.not_mem_nil

/-- The invariant, seen from one notification. -/
theorem Inv.at (h : Inv s) (hi : s.notifications[i]? = some n) :
    Held (n.coid :: s.coids.eraseIdx i) s.manager := h.perm (coids_perm hi)

/-- A descriptor that is negative is the value for none. -/
theorem Inv.coid_eq (h : Inv s) (hi : s.notifications[i]? = some n) (hneg : n.coid < 0) :
    n.coid = -1 := by
  refine Decidable.byContradiction fun hne => ?_
  have hnonneg := (h.at hi).nonneg _ ((h.at hi).mem_fds List.mem_cons_self hne)
  exact absurd hneg (Int32.not_lt.mpr hnonneg)

/-- The open descriptors are those that are held. -/
theorem Inv.opened_iff (h : Inv s) (fd : Int32) :
    fd ∈ s.manager.opened ↔ fd ≠ -1 ∧ fd ∈ s.coids := by
  rw [Held.opened_iff h]
  exact ⟨fun hmem => ⟨h.ne_free hmem, h.mem_refs fd hmem⟩, fun ⟨hne, hmem⟩ => h.mem_fds hmem hne⟩

/-- The invariant says what the property does. -/
theorem Inv.counts (h : Inv s) : Counts s where
  refCount_eq := h.counted.count_eq
  fds_nodup := h.counted.nodup
  targets_nodup := h.targets_nodup
  opened_iff := h.opened_iff

/-- A notification that holds no channel connects. -/
theorem Inv.doConnect (h : Inv s) (hi : s.notifications[i]? = some n) (hfree : n.coid = -1)
    {connected : Option Descriptor} (hfresh : ∀ fd ∈ connected, fd.1 ∉ s.manager.opened)
    (n' : Notification) :
    Inv ⟨s.notifications.set i (n'.doConnect connected s.manager).1,
      (n'.doConnect connected s.manager).2.2⟩ := by
  have hheld := hfree ▸ h.at hi
  have hattach := hheld.attach hfresh n'.target
  rw [Inv, coids, Notification.manager_doConnect]
  refine hattach.perm ?_
  rw [← Notification.coid_doConnect]
  exact (coids_set hi _).symm

/-- A notification that connects holds one channel more, unless it held one already. -/
theorem Inv.connect (h : Inv s) (hi : s.notifications[i]? = some n) {mSlave : Bool}
    (hfree : mSlave = true → n.coid = -1) {connected : Option Descriptor}
    (hfresh : ∀ fd ∈ connected, fd.1 ∉ s.manager.opened) (mNodeAddress : UInt32)
    (thePulse : SFNDPulseInfo) :
    Inv ⟨s.notifications.set i (n.connect mNodeAddress mSlave thePulse connected s.manager).1,
      (n.connect mNodeAddress mSlave thePulse connected s.manager).2.2⟩ := by
  rw [Notification.connect]
  cases mSlave with
  | true =>
      rw [if_pos rfl]
      exact h.doConnect hi (hfree rfl) hfresh _
  | false =>
      rw [if_neg Bool.false_ne_true]
      exact (h.at hi).perm (coids_set hi { n with pulse := thePulse, nid := _ }).symm

/-- A notification that is sent connects if it has no channel yet. -/
theorem Inv.send (h : Inv s) (hi : s.notifications[i]? = some n) {connected : Option Descriptor}
    (hfresh : ∀ fd ∈ connected, fd.1 ∉ s.manager.opened) :
    Inv ⟨s.notifications.set i (n.send connected s.manager).1, (n.send connected s.manager).2⟩ := by
  rw [Notification.send]
  split
  · next hneg => exact h.doConnect hi (h.coid_eq hi hneg) hfresh n
  · exact (h.at hi).perm (coids_set hi n).symm

/-- A copy takes the reference over. -/
theorem Inv.copy (h : Inv s) (hi : s.notifications[i]? = some n) :
    Inv { s with notifications := s.notifications.set i n.moved ++ [n] } := by
  refine (h.at hi).cons_free.perm ?_
  change (_ :: _ :: _).Perm ((s.notifications.set i n.moved ++ [n]).map Notification.coid)
  rw [List.map_append, List.map_singleton]
  exact (((coids_set hi n.moved).append_right [n.coid]).trans
    ((List.perm_append_singleton _ _).trans (List.Perm.swap _ _ _))).symm

/-- A notification that goes gives its reference back. -/
theorem Inv.destroy (h : Inv s) (hi : s.notifications[i]? = some n) :
    Inv ⟨s.notifications.eraseIdx i, n.destroy s.manager⟩ := by
  rw [Inv, coids, ← List.eraseIdx_map, Notification.destroy]
  split
  · next hne => exact (h.at hi).detach hne
  · next hfree => exact (not_not.mp hfree ▸ h.at hi).of_cons_free

/-- Every operation keeps the counts, unless it connects the notification of a slave that holds a
channel. -/
theorem Inv.step (h : Inv s) {op : Op} (hfresh : Fresh s op) (hun : Unconnected s op) :
    Inv (s.step op) := by
  cases op with
  | create =>
      refine h.cons_free.perm ?_
      change (-1 :: s.coids).Perm ((s.notifications ++ [({} : Notification)]).map Notification.coid)
      rw [List.map_append]
      exact (List.perm_append_singleton _ _).symm
  | connect i mNodeAddress mSlave thePulse connected =>
      rw [State.step]
      split
      · next n hi => exact h.connect hi (fun hslave => hun hslave n hi) hfresh _ _
      · exact h
  | send i connected =>
      rw [State.step]
      split
      · next n hi => exact h.send hi hfresh
      · exact h
  | copy i =>
      rw [State.step]
      split
      · next n hi => exact h.copy hi
      · exact h
  | destroy i =>
      rw [State.step]
      split
      · next n hi => exact h.destroy hi
      · exact h

/-- Only a destruction closes descriptors. -/
theorem Inv.subset_step (h : Inv s) {op : Op} (hop : ∀ i, op ≠ .destroy i) :
    s.manager.opened ⊆ (s.step op).manager.opened := by
  have hneg := h.counted.ne_free
  cases op with
  | create => exact Finset.Subset.refl _
  | connect i mNodeAddress mSlave thePulse connected =>
      rw [State.step]
      split
      · rw [Notification.connect]
        cases mSlave with
        | true =>
            simp only [if_true, Notification.manager_doConnect]
            exact subset_attach hneg _ _
        | false => exact Finset.Subset.refl _
      · exact Finset.Subset.refl _
  | send i connected =>
      rw [State.step]
      split
      · rw [Notification.send]
        split
        · simp only [Notification.manager_doConnect]
          exact subset_attach hneg _ _
        · exact Finset.Subset.refl _
      · exact Finset.Subset.refl _
  | copy i =>
      rw [State.step]
      split <;> exact Finset.Subset.refl _
  | destroy i => exact absurd rfl (hop i)

/-- What is closed had its last holder. -/
theorem Inv.closesLast (h : Inv s) {op : Op} (hstep : Inv (s.step op)) : ClosesLast s op := by
  intro fd
  by_cases hop : ∃ i, op = .destroy i
  · obtain ⟨i, rfl⟩ := hop
    rw [h.opened_iff, hstep.opened_iff]
    cases hi : s.notifications[i]? with
    | none =>
        have hsame : (s.step (.destroy i)).coids = s.coids := by rw [State.step, hi]
        have hcoid : s.coids[i]? = none := by rw [coids, List.getElem?_map, hi]; rfl
        rw [hsame]
        refine iff_of_false (fun hboth => hboth.2 hboth.1) ?_
        rintro ⟨j, hj, hfd, -⟩
        obtain rfl : i = j := by cases hj; rfl
        rw [hcoid] at hfd
        cases hfd
    | some n =>
        have hsame : (s.step (.destroy i)).coids = s.coids.eraseIdx i := by
          rw [State.step, hi, coids, coids, List.eraseIdx_map]
        have hcoid : s.coids[i]? = some n.coid := by rw [coids, List.getElem?_map, hi]; rfl
        rw [hsame, (coids_perm hi).mem_iff, (coids_perm hi).count_eq, List.mem_cons]
        constructor
        · rintro ⟨⟨hne, hmem⟩, hnot⟩
          have hlast : fd ∉ s.coids.eraseIdx i := fun hrest => hnot ⟨hne, hrest⟩
          obtain rfl := hmem.resolve_right hlast
          refine ⟨i, rfl, hcoid, hne, ?_⟩
          rw [List.count_cons_self, List.count_eq_zero.mpr hlast]
        · rintro ⟨j, hj, hfd, hne, hcount⟩
          obtain rfl : i = j := by cases hj; rfl
          obtain rfl : n.coid = fd := Option.some.inj (hcoid.symm.trans hfd)
          rw [List.count_cons_self, Nat.add_eq_right, List.count_eq_zero] at hcount
          exact ⟨⟨hne, Or.inl rfl⟩, fun hrest => hcount hrest.2⟩
  · have hsub : s.manager.opened ⊆ (s.step op).manager.opened :=
      h.subset_step fun i he => hop ⟨i, he⟩
    refine iff_of_false (fun hboth => hboth.2 (hsub hboth.1)) ?_
    exact fun ⟨i, he, _⟩ => hop ⟨i, he⟩

/-- The channels that were there are so behind `attach`, with their counts unless it returns their
descriptor: then one more reference is counted. -/
theorem mem_attach {m : PulseChannelManager} (hneg : ∀ c ∈ m.mSockets, c.fd ≠ -1)
    (hnodup : (m.mSockets.map PulseChannel.fd).Nodup) (target : Int32 × Int32 × Int32)
    {connected : Option Descriptor} (hfresh : ∀ fd ∈ connected, ∀ c ∈ m.mSockets, c.fd ≠ fd.1)
    {c : PulseChannel} (hc : c ∈ m.mSockets) :
    ∃ c' ∈ (m.attach target connected).2.mSockets, c'.fd = c.fd ∧
      c'.refCount =
        if (m.attach target connected).1 = c.fd then c.refCount + 1 else c.refCount := by
  obtain ⟨i, x, hi, -, heq⟩ | ⟨-, rc, rfl, heq⟩ | ⟨-, heq⟩ := attach_cases hneg target connected
  · rw [heq, modify_eq_map hnodup hi]
    by_cases hx : c.fd = x.fd
    · refine ⟨c.addRef, List.mem_map.mpr ⟨c, hc, if_pos hx⟩, rfl, ?_⟩
      rw [if_pos hx.symm]
      rfl
    · exact ⟨c, List.mem_map.mpr ⟨c, hc, if_neg hx⟩, rfl, (if_neg (Ne.symm hx)).symm⟩
  · rw [heq]
    exact ⟨c, List.mem_append_left _ hc, rfl, (if_neg (hfresh rc rfl c hc).symm).symm⟩
  · rw [heq]
    exact ⟨c, hc, rfl, (if_neg (hneg c hc).symm).symm⟩

/-- A second channel for a notification leaves the first one with a reference too many. -/
theorem Inv.not_counts_step (h : Inv s) {op : Op} (hfresh : Fresh s op) (hun : ¬ Unconnected s op) :
    ¬ Counts (s.step op) := by
  cases op with
  | connect i mNodeAddress mSlave thePulse connected =>
      rw [Unconnected] at hun
      obtain ⟨rfl, hun⟩ := Classical.not_imp.mp hun
      obtain ⟨n, hi, hne⟩ : ∃ n ∈ s.notifications[i]?, n.coid ≠ -1 := by simpa using hun
      intro hcounts
      obtain ⟨c, hc, hfd⟩ := h.counted.exists_cell n.coid
        ((coids_perm hi).mem_iff.mpr List.mem_cons_self) hne
      have hnew : ∀ fd ∈ connected, ∀ c ∈ s.manager.mSockets, c.fd ≠ fd.1 := fun fd hmem c hc he =>
        hfresh fd hmem ((Held.opened_iff h fd.1).mpr (he ▸ List.mem_map_of_mem hc))
      let n' : Notification := { n with pulse := thePulse, nid := mNodeAddress.toInt32 }
      obtain ⟨c', hc', hfd', hcount'⟩ :=
        mem_attach h.counted.ne_free h.counted.nodup n'.target hnew hc
      have hstep : s.step (.connect i mNodeAddress true thePulse connected) =
          ⟨s.notifications.set i (n'.doConnect connected s.manager).1,
            (s.manager.attach n'.target connected).2⟩ := by
        rw [State.step, hi, ← Notification.manager_doConnect]
        rfl
      rw [hstep] at hcounts
      have hexact : c'.refCount = ((s.notifications.set i
          (n'.doConnect connected s.manager).1).map Notification.coid).count c'.fd :=
        hcounts.refCount_eq c' hc'
      have hcount : c.refCount = (s.coids.eraseIdx i).count c.fd + 1 := by
        rw [h.counted.count_eq c hc, (coids_perm hi).count_eq, ← hfd, List.count_cons_self]
      rw [(coids_set hi _).count_eq, Notification.coid_doConnect, hcount', hfd',
        List.count_cons] at hexact
      by_cases hsame : (s.manager.attach n'.target connected).1 = c.fd
      · rw [if_pos hsame, if_pos (beq_iff_eq.mpr hsame)] at hexact
        omega
      · rw [if_neg hsame, if_neg (fun he => hsame (beq_iff_eq.mp he))] at hexact
        omega
  | create => exact absurd trivial hun
  | send i connected => exact absurd trivial hun
  | copy i => exact absurd trivial hun
  | destroy i => exact absurd trivial hun

/-! ## Counts in every state -/

/-- In every state of a run the channels count their holders, and every descriptor is closed with
its last one. -/
def KeepsCounts (s : State) (ops : List Op) : Prop :=
  (∀ before, before <+: ops → Counts (Run.run step s before)) ∧ Run.Along step ClosesLast s ops

/-- The runs that count right are those in which no slave's notification connects twice. -/
theorem Inv.keepsCounts_iff (h : Inv s) {ops : List Op}
    (hfresh : Run.Along State.step Fresh s ops) :
    KeepsCounts s ops ↔ Run.Along State.step Unconnected s ops := by
  induction ops generalizing s with
  | nil =>
      refine iff_of_true ⟨fun before hbefore => ?_, trivial⟩ trivial
      rw [List.prefix_nil.mp hbefore]
      exact h.counts
  | cons op ops ih =>
      by_cases hun : Unconnected s op
      · have hstep := h.step hfresh.1 hun
        have hrest := ih hstep hfresh.2
        rw [Run.Along, and_iff_right hun, ← hrest]
        constructor
        · rintro ⟨hcounts, hcloses⟩
          refine ⟨fun before hbefore => hcounts (op :: before) ?_, hcloses.2⟩
          exact List.cons_prefix_cons.mpr ⟨rfl, hbefore⟩
        · rintro ⟨hcounts, hcloses⟩
          refine ⟨fun before hbefore => ?_, h.closesLast hstep, hcloses⟩
          rcases List.prefix_cons_iff.mp hbefore with rfl | ⟨tail, rfl, htail⟩
          · exact h.counts
          · exact hcounts tail htail
      · refine iff_of_false (fun hkeeps => ?_) (fun halong => hun halong.1)
        exact h.not_counts_step hfresh.1 hun
          (hkeeps.1 [op] (List.cons_prefix_cons.mpr ⟨rfl, List.nil_prefix⟩))

/-- The channels count their holders in every state of a run, and close with the last one, exactly
when no notification of a slave is connected that holds a channel. -/
theorem counts_iff {ops : List Op} (hfresh : Run.Along step Fresh {} ops) :
    KeepsCounts {} ops ↔ Run.Along step Unconnected {} ops := Inv.keepsCounts_iff inv_init hfresh

/-- A notification of a slave is connected, copied and destroyed. -/
theorem counts_iff_copied :
    KeepsCounts {} [.create, .connect 0 1 true ⟨1, 2, 3, 4⟩ (some ⟨5, by decide⟩), .copy 0,
        .destroy 0, .destroy 0] ↔
      Run.Along step Unconnected {} [.create,
        .connect 0 1 true ⟨1, 2, 3, 4⟩ (some ⟨5, by decide⟩), .copy 0, .destroy 0, .destroy 0] :=
  counts_iff (by decide +kernel)

/-- A notification of a slave that is connected twice leaves a channel without a holder. -/
theorem not_keepsCounts_connected_twice :
    ¬ ∀ ops : List Op, Run.Along step Fresh {} ops → KeepsCounts {} ops := by
  intro h
  have hcounts := (h [.create, .connect 0 1 true ⟨1, 2, 3, 4⟩ (some ⟨5, by decide⟩),
    .connect 0 1 true ⟨1, 2, 3, 8⟩ (some ⟨6, by decide⟩)] (by decide +kernel)).1 _
    (List.prefix_refl _)
  exact absurd (hcounts.refCount_eq ⟨1, 4, 3, 5, 1⟩ (by decide +kernel)) (by decide +kernel)

/-! ## Notification lists -/

/-- What a notification list does: `add`, `send`, `move` from another list and `erase`. -/
inductive ListOp where
  | add (mNodeAddress : UInt32) (mSlave : Bool) (pulse : SFNDPulseInfo)
      (connected : Option Descriptor)
  | send (i : Nat) (connected : Option Descriptor)
  | move (i : Nat)
  | erase (i : Nat)

/-- The operations of it on notifications: `add` connects a notification of its own, and copies it
into the list if it could be connected. -/
def listOps (s : State) : ListOp → List Op
  | .add mNodeAddress mSlave pulse connected =>
      let entry := s.notifications.length
      [.create, .connect entry mNodeAddress mSlave pulse connected] ++
        (if (Notification.connect {} mNodeAddress mSlave pulse connected s.manager).2.1 then
          [.copy entry] else []) ++ [.destroy entry]
  | .send i connected => [.send i connected]
  | .move i => [.copy i, .destroy i]
  | .erase i => [.destroy i]

/-- The operations of a run. -/
def runOps (s : State) : List ListOp → List Op
  | [] => []
  | op :: ops => s.listOps op ++ runOps (Run.run step s (s.listOps op)) ops

/-- The lists connect a notification when it was just created. -/
theorem unconnected_runOps (s : State) (ops : List ListOp) :
    Run.Along step Unconnected s (s.runOps ops) := by
  induction ops generalizing s with
  | nil => trivial
  | cons op ops ih =>
      rw [runOps, Run.along_append]
      refine ⟨?_, ih _⟩
      cases op with
      | add mNodeAddress mSlave pulse connected =>
          rw [listOps, Run.along_append, Run.along_append]
          refine ⟨⟨⟨trivial, fun _ n hn => ?_, trivial⟩, ?_⟩, trivial, trivial⟩
          · have hnew : (s.notifications ++ [({} : Notification)])[s.notifications.length]? =
                some {} := List.getElem?_concat_length
            change n ∈ (s.notifications ++ [({} : Notification)])[s.notifications.length]? at hn
            rw [hnew] at hn
            exact Option.some.inj hn ▸ rfl
          · split
            · exact ⟨trivial, trivial⟩
            · trivial
      | send i connected => exact ⟨trivial, trivial⟩
      | move i => exact ⟨trivial, trivial, trivial⟩
      | erase i => exact ⟨trivial, trivial⟩

/-- So the channels of the notification lists count their holders in every state. -/
theorem keepsCounts_runOps {ops : List ListOp}
    (hfresh : Run.Along step Fresh {} (runOps {} ops)) : KeepsCounts {} (runOps {} ops) :=
  (Inv.keepsCounts_iff inv_init hfresh).mpr (unconnected_runOps {} ops)

end State

end Dsi.Pulse
