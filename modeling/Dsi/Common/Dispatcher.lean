import Dsi.Lib.Partial

/-!
# Dsi.Common.Dispatcher

The event dispatcher (`common/CDispatcher`): a table of slots, each free or armed with an event on
a descriptor, and the poll round that evaluates the events that are ready.  A callback may do
anything to the table that the program may do outside of a round, so that a round is a sequence of
steps, with the operations of the callbacks between them.

`staysInTable_iff` says when no slot outside the table is used.  The assertion in
`doEnqueueEvent` compares the capacity with the number of slots before it is increased, and lets
one more event in than there are slots.
-/

namespace Dsi

/-- What breaks the process off: the assertion of `doEnqueueEvent`, and the use of a slot that
the tables do not have. -/
inductive DispatcherFault where
  | assertion
  | overrun
  deriving DecidableEq, Repr

/-- An entry of `fds_table_` with that of `events_table_`; events are numbers.  `fresh` is no
member: it marks an event that was enqueued since `::poll` came back last. -/
structure Slot where
  fd : Int := -1
  events : UInt16 := 0
  revents : UInt16 := 0
  event : Option Nat := none
  fresh : Bool := false
  deriving DecidableEq, Repr

/-- The members of `Dispatcher`; both tables have `capa_` entries. -/
structure Dispatcher where
  capa_ : Nat
  max_ : Nat
  finished_ : Bool
  table : List Slot
  length_table : table.length = capa_

namespace Dispatcher

/-- The constructor. -/
def create (capa : Nat) : Dispatcher :=
  ⟨capa, 0, false, List.replicate capa {}, List.length_replicate⟩

/-- The slot at an index. -/
def slot (i : Nat) (d : Dispatcher) : Except DispatcherFault Slot :=
  match d.table[i]? with
  | some s => .ok s
  | none => .error .overrun

/-- The dispatcher with another slot at an index. -/
def set (i : Nat) (s : Slot) (d : Dispatcher) : Dispatcher :=
  { d with table := d.table.set i s, length_table := by rw [List.length_set, d.length_table] }

/-- The slot at an index is written. -/
def setSlot (i : Nat) (s : Slot) (d : Dispatcher) : Except DispatcherFault Dispatcher :=
  if i < d.table.length then .ok (d.set i s) else .error .overrun

/-- The loops over the first slots: the index of the first one that meets a condition, where `n`
slots are left from `i` on. -/
def findSlot (p : Slot → Bool) (d : Dispatcher) : Nat → Nat → Except DispatcherFault (Option Nat)
  | 0, _ => .ok none
  | n + 1, i => do
      let s ← d.slot i
      if p s then .ok (some i) else findSlot p d n (i + 1)

/-! ## Operations -/

/-- `clearSlot`. -/
def clearSlot (idx : Nat) (d : Dispatcher) : Except DispatcherFault Dispatcher := do
  let s ← d.slot idx
  d.setSlot idx { s with fd := -1, event := none }

/-- `doEnqueueEvent`. -/
def doEnqueueEvent (NDEBUG : Bool) (fd : Int) (evt : Nat) (pollmask : UInt16) (d : Dispatcher) :
    Except DispatcherFault Dispatcher := do
  match ← d.findSlot (·.fd == -1) d.max_ 0 with
  | some pos => d.setSlot pos ⟨fd, pollmask, 0, some evt, true⟩
  | none =>
      if NDEBUG ∨ d.capa_ ≥ d.max_ then
        setSlot d.max_ ⟨fd, pollmask, 0, some evt, true⟩ { d with max_ := d.max_ + 1 }
      else
        .error .assertion

/-- `doRemoveAll`. -/
def doRemoveAll (fd : Int) (d : Dispatcher) : Except DispatcherFault Dispatcher := do
  match ← d.findSlot (·.fd == fd) d.max_ 0 with
  | some i => d.clearSlot i
  | none => .ok d

/-- `removeEvent` for the traits with the mask. -/
def removeEvent (pollmask : UInt16) (fd : Int) (d : Dispatcher) :
    Except DispatcherFault Dispatcher := do
  match ← d.findSlot (fun s => s.fd == fd && s.events &&& pollmask != 0) d.max_ 0 with
  | some i => d.clearSlot i
  | none => .ok d

/-- What the program does to a dispatcher, in a callback or outside of `poll`. -/
inductive Op where
  | enqueueEvent (fd : Int) (evt : Nat) (pollmask : UInt16)
  | removeEvent (pollmask : UInt16) (fd : Int)
  | removeAll (fd : Int)
  | stop
  deriving DecidableEq, Repr

def apply (NDEBUG : Bool) (d : Dispatcher) : Op → Except DispatcherFault Dispatcher
  | .enqueueEvent fd evt pollmask => d.doEnqueueEvent NDEBUG fd evt pollmask
  | .removeEvent pollmask fd => d.removeEvent pollmask fd
  | .removeAll fd => d.doRemoveAll fd
  | .stop => .ok { d with finished_ := true }

/-! ## The poll round -/

/-- How `::poll` comes back: with an error, with nothing ready, or with what is ready. -/
inductive PollResult where
  | error
  | timeout
  | ready (revents : List UInt16)
  deriving DecidableEq, Repr

/-- `::poll` writes `revents` of the first slots; a negative descriptor is never ready. -/
def poll (revents : List UInt16) (d : Dispatcher) : Except DispatcherFault Dispatcher :=
  if d.max_ ≤ d.table.length then
    .ok { d with
      table := d.table.mapIdx fun i s =>
        { s with
          revents := if i < d.max_ then if s.fd < 0 then 0 else revents.getD i 0 else s.revents
          fresh := false }
      length_table := by rw [List.length_mapIdx, d.length_table] }
  else
    .error .overrun

/-- Where the program is: outside of `poll`, before the turn of the loop for a slot, or in the
callback of its event. -/
inductive Phase where
  | idle
  | polling (i : Nat)
  | calling (i : Nat)
  deriving DecidableEq, Repr

end Dispatcher

/-- A dispatcher and where its program is. -/
structure Dispatching extends Dispatcher where
  phase : Dispatcher.Phase

namespace Dispatching

open Dispatcher

/-- What happens: an operation, the begin of `run`, the return of `::poll`, the next turn of the
loop, and the return of a callback. -/
inductive Event where
  | op (o : Op)
  | run
  | poll (result : PollResult)
  | next
  | done (again : Bool)
  deriving DecidableEq, Repr

def create (capa : Nat) : Dispatching := ⟨Dispatcher.create capa, .idle⟩

/-- One step.  What does not happen where the program is leaves everything as it is. -/
def step (NDEBUG : Bool) (m : Dispatching) (e : Event) : Except DispatcherFault Dispatching :=
  match m.phase, e with
  | .polling i, .next =>
      if i < m.max_ ∧ m.finished_ = false then do
        let s ← m.slot i
        .ok { m with phase := if s.fd ≥ 0 ∧ s.revents ≠ 0 then .calling i else .polling (i + 1) }
      else
        .ok { m with phase := .idle }
  | .polling _, _ => .ok m
  | .calling i, .done true => .ok { m with phase := .polling (i + 1) }
  | .calling i, .done false => do
      let s ← m.slot i
      if s.revents ≠ 0 then
        let d ← m.clearSlot i
        .ok ⟨d, .polling (i + 1)⟩
      else
        .ok { m with phase := .polling (i + 1) }
  | phase, .op o => do
      let d ← m.apply NDEBUG o
      .ok ⟨d, phase⟩
  | .idle, .run => .ok { m with finished_ := false }
  | .idle, .poll .error => .ok m
  | .idle, .poll .timeout => do
      let d ← m.poll []
      .ok ⟨d, .idle⟩
  | .idle, .poll (.ready revents) => do
      let d ← m.poll revents
      .ok ⟨d, .polling 0⟩
  | _, _ => .ok m

end Dispatching

/-! ## What the operations do -/

namespace Dispatcher

variable {d : Dispatcher}

/-- The slots in use. -/
def used (d : Dispatcher) : List Slot := d.table.take d.max_

/-- An event that is enqueued finds a free slot among those in use or behind them. -/
def hasRoom (d : Dispatcher) : Bool := d.used.any (·.fd == -1) || decide (d.max_ < d.capa_)

theorem slot_of_lt {i : Nat} (h : i < d.capa_) :
    ∃ s, d.table[i]? = some s ∧ d.slot i = .ok s := by
  have hi : i < d.table.length := d.length_table ▸ h
  refine ⟨d.table[i], List.getElem?_eq_getElem hi, ?_⟩
  rw [slot, List.getElem?_eq_getElem hi]

theorem findSlot_eq (p : Slot → Bool) {n i : Nat} (h : i + n ≤ d.capa_) :
    d.findSlot p n i = .ok ((((d.table.drop i).take n).findIdx? p).map (i + ·)) := by
  induction n generalizing i with
  | zero => simp [findSlot]
  | succ n ih =>
      have hi : i < d.table.length := by rw [d.length_table]; omega
      have hslot : d.slot i = .ok d.table[i] := by rw [slot, List.getElem?_eq_getElem hi]
      rw [findSlot, hslot, List.drop_eq_getElem_cons hi, List.take_succ_cons, List.findIdx?_cons]
      show (if p d.table[i] = true then _ else _) = _
      split
      · simp
      · rw [ih (by omega), Option.map_map]
        congr 2
        funext k
        exact Nat.add_right_comm i 1 k ▸ rfl

/-- The loops over the slots in use. -/
theorem findSlot_used (h : d.max_ ≤ d.capa_) (p : Slot → Bool) :
    d.findSlot p d.max_ 0 = .ok (d.used.findIdx? p) := by
  rw [findSlot_eq p (by omega), List.drop_zero]
  exact congrArg Except.ok (by simp [used])

theorem lt_of_findIdx? {p : Slot → Bool} {i : Nat} (h : d.used.findIdx? p = some i) :
    i < d.max_ ∧ i < d.capa_ := by
  have hi : i < d.used.length := (List.findIdx?_eq_some_iff_getElem.mp h).1
  rw [used, List.length_take, d.length_table] at hi
  omega

theorem clearSlot_of_lt {i : Nat} (h : i < d.capa_) :
    ∃ s, d.table[i]? = some s ∧
      d.clearSlot i = .ok (d.set i { s with fd := -1, event := none }) := by
  obtain ⟨s, hs, hslot⟩ := slot_of_lt h
  refine ⟨s, hs, ?_⟩
  rw [clearSlot, hslot]
  exact if_pos (d.length_table ▸ h)

/-- The number of slots in use only grows, and stays within the capacity; the capacity is fixed. -/
structure Extends (d d' : Dispatcher) : Prop where
  grows : d.max_ ≤ d'.max_
  bound : d'.max_ ≤ d'.capa_
  capa : d'.capa_ = d.capa_

theorem extends_clearSlot (h : d.max_ ≤ d.capa_) {i : Nat} (hi : i < d.capa_) :
    ∃ d', d.clearSlot i = .ok d' ∧ d.Extends d' := by
  obtain ⟨s, -, hclear⟩ := clearSlot_of_lt hi
  exact ⟨_, hclear, Nat.le_refl _, h, rfl⟩

/-- The search for a slot that is then cleared. -/
theorem extends_clearFound (h : d.max_ ≤ d.capa_) (p : Slot → Bool) :
    ∃ d', (d.findSlot p d.max_ 0 >>= fun r =>
      match r with
      | some i => d.clearSlot i
      | none => .ok d) = .ok d' ∧ d.Extends d' := by
  rw [findSlot_used h]
  cases hfind : d.used.findIdx? p with
  | none => exact ⟨d, rfl, Nat.le_refl _, h, rfl⟩
  | some i => exact extends_clearSlot h (lt_of_findIdx? hfind).2

theorem doEnqueueEvent_of_hasRoom (NDEBUG : Bool) (fd : Int) (evt : Nat) (pollmask : UInt16)
    (h : d.max_ ≤ d.capa_) (hroom : d.hasRoom = true) :
    ∃ d', d.doEnqueueEvent NDEBUG fd evt pollmask = .ok d' ∧ d.Extends d' := by
  rw [doEnqueueEvent, findSlot_used h]
  cases hfind : d.used.findIdx? (·.fd == -1) with
  | some pos =>
      refine ⟨_, if_pos ?_, Nat.le_refl _, h, rfl⟩
      rw [d.length_table]
      exact (lt_of_findIdx? hfind).2
  | none =>
      have hnone : d.used.any (·.fd == -1) = false := by
        rw [List.any_eq_false]
        exact fun s hs => by simpa using List.findIdx?_eq_none_iff.mp hfind s hs
      have hlt : d.max_ < d.capa_ := by simpa [hasRoom, hnone] using hroom
      refine ⟨set d.max_ ⟨fd, pollmask, 0, some evt, true⟩ { d with max_ := d.max_ + 1 }, ?_,
        Nat.le_succ d.max_, hlt, rfl⟩
      show (if _ then _ else _) = _
      have hin : d.max_ < d.table.length := by rw [d.length_table]; exact hlt
      rw [if_pos (Or.inr h), setSlot, if_pos hin]

/-- Without room the event is written behind the table; the assertion holds. -/
theorem doEnqueueEvent_of_not_hasRoom (NDEBUG : Bool) (fd : Int) (evt : Nat) (pollmask : UInt16)
    (h : d.max_ ≤ d.capa_) (hroom : d.hasRoom = false) :
    d.doEnqueueEvent NDEBUG fd evt pollmask = .error .overrun := by
  obtain ⟨hany, hge⟩ := Bool.or_eq_false_iff.mp hroom
  have hfind : d.used.findIdx? (·.fd == -1) = none :=
    List.findIdx?_eq_none_iff.mpr fun s hs => by simpa using List.any_eq_false.mp hany s hs
  rw [doEnqueueEvent, findSlot_used h, hfind]
  show (if _ then _ else _) = _
  rw [if_pos (Or.inr h), setSlot, if_neg]
  rw [show d.table.length = d.capa_ from d.length_table]
  exact of_decide_eq_false hge

/-- The operation enqueues nothing, or there is room for it. -/
def hasRoomFor (d : Dispatcher) : Op → Bool
  | .enqueueEvent .. => d.hasRoom
  | _ => true

theorem apply_of_hasRoomFor (NDEBUG : Bool) (h : d.max_ ≤ d.capa_) {o : Op}
    (ho : d.hasRoomFor o = true) :
    ∃ d', d.apply NDEBUG o = .ok d' ∧ d.Extends d' := by
  cases o with
  | enqueueEvent fd evt pollmask => exact doEnqueueEvent_of_hasRoom NDEBUG fd evt pollmask h ho
  | removeEvent pollmask fd => exact extends_clearFound h _
  | removeAll fd => exact extends_clearFound h _
  | stop => exact ⟨_, rfl, Nat.le_refl _, h, rfl⟩

theorem apply_of_not_hasRoomFor (NDEBUG : Bool) (h : d.max_ ≤ d.capa_) {o : Op}
    (ho : d.hasRoomFor o = false) : d.apply NDEBUG o = .error .overrun := by
  cases o with
  | enqueueEvent fd evt pollmask => exact doEnqueueEvent_of_not_hasRoom NDEBUG fd evt pollmask h ho
  | removeEvent pollmask fd => cases ho
  | removeAll fd => cases ho
  | stop => cases ho

theorem extends_poll (h : d.max_ ≤ d.capa_) (revents : List UInt16) :
    ∃ d', d.poll revents = .ok d' ∧ d.Extends d' := by
  rw [poll, if_pos (d.length_table ▸ h)]
  exact ⟨_, rfl, Nat.le_refl _, h, rfl⟩

end Dispatcher

/-! ## Slots outside the table -/

namespace Dispatching

open Dispatcher

variable {m m' : Dispatching}

/-- What a step does, told by where the program is. -/
inductive Turn (NDEBUG : Bool) (m : Dispatching) : Event → Prop where
  | stays {e : Event} (hquiet : ∀ o, e = .op o → ∃ i, m.phase = .polling i)
      (h : m.step NDEBUG e = .ok m) : Turn NDEBUG m e
  | op {o : Op} (hphase : ∀ i, m.phase ≠ .polling i)
      (h : m.step NDEBUG (.op o) = m.apply NDEBUG o >>= fun d => .ok ⟨d, m.phase⟩) :
      Turn NDEBUG m (.op o)
  | run (hphase : m.phase = .idle)
      (h : m.step NDEBUG .run = .ok ⟨{ m.toDispatcher with finished_ := false }, .idle⟩) :
      Turn NDEBUG m .run
  | poll {result : PollResult} {revents : List UInt16} (phase : Phase)
      (hphase : ∀ i, phase ≠ .calling i)
      (h : m.step NDEBUG (.poll result) = m.poll revents >>= fun d => .ok ⟨d, phase⟩) :
      Turn NDEBUG m (.poll result)
  | leave {e : Event} (phase : Phase) (hphase : ∀ i, phase ≠ .calling i) (he : ∀ o, e ≠ .op o)
      (h : m.step NDEBUG e = .ok { m with phase := phase }) : Turn NDEBUG m e
  | visit {i : Nat} (hphase : m.phase = .polling i) (hi : i < m.max_)
      (h : m.step NDEBUG .next = m.slot i >>= fun s => .ok { m with
        phase := if s.fd ≥ 0 ∧ s.revents ≠ 0 then .calling i else .polling (i + 1) }) :
      Turn NDEBUG m .next
  | clear {i : Nat} (hphase : m.phase = .calling i)
      (h : m.step NDEBUG (.done false) = m.slot i >>= fun s =>
        if s.revents ≠ 0 then m.clearSlot i >>= fun d => .ok ⟨d, .polling (i + 1)⟩
        else .ok { m with phase := .polling (i + 1) }) : Turn NDEBUG m (.done false)

theorem turn (NDEBUG : Bool) (m : Dispatching) (e : Event) : Turn NDEBUG m e := by
  obtain ⟨d, phase⟩ := m
  cases phase with
  | idle =>
      cases e with
      | op o => exact .op nofun rfl
      | run => exact .run rfl rfl
      | poll result =>
          cases result with
          | error => exact .stays nofun rfl
          | timeout => exact .poll .idle nofun rfl
          | ready revents => exact .poll (.polling 0) nofun rfl
      | next => exact .stays nofun rfl
      | done again => cases again <;> exact .stays nofun rfl
  | polling i =>
      cases e with
      | op o => exact .stays (fun _ _ => ⟨i, rfl⟩) rfl
      | run => exact .stays nofun rfl
      | poll result => exact .stays nofun rfl
      | next =>
          by_cases hloop : i < d.max_ ∧ d.finished_ = false
          · exact .visit rfl hloop.1 (if_pos hloop)
          · exact .leave .idle nofun nofun (if_neg hloop)
      | done again => cases again <;> exact .stays nofun rfl
  | calling i =>
      cases e with
      | op o => exact .op nofun rfl
      | run => exact .stays nofun rfl
      | poll result => cases result <;> exact .stays nofun rfl
      | next => exact .stays nofun rfl
      | done again =>
          cases again with
          | true => exact .leave (.polling (i + 1)) nofun nofun rfl
          | false => exact .clear rfl rfl

/-- The slots in use are inside the table, and so is the one whose callback runs. -/
structure InTable (m : Dispatching) : Prop where
  bound : m.max_ ≤ m.capa_
  calling : ∀ i, m.phase = .calling i → i < m.max_

/-- The step enqueues nothing, or there is room for the event. -/
def fits (m : Dispatching) : Event → Bool
  | .op o =>
      match m.phase with
      | .polling _ => true
      | _ => m.hasRoomFor o
  | _ => true

theorem inTable_create (capa : Nat) : (create capa).InTable := ⟨Nat.zero_le _, nofun⟩

theorem fits_op {o : Op} (h : ∀ i, m.phase ≠ .polling i) :
    m.fits (.op o) = m.hasRoomFor o := by
  rw [fits]
  cases hphase : m.phase with
  | polling i => exact absurd hphase (h i)
  | idle => rfl
  | calling i => rfl

/-- A step that fits is taken, and leads to another state of the invariant. -/
theorem step_of_fits (NDEBUG : Bool) {e : Event} (h : m.InTable) (he : m.fits e = true) :
    ∃ m', m.step NDEBUG e = .ok m' ∧ m'.InTable ∧ m'.capa_ = m.capa_ := by
  have hbound := h.bound
  cases turn NDEBUG m e with
  | stays _ hstep => exact ⟨m, hstep, h, rfl⟩
  | op hphase hstep =>
      obtain ⟨d, happly, hd⟩ := apply_of_hasRoomFor NDEBUG hbound (fits_op hphase ▸ he)
      rw [hstep, happly]
      exact ⟨_, rfl, ⟨hd.bound, fun i hi => Nat.lt_of_lt_of_le (h.calling i hi) hd.grows⟩, hd.capa⟩
  | run hphase hstep => exact ⟨_, hstep, ⟨hbound, nofun⟩, rfl⟩
  | @poll result revents phase hphase hstep =>
      obtain ⟨d, hpoll, hd⟩ := extends_poll hbound revents
      rw [hstep, hpoll]
      exact ⟨_, rfl, ⟨hd.bound, fun i hi => absurd hi (hphase i)⟩, hd.capa⟩
  | leave phase hphase _ hstep => exact ⟨_, hstep, ⟨hbound, fun i hi => absurd hi (hphase i)⟩, rfl⟩
  | @visit i hphase hi hstep =>
      obtain ⟨s, -, hslot⟩ := @slot_of_lt m.toDispatcher i (by omega)
      rw [hstep, hslot]
      refine ⟨_, rfl, ⟨hbound, fun j hj => ?_⟩, rfl⟩
      dsimp only at hj
      split at hj
      · cases hj
        exact hi
      · cases hj
  | @clear i hphase hstep =>
      have hi := Nat.lt_of_lt_of_le (h.calling i hphase) hbound
      obtain ⟨s, -, hslot⟩ := slot_of_lt hi
      obtain ⟨d, hclear, hd⟩ := extends_clearSlot hbound hi
      rw [hstep, hslot]
      show ∃ m', (if s.revents ≠ 0 then _ else _) = _ ∧ _
      split
      · rw [hclear]
        exact ⟨_, rfl, ⟨hd.bound, nofun⟩, hd.capa⟩
      · exact ⟨_, rfl, ⟨hbound, nofun⟩, rfl⟩

/-- A step that does not fit writes behind the table. -/
theorem step_of_not_fits (NDEBUG : Bool) {e : Event} (h : m.InTable) (he : m.fits e = false) :
    m.step NDEBUG e = .error .overrun := by
  cases e with
  | op o =>
      cases turn NDEBUG m (.op o) with
      | stays hquiet hstep =>
          obtain ⟨i, hphase⟩ := hquiet o rfl
          rw [fits, hphase] at he
          cases he
      | op hphase hstep =>
          rw [hstep, apply_of_not_hasRoomFor NDEBUG h.bound (fits_op hphase ▸ he)]
          rfl
      | leave phase hphase hno hstep => exact absurd rfl (hno o)
  | run => cases he
  | poll result => cases he
  | next => cases he
  | done again => cases he

/-- No step of the run uses a slot outside of the table, and no state of it has more slots in use
than there are. -/
structure StaysInTable (NDEBUG : Bool) (capa : Nat) (es : List Event) : Prop where
  inside : Partial.run (step NDEBUG) (create capa) es ≠ .error .overrun
  bound : ∀ es' m, es' <+: es → Partial.run (step NDEBUG) (create capa) es' = .ok m →
    m.max_ ≤ capa

theorem inTable_run (NDEBUG : Bool) {es : List Event} (h : m.InTable)
    (hrun : Partial.run (step NDEBUG) m es = .ok m') : m'.InTable ∧ m'.capa_ = m.capa_ := by
  induction es generalizing m with
  | nil => exact Except.ok.inj hrun ▸ ⟨h, rfl⟩
  | cons e es ih =>
      obtain ⟨m₁, hstep, hrest⟩ := Partial.bind_eq_ok hrun
      cases he : m.fits e with
      | false =>
          rw [step_of_not_fits NDEBUG h he] at hstep
          cases hstep
      | true =>
          obtain ⟨m₂, hstep', h₂, hcapa₂⟩ := step_of_fits NDEBUG h he
          obtain rfl := Except.ok.inj (hstep.symm.trans hstep')
          obtain ⟨h', hcapa'⟩ := ih h₂ hrest
          exact ⟨h', hcapa'.trans hcapa₂⟩

theorem run_of_along (NDEBUG : Bool) {es : List Event} (h : m.InTable)
    (ha : Partial.Along (step NDEBUG) (fun m e => m.fits e = true) m es) :
    ∃ m', Partial.run (step NDEBUG) m es = .ok m' ∧ m'.InTable ∧ m'.capa_ = m.capa_ := by
  induction es generalizing m with
  | nil => exact ⟨m, rfl, h, rfl⟩
  | cons e es ih =>
      obtain ⟨m₁, hstep, h₁, hcapa₁⟩ := step_of_fits NDEBUG h ha.1
      obtain ⟨m₂, hrun, h₂, hcapa₂⟩ := ih h₁ (ha.tail hstep)
      exact ⟨m₂, (Partial.run_cons_of_ok hstep es).trans hrun, h₂, hcapa₂.trans hcapa₁⟩

theorem along_of_run (NDEBUG : Bool) {es : List Event} (h : m.InTable)
    (hrun : Partial.run (step NDEBUG) m es ≠ .error .overrun) :
    Partial.Along (step NDEBUG) (fun m e => m.fits e = true) m es := by
  induction es generalizing m with
  | nil => trivial
  | cons e es ih =>
      cases he : m.fits e with
      | false =>
          rw [Partial.run, step_of_not_fits NDEBUG h he] at hrun
          exact absurd rfl hrun
      | true =>
          obtain ⟨m₁, hstep, h₁, -⟩ := step_of_fits NDEBUG h he
          rw [Partial.run_cons_of_ok hstep] at hrun
          refine ⟨he, ?_⟩
          rw [hstep]
          exact ih h₁ hrun

/-- The slots used in a run are those of the table exactly when every event that is enqueued finds
a free slot or an unused one. -/
theorem staysInTable_iff (NDEBUG : Bool) (capa : Nat) (es : List Event) :
    StaysInTable NDEBUG capa es ↔
      Partial.Along (step NDEBUG) (fun m e => m.fits e = true) (create capa) es := by
  constructor
  · exact fun h => along_of_run NDEBUG (inTable_create capa) h.inside
  · intro ha
    have hrun := run_of_along NDEBUG (inTable_create capa) ha
    constructor
    · obtain ⟨m, hm, -⟩ := hrun
      rw [hm]
      exact nofun
    · intro es' m _ hm
      obtain ⟨hm', hcapa⟩ := inTable_run NDEBUG (inTable_create capa) hm
      exact Nat.le_trans hm'.bound (Nat.le_of_eq hcapa)

/-- One slot, and two events: the second is written behind the table, with the assertion compiled
in. -/
theorem not_staysInTable_second :
    ¬ StaysInTable false 1 [.op (.enqueueEvent 3 0 1), .op (.enqueueEvent 4 1 1)] :=
  fun h => h.inside (by rfl)

end Dispatching

end Dsi
