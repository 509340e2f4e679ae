import Dsi.Broker.State
import Dsi.Lib.Partial
import Mathlib.Data.List.InsertIdx

/-!
# Dsi.Broker.NotificationPool

The pool entries in the vector of `NotificationPool`.  The state of an entry and the variant
beside it are written by two functions, and both `find`s read the variant through a pointer that
is null for the alternative it does not hold; a read through null breaks off.

* `entries_follow_machine`: whatever is done with a pool, the entries change along the documented
  transitions only, hold the alternative that goes with their state, and null is never read.
-/

namespace Dsi

/-- What an operation of a pool breaks off with: a position outside the vector, and a read
through a null pointer. -/
inductive PoolFault where
  | outOfRange
  | nullPointer
  deriving DecidableEq, Repr

/-- The documented transitions, from `none` those of a new entry. -/
inductive EPoolState.Documented : Option EPoolState → EPoolState → Prop where
  | initDeferred : Documented none .STATE_DEFERRED
  | initConnecting : Documented none .STATE_CONNECTING
  | initMonitor : Documented none .STATE_MONITOR_DISCONNECT
  | connecting : Documented (some .STATE_DEFERRED) .STATE_CONNECTING
  | connected : Documented (some .STATE_CONNECTING) .STATE_CONNECTED
  | precaching : Documented (some .STATE_CONNECTED) .STATE_PRECACHING
  | monitor : Documented (some .STATE_PRECACHING) .STATE_MONITOR_DISCONNECT
  | deferredMonitor : Documented (some .STATE_DEFERRED) .STATE_MONITOR_DISCONNECT

open EPoolState

/-! ## Entries -/

namespace NotificationPoolEntry

/-- `getInterfaceDescription`, which is null beside a server ID. -/
def getInterfaceDescription (np : NotificationPoolEntry) : Option InterfaceDescription :=
  match np.mDataSwitch with
  | .ifDescription d => some d
  | .serverID _ => none

/-- `getServerID`, which is null beside an interface description. -/
def getServerID (np : NotificationPoolEntry) : Option SPartyID :=
  match np.mDataSwitch with
  | .ifDescription _ => none
  | .serverID id => some id

/-- What `setState(EPoolState)` returns. -/
def setStateAccepts (newState : EPoolState) (np : NotificationPoolEntry) : Bool :=
  match np.mPoolState, newState with
  | .STATE_DEFERRED, .STATE_CONNECTING => true
  | .STATE_CONNECTING, .STATE_CONNECTED => true
  | .STATE_CONNECTED, .STATE_PRECACHING => true
  | _, _ => false

/-- What `setState(SPartyID)` returns. -/
def setStateServerAccepts (np : NotificationPoolEntry) : Bool :=
  !(np.mPoolState ≠ .STATE_DEFERRED && np.mPoolState ≠ .STATE_PRECACHING)

/-- The test of `find(InterfaceDescription, extendedSearch)`. -/
def testDescription (d : InterfaceDescription) (extendedSearch : Bool)
    (np : NotificationPoolEntry) : Except PoolFault Bool :=
  if (extendedSearch && np.mPoolState != .STATE_MONITOR_DISCONNECT) ||
      np.mPoolState == .STATE_CONNECTING then
    match np.getInterfaceDescription with
    | some descr => .ok (descr == d)
    | none => .error .nullPointer
  else .ok false

/-- The test of `find(SPartyID)`. -/
def testServer (id : SPartyID) (np : NotificationPoolEntry) : Except PoolFault Bool :=
  if np.mPoolState == .STATE_MONITOR_DISCONNECT then
    match np.getServerID with
    | some s => .ok (SPartyID.opEq s id)
    | none => .error .nullPointer
  else .ok false

/-- The test of `find(poolID)`. -/
def testPoolID (poolID : UInt32) (np : NotificationPoolEntry) : Except PoolFault Bool :=
  .ok (np.poolID = poolID)

end NotificationPoolEntry

/-! ## The vector -/

/-- `NotificationPool` with its vector in the order of the source, and the counter of the pool
IDs. -/
structure PoolVector where
  mEntries : List NotificationPoolEntry := []
  mTotalCounter : UInt32 := 0
  nextPoolID : UInt32 := 100000
  deriving DecidableEq, Repr

namespace PoolVector

/-- `mEntries.push_back` of a new entry. -/
def push (s : DataSwitch) (st : EPoolState) (v : PoolVector) : PoolVector where
  mEntries := v.mEntries ++ [{ poolID := v.nextPoolID, mDataSwitch := s, mPoolState := st }]
  mTotalCounter := v.mTotalCounter + 1
  nextPoolID := v.nextPoolID + 1

/-- `add(InterfaceDescription, isDeferredPool)`. -/
def add (d : InterfaceDescription) (isDeferredPool : Bool) : PoolVector → PoolVector :=
  push (.ifDescription d) (if isDeferredPool then .STATE_DEFERRED else .STATE_CONNECTING)

/-- `add(SPartyID)`. -/
def addServer (id : SPartyID) : PoolVector → PoolVector :=
  push (.serverID id) .STATE_MONITOR_DISCONNECT

/-- The loop of the `find`s, with the number of entries that are still to be looked at. -/
def findLoop (test : NotificationPoolEntry → Except PoolFault Bool)
    (l : List NotificationPoolEntry) : Nat → Except PoolFault Int32
  | 0 => .ok (-1)
  | n + 1 =>
      match l[n]? with
      | none => .error .outOfRange
      | some np =>
          match test np with
          | .error e => .error e
          | .ok true => .ok (Int32.ofNat n)
          | .ok false => findLoop test l n

/-- How many entries the loop looks at: it starts with `int32_t(size() - 1)`. -/
def looked (l : List NotificationPoolEntry) : Nat :=
  ((Int32.ofInt ((l.length : Int) - 1)).toInt + 1).toNat

/-- The `find`s. -/
def findBy (test : NotificationPoolEntry → Except PoolFault Bool) (v : PoolVector) :
    Except PoolFault Int32 := findLoop test v.mEntries (looked v.mEntries)

/-- `find(InterfaceDescription, extendedSearch)`. -/
def find (d : InterfaceDescription) (extendedSearch : Bool) : PoolVector → Except PoolFault Int32 :=
  findBy (·.testDescription d extendedSearch)

/-- `find(SPartyID)`. -/
def findServer (id : SPartyID) : PoolVector → Except PoolFault Int32 := findBy (·.testServer id)

/-- `find(poolID)`. -/
def findPool (poolID : UInt32) : PoolVector → Except PoolFault Int32 :=
  findBy (·.testPoolID poolID)

/-- `removePool`. -/
def removePool (poolID : UInt32) (v : PoolVector) : Except PoolFault PoolVector :=
  match v.findPool poolID with
  | .error e => .error e
  | .ok pos =>
      if pos = -1 then .ok v
      else .ok { v with mEntries := v.mEntries.eraseIdx pos.toInt.toNat }

/-- What a function does with the entry at a position. -/
def withEntry (pos : Nat) (f : NotificationPoolEntry → NotificationPoolEntry) (v : PoolVector) :
    Except PoolFault PoolVector :=
  match v.mEntries[pos]? with
  | none => .error .outOfRange
  | some np => .ok { v with mEntries := v.mEntries.set pos (f np) }

/-- `NotificationPoolEntry::attach`, as far as the pool is concerned. -/
def attach (pos : Nat) : PoolVector → Except PoolFault PoolVector :=
  withEntry pos fun np => { np with mRefCount := np.mRefCount + 1 }

/-- `NotificationPoolEntry::detach`, as far as the pool is concerned. -/
def detach (pos : Nat) (v : PoolVector) : Except PoolFault PoolVector :=
  match v.mEntries[pos]? with
  | none => .error .outOfRange
  | some np =>
      let np := { np with mRefCount := np.mRefCount - 1 }
      let v := { v with mEntries := v.mEntries.set pos np }
      if np.mRefCount = 0 then v.removePool np.poolID else .ok v

/-- The operations of a pool and of its entries. -/
inductive Op where
  | add (d : InterfaceDescription) (isDeferredPool : Bool)
  | addServer (id : SPartyID)
  | setState (pos : Nat) (newState : EPoolState)
  | setStateServer (pos : Nat) (id : SPartyID)
  | attach (pos : Nat)
  | detach (pos : Nat)
  | removePool (poolID : UInt32)
  | clear
  | find (d : InterfaceDescription) (extendedSearch : Bool)
  | findServer (id : SPartyID)
  | findPool (poolID : UInt32)

/-- One operation. -/
def step (v : PoolVector) : Op → Except PoolFault PoolVector
  | .add d isDeferredPool => .ok (v.add d isDeferredPool)
  | .addServer id => .ok (v.addServer id)
  | .setState pos newState => v.withEntry pos (·.setState newState)
  | .setStateServer pos id => v.withEntry pos (·.setStateServer id)
  | .attach pos => v.attach pos
  | .detach pos => v.detach pos
  | .removePool poolID => v.removePool poolID
  | .clear => .ok { v with mEntries := [] }
  | .find d extendedSearch => (v.find d extendedSearch).map fun _ => v
  | .findServer id => (v.findServer id).map fun _ => v
  | .findPool poolID => (v.findPool poolID).map fun _ => v

/-! ## What is to hold -/

/-- The IDs and the states of the entries. -/
def states (v : PoolVector) : List (UInt32 × EPoolState) :=
  v.mEntries.map fun np => (np.poolID, np.mPoolState)

/-- What an operation may do to them: one entry comes, changes or goes, or all go. -/
inductive Evolves (l : List (UInt32 × EPoolState)) : List (UInt32 × EPoolState) → Prop where
  | same : Evolves l l
  | added (id : UInt32) {s : EPoolState} (h : Documented none s) : Evolves l (l ++ [(id, s)])
  | changed {pos : Nat} {id : UInt32} {s s' : EPoolState} (hpos : l[pos]? = some (id, s))
      (h : Documented (some s) s') : Evolves l (l.set pos (id, s'))
  | removed (pos : Nat) : Evolves l (l.eraseIdx pos)
  | cleared : Evolves l []

/-- An operation that does not break off does nothing else. -/
def StepEvolves (v : PoolVector) (op : Op) : Prop :=
  ∀ v', v.step op = .ok v' → Evolves v.states v'.states

end PoolVector

/-- An entry holds a server ID if it monitors a server, and else an interface description. -/
structure NotificationPoolEntry.Switched (np : NotificationPoolEntry) : Prop where
  server : np.getServerID.isSome = true ↔ np.mPoolState = .STATE_MONITOR_DISCONNECT
  description : np.getInterfaceDescription.isSome = true ↔
    np.mPoolState ≠ .STATE_MONITOR_DISCONNECT

/-! ## One entry -/

namespace NotificationPoolEntry

variable {np : NotificationPoolEntry}

/-- `setState(EPoolState)` follows the documented transitions that it is asked for. -/
theorem setStateAccepts_iff {newState : EPoolState} : np.setStateAccepts newState = true ↔
    newState ≠ .STATE_MONITOR_DISCONNECT ∧ Documented (some np.mPoolState) newState := by
  constructor
  · intro h
    unfold setStateAccepts at h
    split at h
    case h_1 hs => rw [hs]; exact ⟨by decide, .connecting⟩
    case h_2 hs => rw [hs]; exact ⟨by decide, .connected⟩
    case h_3 hs => rw [hs]; exact ⟨by decide, .precaching⟩
    case h_4 => cases h
  · rintro ⟨hne, h⟩
    unfold setStateAccepts
    generalize np.mPoolState = s at h
    cases h with
    | connecting => rfl
    | connected => rfl
    | precaching => rfl
    | monitor => exact absurd rfl hne
    | deferredMonitor => exact absurd rfl hne

/-- A state is set if the switch accepts it. -/
theorem setState_eq (newState : EPoolState) (np : NotificationPoolEntry) :
    np.setState newState =
      if np.setStateAccepts newState then { np with mPoolState := newState } else np := by
  unfold setState setStateAccepts
  generalize np.mPoolState = s
  cases s <;> cases newState <;> rfl

/-- `setState(SPartyID)` follows the documented transitions to the last state. -/
theorem setStateServerAccepts_iff : np.setStateServerAccepts = true ↔
    Documented (some np.mPoolState) .STATE_MONITOR_DISCONNECT := by
  unfold setStateServerAccepts
  constructor
  · intro h
    have hs : np.mPoolState = .STATE_DEFERRED ∨ np.mPoolState = .STATE_PRECACHING :=
      by
      simpa using h
    rcases hs with hs | hs
    · rw [hs]; exact .deferredMonitor
    · rw [hs]; exact .monitor
  · generalize np.mPoolState = s
    intro h
    cases h <;> rfl

/-- So is the one for a server. -/
theorem setStateServer_eq (id : SPartyID) (np : NotificationPoolEntry) :
    np.setStateServer id =
      if np.setStateServerAccepts then
        { np with mPoolState := .STATE_MONITOR_DISCONNECT, mDataSwitch := .serverID id }
      else np := by
  unfold setStateServer setStateServerAccepts
  by_cases h : np.mPoolState ≠ .STATE_DEFERRED ∧ np.mPoolState ≠ .STATE_PRECACHING
  · simp [h]
  · rw [if_neg h, if_pos (by simpa [Decidable.or_iff_not_imp_left] using h)]

namespace Switched

/-- The link depends on the state and the variant only. -/
theorem congr (h : np.Switched) {np' : NotificationPoolEntry}
    (hstate : np'.mPoolState = np.mPoolState) (hdata : np'.mDataSwitch = np.mDataSwitch) :
    np'.Switched where
  server := by rw [getServerID, hdata, hstate]; exact h.server
  description := by rw [getInterfaceDescription, hdata, hstate]; exact h.description

/-- A pool for an interface has a description. -/
theorem ofDescription (hdata : ∃ d, np.mDataSwitch = .ifDescription d)
    (hstate : np.mPoolState ≠ .STATE_MONITOR_DISCONNECT) : np.Switched := by
  obtain ⟨d, hd⟩ := hdata
  exact ⟨by simp [getServerID, hd, hstate], by simp [getInterfaceDescription, hd, hstate]⟩

/-- A pool for a server has its ID. -/
theorem ofServer (hdata : ∃ id, np.mDataSwitch = .serverID id)
    (hstate : np.mPoolState = .STATE_MONITOR_DISCONNECT) : np.Switched := by
  obtain ⟨id, hid⟩ := hdata
  exact ⟨by simp [getServerID, hid, hstate], by simp [getInterfaceDescription, hid, hstate]⟩

/-- A state that is set keeps the link. -/
theorem setState (h : np.Switched) (newState : EPoolState) : (np.setState newState).Switched := by
  rw [setState_eq]
  split
  · next haccepts =>
    obtain ⟨hnew, hdocumented⟩ := setStateAccepts_iff.mp haccepts
    have hold : np.mPoolState ≠ .STATE_MONITOR_DISCONNECT := by
      intro hs
      rw [hs] at hdocumented
      cases hdocumented
    refine ⟨?_, ?_⟩
    · exact iff_of_false (fun hs => hold (h.server.mp hs)) hnew
    · exact iff_of_true (h.description.mpr hold) hnew
  · exact h

/-- So does the one for a server. -/
theorem setStateServer (h : np.Switched) (id : SPartyID) : (np.setStateServer id).Switched := by
  rw [setStateServer_eq]
  split
  · exact ofServer ⟨id, rfl⟩ rfl
  · exact h

/-- The test for an interface reads what is there. -/
theorem testDescription_eq (h : np.Switched) (d : InterfaceDescription) (extendedSearch : Bool) :
    np.testDescription d extendedSearch = .ok (np.isFor d extendedSearch) := by
  unfold testDescription isFor
  split
  · next hlook =>
    have hstate : np.mPoolState ≠ .STATE_MONITOR_DISCONNECT := by
      intro hs
      rw [hs] at hlook
      cases extendedSearch <;> exact absurd hlook (by decide)
    have hsome := h.description.mpr hstate
    rw [hlook, Bool.true_and]
    unfold getInterfaceDescription at hsome ⊢
    generalize np.mDataSwitch = s at hsome ⊢
    cases s with
    | ifDescription descr =>
        have hsame : (descr == d) = (DataSwitch.ifDescription descr == .ifDescription d) := by
          rw [Bool.eq_iff_iff, beq_iff_eq, beq_iff_eq, DataSwitch.ifDescription.injEq]
        exact congrArg Except.ok hsame
    | serverID id => cases hsome
  · next hlook => rw [Bool.eq_false_iff.mpr hlook, Bool.false_and]

/-- So does the test for a server. -/
theorem testServer_eq (h : np.Switched) (id : SPartyID) :
    np.testServer id = .ok (np.monitors id) := by
  unfold testServer monitors
  split
  · next hlook =>
    have hsome := h.server.mpr (by simpa using hlook)
    rw [hlook, Bool.true_and]
    unfold getServerID at hsome ⊢
    generalize np.mDataSwitch = s at hsome ⊢
    cases s with
    | ifDescription d => cases hsome
    | serverID s => rfl
  · next hlook => rw [Bool.eq_false_iff.mpr hlook, Bool.false_and]

end Switched

end NotificationPoolEntry

/-! ## The loop of the finds -/

namespace PoolVector

open NotificationPoolEntry

variable {v v' : PoolVector}

/-- Every entry of the vector holds what goes with its state. -/
def Entries (v : PoolVector) : Prop := ∀ np ∈ v.mEntries, np.Switched

/-- The index is an `int32_t`, so in a longer vector fewer entries are looked at, but no others. -/
theorem looked_le (l : List NotificationPoolEntry) : looked l ≤ l.length := by
  have hle : ((l.length : Int) - 1).bmod Int32.size ≤ (l.length : Int) - 1 := by
    have hsize : (Int32.size : Int) = 2 ^ 32 := rfl
    rw [Int.bmod_def, hsize]
    split <;> omega
  rw [looked, Int32.toInt_ofInt]
  omega

/-- The index reaches the whole of a vector of up to 2 ^ 31 pools. -/
theorem looked_eq {l : List NotificationPoolEntry} (h : l.length ≤ 2 ^ 31) :
    looked l = l.length := by
  unfold looked
  rw [Int32.toInt_ofInt_of_le (by omega) (by omega)]
  omega

/-- What was found, with the positions counted from the back of the first `n` entries. -/
def fromBack (n : Nat) : Option Nat → Int32
  | none => -1
  | some i => Int32.ofNat (n - 1 - i)

/-- A loop whose test never breaks off finds the last entry that passes it. -/
theorem findLoop_eq {test : NotificationPoolEntry → Except PoolFault Bool}
    {p : NotificationPoolEntry → Bool} {l : List NotificationPoolEntry}
    (htest : ∀ np ∈ l, test np = .ok (p np)) {n : Nat} (hn : n ≤ l.length) :
    findLoop test l n = .ok (fromBack n ((l.take n).reverse.findIdx? p)) := by
  induction n with
  | zero => rw [findLoop, List.take_zero]; rfl
  | succ n ih =>
      have hlt : n < l.length := hn
      have hget : l[n]? = some l[n] := List.getElem?_eq_getElem hlt
      rw [findLoop, hget]
      dsimp only
      rw [htest _ (List.getElem_mem hlt), List.take_add_one, hget, Option.toList_some,
        List.reverse_append, List.reverse_singleton, List.singleton_append, List.findIdx?_cons]
      cases hp : p l[n] with
      | true => rfl
      | false =>
          dsimp only
          rw [ih (Nat.le_of_lt hlt), if_neg Bool.false_ne_true]
          cases (l.take n).reverse.findIdx? p with
          | none => rfl
          | some i =>
              simp only [fromBack, Option.map_some, Except.ok.injEq]
              congr 1
              omega

/-- The search goes from the back as far as the index reaches. -/
theorem findBy_eq {test : NotificationPoolEntry → Except PoolFault Bool}
    {p : NotificationPoolEntry → Bool} (htest : ∀ np ∈ v.mEntries, test np = .ok (p np)) :
    v.findBy test = .ok (fromBack (looked v.mEntries)
      ((v.mEntries.take (looked v.mEntries)).reverse.findIdx? p)) :=
  findLoop_eq htest (looked_le _)

/-- So does the search for an ID. -/
theorem findPool_eq (poolID : UInt32) (v : PoolVector) :
    v.findPool poolID = .ok (fromBack (looked v.mEntries)
      ((v.mEntries.take (looked v.mEntries)).reverse.findIdx? (·.poolID = poolID))) :=
  findBy_eq fun _ _ => rfl

/-! ## One operation -/

/-- A new pool goes to the back. -/
theorem entries_push (h : v.Entries) {s : DataSwitch} {st : EPoolState}
    (hnew : ({ poolID := v.nextPoolID, mDataSwitch := s, mPoolState := st } :
      NotificationPoolEntry).Switched) : (v.push s st).Entries := by
  intro np hnp
  cases List.mem_append.mp hnp with
  | inl hold => exact h np hold
  | inr hlast => exact List.mem_singleton.mp hlast ▸ hnew

/-- With the next ID and its state. -/
theorem states_push (s : DataSwitch) (st : EPoolState) (v : PoolVector) :
    (v.push s st).states = v.states ++ [(v.nextPoolID, st)] := by
  rw [states, push, List.map_append]
  rfl

/-- A pool is removed from its place, if there is one. -/
theorem exists_removePool (poolID : UInt32) (v : PoolVector) :
    ∃ v', v.removePool poolID = .ok v' := by
  unfold removePool
  rw [findPool_eq]
  dsimp only
  split
  · exact ⟨_, rfl⟩
  · exact ⟨_, rfl⟩

/-- A removal takes one pool at most. -/
theorem removePool_eq {poolID : UInt32} (h : v.removePool poolID = .ok v') :
    v'.mEntries = v.mEntries ∨ ∃ pos, v'.mEntries = v.mEntries.eraseIdx pos := by
  unfold removePool at h
  rw [findPool_eq] at h
  dsimp only at h
  split at h
  · exact Or.inl (congrArg mEntries (Except.ok.inj h).symm)
  · exact Or.inr ⟨_, congrArg mEntries (Except.ok.inj h).symm⟩

/-- A write through the index changes the pool there. -/
theorem withEntry_eq {pos : Nat} {f : NotificationPoolEntry → NotificationPoolEntry}
    (h : v.withEntry pos f = .ok v') :
    ∃ np, v.mEntries[pos]? = some np ∧ v'.mEntries = v.mEntries.set pos (f np) := by
  unfold withEntry at h
  split at h
  · cases h
  · next np hget => exact ⟨np, hget, congrArg mEntries (Except.ok.inj h).symm⟩

/-- What an operation does to the entries. -/
inductive Writes (v v' : PoolVector) : Prop where
  | same (h : v'.mEntries = v.mEntries)
  | pushed (np : NotificationPoolEntry) (h : v'.mEntries = v.mEntries ++ [np])
      (hswitched : np.Switched) (hstate : Documented none np.mPoolState)
  | set (pos : Nat) (np np' : NotificationPoolEntry) (hget : v.mEntries[pos]? = some np)
      (h : v'.mEntries = v.mEntries.set pos np') (hid : np'.poolID = np.poolID)
      (hswitched : np.Switched → np'.Switched)
      (hstate : np'.mPoolState = np.mPoolState ∨ Documented (some np.mPoolState) np'.mPoolState)
  | removed (w : PoolVector) (pos : Nat) (hstates : w.states = v.states)
      (hentries : v.Entries → w.Entries) (h : v'.mEntries = w.mEntries.eraseIdx pos)
  | cleared (h : v'.mEntries = [])

/-- A pool with its link is written. -/
theorem entries_set (h : v.Entries) {pos : Nat} {np : NotificationPoolEntry}
    (hnp : np.Switched) : ({ v with mEntries := v.mEntries.set pos np } : PoolVector).Entries := by
  intro np' hmem
  cases List.mem_or_eq_of_mem_set hmem with
  | inl hold => exact h np' hold
  | inr hnew => exact hnew ▸ hnp

/-- Its state is the only one that may change. -/
theorem states_set {pos : Nat} {np : NotificationPoolEntry} :
    ({ v with mEntries := v.mEntries.set pos np } : PoolVector).states =
      v.states.set pos (np.poolID, np.mPoolState) := List.map_set

theorem set_of_getElem? {α : Type} {l : List α} {pos : Nat} {x : α} (h : l[pos]? = some x) :
    l.set pos x = l := by
  obtain ⟨hlt, rfl⟩ := List.getElem?_eq_some_iff.mp h
  exact List.set_getElem_self hlt

/-- An entry that keeps its ID and its state. -/
theorem states_set_of_same {pos : Nat} {np np' : NotificationPoolEntry}
    (hget : v.mEntries[pos]? = some np) (hid : np'.poolID = np.poolID)
    (hstate : np'.mPoolState = np.mPoolState) :
    ({ v with mEntries := v.mEntries.set pos np' } : PoolVector).states = v.states := by
  have hsame : v.states[pos]? = some (np'.poolID, np'.mPoolState) := by
    rw [states, List.getElem?_map, hget, hid, hstate]
    rfl
  rw [states_set]
  exact set_of_getElem? hsame

/-- What an operation that does not break off does to the entries. -/
theorem writes_step {op : Op} (h : v.step op = .ok v') : Writes v v' := by
  have hread {r : Except PoolFault Int32} (h : r.map (fun _ => v) = .ok v') : Writes v v' := by
    cases r with
    | error e => cases h
    | ok pos => exact .same (congrArg mEntries (Except.ok.inj h).symm)
  cases op with
  | add d isDeferredPool =>
      obtain rfl := Except.ok.inj h
      cases isDeferredPool with
      | true => exact .pushed _ rfl (.ofDescription ⟨d, rfl⟩ nofun) .initDeferred
      | false => exact .pushed _ rfl (.ofDescription ⟨d, rfl⟩ nofun) .initConnecting
  | addServer id =>
      obtain rfl := Except.ok.inj h
      exact .pushed _ rfl (.ofServer ⟨id, rfl⟩ rfl) .initMonitor
  | setState pos newState =>
      obtain ⟨np, hget, hset⟩ := withEntry_eq h
      refine .set pos np _ hget hset ?_ (fun hnp => hnp.setState newState) ?_
      · rw [setState_eq]
        split <;> rfl
      · rw [setState_eq]
        split
        · next haccepts => exact Or.inr (setStateAccepts_iff.mp haccepts).2
        · exact Or.inl rfl
  | setStateServer pos id =>
      obtain ⟨np, hget, hset⟩ := withEntry_eq h
      refine .set pos np _ hget hset ?_ (fun hnp => hnp.setStateServer id) ?_
      · rw [setStateServer_eq]
        split <;> rfl
      · rw [setStateServer_eq]
        split
        · next haccepts => exact Or.inr (setStateServerAccepts_iff.mp haccepts)
        · exact Or.inl rfl
  | attach pos =>
      obtain ⟨np, hget, hset⟩ := withEntry_eq h
      exact .set pos np _ hget hset rfl (fun hnp => hnp.congr rfl rfl) (Or.inl rfl)
  | detach pos =>
      rw [step, detach] at h
      split at h
      · cases h
      · next np hget =>
        dsimp only at h
        split at h
        · cases removePool_eq h with
          | inl hsame =>
              exact .set pos np _ hget hsame rfl (fun hnp => hnp.congr rfl rfl) (Or.inl rfl)
          | inr hremoved =>
              obtain ⟨i, hi⟩ := hremoved
              let np' := { np with mRefCount := np.mRefCount - 1 }
              refine .removed { v with mEntries := v.mEntries.set pos np' } i ?_ (fun hv => ?_) hi
              · exact states_set_of_same hget rfl rfl
              · exact entries_set hv ((hv np (List.mem_of_getElem? hget)).congr rfl rfl)
        · obtain rfl := Except.ok.inj h
          exact .set pos np _ hget rfl rfl (fun hnp => hnp.congr rfl rfl) (Or.inl rfl)
  | removePool poolID =>
      cases removePool_eq h with
      | inl hsame => exact .same hsame
      | inr hremoved =>
          obtain ⟨pos, hpos⟩ := hremoved
          exact .removed v pos rfl id hpos
  | clear =>
      obtain rfl := Except.ok.inj h
      exact .cleared rfl
  | find => exact hread h
  | findServer => exact hread h
  | findPool => exact hread h

namespace Writes

/-- A write keeps the links. -/
theorem entries (hw : Writes v v') (hv : v.Entries) : v'.Entries := by
  cases hw with
  | same h => exact fun np hnp => hv np (h ▸ hnp)
  | pushed np h hswitched _ =>
      intro np' hnp'
      rw [h, List.mem_append, List.mem_singleton] at hnp'
      cases hnp' with
      | inl hold => exact hv np' hold
      | inr hnew => exact hnew ▸ hswitched
  | set pos np np' hget h _ hswitched _ =>
      have hset : ({ v with mEntries := v.mEntries.set pos np' } : PoolVector).Entries :=
        entries_set hv (hswitched (hv np (List.mem_of_getElem? hget)))
      exact fun np hnp => hset np (h ▸ hnp)
  | removed w pos _ hentries h =>
      exact fun np hnp => hentries hv np (List.eraseIdx_subset (h ▸ hnp))
  | cleared h => exact fun np hnp => absurd (h ▸ hnp) List.not_mem_nil

/-- And moves the states along the arrows. -/
theorem evolves (hw : Writes v v') : Evolves v.states v'.states := by
  cases hw with
  | same h =>
      have hsame : v'.states = v.states := by rw [states, h, states]
      exact hsame ▸ .same
  | pushed np h _ hstate =>
      have hstates : v'.states = v.states ++ [(np.poolID, np.mPoolState)] := by
        rw [states, h, List.map_append]
        rfl
      exact hstates ▸ .added np.poolID hstate
  | set pos np np' hget h hid _ hstate =>
      have hstates : v'.states = v.states.set pos (np'.poolID, np'.mPoolState) := by
        rw [states, h]
        exact List.map_set
      have hat : v.states[pos]? = some (np.poolID, np.mPoolState) := by
        rw [states, List.getElem?_map, hget]
        rfl
      cases hstate with
      | inl hsame =>
          rw [hid, hsame, set_of_getElem? hat] at hstates
          exact hstates ▸ .same
      | inr hdocumented =>
          rw [hid] at hstates
          exact hstates ▸ .changed hat hdocumented
  | removed w pos hstates _ h =>
      have hremoved : v'.states = v.states.eraseIdx pos := by
        rw [← hstates, states, h]
        exact (List.eraseIdx_map _ _ _).symm
      exact hremoved ▸ .removed pos
  | cleared h =>
      have hnone : v'.states = [] := by rw [states, h]; rfl
      exact hnone ▸ .cleared

end Writes

/-- An operation reads through no null pointer while the entries hold what they are to hold. -/
theorem step_ne_nullPointer (hv : v.Entries) (op : Op) : v.step op ≠ .error .nullPointer := by
  have hwith (pos : Nat) (f : NotificationPoolEntry → NotificationPoolEntry) :
      v.withEntry pos f ≠ .error .nullPointer := by
    unfold withEntry
    split <;> simp
  have hremove (poolID : UInt32) (w : PoolVector) : w.removePool poolID ≠ .error .nullPointer := by
    obtain ⟨w', hw'⟩ := exists_removePool poolID w
    simp [hw']
  cases op with
  | add => simp [step]
  | addServer => simp [step]
  | setState pos newState => exact hwith pos _
  | setStateServer pos id => exact hwith pos _
  | attach pos => exact hwith pos _
  | detach pos =>
      rw [step, detach]
      split
      · simp
      · dsimp only
        split
        · exact hremove _ _
        · simp
  | removePool poolID => exact hremove poolID v
  | clear => simp [step]
  | find d extendedSearch =>
      rw [step, find, findBy_eq fun np hnp => (hv np hnp).testDescription_eq d extendedSearch]
      simp [Except.map]
  | findServer id =>
      rw [step, findServer, findBy_eq fun np hnp => (hv np hnp).testServer_eq id]
      simp [Except.map]
  | findPool poolID =>
      rw [step, findPool_eq]
      simp [Except.map]

/-! ## The table of the broker

The broker has the entries in the order in which the `find`s meet them. -/

/-- The vector from its back. -/
def table (v : PoolVector) : NotificationPool := v.mEntries.reverse

/-- The search from the back is the search of the table, which has its last pool first. -/
theorem findBy_table (hlen : v.mEntries.length ≤ 2 ^ 31)
    {test : NotificationPoolEntry → Except PoolFault Bool} {p : NotificationPoolEntry → Bool}
    (htest : ∀ np ∈ v.mEntries, test np = .ok (p np)) :
    v.findBy test = .ok (fromBack v.mEntries.length (v.table.findIdx? p)) := by
  rw [findBy_eq htest, looked_eq hlen, List.take_length, table]

/-- So is the search for an interface. -/
theorem find_table (hlen : v.mEntries.length ≤ 2 ^ 31) (hv : v.Entries)
    (d : InterfaceDescription) (extendedSearch : Bool) :
    v.find d extendedSearch =
      .ok (fromBack v.mEntries.length (v.table.findIdx? (·.isFor d extendedSearch))) :=
  findBy_table hlen fun np hnp => (hv np hnp).testDescription_eq d extendedSearch

/-- So is the search for a server. -/
theorem findServer_table (hlen : v.mEntries.length ≤ 2 ^ 31) (hv : v.Entries) (id : SPartyID) :
    v.findServer id = .ok (fromBack v.mEntries.length (v.table.findIdx? (·.monitors id))) :=
  findBy_table hlen fun np hnp => (hv np hnp).testServer_eq id

/-- So is the search for an ID. -/
theorem findPool_table (hlen : v.mEntries.length ≤ 2 ^ 31) (poolID : UInt32) :
    v.findPool poolID = .ok (fromBack v.mEntries.length (v.table.findPool poolID)) :=
  findBy_table hlen fun _ _ => rfl

/-- What is erased from the back of a vector is erased from the front of its table. -/
theorem reverse_eraseIdx {α : Type} {l : List α} {i : Nat} (hi : i < l.length) :
    (l.eraseIdx (l.length - 1 - i)).reverse = l.reverse.eraseIdx i := by
  rw [List.eraseIdx_eq_take_drop_succ, List.eraseIdx_eq_take_drop_succ, List.reverse_append,
    List.take_reverse, List.drop_reverse]
  congr 3 <;> omega

/-- A removal from the vector is the one from the table. -/
theorem removePool_table (hlen : v.mEntries.length ≤ 2 ^ 31) {poolID : UInt32}
    (h : v.removePool poolID = .ok v') : v'.table = v.table.removePool poolID := by
  rw [NotificationPool.removePool, List.eraseP_eq_eraseIdx]
  rw [removePool, findPool_table hlen, NotificationPool.findPool] at h
  dsimp only at h
  cases hfind : v.table.findIdx? (fun np => np.poolID = poolID) with
  | none =>
      rw [hfind, fromBack, if_pos rfl] at h
      exact congrArg table (Except.ok.inj h).symm
  | some i =>
      have hi : i < v.mEntries.length := by
        have hlt := (List.findIdx?_eq_some_iff_getElem.mp hfind).1
        rwa [table, List.length_reverse] at hlt
      have hpos : (Int32.ofNat (v.mEntries.length - 1 - i)).toInt =
          (v.mEntries.length - 1 - i : Nat) := Int32.toInt_ofNat_of_lt (by omega)
      have hne : Int32.ofNat (v.mEntries.length - 1 - i) ≠ -1 := by
        intro heq
        have hneg : ((-1 : Int32)).toInt = -1 := rfl
        rw [heq, hneg] at hpos
        omega
      rw [hfind, fromBack, if_neg hne, hpos, Int.toNat_natCast] at h
      obtain rfl := Except.ok.inj h
      exact reverse_eraseIdx hi

/-- What the broker does with its table when it adds an entry. -/
theorem push_table (s : DataSwitch) (st : EPoolState) (v : PoolVector) :
    (v.push s st).table =
      { poolID := v.nextPoolID, mDataSwitch := s, mPoolState := st } :: v.table := by
  rw [table, push, List.reverse_append]
  rfl

/-! ## Runs -/

/-- No sequence of operations reads a null pointer. -/
theorem avoids_run {ops : List Op} (hv : v.Entries) :
    Partial.Avoids (· = .nullPointer) Entries (Partial.run step v ops) := by
  induction ops generalizing v with
  | nil => exact hv
  | cons op ops ih =>
      rw [Partial.run]
      cases hstep : v.step op with
      | error e =>
          intro he
          exact step_ne_nullPointer hv op (he ▸ hstep)
      | ok v' => exact ih ((writes_step hstep).entries hv)

/-- Behind every sequence of operations the entries hold a server ID if they monitor a server and
an interface description else, along the way one entry at a time comes, goes or takes a
documented transition, and what a sequence breaks off with is never a read through null. -/
theorem entries_follow_machine (ops : List Op) :
    Partial.Avoids (· = .nullPointer) Entries (Partial.run step {} ops) ∧
      Partial.Along step StepEvolves {} ops := by
  have hinit : Entries {} := fun np hnp => absurd hnp List.not_mem_nil
  refine ⟨avoids_run hinit, Partial.along_iff_forall.mpr fun _ op _ v _ _ => ?_⟩
  exact fun v' hstep => (writes_step hstep).evolves

end PoolVector

end Dsi
