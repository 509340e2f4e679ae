import Dsi.Broker.Types
import Dsi.Lib.Sequence

/-!
# Dsi.Broker.Tables

What a servicebroker is started with (`ConfigFile`, the oracles for the
operating system) and the tables it keeps: `ServerList`, `ClientList`, the ID
lists of a connection (`ClientSpecificData`), the notifications and the
notification pools.
-/

namespace Dsi

open Sequence

/-! ## Configuration -/

/-- The settings of one broker, whether its build has no assertions, and the answers of
its environment: group membership (`getgrgid` and `getpwnam`), regular expressions, and
whether the `k`-th call of `PulseChannelManager::attach` succeeds. -/
structure Config where
  theId : Int32
  hasMaster : Bool
  mLocalServices : List CString := []
  mGlobalServices : List CString := []
  mForwardServices : List CString := []
  sigAddrMajor : UInt32 := 0
  sigAddrMinor : Int32 := 0
  ndebug : Bool := false
  isGroupMember : Int32 → Int32 → Bool := fun _ _ => false
  regcomp : CString → Bool := fun _ => true
  regexec : CString → CString → Bool := fun _ _ => false
  attach : Nat → UInt32 → UInt32 → Int32 → Bool := fun _ _ _ _ => true

/-- The bytes of `_tcp`. -/
def tcpSuffix : CString := [95, 116, 99, 112]

/-- The test of a name for its last four bytes. -/
def endsWithTcp (name : CString) : Bool := name.drop (name.length - 4) = tcpSuffix

/-- `isTcpService`. -/
def isTcpService (name : CString) : Bool := decide (5 < name.length) && endsWithTcp name

/-- `Servicebroker::check(SFNDInterfaceDescription)` on a terminated name. -/
def check (d : InterfaceDescription) : Bool :=
  d.name.all (fun c => !(c < 32 || c == 127) && c < 128) &&
    (d.majorVersion != 0 || d.minorVersion != 0)

namespace Config

variable (cfg : Config)

/-- `ConfigFile::isTreeMode`. -/
def isTreeMode : Bool := decide (0 < cfg.theId)

/-- `mExtendedID`, as `Servicebroker::init` sets it. -/
def mExtendedID : UInt32 :=
  if 0 < cfg.theId then cfg.theId.toUInt32 else if cfg.hasMaster then 0 else 1000

/-- `ConfigFile::isLocalService`. -/
def isLocalService (name : CString) : Bool :=
  if cfg.mGlobalServices ≠ [] then !cfg.mGlobalServices.contains name
  else cfg.mLocalServices.contains name

/-- `ConfigFile::forwardService`. -/
def forwardService (name : CString) : Bool :=
  if cfg.isTreeMode then
    if cfg.mForwardServices = [[42]] then true
    else if 4 < name.length ∧ endsWithTcp name then
      cfg.mForwardServices.contains (name.take (name.length - 4))
    else cfg.mForwardServices.contains name
  else true

end Config

/-! ## Server table -/

/-- `ServerListEntry`. -/
structure ServerListEntry where
  partyID : SPartyID
  masterID : SPartyID := ⟨0, 0⟩
  nid : UInt32
  pid : UInt32
  chid : Int32
  ifDescription : InterfaceDescription
  grpid : Int32 := SB_UNKNOWN_GROUP_ID
  isLocal : Bool := false
  deriving DecidableEq, Repr

/-- `masterID = static_cast<notificationid_t>(-1)`: the mark of an entry that was
put into a batch for the master. -/
def pendingMasterID : SPartyID := ⟨0xffffffff, 0⟩

/-- The ID of nobody, `partyID = 0`. -/
def noPartyID : SPartyID := ⟨0, 0⟩

/-- `compare`: the server table is ordered by descending `strcmp`. -/
def compare (lhs rhs : CString) : Bool := decide (rhs < lhs)

/-- `ServerList`: the entries with their names in descending order, which is
what `std::lower_bound` relies on. -/
structure ServerList where
  entries : List ServerListEntry
  sorted : entries.Pairwise (fun a b => b.ifDescription.name ≤ a.ifDescription.name)

namespace ServerList

/-- The empty table. -/
def empty : ServerList := ⟨[], List.Pairwise.nil⟩

/-- `ServerList::add`. -/
def add (entry : ServerListEntry) (l : ServerList) : ServerList where
  entries := insertLower (fun e => compare e.ifDescription.name entry.ifDescription.name)
    entry l.entries
  sorted := by
    refine pairwise_insertLower l.sorted ?_ ?_
    · intro y hy
      exact List.le_of_lt (of_decide_eq_true hy)
    · intro y z hy hyz
      have hle : y.ifDescription.name ≤ entry.ifDescription.name := of_decide_eq_false hy
      cases hyz with
      | inl h => exact h ▸ hle
      | inr h => exact List.le_trans h hle

/-- `ServerList::find(const char*)`. -/
def findName (name : CString) (l : ServerList) : Option ServerListEntry :=
  match l.entries.dropWhile (fun e => compare e.ifDescription.name name) with
  | [] => none
  | e :: _ => if compare name e.ifDescription.name then none else some e

/-- `ServerList::find(SFNDInterfaceDescription)`. -/
def findDescription (d : InterfaceDescription) (l : ServerList) : Option ServerListEntry :=
  match l.findName d.name with
  | none => none
  | some e =>
      if e.ifDescription.majorVersion = d.majorVersion ∧
          d.minorVersion ≤ e.ifDescription.minorVersion then some e else none

/-- `ServerList::find(SPartyID)`, on all 64 bits. -/
def findID (serverID : SPartyID) (l : ServerList) : Option ServerListEntry :=
  l.entries.find? (fun e => e.partyID = serverID)

/-- The test of `ServerList::findByLocalIDandInvalidMasterID`. -/
def isPendingLocalID (localID : UInt32) (e : ServerListEntry) : Bool :=
  e.partyID.localID = localID ∧ e.masterID.localID = 0xffffffff

/-- `ServerList::findByLocalIDandInvalidMasterID`. -/
def findByLocalIDandInvalidMasterID (localID : UInt32) (l : ServerList) :
    Option ServerListEntry :=
  l.entries.find? (isPendingLocalID localID)

/-- `ServerList::remove`. -/
def remove (serverID : SPartyID) (l : ServerList) : ServerList where
  entries := l.entries.eraseP (fun e => e.partyID = serverID)
  sorted := l.sorted.sublist List.eraseP_sublist

theorem pairwise_of_map_name {l l' : List ServerListEntry}
    (h : l'.map (·.ifDescription.name) = l.map (·.ifDescription.name))
    (hl : l.Pairwise (fun a b => b.ifDescription.name ≤ a.ifDescription.name)) :
    l'.Pairwise (fun a b => b.ifDescription.name ≤ a.ifDescription.name) := by
  rw [← List.pairwise_map (f := fun e : ServerListEntry => e.ifDescription.name)
    (R := fun a b => b ≤ a)] at hl ⊢
  exact h ▸ hl

/-- Writes the `masterID` of the first entry that satisfies `p`. -/
def setMasterID (p : ServerListEntry → Bool) (masterID : SPartyID) (l : ServerList) :
    ServerList where
  entries := modifyFirst p (fun e => { e with masterID := masterID }) l.entries
  sorted := pairwise_of_map_name (by rw [map_modifyFirst]; intro _; rfl) l.sorted

/-- Writes the `masterID` of every entry. -/
def mapMasterID (f : ServerListEntry → SPartyID) (l : ServerList) : ServerList where
  entries := l.entries.map (fun e => { e with masterID := f e })
  sorted := pairwise_of_map_name (by simp [Function.comp_def]) l.sorted

/-- `ServerList::clearMasterIDs`. -/
def clearMasterIDs (l : ServerList) : ServerList := l.mapMasterID (fun _ => noPartyID)

/-- IDs of the master do not change which servers are there. -/
theorem isNone_findID_mapMasterID (f : ServerListEntry → SPartyID) (id : SPartyID)
    (l : ServerList) : ((l.mapMasterID f).findID id).isNone = (l.findID id).isNone := by
  simp only [findID, mapMasterID, List.find?_map, Option.isNone_map]
  rfl

end ServerList

/-! ## Client table -/

/-- `ClientListEntry`. -/
structure ClientListEntry where
  mClientId : SPartyID
  mServerId : SPartyID
  mCtx : Nat
  deriving DecidableEq, Repr

/-- `ClientList`, in the order of `push_back`. -/
abbrev ClientList := List ClientListEntry

namespace ClientList

/-- `ClientList::find(id) != -1`.  `ClientListEntry::operator==` compares through
`SPartyID::operator==`. -/
def finds (id : SPartyID) (l : ClientList) : Bool := l.any (fun e => SPartyID.opEq e.mClientId id)

/-- `ClientList::remove`, on all 64 bits. -/
def remove (clientId : SPartyID) (l : ClientList) : ClientList :=
  l.eraseP (fun e => e.mClientId = clientId)

/-- `ClientList::removeServer`. -/
def removeServer (serverId : SPartyID) (l : ClientList) : ClientList :=
  l.filter (fun e => e.mServerId ≠ serverId)

end ClientList

/-! ## Connections -/

/-- `PartyIDList`: a `std::set` ordered by `globalID`. -/
abbrev PartyIDList := OrderedSet SPartyID SPartyID.globalID

/-- `ClientSpecificData`. -/
structure ClientSpecificData where
  mServerList : PartyIDList := OrderedSet.empty
  mNotificationList : List UInt32 := []
  mClientList : PartyIDList := OrderedSet.empty
  mExtendedID : UInt32 := 0

namespace ClientSpecificData

/-- `addNotification`. -/
def addNotification (id : UInt32) (d : ClientSpecificData) : ClientSpecificData :=
  { d with mNotificationList := d.mNotificationList ++ [id] }

/-- `removeNotification`: a `std::remove` without `erase`. -/
def removeNotification (id : UInt32) (d : ClientSpecificData) : ClientSpecificData :=
  { d with mNotificationList := removeShift id d.mNotificationList }

/-- `addServer`. -/
def addServer (id : SPartyID) (d : ClientSpecificData) : ClientSpecificData :=
  { d with mServerList := d.mServerList.insert id }

/-- `removeServer`. -/
def removeServer (id : SPartyID) (d : ClientSpecificData) : ClientSpecificData :=
  { d with mServerList := d.mServerList.erase id }

/-- `addClient`. -/
def addClient (id : SPartyID) (d : ClientSpecificData) : ClientSpecificData :=
  { d with mClientList := d.mClientList.insert id }

/-- `removeClient`. -/
def removeClient (id : SPartyID) (d : ClientSpecificData) : ClientSpecificData :=
  { d with mClientList := d.mClientList.erase id }

end ClientSpecificData

/-- `SocketConnectionContext`. -/
structure SocketConnectionContext where
  mId : Nat
  mNodeAddress : UInt32
  mLocalAddress : UInt32
  mUid : Int32
  mSlave : Bool
  deriving DecidableEq, Repr

namespace SocketConnectionContext

/-- `isLocal`. -/
def isLocal (ctx : SocketConnectionContext) : Bool :=
  ctx.mNodeAddress == SB_LOCAL_NODE_ADDRESS || ctx.mNodeAddress == SB_LOCAL_IP_ADDRESS

/-- `NodeAddressTranslator::translateRemote`. -/
def translateRemote (ctx : SocketConnectionContext) (name : CString) (pid : UInt32) : UInt32 :=
  if ctx.mSlave ∧ pid = SB_LOCAL_IP_ADDRESS ∧ isTcpService name then ctx.mNodeAddress else pid

/-- `NodeAddressTranslator::translateLocal`. -/
def translateLocal (ctx : SocketConnectionContext) (name : CString) (pid : UInt32) : UInt32 :=
  if ctx.mSlave ∧ pid = SB_LOCAL_IP_ADDRESS ∧ isTcpService name then ctx.mLocalAddress else pid

end SocketConnectionContext

/-- A connected client: the members of its context, its data, and whether the
answer to its last request is deferred.  A deferred connection is not armed for
reading. -/
structure Connection where
  mNodeAddress : UInt32
  mLocalAddress : UInt32
  mUid : Int32
  mSlave : Bool := false
  data : ClientSpecificData := {}
  deferred : Bool := false

/-- The context of the connection with this ID. -/
def Connection.ctx (c : Nat) (k : Connection) : SocketConnectionContext :=
  { mId := c, mNodeAddress := k.mNodeAddress, mLocalAddress := k.mLocalAddress, mUid := k.mUid,
    mSlave := k.mSlave }

/-- The connection cannot end: it waits for its answer, so its socket is not armed, and
no timer watches it, as one does for a TCP connection (`TimerMixin`). -/
def Connection.held (k : Connection) : Bool :=
  k.deferred && k.mNodeAddress == SB_LOCAL_NODE_ADDRESS

/-- A connection without its list of notification IDs. -/
def Connection.core (k : Connection) : Connection :=
  { k with data := { k.data with mNotificationList := [] } }

/-! ## Notifications and pools -/

/-- `Notification`.  `host` is the connection whose `ClientSpecificData` the
pointer refers to, `coid` whether the pulse channel is attached. -/
structure Notification where
  notificationID : UInt32
  masterNotificationID : UInt32 := INVALID_NOTIFICATION_ID
  poolID : UInt32 := 0
  host : Option Nat := none
  partyID : SPartyID := noPartyID
  ifDescription : InterfaceDescription := ⟨[], 0, 0⟩
  isLocal : Bool := false
  uid : Int32 := SB_UNKNOWN_USER_ID
  active : Bool := true
  regExpr : Option CString := none
  pulse : SFNDPulseInfo := ⟨0, 0, 0, 0⟩
  coid : Bool := false
  nid : UInt32 := 0
  deriving DecidableEq, Repr

/-- `NotificationPoolEntry::EPoolState`. -/
inductive EPoolState where
  | STATE_UNDEFINED
  | STATE_DEFERRED
  | STATE_CONNECTING
  | STATE_CONNECTED
  | STATE_PRECACHING
  | STATE_MONITOR_DISCONNECT
  deriving DecidableEq, Repr

/-- `NotificationPoolEntry::TDataSwitch`. -/
inductive DataSwitch where
  | ifDescription (d : InterfaceDescription)
  | serverID (id : SPartyID)
  deriving DecidableEq, Repr

/-- `NotificationPoolEntry`.  The count is a `uint32_t`; `PoolsCounted.mRefCount_le` says why it
does not wrap. -/
structure NotificationPoolEntry where
  notificationID : UInt32 := INVALID_NOTIFICATION_ID
  poolID : UInt32
  mDataSwitch : DataSwitch
  mPoolState : EPoolState
  mRefCount : Nat := 0
  deriving DecidableEq, Repr

namespace NotificationPoolEntry

/-- `setState(EPoolState)`: only the documented transitions. -/
def setState (newState : EPoolState) (np : NotificationPoolEntry) : NotificationPoolEntry :=
  match np.mPoolState, newState with
  | .STATE_DEFERRED, .STATE_CONNECTING => { np with mPoolState := .STATE_CONNECTING }
  | .STATE_CONNECTING, .STATE_CONNECTED => { np with mPoolState := .STATE_CONNECTED }
  | .STATE_CONNECTED, .STATE_PRECACHING => { np with mPoolState := .STATE_PRECACHING }
  | _, _ => np

/-- `setState(SPartyID)`. -/
def setStateServer (serverID : SPartyID) (np : NotificationPoolEntry) : NotificationPoolEntry :=
  if np.mPoolState ≠ .STATE_DEFERRED ∧ np.mPoolState ≠ .STATE_PRECACHING then np
  else { np with mPoolState := .STATE_MONITOR_DISCONNECT, mDataSwitch := .serverID serverID }

/-- The test of `NotificationPool::find(InterfaceDescription, extendedSearch)`. -/
def isFor (d : InterfaceDescription) (extendedSearch : Bool) (np : NotificationPoolEntry) : Bool :=
  ((extendedSearch && np.mPoolState != .STATE_MONITOR_DISCONNECT) ||
      np.mPoolState == .STATE_CONNECTING) &&
    np.mDataSwitch == .ifDescription d

/-- The test of `NotificationPool::find(SPartyID)`, through `operator==`. -/
def monitors (id : SPartyID) (np : NotificationPoolEntry) : Bool :=
  np.mPoolState == .STATE_MONITOR_DISCONNECT &&
    match np.mDataSwitch with
    | .serverID s => SPartyID.opEq s id
    | .ifDescription _ => false

end NotificationPoolEntry

/-- `NotificationPool`, newest entry first: `add` appends to the vector and every
`find` searches it from the back. -/
abbrev NotificationPool := List NotificationPoolEntry

namespace NotificationPool

/-- `find(poolID)`. -/
def findPool (poolID : UInt32) (l : NotificationPool) : Option Nat :=
  l.findIdx? (fun np => np.poolID = poolID)

/-- `removePool`. -/
def removePool (poolID : UInt32) (l : NotificationPool) : NotificationPool :=
  l.eraseP (fun np => np.poolID = poolID)

end NotificationPool

end Dsi
