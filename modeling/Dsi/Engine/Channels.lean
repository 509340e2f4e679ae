import Dsi.Lib.Partial
import Dsi.Stream.Overlay

/-!
# Dsi.Engine.Channels

The channel caches of a communication engine (`base/CCommEngine.cpp`): connections are
entered when they are accepted or opened, found by `attach` and `attachTCP`, and delete
themselves in their read handler.  The destructor leaves both maps alone, so that they
hold live connections only as long as no connection is destroyed that one of them holds.
-/

namespace Dsi

/-! ## Endpoints -/

/-- `Unix::Endpoint`, with the whole of `sun_path`. -/
structure Unix.Endpoint where
  sun_path : Vector UInt8 108
  deriving DecidableEq, Repr

/-- `IPv4::Endpoint`, with address and port in host byte order. -/
structure IPv4.Endpoint where
  ip : UInt32
  port : UInt16
  deriving DecidableEq, Repr

namespace Unix.Endpoint

/-- `lower_than`, a `memcmp`. -/
def lower_than (lhs rhs : Unix.Endpoint) : Bool :=
  Ty.lexLt (fun a b => decide (a < b)) lhs.sun_path.toList rhs.sun_path.toList

/-- `makeLocalPath`: a name in the anonymous namespace, cut at the size of `sun_path`. -/
def makeLocalPath (pid chid : Int) : Unix.Endpoint :=
  let name := ("dsi/" ++ toString pid ++ "/" ++ toString chid).toUTF8.toList
  { sun_path := .ofFn fun i => ((0 :: name)[i.val]?).getD 0 }

end Unix.Endpoint

namespace IPv4.Endpoint

/-- The bytes of an address as they lie in memory, read as a number. -/
def s_addr (ep : IPv4.Endpoint) : Nat :=
  LittleEndian.value (LittleEndian.bytes 4 ep.ip.toNat).reverse

/-- `sin_port`, in network byte order. -/
def sin_port (ep : IPv4.Endpoint) : Nat :=
  LittleEndian.value (LittleEndian.bytes 2 ep.port.toNat).reverse

def lower_than (lhs rhs : IPv4.Endpoint) : Bool :=
  decide (lhs.s_addr < rhs.s_addr) ||
    (lhs.s_addr == rhs.s_addr && decide (lhs.sin_port < rhs.sin_port))

/-- `Endpoint(int ip, int port)`: `htons` takes 16 bits of the port. -/
def ofHost (host port : UInt32) : IPv4.Endpoint := { ip := host, port := port.toUInt16 }

end IPv4.Endpoint

namespace CCommEngine

/-! ## The engine -/

/-- The caches, the connections that are not destroyed, and how many there have been. -/
structure Channels where
  mLocalChannels : List (Unix.Endpoint × Nat) := []
  mTCPChannels : List (IPv4.Endpoint × Nat) := []
  connections : List Nat := []
  created : Nat := 0
  deriving DecidableEq, Repr

/-- What `attach` and `attachTCP` return: the channel of a connection, or one of its own
for a private TCP connection. -/
inductive Channel where
  | ofConnection (conn : Nat)
  | private_
  deriving DecidableEq, Repr

/-- A connection is asked for its channel after its destruction. -/
inductive ChannelFault where
  | destroyedConnection
  deriving DecidableEq, Repr

namespace Channels

/-- `new CClientConnection`. -/
def newConnection (d : Channels) : Nat × Channels :=
  (d.created, { d with connections := d.created :: d.connections, created := d.created + 1 })

/-- `iter->second->channel()`. -/
def channel (d : Channels) (conn : Nat) : Except ChannelFault Channel :=
  if conn ∈ d.connections then .ok (.ofConnection conn) else .error .destroyedConnection

/-- `handleNewLocalConnection`. -/
def handleNewLocalConnection (address : Unix.Endpoint) (isOk : Bool) (d : Channels) : Channels :=
  if isOk then
    let r := d.newConnection
    { r.2 with
      mLocalChannels := mapAssign Unix.Endpoint.lower_than address r.1 r.2.mLocalChannels }
  else d

/-- `handleNewTCPConnection`. -/
def handleNewTCPConnection (address : IPv4.Endpoint) (isOk : Bool) (d : Channels) : Channels :=
  if isOk then
    let r := d.newConnection
    { r.2 with mTCPChannels := mapAssign IPv4.Endpoint.lower_than address r.1 r.2.mTCPChannels }
  else d

/-- `CCommEngine::attach`: `connects` tells whether the socket can be opened and connected. -/
def attach (pid chid : Int) (connects : Bool) (d : Channels) :
    Except ChannelFault (Option Channel × Channels) :=
  let ep := Unix.Endpoint.makeLocalPath pid chid
  match d.mLocalChannels.lookup ep with
  | some conn => (d.channel conn).map fun c => (some c, d)
  | none =>
      if connects then
        let r := d.newConnection
        .ok (some (.ofConnection r.1),
          { r.2 with
            mLocalChannels := mapAssign Unix.Endpoint.lower_than ep r.1 r.2.mLocalChannels })
      else .ok (none, d)

/-- `CCommEngine::attachTCP`. -/
def attachTCP (host port : UInt32) (isPrivate connects : Bool) (d : Channels) :
    Except ChannelFault (Option Channel × Channels) :=
  let ep := IPv4.Endpoint.ofHost host port
  match if isPrivate then none else d.mTCPChannels.lookup ep with
  | some conn => (d.channel conn).map fun c => (some c, d)
  | none =>
      if connects then
        if isPrivate then .ok (some .private_, d)
        else
          let r := d.newConnection
          .ok (some (.ofConnection r.1),
            { r.2 with
              mTCPChannels := mapAssign IPv4.Endpoint.lower_than ep r.1 r.2.mTCPChannels })
      else .ok (none, d)

/-- `handleMessageHeader` of a connection: `rc` is what comes of the read and of
`handleMessage`.  A destroyed connection has no handler any more. -/
def handleMessageHeader (conn : Nat) (rc : Bool) (d : Channels) : Channels :=
  if rc then d else { d with connections := d.connections.filter (· ≠ conn) }

/-- What can happen to an engine. -/
inductive Event where
  | newLocalConnection (address : Unix.Endpoint) (isOk : Bool)
  | newTCPConnection (address : IPv4.Endpoint) (isOk : Bool)
  | attach (pid chid : Int) (connects : Bool)
  | attachTCP (host port : UInt32) (isPrivate connects : Bool)
  | messageHeader (conn : Nat) (rc : Bool)
  deriving DecidableEq, Repr

/-- The channel that an event returns, if it is one of the two that do, and the state
behind it. -/
def handle (d : Channels) : Event → Except ChannelFault (Option Channel × Channels)
  | .newLocalConnection address isOk => .ok (none, d.handleNewLocalConnection address isOk)
  | .newTCPConnection address isOk => .ok (none, d.handleNewTCPConnection address isOk)
  | .attach pid chid connects => d.attach pid chid connects
  | .attachTCP host port isPrivate connects => d.attachTCP host port isPrivate connects
  | .messageHeader conn rc => .ok (none, d.handleMessageHeader conn rc)

def step (d : Channels) (e : Event) : Except ChannelFault Channels := (d.handle e).map (·.2)

/-! ## Live connections -/

/-- The connections that the two maps hold. -/
def cached (d : Channels) : List Nat := d.mLocalChannels.map (·.2) ++ d.mTCPChannels.map (·.2)

/-- Every connection in a map is alive. -/
def Live (d : Channels) : Prop := ∀ conn ∈ d.cached, conn ∈ d.connections

instance instDecidableLive (d : Channels) : Decidable d.Live :=
  inferInstanceAs (Decidable (∀ conn ∈ d.cached, conn ∈ d.connections))

/-- A step returns no channel but one of a live connection or a private one, and leaves
no destroyed connection in a map. -/
def KeepsLive (d : Channels) (e : Event) : Prop :=
  ∃ r, d.handle e = .ok r ∧ r.2.Live ∧
    ∀ conn, r.1 = some (.ofConnection conn) → conn ∈ r.2.connections

/-- The step destroys no connection that a map holds. -/
def sparesCached (d : Channels) : Event → Bool
  | .messageHeader conn rc => rc || conn ∉ d.cached
  | _ => true

theorem mem_cached {d : Channels} {conn : Nat} :
    conn ∈ d.cached ↔
      conn ∈ d.mLocalChannels.map (·.2) ∨ conn ∈ d.mTCPChannels.map (·.2) :=
  List.mem_append

theorem mem_values_mapAssign {α β : Type} {lt : α → α → Bool} {key : α} {value x : β}
    {m : List (α × β)} (h : x ∈ (mapAssign lt key value m).map (·.2)) :
    x = value ∨ x ∈ m.map (·.2) := by
  obtain ⟨e, he, rfl⟩ := List.mem_map.mp h
  exact (mem_of_mem_mapAssign he).symm.imp id (fun hold => List.mem_map_of_mem hold)

theorem mem_values_of_lookup {α β : Type} [BEq α] [LawfulBEq α] {key : α} {value : β}
    {m : List (α × β)} (h : m.lookup key = some value) : value ∈ m.map (·.2) := by
  obtain ⟨front, back, rfl, -⟩ := List.lookup_eq_some_iff.mp h
  simp

/-! ### Steps -/

variable {d : Channels}

/-- A connection that is entered in one of the maps when it is created. -/
theorem Live.newConnection (h : d.Live) {d' : Channels}
    (hconnections : d'.connections = d.newConnection.2.connections)
    (hcached : ∀ conn ∈ d'.cached, conn = d.newConnection.1 ∨ conn ∈ d.cached) : d'.Live := by
  intro conn hconn
  rw [hconnections]
  cases hcached conn hconn with
  | inl heq => exact heq ▸ List.mem_cons_self
  | inr hold => exact List.mem_cons_of_mem _ (h conn hold)

theorem Live.assignLocal (h : d.Live) (ep : Unix.Endpoint) :
    Live { d.newConnection.2 with
      mLocalChannels :=
        mapAssign Unix.Endpoint.lower_than ep d.newConnection.1 d.mLocalChannels } :=
  h.newConnection rfl (fun conn hconn => by
    rw [mem_cached] at hconn ⊢
    cases hconn with
    | inl hlocal => exact (mem_values_mapAssign hlocal).imp id .inl
    | inr htcp => exact .inr (.inr htcp))

theorem Live.assignTCP (h : d.Live) (ep : IPv4.Endpoint) :
    Live { d.newConnection.2 with
      mTCPChannels := mapAssign IPv4.Endpoint.lower_than ep d.newConnection.1 d.mTCPChannels } :=
  h.newConnection rfl (fun conn hconn => by
    rw [mem_cached] at hconn ⊢
    cases hconn with
    | inl hlocal => exact .inr (.inl hlocal)
    | inr htcp => exact (mem_values_mapAssign htcp).imp id .inr)

/-- What a map holds is alive, and its channel can be taken. -/
theorem Live.channel (h : d.Live) {conn : Nat} (hconn : conn ∈ d.cached) :
    d.channel conn = .ok (.ofConnection conn) := if_pos (h conn hconn)

theorem Live.handleMessageHeader_iff (h : d.Live) (conn : Nat) (rc : Bool) :
    (d.handleMessageHeader conn rc).Live ↔ (rc || conn ∉ d.cached) = true := by
  rw [handleMessageHeader]
  cases rc with
  | true => exact iff_of_true h rfl
  | false =>
      rw [if_neg Bool.false_ne_true, Bool.false_or, decide_eq_true_iff]
      constructor
      · intro hlive hmem
        have hkept := List.of_mem_filter (hlive conn hmem)
        exact absurd rfl (of_decide_eq_true hkept)
      · intro hnot x hx
        have hne : x ≠ conn := fun heq => hnot (heq ▸ hx)
        exact List.mem_filter.mpr ⟨h x hx, decide_eq_true hne⟩

theorem Live.attach (h : d.Live) (pid chid : Int) (connects : Bool) :
    KeepsLive d (.attach pid chid connects) := by
  rw [KeepsLive, handle, Channels.attach]
  dsimp only
  cases hlookup : d.mLocalChannels.lookup (Unix.Endpoint.makeLocalPath pid chid) with
  | some conn =>
      have hconn : conn ∈ d.cached := mem_cached.mpr (.inl (mem_values_of_lookup hlookup))
      dsimp only
      rw [h.channel hconn]
      refine ⟨_, rfl, h, fun x hx => ?_⟩
      cases hx
      exact h conn hconn
  | none =>
      cases connects with
      | false => exact ⟨_, rfl, h, nofun⟩
      | true =>
          refine ⟨_, rfl, h.assignLocal _, fun x hx => ?_⟩
          cases hx
          exact List.mem_cons_self

theorem Live.attachTCP (h : d.Live) (host port : UInt32) (isPrivate connects : Bool) :
    KeepsLive d (.attachTCP host port isPrivate connects) := by
  rw [KeepsLive, handle, Channels.attachTCP]
  dsimp only
  cases isPrivate with
  | true =>
      cases connects with
      | false => exact ⟨_, rfl, h, nofun⟩
      | true => exact ⟨_, rfl, h, nofun⟩
  | false =>
      rw [if_neg Bool.false_ne_true]
      cases hlookup : d.mTCPChannels.lookup (IPv4.Endpoint.ofHost host port) with
      | some conn =>
          have hconn : conn ∈ d.cached := mem_cached.mpr (.inr (mem_values_of_lookup hlookup))
          dsimp only
          rw [h.channel hconn]
          refine ⟨_, rfl, h, fun x hx => ?_⟩
          cases hx
          exact h conn hconn
      | none =>
          cases connects with
          | false => exact ⟨_, rfl, h, nofun⟩
          | true =>
              refine ⟨_, rfl, h.assignTCP _, fun x hx => ?_⟩
              cases hx
              exact List.mem_cons_self

/-- In a live state only the destruction of a connection can do harm. -/
theorem Live.keeps_step_iff (h : d.Live) (e : Event) :
    KeepsLive d e ↔ sparesCached d e = true := by
  cases e with
  | newLocalConnection address isOk =>
      refine iff_of_true ⟨_, rfl, ?_, nofun⟩ rfl
      cases isOk with
      | false => exact h
      | true => exact h.assignLocal address
  | newTCPConnection address isOk =>
      refine iff_of_true ⟨_, rfl, ?_, nofun⟩ rfl
      cases isOk with
      | false => exact h
      | true => exact h.assignTCP address
  | attach pid chid connects => exact iff_of_true (h.attach pid chid connects) rfl
  | attachTCP host port isPrivate connects =>
      exact iff_of_true (h.attachTCP host port isPrivate connects) rfl
  | messageHeader conn rc =>
      rw [sparesCached, ← h.handleMessageHeader_iff conn rc]
      constructor
      · rintro ⟨r, hok, hlive, -⟩
        cases hok
        exact hlive
      · exact fun hlive => ⟨_, rfl, hlive, nofun⟩

/-- A step that keeps the connections in the maps alive goes on in a live state. -/
theorem KeepsLive.live {d' : Channels} {e : Event} (h : KeepsLive d e)
    (hstep : step d e = .ok d') : d'.Live := by
  obtain ⟨r, hok, hlive, -⟩ := h
  rw [step, hok] at hstep
  exact Except.ok.inj hstep ▸ hlive

/-- The maps hold live connections only, and no channel of a destroyed one is returned,
in every step of a run exactly if no step destroys a connection that a map holds. -/
theorem keepsLive_iff (es : List Event) :
    Partial.Along step KeepsLive {} es ↔
      Partial.Along step (fun d e => sparesCached d e = true) {} es :=
  Partial.along_iff (fun _ e (hd : Live _) => hd.keeps_step_iff e)
    (fun _ e _ hd hspares hstep => ((hd.keeps_step_iff e).mpr hspares).live hstep)
    (by decide) es

/-- A peer that goes away: its connection stays in the map, and `attachTCP` to its address
asks the destroyed connection for its channel. -/
theorem not_keepsLive_peer_comes_back :
    ¬ Partial.Along step KeepsLive {}
      [.attachTCP 0x7F000001 3000 false true, .messageHeader 0 false,
       .attachTCP 0x7F000001 3000 false true] := by
  intro h
  obtain ⟨r, hok, -⟩ := ((h.tail rfl).tail rfl).1
  have hfault := congrArg Partial.fault? hok
  change some ChannelFault.destroyedConnection = none at hfault
  cases hfault

end Channels

end CCommEngine

end Dsi
