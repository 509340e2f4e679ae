import Dsi.Lib.Partial
import Dsi.Lib.Run
import Dsi.Lib.Sequence
import Dsi.Message
import Dsi.Stream.Types

/-!
# Dsi.Engine.Parties

The clients and servers of a communication engine (`base/CCommEngine.cpp`, with the
destructors of `CClient` and `CServer`): its two lists, its two caches, and what adding,
removing, destroying, registering, attaching and looking up do to them.  Parties are
numbered as their addresses are, and an address may be used again.
-/

namespace Dsi

/-- The order of `std::map<SPartyID, CBase*>`: the IDs convert to 64 bits. -/
def SPartyID.less (lhs rhs : SPartyID) : Bool := decide (lhs.globalID < rhs.globalID)

namespace CCommEngine

/-! ## Parties -/

/-- What an engine needs of a `CClient`. -/
structure Client where
  mId : Nat
  mClientID : SPartyID := default
  mCommEngine : Option Nat := none
  deriving DecidableEq, Repr

/-- What an engine needs of a `CServer`. -/
structure Server where
  mServerID : SPartyID := default
  mTCPServerID : SPartyID := default
  mTCPIPEnabled : Bool := false
  mCommEngine : Option Nat := none
  deriving DecidableEq, Repr

/-- `FindByPartyID` on a client. -/
def Client.hasID (id : SPartyID) (c : Client) : Bool := c.mClientID.globalID == id.globalID

/-- `FindByPartyID` on a server. -/
def Server.hasID (id : SPartyID) (s : Server) : Bool :=
  s.mServerID.opEq id || s.mTCPServerID.opEq id

/-- `CCommEngine::Private`, with the clients and servers that exist. -/
structure Private where
  mActive : Bool := false
  mClientList : List Nat := []
  mServerList : List Nat := []
  mServerCache : List (SPartyID × Nat) := []
  mClientCache : List (SPartyID × Nat) := []
  clients : Nat → Option Client := fun _ => none
  servers : Nat → Option Server := fun _ => none

/-- A party in a list is looked at after its destruction. -/
inductive EngineFault where
  | destroyedParty
  deriving DecidableEq, Repr

/-- What a broker answers to the registrations of a server, if it takes them: a local one,
one for TCP, and the one that `add` makes first. -/
structure RegisterAnswers where
  registerInterface : Option SPartyID := none
  registerInterfaceTCP : Option SPartyID := none
  first : Option SPartyID := none
  deriving DecidableEq, Repr, Inhabited

/-- A write to an ID of a party. -/
inductive SetID where
  | mClientID (p : Nat) (id : SPartyID)
  | mServerID (p : Nat) (id : SPartyID)
  | mTCPServerID (p : Nat) (id : SPartyID)
  deriving DecidableEq, Repr

namespace Private

/-! ## Objects -/

/-- The objects after a write to the one at `p`. -/
def modifyAt {α : Type} (p : Nat) (f : α → α) (objects : Nat → Option α) (q : Nat) : Option α :=
  if q = p then (objects p).map f else objects q

/-- The objects after the construction or the destruction of the one at `p`. -/
def replaceAt {α : Type} (p : Nat) (a : Option α) (objects : Nat → Option α) (q : Nat) :
    Option α :=
  if q = p then a else objects q

def setID (s : Private) : SetID → Private
  | .mClientID p id =>
      { s with clients := modifyAt p (fun c => { c with mClientID := id }) s.clients }
  | .mServerID p id =>
      { s with servers := modifyAt p (fun x => { x with mServerID := id }) s.servers }
  | .mTCPServerID p id =>
      { s with servers := modifyAt p (fun x => { x with mTCPServerID := id }) s.servers }

def setIDs (s : Private) (ids : List SetID) : Private := Run.run setID s ids

def setClientEngine (p : Nat) (engine : Option Nat) (s : Private) : Private :=
  { s with clients := modifyAt p (fun c => { c with mCommEngine := engine }) s.clients }

def setServerEngine (p : Nat) (engine : Option Nat) (s : Private) : Private :=
  { s with servers := modifyAt p (fun x => { x with mCommEngine := engine }) s.servers }

/-! ## Lookups -/

/-- `std::find_if` on a list of parties. -/
def findIf {α : Type} (objects : Nat → Option α) (test : α → Bool) :
    List Nat → Except EngineFault (Option (Nat × α))
  | [] => .ok none
  | p :: ps =>
      match objects p with
      | none => .error .destroyedParty
      | some a => if test a then .ok (some (p, a)) else findIf objects test ps

/-- `findClient` by an ID of the broker. -/
def findClient (id : SPartyID) (s : Private) : Except EngineFault (Option Nat × Private) :=
  match s.mClientCache.lookup id with
  | some p => .ok (some p, s)
  | none =>
      (findIf s.clients (·.hasID id) s.mClientList).map fun
        | none => (none, s)
        | some (p, c) =>
            (some p,
              { s with mClientCache := mapAssign SPartyID.less c.mClientID p s.mClientCache })

/-- `findServer` by an ID of the broker. -/
def findServer (id : SPartyID) (s : Private) : Except EngineFault (Option Nat × Private) :=
  match s.mServerCache.lookup id with
  | some p => .ok (some p, s)
  | none =>
      (findIf s.servers (·.hasID id) s.mServerList).map fun
        | none => (none, s)
        | some (p, x) =>
            (some p,
              { s with mServerCache := mapAssign SPartyID.less x.mServerID p s.mServerCache })

/-- `removeFromCache`. -/
def removeFromCache (p : Nat) (cache : List (SPartyID × Nat)) : List (SPartyID × Nat) :=
  cache.eraseP (·.2 == p)

/-! ## Registering and detaching -/

/-- `registerInterface` of the engine. -/
def registerInterface (s : Private) (p : Nat) (answers : RegisterAnswers) : List SetID :=
  (if (s.servers p).any (·.mTCPIPEnabled) then
    answers.registerInterfaceTCP.toList.map (.mTCPServerID p) else []) ++
  answers.registerInterface.toList.map (.mServerID p)

/-- `CServer::unregisterInterface`. -/
def unregisterInterface (p : Nat) : List SetID := [.mServerID p default, .mTCPServerID p default]

/-- `CClient::detachInterface`. -/
def detachInterface (p : Nat) : List SetID := [.mClientID p default]

/-! ## Adding and removing -/

/-- `CCommEngine::Private::add` of a client. -/
def addClient (p : Nat) (s : Private) : Private := { s with mClientList := s.mClientList ++ [p] }

/-- `CCommEngine::Private::add` of a server. -/
def addServer (p : Nat) (answers : RegisterAnswers) (s : Private) : Private :=
  let s := { s with mServerList := s.mServerList ++ [p] }
  if s.mActive then
    s.setIDs (answers.first.toList.map (.mServerID p) ++ s.registerInterface p answers)
  else s

/-- `CCommEngine::Private::remove` of a client: what `std::remove` returns is not used. -/
def removeClient (p : Nat) (s : Private) : Private :=
  let s := { s with
    mClientList := Sequence.removeShift p s.mClientList
    mClientCache := removeFromCache p s.mClientCache }
  if s.mActive then s.setIDs (detachInterface p) else s

/-- `CCommEngine::Private::remove` of a server. -/
def removeServer (p : Nat) (s : Private) : Private :=
  let s := { s with
    mServerList := Sequence.removeShift p s.mServerList
    mServerCache := removeFromCache p s.mServerCache }
  if s.mActive then s.setIDs (unregisterInterface p) else s

end Private

/-! ## Events -/

/-- What can happen to an engine and its parties; `engine` is the engine that is called,
this one or another. -/
inductive Event where
  | newClient (p mId : Nat)
  | newServer (p : Nat) (mTCPIPEnabled : Bool)
  | addClient (engine p : Nat)
  | addServer (engine p : Nat) (answers : RegisterAnswers)
  | removeClient (engine p : Nat)
  | removeServer (engine p : Nat)
  | destroyClient (p : Nat)
  | destroyServer (p : Nat)
  | run (answers : List RegisterAnswers)
  | stop
  | serverAvailable (value : Nat) (clientID : Option SPartyID)
  | serverDisconnect (value : Nat)
  | connected (p : Nat) (clientID : SPartyID)
  | detachInterface (p : Nat)
  | findClient (id : SPartyID)
  | findServer (id : SPartyID)
  deriving Repr

namespace Private

/-- `CCommEngine::add` of a client. -/
def addClientTo (me engine p : Nat) (s : Private) : Private :=
  match s.clients p with
  | none => s
  | some c =>
      if c.mCommEngine.isSome then s
      else
        let s := s.setClientEngine p (some engine)
        if engine = me then s.addClient p else s

/-- `CCommEngine::add` of a server. -/
def addServerTo (me engine p : Nat) (answers : RegisterAnswers) (s : Private) : Private :=
  match s.servers p with
  | none => s
  | some x =>
      if x.mCommEngine.isSome then s
      else
        let s := s.setServerEngine p (some engine)
        if engine = me then s.addServer p answers else s

/-- `CCommEngine::remove` of a client. -/
def removeClientFrom (me engine p : Nat) (s : Private) : Private :=
  match s.clients p with
  | none => s
  | some c =>
      if c.mCommEngine = some engine then
        (if engine = me then s.removeClient p else s).setClientEngine p none
      else s

/-- `CCommEngine::remove` of a server. -/
def removeServerFrom (me engine p : Nat) (s : Private) : Private :=
  match s.servers p with
  | none => s
  | some x =>
      if x.mCommEngine = some engine then
        (if engine = me then s.removeServer p else s).setServerEngine p none
      else s

/-- `~CClient` resets `mCommEngine` before it calls `remove`. -/
def destroyClient (me p : Nat) (s : Private) : Private :=
  let s' :=
    match (s.clients p).bind (·.mCommEngine) with
    | none => s
    | some engine => (s.setClientEngine p none).removeClientFrom me engine p
  { s' with clients := replaceAt p none s'.clients }

/-- `~CServer` leaves that to `remove`. -/
def destroyServer (me p : Nat) (s : Private) : Private :=
  let s' :=
    match (s.servers p).bind (·.mCommEngine) with
    | none => s
    | some engine => s.removeServerFrom me engine p
  { s' with servers := replaceAt p none s'.servers }

/-- Every party in the lists exists. -/
def allExist (s : Private) : Bool :=
  s.mClientList.all (fun p => (s.clients p).isSome) &&
    s.mServerList.all (fun p => (s.servers p).isSome)

/-- The writes of `run` before its loop. -/
def registerAll (s : Private) (answers : List RegisterAnswers) : List SetID :=
  (s.mServerList.mapIdx fun i p => s.registerInterface p ((answers[i]?).getD default)).flatten

/-- The writes of `run` behind its loop. -/
def unregisterAll (s : Private) : List SetID :=
  s.mClientList.flatMap detachInterface ++ s.mServerList.flatMap unregisterInterface

/-- `findClient` by the number of the client. -/
def findClientById (value : Nat) (s : Private) : Except EngineFault (Option (Nat × Client)) :=
  findIf s.clients (·.mId == value) s.mClientList

/-- `handlePulse` for `PULSE_SERVER_AVAILABLE`: `attachInterface` gives the client an ID, none
(0), or leaves it as it is until an answer comes over TCP. -/
def handleServerAvailable (value : Nat) (clientID : Option SPartyID) (s : Private) :
    Except EngineFault Private :=
  (s.findClientById value).map fun
    | none => s
    | some (p, _) => s.setIDs (clientID.toList.map (.mClientID p))

/-- `handlePulse` for `PULSE_SERVER_DISCONNECT`. -/
def handleServerDisconnect (value : Nat) (s : Private) : Except EngineFault Private :=
  (s.findClientById value).map fun
    | none => s
    | some (p, _) =>
        { s with mClientCache := removeFromCache p s.mClientCache }.setIDs
          (CCommEngine.Private.detachInterface p)

/-- One step of the engine `me` and its parties.  Constructions take free addresses. -/
def step (me : Nat) (s : Private) : Event → Except EngineFault Private
  | .newClient p mId =>
      .ok (if (s.clients p).isSome then s
        else { s with clients := replaceAt p (some { mId := mId }) s.clients })
  | .newServer p mTCPIPEnabled =>
      .ok (if (s.servers p).isSome then s
        else { s with servers := replaceAt p (some { mTCPIPEnabled := mTCPIPEnabled }) s.servers })
  | .addClient engine p => .ok (s.addClientTo me engine p)
  | .addServer engine p answers => .ok (s.addServerTo me engine p answers)
  | .removeClient engine p => .ok (s.removeClientFrom me engine p)
  | .removeServer engine p => .ok (s.removeServerFrom me engine p)
  | .destroyClient p => .ok (s.destroyClient me p)
  | .destroyServer p => .ok (s.destroyServer me p)
  | .run answers =>
      if s.mActive then .ok s
      else if s.allExist then .ok { s.setIDs (s.registerAll answers) with mActive := true }
      else .error .destroyedParty
  | .stop =>
      if !s.mActive then .ok s
      else if s.allExist then .ok { s.setIDs s.unregisterAll with mActive := false }
      else .error .destroyedParty
  | .serverAvailable value clientID => s.handleServerAvailable value clientID
  | .serverDisconnect value => s.handleServerDisconnect value
  | .connected p clientID => .ok (s.setID (.mClientID p clientID))
  | .detachInterface p => .ok (s.setIDs (CCommEngine.Private.detachInterface p))
  | .findClient id => (s.findClient id).map (·.2)
  | .findServer id => (s.findServer id).map (·.2)

end Private

end CCommEngine

end Dsi
