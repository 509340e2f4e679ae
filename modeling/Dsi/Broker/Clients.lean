import Dsi.Broker.Step
import Dsi.Common.Slist

/-!
# Dsi.Broker.Clients

`ServicebrokerServer`: the broker together with `mClients`, the intrusive list of the
connections that announced an extended ID with `MASTER_PING_ID`.  An announcement
disposes the connections in the list that have the announced ID and puts its own
connection into the list.  A TCP connection has a timer besides, which disposes it when
nothing was read from it since the timer fired last.  What accesses a connection that
is no more breaks off.
-/

namespace Dsi

/-- What the server breaks off with: an operation of the list fails, a connection that
is no more is asked for its ID, the result of a job is for a connection that is no
more, or for one that does not wait for it. -/
inductive ServerFault where
  | list (e : SlistFault)
  | deadClient
  | deadContext
  | assertion
  deriving DecidableEq, Repr

/-- A request frame: what `Servicebroker::dispatch` reads in it, and whether its command
is `DCMD_FND_MASTER_PING_ID` where it is none that is handled. -/
structure RequestFrame where
  request : Request
  refusedPing : Bool := false
  deriving DecidableEq, Repr

/-- `fr_cmd == DCMD_FND_MASTER_PING_ID`. -/
def RequestFrame.isPingId (f : RequestFrame) : Bool :=
  match f.request with
  | .masterPingId _ => true
  | .badFoundationVersion => f.refusedPing
  | .malformed => f.refusedPing
  | _ => false

/-- `ServicebrokerServer`.  `mClients` is there as the hooks of its elements, and each
connection has the counter `operations_` of its `TimerMixin`. -/
structure ServicebrokerServer where
  broker : Broker := {}
  mClients : SlistHooks Nat := Slist.hooks
  operations : Nat → UInt32 := fun _ => 0

/-- What can happen to a servicebroker process: besides whole frames there are reads
that complete none, and the timer of a connection fires. -/
inductive ServerEvent where
  | connected (nodeAddress localAddress : UInt32) (uid : Int32)
  | read (c : Nat)
  | frame (c : Nat) (f : RequestFrame)
  | closed (c : Nat)
  | timeout (c : Nat)
  | pulse (p : MasterPulse) (value : UInt32)
  | deliver
  | worker (w : Broker.WorkerStep)

namespace ServicebrokerServer

/-- A bound for the loops over the list: there are fewer connections. -/
def fuel (s : ServicebrokerServer) : Nat := s.broker.nextConnectionId + 1

/-- The extended ID of a connection. -/
def extendedID? (s : ServicebrokerServer) (c : Nat) : Option UInt32 :=
  (s.broker.data? c).map (·.mExtendedID)

/-- `addClient`. -/
def addClient (c : Nat) (s : ServicebrokerServer) : Except ServerFault ServicebrokerServer :=
  match Slist.pushFront c s.mClients with
  | .error e => .error (.list e)
  | .ok hooks => .ok { s with mClients := hooks }

/-- `removeClient`, for one connection. -/
def removeClient (c : Nat) (s : ServicebrokerServer) : Except ServerFault ServicebrokerServer :=
  match Slist.removeIf (fun c' => c' = c) s.fuel s.mClients with
  | .error e => .error (.list e)
  | .ok hooks => .ok { s with mClients := hooks }

/-- `~ServicebrokerClientBase`, and the memory is freed. -/
def dispose (cfg : Config) (c : Nat) (s : ServicebrokerServer) :
    Except ServerFault ServicebrokerServer :=
  match s.removeClient c with
  | .error e => .error e
  | .ok s =>
      .ok { s with
        broker := (s.broker.clear cfg c).setConnection c none
        mClients := Function.update s.mClients (.element c) none }

/-- The loop of `remove_if_and_dispose` with an `ExtendedIdPredicate`. -/
def removeClientsLoop (cfg : Config) (id : UInt32) :
    Nat → SlistNode Nat → ServicebrokerServer → Except ServerFault ServicebrokerServer
  | 0, _, _ => .error (.list .endless)
  | _ + 1, .mFirst, s => .ok s
  | steps + 1, .element c, s =>
      match s.extendedID? c with
      | none => .error .deadClient
      | some extendedID =>
          if extendedID = id then
            match Slist.erase s.fuel (.element c) s.mClients with
            | .error e => .error (.list e)
            | .ok (iter, hooks) =>
                match dispose cfg c { s with mClients := hooks } with
                | .error e => .error e
                | .ok s => removeClientsLoop cfg id steps iter s
          else
            match Slist.next s.mClients (.element c) with
            | .error e => .error (.list e)
            | .ok iter => removeClientsLoop cfg id steps iter s

/-- `removeClient`, for all connections with an extended ID. -/
def removeClients (cfg : Config) (id : UInt32) (s : ServicebrokerServer) :
    Except ServerFault ServicebrokerServer :=
  match Slist.next s.mClients .mFirst with
  | .error e => .error (.list e)
  | .ok iter => removeClientsLoop cfg id s.fuel iter s

/-- What `eval` does for `DCMD_FND_MASTER_PING_ID` between the dispatcher and the
response. -/
def announce (cfg : Config) (c : Nat) (s : ServicebrokerServer) :
    Except ServerFault ServicebrokerServer :=
  let id := (s.extendedID? c).getD 0
  if id = 0 then .ok s
  else
    match s.removeClients cfg id with
    | .error e => .error e
    | .ok s => s.addClient c

/-- The end of `eval`: the response is prepared, or the connection waits for it. -/
def respond (c : Nat) (r : Option Response) (s : ServicebrokerServer) : ServicebrokerServer :=
  { s with
    broker :=
      match r with
      | some resp => s.broker.emit (.response c resp)
      | none => s.broker.setConnection c
          ((s.broker.conns c).map (fun k => { k with deferred := true })) }

/-- Is the connection read from?  One that waits for its response is not. -/
def reads (s : ServicebrokerServer) (c : Nat) : Bool :=
  (s.broker.conns c).any (fun k => !k.deferred)

/-- `TimerMixin::tick`, which `handleRead` calls. -/
def tick (c : Nat) (s : ServicebrokerServer) : ServicebrokerServer :=
  if s.reads c then
    { s with operations := Function.update s.operations c (s.operations c + 1) }
  else s

/-- `ServicebrokerClientBase::eval`.  Where the process breaks off nothing is behind the
request. -/
def eval (cfg : Config) (c : Nat) (f : RequestFrame) (s : ServicebrokerServer) :
    Except ServerFault ServicebrokerServer :=
  match s.broker.conns c with
  | none => .ok s
  | some k =>
      if k.deferred || s.broker.breaksOff cfg f.request then .ok s
      else
        let r := s.broker.dispatch cfg (k.ctx c) f.request
        if f.isPingId then
          match announce cfg c { s with broker := r.1 } with
          | .error e => .error e
          | .ok s => .ok (s.respond c r.2)
        else .ok (respond c r.2 { s with broker := r.1 })

/-- `handleRead` or `handleWrite` with an error, on a connection that is armed. -/
def close (cfg : Config) (c : Nat) (s : ServicebrokerServer) :
    Except ServerFault ServicebrokerServer :=
  match s.broker.conns c with
  | none => .ok s
  | some k => if k.deferred then .ok s else s.dispose cfg c

/-- `TimerMixin<IPv4::StreamSocket>::handleTimeout`, which is there for TCP connections
and does not ask whether the connection waits. -/
def handleTimeout (cfg : Config) (c : Nat) (s : ServicebrokerServer) :
    Except ServerFault ServicebrokerServer :=
  match s.broker.conns c with
  | none => .ok s
  | some k =>
      if k.mNodeAddress = SB_LOCAL_NODE_ADDRESS then .ok s
      else if s.operations c ≠ 0 then
        .ok { s with operations := Function.update s.operations c 0 }
      else s.dispose cfg c

/-- `handleInternalNotification`: a job that carries a context has its result sent
through it. -/
def deliver (cfg : Config) (s : ServicebrokerServer) :
    Except ServerFault ServicebrokerServer :=
  let after := { s with broker := s.broker.step cfg .deliver }
  match s.broker.pipe with
  | .jobExecuted job _ :: _ =>
      match job.ctx with
      | none => .ok after
      | some c =>
          match s.broker.conns c with
          | none => .error .deadContext
          | some k => if k.deferred then .ok after else .error .assertion
  | _ => .ok after

/-- One step of the process. -/
def step (cfg : Config) (s : ServicebrokerServer) :
    ServerEvent → Except ServerFault ServicebrokerServer
  | .connected nodeAddress localAddress uid =>
      .ok { broker := s.broker.openConnection nodeAddress localAddress uid
            mClients :=
              Function.update s.mClients (.element s.broker.nextConnectionId) (some none)
            operations := Function.update s.operations s.broker.nextConnectionId 0 }
  | .read c => .ok (s.tick c)
  | .frame c f => (s.tick c).eval cfg c f
  | .closed c => s.close cfg c
  | .timeout c => s.handleTimeout cfg c
  | .pulse p value => .ok { s with broker := s.broker.step cfg (.pulse p value) }
  | .deliver => s.deliver cfg
  | .worker w => .ok { s with broker := s.broker.step cfg (.worker w) }

/-- A freshly started process. -/
def init : ServicebrokerServer := {}

end ServicebrokerServer

end Dsi
