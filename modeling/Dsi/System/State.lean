import Dsi.Client.Proxy

/-!
# Dsi.System.State

A server and its clients, with what is in flight between them: one queue in each
direction for every client, because a channel keeps the order of its messages.  A client
connects under an ID, sends the requests of its application and takes what arrives; the
server takes the requests one by one, and its application sets attributes at any time.

Steps of the clients, of the server and of the channels come in any order.
-/

namespace Dsi

open CServer (Config Fault ConnectRequest DataRequest DSI_PROTOCOL_VERSION_MINOR)

/-! ## The state -/

/-- How far a client is with its connection: it waits for the answer of the server until it is
connected, and is gone behind `detachInterface`. -/
inductive Phase where
  | detached
  | connecting
  | connected
  | gone
  deriving DecidableEq, Repr

/-- What a client sends. -/
inductive Uplink where
  | connect (q : ConnectRequest)
  | data (h : DataRequest)
  | disconnect
  deriving DecidableEq, Repr

/-- What a client is sent. -/
inductive Downlink where
  | connectResponse (protoMinor : UInt16)
  | data (d : DataResponse)
  deriving DecidableEq, Repr

/-- A client under one ID. -/
structure Party (kind : UInt32 → AttributeKind) where
  proxy : Proxy kind := {}
  phase : Phase := .detached

/-- The party takes messages: `CCommEngine` finds its client by the ID. -/
def Party.isAttached {kind : UInt32 → AttributeKind} (p : Party kind) : Bool :=
  p.phase == .connecting || p.phase == .connected

/-- A message arrives: `handleConnectResponse` or `handleDataResponse`.  Without the client it
is dropped, and without a state machine the answer is a failed assertion. -/
def Party.receive (svc : Service) (junk : (n : Nat) → BitVec n) (p : Party svc.kind) :
    Downlink → Option (Party svc.kind)
  | .connectResponse protoMinor =>
      match p.phase with
      | .connecting =>
          some { proxy := { p.proxy.notify .componentConnected with
                   mProtoMinor :=
                     if protoMinor < DSI_PROTOCOL_VERSION_MINOR then protoMinor
                     else DSI_PROTOCOL_VERSION_MINOR }
                 phase := .connected }
      | .connected => none
      | .detached | .gone => some p
  | .data d =>
      if p.isAttached then
        (p.proxy.handleDataResponse svc junk d).map fun proxy => { p with proxy := proxy }
      else some p

/-- The server, its clients by their IDs, with the counters of their processes, and what is
in flight. -/
structure System (svc : Service) where
  stub : Stub svc.kind := {}
  party : SPartyID → Party svc.kind := fun _ => {}
  nextID : SPartyID → Nat := fun _ => 1
  uplink : SPartyID → List Uplink := fun _ => []
  downlink : SPartyID → List Downlink := fun _ => []

namespace System

variable {svc : Service}

/-! ## Steps -/

/-- What the stub has sent is on its way. -/
def flush (sys : System svc) : System svc :=
  { sys with
    stub := { sys.stub with sent := [] }
    downlink := fun c =>
      sys.downlink c ++ (sys.stub.sent.filter (fun d => d.message.clientID == c)).map .data }

/-- The stub does something, and what it sends is on its way. -/
def server (cfg : CServer.Config) (raw : Nat → UInt8) (e : Stub.Event svc.kind) (sys : System svc) :
    Except Fault (System svc) :=
  Stub.step cfg raw sys.stub e >>= fun b => .ok ({ sys with stub := b }).flush

/-- A message is put into the queue of a client. -/
def answer (c : SPartyID) (m : Downlink) (sys : System svc) : System svc :=
  { sys with downlink := Function.update sys.downlink c (sys.downlink c ++ [m]) }

/-- What can happen.  `attach` starts a connection, with the values that the copies have kept,
`detach` is `detachInterface`, `deliver` and `receive` take the next message of a client at
either end, with what the application calls in the handlers; the others are events of the
server. -/
inductive Event (svc : Service) where
  | attach (c : SPartyID) (q : ConnectRequest) (values : (id : UInt32) → (svc.kind id).ty.Val)
  | call (c : SPartyID) (call : Proxy.Call)
  | detach (c : SPartyID)
  | deliver (c : SPartyID)
  | receive (c : SPartyID) (user : List (List (Stub.Call svc.kind)))
  | app (user : List (Stub.Call svc.kind))
  | detached (id : Int32) (user : List (List (Stub.Call svc.kind)))
  | channelClosed (channel : Nat)
  | unregisterInterface
  | createId

/-- One step. -/
def step (svc : Service) (raw : Nat → UInt8) (junk : (n : Nat) → BitVec n) (sys : System svc) :
    Event svc → Except Fault (System svc)
  | .attach c q values =>
      if (sys.party c).phase = .detached then
        .ok { sys with
          party := Function.update sys.party c
            { proxy := { mClientID := c, copy := fun id => ⟨values id, .DATA_NOT_AVAILABLE⟩ }
              phase := .connecting }
          uplink := Function.update sys.uplink c
            (sys.uplink c ++ [.connect { q with clientID := c }]) }
      else .ok sys
  | .call c call =>
      if (sys.party c).phase = .connected then
        let r := (sys.party c).proxy.call (sys.nextID c) call
        .ok { sys with
          nextID := Function.update sys.nextID c r.2
          uplink := Function.update sys.uplink c (sys.uplink c ++ r.1.map .data) }
      else .ok sys
  | .detach c =>
      if (sys.party c).isAttached then
        .ok { sys with
          party := Function.update sys.party c
            { proxy := (sys.party c).proxy.doComponentDisconnected, phase := .gone }
          uplink := Function.update sys.uplink c (sys.uplink c ++ [.disconnect]) }
      else .ok sys
  | .deliver c =>
      match sys.downlink c with
      | [] => .ok sys
      | m :: queue =>
          match (sys.party c).receive svc junk m with
          | none => .error .outOfRange
          | some p =>
              .ok { sys with
                party := Function.update sys.party c p
                downlink := Function.update sys.downlink c queue }
  | .receive c user =>
      match sys.uplink c with
      | [] => .ok sys
      | m :: queue =>
          let sys := { sys with uplink := Function.update sys.uplink c queue }
          match m with
          | .connect q =>
              sys.server svc.config raw (.connect q) >>= fun sys =>
                -- a connect request through TCP is not answered where TCP/IP is not enabled
                if q.tcp && !svc.config.mTCPIPEnabled then .ok sys
                else .ok (sys.answer c (.connectResponse
                  (if q.protoMinor < DSI_PROTOCOL_VERSION_MINOR then q.protoMinor
                    else DSI_PROTOCOL_VERSION_MINOR)))
          | .data h => sys.server svc.config raw (.dataRequest h (user.headD []))
          | .disconnect => sys.server svc.config raw (.disconnect c user)
  | .app user => sys.server svc.config raw (.user user)
  | .detached id user => sys.server svc.config raw (.detached id user)
  | .channelClosed channel => sys.server svc.config raw (.channelClosed channel)
  | .unregisterInterface => sys.server svc.config raw .unregisterInterface
  | .createId => sys.server svc.config raw .createId

/-- The system behind a sequence of events, if none of them breaks a process off. -/
def run (svc : Service) (raw : Nat → UInt8) (junk : (n : Nat) → BitVec n) :
    System svc → List (Event svc) → Except Fault (System svc) :=
  Partial.run (step svc raw junk)

/-- A server without clients. -/
def init (svc : Service) : System svc := {}

end System

end Dsi
