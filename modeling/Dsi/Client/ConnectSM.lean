import Dsi.Lib.Partial

/-!
# Dsi.Client.ConnectSM

How a client connects (`base/CClientConnectSM.cpp`, `CClient::attachInterface` and
`CClient::detachInterface`), as far as the client IDs of the servicebroker are
concerned.  The broker numbers the IDs it hands out; 0 is none.

`attach` takes up to two IDs from the broker, one for the local and one for the TCP
transport.  Which of them are given back, and how often, depends on how each of its
calls ends and on what comes afterwards: the answer of the server, or a
`detachInterface` that deletes the state machine.  A client with an ID sends a disconnect
request when it is detached, through a channel that need not be there.
-/

namespace Dsi

/-- `CClientConnectSM`: the client IDs in `mConnInfo` and `mTcpConnInfo`, and whether it
waits for the answer of the server on its own TCP channel. -/
structure CClientConnectSM where
  mConnInfo : Nat := 0
  mTcpConnInfo : Nat := 0
  asyncRead : Bool := false
  deriving DecidableEq, Repr

/-- What the `weak_ptr` to the channel of a client refers to: the `CDummyChannel` that it
begins with, a channel to the server, or one that is gone or could not be attached. -/
inductive ClientChannel where
  | dummy
  | live
  | expired
  deriving DecidableEq, Repr

/-- `CClient`, with the number of IDs that the broker handed out and the calls of
`CServicebroker::detachInterface`. -/
structure CClient where
  mClientID : Nat := 0
  mChannel : ClientChannel := .dummy
  mConnector : Option CClientConnectSM := none
  attached : Nat := 0
  detached : List Nat := []
  deriving DecidableEq, Repr

namespace CClient

/-! ## The servicebroker -/

/-- A call of `attachInterface` or `attachInterfaceTCP` that succeeds. -/
def brokerAttach (c : CClient) : Nat × CClient :=
  (c.attached + 1, { c with attached := c.attached + 1 })

/-- `CServicebroker::detachInterface`. -/
def brokerDetach (id : Nat) (c : CClient) : CClient := { c with detached := c.detached ++ [id] }

/-- `if (id != 0) CServicebroker::detachInterface(id)`. -/
def brokerDetachIf (id : Nat) (c : CClient) : CClient := if id ≠ 0 then c.brokerDetach id else c

end CClient

/-- What breaks the process off: a failed assertion, and a state machine that is deleted
again behind the callback in which it was deleted. -/
inductive ConnectFault where
  | assertion
  | doubleDelete
  deriving DecidableEq, Repr

/-- `DSI_FORCE_TCP`, and whether assertions are compiled in. -/
structure ClientConfig where
  isTCPForced : Bool := false
  NDEBUG : Bool := false
  deriving DecidableEq, Repr

namespace CClient

/-! ## The client -/

/-- `sendDisconnectRequest`.  `CDummyChannel::sendAll` is an `assert(false)`, and so is a
channel that has expired; whether a channel to the server takes the request is not asked. -/
def sendDisconnectRequest (cfg : ClientConfig) (c : CClient) : Except ConnectFault Unit :=
  match c.mChannel with
  | .live => .ok ()
  | .dummy | .expired => if cfg.NDEBUG then .ok () else .error .assertion

/-- `detachInterface` behind the disconnect request. -/
def dropID (c : CClient) : CClient := { c.brokerDetachIf c.mClientID with mClientID := 0 }

/-- `CClient::detachInterface`: the state machine is deleted. -/
def detachInterface (cfg : ClientConfig) (c : CClient) : Except ConnectFault CClient :=
  let c := { c with mConnector := none }
  if c.mClientID ≠ 0 then c.sendDisconnectRequest cfg >>= fun _ => .ok c.dropID else .ok c

end CClient

/-- How the calls of `CClientConnectSM::attach` end: `nid` is the node of the server. -/
structure AttachCalls where
  attachInterface : Bool
  nid : Nat
  attachInterfaceTCP : Bool
  attachTCP : Bool
  sendTCP : Bool
  attach : Bool
  send : Bool
  deriving DecidableEq, Repr

/-- What comes back on the TCP channel: nothing, the legacy answer, or a message header
with one behind it. -/
inductive TCPAnswer where
  | error
  | legacy (ipAddress : UInt32)
  | extended (isConnectResponse : Bool) (ipAddress : UInt32)
  deriving DecidableEq, Repr

/-- `onLegacyConnectRequestTCP` and `onConnectRequestTCP` accept the answer. -/
def TCPAnswer.accepted : TCPAnswer → Bool
  | .error => false
  | .legacy ipAddress => ipAddress != 0
  | .extended isConnectResponse ipAddress => isConnectResponse && ipAddress != 0

/-- `attach` finds a local channel to the server and no other one before. -/
def AttachCalls.initiatesLocal (cfg : ClientConfig) (calls : AttachCalls) : Bool :=
  calls.attachInterface && calls.nid == 0 && calls.attach &&
    !(cfg.isTCPForced && calls.attachInterfaceTCP && calls.attachTCP)

/-- `attach` sends its request over TCP. -/
def AttachCalls.initiatesTCP (cfg : ClientConfig) (calls : AttachCalls) : Bool :=
  calls.attachInterface && (cfg.isTCPForced || calls.nid != 0) && calls.attachInterfaceTCP &&
    calls.attachTCP && calls.sendTCP

namespace CClientConnectSM

open CClient

/-- `onFailure`. -/
def onFailure (cfg : ClientConfig) (sm : CClientConnectSM) (c : CClient) :
    Except ConnectFault CClient :=
  ((c.brokerDetachIf sm.mTcpConnInfo).brokerDetachIf sm.mConnInfo).detachInterface cfg

/-- The second half of `attach`, where there is no channel yet. -/
def attachLocal (cfg : ClientConfig) (calls : AttachCalls) (sm : CClientConnectSM) (c : CClient) :
    Except ConnectFault CClient :=
  if calls.nid = 0 ∧ calls.attach = true then
    -- `initiateConnectRequest` sets the ID before it sends
    let c := { c with mClientID := sm.mConnInfo }
    if calls.send then .ok { c.brokerDetachIf sm.mTcpConnInfo with mConnector := some sm }
    else sm.onFailure cfg c
  else sm.onFailure cfg c

/-- `attach`. -/
def attach (cfg : ClientConfig) (calls : AttachCalls) (c : CClient) :
    Except ConnectFault CClient :=
  if calls.attachInterface then
    let r := c.brokerAttach
    let sm : CClientConnectSM := { mConnInfo := r.1 }
    if (cfg.isTCPForced = true ∨ calls.nid ≠ 0) ∧ calls.attachInterfaceTCP = true then
      let t := r.2.brokerAttach
      let sm := { sm with mTcpConnInfo := t.1 }
      if calls.attachTCP then
        if calls.sendTCP then
          .ok { t.2.brokerDetach sm.mConnInfo with
                mConnector := some { sm with mConnInfo := 0, asyncRead := true } }
        else sm.onFailure cfg t.2
      else sm.attachLocal cfg calls t.2
    else sm.attachLocal cfg calls r.2
  else onFailure cfg {} c

/-- `finalizeConnectRequest`, for a channel to the server that was attached or not:
`detaches` tells whether the client is detached in `doComponentConnected`, which deletes
the object before `delete this`. -/
def finalizeConnectRequest (cfg : ClientConfig) (channel detaches : Bool) (c : CClient) :
    Except ConnectFault CClient :=
  let c := { c with mChannel := if channel then .live else .expired }
  if detaches then c.detachInterface cfg >>= fun _ => .error .doubleDelete
  else .ok { c with mConnector := none }

end CClientConnectSM

namespace CClient

open CClientConnectSM

/-- What can happen to a client.  `channel` tells whether the engine attaches the channel
that an answer names. -/
inductive Event where
  | attachInterface (calls : AttachCalls)
  | connectResponse (pid : Nat) (channel detaches : Bool)
  | tcpAnswer (answer : TCPAnswer) (channel detaches : Bool)
  | detachInterface
  | channelClosed
  deriving DecidableEq, Repr

/-- One step of the client.  Without assertions a second state machine replaces the
first one. -/
def step (cfg : ClientConfig) (c : CClient) : Event → Except ConnectFault CClient
  | .attachInterface calls =>
      if c.mConnector.isSome && !cfg.NDEBUG then .error .assertion
      else attach cfg calls { c with mConnector := none }
  | .connectResponse pid channel detaches =>
      match c.mConnector with
      | none => .error .assertion
      | some sm =>
          if pid ≠ 0 then finalizeConnectRequest cfg channel detaches c else sm.onFailure cfg c
  | .tcpAnswer answer channel detaches =>
      match c.mConnector with
      | none => .ok c
      | some sm =>
          if sm.asyncRead then
            if answer.accepted then
              finalizeConnectRequest cfg channel detaches { c with mClientID := sm.mTcpConnInfo }
            else sm.onFailure cfg c
          else .ok c
  | .detachInterface => c.detachInterface cfg
  | .channelClosed =>
      .ok (if c.mChannel = .live then { c with mChannel := .expired } else c)

/-! ## IDs in use -/

/-- The IDs that are not given back yet: the one of the client, and the one that its
state machine waits to be accepted. -/
def inUse (c : CClient) : List Nat :=
  c.mClientID ::
    match c.mConnector with
    | none => []
    | some sm => if sm.asyncRead then [sm.mTcpConnInfo] else [sm.mConnInfo]

/-- The broker was told once of every ID that it handed out and that is not in `used`,
and of no other one. -/
def Returned (used : List Nat) (c : CClient) : Prop :=
  ∀ id, c.detached.count id = if 0 < id ∧ id ≤ c.attached ∧ id ∉ used then 1 else 0

/-- Every ID is detached exactly once, except those in use. -/
def DetachedOnce (c : CClient) : Prop := c.Returned c.inUse

/-- Every step comes to an end with every ID detached exactly once that is not in use. -/
def KeepsDetachedOnce (cfg : ClientConfig) (c : CClient) (e : Event) : Prop :=
  ∃ c', step cfg c e = .ok c' ∧ DetachedOnce c'

/-- The state machine waits for its TCP channel. -/
def awaitsTCP (c : CClient) : Bool := c.mConnector.any (·.asyncRead)

/-- The client has no ID, or nothing fails when it sends the disconnect request. -/
def canDetach (cfg : ClientConfig) (c : CClient) : Bool :=
  c.mClientID == 0 || c.mChannel == .live || cfg.NDEBUG

/-- The steps that give every ID back: no local connect request is started while the
client has an ID, or fails to be sent, or is refused; a server that was asked over TCP
answers there, to a client without an ID and with its state machine still in place; and a
client that is detached, or whose request fails, can do so. -/
def givesBack (cfg : ClientConfig) (c : CClient) : Event → Bool
  | .attachInterface calls =>
      (c.mConnector.isNone || (cfg.NDEBUG && !c.awaitsTCP)) &&
        if calls.initiatesLocal cfg then c.mClientID == 0 && calls.send
        else calls.initiatesTCP cfg || c.canDetach cfg
  | .connectResponse pid _ detaches =>
      c.mConnector.isSome &&
        if pid ≠ 0 then !c.awaitsTCP && !detaches else c.awaitsTCP && c.canDetach cfg
  | .tcpAnswer answer _ detaches =>
      !c.awaitsTCP || if answer.accepted then c.mClientID == 0 && !detaches else c.canDetach cfg
  | .detachInterface => !c.awaitsTCP && c.canDetach cfg
  | .channelClosed => true

end CClient

end Dsi
