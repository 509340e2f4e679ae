import Dsi.Server.Requests
import Dsi.Transport.Packets

/-!
# Dsi.Server.Handshake

The answers to connect requests: `CCommEngine::Private::handleMessage` finds the
server, and one of three handlers of `CServer` answers, depending on the channel and
on the length of the request.  The requester is `CClientConnectSM` for a TCP channel
and the engine of the client for a local one.

`handleConnectRequest` answers every local request and
`handleLegacyConnectRequestTCP` every legacy one, but `handleConnectRequestTCP` is
silent where TCP/IP is not enabled (`answered_iff`).
-/

namespace Dsi

open LittleEndian

/-! ## The contents of requests and answers -/

/-- `DSI::ConnectRequestInfo` and `DSI::TCPConnectRequestInfo`: two words, of which the
first is the process or the IP address. -/
structure ConnectRequestInfo where
  address : UInt32
  port : UInt32
  deriving DecidableEq, Repr

namespace ConnectRequestInfo

/-- `sizeof(ConnectRequestInfo)`. -/
def size : Nat := 8

/-- What a handler sends back if it refuses. -/
def zero : ConnectRequestInfo := ⟨0, 0⟩

def encode (info : ConnectRequestInfo) : List UInt8 :=
  bytes 4 info.address.toNat ++ bytes 4 info.port.toNat

/-- The structure in front of a stream. -/
def read? (bs : List UInt8) : Option (ConnectRequestInfo × List UInt8) := do
  let (address, bs) ← LittleEndian.read? 4 bs
  let (port, bs) ← LittleEndian.read? 4 bs
  pure (⟨.ofNat address, .ofNat port⟩, bs)

@[simp] theorem length_encode (info : ConnectRequestInfo) : info.encode.length = size := by
  simp [encode, size]

@[simp] theorem read?_encode_append (info : ConnectRequestInfo) (rest : List UInt8) :
    read? (info.encode ++ rest) = some (info, rest) := by
  have h32 (x : UInt32) (r : List UInt8) :
      LittleEndian.read? 4 (bytes 4 x.toNat ++ r) = some (x.toNat, r) :=
    read?_bytes_append 4 x.toNat (Nat.lt_of_lt_of_eq x.toNat_lt (by decide)) r
  simp [read?, encode, h32]

end ConnectRequestInfo

/-- `IPv4::Endpoint`. -/
structure Endpoint where
  ip : UInt32 := 0
  deriving DecidableEq, Repr

/-- `Endpoint::operator const sockaddr_t*`, which is the address of a member: what an
`if` on an endpoint tests. -/
def Endpoint.toPointer (ep : Endpoint) : Option Endpoint := some ep

/-- What the calls of a handler bring: the channel that was attached to the address of
the client, if it was, the detach notification, the name of the socket as `getsockname`
gives it, if it does, and the address of the engine. -/
structure ConnectCalls where
  channel : Nat
  attached : Bool
  notificationID : UInt32
  getsockname : Option UInt32
  pid : UInt32
  localChannel : UInt32
  ipPort : UInt32
  deriving DecidableEq, Repr

/-- `getLocalName`: the endpoint is zero before the call. -/
def ConnectCalls.getLocalName (calls : ConnectCalls) : Endpoint :=
  match calls.getsockname with
  | some ip => ⟨ip⟩
  | none => {}

/-! ## The handlers -/

namespace CServer

/-- `MessageHeader(serverID, clientID, ConnectResponse, protoMinor, sizeof(rci))`. -/
def connectResponse (hdr : MessageHeader) (protoMinor : UInt16) : MessageHeader where
  type := messageMagic
  protoMajor := 4
  protoMinor := protoMinor
  serverID := hdr.serverID
  clientID := hdr.clientID
  cmd := Command.ConnectResponse.toUInt32
  flags := 0
  packetLength := .ofNat ConnectRequestInfo.size
  reserved := 0

/-- The version that both sides speak. -/
def agreedMinor (hdr : MessageHeader) : UInt16 :=
  if hdr.protoMinor < DSI_PROTOCOL_VERSION_MINOR then hdr.protoMinor
  else DSI_PROTOCOL_VERSION_MINOR

/-- The request as it concerns the connections of the server. -/
def connectRequest (hdr : MessageHeader) (calls : ConnectCalls) (tcp : Bool) : ConnectRequest where
  clientID := hdr.clientID
  serverID := hdr.serverID
  protoMinor := hdr.protoMinor
  tcp := tcp
  channel := calls.channel
  expired := !calls.attached
  notificationID := calls.notificationID

/-- `handleConnectRequest` with what it sends to the requesting channel. -/
def answerConnectRequest (cfg : CServer.Config) (hdr : MessageHeader) (calls : ConnectCalls)
    (s : CServer) : CServer × List (List UInt8) :=
  let rci : ConnectRequestInfo := ⟨calls.pid, calls.localChannel⟩
  (s.handleConnectRequest cfg (connectRequest hdr calls false),
    [(connectResponse hdr (agreedMinor hdr)).encode ++ rci.encode])

/-- `handleConnectRequestTCP`. -/
def answerConnectRequestTCP (cfg : CServer.Config) (hdr : MessageHeader) (calls : ConnectCalls)
    (s : CServer) : CServer × List (List UInt8) :=
  if !cfg.mTCPIPEnabled then (s, [])
  else
    let s := s.handleConnectRequest cfg (connectRequest hdr calls true)
    let ep := calls.getLocalName
    if ep.toPointer.isNone then (s, [])
    else
      let rci : ConnectRequestInfo := ⟨ep.ip, calls.ipPort⟩
      (s, [(connectResponse hdr (agreedMinor hdr)).encode ++ rci.encode])

/-- `handleLegacyConnectRequestTCP`. -/
def answerLegacyConnectRequestTCP (cfg : CServer.Config) (hdr : MessageHeader)
    (calls : ConnectCalls)
    (s : CServer) : CServer × List (List UInt8) :=
  if !cfg.mTCPIPEnabled then (s, [ConnectRequestInfo.zero.encode])
  else
    let s := s.handleConnectRequest cfg (connectRequest hdr calls true)
    let ep := calls.getLocalName
    let rci : ConnectRequestInfo :=
      if ep.toPointer.isNone then .zero else ⟨ep.ip, calls.ipPort⟩
    (s, [rci.encode])

end CServer

open CServer

/-- The error message of a `CRequestWriter` for a server that is not there. -/
def connectRefused (hdr : MessageHeader) : CRequestWriter :=
  .create .ConnectResponse hdr.clientID hdr.serverID DSI_PROTOCOL_VERSION_MINOR default
    ⟨fun _ => 0, ConnectRequestInfo.size⟩

/-- The branch `ConnectRequest` of `CCommEngine::Private::handleMessage`, on the server
that was found: the server behind it, and what was sent to the requesting channel. -/
def handleConnectMessage (cfg : CServer.Config) (tcp : Bool) (hdr : MessageHeader)
    (calls : ConnectCalls)
    (server : Option CServer) : Option CServer × List (List UInt8) :=
  match server with
  | some s =>
      if tcp then
        if hdr.packetLength.toNat = ConnectRequestInfo.size then
          let r := s.answerLegacyConnectRequestTCP cfg hdr calls
          (some r.1, r.2)
        else
          let r := s.answerConnectRequestTCP cfg hdr calls
          (some r.1, r.2)
      else
        let r := s.answerConnectRequest cfg hdr calls
        (some r.1, r.2)
  | none =>
      if tcp then (none, [ConnectRequestInfo.zero.encode])
      else (none, [wire (connectRefused hdr).flush])

/-! ## The requesters -/

/-- The three formats of a request. -/
inductive Requester where
  | localEngine
  | legacyTCP
  | extendedTCP
  deriving DecidableEq, Repr

/-- The requester that a message comes from. -/
def Requester.of (tcp : Bool) (hdr : MessageHeader) : Requester :=
  if tcp then
    if hdr.packetLength.toNat = ConnectRequestInfo.size then .legacyTCP else .extendedTCP
  else .localEngine

/-- A `ConnectResponse` that consists of a header and two words. -/
def readConnectResponse (hdr : MessageHeader) (bs : List UInt8) : Option ConnectRequestInfo :=
  if hdr.cmd = Command.ConnectResponse.toUInt32 then
    match ConnectRequestInfo.read? bs with
    | some (info, []) => some info
    | _ => none
  else none

/-- What the requester takes an answer for, if it is one in a format that it expects:
`handleMessage` of the client, the eight bytes of the legacy format, and
`onLegacyConnectRequestTCP`, which goes on to read where it finds the magic of a
message header. -/
def Requester.reads (r : Requester) (bs : List UInt8) : Option ConnectRequestInfo :=
  match r with
  | .localEngine =>
      match MessageHeader.read? bs with
      | none => none
      | some (hdr, stream) =>
          let received := CRequestReader.receiveAll hdr stream
          if hdr.protoMajor = 4 ∧ received.ok = true ∧ received.rest = [] then
            readConnectResponse hdr received.mBuf
          else none
  | .legacyTCP =>
      match ConnectRequestInfo.read? bs with
      | some (info, []) => some info
      | _ => none
  | .extendedTCP =>
      match ConnectRequestInfo.read? bs with
      | none => none
      | some (info, rest) =>
          if info.address = messageMagic then
            match MessageHeader.read? bs with
            | none => none
            | some (hdr, bs) => readConnectResponse hdr bs
          else if rest.isEmpty then some info
          else none

/-! ## Reading the answers -/

theorem moreData_of_flags {hdr : MessageHeader} (h : hdr.flags = 0) : hdr.moreData = false := by
  rw [MessageHeader.moreData, h]
  decide

/-- The first word of a stream that goes on for another one. -/
theorem ConnectRequestInfo.read?_bytes_append (address : UInt32) {rest : List UInt8}
    (h : 4 ≤ rest.length) :
    ∃ port rest', ConnectRequestInfo.read? (bytes 4 address.toNat ++ rest) =
      some (⟨address, port⟩, rest') := by
  have haddress : LittleEndian.read? 4 (bytes 4 address.toNat ++ rest) =
      some (address.toNat, rest) :=
    LittleEndian.read?_bytes_append 4 address.toNat
      (Nat.lt_of_lt_of_eq address.toNat_lt (by decide)) rest
  refine ⟨.ofNat (value (rest.take 4)), rest.drop 4, ?_⟩
  have hport : LittleEndian.read? 4 rest = some (value (rest.take 4), rest.drop 4) := by
    rw [LittleEndian.read?, split?, if_pos h, Option.map_some]
  simp only [ConnectRequestInfo.read?, haddress, hport, Option.bind_eq_bind, Option.bind_some,
    Option.pure_def, UInt32.ofNat_toNat]

theorem readConnectResponse_encode {hdr : MessageHeader}
    (h : hdr.cmd = Command.ConnectResponse.toUInt32) (info : ConnectRequestInfo) :
    readConnectResponse hdr info.encode = some info := by
  have hread := info.read?_encode_append []
  rw [List.append_nil] at hread
  rw [readConnectResponse, if_pos h, hread]

theorem reads_legacyTCP (info : ConnectRequestInfo) :
    Requester.legacyTCP.reads info.encode = some info := by
  have hread := info.read?_encode_append []
  rw [List.append_nil] at hread
  rw [Requester.reads, hread]

/-- A refusal is the same for both TCP formats. -/
theorem reads_zero : Requester.extendedTCP.reads ConnectRequestInfo.zero.encode = some .zero := by
  decide

/-- A response of one packet, as the engine of the client receives it. -/
theorem reads_localEngine {hdr : MessageHeader} {payload : List UInt8} {info : ConnectRequestInfo}
    (hmajor : hdr.protoMajor = 4) (hcmd : hdr.cmd = Command.ConnectResponse.toUInt32)
    (hlength : hdr.packetLength.toNat = payload.length) (hmore : hdr.moreData = false)
    (hpayload : payload = info.encode) :
    Requester.localEngine.reads (hdr.encode ++ payload) = some info := by
  have hreceive := CRequestReader.receiveAll_append hdr payload [] hlength hmore
  rw [List.append_nil] at hreceive
  rw [Requester.reads, MessageHeader.read?_encode_append]
  dsimp only
  rw [hreceive, if_pos ⟨hmajor, rfl, rfl⟩, hpayload, readConnectResponse_encode hcmd]

theorem reads_localEngine_connectResponse (hdr : MessageHeader) (protoMinor : UInt16)
    (info : ConnectRequestInfo) :
    Requester.localEngine.reads ((connectResponse hdr protoMinor).encode ++ info.encode) =
      some info := by
  refine reads_localEngine rfl rfl ?_ (moreData_of_flags rfl) rfl
  rw [info.length_encode]
  rfl

/-- The magic in front of the header tells the extended format. -/
theorem reads_extendedTCP_connectResponse (hdr : MessageHeader) (protoMinor : UInt16)
    (info : ConnectRequestInfo) :
    Requester.extendedTCP.reads ((connectResponse hdr protoMinor).encode ++ info.encode) =
      some info := by
  obtain ⟨tail, htail⟩ : ∃ tail, (connectResponse hdr protoMinor).encode =
      bytes 4 messageMagic.toNat ++ tail := ⟨_, rfl⟩
  have hlength := congrArg List.length htail
  rw [MessageHeader.length_encode, List.length_append, length_bytes, sizeofMessageHeader] at hlength
  have hlong : 4 ≤ (tail ++ info.encode).length := by
    rw [List.length_append]
    omega
  obtain ⟨port, rest, hfront⟩ := ConnectRequestInfo.read?_bytes_append messageMagic hlong
  rw [← List.append_assoc, ← htail] at hfront
  rw [Requester.reads, hfront]
  dsimp only
  rw [if_pos rfl, MessageHeader.read?_encode_append]
  exact readConnectResponse_encode rfl info

theorem reads_connectRefused (hdr : MessageHeader) :
    Requester.localEngine.reads (wire (connectRefused hdr).flush) = some .zero := by
  have hle : (connectRefused hdr).totalLength ≤ payloadSize := by
    have hlength : (connectRefused hdr).totalLength = ConnectRequestInfo.size := rfl
    rw [hlength]
    decide
  have hmore : (connectRefused hdr).firstHeader.moreData = false := by
    rw [CRequestWriter.firstHeader, CRequestWriter.moreData_setPacket]
    exact decide_eq_false (Nat.not_lt_of_le hle)
  rw [(connectRefused hdr).flush_of_le hle, wire, List.flatMap_cons, List.flatMap_nil,
    List.append_nil]
  refine reads_localEngine rfl rfl ?_ hmore rfl
  rw [(connectRefused hdr).length_message]
  rfl

/-! ## Exactly one answer -/

/-- The address that a server can be reached at. -/
def ConnectCalls.own (calls : ConnectCalls) (tcp : Bool) : ConnectRequestInfo :=
  if tcp then ⟨calls.getLocalName.ip, calls.ipPort⟩ else ⟨calls.pid, calls.localChannel⟩

/-- The connect fails: there is no server, TCP/IP is not enabled, or the local endpoint
cannot be determined.  `strict` also counts a client that could not be attached. -/
def Fails (strict : Bool) (cfg : CServer.Config) (tcp : Bool) (calls : ConnectCalls)
    (server : Option CServer) : Prop :=
  server = none ∨ (tcp = true ∧ cfg.mTCPIPEnabled = false) ∨
    (tcp = true ∧ calls.getsockname = none) ∨ (strict = true ∧ calls.attached = false)

/-- A connect request is answered once, in a format that the requester reads, with a
zero address if the connect fails and the address of the server otherwise; and the
length of a TCP request makes no difference to the connections. -/
structure Answered (strict : Bool) (cfg : CServer.Config) (tcp : Bool) (hdr : MessageHeader)
    (calls : ConnectCalls) (server : Option CServer) : Prop where
  once : ∃ bs info, (handleConnectMessage cfg tcp hdr calls server).2 = [bs] ∧
    (Requester.of tcp hdr).reads bs = some info ∧
    (Fails strict cfg tcp calls server → info.address = 0) ∧
    (¬ Fails strict cfg tcp calls server → info = calls.own tcp)
  sameEffect : ∀ packetLength, tcp = true →
    ((handleConnectMessage cfg tcp { hdr with packetLength := packetLength } calls server).1.map
      (·.mClientConnections)) =
    (handleConnectMessage cfg tcp hdr calls server).1.map (·.mClientConnections)

/-- The server behind a TCP request does not depend on the format. -/
theorem handleConnectMessage_tcp (cfg : CServer.Config) (hdr : MessageHeader) (calls : ConnectCalls)
    (s : CServer) :
    (handleConnectMessage cfg true hdr calls (some s)).1 =
      some (if cfg.mTCPIPEnabled then
        s.handleConnectRequest cfg (connectRequest hdr calls true) else s) := by
  rw [handleConnectMessage]
  dsimp only
  rw [if_pos rfl]
  split
  · rw [answerLegacyConnectRequestTCP]
    cases cfg.mTCPIPEnabled <;> rfl
  · rw [answerConnectRequestTCP]
    cases cfg.mTCPIPEnabled <;> rfl

theorem sameEffect_handleConnectMessage (cfg : CServer.Config) (hdr : MessageHeader)
    (calls : ConnectCalls) (server : Option CServer) (packetLength : UInt32) :
    (handleConnectMessage cfg true { hdr with packetLength := packetLength } calls server).1 =
      (handleConnectMessage cfg true hdr calls server).1 := by
  cases server with
  | none => rfl
  | some s =>
      rw [handleConnectMessage_tcp, handleConnectMessage_tcp]
      rfl

/-- What is sent to a requester that was found a server. -/
theorem sent_handleConnectMessage (cfg : CServer.Config) (tcp : Bool) (hdr : MessageHeader)
    (calls : ConnectCalls) (s : CServer) :
    (handleConnectMessage cfg tcp hdr calls (some s)).2 =
      match Requester.of tcp hdr with
      | .localEngine =>
          [(connectResponse hdr (agreedMinor hdr)).encode ++ (calls.own tcp).encode]
      | .legacyTCP =>
          [(if cfg.mTCPIPEnabled then calls.own tcp else .zero).encode]
      | .extendedTCP =>
          if cfg.mTCPIPEnabled then
            [(connectResponse hdr (agreedMinor hdr)).encode ++ (calls.own tcp).encode]
          else [] := by
  rw [handleConnectMessage, Requester.of]
  cases tcp with
  | false => rfl
  | true =>
      dsimp only
      rw [if_pos rfl, if_pos rfl]
      by_cases hlegacy : hdr.packetLength.toNat = ConnectRequestInfo.size
      · rw [if_pos hlegacy, if_pos hlegacy]
        rw [answerLegacyConnectRequestTCP]
        cases cfg.mTCPIPEnabled <;> rfl
      · rw [if_neg hlegacy, if_neg hlegacy]
        rw [answerConnectRequestTCP]
        cases cfg.mTCPIPEnabled <;> rfl

theorem of_eq_localEngine {tcp : Bool} {hdr : MessageHeader} :
    Requester.of tcp hdr = .localEngine ↔ tcp = false := by
  rw [Requester.of]
  cases tcp with
  | false => exact iff_of_true rfl rfl
  | true =>
      rw [if_pos rfl]
      split <;> simp

/-- Where something is sent, the requester reads it. -/
theorem reads_sent (cfg : CServer.Config) (tcp : Bool) (hdr : MessageHeader) (calls : ConnectCalls)
    (s : CServer)
    (h : Requester.of tcp hdr = .extendedTCP → cfg.mTCPIPEnabled = true) :
    ∃ bs, (handleConnectMessage cfg tcp hdr calls (some s)).2 = [bs] ∧
      (Requester.of tcp hdr).reads bs =
        some (if tcp && !cfg.mTCPIPEnabled then .zero else calls.own tcp) := by
  have hsent := sent_handleConnectMessage cfg tcp hdr calls s
  cases hrequester : Requester.of tcp hdr with
  | localEngine =>
      rw [hrequester] at hsent
      refine ⟨_, hsent, ?_⟩
      rw [reads_localEngine_connectResponse, of_eq_localEngine.mp hrequester]
      rfl
  | legacyTCP =>
      have htcp : tcp = true := by
        cases tcp with
        | true => rfl
        | false => exact absurd hrequester (by rw [of_eq_localEngine.mpr rfl]; simp)
      rw [hrequester] at hsent
      refine ⟨_, hsent, ?_⟩
      rw [reads_legacyTCP, htcp]
      cases cfg.mTCPIPEnabled <;> rfl
  | extendedTCP =>
      have henabled := h hrequester
      rw [hrequester, henabled] at hsent
      refine ⟨_, hsent, ?_⟩
      rw [reads_extendedTCP_connectResponse, henabled]
      cases tcp <;> rfl

/-- No server is silent for an extended request, and where a client that could not be
attached counts as a failure, there is none. -/
structure Answerable (strict : Bool) (cfg : CServer.Config) (tcp : Bool) (hdr : MessageHeader)
    (calls : ConnectCalls) (server : Option CServer) : Prop where
  enabled : server.isSome = true → Requester.of tcp hdr = .extendedTCP → cfg.mTCPIPEnabled = true
  attached : strict = true → server.isSome = true → (tcp && !cfg.mTCPIPEnabled) = false →
    calls.attached = true ∨ (calls.own tcp).address = 0

theorem answered_none (strict : Bool) (cfg : CServer.Config) (tcp : Bool) (hdr : MessageHeader)
    (calls : ConnectCalls) : Answered strict cfg tcp hdr calls none where
  once := by
    have hfails : Fails strict cfg tcp calls none := .inl rfl
    cases tcp with
    | false =>
        exact ⟨_, _, rfl, reads_connectRefused hdr, fun _ => rfl, fun h => absurd hfails h⟩
    | true =>
        refine ⟨_, ConnectRequestInfo.zero, rfl, ?_, fun _ => rfl, fun h => absurd hfails h⟩
        rw [Requester.of, if_pos rfl]
        split
        · exact reads_legacyTCP .zero
        · exact reads_zero
  sameEffect packetLength htcp := by
    subst htcp
    rw [sameEffect_handleConnectMessage]

theorem answered_some (strict : Bool) {cfg : CServer.Config} {tcp : Bool} {hdr : MessageHeader}
    {calls : ConnectCalls} {s : CServer}
    (h : Answerable strict cfg tcp hdr calls (some s)) :
    Answered strict cfg tcp hdr calls (some s) where
  once := by
    obtain ⟨bs, hsent, hreads⟩ := reads_sent cfg tcp hdr calls s (h.enabled rfl)
    refine ⟨bs, _, hsent, hreads, fun hfails => ?_, fun hfails => ?_⟩
    · cases hrefused : tcp && !cfg.mTCPIPEnabled with
      | true => rfl
      | false =>
          rcases hfails with hnone | ⟨htcp, hdisabled⟩ | ⟨htcp, hname⟩ | ⟨hstrict, hattached⟩
          · exact absurd hnone (by simp)
          · rw [htcp, hdisabled] at hrefused
            exact absurd hrefused (by simp)
          · rw [if_neg Bool.false_ne_true, ConnectCalls.own, htcp, if_pos rfl,
              ConnectCalls.getLocalName, hname]
          · rw [if_neg Bool.false_ne_true]
            refine (h.attached hstrict rfl hrefused).resolve_left ?_
            rw [hattached]
            exact Bool.false_ne_true
    · cases hrefused : tcp && !cfg.mTCPIPEnabled with
      | false => rfl
      | true =>
          rw [Bool.and_eq_true, Bool.not_eq_true'] at hrefused
          exact absurd (.inr (.inl hrefused)) hfails
  sameEffect packetLength htcp := by
    subst htcp
    rw [sameEffect_handleConnectMessage]

theorem answerable_of_answered {strict : Bool} {cfg : CServer.Config} {tcp : Bool}
    {hdr : MessageHeader}
    {calls : ConnectCalls} {s : CServer} (h : Answered strict cfg tcp hdr calls (some s)) :
    Answerable strict cfg tcp hdr calls (some s) := by
  obtain ⟨bs, info, hsent, hreads, hzero, -⟩ := h.once
  have henabled : Requester.of tcp hdr = .extendedTCP → cfg.mTCPIPEnabled = true := by
    intro hrequester
    rw [sent_handleConnectMessage, hrequester] at hsent
    cases henabled : cfg.mTCPIPEnabled with
    | true => rfl
    | false =>
        rw [henabled] at hsent
        exact absurd hsent (by simp)
  refine ⟨fun _ => henabled, fun hstrict _ hrefused => ?_⟩
  obtain ⟨bs', hsent', hreads'⟩ := reads_sent cfg tcp hdr calls s henabled
  rw [hsent, List.cons.injEq] at hsent'
  rw [← hsent'.1, hreads, Option.some.injEq, hrefused, if_neg Bool.false_ne_true] at hreads'
  cases hattached : calls.attached with
  | true => exact .inl rfl
  | false =>
      right
      rw [← hreads']
      exact hzero (.inr (.inr (.inr ⟨hstrict, hattached⟩)))

/-- Every connect request is answered, except the extended ones to a server without
TCP/IP. -/
theorem answered_iff (strict : Bool) (cfg : CServer.Config) (tcp : Bool) (hdr : MessageHeader)
    (calls : ConnectCalls) (server : Option CServer) :
    Answered strict cfg tcp hdr calls server ↔ Answerable strict cfg tcp hdr calls server := by
  cases server with
  | none => exact iff_of_true (answered_none ..) ⟨nofun, nofun⟩
  | some s => exact ⟨answerable_of_answered, answered_some strict⟩

/-- An extended request of twelve bytes to a server without TCP/IP. -/
theorem not_answered_extended :
    ¬ ∀ (cfg : CServer.Config) (tcp : Bool) (hdr : MessageHeader) (calls : ConnectCalls)
      (server : Option CServer), Answered false cfg tcp hdr calls server := by
  intro h
  obtain ⟨bs, info, hsent, -⟩ := (h { requestMethods := [], attributes := [] } true
    ⟨messageMagic, 4, 0, ⟨1, 0⟩, ⟨2, 0⟩, 9, 0, 12, 0⟩ ⟨5, true, 7, some 1, 3, 4, 5⟩
    (some CServer.init)).once
  exact List.cons_ne_nil bs [] hsent.symm

end Dsi
