import Dsi.Server.Connected
import Dsi.Stream.Updates

/-!
# Dsi.Server.Stub

The stub with what it transfers: the values of its attributes
(`ServerAttribute` in `CDSIStub.hpp.jet`), the setters, and the payloads of its messages.
The rest of the stub is the `CServer` in it, whose messages have no payload: a packet is
a message with what the writer streams behind it while the message is written.

A data request is taken apart at the handler of the application, which may set
attributes: `startDataRequest` is what comes before it, `leaveHandler` what comes
after it (`handleDataRequest_eq_resume`).  `step_projects` says that what happens to the stub
happens to the server in it.
-/

namespace Dsi

namespace CServer

/-! ## A request without its handler -/

/-- The call of the handler of a request. -/
def enterHandler (h : DataRequest) (s : CServer) : CServer :=
  s.emit (.called h.requestId s.mClientID h.sequenceNr s.mSessionId)

/-- What follows the handler of a method. -/
def leaveHandler (kind : MethodKind) (s : CServer) : CServer :=
  match kind with
  | .request => s.finishRequest
  | .register => s.leaveSession.finishRequest
  | .unregister => (s.removeSession s.mSessionId).leaveSession.finishRequest

/-- `processRequest` for one method up to the handler.  Where the handler is not called
that is all, and there is no kind. -/
def startMethod (cfg : Config) (m : RequestMethod) (h : DataRequest) (s : CServer) :
    Except Fault (CServer × Option MethodKind) :=
  let session := s.findSession h.sequenceNr s.mClientID
  match m.kind with
  | .request =>
      .ok (if m.decodes h.payload then (s.enterHandler h, some .request)
        else (s.finishRequest, none))
  | .register =>
      (s.enterSession session).openSession cfg h session >>= fun s =>
        .ok (if m.decodes h.payload then (s.enterHandler h, some .register)
          else (s.leaveSession.finishRequest, none))
  | .unregister =>
      let s := s.enterSession session
      .ok (if s.mSessionId ≠ INVALID_SESSION_ID then (s.enterHandler h, some .unregister)
        else (s.leaveSession.finishRequest, none))

/-- `handleDataRequest` for `REQUEST` up to the handler. -/
def startRequest (cfg : Config) (h : DataRequest) (s : CServer) :
    Except Fault (CServer × Option MethodKind) :=
  let responseId := cfg.getResponse h.requestId
  if responseId ≠ INVALID_ID ∧ cfg.statesFit = false then .error .outOfRange
  else if s.isResponseDangling responseId then
    s.sendErrorToClient cfg h.clientID h.requestId .RESULT_REQUEST_BUSY h.sequenceNr >>=
      fun s => .ok (s, none)
  else
    let s := s.acceptRequest h responseId
    match cfg.requestMethods[h.requestId.toNat]? with
    | none => .ok (s.finishRequest, none)
    | some m => s.startMethod cfg m h

/-- A request is answered that its response is busy, there is no method for it, or its method
is started. -/
theorem startRequest_cases {cfg : Config} {h : DataRequest} {s : CServer}
    {r : CServer × Option MethodKind} (hs : s.startRequest cfg h = .ok r) :
    (s.isResponseDangling (cfg.getResponse h.requestId) = true ∧ ∃ t,
        s.sendErrorToClient cfg h.clientID h.requestId .RESULT_REQUEST_BUSY h.sequenceNr = .ok t ∧
          r = (t, none)) ∨
      s.isResponseDangling (cfg.getResponse h.requestId) = false ∧
        (r = ((s.acceptRequest h (cfg.getResponse h.requestId)).finishRequest, none) ∨
          ∃ m, (s.acceptRequest h (cfg.getResponse h.requestId)).startMethod cfg m h = .ok r) := by
  unfold startRequest at hs
  dsimp only at hs
  split at hs
  · cases hs
  · split at hs
    · next hd =>
      obtain ⟨t, ht, hs⟩ := Partial.bind_eq_ok hs
      exact Or.inl ⟨hd, t, ht, (Except.ok.inj hs).symm⟩
    · next hd =>
      refine Or.inr ⟨Bool.eq_false_iff.mpr hd, ?_⟩
      split at hs
      · exact Or.inl (Except.ok.inj hs).symm
      · next m _ => exact Or.inr ⟨m, hs⟩

/-- `handleDataRequest` up to the handler. -/
def startDataRequest (cfg : Config) (h : DataRequest) (s : CServer) :
    Except Fault (CServer × Option MethodKind) :=
  let r := s.findClientConnection h.clientID
  if protoMinorOf r.1 ≠ h.protoMinor then .ok (r.2, none)
  else if h.requestType = .REQUEST then r.2.startRequest cfg h
  else r.2.dispatchRequest cfg h [] >>= fun s => .ok (s, none)

/-- What is behind a handler that was called with these calls. -/
def resume (cfg : Config) (user : List UserCall) (r : CServer × Option MethodKind) :
    Except Fault CServer :=
  match r.2 with
  | none => .ok r.1
  | some kind => calls cfg r.1 user >>= fun s => .ok (s.leaveHandler kind)

theorem processMethod_eq (cfg : Config) (m : RequestMethod) (h : DataRequest)
    (user : List UserCall) (s : CServer) :
    (s.processMethod cfg m h user >>= fun s => .ok s.finishRequest) =
      s.startMethod cfg m h >>= resume cfg user := by
  unfold processMethod startMethod
  cases m.kind with
  | request =>
      by_cases hd : m.decodes h.payload = true
      · simp only [readAndCall, if_pos hd]
        rfl
      · simp only [readAndCall, if_neg hd]
        rfl
  | register =>
      dsimp only
      cases (s.enterSession (s.findSession h.sequenceNr s.mClientID)).openSession cfg h
          (s.findSession h.sequenceNr s.mClientID) with
      | error e => rfl
      | ok t =>
          by_cases hd : m.decodes h.payload = true
          · simp only [readAndCall, if_pos hd, bind, Except.bind, resume, callHandler, enterHandler]
            cases calls cfg (t.emit
              (.called h.requestId t.mClientID h.sequenceNr t.mSessionId)) user <;> rfl
          · simp only [readAndCall, if_neg hd]
            rfl
  | unregister =>
      obtain ⟨t, ht⟩ : ∃ t, s.enterSession (s.findSession h.sequenceNr s.mClientID) = t :=
        ⟨_, rfl⟩
      simp only [ht]
      by_cases hi : t.mSessionId ≠ INVALID_SESSION_ID
      · simp only [endSession, if_pos hi, bind, Except.bind, resume, callHandler, enterHandler]
        cases calls cfg (t.emit
          (.called h.requestId t.mClientID h.sequenceNr t.mSessionId)) user <;> rfl
      · simp only [endSession, if_neg hi]
        rfl

/-- A data request is what comes before its handler, the calls of the handler, and what
comes after it. -/
theorem handleDataRequest_eq_resume (cfg : Config) (h : DataRequest) (user : List UserCall)
    (s : CServer) :
    s.handleDataRequest cfg h user = s.startDataRequest cfg h >>= resume cfg user := by
  unfold handleDataRequest startDataRequest
  dsimp only
  split
  · rfl
  · obtain ⟨t, ht⟩ : ∃ t, (s.findClientConnection h.clientID).2 = t := ⟨_, rfl⟩
    rw [ht, dispatchRequest]
    by_cases hr : h.requestType = .REQUEST
    · rw [if_pos hr]
      simp only [hr, handleRequest, startRequest]
      split
      · rfl
      · split
        · cases t.sendErrorToClient cfg h.clientID h.requestId .RESULT_REQUEST_BUSY
            h.sequenceNr <;> rfl
        · rw [processRequest]
          cases cfg.requestMethods[h.requestId.toNat]? with
          | none => rfl
          | some m => exact processMethod_eq cfg m h user _
    · rw [if_neg hr, dispatchRequest]
      cases hk : h.requestType <;> try rfl
      · exact absurd hk hr
      all_goals
        dsimp only
        cases t.handleNotify cfg h <;> rfl

end CServer

/-! ## The stub -/

/-- A message of the server with the payload that its writer flushes. -/
structure DataResponse where
  message : CServer.Message
  payload : List UInt8
  deriving DecidableEq, Repr

/-- The state of an attribute, as the server keeps it. -/
def CServer.DataStateType.ofAttribute : Dsi.DataStateType → CServer.DataStateType
  | .DATA_NOT_AVAILABLE => .DATA_NOT_AVAILABLE
  | .DATA_INVALID => .DATA_INVALID
  | .DATA_OK => .DATA_OK

/-- The state of an attribute, as the attribute has it. -/
def CServer.DataStateType.toAttribute : CServer.DataStateType → Dsi.DataStateType
  | .DATA_NOT_AVAILABLE => .DATA_NOT_AVAILABLE
  | .DATA_INVALID => .DATA_INVALID
  | .DATA_OK => .DATA_OK

/-- The stub of an interface whose attributes are of these kinds: the states of the
attributes are those of the server. -/
structure Stub (kind : UInt32 → AttributeKind) where
  server : CServer := {}
  mValue : (id : UInt32) → (kind id).ty.Val := fun id => (kind id).ty.init fun n => 0#n
  sent : List DataResponse := []

namespace Stub

open CServer

variable {kind : UInt32 → AttributeKind}

/-- An attribute of the stub. -/
def serverAttribute (b : Stub kind) (id : UInt32) : ServerAttribute (kind id).ty :=
  ⟨b.mValue id, (b.server.attributeState id).toAttribute⟩

/-- An attribute is assigned. -/
def setAttribute (id : UInt32) (attr : ServerAttribute (kind id).ty) (b : Stub kind) :
    Stub kind :=
  { b with
    server := { b.server with attributeState := fun id' =>
      if id' = id then .ofAttribute attr.mState else b.server.attributeState id' }
    mValue := Function.update b.mValue id attr.mValue }

/-- What is streamed behind a message: an attribute that is valid, the 0 of
`sendErrorToClient`, and the parameters of a response or the error of `sendResponse`. -/
def payload (raw : Nat → UInt8) (args : UpdateArgs) (params : List UInt8) (b : Stub kind)
    (m : CServer.Message) : Option (List UInt8) :=
  match m.responseType with
  | .RESULT_DATA_OK => (kind m.requestID).write raw (b.mValue m.requestID) args
  | .RESULT_DATA_INVALID => some []
  | .RESULT_REQUEST_BUSY => some (LittleEndian.bytes 4 0)
  | .RESULT_OK | .RESULT_INVALID | .RESULT_REQUEST_ERROR => some params

/-- The data responses of what the server does to the outside, if each of them can be
written. -/
def dataResponses (pay : CServer.Message → Option (List UInt8)) :
    List CServer.Output → Option (List DataResponse)
  | [] => some []
  | o :: os =>
      match o.message? with
      | none => dataResponses pay os
      | some m => (pay m).bind fun bytes => (dataResponses pay os).map (⟨m, bytes⟩ :: ·)

/-- An operation of the server, with its messages written as `payload` says. -/
def write (raw : Nat → UInt8) (args : UpdateArgs) (params : List UInt8)
    (f : CServer → Except Fault CServer) (b : Stub kind) : Except Fault (Stub kind) :=
  f b.server >>= fun s =>
    match dataResponses (b.payload raw args params) (s.log.drop b.server.log.length) with
    | none => .error .outOfRange
    | some ps => .ok { b with server := s, sent := b.sent ++ ps }

/-- An operation of the server that streams nothing of the application. -/
def lift (raw : Nat → UInt8) (f : CServer → Except Fault CServer) :
    Stub kind → Except Fault (Stub kind) :=
  write raw .complete [] f

/-! ## The application -/

/-- What the application calls: a setter, an assignment through the reference that the
getter returns, and the calls of the server, with the arguments of a notification and
the parameters of a response. -/
inductive Call (kind : UInt32 → AttributeKind) where
  | set (id : UInt32) (source : (kind id).ty.Val) (args : UpdateArgs)
  | assign (id : UInt32) (value : (kind id).ty.Val)
  | user (c : UserCall) (args : UpdateArgs) (params : List UInt8)

/-- One call. -/
def call (cfg : CServer.Config) (raw : Nat → UInt8) (b : Stub kind) :
    Call kind → Except Fault (Stub kind)
  | .set id source args =>
      match (kind id).set source args (b.serverAttribute id) with
      | none => .error .outOfRange
      | some (attr, none) => .ok (b.setAttribute id attr)
      | some (attr, some sent) =>
          (b.setAttribute id attr).write raw sent [] (sendNotification cfg id)
  | .assign id value => .ok { b with mValue := Function.update b.mValue id value }
  | .user c args params => b.write raw args params fun s => CServer.call cfg s c

/-- Calls one after the other. -/
def calls (cfg : CServer.Config) (raw : Nat → UInt8) (b : Stub kind) (user : List (Call kind)) :
    Except Fault (Stub kind) :=
  Partial.run (call cfg raw) b user

/-! ## Requests and connections -/

/-- `handleDataRequest`. -/
def handleDataRequest (cfg : CServer.Config) (raw : Nat → UInt8) (h : DataRequest)
    (user : List (Call kind)) (b : Stub kind) : Except Fault (Stub kind) :=
  b.server.startDataRequest cfg h >>= fun r =>
    b.lift raw (fun _ => .ok r.1) >>= fun b =>
      match r.2 with
      | none => .ok b
      | some m =>
          b.calls cfg raw user >>= fun b => .ok { b with server := b.server.leaveHandler m }

/-- The loop of `removeAllSessions`. -/
def removeAllLoop (cfg : CServer.Config) (raw : Nat → UInt8) (clientID : SPartyID) :
    List SessionData → List (List (Call kind)) → Stub kind →
      Except Fault (List SessionData × Stub kind)
  | [], _, b => .ok ([], b)
  | sd :: sessions, user, b =>
      if SPartyID.opEq sd.clientID clientID then
        match sd.callback cfg with
        | none =>
            removeAllLoop cfg raw clientID sessions user
              { b with server := { b.server with mCurrentSequenceNr := INVALID_SEQUENCE_NR } }
        | some o =>
            calls cfg raw
                { b with server := { b.server.emit o with mCurrentSequenceNr := sd.sequenceNr } }
                (user.headD []) >>=
              fun b => removeAllLoop cfg raw clientID sessions user.tail
                { b with server := { b.server with mCurrentSequenceNr := INVALID_SEQUENCE_NR } }
      else
        removeAllLoop cfg raw clientID sessions user b >>= fun r => .ok (sd :: r.1, r.2)

/-- `removeAllSessions`. -/
def removeAllSessions (cfg : CServer.Config) (raw : Nat → UInt8) (clientID : SPartyID)
    (user : List (List (Call kind))) (b : Stub kind) : Except Fault (Stub kind) :=
  removeAllLoop cfg raw clientID b.server.mSessions user
      { b with server := { b.server with mClientID := clientID } } >>= fun r =>
    .ok { r.2 with server := { r.2.server with mSessions := r.1, mClientID := ⟨0, 0⟩ } }

/-- What `handleDisconnectRequest` and `handleClientDetached` do with a client that is
gone. -/
def dropClient (cfg : CServer.Config) (raw : Nat → UInt8) (clientID : SPartyID)
    (user : List (List (Call kind))) (b : Stub kind) : Except Fault (Stub kind) :=
  removeAllSessions cfg raw clientID user
      { b with server := b.server.removeNotification clientID INVALID_ID } >>= fun b =>
    .ok { b with server := { b.server.removeUnblockedSessions clientID with
      mClientConnections :=
        b.server.mClientConnections.eraseP (fun conn => conn.clientID == clientID) } }

/-- `handleDisconnectRequest`. -/
def handleDisconnectRequest (cfg : CServer.Config) (raw : Nat → UInt8) (clientID : SPartyID)
    (user : List (List (Call kind))) (b : Stub kind) : Except Fault (Stub kind) :=
  match b.server.findConnection clientID with
  | none => .ok b
  | some conn =>
      dropClient cfg raw conn.clientID user { b with server :=
        if conn.notificationID ≠ 0 then b.server.emit (.clearNotification conn.notificationID)
        else b.server }

/-- `handleClientDetached`. -/
def handleClientDetached (cfg : CServer.Config) (raw : Nat → UInt8) (id : Int32)
    (user : List (List (Call kind))) (b : Stub kind) : Except Fault (Stub kind) :=
  match b.server.mClientConnections.find? (fun conn => conn.id == id) with
  | none => .ok b
  | some conn => b.dropClient cfg raw conn.clientID user

/-- What can happen to a stub. -/
inductive Event (kind : UInt32 → AttributeKind) where
  | connect (q : ConnectRequest)
  | disconnect (clientID : SPartyID) (user : List (List (Call kind)))
  | detached (id : Int32) (user : List (List (Call kind)))
  | dataRequest (h : DataRequest) (user : List (Call kind))
  | user (user : List (Call kind))
  | channelClosed (channel : Nat)
  | unregisterInterface
  | createId

/-- One step of the stub. -/
def step (cfg : CServer.Config) (raw : Nat → UInt8) (b : Stub kind) :
    Event kind → Except Fault (Stub kind)
  | .connect q => .ok { b with server := b.server.handleConnectRequest cfg q }
  | .disconnect clientID user => b.handleDisconnectRequest cfg raw clientID user
  | .detached id user => b.handleClientDetached cfg raw id user
  | .dataRequest h user => b.handleDataRequest cfg raw h user
  | .user user => b.calls cfg raw user
  | .channelClosed channel => .ok { b with server := b.server.closeChannel channel }
  | .unregisterInterface => .ok { b with server := b.server.unregisterInterface }
  | .createId => .ok { b with server := b.server.createId.2 }

/-! ## The server in the stub -/

/-- The calls of the server that a call of the application comes to. -/
inductive Call.Gives : Call kind → List UserCall → Prop where
  | unchanged (id source args) : Gives (.set id source args) [.setAttributeState id .DATA_OK]
  | notifies (id source args) :
      Gives (.set id source args) [.setAttributeState id .DATA_OK, .sendNotification id]
  | assign (id value) : Gives (.assign id value) []
  | user (c args params) : Gives (.user c args params) [c]

/-- The calls that calls one after the other come to. -/
def GivesAll (user : List (Call kind)) (us : List UserCall) : Prop :=
  ∃ parts, List.Forall₂ Call.Gives user parts ∧ us = parts.flatten

/-- The event of the server that an event of the stub comes to. -/
inductive Event.Projects : Event kind → CServer.Event → Prop where
  | connect (q) : Projects (.connect q) (.connect q)
  | disconnect (clientID) {user us} (h : List.Forall₂ GivesAll user us) :
      Projects (.disconnect clientID user) (.disconnect clientID us)
  | detached (id) {user us} (h : List.Forall₂ GivesAll user us) :
      Projects (.detached id user) (.detached id us)
  | dataRequest (h) {user us} (hus : GivesAll user us) :
      Projects (.dataRequest h user) (.dataRequest h us)
  | user {user us} (h : GivesAll user us) : Projects (.user user) (.user us)
  | channelClosed (channel) : Projects (.channelClosed channel) (.channelClosed channel)
  | unregisterInterface : Projects .unregisterInterface .unregisterInterface
  | createId : Projects .createId .createId

theorem mState_of_set {k : AttributeKind} {source : k.ty.Val} {args : UpdateArgs}
    {attr : ServerAttribute k.ty} {r : ServerAttribute k.ty × Option UpdateArgs}
    (h : k.set source args attr = some r) : r.1.mState = .DATA_OK := by
  cases k with
  | onChange t => exact (congrArg (·.1.mState) (Option.some.inj h)).symm
  | always t => exact (congrArg (·.1.mState) (Option.some.inj h)).symm
  | partialUpdates t =>
      obtain ⟨r', hr', rfl⟩ := Option.map_eq_some_iff.mp h
      have hset : ∀ type : UpdateType,
          ServerAttribute.set (t := t) source type args.2.1 args.2.2 attr = some r' →
            r'.1.mState = .DATA_OK := by
        intro type hr
        cases type <;> simp only [ServerAttribute.set, Option.map_eq_some_iff] at hr
        case UPDATE_COMPLETE => exact (congrArg (·.1.mState) (Option.some.inj hr)).symm
        case UPDATE_NONE => exact (congrArg (·.1.mState) (Option.some.inj hr)).symm
        all_goals
          obtain ⟨v, -, rfl⟩ := hr
          rfl
      exact hset args.1 hr'

/-- What an operation of the server with its messages written comes to. -/
theorem write_eq_ok {raw : Nat → UInt8} {args : UpdateArgs} {params : List UInt8}
    {f : CServer → Except Fault CServer} {b b' : Stub kind}
    (h : b.write raw args params f = .ok b') :
    ∃ s ps, f b.server = .ok s ∧
      dataResponses (b.payload raw args params) (s.log.drop b.server.log.length) = some ps ∧
      b' = { b with server := s, sent := b.sent ++ ps } := by
  obtain ⟨s, hs, h⟩ := Partial.bind_eq_ok h
  split at h
  · exact absurd h (by simp)
  · next ps hps => exact ⟨s, ps, hs, hps, (Except.ok.inj h).symm⟩

theorem server_of_write {raw : Nat → UInt8} {args : UpdateArgs} {params : List UInt8}
    {f : CServer → Except Fault CServer} {b b' : Stub kind}
    (h : b.write raw args params f = .ok b') :
    f b.server = .ok b'.server := by
  obtain ⟨s, ps, hs, -, rfl⟩ := write_eq_ok h
  exact hs

theorem filterMap_message (ms : List CServer.Message) :
    (ms.map CServer.Output.message).filterMap CServer.Output.message? = ms := by
  rw [List.filterMap_map]
  exact List.filterMap_some

/-- What is sent is the messages of the server in their order, each with its payload. -/
theorem dataResponses_spec {pay : CServer.Message → Option (List UInt8)} {os : List CServer.Output}
    {ps : List DataResponse} (h : dataResponses pay os = some ps) :
    ps.map (·.message) = os.filterMap CServer.Output.message? ∧
      ∀ d ∈ ps, pay d.message = some d.payload := by
  induction os generalizing ps with
  | nil =>
      obtain rfl := Option.some.inj h
      exact ⟨rfl, by simp⟩
  | cons o os ih =>
      rw [dataResponses] at h
      cases ho : o.message? with
      | none =>
          simp only [ho] at h
          rw [List.filterMap_cons_none ho]
          exact ih h
      | some m =>
          simp only [ho] at h
          obtain ⟨bytes, hbytes, h⟩ := Option.bind_eq_some_iff.mp h
          obtain ⟨rest, hrest, rfl⟩ := Option.map_eq_some_iff.mp h
          obtain ⟨hmessages, hpay⟩ := ih hrest
          rw [List.filterMap_cons_some ho]
          exact ⟨congrArg (m :: ·) hmessages, List.forall_mem_cons.mpr ⟨hbytes, hpay⟩⟩

variable {cfg : CServer.Config} {raw : Nat → UInt8} {b b' : Stub kind}

/-- Calls that are not made come to some calls. -/
theorem exists_givesAll (user : List (Call kind)) : ∃ us, GivesAll user us := by
  induction user with
  | nil => exact ⟨[], [], .nil, rfl⟩
  | cons c user ih =>
      obtain ⟨_, parts, hparts, rfl⟩ := ih
      obtain ⟨part, hpart⟩ : ∃ part, c.Gives part := by
        cases c with
        | set id source args => exact ⟨_, .unchanged id source args⟩
        | assign id value => exact ⟨_, .assign id value⟩
        | user c args params => exact ⟨_, .user c args params⟩
      exact ⟨_, part :: parts, .cons hpart hparts, rfl⟩

theorem exists_forall₂_givesAll (user : List (List (Call kind))) :
    ∃ us, List.Forall₂ GivesAll user us := by
  induction user with
  | nil => exact ⟨[], .nil⟩
  | cons u user ih =>
      obtain ⟨us, hus⟩ := ih
      obtain ⟨v, hv⟩ := exists_givesAll u
      exact ⟨v :: us, .cons hv hus⟩

theorem call_projects {c : Call kind} (h : b.call cfg raw c = .ok b') :
    ∃ us, c.Gives us ∧ CServer.calls cfg b.server us = .ok b'.server := by
  cases c with
  | assign id value =>
      obtain rfl := Except.ok.inj h
      exact ⟨[], .assign id value, rfl⟩
  | user c args params =>
      refine ⟨[c], .user c args params, ?_⟩
      have hcall : CServer.call cfg b.server c = .ok b'.server :=
        server_of_write (f := fun s => CServer.call cfg s c) h
      rw [CServer.calls, Partial.run_cons_of_ok hcall, Partial.run_nil]
  | set id source args =>
      rw [call] at h
      cases hset : (kind id).set source args (b.serverAttribute id) with
      | none => simp only [hset] at h; exact absurd h (by simp)
      | some r =>
          have hstate := mState_of_set hset
          have hserver : CServer.call cfg b.server (.setAttributeState id .DATA_OK) =
              .ok (b.setAttribute id r.1).server := by
            rw [setAttribute, hstate]
            rfl
          obtain ⟨attr, notify⟩ := r
          cases notify with
          | none =>
              simp only [hset] at h
              obtain rfl := Except.ok.inj h
              refine ⟨_, .unchanged id source args, ?_⟩
              rw [CServer.calls, Partial.run_cons_of_ok hserver, Partial.run_nil]
          | some sent =>
              simp only [hset] at h
              refine ⟨_, .notifies id source args, ?_⟩
              have hsend : CServer.call cfg (b.setAttribute id attr).server
                  (.sendNotification id) = .ok b'.server := server_of_write h
              rw [CServer.calls, Partial.run_cons_of_ok hserver, Partial.run_cons_of_ok hsend,
                Partial.run_nil]

theorem calls_projects {user : List (Call kind)} (h : b.calls cfg raw user = .ok b') :
    ∃ us, GivesAll user us ∧ CServer.calls cfg b.server us = .ok b'.server := by
  induction user generalizing b with
  | nil =>
      obtain rfl := Except.ok.inj h
      exact ⟨[], ⟨[], .nil, rfl⟩, rfl⟩
  | cons c user ih =>
      obtain ⟨b₁, hfirst, hrest⟩ := Partial.bind_eq_ok h
      obtain ⟨us, hus, hcall⟩ := call_projects hfirst
      obtain ⟨_, ⟨parts, hparts, rfl⟩, hcalls⟩ := ih hrest
      refine ⟨us ++ parts.flatten, ⟨us :: parts, .cons hus hparts, rfl⟩, ?_⟩
      rw [CServer.calls, Partial.run_append]
      rw [CServer.calls] at hcall
      rw [hcall]
      exact hcalls

theorem handleDataRequest_projects {h : DataRequest} {user : List (Call kind)}
    (hs : b.handleDataRequest cfg raw h user = .ok b') :
    ∃ us, GivesAll user us ∧ b.server.handleDataRequest cfg h us = .ok b'.server := by
  obtain ⟨r, hr, hs⟩ := Partial.bind_eq_ok hs
  obtain ⟨b₁, hb₁, hs⟩ := Partial.bind_eq_ok hs
  have hserver : r.1 = b₁.server := Except.ok.inj (server_of_write hb₁)
  have hgives : ∀ us, r.2 = none → CServer.resume cfg us r = .ok r.1 := by
    intro us hnone
    rw [CServer.resume, hnone]
  cases hkind : r.2 with
  | none =>
      simp only [hkind] at hs
      obtain rfl := Except.ok.inj hs
      obtain ⟨us, hus⟩ := exists_givesAll user
      refine ⟨us, hus, ?_⟩
      rw [handleDataRequest_eq_resume, hr]
      exact (hgives us hkind).trans (congrArg Except.ok hserver)
  | some m =>
      simp only [hkind] at hs
      obtain ⟨b₂, hcalls, hs⟩ := Partial.bind_eq_ok hs
      obtain ⟨us, hus, hus'⟩ := calls_projects hcalls
      obtain rfl := Except.ok.inj hs
      refine ⟨us, hus, ?_⟩
      rw [handleDataRequest_eq_resume, hr]
      simp only [bind, Except.bind, CServer.resume, hkind, hserver, hus']

theorem removeAllLoop_projects {clientID : SPartyID} {sessions : List SessionData}
    {user : List (List (Call kind))} {r : List SessionData × Stub kind}
    (h : removeAllLoop cfg raw clientID sessions user b = .ok r) :
    ∃ us, List.Forall₂ GivesAll user us ∧
      CServer.removeAllLoop cfg clientID sessions us b.server = .ok (r.1, r.2.server) := by
  induction sessions generalizing user b r with
  | nil =>
      obtain rfl := Except.ok.inj h
      obtain ⟨us, hus⟩ := exists_forall₂_givesAll user
      exact ⟨us, hus, rfl⟩
  | cons sd sessions ih =>
      rw [removeAllLoop] at h
      simp only [CServer.removeAllLoop]
      by_cases hc : SPartyID.opEq sd.clientID clientID = true
      · simp only [if_pos hc] at h ⊢
        cases hcall : sd.callback cfg with
        | none =>
            simp only [hcall] at h
            exact ih h
        | some o =>
            simp only [hcall] at h
            obtain ⟨b₁, hfirst, hrest⟩ := Partial.bind_eq_ok h
            obtain ⟨v, hv, hcalls⟩ := calls_projects hfirst
            obtain ⟨us, hus, hloop⟩ := ih hrest
            cases user with
            | nil =>
                -- without calls for the callback it makes none
                obtain ⟨_, hnil, rfl⟩ := hv
                cases hnil
                obtain rfl := List.forall₂_nil_left_iff.mp hus
                refine ⟨[], .nil, ?_⟩
                simp only [List.headD_nil, List.tail_nil]
                rw [List.flatten_nil] at hcalls
                rw [hcalls]
                exact hloop
            | cons u user =>
                refine ⟨v :: us, .cons hv hus, ?_⟩
                simp only [List.headD_cons, List.tail_cons]
                rw [hcalls]
                exact hloop
      · simp only [if_neg hc] at h ⊢
        obtain ⟨r₁, hr₁, h⟩ := Partial.bind_eq_ok h
        obtain rfl := Except.ok.inj h
        obtain ⟨us, hus, hloop⟩ := ih hr₁
        refine ⟨us, hus, ?_⟩
        rw [hloop]
        rfl

theorem dropClient_projects {clientID : SPartyID} {user : List (List (Call kind))}
    (h : b.dropClient cfg raw clientID user = .ok b') :
    ∃ us, List.Forall₂ GivesAll user us ∧
      b.server.dropClient cfg clientID us = .ok b'.server := by
  obtain ⟨b₁, hb₁, h⟩ := Partial.bind_eq_ok h
  obtain ⟨r, hr, hb₁⟩ := Partial.bind_eq_ok hb₁
  obtain ⟨us, hus, hloop⟩ := removeAllLoop_projects hr
  obtain rfl := Except.ok.inj hb₁
  obtain rfl := Except.ok.inj h
  refine ⟨us, hus, ?_⟩
  rw [CServer.dropClient, CServer.removeAllSessions]
  rw [hloop]
  rfl

/-- What happens to the stub happens to the server in it. -/
theorem step_projects {e : Event kind} (h : step cfg raw b e = .ok b') :
    ∃ e', e.Projects e' ∧ CServer.step cfg b.server e' = .ok b'.server := by
  cases e with
  | connect q =>
      obtain rfl := Except.ok.inj h
      exact ⟨_, .connect q, rfl⟩
  | disconnect clientID user =>
      rw [step, handleDisconnectRequest] at h
      cases hconn : b.server.findConnection clientID with
      | none =>
          simp only [hconn] at h
          obtain rfl := Except.ok.inj h
          obtain ⟨us, hus⟩ := exists_forall₂_givesAll user
          refine ⟨_, .disconnect clientID hus, ?_⟩
          rw [CServer.step, CServer.handleDisconnectRequest, hconn]
      | some conn =>
          simp only [hconn] at h
          obtain ⟨us, hus, hdrop⟩ := dropClient_projects h
          refine ⟨_, .disconnect clientID hus, ?_⟩
          rw [CServer.step, CServer.handleDisconnectRequest, hconn]
          exact hdrop
  | detached id user =>
      rw [step, handleClientDetached] at h
      cases hconn : b.server.mClientConnections.find? (fun conn => conn.id == id) with
      | none =>
          simp only [hconn] at h
          obtain rfl := Except.ok.inj h
          obtain ⟨us, hus⟩ := exists_forall₂_givesAll user
          refine ⟨_, .detached id hus, ?_⟩
          rw [CServer.step, CServer.handleClientDetached, hconn]
      | some conn =>
          simp only [hconn] at h
          obtain ⟨us, hus, hdrop⟩ := dropClient_projects h
          refine ⟨_, .detached id hus, ?_⟩
          rw [CServer.step, CServer.handleClientDetached, hconn]
          exact hdrop
  | dataRequest q user =>
      obtain ⟨us, hus, hrequest⟩ := handleDataRequest_projects h
      exact ⟨_, .dataRequest q hus, hrequest⟩
  | user user =>
      obtain ⟨us, hus, hcalls⟩ := calls_projects h
      exact ⟨_, .user hus, hcalls⟩
  | channelClosed channel =>
      obtain rfl := Except.ok.inj h
      exact ⟨_, .channelClosed channel, rfl⟩
  | unregisterInterface =>
      obtain rfl := Except.ok.inj h
      exact ⟨_, .unregisterInterface, rfl⟩
  | createId =>
      obtain rfl := Except.ok.inj h
      exact ⟨_, .createId, rfl⟩

end Stub

end Dsi
