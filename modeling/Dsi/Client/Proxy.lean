import Dsi.Server.Announces

/-!
# Dsi.Client.Proxy

A proxy: the client of the DSI library (`base/CClient.cpp`) with what the code generator
writes for an interface (`CDSIProxy.cpp.jet`, `CDSIProxy.hpp.jet`).  It keeps a copy of
every attribute, which the responses of the server set, and sends the requests of the
application.

The parameters of responses and requests are bytes here; the values of attributes are
read as their types say.
-/

namespace Dsi

open CServer (Config RequestType ResultType DataRequest INVALID_SEQUENCE_NR)

/-- An interface with its attributes by their kinds and its response methods, which tell
whether their parameters can be read. -/
structure Service where
  config : CServer.Config
  kind : UInt32 → AttributeKind
  responseMethods : List (UInt32 × (List UInt8 → Bool)) := []
  sound : config.Sound

/-- What a proxy calls in the application: the updates of attributes, with what a partial one
has besides, the responses, and the failures. -/
inductive Callback (kind : UInt32 → AttributeKind) where
  | componentConnected
  | componentDisconnected
  | onUpdate (id : UInt32) (attr : ClientAttribute (kind id).ty)
      (partialArgs : Option (BitVec 32 × Int16 × Int16))
  | response (id : UInt32) (sequenceNr : Int32) (params : List UInt8)
  | failed (id : UInt32) (sequenceNr : Int32) (errType : ResultType)
  | responseInvalid (id : UInt32)

/-- `CClient` with the attributes of the proxy. -/
structure Proxy (kind : UInt32 → AttributeKind) where
  mClientID : SPartyID := ⟨0, 0⟩
  mProtoMinor : UInt16 := 0
  mCurrentSequenceNr : Int32 := INVALID_SEQUENCE_NR
  copy : (id : UInt32) → ClientAttribute (kind id).ty :=
    fun id => ⟨(kind id).ty.init fun n => 0#n, .DATA_NOT_AVAILABLE⟩
  log : List (Callback kind) := []

namespace Proxy

/-! ## Responses -/

section Responses

variable {kind : UInt32 → AttributeKind}

/-- A callback is made. -/
def notify (c : Callback kind) (p : Proxy kind) : Proxy kind := { p with log := p.log ++ [c] }

/-- A copy is set. -/
def setCopy (id : UInt32) (attr : ClientAttribute (kind id).ty) (p : Proxy kind) : Proxy kind :=
  { p with copy := Function.update p.copy id attr }

/-- `CDataResponseHandle::getDataState`. -/
def getDataState (responseType : ResultType) : DataStateType :=
  if responseType = .RESULT_DATA_OK then .DATA_OK else .DATA_INVALID

/-- What `onUpdate` of a partial attribute gets besides when the attribute is invalid. -/
def noUpdate : AttributeKind → Option (BitVec 32 × Int16 × Int16)
  | .partialUpdates _ => some (UpdateType.UPDATE_NONE.bits, 0, 0)
  | _ => none

/-- `processResponse` for an attribute: the value is read over the copy only if it is valid,
and the application hears of it unless the stream was bad.  No proxy stands for an access
outside a vector and for the exception that `resize` throws. -/
def processUpdate (junk : (n : Nat) → BitVec n) (id : UInt32) (d : DataResponse)
    (p : Proxy kind) : Option (Proxy kind) :=
  let state := getDataState d.message.responseType
  if state = .DATA_OK then
    ((kind id).read junk (p.copy id).mValue (.create d.payload)).map fun r =>
      let attr : ClientAttribute (kind id).ty := ⟨r.1.1, state⟩
      let p := p.setCopy id attr
      if r.2.mError then p else p.notify (.onUpdate id attr r.1.2)
  else
    let attr : ClientAttribute (kind id).ty := ⟨(p.copy id).mValue, state⟩
    some ((p.setCopy id attr).notify (.onUpdate id attr (noUpdate (kind id))))

/-- `doComponentDisconnected`: the copies keep their values. -/
def doComponentDisconnected (p : Proxy kind) : Proxy kind :=
  { p.notify .componentDisconnected with
    copy := fun id => ⟨(p.copy id).mValue, .DATA_NOT_AVAILABLE⟩ }

end Responses

variable (svc : Service)

/-- `processResponse`. -/
def processResponse (junk : (n : Nat) → BitVec n) (d : DataResponse) (p : Proxy svc.kind) :
    Option (Proxy svc.kind) :=
  let id := d.message.requestID
  if d.message.responseType = .RESULT_INVALID then some (p.notify (.responseInvalid id))
  else if id ∈ svc.config.attributes then p.processUpdate junk id d
  else
    match svc.responseMethods.find? (fun m => m.1 == id) with
    | some m =>
        some (if m.2 d.payload then p.notify (.response id p.mCurrentSequenceNr d.payload) else p)
    | none =>
        some (if id.toNat < svc.config.requestMethods.length then
          p.notify (.failed id p.mCurrentSequenceNr d.message.responseType) else p)

/-- `handleDataResponse`. -/
def handleDataResponse (junk : (n : Nat) → BitVec n) (d : DataResponse) (p : Proxy svc.kind) :
    Option (Proxy svc.kind) :=
  if p.mProtoMinor ≠ d.message.protoMinor then some p
  else
    (processResponse svc junk d { p with mCurrentSequenceNr := d.message.sequenceNumber }).map
      fun p => { p with mCurrentSequenceNr := INVALID_SEQUENCE_NR }

/-! ## What a response does to the copies -/

section Copies

variable {svc} (junk : (n : Nat) → BitVec n) {d : DataResponse} {p : Proxy svc.kind}

/-- A response that is about no attribute leaves the copies as they are. -/
theorem handleDataResponse_other (hid : d.message.requestID ∉ svc.config.attributes) :
    ∃ p', p.handleDataResponse svc junk d = some p' ∧ p'.copy = p.copy ∧
      p'.mProtoMinor = p.mProtoMinor := by
  unfold handleDataResponse
  split
  · exact ⟨p, rfl, rfl, rfl⟩
  · unfold processResponse
    dsimp only
    rw [if_neg hid]
    split
    · exact ⟨_, rfl, rfl, rfl⟩
    · split
      · split <;> exact ⟨_, rfl, rfl, rfl⟩
      · split <;> exact ⟨_, rfl, rfl, rfl⟩

/-- The response of an attribute comes to `processUpdate`. -/
theorem handleDataResponse_attribute (hid : d.message.requestID ∈ svc.config.attributes)
    (hversion : p.mProtoMinor = d.message.protoMinor)
    (htype : d.message.responseType ≠ .RESULT_INVALID) :
    p.handleDataResponse svc junk d =
      (processUpdate junk d.message.requestID d
        { p with mCurrentSequenceNr := d.message.sequenceNumber }).map
          fun p => { p with mCurrentSequenceNr := INVALID_SEQUENCE_NR } := by
  rw [handleDataResponse, if_neg (not_not.mpr hversion), processResponse]
  dsimp only
  rw [if_neg htype, if_pos hid]

/-- A value that is delivered is the value of the copy then. -/
theorem handleDataResponse_valid (hid : d.message.requestID ∈ svc.config.attributes)
    (hversion : p.mProtoMinor = d.message.protoMinor)
    (htype : d.message.responseType = .RESULT_DATA_OK)
    {v : (svc.kind d.message.requestID).ty.Val}
    (hv : (svc.kind d.message.requestID).Delivers junk d.payload
      (p.copy d.message.requestID).mValue v) :
    ∃ p', p.handleDataResponse svc junk d = some p' ∧
      p'.copy = Function.update p.copy d.message.requestID ⟨v, .DATA_OK⟩ ∧
      p'.mProtoMinor = p.mProtoMinor := by
  obtain ⟨args, s, hread, hs⟩ := hv
  have hstate : getDataState d.message.responseType = .DATA_OK := by rw [htype]; rfl
  rw [handleDataResponse_attribute junk hid hversion (by rw [htype]; simp), processUpdate]
  simp only [hstate, if_true, hread, Option.map_some, hs]
  exact ⟨_, rfl, rfl, rfl⟩

/-- A copy that is told to be invalid keeps its value. -/
theorem handleDataResponse_invalid (hid : d.message.requestID ∈ svc.config.attributes)
    (hversion : p.mProtoMinor = d.message.protoMinor)
    (htype : d.message.responseType = .RESULT_DATA_INVALID) :
    ∃ p', p.handleDataResponse svc junk d = some p' ∧
      p'.copy = Function.update p.copy d.message.requestID
        ⟨(p.copy d.message.requestID).mValue, .DATA_INVALID⟩ ∧
      p'.mProtoMinor = p.mProtoMinor := by
  have hstate : getDataState d.message.responseType ≠ .DATA_OK := by rw [htype]; simp [getDataState]
  have hinvalid : getDataState d.message.responseType = .DATA_INVALID := by rw [htype]; rfl
  rw [handleDataResponse_attribute junk hid hversion (by rw [htype]; simp), processUpdate]
  dsimp only
  rw [if_neg hstate, hinvalid]
  exact ⟨_, rfl, rfl, rfl⟩

end Copies

/-! ## Requests -/

variable {kind : UInt32 → AttributeKind}

/-- What a `CRequestWriter` with these arguments flushes: without a sequence number it takes
a new one from `nextID`, the counter behind `DSI::createId` in the process of the client. -/
def request (type : RequestType) (id : UInt32) (protoMinor : UInt16) (sequenceNr : Int32)
    (params : List UInt8) (p : Proxy kind) (nextID : Nat) : DataRequest × Nat :=
  let r :=
    if sequenceNr = INVALID_SEQUENCE_NR then ((UInt32.ofNat nextID).toInt32, nextID + 1)
    else (sequenceNr, nextID)
  ({ requestType := type, requestId := id, clientID := p.mClientID, protoMinor := protoMinor
     sequenceNr := r.1, payload := params }, r.2)

/-- What the application calls. -/
inductive Call where
  | notifyOn (id : UInt32) (notify : Bool)
  | clearAllNotifications
  | request (id : UInt32) (params : List UInt8)
  | registerMethod (id : UInt32) (updIds : List UInt32) (params : List UInt8)
  | unregisterMethod (id : UInt32) (updIds : List UInt32) (sessionId : Int32)
      (params : List UInt8)
  deriving DecidableEq, Repr

/-- Requests of one type for several IDs, as the loops over `updIds` send them. -/
def requestEach (type : RequestType) (sessionId : Int32) (p : Proxy kind) :
    List UInt32 → Nat → List DataRequest × Nat
  | [], nextID => ([], nextID)
  | id :: ids, nextID =>
      let r := p.request type id p.mProtoMinor sessionId [] nextID
      let rs := requestEach type sessionId p ids r.2
      (r.1 :: rs.1, rs.2)

/-- One call of a proxy that is connected: what it sends.  `setNotification` hands its version
over where the writer takes a sequence number. -/
def call (p : Proxy kind) (nextID : Nat) : Call → List DataRequest × Nat
  | .notifyOn id true =>
      let r := p.request .REQUEST_NOTIFY id (.ofInt INVALID_SEQUENCE_NR.toInt)
        (.ofInt p.mProtoMinor.toNat) [] nextID
      ([r.1], r.2)
  | .notifyOn id false =>
      let r := p.request .REQUEST_STOP_NOTIFY id (.ofInt INVALID_SEQUENCE_NR.toInt)
        INVALID_SEQUENCE_NR [] nextID
      ([r.1], r.2)
  | .clearAllNotifications =>
      let r := p.request .REQUEST_STOP_ALL_NOTIFY CServer.INVALID_ID
        (.ofInt INVALID_SEQUENCE_NR.toInt) INVALID_SEQUENCE_NR [] nextID
      ([r.1], r.2)
  | .request id params =>
      let r := p.request .REQUEST id p.mProtoMinor INVALID_SEQUENCE_NR params nextID
      ([r.1], r.2)
  | .registerMethod id updIds params =>
      let sessionId := (UInt32.ofNat nextID).toInt32
      let rs := p.requestEach .REQUEST_REGISTER_NOTIFY sessionId updIds (nextID + 1)
      let r := p.request .REQUEST id p.mProtoMinor sessionId params rs.2
      (rs.1 ++ [r.1], r.2)
  | .unregisterMethod id updIds sessionId params =>
      if updIds.length = 0 then
        let r := p.request .REQUEST id p.mProtoMinor sessionId params nextID
        ([r.1], r.2)
      else p.requestEach .REQUEST_STOP_REGISTER_NOTIFY sessionId updIds nextID

end Proxy

end Dsi
