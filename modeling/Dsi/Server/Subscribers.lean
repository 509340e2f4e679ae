import Dsi.Server.Reached

/-!
# Dsi.Server.Subscribers

Updates of attributes.  `sendNotification` sends every connected subscriber one
update and keeps the entries of connected clients, in every state that a server
reaches without taking an entry of a client it does not reach.  An entry of a client
without a connection is removed from the vector that the loop indexes.
-/

namespace Dsi

namespace CServer

/-- `sendNotification` of an attribute sends one update for each of its entries whose
client is connected with a live channel, and leaves the entries of the connected
clients. -/
def UpdatesAll (cfg : Config) (s : CServer) : Prop :=
  ∀ id ∈ cfg.attributes, ∃ s', s.sendNotification cfg id = .ok s' ∧
    s'.log = s.log ++ (s.updates id (s.attributeState id)).map .message ∧
    s'.mNotifications = s.mNotifications.filter (fun n => s.isConnected n.clientID)

instance (cfg : Config) (s : CServer) : Decidable (UpdatesAll cfg s) :=
  List.decidableBAll (fun id => ∃ s', s.sendNotification cfg id = .ok s' ∧
    s'.log = s.log ++ (s.updates id (s.attributeState id)).map Output.message ∧
    s'.mNotifications = s.mNotifications.filter (fun n => s.isConnected n.clientID)) cfg.attributes

theorem getAttributeState_of_mem {cfg : Config} {id : UInt32} (h : id ∈ cfg.attributes)
    (s : CServer) : s.getAttributeState cfg id = .ok (s.attributeState id) := by
  rw [getAttributeState, if_pos h]

/-- The loop does not break off where the clients of the entries are reached. -/
theorem sendNotification_isOk {cfg : Config} {id : UInt32} {s : CServer}
    (h : AllReached (!cfg.NDEBUG) (fun _ => true) s) (hid : id ∈ cfg.attributes) :
    ∃ s', s.sendNotification cfg id = .ok s' := by
  have hreaches : ∀ n ∈ s.mNotifications, s.reaches (!cfg.NDEBUG) n.clientID = true :=
    fun n hn => h n (mem_held.mpr (Or.inl hn)) rfl
  exact notifyLoop_isOk (fun n hn _ => isConnected_of_reaches (hreaches n hn))
    (fun n hn _ => isLive_of_reaches (hreaches n hn)) (getAttributeState_of_mem hid s)

theorem updatesAll_of_reached {cfg : Config} {s : CServer}
    (h : AllReached (!cfg.NDEBUG) (fun _ => true) s) : UpdatesAll cfg s := by
  intro id hid
  have hconnected : ∀ n ∈ s.mNotifications, s.isConnected n.clientID = true :=
    fun n hn => isConnected_of_reaches (h n (mem_held.mpr (Or.inl hn)) rfl)
  obtain ⟨s', hs'⟩ := sendNotification_isOk h hid
  obtain ⟨ms, rfl, hms⟩ := sendNotification_of_connected (fun n hn _ => hconnected n hn) hs'
  refine ⟨_, hs', ?_, (List.filter_eq_self.mpr hconnected).symm⟩
  rw [hms _ (getAttributeState_of_mem hid s)]
  rfl

/-- In every state reached by steps that meet the condition, every subscriber gets
every update. -/
theorem updatesAll_of_along {cfg : Config} {es : List Event} {s : CServer}
    (ha : Partial.Along (step cfg)
      (fun s e => s.stepReaches cfg (!cfg.NDEBUG) (fun _ => true) e = true) init es)
    (hrun : run cfg init es = .ok s) : UpdatesAll cfg s :=
  updatesAll_of_reached (allReached_run (allReached_init _ _) ha hrun)

theorem response_id_first :
    (0x80000001 : UInt32) = INVALID_ID ∨ isResponseId 0x80000001 = true := Or.inr (by decide)

/-- `istream >> value` for one `int32_t`: the stream has no error if it has four bytes. -/
def decodesInt32 (payload : List UInt8) : Bool := 4 ≤ payload.length

/-- An interface with one method, which has one parameter, its response and three
attributes. -/
def exampleConfig (NDEBUG : Bool) : Config :=
  { requestMethods := [⟨.request, 0x80000001, decodesInt32, response_id_first⟩]
    attributes := [0xC0000001, 0xC0000002, 0xC0000003]
    NDEBUG := NDEBUG }

/-- The client connects through a channel of this number. -/
def connects (clientID : SPartyID) (channel : Nat) : Event :=
  .connect { clientID := clientID, serverID := ⟨9, 0⟩, protoMinor := 0, channel := channel
             notificationID := 1 }

/-- The client sends a request of this type with one parameter. -/
def asks (clientID : SPartyID) (requestType : RequestType) (requestId : UInt32)
    (sequenceNr : Int32) (user : List UserCall) : Event :=
  .dataRequest { requestType := requestType, requestId := requestId, clientID := clientID
                 protoMinor := 0, sequenceNr := sequenceNr, payload := [1, 0, 0, 0] } user

/-- Two clients are connected and subscribe to an attribute; then one of them goes. -/
def subscriberGoes : List Event :=
  [connects ⟨1, 0⟩ 1, connects ⟨2, 0⟩ 2, asks ⟨1, 0⟩ .REQUEST_NOTIFY 0xC0000001 0 [],
    asks ⟨2, 0⟩ .REQUEST_NOTIFY 0xC0000001 0 [], .disconnect ⟨1, 0⟩ []]

theorem updatesAll_subscriberGoes :
    ∃ s, run (exampleConfig false) init subscriberGoes = .ok s ∧
      s.mNotifications = [{ clientID := ⟨2, 0⟩, notifyID := 0xC0000001 }] ∧
      UpdatesAll (exampleConfig false) s := by
  obtain ⟨s, hs, hn⟩ : ∃ s, run (exampleConfig false) init subscriberGoes = .ok s ∧
      s.mNotifications = [{ clientID := ⟨2, 0⟩, notifyID := 0xC0000001 }] := by decide +kernel
  exact ⟨s, hs, hn, updatesAll_of_along (by decide +kernel) hs⟩

/-- A client that is not connected asks for an attribute, and one that is connected
does. -/
def unconnectedSubscriber : List Event :=
  [connects ⟨1, 0⟩ 1, asks ⟨2, 0⟩ .REQUEST_NOTIFY 0xC0000001 0 [],
    asks ⟨1, 0⟩ .REQUEST_NOTIFY 0xC0000001 0 []]

/-- With the assertions the next notification reads the channel of a null pointer;
without them the connected client is skipped. -/
theorem not_updatesAll_unconnected :
    (∃ s, run (exampleConfig false) init unconnectedSubscriber = .ok s ∧
      ¬ UpdatesAll (exampleConfig false) s) ∧
    (∃ s, run (exampleConfig true) init unconnectedSubscriber = .ok s ∧
      ¬ UpdatesAll (exampleConfig true) s) := by
  constructor <;> decide +kernel

end CServer

end Dsi
