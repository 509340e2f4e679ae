import Dsi.Server.Subscribers

/-!
# Dsi.Server.Subscriptions

Entries that go and entries that come: what is left of a session when it is removed, and
who hears of a subscription.  `std::remove_if` moves the other entries to the front and
leaves the vector as long as it was; the value of an attribute goes to the new subscriber,
but that it is invalid is told to all.
-/

namespace Dsi

namespace CServer

open Sequence

/-! ## The end of a session -/

/-- Exactly the entries of the session are gone: the others are there in the old order, each
as often as before. -/
structure RemovesSession (sessionId : Int32) (s s' : CServer) : Prop where
  notifications : s'.mNotifications = s.mNotifications.filter (fun n => n.sessionId != sessionId)
  gone : ∀ n ∈ s'.mNotifications, n.sessionId ≠ sessionId
  once : ∀ n, n.sessionId ≠ sessionId → s'.mNotifications.count n = s.mNotifications.count n

theorem removeSessionNotifications_eq_filter_iff (sessionId : Int32) (s : CServer) :
    (s.removeSessionNotifications sessionId).mNotifications =
        s.mNotifications.filter (fun n => n.sessionId != sessionId) ↔
      ∀ n ∈ s.mNotifications, n.sessionId ≠ sessionId :=
  removeIfShift_eq_filter_iff.trans (by simp)

theorem removesSession_of_filter {sessionId : Int32} {s s' : CServer}
    (h : s'.mNotifications = s.mNotifications.filter (fun n => n.sessionId != sessionId)) :
    RemovesSession sessionId s s' where
  notifications := h
  gone n hn := by
    rw [h] at hn
    simpa using (List.mem_filter.mp hn).2
  once n hn := by
    rw [h]
    exact List.count_filter (by simpa using hn)

/-- Both ways to remove a session leave exactly the other entries if and only if there is no
entry of the session. -/
theorem removeSession_iff (sessionId : Int32) (s : CServer) :
    (RemovesSession sessionId s (s.removeSessionNotifications sessionId) ↔
        ∀ n ∈ s.mNotifications, n.sessionId ≠ sessionId) ∧
      (RemovesSession sessionId s (s.removeSession sessionId) ↔
        ∀ n ∈ s.mNotifications, n.sessionId ≠ sessionId) := by
  have hiff := removeSessionNotifications_eq_filter_iff sessionId s
  exact ⟨⟨fun h => hiff.mp h.notifications, fun h => removesSession_of_filter (hiff.mpr h)⟩,
    ⟨fun h => hiff.mp h.notifications, fun h => removesSession_of_filter (hiff.mpr h)⟩⟩

/-- The session of the first of two subscribers is removed: the entry of the second one is
there twice, and a response is sent to it twice; where it was the second one's, the entry
is still there. -/
theorem not_removeSession_two_entries :
    let entry (sessionId : Int32) : Notification :=
      { sessionId := sessionId, clientID := ⟨sessionId.toUInt32, 0⟩, sequenceNr := 7
        notifyID := 0x80000000 }
    let s : CServer :=
      { mNotifications := [entry 1, entry 2], mActiveSessions := [1, 2]
        mClientConnections :=
          [⟨1, ⟨1, 0⟩, ⟨9, 0⟩, 0, 1, false, 0⟩, ⟨2, ⟨2, 0⟩, ⟨9, 0⟩, 0, 2, false, 0⟩] }
    let answered := (s.removeSession 1).sendResponse
      ⟨[], 1, [], false, false, fun n => n, fun _ => 0⟩ 0x80000000 0x80000000 .RESULT_OK
    (s.removeSession 1).mNotifications = [entry 2, entry 2] ∧
      answered.toOption.map (fun s' => (s'.log.filterMap Output.message?).map (·.clientID)) =
        some [⟨2, 0⟩, ⟨2, 0⟩] ∧
      (s.removeSession 2).mNotifications = [entry 1, entry 2] ∧
      ¬ RemovesSession 1 s (s.removeSession 1) := by
  refine ⟨by decide, by decide, by decide, fun h => ?_⟩
  have hlist := h.notifications
  revert hlist
  decide

/-! ## Subscribing -/

/-- `handleDataRequest` for a notification up to the answer: the entry is added, unless one
is taken for it. -/
def subscribed (cfg : Config) (h : DataRequest) (s : CServer) : CServer :=
  if s.mNotifications.any (isSet h) then s else s.addNotification cfg h

/-- What a subscriber is told at once about an attribute in this state. -/
def DataStateType.notices : DataStateType → List ResultType
  | .DATA_NOT_AVAILABLE => []
  | .DATA_INVALID => [.RESULT_DATA_INVALID]
  | .DATA_OK => [.RESULT_DATA_OK]

/-- The server does not break off, and has sent these notices to the client that made the
request, and nothing to anybody else. -/
def Tells (h : DataRequest) (notices : List ResultType) (s : CServer)
    (r : Except Fault CServer) : Prop :=
  ∃ s', ∃ ms : List Message, r = .ok s' ∧ s'.log = s.log ++ ms.map .message ∧
    (∀ m ∈ ms, m.clientID = h.clientID ∧ m.requestID = h.requestId) ∧
    ms.map (·.responseType) = notices

/-- The request is answered to the client that made it, and to nobody else: with the value
if the attribute is valid, with one notice if it is invalid. -/
def SubscribesPrivately (cfg : Config) (h : DataRequest) (user : List UserCall) (s : CServer) :
    Prop :=
  Tells h (s.attributeState h.requestId).notices s (s.handleDataRequest cfg h user)

/-- No other client hears of the request: the attribute is not available, or it is valid and
the client is reached, or it is invalid and of all entries for it, the new one among them,
only one is reached by an update, the one of this client.  The other ones belong to
connected clients, whose channels are there unless the assertions are left out. -/
def subscribesAlone (cfg : Config) (h : DataRequest) (s : CServer) : Bool :=
  match s.attributeState h.requestId with
  | .DATA_NOT_AVAILABLE => true
  | .DATA_OK => s.isLive h.clientID
  | .DATA_INVALID =>
      let t := (s.findClientConnection h.clientID).2.subscribed cfg h
      t.mNotifications.all (fun n => n.notifyID != h.requestId ||
        t.isConnected n.clientID && (cfg.NDEBUG || t.isLive n.clientID)) &&
        (t.updates h.requestId .DATA_INVALID).map (·.clientID) == [h.clientID]

variable {cfg : Config}

/-- The parts of a server that an answer depends on, apart from the entries. -/
structure SameView (s t : CServer) : Prop where
  attributeState : t.attributeState = s.attributeState
  connections : t.mClientConnections = s.mClientConnections
  log : t.log = s.log

namespace SameView

variable {s t u : CServer}

theorem refl (s : CServer) : SameView s s := ⟨rfl, rfl, rfl⟩

theorem trans (h : SameView s t) (h' : SameView t u) : SameView s u :=
  ⟨h'.attributeState.trans h.attributeState, h'.connections.trans h.connections,
    h'.log.trans h.log⟩

theorem findConnection (h : SameView s t) (c : SPartyID) :
    t.findConnection c = s.findConnection c := by
  rw [CServer.findConnection, h.connections, CServer.findConnection]

theorem isLive (h : SameView s t) (c : SPartyID) : t.isLive c = s.isLive c := by
  rw [CServer.isLive, h.findConnection, CServer.isLive]

end SameView

theorem sameView_findClientConnection (c : SPartyID) (s : CServer) :
    SameView s (s.findClientConnection c).2 := by
  unfold findClientConnection findClientConnectionBy
  split
  · exact .refl s
  · exact ⟨rfl, rfl, rfl⟩

theorem findClientConnectionBy_fst (reread : SPartyID → List Notification → SPartyID)
    (c : SPartyID) (s : CServer) :
    (s.findClientConnectionBy reread c).1 = s.findConnection c := by
  unfold findClientConnectionBy
  split
  · next hc => exact hc.symm
  · next hc => exact hc.symm

theorem findClientConnection_fst (c : SPartyID) (s : CServer) :
    (s.findClientConnection c).1 = s.findConnection c :=
  findClientConnectionBy_fst steady c s

theorem live_eq_none {c : SPartyID} {s : CServer} (hdead : s.isLive c = false) :
    live (s.findConnection c) = none := by
  simpa [isLive] using hdead

theorem assertChannel_of_assertions {conn : Option ClientConnection} {u : Unit}
    (hndebug : cfg.NDEBUG = false) : assertChannel cfg conn ≠ .ok u := by
  unfold assertChannel
  rw [hndebug]
  cases conn <;> intro hok <;> cases hok

theorem sameView_subscribed (cfg : Config) (h : DataRequest) (s : CServer) :
    SameView s (s.subscribed cfg h) := by
  unfold subscribed addNotification pushSession
  split
  · exact .refl s
  · split
    · split
      · exact ⟨rfl, rfl, rfl⟩
      · dsimp only
        split <;> exact ⟨rfl, rfl, rfl⟩
    · exact ⟨rfl, rfl, rfl⟩

variable {h : DataRequest} {s : CServer}

/-- The request of a client with the expected version comes to the answer for the entries
with its own. -/
theorem handleDataRequest_eq (user : List UserCall)
    (hversion : protoMinorOf (s.findConnection h.clientID) = h.protoMinor)
    (htype : h.requestType = .REQUEST_NOTIFY ∨ h.requestType = .REQUEST_REGISTER_NOTIFY)
    (hattribute : isAttributeId h.requestId = true) : s.handleDataRequest cfg h user =
      ((s.findClientConnection h.clientID).2.subscribed cfg h).sendAttribute cfg h := by
  rw [handleDataRequest, findClientConnection_fst, if_neg (not_not.mpr hversion), dispatchRequest]
  rcases htype with htype | htype <;> simp only [htype, handleNotify, hattribute] <;> rfl

/-- Where the assertions are compiled in, a loop over the subscribers that comes to its end
has found a channel for each of them. -/
theorem isLive_of_notifyLoop {id : UInt32} {rounds idx : Nat} {s s' : CServer}
    (hndebug : cfg.NDEBUG = false) (hlen : idx + rounds = s.mNotifications.length)
    (hdone : notifyLoop cfg id rounds idx s = .ok s') :
    ∀ n ∈ s.mNotifications.drop idx, n.notifyID = id → s.isLive n.clientID = true := by
  induction rounds generalizing idx s with
  | zero =>
      rw [List.drop_eq_nil_of_le (by omega)]
      intro n hn
      cases hn
  | succ rounds ih =>
      have hlt : idx < s.mNotifications.length := by omega
      rw [notifyLoop, List.getElem?_eq_getElem hlt] at hdone
      rw [List.drop_eq_getElem_cons hlt]
      by_cases hid : s.mNotifications[idx].notifyID = id
      · simp only [if_pos hid] at hdone
        obtain ⟨t, ht, hrest⟩ := Partial.bind_eq_ok hdone
        have hlen' : idx + 1 + rounds = s.mNotifications.length := by omega
        -- without a channel the assertion fails
        have hlive : s.isLive s.mNotifications[idx].clientID = true := by
          by_contra hdead
          rw [notifyOne, findClientConnectionAt] at ht
          simp only [findClientConnectionBy_fst, live_eq_none (Bool.not_eq_true _ ▸ hdead)] at ht
          obtain ⟨_, hassert, _⟩ := Partial.bind_eq_ok ht
          exact assertChannel_of_assertions hndebug hassert
        obtain ⟨u, rfl, _⟩ := notifyOne_of_connected (isConnected_of_isLive hlive) hid ht
        have hrest' := ih (s := s.emitAll u.toList) hlen' hrest
        exact List.forall_mem_cons.mpr ⟨fun _ => hlive, hrest'⟩
      · simp only [if_neg hid] at hdone
        refine List.forall_mem_cons.mpr ⟨fun hn => absurd hn hid, ih (by omega) hdone⟩

/-- An update goes to the client of its entry, and is about the attribute. -/
theorem mem_updates {id : UInt32} {state : DataStateType} {m : Message}
    (hm : m ∈ s.updates id state) : m.requestID = id ∧ m.responseType = updateType state := by
  obtain ⟨n, _, hn⟩ := List.mem_filterMap.mp hm
  unfold update at hn
  split at hn
  · obtain ⟨conn, _, rfl⟩ := Option.map_eq_some_iff.mp hn
    exact ⟨rfl, rfl⟩
  · cases hn

section Answer

variable {user : List UserCall} {t : CServer}

theorem sendAttribute_valid (hid : h.requestId ∈ cfg.attributes)
    (hstate : t.attributeState h.requestId = .DATA_OK) : t.sendAttribute cfg h =
      match live (t.findConnection h.clientID) with
      | some conn => .ok ((t.findClientConnection h.clientID).2.emit (.message
          (conn.message .RESULT_DATA_OK h.requestId INVALID_SEQUENCE_NR)))
      | none => assertChannel cfg (t.findConnection h.clientID) >>= fun _ =>
          .ok (t.findClientConnection h.clientID).2 := by
  rw [sendAttribute, getAttributeState_of_mem hid, hstate, ← findClientConnection_fst]
  rfl

/-- A valid attribute is sent to the client that has asked, if it is reached. -/
theorem tells_valid (hid : h.requestId ∈ cfg.attributes)
    (hstate : t.attributeState h.requestId = .DATA_OK) :
    Tells h [.RESULT_DATA_OK] t (t.sendAttribute cfg h) ↔ t.isLive h.clientID = true := by
  rw [sendAttribute_valid hid hstate]
  have hview := sameView_findClientConnection h.clientID t
  cases hl : live (t.findConnection h.clientID) with
  | none =>
      refine iff_of_false ?_ (by simp [isLive, hl])
      rintro ⟨s', ms, hok, hlog, _, hnotices⟩
      obtain ⟨_, _, hs'⟩ := Partial.bind_eq_ok hok
      obtain rfl := Except.ok.inj hs'
      rw [hview.log] at hlog
      have hnone : ms.map Output.message = [] := by simpa using hlog
      rw [List.map_eq_nil_iff.mp hnone] at hnotices
      cases hnotices
  | some conn =>
      refine iff_of_true ⟨_, [conn.message .RESULT_DATA_OK h.requestId INVALID_SEQUENCE_NR],
        rfl, congrArg (· ++ _) hview.log, fun m hm => ?_, rfl⟩ (by simp [isLive, hl])
      obtain rfl := List.mem_singleton.mp hm
      exact ⟨clientID_of_findConnection (eq_of_live hl), rfl⟩

/-- That an attribute is invalid is told to all subscribers that are reached. -/
theorem tells_invalid (hid : h.requestId ∈ cfg.attributes)
    (hstate : t.attributeState h.requestId = .DATA_INVALID)
    (hconnected : ∀ n ∈ t.mNotifications, n.notifyID = h.requestId →
      t.isConnected n.clientID = true) :
    Tells h [.RESULT_DATA_INVALID] t (t.sendAttribute cfg h) ↔
      (∃ s', t.sendNotification cfg h.requestId = .ok s') ∧
        (t.updates h.requestId .DATA_INVALID).map (·.clientID) = [h.clientID] := by
  have hsend : t.sendAttribute cfg h = t.sendNotification cfg h.requestId := by
    rw [sendAttribute, getAttributeState_of_mem hid, hstate]
    rfl
  have hall {s' : CServer} (hok : t.sendNotification cfg h.requestId = .ok s') :
      s' = t.emitAll (t.updates h.requestId .DATA_INVALID) := by
    obtain ⟨ms, rfl, hms⟩ := sendNotification_of_connected hconnected hok
    rw [hms _ (hstate ▸ getAttributeState_of_mem hid t)]
  rw [hsend]
  constructor
  · rintro ⟨s', ms, hok, hlog, hto, hnotices⟩
    refine ⟨⟨s', hok⟩, ?_⟩
    obtain rfl := hall hok
    have hsame : t.updates h.requestId .DATA_INVALID = ms :=
      (List.map_inj_right (fun _ _ heq => Output.message.inj heq)).mp
        (List.append_cancel_left hlog)
    rw [hsame]
    obtain ⟨m, rfl⟩ := List.length_eq_one_iff.mp
      (show ms.length = 1 by rw [← List.length_map, hnotices]; rfl)
    exact congrArg (fun c => [c]) (hto m (List.mem_singleton_self m)).1
  · rintro ⟨⟨s', hok⟩, halone⟩
    obtain rfl := hall hok
    refine ⟨_, _, hok, rfl, fun m hm => ⟨?_, (mem_updates hm).1⟩, ?_⟩
    · have hin := List.mem_map_of_mem (f := (·.clientID)) hm
      rw [halone] at hin
      exact List.mem_singleton.mp hin
    · obtain ⟨m, hm⟩ := List.length_eq_one_iff.mp
        (show (t.updates h.requestId .DATA_INVALID).length = 1 by
          rw [← List.length_map, halone]; rfl)
      rw [hm]
      exact congrArg (fun r => [r]) (mem_updates (hm ▸ List.mem_singleton_self m)).2

/-- The test of `subscribesAlone` is whether every entry for the attribute is reached. -/
theorem all_reached_iff {id : UInt32} :
    (t.mNotifications.all (fun n => n.notifyID != id ||
        t.isConnected n.clientID && (cfg.NDEBUG || t.isLive n.clientID))) = true ↔
      ∀ n ∈ t.mNotifications, n.notifyID = id →
        t.isConnected n.clientID = true ∧ (cfg.NDEBUG = true ∨ t.isLive n.clientID = true) := by
  simp only [List.all_eq_true, Bool.or_eq_true, Bool.and_eq_true, bne_iff_ne, ne_eq]
  exact forall₂_congr fun n _ => Decidable.imp_iff_not_or.symm

/-- If all subscribers are reached, and only one of them by a message, the notice is private. -/
theorem tells_of_reached (hid : h.requestId ∈ cfg.attributes)
    (hstate : t.attributeState h.requestId = .DATA_INVALID)
    (hreached : ∀ n ∈ t.mNotifications, n.notifyID = h.requestId →
      t.isConnected n.clientID = true ∧ (cfg.NDEBUG = true ∨ t.isLive n.clientID = true))
    (halone : (t.updates h.requestId .DATA_INVALID).map (·.clientID) = [h.clientID]) :
    Tells h [.RESULT_DATA_INVALID] t (t.sendAttribute cfg h) := by
  have hconnected : ∀ n ∈ t.mNotifications, n.notifyID = h.requestId →
      t.isConnected n.clientID = true := fun n hn heq => (hreached n hn heq).1
  have hok : ∃ s', t.sendNotification cfg h.requestId = .ok s' :=
    notifyLoop_isOk hconnected (fun n hn heq => (hreached n hn heq).2)
      (getAttributeState_of_mem hid t)
  exact (tells_invalid hid hstate hconnected).mpr ⟨hok, halone⟩

/-- A private notice has reached all subscribers, and only one of them by a message, or
there are no assertions and a subscriber has no connection. -/
theorem reached_of_tells (hid : h.requestId ∈ cfg.attributes)
    (hstate : t.attributeState h.requestId = .DATA_INVALID)
    (hp : Tells h [.RESULT_DATA_INVALID] t (t.sendAttribute cfg h)) :
    ((∀ n ∈ t.mNotifications, n.notifyID = h.requestId →
          t.isConnected n.clientID = true ∧ (cfg.NDEBUG = true ∨ t.isLive n.clientID = true)) ∧
        (t.updates h.requestId .DATA_INVALID).map (·.clientID) = [h.clientID]) ∨
      cfg.NDEBUG = true ∧ ∃ n ∈ t.mNotifications,
        n.notifyID = h.requestId ∧ t.isConnected n.clientID = false := by
  cases hndebug : cfg.NDEBUG with
  | false =>
      -- every assertion in the loop has held
      have hsend : ∃ s', t.sendNotification cfg h.requestId = .ok s' := by
        obtain ⟨s', _, hok, _⟩ := hp
        rw [sendAttribute, getAttributeState_of_mem hid, hstate] at hok
        exact ⟨s', hok⟩
      obtain ⟨s', hok⟩ := hsend
      have hlive : ∀ n ∈ t.mNotifications, n.notifyID = h.requestId →
          t.isLive n.clientID = true := isLive_of_notifyLoop hndebug (Nat.zero_add _) hok
      have hconnected : ∀ n ∈ t.mNotifications, n.notifyID = h.requestId →
          t.isConnected n.clientID = true := fun n hn heq => isConnected_of_isLive (hlive n hn heq)
      exact .inl ⟨fun n hn heq => ⟨hconnected n hn heq, .inr (hlive n hn heq)⟩,
        ((tells_invalid hid hstate hconnected).mp hp).2⟩
  | true =>
      by_cases hconnected : ∀ n ∈ t.mNotifications, n.notifyID = h.requestId →
          t.isConnected n.clientID = true
      · exact .inl ⟨fun n hn heq => ⟨hconnected n hn heq, .inl rfl⟩,
          ((tells_invalid hid hstate hconnected).mp hp).2⟩
      · simp only [not_forall, Bool.not_eq_true] at hconnected
        obtain ⟨n, hn, heq, hdead⟩ := hconnected
        exact .inr ⟨rfl, n, hn, heq, hdead⟩

/-- The answer depends on the view that the search for the client and the new entry leave. -/
theorem subscribesPrivately_iff
    (hversion : protoMinorOf (s.findConnection h.clientID) = h.protoMinor)
    (htype : h.requestType = .REQUEST_NOTIFY ∨ h.requestType = .REQUEST_REGISTER_NOTIFY)
    (hattribute : isAttributeId h.requestId = true)
    (ht : t = (s.findClientConnection h.clientID).2.subscribed cfg h) :
    SubscribesPrivately cfg h user s ↔
      Tells h (t.attributeState h.requestId).notices t (t.sendAttribute cfg h) := by
  have hview : SameView s t := ht ▸ (sameView_findClientConnection h.clientID s).trans
    (sameView_subscribed cfg h _)
  rw [SubscribesPrivately, handleDataRequest_eq user hversion htype hattribute, ← ht,
    hview.attributeState, Tells, Tells, hview.log]

/-- A client that subscribes to an attribute hears of it alone, if no other subscriber is
reached by the notice that it is invalid; and only then, unless there are no assertions and
a subscriber has no connection at all. -/
theorem subscribes_privately (cfg : Config) (h : DataRequest) (user : List UserCall)
    (s : CServer) (hversion : protoMinorOf (s.findConnection h.clientID) = h.protoMinor)
    (htype : h.requestType = .REQUEST_NOTIFY ∨ h.requestType = .REQUEST_REGISTER_NOTIFY)
    (hattribute : isAttributeId h.requestId = true) (hid : h.requestId ∈ cfg.attributes) :
    (s.subscribesAlone cfg h = true → SubscribesPrivately cfg h user s) ∧
      (SubscribesPrivately cfg h user s → s.subscribesAlone cfg h = true ∨
        cfg.NDEBUG = true ∧ s.attributeState h.requestId = .DATA_INVALID ∧
          ∃ n ∈ ((s.findClientConnection h.clientID).2.subscribed cfg h).mNotifications,
            n.notifyID = h.requestId ∧ s.isConnected n.clientID = false) := by
  generalize ht : (s.findClientConnection h.clientID).2.subscribed cfg h = t
  have hview : SameView s t := ht ▸ (sameView_findClientConnection h.clientID s).trans
    (sameView_subscribed cfg h _)
  have hsame (c : SPartyID) : t.isConnected c = s.isConnected c := by
    rw [isConnected, hview.findConnection, isConnected]
  rw [subscribesPrivately_iff hversion htype hattribute ht.symm]
  unfold subscribesAlone
  rw [ht, hview.attributeState]
  have hstate := congrFun hview.attributeState h.requestId
  cases hs : s.attributeState h.requestId with
  | DATA_NOT_AVAILABLE =>
      refine ⟨fun _ => ⟨t, [], ?_, (List.append_nil _).symm, by simp, rfl⟩, fun _ => .inl rfl⟩
      rw [sendAttribute, getAttributeState_of_mem hid, hstate, hs]
      rfl
  | DATA_OK =>
      have hiff := tells_valid hid (hstate.trans hs)
      rw [hview.isLive] at hiff
      exact ⟨hiff.mpr, fun hp => .inl (hiff.mp hp)⟩
  | DATA_INVALID =>
      have hinvalid := hstate.trans hs
      simp only [Bool.and_eq_true, beq_iff_eq]
      refine ⟨fun hcond => ?_, fun hp => ?_⟩
      · exact tells_of_reached hid hinvalid (all_reached_iff.mp hcond.1) hcond.2
      · rcases reached_of_tells hid hinvalid hp with hdone | ⟨hndebug, n, hn, heq, hdead⟩
        · exact .inl ⟨all_reached_iff.mpr hdone.1, hdone.2⟩
        · exact .inr ⟨hndebug, trivial, n, hn, heq, hsame _ ▸ hdead⟩

/-- No other client is told anything. -/
theorem Tells.to_client {notices : List ResultType} {s' : CServer}
    (hp : Tells h notices s (.ok s')) :
    ∀ m ∈ (s'.log.drop s.log.length).filterMap Output.message?, m.clientID = h.clientID := by
  obtain ⟨_, ms, hok, hlog, hto, _⟩ := hp
  obtain rfl := Except.ok.inj hok
  rw [hlog, List.drop_left, List.filterMap_map]
  intro m hm
  obtain ⟨m', hm', heq⟩ := List.mem_filterMap.mp hm
  obtain rfl := Option.some.inj heq
  exact (hto m' hm').1

end Answer

/-- Two clients are connected, one of them subscribes to an attribute, and the attribute is
set. -/
def subscriberAndState (state : DataStateType) : List Event :=
  [connects ⟨1, 0⟩ 1, connects ⟨2, 0⟩ 2, asks ⟨1, 0⟩ .REQUEST_NOTIFY 0xC0000001 0 [],
    .user [.setAttributeState 0xC0000001 state]]

/-- The other client subscribes. -/
def secondSubscriber : DataRequest :=
  { requestType := .REQUEST_NOTIFY, requestId := 0xC0000001, clientID := ⟨2, 0⟩
    protoMinor := 0, sequenceNr := 0, payload := [] }

theorem subscribes_privately_valid :
    ∃ s, run (exampleConfig false) init (subscriberAndState .DATA_OK) = .ok s ∧
      SubscribesPrivately (exampleConfig false) secondSubscriber [] s := by
  obtain ⟨s, hs, hversion, halone⟩ : ∃ s,
      run (exampleConfig false) init (subscriberAndState .DATA_OK) = .ok s ∧
      protoMinorOf (s.findConnection ⟨2, 0⟩) = 0 ∧
      s.subscribesAlone (exampleConfig false) secondSubscriber = true := by decide +kernel
  exact ⟨s, hs, (subscribes_privately (exampleConfig false) secondSubscriber [] s hversion
    (.inl rfl) (by decide) (by decide)).1 halone⟩

/-- The attribute is invalid when the second client subscribes: the first one is told once
more that it is. -/
theorem not_subscribes_privately_invalid :
    ∃ s, run (exampleConfig false) init (subscriberAndState .DATA_INVALID) = .ok s ∧
      ¬ SubscribesPrivately (exampleConfig false) secondSubscriber [] s := by
  obtain ⟨s, hs, s', hs', hto⟩ : ∃ s,
      run (exampleConfig false) init (subscriberAndState .DATA_INVALID) = .ok s ∧
      ∃ s', s.handleDataRequest (exampleConfig false) secondSubscriber [] = .ok s' ∧
        ((s'.log.drop s.log.length).filterMap Output.message?).map (·.clientID) =
          [⟨1, 0⟩, ⟨2, 0⟩] := by
    decide +kernel
  refine ⟨s, hs, fun hp => ?_⟩
  rw [SubscribesPrivately, hs'] at hp
  have hfirst : (⟨1, 0⟩ : SPartyID) ∈
      ((s'.log.drop s.log.length).filterMap Output.message?).map (·.clientID) :=
    hto ▸ List.mem_cons_self
  obtain ⟨m, hm, heq⟩ := List.mem_map.mp hfirst
  exact absurd (heq.symm.trans (hp.to_client m hm)) (by decide)

end CServer

end Dsi
