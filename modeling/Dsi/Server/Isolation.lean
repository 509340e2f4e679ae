import Dsi.Server.Unblocked

/-!
# Dsi.Server.Isolation

What a server does on behalf of one client leaves the entries of the others alone, as
long as no lookup by the local half of an ID hits another client, no removal of a
session repeats the end of the vector, and no growth of the sessions loses the update
IDs of others.
-/

namespace Dsi

namespace CServer

open Sequence

/-! ## Isolation -/

/-- The entries of all clients but `a` are in `s'` what they are in `s`. -/
structure Isolates (a : SPartyID) (s s' : CServer) : Prop where
  notifications : s'.mNotifications.filter (fun n => n.clientID != a) =
    s.mNotifications.filter (fun n => n.clientID != a)
  sessions : s'.mSessions.filter (fun sd => sd.clientID != a) =
    s.mSessions.filter (fun sd => sd.clientID != a)
  unblocked : s'.mUnblockedSessions.filter (fun u => u.2.clientID != a) =
    s.mUnblockedSessions.filter (fun u => u.2.clientID != a)

namespace Isolates

variable {a : SPartyID} {s t u : CServer}

theorem refl (a : SPartyID) (s : CServer) : Isolates a s s := ⟨rfl, rfl, rfl⟩

theorem trans (h : Isolates a s t) (h' : Isolates a t u) : Isolates a s u :=
  ⟨h'.notifications.trans h.notifications, h'.sessions.trans h.sessions,
    h'.unblocked.trans h.unblocked⟩

end Isolates

/-- The client on behalf of whom a step is done: a request which the application at most
unblocks, a disconnect request and a detach pulse in whose callbacks it calls nothing. -/
def behalf (s : CServer) : Event → Option SPartyID
  | .dataRequest h user =>
      if h.requestType ≠ .REQUEST ∨ user = [.unblockRequest] then some h.clientID else none
  | .disconnect clientID user => if user = [] then some clientID else none
  | .detached id user =>
      if user = [] then
        (s.mClientConnections.find? (fun conn => conn.id == id)).map (·.clientID)
      else none
  | _ => none

/-- A notification that is asked for under the version of the client is there, as one of
the client itself. -/
def HasAsked (s s' : CServer) : Event → Prop
  | .dataRequest h _ =>
      (h.requestType = .REQUEST_NOTIFY ∨ h.requestType = .REQUEST_REGISTER_NOTIFY) →
        protoMinorOf (s.findConnection h.clientID) = h.protoMinor →
          ∃ n ∈ s'.mNotifications, n.clientID = h.clientID ∧ isSet h n = true
  | _ => True

/-- A step on behalf of a client leaves the entries of all others alone, and the client has
what it asked for; or it ends at the states of responses that do not fit. -/
def Isolated (cfg : Config) (s : CServer) (e : Event) : Prop :=
  ∀ a, s.behalf e = some a →
    (∃ s', step cfg s e = .ok s' ∧ Isolates a s s' ∧ HasAsked s s' e) ∨
      cfg.statesFit = false ∧ step cfg s e = .error .outOfRange

/-! ## The condition -/

/-- `removeNotification` hits the client's own entries only. -/
def removesOwn (a : SPartyID) (id : UInt32) (s : CServer) : Bool :=
  s.mNotifications.all (fun n => !isRemoved id a n || n.clientID == a)

/-- `removeSessionNotifications` hits the client's own entries only, and repeats only its
own ones at the end. -/
def shiftsOwn (a : SPartyID) (sessionId : Int32) (s : CServer) : Bool :=
  s.mNotifications.all (fun n => !(n.sessionId == sessionId) || n.clientID == a) &&
    (s.mNotifications.drop
      (s.mNotifications.filter (fun n => !(n.sessionId == sessionId))).length).all
        (fun n => n.clientID == a)

/-- A new session leaves the update IDs of the other clients' sessions: there is room
for it, or their copies find what they had. -/
def copiesKeep (cfg : Config) (a : SPartyID) (s : CServer) : Bool :=
  s.mSessions.length < s.mSessionsCapacity ||
    (List.range s.mSessions.length).all (fun i => s.mSessions[i]?.all (fun sd =>
      sd.clientID == a || cfg.uninitialised (s.copies + i) == sd.updateId))

/-- The session at a position is one of the client. -/
def ownsSession (a : SPartyID) (s : CServer) (pos : Nat) : Bool :=
  s.mSessions[pos]?.all (fun sd => sd.clientID == a)

/-- A handler that is called can unblock the request: its sequence number is valid, or
that is not asserted. -/
def canUnblock (cfg : Config) (m : RequestMethod) (h : DataRequest) : Bool :=
  cfg.NDEBUG || h.sequenceNr != INVALID_SEQUENCE_NR || !m.decodes h.payload

/-- The handler can unblock the request, and the sessions that `processRequest` makes,
changes and removes are the client's own. -/
def methodIsolates (cfg : Config) (m : RequestMethod) (h : DataRequest) (s : CServer) : Bool :=
  let session := s.findSession h.sequenceNr h.clientID
  let sessionId := (s.enterSession session).mSessionId
  match m.kind with
  | .request => canUnblock cfg m h
  | .register =>
      canUnblock cfg m h &&
        (if sessionId = INVALID_SESSION_ID then s.copiesKeep cfg h.clientID
        else session.all (s.ownsSession h.clientID))
  | .unregister =>
      sessionId == INVALID_SESSION_ID || s.shiftsOwn h.clientID sessionId &&
        (s.mSessions.find? (fun sd => sd.sessionId == sessionId)).all
          (fun sd => sd.clientID == h.clientID)

/-- A request that is refused can be answered; the handle of another one is no other
client's, and its sessions are its own. -/
def requestIsolates (cfg : Config) (h : DataRequest) (s : CServer) : Bool :=
  if s.isResponseDangling (cfg.getResponse h.requestId) then
    cfg.NDEBUG || s.isLive h.clientID
  else
    s.mUnblockedSessions.all (fun u => u.2.clientID == h.clientID ||
        u.1 != idOf s.nextID && u.1 != idOf (s.nextID + 1)) &&
      cfg.requestMethods[h.requestId.toNat]?.all (fun m => s.methodIsolates cfg m h)

/-- The state that `getAttributeState` returns where it returns. -/
def stateOf (cfg : Config) (id : UInt32) (s : CServer) : DataStateType :=
  if id ∈ cfg.attributes then s.attributeState id else .DATA_NOT_AVAILABLE

/-- No other client's notification is taken for the one that is asked for, its session
is made without loss, and an attribute is sent to clients that are reached. -/
def notifyIsolates (cfg : Config) (h : DataRequest) (s : CServer) : Bool :=
  (s.mNotifications.any (fun n => isSet h n && n.clientID == h.clientID) ||
    !s.mNotifications.any (isSet h) &&
      (h.requestType != .REQUEST_REGISTER_NOTIFY ||
        (s.findSession h.sequenceNr h.clientID).isSome || s.copiesKeep cfg h.clientID)) &&
  (!isAttributeId h.requestId ||
    (cfg.NDEBUG || cfg.attributes.contains h.requestId || h.requestId == UPD_ID_implVersion) &&
      match s.stateOf cfg h.requestId with
      | .DATA_OK => s.reaches (!cfg.NDEBUG) h.clientID
      | .DATA_INVALID =>
          s.reaches (!cfg.NDEBUG) h.clientID && s.mNotifications.all (fun n =>
            n.notifyID != h.requestId || s.reaches (!cfg.NDEBUG) n.clientID)
      | .DATA_NOT_AVAILABLE => true)

/-- The condition on a request behind the search for its client. -/
def dispatchIsolates (cfg : Config) (h : DataRequest) (s : CServer) : Bool :=
  match h.requestType with
  | .REQUEST => s.requestIsolates cfg h
  | .REQUEST_NOTIFY | .REQUEST_REGISTER_NOTIFY => s.notifyIsolates cfg h
  | .REQUEST_STOP_NOTIFY | .REQUEST_STOP_REGISTER_NOTIFY => s.removesOwn h.clientID h.requestId
  | .REQUEST_STOP_ALL_NOTIFY => s.removesOwn h.clientID INVALID_ID
  | .REQUEST_STOP_ALL_REGISTER_NOTIFY =>
      (s.findSession h.sequenceNr h.clientID).all (fun pos =>
        s.shiftsOwn h.clientID (s.sessionIdAt pos))
  | .REQUEST_LOAD_COMPONENT => true

/-- No other client of the same local ID has anything. -/
def dropsOwn (a : SPartyID) (s : CServer) : Bool :=
  s.removesOwn a INVALID_ID &&
    s.mSessions.all (fun sd => !SPartyID.opEq sd.clientID a || sd.clientID == a) &&
    s.mUnblockedSessions.all (fun u => !SPartyID.opEq u.2.clientID a || u.2.clientID == a)

/-- The condition on a step. -/
def stepIsolates (cfg : Config) (s : CServer) (e : Event) : Bool :=
  (s.behalf e).isNone ||
    match e with
    | .dataRequest h _ =>
        (s.isConnected h.clientID || s.removesOwn h.clientID INVALID_ID) &&
          (protoMinorOf (s.findConnection h.clientID) != h.protoMinor ||
            (s.findClientConnection h.clientID).2.dispatchIsolates cfg h)
    | .disconnect clientID _ => !s.isConnected clientID || s.dropsOwn clientID
    | .detached id _ =>
        (s.mClientConnections.find? (fun conn => conn.id == id)).all (fun conn =>
          s.dropsOwn conn.clientID)
    | _ => true

variable {cfg : Config} {a : SPartyID} {s s' t : CServer}

/-! ## Removals -/

/-- A removal of the client's own entries. -/
theorem isolates_removeNotification {id : UInt32} (h : s.removesOwn a id = true) :
    Isolates a s (s.removeNotification a id) := by
  rw [removeNotification_eq]
  refine ⟨filter_filter_of_imp (fun n hn hq => ?_), rfl, rfl⟩
  have hown := List.all_eq_true.mp h n hn
  rw [bne_iff_ne] at hq
  rw [beq_eq_false_iff_ne.mpr hq, Bool.or_false] at hown
  exact hown

/-- Fewer entries: still only its own ones are removed. -/
theorem removesOwn_of_sublist {id : UInt32} (hn : t.mNotifications.Sublist s.mNotifications)
    (h : s.removesOwn a id = true) : t.removesOwn a id = true :=
  List.all_eq_true.mpr (fun n hmem => List.all_eq_true.mp h n (hn.subset hmem))

/-- The search for the client takes no entry of others, if it is connected or its entries are all
that its local ID has. -/
theorem isolates_findClientConnection
    (h : s.isConnected a = true ∨ s.removesOwn a INVALID_ID = true) :
    Isolates a s (s.findClientConnection a).2 := by
  rw [findClientConnection, findClientConnectionBy]
  cases hc : s.findConnection a with
  | some conn => exact .refl a s
  | none =>
      have hown := h.resolve_left (by rw [isConnected, hc]; exact Bool.false_ne_true)
      exact isolates_removeNotification hown

/-- A second search finds what the first one left. -/
theorem findsOwn_findClientConnection
    (h : s.isConnected a = true ∨ s.removesOwn a INVALID_ID = true) :
    (s.findClientConnection a).2.isConnected a = true ∨
      (s.findClientConnection a).2.removesOwn a INVALID_ID = true := by
  have hshrinks := shrinks_findClientConnectionBy steady a s
  refine h.imp (fun hc => ?_) (removesOwn_of_sublist hshrinks.notifications)
  rw [findClientConnection, (Moves.of_shrinks hshrinks).isConnected]
  exact hc

/-- A session that goes takes no entry of others along, where the erased place held its own. -/
theorem isolates_removeSessionNotifications {sessionId : Int32}
    (h : s.shiftsOwn a sessionId = true) :
      Isolates a s (s.removeSessionNotifications sessionId) := by
  rw [shiftsOwn, Bool.and_eq_true] at h
  refine ⟨filter_removeIfShift (fun n hn hq => ?_) (fun n hn => ?_), rfl, rfl⟩
  · have hown := List.all_eq_true.mp h.1 n hn
    rw [bne_iff_ne] at hq
    rw [beq_eq_false_iff_ne.mpr hq, Bool.or_false, Bool.not_eq_true'] at hown
    exact hown
  · have hown := List.all_eq_true.mp h.2 n hn
    simpa using hown

/-! ## Sessions -/

/-- A session of the client leaves those of others in place, if no copy is needed. -/
theorem filter_pushSession {sd : SessionData} (hsd : sd.clientID = a)
    (h : s.copiesKeep cfg a = true) :
    (s.pushSession cfg sd).mSessions.filter (fun sd => sd.clientID != a) =
      s.mSessions.filter (fun sd => sd.clientID != a) := by
  unfold pushSession
  split
  · have hnew : (sd.copy cfg s.copies).clientID = a := hsd
    rw [List.filter_append, List.filter_cons_of_neg (by simp [hnew]), List.filter_nil,
      List.append_nil]
  · next hfull =>
    rw [copiesKeep, decide_eq_false hfull, Bool.false_or, List.all_eq_true] at h
    have hmap : ((s.mSessions ++ [sd]).mapIdx (fun i sd => sd.copy cfg (s.copies + i))).filter
        (fun sd => sd.clientID != a) =
          (s.mSessions ++ [sd]).filter (fun sd => sd.clientID != a) := by
      refine filter_mapIdx (fun i x hx => ⟨rfl, fun hq => ?_⟩)
      rw [bne_iff_ne] at hq
      have hlt : i < s.mSessions.length := by
        by_contra hge
        rw [List.getElem?_append_right (by omega)] at hx
        have hmem := List.mem_of_getElem? hx
        rw [List.mem_singleton] at hmem
        exact hq (hmem ▸ hsd)
      have hkept := h i (List.mem_range.mpr hlt)
      rw [List.getElem?_append_left hlt] at hx
      rw [hx, Option.all_some, beq_eq_false_iff_ne.mpr hq, Bool.false_or, beq_iff_eq] at hkept
      rw [SessionData.copy, hkept]
    refine hmap.trans ?_
    rw [List.filter_append, List.filter_cons_of_neg (by simp [hsd]), List.filter_nil,
      List.append_nil]

/-- The session of a register call is the client's own. -/
theorem openSession_isolates (cfg : Config) {h : DataRequest} {session : Option Nat}
    (hc : s.mClientID = h.clientID)
    (hi : s.mSessionId = INVALID_SESSION_ID)
    (hcond : if (s.enterSession session).mSessionId = INVALID_SESSION_ID then
        s.copiesKeep cfg h.clientID = true
      else session.all (s.ownsSession h.clientID) = true) :
    ∃ v, (s.enterSession session).openSession cfg h session = .ok v ∧
      v.mSessions.filter (fun sd => sd.clientID != h.clientID) =
        s.mSessions.filter (fun sd => sd.clientID != h.clientID) ∧
      (v.nextID = s.nextID ∨ v.nextID = s.nextID + 1) := by
  have hpush : ∀ r : CServer, s.copiesKeep cfg h.clientID = true →
      r.mSessions = s.mSessions → r.mSessionsCapacity = s.mSessionsCapacity →
      r.copies = s.copies → ∀ sd : SessionData, sd.clientID = h.clientID →
        (r.pushSession cfg sd).mSessions.filter (fun sd => sd.clientID != h.clientID) =
          s.mSessions.filter (fun sd => sd.clientID != h.clientID) := by
    intro r hkeep hsessions hcapacity hcopies sd hsd
    have hr : r.copiesKeep cfg h.clientID = true := by
      rw [copiesKeep, hsessions, hcapacity, hcopies]
      exact hkeep
    rw [filter_pushSession hsd hr, hsessions]
  cases session with
  | none =>
      rw [enterSession] at hcond ⊢
      rw [if_pos hi] at hcond
      rw [openSession, if_pos hi]
      obtain ⟨l, k, c, hl⟩ := pushSession_eq cfg
        { sessionId := s.createId.1, clientID := s.mClientID, sequenceNr := h.sequenceNr
          updateId := h.requestId } s.createId.2
      refine ⟨_, rfl, hpush s.createId.2 hcond rfl rfl rfl _ hc, Or.inr ?_⟩
      dsimp only
      rw [hl]
      rfl
  | some pos =>
      rw [openSession]
      by_cases hnone : (s.enterSession (some pos)).mSessionId = INVALID_SESSION_ID
      · rw [if_pos hnone] at hcond ⊢
        obtain ⟨l, k, c, hl⟩ := pushSession_eq cfg
          { sessionId := (s.enterSession (some pos)).createId.1
            clientID := (s.enterSession (some pos)).mClientID, sequenceNr := h.sequenceNr
            updateId := h.requestId } (s.enterSession (some pos)).createId.2
        refine ⟨_, rfl, hpush (s.enterSession (some pos)).createId.2 hcond rfl rfl rfl _ hc,
          Or.inr ?_⟩
        dsimp only
        rw [hl]
        rfl
      · rw [if_neg hnone] at hcond ⊢
        rw [Option.all_some, ownsSession] at hcond
        refine ⟨_, rfl, filter_modify (fun x hx => ?_), Or.inl rfl⟩
        have hx' : s.mSessions[pos]? = some x := hx
        rw [hx', Option.all_some, beq_iff_eq] at hcond
        simp [hcond]

/-! ## Requests -/

/-- A request is being handled; its notification, if it has one, is the last. -/
structure Handling (h : DataRequest) (r : UInt32) (front : List Notification) (t : CServer) :
    Prop where
  notifications : t.mNotifications =
    front ++ (if r = INVALID_ID then [] else [h.notification r])
  responseId : t.mResponseId = r
  clientID : t.mClientID = h.clientID
  sequenceNr : t.mCurrentSequenceNr = h.sequenceNr

section Request

variable {h : DataRequest} {r : UInt32} {front : List Notification} {m : RequestMethod}

/-- The new entry is the client's own. -/
theorem filter_notification (h : DataRequest) (r : UInt32) (front : List Notification) :
    (front ++ (if r = INVALID_ID then [] else [h.notification r])).filter
      (fun n => n.clientID != h.clientID) = front.filter (fun n => n.clientID != h.clientID) := by
  rw [List.filter_append]
  split
  · rw [List.filter_nil, List.append_nil]
  · rw [List.filter_cons_of_neg (by simp [DataRequest.notification]), List.filter_nil,
      List.append_nil]

/-- The handler that unblocks its request takes it away, under a handle that is no other
client's. -/
theorem callHandler_isolates (ht : Handling h r front t)
    (hfit : r = INVALID_ID ∨ cfg.statesFit = true)
    (hseq : h.sequenceNr = INVALID_SEQUENCE_NR → cfg.NDEBUG = true)
    (hfresh : ∀ u ∈ t.mUnblockedSessions, u.2.clientID ≠ h.clientID → u.1 ≠ idOf t.nextID) :
    ∃ w, t.callHandler cfg h [.unblockRequest] = .ok w ∧ w.mNotifications = front ∧
      w.mSessions = t.mSessions ∧ w.mSessionId = t.mSessionId ∧
      w.mUnblockedSessions.filter (fun u => u.2.clientID != h.clientID) =
        t.mUnblockedSessions.filter (fun u => u.2.clientID != h.clientID) := by
  by_cases hr : r = INVALID_ID
  · have hnotifications := ht.notifications
    rw [if_pos hr, List.append_nil] at hnotifications
    refine ⟨t.emit (.called h.requestId t.mClientID h.sequenceNr t.mSessionId), ?_,
      hnotifications, rfl, rfl, rfl⟩
    have hasserted : ¬ (t.mCurrentSequenceNr = INVALID_SEQUENCE_NR ∧ cfg.NDEBUG = false) := by
      rw [ht.sequenceNr]
      exact fun hbad => Bool.false_ne_true (hbad.2.symm.trans (hseq hbad.1))
    have hunblock :
        (t.emit (.called h.requestId t.mClientID h.sequenceNr t.mSessionId)).unblockRequest cfg =
          .ok (INVALID_SESSION_ID,
            t.emit (.called h.requestId t.mClientID h.sequenceNr t.mSessionId)) := by
      rw [unblockRequest, if_neg (by exact hasserted), if_pos (by exact ht.responseId.trans hr)]
    rw [callHandler, calls, Partial.run, call, hunblock]
    rfl
  · have hnotifications := ht.notifications
    rw [if_neg hr] at hnotifications
    have haccepted : Accepted h r front t :=
      ⟨hnotifications, ht.responseId, ht.clientID, ht.sequenceNr⟩
    refine ⟨_, callHandler_unblocks haccepted hr (hfit.resolve_left hr) hseq, rfl, rfl, rfl, ?_⟩
    simp only [taken, emit]
    rw [List.filter_append, List.filter_cons_of_neg (by simp [DataRequest.notification]),
      List.filter_nil, List.append_nil]
    exact filter_filter_of_imp (fun u hu hq => by
      have hne := hfresh u hu (by simpa using hq)
      simpa using hne)

/-- The handler of the client's request leaves the others alone. -/
theorem readAndCall_isolates (ht : Handling h r front t)
    (hfit : r = INVALID_ID ∨ cfg.statesFit = true) (hcan : canUnblock cfg m h = true)
    (hfresh : ∀ u ∈ t.mUnblockedSessions, u.2.clientID ≠ h.clientID → u.1 ≠ idOf t.nextID) :
    ∃ w, t.readAndCall cfg m h [.unblockRequest] = .ok w ∧
      w.mNotifications.filter (fun n => n.clientID != h.clientID) =
        front.filter (fun n => n.clientID != h.clientID) ∧
      w.mSessions = t.mSessions ∧
      w.mUnblockedSessions.filter (fun u => u.2.clientID != h.clientID) =
        t.mUnblockedSessions.filter (fun u => u.2.clientID != h.clientID) := by
  rw [readAndCall]
  split
  · next hdecodes =>
    have hseq : h.sequenceNr = INVALID_SEQUENCE_NR → cfg.NDEBUG = true := by
      intro hbad
      rw [canUnblock, hbad, bne_self_eq_false, hdecodes, Bool.or_false, Bool.not_true,
        Bool.or_false] at hcan
      exact hcan
    obtain ⟨w, hw, hn, hsessions, -, hunblocked⟩ :=
      callHandler_isolates ht hfit hseq hfresh
    exact ⟨w, hw, by rw [hn], hsessions, hunblocked⟩
  · exact ⟨t, rfl, by rw [ht.notifications, filter_notification], rfl, rfl⟩

/-- What the methods find: the request is being handled, and the rest is as it was when the
request came. -/
structure Entered (h : DataRequest) (r : UInt32) (s v : CServer) : Prop
    extends Handling h r s.mNotifications v where
  sessions : v.mSessions = s.mSessions
  capacity : v.mSessionsCapacity = s.mSessionsCapacity
  copies : v.copies = s.copies
  unblocked : v.mUnblockedSessions = s.mUnblockedSessions
  nextID : v.nextID = s.nextID
  sessionId : v.mSessionId = s.mSessionId

/-- A request that is accepted is entered. -/
theorem entered_acceptRequest (h : DataRequest) (r : UInt32) (s : CServer) :
    Entered h r s (s.acceptRequest h r) := by
  obtain ⟨f, hf⟩ := acceptRequest_eq h r s
  rw [hf]
  exact ⟨⟨rfl, rfl, rfl, rfl⟩, rfl, rfl, rfl, rfl, rfl, rfl⟩

/-- No handle of another client is one of the next two IDs: a register method may take one
for its session before the request is unblocked. -/
def NextFresh (h : DataRequest) (s : CServer) : Prop :=
  ∀ u ∈ s.mUnblockedSessions, u.2.clientID ≠ h.clientID →
    u.1 ≠ idOf s.nextID ∧ u.1 ≠ idOf (s.nextID + 1)

section Method

variable {v : CServer}

/-- The session that is entered is that of the request. -/
theorem Entered.sessionId_enterSession (hv : Entered h r s v) (session : Option Nat) :
    (v.enterSession session).mSessionId = (s.enterSession session).mSessionId := by
  cases session with
  | none => exact hv.sessionId
  | some pos => simp only [enterSession, sessionIdAt, hv.sessions]

/-- A request method. -/
theorem request_isolates (hv : Entered h r s v) (hfit : r = INVALID_ID ∨ cfg.statesFit = true)
    (hfresh : NextFresh h s) (hcan : canUnblock cfg m h = true) :
    ∃ w, v.readAndCall cfg m h [.unblockRequest] = .ok w ∧ Isolates h.clientID s w := by
  obtain ⟨w, hw, hn, hs, hu⟩ := readAndCall_isolates hv.toHandling hfit hcan
    (by rw [hv.unblocked, hv.nextID]; exact fun u hmem hne => (hfresh u hmem hne).1)
  exact ⟨w, hw, hn, by rw [hs, hv.sessions], by rw [hu, hv.unblocked]⟩

/-- A register method, which makes a session or sets the update ID of one. -/
theorem register_isolates (hv : Entered h r s v) (hfit : r = INVALID_ID ∨ cfg.statesFit = true)
    (hi : s.mSessionId = INVALID_SESSION_ID) (hfresh : NextFresh h s)
    (hcan : canUnblock cfg m h = true) {session : Option Nat}
    (hown : if (s.enterSession session).mSessionId = INVALID_SESSION_ID then
        s.copiesKeep cfg h.clientID = true
      else session.all (s.ownsSession h.clientID) = true) :
    ∃ w, ((v.enterSession session).openSession cfg h session >>= fun s =>
        s.readAndCall cfg m h [.unblockRequest] >>= fun s => .ok s.leaveSession) = .ok w ∧
      Isolates h.clientID s w := by
  have hkeeps : v.copiesKeep cfg h.clientID = s.copiesKeep cfg h.clientID := by
    rw [copiesKeep, copiesKeep, hv.sessions, hv.capacity, hv.copies]
  have howns : v.ownsSession h.clientID = s.ownsSession h.clientID := by
    funext pos
    rw [ownsSession, ownsSession, hv.sessions]
  obtain ⟨x, hx, hxs, hxn⟩ := openSession_isolates cfg (s := v) hv.clientID
    (hv.sessionId.trans hi) (by rwa [hv.sessionId_enterSession, hkeeps, howns])
  have hframe : Handling h r s.mNotifications x ∧
      x.mUnblockedSessions = v.mUnblockedSessions := by
    obtain ⟨l, k, c, i, n, -, rfl⟩ := openSession_eq hx
    cases session <;>
      exact ⟨⟨hv.notifications, hv.responseId, hv.clientID, hv.sequenceNr⟩, rfl⟩
  obtain ⟨w, hw, hn, hs, hu⟩ := readAndCall_isolates hframe.1 hfit hcan (by
    rw [hframe.2, hv.unblocked]
    intro u hmem hne
    rcases hxn with heq | heq
    · rw [heq, hv.nextID]
      exact (hfresh u hmem hne).1
    · rw [heq, hv.nextID]
      exact (hfresh u hmem hne).2)
  refine ⟨w.leaveSession, ?_, hn, ?_, ?_⟩
  · simp only [hx, hw, bind, Except.bind]
  · exact (congrArg (List.filter _) hs).trans (hxs.trans (by rw [hv.sessions]))
  · exact hu.trans (by rw [hframe.2, hv.unblocked])

/-- An unregister method, which removes the session that it has entered. -/
theorem unregister_isolates (hv : Entered h r s v)
    (hfit : r = INVALID_ID ∨ cfg.statesFit = true) (hi : s.mSessionId = INVALID_SESSION_ID)
    (hfresh : NextFresh h s)
    (hown : ((s.enterSession (s.findSession h.sequenceNr h.clientID)).mSessionId ==
        INVALID_SESSION_ID ||
      s.shiftsOwn h.clientID
          (s.enterSession (s.findSession h.sequenceNr h.clientID)).mSessionId &&
        (s.mSessions.find? (fun sd => sd.sessionId ==
            (s.enterSession (s.findSession h.sequenceNr h.clientID)).mSessionId)).all
          (fun sd => sd.clientID == h.clientID)) = true) :
    ∃ w, (v.enterSession (s.findSession h.sequenceNr h.clientID)).endSession cfg h
        [.unblockRequest] = .ok w ∧ Isolates h.clientID s w := by
  have henter := hv.sessionId_enterSession (s.findSession h.sequenceNr h.clientID)
  have hframe : Handling h r s.mNotifications
        (v.enterSession (s.findSession h.sequenceNr h.clientID)) ∧
      (v.enterSession (s.findSession h.sequenceNr h.clientID)).mUnblockedSessions =
        s.mUnblockedSessions ∧
      (v.enterSession (s.findSession h.sequenceNr h.clientID)).mSessions = s.mSessions ∧
      (v.enterSession (s.findSession h.sequenceNr h.clientID)).nextID = s.nextID := by
    cases s.findSession h.sequenceNr h.clientID <;>
      exact ⟨⟨hv.notifications, hv.responseId, hv.clientID, hv.sequenceNr⟩, hv.unblocked,
        hv.sessions, hv.nextID⟩
  obtain ⟨hhandling, hunblocked, hsessions, hnextID⟩ := hframe
  rw [endSession]
  by_cases hnone : (v.enterSession (s.findSession h.sequenceNr h.clientID)).mSessionId =
      INVALID_SESSION_ID
  · rw [if_neg (not_not.mpr hnone)]
    refine ⟨_, rfl, ?_, ?_, ?_⟩
    · rw [hhandling.notifications, filter_notification]
    · rw [hsessions]
    · rw [hunblocked]
  · rw [if_pos hnone]
    have hseq : h.sequenceNr = INVALID_SEQUENCE_NR → cfg.NDEBUG = true := by
      intro hbad
      rw [henter, findSession, if_pos hbad] at hnone
      exact absurd hi hnone
    obtain ⟨w, hw, hn, hs, hid, hu⟩ := callHandler_isolates hhandling hfit hseq (by
      rw [hunblocked, hnextID]
      exact fun u hmem hne => (hfresh u hmem hne).1)
    rw [beq_eq_false_iff_ne.mpr (henter ▸ hnone), Bool.false_or, Bool.and_eq_true, ← henter,
      ← hid] at hown
    have hremove := isolates_removeSessionNotifications (s := w)
      (a := h.clientID) (by rw [shiftsOwn, hn]; exact hown.1)
    have hsessions' : w.mSessions = s.mSessions := hs.trans hsessions
    refine ⟨w.removeSession w.mSessionId, ?_, ?_, ?_, ?_⟩
    · simp only [hw, bind, Except.bind]
    · exact hremove.notifications.trans (by rw [hn])
    · refine (filter_eraseP (fun sd hsd => ?_)).trans (congrArg (List.filter _) hsessions')
      have hsd' : s.mSessions.find? (fun sd => sd.sessionId == w.mSessionId) = some sd :=
        hsessions' ▸ hsd
      have howner := hown.2
      rw [hsd', Option.all_some] at howner
      simpa using howner
    · exact hu.trans (by rw [hunblocked])

end Method

/-- One method, with the request that it is called for. -/
theorem processMethod_isolates (hfit : r = INVALID_ID ∨ cfg.statesFit = true)
    (hi : s.mSessionId = INVALID_SESSION_ID) (hfresh : NextFresh h s)
    (hcond : s.methodIsolates cfg m h = true) :
    ∃ w, (s.acceptRequest h r).processMethod cfg m h [.unblockRequest] = .ok w ∧
      Isolates h.clientID s w := by
  have hv := entered_acceptRequest h r s
  have hfind : (s.acceptRequest h r).findSession h.sequenceNr (s.acceptRequest h r).mClientID =
      s.findSession h.sequenceNr h.clientID := by
    rw [findSession, findSession, hv.sessions, hv.clientID]
  unfold processMethod
  rw [hfind]
  unfold methodIsolates at hcond
  cases hk : m.kind with
  | request =>
      rw [hk] at hcond
      exact request_isolates hv hfit hfresh hcond
  | register =>
      rw [hk] at hcond
      dsimp only at hcond
      rw [Bool.and_eq_true] at hcond
      refine register_isolates hv hfit hi hfresh hcond.1 ?_
      have hown := hcond.2
      split
      · next hnone => rwa [if_pos hnone] at hown
      · next hsome => rwa [if_neg hsome] at hown
  | unregister =>
      rw [hk] at hcond
      obtain ⟨w, hw, hisolates⟩ := unregister_isolates hv hfit hi hfresh hcond
      refine ⟨w.leaveSession, ?_, hisolates.notifications, hisolates.sessions,
        hisolates.unblocked⟩
      simp only [hw, bind, Except.bind]

/-- An error goes to the client only. -/
theorem isolates_sendErrorToClient {id : UInt32} {type : ResultType} {nr : Int32}
    (hfind : s.isConnected a = true ∨ s.removesOwn a INVALID_ID = true)
    (hlive : (cfg.NDEBUG || s.isLive a) = true) :
    ∃ w, s.sendErrorToClient cfg a id type nr = .ok w ∧ Isolates a s w := by
  have hisolates := isolates_findClientConnection hfind
  unfold sendErrorToClient
  dsimp only
  rw [fst_findClientConnection]
  rw [isLive] at hlive
  cases hc : live (s.findConnection a) with
  | some conn => exact ⟨_, rfl, hisolates.notifications, hisolates.sessions, hisolates.unblocked⟩
  | none =>
      rw [hc, Option.isSome_none, Bool.or_false] at hlive
      refine ⟨_, ?_, hisolates⟩
      simp only [assertChannel, hlive, if_true]
      rfl

/-- A request leaves the entries of the other clients alone. -/
theorem isolates_handleRequest
    (hfit : cfg.getResponse h.requestId = INVALID_ID ∨ cfg.statesFit = true)
    (hfind : s.isConnected h.clientID = true ∨ s.removesOwn h.clientID INVALID_ID = true)
    (hi : s.mSessionId = INVALID_SESSION_ID) (hcond : s.requestIsolates cfg h = true) :
    ∃ w, s.handleRequest cfg h [.unblockRequest] = .ok w ∧ Isolates h.clientID s w := by
  unfold requestIsolates at hcond
  have hindex : ¬ (cfg.getResponse h.requestId ≠ INVALID_ID ∧ cfg.statesFit = false) :=
    fun hbad => Bool.false_ne_true (hbad.2.symm.trans (hfit.resolve_left hbad.1))
  rw [handleRequest, if_neg hindex]
  by_cases hd : s.isResponseDangling (cfg.getResponse h.requestId) = true
  · rw [if_pos hd] at hcond ⊢
    exact isolates_sendErrorToClient hfind hcond
  · rw [if_neg hd] at hcond ⊢
    rw [Bool.and_eq_true, List.all_eq_true] at hcond
    have hfresh : NextFresh h s := by
      intro u hu hne
      have hown := hcond.1 u hu
      rw [beq_eq_false_iff_ne.mpr hne, Bool.false_or, Bool.and_eq_true, bne_iff_ne,
        bne_iff_ne] at hown
      exact hown
    unfold processRequest
    cases hm : cfg.requestMethods[h.requestId.toNat]? with
    | none =>
        obtain ⟨f, hf⟩ := acceptRequest_eq h (cfg.getResponse h.requestId) s
        refine ⟨_, rfl, ?_, ?_, ?_⟩
        · rw [hf]
          exact filter_notification h _ _
        · rw [hf]
          rfl
        · rw [hf]
          rfl
    | some m =>
        have hmethod := hcond.2
        rw [hm, Option.all_some] at hmethod
        obtain ⟨w, hw, hisolates⟩ := processMethod_isolates
          hfit hi hfresh hmethod
        refine ⟨w.finishRequest, ?_, hisolates.notifications, hisolates.sessions,
          hisolates.unblocked⟩
        simp only [hw, bind, Except.bind]

/-! ## Notifications that are asked for -/

/-- A subscription adds an entry of the client. -/
theorem isolates_addNotification
    (hcond : h.requestType ≠ .REQUEST_REGISTER_NOTIFY ∨
      (s.findSession h.sequenceNr h.clientID).isSome = true ∨
      s.copiesKeep cfg h.clientID = true) :
    Isolates h.clientID s (s.addNotification cfg h) := by
  have happend : ∀ n : Notification, n.clientID = h.clientID →
      (s.mNotifications ++ [n]).filter (fun n => n.clientID != h.clientID) =
        s.mNotifications.filter (fun n => n.clientID != h.clientID) := by
    intro n hn
    rw [List.filter_append, List.filter_cons_of_neg (by simp [hn]), List.filter_nil,
      List.append_nil]
  unfold addNotification
  split
  · next htype =>
    split
    · exact ⟨happend _ rfl, rfl, rfl⟩
    · next hnone =>
      have hkeep : s.createId.2.copiesKeep cfg h.clientID = true := by
        refine (hcond.resolve_left (not_not.mpr htype)).resolve_left ?_
        rw [hnone]
        exact Bool.false_ne_true
      let sd : SessionData :=
        { sessionId := s.createId.1, clientID := h.clientID, sequenceNr := h.sequenceNr }
      have hsd : sd.clientID = h.clientID := rfl
      have hpush := filter_pushSession hsd hkeep
      obtain ⟨l, k, c, hl⟩ := pushSession_eq cfg sd s.createId.2
      rw [hl] at hpush
      dsimp only
      rw [hl]
      exact ⟨happend _ rfl, hpush, rfl⟩
  · exact ⟨happend _ rfl, rfl, rfl⟩

/-- Which is there behind it. -/
theorem mem_addNotification
    (htype : h.requestType = .REQUEST_NOTIFY ∨ h.requestType = .REQUEST_REGISTER_NOTIFY) :
    ∃ n ∈ (s.addNotification cfg h).mNotifications, n.clientID = h.clientID ∧
      isSet h n = true := by
  unfold addNotification
  rcases htype with htype | htype
  · rw [if_neg (by rw [htype]; decide)]
    refine ⟨_, List.mem_append_right _ (List.mem_singleton_self _), rfl, ?_⟩
    simp [isSet, SPartyID.opEq, htype]
  · rw [if_pos htype]
    split
    · refine ⟨_, List.mem_append_right _ (List.mem_singleton_self _), rfl, ?_⟩
      simp [isSet, SPartyID.opEq, DataRequest.notification]
    · refine ⟨_, List.mem_append_right _ (List.mem_singleton_self _), rfl, ?_⟩
      simp [isSet, SPartyID.opEq, DataRequest.notification]

/-- The state of a known ID is read. -/
theorem getAttributeState_eq {id : UInt32}
    (h : (cfg.NDEBUG || cfg.attributes.contains id || id == UPD_ID_implVersion) = true) :
    s.getAttributeState cfg id = .ok (s.stateOf cfg id) := by
  rw [getAttributeState, stateOf]
  by_cases hid : id ∈ cfg.attributes
  · rw [if_pos hid, if_pos hid]
  · have hknown : id = UPD_ID_implVersion ∨ cfg.NDEBUG = true := by
      rw [List.contains_iff_mem.not.mpr hid |> Bool.eq_false_of_not_eq_true, Bool.or_false,
        Bool.or_eq_true, beq_iff_eq] at h
      exact h.symm
    rw [if_neg hid, if_neg hid, if_pos hknown]

/-- The value of an attribute for clients that are reached is sent, and nothing else. -/
theorem sendAttribute_of_reached
    (hknown : (cfg.NDEBUG || cfg.attributes.contains h.requestId ||
      h.requestId == UPD_ID_implVersion) = true)
    (hok : s.stateOf cfg h.requestId = .DATA_OK → s.reaches (!cfg.NDEBUG) h.clientID = true)
    (hinvalid : s.stateOf cfg h.requestId = .DATA_INVALID → ∀ n ∈ s.mNotifications,
      n.notifyID = h.requestId → s.reaches (!cfg.NDEBUG) n.clientID = true) :
    ∃ ms, s.sendAttribute cfg h = .ok (s.emitAll ms) := by
  have hstate := getAttributeState_eq (s := s) hknown
  cases hst : s.stateOf cfg h.requestId with
  | DATA_NOT_AVAILABLE =>
      rw [hst] at hstate
      refine ⟨[], ?_⟩
      rw [sendAttribute, hstate, emitAll_nil]
      rfl
  | DATA_OK =>
      rw [hst] at hstate
      have hreached := hok hst
      have hfind : s.findClientConnection h.clientID = (s.findConnection h.clientID, s) :=
        findClientConnectionBy_of_connected (isConnected_of_reaches hreached) steady
      rw [sendAttribute, hstate]
      simp only [bind, Except.bind, hfind]
      cases hc : live (s.findConnection h.clientID) with
      | some conn => exact ⟨[_], rfl⟩
      | none =>
          have hndebug : cfg.NDEBUG = true := (isLive_of_reaches hreached).resolve_right
            (by rw [isLive, hc]; exact Bool.false_ne_true)
          refine ⟨[], ?_⟩
          rw [emitAll_nil]
          simp only [assertChannel, hndebug, if_true]
  | DATA_INVALID =>
      rw [hst] at hstate
      have hreached := hinvalid hst
      have hconnected : ∀ n ∈ s.mNotifications, n.notifyID = h.requestId →
          s.isConnected n.clientID = true :=
        fun n hn hid => isConnected_of_reaches (hreached n hn hid)
      obtain ⟨w, hw⟩ : ∃ w, s.sendNotification cfg h.requestId = .ok w :=
        notifyLoop_isOk hconnected (fun n hn hid => isLive_of_reaches (hreached n hn hid)) hstate
      obtain ⟨ms, rfl, -⟩ := sendNotification_of_connected hconnected hw
      refine ⟨ms, ?_⟩
      rw [sendAttribute, hstate]
      exact hw

/-- A notification that is asked for is there, and the entries of the other clients are
what they were. -/
theorem isolates_handleNotify
    (htype : h.requestType = .REQUEST_NOTIFY ∨ h.requestType = .REQUEST_REGISTER_NOTIFY)
    (hcond : s.notifyIsolates cfg h = true) :
    ∃ w, s.handleNotify cfg h = .ok w ∧ Isolates h.clientID s w ∧
      ∃ n ∈ w.mNotifications, n.clientID = h.clientID ∧ isSet h n = true := by
  unfold notifyIsolates at hcond
  rw [Bool.and_eq_true] at hcond
  obtain ⟨hset, hattribute⟩ := hcond
  generalize hv : (if s.mNotifications.any (isSet h) then s else s.addNotification cfg h) = v
  have hadded : Isolates h.clientID s v ∧
      ∃ n ∈ v.mNotifications, n.clientID = h.clientID ∧ isSet h n = true := by
    subst hv
    by_cases hany : s.mNotifications.any (isSet h) = true
    · rw [if_pos hany]
      rw [hany, Bool.not_true, Bool.false_and, Bool.or_false, List.any_eq_true] at hset
      obtain ⟨n, hn, hown⟩ := hset
      rw [Bool.and_eq_true, beq_iff_eq] at hown
      exact ⟨.refl _ s, n, hn, hown.2, hown.1⟩
    · rw [if_neg hany]
      have hnot : s.mNotifications.any (fun n => isSet h n && n.clientID == h.clientID) =
        false := by
        by_contra hbad
        rw [Bool.not_eq_false, List.any_eq_true] at hbad
        obtain ⟨n, hn, hown⟩ := hbad
        rw [Bool.and_eq_true] at hown
        exact hany (List.any_eq_true.mpr ⟨n, hn, hown.1⟩)
      rw [hnot, Bool.false_or, Bool.and_eq_true, Bool.or_eq_true, Bool.or_eq_true,
        bne_iff_ne] at hset
      exact ⟨isolates_addNotification (hset.2.elim (fun h' => h'.elim Or.inl (Or.inr ∘ Or.inl))
        (Or.inr ∘ Or.inr)), mem_addNotification htype⟩
  rw [handleNotify, hv]
  by_cases hid : isAttributeId h.requestId = true
  · rw [if_pos hid]
    rw [hid, Bool.not_true, Bool.false_or, Bool.and_eq_true] at hattribute
    have hframe : v.mClientConnections = s.mClientConnections ∧
        v.attributeState = s.attributeState ∧ ∀ n ∈ v.mNotifications,
          n ∈ s.mNotifications ∨ n.clientID = h.clientID := by
      subst hv
      split
      · exact ⟨rfl, rfl, fun n hn => Or.inl hn⟩
      · obtain ⟨i, nr, l, k, c, n, -, hadd⟩ := addNotification_eq cfg h s
        rw [hadd]
        refine ⟨rfl, rfl, fun m hm => (List.mem_append.mp hm).imp_right (fun hm => ?_)⟩
        rw [List.mem_singleton.mp hm]
    obtain ⟨hconnections, hattributes, hmem⟩ := hframe
    have hreaches : ∀ c, v.reaches (!cfg.NDEBUG) c = s.reaches (!cfg.NDEBUG) c :=
      fun c => reaches_of_findConnection (findConnection_of_connections hconnections c)
    have hstate : v.stateOf cfg h.requestId = s.stateOf cfg h.requestId := by
      rw [stateOf, stateOf, hattributes]
    obtain ⟨ms, hms⟩ := sendAttribute_of_reached (s := v) hattribute.1
      (fun hok => by
        have hreached := hattribute.2
        rw [← hstate, hok] at hreached
        exact (hreaches _).trans hreached)
      (fun hinvalid n hn hnotify => by
        have hreached := hattribute.2
        rw [← hstate, hinvalid] at hreached
        dsimp only at hreached
        rw [Bool.and_eq_true, List.all_eq_true] at hreached
        rw [hreaches]
        rcases hmem n hn with hold | hown
        · have hother := hreached.2 n hold
          rw [bne_eq_false_iff_eq.mpr hnotify, Bool.false_or] at hother
          exact hother
        · rw [hown]
          exact hreached.1)
    exact ⟨v.emitAll ms, hms, hadded.1.trans ⟨rfl, rfl, rfl⟩, hadded.2⟩
  · rw [if_neg hid]
    exact ⟨v, rfl, hadded⟩

end Request

/-! ## Steps -/

/-- A data request leaves the entries of the other clients alone. -/
theorem isolates_dispatchRequest {h : DataRequest} {user : List UserCall}
    (hfit : h.requestType = .REQUEST → cfg.getResponse h.requestId = INVALID_ID ∨
      cfg.statesFit = true)
    (hfind : s.isConnected h.clientID = true ∨ s.removesOwn h.clientID INVALID_ID = true)
    (hi : s.mSessionId = INVALID_SESSION_ID)
    (huser : h.requestType = .REQUEST → user = [.unblockRequest])
    (hcond : s.dispatchIsolates cfg h = true) :
    ∃ w, s.dispatchRequest cfg h user = .ok w ∧ Isolates h.clientID s w ∧
      ((h.requestType = .REQUEST_NOTIFY ∨ h.requestType = .REQUEST_REGISTER_NOTIFY) →
        ∃ n ∈ w.mNotifications, n.clientID = h.clientID ∧ isSet h n = true) := by
  unfold dispatchIsolates at hcond
  unfold dispatchRequest
  cases ht : h.requestType with
  | REQUEST =>
      rw [ht] at hcond
      obtain ⟨w, hw, hisolates⟩ := isolates_handleRequest (hfit ht) hfind hi hcond
      rw [huser ht]
      exact ⟨w, hw, hisolates, by simp⟩
  | REQUEST_NOTIFY =>
      rw [ht] at hcond
      obtain ⟨w, hw, hisolates, hadded⟩ := isolates_handleNotify (Or.inl ht) hcond
      exact ⟨w, hw, hisolates, fun _ => hadded⟩
  | REQUEST_REGISTER_NOTIFY =>
      rw [ht] at hcond
      obtain ⟨w, hw, hisolates, hadded⟩ := isolates_handleNotify (Or.inr ht) hcond
      exact ⟨w, hw, hisolates, fun _ => hadded⟩
  | REQUEST_STOP_NOTIFY =>
      rw [ht] at hcond
      exact ⟨_, rfl, isolates_removeNotification hcond, by simp⟩
  | REQUEST_STOP_REGISTER_NOTIFY =>
      rw [ht] at hcond
      exact ⟨_, rfl, isolates_removeNotification hcond, by simp⟩
  | REQUEST_STOP_ALL_NOTIFY =>
      rw [ht] at hcond
      exact ⟨_, rfl, isolates_removeNotification hcond, by simp⟩
  | REQUEST_STOP_ALL_REGISTER_NOTIFY =>
      rw [ht] at hcond
      refine ⟨_, rfl, ?_, by simp⟩
      unfold handleStopSession
      cases hpos : s.findSession h.sequenceNr h.clientID with
      | none => exact .refl _ s
      | some pos =>
          dsimp only at hcond
          rw [hpos, Option.all_some] at hcond
          exact isolates_removeSessionNotifications hcond
  | REQUEST_LOAD_COMPONENT => exact ⟨_, rfl, .refl _ s, by simp⟩

/-- Without calls in the callbacks `removeAllSessions` takes the sessions of the client
away. -/
theorem removeAllLoop_quiet (cfg : Config) (clientID : SPartyID) (sessions : List SessionData)
    (s : CServer) :
    ∃ nr os, removeAllLoop cfg clientID sessions [] s =
      .ok (sessions.filter (fun sd => !SPartyID.opEq sd.clientID clientID),
        { s with mCurrentSequenceNr := nr, log := s.log ++ os }) := by
  induction sessions generalizing s with
  | nil => exact ⟨s.mCurrentSequenceNr, [], by rw [List.append_nil]; rfl⟩
  | cons sd sessions ih =>
      rw [removeAllLoop]
      by_cases heq : SPartyID.opEq sd.clientID clientID = true
      · rw [if_pos heq, List.filter_cons_of_neg (by simp [heq])]
        cases sd.callback cfg with
        | none => exact ih { s with mCurrentSequenceNr := INVALID_SEQUENCE_NR }
        | some o =>
            obtain ⟨nr, os, hos⟩ := ih
              { s.emit o with mCurrentSequenceNr := INVALID_SEQUENCE_NR }
            refine ⟨nr, o :: os, ?_⟩
            have hlog : (s.emit o).log ++ os = s.log ++ o :: os := by
              rw [emit, List.append_assoc, List.singleton_append]
            rw [← hlog]
            exact hos
      · obtain ⟨nr, os, hos⟩ := ih s
        refine ⟨nr, os, ?_⟩
        rw [if_neg heq, hos, List.filter_cons_of_pos (by simp [heq])]
        rfl

/-- Without callbacks that call back, the sessions of the client go. -/
theorem removeAllSessions_quiet (cfg : Config) (clientID : SPartyID) (s : CServer) :
    ∃ nr os, s.removeAllSessions cfg clientID [] = .ok { s with
      mSessions := s.mSessions.filter (fun sd => !SPartyID.opEq sd.clientID clientID)
      mClientID := ⟨0, 0⟩
      mCurrentSequenceNr := nr
      log := s.log ++ os } := by
  obtain ⟨nr, os, hloop⟩ := removeAllLoop_quiet cfg clientID s.mSessions
    { s with mClientID := clientID }
  refine ⟨nr, os, ?_⟩
  rw [removeAllSessions, hloop]
  rfl

/-- And its entries with them. -/
theorem dropClient_quiet (cfg : Config) (clientID : SPartyID) (s : CServer) :
    ∃ w, s.dropClient cfg clientID [] = .ok w ∧
      w.mNotifications = (s.removeNotification clientID INVALID_ID).mNotifications ∧
      w.mSessions = s.mSessions.filter (fun sd => !SPartyID.opEq sd.clientID clientID) ∧
      w.mUnblockedSessions =
        s.mUnblockedSessions.filter (fun u => !SPartyID.opEq u.2.clientID clientID) := by
  obtain ⟨nr, os, hgone⟩ := removeAllSessions_quiet cfg clientID
    (s.removeNotification clientID INVALID_ID)
  rw [dropClient, hgone]
  exact ⟨_, rfl, rfl, rfl, rfl⟩

/-- A client that goes takes only its own entries and sessions along, if no one has its local ID. -/
theorem isolates_dropClient (cfg : Config) (hcond : s.dropsOwn a = true) :
    ∃ w, s.dropClient cfg a [] = .ok w ∧ Isolates a s w := by
  rw [dropsOwn, Bool.and_eq_true, Bool.and_eq_true, List.all_eq_true, List.all_eq_true] at hcond
  obtain ⟨⟨hremoves, hsessions⟩, hunblocked⟩ := hcond
  have hnotifications := (isolates_removeNotification hremoves).notifications
  obtain ⟨w, hw, hn, hsd, hu⟩ := dropClient_quiet cfg a s
  refine ⟨w, hw, ?_, ?_, ?_⟩
  · rw [hn]
    exact hnotifications
  · rw [hsd]
    refine filter_filter_of_imp (fun sd hsd hq => ?_)
    have hown := hsessions sd hsd
    rw [bne_iff_ne] at hq
    rw [beq_eq_false_iff_ne.mpr hq, Bool.or_false] at hown
    exact hown
  · rw [hu]
    refine filter_filter_of_imp (fun u hu hq => ?_)
    have hown := hunblocked u hu
    rw [bne_iff_ne] at hq
    rw [beq_eq_false_iff_ne.mpr hq, Bool.or_false] at hown
    exact hown

/-- A step that meets the condition and does something on behalf of a client does
nothing to another one. -/
theorem isolated_step {e : Event} (hi : s.mSessionId = INVALID_SESSION_ID)
    (hcond : s.stepIsolates cfg e = true) : Isolated cfg s e := by
  intro a ha
  unfold stepIsolates at hcond
  rw [ha, Option.isNone_some, Bool.false_or] at hcond
  cases e with
  | dataRequest h user =>
      unfold behalf at ha
      dsimp only at ha
      split at ha
      · next huser =>
        obtain rfl := Option.some.inj ha
        dsimp only at hcond
        rw [Bool.and_eq_true, Bool.or_eq_true, Bool.or_eq_true, bne_iff_ne] at hcond
        obtain ⟨hfind, hdispatch⟩ := hcond
        have hisolates := isolates_findClientConnection hfind
        rw [step, handleDataRequest, fst_findClientConnection]
        by_cases hv : protoMinorOf (s.findConnection h.clientID) ≠ h.protoMinor
        · rw [if_pos hv]
          exact Or.inl ⟨_, rfl, hisolates, fun _ heq => absurd heq hv⟩
        · rw [if_neg hv]
          by_cases hindex : h.requestType = .REQUEST ∧
              cfg.getResponse h.requestId ≠ INVALID_ID ∧ cfg.statesFit = false
          · obtain ⟨htype, hbad⟩ := hindex
            rw [dispatchRequest, htype]
            exact Or.inr ⟨hbad.2, if_pos hbad⟩
          have hfit : h.requestType = .REQUEST → cfg.getResponse h.requestId = INVALID_ID ∨
              cfg.statesFit = true := by
            simpa [or_iff_not_imp_left] using hindex
          have hsessionId : (s.findClientConnection h.clientID).2.mSessionId =
              INVALID_SESSION_ID :=
            (shrinks_findClientConnectionBy steady h.clientID s).sessionId.trans hi
          obtain ⟨w, hw, hdone, hadded⟩ := isolates_dispatchRequest hfit
            (findsOwn_findClientConnection hfind) hsessionId
            (fun htype => huser.resolve_left (not_not.mpr htype)) (hdispatch.resolve_left hv)
          exact Or.inl ⟨w, hw, hisolates.trans hdone, fun htype _ => hadded htype⟩
      · exact absurd ha (by simp)
  | disconnect clientID user =>
      unfold behalf at ha
      dsimp only at ha
      split at ha
      · next huser =>
        obtain rfl := Option.some.inj ha
        subst huser
        rw [step, handleDisconnectRequest]
        dsimp only at hcond
        rw [isConnected] at hcond
        cases hc : s.findConnection clientID with
        | none => exact Or.inl ⟨s, rfl, .refl _ s, trivial⟩
        | some conn =>
            rw [hc, Option.isSome_some, Bool.not_true, Bool.false_or] at hcond
            dsimp only
            rw [clientID_of_findConnection hc]
            split
            · obtain ⟨w, hw, hisolates⟩ := isolates_dropClient cfg
                (s := s.emit (.clearNotification conn.notificationID)) hcond
              exact Or.inl ⟨w, hw, ⟨hisolates.notifications, hisolates.sessions,
                hisolates.unblocked⟩, trivial⟩
            · obtain ⟨w, hw, hisolates⟩ := isolates_dropClient cfg hcond
              exact Or.inl ⟨w, hw, hisolates, trivial⟩
      · exact absurd ha (by simp)
  | detached id user =>
      unfold behalf at ha
      dsimp only at ha
      split at ha
      · next huser =>
        subst huser
        obtain ⟨conn, hc, rfl⟩ := Option.map_eq_some_iff.mp ha
        rw [step, handleClientDetached, hc]
        dsimp only at hcond
        rw [hc, Option.all_some] at hcond
        obtain ⟨w, hw, hisolates⟩ := isolates_dropClient cfg hcond
        exact Or.inl ⟨w, hw, hisolates, trivial⟩
      · exact absurd ha (by simp)
  | connect q => exact absurd ha (by simp [behalf])
  | user user => exact absurd ha (by simp [behalf])
  | channelClosed channel => exact absurd ha (by simp [behalf])
  | unregisterInterface => exact absurd ha (by simp [behalf])
  | createId => exact absurd ha (by simp [behalf])

/-! ## Runs -/

/-- Behind a request no session is current. -/
theorem sessionId_processRequest {h : DataRequest} {user : List UserCall}
    (hi : s.mSessionId = INVALID_SESSION_ID) (hs : s.processRequest cfg h user = .ok s') :
    s'.mSessionId = INVALID_SESSION_ID := by
  unfold processRequest at hs
  split at hs
  · exact Except.ok.inj hs ▸ hi
  · next m _ =>
    unfold processMethod at hs
    cases hk : m.kind with
    | request =>
        rw [hk] at hs
        dsimp only at hs
        rw [readAndCall] at hs
        split at hs
        · exact (talks_calls hs).sessionId.trans hi
        · exact Except.ok.inj hs ▸ hi
    | register =>
        rw [hk] at hs
        obtain ⟨t, _, hs⟩ := Partial.bind_eq_ok hs
        obtain ⟨u, _, hs⟩ := Partial.bind_eq_ok hs
        rw [← Except.ok.inj hs]
        rfl
    | unregister =>
        rw [hk] at hs
        obtain ⟨t, _, hs⟩ := Partial.bind_eq_ok hs
        rw [← Except.ok.inj hs]
        rfl

/-- So it is behind a data request. -/
theorem sessionId_dispatchRequest {h : DataRequest} {user : List UserCall}
    (hi : s.mSessionId = INVALID_SESSION_ID) (hs : s.dispatchRequest cfg h user = .ok s') :
    s'.mSessionId = INVALID_SESSION_ID := by
  have hnotify : s.handleNotify cfg h = .ok s' → s'.mSessionId = INVALID_SESSION_ID := by
    intro hs
    generalize hv : (if s.mNotifications.any (isSet h) then s else s.addNotification cfg h) = v
    have hadded : v.mSessionId = s.mSessionId := by
      subst hv
      split
      · rfl
      · obtain ⟨i, nr, l, k, c, n, -, hadd⟩ := addNotification_eq cfg h s
        rw [hadd]
    rw [handleNotify, hv] at hs
    split at hs
    · exact (shrinks_sendAttribute hs).sessionId.trans (hadded.trans hi)
    · exact Except.ok.inj hs ▸ hadded.trans hi
  unfold dispatchRequest at hs
  split at hs
  · rcases handleRequest_cases hs with ⟨-, hs⟩ | ⟨-, t, ht, rfl⟩
    · exact (shrinks_sendErrorToClient hs).sessionId.trans hi
    · have hleft : t.mSessionId = INVALID_SESSION_ID :=
        sessionId_processRequest ((acceptRequest_frame h _ s).2.2.2.trans hi) ht
      exact hleft
  · exact hnotify hs
  · exact hnotify hs
  · exact Except.ok.inj hs ▸ hi
  · exact Except.ok.inj hs ▸ hi
  · exact Except.ok.inj hs ▸ hi
  · rw [← Except.ok.inj hs, handleStopSession]
    split <;> exact hi
  · exact Except.ok.inj hs ▸ hi

/-- And behind a client that goes. -/
theorem sessionId_dropClient {c : SPartyID} {user : List (List UserCall)}
    (hi : s.mSessionId = INVALID_SESSION_ID) (hs : s.dropClient cfg c user = .ok s') :
    s'.mSessionId = INVALID_SESSION_ID := by
  obtain ⟨t, ht, hs⟩ := Partial.bind_eq_ok hs
  obtain ⟨r, hr, ht⟩ := Partial.bind_eq_ok ht
  rw [← Except.ok.inj hs, ← Except.ok.inj ht]
  exact removeAllLoop_preserves (I := fun u => u.mSessionId = INVALID_SESSION_ID)
    (s := { s.removeNotification c INVALID_ID with mClientID := c })
    (fun _ _ _ _ _ _ hu hcalls => (talks_calls hcalls).sessionId.trans hu) (fun _ hu => hu) hi hr

/-- Between the steps no session is entered. -/
theorem sessionId_step {e : Event} (hi : s.mSessionId = INVALID_SESSION_ID)
    (hs : step cfg s e = .ok s') : s'.mSessionId = INVALID_SESSION_ID := by
  cases e with
  | connect q =>
      obtain ⟨l, n, -, hl⟩ := handleConnectRequest_eq cfg q s
      rw [← Except.ok.inj hs, hl]
      exact hi
  | disconnect c user =>
      rw [step, handleDisconnectRequest] at hs
      split at hs
      · exact Except.ok.inj hs ▸ hi
      · next conn _ =>
        refine sessionId_dropClient (s := if conn.notificationID ≠ 0 then
          s.emit (.clearNotification conn.notificationID) else s) ?_ hs
        split <;> exact hi
  | detached id user =>
      rw [step, handleClientDetached] at hs
      split at hs
      · exact Except.ok.inj hs ▸ hi
      · exact sessionId_dropClient hi hs
  | dataRequest h user =>
      have hfind := (shrinks_findClientConnectionBy steady h.clientID s).sessionId.trans hi
      rw [step, handleDataRequest] at hs
      split at hs
      · exact Except.ok.inj hs ▸ hfind
      · exact sessionId_dispatchRequest hfind hs
  | user user => exact (talks_calls hs).sessionId.trans hi
  | channelClosed channel => exact Except.ok.inj hs ▸ hi
  | unregisterInterface =>
      obtain ⟨l, os, hl⟩ := cleanup_eq s.mClientConnections s
      rw [← Except.ok.inj hs, unregisterInterface, hl]
      exact hi
  | createId => exact Except.ok.inj hs ▸ hi

/-- In every run whose steps meet the condition no step on behalf of a client changes
an entry of another one, and no client lacks what it asked for. -/
theorem isolated_of_along {es : List Event}
    (ha : Partial.Along (step cfg) (fun s e => s.stepIsolates cfg e = true) init es) :
    Partial.Along (step cfg) (Isolated cfg) init es :=
  Partial.along_of_invariant (I := fun s => s.mSessionId = INVALID_SESSION_ID)
    (fun _ _ _ hi _ hs => sessionId_step hi hs) (fun _ _ hi hcond => isolated_step hi hcond)
    rfl ha

/-- Two clients subscribe, one is unblocked, and the other stops and goes. -/
def clientsComeAndGo : List Event :=
  [connects ⟨1, 0⟩ 1, connects ⟨2, 0⟩ 2, asks ⟨1, 0⟩ .REQUEST_NOTIFY 0xC0000001 0 [],
    asks ⟨2, 0⟩ .REQUEST_NOTIFY 0xC0000001 0 [], asks ⟨2, 0⟩ .REQUEST 0 7 [.unblockRequest],
    asks ⟨1, 0⟩ .REQUEST_STOP_NOTIFY 0xC0000001 0 [], .disconnect ⟨1, 0⟩ []]

theorem isolated_clientsComeAndGo :
    Partial.Along (step (exampleConfig false)) (Isolated (exampleConfig false)) init
      clientsComeAndGo :=
  isolated_of_along (by decide +kernel)

/-- Two clients of different brokers have the same local ID, and one of them subscribes. -/
def sameLocalID : List Event :=
  [connects ⟨1, 1⟩ 1, connects ⟨1, 2⟩ 2, asks ⟨1, 1⟩ .REQUEST_NOTIFY 0xC0000001 0 []]

/-- One client registers for a response, and then another one subscribes. -/
def registersAndSubscribes : List Event :=
  [connects ⟨1, 0⟩ 1, connects ⟨2, 0⟩ 2, asks ⟨1, 0⟩ .REQUEST_REGISTER_NOTIFY 0x80000001 7 [],
    asks ⟨2, 0⟩ .REQUEST_NOTIFY 0xC0000001 0 []]

/-- The entry of the first client is taken for one of the second, and goes when the second
one does; and where the first client unregisters, the entry of the second is doubled. -/
theorem not_isolated_sameLocalID :
    (∃ s, run (exampleConfig false) init sameLocalID = .ok s ∧
      ¬ Isolated (exampleConfig false) s (asks ⟨1, 2⟩ .REQUEST_NOTIFY 0xC0000001 0 []) ∧
      ¬ Isolated (exampleConfig false) s (.disconnect ⟨1, 2⟩ [])) ∧
    ∃ s, run (exampleConfig false) init registersAndSubscribes = .ok s ∧
      ¬ Isolated (exampleConfig false) s
        (asks ⟨1, 0⟩ .REQUEST_STOP_ALL_REGISTER_NOTIFY 0x80000001 7 []) := by
  obtain ⟨s, hs, hv, hasked, hgone⟩ : ∃ s, run (exampleConfig false) init sameLocalID = .ok s ∧
      protoMinorOf (s.findConnection ⟨1, 2⟩) = 0 ∧
      (¬ ∃ s', step (exampleConfig false) s (asks ⟨1, 2⟩ .REQUEST_NOTIFY 0xC0000001 0 []) =
          .ok s' ∧ ∃ n ∈ s'.mNotifications, n.clientID = ⟨1, 2⟩) ∧
      ¬ ∃ s', step (exampleConfig false) s (.disconnect ⟨1, 2⟩ []) = .ok s' ∧
        s'.mNotifications.filter (fun n => n.clientID != ⟨1, 2⟩) =
          s.mNotifications.filter (fun n => n.clientID != ⟨1, 2⟩) := by decide +kernel
  obtain ⟨t, ht, hdoubled⟩ : ∃ s, run (exampleConfig false) init registersAndSubscribes = .ok s ∧
      ¬ ∃ s', step (exampleConfig false) s
          (asks ⟨1, 0⟩ .REQUEST_STOP_ALL_REGISTER_NOTIFY 0x80000001 7 []) = .ok s' ∧
        s'.mNotifications.filter (fun n => n.clientID != ⟨1, 0⟩) =
          s.mNotifications.filter (fun n => n.clientID != ⟨1, 0⟩) := by decide +kernel
  have hfit {p : Prop} : ¬ ((exampleConfig false).statesFit = false ∧ p) :=
    fun hbad => Bool.false_ne_true hbad.1.symm
  refine ⟨⟨s, hs, fun h => hasked ?_, fun h => hgone ?_⟩, t, ht, fun h => hdoubled ?_⟩
  · obtain ⟨s', hs', -, hadded⟩ := (h ⟨1, 2⟩ rfl).resolve_right hfit
    obtain ⟨n, hn, hown, -⟩ := hadded (Or.inl rfl) hv
    exact ⟨s', hs', n, hn, hown⟩
  · obtain ⟨s', hs', hisolates, -⟩ := (h ⟨1, 2⟩ rfl).resolve_right hfit
    exact ⟨s', hs', hisolates.notifications⟩
  · obtain ⟨s', hs', hisolates, -⟩ := (h ⟨1, 0⟩ rfl).resolve_right hfit
    exact ⟨s', hs', hisolates.notifications⟩

end CServer

end Dsi
