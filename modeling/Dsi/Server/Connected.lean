import Dsi.Server.Effects

/-!
# Dsi.Server.Connected

The clients that a server holds something of.  What an operation leaves in the
notifications and the unblocked sessions was there before, except for the entry
that a request brings; so the clients of all entries are connected as long as no
client without a connection brings one, and no connection goes without its
entries.
-/

namespace Dsi

namespace CServer

open Sequence

/-! ## What is held -/

/-- The notifications and those in unblocked sessions. -/
def held (s : CServer) : List Notification :=
  s.mNotifications ++ s.mUnblockedSessions.map (·.2)

/-- An entry is held as long as it is listed or unblocked. -/
theorem mem_held {s : CServer} {n : Notification} :
    n ∈ s.held ↔ n ∈ s.mNotifications ∨ ∃ u ∈ s.mUnblockedSessions, u.2 = n := by
  rw [held, List.mem_append, List.mem_map]

/-- The step from `s` to `s'` sends, and takes notifications away. -/
structure Shrinks (s s' : CServer) : Prop where
  notifications : s'.mNotifications.Sublist s.mNotifications
  connections : s'.mClientConnections = s.mClientConnections
  unblocked : s'.mUnblockedSessions = s.mUnblockedSessions
  sessions : s'.mSessions = s.mSessions
  capacity : s'.mSessionsCapacity = s.mSessionsCapacity
  active : s'.mActiveSessions = s.mActiveSessions
  sessionId : s'.mSessionId = s.mSessionId
  clientID : s'.mClientID = s.mClientID
  sequenceNr : s'.mCurrentSequenceNr = s.mCurrentSequenceNr
  nextID : s'.nextID = s.nextID
  copies : s'.copies = s.copies
  responseId : s'.mResponseId = s.mResponseId ∨ s'.mResponseId = INVALID_ID
  log : ∃ ms : List Message, s'.log = s.log ++ ms.map .message

namespace Shrinks

theorem refl (s : CServer) : Shrinks s s :=
  ⟨List.Sublist.refl _, rfl, rfl, rfl, rfl, rfl, rfl, rfl, rfl, rfl, rfl, Or.inl rfl,
    [], (List.append_nil _).symm⟩

theorem trans {s t u : CServer} (h : Shrinks s t) (h' : Shrinks t u) : Shrinks s u where
  notifications := h'.notifications.trans h.notifications
  connections := h'.connections.trans h.connections
  unblocked := h'.unblocked.trans h.unblocked
  sessions := h'.sessions.trans h.sessions
  capacity := h'.capacity.trans h.capacity
  active := h'.active.trans h.active
  sessionId := h'.sessionId.trans h.sessionId
  clientID := h'.clientID.trans h.clientID
  sequenceNr := h'.sequenceNr.trans h.sequenceNr
  nextID := h'.nextID.trans h.nextID
  copies := h'.copies.trans h.copies
  responseId := by
    rcases h'.responseId with heq | heq
    · rw [heq]
      exact h.responseId
    · exact Or.inr heq
  log := by
    obtain ⟨ms, hms⟩ := h.log
    obtain ⟨ms', hms'⟩ := h'.log
    exact ⟨ms ++ ms', by rw [hms', hms, List.map_append, List.append_assoc]⟩

/-- A server that loses entries shrinks. -/
theorem of_sublist {l : List Notification} {s : CServer} (h : l.Sublist s.mNotifications) :
    Shrinks s { s with mNotifications := l } :=
  ⟨h, rfl, rfl, rfl, rfl, rfl, rfl, rfl, rfl, rfl, rfl, Or.inl rfl,
    [], (List.append_nil _).symm⟩

/-- A message shrinks nothing. -/
theorem message (m : Message) (s : CServer) : Shrinks s (s.emit (.message m)) :=
  ⟨List.Sublist.refl _, rfl, rfl, rfl, rfl, rfl, rfl, rfl, rfl, rfl, rfl, Or.inl rfl, [m], rfl⟩

/-- The states of responses and attributes are no entries. -/
theorem states (f : UInt32 → Bool) (g : UInt32 → DataStateType) (s : CServer) :
    Shrinks s { s with mResponseStateMap := f, attributeState := g } :=
  ⟨List.Sublist.refl _, rfl, rfl, rfl, rfl, rfl, rfl, rfl, rfl, rfl, rfl, Or.inl rfl,
    [], (List.append_nil _).symm⟩

/-- Nor is the current response. -/
theorem noResponse (s : CServer) : Shrinks s { s with mResponseId := INVALID_ID } :=
  ⟨List.Sublist.refl _, rfl, rfl, rfl, rfl, rfl, rfl, rfl, rfl, rfl, rfl, Or.inr rfl,
    [], (List.append_nil _).symm⟩

end Shrinks

/-- The step from `s` to `s'` keeps the connections and brings no entry. -/
structure Moves (s s' : CServer) : Prop where
  connections : s'.mClientConnections = s.mClientConnections
  held : ∀ n ∈ s'.held, n ∈ s.held

namespace Moves

theorem refl (s : CServer) : Moves s s := ⟨rfl, fun _ h => h⟩

theorem trans {s t u : CServer} (h : Moves s t) (h' : Moves t u) : Moves s u :=
  ⟨h'.connections.trans h.connections, fun n hn => h.held n (h'.held n hn)⟩

/-- A step that only takes notifications away. -/
theorem of_subset {s s' : CServer} (hc : s'.mClientConnections = s.mClientConnections)
    (hu : s'.mUnblockedSessions = s.mUnblockedSessions)
    (hn : ∀ n ∈ s'.mNotifications, n ∈ s.mNotifications) : Moves s s' := by
  refine ⟨hc, fun n h => ?_⟩
  rw [mem_held] at h ⊢
  rw [hu] at h
  exact h.imp_left (hn n)

/-- A step that leaves the entries as they are. -/
theorem of_eq {s s' : CServer} (hc : s'.mClientConnections = s.mClientConnections)
    (hu : s'.mUnblockedSessions = s.mUnblockedSessions)
    (hn : s'.mNotifications = s.mNotifications) : Moves s s' :=
  of_subset hc hu (fun _ h => hn ▸ h)

/-- A server that shrinks moves nothing else. -/
theorem of_shrinks {s s' : CServer} (h : Shrinks s s') : Moves s s' :=
  .of_subset h.connections h.unblocked (fun _ hn => h.notifications.subset hn)

/-- The connections stay. -/
theorem isConnected {s s' : CServer} (h : Moves s s') (c : SPartyID) :
    s'.isConnected c = s.isConnected c := by
  rw [CServer.isConnected, CServer.isConnected, findConnection, findConnection, h.connections]

/-- So do their channels. -/
theorem isLive {s s' : CServer} (h : Moves s s') (c : SPartyID) : s'.isLive c = s.isLive c := by
  rw [CServer.isLive, CServer.isLive, findConnection, findConnection, h.connections]

end Moves

/-! ## What one operation may do -/

/-- Entries are removed, whatever the reference reads. -/
theorem shrinks_removeNotificationBy (reread : SPartyID → List Notification → SPartyID)
    (c : SPartyID) (id : UInt32) (s : CServer) : Shrinks s (s.removeNotificationBy reread c id) :=
  .of_sublist (eraseDown_sublist _ _ _ _ _)

/-- A client that is not found loses entries, and nothing else happens. -/
theorem shrinks_findClientConnectionBy (reread : SPartyID → List Notification → SPartyID)
    (c : SPartyID) (s : CServer) : Shrinks s (s.findClientConnectionBy reread c).2 := by
  rw [findClientConnectionBy]
  cases s.findConnection c with
  | some conn => exact .refl s
  | none => exact shrinks_removeNotificationBy reread c INVALID_ID s

/-- The entries of a session go. -/
theorem moves_removeSessionNotifications (sessionId : Int32) (s : CServer) :
    Moves s (s.removeSessionNotifications sessionId) :=
  .of_subset rfl rfl (fun _ h => mem_of_mem_removeIfShift h)

/-- An entry is sent its value or is lost with its client. -/
theorem shrinks_notifyOne {cfg : Config} {id : UInt32} {idx : Nat} {n : Notification}
    {s s' : CServer} (h : s.notifyOne cfg id idx n = .ok s') : Shrinks s s' := by
  have hfind := shrinks_findClientConnectionBy (aliased (·.clientID) idx) n.clientID s
  rw [notifyOne, findClientConnectionAt] at h
  dsimp only at h
  split at h
  · obtain ⟨_, _, h⟩ := Partial.bind_eq_ok h
    rw [← Except.ok.inj h]
    exact hfind.trans (.message _ _)
  · obtain ⟨_, _, h⟩ := Partial.bind_eq_ok h
    rw [← Except.ok.inj h]
    exact hfind

/-- So is every entry that the loop meets. -/
theorem shrinks_notifyLoop {cfg : Config} {id : UInt32} {rounds idx : Nat} {s s' : CServer}
    (h : notifyLoop cfg id rounds idx s = .ok s') : Shrinks s s' := by
  induction rounds generalizing idx s with
  | zero => exact Except.ok.inj h ▸ .refl s
  | succ rounds ih =>
      rw [notifyLoop] at h
      split at h
      · exact Except.ok.inj h ▸ .refl s
      · split at h
        · obtain ⟨t, ht, hrest⟩ := Partial.bind_eq_ok h
          exact (shrinks_notifyOne ht).trans (ih hrest)
        · exact ih h

theorem shrinks_sendNotification {cfg : Config} {id : UInt32} {s s' : CServer}
    (h : s.sendNotification cfg id = .ok s') : Shrinks s s' := shrinks_notifyLoop h

namespace ResponseLoop

/-- An entry for a response is answered, kept or lost with its client. -/
theorem shrinks_one {l : ResponseLoop} {cfg : Config} {idx : Nat} {n : Notification}
    {s s' : CServer} (h : l.one cfg idx n s = .ok s') : Shrinks s s' := by
  have hfind := shrinks_findClientConnectionBy (aliased (·.clientID) idx) n.clientID s
  rw [one, findClientConnectionAt] at h
  dsimp only at h
  split at h
  · split at h
    · rw [← Except.ok.inj h]
      exact hfind.trans ((Shrinks.message _ _).trans (.of_sublist (List.eraseIdx_sublist _ idx)))
    · rw [← Except.ok.inj h]
      exact hfind.trans (.message _ _)
  · split at h
    · obtain ⟨_, _, h⟩ := Partial.bind_eq_ok h
      exact Except.ok.inj h ▸ hfind
    · exact Except.ok.inj h ▸ hfind

/-- So is every entry that the loop of a response meets. -/
theorem shrinks_loop {l : ResponseLoop} {cfg : Config} {idx : Nat} {s s' : CServer}
    (h : l.loop cfg idx s = .ok s') : Shrinks s s' := by
  induction idx generalizing s with
  | zero => exact Except.ok.inj h ▸ .refl s
  | succ idx ih =>
      rw [loop] at h
      split at h
      · exact absurd h (by simp)
      · split at h
        · obtain ⟨t, ht, hrest⟩ := Partial.bind_eq_ok h
          exact (shrinks_one ht).trans (ih hrest)
        · exact ih h

/-- So is every entry of a response. -/
theorem shrinks_run {l : ResponseLoop} {cfg : Config} {s s' : CServer}
    (h : l.run cfg s = .ok s') : Shrinks s s' := by
  obtain ⟨t, ht, h⟩ := Partial.bind_eq_ok h
  rw [← Except.ok.inj h]
  refine (shrinks_loop ht).trans ?_
  split
  · exact .noResponse t
  · exact .refl t

end ResponseLoop

theorem shrinks_setResponseState (id : UInt32) (value : Bool) (s : CServer) :
    Shrinks s (s.setResponseState id value) := .states _ _ s

/-- The generated response method answers and clears the state. -/
theorem shrinks_responseMethod {cfg : Config} {id : UInt32} {s s' : CServer}
    (h : s.responseMethod cfg id = .ok s') : Shrinks s s' :=
  (shrinks_setResponseState id false s).trans (ResponseLoop.shrinks_run (Partial.guard_eq_ok h).2)

/-- An error is sent to the entries and the state is cleared. -/
theorem shrinks_sendError {cfg : Config} {id : UInt32} {s s' : CServer}
    (h : s.sendError cfg id = .ok s') : Shrinks s s' := by
  rw [sendError] at h
  split at h
  · obtain ⟨state, _, h⟩ := Partial.bind_eq_ok h
    split at h
    · exact (Shrinks.states _ _ s).trans (shrinks_sendNotification h)
    · exact Except.ok.inj h ▸ .refl s
  · dsimp only at h
    split at h
    · exact (shrinks_setResponseState _ false s).trans
        (ResponseLoop.shrinks_run (Partial.guard_eq_ok h).2)
    · exact Except.ok.inj h ▸ .refl s

/-- An error to one client takes its entry at most. -/
theorem shrinks_sendErrorToClient {cfg : Config} {c : SPartyID} {id : UInt32} {type : ResultType}
    {seqNr : Int32} {s s' : CServer} (h : s.sendErrorToClient cfg c id type seqNr = .ok s') :
    Shrinks s s' := by
  have hfind := shrinks_findClientConnectionBy steady c s
  rw [sendErrorToClient, findClientConnection] at h
  split at h
  · rw [← Except.ok.inj h]
    exact hfind.trans (.message _ _)
  · obtain ⟨_, _, h⟩ := Partial.bind_eq_ok h
    exact Except.ok.inj h ▸ hfind

/-- The entry that is taken is the one of the request being handled. -/
theorem moves_takeCurrent (s : CServer) : Moves s s.takeCurrent.2 := by
  rw [takeCurrent]
  split
  · exact .refl s
  · next idx _ =>
    split
    · exact .refl s
    · next n hn =>
      refine ⟨rfl, fun m hm => ?_⟩
      rw [mem_held] at hm ⊢
      rcases hm with hm | ⟨u, hu, rfl⟩
      · exact Or.inl ((List.eraseIdx_sublist _ idx).subset hm)
      · rw [List.mem_append, List.mem_singleton] at hu
        rcases hu with hu | rfl
        · exact Or.inr ⟨u, (List.mem_filter.mp hu).1, rfl⟩
        · exact Or.inl (List.mem_of_getElem? hn)

/-- `unblockRequest` has nothing to unblock, or takes the current request away and lets its
response be free. -/
theorem unblockRequest_cases {cfg : Config} {s : CServer} {r : Int32 × CServer}
    (h : s.unblockRequest cfg = .ok r) :
    r = (INVALID_SESSION_ID, s) ∨ s.mResponseId ≠ INVALID_ID ∧
      r = (s.takeCurrent.1, { s.takeCurrent.2.setResponseState s.mResponseId false with
        mResponseId := INVALID_ID, mCurrentSequenceNr := INVALID_SEQUENCE_NR }) := by
  rw [unblockRequest] at h
  split at h
  · cases h
  · split at h
    · exact Or.inl (Except.ok.inj h).symm
    · next hid => exact Or.inr ⟨hid, (Except.ok.inj (Partial.guard_eq_ok h).2).symm⟩

/-- `prepareResponse` does not know the handle, or puts its request back and lets the
response be busy. -/
theorem prepareResponse_cases {cfg : Config} {handle : Int32} {s s' : CServer}
    (h : s.prepareResponse cfg handle = .ok s') :
    s' = s ∨ ∃ u, s.mUnblockedSessions.find? (fun u => u.1 == handle) = some u ∧
      s' = { s with
        mUnblockedSessions := s.mUnblockedSessions.filter (fun u => u.1 != handle)
        mResponseId := u.2.notifyID
        mClientID := u.2.clientID
        mNotifications := s.mNotifications ++ [u.2] }.setResponseState u.2.notifyID true := by
  rw [prepareResponse] at h
  split at h
  · cases h
  · split at h
    · exact Or.inl (Except.ok.inj h).symm
    · next u hu => exact Or.inr ⟨u, hu, (Except.ok.inj (Partial.guard_eq_ok h).2).symm⟩

/-- An unblocked entry goes from one list to the other. -/
theorem moves_unblockRequest {cfg : Config} {s : CServer} {r : Int32 × CServer}
    (h : s.unblockRequest cfg = .ok r) : Moves s r.2 := by
  rcases unblockRequest_cases h with rfl | ⟨-, rfl⟩
  · exact .refl s
  · exact (moves_takeCurrent s).trans (.of_eq rfl rfl rfl)

/-- A prepared response brings its entry back. -/
theorem moves_prepareResponse {cfg : Config} {handle : Int32} {s s' : CServer}
    (h : s.prepareResponse cfg handle = .ok s') : Moves s s' := by
  rcases prepareResponse_cases h with rfl | ⟨u, hu, rfl⟩
  · exact .refl _
  · refine ⟨rfl, fun m hm => ?_⟩
    rw [mem_held] at hm ⊢
    rcases hm with hm | ⟨v, hv, rfl⟩
    · rcases List.mem_append.mp hm with hm | hm
      · exact Or.inl hm
      · exact Or.inr ⟨u, List.mem_of_find?_eq_some hu, (List.mem_singleton.mp hm).symm⟩
    · exact Or.inr ⟨v, (List.mem_filter.mp hv).1, rfl⟩

/-- No call of the application makes an entry or a connection. -/
theorem moves_call {cfg : Config} {s s' : CServer} {c : UserCall} (h : call cfg s c = .ok s') :
    Moves s s' := by
  cases c with
  | unblockRequest =>
      obtain ⟨r, hr, h⟩ := Partial.bind_eq_ok h
      exact Except.ok.inj h ▸ moves_unblockRequest hr
  | prepareResponse handle => exact moves_prepareResponse h
  | response id => exact .of_shrinks (shrinks_responseMethod h)
  | sendError id => exact .of_shrinks (shrinks_sendError h)
  | setAttributeState id state => exact Except.ok.inj h ▸ .of_eq rfl rfl rfl
  | sendNotification id => exact .of_shrinks (shrinks_sendNotification h)
  | addActiveSession sessionId => exact Except.ok.inj h ▸ .of_eq rfl rfl rfl
  | clearActiveSessions => exact Except.ok.inj h ▸ .of_eq rfl rfl rfl

/-- Nor does any number of them. -/
theorem moves_calls {cfg : Config} {user : List UserCall} {s s' : CServer}
    (h : calls cfg s user = .ok s') : Moves s s' := by
  induction user generalizing s with
  | nil => exact Except.ok.inj h ▸ .refl s
  | cons c user ih =>
      obtain ⟨t, ht, hrest⟩ := Partial.bind_eq_ok h
      exact (moves_call ht).trans (ih hrest)

/-- The step from `s` to `s'` keeps the connections and the sessions, and sends. -/
structure Talks (s s' : CServer) : Prop where
  connections : s'.mClientConnections = s.mClientConnections
  sessions : s'.mSessions = s.mSessions
  capacity : s'.mSessionsCapacity = s.mSessionsCapacity
  copies : s'.copies = s.copies
  sessionId : s'.mSessionId = s.mSessionId
  log : ∃ ms : List Message, s'.log = s.log ++ ms.map .message

namespace Talks

theorem refl (s : CServer) : Talks s s :=
  ⟨rfl, rfl, rfl, rfl, rfl, [], (List.append_nil _).symm⟩

theorem trans {s t u : CServer} (h : Talks s t) (h' : Talks t u) : Talks s u where
  connections := h'.connections.trans h.connections
  sessions := h'.sessions.trans h.sessions
  capacity := h'.capacity.trans h.capacity
  copies := h'.copies.trans h.copies
  sessionId := h'.sessionId.trans h.sessionId
  log := by
    obtain ⟨ms, hms⟩ := h.log
    obtain ⟨ms', hms'⟩ := h'.log
    exact ⟨ms ++ ms', by rw [hms', hms, List.map_append, List.append_assoc]⟩

theorem of_shrinks {s s' : CServer} (h : Shrinks s s') : Talks s s' :=
  ⟨h.connections, h.sessions, h.capacity, h.copies, h.sessionId, h.log⟩

/-- Changes of the lists of entries and the states only. -/
theorem of_eq {s s' : CServer} (hc : s'.mClientConnections = s.mClientConnections)
    (hs : s'.mSessions = s.mSessions) (hk : s'.mSessionsCapacity = s.mSessionsCapacity)
    (hn : s'.copies = s.copies) (hi : s'.mSessionId = s.mSessionId) (hl : s'.log = s.log) :
    Talks s s' :=
  ⟨hc, hs, hk, hn, hi, [], by rw [hl, List.map_nil, List.append_nil]⟩

end Talks

/-- Entries that are taken leave the sessions alone. -/
theorem talks_takeCurrent (s : CServer) : Talks s s.takeCurrent.2 := by
  rw [takeCurrent]
  split
  · exact .refl s
  · split
    · exact .refl s
    · exact .of_eq rfl rfl rfl rfl rfl rfl

/-- So do entries that are unblocked. -/
theorem talks_unblockRequest {cfg : Config} {s : CServer} {r : Int32 × CServer}
    (h : s.unblockRequest cfg = .ok r) : Talks s r.2 := by
  rcases unblockRequest_cases h with rfl | ⟨-, rfl⟩
  · exact .refl s
  · exact (talks_takeCurrent s).trans (.of_eq rfl rfl rfl rfl rfl rfl)

/-- So do entries that are put back. -/
theorem talks_prepareResponse {cfg : Config} {handle : Int32} {s s' : CServer}
    (h : s.prepareResponse cfg handle = .ok s') : Talks s s' := by
  rcases prepareResponse_cases h with rfl | ⟨_, -, rfl⟩
  · exact .refl _
  · exact .of_eq rfl rfl rfl rfl rfl rfl

/-- A call of the application leaves connections, sessions and copies alone. -/
theorem talks_call {cfg : Config} {s s' : CServer} {c : UserCall} (h : call cfg s c = .ok s') :
    Talks s s' := by
  cases c with
  | unblockRequest =>
      obtain ⟨r, hr, h⟩ := Partial.bind_eq_ok h
      exact Except.ok.inj h ▸ talks_unblockRequest hr
  | prepareResponse handle => exact talks_prepareResponse h
  | response id => exact .of_shrinks (shrinks_responseMethod h)
  | sendError id => exact .of_shrinks (shrinks_sendError h)
  | setAttributeState id state => exact Except.ok.inj h ▸ .of_eq rfl rfl rfl rfl rfl rfl
  | sendNotification id => exact .of_shrinks (shrinks_sendNotification h)
  | addActiveSession sessionId => exact Except.ok.inj h ▸ .of_eq rfl rfl rfl rfl rfl rfl
  | clearActiveSessions => exact Except.ok.inj h ▸ .of_eq rfl rfl rfl rfl rfl rfl

/-- So does any number of them. -/
theorem talks_calls {cfg : Config} {user : List UserCall} {s s' : CServer}
    (h : calls cfg s user = .ok s') : Talks s s' := by
  induction user generalizing s with
  | nil => exact Except.ok.inj h ▸ .refl s
  | cons c user ih =>
      obtain ⟨t, ht, hrest⟩ := Partial.bind_eq_ok h
      exact (talks_call ht).trans (ih hrest)

/-- A handler makes the calls of the application. -/
theorem moves_callHandler {cfg : Config} {h : DataRequest} {user : List UserCall} {s s' : CServer}
    (hcall : s.callHandler cfg h user = .ok s') : Moves s s' := by
  rw [callHandler] at hcall
  refine Moves.trans ?_ (moves_calls hcall)
  exact .of_eq rfl rfl rfl

/-- A pushed session changes nothing but the sessions. -/
theorem pushSession_eq (cfg : Config) (sd : SessionData) (s : CServer) :
    ∃ l k c, s.pushSession cfg sd =
      { s with mSessions := l, mSessionsCapacity := k, copies := c } := by
  rw [pushSession]
  split <;> exact ⟨_, _, _, rfl⟩

/-- What `openSession` changes besides the session of the request. -/
theorem openSession_eq {cfg : Config} {h : DataRequest} {session : Option Nat} {s s' : CServer}
    (hopen : s.openSession cfg h session = .ok s') :
    ∃ l k c i n, s.nextID ≤ n ∧ s' = { s with
      mSessions := l, mSessionsCapacity := k, copies := c, mSessionId := i, nextID := n } := by
  unfold openSession at hopen
  split at hopen
  · obtain ⟨l, k, c, hpush⟩ := pushSession_eq cfg
      { sessionId := s.createId.1, clientID := s.mClientID, sequenceNr := h.sequenceNr
        updateId := h.requestId } s.createId.2
    dsimp only at hopen
    rw [hpush] at hopen
    exact ⟨l, k, c, _, _, Nat.le_succ _, (Except.ok.inj hopen).symm⟩
  · split at hopen
    · exact absurd hopen (by simp)
    · exact ⟨_, _, _, _, _, Nat.le_refl _, (Except.ok.inj hopen).symm⟩

/-- A session that is opened has no entry yet. -/
theorem moves_openSession {cfg : Config} {h : DataRequest} {session : Option Nat} {s s' : CServer}
    (hopen : s.openSession cfg h session = .ok s') : Moves s s' := by
  obtain ⟨l, k, c, i, n, -, rfl⟩ := openSession_eq hopen
  exact .of_eq rfl rfl rfl

/-- A session goes with its entries. -/
theorem moves_removeSession (sessionId : Int32) (s : CServer) :
    Moves s (s.removeSession sessionId) :=
  (moves_removeSessionNotifications sessionId s).trans (.of_eq rfl rfl rfl)

/-- The current session is no entry. -/
theorem moves_enterSession (session : Option Nat) (s : CServer) :
    Moves s (s.enterSession session) := by
  unfold enterSession
  split <;> exact .of_eq rfl rfl rfl

/-- A handler is called with what could be read. -/
theorem moves_readAndCall {cfg : Config} {m : RequestMethod} {h : DataRequest}
    {user : List UserCall} {s s' : CServer} (hr : s.readAndCall cfg m h user = .ok s') :
    Moves s s' := by
  rw [readAndCall] at hr
  split at hr
  · exact moves_callHandler hr
  · exact Except.ok.inj hr ▸ .refl s

/-- A session ends with its callback. -/
theorem moves_endSession {cfg : Config} {h : DataRequest} {user : List UserCall} {s s' : CServer}
    (he : s.endSession cfg h user = .ok s') : Moves s s' := by
  rw [endSession] at he
  split at he
  · obtain ⟨t, ht, he⟩ := Partial.bind_eq_ok he
    rw [← Except.ok.inj he]
    exact (moves_callHandler ht).trans (moves_removeSession _ t)
  · exact Except.ok.inj he ▸ .refl s

/-- So every kind of method moves entries at most. -/
theorem moves_processMethod {cfg : Config} {m : RequestMethod} {h : DataRequest}
    {user : List UserCall} {s s' : CServer} (hp : s.processMethod cfg m h user = .ok s') :
    Moves s s' := by
  have henter := moves_enterSession (s.findSession h.sequenceNr s.mClientID) s
  unfold processMethod at hp
  cases hk : m.kind with
  | request =>
      rw [hk] at hp
      exact moves_readAndCall hp
  | register =>
      rw [hk] at hp
      obtain ⟨t, ht, hp⟩ := Partial.bind_eq_ok hp
      obtain ⟨u, hu, hp⟩ := Partial.bind_eq_ok hp
      rw [← Except.ok.inj hp]
      refine (henter.trans (moves_openSession ht)).trans ((moves_readAndCall hu).trans ?_)
      exact .of_eq rfl rfl rfl
  | unregister =>
      rw [hk] at hp
      obtain ⟨t, ht, hp⟩ := Partial.bind_eq_ok hp
      rw [← Except.ok.inj hp]
      exact (henter.trans (moves_endSession ht)).trans (.of_eq rfl rfl rfl)

/-- So does a request that is processed. -/
theorem moves_processRequest {cfg : Config} {h : DataRequest} {user : List UserCall}
    {s s' : CServer} (hp : s.processRequest cfg h user = .ok s') : Moves s s' := by
  unfold processRequest at hp
  split at hp
  · exact Except.ok.inj hp ▸ .refl s
  · exact moves_processMethod hp

/-! ## What a request brings -/

/-- The ID of the entry that a data request leaves. -/
def entryId (cfg : Config) (s : CServer) (h : DataRequest) : Option UInt32 :=
  if protoMinorOf (s.findConnection h.clientID) ≠ h.protoMinor then none
  else
    match h.requestType with
    | .REQUEST =>
        let responseId := cfg.getResponse h.requestId
        if responseId = INVALID_ID ∨ s.isResponseDangling responseId then none
        else some responseId
    | .REQUEST_NOTIFY | .REQUEST_REGISTER_NOTIFY => some h.requestId
    | _ => none

/-- The step from `s` to `s'` keeps the connections and brings entries of one
client for one ID at most. -/
structure Brings (id : Option UInt32) (c : SPartyID) (s s' : CServer) : Prop where
  connections : s'.mClientConnections = s.mClientConnections
  held : ∀ n ∈ s'.held, n ∈ s.held ∨ n.clientID = c ∧ id = some n.notifyID

namespace Brings

/-- A step that moves entries brings none. -/
theorem of_moves {id : Option UInt32} {c : SPartyID} {s s' : CServer} (h : Moves s s') :
    Brings id c s s' := ⟨h.connections, fun n hn => Or.inl (h.held n hn)⟩

/-- Moves behind a step that brings an entry. -/
theorem then_moves {id : Option UInt32} {c : SPartyID} {s t u : CServer} (h : Brings id c s t)
    (h' : Moves t u) : Brings id c s u :=
  ⟨h'.connections.trans h.connections, fun n hn => h.held n (h'.held n hn)⟩

/-- Moves in front of a step that brings an entry. -/
theorem after_moves {id : Option UInt32} {c : SPartyID} {s t u : CServer} (h : Moves s t)
    (h' : Brings id c t u) : Brings id c s u :=
  ⟨h'.connections.trans h.connections, fun n hn => (h'.held n hn).imp_left (h.held n)⟩

/-- A notification that is appended. -/
theorem append {id : Option UInt32} {s s' : CServer} {n : Notification} (hid : id = some n.notifyID)
    (hc : s'.mClientConnections = s.mClientConnections)
    (hu : s'.mUnblockedSessions = s.mUnblockedSessions)
    (hn : s'.mNotifications = s.mNotifications ++ [n]) : Brings id n.clientID s s' := by
  refine ⟨hc, fun m hm => ?_⟩
  rw [mem_held, hn, hu, List.mem_append, List.mem_singleton] at hm
  rw [mem_held]
  rcases hm with (hm | rfl) | hm
  · exact Or.inl (Or.inl hm)
  · exact Or.inr ⟨rfl, hid⟩
  · exact Or.inl (Or.inr hm)

end Brings

/-- A new subscriber is sent the value. -/
theorem shrinks_sendAttribute {cfg : Config} {h : DataRequest} {s s' : CServer}
    (hs : s.sendAttribute cfg h = .ok s') : Shrinks s s' := by
  have hfind := shrinks_findClientConnectionBy steady h.clientID s
  obtain ⟨state, _, hs⟩ := Partial.bind_eq_ok hs
  cases state with
  | DATA_NOT_AVAILABLE => exact Except.ok.inj hs ▸ .refl s
  | DATA_INVALID => exact shrinks_sendNotification hs
  | DATA_OK =>
      simp only [findClientConnection] at hs
      split at hs
      · rw [← Except.ok.inj hs]
        exact hfind.trans (.message _ _)
      · obtain ⟨_, _, hs⟩ := Partial.bind_eq_ok hs
        exact Except.ok.inj hs ▸ hfind

/-- A new notification is one entry, with a session that may be new. -/
theorem addNotification_eq (cfg : Config) (h : DataRequest) (s : CServer) :
    ∃ i nr l k c id, s.nextID ≤ id ∧ s.addNotification cfg h = { s with
      mNotifications := s.mNotifications ++
        [{ sessionId := i, clientID := h.clientID, sequenceNr := nr, notifyID := h.requestId }]
      mSessions := l, mSessionsCapacity := k, copies := c, nextID := id } := by
  unfold addNotification
  split
  · split
    · exact ⟨_, _, _, _, _, _, Nat.le_refl _, rfl⟩
    · obtain ⟨l, k, c, hpush⟩ := pushSession_eq cfg
        { sessionId := s.createId.1, clientID := h.clientID, sequenceNr := h.sequenceNr }
        s.createId.2
      dsimp only
      rw [hpush]
      exact ⟨_, _, _, _, _, _, Nat.le_succ _, rfl⟩
  · exact ⟨_, _, _, _, _, _, Nat.le_refl _, rfl⟩

/-- A subscription brings the entry of its client. -/
theorem brings_addNotification (cfg : Config) (h : DataRequest) (s : CServer) :
    Brings (some h.requestId) h.clientID s (s.addNotification cfg h) := by
  obtain ⟨i, nr, l, k, c, id, -, hadd⟩ := addNotification_eq cfg h s
  rw [hadd]
  exact .append (n := ⟨i, h.clientID, nr, h.requestId⟩) rfl rfl rfl rfl

/-- So does the handling of `REQUEST_NOTIFY`, which may send the value. -/
theorem brings_handleNotify {cfg : Config} {h : DataRequest} {s s' : CServer}
    (hs : s.handleNotify cfg h = .ok s') : Brings (some h.requestId) h.clientID s s' := by
  have hadd : Brings (some h.requestId) h.clientID s
      (if s.mNotifications.any (isSet h) then s else s.addNotification cfg h) := by
    split
    · exact .of_moves (.refl s)
    · exact brings_addNotification cfg h s
  unfold handleNotify at hs
  by_cases ha : isAttributeId h.requestId = true
  · rw [if_pos ha] at hs
    exact hadd.then_moves (.of_shrinks (shrinks_sendAttribute hs))
  · rw [if_neg ha] at hs
    exact Except.ok.inj hs ▸ hadd

/-- A request with a response brings the entry that waits for it. -/
theorem brings_acceptRequest (h : DataRequest) {responseId : UInt32} (hid : responseId ≠ INVALID_ID)
    (s : CServer) : Brings (some responseId) h.clientID s (s.acceptRequest h responseId) := by
  rw [acceptRequest, if_pos hid]
  exact .append (n := h.notification responseId) rfl rfl rfl rfl

/-- What accepting a request changes. -/
theorem acceptRequest_eq (h : DataRequest) (responseId : UInt32) (s : CServer) :
    ∃ f, s.acceptRequest h responseId = { s with
      mNotifications := s.mNotifications ++
        (if responseId = INVALID_ID then [] else [h.notification responseId])
      mResponseStateMap := f
      mResponseId := responseId
      mClientID := h.clientID
      mCurrentSequenceNr := h.sequenceNr } := by
  unfold acceptRequest
  by_cases hid : responseId = INVALID_ID
  · simp only [hid, ne_eq, not_true_eq_false, if_false, if_true, List.append_nil]
    exact ⟨_, rfl⟩
  · simp only [ne_eq, hid, not_false_eq_true, if_true, if_false]
    exact ⟨_, rfl⟩

/-- What accepting a request leaves as it is. -/
theorem acceptRequest_frame (h : DataRequest) (responseId : UInt32) (s : CServer) :
    (s.acceptRequest h responseId).mUnblockedSessions = s.mUnblockedSessions ∧
      (s.acceptRequest h responseId).nextID = s.nextID ∧
      (s.acceptRequest h responseId).mSessions = s.mSessions ∧
      (s.acceptRequest h responseId).mSessionId = s.mSessionId := by
  obtain ⟨f, hf⟩ := acceptRequest_eq h responseId s
  rw [hf]
  exact ⟨rfl, rfl, rfl, rfl⟩

/-- A request without a response brings none. -/
theorem moves_acceptRequest (h : DataRequest) (s : CServer) :
    Moves s (s.acceptRequest h INVALID_ID) := .of_eq rfl rfl rfl

/-- A request is answered that its response is busy, or it is processed. -/
theorem handleRequest_cases {cfg : Config} {h : DataRequest} {user : List UserCall}
    {s s' : CServer} (hs : s.handleRequest cfg h user = .ok s') :
    s.isResponseDangling (cfg.getResponse h.requestId) = true ∧
        s.sendErrorToClient cfg h.clientID h.requestId .RESULT_REQUEST_BUSY h.sequenceNr = .ok s' ∨
      s.isResponseDangling (cfg.getResponse h.requestId) = false ∧
        ∃ t, (s.acceptRequest h (cfg.getResponse h.requestId)).processRequest cfg h user = .ok t ∧
          s' = t.finishRequest := by
  unfold handleRequest at hs
  dsimp only at hs
  split at hs
  · cases hs
  · split at hs
    · next hd => exact Or.inl ⟨hd, hs⟩
    · next hd =>
      obtain ⟨t, ht, hs⟩ := Partial.bind_eq_ok hs
      exact Or.inr ⟨Bool.eq_false_iff.mpr hd, t, ht, (Except.ok.inj hs).symm⟩

/-- A request brings an entry only if it has a response that is not busy. -/
theorem brings_handleRequest {cfg : Config} {h : DataRequest} {user : List UserCall}
    {s s' : CServer} (hs : s.handleRequest cfg h user = .ok s') :
    Brings (if cfg.getResponse h.requestId = INVALID_ID ∨
        s.isResponseDangling (cfg.getResponse h.requestId) then none
      else some (cfg.getResponse h.requestId)) h.clientID s s' := by
  rcases handleRequest_cases hs with ⟨-, hs⟩ | ⟨hd, t, ht, rfl⟩
  · exact .of_moves (.of_shrinks (shrinks_sendErrorToClient hs))
  · have hrest : Moves (s.acceptRequest h (cfg.getResponse h.requestId)) t.finishRequest :=
      (moves_processRequest ht).trans (.of_eq rfl rfl rfl)
    by_cases hid : cfg.getResponse h.requestId = INVALID_ID
    · rw [hid] at hrest
      exact .of_moves ((moves_acceptRequest h s).trans hrest)
    · rw [if_neg (by exact not_or.mpr ⟨hid, Bool.eq_false_iff.mp hd⟩)]
      exact (brings_acceptRequest h hid s).then_moves hrest

/-- A session that is stopped brings nothing. -/
theorem moves_handleStopSession (h : DataRequest) (s : CServer) :
    Moves s (s.handleStopSession h) := by
  rw [handleStopSession]
  split
  · exact moves_removeSessionNotifications _ s
  · exact .refl s

/-- A response dangles behind the search for a client if it did before. -/
theorem isResponseDangling_findClientConnection (c : SPartyID) (id : UInt32) (s : CServer) :
    (s.findClientConnection c).2.isResponseDangling id = s.isResponseDangling id := by
  rw [findClientConnection, findClientConnectionBy]
  cases s.findConnection c <;> rfl

/-- The search for a client leaves every busy state alone. -/
theorem mResponseStateMap_findClientConnection (c : SPartyID) (s : CServer) :
    (s.findClientConnection c).2.mResponseStateMap = s.mResponseStateMap := by
  rw [findClientConnection, findClientConnectionBy]
  cases s.findConnection c <;> rfl

/-- The search for a client leaves the attributes alone. -/
theorem attributeState_findClientConnection (c : SPartyID) (s : CServer) :
    (s.findClientConnection c).2.attributeState = s.attributeState := by
  rw [findClientConnection, findClientConnectionBy]
  cases s.findConnection c <;> rfl

/-- A connect request changes nothing but the connections. -/
theorem handleConnectRequest_eq (cfg : Config) (q : ConnectRequest) (s : CServer) :
    ∃ l n, s.nextID ≤ n ∧
      s.handleConnectRequest cfg q = { s with mClientConnections := l, nextID := n } := by
  unfold handleConnectRequest
  split
  · exact ⟨_, _, Nat.le_refl _, rfl⟩
  · dsimp only
    split <;> exact ⟨_, _, Nat.le_succ _, rfl⟩

/-- What is found is the connection of the client. -/
theorem fst_findClientConnection (c : SPartyID) (s : CServer) :
    (s.findClientConnection c).1 = s.findConnection c := by
  rw [findClientConnection, findClientConnectionBy]
  cases s.findConnection c <;> rfl

/-- A data request brings at most the entry that it leaves. -/
theorem brings_handleDataRequest {cfg : Config} {h : DataRequest} {user : List UserCall}
    {s s' : CServer} (hs : s.handleDataRequest cfg h user = .ok s') :
    Brings (s.entryId cfg h) h.clientID s s' := by
  have hfind : Moves s (s.findClientConnection h.clientID).2 :=
    .of_shrinks (shrinks_findClientConnectionBy steady h.clientID s)
  unfold handleDataRequest at hs
  simp only [fst_findClientConnection] at hs
  by_cases hv : protoMinorOf (s.findConnection h.clientID) ≠ h.protoMinor
  · rw [if_pos hv] at hs
    exact Except.ok.inj hs ▸ .of_moves hfind
  · rw [if_neg hv] at hs
    refine .after_moves hfind ?_
    rw [entryId, if_neg hv]
    unfold dispatchRequest at hs
    cases ht : h.requestType with
    | REQUEST =>
        rw [ht] at hs
        have hreq := brings_handleRequest hs
        rw [isResponseDangling_findClientConnection] at hreq
        exact hreq
    | REQUEST_NOTIFY => rw [ht] at hs; exact brings_handleNotify hs
    | REQUEST_REGISTER_NOTIFY => rw [ht] at hs; exact brings_handleNotify hs
    | REQUEST_STOP_NOTIFY =>
        rw [ht] at hs
        exact Except.ok.inj hs ▸ .of_moves (.of_shrinks (shrinks_removeNotificationBy _ _ _ _))
    | REQUEST_STOP_REGISTER_NOTIFY =>
        rw [ht] at hs
        exact Except.ok.inj hs ▸ .of_moves (.of_shrinks (shrinks_removeNotificationBy _ _ _ _))
    | REQUEST_STOP_ALL_NOTIFY =>
        rw [ht] at hs
        exact Except.ok.inj hs ▸ .of_moves (.of_shrinks (shrinks_removeNotificationBy _ _ _ _))
    | REQUEST_STOP_ALL_REGISTER_NOTIFY =>
        rw [ht] at hs
        exact Except.ok.inj hs ▸ .of_moves (moves_handleStopSession h _)
    | REQUEST_LOAD_COMPONENT =>
        rw [ht] at hs
        exact Except.ok.inj hs ▸ .of_moves (.refl _)

end CServer

end Dsi
