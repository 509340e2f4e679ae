import Dsi.Server.Requests

/-!
# Dsi.Server.Effects

What the operations of a server come to.  The loops over the notifications look up
the client of an element and remove what belongs to it when it is not connected;
as long as every element they stop at belongs to a connected client they are a map
and a filter, which the first sections state.  The last sections say what one call
of the application may do to a server whose clients are all connected.
-/

namespace Dsi

namespace CServer

open Sequence

/-! ## Clients -/

/-- The client has a connection. -/
def isConnected (s : CServer) (clientID : SPartyID) : Bool := (s.findConnection clientID).isSome

/-- The client has a connection whose channel is there. -/
def isLive (s : CServer) (clientID : SPartyID) : Bool :=
  (live (s.findConnection clientID)).isSome

theorem isConnected_of_isLive {s : CServer} {c : SPartyID} (h : s.isLive c = true) :
    s.isConnected c = true := by
  unfold isLive at h
  unfold isConnected
  cases hc : s.findConnection c with
  | none => rw [hc] at h; exact absurd h (by simp [live])
  | some conn => rfl

theorem clientID_of_findConnection {s : CServer} {c : SPartyID} {conn : ClientConnection}
    (h : s.findConnection c = some conn) : conn.clientID = c := by
  have hp := List.find?_some h
  simpa using hp

theorem eq_of_live {o : Option ClientConnection} {conn : ClientConnection}
    (h : live o = some conn) : o = some conn := by
  cases o with
  | none => exact absurd h (by simp [live])
  | some c => exact (Option.filter_eq_some_iff.mp h).1

@[simp] theorem findConnection_emit (o : Output) (s : CServer) (c : SPartyID) :
    (s.emit o).findConnection c = s.findConnection c := rfl

@[simp] theorem mNotifications_emit (o : Output) (s : CServer) :
    (s.emit o).mNotifications = s.mNotifications := rfl

@[simp] theorem isSessionActive_emit (o : Output) (s : CServer) (i : Int32) :
    (s.emit o).isSessionActive i = s.isSessionActive i := rfl

@[simp] theorem getAttributeState_emit (cfg : Config) (o : Output) (s : CServer) (id : UInt32) :
    (s.emit o).getAttributeState cfg id = s.getAttributeState cfg id := rfl

theorem findClientConnectionBy_of_connected {s : CServer} {c : SPartyID}
    (h : s.isConnected c = true) (reread : SPartyID → List Notification → SPartyID) :
    s.findClientConnectionBy reread c = (s.findConnection c, s) := by
  obtain ⟨conn, hconn⟩ := Option.isSome_iff_exists.mp h
  rw [findClientConnectionBy, hconn]

theorem removeNotification_eq (c : SPartyID) (id : UInt32) (s : CServer) :
    s.removeNotification c id =
      { s with mNotifications := s.mNotifications.filter (fun n => !isRemoved id c n) } := by
  rw [removeNotification, removeNotificationBy, eraseDown_steady]

/-! ## Updates -/

/-- The type of an update of an attribute in this state. -/
def updateType (state : DataStateType) : ResultType :=
  if state = .DATA_OK then .RESULT_DATA_OK else .RESULT_DATA_INVALID

/-- The update that an element of the notifications gets. -/
def update (id : UInt32) (state : DataStateType) (s : CServer) (n : Notification) :
    Option Message :=
  if n.notifyID = id then
    (live (s.findConnection n.clientID)).map
      (fun conn => conn.message (updateType state) id INVALID_SEQUENCE_NR)
  else none

/-- The updates that `sendNotification` sends. -/
def updates (id : UInt32) (state : DataStateType) (s : CServer) : List Message :=
  s.mNotifications.filterMap (s.update id state)

/-- Appends messages to what the outside sees. -/
def emitAll (ms : List Message) (s : CServer) : CServer :=
  { s with log := s.log ++ ms.map .message }

@[simp] theorem emitAll_nil (s : CServer) : s.emitAll [] = s := by
  rw [emitAll, List.map_nil, List.append_nil]

theorem emitAll_emitAll (ms ms' : List Message) (s : CServer) :
    (s.emitAll ms).emitAll ms' = s.emitAll (ms ++ ms') := by
  simp only [emitAll, List.map_append, List.append_assoc]

/-- What the round for a connected client sends. -/
theorem notifyOne_of_connected {cfg : Config} {id : UInt32} {idx : Nat} {n : Notification}
    {s s' : CServer} (hc : s.isConnected n.clientID = true) (hid : n.notifyID = id)
    (h : s.notifyOne cfg id idx n = .ok s') :
    ∃ u : Option Message, s' = s.emitAll u.toList ∧
      ∀ state, s.getAttributeState cfg id = .ok state → u = s.update id state n := by
  rw [notifyOne, findClientConnectionAt, findClientConnectionBy_of_connected hc] at h
  cases hl : live (s.findConnection n.clientID) with
  | none =>
      simp only [hl] at h
      obtain ⟨_, _, h⟩ := Partial.bind_eq_ok h
      refine ⟨none, (Except.ok.inj h).symm.trans (emitAll_nil s).symm, fun state _ => ?_⟩
      rw [update, if_pos hid, hl, Option.map_none]
  | some conn =>
      simp only [hl] at h
      obtain ⟨st, hst, h⟩ := Partial.bind_eq_ok h
      refine ⟨some (conn.message (updateType st) id INVALID_SEQUENCE_NR),
        (Except.ok.inj h).symm, fun state hstate => ?_⟩
      rw [hst] at hstate
      rw [update, if_pos hid, hl, Option.map_some, Except.ok.inj hstate]

/-- The round for a connected client does not break off when its channel is there
or the assertions are not. -/
theorem notifyOne_isOk {cfg : Config} {id : UInt32} (idx : Nat) {n : Notification} {s : CServer}
    {state : DataStateType} (hc : s.isConnected n.clientID = true)
    (hlive : cfg.NDEBUG = true ∨ s.isLive n.clientID = true)
    (hstate : s.getAttributeState cfg id = .ok state) :
    ∃ s', s.notifyOne cfg id idx n = .ok s' := by
  rw [notifyOne, findClientConnectionAt, findClientConnectionBy_of_connected hc]
  cases hl : live (s.findConnection n.clientID) with
  | none =>
      have hndebug : cfg.NDEBUG = true :=
        hlive.resolve_right (by rw [isLive, hl]; exact Bool.false_ne_true)
      exact ⟨s, by simp only [assertChannel, hndebug, if_true]; rfl⟩
  | some conn =>
      simp only [hstate]
      exact ⟨_, rfl⟩

/-- The loop of `sendNotification` over subscribers that are connected only sends. -/
theorem notifyLoop_of_connected {cfg : Config} {id : UInt32} {rounds idx : Nat} {s s' : CServer}
    (hc : ∀ n ∈ s.mNotifications, n.notifyID = id → s.isConnected n.clientID = true)
    (hlen : idx + rounds = s.mNotifications.length) (h : notifyLoop cfg id rounds idx s = .ok s') :
    ∃ ms, s' = s.emitAll ms ∧ ∀ state, s.getAttributeState cfg id = .ok state →
      ms = (s.mNotifications.drop idx).filterMap (s.update id state) := by
  induction rounds generalizing idx s with
  | zero =>
      refine ⟨[], (Except.ok.inj h).symm.trans (emitAll_nil s).symm, fun state _ => ?_⟩
      rw [List.drop_eq_nil_of_le (by omega), List.filterMap_nil]
  | succ rounds ih =>
      have hlt : idx < s.mNotifications.length := by omega
      rw [notifyLoop, List.getElem?_eq_getElem hlt] at h
      rw [List.drop_eq_getElem_cons hlt]
      by_cases hid : s.mNotifications[idx].notifyID = id
      · simp only [if_pos hid] at h
        obtain ⟨t, ht, hrest⟩ := Partial.bind_eq_ok h
        obtain ⟨u, rfl, hu⟩ := notifyOne_of_connected (hc _ (List.getElem_mem hlt) hid) hid ht
        obtain ⟨ms, rfl, hms⟩ := ih (s := s.emitAll u.toList) hc
          (by simp only [emitAll]; omega) hrest
        refine ⟨u.toList ++ ms, emitAll_emitAll _ _ s, fun state hstate => ?_⟩
        have hrest' : ms = (s.mNotifications.drop (idx + 1)).filterMap (s.update id state) :=
          hms state hstate
        rw [hrest', hu state hstate, List.filterMap_cons]
        cases s.update id state s.mNotifications[idx] <;> rfl
      · simp only [if_neg hid] at h
        obtain ⟨ms, rfl, hms⟩ := ih hc (by omega) h
        refine ⟨ms, rfl, fun state hstate => ?_⟩
        rw [List.filterMap_cons_none (by rw [update, if_neg hid])]
        exact hms state hstate

theorem notifyLoop_isOk {cfg : Config} {id : UInt32} {state : DataStateType} {rounds idx : Nat}
    {s : CServer}
    (hc : ∀ n ∈ s.mNotifications, n.notifyID = id → s.isConnected n.clientID = true)
    (hlive : ∀ n ∈ s.mNotifications, n.notifyID = id →
      cfg.NDEBUG = true ∨ s.isLive n.clientID = true)
    (hstate : s.getAttributeState cfg id = .ok state) :
    ∃ s', notifyLoop cfg id rounds idx s = .ok s' := by
  induction rounds generalizing idx s with
  | zero => exact ⟨s, rfl⟩
  | succ rounds ih =>
      rw [notifyLoop]
      cases hget : s.mNotifications[idx]? with
      | none => exact ⟨s, rfl⟩
      | some n =>
          have hmem : n ∈ s.mNotifications := List.mem_of_getElem? hget
          by_cases hid : n.notifyID = id
          · simp only [if_pos hid]
            obtain ⟨t, ht⟩ := notifyOne_isOk idx (hc n hmem hid) (hlive n hmem hid) hstate
            obtain ⟨u, rfl, -⟩ := notifyOne_of_connected (hc n hmem hid) hid ht
            rw [ht]
            exact ih (s := s.emitAll u.toList) hc hlive hstate
          · simp only [if_neg hid]
            exact ih hc hlive hstate

/-- To subscribers that are connected, `sendNotification` only sends. -/
theorem sendNotification_of_connected {cfg : Config} {id : UInt32} {s s' : CServer}
    (hc : ∀ n ∈ s.mNotifications, n.notifyID = id → s.isConnected n.clientID = true)
    (h : s.sendNotification cfg id = .ok s') :
    ∃ ms, s' = s.emitAll ms ∧ ∀ state, s.getAttributeState cfg id = .ok state →
      ms = s.updates id state :=
  notifyLoop_of_connected hc (Nat.zero_add _) h

/-! ## Responses -/

/-- A notification that is gone when it is answered. -/
def Notification.isOneShot (n : Notification) : Bool :=
  n.sequenceNr != INVALID_SEQUENCE_NR && n.sessionId == INVALID_SESSION_ID

namespace ResponseLoop

variable (l : ResponseLoop)

/-- The answer that an element of the notifications gets. -/
def answer (s : CServer) (n : Notification) : Option Message :=
  if l.selects s n then
    (live (s.findConnection n.clientID)).map (fun conn =>
      { clientID := n.clientID, serverID := conn.serverID, protoMinor := conn.protoMinor
        responseType := l.type, requestID := l.id, sequenceNumber := n.sequenceNr })
  else none

/-- The element stays behind the loop. -/
def stays (s : CServer) (n : Notification) : Bool := !((l.answer s n).isSome && n.isOneShot)

/-- The answers of the loop, from the last element to the first. -/
def answers (s : CServer) : List Message := s.mNotifications.reverse.filterMap (l.answer s)

/-- The element makes the loop break off: its client is connected, but not its
channel. -/
def breaksOff (cfg : Config) (s : CServer) (n : Notification) : Bool :=
  l.selects s n && !s.isLive n.clientID && l.asserts && !cfg.NDEBUG

/-- What the round for a connected client comes to. -/
theorem one_of_connected (cfg : Config) {front back : List Notification} {n : Notification}
    {s : CServer} (hs : s.mNotifications = front ++ n :: back)
    (hc : s.isConnected n.clientID = true) (hsel : l.selects s n = true) :
    l.one cfg front.length n s =
      if l.breaksOff cfg s n then .error .assertion
      else .ok { s.emitAll (l.answer s n).toList with
        mNotifications := front ++ (if l.stays s n then [n] else []) ++ back } := by
  have herase : s.mNotifications.eraseIdx front.length = front ++ back := by
    rw [hs, List.eraseIdx_append_of_length_le (Nat.le_refl _), Nat.sub_self,
      List.eraseIdx_cons_zero]
  have hkeep : ({ s with mNotifications := front ++ [n] ++ back } : CServer) = s := by
    rw [List.append_assoc, List.singleton_append, ← hs]
  rw [one, findClientConnectionAt, findClientConnectionBy_of_connected hc]
  cases hl : live (s.findConnection n.clientID) with
  | none =>
      obtain ⟨conn, hconn⟩ := Option.isSome_iff_exists.mp hc
      have hnot : s.isLive n.clientID = false := by rw [isLive, hl]; rfl
      have hanswer : l.answer s n = none := by rw [answer, if_pos hsel, hl, Option.map_none]
      simp only [hconn, breaksOff, hsel, hnot, stays, hanswer, assertChannel, Option.toList_none,
        emitAll_nil, Option.isSome_none, Bool.false_and, Bool.not_false, if_true, hkeep,
        Bool.true_and]
      cases l.asserts <;> cases cfg.NDEBUG <;> rfl
  | some conn =>
      have hlive : s.isLive n.clientID = true := by rw [isLive, hl]; rfl
      simp only [hl, breaksOff, hlive, stays, answer, hsel, if_true, Option.map_some,
        Option.isSome_some, Option.toList_some, Bool.true_and, Bool.not_true, Bool.and_false,
        Bool.false_and, Bool.false_eq_true, if_false]
      by_cases hone : n.sequenceNr ≠ INVALID_SEQUENCE_NR ∧ n.sessionId = INVALID_SESSION_ID
      · have hshot : n.isOneShot = true := by simp [Notification.isOneShot, hone.1, hone.2]
        rw [if_pos hone, hshot]
        simp only [mNotifications_emit, herase, Bool.not_true, Bool.false_eq_true, if_false,
          List.append_nil]
        rfl
      · have hshot : n.isOneShot = false := by
          simp only [Notification.isOneShot, Bool.and_eq_false_iff, bne_eq_false_iff_eq,
            beq_eq_false_iff_ne]
          by_cases h0 : n.sequenceNr = INVALID_SEQUENCE_NR
          · exact Or.inl h0
          · exact Or.inr (fun h1 => hone ⟨h0, h1⟩)
        rw [if_neg hone, hshot]
        simp only [Bool.not_false, if_true, List.append_assoc, List.singleton_append, ← hs]
        rfl

/-- The loop over elements of connected clients: the last one is answered first. -/
theorem loop_of_connected (cfg : Config) {front back : List Notification} {s : CServer}
    (hs : s.mNotifications = front ++ back)
    (hc : ∀ n ∈ front, l.selects s n = true → s.isConnected n.clientID = true) :
    l.loop cfg front.length s =
      if front.any (l.breaksOff cfg s) then .error .assertion
      else .ok { s.emitAll (front.reverse.filterMap (l.answer s)) with
        mNotifications := front.filter (l.stays s) ++ back } := by
  induction front using List.reverseRecOn generalizing back s with
  | nil =>
      rw [List.nil_append] at hs
      rw [List.length_nil, loop, List.any_nil, if_neg Bool.false_ne_true, List.reverse_nil,
        List.filterMap_nil, emitAll_nil, List.filter_nil, List.nil_append, ← hs]
  | append_singleton front n ih =>
      have hs' : s.mNotifications = front ++ n :: back := by
        rw [hs, List.append_assoc, List.singleton_append]
      have hfront : ∀ m ∈ front, l.selects s m = true → s.isConnected m.clientID = true :=
        fun m hm => hc m (List.mem_append_left _ hm)
      have hget : s.mNotifications[front.length]? = some n := by
        rw [hs', List.getElem?_append_right (Nat.le_refl _), Nat.sub_self, List.getElem?_cons_zero]
      rw [List.length_append, List.length_singleton, loop, hget]
      rw [List.any_append, List.any_cons, List.any_nil, Bool.or_false, List.reverse_append,
        List.reverse_singleton, List.singleton_append, List.filter_append]
      by_cases hsel : l.selects s n = true
      · have hone := l.one_of_connected cfg hs'
          (hc n (List.mem_append_right _ (List.mem_singleton_self n)) hsel) hsel
        simp only [if_pos hsel, hone]
        by_cases hb : l.breaksOff cfg s n = true
        · rw [if_pos hb, hb, Bool.or_true, if_pos rfl]
          rfl
        · have hstep := ih (s := { s.emitAll (l.answer s n).toList with
            mNotifications := front ++ (if l.stays s n then [n] else []) ++ back })
            (List.append_assoc _ _ _) hfront
          rw [if_neg hb, Bool.eq_false_iff.mpr hb, Bool.or_false]
          refine hstep.trans ?_
          have hlog : (s.emitAll (l.answer s n).toList).emitAll
              (front.reverse.filterMap (l.answer s)) =
              s.emitAll ((n :: front.reverse).filterMap (l.answer s)) := by
            rw [emitAll_emitAll, List.filterMap_cons]
            cases l.answer s n <;> rfl
          have hfilter : [n].filter (l.stays s) = if l.stays s n then [n] else [] := by
            cases h : l.stays s n <;> simp [h]
          rw [← hlog, hfilter, List.append_assoc, List.append_assoc]
          rfl
      · have hanswer : l.answer s n = none := by rw [answer, if_neg hsel]
        have hstays : l.stays s n = true := by rw [stays, hanswer]; rfl
        have hb : l.breaksOff cfg s n = false := by
          rw [breaksOff, Bool.eq_false_iff.mpr hsel]; rfl
        simp only [if_neg hsel]
        rw [ih hs' hfront, hb, Bool.or_false, List.filterMap_cons_none hanswer,
          List.filter_cons_of_pos hstays, List.filter_nil, List.append_assoc,
          List.singleton_append]

/-- What the loop leaves of a server whose waiting clients are connected. -/
def answerAll (s : CServer) : CServer :=
  { s.emitAll (l.answers s) with
    mNotifications := s.mNotifications.filter (l.stays s)
    mResponseId := if s.mResponseId = l.responseId then INVALID_ID else s.mResponseId }

theorem run_of_connected (cfg : Config) {s : CServer}
    (hc : ∀ n ∈ s.mNotifications, l.selects s n = true → s.isConnected n.clientID = true) :
    l.run cfg s =
      if s.mNotifications.any (l.breaksOff cfg s) then .error .assertion
      else .ok (l.answerAll s) := by
  have hloop := l.loop_of_connected cfg (List.append_nil s.mNotifications).symm hc
  rw [run, hloop]
  by_cases hb : s.mNotifications.any (l.breaksOff cfg s) = true
  · rw [if_pos hb, if_pos hb]
    rfl
  · rw [if_neg hb, if_neg hb, List.append_nil]
    have hid : (s.emitAll (l.answers s)).mResponseId = s.mResponseId := rfl
    by_cases hr : s.mResponseId = l.responseId
    · simp only [answerAll, if_pos hr, bind, Except.bind]
      rw [if_pos (by exact hr)]
      rfl
    · simp only [answerAll, if_neg hr, bind, Except.bind]
      rw [if_neg (by exact hr)]
      rfl

theorem eq_answerAll_of_run {cfg : Config} {s s' : CServer}
    (hc : ∀ n ∈ s.mNotifications, l.selects s n = true → s.isConnected n.clientID = true)
    (h : l.run cfg s = .ok s') : s' = l.answerAll s := by
  rw [l.run_of_connected cfg hc] at h
  split at h
  · exact absurd h (by simp)
  · exact (Except.ok.inj h).symm

end ResponseLoop

/-! ## Unblocking -/

/-- `unblockRequest` either finds no entry of the current request, or it makes the last
one an unblocked session. -/
theorem takeCurrent_cases (s : CServer) :
    s.takeCurrent = (INVALID_SESSION_ID, s) ∧ (∀ n ∈ s.mNotifications, s.isCurrent n = false) ∨
    ∃ front n back, s.mNotifications = front ++ n :: back ∧ s.isCurrent n = true ∧
      (∀ m ∈ back, s.isCurrent m = false) ∧
      s.takeCurrent = (s.createId.1, { s.createId.2 with
        mUnblockedSessions :=
          s.mUnblockedSessions.filter (fun u => u.1 != s.createId.1) ++ [(s.createId.1, n)]
        mNotifications := front ++ back }) := by
  cases hidx : lastIdx? s.isCurrent s.mNotifications with
  | none =>
      refine Or.inl ⟨?_, lastIdx?_eq_none.mp hidx⟩
      rw [takeCurrent, hidx]
  | some idx =>
      obtain ⟨front, n, back, hs, rfl, hn, hback⟩ := lastIdx?_eq_some hidx
      have hget : s.mNotifications[front.length]? = some n := by
        rw [hs, List.getElem?_append_right (Nat.le_refl _), Nat.sub_self, List.getElem?_cons_zero]
      have herase : s.mNotifications.eraseIdx front.length = front ++ back := by
        rw [hs, List.eraseIdx_append_of_length_le (Nat.le_refl _), Nat.sub_self,
          List.eraseIdx_cons_zero]
      refine Or.inr ⟨front, n, back, hs, hn, hback, ?_⟩
      rw [takeCurrent, hidx]
      simp only [hget]
      rw [herase]

end CServer

end Dsi
