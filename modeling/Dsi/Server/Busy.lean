import Dsi.Server.Responses

/-!
# Dsi.Server.Busy

The busy state of a response.  It is set with the entry of a request and cleared when
the request is answered or unblocked; nothing clears it when the entry is removed
with its client, or when the request never gets to its handler.
-/

namespace Dsi

namespace CServer

open Sequence

/-! ## What justifies a busy response -/

/-- The handler of the request that left the notification was entered. -/
def delivered (cfg : Config) (log : List Output) (n : Notification) : Bool :=
  log.any (fun o =>
    match o with
    | .called requestId clientID sequenceNr _ =>
        cfg.getResponse requestId == n.notifyID && clientID == n.clientID &&
          sequenceNr == n.sequenceNr
    | _ => false)

/-- The notification is that of a request which its handler has got. -/
def pending (cfg : Config) (s : CServer) (n : Notification) : Bool :=
  n.isOneShot && delivered cfg s.log n

/-- For every busy response there is a pending request. -/
def Justified (cfg : Config) (s : CServer) : Prop :=
  ∀ r, s.mResponseStateMap r = true → ∃ n ∈ s.mNotifications, n.notifyID = r ∧
    s.pending cfg n = true

/-- What was delivered stays delivered. -/
theorem delivered_append {cfg : Config} {log os : List Output} {n : Notification}
    (h : delivered cfg log n = true) : delivered cfg (log ++ os) n = true := by
  unfold delivered at h ⊢
  rw [List.any_append, h, Bool.true_or]

/-- What is pending stays pending while the log grows. -/
theorem pending_append {cfg : Config} {s s' : CServer} {n : Notification}
    (hlog : ∃ os, s'.log = s.log ++ os) (h : s.pending cfg n = true) :
    s'.pending cfg n = true := by
  obtain ⟨os, hos⟩ := hlog
  unfold pending at h ⊢
  rw [Bool.and_eq_true] at h
  rw [hos, h.1, delivered_append h.2, Bool.true_and]

/-! ## The condition -/

/-- The ID whose entries a call looks up the clients of. -/
def UserCall.lookup (cfg : Config) : UserCall → Option UInt32
  | .response id | .sendNotification id => some id
  | .sendError id => some (if isAttributeId id then id else errorResponse cfg id)
  | _ => none

/-- One of the calls looks up the clients of the entries for the ID. -/
def looksUp (cfg : Config) (user : List UserCall) (id : UInt32) : Bool :=
  user.any (fun c => c.lookup cfg == some id)

/-- The clients that the calls look up are connected: the search for one that is not
removes notifications under the loop. -/
def findsAll (cfg : Config) (user : List UserCall) (s : CServer) : Bool :=
  s.held.all (fun n => !looksUp cfg user n.notifyID || s.isConnected n.clientID)

/-- The notification is that of a request, and keeps its response busy. -/
def keepsBusy (s : CServer) (n : Notification) : Bool :=
  n.isOneShot && s.mResponseStateMap n.notifyID

/-- `removeNotification` with these arguments takes no request away that keeps its
response busy. -/
def sparesBusy (clientID : SPartyID) (id : UInt32) (s : CServer) : Bool :=
  s.mNotifications.all (fun n => !(isRemoved id clientID n && s.keepsBusy n))

/-- `processRequest` calls the handler of the method. -/
def delivers (m : RequestMethod) (h : DataRequest) (s : CServer) : Bool :=
  match m.kind with
  | .request | .register => m.decodes h.payload
  | .unregister =>
      (s.enterSession (s.findSession h.sequenceNr h.clientID)).mSessionId != INVALID_SESSION_ID

/-- A request that is accepted for its response gets to its handler under a valid sequence
number, and its client is connected if the handler looks it up. -/
def entryJustifies (cfg : Config) (h : DataRequest) (user : List UserCall) (s : CServer) : Bool :=
  h.sequenceNr != INVALID_SEQUENCE_NR &&
    cfg.requestMethods[h.requestId.toNat]?.all (fun m => s.delivers m h) &&
    (!looksUp cfg user (cfg.getResponse h.requestId) || s.isConnected h.clientID)

/-- The subscribers of an attribute that is invalid are all told so: they are connected. -/
def notifyJustifies (cfg : Config) (h : DataRequest) (s : CServer) : Bool :=
  !(cfg.attributes.contains h.requestId && s.attributeState h.requestId == .DATA_INVALID) ||
    s.isConnected h.clientID && s.findsAll cfg [.sendNotification h.requestId]

/-- The condition on a request: what it is accepted for gets to its handler, which finds the
clients that it looks up, and what it removes keeps no response busy. -/
def requestJustifies (cfg : Config) (h : DataRequest) (user : List UserCall) (s : CServer) :
    Bool :=
  match h.requestType with
  | .REQUEST =>
      s.isResponseDangling (cfg.getResponse h.requestId) ||
        s.findsAll cfg user &&
          (cfg.getResponse h.requestId == INVALID_ID || s.entryJustifies cfg h user)
  | .REQUEST_STOP_NOTIFY | .REQUEST_STOP_REGISTER_NOTIFY => s.sparesBusy h.clientID h.requestId
  | .REQUEST_STOP_ALL_NOTIFY => s.sparesBusy h.clientID INVALID_ID
  | .REQUEST_STOP_ALL_REGISTER_NOTIFY =>
      (s.findSession h.sequenceNr h.clientID).all (fun pos =>
        s.sessionIdAt pos != INVALID_SESSION_ID)
  | .REQUEST_NOTIFY | .REQUEST_REGISTER_NOTIFY => s.notifyJustifies cfg h
  | .REQUEST_LOAD_COMPONENT => true

/-- The condition on the end of a client: none of its requests keeps its response busy, and
the callbacks find the clients that they look up. -/
def dropJustifies (cfg : Config) (clientID : SPartyID) (user : List (List UserCall))
    (s : CServer) : Bool :=
  s.sparesBusy clientID INVALID_ID && s.findsAll cfg user.flatten

/-- The condition on a step: it removes no request that keeps its response busy, requests get
to their handlers, the clients that are looked up are connected, and only handlers unblock. -/
def stepJustifies (cfg : Config) (s : CServer) : Event → Bool
  | .disconnect clientID user => !s.isConnected clientID || s.dropJustifies cfg clientID user
  | .detached id user =>
      (s.mClientConnections.find? (fun conn => conn.id == id)).all (fun conn =>
        s.dropJustifies cfg conn.clientID user)
  | .dataRequest h user =>
      (s.isConnected h.clientID || s.sparesBusy h.clientID INVALID_ID) &&
        (protoMinorOf (s.findConnection h.clientID) != h.protoMinor ||
          s.requestJustifies cfg h user)
  | .user user => !user.contains .unblockRequest && s.findsAll cfg user
  | .unregisterInterface =>
      s.mClientConnections.all (fun conn => s.sparesBusy conn.clientID INVALID_ID)
  | .connect _ | .channelClosed _ | .createId => true

/-! ## The invariant -/

/-- What holds between two steps: the requests that keep a response busy and the unblocked
ones were delivered. -/
structure Busy (cfg : Config) (s : CServer) : Prop where
  justified : Justified cfg s
  unblocked : ∀ u ∈ s.mUnblockedSessions, s.pending cfg u.2 = true

/-- What holds besides in a handler: the notification that `unblockRequest` would take is
that of a delivered request. -/
def Current (cfg : Config) (s : CServer) : Prop :=
  s.mResponseId ≠ INVALID_ID →
    ∀ n, (s.mNotifications.filter s.isCurrent).getLast? = some n → s.pending cfg n = true

variable {cfg : Config} {s s' : CServer}

/-- The test that all lookups find their clients. -/
theorem findsAll_iff {user : List UserCall} :
    s.findsAll cfg user = true ↔ AllReached false (looksUp cfg user) s := by
  rw [findsAll, List.all_eq_true]
  refine forall₂_congr fun n _ => ?_
  rw [reaches, if_neg Bool.false_ne_true]
  cases looksUp cfg user n.notifyID <;> simp

/-- An entry that is reached is of a connected client. -/
theorem AllReached.connected {p : UInt32 → Bool} (h : AllReached false p s) {id : UInt32}
    (hid : p id = true) : ∀ n ∈ s.mNotifications, n.notifyID = id →
      s.isConnected n.clientID = true :=
  fun n hn hn' => isConnected_of_reaches (h n (mem_held.mpr (Or.inl hn)) (hn' ▸ hid))

/-- Fewer IDs are reached as well. -/
theorem AllReached.mono {p q : UInt32 → Bool} (h : AllReached false p s)
    (hq : ∀ id, q id = true → p id = true) : AllReached false q s :=
  fun n hn hn' => h n hn (hq n.notifyID hn')

/-- A call of the sequence looks its entries up. -/
theorem looksUp_of_mem {user : List UserCall} {c : UserCall} {id : UInt32} (hc : c ∈ user)
    (hid : c.lookup cfg = some id) : looksUp cfg user id = true :=
  List.any_eq_true.mpr ⟨c, hc, beq_iff_eq.mpr hid⟩

/-- Fewer calls look up less. -/
theorem looksUp_of_subset {user user' : List UserCall} (hsub : ∀ c ∈ user', c ∈ user)
    (id : UInt32) (h : looksUp cfg user' id = true) : looksUp cfg user id = true := by
  obtain ⟨c, hc, hid⟩ := List.any_eq_true.mp h
  exact List.any_eq_true.mpr ⟨c, hsub c hc, hid⟩

/-- A step that makes no response busy, and keeps the requests of those that stay so. -/
theorem Busy.of_keeps (h : Busy cfg s) (hlog : ∃ os, s'.log = s.log ++ os)
    (hstates : ∀ r, s'.mResponseStateMap r = true → s.mResponseStateMap r = true)
    (hkeep : ∀ n ∈ s.mNotifications, s'.mResponseStateMap n.notifyID = true →
      n.isOneShot = true → n ∈ s'.mNotifications)
    (hunblocked : ∀ u ∈ s'.mUnblockedSessions, u ∈ s.mUnblockedSessions) : Busy cfg s' where
  justified := by
    intro r hr
    obtain ⟨n, hn, rfl, hp⟩ := h.justified r (hstates r hr)
    have hshot : n.isOneShot = true := (Bool.and_eq_true_iff.mp hp).1
    exact ⟨n, hkeep n hn hr hshot, rfl, pending_append hlog hp⟩
  unblocked := fun u hu => pending_append hlog (h.unblocked u (hunblocked u hu))

/-- The entries and the busy states are all that counts. -/
theorem Busy.of_eq (h : Busy cfg s) (hn : s'.mNotifications = s.mNotifications)
    (hu : s'.mUnblockedSessions = s.mUnblockedSessions)
    (hr : s'.mResponseStateMap = s.mResponseStateMap) (hlog : ∃ os, s'.log = s.log ++ os) :
    Busy cfg s' :=
  h.of_keeps hlog (fun _ h' => hr ▸ h') (fun _ h' _ _ => hn ▸ h') (fun _ h' => hu ▸ h')

/-- The current request and the entries are all that counts. -/
theorem Current.of_eq (h : Current cfg s) (hr : s'.mResponseId = s.mResponseId)
    (hc : s'.mClientID = s.mClientID) (hn : s'.mNotifications = s.mNotifications)
    (hlog : ∃ os, s'.log = s.log ++ os) : Current cfg s' := by
  have hcurrent : s'.isCurrent = s.isCurrent := by
    funext n
    rw [isCurrent, isCurrent, hr, hc]
  intro hid n hlast
  rw [hcurrent, hn] at hlast
  exact pending_append hlog (h (hr ▸ hid) n hlast)

/-! ## Calls -/

/-- What is still busy when one response is not busy any more. -/
theorem of_cleared {p : Prop} [Decidable p] {b : Bool} (h : (if p then false else b) = true) :
    ¬ p ∧ b = true := by
  split at h
  · exact absurd h Bool.false_ne_true
  · exact ⟨‹_›, h⟩

/-- What the loop of a response leaves whose clients are connected. -/
theorem eq_answerAll_of_connected {l : ResponseLoop}
    (hc : ∀ n ∈ s.mNotifications, n.notifyID = l.responseId → s.isConnected n.clientID = true)
    (hrun : l.run cfg (s.setResponseState l.responseId false) = .ok s') :
    s' = l.answerAll (s.setResponseState l.responseId false) := by
  refine l.eq_answerAll_of_run (fun n hn hsel => hc n hn ?_) hrun
  rw [ResponseLoop.selects, Bool.and_eq_true, beq_iff_eq] at hsel
  exact hsel.1

/-- An answered response is not busy, and the requests for others stay. -/
theorem busy_run {l : ResponseLoop} (h : Busy cfg s)
    (hc : ∀ n ∈ s.mNotifications, n.notifyID = l.responseId → s.isConnected n.clientID = true)
    (hrun : l.run cfg (s.setResponseState l.responseId false) = .ok s') : Busy cfg s' := by
  obtain rfl := eq_answerAll_of_connected hc hrun
  refine h.of_keeps ⟨_, rfl⟩ (fun r hr => ?_) (fun n hn hr _ => ?_) (fun u hu => hu)
  · exact (of_cleared (p := r = l.responseId) hr).2
  · have hne : n.notifyID ≠ l.responseId := (of_cleared (p := n.notifyID = l.responseId) hr).1
    refine List.mem_filter.mpr ⟨hn, ?_⟩
    rw [ResponseLoop.stays, ResponseLoop.answer, ResponseLoop.selects, beq_eq_false_iff_ne.mpr hne]
    rfl

/-- A response that is sent leaves the current request justified. -/
theorem current_run {l : ResponseLoop} (h : Current cfg s)
    (hc : ∀ n ∈ s.mNotifications, n.notifyID = l.responseId → s.isConnected n.clientID = true)
    (hrun : l.run cfg (s.setResponseState l.responseId false) = .ok s') : Current cfg s' := by
  obtain rfl := eq_answerAll_of_connected hc hrun
  intro hid n hlast
  by_cases hr : s.mResponseId = l.responseId
  · exact absurd (if_pos hr) hid
  · have hresponse : (l.answerAll (s.setResponseState l.responseId false)).mResponseId =
        s.mResponseId := if_neg hr
    have hcurrent : (l.answerAll (s.setResponseState l.responseId false)).isCurrent =
        s.isCurrent := by
      funext m
      rw [isCurrent, isCurrent, hresponse]
      rfl
    -- the loop removes no entry of the current request
    have hfilter : (l.answerAll (s.setResponseState l.responseId false)).mNotifications.filter
        s.isCurrent = s.mNotifications.filter s.isCurrent := by
      refine (List.filter_filter).trans (List.filter_congr (fun m _ => ?_))
      cases hm : s.isCurrent m with
      | false => rfl
      | true =>
          rw [isCurrent, Bool.and_eq_true, Bool.and_eq_true, beq_iff_eq] at hm
          have hne : (m.notifyID == l.responseId) = false :=
            beq_eq_false_iff_ne.mpr (hm.1.1 ▸ hr)
          rw [ResponseLoop.stays, ResponseLoop.answer, ResponseLoop.selects, hne]
          rfl
    rw [hcurrent, hfilter] at hlast
    exact pending_append ⟨_, rfl⟩ (h (hresponse ▸ hid) n hlast)

/-- A notification of connected clients takes no busy entry away. -/
theorem busy_sendNotification {id : UInt32} (h : Busy cfg s)
    (hc : ∀ n ∈ s.mNotifications, n.notifyID = id → s.isConnected n.clientID = true)
    (hs : s.sendNotification cfg id = .ok s') : Busy cfg s' := by
  obtain ⟨ms, rfl, -⟩ := sendNotification_of_connected hc hs
  exact h.of_eq rfl rfl rfl ⟨_, rfl⟩

/-- Nor the one of the current request. -/
theorem current_sendNotification {id : UInt32} (h : Current cfg s)
    (hc : ∀ n ∈ s.mNotifications, n.notifyID = id → s.isConnected n.clientID = true)
    (hs : s.sendNotification cfg id = .ok s') : Current cfg s' := by
  obtain ⟨ms, rfl, -⟩ := sendNotification_of_connected hc hs
  exact h.of_eq rfl rfl rfl ⟨_, rfl⟩

/-- What `sendError` keeps, it keeps as an update or as a response. -/
theorem sendError_cases {id : UInt32} (hs : s.sendError cfg id = .ok s') :
    s' = s ∨ (UserCall.lookup cfg (.sendError id) = some id ∧
      ∃ f, sendNotification cfg id { s with attributeState := f } = .ok s') ∨
      ∃ l : ResponseLoop, UserCall.lookup cfg (.sendError id) = some l.responseId ∧
        l.run cfg (s.setResponseState l.responseId false) = .ok s' := by
  rw [sendError] at hs
  rw [UserCall.lookup]
  split at hs
  · next hattr =>
    obtain ⟨state, _, hs⟩ := Partial.bind_eq_ok hs
    split at hs
    · exact Or.inr (Or.inl ⟨by rw [if_pos hattr], _, hs⟩)
    · exact Or.inl (Except.ok.inj hs).symm
  · next hattr =>
    dsimp only at hs
    split at hs
    · exact Or.inr (Or.inr ⟨⟨errorResponse cfg id, id, errorType id, true⟩,
        by rw [if_neg hattr], (Partial.guard_eq_ok hs).2⟩)
    · exact Or.inl (Except.ok.inj hs).symm

/-- An unblocked request is held elsewhere. -/
theorem busy_unblockRequest {r : Int32 × CServer} (h : Busy cfg s) (hc : Current cfg s)
    (hs : s.unblockRequest cfg = .ok r) : Busy cfg r.2 := by
  rcases unblockRequest_cases hs with rfl | ⟨hid, hr⟩
  · exact h
  · rcases takeCurrent_cases s with ⟨htake, -⟩ | ⟨front, n, back, hn, hcur, hback, htake⟩
    · rw [htake] at hr
      subst hr
      refine h.of_keeps ⟨[], (List.append_nil _).symm⟩
        (fun r hr => (of_cleared (p := r = s.mResponseId) hr).2) (fun _ h' _ _ => h')
        (fun _ h' => h')
    · rw [htake] at hr
      have hpending : s.pending cfg n = true := by
        refine hc hid n ?_
        have hnone : back.filter s.isCurrent = [] :=
          List.filter_eq_nil_iff.mpr (fun m hm => by simp [hback m hm])
        rw [hn, List.filter_append, List.filter_cons_of_pos hcur, hnone,
          List.getLast?_append, List.getLast?_singleton]
        rfl
      subst hr
      refine ⟨fun r hr => ?_, fun u hu => ?_⟩
      · obtain ⟨hne, hold⟩ := of_cleared (p := r = s.mResponseId) hr
        obtain ⟨m, hm, rfl, hp⟩ := h.justified r hold
        refine ⟨m, ?_, rfl, hp⟩
        -- the entry that is taken is one for the response that is not busy any more
        rw [hn, List.mem_append, List.mem_cons] at hm
        rcases hm with hm | rfl | hm
        · exact List.mem_append_left _ hm
        · rw [isCurrent, Bool.and_eq_true, Bool.and_eq_true, beq_iff_eq] at hcur
          exact absurd hcur.1.1 hne
        · exact List.mem_append_right _ hm
      · rcases List.mem_append.mp hu with hu | hu
        · exact h.unblocked u (List.mem_filter.mp hu).1
        · rw [List.mem_singleton.mp hu]
          exact hpending

/-- And is current no more. -/
theorem current_unblockRequest {r : Int32 × CServer} (h : Current cfg s)
    (hs : s.unblockRequest cfg = .ok r) : Current cfg r.2 := by
  rcases unblockRequest_cases hs with rfl | ⟨-, rfl⟩
  · exact h
  · exact fun hid => absurd rfl hid

/-- An entry that is put back is justified as before. -/
theorem busy_prepareResponse {handle : Int32} (h : Busy cfg s)
    (hs : s.prepareResponse cfg handle = .ok s') : Busy cfg s' := by
  rcases prepareResponse_cases hs with rfl | ⟨u, hu, rfl⟩
  · exact h
  · have hpending := h.unblocked u (List.mem_of_find?_eq_some hu)
    refine ⟨fun r hr => ?_, fun v hv => h.unblocked v (List.mem_filter.mp hv).1⟩
    by_cases heq : r = u.2.notifyID
    · exact ⟨u.2, List.mem_append_right _ (List.mem_singleton_self u.2), heq.symm, hpending⟩
    · have hold : s.mResponseStateMap r = true := (if_neg heq).symm.trans hr
      obtain ⟨n, hn, hid, hp⟩ := h.justified r hold
      exact ⟨n, List.mem_append_left _ hn, hid, hp⟩

/-- And current. -/
theorem current_prepareResponse {handle : Int32} (hb : Busy cfg s) (h : Current cfg s)
    (hs : s.prepareResponse cfg handle = .ok s') : Current cfg s' := by
  rcases prepareResponse_cases hs with rfl | ⟨u, hu, rfl⟩
  · exact h
  · have hpending := hb.unblocked u (List.mem_of_find?_eq_some hu)
    have hsession : u.2.sessionId = INVALID_SESSION_ID := by
      have hshot := (Bool.and_eq_true_iff.mp hpending).1
      rw [Notification.isOneShot, Bool.and_eq_true, beq_iff_eq] at hshot
      exact hshot.2
    -- the entry that is put back is the last one of its request
    intro _ n hlast
    rw [setResponseState, List.filter_append, List.filter_cons_of_pos (by
      simp [isCurrent, hsession, SPartyID.opEq]), List.filter_nil, List.getLast?_append,
      List.getLast?_singleton] at hlast
    exact Option.some.inj hlast ▸ hpending

/-- A call whose clients are connected. -/
theorem busy_call {c : UserCall} (h : Busy cfg s) (hc : c = .unblockRequest → Current cfg s)
    (hfind : ∀ id, c.lookup cfg = some id → ∀ n ∈ s.mNotifications, n.notifyID = id →
      s.isConnected n.clientID = true)
    (hs : call cfg s c = .ok s') : Busy cfg s' := by
  cases c with
  | unblockRequest =>
      obtain ⟨r, hr, hs⟩ := Partial.bind_eq_ok hs
      exact Except.ok.inj hs ▸ busy_unblockRequest h (hc rfl) hr
  | prepareResponse handle => exact busy_prepareResponse h hs
  | response id =>
      exact busy_run (l := ⟨id, id, .RESULT_OK, false⟩) h (hfind id rfl) (Partial.guard_eq_ok hs).2
  | sendError id =>
      rcases sendError_cases hs with rfl | ⟨hid, f, hf⟩ | ⟨l, hid, hl⟩
      · exact h
      · exact busy_sendNotification (s := { s with attributeState := f })
          (h.of_eq rfl rfl rfl ⟨[], (List.append_nil _).symm⟩) (hfind id hid) hf
      · exact busy_run h (hfind l.responseId hid) hl
  | setAttributeState id state =>
      exact Except.ok.inj hs ▸ h.of_eq rfl rfl rfl ⟨[], (List.append_nil _).symm⟩
  | sendNotification id => exact busy_sendNotification h (hfind id rfl) hs
  | addActiveSession sessionId =>
      exact Except.ok.inj hs ▸ h.of_eq rfl rfl rfl ⟨[], (List.append_nil _).symm⟩
  | clearActiveSessions =>
      exact Except.ok.inj hs ▸ h.of_eq rfl rfl rfl ⟨[], (List.append_nil _).symm⟩

/-- A call whose lookups find their clients keeps the current request justified. -/
theorem current_call {c : UserCall} (hb : Busy cfg s) (h : Current cfg s)
    (hfind : ∀ id, c.lookup cfg = some id → ∀ n ∈ s.mNotifications, n.notifyID = id →
      s.isConnected n.clientID = true)
    (hs : call cfg s c = .ok s') : Current cfg s' := by
  cases c with
  | unblockRequest =>
      obtain ⟨r, hr, hs⟩ := Partial.bind_eq_ok hs
      exact Except.ok.inj hs ▸ current_unblockRequest h hr
  | prepareResponse handle => exact current_prepareResponse hb h hs
  | response id =>
      exact current_run (l := ⟨id, id, .RESULT_OK, false⟩) h (hfind id rfl)
        (Partial.guard_eq_ok hs).2
  | sendError id =>
      rcases sendError_cases hs with rfl | ⟨hid, f, hf⟩ | ⟨l, hid, hl⟩
      · exact h
      · exact current_sendNotification
          (s := { s with attributeState := f })
          (h.of_eq rfl rfl rfl ⟨[], (List.append_nil _).symm⟩) (hfind id hid) hf
      · exact current_run h (hfind l.responseId hid) hl
  | setAttributeState id state =>
      exact Except.ok.inj hs ▸ h.of_eq rfl rfl rfl ⟨[], (List.append_nil _).symm⟩
  | sendNotification id => exact current_sendNotification h (hfind id rfl) hs
  | addActiveSession sessionId =>
      exact Except.ok.inj hs ▸ h.of_eq rfl rfl rfl ⟨[], (List.append_nil _).symm⟩
  | clearActiveSessions =>
      exact Except.ok.inj hs ▸ h.of_eq rfl rfl rfl ⟨[], (List.append_nil _).symm⟩

/-- A call keeps the clients connected that the calls behind it look up. -/
theorem allReached_tail {c : UserCall} {user : List UserCall}
    (h : AllReached false (looksUp cfg (c :: user)) s) (hs : call cfg s c = .ok s') :
    AllReached false (looksUp cfg user) s' :=
  (h.of_moves (moves_call hs)).mono (looksUp_of_subset fun _ hc => List.mem_cons_of_mem c hc)

/-- So does any sequence of them. -/
theorem busy_calls {user : List UserCall} (h : Busy cfg s) (hc : Current cfg s)
    (hfind : AllReached false (looksUp cfg user) s) (hs : calls cfg s user = .ok s') :
    Busy cfg s' ∧ Current cfg s' := by
  induction user generalizing s with
  | nil => exact Except.ok.inj hs ▸ ⟨h, hc⟩
  | cons c user ih =>
      obtain ⟨t, ht, hrest⟩ := Partial.bind_eq_ok hs
      have hone := fun id (hid : c.lookup cfg = some id) =>
        hfind.connected (looksUp_of_mem List.mem_cons_self hid)
      exact ih (busy_call h (fun _ => hc) hone ht) (current_call h hc hone ht)
        (allReached_tail hfind ht) hrest

/-- Outside of a handler no request is current. -/
theorem busy_calls_outside {user : List UserCall} (h : Busy cfg s)
    (hu : UserCall.unblockRequest ∉ user) (hfind : AllReached false (looksUp cfg user) s)
    (hs : calls cfg s user = .ok s') : Busy cfg s' := by
  induction user generalizing s with
  | nil => exact Except.ok.inj hs ▸ h
  | cons c user ih =>
      obtain ⟨t, ht, hrest⟩ := Partial.bind_eq_ok hs
      have hne : c ≠ .unblockRequest := fun heq => hu (heq ▸ List.mem_cons_self)
      have hone := fun id (hid : c.lookup cfg = some id) =>
        hfind.connected (looksUp_of_mem List.mem_cons_self hid)
      exact ih (busy_call h (fun heq => absurd heq hne) hone ht)
        (fun hmem => hu (List.mem_cons_of_mem c hmem)) (allReached_tail hfind ht) hrest

end CServer

end Dsi
