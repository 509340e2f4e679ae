import Dsi.Server.Sessions

/-!
# Dsi.Server.Generator

The counter behind `createId` after any number of calls.  It counts through all 32-bit
values, the reserved ones among them, and comes back to IDs that are still in use.  What
saves a process is that no ID is in use for a whole round, and that the IDs for connections,
sessions and unblocked requests are not taken where the counter is reserved.
-/

namespace Dsi

namespace CServer

open Sequence

/-! ## Sequence numbers -/

/-- Two values of the counter give one ID if and only if they agree modulo 2 ^ 32. -/
theorem idOf_eq_iff {i j : Nat} : idOf i = idOf j ↔ i % 2 ^ 32 = j % 2 ^ 32 := by
  constructor
  · intro h
    have hbits : UInt32.ofNat i = UInt32.ofNat j := by
      have := congrArg Int32.toUInt32 h
      simpa [idOf] using this
    simpa using congrArg UInt32.toNat hbits
  · intro h
    have hbits : UInt32.ofNat i = UInt32.ofNat j := UInt32.toNat_inj.mp (by simpa using h)
    rw [idOf, hbits, idOf]

/-- The counter gives the invalid sequence number at the multiples of 2 ^ 32. -/
theorem idOf_eq_sequenceNr {i : Nat} : idOf i = INVALID_SEQUENCE_NR ↔ i % 2 ^ 32 = 0 :=
  idOf_eq_iff (j := 0)

/-- And the invalid session ID just before them. -/
theorem idOf_eq_sessionId {i : Nat} : idOf i = INVALID_SESSION_ID ↔ i % 2 ^ 32 = 2 ^ 32 - 1 :=
  idOf_eq_iff (j := 2 ^ 32 - 1)

/-- The sequence number that `CRequestWriter` gives a request, and the counter behind it. -/
def writtenNr (sequenceNr : Int32) (nextID : Nat) : Int32 × Nat :=
  if sequenceNr = INVALID_SEQUENCE_NR then (idOf nextID, nextID + 1) else (sequenceNr, nextID)

/-- The entries of a request that is sent without a sequence number of its own, when the
counter is here, are gone behind every loop that answers their client. -/
def AnsweredOnce (nextID : Nat) : Prop :=
  ∀ (cfg : Config) (h : DataRequest) (l : ResponseLoop) (s s' : CServer),
    h.sequenceNr = (writtenNr INVALID_SEQUENCE_NR nextID).1 →
    h.notification l.responseId ∈ s.mNotifications → s.isLive h.clientID = true →
    l.run cfg s = .ok s' → h.notification l.responseId ∉ s'.mNotifications

/-! ## The IDs in use -/

/-- The IDs of the connections, the sessions and the unblocked requests of a server, and
those of the sessions that its notifications are in. -/
def ids (s : CServer) : List Int32 :=
  s.mClientConnections.map (·.id) ++ s.mSessions.map (·.sessionId) ++
    s.mUnblockedSessions.map (·.1) ++
    (s.held.map (·.sessionId)).filter (· != INVALID_SESSION_ID)

section Taking

variable (cfg : Config) (q : CServer → Bool)

/-- The call takes an ID. -/
def takesID (s : CServer) : UserCall → Bool
  | .unblockRequest =>
      (s.mCurrentSequenceNr != INVALID_SEQUENCE_NR || cfg.NDEBUG) &&
        s.mResponseId != INVALID_ID && s.mNotifications.any s.isCurrent
  | _ => false

/-- Whenever one of the calls takes an ID, `q` holds of the server. -/
def callsTake : CServer → List UserCall → Bool
  | _, [] => true
  | s, c :: user =>
      (!s.takesID cfg c || q s) && (call cfg s c).toOption.all (fun s => callsTake s user)

/-- The same for the handler of a request. -/
def handlerTakes (h : DataRequest) (user : List UserCall) (s : CServer) : Bool :=
  callsTake cfg q (s.emit (.called h.requestId s.mClientID h.sequenceNr s.mSessionId)) user

/-- The same for `readAndCall`. -/
def readTakes (m : RequestMethod) (h : DataRequest) (user : List UserCall) (s : CServer) : Bool :=
  !m.decodes h.payload || s.handlerTakes cfg q h user

/-- The same for `processRequest` of one method. -/
def methodTakes (m : RequestMethod) (h : DataRequest) (user : List UserCall) (s : CServer) :
    Bool :=
  let session := s.findSession h.sequenceNr s.mClientID
  let t := s.enterSession session
  match m.kind with
  | .request => s.readTakes cfg q m h user
  | .register =>
      (t.mSessionId != INVALID_SESSION_ID || q t) &&
        (t.openSession cfg h session).toOption.all (fun u => u.readTakes cfg q m h user)
  | .unregister => t.mSessionId == INVALID_SESSION_ID || t.handlerTakes cfg q h user

/-- The same for a `REQUEST`. -/
def requestTakes (h : DataRequest) (user : List UserCall) (s : CServer) : Bool :=
  s.isResponseDangling (cfg.getResponse h.requestId) ||
    cfg.requestMethods[h.requestId.toNat]?.all (fun m =>
      (s.acceptRequest h (cfg.getResponse h.requestId)).methodTakes cfg q m h user)

/-- The same for a notification that is set: a new session gets an ID. -/
def notifyTakes (h : DataRequest) (s : CServer) : Bool :=
  s.mNotifications.any (isSet h) || h.requestType != .REQUEST_REGISTER_NOTIFY ||
    (s.findSession h.sequenceNr h.clientID).isSome || q s

/-- The same for a data request. -/
def dataTakes (h : DataRequest) (user : List UserCall) (s : CServer) : Bool :=
  let r := s.findClientConnection h.clientID
  protoMinorOf r.1 != h.protoMinor ||
    match h.requestType with
    | .REQUEST => r.2.requestTakes cfg q h user
    | .REQUEST_NOTIFY | .REQUEST_REGISTER_NOTIFY => r.2.notifyTakes q h
    | _ => true

/-- The same for the loop of `removeAllSessions`. -/
def removeAllTakes (clientID : SPartyID) :
    List SessionData → List (List UserCall) → CServer → Bool
  | [], _, _ => true
  | sd :: sessions, user, s =>
      if SPartyID.opEq sd.clientID clientID then
        match sd.callback cfg with
        | none =>
            removeAllTakes clientID sessions user
              { s with mCurrentSequenceNr := INVALID_SEQUENCE_NR }
        | some o =>
            let t := { s.emit o with mCurrentSequenceNr := sd.sequenceNr }
            callsTake cfg q t (user.headD []) &&
              (calls cfg t (user.headD [])).toOption.all (fun u =>
                removeAllTakes clientID sessions user.tail
                  { u with mCurrentSequenceNr := INVALID_SEQUENCE_NR })
      else removeAllTakes clientID sessions user s

/-- The same for a client that is gone. -/
def dropTakes (clientID : SPartyID) (user : List (List UserCall)) (s : CServer) : Bool :=
  let t := s.removeNotification clientID INVALID_ID
  removeAllTakes cfg q clientID t.mSessions user { t with mClientID := clientID }

/-- Whenever the step takes an ID for a connection, a session or an unblocked request, `q`
holds of the server. -/
def stepTakes (s : CServer) : Event → Bool
  | .connect r => r.tcp && !cfg.mTCPIPEnabled || q s
  | .disconnect clientID user =>
      (s.findConnection clientID).all (fun conn =>
        dropTakes cfg q conn.clientID user
          (if conn.notificationID ≠ 0 then s.emit (.clearNotification conn.notificationID) else s))
  | .detached id user =>
      (s.mClientConnections.find? (fun conn => conn.id == id)).all (fun conn =>
        dropTakes cfg q conn.clientID user s)
  | .dataRequest h user => s.dataTakes cfg q h user
  | .user user => callsTake cfg q s user
  | .channelClosed _ | .unregisterInterface | .createId => true

end Taking

/-! ## Where IDs come from -/

/-- The IDs in use are those of connections, sessions, unblocked requests and entries. -/
theorem mem_ids {s : CServer} {i : Int32} : i ∈ s.ids ↔
    (∃ conn ∈ s.mClientConnections, conn.id = i) ∨ (∃ sd ∈ s.mSessions, sd.sessionId = i) ∨
      (∃ u ∈ s.mUnblockedSessions, u.1 = i) ∨
      (∃ n ∈ s.held, n.sessionId = i) ∧ i ≠ INVALID_SESSION_ID := by
  simp only [ids, List.mem_append, List.mem_map, List.mem_filter, bne_iff_ne, ne_eq, or_assoc]

/-- The counter gives the ID between the two states. -/
def Drawn (s s' : CServer) (i : Int32) : Prop :=
  ∃ c, s.nextID ≤ c ∧ c < s'.nextID ∧ idOf c = i

/-- The IDs in use behind a step were in use, or the counter gave them in it. -/
structure Draws (s s' : CServer) : Prop where
  counter : s.nextID ≤ s'.nextID
  ids : ∀ i ∈ s'.ids, i ∈ s.ids ∨ Drawn s s' i

namespace Draws

variable {s t u : CServer}

theorem refl (s : CServer) : Draws s s := ⟨Nat.le_refl _, fun _ hi => .inl hi⟩

theorem trans (h : Draws s t) (h' : Draws t u) : Draws s u where
  counter := h.counter.trans h'.counter
  ids i hi := by
    rcases h'.ids i hi with hi | ⟨c, hle, hlt, heq⟩
    · rcases h.ids i hi with hi | ⟨c, hle, hlt, heq⟩
      · exact .inl hi
      · exact .inr ⟨c, hle, hlt.trans_le h'.counter, heq⟩
    · exact .inr ⟨c, h.counter.trans hle, hlt, heq⟩

/-- It is enough to look at each of the four places. -/
theorem of_parts (hcounter : s.nextID ≤ t.nextID)
    (hconn : ∀ conn ∈ t.mClientConnections, conn.id ∈ s.ids ∨ Drawn s t conn.id)
    (hsess : ∀ sd ∈ t.mSessions, sd.sessionId ∈ s.ids ∨ Drawn s t sd.sessionId)
    (hunblocked : ∀ v ∈ t.mUnblockedSessions, v.1 ∈ s.ids ∨ Drawn s t v.1)
    (hheld : ∀ n ∈ t.held, n.sessionId ≠ INVALID_SESSION_ID →
      n.sessionId ∈ s.ids ∨ Drawn s t n.sessionId) : Draws s t := by
  refine ⟨hcounter, fun i hi => ?_⟩
  rcases mem_ids.mp hi with ⟨conn, hmem, rfl⟩ | ⟨sd, hmem, rfl⟩ | ⟨v, hmem, rfl⟩ |
    ⟨⟨n, hmem, rfl⟩, hne⟩
  · exact hconn conn hmem
  · exact hsess sd hmem
  · exact hunblocked v hmem
  · exact hheld n hmem hne

/-- A step that brings nothing new. -/
theorem of_subset (hcounter : s.nextID ≤ t.nextID)
    (hconn : ∀ conn ∈ t.mClientConnections, conn ∈ s.mClientConnections)
    (hsess : ∀ sd ∈ t.mSessions, sd ∈ s.mSessions)
    (hunblocked : ∀ v ∈ t.mUnblockedSessions, v ∈ s.mUnblockedSessions)
    (hheld : ∀ n ∈ t.held, n ∈ s.held) : Draws s t :=
  of_parts hcounter (fun conn hmem => .inl (mem_ids.mpr (.inl ⟨conn, hconn conn hmem, rfl⟩)))
    (fun sd hmem => .inl (mem_ids.mpr (.inr (.inl ⟨sd, hsess sd hmem, rfl⟩))))
    (fun v hmem => .inl (mem_ids.mpr (.inr (.inr (.inl ⟨v, hunblocked v hmem, rfl⟩)))))
    (fun n hmem hne => .inl (mem_ids.mpr (.inr (.inr (.inr ⟨⟨n, hheld n hmem, rfl⟩, hne⟩)))))

/-- Changes that the IDs do not depend on. -/
theorem of_eq (hcounter : s.nextID ≤ t.nextID)
    (hconn : t.mClientConnections = s.mClientConnections) (hsess : t.mSessions = s.mSessions)
    (hunblocked : t.mUnblockedSessions = s.mUnblockedSessions)
    (hnotifications : t.mNotifications = s.mNotifications) : Draws s t :=
  of_subset hcounter (hconn ▸ fun _ => id) (hsess ▸ fun _ => id) (hunblocked ▸ fun _ => id)
    (by rw [held, hnotifications, hunblocked, held]; exact fun _ => id)

/-- A server that loses entries uses no new ID. -/
theorem of_shrinks (h : Shrinks s t) : Draws s t :=
  of_subset (Nat.le_of_eq h.nextID.symm) (h.connections ▸ fun _ => id) (h.sessions ▸ fun _ => id)
    (h.unblocked ▸ fun _ => id) (Moves.of_shrinks h).held

/-- An entry is added that is in no session, in one that is there or in a new one. -/
theorem append (h : Draws s t) {n : Notification} (hn : n.sessionId = INVALID_SESSION_ID ∨
    n.sessionId ∈ s.ids ∨ Drawn s t n.sessionId) :
    Draws s { t with mNotifications := t.mNotifications ++ [n] } := by
  refine .of_parts h.counter
    (fun conn hmem => h.ids _ (mem_ids.mpr (.inl ⟨conn, hmem, rfl⟩)))
    (fun sd hmem => h.ids _ (mem_ids.mpr (.inr (.inl ⟨sd, hmem, rfl⟩))))
    (fun v hmem => h.ids _ (mem_ids.mpr (.inr (.inr (.inl ⟨v, hmem, rfl⟩)))))
    (fun m hmem hne => ?_)
  have hcases : m ∈ t.held ∨ m = n := by
    rcases mem_held.mp hmem with hin | hin
    · exact (List.mem_append.mp hin).imp (fun hold => mem_held.mpr (.inl hold))
        List.mem_singleton.mp
    · exact .inl (mem_held.mpr (.inr hin))
  rcases hcases with hold | rfl
  · exact h.ids _ (mem_ids.mpr (.inr (.inr (.inr ⟨⟨m, hold, rfl⟩, hne⟩))))
  · exact hn.resolve_left hne

/-- A step that moves the entries about and pushes sessions. -/
theorem of_moves (h : Moves s t) (hcounter : s.nextID ≤ t.nextID)
    (hunblocked : t.mUnblockedSessions = s.mUnblockedSessions)
    (hsess : ∀ sd ∈ t.mSessions, sd.sessionId ∈ s.ids ∨ Drawn s t sd.sessionId) : Draws s t :=
  of_parts hcounter
    (fun conn hmem => .inl (mem_ids.mpr (.inl ⟨conn, h.connections ▸ hmem, rfl⟩))) hsess
    (fun v hmem => .inl (mem_ids.mpr (.inr (.inr (.inl ⟨v, hunblocked ▸ hmem, rfl⟩)))))
    (fun n hmem hne =>
      .inl (mem_ids.mpr (.inr (.inr (.inr ⟨⟨n, h.held n hmem, rfl⟩, hne⟩)))))

end Draws

/-- What `createId` returns is drawn. -/
theorem drawn_createId {s s' : CServer} (h : s'.nextID = s.nextID + 1) :
    Drawn s s' s.createId.1 :=
  ⟨s.nextID, Nat.le_refl _, h ▸ Nat.lt_succ_self _, rfl⟩

/-- The ID of a session is in use. -/
theorem mem_ids_session {s : CServer} {sd : SessionData} (h : sd ∈ s.mSessions) :
    sd.sessionId ∈ s.ids :=
  mem_ids.mpr (.inr (.inl ⟨sd, h, rfl⟩))

section Calls

variable {cfg : Config} {s s' : CServer}

/-- The entry that is taken was held before. -/
theorem draws_takeCurrent (s : CServer) : Draws s s.takeCurrent.2 := by
  have hheld := (moves_takeCurrent s).held
  rcases takeCurrent_cases s with ⟨hnone, _⟩ | ⟨front, n, back, _, _, _, hsome⟩
  · rw [hnone]
    exact .refl s
  · rw [hsome] at hheld ⊢
    refine .of_parts (Nat.le_succ _) (fun conn hmem => ?_) (fun sd hmem => ?_) (fun v hmem => ?_)
      (fun m hmem hne => .inl (mem_ids.mpr (.inr (.inr (.inr ⟨⟨m, hheld m hmem, rfl⟩, hne⟩)))))
    · exact .inl (mem_ids.mpr (.inl ⟨conn, hmem, rfl⟩))
    · exact .inl (mem_ids_session hmem)
    · rcases List.mem_append.mp hmem with hold | hnew
      · exact .inl (mem_ids.mpr (.inr (.inr (.inl ⟨v, (List.mem_filter.mp hold).1, rfl⟩))))
      · rw [List.mem_singleton.mp hnew]
        exact .inr (drawn_createId rfl)

/-- An unblocked request is held under the next ID. -/
theorem draws_unblockRequest {r : Int32 × CServer} (h : s.unblockRequest cfg = .ok r) :
    Draws s r.2 := by
  rcases unblockRequest_cases h with rfl | ⟨-, rfl⟩
  · exact .refl s
  · exact (draws_takeCurrent s).trans (.of_eq (Nat.le_refl _) rfl rfl rfl rfl)

/-- An entry that is put back keeps its session. -/
theorem draws_prepareResponse {handle : Int32} (h : s.prepareResponse cfg handle = .ok s') :
    Draws s s' := by
  have hmoves := moves_prepareResponse h
  rcases prepareResponse_cases h with rfl | ⟨_, -, rfl⟩
  · exact .refl _
  · exact .of_subset (Nat.le_refl _) (fun _ => id) (fun _ => id)
      (fun _ hmem => (List.mem_filter.mp hmem).1) hmoves.held

/-- A call of the application draws at most the handle of an unblocked request. -/
theorem draws_call {c : UserCall} (h : call cfg s c = .ok s') : Draws s s' := by
  cases c with
  | unblockRequest =>
      obtain ⟨r, hr, h⟩ := Partial.bind_eq_ok h
      exact Except.ok.inj h ▸ draws_unblockRequest hr
  | prepareResponse handle => exact draws_prepareResponse h
  | response id => exact .of_shrinks (shrinks_responseMethod h)
  | sendError id => exact .of_shrinks (shrinks_sendError h)
  | setAttributeState id state =>
      exact Except.ok.inj h ▸ .of_eq (Nat.le_refl _) rfl rfl rfl rfl
  | sendNotification id => exact .of_shrinks (shrinks_sendNotification h)
  | addActiveSession sessionId =>
      exact Except.ok.inj h ▸ .of_eq (Nat.le_refl _) rfl rfl rfl rfl
  | clearActiveSessions => exact Except.ok.inj h ▸ .of_eq (Nat.le_refl _) rfl rfl rfl rfl

/-- Calls of the application draw handles only. -/
theorem draws_calls {user : List UserCall} (h : calls cfg s user = .ok s') : Draws s s' := by
  induction user generalizing s with
  | nil => exact Except.ok.inj h ▸ .refl s
  | cons c user ih =>
      obtain ⟨t, ht, hrest⟩ := Partial.bind_eq_ok h
      exact (draws_call ht).trans (ih hrest)

end Calls

section Requests

variable {cfg : Config} {h : DataRequest} {user : List UserCall} {s s' : CServer}

/-- A new session has the ID that the counter gives it, whatever its copies are like. -/
theorem mem_pushSession {sd sd' : SessionData} (hmem : sd' ∈ (s.pushSession cfg sd).mSessions) :
    sd'.sessionId = sd.sessionId ∨ ∃ t ∈ s.mSessions, sd'.sessionId = t.sessionId := by
  rw [pushSession] at hmem
  split at hmem
  · rcases List.mem_append.mp hmem with hold | hnew
    · exact .inr ⟨sd', hold, rfl⟩
    · rw [List.mem_singleton.mp hnew]
      exact .inl rfl
  · obtain ⟨i, hi, rfl⟩ := List.mem_mapIdx.mp hmem
    rcases List.mem_append.mp (List.getElem_mem hi) with hold | hnew
    · exact .inr ⟨_, hold, rfl⟩
    · rw [List.mem_singleton.mp hnew]
      exact .inl rfl

/-- A session that is made gets a new ID. -/
theorem draws_pushSession {sd : SessionData} (hsd : sd.sessionId = s.createId.1) :
    Draws s (s.createId.2.pushSession cfg sd) := by
  have hmem : ∀ sd' ∈ (s.createId.2.pushSession cfg sd).mSessions,
      sd'.sessionId = sd.sessionId ∨ ∃ t ∈ s.mSessions, sd'.sessionId = t.sessionId :=
    fun sd' => mem_pushSession
  obtain ⟨l, k, c, hpush⟩ := pushSession_eq cfg sd s.createId.2
  rw [hpush] at hmem ⊢
  refine .of_moves (.of_eq rfl rfl rfl) (Nat.le_succ _) rfl (fun sd' hin => ?_)
  rcases hmem sd' hin with heq | ⟨t, ht, heq⟩
  · rw [heq, hsd]
    exact .inr (drawn_createId rfl)
  · rw [heq]
    exact .inl (mem_ids_session ht)

/-- A handler draws what its calls do. -/
theorem draws_callHandler (hs : s.callHandler cfg h user = .ok s') : Draws s s' := by
  rw [callHandler] at hs
  refine Draws.trans ?_ (draws_calls hs)
  exact .of_eq (Nat.le_refl _) rfl rfl rfl rfl

/-- So does one whose payload is read first. -/
theorem draws_readAndCall {m : RequestMethod} (hs : s.readAndCall cfg m h user = .ok s') :
    Draws s s' := by
  rw [readAndCall] at hs
  split at hs
  · exact draws_callHandler hs
  · exact Except.ok.inj hs ▸ .refl s

/-- To enter a session draws nothing. -/
theorem draws_enterSession (session : Option Nat) (s : CServer) :
    Draws s (s.enterSession session) := by
  unfold enterSession
  split <;> exact .of_eq (Nat.le_refl _) rfl rfl rfl rfl

/-- A session that is opened draws its ID. -/
theorem draws_openSession {session : Option Nat} (hs : s.openSession cfg h session = .ok s') :
    Draws s s' := by
  unfold openSession at hs
  split at hs
  · rw [← Except.ok.inj hs]
    exact (draws_pushSession rfl).trans (.of_eq (Nat.le_refl _) rfl rfl rfl rfl)
  · split at hs
    · exact absurd hs (by simp)
    · rw [← Except.ok.inj hs]
      refine .of_moves (.of_eq rfl rfl rfl) (Nat.le_refl _) rfl (fun sd hin => .inl ?_)
      -- only the update ID of a session is written
      rw [List.mem_iff_getElem?] at hin
      obtain ⟨j, hj⟩ := hin
      rw [List.getElem?_modify] at hj
      obtain ⟨sd', hsd', rfl⟩ := Option.map_eq_some_iff.mp hj
      have hsame := mem_ids_session (List.mem_of_getElem? hsd')
      split <;> exact hsame

/-- A session that goes gives up its ID. -/
theorem draws_removeSession (sessionId : Int32) (s : CServer) :
    Draws s (s.removeSession sessionId) :=
  .of_subset (Nat.le_refl _) (fun _ => id) (fun _ hmem => List.mem_of_mem_eraseP hmem)
    (fun _ => id) (moves_removeSession sessionId s).held

/-- So does one that ends with its callback. -/
theorem draws_endSession (hs : s.endSession cfg h user = .ok s') : Draws s s' := by
  rw [endSession] at hs
  split at hs
  · obtain ⟨t, ht, hs⟩ := Partial.bind_eq_ok hs
    rw [← Except.ok.inj hs]
    exact (draws_callHandler ht).trans (draws_removeSession _ t)
  · exact Except.ok.inj hs ▸ .refl s

/-- A request draws what its handler and its session do. -/
theorem draws_processRequest (hs : s.processRequest cfg h user = .ok s') : Draws s s' := by
  unfold processRequest at hs
  split at hs
  · exact Except.ok.inj hs ▸ .refl s
  · next m _ =>
    have henter := draws_enterSession (s.findSession h.sequenceNr s.mClientID) s
    unfold processMethod at hs
    cases hk : m.kind with
    | request =>
        rw [hk] at hs
        exact draws_readAndCall hs
    | register =>
        rw [hk] at hs
        obtain ⟨t, ht, hs⟩ := Partial.bind_eq_ok hs
        obtain ⟨u, hu, hs⟩ := Partial.bind_eq_ok hs
        rw [← Except.ok.inj hs]
        refine (henter.trans (draws_openSession ht)).trans ((draws_readAndCall hu).trans ?_)
        exact .of_eq (Nat.le_refl _) rfl rfl rfl rfl
    | unregister =>
        rw [hk] at hs
        obtain ⟨t, ht, hs⟩ := Partial.bind_eq_ok hs
        rw [← Except.ok.inj hs]
        exact (henter.trans (draws_endSession ht)).trans (.of_eq (Nat.le_refl _) rfl rfl rfl rfl)

/-- The search for a client draws nothing. -/
theorem draws_findClientConnection (c : SPartyID) (s : CServer) :
    Draws s (s.findClientConnection c).2 :=
  .of_shrinks (shrinks_findClientConnectionBy steady c s)

/-- An entry outside of all sessions is added. -/
theorem draws_acceptRequest (h : DataRequest) (responseId : UInt32) (s : CServer) :
    Draws s (s.acceptRequest h responseId) := by
  obtain ⟨f, hf⟩ := acceptRequest_eq h responseId s
  rw [hf]
  split
  · rw [List.append_nil]
    exact .of_eq (Nat.le_refl _) rfl rfl rfl rfl
  · have hentry := (Draws.refl s).append (n := h.notification responseId) (.inl rfl)
    exact hentry.trans (.of_eq (Nat.le_refl _) rfl rfl rfl rfl)

/-- The session that is found is in use. -/
theorem mem_ids_sessionIdAt {pos : Nat} {seqNr : Int32} {c : SPartyID}
    (hpos : s.findSession seqNr c = some pos) : s.sessionIdAt pos ∈ s.ids := by
  unfold findSession at hpos
  split at hpos
  · cases hpos
  · obtain ⟨front, sd, back, hl, rfl, _, _⟩ := lastIdx?_eq_some hpos
    have hsd : sd ∈ s.mSessions := by
      rw [hl]
      exact List.mem_append_right _ List.mem_cons_self
    have hat : s.sessionIdAt front.length = sd.sessionId := by
      rw [sessionIdAt, hl, List.getElem?_append_right (Nat.le_refl _), Nat.sub_self]
      rfl
    rw [hat]
    exact mem_ids_session hsd

/-- A subscription is held under the session that is found for it. -/
theorem draws_addNotification (cfg : Config) (h : DataRequest) (s : CServer) :
    Draws s (s.addNotification cfg h) := by
  unfold addNotification
  split
  · split
    · next pos hpos => exact (Draws.refl s).append (.inr (.inl (mem_ids_sessionIdAt hpos)))
    · have hpush : Draws s (s.createId.2.pushSession cfg
          { sessionId := s.createId.1, clientID := h.clientID, sequenceNr := h.sequenceNr }) :=
        draws_pushSession rfl
      refine hpush.append (.inr (.inr (drawn_createId ?_)))
      obtain ⟨l, k, c, hpushed⟩ := pushSession_eq cfg
        { sessionId := s.createId.1, clientID := h.clientID, sequenceNr := h.sequenceNr }
        s.createId.2
      rw [hpushed]
      rfl
  · exact (Draws.refl s).append (.inl rfl)

/-- A request is held under the session that is found for it. -/
theorem draws_handleRequest (hs : s.handleRequest cfg h user = .ok s') : Draws s s' := by
  rcases handleRequest_cases hs with ⟨-, hs⟩ | ⟨-, t, ht, rfl⟩
  · exact .of_shrinks (shrinks_sendErrorToClient hs)
  · exact ((draws_acceptRequest h _ s).trans (draws_processRequest ht)).trans
      (.of_eq (Nat.le_refl _) rfl rfl rfl rfl)

/-- A subscription that is handled draws what it adds. -/
theorem draws_handleNotify (hs : s.handleNotify cfg h = .ok s') : Draws s s' := by
  unfold handleNotify at hs
  dsimp only at hs
  have hadd : Draws s (if s.mNotifications.any (isSet h) then s else s.addNotification cfg h) := by
    split
    · exact .refl s
    · exact draws_addNotification cfg h s
  split at hs
  · exact hadd.trans (.of_shrinks (shrinks_sendAttribute hs))
  · exact Except.ok.inj hs ▸ hadd

/-- A session that is stopped draws nothing. -/
theorem draws_handleStopSession (h : DataRequest) (s : CServer) :
    Draws s (s.handleStopSession h) := by
  have hheld := (moves_handleStopSession h s).held
  unfold handleStopSession at hheld ⊢
  split at hheld
  · exact .of_subset (Nat.le_refl _) (fun _ => id) (fun _ => id) (fun _ => id) hheld
  · exact .refl s

/-- A data request draws what its kind does. -/
theorem draws_handleDataRequest (hs : s.handleDataRequest cfg h user = .ok s') : Draws s s' := by
  have hfind := draws_findClientConnection h.clientID s
  unfold handleDataRequest at hs
  dsimp only at hs
  split at hs
  · exact Except.ok.inj hs ▸ hfind
  · refine hfind.trans ?_
    unfold dispatchRequest at hs
    cases ht : h.requestType <;> rw [ht] at hs
    case REQUEST => exact draws_handleRequest hs
    case REQUEST_NOTIFY => exact draws_handleNotify hs
    case REQUEST_REGISTER_NOTIFY => exact draws_handleNotify hs
    case REQUEST_STOP_ALL_REGISTER_NOTIFY =>
        rw [← Except.ok.inj hs]
        exact draws_handleStopSession h _
    case REQUEST_LOAD_COMPONENT => exact Except.ok.inj hs ▸ .refl _
    all_goals
      rw [← Except.ok.inj hs]
      exact .of_shrinks (shrinks_removeNotificationBy steady _ _ _)

end Requests

section Connections

variable {cfg : Config} {s s' : CServer}

/-- A connection draws its ID. -/
theorem draws_handleConnectRequest (cfg : Config) (r : ConnectRequest) (s : CServer) :
    Draws s (s.handleConnectRequest cfg r) := by
  unfold handleConnectRequest
  split
  · exact .refl s
  · dsimp only
    split
    · exact .of_eq (Nat.le_succ _) rfl rfl rfl rfl
    · refine .of_parts (Nat.le_succ _) (fun conn hmem => ?_)
        (fun sd hmem => .inl (mem_ids_session hmem))
        (fun v hmem => .inl (mem_ids.mpr (.inr (.inr (.inl ⟨v, hmem, rfl⟩)))))
        (fun n hmem hne => .inl (mem_ids.mpr (.inr (.inr (.inr ⟨⟨n, hmem, rfl⟩, hne⟩)))))
      rcases mem_insertLower.mp hmem with rfl | hold
      · exact .inr (drawn_createId rfl)
      · exact .inl (mem_ids.mpr (.inl ⟨conn, hold, rfl⟩))

/-- The loop over the callbacks; the sessions that it leaves were there. -/
theorem draws_removeAllLoop {c : SPartyID} {sessions : List SessionData}
    {user : List (List UserCall)} {r : List SessionData × CServer}
    (hr : removeAllLoop cfg c sessions user s = .ok r) : Draws s r.2 :=
  removeAllLoop_preserves (I := Draws s)
    (fun cs _ o nr t t' ht hcalls => by
      have hstart : Draws t { emit o t with mCurrentSequenceNr := nr } :=
        .of_eq (Nat.le_refl _) rfl rfl rfl rfl
      exact ((ht.trans hstart).trans (draws_calls hcalls)).trans
        (.of_eq (Nat.le_refl _) rfl rfl rfl rfl))
    (fun t ht => ht.trans (.of_eq (Nat.le_refl _) rfl rfl rfl rfl)) (.refl s) hr

/-- A client that goes gives up its IDs, and its callbacks may draw handles. -/
theorem draws_dropClient {c : SPartyID} {user : List (List UserCall)}
    (hs : s.dropClient cfg c user = .ok s') : Draws s s' := by
  obtain ⟨t, ht, hs⟩ := Partial.bind_eq_ok hs
  obtain ⟨r, hr, ht⟩ := Partial.bind_eq_ok ht
  have hremove : Draws s (s.removeNotification c INVALID_ID) :=
    .of_shrinks (shrinks_removeNotificationBy steady _ _ _)
  have hloop : Draws s r.2 := by
    refine (hremove.trans ?_).trans (draws_removeAllLoop hr)
    exact .of_eq (Nat.le_refl _) rfl rfl rfl rfl
  have hleft := (removeAllLoop_eq hr).1
  rw [← Except.ok.inj hs, ← Except.ok.inj ht]
  refine .of_parts hloop.counter (fun conn hmem => ?_) (fun sd hmem => ?_) (fun v hmem => ?_)
    (fun n hmem hne => ?_)
  · exact hloop.ids _ (mem_ids.mpr (.inl ⟨conn, List.mem_of_mem_eraseP hmem, rfl⟩))
  · have hin : sd ∈ s.mSessions := (List.mem_filter.mp (hleft ▸ hmem)).1
    exact .inl (mem_ids_session hin)
  · exact hloop.ids _ (mem_ids.mpr (.inr (.inr (.inl ⟨v, (List.mem_filter.mp hmem).1, rfl⟩))))
  · refine hloop.ids _ (mem_ids.mpr (.inr (.inr (.inr ⟨⟨n, ?_, rfl⟩, hne⟩))))
    exact (mem_held.mp hmem).elim (fun h => mem_held.mpr (.inl h))
      (fun ⟨u, hu, heq⟩ => mem_held.mpr (.inr ⟨u, (List.mem_filter.mp hu).1, heq⟩))

/-- Connections that are cleaned up give up their IDs. -/
theorem draws_cleanup (conns : List ClientConnection) (s : CServer) :
    Draws s (conns.foldl cleanupClientConnection s) := by
  induction conns generalizing s with
  | nil => exact .refl s
  | cons conn conns ih =>
      have hone : Draws s (s.cleanupClientConnection conn) := by
        refine Draws.trans (t := s.emit (.clearNotification conn.notificationID)) ?_
          (.of_shrinks (shrinks_removeNotificationBy steady _ _ _))
        exact .of_eq (Nat.le_refl _) rfl rfl rfl rfl
      exact hone.trans (ih _)

/-- An interface that goes gives up all IDs of its clients. -/
theorem draws_unregisterInterface (s : CServer) : Draws s s.unregisterInterface :=
  (draws_cleanup s.mClientConnections s).trans
    (.of_subset (Nat.le_refl _) (fun _ hmem => by cases hmem) (fun _ => id) (fun _ => id)
      (fun _ => id))

/-- Every step draws the IDs that it uses anew. -/
theorem draws_step {e : Event} (hs : step cfg s e = .ok s') : Draws s s' := by
  cases e with
  | connect r => exact Except.ok.inj hs ▸ draws_handleConnectRequest cfg r s
  | disconnect clientID user =>
      rw [step, handleDisconnectRequest] at hs
      split at hs
      · exact Except.ok.inj hs ▸ .refl s
      · next conn _ =>
        have hclear : Draws s (if conn.notificationID ≠ 0 then
            s.emit (.clearNotification conn.notificationID) else s) := by
          split
          · exact .of_eq (Nat.le_refl _) rfl rfl rfl rfl
          · exact .refl s
        exact hclear.trans (draws_dropClient hs)
  | detached id user =>
      rw [step, handleClientDetached] at hs
      split at hs
      · exact Except.ok.inj hs ▸ .refl s
      · exact draws_dropClient hs
  | dataRequest h user => exact draws_handleDataRequest hs
  | user user => exact draws_calls hs
  | channelClosed channel =>
      rw [← Except.ok.inj hs]
      refine .of_parts (Nat.le_refl _) (fun conn hmem => ?_)
        (fun sd hmem => .inl (mem_ids_session hmem))
        (fun v hmem => .inl (mem_ids.mpr (.inr (.inr (.inl ⟨v, hmem, rfl⟩)))))
        (fun n hmem hne => .inl (mem_ids.mpr (.inr (.inr (.inr ⟨⟨n, hmem, rfl⟩, hne⟩)))))
      obtain ⟨conn', hold, rfl⟩ := List.mem_map.mp hmem
      refine .inl (mem_ids.mpr (.inl ⟨conn', hold, ?_⟩))
      split <;> rfl
  | unregisterInterface => exact Except.ok.inj hs ▸ draws_unregisterInterface s
  | createId => exact Except.ok.inj hs ▸ .of_eq (Nat.le_succ _) rfl rfl rfl rfl

end Connections

/-! ## Where IDs are taken

Where `q` says of the servers that a step comes to what `q'` says, both hold of those at
which it takes an ID.
-/

/-- A condition on what a computation returns, if it does. -/
theorem all_toOption {α : Type} {x : Except Fault α} {p : α → Bool} :
    x.toOption.all p = true ↔ ∀ a, x = .ok a → p a = true := by
  cases x with
  | error e => simp [Except.toOption]
  | ok a => simp [Except.toOption]

section Weaken

variable {cfg : Config} {q q' : CServer → Bool} {s₀ s : CServer} {h : DataRequest}
  {user : List UserCall}

/-- A weaker condition on the IDs is met by the same calls. -/
theorem callsTake_mono (hq : ∀ u, Draws s₀ u → q u = true → q' u = true) (hd : Draws s₀ s)
    (ht : callsTake cfg q s user = true) : callsTake cfg q' s user = true := by
  induction user generalizing s with
  | nil => rfl
  | cons c user ih =>
      simp only [callsTake, Bool.and_eq_true, Bool.or_eq_true, all_toOption] at ht ⊢
      exact ⟨ht.1.imp_right (hq s hd), fun t hs => ih (hd.trans (draws_call hs)) (ht.2 t hs)⟩

/-- And by the same handler. -/
theorem handlerTakes_mono (hq : ∀ u, Draws s₀ u → q u = true → q' u = true) (hd : Draws s₀ s)
    (ht : s.handlerTakes cfg q h user = true) : s.handlerTakes cfg q' h user = true := by
  have hcalled : Draws s (s.emit (.called h.requestId s.mClientID h.sequenceNr s.mSessionId)) :=
    .of_eq (Nat.le_refl _) rfl rfl rfl rfl
  exact callsTake_mono hq (hd.trans hcalled) ht

/-- And by the same handler behind the read of its payload. -/
theorem readTakes_mono {m : RequestMethod} (hq : ∀ u, Draws s₀ u → q u = true → q' u = true)
    (hd : Draws s₀ s) (ht : s.readTakes cfg q m h user = true) :
    s.readTakes cfg q' m h user = true := by
  simp only [readTakes, Bool.or_eq_true] at ht ⊢
  exact ht.imp_right (handlerTakes_mono hq hd)

/-- And by the same method. -/
theorem methodTakes_mono {m : RequestMethod} (hq : ∀ u, Draws s₀ u → q u = true → q' u = true)
    (hd : Draws s₀ s) (ht : s.methodTakes cfg q m h user = true) :
    s.methodTakes cfg q' m h user = true := by
  have henter : Draws s₀ (s.enterSession (s.findSession h.sequenceNr s.mClientID)) :=
    hd.trans (draws_enterSession _ s)
  unfold methodTakes at ht ⊢
  cases hk : m.kind with
  | request =>
      simp only [hk] at ht ⊢
      exact readTakes_mono hq hd ht
  | register =>
      simp only [hk, Bool.and_eq_true, Bool.or_eq_true, all_toOption] at ht ⊢
      exact ⟨ht.1.imp_right (hq _ henter), fun u hu =>
        readTakes_mono hq (henter.trans (draws_openSession hu)) (ht.2 u hu)⟩
  | unregister =>
      simp only [hk, Bool.or_eq_true] at ht ⊢
      exact ht.imp_right (handlerTakes_mono hq henter)

/-- And by the same request. -/
theorem requestTakes_mono (hq : ∀ u, Draws s₀ u → q u = true → q' u = true) (hd : Draws s₀ s)
    (ht : s.requestTakes cfg q h user = true) : s.requestTakes cfg q' h user = true := by
  simp only [requestTakes, Bool.or_eq_true, Option.all_eq_true] at ht ⊢
  exact ht.imp_right (fun hall m hm =>
    methodTakes_mono hq (hd.trans (draws_acceptRequest h _ s)) (hall m hm))

/-- And by the same data request. -/
theorem dataTakes_mono (hq : ∀ u, Draws s₀ u → q u = true → q' u = true) (hd : Draws s₀ s)
    (ht : s.dataTakes cfg q h user = true) : s.dataTakes cfg q' h user = true := by
  have hfind : Draws s₀ (s.findClientConnection h.clientID).2 :=
    hd.trans (draws_findClientConnection _ s)
  simp only [dataTakes, Bool.or_eq_true] at ht ⊢
  refine ht.imp_right (fun htype => ?_)
  cases hr : h.requestType <;> simp only [hr] at htype ⊢
  case REQUEST => exact requestTakes_mono hq hfind htype
  all_goals
    simp only [notifyTakes, Bool.or_eq_true] at htype ⊢
    exact htype.imp_right (hq _ hfind)

/-- And by the same callbacks of sessions. -/
theorem removeAllTakes_mono {c : SPartyID} {sessions : List SessionData}
    {users : List (List UserCall)} (hq : ∀ u, Draws s₀ u → q u = true → q' u = true)
    (hd : Draws s₀ s) (ht : removeAllTakes cfg q c sessions users s = true) :
    removeAllTakes cfg q' c sessions users s = true := by
  induction sessions generalizing users s with
  | nil => rfl
  | cons sd sessions ih =>
      have hleft (t : CServer) : Draws t { t with mCurrentSequenceNr := INVALID_SEQUENCE_NR } :=
        .of_eq (Nat.le_refl _) rfl rfl rfl rfl
      unfold removeAllTakes at ht ⊢
      split at ht
      · next heq =>
        rw [if_pos heq]
        cases ho : sd.callback cfg with
        | none =>
            simp only [ho] at ht ⊢
            exact ih (hd.trans (hleft s)) ht
        | some o =>
            have hstart : Draws s { s.emit o with mCurrentSequenceNr := sd.sequenceNr } :=
              .of_eq (Nat.le_refl _) rfl rfl rfl rfl
            simp only [ho, Bool.and_eq_true, all_toOption] at ht ⊢
            refine ⟨callsTake_mono hq (hd.trans hstart) ht.1, fun u hu => ?_⟩
            have hcalls := (hd.trans hstart).trans (draws_calls hu)
            exact ih (hcalls.trans (hleft u)) (ht.2 u hu)
      · next heq =>
        rw [if_neg heq]
        exact ih hd ht

/-- And by the same client that goes. -/
theorem dropTakes_mono {c : SPartyID} {users : List (List UserCall)}
    (hq : ∀ u, Draws s₀ u → q u = true → q' u = true) (hd : Draws s₀ s)
    (ht : dropTakes cfg q c users s = true) : dropTakes cfg q' c users s = true := by
  have hremove : Draws s (s.removeNotification c INVALID_ID) :=
    .of_shrinks (shrinks_removeNotificationBy steady _ _ _)
  refine removeAllTakes_mono hq ((hd.trans hremove).trans ?_) ht
  exact .of_eq (Nat.le_refl _) rfl rfl rfl rfl

/-- And by the same step. -/
theorem stepTakes_mono {e : Event} (hq : ∀ u, Draws s u → q u = true → q' u = true)
    (ht : s.stepTakes cfg q e = true) : s.stepTakes cfg q' e = true := by
  cases e with
  | connect r =>
      simp only [stepTakes, Bool.or_eq_true] at ht ⊢
      exact ht.imp_right (hq s (.refl s))
  | disconnect clientID user =>
      simp only [stepTakes, Option.all_eq_true] at ht ⊢
      refine fun conn hconn => dropTakes_mono hq ?_ (ht conn hconn)
      split
      · exact .of_eq (Nat.le_refl _) rfl rfl rfl rfl
      · exact .refl s
  | detached id user =>
      simp only [stepTakes, Option.all_eq_true] at ht ⊢
      exact fun conn hconn => dropTakes_mono hq (.refl s) (ht conn hconn)
  | dataRequest h user => exact dataTakes_mono hq (.refl s) ht
  | user user => exact callsTake_mono hq (.refl s) ht
  | channelClosed channel => rfl
  | unregisterInterface => rfl
  | createId => rfl

end Weaken

/-! ## One-shot entries -/

section Answered

variable {cfg : Config} {l : ResponseLoop} {n : Notification} {s s' : CServer}

/-- A one-shot entry of a client that is reached does not stay behind the place where the loop
is. -/
theorem not_mem_loop {idx : Nat} (hone : n.isOneShot = true) (hid : n.notifyID = l.responseId)
    (hlive : s.isLive n.clientID = true) (hnot : n ∉ s.mNotifications.drop idx)
    (hs : l.loop cfg idx s = .ok s') : n ∉ s'.mNotifications := by
  simp only [Notification.isOneShot, Bool.and_eq_true, bne_iff_ne, ne_eq, beq_iff_eq] at hone
  induction idx generalizing s with
  | zero => exact Except.ok.inj hs ▸ hnot
  | succ idx ih =>
      rw [ResponseLoop.loop] at hs
      cases hget : s.mNotifications[idx]? with
      | none =>
          rw [hget] at hs
          cases hs
      | some m =>
          obtain ⟨hlt, hm⟩ := List.getElem?_eq_some_iff.mp hget
          have hdrop : s.mNotifications.drop idx = m :: s.mNotifications.drop (idx + 1) := by
            rw [List.drop_eq_getElem_cons hlt, hm]
          simp only [hget] at hs
          split at hs
          · obtain ⟨t, ht, hs⟩ := Partial.bind_eq_ok hs
            have hshrinks := ResponseLoop.shrinks_one ht
            refine ih (((Moves.of_shrinks hshrinks).isLive _).trans hlive) ?_ hs
            by_cases hmn : m = n
            · -- its own round erases it
              subst hmn
              obtain ⟨conn, hconn⟩ := Option.isSome_iff_exists.mp hlive
              rw [ResponseLoop.one, findClientConnectionAt,
                findClientConnectionBy_of_connected (isConnected_of_isLive hlive)] at ht
              simp only [hconn, ne_eq, hone, not_false_eq_true, and_self, if_true] at ht
              rw [← Except.ok.inj ht]
              dsimp only [emit]
              rw [List.eraseIdx_eq_take_drop_succ, List.drop_append, List.length_take,
                Nat.min_eq_left hlt.le, Nat.sub_self, List.drop_zero, List.drop_take, Nat.sub_self,
                List.take_zero, List.nil_append]
              exact hnot
            · intro hmem
              have hin := (hshrinks.notifications.drop idx).subset hmem
              rw [hdrop] at hin
              exact (List.mem_cons.mp hin).elim (fun heq => hmn heq.symm) hnot
          · next hsel =>
            refine ih hlive ?_ hs
            rw [hdrop]
            refine List.not_mem_cons_of_ne_of_not_mem ?_ hnot
            rintro rfl
            exact hsel (by simp [ResponseLoop.selects, hid, hone.2])

/-- An answered one-shot entry of a client that is there is gone. -/
theorem not_mem_run (hone : n.isOneShot = true) (hid : n.notifyID = l.responseId)
    (hlive : s.isLive n.clientID = true) (hs : l.run cfg s = .ok s') : n ∉ s'.mNotifications := by
  obtain ⟨t, ht, hs⟩ := Partial.bind_eq_ok hs
  have hnot : n ∉ t.mNotifications := not_mem_loop hone hid hlive (by simp) ht
  rw [← Except.ok.inj hs]
  split <;> exact hnot

end Answered

/-- A request without a sequence number of its own is answered once if and only if the
counter does not give it the reserved one. -/
theorem answeredOnce_iff (nextID : Nat) : AnsweredOnce nextID ↔ nextID % 2 ^ 32 ≠ 0 := by
  have hwritten : (writtenNr INVALID_SEQUENCE_NR nextID).1 = idOf nextID := rfl
  constructor
  · intro honce hzero
    have hnr : idOf nextID = INVALID_SEQUENCE_NR := idOf_eq_sequenceNr.mpr hzero
    let h : DataRequest := ⟨.REQUEST, 0, ⟨1, 0⟩, 0, INVALID_SEQUENCE_NR, []⟩
    let l : ResponseLoop := ⟨0x80000001, 0x80000001, .RESULT_OK, false⟩
    let s : CServer :=
      { mClientConnections := [⟨1, ⟨1, 0⟩, ⟨9, 0⟩, 0, 1, false, 0⟩]
        mNotifications := [h.notification 0x80000001] }
    obtain ⟨s', hs', hstays⟩ : ∃ s', l.run (exampleConfig false) s = .ok s' ∧
        h.notification 0x80000001 ∈ s'.mNotifications := by
      decide
    exact honce (exampleConfig false) h l s s' (hwritten.trans hnr).symm (by decide) (by decide)
      hs' hstays
  · intro hne cfg h l s s' hnr _ hlive hs
    refine not_mem_run ?_ rfl hlive hs
    rw [hwritten] at hnr
    have hvalid : h.sequenceNr ≠ INVALID_SEQUENCE_NR := by
      rw [hnr]
      exact fun heq => hne (idOf_eq_sequenceNr.mp heq)
    simpa [Notification.isOneShot, DataRequest.notification] using hvalid

/-! ## The process -/

/-- A server, the IDs that the other objects of its process have got from the counter, and
for every ID where the counter was when it was last out of use. -/
structure Process where
  server : CServer := init
  others : List Int32 := []
  since : Int32 → Nat := fun _ => 1

/-- What happens in a process: a step of the server, another object takes an ID, or gives it
up. -/
inductive Process.Event where
  | server (e : CServer.Event)
  | takes
  | drops (id : Int32)
  deriving DecidableEq, Repr

namespace Process

variable (cfg : Config)

/-- The IDs in use, when the server has come to `u`. -/
def inUse (p : Process) (u : CServer) : List Int32 := u.ids ++ p.others

/-- The server and the other IDs behind an event. -/
def next (p : Process) : Event → Except Fault (CServer × List Int32)
  | .server e => CServer.step cfg p.server e >>= fun s => .ok (s, p.others)
  | .takes => .ok (p.server.createId.2, p.others ++ [p.server.createId.1])
  | .drops id => .ok (p.server, p.others.erase id)

/-- One step. -/
def step (p : Process) (e : Event) : Except Fault Process :=
  p.next cfg e >>= fun r => .ok
    { server := r.1, others := r.2
      since := fun i => if i ∈ r.1.ids ++ r.2 then p.since i else r.1.nextID }

/-- Whenever an ID that is no sequence number is taken, `q` holds of the server. -/
def atIDs (q : CServer → Bool) (p : Process) : Event → Bool
  | .server e => p.server.stepTakes cfg q e
  | .takes => q p.server
  | .drops _ => true

/-- The next ID is none of the reserved values, and not in use. -/
def fresh (p : Process) (u : CServer) : Bool :=
  idOf u.nextID != INVALID_SESSION_ID && idOf u.nextID != INVALID_SEQUENCE_NR &&
    !(p.inUse u).contains (idOf u.nextID)

/-- The counter is not at a reserved value, and no ID has been in use for a whole round. -/
def recent (p : Process) (u : CServer) : Bool :=
  u.nextID % 2 ^ 32 != 0 && u.nextID % 2 ^ 32 != 2 ^ 32 - 1 &&
    (p.inUse u).all (fun i => u.nextID < p.since i + 2 ^ 32)

/-- Every ID in use has been given by the counter since it was last out of use. -/
structure Tracked (p : Process) : Prop where
  inUse : ∀ i ∈ p.inUse p.server, ∃ c, p.since i ≤ c ∧ c < p.server.nextID ∧ idOf c = i
  since : ∀ i, i ∉ p.inUse p.server → p.since i = p.server.nextID

variable {cfg} {p p' : Process} {u : CServer}

/-- At the beginning no ID is in use. -/
theorem tracked_init : Tracked {} := ⟨fun i hi => by simp [Process.inUse, ids, held, init] at hi,
  fun _ _ => rfl⟩

/-- An ID that was in use, or is given now, has been given since it was last out of use. -/
theorem Tracked.given (h : Tracked p) {n : Nat} {i : Int32} (hle : p.server.nextID ≤ n)
    (hi : i ∈ p.inUse p.server ∨ ∃ c, p.server.nextID ≤ c ∧ c < n ∧ idOf c = i) :
    ∃ c, p.since i ≤ c ∧ c < n ∧ idOf c = i := by
  by_cases hmem : i ∈ p.inUse p.server
  · obtain ⟨c, hsince, hlt, heq⟩ := h.inUse i hmem
    exact ⟨c, hsince, hlt.trans_le hle, heq⟩
  · obtain ⟨c, hge, hlt, heq⟩ := hi.resolve_left hmem
    exact ⟨c, h.since i hmem ▸ hge, hlt, heq⟩

/-- Every ID in use was drawn at a value of the counter that is remembered. -/
theorem Tracked.of_draws (h : Tracked p) (hd : Draws p.server u) :
    ∀ i ∈ p.inUse u, ∃ c, p.since i ≤ c ∧ c < u.nextID ∧ idOf c = i := by
  refine fun i hi => h.given hd.counter ?_
  rcases List.mem_append.mp hi with hid | hother
  · exact (hd.ids i hid).imp_left (List.mem_append_left _)
  · exact .inl (List.mem_append_right _ hother)

/-- Where no ID has been in use for a whole round, the next one is fresh. -/
theorem fresh_of_recent (h : Tracked p) (hd : Draws p.server u) (hrecent : p.recent u = true) :
    p.fresh u = true := by
  simp only [recent, Bool.and_eq_true, bne_iff_ne, ne_eq, List.all_eq_true,
    decide_eq_true_eq] at hrecent
  obtain ⟨⟨hnr, hid⟩, hround⟩ := hrecent
  simp only [fresh, Bool.and_eq_true, bne_iff_ne, ne_eq, Bool.not_eq_true', List.contains_eq_mem,
    decide_eq_false_iff_not, idOf_eq_sequenceNr, idOf_eq_sessionId]
  refine ⟨⟨hid, hnr⟩, fun hmem => ?_⟩
  obtain ⟨c, hsince, hlt, heq⟩ := h.of_draws hd _ hmem
  have hmod := idOf_eq_iff.mp heq
  have hage := hround _ hmem
  omega

/-- A step keeps track of the IDs that it draws. -/
theorem tracked_step {e : Event} (h : Tracked p) (hs : step cfg p e = .ok p') : Tracked p' := by
  obtain ⟨r, hr, hs⟩ := Partial.bind_eq_ok hs
  have hgiven : ∀ i ∈ r.1.ids ++ r.2, ∃ c, p.since i ≤ c ∧ c < r.1.nextID ∧ idOf c = i := by
    cases e with
    | server e =>
        obtain ⟨t, ht, hr⟩ := Partial.bind_eq_ok hr
        rw [← Except.ok.inj hr]
        exact h.of_draws (draws_step ht)
    | takes =>
        rw [← Except.ok.inj hr]
        refine fun i hi => h.given (Nat.le_succ _) ?_
        rcases List.mem_append.mp hi with hid | hother
        · exact .inl (List.mem_append_left _ hid)
        · refine (List.mem_append.mp hother).imp (List.mem_append_right _) (fun hnew => ?_)
          exact ⟨p.server.nextID, Nat.le_refl _, Nat.lt_succ_self _,
            (List.mem_singleton.mp hnew).symm⟩
    | drops id =>
        rw [← Except.ok.inj hr]
        refine fun i hi => h.inUse i ?_
        exact (List.mem_append.mp hi).elim (List.mem_append_left _)
          (fun hother => List.mem_append_right _ (List.mem_of_mem_erase hother))
  rw [← Except.ok.inj hs]
  refine ⟨fun i hi => ?_, fun i hi => if_neg hi⟩
  obtain ⟨c, hsince, hlt, heq⟩ := hgiven i hi
  exact ⟨c, (if_pos hi).trans_le hsince, hlt, heq⟩

/-- Requests without a sequence number of their own are answered once where the counter is
not at the reserved one; and in every run in which the counter is not at a reserved value when
an ID is taken, and no ID has been in use for a whole round, all IDs that are taken are fresh. -/
theorem ids_fresh_of_recent (cfg : Config) :
    (∀ nextID, AnsweredOnce nextID ↔ nextID % 2 ^ 32 ≠ 0) ∧
      ∀ es, Partial.Along (step cfg) (fun p e => p.atIDs cfg p.recent e = true) {} es →
        Partial.Along (step cfg) (fun p e => p.atIDs cfg p.fresh e = true) {} es := by
  refine ⟨answeredOnce_iff, fun es => ?_⟩
  refine Partial.along_of_invariant (I := Tracked) (fun p e p' h _ hs => tracked_step h hs)
    (fun p e h hrecent => ?_) tracked_init
  cases e with
  | server e => exact stepTakes_mono (fun u hd => fresh_of_recent h hd) hrecent
  | takes => exact fresh_of_recent h (.refl _) hrecent
  | drops id => rfl

/-- A client connects, registers for an attribute and sends a request that is unblocked;
another object takes an ID and gives it up again. -/
def dayInLife : List Event :=
  [.server (connects ⟨1, 0⟩ 1), .takes,
    .server (asks ⟨1, 0⟩ .REQUEST_REGISTER_NOTIFY 0xC0000001 5 []), .server .createId, .drops 2,
    .server (asks ⟨1, 0⟩ .REQUEST 0 7 [.unblockRequest])]

theorem ids_fresh_dayInLife :
    (∃ p, Partial.run (step (exampleConfig false)) {} dayInLife = .ok p ∧
      p.server.ids = [1, 3, 5, 3] ∧ p.others = []) ∧
      Partial.Along (step (exampleConfig false))
        (fun p e => p.atIDs (exampleConfig false) p.fresh e = true) {} dayInLife :=
  ⟨by decide +kernel,
    (ids_fresh_of_recent (exampleConfig false)).2 dayInLife (by decide +kernel)⟩

/-- The process behind any number of sequence numbers. -/
theorem run_createId (n : Nat) (p : Process) :
    ∃ p', Partial.run (step cfg) p (List.replicate n (.server .createId)) = .ok p' ∧
      p'.server = { p.server with nextID := p.server.nextID + n } ∧ p'.others = p.others := by
  induction n generalizing p with
  | zero => exact ⟨p, rfl, rfl, rfl⟩
  | succ n ih =>
      obtain ⟨p', hrun, hserver, hothers⟩ := ih
        { server := p.server.createId.2, others := p.others
          since := fun i =>
            if i ∈ p.server.createId.2.ids ++ p.others then p.since i
            else p.server.createId.2.nextID }
      refine ⟨p', ?_, ?_, hothers⟩
      · rw [List.replicate_succ]
        exact (Partial.run_cons_of_ok rfl _).trans hrun
      · rw [hserver, createId, Nat.add_right_comm, Nat.add_assoc]

/-- A connection that is made where the counter is at the reserved session ID. -/
theorem not_along_fresh {n : Nat} (hn : (1 + n) % 2 ^ 32 = 2 ^ 32 - 1) :
    ¬ Partial.Along (step cfg) (fun p e => p.atIDs cfg p.fresh e = true) {}
      (List.replicate n (.server .createId) ++ [.server (connects ⟨1, 0⟩ 1)]) := by
  intro ha
  obtain ⟨p, hrun, hserver, _⟩ := @run_createId cfg n {}
  have hfresh : p.fresh p.server = true := (ha.append_right hrun).1
  have hcounter : p.server.nextID = 1 + n := by rw [hserver]; rfl
  simp only [fresh, Bool.and_eq_true, bne_iff_ne, ne_eq, hcounter, idOf_eq_sessionId] at hfresh
  exact hfresh.1.1 hn

/-- The 2^32-th sequence number is the reserved one; the ID before it is the reserved session
ID, and a connection gets it. -/
theorem not_ids_fresh_reserved :
    ¬ AnsweredOnce (2 ^ 32) ∧
      ¬ Partial.Along (step (exampleConfig false))
        (fun p e => p.atIDs (exampleConfig false) p.fresh e = true) {}
        (List.replicate (2 ^ 32 - 2) (.server .createId) ++ [.server (connects ⟨1, 0⟩ 1)]) :=
  ⟨fun honce => (answeredOnce_iff _).mp honce (Nat.mod_self _), not_along_fresh (by decide)⟩

end Process

end CServer

end Dsi
