import Dsi.Server.Justified

/-!
# Dsi.Server.Unblocked

The unblocked requests of a server: what leaves them alone, which is everything but
`unblockRequest`, `prepareResponse` and the end of their clients, and how a request
whose handler unblocks it becomes one.
-/

namespace Dsi

namespace CServer

open Sequence

/-! ## Calls that leave the unblocked requests alone -/

/-- The call neither unblocks a request nor takes one back. -/
def UserCall.isQuiet : UserCall → Bool
  | .unblockRequest | .prepareResponse _ => false
  | _ => true

/-- The step from `s` to `s'` leaves the unblocked requests and what is being handled. -/
structure Quiets (s s' : CServer) : Prop where
  unblocked : s'.mUnblockedSessions = s.mUnblockedSessions
  responseId : s'.mResponseId = s.mResponseId ∨ s'.mResponseId = INVALID_ID
  sessionId : s'.mSessionId = s.mSessionId
  nextID : s'.nextID = s.nextID

namespace Quiets

theorem refl (s : CServer) : Quiets s s := ⟨rfl, Or.inl rfl, rfl, rfl⟩

theorem trans {s t u : CServer} (h : Quiets s t) (h' : Quiets t u) : Quiets s u where
  unblocked := h'.unblocked.trans h.unblocked
  responseId := by
    rcases h'.responseId with heq | heq
    · rw [heq]
      exact h.responseId
    · exact Or.inr heq
  sessionId := h'.sessionId.trans h.sessionId
  nextID := h'.nextID.trans h.nextID

theorem of_shrinks {s s' : CServer} (h : Shrinks s s') : Quiets s s' :=
  ⟨h.unblocked, h.responseId, h.sessionId, h.nextID⟩

theorem call {cfg : Config} {s s' : CServer} {c : UserCall} (hc : c.isQuiet = true)
    (h : CServer.call cfg s c = .ok s') : Quiets s s' := by
  cases c with
  | unblockRequest => exact absurd hc Bool.false_ne_true
  | prepareResponse handle => exact absurd hc Bool.false_ne_true
  | response id => exact .of_shrinks (shrinks_responseMethod h)
  | sendError id => exact .of_shrinks (shrinks_sendError h)
  | setAttributeState id state => exact Except.ok.inj h ▸ ⟨rfl, Or.inl rfl, rfl, rfl⟩
  | sendNotification id => exact .of_shrinks (shrinks_sendNotification h)
  | addActiveSession sessionId => exact Except.ok.inj h ▸ ⟨rfl, Or.inl rfl, rfl, rfl⟩
  | clearActiveSessions => exact Except.ok.inj h ▸ ⟨rfl, Or.inl rfl, rfl, rfl⟩

theorem calls {cfg : Config} {user : List UserCall} {s s' : CServer}
    (hu : user.all UserCall.isQuiet = true) (h : CServer.calls cfg s user = .ok s') :
    Quiets s s' := by
  induction user generalizing s with
  | nil => exact Except.ok.inj h ▸ .refl s
  | cons c user ih =>
      rw [List.all_cons, Bool.and_eq_true] at hu
      obtain ⟨t, ht, hrest⟩ := Partial.bind_eq_ok h
      exact (Quiets.call hu.1 ht).trans (ih hu.2 hrest)

end Quiets

/-- The step from `s` to `s'` leaves the unblocked requests and takes no ID back; behind
it no request is being handled. -/
structure Spares (s s' : CServer) : Prop where
  unblocked : s'.mUnblockedSessions = s.mUnblockedSessions
  nextID : s.nextID ≤ s'.nextID
  responseId : s'.mResponseId = INVALID_ID
  sessionId : s'.mSessionId = INVALID_SESSION_ID

/-- Quiet calls outside of a request unblock nothing. -/
theorem Spares.of_quiets {s s' : CServer} (h : Quiets s s') (hr : s.mResponseId = INVALID_ID)
    (hi : s.mSessionId = INVALID_SESSION_ID) : Spares s s' :=
  ⟨h.unblocked, Nat.le_of_eq h.nextID.symm, h.responseId.elim (·.trans hr) id,
    h.sessionId.trans hi⟩

section Requests

variable {cfg : Config} {h : DataRequest} {m : RequestMethod} {user : List UserCall}
  {s s' t : CServer}

/-- A request whose handler is quiet leaves the unblocked requests alone, and no session
behind. -/
theorem processMethod_quiet (hu : user.all UserCall.isQuiet = true)
    (hi : s.mSessionId = INVALID_SESSION_ID) (hp : s.processMethod cfg m h user = .ok s') :
    s'.mUnblockedSessions = s.mUnblockedSessions ∧ s.nextID ≤ s'.nextID ∧
      s'.mSessionId = INVALID_SESSION_ID := by
  have hread : ∀ {t t' : CServer}, t.readAndCall cfg m h user = .ok t' → Quiets t t' := by
    intro t t' ht
    rw [readAndCall] at ht
    split at ht
    · rw [callHandler] at ht
      have hcalls := Quiets.calls hu ht
      exact ⟨hcalls.unblocked, hcalls.responseId, hcalls.sessionId, hcalls.nextID⟩
    · exact Except.ok.inj ht ▸ .refl t
  have henter : ∀ session : Option Nat,
      (s.enterSession session).mUnblockedSessions = s.mUnblockedSessions ∧
        (s.enterSession session).nextID = s.nextID := by
    intro session
    cases session <;> exact ⟨rfl, rfl⟩
  unfold processMethod at hp
  cases hk : m.kind with
  | request =>
      rw [hk] at hp
      have hq := hread hp
      exact ⟨hq.unblocked, Nat.le_of_eq hq.nextID.symm, hq.sessionId.trans hi⟩
  | register =>
      rw [hk] at hp
      obtain ⟨v, hv, hread'⟩ := Partial.bind_eq_ok hp
      obtain ⟨w, hw, hleave⟩ := Partial.bind_eq_ok hread'
      obtain ⟨l, k, c, i, n, hn, rfl⟩ := openSession_eq hv
      have hq := hread hw
      have he := henter (s.findSession h.sequenceNr s.mClientID)
      rw [← Except.ok.inj hleave]
      refine ⟨hq.unblocked.trans he.1, ?_, rfl⟩
      have hle : s.nextID ≤ n := he.2 ▸ hn
      exact hle.trans (Nat.le_of_eq hq.nextID.symm)
  | unregister =>
      rw [hk] at hp
      obtain ⟨v, hv, hp⟩ := Partial.bind_eq_ok hp
      have he := henter (s.findSession h.sequenceNr s.mClientID)
      rw [← Except.ok.inj hp]
      rw [endSession] at hv
      split at hv
      · obtain ⟨w, hw, hv⟩ := Partial.bind_eq_ok hv
        rw [callHandler] at hw
        have hq := Quiets.calls hu hw
        rw [← Except.ok.inj hv]
        exact ⟨hq.unblocked.trans he.1, Nat.le_of_eq (hq.nextID.trans he.2).symm, rfl⟩
      · rw [← Except.ok.inj hv]
        exact ⟨he.1, Nat.le_of_eq he.2.symm, rfl⟩

/-- A request whose handler is quiet leaves the handles alone. -/
theorem spares_handleRequest (hu : user.all UserCall.isQuiet = true)
    (hr : s.mResponseId = INVALID_ID) (hi : s.mSessionId = INVALID_SESSION_ID)
    (hs : s.handleRequest cfg h user = .ok s') : Spares s s' := by
  rcases handleRequest_cases hs with ⟨-, hs⟩ | ⟨-, v, hv, rfl⟩
  · exact .of_quiets (.of_shrinks (shrinks_sendErrorToClient hs)) hr hi
  · obtain ⟨hunblocked, hnextID, -, hsessionId⟩ :=
      acceptRequest_frame h (cfg.getResponse h.requestId) s
    unfold processRequest at hv
    split at hv
    · rw [← Except.ok.inj hv]
      exact ⟨hunblocked, Nat.le_of_eq hnextID.symm, rfl, hsessionId.trans hi⟩
    · obtain ⟨hun, hnext, hsession⟩ := processMethod_quiet hu (hsessionId.trans hi) hv
      exact ⟨hun.trans hunblocked, hnextID ▸ hnext, rfl, hsession⟩

/-- So does a subscription. -/
theorem spares_handleNotify (hr : s.mResponseId = INVALID_ID)
    (hi : s.mSessionId = INVALID_SESSION_ID) (hs : s.handleNotify cfg h = .ok s') :
    Spares s s' := by
  have hadd : Spares s
      (if s.mNotifications.any (isSet h) then s else s.addNotification cfg h) := by
    split
    · exact ⟨rfl, Nat.le_refl _, hr, hi⟩
    · obtain ⟨i, nr, l, k, c, id, hle, hadd⟩ := addNotification_eq cfg h s
      rw [hadd]
      exact ⟨rfl, hle, hr, hi⟩
  unfold handleNotify at hs
  by_cases ha : isAttributeId h.requestId = true
  · rw [if_pos ha] at hs
    have hsend := Spares.of_quiets (.of_shrinks (shrinks_sendAttribute hs)) hadd.responseId
      hadd.sessionId
    exact ⟨hsend.unblocked.trans hadd.unblocked, hadd.nextID.trans hsend.nextID,
      hsend.responseId, hsend.sessionId⟩
  · rw [if_neg ha] at hs
    exact Except.ok.inj hs ▸ hadd

/-- So does every data request with quiet calls. -/
theorem spares_handleDataRequest (hu : user.all UserCall.isQuiet = true)
    (hr : s.mResponseId = INVALID_ID) (hi : s.mSessionId = INVALID_SESSION_ID)
    (hs : s.handleDataRequest cfg h user = .ok s') : Spares s s' := by
  have hfind := Spares.of_quiets
    (.of_shrinks (shrinks_findClientConnectionBy steady h.clientID s)) hr hi
  have hthen : ∀ {t : CServer}, Spares (s.findClientConnectionBy steady h.clientID).2 t →
      Spares s t := fun ht =>
    ⟨ht.unblocked.trans hfind.unblocked, hfind.nextID.trans ht.nextID, ht.responseId,
      ht.sessionId⟩
  have hremove : ∀ id, Spares (s.findClientConnectionBy steady h.clientID).2
      ((s.findClientConnectionBy steady h.clientID).2.removeNotification h.clientID id) :=
    fun id => .of_quiets (.of_shrinks (shrinks_removeNotificationBy steady h.clientID id _))
      hfind.responseId hfind.sessionId
  unfold handleDataRequest at hs
  simp only [fst_findClientConnection] at hs
  split at hs
  · exact Except.ok.inj hs ▸ hfind
  · unfold dispatchRequest at hs
    cases ht : h.requestType with
    | REQUEST =>
        rw [ht] at hs
        exact hthen (spares_handleRequest hu hfind.responseId hfind.sessionId hs)
    | REQUEST_NOTIFY =>
        rw [ht] at hs
        exact hthen (spares_handleNotify hfind.responseId hfind.sessionId hs)
    | REQUEST_REGISTER_NOTIFY =>
        rw [ht] at hs
        exact hthen (spares_handleNotify hfind.responseId hfind.sessionId hs)
    | REQUEST_STOP_NOTIFY =>
        rw [ht] at hs
        exact hthen (Except.ok.inj hs ▸ hremove h.requestId)
    | REQUEST_STOP_REGISTER_NOTIFY =>
        rw [ht] at hs
        exact hthen (Except.ok.inj hs ▸ hremove h.requestId)
    | REQUEST_STOP_ALL_NOTIFY =>
        rw [ht] at hs
        exact hthen (Except.ok.inj hs ▸ hremove INVALID_ID)
    | REQUEST_STOP_ALL_REGISTER_NOTIFY =>
        rw [ht] at hs
        refine hthen (Except.ok.inj hs ▸ ?_)
        rw [handleStopSession]
        split <;> exact ⟨rfl, Nat.le_refl _, hfind.responseId, hfind.sessionId⟩
    | REQUEST_LOAD_COMPONENT =>
        rw [ht] at hs
        exact Except.ok.inj hs ▸ hfind

/-- A client that goes takes its own unblocked requests along only. -/
theorem spares_dropClient {c : SPartyID} {user : List (List UserCall)}
    (hu : user.all (fun calls => calls.all UserCall.isQuiet) = true)
    (hother : s.mUnblockedSessions.all (fun u => !SPartyID.opEq u.2.clientID c) = true)
    (hr : s.mResponseId = INVALID_ID) (hi : s.mSessionId = INVALID_SESSION_ID)
    (hs : s.dropClient cfg c user = .ok s') : Spares s s' := by
  obtain ⟨v, hv, hs⟩ := Partial.bind_eq_ok hs
  obtain ⟨r, hloop, hv⟩ := Partial.bind_eq_ok hv
  have hquiet : Quiets s r.2 := by
    refine removeAllLoop_preserves (I := Quiets s)
      (s := { s.removeNotification c INVALID_ID with mClientID := c })
      (fun cs hcs o nr w w' hw hcalls => ?_) (fun w hw => hw.trans ⟨rfl, Or.inl rfl, rfl, rfl⟩)
      ⟨rfl, Or.inl rfl, rfl, rfl⟩ hloop
    have hcsq : cs.all UserCall.isQuiet = true := by
      rcases hcs with rfl | hcs
      · rfl
      · exact List.all_eq_true.mp hu cs hcs
    have hstart : Quiets s { emit o w with mCurrentSequenceNr := nr } :=
      hw.trans ⟨rfl, Or.inl rfl, rfl, rfl⟩
    exact (hstart.trans (Quiets.calls hcsq hcalls)).trans ⟨rfl, Or.inl rfl, rfl, rfl⟩
  have hspares := Spares.of_quiets hquiet hr hi
  rw [← Except.ok.inj hs, ← Except.ok.inj hv]
  refine ⟨?_, hspares.nextID, hspares.responseId, hspares.sessionId⟩
  have hfilter : r.2.mUnblockedSessions.filter (fun u => !SPartyID.opEq u.2.clientID c) =
      r.2.mUnblockedSessions := by
    rw [hspares.unblocked]
    exact List.filter_eq_self.mpr (List.all_eq_true.mp hother)
  exact hfilter.trans hspares.unblocked

/-- A client that disconnects takes no handle along, if none has its local ID. -/
theorem spares_disconnect {c : SPartyID} {user : List (List UserCall)}
    (hu : user.all (fun calls => calls.all UserCall.isQuiet) = true)
    (hother : s.isConnected c = false ∨
      s.mUnblockedSessions.all (fun u => !SPartyID.opEq u.2.clientID c) = true)
    (hr : s.mResponseId = INVALID_ID) (hi : s.mSessionId = INVALID_SESSION_ID)
    (hs : s.handleDisconnectRequest cfg c user = .ok s') : Spares s s' := by
  unfold handleDisconnectRequest at hs
  cases hc : s.findConnection c with
  | none =>
      rw [hc] at hs
      exact Except.ok.inj hs ▸ ⟨rfl, Nat.le_refl _, hr, hi⟩
  | some conn =>
      rw [hc] at hs
      have hothers := hother.resolve_left (by rw [isConnected, hc]; simp)
      rw [← clientID_of_findConnection hc] at hothers
      dsimp only at hs
      split at hs
      · have hdrop := spares_dropClient (s := s.emit (.clearNotification conn.notificationID)) hu
          hothers hr hi hs
        exact ⟨hdrop.unblocked, hdrop.nextID, hdrop.responseId, hdrop.sessionId⟩
      · exact spares_dropClient hu hothers hr hi hs

/-- Nor does one that is detached. -/
theorem spares_detached {id : Int32} {user : List (List UserCall)}
    (hu : user.all (fun calls => calls.all UserCall.isQuiet) = true)
    (hother : (s.mClientConnections.find? (fun conn => conn.id == id)).all (fun conn =>
      s.mUnblockedSessions.all (fun u => !SPartyID.opEq u.2.clientID conn.clientID)) = true)
    (hr : s.mResponseId = INVALID_ID) (hi : s.mSessionId = INVALID_SESSION_ID)
    (hs : s.handleClientDetached cfg id user = .ok s') : Spares s s' := by
  unfold handleClientDetached at hs
  cases hc : s.mClientConnections.find? (fun conn => conn.id == id) with
  | none =>
      rw [hc] at hs
      exact Except.ok.inj hs ▸ ⟨rfl, Nat.le_refl _, hr, hi⟩
  | some conn =>
      rw [hc] at hs hother
      exact spares_dropClient hu hother hr hi hs

end Requests

/-! ## Steps -/

/-- No client of an unblocked request goes, and no other is unblocked or taken back. -/
def isQuiet (s : CServer) : Event → Bool
  | .dataRequest _ user | .user user => user.all UserCall.isQuiet
  | .disconnect clientID user =>
      user.all (fun calls => calls.all UserCall.isQuiet) &&
        (!s.isConnected clientID ||
          s.mUnblockedSessions.all (fun u => !SPartyID.opEq u.2.clientID clientID))
  | .detached id user =>
      user.all (fun calls => calls.all UserCall.isQuiet) &&
        (s.mClientConnections.find? (fun conn => conn.id == id)).all (fun conn =>
          s.mUnblockedSessions.all (fun u => !SPartyID.opEq u.2.clientID conn.clientID))
  | .connect _ | .channelClosed _ | .unregisterInterface | .createId => true

/-- A quiet step leaves the unblocked requests alone. -/
theorem spares_step {cfg : Config} {s s' : CServer} {e : Event} (hq : s.isQuiet e = true)
    (hr : s.mResponseId = INVALID_ID) (hi : s.mSessionId = INVALID_SESSION_ID)
    (hs : step cfg s e = .ok s') : Spares s s' := by
  cases e with
  | connect q =>
      obtain ⟨l, n, hn, hconnect⟩ := handleConnectRequest_eq cfg q s
      have hs' := (Except.ok.inj hs).symm.trans hconnect
      subst hs'
      exact ⟨rfl, hn, hr, hi⟩
  | disconnect c user =>
      rw [isQuiet, Bool.and_eq_true] at hq
      exact spares_disconnect hq.1 (by simpa using hq.2) hr hi hs
  | detached id user =>
      rw [isQuiet, Bool.and_eq_true] at hq
      exact spares_detached hq.1 hq.2 hr hi hs
  | dataRequest h user => exact spares_handleDataRequest hq hr hi hs
  | user user => exact .of_quiets (Quiets.calls hq hs) hr hi
  | channelClosed channel => exact Except.ok.inj hs ▸ ⟨rfl, Nat.le_refl _, hr, hi⟩
  | unregisterInterface =>
      obtain ⟨l, os, hos⟩ := cleanup_eq s.mClientConnections s
      have hs' := (Except.ok.inj hs).symm
      rw [unregisterInterface, hos] at hs'
      subst hs'
      exact ⟨rfl, Nat.le_refl _, hr, hi⟩
  | createId => exact Except.ok.inj hs ▸ ⟨rfl, Nat.le_succ _, hr, hi⟩

/-! ## IDs -/

/-- The ID that the `i`-th call of `createId` gives. -/
def idOf (i : Nat) : Int32 := (UInt32.ofNat i).toInt32

/-- Handles differ as long as the counter has not wrapped. -/
theorem idOf_ne {i j : Nat} (hij : i < j) (hj : j < 2 ^ 32) : idOf i ≠ idOf j := by
  intro h
  have hbits : UInt32.ofNat i = UInt32.ofNat j := by
    have := congrArg Int32.toUInt32 h
    simpa [idOf] using this
  have hnat := congrArg UInt32.toNat hbits
  rw [UInt32.toNat_ofNat_of_lt' (by simpa using hij.trans hj),
    UInt32.toNat_ofNat_of_lt' (by simpa using hj)] at hnat
  omega

/-! ## Accepting -/

/-- The request `h` is being handled, and its notification is the last one. -/
structure Accepted (h : DataRequest) (r : UInt32) (front : List Notification) (t : CServer) :
    Prop where
  notifications : t.mNotifications = front ++ [h.notification r]
  responseId : t.mResponseId = r
  clientID : t.mClientID = h.clientID
  sequenceNr : t.mCurrentSequenceNr = h.sequenceNr

/-- The step from `t` to `u` unblocks the request under the ID of number `i`. -/
structure Unblocks (h : DataRequest) (r : UInt32) (i : Nat) (t u : CServer) : Prop where
  number : t.nextID ≤ i
  nextID : u.nextID = i + 1
  unblocked : u.mUnblockedSessions =
    t.mUnblockedSessions.filter (fun v => v.1 != idOf i) ++ [(idOf i, h.notification r)]
  state : u.mResponseStateMap r = false

section Accept

variable {cfg : Config} {h : DataRequest} {r : UInt32} {front : List Notification}
  {m : RequestMethod} {s s' t : CServer}

/-- The server behind the `unblockRequest` of an accepted request. -/
def taken (h : DataRequest) (r : UInt32) (front : List Notification) (t : CServer) : CServer :=
  { t with
    nextID := t.nextID + 1
    mUnblockedSessions := t.mUnblockedSessions.filter (fun v => v.1 != idOf t.nextID) ++
      [(idOf t.nextID, h.notification r)]
    mNotifications := front
    mResponseStateMap := fun id => if id = r then false else t.mResponseStateMap id
    mResponseId := INVALID_ID
    mCurrentSequenceNr := INVALID_SEQUENCE_NR }

/-- The request that was accepted is unblocked under the next handle. -/
theorem unblockRequest_of_accepted (ha : Accepted h r front t) (hr : r ≠ INVALID_ID)
    (hfit : cfg.statesFit = true) (hseq : h.sequenceNr = INVALID_SEQUENCE_NR → cfg.NDEBUG = true) :
    t.unblockRequest cfg = .ok (idOf t.nextID, taken h r front t) := by
  have hcurrent : t.isCurrent (h.notification r) = true := by
    simp [isCurrent, ha.responseId, ha.clientID, DataRequest.notification, SPartyID.opEq]
  have hlast : lastIdx? t.isCurrent t.mNotifications = some front.length := by
    rw [ha.notifications]
    exact lastIdx?_append_cons hcurrent (fun _ hy => absurd hy List.not_mem_nil)
  have hget : t.mNotifications[front.length]? = some (h.notification r) := by
    rw [ha.notifications, List.getElem?_append_right (Nat.le_refl _), Nat.sub_self,
      List.getElem?_cons_zero]
  have herase : t.mNotifications.eraseIdx front.length = front := by
    rw [ha.notifications, List.eraseIdx_append_of_length_le (Nat.le_refl _), Nat.sub_self,
      List.eraseIdx_cons_zero, List.append_nil]
  have hasserted : ¬ (t.mCurrentSequenceNr = INVALID_SEQUENCE_NR ∧ cfg.NDEBUG = false) := by
    rw [ha.sequenceNr]
    exact fun hbad => Bool.false_ne_true (hbad.2.symm.trans (hseq hbad.1))
  rw [unblockRequest, if_neg hasserted, if_neg (by rw [ha.responseId]; exact hr), if_pos hfit,
    takeCurrent, hlast]
  simp only [hget, herase, ha.responseId]
  rfl

/-- So it is by a handler that does nothing else. -/
theorem callHandler_unblocks (ha : Accepted h r front t) (hr : r ≠ INVALID_ID)
    (hfit : cfg.statesFit = true) (hseq : h.sequenceNr = INVALID_SEQUENCE_NR → cfg.NDEBUG = true) :
    t.callHandler cfg h [.unblockRequest] = .ok (taken h r front
      (t.emit (.called h.requestId t.mClientID h.sequenceNr t.mSessionId))) := by
  have hcalled : Accepted h r front
      (t.emit (.called h.requestId t.mClientID h.sequenceNr t.mSessionId)) :=
    ⟨ha.notifications, ha.responseId, ha.clientID, ha.sequenceNr⟩
  rw [callHandler, calls, Partial.run, call, unblockRequest_of_accepted hcalled hr hfit hseq]
  rfl

/-- The session of a request leaves it accepted. -/
theorem Accepted.enterSession (ha : Accepted h r front t) (session : Option Nat) :
    Accepted h r front (t.enterSession session) := by
  cases session <;> exact ⟨ha.notifications, ha.responseId, ha.clientID, ha.sequenceNr⟩

/-- A session can be opened when none is current. -/
theorem openSession_isOk (cfg : Config) (h : DataRequest) (hi : t.mSessionId = INVALID_SESSION_ID)
    (session : Option Nat) :
    ∃ v, (t.enterSession session).openSession cfg h session = .ok v := by
  cases session with
  | none =>
      rw [CServer.enterSession, openSession, if_pos hi]
      exact ⟨_, rfl⟩
  | some pos =>
      rw [openSession]
      split
      · exact ⟨_, rfl⟩
      · exact ⟨_, rfl⟩

/-- A session that is entered takes no handle. -/
theorem nextID_enterSession (session : Option Nat) (t : CServer) :
    (t.enterSession session).nextID = t.nextID ∧
      (t.enterSession session).mUnblockedSessions = t.mUnblockedSessions := by
  cases session <;> exact ⟨rfl, rfl⟩

/-- A request whose handler is called and unblocks it. -/
theorem processMethod_unblocks (ha : Accepted h r front t) (hr : r ≠ INVALID_ID)
    (hfit : cfg.statesFit = true) (hseq : h.sequenceNr ≠ INVALID_SEQUENCE_NR)
    (hi : t.mSessionId = INVALID_SESSION_ID)
    (hd : t.delivers m h = true) :
    ∃ u i, t.processMethod cfg m h [.unblockRequest] = .ok u ∧ Unblocks h r i t u ∧
      u.mSessionId = INVALID_SESSION_ID := by
  unfold processMethod
  unfold delivers at hd
  rw [ha.clientID]
  have hentered := nextID_enterSession (t.findSession h.sequenceNr h.clientID) t
  have hasserted : h.sequenceNr = INVALID_SEQUENCE_NR → cfg.NDEBUG = true :=
    fun hbad => absurd hbad hseq
  cases hk : m.kind with
  | request =>
      rw [hk] at hd
      have hread : t.readAndCall cfg m h [.unblockRequest] = _ :=
        (if_pos hd).trans (callHandler_unblocks ha hr hfit hasserted)
      exact ⟨_, t.nextID, hread, ⟨Nat.le_refl _, rfl, rfl, if_pos rfl⟩, hi⟩
  | register =>
      rw [hk] at hd
      obtain ⟨v, hv⟩ := openSession_isOk cfg h hi
        (t.findSession h.sequenceNr h.clientID)
      have haccepted : Accepted h r front v := by
        have henter := ha.enterSession (t.findSession h.sequenceNr h.clientID)
        obtain ⟨l, k, c, i, n, -, rfl⟩ := openSession_eq hv
        exact ⟨henter.notifications, henter.responseId, henter.clientID, henter.sequenceNr⟩
      have hopened : t.nextID ≤ v.nextID ∧ v.mUnblockedSessions = t.mUnblockedSessions := by
        obtain ⟨l, k, c, i, n, hn, rfl⟩ := openSession_eq hv
        exact ⟨hentered.1 ▸ hn, hentered.2⟩
      have hread : v.readAndCall cfg m h [.unblockRequest] = _ :=
        (if_pos hd).trans (callHandler_unblocks haccepted hr hfit hasserted)
      refine ⟨(taken h r front (v.emit
        (.called h.requestId v.mClientID h.sequenceNr v.mSessionId))).leaveSession, v.nextID, ?_,
        ⟨hopened.1, rfl, ?_, if_pos rfl⟩, rfl⟩
      · simp only [hv, bind, Except.bind, hread]
      · rw [← hopened.2]
        rfl
  | unregister =>
      rw [hk] at hd
      have haccepted := ha.enterSession (t.findSession h.sequenceNr h.clientID)
      have hhandler := callHandler_unblocks haccepted hr hfit hasserted
      have hsession : (t.enterSession (t.findSession h.sequenceNr h.clientID)).mSessionId ≠
          INVALID_SESSION_ID := by simpa using hd
      let u := taken h r front ((t.enterSession (t.findSession h.sequenceNr h.clientID)).emit
        (.called h.requestId (t.enterSession (t.findSession h.sequenceNr h.clientID)).mClientID
          h.sequenceNr (t.enterSession (t.findSession h.sequenceNr h.clientID)).mSessionId))
      refine ⟨(u.removeSession u.mSessionId).leaveSession, t.nextID, ?_,
        ⟨Nat.le_refl _, ?_, ?_, if_pos rfl⟩, rfl⟩
      · simp only [endSession, if_pos hsession, hhandler, bind, Except.bind, u]
      · exact congrArg (· + 1) hentered.1
      · have hun : (taken h r front (t.enterSession
            (t.findSession h.sequenceNr h.clientID))).mUnblockedSessions =
              t.mUnblockedSessions.filter (fun v => v.1 != idOf t.nextID) ++
                [(idOf t.nextID, h.notification r)] := by
          rw [taken, hentered.1, hentered.2]
        exact hun

/-- A request with a response is accepted behind the other entries. -/
theorem Accepted.acceptRequest (h : DataRequest) (hr : r ≠ INVALID_ID) (s : CServer) :
    Accepted h r s.mNotifications (s.acceptRequest h r) := by
  unfold CServer.acceptRequest
  dsimp only
  rw [if_pos hr]
  exact ⟨rfl, rfl, rfl, rfl⟩

end Accept

end CServer

end Dsi
