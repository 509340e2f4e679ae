import Dsi.Server.Busy

/-!
# Dsi.Server.Justified

The busy state of the responses over whole runs of a server: what its requests and
the clients that go keep of it under the condition, and two runs that leave a response
busy which nobody will give.
-/

namespace Dsi

namespace CServer

open Sequence

variable {cfg : Config} {s s' : CServer}

/-! ## Removals -/

/-- A removal that spares the busy entries of more spares those of fewer. -/
theorem sparesBusy_of_sublist {c : SPartyID} {id : UInt32}
    (hn : s'.mNotifications.Sublist s.mNotifications)
    (hr : s'.mResponseStateMap = s.mResponseStateMap) (h : s.sparesBusy c id = true) :
    s'.sparesBusy c id = true := by
  refine List.all_eq_true.mpr (fun n hmem => ?_)
  have hold := List.all_eq_true.mp h n (hn.subset hmem)
  rw [keepsBusy] at hold ⊢
  rw [hr]
  exact hold

/-- What is spared is not removed while its response is busy. -/
theorem not_isRemoved_of_sparesBusy {c : SPartyID} {id : UInt32} (h : s.sparesBusy c id = true)
    {n : Notification} (hn : n ∈ s.mNotifications) (hr : s.mResponseStateMap n.notifyID = true)
    (hshot : n.isOneShot = true) : isRemoved id c n = false := by
  have hold := List.all_eq_true.mp h n hn
  rw [keepsBusy, hr, hshot] at hold
  simpa using hold

/-- `t` is `s` with what a subscription adds to it. -/
structure AddsEntry (s t : CServer) : Prop where
  connections : t.mClientConnections = s.mClientConnections
  notifications : ∃ l, t.mNotifications = s.mNotifications ++ l
  unblocked : t.mUnblockedSessions = s.mUnblockedSessions
  attributes : t.attributeState = s.attributeState
  states : t.mResponseStateMap = s.mResponseStateMap
  log : t.log = s.log

namespace AddsEntry

variable {t : CServer} {c : SPartyID} {id : UInt32}

theorem refl (s : CServer) : AddsEntry s s :=
  ⟨rfl, ⟨[], (List.append_nil _).symm⟩, rfl, rfl, rfl, rfl⟩

/-- A subscription takes no entry away. -/
theorem busy (he : AddsEntry s t) (hb : Busy cfg s) : Busy cfg t := by
  obtain ⟨l, hl⟩ := he.notifications
  exact hb.of_keeps ⟨[], he.log.trans (List.append_nil _).symm⟩ (fun _ h' => he.states ▸ h')
    (fun n hn _ _ => hl ▸ List.mem_append_left _ hn) (fun _ h' => he.unblocked ▸ h')

/-- What is spared of `s` is kept: only what was added can be removed besides. -/
theorem busy_removeNotification (he : AddsEntry s t) (hb : Busy cfg s)
    (hs : s.sparesBusy c id = true) : Busy cfg (t.removeNotification c id) := by
  obtain ⟨l, hl⟩ := he.notifications
  refine hb.of_keeps ⟨[], he.log.trans (List.append_nil _).symm⟩ (fun _ h' => he.states ▸ h')
    (fun n hn hr hshot => ?_) (fun _ h' => he.unblocked ▸ h')
  have hkept := not_isRemoved_of_sparesBusy hs hn (he.states ▸ hr) hshot
  rw [removeNotification_eq]
  exact List.mem_filter.mpr ⟨hl ▸ List.mem_append_left _ hn, by rw [hkept]; rfl⟩

/-- The search for a client takes no busy entry away, if the client is connected or has none. -/
theorem busy_findClientConnection (he : AddsEntry s t) (hb : Busy cfg s)
    (hs : s.isConnected c = true ∨ s.sparesBusy c INVALID_ID = true) :
    Busy cfg (t.findClientConnection c).2 := by
  rw [findClientConnection, findClientConnectionBy, findConnection_of_connections he.connections]
  cases hc : s.findConnection c with
  | some conn => exact he.busy hb
  | none =>
      have hspares := hs.resolve_left (by rw [isConnected, hc]; exact Bool.false_ne_true)
      exact he.busy_removeNotification hb hspares

end AddsEntry

/-- A removal that spares the busy entries keeps them justified. -/
theorem busy_removeNotification {c : SPartyID} {id : UInt32} (h : Busy cfg s)
    (hs : s.sparesBusy c id = true) : Busy cfg (s.removeNotification c id) :=
  (AddsEntry.refl s).busy_removeNotification h hs

theorem busy_findClientConnection {c : SPartyID} (h : Busy cfg s)
    (hs : s.isConnected c = true ∨ s.sparesBusy c INVALID_ID = true) :
    Busy cfg (s.findClientConnection c).2 :=
  (AddsEntry.refl s).busy_findClientConnection h hs

/-- The search for a client takes entries away only. -/
theorem sparesBusy_findClientConnection {c d : SPartyID} {id : UInt32}
    (hspares : s.sparesBusy c id = true) :
    (s.findClientConnection d).2.sparesBusy c id = true :=
  sparesBusy_of_sublist (shrinks_findClientConnectionBy steady d s).notifications
    (mResponseStateMap_findClientConnection d s) hspares

/-- It connects and disconnects nobody. -/
theorem isConnected_findClientConnection (c d : SPartyID) :
    (s.findClientConnection c).2.isConnected d = s.isConnected d :=
  (Moves.of_shrinks (shrinks_findClientConnectionBy steady c s)).isConnected d

/-- A second search finds what the first one left. -/
theorem spares_findClientConnection {c : SPartyID}
    (hs : s.isConnected c = true ∨ s.sparesBusy c INVALID_ID = true) :
    (s.findClientConnection c).2.isConnected c = true ∨
      (s.findClientConnection c).2.sparesBusy c INVALID_ID = true := by
  refine hs.imp (fun hc => ?_) sparesBusy_findClientConnection
  rw [isConnected_findClientConnection]
  exact hc

/-- No request has a session. -/
theorem busy_removeSessionNotifications {sessionId : Int32} (h : Busy cfg s)
    (hi : sessionId ≠ INVALID_SESSION_ID) : Busy cfg (s.removeSessionNotifications sessionId) := by
  refine h.of_keeps ⟨[], (List.append_nil _).symm⟩ (fun _ h' => h') (fun n hn _ hshot => ?_)
    (fun _ h' => h')
  refine mem_removeIfShift_of_not hn ?_
  rw [Notification.isOneShot, Bool.and_eq_true, beq_iff_eq] at hshot
  rw [beq_eq_false_iff_ne, hshot.2]
  exact hi.symm

/-! ## Requests -/

/-- `t` is `s` with a request accepted for the response `r`, up to its sessions. -/
structure Ready (h : DataRequest) (r : UInt32) (s t : CServer) : Prop where
  connections : t.mClientConnections = s.mClientConnections
  notifications : t.mNotifications =
    s.mNotifications ++ (if r = INVALID_ID then [] else [h.notification r])
  unblocked : t.mUnblockedSessions = s.mUnblockedSessions
  states : ∀ r', t.mResponseStateMap r' = true →
    s.mResponseStateMap r' = true ∨ r' = r ∧ r ≠ INVALID_ID
  log : t.log = s.log
  responseId : t.mResponseId = r
  clientID : t.mClientID = h.clientID

namespace Ready

variable {h : DataRequest} {r : UInt32} {t u : CServer}

/-- A request that is accepted is ready to be handled. -/
theorem acceptRequest (h : DataRequest) (r : UInt32) (s : CServer) :
    Ready h r s (s.acceptRequest h r) := by
  unfold CServer.acceptRequest
  by_cases hr : r = INVALID_ID
  · simp only [hr, ne_eq, not_true_eq_false, if_false]
    exact ⟨rfl, (List.append_nil _).symm, rfl, fun _ h' => Or.inl h', rfl, rfl, rfl⟩
  · simp only [ne_eq, hr, not_false_eq_true, if_true]
    refine ⟨rfl, by rw [if_neg hr]; rfl, rfl, fun r' hr' => ?_, rfl, rfl, rfl⟩
    by_cases heq : r' = r
    · exact Or.inr ⟨heq, hr⟩
    · exact Or.inl ((if_neg heq).symm.trans hr')

/-- The sessions do not matter. -/
theorem of_sessions (hr : Ready h r s t) (l : List SessionData) (k c : Nat) (i : Int32) (n : Nat) :
    Ready h r s { t with
      mSessions := l, mSessionsCapacity := k, copies := c, mSessionId := i, nextID := n } :=
  ⟨hr.connections, hr.notifications, hr.unblocked, hr.states, hr.log, hr.responseId, hr.clientID⟩

/-- It still is in its session. -/
theorem enterSession (hr : Ready h r s t) (session : Option Nat) :
    Ready h r s (t.enterSession session) := by
  cases session with
  | none => exact hr
  | some pos => exact hr.of_sessions t.mSessions t.mSessionsCapacity t.copies _ t.nextID

/-- It still is in a new session. -/
theorem openSession {session : Option Nat} (hr : Ready h r s t)
    (hopen : t.openSession cfg h session = .ok u) : Ready h r s u := by
  obtain ⟨l, k, c, i, n, -, rfl⟩ := openSession_eq hopen
  exact hr.of_sessions l k c i n

/-- Its entry is reached if the client is connected. -/
theorem reached {p : UInt32 → Bool} (hr : Ready h r s t) (hs : AllReached false p s)
    (hc : r ≠ INVALID_ID → p r = true → s.isConnected h.clientID = true) :
    AllReached false p t := by
  intro n hn hp
  rw [reaches_of_findConnection (findConnection_of_connections hr.connections n.clientID)]
  rw [mem_held, hr.notifications, hr.unblocked, List.mem_append] at hn
  rcases hn with (hn | hn) | hn
  · exact hs n (mem_held.mpr (Or.inl hn)) hp
  · split at hn
    · exact absurd hn List.not_mem_nil
    · next hid =>
      obtain rfl := List.mem_singleton.mp hn
      exact hc hid hp
  · exact hs n (mem_held.mpr (Or.inr hn)) hp

/-- A request without a response changes nothing. -/
theorem busy (hr : Ready h INVALID_ID s t) (hb : Busy cfg s) : Busy cfg t :=
  hb.of_keeps ⟨[], hr.log.trans (List.append_nil _).symm⟩
    (fun r' hr' => (hr.states r' hr').resolve_right (fun h' => h'.2 rfl))
    (fun _ hn _ _ => hr.notifications ▸ List.mem_append_left _ hn) (fun _ hu => hr.unblocked ▸ hu)

/-- When the handler is entered, the entry of the request is that of a delivered one. -/
theorem called (hr : Ready h r s t) (hb : Busy cfg s) (hresponse : cfg.getResponse h.requestId = r)
    (hc : r ≠ INVALID_ID → h.sequenceNr ≠ INVALID_SEQUENCE_NR) :
    Busy cfg (t.emit (.called h.requestId t.mClientID h.sequenceNr t.mSessionId)) ∧
      Current cfg (t.emit (.called h.requestId t.mClientID h.sequenceNr t.mSessionId)) := by
  have hlog : ∃ os, (t.emit (.called h.requestId t.mClientID h.sequenceNr t.mSessionId)).log =
      s.log ++ os := ⟨[_], by rw [emit, hr.log]⟩
  have hnew : r ≠ INVALID_ID →
      (t.emit (.called h.requestId t.mClientID h.sequenceNr t.mSessionId)).pending cfg
        (h.notification r) = true := by
    intro hid
    have hshot : (h.notification r).isOneShot = true := by
      simp [DataRequest.notification, Notification.isOneShot, hc hid]
    rw [pending, hshot, Bool.true_and, delivered, emit, List.any_append, List.any_cons]
    simp [DataRequest.notification, hresponse, hr.clientID]
  refine ⟨⟨fun r' hr' => ?_, fun u hu => ?_⟩, fun hid n hlast => ?_⟩
  · rcases hr.states r' hr' with hold | ⟨rfl, hid⟩
    · obtain ⟨n, hn, hnid, hp⟩ := hb.justified r' hold
      have hmem : n ∈ t.mNotifications := hr.notifications ▸ List.mem_append_left _ hn
      exact ⟨n, hmem, hnid, pending_append hlog hp⟩
    · have hmem : h.notification r' ∈ t.mNotifications := by
        rw [hr.notifications, if_neg hid]
        exact List.mem_append_right _ (List.mem_singleton_self _)
      exact ⟨h.notification r', hmem, rfl, hnew hid⟩
  · exact pending_append hlog (hb.unblocked u (hr.unblocked ▸ hu))
  · have hne : r ≠ INVALID_ID := fun heq => hid (hr.responseId.trans heq)
    have hcurrent : (t.emit (.called h.requestId t.mClientID h.sequenceNr t.mSessionId)).isCurrent
        (h.notification r) = true := by
      simp [isCurrent, emit, hr.responseId, hr.clientID, DataRequest.notification, SPartyID.opEq]
    rw [mNotifications_emit, hr.notifications, if_neg hne, List.filter_append,
      List.filter_cons_of_pos hcurrent, List.filter_nil, List.getLast?_append,
      List.getLast?_singleton] at hlast
    exact Option.some.inj hlast ▸ hnew hne

end Ready

section Request

variable {h : DataRequest} {r : UInt32} {t : CServer} {m : RequestMethod} {user : List UserCall}

/-- The handler gets the request, so its busy state is justified. -/
theorem busy_callHandler (hr : Ready h r s t) (hb : Busy cfg s)
    (hresponse : cfg.getResponse h.requestId = r)
    (hc : r ≠ INVALID_ID → h.sequenceNr ≠ INVALID_SEQUENCE_NR)
    (hfind : AllReached false (looksUp cfg user) t)
    (hs : t.callHandler cfg h user = .ok s') : Busy cfg s' := by
  obtain ⟨hbusy, hcurrent⟩ := hr.called hb hresponse hc
  exact (busy_calls hbusy hcurrent (hfind.of_moves (.of_eq rfl rfl rfl)) hs).1

/-- A payload that decodes gets to the handler. -/
theorem busy_readAndCall (hr : Ready h r s t) (hb : Busy cfg s)
    (hresponse : cfg.getResponse h.requestId = r)
    (hc : r ≠ INVALID_ID → h.sequenceNr ≠ INVALID_SEQUENCE_NR)
    (hfind : AllReached false (looksUp cfg user) t)
    (hd : r ≠ INVALID_ID → m.decodes h.payload = true)
    (hs : t.readAndCall cfg m h user = .ok s') : Busy cfg s' := by
  rw [readAndCall] at hs
  split at hs
  · exact busy_callHandler hr hb hresponse hc hfind hs
  · next hdecodes =>
    have hid : r = INVALID_ID := by_contra (fun hid => hdecodes (hd hid))
    subst hid
    exact Except.ok.inj hs ▸ hr.busy hb

/-- A valid session gets to its callback. -/
theorem busy_endSession (hr : Ready h r s t) (hb : Busy cfg s)
    (hresponse : cfg.getResponse h.requestId = r)
    (hc : r ≠ INVALID_ID → h.sequenceNr ≠ INVALID_SEQUENCE_NR)
    (hfind : AllReached false (looksUp cfg user) t)
    (hd : r ≠ INVALID_ID → t.mSessionId ≠ INVALID_SESSION_ID)
    (hs : t.endSession cfg h user = .ok s') : Busy cfg s' := by
  rw [endSession] at hs
  split at hs
  · next hsession =>
    obtain ⟨u, hu, hs⟩ := Partial.bind_eq_ok hs
    have hbusy := busy_callHandler hr hb hresponse hc hfind hu
    have hkept : u.mSessionId = t.mSessionId := (talks_calls hu).sessionId
    rw [← Except.ok.inj hs]
    have hremoved := busy_removeSessionNotifications hbusy (hkept ▸ hsession)
    exact hremoved.of_eq rfl rfl rfl ⟨[], (List.append_nil _).symm⟩
  · next hsession =>
    have hid : r = INVALID_ID := by_contra (fun hid => hsession (hd hid))
    subst hid
    exact Except.ok.inj hs ▸ hr.busy hb

/-- A session that is left answers nothing. -/
theorem busy_leaveSession (h : Busy cfg s) : Busy cfg s.leaveSession :=
  h.of_eq rfl rfl rfl ⟨[], (List.append_nil _).symm⟩

/-- A method of the stub whose handler finds the clients that it looks up. -/
theorem busy_processMethod (hr : Ready h r s t) (hb : Busy cfg s)
    (hresponse : cfg.getResponse h.requestId = r)
    (hc : r ≠ INVALID_ID → h.sequenceNr ≠ INVALID_SEQUENCE_NR)
    (hfind : AllReached false (looksUp cfg user) s)
    (hlooked : r ≠ INVALID_ID → looksUp cfg user r = true → s.isConnected h.clientID = true)
    (hd : r ≠ INVALID_ID → t.delivers m h = true)
    (hs : t.processMethod cfg m h user = .ok s') : Busy cfg s' := by
  unfold processMethod at hs
  unfold delivers at hd
  rw [hr.clientID] at hs
  cases hk : m.kind with
  | request =>
      rw [hk] at hs hd
      exact busy_readAndCall hr hb hresponse hc (hr.reached hfind hlooked) hd hs
  | register =>
      rw [hk] at hs hd
      obtain ⟨v, hv, hs⟩ := Partial.bind_eq_ok hs
      obtain ⟨w, hw, hs⟩ := Partial.bind_eq_ok hs
      have hready := (hr.enterSession (t.findSession h.sequenceNr h.clientID)).openSession hv
      rw [← Except.ok.inj hs]
      exact busy_leaveSession (busy_readAndCall hready hb hresponse hc
        (hready.reached hfind hlooked) hd hw)
  | unregister =>
      rw [hk] at hs hd
      obtain ⟨v, hv, hs⟩ := Partial.bind_eq_ok hs
      have hready := hr.enterSession (t.findSession h.sequenceNr h.clientID)
      rw [← Except.ok.inj hs]
      exact busy_leaveSession (busy_endSession hready hb hresponse hc
        (hready.reached hfind hlooked) (fun hid => by simpa using hd hid) hv)

end Request

/-- Whether a method delivers depends on the sessions only. -/
theorem delivers_congr {t : CServer} {m : RequestMethod} {h : DataRequest}
    (hs : t.mSessions = s.mSessions) (hi : t.mSessionId = s.mSessionId) :
    t.delivers m h = s.delivers m h := by
  have hsession : (t.enterSession (t.findSession h.sequenceNr h.clientID)).mSessionId =
      (s.enterSession (s.findSession h.sequenceNr h.clientID)).mSessionId := by
    have hfind : t.findSession h.sequenceNr h.clientID = s.findSession h.sequenceNr h.clientID := by
      rw [findSession, findSession, hs]
    rw [hfind]
    cases s.findSession h.sequenceNr h.clientID with
    | none => exact hi
    | some pos =>
        rw [enterSession, enterSession]
        simp only [sessionIdAt, hs]
  rw [delivers, delivers, hsession]

/-- An error to one client looks that client up. -/
theorem busy_sendErrorToClient {c : SPartyID} {id : UInt32} {type : ResultType} {nr : Int32}
    (h : Busy cfg s) (hc : s.isConnected c = true ∨ s.sparesBusy c INVALID_ID = true)
    (hs : s.sendErrorToClient cfg c id type nr = .ok s') : Busy cfg s' := by
  have hfind := busy_findClientConnection h hc
  unfold sendErrorToClient at hs
  dsimp only at hs
  split at hs
  · rw [← Except.ok.inj hs]
    exact hfind.of_eq rfl rfl rfl ⟨[_], rfl⟩
  · obtain ⟨_, _, hs⟩ := Partial.bind_eq_ok hs
    exact Except.ok.inj hs ▸ hfind

/-- What the condition asks of the client, the sequence number and the handler of a request
that is accepted for its response. -/
theorem entryJustifies_iff {h : DataRequest} {user : List UserCall} :
    s.entryJustifies cfg h user = true ↔ h.sequenceNr ≠ INVALID_SEQUENCE_NR ∧
      cfg.requestMethods[h.requestId.toNat]?.all (fun m => s.delivers m h) = true ∧
      (looksUp cfg user (cfg.getResponse h.requestId) = true →
        s.isConnected h.clientID = true) := by
  rw [entryJustifies, Bool.and_eq_true, Bool.and_eq_true, bne_iff_ne, and_assoc]
  cases looksUp cfg user (cfg.getResponse h.requestId) <;> simp

/-- A request keeps the busy states justified, whether it is accepted or refused. -/
theorem busy_handleRequest {h : DataRequest} {user : List UserCall} (hb : Busy cfg s)
    (hc : s.isConnected h.clientID = true ∨ s.sparesBusy h.clientID INVALID_ID = true)
    (hfind : s.isResponseDangling (cfg.getResponse h.requestId) = false →
      AllReached false (looksUp cfg user) s)
    (hentry : s.isResponseDangling (cfg.getResponse h.requestId) = false →
      cfg.getResponse h.requestId ≠ INVALID_ID → s.entryJustifies cfg h user = true)
    (hs : s.handleRequest cfg h user = .ok s') : Busy cfg s' := by
  rcases handleRequest_cases hs with ⟨-, hs⟩ | ⟨hfree, u, hu, rfl⟩
  · exact busy_sendErrorToClient hb hc hs
  · have hentry := fun hid => entryJustifies_iff.mp (hentry hfree hid)
    have hready := Ready.acceptRequest h (cfg.getResponse h.requestId) s
    have hbusy : Busy cfg u := by
      unfold processRequest at hu
      cases hm : cfg.requestMethods[h.requestId.toNat]? with
      | none =>
          have hid : cfg.getResponse h.requestId = INVALID_ID := by
            rw [Config.getResponse, hm]
            rfl
          rw [hm] at hu
          rw [hid] at hu hready
          exact Except.ok.inj hu ▸ hready.busy hb
      | some m =>
          rw [hm] at hu
          refine busy_processMethod hready hb rfl (fun hid => (hentry hid).1) (hfind hfree)
            (fun hid => (hentry hid).2.2) (fun hid => ?_) hu
          have hdelivers := (hentry hid).2.1
          rw [hm, Option.all_some] at hdelivers
          rw [← hdelivers]
          obtain ⟨-, -, hsessions, hsession⟩ :=
            acceptRequest_frame h (cfg.getResponse h.requestId) s
          exact delivers_congr hsessions hsession
    exact hbusy.of_eq rfl rfl rfl ⟨[], (List.append_nil _).symm⟩

/-- A subscription adds its entry, if it is not there. -/
theorem addsEntry_of_notify (cfg : Config) (h : DataRequest) (s : CServer) :
    AddsEntry s (if s.mNotifications.any (isSet h) then s else s.addNotification cfg h) := by
  split
  · exact .refl s
  · obtain ⟨i, nr, l, k, c, id, -, hadd⟩ := addNotification_eq cfg h s
    rw [hadd]
    exact ⟨rfl, ⟨_, rfl⟩, rfl, rfl, rfl, rfl⟩

/-- What the condition asks of a subscription to an attribute that is invalid. -/
theorem busy_sendAttribute {h : DataRequest} {t : CServer} (he : AddsEntry s t) (hb : Busy cfg s)
    (hc : s.isConnected h.clientID = true ∨ s.sparesBusy h.clientID INVALID_ID = true)
    (hinvalid : h.requestId ∈ cfg.attributes → s.attributeState h.requestId = .DATA_INVALID →
      ∀ n ∈ t.mNotifications, n.notifyID = h.requestId → t.isConnected n.clientID = true)
    (hs : t.sendAttribute cfg h = .ok s') : Busy cfg s' := by
  obtain ⟨state, hstate, hs⟩ := Partial.bind_eq_ok hs
  cases state with
  | DATA_NOT_AVAILABLE => exact Except.ok.inj hs ▸ he.busy hb
  | DATA_INVALID =>
      rw [getAttributeState, he.attributes] at hstate
      split at hstate
      · next hid =>
        exact busy_sendNotification (he.busy hb) (hinvalid hid (Except.ok.inj hstate)) hs
      · split at hstate
        · exact absurd (Except.ok.inj hstate) (by simp)
        · exact absurd hstate (by simp)
  | DATA_OK =>
      have hfind := he.busy_findClientConnection hb hc
      dsimp only at hs
      split at hs
      · rw [← Except.ok.inj hs]
        exact hfind.of_eq rfl rfl rfl ⟨[_], rfl⟩
      · obtain ⟨_, _, hs⟩ := Partial.bind_eq_ok hs
        exact Except.ok.inj hs ▸ hfind

/-- A subscription keeps them, also where it sends the value or announces an invalid one. -/
theorem busy_handleNotify {h : DataRequest} (hb : Busy cfg s)
    (hc : s.isConnected h.clientID = true ∨ s.sparesBusy h.clientID INVALID_ID = true)
    (hinvalid : h.requestId ∈ cfg.attributes → s.attributeState h.requestId = .DATA_INVALID →
      s.isConnected h.clientID = true ∧
        AllReached false (looksUp cfg [.sendNotification h.requestId]) s)
    (hs : s.handleNotify cfg h = .ok s') : Busy cfg s' := by
  unfold handleNotify at hs
  have hadds := addsEntry_of_notify cfg h s
  by_cases ha : isAttributeId h.requestId = true
  · rw [if_pos ha] at hs
    refine busy_sendAttribute hadds hb hc (fun hid hstate => ?_) hs
    obtain ⟨hconnected, hfind⟩ := hinvalid hid hstate
    have hbrings : Brings (some h.requestId) h.clientID s
        (if s.mNotifications.any (isSet h) then s else s.addNotification cfg h) := by
      split
      · exact .of_moves (.refl s)
      · exact brings_addNotification cfg h s
    exact (hfind.of_brings hbrings fun _ _ _ => hconnected).connected
      (looksUp_of_mem List.mem_cons_self rfl)
  · rw [if_neg ha] at hs
    exact Except.ok.inj hs ▸ hadds.busy hb

/-- So does a session that is stopped, if it is valid. -/
theorem busy_handleStopSession {h : DataRequest} (hb : Busy cfg s)
    (hi : (s.findSession h.sequenceNr h.clientID).all (fun pos =>
      s.sessionIdAt pos != INVALID_SESSION_ID) = true) : Busy cfg (s.handleStopSession h) := by
  rw [handleStopSession]
  cases hpos : s.findSession h.sequenceNr h.clientID with
  | none => exact hb
  | some pos =>
      rw [hpos] at hi
      exact busy_removeSessionNotifications hb (by simpa using hi)

/-! ## Data requests -/

section Search

variable {h : DataRequest} {user : List UserCall}

/-- The clients that calls look up are still found behind the search for one. -/
theorem findsAll_findClientConnection {c : SPartyID} (hall : s.findsAll cfg user = true) :
    (s.findClientConnection c).2.findsAll cfg user = true :=
  findsAll_iff.mpr
    ((findsAll_iff.mp hall).of_moves (.of_shrinks (shrinks_findClientConnectionBy steady c s)))

/-- What an accepted request needs is there behind the search as it was before. -/
theorem entryJustifies_findClientConnection (c : SPartyID)
    (hentry : s.entryJustifies cfg h user = true) :
    (s.findClientConnection c).2.entryJustifies cfg h user = true := by
  have hshrinks := shrinks_findClientConnectionBy steady c s
  obtain ⟨hnr, hdelivers, hlooked⟩ := entryJustifies_iff.mp hentry
  refine entryJustifies_iff.mpr ⟨hnr, ?_, fun hl => ?_⟩
  · have hsame : ∀ m, (s.findClientConnection c).2.delivers m h = s.delivers m h :=
      fun m => delivers_congr hshrinks.sessions hshrinks.sessionId
    simp only [hsame]
    exact hdelivers
  · rw [isConnected_findClientConnection]
    exact hlooked hl

/-- What an invalid attribute needs is there too. -/
theorem notifyJustifies_findClientConnection (c : SPartyID)
    (hnotify : s.notifyJustifies cfg h = true) :
    (s.findClientConnection c).2.notifyJustifies cfg h = true := by
  rw [notifyJustifies, Bool.or_eq_true, Bool.and_eq_true] at hnotify ⊢
  rw [attributeState_findClientConnection, isConnected_findClientConnection]
  exact hnotify.imp_right fun hfound => ⟨hfound.1, findsAll_findClientConnection hfound.2⟩

/-- A request that meets its condition meets it behind the search for its client. -/
theorem requestJustifies_findClientConnection (hpre : s.requestJustifies cfg h user = true) :
    (s.findClientConnection h.clientID).2.requestJustifies cfg h user = true := by
  unfold requestJustifies at hpre ⊢
  cases ht : h.requestType with
  | REQUEST =>
      rw [ht] at hpre
      simp only [isResponseDangling_findClientConnection, Bool.or_eq_true, Bool.and_eq_true,
        beq_iff_eq] at hpre ⊢
      exact hpre.imp_right fun hfree => ⟨findsAll_findClientConnection hfree.1,
        hfree.2.imp_right (entryJustifies_findClientConnection h.clientID)⟩
  | REQUEST_NOTIFY | REQUEST_REGISTER_NOTIFY =>
      rw [ht] at hpre
      exact notifyJustifies_findClientConnection h.clientID hpre
  | REQUEST_STOP_NOTIFY | REQUEST_STOP_REGISTER_NOTIFY | REQUEST_STOP_ALL_NOTIFY =>
      rw [ht] at hpre
      exact sparesBusy_findClientConnection hpre
  | REQUEST_STOP_ALL_REGISTER_NOTIFY =>
      rw [ht] at hpre
      have hsessions : (s.findClientConnection h.clientID).2.mSessions = s.mSessions :=
        (shrinks_findClientConnectionBy steady h.clientID s).sessions
      simp only [findSession, sessionIdAt, hsessions]
      exact hpre
  | REQUEST_LOAD_COMPONENT => rfl

end Search

/-- The condition on a subscription, where the attribute is invalid. -/
theorem of_notifyJustifies {h : DataRequest} (hnotify : s.notifyJustifies cfg h = true)
    (hid : h.requestId ∈ cfg.attributes) (hstate : s.attributeState h.requestId = .DATA_INVALID) :
    s.isConnected h.clientID = true ∧
      AllReached false (looksUp cfg [.sendNotification h.requestId]) s := by
  rw [notifyJustifies, List.contains_iff_mem.mpr hid, hstate, beq_self_eq_true,
    Bool.and_self, Bool.not_true, Bool.false_or, Bool.and_eq_true] at hnotify
  exact ⟨hnotify.1, findsAll_iff.mp hnotify.2⟩

/-- A data request that meets its condition, behind the search for its client. -/
theorem busy_dispatchRequest {h : DataRequest} {user : List UserCall} (hb : Busy cfg s)
    (hc : s.isConnected h.clientID = true ∨ s.sparesBusy h.clientID INVALID_ID = true)
    (hpre : s.requestJustifies cfg h user = true)
    (hs : s.dispatchRequest cfg h user = .ok s') : Busy cfg s' := by
  unfold dispatchRequest at hs
  unfold requestJustifies at hpre
  cases ht : h.requestType with
  | REQUEST =>
      rw [ht] at hs hpre
      have hfree : s.isResponseDangling (cfg.getResponse h.requestId) = false →
          s.findsAll cfg user = true ∧
            (cfg.getResponse h.requestId = INVALID_ID ∨ s.entryJustifies cfg h user = true) := by
        intro hfree
        rw [hfree, Bool.false_or, Bool.and_eq_true, Bool.or_eq_true, beq_iff_eq] at hpre
        exact hpre
      exact busy_handleRequest hb hc (fun h' => findsAll_iff.mp (hfree h').1)
        (fun h' hid => (hfree h').2.resolve_left hid) hs
  | REQUEST_NOTIFY | REQUEST_REGISTER_NOTIFY =>
      rw [ht] at hs hpre
      exact busy_handleNotify hb hc (of_notifyJustifies hpre) hs
  | REQUEST_STOP_NOTIFY | REQUEST_STOP_REGISTER_NOTIFY | REQUEST_STOP_ALL_NOTIFY =>
      rw [ht] at hs hpre
      exact Except.ok.inj hs ▸ busy_removeNotification hb hpre
  | REQUEST_STOP_ALL_REGISTER_NOTIFY =>
      rw [ht] at hs hpre
      exact Except.ok.inj hs ▸ busy_handleStopSession hb hpre
  | REQUEST_LOAD_COMPONENT =>
      rw [ht] at hs
      exact Except.ok.inj hs ▸ hb

/-- A data request that meets the condition. -/
theorem busy_handleDataRequest {h : DataRequest} {user : List UserCall} (hb : Busy cfg s)
    (hpre : s.stepJustifies cfg (.dataRequest h user) = true)
    (hs : s.handleDataRequest cfg h user = .ok s') : Busy cfg s' := by
  rw [stepJustifies, Bool.and_eq_true, Bool.or_eq_true] at hpre
  obtain ⟨hspares, hrequest⟩ := hpre
  have hfind := busy_findClientConnection hb hspares
  unfold handleDataRequest at hs
  simp only [fst_findClientConnection] at hs
  by_cases hv : protoMinorOf (s.findConnection h.clientID) ≠ h.protoMinor
  · rw [if_pos hv] at hs
    exact Except.ok.inj hs ▸ hfind
  · rw [if_neg hv] at hs
    rw [not_not] at hv
    rw [hv, bne_self_eq_false, Bool.false_or] at hrequest
    exact busy_dispatchRequest hfind (spares_findClientConnection hspares)
      (requestJustifies_findClientConnection hrequest) hs

/-! ## Clients that go -/

/-- So does a client that goes, if it takes no busy entry along. -/
theorem busy_dropClient {c : SPartyID} {user : List (List UserCall)} (hb : Busy cfg s)
    (hpre : s.dropJustifies cfg c user = true) (hs : s.dropClient cfg c user = .ok s') :
    Busy cfg s' := by
  rw [dropJustifies, Bool.and_eq_true, findsAll_iff] at hpre
  obtain ⟨hspares, hfind⟩ := hpre
  obtain ⟨t, ht, hs⟩ := Partial.bind_eq_ok hs
  obtain ⟨r, hr, ht⟩ := Partial.bind_eq_ok ht
  have hremoved := busy_removeNotification hb hspares
  -- no entry of the client is left that a callback could unblock
  have hcurrent : Current cfg
      { s.removeNotification c INVALID_ID with mClientID := c } := by
    intro _ n hlast
    have hmem := List.mem_filter.mp (List.mem_of_getLast? hlast)
    rw [removeNotification_eq] at hmem
    have hnot := (List.mem_filter.mp hmem.1).2
    have hcur := hmem.2
    rw [isCurrent, Bool.and_eq_true] at hcur
    have hremovedNow : isRemoved INVALID_ID c n = true := by
      rw [isRemoved, hcur.2, beq_self_eq_true, Bool.true_or, Bool.true_and]
    rw [hremovedNow] at hnot
    exact absurd hnot (by simp)
  have hmoves : Moves s { s.removeNotification c INVALID_ID with mClientID := c } :=
    .trans (.of_shrinks (shrinks_removeNotificationBy steady c INVALID_ID s))
      (.of_eq rfl rfl rfl)
  have hloop : Busy cfg r.2 ∧ Current cfg r.2 ∧
      AllReached false (looksUp cfg user.flatten) r.2 := by
    refine removeAllLoop_preserves
      (I := fun s => Busy cfg s ∧ Current cfg s ∧ AllReached false (looksUp cfg user.flatten) s)
      (s := { s.removeNotification c INVALID_ID with mClientID := c })
      (fun cs hcs o nr v v' hv hcalls => ?_) (fun v hv => ?_)
      ⟨?_, hcurrent, hfind.of_moves hmoves⟩ hr
    · have hstart : Busy cfg { emit o v with mCurrentSequenceNr := nr } :=
        hv.1.of_eq rfl rfl rfl ⟨[o], rfl⟩
      have hfound : AllReached false (looksUp cfg user.flatten)
          { emit o v with mCurrentSequenceNr := nr } := hv.2.2.of_moves (.of_eq rfl rfl rfl)
      have hsub : ∀ call ∈ cs, call ∈ user.flatten := by
        intro call hcall
        rcases hcs with rfl | hcs
        · exact absurd hcall List.not_mem_nil
        · exact List.mem_flatten_of_mem hcs hcall
      have hbehind := busy_calls hstart (hv.2.1.of_eq rfl rfl rfl ⟨[o], rfl⟩)
        (hfound.mono (looksUp_of_subset hsub)) hcalls
      exact ⟨hbehind.1.of_eq rfl rfl rfl ⟨[], (List.append_nil _).symm⟩,
        hbehind.2.of_eq rfl rfl rfl ⟨[], (List.append_nil _).symm⟩,
        (hfound.of_moves (moves_calls hcalls)).of_moves (.of_eq rfl rfl rfl)⟩
    · exact ⟨hv.1.of_eq rfl rfl rfl ⟨[], (List.append_nil _).symm⟩,
        hv.2.1.of_eq rfl rfl rfl ⟨[], (List.append_nil _).symm⟩,
        hv.2.2.of_moves (.of_eq rfl rfl rfl)⟩
    · exact hremoved.of_eq rfl rfl rfl ⟨[], (List.append_nil _).symm⟩
  have ht' := Except.ok.inj ht
  have hs' := Except.ok.inj hs
  subst ht' hs'
  exact hloop.1.of_keeps ⟨[], (List.append_nil _).symm⟩ (fun _ h' => h')
    (fun _ hn _ _ => hn) (fun u hu => (List.mem_filter.mp hu).1)

/-- So does a disconnect request. -/
theorem busy_disconnect {c : SPartyID} {user : List (List UserCall)} (hb : Busy cfg s)
    (hpre : s.isConnected c = false ∨ s.dropJustifies cfg c user = true)
    (hs : s.handleDisconnectRequest cfg c user = .ok s') : Busy cfg s' := by
  unfold handleDisconnectRequest at hs
  cases hc : s.findConnection c with
  | none =>
      rw [hc] at hs
      exact Except.ok.inj hs ▸ hb
  | some conn =>
      rw [hc] at hs
      have hid : conn.clientID = c := clientID_of_findConnection hc
      have hdrop : s.dropJustifies cfg conn.clientID user = true := by
        rw [hid]
        exact hpre.resolve_left (by rw [isConnected, hc]; simp)
      dsimp only at hs
      split at hs
      · have hemit : Busy cfg (s.emit (.clearNotification conn.notificationID)) :=
          hb.of_eq rfl rfl rfl ⟨[_], rfl⟩
        exact busy_dropClient hemit hdrop hs
      · exact busy_dropClient hb hdrop hs

/-- So does a detach pulse. -/
theorem busy_detached {id : Int32} {user : List (List UserCall)} (hb : Busy cfg s)
    (hpre : (s.mClientConnections.find? (fun conn => conn.id == id)).all (fun conn =>
      s.dropJustifies cfg conn.clientID user) = true)
    (hs : s.handleClientDetached cfg id user = .ok s') : Busy cfg s' := by
  unfold handleClientDetached at hs
  cases hc : s.mClientConnections.find? (fun conn => conn.id == id) with
  | none =>
      rw [hc] at hs
      exact Except.ok.inj hs ▸ hb
  | some conn =>
      rw [hc] at hs hpre
      exact busy_dropClient hb hpre hs

/-- So does an interface that goes when nothing is busy. -/
theorem busy_unregisterInterface (hb : Busy cfg s)
    (hspares : s.mClientConnections.all (fun conn => s.sparesBusy conn.clientID INVALID_ID) =
      true) : Busy cfg s.unregisterInterface := by
  obtain ⟨l, os, hos⟩ := cleanup_eq s.mClientConnections s
  have hstates : s.unregisterInterface.mResponseStateMap = s.mResponseStateMap := by
    rw [unregisterInterface, hos]
  refine hb.of_keeps ⟨os, by rw [unregisterInterface, hos]⟩ (fun r hr => ?_)
    (fun n hn hr hshot => ?_) (fun u hu => ?_)
  · exact hstates ▸ hr
  · have hold : s.mResponseStateMap n.notifyID = true := hstates ▸ hr
    have hmem : n ∈ s.mNotifications.filter (fun n => s.mClientConnections.all (fun conn =>
        !isRemoved INVALID_ID conn.clientID n)) := by
      refine List.mem_filter.mpr ⟨hn, List.all_eq_true.mpr (fun conn hconn => ?_)⟩
      have hspared := List.all_eq_true.mp hspares conn hconn
      rw [not_isRemoved_of_sparesBusy hspared hn hold hshot]
      rfl
    exact (mNotifications_cleanup s.mClientConnections s) ▸ hmem
  · exact (mUnblockedSessions_cleanup s.mClientConnections s) ▸ hu

/-! ## The run -/

/-- At the beginning nothing is busy. -/
theorem busy_init (cfg : Config) : Busy cfg init :=
  ⟨fun _ hr => absurd hr Bool.false_ne_true, fun _ hu => absurd hu List.not_mem_nil⟩

/-- A step that meets the condition keeps the busy state justified. -/
theorem busy_step {e : Event} (hb : Busy cfg s) (hpre : s.stepJustifies cfg e = true)
    (hs : step cfg s e = .ok s') : Busy cfg s' := by
  cases e with
  | connect q =>
      obtain ⟨l, n, -, hconnect⟩ := handleConnectRequest_eq cfg q s
      have hs' := (Except.ok.inj hs).symm.trans hconnect
      subst hs'
      exact hb.of_eq rfl rfl rfl ⟨[], (List.append_nil _).symm⟩
  | disconnect c user =>
      rw [stepJustifies, Bool.or_eq_true, Bool.not_eq_true'] at hpre
      exact busy_disconnect hb hpre hs
  | detached id user => exact busy_detached hb hpre hs
  | dataRequest h user => exact busy_handleDataRequest hb hpre hs
  | user user =>
      rw [stepJustifies, Bool.and_eq_true, findsAll_iff] at hpre
      exact busy_calls_outside hb (by simpa using hpre.1) hpre.2 hs
  | channelClosed channel =>
      exact Except.ok.inj hs ▸ hb.of_eq rfl rfl rfl ⟨[], (List.append_nil _).symm⟩
  | unregisterInterface => exact Except.ok.inj hs ▸ busy_unregisterInterface hb hpre
  | createId => exact Except.ok.inj hs ▸ hb.of_eq rfl rfl rfl ⟨[], (List.append_nil _).symm⟩

/-- In every state reached by steps that meet the condition, for every busy response
there is a pending request that its handler has got. -/
theorem justified_of_along {es : List Event}
    (ha : Partial.Along (step cfg) (fun s e => s.stepJustifies cfg e = true) init es)
    (hrun : run cfg init es = .ok s) : Justified cfg s :=
  (Partial.invariant (I := Busy cfg) (fun _ _ _ hb hpre hs => busy_step hb hpre hs) (busy_init cfg)
    ha hrun).justified

/-- A request is unblocked, a second one pends; the client of the first goes, and the
second is answered. -/
def requestsComeAndGo : List Event :=
  [connects ⟨1, 0⟩ 1, connects ⟨2, 0⟩ 2, asks ⟨1, 0⟩ .REQUEST 0 7 [.unblockRequest],
    asks ⟨2, 0⟩ .REQUEST 0 5 [], .disconnect ⟨1, 0⟩ []]

theorem justified_requestsComeAndGo :
    ∃ s, run (exampleConfig false) init requestsComeAndGo = .ok s ∧
      s.mResponseStateMap 0x80000001 = true ∧ Justified (exampleConfig false) s := by
  obtain ⟨s, hs, hn⟩ : ∃ s, run (exampleConfig false) init requestsComeAndGo = .ok s ∧
      s.mResponseStateMap 0x80000001 = true := by decide +kernel
  exact ⟨s, hs, hn, justified_of_along (by decide +kernel) hs⟩

/-- The client of a pending request goes. -/
def clientOfPendingGoes : List Event :=
  [connects ⟨1, 0⟩ 1, connects ⟨2, 0⟩ 2, asks ⟨1, 0⟩ .REQUEST 0 7 [], .disconnect ⟨1, 0⟩ []]

/-- A request comes whose parameters cannot be read. -/
def requestNotRead : List Event :=
  [connects ⟨1, 0⟩ 1, connects ⟨2, 0⟩ 2,
    .dataRequest { requestType := .REQUEST, requestId := 0, clientID := ⟨1, 0⟩, protoMinor := 0
                   sequenceNr := 7, payload := [1] } []]

/-- In both runs the response stays busy without a pending request, and the next client
is told so. -/
theorem not_justified_gone_or_not_read :
    (∃ s, run (exampleConfig false) init clientOfPendingGoes = .ok s ∧
      ¬ Justified (exampleConfig false) s) ∧
    (∃ s, run (exampleConfig false) init requestNotRead = .ok s ∧
      ¬ Justified (exampleConfig false) s) ∧
    ∀ es ∈ [clientOfPendingGoes, requestNotRead],
      ∃ s, run (exampleConfig false) init (es ++ [asks ⟨2, 0⟩ .REQUEST 0 5 []]) = .ok s ∧
        s.log.getLast? = some (.message
          { clientID := ⟨2, 0⟩, serverID := ⟨9, 0⟩, protoMinor := 0
            responseType := .RESULT_REQUEST_BUSY, requestID := 0, sequenceNumber := 5 }) := by
  have hunjustified : ∀ s : CServer, s.mResponseStateMap 0x80000001 = true ∧
      (∀ n ∈ s.mNotifications, s.pending (exampleConfig false) n = false) →
        ¬ Justified (exampleConfig false) s := by
    rintro s ⟨hbusy, hnone⟩ h
    obtain ⟨n, hn, -, hp⟩ := h _ hbusy
    exact absurd hp (by simp [hnone n hn])
  have hgone : ∃ s, run (exampleConfig false) init clientOfPendingGoes = .ok s ∧
      s.mResponseStateMap 0x80000001 = true ∧
        ∀ n ∈ s.mNotifications, s.pending (exampleConfig false) n = false := by decide +kernel
  have hnotRead : ∃ s, run (exampleConfig false) init requestNotRead = .ok s ∧
      s.mResponseStateMap 0x80000001 = true ∧
        ∀ n ∈ s.mNotifications, s.pending (exampleConfig false) n = false := by decide +kernel
  obtain ⟨s, hs, hbad⟩ := hgone
  obtain ⟨t, ht, hbad'⟩ := hnotRead
  exact ⟨⟨s, hs, hunjustified s hbad⟩, ⟨t, ht, hunjustified t hbad'⟩, by decide +kernel⟩

end CServer

end Dsi
