import Dsi.Server.Subscriptions
import Dsi.Server.Stub

/-!
# Dsi.Server.Announces

What the operations of a server do about its attributes.  All of them but the setting
of an attribute, a `sendError` for one and a new subscription leave the attributes as
they are and make no subscriber, and what they send about an attribute is its state
(`Announces`).  The two that set an attribute send every live subscriber what it is now.
-/

namespace Dsi

namespace CServer

open Sequence

/-- The update IDs of an interface: attributes are in their range, and request methods
below it. -/
structure Config.Sound (cfg : Config) : Prop where
  attributes : ∀ id ∈ cfg.attributes, isAttributeId id = true ∧ id ≠ INVALID_ID
  requestMethods : cfg.requestMethods.length ≤ ATTRIBUTE_ID_FIRST.toNat

/-- No response is an attribute. -/
theorem Config.Sound.not_response {cfg : Config} (h : cfg.Sound) {id : UInt32}
    (hid : id = INVALID_ID ∨ isResponseId id = true) : id ∉ cfg.attributes := by
  intro hmem
  obtain ⟨hattr, hne⟩ := h.attributes id hmem
  rcases hid with rfl | hid
  · exact hne rfl
  · simp only [isResponseId, Bool.and_eq_true, decide_eq_true_eq] at hid
    simp only [isAttributeId, decide_eq_true_eq] at hattr
    exact absurd (UInt32.lt_of_lt_of_le hid.2 hattr) (UInt32.lt_irrefl id)

/-- A request with a response is no attribute. -/
theorem Config.Sound.not_request {cfg : Config} (h : cfg.Sound) {id : UInt32}
    (hid : cfg.getResponse id ≠ INVALID_ID) : id ∉ cfg.attributes := by
  intro hmem
  have hattr := (h.attributes id hmem).1
  rw [Config.getResponse] at hid
  cases hm : cfg.requestMethods[id.toNat]? with
  | none => rw [hm] at hid; exact hid rfl
  | some m =>
      obtain ⟨hlt, -⟩ := List.getElem?_eq_some_iff.mp hm
      have hle := h.requestMethods
      simp only [isAttributeId, decide_eq_true_eq, UInt32.le_iff_toNat_le] at hattr
      omega

/-! ## What an operation announces -/

/-- What keeps attributes out of the responses: no attribute is the response that is being
handled or one of an unblocked request.  All clients speak this version. -/
structure Tidy (cfg : Config) (s : CServer) : Prop where
  responseId : s.mResponseId ∉ cfg.attributes
  unblocked : ∀ u ∈ s.mUnblockedSessions, u.2.notifyID ∉ cfg.attributes
  versions : ∀ conn ∈ s.mClientConnections, conn.protoMinor = DSI_PROTOCOL_VERSION_MINOR

/-- A message about an attribute says what its state is, and there is one to say. -/
def Truthful (cfg : Config) (s : CServer) (m : Message) : Prop :=
  m.requestID ∈ cfg.attributes →
    m.protoMinor = DSI_PROTOCOL_VERSION_MINOR ∧
      m.responseType = updateType (s.attributeState m.requestID) ∧
      s.attributeState m.requestID ≠ .DATA_NOT_AVAILABLE

/-- The step from `s` to `s'` leaves the attributes alone, makes no live subscriber of one,
and says about them what is true. -/
structure Announces (cfg : Config) (s s' : CServer) : Prop where
  tidy : Tidy cfg s'
  states : s'.attributeState = s.attributeState
  entries : ∀ n ∈ s'.mNotifications, n.notifyID ∈ cfg.attributes →
    n ∈ s.mNotifications ∧ (s'.isLive n.clientID = true → s.isLive n.clientID = true)
  log : ∃ os, s'.log = s.log ++ os ∧ ∀ o ∈ os, ∀ m, o.message? = some m → Truthful cfg s m

variable {cfg : Config} {s s' t : CServer}

/-- Who is live depends on the connections only. -/
theorem isLive_of_connections (h : s'.mClientConnections = s.mClientConnections) (c : SPartyID) :
    s'.isLive c = s.isLive c := by
  rw [isLive, isLive, findConnection_of_connections h]

/-- What is true of the attributes stays true while they stay. -/
theorem Truthful.congr {m : Message} (h : s'.attributeState = s.attributeState)
    (hm : Truthful cfg s' m) : Truthful cfg s m := by
  rw [Truthful, h] at hm
  exact hm

namespace Announces

/-- Nothing happens. -/
theorem refl (ht : Tidy cfg s) : Announces cfg s s :=
  ⟨ht, rfl, fun _ hn _ => ⟨hn, id⟩, [], (List.append_nil _).symm, by simp⟩

/-- One announcement after the other. -/
theorem trans (h : Announces cfg s t) (h' : Announces cfg t s') : Announces cfg s s' where
  tidy := h'.tidy
  states := h'.states.trans h.states
  entries := fun n hn hid => by
    obtain ⟨hmem, hlive⟩ := h'.entries n hn hid
    obtain ⟨hmem', hlive'⟩ := h.entries n hmem hid
    exact ⟨hmem', fun hl => hlive' (hlive hl)⟩
  log := by
    obtain ⟨os, hos, hms⟩ := h.log
    obtain ⟨os', hos', hms'⟩ := h'.log
    refine ⟨os ++ os', by rw [hos', hos, List.append_assoc], fun o ho m hm => ?_⟩
    rcases List.mem_append.mp ho with ho | ho
    · exact hms o ho m hm
    · exact (hms' o ho m hm).congr h.states

/-- A step with the connections as they were that sends nothing. -/
theorem of_quiet (ht : Tidy cfg s) (hr : s'.mResponseId ∉ cfg.attributes)
    (hu : ∀ u ∈ s'.mUnblockedSessions, u.2.notifyID ∉ cfg.attributes)
    (hc : s'.mClientConnections = s.mClientConnections)
    (hs : s'.attributeState = s.attributeState)
    (hn : ∀ n ∈ s'.mNotifications, n.notifyID ∈ cfg.attributes → n ∈ s.mNotifications)
    (hl : ∃ os, s'.log = s.log ++ os ∧ ∀ o ∈ os, o.message? = none) : Announces cfg s s' where
  tidy := ⟨hr, hu, hc ▸ ht.versions⟩
  states := hs
  entries := fun n hmem hid =>
    ⟨hn n hmem hid, fun hlive => isLive_of_connections hc n.clientID ▸ hlive⟩
  log := by
    obtain ⟨os, hos, hnone⟩ := hl
    refine ⟨os, hos, fun o ho m hm => ?_⟩
    rw [hnone o ho] at hm
    exact absurd hm (by simp)

/-- A step that takes notifications away and says what is true. -/
theorem of_shrinks (hcfg : cfg.Sound) (ht : Tidy cfg s) (h : Shrinks s s')
    (hs : s'.attributeState = s.attributeState)
    (hms : ∃ ms : List Message, s'.log = s.log ++ ms.map .message ∧ ∀ m ∈ ms, Truthful cfg s m) :
    Announces cfg s s' where
  tidy := by
    refine ⟨?_, h.unblocked ▸ ht.unblocked, h.connections ▸ ht.versions⟩
    rcases h.responseId with hr | hr
    · exact hr ▸ ht.responseId
    · exact hr ▸ hcfg.not_response (Or.inl rfl)
  states := hs
  entries := fun n hn _ => ⟨h.notifications.subset hn,
    fun hl => isLive_of_connections h.connections n.clientID ▸ hl⟩
  log := by
    obtain ⟨ms, hlog, htruth⟩ := hms
    refine ⟨ms.map .message, hlog, fun o ho m hm => ?_⟩
    obtain ⟨m', hm', rfl⟩ := List.mem_map.mp ho
    obtain rfl := Option.some.inj hm
    exact htruth m' hm'

end Announces

/-! ## Looking up and removing -/

/-- A client that is not found is told nothing, and loses its entries. -/
theorem announces_findClientConnection (hcfg : cfg.Sound) (ht : Tidy cfg s) (c : SPartyID) :
    Announces cfg s (s.findClientConnection c).2 :=
  .of_shrinks hcfg ht (shrinks_findClientConnectionBy _ c s)
    (sameView_findClientConnection c s).attributeState
    ⟨[], by rw [(sameView_findClientConnection c s).log, List.map_nil, List.append_nil], by simp⟩

/-- Entries that are removed are told nothing. -/
theorem announces_removeNotification (hcfg : cfg.Sound) (ht : Tidy cfg s) (c : SPartyID)
    (id : UInt32) : Announces cfg s (s.removeNotification c id) := by
  rw [removeNotification_eq]
  exact .of_shrinks hcfg ht (.of_sublist List.filter_sublist) rfl
    ⟨[], by rw [List.map_nil, List.append_nil], by simp⟩

/-- Nor are those of a session that goes. -/
theorem announces_removeSessionNotifications (ht : Tidy cfg s) (sessionId : Int32) :
    Announces cfg s (s.removeSessionNotifications sessionId) :=
  .of_quiet ht ht.responseId ht.unblocked rfl rfl (fun _ hn _ => mem_of_mem_removeIfShift hn)
    ⟨[], (List.append_nil _).symm, by simp⟩

/-! ## What is sent -/

/-- A connection of the server speaks the version that a proxy expects. -/
theorem protoMinor_of_findConnection (ht : Tidy cfg s) {c : SPartyID} {conn : ClientConnection}
    (h : s.findConnection c = some conn) : conn.protoMinor = DSI_PROTOCOL_VERSION_MINOR :=
  ht.versions conn (List.mem_of_find?_eq_some h)

/-- The search for a client is not seen outside. -/
theorem sameView_findClientConnectionBy (reread : SPartyID → List Notification → SPartyID)
    (c : SPartyID) (s : CServer) : SameView s (s.findClientConnectionBy reread c).2 := by
  rw [findClientConnectionBy]
  cases s.findConnection c with
  | some conn => exact .refl s
  | none => exact ⟨rfl, rfl, rfl⟩

/-- The step from `s` to `s'` leaves the attributes alone, and sends about one ID. -/
structure Notes (id : UInt32) (s s' : CServer) : Prop where
  states : s'.attributeState = s.attributeState
  log : ∃ ms : List Message, s'.log = s.log ++ ms.map .message ∧ ∀ m ∈ ms, m.requestID = id

namespace Notes

variable {id : UInt32}

/-- What is not seen outside is about no ID. -/
theorem of_sameView (h : SameView s s') : Notes id s s' :=
  ⟨h.attributeState, [], by rw [h.log, List.map_nil, List.append_nil], by simp⟩

/-- Both parts are about the ID. -/
theorem trans (h : Notes id s t) (h' : Notes id t s') : Notes id s s' where
  states := h'.states.trans h.states
  log := by
    obtain ⟨ms, hms, hid⟩ := h.log
    obtain ⟨ms', hms', hid'⟩ := h'.log
    refine ⟨ms ++ ms', by rw [hms', hms, List.map_append, List.append_assoc], fun m hm => ?_⟩
    exact (List.mem_append.mp hm).elim (hid m) (hid' m)

/-- A message about the ID. -/
theorem message {m : Message} (hm : m.requestID = id) : Notes id s (s.emit (.message m)) :=
  ⟨rfl, [m], rfl, fun _ hmem => List.mem_singleton.mp hmem ▸ hm⟩

/-- What is sent about something that is no attribute. -/
theorem announces (hcfg : cfg.Sound) (ht : Tidy cfg s) (hs : Shrinks s s') (h : Notes id s s')
    (hid : id ∉ cfg.attributes) : Announces cfg s s' := by
  obtain ⟨ms, hms, hnot⟩ := h.log
  refine .of_shrinks hcfg ht hs h.states ⟨ms, hms, fun m hm hmem => ?_⟩
  exact absurd (hnot m hm ▸ hmem) hid

end Notes

/-- A subscriber is told about the ID that it subscribed to. -/
theorem notes_notifyOne {id : UInt32} {idx : Nat} {n : Notification}
    (h : s.notifyOne cfg id idx n = .ok s') : Notes id s s' := by
  have hfind : Notes id s (s.findClientConnectionAt idx n).2 :=
    .of_sameView (sameView_findClientConnectionBy _ n.clientID s)
  rw [notifyOne] at h
  dsimp only at h
  split at h
  · obtain ⟨state, -, h⟩ := Partial.bind_eq_ok h
    exact Except.ok.inj h ▸ hfind.trans (.message rfl)
  · obtain ⟨_, -, h⟩ := Partial.bind_eq_ok h
    exact Except.ok.inj h ▸ hfind

/-- So are all subscribers of the ID. -/
theorem notes_sendNotification {id : UInt32} (h : s.sendNotification cfg id = .ok s') :
    Notes id s s' := by
  have hloop : ∀ (rounds idx : Nat) (s : CServer),
      notifyLoop cfg id rounds idx s = .ok s' → Notes id s s' := by
    intro rounds
    induction rounds with
    | zero => exact fun idx s h => Except.ok.inj h ▸ .of_sameView (.refl s)
    | succ rounds ih =>
        intro idx s h
        rw [notifyLoop] at h
        split at h
        · exact Except.ok.inj h ▸ .of_sameView (.refl s)
        · split at h
          · obtain ⟨t, hone, hrest⟩ := Partial.bind_eq_ok h
            exact (notes_notifyOne hone).trans (ih (idx + 1) t hrest)
          · exact ih (idx + 1) s h
  exact hloop _ _ s h

/-- An error is about its ID. -/
theorem notes_sendErrorToClient {c : SPartyID} {id : UInt32} {type : ResultType} {nr : Int32}
    (h : s.sendErrorToClient cfg c id type nr = .ok s') : Notes id s s' := by
  have hfind : Notes id s (s.findClientConnection c).2 :=
    .of_sameView (sameView_findClientConnectionBy _ c s)
  rw [sendErrorToClient] at h
  split at h
  · exact Except.ok.inj h ▸ hfind.trans (.message rfl)
  · obtain ⟨_, -, h⟩ := Partial.bind_eq_ok h
    exact Except.ok.inj h ▸ hfind

/-- A response is about its ID. -/
theorem notes_responseLoop {l : ResponseLoop} (h : l.run cfg s = .ok s') : Notes l.id s s' := by
  have hone : ∀ {idx : Nat} {n : Notification} {s t : CServer},
      l.one cfg idx n s = .ok t → Notes l.id s t := by
    intro idx n s t h
    have hfind : Notes l.id s (s.findClientConnectionAt idx n).2 :=
      .of_sameView (sameView_findClientConnectionBy _ n.clientID s)
    rw [ResponseLoop.one] at h
    dsimp only at h
    split at h
    · split at h
      · exact Except.ok.inj h ▸ (hfind.trans (.message rfl)).trans (.of_sameView ⟨rfl, rfl, rfl⟩)
      · exact Except.ok.inj h ▸ hfind.trans (.message rfl)
    · split at h
      · obtain ⟨_, -, h⟩ := Partial.bind_eq_ok h
        exact Except.ok.inj h ▸ hfind
      · exact Except.ok.inj h ▸ hfind
  have hloop : ∀ (idx : Nat) (s t : CServer), l.loop cfg idx s = .ok t → Notes l.id s t := by
    intro idx
    induction idx with
    | zero => exact fun s t h => Except.ok.inj h ▸ .of_sameView (.refl s)
    | succ idx ih =>
        intro s t h
        rw [ResponseLoop.loop] at h
        split at h
        · exact absurd h (by simp)
        · split at h
          · obtain ⟨u, hfirst, hrest⟩ := Partial.bind_eq_ok h
            exact (hone hfirst).trans (ih u t hrest)
          · exact ih s t h
  obtain ⟨t, ht, h⟩ := Partial.bind_eq_ok h
  rw [← Except.ok.inj h]
  refine (hloop _ s t ht).trans (.of_sameView ?_)
  split
  · exact ⟨rfl, rfl, rfl⟩
  · exact .refl t

/-! ## The calls of the application -/

/-- What a call does that does not set an attribute.  Of one that is not available yet the
subscribers would hear that it is invalid. -/
theorem announces_sendNotification (hcfg : cfg.Sound) (ht : Tidy cfg s)
    (hreach : AllReached (!cfg.NDEBUG) (fun _ => true) s) {id : UInt32}
    (hna : id ∈ cfg.attributes → s.attributeState id ≠ .DATA_NOT_AVAILABLE)
    (h : s.sendNotification cfg id = .ok s') : Announces cfg s s' := by
  by_cases hid : id ∈ cfg.attributes
  · have hc : ∀ n ∈ s.mNotifications, n.notifyID = id → s.isConnected n.clientID = true :=
      fun n hn _ => isConnected_of_reaches (hreach n (mem_held.mpr (Or.inl hn)) rfl)
    obtain ⟨ms, rfl, hms⟩ := sendNotification_of_connected hc h
    obtain rfl := hms _ (getAttributeState_of_mem hid s)
    refine .of_shrinks hcfg ht (shrinks_sendNotification h) rfl ⟨_, rfl, fun m hm _ => ?_⟩
    obtain ⟨hrequest, htype⟩ := mem_updates hm
    refine ⟨?_, hrequest ▸ htype, hrequest ▸ hna hid⟩
    obtain ⟨n, -, hn⟩ := List.mem_filterMap.mp hm
    rw [update] at hn
    split at hn
    · obtain ⟨conn, hconn, rfl⟩ := Option.map_eq_some_iff.mp hn
      exact protoMinor_of_findConnection ht (eq_of_live hconn)
    · exact absurd hn (by simp)
  · exact (notes_sendNotification h).announces hcfg ht (shrinks_sendNotification h) hid

/-- An entry that is moved between the notifications and the unblocked requests is no
entry for an attribute. -/
theorem announces_takeCurrent (ht : Tidy cfg s) : Announces cfg s s.takeCurrent.2 := by
  rcases takeCurrent_cases s with ⟨heq, -⟩ | ⟨front, n, back, hs, hcurrent, -, heq⟩
  · rw [heq]
    exact .refl ht
  · rw [heq]
    have hn : n.notifyID = s.mResponseId := by
      simp only [isCurrent, Bool.and_eq_true, beq_iff_eq] at hcurrent
      exact hcurrent.1.1
    refine .of_quiet ht ht.responseId (fun u hu => ?_) rfl rfl (fun m hm _ => ?_)
      ⟨[], (List.append_nil _).symm, by simp⟩
    · rcases List.mem_append.mp hu with hu | hu
      · exact ht.unblocked u (List.mem_filter.mp hu).1
      · rw [List.mem_singleton.mp hu, hn]
        exact ht.responseId
    · rw [hs]
      rcases List.mem_append.mp hm with hm | hm
      · exact List.mem_append_left _ hm
      · exact List.mem_append_right _ (List.mem_cons_of_mem n hm)

/-- A request that is unblocked is no attribute. -/
theorem announces_unblockRequest (hcfg : cfg.Sound) (ht : Tidy cfg s) {r : Int32 × CServer}
    (h : s.unblockRequest cfg = .ok r) : Announces cfg s r.2 := by
  rcases unblockRequest_cases h with rfl | ⟨-, rfl⟩
  · exact .refl ht
  · have htake := announces_takeCurrent ht
    refine htake.trans (.of_quiet htake.tidy (hcfg.not_response (Or.inl rfl))
      htake.tidy.unblocked rfl rfl (fun _ hn _ => hn) ⟨[], (List.append_nil _).symm, by simp⟩)

/-- Nor is one that is put back. -/
theorem announces_prepareResponse (ht : Tidy cfg s) {handle : Int32}
    (h : s.prepareResponse cfg handle = .ok s') : Announces cfg s s' := by
  rcases prepareResponse_cases h with rfl | ⟨u, hu, rfl⟩
  · exact .refl ht
  · have hnot := ht.unblocked u (List.mem_of_find?_eq_some hu)
    refine .of_quiet ht hnot (fun v hv => ht.unblocked v (List.mem_filter.mp hv).1) rfl rfl
      (fun n hn hid => ?_) ⟨[], (List.append_nil _).symm, by simp⟩
    rcases List.mem_append.mp hn with hn | hn
    · exact hn
    · exact absurd (List.mem_singleton.mp hn ▸ hid) hnot

/-- Nor is a response that is sent. -/
theorem announces_responseLoop (hcfg : cfg.Sound) (ht : Tidy cfg s) {l : ResponseLoop}
    (hid : l.id ∉ cfg.attributes) (h : l.run cfg s = .ok s') : Announces cfg s s' :=
  (notes_responseLoop h).announces hcfg ht (ResponseLoop.shrinks_run h) hid

/-- The state of a response is no attribute's. -/
theorem announces_setResponseState (ht : Tidy cfg s) (id : UInt32) (value : Bool) :
    Announces cfg s (s.setResponseState id value) :=
  .of_quiet ht ht.responseId ht.unblocked rfl rfl (fun _ hn _ => hn)
    ⟨[], (List.append_nil _).symm, by simp⟩

/-- The call sets no attribute, a response is no attribute, and an attribute that the
subscribers are to be told about is available. -/
def UserCall.LeavesAttributes (cfg : Config) (s : CServer) : UserCall → Prop
  | .response id => id ∉ cfg.attributes
  | .sendError id => isAttributeId id = false
  | .setAttributeState _ _ => False
  | .sendNotification id => id ∈ cfg.attributes → s.attributeState id ≠ .DATA_NOT_AVAILABLE
  | _ => True

instance (cfg : Config) (s : CServer) (c : UserCall) : Decidable (c.LeavesAttributes cfg s) := by
  cases c <;> unfold UserCall.LeavesAttributes <;> infer_instance

/-- A call that sets no attribute. -/
theorem announces_call (hcfg : cfg.Sound) (ht : Tidy cfg s)
    (hreach : AllReached (!cfg.NDEBUG) (fun _ => true) s) {c : UserCall}
    (hc : c.LeavesAttributes cfg s) (h : call cfg s c = .ok s') : Announces cfg s s' := by
  cases c with
  | unblockRequest =>
      obtain ⟨r, hr, h⟩ := Partial.bind_eq_ok h
      exact Except.ok.inj h ▸ announces_unblockRequest hcfg ht hr
  | prepareResponse handle => exact announces_prepareResponse ht h
  | response id =>
      have hset := announces_setResponseState ht id false
      exact hset.trans (announces_responseLoop (l := ⟨id, id, .RESULT_OK, false⟩) hcfg hset.tidy
        hc (Partial.guard_eq_ok h).2)
  | sendError id =>
      have hnot : id ∉ cfg.attributes := fun hmem =>
        absurd (hcfg.attributes id hmem).1 (by rw [hc]; exact Bool.false_ne_true)
      have hc' : ¬ isAttributeId id = true := by rw [hc]; exact Bool.false_ne_true
      rw [call, sendError, if_neg hc'] at h
      dsimp only at h
      split at h
      · have hset := announces_setResponseState ht (errorResponse cfg id) false
        exact hset.trans (announces_responseLoop hcfg hset.tidy hnot (Partial.guard_eq_ok h).2)
      · exact Except.ok.inj h ▸ .refl ht
  | setAttributeState id state => exact hc.elim
  | sendNotification id => exact announces_sendNotification hcfg ht hreach hc h
  | addActiveSession sessionId =>
      exact Except.ok.inj h ▸ .of_quiet ht ht.responseId ht.unblocked rfl rfl (fun _ hn _ => hn)
        ⟨[], (List.append_nil _).symm, by simp⟩
  | clearActiveSessions =>
      exact Except.ok.inj h ▸ .of_quiet ht ht.responseId ht.unblocked rfl rfl (fun _ hn _ => hn)
        ⟨[], (List.append_nil _).symm, by simp⟩

/-! ## Requests -/

/-- An error about a response says nothing about an attribute. -/
theorem announces_sendErrorToClient (hcfg : cfg.Sound) (ht : Tidy cfg s) {c : SPartyID}
    {id : UInt32} {type : ResultType} {nr : Int32} (hid : id ∉ cfg.attributes)
    (h : s.sendErrorToClient cfg c id type nr = .ok s') : Announces cfg s s' :=
  (notes_sendErrorToClient h).announces hcfg ht (shrinks_sendErrorToClient h) hid

/-- A request is accepted for its response, which is no attribute. -/
theorem announces_acceptRequest (hcfg : cfg.Sound) (ht : Tidy cfg s) (h : DataRequest) :
    Announces cfg s (s.acceptRequest h (cfg.getResponse h.requestId)) := by
  have hnot := hcfg.not_response (cfg.getResponse_id h.requestId)
  obtain ⟨f, hf⟩ := acceptRequest_eq h (cfg.getResponse h.requestId) s
  rw [hf]
  refine .of_quiet ht hnot ht.unblocked rfl rfl (fun n hn hid => ?_)
    ⟨[], (List.append_nil _).symm, by simp⟩
  rcases List.mem_append.mp hn with hn | hn
  · exact hn
  · split at hn
    · exact absurd hn List.not_mem_nil
    · obtain rfl := List.mem_singleton.mp hn
      exact absurd hid hnot

/-- A request that is finished leaves no current response. -/
theorem announces_finishRequest (hcfg : cfg.Sound) (ht : Tidy cfg s) :
    Announces cfg s s.finishRequest :=
  .of_quiet ht (hcfg.not_response (Or.inl rfl)) ht.unblocked rfl rfl (fun _ hn _ => hn)
    ⟨[], (List.append_nil _).symm, by simp⟩

/-- A session that is left says nothing. -/
theorem announces_leaveSession (ht : Tidy cfg s) : Announces cfg s s.leaveSession :=
  .of_quiet ht ht.responseId ht.unblocked rfl rfl (fun _ hn _ => hn)
    ⟨[], (List.append_nil _).symm, by simp⟩

/-- Nor does one that is entered. -/
theorem announces_enterSession (ht : Tidy cfg s) (session : Option Nat) :
    Announces cfg s (s.enterSession session) := by
  cases session with
  | none => exact .refl ht
  | some pos =>
      exact .of_quiet ht ht.responseId ht.unblocked rfl rfl (fun _ hn _ => hn)
        ⟨[], (List.append_nil _).symm, by simp⟩

/-- Nor does one that is opened. -/
theorem announces_openSession (ht : Tidy cfg s) {h : DataRequest} {session : Option Nat}
    (hopen : s.openSession cfg h session = .ok s') : Announces cfg s s' := by
  obtain ⟨l, k, c, i, n, -, rfl⟩ := openSession_eq hopen
  exact .of_quiet ht ht.responseId ht.unblocked rfl rfl (fun _ hn _ => hn)
    ⟨[], (List.append_nil _).symm, by simp⟩

/-- Something that is no message is seen outside. -/
theorem announces_emit (ht : Tidy cfg s) {o : Output} (ho : o.message? = none) :
    Announces cfg s (s.emit o) :=
  .of_quiet ht ht.responseId ht.unblocked rfl rfl (fun _ hn _ => hn)
    ⟨[o], rfl, fun _ hmem => List.mem_singleton.mp hmem ▸ ho⟩

/-- A handler that is called is no message. -/
theorem announces_enterHandler (ht : Tidy cfg s) (h : DataRequest) :
    Announces cfg s (s.enterHandler h) := announces_emit ht rfl

/-- Nor is one that returns. -/
theorem announces_leaveHandler (hcfg : cfg.Sound) (ht : Tidy cfg s) (m : MethodKind) :
    Announces cfg s (s.leaveHandler m) := by
  cases m with
  | request => exact announces_finishRequest hcfg ht
  | register =>
      have hleave := announces_leaveSession ht
      exact hleave.trans (announces_finishRequest hcfg hleave.tidy)
  | unregister =>
      have hremove : Announces cfg s (s.removeSession s.mSessionId) :=
        (announces_removeSessionNotifications ht s.mSessionId).trans (.of_quiet
          (announces_removeSessionNotifications ht s.mSessionId).tidy ht.responseId ht.unblocked
          rfl rfl (fun _ hn _ => hn) ⟨[], (List.append_nil _).symm, by simp⟩)
      have hleave := hremove.trans (announces_leaveSession hremove.tidy)
      exact hleave.trans (announces_finishRequest hcfg hleave.tidy)

/-- A method that starts opens or finds its session. -/
theorem announces_startMethod (hcfg : cfg.Sound) (ht : Tidy cfg s) {m : RequestMethod}
    {h : DataRequest} {r : CServer × Option MethodKind} (hs : s.startMethod cfg m h = .ok r) :
    Announces cfg s r.1 := by
  unfold startMethod at hs
  cases hk : m.kind with
  | request =>
      simp only [hk] at hs
      obtain rfl := Except.ok.inj hs
      split
      · exact announces_enterHandler ht h
      · exact announces_finishRequest hcfg ht
  | register =>
      simp only [hk] at hs
      obtain ⟨t, hopen, hs⟩ := Partial.bind_eq_ok hs
      have henter := announces_enterSession ht (s.findSession h.sequenceNr s.mClientID)
      have hopened := henter.trans (announces_openSession henter.tidy hopen)
      obtain rfl := Except.ok.inj hs
      split
      · exact hopened.trans (announces_enterHandler hopened.tidy h)
      · have hleave := hopened.trans (announces_leaveSession hopened.tidy)
        exact hleave.trans (announces_finishRequest hcfg hleave.tidy)
  | unregister =>
      simp only [hk] at hs
      have henter := announces_enterSession ht (s.findSession h.sequenceNr s.mClientID)
      obtain rfl := Except.ok.inj hs
      split
      · exact henter.trans (announces_enterHandler henter.tidy h)
      · have hleave := henter.trans (announces_leaveSession henter.tidy)
        exact hleave.trans (announces_finishRequest hcfg hleave.tidy)

/-- A request that is accepted is about its response. -/
theorem announces_startRequest (hcfg : cfg.Sound) (ht : Tidy cfg s) {h : DataRequest}
    {r : CServer × Option MethodKind} (hs : s.startRequest cfg h = .ok r) :
    Announces cfg s r.1 := by
  have haccept := announces_acceptRequest hcfg ht h
  rcases startRequest_cases hs with ⟨hd, t, ht', rfl⟩ | ⟨-, rfl | ⟨m, hs⟩⟩
  · have hne : cfg.getResponse h.requestId ≠ INVALID_ID := by
      simp only [isResponseDangling, Bool.and_eq_true, bne_iff_ne] at hd
      exact hd.1
    exact announces_sendErrorToClient hcfg ht (hcfg.not_request hne) ht'
  · exact haccept.trans (announces_finishRequest hcfg haccept.tidy)
  · exact haccept.trans (announces_startMethod hcfg haccept.tidy hs)

/-- A request that is no subscription takes nothing but entries away. -/
theorem announces_startDataRequest (hcfg : cfg.Sound) (ht : Tidy cfg s) {h : DataRequest}
    {r : CServer × Option MethodKind}
    (htype : h.requestType ≠ .REQUEST_NOTIFY ∧ h.requestType ≠ .REQUEST_REGISTER_NOTIFY)
    (hs : s.startDataRequest cfg h = .ok r) : Announces cfg s r.1 := by
  have hfind := announces_findClientConnection hcfg ht h.clientID
  unfold startDataRequest at hs
  dsimp only at hs
  split at hs
  · exact Except.ok.inj hs ▸ hfind
  · split at hs
    · exact hfind.trans (announces_startRequest hcfg hfind.tidy hs)
    · next hr =>
      obtain ⟨t, hdispatch, hs⟩ := Partial.bind_eq_ok hs
      have hannounces : Announces cfg (s.findClientConnection h.clientID).2 t := by
        unfold dispatchRequest at hdispatch
        cases hk : h.requestType with
        | REQUEST => exact absurd hk hr
        | REQUEST_NOTIFY => exact absurd hk htype.1
        | REQUEST_REGISTER_NOTIFY => exact absurd hk htype.2
        | REQUEST_LOAD_COMPONENT =>
            simp only [hk] at hdispatch
            exact Except.ok.inj hdispatch ▸ .refl hfind.tidy
        | REQUEST_STOP_ALL_REGISTER_NOTIFY =>
            simp only [hk] at hdispatch
            obtain rfl := Except.ok.inj hdispatch
            rw [handleStopSession]
            split
            · exact announces_removeSessionNotifications hfind.tidy _
            · exact .refl hfind.tidy
        | _ =>
            simp only [hk] at hdispatch
            exact Except.ok.inj hdispatch ▸
              announces_removeNotification hcfg hfind.tidy h.clientID _
      exact Except.ok.inj hs ▸ hfind.trans hannounces

/-! ## Connections -/

/-- A client that connects finds no entry under its ID. -/
theorem announces_connect (ht : Tidy cfg s) (hreach : AllReached (!cfg.NDEBUG) (fun _ => true) s)
    (q : ConnectRequest) : Announces cfg s (s.handleConnectRequest cfg q) := by
  unfold handleConnectRequest
  split
  · exact .refl ht
  · dsimp only
    split
    · exact .of_quiet ht ht.responseId ht.unblocked rfl rfl (fun _ hn _ => hn)
        ⟨[], (List.append_nil _).symm, by simp⟩
    · next hnone =>
      refine ⟨⟨ht.responseId, ht.unblocked, fun conn hconn => ?_⟩, rfl, fun n hn _ => ⟨hn, ?_⟩,
        [], (List.append_nil _).symm, by simp⟩
      · rcases mem_insertLower.mp hconn with rfl | hconn
        · -- no version is older than the first one
          have hnot : ¬ q.protoMinor < DSI_PROTOCOL_VERSION_MINOR :=
            fun hlt => absurd (UInt16.lt_iff_toNat_lt.mp hlt) (Nat.not_lt_zero _)
          dsimp only
          rw [if_neg hnot]
        · exact ht.versions conn hconn
      · have hc : s.isConnected n.clientID = true :=
          isConnected_of_reaches (hreach n (mem_held.mpr (Or.inl hn)) rfl)
        have hfind : n.clientID ≠ q.clientID := by
          intro heq
          rw [isConnected, heq] at hc
          exact hnone hc
        rw [isLive, isLive]
        intro hlive
        rw [findConnection, find?_insertLower (by simpa using hfind.symm)] at hlive
        exact hlive

/-- A channel that closes makes nobody live. -/
theorem announces_closeChannel (ht : Tidy cfg s) (channel : Nat) :
    Announces cfg s (s.closeChannel channel) := by
  refine ⟨⟨ht.responseId, ht.unblocked, fun conn hconn => ?_⟩, rfl, fun n hn _ => ⟨hn, ?_⟩,
    [], (List.append_nil _).symm, by simp⟩
  · obtain ⟨conn', hconn', rfl⟩ := List.mem_map.mp hconn
    have hversion := ht.versions conn' hconn'
    split
    · exact hversion
    · exact hversion
  · rw [isLive, isLive, findConnection_closeChannel]
    cases s.findConnection n.clientID with
    | none => exact id
    | some conn =>
        rw [Option.map_some]
        split
        · intro hlive
          simp [live] at hlive
        · exact id

/-- An interface that goes takes its entries along. -/
theorem announces_unregisterInterface (hcfg : cfg.Sound) (ht : Tidy cfg s) :
    Announces cfg s s.unregisterInterface := by
  have hcleanup : ∀ (conns : List ClientConnection) (s : CServer), Tidy cfg s →
      Announces cfg s (conns.foldl cleanupClientConnection s) := by
    intro conns
    induction conns with
    | nil => exact fun s ht => .refl ht
    | cons conn conns ih =>
        intro s ht
        have hemit : Announces cfg s (s.emit (.clearNotification conn.notificationID)) :=
          announces_emit ht rfl
        have hremove := hemit.trans
          (announces_removeNotification hcfg hemit.tidy conn.clientID INVALID_ID)
        exact hremove.trans (ih _ hremove.tidy)
  have hall := hcleanup s.mClientConnections s ht
  refine hall.trans ⟨⟨hall.tidy.responseId, hall.tidy.unblocked,
    by simp [unregisterInterface]⟩, rfl, fun n hn _ => ⟨hn, fun hlive => ?_⟩, [],
    (List.append_nil _).symm, by simp⟩
  simp [isLive, findConnection, unregisterInterface, live] at hlive

/-- A client that is gone has no entry for an attribute any more, and its connection goes. -/
theorem announces_eraseConnection (ht : Tidy cfg s) {c : SPartyID}
    (hnone : ∀ n ∈ s.mNotifications, n.notifyID ∈ cfg.attributes → n.clientID ≠ c) :
    Announces cfg s { s.removeUnblockedSessions c with
      mClientConnections := s.mClientConnections.eraseP (fun conn => conn.clientID == c) } := by
  refine ⟨⟨ht.responseId, fun u hu => ht.unblocked u (List.mem_filter.mp hu).1,
    fun conn hconn => ht.versions conn (List.mem_of_mem_eraseP hconn)⟩, rfl,
    fun n hn hid => ⟨hn, ?_⟩, [], (List.append_nil _).symm, by simp⟩
  have hne := hnone n hn hid
  rw [isLive, isLive]
  intro hlive
  rw [findConnection, find?_eraseP (fun conn _ hconn => ?_)] at hlive
  · exact hlive
  · rw [beq_iff_eq] at hconn
    rw [hconn, beq_eq_false_iff_ne]
    exact hne.symm

/-! ## Subscriptions -/

/-- The client has an entry for the ID. -/
def isSubscribed (s : CServer) (c : SPartyID) (id : UInt32) : Prop :=
  ∃ n ∈ s.mNotifications, n.clientID = c ∧ n.notifyID = id

instance (s : CServer) (c : SPartyID) (id : UInt32) : Decidable (s.isSubscribed c id) :=
  inferInstanceAs (Decidable (∃ n ∈ s.mNotifications, _))

/-- Each client has one entry at most for the ID. -/
def subscribedOnce (s : CServer) (id : UInt32) : Prop :=
  ((s.mNotifications.filter (fun n => n.notifyID == id)).map (·.clientID)).Nodup

instance (s : CServer) (id : UInt32) : Decidable (s.subscribedOnce id) :=
  inferInstanceAs (Decidable (List.Nodup _))

/-- A client with one entry is sent one update at most. -/
theorem updates_sublist (id : UInt32) (state : DataStateType) (s : CServer) :
    ((s.updates id state).map (·.clientID)).Sublist
      ((s.mNotifications.filter (fun n => n.notifyID == id)).map (·.clientID)) := by
  rw [updates]
  induction s.mNotifications with
  | nil => exact .slnil
  | cons n l ih =>
      by_cases hid : n.notifyID = id
      · rw [List.filter_cons_of_pos (by simpa using hid), List.map_cons]
        cases hl : live (s.findConnection n.clientID) with
        | none =>
            rw [List.filterMap_cons_none (by rw [update, if_pos hid, hl, Option.map_none])]
            exact ih.cons _
        | some conn =>
            rw [List.filterMap_cons_some (by rw [update, if_pos hid, hl, Option.map_some]),
              List.map_cons]
            have hclient := clientID_of_findConnection (eq_of_live hl)
            rw [ClientConnection.message, hclient]
            exact ih.cons_cons _
      · rw [List.filter_cons_of_neg (by simpa using hid),
          List.filterMap_cons_none (by rw [update, if_neg hid])]
        exact ih

/-- A client that is told about an attribute is sent its updates, and nobody else is. -/
theorem exists_update_iff {id : UInt32} {c : SPartyID} {state : DataStateType} :
    (∃ m ∈ s.updates id state, m.clientID = c) ↔ s.isSubscribed c id ∧ s.isLive c = true := by
  constructor
  · rintro ⟨m, hm, rfl⟩
    obtain ⟨n, hn, hupdate⟩ := List.mem_filterMap.mp hm
    rw [update] at hupdate
    split at hupdate
    · next hid =>
      obtain ⟨conn, hconn, rfl⟩ := Option.map_eq_some_iff.mp hupdate
      have hclient := clientID_of_findConnection (eq_of_live hconn)
      refine ⟨⟨n, hn, hclient.symm, hid⟩, ?_⟩
      rw [ClientConnection.message, hclient, isLive, hconn]
      rfl
    · exact absurd hupdate (by simp)
  · rintro ⟨⟨n, hn, rfl, hid⟩, hlive⟩
    obtain ⟨conn, hconn⟩ := Option.isSome_iff_exists.mp hlive
    exact ⟨_, List.mem_filterMap.mpr ⟨n, hn, by rw [update, if_pos hid, hconn, Option.map_some]⟩,
      clientID_of_findConnection (eq_of_live hconn)⟩

/-- The step from `s` to `s'` makes one subscriber at most, and one that is live is told
about an attribute as far as there is something to tell. -/
structure Subscribes (cfg : Config) (h : DataRequest) (s s' : CServer) : Prop where
  tidy : Tidy cfg s'
  states : s'.attributeState = s.attributeState
  entries : ∀ n ∈ s'.mNotifications, n.notifyID ∈ cfg.attributes →
    (n ∈ s.mNotifications ∨ n.clientID = h.clientID ∧ n.notifyID = h.requestId) ∧
      (s'.isLive n.clientID = true → s.isLive n.clientID = true)
  log : ∃ os, s'.log = s.log ++ os ∧ (∀ o ∈ os, ∀ m, o.message? = some m → Truthful cfg s m) ∧
    (h.requestId ∈ cfg.attributes → s.attributeState h.requestId ≠ .DATA_NOT_AVAILABLE →
      ¬ s.isSubscribed h.clientID h.requestId → s'.isSubscribed h.clientID h.requestId →
      s'.isLive h.clientID = true →
        ∃ m, .message m ∈ os ∧ m.clientID = h.clientID ∧ m.requestID = h.requestId)

/-- A step that makes no subscriber makes one at most. -/
theorem Announces.subscribes {h : DataRequest} (ha : Announces cfg s s') :
    Subscribes cfg h s s' where
  tidy := ha.tidy
  states := ha.states
  entries := fun n hn hid => (ha.entries n hn hid).imp_left Or.inl
  log := by
    obtain ⟨os, hos, hms⟩ := ha.log
    refine ⟨os, hos, hms, fun hid _ hnot hsub _ => absurd ?_ hnot⟩
    obtain ⟨n, hn, hc, hn'⟩ := hsub
    exact ⟨n, (ha.entries n hn (hn' ▸ hid)).1, hc, hn'⟩

/-- What the new subscriber of an attribute is told. -/
theorem sendAttribute_told {h : DataRequest} (hcfg : cfg.Sound) (ht : Tidy cfg t)
    (hreach : AllReached (!cfg.NDEBUG) (fun _ => true) t) (hid : h.requestId ∈ cfg.attributes)
    (hs : t.sendAttribute cfg h = .ok s') :
    Announces cfg t s' ∧ ∃ os, s'.log = t.log ++ os ∧
      (t.attributeState h.requestId ≠ .DATA_NOT_AVAILABLE →
        t.isSubscribed h.clientID h.requestId → t.isLive h.clientID = true →
          ∃ m, .message m ∈ os ∧ m.clientID = h.clientID ∧ m.requestID = h.requestId) := by
  have hfind := announces_findClientConnection hcfg ht h.clientID
  cases hstate : t.attributeState h.requestId with
  | DATA_NOT_AVAILABLE =>
      rw [sendAttribute, getAttributeState_of_mem hid, hstate] at hs
      obtain rfl := Except.ok.inj hs
      exact ⟨.refl ht, [], (List.append_nil _).symm, fun hne => absurd rfl hne⟩
  | DATA_OK =>
      rw [sendAttribute_valid hid hstate] at hs
      cases hl : live (t.findConnection h.clientID) with
      | none =>
          simp only [hl] at hs
          obtain ⟨_, -, hs⟩ := Partial.bind_eq_ok hs
          obtain rfl := Except.ok.inj hs
          obtain ⟨os, hos, -⟩ := hfind.log
          exact ⟨hfind, os, hos, fun _ _ hlive => absurd hlive (by simp [isLive, hl])⟩
      | some conn =>
          simp only [hl] at hs
          obtain rfl := Except.ok.inj hs
          have hconn := eq_of_live hl
          have hview := sameView_findClientConnection h.clientID t
          refine ⟨hfind.trans ⟨⟨hfind.tidy.responseId, hfind.tidy.unblocked, hfind.tidy.versions⟩,
            rfl, fun n hn _ => ⟨hn, id⟩, [_], rfl, fun o ho m hm _ => ?_⟩,
            [.message (conn.message .RESULT_DATA_OK h.requestId INVALID_SEQUENCE_NR)], ?_,
            fun _ _ _ => ⟨_, List.mem_singleton_self _, clientID_of_findConnection hconn, rfl⟩⟩
          · obtain rfl := List.mem_singleton.mp ho
            obtain rfl := Option.some.inj hm
            refine ⟨protoMinor_of_findConnection ht hconn, ?_, ?_⟩
            · rw [hfind.states]
              simp [ClientConnection.message, updateType, hstate]
            · rw [hfind.states]
              simp [ClientConnection.message, hstate]
          · rw [← hview.log]
            rfl
  | DATA_INVALID =>
      rw [sendAttribute, getAttributeState_of_mem hid, hstate] at hs
      have hsend : t.sendNotification cfg h.requestId = .ok s' := hs
      have hna : t.attributeState h.requestId ≠ .DATA_NOT_AVAILABLE := by simp [hstate]
      refine ⟨announces_sendNotification hcfg ht hreach (fun _ => hna) hsend, ?_⟩
      have hc : ∀ n ∈ t.mNotifications, n.notifyID = h.requestId →
          t.isConnected n.clientID = true :=
        fun n hn _ => isConnected_of_reaches (hreach n (mem_held.mpr (Or.inl hn)) rfl)
      obtain ⟨ms, rfl, hms⟩ := sendNotification_of_connected hc hsend
      obtain rfl := hms _ (getAttributeState_of_mem hid t)
      refine ⟨_, rfl, fun _ hsub hlive => ?_⟩
      obtain ⟨n, hn, hclient, hnotify⟩ := hsub
      obtain ⟨conn, hconn⟩ := Option.isSome_iff_exists.mp hlive
      refine ⟨conn.message (updateType (t.attributeState h.requestId)) h.requestId
        INVALID_SEQUENCE_NR, List.mem_map_of_mem (List.mem_filterMap.mpr ⟨n, hn, ?_⟩),
        clientID_of_findConnection (eq_of_live hconn), rfl⟩
      rw [update, if_pos hnotify, hclient, hconn, Option.map_some]

/-- The entry of a subscription, up to what is sent. -/
theorem subscribes_subscribed {h : DataRequest} (ht : Tidy cfg s) :
    Tidy cfg (s.subscribed cfg h) ∧ ∀ n ∈ (s.subscribed cfg h).mNotifications,
      n ∈ s.mNotifications ∨ n.clientID = h.clientID ∧ n.notifyID = h.requestId := by
  unfold subscribed
  split
  · exact ⟨ht, fun n hn => Or.inl hn⟩
  · obtain ⟨i, nr, l, k, c, id, -, hadd⟩ := addNotification_eq cfg h s
    rw [hadd]
    refine ⟨⟨ht.responseId, ht.unblocked, ht.versions⟩, fun n hn => ?_⟩
    rcases List.mem_append.mp hn with hn | hn
    · exact Or.inl hn
    · obtain rfl := List.mem_singleton.mp hn
      exact Or.inr ⟨rfl, rfl⟩

/-- A subscription brings one entry. -/
theorem brings_subscribed (cfg : Config) (h : DataRequest) (s : CServer) :
    Brings (some h.requestId) h.clientID s (s.subscribed cfg h) := by
  unfold subscribed
  split
  · exact .of_moves (.refl s)
  · exact brings_addNotification cfg h s

/-- A subscription that is handled. -/
theorem subscribes_handleNotify (hcfg : cfg.Sound) {h : DataRequest} (ht : Tidy cfg s)
    (hreach : AllReached (!cfg.NDEBUG) (fun _ => true) s)
    (hclient : s.reaches (!cfg.NDEBUG) h.clientID = true)
    (hs : s.handleNotify cfg h = .ok s') : Subscribes cfg h s s' := by
  obtain ⟨hsub, hentries⟩ := subscribes_subscribed (h := h) ht
  have hview := sameView_subscribed cfg h s
  have hnotify : s.handleNotify cfg h =
      if isAttributeId h.requestId then (s.subscribed cfg h).sendAttribute cfg h
      else .ok (s.subscribed cfg h) := rfl
  rw [hnotify] at hs
  by_cases hid : h.requestId ∈ cfg.attributes
  · rw [if_pos (hcfg.attributes _ hid).1] at hs
    have hreach' : AllReached (!cfg.NDEBUG) (fun _ => true) (s.subscribed cfg h) :=
      hreach.of_brings (brings_subscribed cfg h s) fun _ _ _ => hclient
    obtain ⟨ha, os, hos, htold⟩ := sendAttribute_told hcfg hsub hreach' hid hs
    refine ⟨ha.tidy, ha.states.trans hview.attributeState, fun n hn hn' => ?_, ?_⟩
    · obtain ⟨hmem, hlive⟩ := ha.entries n hn hn'
      exact ⟨hentries n hmem, fun hl => hview.isLive n.clientID ▸ hlive hl⟩
    · refine ⟨os, by rw [hos, hview.log], fun o ho m hm => ?_, fun _ hstate _ hnow hlive => ?_⟩
      · obtain ⟨os', hos', htruth⟩ := ha.log
        obtain rfl : os = os' := List.append_cancel_left (hos.symm.trans hos')
        exact (htruth o ho m hm).congr hview.attributeState
      · obtain ⟨n, hn, hc, hn'⟩ := hnow
        obtain ⟨hmem, hl⟩ := ha.entries n hn (hn' ▸ hid)
        refine htold (hview.attributeState ▸ hstate) ⟨n, hmem, hc, hn'⟩ ?_
        exact hc ▸ hl (hc.symm ▸ hlive)
  · have hquiet : Announces cfg (s.subscribed cfg h) s' := by
      split at hs
      · have hnot : Notes h.requestId (s.subscribed cfg h) s' := by
          rw [sendAttribute] at hs
          obtain ⟨state, -, hs⟩ := Partial.bind_eq_ok hs
          cases state with
          | DATA_NOT_AVAILABLE => exact Except.ok.inj hs ▸ .of_sameView (.refl _)
          | DATA_INVALID => exact notes_sendNotification hs
          | DATA_OK =>
              have hfind : Notes h.requestId (s.subscribed cfg h)
                  ((s.subscribed cfg h).findClientConnection h.clientID).2 :=
                .of_sameView (sameView_findClientConnection _ _)
              dsimp only at hs
              split at hs
              · exact Except.ok.inj hs ▸ hfind.trans (.message rfl)
              · obtain ⟨_, -, hs⟩ := Partial.bind_eq_ok hs
                exact Except.ok.inj hs ▸ hfind
        exact hnot.announces hcfg hsub (shrinks_sendAttribute hs) hid
      · exact Except.ok.inj hs ▸ .refl hsub
    obtain ⟨os, hos, htruth⟩ := hquiet.log
    refine ⟨hquiet.tidy, hquiet.states.trans hview.attributeState, fun n hn hn' => ?_,
      os, by rw [hos, hview.log], fun o ho m hm => (htruth o ho m hm).congr hview.attributeState,
      fun hmem => absurd hmem hid⟩
    obtain ⟨hmem, hlive⟩ := hquiet.entries n hn hn'
    exact ⟨hentries n hmem, fun hl => hview.isLive n.clientID ▸ hlive hl⟩

/-- A data request up to its handler: it makes a subscriber at most. -/
theorem subscribes_startDataRequest (hcfg : cfg.Sound) {h : DataRequest} (ht : Tidy cfg s)
    (hreach : AllReached (!cfg.NDEBUG) (fun _ => true) s) {user : List UserCall}
    (hpre : s.stepReaches cfg (!cfg.NDEBUG) (fun _ => true) (.dataRequest h user) = true)
    {r : CServer × Option MethodKind} (hs : s.startDataRequest cfg h = .ok r) :
    Subscribes cfg h s r.1 := by
  by_cases htype : h.requestType = .REQUEST_NOTIFY ∨ h.requestType = .REQUEST_REGISTER_NOTIFY
  · have hfind := announces_findClientConnection hcfg ht h.clientID
    unfold startDataRequest at hs
    dsimp only at hs
    split at hs
    · exact Except.ok.inj hs ▸ hfind.subscribes
    · next hversion =>
      rw [fst_findClientConnection] at hversion
      have hentry : s.entryId cfg h = some h.requestId := by
        rw [entryId, if_neg hversion]
        rcases htype with htype | htype <;> rw [htype]
      have hclient : s.reaches (!cfg.NDEBUG) h.clientID = true := by
        rw [stepReaches, hentry] at hpre
        simpa using hpre
      -- a client that is reached is found, and nothing is removed
      have hsame : (s.findClientConnection h.clientID).2 = s := by
        rw [findClientConnection,
          findClientConnectionBy_of_connected (isConnected_of_reaches hclient)]
      have hnot : h.requestType ≠ .REQUEST := by
        rcases htype with htype | htype <;> rw [htype] <;> simp
      rw [if_neg hnot, hsame] at hs
      obtain ⟨t, hdispatch, hs⟩ := Partial.bind_eq_ok hs
      have hhandle : s.handleNotify cfg h = .ok t := by
        rcases htype with htype | htype <;> simpa only [dispatchRequest, htype] using hdispatch
      exact Except.ok.inj hs ▸ subscribes_handleNotify hcfg ht hreach hclient hhandle
  · rw [not_or] at htype
    exact (announces_startDataRequest hcfg ht htype hs).subscribes

/-! ## Who is reached -/

/-- A method that starts moves entries at most. -/
theorem moves_startMethod {m : RequestMethod} {h : DataRequest}
    {r : CServer × Option MethodKind} (hs : s.startMethod cfg m h = .ok r) : Moves s r.1 := by
  have henter := moves_enterSession (s.findSession h.sequenceNr s.mClientID) s
  unfold startMethod at hs
  cases hk : m.kind with
  | request =>
      simp only [hk] at hs
      obtain rfl := Except.ok.inj hs
      split <;> exact .of_eq rfl rfl rfl
  | register =>
      simp only [hk] at hs
      obtain ⟨t, hopen, hs⟩ := Partial.bind_eq_ok hs
      obtain rfl := Except.ok.inj hs
      refine (henter.trans (moves_openSession hopen)).trans ?_
      split <;> exact .of_eq rfl rfl rfl
  | unregister =>
      simp only [hk] at hs
      obtain rfl := Except.ok.inj hs
      refine henter.trans ?_
      split <;> exact .of_eq rfl rfl rfl

/-- The clients that are reached in front of a data request are reached in its handler. -/
theorem allReached_startDataRequest {h : DataRequest} {channels : Bool} {p : UInt32 → Bool}
    (hreach : AllReached channels p s) {user : List UserCall}
    (hpre : s.stepReaches cfg channels p (.dataRequest h user) = true)
    {r : CServer × Option MethodKind} (hs : s.startDataRequest cfg h = .ok r) :
    AllReached channels p r.1 := by
  have hfind : Moves s (s.findClientConnection h.clientID).2 :=
    .of_shrinks (shrinks_findClientConnectionBy _ h.clientID s)
  have hwhole : r.2 = none → AllReached channels p r.1 := by
    intro hnone
    have hall : s.handleDataRequest cfg h [] = .ok r.1 := by
      rw [handleDataRequest_eq_resume, hs]
      simp only [bind, Except.bind, resume, hnone]
    refine hreach.of_brings (brings_handleDataRequest hall) fun i hi hp => ?_
    rw [stepReaches, hi] at hpre
    simpa [hp] using hpre
  cases hkind : r.2 with
  | none => exact hwhole hkind
  | some m =>
      unfold startDataRequest at hs
      dsimp only at hs
      split at hs
      · obtain rfl := Except.ok.inj hs
        exact hwhole rfl
      · next hversion =>
        split at hs
        · next hr =>
          rcases startRequest_cases hs with ⟨-, t, -, rfl⟩ | ⟨hdangling, hs⟩
          · exact hwhole rfl
          · have hfound := hreach.of_moves hfind
            -- the entry that is left is one of a client that is reached
            have haccept : AllReached channels p
                ((s.findClientConnection h.clientID).2.acceptRequest h
                  (cfg.getResponse h.requestId)) := by
              by_cases hid : cfg.getResponse h.requestId = INVALID_ID
              · rw [hid]
                exact hfound.of_moves (moves_acceptRequest h _)
              · refine hfound.of_brings (brings_acceptRequest h hid _) fun i hi hp => ?_
                obtain rfl := Option.some.inj hi
                rw [isResponseDangling_findClientConnection] at hdangling
                rw [fst_findClientConnection] at hversion
                have hentry : s.entryId cfg h = some (cfg.getResponse h.requestId) := by
                  rw [entryId, if_neg hversion, hr]
                  exact if_neg (not_or.mpr ⟨hid, Bool.eq_false_iff.mp hdangling⟩)
                rw [stepReaches, hentry] at hpre
                rw [reaches_of_findConnection (findConnection_of_connections hfind.connections _)]
                simpa [hp] using hpre
            rcases hs with rfl | ⟨m, hs⟩
            · exact hwhole rfl
            · exact haccept.of_moves (moves_startMethod hs)
        · obtain ⟨t, -, hs⟩ := Partial.bind_eq_ok hs
          obtain rfl := Except.ok.inj hs
          exact hwhole rfl

/-- A handler that returns moves entries at most. -/
theorem moves_leaveHandler (m : MethodKind) (s : CServer) : Moves s (s.leaveHandler m) := by
  cases m with
  | request => exact .of_eq rfl rfl rfl
  | register => exact .of_eq rfl rfl rfl
  | unregister => exact (moves_removeSession s.mSessionId s).trans (.of_eq rfl rfl rfl)

end CServer

end Dsi
