import Dsi.Server.Isolation

/-!
# Dsi.Server.Sessions

Sessions of register methods.  A registry is a server with a ledger of the sessions that
are open, under their IDs and with the register method that was called last.  As long
as every copy of a `SessionData` finds the update ID it should have and no lookup by the
local half of an ID hits another client, a client that goes gets the unregister callback
of every session it has, once.
-/

namespace Dsi

namespace CServer

open Sequence

/-! ## The registry -/

/-- A session that is open, with the register method that was called in it last. -/
structure Registration where
  sessionId : Int32
  clientID : SPartyID
  sequenceNr : Int32
  method : Option UInt32
  deriving DecidableEq, Repr

/-- The unregister callback of a session, if a register method was called in it. -/
def Registration.callback (r : Registration) : Option (UInt32 × Int32) :=
  r.method.map (fun m => (m, r.sessionId))

/-- A server with the sessions that are open. -/
structure Registry where
  server : CServer := init
  ledger : List Registration := []

/-- What a data request does to the sessions: a notification is registered, a register
or an unregister method is called. -/
inductive SessionCall where
  | notify
  | register
  | unregister
  deriving DecidableEq, Repr

/-- The request concerns the sessions: it has the version of its client, and is neither
refused nor already set. -/
def sessionCall (cfg : Config) (h : DataRequest) (s : CServer) : Option SessionCall :=
  if protoMinorOf (s.findConnection h.clientID) ≠ h.protoMinor then none
  else
    match h.requestType with
    | .REQUEST =>
        if s.isResponseDangling (cfg.getResponse h.requestId) then none
        else
          match cfg.requestMethods[h.requestId.toNat]? with
          | none => none
          | some m =>
              match m.kind with
              | .request => none
              | .register => some .register
              | .unregister => some .unregister
    | .REQUEST_REGISTER_NOTIFY =>
        if (s.findClientConnection h.clientID).2.mNotifications.any (isSet h) then none
        else some .notify
    | _ => none

/-- The client that an event is the loss of. -/
def lost (s : CServer) : Event → Option SPartyID
  | .disconnect clientID _ => some clientID
  | .detached id _ =>
      (s.mClientConnections.find? (fun conn => conn.id == id)).map (·.clientID)
  | _ => none

namespace Registry

/-- The open session of a client with a sequence number. -/
def opened (clientID : SPartyID) (sequenceNr : Int32) (ledger : List Registration) :
    Option Registration :=
  if sequenceNr = INVALID_SEQUENCE_NR then none
  else ledger.findRev? (fun r => r.clientID == clientID && r.sequenceNr == sequenceNr)

/-- What a call writes to the ledger; `id` is the ID of a session that it opens. -/
def record (id : Int32) (h : DataRequest) (ledger : List Registration) :
    SessionCall → List Registration
  | .notify =>
      match opened h.clientID h.sequenceNr ledger with
      | some _ => ledger
      | none => ledger ++ [⟨id, h.clientID, h.sequenceNr, none⟩]
  | .register =>
      match opened h.clientID h.sequenceNr ledger with
      | some r => ledger.map (fun r' =>
          if r'.sessionId = r.sessionId then { r' with method := some h.requestId } else r')
      | none => ledger ++ [⟨id, h.clientID, h.sequenceNr, some h.requestId⟩]
  | .unregister =>
      match opened h.clientID h.sequenceNr ledger with
      | some r => ledger.filter (fun r' => r'.sessionId ≠ r.sessionId)
      | none => ledger

/-- The ledger behind an event: a client that goes takes its sessions along. -/
def next (cfg : Config) (d : Registry) (e : Event) : List Registration :=
  match e with
  | .dataRequest h _ =>
      match d.server.sessionCall cfg h with
      | some call => record (idOf d.server.nextID) h d.ledger call
      | none => d.ledger
  | e =>
      match d.server.lost e with
      | some c => d.ledger.filter (fun r => r.clientID != c)
      | none => d.ledger

/-- One step. -/
def step (cfg : Config) (d : Registry) (e : Event) : Except Fault Registry :=
  CServer.step cfg d.server e >>= fun s => .ok ⟨s, d.next cfg e⟩

end Registry

/-- The register method that an update ID stands for. -/
def methodOf (cfg : Config) (updateId : UInt32) : Option UInt32 :=
  if cfg.isRegister updateId then some updateId else none

/-- What a server knows of a session. -/
def SessionData.registration (cfg : Config) (sd : SessionData) : Registration :=
  ⟨sd.sessionId, sd.clientID, sd.sequenceNr, methodOf cfg sd.updateId⟩

/-- The application calls nothing in its unregister methods. -/
def Event.callsNothing : Event → Bool
  | .disconnect _ cs | .detached _ cs => cs.isEmpty
  | _ => true

/-- When a client goes, the unregister callback is called once for each of its sessions in
which a register method was called, and the sessions of the other clients are left. -/
def Unregisters (cfg : Config) (d : Registry) (e : Event) : Prop :=
  (d.ledger.map (·.sessionId)).Nodup ∧
  ∀ c, d.server.lost e = some c →
    (e.callsNothing = true → ∃ s', step cfg d.server e = .ok s') ∧
    ∀ s', step cfg d.server e = .ok s' →
      (∃ out, s'.log = d.server.log ++ out ∧ out.filterMap Output.unregister? =
        (d.ledger.filter (fun r => r.clientID == c)).filterMap Registration.callback) ∧
      s'.mSessions.map (SessionData.registration cfg) =
        d.ledger.filter (fun r => r.clientID != c)

/-! ## The condition -/

/-- The copies that a new session makes find the update IDs they should have. -/
def copiesRight (cfg : Config) (m : Option UInt32) (s : CServer) : Bool :=
  if s.mSessions.length < s.mSessionsCapacity then
    methodOf cfg (cfg.uninitialised s.copies) == m
  else
    (List.range s.mSessions.length).all (fun i => s.mSessions[i]?.all (fun sd =>
      methodOf cfg (cfg.uninitialised (s.copies + i)) == methodOf cfg sd.updateId)) &&
    methodOf cfg (cfg.uninitialised (s.copies + s.mSessions.length)) == m

/-- The ID of a new session is valid, and no other session has it. -/
def isFresh (s : CServer) : Bool :=
  idOf s.nextID != INVALID_SESSION_ID && s.mSessions.all (fun sd => sd.sessionId != idOf s.nextID)

/-- A new session gets a new ID, and no copy loses an update ID. -/
def opensRight (cfg : Config) (m : Option UInt32) (s : CServer) : Bool :=
  s.isFresh && s.copiesRight cfg m

/-- The sessions found for the client under the sequence number are its own. -/
def findsOwn (c : SPartyID) (sequenceNr : Int32) (s : CServer) : Bool :=
  s.mSessions.all (fun sd =>
    !(SPartyID.opEq sd.clientID c && sd.sequenceNr == sequenceNr) || sd.clientID == c)

/-- The sessions found for the client are its own. -/
def losesOwn (c : SPartyID) (s : CServer) : Bool :=
  s.mSessions.all (fun sd => !SPartyID.opEq sd.clientID c || sd.clientID == c)

/-- The condition on a step. -/
def stepRegisters (cfg : Config) (s : CServer) : Event → Bool
  | .dataRequest h _ =>
      match s.sessionCall cfg h with
      | none => true
      | some .unregister => s.findsOwn h.clientID h.sequenceNr
      | some .notify => s.findsOwn h.clientID h.sequenceNr &&
          ((s.findSession h.sequenceNr h.clientID).isSome || s.opensRight cfg none)
      | some .register => s.findsOwn h.clientID h.sequenceNr &&
          ((s.findSession h.sequenceNr h.clientID).isSome || s.opensRight cfg (some h.requestId))
  | .disconnect c _ =>
      if s.isConnected c then s.losesOwn c else s.mSessions.all (fun sd => sd.clientID != c)
  | .detached id _ =>
      (s.mClientConnections.find? (fun conn => conn.id == id)).all (fun conn =>
        s.losesOwn conn.clientID)
  | _ => true

variable {cfg : Config} {s s' t : CServer} {h : DataRequest} {c : SPartyID}

/-! ## Sessions and their registrations -/

theorem registration_copy (k : Nat) (sd : SessionData) :
    (sd.copy cfg k).registration cfg =
      { sd.registration cfg with method := methodOf cfg (cfg.uninitialised k) } := rfl

/-- The callback of a session is the one of its registration. -/
theorem callback_registration (sd : SessionData) :
    (sd.callback cfg).bind Output.unregister? = (sd.registration cfg).callback := by
  unfold SessionData.callback Registration.callback SessionData.registration methodOf
  dsimp only
  split <;> rfl

/-- A new session is registered, and the others are what they were. -/
theorem registrations_pushSession (sd : SessionData) {m : Option UInt32}
    (hright : s.copiesRight cfg m = true) :
    (s.pushSession cfg sd).mSessions.map (SessionData.registration cfg) =
      s.mSessions.map (SessionData.registration cfg) ++
        [⟨sd.sessionId, sd.clientID, sd.sequenceNr, m⟩] := by
  rw [copiesRight] at hright
  rw [pushSession]
  split
  · next hroom =>
    rw [if_pos hroom, beq_iff_eq] at hright
    rw [List.map_append, List.map_singleton, registration_copy, hright]
    rfl
  · next hfull =>
    rw [if_neg hfull, Bool.and_eq_true, List.all_eq_true, beq_iff_eq] at hright
    obtain ⟨hold, hnew⟩ := hright
    rw [List.mapIdx_append, List.map_append, List.mapIdx_cons, List.mapIdx_nil,
      List.map_singleton, registration_copy]
    have hkept : (s.mSessions.mapIdx (fun i sd => sd.copy cfg (s.copies + i))).map
        (SessionData.registration cfg) = s.mSessions.map (SessionData.registration cfg) := by
      refine List.ext_getElem? (fun i => ?_)
      rw [List.getElem?_map, List.getElem?_map, List.getElem?_mapIdx]
      cases hi : s.mSessions[i]? with
      | none => rfl
      | some x =>
          have hlt : i < s.mSessions.length := (List.getElem?_eq_some_iff.mp hi).1
          have hx := hold i (List.mem_range.mpr hlt)
          rw [hi, Option.all_some, beq_iff_eq] at hx
          rw [Option.map_some, Option.map_some, Option.map_some, registration_copy, hx]
          rfl
    rw [hkept, Nat.zero_add, hnew]
    rfl

/-- The session that is found for a client is the one that is open. -/
theorem opened_eq (cfg : Config) {q : Int32} (hown : s.findsOwn c q = true) :
    Registry.opened c q (s.mSessions.map (SessionData.registration cfg)) =
      ((s.findSession q c).bind (fun pos => s.mSessions[pos]?)).map
        (SessionData.registration cfg) := by
  rw [Registry.opened, findSession]
  split
  · rfl
  · have hsame : ∀ sd ∈ s.mSessions.reverse,
        (SPartyID.opEq sd.clientID c && sd.sequenceNr == q) =
          (sd.clientID == c && sd.sequenceNr == q) := by
      intro sd hsd
      have hsd' := List.all_eq_true.mp hown sd (List.mem_reverse.mp hsd)
      cases heq : sd.clientID == c with
      | true =>
          rw [beq_iff_eq] at heq
          rw [heq, SPartyID.opEq, beq_self_eq_true]
      | false =>
          rw [heq, Bool.or_false, Bool.not_eq_true'] at hsd'
          rw [hsd', Bool.false_and]
    rw [← findRev?_eq, List.findRev?_eq_find?_reverse, List.findRev?_eq_find?_reverse,
      ← List.map_reverse, List.find?_map, List.find?_congr hsame]
    rfl

theorem getElem?_findSession {q : Int32} {pos : Nat} (hpos : s.findSession q c = some pos) :
    ∃ sd, s.mSessions[pos]? = some sd ∧ sd ∈ s.mSessions := by
  rw [findSession] at hpos
  split at hpos
  · exact absurd hpos (by simp)
  · obtain ⟨front, sd, back, hl, rfl, -, -⟩ := lastIdx?_eq_some hpos
    refine ⟨sd, ?_, hl ▸ List.mem_append_right _ List.mem_cons_self⟩
    rw [hl, List.getElem?_append_right (Nat.le_refl _), Nat.sub_self, List.getElem?_cons_zero]

/-! ## The ledger -/

/-- The sessions of a ledger have different valid IDs. -/
structure Registry.Valid (ledger : List Registration) : Prop where
  nodup : (ledger.map (·.sessionId)).Nodup
  valid : ∀ r ∈ ledger, r.sessionId ≠ INVALID_SESSION_ID

namespace Registry

variable {ledger : List Registration}

theorem Valid.filter (hv : Valid ledger) (p : Registration → Bool) : Valid (ledger.filter p) :=
  ⟨hv.nodup.sublist (List.filter_sublist.map _),
    fun r hr => hv.valid r (List.mem_filter.mp hr).1⟩

theorem Valid.append (hv : Valid ledger) {r : Registration}
    (hr : r.sessionId ≠ INVALID_SESSION_ID) (hnew : ∀ r' ∈ ledger, r'.sessionId ≠ r.sessionId) :
    Valid (ledger ++ [r]) := by
  refine ⟨?_, fun r' hr' => ?_⟩
  · rw [List.map_append, List.map_singleton, List.nodup_append]
    refine ⟨hv.nodup, by simp, fun i hi j hj => ?_⟩
    obtain ⟨r', hr', rfl⟩ := List.mem_map.mp hi
    rw [List.mem_singleton.mp hj]
    exact hnew r' hr'
  · rcases List.mem_append.mp hr' with hr' | hr'
    · exact hv.valid r' hr'
    · rw [List.mem_singleton.mp hr']
      exact hr

theorem valid_record {id : Int32} {h : DataRequest} {call : SessionCall} (hv : Valid ledger)
    (hid : opened h.clientID h.sequenceNr ledger = none → call ≠ .unregister →
      id ≠ INVALID_SESSION_ID ∧ ∀ r ∈ ledger, r.sessionId ≠ id) :
    Valid (record id h ledger call) := by
  cases call with
  | notify =>
      rw [record]
      split
      · exact hv
      · next hnone => exact hv.append (hid hnone (by simp)).1 (hid hnone (by simp)).2
  | register =>
      rw [record]
      split
      · next r _ =>
        have hids : (ledger.map (fun r' => if r'.sessionId = r.sessionId then
            { r' with method := some h.requestId } else r')).map (·.sessionId) =
              ledger.map (·.sessionId) := by
          rw [List.map_map]
          refine List.map_congr_left (fun r' _ => ?_)
          rw [Function.comp_apply]
          split <;> rfl
        refine ⟨hids ▸ hv.nodup, fun r' hr' => ?_⟩
        have hmem : r'.sessionId ∈ ledger.map (·.sessionId) := hids ▸ List.mem_map_of_mem hr'
        obtain ⟨r'', hr'', heq⟩ := List.mem_map.mp hmem
        exact heq ▸ hv.valid r'' hr''
      · next hnone => exact hv.append (hid hnone (by simp)).1 (hid hnone (by simp)).2
  | unregister =>
      rw [record]
      split
      · exact hv.filter _
      · exact hv

end Registry

/-! ## Calls -/

section Call

variable {ledger : List Registration} {v : CServer}

/-- The register branch makes a session or enters the one that is open. -/
theorem registrations_openSession (hex : t.mSessions.map (SessionData.registration cfg) = ledger)
    (hv : Registry.Valid ledger) (hi : t.mSessionId = INVALID_SESSION_ID)
    (hc : t.mClientID = h.clientID) (hown : t.findsOwn h.clientID h.sequenceNr = true)
    (hright : (t.findSession h.sequenceNr h.clientID).isSome = true ∨
      t.copiesRight cfg (some h.requestId) = true)
    (hreg : cfg.isRegister h.requestId = true)
    (hs : (t.enterSession (t.findSession h.sequenceNr h.clientID)).openSession cfg h
      (t.findSession h.sequenceNr h.clientID) = .ok v) :
    v.mSessions.map (SessionData.registration cfg) =
      Registry.record (idOf t.nextID) h ledger .register := by
  have hopened := opened_eq cfg hown
  rw [hex] at hopened
  rw [Registry.record, hopened]
  cases hpos : t.findSession h.sequenceNr h.clientID with
  | none =>
      rw [hpos] at hs hright
      rw [enterSession, openSession, if_pos hi] at hs
      have hpush := registrations_pushSession (s := t.createId.2)
        { sessionId := t.createId.1, clientID := t.mClientID, sequenceNr := h.sequenceNr
          updateId := h.requestId } (hright.resolve_left (by simp))
      rw [← Except.ok.inj hs, Option.bind_none, Option.map_none]
      refine hpush.trans ?_
      dsimp only
      rw [hc, ← hex]
      rfl
  | some pos =>
      obtain ⟨sd, hsd, hmem⟩ := getElem?_findSession hpos
      have hvalid : sd.sessionId ≠ INVALID_SESSION_ID :=
        hv.valid (sd.registration cfg) (hex ▸ List.mem_map_of_mem hmem)
      have hentered : (t.enterSession (some pos)).mSessionId = sd.sessionId := by
        rw [enterSession, sessionIdAt, hsd, Option.map_some, Option.getD_some]
      rw [hpos, openSession, if_neg (by rw [hentered]; exact hvalid)] at hs
      rw [← Except.ok.inj hs, Option.bind_some, hsd, Option.map_some]
      have hnodup : (t.mSessions.map (·.sessionId)).Nodup := by
        have hn := hv.nodup
        rw [← hex, List.map_map] at hn
        exact hn
      have hmodify : t.mSessions.modify pos (fun sd => { sd with updateId := h.requestId }) = _ :=
        modify_eq_map hnodup hsd _
      refine (congrArg (List.map _) hmodify).trans ?_
      dsimp only
      rw [← hex, List.map_map, List.map_map]
      refine List.map_congr_left (fun x _ => ?_)
      simp only [Function.comp_apply, SessionData.registration]
      by_cases heq : x.sessionId = sd.sessionId
      · simp only [heq, if_true, methodOf, hreg]
      · simp only [heq, if_false]

/-- The unregister branch removes the session that is open. -/
theorem registrations_removeSession (hex : t.mSessions.map (SessionData.registration cfg) = ledger)
    (hv : Registry.Valid ledger) {i : Int32} :
    (t.removeSession i).mSessions.map (SessionData.registration cfg) =
      ledger.filter (fun r => r.sessionId ≠ i) := by
  have hnodup : (t.mSessions.map (·.sessionId)).Nodup := by
    have hn := hv.nodup
    rw [← hex, List.map_map] at hn
    exact hn
  have herase : (t.removeSession i).mSessions = t.mSessions.filter (fun sd => sd.sessionId ≠ i) :=
    eraseP_eq_filter hnodup i
  rw [herase, ← hex, List.filter_map]
  rfl

theorem sessions_readAndCall {m : RequestMethod} {user : List UserCall}
    (hs : t.readAndCall cfg m h user = .ok v) : v.mSessions = t.mSessions := by
  rw [readAndCall] at hs
  split at hs
  · exact (talks_calls hs).sessions
  · exact Except.ok.inj hs ▸ rfl

/-- The sessions behind a call of a method. -/
theorem registrations_processMethod {m : RequestMethod} {user : List UserCall}
    (hex : t.mSessions.map (SessionData.registration cfg) = ledger)
    (hv : Registry.Valid ledger) (hi : t.mSessionId = INVALID_SESSION_ID)
    (hc : t.mClientID = h.clientID)
    (hown : m.kind ≠ .request → t.findsOwn h.clientID h.sequenceNr = true)
    (hright : m.kind = .register → cfg.isRegister h.requestId = true ∧
      ((t.findSession h.sequenceNr h.clientID).isSome = true ∨
        t.copiesRight cfg (some h.requestId) = true))
    (hs : t.processMethod cfg m h user = .ok v) :
    v.mSessions.map (SessionData.registration cfg) =
      match m.kind with
      | .request => ledger
      | .register => Registry.record (idOf t.nextID) h ledger .register
      | .unregister => Registry.record (idOf t.nextID) h ledger .unregister := by
  unfold processMethod at hs
  rw [hc] at hs
  cases hk : m.kind with
  | request =>
      rw [hk] at hs
      rw [sessions_readAndCall hs]
      exact hex
  | register =>
      rw [hk] at hs
      obtain ⟨w, hw, hs⟩ := Partial.bind_eq_ok hs
      obtain ⟨x, hx, hs⟩ := Partial.bind_eq_ok hs
      have hsame : v.mSessions = w.mSessions := by
        rw [← sessions_readAndCall hx, ← Except.ok.inj hs]
        rfl
      rw [hsame]
      exact registrations_openSession hex hv hi hc (hown (by rw [hk]; simp)) (hright hk).2
        (hright hk).1 hw
  | unregister =>
      rw [hk] at hs
      obtain ⟨w, hw, hs⟩ := Partial.bind_eq_ok hs
      have hsame : v.mSessions = w.mSessions := by
        rw [← Except.ok.inj hs]
        rfl
      have hopened := opened_eq cfg (hown (by rw [hk]; simp))
      rw [hex] at hopened
      rw [hsame]
      dsimp only
      rw [Registry.record, hopened]
      rw [endSession] at hw
      cases hpos : t.findSession h.sequenceNr h.clientID with
      | none =>
          rw [hpos, enterSession, if_neg (not_not.mpr hi)] at hw
          exact Except.ok.inj hw ▸ hex
      | some pos =>
          obtain ⟨sd, hsd, hmem⟩ := getElem?_findSession hpos
          have hvalid : sd.sessionId ≠ INVALID_SESSION_ID :=
            hv.valid (sd.registration cfg) (hex ▸ List.mem_map_of_mem hmem)
          have hentered : (t.enterSession (some pos)).mSessionId = sd.sessionId := by
            rw [enterSession, sessionIdAt, hsd, Option.map_some, Option.getD_some]
          rw [hpos, if_pos (by rw [hentered]; exact hvalid)] at hw
          obtain ⟨x, hx, hw⟩ := Partial.bind_eq_ok hw
          have hcalled := talks_calls hx
          have hid : x.mSessionId = sd.sessionId := hcalled.sessionId.trans hentered
          have hsessions : x.mSessions = t.mSessions := hcalled.sessions
          rw [← Except.ok.inj hw, hid, Option.bind_some, hsd, Option.map_some]
          exact registrations_removeSession (hsessions ▸ hex) hv

/-- The sessions behind a notification that is asked for. -/
theorem registrations_handleNotify (hex : t.mSessions.map (SessionData.registration cfg) = ledger)
    (hown : h.requestType = .REQUEST_REGISTER_NOTIFY → t.mNotifications.any (isSet h) = false →
      t.findsOwn h.clientID h.sequenceNr = true ∧
        ((t.findSession h.sequenceNr h.clientID).isSome = true ∨ t.copiesRight cfg none = true))
    (hs : t.handleNotify cfg h = .ok v) :
    v.mSessions.map (SessionData.registration cfg) =
      if h.requestType = .REQUEST_REGISTER_NOTIFY ∧ t.mNotifications.any (isSet h) = false then
        Registry.record (idOf t.nextID) h ledger .notify
      else ledger := by
  generalize hw : (if t.mNotifications.any (isSet h) then t else t.addNotification cfg h) = w
  have hsame : v.mSessions = w.mSessions := by
    rw [handleNotify, hw] at hs
    split at hs
    · exact (shrinks_sendAttribute hs).sessions
    · exact Except.ok.inj hs ▸ rfl
  rw [hsame, ← hw]
  by_cases hany : t.mNotifications.any (isSet h) = true
  · rw [if_pos hany, if_neg (by rw [hany]; simp)]
    exact hex
  · rw [if_neg hany, addNotification]
    by_cases htype : h.requestType = .REQUEST_REGISTER_NOTIFY
    · have hset : t.mNotifications.any (isSet h) = false := by simpa using hany
      have hown := hown htype hset
      have hopened := opened_eq cfg hown.1
      rw [hex] at hopened
      rw [if_pos htype, if_pos ⟨htype, hset⟩, Registry.record, hopened]
      cases hpos : t.findSession h.sequenceNr h.clientID with
      | some pos =>
          obtain ⟨sd, hsd, -⟩ := getElem?_findSession hpos
          rw [Option.bind_some, hsd, Option.map_some]
          exact hex
      | none =>
          rw [hpos] at hown
          have hpush := registrations_pushSession (s := t.createId.2)
            { sessionId := t.createId.1, clientID := h.clientID, sequenceNr := h.sequenceNr }
            (hown.2.resolve_left (by simp))
          rw [Option.bind_none, Option.map_none, ← hex]
          exact hpush
    · rw [if_neg htype, if_neg (fun hbad => htype hbad.1)]
      exact hex

end Call

/-! ## Steps -/

/-- The ledger has the sessions of the server, and no session is entered. -/
structure Registry.Kept (cfg : Config) (d : Registry) : Prop where
  sessions : d.server.mSessions.map (SessionData.registration cfg) = d.ledger
  valid : Registry.Valid d.ledger
  left : d.server.mSessionId = INVALID_SESSION_ID

section Steps

variable {d : Registry} {user : List UserCall}

theorem findClientConnection_eq (c : SPartyID) (s : CServer) :
    ∃ l, (s.findClientConnection c).2 = { s with mNotifications := l } := by
  rw [findClientConnection, findClientConnectionBy]
  cases s.findConnection c with
  | some conn => exact ⟨s.mNotifications, rfl⟩
  | none => exact ⟨_, rfl⟩

theorem registrations_handleRequest (hk : d.Kept cfg)
    (hv : protoMinorOf (d.server.findConnection h.clientID) = h.protoMinor)
    (htype : h.requestType = .REQUEST)
    (hcond : d.server.stepRegisters cfg (.dataRequest h user) = true)
    (hs : (d.server.findClientConnection h.clientID).2.handleRequest cfg h user = .ok s') :
    s'.mSessions.map (SessionData.registration cfg) = d.next cfg (.dataRequest h user) := by
  obtain ⟨l, hl⟩ := findClientConnection_eq h.clientID d.server
  have hdangling := isResponseDangling_findClientConnection h.clientID
    (cfg.getResponse h.requestId) d.server
  rw [stepRegisters] at hcond
  rw [Registry.next]
  rcases handleRequest_cases hs with ⟨hd, hs⟩ | ⟨hd, v, hs, hfinish⟩
  · have hcall : d.server.sessionCall cfg h = none := by
      rw [sessionCall, if_neg (not_not.mpr hv), htype]
      exact if_pos (hdangling ▸ hd)
    rw [hcall, (shrinks_sendErrorToClient hs).sessions, hl]
    exact hk.sessions
  · have hd : ¬ d.server.isResponseDangling (cfg.getResponse h.requestId) = true :=
      Bool.eq_false_iff.mp (hdangling ▸ hd)
    have hsame : s'.mSessions = v.mSessions := by
      rw [hfinish]
      rfl
    obtain ⟨f, hf⟩ := acceptRequest_eq h (cfg.getResponse h.requestId)
      (d.server.findClientConnection h.clientID).2
    rw [hf, hl] at hs
    unfold processRequest at hs
    rw [hsame]
    cases hm : cfg.requestMethods[h.requestId.toNat]? with
    | none =>
        rw [hm] at hs
        have hcall : d.server.sessionCall cfg h = none := by
          rw [sessionCall, if_neg (not_not.mpr hv), htype]
          dsimp only
          rw [if_neg hd, hm]
        rw [hcall, ← Except.ok.inj hs]
        exact hk.sessions
    | some m =>
        rw [hm] at hs
        dsimp only at hs
        have hcall : d.server.sessionCall cfg h =
            match m.kind with
            | .request => none
            | .register => some .register
            | .unregister => some .unregister := by
          rw [sessionCall, if_neg (not_not.mpr hv), htype]
          dsimp only
          rw [if_neg hd, hm]
        refine (registrations_processMethod ?_ hk.valid ?_ ?_ ?_ ?_ hs).trans ?_
        · exact hk.sessions
        · exact hk.left
        · rfl
        · intro hkind
          rw [hcall] at hcond
          cases hm' : m.kind with
          | request => exact absurd hm' hkind
          | register =>
              rw [hm'] at hcond
              exact (Bool.and_eq_true_iff.mp hcond).1
          | unregister =>
              rw [hm'] at hcond
              exact hcond
        · intro hkind
          rw [hcall, hkind] at hcond
          have hright := (Bool.and_eq_true_iff.mp hcond).2
          refine ⟨by rw [Config.isRegister, hm, Option.any_some, hkind]; rfl, ?_⟩
          refine (Bool.or_eq_true_iff.mp hright).imp (fun hsome => hsome) (fun hopens => ?_)
          exact (Bool.and_eq_true_iff.mp hopens).2
        · rw [hcall]
          cases m.kind <;> rfl

theorem registrations_notify (hk : d.Kept cfg)
    (hv : protoMinorOf (d.server.findConnection h.clientID) = h.protoMinor)
    (htype : h.requestType = .REQUEST_NOTIFY ∨ h.requestType = .REQUEST_REGISTER_NOTIFY)
    (hcond : d.server.stepRegisters cfg (.dataRequest h user) = true)
    (hs : (d.server.findClientConnection h.clientID).2.handleNotify cfg h = .ok s') :
    s'.mSessions.map (SessionData.registration cfg) = d.next cfg (.dataRequest h user) := by
  obtain ⟨l, hl⟩ := findClientConnection_eq h.clientID d.server
  have hcall : d.server.sessionCall cfg h =
      if h.requestType = .REQUEST_REGISTER_NOTIFY ∧
          (d.server.findClientConnection h.clientID).2.mNotifications.any (isSet h) = false then
        some .notify
      else none := by
    rw [sessionCall, if_neg (not_not.mpr hv)]
    rcases htype with htype | htype
    · rw [htype]
      rfl
    · rw [htype]
      dsimp only
      cases (d.server.findClientConnection h.clientID).2.mNotifications.any (isSet h) <;> rfl
  rw [stepRegisters, hcall] at hcond
  rw [Registry.next, hcall]
  rw [hl] at hs hcond ⊢
  refine (registrations_handleNotify (t := { d.server with mNotifications := l }) hk.sessions ?_
    hs).trans ?_
  · intro hregister hset
    rw [if_pos ⟨hregister, hset⟩] at hcond
    obtain ⟨hown, hright⟩ := Bool.and_eq_true_iff.mp hcond
    refine ⟨hown, (Bool.or_eq_true_iff.mp hright).imp (fun hsome => hsome) (fun hopens => ?_)⟩
    exact (Bool.and_eq_true_iff.mp hopens).2
  · split <;> rfl

/-- What a data request leaves of the sessions is what it writes to the ledger. -/
theorem registrations_handleDataRequest (hk : d.Kept cfg)
    (hcond : d.server.stepRegisters cfg (.dataRequest h user) = true)
    (hs : d.server.handleDataRequest cfg h user = .ok s') :
    s'.mSessions.map (SessionData.registration cfg) = d.next cfg (.dataRequest h user) := by
  have hfound := (shrinks_findClientConnectionBy steady h.clientID d.server).sessions
  have hother : d.server.sessionCall cfg h = none → s'.mSessions = d.server.mSessions →
      s'.mSessions.map (SessionData.registration cfg) = d.next cfg (.dataRequest h user) := by
    intro hcall hsame
    rw [Registry.next, hcall, hsame]
    exact hk.sessions
  unfold handleDataRequest at hs
  dsimp only at hs
  rw [fst_findClientConnection] at hs
  by_cases hv : protoMinorOf (d.server.findConnection h.clientID) ≠ h.protoMinor
  · rw [if_pos hv] at hs
    refine hother ?_ (Except.ok.inj hs ▸ hfound)
    rw [sessionCall, if_pos hv]
  · rw [if_neg hv] at hs
    have hversion := not_not.mp hv
    have hnone : (∀ t, h.requestType = t → t ≠ .REQUEST ∧ t ≠ .REQUEST_REGISTER_NOTIFY) →
        d.server.sessionCall cfg h = none := by
      intro htype
      rw [sessionCall, if_neg hv]
      cases ht : h.requestType with
      | REQUEST => exact absurd rfl (htype _ ht).1
      | REQUEST_REGISTER_NOTIFY => exact absurd rfl (htype _ ht).2
      | _ => rfl
    unfold dispatchRequest at hs
    cases ht : h.requestType with
    | REQUEST =>
        rw [ht] at hs
        exact registrations_handleRequest hk hversion ht hcond hs
    | REQUEST_NOTIFY =>
        rw [ht] at hs
        exact registrations_notify hk hversion (Or.inl ht) hcond hs
    | REQUEST_REGISTER_NOTIFY =>
        rw [ht] at hs
        exact registrations_notify hk hversion (Or.inr ht) hcond hs
    | REQUEST_STOP_NOTIFY =>
        rw [ht] at hs
        exact hother (hnone (by rw [ht]; rintro t rfl; simp)) (Except.ok.inj hs ▸ hfound)
    | REQUEST_STOP_REGISTER_NOTIFY =>
        rw [ht] at hs
        exact hother (hnone (by rw [ht]; rintro t rfl; simp)) (Except.ok.inj hs ▸ hfound)
    | REQUEST_STOP_ALL_NOTIFY =>
        rw [ht] at hs
        exact hother (hnone (by rw [ht]; rintro t rfl; simp)) (Except.ok.inj hs ▸ hfound)
    | REQUEST_STOP_ALL_REGISTER_NOTIFY =>
        rw [ht] at hs
        refine hother (hnone (by rw [ht]; rintro t rfl; simp)) ?_
        rw [← Except.ok.inj hs, handleStopSession]
        split <;> exact hfound
    | REQUEST_LOAD_COMPONENT =>
        rw [ht] at hs
        exact hother (hnone (by rw [ht]; rintro t rfl; simp)) (Except.ok.inj hs ▸ hfound)

end Steps

/-! ## Clients that go -/

theorem filterMap_messages (ms : List Message) :
    (ms.map Output.message).filterMap Output.unregister? = [] := by
  rw [List.filterMap_map, List.filterMap_eq_nil_iff]
  exact fun _ _ => rfl

/-- The loop of `removeAllSessions` calls back once for each session of the client, and
leaves the others. -/
theorem removeAllLoop_eq {sessions : List SessionData} {user : List (List UserCall)}
    {r : List SessionData × CServer} (hr : removeAllLoop cfg c sessions user s = .ok r) :
    r.1 = sessions.filter (fun sd => !SPartyID.opEq sd.clientID c) ∧
      ∃ out, r.2.log = s.log ++ out ∧ out.filterMap Output.unregister? =
        (sessions.filter (fun sd => SPartyID.opEq sd.clientID c)).filterMap
          (fun sd => (sd.registration cfg).callback) := by
  induction sessions generalizing user s r with
  | nil => exact Except.ok.inj hr ▸ ⟨rfl, [], (List.append_nil _).symm, rfl⟩
  | cons sd sessions ih =>
      rw [removeAllLoop] at hr
      by_cases heq : SPartyID.opEq sd.clientID c = true
      · rw [if_pos heq] at hr
        rw [List.filter_cons_of_neg (by simp [heq]), List.filter_cons_of_pos (by exact heq),
          List.filterMap_cons, ← callback_registration]
        cases ho : sd.callback cfg with
        | none =>
            rw [ho] at hr
            exact ih (s := { s with mCurrentSequenceNr := INVALID_SEQUENCE_NR }) hr
        | some o =>
            rw [ho] at hr
            obtain ⟨t, ht, hr⟩ := Partial.bind_eq_ok hr
            obtain ⟨hleft, out, hlog, hout⟩ := ih hr
            obtain ⟨ms, hms⟩ := (talks_calls ht).log
            have hcalled : o.unregister?.isSome = true := by
              rw [SessionData.callback] at ho
              split at ho
              · rw [← Option.some.inj ho]
                rfl
              · exact absurd ho (by simp)
            obtain ⟨callback, hcallback⟩ := Option.isSome_iff_exists.mp hcalled
            refine ⟨hleft, o :: (ms.map .message ++ out), ?_, ?_⟩
            · rw [hlog]
              dsimp only
              rw [hms, emit, List.append_assoc, List.append_assoc, List.singleton_append]
            · rw [Option.bind_some, List.filterMap_cons, hcallback, List.filterMap_append,
                filterMap_messages, List.nil_append, hout]
      · rw [if_neg heq] at hr
        obtain ⟨t, ht, hr⟩ := Partial.bind_eq_ok hr
        obtain ⟨hleft, out, hlog, hout⟩ := ih ht
        rw [← Except.ok.inj hr, List.filter_cons_of_pos (by simp [heq]),
          List.filter_cons_of_neg (by exact heq)]
        exact ⟨congrArg (sd :: ·) hleft, out, hlog, hout⟩

/-- A client that goes is called back for its sessions, which are taken away. -/
theorem registrations_dropClient {user : List (List UserCall)} (hown : s.losesOwn c = true)
    (hs : s.dropClient cfg c user = .ok s') :
    (∃ out, s'.log = s.log ++ out ∧ out.filterMap Output.unregister? =
      ((s.mSessions.map (SessionData.registration cfg)).filter
        (fun r => r.clientID == c)).filterMap Registration.callback) ∧
      s'.mSessions.map (SessionData.registration cfg) =
        (s.mSessions.map (SessionData.registration cfg)).filter (fun r => r.clientID != c) := by
  obtain ⟨t, ht, hs⟩ := Partial.bind_eq_ok hs
  obtain ⟨r, hr, ht⟩ := Partial.bind_eq_ok ht
  obtain ⟨hleft, out, hlog, hout⟩ := removeAllLoop_eq hr
  have hsame : ∀ sd ∈ s.mSessions, SPartyID.opEq sd.clientID c = (sd.clientID == c) := by
    intro sd hsd
    have hsd' := List.all_eq_true.mp hown sd hsd
    cases heq : sd.clientID == c with
    | true =>
        rw [beq_iff_eq] at heq
        rw [heq, SPartyID.opEq, beq_self_eq_true]
    | false =>
        rw [heq, Bool.or_false, Bool.not_eq_true'] at hsd'
        exact hsd'
  rw [← Except.ok.inj hs, ← Except.ok.inj ht]
  refine ⟨⟨out, hlog, ?_⟩, ?_⟩
  · rw [hout, List.filter_map, List.filterMap_map]
    exact congrArg (List.filterMap _) (List.filter_congr hsame)
  · refine (congrArg (List.map _) hleft).trans ?_
    rw [List.filter_map]
    refine congrArg (List.map _) (List.filter_congr (fun sd hsd => ?_))
    rw [hsame sd hsd]
    rfl

/-- The loss of a client, as a server that keeps its sessions meets it. -/
theorem registrations_lost {d : Registry} {e : Event} (hk : d.Kept cfg)
    (hcond : d.server.stepRegisters cfg e = true) (hlost : d.server.lost e = some c)
    (hs : step cfg d.server e = .ok s') :
    (∃ out, s'.log = d.server.log ++ out ∧ out.filterMap Output.unregister? =
      (d.ledger.filter (fun r => r.clientID == c)).filterMap Registration.callback) ∧
      s'.mSessions.map (SessionData.registration cfg) =
        d.ledger.filter (fun r => r.clientID != c) := by
  rw [← hk.sessions]
  cases e with
  | disconnect clientID user =>
      obtain rfl := Option.some.inj hlost
      rw [stepRegisters] at hcond
      rw [step, handleDisconnectRequest] at hs
      cases hc : d.server.findConnection clientID with
      | none =>
          rw [hc] at hs
          rw [isConnected, hc, Option.isSome_none, if_neg Bool.false_ne_true,
            List.all_eq_true] at hcond
          -- the request is ignored, and so nothing may be left of the client
          rw [← Except.ok.inj hs]
          have hnone : (d.server.mSessions.map (SessionData.registration cfg)).filter
              (fun r => r.clientID == clientID) = [] := by
            rw [List.filter_eq_nil_iff]
            intro r hr
            obtain ⟨sd, hsd, rfl⟩ := List.mem_map.mp hr
            simpa [SessionData.registration] using hcond sd hsd
          refine ⟨⟨[], (List.append_nil _).symm, by rw [hnone]; rfl⟩, ?_⟩
          refine (List.filter_eq_self.mpr (fun r hr => ?_)).symm
          obtain ⟨sd, hsd, rfl⟩ := List.mem_map.mp hr
          exact hcond sd hsd
      | some conn =>
          rw [hc] at hs
          rw [isConnected, hc, Option.isSome_some, if_pos rfl] at hcond
          dsimp only at hs
          rw [clientID_of_findConnection hc] at hs
          split at hs
          · obtain ⟨⟨out, hlog, hout⟩, hleft⟩ := registrations_dropClient
              (s := d.server.emit (.clearNotification conn.notificationID)) hcond hs
            refine ⟨⟨.clearNotification conn.notificationID :: out, ?_, hout⟩, hleft⟩
            rw [hlog, emit, List.append_assoc, List.singleton_append]
          · exact registrations_dropClient hcond hs
  | detached id user =>
      obtain ⟨conn, hc, rfl⟩ := Option.map_eq_some_iff.mp hlost
      rw [stepRegisters, hc, Option.all_some] at hcond
      rw [step, handleClientDetached, hc] at hs
      exact registrations_dropClient hcond hs
  | connect q => exact absurd hlost (by simp [lost])
  | dataRequest h user => exact absurd hlost (by simp [lost])
  | user user => exact absurd hlost (by simp [lost])
  | channelClosed channel => exact absurd hlost (by simp [lost])
  | unregisterInterface => exact absurd hlost (by simp [lost])
  | createId => exact absurd hlost (by simp [lost])

/-! ## Runs -/

theorem Registry.kept_init (cfg : Config) : Kept cfg {} :=
  ⟨rfl, ⟨List.nodup_nil, fun _ hr => absurd hr List.not_mem_nil⟩, rfl⟩

theorem Registry.valid_next {d : Registry} {e : Event} (hk : d.Kept cfg)
    (hcond : d.server.stepRegisters cfg e = true) : Valid (d.next cfg e) := by
  have hlost : ∀ o : Option SPartyID, Valid (match o with
      | some c => d.ledger.filter (fun r => r.clientID != c)
      | none => d.ledger) := by
    intro o
    cases o with
    | none => exact hk.valid
    | some c => exact hk.valid.filter _
  cases e with
  | dataRequest h user =>
      rw [next]
      rw [stepRegisters] at hcond
      -- a session that is not open yet gets an ID of its own
      have hfresh : ∀ m, d.server.findsOwn h.clientID h.sequenceNr = true →
          ((d.server.findSession h.sequenceNr h.clientID).isSome ||
            d.server.opensRight cfg m) = true →
          opened h.clientID h.sequenceNr d.ledger = none →
            idOf d.server.nextID ≠ INVALID_SESSION_ID ∧
              ∀ r ∈ d.ledger, r.sessionId ≠ idOf d.server.nextID := by
        intro m hown hright hnone
        rw [← hk.sessions, opened_eq cfg hown] at hnone
        cases hpos : d.server.findSession h.sequenceNr h.clientID with
        | some pos =>
            obtain ⟨sd, hsd, -⟩ := getElem?_findSession hpos
            rw [hpos, Option.bind_some, hsd] at hnone
            exact absurd hnone (by simp)
        | none =>
            rw [hpos, Option.isSome_none, Bool.false_or, opensRight, isFresh] at hright
            obtain ⟨hid, hall⟩ := Bool.and_eq_true_iff.mp (Bool.and_eq_true_iff.mp hright).1
            refine ⟨bne_iff_ne.mp hid, fun r hr => ?_⟩
            obtain ⟨sd, hsd, rfl⟩ := List.mem_map.mp (hk.sessions ▸ hr)
            exact bne_iff_ne.mp (List.all_eq_true.mp hall sd hsd)
      cases hcall : d.server.sessionCall cfg h with
      | none => exact hk.valid
      | some call =>
          rw [hcall] at hcond
          refine valid_record hk.valid (fun hnone hnot => ?_)
          cases call with
          | notify =>
              obtain ⟨hown, hright⟩ := Bool.and_eq_true_iff.mp hcond
              exact hfresh none hown hright hnone
          | register =>
              obtain ⟨hown, hright⟩ := Bool.and_eq_true_iff.mp hcond
              exact hfresh _ hown hright hnone
          | unregister => exact absurd rfl hnot
  | disconnect clientID user => exact hlost (some clientID)
  | detached id user => exact hlost (d.server.lost (.detached id user))
  | connect q => exact hk.valid
  | user user => exact hk.valid
  | channelClosed channel => exact hk.valid
  | unregisterInterface => exact hk.valid
  | createId => exact hk.valid

theorem Registry.kept_step {d d' : Registry} {e : Event} (hk : d.Kept cfg)
    (hcond : d.server.stepRegisters cfg e = true) (hs : Registry.step cfg d e = .ok d') :
    d'.Kept cfg := by
  obtain ⟨s', hs, hd⟩ := Partial.bind_eq_ok hs
  rw [← Except.ok.inj hd]
  refine ⟨?_, valid_next hk hcond, sessionId_step hk.left hs⟩
  have hsame : s'.mSessions = d.server.mSessions → d.next cfg e = d.ledger →
      s'.mSessions.map (SessionData.registration cfg) = d.next cfg e := by
    intro hsessions hledger
    rw [hsessions, hledger]
    exact hk.sessions
  cases e with
  | dataRequest h user => exact registrations_handleDataRequest hk hcond hs
  | disconnect clientID user => exact (registrations_lost hk hcond rfl hs).2
  | detached id user =>
      cases hc : d.server.mClientConnections.find? (fun conn => conn.id == id) with
      | none =>
          have hlost : d.server.lost (.detached id user) = none := by rw [lost, hc]; rfl
          rw [CServer.step, handleClientDetached, hc] at hs
          exact hsame (Except.ok.inj hs ▸ rfl) (by simp only [next, hlost])
      | some conn =>
          have hlost : d.server.lost (.detached id user) = some conn.clientID := by
            rw [lost, hc]
            rfl
          have hnext : d.next cfg (.detached id user) =
              d.ledger.filter (fun r => r.clientID != conn.clientID) := by
            simp only [next, hlost]
          rw [hnext]
          exact (registrations_lost hk hcond hlost hs).2
  | connect q =>
      obtain ⟨l, n, -, hl⟩ := handleConnectRequest_eq cfg q d.server
      refine hsame ?_ rfl
      rw [← Except.ok.inj hs, hl]
  | user user => exact hsame (talks_calls hs).sessions rfl
  | channelClosed channel => exact hsame (Except.ok.inj hs ▸ rfl) rfl
  | unregisterInterface =>
      obtain ⟨l, os, hl⟩ := cleanup_eq d.server.mClientConnections d.server
      refine hsame ?_ rfl
      rw [← Except.ok.inj hs, unregisterInterface, hl]
  | createId => exact hsame (Except.ok.inj hs ▸ rfl) rfl

/-- Where the application calls nothing, the loss of a client does not break off. -/
theorem isOk_lost {e : Event} (hlost : s.lost e = some c) (hquiet : e.callsNothing = true) :
    ∃ s', step cfg s e = .ok s' := by
  cases e with
  | disconnect clientID cs =>
      obtain rfl : cs = [] := List.isEmpty_iff.mp hquiet
      rw [step, handleDisconnectRequest]
      cases s.findConnection clientID with
      | none => exact ⟨s, rfl⟩
      | some conn =>
          obtain ⟨w, hw, -⟩ := dropClient_quiet cfg conn.clientID
            (if conn.notificationID ≠ 0 then s.emit (.clearNotification conn.notificationID) else s)
          exact ⟨w, hw⟩
  | detached id cs =>
      obtain rfl : cs = [] := List.isEmpty_iff.mp hquiet
      rw [step, handleClientDetached]
      cases s.mClientConnections.find? (fun conn => conn.id == id) with
      | none => exact ⟨s, rfl⟩
      | some conn =>
          obtain ⟨w, hw, -⟩ := dropClient_quiet cfg conn.clientID s
          exact ⟨w, hw⟩
  | connect q => exact absurd hlost (by simp [lost])
  | dataRequest h user => exact absurd hlost (by simp [lost])
  | user user => exact absurd hlost (by simp [lost])
  | channelClosed channel => exact absurd hlost (by simp [lost])
  | unregisterInterface => exact absurd hlost (by simp [lost])
  | createId => exact absurd hlost (by simp [lost])

/-- In every run whose steps meet the condition, a client that goes is called back once
for each session it has. -/
theorem unregisters_of_along {es : List Event}
    (ha : Partial.Along (Registry.step cfg) (fun d e => d.server.stepRegisters cfg e = true)
      {} es) :
    Partial.Along (Registry.step cfg) (Unregisters cfg) {} es :=
  Partial.along_of_invariant (I := Registry.Kept cfg)
    (fun _ _ _ hk hcond hs => Registry.kept_step hk hcond hs)
    (fun _ _ hk hcond => ⟨hk.valid.nodup, fun _ hlost =>
      ⟨isOk_lost hlost, fun _ hs => registrations_lost hk hcond hlost hs⟩⟩)
    (Registry.kept_init cfg) ha

/-- An interface with a request, a register and an unregister method; the memory that
`SessionData` is copied to has zeros, which is the update ID of the request. -/
def registerConfig : Config :=
  { requestMethods :=
      [⟨.request, 0x80000001, decodesInt32, response_id_first⟩,
        ⟨.register, INVALID_ID, decodesInt32, Or.inl rfl⟩,
        ⟨.unregister, INVALID_ID, decodesInt32, Or.inl rfl⟩]
    attributes := [] }

/-- Two clients register for notifications and then register; one of them goes, and the
other unregisters and goes. -/
def registeredClientGoes : List Event :=
  [connects ⟨1, 0⟩ 1, connects ⟨2, 0⟩ 2, asks ⟨1, 0⟩ .REQUEST_REGISTER_NOTIFY 0x80000001 7 [],
    asks ⟨2, 0⟩ .REQUEST_REGISTER_NOTIFY 0x80000001 7 [], asks ⟨1, 0⟩ .REQUEST 1 7 [],
    asks ⟨2, 0⟩ .REQUEST 1 7 [], .disconnect ⟨1, 0⟩ [], asks ⟨2, 0⟩ .REQUEST 2 7 [],
    .disconnect ⟨2, 0⟩ []]

theorem unregisters_registeredClientGoes :
    (∃ d, Partial.run (Registry.step registerConfig) {} registeredClientGoes = .ok d ∧
      d.server.log.filterMap Output.unregister? = [(1, 3)]) ∧
    Partial.Along (Registry.step registerConfig) (Unregisters registerConfig) {}
      registeredClientGoes :=
  ⟨by decide +kernel, unregisters_of_along (by decide +kernel)⟩

/-- A client registers without a notification first. -/
def registersAtOnce : List Event := [connects ⟨1, 0⟩ 1, asks ⟨1, 0⟩ .REQUEST 1 7 []]

/-- A client registers, and then another one makes a session. -/
def registersAndGrows : List Event :=
  [connects ⟨1, 0⟩ 1, connects ⟨2, 0⟩ 2, asks ⟨1, 0⟩ .REQUEST_REGISTER_NOTIFY 0x80000001 7 [],
    asks ⟨1, 0⟩ .REQUEST 1 7 [], asks ⟨2, 0⟩ .REQUEST_REGISTER_NOTIFY 0x80000001 7 []]

/-- In both runs the session of the first client has lost its update ID, and nothing is
called back when the client goes. -/
theorem not_unregisters_copied_session :
    (∃ d, Partial.run (Registry.step registerConfig) {} registersAtOnce = .ok d ∧
      ¬ Unregisters registerConfig d (.disconnect ⟨1, 0⟩ [])) ∧
    (∃ d, Partial.run (Registry.step registerConfig) {} registersAndGrows = .ok d ∧
      ¬ Unregisters registerConfig d (.disconnect ⟨1, 0⟩ [])) := by
  have hno : ∀ d : Registry, (¬ ∃ s',
      step registerConfig d.server (.disconnect ⟨1, 0⟩ []) = .ok s' ∧
        (s'.log.drop d.server.log.length).filterMap Output.unregister? =
          (d.ledger.filter (fun r => r.clientID == ⟨1, 0⟩)).filterMap Registration.callback) →
      ¬ Unregisters registerConfig d (.disconnect ⟨1, 0⟩ []) := by
    intro d hno h
    obtain ⟨hok, hcallbacks⟩ := h.2 ⟨1, 0⟩ rfl
    obtain ⟨s', hs'⟩ := hok rfl
    obtain ⟨⟨out, hlog, hout⟩, -⟩ := hcallbacks s' hs'
    refine hno ⟨s', hs', ?_⟩
    rw [hlog, List.drop_left]
    exact hout
  have hlost : ∀ es ∈ [registersAtOnce, registersAndGrows],
      ∃ d, Partial.run (Registry.step registerConfig) {} es = .ok d ∧
        ¬ ∃ s', step registerConfig d.server (.disconnect ⟨1, 0⟩ []) = .ok s' ∧
          (s'.log.drop d.server.log.length).filterMap Output.unregister? =
            (d.ledger.filter (fun r => r.clientID == ⟨1, 0⟩)).filterMap
              Registration.callback := by decide +kernel
  obtain ⟨d, hd, hbad⟩ := hlost registersAtOnce (by simp)
  obtain ⟨d', hd', hbad'⟩ := hlost registersAndGrows (by simp)
  exact ⟨⟨d, hd, hno d hbad⟩, d', hd', hno d' hbad'⟩

end CServer

end Dsi
