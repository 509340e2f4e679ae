import Mathlib.Data.List.Nodup
import Dsi.Server.Unblocked

/-!
# Dsi.Server.Desk

Requests that are unblocked and answered later.  A desk is a server with a ledger of
the requests whose handler has unblocked them, under the handles they got.  As long as
the server reaches the clients of its entries for responses, every handle is answered
to the client and under the sequence number of its request, in any order.  Clients are
compared by their local IDs: the one of a handle counts as gone when another client with
its local ID goes.
-/

namespace Dsi

namespace CServer

open Sequence

/-! ## The desk -/

/-- A server with the requests that were unblocked and are not answered yet, under their
handles. -/
structure Desk where
  server : CServer := init
  ledger : List (Int32 × DataRequest) := []

/-- What happens at a desk: a request comes whose handler unblocks it, the application
answers a handle, and anything else. -/
inductive Act where
  | accept (h : DataRequest)
  | respond (handle : Int32)
  | other (e : Event)
  deriving DecidableEq, Repr

namespace Desk

/-- What `mUnblockedSessions` has of a request in the ledger. -/
def entry (cfg : Config) (l : Int32 × DataRequest) : Int32 × Notification :=
  (l.1, l.2.notification (cfg.getResponse l.2.requestId))

/-- The calls that answer a handle: `prepareResponse` and the response method. -/
def answer (cfg : Config) (d : Desk) (handle : Int32) : List UserCall :=
  .prepareResponse handle ::
    ((d.ledger.find? (fun l => l.1 == handle)).map (fun l =>
      UserCall.response (cfg.getResponse l.2.requestId))).toList

/-- One act.  The handle of an accepted request is the one that is new in
`mUnblockedSessions`. -/
def step (cfg : Config) (d : Desk) : Act → Except Fault Desk
  | .accept h =>
      CServer.step cfg d.server (.dataRequest h [.unblockRequest]) >>= fun s =>
        .ok ⟨s, d.ledger ++ (s.mUnblockedSessions.filter (fun u =>
          !d.server.mUnblockedSessions.contains u)).map (fun u => (u.1, h))⟩
  | .respond handle =>
      calls cfg d.server (d.answer cfg handle) >>= fun s =>
        .ok ⟨s, d.ledger.filter (fun l => l.1 != handle)⟩
  | .other e => CServer.step cfg d.server e >>= fun s => .ok { d with server := s }

/-! ## What is promised -/

/-- The unblocked requests are those of the ledger, under different handles. -/
def Kept (cfg : Config) (d : Desk) : Prop :=
  d.server.mUnblockedSessions = d.ledger.map (entry cfg) ∧ (d.ledger.map (·.1)).Nodup

/-- What an act comes to.  A request is accepted and unblocked under a new handle.  An
answered handle gives one message, to the client and under the sequence number of its
request, besides those for the standing entries, which stay; it is consumed, the response
is not busy, and the other handles are as they were. -/
def Serves (cfg : Config) (d : Desk) : Act → Prop
  | .accept h =>
      ∃ s' handle, CServer.step cfg d.server (.dataRequest h [.unblockRequest]) = .ok s' ∧
        (∀ u ∈ d.server.mUnblockedSessions, u.1 ≠ handle) ∧
        s'.mUnblockedSessions = d.server.mUnblockedSessions ++
          [(handle, h.notification (cfg.getResponse h.requestId))] ∧
        s'.mResponseStateMap (cfg.getResponse h.requestId) = false
  | .respond handle =>
      ∀ h, (handle, h) ∈ d.ledger →
        ∃ s' conn, calls cfg d.server
            [.prepareResponse handle, .response (cfg.getResponse h.requestId)] = .ok s' ∧
          d.server.findConnection h.clientID = some conn ∧
          s'.log = d.server.log ++
            (.message { clientID := h.clientID, serverID := conn.serverID
                        protoMinor := conn.protoMinor, responseType := .RESULT_OK
                        requestID := cfg.getResponse h.requestId
                        sequenceNumber := h.sequenceNr } ::
              (d.server.mNotifications.reverse.filterMap (ResponseLoop.due
                ⟨cfg.getResponse h.requestId, cfg.getResponse h.requestId, .RESULT_OK, false⟩
                d.server)).map .message) ∧
          s'.mNotifications = d.server.mNotifications ∧
          s'.mUnblockedSessions =
            d.server.mUnblockedSessions.filter (fun u => u.1 != handle) ∧
          s'.mResponseStateMap (cfg.getResponse h.requestId) = false
  | .other e =>
      ∀ s', CServer.step cfg d.server e = .ok s' →
        s'.mUnblockedSessions = d.server.mUnblockedSessions

/-! ## The condition -/

/-- A request with a response that is accepted: its client has a connection of its
version, the response is not busy, and its handler is called. -/
def accepts (cfg : Config) (h : DataRequest) (s : CServer) : Bool :=
  h.requestType == .REQUEST && s.isConnected h.clientID &&
    protoMinorOf (s.findConnection h.clientID) == h.protoMinor &&
    cfg.getResponse h.requestId != INVALID_ID &&
    !s.isResponseDangling (cfg.getResponse h.requestId) &&
    h.sequenceNr != INVALID_SEQUENCE_NR &&
    cfg.requestMethods[h.requestId.toNat]?.all (fun m => s.delivers m h)

/-- No request waits for the response of a handle: none was left dangling. -/
def isFree (cfg : Config) (d : Desk) (handle : Int32) : Bool :=
  d.ledger.all (fun l => l.1 != handle || d.server.mNotifications.all (fun n =>
    !(n.notifyID == cfg.getResponse l.2.requestId && n.isOneShot)))

/-- The condition on an act: the clients of the entries for responses are reached, and no
client goes that has the local ID of a client of a handle.  The rest is what is asked of
the acts: accepted requests, no request left dangling, and fewer than 2^32 IDs. -/
def stepServes (cfg : Config) (d : Desk) (act : Act) : Bool :=
  (match act with
    | .accept h =>
        d.server.stepReaches cfg true isResponseId (.dataRequest h [.unblockRequest]) &&
          accepts cfg h d.server
    | .respond handle => d.isFree cfg handle
    | .other e => d.server.stepReaches cfg true isResponseId e && d.server.isQuiet e) &&
    match d.step cfg act with
    | .ok d' => d'.server.nextID ≤ 2 ^ 32
    | .error _ => true

end Desk

/-! ## Accepting -/

/-- An accepted request is unblocked under a new ID. -/
theorem step_unblocks {cfg : Config} {h : DataRequest} {s : CServer}
    (hfit : cfg.statesFit = true) (ha : Desk.accepts cfg h s = true)
    (hi : s.mSessionId = INVALID_SESSION_ID) :
    ∃ s' i, step cfg s (.dataRequest h [.unblockRequest]) = .ok s' ∧
      Unblocks h (cfg.getResponse h.requestId) i s s' ∧ s'.mSessionId = INVALID_SESSION_ID ∧
        s'.mResponseId = INVALID_ID := by
  simp only [Desk.accepts, Bool.and_eq_true, beq_iff_eq, bne_iff_ne, ne_eq,
    Bool.not_eq_true'] at ha
  obtain ⟨⟨⟨⟨⟨⟨htype, hc⟩, hv⟩, hr⟩, hfree⟩, hseq⟩, hm⟩ := ha
  have hfind : s.findClientConnection h.clientID = (s.findConnection h.clientID, s) :=
    findClientConnectionBy_of_connected hc steady
  obtain ⟨m, hmethod⟩ : ∃ m, cfg.requestMethods[h.requestId.toNat]? = some m := by
    cases hnone : cfg.requestMethods[h.requestId.toNat]? with
    | some m => exact ⟨m, rfl⟩
    | none => exact absurd (by rw [Config.getResponse, hnone]; rfl) hr
  rw [hmethod, Option.all_some] at hm
  obtain ⟨hunblocked, hnextID, hsessions, hsessionId⟩ :=
    acceptRequest_frame h (cfg.getResponse h.requestId) s
  have hdelivers : (s.acceptRequest h (cfg.getResponse h.requestId)).delivers m h = true :=
    (delivers_congr hsessions hsessionId).trans hm
  obtain ⟨u, i, hu, hunblocks, hleft⟩ := processMethod_unblocks (m := m)
    (Accepted.acceptRequest h hr s) hr hfit hseq (hsessionId.trans hi) hdelivers
  refine ⟨u.finishRequest, i, ?_, ⟨hnextID ▸ hunblocks.number, hunblocks.nextID,
    hunblocked ▸ hunblocks.unblocked, hunblocks.state⟩, hleft, rfl⟩
  simp only [step, handleDataRequest, hfind, hv, ne_eq, not_true_eq_false, if_false,
    dispatchRequest, htype, handleRequest, hfit, hfree, Bool.true_eq_false, Bool.false_eq_true,
    and_false, processRequest, hmethod, hu, bind, Except.bind]

/-! ## Answering -/

section Respond

variable {cfg : Config} {s : CServer} {handle : Int32} {n : Notification}

/-- An unblocked request is taken back under its handle. -/
theorem prepareResponse_of_unblocked (hfit : cfg.statesFit = true) (hr : s.mResponseId = INVALID_ID)
    (hnodup : (s.mUnblockedSessions.map (·.1)).Nodup) (hu : (handle, n) ∈ s.mUnblockedSessions) :
    s.prepareResponse cfg handle = .ok ({ s with
      mUnblockedSessions := s.mUnblockedSessions.filter (fun u => u.1 != handle)
      mResponseId := n.notifyID
      mClientID := n.clientID
      mNotifications := s.mNotifications ++ [n] }.setResponseState n.notifyID true) := by
  have hfind : s.mUnblockedSessions.find? (fun u => u.1 == handle) = some (handle, n) := by
    cases hv : s.mUnblockedSessions.find? (fun u => u.1 == handle) with
    | none => exact absurd (beq_self_eq_true handle) (List.find?_eq_none.mp hv _ hu)
    | some v =>
        have hkey : v.1 = handle := by simpa using List.find?_some hv
        exact congrArg some
          (List.inj_on_of_nodup_map hnodup (List.mem_of_find?_eq_some hv) hu hkey)
  rw [prepareResponse, if_neg (by rw [hr]; exact fun hbad => hbad.1 rfl), hfind]
  exact if_pos hfit

/-- The response method answers the request that was taken back first; nothing else is
taken away if no other request waits. -/
theorem responseMethod_of_prepared (hfit : cfg.statesFit = true) (hid : n.notifyID = s.mResponseId)
    (hshot : n.isOneShot = true) (front : List Notification)
    (hn : s.mNotifications = front ++ [n])
    (hlive : ∀ m ∈ s.mNotifications, m.notifyID = n.notifyID → s.isLive m.clientID = true)
    (hfree : ∀ m ∈ front, m.notifyID = n.notifyID → m.isOneShot = false) :
    ∃ s' conn, s.responseMethod cfg n.notifyID = .ok s' ∧
      s.findConnection n.clientID = some conn ∧
      s'.log = s.log ++
        (.message { clientID := n.clientID, serverID := conn.serverID
                    protoMinor := conn.protoMinor, responseType := .RESULT_OK
                    requestID := n.notifyID, sequenceNumber := n.sequenceNr } ::
          (front.reverse.filterMap (ResponseLoop.due
            ⟨n.notifyID, n.notifyID, .RESULT_OK, false⟩ s)).map .message) ∧
      s'.mNotifications = front ∧ s'.mUnblockedSessions = s.mUnblockedSessions ∧
      s'.mResponseStateMap n.notifyID = false ∧ s'.mResponseId = INVALID_ID ∧
      s'.mSessionId = s.mSessionId ∧ s'.nextID = s.nextID := by
  have hsession : n.sessionId = INVALID_SESSION_ID := by
    rw [Notification.isOneShot, Bool.and_eq_true, beq_iff_eq] at hshot
    exact hshot.2
  have hmem : n ∈ s.mNotifications := by
    rw [hn]
    exact List.mem_append_right _ (List.mem_singleton_self n)
  obtain ⟨conn, hconn⟩ := Option.isSome_iff_exists.mp (hlive n hmem rfl)
  let l : ResponseLoop := ⟨n.notifyID, n.notifyID, .RESULT_OK, false⟩
  let t := s.setResponseState n.notifyID false
  have hselects : ∀ m, l.selects t m = true → m.notifyID = n.notifyID := fun m hm =>
    beq_iff_eq.mp (Bool.and_eq_true_iff.mp hm).1
  have hquiet : t.mNotifications.any (l.breaksOff cfg t) = false :=
    List.any_eq_false.mpr (fun m _ => by
      rw [ResponseLoop.breaksOff, Bool.and_false, Bool.false_and]
      exact Bool.false_ne_true)
  have hrun : s.responseMethod cfg n.notifyID = .ok (l.answerAll t) := by
    have hloop := l.run_of_connected cfg (s := t) (fun m hm hsel =>
      isConnected_of_isLive (hlive m hm (hselects m hsel)))
    rw [hquiet, if_neg Bool.false_ne_true] at hloop
    exact (if_pos hfit).trans hloop
  let reply : Message :=
    { clientID := n.clientID, serverID := conn.serverID, protoMinor := conn.protoMinor
      responseType := .RESULT_OK, requestID := n.notifyID, sequenceNumber := n.sequenceNr }
  have hself : l.answer t n = some reply := by
    have hsel : l.selects t n = true := by simp [ResponseLoop.selects, l, hsession]
    rw [ResponseLoop.answer, if_pos hsel]
    exact congrArg (Option.map _) hconn
  have hothers : ∀ m ∈ front, l.answer t m = ResponseLoop.due l s m := by
    intro m hm
    have hmemFront : m ∈ s.mNotifications := by
      rw [hn]
      exact List.mem_append_left _ hm
    exact l.answer_eq_due (s := t) (fun hsel => hlive m hmemFront (hselects m hsel))
  refine ⟨l.answerAll t, conn, hrun, eq_of_live hconn, ?_, ?_, rfl, if_pos rfl, ?_, rfl, rfl⟩
  · have hanswers : l.answers t = reply :: front.reverse.filterMap (ResponseLoop.due l s) := by
      have hrev : t.mNotifications.reverse = n :: front.reverse := by
        rw [show t.mNotifications = front ++ [n] from hn, List.reverse_append,
          List.reverse_singleton, List.singleton_append]
      rw [ResponseLoop.answers, hrev, List.filterMap_cons_some hself,
        List.filterMap_congr (fun m hm => hothers m (List.mem_reverse.mp hm))]
    rw [ResponseLoop.answerAll, hanswers]
    rfl
  · have hkept : front.filter (l.stays t) = front := by
      refine List.filter_eq_self.mpr (fun m hm => ?_)
      rw [ResponseLoop.stays]
      cases hone : m.isOneShot with
      | false => rw [Bool.and_false, Bool.not_false]
      | true =>
          have hnot : l.selects t m = false := by
            by_contra hsel
            rw [Bool.not_eq_false] at hsel
            exact absurd (hfree m hm (hselects m hsel)) (by simp [hone])
          rw [ResponseLoop.answer, hnot]
          rfl
    have hgone : [n].filter (l.stays t) = [] := by
      refine List.filter_eq_nil_iff.mpr (fun m hm => ?_)
      rw [List.mem_singleton.mp hm, ResponseLoop.stays, hself, hshot]
      exact Bool.false_ne_true
    have hnotifications : (l.answerAll t).mNotifications = (front ++ [n]).filter (l.stays t) := by
      rw [← hn]
      rfl
    rw [hnotifications, List.filter_append, hkept, hgone, List.append_nil]
  · exact if_pos hid.symm

end Respond

/-! ## The run -/

namespace Desk

/-- What holds at a desk between two acts. -/
structure Good (cfg : Config) (d : Desk) : Prop where
  reached : AllReached true isResponseId d.server
  kept : Kept cfg d
  issued : ∀ l ∈ d.ledger, ∃ i, i < d.server.nextID ∧ l.1 = idOf i
  oneShot : ∀ l ∈ d.ledger, isResponseId (entry cfg l).2.notifyID = true ∧
    (entry cfg l).2.isOneShot = true
  responseId : d.server.mResponseId = INVALID_ID
  sessionId : d.server.mSessionId = INVALID_SESSION_ID

variable {cfg : Config} {d d' : Desk}

theorem Good.keys (hg : Good cfg d) :
    d.server.mUnblockedSessions.map (·.1) = d.ledger.map (·.1) := by
  rw [hg.kept.1, List.map_map]
  rfl

theorem Good.mem_unblocked (hg : Good cfg d) {l : Int32 × DataRequest} (hl : l ∈ d.ledger) :
    entry cfg l ∈ d.server.mUnblockedSessions := by
  rw [hg.kept.1]
  exact List.mem_map_of_mem hl

/-- A new ID is the handle of no unblocked request. -/
theorem Good.ne_idOf (hg : Good cfg d) {i : Nat} (hle : d.server.nextID ≤ i) (hi : i < 2 ^ 32)
    {u : Int32 × Notification} (hu : u ∈ d.server.mUnblockedSessions) : u.1 ≠ idOf i := by
  rw [hg.kept.1] at hu
  obtain ⟨l, hl, rfl⟩ := List.mem_map.mp hu
  obtain ⟨j, hj, hkey⟩ := hg.issued l hl
  rw [entry, hkey]
  exact idOf_ne (Nat.lt_of_lt_of_le hj hle) hi

/-- An accepted request comes into the ledger under a new handle. -/
theorem Good.accept (hfit : cfg.statesFit = true) (hg : Good cfg d) {h : DataRequest}
    (hc : d.stepServes cfg (.accept h) = true) :
    Serves cfg d (.accept h) ∧ ∀ d', d.step cfg (.accept h) = .ok d' → Good cfg d' := by
  rw [stepServes, Bool.and_eq_true, Bool.and_eq_true] at hc
  obtain ⟨⟨hreaches, haccepts⟩, hcount⟩ := hc
  obtain ⟨s', i, hs, hunblocks, hsession, hresponse⟩ := step_unblocks hfit haccepts hg.sessionId
  have hsmall : i < 2 ^ 32 := by
    simp only [step, hs, bind, Except.bind, decide_eq_true_eq, hunblocks.nextID] at hcount
    exact hcount
  have hnew : ∀ u ∈ d.server.mUnblockedSessions, u.1 ≠ idOf i :=
    fun u hu => hg.ne_idOf hunblocks.number hsmall hu
  have hunblocked : s'.mUnblockedSessions = d.server.mUnblockedSessions ++
      [(idOf i, h.notification (cfg.getResponse h.requestId))] := by
    rw [hunblocks.unblocked,
      List.filter_eq_self.mpr (fun u hu => by simp [hnew u hu])]
  refine ⟨⟨s', idOf i, hs, hnew, hunblocked, hunblocks.state⟩, fun d' hd' => ?_⟩
  have hledger : (s'.mUnblockedSessions.filter (fun u =>
      !d.server.mUnblockedSessions.contains u)).map (fun u => (u.1, h)) = [(idOf i, h)] := by
    have hold : d.server.mUnblockedSessions.filter (fun u =>
        !d.server.mUnblockedSessions.contains u) = [] :=
      List.filter_eq_nil_iff.mpr (fun u hu => by simp [hu])
    have habsent : (idOf i, h.notification (cfg.getResponse h.requestId)) ∉
        d.server.mUnblockedSessions := fun hmem => hnew _ hmem rfl
    rw [hunblocked, List.filter_append, hold, List.filter_cons_of_pos (by simp [habsent])]
    rfl
  simp only [step, hs, bind, Except.bind, hledger] at hd'
  have hd := Except.ok.inj hd'
  subst hd
  simp only [accepts, Bool.and_eq_true, bne_iff_ne, ne_eq] at haccepts
  have hrid := haccepts.1.1.1.2
  refine ⟨allReached_step hg.reached hreaches hs, ⟨?_, ?_⟩, fun l hl => ?_, fun l hl => ?_,
    hresponse, hsession⟩
  · rw [hunblocked, hg.kept.1, List.map_append]
    rfl
  · rw [List.map_append, List.nodup_append]
    refine ⟨hg.kept.2, List.nodup_singleton _, ?_⟩
    intro a ha b hb hab
    rw [List.map_singleton, List.mem_singleton] at hb
    rw [← hg.keys] at ha
    obtain ⟨u, hu, rfl⟩ := List.mem_map.mp ha
    exact hnew u hu (hab.trans hb)
  · rcases List.mem_append.mp hl with hl | hl
    · obtain ⟨j, hj, hkey⟩ := hg.issued l hl
      refine ⟨j, ?_, hkey⟩
      rw [hunblocks.nextID]
      exact Nat.lt_succ_of_lt (Nat.lt_of_lt_of_le hj hunblocks.number)
    · refine ⟨i, ?_, by rw [List.mem_singleton.mp hl]⟩
      rw [hunblocks.nextID]
      exact Nat.lt_succ_self i
  · rcases List.mem_append.mp hl with hl | hl
    · exact hg.oneShot l hl
    · rw [List.mem_singleton.mp hl]
      refine ⟨(cfg.getResponse_id h.requestId).resolve_left hrid, ?_⟩
      simp [entry, DataRequest.notification, Notification.isOneShot, haccepts.1.2]

/-- A handle of the ledger is answered. -/
theorem Good.respond (hfit : cfg.statesFit = true) (hg : Good cfg d) {handle : Int32}
    {h : DataRequest}
    (hfree : d.isFree cfg handle = true) (hl : (handle, h) ∈ d.ledger) :
    ∃ s' conn, calls cfg d.server
        [.prepareResponse handle, .response (cfg.getResponse h.requestId)] = .ok s' ∧
      d.server.findConnection h.clientID = some conn ∧
      s'.log = d.server.log ++
        (.message { clientID := h.clientID, serverID := conn.serverID
                    protoMinor := conn.protoMinor, responseType := .RESULT_OK
                    requestID := cfg.getResponse h.requestId
                    sequenceNumber := h.sequenceNr } ::
          (d.server.mNotifications.reverse.filterMap (ResponseLoop.due
            ⟨cfg.getResponse h.requestId, cfg.getResponse h.requestId, .RESULT_OK, false⟩
            d.server)).map .message) ∧
      s'.mNotifications = d.server.mNotifications ∧
      s'.mUnblockedSessions = d.server.mUnblockedSessions.filter (fun u => u.1 != handle) ∧
      s'.mResponseStateMap (cfg.getResponse h.requestId) = false ∧
      s'.mResponseId = INVALID_ID ∧ s'.mSessionId = d.server.mSessionId ∧
      s'.nextID = d.server.nextID := by
  have hmem := hg.mem_unblocked hl
  obtain ⟨hid, hshot⟩ := hg.oneShot _ hl
  have hprepare := prepareResponse_of_unblocked hfit hg.responseId
    (by rw [hg.keys]; exact hg.kept.2) hmem
  have hwaits := List.all_eq_true.mp hfree _ hl
  rw [bne_self_eq_false, Bool.false_or, List.all_eq_true] at hwaits
  have hmoves := moves_prepareResponse hprepare
  have hreached := hg.reached.of_moves hmoves
  obtain ⟨s', conn, hs', hconn, hlog, hn, hun, hstate, hresponse, hsession, hnext⟩ :=
    responseMethod_of_prepared hfit (n := h.notification (cfg.getResponse h.requestId))
      (s := { d.server with
        mUnblockedSessions := d.server.mUnblockedSessions.filter (fun u => u.1 != handle)
        mResponseId := cfg.getResponse h.requestId
        mClientID := h.clientID
        mNotifications := d.server.mNotifications ++
          [h.notification (cfg.getResponse h.requestId)] }.setResponseState
            (cfg.getResponse h.requestId) true)
      rfl hshot d.server.mNotifications rfl
      (fun m hm hmid => by
        have hm' := hreached m (mem_held.mpr (Or.inl hm)) (hmid ▸ hid)
        exact hm')
      (fun m hm hmid => by
        have hnot := hwaits m hm
        rw [Bool.not_eq_true', Bool.and_eq_false_iff] at hnot
        exact hnot.resolve_left (by rw [beq_eq_false_iff_ne]; exact fun hne => hne hmid))
  refine ⟨s', conn, ?_, hconn, hlog, hn, hun, hstate, hresponse, hsession, hnext⟩
  simp only [calls, Partial.run, call, bind, Except.bind]
  rw [hprepare]
  exact (congrArg (fun x => x >>= fun s => Except.ok s) hs').trans rfl

/-- An act that meets the condition keeps its promise and the desk. -/
theorem Good.step (hfit : cfg.statesFit = true) (hg : Good cfg d) {act : Act}
    (hc : d.stepServes cfg act = true) :
    Serves cfg d act ∧ ∀ d', d.step cfg act = .ok d' → Good cfg d' := by
  cases act with
  | accept h => exact hg.accept hfit hc
  | respond handle =>
      rw [stepServes, Bool.and_eq_true] at hc
      refine ⟨fun h hl => ?_, fun d' hd => ?_⟩
      · obtain ⟨s', conn, hs', hconn, hlog, hn, hun, hstate, -⟩ := hg.respond hfit hc.1 hl
        exact ⟨s', conn, hs', hconn, hlog, hn, hun, hstate⟩
      · obtain ⟨s', hs', hd⟩ := Partial.bind_eq_ok hd
        have hmoves := moves_calls hs'
        have hd := (Except.ok.inj hd).symm
        subst hd
        rw [answer] at hs'
        cases hfind : d.ledger.find? (fun l => l.1 == handle) with
        | none =>
            -- an unknown handle is that of no unblocked request
            rw [hfind] at hs'
            have hnone : ∀ l ∈ d.ledger, (l.1 != handle) = true := fun l hl => by
              simpa using List.find?_eq_none.mp hfind l hl
            rw [List.filter_eq_self.mpr hnone]
            have hun : d.server.mUnblockedSessions.find? (fun u => u.1 == handle) = none := by
              refine List.find?_eq_none.mpr (fun u hu => ?_)
              rw [hg.kept.1] at hu
              obtain ⟨l, hl, rfl⟩ := List.mem_map.mp hu
              simpa [entry] using hnone l hl
            have hsame : s' = d.server := by
              simp only [Option.map_none, Option.toList_none, calls, Partial.run, call,
                prepareResponse, hun, if_neg (not_and_of_not_left _ (not_not.mpr hg.responseId)),
                bind, Except.bind] at hs'
              exact (Except.ok.inj hs').symm
            rw [hsame]
            exact hg
        | some l =>
            rw [hfind] at hs'
            have hkey : l.1 = handle := by simpa using List.find?_some hfind
            have hl : (handle, l.2) ∈ d.ledger := by
              have hmem := List.mem_of_find?_eq_some hfind
              rwa [← hkey]
            obtain ⟨t, conn, ht, -, -, -, hun, -, hresponse, hsession, hnext⟩ :=
              hg.respond hfit hc.1 hl
            have hsame : t = s' := Except.ok.inj (ht.symm.trans hs')
            subst hsame
            refine ⟨hg.reached.of_moves hmoves, ⟨?_, ?_⟩, fun l' hl' => ?_, fun l' hl' =>
              hg.oneShot l' (List.mem_filter.mp hl').1, hresponse, hsession.trans hg.sessionId⟩
            · rw [hun, hg.kept.1, List.filter_map]
              rfl
            · exact hg.kept.2.sublist (List.filter_sublist.map _)
            · rw [hnext]
              exact hg.issued l' (List.mem_filter.mp hl').1
  | other e =>
      rw [stepServes, Bool.and_eq_true, Bool.and_eq_true] at hc
      refine ⟨fun s' hs' => (spares_step hc.1.2 hg.responseId hg.sessionId hs').unblocked,
        fun d' hd => ?_⟩
      obtain ⟨s', hs', hd⟩ := Partial.bind_eq_ok hd
      have hspares := spares_step hc.1.2 hg.responseId hg.sessionId hs'
      have hd := (Except.ok.inj hd).symm
      subst hd
      refine ⟨allReached_step hg.reached hc.1.1 hs', ⟨hspares.unblocked.trans hg.kept.1,
        hg.kept.2⟩, fun l hl => ?_, hg.oneShot, hspares.responseId, hspares.sessionId⟩
      obtain ⟨i, hi, hkey⟩ := hg.issued l hl
      exact ⟨i, Nat.lt_of_lt_of_le hi hspares.nextID, hkey⟩

end Desk

end CServer

end Dsi
