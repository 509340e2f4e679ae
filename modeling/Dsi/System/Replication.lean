import Dsi.System.Settled

/-!
# Dsi.System.Replication

The copies of the clients follow the attributes of the server in every run: whatever is in
flight, a client takes all of it, and then the attributes that it is subscribed to
are those of the server.

What the run must meet is a condition on each step (`System.Event.Fair`): the
application sets what can be sent, the server reaches the clients that it holds entries
of, and an ID is used by one client.
-/

namespace Dsi

open CServer
open InFlight

variable {svc : Service} {raw : Nat → UInt8} {junk : (n : Nat) → BitVec n}
  {b b' : Stub svc.kind}

/-! ## Requests -/

/-- The calls of the handler of a request are fair. -/
def Stub.RequestFair (raw : Nat → UInt8) (b : Stub svc.kind) (h : DataRequest)
    (user : List (Stub.Call svc.kind)) : Prop :=
  match b.server.startDataRequest svc.config h with
  | .error _ => True
  | .ok r =>
      match b.lift raw (fun _ => .ok r.1), r.2 with
      | .ok b, some _ => b.CallsFair raw user
      | _, _ => True

/-- The calls in the loop of `removeAllSessions` are fair. -/
def Stub.LoopFair (raw : Nat → UInt8) (clientID : SPartyID) :
    List SessionData → List (List (Stub.Call svc.kind)) → Stub svc.kind → Prop
  | [], _, _ => True
  | sd :: sessions, user, b =>
      if SPartyID.opEq sd.clientID clientID then
        match sd.callback svc.config with
        | none =>
            LoopFair raw clientID sessions user
              { b with server := { b.server with mCurrentSequenceNr := INVALID_SEQUENCE_NR } }
        | some o =>
            let b := { b with
              server := { b.server.emit o with mCurrentSequenceNr := sd.sequenceNr } }
            b.CallsFair raw (user.headD []) ∧
              match b.calls svc.config raw (user.headD []) with
              | .error _ => True
              | .ok b =>
                  LoopFair raw clientID sessions user.tail
                    { b with
                      server := { b.server with mCurrentSequenceNr := INVALID_SEQUENCE_NR } }
      else LoopFair raw clientID sessions user b

/-- The calls of the unregister methods of a client that goes are fair. -/
def Stub.DropFair (raw : Nat → UInt8) (b : Stub svc.kind) (clientID : SPartyID)
    (user : List (List (Stub.Call svc.kind))) : Prop :=
  let s := b.server.removeNotification clientID INVALID_ID
  Stub.LoopFair raw clientID s.mSessions user { b with server := { s with mClientID := clientID } }

/-- A step of the stub that lets the clients follow. -/
def Stub.Event.Fair (raw : Nat → UInt8) (b : Stub svc.kind) (e : Stub.Event svc.kind) : Prop :=
  (∀ e', e.Projects e' →
    b.server.stepReaches svc.config (!svc.config.NDEBUG) (fun _ => true) e' = true) ∧
    match e with
    | .dataRequest h us => b.RequestFair raw h us
    | .user us => b.CallsFair raw us
    | .disconnect clientID us =>
        match b.server.findConnection clientID with
        | none => True
        | some conn =>
            Stub.DropFair raw { b with server :=
              if conn.notificationID ≠ 0 then b.server.emit (.clearNotification conn.notificationID)
              else b.server } conn.clientID us
    | .detached id us =>
        match b.server.mClientConnections.find? (fun conn => conn.id == id) with
        | none => True
        | some conn => b.DropFair raw conn.clientID us
    | _ => True

/-- A request, its handler and what is behind it. -/
theorem keeps_handleDataRequest {h : DataRequest} {user : List (Stub.Call svc.kind)}
    (hb : b.Ready) {us : List UserCall} (hpre : b.server.stepReaches svc.config
      (!svc.config.NDEBUG) (fun _ => true) (.dataRequest h us) = true)
    (hfair : b.RequestFair raw h user)
    (hs : b.handleDataRequest svc.config raw h user = .ok b') : Keeps junk b b' := by
  obtain ⟨r, hr, hs⟩ := Partial.bind_eq_ok hs
  obtain ⟨b₁, hb₁, hs⟩ := Partial.bind_eq_ok hs
  have hstart : Keeps junk b b₁ := by
    refine keeps_write_subscribes (h := h) hb hb₁ (fun s hs => ?_) fun s hs => ?_
    · exact Except.ok.inj hs ▸ subscribes_startDataRequest svc.sound hb.tidy hb.reached hpre hr
    · exact Except.ok.inj hs ▸ allReached_startDataRequest hb.reached hpre hr
  cases hkind : r.2 with
  | none =>
      simp only [hkind] at hs
      exact Except.ok.inj hs ▸ hstart
  | some m =>
      simp only [hkind] at hs
      obtain ⟨b₂, hcalls, hs⟩ := Partial.bind_eq_ok hs
      obtain rfl := Except.ok.inj hs
      have hcallsFair : b₁.CallsFair raw user := by
        simpa only [Stub.RequestFair, hr, hb₁, hkind] using hfair
      have hserves := serves_calls junk hstart.ready hcallsFair hcalls
      have hready := hserves.keeps.ready
      exact (hstart.trans hserves.keeps).trans (keeps_of_silent hready
        (announces_leaveHandler svc.sound hready.tidy m)
        (hready.reached.of_moves (moves_leaveHandler m b₂.server)))

/-! ## Clients that go -/

/-- A step that leaves the entries, the connections and the attributes as they are. -/
theorem serves_of_quiet (hb : b.Ready) {s : CServer} (hr : s.mResponseId = b.server.mResponseId)
    (hu : s.mUnblockedSessions = b.server.mUnblockedSessions)
    (hc : s.mClientConnections = b.server.mClientConnections)
    (ha : s.attributeState = b.server.attributeState)
    (hn : s.mNotifications = b.server.mNotifications)
    (hl : ∃ os, s.log = b.server.log ++ os ∧ ∀ o ∈ os, o.message? = none) :
    Serves junk b { b with server := s } := by
  refine ⟨keeps_of_silent hb (.of_quiet hb.tidy (hr ▸ hb.tidy.responseId)
    (hu ▸ hb.tidy.unblocked) hc ha (fun n hmem _ => hn ▸ hmem) hl)
    (hb.reached.of_moves (.of_eq hc hu hn)), fun n hmem _ => hn ▸ hmem⟩

theorem serves_removeAllLoop {clientID : SPartyID} {sessions : List SessionData}
    {user : List (List (Stub.Call svc.kind))} {r : List SessionData × Stub svc.kind}
    (hb : b.Ready) (hfair : Stub.LoopFair raw clientID sessions user b)
    (h : Stub.removeAllLoop svc.config raw clientID sessions user b = .ok r) :
    Serves junk b r.2 := by
  induction sessions generalizing user b r with
  | nil => exact Except.ok.inj h ▸ .refl hb
  | cons sd sessions ih =>
      rw [Stub.removeAllLoop] at h
      rw [Stub.LoopFair] at hfair
      by_cases hc : SPartyID.opEq sd.clientID clientID = true
      · simp only [if_pos hc] at h hfair
        have hskip : ∀ {b : Stub svc.kind}, b.Ready → Serves junk b
            { b with server := { b.server with mCurrentSequenceNr := INVALID_SEQUENCE_NR } } :=
          fun hb => serves_of_quiet hb rfl rfl rfl rfl rfl
            ⟨[], (List.append_nil _).symm, by simp⟩
        cases hcall : sd.callback svc.config with
        | none =>
            simp only [hcall] at h hfair
            exact (hskip hb).trans (ih (hskip hb).keeps.ready hfair h)
        | some o =>
            simp only [hcall] at h hfair
            obtain ⟨b₁, hcalls, h⟩ := Partial.bind_eq_ok h
            obtain ⟨hfirst, hrest⟩ := hfair
            simp only [hcalls] at hrest
            have ho : o.message? = none := by
              rw [SessionData.callback] at hcall
              split at hcall
              · exact Option.some.inj hcall ▸ rfl
              · exact absurd hcall (by simp)
            have henter : Serves junk b { b with server := { b.server.emit o with
                mCurrentSequenceNr := sd.sequenceNr } } :=
              serves_of_quiet hb rfl rfl rfl rfl rfl
                ⟨[o], rfl, fun _ hmem => List.mem_singleton.mp hmem ▸ ho⟩
            have hserves := henter.trans (serves_calls junk henter.keeps.ready hfirst hcalls)
            have hleave := hserves.trans (hskip hserves.keeps.ready)
            exact hleave.trans (ih hleave.keeps.ready hrest h)
      · simp only [if_neg hc] at h hfair
        obtain ⟨r₁, hr₁, h⟩ := Partial.bind_eq_ok h
        have hserves := ih hb hfair hr₁
        rw [← Except.ok.inj h]
        exact hserves

/-- A client that is gone. -/
theorem keeps_dropClient {clientID : SPartyID} {user : List (List (Stub.Call svc.kind))}
    (hb : b.Ready) (hfair : b.DropFair raw clientID user)
    (hreached : AllReached (!svc.config.NDEBUG) (fun _ => true) b'.server)
    (h : b.dropClient svc.config raw clientID user = .ok b') : Keeps junk b b' := by
  obtain ⟨b₂, hb₂, h⟩ := Partial.bind_eq_ok h
  obtain ⟨r, hr, hb₂⟩ := Partial.bind_eq_ok hb₂
  obtain rfl := Except.ok.inj hb₂
  obtain rfl := Except.ok.inj h
  have hremove : Keeps junk b
      { b with server := b.server.removeNotification clientID INVALID_ID } :=
    keeps_of_silent hb (announces_removeNotification svc.sound hb.tidy clientID INVALID_ID)
      (hb.reached.of_moves (.of_shrinks
        (shrinks_removeNotificationBy _ clientID INVALID_ID b.server)))
  have henter : Serves junk { b with server := b.server.removeNotification clientID INVALID_ID }
      { b with server := { b.server.removeNotification clientID INVALID_ID with
        mClientID := clientID } } :=
    serves_of_quiet hremove.ready rfl rfl rfl rfl rfl ⟨[], (List.append_nil _).symm, by simp⟩
  have hloop := henter.trans (serves_removeAllLoop henter.keeps.ready hfair hr)
  have hleave : Serves junk r.2 { r.2 with server := { r.2.server with
      mSessions := r.1, mClientID := ⟨0, 0⟩ } } :=
    serves_of_quiet hloop.keeps.ready rfl rfl rfl rfl rfl
      ⟨[], (List.append_nil _).symm, by simp⟩
  have hall := hloop.trans hleave
  -- the entries of the client are gone, and the callbacks have added none
  have hnone : ∀ n ∈ r.2.server.mNotifications, n.notifyID ∈ svc.config.attributes →
      n.clientID ≠ clientID := by
    intro n hn hid heq
    have hmem := hall.entries n hn hid
    rw [removeNotification_eq] at hmem
    have hkept := (List.mem_filter.mp hmem).2
    rw [isRemoved, heq] at hkept
    simp [SPartyID.opEq] at hkept
  exact (hremove.trans hall.keeps).trans (keeps_of_silent hall.keeps.ready
    (announces_eraseConnection hall.keeps.ready.tidy hnone) hreached)

/-! ## Steps of the stub -/

/-- A step of the stub that meets the condition. -/
theorem keeps_step (junk : (n : Nat) → BitVec n) {e : Stub.Event svc.kind} (hb : b.Ready)
    (hfair : e.Fair raw b) (h : Stub.step svc.config raw b e = .ok b') : Keeps junk b b' := by
  obtain ⟨hpre, hfair⟩ := hfair
  obtain ⟨e', hprojects, hserver⟩ := Stub.step_projects h
  have hreached := allReached_step hb.reached (hpre e' hprojects) hserver
  cases e with
  | connect q =>
      obtain rfl := Except.ok.inj h
      exact keeps_of_silent hb (announces_connect hb.tidy hb.reached q) hreached
  | disconnect clientID user =>
      rw [Stub.step, Stub.handleDisconnectRequest] at h
      cases hconn : b.server.findConnection clientID with
      | none =>
          simp only [hconn] at h
          exact Except.ok.inj h ▸ .refl hb
      | some conn =>
          simp only [hconn] at h hfair
          have hclear : Serves junk b { b with server :=
              if conn.notificationID ≠ 0 then b.server.emit (.clearNotification conn.notificationID)
              else b.server } := by
            split
            · exact serves_of_quiet hb rfl rfl rfl rfl rfl
                ⟨[_], rfl, fun _ hmem => List.mem_singleton.mp hmem ▸ rfl⟩
            · exact .refl hb
          exact hclear.keeps.trans (keeps_dropClient hclear.keeps.ready hfair hreached h)
  | detached id user =>
      rw [Stub.step, Stub.handleClientDetached] at h
      cases hconn : b.server.mClientConnections.find? (fun conn => conn.id == id) with
      | none =>
          simp only [hconn] at h
          exact Except.ok.inj h ▸ .refl hb
      | some conn =>
          simp only [hconn] at h hfair
          exact keeps_dropClient hb hfair hreached h
  | dataRequest q user =>
      obtain ⟨us, hus⟩ := Stub.exists_givesAll user
      exact keeps_handleDataRequest hb (hpre _ (.dataRequest q hus)) hfair h
  | user user => exact (serves_calls junk hb hfair h).keeps
  | channelClosed channel =>
      obtain rfl := Except.ok.inj h
      exact keeps_of_silent hb (announces_closeChannel hb.tidy channel) hreached
  | unregisterInterface =>
      obtain rfl := Except.ok.inj h
      exact keeps_of_silent hb (announces_unregisterInterface svc.sound hb.tidy) hreached
  | createId =>
      obtain rfl := Except.ok.inj h
      exact (serves_of_quiet (s := b.server.createId.2) hb rfl rfl rfl rfl rfl
        ⟨[], (List.append_nil _).symm, by simp⟩).keeps

theorem Stub.ready_init : ({} : Stub svc.kind).Ready where
  tidy := ⟨svc.sound.not_response (Or.inl rfl), by simp, by simp⟩
  reached := allReached_init _ _
  sends := fun _ _ h => absurd h (by simp)

/-! ## The system -/

namespace System

/-- The ID is new: nothing is under way from or to it, and the server has no entry under it. -/
def Fresh (sys : System svc) (c : SPartyID) : Prop :=
  sys.uplink c = [] ∧ sys.downlink c = [] ∧ ∀ n ∈ sys.stub.server.mNotifications, n.clientID ≠ c

/-- The condition on a step: an ID is used once, and what the server does is fair. -/
def Event.Fair (raw : Nat → UInt8) (sys : System svc) : Event svc → Prop
  | .attach c _ values => (sys.party c).phase = .detached →
      sys.Fresh c ∧ ∀ id, (svc.kind id).ty.Ordered (values id)
  | .call _ _ | .detach _ | .deliver _ => True
  | .receive c user =>
      match sys.uplink c with
      | [] => True
      | .connect q :: _ => Stub.Event.Fair raw sys.stub (.connect q)
      | .data h :: _ => Stub.Event.Fair raw sys.stub (.dataRequest h (user.headD []))
      | .disconnect :: _ => Stub.Event.Fair raw sys.stub (.disconnect c user)
  | .app user => Stub.Event.Fair raw sys.stub (.user user)
  | .detached id user => Stub.Event.Fair raw sys.stub (.detached id user)
  | .channelClosed channel => Stub.Event.Fair raw sys.stub (.channelClosed channel)
  | .unregisterInterface => Stub.Event.Fair raw sys.stub .unregisterInterface
  | .createId => Stub.Event.Fair raw sys.stub .createId

/-- What holds in front of every step: the stub is ready and has nothing left to send, a connect
request is the first thing that a client sends, and the clients are settled behind what is
in flight to them. -/
structure Consistent (junk : (n : Nat) → BitVec n) (sys : System svc) : Prop where
  ready : sys.stub.Ready
  flushed : sys.stub.sent = []
  first : ∀ c q, .connect q ∉ (sys.uplink c).tail
  drains : ∀ c, Drains (Party.receive svc junk)
    (Party.Settled sys.stub (sys.stub.server.tells c) (sys.uplink c)) (sys.party c)
    (sys.downlink c)

variable {sys sys' : System svc}

theorem consistent_init : (init svc).Consistent junk where
  ready := Stub.ready_init
  flushed := rfl
  first := fun c q => List.not_mem_nil
  drains := fun c => drains_nil.mpr fun h => absurd h (by simp [init, Party.isAttached])

/-- The server does something that is fair, while the uplinks only lose messages. -/
theorem consistent_server {e : Stub.Event svc.kind} (h : sys.Consistent junk)
    (hfair : e.Fair raw sys.stub) (hs : sys.server svc.config raw e = .ok sys') :
    sys'.Consistent junk := by
  obtain ⟨b', hb', hs⟩ := Partial.bind_eq_ok hs
  obtain rfl := Except.ok.inj hs
  have hkeeps := keeps_step junk h.ready hfair hb'
  refine ⟨⟨hkeeps.ready.tidy, hkeeps.ready.reached, hkeeps.ready.sends⟩, rfl, h.first, fun c => ?_⟩
  have hreflects : Reflects junk sys.stub c (sys.uplink c) (sys.party c) (sys.downlink c) := by
    rw [Reflects, Stub.sentTo, h.flushed, List.filter_nil, List.map_nil, List.append_nil]
    exact h.drains c
  exact (hkeeps.reflects hreflects).mono fun p hp =>
    hp.mono (fun _ _ hS => ⟨hS, rfl, rfl⟩) fun _ h => h

/-- A party that is not attached takes everything. -/
theorem drains_of_not_attached {S : UInt32 → Prop} {uplink : List Uplink} {p : Party svc.kind}
    (h : ¬ p.isAttached = true) (queue : List Downlink) :
    Drains (Party.receive svc junk) (Party.Settled b S uplink) p queue := by
  induction queue with
  | nil => exact drains_nil.mpr fun hattached => absurd hattached h
  | cons m queue ih => exact drains_cons.mpr ⟨p, receive_of_not_attached h m, ih⟩

/-- One client does something: the others are where they were. -/
theorem consistent_update (h : sys.Consistent junk) (c : SPartyID) (nextID : SPartyID → Nat)
    {p : Party svc.kind} {uplink : List Uplink} {downlink : List Downlink}
    (hfirst : ∀ q, .connect q ∉ uplink.tail)
    (hdrains : Drains (Party.receive svc junk)
      (Party.Settled sys.stub (sys.stub.server.tells c) uplink) p downlink) :
    Consistent junk { stub := sys.stub, party := Function.update sys.party c p, nextID := nextID
                      uplink := Function.update sys.uplink c uplink
                      downlink := Function.update sys.downlink c downlink } := by
  refine ⟨h.ready, h.flushed, fun c' q => ?_, fun c' => ?_⟩
  · by_cases hc : c' = c
    · subst hc
      simpa only [Function.update_self] using hfirst q
    · simpa only [Function.update_of_ne hc] using h.first c' q
  · by_cases hc : c' = c
    · subst hc
      simpa only [Function.update_self] using hdrains
    · simpa only [Function.update_of_ne hc] using h.drains c'

/-- Behind what a client sends besides its connect request that one is still first. -/
theorem first_append {c : SPartyID} (h : sys.Consistent junk) {ms : List Uplink}
    (hms : ∀ q, .connect q ∉ ms) (q : ConnectRequest) :
    .connect q ∉ (sys.uplink c ++ ms).tail := by
  intro hq
  cases hu : sys.uplink c with
  | nil =>
      rw [hu, List.nil_append] at hq
      exact hms q (List.mem_of_mem_tail hq)
  | cons m queue =>
      rw [hu, List.cons_append, List.tail_cons] at hq
      rcases List.mem_append.mp hq with hq | hq
      · exact h.first c q (by rw [hu]; exact hq)
      · exact hms q hq

/-- The server does not depend on what the clients send. -/
theorem server_uplink {e : Stub.Event svc.kind} {uplink : SPartyID → List Uplink}
    (hs : ({ sys with uplink := uplink } : System svc).server svc.config raw e = .ok sys') :
    ∃ t, sys.server svc.config raw e = .ok t ∧ sys' = { t with uplink := uplink } ∧
      t.uplink = sys.uplink := by
  obtain ⟨b', hb', hs⟩ := Partial.bind_eq_ok hs
  obtain rfl := Except.ok.inj hs
  have hstep : Stub.step svc.config raw sys.stub e = .ok b' := hb'
  refine ⟨({ sys with stub := b' } : System svc).flush, ?_, rfl, rfl⟩
  rw [server, hstep]
  rfl

/-- A message of a client is taken. -/
theorem consistent_pop (h : sys.Consistent junk) {c : SPartyID} {m : Uplink} {queue : List Uplink}
    (hqueue : sys.uplink c = m :: queue) :
    Consistent junk { sys with uplink := Function.update sys.uplink c queue } := by
  have hsub : ∀ m' ∈ queue, m' ∈ sys.uplink c := by
    intro m' hm'
    rw [hqueue]
    exact List.mem_cons_of_mem m hm'
  have hfirst : ∀ q, Uplink.connect q ∉ queue.tail := by
    intro q hq
    have htail := h.first c q
    rw [hqueue, List.tail_cons] at htail
    exact htail (List.mem_of_mem_tail hq)
  have hnew := consistent_update h c sys.nextID hfirst
    ((h.drains c).mono fun p hp => hp.mono (fun _ _ hS => ⟨hS, rfl, rfl⟩) fun q hq =>
      hsub _ hq)
  rwa [Function.update_eq_self c sys.downlink, Function.update_eq_self c sys.party] at hnew

/-- The answer of a connect request, which is the only one. -/
theorem carries_connectResponse {S : UInt32 → Prop} {q : ConnectRequest} {queue : List Uplink}
    (hqueue : ∀ q, .connect q ∉ queue) (protoMinor : UInt16) :
    Carries (Party.receive svc junk) (Party.Settled b S (.connect q :: queue))
      (Party.Settled b S queue) (.connectResponse protoMinor) := by
  intro p hp
  by_cases hattached : p.isAttached = true
  · have hcopies := hp hattached
    have hnot : p.phase ≠ .connected := fun hphase => hcopies.once hphase q List.mem_cons_self
    have hphase : p.phase = .connecting := by
      simp only [Party.isAttached, Bool.or_eq_true, beq_iff_eq] at hattached
      exact hattached.resolve_right hnot
    -- no version is older than the first one
    have hversion : ¬ protoMinor < DSI_PROTOCOL_VERSION_MINOR :=
      fun hlt => absurd (UInt16.lt_iff_toNat_lt.mp hlt) (Nat.not_lt_zero _)
    have hreceive : p.receive svc junk (.connectResponse protoMinor) = some
        { proxy := { p.proxy.notify .componentConnected with
            mProtoMinor := if protoMinor < DSI_PROTOCOL_VERSION_MINOR then protoMinor
              else DSI_PROTOCOL_VERSION_MINOR }
          phase := .connected } := by
      rw [Party.receive]
      simp only [hphase]
    have hmin : (if protoMinor < DSI_PROTOCOL_VERSION_MINOR then protoMinor
        else DSI_PROTOCOL_VERSION_MINOR) = DSI_PROTOCOL_VERSION_MINOR := if_neg hversion
    refine ⟨_, hreceive, fun _ => ⟨hcopies.ordered, hmin, fun id hid hS => ?_, fun _ => hqueue⟩⟩
    exact ⟨(hcopies.agrees id hid hS).state, (hcopies.agrees id hid hS).value⟩
  · exact ⟨p, receive_of_not_attached hattached _, fun h => absurd h hattached⟩

theorem consistent_receive {c : SPartyID} {user : List (List (Stub.Call svc.kind))}
    (h : sys.Consistent junk) (hfair : Event.Fair raw sys (.receive c user))
    (hs : step svc raw junk sys (.receive c user) = .ok sys') : sys'.Consistent junk := by
  rw [step] at hs
  rw [Event.Fair] at hfair
  cases hqueue : sys.uplink c with
  | nil =>
      simp only [hqueue] at hs
      exact Except.ok.inj hs ▸ h
  | cons m queue =>
      have hpop := consistent_pop h hqueue
      cases m with
      | data q =>
          simp only [hqueue] at hs hfair
          exact consistent_server hpop hfair hs
      | disconnect =>
          simp only [hqueue] at hs hfair
          exact consistent_server hpop hfair hs
      | connect q =>
          simp only [hqueue] at hs hfair
          obtain ⟨t, ht, hs⟩ := Partial.bind_eq_ok hs
          obtain ⟨t, hserver, rfl, huplink⟩ := server_uplink ht
          have ht := consistent_server h hfair hserver
          have hfirst : ∀ q, Uplink.connect q ∉ queue := by
            intro q hq
            have htail := h.first c q
            rw [hqueue, List.tail_cons] at htail
            exact htail hq
          split at hs
          · rw [← Except.ok.inj hs, ← huplink]
            exact consistent_pop ht (huplink ▸ hqueue)
          · have hdrains := ht.drains c
            rw [huplink, hqueue] at hdrains
            have hnew := consistent_update ht c t.nextID
              (fun q hq => hfirst q (List.mem_of_mem_tail hq))
              (hdrains.append (carries_connectResponse hfirst
                (if q.protoMinor < DSI_PROTOCOL_VERSION_MINOR then q.protoMinor
                  else DSI_PROTOCOL_VERSION_MINOR)))
            rw [Function.update_eq_self c t.party, huplink] at hnew
            exact Except.ok.inj hs ▸ hnew

theorem consistent_step {e : Event svc} (h : sys.Consistent junk) (hfair : e.Fair raw sys)
    (hs : step svc raw junk sys e = .ok sys') : sys'.Consistent junk := by
  cases e with
  | app user => exact consistent_server h hfair hs
  | detached id user => exact consistent_server h hfair hs
  | channelClosed channel => exact consistent_server h hfair hs
  | unregisterInterface => exact consistent_server h hfair hs
  | createId => exact consistent_server h hfair hs
  | attach c q values =>
      rw [step] at hs
      split at hs
      · next hphase =>
        obtain ⟨⟨huplink, hdownlink, hentries⟩, hordered⟩ := hfair hphase
        obtain rfl := Except.ok.inj hs
        have hfirst : ∀ q', Uplink.connect q' ∉
            (sys.uplink c ++ [Uplink.connect { q with clientID := c }]).tail := by
          rw [huplink]
          simp
        have hnothing : Drains (Party.receive svc junk)
            (Party.Settled sys.stub (sys.stub.server.tells c)
              (sys.uplink c ++ [.connect { q with clientID := c }]))
            { proxy := { mClientID := c, copy := fun id => ⟨values id, .DATA_NOT_AVAILABLE⟩ }
              phase := .connecting } (sys.downlink c) := by
          rw [hdownlink]
          refine drains_nil.mpr fun _ => ⟨hordered, rfl, fun id hid htells => ?_,
            fun hphase => absurd hphase (by simp)⟩
          -- the server has no entry under the ID
          have hna : sys.stub.server.attributeState id = .DATA_NOT_AVAILABLE := by
            refine htells.resolve_right ?_
            rintro ⟨⟨n, hn, hc, -⟩, -⟩
            exact hentries n hn hc
          exact ⟨by rw [hna]; rfl, fun hok => absurd hok (by rw [hna]; simp)⟩
        have hnew := consistent_update h c sys.nextID hfirst hnothing
        rwa [Function.update_eq_self c sys.downlink] at hnew
      · exact Except.ok.inj hs ▸ h
  | call c call =>
      rw [step] at hs
      split at hs
      · obtain rfl := Except.ok.inj hs
        have hms : ∀ q, Uplink.connect q ∉
            ((sys.party c).proxy.call (sys.nextID c) call).1.map Uplink.data := by simp
        have hnew := consistent_update h c
          (Function.update sys.nextID c ((sys.party c).proxy.call (sys.nextID c) call).2)
          (first_append (c := c) h hms)
          ((h.drains c).mono fun p hp => hp.mono (fun _ _ hS => ⟨hS, rfl, rfl⟩) fun q hq =>
            (List.mem_append.mp hq).resolve_right (hms q))
        rwa [Function.update_eq_self c sys.downlink, Function.update_eq_self c sys.party] at hnew
      · exact Except.ok.inj hs ▸ h
  | detach c =>
      rw [step] at hs
      split at hs
      · obtain rfl := Except.ok.inj hs
        have hms : ∀ q, Uplink.connect q ∉ [Uplink.disconnect] := by simp
        have hgone : ¬ ({ proxy := (sys.party c).proxy.doComponentDisconnected, phase := .gone } :
            Party svc.kind).isAttached = true := by simp [Party.isAttached]
        have hnew := consistent_update h c sys.nextID (first_append (c := c) h hms)
          (drains_of_not_attached hgone (sys.downlink c))
        rwa [Function.update_eq_self c sys.downlink] at hnew
      · exact Except.ok.inj hs ▸ h
  | deliver c =>
      have hdrains := h.drains c
      rw [step] at hs
      cases hqueue : sys.downlink c with
      | nil =>
          simp only [hqueue] at hs
          exact Except.ok.inj hs ▸ h
      | cons m queue =>
          rw [hqueue] at hdrains
          obtain ⟨p, hp, hrest⟩ := hdrains.arrive
          simp only [hqueue, hp] at hs
          obtain rfl := Except.ok.inj hs
          have hnew := consistent_update h c sys.nextID (h.first c) hrest
          rwa [Function.update_eq_self c sys.uplink] at hnew
  | receive c user => exact consistent_receive h hfair hs

/-! ## Runs -/

theorem consistent_run {es : List (Event svc)} (h : sys.Consistent junk)
    (hfair : Partial.Along (step svc raw junk) (Event.Fair raw) sys es)
    (hrun : run svc raw junk sys es = .ok sys') : sys'.Consistent junk :=
  Partial.invariant (fun _ _ _ hs he hstep => consistent_step hs he hstep) h hfair hrun

/-- In every run that meets the condition a client takes all that is in flight to it, and then
its copies of the attributes that it is subscribed to are the attributes of the server. -/
theorem replicates {es : List (Event svc)}
    (hfair : Partial.Along (step svc raw junk) (Event.Fair raw) (init svc) es)
    (hrun : run svc raw junk (init svc) es = .ok sys) (c : SPartyID) :
    ∃ p, (sys.downlink c).foldlM (Party.receive svc junk) (sys.party c) = some p ∧
      ((sys.party c).isAttached = true → sys.stub.server.isLive c = true →
        ∀ id ∈ svc.config.attributes, sys.stub.server.isSubscribed c id →
          (p.proxy.copy id).mState = (sys.stub.server.attributeState id).toAttribute ∧
            (sys.stub.server.attributeState id = .DATA_OK →
              (p.proxy.copy id).mValue = sys.stub.mValue id)) := by
  have hconsistent := consistent_run consistent_init hfair hrun
  obtain ⟨p, hp, hsettled⟩ := hconsistent.drains c
  refine ⟨p, hp, fun hattached hlive id hid hsub => ?_⟩
  rw [← isAttached_foldlM hp] at hattached
  have hagrees := (hsettled hattached).agrees id hid (Or.inr ⟨hsub, hlive⟩)
  exact ⟨hagrees.state, hagrees.value⟩

/-- A service with one vector. -/
def vectorService : Service where
  config := { requestMethods := [], attributes := [0xC0000000] }
  kind := fun _ => .partialUpdates (.int true .w32)
  sound := ⟨List.forall_mem_singleton.mpr ⟨rfl, by decide⟩, Nat.zero_le _⟩

/-- A client connects and asks for the vector, which is set and gets an element then. -/
def vectorGrows : List (Event vectorService) :=
  [.attach ⟨5, 0⟩ { clientID := ⟨5, 0⟩, serverID := ⟨9, 0⟩, protoMinor := 0, channel := 1
                    notificationID := 7 } fun _ => [],
    .receive ⟨5, 0⟩ [], .deliver ⟨5, 0⟩, .call ⟨5, 0⟩ (.notifyOn 0xC0000000 true),
    .receive ⟨5, 0⟩ [],
    .app [.set 0xC0000000 [1#32, 2#32, 3#32] (.UPDATE_COMPLETE, 0, 0),
      .set 0xC0000000 [7#32] (.UPDATE_INSERT, 1, 0)]]

theorem fair_vectorGrows :
    Partial.Along (step vectorService (fun _ => 0xee) fun n => -1#n)
      (Event.Fair fun _ => 0xee) (init vectorService) vectorGrows := by
  have htravels : ∀ v : List (Ty.int true .w32).Val, v.length < 2 ^ 15 → Travels v :=
    fun v h => ⟨h, fun _ _ => ⟨trivial, trivial, trivial⟩⟩
  -- the connection
  refine .cons (fun _ => ⟨⟨rfl, rfl, by simp [init]⟩, fun _ x hx => ?_⟩) rfl ?_
  · exact absurd hx List.not_mem_nil
  refine .cons ⟨fun e' he => ?_, trivial⟩ rfl ?_
  · cases he
    rfl
  -- the subscription
  refine .cons trivial rfl (.cons trivial rfl (.cons ⟨fun e' he => ?_, trivial⟩ rfl ?_))
  · cases he
    rfl
  -- the two setters
  refine .cons ⟨fun e' he => ?_, ?_⟩ rfl trivial
  · cases he
    rfl
  refine .cons ⟨by decide, ⟨trivial, fun h => absurd h (by decide), fun _ =>
    htravels _ (by decide)⟩, fun r hr => ?_, Or.inl rfl⟩ rfl ?_
  · obtain rfl := Option.some.inj hr
    exact htravels _ (by decide)
  have hrange : UpdateType.UPDATE_INSERT.InRange [7#32] [1#32, 2#32, 3#32] 1 0 := by decide
  refine .cons ⟨by decide, ⟨hrange, fun h => absurd h (by decide), fun _ =>
    htravels _ (by decide)⟩, fun r hr => ?_, Or.inr ⟨rfl, by decide⟩⟩ rfl trivial
  obtain rfl := Option.some.inj hr
  exact htravels _ (by decide)

/-- Both updates are in flight, and behind them the client has the vector. -/
theorem replicates_vectorGrows :
    ∃ sys, run vectorService (fun _ => 0xee) (fun n => -1#n) (init vectorService) vectorGrows =
        .ok sys ∧ ∃ p, (sys.downlink ⟨5, 0⟩).foldlM
          (Party.receive vectorService fun n => -1#n) (sys.party ⟨5, 0⟩) = some p ∧
        (p.proxy.copy 0xC0000000).mState = .DATA_OK ∧
        (p.proxy.copy 0xC0000000).mValue = ([1#32, 7#32, 2#32, 3#32] : List (BitVec 32)) := by
  obtain ⟨p, hp, hcopies⟩ := replicates fair_vectorGrows rfl ⟨5, 0⟩
  obtain ⟨hstate, hvalue⟩ := hcopies rfl rfl 0xC0000000 (by decide) (by decide)
  exact ⟨_, rfl, p, hp, hstate, hvalue rfl⟩

end System

end Dsi
