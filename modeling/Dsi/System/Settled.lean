import Dsi.Lib.InFlight
import Dsi.System.State

/-!
# Dsi.System.Settled

What a client has of the attributes of the server behind everything that is in flight to
it: it takes all of it, and its copies of the attributes that it is told about are the
attributes of the server (`Reflects`).  What the operations of the stub do to this
depends on what they announce only.
-/

namespace Dsi

open CServer
open InFlight

/-! ## Copies that are settled -/

/-- The client is told about the attribute: it is subscribed to it, and its channel is there.
An attribute that has no value yet has none for anybody. -/
def CServer.tells (s : CServer) (c : SPartyID) (id : UInt32) : Prop :=
  s.attributeState id = .DATA_NOT_AVAILABLE ∨ s.isSubscribed c id ∧ s.isLive c = true

variable {svc : Service}

/-- The copy of an attribute is the attribute. -/
structure Agrees (b : Stub svc.kind) (id : UInt32) (p : Proxy svc.kind) : Prop where
  state : (p.copy id).mState = (b.server.attributeState id).toAttribute
  value : b.server.attributeState id = .DATA_OK → (p.copy id).mValue = b.mValue id

/-- A party whose copies of the attributes in `S` are those of the stub.  Where it is connected
its connect request is not among what it still sends. -/
structure Party.Copies (b : Stub svc.kind) (S : UInt32 → Prop) (uplink : List Uplink)
    (p : Party svc.kind) : Prop where
  ordered : ∀ id, (svc.kind id).ty.Ordered (p.proxy.copy id).mValue
  version : p.proxy.mProtoMinor = DSI_PROTOCOL_VERSION_MINOR
  agrees : ∀ id ∈ svc.config.attributes, S id → Agrees b id p.proxy
  once : p.phase = .connected → ∀ q, .connect q ∉ uplink

/-- The same of a party as long as it is attached. -/
def Party.Settled (b : Stub svc.kind) (S : UInt32 → Prop) (uplink : List Uplink)
    (p : Party svc.kind) : Prop :=
  p.isAttached = true → p.Copies b S uplink

/-- Of the three states one is left. -/
theorem CServer.DataStateType.eq_invalid {state : CServer.DataStateType}
    (hna : state ≠ .DATA_NOT_AVAILABLE) (hok : state ≠ .DATA_OK) : state = .DATA_INVALID := by
  cases state with
  | DATA_NOT_AVAILABLE => exact absurd rfl hna
  | DATA_INVALID => rfl
  | DATA_OK => exact absurd rfl hok

variable {b b' : Stub svc.kind} {S S' : UInt32 → Prop} {uplink uplink' : List Uplink}
  {p : Party svc.kind} {junk : (n : Nat) → BitVec n} {d : DataResponse} {id : UInt32}

/-- The state and the value are all that counts. -/
theorem Agrees.congr {p : Proxy svc.kind} (h : Agrees b id p)
    (hstate : b'.server.attributeState id = b.server.attributeState id)
    (hvalue : b'.mValue id = b.mValue id) : Agrees b' id p :=
  ⟨hstate ▸ h.state, fun hok => hvalue ▸ h.value (hstate ▸ hok)⟩

/-- Where less is promised, less has to be true. -/
theorem Party.Copies.mono (h : p.Copies b S uplink)
    (hS : ∀ id ∈ svc.config.attributes, S' id → S id ∧
      b'.server.attributeState id = b.server.attributeState id ∧ b'.mValue id = b.mValue id)
    (hup : ∀ q, .connect q ∈ uplink' → .connect q ∈ uplink) : p.Copies b' S' uplink' where
  ordered := h.ordered
  version := h.version
  agrees := fun id hid hS' => by
    obtain ⟨hmem, hstate, hvalue⟩ := hS id hid hS'
    exact (h.agrees id hid hmem).congr hstate hvalue
  once := fun hphase q hq => h.once hphase q (hup q hq)

/-- So it is for a client that may be attached or not. -/
theorem Party.Settled.mono (h : p.Settled b S uplink)
    (hS : ∀ id ∈ svc.config.attributes, S' id → S id ∧
      b'.server.attributeState id = b.server.attributeState id ∧ b'.mValue id = b.mValue id)
    (hup : ∀ q, .connect q ∈ uplink' → .connect q ∈ uplink) : p.Settled b' S' uplink' :=
  fun hattached => (h hattached).mono hS hup

/-! ## Messages that arrive -/

/-- A party that is not attached drops what arrives. -/
theorem receive_of_not_attached (h : ¬ p.isAttached = true) (m : Downlink) :
    p.receive svc junk m = some p := by
  unfold Party.isAttached at h
  cases m with
  | data d => rw [Party.receive, Party.isAttached, if_neg h]
  | connectResponse protoMinor =>
      rw [Party.receive]
      cases hphase : p.phase with
      | detached => rfl
      | gone => rfl
      | connecting => rw [hphase] at h; exact absurd rfl h
      | connected => rw [hphase] at h; exact absurd rfl h

/-- What arrives does not detach a party. -/
theorem isAttached_receive {p p' : Party svc.kind} {m : Downlink}
    (h : p.receive svc junk m = some p') : p'.isAttached = p.isAttached := by
  cases m with
  | data d =>
      rw [Party.receive] at h
      split at h
      · obtain ⟨proxy, -, rfl⟩ := Option.map_eq_some_iff.mp h
        rfl
      · exact Option.some.inj h ▸ rfl
  | connectResponse protoMinor =>
      rw [Party.receive] at h
      cases hphase : p.phase with
      | connecting =>
          simp only [hphase] at h
          rw [← Option.some.inj h, Party.isAttached, Party.isAttached, hphase]
          rfl
      | connected => simp only [hphase] at h; exact absurd h (by simp)
      | detached => simp only [hphase] at h; exact Option.some.inj h ▸ rfl
      | gone => simp only [hphase] at h; exact Option.some.inj h ▸ rfl

/-- Messages attach and detach nobody. -/
theorem isAttached_foldlM {p p' : Party svc.kind} {queue : List Downlink}
    (h : queue.foldlM (Party.receive svc junk) p = some p') : p'.isAttached = p.isAttached := by
  induction queue generalizing p with
  | nil => exact Option.some.inj h ▸ rfl
  | cons m queue ih =>
      rw [List.foldlM_cons, Option.bind_eq_bind, Option.bind_eq_some_iff] at h
      obtain ⟨p₁, hfirst, hrest⟩ := h
      exact (ih hrest).trans (isAttached_receive hfirst)

/-- What is to be shown of a data response: it is for a party that is attached. -/
theorem carries_data {P : UInt32 → Prop}
    (h : ∀ p : Party svc.kind, p.Copies b S uplink → ∃ p', p.proxy.handleDataResponse svc junk d =
      some p' ∧ ({ p with proxy := p' } : Party svc.kind).Copies b' P uplink) :
    Carries (Party.receive svc junk) (Party.Settled b S uplink) (Party.Settled b' P uplink)
      (.data d) := by
  intro p hp
  by_cases hattached : p.isAttached = true
  · obtain ⟨p', hp', hcopies⟩ := h p (hp hattached)
    exact ⟨{ p with proxy := p' }, by rw [Party.receive, if_pos hattached, hp', Option.map_some],
      fun _ => hcopies⟩
  · exact ⟨p, receive_of_not_attached hattached _, fun h => absurd h hattached⟩

/-- A response that is about no attribute. -/
theorem carries_other (hid : d.message.requestID ∉ svc.config.attributes) :
    Carries (Party.receive svc junk) (Party.Settled b S uplink) (Party.Settled b S uplink)
      (.data d) := by
  refine carries_data fun p hp => ?_
  obtain ⟨p', hp', hcopy, hversion⟩ :=
    Proxy.handleDataResponse_other junk (p := p.proxy) hid
  exact ⟨p', hp', fun id => hcopy ▸ hp.ordered id, hversion.trans hp.version,
    fun id hmem hS => ⟨hcopy ▸ (hp.agrees id hmem hS).state, fun hok =>
      hcopy ▸ (hp.agrees id hmem hS).value hok⟩, hp.once⟩

/-- A data response says what an attribute of the stub `b'` is: whoever has the attribute of the
stub `b`, if it is in `S`, has that of `b'` behind it. -/
structure Updates (junk : (n : Nat) → BitVec n) (b b' : Stub svc.kind) (S : UInt32 → Prop)
    (d : DataResponse) : Prop where
  mem : d.message.requestID ∈ svc.config.attributes
  version : d.message.protoMinor = DSI_PROTOCOL_VERSION_MINOR
  responseType : d.message.responseType =
    updateType (b'.server.attributeState d.message.requestID)
  available : b'.server.attributeState d.message.requestID ≠ .DATA_NOT_AVAILABLE
  others : ∀ id ≠ d.message.requestID,
    b'.server.attributeState id = b.server.attributeState id ∧ b'.mValue id = b.mValue id
  ordered : b'.server.attributeState d.message.requestID = .DATA_OK →
    (svc.kind d.message.requestID).ty.Ordered (b'.mValue d.message.requestID)
  delivers : b'.server.attributeState d.message.requestID = .DATA_OK →
    ∀ old, (svc.kind d.message.requestID).ty.Ordered old →
      (S d.message.requestID → b.server.attributeState d.message.requestID = .DATA_OK →
        old = b.mValue d.message.requestID) →
      (svc.kind d.message.requestID).Delivers junk d.payload old
        (b'.mValue d.message.requestID)

/-- An update that is received brings the copy to where the server is. -/
theorem carries_updates (uplink : List Uplink) (h : Updates junk b b' S d) :
    Carries (Party.receive svc junk) (Party.Settled b S uplink)
      (Party.Settled b' (fun id => S id ∨ id = d.message.requestID) uplink) (.data d) := by
  refine carries_data fun p hp => ?_
  have hversion : p.proxy.mProtoMinor = d.message.protoMinor := hp.version.trans h.version.symm
  -- the other copies are what they were
  have hothers : ∀ {p' : Proxy svc.kind} {attr},
      p'.copy = Function.update p.proxy.copy d.message.requestID attr →
      p'.mProtoMinor = p.proxy.mProtoMinor →
      (svc.kind d.message.requestID).ty.Ordered attr.mValue →
      attr.mState = (b'.server.attributeState d.message.requestID).toAttribute →
      (b'.server.attributeState d.message.requestID = .DATA_OK →
        attr.mValue = b'.mValue d.message.requestID) →
      ({ p with proxy := p' } : Party svc.kind).Copies b'
        (fun id => S id ∨ id = d.message.requestID) uplink := by
    intro p' attr hcopy hproto hordered hstate hvalue
    refine ⟨fun id => ?_, hproto.trans hp.version, fun id hid hS => ?_, hp.once⟩
    · by_cases heq : id = d.message.requestID
      · subst heq
        simpa only [hcopy, Function.update_self] using hordered
      · simpa only [hcopy, Function.update_of_ne heq] using hp.ordered id
    · by_cases heq : id = d.message.requestID
      · subst heq
        exact ⟨by simpa only [hcopy, Function.update_self] using hstate,
          by simpa only [hcopy, Function.update_self] using hvalue⟩
      · have hagrees := (hp.agrees id hid (hS.resolve_right heq)).congr (h.others id heq).1
          (h.others id heq).2
        exact ⟨by simpa only [hcopy, Function.update_of_ne heq] using hagrees.state,
          by simpa only [hcopy, Function.update_of_ne heq] using hagrees.value⟩
  by_cases hok : b'.server.attributeState d.message.requestID = .DATA_OK
  · have htype : d.message.responseType = .RESULT_DATA_OK := by
      rw [h.responseType, updateType, if_pos hok]
    have hold : S d.message.requestID → b.server.attributeState d.message.requestID = .DATA_OK →
        (p.proxy.copy d.message.requestID).mValue = b.mValue d.message.requestID :=
      fun hS hstate => (hp.agrees _ h.mem hS).value hstate
    obtain ⟨p', hp', hcopy, hproto⟩ := Proxy.handleDataResponse_valid junk h.mem hversion htype
      (h.delivers hok _ (hp.ordered _) hold)
    exact ⟨p', hp', hothers hcopy hproto (h.ordered hok) (by rw [hok]; rfl) fun _ => rfl⟩
  · have htype : d.message.responseType = .RESULT_DATA_INVALID := by
      rw [h.responseType, updateType, if_neg hok]
    obtain ⟨p', hp', hcopy, hproto⟩ := Proxy.handleDataResponse_invalid junk h.mem
      hversion htype
    have hinvalid := CServer.DataStateType.eq_invalid h.available hok
    exact ⟨p', hp', hothers hcopy hproto (hp.ordered _) (by rw [hinvalid]; rfl)
      fun h => absurd h hok⟩

/-! ## The stub -/

/-- What the stub has sent to a client. -/
def Stub.sentTo (b : Stub svc.kind) (c : SPartyID) : List Downlink :=
  (b.sent.filter (fun d => d.message.clientID == c)).map .data

/-- The stub reaches its clients, and the attributes that have a value can be sent. -/
structure Stub.Ready (b : Stub svc.kind) : Prop where
  tidy : Tidy svc.config b.server
  reached : AllReached (!svc.config.NDEBUG) (fun _ => true) b.server
  sends : ∀ id ∈ svc.config.attributes, b.server.attributeState id = .DATA_OK →
    (svc.kind id).Sends (b.mValue id)

/-- Behind what is in flight to a client and what the stub has sent to it, its copies are
settled. -/
def Reflects (junk : (n : Nat) → BitVec n) (b : Stub svc.kind) (c : SPartyID)
    (uplink : List Uplink) (p : Party svc.kind) (downlink : List Downlink) : Prop :=
  Drains (Party.receive svc junk) (Party.Settled b (b.server.tells c) uplink) p
    (downlink ++ b.sentTo c)

/-- What holds of the clients of the stub `b` holds of those of `b'`. -/
structure Keeps (junk : (n : Nat) → BitVec n) (b b' : Stub svc.kind) : Prop where
  ready : b'.Ready
  reflects : ∀ {c uplink p downlink}, Reflects junk b c uplink p downlink →
    Reflects junk b' c uplink p downlink

variable {raw : Nat → UInt8} {args : UpdateArgs} {params : List UInt8} {b₁ : Stub svc.kind}

theorem Keeps.refl (h : b.Ready) : Keeps junk b b := ⟨h, id⟩

/-- What is kept on both parts of the way. -/
theorem Keeps.trans (h : Keeps junk b b₁) (h' : Keeps junk b₁ b') : Keeps junk b b' :=
  ⟨h'.ready, fun hr => h'.reflects (h.reflects hr)⟩

/-- What is sent to a client in both parts. -/
theorem Stub.sentTo_append {ps : List DataResponse} (h : b'.sent = b.sent ++ ps) (c : SPartyID) :
    b'.sentTo c = b.sentTo c ++ (ps.filter (fun d => d.message.clientID == c)).map .data := by
  rw [Stub.sentTo, h, List.filter_append, List.map_append]
  rfl

/-- Messages are sent, and what they come to for one client is shown. -/
theorem Reflects.send {ps : List DataResponse} {c : SPartyID} {downlink : List Downlink}
    (h : Reflects junk b c uplink p downlink) (hsent : b'.sent = b.sent ++ ps)
    (hms : ∀ queue, Drains (Party.receive svc junk) (Party.Settled b (b.server.tells c) uplink) p
        queue →
      Drains (Party.receive svc junk) (Party.Settled b' (b'.server.tells c) uplink) p
        (queue ++ (ps.filter (fun d => d.message.clientID == c)).map .data)) :
    Reflects junk b' c uplink p downlink := by
  rw [Reflects, Stub.sentTo_append hsent, ← List.append_assoc]
  exact hms _ h

/-! ## What is true is kept -/

/-- A message that says what an attribute is. -/
theorem updates_of_truthful (hb : b.Ready) (hid : d.message.requestID ∈ svc.config.attributes)
    (ht : Truthful svc.config b.server d.message)
    (hpay : b.payload raw .complete params d.message = some d.payload) :
    Updates junk b b S d := by
  obtain ⟨hversion, htype, hna⟩ := ht hid
  refine ⟨hid, hversion, htype, hna, fun _ _ => ⟨rfl, rfl⟩, fun hok =>
    AttributeKind.ordered_of_sends (hb.sends _ hid hok), fun hok old hold _ => ?_⟩
  obtain ⟨payload, hwrite, hdelivers⟩ :=
    AttributeKind.read_write_complete raw junk (hb.sends _ hid hok)
  rw [updateType, if_pos hok] at htype
  rw [Stub.payload, htype] at hpay
  obtain rfl := Option.some.inj (hwrite.symm.trans hpay)
  exact hdelivers old hold

/-- A message that says what is true may be received at any time. -/
theorem carries_truthful (hb : b.Ready) (ht : Truthful svc.config b.server d.message)
    (hpay : b.payload raw .complete params d.message = some d.payload) :
    Carries (Party.receive svc junk) (Party.Settled b S uplink) (Party.Settled b S uplink)
      (.data d) := by
  by_cases hid : d.message.requestID ∈ svc.config.attributes
  · refine (carries_updates uplink (updates_of_truthful hb hid ht hpay)).mono (fun _ hp => hp) ?_
    exact fun p hp => hp.mono (fun id _ hS => ⟨Or.inl hS, rfl, rfl⟩) fun _ h => h
  · exact carries_other hid

/-- What the server tells a client about the attributes goes on. -/
theorem tells_of_entries {s s' : CServer} {c : SPartyID} {cfg : CServer.Config}
    (hid : id ∈ cfg.attributes) (hstates : s'.attributeState = s.attributeState)
    (hentries : ∀ n ∈ s'.mNotifications, n.notifyID ∈ cfg.attributes →
      n ∈ s.mNotifications ∧ (s'.isLive n.clientID = true → s.isLive n.clientID = true))
    (h : s'.tells c id) : s.tells c id := by
  rcases h with hna | ⟨⟨n, hn, hc, hn'⟩, hlive⟩
  · exact Or.inl (hstates ▸ hna)
  · obtain ⟨hmem, hl⟩ := hentries n hn (hn' ▸ hid)
    exact Or.inr ⟨⟨n, hmem, hc, hn'⟩, hc ▸ hl (hc.symm ▸ hlive)⟩

/-- A step of the server that announces what is true, with its messages written. -/
theorem keeps_of_announces (hb : b.Ready) (ha : Announces svc.config b.server b'.server)
    (hreached : AllReached (!svc.config.NDEBUG) (fun _ => true) b'.server)
    (hvalue : b'.mValue = b.mValue) {ps : List DataResponse} (hsent : b'.sent = b.sent ++ ps)
    (hps : ∀ d ∈ ps, Truthful svc.config b.server d.message ∧ ∃ raw params,
      b.payload raw .complete params d.message = some d.payload) : Keeps junk b b' := by
  refine ⟨⟨ha.tidy, hreached, fun id hid hok => ?_⟩, fun {c uplink p downlink} hr => ?_⟩
  · rw [hvalue]
    exact hb.sends id hid (ha.states ▸ hok)
  · refine hr.send hsent fun queue hqueue => ?_
    have hall : ∀ m ∈ (ps.filter (fun d => d.message.clientID == c)).map Downlink.data,
        Carries (Party.receive svc junk) (Party.Settled b (b.server.tells c) uplink)
          (Party.Settled b (b.server.tells c) uplink) m := by
      intro m hm
      obtain ⟨d, hd, rfl⟩ := List.mem_map.mp hm
      obtain ⟨ht, raw, params, hpay⟩ := hps d (List.mem_filter.mp hd).1
      exact carries_truthful hb ht hpay
    refine (hqueue.appendAll hall).mono fun p hp => hp.mono (fun id hid hS => ?_) fun _ h => h
    exact ⟨tells_of_entries hid ha.states ha.entries hS, congrFun ha.states id,
      congrFun hvalue id⟩

/-- A step of the server that sends nothing. -/
theorem keeps_of_silent (hb : b.Ready) {s : CServer} (ha : Announces svc.config b.server s)
    (hreached : AllReached (!svc.config.NDEBUG) (fun _ => true) s) :
    Keeps junk b { b with server := s } :=
  keeps_of_announces hb ha hreached rfl
    (List.append_nil b.sent).symm (by simp)

/-- What an operation that is written has sent. -/
theorem exists_sent_of_write {f : CServer → Except Fault CServer}
    (h : b.write raw args params f = .ok b') :
    ∃ ps, b'.sent = b.sent ++ ps ∧ b'.mValue = b.mValue ∧ ∀ os, b'.server.log = b.server.log ++ os →
      ps.map (·.message) = os.filterMap CServer.Output.message? ∧
        ∀ d ∈ ps, b.payload raw args params d.message = some d.payload := by
  obtain ⟨s, ps, -, hps, rfl⟩ := Stub.write_eq_ok h
  refine ⟨ps, rfl, rfl, fun os hos => ?_⟩
  dsimp only at hos
  rw [hos, List.drop_left] at hps
  exact Stub.dataResponses_spec hps

/-- A message that is sent is one of the outputs. -/
theorem mem_of_sent {ps : List DataResponse} {os : List CServer.Output}
    (h : ps.map (·.message) = os.filterMap CServer.Output.message?) (hd : d ∈ ps) :
    ∃ o ∈ os, o.message? = some d.message := by
  have hmem := List.mem_map_of_mem (f := (·.message)) hd
  rw [h] at hmem
  exact List.mem_filterMap.mp hmem

/-- An operation that announces what is true. -/
theorem keeps_write {f : CServer → Except Fault CServer} (hb : b.Ready)
    (h : b.write raw .complete params f = .ok b')
    (ha : ∀ s, f b.server = .ok s → Announces svc.config b.server s)
    (hreached : ∀ s, f b.server = .ok s → AllReached (!svc.config.NDEBUG) (fun _ => true) s) :
    Keeps junk b b' := by
  have hs := Stub.server_of_write h
  obtain ⟨ps, hsent, hvalue, hspec⟩ := exists_sent_of_write h
  have hannounces := ha _ hs
  obtain ⟨os, hos, htruth⟩ := hannounces.log
  obtain ⟨hmessages, hpay⟩ := hspec os hos
  refine keeps_of_announces hb hannounces (hreached _ hs) hvalue
    hsent fun d hd => ⟨?_, raw, params, hpay d hd⟩
  obtain ⟨o, ho, hm⟩ := mem_of_sent hmessages hd
  exact htruth o ho _ hm

/-! ## A new subscriber -/

/-- A message that says what an attribute is settles it. -/
theorem carries_subscription (hb : b.Ready) (hid : d.message.requestID ∈ svc.config.attributes)
    (ht : Truthful svc.config b.server d.message)
    (hpay : b.payload raw .complete params d.message = some d.payload) :
    Carries (Party.receive svc junk) (Party.Settled b S uplink)
      (Party.Settled b (fun id => S id ∨ id = d.message.requestID) uplink) (.data d) :=
  carries_updates uplink (updates_of_truthful hb hid ht hpay)

/-- A subscription: the client that is new is sent the attribute. -/
theorem keeps_write_subscribes {h : DataRequest} {f : CServer → Except Fault CServer}
    (hb : b.Ready) (hwrite : b.write raw .complete params f = .ok b')
    (hs : ∀ s, f b.server = .ok s → Subscribes svc.config h b.server s)
    (hreached : ∀ s, f b.server = .ok s → AllReached (!svc.config.NDEBUG) (fun _ => true) s) :
    Keeps junk b b' := by
  have hserver := Stub.server_of_write hwrite
  obtain ⟨ps, hsent, hvalue, hspec⟩ := exists_sent_of_write hwrite
  have hsub := hs _ hserver
  obtain ⟨os, hos, htruth, htold⟩ := hsub.log
  obtain ⟨hmessages, hpay⟩ := hspec os hos
  have htruthful : ∀ d ∈ ps, Truthful svc.config b.server d.message := by
    intro d hd
    obtain ⟨o, ho, hm⟩ := mem_of_sent hmessages hd
    exact htruth o ho _ hm
  refine ⟨⟨hsub.tidy, hreached _ hserver, fun id hid hok => ?_⟩,
    fun {c uplink p downlink} hr => hr.send hsent fun queue hqueue => ?_⟩
  · rw [hvalue]
    exact hb.sends id hid (hsub.states ▸ hok)
  · have hall : ∀ S : UInt32 → Prop,
        ∀ m ∈ (ps.filter (fun d => d.message.clientID == c)).map Downlink.data,
          Carries (Party.receive svc junk) (Party.Settled b S uplink)
            (Party.Settled b S uplink) m := by
      intro S m hm
      obtain ⟨d, hd, rfl⟩ := List.mem_map.mp hm
      have hd' := (List.mem_filter.mp hd).1
      exact carries_truthful hb (htruthful d hd') (hpay d hd')
    -- the attributes that the client is told about now, but for the new one
    have htells : ∀ id ∈ svc.config.attributes, b'.server.tells c id → b.server.tells c id ∨
        c = h.clientID ∧ id = h.requestId ∧ ¬ b.server.isSubscribed c id ∧
          b.server.attributeState id ≠ .DATA_NOT_AVAILABLE ∧ b'.server.isSubscribed c id ∧
          b'.server.isLive c = true := by
      intro id hid htells
      by_cases hna : b.server.attributeState id = .DATA_NOT_AVAILABLE
      · exact Or.inl (Or.inl hna)
      · obtain ⟨⟨n, hn, hc, hn'⟩, hlive⟩ :=
          htells.resolve_left (hsub.states ▸ hna)
        obtain ⟨hmem, hl⟩ := hsub.entries n hn (hn' ▸ hid)
        by_cases hold : b.server.isSubscribed c id
        · exact Or.inl (Or.inr ⟨hold, hc ▸ hl (hc.symm ▸ hlive)⟩)
        · rcases hmem with hmem | ⟨hclient, hrequest⟩
          · exact absurd ⟨n, hmem, hc, hn'⟩ hold
          · exact Or.inr ⟨hc ▸ hclient, hn' ▸ hrequest, hold, hna, ⟨n, hn, hc, hn'⟩, hlive⟩
    by_cases hnew : ∃ d ∈ ps, d.message.clientID = c ∧ d.message.requestID = h.requestId ∧
        h.requestId ∈ svc.config.attributes
    · obtain ⟨d, hd, hclient, hrequest, hid⟩ := hnew
      have hone : Carries (Party.receive svc junk) (Party.Settled b (b.server.tells c) uplink)
          (Party.Settled b (fun id => b.server.tells c id ∨ id = d.message.requestID) uplink)
          (.data d) :=
        carries_subscription hb (hrequest ▸ hid) (htruthful d hd) (hpay d hd)
      have hmem : Downlink.data d ∈
          (ps.filter (fun d => d.message.clientID == c)).map Downlink.data :=
        List.mem_map_of_mem (List.mem_filter.mpr ⟨hd, beq_iff_eq.mpr hclient⟩)
      refine (hqueue.appendOne (hall _) (hall _) ⟨_, hmem, hone⟩).mono fun p hp =>
        hp.mono (fun id hid hS => ⟨?_, congrFun hsub.states id, congrFun hvalue id⟩) fun _ h => h
      exact (htells id hid hS).imp_right fun hnow => hnow.2.1.trans hrequest.symm
    · refine (hqueue.appendAll (hall _)).mono fun p hp =>
        hp.mono (fun id hid hS => ⟨?_, congrFun hsub.states id, congrFun hvalue id⟩) fun _ h => h
      refine (htells id hid hS).resolve_right ?_
      rintro ⟨rfl, rfl, hnot, hna, hnow, hlive⟩
      obtain ⟨m, hm, hclient, hrequest⟩ := htold hid hna hnot hnow hlive
      have hmem : m ∈ ps.map (·.message) := by
        rw [hmessages]
        exact List.mem_filterMap.mpr ⟨_, hm, rfl⟩
      obtain ⟨d, hd, rfl⟩ := List.mem_map.mp hmem
      exact hnew ⟨d, hd, hclient, hrequest, hid⟩

/-! ## An attribute that is set -/

/-- The state of an attribute that is set. -/
theorem attributeState_setAttribute (b : Stub svc.kind) (attr : ServerAttribute (svc.kind id).ty)
    (id' : UInt32) : (b.setAttribute id attr).server.attributeState id' =
      if id' = id then .ofAttribute attr.mState else b.server.attributeState id' := rfl

/-- The value of one attribute is set. -/
theorem mValue_setAttribute (b : Stub svc.kind) (attr : ServerAttribute (svc.kind id).ty) :
    (b.setAttribute id attr).mValue = Function.update b.mValue id attr.mValue := rfl

/-- The states have the same names on both sides. -/
theorem CServer.DataStateType.ofAttribute_eq_ok {state : Dsi.DataStateType} :
    DataStateType.ofAttribute state = .DATA_OK ↔ state = .DATA_OK := by
  cases state <;> simp [DataStateType.ofAttribute]

/-- So has the one of an attribute that is not available. -/
theorem CServer.DataStateType.ofAttribute_eq_notAvailable {state : Dsi.DataStateType} :
    DataStateType.ofAttribute state = .DATA_NOT_AVAILABLE ↔ state = .DATA_NOT_AVAILABLE := by
  cases state <;> simp [DataStateType.ofAttribute]

/-- An attribute is set to something that can be sent: as a whole, or as a change to a value
that all its subscribers have, and that each of them is told once. -/
structure Sets (raw : Nat → UInt8) (junk : (n : Nat) → BitVec n) (b : Stub svc.kind)
    (id : UInt32) (attr : ServerAttribute (svc.kind id).ty) (args : UpdateArgs)
    (complete : Prop) : Prop where
  mem : id ∈ svc.config.attributes
  available : attr.mState ≠ .DATA_NOT_AVAILABLE
  sends : attr.mState = .DATA_OK → (svc.kind id).Sends attr.mValue
  writes : attr.mState = .DATA_OK →
    ∃ payload, (svc.kind id).write raw attr.mValue args = some payload ∧
      ∀ old, (svc.kind id).ty.Ordered old → old = b.mValue id ∨ complete →
        (svc.kind id).Delivers junk payload old attr.mValue
  fair : complete ∨ b.server.attributeState id = .DATA_OK ∧ b.server.subscribedOnce id

/-- An update of an attribute that was set. -/
theorem updates_setAttribute {attr : ServerAttribute (svc.kind id).ty} {complete : Prop}
    (hset : Sets raw junk b id attr args complete)
    (hserver : b'.server.attributeState = (b.setAttribute id attr).server.attributeState)
    (hvalue : b'.mValue = (b.setAttribute id attr).mValue)
    (hold : complete ∨ S id ∧ b.server.attributeState id = .DATA_OK)
    (hrequest : d.message.requestID = id)
    (hversion : d.message.protoMinor = DSI_PROTOCOL_VERSION_MINOR)
    (htype : d.message.responseType = updateType (b'.server.attributeState id))
    (hpay : (b.setAttribute id attr).payload raw args params d.message = some d.payload) :
    Updates junk b b' S d := by
  subst hrequest
  have hstate : b'.server.attributeState d.message.requestID = .DATA_OK ↔
      attr.mState = .DATA_OK := by
    rw [hserver, attributeState_setAttribute, if_pos rfl, DataStateType.ofAttribute_eq_ok]
  have hvalue' : b'.mValue d.message.requestID = attr.mValue := by
    rw [hvalue, mValue_setAttribute, Function.update_self]
  have hna : b'.server.attributeState d.message.requestID ≠ .DATA_NOT_AVAILABLE := by
    rw [hserver, attributeState_setAttribute, if_pos rfl, ne_eq,
      DataStateType.ofAttribute_eq_notAvailable]
    exact hset.available
  refine ⟨hset.mem, hversion, htype, hna, fun id' hne => ⟨?_, ?_⟩, fun hok => ?_,
    fun hok old hordered hS => ?_⟩
  · rw [hserver, attributeState_setAttribute, if_neg hne]
  · rw [hvalue, mValue_setAttribute, Function.update_of_ne hne]
  · rw [hvalue']
    exact AttributeKind.ordered_of_sends (hset.sends (hstate.mp hok))
  · obtain ⟨payload, hpayload, hdelivers⟩ := hset.writes (hstate.mp hok)
    have hvalid : d.message.responseType = .RESULT_DATA_OK := by
      rw [htype, updateType, if_pos hok]
    rw [Stub.payload, hvalid, mValue_setAttribute] at hpay
    simp only [Function.update_self] at hpay
    obtain rfl := Option.some.inj (hpayload.symm.trans hpay)
    rw [hvalue']
    refine hdelivers old hordered ?_
    rcases hold with hcomplete | ⟨hmem, hbok⟩
    · exact Or.inr hcomplete
    · exact Or.inl (hS hmem hbok)

/-- A setter whose value can be sent leaves the stub ready. -/
theorem Stub.Ready.setAttribute {attr : ServerAttribute (svc.kind id).ty} {complete : Prop}
    (hb : b.Ready) (hset : Sets raw junk b id attr args complete) :
    (b.setAttribute id attr).Ready where
  tidy := ⟨hb.tidy.responseId, hb.tidy.unblocked, hb.tidy.versions⟩
  reached := hb.reached.of_moves (.of_eq rfl rfl rfl)
  sends := fun id' hid' hok => by
    rw [attributeState_setAttribute] at hok
    rw [mValue_setAttribute]
    by_cases heq : id' = id
    · subst heq
      rw [if_pos rfl, DataStateType.ofAttribute_eq_ok] at hok
      rw [Function.update_self]
      exact hset.sends hok
    · rw [if_neg heq] at hok
      rw [Function.update_of_ne heq]
      exact hb.sends id' hid' hok

/-- What is sent when an attribute is set: each subscriber that is reached gets an update, and
one with one entry gets one. -/
structure Notifies (junk : (n : Nat) → BitVec n) (b b' : Stub svc.kind) (id : UInt32)
    (complete : Prop) (ps : List DataResponse) : Prop where
  sent : b'.sent = b.sent ++ ps
  notifications : b'.server.mNotifications = b.server.mNotifications
  isLive : ∀ c, b'.server.isLive c = b.server.isLive c
  told : ∀ c, (∃ d ∈ ps, d.message.clientID = c) ↔
    b.server.isSubscribed c id ∧ b.server.isLive c = true
  once : b.server.subscribedOnce id → (ps.map (·.message.clientID)).Nodup
  requestID : ∀ d ∈ ps, d.message.requestID = id
  updates : ∀ d ∈ ps, ∀ S : UInt32 → Prop,
    complete ∨ S id ∧ b.server.attributeState id = .DATA_OK → Updates junk b b' S d

/-- A setter that notifies sends its update to every subscriber. -/
theorem notifies_of_write (junk : (n : Nat) → BitVec n)
    {attr : ServerAttribute (svc.kind id).ty} {complete : Prop} (hb : b.Ready)
    (hset : Sets raw junk b id attr args complete)
    (h : (b.setAttribute id attr).write raw args params (sendNotification svc.config id) =
      .ok b') :
    b'.Ready ∧ b'.server.attributeState = (b.setAttribute id attr).server.attributeState ∧
      b'.mValue = (b.setAttribute id attr).mValue ∧ ∃ ps, Notifies junk b b' id complete ps := by
  have hb₁ := hb.setAttribute hset
  have hsend := Stub.server_of_write h
  obtain ⟨ps, hsent, hvalue, hspec⟩ := exists_sent_of_write h
  have hna : id ∈ svc.config.attributes →
      (b.setAttribute id attr).server.attributeState id ≠ .DATA_NOT_AVAILABLE := by
    intro _
    rw [attributeState_setAttribute, if_pos rfl, ne_eq, DataStateType.ofAttribute_eq_notAvailable]
    exact hset.available
  have hannounces := announces_sendNotification svc.sound hb₁.tidy hb₁.reached hna hsend
  have hc : ∀ n ∈ (b.setAttribute id attr).server.mNotifications, n.notifyID = id →
      (b.setAttribute id attr).server.isConnected n.clientID = true :=
    fun n hn _ => isConnected_of_reaches (hb₁.reached n (mem_held.mpr (Or.inl hn)) rfl)
  obtain ⟨ms, hemit, hms⟩ := sendNotification_of_connected hc hsend
  obtain rfl := hms _ (getAttributeState_of_mem hset.mem _)
  obtain ⟨hmessages, hpay⟩ := hspec _ (by rw [hemit]; rfl)
  rw [Stub.filterMap_message] at hmessages
  have hstates : b'.server.attributeState = (b.setAttribute id attr).server.attributeState := by
    rw [hemit]
    rfl
  have hmem : ∀ d ∈ ps, d.message ∈ (b.setAttribute id attr).server.updates id
      ((b.setAttribute id attr).server.attributeState id) := by
    intro d hd
    rw [← hmessages]
    exact List.mem_map_of_mem hd
  refine ⟨⟨hannounces.tidy, hb₁.reached.of_moves (.of_shrinks (shrinks_sendNotification hsend)),
    fun id' hid' hok => ?_⟩, hstates, hvalue, ps, hsent, by rw [hemit]; rfl,
    isLive_of_connections (by rw [hemit]; rfl), fun c => ?_, fun honce => ?_,
    fun d hd => (mem_updates (hmem d hd)).1, fun d hd S hold => ?_⟩
  · rw [hvalue]
    exact hb₁.sends id' hid' (hstates ▸ hok)
  · have htold : (∃ m ∈ (b.setAttribute id attr).server.updates id
        ((b.setAttribute id attr).server.attributeState id), m.clientID = c) ↔
          b.server.isSubscribed c id ∧ b.server.isLive c = true := exists_update_iff
    rw [← hmessages] at htold
    simpa only [List.mem_map, exists_exists_and_eq_and] using htold
  · have hsub := updates_sublist id ((b.setAttribute id attr).server.attributeState id)
      (b.setAttribute id attr).server
    rw [← hmessages, List.map_map] at hsub
    exact hsub.nodup honce
  · obtain ⟨hrequest, htype⟩ := mem_updates (hmem d hd)
    obtain ⟨os, hos, htruth⟩ := hannounces.log
    obtain ⟨o, ho, hm⟩ := mem_of_sent (hspec os hos).1 hd
    exact updates_setAttribute hset hstates hvalue hold hrequest
      (htruth o ho _ hm (hrequest ▸ hset.mem)).1 (hstates ▸ htype) (hpay d hd)

/-- What a setter that notifies leaves to a client: the attributes but the one that is set,
and of that one a subscription that is told. -/
structure Leaves (b b' : Stub svc.kind) (id : UInt32) (c : SPartyID) : Prop where
  states : ∀ id' ≠ id, b'.server.attributeState id' = b.server.attributeState id'
  values : ∀ id' ≠ id, b'.mValue id' = b.mValue id'
  tells : ∀ id' ≠ id, b'.server.tells c id' → b.server.tells c id'
  told : b'.server.tells c id → b.server.isSubscribed c id ∧ b.server.isLive c = true

/-- It leaves that to every client. -/
theorem Notifies.leaves {attr : ServerAttribute (svc.kind id).ty} {complete : Prop}
    {ps : List DataResponse} (hn : Notifies junk b b' id complete ps)
    (hset : Sets raw junk b id attr args complete)
    (hstates : b'.server.attributeState = (b.setAttribute id attr).server.attributeState)
    (hvalue : b'.mValue = (b.setAttribute id attr).mValue) (c : SPartyID) : Leaves b b' id c := by
  have hframe : ∀ id' ≠ id, b'.server.attributeState id' = b.server.attributeState id' := by
    intro id' hne
    rw [hstates, attributeState_setAttribute, if_neg hne]
  refine ⟨hframe, fun id' hne => ?_, fun id' hne htells => ?_, fun htells => ?_⟩
  · rw [hvalue, mValue_setAttribute, Function.update_of_ne hne]
  · rw [tells, hframe id' hne, isSubscribed, hn.notifications, hn.isLive] at htells
    exact htells
  · rw [tells, hstates, attributeState_setAttribute, if_pos rfl,
      DataStateType.ofAttribute_eq_notAvailable, isSubscribed, hn.notifications,
      hn.isLive] at htells
    exact htells.resolve_left hset.available

namespace Leaves

variable {c : SPartyID}

/-- A party that follows the set attribute and keeps the others is settled again. -/
theorem settled (hl : Leaves b b' id c) (hS : ∀ id' ≠ id, b.server.tells c id' → S id')
    (hp : p.Settled b' (fun id' => S id' ∨ id' = id) uplink) :
    p.Settled b' (b'.server.tells c) uplink := by
  refine hp.mono (fun id' _ htell => ⟨?_, rfl, rfl⟩) fun _ h => h
  by_cases heq : id' = id
  · exact Or.inr heq
  · exact Or.inl (hS id' heq (hl.tells id' heq htell))

/-- A client that is not told stays settled: it does not follow the attribute. -/
theorem drains_untold (hl : Leaves b b' id c) {queue : List Downlink}
    (hqueue : Drains (Party.receive svc junk) (Party.Settled b (b.server.tells c) uplink) p queue)
    (hnot : ¬ (b.server.isSubscribed c id ∧ b.server.isLive c = true)) :
    Drains (Party.receive svc junk) (Party.Settled b' (b'.server.tells c) uplink) p queue := by
  refine hqueue.mono fun p hp => hp.mono (fun id' _ hS => ?_) fun _ h => h
  have hne : id' ≠ id := by
    rintro rfl
    exact hnot (hl.told hS)
  exact ⟨hl.tells id' hne hS, hl.states id' hne, hl.values id' hne⟩

/-- Whatever the copy is, the first of its complete updates brings it to the new value. -/
theorem drains_complete {complete : Prop} {ps ds : List DataResponse}
    (hl : Leaves b b' id c) {queue : List Downlink}
    (hqueue : Drains (Party.receive svc junk) (Party.Settled b (b.server.tells c) uplink) p queue)
    (hn : Notifies junk b b' id complete ps) (hcomplete : complete) (hsub : ds ⊆ ps)
    (hne : ds ≠ []) :
    Drains (Party.receive svc junk) (Party.Settled b' (b'.server.tells c) uplink) p
      (queue ++ ds.map Downlink.data) := by
  have hdrains : Drains (Party.receive svc junk)
      (Party.Settled b (fun id' => b.server.tells c id' ∧ id' ≠ id) uplink) p queue :=
    hqueue.mono fun p hp => hp.mono (fun id' _ hS => ⟨hS.1, rfl, rfl⟩) fun _ h => h
  have hall : ∀ m ∈ ds.map Downlink.data, Carries (Party.receive svc junk)
      (Party.Settled b (fun id' => b.server.tells c id' ∧ id' ≠ id) uplink)
      (Party.Settled b' (fun id' => (b.server.tells c id' ∧ id' ≠ id) ∨ id' = id) uplink) m := by
    intro m hm
    obtain ⟨d, hd, rfl⟩ := List.mem_map.mp hm
    have hcarries := carries_updates uplink
      (hn.updates d (hsub hd) (fun id' => b.server.tells c id' ∧ id' ≠ id) (Or.inl hcomplete))
    rwa [hn.requestID d (hsub hd)] at hcarries
  have hsome := hdrains.appendSome (by simpa using hne) (fun p hp => ?_) hall
  · exact hsome.mono fun p hp => hl.settled (fun id' hne htell => ⟨htell, hne⟩) hp
  · exact hp.mono (fun id' _ hS => ⟨Or.inl hS, (hl.states id' hS.2).symm,
      (hl.values id' hS.2).symm⟩) fun _ h => h

/-- The only update takes the copy from the old value to the new one. -/
theorem drains_once {complete : Prop} {ps : List DataResponse}
    (hl : Leaves b b' id c) {queue : List Downlink}
    (hqueue : Drains (Party.receive svc junk) (Party.Settled b (b.server.tells c) uplink) p queue)
    (hn : Notifies junk b b' id complete ps)
    (hok : b.server.attributeState id = .DATA_OK) (hd : d ∈ ps)
    (hsub : b.server.isSubscribed c id ∧ b.server.isLive c = true) :
    Drains (Party.receive svc junk) (Party.Settled b' (b'.server.tells c) uplink) p
      (queue ++ [Downlink.data d]) := by
  have hcarries := carries_updates uplink
    (hn.updates d hd (b.server.tells c) (Or.inr ⟨Or.inr hsub, hok⟩))
  rw [hn.requestID d hd] at hcarries
  exact (hqueue.append hcarries).mono fun p hp => hl.settled (fun _ _ htell => htell) hp

end Leaves

/-- A client with one entry is told at most once. -/
theorem Notifies.eq_singleton {complete : Prop} {ps ds : List DataResponse} {c : SPartyID}
    (hn : Notifies junk b b' id complete ps) (honce : b.server.subscribedOnce id)
    (hds : ps.filter (fun d => d.message.clientID == c) = d :: ds) : ds = [] := by
  have hnodup : ((d :: ds).map (·.message.clientID)).Nodup := by
    rw [← hds]
    exact (List.filter_sublist.map _).nodup (hn.once honce)
  have hclient : ∀ d' ∈ d :: ds, d'.message.clientID = c := by
    intro d' hd'
    rw [← hds] at hd'
    exact beq_iff_eq.mp (List.mem_filter.mp hd').2
  rw [List.map_cons, List.nodup_cons] at hnodup
  refine List.eq_nil_iff_forall_not_mem.mpr fun d' hd' => hnodup.1 ?_
  exact List.mem_map.mpr ⟨d', hd', (hclient d' (List.mem_cons_of_mem d hd')).trans
    (hclient d List.mem_cons_self).symm⟩

/-- An attribute is set and all subscribers are told. -/
theorem keeps_notifies {attr : ServerAttribute (svc.kind id).ty} {complete : Prop}
    (hb : b.Ready) (hset : Sets raw junk b id attr args complete)
    (h : (b.setAttribute id attr).write raw args params (sendNotification svc.config id) =
      .ok b') :
    Keeps junk b b' ∧ b'.server.mNotifications = b.server.mNotifications := by
  obtain ⟨hready, hstates, hvalue, ps, hn⟩ := notifies_of_write junk hb hset h
  refine ⟨⟨hready, fun {c uplink p downlink} hr => hr.send hn.sent fun queue hqueue => ?_⟩,
    hn.notifications⟩
  have hleaves := hn.leaves hset hstates hvalue c
  have hmem : ∀ d, d ∈ ps.filter (fun d => d.message.clientID == c) ↔
      d ∈ ps ∧ d.message.clientID = c := by simp
  cases hds : ps.filter (fun d => d.message.clientID == c) with
  | nil =>
      rw [List.map_nil, List.append_nil]
      refine hleaves.drains_untold hqueue fun hsub => ?_
      obtain ⟨d, hd, hclient⟩ := (hn.told c).mpr hsub
      exact List.not_mem_nil (hds ▸ (hmem d).mpr ⟨hd, hclient⟩)
  | cons d ds =>
      rw [hds] at hmem
      obtain ⟨hd, hclient⟩ := (hmem d).mp List.mem_cons_self
      rcases hset.fair with hcomplete | ⟨hok, honce⟩
      · exact hleaves.drains_complete hqueue hn hcomplete (fun d' hd' => ((hmem d').mp hd').1)
          (List.cons_ne_nil d ds)
      · rw [hn.eq_singleton honce hds]
        exact hleaves.drains_once hqueue hn hok hd ((hn.told c).mp ⟨d, hd, hclient⟩)

/-! ## The calls of the application -/

/-- A call that lets the clients follow: a setter is given what can be sent, an attribute with
a value is not assigned past its setter, and of the calls of the server only the
notifications of what is available, with their default arguments, and `sendError` are about
attributes. -/
def Stub.Call.Fair (b : Stub svc.kind) : Stub.Call svc.kind → Prop
  | .set id source args =>
      id ∈ svc.config.attributes ∧ (svc.kind id).Settable source args (b.mValue id) ∧
        (∀ r, (svc.kind id).set source args (b.serverAttribute id) = some r →
          (svc.kind id).Sends r.1.mValue) ∧
        ((svc.kind id).IsComplete args ∨
          b.server.attributeState id = .DATA_OK ∧ b.server.subscribedOnce id)
  | .assign id _ => b.server.attributeState id ≠ .DATA_OK
  | .user c args _ => args = .complete ∧
      (c.LeavesAttributes svc.config b.server ∨ ∃ id ∈ svc.config.attributes, c = .sendError id)

/-- What calls do: they add no entry for an attribute. -/
structure Serves (junk : (n : Nat) → BitVec n) (b b' : Stub svc.kind) : Prop where
  keeps : Keeps junk b b'
  entries : ∀ n ∈ b'.server.mNotifications, n.notifyID ∈ svc.config.attributes →
    n ∈ b.server.mNotifications

theorem Serves.refl (h : b.Ready) : Serves junk b b := ⟨.refl h, fun _ hn _ => hn⟩

/-- What is served on both parts of the way. -/
theorem Serves.trans (h : Serves junk b b₁) (h' : Serves junk b₁ b') : Serves junk b b' :=
  ⟨h.keeps.trans h'.keeps, fun n hn hid => h.entries n (h'.entries n hn hid) hid⟩

/-- An attribute is set to what it is. -/
theorem setAttribute_eq_self {attr : ServerAttribute (svc.kind id).ty}
    (hstate : b.server.attributeState id = .ofAttribute attr.mState)
    (hvalue : attr.mValue = b.mValue id) : b.setAttribute id attr = b := by
  have hstates : (fun id' => if id' = id then DataStateType.ofAttribute attr.mState
      else b.server.attributeState id') = b.server.attributeState := by
    funext id'
    by_cases heq : id' = id
    · rw [if_pos heq, heq, hstate]
    · rw [if_neg heq]
  rw [Stub.setAttribute, hstates, hvalue, Function.update_eq_self]

/-- A state that is `DATA_OK` for the proxy is so for the server. -/
theorem toAttribute_eq_ok {state : CServer.DataStateType} (h : state.toAttribute = .DATA_OK) :
    state = .DATA_OK := by
  cases state with
  | DATA_OK => rfl
  | DATA_INVALID => exact absurd h (by simp [DataStateType.toAttribute])
  | DATA_NOT_AVAILABLE => exact absurd h (by simp [DataStateType.toAttribute])

/-- A setter. -/
theorem serves_set {source : (svc.kind id).ty.Val} (hb : b.Ready)
    (hfair : Stub.Call.Fair b (.set id source args))
    (h : b.call svc.config raw (.set id source args) = .ok b') : Serves junk b b' := by
  obtain ⟨hid, hsettable, hsends, hfair⟩ := hfair
  obtain ⟨attr, notify, hset, hok, hnone, hsent⟩ :=
    AttributeKind.read_write_set raw junk hsettable (b.server.attributeState id).toAttribute
  have hset' : (svc.kind id).set source args (b.serverAttribute id) = some (attr, notify) := hset
  cases notify with
  | none =>
      obtain ⟨hstate, hvalue⟩ := hnone rfl
      simp only [Stub.call, hset'] at h
      rw [← Except.ok.inj h, setAttribute_eq_self
        (by rw [hok]; exact toAttribute_eq_ok hstate) hvalue]
      exact .refl hb
  | some sent =>
      simp only [Stub.call, hset'] at h
      have hsets : Sets raw junk b id attr sent ((svc.kind id).IsComplete args) :=
        ⟨hid, by simp [hok], fun _ => hsends _ hset', fun _ => hsent sent rfl, hfair⟩
      obtain ⟨hkeeps, hentries⟩ := keeps_notifies hb hsets h
      exact ⟨hkeeps, fun n hn _ => hentries ▸ hn⟩

/-- An attribute becomes invalid. -/
theorem serves_sendError (hb : b.Ready) (hid : id ∈ svc.config.attributes)
    (h : b.call svc.config raw (.user (.sendError id) args params) = .ok b') :
    Serves junk b b' := by
  have hattr := (svc.sound.attributes id hid).1
  have hwrite : b.write raw args params (fun s => s.sendError svc.config id) = .ok b' := h
  by_cases hstate : b.server.attributeState id = .DATA_INVALID
  · obtain ⟨s, ps, hs, hps, rfl⟩ := Stub.write_eq_ok hwrite
    rw [sendError, if_pos hattr, getAttributeState_of_mem hid] at hs
    simp only [hstate, bind, Except.bind, ne_eq, not_true_eq_false, if_false] at hs
    obtain rfl := Except.ok.inj hs
    rw [List.drop_length] at hps
    obtain rfl := Option.some.inj hps
    rw [List.append_nil]
    exact .refl hb
  · -- the value stays, so that this is a setter as well
    have hsame : b.setAttribute id ⟨b.mValue id, .DATA_INVALID⟩ = { b with
        server := { b.server with attributeState := fun id' =>
          if id' = id then .DATA_INVALID else b.server.attributeState id' } } := by
      rw [Stub.setAttribute, Function.update_eq_self]
      rfl
    have hnotify : (b.setAttribute id ⟨b.mValue id, .DATA_INVALID⟩).write raw args params
        (sendNotification svc.config id) = .ok b' := by
      rw [← hwrite, hsame, Stub.write, Stub.write, sendError, if_pos hattr,
        getAttributeState_of_mem hid]
      simp only [bind, Except.bind, ne_eq, hstate, not_false_eq_true, if_true]
      rfl
    have hsets : Sets raw junk b id ⟨b.mValue id, .DATA_INVALID⟩ args True :=
      ⟨hid, by simp, by simp, by simp, Or.inl trivial⟩
    obtain ⟨hkeeps, hentries⟩ := keeps_notifies hb hsets hnotify
    exact ⟨hkeeps, fun n hn _ => hentries ▸ hn⟩

/-- An attribute without a value is assigned. -/
theorem serves_assign {value : (svc.kind id).ty.Val} (hb : b.Ready)
    (hfair : b.server.attributeState id ≠ .DATA_OK) :
    Serves junk b { b with mValue := Function.update b.mValue id value } := by
  have hvalue : ∀ id', b.server.attributeState id' = .DATA_OK →
      Function.update b.mValue id value id' = b.mValue id' := by
    intro id' hok
    have hne : id' ≠ id := by
      rintro rfl
      exact hfair hok
    rw [Function.update_of_ne hne]
  refine ⟨⟨⟨hb.tidy, hb.reached, fun id' hid' hok => ?_⟩, fun hr => ?_⟩, fun _ hn _ => hn⟩
  · dsimp only
    rw [hvalue id' hok]
    exact hb.sends id' hid' hok
  · refine hr.mono fun p hp hattached => ?_
    have hcopies := hp hattached
    exact ⟨hcopies.ordered, hcopies.version, fun id' hid' hS =>
      ⟨(hcopies.agrees id' hid' hS).state, fun hok =>
        ((hcopies.agrees id' hid' hS).value hok).trans (hvalue id' hok).symm⟩, hcopies.once⟩

/-- A call that is fair leaves the subscribers right or on their way to it. -/
theorem serves_call {c : Stub.Call svc.kind} (hb : b.Ready) (hfair : c.Fair b)
    (h : b.call svc.config raw c = .ok b') : Serves junk b b' := by
  cases c with
  | set id source args => exact serves_set hb hfair h
  | assign id value => exact Except.ok.inj h ▸ serves_assign hb hfair
  | user c args params =>
      obtain ⟨rfl, hleaves | ⟨id, hid, rfl⟩⟩ := hfair
      · have hannounces : ∀ s, CServer.call svc.config b.server c = .ok s →
            Announces svc.config b.server s :=
          fun s hs => announces_call svc.sound hb.tidy hb.reached hleaves hs
        have hkeeps : Keeps junk b b' := keeps_write
          (f := fun s => CServer.call svc.config s c) hb h hannounces
          fun s hs => hb.reached.of_moves (moves_call hs)
        have hs : CServer.call svc.config b.server c = .ok b'.server :=
          Stub.server_of_write (f := fun s => CServer.call svc.config s c) h
        exact ⟨hkeeps, fun n hn hid => ((hannounces _ hs).entries n hn hid).1⟩
      · exact serves_sendError hb hid h

/-- Every call is fair where it is made. -/
def Stub.CallsFair (raw : Nat → UInt8) (b : Stub svc.kind) (user : List (Stub.Call svc.kind)) :
    Prop :=
  Partial.Along (Stub.call svc.config raw) Stub.Call.Fair b user

/-- So does any number of them. -/
theorem serves_calls (junk : (n : Nat) → BitVec n) {user : List (Stub.Call svc.kind)} (hb : b.Ready)
    (hfair : b.CallsFair raw user) (h : b.calls svc.config raw user = .ok b') :
    Serves junk b b' :=
  Partial.invariant (I := Serves junk b)
    (fun _ _ _ hs hc hcall => hs.trans (serves_call hs.keeps.ready hc hcall)) (.refl hb) hfair h

end Dsi
