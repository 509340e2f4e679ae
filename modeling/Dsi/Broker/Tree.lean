import Dsi.Broker.Access

/-!
# Dsi.Broker.Tree

A tree of brokers.  A slave talks to its master over TCP, without credentials: what it
forwards arrives there on a connection like any other, and what it gets back is what
the master returned to a caller whose user is unknown.

Every channel that a broker of the tree returns was registered for everybody, or at
this broker for a group that the caller belongs to, as long as no entry with a group
is forwarded and no `GET_SERVER_INFORMATION` finds an entry that the caller may not
attach to.
-/

namespace Dsi

open Broker

/-- The request as which a job arrives at the master. -/
def JobArg.request (stackPulse : SFNDPulseInfo) : JobArg → Request
  | .attachInterface d => .attachInterface d
  | .attachInterfaceExtended pulse d => .attachInterfaceExtended pulse d stackPulse
  | .getServerInformation d => .getServerInformation d
  | .detachInterface id => .detachInterface id
  | .notifyServerDisconnect id pulse => .notifyServerDisconnect id pulse
  | .notifyServerAvailableEx records =>
      .notifyServerAvailableEx (Int32.ofNat records.length) records
  | .notifyClientDetach id pulse => .notifyClientDetach id pulse
  | .clearNotification id => .clearNotification id
  | .unregisterInterface id => .unregisterInterface id
  | .registerMasterInterfaceEx records =>
      .registerMasterInterfaceEx (Int32.ofNat records.length) records
  | .getInterfaceList n => .getInterfaceList n
  | .matchInterfaceList n regExpr => .matchInterfaceList n regExpr
  | .notifyInterfaceListChange pulse => .notifyInterfaceListChange pulse
  | .notifyInterfaceListMatch pulse regExpr => .notifyInterfaceListMatch pulse regExpr

/-- The channel is the one of the offer, up to `NodeAddressTranslator`. -/
def Offer.gives (o : Offer) (name : CString) (pid : UInt32) (chid : Int32) : Bool :=
  o.name == name && o.chid == chid && (o.pid == pid || o.pid == SB_LOCAL_IP_ADDRESS)

/-! ## The tree and its steps -/

/-- A tree of brokers: the configuration of each, and its master. -/
structure Tree where
  cfg : Nat → Config
  master : Nat → Option Nat
  level : Nat → Nat
  hasMaster : ∀ i, (cfg i).hasMaster = (master i).isSome
  level_lt : ∀ j i, master j = some i → level i < level j

/-- The brokers, and the history: what was registered at which broker, and what each
broker returned. -/
structure TreeState where
  brokers : Nat → Broker := fun _ => Broker.init
  registrations : List (Nat × Offer) := []
  returned : List (Nat × Returned) := []

/-- What can happen: an event at one broker, or the job that slave `j` executes arrives
at its master on connection `c`. -/
inductive TreeEvent where
  | own (i : Nat) (e : Event)
  | send (j c : Nat) (stackPulse : SFNDPulseInfo)

namespace TreeState

variable (T : Tree) (s : TreeState)

/-- Broker `i` takes a step that registers `new`. -/
def act (i : Nat) (e : Event) (new : List Offer) : TreeState where
  brokers i' := if i' = i then (s.brokers i).step (T.cfg i) e else s.brokers i'
  registrations := s.registrations ++ new.map (fun o => (i, o))
  returned := s.returned ++ ((s.brokers i).returned (T.cfg i) e).map (fun x => (i, x))

/-- The job of slave `j`, as an event at its master. -/
def arrives (j c : Nat) (stackPulse : SFNDPulseInfo) : Option (Nat × Event) :=
  (T.master j).bind (fun i =>
    (s.brokers j).executing.map (fun job => (i, .request c (job.arg.request stackPulse))))

/-- One step of the tree.  What a slave forwards has been registered before. -/
def step : TreeEvent → TreeState
  | .own i e => s.act T i e ((s.brokers i).stepOffers (T.cfg i) e)
  | .send j c stackPulse =>
      match s.arrives T j c stackPulse with
      | none => s
      | some (i, e) => s.act T i e []

/-- What a slave gets is something that its master returned over TCP for this interface. -/
def possible : TreeEvent → Bool
  | .own i e =>
      ((s.brokers i).obtained e).all (fun x => s.returned.any (fun y =>
        T.master i == some y.1 && y.2.mUid == SB_UNKNOWN_USER_ID &&
          y.2.ifDescription == some x.1 && y.2.channel == x.2))
  | .send .. => true

/-- The condition on a step. -/
def guarded : TreeEvent → Bool
  | .own i e => stepGuarded (T.cfg i) (s.brokers i) e
  | .send j c stackPulse =>
      (s.arrives T j c stackPulse).all (fun x => stepGuarded (T.cfg x.1) (s.brokers x.1) x.2)

/-- The channel was registered for everybody, or at the broker that returned it for a
group that the caller belongs to. -/
def allowed (x : Nat × Returned) : Bool :=
  x.2.ifDescription.any (fun d => s.registrations.any (fun r =>
    r.2.gives d.name x.2.channel.pid x.2.channel.chid &&
      (r.2.grpid == SB_UNKNOWN_GROUP_ID ||
        (r.1 == x.1 && admits (T.cfg x.1) r.2.grpid x.2.mNodeAddress x.2.mUid))))

/-- What the history says about channels, at broker `i`. -/
def channels (i : Nat) : Channels where
  published name pid chid := ∃ r ∈ s.registrations,
    r.2.grpid = SB_UNKNOWN_GROUP_ID ∧ r.2.gives name pid chid = true
  restricted g name pid chid := ∃ r ∈ s.registrations,
    r.1 = i ∧ r.2.grpid = g ∧ r.2.gives name pid chid = true

end TreeState

/-! ## The history of channels -/

theorem Offer.gives_self (o : Offer) : o.gives o.name o.pid o.chid = true := by
  simp [gives]

theorem Offer.gives_of_local {o : Offer} {name : CString} {chid : Int32}
    (h : o.gives name SB_LOCAL_IP_ADDRESS chid = true) (pid : UInt32) :
    o.gives name pid chid = true := by
  simp only [gives, Bool.and_eq_true, Bool.or_eq_true, beq_iff_eq, or_self] at h ⊢
  exact ⟨h.1, .inr h.2⟩

namespace TreeState

variable {T : Tree} {s s' : TreeState}

theorem lawful_channels (s : TreeState) (i : Nat) : (s.channels i).Lawful where
  published := by
    rintro name chid ⟨r, hr, hg, hgives⟩ pid
    exact ⟨r, hr, hg, Offer.gives_of_local hgives pid⟩
  restricted := by
    rintro g name chid ⟨r, hr, hi, hg, hgives⟩ pid
    exact ⟨r, hr, hi, hg, Offer.gives_of_local hgives pid⟩

theorem has_of_mem {i : Nat} {o : Offer} (h : (i, o) ∈ s.registrations) :
    (s.channels i).Has o := by
  unfold Channels.Has
  split
  · next hg => exact ⟨_, h, hg, o.gives_self⟩
  · exact ⟨_, h, rfl, rfl, o.gives_self⟩

theorem allowed_of_mayLearn {i : Nat} {x : Returned} {d : InterfaceDescription}
    (hd : x.ifDescription = some d)
    (h : MayLearn (T.cfg i) (s.channels i) x.mNodeAddress x.mUid d.name x.channel) :
    s.allowed T (i, x) = true := by
  rw [allowed, hd, Option.any_some, List.any_eq_true]
  obtain ⟨r, hr, hg, hgives⟩ | ⟨g, ⟨r, hr, hi, rfl, hgives⟩, hadmits⟩ := h
  · exact ⟨r, hr, by simp [hg, hgives]⟩
  · exact ⟨r, hr, by simp [hi, hgives, hadmits]⟩

/-- What was returned to a caller whose user is unknown was registered for everybody. -/
theorem published_of_allowed {x : Nat × Returned} {d : InterfaceDescription}
    (hd : x.2.ifDescription = some d) (huser : x.2.mUid = SB_UNKNOWN_USER_ID)
    (h : s.allowed T x = true) (i : Nat) :
    (s.channels i).published d.name x.2.channel.pid x.2.channel.chid := by
  rw [allowed, hd, Option.any_some, List.any_eq_true] at h
  obtain ⟨r, hr, h⟩ := h
  simp only [Bool.and_eq_true, Bool.or_eq_true, beq_iff_eq] at h
  obtain ⟨hgives, hg | hadmits⟩ := h
  · exact ⟨r, hr, hg, hgives⟩
  · have hnot : admits (T.cfg x.1) r.2.grpid x.2.mNodeAddress x.2.mUid = false := by
      simp [admits, huser, SB_UNKNOWN_USER_ID]
    rw [hnot] at hadmits
    exact absurd hadmits.2 Bool.false_ne_true

end TreeState

/-! ## The invariant -/

/-- Every broker keeps the channels of groups, and what was returned was allowed. -/
structure TreeInv (T : Tree) (s : TreeState) : Prop where
  confined : ∀ i, Confined (s.channels i) (s.brokers i)
  allowed : ∀ x ∈ s.returned, s.allowed T x = true

namespace TreeInv

variable {T : Tree} {s : TreeState}

theorem act (h : TreeInv T s) {i : Nat} {e : Event} {new : List Offer}
    (hoffers : ∀ o ∈ (s.brokers i).stepOffers (T.cfg i) e, ((s.act T i e new).channels i).Has o)
    (hobtained : ∀ d ch, (s.brokers i).obtained e = some (d, ch) →
      (s.channels i).published d.name ch.pid ch.chid)
    (hg : stepGuarded (T.cfg i) (s.brokers i) e = true) : TreeInv T (s.act T i e new) := by
  have hpublished (i' : Nat) (name : CString) (pid : UInt32) (chid : Int32)
      (hp : (s.channels i').published name pid chid) :
      ((s.act T i e new).channels i').published name pid chid := by
    obtain ⟨r, hr, hgives⟩ := hp
    exact ⟨r, List.mem_append_left _ hr, hgives⟩
  have hmono (i' : Nat) : Confined ((s.act T i e new).channels i') (s.brokers i') := by
    refine (h.confined i').mono (hpublished i') ?_
    rintro g name pid chid ⟨r, hr, hgives⟩
    exact ⟨r, List.mem_append_left _ hr, hgives⟩
  constructor
  case confined =>
    intro i'
    have hbroker : (s.act T i e new).brokers i' =
        if i' = i then (s.brokers i).step (T.cfg i) e else s.brokers i' := rfl
    rw [hbroker]
    split
    · next hi =>
      subst hi
      exact (hmono i').step (TreeState.lawful_channels _ i') hoffers
        (fun d ch hd => hpublished i' _ _ _ (hobtained d ch hd)) hg
    · exact hmono i'
  case allowed =>
    intro x hx
    cases List.mem_append.mp hx with
    | inl hold =>
        have hallowed := h.allowed x hold
        unfold TreeState.allowed at hallowed ⊢
        cases hd : x.2.ifDescription with
        | none => rw [hd] at hallowed; cases hallowed
        | some d =>
            rw [hd, Option.any_some, List.any_eq_true] at hallowed
            obtain ⟨r, hr, hgives⟩ := hallowed
            rw [Option.any_some, List.any_eq_true]
            exact ⟨r, List.mem_append_left _ hr, hgives⟩
    | inr hnew =>
        obtain ⟨y, hy, rfl⟩ := List.mem_map.mp hnew
        obtain ⟨d, hd, hmay⟩ := (hmono i).mayLearn_returned (TreeState.lawful_channels _ i) hg hy
        exact TreeState.allowed_of_mayLearn hd hmay

/-- A slave forwards only what was registered for everybody. -/
theorem has_forwarded (h : TreeInv T s) {j : Nat} {job : Job}
    (hexec : (s.brokers j).executing = some job) (i : Nat) (c : Nat) (stackPulse : SFNDPulseInfo) :
    ∀ o ∈ (s.brokers i).stepOffers (T.cfg i) (.request c (job.arg.request stackPulse)),
      (s.channels i).Has o := by
  intro o ho
  cases harg : job.arg with
  | registerMasterInterfaceEx records =>
      have hmem : job ∈ (s.brokers j).registerJobs := by
        simp [registerJobs, jobsInFlight, hexec, isRegisterJob, harg]
      have hrecords := (h.confined j).kept.jobs job hmem records harg
      rw [harg] at ho
      simp only [stepOffers, JobArg.request] at ho
      split at ho
      · cases ho
      · split at ho
        · cases ho
        · obtain ⟨r, hr, rfl⟩ := List.mem_map.mp ho
          exact hrecords r (List.mem_of_mem_take (List.mem_filter.mp hr).1)
  | _ =>
      rw [harg] at ho
      simp only [stepOffers, JobArg.request, offers, ite_self] at ho
      split at ho <;> cases ho

theorem step (h : TreeInv T s) {e : TreeEvent} (hpossible : s.possible T e = true)
    (hg : s.guarded T e = true) : TreeInv T (s.step T e) := by
  cases e with
  | own i e =>
      refine h.act ?_ ?_ hg
      · intro o ho
        exact TreeState.has_of_mem (List.mem_append_right _ (List.mem_map.mpr ⟨o, ho, rfl⟩))
      · intro d ch hobtained
        simp only [TreeState.possible, hobtained, Option.all_some, List.any_eq_true,
          Bool.and_eq_true, beq_iff_eq] at hpossible
        obtain ⟨y, hy, ⟨⟨_, huser⟩, hd⟩, rfl⟩ := hpossible
        exact TreeState.published_of_allowed hd huser (h.allowed y hy) i
  | send j c stackPulse =>
      simp only [TreeState.step]
      split
      · exact h
      · next i e harrives =>
        obtain ⟨i', _, hsome⟩ := Option.bind_eq_some_iff.mp harrives
        obtain ⟨job, hexec, hpair⟩ := Option.map_eq_some_iff.mp hsome
        obtain ⟨rfl, rfl⟩ := Prod.mk.inj hpair
        refine h.act ?_ (by simp [obtained]) (by simpa [TreeState.guarded, harrives] using hg)
        intro o ho
        have hhas := h.has_forwarded hexec i' c stackPulse o ho
        have hsame : (s.act T i' (.request c (job.arg.request stackPulse)) []).channels i' =
            s.channels i' := by
          simp [TreeState.channels, TreeState.act]
        rw [hsame]
        exact hhas

end TreeInv

theorem treeInv_init (T : Tree) : TreeInv T {} where
  confined _ := {
    kept := ⟨by simp [Broker.init, ServerList.empty],
      by simp [Broker.init, registerJobs, jobsInFlight]⟩
    attachJobs := rfl
    results := by simp [Broker.init] }
  allowed := by simp

/-- In every run of a tree in which no entry with a group is forwarded and no
`GET_SERVER_INFORMATION` finds an entry that its caller may not attach to, the channel
of an interface registered for a group is returned only at that broker, to local
callers whose user is root or a member of the group. -/
theorem returned_allowed_of_along (T : Tree) (es : List TreeEvent)
    (h : Run.Along (TreeState.step T)
      (fun s e => s.possible T e = true ∧ s.guarded T e = true) {} es) :
    ∀ x ∈ (Run.run (TreeState.step T) {} es).returned,
      (Run.run (TreeState.step T) {} es).allowed T x = true :=
  (Run.invariant (I := TreeInv T) (fun _ _ hs hc => hs.step hc.1 hc.2) (treeInv_init T) h).allowed

/-- Broker 0 is the master of broker 1; user 7 is a member of group 5. -/
def masterAndSlave : Tree where
  cfg i := { theId := 0, hasMaster := i == 1, isGroupMember := fun g uid => g == 5 && uid == 7 }
  master i := if i = 1 then some 0 else none
  level i := if i = 1 then 1 else 0
  hasMaster i := by
    dsimp only
    split
    · next h => simp [h]
    · next h => simp [h]
  level_lt j i h := by
    split at h
    · next hj =>
      obtain rfl := Option.some.inj h
      simp [hj]
    · cases h

/-- The slave is connected to its master, on connection 1 there; at each broker a
client of root is connected. -/
def slaveConnected : List TreeEvent :=
  [.own 0 (.connected 2 3 SB_UNKNOWN_USER_ID), .own 0 (.connected 0 0 0),
    .own 1 (.worker .connect), .own 1 (.worker (.idPing true)), .own 1 .deliver,
    .own 1 (.connected 0 0 0)]

/-- At the master an interface is registered for group 5, and user 7 attaches to it; a
client of the slave attaches to an interface that was registered for everybody there. -/
theorem returned_allowed_master_and_slave :
    let es := slaveConnected ++
      [.own 0 (.request 2 (.registerInterfaceGroupID ⟨[65], 1, 0⟩ 4 1 5)),
        .own 0 (.request 2 (.registerInterface ⟨[66], 1, 0⟩ 4 2)), .own 0 (.connected 0 0 7),
        .own 0 (.request 3 (.attachInterface ⟨[65], 1, 0⟩)),
        .own 1 (.request 1 (.attachInterface ⟨[66], 1, 0⟩)), .own 1 (.worker .pop),
        .send 1 1 ⟨0, 0, 0, 0⟩,
        .own 1 (.worker (.finish
          { status := 0, ret_val := 0,
            connInfo := ⟨1, 0, ⟨0, 4, 2⟩, ⟨500002, 1000⟩, ⟨100002, 1000⟩⟩ })),
        .own 1 .deliver]
    let s := Run.run (TreeState.step masterAndSlave) {} es
    s.returned.map (fun x => (x.1, x.2.mUid, x.2.channel.chid)) =
      [(0, 7, 1), (0, -1, 2), (1, 0, 2)] ∧
      ∀ x ∈ s.returned, s.allowed masterAndSlave x = true :=
  ⟨by decide +kernel, returned_allowed_of_along _ _ (by decide +kernel)⟩

/-- The information about an interface of group 5 is given to user 9 at the broker where
it was registered; and an interface that was registered for group 5 at the slave is
attached to by user 9 at the master. -/
theorem returned_not_allowed_server_information :
    (let es := slaveConnected ++
        [.own 0 (.request 2 (.registerInterfaceGroupID ⟨[65], 1, 0⟩ 4 1 5)),
          .own 0 (.connected 0 0 9), .own 0 (.request 3 (.getServerInformation ⟨[65], 1, 0⟩))]
      let s := Run.run (TreeState.step masterAndSlave) {} es
      ∃ x ∈ s.returned, s.allowed masterAndSlave x = false) ∧
      let es := slaveConnected ++
        [.own 1 (.request 1 (.registerInterfaceGroupID ⟨[65], 1, 0⟩ 4 1 5)), .own 1 (.worker .pop),
          .send 1 1 ⟨0, 0, 0, 0⟩, .own 0 (.connected 0 0 9),
          .own 0 (.request 3 (.attachInterface ⟨[65], 1, 0⟩))]
      let s := Run.run (TreeState.step masterAndSlave) {} es
      ∃ x ∈ s.returned, s.allowed masterAndSlave x = false := by
  decide +kernel

end Dsi
