import Mathlib.Data.List.Perm.Subperm
import Dsi.Broker.ClientIDs
import Dsi.Broker.Holdings
import Dsi.Broker.Tree

/-!
# Dsi.Broker.Uplinks

Several brokers, connected by the sockets over which the slaves talk to their masters.
A job that a slave executes arrives at the master on that connection, the answer goes
back to the slave, and the slave hands it on to its own client.  A server is registered
at one broker and known to the masters above it, under an ID that may differ there.

Every broker counts its clients from the same number.  Client IDs for one server still
differ, whichever brokers assigned them.
-/

namespace Dsi

open Broker

/-- A successful attach: the broker that assigned the client ID and the number of the
client there, the server as the broker with which it was registered knows it, and the ID
that is returned. -/
structure Attach where
  assignedBy : Nat
  count : Nat
  server : Nat × SPartyID
  clientID : SPartyID
  deriving DecidableEq, Inhabited

/-- The brokers of a tree, with the connections over which slaves talk to them, the
servers behind the IDs in their tables, the answers to attaches that the worker thread
of a slave has not read or its main thread not taken out of the pipe yet, and the
attaches that were answered to clients. -/
structure Uplinks where
  brokers : Nat → Broker := fun _ => Broker.init
  slaveOn : Nat → Nat → Option Nat := fun _ _ => none
  servers : Nat → SPartyID → Nat × SPartyID := fun i id => (i, id)
  unread : List (Nat × Attach) := []
  piped : List (Nat × Attach) := []
  attaches : List (Nat × Nat × Attach) := []

/-- What can happen: an event at one broker, the worker thread of slave `j` connects its
socket, the job that slave `j` executes arrives at its master on connection `c`, and the
worker thread of slave `j` reads the answer `x`. -/
inductive UplinkEvent where
  | own (i : Nat) (e : Event)
  | uplink (j : Nat) (nodeAddress localAddress : UInt32)
  | send (j c : Nat) (stackPulse : SFNDPulseInfo)
  | read (j : Nat) (x : Attach) (raw : JobResult)

namespace Uplinks

variable (T : Tree) (s : Uplinks)

/-! ## Steps -/

/-- An answer about an attach goes to the slave on this connection, or to a client. -/
def route (i : Nat) (s : Uplinks) (x : Nat × Attach) : Uplinks :=
  match s.slaveOn i x.1 with
  | some j => { s with unread := s.unread ++ [(j, x.2)] }
  | none => { s with attaches := s.attaches ++ [(i, x.1, x.2)] }

/-- The attach that broker `i` answers: the one that its main thread takes out of the
pipe, or a new one. -/
def attachOf (i : Nat) (e : Event) (info : SConnectionInfo) : Attach :=
  match e with
  | .deliver =>
      { ((s.piped.find? (·.1 == i)).map (·.2)).getD default with clientID := info.clientID }
  | _ =>
      { assignedBy := i
        count := (s.brokers i).mNextClientID
        server := s.servers i info.serverID
        clientID := info.clientID }

/-- The answers about attaches that broker `i` gives, each to a connection. -/
def attached (i : Nat) (e : Event) : List (Nat × Attach) :=
  ((s.brokers i).answers (T.cfg i) e).filterMap (fun a =>
    a.2.attached?.map (fun info => (a.1, s.attachOf i e info)))

/-- Does the step bring this ID into the table of broker `i`? -/
def registers (i : Nat) (e : Event) (id : SPartyID) : Bool :=
  (((s.brokers i).step (T.cfg i) e).mConnectedServers.findID id).isSome &&
    ((s.brokers i).mConnectedServers.findID id).isNone

/-- Broker `i` takes a step; `server` tells the servers that it registers. -/
def moved (i : Nat) (e : Event) (server : SPartyID → Nat × SPartyID) : Uplinks :=
  { s with
    brokers := fun i' => if i' = i then (s.brokers i).step (T.cfg i) e else s.brokers i'
    servers := fun i' id => if i' = i ∧ s.registers T i e id then server id else s.servers i' id
    piped := if ((s.brokers i).attachTaken e).isSome then s.piped.eraseP (·.1 == i) else s.piped }

/-- Broker `i` takes a step, and what it answers about an attach goes where it should. -/
def act (i : Nat) (e : Event) (server : SPartyID → Nat × SPartyID) : Uplinks :=
  (s.attached T i e).foldl (route i) (s.moved T i e server)

/-- The servers that slave `j` registers over connection `c` of its master `i`. -/
def forwarded (i j c : Nat) (arg : JobArg) (id : SPartyID) : Nat × SPartyID :=
  match arg with
  | .registerMasterInterfaceEx records =>
      match records.find? (fun r => (masterEntry ⟨c, 0, 0, 0, true⟩ r).partyID == id) with
      | some r => s.servers j r.serverID
      | none => (i, id)
  | _ => (i, id)

/-- Broker `i` accepts the connection of its slave `j`. -/
def accept (i j : Nat) (nodeAddress localAddress : UInt32) : Uplinks :=
  let c := (s.brokers i).nextConnectionId
  { s with slaveOn := fun i' c' => if i' = i ∧ c' = c then some j else s.slaveOn i' c' }.act T i
    (.connected nodeAddress localAddress SB_UNKNOWN_USER_ID) (fun id => (i, id))

/-- The worker thread of slave `j` reads the answer `x` in its step `e`. -/
def received (j : Nat) (x : Attach) (e : Event) : Uplinks :=
  { s with
    unread := s.unread.erase (j, x)
    piped := if ((s.brokers j).attachRead e).isSome then s.piped ++ [(j, x)] else s.piped }

/-- One step of the brokers. -/
def step : UplinkEvent → Uplinks
  | .own i e => s.act T i e (fun id => (i, id))
  | .uplink j nodeAddress localAddress =>
      match T.master j with
      | none => s
      | some i =>
          (s.accept T i j nodeAddress localAddress).act T j (.worker .connect) (fun id => (j, id))
  | .send j c stackPulse =>
      match T.master j, (s.brokers j).executing with
      | some i, some job =>
          if s.slaveOn i c = some j then
            s.act T i (.request c (job.arg.request stackPulse)) (s.forwarded i j c job.arg)
          else s
      | _, _ => s
  | .read j x raw =>
      if (j, x) ∈ s.unread then
        (s.received j x (.worker (.finish raw))).act T j (.worker (.finish raw)) (fun id => (j, id))
      else s

/-- What a slave reads as the answer to an attach is an answer that its master gave to
it; and nobody but a slave registers servers of a slave.  There are `n` brokers. -/
def possible (n : Nat) : UplinkEvent → Prop
  | .own i e => i < n ∧ (s.brokers i).attachRead e = none ∧ slaveRegisters e = none
  | .uplink j _ _ | .send j _ _ => j < n ∧ ∀ i ∈ T.master j, i < n
  | .read j x raw => j < n ∧
      ∀ id ∈ (s.brokers j).attachRead (.worker (.finish raw)), x.clientID = id

instance (n : Nat) : (e : UplinkEvent) → Decidable (s.possible T n e)
  | .own i e => inferInstanceAs (Decidable
      (i < n ∧ (s.brokers i).attachRead e = none ∧ slaveRegisters e = none))
  | .uplink j _ _ => inferInstanceAs (Decidable (j < n ∧ ∀ i ∈ T.master j, i < n))
  | .send j _ _ => inferInstanceAs (Decidable (j < n ∧ ∀ i ∈ T.master j, i < n))
  | .read j x raw => inferInstanceAs (Decidable (j < n ∧
      ∀ id ∈ (s.brokers j).attachRead (.worker (.finish raw)), x.clientID = id))

/-- No broker has had `2 ^ 31` connections or attaches. -/
def few (n : Nat) : Prop :=
  ∀ i < n, (s.brokers i).nextConnectionId ≤ 2 ^ 31 ∧
    (s.brokers i).mNextClientID < Broker.init.mNextClientID + 2 ^ 31

instance (n : Nat) : Decidable (s.few n) :=
  inferInstanceAs (Decidable (∀ i < n, (s.brokers i).nextConnectionId ≤ 2 ^ 31 ∧
    (s.brokers i).mNextClientID < Broker.init.mNextClientID + 2 ^ 31))

/-! ## What a client ID says about its attach -/

/-- The extended IDs in the server table of broker `i`: the one of the broker, and the
ones of the servers of its slaves, which are not 0. -/
def Table (T : Tree) (i : Nat) (ext : UInt32) : Prop :=
  ext = (T.cfg i).mExtendedID ∨ (∃ j, T.master j = some i) ∧ ext ≠ 0

/-- All attaches: those that were answered to clients, and those whose answer is on its
way down. -/
def all : List Attach :=
  s.attaches.map (·.2.2) ++ (s.unread.map (·.2) ++ s.piped.map (·.2))

/-- The client IDs that the main thread of slave `j` still has to take out of its pipe. -/
def pipedIDs (j : Nat) : List SPartyID := (s.piped.filter (·.1 == j)).map (·.2.clientID)

end Uplinks

/-- Among `n` brokers with these counters, where the client ID of the attach comes from. -/
structure Attach.Made (T : Tree) (n : Nat) (counter : Nat → Nat) (x : Attach) : Prop where
  broker : x.assignedBy < n
  count : x.count < counter x.assignedBy
  localID : x.clientID.localID = UInt32.ofNat x.count
  extendedID : ∃ ext, Uplinks.Table T x.assignedBy ext ∧ x.clientID.extendedID =
    if (T.cfg x.assignedBy).isTreeMode then (T.cfg x.assignedBy).mExtendedID else ext
  server : (∀ j, T.master j ≠ some x.assignedBy) → x.server.1 = x.assignedBy

/-- What is made stays made while the counters grow. -/
theorem Attach.Made.mono {T : Tree} {n : Nat} {counter counter' : Nat → Nat} {x : Attach}
    (h : x.Made T n counter) (hle : ∀ i, counter i ≤ counter' i) : x.Made T n counter' :=
  { h with count := Nat.lt_of_lt_of_le h.count (hle _) }

namespace Uplinks

variable {T : Tree} {n : Nat} {s s' : Uplinks}

/-- The counter of each broker. -/
def counters (s : Uplinks) (i : Nat) : Nat := (s.brokers i).mNextClientID

/-- What holds in every state that is reached: each broker ran on its own, its table holds
extended IDs of its own or its slaves' servers, no broker but a master knows servers of
another one, and every attach has its place in the count of one broker. -/
structure Assigned (T : Tree) (n : Nat) (s : Uplinks) : Prop where
  reached : ∀ i, ∃ es, s.brokers i = Run.run (Broker.step (T.cfg i)) Broker.init es
  table : ∀ i, ∀ e ∈ (s.brokers i).mConnectedServers.cores, Table T i e.partyID.extendedID
  servers : ∀ i, (∀ j, T.master j ≠ some i) → ∀ id, (s.servers i id).1 = i
  made : ∀ x ∈ s.all, x.Made T n s.counters
  distinct : (s.all.map (fun x => (x.assignedBy, x.count))).Nodup

theorem Assigned.attachJobs (h : Assigned T n s) (i : Nat) :
    (s.brokers i).mPendingAttachExtendedJobs = [] := by
  obtain ⟨es, hes⟩ := h.reached i
  exact hes ▸ attachJobs_run (T.cfg i) es

theorem Assigned.numbersFresh (h : Assigned T n s) (i : Nat) : NumbersFresh (s.brokers i) := by
  obtain ⟨es, hes⟩ := h.reached i
  exact hes ▸ numbersFresh_run (T.cfg i) es

/-! ## Routing an answer -/

section Route

variable (i : Nat) (s : Uplinks) (x : Nat × Attach)

/-- Answers reach neither the brokers nor what the servers are, nor a pipe. -/
theorem route_fields (as : List (Nat × Attach)) (s : Uplinks) :
    (as.foldl (route i) s).brokers = s.brokers ∧ (as.foldl (route i) s).servers = s.servers ∧
      (as.foldl (route i) s).piped = s.piped := by
  induction as generalizing s with
  | nil => exact ⟨rfl, rfl, rfl⟩
  | cons x as ih =>
      obtain ⟨hbrokers, hservers, hpiped⟩ := ih (s.route i x)
      rw [List.foldl_cons, hbrokers, hservers, hpiped]
      unfold route
      split <;> exact ⟨rfl, rfl, rfl⟩

/-- An answer is one more attach, wherever it goes. -/
theorem all_route : (s.route i x).all.Perm (x.2 :: s.all) := by
  unfold route
  split
  · simp only [all, List.map_append, List.map_cons, List.map_nil, List.append_assoc]
    refine List.Perm.trans ?_ List.perm_middle
    exact (List.perm_middle.trans .rfl).append_left _
  · simp only [all, List.map_append, List.map_cons, List.map_nil, List.append_assoc]
    exact List.perm_middle

end Route

/-! ## The answer of one step -/

section Act

variable {i : Nat} {e : Event} {server : SPartyID → Nat × SPartyID}

/-- The first answer for broker `i` in its pipe has the first ID. -/
theorem find?_piped {id : SPartyID} {ids : List SPartyID} (hids : s.pipedIDs i = id :: ids) :
    ∃ x, s.piped.find? (·.1 == i) = some (i, x) ∧ x.clientID = id := by
  unfold pipedIDs at hids
  obtain ⟨⟨j, x⟩, l, hfilter, hid, _⟩ := List.map_eq_cons_iff.mp hids
  have hj : j = i := by
    have hmem : (j, x) ∈ s.piped.filter (·.1 == i) := hfilter ▸ List.mem_cons_self
    simpa using (List.mem_filter.mp hmem).2
  refine ⟨x, ?_, hid⟩
  rw [← List.head?_filter, hfilter, hj]
  rfl

/-- Taking the first answer for broker `i` out of the pipe takes its first ID. -/
theorem pipedIDs_eraseP (i' : Nat) : ((s.piped.eraseP (·.1 == i)).filter (·.1 == i')).map
      (·.2.clientID) = if i' = i then (s.pipedIDs i).tail else s.pipedIDs i' := by
  unfold pipedIDs
  induction s.piped with
  | nil => split <;> rfl
  | cons p l ih =>
      by_cases hp : p.1 = i
      · rw [List.eraseP_cons_of_pos (by simpa using hp)]
        split
        · next hi => simp [hp, hi]
        · next hi => simp [hp, Ne.symm hi]
      · rw [List.eraseP_cons_of_neg (by simpa using hp)]
        by_cases hi : i' = i
        · subst hi
          simpa [List.filter_cons, hp] using ih
        · simp only [List.filter_cons, hi, if_false] at ih ⊢
          split
          · simp only [List.map_cons, ih]
          · exact ih

/-- An attach that broker `i` assigns in this step: it takes the next number. -/
structure New (T : Tree) (s : Uplinks) (i : Nat) (e : Event) (x : Attach) : Prop where
  assignedBy : x.assignedBy = i
  count : x.count = (s.brokers i).mNextClientID
  next : ((s.brokers i).step (T.cfg i) e).mNextClientID = (s.brokers i).mNextClientID + 1
  clientID : ∃ entry ∈ (s.brokers i).mConnectedServers.entries,
    x.server = s.servers i entry.partyID ∧
      x.clientID = (s.brokers i).nextClientIDFor (T.cfg i) entry.partyID

/-- What a step answers about an attach is new, or it is the first answer for this broker
that is in its pipe. -/
theorem attached_cases (h : Assigned T n s) (hends : s.pipedIDs i =
      (s.brokers i).attachIDs ++ ((s.brokers i).attachRead e).toList) :
    s.attached T i e = [] ∨ ∃ c x, s.attached T i e = [(c, x)] ∧
      (((s.brokers i).attachTaken e = none ∧ New T s i e x) ∨
        ((s.brokers i).attachTaken e = some x.clientID ∧
          s.piped.find? (·.1 == i) = some (i, x))) := by
  obtain ⟨hone, hof⟩ := answers_cases (T.cfg i) (h.attachJobs i) e
  unfold attached
  generalize (s.brokers i).answers (T.cfg i) e = as at hone hof
  match as, hone with
  | [], _ => exact .inl rfl
  | [(c, resp)], _ =>
      cases hinfo : resp.attached? with
      | none => simp [hinfo]
      | some info =>
          refine .inr ⟨c, s.attachOf i e info, by simp [hinfo], ?_⟩
          cases hof _ (List.mem_singleton.mpr rfl) with
          | @request _ r k _ hk hdeferred hbreaks hresp =>
              refine .inl ⟨rfl, ?_⟩
              have hnext := nextClientID_request (T.cfg i) r hk hdeferred hbreaks
              have hassigns := Assigns.dispatch (T.cfg i) (k.ctx c) r (s.brokers i)
              generalize hd : (s.brokers i).dispatch (T.cfg i) (k.ctx c) r = d at hassigns
              rw [hd] at hresp hnext
              cases hassigns with
              | here he hinfo' hserver hclient hstep =>
                  obtain rfl := Option.some.inj hresp
                  obtain rfl := Option.some.inj (hinfo.symm.trans hinfo')
                  exact ⟨rfl, rfl, hnext.trans hstep, _, he,
                    congrArg (s.servers i) hserver, hclient⟩
              | other _ hnone =>
                  dsimp only at hresp hnone
                  rw [hresp] at hnone
                  exact absurd (hinfo.symm.trans hnone) (by simp)
          | @job job res rest _ hpipe hdelivered hctx =>
              have htaken : InternalNotification.attached? (.jobExecuted job res) =
                  some info.clientID :=
                attached?_jobResult (b := { s.brokers i with pipe := rest })
                  (h.attachJobs i) hinfo
              have hids : s.pipedIDs i = info.clientID ::
                  rest.filterMap InternalNotification.attached? := by
                rw [hends, attachIDs, hpipe, List.filterMap_cons, htaken]
                simp [attachRead]
              obtain ⟨x, hfind, hx⟩ := find?_piped hids
              refine .inr ⟨by simp [attachTaken, hdelivered, htaken, attachOf], ?_⟩
              simp [attachOf, hfind, ← hx]
  | _ :: _ :: _, hone => simp at hone

/-- A step moves what is under way, and adds nothing to it. -/
theorem all_moved : (s.moved T i e server).all.Sublist s.all := by
  unfold all moved
  dsimp only
  split
  · refine List.Sublist.append_left (List.Sublist.append_left ?_ _) _
    exact List.eraseP_sublist.map _
  · exact .refl _

/-- The answer that is taken out of the pipe is the one that is missing there. -/
theorem all_moved_of_find? {x : Attach} (htaken : ((s.brokers i).attachTaken e).isSome = true)
    (hfind : s.piped.find? (·.1 == i) = some (i, x)) :
    (x :: (s.moved T i e server).all).Perm s.all := by
  obtain ⟨_, l, l', hpiped, hl⟩ := List.find?_eq_some_iff_append.mp hfind
  have herase : s.piped.eraseP (·.1 == i) = l ++ l' := by
    rw [hpiped, List.eraseP_append_right _ (by simpa using hl),
      List.eraseP_cons_of_pos (by simp)]
  have hperm : (x :: (l ++ l').map (·.2)).Perm (s.piped.map (·.2)) := by
    simp only [hpiped, List.map_append, List.map_cons]
    exact List.perm_middle.symm
  simp only [all, moved, if_pos htaken, herase]
  refine List.Perm.trans List.perm_middle.symm (List.Perm.append_left _ ?_)
  exact List.perm_middle.symm.trans (hperm.append_left _)

/-- A step adds at most one attach, and that is a new one. -/
theorem all_act (server : SPartyID → Nat × SPartyID) (h : Assigned T n s) (hends : s.pipedIDs i =
      (s.brokers i).attachIDs ++ ((s.brokers i).attachRead e).toList) :
    ∃ new, (s.act T i e server).all.Subperm (new ++ s.all) ∧ new.length ≤ 1 ∧
      ∀ x ∈ new, New T s i e x := by
  unfold act
  rcases attached_cases h hends with hnone | ⟨c, x, hone, hcase⟩
  · rw [hnone]
    exact ⟨[], all_moved.subperm, by simp, by simp⟩
  · rw [hone, List.foldl_cons, List.foldl_nil]
    have hroute := all_route i (s.moved T i e server) (c, x)
    rcases hcase with ⟨_, hnew⟩ | ⟨htaken, hfind⟩
    · refine ⟨[x], hroute.subperm.trans (all_moved.cons_cons x).subperm, by simp, ?_⟩
      simpa using hnew
    · refine ⟨[], ?_, by simp, by simp⟩
      exact (hroute.trans (all_moved_of_find? (by simp [htaken]) hfind)).subperm

/-- The brokers act, and the ends of the pipes follow. -/
theorem act_fields (T : Tree) (s : Uplinks) (i : Nat) (e : Event)
    (server : SPartyID → Nat × SPartyID) :
    (s.act T i e server).brokers = (s.moved T i e server).brokers ∧
    (s.act T i e server).servers = (s.moved T i e server).servers ∧
    (s.act T i e server).piped = (s.moved T i e server).piped :=
  route_fields i _ _

/-- No counter runs backwards. -/
theorem counters_le_act (h : Assigned T n s) (i' : Nat) :
    s.counters i' ≤ (s.act T i e server).counters i' := by
  unfold counters
  rw [(act_fields T s _ e server).1]
  dsimp only [moved]
  split
  · next hi => exact hi ▸ nextClientID_le_step (h.attachJobs i') e
  · exact Nat.le_refl _

/-- A new client ID was made by the broker that it is from. -/
theorem New.made (h : Assigned T n s) (hi : i < n) {x : Attach} (hnew : New T s i e x) :
    x.Made T n (s.act T i e server).counters := by
  obtain ⟨entry, hentry, hserver, hclient⟩ := hnew.clientID
  obtain ⟨rfl, hcount, hnext, _⟩ := hnew
  refine ⟨hi, ?_, by rw [hclient, hcount]; rfl, ⟨entry.partyID.extendedID, ?_, ?_⟩, ?_⟩
  · unfold counters
    rw [(act_fields T s _ e server).1]
    simp [moved, hnext, hcount]
  · exact h.table _ { entry with masterID := noPartyID } (List.mem_map_of_mem hentry)
  · rw [hclient]
    rfl
  · intro hleaf
    rw [hserver]
    exact h.servers _ hleaf _

/-- A step of one broker keeps what holds in every state that is reached. -/
theorem Assigned.act (h : Assigned T n s) (hi : i < n) (hends : s.pipedIDs i =
      (s.brokers i).attachIDs ++ ((s.brokers i).attachRead e).toList)
    (hslave : ∀ c ∈ slaveRegisters e, ((s.brokers i).conns c).isSome = true →
      (∃ j, T.master j = some i) ∧ UInt32.ofNat (1000 + c) ≠ 0)
    (hserver : (∀ j, T.master j ≠ some i) → ∀ id, (server id).1 = i) :
    Assigned T n (s.act T i e server) := by
  obtain ⟨hbrokers, hservers, _⟩ := act_fields T s i e server
  obtain ⟨new, hall, hone, hnew⟩ := all_act server h hends
  refine ⟨fun i' => ?_, fun i' => ?_, fun i' hleaf id => ?_, fun x hx => ?_, ?_⟩
  · obtain ⟨es, hes⟩ := h.reached i'
    rw [hbrokers]
    dsimp only [moved]
    split
    · next hi' =>
      subst hi'
      exact ⟨es ++ [e], by rw [Run.run_append, ← hes]; rfl⟩
    · exact ⟨es, hes⟩
  · rw [hbrokers]
    dsimp only [moved]
    split
    · next hi' =>
      subst hi'
      have hnewIDs : NewIDs (Table T i') (s.brokers i') ((s.brokers i').step (T.cfg i') e) := by
        refine newIDs_step (.inl rfl) (h.attachJobs i') fun c hc hopen => ?_
        obtain ⟨hmaster, hne⟩ := hslave c hc hopen
        exact ⟨fun x hx => .inr ⟨hmaster, hx⟩, .inr ⟨hmaster, hne⟩⟩
      exact fun entry hentry => (hnewIDs entry hentry).elim (h.table i' entry) id
    · exact h.table i'
  · rw [hservers]
    dsimp only [moved]
    split
    · next hi' => exact hi'.1 ▸ hserver (hi'.1 ▸ hleaf) id
    · exact h.servers i' hleaf id
  · rcases List.mem_append.mp (hall.subset hx) with hx | hx
    · exact (hnew x hx).made h hi
    · exact (h.made x hx).mono (counters_le_act h)
  · obtain ⟨l, hperm, hsub⟩ := hall
    refine ((hperm.map _).nodup_iff).mp (List.Nodup.sublist (hsub.map _) ?_)
    match new, hone, hnew with
    | [], _, _ => exact h.distinct
    | [x], _, hnew =>
        obtain ⟨hassigned, hcount, _⟩ := hnew x List.mem_cons_self
        refine List.nodup_cons.mpr ⟨fun hmem => ?_, h.distinct⟩
        obtain ⟨y, hy, heq⟩ := List.mem_map.mp hmem
        obtain ⟨hby, hnumber⟩ := Prod.mk.inj heq
        have hlt := (h.made y hy).count
        rw [hnumber, hby, hcount, hassigned] at hlt
        exact Nat.lt_irrefl _ hlt
    | _ :: _ :: _, hone, _ => simp at hone

/-- Every client ID that broker `j` still waits for is in its pipe, in order. -/
def Ends (s : Uplinks) : Prop := ∀ j, s.pipedIDs j = (s.brokers j).attachIDs

/-- What the worker reads of the master's answers goes to the end of its pipe. -/
theorem ends_act (h : Assigned T n s) (hends : s.pipedIDs i =
      (s.brokers i).attachIDs ++ ((s.brokers i).attachRead e).toList)
    (hother : ∀ j, j ≠ i → s.pipedIDs j = (s.brokers j).attachIDs) :
    Ends (s.act T i e server) := by
  obtain ⟨hbrokers, _, hpiped⟩ := act_fields T s i e server
  have hstep := attachIDs_step (T.cfg i) (h.attachJobs i) e
  rw [← hends] at hstep
  intro j
  have hids : (s.act T i e server).pipedIDs j = if j = i then
      ((s.brokers i).step (T.cfg i) e).attachIDs else s.pipedIDs j := by
    rw [pipedIDs, hpiped]
    dsimp only [moved]
    cases htaken : (s.brokers i).attachTaken e with
    | none =>
        rw [htaken] at hstep
        simp only [Option.isSome_none, Bool.false_eq_true, if_false]
        split
        · next hj => exact hj ▸ hstep.symm
        · rfl
    | some id =>
        rw [htaken] at hstep
        simp only [Option.isSome_some, if_true, pipedIDs_eraseP]
        rw [← hstep]
        rfl
  rw [hids, hbrokers]
  dsimp only [moved]
  split
  · rfl
  · next hj => exact hother j hj

end Act

/-! ## Steps of the brokers -/

/-- Where answers are does not matter, as long as none is made up. -/
theorem Assigned.of_all (h : Assigned T n s) (hbrokers : s'.brokers = s.brokers)
    (hservers : s'.servers = s.servers) (hall : s'.all.Subperm s.all) : Assigned T n s' := by
  refine ⟨hbrokers ▸ h.reached, hbrokers ▸ h.table, hservers ▸ h.servers, fun x hx => ?_, ?_⟩
  · unfold counters
    rw [hbrokers]
    exact h.made x (hall.subset hx)
  · obtain ⟨l, hperm, hsub⟩ := hall
    exact ((hperm.map _).nodup_iff).mp (h.distinct.sublist (hsub.map _))

/-- What the worker thread reads leaves the socket, and reaches the pipe only from there. -/
theorem all_received {j : Nat} {x : Attach} (hx : (j, x) ∈ s.unread) (e : Event) :
    (s.received j x e).all.Subperm s.all := by
  have hperm : (x :: (s.unread.erase (j, x)).map (·.2)).Perm (s.unread.map (·.2)) :=
    ((List.perm_cons_erase hx).map (fun p : Nat × Attach => p.2)).symm
  refine List.Subperm.append (.refl _) ?_
  dsimp only [received]
  split
  · rw [List.map_append, List.map_cons, List.map_nil, ← List.append_assoc]
    refine (List.perm_append_singleton _ _).subperm.trans ?_
    exact (hperm.append_right _).subperm
  · exact List.Subperm.append (((List.sublist_cons_self _ _).subperm).trans hperm.subperm) (.refl _)

/-- An answer of the master goes to the end of the pipe of its slave. -/
theorem pipedIDs_received {j : Nat} {x : Attach} {e : Event}
    (hid : ∀ id ∈ (s.brokers j).attachRead e, x.clientID = id) (j' : Nat) :
    (s.received j x e).pipedIDs j' =
      s.pipedIDs j' ++ if j' = j then ((s.brokers j).attachRead e).toList else [] := by
  cases hread : (s.brokers j).attachRead e with
  | none => simp [pipedIDs, received, hread]
  | some id =>
      have hx := hid id hread
      by_cases hj : j' = j
      · simp [pipedIDs, received, hread, hj, hx]
      · simp [pipedIDs, received, hread, hj, Ne.symm hj]

/-- A step of one broker keeps every client ID made once. -/
theorem Assigned.own (h : Assigned T n s) (server : SPartyID → Nat × SPartyID) (hends : Ends s)
    {i : Nat} {e : Event} (hi : i < n) (hread : (s.brokers i).attachRead e = none)
    (hslave : ∀ c ∈ slaveRegisters e, ((s.brokers i).conns c).isSome = true →
      (∃ j, T.master j = some i) ∧ UInt32.ofNat (1000 + c) ≠ 0)
    (hserver : (∀ j, T.master j ≠ some i) → ∀ id, (server id).1 = i) :
    Assigned T n (s.act T i e server) ∧ Ends (s.act T i e server) := by
  have hends' : s.pipedIDs i =
      (s.brokers i).attachIDs ++ ((s.brokers i).attachRead e).toList := by
    rw [hread, hends i, Option.toList_none, List.append_nil]
  exact ⟨h.act hi hends' hslave hserver, ends_act h hends' fun j _ => hends j⟩

/-- So does every step of the tree. -/
theorem Assigned.step (h : Assigned T n s) (hends : Ends s) (hfew : s.few n) {e : UplinkEvent}
    (hpossible : s.possible T n e) : Assigned T n (s.step T e) ∧ Ends (s.step T e) := by
  cases e with
  | own i e =>
      obtain ⟨hi, hread, hslave⟩ := hpossible
      exact h.own _ hends hi hread (fun c hc => by simp [hslave] at hc) (fun _ _ => rfl)
  | uplink j nodeAddress localAddress =>
      obtain ⟨hj, hmaster⟩ := hpossible
      simp only [Uplinks.step]
      split
      · exact ⟨h, hends⟩
      · next i hi =>
        have hquiet : Assigned T n { s with slaveOn := fun i' c' =>
            if i' = i ∧ c' = (s.brokers i).nextConnectionId then some j else s.slaveOn i' c' } :=
          h.of_all rfl rfl (.refl _)
        obtain ⟨haccept, hendsAccept⟩ := hquiet.own (fun id => (i, id)) hends
          (e := .connected nodeAddress localAddress SB_UNKNOWN_USER_ID) (hmaster i hi) rfl
          (fun c hc => by simp [slaveRegisters] at hc) (fun _ _ => rfl)
        exact haccept.own _ hendsAccept hj rfl (fun c hc => by simp [slaveRegisters] at hc)
          (fun _ _ => rfl)
  | send j c stackPulse =>
      obtain ⟨_, hmaster⟩ := hpossible
      simp only [Uplinks.step]
      split
      · next i job hi _ =>
        split
        · refine h.own _ hends (hmaster i hi) rfl (fun c' hc' hopen => ⟨⟨j, hi⟩, ?_⟩)
            (fun hleaf => absurd hi (hleaf j))
          have hlt : c' < (s.brokers i).nextConnectionId := by
            by_contra hge
            rw [h.numbersFresh i c' (Nat.not_lt.mp hge)] at hopen
            cases hopen
          have hle := (hfew i (hmaster i hi)).1
          intro hzero
          have hval := congrArg UInt32.toNat hzero
          rw [UInt32.toNat_ofNat_of_lt' (by rw [UInt32.size]; omega)] at hval
          simp at hval
        · exact ⟨h, hends⟩
      · exact ⟨h, hends⟩
  | read j x raw =>
      obtain ⟨hj, hid⟩ := hpossible
      simp only [Uplinks.step]
      split
      · next hx =>
        have hreceived : Assigned T n (s.received j x (.worker (.finish raw))) :=
          h.of_all rfl rfl (all_received hx _)
        have hids (j' : Nat) := pipedIDs_received hid j'
        have hhere : (s.received j x (.worker (.finish raw))).pipedIDs j =
            (s.brokers j).attachIDs ++
              ((s.brokers j).attachRead (.worker (.finish raw))).toList := by
          rw [hids, hends j, if_pos rfl]
        refine ⟨hreceived.act hj hhere ?_ ?_, ends_act hreceived hhere ?_⟩
        · exact fun c hc => by simp [slaveRegisters] at hc
        · exact fun _ _ => rfl
        · intro j' hj'
          rw [hids, if_neg hj', List.append_nil]
          exact hends j'
      · exact ⟨h, hends⟩

/-- At the beginning no ID is made. -/
theorem assigned_init (T : Tree) (n : Nat) : Assigned T n {} where
  reached _ := ⟨[], rfl⟩
  table _ e he := by cases he
  servers _ _ _ := rfl
  made x hx := by cases hx
  distinct := List.nodup_nil

/-- And the counters are at their start. -/
theorem few_init (n : Nat) : ({} : Uplinks).few n := by
  intro i _
  show Broker.init.nextConnectionId ≤ 2 ^ 31 ∧
    Broker.init.mNextClientID < Broker.init.mNextClientID + 2 ^ 31
  decide

/-! ## Client IDs in a tree of brokers -/

/-- One master, and `n - 1` standard slaves. -/
def Standard (T : Tree) (n : Nat) : Prop :=
  (∀ j, T.master j = if 0 < j ∧ j < n then some 0 else none) ∧
    ∀ i < n, (T.cfg i).isTreeMode = false

/-- `n` brokers in tree mode, with IDs of their own below 1000. -/
def TreeMode (T : Tree) (n : Nat) : Prop :=
  ∀ i < n, (T.cfg i).isTreeMode = true ∧ (T.cfg i).theId < 1000 ∧
    ∀ j < n, (T.cfg i).theId = (T.cfg j).theId → i = j

/-- In tree mode the extended IDs tell the brokers apart. -/
theorem TreeMode.eq_of_mExtendedID (h : TreeMode T n) {i j : Nat} (hi : i < n) (hj : j < n)
    (heq : (T.cfg i).mExtendedID = (T.cfg j).mExtendedID) : i = j := by
  obtain ⟨hpos, _, hinj⟩ := h i hi
  have hpos' := (h j hj).1
  simp only [Config.isTreeMode, decide_eq_true_eq] at hpos hpos'
  rw [Config.mExtendedID, Config.mExtendedID, if_pos hpos, if_pos hpos'] at heq
  exact hinj j hj (congrArg UInt32.toInt32 heq)

namespace Standard

variable {i : Nat}

/-- In the standard topology only the first broker is a master. -/
theorem leaf (h : Standard T n) (hi : i ≠ 0) (j : Nat) : T.master j ≠ some i := by
  rw [h.1 j]
  split
  · exact fun heq => hi (Option.some.inj heq).symm
  · simp

/-- It has the extended ID 1000. -/
theorem mExtendedID_zero (h : Standard T n) (hn : 0 < n) : (T.cfg 0).mExtendedID = 1000 := by
  have hmode : ¬ 0 < (T.cfg 0).theId := by simpa [Config.isTreeMode] using h.2 0 hn
  simp [Config.mExtendedID, hmode, T.hasMaster, h.1]

/-- And its slaves have none. -/
theorem mExtendedID_slave (h : Standard T n) (hi : i ≠ 0) (hn : i < n) :
    (T.cfg i).mExtendedID = 0 := by
  have hmode : ¬ 0 < (T.cfg i).theId := by simpa [Config.isTreeMode] using h.2 i hn
  simp [Config.mExtendedID, hmode, T.hasMaster, h.1, Nat.pos_of_ne_zero hi, hn]

/-- The master has no server with the extended ID 0, and a slave no other. -/
theorem table_iff (h : Standard T n) (hn : i < n) {ext : UInt32} (htable : Table T i ext) :
    ext = 0 ↔ i ≠ 0 := by
  by_cases hi : i = 0
  · subst hi
    rcases htable with rfl | ⟨_, hne⟩
    · rw [h.mExtendedID_zero hn]
      decide
    · simpa using hne
  · rcases htable with rfl | ⟨⟨j, hj⟩, _⟩
    · simp [h.mExtendedID_slave hi hn, hi]
    · exact absurd hj (h.leaf hi j)

end Standard

/-- Two attaches to one server that got one client ID come from one broker. -/
theorem assignedBy_eq (htopology : Standard T n ∨ TreeMode T n) {counter : Nat → Nat} {x y : Attach}
    (hx : x.Made T n counter) (hy : y.Made T n counter) (hserver : x.server = y.server)
    (hid : x.clientID = y.clientID) : x.assignedBy = y.assignedBy := by
  obtain ⟨ext, htable, hext⟩ := hx.extendedID
  obtain ⟨ext', htable', hext'⟩ := hy.extendedID
  rw [← hid] at hext'
  have heq := hext.symm.trans hext'
  rcases htopology with hstandard | htree
  · rw [hstandard.2 _ hx.broker, hstandard.2 _ hy.broker] at heq
    simp only [Bool.false_eq_true, if_false] at heq
    have hzero := hstandard.table_iff hx.broker htable
    rw [heq, hstandard.table_iff hy.broker htable'] at hzero
    by_cases hmaster : x.assignedBy = 0
    · rw [hmaster]
      exact (Decidable.not_not.mp (hzero.not.mpr (not_not.mpr hmaster))).symm
    · have hmaster' : y.assignedBy ≠ 0 := hzero.mpr hmaster
      rw [← hx.server (hstandard.leaf hmaster), ← hy.server (hstandard.leaf hmaster'), hserver]
  · rw [(htree _ hx.broker).1, (htree _ hy.broker).1] at heq
    exact htree.eq_of_mExtendedID hx.broker hy.broker heq

/-- In every run of one master and its slaves, or of brokers in tree mode with different
IDs, the client IDs of two attaches to one server differ, whichever brokers assigned them
and to whom they went, as long as no counter has come round. -/
theorem clientIDs_distinct_of_along (T : Tree) (n : Nat) (htopology : Standard T n ∨ TreeMode T n)
    {es : List UplinkEvent}
    (h : Run.Along (step T) (fun s e => s.possible T n e ∧ (s.step T e).few n) {} es) :
    (Run.run (step T) {} es).attaches.Pairwise (fun x y => x.2.2.server = y.2.2.server →
      x.2.2.clientID.globalID ≠ y.2.2.clientID.globalID) := by
  obtain ⟨hassigned, _, hfew⟩ := Run.invariant
    (I := fun s => Assigned T n s ∧ Ends s ∧ s.few n)
    (fun s e hs hc => by
      obtain ⟨hassigned, hends⟩ := hs.1.step hs.2.1 hs.2.2 hc.1
      exact ⟨hassigned, hends, hc.2⟩)
    ⟨assigned_init T n, fun _ => rfl, few_init n⟩ h
  generalize Run.run (step T) {} es = s at hassigned hfew
  have hdistinct := hassigned.distinct
  rw [all, List.map_append] at hdistinct
  have hpairwise := (List.nodup_append.mp hdistinct).1
  rw [List.map_map, List.Nodup, List.pairwise_map] at hpairwise
  refine hpairwise.imp_of_mem fun {x y} hx hy hne hserver hglobal => hne ?_
  have hmade {x : Nat × Nat × Attach} (hx : x ∈ s.attaches) : x.2.2.Made T n s.counters :=
    hassigned.made _ (List.mem_append_left _ (List.mem_map_of_mem hx))
  have hbound {x : Attach} (hx : x.Made T n s.counters) : x.count < 2 ^ 32 := by
    have hlt := (hfew _ hx.broker).2
    have hcount : x.count < (s.brokers x.assignedBy).mNextClientID := hx.count
    simp only [Broker.init] at hlt
    omega
  have hid : x.2.2.clientID = y.2.2.clientID := SPartyID.globalID_inj hglobal
  have hbroker := assignedBy_eq htopology (hmade hx) (hmade hy) hserver hid
  have hcount : UInt32.ofNat x.2.2.count = UInt32.ofNat y.2.2.count := by
    rw [← (hmade hx).localID, ← (hmade hy).localID, hid]
  have hval := congrArg UInt32.toNat hcount
  rw [UInt32.toNat_ofNat_of_lt' (hbound (hmade hx)),
    UInt32.toNat_ofNat_of_lt' (hbound (hmade hy))] at hval
  exact Prod.ext hbroker hval

/-- A server of the slave is attached to at the slave and at the master, and one of the
master at the master and by a client of the slave: four client IDs, two of which differ
in the extended ID only. -/
theorem clientIDs_distinct_master_and_slave :
    let es : List UplinkEvent :=
      [.uplink 1 2 3, .own 0 (.connected 0 0 0), .own 1 (.worker (.idPing true)), .own 1 .deliver,
        .own 1 (.connected 0 0 0), .own 1 (.request 1 (.registerInterface ⟨[66], 1, 0⟩ 4 2)),
        .own 1 (.worker .pop), .send 1 1 ⟨0, 0, 0, 0⟩,
        .own 1 (.worker (.finish { status := 0, ret_val := 0 })), .own 1 .deliver,
        .own 0 (.request 2 (.registerInterface ⟨[65], 1, 0⟩ 4 1)),
        .own 1 (.request 1 (.attachInterface ⟨[66], 1, 0⟩)),
        .own 0 (.request 2 (.attachInterface ⟨[66], 1, 0⟩)),
        .own 0 (.request 2 (.attachInterface ⟨[65], 1, 0⟩)),
        .own 1 (.request 1 (.attachInterface ⟨[65], 1, 0⟩)), .own 1 (.worker .pop),
        .send 1 1 ⟨0, 0, 0, 0⟩,
        .read 1 ⟨0, 100003, (0, ⟨500001, 1000⟩), ⟨100003, 1000⟩⟩
          { status := 0, ret_val := 0,
            connInfo := ⟨1, 0, ⟨0, 4, 1⟩, ⟨500001, 1000⟩, ⟨100003, 1000⟩⟩ },
        .own 1 .deliver]
    let s := Run.run (step masterAndSlave) {} es
    s.attaches.map (fun x => (x.1, x.2.2.server.1, x.2.2.clientID)) =
        [(1, 1, ⟨100001, 0⟩), (0, 1, ⟨100001, 1001⟩), (0, 0, ⟨100002, 1000⟩),
          (1, 0, ⟨100003, 1000⟩)] ∧
      s.attaches.Pairwise (fun x y => x.2.2.server = y.2.2.server →
        x.2.2.clientID.globalID ≠ y.2.2.clientID.globalID) :=
  ⟨by decide +kernel, clientIDs_distinct_of_along masterAndSlave 2
    (.inl ⟨fun j => by simp only [masterAndSlave]; congr 1; simp; omega, by decide⟩)
    (by decide +kernel)⟩

end Uplinks

end Dsi
