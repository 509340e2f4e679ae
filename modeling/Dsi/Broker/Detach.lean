import Dsi.Broker.ClientGone
import Dsi.Broker.PoolCount

/-!
# Dsi.Broker.Detach

Where a `DETACH_INTERFACE` request goes on a broker with a master.  A client ID was
given to its connection by this broker or by the master, which the history tells;
the request has to take the client out of the table here, or to become a job for the
master.  `handleDetachInterface` decides by `ClientList::find`, which compares the
local halves of the IDs only.
-/

namespace Dsi

open Sequence

/-- The client ID that an output of the broker hands on from the master. -/
def Output.masterClient? : Output → Option (Nat × SPartyID)
  | .deferredResponse c ⟨_, .connInfo info⟩ => some (c, info.clientID)
  | _ => none

/-- The client that a job detaches. -/
def Job.detachID? (j : Job) : Option SPartyID :=
  match j.arg with
  | .detachInterface id => some id
  | _ => none

namespace Broker

/-- The connection got this client ID from the master. -/
def givenByMaster (b : Broker) (c : Nat) (id : SPartyID) : Bool :=
  (b.log.filterMap Output.masterClient?).contains (c, id)

/-- The clients that the master was asked to detach. -/
def detachJobs (b : Broker) : List SPartyID := b.jobs.filterMap Job.detachID?

/-- Exactly one entry leaves the client table, and it has this ID. -/
def RemovesClient (id : SPartyID) (b b' : Broker) : Prop :=
  ∃ l₁ e l₂, b.mAttachedClients = l₁ ++ e :: l₂ ∧ e.mClientId = id ∧
    b'.mAttachedClients = l₁ ++ l₂

/-- The detach reaches the broker that gave the ID: a job with the ID goes to the
master and the table here stays, or the client leaves the table here and the master
is not asked. -/
def DetachReaches (cfg : Config) (b : Broker) (c : Nat) (id : SPartyID) : Prop :=
  let b' := b.step cfg (.request c (.detachInterface id))
  if b.givenByMaster c id then
    b'.mAttachedClients = b.mAttachedClients ∧ b'.detachJobs = b.detachJobs ++ [id]
  else RemovesClient id b b' ∧ b'.detachJobs = b.detachJobs

/-- The condition of `handleDetachInterface`. -/
def detachesHere (b : Broker) (c : Nat) (id : SPartyID) : Bool :=
  (b.dataOf c).mClientList.contains id && b.mAttachedClients.finds id

/-! ## The step -/

theorem detachJobs_sweep (cfg : Config) (once : Bool) (k : NotificationKind)
    (act : Broker → Notification → Action) (b : Broker) :
    (b.sweep cfg once k act).detachJobs = b.detachJobs := by
  obtain ⟨ids, hids⟩ := clears_sweep cfg once k act b
  rw [detachJobs, hids, List.filterMap_append, List.filterMap_map]
  have hnone : Job.detachID? ∘ clearJob = fun _ => none := rfl
  rw [hnone]
  simp [detachJobs]

theorem detachJobs_emit {o : Output} (h : o.job? = none) (b : Broker) :
    (b.emit o).detachJobs = b.detachJobs := by
  simp [detachJobs, jobs, emit, h]

theorem clients_step_detach (cfg : Config) {b : Broker} {c : Nat} {k : Connection}
    (hk : b.conns c = some k) (hdeferred : k.deferred = false) (id : SPartyID) :
    (b.step cfg (.request c (.detachInterface id))).mAttachedClients =
      if b.detachesHere c id then b.mAttachedClients.remove id else b.mAttachedClients := by
  rw [Broker.step, (quiet_request cfg (.detachInterface id) hk hdeferred rfl).clients]
  exact clients_handleDetachInterface cfg (k.ctx c) id b

theorem detachJobs_step_detach {cfg : Config} {b : Broker} {c : Nat} {k : Connection}
    (hk : b.conns c = some k) (hdeferred : k.deferred = false)
    (hmaster : b.isMasterConnected cfg = true) (id : SPartyID) :
    (b.step cfg (.request c (.detachInterface id))).detachJobs =
      if b.detachesHere c id then b.detachJobs else b.detachJobs ++ [id] := by
  have hhere : ((b.dataOf c).mClientList.contains id && b.mAttachedClients.finds id) =
    b.detachesHere c id := rfl
  simp only [Broker.step, request, hk, hdeferred, Broker.dispatch, handleDetachInterface,
    Connection.ctx, hmaster, if_true, hhere]
  cases b.detachesHere c id with
  | true => exact (detachJobs_emit rfl _).trans (detachJobs_sweep cfg false .clientDetach _ b)
  | false =>
      have hjobs := jobs_eval (⟨0, some c, .detachInterface id⟩ : Job) b
      exact (congrArg (List.filterMap Job.detachID?) hjobs).trans List.filterMap_append

theorem removesClient_iff {b b' : Broker} {id : SPartyID}
    (h : b'.mAttachedClients = b.mAttachedClients.remove id) :
    RemovesClient id b b' ↔ ClientThere b id := by
  constructor
  · rintro ⟨l₁, e, l₂, hl, hid, _⟩
    exact ⟨e, by simp [hl], hid⟩
  · rintro ⟨e, he, hid⟩
    obtain ⟨e', l₁, l₂, _, hid', hl, herase⟩ :=
      List.exists_of_eraseP (p := fun e : ClientListEntry => e.mClientId = id) he
        (by simpa using hid)
    exact ⟨l₁, e', l₂, hl, by simpa using hid', h.trans herase⟩

/-! ## Runs -/

/-- In every state that a broker can reach, with the master connected: no detach takes
a client with another ID out of the table; the detach of an ID that the master gave
reaches the master if and only if the request is not taken for one of a client here,
which it is as soon as some client here has the same local ID; and the detach of an ID
that this broker gave reaches the client here if and only if the client is still
attached and in the ID list of its connection. -/
theorem detachReaches_iff (cfg : Config) (es : List Event) (c : Nat) (k : Connection)
    (id : SPartyID) (hk : (Run.run (step cfg) init es).conns c = some k)
    (hdeferred : k.deferred = false)
    (hmaster : (Run.run (step cfg) init es).isMasterConnected cfg = true) :
    let b := Run.run (step cfg) init es
    (∀ e ∈ b.mAttachedClients, e.mClientId ≠ id →
        e ∈ (b.step cfg (.request c (.detachInterface id))).mAttachedClients) ∧
      (DetachReaches cfg b c id ↔
        if b.givenByMaster c id then
          ¬ (k.data.mClientList.contains id = true ∧
            ∃ e ∈ b.mAttachedClients, e.mClientId.localID = id.localID)
        else
          k.data.mClientList.contains id = true ∧
            ∃ e ∈ b.mAttachedClients, e.mClientId = id) := by
  intro b
  have hk : b.conns c = some k := hk
  have hmaster : b.isMasterConnected cfg = true := hmaster
  have hclients := clients_step_detach cfg hk hdeferred id
  have hjobs := detachJobs_step_detach hk hdeferred hmaster id
  have hfinds : b.mAttachedClients.finds id = true ↔
      ∃ e ∈ b.mAttachedClients, e.mClientId.localID = id.localID := by
    simp [ClientList.finds, SPartyID.opEq]
  have hhere : b.detachesHere c id = true ↔ k.data.mClientList.contains id = true ∧
      ∃ e ∈ b.mAttachedClients, e.mClientId.localID = id.localID := by
    rw [detachesHere, dataOf_eq hk, Bool.and_eq_true, hfinds]
  have hlength : b.detachJobs ++ [id] ≠ b.detachJobs := by simp
  refine ⟨fun e he hne => ?_, ?_⟩
  · rw [hclients]
    split
    · exact (List.mem_eraseP_of_neg (by simpa using hne)).mpr he
    · exact he
  unfold DetachReaches
  dsimp only
  split
  · rw [← hhere]
    constructor
    · rintro ⟨_, hsent⟩ hmine
      rw [hjobs, if_pos hmine] at hsent
      exact hlength hsent.symm
    · intro hnot
      rw [hclients, hjobs, if_neg hnot, if_neg hnot]
      exact ⟨rfl, rfl⟩
  · constructor
    · rintro ⟨hremoved, hunsent⟩
      by_cases hmine : b.detachesHere c id = true
      · rw [if_pos hmine] at hclients
        exact ⟨(hhere.mp hmine).1, (removesClient_iff hclients).mp hremoved⟩
      · rw [hjobs, if_neg hmine] at hunsent
        exact absurd hunsent hlength
    · rintro ⟨hheld, e, he, hid⟩
      have hmine := hhere.mpr ⟨hheld, e, he, by rw [hid]⟩
      rw [if_pos hmine] at hclients hjobs
      exact ⟨(removesClient_iff hclients).mpr ⟨e, he, hid⟩, hjobs⟩

/-- The master answers an attach with its own client 100001. -/
def remoteReply : JobResult where
  status := 0
  ret_val := 0
  connInfo := ⟨1, 0, ⟨0, 0, 1⟩, ⟨500001, 1000⟩, ⟨100001, 1000⟩⟩

/-- Client 2 attaches to an interface at the master. -/
def remoteAttach : List Event :=
  [.request 2 (.attachInterface ⟨[66], 1, 0⟩), .worker .pop, .worker (.finish remoteReply),
    .deliver]

/-- With no client here the detach goes to the master. -/
theorem detachReaches_remote :
    let b := Run.run (step slaveConfig) init (slaveWithTwoClients ++ remoteAttach)
    b.givenByMaster 2 ⟨100001, 1000⟩ = true ∧ DetachReaches slaveConfig b 2 ⟨100001, 1000⟩ :=
  ⟨by decide, (detachReaches_iff slaveConfig (slaveWithTwoClients ++ remoteAttach) 2 _
    ⟨100001, 1000⟩ rfl rfl rfl).2.mpr (by decide)⟩

/-- Client 1 is attached to a server here, as 100001 with the extended ID 0; then
the detach of client 2 from the server at the master does not get there. -/
theorem not_detachReaches_same_local_id :
    let b := Run.run (step slaveConfig) init (slaveWithTwoClients ++
      [.request 1 (.registerInterface ⟨[65], 1, 0⟩ 0 1), .worker .pop,
        .worker (.finish { status := 0, ret_val := 0, serverID := fun _ => ⟨500001, 1001⟩ }),
        .deliver, .request 1 (.attachInterface ⟨[65], 1, 0⟩)] ++ remoteAttach)
    b.givenByMaster 2 ⟨100001, 1000⟩ = true ∧
      b.mAttachedClients = [⟨⟨100001, 0⟩, ⟨500001, 0⟩, 1⟩] ∧
      ¬ DetachReaches slaveConfig b 2 ⟨100001, 1000⟩ := by
  intro b
  refine ⟨by decide, by decide, ?_⟩
  unfold DetachReaches
  rw [if_pos (by decide)]
  decide

end Broker

end Dsi
