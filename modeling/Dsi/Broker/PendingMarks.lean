import Dsi.Broker.MasterIDs

/-!
# Dsi.Broker.PendingMarks

The pending mark of the server table.  `registerInterfacesMaster` sets it when it puts the record
of an entry into a batch.  Only an ID of the reply takes it away again, so it outlives a refusal.

* `marks_of_along`: when the marked entries are those that a batch in flight has.
* `stepResolves_connect_of_alone`: what its condition on a new connection asks for once the loss of
  the master was processed.
-/

namespace Dsi

open Sequence

namespace Broker

variable {cfg : Config} {b b' : Broker}

/-- The records of the batches whose reply is not yet processed. -/
def inFlight (b : Broker) : List SFNDInterfaceDescriptionEx := b.registerJobs.flatMap Job.batch

/-- An entry carries the pending mark exactly when a batch in flight has its record. -/
def Marked (b : Broker) : Prop :=
  ∀ e ∈ b.mConnectedServers.entries, e.masterID = pendingMasterID ↔ registerRecord e ∈ b.inFlight

/-- The order of the batches does not count. -/
theorem mem_inFlight_of_perm (h : b'.registerJobs.Perm b.registerJobs)
    {r : SFNDInterfaceDescriptionEx} : r ∈ b'.inFlight ↔ r ∈ b.inFlight := by
  simp only [inFlight, List.mem_flatMap, h.mem_iff]

/-- With fewer entries and the same batches the marks still say what is under way. -/
theorem Marked.loses (h : Marked b) (hl : Loses b b') : Marked b' := fun e he =>
  (h e (hl.servers.subset he)).trans (mem_inFlight_of_perm hl.jobs).symm

/-- The records of the batches of `registerInterfacesMaster`. -/
theorem flatMap_registerBatches (b : Broker) : (b.registerBatches cfg).flatMap Job.batch =
    (b.mConnectedServers.entries.filter (registerEligible cfg)).map registerRecord := by
  rw [registerBatches, List.flatMap_map]
  show List.flatMap id _ = _
  rw [List.flatMap_id, flatten_batches, List.nil_append]

/-- What is under way behind a registration: what was, and the entries that could be sent. -/
theorem mem_inFlight_registerInterfacesMaster (hmaster : b.isMasterConnected cfg = true)
    {r : SFNDInterfaceDescriptionEx} :
    r ∈ (b.registerInterfacesMaster cfg).inFlight ↔ r ∈ b.inFlight ∨
      ∃ e ∈ b.mConnectedServers.entries, registerEligible cfg e = true ∧ registerRecord e = r := by
  rw [inFlight, registerJobs_registerInterfacesMaster hmaster, List.flatMap_append,
    flatMap_registerBatches, List.mem_append]
  simp only [inFlight, List.mem_map, List.mem_filter, and_assoc]

/-- The records of the job are of interfaces that are forwarded. -/
def Forwards (cfg : Config) (j : Job) : Prop :=
  ∀ r ∈ j.batch, cfg.forwardService r.ifDescription.name = true

/-- Every batch is one that forwards its records. -/
theorem forwards_registerBatches (b : Broker) : ∀ j ∈ b.registerBatches cfg, Forwards cfg j := by
  intro j hj r hr
  have hmem : r ∈ (b.registerBatches cfg).flatMap Job.batch := List.mem_flatMap.mpr ⟨j, hj, hr⟩
  rw [flatMap_registerBatches] at hmem
  obtain ⟨e, he, rfl⟩ := List.mem_map.mp hmem
  have helig := (List.mem_filter.mp he).2
  exact (Bool.and_eq_true_iff.mp helig).2

/-! ## Replies -/

/-- The IDs that a reply writes. -/
def writtenIDs (ids : List SPartyID) : List SPartyID :=
  ids.filter (fun id => id.extendedID ≠ 0xffffffff)

/-- Of the pending entries the first `n` are in no other batch, and the others are marked if they
are in one. -/
def resolves (n : Nat) (F : List SFNDInterfaceDescriptionEx)
    (pending : List ServerListEntry) : Bool :=
  (pending.take n).all (fun e => registerRecord e ∉ F) &&
    (pending.drop n).all (fun e => e.masterID = pendingMasterID ↔ registerRecord e ∈ F)

/-- An entry that a reply resolves is not under way any more. -/
theorem resolves_cons_succ {n : Nat} {F : List SFNDInterfaceDescriptionEx} {e : ServerListEntry}
    {es : List ServerListEntry} : resolves (n + 1) F (e :: es) = true ↔
      registerRecord e ∉ F ∧ resolves n F es = true := by
  simp only [resolves, List.take_succ_cons, List.drop_succ_cons, List.all_cons, Bool.and_eq_true,
    decide_eq_true_eq, and_assoc]

/-- What is left behind a reply with these IDs. -/
structure Resolves (ids : List SPartyID) (F : List SFNDInterfaceDescriptionEx) (b : Broker) :
    Prop where
  localID : ∀ id ∈ writtenIDs ids, id.localID ≠ 0xffffffff
  pending : ∀ l, resolves ((writtenIDs ids).countP (·.localID = l)) F (b.pendingWith l) = true
  others : ∀ e ∈ b.mConnectedServers.entries, e.masterID.localID ≠ 0xffffffff →
    registerRecord e ∉ F

namespace Resolves

variable {id : SPartyID} {ids : List SPartyID} {F : List SFNDInterfaceDescriptionEx}

/-- The servers are all that counts. -/
theorem of_servers (h : Resolves ids F b) (hservers : b'.mConnectedServers = b.mConnectedServers) :
    Resolves ids F b' :=
  ⟨h.localID, fun l => pendingWith_congr hservers l ▸ h.pending l, hservers ▸ h.others⟩

/-- The other IDs behind the first one. -/
theorem tail (h : Resolves (id :: ids) F b) : Resolves ids F (b.finishRegisterRecord cfg id) := by
  by_cases hid : id.extendedID = 0xffffffff
  · have hwritten : writtenIDs (id :: ids) = writtenIDs ids :=
      List.filter_cons_of_neg (by simp [hid])
    refine of_servers ?_ (servers_finishRegisterRecord (Or.inr hid))
    exact ⟨hwritten ▸ h.localID, hwritten ▸ h.pending, h.others⟩
  have hwritten : writtenIDs (id :: ids) = id :: writtenIDs ids :=
    List.filter_cons_of_pos (by simp [hid])
  have hlocal : ∀ id' ∈ writtenIDs ids, id'.localID ≠ 0xffffffff := fun id' hid' =>
    h.localID id' (hwritten ▸ List.mem_cons_of_mem _ hid')
  have hpending (l : UInt32) := h.pending l
  simp only [hwritten, List.countP_cons, decide_eq_true_eq] at hpending
  cases hfind : b.mConnectedServers.findByLocalIDandInvalidMasterID id.localID with
  | none =>
      refine of_servers ⟨hlocal, fun l => ?_, h.others⟩
        (servers_finishRegisterRecord (Or.inl hfind))
      by_cases hl : id.localID = l
      · subst hl
        rw [find_eq_head_pendingWith, List.head?_eq_none_iff] at hfind
        rw [hfind]
        simp [resolves]
      · have hsame := hpending l
        rwa [if_neg hl] at hsame
  | some e =>
      have hhere := hpending id.localID
      have hbehind := pendingWith_finishRegisterRecord cfg hfind hid
        (h.localID id (hwritten ▸ List.mem_cons_self))
      rw [hbehind, if_pos rfl, if_pos rfl, List.singleton_append, resolves_cons_succ] at hhere
      refine ⟨hlocal, fun l => ?_, ?_⟩
      · by_cases hl : id.localID = l
        · exact hl ▸ hhere.2
        · have hsame := hpending l
          rwa [hbehind, if_neg hl, if_neg hl, List.nil_append] at hsame
      · obtain ⟨front, back, l, hentries, hl, hfinish⟩ :=
          finishRegisterRecord_of_some cfg hfind hid
        rw [hfinish]
        intro e' he' hne
        have he' : e' ∈ front ++ { e with masterID := id } :: back := hl ▸ he'
        rw [List.mem_append, List.mem_cons] at he'
        have hold (hmem : e' ∈ front ∨ e' ∈ back) : e' ∈ b.mConnectedServers.entries := by
          rw [hentries, List.mem_append, List.mem_cons]
          exact hmem.imp_right Or.inr
        rcases he' with hfront | rfl | hback
        · exact h.others e' (hold (Or.inl hfront)) hne
        · exact hhere.1
        · exact h.others e' (hold (Or.inr hback)) hne

/-- Where nothing is left to be resolved, the marks say what is under way. -/
theorem marks (h : Resolves [] F b) : ∀ e ∈ b.mConnectedServers.entries,
    e.masterID = pendingMasterID ↔ registerRecord e ∈ F := by
  intro e he
  by_cases hmark : e.masterID.localID = 0xffffffff
  · have hall := h.pending e.partyID.localID
    have hmem : e ∈ b.pendingWith e.partyID.localID := mem_pendingWith.mpr ⟨he, rfl, hmark⟩
    simp only [writtenIDs, List.filter_nil, List.countP_nil, resolves, List.take_zero,
      List.drop_zero, List.all_nil, Bool.true_and, List.all_eq_true, decide_eq_true_eq] at hall
    exact hall e hmem
  · refine iff_of_false (fun hpending => ?_) (h.others e he hmark)
    exact hmark (congrArg SPartyID.localID hpending)

/-- Every record of a reply that resolves is finished. -/
theorem finishAll (h : Resolves ids F b) :
    Resolves [] F (ids.foldl (finishRegisterRecord cfg) b) := by
  induction ids generalizing b with
  | nil => exact h
  | cons id ids ih => exact ih h.tail

end Resolves

end Broker

/-- The IDs of a reply that are evaluated. -/
def Job.evaluatedIDs (j : Job) (res : JobResult) : List SPartyID :=
  if res.status = 0 then j.replyIDs res else []

/-- The records that got no ID. -/
def Job.refused (j : Job) (res : JobResult) : List SFNDInterfaceDescriptionEx :=
  if res.status = 0 then
    ((j.batch.zip (j.replyIDs res)).filter (fun x => x.2.extendedID = 0xffffffff)).map Prod.fst
  else j.batch

namespace Broker

variable {cfg : Config} {b b' : Broker}

/-- The IDs of a reply resolve the marks of its batch. -/
def replyResolves (job : Job) (res : JobResult) (b : Broker) : Bool :=
  let ids := writtenIDs (job.evaluatedIDs res)
  ids.all (fun id => id.localID ≠ 0xffffffff) &&
    b.mConnectedServers.entries.all (fun e =>
      resolves (ids.countP (·.localID = e.partyID.localID)) b.inFlight
        (b.pendingWith e.partyID.localID)) &&
    (job.refused res).all (fun r => r ∈ b.inFlight ||
      b.mConnectedServers.entries.all (fun e => registerRecord e ≠ r))

/-- A reply that meets the condition resolves its batch. -/
theorem resolves_of_replyResolves {job : Job} {res : JobResult}
    (h : replyResolves job res b = true)
    (hothers : ∀ e ∈ b.mConnectedServers.entries, e.masterID ≠ pendingMasterID →
      registerRecord e ∉ b.inFlight) : Resolves (job.evaluatedIDs res) b.inFlight b := by
  simp only [replyResolves, Bool.and_eq_true, List.all_eq_true, decide_eq_true_eq] at h
  refine ⟨h.1.1, fun l => ?_, fun e he hmark => hothers e he fun hpending => ?_⟩
  · cases hpending : b.pendingWith l with
    | nil => simp [resolves]
    | cons e es =>
        obtain ⟨he, rfl, -⟩ := mem_pendingWith.mp (hpending ▸ List.mem_cons_self (a := e))
        rw [← hpending]
        exact h.1.2 e he
  · exact hmark (congrArg SPartyID.localID hpending)

/-- A record that is finished makes no batch. -/
theorem registerJobs_finishRegisterRecord (cfg : Config) (b : Broker) (id : SPartyID) :
    (b.finishRegisterRecord cfg id).registerJobs = b.registerJobs := by
  cases hfind : b.mConnectedServers.findByLocalIDandInvalidMasterID id.localID with
  | none =>
      rw [finishRegisterRecord_of_none hfind, unregisterInterfaceMaster]
      split
      · exact registerJobs_eval rfl b
      · rfl
  | some e =>
      by_cases hid : id.extendedID = 0xffffffff
      · rw [finishRegisterRecord_of_refused hfind hid]
      obtain ⟨front, back, l, hentries, hl, hfinish⟩ :=
        finishRegisterRecord_of_some cfg hfind hid
      rw [hfinish]
      rfl

/-- Nor do all of them. -/
theorem registerJobs_finishAll (cfg : Config) (ids : List SPartyID) (b : Broker) :
    (ids.foldl (finishRegisterRecord cfg) b).registerJobs = b.registerJobs := by
  induction ids generalizing b with
  | nil => rfl
  | cons id ids ih => exact (ih _).trans (registerJobs_finishRegisterRecord cfg b id)

/-- A reply to a batch evaluates its IDs one after the other. -/
theorem handleJobFinished_evaluates {job : Job} (hjob : isRegisterJob job = true)
    (res : JobResult) :
    Quiet ((job.evaluatedIDs res).foldl (finishRegisterRecord cfg) b)
      (b.handleJobFinished cfg job res) := by
  unfold Job.evaluatedIDs
  split
  · next hstatus => exact handleJobFinished_register hjob hstatus
  · next hstatus =>
    rw [handleJobFinished, if_neg hstatus]
    exact quiet_finalize _ _ b

/-- Behind a reply that resolves the marks say what is under way. -/
theorem marked_handleJobFinished {job : Job} (hjob : isRegisterJob job = true) {res : JobResult}
    (h : Resolves (job.evaluatedIDs res) b.inFlight b) :
    Marked (b.handleJobFinished cfg job res) := by
  refine Marked.loses (fun e he => ?_) (handleJobFinished_evaluates hjob res).loses
  rw [h.finishAll.marks e he]
  exact (mem_inFlight_of_perm (.of_eq (registerJobs_finishAll cfg _ b))).symm

/-- A reply leaves the records of the table and what else is in flight. -/
theorem records_handleJobFinished {job : Job} (hjob : isRegisterJob job = true) (res : JobResult) :
    (b.handleJobFinished cfg job res).mConnectedServers.entries.map registerRecord =
        b.mConnectedServers.entries.map registerRecord ∧
      (b.handleJobFinished cfg job res).registerJobs = b.registerJobs := by
  have hquiet : Quiet ((job.evaluatedIDs res).foldl (finishRegisterRecord cfg) b)
      (b.handleJobFinished cfg job res) := handleJobFinished_evaluates hjob res
  constructor
  · rw [hquiet.servers]
    exact (finishes_finishAll cfg _ b).records
  · exact hquiet.registerJobs.trans (registerJobs_finishAll cfg _ b)

/-! ## Requests -/

/-- The servers that a request adds are in no batch: those of a slave get the mark anyway. -/
def addsUnsent (cfg : Config) (ctx : SocketConnectionContext) (b : Broker) : Request → Bool
  | .registerMasterInterfaceEx _ _ => true
  | r => b.addsServers cfg (fun r b => r ∉ b.inFlight) ctx r

/-- A new entry has a new name. -/
theorem NamesNodup.addEntry (h : NamesNodup b) (c : Nat) {e : ServerListEntry} {next : Nat}
    (hname : b.mConnectedServers.findName e.ifDescription.name = none)
    (he : e.masterID = noPartyID) :
    NamesNodup ({ b with mNextServerID := next }.addEntry cfg c e) :=
  h.prim (.addEntry b c e next hname he)

/-- Entries that go take their names along. -/
theorem NamesNodup.loses (h : NamesNodup b) (hl : Loses b b') : NamesNodup b' :=
  h.sublist (hl.servers.map _)

/-- A new entry is not under way. -/
theorem inFlight_addEntry (cfg : Config) (c : Nat) (e : ServerListEntry) (next : Nat)
    (b : Broker) : ({ b with mNextServerID := next }.addEntry cfg c e).inFlight = b.inFlight := by
  rw [inFlight, registerJobs_addEntry]
  rfl

/-- The entries with the mark are in flight, and those in flight have it or will get it. -/
structure WillBeMarked (cfg : Config) (b : Broker) : Prop where
  names : NamesNodup b
  sent : ∀ e ∈ b.mConnectedServers.entries, e.masterID = pendingMasterID →
    registerRecord e ∈ b.inFlight
  mark : ∀ e ∈ b.mConnectedServers.entries, registerRecord e ∈ b.inFlight →
    e.masterID = pendingMasterID ∨ registerEligible cfg e = true

/-- What is marked will be. -/
theorem Marked.willBeMarked (h : Marked b) (hnames : NamesNodup b) : WillBeMarked cfg b :=
  ⟨hnames, fun e he => (h e he).mp, fun e he hsent => Or.inl ((h e he).mpr hsent)⟩

/-- A new entry that is under way under its name can be sent again. -/
theorem WillBeMarked.addEntry (h : WillBeMarked cfg b) (c : Nat) {e : ServerListEntry}
    {next : Nat} (hname : b.mConnectedServers.findName e.ifDescription.name = none)
    (he : e.masterID = noPartyID)
    (hmark : registerRecord e ∈ b.inFlight → registerEligible cfg e = true) :
    WillBeMarked cfg ({ b with mNextServerID := next }.addEntry cfg c e) := by
  refine ⟨h.names.addEntry c hname he, fun e' he' hpending => ?_, fun e' he' hsent => ?_⟩ <;>
    rw [servers_addEntry] at he'
  · rw [inFlight_addEntry]
    cases ServerList.mem_add.mp he' with
    | inl hnew => exact absurd (hpending.symm.trans (hnew ▸ he)) (by decide)
    | inr hold => exact h.sent e' hold hpending
  · rw [inFlight_addEntry] at hsent
    cases ServerList.mem_add.mp he' with
    | inl hnew => exact Or.inr (hnew ▸ hmark (hnew ▸ hsent))
    | inr hold => exact h.mark e' hold hsent

/-- A new entry that is not under way is not marked. -/
theorem Marked.addEntry (h : Marked b) (c : Nat) {e : ServerListEntry} {next : Nat}
    (he : e.masterID = noPartyID) (hunsent : registerRecord e ∉ b.inFlight) :
    Marked ({ b with mNextServerID := next }.addEntry cfg c e) := by
  intro e' he'
  rw [servers_addEntry] at he'
  rw [inFlight_addEntry]
  cases ServerList.mem_add.mp he' with
  | inl hnew =>
      rw [hnew]
      exact iff_of_false (fun hpending => absurd (hpending.symm.trans he) (by decide)) hunsent
  | inr hold => exact h e' hold

/-- Different entries have different records, since their names differ. -/
theorem NamesNodup.eq_of_record (h : NamesNodup b) {e e' : ServerListEntry}
    (he : e ∈ b.mConnectedServers.entries) (he' : e' ∈ b.mConnectedServers.entries)
    (hrecord : registerRecord e = registerRecord e') : e = e' :=
  List.inj_on_of_nodup_map h he he'
    (congrArg (fun r : SFNDInterfaceDescriptionEx => r.ifDescription.name) hrecord)

/-- A registration marks what could be sent. -/
theorem WillBeMarked.registerInterfacesMaster (h : WillBeMarked cfg b)
    (hmaster : b.isMasterConnected cfg = true) : Marked (b.registerInterfacesMaster cfg) := by
  intro e' he'
  rw [entries_registerInterfacesMaster hmaster] at he'
  obtain ⟨e, he, rfl⟩ := List.mem_map.mp he'
  rw [mem_inFlight_registerInterfacesMaster hmaster]
  by_cases helig : registerEligible cfg e = true
  · refine iff_of_true (if_pos helig) (Or.inr ⟨e, he, helig, rfl⟩)
  have hsame : marked cfg e = e := by rw [marked, if_neg helig]
  rw [hsame]
  constructor
  · intro hpending
    exact Or.inl (h.sent e he hpending)
  · rintro (hold | ⟨e₁, he₁, helig₁, hrecord⟩)
    · exact (h.mark e he hold).resolve_right helig
    · rw [h.names.eq_of_record he₁ he hrecord] at helig₁
      exact absurd helig₁ helig

/-- A registration does not touch the connection to the master. -/
theorem isMasterConnected_registerInterfacesMaster (cfg : Config) (b : Broker) :
    (b.registerInterfacesMaster cfg).isMasterConnected cfg = b.isMasterConnected cfg := by
  rw [Broker.isMasterConnected, (registerInterfacesMaster_frame cfg b).2.2.2.2.2.2.2]
  rfl

/-- A request of a slave adds servers and forwards them. -/
theorem marked_handleRegisterMasterInterface (hforward : EveryBatch (Forwards cfg) b)
    (h : Marked b) (hnames : NamesNodup b) (ctx : SocketConnectionContext) (n : Int32)
    (rs : List SFNDInterfaceDescriptionEx)
    (hmaster : (b.handleRegisterMasterInterface cfg ctx n rs).1.isMasterConnected cfg = true) :
    Marked (b.handleRegisterMasterInterface cfg ctx n rs).1 := by
  have hrecord (r : SFNDInterfaceDescriptionEx) (b : Broker)
      (hb : WillBeMarked cfg b ∧ EveryBatch (Forwards cfg) b) :
      WillBeMarked cfg (b.registerMasterRecord cfg ctx r).2 ∧
        EveryBatch (Forwards cfg) (b.registerMasterRecord cfg ctx r).2 := by
    unfold Broker.registerMasterRecord
    split
    · exact hb
    · next hrefuse =>
      have hname : b.mConnectedServers.findName r.ifDescription.name = none := by
        simp only [refusesRecord, Bool.or_eq_true, not_or] at hrefuse
        simpa using hrefuse.1.2
      have hmark (hsent : registerRecord (masterEntry ctx r) ∈ b.inFlight) :
          registerEligible cfg (masterEntry ctx r) = true := by
        obtain ⟨j, hj, hr⟩ := List.mem_flatMap.mp hsent
        have hservice := hb.2 j hj _ hr
        exact Bool.and_eq_true_iff.mpr ⟨rfl, hservice⟩
      constructor
      · exact @WillBeMarked.addEntry cfg b hb.1 ctx.mId _ b.mNextServerID hname rfl hmark
      · exact hb.2.of_subset (by rw [registerJobs_addEntry]; exact List.Subset.refl _)
  have hloop : WillBeMarked cfg (recordLoop (registerMasterRecord cfg ctx) n.toInt.toNat rs b).2 ∧
      EveryBatch (Forwards cfg) (recordLoop (registerMasterRecord cfg ctx) n.toInt.toNat rs b).2 :=
    recordLoop_preserves ⟨h.willBeMarked hnames, hforward⟩ fun r _ s hs => hrecord r s hs
  refine handleRegisterMasterInterface_leaves
    (I := fun b' => b'.isMasterConnected cfg = true → Marked b') (fun hstill => ?_) hmaster
  rw [isMasterConnected_registerInterfacesMaster] at hstill
  exact hloop.1.registerInterfacesMaster hstill

/-- A request resolves no mark. -/
theorem Marked.dispatch (hforward : EveryBatch (Forwards cfg) b) (h : Marked b)
    (hnames : NamesNodup b) {ctx : SocketConnectionContext} {r : Request}
    (hnew : addsUnsent cfg ctx b r = true)
    (hmaster : (b.dispatch cfg ctx r).1.isMasterConnected cfg = true) :
    Marked (b.dispatch cfg ctx r).1 := by
  unfold addsUnsent at hnew
  split at hnew
  · next n rs => exact marked_handleRegisterMasterInterface hforward h hnames ctx n rs hmaster
  · refine (dispatch_preserves (I := fun b => NamesNodup b ∧ Marked b) ?_ ?_ ?_ hnew
      ⟨hnames, h⟩).2
    · exact fun b b' hl _ hb => ⟨hb.1.loses hl, hb.2.loses hl⟩
    · intro b c e next he hname hunsent hb
      rw [decide_eq_true_eq] at hunsent
      exact ⟨hb.1.addEntry c hname he, hb.2.addEntry c he hunsent⟩
    · intro b hb
      refine ⟨NamesNodup.prim hb.1 (.registerMaster b), ?_⟩
      cases hmaster : b.isMasterConnected cfg with
      | false =>
          rw [registerInterfacesMaster_eq, hmaster, if_neg Bool.false_ne_true]
          exact hb.2
      | true => exact (hb.2.willBeMarked hb.1).registerInterfacesMaster hmaster

/-! ## Steps -/

/-- The condition on a step: a reply resolves the marks of its batch, and a connection that is lost
or made finds marks that fit. -/
def stepResolves (cfg : Config) (b : Broker) : Event → Bool
  | .request c r =>
      !b.isMasterConnected cfg || match b.conns c with
        | none => true
        | some k => k.deferred || addsUnsent cfg (k.ctx c) b r
  | .deliver =>
      !b.isMasterConnected cfg || match b.pipe with
        | .jobExecuted job res :: rest =>
            !isRegisterJob job || replyResolves job res { b with pipe := rest }
        | .masterDisconnected :: _ =>
            b.mConnectedServers.entries.all (fun e => registerRecord e ∉ b.inFlight)
        | _ => true
  | .worker .connect =>
      !cfg.hasMaster || b.phase ≠ .disconnected || b.mConnectedServers.entries.all (fun e =>
        e.masterID = pendingMasterID ↔ registerRecord e ∈ b.inFlight)
  | _ => true

/-- What holds in every state of a run. -/
structure MarksInv (cfg : Config) (b : Broker) : Prop where
  peers : Peers (fun _ _ => True) b
  names : NamesNodup b
  forward : EveryBatch (Forwards cfg) b
  marks : b.isMasterConnected cfg = true → Marked b

/-- At the beginning nothing is registered, so nothing has to be marked. -/
theorem marksInv_init : MarksInv cfg init where
  peers := ⟨rfl, fun _ _ _ => trivial⟩
  names := List.nodup_nil
  forward := nofun
  marks := nofun

/-- Only `connect` gives the worker a master that was not there. -/
theorem isMasterConnected_workerStep {w : WorkerStep} (hw : w ≠ .connect)
    (h : (b.workerStep w).isMasterConnected cfg = true) : b.isMasterConnected cfg = true := by
  unfold workerStep at h
  split at h
  case h_2 => exact absurd rfl hw
  case h_6 =>
    split at h
    · exact h
    · simp [Broker.isMasterConnected, disconnectMaster] at h
  all_goals simp_all [Broker.isMasterConnected, disconnectMaster]

/-- What is in flight but the first message in the pipe. -/
theorem inFlight_pipe {m : InternalNotification} {rest : List InternalNotification}
    (hpipe : b.pipe = m :: rest) {r : SFNDInterfaceDescriptionEx}
    (h : r ∈ ({ b with pipe := rest } : Broker).inFlight) : r ∈ b.inFlight := by
  obtain ⟨j, hj, hr⟩ := List.mem_flatMap.mp h
  refine List.mem_flatMap.mpr ⟨j, ?_, hr⟩
  rw [registerJobs_pipe hpipe]
  exact List.mem_append_right _ hj

/-- A message that is no reply to a batch leaves what is in flight. -/
theorem Marked.pipe (h : Marked b) {m : InternalNotification} {rest : List InternalNotification}
    (hpipe : b.pipe = m :: rest)
    (hm : ∀ job, InternalNotification.job? m = some job → isRegisterJob job = false) :
    Marked { b with pipe := rest } := by
  refine h.loses (.of_eq rfl ?_)
  rw [registerJobs_pipe hpipe]
  cases hjob : InternalNotification.job? m with
  | none => rfl
  | some job => simp [hm job hjob]

/-- A step of the worker that meets the condition keeps the marks. -/
theorem MarksInv.worker (h : MarksInv cfg b) {w : WorkerStep}
    (hmarks : stepResolves cfg b (.worker w) = true)
    (hmaster : (b.workerStep w).isMasterConnected cfg = true) : Marked (b.workerStep w) := by
  refine Marked.loses ?_ (loses_workerStep b w)
  by_cases hw : w = .connect
  · subst hw
    by_cases hphase : b.phase = .disconnected
    · have hslave : cfg.hasMaster = true := (Bool.and_eq_true_iff.mp hmaster).1
      simp only [stepResolves, hslave, hphase, Bool.not_true, Bool.false_or, ne_eq,
        not_true_eq_false, decide_false, List.all_eq_true, decide_eq_true_eq] at hmarks
      exact hmarks
    · refine h.marks ?_
      unfold workerStep at hmaster
      split at hmaster <;> simp_all
  · exact h.marks (isMasterConnected_workerStep hw hmaster)

/-- The report of a loss does not touch the connection that the worker has now. -/
theorem isMasterConnected_handleMasterDisconnected (cfg : Config) (b : Broker) :
    (b.handleMasterDisconnected cfg).isMasterConnected cfg = b.isMasterConnected cfg := by
  simp only [handleMasterDisconnected, triggerNotLocal, clearMasterNotification, mapNotifications]
  show (sweep cfg false .clientDetach _ _).isMasterConnected cfg = _
  rw [isMasterConnected_sweep, isMasterConnected_sweep]
  rfl

/-- Only the worker thread connects to the master. -/
theorem isMasterConnected_step (hattach : b.mPendingAttachExtendedJobs = []) {e : Event}
    (he : ∀ w, e ≠ .worker w) :
    (b.step cfg e).isMasterConnected cfg = b.isMasterConnected cfg := by
  cases e with
  | connected nodeAddress localAddress uid =>
      exact (prims_openConnection cfg nodeAddress localAddress uid b).isMasterConnected
  | request c r => exact (prims_request cfg c r b).isMasterConnected
  | closed c => exact (prims_closeConnection cfg c b).isMasterConnected
  | pulse p value => exact (prims_dispatchPulse cfg p value b).isMasterConnected
  | worker w => exact absurd rfl (he w)
  | deliver =>
      obtain hsame | ⟨m, rest, -, -, hstep⟩ := deliver_cases cfg b
      · rw [hsame]
      · rw [hstep]
        cases m with
        | jobExecuted job res =>
            have hrest : ({ b with pipe := rest } : Broker).mPendingAttachExtendedJobs = [] :=
              hattach
            exact (prims_handleJobFinished cfg job res hrest).isMasterConnected
        | masterConnected =>
            exact (prims_handleMasterConnected cfg { b with pipe := rest }).isMasterConnected
        | masterDisconnected =>
            exact isMasterConnected_handleMasterDisconnected cfg { b with pipe := rest }

/-- A lost master leaves no mark. -/
theorem marked_handleMasterDisconnected
    (h : ∀ e ∈ b.mConnectedServers.entries, registerRecord e ∉ b.inFlight) :
    Marked (b.handleMasterDisconnected cfg) := by
  intro e' he'
  obtain ⟨hservers, hjobs⟩ := handleMasterDisconnected_loses cfg b
  rw [hservers] at he'
  obtain ⟨e, he, rfl⟩ := List.mem_map.mp he'
  rw [inFlight, hjobs]
  have hnone : noPartyID ≠ pendingMasterID := by decide
  exact iff_of_false hnone (h e he)

/-- What the main thread takes out of the pipe keeps the marks, if it meets the condition. -/
theorem MarksInv.deliver (h : MarksInv cfg b) (hmarks : stepResolves cfg b .deliver = true)
    (hmaster : (b.step cfg .deliver).isMasterConnected cfg = true) :
    Marked (b.step cfg .deliver) := by
  obtain hsame | ⟨m, rest, hpipe, _, hstep⟩ := deliver_cases cfg b
  · rw [hsame] at hmaster ⊢
    exact h.marks hmaster
  · rw [hstep] at hmaster ⊢
    have hattach : ({ b with pipe := rest } : Broker).mPendingAttachExtendedJobs = [] :=
      h.peers.attachJobs
    cases m with
    | jobExecuted job res =>
        have hprims := prims_handleJobFinished cfg job res hattach
        have hbefore : b.isMasterConnected cfg = true :=
          hprims.isMasterConnected.symm.trans hmaster
        have hmarked := h.marks hbefore
        simp only [stepResolves, hbefore, hpipe, Bool.not_true, Bool.false_or] at hmarks
        cases hjob : isRegisterJob job with
        | false =>
            have hrest := hmarked.pipe hpipe fun job' hjob' => by
              cases hjob'
              exact hjob
            exact hrest.loses (loses_handleJobFinished hattach (Or.inl hjob))
        | true =>
            have hreply := (Bool.or_eq_true_iff.mp hmarks).resolve_left (by simp [hjob])
            refine marked_handleJobFinished hjob (resolves_of_replyResolves hreply ?_)
            exact fun e he hne hsent => hne ((hmarked e he).mpr (inFlight_pipe hpipe hsent))
    | masterConnected =>
        have hbefore : b.isMasterConnected cfg = true :=
          (prims_handleMasterConnected cfg { b with pipe := rest }).isMasterConnected.symm.trans
            hmaster
        have hrest : Marked { b with pipe := rest } :=
          (h.marks hbefore).pipe hpipe fun job hjob => by cases hjob
        exact ((hrest.willBeMarked h.names).registerInterfacesMaster hbefore).loses
          ((Prim.forward _).loses (by simp) (by simp))
    | masterDisconnected =>
        have hbefore : b.isMasterConnected cfg = true :=
          (isMasterConnected_handleMasterDisconnected cfg
            { b with pipe := rest }).symm.trans hmaster
        simp only [stepResolves, hbefore, hpipe, Bool.not_true, Bool.false_or, List.all_eq_true,
          decide_eq_true_eq] at hmarks
        exact marked_handleMasterDisconnected fun e he hsent =>
          hmarks e he (inFlight_pipe hpipe hsent)

/-- So does every step that meets it. -/
theorem MarksInv.step (h : MarksInv cfg b) {e : Event} (hmarks : stepResolves cfg b e = true) :
    MarksInv cfg (b.step cfg e) := by
  refine ⟨h.peers.step (fun _ _ _ _ => trivial), h.names.step h.peers.attachJobs e,
    h.forward.step forwards_registerBatches h.peers.attachJobs e, fun hmaster => ?_⟩
  have hsame (he : ∀ w, e ≠ .worker w) : (b.step cfg e).isMasterConnected cfg =
      b.isMasterConnected cfg := isMasterConnected_step h.peers.attachJobs he
  cases e with
  | connected nodeAddress localAddress uid =>
      exact (h.marks (hsame (by simp) ▸ hmaster)).loses (loses_step (by simp) (by simp))
  | request c r =>
      have hbefore : b.isMasterConnected cfg = true := hsame (by simp) ▸ hmaster
      simp only [stepResolves, hbefore, Bool.not_true, Bool.false_or] at hmarks
      show Marked (b.request cfg c r)
      cases request_cases cfg c r b with
      | inl hsame => exact hsame.symm ▸ h.marks hbefore
      | inr hdispatched =>
          obtain ⟨k, hk, hdeferred, _, hquiet⟩ := hdispatched
          have hnew : addsUnsent cfg (k.ctx c) b r = true := by simpa [hk, hdeferred] using hmarks
          have hstill := (prims_dispatch cfg (k.ctx c) r b).isMasterConnected.trans hbefore
          exact ((h.marks hbefore).dispatch h.forward h.names hnew hstill).loses hquiet.loses
  | closed c => exact (h.marks (hsame (by simp) ▸ hmaster)).loses (loses_step (by simp) (by simp))
  | pulse p value =>
      exact (h.marks (hsame (by simp) ▸ hmaster)).loses (loses_step (by simp) (by simp))
  | deliver => exact h.deliver hmarks hmaster
  | worker w => exact h.worker hmarks hmaster

/-! ## Without a master -/

/-- No entry waits for an ID of the master. -/
def Unmarked (b : Broker) : Prop :=
  ∀ e ∈ b.mConnectedServers.entries, e.masterID.localID ≠ pendingMasterID.localID

/-- The broker has no connection to a master, has processed the loss of the one before, and no
entry waits. -/
structure Alone (cfg : Config) (b : Broker) : Prop where
  peers : Peers (fun _ _ => True) b
  master : b.isMasterConnected cfg = false
  unmarked : Unmarked b

/-- Fewer entries and batches: still nothing is marked. -/
theorem Unmarked.loses (h : Unmarked b) (hl : Loses b b') : Unmarked b' :=
  fun e he => h e (hl.servers.subset he)

/-- A new entry is not marked. -/
theorem Unmarked.addEntry (h : Unmarked b) (c : Nat) {e : ServerListEntry} {next : Nat}
    (he : e.masterID = noPartyID) :
    Unmarked ({ b with mNextServerID := next }.addEntry cfg c e) := by
  intro e' he'
  rw [servers_addEntry] at he'
  cases ServerList.mem_add.mp he' with
  | inl hnew =>
      rw [hnew, he]
      decide
  | inr hold => exact h e' hold

/-- Without a master no batch is made. -/
theorem Unmarked.dispatch (h : Unmarked b) (hmaster : b.isMasterConnected cfg = false)
    (ctx : SocketConnectionContext) (r : Request) : Unmarked (b.dispatch cfg ctx r).1 := by
  refine (dispatch_preserves (P := fun _ _ => true)
    (I := fun b : Broker => b.isMasterConnected cfg = false ∧ Unmarked b) ?_ ?_ ?_
    (addsServers_true _ _ _) ⟨hmaster, h⟩).2
  · exact fun b b' hl hphase hb => ⟨hphase.trans hb.1, hb.2.loses hl⟩
  · intro b c e next he hname _ hb
    have hadd : Prim cfg .addEntry b ({ b with mNextServerID := next }.addEntry cfg c e) :=
      .addEntry b c e next hname he
    have hphase := hadd.phase
    refine ⟨?_, hb.2.addEntry c he⟩
    rw [Broker.isMasterConnected, hphase]
    exact hb.1
  · intro b hb
    rwa [registerInterfacesMaster_eq, hb.1, if_neg Bool.false_ne_true]

/-- A reply finds no entry that waits. -/
theorem Unmarked.finishAll (h : Unmarked b) (ids : List SPartyID) :
    (ids.foldl (finishRegisterRecord cfg) b).mConnectedServers = b.mConnectedServers := by
  induction ids generalizing b with
  | nil => rfl
  | cons id ids ih =>
      have hnone : b.mConnectedServers.findByLocalIDandInvalidMasterID id.localID = none := by
        rw [find_eq_head_pendingWith, List.head?_eq_none_iff, List.eq_nil_iff_forall_not_mem]
        intro e he
        obtain ⟨hmem, -, hwaits⟩ := mem_pendingWith.mp he
        exact h e hmem hwaits
      have hsame : (b.finishRegisterRecord cfg id).mConnectedServers = b.mConnectedServers :=
        servers_finishRegisterRecord (Or.inl hnone)
      have hkept : Unmarked (b.finishRegisterRecord cfg id) := by
        unfold Unmarked
        rwa [hsame]
      exact (ih hkept).trans hsame

/-- A reply marks nothing. -/
theorem Unmarked.handleJobFinished (h : Unmarked b)
    (hattach : b.mPendingAttachExtendedJobs = []) (job : Job) (res : JobResult) :
    Unmarked (b.handleJobFinished cfg job res) := by
  cases hjob : isRegisterJob job with
  | false => exact h.loses (loses_handleJobFinished hattach (Or.inl hjob))
  | true =>
      have hquiet : Quiet ((job.evaluatedIDs res).foldl (finishRegisterRecord cfg) b)
          (b.handleJobFinished cfg job res) := handleJobFinished_evaluates hjob res
      unfold Unmarked
      rw [hquiet.servers, h.finishAll]
      exact h

/-- When the loss of the master is processed, no entry waits any more. -/
theorem unmarked_handleMasterDisconnected (cfg : Config) (b : Broker) :
    Unmarked (b.handleMasterDisconnected cfg) := by
  intro e' he'
  rw [(handleMasterDisconnected_loses cfg b).1] at he'
  obtain ⟨e, -, rfl⟩ := List.mem_map.mp he'
  have hnone : noPartyID.localID ≠ pendingMasterID.localID := by decide
  exact hnone

/-- The main thread marks nothing as long as there is no master. -/
theorem Alone.deliver (h : Alone cfg b) : Unmarked (b.step cfg .deliver) := by
  obtain hsame | ⟨m, rest, hpipe, _, hstep⟩ := deliver_cases cfg b
  · rw [hsame]
    exact h.unmarked
  · rw [hstep]
    have hrest : Unmarked { b with pipe := rest } := h.unmarked
    cases m with
    | jobExecuted job res => exact hrest.handleJobFinished h.peers.attachJobs job res
    | masterConnected =>
        have hmaster : ({ b with pipe := rest } : Broker).isMasterConnected cfg = false := h.master
        have hsame : Broker.registerInterfacesMaster cfg { b with pipe := rest } =
            { b with pipe := rest } := by
          rw [registerInterfacesMaster_eq, hmaster, if_neg Bool.false_ne_true]
        have hprim : Prim cfg .forward { b with pipe := rest }
            (forwardServerAvailableNotifications cfg { b with pipe := rest }) := .forward _
        have hforward := hprim.loses (by simp) (by simp)
        show Unmarked (Broker.handleMasterConnected cfg { b with pipe := rest })
        rw [handleMasterConnected, hsame]
        exact hrest.loses hforward
    | masterDisconnected => exact unmarked_handleMasterDisconnected cfg _

/-- Only a new connection ends this. -/
theorem Alone.step (h : Alone cfg b) {e : Event} (he : e ≠ .worker .connect) :
    Alone cfg (b.step cfg e) := by
  have hmaster : (b.step cfg e).isMasterConnected cfg = false := by
    cases e with
    | worker w =>
        have hw : w ≠ .connect := fun heq => he (heq ▸ rfl)
        refine Bool.eq_false_iff.mpr fun hnot => ?_
        have hbefore := isMasterConnected_workerStep hw hnot
        exact Bool.false_ne_true (h.master.symm.trans hbefore)
    | _ => exact (isMasterConnected_step h.peers.attachJobs (by simp)).trans h.master
  refine ⟨h.peers.step (fun _ _ _ _ => trivial), hmaster, ?_⟩
  cases e with
  | request c r =>
      show Unmarked (b.request cfg c r)
      cases request_cases cfg c r b with
      | inl hsame => exact hsame.symm ▸ h.unmarked
      | inr hdispatched =>
          obtain ⟨k, -, -, -, hquiet⟩ := hdispatched
          exact (h.unmarked.dispatch h.master (k.ctx c) r).loses hquiet.loses
  | deliver => exact h.deliver
  | _ => exact h.unmarked.loses (loses_step (by simp) (by simp))

/-- At the beginning there is no master. -/
theorem alone_init (cfg : Config) : Alone cfg init where
  peers := ⟨rfl, fun _ _ _ => trivial⟩
  master := Bool.and_false _
  unmarked := nofun

/-- The loss of the master is processed in front of the next connection. -/
theorem alone_deliver (hpeers : Peers (fun _ _ => True) b)
    (hmaster : b.isMasterConnected cfg = false)
    (hloss : b.delivered = some .masterDisconnected) : Alone cfg (b.step cfg .deliver) := by
  obtain ⟨rest, -, hstep⟩ := deliver_of_some cfg hloss
  refine ⟨hpeers.step (fun _ _ _ _ => trivial), ?_, ?_⟩
  · exact (isMasterConnected_step hpeers.attachJobs (by simp)).trans hmaster
  · rw [hstep]
    exact unmarked_handleMasterDisconnected cfg _

/-- From there to the next connection no entry has the mark, so that the connection finds marks that
fit as soon as no batch is left with a record of the table. -/
theorem stepResolves_connect_of_alone (h : Alone cfg b) {es : List Event}
    (hes : .worker .connect ∉ es)
    (hleft : ∀ e ∈ (Run.run (step cfg) b es).mConnectedServers.entries,
      registerRecord e ∉ (Run.run (step cfg) b es).inFlight) :
    stepResolves cfg (Run.run (step cfg) b es) (.worker .connect) = true := by
  have halone : Alone cfg (Run.run (step cfg) b es) := by
    refine Run.invariant (P := fun _ e => e ≠ .worker .connect)
      (fun _ _ hb he => hb.step he) h ?_
    exact Run.along_of_forall (P := fun e => e ≠ Event.worker .connect)
      (fun e he heq => hes (heq ▸ he)) b
  simp only [stepResolves, Bool.or_eq_true, List.all_eq_true, decide_eq_true_eq]
  refine Or.inr fun e he => iff_of_false (fun hpending => ?_) (hleft e he)
  exact halone.unmarked e he (congrArg SPartyID.localID hpending)

/-- An entry whose record was refused is forwarded with the next batch. -/
def LeavesEligible (cfg : Config) (b : Broker) (e : Event) : Prop :=
  match e, b.delivered with
  | .deliver, some (.jobExecuted job res) =>
      b.isMasterConnected cfg = true → isRegisterJob job = true → ∀ r ∈ job.refused res,
        ∀ e ∈ (b.step cfg .deliver).mConnectedServers.entries, registerRecord e = r →
          r ∉ (b.step cfg .deliver).inFlight → registerEligible cfg e = true
  | _, _ => True

/-- A reply that meets the condition leaves the entries that it refuses unmarked. -/
theorem MarksInv.leavesEligible {e : Event} (hmarks : stepResolves cfg b e = true) :
    LeavesEligible cfg b e := by
  unfold LeavesEligible
  split
  case h_2 => trivial
  case h_1 job res hdelivered =>
    obtain ⟨rest, hpipe, hstep⟩ := deliver_of_some cfg hdelivered
    intro hmaster hjob r hr e he hrecord hunsent
    simp only [stepResolves, hmaster, hpipe, hjob, Bool.not_true, Bool.false_or, replyResolves,
      Bool.and_eq_true, List.all_eq_true] at hmarks
    have hstep : b.step cfg .deliver =
        ({ b with pipe := rest } : Broker).handleJobFinished cfg job res := hstep
    obtain ⟨hrecords, hjobs⟩ := @records_handleJobFinished cfg { b with pipe := rest } job hjob res
    rw [hstep] at he hunsent
    cases Bool.or_eq_true_iff.mp (hmarks.2 r hr) with
    | inl hsent =>
        rw [inFlight, hjobs] at hunsent
        exact absurd (of_decide_eq_true hsent) hunsent
    | inr hgone =>
        have hmem := List.mem_map_of_mem (f := registerRecord) he
        rw [hrecords] at hmem
        obtain ⟨e', he', hsame⟩ := List.mem_map.mp hmem
        exact absurd (hsame.trans hrecord) (of_decide_eq_true (List.all_eq_true.mp hgone e' he'))

/-- Along a run whose replies and connections resolve the marks, an entry carries the mark exactly
when a batch in flight has it, and no refused one is left behind. -/
theorem marks_of_along (cfg : Config) (es : List Event)
    (h : Run.Along (step cfg) (fun b e => stepResolves cfg b e = true) init es) :
    ((Run.run (step cfg) init es).isMasterConnected cfg = true →
        Marked (Run.run (step cfg) init es)) ∧
      Run.Along (step cfg) (LeavesEligible cfg) init es := by
  have hstep (b : Broker) (e : Event) (hb : MarksInv cfg b)
      (hmarks : stepResolves cfg b e = true) : MarksInv cfg (b.step cfg e) := hb.step hmarks
  exact ⟨(Run.invariant hstep marksInv_init h).marks, Run.along_of_invariant hstep
    (fun _ _ _ hmarks => MarksInv.leavesEligible hmarks) marksInv_init h⟩

/-- The two brokers forward two servers. -/
def forwardsTwo : List Event :=
  Forwarded.treeWithTwoBrokers ++
    [.request 1 (.registerMasterInterfaceEx 1 [⟨1, 0, 9, ⟨500001, 2001⟩, ⟨[65], 1, 0⟩⟩]),
      .worker .pop,
      .request 2 (.registerMasterInterfaceEx 1 [⟨1, 0, 8, ⟨500001, 2002⟩, ⟨[66], 1, 0⟩⟩])]

/-- The first server is given its ID, the batch of the second one is lost with the connection, and
both are forwarded again. -/
theorem marks_connected_again :
    let es := forwardsTwo ++
      [.request 2 (.unregisterInterface ⟨500001, 2002⟩),
        .worker (.finish { status := 0, ret_val := 0, serverID := fun _ => ⟨500001, 2001⟩ }),
        .deliver,
        .request 2 (.registerMasterInterfaceEx 1 [⟨1, 0, 8, ⟨500002, 2002⟩, ⟨[66], 1, 0⟩⟩]),
        .worker .pop, .worker (.finish { status := EIO, ret_val := 0 }), .deliver, .deliver,
        .worker .removePending, .deliver, .worker .connect, .worker (.idPing true), .deliver]
    let b := Run.run (step Forwarded.treeConfig) init es
    b.isMasterConnected Forwarded.treeConfig = true ∧ b.inFlight.length = 2 ∧
      (b.isMasterConnected Forwarded.treeConfig = true → Marked b) ∧
      Run.Along (step Forwarded.treeConfig) (LeavesEligible Forwarded.treeConfig) init es :=
  ⟨by decide +kernel, by decide +kernel, marks_of_along Forwarded.treeConfig _ (by decide +kernel)⟩

/-- The first batch has come back with this result. -/
def cameBack (res : JobResult) : Broker :=
  Run.run (step Forwarded.treeConfig) init (forwardsTwo ++ [.worker (.finish res)])

/-- When the master refuses the record, or the whole batch, the server keeps the mark and is not
forwarded again. -/
theorem not_marks_refused :
    let refused := cameBack { status := 0, ret_val := 0, serverID := fun _ => ⟨500001, 0xffffffff⟩ }
    let failed := cameBack { status := 0, ret_val := SBStatus.FNDBadArgument.toInt }
    ((refused.step Forwarded.treeConfig .deliver).isMasterConnected Forwarded.treeConfig = true ∧
        ¬ Marked (refused.step Forwarded.treeConfig .deliver) ∧
        ¬ LeavesEligible Forwarded.treeConfig refused .deliver) ∧
      (failed.step Forwarded.treeConfig .deliver).isMasterConnected Forwarded.treeConfig = true ∧
        ¬ Marked (failed.step Forwarded.treeConfig .deliver) ∧
        ¬ LeavesEligible Forwarded.treeConfig failed .deliver := by
  intro refused failed
  refine ⟨⟨by decide +kernel, by unfold Marked; decide +kernel, fun h => ?_⟩,
    by decide +kernel, by unfold Marked; decide +kernel, fun h => ?_⟩ <;>
  · have heligible := h (by decide +kernel) (by decide +kernel)
      ⟨1, 0, 9, ⟨500001, 2001⟩, ⟨[65], 1, 0⟩⟩ (by decide +kernel)
    revert heligible
    decide +kernel

end Broker

end Dsi
