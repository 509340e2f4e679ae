import Dsi.Broker.Dispatch
import Dsi.Broker.Frame
import Dsi.Lib.Scratch

/-!
# Dsi.Broker.Forwarding

What a slave forwards to its master, in jobs of at most `MAX_MULTIPLE_COUNT` records.  The
loops of `registerInterfacesMaster` and `forwardServerAvailableNotifications` fill one scratch
argument and copy it into a job whenever it is full.  The jobs hold what is to be forwarded
once and in order, and what was forwarded is not forwarded again.
-/

namespace Dsi

open CLayout Sequence

/-! ## Jobs -/

/-- What the two loops have of their own: the size of the argument, of a record behind it and of
an element of the answer, and the command. -/
structure JobFormat (α : Type) where
  hdr : Nat
  record : Nat
  answer : Nat
  arg : List α → JobArg
  record_pos : 0 < record

/-- What `Job::create` makes: a job with the counter of its argument, the records among the
bytes that are copied, and how many bytes are sent and received. -/
structure Created (α : Type) where
  job : Job
  count : Int32
  records : List α
  sbytes : Nat
  rbytes : Nat

/-- The call of `Job::create` where the counter of the argument is `count`. -/
def JobFormat.create {α : Type} (f : JobFormat α) (count : Nat) (slots : List α) : Created α :=
  let sbytes := f.hdr + count * f.record
  let records := slots.take ((sbytes - f.hdr) / f.record)
  { job := ⟨UInt32.ofNat count, none, f.arg records⟩
    count := Int32.ofNat count
    records := records
    sbytes := sbytes
    rbytes := count * f.answer }

/-- `MasterRegArg`. -/
def registerFormat : JobFormat SFNDInterfaceDescriptionEx where
  hdr := Layout.SFNDInterfaceRegisterMasterExArg.size
  record := (CType.struct Layout.SFNDInterfaceDescriptionEx).size
  answer := Layout.SPartyID.size
  arg := .registerMasterInterfaceEx
  record_pos := by decide

/-- `MasterNotifyArg`. -/
def availableFormat : JobFormat SFNDNotificationDescription where
  hdr := Layout.SFNDNotifyServerAvailableExArg.size
  record := (CType.struct Layout.SFNDNotificationDescription).size
  answer := (CType.struct Layout.SFNDNotificationID).size
  arg := .notifyServerAvailableEx
  record_pos := by decide

namespace Broker

/-! ## The loops -/

/-- The loop of `registerInterfacesMaster` with its scratch argument: the entries with their
marks, and the jobs. -/
def registerLoop (cfg : Config) : List ServerListEntry →
    Scratch SFNDInterfaceDescriptionEx MAX_MULTIPLE_COUNT →
      List ServerListEntry × List (Created SFNDInterfaceDescriptionEx)
  | [], s => ([], s.rest registerFormat.create)
  | e :: es, s =>
      if registerEligible cfg e then
        let p := s.put registerFormat.create (registerRecord e)
        let r := registerLoop cfg es p.2
        ({ e with masterID := pendingMasterID } :: r.1, p.1 ++ r.2)
      else
        let r := registerLoop cfg es s
        (e :: r.1, r.2)

/-- The loop of `forwardServerAvailableNotifications` with its scratch argument. -/
def availableLoop (cfg : Config) : List Notification →
    Scratch SFNDNotificationDescription MAX_MULTIPLE_COUNT → Broker →
      List Notification × List (Created SFNDNotificationDescription) × Broker
  | [], s, b => ([], s.rest availableFormat.create, b)
  | n :: ns, s, b =>
      if forwardEligible cfg n then
        match b.mMasterNotificationPool.findIdx? (·.isFor n.ifDescription false) with
        | some pos =>
            let r := availableLoop cfg ns s b
            ({ n with poolID := b.poolIDAt pos } :: r.1, r.2.1, r.2.2)
        | none =>
            let b := b.addPoolDescription n.ifDescription false
            let p := s.put availableFormat.create
              { cookie := b.poolIDAt 0
                pulse := masterPulse cfg .PULSE_MASTER_SERVER_AVAILABLE (b.poolIDAt 0)
                ifDescription := n.ifDescription }
            let r := availableLoop cfg ns p.2 b
            ({ n with poolID := b.poolIDAt 0 } :: r.1, p.1 ++ r.2.1, r.2.2)
      else
        let r := availableLoop cfg ns s b
        (n :: r.1, r.2.1, r.2.2)

/-- The jobs of `registerInterfacesMaster`. -/
def registerJobsOf (cfg : Config) (b : Broker) : List (Created SFNDInterfaceDescriptionEx) :=
  (registerLoop cfg b.mConnectedServers.entries (.empty (by decide))).2

/-- The jobs of `forwardServerAvailableNotifications`. -/
def availableJobs (cfg : Config) (b : Broker) : List (Created SFNDNotificationDescription) :=
  (availableLoop cfg b.mServerConnectNotifications (.empty (by decide)) b).2.1

/-! ## What is promised -/

/-- The jobs hold the records once and in order; none is empty or has more than
`MAX_MULTIPLE_COUNT` of them; and the counter, the cookie and the sizes are those of its
records. -/
structure Batched {α : Type} (f : JobFormat α) (records : List α) (jobs : List (Created α)) :
    Prop where
  records : jobs.flatMap (·.records) = records
  filled : ∀ j ∈ jobs, 0 < j.records.length ∧ j.records.length ≤ MAX_MULTIPLE_COUNT
  arg : ∀ j ∈ jobs, j.job.arg = f.arg j.records ∧ j.job.ctx = none
  count : ∀ j ∈ jobs, j.count.toInt = j.records.length ∧ j.job.cookie.toNat = j.records.length
  sizes : ∀ j ∈ jobs, j.sbytes = f.hdr + j.records.length * f.record ∧
    j.rbytes = j.records.length * f.answer

/-- `registerInterfacesMaster` forwards every entry that is to be forwarded, and none that was
there behind the call in any later one. -/
structure ForwardsServers (cfg : Config) (b : Broker) : Prop where
  jobs : (b.registerInterfacesMaster cfg).mQueue = b.mQueue ++ (b.registerJobsOf cfg).map (·.job)
  entries : (b.registerInterfacesMaster cfg).mConnectedServers.entries =
    (registerLoop cfg b.mConnectedServers.entries (.empty (by decide))).1
  batched : Batched registerFormat
    ((b.mConnectedServers.entries.filter (registerEligible cfg)).map registerRecord)
    (b.registerJobsOf cfg)
  done : ∀ e ∈ (b.registerInterfacesMaster cfg).mConnectedServers.entries,
    registerEligible cfg e = false
  again : ((b.registerInterfacesMaster cfg).registerInterfacesMaster cfg).mQueue =
    (b.registerInterfacesMaster cfg).mQueue

/-- The interfaces for which a pool is needed, each where it is first waited for. -/
def newInterfaces (cfg : Config) (ns : List Notification) (b : Broker) :
    List InterfaceDescription :=
  ((ns.filter (fun n => forwardEligible cfg n &&
    !b.mMasterNotificationPool.any (·.isFor n.ifDescription false))).map
      (·.ifDescription)).eraseDups

/-- The pool of a record. -/
def poolOf (r : SFNDNotificationDescription) : NotificationPoolEntry :=
  { poolID := r.cookie, mDataSwitch := .ifDescription r.ifDescription
    mPoolState := .STATE_CONNECTING }

/-- `forwardServerAvailableNotifications` forwards every interface for which a pool is needed,
with its pool, and none of them in a later call while its pool waits for the reply. -/
structure ForwardsNotifications (cfg : Config) (b : Broker) : Prop where
  jobs : (b.forwardServerAvailableNotifications cfg).mQueue =
    b.mQueue ++ (b.availableJobs cfg).map (·.job)
  batched : ∃ records, Batched availableFormat records (b.availableJobs cfg) ∧
    records.map (·.ifDescription) = b.newInterfaces cfg b.mServerConnectNotifications ∧
    (b.forwardServerAvailableNotifications cfg).mMasterNotificationPool =
      (records.map poolOf).reverse ++ b.mMasterNotificationPool
  later : ∀ b' : Broker,
    (∀ np ∈ (b.forwardServerAvailableNotifications cfg).mMasterNotificationPool,
      np ∈ b'.mMasterNotificationPool) →
    ∀ d ∈ b.newInterfaces cfg b.mServerConnectNotifications,
      d ∉ b'.newInterfaces cfg b'.mServerConnectNotifications
  again : ((b.forwardServerAvailableNotifications cfg).forwardServerAvailableNotifications
    cfg).mQueue = (b.forwardServerAvailableNotifications cfg).mQueue

/-! ## Batches -/

section Batches

variable {α : Type} {f : JobFormat α}

/-- What a batch is made into. -/
def ofBatch (f : JobFormat α) (batch : List α) : Created α := f.create batch.length batch

theorem reads_create (f : JobFormat α) : Scratch.Reads f.create (ofBatch f) := by
  intro count slots hle
  have hdiv (n : Nat) : (f.hdr + n * f.record - f.hdr) / f.record = n := by
    rw [Nat.add_sub_cancel_left, Nat.mul_div_cancel _ f.record_pos]
  have hlength : (slots.take count).length = count := by
    rw [List.length_take, Nat.min_eq_left hle]
  simp only [ofBatch, JobFormat.create, hlength, hdiv, List.take_take, Nat.min_self]

theorem records_ofBatch (batch : List α) : (ofBatch f batch).records = batch := by
  simp only [ofBatch, JobFormat.create]
  rw [Nat.add_sub_cancel_left, Nat.mul_div_cancel _ f.record_pos, List.take_length]

theorem batched_batches (records : List α) :
    Batched f records ((batches MAX_MULTIPLE_COUNT [] records).map (ofBatch f)) := by
  have hlength : ∀ j ∈ (batches MAX_MULTIPLE_COUNT [] records).map (ofBatch f),
      ∃ batch, j = ofBatch f batch ∧ 0 < batch.length ∧ batch.length ≤ MAX_MULTIPLE_COUNT := by
    intro j hj
    obtain ⟨batch, hbatch, rfl⟩ := List.mem_map.mp hj
    have hempty : ([] : List α).length < MAX_MULTIPLE_COUNT := Nat.succ_pos 31
    exact ⟨batch, rfl, length_of_mem_batches hempty hbatch⟩
  refine ⟨?_, fun j hj => ?_, fun j hj => ?_, fun j hj => ?_, fun j hj => ?_⟩
  · rw [List.flatMap_map]
    simp only [records_ofBatch]
    rw [List.flatMap_id', flatten_batches, List.nil_append]
  · obtain ⟨batch, rfl, hbounds⟩ := hlength j hj
    rwa [records_ofBatch]
  · obtain ⟨batch, rfl, _⟩ := hlength j hj
    exact ⟨rfl, rfl⟩
  · obtain ⟨batch, rfl, _, hle⟩ := hlength j hj
    have hsmall : batch.length < 2 ^ 31 := Nat.lt_of_le_of_lt hle (by decide)
    rw [records_ofBatch]
    exact ⟨Int32.toInt_ofNat_of_lt hsmall,
      UInt32.toNat_ofNat_of_lt' (Nat.lt_trans hsmall (by decide))⟩
  · obtain ⟨batch, rfl, _⟩ := hlength j hj
    rw [records_ofBatch]
    exact ⟨rfl, rfl⟩

end Batches

/-! ## Servers -/

section Servers

variable {cfg : Config} {b : Broker}

/-- The mark of `registerInterfacesMaster`. -/
def marked (cfg : Config) (e : ServerListEntry) : ServerListEntry :=
  { e with masterID := if registerEligible cfg e then pendingMasterID else e.masterID }

theorem registerEligible_marked (e : ServerListEntry) :
    registerEligible cfg (marked cfg e) = false := by
  unfold registerEligible marked
  by_cases h : registerEligible cfg e = true
  · simp [h, pendingMasterID, noPartyID]
  · rw [if_neg h]
    exact Bool.eq_false_iff.mpr h

/-- The loop marks the entries it puts into batches. -/
theorem registerLoop_eq (es : List ServerListEntry)
    (s : Scratch SFNDInterfaceDescriptionEx MAX_MULTIPLE_COUNT) :
    registerLoop cfg es s = (es.map (marked cfg),
      (batches MAX_MULTIPLE_COUNT s.used
        ((es.filter (registerEligible cfg)).map registerRecord)).map (ofBatch registerFormat)) := by
  induction es generalizing s with
  | nil => rw [registerLoop, s.rest_eq (reads_create _)]; rfl
  | cons e es ih =>
      rw [registerLoop]
      by_cases h : registerEligible cfg e = true
      · have hmark : marked cfg e = { e with masterID := pendingMasterID } := by
          rw [marked, if_pos h]
        dsimp only
        rw [if_pos h, ih, List.filter_cons_of_pos h, List.map_cons, List.map_cons, hmark,
          s.put_batches (reads_create _)]
      · have hmark : marked cfg e = e := by rw [marked, if_neg h]
        dsimp only
        rw [if_neg h, ih, List.filter_cons_of_neg h, List.map_cons, hmark]

theorem registerJobsOf_eq (cfg : Config) (b : Broker) :
    b.registerJobsOf cfg = (batches MAX_MULTIPLE_COUNT []
      ((b.mConnectedServers.entries.filter (registerEligible cfg)).map registerRecord)).map
        (ofBatch registerFormat) := by
  rw [registerJobsOf, registerLoop_eq, Scratch.used_empty]

theorem job_ofBatch {α : Type} (f : JobFormat α) (batch : List α) :
    (ofBatch f batch).job = ⟨UInt32.ofNat batch.length, none, f.arg batch⟩ :=
  congrArg (fun r => (⟨UInt32.ofNat batch.length, none, f.arg r⟩ : Job)) (records_ofBatch batch)

theorem mQueue_registerInterfacesMaster (hconnected : b.isMasterConnected cfg = true) :
    (b.registerInterfacesMaster cfg).mQueue = b.mQueue ++ b.registerBatches cfg := by
  rw [registerInterfacesMaster_eq, if_pos hconnected]

theorem entries_registerInterfacesMaster (hconnected : b.isMasterConnected cfg = true) :
    (b.registerInterfacesMaster cfg).mConnectedServers.entries =
      b.mConnectedServers.entries.map (marked cfg) := by
  rw [registerInterfacesMaster_eq, if_pos hconnected]
  rfl

theorem forwardsServers (hconnected : b.isMasterConnected cfg = true) : ForwardsServers cfg b := by
  have hentries := entries_registerInterfacesMaster hconnected
  have hdone : ∀ e ∈ (b.registerInterfacesMaster cfg).mConnectedServers.entries,
      registerEligible cfg e = false := by
    rw [hentries]
    intro e he
    obtain ⟨e', _, rfl⟩ := List.mem_map.mp he
    exact registerEligible_marked e'
  refine ⟨?_, ?_, ?_, hdone, ?_⟩
  · rw [mQueue_registerInterfacesMaster hconnected, registerJobsOf_eq, List.map_map,
      registerBatches]
    exact congrArg _ (List.map_congr_left (fun batch _ => (job_ofBatch registerFormat batch).symm))
  · rw [hentries, registerLoop_eq]
  · rw [registerJobsOf_eq]
    exact batched_batches _
  · have hphase : (b.registerInterfacesMaster cfg).phase = b.phase :=
      (registerInterfacesMaster_frame cfg b).2.2.2.2.2.2.2
    have hstill : (b.registerInterfacesMaster cfg).isMasterConnected cfg = true := by
      rw [isMasterConnected, hphase]
      exact hconnected
    have hnone : (b.registerInterfacesMaster cfg).mConnectedServers.entries.filter
        (registerEligible cfg) = [] :=
      List.filter_eq_nil_iff.mpr (fun e he => Bool.eq_false_iff.mp (hdone e he))
    rw [mQueue_registerInterfacesMaster hstill, registerBatches, hnone]
    exact List.append_nil _

end Servers

/-! ## Notifications -/

section Notifications

variable {cfg : Config}

theorem availableLoop_eq (ns : List Notification)
    (s : Scratch SFNDNotificationDescription MAX_MULTIPLE_COUNT) (b : Broker) :
    availableLoop cfg ns s b = ((forwardLoop cfg ns b).1,
      (batches MAX_MULTIPLE_COUNT s.used (forwardLoop cfg ns b).2.1).map (ofBatch availableFormat),
      (forwardLoop cfg ns b).2.2) := by
  induction ns generalizing s b with
  | nil => rw [availableLoop, s.rest_eq (reads_create _)]; rfl
  | cons n ns ih =>
      rw [availableLoop, forwardLoop]
      by_cases h : forwardEligible cfg n = true
      · rw [if_pos h, if_pos h]
        cases hpos : b.mMasterNotificationPool.findIdx? (·.isFor n.ifDescription false) with
        | some pos => simp only [ih]
        | none => simp only [ih, s.put_batches (reads_create _)]
      · rw [if_neg h, if_neg h]
        simp only [ih]

theorem availableJobs_eq (cfg : Config) (b : Broker) :
    b.availableJobs cfg = (batches MAX_MULTIPLE_COUNT []
      (forwardLoop cfg b.mServerConnectNotifications b).2.1).map (ofBatch availableFormat) := by
  rw [availableJobs, availableLoop_eq, Scratch.used_empty]

/-- A pool that is new is for its interface, the others are for what they were for. -/
theorem any_isFor_addPool (b : Broker) (d d' : InterfaceDescription) :
    (b.addPoolDescription d false).mMasterNotificationPool.any (·.isFor d' false) =
      (d' == d || b.mMasterNotificationPool.any (·.isFor d' false)) := by
  have hnew : (({ poolID := UInt32.ofNat b.nextPoolID, mDataSwitch := .ifDescription d
                  mPoolState := .STATE_CONNECTING } : NotificationPoolEntry).isFor d' false) =
      (d' == d) := by
    simp only [NotificationPoolEntry.isFor, Bool.false_and, Bool.false_or, beq_self_eq_true,
      Bool.true_and]
    by_cases heq : d' = d
    · simp [heq]
    · have hne : ¬ (DataSwitch.ifDescription d = DataSwitch.ifDescription d') :=
        fun h => heq (DataSwitch.ifDescription.inj h).symm
      simp [heq, hne]
  rw [addPoolDescription, addPool]
  simp only [Bool.false_eq_true, if_false, List.any_cons]
  rw [hnew]

/-- The records of the loop: one for each interface that has no pool, in the order of the list,
with the pools that are made for them. -/
theorem forwardLoop_records (ns : List Notification) (b : Broker) :
    (forwardLoop cfg ns b).2.1.map (·.ifDescription) = b.newInterfaces cfg ns ∧
      (forwardLoop cfg ns b).2.2.mMasterNotificationPool =
        ((forwardLoop cfg ns b).2.1.map poolOf).reverse ++ b.mMasterNotificationPool := by
  induction ns generalizing b with
  | nil => exact ⟨rfl, rfl⟩
  | cons n ns ih =>
      rw [forwardLoop, newInterfaces]
      by_cases h : forwardEligible cfg n = true
      · rw [if_pos h]
        cases hpos : b.mMasterNotificationPool.findIdx? (·.isFor n.ifDescription false) with
        | some pos =>
            have hany : b.mMasterNotificationPool.any (·.isFor n.ifDescription false) = true := by
              rw [← List.findIdx?_isSome, hpos]
              rfl
            rw [List.filter_cons_of_neg (by simp [hany])]
            exact ih b
        | none =>
            have hany : b.mMasterNotificationPool.any (·.isFor n.ifDescription false) = false := by
              rw [← List.findIdx?_isSome, hpos]
              rfl
            obtain ⟨hrecords, hpools⟩ := ih (b.addPoolDescription n.ifDescription false)
            -- the new pool takes the interface out of what follows
            have hrest : ns.filter (fun m => forwardEligible cfg m &&
                !(b.addPoolDescription n.ifDescription false).mMasterNotificationPool.any
                  (·.isFor m.ifDescription false)) =
                (ns.filter (fun m => forwardEligible cfg m &&
                  !b.mMasterNotificationPool.any (·.isFor m.ifDescription false))).filter
                    (fun m => !m.ifDescription == n.ifDescription) := by
              rw [List.filter_filter]
              refine List.filter_congr (fun m _ => ?_)
              rw [any_isFor_addPool]
              cases m.ifDescription == n.ifDescription <;> simp
            dsimp only
            constructor
            · rw [List.filter_cons_of_pos (by simp [h, hany]), List.map_cons, List.map_cons,
                List.eraseDups_cons, hrecords, newInterfaces, hrest, List.filter_map]
              rfl
            · rw [List.map_cons, List.reverse_cons, List.append_assoc]
              exact hpools
      · rw [if_neg h, List.filter_cons_of_neg (by simp [h])]
        exact ih b

theorem mem_newInterfaces {ns : List Notification} {b : Broker} {d : InterfaceDescription} :
    d ∈ b.newInterfaces cfg ns ↔ (∃ n ∈ ns, forwardEligible cfg n = true ∧ n.ifDescription = d) ∧
      b.mMasterNotificationPool.any (·.isFor d false) = false := by
  rw [newInterfaces, List.mem_eraseDups, List.mem_map]
  constructor
  · rintro ⟨n, hn, rfl⟩
    obtain ⟨hmem, hcond⟩ := List.mem_filter.mp hn
    rw [Bool.and_eq_true, Bool.not_eq_true'] at hcond
    exact ⟨⟨n, hmem, hcond.1, rfl⟩, hcond.2⟩
  · rintro ⟨⟨n, hmem, heligible, rfl⟩, hnone⟩
    exact ⟨n, List.mem_filter.mpr ⟨hmem, by rw [heligible, hnone]; rfl⟩, rfl⟩

theorem isFor_poolOf (r : SFNDNotificationDescription) :
    (poolOf r).isFor r.ifDescription false = true := by
  simp [poolOf, NotificationPoolEntry.isFor]

/-- An interface for which a pool was needed has one behind the loop. -/
theorem any_isFor_of_mem_newInterfaces {ns : List Notification} {b b' : Broker}
    {d : InterfaceDescription} (hd : d ∈ b.newInterfaces cfg ns)
    (hkept : ∀ np ∈ (forwardLoop cfg ns b).2.2.mMasterNotificationPool,
      np ∈ b'.mMasterNotificationPool) :
    b'.mMasterNotificationPool.any (·.isFor d false) = true := by
  obtain ⟨hrecords, hpools⟩ := @forwardLoop_records cfg ns b
  rw [← hrecords] at hd
  obtain ⟨r, hr, rfl⟩ := List.mem_map.mp hd
  have hpool : poolOf r ∈ (forwardLoop cfg ns b).2.2.mMasterNotificationPool := by
    rw [hpools]
    exact List.mem_append_left _ (List.mem_reverse.mpr (List.mem_map_of_mem hr))
  exact List.any_eq_true.mpr ⟨poolOf r, hkept _ hpool, isFor_poolOf r⟩

/-- What is to be forwarded behind the loop was so in front of it. -/
theorem eligible_of_forwardLoop {ns : List Notification} {b : Broker} {n' : Notification}
    (hn' : n' ∈ (forwardLoop cfg ns b).1) (heligible : forwardEligible cfg n' = true) :
    ∃ n ∈ ns, forwardEligible cfg n = true ∧ n.ifDescription = n'.ifDescription := by
  induction ns generalizing b with
  | nil => cases hn'
  | cons n ns ih =>
      have hcons {b : Broker} (hrest : n' ∈ (forwardLoop cfg ns b).1) :
          ∃ m ∈ n :: ns, forwardEligible cfg m = true ∧ m.ifDescription = n'.ifDescription := by
        obtain ⟨m, hm, hfacts⟩ := ih hrest
        exact ⟨m, List.mem_cons_of_mem _ hm, hfacts⟩
      rw [forwardLoop] at hn'
      split at hn'
      · next h =>
        split at hn'
        · rcases List.mem_cons.mp hn' with rfl | hrest
          · exact ⟨n, List.mem_cons_self, h, rfl⟩
          · exact hcons hrest
        · rcases List.mem_cons.mp hn' with rfl | hrest
          · exact ⟨n, List.mem_cons_self, h, rfl⟩
          · exact hcons hrest
      · rcases List.mem_cons.mp hn' with rfl | hrest
        · exact ⟨n', List.mem_cons_self, heligible, rfl⟩
        · exact hcons hrest

/-- Behind the loop nothing needs a pool. -/
theorem newInterfaces_forwardLoop (ns : List Notification) (b b' : Broker)
    (hpools : b'.mMasterNotificationPool = (forwardLoop cfg ns b).2.2.mMasterNotificationPool) :
    b'.newInterfaces cfg (forwardLoop cfg ns b).1 = [] := by
  refine List.eq_nil_iff_forall_not_mem.mpr (fun d hd => ?_)
  obtain ⟨⟨n', hn', heligible, rfl⟩, hnone⟩ := mem_newInterfaces.mp hd
  obtain ⟨n, hn, hold, hsame⟩ := eligible_of_forwardLoop hn' heligible
  have hpool : b'.mMasterNotificationPool.any (·.isFor n'.ifDescription false) = true := by
    cases hany : b.mMasterNotificationPool.any (·.isFor n'.ifDescription false) with
    | false =>
        exact any_isFor_of_mem_newInterfaces (mem_newInterfaces.mpr ⟨⟨n, hn, hold, hsame⟩, hany⟩)
          (hpools ▸ fun _ => id)
    | true =>
        obtain ⟨np, hnp, hfor⟩ := List.any_eq_true.mp hany
        refine List.any_eq_true.mpr ⟨np, ?_, hfor⟩
        rw [hpools, (forwardLoop_records ns b).2]
        exact List.mem_append_right _ hnp
  rw [hpool] at hnone
  cases hnone

variable {b : Broker}

/-- The fields that `forwardServerAvailableNotifications` writes. -/
theorem forward_fields (hconnected : b.isMasterConnected cfg = true) :
    (b.forwardServerAvailableNotifications cfg).mQueue =
        b.mQueue ++ (b.availableJobs cfg).map (·.job) ∧
      (b.forwardServerAvailableNotifications cfg).mMasterNotificationPool =
        (forwardLoop cfg b.mServerConnectNotifications b).2.2.mMasterNotificationPool ∧
      (b.forwardServerAvailableNotifications cfg).mServerConnectNotifications =
        (forwardLoop cfg b.mServerConnectNotifications b).1 ∧
      (b.forwardServerAvailableNotifications cfg).phase = b.phase := by
  have hframe := (forwardLoop_frame cfg b.mServerConnectNotifications b).1
  have hqueue : (forwardLoop cfg b.mServerConnectNotifications b).2.2.mQueue = b.mQueue := by
    rw [hframe]
  have hphase : (forwardLoop cfg b.mServerConnectNotifications b).2.2.phase = b.phase := by
    rw [hframe]
  unfold forwardServerAvailableNotifications
  rw [if_pos hconnected]
  dsimp only
  rw [foldl_eval]
  refine ⟨?_, rfl, rfl, hphase⟩
  dsimp only
  rw [hqueue, availableJobs_eq, List.map_map]
  exact congrArg _ (List.map_congr_left
    (fun batch _ => (job_ofBatch availableFormat batch).symm))

theorem forwardsNotifications (hconnected : b.isMasterConnected cfg = true) :
    ForwardsNotifications cfg b := by
  obtain ⟨hqueue, hpools, hns, hphase⟩ := forward_fields hconnected
  obtain ⟨hrecords, hnew⟩ := @forwardLoop_records cfg b.mServerConnectNotifications b
  refine ⟨hqueue, ⟨_, ?_, hrecords, hpools.trans hnew⟩, fun b' hkept d hd hagain => ?_, ?_⟩
  · rw [availableJobs_eq]
    exact batched_batches _
  · have hpool := any_isFor_of_mem_newInterfaces hd (hpools ▸ hkept)
    rw [(mem_newInterfaces.mp hagain).2] at hpool
    cases hpool
  · have hstill : (b.forwardServerAvailableNotifications cfg).isMasterConnected cfg = true := by
      rw [isMasterConnected, hphase]
      exact hconnected
    have hnone := (@forwardLoop_records cfg
      (b.forwardServerAvailableNotifications cfg).mServerConnectNotifications
      (b.forwardServerAvailableNotifications cfg)).1
    rw [hns, newInterfaces_forwardLoop _ b _ hpools, List.map_eq_nil_iff] at hnone
    rw [(forward_fields hstill).1, availableJobs_eq, hns, hnone]
    exact List.append_nil _

end Notifications

/-- A slave that is connected forwards its servers and the interfaces its clients wait for in
batches. -/
theorem forwards_in_batches (cfg : Config) (b : Broker)
    (hconnected : b.isMasterConnected cfg = true) :
    ForwardsServers cfg b ∧ ForwardsNotifications cfg b :=
  ⟨forwardsServers hconnected, forwardsNotifications hconnected⟩

/-- A broker that is connected to its master. -/
def forwardingConfig : Config := { theId := 0, hasMaster := true }

/-- Thirty-three servers of one interface, two notifications for another one and one for a
third. -/
def forwardingBroker : Broker :=
  { init with
    phase := .connected
    mConnectedServers :=
      ⟨List.replicate 33 { partyID := ⟨1, 1⟩, nid := 0, pid := 1, chid := 1
                           ifDescription := ⟨[65], 1, 0⟩ },
        List.pairwise_replicate.mpr (.inr (List.le_refl _))⟩
    mServerConnectNotifications :=
      [{ notificationID := 1, ifDescription := ⟨[66], 1, 0⟩ },
       { notificationID := 2, ifDescription := ⟨[66], 1, 0⟩ },
       { notificationID := 3, ifDescription := ⟨[67], 1, 0⟩ }] }

theorem forwards_in_batches_full :
    (forwardingBroker.registerJobsOf forwardingConfig).map (·.count) = [32, 1] ∧
      (forwardingBroker.availableJobs forwardingConfig).map (·.count) = [2] ∧
      ForwardsServers forwardingConfig forwardingBroker ∧
      ForwardsNotifications forwardingConfig forwardingBroker :=
  ⟨by decide, by decide, forwards_in_batches forwardingConfig forwardingBroker (by decide)⟩

end Broker

end Dsi
