import Dsi.Broker.JobQueue
import Dsi.Lib.Partial

/-!
# Dsi.Broker.JobExchange

The two threads of a slave broker on the queue of jobs: `MasterAdapter`, the loop of
`WorkerThread::run` in its single actions, and the broker thread, which pushes jobs
and frees those that come back through the pipe.  Behind any interleaving no job is
lost or there twice (`Exchange.conserved`).
-/

namespace Dsi

/-- Where the worker thread is in `WorkerThread::run` and in the functions it calls,
with the job it has taken off the queue. -/
inductive WorkerPc where
  | unstarted
  | entering
  | looping
  | removing
  | removed (job : JobPtr)
  | connecting
  | greeting
  | greeted
  | pending
  | executing (job : JobPtr)
  | executed (job : JobPtr) (rc : Bool)
  | drained
  | losing
  | lost
  | waiting
  | leaving
  | left
  | finished
  deriving DecidableEq, Repr

/-- The job the worker thread has taken off the queue and not reported yet. -/
def WorkerPc.hand : WorkerPc → Option JobPtr
  | .removed job => some job
  | .executing job => some job
  | .executed job _ => some job
  | _ => none

/-- What the worker thread writes into the pipe to the broker thread. -/
inductive WorkerNotice where
  | jobExecuted (job : JobPtr)
  | masterConnected
  | masterDisconnected
  deriving DecidableEq, Repr

/-- The job a notice is about. -/
def WorkerNotice.job? : WorkerNotice → Option JobPtr
  | .jobExecuted job => some job
  | _ => none

/-- What the two threads share, and where the worker thread is.  `pushed` and
`reported` are not in the code: the jobs that were pushed and those that were
reported finished, in this order. -/
structure Exchange where
  heap : JobHeap := fun _ => none
  mQueue : JobQueue := {}
  mConnected : Bool := false
  mActive : Bool := false
  timeout : Bool := true
  pc : WorkerPc := .unstarted
  pipe : List WorkerNotice := []
  pushed : List Ticket := []
  reported : List Ticket := []

/-- What happens next: the broker thread creates a job at the address that `malloc`
gives and pushes it, takes a notice out of the pipe, or starts or stops the worker
thread; the worker thread takes its next action, `io` being what the system call of
that action returns, with status 0 for success. -/
inductive ExchangeEvent where
  | push (p : JobPtr) (job : Job)
  | deliver
  | start
  | stop
  | worker (io : JobResult)

namespace Exchange

/-- `Notifier::jobFinished`. -/
def jobFinished (job : JobPtr) (s : Exchange) : Exchange :=
  { s with
    pipe := s.pipe ++ [.jobExecuted job]
    reported := s.reported ++ (s.heap.ticket? job).toList }

/-- `Job::create` and `MasterAdapter::eval`.  No caller handles a `malloc` that fails;
an address that is in use is none that it gives. -/
def push (p : JobPtr) (job : Job) (s : Exchange) : Except JobFault Exchange :=
  if p = 0 then .error .outOfMemory
  else if (s.heap p).isSome then .ok s
  else
    let ticket : Ticket := ⟨s.pushed.length, job⟩
    let heap := Function.update s.heap p (some ⟨ticket, { status := 0, ret_val := 0 }, 0⟩)
    match s.mQueue.push p heap with
    | .error e => .error e
    | .ok (q, heap) => .ok { s with heap := heap, mQueue := q, pushed := s.pushed ++ [ticket] }

/-- `Servicebroker::dispatch` on the next notice: behind `handleJobFinished` the job is
freed. -/
def deliver (s : Exchange) : Except JobFault Exchange :=
  match s.pipe with
  | [] => .ok s
  | .jobExecuted job :: rest =>
      if job = 0 then .ok { s with pipe := rest }
      else
        match s.heap job with
        | none => .error .deadAccess
        | some _ => .ok { s with heap := Function.update s.heap job none, pipe := rest }
  | _ :: rest => .ok { s with pipe := rest }

/-- A job is taken off the queue, if there is one. -/
def take (found : JobPtr → WorkerPc) (none : WorkerPc) (s : Exchange) :
    Except JobFault Exchange :=
  match s.mQueue.pop s.heap with
  | .error e => .error e
  | .ok (job, q, heap) =>
      .ok { s with heap := heap, mQueue := q, pc := if job = 0 then none else found job }

/-- The worker thread leaves a result in the job it has in hand. -/
def leave (job : JobPtr) (f : JobResult → JobResult) (s : Exchange) :
    Except JobFault Exchange :=
  match s.heap.modify job (fun o => { o with result := f o.result }) with
  | .error e => .error e
  | .ok heap => .ok { s with heap := heap }

/-- The next action of the worker thread. -/
def work (io : JobResult) (s : Exchange) : Except JobFault Exchange :=
  match s.pc with
  | .unstarted => .ok s
  | .entering => .ok { s with mActive := true, pc := .looping }
  | .looping =>
      if !s.mActive then .ok { s with pc := .leaving }
      else if !s.mConnected then .ok { s with pc := .removing }
      else .ok { s with pc := .pending }
  -- `MasterAdapter::removePending`
  | .removing => s.take .removed .connecting
  | .removed job =>
      match s.leave job (fun r => { r with status := Broker.EIO }) with
      | .error e => .error e
      | .ok s => .ok { s.jobFinished job with pc := .removing }
  | .connecting =>
      if io.status = 0 then .ok { s with mConnected := true, pc := .greeting }
      else .ok { s with mConnected := false, pc := .looping }
  | .greeting =>
      if io.status = 0 then .ok { s with pc := .greeted }
      else .ok { s with mConnected := false, pc := .looping }
  | .greeted => .ok { s with pipe := s.pipe ++ [.masterConnected], pc := .looping }
  -- `MasterAdapter::executePending`
  | .pending => s.take .executing .drained
  | .executing job =>
      match s.leave job (fun _ => Broker.execute io) with
      | .error e => .error e
      | .ok s => .ok { s with pc := .executed job (io.status = 0) }
  | .executed job rc =>
      .ok { s.jobFinished job with pc := if rc then .pending else .losing }
  | .drained =>
      if s.timeout then
        if io.status = 0 then .ok { s with pc := .waiting } else .ok { s with pc := .losing }
      else .ok { s with pc := .waiting }
  | .losing => .ok { s with mConnected := false, pc := .lost }
  | .lost => .ok { s with pipe := s.pipe ++ [.masterDisconnected], pc := .waiting }
  | .waiting => .ok { s with timeout := io.status ≠ 0, pc := .looping }
  | .leaving => .ok { s with mConnected := false, pc := .left }
  | .left => .ok { s with pipe := s.pipe ++ [.masterDisconnected], pc := .finished }
  | .finished => .ok s

/-- One action of one of the two threads. -/
def step (s : Exchange) : ExchangeEvent → Except JobFault Exchange
  | .push p job => s.push p job
  | .deliver => s.deliver
  | .start => .ok (if s.pc = .unstarted then { s with pc := .entering } else s)
  | .stop => .ok { s with mActive := false }
  | .worker io => s.work io

/-- Before the worker thread is started. -/
def init : Exchange := {}

/-- Nothing is lost or there twice: the queue stands for the jobs `ps`, and those that
were pushed are those reported, the one in the worker's hand and those in the queue,
in this order; no two of them came with one push. -/
structure Conserved (s : Exchange) (ps : List JobPtr) : Prop where
  represents : s.mQueue.Represents s.heap ps
  back : s.mQueue.mBack = 0 ↔ ps = []
  pushed : s.pushed.map some =
    s.reported.map some ++ s.pc.hand.toList.map s.heap.ticket? ++ ps.map s.heap.ticket?
  once : (s.pushed.map (·.number)).Nodup

/-- The jobs on their way back to the broker thread. -/
def piped (s : Exchange) : List JobPtr := s.pipe.filterMap WorkerNotice.job?

/-- Every job that is pushed and not freed yet has one keeper: the pipe, the worker
thread or the queue, which stands for `ps`. -/
structure Custody (s : Exchange) (ps : List JobPtr) : Prop where
  represents : s.mQueue.Represents s.heap ps
  nodup : (s.piped ++ s.pc.hand.toList ++ ps).Nodup
  live : ∀ p ∈ s.piped ++ s.pc.hand.toList, (s.heap.ticket? p).isSome
  null : s.heap.ticket? 0 = none
  pushed : s.pushed.map some =
    s.reported.map some ++ s.pc.hand.toList.map s.heap.ticket? ++ ps.map s.heap.ticket?
  numbered : s.pushed.map (·.number) = List.range s.pushed.length

theorem custody_init : Custody init [] where
  represents := .empty _
  nodup := List.nodup_nil
  live := by simp [piped, init, WorkerPc.hand]
  null := rfl
  pushed := rfl
  numbered := rfl

namespace Custody

variable {s : Exchange} {ps : List JobPtr}

theorem toConserved (h : Custody s ps) : s.Conserved ps where
  represents := h.represents
  back := h.represents.mBack_eq_zero_iff
  pushed := h.pushed
  once := by
    rw [h.numbered]
    exact List.nodup_range

/-- What the threads do beside the jobs changes no keeper. -/
theorem of_eq (h : Custody s ps) {s' : Exchange} (hqueue : s'.mQueue = s.mQueue)
    (hheap : s'.heap = s.heap) (hhand : s'.pc.hand = s.pc.hand) (hpiped : s'.piped = s.piped)
    (hpushed : s'.pushed = s.pushed) (hreported : s'.reported = s.reported) :
    Custody s' ps where
  represents := by rw [hqueue, hheap]; exact h.represents
  nodup := by rw [hpiped, hhand]; exact h.nodup
  live := by rw [hpiped, hhand, hheap]; exact h.live
  null := by rw [hheap]; exact h.null
  pushed := by rw [hpushed, hreported, hhand, hheap]; exact h.pushed
  numbered := by rw [hpushed]; exact h.numbered

/-- An address that is not in use has no keeper. -/
theorem not_mem_of_free (h : Custody s ps) {p : JobPtr} (hp : s.heap.ticket? p = none) :
    p ∉ s.piped ++ s.pc.hand.toList ++ ps := by
  intro hmem
  rcases List.mem_append.mp hmem with hmem | hmem
  · have hlive := h.live p hmem
    rw [hp] at hlive
    exact absurd hlive (by simp)
  · have hlive := h.represents.isSome hmem
    rw [JobHeap.ticket?, Option.map_eq_none_iff] at hp
    rw [hp] at hlive
    exact absurd hlive (by simp)

theorem push (h : Custody s ps) {p : JobPtr} (hp : p ≠ 0) (job : Job) :
    ∃ s' ps', s.push p job = .ok s' ∧ Custody s' ps' := by
  unfold Exchange.push
  rw [if_neg hp]
  by_cases hused : (s.heap p).isSome
  · exact ⟨s, ps, if_pos hused, h⟩
  rw [if_neg hused]
  dsimp only
  set ticket : Ticket := ⟨s.pushed.length, job⟩ with hticket
  set heap : JobHeap := Function.update s.heap p (some ⟨ticket, { status := 0, ret_val := 0 }, 0⟩)
    with hheap
  have hfree : s.heap.ticket? p = none := by
    rw [JobHeap.ticket?, Option.not_isSome_iff_eq_none.mp hused]
    rfl
  have hfresh := h.not_mem_of_free hfree
  have hps : p ∉ ps := fun hmem => hfresh (List.mem_append_right _ hmem)
  have hne : ∀ x ∈ s.piped ++ s.pc.hand.toList ++ ps, x ≠ p := fun x hx hxp => hfresh (hxp ▸ hx)
  have hrepresents : s.mQueue.Represents heap ps := by
    refine h.represents.congr fun x hx => ?_
    rw [hheap, JobHeap.next_update, Function.update_of_ne (hne x (List.mem_append_right _ hx))]
  have hnext : heap.next p = some 0 := by
    rw [hheap, JobHeap.next_update, Function.update_self]
    rfl
  obtain ⟨q', heap', hpush, hrepresents', htickets⟩ := hrepresents.push_eq hnext hp hps
  rw [hpush]
  have hself : heap'.ticket? p = some ticket := by
    rw [htickets, hheap, JobHeap.ticket?_update, Function.update_self]
    rfl
  have hother : ∀ x, x ≠ p → heap'.ticket? x = s.heap.ticket? x := by
    intro x hx
    rw [htickets, hheap, JobHeap.ticket?_update, Function.update_of_ne hx]
  have hmap : ∀ l : List JobPtr, (∀ x ∈ l, x ≠ p) → l.map heap'.ticket? = l.map s.heap.ticket? :=
    fun l hl => List.map_congr_left fun x hx => hother x (hl x hx)
  refine ⟨_, ps ++ [p], rfl, ?_⟩
  refine ⟨hrepresents', ?_, ?_, ?_, ?_, ?_⟩
  · show (s.piped ++ s.pc.hand.toList ++ (ps ++ [p])).Nodup
    have hconcat := h.nodup.concat hfresh
    rwa [List.concat_eq_append, List.append_assoc] at hconcat
  · intro x hx
    show (heap'.ticket? x).isSome
    rw [hother x (hne x (List.mem_append_left _ hx))]
    exact h.live x hx
  · show heap'.ticket? 0 = none
    rw [hother 0 hp.symm]
    exact h.null
  · show (s.pushed ++ [ticket]).map some = s.reported.map some ++
      s.pc.hand.toList.map heap'.ticket? ++ (ps ++ [p]).map heap'.ticket?
    rw [List.map_append, h.pushed, List.map_append, List.map_singleton, List.map_singleton, hself,
      hmap ps fun x hx => hne x (List.mem_append_right _ hx),
      hmap s.pc.hand.toList fun x hx =>
        hne x (List.mem_append_left _ (List.mem_append_right _ hx)), List.append_assoc]
  · show (s.pushed ++ [ticket]).map (·.number) = List.range (s.pushed ++ [ticket]).length
    rw [List.map_append, h.numbered, List.length_append, List.length_singleton, List.range_succ]
    rfl

/-- A worker with empty hands takes the first job off the queue, if there is one. -/
theorem take (h : Custody s ps) (hhand : s.pc.hand = none) {found : JobPtr → WorkerPc}
    {idle : WorkerPc} (hfound : ∀ p, (found p).hand = some p) (hidle : idle.hand = none) :
    ∃ s' ps', s.take found idle = .ok s' ∧ Custody s' ps' := by
  unfold Exchange.take
  cases ps with
  | nil =>
      rw [h.represents.pop_nil]
      dsimp only
      rw [if_pos rfl]
      exact ⟨_, [], rfl, h.of_eq rfl rfl (hidle.trans hhand.symm) rfl rfl rfl⟩
  | cons p ps =>
      obtain ⟨q', heap', hpop, hrepresents, htickets⟩ := h.represents.pop_cons
      have hp : p ≠ 0 := fun hp => h.represents.nonnull (hp ▸ List.mem_cons_self ..)
      rw [hpop]
      dsimp only
      rw [if_neg hp]
      have hlive := h.represents.isSome (List.mem_cons_self ..)
      have hnodup := h.nodup
      have hpushed := h.pushed
      rw [hhand, Option.toList_none, List.append_nil] at hnodup
      rw [hhand, Option.toList_none, List.map_nil, List.append_nil] at hpushed
      refine ⟨_, ps, rfl, hrepresents, ?_, ?_, ?_, ?_, h.numbered⟩
      · show (s.piped ++ (found p).hand.toList ++ ps).Nodup
        rw [hfound, List.append_assoc]
        exact hnodup
      · intro x hx
        show (heap'.ticket? x).isSome
        rw [htickets]
        rw [hfound] at hx
        rcases List.mem_append.mp hx with hx | hx
        · exact h.live x (List.mem_append_left _ hx)
        · obtain rfl : x = p := List.mem_singleton.mp hx
          rwa [JobHeap.ticket?, Option.isSome_map]
      · show heap'.ticket? 0 = none
        rw [htickets]
        exact h.null
      · show s.pushed.map some = s.reported.map some ++ (found p).hand.toList.map heap'.ticket? ++
          ps.map heap'.ticket?
        rw [hfound, htickets, hpushed, List.append_assoc]
        rfl

/-- The worker thread writes only the result of the job in its hand. -/
theorem leave (h : Custody s ps) {job : JobPtr} (hhand : s.pc.hand = some job)
    (f : JobResult → JobResult) :
    ∃ heap', s.leave job f = .ok { s with heap := heap' } ∧
      Custody { s with heap := heap' } ps := by
  have hjob : job ∈ s.pc.hand.toList := by rw [hhand]; exact List.mem_singleton_self job
  have hlive := h.live job (List.mem_append_right _ hjob)
  rw [JobHeap.ticket?, Option.isSome_map] at hlive
  obtain ⟨o, ho⟩ := Option.isSome_iff_exists.mp hlive
  have htickets : JobHeap.ticket? (Function.update s.heap job
      (some { o with result := f o.result })) = s.heap.ticket? :=
        JobHeap.ticket?_update_of_eq ho rfl
  have hnext : JobHeap.next (Function.update s.heap job
      (some { o with result := f o.result })) = s.heap.next := by
    have hself : s.heap.next job = some o.next := by rw [JobHeap.next, ho]; rfl
    rw [JobHeap.next_update, Option.map_some, ← hself, Function.update_eq_self]
  refine ⟨_, by unfold Exchange.leave JobHeap.modify; rw [ho], ?_⟩
  refine ⟨h.represents.congr fun x _ => congrFun hnext x, h.nodup, ?_, ?_, ?_, h.numbered⟩
  · intro x hx
    show (JobHeap.ticket? _ x).isSome
    rw [htickets]
    exact h.live x hx
  · show JobHeap.ticket? _ 0 = none
    rw [htickets]
    exact h.null
  · show _ = _ ++ List.map (JobHeap.ticket? _) _ ++ List.map (JobHeap.ticket? _) _
    rw [htickets]
    exact h.pushed

/-- What is reported is the job in the worker's hand. -/
theorem jobFinished (h : Custody s ps) {job : JobPtr} (hhand : s.pc.hand = some job)
    {pc : WorkerPc} (hpc : pc.hand = none) : Custody { s.jobFinished job with pc := pc } ps := by
  have hjob : job ∈ s.pc.hand.toList := by rw [hhand]; exact List.mem_singleton_self job
  obtain ⟨t, ht⟩ := Option.isSome_iff_exists.mp (h.live job (List.mem_append_right _ hjob))
  have hpiped : Exchange.piped { s.jobFinished job with pc := pc } = s.piped ++ [job] := by
    show (s.pipe ++ [WorkerNotice.jobExecuted job]).filterMap _ = _
    rw [List.filterMap_append]
    rfl
  refine ⟨h.represents, ?_, ?_, h.null, ?_, h.numbered⟩
  · have hnodup := h.nodup
    rw [hhand] at hnodup
    rw [hpiped]
    show (s.piped ++ [job] ++ pc.hand.toList ++ ps).Nodup
    rw [hpc, Option.toList_none, List.append_nil]
    exact hnodup
  · rw [hpiped]
    show ∀ p ∈ s.piped ++ [job] ++ pc.hand.toList, _
    rw [hpc, Option.toList_none, List.append_nil]
    have hlive := h.live
    rw [hhand] at hlive
    exact hlive
  · show s.pushed.map some = (s.reported ++ (s.heap.ticket? job).toList).map some ++
      pc.hand.toList.map s.heap.ticket? ++ ps.map s.heap.ticket?
    rw [h.pushed, hhand, hpc, ht, List.map_append]
    simp [ht]

/-- A notice is taken out of the pipe, and its job is freed. -/
theorem deliver (h : Custody s ps) : ∃ s', s.deliver = .ok s' ∧ Custody s' ps := by
  unfold Exchange.deliver
  split
  case h_1 => exact ⟨s, rfl, h⟩
  case h_2 job rest hpipe =>
    have hpiped : s.piped = job :: rest.filterMap WorkerNotice.job? := by
      rw [piped, hpipe]
      rfl
    have hlive := h.live job (by rw [hpiped]; exact List.mem_cons_self ..)
    have hjob : job ≠ 0 := by
      rintro rfl
      rw [h.null] at hlive
      exact absurd hlive (by simp)
    rw [JobHeap.ticket?, Option.isSome_map] at hlive
    obtain ⟨o, ho⟩ := Option.isSome_iff_exists.mp hlive
    rw [if_neg hjob, ho]
    have hnodup := h.nodup
    rw [hpiped, List.cons_append, List.cons_append, List.nodup_cons] at hnodup
    obtain ⟨hfresh, hnodup⟩ := hnodup
    have hne : ∀ x ∈ rest.filterMap WorkerNotice.job? ++ s.pc.hand.toList ++ ps, x ≠ job :=
      fun x hx hxj => hfresh (hxj ▸ hx)
    have hother : ∀ x, x ≠ job → JobHeap.ticket? (Function.update s.heap job none) x =
        s.heap.ticket? x := fun x hx => by rw [JobHeap.ticket?_update, Function.update_of_ne hx]
    refine ⟨_, rfl, h.represents.congr ?_, hnodup, ?_, ?_, ?_, h.numbered⟩
    · intro x hx
      rw [JobHeap.next_update, Function.update_of_ne (hne x (List.mem_append_right _ hx))]
    · intro x hx
      show (JobHeap.ticket? _ x).isSome
      rw [hother x (hne x (List.mem_append_left _ hx))]
      have hmem : x ∈ s.piped ++ s.pc.hand.toList := by
        rw [hpiped]
        exact List.mem_cons_of_mem _ hx
      exact h.live x hmem
    · show JobHeap.ticket? _ 0 = none
      rw [hother 0 hjob.symm]
      exact h.null
    · show s.pushed.map some = s.reported.map some ++ s.pc.hand.toList.map (JobHeap.ticket? _) ++
        ps.map (JobHeap.ticket? _)
      rw [List.map_congr_left fun x hx => hother x (hne x (List.mem_append_right _ hx)),
        List.map_congr_left fun x hx =>
          hother x (hne x (List.mem_append_left _ (List.mem_append_right _ hx)))]
      exact h.pushed
  case h_3 n rest hjob hpipe =>
    refine ⟨_, rfl, h.of_eq rfl rfl rfl ?_ rfl rfl⟩
    show rest.filterMap _ = s.pipe.filterMap _
    rw [hpipe]
    cases n with
    | jobExecuted job => exact absurd rfl (hjob job)
    | masterConnected => rfl
    | masterDisconnected => rfl

/-- What the worker thread tells about the connection is about no job. -/
theorem notify (h : Custody s ps) {n : WorkerNotice} (hn : n.job? = none) {pc : WorkerPc}
    (hpc : pc.hand = s.pc.hand) : Custody { s with pipe := s.pipe ++ [n], pc := pc } ps := by
  refine h.of_eq rfl rfl hpc ?_ rfl rfl
  show (s.pipe ++ [n]).filterMap _ = _
  rw [List.filterMap_append, List.filterMap_cons_none hn]
  exact List.append_nil _

theorem work (h : Custody s ps) (io : JobResult) :
    ∃ s' ps', s.work io = .ok s' ∧ Custody s' ps' := by
  have hmove {pc : WorkerPc} (hpc : pc.hand = s.pc.hand) (mConnected mActive timeout : Bool) :
      Custody { s with mConnected := mConnected, mActive := mActive, timeout := timeout, pc := pc }
        ps := h.of_eq rfl rfl hpc rfl rfl rfl
  unfold Exchange.work
  split
  case h_1 => exact ⟨_, ps, rfl, h⟩
  case h_2 hpc => exact ⟨_, ps, rfl, hmove (by rw [hpc]; rfl) _ _ _⟩
  case h_3 hpc =>
    split
    · exact ⟨_, ps, rfl, hmove (by rw [hpc]; rfl) _ _ _⟩
    · split
      · exact ⟨_, ps, rfl, hmove (by rw [hpc]; rfl) _ _ _⟩
      · exact ⟨_, ps, rfl, hmove (by rw [hpc]; rfl) _ _ _⟩
  case h_4 hpc => exact h.take (by rw [hpc]; rfl) (fun _ => rfl) rfl
  case h_5 job hpc =>
    have hhand : s.pc.hand = some job := by rw [hpc]; rfl
    obtain ⟨heap, hleave, hcustody⟩ := h.leave hhand (fun r => { r with status := Broker.EIO })
    rw [hleave]
    exact ⟨_, ps, rfl, hcustody.jobFinished hhand rfl⟩
  case h_6 hpc =>
    split
    · exact ⟨_, ps, rfl, hmove (by rw [hpc]; rfl) _ _ _⟩
    · exact ⟨_, ps, rfl, hmove (by rw [hpc]; rfl) _ _ _⟩
  case h_7 hpc =>
    split
    · exact ⟨_, ps, rfl, hmove (by rw [hpc]; rfl) _ _ _⟩
    · exact ⟨_, ps, rfl, hmove (by rw [hpc]; rfl) _ _ _⟩
  case h_8 hpc => exact ⟨_, ps, rfl, h.notify rfl (by rw [hpc]; rfl)⟩
  case h_9 hpc => exact h.take (by rw [hpc]; rfl) (fun _ => rfl) rfl
  case h_10 job hpc =>
    have hhand : s.pc.hand = some job := by rw [hpc]; rfl
    obtain ⟨heap, hleave, hcustody⟩ := h.leave hhand (fun _ => Broker.execute io)
    rw [hleave]
    exact ⟨_, ps, rfl, hcustody.of_eq rfl rfl (by rw [hpc]; rfl) rfl rfl rfl⟩
  case h_11 job rc hpc =>
    exact ⟨_, ps, rfl, h.jobFinished (by rw [hpc]; rfl) (by cases rc <;> rfl)⟩
  case h_12 hpc =>
    split
    · split
      · exact ⟨_, ps, rfl, hmove (by rw [hpc]; rfl) _ _ _⟩
      · exact ⟨_, ps, rfl, hmove (by rw [hpc]; rfl) _ _ _⟩
    · exact ⟨_, ps, rfl, hmove (by rw [hpc]; rfl) _ _ _⟩
  case h_13 hpc => exact ⟨_, ps, rfl, hmove (by rw [hpc]; rfl) _ _ _⟩
  case h_14 hpc => exact ⟨_, ps, rfl, h.notify rfl (by rw [hpc]; rfl)⟩
  case h_15 hpc => exact ⟨_, ps, rfl, hmove (by rw [hpc]; rfl) _ _ _⟩
  case h_16 hpc => exact ⟨_, ps, rfl, hmove (by rw [hpc]; rfl) _ _ _⟩
  case h_17 hpc => exact ⟨_, ps, rfl, h.notify rfl (by rw [hpc]; rfl)⟩
  case h_18 => exact ⟨_, ps, rfl, h⟩

/-- One action of one thread: only a job that gets no memory breaks it off. -/
theorem step (h : Custody s ps) (e : ExchangeEvent) :
    (∃ s' ps', s.step e = .ok s' ∧ Custody s' ps') ∨
      ∃ job, e = .push 0 job ∧ s.step e = .error .outOfMemory := by
  cases e with
  | push p job =>
      by_cases hp : p = 0
      · subst hp
        exact .inr ⟨job, rfl, rfl⟩
      · exact .inl (h.push hp job)
  | deliver =>
      obtain ⟨s', hs', hcustody⟩ := h.deliver
      exact .inl ⟨s', ps, hs', hcustody⟩
  | start =>
      refine .inl ⟨_, ps, rfl, ?_⟩
      split
      case isTrue hpc => exact h.of_eq rfl rfl (by rw [hpc]; rfl) rfl rfl rfl
      case isFalse => exact h
  | stop => exact .inl ⟨_, ps, rfl, h.of_eq rfl rfl rfl rfl rfl rfl⟩
  | worker io => exact .inl (h.work io)

theorem run (h : Custody s ps) (es : List ExchangeEvent) :
    (∃ s' ps', Partial.run Exchange.step s es = .ok s' ∧ Custody s' ps') ∨
      (∃ job, .push 0 job ∈ es) ∧ Partial.run Exchange.step s es = .error .outOfMemory := by
  induction es generalizing s ps with
  | nil => exact .inl ⟨s, ps, rfl, h⟩
  | cons e es ih =>
      rcases h.step e with ⟨s', ps', hs', hcustody⟩ | ⟨job, rfl, herror⟩
      · rw [Partial.run_cons_of_ok hs']
        refine (ih hcustody).imp id fun ⟨⟨job, hjob⟩, herror⟩ => ⟨⟨job, ?_⟩, herror⟩
        exact List.mem_cons_of_mem _ hjob
      · refine .inr ⟨⟨job, List.mem_cons_self ..⟩, ?_⟩
        rw [Partial.run, herror]
        rfl

end Custody

/-- Behind any interleaving of the two threads no job is lost or there twice, as long as
there is memory for the jobs. -/
theorem conserved (es : List ExchangeEvent) :
    match Partial.run step init es with
    | .ok s => ∃ ps, s.Conserved ps
    | .error e => e = .outOfMemory ∧ ∃ job, .push 0 job ∈ es := by
  rcases custody_init.run es with ⟨s, ps, hs, hcustody⟩ | ⟨hjob, herror⟩
  · rw [hs]
    exact ⟨ps, hcustody.toConserved⟩
  · rw [herror]
    exact ⟨rfl, hjob⟩

end Exchange

end Dsi
