import Mathlib.Data.List.Nodup
import Mathlib.Data.List.Range
import Mathlib.Data.UInt
import Dsi.Broker.Step
import Dsi.Lib.LinkedList

/-!
# Dsi.Broker.JobQueue

The queue through which a slave broker hands its jobs to the worker thread: jobs in
memory that are linked through `next`, `JobQueue` on them, and what it takes to
stand for a list of jobs (`JobQueue.Represents`).  `push` appends to that list
and `pop` takes its first job.
-/

namespace Dsi

/-- The address of a job; 0 is the null pointer.  Addresses have four bytes, as
`Notifier::jobFinished` asserts. -/
abbrev JobPtr := UInt32

/-- Which push a job came with, and what it asks the master.  The number is not in
the code: addresses are used again, and it tells the jobs apart that have one in
turn. -/
structure Ticket where
  number : Nat
  job : Job
  deriving DecidableEq, Repr

/-- A `Job` in memory. -/
structure JobObject where
  ticket : Ticket
  result : JobResult
  next : JobPtr

/-- The jobs in memory. -/
abbrev JobHeap := JobPtr → Option JobObject

/-- What a thread can break off with: `malloc` gives no memory for a job, an
assertion of `JobQueue::push` fails, and a job is accessed that is not in memory. -/
inductive JobFault where
  | outOfMemory
  | assertion
  | deadAccess
  deriving DecidableEq, Repr

namespace JobHeap

/-- The link of a job. -/
def next (heap : JobHeap) (p : JobPtr) : Option JobPtr := (heap p).map (·.next)

/-- The ticket of a job. -/
def ticket? (heap : JobHeap) (p : JobPtr) : Option Ticket := (heap p).map (·.ticket)

@[simp] theorem next_update (heap : JobHeap) (p : JobPtr) (o : Option JobObject) :
    JobHeap.next (Function.update heap p o) =
      Function.update heap.next p (o.map (·.next)) := by
  funext x
  rw [next, Function.update_apply, Function.update_apply]
  split <;> rfl

@[simp] theorem ticket?_update (heap : JobHeap) (p : JobPtr) (o : Option JobObject) :
    JobHeap.ticket? (Function.update heap p o) =
      Function.update heap.ticket? p (o.map (·.ticket)) := by
  funext x
  rw [ticket?, Function.update_apply, Function.update_apply]
  split <;> rfl

/-- Writing a job that keeps its ticket changes no ticket. -/
theorem ticket?_update_of_eq {heap : JobHeap} {p : JobPtr} {o o' : JobObject}
    (h : heap p = some o) (ho : o'.ticket = o.ticket) :
    JobHeap.ticket? (Function.update heap p (some o')) = heap.ticket? := by
  have hp : heap.ticket? p = some o'.ticket := by rw [ticket?, h, ho]; rfl
  rw [ticket?_update, Option.map_some, ← hp, Function.update_eq_self]

/-- Writes through a pointer to a job. -/
def modify (heap : JobHeap) (p : JobPtr) (f : JobObject → JobObject) : Except JobFault JobHeap :=
  match heap p with
  | none => .error .deadAccess
  | some o => .ok (Function.update heap p (some (f o)))

end JobHeap

/-- `JobQueue`. -/
structure JobQueue where
  mFront : JobPtr := 0
  mBack : JobPtr := 0
  mSize : UInt32 := 0
  mTotalCounter : UInt32 := 0
  deriving DecidableEq, Repr

namespace JobQueue

/-- The link that `push` sets: the last job's, if there is one. -/
def hook (q : JobQueue) (job : JobPtr) (heap : JobHeap) : Except JobFault (JobPtr × JobHeap) :=
  if q.mBack = 0 then .ok (job, heap)
  else
    match heap.modify q.mBack (fun o => { o with next := job }) with
    | .ok heap => .ok (q.mFront, heap)
    | .error e => .error e

/-- `JobQueue::push`, under its lock. -/
def push (q : JobQueue) (job : JobPtr) (heap : JobHeap) :
    Except JobFault (JobQueue × JobHeap) :=
  if job = 0 then .error .assertion
  else
    match heap.next job with
    | none => .error .deadAccess
    | some next =>
        if next ≠ 0 then .error .assertion
        else
          match q.hook job heap with
          | .error e => .error e
          | .ok (front, heap) =>
              .ok ({ mFront := front, mBack := job, mSize := q.mSize + 1,
                     mTotalCounter := q.mTotalCounter + 1 }, heap)

/-- `JobQueue::pop`, under its lock. -/
def pop (q : JobQueue) (heap : JobHeap) : Except JobFault (JobPtr × JobQueue × JobHeap) :=
  if q.mFront = 0 then .ok (0, q, heap)
  else
    match heap q.mFront with
    | none => .error .deadAccess
    | some o =>
        .ok (q.mFront,
          { q with
            mFront := o.next
            mBack := if o.next = 0 then 0 else q.mBack
            mSize := q.mSize - 1 },
          Function.update heap q.mFront (some { o with next := 0 }))

/-- The queue stands for the jobs `ps`: from `mFront` the links lead through them to
null, `mBack` is the last of them, or null, and `mSize` their number. -/
structure Represents (q : JobQueue) (heap : JobHeap) (ps : List JobPtr) : Prop where
  chain : Linked heap.next q.mFront ps 0
  nodup : ps.Nodup
  nonnull : 0 ∉ ps
  back : q.mBack = ps.getLast?.getD 0
  size : q.mSize.toNat = ps.length

/-- A list of addresses that are in use once is shorter than the address space. -/
theorem length_lt_of_nodup {ps : List JobPtr} (h : ps.Nodup) (hzero : 0 ∉ ps) :
    ps.length < 2 ^ 32 := by
  have hnodup : ((0 :: ps).map UInt32.toNat).Nodup :=
    (List.nodup_cons.mpr ⟨hzero, h⟩).map fun _ _ => UInt32.toNat.inj
  have hsubset : (0 :: ps).map UInt32.toNat ⊆ List.range (2 ^ 32) := by
    intro n hn
    obtain ⟨p, -, rfl⟩ := List.mem_map.mp hn
    exact List.mem_range.mpr p.toNat_lt
  have hle := (List.subperm_of_subset hnodup hsubset).length_le
  rwa [List.length_map, List.length_range, List.length_cons] at hle

namespace Represents

variable {q : JobQueue} {heap : JobHeap} {ps : List JobPtr} {p : JobPtr}

/-- The empty queue. -/
theorem empty (heap : JobHeap) : Represents {} heap [] where
  chain := rfl
  nodup := List.nodup_nil
  nonnull := List.not_mem_nil
  back := rfl
  size := rfl

/-- The jobs in the queue are in memory. -/
theorem isSome (h : q.Represents heap ps) (hp : p ∈ ps) : (heap p).isSome := by
  have hnext := h.chain.isSome hp
  rwa [JobHeap.next, Option.isSome_map] at hnext

/-- The queue depends on the links of its own jobs only. -/
theorem congr (h : q.Represents heap ps) {heap' : JobHeap}
    (hnext : ∀ p ∈ ps, heap'.next p = heap.next p) : q.Represents heap' ps where
  chain := h.chain.congr hnext
  nodup := h.nodup
  nonnull := h.nonnull
  back := h.back
  size := h.size

theorem mFront_eq_zero_iff (h : q.Represents heap ps) : q.mFront = 0 ↔ ps = [] := by
  have hchain := h.chain
  cases ps with
  | nil => exact ⟨fun _ => rfl, fun _ => hchain⟩
  | cons p ps =>
      rw [hchain.head]
      have hp : p ≠ 0 := fun hp => h.nonnull (hp ▸ List.mem_cons_self ..)
      exact ⟨fun hzero => absurd hzero hp, fun hnil => absurd hnil (by simp)⟩

theorem mBack_eq_zero_iff (h : q.Represents heap ps) : q.mBack = 0 ↔ ps = [] := by
  rw [h.back]
  induction ps using List.reverseRecOn with
  | nil => exact ⟨fun _ => rfl, fun _ => rfl⟩
  | append_singleton ps p =>
      rw [List.getLast?_concat, Option.getD_some]
      have hp : p ≠ 0 := fun hp => h.nonnull (hp ▸ List.mem_concat_self)
      exact ⟨fun hzero => absurd hzero hp, fun hnil => absurd hnil (by simp)⟩

/-- The link that is set leads to the new job. -/
theorem hook_eq (h : q.Represents heap ps) {job : JobPtr} (hjob : heap.next job = some 0)
    (hfresh : job ∉ ps) :
    ∃ front heap', q.hook job heap = .ok (front, heap') ∧
      Linked heap'.next front (ps ++ [job]) 0 ∧ heap'.ticket? = heap.ticket? := by
  unfold hook
  by_cases hback : q.mBack = 0
  · obtain rfl := h.mBack_eq_zero_iff.mp hback
    rw [if_pos hback]
    exact ⟨job, heap, rfl, ⟨rfl, 0, hjob, rfl⟩, rfl⟩
  · rw [if_neg hback]
    obtain ⟨ps, last, rfl⟩ : ∃ ps' last, ps = ps' ++ [last] := by
      induction ps using List.reverseRecOn with
      | nil => exact absurd (h.mBack_eq_zero_iff.mpr rfl) hback
      | append_singleton ps last => exact ⟨ps, last, rfl⟩
    have hlast : q.mBack = last := by rw [h.back, List.getLast?_concat, Option.getD_some]
    obtain ⟨o, ho⟩ := Option.isSome_iff_exists.mp (h.isSome (List.mem_concat_self (a := last)))
    rw [hlast, JobHeap.modify, ho]
    refine ⟨_, _, rfl, Linked.concat.mpr ⟨?_, ?_⟩, JobHeap.ticket?_update_of_eq ho rfl⟩
    · rw [JobHeap.next_update]
      exact h.chain.push_back h.nodup job
    · rw [JobHeap.next_update, Function.update_of_ne, hjob]
      rintro rfl
      exact hfresh List.mem_concat_self

/-- `push` appends a job to the queue. -/
theorem push_eq (h : q.Represents heap ps) {job : JobPtr} (hjob : heap.next job = some 0)
    (hnonnull : job ≠ 0) (hfresh : job ∉ ps) :
    ∃ q' heap', q.push job heap = .ok (q', heap') ∧ q'.Represents heap' (ps ++ [job]) ∧
      heap'.ticket? = heap.ticket? := by
  obtain ⟨front, heap', hhook, hchain, hticket⟩ := h.hook_eq hjob hfresh
  have hnodup : (ps ++ [job]).Nodup := by
    rw [← List.concat_eq_append]
    exact h.nodup.concat hfresh
  have hzero : 0 ∉ ps ++ [job] := by
    rw [List.mem_append, List.mem_singleton]
    rintro (hmem | rfl)
    · exact h.nonnull hmem
    · exact hnonnull rfl
  have hpush : q.push job heap = .ok (⟨front, job, q.mSize + 1, q.mTotalCounter + 1⟩, heap') := by
    unfold push
    rw [if_neg hnonnull, hjob]
    simp only [ne_eq, not_true_eq_false, if_false, hhook]
  refine ⟨_, heap', hpush, ⟨hchain, hnodup, hzero, ?_, ?_⟩, hticket⟩
  · rw [List.getLast?_concat, Option.getD_some]
  · have hlt := length_lt_of_nodup hnodup hzero
    rw [List.length_append, List.length_singleton] at hlt ⊢
    rw [UInt32.toNat_add, h.size, UInt32.toNat_one, Nat.mod_eq_of_lt hlt]

/-- `pop` on the empty queue gives null. -/
theorem pop_nil (h : q.Represents heap []) : q.pop heap = .ok (0, q, heap) := by
  unfold pop
  rw [if_pos (h.mFront_eq_zero_iff.mpr rfl)]

/-- `pop` takes the first job off the queue. -/
theorem pop_cons (h : q.Represents heap (p :: ps)) :
    ∃ q' heap', q.pop heap = .ok (p, q', heap') ∧ q'.Represents heap' ps ∧
      heap'.ticket? = heap.ticket? := by
  obtain ⟨o, ho⟩ := Option.isSome_iff_exists.mp (h.isSome (List.mem_cons_self ..))
  obtain ⟨hfront, n, hn, hrest⟩ := h.chain
  have hp : p ∉ ps := (List.nodup_cons.mp h.nodup).1
  obtain rfl : o.next = n := by
    rw [JobHeap.next, ho] at hn
    exact Option.some.inj hn
  have hchain : Linked (JobHeap.next (Function.update heap p (some { o with next := 0 })))
      o.next ps 0 := by
    rw [JobHeap.next_update]
    exact hrest.update hp _
  have hnonnull : p ≠ 0 := fun hp => h.nonnull (hp ▸ List.mem_cons_self ..)
  have hpop : q.pop heap = .ok (p,
      { q with
        mFront := o.next
        mBack := if o.next = 0 then 0 else q.mBack
        mSize := q.mSize - 1 },
      Function.update heap p (some { o with next := 0 })) := by
    unfold pop
    rw [hfront, if_neg hnonnull, ho]
  have hzero : 0 ∉ ps := fun hmem => h.nonnull (List.mem_cons_of_mem _ hmem)
  refine ⟨_, _, hpop, ⟨hchain, (List.nodup_cons.mp h.nodup).2, hzero, ?_, ?_⟩,
    JobHeap.ticket?_update_of_eq ho rfl⟩
  · cases ps with
    | nil =>
        have hnext : o.next = 0 := hchain
        rw [if_pos hnext]
        rfl
    | cons p' ps =>
        have hnext : o.next = p' := hchain.head
        have hp' : p' ≠ 0 := fun hp' => hzero (hp' ▸ List.mem_cons_self ..)
        rw [hnext, if_neg hp', h.back, List.getLast?_cons_cons]
  · have hsize := h.size
    rw [List.length_cons] at hsize
    rw [UInt32.toNat_sub_of_le, hsize]
    · rfl
    · rw [UInt32.le_iff_toNat_le, hsize]
      exact Nat.succ_le_succ (Nat.zero_le _)

end Represents

end JobQueue

end Dsi
