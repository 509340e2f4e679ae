import Dsi.Broker.Answers
import Dsi.Broker.PoolCount
import Dsi.Broker.Registered

/-!
# Dsi.Broker.Contexts

A job that was handed to the master carries the context of the connection that waits
for it.  A connection that waits is not read from, so it does not notice the end of its
socket; but an announcement disposes every connection in `mClients` that has the
announced ID, and the timer of a TCP connection disposes it because it is not read from.
As long as none of them has a job in flight, every context refers to a connection that
exists and waits (`ServicebrokerServer.jobs_awaited_iff`).
-/

namespace Dsi

namespace Broker

/-! ## Jobs and the connections that wait -/

/-- A connection has a job in flight only while it waits, and no second one. -/
structure Awaited (b : Broker) : Prop where
  attachJobs : b.mPendingAttachExtendedJobs = []
  fresh : b.NumbersFresh
  inFlight : ∀ c, (b.jobsOf c).length ≤ (b.waits c).toNat

/-- At the beginning there is no job. -/
theorem awaited_init : Awaited init where
  attachJobs := rfl
  fresh _ _ := rfl
  inFlight _ := Nat.le_refl 0

namespace Awaited

variable {cfg : Config} {b b' : Broker} {c : Nat}

/-- Changes that answer nobody and defer nothing. -/
theorem calm (h : Awaited b) (hc : Calm b b') : Awaited b' where
  attachJobs := hc.attachJobs.trans h.attachJobs
  fresh := hc.fresh h.fresh
  inFlight c := by rw [hc.jobsOf, hc.waits]; exact h.inFlight c

/-- What is said outside is no job. -/
theorem emit (h : Awaited b) (o : Output) : Awaited (b.emit o) :=
  ⟨h.attachJobs, h.fresh, h.inFlight⟩

/-- The job that carries a context is for a connection that exists and waits. -/
theorem conns_of_mem (h : Awaited b) {j : Job} (hmem : j ∈ b.jobsInFlight)
    (hj : j.ctx = some c) : ∃ k, b.conns c = some k ∧ k.deferred = true := by
  have hpos : 0 < (b.jobsOf c).length :=
    List.length_pos_of_mem (List.mem_filter.mpr ⟨hmem, by simpa using hj⟩)
  have hle := h.inFlight c
  refine conns_of_waits ?_
  cases hw : b.waits c with
  | true => rfl
  | false =>
      rw [hw] at hle
      exact absurd (Nat.lt_of_lt_of_le hpos hle) (Nat.lt_irrefl 0)

/-- A connection that does not wait has no job in flight. -/
theorem idle (h : Awaited b) (hidle : b.waits c = false) : b.jobsOf c = [] := by
  have hle := h.inFlight c
  rw [hidle] at hle
  exact List.eq_nil_of_length_eq_zero (Nat.le_zero.mp hle)

/-- A connection that is dropped leaves its jobs behind. -/
theorem jobsOf_drop (cfg : Config) (b : Broker) (c c' : Nat) :
    (b.drop cfg c).jobsOf c' = b.jobsOf c' :=
  (calm_clear cfg c b).jobsOf c'

/-- So do several. -/
theorem jobsOf_foldl_drop (cfg : Config) (cs : List Nat) (b : Broker) (c : Nat) :
    (cs.foldl (Broker.drop cfg) b).jobsOf c = b.jobsOf c := by
  induction cs generalizing b with
  | nil => rfl
  | cons c' cs ih => exact (ih _).trans (jobsOf_drop cfg b c' c)

/-- A connection without a job in flight may be disposed. -/
theorem drop (cfg : Config) (h : Awaited b) (hc : b.jobsOf c = []) : Awaited (b.drop cfg c) where
  attachJobs := (h.calm (calm_clear cfg c b)).attachJobs
  fresh := fresh_setConnection (.inr rfl) (h.calm (calm_clear cfg c b)).fresh
  inFlight c' := by
    rw [jobsOf_drop, Broker.drop, waits_setConnection, (calm_clear cfg c b).waits]
    by_cases hcc : c' = c
    · rw [hcc, hc]
      exact Nat.zero_le _
    · rw [if_neg hcc]
      exact h.inFlight c'

/-- Connections without a job may be dropped. -/
theorem foldl_drop (cfg : Config) {cs : List Nat} (h : Awaited b)
    (hcs : ∀ c ∈ cs, b.jobsOf c = []) : Awaited (cs.foldl (Broker.drop cfg) b) := by
  induction cs generalizing b with
  | nil => exact h
  | cons c cs ih =>
      refine ih (h.drop cfg (hcs c (List.mem_cons_self ..))) fun x hx => ?_
      rw [jobsOf_drop]
      exact hcs x (List.mem_cons_of_mem _ hx)

/-- A connection begins to wait, with one job at most. -/
theorem wait (hattach : b.mPendingAttachExtendedJobs = []) (hfresh : b.NumbersFresh)
    {k : Connection} (hk : b.conns c = some k) (hself : (b.jobsOf c).length ≤ 1)
    (hother : ∀ c', c' ≠ c → (b.jobsOf c').length ≤ (b.waits c').toNat) :
    Awaited (b.setConnection c (some { k with deferred := true })) where
  attachJobs := hattach
  fresh := fresh_setConnection (.inl (by rw [hk]; exact Option.some_ne_none k)) hfresh
  inFlight c' := by
    rw [waits_setConnection]
    by_cases hcc : c' = c
    · rw [if_pos hcc, hcc]
      exact hself
    · rw [if_neg hcc]
      exact hother c' hcc

/-- The job of a request waits for its connection, which is deferred. -/
theorem request (cfg : Config) (h : Awaited b) (c : Nat) (r : Request) :
    Awaited (b.request cfg c r) := by
  unfold Broker.request
  split
  · exact h
  · next k hk =>
    split
    · exact h
    · next hread =>
      have hdeferred : k.deferred = false := by simp_all
      have hidle : b.waits c = false := by simp [waits, hk, hdeferred]
      have hs : Replies c b _ (b.dispatch cfg (k.ctx c) r) := replies_dispatch cfg (k.ctx c) r b
      have hopen {b' : Broker} (hc : Calm b b') : ∃ k', b'.conns c = some k' := by
        rw [← Option.isSome_iff_exists, hc.isSome, hk]
        rfl
      generalize b.dispatch cfg (k.ctx c) r = s at hs
      cases hs with
      | answered resp hcalm => exact (h.calm hcalm).emit _
      | lost _ hcalm =>
          have h' := h.calm hcalm
          obtain ⟨k', hk'⟩ := hopen hcalm
          dsimp only
          rw [hk']
          refine wait h'.attachJobs h'.fresh hk' ?_ fun c' _ => h'.inFlight c'
          rw [h'.idle (by rw [hcalm.waits, hidle])]
          exact Nat.zero_le 1
      | deferred hasks =>
          obtain ⟨b₁, j, hb₁, hj, hcalm⟩ := hasks
          have h₁ := h.calm hb₁
          have hsome := (hcalm.isSome c).trans (hb₁.isSome c)
          rw [hk] at hsome
          obtain ⟨k', hk'⟩ := Option.isSome_iff_exists.mp hsome
          dsimp only
          rw [hk']
          refine wait (hcalm.attachJobs.trans h₁.attachJobs) (hcalm.fresh h₁.fresh) hk' ?_ ?_
          · have hself := jobsOf_ask hcalm c
            rw [h₁.idle (by rw [hb₁.waits, hidle]), List.nil_append] at hself
            rw [hself]
            exact List.length_filter_le _ _
          · intro c' hcc
            have hother := jobsOf_ask hcalm c'
            have hnone : [j].filter (fun j => decide (j.ctx = some c')) = [] := by
              simp [hj, Ne.symm hcc]
            rw [hnone, List.append_nil] at hother
            have hwaits : _ = b₁.waits c' := hcalm.waits c'
            rw [hwaits]
            rw [hother]
            exact h₁.inFlight c'

/-- A new connection has no job. -/
theorem openConnection (h : Awaited b) (nodeAddress localAddress : UInt32) (uid : Int32) :
    Awaited (b.openConnection nodeAddress localAddress uid) where
  attachJobs := h.attachJobs
  fresh := fresh_openConnection h.fresh nodeAddress localAddress uid
  inFlight c := by rw [waits_openConnection h.fresh]; exact h.inFlight c

/-- The worker moves jobs and makes none. -/
theorem workerStep (h : Awaited b) (w : WorkerStep) : Awaited (b.workerStep w) := by
  obtain ⟨hconns, -, hnext, hattach⟩ := workerStep_conns b w
  refine ⟨hattach.trans h.attachJobs, fun c hc => ?_, fun c => ?_⟩
  · rw [hconns]
    exact h.fresh c (hnext ▸ hc)
  · rw [waits, hconns]
    have hlen := ((jobsInFlight_workerStep b w).filter (fun j => j.ctx = some c)).length_eq
    exact Nat.le_trans (Nat.le_of_eq hlen) (h.inFlight c)

/-- A notice that carries no context is taken out of the pipe. -/
theorem takeNobody (h : Awaited b) {m : InternalNotification}
    {rest : List InternalNotification} (hpipe : b.pipe = m :: rest)
    (hm : ∀ j, InternalNotification.job? m = some j → j.ctx = none) :
      Awaited { b with pipe := rest } where
  attachJobs := h.attachJobs
  fresh := h.fresh
  inFlight c := by rw [← jobsOf_takeNobody hpipe hm]; exact h.inFlight c

/-- The result of a job is sent to the connection that waits for it. -/
theorem finish (h : Awaited b) {job : Job} {res : JobResult}
    {rest : List InternalNotification} (hpipe : b.pipe = .jobExecuted job res :: rest)
    (hj : job.ctx = some c) (hc : Calm { b with pipe := rest } b') (r : JobReply) :
    Awaited (b'.finalize job r) := by
  have hmem : job ∈ b.jobsInFlight := by simp [jobsInFlight, hpipe, InternalNotification.job?]
  obtain ⟨k₀, hk₀, hdeferred⟩ := h.conns_of_mem hmem hj
  have hwaits (c' : Nat) : b'.waits c' = b.waits c' := hc.waits c'
  have hwaiting : b.waits c = true := by rw [waits, hk₀]; exact hdeferred
  obtain ⟨k, hk, -⟩ := conns_of_waits ((hwaits c).trans hwaiting)
  rw [finalize_eq hj hk]
  refine Awaited.emit (b := b'.setConnection c (some { k with deferred := false }))
    ⟨hc.attachJobs.trans h.attachJobs, ?_, fun c' => ?_⟩ _
  · exact fresh_setConnection (.inl (by rw [hk]; exact Option.some_ne_none k)) (hc.fresh h.fresh)
  · have hle := h.inFlight c'
    rw [jobsOf_finish hpipe hc, List.length_append] at hle
    change (b'.jobsOf c').length ≤ _
    rw [waits_setConnection, hwaits]
    by_cases hcc : c' = c
    · subst hcc
      rw [hwaiting] at hle
      rw [if_pos rfl]
      simp only [List.filter_cons, hj, decide_true, if_true, List.filter_nil, List.length_singleton,
        Bool.toNat_true] at hle
      exact Nat.le_trans (Nat.le_of_add_le_add_left hle) (Nat.zero_le _)
    · rw [if_neg hcc]
      exact Nat.le_trans (Nat.le_add_left _ _) hle

/-- A result that is delivered ends the wait of its connection. -/
theorem deliver (cfg : Config) (h : Awaited b) : Awaited (b.step cfg .deliver) := by
  obtain hsame | ⟨m, rest, hpipe, _, hstep⟩ := deliver_cases cfg b
  · rw [hsame]
    exact h
  · rw [hstep]
    cases m with
    | jobExecuted job res =>
        simp only [dispatchInternal, handleJobFinished]
        cases hj : job.ctx with
        | some c =>
            split
            · exact h.finish hpipe hj (calm_jobReply cfg job res h.attachJobs) _
            · exact h.finish hpipe hj (.refl _) _
        | none =>
            have h₁ : Awaited { b with pipe := rest } :=
              h.takeNobody hpipe fun j hjob => by cases hjob; exact hj
            simp only [finalize, hj]
            split
            · exact h₁.calm (calm_jobReply cfg job res h₁.attachJobs)
            · exact h₁
    | masterConnected =>
        have h₁ : Awaited { b with pipe := rest } :=
          h.takeNobody hpipe fun j hjob => by cases hjob
        exact h₁.calm (calm_handleMasterConnected cfg _)
    | masterDisconnected =>
        have h₁ : Awaited { b with pipe := rest } :=
          h.takeNobody hpipe fun j hjob => by cases hjob
        exact h₁.calm (calm_handleMasterDisconnected cfg h₁.attachJobs)

end Awaited

end Broker

namespace ServicebrokerServer

/-! ## Requests and announcements -/

/-- Every job that carries a context, be it queued, executed or finished but not
processed, carries that of a connection that exists and waits. -/
def JobsAwaited (s : ServicebrokerServer) : Prop :=
  ∀ j ∈ s.broker.jobsInFlight, ∀ c, j.ctx = some c →
    ∃ k, s.broker.conns c = some k ∧ k.deferred = true

/-- The extended ID that a connection has behind this frame. -/
def announcedID (f : RequestFrame) (k : Connection) : UInt32 :=
  match f.request with
  | .masterPingId id => id
  | _ => k.data.mExtendedID

/-- An announcement is the first of its connection, and no connection in `mClients` with
its ID has a job in flight; a connection that is timed out has none either. -/
def disposesIdle (s : ServicebrokerServer) : ServerEvent → Bool
  | .frame c f =>
      match s.broker.conns c with
      | none => true
      | some k =>
          k.deferred || !f.isPingId || announcedID f k == 0 ||
            (!Slist.isHooked s.mClients c &&
              (List.range s.broker.nextConnectionId).all fun x =>
                !(Slist.isHooked s.mClients x && s.extendedID? x == some (announcedID f k)) ||
                  (s.broker.jobsOf x).isEmpty)
  | .timeout c => !s.ends (.timeout c) || (s.broker.jobsOf c).isEmpty
  | _ => true

/-- The timer does not change who may be disposed of by a frame. -/
theorem disposesIdle_tick (s : ServicebrokerServer) (c : Nat) (f : RequestFrame) :
    (s.tick c).disposesIdle (.frame c f) = s.disposesIdle (.frame c f) := by
  simp only [disposesIdle, broker_tick, mClients_tick, extendedID?_tick]

/-- An announcement may come, if its ID is 0 or its connection is new and the one with its ID has no
job. -/
theorem disposesIdle_frame_iff {s : ServicebrokerServer} {c : Nat} {k : Connection}
    {f : RequestFrame} (hk : s.broker.conns c = some k) (hdeferred : ¬ k.deferred = true)
    (hf : f.isPingId = true) :
    s.disposesIdle (.frame c f) = true ↔ announcedID f k = 0 ∨
      (Slist.isHooked s.mClients c = false ∧ ∀ x < s.broker.nextConnectionId,
        Slist.isHooked s.mClients x = true → s.extendedID? x = some (announcedID f k) →
          s.broker.jobsOf x = []) := by
  have hand (p q r : Bool) : (!(p && q) || r) = true ↔ (p = true → q = true → r = true) := by
    cases p <;> cases q <;> simp
  rw [disposesIdle, hk]
  simp only [hdeferred, hf, Bool.or_eq_true, Bool.not_true, Bool.false_eq_true, false_or,
    or_false, beq_iff_eq, Bool.and_eq_true, List.all_eq_true, List.mem_range, hand,
    Bool.not_eq_true', List.isEmpty_iff]

/-- A frame that announces nothing is a request. -/
theorem eval_of_not_ping (cfg : Config) {s : ServicebrokerServer} {f : RequestFrame}
    (hf : f.isPingId = false) (c : Nat) :
    s.eval cfg c f = .ok { s with broker := s.broker.request cfg c f.request } := by
  rw [eval, Broker.request]
  cases s.broker.conns c with
  | none => rfl
  | some k =>
      dsimp only
      by_cases hread : (k.deferred || s.broker.breaksOff cfg f.request) = true
      · rw [if_pos hread, if_pos hread]
      · rw [if_neg hread, if_neg hread, hf, if_neg Bool.false_ne_true]
        obtain ⟨b, r⟩ := s.broker.dispatch cfg (k.ctx c) f.request
        cases r <;> rfl

/-- An announcement is answered at once, and stores at most its ID. -/
theorem dispatch_ping (cfg : Config) {s : ServicebrokerServer} {f : RequestFrame} {c : Nat}
    {k : Connection} (hf : f.isPingId = true) (hk : s.broker.conns c = some k) :
    let r := s.broker.dispatch cfg (k.ctx c) f.request
    (∃ resp, r.2 = some resp) ∧ Broker.Calm s.broker r.1 ∧
      ∀ x, extendedID? { s with broker := r.1 } x =
        if x = c then some (announcedID f k) else s.extendedID? x := by
  have hself : s.extendedID? c = some k.data.mExtendedID := by
    rw [extendedID?, Broker.data?, hk]
    rfl
  have hstored (x : Nat) : s.extendedID? x =
      if x = c then some k.data.mExtendedID else s.extendedID? x := by
    split
    · next hx => rw [hx, hself]
    · rfl
  have hcalm := Broker.replies_dispatch cfg (k.ctx c) f.request s.broker
  obtain ⟨request, refused⟩ := f
  cases request with
  | masterPingId id =>
      cases hcalm with
      | answered _ hcalm => exact ⟨⟨_, rfl⟩, hcalm, extendedID?_pinged s hk id⟩
  | badFoundationVersion => exact ⟨⟨_, rfl⟩, .refl _, hstored⟩
  | malformed => exact ⟨⟨_, rfl⟩, .refl _, hstored⟩
  | _ => cases hf

/-- The list stands for `l`, and every context for a connection that waits. -/
structure Sound (s : ServicebrokerServer) (l : List Nat) : Prop where
  lists : Lists s l
  awaited : s.broker.Awaited

namespace Sound

variable {s : ServicebrokerServer} {l : List Nat}

/-- The invariant says that every job has its connection. -/
theorem jobsAwaited (h : Sound s l) : s.JobsAwaited :=
  fun _ hmem _ hj => h.awaited.conns_of_mem hmem hj

/-- The same connections are open. -/
theorem of_broker (h : Sound s l) {b : Broker} (hb : b.Awaited)
    (hconns : ∀ c, (b.conns c).isSome = (s.broker.conns c).isSome ∧
      b.nextConnectionId = s.broker.nextConnectionId) : Sound { s with broker := b } l where
  lists := h.lists.of_broker (fun c => (hconns c).1) (hconns 0).2
  awaited := hb

theorem request (cfg : Config) (h : Sound s l) (c : Nat) (r : Request) :
    Sound { s with broker := s.broker.request cfg c r } l :=
  h.of_broker (h.awaited.request cfg c r) fun c' =>
    ⟨((Broker.moves_request cfg c r s.broker).conns c').1,
      ((Broker.moves_request cfg c r s.broker).conns c').2⟩

/-- An announcement disposes no connection that has a job in flight. -/
theorem announce (cfg : Config) (h : Sound s l) {c : Nat} {id : UInt32}
    (hext : s.extendedID? c = some id)
    (hidle : id = 0 ∨ (c ∉ l ∧ ∀ x ∈ l, s.extendedID? x = some id → s.broker.jobsOf x = [])) :
    ∃ s' l', s.announce cfg c = .ok s' ∧ Sound s' l' := by
  by_cases hid : id = 0
  · refine ⟨s, l, ?_, h⟩
    rw [ServicebrokerServer.announce, hext, hid]
    rfl
  · obtain ⟨hc, hjobs⟩ := hidle.resolve_left hid
    obtain ⟨s', hannounce, hlists, hbroker⟩ := h.lists.announce cfg hext hid hc
    refine ⟨s', _, hannounce, hlists, ?_⟩
    rw [hbroker]
    refine h.awaited.foldl_drop cfg fun x hx => ?_
    obtain ⟨hxl, hxid⟩ := List.mem_filter.mp hx
    exact hjobs x hxl (by simpa using hxid)

/-- A frame that meets the condition goes through. -/
theorem frame (cfg : Config) (h : Sound s l) (c : Nat) (f : RequestFrame)
    (hidle : s.disposesIdle (.frame c f) = true) :
    ∃ s' l', s.eval cfg c f = .ok s' ∧ Sound s' l' := by
  by_cases hf : f.isPingId = true
  · cases hk : s.broker.conns c with
    | none => exact ⟨s, l, by rw [eval, hk], h⟩
    | some k =>
        by_cases hdeferred : k.deferred = true
        · exact ⟨s, l, eval_of_deferred hk hdeferred, h⟩
        · obtain ⟨⟨resp, hresp⟩, hcalm, hids⟩ := dispatch_ping cfg hf hk
          have h₁ : Sound { s with broker := (s.broker.dispatch cfg (k.ctx c) f.request).1 } l :=
            h.of_broker (h.awaited.calm hcalm) fun x => ⟨hcalm.isSome x, hcalm.nextConnectionId⟩
          have hext := hids c
          rw [if_pos rfl] at hext
          obtain ⟨s', l', hannounce, h'⟩ := h₁.announce cfg hext <| by
            refine ((disposesIdle_frame_iff hk hdeferred hf).mp hidle).imp id ?_
            rintro ⟨hhooked, hjobs⟩
            have hc : c ∉ l := h.lists.not_mem hhooked
            refine ⟨hc, fun x hx hxid => ?_⟩
            have hxc : x ≠ c := fun hxc => hc (hxc ▸ hx)
            rw [hids, if_neg hxc] at hxid
            rw [hcalm.jobsOf]
            exact hjobs x (h.lists.lt_next hx) (h.lists.represents.isHooked hx) hxid
          refine ⟨_, l', eval_of_ok hk hdeferred hf hannounce, ?_⟩
          rw [hresp]
          exact h'.of_broker (h'.awaited.emit _) fun _ => ⟨rfl, rfl⟩
  · rw [eval_of_not_ping cfg (Bool.eq_false_iff.mpr hf)]
    exact ⟨_, l, rfl, h.request cfg c f.request⟩

/-- The timer that finds activity changes nothing in the broker. -/
theorem tick (h : Sound s l) (c : Nat) : Sound (s.tick c) l where
  lists := h.lists.tick c
  awaited := by rw [broker_tick]; exact h.awaited

/-- A connection that ends has no job in flight. -/
theorem ended (cfg : Config) (h : Sound s l) {e : ServerEvent} {c : Nat}
    (he : e = .closed c ∨ e = .timeout c)
    (hidle : s.ends e = true → s.broker.jobsOf c = []) :
    ∃ s' l', s.step cfg e = .ok s' ∧ Sound s' l' := by
  obtain ⟨s', l', hstep, hlists, -, hbroker⟩ := h.lists.ended cfg he
  refine ⟨s', l', hstep, hlists, ?_⟩
  split at hbroker
  · next hends =>
    rw [hbroker.2]
    exact h.awaited.drop cfg (hidle hends)
  · rw [hbroker]
    exact h.awaited

/-- Other steps of the broker. -/
theorem broker (cfg : Config) (h : Sound s l) {e : Broker.Event}
    (he : Broker.fromConnection e = false) (hopen : ∀ node loc uid, e ≠ .connected node loc uid)
    (hb : (s.broker.step cfg e).Awaited) : Sound { s with broker := s.broker.step cfg e } l := by
  obtain ⟨c, hmoves⟩ := Broker.moves_step cfg h.awaited.attachJobs he hopen
  exact h.of_broker hb fun x => ⟨(hmoves.conns x).1, (hmoves.conns x).2⟩

theorem deliver (cfg : Config) (h : Sound s l) :
    ∃ s' l', s.deliver cfg = .ok s' ∧ Sound s' l' := by
  have hafter : Sound { s with broker := s.broker.step cfg .deliver } l :=
    h.broker cfg rfl (fun _ _ _ he => by cases he) (h.awaited.deliver cfg)
  refine ⟨_, l, ?_, hafter⟩
  unfold ServicebrokerServer.deliver
  split
  · next job res rest hpipe =>
    split
    · rfl
    · next c hj =>
      have hmem : job ∈ s.broker.jobsInFlight := by
        simp [Broker.jobsInFlight, hpipe, Broker.InternalNotification.job?]
      obtain ⟨k, hk, hdeferred⟩ := h.awaited.conns_of_mem hmem hj
      rw [hk]
      exact if_pos hdeferred
  · rfl

/-- Every event that meets the condition goes through. -/
theorem step (cfg : Config) (h : Sound s l) (e : ServerEvent) (hidle : s.disposesIdle e = true) :
    ∃ s' l', s.step cfg e = .ok s' ∧ Sound s' l' := by
  cases e with
  | connected nodeAddress localAddress uid =>
      obtain ⟨s', hstep, hlists, hbroker⟩ := h.lists.connected cfg nodeAddress localAddress uid
      exact ⟨s', l, hstep, hlists, hbroker ▸ h.awaited.openConnection nodeAddress localAddress uid⟩
  | read c => exact ⟨_, l, rfl, h.tick c⟩
  | frame c f => exact (h.tick c).frame cfg c f ((disposesIdle_tick s c f).trans hidle)
  | closed c =>
      refine h.ended cfg (.inl rfl) fun hreads => h.awaited.idle ?_
      rw [ends, reads] at hreads
      rw [Broker.waits]
      cases hk : s.broker.conns c with
      | none => rfl
      | some k => simpa [hk] using hreads
  | timeout c =>
      refine h.ended cfg (.inr rfl) fun hends => ?_
      simpa [disposesIdle, hends] using hidle
  | pulse p value =>
      exact ⟨_, l, rfl, h.broker cfg rfl (fun _ _ _ he => by cases he)
        (h.awaited.calm (Broker.calm_dispatchPulse cfg p value _))⟩
  | deliver => exact h.deliver cfg
  | worker w =>
      exact ⟨_, l, rfl, h.broker cfg rfl (fun _ _ _ he => by cases he) (h.awaited.workerStep w)⟩

end Sound

/-- The step goes through, and behind it every context is that of a connection that
exists and waits. -/
def KeepsJobsAwaited (cfg : Config) (s : ServicebrokerServer) (e : ServerEvent) : Prop :=
  ∃ s', s.step cfg e = .ok s' ∧ s'.JobsAwaited

/-- An announcement that disposes a connection with a job in flight leaves the job. -/
theorem Sound.not_awaited_frame (cfg : Config) {s s' : ServicebrokerServer} {l : List Nat}
    (h : Sound s l) {c : Nat} {f : RequestFrame}
    (hdisposes : ¬ s.disposesIdle (.frame c f) = true) (hstep : s.eval cfg c f = .ok s') :
    ¬ s'.JobsAwaited := by
  intro hawaited
  cases hk : s.broker.conns c with
  | none => exact hdisposes (by rw [disposesIdle, hk])
  | some k =>
      have hdeferred : ¬ k.deferred = true := fun hd =>
        hdisposes (by simp [disposesIdle, hk, hd])
      have hf : f.isPingId = true := by
        by_contra hf
        exact hdisposes (by simp [disposesIdle, hk, hf])
      rw [disposesIdle_frame_iff hk hdeferred hf, not_or] at hdisposes
      obtain ⟨hid, hdisposes⟩ := hdisposes
      obtain ⟨⟨resp, hresp⟩, hcalm, hids⟩ := dispatch_ping cfg hf hk
      have hlists₁ : Lists { s with
          broker := (s.broker.dispatch cfg (k.ctx c) f.request).1 } l :=
        h.lists.of_broker hcalm.isSome hcalm.nextConnectionId
      have hext := hids c
      rw [if_pos rfl] at hext
      by_cases hc : c ∈ l
      · rw [eval_of_error hk hdeferred hf (hlists₁.announce_twice cfg hext hid hc)] at hstep
        cases hstep
      · obtain ⟨s₁, hannounce, -, hbroker⟩ := hlists₁.announce cfg hext hid hc
        rw [eval_of_ok hk hdeferred hf hannounce] at hstep
        obtain rfl := Except.ok.inj hstep
        refine hdisposes ⟨h.lists.isHooked_eq_false hc, fun x _ hx hxid => ?_⟩
        rw [List.eq_nil_iff_forall_not_mem]
        intro j hj
        have hxl := h.lists.hooked x hx
        have hxc : x ≠ c := fun hxc => hc (hxc ▸ hxl)
        have hjobs : s₁.broker.jobsOf x = s.broker.jobsOf x := by
          rw [hbroker, Broker.Awaited.jobsOf_foldl_drop, hcalm.jobsOf]
        rw [← hjobs] at hj
        obtain ⟨hmem, hctx⟩ := List.mem_filter.mp hj
        have hgone : s₁.broker.conns x = none := by
          have hconns := Broker.conns_foldl_drop (g := fun _ => ()) (fun _ => rfl) cfg
            (l.filter fun x => extendedID? { s with
              broker := (s.broker.dispatch cfg (k.ctx c) f.request).1 } x =
                some (announcedID f k))
            (s.broker.dispatch cfg (k.ctx c) f.request).1 x
          have hxid' := hids x
          rw [if_neg hxc, hxid] at hxid'
          rw [if_pos (List.mem_filter.mpr ⟨hxl, by simpa using hxid'⟩), ← hbroker,
            Option.map_eq_none_iff] at hconns
          exact hconns
        rw [hresp] at hawaited
        obtain ⟨k', hk', -⟩ := hawaited j hmem x (by simpa using hctx)
        change s₁.broker.conns x = some k' at hk'
        rw [hgone] at hk'
        cases hk'

/-- A time-out of a connection that has a job in flight leaves the job. -/
theorem Sound.not_awaited_timeout (cfg : Config) {s s' : ServicebrokerServer} {l : List Nat}
    (h : Sound s l) {c : Nat} (hdisposes : ¬ s.disposesIdle (.timeout c) = true)
    (hstep : s.step cfg (.timeout c) = .ok s') : ¬ s'.JobsAwaited := by
  intro hawaited
  obtain ⟨hends, hjobs⟩ : s.ends (.timeout c) = true ∧ s.broker.jobsOf c ≠ [] := by
    simpa [disposesIdle] using hdisposes
  obtain ⟨s₁, l₁, hstep₁, -, -, hbroker⟩ := h.lists.ended cfg (.inr rfl) (c := c)
  rw [if_pos hends] at hbroker
  obtain rfl := Except.ok.inj (hstep₁.symm.trans hstep)
  obtain ⟨j, hj⟩ := List.exists_mem_of_ne_nil _ hjobs
  rw [← Broker.Awaited.jobsOf_drop cfg s.broker c c, ← hbroker.2] at hj
  obtain ⟨hmem, hctx⟩ := List.mem_filter.mp hj
  obtain ⟨k, hk, -⟩ := hawaited j hmem c (by simpa using hctx)
  rw [hbroker.2] at hk
  simp [Broker.drop, Broker.setConnection] at hk

/-- A connection that is disposed with a job in flight leaves the job. -/
theorem Sound.not_keeps (cfg : Config) {s : ServicebrokerServer} {l : List Nat}
    (h : Sound s l) {e : ServerEvent} (hdisposes : ¬ s.disposesIdle e = true) :
    ¬ KeepsJobsAwaited cfg s e := by
  rintro ⟨s', hstep, hawaited⟩
  cases e with
  | frame c f =>
      rw [← disposesIdle_tick s c f] at hdisposes
      exact (h.tick c).not_awaited_frame cfg hdisposes hstep hawaited
  | timeout c => exact h.not_awaited_timeout cfg hdisposes hstep hawaited
  | _ => exact hdisposes rfl

/-- The runs that keep all contexts are those whose events meet the condition. -/
theorem along_keepsJobsAwaited_iff (cfg : Config) {s : ServicebrokerServer}
    (h : ∃ l, Sound s l) (es : List ServerEvent) :
    Partial.Along (step cfg) (KeepsJobsAwaited cfg) s es ↔
      Partial.Along (step cfg) (fun s e => s.disposesIdle e = true) s es := by
  refine Partial.along_iff (I := fun s => ∃ l, Sound s l) ?_ ?_ h es
  · rintro s e ⟨l, h⟩
    refine ⟨fun hkeeps => ?_, fun hidle => ?_⟩
    · by_contra hdisposes
      exact h.not_keeps cfg hdisposes hkeeps
    · obtain ⟨s', l', hs', hsound⟩ := h.step cfg e hidle
      exact ⟨s', hs', hsound.jobsAwaited⟩
  · rintro s e s' ⟨l, h⟩ hidle hs
    obtain ⟨t, l', ht, hsound⟩ := h.step cfg e hidle
    rw [hs] at ht
    cases ht
    exact ⟨l', hsound⟩

/-- At the beginning nothing is announced and nothing awaited. -/
theorem sound_init : Sound init [] where
  lists := lists_init
  awaited := Broker.awaited_init

/-- Every step of a run leaves every job with a context to a connection that exists and
waits for it, if and only if no announcement disposes a connection that has a job in
flight, nor its own, and no time-out one that has a job in flight. -/
theorem jobs_awaited_iff (cfg : Config) (es : List ServerEvent) :
    Partial.Along (step cfg) (KeepsJobsAwaited cfg) init es ↔
      Partial.Along (step cfg) (fun s e => s.disposesIdle e = true) init es :=
  along_keepsJobsAwaited_iff cfg ⟨[], sound_init⟩ es

/-- A slave broker whose master is connected. -/
def masterConnected : List ServerEvent :=
  [.worker .connect, .worker (.idPing true), .deliver]

/-- The master sends the list. -/
def listComes : List ServerEvent :=
  [.worker .pop, .worker (.finish { status := 0, ret_val := 0 }), .deliver]

/-- A connection with the ID 5 waits for an interface list when another one announces
this ID; a TCP connection waits for it when its timer fires a second time.  When the
list is there, it is for a connection that is no more. -/
theorem not_jobs_awaited_disposed :
    let announced := masterConnected ++
      [.connected 0 0 0, .frame 1 { request := .masterPingId 5 },
        .frame 1 { request := .getInterfaceList 1 }, .connected 0 0 0,
        .frame 2 { request := .masterPingId 5 }]
    let timedOut := masterConnected ++
      [.connected 1 2 (-1), .frame 1 { request := .getInterfaceList 1 }, .timeout 1, .timeout 1]
    (¬ Partial.Along (step Broker.slaveConfig) (KeepsJobsAwaited Broker.slaveConfig) init
        announced ∧
      Partial.fault? (Partial.run (step Broker.slaveConfig) init (announced ++ listComes)) =
        some .deadContext) ∧
    ¬ Partial.Along (step Broker.slaveConfig) (KeepsJobsAwaited Broker.slaveConfig) init
        timedOut ∧
      Partial.fault? (Partial.run (step Broker.slaveConfig) init (timedOut ++ listComes)) =
        some .deadContext :=
  ⟨⟨(along_keepsJobsAwaited_iff _ ⟨[], sound_init⟩ _).not.mpr (by decide +kernel),
      by decide +kernel⟩,
    (along_keepsJobsAwaited_iff _ ⟨[], sound_init⟩ _).not.mpr (by decide +kernel),
    by decide +kernel⟩

/-- The ID is announced again after the list was sent, and the timer fires for a
connection that waits, but was read from before. -/
example : Partial.Along (step Broker.slaveConfig) (fun s e => s.disposesIdle e = true) init
    (masterConnected ++
      [.connected 0 0 0, .frame 1 { request := .masterPingId 5 },
        .frame 1 { request := .getInterfaceList 1 }, .connected 0 0 0] ++ listComes ++
      [.frame 2 { request := .masterPingId 5 }, .connected 1 2 (-1),
        .frame 3 { request := .getInterfaceList 1 }, .timeout 3]) := by
  decide +kernel

end ServicebrokerServer

end Dsi
