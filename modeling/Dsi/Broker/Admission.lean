import Dsi.Broker.ServerTable

/-!
# Dsi.Broker.Admission

Who may put what into the server table.  Four commands register servers, each with
its own copy of the tests: the name must be printable and the version not 0.0, and a
server that is no slave's must come from the local node.
`REGISTER_INTERFACE_EX` makes neither test for the records it reads.
-/

namespace Dsi

open Sequence

/-- The entry without what the master knows of it. -/
def ServerListEntry.core (e : ServerListEntry) : ServerListEntry := { e with masterID := noPartyID }

namespace ServerList

variable {l : ServerList} {e : ServerListEntry}

theorem mem_cores : e ∈ l.cores ↔ ∃ e' ∈ l.entries, e'.core = e := by
  simp [cores, ServerListEntry.core]

theorem mem_cores_add {e' : ServerListEntry} :
    e' ∈ (l.add e).cores ↔ e' = e.core ∨ e' ∈ l.cores := by
  simp only [mem_cores, mem_add]
  constructor
  · rintro ⟨x, rfl | hx, rfl⟩
    · exact Or.inl rfl
    · exact Or.inr ⟨x, hx, rfl⟩
  · rintro (rfl | ⟨x, hx, rfl⟩)
    · exact ⟨e, Or.inl rfl, rfl⟩
    · exact ⟨x, Or.inr hx, rfl⟩

end ServerList

namespace Broker

/-! ## New entries -/

/-- Every entry of `b'` is one of `b` or has a description that satisfies `P`. -/
def NewOnly (P : InterfaceDescription → Prop) (b b' : Broker) : Prop :=
  ∀ e ∈ b'.mConnectedServers.cores, e ∈ b.mConnectedServers.cores ∨ P e.ifDescription

section

variable {cfg : Config} {P : InterfaceDescription → Prop} {b b' : Broker}

theorem NewOnly.refl (b : Broker) : NewOnly P b b := fun _ he => Or.inl he

theorem NewOnly.of_cores {b'' : Broker} (h : NewOnly P b b')
    (hcores : b''.mConnectedServers.cores = b'.mConnectedServers.cores) : NewOnly P b b'' := by
  intro e he
  exact h e (hcores ▸ he)

theorem NewOnly.prim {l : Label} {b'' : Broker} (h : NewOnly P b b') (hp : Prim cfg l b' b'')
    (hl : l ≠ .addEntry) : NewOnly P b b'' := by
  cases hp.serversLoss hl with
  | same hcores => exact h.of_cores hcores
  | removed id hremove =>
      intro e he
      refine h e (List.Sublist.subset ?_ he)
      rw [hremove]
      exact (ServerList.remove_sublist id _).map _

theorem NewOnly.prims {L : List Label} {b'' : Broker} (h : NewOnly P b b')
    (hp : Prims cfg L b' b'') (hL : .addEntry ∉ L) : NewOnly P b b'' :=
  hp.preserves (fun _ hl _ _ hprim hb => NewOnly.prim hb hprim (fun he => hL (he ▸ hl))) h

theorem NewOnly.addEntry (h : NewOnly P b b') (c : Nat) {e : ServerListEntry}
    (he : P e.ifDescription) : NewOnly P b (b'.addEntry cfg c e) := by
  intro x hx
  rw [servers_addEntry, ServerList.mem_cores_add] at hx
  rcases hx with rfl | hx
  · exact Or.inr he
  · exact h x hx

theorem NewOnly.addInterface (cfg : Config) (h : NewOnly P b b') (ctx : SocketConnectionContext)
    {d : InterfaceDescription} (pid : UInt32) (chid : Int32) (isLocal : Bool) (grpid : Int32)
    (hd : (b'.mConnectedServers.findName d.name).isSome = false → P d) :
    NewOnly P b (b'.addInterface cfg ctx d pid chid isLocal grpid).2 := by
  unfold Broker.addInterface
  split
  · exact h
  · next hname =>
    have hnext : NewOnly P b { b' with mNextServerID := b'.mNextServerID + 1 } := h
    exact hnext.addEntry ctx.mId (hd (by simpa using hname))

theorem NewOnly.registerInterfacesMaster (h : NewOnly P b b') (cfg : Config) :
    NewOnly P b (b'.registerInterfacesMaster cfg) :=
  h.prim (.registerMaster b' : Prim cfg .masterID b' _) (by simp)

end

/-! ## The four commands -/

/-- Is this a `REGISTER_MASTER_INTERFACE_EX`? -/
def fromSlave : Request → Bool
  | .registerMasterInterfaceEx _ _ => true
  | _ => false

/-- What a registration may bring in: a valid description, from the local node or as
the server of a slave. -/
def Admissible (ctx : SocketConnectionContext) (r : Request) (d : InterfaceDescription) : Prop :=
  check d = true ∧ (fromSlave r = true ∨ ctx.isLocal = true)

/-- A record of `REGISTER_INTERFACE_EX` is refused for its name, or it would pass the
tests that are not made. -/
def recordAdmissible (ctx : SocketConnectionContext) (d : InterfaceDescription) (b : Broker) :
    Bool :=
  (b.mConnectedServers.findName d.name).isSome || (check d && ctx.isLocal)

/-- Every record of a `REGISTER_INTERFACE_EX` that is registered would pass the tests. -/
def requestAdmissible (cfg : Config) (ctx : SocketConnectionContext) (b : Broker) :
    Request → Bool
  | .registerInterfaceEx n pid chid rs =>
      recordAlong (registerRecordEx cfg ctx pid chid) (recordAdmissible ctx) n.toInt.toNat rs b
  | _ => true

/-- `requestAdmissible` for a connection that is read from. -/
def eventAdmissible (cfg : Config) (b : Broker) : Event → Bool
  | .request c r =>
      match b.conns c with
      | some k => k.deferred || b.requestAdmissible cfg (k.ctx c) r
      | none => true
  | _ => true

section

variable {cfg : Config} {b : Broker}

theorem admissible_dispatch (ctx : SocketConnectionContext) {r : Request}
    (hr : b.requestAdmissible cfg ctx r = true) :
    NewOnly (Admissible ctx r) b (b.dispatch cfg ctx r).1 := by
  have hstart : NewOnly (Admissible ctx r) b b := .refl b
  have hprims := prims_dispatch cfg ctx r b
  cases r with
  | registerInterface d pid chid =>
      refine handleRegisterInterface_leaves hstart fun hcheck hlocal => ?_
      exact (hstart.addInterface cfg ctx pid chid _ _
        (fun _ => ⟨hcheck, Or.inr hlocal⟩)).registerInterfacesMaster cfg
  | registerInterfaceGroupID d pid chid grpid =>
      refine handleRegisterInterfaceGroupID_leaves hstart fun hboth => ?_
      obtain ⟨hcheck, hlocal⟩ := Bool.and_eq_true_iff.mp hboth
      exact (hstart.addInterface cfg ctx pid chid _ grpid
        (fun _ => ⟨hcheck, Or.inr hlocal⟩)).registerInterfacesMaster cfg
  | registerInterfaceEx n pid chid rs =>
      have hrecord (d : InterfaceDescription) (s : Broker)
          (hd : recordAdmissible ctx d s = true) (hs : NewOnly (Admissible ctx
            (.registerInterfaceEx n pid chid rs)) b s) :
          NewOnly (Admissible ctx (.registerInterfaceEx n pid chid rs)) b
            (registerRecordEx cfg ctx pid chid d s).2 := by
        refine hs.addInterface cfg ctx pid chid _ _ (fun hname => ?_)
        simp only [recordAdmissible, hname, Bool.false_or, Bool.and_eq_true] at hd
        exact ⟨hd.1, Or.inr hd.2⟩
      have h1 := recordLoop_preserves_along hrecord hstart hr
      exact handleRegisterInterfaceEx_leaves h1 (h1.registerInterfacesMaster cfg)
  | registerMasterInterfaceEx n rs =>
      have h1 : NewOnly (Admissible ctx (.registerMasterInterfaceEx n rs)) b
          (recordLoop (registerMasterRecord cfg ctx) n.toInt.toNat rs b).2 := by
        refine recordLoop_preserves (I := NewOnly _ b) hstart ?_
        intro x _ s hs
        unfold registerMasterRecord
        split
        · exact hs
        · next hrefuse =>
          simp only [refusesRecord, Bool.or_eq_true, not_or] at hrefuse
          exact hs.addEntry ctx.mId ⟨by simpa [masterEntry] using hrefuse.1.1.2.1, Or.inl rfl⟩
      exact handleRegisterMasterInterface_leaves (h1.registerInterfacesMaster cfg)
  | _ =>
      refine hstart.prims hprims ?_
      simp [requestLabels, unregisterLabels, attachLabels, attachExtendedLabels, detachLabels,
        clearLabels, listLabels, disconnectLabels, availableLabels]

/-- An entry that an event brings into the table is admissible, and the event is a
request. -/
theorem admissible_step (hattach : b.mPendingAttachExtendedJobs = []) {e : Event}
    (he : b.eventAdmissible cfg e = true) {x : ServerListEntry}
    (hx : x ∈ (b.step cfg e).mConnectedServers.cores) (hnew : x ∉ b.mConnectedServers.cores) :
    ∃ c r k, e = .request c r ∧ b.conns c = some k ∧ Admissible (k.ctx c) r x.ifDescription := by
  have hquiet (he : fromConnection e = false) : False :=
    hnew (cores_step cfg hattach he ▸ hx)
  cases e with
  | request c r =>
      rcases request_cases cfg c r b with hsame | ⟨k, hk, hdeferred, _, hq⟩
      · exact absurd (by simpa [step, hsame] using hx) hnew
      · have hr : b.requestAdmissible cfg (k.ctx c) r = true := by
          simpa [eventAdmissible, hk, hdeferred] using he
        have hdispatch := (admissible_dispatch (k.ctx c) hr).of_cores
          (congrArg ServerList.cores hq.servers)
        exact ⟨c, r, k, rfl, hk, (hdispatch x hx).resolve_left hnew⟩
  | closed c =>
      have hclose : NewOnly (fun _ => False) b (b.closeConnection cfg c) :=
        (NewOnly.refl b).prims (prims_closeConnection cfg c b) (by simp [closeLabels])
      exact absurd ((hclose x hx).resolve_right id) hnew
  | connected => exact (hquiet rfl).elim
  | pulse => exact (hquiet rfl).elim
  | deliver => exact (hquiet rfl).elim
  | worker => exact (hquiet rfl).elim

end

/-! ## Runs -/

/-- The entry came into the table with request `r` of connection `c`, which was `k` then,
and has stayed there in every state since. -/
def CameWith (cfg : Config) (es : List Event) (e : ServerListEntry) (c : Nat) (r : Request)
    (k : Connection) : Prop :=
  ∃ pre post, es = pre ++ .request c r :: post ∧
    (Run.run (step cfg) init pre).conns c = some k ∧
    e.core ∉ (Run.run (step cfg) init pre).mConnectedServers.cores ∧
    ∀ mid rest, post = mid ++ rest →
      e.core ∈ (Run.run (step cfg) init (pre ++ .request c r :: mid)).mConnectedServers.cores

/-- In every run in which the records of each `REGISTER_INTERFACE_EX` would pass the tests
of the other commands, every entry has a valid description and came with a request of a
slave or of a connection that was local then. -/
theorem admitted_of_along (cfg : Config) (es : List Event)
    (h : Run.Along (step cfg) (fun b e => b.eventAdmissible cfg e = true) init es) :
    ∀ e ∈ (Run.run (step cfg) init es).mConnectedServers.entries,
      check e.ifDescription = true ∧ ∃ c r k, CameWith cfg es e c r k ∧
        (fromSlave r = true ∨ (k.ctx c).isLocal = true) := by
  induction es using List.reverseRecOn with
  | nil => simp [init, ServerList.empty]
  | append_singleton es ev ih =>
      intro e he
      rw [Run.along_append] at h
      rw [Run.run_append] at he
      have hcore : e.core ∈ ((Run.run (step cfg) init es).step cfg ev).mConnectedServers.cores :=
        ServerList.mem_cores.mpr ⟨e, he, rfl⟩
      by_cases hold : e.core ∈ (Run.run (step cfg) init es).mConnectedServers.cores
      · -- it was there before the last event
        obtain ⟨e', he', hsame⟩ := ServerList.mem_cores.mp hold
        obtain ⟨hcheck, c, r, k, ⟨pre, post, hes, hk, hnew, hstays⟩, hlocal⟩ := ih h.1 e' he'
        have hcheck : check e.core.ifDescription = true :=
          hsame ▸ (show check e'.core.ifDescription = true from hcheck)
        refine ⟨hcheck, c, r, k, ⟨pre, post ++ [ev], ?_, hk, hsame ▸ hnew, ?_⟩, hlocal⟩
        · rw [hes, List.append_assoc, List.cons_append]
        · intro mid rest hmid
          rcases List.eq_nil_or_concat rest with rfl | ⟨rest', x, rfl⟩
          · rw [List.append_nil] at hmid
            rw [← hmid, ← List.cons_append, ← List.append_assoc, ← hes, Run.run_append]
            exact hcore
          · rw [List.concat_eq_append, ← List.append_assoc] at hmid
            have hpost := (List.append_inj_left' hmid rfl)
            exact hsame ▸ hstays mid rest' hpost
      · -- it came with the last event
        obtain ⟨c, r, k, rfl, hk, hcheck, hlocal⟩ := admissible_step (attachJobs_run cfg es) h.2.1
          hcore hold
        refine ⟨hcheck, c, r, k, ⟨es, [], rfl, hk, hold, ?_⟩, hlocal⟩
        intro mid rest hmid
        obtain ⟨rfl, rfl⟩ := List.append_eq_nil_iff.mp hmid.symm
        rw [Run.run_append]
        exact hcore

/-- A local server, two in one message, and one of a slave. -/
theorem admitted_four_commands :
    let es : List Event := [.connected 0 0 0, .connected 9 0 (-1),
      .request 1 (.registerInterface ⟨[65], 1, 0⟩ 0 1),
      .request 1 (.registerInterfaceEx 2 0 1 [⟨[66], 1, 0⟩, ⟨[67], 0, 1⟩]),
      .request 1 (.registerInterfaceGroupID ⟨[68], 1, 0⟩ 0 1 5),
      .request 2 (.registerMasterInterfaceEx 1 [⟨1, 0, 0, ⟨7, 2000⟩, ⟨[69], 1, 0⟩⟩])]
    let b := Run.run (step aloneConfig) init es
    b.mConnectedServers.entries.length = 5 ∧
      ∀ e ∈ b.mConnectedServers.entries, check e.ifDescription = true ∧
        ∃ c r k, CameWith aloneConfig es e c r k ∧
          (fromSlave r = true ∨ (k.ctx c).isLocal = true) :=
  ⟨by decide, admitted_of_along aloneConfig _ (by decide)⟩

/-- A client on another node registers an interface with an unreadable name and the
version 0.0. -/
theorem not_admitted_registerInterfaceEx :
    let es : List Event := [.connected 9 0 (-1),
      .request 1 (.registerInterfaceEx 1 0 1 [⟨[7], 0, 0⟩])]
    let b := Run.run (step aloneConfig) init es
    b.mConnectedServers.entries.map (·.ifDescription) = [⟨[7], 0, 0⟩] ∧
      check ⟨[7], 0, 0⟩ = false ∧
      ∃ k, b.conns 1 = some k ∧ (k.ctx 1).isLocal = false :=
  ⟨by decide, by decide, ⟨_, rfl, by decide⟩⟩

end Broker

end Dsi
