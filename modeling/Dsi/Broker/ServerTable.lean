import Dsi.Broker.AttachExtended
import Mathlib.Data.List.Induction

/-!
# Dsi.Broker.ServerTable

The server table over whole runs.  Only a registration puts an entry in, only an
unregistration or the end of a connection takes one out; what the master and the
worker thread cause writes master IDs at most.  Every registration asks for the
name first, so that `std::lower_bound` finds exactly the entry with the name it is
asked for.
-/

namespace Dsi

namespace ServerList

variable {l : ServerList}

/-- With distinct names the table descends strictly. -/
theorem pairwise_lt_of_nodup (h : (l.entries.map (·.ifDescription.name)).Nodup) :
    l.entries.Pairwise (fun a b => b.ifDescription.name < a.ifDescription.name) := by
  have hne : l.entries.Pairwise (fun a b => a.ifDescription.name ≠ b.ifDescription.name) :=
    List.pairwise_map.mp h
  refine (l.sorted.and hne).imp ?_
  intro a b hab
  by_contra hle
  exact hab.2 (List.le_antisymm hle hab.1)

/-- With distinct names the binary search finds the entry with the name. -/
theorem findName_eq_some_iff (h : (l.entries.map (·.ifDescription.name)).Nodup) {name : CString}
    {e : ServerListEntry} :
    l.findName name = some e ↔ e ∈ l.entries ∧ e.ifDescription.name = name := by
  constructor
  · exact mem_of_findName
  · rintro ⟨he, rfl⟩
    obtain ⟨e', he'⟩ := findName_of_mem he
    obtain ⟨hmem, hname⟩ := mem_of_findName he'
    have hsame : e' = e := List.inj_on_of_nodup_map h hmem he hname
    rw [he', hsame]

theorem findDescription_eq_some_iff (h : (l.entries.map (·.ifDescription.name)).Nodup)
    {d : InterfaceDescription} {e : ServerListEntry} :
    l.findDescription d = some e ↔
      e ∈ l.entries ∧ e.ifDescription.name = d.name ∧
        e.ifDescription.majorVersion = d.majorVersion ∧
        d.minorVersion ≤ e.ifDescription.minorVersion := by
  rw [← and_assoc, ← findName_eq_some_iff h, findDescription]
  cases l.findName d.name with
  | none => simp
  | some e' =>
      simp only [Option.some.injEq]
      split <;> grind

end ServerList

namespace Broker

variable {cfg : Config} {b : Broker}

/-! ## What is no request leaves the table alone -/

theorem cores_handleMasterConnected (cfg : Config) (b : Broker) :
    (b.handleMasterConnected cfg).mConnectedServers.cores = b.mConnectedServers.cores := by
  have hregister : Prim cfg .masterID b (b.registerInterfacesMaster cfg) := .registerMaster b
  have hforward : Prim cfg .forward (b.registerInterfacesMaster cfg)
      (b.handleMasterConnected cfg) := .forward _
  exact (hforward.cores (by simp) (by simp)).trans (hregister.cores (by simp) (by simp))

theorem cores_handleMasterDisconnected (cfg : Config) (b : Broker) :
    (b.handleMasterDisconnected cfg).mConnectedServers.cores = b.mConnectedServers.cores := by
  simp only [handleMasterDisconnected, triggerNotLocal, clearMasterNotification, mapNotifications]
  show (sweep cfg false .clientDetach _ _).mConnectedServers.cores = _
  rw [servers_sweep, servers_sweep]
  exact ServerList.cores_mapMasterID _ _

theorem Prims.cores {L : List Label} {b' : Broker} (h : Prims cfg L b b')
    (hadd : .addEntry ∉ L) (hremove : .removeServer ∉ L) :
    b'.mConnectedServers.cores = b.mConnectedServers.cores := by
  refine h.preserves (I := fun b' => b'.mConnectedServers.cores = b.mConnectedServers.cores) ?_ rfl
  intro l hl b₁ b₂ hprim hb
  exact (hprim.cores (fun he => hadd (he ▸ hl)) (fun he => hremove (he ▸ hl))).trans hb

theorem cores_dispatchInternal (h : b.mPendingAttachExtendedJobs = []) (m : InternalNotification) :
    (b.dispatchInternal cfg m).mConnectedServers.cores = b.mConnectedServers.cores := by
  cases m with
  | jobExecuted job res =>
      exact (prims_handleJobFinished cfg job res h).cores (by simp [replyLabels])
        (by simp [replyLabels])
  | masterConnected => exact cores_handleMasterConnected cfg b
  | masterDisconnected => exact cores_handleMasterDisconnected cfg b

theorem workerStep_frame (b : Broker) (w : WorkerStep) :
    (b.workerStep w).mConnectedServers = b.mConnectedServers ∧
      (b.workerStep w).conns = b.conns ∧
      (b.workerStep w).nextConnectionId = b.nextConnectionId ∧
      (∀ k, (b.workerStep w).notifications k = b.notifications k) ∧
      (b.workerStep w).sNextNotificationID = b.sNextNotificationID := by
  simp only [workerStep, disconnectMaster]
  split <;> try exact ⟨rfl, rfl, rfl, fun _ => rfl, rfl⟩
  split <;> exact ⟨rfl, rfl, rfl, fun _ => rfl, rfl⟩

/-- Is this something that a connection does? -/
def fromConnection : Event → Bool
  | .request _ _ | .closed _ => true
  | _ => false

/-- Entries come and go with requests and with connections. -/
theorem cores_step (cfg : Config) (h : b.mPendingAttachExtendedJobs = []) {e : Event}
    (he : fromConnection e = false) :
    (b.step cfg e).mConnectedServers.cores = b.mConnectedServers.cores := by
  cases e with
  | connected nodeAddress localAddress uid => rfl
  | request => simp [fromConnection] at he
  | closed => simp [fromConnection] at he
  | pulse p value =>
      exact (prims_dispatchPulse cfg p value b).cores (by simp [pulseLabels])
        (by simp [pulseLabels])
  | deliver =>
      obtain hsame | ⟨m, rest, _, _, hstep⟩ := deliver_cases cfg b
      · rw [hsame]
      · rw [hstep]
        exact cores_dispatchInternal (b := { b with pipe := rest }) h m
  | worker w => exact congrArg ServerList.cores (workerStep_frame b w).1

/-! ## Distinct names -/

theorem NamesNodup.of_cores {b' : Broker} (h : NamesNodup b)
    (hcores : b'.mConnectedServers.cores = b.mConnectedServers.cores) : NamesNodup b' := by
  unfold NamesNodup at h ⊢
  rwa [ServerList.map_eq_of_cores (by intros; rfl) hcores]

theorem NamesNodup.prims {L : List Label} {b' : Broker} (h : NamesNodup b)
    (hp : Prims cfg L b b') : NamesNodup b' :=
  hp.preserves (fun _ _ _ _ hprim hb => NamesNodup.prim hb hprim) h

theorem NamesNodup.step (h : NamesNodup b) (hattach : b.mPendingAttachExtendedJobs = [])
    (e : Event) : NamesNodup (b.step cfg e) := by
  cases e with
  | request c r => exact h.prims (prims_request cfg c r b)
  | closed c => exact h.prims (prims_closeConnection cfg c b)
  | connected => exact h.of_cores (cores_step cfg hattach rfl)
  | pulse => exact h.of_cores (cores_step cfg hattach rfl)
  | deliver => exact h.of_cores (cores_step cfg hattach rfl)
  | worker => exact h.of_cores (cores_step cfg hattach rfl)

theorem namesNodup_run (cfg : Config) (es : List Event) :
    NamesNodup (Run.run (step cfg) init es) := by
  induction es using List.reverseRecOn with
  | nil => exact List.nodup_nil
  | append_singleton es e ih =>
      rw [Run.run_append]
      exact ih.step (attachJobs_run cfg es) e

/-- In every reachable state the server table descends strictly in the names, and the
two lookups find the entry that offers what they are asked for, and nothing else. -/
theorem serverTable_run (cfg : Config) (es : List Event) :
    let l := (Run.run (step cfg) init es).mConnectedServers
    l.entries.Pairwise (fun a b => b.ifDescription.name < a.ifDescription.name) ∧
      (∀ name e, l.findName name = some e ↔ e ∈ l.entries ∧ e.ifDescription.name = name) ∧
      ∀ d e, l.findDescription d = some e ↔
        e ∈ l.entries ∧ e.ifDescription.name = d.name ∧
          e.ifDescription.majorVersion = d.majorVersion ∧
          d.minorVersion ≤ e.ifDescription.minorVersion := by
  have hnames := namesNodup_run cfg es
  exact ⟨ServerList.pairwise_lt_of_nodup hnames,
    fun _ _ => ServerList.findName_eq_some_iff hnames,
    fun _ _ => ServerList.findDescription_eq_some_iff hnames⟩

end Broker

end Dsi
