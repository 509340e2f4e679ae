import Dsi.Broker.Effects
import Mathlib.Data.List.Nodup

/-!
# Dsi.Broker.Servers

The server table.  What the binary search of `ServerList::find` finds, which
entries an insertion or a removal leaves, and that no two entries have the same
name: every registration asks for the name first.
-/

namespace Dsi

open Sequence

namespace ServerList

variable {l : ServerList} {e : ServerListEntry} {id : SPartyID}

/-! ## Finding -/

/-- The binary search finds a name that is there. -/
theorem findName_of_mem (h : e ∈ l.entries) :
    ∃ e', l.findName e.ifDescription.name = some e' := by
  obtain ⟨entries, hsorted⟩ := l
  unfold findName
  dsimp only at h ⊢
  induction entries with
  | nil => exact absurd h List.not_mem_nil
  | cons y ys ih =>
      have hys := List.pairwise_cons.mp hsorted
      rw [List.dropWhile_cons]
      cases hy : compare y.ifDescription.name e.ifDescription.name with
      | true =>
          have hlt : e.ifDescription.name < y.ifDescription.name := of_decide_eq_true hy
          rw [if_pos rfl]
          cases List.mem_cons.mp h with
          | inl he => exact absurd (he ▸ hlt) (List.lt_irrefl _)
          | inr he => exact ih hys.2 he
      | false =>
          -- everything from here on is at most the name, and the name is among it
          have hle : y.ifDescription.name ≤ e.ifDescription.name := of_decide_eq_false hy
          have hge : e.ifDescription.name ≤ y.ifDescription.name := by
            cases List.mem_cons.mp h with
            | inl he => exact he ▸ List.le_refl _
            | inr he => exact hys.1 e he
          have hname : compare e.ifDescription.name y.ifDescription.name = false := by
            rw [List.le_antisymm hge hle]
            exact decide_eq_false (List.lt_irrefl _)
          rw [if_neg (by simp)]
          dsimp only
          rw [hname]
          exact ⟨y, rfl⟩

/-- What is found is in the table and has the name. -/
theorem mem_of_findName {name : CString} (h : l.findName name = some e) :
    e ∈ l.entries ∧ e.ifDescription.name = name := by
  unfold findName at h
  split at h
  · exact absurd h (by simp)
  · next y ys hdrop =>
    split at h
    · exact absurd h (by simp)
    · next hlt =>
      have hye : y = e := Option.some.inj h
      subst hye
      have hmem : y ∈ l.entries :=
        (List.dropWhile_sublist _).subset (hdrop ▸ List.mem_cons_self)
      have hnot : compare y.ifDescription.name name = false := by
        have hhead := List.head?_dropWhile_not
          (fun e : ServerListEntry => compare e.ifDescription.name name) l.entries
        rw [hdrop] at hhead
        simpa using hhead
      have hle : y.ifDescription.name ≤ name := of_decide_eq_false hnot
      have hge : name ≤ y.ifDescription.name :=
        fun h' => hlt (decide_eq_true h')
      exact ⟨hmem, List.le_antisymm hle hge⟩

/-- What is not found is not in the table. -/
theorem name_ne_of_findName_none {name : CString} (h : l.findName name = none)
    (he : e ∈ l.entries) : e.ifDescription.name ≠ name := by
  rintro rfl
  obtain ⟨e', he'⟩ := findName_of_mem he
  rw [he'] at h
  exact absurd h (by simp)

/-- With distinct names, what `find` does not find for an interface offers it in
no version. -/
theorem not_offers_of_findDescription_none {d : InterfaceDescription}
    (hnames : (l.entries.map (·.ifDescription.name)).Nodup) (h : l.findDescription d = none)
    (he : e ∈ l.entries) :
    ¬ (e.ifDescription.name = d.name ∧ e.ifDescription.majorVersion = d.majorVersion ∧
      d.minorVersion ≤ e.ifDescription.minorVersion) := by
  rintro ⟨hname, hversion⟩
  obtain ⟨e', he'⟩ := findName_of_mem he
  have hsame : e' = e := by
    obtain ⟨hmem, hname'⟩ := mem_of_findName he'
    exact List.inj_on_of_nodup_map hnames hmem he hname'
  rw [hname, hsame] at he'
  rw [findDescription, he'] at h
  dsimp only at h
  rw [if_pos hversion] at h
  exact absurd h (by simp)

/-- The search finds an entry with the ID if there is one. -/
theorem findID_isSome : (l.findID id).isSome = true ↔ ∃ e ∈ l.entries, e.partyID = id := by
  simp [findID]

/-! ## Adding and removing -/

/-- A table has its new entry besides the old ones. -/
theorem mem_add {e' : ServerListEntry} : e' ∈ (l.add e).entries ↔ e' = e ∨ e' ∈ l.entries :=
  mem_insertLower

theorem add_perm (e : ServerListEntry) (l : ServerList) :
    (l.add e).entries.Perm (e :: l.entries) := by
  unfold add insertLower
  refine List.perm_middle.trans (List.Perm.cons e ?_)
  rw [List.takeWhile_append_dropWhile]

theorem remove_sublist (id : SPartyID) (l : ServerList) :
    (l.remove id).entries.Sublist l.entries := List.eraseP_sublist

/-- The entries apart from their master IDs. -/
def cores (l : ServerList) : List ServerListEntry :=
  l.entries.map (fun e => { e with masterID := noPartyID })

/-- The IDs of the master do not belong to the core of an entry. -/
theorem cores_mapMasterID (f : ServerListEntry → SPartyID) (l : ServerList) :
    (l.mapMasterID f).cores = l.cores := by
  simp [cores, mapMasterID, Function.comp_def]

theorem cores_setMasterID (p : ServerListEntry → Bool) (id : SPartyID) (l : ServerList) :
    (l.setMasterID p id).cores = l.cores :=
  map_modifyFirst (by intro; rfl) _

/-- Two tables with the same entries up to the master IDs agree on everything else. -/
theorem map_eq_of_cores {β : Type} {g : ServerListEntry → β}
    (hg : ∀ e id, g { e with masterID := id } = g e) {l l' : ServerList}
    (h : l'.cores = l.cores) : l'.entries.map g = l.entries.map g := by
  have hcores (l : ServerList) : l.entries.map g = l.cores.map g := by
    rw [cores, List.map_map]
    exact List.map_congr_left (fun e _ => (hg e noPartyID).symm)
  rw [hcores, hcores, h]

end ServerList

namespace Broker

/-! ## Updates of the table -/

/-- The server table of `b'`, up to the master IDs, is that of `b` or has lost an
entry. -/
inductive ServersLoss (b b' : Broker) : Prop where
  | same (h : b'.mConnectedServers.cores = b.mConnectedServers.cores)
  | removed (id : SPartyID) (h : b'.mConnectedServers = b.mConnectedServers.remove id)

/-- The entry is added to the table. -/
theorem servers_addEntry (cfg : Config) (c : Nat) (e : ServerListEntry) (b : Broker) :
    (b.addEntry cfg c e).mConnectedServers = b.mConnectedServers.add e := by
  simp [addEntry, modifyData, setConnection]

/-- Apart from additions and removals only master IDs change. -/
theorem Prim.cores {cfg : Config} {l : Label} {b b' : Broker} (h : Prim cfg l b b')
    (hadd : l ≠ .addEntry) (hremove : l ≠ .removeServer) :
    b'.mConnectedServers.cores = b.mConnectedServers.cores := by
  cases h with
  | quiet hq => rw [hq.servers]
  | addEntry => exact absurd rfl hadd
  | removeServer => exact absurd rfl hremove
  | registerMaster =>
      rw [registerInterfacesMaster_eq]
      split
      · exact ServerList.cores_mapMasterID _ _
      · rfl
  | setMasterID => exact ServerList.cores_setMasterID _ _ _
  | clients => rfl
  | create _ k ctx pulse _ => rw [servers_addNotification]
  | skip => rfl
  | sweep => rw [servers_sweep]
  | addPool => rfl
  | attach _ _ k => cases k <;> rfl
  | modifyPool => rfl
  | storeMaster _ k => cases k <;> rfl
  | forward =>
      obtain ⟨l, pools, next, js, hb, _⟩ := forward_cases cfg b
      rw [hb]

/-- Only a new entry can add to the table. -/
theorem Prim.serversLoss {cfg : Config} {l : Label} {b b' : Broker} (h : Prim cfg l b b')
    (hl : l ≠ .addEntry) : ServersLoss b b' := by
  by_cases hremove : l = .removeServer
  · subst hremove
    cases h with
    | removeServer _ id => exact .removed id rfl
  · exact .same (h.cores hl hremove)

theorem phase_addEntry (cfg : Config) (c : Nat) (e : ServerListEntry) (b : Broker) :
    (b.addEntry cfg c e).phase = b.phase := by
  simp [addEntry, modifyData, setConnection]

/-- No update changes what the worker thread does. -/
theorem Prim.phase {cfg : Config} {l : Label} {b b' : Broker} (h : Prim cfg l b b') :
    b'.phase = b.phase := by
  cases h with
  | quiet hq => exact hq.phase
  | addEntry _ c e => exact phase_addEntry cfg c e _
  | registerMaster => exact (registerInterfacesMaster_frame cfg b).2.2.2.2.2.2.2
  | create _ k ctx pulse => exact phase_addNotification cfg k ctx pulse _ b
  | sweep => exact phase_sweep cfg _ _ _ b
  | attach _ _ k => cases k <;> rfl
  | storeMaster _ k => cases k <;> rfl
  | forward =>
      obtain ⟨l, pools, next, js, hb, _⟩ := forward_cases cfg b
      rw [hb]
  | removeServer => rfl
  | setMasterID => rfl
  | clients => rfl
  | skip => rfl
  | addPool => rfl
  | modifyPool => rfl

/-- Updates do not touch the connection to the master. -/
theorem Prims.isMasterConnected {cfg : Config} {L : List Label} {b b' : Broker}
    (hp : Prims cfg L b b') : b'.isMasterConnected cfg = b.isMasterConnected cfg := by
  have hphase := hp.preserves (I := fun b' => b'.phase = b.phase)
    (fun _ _ _ _ hprim hb => hprim.phase.trans hb) rfl
  rw [Broker.isMasterConnected, hphase, Broker.isMasterConnected]

/-- No two servers have the same name. -/
def NamesNodup (b : Broker) : Prop :=
  (b.mConnectedServers.entries.map (·.ifDescription.name)).Nodup

/-- Only an entry with a new name is added. -/
theorem NamesNodup.prim {cfg : Config} {l : Label} {b b' : Broker} (h : NamesNodup b)
    (hp : Prim cfg l b b') : NamesNodup b' := by
  unfold NamesNodup at h ⊢
  by_cases hl : l = .addEntry
  · subst hl
    cases hp with
    | addEntry _ c e next hname =>
        rw [servers_addEntry, ((ServerList.add_perm e _).map _).nodup_iff, List.map_cons,
          List.nodup_cons]
        refine ⟨?_, h⟩
        intro hmem
        obtain ⟨e', he', hsame⟩ := List.mem_map.mp hmem
        exact ServerList.name_ne_of_findName_none hname he' hsame
  · cases hp.serversLoss hl with
    | same hcores => rwa [ServerList.map_eq_of_cores (by intros; rfl) hcores]
    | removed id hremove =>
        rw [hremove]
        exact h.sublist ((ServerList.remove_sublist id _).map _)

/-! ## Server IDs -/

/-- The server with this ID is registered. -/
def ServerThere (b : Broker) (id : SPartyID) : Prop :=
  ∃ e ∈ b.mConnectedServers.entries, e.partyID = id

/-- A server is there if the search finds it. -/
theorem serverThere_iff_findID {b : Broker} {id : SPartyID} :
    ServerThere b id ↔ (b.mConnectedServers.findID id).isSome = true :=
  ServerList.findID_isSome.symm

/-- Only the cores of the table count. -/
theorem serverThere_congr {b b' : Broker}
    (h : b'.mConnectedServers.cores = b.mConnectedServers.cores) (id : SPartyID) :
    ServerThere b' id ↔ ServerThere b id := by
  have hmap := ServerList.map_eq_of_cores (g := (·.partyID)) (by intros; rfl) h
  have hmem (b : Broker) : ServerThere b id ↔
      id ∈ b.mConnectedServers.entries.map (·.partyID) := by
    simp [ServerThere]
  rw [hmem, hmem, hmap]

/-- Without an entry that comes or goes the same servers are there. -/
theorem Prims.serverThere_iff {cfg : Config} {L : List Label} {b b' : Broker}
    (hp : Prims cfg L b b') (hadd : .addEntry ∉ L) (hremove : .removeServer ∉ L) (id : SPartyID) :
    ServerThere b' id ↔ ServerThere b id := by
  refine hp.preserves (I := fun b' => ServerThere b' id ↔ ServerThere b id) ?_ Iff.rfl
  intro l hl b₁ b₂ hprim hb
  have hcores := hprim.cores (fun he => hadd (he ▸ hl)) (fun he => hremove (he ▸ hl))
  exact (serverThere_congr hcores id).trans hb

/-- Without a removal no server goes. -/
theorem Prims.serverThere {cfg : Config} {L : List Label} {b b' : Broker}
    (hp : Prims cfg L b b') (hremove : .removeServer ∉ L) {id : SPartyID}
    (h : ServerThere b id) : ServerThere b' id := by
  refine hp.preserves (I := fun b' => ServerThere b' id) ?_ h
  intro l hl b₁ b₂ hprim hb
  by_cases hadd : l = .addEntry
  · subst hadd
    cases hprim with
    | addEntry _ c e next =>
        obtain ⟨e', he', hid⟩ := hb
        refine ⟨e', ?_, hid⟩
        rw [servers_addEntry]
        exact ServerList.mem_add.mpr (Or.inr he')
  · have hcores := hprim.cores hadd (fun he => hremove (he ▸ hl))
    exact (serverThere_congr hcores id).mpr hb

/-- No two servers have the same ID. -/
def ServerIDsNodup (b : Broker) : Prop :=
  (b.mConnectedServers.entries.map (·.partyID)).Nodup

/-- Only a new entry can bring an ID twice. -/
theorem ServerIDsNodup.prim {cfg : Config} {l : Label} {b b' : Broker} (h : ServerIDsNodup b)
    (hp : Prim cfg l b b') (hl : l ≠ .addEntry) : ServerIDsNodup b' := by
  unfold ServerIDsNodup at h ⊢
  cases hp.serversLoss hl with
  | same hcores => rwa [ServerList.map_eq_of_cores (by intros; rfl) hcores]
  | removed id hremove =>
      rw [hremove]
      exact h.sublist ((ServerList.remove_sublist id _).map _)

/-- So can only sequences with one. -/
theorem ServerIDsNodup.prims {cfg : Config} {L : List Label} {b b' : Broker}
    (h : ServerIDsNodup b) (hp : Prims cfg L b b') (hL : .addEntry ∉ L) : ServerIDsNodup b' :=
  hp.preserves (fun _ hl _ _ hprim hb => ServerIDsNodup.prim hb hprim (fun he => hL (he ▸ hl))) h

/-- A new entry has a fresh ID. -/
theorem ServerIDsNodup.addEntry (cfg : Config) (c : Nat) {e : ServerListEntry} {b : Broker}
    (h : ServerIDsNodup b) (hfresh : ¬ ServerThere b e.partyID) :
    ServerIDsNodup (b.addEntry cfg c e) := by
  unfold ServerIDsNodup at h ⊢
  rw [servers_addEntry, ((ServerList.add_perm e _).map _).nodup_iff, List.map_cons,
    List.nodup_cons]
  refine ⟨fun hmem => ?_, h⟩
  obtain ⟨e', he', hid⟩ := List.mem_map.mp hmem
  exact hfresh ⟨e', he', hid⟩

/-- With distinct IDs a removal takes the server away, and no other. -/
theorem serverThere_remove {b b' : Broker} (h : ServerIDsNodup b) {serverID : SPartyID}
    (hb' : b'.mConnectedServers = b.mConnectedServers.remove serverID) (id : SPartyID) :
    ServerThere b' id ↔ ServerThere b id ∧ id ≠ serverID := by
  have hentries : b'.mConnectedServers.entries =
      b.mConnectedServers.entries.filter (fun e => e.partyID ≠ serverID) :=
    (congrArg ServerList.entries hb').trans (eraseP_eq_filter h serverID)
  simp only [ServerThere, hentries, List.mem_filter]
  constructor
  · rintro ⟨e, ⟨he, hne⟩, rfl⟩
    exact ⟨⟨e, he, rfl⟩, by simpa using hne⟩
  · rintro ⟨⟨e, he, rfl⟩, hne⟩
    exact ⟨e, ⟨he, by simpa using hne⟩, rfl⟩

end Broker

end Dsi
