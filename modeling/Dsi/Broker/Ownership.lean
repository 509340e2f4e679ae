import Dsi.Broker.Holdings

/-!
# Dsi.Broker.Ownership

Server IDs are what a connection owns its servers by: its list holds IDs, and
`ClientSpecificData::clear` removes by ID.  As long as every server is registered
under an ID that no other server has at that moment, each entry belongs to the one
connection that registered it and goes with it.  A slave can send an ID that is
taken; then two connections hold it, and the second entry is never removed.
-/

namespace Dsi

open Sequence

namespace Broker

/-- The connection is open and has the ID in its server list. -/
def Owns (b : Broker) (c : Nat) (id : SPartyID) : Prop :=
  ∃ k, b.conns c = some k ∧ id ∈ k.data.mServerList.elems

/-- What a connection owns is what its list says. -/
theorem owns_congr {b b' : Broker} {c : Nat}
    (h : b'.serverList c = b.serverList c) (id : SPartyID) : Owns b' c id ↔ Owns b c id := by
  have howns (b : Broker) : Owns b c id ↔ ∃ l, b.serverList c = some l ∧ id ∈ l.elems := by
    simp [Owns, serverList]
  rw [howns, howns, h]

/-- The servers in the table are those that the open connections have in their lists,
each in one. -/
structure Owned (b : Broker) : Prop where
  numbers : NumbersFresh b
  ids : ServerIDsNodup b
  there : ∀ id, ServerThere b id ↔ ∃ c, Owns b c id
  unique : ∀ c c' id, Owns b c id → Owns b c' id → c = c'

/-- At the beginning nobody owns anything. -/
theorem owned_init : Owned init where
  numbers _ _ := rfl
  ids := List.nodup_nil
  there id := by simp [ServerThere, Owns, init, ServerList.empty]
  unique := by simp [Owns, init]

/-- What one step does to the owners: who owns a server behind it owned it before, or
is the caller and the ID is new. -/
structure OwnStep (caller : Option Nat) (b b' : Broker) : Prop where
  owned : Owned b'
  origin : ∀ c id, Owns b' c id → Owns b c id ∨ (¬ ServerThere b id ∧ caller = some c)

section Steps

variable {cfg : Config} {b b' : Broker}

/-- The server lists and the table are the same. -/
theorem Owned.congr (h : Owned b) (hnumbers : NumbersFresh b')
    (hcores : b'.mConnectedServers.cores = b.mConnectedServers.cores)
    (hlists : ∀ c, b'.serverList c = b.serverList c) :
    Owned b' where
  numbers := hnumbers
  ids := by
    have hids := h.ids
    unfold ServerIDsNodup at hids ⊢
    rwa [ServerList.map_eq_of_cores (by intros; rfl) hcores]
  there id := by
    rw [serverThere_congr hcores, h.there]
    exact exists_congr (fun c => (owns_congr (hlists c) id).symm)
  unique c c' id hc hc' :=
    h.unique c c' id ((owns_congr (hlists c) id).mp hc) ((owns_congr (hlists c') id).mp hc')

/-- The servers and the lists are all that counts. -/
theorem OwnStep.congr (h : Owned b) (caller : Option Nat) (hnumbers : NumbersFresh b')
    (hcores : b'.mConnectedServers.cores = b.mConnectedServers.cores)
    (hlists : ∀ c, b'.serverList c = b.serverList c) :
    OwnStep caller b b' where
  owned := h.congr hnumbers hcores hlists
  origin c id hc := Or.inl ((owns_congr (hlists c) id).mp hc)

/-- A change that keeps them, behind a step. -/
theorem OwnStep.then {caller : Option Nat} {b'' : Broker} (h : OwnStep caller b b')
    (hnumbers : NumbersFresh b'')
    (hcores : b''.mConnectedServers.cores = b'.mConnectedServers.cores)
    (hlists : ∀ c, b''.serverList c = b'.serverList c) : OwnStep caller b b'' where
  owned := h.owned.congr hnumbers hcores hlists
  origin c id hc := h.origin c id ((owns_congr (hlists c) id).mp hc)

/-! ## Registering -/

/-- Behind a part of a registration by connection `c`: the caller is there, nothing has
left the table, and what is new belongs to the caller. -/
structure Registers (c : Nat) (b b' : Broker) : Prop extends OwnStep (some c) b b' where
  caller : (b'.conns c).isSome = true
  keeps : ∀ id, ServerThere b id → ServerThere b' id

/-- Nothing is registered yet. -/
theorem Registers.refl (h : Owned b) {c : Nat} (hc : (b.conns c).isSome = true) :
    Registers c b b where
  owned := h
  origin _ _ hown := Or.inl hown
  caller := hc
  keeps _ := id

/-- The servers and the lists are all that counts. -/
theorem Registers.congr {c : Nat} {b'' : Broker} (h : Registers c b b')
    (hnumbers : NumbersFresh b'')
    (hcores : b''.mConnectedServers.cores = b'.mConnectedServers.cores)
    (hlists : ∀ c, b''.serverList c = b'.serverList c) : Registers c b b'' where
  toOwnStep := h.toOwnStep.then hnumbers hcores hlists
  caller := by
    have hsome := congrArg Option.isSome (hlists c)
    rw [serverList, serverList, Option.isSome_map, Option.isSome_map] at hsome
    exact hsome.trans h.caller
  keeps id hid := (serverThere_congr hcores id).mpr (h.keeps id hid)

/-- The connection owns the new server, if it is open. -/
theorem owns_addEntry (cfg : Config) (c c' : Nat) (e : ServerListEntry) (id : SPartyID) :
    Owns (b.addEntry cfg c e) c' id ↔
      Owns b c' id ∨ (c' = c ∧ (b.conns c).isSome = true ∧ id = e.partyID) := by
  have hsweeps : (b.addEntry cfg c e).serverList c' =
      ({ b with mConnectedServers := b.mConnectedServers.add e }.modifyData c
        (·.addServer e.partyID)).serverList c' := by
    simp only [addEntry, triggerDescription, triggerAllDescription, serverList_sweep]
  rw [owns_congr hsweeps]
  simp only [Owns, modifyData, setConnection]
  by_cases hc : c' = c
  · subst hc
    cases hk : b.conns c' with
    | none => simp
    | some k =>
        simp [ClientSpecificData.addServer, OrderedSet.mem_insert
          (fun x y => SPartyID.globalID_inj), or_comm]
  · simp [hc]

/-- The new server is there. -/
theorem serverThere_addEntry (cfg : Config) (c : Nat) (e : ServerListEntry) (id : SPartyID) :
    ServerThere (b.addEntry cfg c e) id ↔ ServerThere b id ∨ id = e.partyID := by
  simp only [ServerThere, servers_addEntry, ServerList.mem_add]
  constructor
  · rintro ⟨e', rfl | he', rfl⟩
    · exact Or.inr rfl
    · exact Or.inl ⟨e', he', rfl⟩
  · rintro (⟨e', he', rfl⟩ | rfl)
    · exact ⟨e', Or.inr he', rfl⟩
    · exact ⟨e, Or.inl rfl, rfl⟩

/-- A server under an ID that is not taken. -/
theorem Registers.addEntry {c : Nat} (h : Registers c b b') {e : ServerListEntry}
    (hfresh : ¬ ServerThere b' e.partyID) : Registers c b (b'.addEntry cfg c e) where
  owned :=
    { numbers := h.owned.numbers.moves (moves_addEntry cfg c e b')
      ids := h.owned.ids.addEntry cfg c hfresh
      there := fun id => by
        simp only [serverThere_addEntry, owns_addEntry, exists_or, h.owned.there id]
        simp [h.caller]
      unique := fun c₁ c₂ id h₁ h₂ => by
        have hnot (c₃ : Nat) : ¬ Owns b' c₃ e.partyID :=
          fun hown => hfresh ((h.owned.there _).mpr ⟨c₃, hown⟩)
        rw [owns_addEntry] at h₁ h₂
        rcases h₁ with h₁ | ⟨rfl, _, rfl⟩
        · rcases h₂ with h₂ | ⟨rfl, _, rfl⟩
          · exact h.owned.unique c₁ c₂ id h₁ h₂
          · exact absurd h₁ (hnot c₁)
        · rcases h₂ with h₂ | ⟨rfl, _, _⟩
          · exact absurd h₂ (hnot c₂)
          · rfl }
  origin c' id hown := by
    rw [owns_addEntry] at hown
    rcases hown with hown | ⟨rfl, _, rfl⟩
    · exact h.origin c' id hown
    · exact Or.inr ⟨fun hid => hfresh (h.keeps _ hid), rfl⟩
  caller := by
    have hconns := (moves_addEntry cfg c e b').conns c
    exact hconns.1.trans h.caller
  keeps id hid := (serverThere_addEntry cfg c e id).mpr (Or.inl (h.keeps id hid))

/-- A new interface with a fresh ID is owned by its connection. -/
theorem Registers.addInterface {ctx : SocketConnectionContext} (h : Registers ctx.mId b b')
    {d : InterfaceDescription} (pid : UInt32) (chid : Int32) (isLocal : Bool) (grpid : Int32)
    (hfresh : b'.freshInterface cfg d = true) :
    Registers ctx.mId b (b'.addInterface cfg ctx d pid chid isLocal grpid).2 := by
  unfold Broker.addInterface
  split
  · exact h
  · next hname =>
    have hnone := (Bool.or_eq_true_iff.mp hfresh).resolve_left hname
    have hnext : Registers ctx.mId b { b' with mNextServerID := b'.mNextServerID + 1 } :=
      h.congr h.owned.numbers rfl (fun _ => rfl)
    exact hnext.addEntry (not_serverThere_of_findID hnone)

/-- So is the record of a slave. -/
theorem Registers.registerMasterRecord {ctx : SocketConnectionContext}
    (h : Registers ctx.mId b b') {r : SFNDInterfaceDescriptionEx}
    (hfresh : b'.freshRecord cfg ctx r = true) :
    Registers ctx.mId b (b'.registerMasterRecord cfg ctx r).2 := by
  unfold Broker.registerMasterRecord
  split
  · exact h
  · next hrefuse =>
    have hnone := (Bool.or_eq_true_iff.mp hfresh).resolve_left hrefuse
    exact h.addEntry (not_serverThere_of_findID hnone)

/-- A registration at the master gives nobody a server. -/
theorem Registers.registerInterfacesMaster {c : Nat} (h : Registers c b b') (cfg : Config) :
    Registers c b (b'.registerInterfacesMaster cfg) := by
  have hprim : Prim cfg .masterID b' (b'.registerInterfacesMaster cfg) := .registerMaster b'
  have hstill := still_registerInterfacesMaster cfg b'
  refine h.congr ?_ (hprim.cores (by simp) (by simp))
    hstill.serverList
  have hmoves : Moves cfg c [.still] b' (b'.registerInterfacesMaster cfg) :=
    .single (by simp) (.still hstill)
  exact h.owned.numbers.moves hmoves

/-! ## Unregistering -/

/-- The server that is unregistered is owned no more. -/
theorem owns_handleUnregisterInterface (cfg : Config) {ctx : SocketConnectionContext}
    {serverID : SPartyID}
    (hown : (b.dataOf ctx.mId).mServerList.contains serverID = true) (c : Nat) (id : SPartyID) :
    Owns (b.handleUnregisterInterface cfg ctx serverID).1 c id ↔
      Owns b c id ∧ ¬ (c = ctx.mId ∧ id = serverID) := by
  have hlists : (b.handleUnregisterInterface cfg ctx serverID).1.serverList c =
      (b.modifyData ctx.mId (·.removeServer serverID)).serverList c := by
    unfold handleUnregisterInterface
    rw [if_pos hown]
    dsimp only
    split
    · rfl
    · simp only [respond, triggerAll, serverList_sweep]
      show (unregisterInterfaceMaster cfg _ _).serverList c = _
      rw [(still_unregisterInterfaceMaster cfg _ _).serverList, trigger, serverList_sweep]
  rw [owns_congr hlists]
  simp only [Owns, modifyData, setConnection]
  by_cases hc : c = ctx.mId
  · subst hc
    cases hk : b.conns ctx.mId with
    | none => simp
    | some k => simp [ClientSpecificData.removeServer, and_comm]
  · simp [hc]

/-- And it is not in the table any more. -/
theorem servers_handleUnregisterInterface (cfg : Config) {ctx : SocketConnectionContext}
    {serverID : SPartyID}
    (hown : (b.dataOf ctx.mId).mServerList.contains serverID = true)
    (hthere : ServerThere b serverID) :
    (b.handleUnregisterInterface cfg ctx serverID).1.mConnectedServers =
      b.mConnectedServers.remove serverID := by
  unfold handleUnregisterInterface
  rw [if_pos hown]
  dsimp only
  split
  · next hnone =>
    rw [serverThere_iff_findID] at hthere
    change b.mConnectedServers.findID serverID = none at hnone
    rw [hnone] at hthere
    simp at hthere
  · next entry _ =>
    simp only [respond, triggerAll, servers_sweep, Broker.dropServer, unregisterInterfaceMaster]
    split
    · show (trigger cfg _ _ _).mConnectedServers.remove serverID = _
      rw [trigger, servers_sweep]
      rfl
    · rw [trigger, servers_sweep]
      rfl

/-- So nothing is in the table that nobody owns. -/
theorem Owned.handleUnregisterInterface (h : Owned b) (ctx : SocketConnectionContext)
    (serverID : SPartyID) :
    OwnStep (some ctx.mId) b (b.handleUnregisterInterface cfg ctx serverID).1 := by
  have hnumbers := h.numbers.moves (moves_handleUnregisterInterface cfg ctx serverID b)
  by_cases hown : (b.dataOf ctx.mId).mServerList.contains serverID = true
  · have howns : Owns b ctx.mId serverID := by
      cases hk : b.conns ctx.mId with
      | none => simp [dataOf, data?, hk, OrderedSet.contains, OrderedSet.empty] at hown
      | some k => exact ⟨k, hk, by simpa [dataOf, data?, hk] using hown⟩
    have hservers := servers_handleUnregisterInterface cfg hown
      ((h.there serverID).mpr ⟨_, howns⟩)
    have hmem := owns_handleUnregisterInterface cfg hown
    refine ⟨⟨hnumbers, ?_, fun id => ?_, fun c c' id hc hc' => ?_⟩, fun c id hc => ?_⟩
    · unfold ServerIDsNodup
      rw [hservers]
      exact List.Nodup.sublist ((ServerList.remove_sublist serverID _).map _) h.ids
    · rw [serverThere_remove h.ids hservers, h.there]
      simp only [hmem]
      constructor
      · rintro ⟨⟨c, hc⟩, hne⟩
        exact ⟨c, hc, fun he => hne he.2⟩
      · rintro ⟨c, hc, hne⟩
        refine ⟨⟨c, hc⟩, ?_⟩
        rintro rfl
        exact hne ⟨h.unique c ctx.mId id hc howns, rfl⟩
    · exact h.unique c c' id ((hmem c id).mp hc).1 ((hmem c' id).mp hc').1
    · exact Or.inl ((hmem c id).mp hc).1
  · unfold Broker.handleUnregisterInterface at hnumbers ⊢
    rw [if_neg hown] at hnumbers ⊢
    exact OwnStep.congr h _ hnumbers rfl (fun _ => rfl)

/-! ## Requests -/

/-- A request whose servers get fresh IDs keeps the owners. -/
theorem Owned.dispatch (cfg : Config) (h : Owned b) (ctx : SocketConnectionContext)
    (hc : (b.conns ctx.mId).isSome = true) {r : Request}
    (hfresh : b.freshRequest cfg ctx r = true) :
    OwnStep (some ctx.mId) b (b.dispatch cfg ctx r).1 := by
  have hstart := Registers.refl h hc
  have hprims := prims_dispatch cfg ctx r b
  have hmoves := moves_dispatch cfg ctx r b
  cases r with
  | registerInterface d pid chid =>
      refine handleRegisterInterface_leaves hstart.toOwnStep fun hcheck hlocal => ?_
      have hd : b.freshInterface cfg d = true := by
        simpa [freshRequest, hcheck, hlocal] using hfresh
      exact ((hstart.addInterface pid chid _ _ hd).registerInterfacesMaster cfg).toOwnStep
  | registerInterfaceGroupID d pid chid grpid =>
      refine handleRegisterInterfaceGroupID_leaves hstart.toOwnStep fun hboth => ?_
      have hd : b.freshInterface cfg d = true := by
        simpa [freshRequest, hboth] using hfresh
      exact ((hstart.addInterface pid chid _ grpid hd).registerInterfacesMaster cfg).toOwnStep
  | registerInterfaceEx n pid chid rs =>
      have h1 : Registers ctx.mId b (recordLoop (registerRecordEx cfg ctx pid chid)
          n.toInt.toNat rs b).2 :=
        recordLoop_preserves_along (f := registerRecordEx cfg ctx pid chid)
          (P := freshInterface cfg) (fun d s hd hs => hs.addInterface pid chid _ _ hd) hstart hfresh
      exact handleRegisterInterfaceEx_leaves h1.toOwnStep
        (h1.registerInterfacesMaster cfg).toOwnStep
  | registerMasterInterfaceEx n rs =>
      have h1 : Registers ctx.mId b (recordLoop (Broker.registerMasterRecord cfg ctx)
          n.toInt.toNat rs b).2 :=
        recordLoop_preserves_along (fun r s hr hs => hs.registerMasterRecord hr) hstart hfresh
      exact handleRegisterMasterInterface_leaves (h1.registerInterfacesMaster cfg).toOwnStep
  | unregisterInterface id => exact h.handleUnregisterInterface ctx id
  | _ =>
      refine OwnStep.congr h _ (h.numbers.moves hmoves) (hprims.cores ?_ ?_)
        (hmoves.serverList ?_)
      all_goals
        simp [requestLabels, attachLabels, attachExtendedLabels, detachLabels, clearLabels,
          listLabels, disconnectLabels, availableLabels, moveLabels, attachMoves, detachMoves,
          notifyMoves]

/-- Its answer does too. -/
theorem Owned.request (h : Owned b) (c : Nat) (r : Request)
    (hfresh : serverIDsFresh cfg b (.request c r) = true) :
    OwnStep (some c) b (b.request cfg c r) := by
  rcases request_still cfg c r b with hsame | ⟨k, hk, hdeferred, hbreaks, hstill⟩
  · rw [hsame]
    exact OwnStep.congr h _ h.numbers rfl (fun _ => rfl)
  · have hr : b.freshRequest cfg (k.ctx c) r = true := by
      simpa [serverIDsFresh, hk, hdeferred] using hfresh
    have hdispatch := h.dispatch cfg (k.ctx c) (by
      show (b.conns c).isSome = true
      rw [hk]
      rfl) hr
    have hquiet := quiet_request cfg r hk hdeferred hbreaks
    exact hdispatch.then (h.numbers.moves (moves_request cfg c r b))
      (congrArg ServerList.cores hquiet.servers) hstill.serverList

/-! ## Closing a connection -/

/-- The servers of a connection go, and no others. -/
theorem entries_foldl_clearServer (cfg : Config) (l : List SPartyID) {b : Broker}
    (h : ServerIDsNodup b) : (l.foldl (Broker.clearServer cfg) b).mConnectedServers.entries =
      b.mConnectedServers.entries.filter (fun e => e.partyID ∉ l) := by
  induction l generalizing b with
  | nil => simp
  | cons id l ih =>
      have hone : (b.clearServer cfg id).mConnectedServers.entries =
          b.mConnectedServers.entries.filter (fun e => e.partyID ≠ id) := by
        unfold Broker.clearServer
        split
        · next hnone =>
          symm
          rw [List.filter_eq_self]
          intro e he
          have hne := List.find?_eq_none.mp hnone e he
          simpa using hne
        · next entry _ =>
          have hquiet : (b.unregisterInterfaceMaster cfg entry.masterID).mConnectedServers =
              b.mConnectedServers := by
            unfold Broker.unregisterInterfaceMaster
            split <;> rfl
          show ((b.unregisterInterfaceMaster cfg entry.masterID).mConnectedServers.remove
            id).entries = _
          rw [hquiet]
          exact Sequence.eraseP_eq_filter h id
      rw [List.foldl_cons, ih (h.clearServer id), hone, List.filter_filter]
      refine List.filter_congr (fun e _ => ?_)
      simp [Bool.and_comm]

/-- Clients that go leave the servers alone. -/
theorem servers_foldl_clearClient (cfg : Config) (l : List SPartyID) (b : Broker) :
    (l.foldl (Broker.clearClient cfg) b).mConnectedServers = b.mConnectedServers := by
  induction l generalizing b with
  | nil => rfl
  | cons id l ih =>
      rw [List.foldl_cons, ih]
      simp only [Broker.clearClient, evalMaster]
      split <;> rfl

/-- Closing a connection removes the servers in its list. -/
theorem entries_clear (cfg : Config) (h : ServerIDsNodup b) (c : Nat) :
    (b.clear cfg c).mConnectedServers.entries =
      b.mConnectedServers.entries.filter
        (fun e => e.partyID ∉ (b.dataOf c).mServerList.elems) := by
  rw [(clear_frame (g := fun _ => ()) (fun _ => rfl) cfg c b c).1, clearParties,
    servers_foldl_clearClient, entries_foldl_clearServer cfg _ h]

/-- A connection that is closed owns nothing. -/
theorem serverList_close (cfg : Config) (c c' : Nat) (b : Broker) :
    ((b.clear cfg c).setConnection c none).serverList c' =
      if c' = c then none else b.serverList c' := by
  have hclear : (b.clear cfg c).serverList c' = b.serverList c' :=
    (clear_frame (g := fun k => k.data.mServerList) (fun _ => rfl) cfg c b c').2.1.trans
      ((still_clearParties cfg c b).serverList c')
  simp only [serverList, setConnection] at hclear ⊢
  split
  · rfl
  · exact hclear

/-- Its servers go with it, the other ones stay with their owners. -/
theorem Owned.close (h : Owned b) {c : Nat} {k : Connection} (hk : b.conns c = some k)
    (hnumbers : NumbersFresh ((b.clear cfg c).setConnection c none)) :
    Owned ((b.clear cfg c).setConnection c none) ∧
      ∀ c' id, Owns ((b.clear cfg c).setConnection c none) c' id ↔ c' ≠ c ∧ Owns b c' id := by
  have howns (c' : Nat) (id : SPartyID) :
      Owns ((b.clear cfg c).setConnection c none) c' id ↔ c' ≠ c ∧ Owns b c' id := by
    by_cases hc : c' = c
    · subst hc
      simp [Owns, setConnection]
    · rw [owns_congr (b := b) (by rw [serverList_close, if_neg hc])]
      simp [hc]
  have hdata : (b.dataOf c).mServerList = k.data.mServerList := by rw [dataOf_eq hk]
  have hentries := entries_clear cfg h.ids c
  have hthere (id : SPartyID) : ServerThere ((b.clear cfg c).setConnection c none) id ↔
      ServerThere b id ∧ ¬ Owns b c id := by
    show (∃ e ∈ (b.clear cfg c).mConnectedServers.entries, e.partyID = id) ↔ _
    simp only [hentries, List.mem_filter, hdata, Owns, hk, decide_eq_true_eq, Option.some.injEq]
    constructor
    · rintro ⟨e, ⟨he, hnot⟩, rfl⟩
      refine ⟨⟨e, he, rfl⟩, ?_⟩
      rintro ⟨k', rfl, hmem⟩
      exact hnot hmem
    · rintro ⟨⟨e, he, rfl⟩, hnot⟩
      exact ⟨e, ⟨he, fun hmem => hnot ⟨k, rfl, hmem⟩⟩, rfl⟩
  refine ⟨⟨hnumbers, ?_, fun id => ?_, fun c₁ c₂ id h₁ h₂ => ?_⟩, howns⟩
  · show ((b.clear cfg c).mConnectedServers.entries.map (·.partyID)).Nodup
    rw [hentries]
    exact List.Nodup.sublist (List.filter_sublist.map _) h.ids
  · rw [hthere, h.there]
    simp only [howns]
    constructor
    · rintro ⟨⟨c', hc'⟩, hnot⟩
      exact ⟨c', fun he => hnot (he ▸ hc'), hc'⟩
    · rintro ⟨c', hne, hc'⟩
      exact ⟨⟨c', hc'⟩, fun hc => hne (h.unique c' c id hc' hc)⟩
  · exact h.unique c₁ c₂ id ((howns c₁ id).mp h₁).2 ((howns c₂ id).mp h₂).2

/-! ## Runs -/

/-- The connection whose request the event is. -/
def Event.caller? : Event → Option Nat
  | .request c _ => some c
  | _ => none

/-- Every step whose servers get fresh IDs keeps the owners. -/
theorem Owned.step (cfg : Config) (h : Owned b) (hattach : b.mPendingAttachExtendedJobs = [])
    {e : Event}
    (hfresh : serverIDsFresh cfg b e = true) :
    OwnStep (Event.caller? e) b (b.step cfg e) := by
  have hnumbers := h.numbers.step cfg hattach e
  have hquiet (he : fromConnection e = false)
      (hopen : ∀ node loc uid, e ≠ .connected node loc uid) :
      OwnStep (Event.caller? e) b (b.step cfg e) := by
    obtain ⟨c, hm⟩ := moves_step cfg hattach he hopen
    exact OwnStep.congr h _ hnumbers (cores_step cfg hattach he)
      (hm.serverList (by simp [eventMoves]))
  cases e with
  | connected node loc uid =>
      have hopen (c : Nat) (id : SPartyID) :
          Owns (b.openConnection node loc uid) c id ↔ Owns b c id := by
        simp only [Owns, openConnection, setConnection]
        split
        · next hc =>
          rw [h.numbers c (Nat.le_of_eq hc.symm)]
          simp [OrderedSet.empty]
        · rfl
      refine ⟨⟨hnumbers, h.ids, fun id => ?_, fun c c' id hc hc' => ?_⟩, fun c id hc => ?_⟩
      · exact (h.there id).trans (exists_congr (fun c => (hopen c id).symm))
      · exact h.unique c c' id ((hopen c id).mp hc) ((hopen c' id).mp hc')
      · exact Or.inl ((hopen c id).mp hc)
  | request c r => exact h.request c r hfresh
  | closed c =>
      simp only [Broker.step] at hnumbers ⊢
      rcases closeConnection_cases cfg c b with hsame | ⟨k, hk, _, hclose⟩
      · rw [hsame]
        exact OwnStep.congr h _ h.numbers rfl (fun _ => rfl)
      · rw [hclose] at hnumbers ⊢
        obtain ⟨howned, howns⟩ := h.close hk hnumbers
        exact ⟨howned, fun c' id hc' => Or.inl ((howns c' id).mp hc').2⟩
  | pulse => exact hquiet rfl (by simp)
  | deliver => exact hquiet rfl (by simp)
  | worker => exact hquiet rfl (by simp)

/-- By whom the server with an ID was registered last: the requests of a run under which
the ID came into the table. -/
def registrants (cfg : Config) (owner : SPartyID → Option Nat) (b : Broker) :
    List Event → SPartyID → Option Nat
  | [] => owner
  | e :: es =>
      registrants cfg (fun id =>
        if (b.mConnectedServers.findID id).isNone ∧
            ((b.step cfg e).mConnectedServers.findID id).isSome then Event.caller? e
        else owner id) (b.step cfg e) es

end Steps

/-- In such a run the owner of every server is the connection that registered it. -/
theorem registered_run {cfg : Config} (owner : SPartyID → Option Nat) {b : Broker}
    {es : List Event} (h : Owned b) (hpeers : Peers (fun _ _ => True) b)
    (howner : ∀ c id, Owns b c id → owner id = some c)
    (hfresh : Run.Along (step cfg) (fun b e => serverIDsFresh cfg b e = true) b es) :
    Owned (Run.run (step cfg) b es) ∧
      ∀ c id, Owns (Run.run (step cfg) b es) c id →
        registrants cfg owner b es id = some c := by
  induction es generalizing b owner with
  | nil => exact ⟨h, howner⟩
  | cons e es ih =>
      have hstep := h.step cfg hpeers.attachJobs hfresh.1
      refine ih _ hstep.owned (hpeers.step (fun _ _ _ _ => trivial)) ?_ hfresh.2
      intro c id hown
      rcases hstep.origin c id hown with hold | ⟨hnew, hcaller⟩
      · have hthere := serverThere_iff_findID.mp ((h.there id).mpr ⟨c, hold⟩)
        rw [if_neg (by simp [Option.isSome_iff_ne_none.mp hthere])]
        exact howner c id hold
      · have hnone : (b.mConnectedServers.findID id).isNone = true := by
          rw [serverThere_iff_findID] at hnew
          simpa using hnew
        have hsome := serverThere_iff_findID.mp ((hstep.owned.there id).mpr ⟨c, hown⟩)
        rw [if_pos ⟨hnone, hsome⟩, hcaller]

/-- In every run in which each server is registered under an ID that no server has at
that moment, the IDs are distinct, each server is in the list of exactly one open
connection, the one that registered it, and closing a connection removes exactly the
servers that it registered. -/
theorem servers_owned_of_fresh (cfg : Config) (es : List Event)
    (h : Run.Along (step cfg) (fun b e => serverIDsFresh cfg b e = true) init es) :
    let b := Run.run (step cfg) init es
    let owner := registrants cfg (fun _ => none) init es
    (b.mConnectedServers.entries.map (·.partyID)).Nodup ∧
      (∀ e ∈ b.mConnectedServers.entries, ∃ c, owner e.partyID = some c ∧ Owns b c e.partyID ∧
        ∀ c', Owns b c' e.partyID → c' = c) ∧
      ∀ c k, b.conns c = some k → k.held = false →
        (b.step cfg (.closed c)).mConnectedServers.entries =
          b.mConnectedServers.entries.filter (fun e => owner e.partyID ≠ some c) := by
  intro b owner
  have hinit : Peers (fun _ _ => True) init := ⟨rfl, by simp [init]⟩
  obtain ⟨howned, howner⟩ := registered_run (fun _ => none) owned_init hinit
    (by simp [Owns, init]) h
  change Owned b at howned
  change ∀ c id, Owns b c id → owner id = some c at howner
  refine ⟨howned.ids, fun e he => ?_, fun c k hk hheld => ?_⟩
  · obtain ⟨c, hc⟩ := (howned.there e.partyID).mp ⟨e, he, rfl⟩
    exact ⟨c, howner c _ hc, hc, fun c' hc' => howned.unique c' c _ hc' hc⟩
  · simp only [step, closeConnection, hk, hheld, Bool.false_eq_true, if_false]
    show (b.clear cfg c).mConnectedServers.entries = _
    rw [entries_clear cfg howned.ids]
    refine List.filter_congr (fun e he => ?_)
    obtain ⟨c', hc'⟩ := (howned.there e.partyID).mp ⟨e, he, rfl⟩
    have hlist : e.partyID ∈ (b.dataOf c).mServerList.elems ↔ Owns b c e.partyID := by
      simp [Owns, dataOf_eq hk, hk]
    have hmine : Owns b c e.partyID ↔ owner e.partyID = some c :=
      ⟨howner c _, fun ho => by
        rw [howner c' _ hc'] at ho
        exact Option.some.inj ho ▸ hc'⟩
    exact decide_eq_decide.mpr (not_congr (hlist.trans hmine))

/-- A slave with two servers, a local server, and the slave goes. -/
theorem servers_owned_slave_goes :
    let es : List Event := [.connected 9 0 (-1), .connected 0 0 0,
      .request 1 (.registerMasterInterfaceEx 2 [⟨1, 0, 0, ⟨7, 2000⟩, ⟨[65], 1, 0⟩⟩,
        ⟨1, 0, 0, ⟨8, 2000⟩, ⟨[66], 1, 0⟩⟩]),
      .request 2 (.registerInterface ⟨[67], 1, 0⟩ 0 1)]
    let b := Run.run (step aloneConfig) init es
    registrants aloneConfig (fun _ => none) init es ⟨8, 2000⟩ = some 1 ∧
      (b.mConnectedServers.entries.map (·.partyID)).Nodup ∧
      (b.step aloneConfig (.closed 1)).mConnectedServers.entries.map (·.partyID) =
        [⟨500001, 1000⟩] :=
  ⟨by decide, (servers_owned_of_fresh aloneConfig _ (by decide)).1, by decide⟩

/-- A slave sends two servers under one ID.  Both are registered, its list holds the ID
once, and when it goes, one of them stays for ever. -/
theorem not_owned_one_id_twice :
    let es : List Event := [.connected 9 0 (-1),
      .request 1 (.registerMasterInterfaceEx 2 [⟨1, 0, 0, ⟨7, 2000⟩, ⟨[65], 1, 0⟩⟩,
        ⟨1, 0, 0, ⟨7, 2000⟩, ⟨[66], 1, 0⟩⟩])]
    let b := Run.run (step aloneConfig) init es
    let b' := b.step aloneConfig (.closed 1)
    ¬ (b.mConnectedServers.entries.map (·.partyID)).Nodup ∧
      b'.mConnectedServers.entries.map (·.partyID) = [⟨7, 2000⟩] ∧
      ∀ c, ¬ Owns b' c ⟨7, 2000⟩ := by
  intro es b b'
  have hnumbers : NumbersFresh (Run.run (step aloneConfig) b [.closed 1]) := by
    rw [← Run.run_append]
    exact numbersFresh_run aloneConfig _
  have hnext : b'.nextConnectionId = 2 := by decide
  have hclosed : ∀ c < 2, (b'.conns c).isNone = true := by decide
  have hnone (c : Nat) : b'.conns c = none := by
    rcases Nat.lt_or_ge c 2 with hlt | hge
    · exact Option.isNone_iff_eq_none.mp (hclosed c hlt)
    · exact hnumbers c (Nat.le_trans (Nat.le_of_eq hnext) hge)
  refine ⟨by decide, by decide, ?_⟩
  rintro c ⟨k, hk, _⟩
  exact absurd ((hnone c).symm.trans hk) (by simp)

end Broker

end Dsi
