import Dsi.Engine.Membership

/-!
# Dsi.Engine.Lookup

When the caches of an engine are transparent.  A cache entry is right as long as the
party that it names is the first in the list that has the ID of the entry; `keepsCaches`
says which steps leave no entry behind that is wrong.  A lookup of a server that misses
the cache compares the local halves of the IDs only.
-/

namespace Dsi

/-- The keys of the caches are ordered. -/
theorem SPartyID.strictComparison_less : StrictComparison SPartyID.less :=
  .of_int (f := fun id => (id.globalID : Int))
    (fun _ _ h => SPartyID.globalID_inj (Int.ofNat.inj h)) (fun a b => by simp [SPartyID.less])

namespace CCommEngine

open Private

/-! ## Right entries -/

/-- A cache in the order of its keys, every entry of which names the first party of a
list that has its ID. -/
structure Valid (list : List Nat) (cache : List (SPartyID × Nat))
    (has : SPartyID → Nat → Bool) : Prop where
  sorted : cache.Pairwise (fun a b => SPartyID.less a.1 b.1 = true)
  found : ∀ e ∈ cache, list.find? (has e.1) = some e.2

namespace Valid

variable {list : List Nat} {cache cache' : List (SPartyID × Nat)}
  {has has' : SPartyID → Nat → Bool} {p : Nat}

/-- What the cache has is what the list would give. -/
theorem lookup (h : Valid list cache has) {id : SPartyID} (hp : cache.lookup id = some p) :
    list.find? (has id) = some p := by
  obtain ⟨front, back, rfl, -⟩ := List.lookup_eq_some_iff.mp hp
  exact h.found (id, p) (by simp)

/-- A cached party is listed. -/
theorem mem_list (h : Valid list cache has) {e : SPartyID × Nat} (he : e ∈ cache) :
    e.2 ∈ list := List.mem_of_find?_eq_some (h.found e he)

/-- A cached party has the ID that it is cached under. -/
theorem has_self (h : Valid list cache has) {e : SPartyID × Nat} (he : e ∈ cache) :
    has e.1 e.2 = true := List.find?_some (h.found e he)

/-- Entries may go. -/
theorem evict (h : Valid list cache has) (hcache : cache'.Sublist cache) :
    Valid list cache' has :=
  ⟨h.sorted.sublist hcache, fun e he => h.found e (hcache.subset he)⟩

/-- A party at the end of the list is found behind the cached ones. -/
theorem push (h : Valid list cache has) (p : Nat) : Valid (list ++ [p]) cache has :=
  ⟨h.sorted, fun e he => by rw [List.find?_append, h.found e he, Option.some_or]⟩

/-- The party that a lookup finds is entered under its ID. -/
theorem assign (h : Valid list cache has) {id : SPartyID} (hp : list.find? (has id) = some p) :
    Valid list (mapAssign SPartyID.less id p cache) has where
  sorted := pairwise_mapAssign SPartyID.strictComparison_less h.sorted
  found e he := by
    rcases (mem_mapAssign SPartyID.strictComparison_less h.sorted e).mp he with rfl | ⟨hold, -⟩
    · exact hp
    · exact h.found e hold

/-- The list that `std::remove` leaves, once the cache has no entry of the party left. -/
theorem remove (h : Valid list cache has) (hnone : ∀ e ∈ cache, e.2 ≠ p) :
    Valid (Sequence.removeShift p list) cache has where
  sorted := h.sorted
  found e he := by
    obtain ⟨hhas, front, back, hlist, hfront⟩ := List.find?_eq_some_iff_append.mp (h.found e he)
    have hkept : list.filter (· ≠ p) =
        front.filter (· ≠ p) ++ e.2 :: back.filter (· ≠ p) := by
      rw [hlist, List.filter_append,
        List.filter_cons_of_pos (p := fun x => decide (x ≠ p)) (decide_eq_true (hnone e he))]
    have hfirst : (list.filter (· ≠ p)).find? (has e.1) = some e.2 := by
      rw [List.find?_eq_some_iff_append]
      exact ⟨hhas, _, _, hkept, fun a ha => hfront a (List.mem_of_mem_filter ha)⟩
    rw [Sequence.removeShift, List.find?_append, hfirst, Option.some_or]

/-- A write to the IDs of one party: its entries stay right, and it does not get the ID of
an entry of a party behind it. -/
theorem write (h : Valid list cache has) (hothers : ∀ id q, q ≠ p → has' id q = has id q)
    (hstays : ∀ e ∈ cache, e.2 = p → has' e.1 p = true)
    (hgets : ∀ e ∈ cache, p ∈ list.takeWhile (· != e.2) → has' e.1 p = true → has e.1 p = true) :
    Valid list cache has' where
  sorted := h.sorted
  found e he := by
    obtain ⟨hhas, front, back, hlist, hfront⟩ := List.find?_eq_some_iff_append.mp (h.found e he)
    rw [List.find?_eq_some_iff_append]
    refine ⟨?_, front, back, hlist, fun a ha => ?_⟩
    · by_cases heq : e.2 = p
      · rw [heq]
        exact hstays e he heq
      · rw [hothers e.1 e.2 heq]
        exact hhas
    · have hnot := hfront a ha
      by_cases heq : a = p
      · subst heq
        have hbefore : a ∈ list.takeWhile (· != e.2) := by
          have hne : ∀ x ∈ front, (x != e.2) = true := by
            intro x hx
            refine bne_iff_ne.mpr (fun heq => ?_)
            have hx' := hfront x hx
            rw [heq, hhas] at hx'
            exact Bool.noConfusion hx'
          rw [hlist, List.takeWhile_append_of_pos hne]
          exact List.mem_append_left _ ha
        cases hgot : has' e.1 a with
        | false => rfl
        | true =>
            rw [hgets e he hbefore hgot] at hnot
            exact hnot
      · rw [hothers e.1 a heq]
        exact hnot

/-- What happens to a party that is not in the list does not matter. -/
theorem write_of_unlisted (h : Valid list cache has)
    (hothers : ∀ id q, q ≠ p → has' id q = has id q) (hp : p ∉ list) : Valid list cache has' :=
  h.write hothers (fun _ he heq => absurd (heq ▸ h.mem_list he) hp)
    (fun _ _ hbefore => absurd (List.takeWhile_subset _ hbefore) hp)

/-- A party with one ID has at most one entry, so that none is left behind its eviction. -/
theorem none_left (h : Valid list cache has)
    (hone : ∀ id id', has id p = true → has id' p = true → id = id') :
    ∀ e ∈ removeFromCache p cache, e.2 ≠ p := by
  induction cache with
  | nil => nofun
  | cons x cache ih =>
      have htail : Valid list cache has := h.evict (List.sublist_cons_self x cache)
      intro e he heq
      rw [removeFromCache] at he
      by_cases hx : x.2 = p
      · rw [List.eraseP_cons_of_pos (p := fun x : SPartyID × Nat => x.2 == p)
          (beq_iff_eq.mpr hx)] at he
        have hless := (List.pairwise_cons.mp h.sorted).1 e he
        have hsame : x.1 = e.1 := hone _ _ (hx ▸ h.has_self List.mem_cons_self)
          (heq ▸ htail.has_self he)
        exact SPartyID.strictComparison_less.ne hless hsame
      · rw [List.eraseP_cons_of_neg (p := fun x : SPartyID × Nat => x.2 == p)
          (by rw [beq_iff_eq]; exact hx)] at he
        rcases List.mem_cons.mp he with rfl | hrest
        · exact hx heq
        · exact ih htail e hrest heq

end Valid

/-! ## Lookups without a cache -/

namespace Private

variable {me p : Nat} {s s' : Private}

/-- The client has the ID, in all 64 bits. -/
def hasClientID (s : Private) (id : SPartyID) (p : Nat) : Bool :=
  (s.clients p).any (·.mClientID == id)

/-- The server has the ID as one of its two, in all 64 bits. -/
def hasServerID (s : Private) (id : SPartyID) (p : Nat) : Bool :=
  (s.servers p).any (fun x => x.mServerID == id || x.mTCPServerID == id)

/-- The server has the ID for `FindByPartyID`. -/
def matchesServerID (s : Private) (id : SPartyID) (p : Nat) : Bool :=
  (s.servers p).any (·.hasID id)

/-- The listed client whose `mClientID` is `id`. -/
def clientOf (s : Private) (id : SPartyID) : Option Nat := s.mClientList.find? (s.hasClientID id)

/-- The listed server whose `mServerID` or `mTCPServerID` is `id`. -/
def serverOf (s : Private) (id : SPartyID) : Option Nat := s.mServerList.find? (s.hasServerID id)

/-- Every party in the lists exists, and every entry of the caches is right. -/
structure Transparent (s : Private) : Prop where
  exist : s.allExist = true
  clients : Valid s.mClientList s.mClientCache s.hasClientID
  servers : Valid s.mServerList s.mServerCache s.hasServerID

/-! ### What a step has to leave alone -/

/-- A write to an ID leaves the entries of the party right, and the ID is not the one of
an entry of a party behind it in the list. -/
def keepsEntries (s : Private) : SetID → Prop
  | .mClientID p id =>
      ∀ e ∈ s.mClientCache,
        (e.2 = p → e.1 = id) ∧ (p ∈ s.mClientList.takeWhile (· != e.2) → e.1 ≠ id)
  | .mServerID p id =>
      ∀ e ∈ s.mServerCache,
        (e.2 = p → e.1 = id ∨ (s.servers p).any (·.mTCPServerID == e.1) = true) ∧
          (p ∈ s.mServerList.takeWhile (· != e.2) → e.1 ≠ id)
  | .mTCPServerID p id =>
      ∀ e ∈ s.mServerCache,
        (e.2 = p → e.1 = id ∨ (s.servers p).any (·.mServerID == e.1) = true) ∧
          (p ∈ s.mServerList.takeWhile (· != e.2) → e.1 ≠ id)

/-- Every write of a sequence does. -/
def keepsAll (s : Private) (ws : List SetID) : Prop := Run.Along setID keepsEntries s ws

/-- The steps that leave no wrong entry behind: their writes do, the removal of a server
takes its only entry, no listed party is destroyed, and the server that a lookup enters
under its ID is the first in the list with that ID. -/
def keepsCaches (me : Nat) (s : Private) : Event → Prop
  | .addServer engine p answers =>
      engine = me → s.mActive = true → (s.servers p).any (·.mCommEngine.isNone) = true →
        keepsAll { s.setServerEngine p (some me) with mServerList := s.mServerList ++ [p] }
          (answers.first.toList.map (.mServerID p) ++ s.registerInterface p answers)
  | .removeClient engine p =>
      engine = me → s.hasClient me p = true → s.mActive = true →
        keepsAll
          { s with
            mClientList := Sequence.removeShift p s.mClientList
            mClientCache := removeFromCache p s.mClientCache }
          (Private.detachInterface p)
  | .removeServer engine p =>
      engine = me → s.hasServer me p = true →
        (∀ e ∈ removeFromCache p s.mServerCache, e.2 ≠ p) ∧
          (s.mActive = true →
            keepsAll
              { s with
                mServerList := Sequence.removeShift p s.mServerList
                mServerCache := removeFromCache p s.mServerCache }
              (unregisterInterface p))
  | .destroyClient p => p ∉ s.mClientList
  | .destroyServer p => p ∉ s.mServerList
  | .run answers => s.mActive = false → keepsAll s (s.registerAll answers)
  | .stop => s.mActive = true → keepsAll s s.unregisterAll
  | .serverAvailable value clientID =>
      ∀ e, s.findClientById value = .ok (some e) →
        keepsAll s (clientID.toList.map (.mClientID e.1))
  | .serverDisconnect value =>
      ∀ e, s.findClientById value = .ok (some e) →
        keepsAll { s with mClientCache := removeFromCache e.1 s.mClientCache }
          (Private.detachInterface e.1)
  | .connected p clientID => keepsEntries s (.mClientID p clientID)
  | .detachInterface p => keepsAll s (Private.detachInterface p)
  | .findServer id =>
      s.mServerCache.lookup id = none → ∀ p ∈ s.mServerList.find? (s.matchesServerID id),
        ∀ x ∈ s.servers p, s.serverOf x.mServerID = some p
  | _ => True

/-! ### Writes -/

/-- An object that is changed exists as before. -/
theorem isSome_modifyAt {α : Type} (f : α → α) (objects : Nat → Option α) (q : Nat) :
    (modifyAt p f objects q).isSome = (objects q).isSome := by
  rw [modifyAt]
  by_cases heq : q = p
  · rw [if_pos heq, heq, Option.isSome_map]
  · rw [if_neg heq]

/-- A party whose ID is written exists as before. -/
theorem allExist_setID (w : SetID) : (s.setID w).allExist = s.allExist := by
  cases w with
  | mClientID p id =>
      rw [allExist, allExist, setID]
      simp only [isSome_modifyAt]
  | mServerID p id =>
      rw [allExist, allExist, setID]
      simp only [isSome_modifyAt]
  | mTCPServerID p id =>
      rw [allExist, allExist, setID]
      simp only [isSome_modifyAt]

/-- A listed client exists. -/
theorem Transparent.client_exists (h : Transparent s) (hp : p ∈ s.mClientList) :
    (s.clients p).isSome = true := by
  have hexist := h.exist
  rw [allExist, Bool.and_eq_true, List.all_eq_true, List.all_eq_true] at hexist
  exact hexist.1 p hp

/-- A listed server exists. -/
theorem Transparent.server_exists (h : Transparent s) (hp : p ∈ s.mServerList) :
    (s.servers p).isSome = true := by
  have hexist := h.exist
  rw [allExist, Bool.and_eq_true, List.all_eq_true, List.all_eq_true] at hexist
  exact hexist.2 p hp

/-- A client has the ID that is written, the other ones have theirs. -/
theorem hasClientID_setID (p : Nat) (id k : SPartyID) (q : Nat) :
    (s.setID (.mClientID p id)).hasClientID k q =
      if q = p then (s.clients p).isSome && id == k else s.hasClientID k q := by
  rw [hasClientID, setID]
  dsimp only [modifyAt]
  by_cases heq : q = p
  · rw [if_pos heq, if_pos heq]
    cases s.clients p with
    | none => rfl
    | some c => rfl
  · rw [if_neg heq, if_neg heq]
    rfl

/-- A server has the ID that is written, or its TCP ID; the other ones have theirs. -/
theorem hasServerID_setServerID (p : Nat) (id k : SPartyID) (q : Nat) :
    (s.setID (.mServerID p id)).hasServerID k q =
      if q = p then (s.servers p).any (fun x => id == k || x.mTCPServerID == k)
      else s.hasServerID k q := by
  rw [hasServerID, setID]
  dsimp only [modifyAt]
  by_cases heq : q = p
  · rw [if_pos heq, if_pos heq]
    cases s.servers p with
    | none => rfl
    | some x => rfl
  · rw [if_neg heq, if_neg heq]
    rfl

/-- A server has the TCP ID that is written, or its own; the other ones have theirs. -/
theorem hasServerID_setTCPServerID (p : Nat) (id k : SPartyID) (q : Nat) :
    (s.setID (.mTCPServerID p id)).hasServerID k q =
      if q = p then (s.servers p).any (fun x => x.mServerID == k || id == k)
      else s.hasServerID k q := by
  rw [hasServerID, setID]
  dsimp only [modifyAt]
  by_cases heq : q = p
  · rw [if_pos heq, if_pos heq]
    cases s.servers p with
    | none => rfl
    | some x => rfl
  · rw [if_neg heq, if_neg heq]
    rfl

/-- A write to the ID of a client that spares the cached entries. -/
theorem Transparent.setClientID (h : Transparent s) {id : SPartyID}
    (hw : s.keepsEntries (.mClientID p id)) : Transparent (s.setID (.mClientID p id)) where
  exist := (allExist_setID _).trans h.exist
  clients := by
    refine h.clients.write (p := p) (fun k q hne => ?_) (fun e he heq => ?_)
      (fun e he hbefore hgot => ?_)
    · rw [hasClientID_setID, if_neg hne]
    · have hexists := h.client_exists (heq ▸ h.clients.mem_list he)
      rw [hasClientID_setID, if_pos rfl, hexists, (hw e he).1 heq, beq_self_eq_true]
      rfl
    · rw [hasClientID_setID, if_pos rfl, Bool.and_eq_true, beq_iff_eq] at hgot
      exact absurd hgot.2.symm ((hw e he).2 hbefore)
  servers := h.servers

/-- A write to the ID of a server that spares the cached entries. -/
theorem Transparent.setServerID (h : Transparent s) {id : SPartyID}
    (hw : s.keepsEntries (.mServerID p id)) : Transparent (s.setID (.mServerID p id)) where
  exist := (allExist_setID _).trans h.exist
  clients := h.clients
  servers := by
    refine h.servers.write (p := p) (fun k q hne => ?_) (fun e he heq => ?_)
      (fun e he hbefore hgot => ?_)
    · rw [hasServerID_setServerID, if_neg hne]
    · obtain ⟨x, hx⟩ := Option.isSome_iff_exists.mp
        (h.server_exists (heq ▸ h.servers.mem_list he))
      have hstays := (hw e he).1 heq
      rw [hx, Option.any_some] at hstays
      rw [hasServerID_setServerID, if_pos rfl, hx, Option.any_some, Bool.or_eq_true, beq_iff_eq]
      exact hstays.imp Eq.symm (fun htcp => htcp)
    · obtain ⟨x, hx, hkey⟩ := Option.any_eq_true _ _ |>.mp
        (by rwa [hasServerID_setServerID, if_pos rfl] at hgot)
      rw [Bool.or_eq_true, beq_iff_eq] at hkey
      have htcp := hkey.resolve_left (fun heq => (hw e he).2 hbefore heq.symm)
      rw [hasServerID, hx, Option.any_some, htcp, Bool.or_true]

/-- A write to the TCP ID of a server that spares the cached entries. -/
theorem Transparent.setTCPServerID (h : Transparent s) {id : SPartyID}
    (hw : s.keepsEntries (.mTCPServerID p id)) : Transparent (s.setID (.mTCPServerID p id)) where
  exist := (allExist_setID _).trans h.exist
  clients := h.clients
  servers := by
    refine h.servers.write (p := p) (fun k q hne => ?_) (fun e he heq => ?_)
      (fun e he hbefore hgot => ?_)
    · rw [hasServerID_setTCPServerID, if_neg hne]
    · obtain ⟨x, hx⟩ := Option.isSome_iff_exists.mp
        (h.server_exists (heq ▸ h.servers.mem_list he))
      have hstays := (hw e he).1 heq
      rw [hx, Option.any_some] at hstays
      rw [hasServerID_setTCPServerID, if_pos rfl, hx, Option.any_some, Bool.or_eq_true,
        beq_iff_eq (a := id)]
      exact hstays.symm.imp (fun hid => hid) Eq.symm
    · obtain ⟨x, hx, hkey⟩ := Option.any_eq_true _ _ |>.mp
        (by rwa [hasServerID_setTCPServerID, if_pos rfl] at hgot)
      rw [Bool.or_eq_true, beq_iff_eq (a := id)] at hkey
      have hlocal := hkey.resolve_right (fun heq => (hw e he).2 hbefore heq.symm)
      rw [hasServerID, hx, Option.any_some, hlocal, Bool.true_or]

/-- A write to any ID that spares the cached entries. -/
theorem Transparent.setID (h : Transparent s) {w : SetID} (hw : s.keepsEntries w) :
    Transparent (s.setID w) := by
  cases w with
  | mClientID p id => exact h.setClientID hw
  | mServerID p id => exact h.setServerID hw
  | mTCPServerID p id => exact h.setTCPServerID hw

/-- Writes one after the other that each spare them. -/
theorem Transparent.setIDs (h : Transparent s) {ws : List SetID} (hws : s.keepsAll ws) :
    Transparent (s.setIDs ws) :=
  Run.invariant (I := Transparent) (fun _ _ ht hw => ht.setID hw) h hws

/-! ### Lists and objects -/

/-- All parties exist if the listed clients and the listed servers do. -/
theorem allExist_iff : s.allExist = true ↔
    (∀ p ∈ s.mClientList, (s.clients p).isSome = true) ∧
      ∀ p ∈ s.mServerList, (s.servers p).isSome = true := by
  rw [allExist, Bool.and_eq_true, List.all_eq_true, List.all_eq_true]

/-- The engine of a client is not looked up. -/
theorem Transparent.setClientEngine (h : Transparent s) (p : Nat) (engine : Option Nat) :
    Transparent (s.setClientEngine p engine) where
  exist := by
    rw [allExist, Private.setClientEngine]
    simp only [isSome_modifyAt]
    exact h.exist
  clients := by
    have hhas : (s.setClientEngine p engine).hasClientID = s.hasClientID :=
      funext fun k => funext fun q =>
        any_modifyAt (f := fun c : Client => { c with mCommEngine := engine })
          (g := (·.mClientID == k)) (fun _ => rfl) s.clients q
    rw [hhas]
    exact h.clients
  servers := h.servers

/-- The engine of a server is not looked up. -/
theorem Transparent.setServerEngine (h : Transparent s) (p : Nat) (engine : Option Nat) :
    Transparent (s.setServerEngine p engine) where
  exist := by
    rw [allExist, Private.setServerEngine]
    simp only [isSome_modifyAt]
    exact h.exist
  clients := h.clients
  servers := by
    have hhas : (s.setServerEngine p engine).hasServerID = s.hasServerID :=
      funext fun k => funext fun q =>
        any_modifyAt (f := fun x : Server => { x with mCommEngine := engine })
          (g := fun x => x.mServerID == k || x.mTCPServerID == k) (fun _ => rfl) s.servers q
    rw [hhas]
    exact h.servers

/-- The other objects stay. -/
theorem replaceAt_of_ne {α : Type} {a : Option α} {objects : Nat → Option α} {q : Nat}
    (h : q ≠ p) : replaceAt p a objects q = objects q := if_neg h

/-- A client that is not listed may be created or destroyed. -/
theorem Transparent.replaceClient (h : Transparent s) (c : Option Client)
    (hp : p ∉ s.mClientList) :
    Transparent { s with clients := replaceAt p c s.clients } where
  exist := by
    refine allExist_iff.mpr ⟨fun q hq => ?_, fun q hq => h.server_exists hq⟩
    change (replaceAt p c s.clients q).isSome = true
    have hne : q ≠ p := fun heq => hp (heq ▸ hq)
    rw [replaceAt_of_ne hne]
    exact h.client_exists hq
  clients := h.clients.write_of_unlisted (fun k q hne => by
    rw [hasClientID, hasClientID]
    dsimp only
    rw [replaceAt_of_ne hne]) hp
  servers := h.servers

/-- A server that is not listed may be created or destroyed. -/
theorem Transparent.replaceServer (h : Transparent s) (x : Option Server)
    (hp : p ∉ s.mServerList) :
    Transparent { s with servers := replaceAt p x s.servers } where
  exist := by
    refine allExist_iff.mpr ⟨fun q hq => h.client_exists hq, fun q hq => ?_⟩
    change (replaceAt p x s.servers q).isSome = true
    have hne : q ≠ p := fun heq => hp (heq ▸ hq)
    rw [replaceAt_of_ne hne]
    exact h.server_exists hq
  clients := h.clients
  servers := h.servers.write_of_unlisted (fun k q hne => by
    rw [hasServerID, hasServerID]
    dsimp only
    rw [replaceAt_of_ne hne]) hp

/-- A client that exists is added behind the others. -/
theorem Transparent.pushClient (h : Transparent s) (hp : (s.clients p).isSome = true) :
    Transparent { s with mClientList := s.mClientList ++ [p] } where
  exist := by
    refine allExist_iff.mpr ⟨fun q hq => ?_, fun q hq => h.server_exists hq⟩
    rcases List.mem_append.mp hq with hold | hnew
    · exact h.client_exists hold
    · exact List.mem_singleton.mp hnew ▸ hp
  clients := h.clients.push p
  servers := h.servers

/-- A server that exists is added behind the others. -/
theorem Transparent.pushServer (h : Transparent s) (hp : (s.servers p).isSome = true) :
    Transparent { s with mServerList := s.mServerList ++ [p] } where
  exist := by
    refine allExist_iff.mpr ⟨fun q hq => h.client_exists hq, fun q hq => ?_⟩
    rcases List.mem_append.mp hq with hold | hnew
    · exact h.server_exists hold
    · exact List.mem_singleton.mp hnew ▸ hp
  clients := h.clients
  servers := h.servers.push p

/-- A client leaves the cache. -/
theorem Transparent.evictClient (h : Transparent s) (p : Nat) :
    Transparent { s with mClientCache := removeFromCache p s.mClientCache } where
  exist := h.exist
  clients := h.clients.evict List.eraseP_sublist
  servers := h.servers

/-- A client leaves the list and the cache together. -/
theorem Transparent.dropClient (h : Transparent s) (p : Nat) :
    Transparent { s with
      mClientList := Sequence.removeShift p s.mClientList
      mClientCache := removeFromCache p s.mClientCache } where
  exist := allExist_iff.mpr
    ⟨fun _ hq => h.client_exists (Sequence.mem_of_mem_removeShift hq),
      fun _ hq => h.server_exists hq⟩
  clients := by
    refine (h.clients.evict List.eraseP_sublist).remove
      (h.clients.none_left fun id id' hid hid' => ?_)
    rw [hasClientID] at hid hid'
    obtain ⟨c, hc, heq⟩ := Option.any_eq_true _ _ |>.mp hid
    rw [hc, Option.any_some] at hid'
    exact (beq_iff_eq.mp heq).symm.trans (beq_iff_eq.mp hid')
  servers := h.servers

/-- A server leaves the list and the cache, if it was cached once at most. -/
theorem Transparent.dropServer (h : Transparent s)
    (hnone : ∀ e ∈ removeFromCache p s.mServerCache, e.2 ≠ p) :
    Transparent { s with
      mServerList := Sequence.removeShift p s.mServerList
      mServerCache := removeFromCache p s.mServerCache } where
  exist := allExist_iff.mpr
    ⟨fun _ hq => h.client_exists hq,
      fun _ hq => h.server_exists (Sequence.mem_of_mem_removeShift hq)⟩
  clients := h.clients
  servers := (h.servers.evict List.eraseP_sublist).remove hnone

/-! ### Lookups -/

/-- Where the listed objects exist, the search finds the first that passes the test. -/
theorem findIf_eq {α : Type} {objects : Nat → Option α} (test : α → Bool) {l : List Nat}
    (h : ∀ p ∈ l, (objects p).isSome = true) :
    findIf objects test l =
      .ok ((l.find? fun p => (objects p).any test).bind fun p => (objects p).map (p, ·)) := by
  induction l with
  | nil => rfl
  | cons p ps ih =>
      obtain ⟨a, ha⟩ := Option.isSome_iff_exists.mp (h p List.mem_cons_self)
      rw [findIf, ha]
      dsimp only
      cases htest : test a with
      | true =>
          rw [if_pos rfl, List.find?_cons_of_pos (by rw [ha]; exact htest), Option.bind_some, ha]
          rfl
      | false =>
          rw [if_neg Bool.false_ne_true, ih (fun q hq => h q (List.mem_cons_of_mem _ hq)),
            List.find?_cons_of_neg (by rw [ha, Option.any_some, htest]; exact Bool.false_ne_true)]

/-- A client has one ID. -/
theorem hasID_client (id : SPartyID) (c : Client) : c.hasID id = (c.mClientID == id) := by
  rw [Client.hasID, Bool.eq_iff_iff, beq_iff_eq, beq_iff_eq]
  exact ⟨SPartyID.globalID_inj, congrArg _⟩

/-- `findClient` finds the listed client with the ID, and caches it. -/
theorem Transparent.findClient (h : Transparent s) (id : SPartyID) :
    ∃ s', s.findClient id = .ok (s.clientOf id, s') ∧ Transparent s' := by
  rw [Private.findClient]
  cases hlookup : s.mClientCache.lookup id with
  | some p =>
      have hfound : s.clientOf id = some p := h.clients.lookup hlookup
      exact ⟨s, by rw [hfound], h⟩
  | none =>
      have htest : (fun p => (s.clients p).any (·.hasID id)) = s.hasClientID id := by
        funext p
        rw [hasClientID]
        exact congrArg (fun t => Option.any t (s.clients p)) (funext fun c => hasID_client id c)
      dsimp only
      rw [findIf_eq _ (fun _ => h.client_exists), htest, ← clientOf]
      cases hfound : s.clientOf id with
      | none => exact ⟨s, rfl, h⟩
      | some p =>
          have hhas := List.find?_some hfound
          rw [hasClientID] at hhas
          obtain ⟨c, hc, hid⟩ := Option.any_eq_true _ _ |>.mp hhas
          rw [Option.bind_some, hc]
          refine ⟨_, rfl, h.exist, ?_, h.servers⟩
          rw [beq_iff_eq.mp hid]
          exact h.clients.assign hfound

/-- `findServer` finds what the cache has for the ID, or the first listed server that
`FindByPartyID` matches. -/
def foundServer (s : Private) (id : SPartyID) : Option Nat :=
  (s.mServerCache.lookup id).or (s.mServerList.find? (s.matchesServerID id))

/-- The search for a server gives the cached one, or the first that agrees in a local half, and
caches it. -/
theorem Transparent.findServer_eq (me : Nat) (h : Transparent s) (id : SPartyID) :
    ∃ s', s.findServer id = .ok (s.foundServer id, s') ∧
      (keepsCaches me s (.findServer id) → Transparent s') := by
  rw [Private.findServer, foundServer, keepsCaches]
  cases hlookup : s.mServerCache.lookup id with
  | some p => exact ⟨s, rfl, fun _ => h⟩
  | none =>
      dsimp only
      rw [findIf_eq _ (fun _ => h.server_exists), Option.none_or]
      change ∃ s', Except.map _ (.ok ((s.mServerList.find? (s.matchesServerID id)).bind _)) = _ ∧ _
      cases hfound : s.mServerList.find? (s.matchesServerID id) with
      | none => exact ⟨s, rfl, fun _ => h⟩
      | some p =>
          obtain ⟨x, hx⟩ := Option.isSome_iff_exists.mp
            (h.server_exists (List.mem_of_find?_eq_some hfound))
          rw [Option.bind_some, hx]
          refine ⟨_, rfl, fun hfirst => ⟨h.exist, h.clients, ?_⟩⟩
          exact h.servers.assign (hfirst rfl p rfl x hx)

/-! ### Steps -/

/-- A client that is removed leaves list and cache right. -/
theorem Transparent.removeClientFrom (h : Transparent s) {engine p : Nat}
    (hkeeps : keepsCaches me s (.removeClient engine p)) :
    Transparent (s.removeClientFrom me engine p) := by
  rw [Private.removeClientFrom]
  cases hc : s.clients p with
  | none => exact h
  | some c =>
      dsimp only
      by_cases hengine : c.mCommEngine = some engine
      · rw [if_pos hengine]
        refine Transparent.setClientEngine ?_ p none
        by_cases heq : engine = me
        · have hhas : s.hasClient me p = true := by
            rw [hasClient_of_engine hc, hengine, heq, beq_self_eq_true]
          rw [if_pos heq, Private.removeClient]
          dsimp only
          by_cases hactive : s.mActive = true
          · rw [if_pos hactive]
            exact (h.dropClient p).setIDs (hkeeps heq hhas hactive)
          · rw [if_neg hactive]
            exact h.dropClient p
        · rw [if_neg heq]
          exact h
      · rw [if_neg hengine]
        exact h

/-- A server that is removed leaves them right if it was cached once at most. -/
theorem Transparent.removeServerFrom (h : Transparent s) {engine p : Nat}
    (hkeeps : keepsCaches me s (.removeServer engine p)) :
    Transparent (s.removeServerFrom me engine p) := by
  rw [Private.removeServerFrom]
  cases hx : s.servers p with
  | none => exact h
  | some x =>
      dsimp only
      by_cases hengine : x.mCommEngine = some engine
      · rw [if_pos hengine]
        refine Transparent.setServerEngine ?_ p none
        by_cases heq : engine = me
        · have hhas : s.hasServer me p = true := by
            rw [hasServer_of_engine hx, hengine, heq, beq_self_eq_true]
          obtain ⟨hnone, hwrites⟩ := hkeeps heq hhas
          rw [if_pos heq, Private.removeServer]
          dsimp only
          by_cases hactive : s.mActive = true
          · rw [if_pos hactive]
            exact (h.dropServer hnone).setIDs (hwrites hactive)
          · rw [if_neg hactive]
            exact h.dropServer hnone
        · rw [if_neg heq]
          exact h
      · rw [if_neg hengine]
        exact h

/-- Writes to a server that is not in the list leave every entry alone. -/
theorem Transparent.keepsAll_of_unlisted (h : Transparent s) (hp : p ∉ s.mServerList) :
    keepsAll s (unregisterInterface p) := by
  have hkeeps (t : Private) (hcache : t.mServerCache = s.mServerCache)
      (hlist : t.mServerList = s.mServerList) (id : SPartyID) :
      t.keepsEntries (.mServerID p id) ∧ t.keepsEntries (.mTCPServerID p id) := by
    have hentry : ∀ e ∈ t.mServerCache, e.2 ≠ p ∧ p ∉ t.mServerList.takeWhile (· != e.2) := by
      rw [hcache, hlist]
      exact fun e he => ⟨fun heq => hp (heq ▸ h.servers.mem_list he),
        fun hbefore => hp (List.takeWhile_subset _ hbefore)⟩
    exact ⟨fun e he => ⟨fun heq => absurd heq (hentry e he).1,
        fun hbefore => absurd hbefore (hentry e he).2⟩,
      fun e he => ⟨fun heq => absurd heq (hentry e he).1,
        fun hbefore => absurd hbefore (hentry e he).2⟩⟩
  exact ⟨(hkeeps s rfl rfl default).1,
    (hkeeps (s.setID (.mServerID p default)) rfl rfl default).2, trivial⟩

/-- A server that is not listed may be destroyed. -/
theorem Transparent.destroyServer (h : Transparent s) (hp : p ∉ s.mServerList) :
    Transparent (s.destroyServer me p) := by
  have hshift := Sequence.removeShift_of_not_mem hp
  have hremoved (engine : Nat) : Transparent (s.removeServerFrom me engine p) ∧
      p ∉ (s.removeServerFrom me engine p).mServerList := by
    have hnone : ∀ e ∈ removeFromCache p s.mServerCache, e.2 ≠ p :=
      fun e he heq => hp (heq ▸ h.servers.mem_list (mem_removeFromCache he))
    have hdropped := h.dropServer hnone
    refine ⟨h.removeServerFrom fun _ _ => ⟨hnone, fun _ => hdropped.keepsAll_of_unlisted ?_⟩, ?_⟩
    · exact hshift.symm ▸ hp
    · rw [Private.removeServerFrom]
      cases hx : s.servers p with
      | none => exact hp
      | some x =>
          dsimp only
          have hlist : (s.removeServer p).mServerList = s.mServerList := by
            rw [Private.removeServer]
            dsimp only
            rw [hshift]
            split
            · rfl
            · rfl
          split
          · change p ∉ (if engine = me then s.removeServer p else s).mServerList
            split
            · rw [hlist]
              exact hp
            · exact hp
          · exact hp
  rw [Private.destroyServer]
  cases hengine : (s.servers p).bind (·.mCommEngine) with
  | none => exact h.replaceServer none hp
  | some engine => exact (hremoved engine).1.replaceServer none (hremoved engine).2

/-- A client that is added has no ID in the cache yet. -/
theorem Transparent.addClientTo (h : Transparent s) (engine p : Nat) :
    Transparent (s.addClientTo me engine p) := by
  rw [Private.addClientTo]
  cases hc : s.clients p with
  | none => exact h
  | some c =>
      have hset := h.setClientEngine p (some engine)
      dsimp only
      split
      · exact h
      · split
        · refine hset.pushClient ?_
          rw [Private.setClientEngine]
          dsimp only
          rw [isSome_modifyAt, hc]
          rfl
        · exact hset

/-- A server that is added gets IDs that spare the cached entries. -/
theorem Transparent.addServerTo (h : Transparent s) {engine p : Nat} {answers : RegisterAnswers}
    (hkeeps : keepsCaches me s (.addServer engine p answers)) :
    Transparent (s.addServerTo me engine p answers) := by
  rw [Private.addServerTo]
  cases hx : s.servers p with
  | none => exact h
  | some x =>
      have hset := h.setServerEngine p (some engine)
      dsimp only
      cases hengine : x.mCommEngine with
      | some _ => exact h
      | none =>
          rw [if_neg (by simp)]
          by_cases heq : engine = me
          · subst heq
            have hexists : ((s.setServerEngine p (some engine)).servers p).isSome = true := by
              rw [Private.setServerEngine]
              dsimp only
              rw [isSome_modifyAt, hx]
              rfl
            have hpushed := hset.pushServer hexists
            rw [if_pos rfl, Private.addServer]
            dsimp only
            have hmActive : (s.setServerEngine p (some engine)).mActive = s.mActive := rfl
            rw [hmActive]
            by_cases hactive : s.mActive = true
            · have hnone : (s.servers p).any (·.mCommEngine.isNone) = true := by
                rw [hx, Option.any_some, hengine]
                rfl
              have hwrites := hkeeps rfl hactive hnone
              have hregister : s.registerInterface p answers =
                  Private.registerInterface
                    { s.setServerEngine p (some engine) with
                      mServerList := s.mServerList ++ [p] } p answers := by
                have hflag := any_modifyAt (p := p)
                  (f := fun x : Server => { x with mCommEngine := some engine })
                  (g := (·.mTCPIPEnabled)) (fun _ => rfl) s.servers p
                rw [registerInterface, registerInterface, ← hflag]
                rfl
              rw [hregister] at hwrites
              rw [if_pos hactive]
              exact hpushed.setIDs hwrites
            · rw [if_neg hactive]
              exact hpushed
          · rw [if_neg heq]
            exact hset

/-- A client that is created was not there, so it is not listed. -/
theorem Transparent.newClient (h : Transparent s) {mId : Nat}
    (hstep : Private.step me s (.newClient p mId) = .ok s') : Transparent s' := by
  cases hstep
  cases hc : s.clients p with
  | some c => exact h
  | none =>
      refine h.replaceClient _ (fun hp => ?_)
      have hexists := h.client_exists hp
      rw [hc] at hexists
      exact Bool.noConfusion hexists

/-- A server that is created was not there, so it is not listed. -/
theorem Transparent.newServer (h : Transparent s) {mTCPIPEnabled : Bool}
    (hstep : Private.step me s (.newServer p mTCPIPEnabled) = .ok s') : Transparent s' := by
  cases hstep
  cases hx : s.servers p with
  | some x => exact h
  | none =>
      refine h.replaceServer _ (fun hp => ?_)
      have hexists := h.server_exists hp
      rw [hx] at hexists
      exact Bool.noConfusion hexists

/-- An engine that starts to run registers its servers. -/
theorem Transparent.run (h : Transparent s) {answers : List RegisterAnswers}
    (hkeeps : keepsCaches me s (.run answers)) (hstep : Private.step me s (.run answers) = .ok s') :
    Transparent s' := by
  rw [Private.step, h.exist] at hstep
  cases hactive : s.mActive with
  | true =>
      rw [hactive] at hstep
      cases hstep
      exact h
  | false =>
      rw [hactive] at hstep
      cases hstep
      have hwritten := h.setIDs (hkeeps hactive)
      exact ⟨hwritten.exist, hwritten.clients, hwritten.servers⟩

/-- An engine that stops unregisters its servers and detaches its clients. -/
theorem Transparent.stop (h : Transparent s) (hkeeps : keepsCaches me s .stop)
    (hstep : Private.step me s .stop = .ok s') : Transparent s' := by
  rw [Private.step, h.exist] at hstep
  cases hactive : s.mActive with
  | false =>
      rw [hactive] at hstep
      cases hstep
      exact h
  | true =>
      rw [hactive] at hstep
      cases hstep
      have hwritten := h.setIDs (hkeeps hactive)
      exact ⟨hwritten.exist, hwritten.clients, hwritten.servers⟩

/-- A pulse that a server is available attaches the client that waits for it. -/
theorem Transparent.serverAvailable (h : Transparent s) {value : Nat} {clientID : Option SPartyID}
    (hkeeps : keepsCaches me s (.serverAvailable value clientID))
    (hstep : Private.step me s (.serverAvailable value clientID) = .ok s') : Transparent s' := by
  rw [Private.step, handleServerAvailable] at hstep
  cases hfound : s.findClientById value with
  | error _ =>
      rw [hfound] at hstep
      cases hstep
  | ok r =>
      rw [hfound] at hstep
      cases r with
      | none =>
          cases hstep
          exact h
      | some e =>
          cases hstep
          exact h.setIDs (hkeeps e hfound)

/-- A pulse that a server is gone takes its client out of the cache and detaches it. -/
theorem Transparent.serverDisconnect (h : Transparent s) {value : Nat}
    (hkeeps : keepsCaches me s (.serverDisconnect value))
    (hstep : Private.step me s (.serverDisconnect value) = .ok s') : Transparent s' := by
  rw [Private.step, handleServerDisconnect] at hstep
  cases hfound : s.findClientById value with
  | error _ =>
      rw [hfound] at hstep
      cases hstep
  | ok r =>
      rw [hfound] at hstep
      cases r with
      | none =>
          cases hstep
          exact h
      | some e =>
          cases hstep
          exact (h.evictClient e.1).setIDs (hkeeps e hfound)

/-- Every step that keeps the caches leaves lists and caches right. -/
theorem Transparent.step (h : Transparent s) {e : Event} (hkeeps : keepsCaches me s e)
    (hstep : Private.step me s e = .ok s') : Transparent s' := by
  cases e with
  | newClient p mId => exact h.newClient hstep
  | newServer p mTCPIPEnabled => exact h.newServer hstep
  | addClient engine p =>
      cases hstep
      exact h.addClientTo engine p
  | addServer engine p answers =>
      cases hstep
      exact h.addServerTo hkeeps
  | removeClient engine p =>
      cases hstep
      exact h.removeClientFrom hkeeps
  | removeServer engine p =>
      cases hstep
      exact h.removeServerFrom hkeeps
  | destroyClient p =>
      cases hstep
      rw [destroyClient_eq]
      exact h.replaceClient none hkeeps
  | destroyServer p =>
      cases hstep
      exact h.destroyServer hkeeps
  | run answers => exact h.run hkeeps hstep
  | stop => exact h.stop hkeeps hstep
  | serverAvailable value clientID => exact h.serverAvailable hkeeps hstep
  | serverDisconnect value => exact h.serverDisconnect hkeeps hstep
  | connected p clientID =>
      cases hstep
      exact h.setID hkeeps
  | detachInterface p =>
      cases hstep
      exact h.setIDs hkeeps
  | findClient id =>
      obtain ⟨t, ht, htransparent⟩ := h.findClient id
      rw [Private.step, ht] at hstep
      cases hstep
      exact htransparent
  | findServer id =>
      obtain ⟨t, ht, htransparent⟩ := h.findServer_eq me id
      rw [Private.step, ht] at hstep
      cases hstep
      exact htransparent hkeeps

/-- At the beginning nothing is listed and nothing cached. -/
theorem transparent_init : Transparent {} where
  exist := rfl
  clients := ⟨List.Pairwise.nil, nofun⟩
  servers := ⟨List.Pairwise.nil, nofun⟩

/-! ## Runs -/

/-- Who has an ID agrees with it in a local half. -/
theorem matchesServerID_of_has {id : SPartyID} (h : s.hasServerID id p = true) :
    s.matchesServerID id p = true := by
  rw [hasServerID] at h
  obtain ⟨x, hx, hid⟩ := Option.any_eq_true _ _ |>.mp h
  rw [matchesServerID, hx, Option.any_some, Server.hasID, Bool.or_eq_true]
  rw [Bool.or_eq_true, beq_iff_eq, beq_iff_eq] at hid
  refine hid.imp (fun heq => ?_) (fun heq => ?_)
  · rw [heq, SPartyID.opEq, beq_self_eq_true]
  · rw [heq, SPartyID.opEq, beq_self_eq_true]

/-- A lookup is not misled: the cache has the ID, or the first listed server that agrees
with it in a local half agrees with it in all 64 bits. -/
def Unambiguous (s : Private) (id : SPartyID) : Prop :=
  (s.mServerCache.lookup id).isSome = true ∨
    ∀ p ∈ s.mServerList.find? (s.matchesServerID id), s.hasServerID id p = true

/-- The search gives the first server with the ID if and only if it is not misled. -/
theorem Transparent.foundServer_iff (h : Transparent s) (id : SPartyID) :
    s.foundServer id = s.serverOf id ↔ s.Unambiguous id := by
  rw [foundServer, Unambiguous]
  cases hlookup : s.mServerCache.lookup id with
  | some p => exact iff_of_true (h.servers.lookup hlookup).symm (.inl rfl)
  | none =>
      rw [Option.none_or, serverOf]
      constructor
      · intro heq
        exact .inr (fun p hp => List.find?_some (heq ▸ hp))
      · intro hor
        have hfirst := hor.resolve_left Bool.false_ne_true
        cases hfound : s.mServerList.find? (s.matchesServerID id) with
        | none =>
            rw [List.find?_eq_none] at hfound
            exact (List.find?_eq_none.mpr
              fun p hp hhas => hfound p hp (matchesServerID_of_has hhas)).symm
        | some p =>
            have hhas := hfirst p (hfound ▸ rfl)
            obtain ⟨-, front, back, hlist, hfront⟩ := List.find?_eq_some_iff_append.mp hfound
            refine (List.find?_eq_some_iff_append.mpr ⟨hhas, front, back, hlist, ?_⟩).symm
            intro a ha
            have hnot := hfront a ha
            rw [Bool.not_eq_true'] at hnot ⊢
            exact Bool.eq_false_iff.mpr fun hyes =>
              Bool.false_ne_true (hnot ▸ matchesServerID_of_has hyes)

/-- Behind a run whose steps leave no wrong entry in a cache, every client is found that
is listed with the ID and no other one, and so is every server as long as the comparison of
local halves does not mislead the lookup. -/
theorem lookups_transparent (me : Nat) {es : List Event}
    (hes : Partial.Along (step me) (keepsCaches me) {} es) {s : Private}
    (hrun : Partial.run (step me) {} es = .ok s) (id : SPartyID) :
    (∃ s', s.findClient id = .ok (s.clientOf id, s')) ∧
      ((∃ s', s.findServer id = .ok (s.serverOf id, s')) ↔ s.Unambiguous id) := by
  have h : Transparent s :=
    Partial.invariant (I := Transparent) (fun _ _ _ ht hkeeps hstep => ht.step hkeeps hstep)
      transparent_init hes hrun
  obtain ⟨t, ht, -⟩ := h.findClient id
  obtain ⟨t', ht', -⟩ := h.findServer_eq me id
  refine ⟨⟨t, ht⟩, ?_⟩
  rw [← h.foundServer_iff id, ht']
  constructor
  · rintro ⟨u, hu⟩
    exact congrArg Prod.fst (Except.ok.inj hu)
  · exact fun heq => ⟨t', by rw [heq]⟩

/-- A server that registers and is looked up. -/
theorem lookups_transparent_registered :
    ∃ s, Partial.run (step 0) {}
        [.newServer 0 true, .addServer 0 0 {}, .run [{ registerInterface := some ⟨7, 0⟩ }],
          .findServer ⟨7, 0⟩] = .ok s ∧
      (∃ s', s.findClient ⟨7, 0⟩ = .ok (s.clientOf ⟨7, 0⟩, s')) ∧
        ((∃ s', s.findServer ⟨7, 0⟩ = .ok (s.serverOf ⟨7, 0⟩, s')) ↔ s.Unambiguous ⟨7, 0⟩) := by
  have hes : Partial.Along (step 0) (keepsCaches 0) {}
      [.newServer 0 true, .addServer 0 0 {}, .run [{ registerInterface := some ⟨7, 0⟩ }],
        .findServer ⟨7, 0⟩] := by
    refine ⟨trivial, nofun, fun _ => ⟨nofun, trivial⟩, fun _ p hp x hx => ?_, trivial⟩
    cases hp
    cases hx
    rfl
  exact ⟨_, rfl, lookups_transparent 0 hes rfl ⟨7, 0⟩⟩

/-- A client that loses its channel: its old ID still finds it. -/
theorem not_lookups_transparent_detached :
    ¬ ∀ (me : Nat) (es : List Event) (s : Private), Partial.run (step me) {} es = .ok s →
      ∀ id, (∃ s', s.findClient id = .ok (s.clientOf id, s')) ∧
        ∃ s', s.findServer id = .ok (s.serverOf id, s') := by
  intro h
  obtain ⟨s', hfound⟩ := (h 0
    [.newClient 0 1, .addClient 0 0, .run [], .serverAvailable 1 (some ⟨5, 0⟩),
      .findClient ⟨5, 0⟩, .detachInterface 0] _ rfl ⟨5, 0⟩).1
  have hsome : (some 0 : Option Nat) = none := congrArg Prod.fst (Except.ok.inj hfound)
  cases hsome

end Private

end CCommEngine

end Dsi
