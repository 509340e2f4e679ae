import Dsi.Engine.Parties
import Dsi.Stream.Overlay

/-!
# Dsi.Engine.Membership

What the lists of an engine hold against what was added to it.  `std::remove` leaves a
vector as long as it was, and a client that is destroyed has forgotten its engine before
it is to be removed there, so that the lists are right exactly as long as nothing that
was added is removed or destroyed.
-/

namespace Dsi

namespace CCommEngine

open Private

/-! ## Lists and caches -/

/-- A list holds exactly the parties in `has`, each once, and a cache none but them. -/
structure Holds (list : List Nat) (cache : List (SPartyID × Nat)) (has : Nat → Bool) : Prop where
  count : ∀ p, list.count p = if has p then 1 else 0
  cached : ∀ e ∈ cache, has e.2 = true

namespace Holds

variable {list : List Nat} {cache cache' : List (SPartyID × Nat)} {has has' : Nat → Bool} {p : Nat}

/-- The list has exactly the parties of the engine. -/
theorem mem_iff (h : Holds list cache has) : p ∈ list ↔ has p = true := by
  rw [← List.count_pos_iff, h.count p]
  cases has p <;> decide

/-- The cache may lose entries and gain listed parties. -/
theorem of_subset (h : Holds list cache has) (hcache : ∀ e ∈ cache', e ∈ cache ∨ e.2 ∈ list) :
    Holds list cache' has where
  count := h.count
  cached e he := (hcache e he).elim (h.cached e) (fun hlist => h.mem_iff.mp hlist)

/-- What was not there before is added. -/
theorem push (h : Holds list cache has) (hp : has p = false) (hp' : has' p = true)
    (hothers : ∀ q, q ≠ p → has' q = has q) : Holds (list ++ [p]) cache has' where
  count q := by
    rw [List.count_append, List.count_singleton, h.count q]
    by_cases heq : q = p
    · rw [heq, hp, hp', beq_self_eq_true]
      rfl
    · rw [hothers q heq, beq_false_of_ne (Ne.symm heq)]
      rfl
  cached e he := by
    have hold := h.cached e he
    have hne : e.2 ≠ p := by
      intro heq
      rw [heq, hp] at hold
      exact Bool.false_ne_true hold
    rw [hothers e.2 hne, hold]

/-- A party that is not one any more may not be in the list. -/
theorem not_of_gone (h : Holds list cache has) (hp : has p = true) (hp' : has' p = false) :
    ¬ Holds list cache' has' := by
  intro h'
  have hmem := h.mem_iff.mpr hp
  rw [h'.mem_iff, hp'] at hmem
  exact Bool.false_ne_true hmem

/-- `std::remove` takes nothing out of the list. -/
theorem not_of_removeShift (h : Holds list cache has) (hp : has p = true) (hp' : has' p = false)
    (hothers : ∀ q, q ≠ p → has' q = has q) :
    ¬ Holds (Sequence.removeShift p list) cache' has' := by
  intro h'
  have hmem : p ∈ list := h.mem_iff.mpr hp
  have hperm : (Sequence.removeShift p list).Perm (list.erase p) := by
    rw [List.perm_iff_count]
    intro q
    rw [h'.count q]
    by_cases heq : q = p
    · rw [heq, hp', List.count_erase_self, h.count p, hp]
      rfl
    · rw [hothers q heq, List.count_erase_of_ne heq, h.count q]
  have hlength := hperm.length_eq
  have hpos := List.length_pos_of_mem hmem
  rw [Sequence.length_removeShift, List.length_erase_of_mem hmem] at hlength
  omega

end Holds

/-! ## Parties of an engine -/

namespace Private

variable {me p q : Nat} {s : Private}

/-- A client that exists and is in the engine `me`. -/
def hasClient (me : Nat) (s : Private) (p : Nat) : Bool :=
  (s.clients p).any (·.mCommEngine == some me)

/-- A server that exists and is in the engine `me`. -/
def hasServer (me : Nat) (s : Private) (p : Nat) : Bool :=
  (s.servers p).any (·.mCommEngine == some me)

/-- The lists hold exactly the parties that are in the engine, each once, and the caches
refer to no others. -/
structure Members (me : Nat) (s : Private) : Prop where
  clients : Holds s.mClientList s.mClientCache (s.hasClient me)
  servers : Holds s.mServerList s.mServerCache (s.hasServer me)

/-- Every step comes to an end with lists and caches of members. -/
def KeepsMembers (me : Nat) (s : Private) (e : Event) : Prop :=
  ∃ s', step me s e = .ok s' ∧ Members me s'

/-- The step removes or destroys no party of the engine. -/
def keepsParties (me : Nat) (s : Private) : Event → Bool
  | .removeClient engine p => engine != me || !s.hasClient me p
  | .removeServer engine p => engine != me || !s.hasServer me p
  | .destroyClient p => !s.hasClient me p
  | .destroyServer p => !s.hasServer me p
  | _ => true

/-! ### What a write changes -/

/-- A test that a change does not reach passes as before. -/
theorem any_modifyAt {α : Type} {f : α → α} {g : α → Bool} (hg : ∀ a, g (f a) = g a)
    (objects : Nat → Option α) (q : Nat) :
    (modifyAt p f objects q).any g = (objects q).any g := by
  rw [modifyAt]
  by_cases heq : q = p
  · rw [if_pos heq, heq]
    cases objects p with
    | none => rfl
    | some a => exact hg a
  · rw [if_neg heq]

/-- A client has the engine that is set, the other ones have theirs. -/
theorem hasClient_setClientEngine (engine : Option Nat) :
    (s.setClientEngine p engine).hasClient me q =
      if q = p then (s.clients p).isSome && engine == some me else s.hasClient me q := by
  rw [hasClient, setClientEngine]
  dsimp only [modifyAt]
  by_cases heq : q = p
  · rw [if_pos heq, if_pos heq]
    cases s.clients p with
    | none => rfl
    | some c => rfl
  · rw [if_neg heq, if_neg heq]
    rfl

/-- A server has the engine that is set, the other ones have theirs. -/
theorem hasServer_setServerEngine (engine : Option Nat) :
    (s.setServerEngine p engine).hasServer me q =
      if q = p then (s.servers p).isSome && engine == some me else s.hasServer me q := by
  rw [hasServer, setServerEngine]
  dsimp only [modifyAt]
  by_cases heq : q = p
  · rw [if_pos heq, if_pos heq]
    cases s.servers p with
    | none => rfl
    | some c => rfl
  · rw [if_neg heq, if_neg heq]
    rfl

/-- A client that exists is the engine's if it points to it. -/
theorem hasClient_of_engine {c : Client} (hc : s.clients p = some c) :
    s.hasClient me p = (c.mCommEngine == some me) := by
  rw [hasClient, hc]
  rfl

/-- A server that exists is the engine's if it points to it. -/
theorem hasServer_of_engine {x : Server} (hx : s.servers p = some x) :
    s.hasServer me p = (x.mCommEngine == some me) := by
  rw [hasServer, hx]
  rfl

/-- Two states with the same lists and caches, and the same parties in `me`. -/
structure SameParties (me : Nat) (s s' : Private) : Prop where
  mClientList : s'.mClientList = s.mClientList
  mServerList : s'.mServerList = s.mServerList
  mClientCache : s'.mClientCache = s.mClientCache
  mServerCache : s'.mServerCache = s.mServerCache
  hasClient : s'.hasClient me = s.hasClient me
  hasServer : s'.hasServer me = s.hasServer me

theorem SameParties.trans {s' s'' : Private} (h : SameParties me s s')
    (h' : SameParties me s' s'') : SameParties me s s'' where
  mClientList := h'.mClientList.trans h.mClientList
  mServerList := h'.mServerList.trans h.mServerList
  mClientCache := h'.mClientCache.trans h.mClientCache
  mServerCache := h'.mServerCache.trans h.mServerCache
  hasClient := h'.hasClient.trans h.hasClient
  hasServer := h'.hasServer.trans h.hasServer

/-- The lists and the parties are all that counts. -/
theorem Members.of_same {s' : Private} (h : Members me s) (hsame : SameParties me s s') :
    Members me s' where
  clients := by
    rw [hsame.mClientList, hsame.mClientCache, hsame.hasClient]
    exact h.clients
  servers := by
    rw [hsame.mServerList, hsame.mServerCache, hsame.hasServer]
    exact h.servers

theorem SameParties.refl (s : Private) : SameParties me s s := ⟨rfl, rfl, rfl, rfl, rfl, rfl⟩

/-- The ID of a party does not tell where it is. -/
theorem sameParties_setID (w : SetID) : SameParties me s (s.setID w) := by
  cases w with
  | mClientID p id =>
      refine ⟨rfl, rfl, rfl, rfl, funext fun q => ?_, rfl⟩
      exact any_modifyAt (f := fun c : Client => { c with mClientID := id })
        (g := (·.mCommEngine == some me)) (fun _ => rfl) s.clients q
  | mServerID p id =>
      refine ⟨rfl, rfl, rfl, rfl, rfl, funext fun q => ?_⟩
      exact any_modifyAt (f := fun x : Server => { x with mServerID := id })
        (g := (·.mCommEngine == some me)) (fun _ => rfl) s.servers q
  | mTCPServerID p id =>
      refine ⟨rfl, rfl, rfl, rfl, rfl, funext fun q => ?_⟩
      exact any_modifyAt (f := fun x : Server => { x with mTCPServerID := id })
        (g := (·.mCommEngine == some me)) (fun _ => rfl) s.servers q

/-- An ID that is written moves no party. -/
theorem sameParties_setIDs (ws : List SetID) : SameParties me s (s.setIDs ws) := by
  induction ws generalizing s with
  | nil => exact .refl s
  | cons w ws ih => exact (sameParties_setID w).trans ih

/-- A client that exists takes an engine: the parties of `me` are the same if it is
neither in `me` before nor afterwards. -/
theorem sameParties_setClientEngine {engine : Option Nat} (hp : s.hasClient me p = false)
    (hengine : engine ≠ some me) : SameParties me s (s.setClientEngine p engine) := by
  refine ⟨rfl, rfl, rfl, rfl, funext fun q => ?_, rfl⟩
  rw [hasClient_setClientEngine]
  by_cases heq : q = p
  · rw [if_pos heq, heq, hp, beq_false_of_ne hengine, Bool.and_false]
  · rw [if_neg heq]

/-- A server that gets another engine was not listed. -/
theorem sameParties_setServerEngine {engine : Option Nat} (hp : s.hasServer me p = false)
    (hengine : engine ≠ some me) : SameParties me s (s.setServerEngine p engine) := by
  refine ⟨rfl, rfl, rfl, rfl, rfl, funext fun q => ?_⟩
  rw [hasServer_setServerEngine]
  by_cases heq : q = p
  · rw [if_pos heq, heq, hp, beq_false_of_ne hengine, Bool.and_false]
  · rw [if_neg heq]

/-- A client comes or goes that is not in an engine. -/
theorem sameParties_replaceClient {c : Option Client} (hp : s.hasClient me p = false)
    (hc : c.any (·.mCommEngine == some me) = false) :
    SameParties me s { s with clients := replaceAt p c s.clients } := by
  refine ⟨rfl, rfl, rfl, rfl, funext fun q => ?_, rfl⟩
  rw [hasClient]
  dsimp only [replaceAt]
  by_cases heq : q = p
  · rw [if_pos heq, heq, hp, hc]
  · rw [if_neg heq]
    rfl

/-- A server that is created or destroyed without this engine was not listed. -/
theorem sameParties_replaceServer {x : Option Server} (hp : s.hasServer me p = false)
    (hx : x.any (·.mCommEngine == some me) = false) :
    SameParties me s { s with servers := replaceAt p x s.servers } := by
  refine ⟨rfl, rfl, rfl, rfl, rfl, funext fun q => ?_⟩
  rw [hasServer]
  dsimp only [replaceAt]
  by_cases heq : q = p
  · rw [if_pos heq, heq, hp, hx]
  · rw [if_neg heq]
    rfl

/-! ### Adding -/

/-- A client that is added is listed and points to the engine. -/
theorem Members.addClientTo (h : Members me s) (engine p : Nat) :
    Members me (s.addClientTo me engine p) := by
  rw [Private.addClientTo]
  cases hc : s.clients p with
  | none => exact h
  | some c =>
      dsimp only
      cases hengine : c.mCommEngine with
      | some _ => exact h
      | none =>
          have hp : s.hasClient me p = false := by
            rw [hasClient_of_engine hc, hengine]
            rfl
          rw [if_neg (by simp)]
          by_cases heq : engine = me
          · rw [if_pos heq, heq]
            refine ⟨h.clients.push hp ?_ ?_, h.servers⟩
            · change (s.setClientEngine p (some me)).hasClient me p = true
              rw [hasClient_setClientEngine, if_pos rfl, hc]
              simp
            · intro q hne
              change (s.setClientEngine p (some me)).hasClient me q = _
              rw [hasClient_setClientEngine, if_neg hne]
          · rw [if_neg heq]
            exact h.of_same (sameParties_setClientEngine hp (fun h => heq (Option.some.inj h)))

/-- A server that is added is listed and points to the engine, whatever the broker answers. -/
theorem Members.addServerTo (h : Members me s) (engine p : Nat) (answers : RegisterAnswers) :
    Members me (s.addServerTo me engine p answers) := by
  rw [Private.addServerTo]
  cases hx : s.servers p with
  | none => exact h
  | some x =>
      dsimp only
      cases hengine : x.mCommEngine with
      | some _ => exact h
      | none =>
          have hp : s.hasServer me p = false := by
            rw [hasServer_of_engine hx, hengine]
            rfl
          rw [if_neg (by simp)]
          by_cases heq : engine = me
          · rw [if_pos heq, heq]
            have hpushed : Members me { s.setServerEngine p (some me) with
                mServerList := s.mServerList ++ [p] } := by
              refine ⟨h.clients, h.servers.push hp ?_ ?_⟩
              · change (s.setServerEngine p (some me)).hasServer me p = true
                rw [hasServer_setServerEngine, if_pos rfl, hx]
                simp
              · intro q hne
                change (s.setServerEngine p (some me)).hasServer me q = _
                rw [hasServer_setServerEngine, if_neg hne]
            rw [Private.addServer]
            dsimp only
            split
            · exact hpushed.of_same (sameParties_setIDs _)
            · exact hpushed
          · rw [if_neg heq]
            exact h.of_same (sameParties_setServerEngine hp (fun h => heq (Option.some.inj h)))

/-! ### Removing -/

/-- A client of another engine is not removed. -/
theorem Members.removeClientFrom (h : Members me s) {engine p : Nat}
    (hp : engine ≠ me ∨ s.hasClient me p = false) :
      Members me (s.removeClientFrom me engine p) := by
  rw [Private.removeClientFrom]
  cases hc : s.clients p with
  | none => exact h
  | some c =>
      dsimp only
      by_cases hengine : c.mCommEngine = some engine
      · have hother : engine ≠ me := by
          refine hp.elim id (fun hnot heq => ?_)
          rw [hasClient_of_engine hc, hengine, heq, beq_self_eq_true] at hnot
          exact Bool.noConfusion hnot
        have hnot : s.hasClient me p = false := by
          rw [hasClient_of_engine hc, hengine]
          exact beq_false_of_ne (fun heq => hother (Option.some.inj heq))
        rw [if_pos hengine, if_neg hother]
        exact h.of_same (sameParties_setClientEngine hnot nofun)
      · rw [if_neg hengine]
        exact h

/-- A server of another engine is not removed. -/
theorem Members.removeServerFrom (h : Members me s) (engine : Nat) {p : Nat}
    (hp : engine ≠ me ∨ s.hasServer me p = false) :
      Members me (s.removeServerFrom me engine p) := by
  rw [Private.removeServerFrom]
  cases hx : s.servers p with
  | none => exact h
  | some x =>
      dsimp only
      by_cases hengine : x.mCommEngine = some engine
      · have hother : engine ≠ me := by
          refine hp.elim id (fun hnot heq => ?_)
          rw [hasServer_of_engine hx, hengine, heq, beq_self_eq_true] at hnot
          exact Bool.noConfusion hnot
        have hnot : s.hasServer me p = false := by
          rw [hasServer_of_engine hx, hengine]
          exact beq_false_of_ne (fun heq => hother (Option.some.inj heq))
        rw [if_pos hengine, if_neg hother]
        exact h.of_same (sameParties_setServerEngine hnot nofun)
      · rw [if_neg hengine]
        exact h

/-- The list of the clients and the members behind a removal from the engine itself. -/
theorem removeClientFrom_self (hp : s.hasClient me p = true) :
    (s.removeClientFrom me me p).mClientList = Sequence.removeShift p s.mClientList ∧
      ∀ q, (s.removeClientFrom me me p).hasClient me q = (q != p && s.hasClient me q) := by
  rw [hasClient] at hp
  obtain ⟨c, hc, hengine⟩ := Option.any_eq_true _ _ |>.mp hp
  have hsame : SameParties me
      { s with
        mClientList := Sequence.removeShift p s.mClientList
        mClientCache := removeFromCache p s.mClientCache } (s.removeClient p) := by
    rw [removeClient]
    dsimp only
    split
    · exact sameParties_setIDs _
    · exact .refl _
  rw [removeClientFrom, hc]
  dsimp only
  rw [if_pos (beq_iff_eq.mp hengine), if_pos rfl]
  refine ⟨hsame.mClientList, fun q => ?_⟩
  rw [hasClient_setClientEngine]
  by_cases heq : q = p
  · rw [if_pos heq, heq]
    simp
  · rw [if_neg heq, hsame.hasClient, bne_iff_ne.mpr heq]
    rfl

/-- A server that is removed loses its engine, and the rest of the list moves up. -/
theorem removeServerFrom_self (hp : s.hasServer me p = true) :
    (s.removeServerFrom me me p).mServerList = Sequence.removeShift p s.mServerList ∧
      ∀ q, (s.removeServerFrom me me p).hasServer me q = (q != p && s.hasServer me q) := by
  rw [hasServer] at hp
  obtain ⟨x, hx, hengine⟩ := Option.any_eq_true _ _ |>.mp hp
  have hsame : SameParties me
      { s with
        mServerList := Sequence.removeShift p s.mServerList
        mServerCache := removeFromCache p s.mServerCache } (s.removeServer p) := by
    rw [removeServer]
    dsimp only
    split
    · exact sameParties_setIDs _
    · exact .refl _
  rw [removeServerFrom, hx]
  dsimp only
  rw [if_pos (beq_iff_eq.mp hengine), if_pos rfl]
  refine ⟨hsame.mServerList, fun q => ?_⟩
  rw [hasServer_setServerEngine]
  by_cases heq : q = p
  · rw [if_pos heq, heq]
    simp
  · rw [if_neg heq, hsame.hasServer, bne_iff_ne.mpr heq]
    rfl

/-- `std::remove` leaves the list as long as it was, so its last place is stale. -/
theorem Members.not_removeClientFrom (h : Members me s) (hp : s.hasClient me p = true) :
    ¬ Members me (s.removeClientFrom me me p) := by
  obtain ⟨hlist, hhas⟩ := removeClientFrom_self hp
  intro h'
  have hclients := h'.clients
  rw [hlist] at hclients
  refine h.clients.not_of_removeShift hp ?_ ?_ hclients
  · rw [hhas, bne_self_eq_false]
    rfl
  · intro q hne
    rw [hhas, bne_iff_ne.mpr hne]
    rfl

/-- So does the removal of a server. -/
theorem Members.not_removeServerFrom (h : Members me s) (hp : s.hasServer me p = true) :
    ¬ Members me (s.removeServerFrom me me p) := by
  obtain ⟨hlist, hhas⟩ := removeServerFrom_self hp
  intro h'
  have hservers := h'.servers
  rw [hlist] at hservers
  refine h.servers.not_of_removeShift hp ?_ ?_ hservers
  · rw [hhas, bne_self_eq_false]
    rfl
  · intro q hne
    rw [hhas, bne_iff_ne.mpr hne]
    rfl

/-! ### Destroying -/

/-- `~CClient` finds no engine to be removed from. -/
theorem destroyClient_eq (me p : Nat) (s : Private) :
    s.destroyClient me p = { s with clients := replaceAt p none s.clients } := by
  have hreplace (f : Client → Client) :
      replaceAt p none (modifyAt p f s.clients) = replaceAt p none s.clients := by
    funext q
    rw [replaceAt, replaceAt, modifyAt]
    by_cases heq : q = p
    · rw [if_pos heq, if_pos heq]
    · rw [if_neg heq, if_neg heq, if_neg heq]
  rw [destroyClient]
  cases hengine : (s.clients p).bind (·.mCommEngine) with
  | none => rfl
  | some engine =>
      obtain ⟨c, hc, -⟩ := Option.bind_eq_some_iff.mp hengine
      have hnone : (s.setClientEngine p none).clients p = some { c with mCommEngine := none } := by
        rw [setClientEngine]
        dsimp only [modifyAt]
        rw [if_pos rfl, hc]
        rfl
      dsimp only
      rw [removeClientFrom, hnone]
      dsimp only
      rw [if_neg nofun, setClientEngine, hreplace]

/-- A client may be destroyed if and only if the engine does not have it. -/
theorem Members.destroyClient_iff (h : Members me s) (p : Nat) :
    Members me (s.destroyClient me p) ↔ s.hasClient me p = false := by
  rw [destroyClient_eq]
  constructor
  · intro h'
    cases hp : s.hasClient me p with
    | false => rfl
    | true =>
        refine absurd h'.clients (h.clients.not_of_gone hp ?_)
        rw [hasClient]
        dsimp only [replaceAt]
        rw [if_pos rfl]
        rfl
  · exact fun hp => h.of_same (sameParties_replaceClient hp rfl)

/-- A server that the engine does not have is not had behind a removal. -/
theorem hasServer_removeServerFrom (engine : Nat) (hp : s.hasServer me p = false) :
    (s.removeServerFrom me engine p).hasServer me p = false := by
  rw [removeServerFrom]
  cases hx : s.servers p with
  | none => exact hp
  | some x =>
      dsimp only
      split
      · rw [hasServer_setServerEngine, if_pos rfl]
        simp
      · exact hp

/-- A server may be destroyed if and only if the engine does not have it. -/
theorem Members.destroyServer_iff (h : Members me s) (p : Nat) :
    Members me (s.destroyServer me p) ↔ s.hasServer me p = false := by
  rw [destroyServer]
  constructor
  · intro h'
    cases hp : s.hasServer me p with
    | false => rfl
    | true =>
        have hparty := hp
        rw [hasServer] at hparty
        obtain ⟨x, hx, hengine⟩ := Option.any_eq_true _ _ |>.mp hparty
        have hbind : (s.servers p).bind (·.mCommEngine) = some me := by
          rw [hx]
          exact beq_iff_eq.mp hengine
        rw [hbind] at h'
        obtain ⟨hlist, hhas⟩ := removeServerFrom_self hp
        have hservers := h'.servers
        dsimp only at hservers
        rw [hlist] at hservers
        refine absurd hservers (h.servers.not_of_removeShift hp ?_ ?_)
        · rw [hasServer]
          dsimp only [replaceAt]
          rw [if_pos rfl]
          rfl
        · intro q hne
          have hq := hhas q
          rw [bne_iff_ne.mpr hne, Bool.true_and] at hq
          rw [← hq, hasServer, hasServer]
          dsimp only [replaceAt]
          rw [if_neg hne]
  · intro hp
    cases hengine : (s.servers p).bind (·.mCommEngine) with
    | none => exact h.of_same (sameParties_replaceServer hp rfl)
    | some engine =>
        have hremoved := h.removeServerFrom engine (.inr hp)
        exact hremoved.of_same
          (sameParties_replaceServer (hasServer_removeServerFrom engine hp) rfl)

/-! ### Looking up -/

/-- Where the listed objects exist, the search reads no destroyed one. -/
theorem findIf_isOk {α : Type} {objects : Nat → Option α} (test : α → Bool) {l : List Nat}
    (h : ∀ p ∈ l, (objects p).isSome) :
    ∃ r, findIf objects test l = .ok r ∧ ∀ e, r = some e → e.1 ∈ l := by
  induction l with
  | nil => exact ⟨none, rfl, nofun⟩
  | cons p ps ih =>
      obtain ⟨a, ha⟩ := Option.isSome_iff_exists.mp (h p List.mem_cons_self)
      rw [findIf, ha]
      dsimp only
      split
      · refine ⟨some (p, a), rfl, fun e he => ?_⟩
        cases he
        exact List.mem_cons_self
      · obtain ⟨r, hr, hmem⟩ := ih (fun q hq => h q (List.mem_cons_of_mem _ hq))
        exact ⟨r, hr, fun e he => List.mem_cons_of_mem _ (hmem e he)⟩

/-- A listed client exists. -/
theorem Members.client_exists (h : Members me s) (hp : p ∈ s.mClientList) :
    (s.clients p).isSome := by
  have hhas := h.clients.mem_iff.mp hp
  rw [hasClient] at hhas
  obtain ⟨c, hc, -⟩ := Option.any_eq_true _ _ |>.mp hhas
  rw [hc]
  rfl

/-- A listed server exists. -/
theorem Members.server_exists (h : Members me s) (hp : p ∈ s.mServerList) :
    (s.servers p).isSome := by
  have hhas := h.servers.mem_iff.mp hp
  rw [hasServer] at hhas
  obtain ⟨x, hx, -⟩ := Option.any_eq_true _ _ |>.mp hhas
  rw [hx]
  rfl

/-- So all listed parties do. -/
theorem Members.allExist (h : Members me s) : s.allExist = true := by
  rw [Private.allExist, Bool.and_eq_true, List.all_eq_true, List.all_eq_true]
  exact ⟨fun _ hp => h.client_exists hp, fun _ hp => h.server_exists hp⟩

/-- A removal from the cache brings nothing. -/
theorem mem_removeFromCache {cache : List (SPartyID × Nat)} {e : SPartyID × Nat}
    (h : e ∈ removeFromCache p cache) : e ∈ cache :=
  List.mem_of_mem_eraseP h

/-- The search for a client caches a listed one. -/
theorem Members.findClient (h : Members me s) (id : SPartyID) :
    ∃ r, s.findClient id = .ok r ∧ Members me r.2 := by
  rw [Private.findClient]
  cases s.mClientCache.lookup id with
  | some p => exact ⟨_, rfl, h⟩
  | none =>
      obtain ⟨r, hr, hmem⟩ := findIf_isOk (·.hasID id) (fun _ => h.client_exists)
      dsimp only
      rw [hr]
      cases r with
      | none => exact ⟨_, rfl, h⟩
      | some e =>
          refine ⟨_, rfl, h.clients.of_subset fun e' he' => ?_, h.servers⟩
          cases mem_of_mem_mapAssign he' with
          | inl hold => exact .inl hold
          | inr heq => exact .inr (heq ▸ hmem e rfl)

/-- The search for a server caches a listed one. -/
theorem Members.findServer (h : Members me s) (id : SPartyID) :
    ∃ r, s.findServer id = .ok r ∧ Members me r.2 := by
  rw [Private.findServer]
  cases s.mServerCache.lookup id with
  | some p => exact ⟨_, rfl, h⟩
  | none =>
      obtain ⟨r, hr, hmem⟩ := findIf_isOk (·.hasID id) (fun _ => h.server_exists)
      dsimp only
      rw [hr]
      cases r with
      | none => exact ⟨_, rfl, h⟩
      | some e =>
          refine ⟨_, rfl, h.clients, h.servers.of_subset fun e' he' => ?_⟩
          cases mem_of_mem_mapAssign he' with
          | inl hold => exact .inl hold
          | inr heq => exact .inr (heq ▸ hmem e rfl)

/-- A server that is available is passed to a listed client. -/
theorem Members.handleServerAvailable (h : Members me s) (value : Nat)
    (clientID : Option SPartyID) :
    ∃ s', s.handleServerAvailable value clientID = .ok s' ∧ Members me s' := by
  obtain ⟨r, hr, -⟩ := findIf_isOk (fun c : Client => c.mId == value)
    (fun _ => h.client_exists)
  rw [Private.handleServerAvailable, findClientById, hr]
  cases r with
  | none => exact ⟨_, rfl, h⟩
  | some e => exact ⟨_, rfl, h.of_same (sameParties_setIDs _)⟩

/-- A server that goes is passed to a listed client. -/
theorem Members.handleServerDisconnect (h : Members me s) (value : Nat) :
    ∃ s', s.handleServerDisconnect value = .ok s' ∧ Members me s' := by
  obtain ⟨r, hr, -⟩ := findIf_isOk (fun c : Client => c.mId == value)
    (fun _ => h.client_exists)
  rw [Private.handleServerDisconnect, findClientById, hr]
  cases r with
  | none => exact ⟨_, rfl, h⟩
  | some e =>
      have herased : Members me { s with mClientCache := removeFromCache e.1 s.mClientCache } :=
        ⟨h.clients.of_subset fun _ he => .inl (mem_removeFromCache he), h.servers⟩
      exact ⟨_, rfl, herased.of_same (sameParties_setIDs _)⟩

/-! ### Steps and runs -/

theorem Members.of_active (h : Members me s) (active : Bool) :
    Members me { s with mActive := active } := ⟨h.clients, h.servers⟩

/-- A step that returns keeps the members if its result has them. -/
theorem keepsMembers_of_eq {s' : Private} {e : Event} (hstep : step me s e = .ok s') :
    KeepsMembers me s e ↔ Members me s' := by
  rw [KeepsMembers, hstep]
  constructor
  · rintro ⟨t, hok, ht⟩
    cases hok
    exact ht
  · exact fun h => ⟨s', rfl, h⟩

/-- A step keeps the members if and only if it meets the condition. -/
theorem Members.keeps_step_iff (h : Members me s) (e : Event) :
    KeepsMembers me s e ↔ keepsParties me s e = true := by
  cases e with
  | newClient p mId =>
      rw [keepsMembers_of_eq rfl]
      refine iff_of_true ?_ rfl
      cases hc : s.clients p with
      | some c => exact h
      | none =>
          refine h.of_same (sameParties_replaceClient ?_ rfl)
          rw [hasClient, hc]
          rfl
  | newServer p mTCPIPEnabled =>
      rw [keepsMembers_of_eq rfl]
      refine iff_of_true ?_ rfl
      cases hx : s.servers p with
      | some x => exact h
      | none =>
          refine h.of_same (sameParties_replaceServer ?_ rfl)
          rw [hasServer, hx]
          rfl
  | addClient engine p => exact iff_of_true ⟨_, rfl, h.addClientTo engine p⟩ rfl
  | addServer engine p answers => exact iff_of_true ⟨_, rfl, h.addServerTo engine p answers⟩ rfl
  | removeClient engine p =>
      rw [keepsMembers_of_eq rfl, keepsParties, Bool.or_eq_true, bne_iff_ne, Bool.not_eq_true']
      constructor
      · intro h'
        by_cases hengine : engine = me
        · subst hengine
          refine .inr (Bool.eq_false_iff.mpr fun hp => ?_)
          exact h.not_removeClientFrom hp h'
        · exact .inl hengine
      · exact fun hp => h.removeClientFrom hp
  | removeServer engine p =>
      rw [keepsMembers_of_eq rfl, keepsParties, Bool.or_eq_true, bne_iff_ne, Bool.not_eq_true']
      constructor
      · intro h'
        by_cases hengine : engine = me
        · subst hengine
          refine .inr (Bool.eq_false_iff.mpr fun hp => ?_)
          exact h.not_removeServerFrom hp h'
        · exact .inl hengine
      · exact fun hp => h.removeServerFrom engine hp
  | destroyClient p =>
      rw [keepsMembers_of_eq rfl, keepsParties, Bool.not_eq_true']
      exact h.destroyClient_iff p
  | destroyServer p =>
      rw [keepsMembers_of_eq rfl, keepsParties, Bool.not_eq_true']
      exact h.destroyServer_iff p
  | run answers =>
      refine iff_of_true ?_ rfl
      rw [KeepsMembers, step, h.allExist]
      cases s.mActive with
      | true => exact ⟨_, rfl, h⟩
      | false => exact ⟨_, rfl, (h.of_same (sameParties_setIDs _)).of_active true⟩
  | stop =>
      refine iff_of_true ?_ rfl
      rw [KeepsMembers, step, h.allExist]
      cases s.mActive with
      | false => exact ⟨_, rfl, h⟩
      | true => exact ⟨_, rfl, (h.of_same (sameParties_setIDs _)).of_active false⟩
  | serverAvailable value clientID =>
      exact iff_of_true (h.handleServerAvailable value clientID) rfl
  | serverDisconnect value => exact iff_of_true (h.handleServerDisconnect value) rfl
  | connected p clientID =>
      exact iff_of_true ⟨_, rfl, h.of_same (sameParties_setID _)⟩ rfl
  | detachInterface p => exact iff_of_true ⟨_, rfl, h.of_same (sameParties_setIDs _)⟩ rfl
  | findClient id =>
      obtain ⟨r, hr, hmembers⟩ := h.findClient id
      refine iff_of_true ⟨r.2, ?_, hmembers⟩ rfl
      rw [step, hr]
      rfl
  | findServer id =>
      obtain ⟨r, hr, hmembers⟩ := h.findServer id
      refine iff_of_true ⟨r.2, ?_, hmembers⟩ rfl
      rw [step, hr]
      rfl

/-- At the beginning there is nobody. -/
theorem members_init (me : Nat) : Members me {} where
  clients := ⟨fun _ => rfl, nofun⟩
  servers := ⟨fun _ => rfl, nofun⟩

/-- The lists hold exactly the parties that are in the engine, each once, and the caches
none but them, behind every step of a run exactly if no step removes or destroys one. -/
theorem membership_iff (me : Nat) (es : List Event) :
    Partial.Along (step me) (KeepsMembers me) {} es ↔
      Partial.Along (step me) (fun s e => keepsParties me s e = true) {} es :=
  Partial.along_iff (fun _ e (hs : Members me _) => hs.keeps_step_iff e)
    (fun _ e _ hs hkeeps hstep =>
      (keepsMembers_of_eq hstep).mp ((hs.keeps_step_iff e).mpr hkeeps)) (members_init me) es

/-- A client that is added and removed is still in the list. -/
theorem not_membership_removed :
    ¬ Partial.Along (step 0) (KeepsMembers 0) {}
      [.newClient 0 1, .addClient 0 0, .removeClient 0 0] := by
  intro h
  have hlast := ((h.tail rfl).tail rfl).1
  have hmembers := (keepsMembers_of_eq rfl).mp hlast
  have hcount := hmembers.clients.count 0
  revert hcount
  decide

end Private

end CCommEngine

end Dsi
