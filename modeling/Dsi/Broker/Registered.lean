import Mathlib.Data.List.Perm.Subperm
import Dsi.Broker.Availability
import Dsi.Broker.Clients
import Dsi.Broker.Holdings

/-!
# Dsi.Broker.Registered

The registered slave connections.  As long as no connection that is in `mClients`
sends another `MASTER_PING_ID`, the list has at most one connection for an extended ID,
each once, and only such that exist (`ServicebrokerServer.registered_iff`).  A
connection that announces itself twice is disposed while its announcement is processed.
-/

namespace Dsi

namespace Broker

/-- What is left in the broker of a connection that is disposed. -/
def drop (cfg : Config) (b : Broker) (c : Nat) : Broker :=
  (b.clear cfg c).setConnection c none

/-- The parties of a connection go, the connections stay. -/
theorem conns_clearParties (cfg : Config) (c : Nat) (b : Broker) :
    (b.clearParties cfg c).conns = b.conns := by
  have hserver (b : Broker) (id : SPartyID) : (b.clearServer cfg id).conns = b.conns := by
    unfold clearServer unregisterInterfaceMaster
    split
    · rfl
    · split <;> rfl
  have hclient (b : Broker) (id : SPartyID) : (b.clearClient cfg id).conns = b.conns := by
    unfold clearClient evalMaster
    dsimp only
    split <;> rfl
  have hfold {f : Broker → SPartyID → Broker} (hf : ∀ b id, (f b id).conns = b.conns)
      (ids : List SPartyID) (b : Broker) : (ids.foldl f b).conns = b.conns := by
    induction ids generalizing b with
    | nil => rfl
    | cons id ids ih => exact (ih _).trans (hf b id)
  exact (hfold hclient _ _).trans (hfold hserver _ b)

/-- Of the other connections only notification IDs change when one is disposed. -/
theorem conns_drop {β : Type} {g : Connection → β} (hg : ∀ k, g k.core = g k) (cfg : Config)
    (c : Nat) (b : Broker) (c' : Nat) :
    ((b.drop cfg c).conns c').map g = if c' = c then none else (b.conns c').map g := by
  rw [drop, setConnection]
  dsimp only
  split
  · rfl
  · rw [(clear_frame hg cfg c b c').2.1, conns_clearParties]

/-- The connections that are dropped go, the other ones keep what they announced. -/
theorem conns_foldl_drop {β : Type} {g : Connection → β} (hg : ∀ k, g k.core = g k)
    (cfg : Config) (cs : List Nat) (b : Broker) (c : Nat) :
    ((cs.foldl (drop cfg) b).conns c).map g = if c ∈ cs then none else (b.conns c).map g := by
  induction cs generalizing b with
  | nil => simp
  | cons c' cs ih =>
      rw [List.foldl_cons, ih, conns_drop hg]
      by_cases hc : c = c'
      · simp [hc]
      · simp [hc]

/-- A connection that is dropped gives its number to nobody. -/
theorem nextConnectionId_drop (cfg : Config) (c : Nat) (b : Broker) :
    (b.drop cfg c).nextConnectionId = b.nextConnectionId :=
  (clear_frame (g := fun _ => ()) (fun _ => rfl) cfg c b c).2.2

/-- A new connection takes the next number. -/
theorem conns_openConnection (nodeAddress localAddress : UInt32) (uid : Int32) (b : Broker)
    (c : Nat) : (b.openConnection nodeAddress localAddress uid).conns c =
      if c = b.nextConnectionId then
        some { mNodeAddress := nodeAddress, mLocalAddress := localAddress, mUid := uid }
      else b.conns c := rfl

/-- What `handleMasterPingId` writes. -/
theorem conns_handleMasterPingId (ctx : SocketConnectionContext) (id : UInt32) (b : Broker)
    (c : Nat) : (b.handleMasterPingId ctx id).1.conns c =
      if c = ctx.mId then
        (b.conns c).map fun k =>
          { k with mSlave := true, data := { k.data with mExtendedID := id } }
      else b.conns c := by
  show ((b.modifyData ctx.mId _).setSlave ctx.mId).conns c = _
  unfold setSlave modifyData setConnection
  dsimp only
  split
  · next hc =>
    rw [if_pos rfl, Option.map_map, hc]
    rfl
  · rfl

end Broker

namespace ServicebrokerServer

section Eval

variable {cfg : Config} {s s' : ServicebrokerServer} {c : Nat} {k : Connection}
  {f : RequestFrame}

/-- Nothing breaks off at an announcement. -/
theorem breaksOff_of_isPingId (b : Broker) (hf : f.isPingId = true) :
    b.breaksOff cfg f.request = false := by
  obtain ⟨r, refused⟩ := f
  cases r with
  | getInterfaceList => cases hf
  | matchInterfaceList => cases hf
  | _ => rfl

/-- A connection that waits is not evaluated. -/
theorem eval_of_deferred (hk : s.broker.conns c = some k) (hdeferred : k.deferred = true) :
    s.eval cfg c f = .ok s := by
  rw [eval, hk]
  dsimp only
  rw [hdeferred, Bool.true_or, if_pos rfl]

/-- An announcement goes to the dispatcher first, and then to the list. -/
theorem eval_of_ok (hk : s.broker.conns c = some k) (hdeferred : ¬ k.deferred = true)
    (hf : f.isPingId = true)
    (h : announce cfg c { s with broker := (s.broker.dispatch cfg (k.ctx c) f.request).1 } =
      .ok s') :
    s.eval cfg c f = .ok (s'.respond c (s.broker.dispatch cfg (k.ctx c) f.request).2) := by
  rw [eval, hk]
  dsimp only
  rw [breaksOff_of_isPingId _ hf, Bool.or_false, if_neg hdeferred, if_pos hf, h]

/-- An announcement that breaks off breaks the frame off. -/
theorem eval_of_error (hk : s.broker.conns c = some k) (hdeferred : ¬ k.deferred = true)
    (hf : f.isPingId = true) {e : ServerFault}
    (h : announce cfg c { s with broker := (s.broker.dispatch cfg (k.ctx c) f.request).1 } =
      .error e) : s.eval cfg c f = .error e := by
  rw [eval, hk]
  dsimp only
  rw [breaksOff_of_isPingId _ hf, Bool.or_false, if_neg hdeferred, if_pos hf, h]

end Eval

/-- The timer of a connection is not in the broker. -/
@[simp]
theorem broker_tick (s : ServicebrokerServer) (c : Nat) : (s.tick c).broker = s.broker := by
  unfold tick
  split <;> rfl

/-- Nor is it in the list of the announced ones. -/
@[simp]
theorem mClients_tick (s : ServicebrokerServer) (c : Nat) : (s.tick c).mClients = s.mClients := by
  unfold tick
  split <;> rfl

/-- Nor in what they announced. -/
theorem extendedID?_tick (s : ServicebrokerServer) (c x : Nat) :
    (s.tick c).extendedID? x = s.extendedID? x := by
  rw [extendedID?, broker_tick, extendedID?]

/-- A connection is disposed at the end of its socket if that is armed, and at a time-out
if it is a TCP connection from which nothing was read. -/
def ends (s : ServicebrokerServer) : ServerEvent → Bool
  | .closed c => s.reads c
  | .timeout c => (s.broker.conns c).any (fun k =>
      k.mNodeAddress != SB_LOCAL_NODE_ADDRESS && s.operations c == 0)
  | _ => false

/-! ## The list and the connections -/

/-- The list stands for the connections `l`, the others are not hooked into it, and the
hooks in memory are those of the open connections. -/
structure Lists (s : ServicebrokerServer) (l : List Nat) : Prop where
  represents : Slist.Represents s.mClients l
  hooked : ∀ c, Slist.isHooked s.mClients c = true → c ∈ l
  memory : ∀ c, (s.mClients (.element c)).isSome = (s.broker.conns c).isSome
  fresh : s.broker.NumbersFresh

/-- At the beginning nobody has announced anything. -/
theorem lists_init : Lists init [] where
  represents := Slist.represents_hooks
  hooked _ hc := absurd hc Bool.false_ne_true
  memory _ := rfl
  fresh _ _ := rfl

namespace Lists

variable {cfg : Config} {s : ServicebrokerServer} {l l' : List Nat} {c : Nat}

/-- The connections in the list are open. -/
theorem live (h : Lists s l) (hc : c ∈ l) : (s.broker.conns c).isSome = true := by
  rw [← h.memory]
  exact Slist.isSome_of_isHooked (h.represents.isHooked hc)

/-- A listed connection is one that was opened. -/
theorem lt_next (h : Lists s l) (hc : c ∈ l) : c < s.broker.nextConnectionId := by
  by_contra hge
  have hlive := h.live hc
  rw [h.fresh c (Nat.le_of_not_lt hge)] at hlive
  exact Bool.false_ne_true hlive

/-- A connection that is not listed is not hooked. -/
theorem isHooked_eq_false (h : Lists s l) (hc : c ∉ l) : Slist.isHooked s.mClients c = false :=
  Bool.eq_false_iff.mpr (mt (h.hooked c) hc)

/-- A connection that is not hooked is not listed. -/
theorem not_mem (h : Lists s l) (hc : Slist.isHooked s.mClients c = false) : c ∉ l := by
  intro hmem
  rw [h.represents.isHooked hmem] at hc
  cases hc

/-- There is fuel for the whole list. -/
theorem length_lt (h : Lists s l) : l.length < s.fuel := by
  have hsubset : l ⊆ List.range s.broker.nextConnectionId :=
    fun c hc => List.mem_range.mpr (h.lt_next hc)
  have hle := (List.subperm_of_subset h.represents.nodup hsubset).length_le
  rw [List.length_range] at hle
  exact Nat.lt_succ_of_le hle

/-- The same connections are open, and the list is as it was. -/
theorem of_broker (h : Lists s l) {b : Broker}
    (hconns : ∀ c, (b.conns c).isSome = (s.broker.conns c).isSome)
    (hnext : b.nextConnectionId = s.broker.nextConnectionId) :
    Lists { s with broker := b } l where
  represents := h.represents
  hooked := h.hooked
  memory c := (h.memory c).trans (hconns c).symm
  fresh c hc := by
    have hnone := hconns c
    rw [h.fresh c (hnext ▸ hc)] at hnone
    exact Option.not_isSome_iff_eq_none.mp (by rw [hnone]; decide)

/-- A connection is taken out of the list. -/
theorem remove (h : Lists s l) {hooks : SlistHooks Nat} (hr : Slist.Represents hooks l')
    (hl : ∀ x ∈ l, x ∉ l' → hooks (.element x) = some none)
    (hother : ∀ x, x ∉ l → hooks (.element x) = s.mClients (.element x)) :
    Lists { s with mClients := hooks } l' := by
  have hhooked (x : Nat) : x ∉ l' → Slist.isHooked hooks x = false := by
    intro hx
    by_cases hxl : x ∈ l
    · exact Slist.isHooked_eq_false (by rw [hl x hxl hx]; rfl)
    · rw [Slist.isHooked_congr (hother x hxl)]
      exact Bool.eq_false_iff.mpr (mt (h.hooked x) hxl)
  refine ⟨hr, fun x hx => ?_, fun x => ?_, h.fresh⟩
  · by_contra hnot
    rw [hhooked x hnot] at hx
    cases hx
  · show (hooks (.element x)).isSome = _
    by_cases hxl : x ∈ l
    · rw [h.live hxl]
      by_cases hx : x ∈ l'
      · exact Slist.isSome_of_isHooked (hr.isHooked hx)
      · rw [hl x hxl hx]
        rfl
    · rw [hother x hxl]
      exact h.memory x

/-- A connection is taken out of the list, if it is in it. -/
theorem removeClient (h : Lists s l) (c : Nat) :
    ∃ hooks, s.removeClient c = .ok { s with mClients := hooks } ∧
      Lists { s with mClients := hooks } (l.filter (· ≠ c)) := by
  obtain ⟨hooks, hremove, hr, hgone, hother⟩ :=
    h.represents.removeIf_eq (fun c' => c' = c) h.length_lt
  have hfilter : l.filter (fun x => !decide (x = c)) = l.filter (· ≠ c) :=
    List.filter_congr fun x _ => by simp
  rw [hfilter] at hr
  refine ⟨hooks, by rw [ServicebrokerServer.removeClient, hremove], h.remove hr ?_ hother⟩
  intro x hx hnot
  refine hgone x hx ?_
  by_contra hne
  exact hnot (List.mem_filter.mpr ⟨hx, by simpa using hne⟩)

/-- A connection that is disposed leaves the list. -/
theorem dispose (cfg : Config) (h : Lists s l) (c : Nat) :
    ∃ s', s.dispose cfg c = .ok s' ∧ Lists s' (l.filter (· ≠ c)) ∧
      s'.broker = s.broker.drop cfg c := by
  obtain ⟨hooks, hremove, hlists⟩ := h.removeClient c
  have hc : c ∉ l.filter (· ≠ c) := fun hmem => by simpa using List.of_mem_filter hmem
  set hooks' := Function.update hooks (.element c) none with hhooks'
  have hself : hooks' (.element c) = none := Function.update_self ..
  have hfirst : hooks' .mFirst = hooks .mFirst := Function.update_of_ne (by simp) _ _
  have hne {x : Nat} (hx : x ≠ c) : hooks' (.element x) = hooks (.element x) :=
    Function.update_of_ne (fun hxc => hx (SlistNode.element.inj hxc)) _ _
  have hconns (x : Nat) : ((s.broker.drop cfg c).conns x).isSome =
      if x = c then false else (s.broker.conns x).isSome := by
    have hdrop := Broker.conns_drop (g := fun _ => ()) (fun _ => rfl) cfg c s.broker x
    rw [← Option.isSome_map (f := fun _ => ()), hdrop]
    split
    · rfl
    · rw [Option.isSome_map]
  refine ⟨⟨s.broker.drop cfg c, hooks', s.operations⟩, ?_, ⟨?_, ?_, ?_, ?_⟩, rfl⟩
  · rw [ServicebrokerServer.dispose, hremove]
    rfl
  · exact hlists.represents.congr hfirst fun x hx => hne fun hxc => hc (hxc ▸ hx)
  · intro x hx
    change Slist.isHooked hooks' x = true at hx
    have hxc : x ≠ c := by
      rintro rfl
      rw [Slist.isHooked_eq_false (by rw [hself]; rfl)] at hx
      exact Bool.false_ne_true hx
    rw [Slist.isHooked_congr (hne hxc)] at hx
    exact hlists.hooked x hx
  · intro x
    show (hooks' (.element x)).isSome = ((s.broker.drop cfg c).conns x).isSome
    rw [hconns]
    by_cases hxc : x = c
    · rw [if_pos hxc, hxc, hself]
      rfl
    · rw [if_neg hxc, hne hxc]
      exact hlists.memory x
  · intro x hx
    have hnext : s.broker.nextConnectionId ≤ x :=
      (Broker.nextConnectionId_drop cfg c s.broker) ▸ hx
    have hsome := hconns x
    rw [h.fresh x hnext, Option.isSome_none, ite_self] at hsome
    exact Option.not_isSome_iff_eq_none.mp (by rw [hsome]; decide)

/-- The loop of `remove_if_and_dispose`, with the connections `l'` still before the
iterator: a destructor that takes its connection out of the list again finds it
gone already. -/
theorem removeClientsLoop (cfg : Config) (id : UInt32) {steps : Nat} (h : Lists s (l ++ l'))
    (hsteps : l'.length < steps) :
    ∃ s', ServicebrokerServer.removeClientsLoop cfg id steps (Slist.headNode l') s = .ok s' ∧
      Lists s' (l ++ l'.filter (fun c => s.extendedID? c ≠ some id)) ∧
      s'.broker = (l'.filter (fun c => s.extendedID? c = some id)).foldl (Broker.drop cfg)
        s.broker := by
  induction l' generalizing l s steps with
  | nil =>
      obtain ⟨steps, rfl⟩ : ∃ n, steps = n + 1 := ⟨steps - 1, by omega⟩
      exact ⟨s, rfl, h, rfl⟩
  | cons c l' ih =>
      obtain ⟨steps, rfl⟩ : ∃ n, steps = n + 1 := ⟨steps - 1, by omega⟩
      have hlt : l'.length < steps := Nat.lt_of_succ_lt_succ hsteps
      have hnot : c ∉ l ++ l' :=
        (List.nodup_cons.mp (List.perm_middle.nodup h.represents.nodup)).1
      obtain ⟨k, hk⟩ := Option.isSome_iff_exists.mp
        (h.live (List.mem_append_right l (List.mem_cons_self (a := c) (l := l'))))
      have hext : s.extendedID? c = some k.data.mExtendedID := by
        rw [extendedID?, Broker.data?, hk]
        rfl
      rw [Slist.headNode, ServicebrokerServer.removeClientsLoop, hext]
      dsimp only
      by_cases hid : k.data.mExtendedID = id
      · rw [if_pos hid]
        have hfuel : l.length ≤ s.fuel := by
          have hlen := h.length_lt
          rw [List.length_append] at hlen
          omega
        obtain ⟨hooks, herase, hr, hself, hother⟩ := h.represents.erase_eq hfuel
        have herased : Lists { s with mClients := hooks } (l ++ l') := by
          refine h.remove hr (fun x hx hnotx => ?_) hother
          rcases List.mem_cons.mp (List.perm_middle.mem_iff.mp hx) with rfl | hx
          · exact hself
          · exact absurd hx hnotx
        obtain ⟨s₁, hdispose, hlists, hbroker⟩ := herased.dispose cfg c
        have hsame : (l ++ l').filter (· ≠ c) = l ++ l' := by
          refine List.filter_eq_self.mpr fun x hx => ?_
          simpa using fun hxc : x = c => hnot (hxc ▸ hx)
        rw [hsame] at hlists
        have hids (x : Nat) (hx : x ∈ l') : s₁.extendedID? x = s.extendedID? x := by
          have hxc : x ≠ c := fun hxc => hnot (hxc ▸ List.mem_append_right _ hx)
          rw [extendedID?, Broker.data?, hbroker, extendedID?, Broker.data?, Option.map_map,
            Option.map_map,
            Broker.conns_drop (g := (fun d : ClientSpecificData => d.mExtendedID) ∘ (·.data))
              (fun _ => rfl), if_neg hxc]
        obtain ⟨s', hloop, hlists', hbroker'⟩ := ih hlists hlt
        refine ⟨s', ?_, ?_, ?_⟩
        · rw [herase]
          dsimp only
          rw [hdispose]
          exact hloop
        · rw [List.filter_cons_of_neg (by simp [hext, hid])]
          rwa [List.filter_congr fun x hx => by rw [hids x hx]] at hlists'
        · rw [List.filter_cons_of_pos (by simp [hext, hid]), List.foldl_cons, ← hbroker, hbroker']
          rw [List.filter_congr fun x hx => by rw [hids x hx]]
      · rw [if_neg hid, h.represents.next_element]
        rw [List.append_cons] at h
        obtain ⟨s', hloop, hlists, hbroker⟩ := ih h hlt
        refine ⟨s', hloop, ?_, ?_⟩
        · rwa [List.filter_cons_of_pos (by simp [hext, hid]), List.append_cons]
        · rwa [List.filter_cons_of_neg (by simp [hext, hid])]

/-- All connections in the list that have an extended ID are disposed. -/
theorem removeClients (cfg : Config) (h : Lists s l) (id : UInt32) :
    ∃ s', s.removeClients cfg id = .ok s' ∧
      Lists s' (l.filter (fun c => s.extendedID? c ≠ some id)) ∧
      s'.broker = (l.filter (fun c => s.extendedID? c = some id)).foldl (Broker.drop cfg)
        s.broker := by
  rw [ServicebrokerServer.removeClients, h.represents.next_mFirst]
  exact h.removeClientsLoop (l := []) cfg id h.length_lt

/-- A connection that is open and not in the list is put into it. -/
theorem addClient (h : Lists s l) (hc : c ∉ l) (hlive : (s.broker.conns c).isSome = true) :
    ∃ hooks, s.addClient c = .ok { s with mClients := hooks } ∧
      Lists { s with mClients := hooks } (c :: l) := by
  have hmem : (s.mClients (.element c)).isSome = true := (h.memory c).trans hlive
  obtain ⟨hooks, hpush, hr, hother⟩ := h.represents.pushFront_eq hc hmem
  refine ⟨hooks, by rw [ServicebrokerServer.addClient, hpush], hr, ?_, ?_, h.fresh⟩
  · intro x hx
    change Slist.isHooked hooks x = true at hx
    by_cases hxc : x = c
    · exact List.mem_cons.mpr (.inl hxc)
    · rw [Slist.isHooked_congr (hother x hxc)] at hx
      exact List.mem_cons_of_mem _ (h.hooked x hx)
  · intro x
    by_cases hxc : x = c
    · rw [hxc, hlive]
      exact Slist.isSome_of_isHooked (hr.isHooked (List.mem_cons_self ..))
    · show (hooks (.element x)).isSome = _
      rw [hother x hxc]
      exact h.memory x

/-- An announcement of a connection that is not in the list. -/
theorem announce (cfg : Config) (h : Lists s l) {id : UInt32}
    (hext : s.extendedID? c = some id) (hid : id ≠ 0) (hc : c ∉ l) :
    ∃ s', s.announce cfg c = .ok s' ∧
      Lists s' (c :: l.filter (fun x => s.extendedID? x ≠ some id)) ∧
      s'.broker = (l.filter (fun x => s.extendedID? x = some id)).foldl (Broker.drop cfg)
        s.broker := by
  obtain ⟨s₁, hremove, hlists, hbroker⟩ := h.removeClients cfg id
  have hopen : (s.broker.conns c).isSome = true := by
    rw [extendedID?, Broker.data?, Option.map_map] at hext
    rw [← Option.isSome_map, hext]
    rfl
  have hlive : (s₁.broker.conns c).isSome = true := by
    have hconns := Broker.conns_foldl_drop (g := fun _ => ()) (fun _ => rfl) cfg
      (l.filter (fun x => s.extendedID? x = some id)) s.broker c
    rw [if_neg (fun hmem => hc (List.mem_of_mem_filter hmem)), ← hbroker] at hconns
    rw [← Option.isSome_map (f := fun _ => ()), hconns, Option.isSome_map]
    exact hopen
  have hnot : c ∉ l.filter (fun x => s.extendedID? x ≠ some id) :=
    fun hmem => hc (List.mem_of_mem_filter hmem)
  obtain ⟨hooks, hadd, hlists'⟩ := hlists.addClient hnot hlive
  refine ⟨_, ?_, hlists', hbroker⟩
  rw [ServicebrokerServer.announce, hext]
  simp only [Option.getD_some, if_neg hid, hremove, hadd]

/-- An announcement of a connection that is in the list: it is disposed, and what is
left of it is put into the list. -/
theorem announce_twice (cfg : Config) (h : Lists s l) {id : UInt32}
    (hext : s.extendedID? c = some id) (hid : id ≠ 0) (hc : c ∈ l) :
    s.announce cfg c = .error (.list .badAccess) := by
  obtain ⟨s₁, hremove, hlists, hbroker⟩ := h.removeClients cfg id
  have hgone : s₁.mClients (.element c) = none := by
    have hconns := Broker.conns_foldl_drop (g := fun _ => ()) (fun _ => rfl) cfg
      (l.filter (fun x => s.extendedID? x = some id)) s.broker c
    rw [if_pos (List.mem_filter.mpr ⟨hc, by simpa using hext⟩), ← hbroker] at hconns
    have hmem := hlists.memory c
    rw [← Option.isSome_map (f := fun _ => ()) (x := s₁.broker.conns c), hconns] at hmem
    exact Option.not_isSome_iff_eq_none.mp (by rw [hmem]; exact Bool.false_ne_true)
  have hadd : s₁.addClient c = .error (.list .badAccess) := by
    rw [ServicebrokerServer.addClient, Slist.pushFront_of_dead hgone]
  rw [ServicebrokerServer.announce, hext]
  simp only [Option.getD_some, if_neg hid, hremove, hadd]

/-- A new connection is not listed. -/
theorem connected (cfg : Config) (h : Lists s l) (nodeAddress localAddress : UInt32)
    (uid : Int32) :
    ∃ s', s.step cfg (.connected nodeAddress localAddress uid) = .ok s' ∧ Lists s' l ∧
      s'.broker = s.broker.openConnection nodeAddress localAddress uid := by
  set n := s.broker.nextConnectionId with hn
  set hooks := Function.update s.mClients (.element n) (some none) with hhooks
  have hself : hooks (.element n) = some none := Function.update_self ..
  have hother {x : Nat} (hx : x ≠ n) : hooks (.element x) = s.mClients (.element x) :=
    Function.update_of_ne (fun hxn => hx (SlistNode.element.inj hxn)) _ _
  have hfirst : hooks .mFirst = s.mClients .mFirst := Function.update_of_ne (by simp) _ _
  have hconns (x : Nat) :=
    Broker.conns_openConnection nodeAddress localAddress uid s.broker x
  refine ⟨_, rfl, ⟨?_, ?_, ?_, ?_⟩, rfl⟩
  · exact h.represents.congr hfirst fun x hx => hother (Nat.ne_of_lt (h.lt_next hx))
  · intro x hx
    change Slist.isHooked hooks x = true at hx
    have hxn : x ≠ n := by
      rintro rfl
      rw [Slist.isHooked_eq_false (by rw [hself]; rfl)] at hx
      exact Bool.false_ne_true hx
    rw [Slist.isHooked_congr (hother hxn)] at hx
    exact h.hooked x hx
  · intro x
    show (hooks (.element x)).isSome = _
    rw [hconns]
    by_cases hxn : x = n
    · rw [if_pos hxn, hxn, hself]
      rfl
    · rw [if_neg hxn, hother hxn]
      exact h.memory x
  · intro x hx
    have hlt : n < x := hx
    rw [hconns, if_neg (Nat.ne_of_gt hlt)]
    exact h.fresh x (Nat.le_of_lt hlt)

/-- What counts the reads does not concern the list. -/
theorem of_operations (h : Lists s l) (operations : Nat → UInt32) :
    Lists { s with operations := operations } l :=
  ⟨h.represents, h.hooked, h.memory, h.fresh⟩

/-- The timer does not touch the list. -/
theorem tick (h : Lists s l) (c : Nat) : Lists (s.tick c) l := by
  unfold ServicebrokerServer.tick
  split
  · exact h.of_operations _
  · exact h

/-- At the end of its socket or at a time-out a connection is disposed, or nothing happens
to the broker. -/
theorem ended (cfg : Config) (h : Lists s l) {e : ServerEvent} {c : Nat}
    (he : e = .closed c ∨ e = .timeout c) :
    ∃ s' l', s.step cfg e = .ok s' ∧ Lists s' l' ∧ l' ⊆ l ∧
      if s.ends e then c ∉ l' ∧ s'.broker = s.broker.drop cfg c else s'.broker = s.broker := by
  have hsame {s' : ServicebrokerServer} (hs' : Lists s' l) (hb : s'.broker = s.broker)
      (hends : s.ends e = false) :
      ∃ s₁ l₁, Except.ok s' = (.ok s₁ : Except ServerFault ServicebrokerServer) ∧ Lists s₁ l₁ ∧
        l₁ ⊆ l ∧
        if s.ends e then c ∉ l₁ ∧ s₁.broker = s.broker.drop cfg c else s₁.broker = s.broker :=
    ⟨s', l, rfl, hs', List.Subset.refl l, by rw [if_neg (by simp [hends])]; exact hb⟩
  have hdispose (hends : s.ends e = true) :
      ∃ s₁ l₁, s.dispose cfg c = .ok s₁ ∧ Lists s₁ l₁ ∧ l₁ ⊆ l ∧
        if s.ends e then c ∉ l₁ ∧ s₁.broker = s.broker.drop cfg c
        else s₁.broker = s.broker := by
    obtain ⟨s', hs', hlists, hbroker⟩ := h.dispose cfg c
    simp only [hends, if_true]
    exact ⟨s', _, hs', hlists, fun x hx => List.mem_of_mem_filter hx,
      fun hc => by simpa using List.of_mem_filter hc, hbroker⟩
  cases hk : s.broker.conns c with
  | none =>
      rcases he with rfl | rfl
      · rw [step, close, hk]
        exact hsame h rfl (by simp [ends, reads, hk])
      · rw [step, handleTimeout, hk]
        exact hsame h rfl (by simp [ends, hk])
  | some k =>
      rcases he with rfl | rfl
      · rw [step, close, hk]
        dsimp only
        split
        · next hdeferred => exact hsame h rfl (by simp [ends, reads, hk, hdeferred])
        · next hdeferred => exact hdispose (by simpa [ends, reads, hk] using hdeferred)
      · rw [step, handleTimeout, hk]
        dsimp only
        split
        · next hlocal => exact hsame h rfl (by simp [ends, hk, hlocal])
        · next hremote =>
          split
          · next hread =>
            exact hsame (h.of_operations _) rfl (by simp [ends, hk, hread])
          · next hsilent =>
            have hzero : s.operations c = 0 := Decidable.not_not.mp hsilent
            exact hdispose (by simp [ends, hk, hremote, hzero])

end Lists

/-! ## Announcements and closes -/

/-- An ID that can be announced: 0 stands for no extended ID. -/
abbrev AnnouncedID := {id : UInt32 // id ≠ 0}

/-- What concerns the list: a connection comes, announces an ID, is closed by its peer,
or is closed by its timer. -/
inductive Registration where
  | connected (nodeAddress localAddress : UInt32) (uid : Int32)
  | ping (c : Nat) (id : AnnouncedID)
  | closed (c : Nat)
  | timeout (c : Nat)
  deriving DecidableEq

/-- What happens to the process. -/
def Registration.event : Registration → ServerEvent
  | .connected nodeAddress localAddress uid => .connected nodeAddress localAddress uid
  | .ping c id => .frame c { request := .masterPingId id }
  | .closed c => .closed c
  | .timeout c => .timeout c

/-- The list has at most one connection for an extended ID, each connection once, and
only such that exist. -/
structure Registered (s : ServicebrokerServer) (l : List Nat) : Prop where
  represents : Slist.Represents s.mClients l
  live : ∀ c ∈ l, (s.broker.conns c).isSome = true
  one : ∀ c ∈ l, ∀ c' ∈ l, s.extendedID? c = s.extendedID? c' → c = c'

/-- The step keeps the list so, and a connection whose announcement was processed is
alive and in the list. -/
def Registers (cfg : Config) (s : ServicebrokerServer) (e : Registration) : Prop :=
  ∃ s' l, s.step cfg e.event = .ok s' ∧ Registered s' l ∧
    ∀ c id, e = .ping c id → s.reads c = true → c ∈ l

/-- A connection that announces an ID is not in the list already. -/
def announcesOnce (s : ServicebrokerServer) : Registration → Bool
  | .ping c _ => !(s.reads c && Slist.isHooked s.mClients c)
  | _ => true

/-- The list, and no extended ID twice in it. -/
structure OneEach (s : ServicebrokerServer) (l : List Nat) : Prop where
  lists : Lists s l
  one : ∀ c ∈ l, ∀ c' ∈ l, s.extendedID? c = s.extendedID? c' → c = c'

/-- The invariant says that every announced connection is registered once. -/
theorem OneEach.registered {s : ServicebrokerServer} {l : List Nat} (h : OneEach s l) :
    Registered s l where
  represents := h.lists.represents
  live _ hc := h.lists.live hc
  one := h.one

/-- What is announced depends on the data of the connection. -/
theorem extendedID?_congr {s s' : ServicebrokerServer} {c : Nat}
    (h : (s'.broker.conns c).map (fun k => k.data.mExtendedID) =
      (s.broker.conns c).map (fun k => k.data.mExtendedID)) :
    s'.extendedID? c = s.extendedID? c := by
  rw [extendedID?, Broker.data?, Option.map_map, extendedID?, Broker.data?, Option.map_map]
  exact h

/-- What the dispatcher leaves of an announcement, with the ID stored. -/
theorem extendedID?_pinged (s : ServicebrokerServer) {c : Nat} {k : Connection}
    (hk : s.broker.conns c = some k) (id : UInt32) (x : Nat) :
    extendedID? { s with broker := (s.broker.handleMasterPingId (k.ctx c) id).1 } x =
      if x = c then some id else s.extendedID? x := by
  rw [extendedID?, Broker.data?, Broker.conns_handleMasterPingId]
  by_cases hx : x = c
  · rw [if_pos hx, if_pos (show x = (k.ctx c).mId from hx), hx, hk]
    rfl
  · rw [if_neg hx, if_neg (show ¬ x = (k.ctx c).mId from hx), extendedID?, Broker.data?]

/-- An announcement stores the ID, and lists nothing yet. -/
theorem Lists.pinged {s : ServicebrokerServer} {l : List Nat} (h : Lists s l) {c : Nat}
    {k : Connection} (id : UInt32) :
    Lists { s with broker := (s.broker.handleMasterPingId (k.ctx c) id).1 } l := by
  refine h.of_broker (fun x => ?_) rfl
  rw [Broker.conns_handleMasterPingId]
  split
  · rw [Option.isSome_map]
  · rfl

namespace OneEach

variable {s : ServicebrokerServer} {l : List Nat} {c : Nat}

/-- The list gets shorter, and its connections keep their IDs. -/
theorem shrink (h : OneEach s l) {s' : ServicebrokerServer} {l' : List Nat} (hl : Lists s' l')
    (hsub : l' ⊆ l) (hids : ∀ x ∈ l', s'.extendedID? x = s.extendedID? x) : OneEach s' l' where
  lists := hl
  one x hx x' hx' hsame := by
    rw [hids x hx, hids x' hx'] at hsame
    exact h.one x (hsub hx) x' (hsub hx') hsame

theorem connected (cfg : Config) (h : OneEach s l) (nodeAddress localAddress : UInt32)
    (uid : Int32) :
    ∃ s', s.step cfg (.connected nodeAddress localAddress uid) = .ok s' ∧ OneEach s' l := by
  obtain ⟨s', hstep, hlists, hbroker⟩ := h.lists.connected cfg nodeAddress localAddress uid
  refine ⟨s', hstep, h.shrink hlists (List.Subset.refl l) fun x hx => extendedID?_congr ?_⟩
  rw [hbroker, Broker.conns_openConnection, if_neg (Nat.ne_of_lt (h.lists.lt_next hx))]

/-- A connection that ends is taken out of the list. -/
theorem ended (cfg : Config) (h : OneEach s l) {e : ServerEvent} {c : Nat}
    (he : e = .closed c ∨ e = .timeout c) :
    ∃ s' l', s.step cfg e = .ok s' ∧ OneEach s' l' := by
  obtain ⟨s', l', hstep, hlists, hsub, hbroker⟩ := h.lists.ended cfg he
  refine ⟨s', l', hstep, h.shrink hlists hsub fun x hx => extendedID?_congr ?_⟩
  split at hbroker
  · obtain ⟨hc, hdrop⟩ := hbroker
    have hconns := Broker.conns_drop (g := fun k => k.data.mExtendedID) (fun _ => rfl) cfg c
      s.broker x
    rw [if_neg fun hxc : x = c => hc (hxc ▸ hx)] at hconns
    rw [hdrop]
    exact hconns
  · rw [hbroker]

theorem tick (h : OneEach s l) (c : Nat) : OneEach (s.tick c) l :=
  h.shrink (h.lists.tick c) (List.Subset.refl l) fun x _ => extendedID?_tick s c x

/-- The timer announces nothing. -/
theorem announcesOnce_tick (s : ServicebrokerServer) (c : Nat) (e : Registration) :
    (s.tick c).announcesOnce e = s.announcesOnce e := by
  cases e <;> simp [announcesOnce, reads]

/-- An announcement is processed: the old connections with the ID are gone, and the
announcing one is in the list. -/
theorem ping_eval (cfg : Config) (h : OneEach s l) (c : Nat) (id : AnnouncedID)
    (honce : s.announcesOnce (.ping c id) = true) :
    ∃ s' l', s.eval cfg c { request := .masterPingId id } = .ok s' ∧ OneEach s' l' ∧
      (s.reads c = true → c ∈ l') := by
  cases hk : s.broker.conns c with
  | none =>
      refine ⟨s, l, by rw [eval, hk], h, fun hreads => ?_⟩
      rw [reads, hk] at hreads
      cases hreads
  | some k =>
      by_cases hdeferred : k.deferred = true
      · refine ⟨s, l, eval_of_deferred hk hdeferred, h, fun hreads => ?_⟩
        · rw [reads, hk, Option.any_some, hdeferred] at hreads
          cases hreads
      · have hreads : s.reads c = true := by
          rw [reads, hk, Option.any_some]
          simpa using hdeferred
        have hc : c ∉ l := by
          intro hc
          rw [announcesOnce, hreads, h.lists.represents.isHooked hc] at honce
          cases honce
        set s₁ : ServicebrokerServer :=
          { s with broker := (s.broker.handleMasterPingId (k.ctx c) id).1 } with hs₁
        have hids (x : Nat) : s₁.extendedID? x = if x = c then some id.1 else s.extendedID? x :=
          extendedID?_pinged s hk id x
        have hext : s₁.extendedID? c = some id.1 := by rw [hids, if_pos rfl]
        have hlists₁ : Lists s₁ l := h.lists.pinged id.1
        obtain ⟨s', hannounce, hlists, hbroker⟩ := hlists₁.announce cfg hext id.2 hc
        have hkept {x : Nat} (hx : x ∉ l.filter (fun x => s₁.extendedID? x = some id.1)) :
            s'.extendedID? x = s₁.extendedID? x := by
          refine extendedID?_congr ?_
          rw [hbroker, Broker.conns_foldl_drop (g := fun k => k.data.mExtendedID) (fun _ => rfl),
            if_neg hx]
        have hself : s'.extendedID? c = some id.1 :=
          (hkept fun hmem => hc (List.mem_of_mem_filter hmem)).trans hext
        have hrest {x : Nat} (hx : x ∈ l.filter (fun x => s₁.extendedID? x ≠ some id.1)) :
            x ∈ l ∧ s'.extendedID? x = s.extendedID? x ∧ s'.extendedID? x ≠ some id.1 := by
          obtain ⟨hxl, hne⟩ := List.mem_filter.mp hx
          have hne : s₁.extendedID? x ≠ some id.1 := by simpa using hne
          have hsame := hkept (x := x) fun hmem => hne (by simpa using List.of_mem_filter hmem)
          have hxc : x ≠ c := fun hxc => hc (hxc ▸ hxl)
          exact ⟨hxl, by rw [hsame, hids, if_neg hxc], fun heq => hne (hsame ▸ heq)⟩
        refine ⟨s'.respond c (some ⟨0, .empty⟩),
          c :: l.filter (fun x => s₁.extendedID? x ≠ some id.1),
          eval_of_ok (f := { request := .masterPingId id.1 }) hk hdeferred rfl hannounce,
          ⟨?_, ?_⟩, fun _ => List.mem_cons_self ..⟩
        · exact hlists.of_broker (fun _ => rfl) rfl
        · intro x hx x' hx' hsame
          change s'.extendedID? x = s'.extendedID? x' at hsame
          rcases List.mem_cons.mp hx with rfl | hx
          · rcases List.mem_cons.mp hx' with rfl | hx'
            · rfl
            · exact absurd (hsame.symm.trans hself) (hrest hx').2.2
          · rcases List.mem_cons.mp hx' with rfl | hx'
            · exact absurd (hsame.trans hself) (hrest hx).2.2
            · obtain ⟨hxl, hxe, -⟩ := hrest hx
              obtain ⟨hxl', hxe', -⟩ := hrest hx'
              exact h.one x hxl x' hxl' (hxe.symm.trans (hsame.trans hxe'))

/-- An announcement that is the first one of its connection puts it into the list, and those with
its ID out of it. -/
theorem ping (cfg : Config) (h : OneEach s l) (c : Nat) (id : AnnouncedID)
    (honce : s.announcesOnce (.ping c id) = true) :
    ∃ s' l', s.step cfg (Registration.ping c id).event = .ok s' ∧ OneEach s' l' ∧
      (s.reads c = true → c ∈ l') := by
  obtain ⟨s', l', hstep, hone, hin⟩ :=
    (h.tick c).ping_eval cfg c id ((announcesOnce_tick s c _).trans honce)
  exact ⟨s', l', hstep, hone, fun hreads => hin (by simpa [reads] using hreads)⟩

/-- A second announcement disposes of its own connection, and then uses it. -/
theorem ping_twice_eval (cfg : Config) (h : OneEach s l) {c : Nat} {id : AnnouncedID}
    (htwice : s.announcesOnce (.ping c id) = false) :
    s.eval cfg c { request := .masterPingId id } = .error (.list .badAccess) := by
  have hboth : s.reads c = true ∧ Slist.isHooked s.mClients c = true := by
    simpa [announcesOnce] using htwice
  obtain ⟨hreads, hhooked⟩ := hboth
  have hc := h.lists.hooked c hhooked
  obtain ⟨k, hk⟩ := Option.isSome_iff_exists.mp (h.lists.live hc)
  have hdeferred : ¬ k.deferred = true := by
    rw [reads, hk, Option.any_some] at hreads
    simpa using hreads
  set s₁ : ServicebrokerServer :=
    { s with broker := (s.broker.handleMasterPingId (k.ctx c) id).1 } with hs₁
  have hext : s₁.extendedID? c = some id.1 := by rw [extendedID?_pinged s hk, if_pos rfl]
  have hlists₁ : Lists s₁ l := h.lists.pinged id.1
  exact eval_of_error (f := { request := .masterPingId id.1 }) hk hdeferred rfl
    (hlists₁.announce_twice cfg hext id.2 hc)

/-- An announcement of a connection that is in the list breaks off. -/
theorem ping_twice (cfg : Config) (h : OneEach s l) {c : Nat} {id : AnnouncedID}
    (htwice : s.announcesOnce (.ping c id) = false) :
    s.step cfg (Registration.ping c id).event = .error (.list .badAccess) :=
  (h.tick c).ping_twice_eval cfg ((announcesOnce_tick s c _).trans htwice)

/-- Every event whose announcement is the first one keeps one connection for each ID. -/
theorem step (cfg : Config) (h : OneEach s l) (e : Registration)
    (honce : s.announcesOnce e = true) :
    ∃ s' l', s.step cfg e.event = .ok s' ∧ OneEach s' l' ∧
      ∀ c id, e = .ping c id → s.reads c = true → c ∈ l' := by
  cases e with
  | connected nodeAddress localAddress uid =>
      obtain ⟨s', hstep, hone⟩ := h.connected cfg nodeAddress localAddress uid
      exact ⟨s', l, hstep, hone, fun _ _ he => by cases he⟩
  | ping c id =>
      obtain ⟨s', l', hstep, hone, hin⟩ := h.ping cfg c id honce
      exact ⟨s', l', hstep, hone, fun _ _ he => by cases he; exact hin⟩
  | closed c =>
      obtain ⟨s', l', hstep, hone⟩ := h.ended cfg (.inl rfl) (c := c)
      exact ⟨s', l', hstep, hone, fun _ _ he => by cases he⟩
  | timeout c =>
      obtain ⟨s', l', hstep, hone⟩ := h.ended cfg (.inr rfl) (c := c)
      exact ⟨s', l', hstep, hone, fun _ _ he => by cases he⟩

/-- A step keeps the list as it should be if and only if it is no second announcement. -/
theorem registers_iff (cfg : Config) (h : OneEach s l) (e : Registration) :
    Registers cfg s e ↔ s.announcesOnce e = true := by
  constructor
  · rintro ⟨s', l', hstep, -⟩
    by_contra htwice
    cases e with
    | connected => exact htwice rfl
    | closed => exact htwice rfl
    | timeout => exact htwice rfl
    | ping c id =>
        rw [h.ping_twice cfg (Bool.eq_false_iff.mpr htwice)] at hstep
        cases hstep
  · intro honce
    obtain ⟨s', l', hstep, hone, hin⟩ := h.step cfg e honce
    exact ⟨s', l', hstep, hone.registered, hin⟩

end OneEach

/-- At the beginning there is none. -/
theorem oneEach_init : OneEach init [] where
  lists := lists_init
  one _ hc := by cases hc

/-- The runs that register are those without a second announcement. -/
theorem along_registers_iff {cfg : Config} {s : ServicebrokerServer} (h : ∃ l, OneEach s l)
    (es : List Registration) :
    Partial.Along (fun s e => step cfg s (Registration.event e)) (Registers cfg) s es ↔
      Partial.Along (fun s e => step cfg s (Registration.event e))
        (fun s e => s.announcesOnce e = true) s es := by
  refine Partial.along_iff (I := fun s => ∃ l, OneEach s l) ?_ ?_ h es
  · rintro s e ⟨l, h⟩
    exact h.registers_iff cfg e
  · rintro s e s' ⟨l, h⟩ honce hs
    obtain ⟨t, l', ht, hone, -⟩ := h.step cfg e honce
    rw [hs] at ht
    cases ht
    exact ⟨l', hone⟩

/-- Every step of a run of announcements, closes and time-outs keeps the list as it should be if
and only if no connection that is in the list announces an ID again. -/
theorem registered_iff (cfg : Config) (es : List Registration) :
    Partial.Along (fun s e => step cfg s (Registration.event e)) (Registers cfg) init es ↔
      Partial.Along (fun s e => step cfg s (Registration.event e))
        (fun s e => s.announcesOnce e = true) init es :=
  along_registers_iff ⟨[], oneEach_init⟩ es

/-- A connection announces an ID twice, and then another one instead. -/
theorem not_registers_twice :
    ¬ Partial.Along (fun s e => step Broker.aloneConfig s (Registration.event e))
      (Registers Broker.aloneConfig) init
      [.connected 0 0 0, .ping 1 ⟨5, by decide⟩, .ping 1 ⟨5, by decide⟩] ∧
    ¬ Partial.Along (fun s e => step Broker.aloneConfig s (Registration.event e))
      (Registers Broker.aloneConfig) init
      [.connected 0 0 0, .ping 1 ⟨5, by decide⟩, .ping 1 ⟨7, by decide⟩] :=
  ⟨(along_registers_iff ⟨[], oneEach_init⟩ _).not.mpr (by decide +kernel),
    (along_registers_iff ⟨[], oneEach_init⟩ _).not.mpr (by decide +kernel)⟩

/-- A slave that comes back on a new connection. -/
example : Partial.Along (fun s e => step Broker.aloneConfig s (Registration.event e))
    (fun s e => s.announcesOnce e = true) init
    [.connected 0 0 0, .ping 1 ⟨5, by decide⟩, .connected 0 0 0, .ping 2 ⟨5, by decide⟩,
      .closed 1, .closed 2] := by
  decide +kernel

end ServicebrokerServer

end Dsi
