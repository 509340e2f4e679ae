import Dsi.Client.ConnectSM

/-!
# Dsi.Client.DetachedOnce

When a connecting client gives every ID back to the broker exactly once.  `Consistent` says
which IDs are in use and where they are; every step either breaks off or leaves a
state that is consistent exactly if the step meets `givesBack`.
-/

namespace Dsi

namespace CClient

/-! ## Giving back -/

namespace Returned

variable {c : CClient} {used used' : List Nat} {id : Nat}

/-- Only the IDs that were handed out matter. -/
theorem congr (h : c.Returned used)
    (hused : ∀ id, 0 < id → id ≤ c.attached → (id ∈ used ↔ id ∈ used')) : c.Returned used' := by
  intro id
  rw [h id]
  by_cases hid : 0 < id ∧ id ≤ c.attached
  · have hiff := hused id hid.1 hid.2
    simp only [hid.1, hid.2, true_and, hiff]
  · have hout (l : List Nat) : ¬ (0 < id ∧ id ≤ c.attached ∧ id ∉ l) :=
      fun h => hid ⟨h.1, h.2.1⟩
    rw [if_neg (hout used), if_neg (hout used')]

/-- The calls to the broker are all that counts. -/
theorem of_eq {c' : CClient} (h : c.Returned used) (hdetached : c'.detached = c.detached)
    (hattached : c'.attached = c.attached) : c'.Returned used := by
  intro id
  rw [hdetached, hattached]
  exact h id

/-- An ID that is handed out is in use. -/
theorem brokerAttach (h : c.Returned used) :
    c.brokerAttach.2.Returned (c.brokerAttach.1 :: used) := by
  intro id
  have hid := h id
  simp only [CClient.brokerAttach, List.mem_cons, not_or] at hid ⊢
  rw [hid]
  by_cases hnew : id = c.attached + 1
  · rw [if_neg (by omega), if_neg (by omega)]
  · by_cases hout : 0 < id ∧ id ≤ c.attached ∧ id ∉ used
    · rw [if_pos hout, if_pos ⟨hout.1, Nat.le_succ_of_le hout.2.1, hnew, hout.2.2⟩]
    · rw [if_neg hout, if_neg (fun hnot => hout ⟨hnot.1, by omega, hnot.2.2.2⟩)]

/-- An ID that is detached is not in use any more. -/
theorem brokerDetach (h : c.Returned (id :: used)) (hpos : 0 < id) (hle : id ≤ c.attached)
    (hid : id ∉ used) : (c.brokerDetach id).Returned used := by
  intro x
  have hx := h x
  simp only [List.mem_cons, not_or] at hx
  change (c.detached ++ [id]).count x = if 0 < x ∧ x ≤ c.attached ∧ x ∉ used then 1 else 0
  rw [List.count_append, List.count_singleton, hx]
  by_cases heq : x = id
  · have hx' : 0 < x ∧ x ≤ c.attached ∧ x ∉ used := heq ▸ ⟨hpos, hle, hid⟩
    rw [if_neg (fun hnot => hnot.2.2.1 heq), if_pos (beq_iff_eq.mpr heq.symm), if_pos hx']
  · rw [if_neg (fun h => heq (beq_iff_eq.mp h).symm), Nat.add_zero]
    by_cases hout : 0 < x ∧ x ≤ c.attached ∧ x ∉ used
    · rw [if_pos ⟨hout.1, hout.2.1, heq, hout.2.2⟩, if_pos hout]
    · rw [if_neg (fun hnot => hout ⟨hnot.1, hnot.2.1, hnot.2.2.2⟩), if_neg hout]

/-- An ID that is used once is given back once. -/
theorem brokerDetachIf (h : c.Returned (id :: used)) (hle : id ≤ c.attached)
    (hid : id ≠ 0 → id ∉ used) : (c.brokerDetachIf id).Returned used := by
  rw [CClient.brokerDetachIf]
  by_cases hpos : id ≠ 0
  · rw [if_pos hpos]
    exact h.brokerDetach (Nat.pos_of_ne_zero hpos) hle (hid hpos)
  · rw [if_neg hpos]
    refine h.congr (fun x hx _ => ?_)
    rw [List.mem_cons]
    exact ⟨fun hmem => hmem.resolve_left (by omega), Or.inr⟩

/-- An ID that is neither in use nor detached is lost. -/
theorem count_pos (h : c.Returned used) (hpos : 0 < id) (hle : id ≤ c.attached)
    (hid : id ∉ used) : c.detached.count id = 1 := by
  rw [h id, if_pos ⟨hpos, hle, hid⟩]

/-- No ID is given back twice. -/
theorem count_le (h : c.Returned used) (id : Nat) : c.detached.count id ≤ 1 := by
  rw [h id]
  split
  · exact Nat.le_refl 1
  · exact Nat.zero_le 1

/-- An ID in use is not given back. -/
theorem count_of_mem (h : c.Returned used) (hid : id ∈ used) : c.detached.count id = 0 := by
  rw [h id, if_neg (fun hnot => hnot.2.2 hid)]

end Returned

@[simp] theorem attached_brokerDetachIf (id : Nat) (c : CClient) :
    (c.brokerDetachIf id).attached = c.attached := by
  rw [brokerDetachIf]
  split <;> rfl

@[simp] theorem mClientID_brokerDetachIf (id : Nat) (c : CClient) :
    (c.brokerDetachIf id).mClientID = c.mClientID := by
  rw [brokerDetachIf]
  split <;> rfl

@[simp] theorem mChannel_brokerDetachIf (id : Nat) (c : CClient) :
    (c.brokerDetachIf id).mChannel = c.mChannel := by
  rw [brokerDetachIf]
  split <;> rfl

/-- One call gives one ID back, if it is one. -/
theorem count_brokerDetachIf (id x : Nat) (c : CClient) :
    (c.brokerDetachIf id).detached.count x =
      c.detached.count x + if id ≠ 0 ∧ id = x then 1 else 0 := by
  rw [brokerDetachIf]
  by_cases hid : id ≠ 0
  · rw [if_pos hid, CClient.brokerDetach, List.count_append, List.count_singleton]
    by_cases heq : id = x
    · rw [if_pos (beq_iff_eq.mpr heq), if_pos ⟨hid, heq⟩]
    · rw [if_neg (by rw [beq_iff_eq]; exact heq), if_neg (fun h => heq h.2)]
  · rw [if_neg hid, if_neg (fun h => hid h.1), Nat.add_zero]

variable {cfg : ClientConfig} {c : CClient} {id : Nat}

/-- The IDs in use, and where they are. -/
structure Consistent (c : CClient) : Prop where
  once : DetachedOnce c
  le : c.mClientID ≤ c.attached
  tcp : ∀ sm, c.mConnector = some sm → sm.asyncRead = true →
    sm.mConnInfo = 0 ∧ 0 < sm.mTcpConnInfo ∧ sm.mTcpConnInfo ≤ c.attached ∧
      sm.mTcpConnInfo ≠ c.mClientID
  localID : ∀ sm, c.mConnector = some sm → sm.asyncRead = false →
    0 < sm.mConnInfo ∧ c.mClientID = sm.mConnInfo

/-- At the beginning there is no ID. -/
theorem consistent_init : Consistent {} where
  once id := by
    rw [if_neg (fun h => Nat.not_lt_of_le h.2.1 h.1)]
    rfl
  le := Nat.le_refl 0
  tcp := nofun
  localID := nofun

/-- What the state machine and the client have, before anything of it was given back. -/
structure Holding (sm : CClientConnectSM) (c : CClient) : Prop where
  returned : c.Returned [sm.mTcpConnInfo, sm.mConnInfo, c.mClientID]
  tcp : sm.mTcpConnInfo ≤ c.attached
  conn : sm.mConnInfo ≤ c.attached
  client : c.mClientID ≤ c.attached
  distinct : sm.mTcpConnInfo ≠ 0 →
    sm.mTcpConnInfo ≠ sm.mConnInfo ∧ sm.mTcpConnInfo ≠ c.mClientID
  distinct' : sm.mConnInfo ≠ 0 → sm.mConnInfo ≠ c.mClientID

/-- What `detachInterface` leaves where it comes to an end. -/
def afterDetach (c : CClient) : CClient :=
  { c.brokerDetachIf c.mClientID with mConnector := none, mClientID := 0 }

/-- A client that cannot be detached breaks the process off. -/
theorem detachInterface_eq (cfg : ClientConfig) (c : CClient) :
    c.detachInterface cfg = if c.canDetach cfg then .ok c.afterDetach else .error .assertion := by
  rw [detachInterface, canDetach, afterDetach, brokerDetachIf]
  by_cases hid : c.mClientID = 0
  · simp [hid]
  · cases hchannel : c.mChannel <;> cases hdebug : cfg.NDEBUG <;>
      simp [hid, hchannel, hdebug, sendDisconnectRequest, dropID, brokerDetachIf, bind,
        Except.bind, brokerDetach]

/-- What `onFailure` leaves where it comes to an end. -/
def afterFailure (sm : CClientConnectSM) (c : CClient) : CClient :=
  ((c.brokerDetachIf sm.mTcpConnInfo).brokerDetachIf sm.mConnInfo).afterDetach

/-- So does a failure of one. -/
theorem onFailure_eq (cfg : ClientConfig) (sm : CClientConnectSM) (c : CClient) :
    sm.onFailure cfg c =
      if c.canDetach cfg then .ok (c.afterFailure sm) else .error .assertion := by
  have hsame : ((c.brokerDetachIf sm.mTcpConnInfo).brokerDetachIf sm.mConnInfo).canDetach cfg =
      c.canDetach cfg := by
    simp only [canDetach, mClientID_brokerDetachIf, mChannel_brokerDetachIf]
  rw [CClientConnectSM.onFailure, detachInterface_eq, hsame, afterFailure]

/-- `detachInterface` gives the ID of the client back. -/
theorem consistent_afterDetach (h : c.Returned [c.mClientID]) (hle : c.mClientID ≤ c.attached) :
    Consistent c.afterDetach where
  once := by
    have hreturned := h.brokerDetachIf hle (fun _ => List.not_mem_nil)
    refine (hreturned.of_eq rfl rfl).congr (fun id hpos _ => ?_)
    rw [inUse, afterDetach]
    simp [Nat.ne_of_gt hpos]
  le := Nat.zero_le _
  tcp := nofun
  localID := nofun

/-- `onFailure` gives everything back that the state machine and the client have. -/
theorem Holding.consistent_afterFailure {sm : CClientConnectSM} (h : Holding sm c) :
    Consistent (c.afterFailure sm) := by
  have htcp := h.returned.brokerDetachIf h.tcp (fun hne => by
    have hdistinct := h.distinct hne
    simp [hdistinct.1, hdistinct.2])
  have hconn := htcp.brokerDetachIf (by rw [attached_brokerDetachIf]; exact h.conn) (fun hne => by
    simp [h.distinct' hne])
  refine consistent_afterDetach ?_ ?_
  · simpa only [mClientID_brokerDetachIf] using hconn
  · simpa only [mClientID_brokerDetachIf, attached_brokerDetachIf] using h.client

/-- An ID that nobody uses and nobody has detached. -/
structure Lost (id : Nat) (sm : CClientConnectSM) (c : CClient) : Prop where
  count : c.detached.count id = 0
  pos : 0 < id
  le : id ≤ c.attached
  tcp : id ≠ sm.mTcpConnInfo
  conn : id ≠ sm.mConnInfo
  client : id ≠ c.mClientID

/-- An ID that is lost is not given back. -/
theorem not_detachedOnce_of_count_zero (id : Nat) (hcount : c.detached.count id = 0) (hpos : 0 < id)
    (hle : id ≤ c.attached) (hid : id ∉ c.inUse) : ¬ DetachedOnce c := by
  intro h
  have hone := Returned.count_pos h hpos hle hid
  omega

/-- Nor is one that is given back twice given back once. -/
theorem not_detachedOnce_of_two (id : Nat) (hcount : 2 ≤ c.detached.count id) :
    ¬ DetachedOnce c := by
  intro h
  have hone := Returned.count_le h id
  omega

/-- `onFailure` only gives back what the state machine and the client have. -/
theorem Lost.not_afterFailure {sm : CClientConnectSM} (h : Lost id sm c) :
    ¬ DetachedOnce (c.afterFailure sm) := by
  refine not_detachedOnce_of_count_zero id ?_ h.pos ?_ ?_
  · change List.count id (brokerDetachIf _ (brokerDetachIf _ (brokerDetachIf _ c))).detached = 0
    simp only [count_brokerDetachIf, mClientID_brokerDetachIf, h.count]
    rw [if_neg (fun heq => h.tcp heq.2.symm), if_neg (fun heq => h.conn heq.2.symm),
      if_neg (fun heq => h.client heq.2.symm)]
  · change id ≤ (brokerDetachIf _ (brokerDetachIf _ (brokerDetachIf _ c))).attached
    simpa only [attached_brokerDetachIf] using h.le
  · have hpos := h.pos
    simp only [afterFailure, afterDetach, inUse, List.mem_singleton]
    omega

/-- A client with the ID of its state machine detaches it twice on a failure. -/
theorem not_detachedOnce_afterFailure {sm : CClientConnectSM} (hne : sm.mConnInfo ≠ 0)
    (heq : c.mClientID = sm.mConnInfo) : ¬ DetachedOnce (c.afterFailure sm) := by
  refine not_detachedOnce_of_two sm.mConnInfo ?_
  change 2 ≤ (brokerDetachIf _ (brokerDetachIf _ (brokerDetachIf _ c))).detached.count sm.mConnInfo
  simp only [count_brokerDetachIf, mClientID_brokerDetachIf, heq, ne_eq, hne, not_false_eq_true,
    and_self, if_true]
  omega

/-! ## What a step decides -/

/-- `P` tells whether a step ends in a state that is consistent; otherwise it breaks off, or
an ID is lost or detached twice. -/
def Decides (P : Prop) : Except ConnectFault CClient → Prop
  | .error _ => ¬ P
  | .ok c => (P → Consistent c) ∧ (¬ P → ¬ DetachedOnce c)

/-- A client with its books in order has given every ID back once. -/
theorem Consistent.decides {P : Prop} (h : Consistent c) (hP : P) : Decides P (.ok c) :=
  ⟨fun _ => h, fun hnot => absurd hP hnot⟩

/-- And one without has not. -/
theorem decides_of_not {P : Prop} (h : ¬ DetachedOnce c) (hP : ¬ P) : Decides P (.ok c) :=
  ⟨fun hyes => absurd hyes hP, fun _ => h⟩

/-- What never holds does not hold under a condition that fails. -/
theorem Decides.of_false {P : Prop} {x : Except ConnectFault CClient} (h : Decides False x)
    (hP : ¬ P) : Decides P x := by
  cases x with
  | error f => exact hP
  | ok c => exact decides_of_not (h.2 not_false) hP

/-- A step that ends or breaks off. -/
theorem Decides.guard {P Q : Prop} [Decidable Q] {f : ConnectFault} (h : Decides P (.ok c)) :
    Decides (P ∧ Q) (if Q then .ok c else .error f) := by
  by_cases hQ : Q
  · rw [if_pos hQ, and_iff_left hQ]
    exact h
  · rw [if_neg hQ]
    exact fun hboth => hQ hboth.2

/-- A failure gives both IDs back, if the client can be detached. -/
theorem Holding.decides_onFailure {sm : CClientConnectSM} (cfg : ClientConfig) (h : Holding sm c) :
    Decides (c.canDetach cfg = true) (sm.onFailure cfg c) := by
  rw [onFailure_eq]
  have hguard := (h.consistent_afterFailure.decides (P := True) trivial).guard
    (Q := c.canDetach cfg = true) (f := .assertion)
  rwa [true_and] at hguard

/-- A failure does not bring a lost ID back. -/
theorem Lost.decides_onFailure {sm : CClientConnectSM} (cfg : ClientConfig) (h : Lost id sm c) :
    Decides False (sm.onFailure cfg c) := by
  rw [onFailure_eq]
  have hguard := (decides_of_not h.not_afterFailure not_false).guard
    (Q := c.canDetach cfg = true) (f := .assertion)
  rwa [false_and] at hguard

/-- A failure gives the local ID back twice, if the client has it as well. -/
theorem decides_onFailure_twice {sm : CClientConnectSM} (cfg : ClientConfig)
    (hne : sm.mConnInfo ≠ 0) (heq : c.mClientID = sm.mConnInfo) :
    Decides False (sm.onFailure cfg c) := by
  rw [onFailure_eq]
  have hguard := (decides_of_not (not_detachedOnce_afterFailure hne heq) not_false).guard
    (Q := c.canDetach cfg = true) (f := .assertion)
  rwa [false_and] at hguard

/-! ## `attach` -/

/-- A local request that is sent by a client without an ID. -/
theorem Holding.decides_sendLocal {sm : CClientConnectSM} (h : Holding sm c)
    (hconn : 0 < sm.mConnInfo) (hread : sm.asyncRead = false) :
    Decides (c.mClientID = 0) (.ok { ({ c with mClientID := sm.mConnInfo } : CClient).brokerDetachIf
      sm.mTcpConnInfo with mConnector := some sm }) := by
  by_cases hclient : c.mClientID = 0
  · have hreturned : ({ c with mClientID := sm.mConnInfo } : CClient).Returned
        [sm.mTcpConnInfo, sm.mConnInfo, c.mClientID] := h.returned.of_eq rfl rfl
    have htcp := hreturned.brokerDetachIf h.tcp (fun hne => by
      have hdistinct := h.distinct hne
      simp [hdistinct.1, hdistinct.2])
    refine Consistent.decides ⟨?_, ?_, ?_, ?_⟩ hclient
    · refine (htcp.of_eq rfl rfl).congr (fun id hpos _ => ?_)
      simp only [inUse, mClientID_brokerDetachIf, hread, Bool.false_eq_true, if_false,
        List.mem_cons, hclient, List.not_mem_nil, or_false]
      exact ⟨fun hid => .inl (hid.resolve_right (Nat.ne_of_gt hpos)),
        fun hid => .inl (or_self_iff.mp hid)⟩
    · simpa only [mClientID_brokerDetachIf, attached_brokerDetachIf] using h.conn
    · intro sm' hsm' hread'
      cases hsm'
      exact absurd hread' (by rw [hread]; exact Bool.false_ne_true)
    · intro sm' hsm' _
      cases hsm'
      exact ⟨hconn, mClientID_brokerDetachIf _ _⟩
  · -- the ID of the client is overwritten
    have hdistinct : sm.mConnInfo ≠ c.mClientID := h.distinct' (Nat.ne_of_gt hconn)
    have htcp : ¬ (sm.mTcpConnInfo ≠ 0 ∧ sm.mTcpConnInfo = c.mClientID) :=
      fun heq => (h.distinct heq.1).2 heq.2
    refine decides_of_not
      (not_detachedOnce_of_count_zero c.mClientID ?_ (Nat.pos_of_ne_zero hclient) ?_ ?_) hclient
    · change (brokerDetachIf _ _).detached.count c.mClientID = 0
      rw [count_brokerDetachIf, if_neg htcp]
      exact h.returned.count_of_mem (by simp)
    · change c.mClientID ≤ (brokerDetachIf _ _).attached
      rw [attached_brokerDetachIf]
      exact h.client
    · simp only [inUse, mClientID_brokerDetachIf, hread, Bool.false_eq_true, if_false,
        List.mem_cons, List.not_mem_nil, or_false, or_self]
      exact fun heq => hdistinct heq.symm

/-- What `attach` starts with: the IDs of the client, and none of a state machine. -/
theorem Returned.holding (h : c.Returned [c.mClientID]) (hle : c.mClientID ≤ c.attached) :
    Holding {} c where
  returned := h.congr (fun id hpos _ => by
    simp only [List.mem_cons, List.not_mem_nil, or_false]
    exact ⟨fun hid => .inr (.inr hid),
      fun hid => (hid.resolve_left (Nat.ne_of_gt hpos)).resolve_left
      (Nat.ne_of_gt hpos)⟩)
  tcp := Nat.zero_le _
  conn := Nat.zero_le _
  client := hle
  distinct hne := absurd rfl hne
  distinct' hne := absurd rfl hne

/-- `CServicebroker::attachInterface` in `attach`. -/
theorem Holding.attachInterface (h : Holding {} c) :
    Holding { mConnInfo := c.brokerAttach.1 } c.brokerAttach.2 where
  returned := h.returned.brokerAttach.congr (fun id hpos _ => by
    simp only [List.mem_cons, List.not_mem_nil, or_false, CClient.brokerAttach]
    omega)
  tcp := Nat.zero_le _
  conn := Nat.le_refl _
  client := Nat.le_succ_of_le h.client
  distinct hne := absurd rfl hne
  distinct' _ heq := by
    have hle := h.client
    change c.attached + 1 = c.mClientID at heq
    omega

/-- `CServicebroker::attachInterfaceTCP` in `attach`. -/
theorem Holding.attachInterfaceTCP {id : Nat} (h : Holding { mConnInfo := id } c) :
    Holding { mConnInfo := id, mTcpConnInfo := c.brokerAttach.1 } c.brokerAttach.2 where
  returned := h.returned.brokerAttach.congr (fun x hpos _ => by
    simp only [List.mem_cons, List.not_mem_nil, or_false, CClient.brokerAttach]
    omega)
  tcp := Nat.le_refl _
  conn := Nat.le_succ_of_le h.conn
  client := Nat.le_succ_of_le h.client
  distinct _ := by
    have hconn := h.conn
    have hclient := h.client
    dsimp only [CClient.brokerAttach] at hconn hclient ⊢
    omega
  distinct' := h.distinct'

/-- A request over TCP: the local ID is given back, the other one is kept. -/
theorem Holding.consistent_sendTCP {sm : CClientConnectSM} (h : Holding sm c)
    (hconn : 0 < sm.mConnInfo) (htcp : 0 < sm.mTcpConnInfo) :
    Consistent { c.brokerDetach sm.mConnInfo with
      mConnector := some { sm with mConnInfo := 0, asyncRead := true } } := by
  have hdistinct := h.distinct (Nat.ne_of_gt htcp)
  have hswap : c.Returned [sm.mConnInfo, sm.mTcpConnInfo, c.mClientID] :=
    h.returned.congr (fun id _ _ => by
      simp only [List.mem_cons, List.not_mem_nil, or_false]
      exact or_left_comm)
  have hdetached := hswap.brokerDetach hconn h.conn (by
    simp [h.distinct' (Nat.ne_of_gt hconn), Ne.symm hdistinct.1])
  refine ⟨?_, h.client, ?_, ?_⟩
  · refine (hdetached.of_eq rfl rfl).congr (fun id _ _ => ?_)
    change id ∈ [sm.mTcpConnInfo, c.mClientID] ↔ id ∈ [c.mClientID, sm.mTcpConnInfo]
    simp only [List.mem_cons, List.not_mem_nil, or_false]
    exact or_comm
  · intro sm' hsm' _
    cases hsm'
    exact ⟨rfl, htcp, h.tcp, hdistinct.2⟩
  · intro sm' hsm' hread
    cases hsm'
    cases hread

/-- A local request gives everything back if the client has no ID and the request is
sent; where none is started the client is detached. -/
theorem Holding.decides_attachLocal {sm : CClientConnectSM} (cfg : ClientConfig)
    (calls : AttachCalls) (h : Holding sm c) (hconn : 0 < sm.mConnInfo)
    (hread : sm.asyncRead = false) :
    Decides (if calls.nid = 0 ∧ calls.attach = true then c.mClientID = 0 ∧ calls.send = true
      else c.canDetach cfg = true) (sm.attachLocal cfg calls c) := by
  rw [CClientConnectSM.attachLocal]
  by_cases hlocal : calls.nid = 0 ∧ calls.attach = true
  · rw [if_pos hlocal, if_pos hlocal]
    dsimp only
    cases hsend : calls.send with
    | true =>
        rw [if_pos rfl, and_iff_left rfl]
        exact h.decides_sendLocal hconn hread
    | false =>
        rw [if_neg Bool.false_ne_true]
        exact (decides_onFailure_twice cfg (Nat.ne_of_gt hconn) rfl).of_false
          (fun hboth => Bool.false_ne_true hboth.2)
  · rw [if_neg hlocal, if_neg hlocal]
    exact h.decides_onFailure cfg

/-- The steps of `attachInterface` that give every ID back. -/
def givesBackAttach (cfg : ClientConfig) (calls : AttachCalls) (c : CClient) : Prop :=
  if calls.initiatesLocal cfg then c.mClientID = 0 ∧ calls.send = true
  else calls.initiatesTCP cfg = true ∨ c.canDetach cfg = true

/-- `attach` of a client without a state machine. -/
theorem Returned.decides_attach (cfg : ClientConfig) (calls : AttachCalls)
    (h : c.Returned [c.mClientID]) (hle : c.mClientID ≤ c.attached) :
    Decides (givesBackAttach cfg calls c) (CClientConnectSM.attach cfg calls c) := by
  have hnone := h.holding hle
  rw [CClientConnectSM.attach]
  cases hattach : calls.attachInterface with
  | false =>
      have hfails : givesBackAttach cfg calls c ↔ c.canDetach cfg = true := by
        simp [givesBackAttach, AttachCalls.initiatesLocal, AttachCalls.initiatesTCP, hattach]
      rw [hfails, if_neg Bool.false_ne_true]
      exact hnone.decides_onFailure cfg
  | true =>
      have hconn := hnone.attachInterface
      have hlocal (htcp : ¬ ((cfg.isTCPForced = true ∨ calls.nid ≠ 0) ∧
          calls.attachInterfaceTCP = true) ∨ calls.attachTCP = false) :
          (if calls.nid = 0 ∧ calls.attach = true then c.mClientID = 0 ∧ calls.send = true
            else c.canDetach cfg = true) ↔ givesBackAttach cfg calls c := by
        rw [givesBackAttach, AttachCalls.initiatesLocal, AttachCalls.initiatesTCP, hattach]
        cases hforced : cfg.isTCPForced <;> cases hcall : calls.attachInterfaceTCP <;>
          cases hchannel : calls.attachTCP <;> simp_all
      dsimp only
      rw [if_pos rfl]
      by_cases htcp : (cfg.isTCPForced = true ∨ calls.nid ≠ 0) ∧ calls.attachInterfaceTCP = true
      · have hboth := hconn.attachInterfaceTCP
        rw [if_pos htcp]
        cases hchannel : calls.attachTCP with
        | false =>
            rw [if_neg Bool.false_ne_true, ← hlocal (.inr hchannel)]
            exact hboth.decides_attachLocal cfg calls (Nat.succ_pos _) rfl
        | true =>
            have hnot : calls.initiatesLocal cfg = false := by
              rw [AttachCalls.initiatesLocal, htcp.2, hchannel]
              rcases htcp.1 with hforced | hnid
              · rw [hforced]
                simp
              · simp [hnid]
            have hsent : calls.initiatesTCP cfg = calls.sendTCP := by
              rw [AttachCalls.initiatesTCP, hattach, htcp.2, hchannel]
              rcases htcp.1 with hforced | hnid
              · rw [hforced]
                simp
              · simp [hnid]
            rw [givesBackAttach, hnot, if_neg Bool.false_ne_true, hsent, if_pos rfl]
            cases hsend : calls.sendTCP with
            | false =>
                have hiff : (false = true ∨ c.canDetach cfg = true) ↔ c.canDetach cfg = true := by
                  simp
                rw [if_neg Bool.false_ne_true, hiff]
                exact hboth.decides_onFailure cfg
            | true =>
                exact (hboth.consistent_sendTCP (Nat.succ_pos _) (Nat.succ_pos _)).decides
                  (.inl rfl)
      · rw [if_neg htcp, ← hlocal (.inl htcp)]
        exact hconn.decides_attachLocal cfg calls (Nat.succ_pos _) rfl

/-- What is lost when `attach` starts stays lost. -/
theorem Lost.decides_attachLocal {sm : CClientConnectSM} (cfg : ClientConfig)
    (calls : AttachCalls) (h : Lost id sm c) (hread : sm.asyncRead = false) :
    Decides False (sm.attachLocal cfg calls c) := by
  rw [CClientConnectSM.attachLocal]
  split
  · dsimp only
    split
    · refine decides_of_not (not_detachedOnce_of_count_zero id ?_ h.pos ?_ ?_) not_false
      · change (brokerDetachIf _ _).detached.count id = 0
        rw [count_brokerDetachIf, if_neg (fun heq => h.tcp heq.2.symm)]
        exact h.count
      · change id ≤ (brokerDetachIf _ _).attached
        rw [attached_brokerDetachIf]
        exact h.le
      · simp only [inUse, mClientID_brokerDetachIf, hread, Bool.false_eq_true, if_false,
          List.mem_cons, List.not_mem_nil, or_false, or_self]
        exact h.conn
    · exact Lost.decides_onFailure cfg { h with client := h.conn }
  · exact h.decides_onFailure cfg

/-- Nor does an attach bring it back. -/
theorem Lost.decides_attach (cfg : ClientConfig) (calls : AttachCalls) (h : Lost id {} c) :
    Decides False (CClientConnectSM.attach cfg calls c) := by
  have hle := h.le
  have hconn : Lost id { mConnInfo := c.brokerAttach.1 } c.brokerAttach.2 :=
    { h with
      le := Nat.le_succ_of_le h.le
      conn := Nat.ne_of_lt (Nat.lt_succ_of_le h.le) }
  have hboth : Lost id
    { mConnInfo := c.brokerAttach.1, mTcpConnInfo := c.brokerAttach.2.brokerAttach.1 }
      c.brokerAttach.2.brokerAttach.2 :=
    { hconn with
      le := Nat.le_succ_of_le hconn.le
      tcp := Nat.ne_of_lt (Nat.lt_succ_of_le hconn.le) }
  rw [CClientConnectSM.attach]
  split
  · dsimp only
    split
    · split
      · split
        · refine decides_of_not (not_detachedOnce_of_count_zero id ?_ h.pos hboth.le ?_) not_false
          · change (c.detached ++ [_]).count id = 0
            rw [List.count_append, h.count, List.count_singleton,
              if_neg (fun heq => hconn.conn (beq_iff_eq.mp heq).symm)]
          · simp only [inUse, if_true, List.mem_cons, List.not_mem_nil, or_false, not_or]
            exact ⟨h.client, hboth.tcp⟩
        · exact hboth.decides_onFailure cfg
      · exact hboth.decides_attachLocal cfg calls rfl
    · exact hconn.decides_attachLocal cfg calls rfl
  · exact h.decides_onFailure cfg

/-! ## Steps and runs -/

/-- The IDs in use, with the client's state machine left out. -/
theorem Consistent.returned (h : Consistent c) (hawaits : c.awaitsTCP = false) :
    c.Returned [c.mClientID] := by
  refine Returned.congr h.once (fun id _ _ => ?_)
  rw [inUse]
  cases hconnector : c.mConnector with
  | none => rfl
  | some sm =>
      have hread : sm.asyncRead = false := by
        rw [awaitsTCP, hconnector] at hawaits
        exact hawaits
      have hlocal := h.localID sm hconnector hread
      simp only [hread, Bool.false_eq_true, if_false, List.mem_cons, List.not_mem_nil, or_false,
        hlocal.2, or_self]

/-- While it waits for its TCP channel a state machine has an ID of its own. -/
theorem Consistent.lost (h : Consistent c) {sm : CClientConnectSM}
    (hconnector : c.mConnector = some sm) (hread : sm.asyncRead = true) :
    Lost sm.mTcpConnInfo {} c := by
  have htcp := h.tcp sm hconnector hread
  refine ⟨Returned.count_of_mem h.once ?_, htcp.2.1, htcp.2.2.1, Nat.ne_of_gt htcp.2.1,
    Nat.ne_of_gt htcp.2.1, htcp.2.2.2⟩
  rw [inUse, hconnector]
  simp [hread]

/-- A machine that waits for its TCP answer holds two IDs. -/
theorem Consistent.holding (h : Consistent c) {sm : CClientConnectSM}
    (hconnector : c.mConnector = some sm) (hread : sm.asyncRead = true) : Holding sm c := by
  have htcp := h.tcp sm hconnector hread
  refine ⟨?_, htcp.2.2.1, by omega, h.le, fun _ => ⟨by omega, htcp.2.2.2⟩, fun hne => by omega⟩
  refine Returned.congr h.once (fun id hpos _ => ?_)
  rw [inUse, hconnector]
  simp only [hread, if_true, List.mem_cons, List.not_mem_nil, or_false, htcp.1]
  omega

/-- A client that drops its state machine, and the ID with which that one waits. -/
theorem Consistent.decides_detachInterface (h : Consistent c) :
    Decides (c.awaitsTCP = false ∧ c.canDetach cfg = true) (c.detachInterface cfg) := by
  rw [detachInterface_eq]
  cases hawaits : c.awaitsTCP with
  | false =>
      exact ((consistent_afterDetach (h.returned hawaits) h.le).decides rfl).guard
  | true =>
      obtain ⟨sm, hconnector, hread⟩ := Option.any_eq_true _ _ |>.mp hawaits
      -- `onFailure` of a state machine without IDs does the same
      have hlost := (h.lost hconnector hread).not_afterFailure
      exact (decides_of_not hlost Bool.true_eq_false.mp).guard

/-- A machine that is deleted while it waits loses the ID of its TCP attach. -/
theorem Consistent.decides_drop (h : Consistent c) (channel : ClientChannel) :
    Decides (c.awaitsTCP = false) (.ok { c with mChannel := channel, mConnector := none }) := by
  cases hawaits : c.awaitsTCP with
  | false => exact Consistent.decides ⟨h.returned hawaits, h.le, nofun, nofun⟩ rfl
  | true =>
      obtain ⟨sm, hconnector, hread⟩ := Option.any_eq_true _ _ |>.mp hawaits
      have hlost := h.lost hconnector hread
      refine decides_of_not ?_ Bool.true_eq_false.mp
      refine not_detachedOnce_of_count_zero sm.mTcpConnInfo hlost.count hlost.pos hlost.le ?_
      exact fun hid => hlost.client (List.mem_singleton.mp hid)

/-- A failure behind the request: nothing of it is detached twice if it was made over
TCP. -/
theorem Consistent.decides_onFailure (cfg : ClientConfig) (h : Consistent c)
    {sm : CClientConnectSM} (hconnector : c.mConnector = some sm) :
    Decides (sm.asyncRead = true ∧ c.canDetach cfg = true) (sm.onFailure cfg c) := by
  cases hread : sm.asyncRead with
  | false =>
      have hlocal := h.localID sm hconnector hread
      exact (decides_onFailure_twice cfg (Nat.ne_of_gt hlocal.1) hlocal.2).of_false
        (fun hboth => Bool.false_ne_true hboth.1)
  | true =>
      rw [and_iff_right rfl]
      exact (h.holding hconnector hread).decides_onFailure cfg

/-- A server that accepts over TCP: an ID that the client had before is lost. -/
theorem Consistent.decides_accepted (h : Consistent c) {sm : CClientConnectSM}
    (hconnector : c.mConnector = some sm) (hread : sm.asyncRead = true)
    (channel : ClientChannel) :
    Decides (c.mClientID = 0) (.ok
      { c with mClientID := sm.mTcpConnInfo, mChannel := channel, mConnector := none }) := by
  have hholding := h.holding hconnector hread
  have hlost := h.lost hconnector hread
  have hconn := (h.tcp sm hconnector hread).1
  by_cases hclient : c.mClientID = 0
  · refine Consistent.decides ⟨?_, hholding.tcp, nofun, nofun⟩ hclient
    refine (hholding.returned.of_eq rfl rfl).congr (fun id hpos _ => ?_)
    simp only [inUse, List.mem_cons, List.not_mem_nil, or_false, hconn, hclient]
    omega
  · refine decides_of_not ?_ hclient
    refine not_detachedOnce_of_count_zero c.mClientID ?_ (Nat.pos_of_ne_zero hclient) h.le ?_
    · exact hholding.returned.count_of_mem (by simp)
    · exact fun hid => hlost.client (List.mem_singleton.mp hid).symm

/-- A client that is detached in `doComponentConnected` breaks off, one way or the other. -/
theorem decides_finalizeConnectRequest (cfg : ClientConfig) (channel detaches : Bool) {P : Prop}
    (h : ∀ state : ClientChannel,
      Decides P (.ok { c with mChannel := state, mConnector := none })) :
    Decides (P ∧ detaches = false)
      (CClientConnectSM.finalizeConnectRequest cfg channel detaches c) := by
  rw [CClientConnectSM.finalizeConnectRequest]
  cases detaches with
  | false =>
      rw [and_iff_left rfl]
      exact h (if channel then .live else .expired)
  | true =>
      have hbreaks (x : Except ConnectFault CClient) :
          Decides (P ∧ true = false) (x >>= fun _ => .error .doubleDelete) := by
        cases x <;> exact fun hboth => Bool.true_eq_false.mp hboth.2
      exact hbreaks _

/-- A channel that closes gives nothing back. -/
theorem Consistent.channelClosed (h : Consistent c) (state : ClientChannel) :
    Consistent { c with mChannel := state } where
  once := h.once
  le := h.le
  tcp := h.tcp
  localID := h.localID

/-- An attach over a machine that still waits loses the ID of its TCP attach; otherwise the
books are those of the attach alone. -/
theorem Consistent.decides_attachInterface (cfg : ClientConfig) (h : Consistent c)
    (calls : AttachCalls) :
    Decides (givesBack cfg c (.attachInterface calls) = true)
      (CClient.step cfg c (.attachInterface calls)) := by
  rw [CClient.step]
  cases hassert : c.mConnector.isSome && !cfg.NDEBUG with
  | true =>
      rw [Bool.and_eq_true, Bool.not_eq_true'] at hassert
      rw [if_pos rfl, givesBack, hassert.2, ← Option.not_isSome, hassert.1]
      exact Bool.false_ne_true
  | false =>
      rw [if_neg Bool.false_ne_true]
      cases hawaits : c.awaitsTCP with
      | true =>
          obtain ⟨sm, hconnector, hread⟩ := Option.any_eq_true _ _ |>.mp hawaits
          have hlost : Lost sm.mTcpConnInfo {} { c with mConnector := none } :=
            { h.lost hconnector hread with }
          refine (hlost.decides_attach cfg calls).of_false ?_
          simp [givesBack, hawaits, hconnector]
      | false =>
          have hnone : c.mConnector.isNone || (cfg.NDEBUG && !c.awaitsTCP) := by
            rw [hawaits]
            cases hconnector : c.mConnector <;> simp_all
          have hdecides := Returned.decides_attach (c := { c with mConnector := none }) cfg
            calls ((h.returned hawaits).of_eq rfl rfl) h.le
          have hiff : givesBack cfg c (.attachInterface calls) = true ↔
              givesBackAttach cfg calls { c with mConnector := none } := by
            rw [givesBack, hnone, Bool.true_and, givesBackAttach]
            split
            · rw [Bool.and_eq_true, beq_iff_eq]
            · rw [Bool.or_eq_true]
              rfl
          rw [hiff]
          exact hdecides

/-- The response to a local connect request, or its failure. -/
theorem Consistent.decides_connectResponse (cfg : ClientConfig) (h : Consistent c) (pid : Nat)
    (channel detaches : Bool) :
    Decides (givesBack cfg c (.connectResponse pid channel detaches) = true)
      (CClient.step cfg c (.connectResponse pid channel detaches)) := by
  rw [CClient.step, givesBack]
  cases hconnector : c.mConnector with
  | none => exact Bool.false_ne_true
  | some sm =>
      have hawaits : c.awaitsTCP = sm.asyncRead := by rw [awaitsTCP, hconnector]; rfl
      dsimp only
      by_cases hpid : pid ≠ 0
      · have hdecides := decides_finalizeConnectRequest cfg channel detaches h.decides_drop
        rw [if_pos hpid, if_pos hpid]
        simpa using hdecides
      · have hfailure := h.decides_onFailure cfg hconnector
        rw [← hawaits] at hfailure
        rw [if_neg hpid, if_neg hpid]
        simpa using hfailure

/-- The answer that a machine awaits over TCP; without one nothing happens. -/
theorem Consistent.decides_tcpAnswer (cfg : ClientConfig) (h : Consistent c)
    (answer : TCPAnswer) (channel detaches : Bool) :
    Decides (givesBack cfg c (.tcpAnswer answer channel detaches) = true)
      (CClient.step cfg c (.tcpAnswer answer channel detaches)) := by
  rw [CClient.step, givesBack]
  cases hconnector : c.mConnector with
  | none =>
      refine h.decides ?_
      rw [awaitsTCP, hconnector]
      rfl
  | some sm =>
      have hawaits : c.awaitsTCP = sm.asyncRead := by rw [awaitsTCP, hconnector]; rfl
      dsimp only
      rw [hawaits]
      cases hread : sm.asyncRead with
      | false => exact h.decides rfl
      | true =>
          rw [if_pos rfl]
          cases haccepted : answer.accepted with
          | false =>
              have hfailure := h.decides_onFailure cfg hconnector
              rw [hread] at hfailure
              rw [if_neg Bool.false_ne_true]
              simpa using hfailure
          | true =>
              have hdecides := decides_finalizeConnectRequest cfg channel detaches
                (c := { c with mClientID := sm.mTcpConnInfo })
                (h.decides_accepted hconnector hread)
              rw [if_pos rfl]
              simpa [hconnector] using hdecides

/-- Every step breaks off or ends in a state that is consistent exactly if the step
gives every ID back. -/
theorem Consistent.step (cfg : ClientConfig) (h : Consistent c) (e : Event) :
    Decides (givesBack cfg c e = true) (step cfg c e) := by
  cases e with
  | attachInterface calls => exact h.decides_attachInterface cfg calls
  | connectResponse pid channel detaches =>
      exact h.decides_connectResponse cfg pid channel detaches
  | tcpAnswer answer channel detaches => exact h.decides_tcpAnswer cfg answer channel detaches
  | detachInterface =>
      rw [givesBack, Bool.and_eq_true, Bool.not_eq_true']
      exact h.decides_detachInterface
  | channelClosed =>
      rw [CClient.step]
      refine Consistent.decides ?_ rfl
      split
      · exact h.channelClosed .expired
      · exact h

/-- An event keeps the books in order if and only if it meets the condition. -/
theorem Consistent.keepsDetachedOnce_iff (h : Consistent c) (e : Event) :
    KeepsDetachedOnce cfg c e ↔ givesBack cfg c e = true := by
  have hdecides := h.step cfg e
  rw [KeepsDetachedOnce]
  cases hstep : CClient.step cfg c e with
  | error f =>
      rw [hstep] at hdecides
      refine iff_of_false ?_ hdecides
      rintro ⟨c', hok, -⟩
      cases hok
  | ok c' =>
      rw [hstep] at hdecides
      constructor
      · rintro ⟨t, hok, honce⟩
        cases hok
        exact Classical.byContradiction (fun hnot => hdecides.2 hnot honce)
      · exact fun hgives => ⟨c', rfl, (hdecides.1 hgives).once⟩

/-- And leaves them in order then. -/
theorem Consistent.preserved {c' : CClient} (h : Consistent c) (e : Event)
    (hgives : givesBack cfg c e = true) (hstep : CClient.step cfg c e = .ok c') :
    Consistent c' := by
  have hdecides := h.step cfg e
  rw [hstep] at hdecides
  exact hdecides.1 hgives

/-- Every step of a run detaches every ID once that goes out of use, exactly if every
step of it is one that gives every ID back. -/
theorem detachedOnce_iff (cfg : ClientConfig) (es : List Event) :
    Partial.Along (step cfg) (KeepsDetachedOnce cfg) {} es ↔
      Partial.Along (step cfg) (fun c e => givesBack cfg c e = true) {} es :=
  Partial.along_iff (fun _ e hc => hc.keepsDetachedOnce_iff e)
    (fun _ e _ hc hgives hstep => hc.preserved e hgives hstep) consistent_init es

/-- A local request that is sent. -/
def asksLocally : Event := .attachInterface ⟨true, 0, false, false, false, true, true⟩

/-- A local server refuses: without assertions the ID of the client is detached in
`onFailure` and in `detachInterface`.  With them, and where the client is detached while
it waits, the disconnect request goes to the `CDummyChannel`. -/
theorem not_detachedOnce_refused :
    (∃ c, Partial.run (CClient.step { NDEBUG := true }) {}
        [asksLocally, .connectResponse 0 false false] = .ok c ∧ c.detached = [1, 1]) ∧
      ¬ Partial.Along (CClient.step { NDEBUG := true }) (KeepsDetachedOnce { NDEBUG := true }) {}
        [asksLocally, .connectResponse 0 false false] ∧
      ∀ e ∈ [.connectResponse 0 false false, .detachInterface],
        Partial.fault? (Partial.run (CClient.step {}) {} [asksLocally, e]) = some .assertion ∧
          ¬ Partial.Along (CClient.step {}) (KeepsDetachedOnce {}) {} [asksLocally, e] := by
  have hbreaks : ∀ e ∈ [Event.connectResponse 0 false false, .detachInterface],
      Partial.fault? (Partial.run (CClient.step {}) {} [asksLocally, e]) = some .assertion := by
    decide
  refine ⟨by decide, fun h => ?_, fun e he => ⟨hbreaks e he, fun h => ?_⟩⟩
  · obtain ⟨c, hstep, honce⟩ := (h.tail rfl).1
    cases hstep
    have htwice := Returned.count_le honce 1
    revert htwice
    decide
  · obtain ⟨c, hstep, -⟩ := (h.tail rfl).1
    have hfault := hbreaks e he
    have hrun : Partial.run (CClient.step {}) {} [asksLocally, e] = .ok c :=
      (Partial.run_cons_of_ok rfl [e]).trans (Partial.run_cons_of_ok hstep [])
    rw [hrun] at hfault
    cases hfault

end CClient

end Dsi
