import Mathlib.Data.List.Find
import Dsi.Server.Connected

/-!
# Dsi.Server.Reached

A server reaches the clients it holds entries of: they are connected, and where
`channels` asks for it their channels are there.  The condition on a step that keeps
this, for the entries of a set of IDs, and the run over it.
-/

namespace Dsi

namespace CServer

open Sequence

/-- The client has a connection, with its channel if that is asked for. -/
def reaches (channels : Bool) (s : CServer) (c : SPartyID) : Bool :=
  if channels then s.isLive c else s.isConnected c

/-- The clients of the entries with an ID in `p` are reached. -/
def AllReached (channels : Bool) (p : UInt32 → Bool) (s : CServer) : Prop :=
  ∀ n ∈ s.held, p n.notifyID = true → s.reaches channels n.clientID = true

/-- An unregister method gets an unblocked request of this client back. -/
def prepares (p : UInt32 → Bool) (c : SPartyID) (user : List (List UserCall)) (s : CServer) :
    Bool :=
  user.any (fun calls => calls.any (fun call => s.mUnblockedSessions.any (fun u =>
    call == .prepareResponse u.1 && p u.2.notifyID && u.2.clientID == c)))

/-- The condition on a step: a request that leaves an entry comes from a client that
is reached, a client that goes takes its entries along, and no channel with
entries is closed. -/
def stepReaches (cfg : Config) (channels : Bool) (p : UInt32 → Bool) (s : CServer) : Event → Bool
  | .connect _ | .user _ | .createId => true
  | .disconnect clientID user =>
      !s.isConnected clientID || !s.prepares p clientID user
  | .detached id user =>
      (s.mClientConnections.find? (fun conn => conn.id == id)).all (fun conn =>
        !s.prepares p conn.clientID user)
  | .dataRequest h _ =>
      (s.entryId cfg h).all (fun id => !p id || s.reaches channels h.clientID)
  | .channelClosed channel =>
      !channels || s.held.all (fun n => !p n.notifyID ||
        (s.findConnection n.clientID).all (fun conn => conn.channel != channel))
  | .unregisterInterface => s.mUnblockedSessions.all (fun u => !p u.2.notifyID)

/-- Who is reached is connected. -/
theorem isConnected_of_reaches {channels : Bool} {s : CServer} {c : SPartyID}
    (h : s.reaches channels c = true) : s.isConnected c = true := by
  unfold reaches at h
  split at h
  · exact isConnected_of_isLive h
  · exact h

/-- Where the assertions are compiled in, a client that is reached has its channel. -/
theorem isLive_of_reaches {cfg : Config} {s : CServer} {c : SPartyID}
    (h : s.reaches (!cfg.NDEBUG) c = true) : cfg.NDEBUG = true ∨ s.isLive c = true := by
  unfold reaches at h
  cases hd : cfg.NDEBUG with
  | true => exact Or.inl rfl
  | false => rw [hd] at h; exact Or.inr h

/-- Who is reached depends on what the search for a connection finds. -/
theorem reaches_of_findConnection {channels : Bool} {s s' : CServer} {c : SPartyID}
    (h : s'.findConnection c = s.findConnection c) :
    s'.reaches channels c = s.reaches channels c := by
  unfold reaches isConnected isLive
  rw [h]

/-- Which depends on the connections only. -/
theorem findConnection_of_connections {s s' : CServer}
    (h : s'.mClientConnections = s.mClientConnections) (c : SPartyID) :
    s'.findConnection c = s.findConnection c := by
  rw [findConnection, findConnection, h]

namespace AllReached

variable {channels : Bool} {p : UInt32 → Bool} {s s' : CServer}

/-- Entries that move are reached as before. -/
theorem of_moves (h : AllReached channels p s) (hm : Moves s s') : AllReached channels p s' := by
  intro n hn hp
  rw [reaches_of_findConnection (findConnection_of_connections hm.connections n.clientID)]
  exact h n (hm.held n hn) hp

/-- A new entry is reached if its client is. -/
theorem of_brings {id : Option UInt32} {c : SPartyID} (h : AllReached channels p s)
    (hb : Brings id c s s') (hid : ∀ i, id = some i → p i = true → s.reaches channels c = true) :
    AllReached channels p s' := by
  intro n hn hp
  rw [reaches_of_findConnection (findConnection_of_connections hb.connections n.clientID)]
  rcases hb.held n hn with hn | ⟨rfl, rfl⟩
  · exact h n hn hp
  · exact hid n.notifyID rfl hp

/-- The entries that stay find their connections as they were. -/
theorem of_find (h : AllReached channels p s)
    (hn : ∀ n ∈ s'.held, p n.notifyID = true →
      n ∈ s.held ∧ s'.findConnection n.clientID = s.findConnection n.clientID) :
    AllReached channels p s' := by
  intro n hmem hp
  rw [reaches_of_findConnection (hn n hmem hp).2]
  exact h n (hn n hmem hp).1 hp

end AllReached

/-! ## Connections that come -/

/-- A client that connects is reached. -/
theorem allReached_connect {cfg : Config} {channels : Bool} {p : UInt32 → Bool} {s : CServer}
    (h : AllReached channels p s) (q : ConnectRequest) :
    AllReached channels p (s.handleConnectRequest cfg q) := by
  unfold handleConnectRequest
  split
  · exact h
  · dsimp only
    split
    · exact h.of_moves (.of_eq rfl rfl rfl)
    · next hnone =>
      refine h.of_find (fun n hn hp => ⟨hn, find?_insertLower ?_⟩)
      have hc : s.isConnected n.clientID = true := isConnected_of_reaches (h n hn hp)
      simp only [beq_eq_false_iff_ne]
      rintro heq
      rw [isConnected, ← heq] at hc
      exact hnone hc

/-! ## Clients that go -/

/-- The entries in `q` are in unblocked sessions that were there in `t`. -/
structure Without (q : Notification → Bool) (t s : CServer) : Prop where
  notifications : ∀ n ∈ s.mNotifications, q n = false
  unblocked : ∀ u ∈ s.mUnblockedSessions, q u.2 = true → u ∈ t.mUnblockedSessions

namespace Without

variable {q : Notification → Bool} {t s s' : CServer}

/-- Entries that go leave no entry of the kind. -/
theorem of_shrinks (h : Without q t s) (hs : Shrinks s s') : Without q t s' :=
  ⟨fun n hn => h.notifications n (hs.notifications.subset hn),
    fun u hu => h.unblocked u (hs.unblocked ▸ hu)⟩

/-- The entries are all that counts. -/
theorem of_eq (h : Without q t s) (hn : s'.mNotifications = s.mNotifications)
    (hu : s'.mUnblockedSessions = s.mUnblockedSessions) : Without q t s' :=
  ⟨hn ▸ h.notifications, hu ▸ h.unblocked⟩

/-- An entry that is taken out was one of these. -/
theorem takeCurrent (h : Without q t s) : Without q t s.takeCurrent.2 := by
  rw [CServer.takeCurrent]
  split
  · exact h
  · next idx _ =>
    split
    · exact h
    · next n hn =>
      refine ⟨fun m hm => h.notifications m ((List.eraseIdx_sublist _ idx).subset hm), ?_⟩
      intro u hu hq
      rcases List.mem_append.mp hu with hu | hu
      · exact h.unblocked u (List.mem_filter.mp hu).1 hq
      · rw [List.mem_singleton.mp hu, h.notifications n (List.mem_of_getElem? hn)] at hq
        exact absurd hq Bool.false_ne_true

/-- An entry that is put back is not of the kind. -/
theorem prepareResponse {cfg : Config} {handle : Int32} (h : Without q t s)
    (hpre : ∀ u ∈ t.mUnblockedSessions, u.1 = handle → q u.2 = false)
    (hs : s.prepareResponse cfg handle = .ok s') : Without q t s' := by
  rcases prepareResponse_cases hs with rfl | ⟨u, hu, rfl⟩
  · exact h
  · have hhandle : u.1 = handle := by simpa using List.find?_some hu
    have hq : q u.2 = false := by
      by_contra hq
      rw [Bool.not_eq_false] at hq
      have ht := h.unblocked u (List.mem_of_find?_eq_some hu) hq
      exact absurd (hpre u ht hhandle) (by simp [hq])
    refine ⟨fun n hn => ?_, fun v hv => h.unblocked v (List.mem_filter.mp hv).1⟩
    rcases List.mem_append.mp hn with hn | hn
    · exact h.notifications n hn
    · exact List.mem_singleton.mp hn ▸ hq

/-- No call makes an entry of the kind, unless it puts one back. -/
theorem call {cfg : Config} {c : UserCall} (h : Without q t s)
    (hpre : ∀ u ∈ t.mUnblockedSessions, c = .prepareResponse u.1 → q u.2 = false)
    (hs : CServer.call cfg s c = .ok s') : Without q t s' := by
  cases c with
  | unblockRequest =>
      obtain ⟨r, hr, hs⟩ := Partial.bind_eq_ok hs
      rw [← Except.ok.inj hs]
      rcases unblockRequest_cases hr with rfl | ⟨-, rfl⟩
      · exact h
      · exact h.takeCurrent.of_eq rfl rfl
  | prepareResponse handle =>
      exact h.prepareResponse (fun u hu hhandle => hpre u hu (by rw [hhandle])) hs
  | response id => exact h.of_shrinks (shrinks_responseMethod hs)
  | sendError id => exact h.of_shrinks (shrinks_sendError hs)
  | setAttributeState id state => exact Except.ok.inj hs ▸ h.of_eq rfl rfl
  | sendNotification id => exact h.of_shrinks (shrinks_sendNotification hs)
  | addActiveSession sessionId => exact Except.ok.inj hs ▸ h.of_eq rfl rfl
  | clearActiveSessions => exact Except.ok.inj hs ▸ h.of_eq rfl rfl

/-- Nor does any number of them. -/
theorem calls {cfg : Config} {user : List UserCall} (h : Without q t s)
    (hpre : ∀ c ∈ user, ∀ u ∈ t.mUnblockedSessions, c = .prepareResponse u.1 → q u.2 = false)
    (hs : CServer.calls cfg s user = .ok s') : Without q t s' := by
  induction user generalizing s with
  | nil => exact Except.ok.inj hs ▸ h
  | cons c user ih =>
      obtain ⟨r, hr, hrest⟩ := Partial.bind_eq_ok hs
      exact ih (h.call (hpre c List.mem_cons_self) hr)
        (fun c' hc' => hpre c' (List.mem_cons_of_mem c hc')) hrest

end Without

/-- The callbacks of `removeAllSessions` one after the other: what every callback
keeps, the loop keeps. -/
theorem removeAllLoop_preserves {cfg : Config} {clientID : SPartyID} {I : CServer → Prop}
    {sessions : List SessionData} {user : List (List UserCall)} {s : CServer}
    {r : List SessionData × CServer}
    (hcalls : ∀ cs, cs = [] ∨ cs ∈ user → ∀ o nr s s', I s →
      calls cfg { emit o s with mCurrentSequenceNr := nr } cs = .ok s' →
      I { s' with mCurrentSequenceNr := INVALID_SEQUENCE_NR })
    (hquiet : ∀ s, I s → I { s with mCurrentSequenceNr := INVALID_SEQUENCE_NR })
    (h : I s) (hr : removeAllLoop cfg clientID sessions user s = .ok r) : I r.2 := by
  induction sessions generalizing user s r with
  | nil => exact Except.ok.inj hr ▸ h
  | cons sd sessions ih =>
      rw [removeAllLoop] at hr
      split at hr
      · split at hr
        · exact ih hcalls (hquiet s h) hr
        · obtain ⟨t, ht, hr⟩ := Partial.bind_eq_ok hr
          refine ih (fun cs hcs => hcalls cs (hcs.imp_right List.mem_of_mem_tail)) ?_ hr
          refine hcalls _ ?_ _ _ s t h ht
          cases user with
          | nil => exact Or.inl rfl
          | cons cs user => exact Or.inr List.mem_cons_self
      · obtain ⟨t, ht, hr⟩ := Partial.bind_eq_ok hr
        have hrest : I t.2 := ih hcalls h ht
        exact Except.ok.inj hr ▸ hrest

/-- The callbacks of a client that goes move entries at most. -/
theorem moves_removeAllSessions {cfg : Config} {clientID : SPartyID} {user : List (List UserCall)}
    {s s' : CServer} (h : s.removeAllSessions cfg clientID user = .ok s') : Moves s s' := by
  obtain ⟨r, hr, h⟩ := Partial.bind_eq_ok h
  rw [← Except.ok.inj h]
  have hloop : Moves s r.2 := by
    refine removeAllLoop_preserves (I := Moves s) (s := { s with mClientID := clientID })
      (fun cs _ o nr t t' ht hcalls => ?_) (fun t ht => ht.trans (.of_eq rfl rfl rfl))
      (.of_eq rfl rfl rfl) hr
    refine (ht.trans ?_).trans ((moves_calls hcalls).trans (.of_eq rfl rfl rfl))
    exact .of_eq rfl rfl rfl
  exact hloop.trans (.of_eq rfl rfl rfl)

/-- So they leave no entry of the kind, unless they put one back. -/
theorem without_removeAllSessions {cfg : Config} {clientID : SPartyID}
    {user : List (List UserCall)} {q : Notification → Bool} {t s s' : CServer}
    (hpre : ∀ cs ∈ user, ∀ c ∈ cs, ∀ u ∈ t.mUnblockedSessions, c = .prepareResponse u.1 →
      q u.2 = false)
    (h : Without q t s) (hs : s.removeAllSessions cfg clientID user = .ok s') :
    Without q t s' := by
  obtain ⟨r, hr, hs⟩ := Partial.bind_eq_ok hs
  rw [← Except.ok.inj hs]
  have hloop : Without q t r.2 := by
    refine removeAllLoop_preserves (I := Without q t) (s := { s with mClientID := clientID })
      (fun cs hcs o nr v v' hv hcalls => ?_) (fun v hv => hv.of_eq rfl rfl) (h.of_eq rfl rfl) hr
    have hstart : Without q t { emit o v with mCurrentSequenceNr := nr } := hv.of_eq rfl rfl
    refine (hstart.calls (fun c hc => ?_) hcalls).of_eq rfl rfl
    rcases hcs with rfl | hcs
    · exact absurd hc List.not_mem_nil
    · exact hpre cs hcs c hc
  exact hloop.of_eq rfl rfl

/-- A client that goes takes its entries along, if no callback puts one back. -/
theorem allReached_dropClient {cfg : Config} {channels : Bool} {p : UInt32 → Bool} {c : SPartyID}
    {user : List (List UserCall)} {s s' : CServer} (h : AllReached channels p s)
    (hpre : s.prepares p c user = false) (hs : s.dropClient cfg c user = .ok s') :
    AllReached channels p s' := by
  obtain ⟨t, ht, hs⟩ := Partial.bind_eq_ok hs
  rw [← Except.ok.inj hs]
  have hmoves : Moves s t :=
    (Moves.of_shrinks (shrinks_removeNotificationBy steady c INVALID_ID s)).trans
      (moves_removeAllSessions ht)
  have hwithout : Without (fun n => p n.notifyID && n.clientID == c) s t := by
    refine without_removeAllSessions (fun cs hcs call hcall u hu heq => ?_) ?_ ht
    · by_contra hq
      rw [Bool.not_eq_false] at hq
      have hsome : s.prepares p c user = true := by
        refine List.any_eq_true.mpr ⟨cs, hcs, List.any_eq_true.mpr ⟨call, hcall,
          List.any_eq_true.mpr ⟨u, hu, ?_⟩⟩⟩
        rw [heq, beq_self_eq_true, Bool.true_and]
        exact hq
      rw [hpre] at hsome
      exact absurd hsome Bool.false_ne_true
    · refine ⟨fun n hn => ?_, fun u hu _ => hu⟩
      rw [removeNotification_eq] at hn
      have hnot := (List.mem_filter.mp hn).2
      by_contra hq
      rw [Bool.not_eq_false, Bool.and_eq_true, beq_iff_eq] at hq
      simp [isRemoved, SPartyID.opEq, hq.2] at hnot
  -- what stays of the client's entries would be in unblocked sessions, and these go
  refine h.of_find (fun n hn hp => ?_)
  rw [mem_held] at hn
  have hstays : n ∈ t.held ∧ n.clientID ≠ c := by
    rcases hn with hn | ⟨u, hu, rfl⟩
    · refine ⟨mem_held.mpr (Or.inl hn), fun heq => ?_⟩
      have hq := hwithout.notifications n hn
      simp [hp, heq] at hq
    · have hfilter := List.mem_filter.mp hu
      refine ⟨mem_held.mpr (Or.inr ⟨u, hfilter.1, rfl⟩), fun heq => ?_⟩
      simp [SPartyID.opEq, heq] at hfilter
  refine ⟨hmoves.held n hstays.1, ?_⟩
  refine (find?_eraseP (fun conn _ hconn => ?_)).trans
    (findConnection_of_connections hmoves.connections n.clientID)
  rw [beq_iff_eq] at hconn
  rw [hconn, beq_eq_false_iff_ne]
  exact hstays.2.symm

/-- So does one that disconnects. -/
theorem allReached_disconnect {cfg : Config} {channels : Bool} {p : UInt32 → Bool} {c : SPartyID}
    {user : List (List UserCall)} {s s' : CServer} (h : AllReached channels p s)
    (hpre : s.stepReaches cfg channels p (.disconnect c user) = true)
    (hs : s.handleDisconnectRequest cfg c user = .ok s') : AllReached channels p s' := by
  unfold handleDisconnectRequest at hs
  cases hc : s.findConnection c with
  | none =>
      rw [hc] at hs
      exact Except.ok.inj hs ▸ h
  | some conn =>
      rw [hc] at hs
      have hid : conn.clientID = c := clientID_of_findConnection hc
      have hquiet : s.prepares p conn.clientID user = false := by
        rw [stepReaches, isConnected, hc] at hpre
        simpa [hid] using hpre
      dsimp only at hs
      split at hs
      · have hemit : AllReached channels p (s.emit (.clearNotification conn.notificationID)) :=
          h.of_moves (.of_eq rfl rfl rfl)
        exact allReached_dropClient hemit hquiet hs
      · exact allReached_dropClient h hquiet hs

/-- So does one that is detached. -/
theorem allReached_detached {cfg : Config} {channels : Bool} {p : UInt32 → Bool} {id : Int32}
    {user : List (List UserCall)} {s s' : CServer} (h : AllReached channels p s)
    (hpre : s.stepReaches cfg channels p (.detached id user) = true)
    (hs : s.handleClientDetached cfg id user = .ok s') : AllReached channels p s' := by
  unfold handleClientDetached at hs
  rw [stepReaches] at hpre
  cases hc : s.mClientConnections.find? (fun conn => conn.id == id) with
  | none =>
      rw [hc] at hs
      exact Except.ok.inj hs ▸ h
  | some conn =>
      rw [hc] at hs hpre
      exact allReached_dropClient h (by simpa using hpre) hs

/-! ## Channels and interfaces that go -/

/-- A channel that closes expires the connections over it. -/
theorem findConnection_closeChannel (channel : Nat) (s : CServer) (c : SPartyID) :
    (s.closeChannel channel).findConnection c = (s.findConnection c).map (fun conn =>
      if conn.channel = channel then { conn with expired := true } else conn) := by
  rw [findConnection, closeChannel, List.find?_map, findConnection]
  refine congrArg (Option.map _) (List.find?_congr (fun conn _ => ?_))
  by_cases h : conn.channel = channel
  · simp only [Function.comp_apply, if_pos h]
  · simp only [Function.comp_apply, if_neg h]

/-- A channel that closes was that of no entry's client. -/
theorem allReached_closeChannel {cfg : Config} {channels : Bool} {p : UInt32 → Bool}
    {channel : Nat} {s : CServer} (h : AllReached channels p s)
    (hpre : s.stepReaches cfg channels p (.channelClosed channel) = true) :
    AllReached channels p (s.closeChannel channel) := by
  intro n hn hp
  have hold := h n hn hp
  unfold reaches at hold ⊢
  cases channels with
  | false =>
    rw [if_neg Bool.false_ne_true] at hold ⊢
    rw [isConnected, findConnection_closeChannel, Option.isSome_map]
    exact hold
  | true =>
    rw [if_pos rfl] at hold ⊢
    rw [stepReaches, Bool.not_true, Bool.false_or, List.all_eq_true] at hpre
    have hopen := hpre n hn
    rw [hp, Bool.not_true, Bool.false_or] at hopen
    rw [isLive] at hold
    rw [isLive, findConnection_closeChannel]
    cases hc : s.findConnection n.clientID with
    | none => rw [hc] at hold; exact hold
    | some conn =>
        rw [hc] at hopen hold
        have hne : conn.channel ≠ channel := by simpa using hopen
        rw [Option.map_some, if_neg hne]
        exact hold

/-- The entries of the connections that are cleaned up go. -/
theorem mNotifications_cleanup (conns : List ClientConnection) (s : CServer) :
    (conns.foldl cleanupClientConnection s).mNotifications =
      s.mNotifications.filter (fun n =>
        conns.all (fun conn => !isRemoved INVALID_ID conn.clientID n)) := by
  induction conns generalizing s with
  | nil => exact (List.filter_eq_self.mpr (fun _ _ => rfl)).symm
  | cons conn conns ih =>
      rw [List.foldl_cons, ih, cleanupClientConnection, removeNotification_eq]
      rw [List.filter_filter]
      exact List.filter_congr (fun n _ => by rw [List.all_cons, Bool.and_comm])

/-- The connections that are cleaned up cost notifications, and are reported. -/
theorem cleanup_eq (conns : List ClientConnection) (s : CServer) :
    ∃ l os, conns.foldl cleanupClientConnection s =
      { s with mNotifications := l, log := s.log ++ os } := by
  induction conns generalizing s with
  | nil => exact ⟨s.mNotifications, [], by rw [List.append_nil]; rfl⟩
  | cons conn conns ih =>
      obtain ⟨l, os, hos⟩ := ih (s.cleanupClientConnection conn)
      refine ⟨l, .clearNotification conn.notificationID :: os, ?_⟩
      rw [List.foldl_cons, hos]
      simp only [cleanupClientConnection, emit, removeNotification, removeNotificationBy,
        List.append_assoc, List.singleton_append]

/-- Their unblocked requests stay. -/
theorem mUnblockedSessions_cleanup (conns : List ClientConnection) (s : CServer) :
    (conns.foldl cleanupClientConnection s).mUnblockedSessions = s.mUnblockedSessions := by
  obtain ⟨l, os, hos⟩ := cleanup_eq conns s
  rw [hos]

/-- An interface that goes leaves no entry behind, if there is no unblocked request. -/
theorem allReached_unregisterInterface {cfg : Config} {channels : Bool} {p : UInt32 → Bool}
    {s : CServer} (h : AllReached channels p s)
    (hpre : s.stepReaches cfg channels p .unregisterInterface = true) :
    AllReached channels p s.unregisterInterface := by
  intro n hn hp
  rw [mem_held] at hn
  rcases hn with hn | ⟨u, hu, rfl⟩
  · -- the client of the entry has a connection, and so its entries are removed
    have hfilter := List.mem_filter.mp ((mNotifications_cleanup s.mClientConnections s) ▸ hn)
    have hc := isConnected_of_reaches (h n (mem_held.mpr (Or.inl hfilter.1)) hp)
    obtain ⟨conn, hconn⟩ := Option.isSome_iff_exists.mp hc
    have hnot := List.all_eq_true.mp hfilter.2 conn (List.mem_of_find?_eq_some hconn)
    rw [clientID_of_findConnection hconn] at hnot
    simp [isRemoved, SPartyID.opEq] at hnot
  · have hu' : u ∈ s.mUnblockedSessions :=
      (mUnblockedSessions_cleanup s.mClientConnections s) ▸ hu
    have hnot := List.all_eq_true.mp hpre u hu'
    simp [hp] at hnot

/-! ## The run -/

/-- At the beginning there is no entry. -/
theorem allReached_init (channels : Bool) (p : UInt32 → Bool) : AllReached channels p init :=
  fun _ hn => absurd hn List.not_mem_nil

/-- A step that meets the condition reaches the clients behind it as before. -/
theorem allReached_step {cfg : Config} {channels : Bool} {p : UInt32 → Bool} {s s' : CServer}
    {e : Event} (h : AllReached channels p s) (hpre : s.stepReaches cfg channels p e = true)
    (hs : step cfg s e = .ok s') : AllReached channels p s' := by
  cases e with
  | connect q => exact Except.ok.inj hs ▸ allReached_connect h q
  | disconnect c user => exact allReached_disconnect h hpre hs
  | detached id user => exact allReached_detached h hpre hs
  | dataRequest q user =>
      refine h.of_brings (brings_handleDataRequest hs) (fun id hid hp => ?_)
      rw [stepReaches, hid] at hpre
      simpa [hp] using hpre
  | user user => exact h.of_moves (moves_calls hs)
  | channelClosed channel => exact Except.ok.inj hs ▸ allReached_closeChannel h hpre
  | unregisterInterface => exact Except.ok.inj hs ▸ allReached_unregisterInterface h hpre
  | createId => exact Except.ok.inj hs ▸ h.of_moves (.of_eq rfl rfl rfl)

/-- Behind a run whose steps meet the condition every client is reached. -/
theorem allReached_run {cfg : Config} {channels : Bool} {p : UInt32 → Bool} {s s' : CServer}
    {es : List Event} (h : AllReached channels p s)
    (ha : Partial.Along (step cfg) (fun s e => s.stepReaches cfg channels p e = true) s es)
    (hrun : run cfg s es = .ok s') : AllReached channels p s' :=
  Partial.invariant (fun _ _ _ ht hpre hs => allReached_step ht hpre hs) h ha hrun

end CServer

end Dsi
