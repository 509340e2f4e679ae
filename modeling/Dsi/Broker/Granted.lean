import Dsi.Broker.Access
import Dsi.Broker.Detach
import Dsi.Broker.Holdings

/-!
# Dsi.Broker.Granted

Where the client IDs of a connection come from.  An ID should be in the list of a
connection only if a successful attach returned it, and those that are detached at
the master when the connection closes should come from there.  The buffer of a job is
a union of request and reply, and the end of an attach adds the client ID in it
whatever the master answered: with an error that is a part of the interface name.
-/

namespace Dsi

open Sequence

/-- The client ID that the answer to a successful attach returns. -/
def Response.clientID? : Response → Option SPartyID
  | ⟨0, .connInfo info⟩ => some info.clientID
  | ⟨0, .attachExtended (some info) _⟩ => some info.clientID
  | _ => none

/-- The client ID that this broker assigns to a connection. -/
def Output.grantHere? : Output → Option (Nat × SPartyID)
  | .response c r => r.clientID?.map (c, ·)
  | _ => none

/-- The client ID that the master assigned, handed on to a connection. -/
def Output.grantMaster? : Output → Option (Nat × SPartyID)
  | .deferredResponse c r => r.clientID?.map (c, ·)
  | _ => none

namespace Broker

/-- The client IDs that this broker assigned. -/
def grantedHere (b : Broker) : List (Nat × SPartyID) := b.log.filterMap Output.grantHere?

/-- The client IDs that the master assigned. -/
def grantedByMaster (b : Broker) : List (Nat × SPartyID) := b.log.filterMap Output.grantMaster?

/-- Every ID in the client list of a connection was returned to it by an attach. -/
def ClientsGranted (b : Broker) : Prop :=
  ∀ c l, b.clientList c = some l → ∀ id ∈ l.elems,
    (c, id) ∈ b.grantedHere ∨ (c, id) ∈ b.grantedByMaster

section

variable {cfg : Config} {b b' b'' : Broker}

theorem granted_mono {p : Nat × SPartyID} (hlog : b.log <+: b'.log)
    (h : p ∈ b.grantedHere ∨ p ∈ b.grantedByMaster) :
    p ∈ b'.grantedHere ∨ p ∈ b'.grantedByMaster :=
  h.imp (fun hp => (hlog.sublist.filterMap _).subset hp)
    (fun hp => (hlog.sublist.filterMap _).subset hp)

/-! ## What comes into the client lists -/

/-- The client lists of `b'` hold what those of `b` hold, and what `A` allows. -/
def Within (A : Nat → SPartyID → Prop) (b b' : Broker) : Prop :=
  ∀ c l', b'.clientList c = some l' → ∃ l, b.clientList c = some l ∧
    ∀ id ∈ l'.elems, id ∈ l.elems ∨ A c id

variable {A A' : Nat → SPartyID → Prop}

theorem within_of_eq (h : ∀ c, b'.clientList c = b.clientList c) : Within A b b' :=
  fun c l' hl' => ⟨l', (h c).symm.trans hl', fun _ => Or.inl⟩

theorem Within.mono (h : Within A b b') (hA : ∀ c id, A c id → A' c id) : Within A' b b' := by
  intro c l' hl'
  obtain ⟨l, hl, hmem⟩ := h c l' hl'
  exact ⟨l, hl, fun id hid => (hmem id hid).imp_right (hA c id)⟩

theorem Within.trans (h : Within A b b') (h' : Within A b' b'') : Within A b b'' := by
  intro c l'' hl''
  obtain ⟨l', hl', hmem'⟩ := h' c l'' hl''
  obtain ⟨l, hl, hmem⟩ := h c l' hl'
  exact ⟨l, hl, fun id hid => (hmem' id hid).elim (hmem id) Or.inr⟩

theorem clientList_modifyData (c c' : Nat) (f : ClientSpecificData → ClientSpecificData)
    (b : Broker) : (b.modifyData c f).clientList c' =
      if c' = c then (b.data? c).map (fun d => (f d).mClientList) else b.clientList c' := by
  simp only [clientList, data?, modifyData, setConnection]
  split
  · rw [Option.map_map, Option.map_map]
    rfl
  · rfl

theorem Still.clientList (h : Still b b') (c : Nat) : b'.clientList c = b.clientList c :=
  h.map_conns (f := fun t => t.2.1) (fun _ => rfl) c

theorem within_addClient (c : Nat) (id : SPartyID) (b : Broker) :
    Within (fun c' x => c' = c ∧ x = id) b (b.modifyData c (·.addClient id)) := by
  intro c' l' hl'
  rw [clientList_modifyData] at hl'
  split at hl'
  · next hc =>
    obtain ⟨d, hd, rfl⟩ := Option.map_eq_some_iff.mp hl'
    obtain ⟨k, hk, rfl⟩ := Option.map_eq_some_iff.mp hd
    refine ⟨k.data.mClientList, by rw [clientList, hc, hk]; rfl, fun x hx => ?_⟩
    rcases OrderedSet.mem_of_mem_insertElem hx with rfl | hx
    · exact Or.inr ⟨hc, rfl⟩
    · exact Or.inl hx
  · exact ⟨l', hl', fun _ => Or.inl⟩

theorem within_removeClient (c : Nat) (id : SPartyID) (b : Broker) :
    Within A b (b.modifyData c (·.removeClient id)) := by
  intro c' l' hl'
  rw [clientList_modifyData] at hl'
  split at hl'
  · next hc =>
    obtain ⟨d, hd, rfl⟩ := Option.map_eq_some_iff.mp hl'
    obtain ⟨k, hk, rfl⟩ := Option.map_eq_some_iff.mp hd
    refine ⟨k.data.mClientList, by rw [clientList, hc, hk]; rfl, fun x hx => Or.inl ?_⟩
    exact (List.mem_filter.mp hx).1
  · exact ⟨l', hl', fun _ => Or.inl⟩

/-- Only the move for a new client lets an ID in. -/
theorem Moves.within {c : Nat} {L : List MoveLabel} (h : Moves cfg c L b b')
    (hL : .addClient ∉ L) : Within A b b' := by
  refine h.preserves (I := Within A b) ?_ (within_of_eq (fun _ => rfl))
  intro l hl b₁ b₂ hm hb
  refine hb.trans ?_
  by_cases hparty : l = .server ∨ l = .removeClient
  · cases hm with
    | addServer => exact within_of_eq (map_conns_modifyData (by intro; rfl) b₁)
    | removeServer => exact within_of_eq (map_conns_modifyData (by intro; rfl) b₁)
    | removeClient _ id => exact within_removeClient c id b₁
    | _ => simp at hparty
  · refine within_of_eq (fun c' => ?_)
    have hparties := congrArg (Option.map Prod.snd) (hm.parties (fun he => hparty (Or.inl he))
      (fun he => hL (he ▸ hl)) (fun he => hparty (Or.inr he)) c')
    rwa [Option.map_map, Option.map_map] at hparties

theorem ClientsGranted.within (h : ClientsGranted b) (hw : Within A b b')
    (hlog : b.log <+: b'.log)
    (hA : ∀ c id, A c id → (c, id) ∈ b'.grantedHere ∨ (c, id) ∈ b'.grantedByMaster) :
    ClientsGranted b' := by
  intro c l' hl' id hid
  obtain ⟨l, hl, hmem⟩ := hw c l' hl'
  rcases hmem id hid with hold | hnew
  · exact granted_mono hlog (h c l hl id hold)
  · exact hA c id hnew

/-! ## Attaching -/

/-- What the handler lets into the client lists it returns. -/
def AttachReturns (ctx : SocketConnectionContext) (s : Broker × Option Response) (c : Nat)
    (id : SPartyID) : Prop := c = ctx.mId ∧ s.2.bind Response.clientID? = some id

theorem within_handleAttachLocalInterface (cfg : Config) (ctx : SocketConnectionContext)
    (e : ServerListEntry) (b : Broker) :
    Within (fun c id => c = ctx.mId ∧
        (b.handleAttachLocalInterface cfg ctx e).1.map (·.clientID) = some id) b
      (b.handleAttachLocalInterface cfg ctx e).2 := by
  unfold handleAttachLocalInterface
  split
  · unfold addClient
    dsimp only
    split
    · refine (within_addClient ctx.mId (b.nextClientIDFor cfg e.partyID) _).mono ?_
      rintro c id ⟨hc, rfl⟩
      exact ⟨hc, rfl⟩
    · exact within_of_eq (fun _ => rfl)
  · exact within_of_eq (fun _ => rfl)

theorem within_handleAttachInterface (cfg : Config) (ctx : SocketConnectionContext)
    (d : InterfaceDescription) (b : Broker) :
    Within (AttachReturns ctx (b.handleAttachInterface cfg ctx d)) b
      (b.handleAttachInterface cfg ctx d).1 := by
  unfold handleAttachInterface
  split
  · split
    · next entry _ =>
      have hlocal := within_handleAttachLocalInterface cfg ctx entry b
      dsimp only
      split
      · next info hinfo =>
        rw [hinfo] at hlocal
        exact hlocal.mono (fun c id hid => ⟨hid.1, hid.2⟩)
      · next hnone =>
        rw [hnone] at hlocal
        exact hlocal.mono (fun c id hid => nomatch hid.2)
    · split
      · exact within_of_eq (fun _ => rfl)
      · exact within_of_eq (fun _ => rfl)
  · exact within_of_eq (fun _ => rfl)

/-- The disconnect notification of an extended attach can be set. -/
def canWatch (cfg : Config) (ctx : SocketConnectionContext) (pulse : SFNDPulseInfo) (b : Broker) :
    Bool :=
  attaches cfg ctx pulse b && UInt32.ofNat (b.sNextNotificationID + 1) != INVALID_NOTIFICATION_ID

theorem notifyServerDisconnect_isSome {ctx : SocketConnectionContext} {pulse : SFNDPulseInfo}
    (serverID : SPartyID) (h : b.canWatch cfg ctx pulse = true) :
    (b.handleNotifyServerDisconnectNoResponse cfg ctx serverID pulse).1.isSome = true := by
  obtain ⟨hattaches, hid⟩ := Bool.and_eq_true_iff.mp h
  have hadd :
    (b.addParty cfg .serverDisconnect serverID ctx pulse).1 ≠ INVALID_NOTIFICATION_ID := by
    rw [addParty, addNotification_eq, if_pos hattaches]
    simpa using hid
  unfold handleNotifyServerDisconnectNoResponse
  dsimp only
  rw [if_neg hadd]
  split
  · rfl
  · split <;> rfl

theorem attachLocal_frame (cfg : Config) (ctx : SocketConnectionContext) (e : ServerListEntry)
    (b : Broker) : (b.handleAttachLocalInterface cfg ctx e).2.attachCalls = b.attachCalls ∧
      (b.handleAttachLocalInterface cfg ctx e).2.sNextNotificationID = b.sNextNotificationID := by
  unfold handleAttachLocalInterface addClient
  split
  · dsimp only
    split <;> exact ⟨rfl, rfl⟩
  · exact ⟨rfl, rfl⟩

theorem within_handleAttachInterfaceExtended (ctx : SocketConnectionContext)
    (pulse : SFNDPulseInfo) {d : InterfaceDescription} {stackPulse : SFNDPulseInfo}
    (h : b.attachesHere cfg ctx d = true → b.canWatch cfg ctx stackPulse = true) :
    Within (AttachReturns ctx (b.handleAttachInterfaceExtended cfg ctx pulse d stackPulse)) b
      (b.handleAttachInterfaceExtended cfg ctx pulse d stackPulse).1 := by
  unfold handleAttachInterfaceExtended
  split
  · next hcheck =>
    split
    · next entry hfind =>
      have hlocal := within_handleAttachLocalInterface cfg ctx entry b
      have hframe := attachLocal_frame cfg ctx entry b
      dsimp only
      split
      · next hnone =>
        rw [hnone] at hlocal
        exact hlocal.mono (fun c id hid => nomatch hid.2)
      · next info hinfo =>
        have hmay : mayAttach cfg ctx entry = true := by
          by_contra hnot
          unfold handleAttachLocalInterface at hinfo
          rw [if_neg (by simpa [mayAttach] using hnot)] at hinfo
          cases hinfo
        have hwatch : (b.handleAttachLocalInterface cfg ctx entry).2.canWatch cfg ctx
            stackPulse = true := by
          rw [canWatch, attaches, hframe.1, hframe.2]
          exact h (by simp [attachesHere, hcheck, hfind, hmay])
        have hsome := notifyServerDisconnect_isSome entry.partyID hwatch
        have hrest := (moves_notifyServerDisconnect cfg ctx entry.partyID stackPulse
          (b.handleAttachLocalInterface cfg ctx entry).2).within
            (A := fun _ _ => False) (by simp [notifyMoves])
        rw [hinfo] at hlocal
        split
        · refine (hlocal.trans (hrest.mono (fun _ _ => False.elim))).mono ?_
          exact fun c id hid => ⟨hid.1, hid.2⟩
        · next hnone =>
          rw [hnone] at hsome
          cases hsome
    · split
      · have hrest := (moves_notifyServerAvailable cfg ctx pulse d b).within
          (A := fun _ _ => False) (by simp [notifyMoves])
        dsimp only
        split <;> exact hrest.mono (fun _ _ => False.elim)
      · exact (moves_forwardAttachExtendedToMaster cfg ctx pulse d b).within
          (by simp [notifyMoves])
  · exact within_of_eq (fun _ => rfl)

/-- In an extended attach to a server that is here the disconnect notification can be set. -/
def requestGrants (cfg : Config) (ctx : SocketConnectionContext) (r : Request) (b : Broker) :
    Bool :=
  match r with
  | .attachInterfaceExtended _ d stackPulse =>
      !b.attachesHere cfg ctx d || b.canWatch cfg ctx stackPulse
  | _ => true

theorem within_dispatch (ctx : SocketConnectionContext) {r : Request}
    (h : b.requestGrants cfg ctx r = true) :
    Within (AttachReturns ctx (b.dispatch cfg ctx r)) b (b.dispatch cfg ctx r).1 := by
  have hmoves := moves_dispatch cfg ctx r b
  cases r with
  | attachInterface d => exact within_handleAttachInterface cfg ctx d b
  | attachInterfaceExtended pulse d stackPulse =>
      refine within_handleAttachInterfaceExtended ctx pulse (fun hhere => ?_)
      simpa [requestGrants, hhere] using h
  | _ => exact hmoves.within (by simp [moveLabels, serverMoves, detachMoves, notifyMoves])

/-- What a request lets into a client list it returns to the connection. -/
theorem ClientsGranted.request (hb : ClientsGranted b) (c : Nat) (r : Request)
    (hlog : b.log <+: (b.request cfg c r).log)
    (h : ∀ k, b.conns c = some k → k.deferred = false →
      b.requestGrants cfg (k.ctx c) r = true) : ClientsGranted (b.request cfg c r) := by
  rcases request_still cfg c r b with hsame | ⟨k, hk, hdeferred, hbreaks, hstill⟩
  · rw [hsame]
    exact hb
  · have hdispatch := within_dispatch (k.ctx c) (h k hk hdeferred)
    refine hb.within (hdispatch.trans (within_of_eq hstill.clientList)) hlog ?_
    rintro c' id ⟨hc, hid⟩
    obtain rfl : c' = c := hc
    obtain ⟨resp, hresp, hclient⟩ := Option.bind_eq_some_iff.mp hid
    refine Or.inl (List.mem_filterMap.mpr ⟨.response c' resp, ?_, ?_⟩)
    · simp [Broker.request, hk, hdeferred, hbreaks, hresp, emit]
    · simp [Output.grantHere?, hclient]

/-! ## The end of an attach -/

/-- The end of an attach that succeeded returns the ID that it lets in. -/
theorem ClientsGranted.endsAttach (hb : ClientsGranted b) (hzero : b.conns 0 = none) {job : Job}
    {res : JobResult} (hends : Broker.endsAttach job res = true) (hok : res.ret_val = 0)
    (hlog : b.log <+: (b.handleJobFinished cfg job res).log) :
    ClientsGranted (b.handleJobFinished cfg job res) := by
  rw [handleJobFinished_of_endsAttach cfg hends, hok] at hlog ⊢
  have hstill := still_finalize job ⟨0, 0, .connInfo res.connInfo⟩
    (b.modifyData (job.ctx.getD 0) (·.addClient res.connInfo.clientID))
  have hwithin := (within_addClient (job.ctx.getD 0) res.connInfo.clientID b).trans
    (within_of_eq hstill.clientList)
  intro c l' hl' id hid
  obtain ⟨l, hl, hmem⟩ := hwithin c l' hl'
  rcases hmem id hid with hold | ⟨hc, rfl⟩
  · exact granted_mono hlog (hb c l hl id hold)
  · obtain ⟨k, hk, _⟩ := Option.map_eq_some_iff.mp hl
    cases hctx : job.ctx with
    | none =>
        rw [hctx] at hc
        obtain rfl : c = 0 := hc
        rw [hzero] at hk
        cases hk
    | some c₁ =>
        rw [hctx] at hc
        obtain rfl : c = c₁ := hc
        refine Or.inr (List.mem_filterMap.mpr
          ⟨.deferredResponse c ⟨0, .connInfo res.connInfo⟩, ?_, rfl⟩)
        simp [finalize, hctx, modifyData, setConnection, hk, emit, JobReply.response]

/-! ## Closing -/

theorem detachJobs_clearServer (cfg : Config) (b : Broker) (id : SPartyID) :
    (b.clearServer cfg id).detachJobs = b.detachJobs ∧
      (b.clearServer cfg id).isMasterConnected cfg = b.isMasterConnected cfg := by
  unfold clearServer unregisterInterfaceMaster
  split
  · exact ⟨rfl, rfl⟩
  · split
    · refine ⟨?_, rfl⟩
      show (Broker.eval _ b).detachJobs = _
      rw [detachJobs, jobs_eval, List.filterMap_append]
      simp [detachJobs, Job.detachID?]
    · exact ⟨rfl, rfl⟩

theorem detachJobs_clearClient (cfg : Config) (b : Broker) (id : SPartyID) :
    (b.clearClient cfg id).detachJobs =
        b.detachJobs ++ (if b.isMasterConnected cfg then [id] else []) ∧
      (b.clearClient cfg id).isMasterConnected cfg = b.isMasterConnected cfg := by
  have hsame : isMasterConnected cfg { b with
      mAttachedClients := b.mAttachedClients.remove id } = b.isMasterConnected cfg := rfl
  unfold clearClient evalMaster
  dsimp only
  rw [hsame]
  split
  · refine ⟨?_, rfl⟩
    rw [detachJobs, jobs_eval, List.filterMap_append]
    rfl
  · exact ⟨(List.append_nil _).symm, rfl⟩

/-- With a master every client of the connection is detached there. -/
theorem detachJobs_clear (cfg : Config) (c : Nat) (b : Broker) :
    (b.clear cfg c).detachJobs = b.detachJobs ++
      (if b.isMasterConnected cfg then (b.dataOf c).mClientList.elems else []) := by
  have hservers (l : List SPartyID) (b : Broker) :
      (l.foldl (clearServer cfg) b).detachJobs = b.detachJobs ∧
        (l.foldl (clearServer cfg) b).isMasterConnected cfg = b.isMasterConnected cfg := by
    induction l generalizing b with
    | nil => exact ⟨rfl, rfl⟩
    | cons x xs ih =>
        obtain ⟨hjobs, hmaster⟩ := detachJobs_clearServer cfg b x
        exact ⟨(ih _).1.trans hjobs, (ih _).2.trans hmaster⟩
  have hclients (l : List SPartyID) (b : Broker) :
      (l.foldl (clearClient cfg) b).detachJobs =
        b.detachJobs ++ (if b.isMasterConnected cfg then l else []) := by
    induction l generalizing b with
    | nil => simp
    | cons x xs ih =>
        obtain ⟨hjobs, hmaster⟩ := detachJobs_clearClient cfg b x
        rw [List.foldl_cons, ih, hjobs, hmaster]
        split <;> simp
  have hparties : (b.clearParties cfg c).detachJobs = b.detachJobs ++
      (if b.isMasterConnected cfg then (b.dataOf c).mClientList.elems else []) := by
    obtain ⟨hjobs, hmaster⟩ := hservers (b.dataOf c).mServerList.elems b
    rw [clearParties, hclients, hjobs, hmaster]
  rw [clear_eq, ← hparties]
  simp only [triggerAll, removeNotificationsOf, triggerList]
  split <;> simp only [detachJobs_sweep]

/-! ## Runs -/

/-- An extended attach to a server that is here can set its disconnect notification, the
master answers an attach with success, and a connection that is closed while the master is
connected holds no client ID that this broker assigned. -/
def grantsKept (cfg : Config) (b : Broker) : Event → Bool
  | .request c r =>
      (b.conns c).all (fun k => k.deferred || b.requestGrants cfg (k.ctx c) r)
  | .deliver =>
      match b.pipe with
      | .jobExecuted job res :: _ => !endsAttach job res || res.ret_val == 0
      | _ => true
  | .closed c =>
      (b.conns c).all (fun k => k.held || !b.isMasterConnected cfg ||
        k.data.mClientList.elems.all (fun id => !b.grantedHere.contains (c, id)))
  | _ => true

theorem ClientsGranted.step (hb : ClientsGranted b) (hattach : b.mPendingAttachExtendedJobs = [])
    (hzero : b.conns 0 = none) {e : Event} (he : b.grantsKept cfg e = true) :
    ClientsGranted (b.step cfg e) := by
  have hlog : b.log <+: (b.step cfg e).log := by
    obtain ⟨as, ⟨os, hos, _⟩, _⟩ := gives_step cfg hattach e
    exact ⟨os, hos.symm⟩
  have hquiet (hfrom : fromConnection e = false)
      (hopen : ∀ node loc uid, e ≠ .connected node loc uid) (hends : b.attachEnds e = false) :
      ClientsGranted (b.step cfg e) := by
    obtain ⟨c, hm⟩ := moves_quiet_step cfg hattach hfrom hopen hends
    exact hb.within (A := fun _ _ => False) (hm.within (by simp [quietMoves])) hlog
      (fun _ _ => False.elim)
  cases e with
  | connected node loc uid =>
      intro c l' hl' id hid
      simp only [Broker.step, openConnection, setConnection, clientList] at hl'
      split at hl'
      · obtain rfl := Option.some.inj hl'
        cases hid
      · exact granted_mono hlog (hb c l' hl' id hid)
  | request c r =>
      refine hb.request c r hlog (fun k hk hdeferred => ?_)
      simpa [grantsKept, hk, hdeferred] using he
  | closed c =>
      rcases closeConnection_cases cfg c b with hsame | ⟨k, hk, _, hclose⟩
      · exact hb.within (A := fun _ _ => False)
          (within_of_eq (fun c' => by rw [Broker.step, hsame]))
          hlog (fun _ _ => False.elim)
      · refine hb.within (A := fun _ _ => False) ?_ hlog (fun _ _ => False.elim)
        rw [Broker.step, hclose]
        intro c' l' hl'
        have hclear : (b.clear cfg c).clientList c' = b.clientList c' :=
          (clear_frame (g := fun k => k.data.mClientList) (fun _ => rfl) cfg c b c').2.1.trans
            ((still_clearParties cfg c b).clientList c')
        simp only [clientList, setConnection] at hl' hclear
        split at hl'
        · cases hl'
        · exact ⟨l', hclear.symm.trans hl', fun _ => Or.inl⟩
  | pulse => exact hquiet rfl (by simp) rfl
  | deliver =>
      cases hends : b.attachEnds .deliver with
      | false => exact hquiet rfl (by simp) hends
      | true =>
          simp only [attachEnds] at hends
          split at hends
          · next job res hdelivered =>
            obtain ⟨rest, hpipe, hstep⟩ := deliver_of_some cfg hdelivered
            have hok : res.ret_val = 0 := by simpa [grantsKept, hpipe, hends] using he
            rw [hstep] at hlog ⊢
            have hrest : ClientsGranted { b with pipe := rest } := hb
            exact hrest.endsAttach hzero hends hok hlog
          · cases hends
  | worker => exact hquiet rfl (by simp) rfl

end

theorem clientsGranted_run {cfg : Config} {es : List Event}
    (h : Run.Along (step cfg) (fun b e => b.grantsKept cfg e = true) init es) :
    ClientsGranted (Run.run (step cfg) init es) := by
  induction es using List.reverseRecOn with
  | nil => intro c l hl; cases hl
  | append_singleton es e ih =>
      obtain ⟨hes, he⟩ := Run.along_append.mp h
      rw [Run.run_append]
      exact (ih hes).step (attachJobs_run cfg es) (conns_zero_run cfg es).1 he.1

/-- In every run that meets the condition, the client list of each connection holds only
IDs that a successful attach returned to it, and when a connection closes only IDs that
the master assigned to it are detached there. -/
theorem clients_granted_of_along (cfg : Config) (es : List Event)
    (h : Run.Along (step cfg) (fun b e => b.grantsKept cfg e = true) init es) :
    ClientsGranted (Run.run (step cfg) init es) ∧
      ∀ es₁ c es₂, es = es₁ ++ .closed c :: es₂ →
        let b := Run.run (step cfg) init es₁
        ∃ ids, (b.step cfg (.closed c)).detachJobs = b.detachJobs ++ ids ∧
          ∀ id ∈ ids, (c, id) ∈ b.grantedByMaster := by
  refine ⟨clientsGranted_run h, ?_⟩
  rintro es₁ c es₂ rfl
  intro b
  obtain ⟨hes, he⟩ := Run.along_append.mp h
  have hgranted := clientsGranted_run hes
  rcases closeConnection_cases cfg c b with hsame | ⟨k, hk, hheld, hclose⟩
  · exact ⟨[], by rw [Broker.step, hsame, List.append_nil], by simp⟩
  · refine ⟨_, (congrArg detachJobs (show b.step cfg (.closed c) = _ from hclose)).trans
      (detachJobs_clear cfg c b), fun id hid => ?_⟩
    split at hid
    · next hmaster =>
      rw [dataOf_eq hk] at hid
      have hok : (c, id) ∉ b.grantedHere := by
        have hc := he.1
        have hk' : (Run.run (Broker.step cfg) init es₁).conns c = some k := hk
        have hmaster' : (Run.run (Broker.step cfg) init es₁).isMasterConnected cfg = true := hmaster
        simp only [grantsKept, hk', hheld, hmaster', Option.all_some, Bool.not_true,
          Bool.false_or, List.all_eq_true] at hc
        simpa using hc id hid
      exact (hgranted c k.data.mClientList (by rw [clientList, hk]; rfl) id hid).resolve_left hok
    · cases hid

/-- The client of a server at the master goes. -/
theorem clients_granted_remote :
    let es := slaveWithTwoClients ++ remoteAttach
    let b := Run.run (step slaveConfig) init es
    ClientsGranted b ∧ (b.clientList 2).map (·.elems) = some [⟨100001, 1000⟩] ∧
      (b.step slaveConfig (.closed 2)).detachJobs = [⟨100001, 1000⟩] ∧
      ∃ ids, (b.step slaveConfig (.closed 2)).detachJobs = b.detachJobs ++ ids ∧
        ∀ id ∈ ids, (2, id) ∈ b.grantedByMaster :=
  ⟨(clients_granted_of_along slaveConfig (slaveWithTwoClients ++ remoteAttach) (by decide)).1,
    by decide, by decide, (clients_granted_of_along slaveConfig
      (slaveWithTwoClients ++ remoteAttach ++ [.closed 2]) (by decide)).2 _ 2 [] rfl⟩

/-- The letters from `A` to `X`. -/
def letters : CString := (List.range 24).map (fun i => UInt8.ofNat (65 + i))

/-- The master does not know the interface and answers without a body.  What is left in
the buffer is the request: the version of the servicebroker, that of the interface, and
the letters of its name, 20 of them before the place of the client ID. -/
def refusedReply : JobResult where
  status := 0
  ret_val := SBStatus.FNDUnknownInterface.toInt
  connInfo := ⟨4, 0, ⟨1, 0x44434241, 0x48474645⟩, ⟨0x4c4b4a49, 0x504f4e4d⟩,
    ⟨0x54535251, 0x58575655⟩⟩

/-- An attach that the master refuses puts letters of the interface name into the client
list, and when the connection closes the master is asked to detach them. -/
theorem not_clients_granted_refused :
    let b := Run.run (step slaveConfig) init (slaveWithTwoClients ++
      [.request 1 (.attachInterface ⟨letters, 1, 0⟩), .worker .pop,
        .worker (.finish refusedReply), .deliver])
    let b' := b.step slaveConfig (.closed 1)
    ¬ ClientsGranted b ∧ b.grantedHere = [] ∧ b.grantedByMaster = [] ∧
      b'.detachJobs = b.detachJobs ++ [⟨0x54535251, 0x58575655⟩] := by
  intro b b'
  refine ⟨fun h => ?_, by decide, by decide, by decide⟩
  have hlist : (b.clientList 1).map (·.elems) = some [⟨0x54535251, 0x58575655⟩] := by decide
  obtain ⟨l, hl, helems⟩ := Option.map_eq_some_iff.mp hlist
  have hid := h 1 l hl ⟨0x54535251, 0x58575655⟩ (by simp [helems])
  revert hid
  decide

end Broker

end Dsi
