import Dsi.Client.ConnectSM
import Dsi.Server.Reached

/-!
# Dsi.Engine.Cleanup

The loss of a channel (`CCommEngine::Private::cleanupChannel`): every client connection of
every listed server that used the channel, and every listed client that did, are to be
detached.  `handleClientDetached` erases the connection that the traversal stands on, and
the traversal cannot go on from there.
-/

namespace Dsi

namespace CCommEngine

open CServer (ClientConnection)
open Sequence

/-! ## The engine -/

/-- A `weak_ptr` to a channel. -/
structure WeakChannel where
  channel : Nat
  expired : Bool := false
  deriving DecidableEq, Repr

/-- `!channel.expired() && channel.lock() == channel`. -/
def WeakChannel.locks (ref : WeakChannel) (channel : Nat) : Bool :=
  !ref.expired && ref.channel == channel

/-- A client with its channel, and how often it was detached. -/
structure AttachedClient where
  client : CClient := {}
  mChannel : WeakChannel
  detachCalls : Nat := 0
  deriving DecidableEq, Repr

/-- `CClient::detachInterface` of a client whose channel takes its disconnect request. -/
def AttachedClient.detachInterface (c : AttachedClient) : AttachedClient :=
  { c with
    client := { c.client with mConnector := none }.dropID, detachCalls := c.detachCalls + 1 }

/-- The lists of an engine, and the clients and servers that they point to. -/
structure Attached where
  mServerList : List Nat
  mClientList : List Nat
  servers : Nat → CServer
  clients : Nat → AttachedClient

/-- What breaks the process off: what does it in a server, and a step from an element
that was erased from the set. -/
inductive CleanupFault where
  | server (fault : CServer.Fault)
  | erasedElement
  deriving DecidableEq, Repr

namespace Attached

/-- The client connection uses the channel. -/
def uses (channel : Nat) (conn : ClientConnection) : Bool :=
  WeakChannel.locks ⟨conn.channel, conn.expired⟩ channel

/-- The traversal of `mClientConnections` from an element on; only elements in front of
`conns`, or the one it stands on, are erased meanwhile.  `user` has what the application
calls in the callbacks. -/
def cleanupServer (cfg : CServer.Config) (channel : Nat) :
    List ClientConnection → List (List (List CServer.UserCall)) → CServer →
      Except CleanupFault CServer
  | [], _, x => .ok x
  | conn :: conns, user, x =>
      if uses channel conn then
        match x.handleClientDetached cfg conn.id (user.headD []) with
        | .error fault => .error (.server fault)
        | .ok x' =>
            -- the element is gone if it is the one that was found by its ID
            if (x.mClientConnections.find? (fun c => c.id == conn.id)).any
                (fun c => c.clientID == conn.clientID) then
              .error .erasedElement
            else cleanupServer cfg channel conns user.tail x'
      else cleanupServer cfg channel conns user x

/-- The first loop of `cleanupChannel`. -/
def cleanupServers (cfg : CServer.Config) (channel : Nat)
    (user : Nat → List (List (List CServer.UserCall))) :
    List Nat → (Nat → CServer) → Except CleanupFault (Nat → CServer)
  | [], servers => .ok servers
  | p :: ps, servers =>
      match cleanupServer cfg channel (servers p).mClientConnections (user p) (servers p) with
      | .error fault => .error fault
      | .ok x => cleanupServers cfg channel user ps (fun q => if q = p then x else servers q)

/-- The second loop of `cleanupChannel`. -/
def cleanupClients (channel : Nat) :
    List Nat → (Nat → AttachedClient) → Nat → AttachedClient
  | [], clients => clients
  | p :: ps, clients =>
      cleanupClients channel ps fun q =>
        if q = p ∧ (clients p).mChannel.locks channel then (clients p).detachInterface
        else clients q

/-- `cleanupChannel`. -/
def cleanupChannel (cfg : CServer.Config) (channel : Nat)
    (user : Nat → List (List (List CServer.UserCall))) (s : Attached) :
    Except CleanupFault Attached :=
  match cleanupServers cfg channel user s.mServerList s.servers with
  | .error fault => .error fault
  | .ok servers =>
      .ok { s with servers := servers, clients := cleanupClients channel s.mClientList s.clients }

/-! ## Who is detached -/

/-- The clients and client connections that use the channel are detached once, and the
other ones are what they were. -/
structure DetachesAll (channel : Nat) (s s' : Attached) : Prop where
  connections : ∀ p ∈ s.mServerList, (s'.servers p).mClientConnections =
    (s.servers p).mClientConnections.filter (fun conn => !uses channel conn)
  others : ∀ p, p ∉ s.mServerList ∨ (s.servers p).mClientConnections.all (fun conn =>
    !uses channel conn) = true → s'.servers p = s.servers p
  clients : ∀ p, s'.clients p =
    if p ∈ s.mClientList ∧ (s.clients p).mChannel.locks channel then (s.clients p).detachInterface
    else s.clients p

/-- No server of the engine has a client connection on the channel, and no client on it is
listed twice. -/
def Unshared (channel : Nat) (s : Attached) : Prop :=
  (∀ p ∈ s.mServerList, ∀ conn ∈ (s.servers p).mClientConnections, uses channel conn = false) ∧
    ∀ p, (s.clients p).mChannel.locks channel = true → s.mClientList.count p ≤ 1

variable {cfg : CServer.Config} {channel : Nat}

/-! ### Servers -/

/-- `handleClientDetached` erases at most one connection: the first one with the client ID
of the one that it found. -/
theorem connections_handleClientDetached {id : Int32} {user : List (List CServer.UserCall)}
    {x x' : CServer} {conn : ClientConnection}
    (hconn : x.mClientConnections.find? (fun c => c.id == id) = some conn)
    (h : x.handleClientDetached cfg id user = .ok x') :
    x'.mClientConnections =
      x.mClientConnections.eraseP (fun c => c.clientID == conn.clientID) := by
  rw [CServer.handleClientDetached, hconn] at h
  obtain ⟨t, ht, hx'⟩ := Partial.bind_eq_ok h
  have hmoves : CServer.Moves x t :=
    (CServer.Moves.of_shrinks
      (CServer.shrinks_removeNotificationBy steady conn.clientID CServer.INVALID_ID x)).trans
      (CServer.moves_removeAllSessions ht)
  rw [← Except.ok.inj hx']
  exact congrArg (List.eraseP _) hmoves.connections

theorem cleanupServer_of_none {conns : List ClientConnection}
    (h : ∀ conn ∈ conns, uses channel conn = false) (user : List (List (List CServer.UserCall)))
    (x : CServer) : cleanupServer cfg channel conns user x = .ok x := by
  induction conns with
  | nil => rfl
  | cons conn conns ih =>
      rw [cleanupServer, h conn List.mem_cons_self, if_neg Bool.false_ne_true]
      exact ih (fun c hc => h c (List.mem_cons_of_mem _ hc))

theorem sublist_handleClientDetached {id : Int32} {user : List (List CServer.UserCall)}
    {x x' : CServer} (h : x.handleClientDetached cfg id user = .ok x') :
    x'.mClientConnections.Sublist x.mClientConnections := by
  cases hconn : x.mClientConnections.find? (fun c => c.id == id) with
  | none =>
      rw [CServer.handleClientDetached, hconn] at h
      cases h
      exact List.Sublist.refl _
  | some conn =>
      rw [connections_handleClientDetached hconn h]
      exact List.eraseP_sublist

/-- The traversal brings no connection. -/
theorem sublist_cleanupServer {conns : List ClientConnection}
    {user : List (List (List CServer.UserCall))} {x x' : CServer}
    (h : cleanupServer cfg channel conns user x = .ok x') :
    x'.mClientConnections.Sublist x.mClientConnections := by
  induction conns generalizing user x with
  | nil =>
      cases h
      exact List.Sublist.refl _
  | cons conn conns ih =>
      rw [cleanupServer] at h
      split at h
      · cases hdetached : x.handleClientDetached cfg conn.id (user.headD []) with
        | error fault =>
            rw [hdetached] at h
            cases h
        | ok t =>
            rw [hdetached] at h
            dsimp only at h
            split at h
            · cases h
            · exact (ih h).trans (sublist_handleClientDetached hdetached)
      · exact ih h

/-- A traversal that meets a connection on the channel and goes on has erased another one
in front of it. -/
theorem exists_lost_cleanupServer {front conns : List ClientConnection}
    {user : List (List (List CServer.UserCall))} {x x' : CServer}
    (hlist : x.mClientConnections = front ++ conns)
    (hfront : ∀ conn ∈ front, uses channel conn = false)
    (huses : ∃ conn ∈ conns, uses channel conn = true)
    (h : cleanupServer cfg channel conns user x = .ok x') :
    ∃ conn, uses channel conn = false ∧
      x'.mClientConnections.count conn < x.mClientConnections.count conn := by
  induction conns generalizing front user with
  | nil =>
      obtain ⟨_, hmem, -⟩ := huses
      exact absurd hmem List.not_mem_nil
  | cons conn conns ih =>
      rw [cleanupServer] at h
      cases hconn : uses channel conn with
      | false =>
          rw [hconn, if_neg Bool.false_ne_true] at h
          have hsplit : x.mClientConnections = (front ++ [conn]) ++ conns := by
            rw [hlist, List.append_assoc, List.singleton_append]
          refine ih hsplit ?_ ?_ h
          · intro c hc
            rcases List.mem_append.mp hc with hold | hnew
            · exact hfront c hold
            · exact List.mem_singleton.mp hnew ▸ hconn
          · obtain ⟨c, hc, hcuses⟩ := huses
            refine ⟨c, (List.mem_cons.mp hc).resolve_left (fun heq => ?_), hcuses⟩
            rw [heq, hconn] at hcuses
            exact Bool.false_ne_true hcuses
      | true =>
          rw [hconn, if_pos rfl] at h
          cases hdetached : x.handleClientDetached cfg conn.id (user.headD []) with
          | error fault =>
              rw [hdetached] at h
              cases h
          | ok t =>
              rw [hdetached] at h
              dsimp only at h
              split at h
              · cases h
              · next hother =>
                -- it was found in front of the element, so that it is not on the channel
                have hfound : ∃ d ∈ front,
                    x.mClientConnections.find? (fun c => c.id == conn.id) = some d := by
                  rw [hlist, List.find?_append]
                  cases hfind : front.find? (fun c => c.id == conn.id) with
                  | some d => exact ⟨d, List.mem_of_find?_eq_some hfind, rfl⟩
                  | none =>
                      refine absurd ?_ hother
                      rw [hlist, List.find?_append, hfind, Option.none_or,
                        List.find?_cons_of_pos (p := fun c : ClientConnection => c.id == conn.id)
                          (beq_self_eq_true conn.id), Option.any_some, beq_self_eq_true]
                obtain ⟨d, hd, hfind⟩ := hfound
                have herased := connections_handleClientDetached hfind hdetached
                have hself : (fun c : ClientConnection => c.clientID == d.clientID) d = true :=
                  beq_self_eq_true d.clientID
                obtain ⟨e, l₁, l₂, -, -, hsplit, hrest⟩ := List.exists_of_eraseP
                  (p := fun c : ClientConnection => c.clientID == d.clientID) hd hself
                have hefront : e ∈ front := hsplit ▸ List.mem_append_right _ List.mem_cons_self
                refine ⟨e, hfront e hefront, ?_⟩
                have hle := (sublist_cleanupServer h).count_le e
                rw [herased, hlist, List.eraseP_append_left
                  (p := fun c : ClientConnection => c.clientID == d.clientID) hself _ hd,
                  hrest] at hle
                have hcount : (front ++ conn :: conns).count e =
                    (l₁ ++ l₂ ++ conn :: conns).count e + 1 := by
                  rw [hsplit]
                  simp only [List.count_append, List.count_cons_self]
                  omega
                rw [hlist, hcount]
                exact Nat.lt_succ_of_le hle

theorem cleanupServers_of_none {user : Nat → List (List (List CServer.UserCall))} {ps : List Nat}
    {servers : Nat → CServer}
    (h : ∀ p ∈ ps, ∀ conn ∈ (servers p).mClientConnections, uses channel conn = false) :
    cleanupServers cfg channel user ps servers = .ok servers := by
  induction ps with
  | nil => rfl
  | cons p ps ih =>
      have hsame : (fun q => if q = p then servers p else servers q) = servers := by
        funext q
        split
        · next heq => rw [heq]
        · rfl
      rw [cleanupServers, cleanupServer_of_none (h p List.mem_cons_self)]
      dsimp only
      rw [hsame]
      exact ih (fun q hq => h q (List.mem_cons_of_mem _ hq))

theorem sublist_cleanupServers {user : Nat → List (List (List CServer.UserCall))} {ps : List Nat}
    {servers servers' : Nat → CServer}
    (h : cleanupServers cfg channel user ps servers = .ok servers') (q : Nat) :
    (servers' q).mClientConnections.Sublist (servers q).mClientConnections := by
  induction ps generalizing servers with
  | nil =>
      cases h
      exact List.Sublist.refl _
  | cons p ps ih =>
      rw [cleanupServers] at h
      cases hp : cleanupServer cfg channel (servers p).mClientConnections (user p) (servers p) with
      | error fault =>
          rw [hp] at h
          cases h
      | ok x =>
          rw [hp] at h
          have hrest := ih h
          split at hrest
          · next heq => exact hrest.trans (heq ▸ sublist_cleanupServer hp)
          · exact hrest

/-- A listed server with a connection on the channel loses one that is not. -/
theorem exists_lost_cleanupServers {user : Nat → List (List (List CServer.UserCall))}
    {ps : List Nat} {servers servers' : Nat → CServer} {q : Nat} (hq : q ∈ ps)
    (huses : ∃ conn ∈ (servers q).mClientConnections, uses channel conn = true)
    (h : cleanupServers cfg channel user ps servers = .ok servers') :
    ∃ conn, uses channel conn = false ∧
      (servers' q).mClientConnections.count conn < (servers q).mClientConnections.count conn := by
  induction ps generalizing servers with
  | nil => exact absurd hq List.not_mem_nil
  | cons p ps ih =>
      rw [cleanupServers] at h
      cases hp : cleanupServer cfg channel (servers p).mClientConnections (user p) (servers p) with
      | error fault =>
          rw [hp] at h
          cases h
      | ok x =>
          rw [hp] at h
          by_cases heq : q = p
          · subst heq
            obtain ⟨conn, hnot, hlt⟩ := exists_lost_cleanupServer
              (List.nil_append _).symm (fun _ hmem => absurd hmem List.not_mem_nil) huses hp
            have hsublist := sublist_cleanupServers h q
            rw [if_pos rfl] at hsublist
            exact ⟨conn, hnot, Nat.lt_of_le_of_lt (hsublist.count_le conn) hlt⟩
          · have hkept : (if q = p then x else servers q) = servers q := if_neg heq
            have hlater := ih ((List.mem_cons.mp hq).resolve_left heq) (hkept.symm ▸ huses) h
            rw [hkept] at hlater
            exact hlater

/-! ### Clients -/

theorem cleanupClients_of_not {ps : List Nat} {clients : Nat → AttachedClient} {q : Nat}
    (h : q ∉ ps ∨ (clients q).mChannel.locks channel = false) :
    cleanupClients channel ps clients q = clients q := by
  induction ps generalizing clients with
  | nil => rfl
  | cons p ps ih =>
      have hsame : (if q = p ∧ (clients p).mChannel.locks channel = true then
          (clients p).detachInterface else clients q) = clients q := by
        refine if_neg (fun hboth => ?_)
        rcases h with hnot | hfree
        · exact hnot (List.mem_cons.mpr (.inl hboth.1))
        · rw [hboth.1, hboth.2] at hfree
          exact Bool.noConfusion hfree
      rw [cleanupClients, ih (by
        rw [hsame]
        exact h.imp (fun hnot hmem => hnot (List.mem_cons_of_mem _ hmem)) id)]
      exact hsame

/-- A client on the channel is detached as often as it is listed. -/
theorem detachCalls_cleanupClients {ps : List Nat} {clients : Nat → AttachedClient} {q : Nat}
    (hlocks : (clients q).mChannel.locks channel = true) :
    (cleanupClients channel ps clients q).detachCalls =
      (clients q).detachCalls + ps.count q := by
  induction ps generalizing clients with
  | nil => rfl
  | cons p ps ih =>
      rw [cleanupClients]
      by_cases heq : p = q
      · subst heq
        rw [ih (by rw [if_pos ⟨rfl, hlocks⟩]; exact hlocks)]
        rw [if_pos ⟨rfl, hlocks⟩, List.count_cons_self, AttachedClient.detachInterface]
        dsimp only
        omega
      · have hne : ¬ (q = p ∧ (clients p).mChannel.locks channel = true) :=
          fun hboth => heq hboth.1.symm
        rw [ih (by rw [if_neg hne]; exact hlocks)]
        rw [if_neg hne, List.count_cons_of_ne heq]

theorem cleanupClients_of_once {ps : List Nat} {clients : Nat → AttachedClient} {q : Nat}
    (hlocks : (clients q).mChannel.locks channel = true) (honce : ps.count q = 1) :
    cleanupClients channel ps clients q = (clients q).detachInterface := by
  induction ps generalizing clients with
  | nil => exact absurd honce (by simp)
  | cons p ps ih =>
      rw [cleanupClients]
      by_cases heq : p = q
      · subst heq
        rw [List.count_cons_self] at honce
        have hnot : p ∉ ps := List.count_eq_zero.mp (Nat.succ.inj honce)
        rw [cleanupClients_of_not (.inl hnot)]
        exact if_pos ⟨rfl, hlocks⟩
      · have hne : ¬ (q = p ∧ (clients p).mChannel.locks channel = true) :=
          fun hboth => heq hboth.1.symm
        rw [List.count_cons_of_ne heq] at honce
        rw [ih (by rw [if_neg hne]; exact hlocks) honce]
        rw [if_neg hne]

/-! ## The loss of a channel -/

/-- Everybody on the lost channel is detached once, nobody else is touched, and the
traversals come to an end, exactly if no listed server has a client connection on it and
no client on it is listed twice. -/
theorem cleanupChannel_iff (cfg : CServer.Config) (channel : Nat)
    (user : Nat → List (List (List CServer.UserCall))) (s : Attached) :
    (∃ s', cleanupChannel cfg channel user s = .ok s' ∧ DetachesAll channel s s') ↔
      Unshared channel s := by
  rw [cleanupChannel]
  constructor
  · rintro ⟨s', hok, hdetaches⟩
    cases hservers : cleanupServers cfg channel user s.mServerList s.servers with
    | error fault =>
        rw [hservers] at hok
        cases hok
    | ok servers =>
        rw [hservers] at hok
        cases hok
        refine ⟨fun p hp => ?_, fun p hlocks => ?_⟩
        · refine Classical.byContradiction fun hnot => ?_
          have huses : ∃ conn ∈ (s.servers p).mClientConnections, uses channel conn = true := by
            refine Classical.byContradiction fun hnone => hnot fun conn hconn => ?_
            exact Bool.eq_false_iff.mpr fun hyes => hnone ⟨conn, hconn, hyes⟩
          obtain ⟨conn, hfree, hlt⟩ := exists_lost_cleanupServers hp huses hservers
          have hconnections := hdetaches.connections p hp
          dsimp only at hconnections
          rw [hconnections, List.count_filter (by rw [hfree]; rfl)] at hlt
          exact Nat.lt_irrefl _ hlt
        · have hclient := congrArg AttachedClient.detachCalls (hdetaches.clients p)
          dsimp only at hclient
          rw [detachCalls_cleanupClients hlocks] at hclient
          split at hclient
          · rw [AttachedClient.detachInterface] at hclient
            dsimp only at hclient
            omega
          · omega
  · rintro ⟨hfree, honce⟩
    rw [cleanupServers_of_none hfree]
    refine ⟨_, rfl, fun p hp => ?_, fun _ _ => rfl, fun p => ?_⟩
    · refine (List.filter_eq_self.mpr fun conn hconn => ?_).symm
      rw [hfree p hp conn hconn]
      rfl
    · by_cases hon : p ∈ s.mClientList ∧ (s.clients p).mChannel.locks channel = true
      · have hcount : s.mClientList.count p = 1 := by
          have hpos := List.count_pos_iff.mpr hon.1
          have hle := honce p hon.2
          omega
        rw [if_pos hon]
        exact cleanupClients_of_once hon.2 hcount
      · rw [if_neg hon]
        refine cleanupClients_of_not ?_
        by_cases hp : p ∈ s.mClientList
        · exact .inr (Bool.eq_false_iff.mpr fun hlocks => hon ⟨hp, hlocks⟩)
        · exact .inl hp

/-- A server with one client connection on the lost channel. -/
theorem not_cleanupChannel_one_connection :
    ¬ ∀ (cfg : CServer.Config) (channel : Nat) (user : Nat → List (List (List CServer.UserCall)))
      (s : Attached),
      ∃ s', cleanupChannel cfg channel user s = .ok s' ∧ DetachesAll channel s s' := by
  intro h
  let conn : ClientConnection :=
    { id := 1, clientID := ⟨5, 0⟩, serverID := ⟨7, 0⟩, notificationID := 0, channel := 3
      protoMinor := 0 }
  obtain ⟨s', hok, -⟩ := h { requestMethods := [], attributes := [] } 3 (fun _ => [])
    { mServerList := [0], mClientList := []
      servers := fun _ => { mClientConnections := [conn] }
      clients := fun _ => { mChannel := ⟨0, true⟩ } }
  have hfault := congrArg Partial.fault? hok
  change some CleanupFault.erasedElement = none at hfault
  cases hfault

end Attached

end CCommEngine

end Dsi
