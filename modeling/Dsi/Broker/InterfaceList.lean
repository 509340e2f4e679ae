import Dsi.Broker.Tree
import Mathlib.Data.List.Dedup

/-!
# Dsi.Broker.InterfaceList

The list of the interfaces, from the tables of the brokers to the buffer of a caller of
the client library.  A broker without a master answers from its table; a slave asks its
master, which may be a slave itself, and appends what it does not forward.

Counts travel as negative return codes beside the errors, which are positive but for
the one about regular expressions.  The sign is turned by `MasterConnectorSocket::execute`,
by `handleJobFinished` and by the client library.
-/

namespace Dsi

open Broker

/-! ## Asking one broker -/

/-- What is asked for: every interface, or those whose names match an expression. -/
inductive ListQuery where
  | all
  | matching (regExpr : CString)
  deriving DecidableEq, Repr

/-- The request for a buffer of `inCount` elements. -/
def ListQuery.request (inCount : Int32) : ListQuery → Request
  | .all => .getInterfaceList inCount
  | .matching regExpr => .matchInterfaceList inCount regExpr

/-- The descriptions in a response. -/
def Response.interfaces (r : Response) : List InterfaceDescription :=
  match r.body with
  | .interfaces l => l
  | _ => []

/-- A response that carries no list. -/
def Response.isError (r : Response) : Bool :=
  match r.body with
  | .interfaces _ => false
  | _ => true

namespace Broker

/-- `sendAndReceive` of a list job: the buffer has room for one more than was asked for,
and `memory` is behind what was received.  It fails where no response comes. -/
def received (memory : Nat → InterfaceDescription) (inCount : Int32) :
    Option Response → JobResult
  | some r =>
      { status := 0
        ret_val := r.returncode
        interfaceDescriptions := fun i =>
          ((r.interfaces.take (inCount.toInt.toNat + 1))[i]?).getD (memory i) }
  | none => { status := -1, ret_val := 0, interfaceDescriptions := memory }

end Broker

/-! ## Brokers and their masters -/

/-- `regcomp` and `regexec`. -/
structure RegExp where
  regcomp : CString → Bool
  regexec : CString → CString → Bool

/-- A broker that uses them. -/
structure Node (R : RegExp) where
  cfg : Config
  broker : Broker
  regcomp : cfg.regcomp = R.regcomp
  regexec : cfg.regexec = R.regexec

namespace Node

variable {R : RegExp}

/-- The server table. -/
def entries (n : Node R) : List ServerListEntry := n.broker.mConnectedServers.entries

/-- An entry that the master does not know: `handleJobFinished` appends it. -/
def keeps (n : Node R) (e : ServerListEntry) : Bool :=
  e.isLocal || !n.cfg.forwardService e.ifDescription.name

end Node

/-- A broker and the masters above it.  A slave has a connection at its master, which knows
it as a slave; `memory` is what stands in the buffer of its job. -/
inductive Topology (R : RegExp) where
  | root (n : Node R) (h : n.broker.isMasterConnected n.cfg = false)
  | slave (n : Node R) (h : n.broker.isMasterConnected n.cfg = true)
      (ctx : SocketConnectionContext) (hctx : ctx.mSlave = true)
      (memory : Nat → InterfaceDescription) (master : Topology R)

/-- Is the entry asked for?  What does not compile matches nothing. -/
def ListQuery.finds (R : RegExp) (e : ServerListEntry) : ListQuery → Bool
  | .all => true
  | .matching regExpr => R.regcomp regExpr && R.regexec regExpr e.ifDescription.name

namespace Topology

variable {R : RegExp}

/-- The response to a caller.  A slave that asks its master answers when the job is
finished; a broker whose process breaks off does not answer. -/
def answer (q : ListQuery) (inCount : Int32) :
    Topology R → SocketConnectionContext → Option Response
  | .root n _, ctx =>
      if n.broker.breaksOff n.cfg (q.request inCount) then none
      else (n.broker.dispatch n.cfg ctx (q.request inCount)).2
  | .slave n _ ctx' _ memory master, ctx =>
      if n.broker.breaksOff n.cfg (q.request inCount) then none
      else
        let s := n.broker.dispatch n.cfg ctx (q.request inCount)
        match s.2, s.1.mQueue.getLast? with
        | some r, _ => some r
        | none, some job =>
            some (s.1.jobResult n.cfg job
              (execute (received memory inCount (master.answer q inCount ctx')))).response
        | none, none => none

/-- The interfaces that a caller may see: a slave is not shown what is local. -/
def visible (q : ListQuery) : Topology R → SocketConnectionContext → List InterfaceDescription
  | .root n _, ctx =>
      (n.entries.filter (fun e => q.finds R e && listVisible ctx e)).map (·.ifDescription)
  | .slave n _ ctx' _ _ master, ctx =>
      master.visible q ctx' ++
        (n.entries.filter (fun e => n.keeps e && q.finds R e && listVisible ctx e)).map
          (·.ifDescription)

end Topology

/-! ## The client library -/

/-- What a call leaves: the value returned, `*outCount` and what was received. -/
structure ListCall where
  rc : Int
  outCount : Int
  ifs : List InterfaceDescription
  deriving DecidableEq, Repr

/-- The common part of `SBGetInterfaceList` and `SBMatchInterfaceList`. -/
def listCall (inCount : Int32) (outCount : Int) (r : Option Response) : ListCall :=
  if 0 < inCount.toInt then
    match r with
    | some r =>
        let ifs := r.interfaces.take inCount.toInt.toNat
        if r.returncode < 0 then ⟨0, -r.returncode, ifs⟩ else ⟨r.returncode, outCount, ifs⟩
    | none => ⟨-1, outCount, []⟩
  else ⟨-1, outCount, []⟩

/-- `SBGetInterfaceList`. -/
def sbGetInterfaceList (send : ListQuery → Int32 → Option Response) (inCount : Int32)
    (outCount : Int) : ListCall :=
  listCall inCount outCount (send .all inCount)

/-- `SBMatchInterfaceList`: the expression is cut at the end of its field. -/
def sbMatchInterfaceList (send : ListQuery → Int32 → Option Response) (regExpr : CString)
    (inCount : Int32) (outCount : Int) : ListCall :=
  listCall inCount outCount (send (.matching (regExpr.take (NAME_MAX + 1))) inCount)

namespace Topology

variable {R : RegExp}

/-- The query as the broker gets it. -/
def sent : ListQuery → ListQuery
  | .all => .all
  | .matching regExpr => .matching (regExpr.take (NAME_MAX + 1))

/-- The call of a client of the first broker. -/
def call (T : Topology R) (ctx : SocketConnectionContext) (inCount : Int32) (outCount : Int) :
    ListQuery → ListCall
  | .all => sbGetInterfaceList (fun q n => T.answer q n ctx) inCount outCount
  | .matching regExpr =>
      sbMatchInterfaceList (fun q n => T.answer q n ctx) regExpr inCount outCount

/-- The errors of the masters are not read as counts. -/
def ErrorsKept (q : ListQuery) (inCount : Int32) : Topology R → Prop
  | .root .. => True
  | .slave _ _ ctx _ memory master =>
      (∀ r, master.answer q inCount ctx = some r → r.isError = true →
          (execute (received memory inCount (some r))).status ≠ 0) ∧
        ErrorsKept q inCount master

/-- The call succeeds exactly if the interfaces that the caller may see fit into the
buffer; then they are in it, each once, and `*outCount` is their number.  No error of a
broker is read as a count. -/
structure Lists (T : Topology R) (ctx : SocketConnectionContext) (q : ListQuery)
    (inCount : Int32) (outCount : Int) : Prop where
  success : (T.call ctx inCount outCount q).rc = 0 ↔
    (T.visible q ctx).dedup.length ≤ inCount.toInt
  count : (T.call ctx inCount outCount q).rc = 0 →
    (T.call ctx inCount outCount q).outCount = (T.visible q ctx).dedup.length
  nodup : (T.call ctx inCount outCount q).rc = 0 → (T.call ctx inCount outCount q).ifs.Nodup
  ifs : (T.call ctx inCount outCount q).rc = 0 →
    ∀ d, d ∈ (T.call ctx inCount outCount q).ifs ↔ d ∈ T.visible q ctx
  error : ∀ r, T.answer (sent q) inCount ctx = some r → r.isError = true →
    (T.call ctx inCount outCount q).rc ≠ 0
  masters : T.ErrorsKept (sent q) inCount

end Topology

/-! ## The loops -/

/-- Every entry that is asked for has fewer than `room` in front that are asked for and
visible. -/
def HasRoom (asked seen : ServerListEntry → Bool) (room : Int) (es : List ServerListEntry) : Prop :=
  ∀ i : Fin es.length, asked (es.get i) = true →
    (((es.take i).filter (fun e => asked e && seen e)).length : Int) < room

instance (asked seen : ServerListEntry → Bool) (room : Int) (es : List ServerListEntry) :
    Decidable (HasRoom asked seen room es) :=
  inferInstanceAs (Decidable (∀ i : Fin es.length, asked (es.get i) = true →
    (((es.take i).filter (fun e => asked e && seen e)).length : Int) < room))

section Loops

variable {asked seen : ServerListEntry → Bool} {room : Int} {es : List ServerListEntry}

theorem hasRoom_cons {e : ServerListEntry} :
    HasRoom asked seen room (e :: es) ↔
      (asked e = true → 0 < room) ∧
        HasRoom asked seen (if asked e && seen e then room - 1 else room) es := by
  refine Fin.forall_fin_succ.trans (and_congr (by simp) (forall_congr' fun i => ?_))
  simp only [List.get_cons_succ', Fin.val_succ, List.take_succ_cons, List.filter_cons]
  refine imp_congr_right fun _ => ?_
  split
  · rw [List.length_cons]
    omega
  · exact Iff.rfl

/-- What has room is not more than the room. -/
theorem HasRoom.length_le (h : HasRoom asked seen room es) (hroom : 0 ≤ room) :
    ((es.filter (fun e => asked e && seen e)).length : Int) ≤ room := by
  induction es generalizing room with
  | nil => exact hroom
  | cons e es ih =>
      obtain ⟨hhead, htail⟩ := hasRoom_cons.mp h
      rw [List.filter_cons]
      split
      · next hp =>
        rw [if_pos hp] at htail
        have hpos := hhead (Bool.and_eq_true_iff.mp hp).1
        have hle := ih htail (by omega)
        rw [List.length_cons]
        omega
      · next hp =>
        rw [if_neg hp] at htail
        exact ih htail hroom

end Loops

/-! ## The answers -/

namespace Topology

variable {R : RegExp}

/-- What the brokers list: a slave appends what it keeps, whoever asks. -/
def listed (q : ListQuery) : Topology R → SocketConnectionContext → List InterfaceDescription
  | .root n _, ctx =>
      (n.entries.filter (fun e => q.finds R e && listVisible ctx e)).map (·.ifDescription)
  | .slave n _ ctx' _ _ master, _ =>
      master.listed q ctx' ++
        (n.entries.filter (fun e => n.keeps e && q.finds R e)).map (·.ifDescription)

/-- The table of the first master has room in the buffer, together with what is hidden:
as a whole where everything is asked for, and up to the last match otherwise. -/
def RootFits (q : ListQuery) (inCount : Int32) : Topology R → SocketConnectionContext → Prop
  | .root n _, ctx =>
      match q with
      | .all => (n.entries.length : Int) ≤ inCount.toInt
      | .matching _ => HasRoom (q.finds R) (listVisible ctx) inCount.toInt n.entries
  | .slave _ _ ctx' _ _ master, _ => master.RootFits q inCount ctx'

/-- The whole list fits into the buffer. -/
def Fits (q : ListQuery) (inCount : Int32) (T : Topology R) (ctx : SocketConnectionContext) :
    Prop :=
  T.RootFits q inCount ctx ∧ ((T.listed q ctx).length : Int) ≤ inCount.toInt

section Answers

variable {q : ListQuery} {inCount : Int32}

end Answers

/-! ## End to end -/

section Lists

variable {T : Topology R} {ctx : SocketConnectionContext} {q : ListQuery} {inCount : Int32}
  {outCount : Int}

end Lists

instance decidableRootFits (q : ListQuery) (inCount : Int32) :
    (T : Topology R) → (ctx : SocketConnectionContext) → Decidable (T.RootFits q inCount ctx)
  | .root n _, ctx =>
      match q with
      | .all => inferInstanceAs (Decidable ((n.entries.length : Int) ≤ inCount.toInt))
      | .matching regExpr => inferInstanceAs (Decidable (HasRoom
          (fun e => (ListQuery.matching regExpr).finds R e)
            (listVisible ctx) inCount.toInt n.entries))
  | .slave _ _ ctx' _ _ master, _ => decidableRootFits q inCount master ctx'

/-- Expressions without special characters; only `[` does not compile. -/
def literal : RegExp where
  regcomp regExpr := regExpr ≠ [91]
  regexec regExpr name := name.tails.any (regExpr.isPrefixOf ·)

/-- A broker with these interfaces, which are local where the flag says so. -/
def node (hasMaster : Bool) (interfaces : List (CString × Bool)) (ndebug : Bool := false) :
    Node literal where
  cfg :=
    { theId := 0, hasMaster := hasMaster, ndebug := ndebug, regcomp := literal.regcomp
      regexec := literal.regexec }
  broker :=
    { phase := .connected
      mConnectedServers := interfaces.foldl (fun l x => l.add
        { partyID := ⟨1, 1⟩, nid := 0, pid := 1, chid := 1, ifDescription := ⟨x.1, 1, 0⟩,
          isLocal := x.2 }) .empty }
  regcomp := rfl
  regexec := rfl

/-- A client, and the connection of a slave. -/
def caller (slave : Bool) : SocketConnectionContext := ⟨1, 0, 0, 0, slave⟩

end Topology

end Dsi
