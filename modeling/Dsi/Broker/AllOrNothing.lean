import Dsi.Broker.AttachExtended
import Dsi.Broker.Forwarding
import Dsi.Broker.Leftovers
import Dsi.Broker.RequestFormat

/-!
# Dsi.Broker.AllOrNothing

The three requests with records behind their argument.  The handlers take the records out of
the body one by one and apply each before they read the next, and `AutoBuffer::read` fails
only where there is no byte left.  So a record that is cut off is completed from the stack, and
the answer `FNDBadArgument` comes behind the records that were there.
-/

namespace Dsi

open CLayout Sequence

/-! ## The requests -/

/-- The requests that announce records. -/
inductive RecordRequest where
  | registerInterfaceEx
  | registerMasterInterfaceEx
  | notifyServerAvailableEx
  deriving DecidableEq, Repr

namespace RecordRequest

def cmd : RecordRequest → Dcmd
  | registerInterfaceEx => .DCMD_FND_REGISTER_INTERFACE_EX
  | registerMasterInterfaceEx => .DCMD_FND_REGISTER_MASTER_INTERFACE_EX
  | notifyServerAvailableEx => .DCMD_FND_NOTIFY_SERVER_AVAILABLE_EX

/-- The members of `arg.i`. -/
def arg : RecordRequest → Members
  | registerInterfaceEx => Layout.SFNDInterfaceRegisterExArg.i
  | registerMasterInterfaceEx => Layout.SFNDInterfaceRegisterMasterExArg.i
  | notifyServerAvailableEx => Layout.SFNDNotifyServerAvailableExArg.i

/-- The member of `arg.i` that counts the records. -/
def counter : RecordRequest → String
  | registerInterfaceEx => "ifCount"
  | registerMasterInterfaceEx => "ifCount"
  | notifyServerAvailableEx => "count"

/-- The members of a record. -/
def record : RecordRequest → Members
  | registerInterfaceEx => Layout.SFNDInterfaceDescription
  | registerMasterInterfaceEx => Layout.SFNDInterfaceDescriptionEx
  | notifyServerAvailableEx => Layout.SFNDNotificationDescription

variable (m : RecordRequest)

/-- `sizeof(arg.i)`. -/
def hdr : Nat := (CType.struct m.arg).size

/-- The size of a record. -/
def len : Nat := (CType.struct m.record).size

/-- The number of records that the argument announces. -/
def announced (body : List UInt8) : Nat :=
  (readInt32 (member m.arg m.counter body)).toInt.toNat

/-- The body holds the argument, but less than the records it announces. -/
def AnnouncesMore (body : List UInt8) : Prop :=
  m.hdr ≤ body.length ∧ body.length < m.hdr + m.announced body * m.len

instance (body : List UInt8) : Decidable (m.AnnouncesMore body) :=
  inferInstanceAs (Decidable (_ ∧ _))

/-- The records that lie completely inside the body. -/
def records (body : List UInt8) : List (List UInt8) :=
  (List.range ((body.length - m.hdr) / m.len)).map
    (fun i => (body.drop (m.hdr + i * m.len)).take m.len)

/-- The body passes the tests of the dispatcher. -/
def accepts (body : List UInt8) : Bool := m.cmd.lengthTest body.length && checkVersion body

end RecordRequest

/-- The number of records that a handler applies. -/
def Request.handled : Request → Nat
  | .registerInterfaceEx ifCount _ _ records => (records.take ifCount.toInt.toNat).length
  | .registerMasterInterfaceEx ifCount records => (records.take ifCount.toInt.toNat).length
  | .notifyServerAvailableEx count records => (records.take count.toInt.toNat).length
  | _ => 0

namespace Broker

/-- The server table, the notification lists and the ID lists of a connection are as they
were. -/
structure Unchanged (c : Nat) (b b' : Broker) : Prop where
  servers : b'.mConnectedServers.entries = b.mConnectedServers.entries
  notifications : ∀ k, b'.notifications k = b.notifications k
  data : b'.data? c = b.data? c

/-- Only records inside the body are applied, and a body that holds less than it announces is
answered `FNDBadArgument` and changes nothing. -/
structure AllOrNothing (m : RecordRequest) (cfg : Config) (ctx : SocketConnectionContext)
    (stale : Stale) (body : List UInt8) (b : Broker) : Prop where
  inside : ∀ i < (Servicebroker.dispatch stale m.cmd.code body).handled,
    m.hdr + (i + 1) * m.len ≤ body.length
  nothing : m.AnnouncesMore body →
    (b.dispatch cfg ctx (Servicebroker.dispatch stale m.cmd.code body)).2 =
        some (Response.status .FNDBadArgument) ∧
      Unchanged ctx.mId b
        (b.dispatch cfg ctx (Servicebroker.dispatch stale m.cmd.code body)).1

/-! ## Records without effect -/

/-- The notifications are refused one after the other: their callers may not access the server
that is there, or their pulse channels cannot be opened, of which every one is a call of
`ConnectAttach`. -/
def refusedAll (cfg : Config) (ctx : SocketConnectionContext) (servers : ServerList) :
    Nat → List SFNDNotificationDescription → Bool
  | _, [] => true
  | attachCalls, n :: ns =>
      if (servers.findDescription n.ifDescription).any
          (fun e => !checkAccessPrivileges cfg ctx e) then refusedAll cfg ctx servers attachCalls ns
      else
        (ctx.mSlave &&
          !cfg.attach attachCalls ctx.mNodeAddress n.pulse.pid n.pulse.chid) &&
            refusedAll cfg ctx servers (attachCalls + 1) ns

/-- No record of the request has an effect; and `registerInterfacesMaster`, which follows the
records of `REGISTER_MASTER_INTERFACE_EX` even where one is missing, marks nothing. -/
def Inert (cfg : Config) (ctx : SocketConnectionContext) (records : List (List UInt8))
    (b : Broker) : RecordRequest → Prop
  | .registerInterfaceEx => ∀ d ∈ records.map readDescription,
      (b.mConnectedServers.findName d.name).isSome = true
  | .registerMasterInterfaceEx =>
      (∀ r ∈ records.map readDescriptionEx, b.refusesRecord cfg r = true) ∧
      (b.isMasterConnected cfg = true →
        ∀ e ∈ b.mConnectedServers.entries, registerEligible cfg e = false)
  | .notifyServerAvailableEx =>
      refusedAll cfg ctx b.mConnectedServers b.attachCalls (records.map readNotification) = true

end Broker

/-! ## Bytes -/

namespace RecordRequest

variable {m : RecordRequest} {body : List UInt8}

/-- A body that is accepted has its header. -/
theorem hdr_le_of_accepts (h : m.accepts body = true) : m.hdr ≤ body.length := by
  rw [accepts, Bool.and_eq_true] at h
  cases m with
  | registerInterfaceEx => exact Nat.le_of_lt (of_decide_eq_true h.1)
  | registerMasterInterfaceEx => exact of_decide_eq_true h.1
  | notifyServerAvailableEx => exact of_decide_eq_true h.1

/-- The headers have 8 to 24 bytes. -/
theorem hdr_bounds (m : RecordRequest) : 8 ≤ m.hdr ∧ m.hdr ≤ 24 := by
  cases m <;> decide

/-- A record is not empty. -/
theorem len_pos (m : RecordRequest) : 0 < m.len := by
  cases m <;> decide

/-- The receive buffer is larger than the arguments. -/
theorem lengthTest_min (m : RecordRequest) (n : Nat) :
    m.cmd.lengthTest (min 288 n) = m.cmd.lengthTest n := by
  have hmin (k : Nat) (hk : k < 288) : (k < min 288 n ↔ k < n) ∧ (k ≤ min 288 n ↔ k ≤ n) := by
    omega
  cases m with
  | registerInterfaceEx => exact decide_eq_decide.mpr (hmin 24 (by decide)).1
  | registerMasterInterfaceEx => exact decide_eq_decide.mpr (hmin 8 (by decide)).2
  | notifyServerAvailableEx => exact decide_eq_decide.mpr (hmin 8 (by decide)).2

/-- What was received stands in the receive buffer. -/
theorem readNat_member_memcpy {ms : Members} {f : String} {k : Nat} (old : Nat → UInt8)
    (hbody : offsetof ms f + k ≤ body.length) (hbuffer : offsetof ms f + k ≤ 288) :
    readNat k (member ms f (memcpy 288 old (body.take 288))) = readNat k (member ms f body) := by
  have htake : ((body.take 288).drop (offsetof ms f)).take k =
      (body.drop (offsetof ms f)).take k := by
    rw [List.drop_take, List.take_take, Nat.min_eq_left (by omega)]
  have hlength : (body.take 288).length = min 288 body.length := List.length_take
  rw [readNat, readNat, member, member, memcpy, List.drop_append_of_le_length (by omega),
    List.take_append_of_le_length (by rw [List.length_drop]; omega), htake]

/-- The version is in the first four bytes. -/
theorem checkVersion_memcpy (old : Nat → UInt8) (h : 4 ≤ body.length) :
    checkVersion (memcpy 288 old (body.take 288)) = checkVersion body := by
  have hmajor : offsetof Layout.SFNDInterfaceVersion "majorVersion" = 0 := by decide
  have hminor : offsetof Layout.SFNDInterfaceVersion "minorVersion" = 2 := by decide
  rw [checkVersion, readNat_member_memcpy old (by omega) (by omega),
    readNat_member_memcpy old (by omega) (by omega), checkVersion]

/-- A body is handed to the handler if it passes the tests. -/
theorem dispatch_eq (m : RecordRequest) (stale : Stale) (body : List UInt8) :
    (m.accepts body = true ∧ Servicebroker.dispatch stale m.cmd.code body =
        m.cmd.handler stale body (memcpy 288 stale.rcvBuffer (body.take 288))) ∨
      (m.accepts body = false ∧ (Servicebroker.dispatch stale m.cmd.code body = .malformed ∨
        Servicebroker.dispatch stale m.cmd.code body = .badFoundationVersion)) := by
  have hping : m.cmd.code ≠ DCMD_FND_MASTER_PING := by cases m <;> decide
  have hshort : body.length < 4 → m.accepts body = false := by
    intro hlt
    refine Bool.eq_false_iff.mpr (fun h => ?_)
    have hle := hdr_le_of_accepts h
    have hbounds := m.hdr_bounds
    omega
  have hversion : (CType.struct Layout.SFNDInterfaceVersion).size = 4 := rfl
  rw [Servicebroker.dispatch, if_neg hping, Dcmd.ofCode?_code]
  dsimp only
  rcases Nat.eq_zero_or_pos body.length with hempty | hpos
  · obtain rfl := List.eq_nil_iff_length_eq_zero.mpr hempty
    exact .inr ⟨hshort (by decide), .inl rfl⟩
  · rw [size_rcvBuffer, AutoBuffer.read_zero hpos (by decide), hversion]
    dsimp only
    rw [List.length_take]
    by_cases hfour : 4 ≤ body.length
    · have hmin : 4 ≤ min 288 body.length := by omega
      rw [checkVersion_memcpy _ hfour, lengthTest_min, accepts]
      cases m.cmd.lengthTest body.length <;> cases checkVersion body <;> simp [hmin]
    · refine .inr ⟨hshort (by omega), ?_⟩
      rw [if_neg (by omega)]
      exact .inr rfl

/-- The call of the handler, where these records are read. -/
def request (m : RecordRequest) (count : Int32) (pid : UInt32) (chid : Int32)
    (records : List (List UInt8)) : Request :=
  match m with
  | registerInterfaceEx => .registerInterfaceEx count pid chid (records.map readDescription)
  | registerMasterInterfaceEx => .registerMasterInterfaceEx count (records.map readDescriptionEx)
  | notifyServerAvailableEx => .notifyServerAvailableEx count (records.map readNotification)

/-- As many records are handled as are counted and there. -/
theorem handled_request (m : RecordRequest) (count : Int32) (pid : UInt32) (chid : Int32)
    (records : List (List UInt8)) :
    (m.request count pid chid records).handled = min count.toInt.toNat records.length := by
  cases m <;> simp [request, Request.handled]

/-- A body that is accepted is dispatched with its count and its records. -/
theorem dispatch_of_accepts (stale : Stale) (h : m.accepts body = true) :
    ∃ pid chid, Servicebroker.dispatch stale m.cmd.code body =
      m.request (readInt32 (member m.arg m.counter body)) pid chid
        (ancillaryData stale body m.record m.hdr) := by
  obtain ⟨_, hdispatch⟩ | ⟨hnot, _⟩ := m.dispatch_eq stale body
  · have hle := hdr_le_of_accepts h
    have hcounter : offsetof m.arg m.counter + 4 ≤ m.hdr := by cases m <;> decide
    have hbounds := m.hdr_bounds
    have hcount : readInt32 (member m.arg m.counter
        (memcpy 288 stale.rcvBuffer (body.take 288))) =
          readInt32 (member m.arg m.counter body) := by
      rw [readInt32, readUInt32, readNat_member_memcpy _ (by omega) (by omega), readInt32,
        readUInt32]
    rw [hdispatch, ← hcount]
    cases m with
    | registerInterfaceEx => exact ⟨_, _, rfl⟩
    | registerMasterInterfaceEx => exact ⟨0, 0, rfl⟩
    | notifyServerAvailableEx => exact ⟨0, 0, rfl⟩
  · rw [hnot] at h
    cases h

/-- The records behind the header, the last of them perhaps cut off. -/
theorem length_ancillaryData (stale : Stale) (m : RecordRequest) (body : List UInt8) :
    (ancillaryData stale body m.record m.hdr).length =
      (body.length - m.hdr + (m.len - 1)) / m.len := by
  rw [ancillaryData, List.length_map, List.length_range]
  rfl

/-- Where no record is cut off, none is completed from the stack. -/
theorem ancillaryData_of_dvd (stale : Stale) (hle : m.hdr ≤ body.length)
    (hdvd : m.len ∣ body.length - m.hdr) :
    ancillaryData stale body m.record m.hdr = m.records body := by
  have hpos := m.len_pos
  obtain ⟨q, hq⟩ := hdvd
  have hlen : (CType.struct m.record).size = m.len := rfl
  have hcount : (body.length - m.hdr + (m.len - 1)) / m.len = (body.length - m.hdr) / m.len := by
    rw [hq, Nat.mul_add_div hpos, Nat.div_eq_of_lt (by omega), Nat.mul_div_cancel_left _ hpos,
      Nat.add_zero]
  rw [ancillaryData, records, hlen, hcount]
  refine List.map_congr_left (fun i hi => ?_)
  have hbound : (i + 1) * m.len ≤ q * m.len := by
    refine Nat.mul_le_mul_right m.len ?_
    rw [hq, Nat.mul_div_cancel_left _ hpos] at hi
    exact List.mem_range.mp hi
  rw [Nat.succ_mul, Nat.mul_comm q] at hbound
  have hlength : ((body.drop (m.hdr + i * m.len)).take m.len).length = m.len := by
    rw [List.length_take, List.length_drop]
    omega
  have hread : AutoBuffer.read body m.len (m.hdr + i * m.len) =
      some ((body.drop (m.hdr + i * m.len)).take m.len) := by
    have hin : m.len + (m.hdr + i * m.len) ≤ body.length := by omega
    simp only [AutoBuffer.read, if_pos hin, hpos, if_true]
  rw [hread, Option.getD_some, memcpy_of_length hlength]

end RecordRequest

/-! ## The handlers -/

namespace Broker

variable {cfg : Config} {ctx : SocketConnectionContext} {b : Broker}

theorem Unchanged.refl (c : Nat) (b : Broker) : Unchanged c b b := ⟨rfl, fun _ => rfl, rfl⟩

/-- One entry more. -/
theorem length_add (e : ServerListEntry) (l : ServerList) :
    (l.add e).entries.length = l.entries.length + 1 := by
  rw [ServerList.add]
  dsimp only
  rw [insertLower, List.length_append, List.length_cons, ← Nat.add_assoc, ← List.length_append,
    List.takeWhile_append_dropWhile]

/-- A registration at the master adds no entry. -/
theorem length_registerInterfacesMaster (b : Broker) :
    (b.registerInterfacesMaster cfg).mConnectedServers.entries.length =
      b.mConnectedServers.entries.length := by
  rw [registerInterfacesMaster_eq]
  split
  · exact List.length_map _
  · rfl

/-- A record of `REGISTER_INTERFACE_EX` is without effect if its name is taken. -/
theorem registerInterfaceEx_short {count : Int32} {pid : UInt32} {chid : Int32}
    {records : List InterfaceDescription} (hshort : records.length < count.toInt.toNat) :
    (b.handleRegisterInterfaceEx cfg ctx count pid chid records).2 =
        some (Response.status .FNDBadArgument) ∧
      (Unchanged ctx.mId b (b.handleRegisterInterfaceEx cfg ctx count pid chid records).1 ↔
        ∀ d ∈ records, (b.mConnectedServers.findName d.name).isSome = true) := by
  have hnone :=
    (recordLoop_eq_none_iff (f := registerRecordEx cfg ctx pid chid) (s := b)).mpr hshort
  have htake : records.take count.toInt.toNat = records :=
    List.take_of_length_le (Nat.le_of_lt hshort)
  have hkeeps (d : InterfaceDescription) (s : Broker)
      (hd : (s.mConnectedServers.findName d.name).isSome = true) :
      (registerRecordEx cfg ctx pid chid d s).2 = s := by
    rw [registerRecordEx, addInterface, if_pos hd]
  have hadds (d : InterfaceDescription) (s : Broker)
      (hd : (s.mConnectedServers.findName d.name).isSome = false) :
      s.mConnectedServers.entries.length <
        (registerRecordEx cfg ctx pid chid d s).2.mConnectedServers.entries.length := by
    rw [registerRecordEx, addInterface, if_neg (by simp [hd])]
    dsimp only
    rw [servers_addEntry, length_add]
    exact Nat.lt_succ_self _
  have hiff := @recordLoop_adds_nothing_iff _ _ _ _ _
    (fun s : Broker => s.mConnectedServers.entries.length) hkeeps hadds count.toInt.toNat records b
  rw [htake] at hiff
  rw [handleRegisterInterfaceEx, hnone]
  refine ⟨rfl, fun h => hiff.mp (congrArg List.length h.servers), fun h => ?_⟩
  rw [fail, recordLoop_of_keeps (by rw [htake]; exact fun d hd => hkeeps d b (h d hd))]
  exact .refl _ b

/-- A record of `REGISTER_MASTER_INTERFACE_EX` is without effect if it is refused. -/
theorem registerMasterInterfaceEx_short {count : Int32}
    {records : List SFNDInterfaceDescriptionEx} (hshort : records.length < count.toInt.toNat) :
    (b.handleRegisterMasterInterface cfg ctx count records).2 =
        some (Response.status .FNDBadArgument) ∧
      (Unchanged ctx.mId b (b.handleRegisterMasterInterface cfg ctx count records).1 ↔
        (∀ r ∈ records, b.refusesRecord cfg r = true) ∧
          (b.isMasterConnected cfg = true →
            ∀ e ∈ b.mConnectedServers.entries, registerEligible cfg e = false)) := by
  have hnone := (recordLoop_eq_none_iff (f := registerMasterRecord cfg ctx) (s := b)).mpr hshort
  have htake : records.take count.toInt.toNat = records :=
    List.take_of_length_le (Nat.le_of_lt hshort)
  have hkeeps (r : SFNDInterfaceDescriptionEx) (s : Broker) (hr : s.refusesRecord cfg r = true) :
      (registerMasterRecord cfg ctx r s).2 = s := by
    rw [registerMasterRecord, if_pos hr]
  have hadds (r : SFNDInterfaceDescriptionEx) (s : Broker) (hr : s.refusesRecord cfg r = false) :
      s.mConnectedServers.entries.length <
        (registerMasterRecord cfg ctx r s).2.mConnectedServers.entries.length := by
    rw [registerMasterRecord, if_neg (by simp [hr])]
    dsimp only
    rw [servers_addEntry, length_add]
    exact Nat.lt_succ_self _
  have hiff := @recordLoop_adds_nothing_iff _ _ _ _ _
    (fun s : Broker => s.mConnectedServers.entries.length) hkeeps hadds count.toInt.toNat records b
  rw [htake] at hiff
  have hloop (h : ∀ r ∈ records, b.refusesRecord cfg r = true) :
      (recordLoop (registerMasterRecord cfg ctx) count.toInt.toNat records b).2 = b :=
    recordLoop_of_keeps (by rw [htake]; exact fun r hr => hkeeps r b (h r hr))
  rw [handleRegisterMasterInterface, hnone]
  refine ⟨rfl, fun h => ?_, fun h => ?_⟩
  · have hservers := h.servers
    have hrefuse : ∀ r ∈ records, b.refusesRecord cfg r = true := by
      have hlength := congrArg List.length hservers
      rw [fail, length_registerInterfacesMaster] at hlength
      exact hiff.mp hlength
    refine ⟨hrefuse, fun hconnected e he => ?_⟩
    rw [fail, hloop hrefuse, entries_registerInterfacesMaster hconnected] at hservers
    rw [← hservers] at he
    obtain ⟨e', _, rfl⟩ := List.mem_map.mp he
    exact registerEligible_marked e'
  · rw [fail, hloop h.1]
    refine ⟨?_, (registerInterfacesMaster_frame cfg b).1, ?_⟩
    · cases hconnected : b.isMasterConnected cfg with
      | true =>
          have hmarked : ∀ e ∈ b.mConnectedServers.entries, marked cfg e = id e := by
            intro e he
            rw [marked, h.2 hconnected e he]
            rfl
          rw [entries_registerInterfacesMaster hconnected, List.map_congr_left hmarked, List.map_id]
      | false => rw [registerInterfacesMaster_eq, hconnected]; rfl
    · rw [data?, (registerInterfacesMaster_frame cfg b).2.2.2.2.2.2.1]
      rfl

/-! ## Notifications -/

/-- A notification that is destroyed leaves its place in the list of its connection. -/
theorem length_notificationList_destroy (n : Notification) (b : Broker) (c : Nat) :
    ((b.destroy cfg n).notificationList c).length = (b.notificationList c).length := by
  rw [destroy, notificationList_of_conns (conns_releaseMaster cfg n _), unhost]
  split
  · rw [notificationList_modifyData]
    split
    · next hc =>
      subst hc
      rw [notificationList]
      cases b.data? c with
      | none => rfl
      | some d => exact length_removeShift _ _
    · rfl
  · rfl

/-- The list of a connection keeps its length when notifications are erased. -/
theorem length_notificationList_sweepLoop (once : Bool) (act : Broker → Notification → Action)
    (ns : List Notification) (b : Broker) (c : Nat) :
    ((sweepLoop cfg once act ns b).2.notificationList c).length =
      (b.notificationList c).length := by
  have hsend (n : Notification) (b : Broker) :
      (b.send cfg n).2.notificationList c = b.notificationList c :=
    notificationList_of_conns (conns_send cfg n b) c
  induction ns generalizing b with
  | nil => rfl
  | cons n ns ih =>
      rw [sweepLoop]
      split
      · exact ih b
      · exact ih b
      · dsimp only
        split
        · rw [hsend]
        · rw [ih, hsend]
      · dsimp only
        split
        · rw [length_notificationList_destroy, hsend]
        · rw [ih, length_notificationList_destroy, hsend]
      · dsimp only
        split
        · rw [length_notificationList_destroy]
        · rw [ih, length_notificationList_destroy]

/-- So it does in a sweep. -/
theorem length_notificationList_sweep (once : Bool) (k : NotificationKind)
    (act : Broker → Notification → Action) (b : Broker) (c : Nat) :
    ((b.sweep cfg once k act).notificationList c).length = (b.notificationList c).length := by
  rw [sweep_eq, ← @length_notificationList_sweepLoop cfg once act (b.notifications k) b c]
  cases k <;> rfl

section Notify

variable {pulse : SFNDPulseInfo} {d : InterfaceDescription}

/-- A notification for an interface of a foreign group changes nothing. -/
theorem notifyAvailable_of_denied (h : (b.mConnectedServers.findDescription d).any
    (fun e => !checkAccessPrivileges cfg ctx e) = true) :
    (b.handleNotifyServerAvailableNoResponse cfg ctx pulse d).2 = b := by
  rw [handleNotifyServerAvailableNoResponse]
  dsimp only
  rw [if_pos h]

/-- One whose channel cannot be attached uses an ID up. -/
theorem notifyAvailable_of_not_attaches (h : (b.mConnectedServers.findDescription d).any
      (fun e => !checkAccessPrivileges cfg ctx e) = false)
    (hattaches : attaches cfg ctx pulse b = false) :
    (b.handleNotifyServerAvailableNoResponse cfg ctx pulse d).2 =
      b.created (b.attachCalls + 1) := by
  have hslave : ctx.mSlave.toNat = 1 := by
    rw [attaches, Bool.or_eq_false_iff, Bool.not_eq_false'] at hattaches
    rw [hattaches.1]
    rfl
  have hadd : b.addDescription cfg .serverConnect d ctx pulse (cfg.isLocalService d.name) =
      (INVALID_NOTIFICATION_ID, b.created (b.attachCalls + 1)) := by
    rw [addDescription, addNotification_eq, if_neg (by simp [hattaches]), hslave]
  rw [handleNotifyServerAvailableNoResponse]
  dsimp only
  rw [if_neg (by simp [h]), hadd, if_pos rfl]

/-- A notification that is set puts its ID into the list of its connection, where it stays or
leaves a stale ID behind; without a valid ID it stays in the notification list alone. -/
theorem notifyAvailable_of_attaches (hconn : (b.conns ctx.mId).isSome = true)
    (h : (b.mConnectedServers.findDescription d).any
      (fun e => !checkAccessPrivileges cfg ctx e) = false)
    (hattaches : attaches cfg ctx pulse b = true) :
    let b' := (b.handleNotifyServerAvailableNoResponse cfg ctx pulse d).2
    (b'.conns ctx.mId).isSome = true ∧
      (((b'.notificationList ctx.mId).length = (b.notificationList ctx.mId).length ∧
          b'.mServerConnectNotifications.length = b.mServerConnectNotifications.length + 1) ∨
        (b'.notificationList ctx.mId).length = (b.notificationList ctx.mId).length + 1) := by
  have hadd : ∃ n, b.addDescription cfg .serverConnect d ctx pulse (cfg.isLocalService d.name) =
      (UInt32.ofNat (b.sNextNotificationID + 1),
        (b.created (b.attachCalls + ctx.mSlave.toNat)).setNotifications .serverConnect
          (n :: b.notifications .serverConnect)) :=
    ⟨_, (addNotification_eq .serverConnect pulse _).trans (if_pos hattaches)⟩
  obtain ⟨n, hadd⟩ := hadd
  -- the new notification alone
  generalize hset : (b.created (b.attachCalls + ctx.mSlave.toNat)).setNotifications .serverConnect
    (n :: b.notifications .serverConnect) = s at hadd
  have hconns : s.conns = b.conns := by rw [← hset]; rfl
  have hlist : s.mServerConnectNotifications.length = b.mServerConnectNotifications.length + 1 := by
    rw [← hset]; rfl
  -- its ID in the list of the connection
  have hids : ((s.modifyData ctx.mId
      (·.addNotification (UInt32.ofNat (b.sNextNotificationID + 1)))).notificationList
        ctx.mId).length = (b.notificationList ctx.mId).length + 1 := by
    obtain ⟨k, hk⟩ := Option.isSome_iff_exists.mp hconn
    rw [notificationList_modifyData, if_pos rfl, notificationList, data?, data?, hconns, hk]
    exact List.length_append
  have hstays : ((s.modifyData ctx.mId
      (·.addNotification (UInt32.ofNat (b.sNextNotificationID + 1)))).conns ctx.mId).isSome =
        true := by
    rw [modifyData, setConnection, hconns]
    simpa using hconn
  rw [handleNotifyServerAvailableNoResponse]
  dsimp only
  rw [if_neg (by simp [h]), hadd]
  generalize s.modifyData ctx.mId
    (·.addNotification (UInt32.ofNat (b.sNextNotificationID + 1))) = t at hids hstays
  split
  · refine ⟨by rw [hconns]; exact hconn, .inl ⟨?_, hlist⟩⟩
    rw [notificationList_of_conns hconns]
  · split
    · refine ⟨?_, .inr ?_⟩
      · have hcore := congrArg Option.isSome (conns_sweep cfg false .serverConnect
          (triggerAction cfg d SB_UNKNOWN_GROUP_ID) t ctx.mId)
        rw [Option.isSome_map, Option.isSome_map] at hcore
        exact hcore.trans hstays
      · exact (length_notificationList_sweep false .serverConnect
          (triggerAction cfg d SB_UNKNOWN_GROUP_ID) t ctx.mId).trans hids
    · split
      · obtain ⟨l, pools, next, js, hforward, _⟩ := forward_cases cfg t
        rw [hforward]
        exact ⟨hstays, .inr hids⟩
      · exact ⟨hstays, .inr hids⟩

end Notify

/-- No record makes the list of its connection shorter. -/
theorem length_notificationList_notifyAvailable (n : SFNDNotificationDescription)
    (hconn : (b.conns ctx.mId).isSome = true) :
    ((notifyAvailableRecord cfg ctx n b).2.conns ctx.mId).isSome = true ∧
      (b.notificationList ctx.mId).length ≤
        ((notifyAvailableRecord cfg ctx n b).2.notificationList ctx.mId).length := by
  rw [notifyAvailableRecord]
  dsimp only
  cases hdenied : (b.mConnectedServers.findDescription n.ifDescription).any
      (fun e => !checkAccessPrivileges cfg ctx e) with
  | true =>
      rw [notifyAvailable_of_denied hdenied]
      exact ⟨hconn, Nat.le_refl _⟩
  | false =>
      cases hattaches : attaches cfg ctx n.pulse b with
      | false =>
          rw [notifyAvailable_of_not_attaches hdenied hattaches]
          exact ⟨hconn, Nat.le_refl _⟩
      | true =>
          obtain ⟨hstays, hset⟩ := notifyAvailable_of_attaches hconn hdenied hattaches
          exact ⟨hstays, by omega⟩

/-- The records add to the list of their connection at most. -/
theorem length_notificationList_recordLoop (count : Nat)
    (records : List SFNDNotificationDescription) (hconn : (b.conns ctx.mId).isSome = true) :
    (b.notificationList ctx.mId).length ≤
      ((recordLoop (notifyAvailableRecord cfg ctx) count records b).2.notificationList
        ctx.mId).length := by
  refine (recordLoop_preserves (I := fun t : Broker => (t.conns ctx.mId).isSome = true ∧
    (b.notificationList ctx.mId).length ≤ (t.notificationList ctx.mId).length)
    ⟨hconn, Nat.le_refl _⟩ (fun n _ t ht => ?_)).2
  obtain ⟨hstays, hle⟩ := @length_notificationList_notifyAvailable cfg ctx t n ht.1
  exact ⟨hstays, Nat.le_trans ht.2 hle⟩

/-- Only the notification of a slave can fail to attach. -/
theorem not_attaches_iff {pulse : SFNDPulseInfo} : attaches cfg ctx pulse b = false ↔
    (ctx.mSlave &&
      !cfg.attach b.attachCalls ctx.mNodeAddress pulse.pid pulse.chid) = true := by
  rw [attaches, Bool.or_eq_false_iff, Bool.and_eq_true, Bool.not_eq_false', Bool.not_eq_true']

/-- If the list of the connection does not get longer, the notification list does not get
shorter; and if that does not get longer either, every record was refused. -/
theorem refusedAll_of_length {count : Nat} {records : List SFNDNotificationDescription}
    (hcount : records.length ≤ count) (hconn : (b.conns ctx.mId).isSome = true)
    (hids : ((recordLoop (notifyAvailableRecord cfg ctx) count records b).2.notificationList
      ctx.mId).length = (b.notificationList ctx.mId).length) :
    let b' := (recordLoop (notifyAvailableRecord cfg ctx) count records b).2
    b.mServerConnectNotifications.length ≤ b'.mServerConnectNotifications.length ∧
      (b'.mServerConnectNotifications.length = b.mServerConnectNotifications.length →
        refusedAll cfg ctx b.mConnectedServers b.attachCalls records = true) := by
  induction records generalizing count b with
  | nil => cases count <;> exact ⟨Nat.le_refl _, fun _ => rfl⟩
  | cons n ns ih =>
      cases count with
      | zero => exact absurd hcount (Nat.not_succ_le_zero _)
      | succ count =>
          have hns : ns.length ≤ count := Nat.le_of_succ_le_succ hcount
          obtain ⟨hstays, _⟩ := @length_notificationList_notifyAvailable cfg ctx b n hconn
          have hrest := @length_notificationList_recordLoop cfg ctx _ count ns hstays
          rw [recordLoop] at hids ⊢
          dsimp only at hids ⊢
          rw [refusedAll]
          cases hdenied : (b.mConnectedServers.findDescription n.ifDescription).any
              (fun e => !checkAccessPrivileges cfg ctx e) with
          | true =>
              have hsame : (notifyAvailableRecord cfg ctx n b).2 = b :=
                notifyAvailable_of_denied hdenied
              rw [hsame] at hids ⊢
              exact ih hns hconn hids
          | false =>
              cases hattaches : attaches cfg ctx n.pulse b with
              | false =>
                  have hcreated : (notifyAvailableRecord cfg ctx n b).2 =
                      b.created (b.attachCalls + 1) :=
                    notifyAvailable_of_not_attaches hdenied hattaches
                  rw [hcreated] at hids ⊢
                  rw [if_neg Bool.false_ne_true, not_attaches_iff.mp hattaches, Bool.true_and]
                  exact ih (b := b.created (b.attachCalls + 1)) hns hconn hids
              | true =>
                  obtain ⟨_, hset⟩ := notifyAvailable_of_attaches hconn hdenied hattaches
                  have hstep : (notifyAvailableRecord cfg ctx n b).2 =
                      (b.handleNotifyServerAvailableNoResponse cfg ctx n.pulse
                        n.ifDescription).2 := rfl
                  rw [hstep] at hids hrest hstays ⊢
                  rcases hset with ⟨hsame, hlist⟩ | hmore
                  · obtain ⟨hle, _⟩ := ih hns hstays (hids.trans hsame.symm)
                    exact ⟨by omega, fun _ => by omega⟩
                  · omega

/-- Records that are all refused change nothing. -/
theorem unchanged_of_refusedAll {count : Nat} {records : List SFNDNotificationDescription}
    (h : refusedAll cfg ctx b.mConnectedServers b.attachCalls records = true) :
    Unchanged ctx.mId b (recordLoop (notifyAvailableRecord cfg ctx) count records b).2 := by
  induction records generalizing count b with
  | nil => cases count <;> exact .refl _ b
  | cons n ns ih =>
      cases count with
      | zero => exact .refl _ b
      | succ count =>
          rw [recordLoop]
          dsimp only
          rw [refusedAll] at h
          cases hdenied : (b.mConnectedServers.findDescription n.ifDescription).any
              (fun e => !checkAccessPrivileges cfg ctx e) with
          | true =>
              have hsame : (notifyAvailableRecord cfg ctx n b).2 = b :=
                notifyAvailable_of_denied hdenied
              rw [hsame]
              rw [hdenied, if_pos rfl] at h
              exact ih h
          | false =>
              rw [hdenied, if_neg Bool.false_ne_true, Bool.and_eq_true] at h
              have hcreated : (notifyAvailableRecord cfg ctx n b).2 =
                  b.created (b.attachCalls + 1) :=
                notifyAvailable_of_not_attaches hdenied (not_attaches_iff.mpr h.1)
              rw [hcreated]
              have hrest := @ih (b.created (b.attachCalls + 1)) count h.2
              exact ⟨hrest.servers, hrest.notifications, hrest.data⟩

/-- A record of `NOTIFY_SERVER_AVAILABLE_EX` is without effect if it is refused. -/
theorem notifyServerAvailableEx_short {count : Int32}
    {records : List SFNDNotificationDescription} (hshort : records.length < count.toInt.toNat)
    (hconn : (b.conns ctx.mId).isSome = true) :
    (b.handleNotifyServerAvailableEx cfg ctx count records).2 =
        some (Response.status .FNDBadArgument) ∧
      (Unchanged ctx.mId b (b.handleNotifyServerAvailableEx cfg ctx count records).1 ↔
        refusedAll cfg ctx b.mConnectedServers b.attachCalls records = true) := by
  have hnone := (recordLoop_eq_none_iff (f := notifyAvailableRecord cfg ctx) (s := b)).mpr hshort
  rw [handleNotifyServerAvailableEx, hnone]
  refine ⟨rfl, fun h => ?_, unchanged_of_refusedAll⟩
  have hids : (recordLoop (notifyAvailableRecord cfg ctx) count.toInt.toNat records
      b).2.notificationList ctx.mId = b.notificationList ctx.mId :=
    congrArg (fun d => (d.map ClientSpecificData.mNotificationList).getD []) h.data
  have hlist := congrArg List.length (h.notifications .serverConnect)
  exact (refusedAll_of_length (Nat.le_of_lt hshort) hconn (congrArg List.length hids)).2 hlist

/-- A request that announces more records than it brings. -/
theorem dispatch_short (m : RecordRequest) {count : Int32} {pid : UInt32} {chid : Int32}
    {records : List (List UInt8)} (hshort : records.length < count.toInt.toNat)
    (hconn : (b.conns ctx.mId).isSome = true) :
    (b.dispatch cfg ctx (m.request count pid chid records)).2 =
        some (Response.status .FNDBadArgument) ∧
      (Unchanged ctx.mId b (b.dispatch cfg ctx (m.request count pid chid records)).1 ↔
        Inert cfg ctx records b m) := by
  cases m with
  | registerInterfaceEx => exact registerInterfaceEx_short (by rwa [List.length_map])
  | registerMasterInterfaceEx => exact registerMasterInterfaceEx_short (by rwa [List.length_map])
  | notifyServerAvailableEx =>
      exact notifyServerAvailableEx_short (by rwa [List.length_map]) hconn

/-! ## All or nothing -/

section

variable {m : RecordRequest} {stale : Stale} {body : List UInt8}

/-- A body that is refused in front of the handler. -/
theorem allOrNothing_of_refused
    (h : Servicebroker.dispatch stale m.cmd.code body = .malformed ∨
      Servicebroker.dispatch stale m.cmd.code body = .badFoundationVersion) :
    AllOrNothing m cfg ctx stale body b ↔ ¬ m.AnnouncesMore body := by
  have hhandled : (Servicebroker.dispatch stale m.cmd.code body).handled = 0 := by
    rcases h with h | h <;> rw [h] <;> rfl
  have hstatus : (b.dispatch cfg ctx (Servicebroker.dispatch stale m.cmd.code body)).2 ≠
      some (Response.status .FNDBadArgument) := by
    rcases h with h | h <;> rw [h] <;> exact of_decide_eq_false rfl
  constructor
  · exact fun hall hmore => hstatus (hall.nothing hmore).1
  · intro hmore
    refine ⟨fun i hi => ?_, fun h => absurd h hmore⟩
    rw [hhandled] at hi
    cases hi

/-- A body that brings what it announces. -/
theorem allOrNothing_of_complete (haccepts : m.accepts body = true)
    (hmore : ¬ m.AnnouncesMore body) : AllOrNothing m cfg ctx stale body b := by
  obtain ⟨pid, chid, hrequest⟩ := RecordRequest.dispatch_of_accepts stale haccepts
  have hle := RecordRequest.hdr_le_of_accepts haccepts
  refine ⟨fun i hi => ?_, fun h => absurd h hmore⟩
  rw [hrequest, RecordRequest.handled_request] at hi
  have hlt : i + 1 ≤ m.announced body := Nat.le_trans hi (Nat.min_le_left _ _)
  have hmul := Nat.mul_le_mul_right m.len hlt
  have henough : m.hdr + m.announced body * m.len ≤ body.length :=
    Nat.le_of_not_lt (fun hlt => hmore ⟨hle, hlt⟩)
  omega

/-- A body whose records are whole, but fewer than announced. -/
theorem allOrNothing_of_whole (haccepts : m.accepts body = true) (hmore : m.AnnouncesMore body)
    (hdvd : m.len ∣ body.length - m.hdr) (hconn : (b.conns ctx.mId).isSome = true) :
    AllOrNothing m cfg ctx stale body b ↔ Inert cfg ctx (m.records body) b m := by
  obtain ⟨pid, chid, hrequest⟩ := RecordRequest.dispatch_of_accepts stale haccepts
  have hpos := m.len_pos
  have hlength : (m.records body).length = (body.length - m.hdr) / m.len := by
    rw [RecordRequest.records, List.length_map, List.length_range]
  have hshort : (m.records body).length < m.announced body := by
    rw [hlength, Nat.div_lt_iff_lt_mul hpos]
    have hlt := hmore.2
    have hle := hmore.1
    omega
  rw [RecordRequest.ancillaryData_of_dvd stale hmore.1 hdvd] at hrequest
  obtain ⟨hstatus, hunchanged⟩ := @dispatch_short cfg ctx b m _ pid chid _ hshort hconn
  rw [← hunchanged, ← hrequest]
  refine ⟨fun h => (h.nothing hmore).2, fun h => ⟨fun i hi => ?_, fun _ => ⟨?_, h⟩⟩⟩
  · rw [hrequest, RecordRequest.handled_request, hlength] at hi
    have hlt : i + 1 ≤ (body.length - m.hdr) / m.len := Nat.le_trans hi (Nat.min_le_right _ _)
    have hmul := Nat.mul_le_mul_right m.len hlt
    have hdiv := Nat.div_mul_le_self (body.length - m.hdr) m.len
    have hle := hmore.1
    omega
  · rw [hrequest]
    exact hstatus

/-- A record that is cut off is applied. -/
theorem not_allOrNothing_of_cut (haccepts : m.accepts body = true)
    (hmore : m.AnnouncesMore body) (hcut : ¬ m.len ∣ body.length - m.hdr) :
    ¬ AllOrNothing m cfg ctx stale body b := by
  intro hall
  obtain ⟨pid, chid, hrequest⟩ := RecordRequest.dispatch_of_accepts stale haccepts
  have hpos := m.len_pos
  have hle := hmore.1
  have hmod : 0 < (body.length - m.hdr) % m.len :=
    Nat.pos_of_ne_zero (fun h => hcut (Nat.dvd_of_mod_eq_zero h))
  have hdiv := Nat.div_add_mod (body.length - m.hdr) m.len
  have hlast : (body.length - m.hdr) / m.len <
      (Servicebroker.dispatch stale m.cmd.code body).handled := by
    rw [hrequest, RecordRequest.handled_request, RecordRequest.length_ancillaryData]
    refine Nat.lt_min.mpr ⟨?_, ?_⟩
    · refine (Nat.div_lt_iff_lt_mul hpos).mpr ?_
      have hlt := hmore.2
      rw [RecordRequest.announced] at hlt
      omega
    · refine (Nat.le_div_iff_mul_le hpos).mpr ?_
      rw [Nat.succ_mul, Nat.mul_comm]
      omega
  have hinside := hall.inside _ hlast
  rw [Nat.succ_mul, Nat.mul_comm] at hinside
  have hlt := Nat.mod_lt (body.length - m.hdr) hpos
  omega

end

/-- The requests with records are all or nothing if and only if they bring what they announce,
or are accepted with whole records alone, none of which has an effect. -/
theorem allOrNothing_iff (m : RecordRequest) (cfg : Config) (stale : Stale) (body : List UInt8)
    {b : Broker} {c : Nat} {k : Connection} (hk : b.conns c = some k) :
    AllOrNothing m cfg (k.ctx c) stale body b ↔
      ¬ m.AnnouncesMore body ∨
        (m.accepts body = true ∧ m.len ∣ body.length - m.hdr ∧
          Inert cfg (k.ctx c) (m.records body) b m) := by
  have hconn : (b.conns c).isSome = true := by rw [hk]; rfl
  obtain ⟨haccepts, _⟩ | ⟨hrefused, hdispatch⟩ := m.dispatch_eq stale body
  · by_cases hmore : m.AnnouncesMore body
    · rw [or_iff_right (not_not_intro hmore), and_iff_right haccepts]
      by_cases hdvd : m.len ∣ body.length - m.hdr
      · rw [and_iff_right hdvd]
        exact allOrNothing_of_whole haccepts hmore hdvd hconn
      · exact iff_of_false (not_allOrNothing_of_cut haccepts hmore hdvd) (fun h => hdvd h.1)
    · exact iff_of_true (allOrNothing_of_complete haccepts hmore) (.inl hmore)
  · rw [allOrNothing_of_refused hdispatch, hrefused]
    simp

/-- A request of version 4.0 that announces interfaces, with a description that is all zeros. -/
def oneInterface (ifCount : UInt8) : List UInt8 :=
  [4, 0, 0, 0] ++ List.replicate 16 0 ++ [ifCount, 0, 0, 0] ++ List.replicate 260 0

/-- A broker with one client. -/
def oneClient : Broker := init.openConnection 0 0 0

theorem allOrNothing_oneInterface :
    oneClient.conns 1 = some ⟨0, 0, 0, false, {}, false⟩ ∧
      AllOrNothing .registerInterfaceEx aloneConfig ⟨1, 0, 0, 0, false⟩ default (oneInterface 1)
        oneClient :=
  ⟨rfl, (allOrNothing_iff .registerInterfaceEx aloneConfig default (oneInterface 1)
    (c := 1) (k := ⟨0, 0, 0, false, {}, false⟩) rfl).mpr (.inl (by decide +kernel))⟩

/-- Of two interfaces that are announced one is there and is registered; and of a notification
one byte is there, and the others are taken from the stack. -/
theorem not_allOrNothing_oneInterface :
    let ctx : SocketConnectionContext := ⟨1, 0, 0, 0, false⟩
    let r := oneClient.dispatch aloneConfig ctx
      (Servicebroker.dispatch default Dcmd.DCMD_FND_REGISTER_INTERFACE_EX.code (oneInterface 2))
    r.2 = some (Response.status .FNDBadArgument) ∧
      r.1.mConnectedServers.entries.length = 1 ∧
      ¬ AllOrNothing .registerInterfaceEx aloneConfig ctx default (oneInterface 2) oneClient ∧
      (Servicebroker.dispatch default Dcmd.DCMD_FND_NOTIFY_SERVER_AVAILABLE_EX.code
        [4, 0, 0, 0, 1, 0, 0, 0, 0]).handled = 1 ∧
      ¬ AllOrNothing .notifyServerAvailableEx aloneConfig ctx default
        [4, 0, 0, 0, 1, 0, 0, 0, 0] oneClient := by
  refine ⟨by decide +kernel, by decide +kernel, ?_, by decide, ?_⟩
  · intro h
    have hservers := congrArg List.length (h.nothing (by decide +kernel)).2.servers
    revert hservers
    decide +kernel
  · exact not_allOrNothing_of_cut (by decide) (by decide) (by decide)

end Broker

end Dsi
