import Dsi.Broker.Availability
import Dsi.Broker.RequestFormat

/-!
# Dsi.Broker.MasterReply

The answer to a slave that registers its interfaces.  Every record is answered by one ID, in
the order of the records, and the extended ID tells whether it was added; the loop of the
slave finds the `i`-th ID where the `i`-th record was.  A server of a slave outside tree mode
gets its extended ID from the number of the connection, which may come to the reserved one.
-/

namespace Dsi

open CLayout LittleEndian Sequence

/-! ## The bytes of the answer -/

/-- What `writeAncillaryData` puts behind the frame for one ID after the other. -/
def ancillaryIDs (ids : List SPartyID) : List UInt8 := ids.flatMap partyIDBytes

/-- `arg->o.serverID[idx]` in the answer. -/
def serverIDAt (bytes : List UInt8) (idx : Nat) : SPartyID := readPartyID (bytes.drop (idx * 8))

theorem length_partyIDBytes (id : SPartyID) : (partyIDBytes id).length = 8 := length_object _ _

theorem length_ancillaryIDs (ids : List SPartyID) : (ancillaryIDs ids).length = ids.length * 8 :=
  length_array length_partyIDBytes ids

/-- The IDs are read as they were written. -/
theorem serverIDAt_ancillaryIDs {ids : List SPartyID} {idx : Nat} (h : idx < ids.length) :
    serverIDAt (ancillaryIDs ids) idx = ids[idx] := by
  rw [serverIDAt, ancillaryIDs, drop_array length_partyIDBytes, List.drop_eq_getElem_cons h,
    List.flatMap_cons, readPartyID_partyIDBytes]

theorem map_serverIDAt (ids : List SPartyID) :
    (List.range ids.length).map (serverIDAt (ancillaryIDs ids)) = ids := by
  refine List.ext_getElem (by simp) (fun i hi hlt => ?_)
  rw [List.getElem_map, List.getElem_range]
  exact serverIDAt_ancillaryIDs hlt

namespace Broker

/-! ## The records -/

/-- The IDs answer the records one by one: each has the local ID of its record and, unless
that of the record is reserved, the reserved extended ID if and only if the record is not
added to the table. -/
def AnswersRecords (cfg : Config) (ctx : SocketConnectionContext) :
    List SFNDInterfaceDescriptionEx → List SPartyID → Broker → Prop
  | [], ids, _ => ids = []
  | r :: records, ids, b =>
      let b' := (b.registerMasterRecord cfg ctx r).2
      ∃ id rest, ids = id :: rest ∧ id.localID = r.serverID.localID ∧
        (r.serverID.extendedID ≠ 0xffffffff →
          (id.extendedID = 0xffffffff ↔ b'.mConnectedServers = b.mConnectedServers)) ∧
        AnswersRecords cfg ctx records rest b'

/-- The answer to `REGISTER_MASTER_INTERFACE_EX` has 8 bytes for each record, and the loop of
the slave reads the IDs that answer the records. -/
def RepliesAll (cfg : Config) (ctx : SocketConnectionContext) (ifCount : Int32)
    (records : List SFNDInterfaceDescriptionEx) (b : Broker) : Prop :=
  ∃ ids, (b.handleRegisterMasterInterface cfg ctx ifCount records).2 = some ⟨0, .serverIDs ids⟩ ∧
    (ancillaryIDs ids).length = ifCount.toInt.toNat * 8 ∧
    b.AnswersRecords cfg ctx (records.take ifCount.toInt.toNat)
      ((List.range ifCount.toInt.toNat).map (serverIDAt (ancillaryIDs ids)))

/-- The record does not get its extended ID from the connection. -/
def keepsExtendedID (cfg : Config) (r : SFNDInterfaceDescriptionEx) (b : Broker) : Bool :=
  r.serverID.extendedID != 0 || b.refusesRecord cfg r

variable {cfg : Config} {ctx : SocketConnectionContext}

theorem add_ne (l : ServerList) (e : ServerListEntry) : l.add e ≠ l := by
  intro h
  have hlength := (ServerList.add_perm e l).length_eq
  rw [h, List.length_cons] at hlength
  omega

theorem ofNat_eq_reserved {n : Nat} :
    UInt32.ofNat n = 0xffffffff ↔ n % 2 ^ 32 = 2 ^ 32 - 1 := by
  rw [← UInt32.toNat_inj]
  simp

/-- What one record is answered. -/
theorem registerMasterRecord_answers (r : SFNDInterfaceDescriptionEx) (b : Broker) :
    (b.registerMasterRecord cfg ctx r).1.localID = r.serverID.localID ∧
      ((r.serverID.extendedID ≠ 0xffffffff →
          ((b.registerMasterRecord cfg ctx r).1.extendedID = 0xffffffff ↔
            (b.registerMasterRecord cfg ctx r).2.mConnectedServers = b.mConnectedServers)) ↔
        (1000 + ctx.mId) % 2 ^ 32 ≠ 2 ^ 32 - 1 ∨ b.keepsExtendedID cfg r = true) := by
  unfold registerMasterRecord keepsExtendedID
  by_cases hrefuse : b.refusesRecord cfg r = true
  · rw [if_pos hrefuse, hrefuse, Bool.or_true]
    exact ⟨rfl, iff_of_true (fun _ => iff_of_true rfl rfl) (.inr rfl)⟩
  · rw [if_neg hrefuse, Bool.eq_false_iff.mpr hrefuse, Bool.or_false]
    refine ⟨rfl, ?_⟩
    have hadded : (b.addEntry cfg ctx.mId (masterEntry ctx r)).mConnectedServers ≠
        b.mConnectedServers := by
      rw [servers_addEntry]
      exact add_ne _ _
    simp only [hadded, iff_false, bne_iff_ne, ne_eq]
    by_cases hzero : r.serverID.extendedID = 0
    · -- the connection gives the extended ID
      have hentry : (masterEntry ctx r).partyID.extendedID = UInt32.ofNat (1000 + ctx.mId) :=
        if_pos hzero
      rw [hentry, ofNat_eq_reserved]
      simp [hzero]
    · have hentry : (masterEntry ctx r).partyID.extendedID = r.serverID.extendedID := if_neg hzero
      rw [hentry]
      exact iff_of_true id (.inr hzero)

/-- What the records are answered one after the other. -/
theorem recordLoop_answers {n : Nat} {records : List SFNDInterfaceDescriptionEx} {b : Broker}
    (hn : n ≤ records.length) :
    ∃ ids, (recordLoop (registerMasterRecord cfg ctx) n records b).1 = some ids ∧
      ids.length = n ∧ (b.AnswersRecords cfg ctx (records.take n) ids ↔
        (1000 + ctx.mId) % 2 ^ 32 ≠ 2 ^ 32 - 1 ∨
          recordAlong (registerMasterRecord cfg ctx) (fun r s => s.keepsExtendedID cfg r) n records
            b = true) := by
  induction records generalizing n b with
  | nil =>
      obtain rfl := Nat.le_zero.mp hn
      exact ⟨[], rfl, rfl, iff_of_true rfl (.inr rfl)⟩
  | cons r records ih =>
      cases n with
      | zero => exact ⟨[], rfl, rfl, iff_of_true rfl (.inr rfl)⟩
      | succ n =>
          obtain ⟨hlocal, hone⟩ := @registerMasterRecord_answers cfg ctx r b
          obtain ⟨ids, hids, hlength, hrest⟩ :=
            ih (b := (b.registerMasterRecord cfg ctx r).2) (Nat.le_of_succ_le_succ hn)
          refine ⟨(b.registerMasterRecord cfg ctx r).1 :: ids, ?_, congrArg (· + 1) hlength, ?_⟩
          · rw [recordLoop, hids]
            rfl
          · rw [List.take_succ_cons, AnswersRecords, recordAlong, Bool.and_eq_true]
            constructor
            · rintro ⟨id, rest, heq, _, hid, hanswers⟩
              obtain ⟨rfl, rfl⟩ := List.cons.inj heq
              rw [or_and_left]
              exact ⟨hone.mp hid, hrest.mp hanswers⟩
            · intro hcond
              rw [or_and_left] at hcond
              exact ⟨_, ids, rfl, hlocal, hone.mpr hcond.1, hrest.mpr hcond.2⟩

/-- Complete records are answered one by one if and only if no record that is added gets the
reserved extended ID from the number of its connection. -/
theorem registerMaster_replies_iff (cfg : Config) (ctx : SocketConnectionContext) (ifCount : Int32)
    (records : List SFNDInterfaceDescriptionEx) (b : Broker)
    (hcomplete : ifCount.toInt.toNat ≤ records.length) :
    RepliesAll cfg ctx ifCount records b ↔
      (1000 + ctx.mId) % 2 ^ 32 ≠ 2 ^ 32 - 1 ∨
        recordAlong (registerMasterRecord cfg ctx) (fun r s => s.keepsExtendedID cfg r)
          ifCount.toInt.toNat records b = true := by
  obtain ⟨ids, hids, hlength, hanswers⟩ :=
    @recordLoop_answers cfg ctx _ records b hcomplete
  have hresponse : (b.handleRegisterMasterInterface cfg ctx ifCount records).2 =
      some ⟨0, .serverIDs ids⟩ := by
    simp only [handleRegisterMasterInterface, hids]
    rfl
  have hread : (List.range ifCount.toInt.toNat).map (serverIDAt (ancillaryIDs ids)) = ids := by
    rw [← hlength]
    exact map_serverIDAt ids
  rw [← hanswers]
  constructor
  · rintro ⟨ids', hids', _, hall⟩
    rw [hresponse] at hids'
    simp only [Option.some.injEq, Response.mk.injEq, ResponseBody.serverIDs.injEq,
      true_and] at hids'
    rwa [← hids', hread] at hall
  · intro hall
    refine ⟨ids, hresponse, by rw [length_ancillaryIDs, hlength], ?_⟩
    rwa [hread]

/-- A slave outside tree mode registers two interfaces, with one record that is refused between
them and one of a name that is taken behind them. -/
def slaveRecords : List SFNDInterfaceDescriptionEx :=
  [⟨1, 0, 0, ⟨500001, 0⟩, ⟨[65], 1, 0⟩⟩, ⟨0, 0, 0, ⟨500002, 0⟩, ⟨[66], 1, 0⟩⟩,
    ⟨1, 0, 0, ⟨500003, 0⟩, ⟨[67], 1, 0⟩⟩, ⟨1, 0, 0, ⟨500004, 0⟩, ⟨[65], 2, 0⟩⟩]

/-- The connection with this number, from the host of the master. -/
def slaveContext (mId : Nat) : SocketConnectionContext := ⟨mId, 0, 0, 0, true⟩

theorem registerMaster_replies_slaveRecords :
    (Broker.init.handleRegisterMasterInterface aloneConfig (slaveContext 1) 4 slaveRecords).2 =
        some ⟨0, .serverIDs [⟨500001, 1001⟩, ⟨500002, 0xffffffff⟩, ⟨500003, 1001⟩,
          ⟨500004, 0xffffffff⟩]⟩ ∧
      RepliesAll aloneConfig (slaveContext 1) 4 slaveRecords Broker.init :=
  ⟨by decide, (registerMaster_replies_iff aloneConfig (slaveContext 1) 4 slaveRecords Broker.init
    (by decide)).mpr (.inl (by decide))⟩

/-- On the connection with the number 2^32 - 1001 the interfaces that are added are answered
like those that are refused. -/
theorem not_registerMaster_replies_reserved :
    (Broker.init.handleRegisterMasterInterface aloneConfig (slaveContext 4294966295) 1
        slaveRecords).2 = some ⟨0, .serverIDs [⟨500001, 0xffffffff⟩]⟩ ∧
      ¬ RepliesAll aloneConfig (slaveContext 4294966295) 1 slaveRecords Broker.init := by
  have hresponse : (Broker.init.handleRegisterMasterInterface aloneConfig
      (slaveContext 4294966295) 1 slaveRecords).2 =
        some ⟨0, .serverIDs [⟨500001, 0xffffffff⟩]⟩ := by decide
  refine ⟨hresponse, ?_⟩
  rintro ⟨ids, hids, _, id, rest, heq, _, hid, _⟩
  rw [hresponse] at hids
  obtain rfl : [⟨500001, 0xffffffff⟩] = ids := by simpa using hids
  have hread : id.extendedID = 0xffffffff := by
    rw [← (List.cons.inj heq).1]
    decide
  have htable := (hid (by decide)).mp hread
  have hentries : ((Broker.init.registerMasterRecord aloneConfig (slaveContext 4294966295)
      ⟨1, 0, 0, ⟨500001, 0⟩, ⟨[65], 1, 0⟩⟩).2.mConnectedServers.entries.map (·.chid)) = [1] := by
    decide
  rw [htable] at hentries
  cases hentries

end Broker

end Dsi
