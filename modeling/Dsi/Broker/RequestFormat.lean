import Dsi.Broker.Clientlib
import Dsi.Broker.Handlers

/-!
# Dsi.Broker.RequestFormat

Which calls of the client library the broker takes for what they are.

`sizeof(arg.i)` and `sizeof(arg)` differ by the padding that the 8-byte ID of the
answer asks for, and they differ for `REGISTER_INTERFACE_GROUPID` alone: its request has
284 bytes, the dispatcher waits for 288.  `Call.agrees_iff_transports` goes through all calls.
-/

namespace Dsi

open CLayout LittleEndian

/-! ## Scalars and structures -/

/-- Four bytes fill their member. -/
@[simp] theorem store_uint32Bytes (x : UInt32) : store 4 (uint32Bytes x) = uint32Bytes x :=
  store_bytes 4 _

@[simp] theorem store_int32Bytes (x : Int32) : store 4 (int32Bytes x) = int32Bytes x :=
  store_bytes 4 _

/-- A word is read as it was written. -/
@[simp] theorem readUInt32_uint32Bytes (x : UInt32) (rest : List UInt8) :
    readUInt32 (uint32Bytes x ++ rest) = x := by
  simp [readUInt32, uint32Bytes]

/-- A signed word is read as it was written. -/
@[simp] theorem readInt32_int32Bytes (x : Int32) (rest : List UInt8) :
    readInt32 (int32Bytes x ++ rest) = x := by
  simp [readInt32, int32Bytes]

/-- A number is read modulo 2 ^ 32. -/
@[simp] theorem readInt32_bytes (n : Nat) (rest : List UInt8) :
    readInt32 (bytes 4 n ++ rest) = Int32.ofNat n := by
  have hmod : UInt32.ofNat (n % 256 ^ 4) = UInt32.ofNat n := by
    apply UInt32.toNat_inj.mp
    simp
  rw [readInt32, readUInt32, readNat_bytes, hmod]
  rfl

/-- A party ID fills its member. -/
@[simp] theorem store_partyIDBytes (id : SPartyID) :
    store Layout.SPartyID.size (partyIDBytes id) = partyIDBytes id :=
  store_of_length (length_object ..)

/-- A party ID is read as it was written. -/
@[simp] theorem readPartyID_partyIDBytes (id : SPartyID) (rest : List UInt8) :
    readPartyID (partyIDBytes id ++ rest) = id := by
  simp [readPartyID, partyIDBytes, stored, Layout.SPartyID.s, uint32, List.lookup_cons]

/-- A pulse fills its member. -/
@[simp] theorem store_pulseBytes (p : Process) (chid code value : Int32) :
    store (CType.struct Layout.SFNDPulseInfo).size (pulseBytes p chid code value) =
      pulseBytes p chid code value :=
  store_object ..

/-- A pulse is read as it was written, with the process of the caller. -/
@[simp] theorem readPulse_pulseBytes (p : Process) (chid code value : Int32) (rest : List UInt8) :
    readPulse (pulseBytes p chid code value ++ rest) = Call.pulse p chid code value := by
  have hread (x : Int32) (rest : List UInt8) :
      readUInt32 (int32Bytes x ++ rest) = x.toUInt32 := readUInt32_uint32Bytes x.toUInt32 rest
  simp [readPulse, pulseBytes, Call.pulse, stored, Layout.SFNDPulseInfo, int32, List.lookup_cons,
    hread]

/-- A version fills its member. -/
@[simp] theorem store_versionBytes (major minor : Nat) :
    store (CType.struct Layout.SFNDInterfaceVersion).size (versionBytes major minor) =
      versionBytes major minor :=
  store_object ..

/-- The major version has 16 bits on the wire. -/
@[simp] theorem member_majorVersion (major minor : Nat) (rest : List UInt8) :
    readNat 2
        (member Layout.SFNDInterfaceVersion "majorVersion" (versionBytes major minor ++ rest)) =
      major % 2 ^ 16 := by
  simp [versionBytes, stored, Layout.SFNDInterfaceVersion, uint16]

/-- So has the minor version. -/
@[simp] theorem member_minorVersion (major minor : Nat) (rest : List UInt8) :
    readNat 2
        (member Layout.SFNDInterfaceVersion "minorVersion" (versionBytes major minor ++ rest)) =
      minor % 2 ^ 16 := by
  simp [versionBytes, stored, Layout.SFNDInterfaceVersion, uint16, List.lookup_cons]

/-- A description fills its member. -/
@[simp] theorem store_descriptionBytes (name : List UInt8) (major minor : Nat) :
    store (CType.struct Layout.SFNDInterfaceDescription).size (descriptionBytes name major minor) =
      descriptionBytes name major minor :=
  store_object ..

/-- The array of the name is the last member, so what follows the description follows
the name. -/
theorem readDescription_descriptionBytes {name : List UInt8} (h : name.length = NAME_MAX + 1)
    (major minor : Nat) (rest : List UInt8) :
    readDescription (descriptionBytes name major minor ++ rest) =
      ⟨cstring (name ++ rest), Int32.ofNat (major % 2 ^ 16), Int32.ofNat (minor % 2 ^ 16)⟩ := by
  have hname : store (CType.array char (NAME_MAX + 1)).size name = name := store_of_length h
  have hbehind (vs : List (String × List UInt8)) :
      behind Layout.SFNDInterfaceDescription vs "name" = [] := rfl
  simp only [readDescription, descriptionBytes, member_object, hbehind]
  simp [stored, Layout.SFNDInterfaceDescription, List.lookup_cons, hname]

/-! ## Names -/

/-- What a version is on the wire. -/
def wireVersion (version : Int32) : Int32 := Int32.ofNat (version.toUInt32.toNat % 2 ^ 16)

/-- A version survives the wire if and only if it fits its 16 bits. -/
theorem wireVersion_eq_iff (version : Int32) :
    wireVersion version = version ↔ Call.FitsVersion version := by
  have hmod : version.toUInt32.toNat % 2 ^ 16 < 2 ^ 16 := Nat.mod_lt _ (by decide)
  have hwire : (wireVersion version).toInt = (version.toUInt32.toNat % 2 ^ 16 : Nat) :=
    Int32.toInt_ofNat_of_lt (by omega)
  have hcond : version.toInt = if 2 * version.toUInt32.toNat < 2 ^ 32 then
      (version.toUInt32.toNat : Int) else (version.toUInt32.toNat : Int) - (2 ^ 32 : Nat) :=
    BitVec.toInt_eq_toNat_cond version.toBitVec
  have hlt : version.toUInt32.toNat < 2 ^ 32 := version.toUInt32.toNat_lt
  rw [← Int32.toInt_inj, hwire, Call.FitsVersion]
  split at hcond <;> omega

/-- A name within `NAME_MAX` arrives as it is, whatever follows its array. -/
theorem cstring_strncpy (ifname : Name) (rest : List UInt8) :
    cstring (strncpy (NAME_MAX + 1) ifname.chars ++ rest) = ifname.chars := by
  have hle : ifname.chars.length ≤ 255 := ifname.length_le
  have htake : ifname.chars.take (NAME_MAX + 1) = ifname.chars :=
    List.take_of_length_le (by simp [NAME_MAX]; omega)
  have hzeros : 0 < NAME_MAX + 1 - ifname.chars.length := by simp [NAME_MAX]; omega
  rw [strncpy_eq, htake, List.append_assoc, cstring_left ifname.noNul,
    cstring_replicate hzeros, List.append_nil]

/-- What the macro fills is a whole description. -/
@[simp] theorem store_FILL_DESCRIPTION (ifname : Name) (major minor : Int32) :
    store (CType.struct Layout.SFNDInterfaceDescription).size
        (FILL_DESCRIPTION ifname major minor) =
      FILL_DESCRIPTION ifname major minor :=
  store_object ..

/-- The description that the macro fills is read with its name and the versions of the wire. -/
@[simp] theorem readDescription_FILL_DESCRIPTION (ifname : Name) (major minor : Int32)
    (rest : List UInt8) :
    readDescription (FILL_DESCRIPTION ifname major minor ++ rest) =
      ⟨ifname.chars, wireVersion major, wireVersion minor⟩ := by
  rw [FILL_DESCRIPTION, readDescription_descriptionBytes (length_strncpy ..), cstring_strncpy]
  rfl

/-- An expression is read as it was written, and no expression as the empty one. -/
@[simp] theorem cstring_regExprBytes (regExpr : Option Name) (rest : List UInt8) :
    cstring (store (CType.array char (NAME_MAX + 1)).size (regExprBytes regExpr) ++ rest) =
      (regExpr.map Name.chars).getD [] := by
  cases regExpr with
  | none =>
      rw [regExprBytes, store_nil, cstring_replicate (by decide)]
      rfl
  | some regExpr =>
      have hstore : store (CType.array char (NAME_MAX + 1)).size (regExprBytes (some regExpr)) =
          strncpy (NAME_MAX + 1) regExpr.chars := store_of_length (length_strncpy ..)
      rw [hstore, cstring_strncpy]
      rfl

/-- The array of a TCP name: at most 252 bytes of the name, the suffix, and zeros where
there is room for them. -/
theorem tcpArray_eq (ifname : Name) :
    (strcat (strncpy (NAME_MAX + 1 - 4) ifname.chars ++ List.replicate 4 0) tcpSuffix).take
        (NAME_MAX + 1) =
      ifname.chars.take 252 ++ (tcpSuffix ++ List.replicate (252 - ifname.chars.length) 0) := by
  have hnul : 0 ∉ ifname.chars.take 252 := fun h => ifname.noNul (List.mem_of_mem_take h)
  have hcopy : strncpy (NAME_MAX + 1 - 4) ifname.chars ++ List.replicate 4 0 =
      ifname.chars.take 252 ++ List.replicate (252 - ifname.chars.length + 3 + 1) 0 := by
    rw [strncpy_eq, List.append_assoc, List.replicate_append_replicate]
    rfl
  have hsplit : ifname.chars.take 252 ++ tcpSuffix ++
      0 :: List.replicate (252 - ifname.chars.length + 3 - tcpSuffix.length) 0 =
      (ifname.chars.take 252 ++ (tcpSuffix ++ List.replicate (252 - ifname.chars.length) 0)) ++
        List.replicate (1 - (252 - ifname.chars.length)) 0 := by
    have hzeros : 252 - ifname.chars.length + 3 - tcpSuffix.length + 1 =
        252 - ifname.chars.length + (1 - (252 - ifname.chars.length)) := by
      simp [tcpSuffix]
      omega
    rw [← List.replicate_succ, hzeros, ← List.replicate_append_replicate]
    simp only [List.append_assoc]
  rw [hcopy, strcat_replicate hnul, hsplit]
  apply List.take_left'
  simp [tcpSuffix, NAME_MAX]
  omega

/-- The macro for TCP fills a whole description as well. -/
@[simp] theorem store_FILL_DESCRIPTION_TCP (ifname : Name) (major minor : Int32) :
    store (CType.struct Layout.SFNDInterfaceDescription).size
        (FILL_DESCRIPTION_TCP ifname major minor) =
      FILL_DESCRIPTION_TCP ifname major minor :=
  store_object ..

/-- A TCP name of 252 bytes and more is not terminated. -/
@[simp] theorem readDescription_FILL_DESCRIPTION_TCP (ifname : Name) (major minor : Int32)
    (rest : List UInt8) :
    readDescription (FILL_DESCRIPTION_TCP ifname major minor ++ rest) =
      ⟨ifname.chars.take 252 ++ (tcpSuffix ++
          cstring (List.replicate (252 - ifname.chars.length) 0 ++ rest)),
        wireVersion major, wireVersion minor⟩ := by
  have hnul : 0 ∉ ifname.chars.take 252 := fun h => ifname.noNul (List.mem_of_mem_take h)
  have hsuffix : 0 ∉ tcpSuffix := by decide
  have hlength : (ifname.chars.take 252 ++
      (tcpSuffix ++ List.replicate (252 - ifname.chars.length) 0)).length = NAME_MAX + 1 := by
    simp [tcpSuffix, NAME_MAX]
    omega
  rw [FILL_DESCRIPTION_TCP, tcpArray_eq, readDescription_descriptionBytes hlength,
    List.append_assoc, List.append_assoc, cstring_left hnul, cstring_left hsuffix]
  rfl

/-! ## Records -/

namespace SFNDInterfaceDescription

@[simp] theorem length_bytes (d : SFNDInterfaceDescription) :
    d.bytes.length = (CType.struct Layout.SFNDInterfaceDescription).size := length_object ..

@[simp] theorem length_tcpBytes (d : SFNDInterfaceDescription) :
    d.tcpBytes.length = (CType.struct Layout.SFNDInterfaceDescription).size := length_object ..

/-- A description is read as it was written. -/
theorem readDescription_bytes (d : SFNDInterfaceDescription) :
    readDescription d.bytes = d.toInterfaceDescription := by
  have h := readDescription_descriptionBytes d.length_name d.majorVersion.toNat
    d.minorVersion.toNat []
  simpa [bytes, toInterfaceDescription] using h

theorem length_tcpName (d : SFNDInterfaceDescription) : d.tcpName.length = NAME_MAX + 1 := by
  unfold tcpName
  split
  · rename_i hle
    rw [length_strcat, d.length_name]
    rw [d.length_name]
    simp [tcpSuffix, NAME_MAX] at hle ⊢
    omega
  · simp [d.length_name]

/-- A record of `SBRegisterInterfaceExTCP` arrives with the suffix in its name if there
is room for it, and with no name otherwise. -/
theorem readDescription_tcpBytes (d : SFNDInterfaceDescription) :
    readDescription d.tcpBytes =
      { d.toInterfaceDescription with
        name := if (cstring d.name).length ≤ NAME_MAX - 4 then cstring d.name ++ tcpSuffix
          else [] } := by
  have hsuffix : 0 ∉ tcpSuffix := by decide
  have hname : cstring d.tcpName =
      if (cstring d.name).length ≤ NAME_MAX - 4 then cstring d.name ++ tcpSuffix else [] := by
    unfold tcpName
    split
    · have h := cstring_strcat d.name hsuffix []
      rwa [List.append_nil] at h
    · obtain ⟨b, bs, hbs⟩ : ∃ b bs, d.name = b :: bs :=
        List.exists_cons_of_length_eq_add_one d.length_name
      simp [hbs, cstring]
  have h := readDescription_descriptionBytes d.length_tcpName d.majorVersion.toNat
    d.minorVersion.toNat []
  simpa [tcpBytes, toInterfaceDescription, hname] using h

end SFNDInterfaceDescription

/-- Records that were sent as a whole are read one by one. -/
theorem ancillaryData_array {α : Type} {f : α → List UInt8} {ms : Members}
    (h : ∀ a, (f a).length = (CType.struct ms).size) (hpos : 0 < (CType.struct ms).size)
    (stale : Stale) (front : List UInt8) (l : List α) :
    ancillaryData stale (front ++ l.flatMap f) ms front.length = l.map f := by
  have hlength : (front ++ l.flatMap f).length =
      front.length + l.length * (CType.struct ms).size := by
    simp [length_array h]
  have hcount : ((front ++ l.flatMap f).length - front.length + ((CType.struct ms).size - 1)) /
      (CType.struct ms).size = l.length := by
    rw [hlength, Nat.add_sub_cancel_left, Nat.add_comm, Nat.add_mul_div_right _ _ hpos,
      Nat.div_eq_of_lt (by omega), Nat.zero_add]
  simp only [ancillaryData, hcount]
  apply List.ext_getElem
  · simp
  · intro i hi _
    have hlt : i < l.length := by simpa using hi
    have hbound : i * (CType.struct ms).size + (CType.struct ms).size ≤
        l.length * (CType.struct ms).size := by
      have := Nat.mul_le_mul_right (CType.struct ms).size (Nat.succ_le_of_lt hlt)
      rwa [Nat.succ_mul] at this
    have hdrop : (front ++ l.flatMap f).drop (front.length + i * (CType.struct ms).size) =
        f l[i] ++ (l.drop (i + 1)).flatMap f := by
      rw [← List.drop_drop, List.drop_left, drop_array h, List.drop_eq_getElem_cons hlt,
        List.flatMap_cons]
    have hread : AutoBuffer.read (front ++ l.flatMap f) (CType.struct ms).size
        (front.length + i * (CType.struct ms).size) = some (f l[i]) := by
      have hle : (CType.struct ms).size + (front.length + i * (CType.struct ms).size) ≤
          (front ++ l.flatMap f).length := by
        rw [hlength]
        omega
      simp only [AutoBuffer.read, if_pos hle, hpos, if_true, hdrop, List.take_left' (h _)]
    simp [hread, memcpy_of_length (h _)]

/-! ## Receiving a frame -/

/-- A command is a 32-bit word. -/
theorem code_lt (cmd : Dcmd) : cmd.code < 2 ^ 32 := Nat.mod_lt _ (by decide)

/-- The size field holds the length of the body as an `int32_t`. -/
theorem receive_requestFrame (stale : Stale) (cmd : Dcmd) (body : List UInt8) :
    receive stale (requestFrame cmd body) =
      if 0 ≤ (Int32.ofNat body.length).toInt ∧
          (Int32.ofNat body.length).toInt ≤ body.length then
        some (Servicebroker.dispatch stale cmd.code
          (body.take (Int32.ofNat body.length).toInt.toNat))
      else none := by
  have hcode : cmd.code % 256 ^ 4 = cmd.code := Nat.mod_eq_of_lt (code_lt cmd)
  have hmagic : SB_FRAME_MAGIC % 256 ^ 4 = SB_FRAME_MAGIC := rfl
  have hlength (vs : List (String × List UInt8)) :
      ¬ (object Layout.sb_request_frame vs ++ body).length <
        (CType.struct Layout.sb_request_frame).size := by
    simp [length_object]
  have hdrop (vs : List (String × List UInt8)) :
      (object Layout.sb_request_frame vs ++ body).drop (CType.struct Layout.sb_request_frame).size =
        body := List.drop_left' (length_object ..)
  have henvelope (vs : List (String × List UInt8)) (cmd : List UInt8) :
      stored Layout.sb_request_frame
        [("fr_envelope", object Layout.sb_frame vs), ("fr_cmd", cmd)] "fr_envelope" =
      object Layout.sb_frame vs := store_object ..
  have hcmd (vs : List UInt8) (n : Nat) :
      stored Layout.sb_request_frame [("fr_envelope", vs), ("fr_cmd", bytes 4 n)] "fr_cmd" =
      bytes 4 n := store_bytes ..
  have hfields (magic size : Nat) :
      stored Layout.sb_frame [("fr_magic", bytes 4 magic), ("fr_size", bytes 4 size)] "fr_magic" =
        bytes 4 magic ∧
      stored Layout.sb_frame [("fr_magic", bytes 4 magic), ("fr_size", bytes 4 size)] "fr_size" =
        bytes 4 size := ⟨store_bytes .., store_bytes ..⟩
  simp only [receive, requestFrame, member_object, hdrop, if_neg (hlength _), henvelope, hcmd,
    (hfields _ _).1, (hfields _ _).2, readInt32_bytes, readNat_bytes, hcode, hmagic, ne_eq,
    not_true_eq_false, if_false]

/-- The front of a body that is not empty can be read. -/
theorem AutoBuffer.read_zero {body : List UInt8} (h : 0 < body.length) {len : Nat}
    (hlen : 0 < len) : AutoBuffer.read body len 0 = some (body.take len) := by
  by_cases hle : len ≤ body.length
  · simp [AutoBuffer.read, hle, hlen]
  · have htake : body.take len = body := List.take_of_length_le (by omega)
    simp [AutoBuffer.read, hle, h, htake]

@[simp] theorem size_rcvBuffer : Layout.rcvBuffer.size = 288 := rfl

@[simp] theorem length_sbVersion : sbVersion.length = 4 := rfl

/-- The library sends the version that the broker asks for. -/
theorem checkVersion_sbVersion (rest : List UInt8) : checkVersion (sbVersion ++ rest) := by
  simp [checkVersion, sbVersion, DSI_SERVICEBROKER_VERSION_MAJOR, DSI_SERVICEBROKER_VERSION_MINOR]

/-- A request that starts with the version of the library is measured and handed on. -/
theorem dispatch_sbVersion (stale : Stale) (cmd : Dcmd) (rest : List UInt8) :
    Servicebroker.dispatch stale cmd.code (sbVersion ++ rest) =
      if cmd.lengthTest (min 288 (sbVersion ++ rest).length) then
        cmd.handler stale (sbVersion ++ rest)
          (memcpy 288 stale.rcvBuffer ((sbVersion ++ rest).take 288))
      else .malformed := by
  have hping : cmd.code ≠ DCMD_FND_MASTER_PING := by cases cmd <;> decide
  have hread : AutoBuffer.read (sbVersion ++ rest) 288 0 = some ((sbVersion ++ rest).take 288) :=
    AutoBuffer.read_zero (by simp only [List.length_append, length_sbVersion]; omega) (by decide)
  have hlength : (CType.struct Layout.SFNDInterfaceVersion).size ≤
      min 288 (sbVersion ++ rest).length := by
    show 4 ≤ _
    simp only [List.length_append, length_sbVersion]
    omega
  have hcheck : checkVersion (memcpy 288 stale.rcvBuffer ((sbVersion ++ rest).take 288)) := by
    rw [memcpy, List.take_append, List.take_of_length_le (by simp), List.append_assoc]
    exact checkVersion_sbVersion _
  simp only [Servicebroker.dispatch, if_neg hping, Dcmd.ofCode?_code, size_rcvBuffer, hread,
    List.length_take, hlength, hcheck, and_self, if_true]

/-- The version is the first member of every argument. -/
theorem argument_eq {i : Members} (vs : List (String × List UInt8))
    (hi : i.head? = some ("sbVersion", .struct Layout.SFNDInterfaceVersion)) :
    ∃ rest, argument i vs = sbVersion ++ rest := by
  obtain ⟨ms, rfl⟩ : ∃ ms, i = ("sbVersion", .struct Layout.SFNDInterfaceVersion) :: ms :=
    List.head?_eq_some_iff.mp hi
  have hpad (align : Nat) : pad align 0 = 0 := by simp [pad]
  have hstore : store (CType.struct Layout.SFNDInterfaceVersion).size sbVersion = sbVersion :=
    store_versionBytes ..
  simp [argument, object, objectFrom, hpad, hstore]

theorem length_argument (i : Members) (vs : List (String × List UInt8)) :
    (argument i vs).length = (CType.struct i).size := length_object ..

/-- What stands behind an argument of `size` bytes in the receive buffer. -/
def behindArgument (stale : Stale) (size : Nat) (more : List UInt8) : List UInt8 :=
  let received := min 288 (size + more.length)
  more.take (288 - size) ++ (List.range' received (288 - received)).map stale.rcvBuffer

/-- The buffer starts with the argument that was sent. -/
theorem memcpy_argument (stale : Stale) {i : Members} (vs : List (String × List UInt8))
    (more : List UInt8) (hsize : (CType.struct i).size ≤ 288) :
    memcpy 288 stale.rcvBuffer ((argument i vs ++ more).take 288) =
      argument i vs ++ behindArgument stale (CType.struct i).size more := by
  have htake : (argument i vs).take 288 = argument i vs :=
    List.take_of_length_le (by rw [length_argument]; exact hsize)
  have hreceived : (CType.struct i).size + min (288 - (CType.struct i).size) more.length =
      min 288 ((CType.struct i).size + more.length) := by omega
  simp [memcpy, behindArgument, List.take_append, htake, length_argument, hreceived]

/-- A frame whose size field holds the length of its body reaches the length test. -/
theorem receive_argument (stale : Stale) (cmd : Dcmd) {i : Members}
    (vs : List (String × List UInt8)) (more : List UInt8)
    (hi : i.head? = some ("sbVersion", .struct Layout.SFNDInterfaceVersion))
    (hsize : (CType.struct i).size ≤ 288)
    (hfits : (CType.struct i).size + more.length < 2 ^ 31) :
    receive stale (requestFrame cmd (argument i vs ++ more)) =
      some (if cmd.lengthTest (min 288 ((CType.struct i).size + more.length)) then
          cmd.handler stale (argument i vs ++ more)
            (argument i vs ++ behindArgument stale (CType.struct i).size more)
        else .malformed) := by
  have hlength : (argument i vs ++ more).length = (CType.struct i).size + more.length := by
    simp [length_argument]
  have hfr_size : (Int32.ofNat (argument i vs ++ more).length).toInt =
      ((argument i vs ++ more).length : Int) := by
    rw [hlength]
    exact Int32.toInt_ofNat_of_lt hfits
  obtain ⟨rest, hrest⟩ := argument_eq vs hi
  have hdispatch := dispatch_sbVersion stale cmd (rest ++ more)
  rw [← List.append_assoc, ← hrest, memcpy_argument stale vs more hsize, hlength] at hdispatch
  rw [receive_requestFrame, hfr_size, if_pos ⟨by omega, by omega⟩, Int.toNat_natCast,
    List.take_length, hdispatch]

/-! ## Calls -/

namespace Call

/-- A call whose argument passes the length test is in the hands of the handler. -/
theorem agrees_iff_handler {p : Process} {c : Call} {cmd : Dcmd} {i : Members}
    {vs : List (String × List UInt8)}
    (hframe : c.frame p = some (requestFrame cmd (argument i vs)))
    (hi : i.head? = some ("sbVersion", .struct Layout.SFNDInterfaceVersion))
    (hsize : (CType.struct i).size ≤ 288) (htest : cmd.lengthTest (CType.struct i).size) :
    c.Agrees p ↔ ∀ stale : Stale,
      cmd.handler stale (argument i vs)
        (argument i vs ++ behindArgument stale (CType.struct i).size []) =
      c.request p stale.pulse := by
  have hreceive (stale : Stale) : receive stale (requestFrame cmd (argument i vs)) =
      some (cmd.handler stale (argument i vs)
        (argument i vs ++ behindArgument stale (CType.struct i).size [])) := by
    have h := receive_argument stale cmd vs [] hi hsize (by simp; omega)
    simpa only [List.append_nil, List.length_nil, Nat.add_zero, Nat.min_eq_right hsize, htest,
      if_true] using h
  simp only [Agrees, hframe, Option.some.injEq, forall_eq', hreceive]


/-! Names with a suffix. -/

/-- In front of the zeros of `implVersion` a name of 252 bytes happens to be terminated. -/
theorem tcpName_eq_iff (ifname : Name) (rest : List UInt8) :
    ifname.chars.take 252 ++ (tcpSuffix ++
        cstring (List.replicate (252 - ifname.chars.length) 0 ++ 0 :: rest)) =
      ifname.chars ++ tcpSuffix ↔ ifname.chars.length ≤ NAME_MAX + 1 - 4 := by
  have hzeros : List.replicate (252 - ifname.chars.length) 0 ++ 0 :: rest =
      List.replicate (252 - ifname.chars.length + 1) 0 ++ rest := by
    rw [List.replicate_succ']
    simp
  rw [hzeros, cstring_replicate (Nat.succ_pos _), List.append_nil, List.append_cancel_right_eq]
  constructor
  · intro htake
    rw [← htake]
    exact List.length_take_le 252 ifname.chars
  · exact List.take_of_length_le

/-- A registration over TCP agrees if and only if it transports its arguments. -/
theorem agrees_SBRegisterInterfaceTCP (p : Process) (ifName : Name) (major minor : Int32)
    (ipaddress : UInt32) (port : UInt16) :
    Agrees p (SBRegisterInterfaceTCP ifName major minor ipaddress port) ↔
      Transports p (SBRegisterInterfaceTCP ifName major minor ipaddress port) := by
  obtain ⟨rest, hbehind⟩ : ∃ rest, behind Layout.SFNDInterfaceRegisterArg.i
      [("sbVersion", sbVersion), ("ifDescription", FILL_DESCRIPTION_TCP ifName major minor),
        ("chid", int32Bytes (Int32.ofNat port.toNat)), ("pid", uint32Bytes ipaddress)]
      "ifDescription" = 0 :: rest := ⟨_, rfl⟩
  rw [agrees_iff_handler rfl rfl (by decide) rfl]
  simp only [Dcmd.handler, argument, member_object, hbehind]
  simp [stored, List.lookup_cons, request, Transports, wireVersion_eq_iff, int32,
    Layout.SFNDInterfaceRegisterArg.i, tcpName_eq_iff]

/-- The description of an attach request ends the argument, and an unterminated name
goes on in what the buffer held before. -/
theorem agrees_SBAttachInterfaceTCP (p : Process) (ifName : Name) (major minor : Int32) :
    Agrees p (SBAttachInterfaceTCP ifName major minor) ↔
      Transports p (SBAttachInterfaceTCP ifName major minor) := by
  have hbehind (vs : List (String × List UInt8)) :
      behind Layout.SFNDInterfaceAttachArg.i vs "ifDescription" = [] := rfl
  rw [agrees_iff_handler rfl rfl (by decide) rfl]
  simp only [Dcmd.handler, argument, member_object, hbehind]
  simp [stored, List.lookup_cons, request, Transports, wireVersion_eq_iff,
    Layout.SFNDInterfaceAttachArg.i]
  show (∀ stale : Stale,
    _ ++ (_ ++ cstring (_ ++ behindArgument stale 264 [])) = _ ∧ _ ∧ _) ↔ _
  constructor
  · intro h
    refine ⟨?_, (h default).2⟩
    apply Decidable.byContradiction
    intro hlong
    let ones : Stale := { (default : Stale) with rcvBuffer := fun _ => 1 }
    have hname := congrArg List.length (h ones).1
    have hrest : cstring (behindArgument ones 264 []) = List.replicate 24 1 := by decide
    have hle := ifName.length_le
    have hzeros : 252 - ifName.chars.length = 0 := by simp [NAME_MAX] at hlong; omega
    simp [hzeros, hrest] at hname
    simp [NAME_MAX] at hle
    omega
  · rintro ⟨hle, hversions⟩ stale
    have hroom : ifName.chars.length ≤ 251 := hle
    rw [cstring_replicate (by omega), List.append_nil, List.take_of_length_le (by omega)]
    exact ⟨rfl, hversions⟩

/-! The group call. -/

/-- A registration for a group is shorter than what the broker reads, so it is malformed. -/
theorem receive_group (stale : Stale) (vs : List (String × List UInt8)) :
    receive stale (requestFrame .DCMD_FND_REGISTER_INTERFACE_GROUPID
      (argument Layout.SFNDInterfaceRegisterGroupIDArg.i vs)) = some .malformed := by
  have h := receive_argument (i := Layout.SFNDInterfaceRegisterGroupIDArg.i) stale
    .DCMD_FND_REGISTER_INTERFACE_GROUPID vs [] rfl (by decide) (by decide)
  rw [List.append_nil] at h
  exact h

/-- A registration for a group agrees if and only if it transports its arguments. -/
theorem agrees_SBRegisterGroupInterface (p : Process) (ifName : Name) (major minor chid : Int32)
    (groupName : Option CString) :
    Agrees p (SBRegisterGroupInterface ifName major minor chid groupName) ↔
      Transports p (SBRegisterGroupInterface ifName major minor chid groupName) := by
  cases hgroup : p.grpid? groupName with
  | none => simp [Agrees, Transports, frame, hgroup]
  | some grpid => simp [Agrees, Transports, frame, hgroup, receive_group, request]

/-! Lists of interfaces. -/

/-- A registration of several interfaces is read record by record. -/
theorem receive_registerExBody (stale : Stale) (chid : Int32) (pid : UInt32)
    {ifDescr : Descriptions} {record : SFNDInterfaceDescription → List UInt8}
    (hrecord : ∀ d, (record d).length = (CType.struct Layout.SFNDInterfaceDescription).size)
    (hpos : 0 < ifDescr.val.length) (hfits : FitsFrame ifDescr) :
    receive stale (requestFrame .DCMD_FND_REGISTER_INTERFACE_EX
        (registerExBody chid pid ifDescr record)) =
      some (.registerInterfaceEx (Int32.ofNat ifDescr.val.length) pid chid
        ((ifDescr.val.map record).map readDescription)) := by
  have hlength : (ifDescr.val.flatMap record).length =
      ifDescr.val.length * (CType.struct Layout.SFNDInterfaceDescription).size :=
    length_array hrecord _
  have hrecords (vs : List (String × List UInt8)) :
      ancillaryData stale (argument Layout.SFNDInterfaceRegisterExArg.i vs ++
        ifDescr.val.flatMap record) Layout.SFNDInterfaceDescription
        (CType.struct Layout.SFNDInterfaceRegisterExArg.i).size = ifDescr.val.map record := by
    rw [← length_argument Layout.SFNDInterfaceRegisterExArg.i vs]
    exact ancillaryData_array hrecord (by decide) stale _ _
  have htest : Dcmd.DCMD_FND_REGISTER_INTERFACE_EX.lengthTest
      (min 288 ((CType.struct Layout.SFNDInterfaceRegisterExArg.i).size +
        (ifDescr.val.flatMap record).length)) := by
    rw [hlength]
    show decide (24 < min 288 (24 + ifDescr.val.length * 260)) = true
    simp
    omega
  have h := receive_argument (i := Layout.SFNDInterfaceRegisterExArg.i) stale
    .DCMD_FND_REGISTER_INTERFACE_EX
    [("chid", int32Bytes chid), ("pid", uint32Bytes pid),
      ("ifCount", int32Bytes (Int32.ofNat ifDescr.val.length))]
    (ifDescr.val.flatMap record) rfl (by decide) (by rw [hlength]; exact hfits)
  rw [if_pos htest] at h
  rw [registerExBody, h]
  simp [Dcmd.handler, hrecords]
  simp [argument, stored, Layout.SFNDInterfaceRegisterExArg.i, int32, List.lookup_cons]

/-- As many records are read as the body holds, the last one perhaps in part. -/
theorem length_records_le {stale : Stale} {body : List UInt8} {ifCount chid : Int32} {pid : UInt32}
    {records : List InterfaceDescription}
    (h : Servicebroker.dispatch stale Dcmd.DCMD_FND_REGISTER_INTERFACE_EX.code body =
      .registerInterfaceEx ifCount pid chid records) :
    records.length * 260 ≤ body.length + 259 := by
  have hping : Dcmd.DCMD_FND_REGISTER_INTERFACE_EX.code ≠ DCMD_FND_MASTER_PING := by decide
  simp only [Servicebroker.dispatch, if_neg hping, Dcmd.ofCode?_code] at h
  split at h
  · cases h
  split at h
  · split at h
    · injection h with _ _ _ hrecords
      have hlength : records.length = (body.length - 24 + 259) / 260 := by
        rw [← hrecords, List.length_map, ancillaryData, List.length_map, List.length_range]
        rfl
      omega
    · cases h
  · cases h

/-- A size that overflows the field is negative or too small. -/
theorem toInt_ofNat_long {n : Nat} (h : 2 ^ 31 ≤ n) (hsize : 0 ≤ (Int32.ofNat n).toInt) :
    (Int32.ofNat n).toInt + 2 ^ 32 ≤ n := by
  have hwidth : (Int32.size : Int) = 2 ^ 32 := rfl
  rw [Int32.toInt_ofNat', Int.bmod_def, hwidth] at hsize ⊢
  split at hsize <;> omega

/-- A list that does not fit loses records on the way, or the whole request. -/
theorem receive_registerExBody_long {stale : Stale} {chid chid' ifCount : Int32} {pid pid' : UInt32}
    {ifDescr : Descriptions} {record : SFNDInterfaceDescription → List UInt8}
    {records : List InterfaceDescription}
    (hrecord : ∀ d, (record d).length = (CType.struct Layout.SFNDInterfaceDescription).size)
    (hlong : ¬ FitsFrame ifDescr) (hrecords : records.length = ifDescr.val.length) :
    receive stale (requestFrame .DCMD_FND_REGISTER_INTERFACE_EX
        (registerExBody chid pid ifDescr record)) ≠
      some (.registerInterfaceEx ifCount pid' chid' records) := by
  have hlength : (registerExBody chid pid ifDescr record).length =
      24 + ifDescr.val.length * 260 := by
    rw [registerExBody, List.length_append, length_argument, length_array hrecord]
    rfl
  have hlarge : 2 ^ 31 ≤ 24 + ifDescr.val.length * 260 := Nat.le_of_not_lt hlong
  intro h
  rw [receive_requestFrame, hlength] at h
  split at h
  · rename_i hsize
    have hcut := toInt_ofNat_long hlarge hsize.1
    have hle := length_records_le (Option.some.inj h)
    rw [List.length_take, hrecords, hlength] at hle
    omega
  · cases h

/-- A registration of no interface is malformed. -/
theorem receive_registerExBody_nil (stale : Stale) (chid : Int32) (pid : UInt32)
    {ifDescr : Descriptions} (record : SFNDInterfaceDescription → List UInt8)
    (h : ¬ 0 < ifDescr.val.length) :
    receive stale (requestFrame .DCMD_FND_REGISTER_INTERFACE_EX
      (registerExBody chid pid ifDescr record)) = some .malformed := by
  have hnil : ifDescr.val = [] := List.length_eq_zero_iff.mp (by omega)
  have hreceive := receive_argument (i := Layout.SFNDInterfaceRegisterExArg.i) stale
    .DCMD_FND_REGISTER_INTERFACE_EX
    [("chid", int32Bytes chid), ("pid", uint32Bytes pid),
      ("ifCount", int32Bytes (Int32.ofNat ifDescr.val.length))]
    (ifDescr.val.flatMap record) rfl (by decide) (by simp [hnil]; decide)
  have htest : ¬ Dcmd.DCMD_FND_REGISTER_INTERFACE_EX.lengthTest
      (min 288 ((CType.struct Layout.SFNDInterfaceRegisterExArg.i).size +
        (ifDescr.val.flatMap record).length)) := by
    rw [hnil]
    exact (by decide : ¬ Dcmd.DCMD_FND_REGISTER_INTERFACE_EX.lengthTest 24)
  rw [if_neg htest] at hreceive
  exact hreceive

/-- It agrees if and only if it transports its arguments. -/
theorem agrees_SBRegisterInterfaceEx (p : Process) (ifDescr : Descriptions) (chid : Int32) :
    Agrees p (SBRegisterInterfaceEx ifDescr chid) ↔
      Transports p (SBRegisterInterfaceEx ifDescr chid) := by
  by_cases hpos : 0 < ifDescr.val.length
  · by_cases hfits : FitsFrame ifDescr
    · simp [Agrees, Transports, frame, request, hpos, hfits,
        receive_registerExBody _ _ _ SFNDInterfaceDescription.length_bytes hpos hfits,
        SFNDInterfaceDescription.readDescription_bytes]
    · simp [Agrees, Transports, frame, request, hfits,
        receive_registerExBody_long SFNDInterfaceDescription.length_bytes hfits]
  · simp [Agrees, Transports, frame, request, hpos, receive_registerExBody_nil]

/-- So does the one over TCP. -/
theorem agrees_SBRegisterInterfaceExTCP (p : Process) (ifDescr : Descriptions) (ipaddress : UInt32)
    (port : UInt16) :
    Agrees p (SBRegisterInterfaceExTCP ifDescr ipaddress port) ↔
      Transports p (SBRegisterInterfaceExTCP ifDescr ipaddress port) := by
  by_cases hpos : 0 < ifDescr.val.length
  · by_cases hfits : FitsFrame ifDescr
    · simp [Agrees, Transports, frame, request, hpos, hfits,
        receive_registerExBody _ _ _ SFNDInterfaceDescription.length_tcpBytes hpos hfits,
        SFNDInterfaceDescription.readDescription_tcpBytes]
      apply forall₂_congr
      intro d _
      show (if _ then _ else []) = cstring d.name ++ tcpSuffix ↔ _
      split <;> simp [*, tcpSuffix]
    · simp [Agrees, Transports, frame, request, hpos, hfits,
        receive_registerExBody_long SFNDInterfaceDescription.length_tcpBytes hfits]
  · have hnil : ifDescr.val = [] := List.length_eq_zero_iff.mp (by omega)
    have hfits : FitsFrame ifDescr := by simp [FitsFrame, hnil]; decide
    simp [Agrees, Transports, frame, hnil, hfits]

/-! ## Which calls reach their handler -/

/-- A call and the broker agree exactly if the call asks for nothing that its frame
cannot say. -/
theorem agrees_iff_transports (p : Process) (c : Call) : c.Agrees p ↔ c.Transports p := by
  cases c with
  | SBRegisterInterfaceTCP => exact agrees_SBRegisterInterfaceTCP ..
  | SBRegisterGroupInterface => exact agrees_SBRegisterGroupInterface ..
  | SBRegisterInterfaceEx => exact agrees_SBRegisterInterfaceEx ..
  | SBRegisterInterfaceExTCP => exact agrees_SBRegisterInterfaceExTCP ..
  | SBAttachInterfaceTCP => exact agrees_SBAttachInterfaceTCP ..
  | SBGetInterfaceList inCount =>
      by_cases hcount : 0 < inCount
      · have hframe : (SBGetInterfaceList inCount).frame p = _ := if_pos hcount
        rw [agrees_iff_handler hframe rfl (by decide) rfl]
        simp [Dcmd.handler, argument, stored, List.lookup_cons, request, Transports, uint32,
          Layout.SFNDGetInterfaceListArg.i]
      · simp [Agrees, frame, Transports, hcount]
  | SBMatchInterfaceList regExpr inCount =>
      by_cases hcount : 0 < inCount
      · have hframe : (SBMatchInterfaceList regExpr inCount).frame p = _ := if_pos hcount
        rw [agrees_iff_handler hframe rfl (by decide) rfl]
        simp [Dcmd.handler, argument, stored, List.lookup_cons, request, Transports, uint32,
          Layout.SFNDMatchInterfaceListArg.i]
      · simp [Agrees, frame, Transports, hcount]
  | SBRegisterInterface | SBUnregisterInterface | SBAttachInterface | SBAttachInterfaceExtended
  | SBGetServerInformation | SBDetachInterface | SBSetClientDetachNotification
  | SBSetServerAvailableNotification | SBSetServerDisconnectNotification | SBClearNotification
  | SBSetInterfaceListChangeNotification | SBSetInterfaceMatchChangeNotification =>
      rw [agrees_iff_handler rfl rfl (by decide) rfl]
      simp [Dcmd.handler, argument, stored, List.lookup_cons, request, Transports,
        wireVersion_eq_iff, int32, uint32, Layout.SFNDInterfaceRegisterArg.i,
        Layout.SFNDInterfaceUnregisterArg.i,
        Layout.SFNDInterfaceAttachArg.i, Layout.SFNDInterfaceAttachExtendedArg.i,
        Layout.SFNDGetServerInformation.i, Layout.SFNDInterfaceDetachArg.i,
        Layout.SFNDNotifyClientDetachArg.i, Layout.SFNDNotifyServerAvailableArg.i,
        Layout.SFNDNotifyServerDisconnectArg.i, Layout.SFNDClearNotificationArg.i,
        Layout.SFNDNotifyInterfaceListChangeArg.i, Layout.SFNDNotifyInterfaceListMatchArg.i]

/-- Already a registration without a group name fails. -/
theorem not_agrees_group_call :
    ¬ Agrees ⟨4711, fun _ => none⟩
      (SBRegisterGroupInterface ⟨[65], by decide, by decide⟩ 1 0 3 none) := by
  rw [agrees_SBRegisterGroupInterface]
  simp [Transports, Process.grpid?]

/-- A broker refuses every registration for a group with `FNDInternalError`. -/
theorem dispatch_SBRegisterGroupInterface {p : Process} {ifName : Name} {major minor chid : Int32}
    {groupName : Option CString} {stream : List UInt8}
    (hframe : (SBRegisterGroupInterface ifName major minor chid groupName).frame p = some stream)
    (stale : Stale) (cfg : Config) (ctx : SocketConnectionContext) (b : Broker) :
    (receive stale stream).map (b.dispatch cfg ctx) =
      some (b, some (Response.status .FNDInternalError)) := by
  cases hgroup : p.grpid? groupName with
  | none => simp [frame, hgroup] at hframe
  | some grpid =>
      simp only [frame, hgroup, Option.map_some, Option.some.injEq] at hframe
      rw [← hframe, receive_group]
      rfl

end Call

end Dsi
