import Mathlib.Data.Nat.Bitwise
import Dsi.Broker.Tables

/-!
# Dsi.Broker.Names

The tests of the servicebroker on the names of interfaces: the validation of a name field
(`Servicebroker::check`), and the two tests whether a name is that of the TCP variant of a service
(`isTcpService`, `ConfigFile::forwardService`).

* `checkField_iff`: the field is read one byte too far exactly when it has neither a NUL nor a byte
  that is not printable;
* `tcpNames_iff`: the two tests disagree on the names of one character and the suffix.
-/

namespace Dsi

/-! ## Name fields -/

/-- `iscntrl` on 7-bit characters. -/
def iscntrl (c : UInt8) : Bool := c < 32 || c == 127

/-- A printable 7-bit character. -/
def isPrintable (c : UInt8) : Bool := 32 ≤ c && c < 127

/-- The loop of `check` over what is left of the field: whether the name is assumed to be valid,
and the byte that it stops at, which behind the end of the field is the first byte that follows
it in memory. -/
def scanName (behind : Nat → UInt8) : List UInt8 → Bool × UInt8
  | [] => (true, behind 0)
  | c :: rest =>
      if c = 0 then (true, c)
      else if iscntrl c || c &&& 0x80 != 0 then (false, c)
      else scanName behind rest

/-- `check` on a name field and the bytes that follow it in memory. -/
def checkField (name : Vector UInt8 256) (behind : Nat → UInt8)
    (majorVersion minorVersion : Int32) : Bool :=
  let (result, c) := scanName behind name.toList
  result && c == 0 && (majorVersion != 0 || minorVersion != 0)

/-- The bytes before the first NUL. -/
def fieldName (name : Vector UInt8 256) : CString := name.toList.takeWhile (· ≠ 0)

/-- What `check` is to accept: the field contains a NUL, all bytes before the first one are
printable, and the version is not 0.0. -/
structure ValidField (name : Vector UInt8 256) (majorVersion minorVersion : Int32) : Prop where
  terminated : 0 ∈ name
  printable : ∀ c ∈ fieldName name, isPrintable c = true
  version : ¬ (majorVersion = 0 ∧ minorVersion = 0)

/-- The test of the eighth bit. -/
theorem and_highBit (c : UInt8) : (c &&& 0x80 != 0) = decide (128 ≤ c.toNat) := by
  have hlt := c.toNat_lt
  have hbit : c.toNat.testBit 7 = decide (128 ≤ c.toNat) := by
    rw [Nat.testBit_eq_decide_div_mod_eq]
    congr 1
    exact propext (by omega)
  have hand : (c &&& 0x80).toNat = c.toNat &&& 2 ^ 7 := UInt8.toNat_and c 0x80
  rw [Nat.and_two_pow, hbit] at hand
  rw [bne, Bool.eq_iff_iff]
  cases hc : decide (128 ≤ c.toNat) with
  | true =>
      rw [hc] at hand
      simp [← UInt8.toNat_inj, hand]
  | false =>
      rw [hc] at hand
      simp [← UInt8.toNat_inj, hand]

/-- A byte that the loop passes is printable. -/
theorem passes_iff {c : UInt8} (hc : c ≠ 0) :
    (iscntrl c || c &&& 0x80 != 0) = !isPrintable c := by
  have hne : c.toNat ≠ 0 := fun h => hc (UInt8.toNat_inj.mp h)
  have hlt := c.toNat_lt
  rw [and_highBit, iscntrl, isPrintable, Bool.eq_iff_iff]
  simp only [Bool.or_eq_true, decide_eq_true_eq, beq_iff_eq, Bool.not_eq_true',
    Bool.and_eq_false_iff, decide_eq_false_iff_not, UInt8.lt_iff_toNat_lt,
    UInt8.le_iff_toNat_le, ← UInt8.toNat_inj]
  have h32 : (32 : UInt8).toNat = 32 := rfl
  have h127 : (127 : UInt8).toNat = 127 := rfl
  omega

/-- The loop ends in three ways: with a NUL, with a byte that is not printable, or behind the
field. -/
theorem scanName_eq (behind : Nat → UInt8) (cs : List UInt8) :
    scanName behind cs =
      match cs.find? (fun c => !isPrintable c) with
      | some c => (c == 0, c)
      | none => (true, behind 0) := by
  induction cs with
  | nil => rfl
  | cons c cs ih =>
      rw [scanName]
      by_cases hc : c = 0
      · subst hc
        rfl
      · rw [if_neg hc, passes_iff hc, List.find?_cons]
        cases isPrintable c with
        | true => simpa using ih
        | false => simp [hc]

theorem find?_eq_zero_iff {cs : List UInt8} :
    cs.find? (fun c => !isPrintable c) = some 0 ↔
      0 ∈ cs ∧ ∀ c ∈ cs.takeWhile (· ≠ 0), isPrintable c = true := by
  induction cs with
  | nil => simp
  | cons c cs ih =>
      by_cases hc : c = 0
      · subst hc
        simp [show isPrintable 0 = false from rfl]
      · rw [List.find?_cons, List.takeWhile_cons, if_pos (by simpa using hc), List.mem_cons]
        cases hp : isPrintable c with
        | true => simpa [hp, Ne.symm hc] using ih
        | false => simp [hp, hc]

theorem validField_iff {name : Vector UInt8 256} {majorVersion minorVersion : Int32} :
    ValidField name majorVersion minorVersion ↔
      name.toList.find? (fun c => !isPrintable c) = some 0 ∧
        ¬ (majorVersion = 0 ∧ minorVersion = 0) := by
  rw [find?_eq_zero_iff]
  constructor
  · exact fun h => ⟨⟨Vector.mem_toList_iff.mpr h.terminated, h.printable⟩, h.version⟩
  · exact fun ⟨⟨hzero, hprint⟩, hversion⟩ => ⟨Vector.mem_toList_iff.mp hzero, hprint, hversion⟩

theorem version_iff {majorVersion minorVersion : Int32} :
    (majorVersion != 0 || minorVersion != 0) = true ↔
      ¬ (majorVersion = 0 ∧ minorVersion = 0) := by
  simp [Decidable.imp_iff_not_or]

/-- A byte that is not printable ends the loop inside of the field. -/
theorem checkField_of_unprintable {name : Vector UInt8 256} (h : ∃ c ∈ name, isPrintable c = false)
    (behind : Nat → UInt8) (majorVersion minorVersion : Int32) :
    checkField name behind majorVersion minorVersion = true ↔
      ValidField name majorVersion minorVersion := by
  obtain ⟨c, hmem, hp⟩ := h
  rw [validField_iff, checkField, scanName_eq, ← version_iff]
  cases hfind : name.toList.find? (fun c => !isPrintable c) with
  | some c => simp
  | none =>
      have hpass := List.find?_eq_none.mp hfind c (Vector.mem_toList_iff.mpr hmem)
      simp [hp] at hpass

/-- Otherwise the byte behind the field is taken for the terminator. -/
theorem checkField_of_printable {name : Vector UInt8 256} (h : ∀ c ∈ name, isPrintable c = true)
    (behind : Nat → UInt8) (majorVersion minorVersion : Int32) :
    (checkField name behind majorVersion minorVersion = true ↔
      behind 0 = 0 ∧ ¬ (majorVersion = 0 ∧ minorVersion = 0)) ∧
      ¬ ValidField name majorVersion minorVersion := by
  have hfind : name.toList.find? (fun c => !isPrintable c) = none :=
    List.find?_eq_none.mpr fun c hc => by simpa using h c (Vector.mem_toList_iff.mp hc)
  rw [validField_iff, checkField, scanName_eq, hfind, ← version_iff]
  simp

/-- `check` accepts exactly the valid fields, whatever follows them in memory, unless the version
is valid and every byte of the field is printable: then the byte behind the field decides. -/
theorem checkField_iff (name : Vector UInt8 256) (majorVersion minorVersion : Int32) :
    (∀ behind, checkField name behind majorVersion minorVersion = true ↔
        ValidField name majorVersion minorVersion) ↔
      (∃ c ∈ name, isPrintable c = false) ∨ (majorVersion = 0 ∧ minorVersion = 0) := by
  by_cases hprint : ∃ c ∈ name, isPrintable c = false
  · exact iff_of_true (fun behind => checkField_of_unprintable hprint behind _ _) (Or.inl hprint)
  · have hall (c : UInt8) (hc : c ∈ name) : isPrintable c = true :=
      (Bool.not_eq_false _).mp fun hp => hprint ⟨c, hc, hp⟩
    have hcheck (behind : Nat → UInt8) :=
      checkField_of_printable hall behind majorVersion minorVersion
    constructor
    · intro h
      refine Or.inr (Decidable.byContradiction fun hversion => ?_)
      exact (hcheck fun _ => 0).2 ((h fun _ => 0).mp ((hcheck fun _ => 0).1.mpr ⟨rfl, hversion⟩))
    · rintro (hbyte | hversion) behind
      · exact absurd hbyte hprint
      · rw [(hcheck behind).1]
        exact iff_of_false (fun h => h.2 hversion) (hcheck behind).2

/-- The field of 256 letters is accepted if the byte behind it happens to be a NUL. -/
theorem not_checkField_unterminated :
    ¬ ∀ (name : Vector UInt8 256) (majorVersion minorVersion : Int32) (behind : Nat → UInt8),
      checkField name behind majorVersion minorVersion = true ↔
        ValidField name majorVersion minorVersion := by
  intro h
  have hvalid := (h (Vector.replicate 256 97) 1 0 (fun _ => 0)).mp (by decide +kernel)
  exact absurd hvalid.terminated (by simp)

/-- On a field with a NUL the check is that of the name before it. -/
theorem checkField_eq_check {name : Vector UInt8 256} (h : 0 ∈ name) (behind : Nat → UInt8)
    (majorVersion minorVersion : Int32) :
    checkField name behind majorVersion minorVersion =
      check ⟨fieldName name, majorVersion, minorVersion⟩ := by
  have hbyte (c : UInt8) : (!(c < 32 || c == 127) && c < 128) = isPrintable c := by
    rw [isPrintable, Bool.eq_iff_iff]
    simp only [Bool.and_eq_true, Bool.not_eq_true', Bool.or_eq_false_iff, decide_eq_true_eq,
      decide_eq_false_iff_not, beq_eq_false_iff_ne, ne_eq, UInt8.lt_iff_toNat_lt,
      UInt8.le_iff_toNat_le, ← UInt8.toNat_inj]
    have h32 : (32 : UInt8).toNat = 32 := rfl
    have h127 : (127 : UInt8).toNat = 127 := rfl
    have h128 : (128 : UInt8).toNat = 128 := rfl
    omega
  have hiff := checkField_of_unprintable ⟨0, h, rfl⟩ behind majorVersion minorVersion
  rw [Bool.eq_iff_iff, hiff, check]
  simp only [hbyte, Bool.and_eq_true, List.all_eq_true, version_iff]
  exact ⟨fun hv => ⟨hv.printable, hv.version⟩, fun hv => ⟨h, hv.1, hv.2⟩⟩

/-! ## TCP variants -/

/-- The loop of `std::string::rfind`, downwards from a position. -/
def rfindFrom (s pattern : CString) : Nat → Option Nat
  | 0 => if s.take pattern.length = pattern then some 0 else none
  | pos + 1 =>
      if (s.drop (pos + 1)).take pattern.length = pattern then some (pos + 1)
      else rfindFrom s pattern pos

/-- `std::string::rfind`: the last occurrence that begins at the position or before it. -/
def rfind (s pattern : CString) (pos : Nat) : Option Nat :=
  if pattern.length ≤ s.length then rfindFrom s pattern (min (s.length - pattern.length) pos)
  else none

/-- The name that `forwardService` looks up for a name with the suffix, if it strips it. -/
def tcpBase? (servicename : CString) : Option CString :=
  if servicename.length > 4 ∧
      rfind servicename tcpSuffix (servicename.length - 4) = some (servicename.length - 4) then
    some (servicename.take (servicename.length - 4))
  else
    none

theorem rfindFrom_le {s pattern : CString} {pos k : Nat} (h : rfindFrom s pattern pos = some k) :
    k ≤ pos := by
  induction pos with
  | zero =>
      rw [rfindFrom] at h
      obtain ⟨-, hk⟩ := Option.ite_none_right_eq_some.mp h
      exact Nat.le_of_eq (Option.some.inj hk).symm
  | succ pos ih =>
      rw [rfindFrom] at h
      split at h
      · exact Nat.le_of_eq (Option.some.inj h).symm
      · exact Nat.le_succ_of_le (ih h)

/-- The search finds the position it begins at only if the pattern is there. -/
theorem rfindFrom_eq_self {s pattern : CString} (pos : Nat) :
    rfindFrom s pattern pos = some pos ↔ (s.drop pos).take pattern.length = pattern := by
  cases pos with
  | zero => simp [rfindFrom]
  | succ pos =>
      rw [rfindFrom]
      split
      · next h => exact iff_of_true rfl h
      · next h =>
        refine iff_of_false (fun hself => ?_) h
        have hle := rfindFrom_le hself
        omega

/-- So the test of `forwardService` is whether the name ends in the suffix. -/
theorem tcpBase?_eq (name : CString) :
    tcpBase? name =
      if 4 < name.length ∧ endsWithTcp name then some (name.take (name.length - 4)) else none := by
  have hsuffix : tcpSuffix.length = 4 := rfl
  have htest (hlen : 4 < name.length) :
      rfind name tcpSuffix (name.length - 4) = some (name.length - 4) ↔
        endsWithTcp name = true := by
    have hwhole : (name.drop (name.length - 4)).take tcpSuffix.length =
        name.drop (name.length - 4) := by
      refine List.take_of_length_le ?_
      rw [List.length_drop]
      omega
    rw [rfind, if_pos (by omega), hsuffix, Nat.min_self, rfindFrom_eq_self, hwhole, endsWithTcp,
      decide_eq_true_iff]
  rw [tcpBase?]
  by_cases hlen : 4 < name.length
  · simp only [gt_iff_lt, hlen, true_and, htest hlen]
  · rw [if_neg (fun h => hlen h.1), if_neg (fun h => hlen h.1)]

/-- `forwardService` looks the name up without the suffix that it strips. -/
theorem forwardService_eq (cfg : Config) (name : CString) :
    cfg.forwardService name =
      if cfg.isTreeMode then
        if cfg.mForwardServices = [[42]] then true
        else cfg.mForwardServices.contains ((tcpBase? name).getD name)
      else true := by
  rw [Config.forwardService, tcpBase?_eq]
  by_cases h : 4 < name.length ∧ endsWithTcp name = true
  · rw [if_pos h, if_pos h]
    rfl
  · rw [if_neg h, if_neg h]
    rfl

/-- The TCP variant of a service is forwarded when the service is. -/
theorem forwardService_append_tcp (cfg : Config) {b : CString} (hne : b ≠ [])
    (hb : endsWithTcp b = false) :
    cfg.forwardService (b ++ tcpSuffix) = cfg.forwardService b := by
  have hlen : (b ++ tcpSuffix).length - 4 = b.length := by
    rw [List.length_append]
    exact Nat.add_sub_cancel _ 4
  have hpos := List.length_pos_iff.mpr hne
  have hends : endsWithTcp (b ++ tcpSuffix) = true := by
    rw [endsWithTcp, hlen, List.drop_left]
    exact decide_eq_true rfl
  have hlong : 4 < (b ++ tcpSuffix).length := by omega
  have hstripped : tcpBase? (b ++ tcpSuffix) = some b := by
    rw [tcpBase?_eq, if_pos ⟨hlong, hends⟩, hlen, List.take_left]
  have hwhole : tcpBase? b = none := by
    rw [tcpBase?_eq, hb]
    exact if_neg (fun h => nomatch h.2)
  rw [forwardService_eq, forwardService_eq, hstripped, hwhole]
  rfl

/-- The two tests agree, and TCP variants are forwarded with their services, except that the test
for rewriting addresses takes no name of five characters for a TCP variant. -/
theorem tcpNames_iff (cfg : Config) (name : CString) :
    ((isTcpService name = true ↔ (tcpBase? name).isSome = true) ∧
      ∀ b, b ≠ [] → endsWithTcp b = false →
        cfg.forwardService (b ++ tcpSuffix) = cfg.forwardService b) ↔
      ¬ (name.length = 5 ∧ endsWithTcp name = true) := by
  have hforward : ∀ b, b ≠ [] → endsWithTcp b = false →
      cfg.forwardService (b ++ tcpSuffix) = cfg.forwardService b :=
    fun b hne hb => forwardService_append_tcp cfg hne hb
  rw [and_iff_left hforward, isTcpService, tcpBase?_eq, Bool.and_eq_true, decide_eq_true_iff]
  by_cases hends : endsWithTcp name = true
  · by_cases hlen : 4 < name.length
    · rw [if_pos ⟨hlen, hends⟩]
      simp only [hends, and_true, Option.isSome_some, iff_true]
      omega
    · rw [if_neg (fun h => hlen h.1)]
      simp only [hends, and_true, Option.isSome_none, Bool.false_eq_true, iff_false]
      omega
  · rw [if_neg (fun h => hends h.2)]
    simp [hends]

/-- `x_tcp` is looked up as `x`, and its address not rewritten. -/
theorem not_tcpNames_short :
    ¬ ∀ name : CString, isTcpService name = true ↔ (tcpBase? name).isSome = true := fun h =>
  absurd (h [120, 95, 116, 99, 112]) (by decide)

end Dsi
