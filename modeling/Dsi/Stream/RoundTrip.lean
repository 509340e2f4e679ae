import Dsi.Stream.Overlay

/-!
# Dsi.Stream.RoundTrip

What `COStream` writes, `CIStream` reads back.  Both sides pad from their own
offset; the lemmas keep the two offsets equal by stating every read at the
length of what was written before.
-/

namespace Dsi

open LittleEndian

/-! ## The values in question -/

namespace Ty

/-- No map inside. -/
def MapFree : Ty → Prop
  | .vector t => t.MapFree
  | .map _ _ => False
  | _ => True

/-- Maps are built from types without maps. -/
def Plain : Ty → Prop
  | .vector t => t.Plain
  | .map k v => k.MapFree ∧ v.MapFree
  | _ => True

/-- A value of its type: wide characters are code points, vectors have fewer
than `2 ^ 31` elements, and the keys of a map are in order. -/
def Valid : (t : Ty) → t.Val → Prop
  | .wstring, s => ∀ w ∈ s, 0 ≤ w ∧ w ≤ 0x10ffff
  | .vector t, v => v.length < 2 ^ 31 ∧ ∀ x ∈ v, t.Valid x
  | .map k v, m =>
      m.Pairwise (fun a b => k.less a.1 b.1 = true) ∧ ∀ e ∈ m, k.Valid e.1 ∧ v.Valid e.2
  | _, _ => True

/-- The lengths of strings and maps fit the 32 bits they are written in. -/
def Fits : (t : Ty) → t.Val → Prop
  | .string, s => s.length < 2 ^ 32
  | .wstring, s => (toUTF8 s).length + 1 < 2 ^ 32
  | .vector t, v => ∀ x ∈ v, t.Fits x
  | .map k v, m => m.length < 2 ^ 31 ∧ ∀ e ∈ m, k.Fits e.1 ∧ v.Fits e.2
  | _, _ => True

/-- A variable that a read overwrites completely: its maps are empty. -/
def Clean : (t : Ty) → t.Val → Prop
  | .vector t, v => ∀ x ∈ v, t.Clean x
  | .map _ _, m => m = []
  | _, _ => True

theorem clean_init (x : (n : Nat) → BitVec n) (t : Ty) : t.Clean (t.init x) := by
  cases t with
  | vector t => exact nofun
  | map k v => exact rfl
  | _ => trivial

end Ty

/-! ## Integers -/

section Streams

variable (raw : Nat → UInt8) (junk : (n : Nat) → BitVec n) {data : List UInt8}

namespace COStream

theorem length_writeInt (size value : Nat) (out : COStream) :
    (writeInt raw size value out).length = out.length + padding out.length size + size := by
  simp [writeInt, Nat.add_assoc]

theorem le_writeInt (size value : Nat) (out : COStream) : out <+: writeInt raw size value out := by
  rw [writeInt, List.append_assoc]
  exact List.prefix_append _ _

end COStream

namespace CIStream

open COStream

/-- An integer is read back where it was written, padding included. -/
theorem readInt_writeInt {size value : Nat} {out : COStream} (old : BitVec (8 * size))
    (h : writeInt raw size value out <+: data) :
    readInt size old ⟨data, out.length, false⟩ =
      (.ofNat _ value, ⟨data, (writeInt raw size value out).length, false⟩) := by
  have hlen := length_writeInt raw size value out
  obtain ⟨rest, hdata⟩ := h
  have hfits : out.length + padding out.length size + size ≤ data.length := by
    rw [← hdata, List.length_append]
    omega
  have hbytes : (data.drop (out.length + padding out.length size)).take size =
      bytes size value := by
    have hfront : (out ++ (List.range (padding out.length size)).map
        (fun i => raw (out.length + i))).length = out.length + padding out.length size := by simp
    rw [← hdata, writeInt, List.append_assoc, List.drop_left' hfront,
      List.take_left' (length_bytes size value)]
  have hvalue : BitVec.ofNat (8 * size) (value % 256 ^ size) = BitVec.ofNat (8 * size) value := by
    have hpow : 256 ^ size = 2 ^ (8 * size) := by rw [Nat.pow_mul]
    rw [hpow]
    exact BitVec.eq_of_toNat_eq (by simp)
  rw [readInt]
  simp only [Bool.false_eq_true, if_false, if_pos hfits, hbytes, value_bytes, hvalue, hlen]

/-- The length word of a string or container. -/
theorem readInt_length {n : Nat} {out : COStream} (hn : n < 2 ^ 32)
    (h : writeInt raw 4 (n % 2 ^ 32) out <+: data) :
    ∃ x : BitVec 32, x.toNat = n ∧
      readInt 4 0 ⟨data, out.length, false⟩ =
        (x, ⟨data, (writeInt raw 4 (n % 2 ^ 32) out).length, false⟩) := by
  refine ⟨.ofNat 32 (n % 2 ^ 32), ?_, readInt_writeInt raw 0 h⟩
  rw [BitVec.toNat_ofNat]
  omega

/-! ## Strings -/

/-- What follows the length word is read as it was written. -/
theorem take_drop_of_append {out buf : List UInt8} (h : out ++ buf <+: data) :
    (data.drop out.length).take buf.length = buf ∧ buf.length ≤ data.length - out.length := by
  obtain ⟨rest, rfl⟩ := h
  rw [List.append_assoc, List.drop_left, List.take_left]
  refine ⟨rfl, ?_⟩
  simp only [List.length_append]
  omega

theorem readString_writeString {buf : List UInt8} {out : COStream} (old : List UInt8)
    (hbuf : buf.length < 2 ^ 32) (h : writeString raw buf out <+: data) :
    readString old ⟨data, out.length, false⟩ =
      (buf, ⟨data, (writeString raw buf out).length, false⟩) := by
  rw [writeString] at h ⊢
  by_cases hnil : buf.length ≠ 0
  · rw [if_pos hnil] at h ⊢
    obtain ⟨x, hx, hword⟩ := readInt_length raw hbuf ((List.prefix_append _ _).trans h)
    obtain ⟨htake, hle⟩ := take_drop_of_append h
    simp only [readString, Bool.false_eq_true, if_false, hword, hx]
    rw [if_pos ⟨nofun, Nat.pos_of_ne_zero hnil⟩, if_pos hle, htake, List.length_append]
  · rw [if_neg hnil] at h ⊢
    obtain ⟨x, hx, hword⟩ := readInt_length raw hbuf h
    have hempty : buf = [] := List.length_eq_zero_iff.mp (Classical.not_not.mp hnil)
    simp only [readString, Bool.false_eq_true, if_false, hword, hx]
    rw [if_neg (fun hc => hnil (Nat.ne_of_gt hc.2)), hempty]

theorem readWString_writeWString {str : List Int} {out : COStream} (old : List Int)
    (hstr : ∀ w ∈ str, 0 ≤ w ∧ w ≤ 0x10ffff) (hlen : (toUTF8 str).length + 1 < 2 ^ 32)
    (h : writeWString raw str out <+: data) :
    readWString old ⟨data, out.length, false⟩ =
      (str, ⟨data, (writeWString raw str out).length, false⟩) := by
  rw [writeWString] at h ⊢
  by_cases hnil : str.length ≠ 0
  · rw [if_pos hnil] at h ⊢
    have hcount : ((toUTF8 str).length % 2 ^ 32 + 1) % 2 ^ 32 =
        ((toUTF8 str).length + 1) % 2 ^ 32 := by omega
    simp only [hcount] at h ⊢
    obtain ⟨x, hx, hword⟩ := readInt_length raw hlen ((List.prefix_append _ _).trans h)
    obtain ⟨-, hle⟩ := take_drop_of_append h
    have hfront : writeInt raw 4 (((toUTF8 str).length + 1) % 2 ^ 32) out ++ toUTF8 str <+:
        data := by
      rw [← List.append_assoc] at h
      exact (List.prefix_append _ _).trans h
    obtain ⟨htake, -⟩ := take_drop_of_append hfront
    rw [List.length_append, List.length_singleton] at hle
    simp only [readWString, Bool.false_eq_true, if_false, hword, hx]
    rw [if_pos ⟨nofun, Nat.succ_pos _⟩, if_pos hle, Nat.add_sub_cancel, htake,
      fromUTF8_toUTF8 hstr]
    simp only [List.length_append, List.length_singleton]
  · rw [if_neg hnil] at h ⊢
    obtain ⟨x, hx, hword⟩ := readInt_length raw (n := 0) (by decide) h
    have hempty : str = [] := List.length_eq_zero_iff.mp (Classical.not_not.mp hnil)
    simp only [Nat.zero_mod] at hword
    simp only [readWString, Bool.false_eq_true, if_false, hword, hx]
    rw [if_neg (fun hc => Nat.lt_irrefl 0 hc.2), hempty]

/-! ## Containers -/

section Loops

variable {α β : Type}

/-- A loop that only appends. -/
theorem le_foldl {wr : COStream → α → COStream} (hgrow : ∀ out x, out <+: wr out x)
    (xs : List α) (out : COStream) : out <+: xs.foldl wr out := by
  induction xs generalizing out with
  | nil => exact List.prefix_refl out
  | cons x xs ih => exact (hgrow out x).trans (ih (wr out x))

/-- The elements of a vector are read one after the other, each over the one that
is there. -/
theorem readEach_zipWith {wr : COStream → α → COStream} {f : α → α → α}
    {rd : α → CIStream → Option (α × CIStream)} {olds xs : List α} {out : COStream}
    (hgrow : ∀ out x, out <+: wr out x)
    (hread : ∀ x ∈ xs, ∀ old out, wr out x <+: data →
      rd old ⟨data, out.length, false⟩ = some (f old x, ⟨data, (wr out x).length, false⟩))
    (hlen : olds.length = xs.length) (h : xs.foldl wr out <+: data) :
    readEach rd olds ⟨data, out.length, false⟩ =
      some (List.zipWith f olds xs, ⟨data, (xs.foldl wr out).length, false⟩) := by
  induction xs generalizing olds out with
  | nil =>
      obtain rfl := List.length_eq_zero_iff.mp hlen
      rfl
  | cons x xs ih =>
      cases olds with
      | nil => contradiction
      | cons old olds =>
          have hhead := hread x List.mem_cons_self old out ((le_foldl hgrow xs _).trans h)
          have htail : readEach rd olds ⟨data, (wr out x).length, false⟩ =
              some (List.zipWith f olds xs, ⟨data, (xs.foldl wr (wr out x)).length, false⟩) :=
            ih (fun y hy => hread y (List.mem_cons_of_mem x hy)) (Nat.succ.inj hlen) h
          rw [readEach, hhead]
          simp only [Option.bind_eq_bind, Option.bind_some, htail]
          rfl

/-- The entries of a map are read one after the other, each over the one before,
and assigned to the map that is there. -/
theorem readEntries_mapAssigns {lt : α → α → Bool} {wk : COStream → α → COStream}
    {wv : COStream → β → COStream} {fk : α → α → α} {fv : β → β → β}
    {rk : α → CIStream → Option (α × CIStream)} {rv : β → CIStream → Option (β × CIStream)}
    {xs m : List (α × β)} {out : COStream}
    (hgrowk : ∀ out x, out <+: wk out x) (hgrowv : ∀ out x, out <+: wv out x)
    (hk : ∀ e ∈ xs, ∀ old out, wk out e.1 <+: data →
      rk old ⟨data, out.length, false⟩ = some (fk old e.1, ⟨data, (wk out e.1).length, false⟩))
    (hv : ∀ e ∈ xs, ∀ old out, wv out e.2 <+: data →
      rv old ⟨data, out.length, false⟩ = some (fv old e.2, ⟨data, (wv out e.2).length, false⟩))
    (key : α) (value : β) (h : xs.foldl (fun out e => wv (wk out e.1) e.2) out <+: data) :
    readEntries lt rk rv xs.length key value m ⟨data, out.length, false⟩ =
      some (mapAssigns lt ((carry fk key (xs.map (·.1))).zip (carry fv value (xs.map (·.2)))) m,
        ⟨data, (xs.foldl (fun out e => wv (wk out e.1) e.2) out).length, false⟩) := by
  induction xs generalizing m out key value with
  | nil => rfl
  | cons e xs ih =>
      have hgrow : ∀ out (x : α × β), out <+: wv (wk out x.1) x.2 :=
        fun out x => (hgrowk out x.1).trans (hgrowv _ x.2)
      have hentry : wv (wk out e.1) e.2 <+: data := (le_foldl hgrow xs _).trans h
      have hkey := hk e List.mem_cons_self key out ((hgrowv _ e.2).trans hentry)
      have hval := hv e List.mem_cons_self value (wk out e.1) hentry
      have hrest := ih (m := mapAssign lt (fk key e.1) (fv value e.2) m)
        (fun y hy => hk y (List.mem_cons_of_mem e hy))
        (fun y hy => hv y (List.mem_cons_of_mem e hy)) (fk key e.1) (fv value e.2) h
      rw [List.length_cons, readEntries, hkey]
      simp only [Option.bind_eq_bind, Option.bind_some, hval]
      rw [hrest]
      rfl

end Loops

/-! ## Every type -/

theorem toInt_of_lt {x : BitVec 32} {n : Nat} (hx : x.toNat = n) (hn : n < 2 ^ 31) :
    x.toInt = (n : Int) := by
  rw [BitVec.toInt_eq_toNat_of_lt (by omega), hx]

/-- Writing only appends. -/
theorem le_write (t : Ty) (v : t.Val) (out : COStream) : out <+: write raw t v out := by
  induction t generalizing out with
  | int signed w => exact le_writeInt raw _ _ out
  | bool => exact le_writeInt raw _ _ out
  | enum signed => exact le_writeInt raw _ _ out
  | string =>
      have hword := le_writeInt raw 4 (List.length v % 2 ^ 32) out
      rw [write, writeString]
      by_cases h : List.length v ≠ 0
      · rw [if_pos h]
        exact hword.trans (List.prefix_append _ _)
      · rw [if_neg h]
        exact hword
  | wstring =>
      rw [write, writeWString]
      by_cases h : List.length v ≠ 0
      · rw [if_pos h]
        exact (le_writeInt raw _ _ out).trans (List.prefix_append _ _)
      · rw [if_neg h]
        exact le_writeInt raw _ _ out
  | vector t ih =>
      exact (le_writeInt raw _ _ out).trans (le_foldl (fun out x => ih x out) v _)
  | map k e ihk ihe =>
      exact (le_writeInt raw _ _ out).trans
        (le_foldl (fun out x => (ihk x.1 out).trans (ihe x.2 _)) v _)

theorem length_resize {α : Type} (zero : α) (n : Nat) (v : List α) :
    (resize zero n v).length = n := by
  simp [resize]
  omega

/-- Whatever is in the variable, a value is read over it, and the offset ends
behind it. -/
theorem read_overlay (t : Ty) (v old : t.Val) (hvalid : t.Valid v) (hfits : t.Fits v)
    (out : COStream) (h : write raw t v out <+: data) :
    read junk t old ⟨data, out.length, false⟩ =
      some (overlay junk t old v, ⟨data, (write raw t v out).length, false⟩) := by
  induction t generalizing out with
  | int signed w =>
      rw [write] at h ⊢
      rw [read, readInt_writeInt raw old h, overlay]
      simp
  | bool =>
      rw [write] at h ⊢
      simp only [read, readInt_writeInt raw 0 h, overlay]
      cases v <;> rfl
  | enum signed =>
      rw [write] at h ⊢
      rw [read, readInt_writeInt raw old h, overlay]
      simp
  | string => rw [read, write, readString_writeString raw old hfits h, overlay]
  | wstring => rw [read, write, readWString_writeWString raw old hvalid hfits h, overlay]
  | vector t ih =>
      obtain ⟨hlen, hvalid⟩ := hvalid
      rw [write] at h ⊢
      have hgrow : ∀ out x, out <+: write raw t x out := fun out x => le_write raw t x out
      obtain ⟨x, hx, hword⟩ :=
        readInt_length raw (Nat.lt_trans hlen (by decide)) ((le_foldl hgrow v _).trans h)
      have hint := toInt_of_lt hx hlen
      have hsize := length_resize (t.init fun n => 0#n) (List.length v) old
      simp only [read, hword, hint, hx]
      rw [if_neg (by omega), overlay]
      exact readEach_zipWith hgrow
        (fun y hy o out' => ih y o (hvalid y hy) (hfits y hy) out') hsize h
  | map k e ihk ihe =>
      obtain ⟨-, hvalid⟩ := hvalid
      obtain ⟨hlen, hfits⟩ := hfits
      rw [write] at h ⊢
      have hgrow : ∀ out (x : k.Val × e.Val), out <+: write raw e x.2 (write raw k x.1 out) :=
        fun out x => (le_write raw k x.1 out).trans (le_write raw e x.2 _)
      obtain ⟨x, hx, hword⟩ :=
        readInt_length raw (Nat.lt_trans hlen (by decide)) ((le_foldl hgrow v _).trans h)
      have hint := toInt_of_lt hx hlen
      simp only [read, hword, hint, Int.toNat_natCast, overlay]
      exact readEntries_mapAssigns (fun out x => le_write raw k x out)
        (fun out x => le_write raw e x out)
        (fun y hy o out' => ihk y.1 o (hvalid y hy).1 (hfits y hy).1 out')
        (fun y hy o out' => ihe y.2 o (hvalid y hy).2 (hfits y hy).2 out') _ _ h

theorem clean_resize {t : Ty} {n : Nat} {old : List t.Val} (h : ∀ x ∈ old, t.Clean x) :
    ∀ x ∈ resize (t.init fun n => 0#n) n old, t.Clean x := by
  intro x hx
  rcases List.mem_append.mp hx with hold | hnew
  · exact h x (List.mem_of_mem_take hold)
  · rw [List.eq_of_mem_replicate hnew]
    exact Ty.clean_init _ t

theorem forall₂_resize {α : Type} {R : α → α → Prop} {zero : α} {old v : List α}
    (hR : ∀ o ∈ resize zero v.length old, ∀ x ∈ v, R o x) :
    List.Forall₂ R (resize zero v.length old) v := by
  refine List.forall₂_iff_zip.mpr ⟨length_resize _ _ _, fun {o x} hox => ?_⟩
  have hmem := List.of_mem_zip hox
  exact hR o hmem.1 x hmem.2

/-- Without maps nothing is left of the old value. -/
theorem overlay_of_mapFree {t : Ty} (hfree : t.MapFree) (old v : t.Val) :
    overlay junk t old v = v := by
  induction t with
  | vector t ih =>
      rw [overlay, zipWith_eq_right_iff (length_resize _ _ _)]
      exact forall₂_resize fun o _ x _ => ih hfree o x
  | map k e => exact hfree.elim
  | _ => rfl

/-- A value overlays a variable that it overwrites completely. -/
theorem overlay_of_clean {t : Ty} (hplain : t.Plain) {v old : t.Val} (hvalid : t.Valid v)
    (hclean : t.Clean old) : overlay junk t old v = v := by
  induction t with
  | vector t ih =>
      rw [overlay, zipWith_eq_right_iff (length_resize _ _ _)]
      exact forall₂_resize fun o ho x hx => ih hplain (hvalid.2 x hx) (clean_resize hclean o ho)
  | map k e =>
      obtain rfl : old = [] := hclean
      rw [overlay, carry_of_forall (overlay_of_mapFree junk hplain.1),
        carry_of_forall (overlay_of_mapFree junk hplain.2), ← List.zip_of_prod rfl rfl,
        mapAssigns_eq_self_iff k.strictComparison_less hvalid.1 List.Pairwise.nil]
      exact nofun
  | _ => rfl

/-- A value is read back into any variable that is overwritten completely. -/
theorem read_write (t : Ty) (hplain : t.Plain) (v old : t.Val) (hvalid : t.Valid v)
    (hfits : t.Fits v) (hclean : t.Clean old) (out : COStream) (h : write raw t v out <+: data) :
    read junk t old ⟨data, out.length, false⟩ =
      some (v, ⟨data, (write raw t v out).length, false⟩) := by
  rw [read_overlay raw junk t v old hvalid hfits out h,
    overlay_of_clean junk hplain hvalid hclean]

end CIStream

end Streams

/-! ## Sequences -/

/-- The bytes of a sequence of values. -/
def COStream.writeSeq (raw : Nat → UInt8) (vs : List ((t : Ty) × t.Val)) (out : COStream) :
    COStream :=
  vs.foldl (fun out x => write raw x.1 x.2 out) out

/-- Written to an empty stream and read in the same order into fresh variables, a
sequence comes back, without an error and with the read offset at the end. -/
def RoundTripsSeq (raw : Nat → UInt8) (junk : (n : Nat) → BitVec n)
    (vs : List ((t : Ty) × t.Val)) : Prop :=
  let payload := COStream.writeSeq raw vs []
  CIStream.readSeq junk (vs.map (·.1)) (.create payload) =
    some (vs, ⟨payload, payload.length, false⟩)

theorem readSeq_writeSeq {raw : Nat → UInt8} {junk : (n : Nat) → BitVec n} {data : List UInt8}
    {vs : List ((t : Ty) × t.Val)} {out : COStream}
    (hvs : ∀ x ∈ vs, x.1.Plain ∧ x.1.Valid x.2 ∧ x.1.Fits x.2)
    (h : COStream.writeSeq raw vs out <+: data) :
    CIStream.readSeq junk (vs.map (·.1)) ⟨data, out.length, false⟩ =
      some (vs, ⟨data, (COStream.writeSeq raw vs out).length, false⟩) := by
  induction vs generalizing out with
  | nil => rfl
  | cons x vs ih =>
      obtain ⟨hplain, hvalid, hfits⟩ := hvs x List.mem_cons_self
      have hgrow : ∀ out (y : (t : Ty) × t.Val), out <+: COStream.write raw y.1 y.2 out :=
        fun out y => CIStream.le_write raw y.1 y.2 out
      have hhead := CIStream.read_write raw junk x.1 hplain x.2 (x.1.init junk) hvalid hfits
        (Ty.clean_init junk x.1) out ((CIStream.le_foldl hgrow vs _).trans h)
      have htail := ih (fun y hy => hvs y (List.mem_cons_of_mem x hy)) h
      rw [List.map_cons, CIStream.readSeq, hhead]
      simp only [Option.bind_eq_bind, Option.bind_some, htail]
      rfl

/-- **Stream round trip**: values of types in which maps hold no maps come back
from the stream, whatever the padding and the fresh variables hold, if the
lengths of strings and maps fit the 32 bits they are written in. -/
theorem roundTripsSeq_of_fits (raw : Nat → UInt8) (junk : (n : Nat) → BitVec n)
    (vs : List ((t : Ty) × t.Val)) (hvs : ∀ x ∈ vs, x.1.Plain ∧ x.1.Valid x.2 ∧ x.1.Fits x.2) :
    RoundTripsSeq raw junk vs :=
  readSeq_writeSeq hvs (List.prefix_refl _)

/-- A byte, a map from strings to vectors of wide strings, and a number that has
to be aligned behind them. -/
theorem roundTripsSeq_mixed :
    RoundTripsSeq (fun _ => 0xee) (fun n => -1#n)
      [⟨.int false .w8, 7#8⟩,
        ⟨.map .string (.vector .wstring), [([0x61], [[0x1f600], []]), ([0x62], [])]⟩,
        ⟨.int true .w64, 42#64⟩] := by
  refine roundTripsSeq_of_fits _ _ _ fun x hx => ?_
  simp only [List.mem_cons, List.not_mem_nil, or_false] at hx
  obtain rfl | rfl | rfl := hx
  · exact ⟨trivial, trivial, trivial⟩
  · refine ⟨⟨trivial, trivial⟩, ?_, ?_⟩
    · simp [Ty.Valid, Ty.less, Ty.lexLt]
    · simp [Ty.Fits, toUTF8, encodeWChar]
  · exact ⟨trivial, trivial, trivial⟩

/-- A string whose length is a multiple of `2 ^ 32` is announced as empty. -/
theorem readString_of_length_mod {raw : Nat → UInt8} {data buf : List UInt8} (out : COStream)
    (old : List UInt8) (hbuf : buf.length % 2 ^ 32 = 0)
    (h : COStream.writeString raw buf out <+: data) :
    (CIStream.readString old ⟨data, out.length, false⟩).1 = [] := by
  have hword : COStream.writeInt raw 4 (0 % 2 ^ 32) out <+: data := by
    refine List.IsPrefix.trans ?_ h
    rw [COStream.writeString, hbuf]
    split
    · exact List.prefix_append _ _
    · exact List.prefix_refl _
  obtain ⟨x, hx, hread⟩ := CIStream.readInt_length raw (by decide) hword
  simp only [CIStream.readString, Bool.false_eq_true, if_false, hread, hx]
  rw [if_neg fun hc => Nat.lt_irrefl 0 hc.2]

/-- A string of `2 ^ 32` bytes comes back empty. -/
theorem not_roundTripsSeq_long_string :
    ¬ RoundTripsSeq (fun _ => 0) (fun n => 0#n) [⟨.string, List.replicate (2 ^ 32) 0⟩] := by
  obtain ⟨buf, hbuf, hlen⟩ : ∃ buf : List UInt8, buf = List.replicate (2 ^ 32) 0 ∧
      buf.length = 2 ^ 32 := ⟨_, rfl, List.length_replicate ..⟩
  rw [← hbuf]
  intro h
  have hempty : (CIStream.readString [] ⟨COStream.writeString (fun _ => 0) buf [], 0, false⟩).1 =
      [] := readString_of_length_mod [] [] (by rw [hlen, Nat.mod_self]) (List.prefix_refl _)
  have hread : CIStream.readSeq (fun n => 0#n) [.string]
      (.create (COStream.writeString (fun _ => 0) buf [])) =
      some ([⟨.string, (CIStream.readString []
        ⟨COStream.writeString (fun _ => 0) buf [], 0, false⟩).1⟩], _) := rfl
  rw [hempty] at hread
  have hsame := (Prod.mk.inj (Option.some.inj (hread.symm.trans h))).1
  have hnil : [] = buf := by simpa using hsame
  rw [← hnil] at hlen
  contradiction

end Dsi
