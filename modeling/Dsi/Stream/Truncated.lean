import Dsi.Stream.Utf8

/-!
# Dsi.Stream.Truncated

What `fromUTF8` (`src/base/utf8.cpp`) makes of a multi-byte sequence that is cut off, with
well-formed UTF-8 behind it.  A byte up to `0x7f` and the end of the input report the sequence
that is pending; a lead byte starts the next sequence and drops the pending one.
-/

namespace Dsi

/-- The continuation bytes that a lead byte announces; any other byte announces none. -/
def announced (b : UInt8) : Nat :=
  if b.toNat ≤ 0xbf then 0
  else if b.toNat ≤ 0xdf then 1
  else if b.toNat ≤ 0xef then 2
  else if b.toNat ≤ 0xf7 then 3
  else 0

/-- A lead byte followed by fewer continuation bytes than it announces. -/
def Truncated : List UInt8 → Prop
  | [] => False
  | lead :: tail => tail.length < announced lead ∧ ∀ b ∈ tail, 0x80 ≤ b.toNat ∧ b.toNat ≤ 0xbf

instance : DecidablePred Truncated
  | [] => inferInstanceAs (Decidable False)
  | _ :: _ => inferInstanceAs (Decidable (_ ∧ _))

/-- The characters as `fromUTF8` is to decode them. -/
def codePoints (cs : List Char) : List Int := cs.map (fun c => (c.toNat : Int))

/-- The UTF-8 encoding of the characters. -/
def utf8Bytes (cs : List Char) : List UInt8 := cs.flatMap String.utf8EncodeChar

/-! ## Well-formed UTF-8 -/

theorem codePoint_lt (c : Char) : c.toNat < 0x110000 := by
  rcases c.valid with h | ⟨_, h⟩
  · exact Nat.lt_trans h (by decide)
  · exact h

/-- A tag in the high bits is added. -/
theorem tag_add {t x : Nat} (k : Nat) (hx : x < 2 ^ k) (ht : t % 2 ^ k = 0) : t ||| x = x + t := by
  obtain ⟨a, rfl⟩ := Nat.dvd_of_mod_eq_zero ht
  rw [tag_or hx, Nat.add_comm]

/-- `toUTF8` pushes the encoding of a character. -/
theorem encodeWChar_toNat (c : Char) : encodeWChar c.toNat = String.utf8EncodeChar c := by
  have hc := codePoint_lt c
  have hval : c.val.toNat = c.toNat := rfl
  have htail (n : Nat) : 0x80 ||| n &&& 0x3f = n % 64 + 0x80 :=
    (congrArg (0x80 ||| ·) (and_mask n 6)).trans (tag_add 6 (Nat.mod_lt _ (by decide)) rfl)
  have hlead2 (n : Nat) : 0xc0 ||| n &&& 0x1f = n % 32 + 0xc0 :=
    (congrArg (0xc0 ||| ·) (and_mask n 5)).trans (tag_add 5 (Nat.mod_lt _ (by decide)) rfl)
  have hlead3 (n : Nat) : 0xe0 ||| n &&& 0x0f = n % 16 + 0xe0 :=
    (congrArg (0xe0 ||| ·) (and_mask n 4)).trans (tag_add 4 (Nat.mod_lt _ (by decide)) rfl)
  have hlead4 (n : Nat) : 0xf0 ||| n &&& 0x07 = n % 8 + 0xf0 :=
    (congrArg (0xf0 ||| ·) (and_mask n 3)).trans (tag_add 3 (Nat.mod_lt _ (by decide)) rfl)
  unfold encodeWChar String.utf8EncodeChar
  simp only [hval, Int.toNat_natCast, Nat.shiftRight_eq_div_pow, htail, hlead2, hlead3, hlead4]
  by_cases h1 : c.toNat ≤ 0x7f
  · have hbyte : ((c.toNat : Int) % 256).toNat = c.toNat := by omega
    rw [if_pos (by omega), if_pos h1, hbyte]
  rw [if_neg (by omega), if_neg h1]
  by_cases h2 : c.toNat ≤ 0x7ff
  · rw [if_pos (by omega), if_pos h2]
  rw [if_neg (by omega), if_neg h2]
  by_cases h3 : c.toNat ≤ 0xffff
  · rw [if_pos (by omega), if_pos h3]
  rw [if_neg (by omega), if_neg h3, if_pos (by omega)]

theorem toUTF8_codePoints (cs : List Char) : toUTF8 (codePoints cs) = utf8Bytes cs := by
  rw [toUTF8, codePoints, utf8Bytes, List.flatMap_map]
  exact congrArg (cs.flatMap ·) (funext encodeWChar_toNat)

theorem mem_codePoints {cs : List Char} : ∀ w ∈ codePoints cs, 0 ≤ w ∧ w ≤ 0x10ffff := by
  intro w hw
  obtain ⟨c, -, rfl⟩ := List.mem_map.mp hw
  have hc := codePoint_lt c
  omega

/-- Well-formed UTF-8 is decoded to its characters. -/
theorem fromUTF8_utf8Bytes (cs : List Char) : fromUTF8 (utf8Bytes cs) = codePoints cs := by
  rw [← toUTF8_codePoints]
  exact fromUTF8_toUTF8 mem_codePoints

/-! ## The pending sequence -/

namespace Utf8Decoder

variable (d : Utf8Decoder) {b : UInt8}

/-- A lead byte starts a sequence, whatever is pending. -/
theorem step_lead (hb : 0 < announced b) :
    ∃ w, ∀ d : Utf8Decoder, d.step b = ⟨w, announced b, d.dest⟩ := by
  unfold announced at hb ⊢
  by_cases h1 : b.toNat ≤ 0xbf
  · rw [if_pos h1] at hb
    exact absurd hb (Nat.lt_irrefl 0)
  rw [if_neg h1] at hb ⊢
  by_cases h2 : b.toNat ≤ 0xdf
  · rw [if_pos h2]
    exact ⟨_, fun d => step_lead2 d (Nat.add_sub_cancel' (by omega)).symm (by omega)⟩
  rw [if_neg h2] at hb ⊢
  by_cases h3 : b.toNat ≤ 0xef
  · rw [if_pos h3]
    exact ⟨_, fun d => step_lead3 d (Nat.add_sub_cancel' (by omega)).symm (by omega)⟩
  rw [if_neg h3] at hb ⊢
  by_cases h4 : b.toNat ≤ 0xf7
  · rw [if_pos h4]
    exact ⟨_, fun d => step_lead4 d (Nat.add_sub_cancel' (by omega)).symm (by omega)⟩
  · rw [if_neg h4] at hb
    exact absurd hb (Nat.lt_irrefl 0)

/-- Continuation bytes that are too few leave the sequence pending. -/
theorem foldl_tail {bs : List UInt8} (hbs : ∀ b ∈ bs, 0x80 ≤ b.toNat ∧ b.toNat ≤ 0xbf) :
    ∀ w k dest, bs.length < k →
      ∃ w', bs.foldl step ⟨w, k, dest⟩ = ⟨w', k - bs.length, dest⟩ := by
  induction bs with
  | nil => exact fun w k dest _ => ⟨w, rfl⟩
  | cons b bs ih =>
      intro w k dest hk
      obtain ⟨hlo, hhi⟩ := hbs b List.mem_cons_self
      obtain ⟨m, rfl⟩ : ∃ m, k = m + 2 := ⟨k - 2, by rw [List.length_cons] at hk; omega⟩
      obtain ⟨w', hrest⟩ := ih (fun x hx => hbs x (List.mem_cons_of_mem b hx))
        (w * 64 + (b.toNat - 0x80)) (m + 1) dest (by rw [List.length_cons] at hk; omega)
      have hleft : m + 1 - bs.length = m + 2 - (bs.length + 1) := by omega
      refine ⟨w', ?_⟩
      rw [List.foldl_cons, step_tail (Nat.add_sub_cancel' hlo).symm (by omega), hrest, hleft]
      rfl

/-- Behind a truncated sequence the decoder waits for bytes and has decoded nothing. -/
theorem foldl_truncated {t : List UInt8} (ht : Truncated t) :
    ∃ w k, t.foldl step ⟨0, 0, []⟩ = ⟨w, k + 1, []⟩ := by
  cases t with
  | nil => exact ht.elim
  | cons lead tail =>
      obtain ⟨hshort, htail⟩ := ht
      obtain ⟨w, hlead⟩ := @step_lead lead (by omega)
      obtain ⟨w', hrest⟩ := foldl_tail htail w (announced lead) [] hshort
      refine ⟨w', announced lead - tail.length - 1, ?_⟩
      rw [List.foldl_cons, hlead, hrest, Nat.sub_add_cancel (by omega)]

/-- An ASCII byte reports the pending sequence. -/
theorem step_ascii_pending {w k : Nat} {dest : List Int} (hb : b.toNat ≤ 0x7f) :
    step ⟨w, k + 1, dest⟩ b = ⟨w, 0, dest ++ [utf8Err, (b.toNat : Int)]⟩ := by
  simp [step, hb]

end Utf8Decoder

/-! ## The byte behind the cut -/

theorem announced_pos {b : UInt8} (hlo : 0xc0 ≤ b.toNat) (hhi : b.toNat ≤ 0xf7) :
    0 < announced b := by
  unfold announced
  rw [if_neg (by omega)]
  split
  · exact Nat.one_pos
  · split
    · exact Nat.two_pos
    · exact Nat.succ_pos 2

theorem toNat_ofNat_ascii {n : Nat} (hn : n ≤ 0x7f) : (UInt8.ofNat n).toNat = n :=
  UInt8.toNat_ofNat_of_lt' (Nat.lt_of_le_of_lt hn (by decide))

theorem utf8EncodeChar_ascii {c : Char} (hc : c.toNat ≤ 0x7f) :
    String.utf8EncodeChar c = [UInt8.ofNat c.toNat] := by
  unfold String.utf8EncodeChar
  exact if_pos hc

/-- Any other character begins with a lead byte. -/
theorem utf8EncodeChar_lead {c : Char} (hc : ¬ c.toNat ≤ 0x7f) :
    ∃ lead tail, String.utf8EncodeChar c = lead :: tail ∧ 0 < announced lead := by
  have hlt := codePoint_lt c
  rw [← encodeWChar_toNat]
  unfold encodeWChar
  simp only [Int.toNat_natCast]
  rw [if_neg (by omega)]
  by_cases h2 : (c.toNat : Int) ≤ 0x7ff
  · rw [if_pos h2]
    have hlead := toNat_lead2 c.toNat
    exact ⟨_, _, rfl, announced_pos (by omega) (by omega)⟩
  rw [if_neg h2]
  by_cases h3 : (c.toNat : Int) ≤ 0xffff
  · rw [if_pos h3]
    have hlead := toNat_lead3 c.toNat
    exact ⟨_, _, rfl, announced_pos (by omega) (by omega)⟩
  rw [if_neg h3, if_pos (by omega)]
  have hlead := toNat_lead4 c.toNat
  exact ⟨_, _, rfl, announced_pos (by omega) (by omega)⟩

section Cut

variable {t : List UInt8}

/-- The end of the input reports the sequence that is cut off. -/
theorem fromUTF8_truncated (ht : Truncated t) : fromUTF8 t = [utf8Err] := by
  obtain ⟨w, k, hrun⟩ := Utf8Decoder.foldl_truncated ht
  rw [fromUTF8, hrun]
  rfl

/-- So does an ASCII character, and what follows is decoded as it is by itself. -/
theorem fromUTF8_truncated_ascii (ht : Truncated t) {c : Char} (hc : c.toNat ≤ 0x7f)
    (cs : List Char) :
    fromUTF8 (t ++ utf8Bytes (c :: cs)) = utf8Err :: codePoints (c :: cs) := by
  obtain ⟨w, k, hrun⟩ := Utf8Decoder.foldl_truncated ht
  have hbyte := toNat_ofNat_ascii hc
  obtain ⟨w', hrest⟩ := Utf8Decoder.foldl_toUTF8 ⟨w, 0, [utf8Err, (c.toNat : Int)]⟩ rfl
    (@mem_codePoints cs)
  rw [toUTF8_codePoints] at hrest
  have hbytes : utf8Bytes (c :: cs) = UInt8.ofNat c.toNat :: utf8Bytes cs := by
    rw [utf8Bytes, List.flatMap_cons, utf8EncodeChar_ascii hc]
    rfl
  rw [fromUTF8, hbytes, List.foldl_append, hrun, List.foldl_cons,
    Utf8Decoder.step_ascii_pending (by omega), hbyte, List.nil_append, hrest]
  rfl

/-- A character of several bytes takes the place of the sequence that is cut off. -/
theorem fromUTF8_truncated_lead (ht : Truncated t) {c : Char} (hc : ¬ c.toNat ≤ 0x7f)
    (cs : List Char) :
    fromUTF8 (t ++ utf8Bytes (c :: cs)) = fromUTF8 (utf8Bytes (c :: cs)) := by
  obtain ⟨w, k, hrun⟩ := Utf8Decoder.foldl_truncated ht
  obtain ⟨lead, tail, hbytes, hpos⟩ := utf8EncodeChar_lead hc
  obtain ⟨w', hlead⟩ := Utf8Decoder.step_lead hpos
  have hy : utf8Bytes (c :: cs) = lead :: (tail ++ utf8Bytes cs) := by
    rw [utf8Bytes, List.flatMap_cons, hbytes]
    rfl
  rw [fromUTF8, fromUTF8, hy, List.foldl_append, hrun, List.foldl_cons, List.foldl_cons, hlead,
    hlead]

/-- A truncated sequence is reported, and what follows it decoded, exactly when what follows does
not begin with a lead byte: when it is empty or begins with an ASCII character. -/
theorem fromUTF8_truncated_append (ht : Truncated t) (cs : List Char) :
    fromUTF8 (t ++ utf8Bytes cs) = utf8Err :: fromUTF8 (utf8Bytes cs) ↔
      ∀ b ∈ (utf8Bytes cs).head?, b.toNat ≤ 0x7f := by
  cases cs with
  | nil =>
      refine iff_of_true ?_ (fun b hb => nomatch hb)
      rw [utf8Bytes, List.flatMap_nil, List.append_nil, fromUTF8_truncated ht]
      rfl
  | cons c cs =>
      by_cases hc : c.toNat ≤ 0x7f
      · have hhead : (utf8Bytes (c :: cs)).head? = some (UInt8.ofNat c.toNat) := by
          rw [utf8Bytes, List.flatMap_cons, utf8EncodeChar_ascii hc]
          rfl
        refine iff_of_true ?_ ?_
        · rw [fromUTF8_utf8Bytes, fromUTF8_truncated_ascii ht hc]
        · rintro b hb
          rw [hhead] at hb
          obtain rfl := Option.some.inj hb
          rwa [toNat_ofNat_ascii hc]
      · obtain ⟨lead, tail, hbytes, hpos⟩ := utf8EncodeChar_lead hc
        have hhead : (utf8Bytes (c :: cs)).head? = some lead := by
          rw [utf8Bytes, List.flatMap_cons, hbytes]
          rfl
        refine iff_of_false ?_ ?_
        · rw [fromUTF8_truncated_lead ht hc]
          exact fun h => List.cons_ne_self _ _ h.symm
        · intro hascii
          have hlow := hascii lead hhead
          rw [announced, if_pos (by omega)] at hpos
          exact absurd hpos (Nat.lt_irrefl 0)

end Cut

/-- The first two bytes of the euro sign, and an ASCII character behind them. -/
theorem fromUTF8_truncated_append_ascii :
    Truncated [0xe2, 0x82] ∧
      fromUTF8 ([0xe2, 0x82] ++ utf8Bytes ['a']) = utf8Err :: fromUTF8 (utf8Bytes ['a']) :=
  ⟨by decide +kernel, (fromUTF8_truncated_append (by decide +kernel) ['a']).mpr (by decide +kernel)⟩

/-- A lead byte of two, and a character of two bytes behind it: nothing is reported. -/
theorem fromUTF8_truncated_dropped :
    Truncated [0xc3] ∧ fromUTF8 ([0xc3] ++ utf8Bytes [Char.ofNat 0xe4]) = [0xe4] ∧
      ¬ ∀ (t : List UInt8) (cs : List Char), Truncated t →
        fromUTF8 (t ++ utf8Bytes cs) = utf8Err :: fromUTF8 (utf8Bytes cs) :=
  ⟨by decide +kernel, by decide +kernel, fun h =>
    absurd (h [0xc3] [Char.ofNat 0xe4] (by decide +kernel)) (by decide +kernel)⟩

end Dsi
