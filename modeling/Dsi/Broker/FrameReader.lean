import Dsi.Broker.AutoBuffer
import Dsi.Lib.Run

/-!
# Dsi.Broker.FrameReader

What `handleRead` makes of the bytes of one frame, for every way in which they are
cut into reads.

The completeness test of `handleRead` looks at `fr_size` behind every read.  While
fewer than eight bytes of the frame are received, part of the field is what the
buffer held before, and the test succeeds if that spells `pos() - 16`
(`Incoming.evaluatesOnce_iff`).  The field itself is trusted: a negative one, and one
that is smaller than what was received with it, make `reserve` and the test go wrong
(`Incoming.contained_iff`).
-/

namespace Dsi

open CLayout Run

/-! ## Machine integers -/

namespace SizeType

variable (abi : SizeType)

/-- A `size_t` has at least 32 bits. -/
theorem le_two_pow : 2 ^ 32 ≤ 2 ^ abi.bits := Nat.pow_le_pow_right (by decide) abi.le_bits

/-- A small size is its own `size_t`. -/
theorem ofInt_of_nonneg {x : Int} (h : 0 ≤ x) (hlt : x < 2 ^ 32) : abi.ofInt x = x.toNat := by
  have hle := abi.le_two_pow
  rw [ofInt, Int.emod_eq_of_lt h (by omega)]

/-- A size that is not negative does not grow as a `size_t`. -/
theorem ofInt_le {x : Int} (h : 0 ≤ x) : abi.ofInt x ≤ x.toNat := by
  rw [ofInt, Int.toNat_emod h (Int.natCast_nonneg _)]
  exact Nat.mod_le ..

/-- A negative number of 32 bits becomes a large one. -/
theorem le_ofInt_of_neg {x : Int} (h : x < 0) (hlt : -2 ^ 31 ≤ x) : 2 ^ 31 ≤ abi.ofInt x := by
  have hle := abi.le_two_pow
  have hwrap : x % (2 ^ abi.bits : Nat) = x + (2 ^ abi.bits : Nat) := by
    rw [← Int.add_emod_right, Int.emod_eq_of_lt (by omega) (by omega)]
  rw [ofInt, hwrap]
  omega

/-- A sum is reduced once. -/
theorem ofInt_ofInt_add (x y : Int) : abi.ofInt (abi.ofInt x + y) = abi.ofInt (x + y) := by
  have hpos : ((2 ^ abi.bits : Nat) : Int) ≠ 0 := by
    have hle := abi.le_two_pow
    omega
  rw [ofInt, ofInt, ofInt, Int.toNat_of_nonneg (Int.emod_nonneg x hpos), Int.emod_add_emod]

/-- An `int32_t` does not see the bits that a `size_t` has in front. -/
theorem toInt32_ofInt (x : Int) : toInt32 (abi.ofInt x) = toInt32 x := by
  have hpos : ((2 ^ abi.bits : Nat) : Int) ≠ 0 := by
    have hle := abi.le_two_pow
    omega
  have hdvd : ((2 ^ 32 : Nat) : Int) ∣ ((2 ^ abi.bits : Nat) : Int) :=
    Int.natCast_dvd_natCast.mpr (Nat.pow_dvd_pow 2 abi.le_bits)
  rw [toInt32, toInt32, ofInt, Int.toNat_of_nonneg (Int.emod_nonneg x hpos),
    ← Int.emod_bmod, Int.emod_emod_of_dvd x hdvd, Int.emod_bmod]

end SizeType

/-! ## The fields of a header -/

theorem frSize_eq (mem : List UInt8) : frSize mem = (readInt32 (mem.drop 4)).toInt := rfl

/-- The size of a frame is an `int32_t`. -/
theorem frSize_bounds (mem : List UInt8) : -2 ^ 31 ≤ frSize mem ∧ frSize mem < 2 ^ 31 :=
  ⟨Int32.le_toInt _, Int32.toInt_lt _⟩

theorem frMagic_eq (mem : List UInt8) : frMagic mem = readNat 4 mem := rfl

/-- The field stands in the first eight bytes. -/
theorem frSize_congr {mem mem' : List UInt8} (h : mem.take 8 = mem'.take 8) :
    frSize mem = frSize mem' := by
  have hfield (l : List UInt8) : (l.drop 4).take 4 = (l.take 8).drop 4 := by
    rw [List.drop_take]
  rw [frSize_eq, frSize_eq, readInt32, readInt32, readUInt32, readUInt32, readNat, readNat,
    hfield, hfield, h]

/-- The magic is the first four bytes. -/
theorem frMagic_congr {mem mem' : List UInt8} (h : mem.take 4 = mem'.take 4) :
    frMagic mem = frMagic mem' := by
  rw [frMagic_eq, frMagic_eq, readNat, readNat, h]

/-! ## What was received -/

/-- Memory that held `content` before `bs` was stored at its start. -/
def filled (content : Nat → UInt8) (bs : List UInt8) (i : Nat) : UInt8 :=
  (bs[i]?).getD (content i)

/-- Nothing has arrived, so the memory is what it was. -/
theorem filled_nil (content : Nat → UInt8) : filled content [] = content := by
  funext i
  simp [filled]

/-- A piece goes behind what has arrived. -/
theorem filled_append (content : Nat → UInt8) (bs piece : List UInt8) :
    (fun i => if bs.length ≤ i then (piece[i - bs.length]?).getD (filled content bs i)
      else filled content bs i) = filled content (bs ++ piece) := by
  funext i
  by_cases hi : bs.length ≤ i
  · rw [if_pos hi, filled, filled, List.getElem?_append_right hi, List.getElem?_eq_none hi,
      Option.getD_none]
  · rw [if_neg hi, filled, filled, List.getElem?_append_left (Nat.lt_of_not_le hi)]

/-- The first bytes of the memory are those that were stored. -/
theorem map_filled (content : Nat → UInt8) {bs : List UInt8} {n : Nat} (h : n ≤ bs.length) :
    (List.range n).map (filled content bs) = bs.take n := by
  refine List.ext_getElem (by simp [h]) (fun i hi hi' => ?_)
  have hlt : i < bs.length := by
    rw [List.length_map, List.length_range] at hi
    omega
  simp [filled, List.getElem?_eq_getElem hlt]

namespace AutoBuffer

/-- Exactly `bs` was received. -/
structure Holds (bs : List UInt8) (b : AutoBuffer) : Prop where
  pos : b.ptr_ = bs.length
  memory : ∃ content, b.buf_ = filled content bs

namespace Holds

variable {b : AutoBuffer} {bs : List UInt8}

/-- A piece that arrives is held behind the ones before. -/
theorem receive (h : Holds bs b) (piece : List UInt8) :
    Holds (bs ++ piece) ((b.receive piece).bump piece.length) := by
  obtain ⟨content, hmem⟩ := h.memory
  have hpos : b.ptr_ = bs.length := h.pos
  refine ⟨?_, content, ?_⟩
  · cases hblock : b.block <;>
      simp [AutoBuffer.receive, AutoBuffer.bump, hblock, hpos, List.length_append]
  · rw [← filled_append, ← hmem]
    cases hblock : b.block with
    | none => simp [AutoBuffer.receive, AutoBuffer.bump, AutoBuffer.buf_, hblock, hpos]
    | some mem => simp [AutoBuffer.receive, AutoBuffer.bump, AutoBuffer.buf_, hblock, hpos]

/-- A buffer that grows holds what it held. -/
theorem reserve (h : Holds bs b) (hcapa : bs.length ≤ b.capa_) (fresh : Nat → UInt8) (len : Nat) :
    Holds bs (b.reserve fresh len) := by
  rw [AutoBuffer.reserve]
  by_cases hlen : b.capa_ < len
  · rw [if_pos hlen]
    by_cases hsize : tAutoBufferType.Size < len
    · rw [if_pos hsize]
      obtain ⟨content, hmem⟩ := h.memory
      refine ⟨h.pos, fun i => if i < b.capa_ then content i else fresh i, ?_⟩
      funext i
      rw [AutoBuffer.buf_, Option.getD_some, hmem, filled, filled]
      by_cases hi : i < b.capa_
      · rw [if_pos hi, if_pos hi]
      · rw [if_neg hi, if_neg hi, List.getElem?_eq_none (by omega), Option.getD_none]
    · rw [if_neg hsize]
      exact h
  · rw [if_neg hlen]
    exact h

/-- The front of what the buffer holds. -/
theorem bytes (h : Holds bs b) {n : Nat} (hn : n ≤ bs.length) : b.bytes n = bs.take n := by
  obtain ⟨content, hmem⟩ := h.memory
  rw [AutoBuffer.bytes, hmem, map_filled content hn]

/-- The size is read from what has arrived once the header is there. -/
theorem frSize_request (h : Holds bs b) (hlen : sizeof_sb_request_frame ≤ bs.length) :
    frSize b.request = frSize bs := by
  refine frSize_congr ?_
  rw [request, h.bytes hlen, List.take_take, sizeof_sb_request_frame_eq]
  rfl

/-- So is the magic. -/
theorem frMagic_request (h : Holds bs b) (hlen : sizeof_sb_request_frame ≤ bs.length) :
    frMagic b.request = frMagic bs := by
  refine frMagic_congr ?_
  rw [request, h.bytes hlen, List.take_take, sizeof_sb_request_frame_eq]
  rfl

end Holds

theorem capa_receive (piece : List UInt8) (b : AutoBuffer) : (b.receive piece).capa_ = b.capa_ := by
  rw [receive]
  cases b.block <;> rfl

theorem ptr_receive (piece : List UInt8) (b : AutoBuffer) : (b.receive piece).ptr_ = b.ptr_ := by
  rw [receive]
  cases b.block <;> rfl

theorem ptr_reserve (fresh : Nat → UInt8) (len : Nat) (b : AutoBuffer) :
    (b.reserve fresh len).ptr_ = b.ptr_ := by
  rw [reserve]
  split
  · split <;> rfl
  · rfl

/-- A buffer that has the size of the array grows to what is asked for. -/
theorem capa_reserve {b : AutoBuffer} (h : b.capa_ = tAutoBufferType.Size) (fresh : Nat → UInt8)
    (len : Nat) : (b.reserve fresh len).capa_ = max tAutoBufferType.Size len := by
  rw [reserve, h]
  by_cases hlen : tAutoBufferType.Size < len
  · rw [if_pos hlen, if_pos hlen]
    exact (Nat.max_eq_right (Nat.le_of_lt hlen)).symm
  · rw [if_neg hlen, h]
    exact (Nat.max_eq_left (Nat.le_of_not_lt hlen)).symm

/-- A buffer never shrinks. -/
theorem le_capa_reserve (fresh : Nat → UInt8) (len : Nat) (b : AutoBuffer) :
    b.capa_ ≤ (b.reserve fresh len).capa_ := by
  rw [reserve]
  split
  · split
    · exact Nat.le_of_lt ‹_›
    · exact Nat.le_refl _
  · exact Nat.le_refl _

end AutoBuffer

namespace ServicebrokerClient

variable (abi : SizeType)

/-- The size of the frame with its header, as a `size_t`. -/
theorem frameSize_eq (b : AutoBuffer) :
    frameSize abi b = abi.ofInt (frSize b.request + sizeof_sb_request_frame) :=
  abi.ofInt_ofInt_add _ _

/-- The sum is exact unless it is negative. -/
theorem frameSize_of_nonneg {b : AutoBuffer} (h : 0 ≤ frSize b.request) :
    (frameSize abi b : Int) = frSize b.request + 16 := by
  have hlt := (frSize_bounds b.request).2
  rw [frameSize_eq, sizeof_sb_request_frame_eq, abi.ofInt_of_nonneg (by omega) (by omega)]
  omega

/-- What the completeness test compares, for a position that a frame can have. -/
theorem eq_frameSize_iff (b : AutoBuffer) {n : Nat} (hn : n < 2 ^ 31) :
    n = frameSize abi b ↔ frSize b.request = n - 16 := by
  obtain ⟨hle, hlt⟩ := frSize_bounds b.request
  rw [frameSize_eq, sizeof_sb_request_frame_eq]
  by_cases hneg : frSize b.request + 16 < 0
  · have hlarge := abi.le_ofInt_of_neg (x := frSize b.request + (16 : Nat)) (by omega) (by omega)
    omega
  · rw [abi.ofInt_of_nonneg (by omega) (by omega)]
    omega

/-- The frame is there: it is evaluated. -/
theorem complete_of_eq {c : ServicebrokerClient} (answer : Answer) (reserves : List Reserve)
    (h : c.mReadBuffer.pos = frameSize abi c.mReadBuffer) :
    complete abi answer reserves c = ⟨eval abi answer c, reserves, [c.mReadBuffer]⟩ := by
  rw [complete, if_pos h]

/-- The frame is not there yet: more is waited for. -/
theorem complete_of_ne {c : ServicebrokerClient} (answer : Answer) (reserves : List Reserve)
    (h : c.mReadBuffer.pos ≠ frameSize abi c.mReadBuffer) :
    complete abi answer reserves c = ⟨arm abi c, reserves, []⟩ := by
  rw [complete, if_neg h]

/-- There is something left to ask for. -/
theorem readLength_eq {c : ServicebrokerClient} (h : c.mReadBuffer.ptr_ ≤ c.mReadBuffer.capa_)
    (hlt : c.mReadBuffer.capa_ < 2 ^ 32) :
    c.readLength abi = c.mReadBuffer.capa_ - c.mReadBuffer.ptr_ := by
  rw [readLength, AutoBuffer.pos, abi.ofInt_of_nonneg (by omega) (by omega)]
  omega

/-- There is room for more. -/
theorem arm_of_lt {c : ServicebrokerClient} (h : c.mReadBuffer.ptr_ < c.mReadBuffer.capa_)
    (hlt : c.mReadBuffer.capa_ < 2 ^ 32) : arm abi c = some c := by
  rw [arm, readLength_eq abi (Nat.le_of_lt h) hlt, if_pos (Nat.sub_pos_of_lt h)]
  split <;> rfl

end ServicebrokerClient

/-- A header with a valid magic, and what follows it. -/
structure RequestStream where
  header : List UInt8
  length : header.length = sizeof_sb_request_frame
  magic : frMagic header = SB_FRAME_MAGIC
  continuation : List UInt8

def RequestStream.bytes (r : RequestStream) : List UInt8 := r.header ++ r.continuation

/-- A stream of requests starts with the magic. -/
theorem RequestStream.frMagic_bytes (r : RequestStream) : frMagic r.bytes = SB_FRAME_MAGIC := by
  have hlength := r.length
  rw [← r.magic]
  refine frMagic_congr ?_
  rw [RequestStream.bytes, List.take_append_of_le_length (by rw [hlength]; decide)]

/-- A stream of requests starts with a header. -/
theorem RequestStream.le_length (r : RequestStream) :
    sizeof_sb_request_frame ≤ r.bytes.length := by
  rw [RequestStream.bytes, List.length_append, r.length]
  exact Nat.le_add_right ..

/-! ## One read -/

namespace Incoming

variable {abi : SizeType} {content : Nat → UInt8} {stream : List UInt8} {p F : Nat}

open ServicebrokerClient

/-- The buffer when `p` bytes of the stream were received in front of its size. -/
def headerBuffer (content : Nat → UInt8) (stream : List UInt8) (p : Nat) : AutoBuffer where
  internal_ := filled content (stream.take p)
  ptr_ := p

/-- The size field as it reads behind `p` bytes of the stream. -/
def sizeField (content : Nat → UInt8) (stream : List UInt8) (p : Nat) : Int :=
  frSize (headerBuffer content stream p).request

/-- The connection when `p` bytes of the stream were received, fewer than a header. -/
def header (content : Nat → UInt8) (stream : List UInt8) (p : Nat) : Incoming where
  client := some { mReadBuffer := headerBuffer content stream p }
  stream := stream.drop p

/-- At the beginning no byte of the header is there. -/
theorem start_eq_header (content : Nat → UInt8) (stream : List UInt8) :
    start content stream = header content stream 0 := by
  rw [start, header, headerBuffer, List.take_zero, filled_nil, List.drop_zero]

/-- The position behind a read that asked for `capa - p` bytes. -/
def advance (offered capa : Nat) (stream : List UInt8) (p : Nat) : Nat :=
  p + min (min (offered + 1) (capa - p)) (stream.length - p)

/-- A read that has room and data makes progress. -/
theorem lt_advance {offered capa : Nat} (hcapa : p < capa) (hp : p < stream.length) :
    p < advance offered capa stream p := by
  rw [advance]
  omega

/-- No read goes past the stream. -/
theorem advance_le_length {offered capa : Nat} (hp : p ≤ stream.length) :
    advance offered capa stream p ≤ stream.length := by
  rw [advance]
  omega

/-- No read goes past the buffer. -/
theorem advance_le_capa {offered capa : Nat} (hp : p ≤ capa) :
    advance offered capa stream p ≤ capa := by
  rw [advance]
  omega

/-- What a read brings is the next part of the stream. -/
theorem take_append_take_drop (p a : Nat) (stream : List UInt8) :
    stream.take p ++ (stream.drop p).take a = stream.take (p + a) :=
  (List.take_add ..).symm

/-- The buffer holds the front of the stream. -/
theorem headerBuffer_holds (content : Nat → UInt8) (hp : p ≤ stream.length) :
    (headerBuffer content stream p).Holds (stream.take p) where
  pos := by
    rw [List.length_take, Nat.min_eq_left hp]
    rfl
  memory := ⟨content, rfl⟩

/-- And still does behind another read. -/
theorem headerBuffer_receive (content : Nat → UInt8) (hp : p ≤ stream.length) (a : Nat) :
    ((headerBuffer content stream p).receive ((stream.drop p).take a)).bump a =
      headerBuffer content stream (p + a) := by
  have hlen : (stream.take p).length = p := by rw [List.length_take, Nat.min_eq_left hp]
  have hover := filled_append content (stream.take p) ((stream.drop p).take a)
  rw [hlen, take_append_take_drop] at hover
  rw [headerBuffer, AutoBuffer.receive, AutoBuffer.bump]
  dsimp only
  rw [hover, headerBuffer]

/-- A read while the header is incomplete. -/
theorem step_header (abi : SizeType) (content : Nat → UInt8) (hp : p < sizeof_sb_request_frame)
    (hlen : p < stream.length)
    (r : Piece) :
    step abi (header content stream p) (.read r) =
      let q := advance r.offered tAutoBufferType.Size stream p
      let b := headerBuffer content stream q
      let h : Handled :=
        if sizeof_sb_request_frame ≤ q then
          if frMagic b.request = SB_FRAME_MAGIC then
            complete abi r.answer [⟨frameSize abi b, q⟩]
              { mReadBuffer := b.reserve r.fresh (frameSize abi b), mState := .READING_BODY }
          else ⟨none, [], []⟩
        else complete abi r.answer [] { mReadBuffer := b }
      { client := h.client, stream := stream.drop q, reserves := h.reserves,
        evals := h.evals } := by
  have hempty : (stream.drop p).isEmpty = false := by
    rw [List.isEmpty_eq_false_iff, Ne, List.drop_eq_nil_iff]
    omega
  have hsize : p < tAutoBufferType.Size := by
    rw [sizeof_sb_request_frame_eq] at hp
    exact Nat.lt_trans hp (by decide)
  have hsize32 : tAutoBufferType.Size < 2 ^ 32 := by decide
  have hamount : amount abi r { mReadBuffer := headerBuffer content stream p } (stream.drop p) =
      min (min (r.offered + 1) (tAutoBufferType.Size - p)) (stream.length - p) := by
    rw [amount, readLength_eq abi (Nat.le_of_lt hsize) hsize32, List.length_drop]
    rfl
  have hbuffer (a : Nat) := headerBuffer_receive content (Nat.le_of_lt hlen) a
  have hq : advance r.offered tAutoBufferType.Size stream p =
      p + min (min (r.offered + 1) (tAutoBufferType.Size - p)) (stream.length - p) := rfl
  rw [step, header]
  dsimp only
  rw [if_pos (by rfl), hempty, if_neg Bool.false_ne_true, hamount, List.drop_drop, ← hq,
    List.nil_append, List.nil_append, handleRead]
  dsimp only
  rw [hbuffer, ← hq]
  rfl

/-- The size of the frame that the stream starts with is `F`. -/
structure Framed (stream : List UInt8) (F : Nat) : Prop where
  size : (F : Int) = frSize stream + 16
  nonneg : 0 ≤ frSize stream
  magic : frMagic stream = SB_FRAME_MAGIC
  header : sizeof_sb_request_frame ≤ stream.length

/-- The frame was evaluated, with all of it in the buffer. -/
structure Completed (stream : List UInt8) (F : Nat) (s : Incoming) : Prop where
  evals : ∃ b, s.evals = [b] ∧ b.Holds (stream.take F) ∧ b.capa_ = max tAutoBufferType.Size F
  reserves : ∃ q, s.reserves = [⟨F, q⟩] ∧ q ≤ F
  le : F ≤ stream.length
  stream : s.stream = stream.drop F

/-- The header and `q` bytes altogether were received, and there are more to come. -/
structure Body (stream : List UInt8) (F q : Nat) (s : Incoming) : Prop where
  client : ∃ c, s.client = some c ∧ c.mState = .READING_BODY ∧
    c.mReadBuffer.Holds (stream.take q) ∧ c.mReadBuffer.capa_ = max tAutoBufferType.Size F
  evals : s.evals = []
  reserves : ∃ q, s.reserves = [⟨F, q⟩] ∧ q ≤ F
  stream : s.stream = stream.drop q
  header : sizeof_sb_request_frame ≤ q
  lt : q < F

/-- A frame with its header has fewer than 2 ^ 31 + 16 bytes. -/
theorem Framed.lt (h : Framed stream F) : F < 2 ^ 31 + 16 := by
  have hsize := h.size
  have hlt := (frSize_bounds stream).2
  omega

/-- A frame has a header. -/
theorem Framed.le (h : Framed stream F) : sizeof_sb_request_frame ≤ F := by
  have hsize := h.size
  have hnonneg := h.nonneg
  rw [sizeof_sb_request_frame_eq]
  omega

/-- The header says the size, whatever is behind it. -/
theorem frSize_take {q : Nat} (hq : sizeof_sb_request_frame ≤ q) (stream : List UInt8) :
    frSize (stream.take q) = frSize stream := by
  rw [sizeof_sb_request_frame_eq] at hq
  refine frSize_congr ?_
  rw [List.take_take, Nat.min_eq_left (by omega)]

/-- The header says the magic, whatever is behind it. -/
theorem frMagic_take {q : Nat} (hq : sizeof_sb_request_frame ≤ q) (stream : List UInt8) :
    frMagic (stream.take q) = frMagic stream := by
  rw [sizeof_sb_request_frame_eq] at hq
  refine frMagic_congr ?_
  rw [List.take_take, Nat.min_eq_left (by omega)]

/-- The computed size of a buffer that holds the header. -/
theorem frameSize_of_holds (h : Framed stream F) {b : AutoBuffer} {q : Nat}
    (hb : b.Holds (stream.take q)) (hq : sizeof_sb_request_frame ≤ q) (hlen : q ≤ stream.length) :
    frameSize abi b = F := by
  have hfield : frSize b.request = frSize stream := by
    rw [hb.frSize_request (by rw [List.length_take, Nat.min_eq_left hlen]; exact hq),
      frSize_take hq]
  have hsize := frameSize_of_nonneg abi (b := b) (by rw [hfield]; exact h.nonneg)
  rw [hfield, ← h.size] at hsize
  exact Int.ofNat.inj hsize

/-- The end of a read that left `q` bytes of the frame in the buffer. -/
theorem body_or_completed (abi : SizeType) (h : Framed stream F) {q : Nat}
    (hq : sizeof_sb_request_frame ≤ q)
    (hqF : q ≤ F) (hlen : q ≤ stream.length) {c : ServicebrokerClient}
    (hstate : c.mState = .READING_BODY) (hb : c.mReadBuffer.Holds (stream.take q))
    (hcapa : c.mReadBuffer.capa_ = max tAutoBufferType.Size F) (answer : Answer)
    (reserves : List Reserve) {s : Incoming}
    (hclient : s.client = (complete abi answer reserves c).client)
    (hevals : s.evals = (complete abi answer reserves c).evals)
    (hreserves : ∃ q, s.reserves = [⟨F, q⟩] ∧ q ≤ F) (hstream : s.stream = stream.drop q) :
    (q = F → Completed stream F s) ∧ (q < F → Body stream F q s) := by
  have hpos : c.mReadBuffer.pos = q := by
    rw [AutoBuffer.pos, hb.pos, List.length_take, Nat.min_eq_left hlen]
  have hsize : frameSize abi c.mReadBuffer = F := frameSize_of_holds h hb hq hlen
  constructor
  · intro heq
    rw [complete_of_eq abi answer reserves (by rw [hpos, hsize, heq])] at hevals
    subst heq
    exact ⟨⟨_, hevals, hb, hcapa⟩, hreserves, hlen, hstream⟩
  · intro hlt
    rw [complete_of_ne abi answer reserves (by rw [hpos, hsize]; exact Nat.ne_of_lt hlt)]
      at hclient hevals
    have hFlt := h.lt
    have harm : arm abi c = some c := by
      refine arm_of_lt abi ?_ ?_
      · rw [hcapa, ← AutoBuffer.pos, hpos]
        exact Nat.lt_of_lt_of_le hlt (Nat.le_max_right ..)
      · rw [hcapa, Nat.max_lt]
        exact ⟨by decide, by omega⟩
    rw [harm] at hclient
    exact ⟨⟨c, hclient, hstate, hb, hcapa⟩, hevals, hreserves, hstream, hq, hlt⟩

/-- A read that completes the header and brings no more than the frame. -/
theorem step_header_of_le (abi : SizeType) (content : Nat → UInt8) (h : Framed stream F)
    (hp : p < sizeof_sb_request_frame) (r : Piece)
    (hq : sizeof_sb_request_frame ≤ advance r.offered tAutoBufferType.Size stream p)
    (hqF : advance r.offered tAutoBufferType.Size stream p ≤ F) :
    let q := advance r.offered tAutoBufferType.Size stream p
    let s := step abi (header content stream p) (.read r)
    (q = F → Completed stream F s) ∧ (q < F → Body stream F q s) := by
  have hlen : p < stream.length := Nat.lt_of_lt_of_le hp h.header
  have hqlen : advance r.offered tAutoBufferType.Size stream p ≤ stream.length :=
    advance_le_length (Nat.le_of_lt hlen)
  have hqcapa : advance r.offered tAutoBufferType.Size stream p ≤ tAutoBufferType.Size :=
    advance_le_capa (Nat.le_of_lt (Nat.lt_trans hp (by decide)))
  have hstep := step_header abi content hp hlen r
  generalize advance r.offered tAutoBufferType.Size stream p = q at *
  have hb := headerBuffer_holds content hqlen
  have hsize : frameSize abi (headerBuffer content stream q) = F := frameSize_of_holds h hb hq hqlen
  have hlength : (stream.take q).length = q := by rw [List.length_take, Nat.min_eq_left hqlen]
  have hmagic : frMagic (headerBuffer content stream q).request = SB_FRAME_MAGIC := by
    rw [hb.frMagic_request (by rw [hlength]; exact hq), frMagic_take hq, h.magic]
  dsimp only at hstep
  rw [if_pos hq, if_pos hmagic, hsize] at hstep
  rw [hstep]
  refine body_or_completed abi h hq hqF hqlen rfl
    (hb.reserve ?_ r.fresh F) ?_ r.answer _ rfl rfl ?_ rfl
  · rw [hlength]
    exact hqcapa
  · exact AutoBuffer.capa_reserve rfl r.fresh F
  · refine ⟨q, ?_, hqF⟩
    dsimp only
    rw [complete]
    split <;> rfl

/-- A read of the body that brings no more than the frame. -/
theorem step_body_of_le (abi : SizeType) (h : Framed stream F) {q : Nat} {s : Incoming}
    (hbody : Body stream F q s)
    (r : Piece) (hlen : q < stream.length)
    (hqF : advance r.offered (max tAutoBufferType.Size F) stream q ≤ F) :
    let q' := advance r.offered (max tAutoBufferType.Size F) stream q
    let s' := step abi s (.read r)
    (q' = F → Completed stream F s') ∧ (q' < F → Body stream F q' s') := by
  obtain ⟨c, hclient, hstate, hb, hcapa⟩ := hbody.client
  have hqcapa : q ≤ max tAutoBufferType.Size F :=
    Nat.le_trans (Nat.le_of_lt hbody.lt) (Nat.le_max_right ..)
  have hq : sizeof_sb_request_frame ≤ advance r.offered (max tAutoBufferType.Size F) stream q :=
    Nat.le_trans hbody.header (Nat.le_add_right ..)
  have hqlen : advance r.offered (max tAutoBufferType.Size F) stream q ≤ stream.length :=
    advance_le_length (Nat.le_of_lt hlen)
  have hempty : (stream.drop q).isEmpty = false := by
    rw [List.isEmpty_eq_false_iff, Ne, List.drop_eq_nil_iff]
    omega
  have hptr : c.mReadBuffer.ptr_ = q := by
    rw [hb.pos, List.length_take, Nat.min_eq_left (Nat.le_of_lt hlen)]
  have hFlt := h.lt
  have hcapa32 : c.mReadBuffer.capa_ < 2 ^ 32 := by
    rw [hcapa, Nat.max_lt]
    exact ⟨by decide, by omega⟩
  have hamount : amount abi r c (stream.drop q) =
      min (min (r.offered + 1) (max tAutoBufferType.Size F - q)) (stream.length - q) := by
    rw [amount, readLength_eq abi (by rw [hptr, hcapa]; exact hqcapa) hcapa32, hptr, hcapa,
      List.length_drop]
  have hadvance : q + amount abi r c (stream.drop q) =
      advance r.offered (max tAutoBufferType.Size F) stream q := by rw [hamount, advance]
  have hpiece : ((stream.drop q).take (amount abi r c (stream.drop q))).length =
      amount abi r c (stream.drop q) := by
    rw [List.length_take, List.length_drop, hamount]
    exact Nat.min_eq_left (Nat.min_le_right ..)
  have hreceive := hb.receive ((stream.drop q).take (amount abi r c (stream.drop q)))
  rw [hpiece, take_append_take_drop, hadvance] at hreceive
  have hreading : c.reading = true := by rw [reading, hstate]; rfl
  let b := c.mReadBuffer.receive ((stream.drop q).take (amount abi r c (stream.drop q)))
  refine body_or_completed (c := { c with mReadBuffer := b.bump (amount abi r c (stream.drop q)) })
    abi h hq hqF hqlen hstate hreceive ?_ r.answer [] ?_ ?_ ?_ ?_
  · exact (AutoBuffer.capa_receive _ _).trans hcapa
  all_goals
    simp only [step, hclient, hreading, hbody.stream, hempty, handleRead, hstate, if_true,
      Bool.false_eq_true, if_false]
  · rfl
  · rw [hbody.evals, List.nil_append]
  · obtain ⟨q₀, hreserves, hle⟩ := hbody.reserves
    refine ⟨q₀, ?_, hle⟩
    rw [hreserves, complete]
    split <;> rfl
  · rw [List.drop_drop, hadvance]

/-- With nothing to receive, nothing happens. -/
theorem step_of_isEmpty {s : Incoming} (h : s.stream.isEmpty = true) (r : Piece) :
    step abi s (.read r) = s := by
  rw [step]
  cases s.client with
  | none => rfl
  | some c =>
      dsimp only
      by_cases hreading : c.reading = true
      · rw [if_pos hreading, if_pos h]
      · rw [if_neg hreading]

/-- A frame that is followed by nothing, or does not fit into the array, is not
passed. -/
theorem advance_le (h : stream.length ≤ F ∨ tAutoBufferType.Size ≤ F) {q : Nat} (hq : q ≤ F)
    (hlen : q ≤ stream.length) (offered : Nat) :
    advance offered (max tAutoBufferType.Size F) stream q ≤ F := by
  cases h with
  | inl h => exact Nat.le_trans (advance_le_length hlen) h
  | inr h =>
      rw [Nat.max_eq_right h]
      exact advance_le_capa hq

/-- Behind the header the frame is received to its end. -/
theorem Body.step (abi : SizeType) (h : Framed stream F)
    (hroom : stream.length ≤ F ∨ tAutoBufferType.Size ≤ F)
    {q : Nat} {s : Incoming} (hbody : Body stream F q s) (r : Piece) (hlen : q < stream.length) :
    Completed stream F (Incoming.step abi s (.read r)) ∨
      ∃ q', q < q' ∧ q' ≤ stream.length ∧ Body stream F q' (Incoming.step abi s (.read r)) := by
  have hqF := advance_le hroom (Nat.le_of_lt hbody.lt) (Nat.le_of_lt hlen) r.offered
  have hlt : q < advance r.offered (max tAutoBufferType.Size F) stream q :=
    lt_advance (Nat.lt_of_lt_of_le hbody.lt (Nat.le_max_right ..)) hlen
  obtain ⟨hcompleted, hmore⟩ := step_body_of_le abi h hbody r hlen hqF
  cases Nat.lt_or_eq_of_le hqF with
  | inl hltF => exact .inr ⟨_, hlt, advance_le_length (Nat.le_of_lt hlen), hmore hltF⟩
  | inr heq => exact .inl (hcompleted heq)

/-- What was called first stays what was called first. -/
theorem head?_step (abi : SizeType) (s : Incoming) (e : Event) :
    (∀ b, s.evals.head? = some b → (step abi s e).evals.head? = some b) ∧
      ∀ r, s.reserves.head? = some r → (step abi s e).reserves.head? = some r := by
  have hkeep {α : Type} {l : List α} {a : α} (l' : List α) (hl : l.head? = some a) :
      (l ++ l').head? = some a := by
    rw [List.head?_append, hl, Option.some_or]
  rw [step]
  cases s.client with
  | none => exact ⟨fun _ h => h, fun _ h => h⟩
  | some c =>
      dsimp only
      by_cases hreading : c.reading = true
      · rw [if_pos hreading]
        cases e with
        | hangup => exact ⟨fun _ h => h, fun _ h => h⟩
        | read p =>
            dsimp only
            by_cases hempty : s.stream.isEmpty = true
            · rw [if_pos hempty]
              exact ⟨fun _ h => h, fun _ h => h⟩
            · rw [if_neg hempty]
              exact ⟨fun _ h => hkeep _ h, fun _ h => hkeep _ h⟩
      · rw [if_neg hreading]
        exact ⟨fun _ h => h, fun _ h => h⟩

/-- What is evaluated first stays the first. -/
theorem evals_head?_run {s : Incoming} {b : AutoBuffer} (h : s.evals.head? = some b)
    (es : List Event) : (run (step abi) s es).evals.head? = some b := by
  induction es generalizing s with
  | nil => exact h
  | cons e es ih => exact ih ((head?_step abi s e).1 b h)

/-! ## Every cut of a frame -/

/-- The bytes of the buffer up to the read position. -/
def received (b : AutoBuffer) : List UInt8 := b.bytes b.pos

/-- While part of the frame is missing nothing was evaluated and the connection is
armed for reading; behind the last byte the frame was evaluated once, with all of it
in the buffer. -/
def EvaluatesOnce (frame : List UInt8) (s : Incoming) : Prop :=
  if s.stream.isEmpty then s.evals.map received = [frame]
  else s.evals.isEmpty = true ∧ s.client.any (·.reading) = true

/-- One request frame with a body of `fr_size` bytes. -/
structure Frame where
  bytes : List UInt8
  magic : frMagic bytes = SB_FRAME_MAGIC
  length : (bytes.length : Int) = frSize bytes + 16
  nonneg : 0 ≤ frSize bytes

/-- The bytes of a frame are framed. -/
theorem Frame.framed (frame : Frame) : Framed frame.bytes frame.bytes.length where
  size := frame.length
  nonneg := frame.nonneg
  magic := frame.magic
  header := by
    have hlength := frame.length
    have hnonneg := frame.nonneg
    rw [sizeof_sb_request_frame_eq]
    omega

/-- What the first `n` reads were ready to deliver. -/
def offered (reads : List Piece) (n : Nat) : Nat :=
  ((reads.take n).map (fun r => r.offered + 1)).sum

/-- No read ends inside the first eight bytes, `p` of them received, where the size
field spells `p - 16`. -/
def Harmless (content : Nat → UInt8) (stream : List UInt8) (reads : List Piece) : Prop :=
  ∀ n, 0 < offered reads n → offered reads n < 8 →
    sizeField content stream (offered reads n) ≠ offered reads n - 16

@[simp] theorem offered_zero (reads : List Piece) : offered reads 0 = 0 := rfl

@[simp] theorem offered_nil (n : Nat) : offered [] n = 0 := by simp [offered]

/-- A read offers one byte at least. -/
theorem offered_cons (r : Piece) (reads : List Piece) (n : Nat) :
    offered (r :: reads) (n + 1) = r.offered + 1 + offered reads n := by
  simp [offered]

/-- A frame that is complete was evaluated once. -/
theorem Completed.evaluatesOnce {s : Incoming} (h : Completed stream stream.length s) :
    EvaluatesOnce stream s := by
  obtain ⟨b, hevals, hb, -⟩ := h.evals
  have hpos : b.pos = stream.length := by
    rw [AutoBuffer.pos, hb.pos, List.length_take, Nat.min_self]
  have hempty : s.stream.isEmpty = true := by
    rw [h.stream, List.drop_length, List.isEmpty_nil]
  have hlength : stream.length ≤ (stream.take stream.length).length := by
    simp only [List.take_length, Nat.le_refl]
  rw [EvaluatesOnce, if_pos hempty, hevals, List.map_singleton, received, hpos,
    hb.bytes hlength, List.take_take, Nat.min_self, List.take_length]

/-- Nothing is left to be read. -/
theorem Completed.run {s : Incoming} (h : Completed stream stream.length s)
    (reads : List Piece) : Run.run (step abi) s (reads.map .read) = s := by
  have hempty : s.stream.isEmpty = true := by
    rw [h.stream, List.drop_length, List.isEmpty_nil]
  induction reads with
  | nil => rfl
  | cons r reads ih => rw [List.map_cons, run_cons, step_of_isEmpty hempty, ih]

/-- Behind the header nothing of the old content of the buffer matters. -/
theorem Body.evaluatesOnce_run (h : Framed stream stream.length) {q : Nat} {s : Incoming}
    (hbody : Body stream stream.length q s) (reads : List Piece) :
    EvaluatesOnce stream (Run.run (Incoming.step abi) s (reads.map .read)) := by
  induction reads generalizing q s with
  | nil =>
      obtain ⟨c, hclient, hstate, -⟩ := hbody.client
      have hlt := hbody.lt
      have hmore : s.stream.isEmpty = false := by
        rw [hbody.stream, List.isEmpty_eq_false_iff, Ne, List.drop_eq_nil_iff]
        omega
      rw [List.map_nil, run_nil, EvaluatesOnce, hmore, if_neg Bool.false_ne_true, hbody.evals,
        hclient, Option.any_some, reading, hstate]
      exact ⟨rfl, rfl⟩
  | cons r reads ih =>
      rw [List.map_cons, run_cons]
      cases Body.step abi h (.inl (Nat.le_refl _)) hbody r hbody.lt with
      | inl hcompleted =>
          rw [hcompleted.run]
          exact hcompleted.evaluatesOnce
      | inr hmore =>
          obtain ⟨q', -, -, hbody'⟩ := hmore
          exact ih hbody'

/-- An evaluation in front of the last byte of the header. -/
theorem not_evaluatesOnce_of_early (h : Framed stream F) {s : Incoming} {q : Nat}
    (hq : q < sizeof_sb_request_frame)
    (hevals : s.evals = [headerBuffer content stream q]) (es : List Event) :
    ¬ EvaluatesOnce stream (run (step abi) s es) := by
  intro honce
  have hhead : (run (step abi) s es).evals.head? = some (headerBuffer content stream q) :=
    evals_head?_run (by rw [hevals, List.head?_cons]) es
  rw [EvaluatesOnce] at honce
  by_cases hempty : (run (step abi) s es).stream.isEmpty = true
  · rw [if_pos hempty] at honce
    have hmap := congrArg List.head? honce
    rw [List.head?_map, hhead, Option.map_some, List.head?_cons, Option.some.injEq] at hmap
    have hlength := congrArg List.length hmap
    have hheader := h.header
    rw [received, AutoBuffer.bytes, List.length_map, List.length_range] at hlength
    exact absurd (Nat.lt_of_lt_of_le hq hheader) (by rw [← hlength]; exact Nat.lt_irrefl q)
  · rw [if_neg hempty, List.isEmpty_iff] at honce
    rw [honce.1] at hhead
    exact absurd hhead (by simp)

/-- A read that does not complete the header. -/
theorem step_header_of_lt (abi : SizeType) (content : Nat → UInt8) (h : Framed stream F)
    (hp : p < sizeof_sb_request_frame) (r : Piece)
    (hq : p + (r.offered + 1) < sizeof_sb_request_frame) :
    let q := p + (r.offered + 1)
    let s := step abi (header content stream p) (.read r)
    (sizeField content stream q = q - 16 → s.evals = [headerBuffer content stream q]) ∧
      (sizeField content stream q ≠ q - 16 → s = header content stream q) := by
  have hheader := h.header
  have hstep := step_header abi content hp (Nat.lt_of_lt_of_le hp hheader) r
  have hadvance : advance r.offered tAutoBufferType.Size stream p = p + (r.offered + 1) := by
    have hsize : sizeof_sb_request_frame ≤ tAutoBufferType.Size := by decide
    rw [advance]
    omega
  rw [hadvance] at hstep
  dsimp only at hstep ⊢
  rw [if_neg (Nat.not_le_of_lt hq)] at hstep
  have hq16 : p + (r.offered + 1) < 16 := hq
  have htest := eq_frameSize_iff abi (headerBuffer content stream (p + (r.offered + 1)))
    (n := p + (r.offered + 1)) (by omega)
  constructor
  · intro hmisread
    rw [complete_of_eq abi (c := { mReadBuffer := headerBuffer content stream _ }) r.answer []
      (htest.mpr hmisread)] at hstep
    rw [hstep]
  · intro hharmless
    have hlt : sizeof_sb_request_frame < tAutoBufferType.Size := by decide
    have hsize : tAutoBufferType.Size < 2 ^ 32 := by decide
    have harm : arm abi { mReadBuffer := headerBuffer content stream (p + (r.offered + 1)) } =
        some { mReadBuffer := headerBuffer content stream (p + (r.offered + 1)) } :=
      arm_of_lt abi (Nat.lt_trans hq hlt) hsize
    rw [complete_of_ne abi (c := { mReadBuffer := headerBuffer content stream _ }) r.answer []
      (fun heq => hharmless (htest.mp heq)), harm] at hstep
    rw [hstep, header]

/-- From the eighth byte on the size field is the one of the frame. -/
theorem sizeField_of_le (content : Nat → UInt8) {q : Nat} (hq : 8 ≤ q)
    (hlen : q ≤ stream.length) : sizeField content stream q = frSize stream := by
  have hlength : (stream.take q).length = q := by rw [List.length_take, Nat.min_eq_left hlen]
  have hlong : 8 ≤ (stream.take q).length := Nat.le_trans hq (Nat.le_of_eq hlength.symm)
  refine frSize_congr ?_
  have hbytes := map_filled content hlong
  rw [AutoBuffer.request, AutoBuffer.bytes, ← List.map_take, List.take_range]
  exact hbytes.trans (by rw [List.take_take, Nat.min_eq_left hq])

/-- What is left to be checked when `p` bytes of the header were received. -/
theorem evaluatesOnce_header_iff (abi : SizeType) (content : Nat → UInt8)
    (h : Framed stream stream.length)
    (hp : p < sizeof_sb_request_frame) (reads : List Piece) :
    EvaluatesOnce stream (run (step abi) (header content stream p) (reads.map .read)) ↔
      ∀ n, 0 < offered reads n → p + offered reads n < 8 →
        sizeField content stream (p + offered reads n) ≠ (p + offered reads n : Nat) - 16 := by
  have hheader := h.header
  induction reads generalizing p with
  | nil =>
      have hmore : (stream.drop p).isEmpty = false := by
        rw [List.isEmpty_eq_false_iff, Ne, List.drop_eq_nil_iff]
        omega
      rw [List.map_nil, run_nil, EvaluatesOnce, header, hmore, if_neg Bool.false_ne_true]
      exact iff_of_true ⟨rfl, rfl⟩ (fun n hn => by simp at hn)
  | cons r reads ih =>
      rw [List.map_cons, run_cons]
      by_cases hq : p + (r.offered + 1) < sizeof_sb_request_frame
      · obtain ⟨hearly, hmore⟩ := step_header_of_lt abi content h hp r hq
        by_cases hmisread : sizeField content stream (p + (r.offered + 1)) =
            (p + (r.offered + 1) : Nat) - 16
        · refine iff_of_false (not_evaluatesOnce_of_early h hq (hearly hmisread) _) (fun hall => ?_)
          have hlt8 : p + (r.offered + 1) < 8 := by
            refine Nat.lt_of_not_le (fun hge => ?_)
            rw [sizeField_of_le content hge (by omega)] at hmisread
            have hnonneg := h.nonneg
            rw [sizeof_sb_request_frame_eq] at hq
            omega
          refine hall 1 ?_ ?_ ?_ <;> rw [offered_cons, offered_zero]
          · exact Nat.succ_pos _
          · exact hlt8
          · exact hmisread
        · rw [hmore hmisread]
          refine (ih hq).trans ⟨?_, ?_⟩
          · intro hall n hn hlt
            cases n with
            | zero => exact absurd hn (by simp)
            | succ n =>
                rw [offered_cons, ← Nat.add_assoc] at hlt ⊢
                by_cases hpos : 0 < offered reads n
                · exact hall n hpos hlt
                · rw [Nat.eq_zero_of_not_pos hpos]
                  exact hmisread
          · intro hall n hn hlt
            have hnext := hall (n + 1)
            rw [offered_cons, ← Nat.add_assoc] at hnext
            exact hnext (by omega) hlt
      · have hlong : sizeof_sb_request_frame ≤ p + (r.offered + 1) := Nat.le_of_not_lt hq
        have hsize : sizeof_sb_request_frame ≤ tAutoBufferType.Size := by decide
        have hcomplete : sizeof_sb_request_frame ≤
            advance r.offered tAutoBufferType.Size stream p := by
          rw [advance]
          omega
        have hle : advance r.offered tAutoBufferType.Size stream p ≤ stream.length :=
          advance_le_length (by omega)
        obtain ⟨hcompleted, hbody⟩ :=
          step_header_of_le abi content h hp r hcomplete hle
        refine iff_of_true ?_ (fun n hn hlt => ?_)
        · cases Nat.lt_or_eq_of_le hle with
          | inl hlt => exact Body.evaluatesOnce_run h (hbody hlt) reads
          | inr heq =>
              rw [(hcompleted heq).run]
              exact (hcompleted heq).evaluatesOnce
        · cases n with
          | zero => exact absurd hn (by simp)
          | succ n =>
              rw [offered_cons] at hlt
              rw [sizeof_sb_request_frame_eq] at hlong
              omega

/-- A frame is evaluated exactly once, as soon as it is complete, if and only if no
read ends inside its size field or in front of it while the field, with what the
buffer held before, spells the number of bytes received less a header. -/
theorem evaluatesOnce_iff (abi : SizeType) (content : Nat → UInt8) (frame : Frame)
    (reads : List Piece) :
    EvaluatesOnce frame.bytes (run (step abi) (start content frame.bytes) (reads.map .read)) ↔
      Harmless content frame.bytes reads := by
  have hheader := evaluatesOnce_header_iff abi content frame.framed
    (p := 0) (by decide) reads
  simpa only [Nat.zero_add, start_eq_header, Harmless] using hheader

instance (frame : List UInt8) (s : Incoming) : Decidable (EvaluatesOnce frame s) := by
  unfold EvaluatesOnce
  infer_instance

/-- Four bytes of a header were received, and the buffer held -12 where the size
follows. -/
theorem not_evaluatesOnce_stale :
    ¬ ∀ (abi : SizeType) (content : Nat → UInt8) (frame : Frame) (reads : List Piece),
      EvaluatesOnce frame.bytes
        (run (step abi) (start content frame.bytes) (reads.map .read)) := by
  intro h
  have hrun := h ⟨32, Nat.le_refl 32⟩ (fun i => if i = 4 then 0xF4 else 0xFF)
    ⟨[0x53, 0x42, 0x52, 0x4B, 0, 0, 0, 0, 1, 0, 0, 0, 0, 0, 0, 0], by decide, by decide, by decide⟩
    [⟨3, .deferred, fun _ => 0⟩]
  revert hrun
  decide

/-- The sign of the size is in the last byte of its field. -/
theorem frSize_nonneg {m₀ m₁ m₂ m₃ s₀ s₁ s₂ s₃ : UInt8} (rest : List UInt8) (h : s₃ < 128) :
    0 ≤ frSize (m₀ :: m₁ :: m₂ :: m₃ :: s₀ :: s₁ :: s₂ :: s₃ :: rest) := by
  have hvalue : LittleEndian.value [s₀, s₁, s₂, s₃] < 2 ^ 31 := by
    have h₀ := s₀.toNat_lt
    have h₁ := s₁.toNat_lt
    have h₂ := s₂.toNat_lt
    have h₃ := UInt8.lt_iff_toNat_lt.mp h
    have hbound : (128 : UInt8).toNat = 128 := rfl
    simp only [LittleEndian.value]
    omega
  have hsize : frSize (m₀ :: m₁ :: m₂ :: m₃ :: s₀ :: s₁ :: s₂ :: s₃ :: rest) =
      (Int32.ofNat (LittleEndian.value [s₀, s₁, s₂, s₃])).toInt := rfl
  rw [hsize, Int32.toInt_ofNat_of_lt hvalue]
  exact Int.natCast_nonneg _

/-- A size field that has not come as a whole keeps the last byte of the old one: where that is
not negative the size is none that the reader takes for the end of the header. -/
theorem sizeField_ne_of_lt {content : Nat → UInt8} (hcontent : content 7 < 128) (frame : Frame)
    {m : Nat} (hlt : m < 8) : sizeField content frame.bytes m ≠ (m : Nat) - 16 := by
  intro heq
  have hlast : filled content (frame.bytes.take m) 7 = content 7 := by
    rw [filled, List.getElem?_eq_none (by rw [List.length_take]; omega), Option.getD_none]
  have hnonneg : 0 ≤ sizeField content frame.bytes m :=
    frSize_nonneg _ (by rw [← hlast] at hcontent; exact hcontent)
  omega

/-! ## Every header and every continuation -/

/-- A call `read(buf, len, offset)` of `AutoBuffer`, with arguments that an `int` can
hold. -/
structure ReadCall where
  len : Nat
  offset : Nat
  len_lt : len < 2 ^ 31
  offset_lt : offset < 2 ^ 31

/-- What must not happen to a connection whose `stream` starts with a header, up to
the evaluation of the frame. -/
structure Contained (abi : SizeType) (stream : List UInt8) (a : ReadCall) (s : Incoming) :
    Prop where
  /-- The size of the buffer is computed without wrapping around, and is not smaller
  than what was received. -/
  reserve : ∀ r, s.reserves.head? = some r → (r.len : Int) = frSize stream + 16 ∧ r.pos ≤ r.len
  /-- The position stays in the buffer. -/
  position : ∀ c, s.client = some c → c.mReadBuffer.pos ≤ c.mReadBuffer.capa_
  /-- Only the complete frame is evaluated, and nothing behind the buffer is read. -/
  complete : ∀ b, s.evals.head? = some b → (b.pos : Int) = frSize stream + 16 ∧
    (0 < b.readCount abi a.len a.offset → a.offset + b.readCount abi a.len a.offset ≤ b.capa_)
  /-- The connection waits only for bytes of the frame. -/
  waits : s.evals = [] → ∀ c, s.client = some c →
    c.mReadBuffer.pos < 16 ∨ (c.mReadBuffer.pos : Int) < frSize stream + 16

/-- The size is not negative, does not read wrong while it is incomplete, and the peer
sends no more than the frame unless the frame fills the buffer.  A read behind the
largest `int` is only safe in a frame whose end is there as well. -/
structure Admissible (content : Nat → UInt8) (stream : List UInt8) (a : ReadCall) : Prop where
  nonneg : 0 ≤ frSize stream
  harmless : ∀ p : Nat, 0 < p → p < 8 → sizeField content stream p ≠ p - 16
  room : (stream.length : Int) ≤ frSize stream + 16 ∨
    (tAutoBufferType.Size : Int) ≤ frSize stream + 16
  read : frSize stream + 16 ≤ stream.length →
    a.len + a.offset < 2 ^ 31 ∨ 2 ^ 31 ≤ frSize stream + 16

/-! ### Reading the evaluated frame -/

/-- A small number is its own `int32_t`. -/
theorem toInt32_of_lt {x : Int} (h : -2 ^ 31 ≤ x) (hlt : x < 2 ^ 31) : toInt32 x = x := by
  rw [toInt32, Int.bmod_def]
  omega

/-- A number in the upper half is a negative `int32_t`. -/
theorem toInt32_of_le {x : Int} (h : 2 ^ 31 ≤ x) (hlt : x < 2 ^ 32) : toInt32 x = x - 2 ^ 32 := by
  rw [toInt32, Int.bmod_def]
  omega

/-- The value of `rc` in `read` for a frame of `f` bytes behind the header. -/
def readRc (a : ReadCall) (f : Int) : Int :=
  if toInt32 (a.len + a.offset) ≤ toInt32 (f + 16) then a.len else toInt32 (f + 16 - a.offset)

/-- What `AutoBuffer::read` returns: the count, or the error. -/
theorem readCount_eq (abi : SizeType) (a : ReadCall) (b : AutoBuffer) :
    b.readCount abi a.len a.offset =
      if 0 < readRc a (frSize b.request) then readRc a (frSize b.request) else -1 := by
  have hlen : toInt32 a.len = a.len :=
    toInt32_of_lt (by omega) (Int.ofNat_lt.mpr a.len_lt)
  rw [AutoBuffer.readCount, abi.toInt32_ofInt, abi.toInt32_ofInt, hlen, sizeof_sb_request_frame_eq]
  rfl

/-- A read whose end an `int` can hold copies from the frame only, and so does every
read of a frame whose own end no `int` can hold. -/
theorem readRc_le (a : ReadCall) {f : Int} (hsize : 0 ≤ f) (hlt : f < 2 ^ 31)
    (h : a.len + a.offset < 2 ^ 31 ∨ 2 ^ 31 ≤ f + 16) : a.offset + readRc a f ≤ f + 16 := by
  have hlen := a.len_lt
  have hoffset := a.offset_lt
  rw [readRc]
  by_cases hlarge : 2 ^ 31 ≤ f + 16
  · have hend : toInt32 (f + 16) = f + 16 - 2 ^ 32 := toInt32_of_le hlarge (by omega)
    by_cases hsum : a.len + a.offset < 2 ^ 31
    · rw [hend, toInt32_of_lt (x := a.len + a.offset) (by omega) (by omega), if_neg (by omega)]
      by_cases hrest : f + 16 - a.offset < 2 ^ 31
      · rw [toInt32_of_lt (by omega) hrest]
        omega
      · rw [toInt32_of_le (by omega) (by omega)]
        omega
    · rw [hend, toInt32_of_le (x := a.len + a.offset) (by omega) (by omega)]
      by_cases hfits : (a.len : Int) + a.offset - 2 ^ 32 ≤ f + 16 - 2 ^ 32
      · rw [if_pos hfits]
        omega
      · rw [if_neg hfits, toInt32_of_lt (by omega) (by omega)]
        omega
  · have hsum : a.len + a.offset < 2 ^ 31 := h.resolve_right hlarge
    rw [toInt32_of_lt (x := a.len + a.offset) (by omega) (by omega),
      toInt32_of_lt (x := f + 16) (by omega) (by omega)]
    by_cases hfits : (a.len : Int) + a.offset ≤ f + 16
    · rw [if_pos hfits]
      omega
    · rw [if_neg hfits, toInt32_of_lt (by omega) (by omega)]
      omega

/-- What is read is inside the frame, where the sum does not overflow. -/
theorem readCount_le (abi : SizeType) (a : ReadCall) {b : AutoBuffer}
    (hsize : 0 ≤ frSize b.request)
    (h : a.len + a.offset < 2 ^ 31 ∨ 2 ^ 31 ≤ frSize b.request + 16)
    (hrc : 0 < b.readCount abi a.len a.offset) :
    a.offset + b.readCount abi a.len a.offset ≤ frSize b.request + 16 := by
  rw [readCount_eq] at hrc ⊢
  by_cases hpos : 0 < readRc a (frSize b.request)
  · rw [if_pos hpos]
    exact readRc_le a hsize (frSize_bounds b.request).2 h
  · rw [if_neg hpos] at hrc
    exact absurd hrc (by decide)

/-- A read whose end no `int` can hold is taken for one in front of the buffer. -/
theorem readCount_of_le (abi : SizeType) (a : ReadCall) {b : AutoBuffer}
    (hsize : 0 ≤ frSize b.request) (h : 2 ^ 31 ≤ a.len + a.offset)
    (hlt : frSize b.request + 16 < 2 ^ 31) : b.readCount abi a.len a.offset = a.len := by
  have hlen := a.len_lt
  have hoffset := a.offset_lt
  have hrc : readRc a (frSize b.request) = a.len := by
    rw [readRc, toInt32_of_le (x := a.len + a.offset) (by omega) (by omega),
      toInt32_of_lt (x := frSize b.request + 16) (by omega) hlt, if_pos (by omega)]
  rw [readCount_eq, hrc, if_pos (by omega)]

/-! ### The position -/

/-- The position is in the buffer. -/
def Bounded (c : ServicebrokerClient) : Prop := c.mReadBuffer.ptr_ ≤ c.mReadBuffer.capa_

/-- A buffer that is armed has its position inside. -/
theorem arm_bounded {c c' : ServicebrokerClient} (h : Bounded c) (harm : arm abi c = some c') :
    Bounded c' := by
  rw [arm] at harm
  split at harm
  · split at harm
    · exact Option.some.inj harm ▸ h
    · exact absurd harm (by simp)
  · exact Option.some.inj harm ▸ h

/-- So has the one that the answer leaves. -/
theorem eval_bounded {c c' : ServicebrokerClient} {answer : Answer} (h : Bounded c)
    (heval : eval abi answer c = some c') : Bounded c' := by
  cases answer with
  | deferred => exact Option.some.inj heval ▸ h
  | response len result =>
      have hreset : c.mReadBuffer.reset.ptr_ ≤ c.mReadBuffer.reset.capa_ := Nat.zero_le _
      rw [eval] at heval
      cases result with
      | wrote rc =>
          dsimp only [evaluateWriteResult] at heval
          split at heval
          · exact arm_bounded (by exact hreset) heval
          · exact arm_bounded (by exact hreset) heval
      | would_block => exact arm_bounded (by exact hreset) heval
      | failed => exact absurd heval nofun

/-- So has the one behind a read, whether the frame is there or not. -/
theorem complete_bounded {c c' : ServicebrokerClient} {answer : Answer} {reserves : List Reserve}
    (h : Bounded c) (hc : (complete abi answer reserves c).client = some c') : Bounded c' := by
  rw [complete] at hc
  split at hc
  · exact eval_bounded h hc
  · exact arm_bounded h hc

/-- So has the one behind an event for reading. -/
theorem handleRead_bounded {c c' : ServicebrokerClient} {fresh : Nat → UInt8} {answer : Answer}
    {amount : Nat} (h : c.mReadBuffer.ptr_ + amount ≤ c.mReadBuffer.capa_)
    (hc : (handleRead abi fresh answer amount c).client = some c') : Bounded c' := by
  have hstay : Bounded c := Nat.le_trans (Nat.le_add_right ..) h
  rw [handleRead] at hc
  cases hstate : c.mState with
  | READING_HEADER =>
      rw [hstate] at hc
      dsimp only at hc
      split at hc
      · split at hc
        · refine complete_bounded ?_ hc
          rw [Bounded, AutoBuffer.ptr_reserve]
          exact Nat.le_trans h (AutoBuffer.le_capa_reserve _ _ (c.mReadBuffer.bump amount))
        · exact absurd hc (by simp)
      · exact complete_bounded (by exact h) hc
  | READING_BODY =>
      rw [hstate] at hc
      exact complete_bounded (by exact h) hc
  | WRITING =>
      rw [hstate] at hc
      exact complete_bounded hstay hc
  | DEFERRED =>
      rw [hstate] at hc
      exact complete_bounded hstay hc

/-- Whatever the stream holds, the position does not pass the end of the buffer. -/
theorem step_bounded {s : Incoming} (h : ∀ c, s.client = some c → Bounded c) (e : Event) :
    ∀ c, (step abi s e).client = some c → Bounded c := by
  intro c' hc'
  rw [step] at hc'
  cases hclient : s.client with
  | none =>
      rw [hclient] at hc'
      exact h c' hc'
  | some c =>
      rw [hclient] at hc'
      dsimp only at hc'
      by_cases hreading : c.reading = true
      · rw [if_pos hreading] at hc'
        cases e with
        | hangup => exact absurd hc' (by simp)
        | read p =>
            dsimp only at hc'
            by_cases hempty : s.stream.isEmpty = true
            · rw [if_pos hempty] at hc'
              exact h c' hc'
            · rw [if_neg hempty] at hc'
              refine handleRead_bounded ?_ hc'
              have hbound : c.mReadBuffer.ptr_ ≤ c.mReadBuffer.capa_ := h c hclient
              have hlength : c.readLength abi ≤ c.mReadBuffer.capa_ - c.mReadBuffer.ptr_ := by
                have hle := abi.ofInt_le (x := c.mReadBuffer.capa_ - c.mReadBuffer.ptr_) (by omega)
                rw [readLength, AutoBuffer.pos]
                omega
              have hamount : amount abi p c s.stream ≤ c.readLength abi :=
                Nat.le_trans (Nat.min_le_left ..) (Nat.min_le_right ..)
              dsimp only [Bounded, AutoBuffer.bump]
              rw [AutoBuffer.ptr_receive, AutoBuffer.capa_receive]
              omega
      · rw [if_neg hreading] at hc'
        exact h c' hc'

/-! ### Runs -/

/-- The frame was evaluated; what follows is another one. -/
structure Settled (stream : List UInt8) (F : Nat) (s : Incoming) : Prop where
  evals : ∃ b, s.evals.head? = some b ∧ b.Holds (stream.take F) ∧
    b.capa_ = max tAutoBufferType.Size F
  reserves : ∃ q, s.reserves.head? = some ⟨F, q⟩ ∧ q ≤ F
  le : F ≤ stream.length

/-- The connection was closed in front of the end of the frame. -/
structure Gone (F : Nat) (s : Incoming) : Prop where
  client : s.client = none
  evals : s.evals = []
  reserves : ∀ r, s.reserves.head? = some r → r.len = F ∧ r.pos ≤ F

/-- The states of a connection that receives an admissible frame. -/
def OnTrack (content : Nat → UInt8) (stream : List UInt8) (F : Nat) (s : Incoming) : Prop :=
  (∃ p < sizeof_sb_request_frame, s = header content stream p) ∨
    (∃ q ≤ stream.length, Body stream F q s) ∨ Settled stream F s ∨ Gone F s

/-- A complete frame settles the connection. -/
theorem Completed.settled {s : Incoming} (h : Completed stream F s) : Settled stream F s := by
  obtain ⟨b, hevals, hb⟩ := h.evals
  obtain ⟨q, hreserves, hq⟩ := h.reserves
  exact ⟨⟨b, by rw [hevals, List.head?_cons], hb⟩, ⟨q, by rw [hreserves, List.head?_cons], hq⟩,
    h.le⟩

/-- Once it is settled, no event changes it. -/
theorem Settled.step {s : Incoming} (h : Settled stream F s) (e : Event) :
    Settled stream F (Incoming.step abi s e) := by
  obtain ⟨b, hevals, hb⟩ := h.evals
  obtain ⟨q, hreserves, hq⟩ := h.reserves
  obtain ⟨hkeepEvals, hkeepReserves⟩ := head?_step abi s e
  exact ⟨⟨b, hkeepEvals b hevals, hb⟩, ⟨q, hkeepReserves _ hreserves, hq⟩, h.le⟩

/-- A read on the way to a header. -/
theorem header_step {a : ReadCall} (h : Framed stream F) (hadm : Admissible content stream a)
    (hroom : stream.length ≤ F ∨ tAutoBufferType.Size ≤ F) (hp : p < sizeof_sb_request_frame)
    (r : Piece) : OnTrack content stream F (step abi (header content stream p) (.read r)) := by
  have hheader := h.header
  by_cases hq : p + (r.offered + 1) < sizeof_sb_request_frame
  · refine .inl ⟨_, hq, (step_header_of_lt abi content h hp r hq).2 (fun hmisread => ?_)⟩
    by_cases hlt8 : p + (r.offered + 1) < 8
    · exact hadm.harmless _ (Nat.succ_pos _) hlt8 hmisread
    · rw [sizeField_of_le content (Nat.le_of_not_lt hlt8) (by omega)] at hmisread
      have hnonneg := h.nonneg
      rw [sizeof_sb_request_frame_eq] at hq
      omega
  · have hsize : sizeof_sb_request_frame ≤ tAutoBufferType.Size := by decide
    have hcomplete : sizeof_sb_request_frame ≤
        advance r.offered tAutoBufferType.Size stream p := by
      rw [advance]
      omega
    have hlen : advance r.offered tAutoBufferType.Size stream p ≤ stream.length :=
      advance_le_length (by omega)
    have hle : advance r.offered tAutoBufferType.Size stream p ≤ F := by
      cases hroom with
      | inl hroom => exact Nat.le_trans hlen hroom
      | inr hroom => exact Nat.le_trans (advance_le_capa (by omega)) hroom
    obtain ⟨hcompleted, hbody⟩ := step_header_of_le abi content h hp r
      hcomplete hle
    cases Nat.lt_or_eq_of_le hle with
    | inl hlt => exact .inr (.inl ⟨_, hlen, hbody hlt⟩)
    | inr heq => exact .inr (.inr (.inl (hcompleted heq).settled))

/-- An event keeps the connection on its way through the header and the body of the frame. -/
theorem OnTrack.step {a : ReadCall} (h : Framed stream F) (hadm : Admissible content stream a)
    (hroom : stream.length ≤ F ∨ tAutoBufferType.Size ≤ F) {s : Incoming}
    (hs : OnTrack content stream F s) (e : Event) :
    OnTrack content stream F (Incoming.step abi s e) := by
  rcases hs with ⟨p, hp, rfl⟩ | ⟨q, hq, hbody⟩ | hsettled | hgone
  · cases e with
    | read r => exact header_step h hadm hroom hp r
    | hangup => exact .inr (.inr (.inr ⟨rfl, rfl, nofun⟩))
  · cases e with
    | read r =>
        cases Nat.lt_or_eq_of_le hq with
        | inl hlt =>
            cases Body.step abi h hroom hbody r hlt with
            | inl hcompleted => exact .inr (.inr (.inl hcompleted.settled))
            | inr hmore =>
                obtain ⟨q', -, hq', hbody'⟩ := hmore
                exact .inr (.inl ⟨q', hq', hbody'⟩)
        | inr heq =>
            have hempty : s.stream.isEmpty = true := by
              rw [hbody.stream, heq, List.drop_length, List.isEmpty_nil]
            rw [step_of_isEmpty hempty]
            exact .inr (.inl ⟨q, hq, hbody⟩)
    | hangup =>
        obtain ⟨c, hclient, hstate, -⟩ := hbody.client
        obtain ⟨q', hreserves, hq'⟩ := hbody.reserves
        have hreading : c.reading = true := by rw [reading, hstate]; rfl
        have hstep : Incoming.step abi s .hangup = { s with client := none } := by
          rw [Incoming.step, hclient]
          dsimp only
          rw [if_pos hreading]
        rw [hstep]
        refine .inr (.inr (.inr ⟨rfl, hbody.evals, fun r hr => ?_⟩))
        rw [hreserves, List.head?_cons, Option.some.injEq] at hr
        subst hr
        exact ⟨rfl, hq'⟩
  · exact .inr (.inr (.inl (hsettled.step e)))
  · have hstep : Incoming.step abi s e = s := by rw [Incoming.step, hgone.client]
    rw [hstep]
    exact .inr (.inr (.inr hgone))

/-- On this way no byte outside of the frame is touched. -/
theorem OnTrack.contained {a : ReadCall} (h : Framed stream F)
    (hadm : Admissible content stream a) {s : Incoming} (hs : OnTrack content stream F s)
    (hbound : ∀ c, s.client = some c → Bounded c) : Contained abi stream a s := by
  have hsize := h.size
  rcases hs with ⟨p, hp, rfl⟩ | ⟨q, hq, hbody⟩ | hsettled | hgone
  · refine ⟨nofun, hbound, nofun, fun _ c hc => .inl ?_⟩
    rw [← Option.some.inj hc]
    exact hp
  · obtain ⟨c, hclient, -, hb, -⟩ := hbody.client
    obtain ⟨q', hreserves, hq'⟩ := hbody.reserves
    refine ⟨fun r hr => ?_, hbound, fun b hb => ?_, fun _ c' hc' => .inr ?_⟩
    · rw [hreserves, List.head?_cons, Option.some.injEq] at hr
      subst hr
      exact ⟨hsize, hq'⟩
    · rw [hbody.evals] at hb
      exact absurd hb (by simp)
    · rw [hclient, Option.some.injEq] at hc'
      subst hc'
      have hlt := hbody.lt
      rw [AutoBuffer.pos, hb.pos, List.length_take, Nat.min_eq_left hq]
      omega
  · obtain ⟨b, hevals, hb, hcapa⟩ := hsettled.evals
    obtain ⟨q', hreserves, hq'⟩ := hsettled.reserves
    have hlength : (stream.take F).length = F := by
      rw [List.length_take, Nat.min_eq_left hsettled.le]
    have hle := hsettled.le
    refine ⟨fun r hr => ?_, hbound, fun b' hb' => ?_, fun hnone => ?_⟩
    · rw [hreserves, Option.some.injEq] at hr
      subst hr
      exact ⟨hsize, hq'⟩
    · rw [hevals, Option.some.injEq] at hb'
      subst hb'
      have hfield : frSize b.request = frSize stream := by
        rw [hb.frSize_request (by rw [hlength]; exact h.le), frSize_take h.le]
      refine ⟨by rw [AutoBuffer.pos, hb.pos, hlength, hsize], fun hrc => ?_⟩
      have hcount := readCount_le abi a (b := b) (by rw [hfield]; exact h.nonneg)
        (by rw [hfield]; exact hadm.read (by omega)) hrc
      rw [hfield] at hcount
      have hmax := Nat.le_max_right tAutoBufferType.Size F
      rw [hcapa]
      omega
    · rw [hnone] at hevals
      exact absurd hevals (by simp)
  · refine ⟨fun r hr => ?_, hbound, fun b hb => ?_, fun _ c hc => ?_⟩
    · obtain ⟨hlen, hpos⟩ := hgone.reserves r hr
      rw [hlen]
      exact ⟨hsize, hpos⟩
    · rw [hgone.evals] at hb
      exact absurd hb (by simp)
    · rw [hgone.client] at hc
      exact absurd hc (by simp)

/-- All of a frame that fits into the array, as one piece. -/
def whole : Piece where
  offered := tAutoBufferType.Size - 1
  answer := .deferred
  fresh := fun _ => 0

theorem advance_whole (stream : List UInt8) :
    advance whole.offered tAutoBufferType.Size stream 0 =
      min tAutoBufferType.Size stream.length := by
  have hsize : 0 < tAutoBufferType.Size := by decide
  have hoffered : whole.offered = tAutoBufferType.Size - 1 := rfl
  rw [advance, hoffered]
  omega

/-- The call of `reserve` when a header arrives with all that follows. -/
theorem reserves_whole (abi : SizeType) (content : Nat → UInt8) (r : RequestStream) :
    let q := min tAutoBufferType.Size r.bytes.length
    (step abi (start content r.bytes) (.read whole)).reserves =
      [⟨frameSize abi (headerBuffer content r.bytes q), q⟩] := by
  have hheader := r.le_length
  have hsize : sizeof_sb_request_frame ≤ tAutoBufferType.Size := by decide
  have hpos : 0 < sizeof_sb_request_frame := by decide
  have hq : sizeof_sb_request_frame ≤ min tAutoBufferType.Size r.bytes.length :=
    Nat.le_min.mpr ⟨hsize, hheader⟩
  have hb := headerBuffer_holds content (Nat.min_le_right tAutoBufferType.Size r.bytes.length)
  have hmagic : frMagic (headerBuffer content r.bytes
      (min tAutoBufferType.Size r.bytes.length)).request = SB_FRAME_MAGIC := by
    rw [hb.frMagic_request ?_, frMagic_take hq, r.frMagic_bytes]
    rw [List.length_take, Nat.min_eq_left (Nat.min_le_right ..)]
    exact hq
  have hstep := step_header abi content hpos (Nat.lt_of_lt_of_le hpos hheader) whole
  rw [advance_whole] at hstep
  dsimp only at hstep
  rw [if_pos hq, if_pos hmagic] at hstep
  dsimp only
  rw [start_eq_header, hstep, complete]
  split <;> rfl

/-- Behind every run the position is inside the buffer. -/
theorem run_bounded (content : Nat → UInt8) (stream : List UInt8) (es : List Event) :
    ∀ c, (run (step abi) (start content stream) es).client = some c → Bounded c := by
  refine Run.invariant (P := fun _ _ => True)
    (I := fun s : Incoming => ∀ c, s.client = some c → Bounded c)
    (fun s e hs _ => step_bounded hs e) ?_ ?_
  · intro c hc
    rw [← Option.some.inj hc]
    exact Nat.zero_le _
  · generalize start content stream = s
    induction es generalizing s with
    | nil => trivial
    | cons e es ih => exact ⟨trivial, ih _⟩

/-- An admissible read is contained in every run. -/
theorem contained_of_admissible (abi : SizeType) {content : Nat → UInt8} {r : RequestStream}
    {a : ReadCall} (h : Admissible content r.bytes a) (es : List Event) :
    Contained abi r.bytes a (run (step abi) (start content r.bytes) es) := by
  have hnonneg := h.nonneg
  have hroom := h.room
  obtain ⟨F, hF⟩ : ∃ F : Nat, (F : Int) = frSize r.bytes + 16 :=
    ⟨(frSize r.bytes + 16).toNat, Int.toNat_of_nonneg (by omega)⟩
  have hframed : Framed r.bytes F := ⟨hF, hnonneg, r.frMagic_bytes, r.le_length⟩
  have hroom' : r.bytes.length ≤ F ∨ tAutoBufferType.Size ≤ F := by omega
  have htrack : OnTrack content r.bytes F (run (step abi) (start content r.bytes) es) := by
    have hstart : OnTrack content r.bytes F (start content r.bytes) :=
      .inl ⟨0, by decide, start_eq_header content r.bytes⟩
    revert hstart
    generalize start content r.bytes = s
    intro hs
    induction es generalizing s with
    | nil => exact hs
    | cons e es ih => exact ih _ (hs.step hframed h hroom' e)
  exact htrack.contained hframed h (run_bounded content r.bytes es)

/-- A frame that does not exceed its room is complete behind two long reads. -/
theorem exists_completed (abi : SizeType) (content : Nat → UInt8) (h : Framed stream F)
    (hroom : min tAutoBufferType.Size stream.length ≤ F) (hF : F ≤ stream.length) :
    ∃ es, Completed stream F (run (step abi) (start content stream) es) := by
  have hsize : sizeof_sb_request_frame ≤ tAutoBufferType.Size := by decide
  have hq : sizeof_sb_request_frame ≤ advance whole.offered tAutoBufferType.Size stream 0 := by
    rw [advance_whole]
    exact Nat.le_min.mpr ⟨hsize, h.header⟩
  have hle : advance whole.offered tAutoBufferType.Size stream 0 ≤ F := by
    rw [advance_whole]
    exact hroom
  obtain ⟨hcompleted, hbody⟩ := step_header_of_le abi content h
    (by decide) whole hq hle
  rw [← start_eq_header] at hcompleted hbody
  cases Nat.lt_or_eq_of_le hle with
  | inr heq => exact ⟨[.read whole], hcompleted heq⟩
  | inl hlt =>
      have hadvance : advance whole.offered tAutoBufferType.Size stream 0 =
          tAutoBufferType.Size := by
        rw [advance_whole] at hlt ⊢
        omega
      rw [hadvance] at hbody hlt
      have hrest : advance F (max tAutoBufferType.Size F) stream tAutoBufferType.Size = F := by
        rw [advance]
        omega
      obtain ⟨hdone, -⟩ := step_body_of_le abi h (hbody hlt) ⟨F, .deferred, fun _ => 0⟩
        (by omega) (Nat.le_of_eq hrest)
      exact ⟨[.read whole, .read ⟨F, .deferred, fun _ => 0⟩], hdone hrest⟩

/-- And a read that is contained in every run is admissible. -/
theorem admissible_of_contained (abi : SizeType) {content : Nat → UInt8} {r : RequestStream}
    {a : ReadCall}
    (h : ∀ es, Contained abi r.bytes a (run (step abi) (start content r.bytes) es)) :
    Admissible content r.bytes a := by
  have hheader := r.le_length
  rw [sizeof_sb_request_frame_eq] at hheader
  have hreserve := (h [.read whole]).reserve
    ⟨_, min tAutoBufferType.Size r.bytes.length⟩ (by
      rw [run_cons, run_nil, reserves_whole, List.head?_cons])
  obtain ⟨hexact, hlarge⟩ := hreserve
  have hsize : tAutoBufferType.Size = 512 := rfl
  obtain ⟨F, hF⟩ : ∃ F : Nat, (F : Int) = frSize r.bytes + 16 := ⟨_, hexact⟩
  have hroom : min tAutoBufferType.Size r.bytes.length ≤ F := by
    dsimp only at hexact hlarge
    omega
  have hnonneg : 0 ≤ frSize r.bytes := by omega
  have hframed : Framed r.bytes F := ⟨hF, hnonneg, r.frMagic_bytes, r.le_length⟩
  refine ⟨hnonneg, fun p hpos hlt hmisread => ?_, by omega, fun hcomplete => ?_⟩
  · have hp : 0 + (p - 1 + 1) = p := by omega
    have hearly := (step_header_of_lt (p := 0) abi content hframed (by decide)
      ⟨p - 1, .deferred, fun _ => 0⟩ (by
        rw [sizeof_sb_request_frame_eq]
        dsimp only
        omega)).1
    dsimp only at hearly
    rw [hp, ← start_eq_header] at hearly
    have hevals := hearly hmisread
    obtain ⟨hfull, -⟩ := (h [.read ⟨p - 1, .deferred, fun _ => 0⟩]).complete
      (headerBuffer content r.bytes p) (by rw [run_cons, run_nil, hevals, List.head?_cons])
    have hpos' : (headerBuffer content r.bytes p).pos = p := rfl
    omega
  · have hFlen : F ≤ r.bytes.length := by omega
    obtain ⟨es, hcompleted⟩ := exists_completed abi content hframed hroom hFlen
    obtain ⟨b, hevals, hb, hcapa⟩ := hcompleted.evals
    have hlength : (r.bytes.take F).length = F := by rw [List.length_take, Nat.min_eq_left hFlen]
    have hfield : frSize b.request = frSize r.bytes := by
      rw [hb.frSize_request (by rw [hlength]; exact hframed.le), frSize_take hframed.le]
    obtain ⟨-, hread⟩ := (h es).complete b (by rw [hevals, List.head?_cons])
    have hoffset := a.offset_lt
    refine Classical.byContradiction (fun hnot => ?_)
    rw [readCount_of_le abi a (by rw [hfield]; exact hnonneg) (by omega) (by rw [hfield]; omega),
      hcapa] at hread
    omega

/-- A malformed size is contained, in every cut of the stream, exactly if it is not
negative, does not read wrong in front of its end, and announces all that the peer
sends; for a read at the end of the largest frames see `Admissible`. -/
theorem contained_iff (abi : SizeType) (content : Nat → UInt8) (r : RequestStream) (a : ReadCall) :
    (∀ es, Contained abi r.bytes a (run (step abi) (start content r.bytes) es)) ↔
      Admissible content r.bytes a :=
  ⟨admissible_of_contained abi, contained_of_admissible abi⟩

/-- A size of -12 makes a buffer of four bytes for the sixteen of the header. -/
theorem not_contained_negative :
    ¬ ∀ (abi : SizeType) (content : Nat → UInt8) (r : RequestStream) (a : ReadCall)
      (es : List Event), Contained abi r.bytes a (run (step abi) (start content r.bytes) es) := by
  intro h
  have hnonneg := (admissible_of_contained ⟨32, Nat.le_refl 32⟩ (h ⟨32, Nat.le_refl 32⟩
    (fun _ => 0) ⟨[0x53, 0x42, 0x52, 0x4B, 0xF4, 0xFF, 0xFF, 0xFF, 1, 0, 0, 0, 0, 0, 0, 0],
      by decide, by decide, []⟩ ⟨0, 0, by decide, by decide⟩)).nonneg
  revert hnonneg
  decide

end Incoming

end Dsi
