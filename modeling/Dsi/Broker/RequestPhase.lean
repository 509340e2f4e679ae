import Dsi.Broker.Conversation

/-!
# Dsi.Broker.RequestPhase

A request on its way: while the caller sends it, the connection reads what is there, and
that is the same as reading the whole request in smaller pieces.  The array of the read
buffer holds the header of the last request for ever, so that its size field reads as no
negative number in front of the next one.
-/

namespace Dsi

open CLayout ServicebrokerClient

namespace ServicebrokerClient

variable {abi : SizeType} {c c' : ServicebrokerClient}

theorem arm_eq_some (h : arm abi c = some c') : c' = c := by
  unfold arm at h
  split at h
  · split at h
    · exact (Option.some.inj h).symm
    · exact absurd h (by simp)
  · exact (Option.some.inj h).symm

theorem internal_eval {answer : Answer} (h : eval abi answer c = some c') :
    c'.mReadBuffer.internal_ = c.mReadBuffer.internal_ := by
  cases answer with
  | deferred => exact Option.some.inj h ▸ rfl
  | response len result =>
      rw [eval] at h
      cases result with
      | failed => exact absurd h (by simp [evaluateWriteResult])
      | would_block => exact arm_eq_some h ▸ rfl
      | wrote rc =>
          simp only [evaluateWriteResult] at h
          split at h
          · exact arm_eq_some h ▸ rfl
          · exact arm_eq_some h ▸ rfl

theorem internal_complete {answer : Answer} {reserves : List Reserve}
    (h : (complete abi answer reserves c).client = some c') :
    c'.mReadBuffer.internal_ = c.mReadBuffer.internal_ := by
  unfold complete at h
  split at h
  · exact internal_eval h
  · exact arm_eq_some h ▸ rfl

theorem internal_reserve (fresh : Nat → UInt8) (len : Nat) (b : AutoBuffer) :
    (b.reserve fresh len).internal_ = b.internal_ := by
  unfold AutoBuffer.reserve
  split
  · split <;> rfl
  · rfl

/-- No event of a read changes the array inside the buffer. -/
theorem internal_handleRead {fresh : Nat → UInt8} {answer : Answer} {amount : Nat}
    (h : (handleRead abi fresh answer amount c).client = some c') :
    c'.mReadBuffer.internal_ = c.mReadBuffer.internal_ := by
  unfold handleRead at h
  cases hstate : c.mState with
  | READING_HEADER =>
      simp only [hstate] at h
      split at h
      · split at h
        · exact (internal_complete h).trans (internal_reserve ..)
        · exact absurd h (by simp)
      · have hcomplete := internal_complete h
        exact hcomplete
  | READING_BODY =>
      simp only [hstate] at h
      have hcomplete := internal_complete h
      exact hcomplete
  | WRITING =>
      simp only [hstate] at h
      exact internal_complete h
  | DEFERRED =>
      simp only [hstate] at h
      exact internal_complete h

/-- A frame that is evaluated goes through `eval`. -/
theorem client_complete {answer : Answer} {reserves : List Reserve} {b : AutoBuffer}
    (h : (complete abi answer reserves c).evals = [b]) :
    (complete abi answer reserves c).client = eval abi answer { c with mReadBuffer := b } := by
  unfold complete at h ⊢
  split
  · next heq =>
    rw [if_pos heq] at h
    obtain rfl := List.singleton_inj.mp h
    rfl
  · next hne =>
    rw [if_neg hne] at h
    exact absurd h (by simp)

theorem client_handleRead {fresh : Nat → UInt8} {answer : Answer} {amount : Nat} {b : AutoBuffer}
    (h : (handleRead abi fresh answer amount c).evals = [b]) :
    ∃ state, (handleRead abi fresh answer amount c).client =
      eval abi answer { c with mState := state, mReadBuffer := b } := by
  unfold handleRead at h ⊢
  cases hstate : c.mState with
  | READING_HEADER =>
      simp only [hstate] at h ⊢
      split at h
      · next hheader =>
        rw [if_pos hheader]
        split at h
        · next hmagic =>
          rw [if_pos hmagic]
          exact ⟨_, client_complete h⟩
        · exact absurd h (by simp)
      · next hheader =>
        rw [if_neg hheader]
        exact ⟨_, client_complete h⟩
  | READING_BODY =>
      simp only [hstate] at h ⊢
      exact ⟨_, client_complete h⟩
  | WRITING =>
      simp only [hstate] at h ⊢
      exact ⟨_, client_complete h⟩
  | DEFERRED =>
      simp only [hstate] at h ⊢
      exact ⟨_, client_complete h⟩

/-- A read that completes nothing does not touch a response. -/
theorem unwritten_complete {answer : Answer} {reserves : List Reserve}
    (hevals : (complete abi answer reserves c).evals = [])
    (h : (complete abi answer reserves c).client = some c') : c'.unwritten = c.unwritten := by
  unfold complete at h hevals
  split at h
  · next heq =>
    rw [if_pos heq] at hevals
    exact absurd hevals (by simp)
  · exact arm_eq_some h ▸ rfl

theorem unwritten_handleRead {fresh : Nat → UInt8} {answer : Answer} {amount : Nat}
    (hevals : (handleRead abi fresh answer amount c).evals = [])
    (h : (handleRead abi fresh answer amount c).client = some c') :
    c'.unwritten = c.unwritten := by
  unfold handleRead at h hevals
  cases hstate : c.mState with
  | READING_HEADER =>
      simp only [hstate] at h hevals
      split at h
      · next hheader =>
        rw [if_pos hheader] at hevals
        split at h
        · next hmagic =>
          rw [if_pos hmagic] at hevals
          have hcomplete := unwritten_complete hevals h
          exact hcomplete
        · exact absurd h (by simp)
      · next hheader =>
        rw [if_neg hheader] at hevals
        have hcomplete := unwritten_complete hevals h
        exact hcomplete
  | READING_BODY =>
      simp only [hstate] at h hevals
      have hcomplete := unwritten_complete hevals h
      exact hcomplete
  | WRITING =>
      simp only [hstate] at h hevals
      exact unwritten_complete hevals h
  | DEFERRED =>
      simp only [hstate] at h hevals
      exact unwritten_complete hevals h

end ServicebrokerClient

namespace Incoming

variable {abi : SizeType} {client : Option ServicebrokerClient} {up rest : List UInt8}
  {reserves : List Reserve} {evals : List AutoBuffer}

/-- A read of what is there of a longer stream is a read of the stream in a smaller piece. -/
theorem step_append (hup : up ≠ []) (p : Piece) :
    ∃ offered, step abi { client := client, stream := up ++ rest, reserves := reserves }
        (.read { p with offered := offered }) =
      { client := (step abi { client := client, stream := up } (.read p)).client
        stream := (step abi { client := client, stream := up } (.read p)).stream ++ rest
        reserves := reserves ++ (step abi { client := client, stream := up } (.read p)).reserves
        evals := (step abi { client := client, stream := up } (.read p)).evals } := by
  have hlen : 0 < up.length := List.length_pos_iff.mpr hup
  refine ⟨min p.offered (up.length - 1), ?_⟩
  rw [step, step]
  cases client with
  | none => simp
  | some c =>
      dsimp only
      by_cases hreading : c.reading = true
      · have hempty : up.isEmpty = false := by simpa using hup
        have hempty' : (up ++ rest).isEmpty = false := by simp [hup]
        have hamount : amount abi { p with offered := min p.offered (up.length - 1) } c
            (up ++ rest) = amount abi p c up := by
          simp only [amount, List.length_append]
          omega
        have hle : amount abi p c up ≤ up.length := Nat.min_le_right ..
        rw [if_pos hreading, if_pos hreading, hempty, hempty', if_neg Bool.false_ne_true,
          if_neg Bool.false_ne_true, hamount, List.take_append_of_le_length hle,
          List.drop_append_of_le_length hle]
        simp
      · rw [if_neg hreading, if_neg hreading]
        simp

/-- The array inside the buffer behind a read. -/
theorem internal_step {c c' : ServicebrokerClient} {p : Piece}
    (h : (step abi { client := some c, stream := up } (.read p)).client = some c') :
    c'.mReadBuffer.internal_ =
        (c.mReadBuffer.receive (up.take (amount abi p c up))).internal_ ∨
      c'.mReadBuffer.internal_ = c.mReadBuffer.internal_ := by
  rw [step] at h
  dsimp only at h
  split at h
  · split at h
    · exact Or.inr (Option.some.inj h ▸ rfl)
    · exact Or.inl (internal_handleRead h)
  · exact Or.inr (Option.some.inj h ▸ rfl)

/-- The connection behind the evaluation of a frame. -/
theorem client_step {c : ServicebrokerClient} {p : Piece} {b : AutoBuffer}
    (h : (step abi { client := some c, stream := up } (.read p)).evals = [b]) :
    ∃ state, (step abi { client := some c, stream := up } (.read p)).client =
      eval abi p.answer { c with mState := state, mReadBuffer := b } := by
  rw [step] at h ⊢
  dsimp only at h ⊢
  split at h
  · next hreading =>
    rw [if_pos hreading]
    split at h
    · exact absurd h (by simp)
    · next hempty =>
      rw [if_neg hempty]
      exact client_handleRead h
  · exact absurd h (by simp)

/-! ## A request that is read -/

/-- `q` bytes of a request were received, and the connection waits for more of it. -/
inductive Reads (request : List UInt8) : Nat → Incoming → Prop where
  | header {content : Nat → UInt8} {q : Nat} (hq : q < sizeof_sb_request_frame)
      (hcontent : content 7 < 128) : Reads request q (.header content request q)
  | body {q : Nat} {i : Incoming} (h : Body request request.length q i)
      (hclient : ∀ c, i.client = some c → c.unwritten = 0 ∧ c.mReadBuffer.internal_ 7 < 128) :
      Reads request q i

variable {request : List UInt8} {q : Nat}

/-- The last byte of the size field, behind a write into the array. -/
theorem internal_receive_lt {b : AutoBuffer} {piece : List UInt8} (hb : b.internal_ 7 < 128)
    (hpiece : b.ptr_ ≤ 7 → ∀ x, piece[7 - b.ptr_]? = some x → x < 128) :
    (b.receive piece).internal_ 7 < 128 := by
  cases hblock : b.block with
  | some mem => simpa only [AutoBuffer.receive, hblock] using hb
  | none =>
      simp only [AutoBuffer.receive, hblock]
      split
      · next hle =>
        cases hx : piece[7 - b.ptr_]? with
        | none => exact hb
        | some x => exact hpiece hle x hx
      · exact hb

theorem getElem?_of_take {l : List UInt8} {n i : Nat} {x : UInt8} (h : (l.take n)[i]? = some x) :
    l[i]? = some x := by
  rw [List.getElem?_take] at h
  split at h
  · exact h
  · contradiction

/-- What a read leaves in the last byte of the size field is no sign. -/
theorem internal_lt_of_reads (hsign : ∀ x, request[7]? = some x → x < 128)
    (h : Reads request q { client := client, stream := up ++ rest, reserves := reserves })
    (p : Piece) {c' : ServicebrokerClient}
    (hc' : (step abi { client := client, stream := up } (.read p)).client = some c') :
    c'.mReadBuffer.internal_ 7 < 128 := by
  generalize hi : ({ client := client, stream := up ++ rest, reserves := reserves } : Incoming) = i
    at h
  cases h with
  | header hq hcontent =>
      rename_i content
      obtain ⟨rfl, hstream, -, -⟩ := Incoming.mk.inj hi
      have hold : filled content (request.take q) 7 < 128 := by
        rw [filled]
        cases hx : (request.take q)[7]? with
        | none => exact hcontent
        | some x => exact hsign x (getElem?_of_take hx)
      rcases internal_step hc' with hnew | hnew
      · rw [hnew]
        refine internal_receive_lt hold fun hle x hx => hsign x ?_
        have hfront : up[7 - q]? = some x := getElem?_of_take hx
        have hmem : (up ++ rest)[7 - q]? = some x := by
          rw [List.getElem?_append_left (List.getElem?_eq_some_iff.mp hfront).1]
          exact hfront
        rw [hstream, List.getElem?_drop] at hmem
        have hle' : q ≤ 7 := hle
        rwa [Nat.add_sub_cancel' hle'] at hmem
      · rw [hnew]
        exact hold
  | body hbody hclient =>
      subst hi
      obtain ⟨c, rfl, -, hholds, -⟩ := hbody.client
      have hptr : 7 < c.mReadBuffer.ptr_ := by
        have hlt := hbody.header
        rw [hholds.pos, List.length_take, Nat.min_eq_left (Nat.le_of_lt hbody.lt)]
        exact Nat.lt_of_lt_of_le (by decide) hlt
      obtain ⟨-, hold⟩ := hclient c rfl
      rcases internal_step hc' with hnew | hnew
      · rw [hnew]
        exact internal_receive_lt hold fun hle => absurd hle (Nat.not_le.mpr hptr)
      · rw [hnew]
        exact hold

theorem unwritten_step {c c' : ServicebrokerClient} {p : Piece}
    (hevals : (step abi { client := some c, stream := up } (.read p)).evals = [])
    (h : (step abi { client := some c, stream := up } (.read p)).client = some c') :
    c'.unwritten = c.unwritten := by
  rw [step] at h hevals
  dsimp only at h hevals
  split at h
  · next hreading =>
    rw [if_pos hreading] at hevals
    split at h
    · exact Option.some.inj h ▸ rfl
    · next hempty =>
      rw [if_neg hempty] at hevals
      have hhandle := unwritten_handleRead hevals h
      exact hhandle
  · exact Option.some.inj h ▸ rfl

/-- What was evaluated is the whole request. -/
theorem Completed.received {s : Incoming} (h : Completed request request.length s) :
    ∃ b, s.evals = [b] ∧ received b = request := by
  obtain ⟨b, hevals, hb, -⟩ := h.evals
  have hpos : b.pos = request.length := by
    rw [AutoBuffer.pos, hb.pos, List.length_take, Nat.min_self]
  have hlen : request.length ≤ (request.take request.length).length := by
    simp only [List.take_length, Nat.le_refl]
  refine ⟨b, hevals, ?_⟩
  rw [Incoming.received, hpos, hb.bytes hlen, List.take_take, Nat.min_self, List.take_length]

/-- A part of the header does not show the size that would end it. -/
theorem sizeField_ne_of_lt_header {content : Nat → UInt8} (hcontent : content 7 < 128)
    (frame : Frame) {m : Nat} (hlt : m < sizeof_sb_request_frame) :
    sizeField content frame.bytes m ≠ (m : Nat) - 16 := by
  by_cases hlt8 : m < 8
  · exact sizeField_ne_of_lt hcontent frame hlt8
  · have hheader := frame.framed.header
    have hnonneg := frame.nonneg
    have hfield := @sizeField_of_le frame.bytes content _ (Nat.le_of_not_lt hlt8) (by omega)
    rw [hfield]
    rw [sizeof_sb_request_frame_eq] at hlt
    omega

/-- A request is read by a client that has written all it had to. -/
theorem Reads.exists_client {i : Incoming} (h : Reads request q i) :
    ∃ c, i.client = some c ∧ c.unwritten = 0 := by
  cases h with
  | header hq hcontent => exact ⟨_, rfl, rfl⟩
  | body hbody hkept =>
      obtain ⟨c, hc, -⟩ := hbody.client
      exact ⟨c, hc, (hkept c hc).1⟩

/-- A read brings the request on, or completes it: then it is evaluated, with all of it in the
buffer and nothing behind it. -/
theorem reads_step (frame : Frame) (hsign : ∀ x, frame.bytes[7]? = some x → x < 128)
    (h : Reads frame.bytes q { client := client, stream := up ++ rest, reserves := reserves })
    (hup : up ≠ []) (p : Piece) :
    (step abi { client := client, stream := up } (.read p)).evals = [] ∧
        (∃ q' reserves', Reads frame.bytes q'
          { client := (step abi { client := client, stream := up } (.read p)).client
            stream := (step abi { client := client, stream := up } (.read p)).stream ++ rest
            reserves := reserves' }) ∨
      ∃ b state, (step abi { client := client, stream := up } (.read p)).evals = [b] ∧
        received b = frame.bytes ∧
        (step abi { client := client, stream := up } (.read p)).stream ++ rest = [] ∧
        (step abi { client := client, stream := up } (.read p)).client =
          eval abi p.answer { mState := state, mReadBuffer := b } := by
  obtain ⟨n, hstep⟩ := @step_append abi client up rest reserves hup p
  have hinternal : ∀ c', (step abi { client := client, stream := up } (.read p)).client = some c' →
      c'.mReadBuffer.internal_ 7 < 128 := fun c' hc' => internal_lt_of_reads hsign h p hc'
  obtain ⟨c, rfl, hunwritten⟩ := h.exists_client
  generalize hs : step abi { client := some c, stream := up } (.read p) = s at hstep hinternal ⊢
  -- what a step of the whole request comes to
  have hcompleted : Completed frame.bytes frame.bytes.length
      { client := s.client, stream := s.stream ++ rest, reserves := reserves ++ s.reserves
        evals := s.evals } → ∃ b state, s.evals = [b] ∧ received b = frame.bytes ∧
      s.stream ++ rest = [] ∧
      s.client = eval abi p.answer { mState := state, mReadBuffer := b } := by
    intro hcompleted
    obtain ⟨b, hb, hreceived⟩ := hcompleted.received
    obtain ⟨state, hstate⟩ := client_step (hs ▸ hb)
    have hnothing := hcompleted.stream
    rw [List.drop_length] at hnothing
    rw [hs, hunwritten] at hstate
    exact ⟨b, state, hb, hreceived, hnothing, hstate⟩
  have hbody : ∀ q', Body frame.bytes frame.bytes.length q'
      { client := s.client, stream := s.stream ++ rest, reserves := reserves ++ s.reserves
        evals := s.evals } → s.evals = [] ∧ ∃ q' reserves', Reads frame.bytes q'
      { client := s.client, stream := s.stream ++ rest, reserves := reserves' } := by
    intro q' hbody
    have hevals : s.evals = [] := hbody.evals
    rw [hevals] at hbody
    refine ⟨hevals, q', _, .body hbody fun c' hc' => ⟨?_, hinternal c' hc'⟩⟩
    rw [unwritten_step (hs ▸ hevals) (hs ▸ hc'), hunwritten]
  generalize hi : ({ client := some c, stream := up ++ rest, reserves := reserves } :
    Incoming) = i at h
  rw [hi] at hstep
  cases h with
  | header hq hcontent =>
      rename_i content
      by_cases hlt : q + (n + 1) < sizeof_sb_request_frame
      · obtain ⟨-, hmore⟩ := step_header_of_lt abi content frame.framed hq
          { p with offered := n } hlt
        rw [hmore (sizeField_ne_of_lt_header hcontent frame hlt)] at hstep
        obtain ⟨hc, hstream, hreserves, hevals⟩ := Incoming.mk.inj hstep
        refine Or.inl ⟨hevals.symm, q + (n + 1), [], ?_⟩
        have hheader : ({ client := s.client, stream := s.stream ++ rest } : Incoming) =
            header content frame.bytes (q + (n + 1)) := by
          rw [← hc, ← hstream]
          rfl
        rw [hheader]
        exact .header hlt hcontent
      · have hlong : sizeof_sb_request_frame ≤
            advance n tAutoBufferType.Size frame.bytes q := by
          have hheader := frame.framed.header
          have hsize : sizeof_sb_request_frame ≤ tAutoBufferType.Size := by decide
          rw [advance]
          omega
        have hle : advance n tAutoBufferType.Size frame.bytes q ≤ frame.bytes.length :=
          advance_le_length (Nat.le_of_lt (Nat.lt_of_lt_of_le hq frame.framed.header))
        obtain ⟨hdone, hmore⟩ := step_header_of_le abi content frame.framed hq
          { p with offered := n } hlong hle
        rw [hstep] at hdone hmore
        rcases Nat.lt_or_eq_of_le hle with hlt | heq
        · exact Or.inl (hbody _ (hmore hlt))
        · exact Or.inr (hcompleted (hdone heq))
  | body hold hkept =>
      have hnext := Body.step abi frame.framed (.inl (Nat.le_refl _)) hold
        { p with offered := n } hold.lt
      rw [hstep] at hnext
      rcases hnext with hdone | ⟨q', -, -, hmore⟩
      · exact Or.inr (hcompleted hdone)
      · exact Or.inl (hbody q' hmore)

end Incoming

end Dsi
