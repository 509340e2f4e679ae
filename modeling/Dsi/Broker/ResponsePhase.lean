import Dsi.Broker.RequestPhase

/-!
# Dsi.Broker.ResponsePhase

A response on its way out of the broker: what `evaluateWriteResult` and `handleWrite` send
of the write buffer is its frame, in order and once, and then the connection waits for the
next request.
-/

namespace Dsi

open CLayout ServicebrokerClient AutoBuffer

theorem SBResponse.length_frame (a : SBResponse) :
    a.frame.length = sizeof_sb_response_frame + a.body.length := by
  rw [frame, List.length_append, a.length_header]

namespace ServicebrokerClientBase

variable (abi : SizeType) {a : SBResponse} {b : AutoBuffer} {p : ServicebrokerClientBase}
  {up unwritten : List UInt8} {result : WriteResult}

/-- The length that the broker reads off the buffer. -/
theorem responseLength_of_responds (h : Responds a b) (hlen : a.body.length < 2 ^ 31) :
    responseLength abi b = a.frame.length := by
  have hresponse : b.response = a.header := by
    rw [AutoBuffer.response, bytes_eq_slice]
    exact h.header_eq
  rw [responseLength, hresponse, a.frSize_header hlen, abi.ofInt_ofInt_add,
    abi.ofInt_of_nonneg (by omega) (by rw [sizeof_sb_response_frame_eq]; omega), a.length_frame]
  omega

/-- A piece of the buffer is a piece of the frame. -/
theorem slice_of_responds (h : Responds a b) {o n : Nat} (hle : o + n ≤ a.frame.length) :
    Memory.slice b.buf_ o n = (a.frame.drop o).take n := by
  have hbytes := h.bytes_eq
  have hsplit : a.frame.length = o + (n + (a.frame.length - (o + n))) := by omega
  rw [bytes_eq_slice, ← a.length_frame, hsplit, Memory.slice_add, Memory.slice_add,
    Nat.zero_add] at hbytes
  rw [← hbytes, List.drop_left' (Memory.length_slice ..), List.take_left' (Memory.length_slice ..)]

theorem answer_of_none {h : Handling} (ha : h.answered = none) (result : WriteResult)
    (b : AutoBuffer) : answer abi h result b = .deferred := by
  rw [answer]
  cases hprepared : h.prepared with
  | deferResponse => rfl
  | retval retval => simp [Handling.answered, hprepared] at ha
  | data retval data => simp [Handling.answered, hprepared] at ha

theorem answer_of_some {h : Handling} (ha : h.answered = some a) (result : WriteResult)
    (b : AutoBuffer) : answer abi h result b =
      .response (responseLength abi b) (clip (responseLength abi b) result) := by
  rw [answer]
  cases hprepared : h.prepared with
  | deferResponse => simp [Handling.answered, hprepared] at ha
  | retval retval => rfl
  | data retval data => rfl

/-- The connection waits for a request, and nothing of one is received. -/
structure Rested (p : ServicebrokerClientBase) : Prop where
  client : ∃ content : Nat → UInt8, content 7 < 128 ∧
    p.client = some { mReadBuffer := { internal_ := content } }
  capa : tAutoBufferType.Size ≤ p.mWriteBuffer.capa_

/-- What the connection still has to write of a response. -/
inductive Writes (a : SBResponse) : List UInt8 → ServicebrokerClientBase → Prop where
  | writing {content : Nat → UInt8} {b : AutoBuffer} (hcontent : content 7 < 128)
      (hresponds : Responds a b) (hlt : b.ptr_ < a.frame.length) :
      Writes a (a.frame.drop b.ptr_)
        ⟨some { mState := .WRITING, mReadBuffer := { internal_ := content }
                unwritten := a.frame.length - b.ptr_ }, b⟩
  | rested {p : ServicebrokerClientBase} (h : Rested p) : Writes a [] p

/-- There is nothing left. -/
theorem rested_of_writes (h : Writes a [] p) : Rested p := by
  generalize hunwritten : ([] : List UInt8) = unwritten at h
  cases h with
  | writing hcontent hresponds hlt =>
      have hlen := congrArg List.length hunwritten
      rw [List.length_nil, List.length_drop] at hlen
      omega
  | rested h => exact h

/-- A read buffer that is empty has room. -/
theorem arm_reset (content : Nat → UInt8) (state : State) (n : Nat) :
    arm abi { mState := state, mReadBuffer := { internal_ := content }, unwritten := n } =
      some { mState := state, mReadBuffer := { internal_ := content }, unwritten := n } :=
  arm_of_lt abi (show 0 < tAutoBufferType.Size by decide)
    (show tAutoBufferType.Size < 2 ^ 32 by decide)

/-- The connection outlives a response that does not fail. -/
theorem exists_eval {c : ServicebrokerClient} {len : Nat} (hresult : result ≠ .failed) :
    ∃ c', eval abi (.response len (clip len result)) c = some c' := by
  rw [eval]
  cases result with
  | failed => exact absurd rfl hresult
  | would_block => exact ⟨_, arm_reset abi c.mReadBuffer.internal_ .WRITING len⟩
  | wrote rc =>
      dsimp only [clip, evaluateWriteResult]
      split
      · exact ⟨_, arm_reset abi c.mReadBuffer.internal_ .WRITING _⟩
      · exact ⟨_, arm_reset abi c.mReadBuffer.internal_ .READING_HEADER 0⟩

/-- A response that does not fail: what is not written with it stays in the buffer. -/
theorem eval_writes {b : AutoBuffer} {wb : AutoBuffer} (hresponds : Responds a wb)
    (hptr : wb.ptr_ = 0) (hlen : a.body.length < 2 ^ 31) (hcontent : b.internal_ 7 < 128)
    (state : State) (hresult : result ≠ .failed) :
    ∃ unwritten, Writes a unwritten
        ⟨eval abi (.response (responseLength abi wb) (clip (responseLength abi wb) result))
          { mState := state, mReadBuffer := b }, (writeResponse abi result wb).1⟩ ∧
      (writeResponse abi result wb).2 ++ unwritten = a.frame := by
  have hlength : responseLength abi wb = a.frame.length :=
    responseLength_of_responds abi hresponds hlen
  have hpos : 0 < a.frame.length := by
    rw [a.length_frame, sizeof_sb_response_frame_eq]
    omega
  rw [eval, writeResponse, hlength]
  cases result with
  | failed => exact absurd rfl hresult
  | would_block =>
      refine ⟨a.frame, ?_, List.nil_append _⟩
      have hwriting := Writes.writing hcontent hresponds (by rw [hptr]; exact hpos)
      rw [hptr, List.drop_zero, Nat.sub_zero] at hwriting
      dsimp only [clip, evaluateWriteResult]
      exact (arm_reset abi b.internal_ .WRITING a.frame.length) ▸ hwriting
  | wrote rc =>
      rw [clip, evaluateWriteResult]
      dsimp only
      have hsent : Memory.slice wb.buf_ wb.ptr_ (min rc a.frame.length) =
          a.frame.take (min rc a.frame.length) := by
        rw [slice_of_responds hresponds (by omega), hptr, List.drop_zero]
      rw [hsent]
      by_cases hlt : min rc a.frame.length < a.frame.length
      · rw [if_pos hlt, if_pos hlt]
        refine ⟨a.frame.drop (min rc a.frame.length), ?_, List.take_append_drop ..⟩
        have hbump : (wb.bump (min rc a.frame.length)).ptr_ = min rc a.frame.length := by
          rw [AutoBuffer.bump, hptr, Nat.zero_add]
        have hwriting := Writes.writing (b := wb.bump (min rc a.frame.length)) hcontent
          ⟨hresponds.header_eq, hresponds.body_eq, hresponds.room, hresponds.size⟩
          (by rw [hbump]; exact hlt)
        rw [hbump] at hwriting
        exact (arm_reset abi b.internal_ .WRITING _) ▸ hwriting
      · rw [if_neg hlt, if_neg hlt]
        refine ⟨[], .rested ⟨⟨b.internal_, hcontent, ?_⟩, Nat.le_refl _⟩, ?_⟩
        · exact arm_reset abi b.internal_ .READING_HEADER 0
        · rw [List.append_nil, Nat.min_eq_right (by omega), List.take_length]

/-- An event that the socket can be written to sends the next part. -/
theorem write_writes (h : Writes a unwritten p) (hlen : a.body.length < 2 ^ 31) (rc : Nat)
    (up : List UInt8) :
    ∃ sent unwritten', sent ++ unwritten' = unwritten ∧
      ∃ connection, p.write abi (.wrote rc) up =
        { connection := connection, up := up, sent := sent } ∧
      Writes a unwritten' connection := by
  cases h with
  | writing hcontent hresponds hlt =>
      rename_i content b
      have hlength : responseLength abi b = a.frame.length :=
        responseLength_of_responds abi hresponds hlen
      have hsent : Memory.slice b.buf_ b.ptr_ (min rc (a.frame.length - b.ptr_)) =
          (a.frame.drop b.ptr_).take (min rc (a.frame.length - b.ptr_)) :=
        slice_of_responds hresponds (by omega)
      rw [write]
      dsimp only
      rw [if_pos rfl, hlength, AutoBuffer.pos, clip]
      dsimp only
      rw [hsent]
      have hbump : (b.bump (min rc (a.frame.length - b.ptr_))).pos =
          b.ptr_ + min rc (a.frame.length - b.ptr_) := rfl
      by_cases heq : b.ptr_ + min rc (a.frame.length - b.ptr_) = a.frame.length
      · have hall : min rc (a.frame.length - b.ptr_) = (a.frame.drop b.ptr_).length := by
          rw [List.length_drop]
          omega
        have hrest : a.frame.length - b.ptr_ - min rc (a.frame.length - b.ptr_) = 0 := by omega
        rw [hbump, if_pos heq]
        refine ⟨_, [], ?_, _, rfl, .rested ⟨⟨content, hcontent, ?_⟩, Nat.le_refl _⟩⟩
        · rw [List.append_nil, hall, List.take_length]
        · rw [hrest]
          exact arm_reset abi content .READING_HEADER 0
      · rw [hbump, if_neg heq]
        refine ⟨_, _, List.take_append_drop .., _, rfl, ?_⟩
        have hwriting := Writes.writing (b := b.bump (min rc (a.frame.length - b.ptr_))) hcontent
          ⟨hresponds.header_eq, hresponds.body_eq, hresponds.room, hresponds.size⟩
          (by change b.ptr_ + min rc (a.frame.length - b.ptr_) < a.frame.length; omega)
        have hptr : (b.bump (min rc (a.frame.length - b.ptr_))).ptr_ =
          b.ptr_ + min rc (a.frame.length - b.ptr_) := rfl
        rw [hptr, ← List.drop_drop, ← Nat.sub_sub] at hwriting
        exact (arm_reset abi content .WRITING _) ▸ hwriting
  | rested hrested =>
      obtain ⟨content, -, hclient⟩ := hrested.client
      refine ⟨[], [], rfl, p, ?_, .rested hrested⟩
      rw [write, hclient]
      exact if_neg (by simp)

/-! ## What is out of turn -/

/-- There is nothing to be received. -/
theorem read_nil (e : ReadEvent) (p : ServicebrokerClientBase) :
    p.read abi e [] = { connection := p, up := [] } := by
  have hstep : ∀ piece, Incoming.step abi { client := p.client, stream := [] } (.read piece) =
      { client := p.client, stream := [] } := fun piece => Incoming.step_of_isEmpty rfl piece
  rw [read]
  dsimp only
  rw [hstep]
  rfl

theorem write_of_ne {client : ServicebrokerClient} (hclient : p.client = some client)
    (hstate : client.mState ≠ .WRITING) (result : WriteResult) (up : List UInt8) :
    p.write abi result up = { connection := p, up := up } := by
  rw [write, hclient]
  exact if_neg hstate

theorem finalize_of_ne {client : ServicebrokerClient} (hclient : p.client = some client)
    (hstate : client.mState ≠ .DEFERRED) (memory : Nat → Nat → UInt8) (status retval : Int32)
    (data up : List UInt8) :
    p.finalize abi memory status retval data up = { connection := p, up := up } := by
  rw [finalize, hclient]
  exact if_neg hstate

/-- A connection that writes a response, or has done so, is not in a job. -/
theorem Writes.client (h : Writes a unwritten p) :
    ∃ client, p.client = some client ∧ client.mState ≠ .DEFERRED := by
  cases h with
  | writing hcontent hresponds hlt => exact ⟨_, rfl, by simp⟩
  | rested hrested =>
      obtain ⟨content, -, hclient⟩ := hrested.client
      exact ⟨_, hclient, by simp⟩

/-- A request is kept for a job. -/
structure Defers (p : ServicebrokerClientBase) : Prop where
  client : ∃ client, p.client = some client ∧ client.mState = .DEFERRED ∧
    client.mReadBuffer.internal_ 7 < 128
  capa : tAutoBufferType.Size ≤ p.mWriteBuffer.capa_

/-- The end of the job: all of the response is still to be written. -/
theorem finalize_writes (h : Defers p) (memory : Nat → Nat → UInt8) (status retval : Int32)
    (data up : List UInt8) (hlen : (answeredDeferred status retval data).body.length < 2 ^ 31) :
    ∃ connection, p.finalize abi memory status retval data up =
        { connection := connection, up := up, answers := [answeredDeferred status retval data] } ∧
      Writes (answeredDeferred status retval data) (answeredDeferred status retval data).frame
        connection := by
  obtain ⟨client, hclient, hstate, hcontent⟩ := h.client
  have hresponds := responds_respondDeferred memory h.capa status retval data
  have hset : Responds (answeredDeferred status retval data)
      ((p.mWriteBuffer.respondDeferred memory status retval data).set 0) :=
    ⟨hresponds.header_eq, hresponds.body_eq, hresponds.room, hresponds.size⟩
  have hlength := responseLength_of_responds abi hset hlen
  have hpos : 0 < (answeredDeferred status retval data).frame.length := by
    rw [SBResponse.length_frame, sizeof_sb_response_frame_eq]
    omega
  have hwriting := Writes.writing hcontent hset hpos
  rw [finalize, hclient]
  dsimp only
  rw [if_pos hstate, hlength]
  refine ⟨_, rfl, ?_⟩
  exact (arm_reset abi client.mReadBuffer.internal_ .WRITING _) ▸ hwriting

end ServicebrokerClientBase

end Dsi
