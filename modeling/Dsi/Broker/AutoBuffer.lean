import Dsi.Broker.Dispatch

/-!
# Dsi.Broker.AutoBuffer

How the broker receives a request frame in pieces: the buffer of `AutoBuffer.hpp`,
and `ServicebrokerClientBase::handleRead` with `arm` and what `eval` does to the
connection.  The completeness test and `AutoBuffer::read` add a signed and an
unsigned length, so the width of `size_t` is a parameter.
-/

namespace Dsi

open CLayout

/-! ## Machine integers -/

/-- The width of `size_t`, which holds every `uint32_t`. -/
structure SizeType where
  bits : Nat
  le_bits : 32 ≤ bits

namespace SizeType

variable (abi : SizeType)

/-- A number as it is converted to `size_t`. -/
def ofInt (x : Int) : Nat := (x % (2 ^ abi.bits : Nat)).toNat

end SizeType

/-- A number as it is converted to `int`. -/
def toInt32 (x : Int) : Int := x.bmod (2 ^ 32)

/-! ## The buffer -/

/-- `sizeof(sb_request_frame_t)`. -/
def sizeof_sb_request_frame : Nat := (CType.struct Layout.sb_request_frame).size

@[simp] theorem sizeof_sb_request_frame_eq : sizeof_sb_request_frame = 16 := by decide

/-- The template argument of `tAutoBufferType`. -/
def tAutoBufferType.Size : Nat := 512

/-- `fr_envelope.fr_magic` of the frame that `mem` starts with. -/
def frMagic (mem : List UInt8) : Nat :=
  readNat 4 (member Layout.sb_frame "fr_magic" (member Layout.sb_request_frame "fr_envelope" mem))

/-- `fr_envelope.fr_size` of the frame that `mem` starts with. -/
def frSize (mem : List UInt8) : Int :=
  (readInt32 (member Layout.sb_frame "fr_size"
    (member Layout.sb_request_frame "fr_envelope" mem))).toInt

/-- `AutoBuffer`: the array inside the object and the block that was allocated
instead of it, if there is one; `ptr_` counts from `buf_`. -/
structure AutoBuffer where
  internal_ : Nat → UInt8
  block : Option (Nat → UInt8) := none
  capa_ : Nat := tAutoBufferType.Size
  ptr_ : Nat := 0

namespace AutoBuffer

/-- The memory behind `buf_`. -/
def buf_ (b : AutoBuffer) : Nat → UInt8 := b.block.getD b.internal_

/-- The first `n` bytes of the buffer. -/
def bytes (b : AutoBuffer) (n : Nat) : List UInt8 := (List.range n).map b.buf_

/-- `request()`. -/
def request (b : AutoBuffer) : List UInt8 := b.bytes sizeof_sb_request_frame

def pos (b : AutoBuffer) : Nat := b.ptr_

/-- What `recv` leaves in the buffer behind `ptr()`. -/
def receive (piece : List UInt8) (b : AutoBuffer) : AutoBuffer :=
  let overlay (mem : Nat → UInt8) (i : Nat) : UInt8 :=
    if b.ptr_ ≤ i then (piece[i - b.ptr_]?).getD (mem i) else mem i
  match b.block with
  | none => { b with internal_ := overlay b.internal_ }
  | some mem => { b with block := some (overlay mem) }

/-- `bump`. -/
def bump (off : Nat) (b : AutoBuffer) : AutoBuffer := { b with ptr_ := b.ptr_ + off }

/-- `reserve`: `fresh` is what the new block holds. -/
def reserve (fresh : Nat → UInt8) (len : Nat) (b : AutoBuffer) : AutoBuffer :=
  if b.capa_ < len then
    if tAutoBufferType.Size < len then
      { b with block := some (fun i => if i < b.capa_ then b.buf_ i else fresh i), capa_ := len }
    else b
  else b

/-- `reset`. -/
def reset (b : AutoBuffer) : AutoBuffer :=
  { b with block := none, capa_ := tAutoBufferType.Size, ptr_ := 0 }

/-- The number of bytes that `read(buf, len, offset)` copies.  The sum of two `int`
that leaves their range wraps around. -/
def readCount (abi : SizeType) (len offset : Nat) (b : AutoBuffer) : Int :=
  let rc :=
    if toInt32 (abi.ofInt (len + offset)) ≤ toInt32 (frSize b.request + sizeof_sb_request_frame)
    then toInt32 len
    else toInt32 (abi.ofInt (frSize b.request + sizeof_sb_request_frame - offset))
  if 0 < rc then rc else -1

end AutoBuffer

/-! ## The connection -/

namespace ServicebrokerClient

/-- `ServicebrokerClientBase::State`. -/
inductive State where
  | READING_HEADER
  | READING_BODY
  | WRITING
  | DEFERRED
  deriving DecidableEq, Repr

/-- What `write_some` does with the response. -/
inductive WriteResult where
  | wrote (rc : Nat)
  | would_block
  | failed
  deriving DecidableEq, Repr

/-- What the dispatcher of requests does: it keeps the context for later, or leaves
a response of `len` bytes. -/
inductive Answer where
  | deferred
  | response (len : Nat) (result : WriteResult)
  deriving DecidableEq, Repr

end ServicebrokerClient

open ServicebrokerClient

/-- `ServicebrokerClientBase`.  Of the response only the number of bytes that are
not yet written is kept. -/
structure ServicebrokerClient where
  mState : State := .READING_HEADER
  mReadBuffer : AutoBuffer
  unwritten : Nat := 0

namespace ServicebrokerClient

/-- A call of `reserve` in `handleRead`. -/
structure Reserve where
  len : Nat
  pos : Nat
  deriving DecidableEq, Repr

/-- What a call of `handleRead` did: the object, unless it deleted itself, and the
arguments of its calls of `reserve` and of `eval`. -/
structure Handled where
  client : Option ServicebrokerClient
  reserves : List Reserve := []
  evals : List AutoBuffer := []

variable (abi : SizeType)

def reading (c : ServicebrokerClient) : Bool :=
  c.mState == .READING_HEADER || c.mState == .READING_BODY

/-- The number of bytes that `arm` asks for. -/
def readLength (c : ServicebrokerClient) : Nat :=
  abi.ofInt (c.mReadBuffer.capa_ - c.mReadBuffer.pos)

/-- `arm`. -/
def arm (c : ServicebrokerClient) : Option ServicebrokerClient :=
  if c.reading then
    if 0 < c.readLength abi then some c else none
  else some c

/-- `evaluateWriteResult`, for a response of `len` bytes. -/
def evaluateWriteResult (len : Nat) (result : WriteResult) (c : ServicebrokerClient) :
    Option ServicebrokerClient :=
  match result with
  | .wrote rc =>
      if rc < len then arm abi { c with unwritten := len - rc, mState := .WRITING }
      else arm abi { c with unwritten := 0, mState := .READING_HEADER }
  | .would_block => arm abi { c with unwritten := len, mState := .WRITING }
  | .failed => none

/-- `eval`, of which the dispatcher's answer is given. -/
def eval (answer : Answer) (c : ServicebrokerClient) : Option ServicebrokerClient :=
  match answer with
  | .deferred => some { c with mState := .DEFERRED }
  | .response len result =>
      evaluateWriteResult abi len result { c with mReadBuffer := c.mReadBuffer.reset }

/-- `fr_size + sizeof(sb_request_frame_t)`. -/
def frameSize (b : AutoBuffer) : Nat :=
  abi.ofInt (abi.ofInt (frSize b.request) + sizeof_sb_request_frame)

/-- The end of `handleRead`: "request already complete?" -/
def complete (answer : Answer) (reserves : List Reserve) (c : ServicebrokerClient) : Handled :=
  if c.mReadBuffer.pos = frameSize abi c.mReadBuffer then
    ⟨eval abi answer c, reserves, [c.mReadBuffer]⟩
  else ⟨arm abi c, reserves, []⟩

/-- `handleRead(amount, io::ok)`. -/
def handleRead (fresh : Nat → UInt8) (answer : Answer) (amount : Nat) (c : ServicebrokerClient) :
    Handled :=
  match c.mState with
  | .READING_HEADER =>
      let b := c.mReadBuffer.bump amount
      if sizeof_sb_request_frame ≤ b.pos then
        if frMagic b.request = SB_FRAME_MAGIC then
          complete abi answer [⟨frameSize abi b, b.pos⟩]
            { c with mReadBuffer := b.reserve fresh (frameSize abi b), mState := .READING_BODY }
        else ⟨none, [], []⟩
      else complete abi answer [] { c with mReadBuffer := b }
  | .READING_BODY => complete abi answer [] { c with mReadBuffer := c.mReadBuffer.bump amount }
  | .WRITING => complete abi answer [] c
  | .DEFERRED => complete abi answer [] c

end ServicebrokerClient

/-! ## The stream of a connection -/

/-- What one call of `recv` brings and what follows from it: it delivers
`offered + 1` bytes at most.  New memory holds `fresh`. -/
structure Piece where
  offered : Nat
  answer : ServicebrokerClient.Answer
  fresh : Nat → UInt8

/-- A connection: the object, the bytes of the peer that are still to be received,
and what `handleRead` called so far. -/
structure Incoming where
  client : Option ServicebrokerClient
  stream : List UInt8
  reserves : List ServicebrokerClient.Reserve := []
  evals : List AutoBuffer := []

namespace Incoming

inductive Event where
  | read (p : Piece)
  /-- The end of the stream, or an error. -/
  | hangup

/-- Where a frame starts: nothing of it is received, and the buffer holds whatever
it held before. -/
def start (content : Nat → UInt8) (stream : List UInt8) : Incoming where
  client := some { mReadBuffer := { internal_ := content } }
  stream := stream

/-- The number of bytes that `recv` delivers. -/
def amount (abi : SizeType) (p : Piece) (c : ServicebrokerClient) (stream : List UInt8) : Nat :=
  min (min (p.offered + 1) (c.readLength abi)) stream.length

/-- An event of a socket that is armed for reading.  With nothing to receive the
event does not come. -/
def step (abi : SizeType) (s : Incoming) (e : Event) : Incoming :=
  match s.client with
  | none => s
  | some c =>
      if c.reading then
        match e with
        | .hangup => { s with client := none }
        | .read p =>
            if s.stream.isEmpty then s
            else
              let amount := amount abi p c s.stream
              let h := ServicebrokerClient.handleRead abi p.fresh p.answer amount
                { c with mReadBuffer := c.mReadBuffer.receive (s.stream.take amount) }
              { client := h.client
                stream := s.stream.drop amount
                reserves := s.reserves ++ h.reserves
                evals := s.evals ++ h.evals }
      else s

end Incoming

end Dsi
