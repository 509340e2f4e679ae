import Dsi.Broker.ClientIo

/-!
# Dsi.Broker.Conversation

A caller of the client library and its connection in the broker, at the two ends of a
stream socket.  An event is a system call of the caller, a readiness event of the
connection with what the system call in it does, or the end of a job that a request was
kept for; the sockets cut the bytes as they like.
-/

namespace Dsi

open ServicebrokerClient

/-! ## The connection of the broker -/

/-- `ServicebrokerClientBase`, with its write buffer. -/
structure ServicebrokerClientBase where
  client : Option ServicebrokerClient
  mWriteBuffer : AutoBuffer

/-- What an event of a connection leaves: the bytes of the peer that are still to be received,
those that it sends, the frames that it hands to `eval` and the responses that are prepared. -/
structure Served where
  connection : ServicebrokerClientBase
  up : List UInt8
  sent : List UInt8 := []
  evals : List (List UInt8) := []
  answers : List SBResponse := []

/-- A read event: up to `offered + 1` bytes are delivered.  If they complete a request, the
dispatcher does `handling` and the socket does `result` with the response, of which it takes as
many bytes as there are.  New memory holds `fresh` for the request, `memory` for the response. -/
structure ReadEvent where
  offered : Nat
  handling : Handling
  result : WriteResult
  fresh : Nat → UInt8
  memory : Nat → Nat → UInt8

namespace ServicebrokerClientBase

variable (abi : SizeType)

/-- `fr_size + sizeof(sb_response_frame_t)`. -/
def responseLength (b : AutoBuffer) : Nat :=
  abi.ofInt (abi.ofInt (frSize b.response) + sizeof_sb_response_frame)

/-- The result of `write_some` for `len` bytes. -/
def clip (len : Nat) : WriteResult → WriteResult
  | .wrote rc => .wrote (min rc len)
  | r => r

/-- What `eval` comes to for the connection. -/
def answer (h : Handling) (result : WriteResult) (b : AutoBuffer) : Answer :=
  match h.prepared with
  | .deferResponse => .deferred
  | _ => .response (responseLength abi b) (clip (responseLength abi b) result)

/-- `evaluateWriteResult`, for the write buffer: what is sent of it. -/
def writeResponse (result : WriteResult) (b : AutoBuffer) : AutoBuffer × List UInt8 :=
  match clip (responseLength abi b) result with
  | .wrote rc =>
      (if rc < responseLength abi b then b.bump rc else b.reset, Memory.slice b.buf_ b.ptr_ rc)
  | _ => (b, [])

/-- `handleRead`, with what the dispatcher does with a complete request. -/
def read (e : ReadEvent) (up : List UInt8) (c : ServicebrokerClientBase) : Served :=
  let b := c.mWriteBuffer.respond e.memory e.handling
  let s := Incoming.step abi { client := c.client, stream := up }
    (.read ⟨e.offered, answer abi e.handling e.result b, e.fresh⟩)
  if s.evals.isEmpty then { connection := { c with client := s.client }, up := s.stream }
  else
    let evals := s.evals.map Incoming.received
    match e.handling.answered with
    | none => { connection := ⟨s.client, b⟩, up := s.stream, evals := evals }
    | some a =>
        let r := writeResponse abi e.result (b.set 0)
        { connection := ⟨s.client, r.1⟩, up := s.stream, sent := r.2, evals := evals
          answers := [a] }

/-- `handleWrite`, behind an event that the socket can be written to. -/
def write (result : WriteResult) (up : List UInt8) (c : ServicebrokerClientBase) : Served :=
  match c.client with
  | some client =>
      if client.mState = .WRITING then
        let len := responseLength abi c.mWriteBuffer
        match clip (len - c.mWriteBuffer.pos) result with
        | .wrote rc =>
            let b := c.mWriteBuffer.bump rc
            let client := { client with unwritten := client.unwritten - rc }
            let sent := Memory.slice c.mWriteBuffer.buf_ c.mWriteBuffer.ptr_ rc
            if b.pos = len then
              { connection := ⟨arm abi { client with mState := .READING_HEADER }, b.reset⟩
                up := up, sent := sent }
            else { connection := ⟨arm abi client, b⟩, up := up, sent := sent }
        | _ => { connection := { c with client := none }, up := up }
      else { connection := c, up := up }
  | none => { connection := c, up := up }

/-- `SocketMessageContext::finalize`, with `sendDeferredResponse`. -/
def finalize (memory : Nat → Nat → UInt8) (status retval : Int32) (data : List UInt8)
    (up : List UInt8) (c : ServicebrokerClientBase) : Served :=
  match c.client with
  | some client =>
      if client.mState = .DEFERRED then
        let b := (c.mWriteBuffer.respondDeferred memory status retval data).set 0
        { connection := ⟨arm abi { mState := .WRITING, mReadBuffer := client.mReadBuffer.reset
                                   unwritten := responseLength abi b }, b⟩
          up := up
          answers := [answeredDeferred status retval data] }
      else { connection := c, up := up }
  | none => { connection := c, up := up }

/-- The peer is gone, or the socket has an error: a connection that waits for an event deletes
itself. -/
def hangup (up : List UInt8) (c : ServicebrokerClientBase) : Served :=
  if c.client.any (·.mState ≠ .DEFERRED) then { connection := { c with client := none }, up := up }
  else { connection := c, up := up }

end ServicebrokerClientBase

/-! ## Both ends -/

/-- A caller and its connection, the bytes on the way in either direction, and what has
happened: the calls and what they returned, the frames that were evaluated and the responses. -/
structure Conversation where
  caller : Client := .idle
  connection : ServicebrokerClientBase
  up : List UInt8 := []
  down : List UInt8 := []
  calls : List IoCall := []
  evals : List (List UInt8) := []
  answers : List SBResponse := []
  results : List IoResult := []

namespace Conversation

inductive Event where
  | call (c : IoCall)
  | send (r : Device.Reply)
  | recv (r : RecvReply)
  | read (e : ReadEvent)
  | write (result : WriteResult)
  | finalize (memory : Nat → Nat → UInt8) (status retval : Int32) (data : List UInt8)
  | hangup

/-- The caller did something. -/
def proceed (p : Client × Option IoResult) (s : Conversation) : Conversation :=
  { s with caller := p.1, results := s.results ++ p.2.toList }

/-- The connection did something. -/
def serve (v : Served) (s : Conversation) : Conversation :=
  { s with
    connection := v.connection
    up := v.up
    down := s.down ++ v.sent
    evals := s.evals ++ v.evals
    answers := s.answers ++ v.answers }

variable (abi : SizeType)

/-- One step; the lock of the library admits a call when none is in progress. -/
def step (s : Conversation) : Event → Conversation
  | .call c =>
      if s.caller = .idle then
        { s with caller := .sending c ⟨c.iov, 0, []⟩, calls := s.calls ++ [c] }
      else s
  | .send r =>
      let p := s.caller.send r
      { s.proceed p.1 with up := s.up ++ p.2 }
  | .recv r =>
      let p := s.caller.recv abi r s.down
      { s.proceed p.1 with down := p.2 }
  | .read e => s.serve (s.connection.read abi e s.up)
  | .write result => s.serve (s.connection.write abi result s.up)
  | .finalize memory status retval data =>
      s.serve (s.connection.finalize abi memory status retval data s.up)
  | .hangup => s.serve (s.connection.hangup s.up)

/-- A connection that was accepted.  The arrays of its buffers hold whatever they held before. -/
def init (content response : Nat → UInt8) : Conversation where
  connection := ⟨some { mReadBuffer := { internal_ := content } }, { internal_ := response }⟩

end Conversation

end Dsi
