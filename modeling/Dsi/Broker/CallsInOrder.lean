import Dsi.Lib.Run
import Dsi.Broker.ResponsePhase

/-!
# Dsi.Broker.CallsInOrder

The calls of a client library over one connection: whatever the sockets and the handlers do,
short of an error, the broker evaluates the requests as they were sent, and a call returns
what the handler answered to its own request.
-/

namespace Dsi

open CLayout LittleEndian Run ServicebrokerClient AutoBuffer ServicebrokerClientBase

/-! ## The caller -/

namespace Client

variable {abi : SizeType} {c : IoCall} {client : Client} {unsent : List UInt8}

/-- The call has still to send `unsent` of its request. -/
inductive Sends (c : IoCall) : List UInt8 → Client → Prop where
  | sending {h : SendIov.Hdr UInt8} (hall : h.sent ++ h.window.flatten = c.request)
      (hlt : h.sent.length < c.totalLength) : Sends c h.window.flatten (.sending c h)
  | sent : Sends c [] (.header c [])

/-- At the beginning all of the request is to be sent. -/
theorem sends_call (c : IoCall) : Sends c c.request (.sending c ⟨c.iov, 0, []⟩) := by
  have hwindow : (⟨c.iov, 0, []⟩ : SendIov.Hdr UInt8).window.flatten = c.request := by
    rw [SendIov.Hdr.window, List.drop_zero, c.flatten_iov]
  have hlt : (⟨c.iov, 0, []⟩ : SendIov.Hdr UInt8).sent.length < c.totalLength := by
    rw [IoCall.totalLength, sizeof_sb_request_frame_eq]
    exact Nat.succ_pos _
  have hsends : Sends c _ (.sending c ⟨c.iov, 0, []⟩) := .sending (by rw [hwindow]; rfl) hlt
  rwa [hwindow] at hsends

/-- A call of `sendmsg` that does not fail sends the next part. -/
theorem send_sends (h : Sends c unsent client) {r : Device.Reply} (hr : r ≠ .failed)
    (hfits : ∀ h, client = .sending c h → SendIov.StepFits c.totalLength h r) :
    ∃ unsent', (client.send r).2 ++ unsent' = unsent ∧ (client.send r).1.2 = none ∧
      Sends c unsent' (client.send r).1.1 := by
  cases h with
  | sent => exact ⟨[], rfl, rfl, .sent⟩
  | sending hall hlt =>
      rename_i h
      have hfull : c.request.length = c.totalLength := c.length_request
      have hlen : h.sent.length + h.window.flatten.length = c.totalLength := by
        rw [← hfull, ← hall, List.length_append]
      have hnext := SendIov.length_sent_next c.totalLength h r
      have hsend : (Client.sending c h).send r =
          ((if (SendIov.next c.totalLength h r).sent.length < c.totalLength then
              .sending c (SendIov.next c.totalLength h r) else .header c [], none),
            h.window.flatten.take (h.count r.count)) := by
        cases r with
        | failed => exact absurd rfl hr
        | interrupted => rfl
        | accepts n => rfl
      rw [hsend, hnext]
      by_cases hmore : h.sent.length + h.count r.count < c.totalLength
      · rw [if_pos hmore]
        have hstep := @SendIov.next_of_fits UInt8 (Stream'.const r) h c.request hr hall
          (by rw [hfull]; exact hmore) (by rw [hfull]; exact hfits h rfl)
        have hhead : (Stream'.const r).head = r := rfl
        rw [hfull, hhead] at hstep
        obtain ⟨hwindow, hrest⟩ := hstep
        refine ⟨_, ?_, rfl, .sending hrest (by rw [hnext]; exact hmore)⟩
        rw [hwindow]
        exact List.take_append_drop ..
      · rw [if_neg hmore]
        have hall' : h.window.flatten.length ≤ h.count r.count := by omega
        exact ⟨[], by rw [List.append_nil, List.take_of_length_le hall'], rfl, .sent⟩

/-- While a request is sent, nothing is received. -/
theorem recv_sends (h : Sends c unsent client) {r : RecvReply} (hr : r ≠ .failed) :
    client.recv abi r [] = ((client, none), []) := by
  cases h with
  | sending hall hlt => rfl
  | sent =>
      have hwants : ([] : List UInt8).length < sizeof_sb_response_frame := by decide
      obtain ⟨k, -, hrecv⟩ := recvAll_eq hwants hr []
      rw [List.take_nil, List.drop_nil, List.append_nil, if_pos hwants] at hrecv
      rw [recv, hrecv]

/-- While an answer is received, nothing is sent. -/
theorem send_awaits {a : SBResponse} {consumed : List UInt8} (h : Awaits c a consumed client)
    (r : Device.Reply) : client.send r = ((client, none), []) := by
  cases h with
  | header hgot => rfl
  | body hbody hgot hcur hspread hfits => rfl

/-- All of the request is sent. -/
theorem Sends.header (h : Sends c [] client) : client = .header c [] := by
  generalize hunsent : ([] : List UInt8) = unsent at h
  cases h with
  | sent => rfl
  | sending hall hlt =>
      rename_i h
      rw [← hunsent, List.append_nil] at hall
      rw [hall, c.length_request] at hlt
      exact absurd hlt (Nat.lt_irrefl _)

theorem Sends.ne_idle (h : Sends c unsent client) : client ≠ .idle := by
  cases h <;> simp

theorem Awaits.ne_idle {a : SBResponse} {consumed : List UInt8} (h : Awaits c a consumed client) :
    client ≠ .idle := by
  cases h <;> simp

/-- A call that waits for its answer has not got all of it. -/
theorem Awaits.lt {a : SBResponse} {consumed : List UInt8} (h : Awaits c a consumed client) :
    consumed.length < a.frame.length := by
  cases h with
  | header hgot =>
      rw [a.length_frame]
      omega
  | body hbody hgot hcur hspread hfits =>
      rw [a.length_frame, hbody, List.length_append, List.length_append, List.length_append,
        a.length_header]
      omega

end Client

/-- The last byte of the size field of a request is no sign. -/
theorem IoCall.lt_of_getElem?_request {c : IoCall} (h : c.totalBodyLength < 2 ^ 31) {x : UInt8}
    (hx : c.request[7]? = some x) : x < 128 := by
  have hlen : (bytes 4 SB_FRAME_MAGIC).length = 4 := length_bytes ..
  rw [request, header_eq, List.append_assoc, List.append_assoc,
    List.getElem?_append_right (by rw [hlen]; decide), hlen,
    List.getElem?_append_left (by rw [length_bytes]; decide)] at hx
  have hbyte : UInt8.ofNat (c.totalBodyLength / 256 / 256 / 256) = x := Option.some.inj hx
  have hlt : c.totalBodyLength / 256 / 256 / 256 < 128 := by omega
  rw [← hbyte, UInt8.lt_iff_toNat_lt, UInt8.toNat_ofNat_of_lt' (Nat.lt_trans hlt (by decide))]
  exact hlt

/-! ## The connection behind a read -/

namespace ServicebrokerClientBase

open Incoming

variable (abi : SizeType) {p : ServicebrokerClientBase} {request up rest : List UInt8} {q : Nat}
  {reserves : List Reserve}

/-- A connection at rest reads the next request from its start. -/
theorem reads_call {p : ServicebrokerClientBase} (h : Rested p) (request : List UInt8) :
    Reads request 0 { client := p.client, stream := request } := by
  obtain ⟨content, hcontent, hclient⟩ := h.client
  have hstart : ({ client := p.client, stream := request } : Incoming) =
      Incoming.header content request 0 := by
    rw [hclient]
    exact start_eq_header content request
  rw [hstart]
  exact .header (by decide) hcontent

/-- A connection that receives a request neither writes nor keeps one, and the request is not
complete. -/
theorem reads_client (h : Reads request q
      { client := p.client, stream := up ++ rest, reserves := reserves })
    (hlen : sizeof_sb_request_frame ≤ request.length) :
    (∃ client, p.client = some client ∧ client.reading = true) ∧ up ++ rest ≠ [] := by
  generalize hi : ({ client := p.client, stream := up ++ rest, reserves := reserves } :
    Incoming) = i at h
  cases h with
  | header hq hcontent =>
      obtain ⟨hclient, hstream, -, -⟩ := Incoming.mk.inj hi
      refine ⟨⟨_, hclient, rfl⟩, ?_⟩
      rw [hstream]
      exact List.ne_nil_of_length_pos (by rw [List.length_drop]; omega)
  | body hbody hclient =>
      subst hi
      obtain ⟨client, hclient, hstate, -⟩ := hbody.client
      refine ⟨⟨client, hclient, by rw [reading, hstate]; rfl⟩, ?_⟩
      have hstream := hbody.stream
      have hlt := hbody.lt
      dsimp only at hstream
      rw [hstream]
      exact List.ne_nil_of_length_pos (by rw [List.length_drop]; omega)

/-- What a read makes of a request that is on its way, of which `rest` is not yet sent. -/
inductive Brings (request rest : List UInt8) (h : Handling) (wb : AutoBuffer) : Served → Prop where
  | more {client : Option ServicebrokerClient} {up : List UInt8} {q : Nat}
      {reserves : List Reserve}
      (hreads : Reads request q { client := client, stream := up ++ rest, reserves := reserves }) :
      Brings request rest h wb { connection := ⟨client, wb⟩, up := up }
  | kept {connection : ServicebrokerClientBase} (hrest : rest = []) (hdefers : Defers connection) :
      Brings request rest h wb { connection := connection, up := [], evals := [request] }
  | answered {connection : ServicebrokerClientBase} {a : SBResponse} {sent unwritten : List UInt8}
      (hrest : rest = []) (ha : h.answered = some a) (hwrites : Writes a unwritten connection)
      (hframe : sent ++ unwritten = a.frame) :
      Brings request rest h wb { connection := connection, up := [], sent := sent
                                 evals := [request], answers := [a] }

/-- A read while the connection receives a request. -/
theorem read_reads (frame : Frame) (hsign : ∀ x, frame.bytes[7]? = some x → x < 128)
    (h : Reads frame.bytes q { client := p.client, stream := up ++ rest, reserves := reserves })
    (hcapa : tAutoBufferType.Size ≤ p.mWriteBuffer.capa_) (e : ReadEvent)
    (hresult : e.result ≠ .failed)
    (hanswer : ∀ a, e.handling.answered = some a → a.body.length < 2 ^ 31) :
    Brings frame.bytes rest e.handling p.mWriteBuffer (p.read abi e up) := by
  by_cases hup : up = []
  · subst hup
    rw [read_nil]
    exact .more h
  · have hinternal := fun c' => @internal_lt_of_reads abi p.client up rest reserves frame.bytes q
      hsign h ⟨e.offered, answer abi e.handling e.result
        (p.mWriteBuffer.respond e.memory e.handling), e.fresh⟩ c'
    have hstep := @reads_step abi p.client up rest reserves q frame hsign h hup
      ⟨e.offered, answer abi e.handling e.result (p.mWriteBuffer.respond e.memory e.handling),
        e.fresh⟩
    rw [read]
    dsimp only
    generalize Incoming.step abi { client := p.client, stream := up } (.read ⟨e.offered,
      answer abi e.handling e.result (p.mWriteBuffer.respond e.memory e.handling), e.fresh⟩) = s
      at hinternal hstep ⊢
    rcases hstep with ⟨hevals, q', reserves', hreads⟩ |
      ⟨b, state, hevals, hreceived, hrest, hclient⟩
    · rw [hevals]
      exact .more hreads
    · obtain ⟨hstream, hrest⟩ := List.append_eq_nil_iff.mp hrest
      have hevaluated : s.evals.map received = [frame.bytes] := by
        rw [hevals, List.map_singleton, hreceived]
      rw [hclient] at hinternal
      rw [hevaluated, hevals, hstream, hclient]
      dsimp only [List.isEmpty_cons]
      rw [if_neg Bool.false_ne_true]
      cases ha : e.handling.answered with
      | none =>
          rw [answer_of_none abi ha] at hinternal ⊢
          exact .kept hrest ⟨⟨_, rfl, rfl, hinternal _ rfl⟩, le_capa_respond e.memory hcapa ha⟩
      | some a =>
          rw [answer_of_some abi ha] at hinternal ⊢
          obtain ⟨c', hc'⟩ := @exists_eval abi e.result { mState := state, mReadBuffer := b }
            (responseLength abi (p.mWriteBuffer.respond e.memory e.handling)) hresult
          have hcontent : b.internal_ 7 < 128 := by
            rw [← internal_eval hc']
            exact hinternal c' hc'
          obtain ⟨hheader, hbody, hroom, hsize⟩ := responds_respond e.memory hcapa ha
          have hresponds : Responds a ((p.mWriteBuffer.respond e.memory e.handling).set 0) :=
            ⟨hheader, hbody, hroom, hsize⟩
          obtain ⟨unwritten, hwrites, hframe⟩ :=
            eval_writes abi hresponds rfl (hanswer a ha) hcontent state hresult
          exact .answered hrest ha hwrites hframe

end ServicebrokerClientBase

/-! ## Fair runs -/

/-- A call of `sendmsg` that is counted right. -/
def Client.Fits (r : Device.Reply) : Client → Prop
  | .sending c h => SendIov.StepFits c.totalLength h r
  | _ => True

namespace Conversation

variable {abi : SizeType} {s : Conversation}

/-- The length of the answer fits the frame, and the buffers of the caller. -/
def Admits (a : SBResponse) (s : Conversation) : Prop :=
  a.body.length < 2 ^ 31 ∧ ∀ c ∈ s.calls.getLast?, IoCall.Fits c.outs a.body.length

/-- The sockets have no error, a partial send is counted right, and a handler answers with what
the caller has room for. -/
def Event.Fair (s : Conversation) : Event → Prop
  | .call c => c.totalBodyLength < 2 ^ 31
  | .send r => r ≠ .failed ∧ s.caller.Fits r
  | .recv r => r ≠ .failed
  | .read e => e.result ≠ .failed ∧ ∀ a ∈ e.handling.answered, s.Admits a
  | .write result => result ≠ .failed ∧ result ≠ .would_block
  | .finalize _ status retval data => s.Admits (answeredDeferred status retval data)
  | .hangup => False

instance (r : Device.Reply) : (client : Client) → Decidable (client.Fits r)
  | .idle => inferInstanceAs (Decidable True)
  | .sending c h => inferInstanceAs (Decidable (SendIov.StepFits c.totalLength h r))
  | .header _ _ => inferInstanceAs (Decidable True)
  | .body _ _ _ => inferInstanceAs (Decidable True)

instance (a : SBResponse) (s : Conversation) : Decidable (s.Admits a) :=
  inferInstanceAs (Decidable (_ ∧ _))

instance (s : Conversation) : (e : Event) → Decidable (e.Fair s)
  | .call _ => inferInstanceAs (Decidable (_ < _))
  | .send _ => inferInstanceAs (Decidable (_ ∧ _))
  | .recv _ => inferInstanceAs (Decidable (_ ≠ _))
  | .read _ => inferInstanceAs (Decidable (_ ∧ ∀ _ ∈ _, _))
  | .write _ => inferInstanceAs (Decidable (_ ∧ _))
  | .finalize _ _ _ _ => inferInstanceAs (Decidable (s.Admits _))
  | .hangup => inferInstanceAs (Decidable False)

/-- The calls that have returned, with their answers, and what there is of the one that has not. -/
structure Books (past : List (IoCall × SBResponse)) (call : List IoCall) (eval : List (List UInt8))
    (answer : List SBResponse) (s : Conversation) : Prop where
  calls : s.calls = past.map Prod.fst ++ call
  evals : s.evals = past.map (fun r => r.1.request) ++ eval
  answers : s.answers = past.map Prod.snd ++ answer
  results : s.results = past.map fun r => r.1.result r.2

/-- Where the conversation is. -/
inductive Phase (past : List (IoCall × SBResponse)) (s : Conversation) : Prop where
  | idle (books : Books past [] [] [] s) (hcaller : s.caller = .idle)
      (hrested : s.connection.Rested) (hup : s.up = []) (hdown : s.down = [])
  | request {c : IoCall} {unsent : List UInt8} (books : Books past [c] [] [] s)
      (hlen : c.totalBodyLength < 2 ^ 31) (hsends : Client.Sends c unsent s.caller)
      (hdown : s.down = [])
      (hreads : ∃ q reserves, Incoming.Reads c.request q
        { client := s.connection.client, stream := s.up ++ unsent, reserves := reserves })
      (hcapa : tAutoBufferType.Size ≤ s.connection.mWriteBuffer.capa_)
  | deferred {c : IoCall} (books : Books past [c] [c.request] [] s)
      (hcaller : s.caller = .header c []) (hdefers : s.connection.Defers) (hup : s.up = [])
      (hdown : s.down = [])
  | answer {c : IoCall} {a : SBResponse} {consumed unwritten : List UInt8}
      (books : Books past [c] [c.request] [a] s) (hlen : a.body.length < 2 ^ 31)
      (hfits : IoCall.Fits c.outs a.body.length) (hawaits : Client.Awaits c a consumed s.caller)
      (hwrites : Writes a unwritten s.connection) (hup : s.up = [])
      (hframe : consumed ++ s.down ++ unwritten = a.frame)

/-! ## What one step preserves -/

variable {past : List (IoCall × SBResponse)}

theorem serve_self (s : Conversation) : s.serve { connection := s.connection, up := s.up } = s := by
  simp [serve]

theorem proceed_self (s : Conversation) : s.proceed (s.caller, none) = s := by
  simp [proceed]

/-- What the broker evaluates and answers is booked. -/
theorem Books.serve {call : List IoCall} {eval : List (List UInt8)} {answer : List SBResponse}
    (h : Books past call eval answer s) (v : Served) :
    Books past call (eval ++ v.evals) (answer ++ v.answers) (s.serve v) where
  calls := h.calls
  evals := by
    rw [← List.append_assoc, ← h.evals]
    rfl
  answers := by
    rw [← List.append_assoc, ← h.answers]
    rfl
  results := h.results

/-- At the beginning nothing is called. -/
theorem phase_init {content : Nat → UInt8} (hcontent : content 7 < 128) (response : Nat → UInt8) :
    Phase [] (init content response) :=
  .idle ⟨rfl, rfl, rfl, rfl⟩ rfl ⟨⟨content, hcontent, rfl⟩, Nat.le_refl _⟩ rfl rfl

/-- A call begins with its request. -/
theorem phase_call (h : Phase past s) {c : IoCall} (hc : c.totalBodyLength < 2 ^ 31) :
    Phase past (s.step abi (.call c)) := by
  rw [step]
  by_cases hidle : s.caller = .idle
  · rw [if_pos hidle]
    cases h with
    | idle books hcaller hrested hup hdown =>
        have hreads := reads_call hrested c.request
        have hcalls : s.calls ++ [c] = past.map Prod.fst ++ [c] := by
          rw [books.calls, List.append_nil]
        refine .request ⟨hcalls, books.evals, books.answers, books.results⟩ hc
          (Client.sends_call c) hdown ⟨0, [], ?_⟩ hrested.capa
        rw [hup]
        exact hreads
    | request books hlen hsends hdown hreads hcapa => exact absurd hidle hsends.ne_idle
    | deferred books hcaller hdefers hup hdown => rw [hcaller] at hidle; contradiction
    | answer books hlen hfits hawaits hwrites hup hframe => exact absurd hidle hawaits.ne_idle
  · rw [if_neg hidle]
    exact h

/-- A part of the request goes on its way. -/
theorem phase_send (h : Phase past s) {r : Device.Reply} (hr : r ≠ .failed)
    (hfits : s.caller.Fits r) : Phase past (s.step abi (.send r)) := by
  have hself : s.caller.send r = ((s.caller, none), []) → s.step abi (.send r) = s := by
    intro hsend
    rw [step, hsend]
    dsimp only
    rw [proceed_self, List.append_nil]
  cases h with
  | idle books hcaller hrested hup hdown =>
      rw [hself (by rw [hcaller]; rfl)]
      exact .idle books hcaller hrested hup hdown
  | request books hlen hsends hdown hreads hcapa =>
      obtain ⟨unsent', hall, hresult, hsends'⟩ := Client.send_sends hsends hr
        (fun h hcaller => by rw [hcaller] at hfits; exact hfits)
      obtain ⟨q, reserves, hreads⟩ := hreads
      rw [step]
      refine .request ⟨books.calls, books.evals, books.answers, ?_⟩ hlen hsends' hdown
        ⟨q, reserves, ?_⟩ hcapa
      · rw [proceed, hresult, Option.toList_none, List.append_nil]
        exact books.results
      · rw [List.append_assoc, hall]
        exact hreads
  | deferred books hcaller hdefers hup hdown =>
      rw [hself (by rw [hcaller]; rfl)]
      exact .deferred books hcaller hdefers hup hdown
  | answer books hlen hfits' hawaits hwrites hup hframe =>
      rw [hself (Client.send_awaits hawaits r)]
      exact .answer books hlen hfits' hawaits hwrites hup hframe

/-- A part of the answer is received, perhaps the last one. -/
theorem phase_recv (h : Phase past s) {r : RecvReply} (hr : r ≠ .failed) :
    ∃ past', Phase past' (s.step abi (.recv r)) := by
  have hself : s.caller.recv abi r s.down = ((s.caller, none), s.down) →
      s.step abi (.recv r) = s := by
    intro hrecv
    rw [step, hrecv]
    dsimp only
    rw [proceed_self]
  cases h with
  | idle books hcaller hrested hup hdown =>
      rw [hself (by rw [hcaller]; rfl)]
      exact ⟨past, .idle books hcaller hrested hup hdown⟩
  | request books hlen hsends hdown hreads hcapa =>
      rw [hself (by rw [hdown]; exact Client.recv_sends hsends hr)]
      exact ⟨past, .request books hlen hsends hdown hreads hcapa⟩
  | deferred books hcaller hdefers hup hdown =>
      rw [hself (by rw [hcaller, hdown]; exact Client.recv_sends .sent hr)]
      exact ⟨past, .deferred books hcaller hdefers hup hdown⟩
  | answer books hlen hfits hawaits hwrites hup hframe =>
      rename_i c a consumed unwritten
      obtain ⟨consumed', hall, hcase⟩ := Client.recv_awaits abi hlen hfits hawaits
        (by rw [← hframe]; exact List.prefix_append ..) hr
      rw [step]
      have hframe' : consumed' ++ (s.caller.recv abi r s.down).2 ++ unwritten = a.frame := by
        rw [hall, hframe]
      rcases hcase with ⟨hresult, hawaits'⟩ | ⟨hconsumed, hresult⟩
      · refine ⟨past, .answer ⟨books.calls, books.evals, books.answers, ?_⟩ hlen hfits hawaits'
          hwrites hup hframe'⟩
        rw [proceed, hresult, Option.toList_none, List.append_nil]
        exact books.results
      · -- nothing of the frame is left, on the way or in the buffer
        rw [hconsumed, List.append_assoc, List.append_right_eq_self] at hframe'
        obtain ⟨hdown, hunwritten⟩ := List.append_eq_nil_iff.mp hframe'
        subst hunwritten
        refine ⟨past ++ [(c, a)], .idle ⟨?_, ?_, ?_, ?_⟩ ?_ (rested_of_writes hwrites) hup hdown⟩
        · rw [List.map_append, List.append_nil]
          exact books.calls
        · rw [List.map_append, List.append_nil]
          exact books.evals
        · rw [List.map_append, List.append_nil]
          exact books.answers
        · rw [proceed, hresult, List.map_append, books.results]
          rfl
        · rw [proceed, hresult]

/-- The broker reads a part of the request, perhaps the last one, and then handles it. -/
theorem phase_read (h : Phase past s) {e : ReadEvent} (hresult : e.result ≠ .failed)
    (hadmits : ∀ a ∈ e.handling.answered, s.Admits a) : Phase past (s.step abi (.read e)) := by
  have hself : s.up = [] → s.step abi (.read e) = s := by
    intro hup
    have hread : s.connection.read abi e s.up = { connection := s.connection, up := s.up } := by
      rw [hup]
      exact read_nil abi e s.connection
    rw [step, hread, serve_self]
  cases h with
  | idle books hcaller hrested hup hdown =>
      rw [hself hup]
      exact .idle books hcaller hrested hup hdown
  | request books hlen hsends hdown hreads hcapa =>
      rename_i c unsent
      obtain ⟨q, reserves, hreads⟩ := hreads
      have hbrings := read_reads abi (c.requestFrame hlen)
        (fun x hx => c.lt_of_getElem?_request hlen hx) hreads hcapa e hresult
        (fun a ha => (hadmits a ha).1)
      have hbytes : (c.requestFrame hlen).bytes = c.request := rfl
      have hbooks := books.serve (s.connection.read abi e s.up)
      rw [hbytes] at hbrings
      rw [step]
      generalize s.connection.read abi e s.up = v at hbrings hbooks ⊢
      cases hbrings with
      | more hreads =>
          refine .request hbooks hlen hsends ?_ ⟨_, _, hreads⟩ hcapa
          rw [serve, hdown]
          rfl
      | kept hrest hdefers =>
          subst hrest
          refine .deferred hbooks hsends.header hdefers rfl ?_
          rw [serve, hdown]
          rfl
      | answered hrest ha hwrites hframe =>
          rename_i connection a sent unwritten
          subst hrest
          obtain ⟨hbody, hfits⟩ := hadmits a ha
          refine .answer hbooks hbody (hfits c ?_) (?_ : Client.Awaits c a [] _) hwrites rfl ?_
          · rw [books.calls]
            exact Option.mem_def.mpr List.getLast?_concat
          · rw [show (s.serve _).caller = s.caller from rfl, hsends.header]
            exact .header (by decide)
          · rw [serve, hdown, List.nil_append, List.nil_append]
            exact hframe
  | deferred books hcaller hdefers hup hdown =>
      rw [hself hup]
      exact .deferred books hcaller hdefers hup hdown
  | answer books hlen hfits hawaits hwrites hup hframe =>
      rw [hself hup]
      exact .answer books hlen hfits hawaits hwrites hup hframe

/-- In front of the end of a request the connection is in no other state. -/
theorem reading_of_reads {c : IoCall} {unsent : List UInt8}
    (h : ∃ q reserves, Incoming.Reads c.request q
      { client := s.connection.client, stream := s.up ++ unsent, reserves := reserves }) :
    (∃ client, s.connection.client = some client ∧ client.reading = true) ∧
      s.up ++ unsent ≠ [] := by
  obtain ⟨q, reserves, hreads⟩ := h
  refine reads_client hreads ?_
  rw [c.length_request, IoCall.totalLength]
  exact Nat.le_add_left ..

/-- The broker writes a part of the answer. -/
theorem phase_write (h : Phase past s) (rc : Nat) :
    Phase past (s.step abi (.write (.wrote rc))) := by
  have hself : ∀ client, s.connection.client = some client → client.mState ≠ .WRITING →
      s.step abi (.write (.wrote rc)) = s := by
    intro client hclient hstate
    rw [step, write_of_ne abi hclient hstate, serve_self]
  cases h with
  | idle books hcaller hrested hup hdown =>
      obtain ⟨content, -, hclient⟩ := hrested.client
      rw [hself _ hclient (by simp)]
      exact .idle books hcaller hrested hup hdown
  | request books hlen hsends hdown hreads hcapa =>
      obtain ⟨⟨client, hclient, hreading⟩, -⟩ := reading_of_reads hreads
      rw [hself client hclient fun hstate => by simp [reading, hstate] at hreading]
      exact .request books hlen hsends hdown hreads hcapa
  | deferred books hcaller hdefers hup hdown =>
      obtain ⟨client, hclient, hstate, -⟩ := hdefers.client
      rw [hself client hclient (by rw [hstate]; simp)]
      exact .deferred books hcaller hdefers hup hdown
  | answer books hlen hfits hawaits hwrites hup hframe =>
      obtain ⟨sent, unwritten', hsent, connection, hwrite, hwrites'⟩ :=
        write_writes abi hwrites hlen rc s.up
      have hbooks := books.serve (s.connection.write abi (.wrote rc) s.up)
      rw [step, hwrite] at *
      refine .answer hbooks hlen hfits hawaits hwrites' hup ?_
      rw [serve, ← hframe, ← hsent]
      simp only [List.append_assoc]

/-- A deferred answer is there. -/
theorem phase_finalize (h : Phase past s) (memory : Nat → Nat → UInt8) {status retval : Int32}
    {data : List UInt8} (hadmits : s.Admits (answeredDeferred status retval data)) :
    Phase past (s.step abi (.finalize memory status retval data)) := by
  have hself : ∀ client, s.connection.client = some client → client.mState ≠ .DEFERRED →
      s.step abi (.finalize memory status retval data) = s := by
    intro client hclient hstate
    rw [step, finalize_of_ne abi hclient hstate, serve_self]
  cases h with
  | idle books hcaller hrested hup hdown =>
      obtain ⟨content, -, hclient⟩ := hrested.client
      rw [hself _ hclient (by simp)]
      exact .idle books hcaller hrested hup hdown
  | request books hlen hsends hdown hreads hcapa =>
      obtain ⟨⟨client, hclient, hreading⟩, -⟩ := reading_of_reads hreads
      rw [hself client hclient fun hstate => by simp [reading, hstate] at hreading]
      exact .request books hlen hsends hdown hreads hcapa
  | deferred books hcaller hdefers hup hdown =>
      rename_i c
      obtain ⟨hlen, hfits⟩ := hadmits
      obtain ⟨connection, hfinalize, hwrites⟩ :=
        finalize_writes abi hdefers memory status retval data s.up hlen
      have hbooks := books.serve (s.connection.finalize abi memory status retval data s.up)
      rw [step, hfinalize] at *
      refine .answer hbooks hlen (hfits c ?_) (?_ : Client.Awaits c _ [] _) hwrites hup ?_
      · rw [books.calls]
        exact Option.mem_def.mpr List.getLast?_concat
      · rw [serve, hcaller]
        exact .header (by decide)
      · rw [serve, hdown]
        rfl
  | answer books hlen hfits hawaits hwrites hup hframe =>
      obtain ⟨client, hclient, hstate⟩ := hwrites.client
      rw [hself client hclient hstate]
      exact .answer books hlen hfits hawaits hwrites hup hframe

/-- So every fair event leads from phase to phase. -/
theorem phase_step (h : Phase past s) {e : Event} (hfair : e.Fair s) :
    ∃ past', Phase past' (s.step abi e) := by
  cases e with
  | call c => exact ⟨past, phase_call h hfair⟩
  | send r => exact ⟨past, phase_send h hfair.1 hfair.2⟩
  | recv r => exact phase_recv h hfair
  | read e => exact ⟨past, phase_read h hfair.1 hfair.2⟩
  | write result =>
      cases result with
      | wrote rc => exact ⟨past, phase_write h rc⟩
      | would_block => exact absurd rfl hfair.2
      | failed => exact absurd rfl hfair.1
  | finalize memory status retval data => exact ⟨past, phase_finalize h memory hfair⟩
  | hangup => exact hfair.elim

/-! ## The conversation -/

/-- Something is left to do: a request to be sent or read, a job to be done, a response to be
written or received. -/
inductive Moves (s : Conversation) : Prop where
  | send {c : IoCall} {h : SendIov.Hdr UInt8} (hcaller : s.caller = .sending c h)
  | recv (hdown : s.down ≠ [])
  | read {client : ServicebrokerClient} (hclient : s.connection.client = some client)
      (hreading : client.reading = true) (hup : s.up ≠ [])
  | write {client : ServicebrokerClient} (hclient : s.connection.client = some client)
      (hstate : client.mState = .WRITING)
  | finalize {client : ServicebrokerClient} (hclient : s.connection.client = some client)
      (hstate : client.mState = .DEFERRED)

/-- The requests are evaluated and answered one by one and in the order of the calls, the calls
that have returned did so with the answers to their own requests, and a call that has not is
not stuck. -/
structure InOrder (s : Conversation) : Prop where
  evals : s.evals = (s.calls.map IoCall.request).take s.evals.length
  results : s.results = (List.zipWith IoCall.result s.calls s.answers).take s.results.length
  results_le : s.results.length ≤ s.answers.length
  answers_le : s.answers.length ≤ s.evals.length
  evals_le : s.evals.length ≤ s.calls.length
  calls_le : s.calls.length ≤ s.results.length + 1
  moves : s.caller ≠ .idle → s.Moves

/-- The books are in order. -/
theorem Books.inOrder {call : List IoCall} {eval : List (List UInt8)} {answer : List SBResponse}
    (h : Books past call eval answer s) (hcall : call.length ≤ 1)
    (heval : eval <+: call.map IoCall.request) (hanswer : answer.length ≤ eval.length)
    (hmoves : s.caller ≠ .idle → s.Moves) : InOrder s := by
  obtain ⟨rest, hrest⟩ := heval
  have hlen : eval.length ≤ call.length := by
    have hlen := congrArg List.length hrest
    rw [List.length_append, List.length_map] at hlen
    omega
  refine ⟨?_, ?_, ?_, ?_, ?_, ?_, hmoves⟩
  · have hcalls : s.calls.map IoCall.request = s.evals ++ rest := by
      rw [h.calls, h.evals, List.map_append, List.map_map, ← hrest, List.append_assoc]
      rfl
    rw [hcalls, List.take_left]
  · have hpast : List.zipWith IoCall.result (past.map Prod.fst) (past.map Prod.snd) =
        s.results := by
      rw [h.results, List.zipWith_map, List.zipWith_self]
    rw [h.calls, h.answers, List.zipWith_append (by simp), hpast, List.take_left]
  · rw [h.results, h.answers, List.length_append, List.length_map, List.length_map]
    omega
  · rw [h.answers, h.evals, List.length_append, List.length_append, List.length_map,
      List.length_map]
    omega
  · rw [h.evals, h.calls, List.length_append, List.length_append, List.length_map,
      List.length_map]
    omega
  · rw [h.calls, h.results, List.length_append, List.length_map, List.length_map]
    omega

/-- In every phase the calls are served in order. -/
theorem Phase.inOrder (h : Phase past s) : InOrder s := by
  cases h with
  | idle books hcaller hrested hup hdown =>
      exact books.inOrder (Nat.zero_le _) List.nil_prefix (Nat.le_refl _)
        fun hcall => absurd hcaller hcall
  | request books hlen hsends hdown hreads hcapa =>
      refine books.inOrder (Nat.le_refl _) List.nil_prefix (Nat.le_refl _) fun _ => ?_
      obtain ⟨⟨client, hclient, hreading⟩, hmore⟩ := reading_of_reads hreads
      generalize hcaller : s.caller = caller at hsends
      cases hsends with
      | sending hall hlt => exact .send hcaller
      | sent =>
          rw [List.append_nil] at hmore
          exact .read hclient hreading hmore
  | deferred books hcaller hdefers hup hdown =>
      obtain ⟨client, hclient, hstate, -⟩ := hdefers.client
      exact books.inOrder (Nat.le_refl _) (List.prefix_refl _) (Nat.zero_le _)
        fun _ => .finalize hclient hstate
  | answer books hlen hfits hawaits hwrites hup hframe =>
      refine books.inOrder (Nat.le_refl _) (List.prefix_refl _) (Nat.le_refl _) fun _ => ?_
      generalize hconnection : s.connection = connection at hwrites
      cases hwrites with
      | writing hcontent hresponds hlt => exact .write (congrArg client hconnection) rfl
      | rested hrested =>
          -- all of the response is written, and the caller has not got it yet
          refine .recv fun hdown => ?_
          rw [hdown, List.append_nil, List.append_nil] at hframe
          have hlt := hawaits.lt
          rw [hframe] at hlt
          exact Nat.lt_irrefl _ hlt

/-- In every run without errors, in whatever pieces the requests and the responses arrive and
whatever the handlers do and when, the calls are served in order. -/
theorem calls_served_in_order {content response : Nat → UInt8} (hcontent : content 7 < 128)
    {es : List Event} (hfair : Along (step abi) (fun s e => e.Fair s) (init content response) es) :
    InOrder (run (step abi) (init content response) es) := by
  have hstep : ∀ s e, (∃ past, Phase past s) → Event.Fair s e →
      ∃ past, Phase past (step abi s e) := by
    intro s e hphase hfair
    obtain ⟨past, hphase⟩ := hphase
    exact phase_step hphase hfair
  obtain ⟨past, hphase⟩ := invariant hstep ⟨[], phase_init hcontent response⟩ hfair
  exact hphase.inOrder

/-- Two calls in pieces: the first is answered by its handler, the second by a job. -/
def twoCalls : List Event :=
  [.call ⟨1, [none, some [1, 2], some [3]], [2, 2]⟩, .send (.accepts 17), .recv .interrupted,
    .send (.accepts 9),
    .read ⟨9, { prepared := .data 0 [7, 8, 9] }, .wrote 5, fun _ => 0, fun _ _ => 0⟩,
    .read ⟨99, { prepared := .data 0 [7, 8, 9] }, .wrote 5, fun _ => 0, fun _ _ => 0⟩,
    .recv (.delivers 99), .write (.wrote 99), .recv (.delivers 99), .recv (.delivers 99),
    .recv (.delivers 99), .call ⟨2, [none], [4]⟩, .send (.accepts 99),
    .read ⟨99, { prepared := .deferResponse }, .would_block, fun _ => 0, fun _ _ => 0⟩,
    .finalize (fun _ _ => 0) 0 (-1) [5], .write (.wrote 99), .recv (.delivers 99),
    .recv (.delivers 99)]

theorem calls_served_in_order_twoCalls :
    InOrder (run (step ⟨64, by decide⟩) (init (fun _ => 0) (fun _ => 0)) twoCalls) ∧
      (run (step ⟨64, by decide⟩) (init (fun _ => 0) (fun _ => 0)) twoCalls).results =
        [⟨true, some 0, [[7, 8], [9]]⟩, ⟨true, some (-1), [[5]]⟩] :=
  ⟨calls_served_in_order (by decide) (by decide +kernel), by decide +kernel⟩

end Conversation

end Dsi
