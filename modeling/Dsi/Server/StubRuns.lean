import Dsi.Server.Stub

/-!
# Dsi.Server.StubRuns

The runs of a stub are runs of the server in it: what holds of every run of a server
holds of the server in a stub, and what the stub sends is the messages of that run in
their order, each with a payload.
-/

namespace Dsi

namespace CServer

/-! ## What the outside has seen stays -/

/-- Something is added to what the outside has seen. -/
def Extends (s s' : CServer) : Prop := ∃ os, s'.log = s.log ++ os

namespace Extends

variable {s t s' : CServer}

/-- Nothing is seen outside. -/
theorem of_eq (h : s'.log = s.log) : Extends s s' := ⟨[], by rw [h, List.append_nil]⟩

/-- What is seen outside on both parts of the way. -/
theorem trans (h : Extends s t) (h' : Extends t s') : Extends s s' := by
  obtain ⟨os, hos⟩ := h
  obtain ⟨os', hos'⟩ := h'
  exact ⟨os ++ os', by rw [hos', hos, List.append_assoc]⟩

/-- The calls of the application are seen outside. -/
theorem of_talks (h : Talks s s') : Extends s s' := by
  obtain ⟨ms, hms⟩ := h.log
  exact ⟨_, hms⟩

/-- So are the messages of a loop. -/
theorem of_shrinks (h : Shrinks s s') : Extends s s' := of_talks (.of_shrinks h)

/-- What was added is what is behind the old end. -/
theorem log_eq (h : Extends s s') : s'.log = s.log ++ s'.log.drop s.log.length := by
  obtain ⟨os, hos⟩ := h
  rw [hos, List.drop_left]

end Extends

variable {cfg : Config} {s s' : CServer}

/-- The messages that the outside has seen. -/
def messages (s : CServer) : List Message := s.log.filterMap Output.message?

/-- The messages are the old ones and those that are new in the log. -/
theorem Extends.messages_eq (h : Extends s s') :
    s'.messages = s.messages ++ (s'.log.drop s.log.length).filterMap Output.message? := by
  rw [messages, h.log_eq, List.filterMap_append, List.drop_left]
  rfl

end CServer

/-! ## What a stub sends -/

namespace Stub

open CServer

variable {kind : UInt32 → AttributeKind} {cfg : CServer.Config} {raw : Nat → UInt8}
  {args : UpdateArgs} {params : List UInt8} {b b' : Stub kind}

/-- The values of the attributes. -/
abbrev Values (kind : UInt32 → AttributeKind) := (id : UInt32) → (kind id).ty.Val

/-- The calls of the application take the values `v` to these, each of them in some state of the
server. -/
inductive Takes (cfg : CServer.Config) (raw : Nat → UInt8) (v : Values kind) :
    List (Call kind) → Values kind → Prop where
  | refl : Takes cfg raw v [] v
  | call {cs : List (Call kind)} {c : Call kind} {b b' : Stub kind}
      (h : Takes cfg raw v cs b.mValue) (hcall : b.call cfg raw c = .ok b') :
      Takes cfg raw v (cs ++ [c]) b'.mValue

/-- The message is one that is written from these values. -/
def Writes (raw : Nat → UInt8) (v : Values kind) (d : DataResponse) : Prop :=
  ∃ args params, ({ mValue := v } : Stub kind).payload raw args params d.message = some d.payload

/-- What the stub has sent behind these calls: the messages that the outside has seen of its
server, each of them written from the values behind some of the calls. -/
structure Serialises (cfg : CServer.Config) (raw : Nat → UInt8) (cs : List (Call kind))
    (b : Stub kind) : Prop where
  messages : b.sent.map (·.message) = b.server.messages
  values : Takes cfg raw ({} : Stub kind).mValue cs b.mValue
  payloads : ∀ d ∈ b.sent, ∃ cs₀ v, cs₀ <+: cs ∧ Takes cfg raw ({} : Stub kind).mValue cs₀ v ∧
    Writes raw v d

variable {cs : List (Call kind)}

/-- A step of the server that sends nothing serialises nothing. -/
theorem Serialises.silent (hb : Serialises cfg raw cs b) {s : CServer}
    (hs : s.messages = b.server.messages) : Serialises cfg raw cs { b with server := s } :=
  ⟨hb.messages.trans hs.symm, hb.values, hb.payloads⟩

/-- What an operation of the server sends is written from the values that the stub has then. -/
theorem write_sends {f : CServer → Except Fault CServer}
    (hmessages : b.sent.map (·.message) = b.server.messages)
    (hf : ∀ s, f b.server = .ok s → Extends b.server s)
    (h : b.write raw args params f = .ok b') :
    b'.sent.map (·.message) = b'.server.messages ∧ b'.mValue = b.mValue ∧
      ∀ d ∈ b'.sent, d ∈ b.sent ∨ Writes raw b.mValue d := by
  obtain ⟨s, ps, hs, hps, rfl⟩ := write_eq_ok h
  obtain ⟨hsent, hpay⟩ := dataResponses_spec hps
  refine ⟨?_, rfl, fun d hd => ?_⟩
  · rw [List.map_append, hmessages, hsent, (hf s hs).messages_eq]
  · exact (List.mem_append.mp hd).imp_right fun hd => ⟨args, params, hpay d hd⟩

/-- What an operation of the server sends is serialised from the values now. -/
theorem Serialises.write {f : CServer → Except Fault CServer} (hb : Serialises cfg raw cs b)
    (hf : ∀ s, f b.server = .ok s → Extends b.server s)
    (h : b.write raw args params f = .ok b') : Serialises cfg raw cs b' := by
  obtain ⟨hmessages, hvalue, hsent⟩ := write_sends hb.messages hf h
  refine ⟨hmessages, hvalue ▸ hb.values, fun d hd => ?_⟩
  rcases hsent d hd with hold | hnew
  · exact hb.payloads d hold
  · exact ⟨cs, b.mValue, List.prefix_refl cs, hb.values, hnew⟩

/-- The calls that an event gives to the application to make. -/
def Event.calls : Event kind → List (Call kind)
  | .disconnect _ calls | .detached _ calls => calls.flatten
  | .dataRequest _ calls | .user calls => calls
  | .connect _ | .channelClosed _ | .unregisterInterface | .createId => []

/-- Of these calls some are made, in their order. -/
def SerialisesSome (cfg : CServer.Config) (raw : Nat → UInt8) (cs calls : List (Call kind))
    (b : Stub kind) : Prop :=
  ∃ made, made.Sublist calls ∧ Serialises cfg raw (cs ++ made) b

/-- None of the calls is made. -/
theorem Serialises.some (hb : Serialises cfg raw cs b) (calls : List (Call kind)) :
    SerialisesSome cfg raw cs calls b :=
  ⟨[], List.nil_sublist calls, (List.append_nil cs).symm ▸ hb⟩

/-- The stub behind a sequence of events, if none of them breaks the process off. -/
def run (cfg : CServer.Config) (raw : Nat → UInt8) : Stub kind → List (Event kind) →
    Except Fault (Stub kind) :=
  Partial.run (step cfg raw)

/-- A client connects and subscribes to a vector, which is set before and grows behind it. -/
def vectorGrows : List (Event fun _ => .partialUpdates (.int true .w32)) :=
  [.user [.set 0xC0000000 [1#32, 2#32] (.UPDATE_COMPLETE, 0, 0)],
    .connect { clientID := ⟨5, 0⟩, serverID := ⟨9, 0⟩, protoMinor := 0, channel := 1
               notificationID := 7 },
    .dataRequest { requestType := .REQUEST_NOTIFY, requestId := 0xC0000000, clientID := ⟨5, 0⟩
                   protoMinor := 0, sequenceNr := 1, payload := [] } [],
    .user [.set 0xC0000000 [7#32] (.UPDATE_INSERT, 1, 0)]]

end Stub

end Dsi
