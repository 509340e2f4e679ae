import Dsi.Gen.UpdateIds
import Dsi.Server.State

/-!
# Dsi.Gen.ResponseStates

The states of the responses in a generated stub (`CDSIStub.hpp.jet`, `CDSIStub.cpp.jet`): a
`std::bitset` with one bit for each response method, which is indexed with update IDs.  The update
IDs of responses begin with `RESPONSE_ID_FIRST`, so that every index is behind the end.
-/

namespace Dsi.Gen

open CServer (INVALID_ID isAttributeId isResponseId)

/-- What the templates read of an interface: its elements, and the response method that each
request method names, if it names one. -/
structure Stub where
  si : ServiceInterface
  responses : List (Option (Fin si.mResponseMethods.length))
  length_responses : responses.length = si.mRequestMethods.length

namespace Stub

/-- An update ID as `uint32_t`. -/
def updateId (kind : Kind) (index : Nat) : UInt32 := UInt32.ofNat (kind.first + index)

variable (stub : Stub)

/-- The enumerators of `UpdateIdEnum`. -/
inductive UpdateIdEnum where
  | request (i : Fin stub.si.mRequestMethods.length)
  | response (i : Fin stub.si.mResponseMethods.length)
  | attribute (i : Fin stub.si.mAttributes.length)
  | implVersion
  | NOP

variable {stub}

def UpdateIdEnum.toUInt32 : stub.UpdateIdEnum → UInt32
  | .request i => updateId .requests i
  | .response i => updateId .responses i
  | .attribute i => updateId .attributes i
  | .implVersion => CServer.UPD_ID_implVersion
  | .NOP => INVALID_ID

variable (stub)

/-- `getResponse`: the table is generated if a request method names a response. -/
def getResponse (requestId : UInt32) : UInt32 :=
  if stub.responses.any (·.isSome) then
    match stub.responses[requestId.toNat]? with
    | some (some response) => updateId .responses response
    | some none => (UpdateIdEnum.NOP : stub.UpdateIdEnum).toUInt32
    | none => INVALID_ID
  else
    INVALID_ID

/-! ## The bitset -/

/-- `mResponseStateMap`. -/
abbrev ResponseStateMap := Vector Bool stub.si.mResponseMethods.length

variable {stub}

/-- `mResponseStateMap[responseId]`, which is defined for an index below the size. -/
def getResponseState (responseId : UInt32) (map : stub.ResponseStateMap) : Option Bool :=
  map[responseId.toNat]?

/-- `mResponseStateMap[responseId] = value`. -/
def setResponseState (responseId : UInt32) (value : Bool) (map : stub.ResponseStateMap) :
    Option stub.ResponseStateMap :=
  if h : responseId.toNat < stub.si.mResponseMethods.length then
    some (map.set responseId.toNat value h)
  else
    none

variable (stub)

/-- The calls that look at the bitset.  `CServer` tests and sets the state of the response that
`getResponse` names for a request, unless it is `INVALID_ID`. -/
inductive Call where
  | response (i : Fin stub.si.mResponseMethods.length)
  | sendError (id : stub.UpdateIdEnum)
  | getResponseState (requestId : UInt32)
  | setResponseState (requestId : UInt32) (value : Bool)

/-- The indices that a call uses. -/
def indices : stub.Call → List UInt32
  | .response i => [(UpdateIdEnum.response i : stub.UpdateIdEnum).toUInt32]
  | .sendError id =>
      let id := id.toUInt32
      if isAttributeId id then []
      else
        let responseId := if isResponseId id then id else stub.getResponse id
        if INVALID_ID ≠ responseId then [responseId] else []
  | .getResponseState requestId | .setResponseState requestId _ =>
      if INVALID_ID ≠ stub.getResponse requestId then [stub.getResponse requestId] else []

/-- Every index is below the size, and what is done to the state of a response leaves that of
another one as it is. -/
structure StatesSeparate : Prop where
  inside : ∀ c, ∀ id ∈ stub.indices c, id.toNat < stub.si.mResponseMethods.length
  separate : ∀ i j : Fin stub.si.mResponseMethods.length, i ≠ j →
    ∀ (value : Bool) (map : stub.ResponseStateMap),
      (setResponseState (updateId .responses i) value map).bind
        (getResponseState (updateId .responses j)) = getResponseState (updateId .responses j) map

/-! ## The indices -/

variable {stub}

theorem toNat_updateId (i : Nat) : (updateId .responses i).toNat = (2 ^ 31 + i) % 2 ^ 32 :=
  UInt32.toNat_ofNat'

/-- With a response method some index is behind the end, or two of them are the same, unless there
are as many response methods as IDs. -/
theorem StatesSeparate.length_eq (h : stub.StatesSeparate) :
    stub.si.mResponseMethods.length = 0 ∨ stub.si.mResponseMethods.length = 2 ^ 32 := by
  have hindex (i : Nat) (hi : i < stub.si.mResponseMethods.length) :
      (2 ^ 31 + i) % 2 ^ 32 < stub.si.mResponseMethods.length := by
    have hlt := h.inside (.response ⟨i, hi⟩) _ (List.mem_singleton_self _)
    rwa [show UpdateIdEnum.toUInt32 _ = updateId .responses i from rfl, toNat_updateId] at hlt
  rcases Nat.lt_trichotomy stub.si.mResponseMethods.length (2 ^ 32) with hless | heq | hmore
  · -- the first index is inside only if there are more than `2 ^ 31`, and then the one whose ID
    -- is their number is not
    refine Or.inl (Decidable.byContradiction fun hne => ?_)
    have hfirst := hindex 0 (Nat.pos_of_ne_zero hne)
    have hlast := hindex (stub.si.mResponseMethods.length - 2 ^ 31) (by omega)
    omega
  · exact Or.inr heq
  · -- the first response shares its ID with one behind it
    have hpos : 0 < stub.si.mResponseMethods.length := Nat.zero_lt_of_lt hmore
    have hsame : updateId .responses (2 ^ 32) = updateId .responses 0 := by decide
    have hinside : (updateId .responses 0).toNat < stub.si.mResponseMethods.length :=
      Nat.lt_trans (UInt32.toNat_lt _) hmore
    have hseparate := h.separate ⟨0, hpos⟩ ⟨2 ^ 32, hmore⟩ (by simp) true (Vector.replicate _ false)
    rw [hsame, setResponseState, dif_pos hinside] at hseparate
    simp [getResponseState, hinside] at hseparate

/-- Without one no update ID is that of a response. -/
theorem getResponse_of_no_responses (h : stub.si.mResponseMethods.length = 0) (requestId : UInt32) :
    stub.getResponse requestId = INVALID_ID := by
  unfold getResponse
  split
  · split
    · next response _ => exact absurd response.isLt (by omega)
    · rfl
    · rfl
  · rfl

/-- `sendError` for the update ID of a response uses it as the index. -/
theorem mem_indices_sendError {id : stub.UpdateIdEnum} (h : isResponseId id.toUInt32 = true) :
    id.toUInt32 ∈ stub.indices (.sendError id) := by
  obtain ⟨-, hlt⟩ := Bool.and_eq_true_iff.mp h
  have hattribute : isAttributeId id.toUInt32 = false := by
    rw [isAttributeId, decide_eq_false_iff_not, UInt32.not_le]
    exact of_decide_eq_true hlt
  have hvalid : INVALID_ID ≠ id.toUInt32 := by
    intro heq
    rw [← heq] at hlt
    exact absurd hlt (by decide)
  simp only [indices, hattribute, h, Bool.false_eq_true, if_false, if_true, if_pos hvalid]
  exact List.mem_singleton_self _

/-- The states of the responses are separate only where there are none: the interface has no
response method, and no other element has an update ID of their range.  With as many response
methods as there are IDs every number is an index. -/
theorem statesSeparate_iff (stub : Stub) :
    stub.StatesSeparate ↔ (stub.si.mResponseMethods.length = 0 ∧
        ∀ id : stub.UpdateIdEnum, isResponseId id.toUInt32 = false) ∨
      stub.si.mResponseMethods.length = 2 ^ 32 := by
  constructor
  · intro h
    refine h.length_eq.imp_left fun hzero => ⟨hzero, fun id => ?_⟩
    cases hid : isResponseId id.toUInt32 with
    | false => rfl
    | true =>
        have hlt := h.inside _ _ (mem_indices_sendError hid)
        omega
  · rintro (⟨hzero, hids⟩ | hall)
    · have hnone := getResponse_of_no_responses hzero
      refine ⟨fun c id hid => ?_, fun i => absurd i.isLt (by omega)⟩
      cases c with
      | response i => exact absurd i.isLt (by omega)
      | sendError e =>
          rw [indices, hids e, if_neg Bool.false_ne_true, hnone] at hid
          split at hid
          · cases hid
          · rw [if_neg (fun hne => hne rfl)] at hid
            cases hid
      | getResponseState requestId =>
          rw [indices, hnone, if_neg (fun hne => hne rfl)] at hid
          cases hid
      | setResponseState requestId value =>
          rw [indices, hnone, if_neg (fun hne => hne rfl)] at hid
          cases hid
    · refine ⟨fun c id _ => hall ▸ UInt32.toNat_lt id, fun i j hij value map => ?_⟩
      have hi : (updateId .responses i).toNat < stub.si.mResponseMethods.length :=
        Nat.lt_of_lt_of_le (UInt32.toNat_lt _) (Nat.le_of_eq hall.symm)
      have hne : (updateId .responses i).toNat ≠ (updateId .responses j).toNat := by
        rw [toNat_updateId, toNat_updateId]
        have hij' : i.val ≠ j.val := fun heq => hij (Fin.ext heq)
        omega
      rw [setResponseState, dif_pos hi]
      exact Vector.getElem?_set_ne _ hne

/-- A request with a response. -/
def exampleStub : Stub where
  si := ⟨"", [⟨⟨"ping", 0⟩, "request"⟩], [⟨⟨"ping", 0⟩, "response"⟩], []⟩
  responses := [some 0]
  length_responses := rfl

/-- One response method: its state is bit `0x80000000` of a set of one bit. -/
theorem not_statesSeparate_one : ¬ exampleStub.StatesSeparate := fun h =>
  absurd (h.inside (.response (0 : Fin 1)) 0x80000000 (by decide)) (by decide)

end Stub

end Dsi.Gen
