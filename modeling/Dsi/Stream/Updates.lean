import Dsi.Stream.Replication

/-!
# Dsi.Stream.Updates

The attributes of an interface by the way they notify (`OnChange`, `Always` and
`Partial` of the interface description): the setter that the stub gets
(`CDSIStub.hpp.jet`), what its `writeAttribute` puts on the stream
(`CDSIStub.cpp.jet`), and what the proxy reads over its copy (`CDSIProxy.cpp.jet`).

* `read_write_complete`: a complete update puts the value into any copy;
* `read_write_set`: the update of a setter takes the copy from the old value to the
  new one.
-/

namespace Dsi

/-! ## The kinds of attributes -/

/-- How the setter of an attribute notifies; `Partial` is for vectors. -/
inductive AttributeKind where
  | onChange (t : Ty)
  | always (t : Ty)
  | partialUpdates (t : Ty)
  deriving DecidableEq, Repr

/-- The arguments of an update: its kind, position and count. -/
abbrev UpdateArgs := UpdateType × Int16 × Int16

/-- The default arguments of `sendNotification`. -/
def UpdateArgs.complete : UpdateArgs := (.UPDATE_COMPLETE, -1, -1)

/-- `==` on the values of a type. -/
instance Ty.instDecidableEqVal : (t : Ty) → DecidableEq t.Val
  | .int _ w => inferInstanceAs (DecidableEq (BitVec (8 * w.bytes)))
  | .bool => inferInstanceAs (DecidableEq Bool)
  | .enum _ => inferInstanceAs (DecidableEq (BitVec 32))
  | .string => inferInstanceAs (DecidableEq (List UInt8))
  | .wstring => inferInstanceAs (DecidableEq (List Int))
  | .vector t =>
      have : DecidableEq t.Val := t.instDecidableEqVal
      inferInstanceAs (DecidableEq (List t.Val))
  | .map k v =>
      have : DecidableEq k.Val := k.instDecidableEqVal
      have : DecidableEq v.Val := v.instDecidableEqVal
      inferInstanceAs (DecidableEq (List (k.Val × v.Val)))

namespace AttributeKind

/-- The type of the attribute. -/
def ty : AttributeKind → Ty
  | .onChange t => t
  | .always t => t
  | .partialUpdates t => .vector t

/-- The setter of the stub: the attribute it leaves, and the arguments of
`sendNotification` if it is called.  Only a partial attribute has a `type`, a `position`
and a `count`. -/
def set : (k : AttributeKind) → k.ty.Val → UpdateArgs → ServerAttribute k.ty →
    Option (ServerAttribute k.ty × Option UpdateArgs)
  | .onChange _, source, _, attr =>
      let changed := attr.mState ≠ .DATA_OK ∨ attr.mValue ≠ source
      some (⟨source, .DATA_OK⟩, if changed then some .complete else none)
  | .always _, source, _, _ => some (⟨source, .DATA_OK⟩, some .complete)
  | .partialUpdates t, source, (type, position, count), attr =>
      (ServerAttribute.set (t := t) source type position count attr).map fun r =>
        (r.1, some (type, r.2.1, r.2.2))

/-- `writeAttribute`, the payload of a notification. -/
def write (raw : Nat → UInt8) : (k : AttributeKind) → k.ty.Val → UpdateArgs → Option COStream
  | .onChange t, v, _ => some (COStream.write raw t v [])
  | .always t, v, _ => some (COStream.write raw t v [])
  | .partialUpdates t, v, (type, position, count) =>
      writePartialAttribute raw (t := t) v type position count []

/-- What `processResponse` reads over the value of the copy, with what a partial update
gives to `onUpdate` besides. -/
def read (junk : (n : Nat) → BitVec n) : (k : AttributeKind) → k.ty.Val → CIStream →
    Option ((k.ty.Val × Option (BitVec 32 × Int16 × Int16)) × CIStream)
  | .onChange t, v, s => (CIStream.read junk t v s).map fun r => ((r.1, none), r.2)
  | .always t, v, s => (CIStream.read junk t v s).map fun r => ((r.1, none), r.2)
  | .partialUpdates t, v, s =>
      (readPartialAttribute junk (t := t) v s).map fun r => ((r.1.1, some r.1.2), r.2)

end AttributeKind

/-! ## Values that travel -/

/-- The value is decoded whatever the variable held before. -/
def Ty.Transfers (t : Ty) (v : t.Val) : Prop :=
  t.Valid v ∧ t.Fits v ∧ ∀ old, t.Ordered old → t.Overwrites old v

namespace AttributeKind

/-- The value can be sent as a whole. -/
def Sends : (k : AttributeKind) → k.ty.Val → Prop
  | .onChange t, v => t.Transfers v
  | .always t, v => t.Transfers v
  | .partialUpdates t, v => Travels (t := t) v

/-- What a setter is given can be sent: a partial update lies within the vector. -/
def Settable : (k : AttributeKind) → k.ty.Val → UpdateArgs → k.ty.Val → Prop
  | .onChange t, source, _, _ => t.Transfers source
  | .always t, source, _, _ => t.Transfers source
  | .partialUpdates t, source, (type, position, count), v =>
      type.InRange (α := t.Val) source v position count ∧
        type.RestFits (α := t.Val) v position count ∧
        (type ≠ .UPDATE_DELETE → Travels (t := t) source)

variable (raw : Nat → UInt8) (junk : (n : Nat) → BitVec n)

/-- The payload is read over the value `old` of a copy and puts `v` in its place. -/
def Delivers (k : AttributeKind) (payload : COStream) (old v : k.ty.Val) : Prop :=
  ∃ args s, k.read junk old (.create payload) = some ((v, args), s) ∧ s.mError = false

theorem ordered_of_sends {k : AttributeKind} {v : k.ty.Val} (h : k.Sends v) : k.ty.Ordered v := by
  cases k with
  | onChange t => exact Ty.ordered_of_valid h.1
  | always t => exact Ty.ordered_of_valid h.1
  | partialUpdates t => exact fun x hx => Ty.ordered_of_valid (h.2 x hx).1

/-- A value that transfers is read over any other one. -/
theorem read_of_transfers {t : Ty} {old v : t.Val} (h : t.Transfers v) (hold : t.Ordered old) :
    ∃ s, CIStream.read junk t old (.create (COStream.write raw t v [])) = some (v, s) ∧
      s.mError = false :=
  (decodesOver_iff_overwrites raw junk old v hold h.1 h.2.1).1 (h.2.2 old hold) []
    (COStream.write raw t v []) (List.prefix_refl _)

/-- The reader of a partial update applies what was written. -/
theorem delivers_of_apply {t : Ty} {v w elems : List t.Val} {type : UpdateType}
    {position count : Int16} (hposition : 0 ≤ position.toInt) (hcount : 0 ≤ count.toInt)
    (hsends : type.sends position.toInt count.toInt v = some elems) (htravels : Travels elems)
    (happly : type.apply position.toInt count.toInt elems w = some v) :
    ∃ payload, (partialUpdates t).write raw v (type, position, count) = some payload ∧
      Delivers junk (partialUpdates t) payload w v := by
  have hlen : elems.length < 2 ^ 31 := Nat.lt_trans htravels.1 (by decide)
  refine ⟨_, writePartialAttribute_eq raw hposition hcount hsends [], ?_⟩
  refine ⟨some (type.bits, position, count), ⟨writeUpdate raw type position count elems [],
    (writeUpdate raw type position count elems []).length, false⟩, ?_, rfl⟩
  simp only [read, readPartialAttribute_writeUpdate raw junk hlen htravels.2, happly,
    Option.map_some]

/-- A complete update puts the value into any copy. -/
theorem read_write_complete {k : AttributeKind} {v : k.ty.Val} (h : k.Sends v) :
    ∃ payload, k.write raw v .complete = some payload ∧
      ∀ old, k.ty.Ordered old → Delivers junk k payload old v := by
  cases k with
  | onChange t =>
      refine ⟨_, rfl, fun old hold => ?_⟩
      obtain ⟨s, hread, hs⟩ := read_of_transfers raw junk h hold
      exact ⟨none, s, by rw [read, hread, Option.map_some], hs⟩
  | always t =>
      refine ⟨_, rfl, fun old hold => ?_⟩
      obtain ⟨s, hread, hs⟩ := read_of_transfers raw junk h hold
      exact ⟨none, s, by rw [read, hread, Option.map_some], hs⟩
  | partialUpdates t =>
      have hcount : (Int16.ofNat (List.length v)).toInt = List.length v :=
        Int16.toInt_ofNat_of_lt h.1
      have hsends : UpdateType.UPDATE_COMPLETE.sends (Int16.toInt 0)
          (Int16.ofNat (List.length v)).toInt v = some v := by
        rw [hcount]
        exact slice_all v
      have hwrite : (partialUpdates t).write raw v .complete =
          (partialUpdates t).write raw v (.UPDATE_COMPLETE, 0, .ofNat (List.length v)) :=
        writePartialAttribute_complete raw h.1
      rw [hwrite]
      obtain ⟨payload, hpayload, -⟩ := delivers_of_apply raw junk (w := v) (by simp) (by omega)
        hsends h rfl
      refine ⟨payload, hpayload, fun old _ => ?_⟩
      obtain ⟨payload', hpayload', hdelivers⟩ := delivers_of_apply raw junk (w := old) (by simp)
        (by omega) hsends h rfl
      rw [hpayload'] at hpayload
      exact Option.some.inj hpayload ▸ hdelivers

/-- The setter takes any copy to the new value, not only one with the old value. -/
def IsComplete : AttributeKind → UpdateArgs → Prop
  | .onChange _, _ => True
  | .always _, _ => True
  | .partialUpdates _, (type, _, _) => type = .UPDATE_COMPLETE

instance : (k : AttributeKind) → (args : UpdateArgs) → Decidable (k.IsComplete args)
  | .onChange _, _ => inferInstanceAs (Decidable True)
  | .always _, _ => inferInstanceAs (Decidable True)
  | .partialUpdates _, (type, _, _) => inferInstanceAs (Decidable (type = .UPDATE_COMPLETE))

/-- A partial update: what `set` reports is what the reader applies. -/
theorem read_write_setPartial {t : Ty} {source v : List t.Val} {type : UpdateType}
    {position count : Int16} (state : DataStateType)
    (h : (partialUpdates t).Settable source (type, position, count) v) :
    ∃ attr sent, (partialUpdates t).set source (type, position, count) ⟨v, state⟩ =
        some (attr, some sent) ∧ attr.mState = .DATA_OK ∧
      ∃ payload, (partialUpdates t).write raw attr.mValue sent = some payload ∧
        ∀ old, old = v ∨ type = .UPDATE_COMPLETE →
          Delivers junk (partialUpdates t) payload old attr.mValue := by
  obtain ⟨hrange, hrest, hsource⟩ := h
  obtain ⟨w, p, c, hset, hsent⟩ := @set_spec t ⟨v, state⟩ source type position count hrange hrest
  obtain ⟨hp, hc, elems, hsub, hsends, happly⟩ := hsent fun h => (hsource h).1
  have htravels : Travels elems := by
    by_cases hdelete : type = .UPDATE_DELETE
    · rw [UpdateType.sends, if_pos hdelete] at hsends
      obtain rfl := Option.some.inj hsends
      exact ⟨by simp, fun x hx => absurd hx List.not_mem_nil⟩
    · rw [UpdateType.sends, if_neg hdelete] at hsends
      refine ⟨?_, fun x hx => (hsource hdelete).2 x (hsub hx)⟩
      have hlen := length_of_slice hsends
      have hlt := c.toInt_lt
      omega
  refine ⟨⟨w, .DATA_OK⟩, (type, p, c), congrArg (Option.map _) hset, rfl, ?_⟩
  obtain ⟨payload, hpayload, -⟩ := delivers_of_apply raw junk hp hc hsends htravels happly
  refine ⟨payload, hpayload, fun old hold => ?_⟩
  have hold' : type.apply p.toInt c.toInt elems old = some w := by
    rcases hold with rfl | rfl
    · exact happly
    · exact happly
  obtain ⟨payload', hpayload', hdelivers⟩ :=
    delivers_of_apply raw junk hp hc hsends htravels hold'
  rw [hpayload'] at hpayload
  exact Option.some.inj hpayload ▸ hdelivers

/-- A setter that notifies takes the copy from the old value to the new one, and a complete
one takes every copy to it; a setter that does not notify changes nothing. -/
theorem read_write_set {k : AttributeKind} {source v : k.ty.Val} {args : UpdateArgs}
    (h : k.Settable source args v) (state : DataStateType) :
    ∃ attr notify, k.set source args ⟨v, state⟩ = some (attr, notify) ∧ attr.mState = .DATA_OK ∧
      (notify = none → state = .DATA_OK ∧ attr.mValue = v) ∧
      ∀ sent, notify = some sent →
        ∃ payload, k.write raw attr.mValue sent = some payload ∧
          ∀ old, k.ty.Ordered old → old = v ∨ k.IsComplete args →
            Delivers junk k payload old attr.mValue := by
  cases k with
  | onChange t =>
      obtain ⟨payload, hpayload, hdelivers⟩ :=
        read_write_complete raw junk (k := .onChange t) (v := source) h
      refine ⟨_, _, rfl, rfl, fun hnone => ?_, fun sent hsent => ?_⟩
      · have hsame := (ite_eq_right_iff.mp hnone).mt (by simp)
        exact ⟨by_contra fun hne => hsame (Or.inl hne),
          (by_contra fun hne => hsame (Or.inr hne) : v = source).symm⟩
      · exact ⟨payload, hpayload, fun old hold _ => hdelivers old hold⟩
  | always t =>
      obtain ⟨payload, hpayload, hdelivers⟩ :=
        read_write_complete raw junk (k := .always t) (v := source) h
      exact ⟨_, _, rfl, rfl, fun h => absurd h (by simp), fun sent _ =>
        ⟨payload, hpayload, fun old hold _ => hdelivers old hold⟩⟩
  | partialUpdates t =>
      obtain ⟨attr, sent, hset, hok, payload, hpayload, hdelivers⟩ :=
        read_write_setPartial raw junk state h
      refine ⟨attr, some sent, hset, hok, fun h => absurd h (by simp), fun sent' hsent => ?_⟩
      obtain rfl := Option.some.inj hsent
      exact ⟨payload, hpayload, fun old _ hold => hdelivers old hold⟩

end AttributeKind

end Dsi
