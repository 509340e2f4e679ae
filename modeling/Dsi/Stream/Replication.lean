import Dsi.Lib.Run
import Dsi.Stream.Overwrite

/-!
# Dsi.Stream.Replication

A vector attribute with partial updates and the copy of a client: every `set` of
the server is written with the value it left, and the client applies what it
reads.

A client that has subscribed stays in step with the server as long as the number
of elements that an update sends or deletes fits the 16 bits it travels in
(`client_in_step`).
-/

namespace Dsi

/-! ## One update on the stream -/

section Update

variable {α : Type}

/-- What an update does to a vector that has the elements `vec` sent with it. -/
def UpdateType.apply (type : UpdateType) (position count : Int) (vec v : List α) :
    Option (List α) :=
  match type with
  | .UPDATE_COMPLETE => some vec
  | .UPDATE_INSERT => insertAt position vec v
  | .UPDATE_REPLACE => copyTo position vec v
  | .UPDATE_DELETE => eraseRange position count v
  | .UPDATE_NONE => some v

/-- The elements that are sent with an update of `v`: none with a deletion. -/
def UpdateType.sends (type : UpdateType) (position count : Int) (v : List α) : Option (List α) :=
  if type = .UPDATE_DELETE then some [] else slice position count v

theorem length_of_slice {position count : Int} {v elems : List α}
    (h : slice position count v = some elems) : (elems.length : Int) = count := by
  rw [slice] at h
  split at h
  · next hrange =>
    obtain rfl := Option.some.inj h
    simp only [List.length_take, List.length_drop]
    omega
  · contradiction

theorem normalPosition_of_nonneg {position : Int16} (h : 0 ≤ position.toInt) :
    normalPosition position = position := by
  have hnot : ¬ position < 0 := by
    rw [Int16.lt_iff_toInt_lt, Int16.toInt_zero]
    omega
  rw [normalPosition, if_neg hnot]

variable (raw : Nat → UInt8) (junk : (n : Nat) → BitVec n) {t : Ty}

/-- The bytes of an update. -/
def writeUpdate (type : UpdateType) (position count : Int16) (elems : List t.Val)
    (ostream : COStream) : COStream :=
  COStream.write raw (.vector t) elems
    (COStream.write raw (.int true .w16) count.toBitVec
      (COStream.write raw (.int true .w16) position.toBitVec
        (COStream.write raw (.enum true) type.bits ostream)))

/-- A partial update is its kind, position and count, and a vector. -/
theorem writePartialAttribute_eq {v elems : List t.Val} {type : UpdateType}
    {position count : Int16} (hposition : 0 ≤ position.toInt) (hcount : 0 ≤ count.toInt)
    (hsends : type.sends position.toInt count.toInt v = some elems) (ostream : COStream) :
    writePartialAttribute raw v type position count ostream =
      some (writeUpdate raw type position count elems ostream) := by
  have hnot : ¬ count < 0 := by
    rw [Int16.lt_iff_toInt_lt, Int16.toInt_zero]
    omega
  rw [UpdateType.sends] at hsends
  simp only [writePartialAttribute, normalPosition_of_nonneg hposition, if_neg hnot]
  by_cases hdelete : type = .UPDATE_DELETE
  · rw [if_pos hdelete] at hsends
    obtain rfl := Option.some.inj hsends
    simp [hdelete, writeUpdate, COStream.write, Width.bytes]
  · rw [if_neg hdelete] at hsends
    have hlen := length_of_slice hsends
    have hword : (BitVec.ofInt 32 count.toInt).toNat = elems.length % 2 ^ 32 := by
      rw [← hlen]
      simp
    rw [if_neg hdelete]
    by_cases hpos : 0 < count.toInt
    · rw [if_pos hpos, hsends]
      simp [writeUpdate, COStream.write, Width.bytes, hword]
    · have hnil : elems = [] := List.length_eq_zero_iff.mp (by omega)
      rw [if_neg hpos]
      simp [writeUpdate, COStream.write, Width.bytes, hword, hnil]

/-- An element that is decoded into a new one. -/
def Ty.Sendable (t : Ty) (x : t.Val) : Prop :=
  t.Valid x ∧ t.Fits x ∧ t.Overwrites (t.init fun n => 0#n) x

theorem overlay_nil_of_sendable {elems : List t.Val} (h : ∀ x ∈ elems, t.Sendable x) :
    overlay junk (.vector t) [] elems = elems := by
  rw [overlay, zipWith_eq_right_iff (CIStream.length_resize _ _ _)]
  refine CIStream.forall₂_resize fun o ho x hx => ?_
  have hnew : o = t.init fun n => 0#n := by
    simp only [CIStream.resize, List.take_nil, List.nil_append] at ho
    exact List.eq_of_mem_replicate ho
  rw [hnew]
  exact overlay_of_overwrites junk (Ty.ordered_init _ t) (h x hx).1 (h x hx).2.2

/-- What was written is read, if it is not mixed with what the variable held. -/
theorem read_written {data : List UInt8} {out os : COStream} {t : Ty} {v o : t.Val}
    (hos : os = COStream.write raw t v out) (hvalid : t.Valid v) (hfits : t.Fits v)
    (hover : overlay junk t o v = v) (h : os <+: data) :
    CIStream.read junk t o ⟨data, out.length, false⟩ = some (v, ⟨data, os.length, false⟩) := by
  subst hos
  rw [CIStream.read_overlay raw junk t v o hvalid hfits out h, hover]

/-- The reader applies the update, and gives its kind, position and count back. -/
theorem readPartialAttribute_writeUpdate {w elems : List t.Val} {type : UpdateType}
    {position count : Int16} (hlen : elems.length < 2 ^ 31) (hsend : ∀ x ∈ elems, t.Sendable x) :
    readPartialAttribute junk w (.create (writeUpdate raw type position count elems [])) =
      (type.apply position.toInt count.toInt elems w).map fun v =>
        ((v, type.bits, position, count), ⟨writeUpdate raw type position count elems [],
          (writeUpdate raw type position count elems []).length, false⟩) := by
  obtain ⟨os₁, h₁⟩ : ∃ os, os = COStream.write raw (.enum true) type.bits [] := ⟨_, rfl⟩
  obtain ⟨os₂, h₂⟩ : ∃ os, os = COStream.write raw (.int true .w16) position.toBitVec os₁ :=
    ⟨_, rfl⟩
  obtain ⟨os₃, h₃⟩ : ∃ os, os = COStream.write raw (.int true .w16) count.toBitVec os₂ := ⟨_, rfl⟩
  obtain ⟨data, h₄⟩ : ∃ data, data = COStream.write raw (.vector t) elems os₃ := ⟨_, rfl⟩
  have hdata : writeUpdate raw type position count elems [] = data := by
    rw [h₄, h₃, h₂, h₁, writeUpdate]
  have hpre₃ : os₃ <+: data := h₄ ▸ CIStream.le_write raw _ _ _
  have hpre₂ : os₂ <+: data := (h₃ ▸ CIStream.le_write raw _ _ _ : os₂ <+: os₃).trans hpre₃
  have hpre₁ : os₁ <+: data := (h₂ ▸ CIStream.le_write raw _ _ _ : os₁ <+: os₂).trans hpre₂
  have htype := read_written raw junk h₁ trivial trivial (o := junk 32) rfl hpre₁
  have hposition := read_written raw junk h₂ trivial trivial (o := junk 16) rfl hpre₂
  have hcount := read_written raw junk h₃ trivial trivial (o := junk 16) rfl hpre₃
  have hvec := read_written raw junk h₄ ⟨hlen, fun x hx => (hsend x hx).1⟩
    (fun x hx => (hsend x hx).2.1) (overlay_nil_of_sendable junk hsend) (List.prefix_refl _)
  simp only [List.length_nil] at htype
  rw [hdata, readPartialAttribute, CIStream.create]
  simp only [Option.bind_eq_bind, htype, hposition, hcount, hvec, Option.bind_some]
  rw [Option.map_eq_bind]
  cases type <;> simp [UpdateType.bits, UpdateType.apply] <;> rfl

end Update

/-! ## Setting an attribute -/

section Set

variable {α : Type} {t : Ty}

theorem normalPosition_nonneg (position : Int16) : 0 ≤ (normalPosition position).toInt := by
  rw [normalPosition]
  split
  · simp
  · next h =>
    rw [Int16.lt_iff_toInt_lt, Int16.toInt_zero] at h
    omega

theorem slice_all (v : List α) : slice 0 v.length v = some v := by
  simp [slice]

/-- What was inserted stands where it was inserted. -/
theorem slice_of_insertAt {position : Int} {source v w : List α}
    (h : insertAt position source v = some w) : slice position source.length w = some source := by
  rw [insertAt] at h
  split at h
  · next hrange =>
    obtain rfl := Option.some.inj h
    have hfront : (v.take position.toNat).length = position.toNat := by
      rw [List.length_take]
      omega
    have hlen : position + source.length ≤
        (v.take position.toNat ++ source ++ v.drop position.toNat).length := by
      simp only [List.length_append, hfront]
      omega
    rw [slice, if_pos ⟨hrange.1, by omega, hlen⟩, List.append_assoc, List.drop_left' hfront,
      Int.toNat_natCast, List.take_left]
  · contradiction

theorem slice_of_copyTo {position : Int} {source v w : List α}
    (h : copyTo position source v = some w) : slice position source.length w = some source := by
  rw [copyTo] at h
  split at h
  · next hrange =>
    obtain rfl := Option.some.inj h
    have hfront : (v.take position.toNat).length = position.toNat := by
      rw [List.length_take]
      omega
    have hlen : position + source.length ≤
        (v.take position.toNat ++ source ++ v.drop (position.toNat + source.length)).length := by
      simp only [List.length_append, hfront]
      omega
    rw [slice, if_pos ⟨hrange.1, by omega, hlen⟩, List.append_assoc, List.drop_left' hfront,
      Int.toNat_natCast, List.take_left]
  · contradiction

/-- The position and the count of a `set` lie within the vector. -/
def UpdateType.InRange (type : UpdateType) (source v : List α) (position count : Int16) : Prop :=
  match type with
  | .UPDATE_COMPLETE => True
  | .UPDATE_INSERT => (normalPosition position).toInt ≤ v.length
  | .UPDATE_REPLACE => (normalPosition position).toInt + source.length ≤ v.length
  | .UPDATE_DELETE =>
      if count < 0 then (normalPosition position).toInt ≤ v.length
      else (normalPosition position).toInt + count.toInt ≤ v.length
  | .UPDATE_NONE => False

instance (type : UpdateType) (source v : List α) (position count : Int16) :
    Decidable (type.InRange source v position count) :=
  match type with
  | .UPDATE_COMPLETE => inferInstanceAs (Decidable True)
  | .UPDATE_INSERT => inferInstanceAs (Decidable (_ ≤ (v.length : Int)))
  | .UPDATE_REPLACE => inferInstanceAs (Decidable (_ ≤ (v.length : Int)))
  | .UPDATE_DELETE =>
      inferInstanceAs (Decidable (if count < 0 then _ ≤ (v.length : Int) else _ ≤ (v.length : Int)))
  | .UPDATE_NONE => inferInstanceAs (Decidable False)

/-- A deletion of the rest of the vector deletes fewer than `2 ^ 15` elements. -/
def UpdateType.RestFits (type : UpdateType) (v : List α) (position count : Int16) : Prop :=
  type = .UPDATE_DELETE → count < 0 → v.length - (normalPosition position).toInt < 2 ^ 15

/-- A `set` within the vector gives a position and a count that say what was done:
the update that they go with makes the new vector of the old one. -/
theorem set_spec {attr : ServerAttribute (.vector t)} {source : List t.Val} {type : UpdateType}
    {position count : Int16} (hrange : type.InRange source attr.mValue position count)
    (hrest : type.RestFits attr.mValue position count) :
    ∃ v p c, attr.set source type position count = some (⟨v, .DATA_OK⟩, p, c) ∧
      ((type ≠ .UPDATE_DELETE → source.length < 2 ^ 15) → 0 ≤ p.toInt ∧ 0 ≤ c.toInt ∧
        ∃ elems ⊆ source, type.sends p.toInt c.toInt v = some elems ∧
          type.apply p.toInt c.toInt elems attr.mValue = some v) := by
  have hp := normalPosition_nonneg position
  have hcount (h : source.length < 2 ^ 15) : (Int16.ofNat source.length).toInt = source.length :=
    Int16.toInt_ofNat_of_lt h
  cases type with
  | UPDATE_COMPLETE =>
      refine ⟨source, 0, .ofNat source.length, rfl, fun h => ?_⟩
      rw [hcount (h nofun)]
      exact ⟨by simp, by omega, source, List.Subset.refl _, slice_all source, rfl⟩
  | UPDATE_INSERT =>
      obtain ⟨v, hv⟩ : ∃ v, insertAt (normalPosition position).toInt source attr.mValue = some v :=
        ⟨_, if_pos ⟨hp, hrange⟩⟩
      refine ⟨v, normalPosition position, .ofNat source.length, by simp [ServerAttribute.set, hv],
        fun h => ?_⟩
      rw [hcount (h nofun)]
      exact ⟨hp, by omega, source, List.Subset.refl _, slice_of_insertAt hv, hv⟩
  | UPDATE_REPLACE =>
      obtain ⟨v, hv⟩ : ∃ v, copyTo (normalPosition position).toInt source attr.mValue = some v :=
        ⟨_, if_pos ⟨hp, hrange⟩⟩
      refine ⟨v, normalPosition position, .ofNat source.length, by simp [ServerAttribute.set, hv],
        fun h => ?_⟩
      rw [hcount (h nofun)]
      exact ⟨hp, by omega, source, List.Subset.refl _, slice_of_copyTo hv, hv⟩
  | UPDATE_DELETE =>
      obtain ⟨c, hc⟩ : ∃ c, c = if count < 0 then
          restCount (List.length attr.mValue) (normalPosition position) else count := ⟨_, rfl⟩
      have hbounds : 0 ≤ c.toInt ∧
          (normalPosition position).toInt + c.toInt ≤ List.length attr.mValue := by
        simp only [UpdateType.InRange] at hrange
        split at hrange
        · next hneg =>
          have hfits := hrest rfl hneg
          rw [hc, if_pos hneg, restCount, Int16.toInt_ofInt_of_le (by omega) hfits]
          omega
        · next hneg =>
          rw [Int16.lt_iff_toInt_lt, Int16.toInt_zero] at hneg
          rw [hc, if_neg (by rwa [Int16.lt_iff_toInt_lt, Int16.toInt_zero])]
          exact ⟨by omega, hrange⟩
      obtain ⟨v, hv⟩ : ∃ v,
          eraseRange (normalPosition position).toInt c.toInt attr.mValue = some v :=
        ⟨_, if_pos ⟨hp, hbounds⟩⟩
      refine ⟨v, normalPosition position, c, by simp [ServerAttribute.set, ← hc, hv], fun _ => ?_⟩
      exact ⟨hp, hbounds.1, [], List.nil_subset _, rfl, hv⟩
  | UPDATE_NONE => exact hrange.elim

end Set

/-! ## A server and a client -/

section Replica

variable (raw : Nat → UInt8) (junk : (n : Nat) → BitVec n) {t : Ty}

/-- The attribute of the server, the copy of a client, and whether the client has
subscribed to the attribute. -/
structure Replica (t : Ty) where
  server : ServerAttribute (.vector t)
  client : ClientAttribute (.vector t)
  subscribed : Bool

/-- `set` on the attribute of the server, or the client asks for notifications. -/
inductive ReplicaEvent (t : Ty) where
  | set (source : List t.Val) (type : UpdateType) (position count : Int16)
  | subscribe

/-- `sendNotification` and `processResponse`: the attribute is written, and the
client applies what it reads. -/
def Replica.notify (r : Replica t) (type : UpdateType) (position count : Int16) :
    Option (Replica t) := do
  let payload ← writePartialAttribute raw r.server.mValue type position count []
  let ((v, _), _) ← readPartialAttribute junk r.client.mValue (.create payload)
  some { r with client := { mValue := v, mState := .DATA_OK } }

/-- The setter of the stub, and `handleDataRequest` for `REQUEST_NOTIFY`. -/
def Replica.next (r : Replica t) : ReplicaEvent t → Option (Replica t)
  | .set source type position count => do
      let (server, position, count) ← r.server.set source type position count
      let r := { r with server := server }
      if r.subscribed then r.notify raw junk type position count else some r
  | .subscribe =>
      let r := { r with subscribed := true }
      if r.server.mState = .DATA_OK then r.notify raw junk .UPDATE_COMPLETE (-1) (-1) else some r

/-- Nothing follows undefined behaviour or an exception. -/
def replicaStep (s : Option (Replica t)) (e : ReplicaEvent t) : Option (Replica t) :=
  s.bind fun r => r.next raw junk e

/-- A client that has subscribed has the value of the server. -/
def Replica.InStep (r : Replica t) : Prop :=
  r.subscribed = true → r.client.mValue = r.server.mValue

/-- The position and the count of the event lie within the vector. -/
def ReplicaEvent.InRange (r : Replica t) : ReplicaEvent t → Prop
  | .set source type position count => type.InRange source r.server.mValue position count
  | .subscribe => True

/-- Elements that a client is to receive: their number fits 16 bits, and each of
them is decoded into a new one. -/
def Travels (elems : List t.Val) : Prop := elems.length < 2 ^ 15 ∧ ∀ x ∈ elems, t.Sendable x

/-- What an event sends travels, and what it deletes fits 16 bits. -/
def ReplicaEvent.Travels (r : Replica t) : ReplicaEvent t → Prop
  | .set source type position count =>
      type.RestFits r.server.mValue position count ∧
        (r.subscribed = true → type ≠ .UPDATE_DELETE → Dsi.Travels source)
  | .subscribe => Dsi.Travels r.server.mValue

/-- A client that applies an update to its vector and gets that of the server. -/
theorem notify_of_apply {r : Replica t} {type : UpdateType} {position count : Int16}
    {elems : List t.Val} (hposition : 0 ≤ position.toInt) (hcount : 0 ≤ count.toInt)
    (hsends : type.sends position.toInt count.toInt r.server.mValue = some elems)
    (htravels : Travels elems)
    (happly : type.apply position.toInt count.toInt elems r.client.mValue =
      some r.server.mValue) :
    r.notify raw junk type position count =
      some { r with client := { mValue := r.server.mValue, mState := .DATA_OK } } := by
  have hlen : elems.length < 2 ^ 31 := Nat.lt_trans htravels.1 (by decide)
  rw [Replica.notify, writePartialAttribute_eq raw hposition hcount hsends]
  simp only [Option.bind_eq_bind, Option.bind_some,
    readPartialAttribute_writeUpdate raw junk hlen htravels.2, happly, Option.map_some]

/-- The count of a complete update that is not given is the length of the vector. -/
theorem writePartialAttribute_complete {v : List t.Val} (hlen : v.length < 2 ^ 15) :
    writePartialAttribute raw v .UPDATE_COMPLETE (-1) (-1) [] =
      writePartialAttribute raw v .UPDATE_COMPLETE 0 (.ofNat v.length) [] := by
  have hcount : (Int16.ofNat v.length).toInt = v.length := Int16.toInt_ofNat_of_lt hlen
  have hnot : ¬ Int16.ofNat v.length < 0 := by
    rw [Int16.lt_iff_toInt_lt, Int16.toInt_zero]
    omega
  have hrest : restCount v.length 0 = .ofNat v.length := by
    simp [restCount, Int16.ofInt_eq_ofNat]
  have hfirst : normalPosition (-1) = 0 ∧ normalPosition 0 = 0 := by decide
  have hneg : (-1 : Int16) < 0 := by decide
  simp only [writePartialAttribute, hfirst, if_neg hnot, if_pos hneg, hrest]

/-- The step lemma: an event within the vector whose elements travel keeps the
client in step. -/
theorem next_inStep {r : Replica t} {e : ReplicaEvent t} (hok : r.server.mState = .DATA_OK)
    (hstep : r.InStep) (hrange : e.InRange r) (htravels : e.Travels r) :
    ∃ r', r.next raw junk e = some r' ∧ r'.server.mState = .DATA_OK ∧ r'.InStep := by
  cases e with
  | subscribe =>
      have hcount : (Int16.ofNat (List.length r.server.mValue)).toInt =
          List.length r.server.mValue := Int16.toInt_ofNat_of_lt htravels.1
      have hnotify : { r with subscribed := true }.notify raw junk .UPDATE_COMPLETE (-1) (-1) =
          { r with subscribed := true }.notify raw junk .UPDATE_COMPLETE 0
            (.ofNat (List.length r.server.mValue)) := by
        simp only [Replica.notify, writePartialAttribute_complete raw htravels.1]
      simp only [Replica.next, if_pos hok]
      have hsends : UpdateType.UPDATE_COMPLETE.sends (Int16.toInt 0)
          (Int16.ofNat (List.length r.server.mValue)).toInt r.server.mValue =
          some r.server.mValue := by
        rw [hcount]
        exact slice_all _
      rw [hnotify, notify_of_apply raw junk (r := { r with subscribed := true }) (by simp)
        (by omega) hsends htravels rfl]
      exact ⟨_, rfl, hok, fun _ => rfl⟩
  | set source type position count =>
      obtain ⟨v, p, c, hset, hsent⟩ := set_spec hrange htravels.1
      simp only [Replica.next, hset, Option.bind_eq_bind, Option.bind_some]
      split
      · next hsub =>
        have hsource := htravels.2 hsub
        obtain ⟨hp, hc, elems, hsub', hsends, happly⟩ := hsent fun h => (hsource h).1
        have htravels' : Travels elems := by
          by_cases hdelete : type = .UPDATE_DELETE
          · rw [UpdateType.sends, if_pos hdelete] at hsends
            obtain rfl := Option.some.inj hsends
            exact ⟨by simp, nofun⟩
          · rw [UpdateType.sends, if_neg hdelete] at hsends
            refine ⟨?_, fun x hx => (hsource hdelete).2 x (hsub' hx)⟩
            have hlen := length_of_slice hsends
            have hlt := c.toInt_lt
            omega
        rw [notify_of_apply raw junk hp hc hsends htravels' (by rw [hstep hsub]; exact happly)]
        exact ⟨_, rfl, rfl, fun _ => rfl⟩
      · next hsub => exact ⟨_, rfl, rfl, fun h => absurd h hsub⟩

/-- **Partial updates**: whatever the vector of the server and the copy of the
client are, after every sequence of updates within the vector the client that
subscribed at some point of it has the vector of the server, if the elements that
are sent travel. -/
theorem client_in_step (v : List t.Val) (client : ClientAttribute (.vector t))
    (es : List (ReplicaEvent t))
    (h : Run.Along (replicaStep raw junk) (fun s e => ∀ r ∈ s, e.InRange r ∧ e.Travels r)
      (some ⟨⟨v, .DATA_OK⟩, client, false⟩) es) :
    ∃ r, Run.run (replicaStep raw junk) (some ⟨⟨v, .DATA_OK⟩, client, false⟩) es = some r ∧
      r.InStep := by
  have hpreserved : ∀ (s : Option (Replica t)) (e : ReplicaEvent t),
      (∃ r, s = some r ∧ r.server.mState = .DATA_OK ∧ r.InStep) →
      (∀ r ∈ s, e.InRange r ∧ e.Travels r) →
      ∃ r, replicaStep raw junk s e = some r ∧ r.server.mState = .DATA_OK ∧ r.InStep := by
    rintro _ e ⟨r, rfl, hok, hin⟩ he
    obtain ⟨hrange, htravels⟩ := he r rfl
    exact next_inStep raw junk hok hin hrange htravels
  obtain ⟨r, hr, -, hin⟩ := Run.invariant hpreserved ⟨_, rfl, rfl, Bool.noConfusion⟩ h
  exact ⟨r, hr, hin⟩

end Replica

/-- A client that subscribes, an insertion, and the rest is deleted. -/
theorem client_in_step_two_updates :
    ∃ r : Replica (.int true .w32), Run.run (replicaStep (fun _ => 0xee) fun n => -1#n)
        (some ⟨⟨[1#32, 2#32, 3#32], .DATA_OK⟩, ⟨[], .DATA_NOT_AVAILABLE⟩, false⟩)
        [.subscribe, .set [7#32] .UPDATE_INSERT 1 0, .set [] .UPDATE_DELETE 2 (-1)] = some r ∧
      r.InStep := by
  refine client_in_step _ _ _ _ _ ⟨?_, ?_, ?_, trivial⟩
  · rintro r hr
    obtain rfl := Option.some.inj hr
    exact ⟨trivial, by decide, fun x _ => ⟨trivial, trivial, trivial⟩⟩
  · rintro r hr
    obtain rfl : (⟨⟨[1#32, 2#32, 3#32], .DATA_OK⟩, ⟨[1#32, 2#32, 3#32], .DATA_OK⟩, true⟩ :
      Replica (.int true .w32)) = r := Option.some.inj hr
    have hrange : UpdateType.UPDATE_INSERT.InRange [7#32] [1#32, 2#32, 3#32] 1 0 := by decide
    exact ⟨hrange, nofun, fun _ _ => ⟨by decide, fun x _ => ⟨trivial, trivial, trivial⟩⟩⟩
  · rintro r hr
    obtain rfl : (⟨⟨[1#32, 7#32, 2#32, 3#32], .DATA_OK⟩, ⟨[1#32, 7#32, 2#32, 3#32], .DATA_OK⟩,
      true⟩ : Replica (.int true .w32)) = r := Option.some.inj hr
    have hrange : UpdateType.UPDATE_DELETE.InRange [] [1#32, 7#32, 2#32, 3#32] 2 (-1) := by decide
    exact ⟨hrange, fun _ _ => by decide, fun _ h => absurd rfl h⟩

/-- A complete update with `2 ^ 15` elements announces a negative number of them. -/
theorem notify_complete_eq_none {r : Replica (.int true .w32)}
    (hlen : List.length r.server.mValue = 2 ^ 15) :
    r.notify (fun _ => 0) (fun n => 0#n) .UPDATE_COMPLETE 0 (.ofNat (2 ^ 15)) = none := by
  have hwrite : writePartialAttribute (fun _ => 0) r.server.mValue .UPDATE_COMPLETE 0
      (.ofNat (2 ^ 15)) [] = some [0, 0, 0, 0, 0, 0, 0, 0x80, 0, 0x80, 0xff, 0xff] := by
    simp only [writePartialAttribute, hlen]
    rfl
  have hread : readPartialAttribute (fun n => 0#n) r.client.mValue
      (.create [0, 0, 0, 0, 0, 0, 0, 0x80, 0, 0x80, 0xff, 0xff]) = none := rfl
  rw [Replica.notify, hwrite, Option.bind_eq_bind, Option.bind_some, hread]
  rfl

/-- A client that has subscribed does not survive a complete update of that size. -/
theorem not_in_step_long_vector :
    ¬ ∀ (v : (Ty.vector (.int true .w32)).Val) (client : ClientAttribute (.vector (.int true .w32)))
      (es : List (ReplicaEvent (.int true .w32))),
      Run.Along (replicaStep (fun _ => 0) fun n => 0#n) (fun s e => ∀ r ∈ s, e.InRange r)
        (some ⟨⟨v, .DATA_OK⟩, client, false⟩) es →
      ∃ r, Run.run (replicaStep (fun _ => 0) fun n => 0#n)
          (some ⟨⟨v, .DATA_OK⟩, client, false⟩) es = some r ∧ r.InStep := by
  obtain ⟨source, hlen⟩ : ∃ source : List (Ty.int true .w32).Val, source.length = 2 ^ 15 :=
    ⟨List.replicate (2 ^ 15) 0#32, List.length_replicate ..⟩
  intro h
  obtain ⟨r, hr, -⟩ := h [] ⟨[], .DATA_NOT_AVAILABLE⟩
    [.subscribe, .set source .UPDATE_COMPLETE 0 0]
    ⟨fun _ _ => trivial, fun _ _ => trivial, trivial⟩
  have hstep : Replica.next (fun _ => 0) (fun n => 0#n)
      ⟨⟨[], .DATA_OK⟩, ⟨[], .DATA_OK⟩, true⟩ (.set source .UPDATE_COMPLETE 0 0) =
      Replica.notify (fun _ => 0) (fun n => 0#n)
        (⟨⟨source, .DATA_OK⟩, ⟨[], .DATA_OK⟩, true⟩ : Replica (.int true .w32)) .UPDATE_COMPLETE 0
        (.ofNat source.length) := rfl
  rw [hlen, notify_complete_eq_none hlen] at hstep
  have hrun : some r = Replica.next (fun _ => 0) (fun n => 0#n)
      ⟨⟨[], .DATA_OK⟩, ⟨[], .DATA_OK⟩, true⟩ (.set source .UPDATE_COMPLETE 0 0) := hr.symm
  rw [hstep] at hrun
  contradiction

end Dsi
