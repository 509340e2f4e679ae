import Dsi.Stream.Attributes
import Dsi.Stream.Position
import Dsi.Stream.RoundTrip

/-!
# Dsi.Stream.Hostile

Vectors and partial updates from payloads of any content.  The size of a vector goes to `resize`
before it is compared with anything, and what a partial update says goes to the vector before the
error of the stream is looked at.

* `hostile_iff`: the payloads that are decoded safely into every vector, and the partial updates
  that are applied safely to every vector of a length.
-/

namespace Dsi

/-- The bytes that a value takes at least. -/
def Ty.least : Ty → Nat
  | .int _ w => w.bytes
  | _ => 4

/-- No type has one value only. -/
theorem Ty.exists_ne (t : Ty) : ∃ a b : t.Val, a ≠ b := by
  cases t with
  | int signed w =>
      have hbits : ¬ 8 * w.bytes = 0 := by cases w <;> decide
      exact ⟨1#_, 0#_, fun h => hbits (BitVec.one_eq_zero_iff.mp h)⟩
  | bool => exact ⟨true, false, by decide⟩
  | enum _ => exact ⟨1#32, 0#32, fun h => absurd (BitVec.one_eq_zero_iff.mp h) (by decide)⟩
  | string => exact ⟨[(0 : UInt8)], [], List.cons_ne_nil _ []⟩
  | wstring => exact ⟨[(0 : Int)], [], List.cons_ne_nil _ []⟩
  | vector t => exact ⟨[t.init fun n => 0#n], [], List.cons_ne_nil _ []⟩
  | map k v => exact ⟨[(k.init fun n => 0#n, v.init fun n => 0#n)], [], List.cons_ne_nil _ []⟩

namespace CIStream

/-! ## The stream behind a value -/

/-- The size of a container. -/
def size (s : CIStream) : Int := (readInt 4 0 s).1.toInt

/-- The stream behind it. -/
def afterSize (s : CIStream) : CIStream := (readInt 4 0 s).2

/-- A number of steps. -/
def steps (next : CIStream → Option CIStream) : Nat → CIStream → Option CIStream
  | 0, s => some s
  | n + 1, s => (next s).bind (steps next n)

/-- The stream behind a value, where `resize` does not throw. -/
def behind : Ty → CIStream → Option CIStream
  | .int _ w, s => some (readInt w.bytes 0 s).2
  | .bool, s => some (readInt 4 0 s).2
  | .enum _, s => some (readInt 4 0 s).2
  | .string, s => some s.skipString
  | .wstring, s => some s.skipString
  | .vector t, s => if s.size < 0 then none else steps (behind t) s.size.toNat s.afterSize
  | .map k v, s => steps (fun s => (behind k s).bind (behind v)) s.size.toNat s.afterSize

/-- The payload holds a value. -/
def Complete (t : Ty) (s : CIStream) : Prop := ∃ s', behind t s = some s' ∧ s'.mError = false

/-! ## Resizes -/

/-- A call of `resize`: the elements, their number, and the stream that they are read from. -/
structure Resize where
  elem : Ty
  size : Int
  stream : CIStream

/-- The rest of the payload could encode as many elements. -/
def Resize.Fits (r : Resize) : Prop :=
  0 ≤ r.size ∧ (r.size = 0 ∨
    r.stream.mOffset + padding r.stream.mOffset r.elem.least + r.size.toNat * r.elem.least ≤
      r.stream.mData.length)

/-- The calls in a number of steps. -/
def resizesEach (found : CIStream → List Resize) (next : CIStream → Option CIStream) :
    Nat → CIStream → List Resize
  | 0, _ => []
  | n + 1, s => found s ++ ((next s).map (resizesEach found next n)).getD []

/-- The calls of `resize` while a value is read. -/
def resizes : Ty → CIStream → List Resize
  | .vector t, s => ⟨t, s.size, s.afterSize⟩ ::
      if s.size < 0 then [] else resizesEach (resizes t) (behind t) s.size.toNat s.afterSize
  | .map k v, s =>
      resizesEach (fun s => resizes k s ++ ((behind k s).map (resizes v)).getD [])
        (fun s => (behind k s).bind (behind v)) s.size.toNat s.afterSize
  | _, _ => []

/-- The vector `v` is read over safely: nothing is resized to more elements than the rest of the
payload could encode, and if the payload does not hold a vector, an error is reported and `v`
unchanged. -/
structure DecodesSafely (junk : (n : Nat) → BitVec n) (t : Ty) (v : List t.Val) (s : CIStream) :
    Prop where
  resizes : ∀ r ∈ resizes (.vector t) s, r.Fits
  truncated : ¬ Complete (.vector t) s →
    ∃ s', read junk (.vector t) v s = some (v, s') ∧ s'.mError = true

/-! ## Partial updates -/

/-- The streams behind the words that a partial update begins with. -/
def afterType (s : CIStream) : CIStream := (readInt 4 0 s).2

def afterPosition (s : CIStream) : CIStream := (readInt 2 0 s.afterType).2

def afterCount (s : CIStream) : CIStream := (readInt 2 0 s.afterPosition).2

/-- What a partial update says about itself. -/
structure Header where
  type : BitVec 32
  position : Int
  count : Int
  size : Int

/-- The numbers on the wire. -/
def header (s : CIStream) : Header where
  type := (readInt 4 0 s).1
  position := (readInt 2 0 s.afterType).1.toInt
  count := (readInt 2 0 s.afterPosition).1.toInt
  size := s.afterCount.size

/-- The update stays inside a vector of length `len`. -/
def Header.Inside (h : Header) (len : Nat) : Prop :=
  if h.type = UpdateType.UPDATE_INSERT.bits then 0 ≤ h.position ∧ h.position ≤ len
  else if h.type = UpdateType.UPDATE_REPLACE.bits then
    0 ≤ h.position ∧ h.position + h.size ≤ len
  else if h.type = UpdateType.UPDATE_DELETE.bits then
    0 ≤ h.position ∧ 0 ≤ h.count ∧ h.position + h.count ≤ len
  else True

/-- The update is applied to `v` safely: nothing is resized to more elements than the rest of the
payload could encode, nothing is accessed outside of `v`, and if the payload is truncated or the
numbers do not fit (the vector, or each other as `agrees` says), an error is reported and `v`
unchanged. -/
structure AppliesSafely (agrees : Header → Prop) (junk : (n : Nat) → BitVec n) (t : Ty)
    (v : List t.Val) (s : CIStream) : Prop where
  resizes : ∀ r ∈ resizes (.vector t) s.afterCount, r.Fits
  inside : readPartialAttribute junk v s ≠ none
  refused : ¬ (Complete (.vector t) s.afterCount ∧ s.header.Inside v.length ∧ agrees s.header) →
    ∃ args s', readPartialAttribute junk v s = some ((v, args), s') ∧ s'.mError = true

/-- A truncated update that changes no vector of length `len`: it is of no kind, or deletes
nothing, or it is as good as the same update with no elements, which changes nothing. -/
def Harmless (len : Nat) (s : CIStream) : Prop :=
  s.afterType.mError = false ∧
    if s.header.type = UpdateType.UPDATE_COMPLETE.bits then
      s.afterCount.afterSize.mError = true ∧ len = 0
    else if s.header.type = UpdateType.UPDATE_INSERT.bits ∨
        s.header.type = UpdateType.UPDATE_REPLACE.bits then
      s.afterPosition.mError = false ∧ s.afterCount.afterSize.mError = true ∧
        0 ≤ s.header.position ∧ s.header.position ≤ len
    else if s.header.type = UpdateType.UPDATE_DELETE.bits then
      s.afterCount.mError = false ∧ 0 ≤ s.header.position ∧ s.header.position ≤ len ∧
        s.header.count = 0
    else True

/-- The partial updates that are applied safely to every vector of length `len`. -/
def SafeUpdate (agrees : Header → Prop) (t : Ty) (len : Nat) (s : CIStream) : Prop :=
  (Complete (.vector t) s.afterCount ∧ s.header.Inside len ∧ agrees s.header) ∨
    (¬ Complete (.vector t) s.afterCount ∧
      (∀ r ∈ resizes (.vector t) s.afterCount, r.Fits) ∧ Harmless len s)

/-! ## Integers -/

variable {s : CIStream}

/-- How far an integer is read does not depend on the variable. -/
theorem snd_readInt {n : Nat} (old : BitVec (8 * n)) : (readInt n old s).2 = (readInt n 0 s).2 := by
  unfold readInt
  split
  · rfl
  · dsimp only
    split <;> rfl

/-- A value that is read does not depend on what the variable held. -/
theorem fst_readInt {n : Nat} (old : BitVec (8 * n)) (h : (readInt n 0 s).2.mError = false) :
    (readInt n old s).1 = (readInt n 0 s).1 := by
  unfold readInt at h ⊢
  split
  · next herror => rw [if_pos herror, herror] at h; cases h
  · next hok =>
    rw [if_neg hok] at h
    dsimp only at h ⊢
    split
    · rfl
    · next hshort => rw [if_neg hshort] at h; cases h

/-- A read that fails leaves the variable. -/
theorem fst_readInt_of_mError {n : Nat} (old : BitVec (8 * n))
    (h : (readInt n 0 s).2.mError = true) : (readInt n old s).1 = old := by
  unfold readInt at h ⊢
  split
  · rfl
  · next hok =>
    rw [if_neg hok] at h
    dsimp only at h ⊢
    split
    · next hfits => rw [if_pos hfits] at h; exact absurd h hok
    · rfl

/-- In a stream that has failed the size is 0. -/
theorem size_of_mError (h : s.afterSize.mError = true) : s.size = 0 := by
  rw [size, fst_readInt_of_mError 0 h]
  rfl

/-- A stream that is right behind an integer was right before. -/
theorem mError_of_after {n : Nat} (h : (readInt n 0 s).2.mError = false) : s.mError = false :=
  Bool.eq_false_iff.mpr fun herror => by
    rw [mError_readInt 0 herror] at h
    cases h

/-! ## Reads and streams -/

/-- The loop over the elements of a vector goes one step for each. -/
theorem snd_readEach {α : Type} {rd : α → CIStream → Option (α × CIStream)}
    {next : CIStream → Option CIStream} (h : ∀ x s, (rd x s).map Prod.snd = next s) (xs : List α)
    (s : CIStream) : (readEach rd xs s).map Prod.snd = steps next xs.length s := by
  induction xs generalizing s with
  | nil => rfl
  | cons x xs ih =>
      rw [readEach, List.length_cons, steps, ← h x s]
      cases rd x s with
      | none => rfl
      | some r =>
          rw [Option.map_some, Option.bind_some, ← ih r.2]
          cases hrest : readEach rd xs r.2 <;> simp [hrest]

/-- Every variable of the list is read into. -/
theorem length_readEach {α : Type} {rd : α → CIStream → Option (α × CIStream)} {xs ys : List α}
    {s s' : CIStream} (h : readEach rd xs s = some (ys, s')) : ys.length = xs.length := by
  induction xs generalizing ys s with
  | nil =>
      obtain ⟨rfl, -⟩ := Prod.mk.inj (Option.some.inj h)
      rfl
  | cons x xs ih =>
      simp only [readEach, Option.bind_eq_bind, Option.bind_eq_some_iff] at h
      obtain ⟨r, -, ⟨rest, s''⟩, hrest, heq⟩ := h
      obtain ⟨rfl, rfl⟩ := Prod.mk.inj (Option.some.inj heq)
      rw [List.length_cons, List.length_cons, ih hrest]

/-- How far the entries of a map are read does not depend on the variables. -/
theorem snd_readEntries {α β : Type} {lt : α → α → Bool}
    {rk : α → CIStream → Option (α × CIStream)} {rv : β → CIStream → Option (β × CIStream)}
    {nextKey nextValue : CIStream → Option CIStream}
    (hk : ∀ x s, (rk x s).map Prod.snd = nextKey s)
    (hv : ∀ x s, (rv x s).map Prod.snd = nextValue s) (n : Nat) (key : α) (value : β)
    (m : List (α × β)) (s : CIStream) :
    (readEntries lt rk rv n key value m s).map Prod.snd =
      steps (fun s => (nextKey s).bind nextValue) n s := by
  induction n generalizing key value m s with
  | zero => rfl
  | succ n ih =>
      rw [readEntries, steps, ← hk key s]
      cases rk key s with
      | none => rfl
      | some r =>
          simp only [Option.bind_eq_bind, Option.bind_some, Option.map_some, ← hv value r.2]
          cases rv value r.2 with
          | none => rfl
          | some r' => exact ih _ _ _ r'.2

/-- A vector: its size, and as many elements. -/
theorem read_vector (junk : (n : Nat) → BitVec n) (t : Ty) (old : List t.Val) (s : CIStream) :
    read junk (.vector t) old s =
      if s.size < 0 then none
      else readEach (read junk t) (resize (t.init fun n => 0#n) s.size.toNat old) s.afterSize := by
  have hnat : ¬ s.size < 0 → (readInt 4 0 s).1.toNat = s.size.toNat := by
    have hcond := BitVec.toInt_eq_toNat_cond (readInt 4 0 s).1
    rw [size]
    split at hcond <;> omega
  rw [read]
  change (if s.size < 0 then none else
    readEach (read junk t) (resize _ (readInt 4 0 s).1.toNat old) s.afterSize) = _
  split
  · rfl
  · next hneg => rw [hnat hneg]

/-- Where a read leaves the stream does not depend on the variable. -/
theorem snd_read (junk : (n : Nat) → BitVec n) (t : Ty) (old : t.Val) (s : CIStream) :
    (read junk t old s).map Prod.snd = behind t s := by
  induction t generalizing s with
  | int signed w => exact congrArg some (snd_readInt old)
  | bool => rfl
  | enum signed => exact congrArg some (@snd_readInt s 4 old)
  | string => exact congrArg some (readString_snd old s)
  | wstring => exact congrArg some (readWString_snd old s)
  | vector t ih =>
      rw [read_vector, behind]
      split
      · rfl
      · rw [snd_readEach (fun x s => ih x s), length_resize]
  | map k v ihk ihv => exact snd_readEntries (fun x s => ihk x s) (fun x s => ihv x s) _ _ _ _ _

/-- A vector that is read has the size on the wire. -/
theorem length_read {junk : (n : Nat) → BitVec n} {t : Ty} {old v : List t.Val} {s s' : CIStream}
    (h : read junk (.vector t) old s = some (v, s')) : (v.length : Int) = s.size := by
  rw [read_vector] at h
  split at h
  · cases h
  · next hneg =>
    rw [length_readEach h, length_resize]
    exact Int.toNat_of_nonneg (Int.not_lt.mp hneg)

/-- Where the reader gets behind a value, there is one. -/
theorem exists_read {junk : (n : Nat) → BitVec n} {t : Ty} (old : t.Val) {s s' : CIStream}
    (h : behind t s = some s') : ∃ v, read junk t old s = some (v, s') := by
  rw [← snd_read junk t old] at h
  obtain ⟨⟨v, s''⟩, hread, rfl⟩ := Option.map_eq_some_iff.mp h
  exact ⟨v, hread⟩

/-- Where there is a value, the reader gets behind it. -/
theorem behind_of_read {junk : (n : Nat) → BitVec n} {t : Ty} {old v : t.Val} {s s' : CIStream}
    (h : read junk t old s = some (v, s')) : behind t s = some s' := by
  rw [← snd_read junk t old, h]
  rfl

/-! ## Errors -/

/-- A stream with an error stays where it is. -/
theorem behind_of_mError (t : Ty) (h : s.mError = true) : behind t s = some s := by
  have hint (n : Nat) : (readInt n 0 s).2 = s := congrArg Prod.snd (readInt_of_mError 0 h)
  have hsize : s.size = 0 := size_of_mError (by rw [afterSize, hint]; exact h)
  cases t with
  | int signed w => exact congrArg some (hint _)
  | bool => exact congrArg some (hint 4)
  | enum signed => exact congrArg some (hint 4)
  | string => exact congrArg some (skipString_of_mError h)
  | wstring => exact congrArg some (skipString_of_mError h)
  | vector t =>
      rw [behind, hsize, if_neg (Int.lt_irrefl 0)]
      exact congrArg some (hint 4)
  | map k v =>
      rw [behind, hsize]
      exact congrArg some (hint 4)

/-- A stream that has a value is right. -/
theorem Complete.mError {t : Ty} (h : Complete t s) : s.mError = false := by
  refine Bool.eq_false_iff.mpr fun herror => ?_
  obtain ⟨s', hs', hok⟩ := h
  rw [behind_of_mError t herror] at hs'
  rw [← Option.some.inj hs', herror] at hok
  cases hok

/-- What a number of steps passes without an error has at least the size of as many values. -/
structure Passes (least n : Nat) (s s' : CIStream) : Prop where
  mData : s'.mData = s.mData
  offset : s.mOffset + padding s.mOffset least + n * least ≤ s'.mOffset
  inside : s'.mOffset ≤ s'.mData.length

/-- An integer that is read takes its bytes. -/
theorem passes_readInt {n : Nat} (h : (readInt n 0 s).2.mError = false) :
    Passes n 1 s (readInt n 0 s).2 := by
  obtain ⟨herror, heq⟩ | ⟨_, hfits, heq⟩ | ⟨_, _, heq⟩ := readInt_cases n 0 s
  · rw [heq, herror] at h
    cases h
  · rw [heq]
    exact ⟨rfl, by simp, hfits⟩
  · rw [heq] at h
    cases h

/-- A string that is read takes at least its length word. -/
theorem passes_skipString (h : s.skipString.mError = false) : Passes 4 1 s s.skipString := by
  unfold skipString at h ⊢
  have hword : (readInt 4 0 s).2.mError = false → Passes 4 1 s (readInt 4 0 s).2 := passes_readInt
  generalize readInt 4 0 s = r at h hword ⊢
  obtain ⟨n, s'⟩ := r
  dsimp only at h hword ⊢
  split at h
  · next hcond =>
    split at h
    · next hle =>
      have hpass := hword (Bool.eq_false_iff.mpr hcond.1)
      have hoffset := hpass.offset
      have hinside := hpass.inside
      rw [if_pos hcond, if_pos hle]
      exact ⟨hpass.mData, by dsimp only; omega, by dsimp only; omega⟩
    · cases h
  · next hcond =>
    rw [if_neg hcond]
    exact hword h

section Steps

variable {next : CIStream → Option CIStream} {n : Nat} {s' : CIStream}

/-- Behind an error the stream stays where it is. -/
theorem steps_of_mError (hnext : ∀ s, s.mError = true → next s = some s) (h : s.mError = true) :
    steps next n s = some s := by
  induction n with
  | zero => rfl
  | succ n ih => rw [steps, hnext s h, Option.bind_some, ih]

/-- The first of a number of steps that end without an error. -/
theorem exists_step (hnext : ∀ s, s.mError = true → next s = some s)
    (h : steps next (n + 1) s = some s') (hok : s'.mError = false) :
    ∃ s₁, next s = some s₁ ∧ s₁.mError = false ∧ steps next n s₁ = some s' := by
  obtain ⟨s₁, hs₁, hrest⟩ := Option.bind_eq_some_iff.mp h
  refine ⟨s₁, hs₁, Bool.eq_false_iff.mpr fun herror => ?_, hrest⟩
  rw [steps_of_mError hnext herror] at hrest
  rw [Option.some.inj hrest, hok] at herror
  cases herror

/-- Every element that is read takes its bytes. -/
theorem passes_steps {least : Nat} (hnext : ∀ s, s.mError = true → next s = some s)
    (hpass : ∀ s s', next s = some s' → s'.mError = false → Passes least 1 s s')
    (h : steps next (n + 1) s = some s') (hok : s'.mError = false) :
    Passes least (n + 1) s s' := by
  induction n generalizing s with
  | zero =>
      obtain ⟨s₁, hs₁, -, hrest⟩ := exists_step hnext h hok
      obtain rfl := Option.some.inj hrest
      exact hpass s s₁ hs₁ hok
  | succ n ih =>
      obtain ⟨s₁, hs₁, hok₁, hrest⟩ := exists_step hnext h hok
      have hfirst := hpass s s₁ hs₁ hok₁
      have hothers := ih hrest
      refine ⟨hothers.mData.trans hfirst.mData, ?_, hothers.inside⟩
      have hoffset := hfirst.offset
      have hoffset' := hothers.offset
      rw [Nat.succ_mul (n + 1)]
      omega

/-- A container passes its size at least. -/
theorem passes_container (least : Nat) (hnext : ∀ s, s.mError = true → next s = some s)
    (hpass : ∀ s s', next s = some s' → s'.mError = false → Passes least 1 s s')
    (h : steps next n s.afterSize = some s') (hok : s'.mError = false) : Passes 4 1 s s' := by
  cases n with
  | zero =>
      obtain rfl := Option.some.inj h
      exact passes_readInt hok
  | succ n =>
      obtain ⟨s₁, hs₁, hok₁, -⟩ := exists_step hnext h hok
      have hsize : s.afterSize.mError = false := by
        refine Bool.eq_false_iff.mpr fun herror => ?_
        rw [hnext _ herror] at hs₁
        rw [Option.some.inj hs₁, hok₁] at herror
        cases herror
      have hword := passes_readInt hsize
      have hothers := passes_steps hnext hpass h hok
      refine ⟨hothers.mData.trans hword.mData, ?_, hothers.inside⟩
      have hoffset := hword.offset
      have hoffset' := hothers.offset
      rw [afterSize] at hoffset'
      omega

end Steps

/-- Nor does a pair move it. -/
theorem bind_of_mError (k v : Ty) {s : CIStream} (h : s.mError = true) :
    (behind k s).bind (behind v) = some s := by
  rw [behind_of_mError k h, Option.bind_some, behind_of_mError v h]

/-- A value that the payload holds takes as many bytes as its type needs. -/
theorem passes_behind (t : Ty) {s s' : CIStream} (h : behind t s = some s')
    (hok : s'.mError = false) : Passes t.least 1 s s' := by
  induction t generalizing s s' with
  | int signed w =>
      obtain rfl := Option.some.inj h
      exact passes_readInt hok
  | bool =>
      obtain rfl := Option.some.inj h
      exact @passes_readInt s 4 hok
  | enum signed =>
      obtain rfl := Option.some.inj h
      exact @passes_readInt s 4 hok
  | string =>
      obtain rfl := Option.some.inj h
      exact passes_skipString hok
  | wstring =>
      obtain rfl := Option.some.inj h
      exact passes_skipString hok
  | vector t ih =>
      rw [behind] at h
      split at h
      · cases h
      · exact passes_container t.least (fun s => behind_of_mError t) (fun s s' => ih) h hok
  | map k v ihk ihv =>
      refine passes_container k.least (fun s => bind_of_mError k v) (fun s s' hs' hok' => ?_) h hok
      obtain ⟨s₁, hs₁, hv⟩ := Option.bind_eq_some_iff.mp hs'
      have hkey := ihk hs₁ (Complete.mError ⟨s', hv, hok'⟩)
      have hvalue := ihv hv hok'
      refine ⟨hvalue.mData.trans hkey.mData, ?_, hvalue.inside⟩
      exact Nat.le_trans hkey.offset (Nat.le_trans (by omega) hvalue.offset)

/-! ## Resizes of a value -/

/-- In a value that is complete every container that is found fits. -/
theorem fits_resizesEach {found : CIStream → List Resize} {next : CIStream → Option CIStream}
    (hnext : ∀ s, s.mError = true → next s = some s)
    (hfound : ∀ s s', next s = some s' → s'.mError = false → ∀ r ∈ found s, r.Fits) {n : Nat}
    {s s' : CIStream} (h : steps next n s = some s') (hok : s'.mError = false) :
    ∀ r ∈ resizesEach found next n s, r.Fits := by
  induction n generalizing s with
  | zero => exact fun r hr => nomatch hr
  | succ n ih =>
      obtain ⟨s₁, hs₁, hok₁, hrest⟩ := exists_step hnext h hok
      rw [resizesEach, hs₁]
      exact List.forall_mem_append.mpr ⟨hfound s s₁ hs₁ hok₁, ih hrest⟩

/-- A value that the payload holds needs no larger vectors. -/
theorem Complete.fits {t : Ty} {s : CIStream} (h : Complete t s) : ∀ r ∈ resizes t s, r.Fits := by
  obtain ⟨s', hs', hok⟩ := h
  induction t generalizing s s' with
  | vector t ih =>
      rw [behind] at hs'
      split at hs'
      · cases hs'
      · next hneg =>
        rw [resizes, if_neg hneg]
        refine List.forall_mem_cons.mpr ⟨⟨Int.not_lt.mp hneg, ?_⟩, ?_⟩
        · dsimp only
          cases hn : s.size.toNat with
          | zero => exact Or.inl (by omega)
          | succ n =>
              rw [hn] at hs'
              have hpass := passes_steps (fun s => behind_of_mError t)
                (fun s s' => passes_behind t) hs' hok
              exact Or.inr (Nat.le_trans hpass.offset (hpass.mData ▸ hpass.inside))
        · exact fits_resizesEach (fun s => behind_of_mError t) (fun s s' => ih s') hs' hok
  | map k v ihk ihv =>
      refine fits_resizesEach (fun s => bind_of_mError k v) (fun s s' hbind hok' => ?_) hs' hok
      obtain ⟨s₁, hs₁, hv⟩ := Option.bind_eq_some_iff.mp hbind
      rw [hs₁]
      exact List.forall_mem_append.mpr
        ⟨ihk s₁ hs₁ (Complete.mError ⟨s', hv, hok'⟩), ihv s' hv hok'⟩
  | int signed w => exact fun r hr => nomatch hr
  | bool => exact fun r hr => nomatch hr
  | enum signed => exact fun r hr => nomatch hr
  | string => exact fun r hr => nomatch hr
  | wstring => exact fun r hr => nomatch hr

/-- Containers that fit are read to their end. -/
theorem exists_steps {found : CIStream → List Resize} {next : CIStream → Option CIStream}
    (hnext : ∀ s, (∀ r ∈ found s, r.Fits) → ∃ s', next s = some s') {n : Nat} {s : CIStream}
    (h : ∀ r ∈ resizesEach found next n s, r.Fits) : ∃ s', steps next n s = some s' := by
  induction n generalizing s with
  | zero => exact ⟨s, rfl⟩
  | succ n ih =>
      rw [resizesEach, List.forall_mem_append] at h
      obtain ⟨s₁, hs₁⟩ := hnext s h.1
      rw [hs₁] at h
      rw [steps, hs₁]
      exact ih h.2

/-- Where all vectors fit, `resize` does not throw. -/
theorem exists_behind (t : Ty) {s : CIStream} (h : ∀ r ∈ resizes t s, r.Fits) :
    ∃ s', behind t s = some s' := by
  induction t generalizing s with
  | vector t ih =>
      rw [resizes, List.forall_mem_cons] at h
      have hneg : ¬ s.size < 0 := Int.not_lt.mpr h.1.1
      rw [if_neg hneg] at h
      rw [behind, if_neg hneg]
      exact exists_steps (fun s => ih) h.2
  | map k v ihk ihv =>
      refine exists_steps (fun s hfits => ?_) h
      obtain ⟨hkey, hvalue⟩ := List.forall_mem_append.mp hfits
      obtain ⟨s₁, hs₁⟩ := ihk hkey
      rw [hs₁] at hvalue ⊢
      exact ihv hvalue
  | _ => exact ⟨_, rfl⟩

/-! ## Decoding -/

/-- A payload is decoded safely into every vector exactly when it holds a vector: otherwise no
vector of another size is left. -/
theorem decodesSafely_iff (t : Ty) (s : CIStream) :
    (∀ junk v, DecodesSafely junk t v s) ↔ Complete (.vector t) s := by
  constructor
  · intro h
    refine Classical.byContradiction fun hnot => ?_
    have hlength (v : List t.Val) : (v.length : Int) = s.size := by
      obtain ⟨s', hread, -⟩ := (h (fun n => 0#n) v).truncated hnot
      exact length_read hread
    have hnil := hlength []
    have hone := hlength [t.init fun n => 0#n]
    rw [List.length_nil] at hnil
    rw [List.length_singleton] at hone
    omega
  · exact fun h junk v => ⟨h.fits, fun hnot => absurd h hnot⟩

/-! ## Updates -/

/-- The `switch` of `readPartialAttribute`. -/
def applyUpdate {α : Type} (h : Header) (vec v : List α) : Option (List α) :=
  if h.type = UpdateType.UPDATE_COMPLETE.bits then some vec
  else if h.type = UpdateType.UPDATE_INSERT.bits then insertAt h.position vec v
  else if h.type = UpdateType.UPDATE_REPLACE.bits then copyTo h.position vec v
  else if h.type = UpdateType.UPDATE_DELETE.bits then eraseRange h.position h.count v
  else some v

/-- The local variables of `readPartialAttribute`. -/
def locals (junk : (n : Nat) → BitVec n) (s : CIStream) : Header where
  type := (readInt 4 (junk 32) s).1
  position := (readInt 2 (junk 16) s.afterType).1.toInt
  count := (readInt 2 (junk 16) s.afterPosition).1.toInt
  size := s.afterCount.size

section Locals

variable {junk : (n : Nat) → BitVec n} {t : Ty} {v : List t.Val} {s s' : CIStream}

/-- The value first, then the update with the header that was read. -/
theorem readPartialAttribute_eq (junk : (n : Nat) → BitVec n) (v : List t.Val) (s : CIStream) :
    readPartialAttribute junk v s =
      (read junk (.vector t) [] s.afterCount).bind fun r =>
        (applyUpdate (locals junk s) r.1 v).map fun u =>
          ((u, (locals junk s).type, ⟨⟨(readInt 2 (junk 16) s.afterType).1⟩⟩,
            ⟨⟨(readInt 2 (junk 16) s.afterPosition).1⟩⟩), r.2) := by
  have hcount : (readInt 2 (junk 16) s.afterPosition).2 = s.afterCount := @snd_readInt _ 2 _
  have hposition : (readInt 2 (junk 16) s.afterType).2 = s.afterPosition := @snd_readInt _ 2 _
  have htype : (readInt 4 (junk 32) s).2 = s.afterType := @snd_readInt _ 4 _
  have htypeWord {β : Type} (f : BitVec 32 × CIStream → Option β) :
      (read junk (.enum true) (junk 32) s).bind f = f ((readInt 4 (junk 32) s).1, s.afterType) :=
    congrArg (fun x => f ((readInt 4 (junk 32) s).1, x)) htype
  have hpositionWord {β : Type} (f : BitVec 16 × CIStream → Option β) :
      (read junk (.int true .w16) (junk 16) s.afterType).bind f =
        f ((readInt 2 (junk 16) s.afterType).1, s.afterPosition) :=
    congrArg (fun x => f ((readInt 2 (junk 16) s.afterType).1, x)) hposition
  have hcountWord {β : Type} (f : BitVec 16 × CIStream → Option β) :
      (read junk (.int true .w16) (junk 16) s.afterPosition).bind f =
        f ((readInt 2 (junk 16) s.afterPosition).1, s.afterCount) :=
    congrArg (fun x => f ((readInt 2 (junk 16) s.afterPosition).1, x)) hcount
  unfold readPartialAttribute
  refine (htypeWord _).trans ?_
  refine (hpositionWord _).trans ?_
  refine (hcountWord _).trans ?_
  change (read junk (.vector t) [] s.afterCount).bind _ = _
  refine congrArg _ (funext fun r => ?_)
  rw [Option.map_eq_bind, applyUpdate]
  by_cases hcomplete : (locals junk s).type = UpdateType.UPDATE_COMPLETE.bits
  · rw [if_pos hcomplete]
    exact if_pos hcomplete
  rw [if_neg hcomplete]
  refine (if_neg hcomplete).trans ?_
  by_cases hinsert : (locals junk s).type = UpdateType.UPDATE_INSERT.bits
  · rw [if_pos hinsert]
    exact if_pos hinsert
  rw [if_neg hinsert]
  refine (if_neg hinsert).trans ?_
  by_cases hreplace : (locals junk s).type = UpdateType.UPDATE_REPLACE.bits
  · rw [if_pos hreplace]
    exact if_pos hreplace
  rw [if_neg hreplace]
  refine (if_neg hreplace).trans ?_
  by_cases hdelete : (locals junk s).type = UpdateType.UPDATE_DELETE.bits
  · rw [if_pos hdelete]
    exact if_pos hdelete
  · rw [if_neg hdelete]
    exact if_neg hdelete

/-- An error at the type is an error at the position. -/
theorem mError_afterPosition (h : s.afterType.mError = true) : s.afterPosition.mError = true :=
  mError_readInt 0 h

/-- A type that was read is the one in the stream. -/
theorem type_locals (h : s.afterType.mError = false) : (locals junk s).type = s.header.type :=
  @fst_readInt s 4 (junk 32) h

/-- A position that was read is the one in the stream. -/
theorem position_locals (h : s.afterPosition.mError = false) :
    (locals junk s).position = s.header.position :=
  congrArg BitVec.toInt (@fst_readInt s.afterType 2 (junk 16) h)

/-- A count that was read is the one in the stream. -/
theorem count_locals (h : s.afterCount.mError = false) : (locals junk s).count = s.header.count :=
  congrArg BitVec.toInt (@fst_readInt s.afterPosition 2 (junk 16) h)

/-- Numbers that are not read are whatever the variables held. -/
theorem position_locals_of_mError (h : s.afterPosition.mError = true) :
    (locals junk s).position = (junk 16).toInt :=
  congrArg BitVec.toInt (@fst_readInt_of_mError s.afterType 2 (junk 16) h)

/-- Where no count was read it is what the variable held. -/
theorem count_locals_of_mError (h : s.afterCount.mError = true) :
    (locals junk s).count = (junk 16).toInt :=
  congrArg BitVec.toInt (@fst_readInt_of_mError s.afterPosition 2 (junk 16) h)

/-- A header that was read is the one in the stream. -/
theorem locals_eq (h : s.afterCount.mError = false) : locals junk s = s.header := by
  have hposition : s.afterPosition.mError = false := mError_of_after h
  have htype : s.afterType.mError = false := mError_of_after hposition
  rw [header, locals, Header.mk.injEq]
  exact ⟨type_locals htype, position_locals hposition, count_locals h, rfl⟩

/-- An update of the right size is applied exactly when it stays inside the vector. -/
theorem applyUpdate_ne_none {α : Type} {h : Header} {vec v : List α} (hsize : h.size = vec.length) :
    applyUpdate h vec v ≠ none ↔ h.Inside v.length := by
  rw [Header.Inside, applyUpdate]
  by_cases hinsert : h.type = UpdateType.UPDATE_INSERT.bits
  · rw [if_pos hinsert, if_neg (by rw [hinsert]; decide), if_pos hinsert, insertAt]
    split <;> simp [*]
  rw [if_neg hinsert, if_neg hinsert]
  by_cases hreplace : h.type = UpdateType.UPDATE_REPLACE.bits
  · rw [if_pos hreplace, if_neg (by rw [hreplace]; decide), if_pos hreplace, copyTo, hsize]
    split <;> simp [*]
  rw [if_neg hreplace, if_neg hreplace]
  by_cases hdelete : h.type = UpdateType.UPDATE_DELETE.bits
  · rw [if_pos hdelete, if_neg (by rw [hdelete]; decide), if_pos hdelete, eraseRange]
    split <;> simp [*]
  · rw [if_neg hdelete, if_neg hdelete]
    split <;> simp

/-- A run of `readPartialAttribute`. -/
theorem readPartialAttribute_eq_some {u : List t.Val} {args : BitVec 32 × Int16 × Int16}
    (h : readPartialAttribute junk v s = some ((u, args), s')) :
    ∃ vec, read junk (.vector t) [] s.afterCount = some (vec, s') ∧
      applyUpdate (locals junk s) vec v = some u := by
  rw [readPartialAttribute_eq] at h
  obtain ⟨⟨vec, s''⟩, hvec, h⟩ := Option.bind_eq_some_iff.mp h
  obtain ⟨u', hu, heq⟩ := Option.map_eq_some_iff.mp h
  obtain ⟨hargs, rfl⟩ := Prod.mk.inj heq
  obtain ⟨rfl, -⟩ := Prod.mk.inj hargs
  exact ⟨vec, hvec, hu⟩

end Locals

/-! ## Complete updates that arrive -/

section Arrived

variable {agrees : Header → Prop} {junk : (n : Nat) → BitVec n} {t : Ty} {v : List t.Val}

/-- A complete update inside the vector is applied. -/
theorem appliesSafely_of_complete (hcomplete : Complete (.vector t) s.afterCount)
    (hinside : s.header.Inside v.length) (hagrees : agrees s.header) :
    AppliesSafely agrees junk t v s where
  resizes := hcomplete.fits
  inside := by
    have hok := hcomplete.mError
    obtain ⟨s', hs', -⟩ := hcomplete
    obtain ⟨vec, hvec⟩ := @exists_read junk (.vector t) [] _ _ hs'
    have happly := (applyUpdate_ne_none (length_read hvec).symm).mpr hinside
    rw [readPartialAttribute_eq, hvec, Option.bind_some, locals_eq hok, ne_eq,
      Option.map_eq_none_iff]
    exact happly
  refused := fun hnot => absurd ⟨hcomplete, hinside, hagrees⟩ hnot

/-- A vector that arrives leaves no error, so its update has to fit. -/
theorem AppliesSafely.inside_of_complete (h : AppliesSafely agrees junk t v s)
    (hcomplete : Complete (.vector t) s.afterCount) :
    s.header.Inside v.length ∧ agrees s.header := by
  refine Classical.byContradiction fun hnot => ?_
  obtain ⟨args, s', hrun, herror⟩ := h.refused fun hfits => hnot hfits.2
  obtain ⟨vec, hvec, -⟩ := readPartialAttribute_eq_some hrun
  obtain ⟨s'', hs'', hok⟩ := hcomplete
  rw [behind_of_read hvec] at hs''
  rw [Option.some.inj hs'', hok] at herror
  cases herror

end Arrived

/-! ## Updates that are cut off -/

/-- Where a vector breaks off that has no elements, its size is missing. -/
theorem mError_afterSize {t : Ty} (hnot : ¬ Complete (.vector t) s) (hsize : s.size = 0) :
    s.afterSize.mError = true := by
  refine eq_true_of_ne_false fun hok => hnot ⟨s.afterSize, ?_, hok⟩
  rw [behind, hsize]
  rfl

section Elements

variable {α : Type} {position count : Int} {vec v : List α}

/-- An insertion that changes nothing inserts nothing, inside the vector. -/
theorem insertAt_eq_self (h : insertAt position vec v = some v) :
    0 ≤ position ∧ position ≤ v.length ∧ vec = [] := by
  rw [insertAt] at h
  split at h
  · next hinside =>
    have hlength := congrArg List.length (Option.some.inj h)
    simp only [List.length_append, List.length_take, List.length_drop] at hlength
    exact ⟨hinside.1, hinside.2, List.eq_nil_of_length_eq_zero (by omega)⟩
  · cases h

/-- A deletion that changes nothing deletes nothing, inside the vector. -/
theorem eraseRange_eq_self (h : eraseRange position count v = some v) :
    0 ≤ position ∧ position ≤ v.length ∧ count = 0 := by
  rw [eraseRange] at h
  split at h
  · next hinside =>
    obtain ⟨hposition, hcount, hle⟩ := hinside
    have hlength := congrArg List.length (Option.some.inj h)
    simp only [List.length_append, List.length_take, List.length_drop] at hlength
    exact ⟨hposition, by omega, by omega⟩
  · cases h

/-- A replacement that changes nothing brings elements of the vector, inside it. -/
theorem copyTo_eq_self (h : copyTo position vec v = some v) :
    0 ≤ position ∧ position ≤ v.length ∧ ∀ x ∈ vec, x ∈ v := by
  rw [copyTo] at h
  split at h
  · next hinside =>
    refine ⟨hinside.1, by omega, fun x hx => ?_⟩
    rw [← Option.some.inj h]
    exact List.mem_append_left _ (List.mem_append_right _ hx)
  · cases h

/-- Nothing is inserted inside the vector. -/
theorem insertAt_nil (hlow : 0 ≤ position) (hhigh : position ≤ v.length) :
    insertAt position [] v = some v := by
  rw [insertAt, if_pos ⟨hlow, hhigh⟩, List.append_nil, List.take_append_drop]

/-- Nothing is replaced inside the vector. -/
theorem copyTo_nil (hlow : 0 ≤ position) (hhigh : position ≤ v.length) :
    copyTo position [] v = some v := by
  rw [copyTo, if_pos ⟨hlow, by simpa using hhigh⟩, List.append_nil, List.length_nil, Nat.add_zero,
    List.take_append_drop]

/-- Nothing is deleted inside the vector. -/
theorem eraseRange_zero (hlow : 0 ≤ position) (hhigh : position ≤ v.length) :
    eraseRange position 0 v = some v := by
  rw [eraseRange, if_pos ⟨hlow, Int.le_refl 0, by omega⟩, Int.toNat_zero, Nat.add_zero,
    List.take_append_drop]

/-- There are vectors of every length. -/
theorem exists_length (t : Ty) (len : Nat) : ∃ v : List t.Val, v.length = len :=
  ⟨List.replicate len (t.init fun n => 0#n), List.length_replicate⟩

/-- Elements that are in every vector of a length are none. -/
theorem eq_nil_of_forall {t : Ty} {vec : List t.Val} {len : Nat}
    (h : ∀ v : List t.Val, v.length = len → ∀ x ∈ vec, x ∈ v) : vec = [] := by
  obtain ⟨a, b, hne⟩ := t.exists_ne
  refine List.eq_nil_iff_forall_not_mem.mpr fun x hx => hne ?_
  have ha := h (List.replicate len a) List.length_replicate x hx
  have hb := h (List.replicate len b) List.length_replicate x hx
  exact (List.eq_of_mem_replicate ha).symm.trans (List.eq_of_mem_replicate hb)

end Elements

section CutOff

variable {agrees : Header → Prop} {junk : (n : Nat) → BitVec n} {t : Ty} {len : Nat}

/-- A harmless update leaves the vector, whatever the local variables hold. -/
theorem applyUpdate_of_harmless {v vec : List t.Val} {s' : CIStream} (h : Harmless v.length s)
    (hvec : read junk (.vector t) [] s.afterCount = some (vec, s')) :
    applyUpdate (locals junk s) vec v = some v := by
  have hnil (herror : s.afterCount.afterSize.mError = true) : vec = [] := by
    have hsize := length_read hvec
    rw [size_of_mError herror] at hsize
    exact List.eq_nil_of_length_eq_zero (by omega)
  obtain ⟨htype, h⟩ := h
  rw [applyUpdate, type_locals htype]
  by_cases hcomplete : s.header.type = UpdateType.UPDATE_COMPLETE.bits
  · rw [if_pos hcomplete] at h ⊢
    rw [hnil h.1, List.eq_nil_of_length_eq_zero h.2]
  rw [if_neg hcomplete] at h ⊢
  by_cases hinsert : s.header.type = UpdateType.UPDATE_INSERT.bits
  · rw [if_pos (Or.inl hinsert)] at h
    obtain ⟨hposition, herror, hlow, hhigh⟩ := h
    rw [if_pos hinsert, hnil herror, position_locals hposition]
    exact insertAt_nil hlow hhigh
  rw [if_neg hinsert]
  by_cases hreplace : s.header.type = UpdateType.UPDATE_REPLACE.bits
  · rw [if_pos (Or.inr hreplace)] at h
    obtain ⟨hposition, herror, hlow, hhigh⟩ := h
    rw [if_pos hreplace, hnil herror, position_locals hposition]
    exact copyTo_nil hlow hhigh
  rw [if_neg (not_or_intro hinsert hreplace)] at h
  rw [if_neg hreplace]
  by_cases hdelete : s.header.type = UpdateType.UPDATE_DELETE.bits
  · rw [if_pos hdelete] at h ⊢
    obtain ⟨hcount, hlow, hhigh, hzero⟩ := h
    rw [position_locals (mError_of_after hcount), count_locals hcount, hzero]
    exact eraseRange_zero hlow hhigh
  · rw [if_neg hdelete]

/-- An incomplete update that is harmless leaves the vector as it was. -/
theorem appliesSafely_of_harmless {v : List t.Val} (hnot : ¬ Complete (.vector t) s.afterCount)
    (hfits : ∀ r ∈ resizes (.vector t) s.afterCount, r.Fits) (h : Harmless v.length s) :
    AppliesSafely agrees junk t v s := by
  obtain ⟨s', hs'⟩ := exists_behind (.vector t) hfits
  obtain ⟨vec, hvec⟩ := @exists_read junk (.vector t) [] _ _ hs'
  have herror : s'.mError = true :=
    eq_true_of_ne_false fun hok => hnot ⟨s', hs', hok⟩
  have hrun := readPartialAttribute_eq junk v s
  rw [hvec, Option.bind_some, applyUpdate_of_harmless h hvec, Option.map_some] at hrun
  refine ⟨hfits, ?_, fun _ => ⟨_, s', hrun, herror⟩⟩
  rw [hrun]
  exact Option.some_ne_none _

/-- Local variables that hold the kind of an insertion and the number -1. -/
def worst (n : Nat) : BitVec n := BitVec.ofInt n (if n = 16 then -1 else 1)

/-- The worst variable holds a negative position, so one that is not negative was read. -/
theorem mError_of_position (h : 0 ≤ (locals worst s).position) : s.afterPosition.mError = false :=
  Bool.eq_false_iff.mpr fun herror => by
    rw [position_locals_of_mError herror] at h
    exact absurd h (by decide)

/-- The worst variable holds a negative count, so one that is not negative was read. -/
theorem mError_of_count (h : 0 ≤ (locals worst s).count) : s.afterCount.mError = false :=
  Bool.eq_false_iff.mpr fun herror => by
    rw [count_locals_of_mError herror] at h
    exact absurd h (by decide)

/-- Only harmless updates leave every vector where the payload is cut off. -/
theorem harmless_of_applyUpdate {vec : List t.Val} {s' : CIStream}
    (hnot : ¬ Complete (.vector t) s.afterCount)
    (hvec : read worst (.vector t) [] s.afterCount = some (vec, s'))
    (h : ∀ v : List t.Val, v.length = len → applyUpdate (locals worst s) vec v = some v) :
    Harmless len s := by
  have hnil : vec = [] → s.afterCount.afterSize.mError = true := fun heq =>
    mError_afterSize hnot (by rw [← length_read hvec, heq, List.length_nil, Int.ofNat_zero])
  obtain ⟨v₀, hlength⟩ := exists_length t len
  have htype : s.afterType.mError = false := by
    refine Bool.eq_false_iff.mpr fun herror => ?_
    have hkind : (locals worst s).type = UpdateType.UPDATE_INSERT.bits :=
      @fst_readInt_of_mError s 4 (worst 32) herror
    have hinsert := h v₀ hlength
    rw [applyUpdate, hkind, if_neg (by decide), if_pos rfl,
      position_locals_of_mError (mError_afterPosition herror)] at hinsert
    exact absurd (insertAt_eq_self hinsert).1 (by decide)
  simp only [applyUpdate, type_locals htype] at h
  refine ⟨htype, ?_⟩
  by_cases hcomplete : s.header.type = UpdateType.UPDATE_COMPLETE.bits
  · simp only [if_pos hcomplete] at h
    have heq : vec = [] := eq_nil_of_forall fun v hv x hx => Option.some.inj (h v hv) ▸ hx
    have hlen : vec.length = len := Option.some.inj (h v₀ hlength) ▸ hlength
    rw [if_pos hcomplete]
    exact ⟨hnil heq, by rw [← hlen, heq, List.length_nil]⟩
  simp only [if_neg hcomplete] at h
  rw [if_neg hcomplete]
  by_cases hinsert : s.header.type = UpdateType.UPDATE_INSERT.bits
  · simp only [if_pos hinsert] at h
    obtain ⟨hlow, hhigh, heq⟩ := insertAt_eq_self (h v₀ hlength)
    have hposition := mError_of_position hlow
    rw [position_locals hposition] at hlow hhigh
    rw [if_pos (Or.inl hinsert)]
    exact ⟨hposition, hnil heq, hlow, hlength ▸ hhigh⟩
  simp only [if_neg hinsert] at h
  by_cases hreplace : s.header.type = UpdateType.UPDATE_REPLACE.bits
  · simp only [if_pos hreplace] at h
    obtain ⟨hlow, hhigh, -⟩ := copyTo_eq_self (h v₀ hlength)
    have heq : vec = [] := eq_nil_of_forall fun v hv => (copyTo_eq_self (h v hv)).2.2
    have hposition := mError_of_position hlow
    rw [position_locals hposition] at hlow hhigh
    rw [if_pos (Or.inr hreplace)]
    exact ⟨hposition, hnil heq, hlow, hlength ▸ hhigh⟩
  simp only [if_neg hreplace] at h
  rw [if_neg (not_or_intro hinsert hreplace)]
  by_cases hdelete : s.header.type = UpdateType.UPDATE_DELETE.bits
  · simp only [if_pos hdelete] at h
    obtain ⟨hlow, hhigh, hzero⟩ := eraseRange_eq_self (h v₀ hlength)
    have hcount := mError_of_count (Int.le_of_eq hzero.symm)
    rw [position_locals (mError_of_after hcount)] at hlow hhigh
    rw [count_locals hcount] at hzero
    rw [if_pos hdelete]
    exact ⟨hcount, hlow, hlength ▸ hhigh, hzero⟩
  · rw [if_neg hdelete]
    trivial

/-- An incomplete update that is safe even for the worst variables is harmless. -/
theorem harmless_of_appliesSafely (hnot : ¬ Complete (.vector t) s.afterCount)
    (h : ∀ v : List t.Val, v.length = len → AppliesSafely agrees worst t v s) :
    Harmless len s := by
  have hrun (v : List t.Val) (hv : v.length = len) : ∃ s' vec,
      read worst (.vector t) [] s.afterCount = some (vec, s') ∧
        applyUpdate (locals worst s) vec v = some v := by
    obtain ⟨args, s', hrun, -⟩ := (h v hv).refused fun hfits => hnot hfits.1
    exact ⟨s', readPartialAttribute_eq_some hrun⟩
  obtain ⟨v₀, hlength⟩ := exists_length t len
  obtain ⟨s', vec, hvec, -⟩ := hrun v₀ hlength
  refine harmless_of_applyUpdate hnot hvec fun v hv => ?_
  obtain ⟨s'', vec', hvec', hkeep⟩ := hrun v hv
  obtain ⟨rfl, -⟩ := Prod.mk.inj (Option.some.inj (hvec.symm.trans hvec'))
  exact hkeep

end CutOff

/-- The partial updates that are applied safely to every vector of a length, whatever the local
variables hold. -/
theorem appliesSafely_iff (agrees : Header → Prop) (t : Ty) (len : Nat) (s : CIStream) :
    (∀ junk v, v.length = len → AppliesSafely agrees junk t v s) ↔ SafeUpdate agrees t len s := by
  constructor
  · intro h
    obtain ⟨v₀, hlength⟩ := exists_length t len
    by_cases hcomplete : Complete (.vector t) s.afterCount
    · have hinside := (h worst v₀ hlength).inside_of_complete hcomplete
      exact Or.inl ⟨hcomplete, hlength ▸ hinside.1, hinside.2⟩
    · exact Or.inr ⟨hcomplete, (h worst v₀ hlength).resizes,
        harmless_of_appliesSafely hcomplete (h worst)⟩
  · rintro (⟨hcomplete, hinside, hagrees⟩ | ⟨hnot, hfits, hharmless⟩) junk v rfl
    · exact appliesSafely_of_complete hcomplete hinside hagrees
    · exact appliesSafely_of_harmless hnot hfits hharmless

/-- Which payloads are decoded safely into every vector, and which are applied safely to every
vector of a length: a vector has to arrive whole, and a partial update that is cut off must not
change anything. -/
theorem hostile_iff (agrees : Header → Prop) (t : Ty) (payload : List UInt8) (len : Nat) :
    ((∀ junk v, DecodesSafely junk t v (create payload)) ↔
      Complete (.vector t) (create payload)) ∧
    ((∀ junk v, v.length = len → AppliesSafely agrees junk t v (create payload)) ↔
      SafeUpdate agrees t len (create payload)) :=
  ⟨decodesSafely_iff t (create payload), appliesSafely_iff agrees t len (create payload)⟩

/-- Four bytes that announce two billion elements, and an insertion at position 5 of an empty
vector. -/
theorem hostile_out_of_range :
    (¬ ∀ (junk : (n : Nat) → BitVec n) (t : Ty) (v : List t.Val) (payload : List UInt8),
      DecodesSafely junk t v (create payload)) ∧
    ¬ ∀ (agrees : Header → Prop) (junk : (n : Nat) → BitVec n) (t : Ty) (v : List t.Val)
      (payload : List UInt8), AppliesSafely agrees junk t v (create payload) :=
  ⟨fun h => absurd ((h (fun n => 0#n) (.int true .w32) [] [0xff, 0xff, 0xff, 0x7f]).resizes _
    List.mem_cons_self).2 (by decide +kernel),
  fun h => (h (fun _ => True) (fun n => 0#n) (.int true .w32) []
    [1, 0, 0, 0, 5, 0, 1, 0, 1, 0, 0, 0, 7, 0, 0, 0]).inside rfl⟩

end CIStream

end Dsi
