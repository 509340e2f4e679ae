import Dsi.Stream.Attributes
import Dsi.Stream.RoundTrip
import Mathlib.Data.List.Chain
import Mathlib.Data.List.Nodup

/-!
# Dsi.Stream.Overwrite

When a decoded value is the one that was encoded, whatever the variable held
before.  Vectors are resized and read element by element over what is there;
map entries are assigned to the map that is there, and every key and every value
is read over the one before it.  So an old entry whose key is gone stays, at top
level as well as inside the next value.

* `overlay_of_overwrites`: a variable that is overwritten completely takes the value;
* `overwrites_of_overlay`: a variable that takes the value is overwritten completely.
-/

namespace Dsi

namespace Ty

/-- The keys of maps hold no maps. -/
def KeysMapFree : Ty → Prop
  | .vector t => t.KeysMapFree
  | .map k v => k.MapFree ∧ v.KeysMapFree
  | _ => True

/-- What a variable can hold: the entries of a map are in the order of the keys. -/
def Ordered : (t : Ty) → t.Val → Prop
  | .vector t, v => ∀ x ∈ v, t.Ordered x
  | .map k v, m =>
      m.Pairwise (fun a b => k.less a.1 b.1 = true) ∧ ∀ e ∈ m, k.Ordered e.1 ∧ v.Ordered e.2
  | _, _ => True

/-- Reading `v` over `old` leaves nothing of `old`: element by element in a
vector; in a map every old key is a key of `v`, and each of the keys and values,
read one over the other into the same variable, overwrites the one before. -/
def Overwrites : (t : Ty) → t.Val → t.Val → Prop
  | .vector t, old, v =>
      List.Forall₂ t.Overwrites (CIStream.resize (t.init fun n => 0#n) v.length old) v
  | .map k e, old, v =>
      (∀ x ∈ old, x.1 ∈ v.map (·.1)) ∧
        ((k.init fun n => 0#n) :: v.map (·.1)).IsChain k.Overwrites ∧
        ((e.init fun n => 0#n) :: v.map (·.2)).IsChain e.Overwrites
  | _, _, _ => True

theorem ordered_of_valid {t : Ty} {v : t.Val} (h : t.Valid v) : t.Ordered v := by
  induction t with
  | vector t ih => exact fun x hx => ih (h.2 x hx)
  | map k e ihk ihe => exact ⟨h.1, fun x hx => ⟨ihk (h.2 x hx).1, ihe (h.2 x hx).2⟩⟩
  | _ => trivial

theorem ordered_init (x : (n : Nat) → BitVec n) (t : Ty) : t.Ordered (t.init x) := by
  cases t with
  | vector t => exact nofun
  | map k e => exact ⟨List.Pairwise.nil, nofun⟩
  | _ => trivial

end Ty

section Overlay

variable (junk : (n : Nat) → BitVec n)

open CIStream (resize length_resize overlay_of_mapFree)

/-- A variable is overlaid the same whatever it was initialised with. -/
theorem overlay_init (x y : (n : Nat) → BitVec n) (t : Ty) (v : t.Val) :
    overlay junk t (t.init x) v = overlay junk t (t.init y) v := by
  cases t <;> rfl

theorem carry_init (x y : (n : Nat) → BitVec n) (t : Ty) (l : List t.Val) :
    carry (overlay junk t) (t.init x) l = carry (overlay junk t) (t.init y) l := by
  cases l with
  | nil => rfl
  | cons v l => simp [carry, overlay_init junk x y]

/-- The elements of a vector after `resize` are those before it or new. -/
theorem ordered_resize {t : Ty} {n : Nat} {old : List t.Val} (hold : ∀ x ∈ old, t.Ordered x) :
    ∀ x ∈ resize (t.init fun n => 0#n) n old, t.Ordered x := by
  intro x hx
  rcases List.mem_append.mp hx with hx | hx
  · exact hold x (List.mem_of_mem_take hx)
  · rw [List.eq_of_mem_replicate hx]
    exact Ty.ordered_init _ t

theorem forall₂_imp_of_mem {α β : Type} {R S : α → β → Prop} {as : List α} {bs : List β}
    (h : List.Forall₂ R as bs) (himp : ∀ a ∈ as, ∀ b ∈ bs, R a b → S a b) :
    List.Forall₂ S as bs := by
  induction h with
  | nil => exact .nil
  | cons hab hrest ih =>
      refine .cons (himp _ (by simp) _ (by simp) hab) (ih fun a ha b hb => ?_)
      exact himp a (List.mem_cons_of_mem _ ha) b (List.mem_cons_of_mem _ hb)

/-- The variables that the entries of a map go through take each key or value. -/
theorem carry_eq_self {t : Ty} {l : List t.Val} (hl : ∀ x ∈ l, t.Valid x)
    (hover : ∀ old v, t.Ordered old → t.Valid v → t.Overwrites old v → overlay junk t old v = v)
    (h : ((t.init fun n => 0#n) :: l).IsChain t.Overwrites) :
    carry (overlay junk t) (t.init junk) l = l := by
  rw [carry_init junk junk (fun n => 0#n), carry_eq_self_iff]
  refine h.imp_of_mem_tail_imp fun old v hmem htail hov => ?_
  refine hover old v ?_ (hl v htail) hov
  rcases List.mem_cons.mp hmem with rfl | hmem
  · exact Ty.ordered_init _ t
  · exact Ty.ordered_of_valid (hl old hmem)

/-- A variable that is overwritten completely takes the value. -/
theorem overlay_of_overwrites {t : Ty} {old v : t.Val} (hold : t.Ordered old) (hvalid : t.Valid v)
    (h : t.Overwrites old v) : overlay junk t old v = v := by
  induction t with
  | vector t ih =>
      rw [overlay, zipWith_eq_right_iff (length_resize _ _ _)]
      exact forall₂_imp_of_mem h fun o ho x hx => ih (ordered_resize hold o ho) (hvalid.2 x hx)
  | map k e ihk ihe =>
      obtain ⟨hkeys, hchainK, hchainE⟩ := h
      obtain ⟨hpair, hentries⟩ := hvalid
      have hks : carry (overlay junk k) (k.init junk) (v.map (·.1)) = v.map (·.1) :=
        carry_eq_self junk (by simpa using fun a b hab => (hentries (a, b) hab).1)
          (fun _ _ => ihk) hchainK
      have hes : carry (overlay junk e) (e.init junk) (v.map (·.2)) = v.map (·.2) :=
        carry_eq_self junk (by simpa using fun b a hab => (hentries (a, b) hab).2)
          (fun _ _ => ihe) hchainE
      rw [overlay, hks, hes, ← List.zip_of_prod rfl rfl,
        mapAssigns_eq_self_iff k.strictComparison_less hpair hold.1]
      exact hkeys
  | _ => rfl

/-- Without maps everything is overwritten. -/
theorem overwrites_of_mapFree {t : Ty} (hfree : t.MapFree) (old v : t.Val) :
    t.Overwrites old v := by
  induction t with
  | vector t ih => exact CIStream.forall₂_resize fun o _ x _ => ih hfree o x
  | map k e => exact hfree.elim
  | _ => trivial

/-- Entries that are assigned in the order of their keys are all in the map. -/
theorem subset_mapAssigns {α β : Type} {lt : α → α → Bool} (h : StrictComparison lt)
    {es m : List (α × β)} (hes : (es.map (·.1)).Nodup)
    (hm : m.Pairwise (fun a b => lt a.1 b.1 = true)) : es ⊆ mapAssigns lt es m :=
  fun e he => (mem_mapAssigns h hes hm e).mpr (Or.inl he)

/-- Two lists of entries with the same keys, one of them part of the other. -/
theorem eq_of_keys_eq {α β : Type} {es v : List (α × β)} (hv : (v.map (·.1)).Nodup)
    (hkeys : es.map (·.1) = v.map (·.1)) (hsub : es ⊆ v) : es = v := by
  have hinj := List.inj_on_of_nodup_map hv
  have hlen : es.length = v.length := by simpa using congrArg List.length hkeys
  refine List.ext_getElem hlen fun i hi hi' => ?_
  refine hinj (hsub (List.getElem_mem hi)) (List.getElem_mem hi') ?_
  have hget := List.getElem_of_eq hkeys (i := i) (by simpa using hi)
  simpa using hget

/-- A variable that takes the value is overwritten completely, if no key holds a
map: a key that was read over the one before it could still be a key of the value. -/
theorem overwrites_of_overlay {t : Ty} {old v : t.Val} (hfree : t.KeysMapFree)
    (hold : t.Ordered old) (hvalid : t.Valid v) (h : overlay junk t old v = v) :
    t.Overwrites old v := by
  induction t with
  | vector t ih =>
      rw [overlay, zipWith_eq_right_iff (length_resize _ _ _)] at h
      exact forall₂_imp_of_mem h fun o ho x hx =>
        ih hfree (ordered_resize hold o ho) (hvalid.2 x hx)
  | map k e ihk ihe =>
      obtain ⟨hfreeK, hfreeE⟩ := hfree
      obtain ⟨hpair, hentries⟩ := hvalid
      have hlt := k.strictComparison_less
      have hnodup : (v.map (·.1)).Nodup := hlt.nodup_keys hpair
      rw [overlay, carry_of_forall (overlay_of_mapFree junk hfreeK)] at h
      obtain ⟨es, hes⟩ : ∃ es, es = (v.map (·.1)).zip
          (carry (overlay junk e) (e.init junk) (v.map (·.2))) := ⟨_, rfl⟩
      have hlen : (v.map (·.1)).length =
          (carry (overlay junk e) (e.init junk) (v.map (·.2))).length := by simp [length_carry]
      have hkeys : es.map (·.1) = v.map (·.1) := hes ▸ List.map_fst_zip hlen.le
      have hvals : es.map (·.2) = carry (overlay junk e) (e.init junk) (v.map (·.2)) :=
        hes ▸ List.map_snd_zip hlen.ge
      rw [← hes] at h
      -- every entry that is assigned is one of the value
      have hassigned : es ⊆ v := h ▸ subset_mapAssigns hlt (hkeys ▸ hnodup) hold.1
      obtain rfl : es = v := eq_of_keys_eq hnodup hkeys hassigned
      refine ⟨(mapAssigns_eq_self_iff hlt hpair hold.1).mp h, ?_, ?_⟩
      · exact (List.pairwise_of_forall (overwrites_of_mapFree hfreeK)).isChain
      · rw [carry_init junk junk fun n => 0#n] at hvals
        refine (carry_eq_self_iff.mp hvals.symm).imp_of_mem_tail_imp fun o x hmem htail hox => ?_
        have hvalidE : ∀ y ∈ es.map (·.2), e.Valid y := by
          simpa using fun b a hab => (hentries (a, b) hab).2
        refine ihe hfreeE ?_ (hvalidE x htail) hox
        rcases List.mem_cons.mp hmem with rfl | hmem
        · exact Ty.ordered_init _ e
        · exact Ty.ordered_of_valid (hvalidE o hmem)
  | _ => trivial

end Overlay

/-! ## Decoding over an old value -/

section Decoding

variable (raw : Nat → UInt8) (junk : (n : Nat) → BitVec n)

/-- Wherever it stands in a stream, the encoding of `v` is decoded without an
error, and leaves `v` in the variable that held `old`. -/
def DecodesOver (t : Ty) (old v : t.Val) : Prop :=
  ∀ (out : COStream) (data : List UInt8), COStream.write raw t v out <+: data →
    ∃ s, CIStream.read junk t old ⟨data, out.length, false⟩ = some (v, s) ∧ s.mError = false

/-- A complete update makes the copy of the client equal to the attribute. -/
def UpdatesClient {t : Ty} (client : ClientAttribute t) (server : ServerAttribute t) : Prop :=
  ∀ (out : COStream) (data : List UInt8), server.write raw out <+: data →
    ∃ client' s, client.read junk ⟨data, out.length, false⟩ = some (client', s) ∧
      s.mError = false ∧ client'.mValue = server.mValue

theorem decodesOver_iff_overlay {t : Ty} {old v : t.Val} (hvalid : t.Valid v) (hfits : t.Fits v) :
    DecodesOver raw junk t old v ↔ overlay junk t old v = v := by
  constructor
  · intro h
    have hprefix : COStream.write raw t v [] <+: COStream.write raw t v [] := List.prefix_refl _
    obtain ⟨s, hread, -⟩ := h [] _ hprefix
    rw [CIStream.read_overlay raw junk t v old hvalid hfits [] hprefix] at hread
    exact (Prod.mk.inj (Option.some.inj hread)).1
  · intro h out data hprefix
    exact ⟨_, by rw [CIStream.read_overlay raw junk t v old hvalid hfits out hprefix, h], rfl⟩

theorem updatesClient_iff {t : Ty} (client : ClientAttribute t) (server : ServerAttribute t) :
    UpdatesClient raw junk client server ↔
      DecodesOver raw junk t client.mValue server.mValue := by
  refine forall₂_congr fun out data => imp_congr Iff.rfl ?_
  simp only [ClientAttribute.read]
  constructor
  · rintro ⟨client', s, hread, herr, hval⟩
    obtain ⟨⟨v, s'⟩, hv, heq⟩ := Option.map_eq_some_iff.mp hread
    obtain ⟨rfl, rfl⟩ := Prod.mk.inj heq
    exact ⟨s', by rw [hv]; exact congrArg (fun v => some (v, s')) hval, herr⟩
  · rintro ⟨s, hread, herr⟩
    exact ⟨{ client with mValue := server.mValue }, s, by rw [hread]; rfl, herr, rfl⟩

/-- **Decoding over an old value**: it leaves the encoded value, in a variable and
in the attribute of a client, if that value overwrites the old one; and only
then, for all types in which the keys of maps hold no maps. -/
theorem decodesOver_iff_overwrites {t : Ty} (old v : t.Val) (hold : t.Ordered old)
    (hvalid : t.Valid v) (hfits : t.Fits v) :
    (t.Overwrites old v → DecodesOver raw junk t old v) ∧
      (t.KeysMapFree → DecodesOver raw junk t old v → t.Overwrites old v) ∧
      ∀ mState mState', UpdatesClient raw junk (t := t) ⟨old, mState⟩ ⟨v, mState'⟩ ↔
        DecodesOver raw junk t old v := by
  refine ⟨fun h => ?_, fun hfree h => ?_, fun mState mState' => ?_⟩
  · rw [decodesOver_iff_overlay raw junk hvalid hfits]
    exact overlay_of_overwrites junk hold hvalid h
  · rw [decodesOver_iff_overlay raw junk hvalid hfits] at h
    exact overwrites_of_overlay junk hfree hold hvalid h
  · exact updatesClient_iff raw junk ⟨old, mState⟩ ⟨v, mState'⟩

end Decoding

/-- A map from strings to vectors, one key of which was there before. -/
theorem decodesOver_growing_map :
    DecodesOver (fun _ => 0xee) (fun n => -1#n) (.map .string (.vector (.int true .w16)))
      [([0x61], [7#16, 8#16])] [([0x61], [9#16]), ([0x62], [])] := by
  have hless : Ty.less .string [0x61] [0x62] = true := by decide
  refine (decodesOver_iff_overwrites _ _ _ _ ?_ ?_ ?_).1 ?_
  · simp [Ty.Ordered]
  · simp [Ty.Valid, hless]
    decide
  · simp [Ty.Fits]
  · refine ⟨by simp, by simp [Ty.Overwrites], ?_⟩
    -- the vectors that are read one over the other: none, one element, none
    exact .cons_cons (.cons trivial .nil) (.cons_cons .nil (.singleton _))

/-- The entry that the server has removed stays in the copy of the client. -/
theorem not_decodesOver_shrunk_map :
    ¬ ∀ old v : (Ty.map (.int true .w32) (.int true .w32)).Val,
      Ty.Ordered _ old → Ty.Valid _ v → Ty.Fits _ v →
        DecodesOver (fun _ => 0) (fun n => 0#n) _ old v := by
  intro h
  obtain ⟨s, hread, -⟩ := h [(1#32, 10#32), (2#32, 20#32)] [(1#32, 10#32)]
    (by simp [Ty.Ordered, Ty.less, BitVec.slt]) (by simp [Ty.Valid]) (by simp [Ty.Fits])
    [] [1, 0, 0, 0, 1, 0, 0, 0, 10, 0, 0, 0] ⟨[], by decide⟩
  have hstale : CIStream.read (fun n => 0#n) (.map (.int true .w32) (.int true .w32))
      [(1#32, 10#32), (2#32, 20#32)] ⟨[1, 0, 0, 0, 1, 0, 0, 0, 10, 0, 0, 0], 0, false⟩ =
      some ([(1#32, 10#32), (2#32, 20#32)],
        ⟨[1, 0, 0, 0, 1, 0, 0, 0, 10, 0, 0, 0], 12, false⟩) := by rfl
  rw [show ([] : COStream).length = 0 from rfl, hstale] at hread
  have hlength := congrArg List.length (Prod.mk.inj (Option.some.inj hread)).1
  contradiction

end Dsi
