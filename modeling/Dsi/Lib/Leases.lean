import Mathlib.Data.List.Nodup
import Mathlib.Data.List.Count

/-!
# Dsi.Lib.Leases

Leases of names.  A holder, known by its key, asks for a name and is granted one later,
if it is still there; a name is given back when its holder leaves, or at once when it is
granted to a holder that has left.  In a sound ledger every name that was granted is
with its holder, or was given back exactly once.
-/

namespace Dsi

/-- The holders with their names, the keys of the requests without an answer, and the
names that were granted and given back so far. -/
structure Leases (κ ν : Type) where
  held : List (κ × Option ν)
  pending : List κ
  granted : List (κ × ν)
  released : List ν

namespace Leases

variable {κ ν : Type}

section Sound

variable [DecidableEq ν]

/-- The name is with the holder that it was granted to, or given back exactly once. -/
def Settled (l : Leases κ ν) : Prop :=
  ∀ g ∈ l.granted, (g.1, some g.2) ∈ l.held ∨ l.released.count g.2 = 1

/-- Nobody has asked twice, no name was granted twice, and every name has one place. -/
structure Sound (l : Leases κ ν) : Prop where
  keys : (l.held.map Prod.fst).Nodup
  pending : l.pending.Nodup
  waiting : ∀ k ∈ l.pending, ∀ x, (k, some x) ∉ l.held
  granted : (l.granted.map Prod.snd).Nodup
  owner : ∀ g ∈ l.granted, ∀ k, (k, some g.2) ∈ l.held → k = g.1
  kept : ∀ g ∈ l.granted, ((g.1, some g.2) ∈ l.held ∧ l.released.count g.2 = 0) ∨
    ((∀ k, (k, some g.2) ∉ l.held) ∧ l.released.count g.2 = 1)

namespace Sound

variable {l : Leases κ ν}

theorem settled (h : l.Sound) : l.Settled := fun g hg => (h.kept g hg).imp And.left And.right

/-- A new holder, which may ask for a name. -/
theorem create (h : l.Sound) {k : κ} (hkey : k ∉ l.held.map Prod.fst) :
    { l with held := (k, none) :: l.held }.Sound where
  keys := List.nodup_cons.mpr ⟨hkey, h.keys⟩
  pending := h.pending
  waiting p hp x hx := by
    rcases List.mem_cons.mp hx with heq | hx
    · cases heq
    · exact h.waiting p hp x hx
  granted := h.granted
  owner g hg p hp := by
    rcases List.mem_cons.mp hp with heq | hp
    · cases heq
    · exact h.owner g hg p hp
  kept g hg := by
    refine (h.kept g hg).imp (fun hin => ⟨List.mem_cons_of_mem _ hin.1, hin.2⟩) fun hout => ?_
    refine ⟨fun p hp => ?_, hout.2⟩
    rcases List.mem_cons.mp hp with heq | hp
    · cases heq
    · exact hout.1 p hp

/-- Which requests are without an answer matters for their own holders only. -/
theorem setPending (h : l.Sound) {ks : List κ} (hnodup : ks.Nodup)
    (hwaiting : ∀ k ∈ ks, ∀ x, (k, some x) ∉ l.held) : { l with pending := ks }.Sound :=
  { h with pending := hnodup, waiting := hwaiting }

theorem forget (h : l.Sound) {ks : List κ} (hks : ks.Sublist l.pending) :
    { l with pending := ks }.Sound :=
  h.setPending (h.pending.sublist hks) fun k hk => h.waiting k (hks.subset hk)

/-- A name that was not granted is given back. -/
theorem release (h : l.Sound) {x : ν} (hx : x ∉ l.granted.map Prod.snd) :
    { l with released := l.released ++ [x] }.Sound := by
  refine { h with kept := fun g hg => ?_ }
  have hne : x ≠ g.2 := fun heq => hx (heq ▸ List.mem_map_of_mem hg)
  simpa [List.count_append, List.count_singleton, hne] using h.kept g hg

/-- A holder leaves and gives its name back. -/
theorem leave (h : l.Sound) {front back : List (κ × Option ν)} {k : κ} {name : Option ν}
    (hheld : l.held = front ++ (k, name) :: back) :
    { l with held := front ++ back, released := l.released ++ name.toList }.Sound := by
  have hsub : (front ++ back).Sublist l.held := by
    rw [hheld]
    exact (List.sublist_cons_self _ _).append_left front
  have hgone : ∀ x, (k, some x) ∉ front ++ back := by
    have hkeys := h.keys
    rw [hheld, List.map_append, List.map_cons, List.nodup_middle, List.nodup_cons] at hkeys
    intro x hx
    refine hkeys.1 ?_
    rw [← List.map_append]
    exact List.mem_map.mpr ⟨_, hx, rfl⟩
  have hmem {e : κ × Option ν} : e ∈ l.held ↔ e = (k, name) ∨ e ∈ front ++ back := by
    rw [hheld]
    simp only [List.mem_append, List.mem_cons]
    tauto
  refine ⟨h.keys.sublist (hsub.map _), h.pending,
    fun p hp x hx => h.waiting p hp x (hsub.subset hx),
    h.granted, fun g hg p hp => h.owner g hg p (hsub.subset hp), fun g hg => ?_⟩
  rcases h.kept g hg with ⟨hin, hcount⟩ | ⟨hout, hcount⟩
  · rcases hmem.mp hin with heq | hin
    · -- the holder of this name is the one that leaves
      obtain ⟨rfl, rfl⟩ := Prod.mk.inj heq
      refine .inr ⟨fun p hp => ?_, ?_⟩
      · obtain rfl := h.owner g hg p (hsub.subset hp)
        exact hgone g.2 hp
      · simp [List.count_append, hcount]
    · refine .inl ⟨hin, ?_⟩
      have hne : name ≠ some g.2 := by
        rintro rfl
        obtain rfl := h.owner g hg k (hmem.mpr (.inl rfl))
        exact hgone g.2 hin
      cases name with
      | none => simpa using hcount
      | some x =>
          have hx : x ≠ g.2 := fun heq => hne (congrArg some heq)
          simp [List.count_append, hcount, hx]
  · refine .inr ⟨fun p hp => hout p (hsub.subset hp), ?_⟩
    have hne : name ≠ some g.2 := by
      rintro rfl
      exact hout k (hmem.mpr (.inl rfl))
    cases name with
    | none => simpa using hcount
    | some x =>
        have hx : x ≠ g.2 := fun heq => hne (congrArg some heq)
        simp [List.count_append, hcount, hx]

/-- Everything that was granted is forgotten. -/
theorem restart (h : l.Sound) (released : List ν) :
    { l with granted := [], released := released }.Sound where
  keys := h.keys
  pending := h.pending
  waiting := h.waiting
  granted := List.nodup_nil
  owner _ hg := by cases hg
  kept _ hg := by cases hg

/-- All holders are gone, and no name is of interest any more. -/
theorem wipe (h : l.Sound) (released : List ν) :
    (⟨[], l.pending, [], released⟩ : Leases κ ν).Sound where
  keys := List.nodup_nil
  pending := h.pending
  waiting _ _ _ hx := by cases hx
  granted := List.nodup_nil
  owner _ hg := by cases hg
  kept _ hg := by cases hg

end Sound

end Sound

/-! ## Answers -/

section Store

variable [DecidableEq κ]

/-- The holder with this key gets the name; if it has left, the name is given back. -/
def store (l : Leases κ ν) (k : κ) (x : ν) : Leases κ ν :=
  if k ∈ l.held.map Prod.fst then
    { l with held := l.held.map (fun e => if e.1 = k then (k, some x) else e) }
  else { l with released := l.released ++ [x] }

/-- The name is granted to the holder with this key. -/
def grant (l : Leases κ ν) (k : κ) (x : ν) : Leases κ ν :=
  { l.store k x with granted := l.granted ++ [(k, x)] }

/-- Is the name new: neither granted nor given back, nor with anybody? -/
def Fresh (l : Leases κ ν) (x : ν) : Prop :=
  x ∉ l.granted.map Prod.snd ∧ x ∉ l.released ∧ some x ∉ l.held.map Prod.snd

variable {l : Leases κ ν} {k : κ} {x : ν}

@[simp] theorem granted_store : (l.store k x).granted = l.granted := by
  unfold store
  split <;> rfl

@[simp] theorem pending_store : (l.store k x).pending = l.pending := by
  unfold store
  split <;> rfl

/-- Only the holder with this key has another name afterwards. -/
theorem mem_held_store {p : κ} {y : ν} : (p, some y) ∈ (l.store k x).held ↔
    (p ≠ k ∧ (p, some y) ∈ l.held) ∨ (p = k ∧ y = x ∧ k ∈ l.held.map Prod.fst) := by
  unfold store
  split
  · next hk =>
    simp only [List.mem_map]
    constructor
    · rintro ⟨e, he, heq⟩
      split at heq
      · obtain ⟨rfl, hsome⟩ := Prod.mk.inj heq
        exact .inr ⟨rfl, (Option.some.inj hsome).symm, List.mem_map.mp hk⟩
      · next hne =>
        subst heq
        exact .inl ⟨hne, he⟩
    · rintro (⟨hne, hin⟩ | ⟨rfl, rfl, e, he, rfl⟩)
      · exact ⟨_, hin, if_neg hne⟩
      · exact ⟨e, he, if_pos rfl⟩
  · next hk =>
    refine ⟨fun hin => .inl ⟨?_, hin⟩, ?_⟩
    · rintro rfl
      exact hk (List.mem_map_of_mem hin)
    · rintro (⟨_, hin⟩ | ⟨_, _, hin⟩)
      · exact hin
      · exact absurd hin hk

theorem keys_store : (l.store k x).held.map Prod.fst = l.held.map Prod.fst := by
  unfold store
  split
  · rw [List.map_map]
    refine List.map_congr_left fun e _ => ?_
    simp only [Function.comp_apply]
    split
    · next heq => exact heq.symm
    · rfl
  · rfl

variable [DecidableEq ν]

theorem count_released_store {y : ν} : (l.store k x).released.count y =
    l.released.count y + if k ∉ l.held.map Prod.fst ∧ x = y then 1 else 0 := by
  unfold store
  split
  · next hk => simp [hk]
  · next hk => simp [hk, List.count_append, List.count_singleton]

variable {ks : List κ}

/-- A name that was not granted reaches the holder that has asked. -/
theorem Sound.store (h : l.Sound) (hpending : l.pending = k :: ks)
    (hx : x ∉ l.granted.map Prod.snd) : { l.store k x with pending := ks }.Sound := by
  have hnodup := h.pending
  rw [hpending] at hnodup
  obtain ⟨hk, hks⟩ := List.nodup_cons.mp hnodup
  have hne {g : κ × ν} (hg : g ∈ l.granted) : x ≠ g.2 :=
    fun heq => hx (heq ▸ List.mem_map_of_mem hg)
  have hempty (y : ν) : (k, some y) ∉ l.held :=
    h.waiting k (hpending ▸ List.mem_cons_self) y
  have hheld {g : κ × ν} (hg : g ∈ l.granted) (p : κ) :
      (p, some g.2) ∈ (l.store k x).held ↔ (p, some g.2) ∈ l.held := by
    rw [mem_held_store]
    constructor
    · rintro (⟨_, hin⟩ | ⟨_, heq, _⟩)
      · exact hin
      · exact absurd heq.symm (hne hg)
    · exact fun hin => .inl ⟨fun heq => hempty g.2 (heq ▸ hin), hin⟩
  refine ⟨?_, hks, fun p hp y hy => ?_, ?_, ?_, ?_⟩
  · show ((l.store k x).held.map Prod.fst).Nodup
    rw [keys_store]
    exact h.keys
  · rcases mem_held_store.mp hy with ⟨_, hin⟩ | ⟨rfl, _⟩
    · exact h.waiting p (hpending ▸ List.mem_cons_of_mem _ hp) y hin
    · exact hk hp
  · show ((l.store k x).granted.map Prod.snd).Nodup
    rw [granted_store]
    exact h.granted
  · intro g hg p hp
    have hg : g ∈ l.granted := granted_store (l := l) ▸ hg
    exact h.owner g hg p ((hheld hg p).mp hp)
  · intro g hg
    have hg : g ∈ l.granted := granted_store (l := l) ▸ hg
    have hcount : (l.store k x).released.count g.2 = l.released.count g.2 := by
      rw [count_released_store, if_neg (fun hand => hne hg hand.2), Nat.add_zero]
    simp only [hheld hg, hcount]
    exact h.kept g hg

/-- A new name is granted: it is with the holder that has asked, or given back. -/
theorem Sound.grant (h : l.Sound) (hpending : l.pending = k :: ks) (hx : l.Fresh x) :
    { l.grant k x with pending := ks }.Sound := by
  obtain ⟨hgranted, hreleased, hheld⟩ := hx
  have hstore := h.store hpending hgranted
  have hmem {g : κ × ν} : g ∈ l.granted ++ [(k, x)] ↔ g ∈ l.granted ∨ g = (k, x) := by simp
  have hold {g : κ × ν} (hg : g ∈ l.granted) : g ∈ (l.store k x).granted := by
    rw [granted_store]
    exact hg
  have hnew {p : κ} : (p, some x) ∈ (l.store k x).held ↔ p = k ∧ k ∈ l.held.map Prod.fst := by
    rw [mem_held_store]
    constructor
    · rintro (⟨_, hin⟩ | ⟨rfl, _, hk⟩)
      · exact absurd (List.mem_map_of_mem hin) hheld
      · exact ⟨rfl, hk⟩
    · exact fun hp => .inr ⟨hp.1, rfl, hp.2⟩
  refine ⟨hstore.keys, hstore.pending, hstore.waiting, ?_, fun g hg p hp => ?_, fun g hg => ?_⟩
  · show ((l.granted ++ [(k, x)]).map Prod.snd).Nodup
    rw [List.map_append, List.map_cons, List.map_nil, ← List.concat_eq_append]
    exact h.granted.concat hgranted
  · rcases hmem.mp hg with hg | rfl
    · exact hstore.owner g (hold hg) p hp
    · exact (hnew.mp hp).1
  · rcases hmem.mp hg with hg | rfl
    · exact hstore.kept g (hold hg)
    · have hcount := count_released_store (l := l) (k := k) (x := x) (y := x)
      rw [List.count_eq_zero_of_not_mem hreleased] at hcount
      by_cases hk : k ∈ l.held.map Prod.fst
      · exact .inl ⟨hnew.mpr ⟨rfl, hk⟩, hcount.trans (by simp [hk])⟩
      · exact .inr ⟨fun p hp => hk (hnew.mp hp).2, hcount.trans (by simp [hk])⟩

/-- Other new names stay new. -/
theorem Fresh.grant {y : ν} (h : l.Fresh y) (hne : y ≠ x) : (l.grant k x).Fresh y := by
  obtain ⟨hgranted, hreleased, hheld⟩ := h
  refine ⟨?_, fun hmem => ?_, fun hmem => ?_⟩
  · simp only [Leases.grant, List.map_append, List.mem_append, List.map_cons, List.map_nil,
      List.mem_singleton]
    exact not_or.mpr ⟨hgranted, hne⟩
  · have hcount := List.count_pos_iff.mpr hmem
    have hnone : (l.store k x).released.count y = 0 := by
      rw [count_released_store, List.count_eq_zero_of_not_mem hreleased,
        if_neg (fun hand => hne hand.2.symm)]
    exact Nat.ne_of_gt hcount hnone
  · obtain ⟨⟨p, name⟩, hin, rfl⟩ := List.mem_map.mp hmem
    rcases mem_held_store.mp hin with ⟨_, hin⟩ | ⟨_, heq, _⟩
    · exact hheld (List.mem_map_of_mem hin)
    · exact hne heq

end Store

end Leases

end Dsi
