import Dsi.Common.Dispatcher

/-!
# Dsi.Common.Removal

What is left of a descriptor in the table of the dispatcher behind `removeAll`, in the round in
which a callback calls it and in the later ones.  The loop of `doRemoveAll` ends with the first
slot that it clears; `removalComplete_iff` says that this is enough exactly where there is no
second one.
-/

namespace Dsi

namespace Dispatcher

variable {d d' : Dispatcher}

/-- The number of events that are armed on a descriptor. -/
def armed (fd : Int) (d : Dispatcher) : Nat := d.used.countP (·.fd == fd)

theorem armed_eq_zero {fd : Int} : d.armed fd = 0 ↔ ∀ s ∈ d.used, s.fd ≠ fd := by
  simp [armed, List.countP_eq_zero]

theorem mem_used {s : Slot} : s ∈ d.used ↔ ∃ i, i < d.max_ ∧ d.table[i]? = some s := by
  rw [used, List.mem_iff_getElem?]
  constructor
  · rintro ⟨i, hi⟩
    rw [List.getElem?_take] at hi
    split at hi
    · next hlt => exact ⟨i, hlt, hi⟩
    · cases hi
  · rintro ⟨i, hlt, hi⟩
    exact ⟨i, by rw [List.getElem?_take, if_pos hlt, hi]⟩

theorem eq_set_of_setSlot {i : Nat} {s : Slot} (h : d.setSlot i s = .ok d') : d' = d.set i s := by
  unfold setSlot at h
  split at h
  · exact (Except.ok.inj h).symm
  · cases h

/-- Of the events on a descriptor, `doRemoveAll` clears one. -/
theorem armed_doRemoveAll {fd : Int} (hbound : d.max_ ≤ d.capa_) (hfd : 0 ≤ fd)
    (h : d.doRemoveAll fd = .ok d') : d'.armed fd = d.armed fd - 1 := by
  rw [doRemoveAll, findSlot_used hbound] at h
  cases hfind : d.used.findIdx? (·.fd == fd) with
  | none =>
      rw [hfind] at h
      obtain rfl := Except.ok.inj h
      have hnone : d.armed fd = 0 := armed_eq_zero.mpr fun s hs => by
        simpa using List.findIdx?_eq_none_iff.mp hfind s hs
      rw [hnone]
  | some i =>
      rw [hfind] at h
      obtain ⟨s, hs, hclear⟩ := clearSlot_of_lt (lt_of_findIdx? hfind).2
      obtain rfl := Except.ok.inj (hclear.symm.trans h)
      obtain ⟨hi, hp, -⟩ := List.findIdx?_eq_some_iff_getElem.mp hfind
      have hused : (d.set i { s with fd := -1, event := none }).used =
          d.used.set i { s with fd := -1, event := none } := List.take_set
      have hfree : ((-1 : Int) == fd) = false := by
        rw [beq_eq_false_iff_ne]
        omega
      rw [armed, hused, List.countP_set hi, if_pos hp, hfree]
      rfl

end Dispatcher

namespace Dispatching

open Dispatcher

variable {m m' : Dispatching}

/-! ## What is to hold -/

/-- The slot whose callback begins with a step. -/
def called (m : Dispatching) : Event → Option Slot
  | .next =>
      match m.phase with
      | .polling i =>
          if i < m.max_ ∧ m.finished_ = false then
            m.table[i]?.filter (fun s => s.fd ≥ 0 ∧ s.revents ≠ 0)
          else
            none
      | _ => none
  | _ => none

/-- The slot that the loop clears when its callback is done. -/
def cleared (m : Dispatching) : Event → Option Slot
  | .done false =>
      match m.phase with
      | .calling i => m.table[i]?.filter (fun s => s.revents ≠ 0)
      | _ => none
  | _ => none

/-- The descriptor that a step removes, if it does: operations are calls of the program or of a
callback. -/
def removed (m : Dispatching) : Event → Option Int
  | .op (.removeAll fd) =>
      match m.phase with
      | .polling _ => none
      | _ => if 0 ≤ fd then some fd else none
  | _ => none

/-- The event is enqueued on the descriptor. -/
def arms (fd : Int) : Event → Bool
  | .op (.enqueueEvent fd' _ _) => fd' == fd
  | _ => false

/-- Behind `removeAll` nothing is armed on the descriptor; no callback for it begins before
something is enqueued on it; and in no round an event is evaluated or cleared that was enqueued in
it. -/
structure RemovalComplete (NDEBUG : Bool) (capa : Nat) (es : List Event) : Prop where
  complete : ∀ pre e post m m' fd, es = pre ++ e :: post →
    Partial.run (step NDEBUG) (create capa) pre = .ok m → m.removed e = some fd →
    m.step NDEBUG e = .ok m' → m'.armed fd = 0
  silent : ∀ pre e mid e' post m m' fd, es = pre ++ e :: (mid ++ e' :: post) →
    Partial.run (step NDEBUG) (create capa) pre = .ok m → m.removed e = some fd →
    (∀ x ∈ mid, arms fd x = false) →
    Partial.run (step NDEBUG) (create capa) (pre ++ e :: mid) = .ok m' →
    ∀ s, m'.called e' = some s → s.fd ≠ fd
  spared : ∀ pre e post m, es = pre ++ e :: post →
    Partial.run (step NDEBUG) (create capa) pre = .ok m →
    ∀ s, m.called e = some s ∨ m.cleared e = some s → s.fresh = false

/-- The step removes nothing, or a descriptor on which no more than one event is armed. -/
def removesOne (m : Dispatching) (e : Event) : Bool :=
  (m.removed e).all (fun fd => m.armed fd ≤ 1)

/-! ## What a step does to the table -/

/-- A step leaves the slots in use alone, clears one of them, arms one, or writes what is ready. -/
inductive Change (e : Event) (d d' : Dispatcher) : Prop where
  | same (htable : d'.table = d.table) (hmax : d'.max_ = d.max_)
  | cleared (i : Nat) (s : Slot) (hs : d.table[i]? = some s)
      (htable : d'.table = d.table.set i { s with fd := -1, event := none })
      (hmax : d'.max_ = d.max_)
  | armed (i : Nat) (fd : Int) (evt : Nat) (pollmask : UInt16)
      (he : e = .op (.enqueueEvent fd evt pollmask))
      (htable : d'.table = d.table.set i ⟨fd, pollmask, 0, some evt, true⟩)
      (hmax : d'.max_ = d.max_ ∨ d'.max_ = d.max_ + 1 ∧ i = d.max_)
  | polled (f : Nat → Slot → UInt16)
      (htable : d'.table = d.table.mapIdx fun i s => { s with revents := f i s, fresh := false })
      (hmax : d'.max_ = d.max_)

theorem change_clearSlot {e : Event} {d d' : Dispatcher} {i : Nat} (hi : i < d.capa_)
    (h : d.clearSlot i = .ok d') : Change e d d' := by
  obtain ⟨s, hs, hclear⟩ := clearSlot_of_lt hi
  obtain rfl := Except.ok.inj (hclear.symm.trans h)
  exact .cleared i s hs rfl rfl

theorem change_found {e : Event} {d d' : Dispatcher} {p : Slot → Bool} (hbound : d.max_ ≤ d.capa_)
    (hclear : (d.findSlot p d.max_ 0 >>= fun r => match r with
      | some i => d.clearSlot i
      | none => .ok d) = .ok d') : Change e d d' := by
  rw [findSlot_used hbound] at hclear
  cases hfind : d.used.findIdx? p with
  | none =>
      rw [hfind] at hclear
      obtain rfl := Except.ok.inj hclear
      exact .same rfl rfl
  | some i =>
      rw [hfind] at hclear
      exact change_clearSlot (lt_of_findIdx? hfind).2 hclear

theorem change_apply {NDEBUG : Bool} {d d' : Dispatcher} {o : Op} (hbound : d.max_ ≤ d.capa_)
    (h : d.apply NDEBUG o = .ok d') : Change (.op o) d d' := by
  cases o with
  | enqueueEvent fd evt pollmask =>
      rw [apply, doEnqueueEvent, findSlot_used hbound] at h
      cases hfind : d.used.findIdx? (·.fd == -1) with
      | some i =>
          rw [hfind] at h
          obtain rfl := eq_set_of_setSlot h
          exact .armed i fd evt pollmask rfl rfl (Or.inl rfl)
      | none =>
          rw [hfind] at h
          change (if _ then _ else _) = _ at h
          rw [if_pos (Or.inr hbound)] at h
          obtain rfl := eq_set_of_setSlot h
          exact .armed d.max_ fd evt pollmask rfl rfl (Or.inr ⟨rfl, rfl⟩)
  | removeEvent pollmask fd => exact change_found hbound h
  | removeAll fd => exact change_found hbound h
  | stop =>
      obtain rfl := Except.ok.inj h
      exact .same rfl rfl

theorem change_step {NDEBUG : Bool} {e : Event} (hm : m.InTable)
    (h : m.step NDEBUG e = .ok m') : Change e m.toDispatcher m'.toDispatcher := by
  cases turn NDEBUG m e with
  | stays _ hstep =>
      obtain rfl := Except.ok.inj (hstep.symm.trans h)
      exact .same rfl rfl
  | op hphase hstep =>
      obtain ⟨d, happly, hd⟩ := Partial.bind_eq_ok (hstep.symm.trans h)
      obtain rfl := Except.ok.inj hd
      exact change_apply hm.bound happly
  | run hphase hstep =>
      obtain rfl := Except.ok.inj (hstep.symm.trans h)
      exact .same rfl rfl
  | poll phase hphase hstep =>
      obtain ⟨d, hpoll, hd⟩ := Partial.bind_eq_ok (hstep.symm.trans h)
      obtain rfl := Except.ok.inj hd
      rw [Dispatcher.poll, if_pos (m.length_table ▸ hm.bound)] at hpoll
      obtain rfl := Except.ok.inj hpoll
      exact .polled _ rfl rfl
  | leave phase hphase he hstep =>
      obtain rfl := Except.ok.inj (hstep.symm.trans h)
      exact .same rfl rfl
  | visit hphase hi hstep =>
      obtain ⟨s, hslot, hd⟩ := Partial.bind_eq_ok (hstep.symm.trans h)
      obtain rfl := Except.ok.inj hd
      exact .same rfl rfl
  | @clear i hphase hstep =>
      have hi := Nat.lt_of_lt_of_le (hm.calling i hphase) hm.bound
      obtain ⟨s, hslot, hd⟩ := Partial.bind_eq_ok (hstep.symm.trans h)
      split at hd
      · obtain ⟨d, hclear, hd⟩ := Partial.bind_eq_ok hd
        obtain rfl := Except.ok.inj hd
        exact change_clearSlot hi hclear
      · obtain rfl := Except.ok.inj hd
        exact .same rfl rfl

/-! ## What stays -/

/-- Only `enqueueEvent` arms a descriptor. -/
theorem Change.silent {e : Event} {d d' : Dispatcher} {fd : Int} (h : Change e d d') (hfd : 0 ≤ fd)
    (he : arms fd e = false) (hd : d.armed fd = 0) : d'.armed fd = 0 := by
  rw [armed_eq_zero] at hd ⊢
  intro s' hs'
  obtain ⟨j, hj, hs'⟩ := mem_used.mp hs'
  have hold {t : Slot} (hj' : j < d.max_) (ht : d.table[j]? = some t) : t.fd ≠ fd :=
    hd t (mem_used.mpr ⟨j, hj', ht⟩)
  cases h with
  | same htable hmax => exact hold (hmax ▸ hj) (htable ▸ hs')
  | cleared i s hs htable hmax =>
      rw [htable, List.getElem?_set] at hs'
      split at hs'
      · split at hs'
        · obtain rfl := Option.some.inj hs'
          show (-1 : Int) ≠ fd
          omega
        · cases hs'
      · exact hold (hmax ▸ hj) hs'
  | armed i fd' evt pollmask he' htable hmax =>
      have hne : fd' ≠ fd := by
        subst he'
        simpa [arms] using he
      rw [htable, List.getElem?_set] at hs'
      split at hs'
      · split at hs'
        · obtain rfl := Option.some.inj hs'
          exact hne
        · cases hs'
      · next hij => exact hold (by omega) hs'
  | polled f htable hmax =>
      rw [htable, List.getElem?_mapIdx] at hs'
      obtain ⟨t, ht, rfl⟩ := Option.map_eq_some_iff.mp hs'
      show t.fd ≠ fd
      exact hold (hmax ▸ hj) ht

/-- An event that was enqueued in this round is not ready. -/
def FreshQuiet (d : Dispatcher) : Prop := ∀ s ∈ d.table, s.fresh = true → s.revents = 0

theorem Change.freshQuiet {e : Event} {d d' : Dispatcher} (h : Change e d d')
    (hd : FreshQuiet d) : FreshQuiet d' := by
  intro s' hs' hfresh
  cases h with
  | same htable hmax => exact hd s' (htable ▸ hs') hfresh
  | cleared i s hs htable hmax =>
      rcases List.mem_or_eq_of_mem_set (htable ▸ hs') with hmem | rfl
      · exact hd s' hmem hfresh
      · exact hd s (List.mem_of_getElem? hs) hfresh
  | armed i fd evt pollmask he htable hmax =>
      rcases List.mem_or_eq_of_mem_set (htable ▸ hs') with hmem | rfl
      · exact hd s' hmem hfresh
      · rfl
  | polled f htable hmax =>
      obtain ⟨j, hj⟩ := List.mem_iff_getElem?.mp hs'
      rw [htable, List.getElem?_mapIdx] at hj
      obtain ⟨t, -, rfl⟩ := Option.map_eq_some_iff.mp hj
      cases hfresh

theorem inTable_step {NDEBUG : Bool} {e : Event} (hm : m.InTable)
    (h : m.step NDEBUG e = .ok m') : m'.InTable :=
  (@inTable_run m m' NDEBUG [e] hm (by rw [Partial.run_cons_of_ok h]; rfl)).1

/-- Behind every run the slots in use are in the table, and the fresh events not ready. -/
theorem freshQuiet_run {NDEBUG : Bool} {capa : Nat} {es : List Event}
    (h : Partial.run (step NDEBUG) (create capa) es = .ok m) :
    m.InTable ∧ FreshQuiet m.toDispatcher := by
  have hstart : FreshQuiet (create capa).toDispatcher := fun s hs hfresh => by
    obtain rfl := List.eq_of_mem_replicate hs
    cases hfresh
  refine @Partial.invariant _ _ _ (step NDEBUG) (fun _ _ => True)
    (fun m => m.InTable ∧ FreshQuiet m.toDispatcher) ?_ _ _ es ⟨inTable_create capa, hstart⟩ ?_ h
  · intro m e m' ⟨hm, hquiet⟩ _ hstep
    exact ⟨inTable_step hm hstep, (change_step hm hstep).freshQuiet hquiet⟩
  · exact Partial.along_iff_forall.mpr fun _ _ _ _ _ _ => trivial

/-- Nothing is armed on a descriptor until something is enqueued on it. -/
theorem silent_run {NDEBUG : Bool} {es : List Event} {fd : Int} (hm : m.InTable) (hfd : 0 ≤ fd)
    (hes : ∀ e ∈ es, arms fd e = false) (harmed : m.armed fd = 0)
    (h : Partial.run (step NDEBUG) m es = .ok m') : m'.armed fd = 0 := by
  induction es generalizing m with
  | nil => exact Except.ok.inj h ▸ harmed
  | cons e es ih =>
      obtain ⟨m₁, hstep, hrest⟩ := Partial.bind_eq_ok h
      exact ih (inTable_step hm hstep) (fun x hx => hes x (List.mem_cons_of_mem e hx))
        ((change_step hm hstep).silent hfd (hes e List.mem_cons_self) harmed) hrest

/-! ## Callbacks and removal -/

/-- A callback begins for a slot in use that is ready. -/
theorem mem_of_called {e : Event} {s : Slot} (h : m.called e = some s) :
    s ∈ m.used ∧ s ∈ m.table ∧ s.revents ≠ 0 := by
  cases e with
  | next =>
      unfold called at h
      cases hphase : m.phase with
      | polling i =>
          simp only [hphase] at h
          split at h
          · next hi =>
            obtain ⟨hs, hready⟩ := Option.filter_eq_some_iff.mp h
            have hrevents := (of_decide_eq_true hready).2
            exact ⟨mem_used.mpr ⟨i, hi.1, hs⟩, List.mem_of_getElem? hs, hrevents⟩
          · cases h
      | idle => simp only [hphase] at h; cases h
      | calling i => simp only [hphase] at h; cases h
  | op o => cases h
  | run => cases h
  | poll result => cases h
  | done again => cases h

theorem mem_of_cleared {e : Event} {s : Slot} (h : m.cleared e = some s) :
    s ∈ m.table ∧ s.revents ≠ 0 := by
  unfold cleared at h
  split at h
  · split at h
    · obtain ⟨hs, hready⟩ := Option.filter_eq_some_iff.mp h
      exact ⟨List.mem_of_getElem? hs, of_decide_eq_true hready⟩
    · cases h
  · cases h

/-- The step that removes a descriptor is `doRemoveAll`, and always fits. -/
theorem step_of_removed {e : Event} {fd : Int} (h : m.removed e = some fd) (NDEBUG : Bool) :
    0 ≤ fd ∧ m.fits e = true ∧ arms fd e = false ∧
      m.step NDEBUG e = m.doRemoveAll fd >>= fun d => .ok ⟨d, m.phase⟩ := by
  unfold removed at h
  split at h
  · next fd' =>
    obtain ⟨d, phase⟩ := m
    cases phase with
    | polling i => cases h
    | idle =>
        obtain ⟨hfd, hsome⟩ := Option.ite_none_right_eq_some.mp h
        obtain rfl := Option.some.inj hsome
        exact ⟨hfd, rfl, rfl, rfl⟩
    | calling i =>
        obtain ⟨hfd, hsome⟩ := Option.ite_none_right_eq_some.mp h
        obtain rfl := Option.some.inj hsome
        exact ⟨hfd, rfl, rfl, rfl⟩
  · cases h

theorem armed_of_removed {NDEBUG : Bool} {e : Event} {fd : Int} (hm : m.InTable)
    (h : m.removed e = some fd) (hstep : m.step NDEBUG e = .ok m') :
    m'.armed fd = m.armed fd - 1 := by
  obtain ⟨hfd, -, -, hremove⟩ := step_of_removed h NDEBUG
  obtain ⟨d, hd, hm'⟩ := Partial.bind_eq_ok (hremove.symm.trans hstep)
  obtain rfl := Except.ok.inj hm'
  exact armed_doRemoveAll hm.bound hfd hd

/-- Removal is complete in every run in which no descriptor is removed that has a second event,
and in no other. -/
theorem removalComplete_iff (NDEBUG : Bool) (capa : Nat) (es : List Event) :
    RemovalComplete NDEBUG capa es ↔
      Partial.Along (step NDEBUG) (fun m e => m.removesOne e = true) (create capa) es := by
  rw [Partial.along_iff_forall]
  constructor
  · intro h pre e post m hes hrun
    refine (Option.all_eq_true _ _).mpr fun fd hremoved => ?_
    obtain ⟨hm, -⟩ := freshQuiet_run hrun
    obtain ⟨m', hstep, -, -⟩ := step_of_fits NDEBUG hm (step_of_removed hremoved NDEBUG).2.1
    have hzero := h.complete pre e post m m' fd hes hrun hremoved hstep
    rw [armed_of_removed hm hremoved hstep] at hzero
    exact decide_eq_true (by omega)
  · intro h
    have hcomplete (pre e post m m' fd) (hes : es = pre ++ e :: post)
        (hrun : Partial.run (step NDEBUG) (create capa) pre = .ok m)
        (hremoved : m.removed e = some fd) (hstep : m.step NDEBUG e = .ok m') :
        m'.armed fd = 0 := by
      have hone := (Option.all_eq_true _ _).mp (h pre e post m hes hrun) fd hremoved
      rw [armed_of_removed (freshQuiet_run hrun).1 hremoved hstep]
      have := of_decide_eq_true hone
      omega
    refine ⟨hcomplete, ?_, ?_⟩
    · intro pre e mid e' post m m' fd hes hrun hremoved hmid hrun' s hcalled
      rw [Partial.run_append, hrun] at hrun'
      change Partial.run (step NDEBUG) m (e :: mid) = .ok m' at hrun'
      obtain ⟨m₁, hstep, hrest⟩ := Partial.bind_eq_ok hrun'
      have hm₁ := inTable_step (freshQuiet_run hrun).1 hstep
      have hzero := hcomplete pre e _ m m₁ fd hes hrun hremoved hstep
      have hfd := (step_of_removed hremoved NDEBUG).1
      have hsilent := silent_run hm₁ hfd hmid hzero hrest
      exact armed_eq_zero.mp hsilent s (mem_of_called hcalled).1
    · intro pre e post m hes hrun s hs
      have hready : s ∈ m.table ∧ s.revents ≠ 0 := hs.elim
        (fun hcalled => (mem_of_called hcalled).2) mem_of_cleared
      cases hfresh : s.fresh with
      | false => rfl
      | true => exact absurd ((freshQuiet_run hrun).2 s hready.1 hfresh) hready.2

/-- A descriptor that is armed for reading and for writing, and removed: it stays armed for
writing. -/
theorem not_removalComplete_second :
    ¬ RemovalComplete false 4 [.op (.enqueueEvent 3 0 1), .op (.enqueueEvent 3 1 4),
      .op (.removeAll 3)] :=
  fun h => absurd (h.complete [.op (.enqueueEvent 3 0 1), .op (.enqueueEvent 3 1 4)]
    (.op (.removeAll 3)) [] _ _ 3 rfl rfl rfl rfl) (by decide)

end Dispatching

end Dsi
