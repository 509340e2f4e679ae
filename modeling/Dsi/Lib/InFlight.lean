import Mathlib.Data.List.Basic

/-!
# Dsi.Lib.InFlight

A replica that is kept up to date by messages in a first-in-first-out queue.  The
state of the replica that counts is the one behind everything that is in flight: what
holds of it (`Drains`) is not touched by the arrival of a message, and a message that is
appended is a step from one condition to the next.

`apply` may fail, which stands for a message that the replica cannot take; `Drains`
says that this does not happen.
-/

namespace InFlight

variable {γ μ : Type}

/-- `P` holds of the replica behind the messages of the queue, all of which it takes. -/
def Drains (apply : γ → μ → Option γ) (P : γ → Prop) (g : γ) (queue : List μ) : Prop :=
  ∃ g', queue.foldlM apply g = some g' ∧ P g'

/-- The replica takes the message in every state that meets `P`, and meets `Q` then. -/
def Carries (apply : γ → μ → Option γ) (P Q : γ → Prop) (m : μ) : Prop :=
  ∀ g, P g → ∃ g', apply g m = some g' ∧ Q g'

variable {apply : γ → μ → Option γ} {P Q R : γ → Prop} {g : γ} {m : μ} {queue ms : List μ}

@[simp] theorem drains_nil : Drains apply P g [] ↔ P g := by
  simp [Drains]

theorem drains_cons :
    Drains apply P g (m :: queue) ↔ ∃ g', apply g m = some g' ∧ Drains apply P g' queue := by
  constructor
  · rintro ⟨g', h, hP⟩
    rw [List.foldlM_cons, Option.bind_eq_bind, Option.bind_eq_some_iff] at h
    obtain ⟨g₁, hm, hrest⟩ := h
    exact ⟨g₁, hm, g', hrest, hP⟩
  · rintro ⟨g₁, hm, g', hrest, hP⟩
    refine ⟨g', ?_, hP⟩
    rw [List.foldlM_cons, hm]
    exact hrest

theorem drains_append :
    Drains apply P g (queue ++ ms) ↔ Drains apply (fun g' => Drains apply P g' ms) g queue := by
  induction queue generalizing g with
  | nil => rw [List.nil_append, drains_nil]
  | cons m queue ih =>
      rw [List.cons_append, drains_cons, drains_cons]
      exact exists_congr fun g' => and_congr_right fun _ => ih

theorem Drains.mono (h : Drains apply P g queue) (hPQ : ∀ g, P g → Q g) :
    Drains apply Q g queue := by
  obtain ⟨g', hg', hP⟩ := h
  exact ⟨g', hg', hPQ g' hP⟩

/-- The arrival of a message. -/
theorem Drains.arrive (h : Drains apply P g (m :: queue)) :
    ∃ g', apply g m = some g' ∧ Drains apply P g' queue := drains_cons.mp h

/-- A message is appended. -/
theorem Drains.append (h : Drains apply P g queue) (hm : Carries apply P Q m) :
    Drains apply Q g (queue ++ [m]) := by
  rw [drains_append]
  refine h.mono fun g' hP => ?_
  obtain ⟨g₁, happly, hQ⟩ := hm g' hP
  exact drains_cons.mpr ⟨g₁, happly, drains_nil.mpr hQ⟩

/-- Messages are appended that keep the condition. -/
theorem Drains.appendAll (h : Drains apply P g queue) (hms : ∀ m ∈ ms, Carries apply P P m) :
    Drains apply P g (queue ++ ms) := by
  induction ms generalizing queue with
  | nil => rwa [List.append_nil]
  | cons m ms ih =>
      rw [← List.singleton_append, ← List.append_assoc]
      exact ih (h.append (hms m List.mem_cons_self))
        fun m' hm' => hms m' (List.mem_cons_of_mem m hm')

/-- Messages are appended, each of which brings the new condition about. -/
theorem Drains.appendSome (h : Drains apply P g queue) (hne : ms ≠ [])
    (hQP : ∀ g, Q g → P g) (hms : ∀ m ∈ ms, Carries apply P Q m) :
    Drains apply Q g (queue ++ ms) := by
  cases ms with
  | nil => exact absurd rfl hne
  | cons m ms =>
      rw [← List.singleton_append, ← List.append_assoc]
      refine (h.append (hms m List.mem_cons_self)).appendAll fun m' hm' g hQ => ?_
      exact hms m' (List.mem_cons_of_mem m hm') g (hQP g hQ)

/-- Messages are appended that keep either condition, and one of them brings the new one
about. -/
theorem Drains.appendOne (h : Drains apply P g queue) (hP : ∀ m ∈ ms, Carries apply P P m)
    (hQ : ∀ m ∈ ms, Carries apply Q Q m) (hone : ∃ m ∈ ms, Carries apply P Q m) :
    Drains apply Q g (queue ++ ms) := by
  obtain ⟨m, hm, hmQ⟩ := hone
  obtain ⟨front, back, rfl⟩ := List.append_of_mem hm
  have hfront : Drains apply P g (queue ++ front) :=
    h.appendAll fun m' hm' => hP m' (List.mem_append_left _ hm')
  have hback : Drains apply Q g (queue ++ front ++ [m] ++ back) :=
    (hfront.append hmQ).appendAll fun m' hm' =>
      hQ m' (List.mem_append_right front (List.mem_cons_of_mem m hm'))
  rwa [List.append_assoc, List.append_assoc] at hback

theorem Carries.mono {P' Q' : γ → Prop} (h : Carries apply P Q m) (hP : ∀ g, P' g → P g)
    (hQ : ∀ g, Q g → Q' g) : Carries apply P' Q' m := by
  intro g hg
  obtain ⟨g', happly, hg'⟩ := h g (hP g hg)
  exact ⟨g', happly, hQ g' hg'⟩

end InFlight
