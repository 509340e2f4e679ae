import Dsi.Lib.Run

/-!
# Dsi.Lib.Partial

Programs that may break off, as computations in `Except`: what a bind that
succeeds went through, and runs of a machine whose steps may break off, with the
invariant rule for them.  Behind a step that breaks off there is no state.  The
simulation rule compares such runs with those of a machine that never breaks off.
-/

namespace Partial

variable {φ α β σ ε : Type}

theorem bind_eq_ok {x : Except φ α} {f : α → Except φ β} {b : β} (h : x >>= f = .ok b) :
    ∃ a, x = .ok a ∧ f a = .ok b := by
  cases x with
  | error e => exact absurd h (by simp [bind, Except.bind])
  | ok a => exact ⟨a, rfl, h⟩

/-- A guarded computation returns behind its guard. -/
theorem guard_eq_ok {p : Prop} [Decidable p] {x : Except φ α} {e : φ} {a : α}
    (h : (if p then x else .error e) = .ok a) : p ∧ x = .ok a := by
  split at h
  · next hp => exact ⟨hp, h⟩
  · cases h

/-- That a computation comes to an end in `P` can be evaluated. -/
instance instDecidableExistsOk {P : α → Prop} [DecidablePred P] :
    (x : Except φ α) → Decidable (∃ a, x = .ok a ∧ P a)
  | .ok a =>
      decidable_of_iff (P a) ⟨fun h => ⟨a, rfl, h⟩, fun ⟨_, hb, h⟩ => Except.ok.inj hb ▸ h⟩
  | .error _ => isFalse (fun ⟨_, hb, _⟩ => by cases hb)

/-- What a computation breaks off with, if it does. -/
def fault? : Except φ α → Option φ
  | .ok _ => none
  | .error e => some e

/-- The computation does not break off with a fault of `F`, and what it returns meets `P`. -/
def Avoids (F : φ → Prop) (P : α → Prop) : Except φ α → Prop
  | .ok a => P a
  | .error e => ¬ F e

theorem Avoids.imp {F : φ → Prop} {P Q : α → Prop} {x : Except φ α} (h : Avoids F P x)
    (hPQ : ∀ a, P a → Q a) : Avoids F Q x := by
  cases x with
  | ok a => exact hPQ a h
  | error e => exact h

theorem Avoids.bind {F : φ → Prop} {P : α → Prop} {Q : β → Prop} {x : Except φ α}
    {f : α → Except φ β} (h : Avoids F P x) (hf : ∀ a, P a → Avoids F Q (f a)) :
    Avoids F Q (x >>= f) := by
  cases x with
  | ok a => exact hf a h
  | error e => exact h

/-- A computation that avoids every fault returns. -/
theorem Avoids.exists_ok {P : α → Prop} {x : Except φ α} (h : Avoids (fun _ => True) P x) :
    ∃ a, x = .ok a ∧ P a := by
  cases x with
  | ok a => exact ⟨a, rfl, h⟩
  | error e => exact absurd trivial h

/-- The state behind a sequence of events, if no step breaks off. -/
def run (step : σ → ε → Except φ σ) (s : σ) : List ε → Except φ σ
  | [] => .ok s
  | e :: es => step s e >>= fun s' => run step s' es

@[simp] theorem run_nil (step : σ → ε → Except φ σ) (s : σ) : run step s [] = .ok s := rfl

theorem run_cons_of_ok {step : σ → ε → Except φ σ} {s s' : σ} {e : ε} (h : step s e = .ok s')
    (es : List ε) : run step s (e :: es) = run step s' es := by
  rw [run, h]
  rfl

theorem run_append {step : σ → ε → Except φ σ} {s : σ} {es es' : List ε} :
    run step s (es ++ es') = run step s es >>= fun s' => run step s' es' := by
  induction es generalizing s with
  | nil => rfl
  | cons e es ih =>
      rw [List.cons_append, run, run]
      cases step s e with
      | error x => rfl
      | ok s' => exact ih

/-- Every step of the run meets `P` in the state it is taken in. -/
def Along (step : σ → ε → Except φ σ) (P : σ → ε → Prop) : σ → List ε → Prop
  | _, [] => True
  | s, e :: es =>
      P s e ∧
        match step s e with
        | .ok s' => Along step P s' es
        | .error _ => True

instance instDecidableAlong {step : σ → ε → Except φ σ} {P : σ → ε → Prop}
    [∀ s e, Decidable (P s e)] : (s : σ) → (es : List ε) → Decidable (Along step P s es)
  | _, [] => inferInstanceAs (Decidable True)
  | s, e :: es =>
      match h : step s e with
      | .ok s' =>
          @decidable_of_iff _ (P s e ∧ Along step P s' es) (by simp only [Along, h])
            (@instDecidableAnd _ _ inferInstance (instDecidableAlong s' es))
      | .error _ => decidable_of_iff (P s e) (by simp only [Along, h, and_true])

theorem Along.cons {step : σ → ε → Except φ σ} {P : σ → ε → Prop} {s s' : σ} {e : ε}
    {es : List ε} (h : P s e) (hstep : step s e = .ok s') (ha : Along step P s' es) :
    Along step P s (e :: es) := by
  refine ⟨h, ?_⟩
  rw [hstep]
  exact ha

theorem Along.tail {step : σ → ε → Except φ σ} {P : σ → ε → Prop} {s s' : σ} {e : ε}
    {es : List ε} (ha : Along step P s (e :: es)) (h : step s e = .ok s') :
    Along step P s' es := by
  have htail := ha.2
  rw [h] at htail
  exact htail

theorem Along.append_right {step : σ → ε → Except φ σ} {P : σ → ε → Prop} {s s' : σ}
    {es es' : List ε} (ha : Along step P s (es ++ es')) (h : run step s es = .ok s') :
    Along step P s' es' := by
  induction es generalizing s with
  | nil => exact Except.ok.inj h ▸ ha
  | cons e es ih =>
      obtain ⟨t, ht, hrest⟩ := bind_eq_ok h
      exact ih (ha.tail ht) hrest

/-- What holds along a run holds of every step of it. -/
theorem along_iff_forall {step : σ → ε → Except φ σ} {P : σ → ε → Prop} {s : σ} {es : List ε} :
    Along step P s es ↔
      ∀ front e rest t, es = front ++ e :: rest → run step s front = .ok t → P t e := by
  constructor
  · rintro ha front e rest t rfl hrun
    exact (ha.append_right hrun).1
  · intro h
    induction es generalizing s with
    | nil => trivial
    | cons e es ih =>
        refine ⟨h [] e es s rfl rfl, ?_⟩
        cases ht : step s e with
        | error _ => trivial
        | ok t =>
            refine ih fun front e' rest t' hes hrun => ?_
            exact h (e :: front) e' rest t' (hes ▸ rfl) ((run_cons_of_ok ht front).trans hrun)

/-- The invariant rule: what holds initially and is preserved by every step that
meets the condition holds behind every run that meets it. -/
theorem invariant {step : σ → ε → Except φ σ} {P : σ → ε → Prop} {I : σ → Prop}
    (hstep : ∀ s e s', I s → P s e → step s e = .ok s' → I s') {s s' : σ} {es : List ε}
    (h : I s) (ha : Along step P s es) (hrun : run step s es = .ok s') : I s' := by
  induction es generalizing s with
  | nil => exact Except.ok.inj hrun ▸ h
  | cons e es ih =>
      obtain ⟨t, ht, hrest⟩ := bind_eq_ok hrun
      exact ih (hstep s e t h ha.1 ht) (ha.tail ht) hrest

/-- What an invariant and the condition give for one step, they give along every
run that meets the condition. -/
theorem along_of_invariant {step : σ → ε → Except φ σ} {P Q : σ → ε → Prop} {I : σ → Prop}
    (hstep : ∀ s e s', I s → P s e → step s e = .ok s' → I s')
    (hQ : ∀ s e, I s → P s e → Q s e) {s : σ} {es : List ε} (h : I s)
    (ha : Along step P s es) : Along step Q s es := by
  induction es generalizing s with
  | nil => trivial
  | cons e es ih =>
      refine ⟨hQ s e h ha.1, ?_⟩
      cases ht : step s e with
      | error _ => trivial
      | ok t => exact ih (hstep s e t h ha.1 ht) (ha.tail ht)

/-- Two conditions that agree where the invariant holds agree along every run, if the
steps that meet them preserve it. -/
theorem along_iff {step : σ → ε → Except φ σ} {P Q : σ → ε → Prop} {I : σ → Prop}
    (hiff : ∀ s e, I s → (P s e ↔ Q s e))
    (hstep : ∀ s e s', I s → Q s e → step s e = .ok s' → I s') {s : σ} (h : I s) (es : List ε) :
    Along step P s es ↔ Along step Q s es := by
  constructor
  · refine along_of_invariant (fun s e s' hs hP => hstep s e s' hs ((hiff s e hs).mp hP)) ?_ h
    exact fun s e hs hP => (hiff s e hs).mp hP
  · exact along_of_invariant hstep (fun s e hs hQ => (hiff s e hs).mpr hQ) h

/-- The simulation rule: a machine that can follow every step of another one, from a state that
is related to the state of that one, follows its runs. -/
theorem simulates {τ : Type} {step : σ → ε → Except φ σ} {spec : τ → ε → τ} {R : σ → τ → Prop}
    {P : τ → ε → Prop}
    (hstep : ∀ s t e, R s t → P t e → ∃ s', step s e = .ok s' ∧ R s' (spec t e)) {s : σ} {t : τ}
    {es : List ε} (h : R s t) (ha : Run.Along spec P t es) :
    ∃ s', run step s es = .ok s' ∧ R s' (Run.run spec t es) := by
  induction es generalizing s t with
  | nil => exact ⟨s, rfl, h⟩
  | cons e es ih =>
      obtain ⟨s₁, hfirst, h₁⟩ := hstep s t e h ha.1
      obtain ⟨s', hrest, h'⟩ := ih h₁ ha.2
      exact ⟨s', (run_cons_of_ok hfirst es).trans hrest, h'⟩

end Partial
