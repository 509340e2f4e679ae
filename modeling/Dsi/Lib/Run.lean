/-!
# Dsi.Lib.Run

Runs of a machine with a total step function, over arbitrary states and events:
the state behind a sequence of events, a condition that every step of a run
meets, and the invariant rule for such runs.
-/

namespace Run

variable {σ ε : Type}

/-- The state behind a sequence of events. -/
def run (step : σ → ε → σ) (s : σ) (es : List ε) : σ := es.foldl step s

@[simp] theorem run_nil (step : σ → ε → σ) (s : σ) : run step s [] = s := rfl

@[simp] theorem run_cons (step : σ → ε → σ) (s : σ) (e : ε) (es : List ε) :
    run step s (e :: es) = run step (step s e) es := rfl

theorem run_append (step : σ → ε → σ) (s : σ) (es es' : List ε) :
    run step s (es ++ es') = run step (run step s es) es' := by
  simp [run]

/-- Every step of the run meets `P` in the state it is taken in. -/
def Along (step : σ → ε → σ) (P : σ → ε → Prop) : σ → List ε → Prop
  | _, [] => True
  | s, e :: es => P s e ∧ Along step P (step s e) es

instance {step : σ → ε → σ} {P : σ → ε → Prop} [∀ s e, Decidable (P s e)] :
    (s : σ) → (es : List ε) → Decidable (Along step P s es)
  | _, [] => inferInstanceAs (Decidable True)
  | s, e :: es =>
      @instDecidableAnd _ _ inferInstance (instDecidableAlong (step s e) es)

theorem along_append {step : σ → ε → σ} {P : σ → ε → Prop} {s : σ} {es es' : List ε} :
    Along step P s (es ++ es') ↔ Along step P s es ∧ Along step P (run step s es) es' := by
  induction es generalizing s with
  | nil => simp [Along]
  | cons e es ih =>
      rw [List.cons_append, Along, Along, ih, run_cons, and_assoc]

/-- A condition on the events alone. -/
theorem along_of_forall {step : σ → ε → σ} {P : ε → Prop} {es : List ε} (h : ∀ e ∈ es, P e)
    (s : σ) : Along step (fun _ e => P e) s es := by
  induction es generalizing s with
  | nil => trivial
  | cons e es ih =>
      exact ⟨h e List.mem_cons_self, ih (fun e he => h e (List.mem_cons_of_mem _ he)) (step s e)⟩

theorem along_congr {step : σ → ε → σ} {P Q : σ → ε → Prop} {s : σ} {es : List ε}
    (h : Along step (fun s e => P s e ↔ Q s e) s es) : Along step P s es ↔ Along step Q s es := by
  induction es generalizing s with
  | nil => rfl
  | cons e es ih => exact and_congr h.1 (ih h.2)

/-- The invariant rule: what holds initially and is preserved by every step that
meets the condition holds behind every run that meets it. -/
theorem invariant {step : σ → ε → σ} {P : σ → ε → Prop} {I : σ → Prop}
    (hstep : ∀ s e, I s → P s e → I (step s e)) {s : σ} {es : List ε} (h : I s)
    (ha : Along step P s es) : I (run step s es) := by
  induction es generalizing s with
  | nil => exact h
  | cons e es ih => exact ih (hstep s e h ha.1) ha.2

/-- What an invariant and the condition give for one step, they give along every run that
meets the condition. -/
theorem along_of_invariant {step : σ → ε → σ} {P Q : σ → ε → Prop} {I : σ → Prop}
    (hstep : ∀ s e, I s → P s e → I (step s e)) (hQ : ∀ s e, I s → P s e → Q s e) {s : σ}
    {es : List ε} (h : I s) (ha : Along step P s es) : Along step Q s es := by
  induction es generalizing s with
  | nil => trivial
  | cons e es ih => exact ⟨hQ s e h ha.1, ih (hstep s e h ha.1) ha.2⟩

end Run
