import Mathlib.Data.List.Basic

/-!
# Runs of a deterministic machine

A run folds a step function over a list of events.  `Along` says that every step of
a run meets a condition on the state before it.
-/

namespace Marlin.Library

variable {σ ε : Type} (step : σ → ε → σ)

def Along (P : σ → ε → Prop) : σ → List ε → Prop
  | _, [] => True
  | s, e :: es => P s e ∧ Along P (step s e) es

instance Along.decidable (P : σ → ε → Prop) [∀ s e, Decidable (P s e)] :
    ∀ s es, Decidable (Along step P s es)
  | _, [] => inferInstanceAs (Decidable True)
  | s, e :: es =>
      have := Along.decidable P (step s e) es
      inferInstanceAs (Decidable (P s e ∧ Along step P (step s e) es))

variable {step}

/-- What every step that meets the condition preserves holds at the end of the run. -/
theorem Along.invariant {P : σ → ε → Prop} {I : σ → Prop} {s : σ} {es : List ε}
    (hrun : Along step P s es) (hs : I s) (hstep : ∀ s e, I s → P s e → I (step s e)) :
    I (es.foldl step s) := by
  induction es generalizing s with
  | nil => exact hs
  | cons e es ih => exact ih hrun.2 (hstep s e hs hrun.1)

theorem Along.of_forall {P : ε → Prop} {s : σ} {es : List ε} (h : ∀ e ∈ es, P e) :
    Along step (fun _ e => P e) s es := by
  induction es generalizing s with
  | nil => trivial
  | cons e es ih => exact ⟨h e List.mem_cons_self, ih fun e' he => h e' (List.mem_cons_of_mem e he)⟩

theorem Along.of_split {P : σ → ε → Prop} {s : σ} {es : List ε}
    (h : ∀ done e rest, es = done ++ e :: rest → P (done.foldl step s) e) : Along step P s es := by
  induction es generalizing s with
  | nil => trivial
  | cons e es ih =>
      refine ⟨h [] e es rfl, ih fun done later rest hsplit => ?_⟩
      exact h (e :: done) later rest (congrArg (e :: ·) hsplit)

theorem Along.mono {P Q : σ → ε → Prop} {s : σ} {es : List ε} (h : Along step P s es)
    (hle : ∀ s e, P s e → Q s e) : Along step Q s es := by
  induction es generalizing s with
  | nil => trivial
  | cons e es ih => exact ⟨hle s e h.1, ih h.2⟩

theorem Along.and {P Q : σ → ε → Prop} {s : σ} {es : List ε}
    (hP : Along step P s es) (hQ : Along step Q s es) :
    Along step (fun s e => P s e ∧ Q s e) s es := by
  induction es generalizing s with
  | nil => trivial
  | cons e es ih => exact ⟨⟨hP.1, hQ.1⟩, ih hP.2 hQ.2⟩

theorem along_of_bounded {P : σ → ε → Prop} {f : σ → Nat} {bound : Nat} {s : σ}
    {es : List ε} (hrise : ∀ s e, f s ≤ f (step s e)) (hend : f (es.foldl step s) < bound)
    (hP : ∀ s e, f (step s e) < bound → P s e) : Along step P s es := by
  have hle : ∀ (es : List ε) (s : σ), f s ≤ f (es.foldl step s) := by
    intro es
    induction es with
    | nil => exact fun s => Nat.le_refl _
    | cons e es ih => exact fun s => Nat.le_trans (hrise s e) (ih (step s e))
  induction es generalizing s with
  | nil => trivial
  | cons e es ih =>
      exact ⟨hP s e (Nat.lt_of_le_of_lt (hle es (step s e)) hend), ih hend⟩

end Marlin.Library
