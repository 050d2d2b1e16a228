import Mathlib.Logic.Basic

/-!
# Run — a state machine driven by a list of inputs

A step takes an input and a state to the next state and an output. A run
feeds the inputs one after another. An invariant that every allowed input
keeps holds after every run of allowed inputs.
-/

namespace Run

variable {σ α β : Type} (step : α → σ → σ × β)

/-- The state after the inputs, one step each. -/
def run : σ → List α → σ
  | s, [] => s
  | s, a :: as => run (step a s).1 as

@[simp] theorem run_nil (s : σ) : run step s [] = s := rfl

@[simp] theorem run_cons (s : σ) (a : α) (as : List α) :
    run step s (a :: as) = run step (step a s).1 as := rfl

theorem run_append (s : σ) (as bs : List α) : run step s (as ++ bs) = run step (run step s as) bs := by
  induction as generalizing s with
  | nil => rfl
  | cons a as ih => exact ih _

section Invariant

variable {step} (Allowed : α → Prop) (Inv : σ → Prop)

/-- **The run rule.** An invariant that every allowed step keeps holds after
every run of allowed inputs. -/
theorem run_invariant (hstep : ∀ a s, Allowed a → Inv s → Inv (step a s).1) :
    ∀ (as : List α) (s : σ), (∀ a ∈ as, Allowed a) → Inv s → Inv (run step s as) := by
  intro as
  induction as with
  | nil => intro s _ h; exact h
  | cons a as ih =>
    intro s hall h
    exact ih _ (fun b hb => hall b (List.mem_cons_of_mem a hb)) (hstep a s (hall a List.mem_cons_self) h)

end Invariant

end Run
