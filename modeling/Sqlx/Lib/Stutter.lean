import Mathlib.Logic.Basic

/-!
# Stutter — a machine that may stay silent, against one that always answers

A deterministic machine's step may panic (`none`), or ends with a label and
the next state. Some labels carry an output; the others are silent. A
specification answers on every step.

`Refines` says three things about states that keep an invariant:
* the machine's step does not panic, and keeps the invariant;
* a silent step leaves the abstract state where it was, and lowers a measure;
* a step with an output gives what the specification gives from the abstract
  state, and moves the abstract state as the specification does.

`Refines.run_ends` lifts this to runs of any length. The outputs are the
specification's first answers, in order, and at most `measure` of the steps
are silent. `run_labels` carries a property of each step's label to a whole
run. `listThen` is the specification that answers a list, then a default
forever.
-/

namespace Stutter

variable {σ τ β L : Type}

/-- `n` steps of the machine, with their labels; `none` at a panic. -/
def run (step : σ → Option (L × σ)) : Nat → σ → Option (List L × σ)
  | 0, s => some ([], s)
  | n + 1, s => do
    let (l, s') ← step s
    let (ls, s'') ← run step n s'
    pure (l :: ls, s'')

/-- The specification's first `n` answers. -/
def answers (spec : τ → β × τ) : Nat → τ → List β
  | 0, _ => []
  | n + 1, t => (spec t).1 :: answers spec n (spec t).2

section Run

variable (step : σ → Option (L × σ))

theorem run_succ {n : Nat} {s s₁ s' : σ} {l : L} {ls : List L} (hstep : step s = some (l, s₁))
    (hrun : run step n s₁ = some (ls, s')) : run step (n + 1) s = some (l :: ls, s') := by
  simp [run, hstep, hrun]

/-- A run of `n + 1` steps is a step, then a run of `n`. -/
theorem run_succ_eq_some {n : Nat} {s s' : σ} {ls : List L} (h : run step (n + 1) s = some (ls, s')) :
    ∃ l s₁ ls₁, step s = some (l, s₁) ∧ run step n s₁ = some (ls₁, s') ∧ ls = l :: ls₁ := by
  simp only [run, Option.bind_eq_bind] at h
  obtain ⟨⟨l, s₁⟩, hstep, h⟩ := Option.bind_eq_some_iff.1 h
  obtain ⟨⟨ls₁, s₂⟩, hrun, h⟩ := Option.bind_eq_some_iff.1 h
  cases h
  exact ⟨l, s₁, ls₁, hstep, hrun, rfl⟩

variable {Inv : σ → Prop}

/-- **Labels along a run.** A property of the label of every step from the
invariant holds of every label of a run from it. -/
theorem run_labels {P : L → Prop} (hstep : ∀ s l s', Inv s → step s = some (l, s') → P l ∧ Inv s') :
    ∀ n s ls s', Inv s → run step n s = some (ls, s') → ∀ l ∈ ls, P l := by
  intro n
  induction n with
  | zero =>
    rintro s ls s' - h l hl
    cases h
    exact absurd hl List.not_mem_nil
  | succ n ih =>
    intro s ls s' hs h
    obtain ⟨l₀, s₁, ls₁, hstep₀, hrun, rfl⟩ := run_succ_eq_some step h
    obtain ⟨hl₀, hs₁⟩ := hstep s l₀ s₁ hs hstep₀
    intro l hl
    rcases List.mem_cons.1 hl with rfl | hl
    · exact hl₀
    · exact ih s₁ ls₁ s' hs₁ hrun l hl

end Run

section Refines

variable (step : σ → Option (L × σ)) (out : L → Option β) (spec : τ → β × τ) (abs : σ → τ)
  (measure : σ → Nat) (Inv : σ → Prop)

/-- The machine refines the specification through `abs`, silent steps
paid for by `measure`, from states keeping `Inv`. -/
structure Refines : Prop where
  step_ends : ∀ s, Inv s → ∃ l s', step s = some (l, s') ∧ Inv s'
  silent : ∀ s l s', Inv s → step s = some (l, s') → out l = none → abs s' = abs s ∧ measure s' < measure s
  answer : ∀ s l s' b, Inv s → step s = some (l, s') → out l = some b →
    spec (abs s) = (b, abs s') ∧ measure s' ≤ measure s

variable {step out spec abs measure Inv}

/-- **The refinement over runs.** Any number of steps from the invariant
ends without panic; the outputs are the specification's first answers, and
every step but `measure` of them gives one. -/
theorem Refines.run_ends (h : Refines step out spec abs measure Inv) :
    ∀ n s, Inv s → ∃ ls s', run step n s = some (ls, s') ∧ Inv s' ∧
      ls.filterMap out = answers spec (ls.filterMap out).length (abs s) ∧
      n ≤ (ls.filterMap out).length + measure s := by
  intro n
  induction n with
  | zero => exact fun s hs => ⟨[], s, rfl, hs, rfl, Nat.zero_le _⟩
  | succ n ih =>
    intro s hs
    obtain ⟨l, s₁, hstep, hs₁⟩ := h.step_ends s hs
    obtain ⟨ls, s', hrun, hs', hout, hcount⟩ := ih s₁ hs₁
    refine ⟨l :: ls, s', run_succ step hstep hrun, hs', ?_⟩
    -- the first step is silent, or answers as the specification does
    cases hl : out l with
    | none =>
      obtain ⟨habs, hmeasure⟩ := h.silent s l s₁ hs hstep hl
      rw [List.filterMap_cons_none hl, ← habs]
      exact ⟨hout, by omega⟩
    | some b =>
      obtain ⟨hspec, hmeasure⟩ := h.answer s l s₁ b hs hstep hl
      rw [List.filterMap_cons_some hl, List.length_cons, answers, hspec]
      exact ⟨congrArg (b :: ·) hout, by omega⟩

end Refines

/-! ## A list, then a default forever -/

/-- The specification that answers the list in order, then `d` forever. -/
def listThen (d : β) : List β → β × List β
  | [] => (d, [])
  | b :: bs => (b, bs)

theorem answers_listThen (d : β) : ∀ (n : Nat) (bs : List β),
    answers (listThen d) n bs = (bs ++ List.replicate n d).take n
  | 0, _ => rfl
  | n + 1, [] => by
    simp only [answers, listThen]
    rw [answers_listThen d n [], List.nil_append, List.nil_append, List.replicate_succ, List.take_succ_cons]
  | n + 1, b :: bs => by
    simp only [answers, listThen]
    rw [answers_listThen d n bs, List.cons_append, List.take_succ_cons, List.take_append, List.take_append,
      List.take_replicate, List.take_replicate]
    -- the default is repeated past the `n` answers taken: one more changes nothing
    rw [show min (n - bs.length) (n + 1) = min (n - bs.length) n by omega]

end Stutter
