import Mathlib.Logic.Basic

/-!
# EStateM — programs that can fail part way

`EStateM ε σ α` runs on a state and ends in `.ok a s` or in `.error e s`.
An error keeps the state the program had reached, so a program that returns
early leaves behind whatever it did before it returned. The rules here take
a program apart at a bind, and carry an invariant through a `forM` loop,
over a run that succeeds and over one that stops at an error. A `loop` that
runs a turn until the turn returns terminates by a measure of the state that
every further turn lowers. For `Except`, the same without a state, a bind on
a result already known reduces.
-/

namespace EStateM

variable {ε σ α β : Type}

/-- The state a run ends in, whether it succeeded or failed. -/
def Result.state : Result ε σ α → σ
  | .ok _ s => s
  | .error _ s => s

section Bind

variable {x : EStateM ε σ α} {f : α → EStateM ε σ β} {s s' : σ}

theorem run_bind_of_ok {a : α} {s₁ : σ} (h : x.run s = .ok a s₁) :
    (x >>= f).run s = (f a).run s₁ := by
  rw [run_bind, h]

theorem run_bind_of_error {e : ε} (h : x.run s = .error e s') : (x >>= f).run s = .error e s' := by
  rw [run_bind, h]

theorem run_map_of_ok {g : α → β} {a : α} {s₁ : σ} (h : x.run s = .ok a s₁) :
    (g <$> x).run s = .ok (g a) s₁ := by
  rw [map_eq_pure_bind, run_bind, h]
  rfl

/-- A bind succeeds when both parts do, one after the other. -/
theorem run_bind_eq_ok {b : β} :
    (x >>= f).run s = .ok b s' ↔ ∃ a s₁, x.run s = .ok a s₁ ∧ (f a).run s₁ = .ok b s' := by
  rw [run_bind]
  cases x.run s with
  | ok a s₁ =>
    simp only [Result.ok.injEq]
    exact ⟨fun h => ⟨a, s₁, ⟨rfl, rfl⟩, h⟩, fun ⟨_, _, ⟨ha, hs⟩, h⟩ => ha ▸ hs ▸ h⟩
  | error e s₁ => simp

/-- A bind fails in its first part, or in its second after the first
succeeded. -/
theorem run_bind_eq_error {e : ε} :
    (x >>= f).run s = .error e s' ↔
      x.run s = .error e s' ∨ ∃ a s₁, x.run s = .ok a s₁ ∧ (f a).run s₁ = .error e s' := by
  rw [run_bind]
  cases x.run s with
  | ok a s₁ =>
    simp only [reduceCtorEq, Result.ok.injEq, false_or]
    exact ⟨fun h => ⟨a, s₁, ⟨rfl, rfl⟩, h⟩, fun ⟨_, _, ⟨ha, hs⟩, h⟩ => ha ▸ hs ▸ h⟩
  | error e₁ s₁ => simp

end Bind

@[simp] theorem run_ofExcept_ok (a : α) (s : σ) :
    (ofExcept (.ok a : Except ε α) : EStateM ε σ α).run s = .ok a s := rfl

@[simp] theorem run_ofExcept_error (e : ε) (s : σ) :
    (ofExcept (.error e : Except ε α) : EStateM ε σ α).run s = .error e s := rfl

/-- Every error the program raises satisfies `P`. -/
def FailsOnlyWith (P : ε → Prop) (x : EStateM ε σ α) : Prop :=
  ∀ s e s', x.run s = .error e s' → P e

section Loop

variable {f : α → EStateM ε σ PUnit} (Inv : List α → σ → Prop)

/-- **The early-exit rule.** A loop that fails stopped at one of its
elements, in a state the invariant holds of at the elements before it. -/
theorem forM_error_invariant
    (hstep : ∀ done a s s', Inv done s → (f a).run s = .ok ⟨⟩ s' → Inv (done ++ [a]) s') :
    ∀ (as done : List α) {s s' : σ} {e : ε}, Inv done s → (forM as f).run s = .error e s' →
      ∃ pre a post s₁, as = pre ++ a :: post ∧ Inv (done ++ pre) s₁ ∧ (f a).run s₁ = .error e s' := by
  intro as
  induction as with
  | nil =>
    intro done s s' e _ hrun
    simp at hrun
  | cons a as ih =>
    intro done s s' e h hrun
    rw [List.forM_cons, run_bind_eq_error] at hrun
    rcases hrun with ha | ⟨⟨⟩, s₁, ha, hrest⟩
    · exact ⟨[], a, as, s, rfl, by rwa [List.append_nil], ha⟩
    · obtain ⟨pre, b, post, s₂, rfl, hinv, hb⟩ := ih (done ++ [a]) (hstep done a s s₁ h ha) hrest
      refine ⟨a :: pre, b, post, s₂, rfl, ?_, hb⟩
      rwa [List.append_assoc, List.singleton_append] at hinv

end Loop

/-! ## Loops that each turn brings closer to their end

`loop { ... }` runs a turn on the loop's variables until the turn breaks
with a value (`.inr`) or fails; a turn that continues (`.inl`) hands the
variables to the next. The loop terminates when every turn that continues
leaves a measure `μ` of the state lower (`Advances`). `Keeps μ x` says that
`x`, when it succeeds, leaves `μ` no higher, `Lowers μ x` that it leaves it
lower; both pass through binds, and a loop of turns that keep a measure
keeps it. -/

section Measure

variable {γ : Type} (μ : σ → Nat)

/-- `x`, when it succeeds, leaves `μ` no higher. -/
def Keeps (x : EStateM ε σ α) : Prop := ∀ s a s', x.run s = .ok a s' → μ s' ≤ μ s

/-- `x`, when it succeeds, leaves `μ` lower. -/
def Lowers (x : EStateM ε σ α) : Prop := ∀ s a s', x.run s = .ok a s' → μ s' < μ s

/-- A turn that, whenever it continues, leaves `μ` lower. -/
def Advances (turn : γ → EStateM ε σ (γ ⊕ β)) : Prop :=
  ∀ c s c' s', (turn c).run s = .ok (.inl c') s' → μ s' < μ s

variable {μ} {x : EStateM ε σ α} {f : α → EStateM ε σ β}

theorem Lowers.keeps (h : Lowers μ x) : Keeps μ x := fun s a s' hx => Nat.le_of_lt (h s a s' hx)

theorem Lowers.advances {turn : γ → EStateM ε σ (γ ⊕ β)} (h : ∀ c, Lowers μ (turn c)) : Advances μ turn :=
  fun c s c' s' hx => h c s (.inl c') s' hx

theorem keeps_pure (a : α) : Keeps μ (pure a : EStateM ε σ α) := by
  intro s b s' h
  cases h
  exact Nat.le_refl _

theorem keeps_throw (e : ε) : Keeps μ (throw e : EStateM ε σ α) := by
  intro s a s' h
  cases h

theorem keeps_get : Keeps μ (get : EStateM ε σ σ) := by
  intro s a s' h
  cases h
  exact Nat.le_refl _

theorem keeps_modify {g : σ → σ} (hg : ∀ s, μ (g s) ≤ μ s) : Keeps μ (modify g : EStateM ε σ PUnit) := by
  intro s a s' h
  cases h
  exact hg s

theorem Keeps.bind (hx : Keeps μ x) (hf : ∀ a, Keeps μ (f a)) : Keeps μ (x >>= f) := by
  intro s b s' h
  obtain ⟨a, s₁, hx₁, hf₁⟩ := run_bind_eq_ok.1 h
  exact Nat.le_trans (hf a s₁ b s' hf₁) (hx s a s₁ hx₁)

theorem Lowers.bind_left (hx : Lowers μ x) (hf : ∀ a, Keeps μ (f a)) : Lowers μ (x >>= f) := by
  intro s b s' h
  obtain ⟨a, s₁, hx₁, hf₁⟩ := run_bind_eq_ok.1 h
  exact Nat.lt_of_le_of_lt (hf a s₁ b s' hf₁) (hx s a s₁ hx₁)

theorem Lowers.bind_right (hx : Keeps μ x) (hf : ∀ a, Lowers μ (f a)) : Lowers μ (x >>= f) := by
  intro s b s' h
  obtain ⟨a, s₁, hx₁, hf₁⟩ := run_bind_eq_ok.1 h
  exact Nat.lt_of_lt_of_le (hf a s₁ b s' hf₁) (hx s a s₁ hx₁)

-- `hr` is read by `decreasing_by` only
set_option linter.unusedVariables false in
/-- The run of `loop { ... }` on the variables `c` from `s`, one turn at a time. -/
def loopRun (turn : γ → EStateM ε σ (γ ⊕ β)) (h : Advances μ turn) (c : γ) (s : σ) : Result ε σ β :=
  match hr : (turn c).run s with
  | .ok (.inl c') s' => loopRun turn h c' s'
  | .ok (.inr b) s' => .ok b s'
  | .error e s' => .error e s'
termination_by μ s
decreasing_by exact h c s c' s' hr

/-- `loop { ... }` from the variables `c`. -/
def loopUntil (turn : γ → EStateM ε σ (γ ⊕ β)) (h : Advances μ turn) (c : γ) : EStateM ε σ β :=
  loopRun turn h c

variable {turn : γ → EStateM ε σ (γ ⊕ β)} {h : Advances μ turn} {c c' : γ} {s s' : σ}

theorem loopUntil_of_continue (hr : (turn c).run s = .ok (.inl c') s') :
    (loopUntil turn h c).run s = (loopUntil turn h c').run s' := by
  show loopRun turn h c s = loopRun turn h c' s'
  rw [loopRun]
  split <;> simp_all

theorem loopUntil_of_break {b : β} (hr : (turn c).run s = .ok (.inr b) s') :
    (loopUntil turn h c).run s = .ok b s' := by
  show loopRun turn h c s = _
  rw [loopRun]
  split <;> simp_all

theorem loopUntil_of_error {e : ε} (hr : (turn c).run s = .error e s') :
    (loopUntil turn h c).run s = .error e s' := by
  show loopRun turn h c s = _
  rw [loopRun]
  split <;> simp_all

/-- A loop of turns that keep a measure `ν` keeps it, whatever measure the
loop terminates by. -/
theorem Keeps.loopUntil {ν : σ → Nat} (hturn : ∀ c, Keeps ν (turn c)) (c : γ) :
    Keeps ν (loopUntil turn h c) := by
  intro s
  -- strong induction on the measure the loop terminates by
  induction hs : μ s using Nat.strongRecOn generalizing c s with
  | _ n ih =>
    intro b s' hrun
    cases hr : (turn c).run s with
    | ok r s₁ =>
      cases r with
      | inl c₁ =>
        rw [loopUntil_of_continue hr] at hrun
        exact Nat.le_trans (ih (μ s₁) (hs ▸ h c s c₁ s₁ hr) c₁ s₁ rfl b s' hrun) (hturn c s _ _ hr)
      | inr b' =>
        rw [loopUntil_of_break hr] at hrun
        cases hrun
        exact hturn c s _ _ hr
    | error e s₁ =>
      rw [loopUntil_of_error hr] at hrun
      cases hrun

/-- A loop of turns that each lower a measure `ν` lowers it: the turn that
breaks lowers it too. -/
theorem Lowers.loopUntil {ν : σ → Nat} (hturn : ∀ c, Lowers ν (turn c)) (c : γ) :
    Lowers ν (loopUntil turn h c) := by
  intro s
  induction hs : μ s using Nat.strongRecOn generalizing c s with
  | _ n ih =>
    intro b s' hrun
    cases hr : (turn c).run s with
    | ok r s₁ =>
      cases r with
      | inl c₁ =>
        rw [loopUntil_of_continue hr] at hrun
        exact Nat.lt_trans (ih (μ s₁) (hs ▸ h c s c₁ s₁ hr) c₁ s₁ rfl b s' hrun) (hturn c s _ _ hr)
      | inr b' =>
        rw [loopUntil_of_break hr] at hrun
        cases hrun
        exact hturn c s _ _ hr
    | error e s₁ =>
      rw [loopUntil_of_error hr] at hrun
      cases hrun

end Measure

/-! ## Triples

`Triple P x Q R`: from a state in `P`, `x` succeeds with a value `a` in a
state in `Q a`, or fails with an error `e` in a state in `R e`. The rules
take a program apart at its binds, its branches and its loops, so that a
property of every way a program can end is proved from one triple per
primitive. -/

section Triple

/-- From a state in `P`, `x` ends in `Q` when it succeeds and in `R` when it fails. -/
def Triple (P : σ → Prop) (x : EStateM ε σ α) (Q : α → σ → Prop) (R : ε → σ → Prop) : Prop :=
  ∀ s, P s → match x.run s with
    | .ok a s' => Q a s'
    | .error e s' => R e s'

variable {P P' : σ → Prop} {x : EStateM ε σ α} {f : α → EStateM ε σ β} {Q Q' : α → σ → Prop}
  {S : β → σ → Prop} {R R' : ε → σ → Prop}

theorem Triple.of_ok {s a s'} (h : Triple P x Q R) (hs : P s) (hx : x.run s = .ok a s') : Q a s' := by
  have := h s hs
  rwa [hx] at this

theorem Triple.of_error {s e s'} (h : Triple P x Q R) (hs : P s) (hx : x.run s = .error e s') : R e s' := by
  have := h s hs
  rwa [hx] at this

theorem Triple.mono (h : Triple P x Q R) (hP : ∀ s, P' s → P s) (hQ : ∀ a s, Q a s → Q' a s)
    (hR : ∀ e s, R e s → R' e s) : Triple P' x Q' R' := by
  intro s hs
  have := h s (hP s hs)
  cases hx : x.run s with
  | ok a s' => rw [hx] at this; exact hQ a s' this
  | error e s' => rw [hx] at this; exact hR e s' this

theorem Triple.pure' {a : α} (h : ∀ s, P s → Q a s) : Triple P (pure a : EStateM ε σ α) Q R :=
  fun s hs => h s hs

theorem Triple.throw' {e : ε} (h : ∀ s, P s → R e s) : Triple P (throw e : EStateM ε σ α) Q R :=
  fun s hs => h s hs

theorem Triple.get' : Triple P (get : EStateM ε σ σ) (fun a s => P s ∧ a = s) R :=
  fun _ hs => ⟨hs, rfl⟩

theorem Triple.modify' {g : σ → σ} {Q : PUnit → σ → Prop} (h : ∀ s, P s → Q () (g s)) :
    Triple P (modify g : EStateM ε σ PUnit) Q R :=
  fun s hs => h s hs

theorem Triple.bind (hx : Triple P x Q R) (hf : ∀ a, Triple (Q a) (f a) S R) : Triple P (x >>= f) S R := by
  intro s hs
  rw [run_bind]
  have := hx s hs
  cases hr : x.run s with
  | ok a s₁ =>
    rw [hr] at this
    exact hf a s₁ this
  | error e s₁ =>
    rw [hr] at this
    exact this

theorem Triple.map' {g : α → β} {S : β → σ → Prop} (h : Triple P x (fun a => S (g a)) R) :
    Triple P (g <$> x) S R := by
  rw [map_eq_pure_bind]
  exact Triple.bind h fun _ => Triple.pure' fun _ hs => hs

/-- A branch on a condition of the start state: each branch from the states
where it is taken. -/
theorem Triple.ite {c : Prop} [Decidable c] {y z : EStateM ε σ α} (hy : c → Triple P y Q R)
    (hz : ¬c → Triple P z Q R) : Triple P (if c then y else z) Q R := by
  by_cases hc : c
  · rw [if_pos hc]; exact hy hc
  · rw [if_neg hc]; exact hz hc

/-- A computation whose run is known from every start state. -/
theorem Triple.of_run {a : α} {g : σ → σ} (hrun : ∀ s, x.run s = .ok a (g s)) (h : ∀ s, P s → Q a (g s)) :
    Triple P x Q R := by
  intro s hs
  rw [hrun s]
  exact h s hs

/-- A triple proved from each start state on its own. -/
theorem Triple.of_each (h : ∀ s₀, P s₀ → Triple (· = s₀) x Q R) : Triple P x Q R :=
  fun s hs => h s hs s rfl

/-- From no state, anything. -/
theorem Triple.of_false : Triple (fun _ => False) x Q R := fun _ h => h.elim

/-- A precondition that fixes something of the start state may be taken apart first. -/
theorem Triple.of_forall {ι : Type} {P : ι → σ → Prop} (h : ∀ i, Triple (P i) x Q R) :
    Triple (fun s => ∃ i, P i s) x Q R := by
  rintro s ⟨i, hs⟩
  exact h i s hs

/-- **The loop rule.** An invariant of the loop's variables and state that
every turn keeps when it continues, and that gives `Q` when it breaks. -/
theorem Triple.loopUntil {γ : Type} {μ : σ → Nat} {turn : γ → EStateM ε σ (γ ⊕ β)} {hadv : Advances μ turn}
    {I : γ → σ → Prop}
    (hturn : ∀ c, Triple (I c) (turn c) (fun r s => match r with | .inl c' => I c' s | .inr b => S b s) R)
    (c : γ) : Triple (I c) (loopUntil turn hadv c) S R := by
  intro s hs
  -- strong induction on the measure the loop terminates by
  induction hm : μ s using Nat.strongRecOn generalizing c s with
  | _ n ih =>
    have hstep := hturn c s hs
    cases hr : (turn c).run s with
    | ok r s₁ =>
      rw [hr] at hstep
      cases r with
      | inl c₁ =>
        rw [loopUntil_of_continue hr]
        exact ih (μ s₁) (hm ▸ hadv c s c₁ s₁ hr) c₁ s₁ hstep rfl
      | inr b =>
        rw [loopUntil_of_break hr]
        exact hstep
    | error e s₁ =>
      rw [hr] at hstep
      rw [loopUntil_of_error hr]
      exact hstep

end Triple

end EStateM

namespace Except

variable {ε α β : Type}

@[simp] theorem ok_bind (a : α) (f : α → Except ε β) : (Except.ok a >>= f) = f a := rfl

@[simp] theorem error_bind (e : ε) (f : α → Except ε β) : (Except.error e >>= f : Except ε β) = .error e := rfl

end Except
