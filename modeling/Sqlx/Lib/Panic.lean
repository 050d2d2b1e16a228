import Mathlib.Logic.Basic

/-!
# Panic — computations that may panic, and what they end with

A Rust function that may panic (an index out of bounds, an `unwrap` of
`None`, an arithmetic overflow) is a computation in `Option`: `none` is the
panic. One that may also return an `Err` through `?` is a computation in
`ExceptT ε Option`. `Ends x P` says that `x` does not panic and ends with a
value satisfying `P`; `EndsE x P` that `x` does not panic, and that the value
it ends with, unless it is an error, satisfies `P`.

The rules carry these through `pure`, binds, lifts, `mapM` and `foldlM`, so
that a proof that a whole function never panics is assembled from one lemma
per operation it calls, each with the postcondition the next one needs.
-/

namespace Panic

variable {ε α β : Type}

/-- `x` does not panic, and its value satisfies `P`. -/
def Ends (x : Option α) (P : α → Prop) : Prop := ∃ a, x = some a ∧ P a

section Ends

variable {x : Option α} {P Q : α → Prop}

theorem Ends.pure {a : α} (h : P a) : Ends (pure a) P := ⟨a, rfl, h⟩

theorem Ends.isSome (h : Ends x P) : x.isSome := by
  obtain ⟨a, rfl, -⟩ := h
  rfl

theorem Ends.mono (h : Ends x P) (hPQ : ∀ a, P a → Q a) : Ends x Q := by
  obtain ⟨a, hx, ha⟩ := h
  exact ⟨a, hx, hPQ a ha⟩

theorem Ends.of_eq {a : α} (hx : x = some a) (ha : P a) : Ends x P := ⟨a, hx, ha⟩

/-- A value read back from a computation that ended with it. -/
theorem Ends.of_eq_some {a : α} (h : Ends x P) (hx : x = some a) : P a := by
  obtain ⟨b, hb, hP⟩ := h
  rw [hx] at hb
  cases hb
  exact hP

/-- **The branch rule.** -/
theorem Ends.ite {c : Prop} [Decidable c] {y : Option α} (ht : c → Ends x P) (he : ¬c → Ends y P) :
    Ends (if c then x else y) P := by
  by_cases hc : c
  · rw [if_pos hc]
    exact ht hc
  · rw [if_neg hc]
    exact he hc

/-- **The bind rule.** -/
theorem Ends.bind {f : α → Option β} {R : β → Prop} (hx : Ends x P) (hf : ∀ a, P a → Ends (f a) R) :
    Ends (x >>= f) R := by
  obtain ⟨a, rfl, ha⟩ := hx
  exact hf a ha

/-- A bind on a value known to be there. -/
theorem Ends.bind_of_eq {a : α} {f : α → Option β} {R : β → Prop} (hx : x = some a) (hf : Ends (f a) R) :
    Ends (x >>= f) R := by
  rw [hx]
  exact hf

/-- A `map` of a value that ends. -/
theorem Ends.map {f : α → β} {R : β → Prop} (hx : Ends x P) (hf : ∀ a, P a → R (f a)) :
    Ends (f <$> x) R := by
  obtain ⟨a, rfl, ha⟩ := hx
  exact ⟨f a, rfl, hf a ha⟩

/-- **The `mapM` rule.** Every element's computation ends, so the whole
does, with a list of values that each satisfy the postcondition, one per
element. -/
theorem Ends.mapM {f : β → Option α} :
    ∀ (l : List β), (∀ b ∈ l, Ends (f b) P) →
      Ends (l.mapM f) (fun as => as.length = l.length ∧ ∀ a ∈ as, P a)
  | [], _ => ⟨[], rfl, rfl, fun _ h => absurd h List.not_mem_nil⟩
  | b :: l, h => by
    rw [List.mapM_cons]
    refine (h b List.mem_cons_self).bind fun a ha => ?_
    refine (Ends.mapM l fun c hc => h c (List.mem_cons_of_mem b hc)).bind fun as has => ?_
    refine Ends.pure ⟨by rw [List.length_cons, List.length_cons, has.1], ?_⟩
    intro a' ha'
    rcases List.mem_cons.1 ha' with rfl | hmem
    · exact ha
    · exact has.2 a' hmem

/-- **The `foldlM` rule.** An invariant that every turn keeps, from any
accumulator it holds of, holds when the fold ends, and the fold ends. -/
theorem Ends.foldlM {f : α → β → Option α} (I : α → Prop) :
    ∀ (l : List β) (init : α), (∀ acc b, b ∈ l → I acc → Ends (f acc b) I) → I init → Ends (l.foldlM f init) I
  | [], init, _, hinit => ⟨init, rfl, hinit⟩
  | b :: l, init, hturn, hinit => by
    rw [List.foldlM_cons]
    exact (hturn init b List.mem_cons_self hinit).bind fun acc hacc =>
      Ends.foldlM I l acc (fun acc' c hc => hturn acc' c (List.mem_cons_of_mem b hc)) hacc

end Ends

/-- `x` does not panic, and the value it ends with, when it is not an
error, satisfies `P`. -/
def EndsE (x : ExceptT ε Option α) (P : α → Prop) : Prop :=
  Ends x.run fun r => ∀ a, r = .ok a → P a

section EndsE

variable {x : ExceptT ε Option α} {P Q : α → Prop}

theorem EndsE.pure {a : α} (h : P a) : EndsE (pure a : ExceptT ε Option α) P :=
  ⟨.ok a, rfl, fun _ hb => by cases hb; exact h⟩

theorem EndsE.throw (e : ε) : EndsE (throw e : ExceptT ε Option α) P :=
  ⟨.error e, rfl, fun _ hb => by cases hb⟩

theorem EndsE.isSome (h : EndsE x P) : x.run.isSome := Ends.isSome h

theorem EndsE.mono (h : EndsE x P) (hPQ : ∀ a, P a → Q a) : EndsE x Q :=
  Ends.mono h fun _ hr a ha => hPQ a (hr a ha)

/-- A computation in `Option` lifted: it cannot fail with an error. -/
theorem EndsE.lift {o : Option α} (h : Ends o P) : EndsE (ExceptT.lift o : ExceptT ε Option α) P := by
  obtain ⟨a, ho, ha⟩ := h
  refine ⟨.ok a, by rw [ExceptT.run_lift, ho]; rfl, fun b hb => ?_⟩
  cases hb
  exact ha

/-- **The bind rule**, an error passing through. -/
theorem EndsE.bind {f : α → ExceptT ε Option β} {R : β → Prop} (hx : EndsE x P)
    (hf : ∀ a, P a → EndsE (f a) R) : EndsE (x >>= f) R := by
  obtain ⟨r, hr, hP⟩ := hx
  rw [EndsE, ExceptT.run_bind, hr]
  cases r with
  | error e => exact ⟨.error e, rfl, fun _ hb => by cases hb⟩
  | ok a => exact hf a (hP a rfl)

/-- **The branch rule.** -/
theorem EndsE.ite {c : Prop} [Decidable c] {y : ExceptT ε Option α} (ht : c → EndsE x P) (he : ¬c → EndsE y P) :
    EndsE (if c then x else y) P := by
  by_cases hc : c
  · rw [if_pos hc]
    exact ht hc
  · rw [if_neg hc]
    exact he hc

/-- A bind on a lifted value known to be there. -/
theorem EndsE.bind_lift_of_eq {o : Option α} {a : α} {f : α → ExceptT ε Option β} {R : β → Prop}
    (ho : o = some a) (hf : EndsE (f a) R) : EndsE (ExceptT.lift o >>= f) R :=
  (EndsE.lift (Ends.of_eq ho (P := (· = a)) rfl)).bind fun _ hb => hb ▸ hf

/-- A value read back from a computation that ended with it. -/
theorem EndsE.of_run_eq_ok {a : α} (h : EndsE x P) (hx : x.run = some (.ok a)) : P a := by
  obtain ⟨r, hr, hP⟩ := h
  rw [hx] at hr
  cases hr
  exact hP a rfl

/-- The value a computation ends with, remembered beside its postcondition. -/
theorem EndsE.run_eq (h : EndsE x P) : EndsE x fun a => P a ∧ x.run = some (.ok a) := by
  obtain ⟨r, hr, hP⟩ := h
  refine ⟨r, hr, fun a ha => ⟨hP a ha, ?_⟩⟩
  rw [hr, ha]

end EndsE

end Panic
