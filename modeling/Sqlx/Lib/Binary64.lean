import Mathlib.Data.Rat.Floor

/-!
# Binary64 — `f64` arithmetic as rounded rational arithmetic

A finite `f64` is a rational: a significand below `2^53` times a power of two
between the least subnormal's and the largest finite one's (`IsDouble`). An
arithmetic operation computes the exact rational result and rounds it. IEEE 754
requires the rounding to return a result that is already an `f64` unchanged
(`ExactOnDoubles`); how it rounds anything else, and that it overflows to an
infinity (`none`), is left to the rounding function. `trunc` and `fract` of an
`f64` are exact, and the casts `as i64` and `as u32` truncate toward zero and
saturate at the target's bounds.
-/

namespace Binary64

/-- An `f64` as an operation sees it: a finite value, or `none` for an
infinity or NaN. -/
abbrev F64 := Option ℚ

/-- A finite `f64`. -/
def IsDouble (q : ℚ) : Prop :=
  ∃ m e : Int, m.natAbs < 2 ^ 53 ∧ -1074 ≤ e ∧ e ≤ 971 ∧ q = m * 2 ^ e

/-- A rounding IEEE 754 allows: an exact result that is an `f64` comes back
as it is. -/
def ExactOnDoubles (round : ℚ → F64) : Prop := ∀ q, IsDouble q → round q = some q

/-- `f64::trunc`: toward zero. -/
def trunc (q : ℚ) : Int := if 0 ≤ q then ⌊q⌋ else ⌈q⌉

/-- `f64::fract`: what `trunc` drops, with the sign of `q`. -/
def fract (q : ℚ) : ℚ := q - trunc q

/-- `q as T` for an integer type `T` that holds `lo ..= hi`: truncated toward
zero, then saturated. -/
def saturatingCast (lo hi : Int) (q : ℚ) : Int := max lo (min hi (trunc q))

theorem isDouble_of_int {m : Int} (h : m.natAbs < 2 ^ 53) : IsDouble m :=
  ⟨m, 0, h, by decide, by decide, by simp⟩

theorem saturatingCast_of_mem {lo hi : Int} {q : ℚ} (h : lo ≤ trunc q ∧ trunc q ≤ hi) :
    saturatingCast lo hi q = trunc q := by
  unfold saturatingCast
  omega

end Binary64
