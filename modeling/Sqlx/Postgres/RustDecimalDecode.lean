import Mathlib.Algebra.Order.Ring.Abs
import Mathlib.Tactic.Positivity
import Mathlib.Tactic.GCongr
import Sqlx.Postgres.RustDecimalRoundTrip

/-!
# Postgres — a `NUMERIC` too large for `Decimal`

`TryFrom<&PgNumeric> for Decimal` guards three of the operations of its digit
loop (`checked_powi`, `checked_add`, `checked_sub` on the weight) and not the
fourth: `Decimal::from(digit) * mul` is the `Mul` impl, which panics when the
product overflows. A value whose first part is already past `Decimal::MAX`
therefore reaches the panic before any checked operation can report it.

`DecimalOps.MulPanicsOnOverflow` is that behaviour of `*`, and
`DecimalOps.exact` has it. `tryFromPgNumeric_weight_seven_panics` is the
panic for every first digit from 8 on at weight 7.
-/

namespace Sqlx.Postgres

/-- No `Decimal` reaches `2 ^ 96`: the magnitude is below it and the scale
only divides. -/
theorem Decimal.abs_value_lt (d : Decimal) : |d.value| < 2 ^ 96 := by
  have hm : |(d.mantissa : ℚ)| = d.magnitude := by
    rw [← Int.cast_abs, Int.abs_eq_natAbs, Decimal.natAbs_mantissa]
    simp
  have hpos : 0 < (10 : ℚ) ^ (-(d.scale : Int)) := zpow_pos (by norm_num) _
  have hle : (10 : ℚ) ^ (-(d.scale : Int)) ≤ 1 := zpow_le_one_of_nonpos₀ (by norm_num) (by omega)
  calc |d.value| = d.magnitude * (10 : ℚ) ^ (-(d.scale : Int)) := by
        rw [Decimal.value, abs_mul, hm, abs_of_pos hpos]
    _ ≤ d.magnitude := mul_le_of_le_one_right (Nat.cast_nonneg _) hle
    _ < 2 ^ 96 := by exact_mod_cast d.magnitude_lt

theorem Decimal.ofRat?_eq_some {q : ℚ} {c : Decimal} (h : Decimal.ofRat? q = some c) : c.value = q := by
  obtain ⟨s, -, hs⟩ := List.exists_of_findSome?_eq_some h
  exact (Decimal.atScale?_eq_some hs).1

/-- Exact arithmetic has no `Decimal` to give for a product past `2 ^ 96`. -/
theorem DecimalOps.exact_mulPanicsOnOverflow : DecimalOps.exact.MulPanicsOnOverflow := by
  intro a b hbig
  show Decimal.ofRat? (a.value * b.value) = none
  cases hmul : Decimal.ofRat? (a.value * b.value) with
  | none => rfl
  | some c =>
    have hlt := c.abs_value_lt
    rw [Decimal.ofRat?_eq_some hmul] at hlt
    exact absurd hbig (not_le.mpr hlt)

/-- Weight 7 with a first digit of 8 or more: `10000 ^ 7` is a `Decimal`, but
the part `digit * 10000 ^ 7` is at least `8 * 10 ^ 28`, past `Decimal::MAX`,
so the unchecked `*` panics where the loop should return `Err`. -/
theorem tryFromPgNumeric_weight_seven_panics (ops : DecimalOps) (hmul : ops.MulPanicsOnOverflow)
    (sign : PgNumericSign) {digit : Int} (hlo : 8 ≤ digit) (hhi : digit ≤ 9999) (digits : List Int)
    {scale : Int} (hscale : 0 ≤ scale) :
    Decimal.tryFromPgNumeric ops (.number sign (digit :: digits) 7 scale) = none := by
  have hten : (Decimal.fromI16 10000).value = 10000 := Decimal.value_fromI16 (by decide)
  obtain ⟨mul, hpowi, hmulv⟩ := ops.checkedPowi_exact (Decimal.fromI16 10000) 7 (by
    rw [hten]
    exact Decimal.representable_tenThousand_zpow (by norm_num) (by norm_num))
  have hpart : ops.mul (Decimal.fromI16 digit) mul = none := by
    apply hmul
    rw [Decimal.value_fromI16 ⟨by omega, by omega⟩, hmulv, hten]
    have hdigit : (8 : ℚ) ≤ digit := by exact_mod_cast hlo
    -- `2 ^ 96 < 8 * 10 ^ 28 = 8 * 10000 ^ 7`
    calc (2 : ℚ) ^ 96 ≤ 8 * (10000 : ℚ) ^ (7 : Int) := by norm_num
      _ ≤ (digit : ℚ) * (10000 : ℚ) ^ (7 : Int) := by gcongr
      _ = |(digit : ℚ) * (10000 : ℚ) ^ (7 : Int)| := (abs_of_nonneg (by positivity)).symm
  simp [Decimal.tryFromPgNumeric, not_lt.mpr hscale, Decimal.sumDigits, hpowi, hpart]

theorem tryFromPgNumeric_eight_at_weight_seven :
    DecimalOps.exact.MulPanicsOnOverflow ∧ (8 : Int) ≤ 8 ∧ (8 : Int) ≤ 9999 ∧ (0 : Int) ≤ 0 ∧
      Decimal.tryFromPgNumeric .exact (.number .positive [8] 7 0) = none :=
  ⟨DecimalOps.exact_mulPanicsOnOverflow, by decide, by decide, le_refl 0,
    tryFromPgNumeric_weight_seven_panics .exact DecimalOps.exact_mulPanicsOnOverflow .positive (by decide)
      (by decide) [] (le_refl 0)⟩

end Sqlx.Postgres
