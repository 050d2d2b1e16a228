import Sqlx.Postgres.Numeric
import Sqlx.Lib.Radix

/-!
# Postgres — `rust_decimal::Decimal` as `NUMERIC`

`types/rust_decimal.rs`: the two conversions between `Decimal` and
`PgNumeric`, and the `Encode` / binary `Decode` impls built from them.

A `Decimal` is a sign, a 96-bit magnitude and a scale of at most 28, each
bound a field of the structure. The encoder only reads these. The decoder
calls four operations of `rust_decimal` (`checked_powi`, `*`, `checked_add`,
`rescale`); they are the fields of `DecimalOps`, each with the property the
crate documents: when the exact result is a `Decimal`, the operation returns
one of that value. `DecimalOps.exact` is one such set of operations, computed
on rationals.

Panics are `none`: the two `assert!`s and the `u128` multiplication of the
encoder, the overflow panic of `Decimal`'s `*` in the decoder, and the
`bytes::Buf` getters of `PgNumeric::decode`.
-/

namespace Sqlx.Postgres

open Wire Radix

/-! ## `Decimal` -/

/-- `rust_decimal::Decimal`: the sign flag, the 96-bit magnitude `hi:mid:lo`
and the scale; the number `±magnitude * 10 ^ (-scale)`. -/
structure Decimal where
  negative : Bool
  magnitude : Nat
  scale : Nat
  magnitude_lt : magnitude < 2 ^ 96
  scale_le : scale ≤ 28
  deriving DecidableEq

/-- The `Decimal` with signed mantissa `m` and scale `s`. -/
def Decimal.ofParts (m : Int) (s : Nat) (hm : m.natAbs < 2 ^ 96) (hs : s ≤ 28) : Decimal :=
  ⟨decide (m < 0), m.natAbs, s, hm, hs⟩

/-- `Decimal::ZERO`. -/
def Decimal.zero : Decimal := ⟨false, 0, 0, Nat.two_pow_pos 96, Nat.zero_le 28⟩

/-- `Decimal::MAX`: `2 ^ 96 - 1` at scale 0. -/
def Decimal.max : Decimal :=
  ⟨false, 2 ^ 96 - 1, 0, Nat.sub_lt (Nat.two_pow_pos 96) Nat.one_pos, Nat.zero_le 28⟩

/-- `Decimal::is_zero`. -/
def Decimal.isZero (d : Decimal) : Bool := d.magnitude == 0

/-- `Decimal::is_sign_negative`: the flag, also on a zero. -/
def Decimal.isSignNegative (d : Decimal) : Bool := d.negative

/-- `Decimal::mantissa`: the magnitude with the sign, as an `i128`. -/
def Decimal.mantissa (d : Decimal) : Int := if d.negative then -(d.magnitude : Int) else d.magnitude

/-- `Decimal::set_sign_positive(positive)`. -/
def Decimal.setSignPositive (d : Decimal) (positive : Bool) : Decimal :=
  { d with negative := !positive }

/-- `Decimal::set_sign_negative(negative)`. -/
def Decimal.setSignNegative (d : Decimal) (negative : Bool) : Decimal :=
  { d with negative := negative }

/-- `Decimal::from(i16)`; the argument is an `i16` of the source, read as one. -/
def Decimal.fromI16 (x : Int) : Decimal :=
  .ofParts (ofTwos 16 (twos 16 x)) 0
    (Nat.lt_of_le_of_lt (natAbs_ofTwos_le (twos_lt 16 x)) (Nat.pow_lt_pow_right (by omega) (by omega)))
    (Nat.zero_le 28)

/-- The number a `Decimal` stands for: `==` on `Decimal` compares these. -/
def Decimal.value (d : Decimal) : ℚ := d.mantissa * (10 : ℚ) ^ (-(d.scale : Int))

/-- `q` is the value of some `Decimal`. -/
def Decimal.Representable (q : ℚ) : Prop := ∃ r : Decimal, r.value = q

/-- `q` is the value of some `Decimal` of scale `s`. -/
def Decimal.RepresentableAt (q : ℚ) (s : Nat) : Prop := ∃ r : Decimal, r.value = q ∧ r.scale = s

/-! ## The operations the decoder calls -/

/-- `checked_powi`, `*` (`none` is its panic on overflow), `checked_add` and
`rescale` of `rust_decimal`, with what the round trip assumes of them: each is
exact whenever the exact result is a `Decimal` (of the requested scale, for
`rescale`). -/
structure DecimalOps where
  checkedPowi : Decimal → Int → Option Decimal
  mul : Decimal → Decimal → Option Decimal
  checkedAdd : Decimal → Decimal → Option Decimal
  rescale : Decimal → Nat → Decimal
  checkedPowi_exact : ∀ a k, Decimal.Representable (a.value ^ k) →
    ∃ c, checkedPowi a k = some c ∧ c.value = a.value ^ k
  mul_exact : ∀ a b, Decimal.Representable (a.value * b.value) →
    ∃ c, mul a b = some c ∧ c.value = a.value * b.value
  checkedAdd_exact : ∀ a b, Decimal.Representable (a.value + b.value) →
    ∃ c, checkedAdd a b = some c ∧ c.value = a.value + b.value
  rescale_exact : ∀ a s, Decimal.RepresentableAt a.value s →
    (rescale a s).value = a.value ∧ (rescale a s).scale = s

/-- `*` panics ("Multiplication overflowed") on a product too large for any
`Decimal`, as `rust_decimal` documents; the round trip never needs this. -/
def DecimalOps.MulPanicsOnOverflow (ops : DecimalOps) : Prop :=
  ∀ a b, (2 : ℚ) ^ 96 ≤ |a.value * b.value| → ops.mul a b = none

/-! ## `From<&Decimal> for PgNumeric` -/

/-- The loop `while mantissa != 0 { digits.push((mantissa % 10_000) as i16);
mantissa /= 10_000; }`: the base-10000 digits, least significant first. -/
def base10000Le (mantissa : Nat) : List Int :=
  if _h : mantissa ≠ 0 then ((mantissa % 10000 : Nat) : Int) :: base10000Le (mantissa / 10000)
  else []
termination_by mantissa
decreasing_by omega

/-- `From<&Decimal> for PgNumeric`; `none` is a panic: one of the two
`assert!`s, or `mantissa *= power` overflowing `u128` (which a build with
overflow checks stops at). -/
def PgNumeric.fromDecimal (decimal : Decimal) : Option PgNumeric :=
  if decimal.isZero then some PgNumeric.zero
  -- `assert!((0u32..=28).contains(&decimal.scale()), ..)`
  else if decimal.scale ≤ 28 then
    let scale := decimal.scale
    let groupsDiff := scale % 4
    -- up to the next multiple of four decimal places
    let mantissa := if groupsDiff > 0 then decimal.mantissa.natAbs * 10 ^ (4 - groupsDiff)
      else decimal.mantissa.natAbs
    if mantissa < 2 ^ 128 then
      let digits := (base10000Le mantissa).reverse
      -- `scale.div_ceil(4)`
      let digitsAfterDecimal := (scale + 3) / 4
      -- `assert!(digits.len() <= 8, ..)`
      if digits.length ≤ 8 then
        let weight := (digits.length : Int) - digitsAfterDecimal - 1
        some (.number (if decimal.isSignNegative then .negative else .positive)
          (digits.rdropWhile (· == 0)) weight scale)
      else none
    else none
  else none

-- the source's `max_value` and `max_value_max_scale` tests
example : PgNumeric.fromDecimal Decimal.max =
    some (.number .positive [7, 9228, 1625, 1426, 4337, 5935, 4395, 335] 7 0) := by
  decide +kernel
example : PgNumeric.fromDecimal ⟨false, 2 ^ 96 - 1, 28, Decimal.max.magnitude_lt, le_refl 28⟩ =
    some (.number .positive [7, 9228, 1625, 1426, 4337, 5935, 4395, 335] 0 28) := by
  decide +kernel

/-! ## `TryFrom<&PgNumeric> for Decimal` -/

/-- The digit loop, from the running sum `value` and the weight of the next
digit: `mul` is `10000 ^ weight`, `part = digit * mul` is added, and the
weight goes down by one with `i16::checked_sub`. -/
def Decimal.sumDigits (ops : DecimalOps) : Decimal → Int → List Int → Option (Except String Decimal)
  | value, _, [] => some (.ok value)
  | value, weight, digit :: digits =>
    match ops.checkedPowi (Decimal.fromI16 10000) weight with
    | none => some (.error "value not representable as rust_decimal::Decimal")
    | some mul =>
      match ops.mul (Decimal.fromI16 digit) mul with
      | none => none
      | some part =>
        match ops.checkedAdd value part with
        | none => some (.error "value not representable as rust_decimal::Decimal")
        | some value =>
          if -32768 ≤ weight - 1 then sumDigits ops value (weight - 1) digits
          else some (.error "weight underflowed")

/-- The `match sign` before the rescale. -/
def Decimal.withSign (value : Decimal) : PgNumericSign → Decimal
  | .positive => value.setSignPositive true
  | .negative => value.setSignNegative true

/-- `TryFrom<&PgNumeric> for Decimal`. -/
def Decimal.tryFromPgNumeric (ops : DecimalOps) : PgNumeric → Option (Except String Decimal)
  | .notANumber => some (.error "Decimal does not support NaN values")
  | .number sign digits weight scale =>
    -- Postgres returns an empty digit array for 0
    if digits.isEmpty then some (.ok Decimal.zero)
    -- `u32::try_from(scale)`
    else if scale < 0 then some (.error s!"invalid scale value for Pg NUMERIC: {scale}")
    else (Decimal.sumDigits ops Decimal.zero weight digits).map fun r =>
      r.map fun value => ops.rescale (value.withSign sign) scale.toNat

/-! ## The `Encode` and `Decode` impls -/

/-- `encode_by_ref`: `PgNumeric::from(self).encode(buf)?; Ok(IsNull::No)`;
`none` is a panic of `PgNumeric::from`. -/
def Decimal.encodeByRef (d : Decimal) : Option Encoder :=
  (PgNumeric.fromDecimal d).map (PgNumeric.encode (.done .no))

/-- The binary branch of `decode`: `PgNumeric::decode(bytes)?.try_into()`. -/
def Decimal.decode (ops : DecimalOps) (bytes : List UInt8) : Option (Except String Decimal) :=
  match PgNumeric.decode bytes with
  | none => none
  | some (.error e) => some (.error e)
  | some (.ok numeric) => Decimal.tryFromPgNumeric ops numeric

/-! ## Operations that satisfy `DecimalOps`

Exact arithmetic on rationals, rounded nowhere: a result that is not a
`Decimal` is `none` (and `rescale` keeps its argument). -/

/-- The `Decimal` of scale `s` whose value is `q`, if there is one. -/
def Decimal.atScale? (q : ℚ) (s : Nat) : Option Decimal :=
  let m := q * 10 ^ s
  if h : m.den = 1 ∧ m.num.natAbs < 2 ^ 96 ∧ s ≤ 28 then some (.ofParts m.num s h.2.1 h.2.2)
  else none

/-- The `Decimal` of least scale whose value is `q`, if there is one. -/
def Decimal.ofRat? (q : ℚ) : Option Decimal := (List.range 29).findSome? (Decimal.atScale? q)

end Sqlx.Postgres
