import Sqlx.Postgres.Numeric
import Sqlx.Lib.Radix

/-!
# Postgres — `BigDecimal` as `NUMERIC`

`types/bigdecimal.rs`: the two conversions between `bigdecimal::BigDecimal`
and `PgNumeric`, and the `Encode` / binary `Decode` impls built from them.
The third-party pieces are given by what they compute: `BigInt::to_radix_be`
and `from_radix_be` through Mathlib's digits, a `BigDecimal` as its integer
and its exponent.

The encoder's `i64` and `i16` arithmetic is done on integers. The `i16`
expressions never leave their range (every digit group is below `10000`),
and `weight_10 = base_10_len - exp` leaves `i64` only for exponents whose
weight is far outside `i16`, which the checked conversion then rejects.
-/

namespace Sqlx.Postgres

open Wire Radix

/-! ## What the encoder is built on -/

/-- `num_bigint::Sign`. -/
inductive Sign where
  | minus
  | noSign
  | plus
  deriving DecidableEq, Repr

/-- `BigInt::from_biguint(sign, magnitude)`. -/
def Sign.apply : Sign → Nat → Int
  | .minus, m => -(m : Int)
  | .noSign, _ => 0
  | .plus, m => m

/-- `BigInt::to_radix_be(radix)`: the sign and the big-endian digits of the
magnitude; zero is `[0]`. -/
def toRadixBe (n : Int) (radix : Nat) : Sign × List Nat :=
  (if n < 0 then .minus else if n = 0 then .noSign else .plus,
    if n = 0 then [0] else (Nat.digits radix n.natAbs).reverse)

/-- `BigInt::from_radix_be(sign, buf, radix)`: `None` when a digit is not below
the radix. -/
def fromRadixBe (sign : Sign) (buf : List Nat) (radix : Nat) : Option Int :=
  if buf.all (· < radix) then some (sign.apply (ofDigitsBe radix buf)) else none

/-- `bigdecimal::BigDecimal`: the number `intVal * 10 ^ (-scale)`. -/
structure BigDecimal where
  intVal : Int
  scale : Int
  deriving DecidableEq, Repr

/-- `BigDecimal::new(digits, scale)`. -/
def BigDecimal.new (digits scale : Int) : BigDecimal := ⟨digits, scale⟩

/-- `BigDecimal::as_bigint_and_exponent`. -/
def BigDecimal.asBigintAndExponent (d : BigDecimal) : Int × Int := (d.intVal, d.scale)

/-- `BigDecimal::digits`: how many decimal digits `int_val` has (one for zero). -/
def BigDecimal.digits (d : BigDecimal) : Nat := (toRadixBe d.intVal 10).2.length

/-! ## `TryFrom<&BigDecimal> for PgNumeric` -/

/-- `i16::try_from` behind `.try_into()?`. -/
def i16TryFrom (x : Int) : Except String Int :=
  if IsI16 x then .ok x else .error "out of range integral type conversion attempted"

/-- The closure `base_10_to_10000`: the fold `a * 10 + d` over a chunk. -/
def base10To10000 (chunk : List Nat) : Int :=
  chunk.foldl (fun a d => a * 10 + d) 0

/-- `sign_to_pg`. -/
def signToPg : Sign → PgNumericSign
  | .plus | .noSign => .positive
  | .minus => .negative

/-- The `weight` expression, from `weight_10`, the number of decimal digits
before the point (Rust's `/` truncates). -/
def weightOf (weight10 : Int) : Int :=
  if weight10 ≤ 0 then weight10.tdiv 4 - 1 else (weight10 - 1).tdiv 4

/-- The first, short group: the `offset` leading digits when there are that
many, else all the digits shifted up to `offset` places. -/
def firstGroup (base10 : List Nat) (offset : Nat) : List Int :=
  if offset ≤ base10.length then
    if (base10.take offset).isEmpty then [] else [base10To10000 (base10.take offset)]
  else if offset ≠ 0 then [base10To10000 base10 * 10 ^ (offset - base10.length)]
  else []

/-- The groups of four after the first, the last one padded on the right. -/
def restGroups (base10 : List Nat) (offset : Nat) : List Int :=
  if offset ≤ base10.length then
    (chunks 4 (base10.drop offset)).map fun chunk => base10To10000 chunk * 10 ^ (4 - chunk.length)
  else []

/-- The base-10000 digits of the decimal digits `base10` with `weight10` of
them before the point: the groups from `offset = weight10.rem_euclid(4)`,
then the trailing zero digits popped (`while let Some(&0) = digits.last()`). -/
def base10000Digits (base10 : List Nat) (weight10 : Int) : List Int :=
  -- `rem_euclid(4)` is in `[0, 4)`, so its `u8` conversion never panics
  let offset := (weight10 % 4).toNat
  (firstGroup base10 offset ++ restGroups base10 offset).rdropWhile (· == 0)

/-- `TryFrom<&BigDecimal> for PgNumeric`. -/
def PgNumeric.tryFromBigDecimal (decimal : BigDecimal) : Except String PgNumeric := do
  let (integer, exp) := decimal.asBigintAndExponent
  let (sign, base10) := toRadixBe integer 10
  let base10Len ← if base10.length < 2 ^ 63 then pure (base10.length : Int)
    else throw s!"BigDecimal base-10 length out of range for PgNumeric: {base10.length}"
  let weight10 := base10Len - exp
  let scale ← i16TryFrom (max 0 exp)
  let weight ← i16TryFrom (weightOf weight10)
  pure (.number (signToPg sign) (base10000Digits base10 weight10) weight scale)

-- the source's `issue_423` tests
example : PgNumeric.tryFromBigDecimal ⟨1234, 0⟩ = .ok (.number .positive [1234] 0 0) := by
  decide +kernel
example : PgNumeric.tryFromBigDecimal ⟨12345678, 0⟩ =
    .ok (.number .positive [1234, 5678] 1 0) := by
  decide +kernel
example : PgNumeric.tryFromBigDecimal ⟨1234, 8⟩ = .ok (.number .positive [1234] (-2) 8) := by
  decide +kernel
example : PgNumeric.tryFromBigDecimal ⟨0, 0⟩ = .ok (.number .positive [] 0 0) := by
  decide +kernel

/-! ## `TryFrom<&PgNumeric> for BigDecimal` -/

/-- The digit loop from index `i`: each digit is checked, then split into two
base-100 digits (a valid digit is non-negative, so the truncating `/` and `%`
and the `as u8` casts are these). -/
def centsOf : Nat → List Int → Except String (List Nat)
  | _, [] => .ok []
  | i, digit :: digits =>
    if PgNumeric.isValidDigit digit then
      (centsOf (i + 1) digits).map fun cents => (digit / 100).toNat :: (digit % 100).toNat :: cents
    else .error s!"PgNumeric to BigDecimal: {i}th digit is out of range {digit}"

/-- `TryFrom<&PgNumeric> for BigDecimal`. -/
def BigDecimal.tryFromPgNumeric : PgNumeric → Except String BigDecimal
  | .notANumber => .error "BigDecimal does not support NaN values"
  | .number sign digits weight _ =>
    -- Postgres sends no digits for zero
    if digits.isEmpty then .ok ⟨0, 0⟩
    else do
      let sign := match sign with
        | .positive => Sign.plus
        | .negative => Sign.minus
      let scale := ((digits.length : Int) - weight - 1) * 4
      let cents ← centsOf 0 digits
      match fromRadixBe sign cents 100 with
      | none => .error "PgNumeric contained an out-of-range digit"
      | some bigint => .ok (BigDecimal.new bigint scale)

/-! ## The `Encode` and `Decode` impls -/

/-- `encode_by_ref`: `PgNumeric::try_from(self)?.encode(buf)?; Ok(IsNull::No)`. -/
def BigDecimal.encodeByRef (d : BigDecimal) : Encoder :=
  match PgNumeric.tryFromBigDecimal d with
  | .error e => .fail e
  | .ok numeric => numeric.encode (.done .no)

/-- The value `add` receives for a `BigDecimal`: type `NUMERIC` (OID 1700) and
`PgNumeric::size_hint(self.digits())`. -/
def BigDecimal.toValue (d : BigDecimal) : Value :=
  ⟨none, .withOid 1700, PgNumeric.sizeHint d.digits, d.encodeByRef⟩

/-- The binary branch of `decode`: `PgNumeric::decode(bytes)?.try_into()`. -/
def BigDecimal.decode (bytes : List UInt8) : Option (Except String BigDecimal) :=
  (PgNumeric.decode bytes).map fun numeric => numeric.bind BigDecimal.tryFromPgNumeric

/-! ## What the values mean -/

/-- The number a `BigDecimal` stands for: `==` on `BigDecimal` compares these. -/
def BigDecimal.value (d : BigDecimal) : ℚ := d.intVal * (10 : ℚ) ^ (-d.scale)

/-- The sign as a factor. -/
def PgNumericSign.factor : PgNumericSign → ℚ
  | .positive => 1
  | .negative => -1

end Sqlx.Postgres
