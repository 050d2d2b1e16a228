import Sqlx.Postgres.RustDecimalRoundTrip
import Sqlx.Postgres.BigDecimal

/-!
# Postgres — `PgMoney` and its decimal conversions (`types/money.rs`)

`PgMoney` is the `i64` of a `MONEY` value, in units of the locale's smallest
fraction, `locale_frac_digits` digits after the point. `to_decimal` and
`to_bigdecimal` put that many digits after the point. `from_bigdecimal`
multiplies back by `10^f` and narrows with `to_i64`. `from_decimal` rescales,
serializes the `Decimal`, and reads bytes `4..12`, the low 64 bits of its
96-bit magnitude, as an `i64` whose sign bit it then masks off.

The mask keeps the low 63 bits of the magnitude (`fromDecimal_val`). That is
exact for every magnitude below `2^63`, but the magnitude `2^63` of
`i64::MIN` comes back as `0` (`fromDecimal_val_of_value`). The `BigDecimal`
path has no such case (`fromBigdecimal_of_value`).
-/

namespace Sqlx.Postgres

open Wire

/-- An integer an `i64` holds. -/
def IsI64 (x : Int) : Prop := -2 ^ 63 ≤ x ∧ x < 2 ^ 63

instance (x : Int) : Decidable (IsI64 x) := inferInstanceAs (Decidable (_ ∧ _))

/-- `PgMoney(pub i64)`. -/
@[ext] structure PgMoney where
  val : Int
  isI64 : IsI64 val
  deriving DecidableEq

theorem IsI64.natAbs_lt {x : Int} (h : IsI64 x) : x.natAbs < 2 ^ 96 := by
  unfold IsI64 at h
  omega

/-- A value below `2^63`, or its negation, is an `i64`. -/
theorem isI64_negIf (negative : Bool) {v : Int} (h : 0 ≤ v ∧ v < 2 ^ 63) : IsI64 (if negative then -v else v) := by
  unfold IsI64
  split <;> omega

/-! ## `rust_decimal` -/

/-- `Decimal::serialize`: the flags (the scale in bits 16..23, the sign in bit
31), then `lo`, `mid` and `hi`, four bytes each, little-endian. -/
def Decimal.serialize (d : Decimal) : List UInt8 :=
  leBytes 4 (d.scale * 2 ^ 16 + if d.negative then 2 ^ 31 else 0) ++ leBytes 12 d.magnitude

/-- `i64::from_le_bytes`. -/
def i64FromLeBytes (bytes : List UInt8) : Int := ofTwos 64 (leValue bytes)

/-- `&` on two `i64`s: their two's complement bits and-ed. -/
def i64And (a b : Int) : Int := ofTwos 64 (twos 64 a &&& twos 64 b)

/-- `SIGN_MASK`, `i64::MAX`: every bit but the sign bit. -/
def SIGN_MASK : Int := 2 ^ 63 - 1

/-- And-ing with `SIGN_MASK` leaves an `i64` in `0 .. 2^63`. -/
theorem i64And_SIGN_MASK_bounds (a : Int) : 0 ≤ i64And a SIGN_MASK ∧ i64And a SIGN_MASK < 2 ^ 63 := by
  have hmask : twos 64 SIGN_MASK = 2 ^ 63 - 1 := by decide
  have hle : twos 64 a &&& twos 64 SIGN_MASK ≤ 2 ^ 63 - 1 := hmask ▸ Nat.and_le_right
  unfold i64And ofTwos
  rw [if_pos (by omega)]
  omega

/-- `PgMoney::to_decimal`: `Decimal::new(self.0, locale_frac_digits)`; `none`
is its panic on a scale above 28. -/
def PgMoney.toDecimal (self : PgMoney) (localeFracDigits : Nat) : Option Decimal :=
  if h : localeFracDigits ≤ 28 then some (.ofParts self.val localeFracDigits self.isI64.natAbs_lt h) else none

/-- `PgMoney::from_decimal`: the rescaled decimal's bytes `4..12` as an `i64`,
its sign bit cleared, negated for a negative decimal. -/
def PgMoney.fromDecimal (ops : DecimalOps) (decimal : Decimal) (localeFracDigits : Nat) : PgMoney :=
  let decimal := ops.rescale decimal localeFracDigits
  let isNegative := decimal.isSignNegative
  let serialized := decimal.serialize
  -- bytes `4..12`: where the truncation happens
  let value := i64And (i64FromLeBytes ((serialized.drop 4).take 8)) SIGN_MASK
  ⟨if isNegative then -value else value, isI64_negIf isNegative (i64And_SIGN_MASK_bounds _)⟩

/-! ## `bigdecimal` -/

/-- `Mul for BigDecimal`: the digits multiplied, the scales added. -/
def BigDecimal.mul (a b : BigDecimal) : BigDecimal := ⟨a.intVal * b.intVal, a.scale + b.scale⟩

/-- `BigDecimal::with_scale(new_scale)`: digits dropped toward zero, or zeros added. -/
def BigDecimal.withScale (d : BigDecimal) (newScale : Int) : BigDecimal :=
  if newScale < d.scale then ⟨d.intVal.tdiv (10 ^ (d.scale - newScale).toNat), newScale⟩
  else ⟨d.intVal * 10 ^ (newScale - d.scale).toNat, newScale⟩

/-- `ToPrimitive::to_i64` for `BigDecimal`: the integer part, toward zero, if
an `i64` holds it. -/
def BigDecimal.toI64 (d : BigDecimal) : Option Int :=
  if d.intVal = 0 then some 0
  else
    let i := (d.withScale 0).intVal
    if IsI64 i then some i else none

theorem BigDecimal.isI64_of_toI64 {d : BigDecimal} {x : Int} (h : d.toI64 = some x) : IsI64 x := by
  unfold BigDecimal.toI64 at h
  split at h
  · cases h
    decide
  · dsimp only at h
    split at h
    · next hi =>
      cases h
      exact hi
    · cases h

/-- `PgMoney::to_bigdecimal`. -/
def PgMoney.toBigdecimal (self : PgMoney) (localeFracDigits : Int) : BigDecimal :=
  BigDecimal.new self.val localeFracDigits

/-- `PgMoney::from_bigdecimal`: `none` is the overflow panic of
`10i128.pow(locale_frac_digits)` past `10^38`. -/
def PgMoney.fromBigdecimal (decimal : BigDecimal) (localeFracDigits : Nat) : Option (Except String PgMoney) :=
  if 10 ^ localeFracDigits < 2 ^ 127 then
    let multiplier := BigDecimal.new (10 ^ localeFracDigits) 0
    let cents := decimal.mul multiplier
    some <| match h : cents.toI64 with
      | some money => .ok ⟨money, BigDecimal.isI64_of_toI64 h⟩
      | none => .error "Provided BigDecimal could not convert to i64: overflow."
  else none


/-! ## What `from_decimal` keeps -/

/-- Bytes `4..12` of `serialize` are the low eight bytes of the magnitude. -/
theorem Decimal.serialize_drop_take (d : Decimal) : (d.serialize.drop 4).take 8 = leBytes 8 d.magnitude := by
  rw [Decimal.serialize, List.drop_left' (length_leBytes 4 _), take_leBytes (by decide)]

/-- **Eight bytes read as an `i64`, its sign bit masked off**: their value
below `2^63`, the top bit dropped. -/
theorem i64And_SIGN_MASK_leBytes (n : Nat) :
    i64And (i64FromLeBytes (leBytes 8 n)) SIGN_MASK = (n % 2 ^ 63 : Nat) := by
  have h256 : (256 : Nat) ^ 8 = 2 ^ 64 := by norm_num
  have hmask : twos 64 SIGN_MASK = 2 ^ 63 - 1 := by decide
  have hbits : twos 64 (i64FromLeBytes (leBytes 8 n)) = n % 2 ^ 64 := by
    rw [i64FromLeBytes, leValue_leBytes, h256, twos_ofTwos (Nat.mod_lt _ (by decide))]
  have hlow : n % 2 ^ 64 % 2 ^ 63 = n % 2 ^ 63 := Nat.mod_mod_of_dvd n (by decide)
  unfold i64And
  rw [hbits, hmask, Nat.and_two_pow_sub_one_eq_mod, hlow, ofTwos, if_pos (Nat.mod_lt _ (by decide))]

/-- **What `from_decimal` returns**: the low 63 bits of the rescaled
magnitude, negated for a negative decimal. -/
theorem PgMoney.fromDecimal_val (ops : DecimalOps) (d : Decimal) (f : Nat) :
    (PgMoney.fromDecimal ops d f).val =
      if (ops.rescale d f).negative then -(((ops.rescale d f).magnitude % 2 ^ 63 : Nat) : Int)
      else (((ops.rescale d f).magnitude % 2 ^ 63 : Nat) : Int) := by
  simp only [PgMoney.fromDecimal, Decimal.isSignNegative, Decimal.serialize_drop_take, i64And_SIGN_MASK_leBytes]

theorem ten_pow_mul_zpow_neg (f : Nat) : (10 : ℚ) ^ f * 10 ^ (-(f : Int)) = 1 := by
  rw [zpow_neg, zpow_natCast, mul_inv_cancel₀ (pow_ne_zero _ (by norm_num))]

/-- A decimal worth `n / 10^f`, `n` an `i64`, comes back from `from_decimal` as
`n`, except `i64::MIN`, which comes back as `0`. -/
theorem PgMoney.fromDecimal_val_of_value (ops : DecimalOps) {x : Decimal} {f : Nat} {n : Int} (hf : f ≤ 28)
    (hn : x.value * 10 ^ f = n) (hi : IsI64 n) :
    (PgMoney.fromDecimal ops x f).val = if n = -2 ^ 63 then 0 else n := by
  -- `n` at scale `f` is a `Decimal` worth `x`, so `rescale` keeps the value at that scale
  have hparts : (Decimal.ofParts n f hi.natAbs_lt hf).value = x.value := by
    rw [Decimal.value_ofParts, ← hn, mul_assoc, ten_pow_mul_zpow_neg, mul_one]
  obtain ⟨hval, hscale⟩ := ops.rescale_exact x f ⟨_, hparts, rfl⟩
  have hmant : (ops.rescale x f).mantissa = n := by
    rw [Decimal.mantissa_eq_of_value_eq (hval.trans hparts.symm) hscale, Decimal.mantissa_ofParts]
  unfold IsI64 at hi
  rw [PgMoney.fromDecimal_val]
  unfold Decimal.mantissa at hmant
  cases hneg : (ops.rescale x f).negative with
  | true =>
    rw [hneg, if_pos rfl] at hmant
    rw [if_pos rfl]
    by_cases hmin : n = -2 ^ 63
    · -- the magnitude `2^63` has no bit below the sign bit
      have hmag : (ops.rescale x f).magnitude = 2 ^ 63 := by omega
      rw [if_pos hmin, hmag, Nat.mod_self]
      rfl
    · have hmag : (ops.rescale x f).magnitude < 2 ^ 63 := by omega
      rw [if_neg hmin, Nat.mod_eq_of_lt hmag, hmant]
  | false =>
    rw [hneg, if_neg Bool.false_ne_true] at hmant
    have hmag : (ops.rescale x f).magnitude < 2 ^ 63 := by omega
    rw [if_neg Bool.false_ne_true, if_neg (by omega), Nat.mod_eq_of_lt hmag, hmant]

/-! ## What `from_bigdecimal` reads -/

/-- `with_scale(0)` of a `BigDecimal` worth an integer is that integer. -/
theorem BigDecimal.withScale_zero_of_value {d : BigDecimal} {n : Int} (hn : d.value = n) :
    (d.withScale 0).intVal = n := by
  unfold BigDecimal.value at hn
  unfold BigDecimal.withScale
  split
  · next hs =>
    -- every digit after the point is zero: the division is exact
    obtain ⟨k, hk⟩ : ∃ k : Nat, d.scale = k := ⟨d.scale.toNat, by omega⟩
    have h10 : (10 : ℚ) ^ k ≠ 0 := pow_ne_zero _ (by norm_num)
    have hint : d.intVal = n * 10 ^ k := by
      rw [hk, zpow_neg, zpow_natCast, ← div_eq_mul_inv, div_eq_iff h10] at hn
      exact_mod_cast hn
    rw [hint, show (d.scale - 0).toNat = k by omega, Int.mul_tdiv_cancel _ (pow_ne_zero _ (by decide))]
  · next hs =>
    obtain ⟨k, hk⟩ : ∃ k : Nat, d.scale = -k := ⟨(-d.scale).toNat, by omega⟩
    rw [hk, neg_neg, zpow_natCast] at hn
    rw [show ((0 : Int) - d.scale).toNat = k by omega]
    exact_mod_cast hn

theorem BigDecimal.toI64_of_value {d : BigDecimal} {n : Int} (hn : d.value = n) (hi : IsI64 n) :
    d.toI64 = some n := by
  unfold BigDecimal.toI64
  split
  · next hzero =>
    rw [BigDecimal.value, hzero, Int.cast_zero, zero_mul] at hn
    exact congrArg some (by exact_mod_cast hn)
  · dsimp only
    rw [BigDecimal.withScale_zero_of_value hn, if_pos hi]

/-- A `BigDecimal` worth `n / 10^f`, `n` an `i64`, comes back from
`from_bigdecimal` as `n`. -/
theorem PgMoney.fromBigdecimal_of_value {x : BigDecimal} {f : Nat} {n : Int} (hf : f ≤ 38)
    (hn : x.value * 10 ^ f = n) (hi : IsI64 n) :
    ∃ m : PgMoney, PgMoney.fromBigdecimal x f = some (.ok m) ∧ m.val = n := by
  have hpow : 10 ^ f < 2 ^ 127 := lt_of_le_of_lt (Nat.pow_le_pow_right (by decide) hf) (by decide)
  have hcents : (x.mul (BigDecimal.new (10 ^ f) 0)).value = n := by
    rw [← hn, BigDecimal.value, BigDecimal.value]
    simp only [BigDecimal.mul, BigDecimal.new, add_zero, Int.cast_mul, Int.cast_pow, Int.cast_ofNat]
    ring
  have htoI64 := BigDecimal.toI64_of_value hcents hi
  unfold PgMoney.fromBigdecimal
  rw [if_pos hpow]
  dsimp only
  split
  · next money heq =>
    rw [htoI64] at heq
    exact ⟨_, rfl, (Option.some.inj heq).symm⟩
  · next heq =>
    rw [htoI64] at heq
    cases heq


/-! ## The conversions -/

theorem PgMoney.toDecimal_of_le {self : PgMoney} {f : Nat} (hf : f ≤ 28) :
    self.toDecimal f = some (.ofParts self.val f self.isI64.natAbs_lt hf) :=
  dif_pos hf

/-- **`PgMoney`'s decimal conversions.** A `Decimal` worth `n / 10^f` (`n` an
`i64`) comes back from `from_decimal` as `n`, except `i64::MIN`, which comes
back as `0`; a `BigDecimal` worth it comes back from `from_bigdecimal` as `n`.
So `from_decimal` inverts `to_decimal` on every amount but `i64::MIN`, while
`from_bigdecimal` inverts `to_bigdecimal` on all of them. -/
theorem money_from_decimal_zeroes_i64_min :
    (∀ (ops : DecimalOps) (x : Decimal) (f : Nat) (n : Int), f ≤ 28 → x.value * 10 ^ f = n → IsI64 n →
      (PgMoney.fromDecimal ops x f).val = if n = -2 ^ 63 then 0 else n) ∧
    (∀ (x : BigDecimal) (f : Nat) (n : Int), f ≤ 38 → x.value * 10 ^ f = n → IsI64 n →
      ∃ m : PgMoney, PgMoney.fromBigdecimal x f = some (.ok m) ∧ m.val = n) ∧
    (∀ (ops : DecimalOps) (m : PgMoney) (f : Nat), f ≤ 28 →
      ∃ d, m.toDecimal f = some d ∧ (PgMoney.fromDecimal ops d f).val = if m.val = -2 ^ 63 then 0 else m.val) ∧
    (∀ (m : PgMoney) (f : Nat), f ≤ 38 → PgMoney.fromBigdecimal (m.toBigdecimal f) f = some (.ok m)) := by
  refine ⟨fun ops x f n hf hn hi => PgMoney.fromDecimal_val_of_value ops hf hn hi,
    fun x f n hf hn hi => PgMoney.fromBigdecimal_of_value hf hn hi, fun ops m f hf => ?_, fun m f hf => ?_⟩
  · -- `to_decimal` is worth the amount over `10^f`
    have hvalue : (Decimal.ofParts m.val f m.isI64.natAbs_lt hf).value * 10 ^ f = m.val := by
      rw [Decimal.value_ofParts, mul_assoc, mul_comm ((10 : ℚ) ^ (-(f : Int))), ten_pow_mul_zpow_neg, mul_one]
    exact ⟨_, PgMoney.toDecimal_of_le hf, PgMoney.fromDecimal_val_of_value ops hf hvalue m.isI64⟩
  · have hvalue : (m.toBigdecimal f).value * 10 ^ f = m.val := by
      rw [PgMoney.toBigdecimal, BigDecimal.new, BigDecimal.value, mul_assoc, mul_comm ((10 : ℚ) ^ (-(f : Int))),
        ten_pow_mul_zpow_neg, mul_one]
    obtain ⟨m', hm', hval⟩ := PgMoney.fromBigdecimal_of_value hf hvalue m.isI64
    rw [hm', PgMoney.ext hval]

/-- `PgMoney(i64::MIN)` at two digits: `to_decimal` then `from_decimal` gives
`PgMoney(0)`, `to_bigdecimal` then `from_bigdecimal` gives it back. -/
theorem money_of_i64_min :
    (∃ d, (⟨-2 ^ 63, by decide⟩ : PgMoney).toDecimal 2 = some d ∧ PgMoney.fromDecimal DecimalOps.exact d 2 = ⟨0, by decide⟩) ∧
    PgMoney.fromBigdecimal ((⟨-2 ^ 63, by decide⟩ : PgMoney).toBigdecimal 2) 2 = some (.ok ⟨-2 ^ 63, by decide⟩) := by
  obtain ⟨d, hd, hval⟩ := money_from_decimal_zeroes_i64_min.2.2.1 DecimalOps.exact ⟨-2 ^ 63, by decide⟩ 2 (by decide)
  exact ⟨⟨d, hd, PgMoney.ext (hval.trans (if_pos rfl))⟩, money_from_decimal_zeroes_i64_min.2.2.2 _ 2 (by decide)⟩

end Sqlx.Postgres
