import Sqlx.Lib.Reader
import Sqlx.Lib.Radix
import Sqlx.Lib.Utf8

/-!
# MySQL — `TIME` values (`types/mysql_time.rs`)

`MySqlTime` is a sign and a magnitude of hours, minutes, seconds and
microseconds, at most `838:59:59` either way; `MySqlTime::new` checks the
fields and refuses a negative zero. Its signed value is a count of
microseconds (`MySqlTime.micros`).

`Ord` compares the signs by the derived order of `MySqlTimeSign` and the
magnitudes by the derived lexicographic order, reversed for negatives: it is
the order of the signed value (`cmp_eq_compare_micros`). The sign predicates
are one-liners, and `is_negative` reads the sign's `is_positive`.

The text form (`Display`) writes the sign apart from the hours, and the
microseconds with a digit loop that stops at the last nonzero digit; `parse`
reads the sign back from the hours parsed as an `i32`, so a negative value
under one hour comes back positive (`parse_toString`). The
binary form counts days and the hours left; the conversions to
`chrono::TimeDelta` and `time::Duration` add the microseconds to a signed
count of seconds (`toTimeDelta_eq_micros_iff`).
-/

namespace Sqlx.MySql

open Wire

/-! ## The value -/

/-- `MySqlTimeSign`. The wire byte is `1` for negative, `0` for positive;
the variants are declared the other way round for the derived `Ord`. -/
inductive MySqlTimeSign where
  | negative
  | positive
  deriving DecidableEq

namespace MySqlTimeSign

/-- The derived `Ord`: `Negative` before `Positive`. -/
def cmp : MySqlTimeSign → MySqlTimeSign → Ordering
  | .negative, .positive => .lt
  | .positive, .negative => .gt
  | _, _ => .eq

def isPositive : MySqlTimeSign → Bool
  | .positive => true
  | .negative => false

def isNegative : MySqlTimeSign → Bool
  | .negative => true
  | .positive => false

@[simp] theorem isPositive_eq_true {s : MySqlTimeSign} : s.isPositive = true ↔ s = .positive := by
  cases s <;> simp [isPositive]

@[simp] theorem isNegative_eq_true {s : MySqlTimeSign} : s.isNegative = true ↔ s = .negative := by
  cases s <;> simp [isNegative]

def signum : MySqlTimeSign → Int
  | .negative => -1
  | .positive => 1

def toByte : MySqlTimeSign → UInt8
  | .negative => 1
  | .positive => 0

/-- `from_byte`; `none` is its `Err`. -/
def fromByte (b : UInt8) : Option MySqlTimeSign :=
  if b = 0 then some .positive else if b = 1 then some .negative else none

/-- `Display`: `-` when negative, `+` when positive under the `+` flag. -/
def display (signPlus : Bool) : MySqlTimeSign → List UInt8
  | .positive => if signPlus then [0x2B] else []
  | .negative => [0x2D]

end MySqlTimeSign

/-- `TimeMagnitude`. -/
structure TimeMagnitude where
  hours : UInt32
  minutes : UInt8
  seconds : UInt8
  microseconds : UInt32
  deriving DecidableEq

/-- The derived `Ord`: the fields in declaration order. -/
def TimeMagnitude.cmp (a b : TimeMagnitude) : Ordering :=
  (compare a.hours.toNat b.hours.toNat).then ((compare a.minutes.toNat b.minutes.toNat).then
    ((compare a.seconds.toNat b.seconds.toNat).then (compare a.microseconds.toNat b.microseconds.toNat)))

/-- The magnitude as a count of microseconds. -/
def TimeMagnitude.micros (m : TimeMagnitude) : Nat :=
  ((m.hours.toNat * 60 + m.minutes.toNat) * 60 + m.seconds.toNat) * 1000000 + m.microseconds.toNat

def MAGNITUDE_ZERO : TimeMagnitude := ⟨0, 0, 0, 0⟩

/-- The largest magnitude, `838:59:59.0`. -/
def MAGNITUDE_MAX : TimeMagnitude := ⟨838, 59, 59, 0⟩

/-- `MySqlTime`. -/
structure MySqlTime where
  sign : MySqlTimeSign
  magnitude : TimeMagnitude
  deriving DecidableEq

/-- `MySqlTimeError`. -/
inductive MySqlTimeError where
  | fieldRange (field : String) (max : Nat) (value : Nat)
  | subsecondExcess (sign : MySqlTimeSign) (microseconds : UInt32) (truncated : MySqlTime)
  | negativeZero
  deriving DecidableEq

namespace MySqlTime

def ZERO : MySqlTime := ⟨.positive, MAGNITUDE_ZERO⟩

def MAX : MySqlTime := ⟨.positive, MAGNITUDE_MAX⟩

def MIN : MySqlTime := ⟨.negative, MAGNITUDE_MAX⟩

def HOURS_MAX : UInt32 := 838

/-- The signed value, in microseconds. -/
def micros (t : MySqlTime) : Int := t.sign.signum * t.magnitude.micros

/-- One check of `check_fields!`. -/
def checkField (field : String) (max value : Nat) : Except MySqlTimeError Unit :=
  if value > max then .error (.fieldRange field max value) else .ok ()

/-- `MySqlTime::new`. -/
def new (sign : MySqlTimeSign) (hours : UInt32) (minutes seconds : UInt8) (microseconds : UInt32) :
    Except MySqlTimeError MySqlTime := do
  checkField "hours" HOURS_MAX.toNat hours.toNat
  checkField "minutes" 59 minutes.toNat
  checkField "seconds" 59 seconds.toNat
  checkField "microseconds" 999999 microseconds.toNat
  let values : TimeMagnitude := ⟨hours, minutes, seconds, microseconds⟩
  if sign.isNegative ∧ values = MAGNITUDE_ZERO then throw .negativeZero
  -- only less than a second over the maximum gets here
  else if values.cmp MAGNITUDE_MAX = .gt then
    throw (.subsecondExcess sign microseconds (if sign.isPositive then MAX else MIN))
  else pure ⟨sign, values⟩

/-- A value `MySqlTime::new` builds. -/
def Valid (t : MySqlTime) : Prop :=
  new t.sign t.magnitude.hours t.magnitude.minutes t.magnitude.seconds t.magnitude.microseconds = .ok t

instance (t : MySqlTime) : Decidable t.Valid := inferInstanceAs (Decidable (_ = _))

def withSign (t : MySqlTime) (sign : MySqlTimeSign) : MySqlTime := { t with sign }

def isZero (t : MySqlTime) : Bool := t = ZERO

def isPositive (t : MySqlTime) : Bool := t.sign.isPositive

/-- `is_negative`, which reads the sign's `is_positive`. -/
def isNegative (t : MySqlTime) : Bool := t.sign.isPositive

/-- `whole_seconds`, in `u32` arithmetic. -/
def wholeSeconds (t : MySqlTime) : UInt32 :=
  t.magnitude.hours * 3600 + t.magnitude.minutes.toUInt32 * 60 + t.magnitude.seconds.toUInt32

def wholeSecondsSigned (t : MySqlTime) : Int := t.wholeSeconds.toNat * t.sign.signum

def subsecNanos (t : MySqlTime) : UInt32 := t.magnitude.microseconds * 1000

def encodedLen (t : MySqlTime) : UInt8 :=
  if t.isZero then 0 else if t.magnitude.microseconds = 0 then 8 else 12

/-- `Ord for MySqlTime`. -/
def cmp (self other : MySqlTime) : Ordering :=
  if self.sign ≠ other.sign then self.sign.cmp other.sign
  else match self.sign with
    | .positive => self.magnitude.cmp other.magnitude
    -- a smaller negative magnitude is the greater value
    | .negative => other.magnitude.cmp self.magnitude

end MySqlTime

example : MySqlTime.MIN.Valid ∧ ¬(MySqlTime.ZERO.withSign .negative).Valid := by decide

/-! ## Valid values -/

/-- What `MySqlTime::new` checks of the value it returns. -/
structure MySqlTime.Checked (t : MySqlTime) : Prop where
  hours : t.magnitude.hours.toNat ≤ 838
  minutes : t.magnitude.minutes.toNat ≤ 59
  seconds : t.magnitude.seconds.toNat ≤ 59
  microseconds : t.magnitude.microseconds.toNat ≤ 999999
  notNegativeZero : ¬(t.sign = .negative ∧ t.magnitude = MAGNITUDE_ZERO)
  notOverMax : t.magnitude.cmp MAGNITUDE_MAX ≠ .gt

theorem MySqlTime.checkField_bind {β : Type} {field : String} {max value : Nat}
    {f : Unit → Except MySqlTimeError β} :
    (checkField field max value >>= f) = if value > max then .error (.fieldRange field max value) else f () := by
  unfold checkField
  split <;> rfl

/-- **What `MySqlTime::new` returns**: the value of its arguments, exactly when
they pass the checks. -/
theorem MySqlTime.new_eq_ok_iff {sign : MySqlTimeSign} {hours : UInt32} {minutes seconds : UInt8}
    {microseconds : UInt32} {t : MySqlTime} :
    new sign hours minutes seconds microseconds = .ok t ↔
      t = ⟨sign, ⟨hours, minutes, seconds, microseconds⟩⟩ ∧ t.Checked := by
  simp only [new, checkField_bind, HOURS_MAX]
  constructor
  · intro h
    -- every refusal is an error, so only the last branch is left
    split_ifs at h with h1 h2 h3 h4 h5 h6
    cases h
    exact ⟨rfl, ⟨by simpa using h1, by simpa using h2, by simpa using h3, by simpa using h4,
      by simpa using h5, h6⟩⟩
  · rintro ⟨rfl, hc⟩
    have h5 : ¬((sign.isNegative = true) ∧ (⟨hours, minutes, seconds, microseconds⟩ : TimeMagnitude) =
        MAGNITUDE_ZERO) := by
      simpa using hc.notNegativeZero
    rw [if_neg (by simpa using hc.hours), if_neg (by simpa using hc.minutes), if_neg (by simpa using hc.seconds),
      if_neg (by simpa using hc.microseconds), if_neg h5, if_neg hc.notOverMax]
    rfl

theorem MySqlTime.valid_iff_checked {t : MySqlTime} : t.Valid ↔ t.Checked := by
  rw [Valid, new_eq_ok_iff]
  exact ⟨fun h => h.2, fun h => ⟨rfl, h⟩⟩

/-- The fields below their radix: what reading a magnitude as one count needs. -/
structure TimeMagnitude.Digits (m : TimeMagnitude) : Prop where
  minutes : m.minutes.toNat < 60
  seconds : m.seconds.toNat < 60
  microseconds : m.microseconds.toNat < 1000000

theorem MySqlTime.Checked.digits {t : MySqlTime} (h : t.Checked) : t.magnitude.Digits :=
  ⟨by have := h.minutes; omega, by have := h.seconds; omega, by have := h.microseconds; omega⟩

/-- The derived order of magnitudes is the order of their counts. -/
theorem TimeMagnitude.cmp_eq_compare_micros {a b : TimeMagnitude} (ha : a.Digits) (hb : b.Digits) :
    a.cmp b = compare a.micros b.micros := by
  rw [micros, micros, Radix.compare_mul_add ha.microseconds hb.microseconds,
    Radix.compare_mul_add ha.seconds hb.seconds, Radix.compare_mul_add ha.minutes hb.minutes,
    Ordering.then_assoc, Ordering.then_assoc, cmp]

theorem TimeMagnitude.micros_eq_zero_iff {m : TimeMagnitude} : m.micros = 0 ↔ m = MAGNITUDE_ZERO := by
  cases m with
  | mk hours minutes seconds microseconds =>
    simp only [micros, MAGNITUDE_ZERO, TimeMagnitude.mk.injEq]
    constructor
    · intro hz
      refine ⟨UInt32.toNat_inj.mp ?_, UInt8.toNat_inj.mp ?_, UInt8.toNat_inj.mp ?_, UInt32.toNat_inj.mp ?_⟩ <;>
        simp only [UInt32.reduceToNat, UInt8.reduceToNat] <;> omega
    · rintro ⟨rfl, rfl, rfl, rfl⟩
      rfl

/-- Below 838 hours a magnitude is below the maximum, whatever its other fields. -/
theorem TimeMagnitude.cmp_max_of_hours_lt {m : TimeMagnitude} (h : m.hours.toNat < 838) :
    m.cmp MAGNITUDE_MAX = .lt := by
  have hlt : compare m.hours.toNat MAGNITUDE_MAX.hours.toNat = .lt := compare_lt_iff_lt.mpr h
  rw [TimeMagnitude.cmp, hlt, Ordering.lt_then]

/-- A negative value is below zero: `new` refuses a negative zero. -/
theorem MySqlTime.Checked.micros_pos_of_negative {t : MySqlTime} (h : t.Checked) (hs : t.sign = .negative) :
    0 < t.magnitude.micros :=
  Nat.pos_of_ne_zero fun hz => h.notNegativeZero ⟨hs, TimeMagnitude.micros_eq_zero_iff.mp hz⟩

/-- A valid value made positive is valid. -/
theorem MySqlTime.Checked.withSign_positive {t : MySqlTime} (h : t.Checked) : (t.withSign .positive).Checked :=
  ⟨h.hours, h.minutes, h.seconds, h.microseconds, by simp [withSign], h.notOverMax⟩

@[simp] theorem MySqlTime.withSign_sign (t : MySqlTime) : t.withSign t.sign = t := rfl

@[simp] theorem MySqlTime.withSign_withSign (t : MySqlTime) (s s' : MySqlTimeSign) :
    (t.withSign s).withSign s' = t.withSign s' := rfl

/-- **`Ord for MySqlTime` is the order of the signed values.** -/
theorem MySqlTime.cmp_eq_compare_micros {a b : MySqlTime} (ha : a.Checked) (hb : b.Checked) :
    a.cmp b = compare a.micros b.micros := by
  rw [cmp, micros, micros]
  cases hsa : a.sign <;> cases hsb : b.sign
  · -- both negative: the magnitudes the other way round
    rw [if_neg (by simp)]
    simp only [MySqlTimeSign.signum, neg_one_mul]
    rw [Radix.compare_neg_natCast_int, TimeMagnitude.cmp_eq_compare_micros hb.digits ha.digits]
  · -- a negative value is below every positive one
    have hpos := ha.micros_pos_of_negative hsa
    rw [if_pos (by simp)]
    simp only [MySqlTimeSign.cmp, MySqlTimeSign.signum, neg_one_mul, one_mul]
    exact ((compare_lt_iff_lt).mpr (by omega)).symm
  · have hpos := hb.micros_pos_of_negative hsb
    rw [if_pos (by simp)]
    simp only [MySqlTimeSign.cmp, MySqlTimeSign.signum, neg_one_mul, one_mul]
    exact ((compare_gt_iff_gt).mpr (by omega)).symm
  · -- both positive: the magnitudes
    rw [if_neg (by simp)]
    simp only [MySqlTimeSign.signum, one_mul]
    rw [Radix.compare_natCast_int, TimeMagnitude.cmp_eq_compare_micros ha.digits hb.digits]

/-- `is_positive` holds of the values at or above zero. -/
theorem MySqlTime.Checked.isPositive_eq {t : MySqlTime} (h : t.Checked) :
    t.isPositive = decide (0 ≤ t.micros) := by
  rw [isPositive, micros]
  cases hs : t.sign with
  | negative =>
    have hpos := h.micros_pos_of_negative hs
    simp only [MySqlTimeSign.isPositive, MySqlTimeSign.signum, neg_one_mul, Left.nonneg_neg_iff]
    symm
    exact decide_eq_false (by omega)
  | positive => simp [MySqlTimeSign.isPositive, MySqlTimeSign.signum]

/-- **The order agrees with the signed value, the sign predicates do not**:
`is_negative` holds exactly where `is_positive` does, at zero too. -/
theorem cmp_and_sign_predicates :
    (∀ a b : MySqlTime, a.Valid → b.Valid → a.cmp b = compare a.micros b.micros) ∧
    (∀ t : MySqlTime, t.Valid → t.isPositive = decide (0 ≤ t.micros) ∧ t.isNegative = decide (0 ≤ t.micros)) :=
  ⟨fun _ _ ha hb => MySqlTime.cmp_eq_compare_micros (MySqlTime.valid_iff_checked.mp ha)
      (MySqlTime.valid_iff_checked.mp hb),
    fun _ ht => ⟨(MySqlTime.valid_iff_checked.mp ht).isPositive_eq, (MySqlTime.valid_iff_checked.mp ht).isPositive_eq⟩⟩

theorem isNegative_of_zero_not_of_min :
    MySqlTime.ZERO.Valid ∧ MySqlTime.ZERO.isNegative = true ∧ MySqlTime.MIN.Valid ∧ MySqlTime.MIN.isNegative = false :=
  ⟨by decide, by rw [(cmp_and_sign_predicates.2 _ (by decide)).2]; decide, by decide,
    by rw [(cmp_and_sign_predicates.2 _ (by decide)).2]; decide⟩

/-! ## The text form -/

/-- The digit loop of `Display`, one power of ten at a time: the digits written
and the precision left. -/
def writeSubsecDigits : List Nat → Nat → Option Nat → List UInt8 × Option Nat
  | [], _, precision => ([], precision)
  | power :: powers, remainder, precision =>
    if 0 < remainder ∧ precision ≠ some 0 then
      let (digits, left) := writeSubsecDigits powers (remainder % power) (precision.map (· - 1))
      (decimalBytes (remainder / power) ++ digits, left)
    else ([], precision)

/-- One turn of the loop; the lemmas below unfold `writeSubsecDigits`
through this one. -/
theorem writeSubsecDigits_cons_eq (power remainder : Nat) (powers : List Nat) (precision : Option Nat) :
    writeSubsecDigits (power :: powers) remainder precision =
      if 0 < remainder ∧ precision ≠ some 0 then
        let (digits, left) := writeSubsecDigits powers (remainder % power) (precision.map (· - 1))
        (decimalBytes (remainder / power) ++ digits, left)
      else ([], precision) := rfl

/-- The powers the loop divides by, from `10u32.pow(5)` down to one; the
remainder is zero after the last. -/
def subsecPowers : List Nat := [100000, 10000, 1000, 100, 10, 1]

/-- `Display for MySqlTime` under the `+` flag and a precision. -/
def MySqlTime.fmt (signPlus : Bool) (precision : Option Nat) (t : MySqlTime) : List UInt8 :=
  let m := t.magnitude
  let whole := t.sign.display signPlus ++ decimalBytes m.hours.toNat ++ 0x3A :: zeroPadded 2 m.minutes.toNat ++
    0x3A :: zeroPadded 2 m.seconds.toNat
  -- the microseconds when nonzero, or when a nonzero precision is asked for
  if precision.elim (m.microseconds != 0) (· != 0) then
    let (digits, left) := writeSubsecDigits subsecPowers m.microseconds.toNat precision
    let padding := match left with
      | some p => if p ≠ 0 then zeroPadded p 0 else []
      | none => []
    whole ++ 0x2E :: digits ++ padding
  else whole

/-- `to_string`. -/
def MySqlTime.toString (t : MySqlTime) : List UInt8 := t.fmt false none

example : (MySqlTime.mk .negative ⟨0, 30, 0, 120000⟩).toString = "-0:30:00.12".toList.map (·.toNat.toUInt8) := by
  decide

/-- The powers `10 ^ (k - 1)` down to one. -/
def descendingPowers : Nat → List Nat
  | 0 => []
  | k + 1 => 10 ^ k :: descendingPowers k

theorem subsecPowers_eq : subsecPowers = descendingPowers 6 := rfl

theorem writeSubsecDigits_cons {power remainder : Nat} {powers : List Nat} {precision : Option Nat}
    (h : 0 < remainder ∧ precision ≠ some 0) :
    writeSubsecDigits (power :: powers) remainder precision =
      (decimalBytes (remainder / power) ++ (writeSubsecDigits powers (remainder % power) (precision.map (· - 1))).1,
        (writeSubsecDigits powers (remainder % power) (precision.map (· - 1))).2) := by
  rw [writeSubsecDigits_cons_eq, if_pos h]

theorem writeSubsecDigits_zero (powers : List Nat) (precision : Option Nat) :
    writeSubsecDigits powers 0 precision = ([], precision) := by
  cases powers with
  | nil => rfl
  | cons power powers => rw [writeSubsecDigits_cons_eq, if_neg (by simp)]

/-- With no precision asked for, none is left. -/
theorem writeSubsecDigits_snd : ∀ (powers : List Nat) (remainder : Nat),
    (writeSubsecDigits powers remainder none).2 = none
  | [], _ => rfl
  | power :: powers, remainder => by
    by_cases hr : 0 < remainder
    · rw [writeSubsecDigits_cons ⟨hr, by simp⟩]
      exact writeSubsecDigits_snd powers _
    · rw [Nat.eq_zero_of_not_pos hr, writeSubsecDigits_zero]

theorem isAsciiDigit_of_mem_writeSubsecDigits : ∀ {powers : List Nat} {remainder : Nat} {precision : Option Nat}
    {b : UInt8}, b ∈ (writeSubsecDigits powers remainder precision).1 → isAsciiDigit b = true
  | [], _, _, _, hb => absurd hb List.not_mem_nil
  | power :: powers, remainder, precision, b, hb => by
    by_cases h : 0 < remainder ∧ precision ≠ some 0
    · rw [writeSubsecDigits_cons h] at hb
      rcases List.mem_append.mp hb with hb | hb
      · exact isAsciiDigit_of_mem_decimalBytes hb
      · exact isAsciiDigit_of_mem_writeSubsecDigits hb
    · rw [writeSubsecDigits_cons_eq, if_neg h] at hb
      cases hb

/-- **The digit loop writes a `k`-digit fraction with its trailing zeros
dropped**: its digits, read on from `acc` and scaled by the digits it left
out, give `r` back. -/
theorem writeSubsecDigits_read {bound : Nat} : ∀ (k r acc : Nat), r < 10 ^ k → (acc + 1) * 10 ^ k ≤ bound →
    ∃ v, readDigits bound acc (writeSubsecDigits (descendingPowers k) r none).1 = some v ∧
      v * 10 ^ (k - (writeSubsecDigits (descendingPowers k) r none).1.length) = acc * 10 ^ k + r ∧
      (writeSubsecDigits (descendingPowers k) r none).1.length ≤ k ∧
      (0 < r → (writeSubsecDigits (descendingPowers k) r none).1 ≠ [])
  | 0, r, acc, hr, _ => by
    have hr0 : r = 0 := by simpa using hr
    subst hr0
    exact ⟨acc, rfl, by simp, le_rfl, by simp⟩
  | k + 1, r, acc, hr, hbound => by
    by_cases hr0 : r = 0
    · -- nothing is written
      subst hr0
      rw [writeSubsecDigits_zero]
      exact ⟨acc, rfl, by simp, by simp, by simp⟩
    -- the leading digit, then the loop on the rest
    have hpow : 0 < 10 ^ k := Nat.pos_of_ne_zero (by positivity)
    have hd : r / 10 ^ k < 10 := by
      rw [Nat.div_lt_iff_lt_mul hpow]
      rwa [Nat.pow_succ, Nat.mul_comm] at hr
    have hrest : r % 10 ^ k < 10 ^ k := Nat.mod_lt _ hpow
    have hacc : (10 * acc + r / 10 ^ k + 1) * 10 ^ k ≤ bound := by
      calc (10 * acc + r / 10 ^ k + 1) * 10 ^ k ≤ (acc + 1) * 10 ^ (k + 1) := by
            rw [Nat.pow_succ]
            nlinarith
        _ ≤ bound := hbound
    obtain ⟨v, hv, hval, hlen, -⟩ := writeSubsecDigits_read k (r % 10 ^ k) (10 * acc + r / 10 ^ k) hrest hacc
    have hdigit : isAsciiDigit (48 + r / 10 ^ k).toUInt8 = true ∧ (48 + r / 10 ^ k).toUInt8.toNat - 0x30 = r / 10 ^ k := by
      generalize r / 10 ^ k = d at hd ⊢
      have hb : (48 + d).toUInt8.toNat = 48 + d := by
        rw [Nat.toUInt8_eq, UInt8.toNat_ofNat', Nat.mod_eq_of_lt (by omega)]
      refine ⟨?_, by rw [hb]; omega⟩
      simp only [isAsciiDigit, decide_eq_true_eq, UInt8.le_iff_toNat_le, hb, UInt8.reduceToNat]
      omega
    have hlt : ¬bound ≤ 10 * acc + (r / 10 ^ k) := by
      have h1 : 10 * acc + r / 10 ^ k + 1 ≤ (10 * acc + r / 10 ^ k + 1) * 10 ^ k := Nat.le_mul_of_pos_right _ hpow
      exact Nat.not_le.mpr (lt_of_lt_of_le (Nat.lt_succ_self _) (h1.trans hacc))
    rw [descendingPowers, writeSubsecDigits_cons ⟨Nat.pos_of_ne_zero hr0, by simp⟩, decimalBytes_of_lt_ten hd]
    simp only [Option.map_none, List.singleton_append, List.length_cons]
    refine ⟨v, ?_, ?_, by omega, by simp⟩
    · rw [readDigits, if_pos hdigit.1, hdigit.2, if_neg hlt]
      exact hv
    · rw [show k + 1 - ((writeSubsecDigits (descendingPowers k) (r % 10 ^ k) none).1.length + 1) =
          k - (writeSubsecDigits (descendingPowers k) (r % 10 ^ k) none).1.length by omega, hval,
        Nat.pow_succ]
      have hdiv := Nat.div_add_mod r (10 ^ k)
      nlinarith

/-- Why a `TIME` value was not decoded. -/
inductive TimeDecodeError where
  /-- `expected hours segment, got nothing`, and the like. -/
  | missingSegment (segment : String)
  /-- `error parsing hours from ...`, and the like. -/
  | invalidSegment (segment : String)
  | emptyBuffer
  | invalidLength (length : Nat)
  | invalidSignByte (byte : UInt8)
  | hoursOverflow
  | time (e : MySqlTimeError)
  /-- `as_str` of bytes that are not UTF-8. -/
  | invalidUtf8

/-- `parse_microseconds`: `none` is the panic of slicing inside a
character, `some none` an `Err`. -/
def parseMicroseconds (micros : List UInt8) : Option (Option Nat) :=
  if micros.length = 0 then some none
  -- fewer digits than six: scaled up (the product stays below 10 ^ 6)
  else if micros.length ≤ 6 then some ((parseUnsigned 32 micros).map (· * 10 ^ (6 - micros.length)))
  -- more: `micros[..6]`
  else if Utf8.isCharBoundary micros 6 then some (parseUnsigned 32 (micros.take 6)) else none

/-- `parse`, the text decoder. -/
def parse (text : List UInt8) : ExceptT TimeDecodeError Option MySqlTime := do
  let segments := text.splitOn 0x3A
  let some hours := segments[0]? | throw (.missingSegment "hours")
  let some minutes := segments[1]? | throw (.missingSegment "minutes")
  let some seconds := segments[2]? | throw (.missingSegment "seconds")
  -- the sign is read with the hours, as an `i32`
  let some hours := parseSigned 32 hours | throw (.invalidSegment "hours")
  let sign := if hours < 0 then MySqlTimeSign.negative else .positive
  let some minutes := parseUnsigned 8 minutes | throw (.invalidSegment "minutes")
  let (seconds, microseconds) ← match splitOnce 0x2E seconds with
    | some (seconds, micros) => do
      let some seconds := parseUnsigned 8 seconds | throw (.invalidSegment "seconds")
      let some microseconds ← ExceptT.lift (parseMicroseconds micros) | throw (.invalidSegment "microseconds")
      pure (seconds, microseconds)
    | none => do
      let some seconds := parseUnsigned 8 seconds | throw (.invalidSegment "seconds")
      pure (seconds, 0)
  match MySqlTime.new sign hours.natAbs.toUInt32 minutes.toUInt8 seconds.toUInt8 microseconds.toUInt32 with
  | .ok t => pure t
  | .error e => throw (.time e)

/-! ### Reading `to_string` back -/

/-- The digits `Display` writes for nonzero microseconds parse back. -/
theorem parseMicroseconds_writeSubsecDigits {micros : Nat} (hpos : 0 < micros) (hlt : micros < 10 ^ 6) :
    parseMicroseconds (writeSubsecDigits subsecPowers micros none).1 = some (some micros) := by
  obtain ⟨v, hv, hval, hlen, hne⟩ := @writeSubsecDigits_read (2 ^ 32) 6 micros 0 hlt (by norm_num)
  rw [← subsecPowers_eq] at hv hval hlen hne
  have hne' := hne hpos
  have hlen0 : (writeSubsecDigits subsecPowers micros none).1.length ≠ 0 := by
    simpa [List.length_eq_zero_iff] using hne'
  rw [parseMicroseconds, if_neg hlen0, if_pos hlen,
    parseUnsigned_of_digits hne' fun _ hb => isAsciiDigit_of_mem_writeSubsecDigits hb, hv]
  simp only [Option.map_some, Option.some.injEq]
  omega

/-- The fraction `to_string` writes after the seconds. -/
def subsecText (microseconds : Nat) : List UInt8 :=
  if microseconds = 0 then [] else 0x2E :: (writeSubsecDigits subsecPowers microseconds none).1

/-- `to_string` in three segments: the signed hours, the minutes, the seconds
with their fraction. -/
theorem MySqlTime.toString_eq (t : MySqlTime) :
    t.toString = [0x3A].intercalate [t.sign.display false ++ decimalBytes t.magnitude.hours.toNat,
      zeroPadded 2 t.magnitude.minutes.toNat,
      zeroPadded 2 t.magnitude.seconds.toNat ++ subsecText t.magnitude.microseconds.toNat] := by
  rw [toString, fmt, subsecText]
  by_cases hz : t.magnitude.microseconds = 0
  · simp [hz, List.intercalate]
  · have hz' : t.magnitude.microseconds.toNat ≠ 0 := fun h => hz (UInt32.toNat_inj.mp h)
    simp only [Option.elim, bne_iff_ne, ne_eq, hz, not_false_eq_true, if_true, hz', if_false,
      writeSubsecDigits_snd]
    simp [List.intercalate]

theorem ne_colon_of_isAsciiDigit {b : UInt8} (h : isAsciiDigit b = true) : b ≠ 0x3A := by
  rintro rfl
  exact absurd h (by decide)

/-- No segment holds a `:`. -/
theorem colon_not_mem_toString_segments (t : MySqlTime) :
    ∀ l ∈ [t.sign.display false ++ decimalBytes t.magnitude.hours.toNat, zeroPadded 2 t.magnitude.minutes.toNat,
      zeroPadded 2 t.magnitude.seconds.toNat ++ subsecText t.magnitude.microseconds.toNat], (0x3A : UInt8) ∉ l := by
  have hsign : (0x3A : UInt8) ∉ t.sign.display false := by
    cases t.sign <;> decide
  have hsub : (0x3A : UInt8) ∉ subsecText t.magnitude.microseconds.toNat := by
    unfold subsecText
    split
    · simp
    · rintro (_ | ⟨_, hb⟩)
      exact ne_colon_of_isAsciiDigit (isAsciiDigit_of_mem_writeSubsecDigits hb) rfl
  intro l hl
  simp only [List.mem_cons, List.not_mem_nil, or_false] at hl
  rcases hl with rfl | rfl | rfl
  · exact fun h => (List.mem_append.mp h).elim hsign
      fun h => ne_colon_of_isAsciiDigit (isAsciiDigit_of_mem_decimalBytes h) rfl
  · exact fun h => ne_colon_of_isAsciiDigit (isAsciiDigit_of_mem_zeroPadded h) rfl
  · exact fun h => (List.mem_append.mp h).elim (fun h => ne_colon_of_isAsciiDigit (isAsciiDigit_of_mem_zeroPadded h) rfl)
      hsub

/-- The seconds segment splits at the `.` exactly when there is a fraction. -/
theorem splitOnce_seconds (seconds microseconds : Nat) :
    splitOnce 0x2E (zeroPadded 2 seconds ++ subsecText microseconds) =
      if microseconds = 0 then none else some (zeroPadded 2 seconds, (writeSubsecDigits subsecPowers microseconds none).1) := by
  have hdot : (0x2E : UInt8) ∉ zeroPadded 2 seconds := fun h =>
    absurd (isAsciiDigit_of_mem_zeroPadded h) (by decide)
  unfold subsecText
  split
  · rw [List.append_nil, splitOnce_of_not_mem hdot]
  · exact splitOnce_append hdot _

theorem parseSigned_display_hours {sign : MySqlTimeSign} {hours : Nat} (h : hours ≤ 838) :
    parseSigned 32 (sign.display false ++ decimalBytes hours) = some (sign.signum * hours) := by
  cases sign with
  | negative =>
    rw [MySqlTimeSign.display, List.singleton_append, parseSigned_neg_decimalBytes (by omega)]
    simp [MySqlTimeSign.signum]
  | positive =>
    rw [MySqlTimeSign.display, if_neg (by decide), List.nil_append, parseSigned_decimalBytes (by omega)]
    simp [MySqlTimeSign.signum]

/-- **`parse` reads `to_string` back, but for the sign of a value under one
hour**: its hours are written `-0`, which parses as a nonnegative `i32`. -/
theorem parse_toString {t : MySqlTime} (h : t.Checked) :
    (parse t.toString).run = some (.ok (if t.magnitude.hours = 0 then t.withSign .positive else t)) := by
  have hsplit := List.splitOn_intercalate (0x3A : UInt8) (colon_not_mem_toString_segments t) (by simp)
  rw [← MySqlTime.toString_eq] at hsplit
  have hhours := @parseSigned_display_hours t.sign _ h.hours
  have hmin : parseUnsigned 8 (zeroPadded 2 t.magnitude.minutes.toNat) = some t.magnitude.minutes.toNat :=
    parseUnsigned_zeroPadded (by have := h.minutes; omega) 2
  have hsec : parseUnsigned 8 (zeroPadded 2 t.magnitude.seconds.toNat) = some t.magnitude.seconds.toNat :=
    parseUnsigned_zeroPadded (by have := h.seconds; omega) 2
  -- the value `new` builds from the fields read back: `-0` is not negative
  set result := if t.magnitude.hours = 0 then t.withSign .positive else t with hresult
  have hsign : (if t.sign.signum * (t.magnitude.hours.toNat : Int) < 0 then MySqlTimeSign.negative else .positive) =
      result.sign := by
    by_cases h0 : t.magnitude.hours = 0
    · have h0' : t.magnitude.hours.toNat = 0 := by rw [h0]; rfl
      simp [hresult, h0, MySqlTime.withSign]
    · have hpos : 0 < t.magnitude.hours.toNat := Nat.pos_of_ne_zero fun h' => h0 (UInt32.toNat_inj.mp h')
      cases hs : t.sign <;> simp [hresult, h0, hs, MySqlTimeSign.signum, hpos]
  have habs : (t.sign.signum * (t.magnitude.hours.toNat : Int)).natAbs.toUInt32 = t.magnitude.hours := by
    have : (t.sign.signum * (t.magnitude.hours.toNat : Int)).natAbs = t.magnitude.hours.toNat := by
      cases t.sign <;> simp [MySqlTimeSign.signum]
    rw [this, Nat.toUInt32_eq, UInt32.ofNat_toNat]
  have hchecked : result.Checked := by
    rw [hresult]
    split
    · exact h.withSign_positive
    · exact h
  have hnew : MySqlTime.new result.sign t.magnitude.hours t.magnitude.minutes t.magnitude.seconds
      t.magnitude.microseconds = .ok result := by
    refine MySqlTime.new_eq_ok_iff.mpr ⟨?_, hchecked⟩
    rw [hresult]
    split <;> rfl
  have hm8 : t.magnitude.minutes.toNat.toUInt8 = t.magnitude.minutes := by rw [Nat.toUInt8_eq, UInt8.ofNat_toNat]
  have hs8 : t.magnitude.seconds.toNat.toUInt8 = t.magnitude.seconds := by rw [Nat.toUInt8_eq, UInt8.ofNat_toNat]
  have hu32 : t.magnitude.microseconds.toNat.toUInt32 = t.magnitude.microseconds := by
    rw [Nat.toUInt32_eq, UInt32.ofNat_toNat]
  simp only [parse, hsplit, List.getElem?_cons_zero, List.getElem?_cons_succ, hhours, hmin,
    splitOnce_seconds, hsign, habs, hm8]
  by_cases hz : t.magnitude.microseconds = 0
  · -- no fraction
    have hz' : t.magnitude.microseconds.toNat = 0 := by rw [hz]; rfl
    have hzero : (0 : Nat).toUInt32 = t.magnitude.microseconds := by rw [hz]; rfl
    simp only [hz', if_true, subsecText, List.append_nil, hsec, pure_bind, hs8, hzero, hnew, ExceptT.run_pure]
    rfl
  · have hz' : t.magnitude.microseconds.toNat ≠ 0 := fun h' => hz (UInt32.toNat_inj.mp h')
    have hlt : t.magnitude.microseconds.toNat < 10 ^ 6 := by have := h.microseconds; omega
    simp only [hz', if_false, hsec, parseMicroseconds_writeSubsecDigits (Nat.pos_of_ne_zero hz') hlt,
      ExceptT.run_bind_lift, Option.pure_def, Option.bind_eq_bind, Option.bind_some, pure_bind, hs8, hu32, hnew,
      ExceptT.run_pure]

/-- The text round trip of every valid value: exact, except that a negative
value under one hour comes back positive. -/
theorem parse_toString_round_trip :
    (∀ t : MySqlTime, t.Valid → (t.sign = .positive ∨ t.magnitude.hours ≠ 0) →
      (parse t.toString).run = some (.ok t)) ∧
    (∀ t : MySqlTime, t.Valid → t.sign = .negative → t.magnitude.hours = 0 →
      (parse t.toString).run = some (.ok (t.withSign .positive))) := by
  constructor
  · intro t ht hcase
    rw [parse_toString (MySqlTime.valid_iff_checked.mp ht)]
    split
    · -- no hours: the sign was positive already
      next h0 =>
      have hs : t.sign = .positive := hcase.resolve_right (not_not.mpr h0)
      rw [← hs]
      rfl
    · rfl
  · intro t ht _ h0
    rw [parse_toString (MySqlTime.valid_iff_checked.mp ht), if_pos h0]

theorem parse_toString_negative_half_hour :
    (parse (MySqlTime.mk .negative ⟨0, 30, 0, 0⟩).toString).run = some (.ok ⟨.positive, ⟨0, 30, 0, 0⟩⟩) :=
  parse_toString_round_trip.2 _ (by decide) rfl rfl

/-! ## The binary form -/

/-- `Encode for MySqlTime`: the bytes `encode_by_ref` appends. -/
def MySqlTime.encodeByRef (t : MySqlTime) : List UInt8 :=
  if t.isZero then [0]
  else
    let m := t.magnitude
    [t.encodedLen, t.sign.toByte] ++ leBytes 4 (m.hours.toNat / 24) ++
      [(m.hours.toNat % 24).toUInt8, m.minutes, m.seconds] ++
      (if m.microseconds ≠ 0 then leBytes 4 m.microseconds.toNat else [])

/-- The binary branch of `Decode for MySqlTime`, on the value with its length
byte in front. The length check leaves enough bytes for every read. -/
def MySqlTime.decodeBinary (buf : List UInt8) : Except TimeDecodeError MySqlTime :=
  match buf with
  | [] => .error .emptyBuffer
  | length :: buf =>
    if length = 0 then .ok ZERO
    else if ¬(buf.length = 8 ∨ buf.length = 12) then .error (.invalidLength buf.length)
    else match buf with
      | s :: d0 :: d1 :: d2 :: d3 :: hours :: minutes :: seconds :: rest =>
        match MySqlTimeSign.fromByte s with
        | none => .error (.invalidSignByte s)
        | some sign =>
          let microseconds := if rest ≠ [] then leValue (rest.take 4) else 0
          -- `days.checked_mul(24)` then `checked_add(hours)`, in `u32`
          let wholeHours := leValue [d0, d1, d2, d3] * 24 + hours.toNat
          if 2 ^ 32 ≤ leValue [d0, d1, d2, d3] * 24 ∨ 2 ^ 32 ≤ wholeHours then .error .hoursOverflow
          else match new sign wholeHours.toUInt32 minutes seconds microseconds.toUInt32 with
            | .ok t => .ok t
            | .error e => .error (.time e)
      | _ => .error (.invalidLength buf.length)

/-! ## Durations -/

/-- `From<MySqlTime> for chrono::TimeDelta`, as its signed count of
nanoseconds: `TimeDelta::new(secs, nanos)` is `secs` seconds and `nanos`
nanoseconds more, `None` (and the `expect` panics) for `nanos` past a second. -/
def MySqlTime.toTimeDelta (t : MySqlTime) : Option Int :=
  if t.subsecNanos.toNat < 10 ^ 9 then some (t.wholeSecondsSigned * 10 ^ 9 + t.subsecNanos.toNat) else none

/-- `From<MySqlTime> for time::Duration`, as its signed count of
nanoseconds: `Duration::new(seconds, nanoseconds)` with the nanoseconds cast
to `i32`. -/
def MySqlTime.toDuration (t : MySqlTime) : Int :=
  t.wholeSecondsSigned * 10 ^ 9 + ofTwos 32 t.subsecNanos.toNat

/-- `TryFrom<std::time::Duration> for MySqlTime`. -/
def MySqlTime.tryFromStd (secs : Nat) (nanos : Nat) : Except MySqlTimeError MySqlTime :=
  let hours := secs / 3600
  let remSeconds := secs % 3600
  if 2 ^ 32 ≤ hours then .error (.fieldRange "hours" HOURS_MAX.toNat hours)
  else new .positive hours.toUInt32 (remSeconds / 60).toUInt8 (remSeconds % 60).toUInt8 (nanos / 1000).toUInt32

/-- `TryFrom<chrono::TimeDelta>` and `TryFrom<time::Duration>` for
`MySqlTime`: the magnitude through `std::time::Duration`, then the sign. -/
def MySqlTime.tryFromSigned (nanos : Int) : Except MySqlTimeError MySqlTime :=
  let sign := if nanos < 0 then MySqlTimeSign.negative else .positive
  (tryFromStd (nanos.natAbs / 10 ^ 9) (nanos.natAbs % 10 ^ 9)).map (·.withSign sign)

/-! ### The binary form read back -/

/-- The decoder on a well-framed value: a length byte that is not zero, the
sign, the days, the hours left, the minutes and seconds, and four bytes of
microseconds or none; it hands the fields to `MySqlTime::new`. -/
theorem MySqlTime.decodeBinary_fields {len s hours minutes seconds : UInt8} {days : Nat} {micro : List UInt8}
    {sign : MySqlTimeSign} (hlen : len ≠ 0) (hs : MySqlTimeSign.fromByte s = some sign)
    (hmicro : micro = [] ∨ micro.length = 4) (hdays : days < 256 ^ 4) (hfit : days * 24 + hours.toNat < 2 ^ 32) :
    decodeBinary ([len, s] ++ leBytes 4 days ++ [hours, minutes, seconds] ++ micro) =
      match new sign (days * 24 + hours.toNat).toUInt32 minutes seconds (leValue micro).toUInt32 with
      | .ok t => .ok t
      | .error e => .error (.time e) := by
  obtain ⟨d0, d1, d2, d3, hbytes⟩ : ∃ d0 d1 d2 d3, leBytes 4 days = [d0, d1, d2, d3] := ⟨_, _, _, _, rfl⟩
  have hval : leValue [d0, d1, d2, d3] = days := by rw [← hbytes, leValue_leBytes_of_lt hdays]
  have hfits : ¬(2 ^ 32 ≤ days * 24 ∨ 2 ^ 32 ≤ days * 24 + hours.toNat) := by omega
  rw [hbytes]
  rcases hmicro with rfl | hfour
  · -- eight bytes after the length
    simp only [List.append_nil, List.cons_append, List.nil_append, decodeBinary, if_neg hlen, List.length_cons,
      List.length_nil, hs, hval]
    rw [if_neg hfits]
    simp
  · -- twelve: the microseconds in four more
    obtain ⟨c0, c1, c2, c3, rfl⟩ : ∃ c0 c1 c2 c3, micro = [c0, c1, c2, c3] := by
      match micro, hfour with
      | [c0, c1, c2, c3], _ => exact ⟨c0, c1, c2, c3, rfl⟩
    simp only [List.cons_append, List.nil_append, decodeBinary, if_neg hlen, List.length_cons, List.length_nil, hs,
      hval]
    rw [if_neg hfits]
    simp [-leValue_cons]

/-- **The binary decoder reads back what the encoder wrote.** -/
theorem MySqlTime.Checked.decodeBinary_encodeByRef {t : MySqlTime} (h : t.Checked) :
    decodeBinary t.encodeByRef = .ok t := by
  by_cases hz : t.isZero
  · have ht : t = ZERO := of_decide_eq_true hz
    subst ht
    rfl
  have hhours := h.hours
  have hnew : new t.sign t.magnitude.hours t.magnitude.minutes t.magnitude.seconds t.magnitude.microseconds =
      .ok t := new_eq_ok_iff.mpr ⟨rfl, h⟩
  have hsign : MySqlTimeSign.fromByte t.sign.toByte = some t.sign := by
    cases t.sign <;> rfl
  -- the days and the hours left make the hours again
  have hwhole : (t.magnitude.hours.toNat / 24 * 24 + (t.magnitude.hours.toNat % 24).toUInt8.toNat).toUInt32 =
      t.magnitude.hours := by
    have hhour : (t.magnitude.hours.toNat % 24).toUInt8.toNat = t.magnitude.hours.toNat % 24 := by
      rw [Nat.toUInt8_eq, UInt8.toNat_ofNat']
      omega
    rw [hhour, Nat.div_add_mod', Nat.toUInt32_eq, UInt32.ofNat_toNat]
  have hfit : t.magnitude.hours.toNat / 24 * 24 + (t.magnitude.hours.toNat % 24).toUInt8.toNat < 2 ^ 32 := by
    rw [Nat.toUInt8_eq, UInt8.toNat_ofNat']
    omega
  have hlen : t.encodedLen ≠ 0 := by
    rw [encodedLen, if_neg hz]
    split <;> decide
  simp only [encodeByRef, if_neg hz]
  by_cases hmicro : t.magnitude.microseconds = 0
  · rw [if_neg (not_not.mpr hmicro), decodeBinary_fields hlen hsign (.inl rfl) (by omega) hfit, hwhole,
      leValue_nil]
    have hzero : (0 : Nat).toUInt32 = t.magnitude.microseconds := by rw [hmicro]; rfl
    rw [hzero, hnew]
  · have hmicroLt : t.magnitude.microseconds.toNat < 256 ^ 4 := t.magnitude.microseconds.toNat_lt
    rw [if_pos hmicro, decodeBinary_fields hlen hsign (.inr (length_leBytes 4 _)) (by omega) hfit, hwhole,
      leValue_leBytes_of_lt hmicroLt, Nat.toUInt32_eq, UInt32.ofNat_toNat, hnew]

/-! ### Durations -/

theorem MySqlTime.Checked.wholeSeconds_toNat {t : MySqlTime} (h : t.Checked) :
    t.wholeSeconds.toNat = (t.magnitude.hours.toNat * 60 + t.magnitude.minutes.toNat) * 60 +
      t.magnitude.seconds.toNat := by
  have := h.hours
  have := h.minutes
  have := h.seconds
  simp only [wholeSeconds, UInt32.toNat_add, UInt32.toNat_mul, UInt8.toNat_toUInt32, UInt32.reduceToNat]
  omega

theorem MySqlTime.Checked.subsecNanos_toNat {t : MySqlTime} (h : t.Checked) :
    t.subsecNanos.toNat = t.magnitude.microseconds.toNat * 1000 := by
  have := h.microseconds
  simp only [subsecNanos, UInt32.toNat_mul, UInt32.reduceToNat]
  omega

/-- The signed whole seconds plus the unsigned fraction are the signed value
exactly when the value is positive or a whole number of seconds. -/
theorem MySqlTime.Checked.wholeSecondsSigned_add_eq_iff {t : MySqlTime} (h : t.Checked) :
    t.wholeSecondsSigned * 10 ^ 9 + ((t.magnitude.microseconds.toNat * 1000 : Nat) : Int) = t.micros * 1000 ↔
      t.sign = .positive ∨ t.magnitude.microseconds = 0 := by
  have hzero : t.magnitude.microseconds = 0 ↔ t.magnitude.microseconds.toNat = 0 :=
    ⟨fun h0 => by rw [h0]; rfl, fun h0 => UInt32.toNat_inj.mp h0⟩
  rw [wholeSecondsSigned, h.wholeSeconds_toNat, micros, TimeMagnitude.micros, hzero]
  cases t.sign <;> simp [MySqlTimeSign.signum] <;> omega

/-- `TimeDelta::from`: the fraction added to the signed seconds. -/
theorem MySqlTime.Checked.toTimeDelta_eq {t : MySqlTime} (h : t.Checked) :
    t.toTimeDelta = some (t.wholeSecondsSigned * 10 ^ 9 + ((t.magnitude.microseconds.toNat * 1000 : Nat) : Int)) := by
  have hlt := h.microseconds
  rw [toTimeDelta, if_pos (by rw [h.subsecNanos_toNat]; omega), h.subsecNanos_toNat]

/-- `time::Duration::from`: the same sum. -/
theorem MySqlTime.Checked.toDuration_eq {t : MySqlTime} (h : t.Checked) :
    t.toDuration = t.wholeSecondsSigned * 10 ^ 9 + ((t.magnitude.microseconds.toNat * 1000 : Nat) : Int) := by
  have hlt := h.microseconds
  rw [toDuration, h.subsecNanos_toNat, ofTwos, if_pos (by omega)]

/-- `TimeDelta::from` is right only for a positive value or a whole number of
seconds. -/
theorem MySqlTime.Checked.toTimeDelta_eq_micros_iff {t : MySqlTime} (h : t.Checked) :
    t.toTimeDelta = some (t.micros * 1000) ↔ t.sign = .positive ∨ t.magnitude.microseconds = 0 := by
  rw [h.toTimeDelta_eq, Option.some.injEq]
  exact h.wholeSecondsSigned_add_eq_iff

theorem MySqlTime.Checked.toDuration_eq_micros_iff {t : MySqlTime} (h : t.Checked) :
    t.toDuration = t.micros * 1000 ↔ t.sign = .positive ∨ t.magnitude.microseconds = 0 := by
  rw [h.toDuration_eq]
  exact h.wholeSecondsSigned_add_eq_iff

theorem MySqlTime.dvd_wholeSecondsSigned_add (t : MySqlTime) :
    (1000 : Int) ∣ t.wholeSecondsSigned * 10 ^ 9 + ((t.magnitude.microseconds.toNat * 1000 : Nat) : Int) :=
  ⟨t.wholeSecondsSigned * 10 ^ 6 + t.magnitude.microseconds.toNat, by push_cast; ring⟩

/-- `TryFrom<std::time::Duration>` keeps the whole microseconds, as a positive value. -/
theorem MySqlTime.tryFromStd_micros {secs nanos : Nat} {t : MySqlTime} (hnanos : nanos < 10 ^ 9)
    (h : tryFromStd secs nanos = .ok t) : t.sign = .positive ∧ t.magnitude.micros = secs * 10 ^ 6 + nanos / 1000 := by
  dsimp only [tryFromStd] at h
  split at h
  · cases h
  · next hfit =>
    obtain ⟨rfl, -⟩ := new_eq_ok_iff.mp h
    refine ⟨rfl, ?_⟩
    -- each field is a division of the seconds, below its bound
    have h1 : (secs / 3600).toUInt32.toNat = secs / 3600 := by
      rw [Nat.toUInt32_eq, UInt32.toNat_ofNat']
      omega
    have h2 : (secs % 3600 / 60).toUInt8.toNat = secs % 3600 / 60 := by
      rw [Nat.toUInt8_eq, UInt8.toNat_ofNat']
      omega
    have h3 : (secs % 3600 % 60).toUInt8.toNat = secs % 3600 % 60 := by
      rw [Nat.toUInt8_eq, UInt8.toNat_ofNat']
      omega
    have h4 : (nanos / 1000).toUInt32.toNat = nanos / 1000 := by
      rw [Nat.toUInt32_eq, UInt32.toNat_ofNat']
      omega
    simp only [TimeMagnitude.micros, h1, h2, h3, h4]
    omega

/-- A valid magnitude, as seconds and nanoseconds, comes back through
`TryFrom<std::time::Duration>`. -/
theorem MySqlTime.Checked.tryFromStd_magnitude {t : MySqlTime} (h : t.Checked) :
    tryFromStd (t.magnitude.micros / 10 ^ 6) (t.magnitude.micros % 10 ^ 6 * 1000) = .ok (t.withSign .positive) := by
  have := h.hours
  have := h.minutes
  have := h.seconds
  have := h.microseconds
  have hsecs : t.magnitude.micros / 10 ^ 6 =
      (t.magnitude.hours.toNat * 60 + t.magnitude.minutes.toNat) * 60 + t.magnitude.seconds.toNat := by
    rw [TimeMagnitude.micros]
    omega
  have hfrac : t.magnitude.micros % 10 ^ 6 * 1000 / 1000 = t.magnitude.microseconds.toNat := by
    rw [TimeMagnitude.micros]
    omega
  dsimp only [tryFromStd]
  rw [hsecs, hfrac, if_neg (by omega)]
  refine new_eq_ok_iff.mpr ⟨?_, h.withSign_positive⟩
  -- the fields read back from the seconds
  have h1 : ((t.magnitude.hours.toNat * 60 + t.magnitude.minutes.toNat) * 60 + t.magnitude.seconds.toNat) / 3600 =
      t.magnitude.hours.toNat := by omega
  have h2 : ((t.magnitude.hours.toNat * 60 + t.magnitude.minutes.toNat) * 60 + t.magnitude.seconds.toNat) % 3600 / 60 =
      t.magnitude.minutes.toNat := by omega
  have h3 : ((t.magnitude.hours.toNat * 60 + t.magnitude.minutes.toNat) * 60 + t.magnitude.seconds.toNat) % 3600 % 60 =
      t.magnitude.seconds.toNat := by omega
  simp only [h1, h2, h3, Nat.toUInt32_eq, Nat.toUInt8_eq, UInt32.ofNat_toNat, UInt8.ofNat_toNat]
  rfl

/-- **The signed value, in nanoseconds, converts back to the value.** -/
theorem MySqlTime.Checked.tryFromSigned_micros {t : MySqlTime} (h : t.Checked) :
    tryFromSigned (t.micros * 1000) = .ok t := by
  have habs : (t.micros * 1000).natAbs = t.magnitude.micros * 1000 := by
    rw [micros]
    cases t.sign <;> simp [MySqlTimeSign.signum, Int.natAbs_mul]
  have hneg : (t.micros * 1000 < 0) ↔ t.sign = .negative := by
    rw [micros]
    cases hs : t.sign with
    | negative =>
      have := h.micros_pos_of_negative hs
      simp [MySqlTimeSign.signum]
      omega
    | positive => simp [MySqlTimeSign.signum]
  have hsign : (if t.micros * 1000 < 0 then MySqlTimeSign.negative else .positive) = t.sign := by
    cases hs : t.sign <;> simp [hneg, hs]
  dsimp only [tryFromSigned]
  rw [habs, hsign]
  have hsecs : t.magnitude.micros * 1000 / 10 ^ 9 = t.magnitude.micros / 10 ^ 6 := by omega
  have hnanos : t.magnitude.micros * 1000 % 10 ^ 9 = t.magnitude.micros % 10 ^ 6 * 1000 := by omega
  rw [hsecs, hnanos, h.tryFromStd_magnitude]
  rfl

/-- What converts to a value is its signed value, when it is whole microseconds. -/
theorem MySqlTime.micros_of_tryFromSigned {d : Int} {t : MySqlTime} (hd : (1000 : Int) ∣ d)
    (h : tryFromSigned d = .ok t) : t.micros * 1000 = d := by
  dsimp only [tryFromSigned] at h
  cases hstd : tryFromStd (d.natAbs / 10 ^ 9) (d.natAbs % 10 ^ 9) with
  | error e =>
    rw [hstd] at h
    cases h
  | ok t₀ =>
    rw [hstd] at h
    cases h
    obtain ⟨-, hmag⟩ := tryFromStd_micros (Nat.mod_lt _ (by positivity)) hstd
    have hdvd : 1000 ∣ d.natAbs := Int.natAbs_dvd_natAbs.mpr hd
    have hwhole : t₀.magnitude.micros * 1000 = d.natAbs := by
      rw [hmag]
      omega
    simp only [micros, withSign]
    split
    · next hlt =>
      simp only [MySqlTimeSign.signum]
      omega
    · next hnlt =>
      simp only [MySqlTimeSign.signum]
      omega

/-- A duration of whole microseconds converts to a valid value exactly when
it is that value's. -/
theorem MySqlTime.Checked.tryFromSigned_eq_iff {t : MySqlTime} (h : t.Checked) {d : Int} (hd : (1000 : Int) ∣ d) :
    tryFromSigned d = .ok t ↔ t.micros * 1000 = d :=
  ⟨micros_of_tryFromSigned hd, fun he => he ▸ h.tryFromSigned_micros⟩

/-- **The binary form reads back; the conversions to durations do not, for a
negative value with a fraction**: `TimeDelta::from` and `Duration::from` add
the fraction to the negative seconds, and converting back gives another
value. Converting the right duration back is exact. -/
theorem time_binary_round_trip_and_durations :
    (∀ t : MySqlTime, t.Valid → MySqlTime.decodeBinary t.encodeByRef = .ok t) ∧
    (∀ t : MySqlTime, t.Valid → MySqlTime.tryFromSigned (t.micros * 1000) = .ok t) ∧
    (∀ t : MySqlTime, t.Valid →
      (t.toTimeDelta = some (t.micros * 1000) ↔ t.sign = .positive ∨ t.magnitude.microseconds = 0)) ∧
    (∀ t : MySqlTime, t.Valid →
      (t.toDuration = t.micros * 1000 ↔ t.sign = .positive ∨ t.magnitude.microseconds = 0)) ∧
    (∀ t : MySqlTime, t.Valid →
      (t.toTimeDelta.map MySqlTime.tryFromSigned = some (.ok t) ↔
        t.sign = .positive ∨ t.magnitude.microseconds = 0)) ∧
    (∀ t : MySqlTime, t.Valid →
      (MySqlTime.tryFromSigned t.toDuration = .ok t ↔ t.sign = .positive ∨ t.magnitude.microseconds = 0)) := by
  refine ⟨fun t ht => ?_, fun t ht => ?_, fun t ht => ?_, fun t ht => ?_, fun t ht => ?_, fun t ht => ?_⟩ <;>
    have hc := MySqlTime.valid_iff_checked.mp ht
  · exact hc.decodeBinary_encodeByRef
  · exact hc.tryFromSigned_micros
  · exact hc.toTimeDelta_eq_micros_iff
  · exact hc.toDuration_eq_micros_iff
  · -- converting back is exact on the value's own duration, which `from` gives only in these cases
    rw [hc.toTimeDelta_eq, Option.map_some, Option.some.injEq, hc.tryFromSigned_eq_iff t.dvd_wholeSecondsSigned_add,
      eq_comm]
    exact hc.wholeSecondsSigned_add_eq_iff
  · rw [hc.toDuration_eq, hc.tryFromSigned_eq_iff t.dvd_wholeSecondsSigned_add, eq_comm]
    exact hc.wholeSecondsSigned_add_eq_iff

theorem time_durations_of_minus_one_and_a_half :
    (MySqlTime.mk .negative ⟨0, 0, 1, 500000⟩).Valid ∧
      (MySqlTime.mk .negative ⟨0, 0, 1, 500000⟩).toTimeDelta = some (-500000000) ∧
      (MySqlTime.mk .negative ⟨0, 0, 1, 500000⟩).micros * 1000 = -1500000000 ∧
      (MySqlTime.mk .negative ⟨0, 0, 1, 500000⟩).toTimeDelta.map MySqlTime.tryFromSigned ≠
        some (.ok (MySqlTime.mk .negative ⟨0, 0, 1, 500000⟩)) :=
  ⟨by decide, by decide, by decide, fun h =>
    absurd ((time_binary_round_trip_and_durations.2.2.2.2.1 _ (by decide)).mp h) (by decide)⟩

end Sqlx.MySql
