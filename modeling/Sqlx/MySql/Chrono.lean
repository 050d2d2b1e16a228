import Sqlx.MySql.Time
import Sqlx.MySql.Arguments

/-!
# MySQL — `chrono` dates and times in the binary protocol (`types/chrono.rs`)

`chrono::NaiveDate` is a day of the proleptic Gregorian calendar, and
`NaiveTime` a time of day to the nanosecond, a leap second held as a
nanosecond count past one second at second 59; both carry their range here as
a field, as `chrono` keeps them in range. The encoders write a length byte and
then the fields little-endian, dropping what is zero: a `DATETIME` is 4, 7 or
11 bytes as it has no time, no microseconds or both, a `TIME` 8 or 12. A year
outside `u16` is an `Err` of the encoder. The decoders read the length byte
back and route a `TIME` through `MySqlTime`.

For every date in `0..=65535`, every time of whole microseconds and every
date-time combining them, decoding what was encoded gives the value back
(`chrono_binary_round_trip`).
-/

namespace Sqlx.MySql

open Wire
open Sqlx.Postgres (IsNull)

/-! ## `chrono`'s values -/

/-- A leap year of the proleptic Gregorian calendar. -/
def isLeapYear (year : Int) : Bool := year % 4 == 0 && (year % 100 != 0 || year % 400 == 0)

def daysInMonth (year : Int) (month : Nat) : Nat :=
  if month = 2 then (if isLeapYear year then 29 else 28)
  else if month = 4 ∨ month = 6 ∨ month = 9 ∨ month = 11 then 30
  else 31

/-- The years `chrono` holds, `(i32::MIN >> 13) + 1` to `(i32::MAX >> 13) - 1`. -/
def MIN_YEAR : Int := -262143

def MAX_YEAR : Int := 262142

/-- The days `NaiveDate` holds. -/
def IsDate (year : Int) (month day : Nat) : Prop :=
  MIN_YEAR ≤ year ∧ year ≤ MAX_YEAR ∧ 1 ≤ month ∧ month ≤ 12 ∧ 1 ≤ day ∧ day ≤ daysInMonth year month

instance (year : Int) (month day : Nat) : Decidable (IsDate year month day) :=
  inferInstanceAs (Decidable (_ ∧ _))

/-- `chrono::NaiveDate`. -/
structure NaiveDate where
  year : Int
  month : Nat
  day : Nat
  isDate : IsDate year month day

/-- `NaiveDate::from_ymd_opt`. -/
def NaiveDate.fromYmdOpt (year : Int) (month day : Nat) : Option NaiveDate :=
  if h : IsDate year month day then some ⟨year, month, day, h⟩ else none

/-- The times `NaiveTime` holds: a nanosecond count of a second or more is a
leap second, only at second 59. -/
def IsTime (hour minute second nanosecond : Nat) : Prop :=
  hour < 24 ∧ minute < 60 ∧ second < 60 ∧ nanosecond < 2000000000 ∧ (1000000000 ≤ nanosecond → second = 59)

instance (hour minute second nanosecond : Nat) : Decidable (IsTime hour minute second nanosecond) :=
  inferInstanceAs (Decidable (_ ∧ _))

/-- `chrono::NaiveTime`. -/
structure NaiveTime where
  hour : Nat
  minute : Nat
  second : Nat
  nanosecond : Nat
  isTime : IsTime hour minute second nanosecond

/-- `NaiveTime::from_hms_nano_opt`. -/
def NaiveTime.fromHmsNanoOpt (hour minute second nanosecond : Nat) : Option NaiveTime :=
  if h : IsTime hour minute second nanosecond then some ⟨hour, minute, second, nanosecond, h⟩ else none

/-- `NaiveTime::from_hms_micro_opt`: the microseconds times 1000, checked in `u32`. -/
def NaiveTime.fromHmsMicroOpt (hour minute second micro : Nat) : Option NaiveTime :=
  if micro * 1000 < 2 ^ 32 then fromHmsNanoOpt hour minute second (micro * 1000) else none

/-- `chrono::NaiveDateTime`. -/
structure NaiveDateTime where
  date : NaiveDate
  time : NaiveTime

/-- `NaiveDate::and_hms_opt`. -/
def NaiveDate.andHmsOpt (date : NaiveDate) (hour minute second : Nat) : Option NaiveDateTime :=
  (NaiveTime.fromHmsNanoOpt hour minute second 0).map (⟨date, ·⟩)

/-! ## The encoders -/

/-- `MySqlTypeInfo::binary` of a column type: the `BINARY` flag. -/
def binaryType (ty : UInt8) : MySqlTypeInfo := ⟨ty, 128⟩

/-- `n` in decimal, zero-padded to `width` digits (`{:0width$}`). -/
def NaiveTime.zeroPad (width n : Nat) : String :=
  let s := toString n
  String.ofList (List.replicate (width - s.length) '0') ++ s

/-- `Debug for NaiveDate`, which its `Display` calls: four digits for a year in
`0..=9999`, otherwise a sign and at least four (`{:+05}`), then the month and
the day in two digits each. -/
def ymdDebug (year : Int) (month day : Nat) : String :=
  let y :=
    if 0 ≤ year ∧ year ≤ 9999 then NaiveTime.zeroPad 4 year.toNat
    else (if year < 0 then "-" else "+") ++ NaiveTime.zeroPad 4 year.natAbs
  y ++ "-" ++ NaiveTime.zeroPad 2 month ++ "-" ++ NaiveTime.zeroPad 2 day

/-- `encode_date`: the year as a little-endian `u16`, the month and the day. -/
def encodeDate (date : NaiveDate) : Except String (List UInt8) :=
  -- `u16::try_from(date.year())`
  if 0 ≤ date.year ∧ date.year < 65536 then
    .ok (leBytes 2 date.year.toNat ++ [date.month.toUInt8, date.day.toUInt8])
  else .error ("NaiveDateTime out of range for Mysql: " ++ ymdDebug date.year date.month date.day)

/-- `encode_time`: hour, minute and second, then the microseconds as a `u32`
if asked for. -/
def encodeTime (time : NaiveTime) (includeMicros : Bool) : List UInt8 :=
  [time.hour.toUInt8, time.minute.toUInt8, time.second.toUInt8] ++
    if includeMicros then leBytes 4 (time.nanosecond / 1000) else []

/-- `naive_dt_encoded_len`. -/
def naiveDtEncodedLen (dt : NaiveDateTime) : UInt8 :=
  if dt.time.hour = 0 ∧ dt.time.minute = 0 ∧ dt.time.second = 0 ∧ dt.time.nanosecond = 0 then 4
  else if dt.time.nanosecond = 0 then 7
  else 11

/-- `naive_time_encoded_len`. -/
def naiveTimeEncodedLen (time : NaiveTime) : UInt8 := if time.nanosecond = 0 then 8 else 12

/-- `Encode for NaiveDate`: the length byte is written before the year is
checked. -/
def NaiveDate.encode (date : NaiveDate) : Encoding :=
  match encodeDate date with
  | .ok bytes => ⟨binaryType 0x0A, 4 :: bytes, .ok .no⟩
  | .error e => ⟨binaryType 0x0A, [4], .error e⟩

/-- `Encode for NaiveDateTime`. -/
def NaiveDateTime.encode (dt : NaiveDateTime) : Encoding :=
  let len := naiveDtEncodedLen dt
  match encodeDate dt.date with
  | .ok bytes =>
    ⟨binaryType 0x0C, len :: bytes ++ (if len > 4 then encodeTime dt.time (len > 7) else []), .ok .no⟩
  | .error e => ⟨binaryType 0x0C, [len], .error e⟩

/-- `Encode for NaiveTime`: a positive `TIME` of zero days. -/
def NaiveTime.encode (time : NaiveTime) : Encoding :=
  let len := naiveTimeEncodedLen time
  ⟨binaryType 0x0B, [len, 0, 0, 0, 0, 0] ++ encodeTime time (len > 8), .ok .no⟩

/-! ## The decoders -/

/-- Why a `chrono` value was not decoded. -/
inductive ChronoDecodeError where
  /-- `empty buffer` -/
  | emptyBuffer
  /-- `expected at least 4 bytes for date, got ...` -/
  | shortDate (len : Nat)
  /-- `server returned invalid date: ...` -/
  | invalidDate (year : Int) (month day : Nat)
  /-- `server returned microseconds out of range: ...` -/
  | microsOutOfRange (micros : Nat)
  /-- `server returned invalid time: ...` -/
  | invalidTime
  /-- `UnexpectedNullError`, for a date of no bytes. -/
  | unexpectedNull
  | time (e : TimeDecodeError)
  /-- `Cannot convert MySqlTime value to NaiveTime: ...` -/
  | notTimeOfDay

/-- `decode_date`: `none` for no bytes, which is all zeros. -/
def decodeDate (buf : List UInt8) : Except ChronoDecodeError (Option NaiveDate) :=
  match buf with
  | [] => .ok none
  | y0 :: y1 :: month :: day :: _ =>
    match NaiveDate.fromYmdOpt (leValue [y0, y1]) month.toNat day.toNat with
    | some date => .ok (some date)
    | none => .error (.invalidDate (leValue [y0, y1]) month.toNat day.toNat)
  | _ => .error (.shortDate buf.length)

/-- `decode_time` over `len` bytes; `none` where a read of `Bytes` panics. -/
def decodeTime (len : UInt8) (buf : List UInt8) : ExceptT ChronoDecodeError Option NaiveTime :=
  match buf with
  | hour :: minute :: seconds :: rest => do
    -- `get_uint_le(buf.len())`, which panics past eight bytes
    let micros ← if len > 3 then (if rest.length ≤ 8 then pure (leValue rest) else ExceptT.lift none) else pure 0
    if 2 ^ 32 ≤ micros then throw (.microsOutOfRange micros)
    else match NaiveTime.fromHmsMicroOpt hour.toNat minute.toNat seconds.toNat micros with
      | some time => pure time
      | none => throw .invalidTime
  | _ => ExceptT.lift none

/-- The binary branch of `Decode for NaiveDate`, on the value with its length
byte in front. -/
def NaiveDate.decodeBinary (buf : List UInt8) : Except ChronoDecodeError NaiveDate :=
  match buf with
  | [] => .error .emptyBuffer
  | _ :: rest => match decodeDate rest with
    | .ok (some date) => .ok date
    | .ok none => .error .unexpectedNull
    | .error e => .error e

/-- The binary branch of `Decode for NaiveDateTime`: the time from offset 5,
over the length byte less the date's four. -/
def NaiveDateTime.decodeBinary (buf : List UInt8) : ExceptT ChronoDecodeError Option NaiveDateTime :=
  match buf with
  | [] => throw .emptyBuffer
  | len :: rest => do
    let some date ← (decodeDate rest : Except _ _) | throw .unexpectedNull
    if len > 4 then
      -- `&buf[5..]` panics on a shorter buffer
      if buf.length < 5 then ExceptT.lift none
      else do
        let time ← decodeTime (len - 4) (buf.drop 5)
        pure ⟨date, time⟩
    else match date.andHmsOpt 0 0 0 with
      | some dt => pure dt
      | none => ExceptT.lift none

/-- `TryFrom<MySqlTime> for NaiveTime`. -/
def NaiveTime.tryFromMySqlTime (time : MySqlTime) : Except ChronoDecodeError NaiveTime :=
  match NaiveTime.fromHmsMicroOpt time.magnitude.hours.toNat time.magnitude.minutes.toNat
      time.magnitude.seconds.toNat time.magnitude.microseconds.toNat with
  | some t => .ok t
  | none => .error .notTimeOfDay

/-- The binary branch of `Decode for NaiveTime`: through `MySqlTime`. -/
def NaiveTime.decodeBinary (buf : List UInt8) : Except ChronoDecodeError NaiveTime :=
  match MySqlTime.decodeBinary buf with
  | .ok time => tryFromMySqlTime time
  | .error e => .error (.time e)

/-! ## Decoding what was encoded -/

theorem daysInMonth_le (year : Int) (month : Nat) : daysInMonth year month ≤ 31 := by
  unfold daysInMonth
  split_ifs <;> omega

theorem NaiveDate.month_lt (d : NaiveDate) : d.month < 256 := by
  have := d.isDate.2.2.2.1
  omega

theorem NaiveDate.day_lt (d : NaiveDate) : d.day < 256 := by
  have := d.isDate.2.2.2.2.2.trans (daysInMonth_le d.year d.month)
  omega

/-- `from_ymd_opt` gives a date back from its own fields. -/
theorem NaiveDate.fromYmdOpt_self (d : NaiveDate) : fromYmdOpt d.year d.month d.day = some d :=
  dif_pos d.isDate

/-- `from_hms_micro_opt` gives a time of whole microseconds back from its
fields: every nanosecond count, leap seconds included, fits `u32`. -/
theorem NaiveTime.fromHmsMicroOpt_self (t : NaiveTime) (hmicro : t.nanosecond % 1000 = 0) :
    fromHmsMicroOpt t.hour t.minute t.second (t.nanosecond / 1000) = some t := by
  have hns := t.isTime.2.2.2.1
  have hcancel : t.nanosecond / 1000 * 1000 = t.nanosecond := Nat.div_mul_cancel (Nat.dvd_of_mod_eq_zero hmicro)
  rw [fromHmsMicroOpt, hcancel, if_pos (by omega)]
  exact dif_pos t.isTime

/-! The fields of a time fit the integers the codecs cast them to. -/

@[simp] theorem NaiveTime.toNat_toUInt8_hour (t : NaiveTime) : t.hour.toUInt8.toNat = t.hour :=
  UInt8.toNat_ofNat_of_lt' (show _ < 256 by have := t.isTime.1; omega)

@[simp] theorem NaiveTime.toNat_toUInt32_hour (t : NaiveTime) : t.hour.toUInt32.toNat = t.hour :=
  UInt32.toNat_ofNat_of_lt' (show _ < 2 ^ 32 by have := t.isTime.1; omega)

@[simp] theorem NaiveTime.toNat_toUInt8_minute (t : NaiveTime) : t.minute.toUInt8.toNat = t.minute :=
  UInt8.toNat_ofNat_of_lt' (show _ < 256 by have := t.isTime.2.1; omega)

@[simp] theorem NaiveTime.toNat_toUInt8_second (t : NaiveTime) : t.second.toUInt8.toNat = t.second :=
  UInt8.toNat_ofNat_of_lt' (show _ < 256 by have := t.isTime.2.2.1; omega)

@[simp] theorem NaiveTime.toNat_toUInt32_micros (t : NaiveTime) :
    (t.nanosecond / 1000).toUInt32.toNat = t.nanosecond / 1000 :=
  UInt32.toNat_ofNat_of_lt' (show _ < 2 ^ 32 by have := t.isTime.2.2.2.1; omega)

theorem encodeDate_of_le {d : NaiveDate} (h0 : 0 ≤ d.year) (h1 : d.year ≤ 65535) :
    encodeDate d = .ok (leBytes 2 d.year.toNat ++ [d.month.toUInt8, d.day.toUInt8]) :=
  if_pos ⟨h0, by omega⟩

/-- A year outside `u16` is an error of the encoder, never a wrapped year. -/
theorem encodeDate_of_out_of_range {d : NaiveDate} (h : d.year < 0 ∨ 65535 < d.year) :
    encodeDate d = .error ("NaiveDateTime out of range for Mysql: " ++ ymdDebug d.year d.month d.day) :=
  if_neg (by omega)

example : encodeDate ⟨-1, 12, 31, by decide⟩ = .error "NaiveDateTime out of range for Mysql: -0001-12-31" := by
  decide

/-- `decode_date` reads back what `encode_date` wrote, whatever follows it. -/
theorem decodeDate_encodeDate {d : NaiveDate} (h0 : 0 ≤ d.year) (h1 : d.year ≤ 65535) (rest : List UInt8) :
    decodeDate (leBytes 2 d.year.toNat ++ [d.month.toUInt8, d.day.toUInt8] ++ rest) = .ok (some d) := by
  obtain ⟨y0, y1, hy⟩ : ∃ y0 y1, leBytes 2 d.year.toNat = [y0, y1] := ⟨_, _, rfl⟩
  have hyear : ((leValue [y0, y1] : Nat) : Int) = d.year := by
    rw [← hy, leValue_leBytes_of_lt (by norm_num; omega)]
    omega
  have hmonth : d.month.toUInt8.toNat = d.month := UInt8.toNat_ofNat_of_lt' d.month_lt
  have hday : d.day.toUInt8.toNat = d.day := UInt8.toNat_ofNat_of_lt' d.day_lt
  rw [hy]
  simp only [List.cons_append, List.nil_append, decodeDate, hyear, hmonth, hday, NaiveDate.fromYmdOpt_self]

/-- `decode_time` reads back what `encode_time` wrote: the microseconds when
the length says they are there, and zero when it does not, which is right for
a time of no nanoseconds. -/
theorem decodeTime_encodeTime {t : NaiveTime} (hmicro : t.nanosecond % 1000 = 0) {len : UInt8}
    {includeMicros : Bool} (hinclude : includeMicros = decide (3 < len)) (hlen : 3 < len ∨ t.nanosecond = 0) :
    (decodeTime len (encodeTime t includeMicros)).run = some (.ok t) := by
  have hns := t.isTime.2.2.2.1
  by_cases hl : 3 < len
  · -- the microseconds are read back from their four bytes
    have hvalue : leValue (leBytes 4 (t.nanosecond / 1000)) = t.nanosecond / 1000 :=
      leValue_leBytes_of_lt (by norm_num; omega)
    simp only [hinclude, decide_eq_true hl, encodeTime, if_true, List.cons_append, List.nil_append, decodeTime,
      NaiveTime.toNat_toUInt8_hour, NaiveTime.toNat_toUInt8_minute, NaiveTime.toNat_toUInt8_second, length_leBytes,
      hvalue]
    simp [hl, NaiveTime.fromHmsMicroOpt_self t hmicro]
    rw [if_neg (by omega)]
    rfl
  · -- none were written, and none were there
    have hzero : t.nanosecond = 0 := hlen.resolve_left hl
    have hdiv : t.nanosecond / 1000 = 0 := by rw [hzero]
    simp only [hinclude, decide_eq_false hl, encodeTime, Bool.false_eq_true, if_false, List.append_nil,
      decodeTime, NaiveTime.toNat_toUInt8_hour, NaiveTime.toNat_toUInt8_minute, NaiveTime.toNat_toUInt8_second]
    simp [hl, ← hdiv, NaiveTime.fromHmsMicroOpt_self t hmicro]
    rw [if_neg (by omega)]
    rfl

/-! ## The round trips -/

/-- A date in `u16` is written and read back. -/
theorem NaiveDate.decodeBinary_encode {d : NaiveDate} (h0 : 0 ≤ d.year) (h1 : d.year ≤ 65535) :
    d.encode.result = .ok .no ∧ decodeBinary d.encode.bytes = .ok d := by
  have hdate := decodeDate_encodeDate h0 h1 []
  rw [List.append_nil] at hdate
  constructor
  · simp only [encode, encodeDate_of_le h0 h1]
  · simp only [encode, encodeDate_of_le h0 h1, decodeBinary, hdate]

/-- What `Encode for NaiveTime` writes: a positive `TIME` of zero days, with
the microseconds exactly when there are nanoseconds. -/
theorem NaiveTime.encode_bytes (t : NaiveTime) :
    t.encode.bytes = [naiveTimeEncodedLen t, 0] ++ leBytes 4 0 ++
      [t.hour.toUInt8, t.minute.toUInt8, t.second.toUInt8] ++
      (if t.nanosecond = 0 then [] else leBytes 4 (t.nanosecond / 1000)) := by
  by_cases hz : t.nanosecond = 0 <;> simp [encode, naiveTimeEncodedLen, encodeTime, hz]

/-- A time of day below a second's nanoseconds is a `MySqlTime` that `new`
accepts: under 24 hours, and positive. -/
theorem NaiveTime.new_timeOfDay (t : NaiveTime) (hsub : t.nanosecond < 10 ^ 9) :
    MySqlTime.new .positive t.hour.toUInt32 t.minute.toUInt8 t.second.toUInt8 (t.nanosecond / 1000).toUInt32 =
      .ok ⟨.positive, ⟨t.hour.toUInt32, t.minute.toUInt8, t.second.toUInt8, (t.nanosecond / 1000).toUInt32⟩⟩ := by
  obtain ⟨hhour, hminute, hsecond, -, -⟩ := t.isTime
  refine MySqlTime.new_eq_ok_iff.mpr ⟨rfl, ?_⟩
  exact {
    hours := by simp only [NaiveTime.toNat_toUInt32_hour]; omega
    minutes := by simp only [NaiveTime.toNat_toUInt8_minute]; omega
    seconds := by simp only [NaiveTime.toNat_toUInt8_second]; omega
    microseconds := by simp only [NaiveTime.toNat_toUInt32_micros]; omega
    notNegativeZero := by simp
    notOverMax := by
      rw [TimeMagnitude.cmp_max_of_hours_lt (by simp only [NaiveTime.toNat_toUInt32_hour]; omega)]
      decide }

/-- A time of whole microseconds below a second is written as a `TIME` and
read back through `MySqlTime`. -/
theorem NaiveTime.decodeBinary_encode {t : NaiveTime} (hmicro : t.nanosecond % 1000 = 0)
    (hsub : t.nanosecond < 10 ^ 9) :
    t.encode.bytes.length = (naiveTimeEncodedLen t).toNat + 1 ∧ decodeBinary t.encode.bytes = .ok t := by
  have hhour := t.isTime.1
  have hlen : naiveTimeEncodedLen t ≠ 0 := by
    unfold naiveTimeEncodedLen
    split <;> decide
  -- the microseconds written, four bytes or none, hold the count of them
  have hshape : (if t.nanosecond = 0 then [] else leBytes 4 (t.nanosecond / 1000)) = [] ∨
      (if t.nanosecond = 0 then [] else leBytes 4 (t.nanosecond / 1000)).length = 4 := by
    split
    · exact .inl rfl
    · exact .inr (length_leBytes 4 _)
  have hvalue : leValue (if t.nanosecond = 0 then [] else leBytes 4 (t.nanosecond / 1000)) =
      t.nanosecond / 1000 := by
    split_ifs with hz
    · rw [hz, leValue_nil]
    · exact leValue_leBytes_of_lt (by norm_num; omega)
  have hhours : (0 * 24 + t.hour.toUInt8.toNat).toUInt32 = t.hour.toUInt32 := by
    rw [NaiveTime.toNat_toUInt8_hour, Nat.zero_mul, Nat.zero_add]
  have hfields := @MySqlTime.decodeBinary_fields _ 0 t.hour.toUInt8 t.minute.toUInt8 t.second.toUInt8 0 _ .positive
    hlen rfl hshape (by norm_num) (by rw [NaiveTime.toNat_toUInt8_hour]; omega)
  rw [hhours, hvalue, t.new_timeOfDay hsub] at hfields
  refine ⟨?_, ?_⟩
  · rw [encode_bytes]
    unfold naiveTimeEncodedLen
    split <;> simp [*]
  · rw [decodeBinary, encode_bytes, hfields]
    simp only [tryFromMySqlTime, NaiveTime.toNat_toUInt32_hour, NaiveTime.toNat_toUInt8_minute,
      NaiveTime.toNat_toUInt8_second, NaiveTime.toNat_toUInt32_micros, NaiveTime.fromHmsMicroOpt_self t hmicro]

/-- `Decode for NaiveDateTime` on a length byte, a date in `u16` years and the
bytes after it: the time `decode_time` reads from those bytes for a length
past four, else midnight. -/
theorem NaiveDateTime.decodeBinary_date {d : NaiveDate} (h0 : 0 ≤ d.year) (h1 : d.year ≤ 65535) (len : UInt8)
    (rest : List UInt8) :
    decodeBinary (len :: (leBytes 2 d.year.toNat ++ [d.month.toUInt8, d.day.toUInt8] ++ rest)) =
      if len > 4 then (fun time => ⟨d, time⟩) <$> decodeTime (len - 4) rest
      else match d.andHmsOpt 0 0 0 with
        | some dt => pure dt
        | none => ExceptT.lift none := by
  have hlength : ¬(len :: (leBytes 2 d.year.toNat ++ [d.month.toUInt8, d.day.toUInt8] ++ rest)).length < 5 := by
    simp
  have hdrop : (len :: (leBytes 2 d.year.toNat ++ [d.month.toUInt8, d.day.toUInt8] ++ rest)).drop 5 = rest := by
    rw [List.drop_succ_cons, List.drop_left' (by simp)]
  -- the date decoded, lifted out of `Result`
  have hlift : (liftM (Except.ok (some d) : Except ChronoDecodeError (Option NaiveDate)) :
      ExceptT ChronoDecodeError Option (Option NaiveDate)) = pure (some d) := rfl
  simp only [decodeBinary, decodeDate_encodeDate h0 h1, hlength, hdrop, if_false, hlift, pure_bind,
    map_eq_pure_bind]

/-- The three layouts of a `DATETIME`: the date alone, with the time to the
second, or with the microseconds too. -/
theorem naiveDtEncodedLen_cases (dt : NaiveDateTime) :
    (naiveDtEncodedLen dt = 4 ∧ dt.time.hour = 0 ∧ dt.time.minute = 0 ∧ dt.time.second = 0 ∧
        dt.time.nanosecond = 0) ∨
      (naiveDtEncodedLen dt = 7 ∧ dt.time.nanosecond = 0) ∨ (naiveDtEncodedLen dt = 11 ∧ dt.time.nanosecond ≠ 0) := by
  unfold naiveDtEncodedLen
  split_ifs with hzero hns
  · exact .inl ⟨rfl, hzero⟩
  · exact .inr (.inl ⟨rfl, hns⟩)
  · exact .inr (.inr ⟨rfl, hns⟩)

/-- A date-time of a year in `u16` and whole microseconds is written in the
4, 7 or 11 bytes its length byte gives, and read back. -/
theorem NaiveDateTime.decodeBinary_encode {dt : NaiveDateTime} (h0 : 0 ≤ dt.date.year) (h1 : dt.date.year ≤ 65535)
    (hmicro : dt.time.nanosecond % 1000 = 0) :
    dt.encode.result = .ok .no ∧ dt.encode.bytes.head? = some (naiveDtEncodedLen dt) ∧
      dt.encode.bytes.length = (naiveDtEncodedLen dt).toNat + 1 ∧
      (decodeBinary dt.encode.bytes).run = some (.ok dt) := by
  simp only [NaiveDateTime.encode, encodeDate_of_le h0 h1]
  rcases naiveDtEncodedLen_cases dt with ⟨hlen, hh, hm, hs, hns⟩ | ⟨hlen, hns⟩ | ⟨hlen, hns⟩ <;> rw [hlen]
  · -- four bytes: the date at midnight
    have hmidnight : dt.date.andHmsOpt 0 0 0 = some dt := by
      obtain ⟨date, ⟨hour, minute, second, nanosecond, htime⟩⟩ := dt
      obtain ⟨rfl, rfl, rfl, rfl⟩ : hour = 0 ∧ minute = 0 ∧ second = 0 ∧ nanosecond = 0 := ⟨hh, hm, hs, hns⟩
      rfl
    rw [if_neg (show ¬(4 : UInt8) > 4 by decide)]
    refine ⟨trivial, rfl, by simp, ?_⟩
    rw [List.cons_append, NaiveDateTime.decodeBinary_date h0 h1, if_neg (show ¬(4 : UInt8) > 4 by decide),
      hmidnight]
    rfl
  · -- seven: the time to the second
    rw [if_pos (show (7 : UInt8) > 4 by decide)]
    refine ⟨trivial, rfl, by simp [encodeTime], ?_⟩
    rw [List.cons_append, NaiveDateTime.decodeBinary_date h0 h1, if_pos (show (7 : UInt8) > 4 by decide),
      ExceptT.run_map, decodeTime_encodeTime hmicro (by decide) (.inr hns)]
    rfl
  · -- eleven: the microseconds too
    rw [if_pos (show (11 : UInt8) > 4 by decide)]
    refine ⟨trivial, rfl, by simp [encodeTime], ?_⟩
    rw [List.cons_append, NaiveDateTime.decodeBinary_date h0 h1, if_pos (show (11 : UInt8) > 4 by decide),
      ExceptT.run_map, decodeTime_encodeTime hmicro (by decide) (.inl (by decide))]
    rfl

theorem chrono_binary_round_trip :
    (∀ d : NaiveDate, 0 ≤ d.year → d.year ≤ 65535 →
      d.encode.result = .ok .no ∧ NaiveDate.decodeBinary d.encode.bytes = .ok d) ∧
    (∀ t : NaiveTime, t.nanosecond % 1000 = 0 → t.nanosecond < 10 ^ 9 →
      t.encode.bytes.head? = some (naiveTimeEncodedLen t) ∧
        t.encode.bytes.length = (naiveTimeEncodedLen t).toNat + 1 ∧
        NaiveTime.decodeBinary t.encode.bytes = .ok t) ∧
    (∀ dt : NaiveDateTime, 0 ≤ dt.date.year → dt.date.year ≤ 65535 → dt.time.nanosecond % 1000 = 0 →
      dt.time.nanosecond < 10 ^ 9 →
      dt.encode.result = .ok .no ∧ dt.encode.bytes.head? = some (naiveDtEncodedLen dt) ∧
        dt.encode.bytes.length = (naiveDtEncodedLen dt).toNat + 1 ∧
        (NaiveDateTime.decodeBinary dt.encode.bytes).run = some (.ok dt)) ∧
    (∀ d : NaiveDate, d.year < 0 ∨ 65535 < d.year → ∃ e, d.encode.result = .error e) ∧
    (∀ dt : NaiveDateTime, dt.date.year < 0 ∨ 65535 < dt.date.year → ∃ e, dt.encode.result = .error e) := by
  refine ⟨fun d h0 h1 => NaiveDate.decodeBinary_encode h0 h1, ?_, ?_, ?_, ?_⟩
  · intro t hmicro hsub
    exact ⟨rfl, NaiveTime.decodeBinary_encode hmicro hsub⟩
  · intro dt h0 h1 hmicro _
    exact NaiveDateTime.decodeBinary_encode h0 h1 hmicro
  · intro d h
    exact ⟨_, by rw [NaiveDate.encode, encodeDate_of_out_of_range h]⟩
  · intro dt h
    exact ⟨_, by rw [NaiveDateTime.encode, encodeDate_of_out_of_range h]⟩

theorem chrono_round_trip_of_leap_day :
    NaiveDate.decodeBinary (⟨2024, 2, 29, by decide⟩ : NaiveDate).encode.bytes = .ok ⟨2024, 2, 29, by decide⟩ ∧
    NaiveTime.decodeBinary (⟨23, 59, 59, 999999000, by decide⟩ : NaiveTime).encode.bytes =
      .ok ⟨23, 59, 59, 999999000, by decide⟩ ∧
    (NaiveDateTime.decodeBinary
        (⟨⟨2024, 2, 29, by decide⟩, ⟨23, 59, 59, 999999000, by decide⟩⟩ : NaiveDateTime).encode.bytes).run =
      some (.ok ⟨⟨2024, 2, 29, by decide⟩, ⟨23, 59, 59, 999999000, by decide⟩⟩) ∧
    ∃ e, (⟨65536, 1, 1, by decide⟩ : NaiveDate).encode.result = .error e :=
  ⟨(chrono_binary_round_trip.1 _ (by decide) (by decide)).2,
    (chrono_binary_round_trip.2.1 _ (by decide) (by decide)).2.2,
    (chrono_binary_round_trip.2.2.1 _ (by decide) (by decide) (by decide) (by decide)).2.2.2,
    chrono_binary_round_trip.2.2.2.1 _ (.inr (by decide))⟩

end Sqlx.MySql
