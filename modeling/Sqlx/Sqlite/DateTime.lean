import Sqlx.Core.DateTime
import Sqlx.Lib.Binary64
import Sqlx.Postgres.ValueDecode
import Sqlx.Sqlite.TypeInfo

/-!
# SQLite — `chrono` and `time` date-times from a column (`types/chrono.rs`, `types/time.rs`)

A SQLite value is `TEXT`, `INTEGER` or `REAL` (or a `NULL` of a declared type),
and the decoders go by that type. `TEXT` is tried against the libraries'
parsers in a fixed order; an `INTEGER` is seconds since the Unix epoch; a
`REAL` is a Julian day number, which only `chrono` reads. A value none of these
read is an error naming its text.

For `chrono` an `INTEGER` outside the library is an error, and one inside is
its instant (`ChronoTypes.decodeDatetime_integer`). `time`'s `OffsetDateTime`
reports the same range error, but its `PrimitiveDateTime` calls `unwrap` on it
and panics (`TimeTypes.decodeDatetime_integer_run_eq_none_iff`). `chrono`'s
`REAL` path splits the second count into its truncated whole seconds and the
absolute value of its fraction, which adds the fraction instead of
subtracting it before 1970 (`ChronoTypes.decodeDatetimeFromFloat_of_exact`).
`f64` arithmetic is `Binary64`'s: exact on the inputs used here.
-/

namespace Sqlx.Sqlite

open Calendar Binary64 Sqlx.Chrono Sqlx.Time
open Sqlx.MySql (NaiveTime IsTime)
open Sqlx.Postgres (DecodeM panicking run_panicking run_bind_pure_eq_none_iff)

/-- What a `SqliteValueRef` answers: its type, `text()` (an error on invalid
UTF-8), `int64()` and `double()`, each as `sqlite3_value_*` converts the stored
value. -/
structure SqliteValueRef where
  typeInfo : DataType
  text : Except String String
  int64 : Int
  double : F64
  isI64 : -2 ^ 63 ≤ int64 ∧ int64 < 2 ^ 63

/-! ## `chrono` -/

namespace ChronoTypes

/-- `NaiveTime::from_num_seconds_from_midnight_opt`: a second of the day and
its nanoseconds, a leap second only at second 59. -/
def fromNumSecondsFromMidnightOpt (secs nsecs : Nat) : Option NaiveTime :=
  if h : secs < 86400 ∧ IsTime (secs / 3600) (secs / 60 % 60) (secs % 60) nsecs then
    some ⟨secs / 3600, secs / 60 % 60, secs % 60, nsecs, h.2⟩
  else none

/-- `DateTime::from_timestamp`: the UTC date-time `secs` seconds and `nsecs`
nanoseconds after the epoch, if `chrono` holds it. -/
def fromTimestamp (secs : Int) (nsecs : Nat) : Option NaiveDateTime := do
  let date ← Day.ofDays? (secs / 86400)
  let time ← fromNumSecondsFromMidnightOpt (secs % 86400).toNat nsecs
  pure ⟨date, time⟩

/-- `Utc.fix().timestamp_opt(secs, nsecs).single()`. -/
def timestampOpt (secs : Int) (nsecs : Nat) : Option (DateTime FixedOffset) :=
  (fromTimestamp secs nsecs).map (DateTime.fromUtcDatetime fun _ => FixedOffset.utc)

/-- The parsers of `chrono` that `decode_datetime_from_text` tries. -/
structure ChronoParsers where
  /-- `DateTime::parse_from_rfc3339`. -/
  parseFromRfc3339 : String → Option (DateTime FixedOffset)
  /-- `DateTime::parse_from_str(value, format)`. -/
  parseFromStr : String → String → Option (DateTime FixedOffset)
  /-- `NaiveDateTime::parse_from_str(value, format)`. -/
  naiveParseFromStr : String → String → Option NaiveDateTime

/-- `sqlite_datetime_formats`, in the order they are tried. -/
def SQLITE_DATETIME_FORMATS : List String :=
  ["%F %T%.f", "%F %R", "%F %RZ", "%F %R%:z", "%F %T%.fZ", "%F %T%.f%:z",
    "%FT%R", "%FT%RZ", "%FT%R%:z", "%FT%T%.f", "%FT%T%.fZ", "%FT%T%.f%:z"]

/-- `decode_datetime_from_text`: RFC 3339, then each format with an offset and
without one (read as UTC). -/
def decodeDatetimeFromText (parsers : ChronoParsers) (value : String) : Option (DateTime FixedOffset) :=
  (parsers.parseFromRfc3339 value).orElse fun _ =>
    SQLITE_DATETIME_FORMATS.findSome? fun format =>
      (parsers.parseFromStr value format).orElse fun _ =>
        (parsers.naiveParseFromStr value format).map (DateTime.fromUtcDatetime fun _ => FixedOffset.utc)

/-- `decode_datetime_from_int`. -/
def decodeDatetimeFromInt (value : Int) : Option (DateTime FixedOffset) := timestampOpt value 0

/-- `decode_datetime_from_float`: the seconds since the epoch of a Julian day
number, split into `trunc() as i64` and `(fract() * 1E9).abs() as u32`. -/
def decodeDatetimeFromFloat (round : ℚ → F64) (value : F64) : Option (DateTime FixedOffset) := do
  let value ← value
  let sinceEpoch ← round (value - 2440587.5)
  -- `timestamp.is_finite()`: an infinity is `none` already
  let timestamp ← round (sinceEpoch * 86400)
  let nanos ← round (fract timestamp * 1000000000)
  timestampOpt (saturatingCast (-2 ^ 63) (2 ^ 63 - 1) timestamp) (saturatingCast 0 (2 ^ 32 - 1) |nanos|).toNat

/-- `decode_datetime`: by the value's type; `None` is an error naming the
value's text. -/
def decodeDatetime (parsers : ChronoParsers) (round : ℚ → F64) (value : SqliteValueRef) :
    Except String (DateTime FixedOffset) := do
  let dt ← match value.typeInfo with
    | .text => do
      let text ← value.text
      pure (decodeDatetimeFromText parsers text)
    | .int4 | .integer => pure (decodeDatetimeFromInt value.int64)
    | .float => pure (decodeDatetimeFromFloat round value.double)
    | _ => pure none
  match dt with
  | some dt => pure dt
  | none => do
    let text ← value.text
    throw s!"invalid datetime: {text}"

/-- `Decode for DateTime<Utc>` and `DateTime<Local>`: `from_utc_datetime` of the
zone on the UTC date-time; `Decode for DateTime<FixedOffset>` is
`decode_datetime` itself. -/
def DateTime.decode {Offset : Type} (offsetFromUtc : NaiveDateTime → Offset) (parsers : ChronoParsers)
    (round : ℚ → F64) (value : SqliteValueRef) : Except String (DateTime Offset) := do
  let dt ← decodeDatetime parsers round value
  pure (DateTime.fromUtcDatetime offsetFromUtc dt.utc)

/-- `DateTime::naive_local`: the seconds of the day move by the offset and the
fraction stays; `none` is its `expect` when the day leaves `chrono`'s dates,
and also a leap second moved off second 59, which `chrono` keeps as an invalid
time. -/
def naiveLocal (x : DateTime FixedOffset) : Option NaiveDateTime := do
  let secs : Int := x.utc.time.hour * 3600 + x.utc.time.minute * 60 + x.utc.time.second + x.offset.localMinusUtc
  let date ← Day.ofDays? (x.utc.date.days + secs / 86400)
  let time ← fromNumSecondsFromMidnightOpt (secs % 86400).toNat x.utc.time.nanosecond
  pure ⟨date, time⟩

/-- `Decode for NaiveDateTime`: `decode_datetime(value)?.naive_local()`. -/
def NaiveDateTime.decode (parsers : ChronoParsers) (round : ℚ → F64) (value : SqliteValueRef) :
    DecodeM NaiveDateTime := do
  let dt ← decodeDatetime parsers round value
  panicking (naiveLocal dt)

section Lemmas

variable {secs : Int} {nsecs : Nat}

theorem fromNumSecondsFromMidnightOpt_of_lt {s : Nat} (h : s < 86400) (hn : nsecs < 10 ^ 9) :
    fromNumSecondsFromMidnightOpt s nsecs =
      some ⟨s / 3600, s / 60 % 60, s % 60, nsecs, by unfold IsTime; omega⟩ :=
  dif_pos ⟨h, by unfold IsTime; omega⟩

theorem nanosOfDay_of_fromNumSecondsFromMidnightOpt {s : Nat} {t : NaiveTime}
    (h : fromNumSecondsFromMidnightOpt s nsecs = some t) : t.nanosOfDay = s * 10 ^ 9 + nsecs := by
  unfold fromNumSecondsFromMidnightOpt at h
  split at h
  · rename_i hs
    cases h
    simp only [NaiveTime.nanosOfDay]
    omega
  · cases h

/-- A timestamp `chrono` holds is that many nanoseconds after the epoch. -/
theorem unixNanos_of_fromTimestamp {dt : NaiveDateTime} (h : fromTimestamp secs nsecs = some dt) :
    dt.unixNanos = secs * 10 ^ 9 + nsecs := by
  obtain ⟨date, hdate, hrest⟩ := Option.bind_eq_some_iff.1 h
  obtain ⟨time, htime, hdt⟩ := Option.bind_eq_some_iff.1 hrest
  cases hdt
  have hsod : 0 ≤ secs % 86400 := Int.emod_nonneg _ (by decide)
  have hnod := nanosOfDay_of_fromNumSecondsFromMidnightOpt htime
  rw [NaiveDateTime.unixNanos, Day.days_of_ofDays? hdate, hnod]
  unfold NANOS_PER_DAY
  omega

theorem unixNanos_of_timestampOpt {x : DateTime FixedOffset} (h : timestampOpt secs nsecs = some x) :
    x.utc.unixNanos = secs * 10 ^ 9 + nsecs := by
  obtain ⟨dt, hdt, rfl⟩ := Option.map_eq_some_iff.1 h
  exact unixNanos_of_fromTimestamp hdt

/-- A whole second in `chrono`'s range has a date-time, and only such a second. -/
theorem fromTimestamp_eq_none_iff (hn : nsecs < 10 ^ 9) :
    fromTimestamp secs nsecs = none ↔ secs / 86400 < NAIVE_DATE_MIN ∨ NAIVE_DATE_MAX < secs / 86400 := by
  have hsod : (secs % 86400).toNat < 86400 := by omega
  rw [fromTimestamp, fromNumSecondsFromMidnightOpt_of_lt hsod hn, ← Day.ofDays?_eq_none_iff]
  cases Day.ofDays? (secs / 86400) <;> simp

variable {parsers : ChronoParsers} {round : ℚ → F64} {value : SqliteValueRef}

/-- An `INTEGER` in `chrono`'s range is its instant; one outside is an error
naming its text. -/
theorem decodeDatetime_integer (h : value.typeInfo = .integer) :
    decodeDatetime parsers round value =
      match decodeDatetimeFromInt value.int64 with
      | some dt => .ok dt
      | none => value.text >>= fun text => .error s!"invalid datetime: {text}" := by
  simp only [decodeDatetime, h, pure_bind]
  rfl

theorem decodeDatetime_float (h : value.typeInfo = .float) :
    decodeDatetime parsers round value =
      match decodeDatetimeFromFloat round value.double with
      | some dt => .ok dt
      | none => value.text >>= fun text => .error s!"invalid datetime: {text}" := by
  simp only [decodeDatetime, h, pure_bind]
  rfl

/-- When the arithmetic is exact, the seconds are the truncated count and the
nanoseconds the absolute value of its fraction. -/
theorem decodeDatetimeFromFloat_of_exact (hround : ExactOnDoubles round) {v : ℚ}
    (h1 : IsDouble (v - 2440587.5)) (h2 : IsDouble ((v - 2440587.5) * 86400))
    (h3 : IsDouble (fract ((v - 2440587.5) * 86400) * 1000000000)) :
    decodeDatetimeFromFloat round (some v) =
      timestampOpt (saturatingCast (-2 ^ 63) (2 ^ 63 - 1) ((v - 2440587.5) * 86400))
        (saturatingCast 0 (2 ^ 32 - 1) |fract ((v - 2440587.5) * 86400) * 1000000000|).toNat := by
  simp only [decodeDatetimeFromFloat, Option.bind_eq_bind, Option.bind_some, hround _ h1, hround _ h2, hround _ h3]

theorem fromNumSecondsFromMidnightOpt_secs (t : NaiveTime) :
    fromNumSecondsFromMidnightOpt (t.hour * 3600 + t.minute * 60 + t.second) t.nanosecond = some t := by
  obtain ⟨hour, minute, second, nanosecond, hiso⟩ := t
  have h := hiso
  unfold IsTime at h
  simp only
  rw [fromNumSecondsFromMidnightOpt, dif_pos ⟨by omega, by unfold IsTime; omega⟩, Option.some.injEq, NaiveTime.mk.injEq]
  omega

/-- An offset of zero leaves the date-time where it is. -/
theorem naiveLocal_fromUtcDatetime (n : NaiveDateTime) :
    naiveLocal (DateTime.fromUtcDatetime (fun _ => FixedOffset.utc) n) = some n := by
  have ht := n.time.isTime
  unfold IsTime at ht
  -- the seconds of the day stay in the day
  have hday : ((n.time.hour : Int) * 3600 + n.time.minute * 60 + n.time.second) / 86400 = 0 := by omega
  have hsod : (((n.time.hour : Int) * 3600 + n.time.minute * 60 + n.time.second) % 86400).toNat =
      n.time.hour * 3600 + n.time.minute * 60 + n.time.second := by omega
  simp only [naiveLocal, DateTime.fromUtcDatetime, FixedOffset.utc, add_zero, hday, Day.ofDays?_days, hsod,
    Option.bind_eq_bind, Option.bind_some, fromNumSecondsFromMidnightOpt_secs]
  rfl

/-- An `INTEGER` whose day `chrono` holds is its instant. -/
theorem decodeDatetime_integer_of_mem (h : value.typeInfo = .integer)
    (hmem : NAIVE_DATE_MIN ≤ value.int64 / 86400 ∧ value.int64 / 86400 ≤ NAIVE_DATE_MAX) :
    ∃ x, decodeDatetime parsers round value = .ok x ∧ x.utc.unixNanos = value.int64 * 10 ^ 9 := by
  cases hx : decodeDatetimeFromInt value.int64 with
  | none => exact absurd ((fromTimestamp_eq_none_iff (by decide)).1 (Option.map_eq_none_iff.1 hx)) (by omega)
  | some x =>
    refine ⟨x, by rw [decodeDatetime_integer h, hx], ?_⟩
    rw [unixNanos_of_timestampOpt hx]
    simp

/-- Any other `INTEGER` is an error naming its text. -/
theorem decodeDatetime_integer_of_not_mem {text : String} (h : value.typeInfo = .integer)
    (hout : value.int64 / 86400 < NAIVE_DATE_MIN ∨ NAIVE_DATE_MAX < value.int64 / 86400)
    (htext : value.text = .ok text) :
    decodeDatetime parsers round value = .error s!"invalid datetime: {text}" := by
  have hnone : decodeDatetimeFromInt value.int64 = none :=
    Option.map_eq_none_iff.2 ((fromTimestamp_eq_none_iff (by decide)).2 hout)
  rw [decodeDatetime_integer h, hnone, htext]
  rfl

/-- `NaiveDateTime` does not panic on an `INTEGER`: its offset is zero. -/
theorem NaiveDateTime.decode_integer_run_ne_none (h : value.typeInfo = .integer) :
    (NaiveDateTime.decode parsers round value).run ≠ none := by
  rw [NaiveDateTime.decode, decodeDatetime_integer h]
  cases hx : decodeDatetimeFromInt value.int64 with
  | some x =>
    obtain ⟨n, -, rfl⟩ := Option.map_eq_some_iff.1 hx
    show (panicking (naiveLocal (DateTime.fromUtcDatetime (fun _ => FixedOffset.utc) n))).run ≠ none
    rw [naiveLocal_fromUtcDatetime]
    exact Option.some_ne_none _
  | none =>
    cases value.text <;> exact Option.some_ne_none _

/-- The Julian day `2440587.49609375`, 337.5 seconds before the epoch and exact
in every `f64` step, decodes to 336.5 seconds before it. -/
theorem decodeDatetimeFromFloat_before_epoch (hround : ExactOnDoubles round) :
    ∃ x, decodeDatetimeFromFloat round (some 2440587.49609375) = some x ∧ x.utc.unixNanos = -336500000000 := by
  have ht : ((2440587.49609375 : ℚ) - 2440587.5) * 86400 = -337.5 := by norm_num
  have hfract : fract (-337.5 : ℚ) * 1000000000 = ((-500000000 : Int) : ℚ) := by norm_num [fract, trunc]
  have h1 : IsDouble ((2440587.49609375 : ℚ) - 2440587.5) :=
    ⟨-1, -8, by decide, by decide, by decide, by norm_num⟩
  have h2 : IsDouble (((2440587.49609375 : ℚ) - 2440587.5) * 86400) :=
    ⟨-675, -1, by decide, by decide, by decide, by rw [ht]; norm_num⟩
  have h3 : IsDouble (fract (((2440587.49609375 : ℚ) - 2440587.5) * 86400) * 1000000000) := by
    rw [ht, hfract]
    exact isDouble_of_int (by decide)
  have hsecs : saturatingCast (-2 ^ 63) (2 ^ 63 - 1) (-337.5 : ℚ) = -337 := by norm_num [saturatingCast, trunc]
  have hnanos : saturatingCast 0 (2 ^ 32 - 1) |((-500000000 : Int) : ℚ)| = 500000000 := by
    norm_num [saturatingCast, trunc]
  rw [decodeDatetimeFromFloat_of_exact hround h1 h2 h3, ht, hfract, hsecs, hnanos]
  cases hx : timestampOpt (-337) (Int.toNat 500000000) with
  | none =>
    have hb := naiveDate_bounds
    have hout := (fromTimestamp_eq_none_iff (by decide)).1 (Option.map_eq_none_iff.1 hx)
    omega
  | some x =>
    refine ⟨x, rfl, ?_⟩
    rw [unixNanos_of_timestampOpt hx]
    rfl

end Lemmas

end ChronoTypes

/-! ## `time` -/

namespace TimeTypes

/-- 1970-01-01. -/
def UNIX_EPOCH : Date := ⟨0, by decide⟩

/-- `OffsetDateTime::from_unix_timestamp`: the UTC date-time `timestamp` seconds
after the epoch, a range error outside `time`'s dates. -/
def fromUnixTimestamp (timestamp : Int) : Except String OffsetDateTime :=
  match PrimitiveDateTime.midnightAdd UNIX_EPOCH (timestamp * 1000000000) with
  | some dt => .ok dt.assumeUtc
  | none => .error "timestamp must be in the range -377705116800..=253402300799"

/-- The parsers of `time` that the text decoders try. -/
structure TimeParsers where
  /-- `OffsetDateTime::parse(value, &Rfc3339)`. -/
  offsetRfc3339 : String → Option OffsetDateTime
  /-- `OffsetDateTime::parse(value, formats::OFFSET_DATE_TIME)`. -/
  offsetDateTime : String → Option OffsetDateTime
  /-- `PrimitiveDateTime::parse` with
  `[year]-[month]-[day] [hour]:[minute]:[second].[subsecond]`. -/
  primitiveDefault : String → Option PrimitiveDateTime
  /-- `PrimitiveDateTime::parse` with the first of the space- and
  `T`-separated formats that reads the value. -/
  primitiveSeparated : String → Option PrimitiveDateTime

/-- `decode_datetime_from_text`. -/
def decodeDatetimeFromText (parsers : TimeParsers) (value : String) : Option PrimitiveDateTime :=
  (parsers.primitiveDefault value).orElse fun _ => parsers.primitiveSeparated value

/-- `decode_offset_datetime_from_text`: RFC 3339, the offset format, then a
date-time without offset at UTC. -/
def decodeOffsetDatetimeFromText (parsers : TimeParsers) (value : String) : Option OffsetDateTime :=
  (parsers.offsetRfc3339 value).orElse fun _ =>
    (parsers.offsetDateTime value).orElse fun _ =>
      (decodeDatetimeFromText parsers value).map PrimitiveDateTime.assumeUtc

/-- `decode_offset_datetime` (`Decode for OffsetDateTime`): an `INTEGER` out of
range is an error, by `?`. -/
def decodeOffsetDatetime (parsers : TimeParsers) (value : SqliteValueRef) : Except String OffsetDateTime := do
  let dt ← match value.typeInfo with
    | .text => do
      let text ← value.text
      pure (decodeOffsetDatetimeFromText parsers text)
    | .int4 | .integer => do
      let dt ← fromUnixTimestamp value.int64
      pure (some dt)
    | _ => pure none
  match dt with
  | some dt => pure dt
  | none => do
    let text ← value.text
    throw s!"invalid offset datetime: {text}"

/-- `decode_datetime` (`Decode for PrimitiveDateTime`): an `INTEGER` goes
through `from_unix_timestamp(..).unwrap()`, which panics outside `time`'s
dates. -/
def decodeDatetime (parsers : TimeParsers) (value : SqliteValueRef) : DecodeM PrimitiveDateTime := do
  let dt ← match value.typeInfo with
    | .text => do
      let text ← value.text
      pure (decodeDatetimeFromText parsers text)
    | .int4 | .integer => do
      let parsed ← panicking (fromUnixTimestamp value.int64).toOption
      pure (some ⟨parsed.localDateTime.date, parsed.localDateTime.time⟩)
    | _ => pure none
  match dt with
  | some dt => pure dt
  | none => do
    let text ← value.text
    throw s!"invalid datetime: {text}"

section Lemmas

variable {parsers : TimeParsers} {value : SqliteValueRef} {t : Int}

/-- The seconds `time` holds, from the first day of year `-9999` to the last
second of `9999`. -/
theorem midnightAdd_unixEpoch_eq_none_iff :
    PrimitiveDateTime.midnightAdd UNIX_EPOCH (t * 1000000000) = none ↔ t < -377705116800 ∨ 253402300799 < t := by
  have hb := date_bounds
  rw [PrimitiveDateTime.midnightAdd_eq_none_iff]
  show (0 : Int) + _ < _ ∨ _ < (0 : Int) + _ ↔ _
  unfold NANOS_PER_DAY
  omega

theorem fromUnixTimestamp_of_not_mem (h : t < -377705116800 ∨ 253402300799 < t) :
    fromUnixTimestamp t = .error "timestamp must be in the range -377705116800..=253402300799" := by
  rw [fromUnixTimestamp, midnightAdd_unixEpoch_eq_none_iff.2 h]

/-- A timestamp `time` holds is that many seconds after the epoch. -/
theorem fromUnixTimestamp_of_mem (h : -377705116800 ≤ t ∧ t ≤ 253402300799) :
    ∃ dt : PrimitiveDateTime, fromUnixTimestamp t = .ok dt.assumeUtc ∧ dt.unixNanos = t * 10 ^ 9 := by
  cases hadd : PrimitiveDateTime.midnightAdd UNIX_EPOCH (t * 1000000000) with
  | none => exact absurd (midnightAdd_unixEpoch_eq_none_iff.1 hadd) (by omega)
  | some dt =>
    refine ⟨dt, by rw [fromUnixTimestamp, hadd], ?_⟩
    rw [PrimitiveDateTime.unixNanos_midnightAdd hadd]
    show 0 * NANOS_PER_DAY + t * 1000000000 = t * 10 ^ 9
    ring

theorem decodeDatetime_integer (h : value.typeInfo = .integer) :
    decodeDatetime parsers value =
      (panicking (fromUnixTimestamp value.int64).toOption >>= fun parsed =>
        pure ⟨parsed.localDateTime.date, parsed.localDateTime.time⟩) := by
  simp only [decodeDatetime, h, pure_bind]

/-- `PrimitiveDateTime` panics on an `INTEGER` exactly when it is outside
`time`'s range. -/
theorem decodeDatetime_integer_run_eq_none_iff (h : value.typeInfo = .integer) :
    (decodeDatetime parsers value).run = none ↔ value.int64 < -377705116800 ∨ 253402300799 < value.int64 := by
  rw [decodeDatetime_integer h, run_bind_pure_eq_none_iff, run_panicking, Option.map_eq_none_iff]
  by_cases hmem : -377705116800 ≤ value.int64 ∧ value.int64 ≤ 253402300799
  · obtain ⟨dt, hdt, -⟩ := fromUnixTimestamp_of_mem hmem
    rw [hdt]
    exact iff_of_false (Option.some_ne_none _) (by omega)
  · rw [fromUnixTimestamp_of_not_mem (by omega)]
    exact iff_of_true rfl (by omega)

/-- Inside the range it is the instant the `INTEGER` counts. -/
theorem decodeDatetime_integer_of_mem (h : value.typeInfo = .integer)
    (hmem : -377705116800 ≤ value.int64 ∧ value.int64 ≤ 253402300799) :
    ∃ dt, (decodeDatetime parsers value).run = some (.ok dt) ∧ dt.unixNanos = value.int64 * 10 ^ 9 := by
  obtain ⟨dt, hdt, hnanos⟩ := fromUnixTimestamp_of_mem hmem
  refine ⟨dt, ?_, hnanos⟩
  rw [decodeDatetime_integer h, hdt]
  rfl

/-- `time` does not read a `REAL`: it is an error naming its text. -/
theorem decodeDatetime_float {text : String} (h : value.typeInfo = .float) (htext : value.text = .ok text) :
    (decodeDatetime parsers value).run = some (.error s!"invalid datetime: {text}") := by
  simp only [decodeDatetime, h, pure_bind, htext]
  rfl

/-- `OffsetDateTime` reads an `INTEGER` with `from_unix_timestamp` and reports
its error. -/
theorem decodeOffsetDatetime_integer (h : value.typeInfo = .integer) :
    decodeOffsetDatetime parsers value = fromUnixTimestamp value.int64 := by
  simp only [decodeOffsetDatetime, h, pure_bind, bind_pure]

end Lemmas

end TimeTypes

/-! ## Integers out of range panic, reals before 1970 are read late -/

/-- SQLite's date-time decoders: `time`'s `PrimitiveDateTime` panics on every
`INTEGER` outside `time`'s range, where `OffsetDateTime` reports an error;
inside the range, and for `chrono`, an `INTEGER` is its instant; `chrono` reads
a `REAL` before 1970 with a fraction of a second a second late, even where
every `f64` step is exact, and `time` does not read a `REAL` at all. -/
theorem sqlite_datetime_decode_panics_and_misreads :
    (∀ (parsers : TimeTypes.TimeParsers) (value : SqliteValueRef), value.typeInfo = .integer →
      ((TimeTypes.decodeDatetime parsers value).run = none ↔
        value.int64 < -377705116800 ∨ 253402300799 < value.int64)) ∧
    (∀ (parsers : TimeTypes.TimeParsers) (value : SqliteValueRef), value.typeInfo = .integer →
      -377705116800 ≤ value.int64 → value.int64 ≤ 253402300799 →
      ∃ dt, (TimeTypes.decodeDatetime parsers value).run = some (.ok dt) ∧ dt.unixNanos = value.int64 * 10 ^ 9) ∧
    (∀ (parsers : TimeTypes.TimeParsers) (value : SqliteValueRef), value.typeInfo = .integer →
      (value.int64 < -377705116800 ∨ 253402300799 < value.int64) →
      TimeTypes.decodeOffsetDatetime parsers value =
        .error "timestamp must be in the range -377705116800..=253402300799") ∧
    (∀ (parsers : ChronoTypes.ChronoParsers) (round : ℚ → F64) (value : SqliteValueRef),
      value.typeInfo = .integer → NAIVE_DATE_MIN ≤ value.int64 / 86400 → value.int64 / 86400 ≤ NAIVE_DATE_MAX →
      ∃ x, ChronoTypes.decodeDatetime parsers round value = .ok x ∧ x.utc.unixNanos = value.int64 * 10 ^ 9) ∧
    (∀ (parsers : ChronoTypes.ChronoParsers) (round : ℚ → F64) (value : SqliteValueRef),
      value.typeInfo = .integer → (ChronoTypes.NaiveDateTime.decode parsers round value).run ≠ none) ∧
    (∀ (parsers : ChronoTypes.ChronoParsers) (round : ℚ → F64), ExactOnDoubles round →
      ∀ value : SqliteValueRef, value.typeInfo = .float → value.double = some 2440587.49609375 →
        ((2440587.49609375 : ℚ) - 2440587.5) * 86400 = -337.5 ∧
        ∃ x, ChronoTypes.decodeDatetime parsers round value = .ok x ∧ x.utc.unixNanos = -336500000000) ∧
    (∀ (parsers : TimeTypes.TimeParsers) (value : SqliteValueRef) (text : String), value.typeInfo = .float →
      value.text = .ok text → (TimeTypes.decodeDatetime parsers value).run = some (.error s!"invalid datetime: {text}")) := by
  refine ⟨fun _ _ h => TimeTypes.decodeDatetime_integer_run_eq_none_iff h,
    fun _ _ h hlo hhi => TimeTypes.decodeDatetime_integer_of_mem h ⟨hlo, hhi⟩,
    fun _ _ h hout => by rw [TimeTypes.decodeOffsetDatetime_integer h, TimeTypes.fromUnixTimestamp_of_not_mem hout],
    fun _ _ _ h hlo hhi => ChronoTypes.decodeDatetime_integer_of_mem h ⟨hlo, hhi⟩,
    fun _ _ _ h => ChronoTypes.NaiveDateTime.decode_integer_run_ne_none h, ?real,
    fun _ _ _ h htext => TimeTypes.decodeDatetime_float h htext⟩
  case real =>
    intro parsers round hround value h hdouble
    obtain ⟨x, hx, hnanos⟩ := ChronoTypes.decodeDatetimeFromFloat_before_epoch hround
    refine ⟨by norm_num, x, ?_, hnanos⟩
    rw [ChronoTypes.decodeDatetime_float h, hdouble, hx]

/-- The `INTEGER` `253402300800`, the first second of the year 10000, panics
in `time`'s `PrimitiveDateTime` decoder. -/
theorem primitive_datetime_of_year_ten_thousand :
    (TimeTypes.decodeDatetime ⟨fun _ => none, fun _ => none, fun _ => none, fun _ => none⟩
      ⟨.integer, .ok "253402300800", 253402300800, some 253402300800, by decide⟩).run = none :=
  (sqlite_datetime_decode_panics_and_misreads.1 _ _ rfl).2 (Or.inr (by decide))

end Sqlx.Sqlite
