import Sqlx.Lib.Calendar
import Sqlx.MySql.Chrono

/-!
# The `chrono` and `time` date-times the drivers encode

`chrono::NaiveDate` and `time::Date` are days of the proleptic Gregorian
calendar, here by day number (`Calendar.Day`) at each library's bounds:
`chrono` holds the years `MIN_YEAR ..= MAX_YEAR`, `time` without its
`large-dates` feature the years `-9999 ..= 9999`. A time of day is `chrono`'s
`NaiveTime` of the MySQL model, leap second included; a `time::Time` never is
one. A `DateTime` keeps its UTC date-time and the offset its zone gives it; an
`OffsetDateTime` its local date-time and its offset.

Adding a duration to midnight of a day (`midnightAdd`) is the `+` of either
library: the day moves by the duration's whole days, rounded down, the time is
what is left, and the operator panics (`none`) when the day is outside the
library. The result is the instant the duration names (`unixNanos_midnightAdd`),
and a date-time that is not a leap second is reached from any midnight of the
library by the nanoseconds between them (`midnightAdd_sub`).
-/

namespace Sqlx.MySql.NaiveTime

open Calendar

/-- Nanoseconds since midnight; a leap second runs past the day's `86399`
seconds. -/
def nanosOfDay (t : NaiveTime) : Nat := (t.hour * 3600 + t.minute * 60 + t.second) * 10 ^ 9 + t.nanosecond

/-- The time `n` nanoseconds after a midnight, whole days dropped: never a leap
second. -/
def ofNanos (n : Int) : NaiveTime :=
  let t := (n % NANOS_PER_DAY).toNat
  have ht : t < 86400 * 10 ^ 9 := toNat_emod_nanosPerDay_lt n
  ⟨t / 3600000000000, t / 60000000000 % 60, t / 1000000000 % 60, t % 1000000000, by unfold IsTime; omega⟩

/-- `Debug for NaiveTime`: a leap second shows as second 60, and the fraction
as milli-, micro- or nanoseconds, whichever is exact. -/
def debug (t : NaiveTime) : String :=
  let (sec, nano) := if 10 ^ 9 ≤ t.nanosecond then (t.second + 1, t.nanosecond - 10 ^ 9) else (t.second, t.nanosecond)
  let frac :=
    if nano = 0 then ""
    else if nano % 1000000 = 0 then "." ++ zeroPad 3 (nano / 1000000)
    else if nano % 1000 = 0 then "." ++ zeroPad 6 (nano / 1000)
    else "." ++ zeroPad 9 nano
  zeroPad 2 t.hour ++ ":" ++ zeroPad 2 t.minute ++ ":" ++ zeroPad 2 sec ++ frac

theorem ofNanos_nanosecond_lt (n : Int) : (ofNanos n).nanosecond < 10 ^ 9 := by
  simp only [ofNanos]
  omega

theorem nanosOfDay_lt {t : NaiveTime} (h : t.nanosecond < 10 ^ 9) : (t.nanosOfDay : Int) < NANOS_PER_DAY := by
  have := t.isTime
  unfold IsTime at this
  unfold nanosOfDay NANOS_PER_DAY
  omega

theorem nanosOfDay_lt_leap (t : NaiveTime) : t.nanosOfDay < 86401 * 10 ^ 9 := by
  have := t.isTime
  unfold IsTime at this
  unfold nanosOfDay
  omega

/-- The time of a count is what is left of it after whole days. -/
theorem nanosOfDay_ofNanos (n : Int) : ((ofNanos n).nanosOfDay : Int) = n % NANOS_PER_DAY := by
  have ht := toNat_emod_nanosPerDay_lt n
  have hnonneg : 0 ≤ n % NANOS_PER_DAY := Int.emod_nonneg _ (by decide)
  simp only [nanosOfDay, ofNanos]
  omega

/-- Whole days are whole seconds: the nanosecond of a count is its own. -/
theorem nanosecond_ofNanos (n : Int) : ((ofNanos n).nanosecond : Int) = n % 10 ^ 9 := by
  have ht := toNat_emod_nanosPerDay_lt n
  have hnonneg : 0 ≤ n % NANOS_PER_DAY := Int.emod_nonneg _ (by decide)
  simp only [ofNanos]
  unfold NANOS_PER_DAY at *
  omega

theorem ofNanos_periodic (k n : Int) : ofNanos (k * NANOS_PER_DAY + n) = ofNanos n := by
  have hmod : (k * NANOS_PER_DAY + n) % NANOS_PER_DAY = n % NANOS_PER_DAY := by
    unfold NANOS_PER_DAY
    omega
  simp only [ofNanos, hmod]

/-- A time that is not a leap second is the time of its own count. -/
theorem ofNanos_nanosOfDay {t : NaiveTime} (h : t.nanosecond < 10 ^ 9) : ofNanos t.nanosOfDay = t := by
  have hlt := nanosOfDay_lt h
  have hmod : ((t.nanosOfDay : Int) % NANOS_PER_DAY).toNat = t.nanosOfDay := by
    rw [Int.emod_eq_of_lt (by omega) hlt, Int.toNat_natCast]
  obtain ⟨hour, minute, second, nanosecond, hiso⟩ := t
  unfold IsTime at hiso
  simp only [ofNanos]
  -- one goal per field; the field `isTime` is a proof
  congr 1
  all_goals
    rw [hmod]
    simp only [nanosOfDay] at h ⊢
    omega

end Sqlx.MySql.NaiveTime

namespace Sqlx.Chrono

open Calendar
open Sqlx.MySql (NaiveTime MIN_YEAR MAX_YEAR ymdDebug)

/-- `Debug` of a date, for `chrono` and `time` alike, by its day number. -/
def dateDebug (days : Int) : String :=
  let (year, month, day) := civilFromDays days
  ymdDebug year month day

example : dateDebug 10957 = "2000-01-01" ∧ dateDebug (daysFromCivil (-1) 12 31) = "-0001-12-31" := by decide

/-- The first and last days of `chrono::NaiveDate`. -/
def NAIVE_DATE_MIN : Int := daysFromCivil MIN_YEAR 1 1

def NAIVE_DATE_MAX : Int := daysFromCivil MAX_YEAR 12 31

theorem naiveDate_bounds : NAIVE_DATE_MIN = -96465292 ∧ NAIVE_DATE_MAX = 95026236 := by decide

/-- `chrono::NaiveDate`. -/
abbrev NaiveDate := Day NAIVE_DATE_MIN NAIVE_DATE_MAX

theorem NaiveDate.days_mem (d : NaiveDate) : -96465292 ≤ d.days ∧ d.days ≤ 95026236 := by
  have h := d.inRange
  have hb := naiveDate_bounds
  omega

/-- `chrono::NaiveDateTime`. -/
structure NaiveDateTime where
  date : NaiveDate
  time : NaiveTime

namespace NaiveDateTime

/-- Nanoseconds after 1970-01-01 00:00; a leap second counts as the next
second. -/
def unixNanos (dt : NaiveDateTime) : Int := dt.date.days * NANOS_PER_DAY + dt.time.nanosOfDay

/-- `midnight + duration`, the duration in nanoseconds. -/
def midnightAdd (date : NaiveDate) (nanos : Int) : Option NaiveDateTime :=
  (date.addNanos? nanos).map (⟨·, NaiveTime.ofNanos nanos⟩)

/-- `Debug for NaiveDateTime`. -/
def debug (dt : NaiveDateTime) : String := dateDebug dt.date.days ++ "T" ++ dt.time.debug

theorem midnightAdd_eq_none_iff {date : NaiveDate} {nanos : Int} :
    midnightAdd date nanos = none ↔
      date.days + nanos / NANOS_PER_DAY < NAIVE_DATE_MIN ∨ NAIVE_DATE_MAX < date.days + nanos / NANOS_PER_DAY := by
  rw [midnightAdd, Option.map_eq_none_iff, Day.addNanos?_eq_none_iff]

/-- The sum is the instant `nanos` after the midnight. -/
theorem unixNanos_midnightAdd {date : NaiveDate} {nanos : Int} {dt : NaiveDateTime}
    (h : midnightAdd date nanos = some dt) : dt.unixNanos = date.days * NANOS_PER_DAY + nanos := by
  obtain ⟨d, hd, rfl⟩ := Option.map_eq_some_iff.1 h
  have hdays := Day.days_of_ofDays? hd
  rw [unixNanos, hdays, NaiveTime.nanosOfDay_ofNanos]
  have := Int.mul_ediv_add_emod nanos NANOS_PER_DAY
  linarith

theorem midnightAdd_sub (date : NaiveDate) {dt : NaiveDateTime} (h : dt.time.nanosecond < 10 ^ 9) :
    midnightAdd date ((dt.date.days - date.days) * NANOS_PER_DAY + dt.time.nanosOfDay) = some dt := by
  have h0 : (0 : Int) ≤ dt.time.nanosOfDay := Int.natCast_nonneg _
  have h1 := NaiveTime.nanosOfDay_lt h
  rw [midnightAdd, Day.addNanos?_sub date dt.date h0 h1, Option.map_some, NaiveTime.ofNanos_periodic,
    NaiveTime.ofNanos_nanosOfDay h]

end NaiveDateTime

/-- `chrono::FixedOffset`: seconds east of UTC, under a day either way. -/
structure FixedOffset where
  localMinusUtc : Int
  isOffset : -86400 < localMinusUtc ∧ localMinusUtc < 86400

/-- `Utc.fix()`. -/
def FixedOffset.utc : FixedOffset := ⟨0, by decide⟩

/-- `chrono::DateTime<Tz>`: the UTC date-time and the offset the zone gives it
(`Offset` is `Tz::Offset`). -/
structure DateTime (Offset : Type) where
  utc : NaiveDateTime
  offset : Offset

/-- `TimeZone::from_utc_datetime` of a zone that gives a UTC date-time the
offset `offsetFromUtc`: `Utc`, `FixedOffset` or the system's `Local`. -/
def DateTime.fromUtcDatetime {Offset : Type} (offsetFromUtc : NaiveDateTime → Offset) (utc : NaiveDateTime) :
    DateTime Offset :=
  ⟨utc, offsetFromUtc utc⟩

end Sqlx.Chrono

namespace Sqlx.Time

set_option linter.dupNamespace false

open Calendar
open Sqlx.MySql (NaiveTime)
open Sqlx.Chrono (dateDebug)

/-- The first and last days of `time::Date`, years `-9999 ..= 9999`. -/
def DATE_MIN : Int := daysFromCivil (-9999) 1 1

def DATE_MAX : Int := daysFromCivil 9999 12 31

theorem date_bounds : DATE_MIN = -4371587 ∧ DATE_MAX = 2932896 := by decide

/-- `time::Date`. -/
abbrev Date := Day DATE_MIN DATE_MAX

theorem Date.days_mem (d : Date) : -4371587 ≤ d.days ∧ d.days ≤ 2932896 := by
  have h := d.inRange
  have hb := date_bounds
  omega

/-- `time::Time`: hour, minute, second and nanosecond, never a leap second. -/
@[ext] structure Time where
  toNaiveTime : NaiveTime
  notLeap : toNaiveTime.nanosecond < 10 ^ 9

def Time.ofNanos (n : Int) : Time := ⟨NaiveTime.ofNanos n, NaiveTime.ofNanos_nanosecond_lt n⟩

/-- The nine digits of the nanoseconds with trailing zeros dropped, one kept. -/
def subsecondDigits (nanos : Nat) : String :=
  let trimmed := ((NaiveTime.zeroPad 9 nanos).toList.reverse.dropWhile (· = '0')).reverse
  if trimmed = [] then "0" else String.ofList trimmed

/-- `Debug for Time`, its `Display`: the hour unpadded, the fraction always. -/
def Time.debug (t : Time) : String :=
  toString t.toNaiveTime.hour ++ ":" ++ NaiveTime.zeroPad 2 t.toNaiveTime.minute ++ ":" ++
    NaiveTime.zeroPad 2 t.toNaiveTime.second ++ "." ++ subsecondDigits t.toNaiveTime.nanosecond

/-- `time::PrimitiveDateTime`. -/
structure PrimitiveDateTime where
  date : Date
  time : Time

namespace PrimitiveDateTime

def unixNanos (dt : PrimitiveDateTime) : Int := dt.date.days * NANOS_PER_DAY + dt.time.toNaiveTime.nanosOfDay

/-- `midnight + duration`, the duration in nanoseconds. -/
def midnightAdd (date : Date) (nanos : Int) : Option PrimitiveDateTime :=
  (date.addNanos? nanos).map (⟨·, Time.ofNanos nanos⟩)

/-- `Debug for PrimitiveDateTime`, its `Display`. -/
def debug (dt : PrimitiveDateTime) : String := dateDebug dt.date.days ++ " " ++ dt.time.debug

theorem midnightAdd_eq_none_iff {date : Date} {nanos : Int} :
    midnightAdd date nanos = none ↔
      date.days + nanos / NANOS_PER_DAY < DATE_MIN ∨ DATE_MAX < date.days + nanos / NANOS_PER_DAY := by
  rw [midnightAdd, Option.map_eq_none_iff, Day.addNanos?_eq_none_iff]

theorem unixNanos_midnightAdd {date : Date} {nanos : Int} {dt : PrimitiveDateTime}
    (h : midnightAdd date nanos = some dt) : dt.unixNanos = date.days * NANOS_PER_DAY + nanos := by
  obtain ⟨d, hd, rfl⟩ := Option.map_eq_some_iff.1 h
  have hdays := Day.days_of_ofDays? hd
  rw [unixNanos, hdays]
  change _ + ((NaiveTime.ofNanos nanos).nanosOfDay : Int) = _
  rw [NaiveTime.nanosOfDay_ofNanos]
  have := Int.mul_ediv_add_emod nanos NANOS_PER_DAY
  linarith

theorem midnightAdd_sub (date : Date) (dt : PrimitiveDateTime) :
    midnightAdd date ((dt.date.days - date.days) * NANOS_PER_DAY + dt.time.toNaiveTime.nanosOfDay) = some dt := by
  have h0 : (0 : Int) ≤ dt.time.toNaiveTime.nanosOfDay := Int.natCast_nonneg _
  have h1 := NaiveTime.nanosOfDay_lt dt.time.notLeap
  rw [midnightAdd, Day.addNanos?_sub date dt.date h0 h1, Option.map_some]
  congr
  ext1
  show NaiveTime.ofNanos _ = _
  rw [NaiveTime.ofNanos_periodic, NaiveTime.ofNanos_nanosOfDay dt.time.notLeap]

end PrimitiveDateTime

/-- `time::OffsetDateTime`: the local date-time and its offset in seconds,
`±25:59:59` at most. -/
structure OffsetDateTime where
  localDateTime : PrimitiveDateTime
  offset : Int
  isOffset : -93599 ≤ offset ∧ offset ≤ 93599

namespace OffsetDateTime

/-- The instant, nanoseconds after 1970-01-01 00:00 UTC. -/
def unixNanos (x : OffsetDateTime) : Int := x.localDateTime.unixNanos - x.offset * 10 ^ 9

/-- `to_offset(offset!(UTC))`, as the UTC date-time: it panics when that is
outside `time`'s dates. -/
def toOffsetUtc (x : OffsetDateTime) : Option PrimitiveDateTime :=
  PrimitiveDateTime.midnightAdd x.localDateTime.date (x.localDateTime.time.toNaiveTime.nanosOfDay - x.offset * 10 ^ 9)

theorem unixNanos_toOffsetUtc {x : OffsetDateTime} {utc : PrimitiveDateTime} (h : x.toOffsetUtc = some utc) :
    utc.unixNanos = x.unixNanos := by
  rw [PrimitiveDateTime.unixNanos_midnightAdd h, unixNanos, PrimitiveDateTime.unixNanos]
  ring

/-- The offset is whole seconds: the UTC date-time keeps the nanosecond. -/
theorem nanosecond_toOffsetUtc {x : OffsetDateTime} {utc : PrimitiveDateTime} (h : x.toOffsetUtc = some utc) :
    utc.time.toNaiveTime.nanosecond = x.localDateTime.time.toNaiveTime.nanosecond := by
  obtain ⟨d, -, rfl⟩ := Option.map_eq_some_iff.1 h
  have hnano := NaiveTime.nanosecond_ofNanos
    (x.localDateTime.time.toNaiveTime.nanosOfDay - x.offset * 10 ^ 9)
  have hmod : ((x.localDateTime.time.toNaiveTime.nanosOfDay : Int) - x.offset * 10 ^ 9) % 10 ^ 9 =
      x.localDateTime.time.toNaiveTime.nanosecond := by
    have hlt := x.localDateTime.time.notLeap
    unfold NaiveTime.nanosOfDay
    push_cast
    omega
  show (NaiveTime.ofNanos _).nanosecond = _
  omega

end OffsetDateTime

/-- `PrimitiveDateTime::assume_utc`. -/
def PrimitiveDateTime.assumeUtc (dt : PrimitiveDateTime) : OffsetDateTime := ⟨dt, 0, by decide⟩

end Sqlx.Time
