import Mathlib.Tactic.Ring

/-!
# Calendar — days of the proleptic Gregorian calendar as integers

A date is its day number, the days after 1970-01-01, and a calendar library
holds the days between two bounds. `daysFromCivil` and `civilFromDays` convert
between day numbers and year, month and day through the 400-year era of 146097
days. A date-time is a day and the nanoseconds into it: counting nanoseconds
from midnight of one day and cutting the count back into whole days and a
remainder gives the day and the time back (`Day.addNanos?_sub`), and a count
of whole microseconds truncates to them exactly (`tdiv_nanosPerDay`).
-/

namespace Calendar

/-- Days from 1970-01-01 to `year-month-day`: the year is counted from March, so
that a leap day ends it, and split into 400-year eras. -/
def daysFromCivil (year : Int) (month day : Nat) : Int :=
  let y := if month ≤ 2 then year - 1 else year
  let era := y / 400
  let yoe := y % 400
  let mp : Int := if month > 2 then month - 3 else month + 9
  let doy := (153 * mp + 2) / 5 + day - 1
  let doe := yoe * 365 + yoe / 4 - yoe / 100 + doy
  era * 146097 + doe - 719468

/-- The year, month and day of a day number. -/
def civilFromDays (z : Int) : Int × Nat × Nat :=
  let z := z + 719468
  let era := z / 146097
  let doe := z % 146097
  let yoe := (doe - doe / 1460 + doe / 36524 - doe / 146096) / 365
  let doy := doe - (365 * yoe + yoe / 4 - yoe / 100)
  let mp := (5 * doy + 2) / 153
  let day := doy - (153 * mp + 2) / 5 + 1
  let month := if mp < 10 then mp + 3 else mp - 9
  let y := yoe + era * 400
  (if month ≤ 2 then y + 1 else y, month.toNat, day.toNat)

example : daysFromCivil 2000 1 1 = 10957 ∧ civilFromDays 10957 = (2000, 1, 1) := by decide

example : civilFromDays (daysFromCivil (-4) 2 29) = (-4, 2, 29) := by decide

/-! ## Nanoseconds of a day -/

def NANOS_PER_DAY : Int := 86400 * 10 ^ 9

theorem toNat_emod_nanosPerDay_lt (n : Int) : (n % NANOS_PER_DAY).toNat < 86400 * 10 ^ 9 := by
  unfold NANOS_PER_DAY
  omega

section Split

variable {k t : Int}

theorem ediv_nanosPerDay (h0 : 0 ≤ t) (h1 : t < NANOS_PER_DAY) : (k * NANOS_PER_DAY + t) / NANOS_PER_DAY = k := by
  unfold NANOS_PER_DAY at *
  omega

theorem emod_nanosPerDay (h0 : 0 ≤ t) (h1 : t < NANOS_PER_DAY) : (k * NANOS_PER_DAY + t) % NANOS_PER_DAY = t := by
  unfold NANOS_PER_DAY at *
  omega

/-- A nanosecond count of whole microseconds truncates to its microseconds, on
either side of the epoch. -/
theorem tdiv_nanosPerDay (ht : t % 1000 = 0) : (k * NANOS_PER_DAY + t).tdiv 1000 = k * (86400 * 10 ^ 6) + t / 1000 := by
  have hsplit : k * NANOS_PER_DAY + t = 1000 * (k * (86400 * 10 ^ 6) + t / 1000) := by
    unfold NANOS_PER_DAY
    omega
  rw [hsplit, Int.mul_tdiv_cancel_left _ (by decide)]

end Split

/-- A day of a calendar that holds the days `lo ..= hi`. -/
@[ext] structure Day (lo hi : Int) where
  days : Int
  inRange : lo ≤ days ∧ days ≤ hi
  deriving DecidableEq

namespace Day

variable {lo hi : Int}

/-- The day numbered `n`, if the calendar holds it. -/
def ofDays? (n : Int) : Option (Day lo hi) :=
  if h : lo ≤ n ∧ n ≤ hi then some ⟨n, h⟩ else none

/-- Year, month and day. -/
def civil (d : Day lo hi) : Int × Nat × Nat := civilFromDays d.days

theorem ofDays?_days (d : Day lo hi) : ofDays? d.days = some d := dif_pos d.inRange

theorem ofDays?_eq_none_iff {n : Int} : (ofDays? n : Option (Day lo hi)) = none ↔ n < lo ∨ hi < n := by
  unfold ofDays?
  split <;> simp <;> omega

theorem ofDays?_of_mem {n : Int} (h : lo ≤ n ∧ n ≤ hi) : (ofDays? n : Option (Day lo hi)) = some ⟨n, h⟩ :=
  dif_pos h

theorem days_of_ofDays? {n : Int} {d : Day lo hi} (h : ofDays? n = some d) : d.days = n := by
  unfold ofDays? at h
  split at h
  · cases h
    rfl
  · cases h

/-- The day `nanos` nanoseconds after midnight of `d`, the count rounded down
to whole days, if the calendar holds it. -/
def addNanos? (d : Day lo hi) (nanos : Int) : Option (Day lo hi) := ofDays? (d.days + nanos / NANOS_PER_DAY)

theorem addNanos?_eq_none_iff {d : Day lo hi} {nanos : Int} :
    d.addNanos? nanos = none ↔ d.days + nanos / NANOS_PER_DAY < lo ∨ hi < d.days + nanos / NANOS_PER_DAY :=
  ofDays?_eq_none_iff

/-- Counting from midnight of `a` to a time `t` into the day `b` lands on `b`. -/
theorem addNanos?_sub (a b : Day lo hi) {t : Int} (h0 : 0 ≤ t) (h1 : t < NANOS_PER_DAY) :
    a.addNanos? ((b.days - a.days) * NANOS_PER_DAY + t) = some b := by
  rw [addNanos?, ediv_nanosPerDay h0 h1, add_sub_cancel, ofDays?_days]

end Day

end Calendar
