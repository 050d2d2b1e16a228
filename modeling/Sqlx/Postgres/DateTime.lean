import Sqlx.Core.DateTime
import Sqlx.Postgres.ValueDecode
import Sqlx.Postgres.ArgumentFrames
import Sqlx.Postgres.Money

/-!
# Postgres — binary `DATE` and `TIMESTAMP` (`types/chrono`, `types/time`, `types/int.rs`)

A `DATE` is an `i32` count of days and a `TIMESTAMP` or `TIMESTAMPTZ` an `i64`
count of microseconds from 2000-01-01 00:00, read by `int_decode` from one to
eight big-endian bytes. The encoders subtract the epoch and narrow with
`try_into` or `num_microseconds`; the decoders add the count back to the epoch
with the `+` of `chrono` or `time`, which panics when the date leaves the
library.

Every value encodes, as each library's dates fit the counts (`NaiveDate.encode_eq`
and its kin). Decoding what was encoded gives the value back when its time is
a whole number of microseconds and not a leap second; a leap second comes back
as the first instant after it (`NaiveDateTime.decode_encode_of_leap`). A count
whose date lies outside the library panics, and only such a count
(`NaiveDate.decode_run_eq_none_iff` and its kin): among them `i32::MAX` and
`i32::MIN` days and `i64::MAX` and `i64::MIN` microseconds, which Postgres
sends for `infinity` and `-infinity`.
-/

namespace Sqlx.Postgres

open Wire Calendar Sqlx.Chrono Sqlx.Time
open Sqlx.MySql (NaiveTime)

/-! ## Integers (`types/int.rs`) -/

/-- An integer an `i32` holds. -/
def IsI32 (x : Int) : Prop := -2 ^ 31 ≤ x ∧ x < 2 ^ 31

instance (x : Int) : Decidable (IsI32 x) := inferInstanceAs (Decidable (_ ∧ _))

/-- `i64::to_be_bytes`. -/
def i64ToBeBytes (x : Int) : List UInt8 := beBytes 8 (twos 64 x)

/-- `int_decode`, binary: one to eight big-endian bytes, sign-extended by
`BigEndian::read_int`. -/
def intDecode (buf : List UInt8) : DecodeM Int := do
  check (buf.length ≠ 0) "Value Buffer found empty while decoding to integer type"
  check (buf.length < 9)
    s!"Value Buffer exceeds 8 bytes while decoding to integer type. Buffer size = {buf.length} bytes "
  pure (ofTwos (8 * buf.length) (beValue buf))

/-- `Decode for i32`: `int_decode`, narrowed by `try_into`. -/
def decodeI32 (buf : List UInt8) : DecodeM Int := do
  let n ← intDecode buf
  check (IsI32 n) "out of range integral type conversion attempted"
  pure n

/-- `Decode for i64`. -/
def decodeI64 (buf : List UInt8) : DecodeM Int := intDecode buf

section Integers

variable {buf : List UInt8}

theorem intDecode_of_length (h0 : buf.length ≠ 0) (h9 : buf.length < 9) :
    intDecode buf = pure (ofTwos (8 * buf.length) (beValue buf)) := by
  simp only [intDecode, check_of_pos _ h0, check_of_pos _ h9, pure_bind]

/-- Four bytes read as an `i32`. -/
theorem isI32_ofTwos (h : buf.length = 4) : IsI32 (ofTwos 32 (beValue buf)) := by
  have hlt : beValue buf < 2 ^ 32 := by
    have hbound := beValue_lt buf
    rw [h] at hbound
    exact lt_of_lt_of_eq hbound (by norm_num)
  have hmem := ofTwos_mem (by decide) hlt
  unfold IsI32
  norm_num at hmem ⊢
  omega

theorem decodeI32_of_length (h : buf.length = 4) : decodeI32 buf = pure (ofTwos 32 (beValue buf)) := by
  have hi32 := isI32_ofTwos h
  have hdec : intDecode buf = pure (ofTwos 32 (beValue buf)) := by
    rw [intDecode_of_length (by omega) (by omega), h]
  simp only [decodeI32, hdec, pure_bind, check_of_pos _ hi32]

theorem decodeI64_of_length (h : buf.length = 8) : decodeI64 buf = pure (ofTwos 64 (beValue buf)) := by
  rw [decodeI64, intDecode_of_length (by omega) (by omega), h]

theorem decodeI32_i32ToBeBytes {x : Int} (hx : IsI32 x) : decodeI32 (i32ToBeBytes x) = pure x := by
  rw [decodeI32_of_length (length_i32ToBeBytes x), i32ToBeBytes, beValue_beBytes_of_lt (twos_lt 32 x)]
  unfold IsI32 at hx
  rw [ofTwos_twos (by decide) (by norm_num; omega) (by norm_num; omega)]

theorem decodeI64_i64ToBeBytes {x : Int} (hx : IsI64 x) : decodeI64 (i64ToBeBytes x) = pure x := by
  rw [decodeI64_of_length (by simp [i64ToBeBytes]), i64ToBeBytes, beValue_beBytes_of_lt (twos_lt 64 x)]
  unfold IsI64 at hx
  rw [ofTwos_twos (by decide) (by norm_num; omega) (by norm_num; omega)]

end Integers

/-! ## `chrono::TimeDelta` -/

/-- `TimeDelta::MAX` in whole seconds, `i64::MAX` milliseconds. -/
def TIME_DELTA_MAX_SECS : Int := 9223372036854775

/-- `TimeDelta::try_days`, in seconds: `days * 86400`, checked in `i64` and
against the bounds of a `TimeDelta`. -/
def tryDays (days : Int) : Option Int :=
  if IsI64 (days * 86400) ∧ -TIME_DELTA_MAX_SECS ≤ days * 86400 ∧ days * 86400 ≤ TIME_DELTA_MAX_SECS then
    some (days * 86400)
  else none

/-- `NaiveDate + TimeDelta`: the delta's whole days, rounded toward zero; the
operator panics (`none`) past `chrono`'s dates. -/
def naiveDateAddSigned (date : NaiveDate) (secs : Int) : Option NaiveDate := Day.ofDays? (date.days + secs.tdiv 86400)

/-- `TimeDelta::num_microseconds` of a delta of `nanos` nanoseconds: the whole
seconds (rounded toward zero) times a million, checked in `i64`, plus the
microseconds of the rest, checked again. -/
def numMicroseconds (nanos : Int) : Option Int :=
  let secsPart := nanos.tdiv 1000000000 * 1000000
  let micros := secsPart + (nanos.tmod 1000000000).tdiv 1000
  if IsI64 secsPart ∧ IsI64 micros then some micros else none

theorem tryDays_of_isI32 {days : Int} (h : IsI32 days) : tryDays days = some (days * 86400) := by
  unfold IsI32 at h
  rw [tryDays, if_pos (by unfold IsI64 TIME_DELTA_MAX_SECS; omega)]

/-- A delta under `9 * 10^21` nanoseconds has its microseconds, truncated. -/
theorem numMicroseconds_of_natAbs_lt {nanos : Int} (h : nanos.natAbs < 9 * 10 ^ 21) :
    numMicroseconds nanos = some (nanos.tdiv 1000) := by
  have h9 : (0 : Int) ≤ 1000000000 := by decide
  unfold numMicroseconds
  rcases Int.le_total 0 nanos with hn | hn
  · -- on the right of zero truncation is the floor
    rw [Int.tdiv_eq_ediv_of_nonneg hn, Int.tmod_eq_emod_of_nonneg hn, Int.tdiv_eq_ediv_of_nonneg hn,
      Int.tdiv_eq_ediv_of_nonneg (Int.emod_nonneg _ (by decide)), if_pos (by unfold IsI64; omega)]
    congr 1
    omega
  · -- on the left every part is the negation of the same parts of `-nanos`
    obtain ⟨m, rfl⟩ : ∃ m, nanos = -m := ⟨-nanos, by ring⟩
    have hm : 0 ≤ m := by omega
    rw [Int.neg_tdiv, Int.neg_tmod, Int.neg_tdiv, Int.neg_tdiv, Int.tdiv_eq_ediv_of_nonneg hm,
      Int.tmod_eq_emod_of_nonneg hm, Int.tdiv_eq_ediv_of_nonneg hm,
      Int.tdiv_eq_ediv_of_nonneg (Int.emod_nonneg _ (by decide)), if_pos (by unfold IsI64; omega)]
    congr 1
    omega

/-! ## `chrono` (`types/chrono/date.rs`, `types/chrono/datetime.rs`) -/

/-- `postgres_epoch_date()`, 2000-01-01; `postgres_epoch_datetime()` is its
midnight. -/
def postgresEpochDate : NaiveDate := ⟨daysFromCivil 2000 1 1, by decide⟩

theorem postgresEpochDate_days : postgresEpochDate.days = 10957 := by decide

/-- `Encode for NaiveDate`: the days after the epoch, `try_into` an `i32`. -/
def NaiveDate.encode (date : NaiveDate) : Encoder :=
  let days := date.days - postgresEpochDate.days
  if IsI32 days then .extend (i32ToBeBytes days) (.done .no)
  else
    let shown := dateDebug date.days
    .fail s!"value {shown} would overflow binary encoding for Postgres DATE"

/-- `Decode for NaiveDate`, binary. -/
def NaiveDate.decode (buf : List UInt8) : DecodeM NaiveDate := do
  let days ← decodeI32 buf
  -- the `unreachable!` of a day count whose seconds overflow
  let delta ← panicking (tryDays days)
  panicking (naiveDateAddSigned postgresEpochDate delta)

/-- `Encode for NaiveDateTime`: the microseconds after the epoch by
`num_microseconds`. -/
def NaiveDateTime.encode (dt : NaiveDateTime) : Encoder :=
  match numMicroseconds (dt.unixNanos - postgresEpochDate.days * NANOS_PER_DAY) with
  | some micros => .extend (i64ToBeBytes micros) (.done .no)
  | none =>
    let shown := dt.debug
    .fail s!"NaiveDateTime out of range for Postgres: {shown}"

/-- `Decode for NaiveDateTime`, binary: `postgres_epoch_datetime() +
Duration::microseconds(us)`. -/
def NaiveDateTime.decode (buf : List UInt8) : DecodeM NaiveDateTime := do
  let us ← decodeI64 buf
  panicking (NaiveDateTime.midnightAdd postgresEpochDate (us * 1000))

/-- `Encode for DateTime<Tz>`: its UTC date-time. -/
def DateTime.encode {Offset : Type} (x : DateTime Offset) : Encoder := NaiveDateTime.encode x.utc

/-- `Decode for DateTime<FixedOffset>`, binary: the date-time at offset zero. -/
def DateTime.decodeFixedOffset (buf : List UInt8) : DecodeM (DateTime FixedOffset) := do
  let naive ← NaiveDateTime.decode buf
  pure (DateTime.fromUtcDatetime (fun _ => FixedOffset.utc) naive)

/-- `Decode for DateTime<Utc>` and `DateTime<Local>`: through
`DateTime<FixedOffset>`, then `from_utc_datetime` of the zone. -/
def DateTime.decode {Offset : Type} (offsetFromUtc : NaiveDateTime → Offset) (buf : List UInt8) :
    DecodeM (DateTime Offset) := do
  let fixed ← DateTime.decodeFixedOffset buf
  pure (DateTime.fromUtcDatetime offsetFromUtc fixed.utc)

/-! ## `time` (`types/time/date.rs`, `types/time/datetime.rs`) -/

/-- `PG_EPOCH`, 2000-01-01. -/
def PG_EPOCH : Date := ⟨daysFromCivil 2000 1 1, by decide⟩

theorem pgEpoch_days : PG_EPOCH.days = 10957 := by decide

/-- `Encode for Date`: `whole_days` after the epoch, `try_into` an `i32`. -/
def Date.encode (date : Date) : Encoder :=
  let days := date.days - PG_EPOCH.days
  if IsI32 days then .extend (i32ToBeBytes days) (.done .no)
  else
    let shown := dateDebug date.days
    .fail s!"value {shown} would overflow binary encoding for Postgres DATE"

/-- `Decode for Date`, binary: `PG_EPOCH + Duration::days(days)`, which panics
past `time`'s dates. -/
def Date.decode (buf : List UInt8) : DecodeM Date := do
  let days ← decodeI32 buf
  panicking (Day.ofDays? (PG_EPOCH.days + days))

/-- `Encode for PrimitiveDateTime`: `whole_microseconds` after the epoch,
`try_into` an `i64`. -/
def PrimitiveDateTime.encode (dt : PrimitiveDateTime) : Encoder :=
  let micros := (dt.unixNanos - PG_EPOCH.days * NANOS_PER_DAY).tdiv 1000
  if IsI64 micros then .extend (i64ToBeBytes micros) (.done .no)
  else
    let shown := dt.debug
    .fail s!"value {shown} would overflow binary encoding for Postgres TIME"

/-- `Decode for PrimitiveDateTime`, binary: `PG_EPOCH.midnight() +
Duration::microseconds(us)`. -/
def PrimitiveDateTime.decode (buf : List UInt8) : DecodeM PrimitiveDateTime := do
  let us ← decodeI64 buf
  panicking (PrimitiveDateTime.midnightAdd PG_EPOCH (us * 1000))

/-- `Encode for OffsetDateTime`: the date-time at UTC, by `to_offset`, which
panics (`none`) outside `time`'s dates. -/
def OffsetDateTime.encode (x : OffsetDateTime) : Option Encoder := x.toOffsetUtc.map PrimitiveDateTime.encode

/-- `Decode for OffsetDateTime`: `assume_utc`. -/
def OffsetDateTime.decode (buf : List UInt8) : DecodeM OffsetDateTime := do
  let dt ← PrimitiveDateTime.decode buf
  pure dt.assumeUtc

/-! ## What the decoders return -/

section Chrono

variable {buf : List UInt8}

/-- The microseconds `NaiveDateTime::encode` writes are those of
`*self - postgres_epoch_datetime()`, in nanoseconds here. -/
def NaiveDateTime.sincePostgresEpoch (dt : NaiveDateTime) : Int := dt.unixNanos - postgresEpochDate.days * NANOS_PER_DAY

theorem NaiveDateTime.sincePostgresEpoch_eq (dt : NaiveDateTime) :
    NaiveDateTime.sincePostgresEpoch dt = (dt.date.days - postgresEpochDate.days) * NANOS_PER_DAY + dt.time.nanosOfDay := by
  rw [sincePostgresEpoch, NaiveDateTime.unixNanos]
  ring

theorem NaiveDate.decode_of_decodeI32 {n : Int} (hn : IsI32 n) (h : decodeI32 buf = pure n) :
    NaiveDate.decode buf = panicking (Day.ofDays? (postgresEpochDate.days + n)) := by
  rw [NaiveDate.decode, h, pure_bind, tryDays_of_isI32 hn, panicking_some, pure_bind, naiveDateAddSigned,
    Int.mul_tdiv_cancel _ (by decide)]

/-- A `DATE` panics exactly when its day is outside `chrono`'s. -/
theorem NaiveDate.decode_run_eq_none_iff (h : buf.length = 4) :
    (NaiveDate.decode buf).run = none ↔
      postgresEpochDate.days + ofTwos 32 (beValue buf) < NAIVE_DATE_MIN ∨
        NAIVE_DATE_MAX < postgresEpochDate.days + ofTwos 32 (beValue buf) := by
  rw [NaiveDate.decode_of_decodeI32 (isI32_ofTwos h) (decodeI32_of_length h), run_panicking, Option.map_eq_none_iff,
    Day.ofDays?_eq_none_iff]

theorem NaiveDate.isI32_sub_epoch (date : NaiveDate) : IsI32 (date.days - postgresEpochDate.days) := by
  have hd := NaiveDate.days_mem date
  unfold IsI32
  rw [postgresEpochDate_days]
  omega

/-- Every date encodes: `chrono`'s days fit an `i32`. -/
theorem NaiveDate.encode_eq (date : NaiveDate) :
    NaiveDate.encode date = .extend (i32ToBeBytes (date.days - postgresEpochDate.days)) (.done .no) :=
  if_pos (NaiveDate.isI32_sub_epoch date)

theorem NaiveDate.decode_encode (date : NaiveDate) :
    NaiveDate.decode (i32ToBeBytes (date.days - postgresEpochDate.days)) = pure date := by
  have hn := NaiveDate.isI32_sub_epoch date
  rw [NaiveDate.decode_of_decodeI32 hn (decodeI32_i32ToBeBytes hn), add_sub_cancel, Day.ofDays?_days,
    panicking_some]

theorem NaiveDateTime.decode_of_decodeI64 {us : Int} (h : decodeI64 buf = pure us) :
    NaiveDateTime.decode buf = panicking (NaiveDateTime.midnightAdd postgresEpochDate (us * 1000)) := by
  rw [NaiveDateTime.decode, h, pure_bind]

/-- A `TIMESTAMP` panics exactly when the day of its microseconds is outside
`chrono`'s. -/
theorem NaiveDateTime.decode_run_eq_none_iff (h : buf.length = 8) :
    (NaiveDateTime.decode buf).run = none ↔
      postgresEpochDate.days + ofTwos 64 (beValue buf) * 1000 / NANOS_PER_DAY < NAIVE_DATE_MIN ∨
        NAIVE_DATE_MAX < postgresEpochDate.days + ofTwos 64 (beValue buf) * 1000 / NANOS_PER_DAY := by
  rw [NaiveDateTime.decode_of_decodeI64 (decodeI64_of_length h), run_panicking, Option.map_eq_none_iff,
    NaiveDateTime.midnightAdd_eq_none_iff]

theorem NaiveDateTime.natAbs_sincePostgresEpoch_lt (dt : NaiveDateTime) :
    (NaiveDateTime.sincePostgresEpoch dt).natAbs < 9 * 10 ^ 21 := by
  have hd := NaiveDate.days_mem dt.date
  have ht := NaiveTime.nanosOfDay_lt_leap dt.time
  rw [NaiveDateTime.sincePostgresEpoch_eq, postgresEpochDate_days]
  unfold NANOS_PER_DAY
  omega

/-- Every date-time encodes: `chrono`'s span fits `i64` microseconds. -/
theorem NaiveDateTime.encode_eq (dt : NaiveDateTime) :
    NaiveDateTime.encode dt = .extend (i64ToBeBytes ((NaiveDateTime.sincePostgresEpoch dt).tdiv 1000)) (.done .no) := by
  rw [NaiveDateTime.encode, ← NaiveDateTime.sincePostgresEpoch,
    numMicroseconds_of_natAbs_lt (NaiveDateTime.natAbs_sincePostgresEpoch_lt dt)]

/-- A count of whole microseconds decodes to the instant it was taken from. -/
theorem NaiveDateTime.decode_encoded {dt : NaiveDateTime} (hmicro : dt.time.nanosecond % 1000 = 0) :
    NaiveDateTime.decode (i64ToBeBytes ((NaiveDateTime.sincePostgresEpoch dt).tdiv 1000)) =
      panicking (NaiveDateTime.midnightAdd postgresEpochDate (NaiveDateTime.sincePostgresEpoch dt)) := by
  have hdvd : (1000 : Int) ∣ NaiveDateTime.sincePostgresEpoch dt := by
    rw [NaiveDateTime.sincePostgresEpoch_eq]
    unfold NaiveTime.nanosOfDay NANOS_PER_DAY
    omega
  have hbound := NaiveDateTime.natAbs_sincePostgresEpoch_lt dt
  have habs : ((NaiveDateTime.sincePostgresEpoch dt).tdiv 1000).natAbs = (NaiveDateTime.sincePostgresEpoch dt).natAbs / 1000 :=
    Int.natAbs_tdiv _ 1000
  have hus : IsI64 ((NaiveDateTime.sincePostgresEpoch dt).tdiv 1000) := by
    unfold IsI64
    omega
  rw [NaiveDateTime.decode_of_decodeI64 (decodeI64_i64ToBeBytes hus), Int.tdiv_mul_cancel hdvd]

/-- A date-time of whole microseconds that is not a leap second decodes back. -/
theorem NaiveDateTime.decode_encode {dt : NaiveDateTime} (hmicro : dt.time.nanosecond % 1000 = 0)
    (hleap : dt.time.nanosecond < 10 ^ 9) :
    NaiveDateTime.decode (i64ToBeBytes ((NaiveDateTime.sincePostgresEpoch dt).tdiv 1000)) = pure dt := by
  rw [NaiveDateTime.decode_encoded hmicro, NaiveDateTime.sincePostgresEpoch_eq,
    NaiveDateTime.midnightAdd_sub _ hleap, panicking_some]

/-- A leap second decodes, if at all, to the same count of nanoseconds, which is
the first instant after it and never a leap second. -/
theorem NaiveDateTime.decode_encode_of_leap {dt y : NaiveDateTime} (hmicro : dt.time.nanosecond % 1000 = 0)
    (hleap : 10 ^ 9 ≤ dt.time.nanosecond)
    (hy : (NaiveDateTime.decode (i64ToBeBytes ((NaiveDateTime.sincePostgresEpoch dt).tdiv 1000))).run = some (.ok y)) :
    y.unixNanos = dt.unixNanos ∧ y ≠ dt := by
  rw [NaiveDateTime.decode_encoded hmicro, run_panicking] at hy
  obtain ⟨z, hz, hzy⟩ := Option.map_eq_some_iff.1 hy
  cases hzy
  constructor
  · rw [NaiveDateTime.unixNanos_midnightAdd hz, NaiveDateTime.sincePostgresEpoch]
    ring
  · -- what `+` returns never holds a leap second
    obtain ⟨d, -, rfl⟩ := Option.map_eq_some_iff.1 hz
    intro heq
    have hlt := NaiveTime.ofNanos_nanosecond_lt (NaiveDateTime.sincePostgresEpoch dt)
    rw [← heq] at hleap
    exact absurd hleap (not_le.2 hlt)

theorem DateTime.decode_eq {Offset : Type} (offsetFromUtc : NaiveDateTime → Offset) (buf : List UInt8) :
    DateTime.decode offsetFromUtc buf =
      (NaiveDateTime.decode buf >>= fun naive => pure (DateTime.fromUtcDatetime offsetFromUtc naive)) := by
  simp only [DateTime.decode, DateTime.decodeFixedOffset, bind_assoc, pure_bind]
  rfl

/-- `DateTime<Tz>` panics where `NaiveDateTime` does, whatever the zone. -/
theorem DateTime.decode_run_eq_none_iff {Offset : Type} (offsetFromUtc : NaiveDateTime → Offset) (buf : List UInt8) :
    (DateTime.decode offsetFromUtc buf).run = none ↔ (NaiveDateTime.decode buf).run = none := by
  rw [DateTime.decode_eq, run_bind_pure_eq_none_iff]

end Chrono

section Time

variable {buf : List UInt8}

/-- `*self - PG_EPOCH.midnight()`, in nanoseconds. -/
def PrimitiveDateTime.sincePgEpoch (dt : PrimitiveDateTime) : Int := dt.unixNanos - PG_EPOCH.days * NANOS_PER_DAY

theorem PrimitiveDateTime.sincePgEpoch_eq (dt : PrimitiveDateTime) :
    PrimitiveDateTime.sincePgEpoch dt =
      (dt.date.days - PG_EPOCH.days) * NANOS_PER_DAY + dt.time.toNaiveTime.nanosOfDay := by
  rw [sincePgEpoch, PrimitiveDateTime.unixNanos]
  ring

theorem Date.decode_of_decodeI32 {n : Int} (h : decodeI32 buf = pure n) :
    Date.decode buf = panicking (Day.ofDays? (PG_EPOCH.days + n)) := by
  rw [Date.decode, h, pure_bind]

/-- A `DATE` panics exactly when its day is outside `time`'s. -/
theorem Date.decode_run_eq_none_iff (h : buf.length = 4) :
    (Date.decode buf).run = none ↔
      PG_EPOCH.days + ofTwos 32 (beValue buf) < DATE_MIN ∨ DATE_MAX < PG_EPOCH.days + ofTwos 32 (beValue buf) := by
  rw [Date.decode_of_decodeI32 (decodeI32_of_length h), run_panicking, Option.map_eq_none_iff,
    Day.ofDays?_eq_none_iff]

theorem Date.isI32_sub_epoch (date : Date) : IsI32 (date.days - PG_EPOCH.days) := by
  have hd := Date.days_mem date
  unfold IsI32
  rw [pgEpoch_days]
  omega

/-- Every date encodes. -/
theorem Date.encode_eq (date : Date) :
    Date.encode date = .extend (i32ToBeBytes (date.days - PG_EPOCH.days)) (.done .no) :=
  if_pos (Date.isI32_sub_epoch date)

theorem Date.decode_encode (date : Date) : Date.decode (i32ToBeBytes (date.days - PG_EPOCH.days)) = pure date := by
  rw [Date.decode_of_decodeI32 (decodeI32_i32ToBeBytes (Date.isI32_sub_epoch date)), add_sub_cancel,
    Day.ofDays?_days, panicking_some]

theorem PrimitiveDateTime.decode_of_decodeI64 {us : Int} (h : decodeI64 buf = pure us) :
    PrimitiveDateTime.decode buf = panicking (PrimitiveDateTime.midnightAdd PG_EPOCH (us * 1000)) := by
  rw [PrimitiveDateTime.decode, h, pure_bind]

/-- A `TIMESTAMP` panics exactly when the day of its microseconds is outside
`time`'s. -/
theorem PrimitiveDateTime.decode_run_eq_none_iff (h : buf.length = 8) :
    (PrimitiveDateTime.decode buf).run = none ↔
      PG_EPOCH.days + ofTwos 64 (beValue buf) * 1000 / NANOS_PER_DAY < DATE_MIN ∨
        DATE_MAX < PG_EPOCH.days + ofTwos 64 (beValue buf) * 1000 / NANOS_PER_DAY := by
  rw [PrimitiveDateTime.decode_of_decodeI64 (decodeI64_of_length h), run_panicking, Option.map_eq_none_iff,
    PrimitiveDateTime.midnightAdd_eq_none_iff]

theorem PrimitiveDateTime.isI64_micros (dt : PrimitiveDateTime) :
    IsI64 ((PrimitiveDateTime.sincePgEpoch dt).tdiv 1000) := by
  have hd := Date.days_mem dt.date
  have ht := NaiveTime.nanosOfDay_lt_leap dt.time.toNaiveTime
  have habs : ((PrimitiveDateTime.sincePgEpoch dt).tdiv 1000).natAbs = (PrimitiveDateTime.sincePgEpoch dt).natAbs / 1000 :=
    Int.natAbs_tdiv _ 1000
  rw [PrimitiveDateTime.sincePgEpoch_eq, pgEpoch_days] at habs
  unfold IsI64
  rw [PrimitiveDateTime.sincePgEpoch_eq, pgEpoch_days]
  unfold NANOS_PER_DAY at habs ⊢
  omega

/-- Every date-time encodes. -/
theorem PrimitiveDateTime.encode_eq (dt : PrimitiveDateTime) :
    PrimitiveDateTime.encode dt =
      .extend (i64ToBeBytes ((PrimitiveDateTime.sincePgEpoch dt).tdiv 1000)) (.done .no) :=
  if_pos (PrimitiveDateTime.isI64_micros dt)

/-- A date-time of whole microseconds decodes back. -/
theorem PrimitiveDateTime.decode_encode {dt : PrimitiveDateTime} (hmicro : dt.time.toNaiveTime.nanosecond % 1000 = 0) :
    PrimitiveDateTime.decode (i64ToBeBytes ((PrimitiveDateTime.sincePgEpoch dt).tdiv 1000)) = pure dt := by
  have hdvd : (1000 : Int) ∣ PrimitiveDateTime.sincePgEpoch dt := by
    rw [PrimitiveDateTime.sincePgEpoch_eq]
    unfold NaiveTime.nanosOfDay NANOS_PER_DAY
    omega
  rw [PrimitiveDateTime.decode_of_decodeI64 (decodeI64_i64ToBeBytes (PrimitiveDateTime.isI64_micros dt)),
    Int.tdiv_mul_cancel hdvd, PrimitiveDateTime.sincePgEpoch_eq, PrimitiveDateTime.midnightAdd_sub, panicking_some]

theorem OffsetDateTime.decode_eq (buf : List UInt8) :
    OffsetDateTime.decode buf = (PrimitiveDateTime.decode buf >>= fun dt => pure dt.assumeUtc) := rfl

/-- `OffsetDateTime` panics where `PrimitiveDateTime` does. -/
theorem OffsetDateTime.decode_run_eq_none_iff (buf : List UInt8) :
    (OffsetDateTime.decode buf).run = none ↔ (PrimitiveDateTime.decode buf).run = none := by
  rw [OffsetDateTime.decode_eq, run_bind_pure_eq_none_iff]

/-- The encoder panics exactly when the UTC date-time is outside `time`'s
dates. -/
theorem OffsetDateTime.encode_eq_none_iff (x : OffsetDateTime) :
    OffsetDateTime.encode x = none ↔ x.toOffsetUtc = none := by
  rw [OffsetDateTime.encode, Option.map_eq_none_iff]

/-- An offset date-time of whole microseconds that encodes decodes to the same
instant, at UTC. -/
theorem OffsetDateTime.decode_encode {x : OffsetDateTime} {utc : PrimitiveDateTime}
    (hmicro : x.localDateTime.time.toNaiveTime.nanosecond % 1000 = 0) (h : x.toOffsetUtc = some utc) :
    OffsetDateTime.encode x = some (PrimitiveDateTime.encode utc) ∧
      OffsetDateTime.decode (i64ToBeBytes ((PrimitiveDateTime.sincePgEpoch utc).tdiv 1000)) = pure utc.assumeUtc ∧
      utc.assumeUtc.unixNanos = x.unixNanos := by
  have hnano := OffsetDateTime.nanosecond_toOffsetUtc h
  refine ⟨by rw [OffsetDateTime.encode, h, Option.map_some], ?_, ?_⟩
  · rw [OffsetDateTime.decode_eq, PrimitiveDateTime.decode_encode (hnano ▸ hmicro), pure_bind]
  · rw [OffsetDateTime.unixNanos, PrimitiveDateTime.assumeUtc, ← OffsetDateTime.unixNanos_toOffsetUtc h]
    simp

end Time

/-! ## A date outside the library panics -/

/-- The binary `DATE` and `TIMESTAMP` decoders of `chrono` and `time`: a payload
panics exactly when its date is outside the library, so Postgres's `infinity`
and `-infinity` panic in every one of them; every value encodes, and decodes
back when its time is whole microseconds and not a leap second. -/
theorem binary_date_decode_panics_outside_library :
    (∀ buf : List UInt8, buf.length = 4 →
      ((NaiveDate.decode buf).run = none ↔
          postgresEpochDate.days + ofTwos 32 (beValue buf) < NAIVE_DATE_MIN ∨
            NAIVE_DATE_MAX < postgresEpochDate.days + ofTwos 32 (beValue buf)) ∧
        ((Date.decode buf).run = none ↔
          PG_EPOCH.days + ofTwos 32 (beValue buf) < DATE_MIN ∨ DATE_MAX < PG_EPOCH.days + ofTwos 32 (beValue buf))) ∧
    (∀ buf : List UInt8, buf.length = 8 →
      ((NaiveDateTime.decode buf).run = none ↔
          postgresEpochDate.days + ofTwos 64 (beValue buf) * 1000 / NANOS_PER_DAY < NAIVE_DATE_MIN ∨
            NAIVE_DATE_MAX < postgresEpochDate.days + ofTwos 64 (beValue buf) * 1000 / NANOS_PER_DAY) ∧
        (∀ (Offset : Type) (offsetFromUtc : NaiveDateTime → Offset),
          (DateTime.decode offsetFromUtc buf).run = none ↔ (NaiveDateTime.decode buf).run = none) ∧
        ((PrimitiveDateTime.decode buf).run = none ↔
          PG_EPOCH.days + ofTwos 64 (beValue buf) * 1000 / NANOS_PER_DAY < DATE_MIN ∨
            DATE_MAX < PG_EPOCH.days + ofTwos 64 (beValue buf) * 1000 / NANOS_PER_DAY) ∧
        ((OffsetDateTime.decode buf).run = none ↔ (PrimitiveDateTime.decode buf).run = none)) ∧
    (∀ days ∈ [2147483647, -2147483648],
      (NaiveDate.decode (i32ToBeBytes days)).run = none ∧ (Date.decode (i32ToBeBytes days)).run = none) ∧
    (∀ us ∈ [9223372036854775807, -9223372036854775808],
      (NaiveDateTime.decode (i64ToBeBytes us)).run = none ∧
        (∀ (Offset : Type) (offsetFromUtc : NaiveDateTime → Offset),
          (DateTime.decode offsetFromUtc (i64ToBeBytes us)).run = none) ∧
        (PrimitiveDateTime.decode (i64ToBeBytes us)).run = none ∧
        (OffsetDateTime.decode (i64ToBeBytes us)).run = none) ∧
    (∀ date : NaiveDate, ∃ bytes, (NaiveDate.encode date).output = .ok (.no, ⟨bytes, [], []⟩) ∧
      (NaiveDate.decode bytes).run = some (.ok date)) ∧
    (∀ date : Date, ∃ bytes, (Date.encode date).output = .ok (.no, ⟨bytes, [], []⟩) ∧
      (Date.decode bytes).run = some (.ok date)) ∧
    (∀ dt : NaiveDateTime, dt.time.nanosecond % 1000 = 0 → dt.time.nanosecond < 10 ^ 9 →
      ∃ bytes, (NaiveDateTime.encode dt).output = .ok (.no, ⟨bytes, [], []⟩) ∧
        (NaiveDateTime.decode bytes).run = some (.ok dt)) ∧
    (∀ (Offset : Type) (offsetFromUtc : NaiveDateTime → Offset) (x : DateTime Offset),
      x.utc.time.nanosecond % 1000 = 0 → x.utc.time.nanosecond < 10 ^ 9 →
      ∃ bytes, (DateTime.encode x).output = .ok (.no, ⟨bytes, [], []⟩) ∧
        ∃ y, (DateTime.decode offsetFromUtc bytes).run = some (.ok y) ∧ y.utc = x.utc) ∧
    (∀ dt : PrimitiveDateTime, dt.time.toNaiveTime.nanosecond % 1000 = 0 →
      ∃ bytes, (PrimitiveDateTime.encode dt).output = .ok (.no, ⟨bytes, [], []⟩) ∧
        (PrimitiveDateTime.decode bytes).run = some (.ok dt)) ∧
    (∀ (x : OffsetDateTime) (utc : PrimitiveDateTime), x.localDateTime.time.toNaiveTime.nanosecond % 1000 = 0 →
      x.toOffsetUtc = some utc →
      ∃ bytes, (OffsetDateTime.encode x).map Encoder.output = some (.ok (.no, ⟨bytes, [], []⟩)) ∧
        ∃ y, (OffsetDateTime.decode bytes).run = some (.ok y) ∧ y.unixNanos = x.unixNanos) ∧
    (∀ dt : NaiveDateTime, dt.time.nanosecond % 1000 = 0 → 10 ^ 9 ≤ dt.time.nanosecond →
      ∃ bytes, (NaiveDateTime.encode dt).output = .ok (.no, ⟨bytes, [], []⟩) ∧
        (NaiveDateTime.decode bytes).run ≠ some (.ok dt)) := by
  have hnaive := naiveDate_bounds
  have htime := date_bounds
  refine ⟨fun buf h => ⟨NaiveDate.decode_run_eq_none_iff h, Date.decode_run_eq_none_iff h⟩,
    fun buf h => ⟨NaiveDateTime.decode_run_eq_none_iff h, fun _ tz => DateTime.decode_run_eq_none_iff tz buf,
      PrimitiveDateTime.decode_run_eq_none_iff h, OffsetDateTime.decode_run_eq_none_iff buf⟩,
    ?days, ?micros, ?naiveDate, ?date, ?naiveDateTime, ?dateTime, ?primitive, ?offset, ?leap⟩
  case days =>
    intro days hdays
    have hn : IsI32 days := by
      simp only [List.mem_cons, List.not_mem_nil, or_false] at hdays
      unfold IsI32
      omega
    rw [NaiveDate.decode_of_decodeI32 hn (decodeI32_i32ToBeBytes hn), Date.decode_of_decodeI32 (decodeI32_i32ToBeBytes hn),
      run_panicking, run_panicking, Option.map_eq_none_iff, Option.map_eq_none_iff, Day.ofDays?_eq_none_iff,
      Day.ofDays?_eq_none_iff, postgresEpochDate_days, pgEpoch_days]
    simp only [List.mem_cons, List.not_mem_nil, or_false] at hdays
    omega
  case micros =>
    intro us hus
    have hn : IsI64 us := by
      simp only [List.mem_cons, List.not_mem_nil, or_false] at hus
      unfold IsI64
      omega
    have hnaive : (NaiveDateTime.decode (i64ToBeBytes us)).run = none := by
      rw [NaiveDateTime.decode_of_decodeI64 (decodeI64_i64ToBeBytes hn), run_panicking, Option.map_eq_none_iff,
        NaiveDateTime.midnightAdd_eq_none_iff, postgresEpochDate_days]
      simp only [List.mem_cons, List.not_mem_nil, or_false] at hus
      unfold NANOS_PER_DAY
      omega
    have hprim : (PrimitiveDateTime.decode (i64ToBeBytes us)).run = none := by
      rw [PrimitiveDateTime.decode_of_decodeI64 (decodeI64_i64ToBeBytes hn), run_panicking, Option.map_eq_none_iff,
        PrimitiveDateTime.midnightAdd_eq_none_iff, pgEpoch_days]
      simp only [List.mem_cons, List.not_mem_nil, or_false] at hus
      unfold NANOS_PER_DAY
      omega
    exact ⟨hnaive, fun _ tz => (DateTime.decode_run_eq_none_iff tz _).2 hnaive, hprim,
      (OffsetDateTime.decode_run_eq_none_iff _).2 hprim⟩
  case naiveDate =>
    intro date
    refine ⟨_, by rw [NaiveDate.encode_eq, Encoder.output_extend_done], ?_⟩
    rw [NaiveDate.decode_encode]
    rfl
  case date =>
    intro date
    refine ⟨_, by rw [Date.encode_eq, Encoder.output_extend_done], ?_⟩
    rw [Date.decode_encode]
    rfl
  case naiveDateTime =>
    intro dt hmicro hleap
    refine ⟨_, by rw [NaiveDateTime.encode_eq, Encoder.output_extend_done], ?_⟩
    rw [NaiveDateTime.decode_encode hmicro hleap]
    rfl
  case dateTime =>
    intro Offset tz x hmicro hleap
    refine ⟨_, by rw [DateTime.encode, NaiveDateTime.encode_eq, Encoder.output_extend_done],
      DateTime.fromUtcDatetime tz x.utc, ?_, rfl⟩
    rw [DateTime.decode_eq, NaiveDateTime.decode_encode hmicro hleap, pure_bind]
    rfl
  case primitive =>
    intro dt hmicro
    refine ⟨_, by rw [PrimitiveDateTime.encode_eq, Encoder.output_extend_done], ?_⟩
    rw [PrimitiveDateTime.decode_encode hmicro]
    rfl
  case offset =>
    intro x utc hmicro h
    obtain ⟨henc, hdec, hinstant⟩ := OffsetDateTime.decode_encode hmicro h
    refine ⟨_, by rw [henc, Option.map_some, PrimitiveDateTime.encode_eq, Encoder.output_extend_done], _, ?_, hinstant⟩
    rw [hdec]
    rfl
  case leap =>
    intro dt hmicro hleap
    refine ⟨_, by rw [NaiveDateTime.encode_eq, Encoder.output_extend_done], fun hy => ?_⟩
    exact (NaiveDateTime.decode_encode_of_leap hmicro hleap hy).2 rfl

/-- Postgres's `infinity` as a `DATE`, the bytes `7F FF FF FF`, panics in
`chrono`'s decoder. -/
theorem naive_date_decode_of_infinity :
    i32ToBeBytes 2147483647 = [0x7F, 0xFF, 0xFF, 0xFF] ∧ (NaiveDate.decode [0x7F, 0xFF, 0xFF, 0xFF]).run = none := by
  have hbytes : i32ToBeBytes 2147483647 = [0x7F, 0xFF, 0xFF, 0xFF] := by decide
  refine ⟨hbytes, ?_⟩
  rw [← hbytes]
  exact (binary_date_decode_panics_outside_library.2.2.1 2147483647 (by simp)).1

end Sqlx.Postgres
