import Sqlx.Lib.Bytes

/-!
# Postgres — `DataRow` (`message/data_row.rs`)

A `DataRow` body is a big-endian `u16` count and then one column per count: a
big-endian `i32` length, `-1` for NULL, followed by that many value bytes.
`decode_body` does not copy the values; it keeps the buffer and one range
into it per column, and `get` slices the buffer by that range.

The decoder checks that each length prefix is inside the buffer and that
the `u32` offsets do not overflow, but never that a value's end is inside
the buffer. `decodeBody_ok` is what it does guarantee: one entry per count,
ranges that start inside the buffer, ascend and do not overlap.
`get_eq_none_iff` says `get` panics exactly on a column whose range ends past
the buffer, and `decodeBody_accepts_missing_value` that such rows are accepted.
-/

namespace Sqlx.Postgres

open Wire

/-- `DataRow`, a range `start..end` as the pair `(start, end)`. -/
structure DataRow where
  storage : List UInt8
  values : List (Option (Nat × Nat))
  deriving DecidableEq, Repr

/-- `DataRow::get`; `none` is a panic, of the index or of the slice. -/
def DataRow.get (self : DataRow) (index : Nat) : Option (Option (List UInt8)) :=
  match self.values[index]? with
  | none => none
  | some none => some none
  | some (some (start, stop)) =>
    if start ≤ stop ∧ stop ≤ self.storage.length then some (some ((self.storage.drop start).take (stop - start)))
    else none

/-- The loop of `decode_body`: `cnt` more columns, the next one at `offset`. -/
def decodeValues (buf : List UInt8) : Nat → Nat → Except String (List (Option (Nat × Nat)))
  | 0, _ => .ok []
  | cnt + 1, offset =>
    match checkedAdd 32 offset 4 with
    | none => .error s!"next value start out of range (offset: {offset})"
    | some valueStart =>
      if buf.length < valueStart then
        let missing := valueStart - buf.length
        .error s!"expected 4 bytes at offset {offset}, got {missing}"
      else
        -- `u32::try_from` of the `i32` length: a negative one is NULL
        let length := ofTwos 32 (beValue ((buf.drop offset).take 4))
        if 0 ≤ length then
          let length := length.toNat
          match checkedAdd 32 valueStart length with
          | none => .error s!"value_start + length out of range ({offset} + {length})"
          | some valueEnd => (decodeValues buf cnt valueEnd).map (some (valueStart, valueEnd) :: ·)
        else (decodeValues buf cnt valueStart).map (none :: ·)

/-- `DataRow::decode_body`. -/
def DataRow.decodeBody (buf : List UInt8) : Except String DataRow :=
  if buf.length < 2 then
    let got := buf.length
    .error s!"expected at least 2 bytes, got {got}"
  else
    let cnt := beValue (buf.take 2)
    (decodeValues buf cnt 2).map fun values => ⟨buf, values⟩

-- `test_decode_data_row`: eight columns, NULL and four-byte values in turn
example :
    (DataRow.decodeBody [0, 8, 255, 255, 255, 255, 0, 0, 0, 4, 0, 0, 0, 10, 255, 255, 255, 255, 0, 0, 0, 4,
      0, 0, 0, 20, 255, 255, 255, 255, 0, 0, 0, 4, 0, 0, 0, 40, 255, 255, 255, 255, 0, 0, 0, 4, 0, 0, 0, 80]).map
      DataRow.values =
      .ok [none, some (10, 14), none, some (22, 26), none, some (34, 38), none, some (46, 50)] := by decide

/-- The ranges of the columns from `offset` on: each starts four bytes after
the end of the one before (or after a NULL's prefix), inside the buffer, and
ends no earlier than it starts. -/
def RangesFrom (len : Nat) : Nat → List (Option (Nat × Nat)) → Prop
  | _, [] => True
  | offset, none :: rest => offset + 4 ≤ len ∧ RangesFrom len (offset + 4) rest
  | offset, some (start, stop) :: rest =>
    start = offset + 4 ∧ start ≤ len ∧ start ≤ stop ∧ RangesFrom len stop rest

/-- The four bytes of a length prefix the loop reads are there, so
`read_i32(&buf[offset..])` never panics. -/
theorem length_prefix_in_bounds {buf : List UInt8} {offset : Nat} (h : ¬ buf.length < offset + 4) :
    ((buf.drop offset).take 4).length = 4 := by
  simp only [List.length_take, List.length_drop]
  omega

/-- One step of the loop: what a successful decode of the rest gives back. -/
theorem decodeValues_succ_ok {buf : List UInt8} {cnt offset : Nat} {vs : List (Option (Nat × Nat))}
    (h : decodeValues buf (cnt + 1) offset = .ok vs) :
    ∃ valueStart, offset + 4 = valueStart ∧ valueStart ≤ buf.length ∧
      ((∃ rest, vs = none :: rest ∧ decodeValues buf cnt valueStart = .ok rest) ∨
        ∃ valueEnd rest, valueStart ≤ valueEnd ∧ vs = some (valueStart, valueEnd) :: rest ∧
          decodeValues buf cnt valueEnd = .ok rest) := by
  simp only [decodeValues] at h
  cases hs : checkedAdd 32 offset 4 with
  | none => simp [hs] at h
  | some valueStart =>
    obtain ⟨-, hstart⟩ := checkedAdd_eq_some.mp hs
    rw [hs] at h
    simp only at h
    by_cases hlen : buf.length < valueStart
    · simp [hlen] at h
    · rw [if_neg hlen] at h
      refine ⟨valueStart, hstart, by omega, ?_⟩
      split at h
      · cases he : checkedAdd 32 valueStart (ofTwos 32 (beValue ((buf.drop offset).take 4))).toNat with
        | none => simp [he] at h
        | some valueEnd =>
          obtain ⟨-, hend⟩ := checkedAdd_eq_some.mp he
          rw [he] at h
          cases hrest : decodeValues buf cnt valueEnd with
          | error e => simp [hrest, Except.map] at h
          | ok rest =>
            simp only [hrest, Except.map, Except.ok.injEq] at h
            exact Or.inr ⟨valueEnd, rest, by omega, h.symm, hrest⟩
      · cases hrest : decodeValues buf cnt valueStart with
        | error e => simp [hrest, Except.map] at h
        | ok rest =>
          simp only [hrest, Except.map, Except.ok.injEq] at h
          exact Or.inl ⟨rest, h.symm, rfl⟩

/-- The run of the loop: one entry per count, with ranges as `RangesFrom`. -/
theorem decodeValues_ok {buf : List UInt8} :
    ∀ {cnt offset : Nat} {vs : List (Option (Nat × Nat))}, decodeValues buf cnt offset = .ok vs →
      vs.length = cnt ∧ RangesFrom buf.length offset vs
  | 0, _, vs, h => by
    simp only [decodeValues, Except.ok.injEq] at h
    subst h
    exact ⟨rfl, trivial⟩
  | cnt + 1, offset, vs, h => by
    obtain ⟨valueStart, hstart, hle, hnull | hval⟩ := decodeValues_succ_ok h
    · obtain ⟨rest, rfl, hrest⟩ := hnull
      obtain ⟨hlen, hranges⟩ := decodeValues_ok hrest
      exact ⟨by simp [hlen], by omega, hstart ▸ hranges⟩
    · obtain ⟨valueEnd, rest, hse, rfl, hrest⟩ := hval
      obtain ⟨hlen, hranges⟩ := decodeValues_ok hrest
      exact ⟨by simp [hlen], hstart.symm, hle, hse, hranges⟩

/-- What `decode_body` guarantees of a row it returns: the buffer kept as
storage, one entry per count, and ranges as `RangesFrom` from offset 2. -/
theorem decodeBody_ok {buf : List UInt8} {row : DataRow} (h : DataRow.decodeBody buf = .ok row) :
    row.storage = buf ∧ row.values.length = beValue (buf.take 2) ∧ RangesFrom buf.length 2 row.values := by
  unfold DataRow.decodeBody at h
  split at h
  · cases h
  · cases hvs : decodeValues buf (beValue (buf.take 2)) 2 with
    | error e => simp [hvs, Except.map] at h
    | ok vs =>
      simp only [hvs, Except.map, Except.ok.injEq] at h
      subst h
      exact ⟨rfl, decodeValues_ok hvs⟩

/-- Under `RangesFrom`, every range starts after `offset` and ends no earlier
than it starts. -/
theorem RangesFrom.mem {len : Nat} :
    ∀ {offset : Nat} {vs : List (Option (Nat × Nat))}, RangesFrom len offset vs →
      ∀ {start stop}, some (start, stop) ∈ vs → offset < start ∧ start ≤ stop ∧ start ≤ len
  | _, [], _, _, _, hmem => by cases hmem
  | offset, none :: rest, h, start, stop, hmem => by
    have hrest := RangesFrom.mem h.2 (List.mem_of_ne_of_mem (by simp) hmem)
    omega
  | offset, some (s, e) :: rest, h, start, stop, hmem => by
    obtain ⟨hs, hsl, hse, hrest⟩ := h
    rcases List.mem_cons.mp hmem with heq | hmem
    · cases heq
      omega
    · have := RangesFrom.mem hrest hmem
      omega

/-- Under `RangesFrom` the ranges ascend and do not overlap: each ends before
the next one starts. -/
theorem RangesFrom.pairwise {len : Nat} :
    ∀ {offset : Nat} {vs : List (Option (Nat × Nat))}, RangesFrom len offset vs →
      (vs.filterMap id).Pairwise fun r₁ r₂ => r₁.2 < r₂.1
  | _, [], _ => List.Pairwise.nil
  | _, none :: rest, h => by simpa using RangesFrom.pairwise h.2
  | _, some (s, e) :: rest, h => by
    obtain ⟨-, -, -, hrest⟩ := h
    simp only [List.filterMap_cons, id, List.pairwise_cons]
    refine ⟨fun r hr => ?_, RangesFrom.pairwise hrest⟩
    obtain ⟨x, hx, hxr⟩ := List.mem_filterMap.mp hr
    cases x with
    | none => cases hxr
    | some r' =>
      cases hxr
      exact (RangesFrom.mem hrest hx).1

/-- `get` of a column the row has panics exactly when its range ends past
the buffer. -/
theorem get_eq_none_iff {buf : List UInt8} {row : DataRow} (h : DataRow.decodeBody buf = .ok row) {i : Nat}
    (hi : i < row.values.length) :
    row.get i = none ↔ ∃ start stop, row.values[i]? = some (some (start, stop)) ∧ buf.length < stop := by
  obtain ⟨hstorage, -, hranges⟩ := decodeBody_ok h
  unfold DataRow.get
  rw [List.getElem?_eq_getElem hi]
  cases hv : row.values[i] with
  | none => simp
  | some r =>
    obtain ⟨start, stop⟩ := r
    -- the decoder already ensures `start ≤ stop`, so only the end can be out of range
    have hmem : some (start, stop) ∈ row.values := hv ▸ List.getElem_mem hi
    have hse := (RangesFrom.mem hranges hmem).2.1
    rw [hstorage]
    dsimp only
    constructor
    · intro hget
      have hout : ¬ (start ≤ stop ∧ stop ≤ buf.length) := by
        intro hin
        rw [if_pos hin] at hget
        cases hget
      exact ⟨start, stop, rfl, by omega⟩
    · rintro ⟨s, e, heq, hlt⟩
      cases heq
      rw [if_neg (by omega)]

/-- A row whose only column declares `n` value bytes and carries none is
accepted, with a range past the end of the buffer. -/
theorem decodeBody_accepts_missing_value {n : Nat} (hn : n < 2 ^ 31) :
    DataRow.decodeBody ([0, 1] ++ beBytes 4 n) = .ok ⟨[0, 1] ++ beBytes 4 n, [some (6, 6 + n)]⟩ := by
  have hlen : ([0, 1] ++ beBytes 4 n).length = 6 := by simp
  have hcnt : beValue (([0, 1] ++ beBytes 4 n).take 2) = 1 := by simp [beValue, leValue]
  have hprefix : ofTwos 32 (beValue ((([0, 1] ++ beBytes 4 n).drop 2).take 4)) = n := by
    have hvalue : beValue (beBytes 4 n) = n := beValue_beBytes_of_lt (by omega)
    simp only [List.drop_left' (show [(0 : UInt8), 1].length = 2 from rfl), List.take_of_length_le
      (show (beBytes 4 n).length ≤ 4 by simp), hvalue, ofTwos]
    simp only [show n < 2 ^ (32 - 1) by omega, if_true]
  have hstart : checkedAdd 32 2 4 = some 6 := by decide
  have hend : checkedAdd 32 6 n = some (6 + n) := checkedAdd_eq_some.mpr ⟨by omega, rfl⟩
  simp only [DataRow.decodeBody, hlen, hcnt, decodeValues, hstart, hprefix, Int.natCast_nonneg, if_true,
    Int.toNat_natCast, hend, Except.map]
  rw [if_neg (by decide), if_neg (by decide)]

/-- One column declaring five value bytes, none of which follow: the row is
accepted, and `get(0)` then slices `6..11` out of six bytes and panics. -/
theorem decodeBody_short_row_get_panics :
    DataRow.decodeBody [0, 1, 0, 0, 0, 5] = .ok ⟨[0, 1, 0, 0, 0, 5], [some (6, 11)]⟩ ∧
      DataRow.get ⟨[0, 1, 0, 0, 0, 5], [some (6, 11)]⟩ 0 = none := by
  decide

end Sqlx.Postgres
