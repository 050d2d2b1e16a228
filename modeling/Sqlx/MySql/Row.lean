import Sqlx.MySql.Io
import Mathlib.Data.List.Forall2

/-!
# MySQL — result rows (`protocol/row.rs`, `protocol/statement/row.rs`, `protocol/text/row.rs`)

A row keeps the bytes it was decoded from and, per column, the range of its
value in them, or nothing for NULL; `Row::get` slices the value out.

A binary row is a `0x00` header, a NULL bitmap of `(n + 9) / 8` bytes whose
bit `i + 2` marks column `i` NULL, and then the values of the other columns,
each laid out as its type says: integers and floats at a fixed width, strings
and blobs after a length-encoded length, dates and times after one length
byte, which stays on the value. A text row is each column's value after its
length-encoded length, or `0xFB` for NULL.

The decoders walk the columns with the offset of the next value; where a
`Bytes` getter or an index would panic the model returns `none`. For every
column list and every row of well-formed values, both give back each
column's bytes, and NULL exactly where the row has it (`row_decoders_agree`).
-/

namespace Sqlx.MySql

open Wire

/-- `ColumnType`: the type codes of the protocol. -/
inductive ColumnType where
  | decimal | tiny | short | long | float | double | null | timestamp | longLong | int24 | date | time
  | datetime | year | varChar | bit | json | newDecimal | enum | set | tinyBlob | mediumBlob | longBlob
  | blob | varString | string | geometry
  deriving DecidableEq, Repr

/-- `Row`: the bytes of the row, and each column's range in them. -/
structure Row where
  storage : List UInt8
  values : List (Option (Nat × Nat))

/-- A column's bytes, `&storage[start..stop]`, or NULL; `none` where the
slice panics. -/
def Row.slice (storage : List UInt8) : Option (Nat × Nat) → Option (Option (List UInt8))
  | none => some none
  | some (start, stop) =>
    if start ≤ stop ∧ stop ≤ storage.length then some (some ((storage.drop start).take (stop - start)))
    else none

/-- `Row::get`; `none` where `values[index]` panics. -/
def Row.get (self : Row) (index : Nat) : Option (Option (List UInt8)) :=
  self.values[index]?.bind (Row.slice self.storage)

/-! ## The binary row -/

/-- Why a row was not decoded. -/
inductive RowDecodeError where
  /-- `exepcted 0x00 (ROW) but found ...` -/
  | header (found : UInt8)

/-- The size match of `BinaryRow::decode_with`: the size of the value at the
front of `buf`, and the buffer from where the value starts; `none` where it
panics. A length read as `u64` converts to `usize` on a 64-bit target. -/
def binaryValueSize (ty : ColumnType) (buf : List UInt8) : Option (Nat × List UInt8) :=
  match ty with
  | .longLong => some (8, buf)
  | .long | .int24 => some (4, buf)
  | .short | .year => some (2, buf)
  | .tiny => some (1, buf)
  | .float => some (4, buf)
  | .double => some (8, buf)
  | .string | .varChar | .varString | .enum | .set | .longBlob | .mediumBlob | .blob | .tinyBlob
  | .geometry | .bit | .decimal | .json | .newDecimal =>
    (getUintLenenc buf).map fun (size, rest) => (size.toNat, rest)
  -- `buf[0] as usize + 1`: the length byte stays on the value
  | .time | .timestamp | .date | .datetime => buf.head?.map fun b => (b.toNat + 1, buf)
  -- `unreachable!()`
  | .null => none

/-- `null_bitmap[byte_idx] & (1u8 << bit_idx) != 0`; `none` where the index panics. -/
def isNullAt (nullBitmap : List UInt8) (columnNullIdx : Nat) : Option Bool :=
  nullBitmap[columnNullIdx / 8]?.map fun byte => byte &&& 1 <<< (columnNullIdx % 8).toUInt8 != 0

/-- The column loop of `BinaryRow::decode_with` from column `columnIdx` on:
`buf` is what is left to read, `offset` the length of the storage. -/
def decodeBinaryValues (nullBitmap : List UInt8) (offset : Nat) :
    Nat → List ColumnType → List UInt8 → Option (List (Option (Nat × Nat)))
  | _, [], _ => some []
  | columnIdx, column :: columns, buf => do
    -- the column index starts at the third bit
    let isNull ← isNullAt nullBitmap (columnIdx + 2)
    if isNull then (none :: ·) <$> decodeBinaryValues nullBitmap offset (columnIdx + 1) columns buf
    else
      let (size, buf) ← binaryValueSize column buf
      let start := offset - buf.length
      -- `buf.advance(size)` panics past the end
      if buf.length < size then none
      else (some (start, start + size) :: ·) <$>
        decodeBinaryValues nullBitmap offset (columnIdx + 1) columns (buf.drop size)

/-- `BinaryRow::decode_with`; `none` where it panics. The storage is the
buffer after the header. -/
def BinaryRow.decodeWith (buf : List UInt8) (columns : List ColumnType) : ExceptT RowDecodeError Option Row :=
  match buf with
  | [] => ExceptT.lift none
  | header :: buf =>
    if header ≠ 0 then throw (.header header)
    else
      let nullBitmapLen := (columns.length + 9) / 8
      -- `get_bytes` panics on a shorter buffer
      if buf.length < nullBitmapLen then ExceptT.lift none
      else ExceptT.lift ((decodeBinaryValues (buf.take nullBitmapLen) buf.length 0 columns
        (buf.drop nullBitmapLen)).map fun values => ⟨buf, values⟩)

/-! ## The text row -/

/-- The column loop of `TextRow::decode_with`. -/
def decodeTextValues (offset : Nat) : List ColumnType → List UInt8 → Option (List (Option (Nat × Nat)))
  | [], _ => some []
  | _ :: columns, buf => do
    -- `buf[0]` panics on an empty buffer
    let first ← buf.head?
    -- NULL is sent as `0xFB`
    if first = 0xFB then (none :: ·) <$> decodeTextValues offset columns buf.tail
    else
      let (size, buf) ← getUintLenenc buf
      let start := offset - buf.length
      if buf.length < size.toNat then none
      else (some (start, start + size.toNat) :: ·) <$> decodeTextValues offset columns (buf.drop size.toNat)

/-- `TextRow::decode_with`; `none` where it panics. -/
def TextRow.decodeWith (buf : List UInt8) (columns : List ColumnType) : Option Row :=
  (decodeTextValues buf.length columns buf).map fun values => ⟨buf, values⟩

/-! ## Values as the protocol lays them out -/

/-- The width of a fixed-width type. -/
def ColumnType.fixedWidth : ColumnType → Option Nat
  | .tiny => some 1
  | .short | .year => some 2
  | .long | .int24 | .float => some 4
  | .longLong | .double => some 8
  | _ => none

/-- The types sent after a length-encoded length. -/
def ColumnType.isLengthEncoded : ColumnType → Bool
  | .string | .varChar | .varString | .enum | .set | .longBlob | .mediumBlob | .blob | .tinyBlob
  | .geometry | .bit | .decimal | .json | .newDecimal => true
  | _ => false

/-- The types sent after one length byte. -/
def ColumnType.isTemporal : ColumnType → Bool
  | .time | .timestamp | .date | .datetime => true
  | _ => false

/-- A non-NULL value of a column type in a binary row: `wire` stands in the
row, and `value` is what the row should give back. -/
def BinaryValue (ty : ColumnType) (wire value : List UInt8) : Prop :=
  (ty.fixedWidth = some value.length ∧ wire = value) ∨
    (ty.isLengthEncoded = true ∧ value.length < 2 ^ 64 ∧
      ∃ lenenc, IsLenenc value.length.toUInt64 lenenc ∧ wire = lenenc ++ value) ∨
    (ty.isTemporal = true ∧ ∃ len rest, value = len :: rest ∧ rest.length = len.toNat ∧ wire = value)

/-- A non-NULL value in a text row. -/
def TextValue (wire value : List UInt8) : Prop :=
  value.length < 2 ^ 64 ∧ ∃ lenenc, IsLenenc value.length.toUInt64 lenenc ∧ wire = lenenc ++ value

/-- The bytes of a binary row's cells after its bitmap: a NULL has none. -/
def binaryWires (cells : List (Option (List UInt8 × List UInt8))) : List UInt8 :=
  (cells.map fun cell => cell.elim [] Prod.fst).flatten

/-- The bytes of a text row: a NULL is `0xFB`. -/
def textWires (cells : List (Option (List UInt8 × List UInt8))) : List UInt8 :=
  (cells.map fun cell => cell.elim [0xFB] Prod.fst).flatten

@[simp] theorem binaryWires_nil : binaryWires [] = [] := rfl

@[simp] theorem binaryWires_cons_none (cells : List (Option (List UInt8 × List UInt8))) :
    binaryWires (none :: cells) = binaryWires cells := by
  simp [binaryWires]

@[simp] theorem binaryWires_cons_some (wire value : List UInt8) (cells : List (Option (List UInt8 × List UInt8))) :
    binaryWires (some (wire, value) :: cells) = wire ++ binaryWires cells := by
  simp [binaryWires]

@[simp] theorem textWires_nil : textWires [] = [] := rfl

@[simp] theorem textWires_cons_none (cells : List (Option (List UInt8 × List UInt8))) :
    textWires (none :: cells) = 0xFB :: textWires cells := by
  simp [textWires]

@[simp] theorem textWires_cons_some (wire value : List UInt8) (cells : List (Option (List UInt8 × List UInt8))) :
    textWires (some (wire, value) :: cells) = wire ++ textWires cells := by
  simp [textWires]

/-- A value's bytes end its wire form. -/
theorem BinaryValue.exists_prefix {ty : ColumnType} {wire value : List UInt8} (h : BinaryValue ty wire value) :
    ∃ lead, wire = lead ++ value := by
  rcases h with ⟨-, rfl⟩ | ⟨-, -, lenenc, -, rfl⟩ | ⟨-, -, -, -, -, rfl⟩
  · exact ⟨[], rfl⟩
  · exact ⟨lenenc, rfl⟩
  · exact ⟨[], rfl⟩

/-- The size match on a well-formed value: the value's length, read from
where the value starts. -/
theorem binaryValueSize_of_binaryValue {ty : ColumnType} {wire value : List UInt8} (h : BinaryValue ty wire value)
    (rest : List UInt8) : binaryValueSize ty (wire ++ rest) = some (value.length, value ++ rest) := by
  rcases h with ⟨hwidth, rfl⟩ | ⟨hty, hlt, lenenc, hlenenc, rfl⟩ | ⟨hty, len, tail, rfl, htail, rfl⟩
  · -- a fixed width: the value starts where it stands
    cases ty <;> simp only [ColumnType.fixedWidth, reduceCtorEq, Option.some.injEq] at hwidth <;>
      simp [binaryValueSize, ← hwidth]
  · -- a length-encoded length in front
    have hsize : value.length.toUInt64.toNat = value.length := by
      rw [Nat.toUInt64_eq, UInt64.toNat_ofNat', Nat.mod_eq_of_lt hlt]
    have hread := getUintLenenc_of_isLenenc hlenenc (value ++ rest)
    rw [List.append_assoc]
    cases ty <;> simp only [ColumnType.isLengthEncoded, Bool.false_eq_true] at hty <;>
      simp [binaryValueSize, hread, hsize]
  · -- one length byte, which the value keeps
    cases ty <;> simp only [ColumnType.isTemporal, Bool.false_eq_true] at hty <;>
      simp [binaryValueSize, htail]

/-- The slice of a value standing between two others. -/
theorem Row.slice_append (lead value post : List UInt8) :
    Row.slice (lead ++ value ++ post) (some (lead.length, lead.length + value.length)) = some (some value) := by
  simp [Row.slice]

theorem isNullAt_eq_bitAt {nullBitmap : List UInt8} {i : Nat} (h : i / 8 < nullBitmap.length) :
    isNullAt nullBitmap i = some (bitAt nullBitmap i) := by
  rw [isNullAt, List.getElem?_eq_getElem h, Option.map_some, bitAt_eq_and h]

/-! ## The column loops read every cell -/

/-- **The binary column loop reads every cell**: over cells that are NULL
where the bitmap says so and well formed elsewhere, standing anywhere in the
storage, each range it records slices out its cell's value. The induction is
on the cells; the invariant is that what is left to read is the rest of the
storage. -/
theorem decodeBinaryValues_cells {nullBitmap storage : List UInt8} {columns : List ColumnType}
    {cells : List (Option (List UInt8 × List UInt8))}
    (hcells : List.Forall₂ (fun ty cell => ∀ wire value, cell = some (wire, value) → BinaryValue ty wire value)
      columns cells)
    {columnIdx : Nat} (hnull : ∀ i (h : i < cells.length), isNullAt nullBitmap (columnIdx + i + 2) = some cells[i].isNone)
    {lead post : List UInt8} (hstorage : storage = lead ++ binaryWires cells ++ post) :
    ∃ values, decodeBinaryValues nullBitmap storage.length columnIdx columns (binaryWires cells ++ post) = some values ∧
      List.Forall₂ (fun range cell => Row.slice storage range = some (cell.map Prod.snd)) values cells := by
  induction hcells generalizing columnIdx lead with
  | nil => exact ⟨[], rfl, .nil⟩
  | @cons ty cell columns cells hcell _ ih =>
    have hhead : isNullAt nullBitmap (columnIdx + 2) = some cell.isNone := by
      have hi := hnull 0 (by simp)
      rwa [Nat.add_zero, List.getElem_cons_zero] at hi
    have htail : ∀ i (h : i < cells.length), isNullAt nullBitmap (columnIdx + 1 + i + 2) = some cells[i].isNone := by
      intro i h
      have hi := hnull (i + 1) (by simp; omega)
      rwa [show columnIdx + (i + 1) + 2 = columnIdx + 1 + i + 2 by omega, List.getElem_cons_succ] at hi
    cases cell with
    | none =>
      -- a NULL takes no bytes
      obtain ⟨values, hrun, hslices⟩ := ih htail (by simpa using hstorage)
      refine ⟨none :: values, ?_, .cons rfl hslices⟩
      simp only [binaryWires_cons_none, decodeBinaryValues, hhead, Option.isNone_none, Option.bind_eq_bind,
        Option.bind_some, if_true, hrun, Option.map_eq_map, Option.map_some]
    | some cell =>
      obtain ⟨wire, value⟩ := cell
      have hvalue := hcell wire value rfl
      obtain ⟨lenPrefix, rfl⟩ := hvalue.exists_prefix
      have hstorage' : storage = (lead ++ lenPrefix ++ value) ++ binaryWires cells ++ post := by
        simp [hstorage]
      obtain ⟨values, hrun, hslices⟩ := ih htail hstorage'
      -- the value starts after what stood before it and its own length
      have hstart : storage.length - (value ++ (binaryWires cells ++ post)).length = (lead ++ lenPrefix).length := by
        rw [hstorage']
        simp only [List.length_append]
        omega
      have hslice : Row.slice storage (some ((lead ++ lenPrefix).length, (lead ++ lenPrefix).length + value.length)) =
          some (some value) := by
        rw [hstorage']
        simpa only [List.append_assoc] using Row.slice_append (lead ++ lenPrefix) value (binaryWires cells ++ post)
      refine ⟨some ((lead ++ lenPrefix).length, (lead ++ lenPrefix).length + value.length) :: values, ?_,
        .cons hslice hslices⟩
      have hfits : ¬(value ++ (binaryWires cells ++ post)).length < value.length := by simp
      have hsize := binaryValueSize_of_binaryValue hvalue (binaryWires cells ++ post)
      rw [List.append_assoc] at hsize
      simp only [binaryWires_cons_some, decodeBinaryValues, hhead, Option.isNone_some, Bool.false_eq_true, if_false,
        Option.bind_eq_bind, Option.bind_some, List.append_assoc, hsize, hstart, hfits, List.drop_left, hrun,
        Option.map_eq_map, Option.map_some]

/-- **The text column loop reads every cell** the same way: a NULL is its one
`0xFB`, and no length-encoded length starts with that byte. -/
theorem decodeTextValues_cells {storage post : List UInt8} :
    ∀ {columns : List ColumnType} {cells : List (Option (List UInt8 × List UInt8))},
      columns.length = cells.length →
      (∀ cell ∈ cells, ∀ wire value, cell = some (wire, value) → TextValue wire value) →
      ∀ {lead : List UInt8}, storage = lead ++ textWires cells ++ post →
      ∃ values, decodeTextValues storage.length columns (textWires cells ++ post) = some values ∧
        List.Forall₂ (fun range cell => Row.slice storage range = some (cell.map Prod.snd)) values cells
  | [], [], _, _, _, _ => ⟨[], rfl, .nil⟩
  | _ :: columns, none :: cells, hlen, hcells, lead, hstorage => by
    -- a NULL is one byte, `0xFB`
    have hstorage' : storage = (lead ++ [0xFB]) ++ textWires cells ++ post := by simp [hstorage]
    obtain ⟨values, hrun, hslices⟩ :=
      decodeTextValues_cells (by simpa using hlen) (fun c hc => hcells c (.tail _ hc)) hstorage'
    refine ⟨none :: values, ?_, .cons rfl hslices⟩
    simp only [textWires_cons_none, List.cons_append, decodeTextValues, List.head?_cons, Option.bind_eq_bind,
      Option.bind_some, if_true, List.tail_cons, hrun, Option.map_eq_map, Option.map_some]
  | _ :: columns, some (wire, value) :: cells, hlen, hcells, lead, hstorage => by
    obtain ⟨hlt, lenenc, hlenenc, rfl⟩ := hcells _ (.head _) wire value rfl
    obtain ⟨b, rest, hcons, hb⟩ := exists_cons_ne_of_isLenenc hlenenc
    have hstorage' : storage = (lead ++ lenenc ++ value) ++ textWires cells ++ post := by simp [hstorage]
    obtain ⟨values, hrun, hslices⟩ :=
      decodeTextValues_cells (by simpa using hlen) (fun c hc => hcells c (.tail _ hc)) hstorage'
    have hsize : value.length.toUInt64.toNat = value.length := by
      rw [Nat.toUInt64_eq, UInt64.toNat_ofNat', Nat.mod_eq_of_lt hlt]
    have hread := getUintLenenc_of_isLenenc hlenenc (value ++ (textWires cells ++ post))
    -- the value starts after what stood before it and its length
    have hstart : storage.length - (value ++ (textWires cells ++ post)).length = (lead ++ lenenc).length := by
      rw [hstorage']
      simp only [List.length_append]
      omega
    have hslice : Row.slice storage (some ((lead ++ lenenc).length, (lead ++ lenenc).length + value.length)) =
        some (some value) := by
      rw [hstorage']
      simpa only [List.append_assoc] using Row.slice_append (lead ++ lenenc) value (textWires cells ++ post)
    have hfits : ¬(value ++ (textWires cells ++ post)).length < value.length := by simp
    refine ⟨some ((lead ++ lenenc).length, (lead ++ lenenc).length + value.length) :: values, ?_,
      .cons hslice hslices⟩
    have hfirst : (lenenc ++ value ++ (textWires cells ++ post)).head? = some b := by simp [hcons]
    simp only [textWires_cons_some, List.append_assoc] at hfirst ⊢
    simp only [decodeTextValues, hfirst, Option.bind_eq_bind, Option.bind_some, hb, if_false, hread, hsize, hstart,
      hfits, List.drop_left, hrun, Option.map_eq_map, Option.map_some]

/-! ## The rows read back -/

/-- The ranges a loop recorded give back the cells, through `Row::get`. -/
theorem Row.get_of_forall₂ {storage : List UInt8} {values : List (Option (Nat × Nat))}
    {cells : List (Option (List UInt8 × List UInt8))}
    (h : List.Forall₂ (fun range cell => Row.slice storage range = some (cell.map Prod.snd)) values cells)
    (i : Nat) (hi : i < cells.length) : (Row.mk storage values).get i = some (cells[i].map Prod.snd) := by
  obtain ⟨hlen, hget⟩ := List.forall₂_iff_get.mp h
  have hv : i < values.length := hlen ▸ hi
  simpa [Row.get, List.getElem?_eq_getElem hv] using hget i hv hi

/-- **A binary row reads back**: a `0x00` header, a bitmap of the right length
marking the NULL cells at bit `i + 2`, and the other cells well formed. -/
theorem BinaryRow.decodeWith_cells {columns : List ColumnType} {cells : List (Option (List UInt8 × List UInt8))}
    {nullBitmap : List UInt8}
    (hcells : List.Forall₂ (fun ty cell => ∀ wire value, cell = some (wire, value) → BinaryValue ty wire value)
      columns cells)
    (hlen : nullBitmap.length = (columns.length + 9) / 8)
    (hbits : ∀ i (h : i < cells.length), bitAt nullBitmap (i + 2) = cells[i].isNone) :
    ∃ row, (decodeWith (0x00 :: (nullBitmap ++ binaryWires cells)) columns).run = some (.ok row) ∧
      row.values.length = columns.length ∧ ∀ i (h : i < cells.length), row.get i = some (cells[i].map Prod.snd) := by
  have hn := hcells.length_eq
  -- every column's bit is in the bitmap
  have hnull : ∀ i (h : i < cells.length), isNullAt nullBitmap (0 + i + 2) = some cells[i].isNone := by
    intro i h
    rw [Nat.zero_add, isNullAt_eq_bitAt (by omega), hbits i h]
  obtain ⟨values, hrun, hslices⟩ :=
    decodeBinaryValues_cells hcells hnull (show nullBitmap ++ binaryWires cells = nullBitmap ++ binaryWires cells ++ []
      by rw [List.append_nil])
  rw [List.append_nil] at hrun
  have hshort : ¬(nullBitmap ++ binaryWires cells).length < nullBitmap.length := by simp
  refine ⟨⟨nullBitmap ++ binaryWires cells, values⟩, ?_, ?_, Row.get_of_forall₂ hslices⟩
  · simp only [decodeWith, ne_eq, not_true_eq_false, if_false, hshort, ← hlen, List.take_left', List.drop_left',
      hrun]
    rfl
  · rw [hslices.length_eq, hn]

/-- **A text row reads back**: `0xFB` for a NULL, a length-encoded length and
the bytes otherwise. -/
theorem TextRow.decodeWith_cells {columns : List ColumnType} {cells : List (Option (List UInt8 × List UInt8))}
    (hlen : columns.length = cells.length)
    (hcells : ∀ cell ∈ cells, ∀ wire value, cell = some (wire, value) → TextValue wire value) :
    ∃ row, decodeWith (textWires cells) columns = some row ∧ row.values.length = columns.length ∧
      ∀ i (h : i < cells.length), row.get i = some (cells[i].map Prod.snd) := by
  obtain ⟨values, hrun, hslices⟩ :=
    decodeTextValues_cells hlen hcells (show textWires cells = [] ++ textWires cells ++ [] by simp)
  rw [List.append_nil] at hrun
  refine ⟨⟨textWires cells, values⟩, ?_, ?_, Row.get_of_forall₂ hslices⟩
  · rw [decodeWith, hrun]
    rfl
  · rw [hslices.length_eq, hlen]

theorem row_decoders_agree :
    (∀ (columns : List ColumnType) (cells : List (Option (List UInt8 × List UInt8))) (nullBitmap : List UInt8),
      List.Forall₂ (fun ty cell => ∀ wire value, cell = some (wire, value) → BinaryValue ty wire value)
        columns cells →
      nullBitmap.length = (columns.length + 9) / 8 →
      (∀ i (h : i < cells.length), bitAt nullBitmap (i + 2) = cells[i].isNone) →
      ∃ row, (BinaryRow.decodeWith (0x00 :: (nullBitmap ++ binaryWires cells)) columns).run = some (.ok row) ∧
        row.values.length = columns.length ∧
        ∀ i (h : i < cells.length), row.get i = some (cells[i].map Prod.snd)) ∧
    (∀ (columns : List ColumnType) (cells : List (Option (List UInt8 × List UInt8))),
      columns.length = cells.length →
      (∀ cell ∈ cells, ∀ wire value, cell = some (wire, value) → TextValue wire value) →
      ∃ row, TextRow.decodeWith (textWires cells) columns = some row ∧ row.values.length = columns.length ∧
        ∀ i (h : i < cells.length), row.get i = some (cells[i].map Prod.snd)) :=
  ⟨fun _ _ _ hcells hlen hbits => BinaryRow.decodeWith_cells hcells hlen hbits,
    fun _ _ hlen hcells => TextRow.decodeWith_cells hlen hcells⟩

theorem row_decoders_of_int_null_date :
    (∃ row, (BinaryRow.decodeWith (0x00 :: ([8] ++ binaryWires [some ([7, 0, 0, 0], [7, 0, 0, 0]), none,
        some ([4, 0xE8, 0x07, 2, 29], [4, 0xE8, 0x07, 2, 29])])) [.long, .string, .date]).run = some (.ok row) ∧
      row.values.length = 3 ∧
      ∀ i (h : i < 3), row.get i = some (([some ([7, 0, 0, 0], [7, 0, 0, 0]), none,
        some ([4, 0xE8, 0x07, 2, 29], [4, 0xE8, 0x07, 2, 29])] : List (Option (List UInt8 × List UInt8)))[i].map
          Prod.snd)) ∧
    (∃ row, TextRow.decodeWith (textWires [some ([2, 0x68, 0x69], [0x68, 0x69]), none]) [.varChar, .long] = some row ∧
      row.values.length = 2 ∧
      ∀ i (h : i < 2), row.get i = some (([some ([2, 0x68, 0x69], [0x68, 0x69]), none] :
        List (Option (List UInt8 × List UInt8)))[i].map Prod.snd)) := by
  refine ⟨row_decoders_agree.1 [.long, .string, .date]
      [some ([7, 0, 0, 0], [7, 0, 0, 0]), none, some ([4, 0xE8, 0x07, 2, 29], [4, 0xE8, 0x07, 2, 29])] [8]
      ?_ rfl (by decide),
    row_decoders_agree.2 [.varChar, .long] [some ([2, 0x68, 0x69], [0x68, 0x69]), none] rfl ?_⟩
  · refine .cons ?_ (.cons ?_ (.cons ?_ .nil))
    · rintro wire value ⟨⟩
      exact .inl ⟨rfl, rfl⟩
    · rintro wire value ⟨⟩
    · rintro wire value ⟨⟩
      exact .inr (.inr ⟨rfl, 4, [0xE8, 0x07, 2, 29], rfl, rfl, rfl⟩)
  · rintro cell hcell wire value rfl
    simp only [List.mem_cons, Option.some.injEq, Prod.mk.injEq, reduceCtorEq, List.not_mem_nil, or_false] at hcell
    obtain ⟨rfl, rfl⟩ := hcell
    exact ⟨by decide, [2], .inl ⟨by decide, rfl⟩, rfl⟩

end Sqlx.MySql
