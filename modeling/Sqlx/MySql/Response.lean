import Sqlx.MySql.Row
import Sqlx.MySql.Packet
import Sqlx.Lib.Utf8

/-!
# MySQL — the packets of a response (`protocol/response/{ok,eof}.rs`, `protocol/statement/prepare_ok.rs`, `protocol/text/column.rs`)

The reader tells the packets of a response apart by their first byte: `0x00`
opens an OK packet (and `COM_STMT_PREPARE_OK`), `0xff` an ERR packet, `0xfe`
in a packet shorter than nine bytes an EOF packet (an OK packet under
`DEPRECATE_EOF`), and anything else opens a result set with its column
count. The decoders read with `Bytes` getters, which panic past the end: a
panic is `none`, as in `Io`.

`OkPacket.decode_of_le_250` and `EofPacket.decode_status` say what the
reader of the waiting queue takes from them, the status flags.
-/

namespace Sqlx.MySql

open Wire

/-- `{:02x}`: at least two lower-case hex digits. -/
def hex02 (b : Nat) : String :=
  let ds := Nat.toDigits 16 b
  String.ofList (List.replicate (2 - ds.length) '0' ++ ds)

/-- `{:x}`: lower-case hex digits. -/
def hexDigits (b : Nat) : String := String.ofList (Nat.toDigits 16 b)

/-- `Status::SERVER_MORE_RESULTS_EXISTS`, bit 3 of the status flags;
`from_bits_truncate` drops only bits that name no flag. -/
def Status.moreResultsExists (status : Nat) : Bool := status.testBit 3

/-- `OkPacket`. -/
structure OkPacket where
  affectedRows : UInt64
  lastInsertId : UInt64
  status : Nat
  warnings : Nat
  deriving DecidableEq, Repr

/-- `OkPacket::decode_with`: the header, `0x00` or `0xfe`, two length-encoded
integers, then the status and the warnings, two little-endian bytes each. -/
def OkPacket.decode : List UInt8 → ExceptT Error Option OkPacket
  | [] => ExceptT.lift none
  | header :: buf =>
    if header ≠ 0 ∧ header ≠ 0xfe then
      let found := hex02 header.toNat
      throw (.protocol s!"expected 0x00 or 0xfe (OK_Packet) but found 0x{found}")
    else ExceptT.lift do
      let (affectedRows, buf) ← getUintLenenc buf
      let (lastInsertId, buf) ← getUintLenenc buf
      let (status, buf) ← readLe 2 buf
      let (warnings, _) ← readLe 2 buf
      pure ⟨affectedRows, lastInsertId, status, warnings⟩

/-- `EofPacket`. -/
structure EofPacket where
  warnings : Nat
  status : Nat
  deriving DecidableEq, Repr

/-- `EofPacket::decode_with`: the header `0xfe`, the warnings, the status. -/
def EofPacket.decode : List UInt8 → ExceptT Error Option EofPacket
  | [] => ExceptT.lift none
  | header :: buf =>
    if header ≠ 0xfe then
      let found := hexDigits header.toNat
      throw (.protocol s!"expected 0xfe (EOF_Packet) but found 0x{found}")
    else ExceptT.lift do
      let (warnings, buf) ← readLe 2 buf
      let (status, _) ← readLe 2 buf
      pure ⟨warnings, status⟩

/-- `Packet::eof`: under `DEPRECATE_EOF` the end of a result set is an OK
packet, read as one. -/
def Packet.eof (deprecateEof : Bool) (packet : List UInt8) : ExceptT Error Option EofPacket :=
  if deprecateEof then (fun ok => ⟨ok.warnings, ok.status⟩) <$> OkPacket.decode packet
  else EofPacket.decode packet

/-- `PrepareOk`. -/
structure PrepareOk where
  statementId : UInt32
  columns : Nat
  params : Nat
  warnings : Nat
  deriving DecidableEq, Repr

/-- `PrepareOk::decode_with`: twelve bytes, the status `0x00`, the statement
id, the column and parameter counts, a reserved byte and the warnings. -/
def PrepareOk.decode (buf : List UInt8) : ExceptT Error Option PrepareOk :=
  if buf.length < 12 then
    let got := buf.length
    throw (.protocol s!"PrepareOk expected 12 bytes but got {got} bytes")
  else match buf with
    | [] => ExceptT.lift none
    | status :: slice =>
      if status ≠ 0 then
        let found := hex02 status.toNat
        throw (.protocol s!"expected 0x00 (COM_STMT_PREPARE_OK) but found 0x{found}")
      else ExceptT.lift do
        let (statementId, slice) ← readLe 4 slice
        let (columns, slice) ← readLe 2 slice
        let (params, slice) ← readLe 2 slice
        let (warnings, _) ← readLe 2 (slice.drop 1)
        pure ⟨statementId.toUInt32, columns, params, warnings⟩

/-! ## Column definitions -/

/-- `ColumnType::try_from_u16`. -/
def ColumnType.tryFromU16 (id : UInt8) : Except Error ColumnType :=
  if id = 0x00 then .ok .decimal else if id = 0x01 then .ok .tiny
  else if id = 0x02 then .ok .short else if id = 0x03 then .ok .long
  else if id = 0x04 then .ok .float else if id = 0x05 then .ok .double
  else if id = 0x06 then .ok .null else if id = 0x07 then .ok .timestamp
  else if id = 0x08 then .ok .longLong else if id = 0x09 then .ok .int24
  else if id = 0x0a then .ok .date else if id = 0x0b then .ok .time
  else if id = 0x0c then .ok .datetime else if id = 0x0d then .ok .year
  else if id = 0x0f then .ok .varChar else if id = 0x10 then .ok .bit
  else if id = 0xf5 then .ok .json else if id = 0xf6 then .ok .newDecimal
  else if id = 0xf7 then .ok .enum else if id = 0xf8 then .ok .set
  else if id = 0xf9 then .ok .tinyBlob else if id = 0xfa then .ok .mediumBlob
  else if id = 0xfb then .ok .longBlob else if id = 0xfc then .ok .blob
  else if id = 0xfd then .ok .varString else if id = 0xfe then .ok .string
  else if id = 0xff then .ok .geometry
  else
    let found := hex02 id.toNat
    .error (.protocol s!"unknown column type 0x{found}")

/-- `ColumnDefinition`, with the fields the driver reads; the catalog, schema,
tables, collation and decimals are read past. -/
structure ColumnDefinition where
  «alias» : List UInt8
  name : List UInt8
  maxSize : Nat
  type : ColumnType
  flags : Nat

/-- `ColumnDefinition::decode_with`: six length-encoded strings, the length of
the fixed fields, then the collation, size, type, flags and decimals; the
type code is checked once everything is read. -/
def ColumnDefinition.decode (buf : List UInt8) : ExceptT Error Option ColumnDefinition := do
  let (_catalog, buf) ← ExceptT.lift (getBytesLenenc buf)
  let (_schema, buf) ← ExceptT.lift (getBytesLenenc buf)
  let (_tableAlias, buf) ← ExceptT.lift (getBytesLenenc buf)
  let (_table, buf) ← ExceptT.lift (getBytesLenenc buf)
  let («alias», buf) ← ExceptT.lift (getBytesLenenc buf)
  let (name, buf) ← ExceptT.lift (getBytesLenenc buf)
  let (_nextLen, buf) ← ExceptT.lift (getUintLenenc buf)
  let (_collation, buf) ← ExceptT.lift (readLe 2 buf)
  let (maxSize, buf) ← ExceptT.lift (readLe 4 buf)
  let (typeId, buf) ← ExceptT.lift (readLe 1 buf)
  let (flags, buf) ← ExceptT.lift (readLe 2 buf)
  let (_decimals, _) ← ExceptT.lift (readLe 1 buf)
  let type ← (ColumnType.tryFromU16 typeId.toUInt8 : Except Error ColumnType)
  pure ⟨«alias», name, maxSize, type, flags⟩

/-- `MySqlColumn`: its `type_info` is the definition's type, flags and size. -/
structure MySqlColumn where
  ordinal : Nat
  name : List UInt8
  type : ColumnType
  flags : Nat
  maxSize : Nat

/-- `recv_next_result_column`: the alias names the column unless it is
empty; both must be UTF-8, the name checked first. -/
def recvNextResultColumn (definition : ColumnDefinition) (ordinal : Nat) : Except Error MySqlColumn := do
  let name ← (Utf8.fromUtf8 definition.name).mapError Error.protocol
  let «alias» ← (Utf8.fromUtf8 definition.«alias»).mapError Error.protocol
  let name := if «alias» ≠ [] then «alias» else name
  pure ⟨ordinal, name, definition.type, definition.flags, definition.maxSize⟩

/-! ## What the reader takes from them -/

/-- An OK packet whose two counts are single bytes reads back as its fields;
its status is its fourth and fifth bytes. -/
theorem OkPacket.decode_of_le_250 {header s₀ s₁ w₀ w₁ : UInt8} {affectedRows lastInsertId : UInt64}
    (hh : header = 0 ∨ header = 0xfe) (ha : affectedRows ≤ 250) (hl : lastInsertId ≤ 250)
    (rest : List UInt8) :
    (OkPacket.decode (header :: affectedRows.toUInt8 :: lastInsertId.toUInt8 :: s₀ :: s₁ :: w₀ :: w₁ :: rest)).run =
      some (.ok ⟨affectedRows, lastInsertId, leValue [s₀, s₁], leValue [w₀, w₁]⟩) := by
  have hs := readLe_append (a := [s₀, s₁]) (w := 2) rfl (w₀ :: w₁ :: rest)
  have hw := readLe_append (a := [w₀, w₁]) (w := 2) rfl rest
  simp only [List.cons_append, List.nil_append] at hs hw
  have hok : ¬(header ≠ 0 ∧ header ≠ 0xfe) := by tauto
  simp only [OkPacket.decode, hok, if_false, Option.bind_eq_bind, getUintLenenc_byte ha, Option.bind_some,
    getUintLenenc_byte hl, hs, hw]
  rfl

/-- An EOF packet's status is its fourth and fifth bytes. -/
theorem EofPacket.decode_status (w₀ w₁ s₀ s₁ : UInt8) (rest : List UInt8) :
    (EofPacket.decode (0xfe :: w₀ :: w₁ :: s₀ :: s₁ :: rest)).run =
      some (.ok ⟨leValue [w₀, w₁], leValue [s₀, s₁]⟩) := by
  have hw := readLe_append (a := [w₀, w₁]) (w := 2) rfl (s₀ :: s₁ :: rest)
  have hs := readLe_append (a := [s₀, s₁]) (w := 2) rfl rest
  simp only [List.cons_append, List.nil_append] at hw hs
  simp only [EofPacket.decode, ne_eq, not_true_eq_false, if_false, Option.bind_eq_bind, hw, Option.bind_some, hs]
  rfl

end Sqlx.MySql
