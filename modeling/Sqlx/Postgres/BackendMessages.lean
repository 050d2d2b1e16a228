import Sqlx.Postgres.Stream
import Sqlx.Lib.Reader
import Sqlx.Lib.Utf8

/-!
# Postgres — the backend messages a connection reads (`message/*.rs`)

`ReceivedMessage::decode::<T>` checks the format byte against `T::FORMAT`
and hands the contents to `T::decode_body`; a protocol error of the body
comes back prefixed with the format. The bodies here are the ones the
executor reads: `ReadyForQuery` (a status byte), `ParameterDescription` (a
`u16` count of `u32` OIDs), `RowDescription` (a `u16` count of fields, each a
C-string name and eighteen bytes of ids and sizes) and the command tag of
`CommandComplete`, whose last word is the number of rows affected.

Two of the decoders index without a check: `ReadyForQuery` reads `buf[0]`
and `ParameterDescription` calls `get_u16` and `get_u32`, which panic on a
short body (`none`). `RowDescription` checks every length it reads.

`rowsAffected_of_count` is what `rows_affected` is for: a tag whose last
word is a count gives that count. `decodeBody_encode` reads back every
field list the protocol's layout can carry.
-/

namespace Sqlx.Postgres

open Wire

/-- `sqlx_core::Error`, in the kinds the connection raises. -/
inductive Error where
  /-- `Error::Protocol`, the text `err_protocol!` formats (without the
  source location the macro appends) -/
  | protocol (message : String)
  /-- `Error::Database`: the fields of the `ErrorResponse` the server sent -/
  | database (fields : List UInt8)
  /-- `Error::TypeNotFound { type_name }` -/
  | typeNotFound (typeName : String)
  deriving DecidableEq

/-- `{:?}` of a `BackendMessageFormat`, the derived `Debug`. -/
def BackendMessageFormat.debug : BackendMessageFormat → String
  | .authentication => "Authentication"
  | .backendKeyData => "BackendKeyData"
  | .bindComplete => "BindComplete"
  | .closeComplete => "CloseComplete"
  | .commandComplete => "CommandComplete"
  | .copyData => "CopyData"
  | .copyDone => "CopyDone"
  | .copyInResponse => "CopyInResponse"
  | .copyOutResponse => "CopyOutResponse"
  | .dataRow => "DataRow"
  | .emptyQueryResponse => "EmptyQueryResponse"
  | .errorResponse => "ErrorResponse"
  | .noData => "NoData"
  | .noticeResponse => "NoticeResponse"
  | .notificationResponse => "NotificationResponse"
  | .parameterDescription => "ParameterDescription"
  | .parameterStatus => "ParameterStatus"
  | .parseComplete => "ParseComplete"
  | .portalSuspended => "PortalSuspended"
  | .readyForQuery => "ReadyForQuery"
  | .rowDescription => "RowDescription"

/-- `ReceivedMessage::decode::<T>()`, for `T::FORMAT = expected`: another
format is an error, and a protocol error of the body names the format. -/
def ReceivedMessage.decode {α : Type} (expected : BackendMessageFormat)
    (decodeBody : List UInt8 → Option (Except Error α)) (m : ReceivedMessage) : Option (Except Error α) :=
  if expected ≠ m.format then
    some (.error (.protocol ("Postgres protocol error: expected " ++ expected.debug ++ ", got " ++ m.format.debug)))
  else
    (decodeBody m.contents).map fun
      | .error (.protocol s) => .error (.protocol ("Postgres protocol error (reading " ++ m.format.debug ++ "): " ++ s))
      | r => r

theorem ReceivedMessage.decode_of_ne {α : Type} {expected : BackendMessageFormat}
    {decodeBody : List UInt8 → Option (Except Error α)} {m : ReceivedMessage} (h : expected ≠ m.format) :
    ∃ e, m.decode expected decodeBody = some (.error e) :=
  ⟨_, if_pos h⟩

/-- A body that decodes decodes the same in its message. -/
theorem ReceivedMessage.decode_of_ok {α : Type} {decodeBody : List UInt8 → Option (Except Error α)}
    {m : ReceivedMessage} {a : α} (h : decodeBody m.contents = some (.ok a)) :
    m.decode m.format decodeBody = some (.ok a) := by
  rw [ReceivedMessage.decode, if_neg (not_not_intro rfl), h]
  rfl

/-! ## `ReadyForQuery` -/

/-- `TransactionStatus`. -/
inductive TransactionStatus where
  /-- not in a transaction block, `I` -/
  | idle
  /-- in a transaction block, `T` -/
  | transaction
  /-- in a failed transaction block, `E` -/
  | error
  deriving DecidableEq, Repr

/-- The byte a status is sent as, its `repr(u8)`. -/
def TransactionStatus.byte : TransactionStatus → UInt8
  | .idle => 0x49
  | .transaction => 0x54
  | .error => 0x45

/-- `{:?}` of a `char`: between single quotes, a single quote escaped and a
double quote not. -/
def charDebug (c : Char) : String :=
  "'" ++ (if c.toNat = 39 then "\\'" else if c.toNat = 34 then "\"" else Utf8.escapeDebug c) ++ "'"

/-- `ReadyForQuery::decode_body`; `buf[0]` panics on an empty body. -/
def ReadyForQuery.decodeBody (buf : List UInt8) : Option (Except Error TransactionStatus) :=
  match buf with
  | [] => none
  | status :: _ =>
    some <|
      if status = 0x49 then .ok .idle
      else if status = 0x54 then .ok .transaction
      else if status = 0x45 then .ok .error
      else .error (.protocol ("unknown transaction status: " ++ charDebug (Char.ofNat status.toNat)))

@[simp] theorem ReadyForQuery.decodeBody_byte (status : TransactionStatus) :
    ReadyForQuery.decodeBody [status.byte] = some (.ok status) := by
  cases status <;> rfl

-- `test_decode_ready_for_query`
example : ReadyForQuery.decodeBody [0x45] = some (.ok .error) := rfl

/-! ## `CommandComplete` -/

/-- `memrchr(b' ', tag)`: the index of the last space. -/
def lastSpace : List UInt8 → Option Nat
  | [] => none
  | b :: rest =>
    match lastSpace rest with
    | some i => some (i + 1)
    | none => if b = 0x20 then some 0 else none

/-- `atoi::<u64>` (`from_radix_10_signed_checked` of the `atoi` crate): an
optional `+` or `-`, then the digits that follow it, each added to ten times
the number (after `+` or no sign) or subtracted from it (after `-`), checked;
`none` when a step leaves the `u64` range, or when not even a sign was read. -/
def atoiU64 (text : List UInt8) : Option Nat :=
  match text with
  | [] => none
  | c :: rest =>
    if c = 0x2B then readDigits (2 ^ 64) 0 (rest.takeWhile isAsciiDigit)
    else if c = 0x2D then
      -- `Sign::Minus`: the number starts at 0, so only a digit 0 keeps it from going below
      (rest.takeWhile isAsciiDigit).foldlM
        (fun n d => if 10 * n < d.toNat - 0x30 then none else some (10 * n - (d.toNat - 0x30))) 0
    -- `(_, 0) => None`: neither a sign nor a digit
    else if isAsciiDigit c then readDigits (2 ^ 64) 0 ((c :: rest).takeWhile isAsciiDigit)
    else none

/-- `CommandComplete::rows_affected`: the number after the last space of the
tag, 0 when there is none. -/
def CommandComplete.rowsAffected (tag : List UInt8) : Nat :=
  ((lastSpace tag).bind fun i => atoiU64 (tag.drop (i + 1))).getD 0

-- `test_decode_command_complete_for_insert`, `_for_begin` and `_for_update`
example : CommandComplete.rowsAffected [0x49, 0x4E, 0x53, 0x45, 0x52, 0x54, 0x20, 0x30, 0x20, 0x31, 0x32, 0x31, 0x34, 0] = 1214 ∧
    CommandComplete.rowsAffected [0x42, 0x45, 0x47, 0x49, 0x4E, 0] = 0 ∧
    CommandComplete.rowsAffected [0x55, 0x50, 0x44, 0x41, 0x54, 0x45, 0x20, 0x35, 0] = 5 := by
  decide

theorem lastSpace_of_not_mem {bytes : List UInt8} (h : 0x20 ∉ bytes) : lastSpace bytes = none := by
  induction bytes with
  | nil => rfl
  | cons b bs ih =>
    rw [lastSpace, ih (fun hm => h (List.mem_cons_of_mem b hm)), if_neg (by rintro rfl; exact h List.mem_cons_self)]

theorem lastSpace_append {pre post : List UInt8} (hpost : 0x20 ∉ post) :
    lastSpace (pre ++ 0x20 :: post) = some pre.length := by
  induction pre with
  | nil => rw [List.nil_append, lastSpace, lastSpace_of_not_mem hpost, if_pos rfl, List.length_nil]
  | cons b bs ih => rw [List.cons_append, lastSpace, ih, List.length_cons]

theorem takeWhile_digits {n : Nat} {rest : List UInt8} (hrest : ∀ b ∈ rest.head?, isAsciiDigit b = false) :
    (decimalBytes n ++ rest).takeWhile isAsciiDigit = decimalBytes n := by
  rw [List.takeWhile_append_of_pos fun b hb => isAsciiDigit_of_mem_decimalBytes hb]
  cases rest with
  | nil => rw [List.takeWhile_nil, List.append_nil]
  | cons b bs =>
    have hb : isAsciiDigit b = false := hrest b rfl
    rw [List.takeWhile_cons_of_neg (by simp [hb]), List.append_nil]

/-- A tag whose last word is a count, closed by its NUL, gives that count. -/
theorem rowsAffected_of_count (command : List UInt8) {n : Nat} (hn : n < 2 ^ 64) :
    CommandComplete.rowsAffected (command ++ 0x20 :: (decimalBytes n ++ [0])) = n := by
  have hspace : (0x20 : UInt8) ∉ decimalBytes n ++ [0] := by
    intro h
    rcases List.mem_append.1 h with h | h
    · have := isAsciiDigit_of_mem_decimalBytes h
      revert this
      decide
    · cases List.mem_singleton.1 h
  have hdigits : (decimalBytes n ++ [0]).takeWhile isAsciiDigit = decimalBytes n :=
    takeWhile_digits fun b hb => by cases Option.mem_def.1 hb; rfl
  -- the count starts with a digit, not a sign
  obtain ⟨d, ds, hds⟩ := List.exists_cons_of_ne_nil (decimalBytes_ne_nil n)
  have hd : isAsciiDigit d = true := isAsciiDigit_of_mem_decimalBytes (hds ▸ List.mem_cons_self)
  have hplus : d ≠ 0x2B := by rintro rfl; exact absurd hd (by decide)
  have hminus : d ≠ 0x2D := by rintro rfl; exact absurd hd (by decide)
  have hread : atoiU64 (decimalBytes n ++ [0]) = some n := by
    rw [hds, List.cons_append, atoiU64, if_neg hplus, if_neg hminus, if_pos hd, ← List.cons_append, ← hds, hdigits,
      readDigits_decimalBytes hn]
  have hdrop : (command ++ 0x20 :: (decimalBytes n ++ [0])).drop (command.length + 1) = decimalBytes n ++ [0] := by
    simp [List.drop_append]
  rw [CommandComplete.rowsAffected, lastSpace_append hspace, Option.bind_some, hdrop, hread]
  rfl

theorem rowsAffected_of_insert_tag :
    (1214 : Nat) < 2 ^ 64 ∧
      CommandComplete.rowsAffected ([0x49, 0x4E, 0x53, 0x45, 0x52, 0x54, 0x20, 0x30] ++ 0x20 :: (decimalBytes 1214 ++ [0])) =
        1214 :=
  ⟨by decide, rowsAffected_of_count _ (by decide)⟩

/-! ## `ParameterDescription` -/

/-- `ParameterDescription::decode_body`: a `u16` count, then that many `u32`
OIDs; `get_u16` and `get_u32` panic past the end. -/
def ParameterDescription.decodeBody (buf : List UInt8) : Option (Except Error (List Nat)) :=
  match readBe 2 buf with
  | none => none
  | some (cnt, rest) => (readBes 4 cnt rest).map fun p => .ok p.1

-- `test_decode_parameter_description`
example : ParameterDescription.decodeBody [0, 2, 0, 0, 0, 0, 0, 0, 5, 0] = some (.ok [0, 0x500]) := by decide

/-! ## `RowDescription` -/

/-- `Field` of a `RowDescription`; the name is the UTF-8 checked bytes. -/
structure Field where
  name : List UInt8
  relationId : Option Nat
  relationAttributeNo : Option Int
  dataTypeId : Nat
  dataTypeSize : Int
  typeModifier : Int
  format : Int
  deriving DecidableEq, Repr

/-- `get_str_nul`: the bytes up to the first NUL, which must be UTF-8. -/
def getStrNul (buf : List UInt8) : Except Error (List UInt8 × List UInt8) :=
  match readCString buf with
  | none => .error (.protocol "expected NUL in byte sequence")
  | some (bytes, rest) =>
    match Utf8.fromUtf8 bytes with
    | .error e => .error (.protocol e)
    | .ok name => .ok (name, rest)

/-- The eighteen bytes after a field's name, as `decode_body` reads them; a
zero relation id or attribute number is `None`. -/
def Field.ofBytes (name : List UInt8) (buf : List UInt8) : Field :=
  let relationId := beValue (buf.take 4)
  let relationAttributeNo := ofTwos 16 (beValue ((buf.drop 4).take 2))
  { name
    relationId := if relationId = 0 then none else some relationId
    relationAttributeNo := if relationAttributeNo = 0 then none else some relationAttributeNo
    dataTypeId := beValue ((buf.drop 6).take 4)
    dataTypeSize := ofTwos 16 (beValue ((buf.drop 10).take 2))
    typeModifier := ofTwos 32 (beValue ((buf.drop 12).take 4))
    format := ofTwos 16 (beValue ((buf.drop 16).take 2)) }

/-- The loop of `RowDescription::decode_body`: `cnt` more fields. -/
def decodeFields : Nat → List UInt8 → Except Error (List Field)
  | 0, _ => .ok []
  | cnt + 1, buf =>
    match getStrNul buf with
    | .error e => .error e
    | .ok (name, buf) =>
      if buf.length < 18 then
        let shown := Utf8.debug name
        let got := buf.length
        .error (.protocol s!"expected at least 18 bytes after field name {shown}, got {got}")
      else (decodeFields cnt (buf.drop 18)).map (Field.ofBytes name buf :: ·)

/-- `RowDescription::decode_body`. -/
def RowDescription.decodeBody (buf : List UInt8) : Except Error (List Field) :=
  if buf.length < 2 then
    let got := buf.length
    .error (.protocol s!"expected at least 2 bytes, got {got}")
  else decodeFields (beValue (buf.take 2)) (buf.drop 2)

/-! ### The layout it reads back -/

/-- The eighteen bytes after a field's name as the protocol lays them out:
the relation id and attribute number (0 for none), the type OID, size,
modifier and format code, big-endian, the signed ones in two's complement. -/
def Field.encodeTail (f : Field) : List UInt8 :=
  beBytes 4 (f.relationId.getD 0) ++ beBytes 2 (twos 16 (f.relationAttributeNo.getD 0)) ++
    beBytes 4 f.dataTypeId ++ beBytes 2 (twos 16 f.dataTypeSize) ++ beBytes 4 (twos 32 f.typeModifier) ++
    beBytes 2 (twos 16 f.format)

/-- A field: its name, a NUL, and the eighteen bytes. -/
def Field.encode (f : Field) : List UInt8 := f.name ++ [0] ++ f.encodeTail

/-- The body of a `RowDescription` with these fields. -/
def RowDescription.encode (fields : List Field) : List UInt8 :=
  beBytes 2 fields.length ++ fields.flatMap Field.encode

/-- A field the layout carries: a UTF-8 name without a NUL, ids that fit in
their `u32`s with `Some` never zero, and signed values in range. -/
structure Field.Fits (f : Field) : Prop where
  name : Utf8.utf8Error f.name = none
  nameNoNul : 0 ∉ f.name
  relationId : ∀ r ∈ f.relationId, 0 < r ∧ r < 2 ^ 32
  relationAttributeNo : ∀ a ∈ f.relationAttributeNo, a ≠ 0 ∧ -32768 ≤ a ∧ a < 32768
  dataTypeId : f.dataTypeId < 2 ^ 32
  dataTypeSize : -32768 ≤ f.dataTypeSize ∧ f.dataTypeSize < 32768
  typeModifier : -2147483648 ≤ f.typeModifier ∧ f.typeModifier < 2147483648
  format : -32768 ≤ f.format ∧ f.format < 32768

@[simp] theorem length_beBytes (w n : Nat) : (beBytes w n).length = w := by
  simp [beBytes]

theorem Field.length_encodeTail (f : Field) : f.encodeTail.length = 18 := by
  simp [Field.encodeTail]

/-- A signed value of `w` bits comes back from its two's complement bytes. -/
theorem ofTwos_beValue_beBytes {w k : Nat} (hw : 0 < w) (hk : 2 ^ w = 256 ^ k) {x : Int}
    (hlo : -((2 ^ (w - 1) : Nat) : Int) ≤ x) (hhi : x < (2 ^ (w - 1) : Nat)) :
    ofTwos w (beValue (beBytes k (twos w x))) = x := by
  rw [beValue_beBytes_of_lt (hk ▸ twos_lt w x)]
  exact ofTwos_twos hw hlo hhi

theorem Field.ofBytes_encodeTail {f : Field} (hf : f.Fits) (rest : List UInt8) :
    Field.ofBytes f.name (f.encodeTail ++ rest) = f := by
  obtain ⟨name, relationId, relationAttributeNo, dataTypeId, dataTypeSize, typeModifier, format⟩ := f
  obtain ⟨-, -, hrel, hattr, htype, hsize, hmod, hformat⟩ := hf
  dsimp only at hrel hattr htype hsize hmod hformat
  -- an absent id or attribute number is sent as 0, which reads back as `None`
  have hrel' : relationId.getD 0 < 2 ^ 32 := by
    cases relationId with
    | none => decide
    | some r => exact (hrel r rfl).2
  have hattr' : -32768 ≤ relationAttributeNo.getD 0 ∧ relationAttributeNo.getD 0 < 32768 := by
    cases relationAttributeNo with
    | none => decide
    | some a => exact (hattr a rfl).2
  have hv₁ : beValue (beBytes 4 (relationId.getD 0)) = relationId.getD 0 := beValue_beBytes_of_lt hrel'
  have hv₂ : ofTwos 16 (beValue (beBytes 2 (twos 16 (relationAttributeNo.getD 0)))) = relationAttributeNo.getD 0 :=
    ofTwos_beValue_beBytes (by norm_num) (by norm_num) (by norm_num; omega) (by norm_num; omega)
  have hv₃ : beValue (beBytes 4 dataTypeId) = dataTypeId := beValue_beBytes_of_lt htype
  have hv₄ : ofTwos 16 (beValue (beBytes 2 (twos 16 dataTypeSize))) = dataTypeSize :=
    ofTwos_beValue_beBytes (by norm_num) (by norm_num) (by norm_num; omega) (by norm_num; omega)
  have hv₅ : ofTwos 32 (beValue (beBytes 4 (twos 32 typeModifier))) = typeModifier :=
    ofTwos_beValue_beBytes (by norm_num) (by norm_num) (by norm_num; omega) (by norm_num; omega)
  have hv₆ : ofTwos 16 (beValue (beBytes 2 (twos 16 format))) = format :=
    ofTwos_beValue_beBytes (by norm_num) (by norm_num) (by norm_num; omega) (by norm_num; omega)
  simp only [Field.encodeTail, Field.ofBytes, Field.mk.injEq, true_and]
  simp [List.drop_append, List.drop_eq_nil_of_le, hv₁, hv₂, hv₃, hv₄, hv₅, hv₆]
  refine ⟨?_, ?_⟩
  · cases relationId with
    | none => rfl
    | some r => simp [Nat.ne_of_gt (hrel r rfl).1]
  · cases relationAttributeNo with
    | none => rfl
    | some a => simp [(hattr a rfl).1]

theorem getStrNul_encode {f : Field} (hf : f.Fits) (rest : List UInt8) :
    getStrNul (f.name ++ [0] ++ rest) = .ok (f.name, rest) := by
  rw [getStrNul, List.append_assoc, List.singleton_append, readCString_append hf.nameNoNul]
  simp only [Utf8.fromUtf8, hf.name]

theorem decodeFields_encode : ∀ (fields : List Field), (∀ f ∈ fields, f.Fits) → ∀ rest : List UInt8,
    decodeFields fields.length (fields.flatMap Field.encode ++ rest) = .ok fields
  | [], _, _ => rfl
  | f :: fs, hfits, rest => by
    have hf := hfits f List.mem_cons_self
    have htail := decodeFields_encode fs (fun g hg => hfits g (List.mem_cons_of_mem f hg)) rest
    have hbytes : (f :: fs).flatMap Field.encode ++ rest =
        f.name ++ [0] ++ (f.encodeTail ++ (fs.flatMap Field.encode ++ rest)) := by
      simp only [List.flatMap_cons, Field.encode, List.append_assoc]
    rw [List.length_cons, decodeFields, hbytes, getStrNul_encode hf]
    simp only
    rw [if_neg (by rw [List.length_append, Field.length_encodeTail]; omega),
      List.drop_left' (Field.length_encodeTail f), htail, Field.ofBytes_encodeTail hf]
    rfl

/-- The `id int4` column of a table: relation 16384, attribute 1, the type
`int4` (OID 23) of four bytes, no modifier, the text format. -/
def idColumn : Field := ⟨[0x69, 0x64], some 16384, some 1, 23, 4, -1, 0⟩

/-- `RowDescription::decode_body` reads back every field list the protocol
lays out, in order. -/
theorem decodeBody_encode {fields : List Field} (hfits : ∀ f ∈ fields, f.Fits) (hlen : fields.length < 2 ^ 16) :
    RowDescription.decodeBody (RowDescription.encode fields) = .ok fields := by
  have h2 := length_beBytes 2 fields.length
  rw [RowDescription.decodeBody, RowDescription.encode, if_neg (by rw [List.length_append, h2]; omega),
    List.take_append_of_le_length (by rw [h2]), List.take_of_length_le (by rw [h2]),
    beValue_beBytes_of_lt (by omega), List.drop_append_of_le_length (by rw [h2]),
    List.drop_of_length_le (by rw [h2]), List.nil_append]
  simpa using decodeFields_encode fields hfits []

theorem decodeBody_of_id_column :
    (∀ f ∈ [idColumn], f.Fits) ∧ [idColumn].length < 2 ^ 16 ∧
      RowDescription.decodeBody (RowDescription.encode [idColumn]) = .ok [idColumn] := by
  have hfits : ∀ f ∈ [idColumn], f.Fits := by
    intro f hf
    rw [List.mem_singleton.1 hf]
    exact ⟨by decide, by decide, by simp [idColumn], by simp [idColumn], by decide, by decide, by decide, by decide⟩
  have hlen : [idColumn].length < 2 ^ 16 := by decide
  exact ⟨hfits, hlen, decodeBody_encode hfits hlen⟩

end Sqlx.Postgres
