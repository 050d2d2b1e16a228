import Sqlx.Lib.Bytes
import Sqlx.Postgres.Arguments

/-!
# MySQL — the bind arguments and `COM_STMT_EXECUTE` (`arguments.rs`, `protocol/statement/execute.rs`)

`MySqlArguments` keeps three things in step: the encoded values one after the
other, the type of each value, and a null bitmap with one bit per value. An
`add` whose encoder fails truncates the values back and touches nothing else;
one that succeeds pushes the type and the value's bit. `Execute` then sends
the bitmap, the types and the values behind a fixed ten-byte header.

An encoder is given by what it did to the buffer (`Encoding`): the bytes it
appended and what it returned. `Tracks` says that the arguments hold exactly
the calls that succeeded, `add_keeps_tracks` that one call keeps it, and
`addAll_tracks` that a whole run does; `encodeWith_of_tracks` is the layout of
the `Execute` message built from such arguments.
-/

namespace Sqlx.MySql

open Wire
-- `IsNull` is `sqlx-core`'s, shared by every driver
open Sqlx.Postgres (IsNull)

/-- `ColumnFlags::UNSIGNED`. -/
def ColumnFlags.unsigned : UInt16 := 32

/-- `MySqlTypeInfo` as `Execute` reads it: the `ColumnType` code and the column flags. -/
structure MySqlTypeInfo where
  type : UInt8
  flags : UInt16
  deriving DecidableEq, Repr

/-- `NullBitMap`: one bit per value, a new byte each time the bit offset wraps
to 0, so the bytes are always `⌈length / 8⌉`. -/
structure NullBitMap where
  bytes : List UInt8
  length : Nat
  length_bytes : bytes.length = (length + 7) / 8

namespace NullBitMap

/-- `NullBitMap::default()`. -/
def empty : NullBitMap := ⟨[], 0, rfl⟩

/-- The bytes after `push`: a zero byte first when the offset is 0, then bit
`length` set when the value is null. -/
def pushBytes (bytes : List UInt8) (length : Nat) (isNull : IsNull) : List UInt8 :=
  let byteIndex := length / 8
  let bitOffset := length % 8
  let bytes := if bitOffset = 0 then bytes ++ [0] else bytes
  bytes.modify byteIndex (· ||| (decide (isNull = .yes)).toUInt8 <<< bitOffset.toUInt8)

/-- The byte `push` writes to is there, so `self.bytes[byte_index]` never panics. -/
theorem byteIndex_lt {bytes : List UInt8} {length : Nat} (h : bytes.length = (length + 7) / 8) :
    length / 8 < (if length % 8 = 0 then bytes ++ [0] else bytes).length := by
  split
  · simp only [List.length_append, List.length_singleton, h]
    omega
  · rw [h]
    omega

theorem length_pushBytes {bytes : List UInt8} {length : Nat} (h : bytes.length = (length + 7) / 8)
    (isNull : IsNull) : (pushBytes bytes length isNull).length = (length + 1 + 7) / 8 := by
  simp only [pushBytes, List.length_modify]
  split
  · simp only [List.length_append, List.length_singleton, h]
    omega
  · rw [h]
    omega

/-- `NullBitMap::push`. -/
def push (self : NullBitMap) (isNull : IsNull) : NullBitMap :=
  ⟨pushBytes self.bytes self.length isNull, self.length + 1, length_pushBytes self.length_bytes isNull⟩

/-- The bits of a bitmap are those of `bits`, and none past them. -/
def Holds (self : NullBitMap) (bits : List Bool) : Prop :=
  self.length = bits.length ∧ ∀ i, bitAt self.bytes i = bits.getD i false

theorem holds_empty : empty.Holds [] := ⟨rfl, fun i => by simp [empty]⟩

/-- `push` appends the value's bit: bit `length` is set exactly when it is null. -/
theorem push_holds {self : NullBitMap} {bits : List Bool} (h : self.Holds bits) (isNull : IsNull) :
    (self.push isNull).Holds (bits ++ [decide (isNull = .yes)]) := by
  obtain ⟨hlen, hbits⟩ := h
  refine ⟨by simp [push, hlen], fun i => ?_⟩
  -- the padding byte adds no bit, so only bit `length` changes
  have hpad : ∀ j, bitAt (if self.length % 8 = 0 then self.bytes ++ [0] else self.bytes) j =
      bitAt self.bytes j := by
    intro j
    split
    · exact bitAt_append_zero _ j
    · rfl
  simp only [push, pushBytes]
  rw [bitAt_modify_or _ (byteIndex_lt self.length_bytes), hpad, hbits]
  rcases Nat.lt_trichotomy i bits.length with hi | rfl | hi
  · have hne : (i == self.length) = false := by
      simp only [beq_eq_false_iff_ne]
      omega
    simp [hne, List.getD_eq_getElem?_getD, List.getElem?_append_left hi]
  · simp [hlen]
  · have hne : (i == self.length) = false := by
      simp only [beq_eq_false_iff_ne]
      omega
    simp [hne, List.getD_eq_getElem?_getD, List.getElem?_eq_none (Nat.le_of_lt hi),
      List.getElem?_eq_none (show (bits ++ [decide (isNull = .yes)]).length ≤ i by simp; omega)]

end NullBitMap

-- `null_bit_map_should_push_is_null`
example :
    ([.yes, .no, .yes, .no, .yes, .no, .yes, .no, .yes].foldl NullBitMap.push NullBitMap.empty).bytes =
      [0b01010101, 0b1] := by decide

/-- `MySqlArguments`. -/
structure MySqlArguments where
  values : List UInt8
  types : List MySqlTypeInfo
  nullBitmap : NullBitMap

/-- `MySqlArguments::default()`. -/
def MySqlArguments.empty : MySqlArguments := ⟨[], [], NullBitMap.empty⟩

/-- What one call of `Encode::encode` did: the type the value gives
(`value.produces().unwrap_or_else(T::type_info)`), the bytes it appended to the
buffer, and what it returned. -/
structure Encoding where
  ty : MySqlTypeInfo
  bytes : List UInt8
  result : Except String IsNull

namespace MySqlArguments

/-- `MySqlArguments::add`. -/
def add (value : Encoding) : EStateM String MySqlArguments Unit := fun self =>
  let ty := value.ty
  let valueLengthBeforeEncoding := self.values.length
  let values := self.values ++ value.bytes
  match value.result with
  | .error error =>
    -- reset the value buffer so no half-encoded value stays behind
    .error error ⟨values.take valueLengthBeforeEncoding, self.types, self.nullBitmap⟩
  | .ok isNull => .ok () ⟨values, self.types ++ [ty], self.nullBitmap.push isNull⟩

/-- A run of `add` calls, each carried out whatever the one before returned. -/
def addAll (self : MySqlArguments) : List Encoding → MySqlArguments
  | [] => self
  | value :: rest =>
    match (add value).run self with
    | .ok _ self' => addAll self' rest
    | .error _ self' => addAll self' rest

/-- A failing `add` leaves the arguments as they were. -/
theorem add_of_error {value : Encoding} {error : String} (h : value.result = .error error)
    (self : MySqlArguments) : (add value).run self = .error error self := by
  simp only [EStateM.run, add, h, List.take_left]

theorem add_of_ok {value : Encoding} {isNull : IsNull} (h : value.result = .ok isNull)
    (self : MySqlArguments) :
    (add value).run self =
      .ok () ⟨self.values ++ value.bytes, self.types ++ [value.ty], self.nullBitmap.push isNull⟩ := by
  simp only [EStateM.run, add, h]

end MySqlArguments

/-- The calls that succeeded, in order, each with what its encoder reported. -/
def accepted : List Encoding → List (Encoding × IsNull)
  | [] => []
  | value :: rest =>
    match value.result with
    | .ok isNull => (value, isNull) :: accepted rest
    | .error _ => accepted rest

/-- Arguments that hold exactly the successful calls `acc`: their types in
order, one bitmap bit each, set for the nulls, and their encodings one after
the other. -/
structure Tracks (args : MySqlArguments) (acc : List (Encoding × IsNull)) : Prop where
  types : args.types = acc.map (·.1.ty)
  nullBitmap : args.nullBitmap.Holds (acc.map fun a => decide (a.2 = .yes))
  values : args.values = (acc.map (·.1.bytes)).flatten

theorem tracks_empty : Tracks MySqlArguments.empty [] := ⟨rfl, NullBitMap.holds_empty, rfl⟩

namespace MySqlArguments

/-- The step: a call that succeeds adds itself to the calls the arguments
hold (one that fails keeps them, `add_of_error`). -/
theorem add_keeps_tracks {self self' : MySqlArguments} {acc : List (Encoding × IsNull)}
    (h : Tracks self acc) {value : Encoding} {isNull : IsNull} (hres : value.result = .ok isNull)
    (hrun : (add value).run self = .ok () self') : Tracks self' (acc ++ [(value, isNull)]) := by
  rw [add_of_ok hres] at hrun
  cases hrun
  refine ⟨?_, ?_, ?_⟩
  · simp [h.types]
  · simpa using NullBitMap.push_holds h.nullBitmap isNull
  · simp [h.values]

/-- The run: after any run of calls the arguments hold the ones that succeeded. -/
theorem addAll_tracks {self : MySqlArguments} {acc : List (Encoding × IsNull)} (h : Tracks self acc)
    (values : List Encoding) : Tracks (self.addAll values) (acc ++ accepted values) := by
  induction values generalizing self acc with
  | nil => simpa [addAll, accepted] using h
  | cons value rest ih =>
    cases hres : value.result with
    | error error =>
      simp only [addAll, add_of_error hres, accepted, hres]
      exact ih h
    | ok isNull =>
      have hstep := add_keeps_tracks h hres (add_of_ok hres self)
      simp only [addAll, add_of_ok hres, accepted, hres]
      simpa using ih hstep

end MySqlArguments

/-- `Execute`: a `COM_STMT_EXECUTE` of a prepared statement. -/
structure Execute where
  statement : UInt32
  arguments : MySqlArguments

/-- The type and the unsigned flag `Execute` sends for one parameter. -/
def typePair (ty : MySqlTypeInfo) : List UInt8 :=
  [ty.type, if ty.flags &&& ColumnFlags.unsigned == ColumnFlags.unsigned then 0x80 else 0]

/-- `COM_STMT_EXECUTE`, the statement id, `NO_CURSOR` and one iteration. -/
def executeHeader (statement : UInt32) : List UInt8 :=
  [0x17] ++ leBytes 4 statement.toNat ++ [0] ++ leBytes 4 1

/-- `Execute::encode_with`; it always returns `Ok`. -/
def Execute.encodeWith (self : Execute) (buf : List UInt8) : List UInt8 :=
  let buf := buf ++ [0x17] ++ leBytes 4 self.statement.toNat ++ [0] ++ leBytes 4 1
  if !self.arguments.types.isEmpty then
    -- the bitmap, then "send type to server", then the types, then the values
    buf ++ self.arguments.nullBitmap.bytes ++ [1] ++ self.arguments.types.flatMap typePair ++
      self.arguments.values
  else buf

@[simp] theorem length_executeHeader (statement : UInt32) : (executeHeader statement).length = 10 := by
  simp [executeHeader]

/-- The message built from arguments that hold `acc`: the header alone when no
call succeeded, and otherwise the bitmap, the new-params flag, a type pair per
value and the values. -/
theorem encodeWith_of_tracks {args : MySqlArguments} {acc : List (Encoding × IsNull)} (h : Tracks args acc)
    (statement : UInt32) (buf : List UInt8) :
    Execute.encodeWith ⟨statement, args⟩ buf =
      buf ++ executeHeader statement ++
        if acc = [] then []
        else args.nullBitmap.bytes ++ [1] ++ acc.flatMap (typePair ·.1.ty) ++ (acc.map (·.1.bytes)).flatten := by
  by_cases hacc : acc = []
  · simp [Execute.encodeWith, executeHeader, hacc, h.types]
  · simp [Execute.encodeWith, executeHeader, hacc, h.types, h.values, List.flatMap_map]

/-- Fresh arguments after any run of `add` calls hold the calls that succeeded:
their types, a bitmap of `⌈n / 8⌉` bytes whose bit `i` is set exactly when the
`i`-th of them was null, and their encodings; a failing call changes nothing.
The `Execute` message is the header, then, when `n > 0`, the bitmap, the
new-params flag, the `n` type pairs and the values. -/
theorem addAll_execute_layout (values : List Encoding) (statement : UInt32) :
    let args := MySqlArguments.empty.addAll values
    let acc := accepted values
    args.types = acc.map (·.1.ty) ∧ args.nullBitmap.length = acc.length ∧
      args.nullBitmap.bytes.length = (acc.length + 7) / 8 ∧
      (∀ i, bitAt args.nullBitmap.bytes i = (acc.map fun a => decide (a.2 = .yes)).getD i false) ∧
      args.values = (acc.map (·.1.bytes)).flatten ∧
      (∀ (self : MySqlArguments) (value : Encoding) (error : String),
        value.result = .error error → (MySqlArguments.add value).run self = .error error self) ∧
      Execute.encodeWith ⟨statement, args⟩ [] =
        executeHeader statement ++
          if acc = [] then []
          else args.nullBitmap.bytes ++ [1] ++ acc.flatMap (typePair ·.1.ty) ++ args.values := by
  intro args acc
  have h : Tracks args acc := by
    simpa using MySqlArguments.addAll_tracks tracks_empty values
  obtain ⟨hlen, hbits⟩ := h.nullBitmap
  refine ⟨h.types, by simpa using hlen, ?_, hbits, h.values,
    fun self value error hres => MySqlArguments.add_of_error hres self, ?_⟩
  · rw [args.nullBitmap.length_bytes, hlen, List.length_map]
  · rw [encodeWith_of_tracks h, List.nil_append, h.values]

/-- With no arguments the message is the ten-byte header and nothing else: no
new-params flag follows it. -/
theorem execute_without_arguments_is_header :
    Execute.encodeWith ⟨1, MySqlArguments.empty⟩ [] = [0x17, 1, 0, 0, 0, 0, 1, 0, 0, 0] := by
  decide

end Sqlx.MySql
