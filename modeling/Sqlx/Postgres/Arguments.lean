import Sqlx.Lib.Bytes

/-!
# Postgres — the bind-argument buffer (`sqlx-postgres/src/arguments.rs`)

`PgArguments` collects the parameters of one query: their types, and one
buffer holding every encoded value as a length-prefixed frame, together with
the type holes (OIDs resolved by name before `Bind`) and the patches
(callbacks run once the parameter types are known) that encoders leave.

The buffer methods take `&mut self` and fail with a `BoxDynError`, so they are
programs in `EStateM String PgArgumentBuffer`: a failure keeps the state it
reached, exactly as a `?` in Rust leaves the partial writes in place. An
`Encode` impl is given as the tree of buffer operations it performs
(`Encoder`); `Encoder.run` executes it on the buffer.
-/

namespace Sqlx.Postgres

open Wire

/-- `IsNull` (`sqlx-core/src/encode.rs`). -/
inductive IsNull where
  | yes
  | no
  deriving DecidableEq, Repr

/-- `PgArrayOf`: an array type known only by the name of its element type. -/
structure PgArrayOf where
  elemName : String
  name : String
  deriving DecidableEq, Repr

/-- `PgTypeInfo` as the encoders inspect it: a type to be looked up by name, an
array of such a type, or any type whose OID is known (every other `PgType`). -/
inductive PgTypeInfo where
  | declareWithName (name : String)
  | declareArrayOf (array : PgArrayOf)
  | withOid (oid : Nat)
  deriving DecidableEq, Repr

/-- `HoleKind`. -/
inductive HoleKind where
  | type (name : String)
  | array (array : PgArrayOf)
  deriving DecidableEq, Repr

/-- `Patch`, without its callback: the callback only runs in `apply_patches`. -/
structure Patch where
  bufOffset : Nat
  argIndex : Nat
  deriving DecidableEq, Repr

/-- `PgArgumentBuffer`. -/
structure PgArgumentBuffer where
  buffer : List UInt8
  count : Nat
  patches : List Patch
  typeHoles : List (Nat × HoleKind)
  deriving DecidableEq, Repr

/-- `PgArgumentBuffer::default()`. -/
def PgArgumentBuffer.empty : PgArgumentBuffer := ⟨[], 0, [], []⟩

/-- A method of `PgArgumentBuffer`: `&mut self` with a `Result`. -/
abbrev BufferM := EStateM String PgArgumentBuffer

/-- `value_size_int4_checked`: a size must fit in an `i32`. -/
def valueSizeInt4Checked (size : Nat) : Except String Int :=
  if size ≤ 2147483647 then .ok size
  else .error s!"value size would overflow in the binary protocol encoding: {size} > 2147483647"

/-- `i32::to_be_bytes`. -/
def i32ToBeBytes (x : Int) : List UInt8 := beBytes 4 (twos 32 x)

@[simp] theorem length_i32ToBeBytes (x : Int) : (i32ToBeBytes x).length = 4 := by
  simp [i32ToBeBytes]

namespace PgArgumentBuffer

/-- `buf.extend(bytes)` through `DerefMut` (also `push` and `extend_from_slice`). -/
def extend (bytes : List UInt8) : BufferM Unit :=
  modify fun buf => { buf with buffer := buf.buffer ++ bytes }

/-- `patch`: remember the current offset and the index of the argument being added. -/
def patch : BufferM Unit :=
  modify fun buf =>
    { buf with patches := buf.patches ++ [⟨buf.buffer.length, buf.count⟩] }

/-- Reserve four bytes for an OID and remember where they are (`patch_type_by_name`
and `patch_array_type`). -/
def pushHole (kind : HoleKind) : BufferM Unit :=
  modify fun buf =>
    { buf with
      buffer := buf.buffer ++ beBytes 4 0
      typeHoles := buf.typeHoles ++ [(buf.buffer.length, kind)] }

/-- `patch_type_by_name`. -/
def patchTypeByName (name : String) : BufferM Unit := pushHole (.type name)

/-- `patch_array_type`. -/
def patchArrayType (array : PgArrayOf) : BufferM Unit := pushHole (.array array)

/-- `PgArgumentBufferSnapshot`. -/
structure Snapshot where
  bufferLength : Nat
  count : Nat
  patchesLength : Nat
  typeHolesLength : Nat

/-- `snapshot`. -/
def snapshot (buf : PgArgumentBuffer) : Snapshot :=
  ⟨buf.buffer.length, buf.count, buf.patches.length, buf.typeHoles.length⟩

/-- `reset_to_snapshot`: `Vec::truncate` on the three vectors, `count` restored. -/
def resetToSnapshot (buf : PgArgumentBuffer) (s : Snapshot) : PgArgumentBuffer :=
  { buffer := buf.buffer.take s.bufferLength
    count := s.count
    patches := buf.patches.take s.patchesLength
    typeHoles := buf.typeHoles.take s.typeHolesLength }

/-- `PgArgumentBuffer::encode`: a frame for one value, its `i32` length written
in front of the payload once the payload is known, `-1` for a NULL. -/
def encode (sizeHint : Nat) (value : BufferM IsNull) : BufferM Unit := do
  -- the size hint is only a sanity check; the real length is checked below
  let _ ← liftExcept (valueSizeInt4Checked sizeHint)
  let offset := (← get).buffer.length
  extend (beBytes 4 0)
  let isNull ← value
  let len ← match isNull with
    | .no => do liftExcept (valueSizeInt4Checked ((← get).buffer.length - offset - 4))
    | .yes => pure (-1)
  modify fun buf => { buf with buffer := overwrite buf.buffer offset (i32ToBeBytes len) }

end PgArgumentBuffer

/-- An `Encode` impl, as the run of buffer operations it performs on the
`&mut PgArgumentBuffer` it is handed. -/
inductive Encoder where
  /-- `Ok(is_null)`. -/
  | done (isNull : IsNull)
  /-- An error of the impl's own (a serializer error, an array length check). -/
  | fail (error : String)
  | extend (bytes : List UInt8) (next : Encoder)
  | patch (next : Encoder)
  | patchTypeByName (name : String) (next : Encoder)
  | patchArrayType (array : PgArrayOf) (next : Encoder)
  /-- `buf.encode(element)?`: a nested value with its `size_hint` and encoder. -/
  | encode (sizeHint : Nat) (value : Encoder) (next : Encoder)

/-- Execute an encoder on the buffer. -/
def Encoder.run : Encoder → BufferM IsNull
  | .done isNull => pure isNull
  | .fail error => throw error
  | .extend bytes next => do PgArgumentBuffer.extend bytes; next.run
  | .patch next => do PgArgumentBuffer.patch; next.run
  | .patchTypeByName name next => do PgArgumentBuffer.patchTypeByName name; next.run
  | .patchArrayType array next => do PgArgumentBuffer.patchArrayType array; next.run
  | .encode sizeHint value next => do PgArgumentBuffer.encode sizeHint value.run; next.run

/-- A value passed to `add`: what its `Encode` and `Type` impls answer. -/
structure Value where
  produces : Option PgTypeInfo
  typeInfo : PgTypeInfo
  sizeHint : Nat
  encoder : Encoder

/-- The element type of an array or a record field: a hole for a type known by
name, its OID otherwise. -/
def elementType : PgTypeInfo → Encoder → Encoder
  | .declareWithName name, next => .patchTypeByName name next
  | .declareArrayOf array, next => .patchArrayType array next
  | .withOid oid, next => .extend (beBytes 4 oid) next

/-- `Encode for &[T]` (`types/array.rs`): a one-dimensional array, each element
a nested frame. `elemTypeInfo` is `T::type_info()`. -/
def sliceEncoder (elemTypeInfo : PgTypeInfo) (elements : List Value) : Encoder :=
  let typeInfo := (elements.head?.bind Value.produces).getD elemTypeInfo
  .extend (i32ToBeBytes 1) <| .extend (i32ToBeBytes 0) <| elementType typeInfo <|
    if elements.length ≤ 2147483647 then
      .extend (i32ToBeBytes elements.length) <| .extend (i32ToBeBytes 1) <|
        elements.foldr (fun e next => .encode e.sizeHint e.encoder next) (.done .no)
    else
      .fail s!"encoded array length is too large for Postgres: {elements.length}"

/-- `PgArguments`. -/
structure PgArguments where
  types : List PgTypeInfo
  buffer : PgArgumentBuffer

/-- `PgArguments::default()`. -/
def PgArguments.empty : PgArguments := ⟨[], .empty⟩

/-- `PgArguments::add`: encode the value behind a snapshot, undo the partial
frame if encoding failed, otherwise record its type and count it. -/
def PgArguments.add (value : Value) : EStateM String PgArguments Unit := fun args =>
  let typeInfo := value.produces.getD value.typeInfo
  let bufferSnapshot := args.buffer.snapshot
  match (PgArgumentBuffer.encode value.sizeHint value.encoder.run).run args.buffer with
  | .error error buffer =>
    .error error { args with buffer := buffer.resetToSnapshot bufferSnapshot }
  | .ok () buffer =>
    .ok () { types := args.types ++ [typeInfo], buffer := { buffer with count := buffer.count + 1 } }

/-- `add(v₁)`, …, `add(vₙ)` in order on one `PgArguments`, each call's result kept. -/
def PgArguments.addAll : List Value → PgArguments → List (Except String Unit) × PgArguments
  | [], args => ([], args)
  | v :: vs, args =>
    match (PgArguments.add v).run args with
    | .ok () args' => ((.ok () :: (addAll vs args').1), (addAll vs args').2)
    | .error e args' => ((.error e :: (addAll vs args').1), (addAll vs args').2)

end Sqlx.Postgres
