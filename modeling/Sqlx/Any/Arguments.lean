import Sqlx.Core.QueryBuilder
import Sqlx.MySql.Chrono
import Sqlx.MySql.Io

/-!
# Any — the arguments of the `Any` driver (`sqlx-core/src/any/arguments.rs`, `any/types`)

`AnyArguments` holds each value as the `AnyValueKind` its `Encode<Any>` impl
pushes; a `None` of `Option<T>` becomes a `NULL` that keeps the kind of `T`.
Before the query runs, `convert_to` adds each kind to the native driver's
arguments as a Rust value of the type the kind stands for, through a table
of nine `NULL` cases and eight value cases.

Two `NULL` rows of that table are the wrong way round: a `NULL` of kind
`Real`, which only `f32` gives, is added as `None::<f64>`, and one of kind
`Double` (`f64`) as `None::<f32>`. Converting therefore gives the native
arguments of the same values with those two `NULL`s swapped, and nothing
else differs (`convert_to_swaps_float_nulls`).

The native side is each driver's `Type` and `Encode` impls of the supported
types (`RustValue.toPg`, `RustValue.toMySql`), added with the driver's own
`add` through `Arguments`.
-/

namespace Sqlx.Any

open Wire

/-- `AnyTypeInfoKind`. -/
inductive AnyTypeInfoKind where
  | null
  | bool
  | smallInt
  | integer
  | bigInt
  | real
  | double
  | text
  | blob
  deriving DecidableEq, Repr

/-- `AnyValueKind`. -/
inductive AnyValueKind where
  | null (kind : AnyTypeInfoKind)
  | bool (value : Bool)
  | smallInt (value : Int16)
  | integer (value : Int32)
  | bigInt (value : Int64)
  | real (value : Float32)
  | double (value : Float)
  | text (value : String)
  | blob (value : List UInt8)

/-- The Rust types the `Any` driver encodes. `&str` and `String` encode to
the same kind and, natively, to the same bytes and type, as do `&[u8]` and
`Vec<u8>`; each pair is one type here. -/
inductive RustType where
  | bool
  | i16
  | i32
  | i64
  | f32
  | f64
  | str
  | bytes
  deriving DecidableEq, Repr

/-- A value handed to `add`: a value of a supported type, or `None` of
`Option<T>`. `Some(v)` encodes as `v`, in `Any` and in each native driver. -/
inductive RustValue where
  | bool (value : Bool)
  | i16 (value : Int16)
  | i32 (value : Int32)
  | i64 (value : Int64)
  | f32 (value : Float32)
  | f64 (value : Float)
  | str (value : String)
  | bytes (value : List UInt8)
  | none (ty : RustType)

/-- `<T as Type<Any>>::type_info().kind`. -/
def RustType.anyKind : RustType → AnyTypeInfoKind
  | .bool => .bool
  | .i16 => .smallInt
  | .i32 => .integer
  | .i64 => .bigInt
  | .f32 => .real
  | .f64 => .double
  | .str => .text
  | .bytes => .blob

/-- `Encode<Any>`: the kind the value pushes onto the `AnyArgumentBuffer`;
`None` pushes `Null(T::type_info().kind)`. -/
def RustValue.encodeAny : RustValue → AnyValueKind
  | .bool v => .bool v
  | .i16 v => .smallInt v
  | .i32 v => .integer v
  | .i64 v => .bigInt v
  | .f32 v => .real v
  | .f64 v => .double v
  | .str v => .text v
  | .bytes v => .blob v
  | .none ty => .null ty.anyKind

/-- `AnyArguments`. -/
structure AnyArguments where
  values : List AnyValueKind

namespace AnyArguments

/-- `AnyArguments::default()`. -/
def empty : AnyArguments := ⟨[]⟩

/-- `AnyArguments::add`: the `Any` encoders push their kind and never fail. -/
def add (self : AnyArguments) (value : RustValue) : AnyArguments := ⟨self.values ++ [value.encodeAny]⟩

/-- The arguments after adding `values` in order to new ones. -/
def ofValues (values : List RustValue) : AnyArguments := values.foldl add empty

end AnyArguments

/-- The Rust value `convert_to` adds for a kind. -/
def AnyValueKind.nativeValue : AnyValueKind → RustValue
  | .null .null => .none .i32
  | .null .bool => .none .bool
  | .null .smallInt => .none .i16
  | .null .integer => .none .i32
  | .null .bigInt => .none .i64
  | .null .real => .none .f64
  | .null .double => .none .f32
  | .null .text => .none .str
  | .null .blob => .none .bytes
  | .bool b => .bool b
  | .smallInt i => .i16 i
  | .integer i => .i32 i
  | .bigInt i => .i64 i
  | .real r => .f32 r
  | .double d => .f64 d
  | .text t => .str t
  | .blob b => .bytes b

/-- `out.add(v)?` for each value in turn on new native arguments, as a
caller of the native driver writes it: the first error ends it. -/
def addEach {A V : Type} [Arguments A V] (native : RustValue → V) (values : List RustValue) : Except String A :=
  match (values.forM fun v => Arguments.add (native v)).run Arguments.default with
  | .ok () out => .ok out
  | .error e _ => .error e

/-- `AnyArguments::convert_to`, with `native` the target driver's `Type`
and `Encode` impls of the supported types. -/
def AnyArguments.convertTo {A V : Type} [Arguments A V] (native : RustValue → V) (self : AnyArguments) :
    Except String A :=
  addEach native (self.values.map AnyValueKind.nativeValue)

/-! ## The native impls -/

section Native

open Postgres (PgTypeInfo)

/-- `<T as Type<Postgres>>::type_info()`: `BOOL`, `INT2`, `INT4`, `INT8`,
`FLOAT4`, `FLOAT8`, `TEXT` and `BYTEA`. -/
def RustType.pgTypeInfo : RustType → PgTypeInfo
  | .bool => .withOid 16
  | .i16 => .withOid 21
  | .i32 => .withOid 23
  | .i64 => .withOid 20
  | .f32 => .withOid 700
  | .f64 => .withOid 701
  | .str => .withOid 25
  | .bytes => .withOid 17

/-- The value `PgArguments::add` gets: the impls of `sqlx-postgres/src/types`.
The size hint is `size_of_val`, pointer-sized for `&str` and `&[u8]`. -/
def RustValue.toPg : RustValue → Postgres.Value
  | .bool v => ⟨Option.none, RustType.bool.pgTypeInfo, 1, .extend [if v then 1 else 0] (.done .no)⟩
  | .i16 v => ⟨Option.none, RustType.i16.pgTypeInfo, 2, .extend (beBytes 2 v.toBitVec.toNat) (.done .no)⟩
  | .i32 v => ⟨Option.none, RustType.i32.pgTypeInfo, 4, .extend (beBytes 4 v.toBitVec.toNat) (.done .no)⟩
  | .i64 v => ⟨Option.none, RustType.i64.pgTypeInfo, 8, .extend (beBytes 8 v.toBitVec.toNat) (.done .no)⟩
  | .f32 v => ⟨Option.none, RustType.f32.pgTypeInfo, 4, .extend (beBytes 4 v.toBits.toNat) (.done .no)⟩
  | .f64 v => ⟨Option.none, RustType.f64.pgTypeInfo, 8, .extend (beBytes 8 v.toBits.toNat) (.done .no)⟩
  | .str v => ⟨Option.none, RustType.str.pgTypeInfo, 16, .extend v.toUTF8.toList (.done .no)⟩
  | .bytes v => ⟨Option.none, RustType.bytes.pgTypeInfo, 16, .extend v (.done .no)⟩
  -- `impl_encode_for_option!`: `produces` is `T::type_info()`, the size hint zero
  | .none ty => ⟨some ty.pgTypeInfo, ty.pgTypeInfo, 0, .done .yes⟩

open MySql (MySqlTypeInfo)

/-- `<T as Type<MySql>>::type_info()`: `TINYINT` (`BINARY | UNSIGNED` for
`bool`), `SMALLINT`, `INT`, `BIGINT`, `FLOAT`, `DOUBLE`, `VARCHAR` and `BLOB`. -/
def RustType.mySqlTypeInfo : RustType → MySqlTypeInfo
  | .bool => ⟨1, 160⟩
  | .i16 => MySql.binaryType 2
  | .i32 => MySql.binaryType 3
  | .i64 => MySql.binaryType 8
  | .f32 => MySql.binaryType 4
  | .f64 => MySql.binaryType 5
  | .str => ⟨0xFD, 0⟩
  | .bytes => MySql.binaryType 0xFC

/-- What `MySqlArguments::add` gets: the impls of `sqlx-mysql/src/types`. -/
def RustValue.toMySql : RustValue → MySql.Encoding
  | .bool v => ⟨RustType.bool.mySqlTypeInfo, [if v then 1 else 0], .ok .no⟩
  | .i16 v => ⟨RustType.i16.mySqlTypeInfo, leBytes 2 v.toBitVec.toNat, .ok .no⟩
  | .i32 v => ⟨RustType.i32.mySqlTypeInfo, leBytes 4 v.toBitVec.toNat, .ok .no⟩
  | .i64 v => ⟨RustType.i64.mySqlTypeInfo, leBytes 8 v.toBitVec.toNat, .ok .no⟩
  | .f32 v => ⟨RustType.f32.mySqlTypeInfo, leBytes 4 v.toBits.toNat, .ok .no⟩
  | .f64 v => ⟨RustType.f64.mySqlTypeInfo, leBytes 8 v.toBits.toNat, .ok .no⟩
  | .str v => ⟨RustType.str.mySqlTypeInfo, MySql.putBytesLenenc v.toUTF8.toList, .ok .no⟩
  | .bytes v => ⟨RustType.bytes.mySqlTypeInfo, MySql.putBytesLenenc v, .ok .no⟩
  | .none ty => ⟨ty.mySqlTypeInfo, [], .ok .yes⟩

end Native

/-! ## Converting refines adding natively, but for the float `NULL`s -/

/-- The value with a `NULL` `f32` and a `NULL` `f64` exchanged. -/
def RustValue.swapFloatNull : RustValue → RustValue
  | .none .f32 => .none .f64
  | .none .f64 => .none .f32
  | v => v

/-- A kind maps back to the value that pushed it, but for the two float `NULL`s. -/
@[simp] theorem nativeValue_encodeAny (v : RustValue) : v.encodeAny.nativeValue = v.swapFloatNull := by
  cases v with
  | none ty => cases ty <;> rfl
  | _ => rfl

theorem AnyArguments.values_ofValues (values : List RustValue) :
    (AnyArguments.ofValues values).values = values.map RustValue.encodeAny := by
  suffices h : ∀ (acc : AnyArguments), (values.foldl AnyArguments.add acc).values = acc.values ++ values.map RustValue.encodeAny by
    have hempty := h .empty
    rwa [show AnyArguments.empty.values = [] from rfl, List.nil_append] at hempty
  induction values with
  | nil => intro acc; simp
  | cons v vs ih =>
    intro acc
    rw [List.foldl_cons, ih, List.map_cons]
    simp [AnyArguments.add]

/-- **`convert_to` swaps the float `NULL`s.** For every native driver and
every list of values, the `Any` arguments converted are the native arguments
of the same values, except that a `None::<f32>` is added as `None::<f64>`
and a `None::<f64>` as `None::<f32>`, so that on Postgres the one is sent as
`FLOAT8` and the other as `FLOAT4`, and on MySQL as `DOUBLE` and `FLOAT`. -/
theorem convert_to_swaps_float_nulls :
    ∀ (A V : Type) [Arguments A V] (native : RustValue → V) (values : List RustValue),
      ((AnyArguments.ofValues values).convertTo native : Except String A) =
        addEach native (values.map RustValue.swapFloatNull) := by
  intro A V _ native values
  rw [AnyArguments.convertTo, AnyArguments.values_ofValues, List.map_map]
  congr 2
  funext v
  exact nativeValue_encodeAny v

/-- `Option::<f32>::None` through `Any`: Postgres gets a `FLOAT8` parameter
and MySQL a `DOUBLE` one, where the native drivers send `FLOAT4` and `FLOAT`. -/
theorem convert_to_none_f32 :
    ((AnyArguments.ofValues [.none .f32]).convertTo RustValue.toPg : Except String Postgres.PgArguments).map
        (·.types) = .ok [.withOid 701] ∧
      (addEach RustValue.toPg [.none .f32] : Except String Postgres.PgArguments).map (·.types) = .ok [.withOid 700] ∧
      ((AnyArguments.ofValues [.none .f32]).convertTo RustValue.toMySql : Except String MySql.MySqlArguments).map
        (·.types) = .ok [MySql.binaryType 5] ∧
      (addEach RustValue.toMySql [.none .f32] : Except String MySql.MySqlArguments).map (·.types) =
        .ok [MySql.binaryType 4] := by
  refine ⟨?_, rfl, ?_, rfl⟩
  · rw [convert_to_swaps_float_nulls Postgres.PgArguments Postgres.Value RustValue.toPg [.none .f32]]
    rfl
  · rw [convert_to_swaps_float_nulls MySql.MySqlArguments MySql.Encoding RustValue.toMySql [.none .f32]]
    rfl

end Sqlx.Any
