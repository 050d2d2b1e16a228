import Sqlx.Postgres.Arguments

/-!
# SQLite — bind arguments (`sqlx-sqlite/src/arguments.rs`)

`SqliteArguments` is the list of values to bind. An `Encode` impl pushes its
values onto that list and says whether the value was NULL, in which case `add`
pushes a `Null` after them; a failed encode is undone by truncating the list
back. The values themselves are bound to a statement's parameters by
`SqliteArguments::bind`, modelled with the statement in `Sqlite.Execute`.
-/

namespace Sqlx.Sqlite

open Sqlx.Postgres (IsNull)

/-- `SqliteArgumentValue`. -/
inductive SqliteArgumentValue where
  | null
  | text (value : String)
  | blob (value : List UInt8)
  | double (value : Float)
  | int (value : Int)
  | int64 (value : Int)
  deriving Repr

/-- What `Encode::encode_by_ref` does to the list: the values it pushed, and
its result. -/
structure SqliteEncoding where
  pushed : List SqliteArgumentValue
  result : Except String IsNull

/-- `SqliteArguments`. -/
structure SqliteArguments where
  values : List SqliteArgumentValue

/-- `SqliteArguments::default()`. -/
def SqliteArguments.empty : SqliteArguments := ⟨[]⟩

/-- `SqliteArguments::add`. -/
def SqliteArguments.add (value : SqliteEncoding) : EStateM String SqliteArguments Unit := fun self =>
  let valueLengthBeforeEncoding := self.values.length
  let values := self.values ++ value.pushed
  match value.result with
  | .ok .yes => .ok () ⟨values ++ [.null]⟩
  | .ok .no => .ok () ⟨values⟩
  -- truncate, so no half-encoded value stays behind
  | .error error => .error error ⟨values.take valueLengthBeforeEncoding⟩

/-- A failing `add` leaves the arguments as they were. -/
theorem SqliteArguments.add_of_error {value : SqliteEncoding} {error : String} (h : value.result = .error error)
    (self : SqliteArguments) : (add value).run self = .error error self := by
  simp only [EStateM.run, add, h, List.take_left]

end Sqlx.Sqlite
