/-!
# SQLite — `DataType` (`type_info.rs`)

The types SQLite reports for a value or a column: its storage classes, and
the declared types the driver recognises beyond them.
-/

namespace Sqlx.Sqlite

/-- `DataType`: a value's storage class, or for a `NULL` the column's declared
type. -/
inductive DataType where
  | null
  | integer
  | float
  | text
  | blob
  | numeric
  | bool
  | int4
  | date
  | time
  | datetime
  deriving DecidableEq, Repr

end Sqlx.Sqlite
