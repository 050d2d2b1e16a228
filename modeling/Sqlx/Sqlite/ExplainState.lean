import Mathlib.Algebra.Group.Int.Defs
import Mathlib.Algebra.Group.Nat.Defs
import Sqlx.Sqlite.IntMap
import Sqlx.Sqlite.TypeInfo

/-!
# SQLite — the state of the `EXPLAIN` walk (`connection/explain.rs`)

`explain` infers the types of a query's columns by running SQLite's
bytecode for the query over abstract values: a register holds a column type
(`ColumnType`, a type and whether it may be null, or a record of columns) or
a known integer, a cursor names a table (by the instruction that opened it)
or a register holding a record, and a table keeps its columns and whether it
may be empty. A `QueryState` is one branch of the walk: its memory, how many
times it has run each instruction, and its place in the tree of branches.

The walk must not panic on any program SQLite hands back. What can panic is
modelled as `none`: an `IntMap` key below zero (`toIndex`), an index past the
end of a vector, and `i64`, `u8` or `usize` arithmetic that overflows (a
debug build checks it). Casts with `as` never panic; they wrap.

`MemInv` is what keeps the walk clear of those panics: every integer
register holds a value `+ 1` and `- 1` cannot overflow, and every cursor names
its table or register by a key in range. Each write the walk makes keeps it
(`setReg_ends`, `setCursor_ends`, …), with the instruction of the memory
unchanged (`Keeps`).
-/

namespace Sqlx.Sqlite

open Panic

/-! ## Machine integers -/

/-- `i64::MAX`. -/
def i64Max : Int := 2 ^ 63 - 1

/-- `i32::MAX`, the largest operand SQLite writes into a program. -/
def i32Max : Int := 2 ^ 31 - 1

/-- `isize::MAX`: a `Vec` holds at most this many bytes, so at most this
many rows. -/
def isizeMax : Nat := 2 ^ 63 - 1

/-- `i64` arithmetic, checked: the value when it fits, a panic otherwise. -/
def checkedI64 (v : Int) : Option Int := if -(2 ^ 63) ≤ v ∧ v ≤ i64Max then some v else none

/-- `u8` arithmetic, checked. -/
def checkedU8 (v : Nat) : Option Nat := if v < 2 ^ 8 then some v else none

/-- `usize` arithmetic, checked, on a 64-bit target. -/
def checkedUsize (v : Nat) : Option Nat := if v < 2 ^ 64 then some v else none

/-- `v as usize` for an `i64`: the value modulo `2 ^ 64`. -/
def asUsize (v : Int) : Nat := (v % 2 ^ 64).toNat

/-- `n as i64` for a `usize`: the value taken modulo `2 ^ 64` into the range of `i64`. -/
def asI64 (n : Nat) : Int := if n < 2 ^ 63 then n else n - 2 ^ 64

/-- `v as u8` for an `i64`: its low byte. -/
def asU8 (v : Int) : UInt8 := UInt8.ofNat (v % 256).toNat

/-- `a..b` over `i64`. -/
def intRange (a b : Int) : List Int := (List.range (b - a).toNat).map fun (j : Nat) => a + (j : Int)

/-- `a..=b` over `i64`. -/
def intRangeIncl (a b : Int) : List Int := (List.range (b - a + 1).toNat).map fun (j : Nat) => a + (j : Int)

theorem checkedI64_of_le {v : Int} (hlo : -(2 ^ 63) ≤ v) (hhi : v ≤ i64Max) : checkedI64 v = some v :=
  if_pos ⟨hlo, hhi⟩

theorem checkedU8_of_lt {v : Nat} (h : v < 2 ^ 8) : checkedU8 v = some v := if_pos h

theorem checkedUsize_of_lt {v : Nat} (h : v < 2 ^ 64) : checkedUsize v = some v := if_pos h

theorem asI64_of_lt {n : Nat} (h : n < 2 ^ 63) : asI64 n = n := if_pos h

theorem mem_intRange {a b i : Int} (h : i ∈ intRange a b) : a ≤ i ∧ i < b := by
  simp only [intRange, List.mem_map, List.mem_range] at h
  omega

theorem mem_intRangeIncl {a b i : Int} (h : i ∈ intRangeIncl a b) : a ≤ i ∧ i ≤ b := by
  simp only [intRangeIncl, List.mem_map, List.mem_range] at h
  omega

theorem length_intRange (a b : Int) : (intRange a b).length = (b - a).toNat := by
  rw [intRange, List.length_map, List.length_range]

/-! ## Abstract values -/

/-- `ColumnType`: a column's type and whether it may be null (`None`: not
known), or a record of columns. -/
inductive ColumnType where
  | single (datatype : DataType) (nullable : Option Bool)
  | record (columns : IntMap ColumnType)

/-- `Default for ColumnType`: a null of unknown nullability. -/
instance : Inhabited ColumnType := ⟨.single .null none⟩

namespace ColumnType

/-- `ColumnType::null`. -/
def null : ColumnType := .single .null (some true)

/-- `map_to_datatype`: a record read as a single value is taken as `Null`. -/
def mapToDatatype : ColumnType → DataType
  | .single datatype _ => datatype
  | .record _ => .null

/-- `map_to_nullable`. -/
def mapToNullable : ColumnType → Option Bool
  | .single _ nullable => nullable
  | .record _ => none

end ColumnType

/-- `RegDataType`: a register holds a column type, or an integer whose value
is known. -/
inductive RegDataType where
  | single (columnType : ColumnType)
  | int (value : Int)

instance : Inhabited RegDataType := ⟨.single default⟩

namespace RegDataType

/-- `map_to_datatype`. -/
def mapToDatatype : RegDataType → DataType
  | .single d => d.mapToDatatype
  | .int _ => .integer

/-- `map_to_nullable`. -/
def mapToNullable : RegDataType → Option Bool
  | .single d => d.mapToNullable
  | .int _ => some false

/-- `map_to_columntype`. -/
def mapToColumntype : RegDataType → ColumnType
  | .single d => d
  | .int _ => .single .integer (some false)

end RegDataType

/-- `TableDataType`: a table's columns, and whether it may be empty. -/
structure TableDataType where
  cols : IntMap ColumnType
  isEmpty : Option Bool

/-- `CursorDataType`: a cursor on the table opened at an instruction, or on
the record held in a register. -/
inductive CursorDataType where
  | normal (i : Int)
  | pseudo (i : Int)

namespace CursorDataType

/-- `columns`: the columns the cursor reads, none when it names nothing. -/
def columns (self : CursorDataType) (tables : IntMap TableDataType) (registers : IntMap RegDataType) :
    Option (IntMap ColumnType) :=
  match self with
  | .normal i => do
    match ← tables.get i with
    | some tab => pure tab.cols
    | none => pure IntMap.new
  | .pseudo i => do
    match ← registers.get i with
    | some (.single (.record r)) => pure r
    | _ => pure IntMap.new

/-- `columns_ref`: the columns the cursor reads, if it names any. -/
def columnsRef (self : CursorDataType) (tables : IntMap TableDataType) (registers : IntMap RegDataType) :
    Option (Option (IntMap ColumnType)) :=
  match self with
  | .normal i => do
    match ← tables.get i with
    | some tab => pure (some tab.cols)
    | none => pure none
  | .pseudo i => do
    match ← registers.get i with
    | some (.single (.record r)) => pure (some r)
    | _ => pure none

/-- `table_mut`, and the change made through it: a cursor on a table writes
the table, one on a record writes nothing. -/
def modifyTable (self : CursorDataType) (tables : IntMap TableDataType) (f : TableDataType → TableDataType) :
    Option (IntMap TableDataType) :=
  match self with
  | .normal i => tables.modifyAt i fun tab => some (f tab)
  | .pseudo _ => pure tables

/-- `is_empty`: a table not opened is empty; a record is one row. -/
def isEmpty (self : CursorDataType) (tables : IntMap TableDataType) : Option (Option Bool) :=
  match self with
  | .normal i => do
    match ← tables.get i with
    | some tab => pure tab.isEmpty
    | none => pure (some true)
  | .pseudo _ => pure (some false)

end CursorDataType

/-- `affinity_to_type`. -/
def affinityToType (affinity : UInt8) : DataType :=
  match affinity with
  | 0x41 => .blob
  | 0x44 => .integer
  | 0x43 => .numeric
  | 0x45 => .float
  | 0x42 => .text
  | _ => .null

/-- `opcode_to_type`. -/
def opcodeToType (op : String) : DataType :=
  if op = "Real" then .float
  else if op = "Blob" then .blob
  else if op = "And" ∨ op = "Or" then .bool
  else if op = "NewRowid" ∨ op = "Rowid" ∨ op = "Count" ∨ op = "Int64" ∨ op = "Integer" then .integer
  else if op = "String8" then .text
  else .null

/-! ## Memory and branches -/

/-- `MemoryState`: the next instruction, the registers, the cursors and the
tables. -/
structure MemoryState where
  programI : Nat
  r : IntMap RegDataType
  p : IntMap CursorDataType
  t : IntMap TableDataType

namespace MemoryState

/-- The memory the walk starts from. -/
def initial : MemoryState := ⟨0, IntMap.new, IntMap.new, IntMap.new⟩

/-- `state.mem.r.insert(k, v)`, the old value dropped. -/
def setReg (m : MemoryState) (k : Int) (v : RegDataType) : Option MemoryState := do
  let (r, _) ← m.r.insert k v
  pure { m with r }

/-- `state.mem.r.remove(&k)`. -/
def removeReg (m : MemoryState) (k : Int) : Option MemoryState := do
  let (r, _) ← m.r.remove k
  pure { m with r }

/-- `if let Some(v) = state.mem.r.get_mut(&k) { … }`. -/
def modifyReg (m : MemoryState) (k : Int) (f : RegDataType → Option RegDataType) : Option MemoryState := do
  let r ← m.r.modifyAt k f
  pure { m with r }

/-- `state.mem.p.insert(k, c)`. -/
def setCursor (m : MemoryState) (k : Int) (c : CursorDataType) : Option MemoryState := do
  let (p, _) ← m.p.insert k c
  pure { m with p }

/-- `state.mem.t.insert(k, tab)`. -/
def setTable (m : MemoryState) (k : Int) (tab : TableDataType) : Option MemoryState := do
  let (t, _) ← m.t.insert k tab
  pure { m with t }

/-- `state.mem.program_i = n`. -/
def jumpTo (m : MemoryState) (n : Nat) : MemoryState := { m with programI := n }

/-- `state.mem.program_i += 1`. -/
def incrPc (m : MemoryState) : Option MemoryState := do
  let n ← checkedUsize (m.programI + 1)
  pure (m.jumpTo n)

@[simp] theorem jumpTo_programI (m : MemoryState) (n : Nat) : (m.jumpTo n).programI = n := rfl

theorem incrPc_of_lt {m : MemoryState} (h : m.programI < isizeMax) : m.incrPc = some (m.jumpTo (m.programI + 1)) := by
  rw [incrPc, checkedUsize_of_lt (by unfold isizeMax at h; omega)]
  rfl

end MemoryState

/-- `BranchParent` (`logger.rs`): the branch a branch was forked from, and
the count of instructions it had run. -/
structure BranchParent where
  id : Int
  idx : Int

/-- `QueryState`: one branch of the walk. Its `result` field stays `None`
throughout and is left out. -/
structure QueryState where
  visited : List Nat
  branchId : Int
  instructionCounter : Int
  branchParent : Option BranchParent
  mem : MemoryState

/-- `new_branch`, taking the id from `branch_seq` (`Sequence::next`), with
the memory the caller then gives the branch. -/
def QueryState.newBranch (self : QueryState) (branchSeq : Int) (mem : MemoryState) :
    Option (QueryState × Int) := do
  let idx ← checkedI64 (self.instructionCounter - 1)
  let next ← checkedI64 (branchSeq + 1)
  pure (⟨self.visited, branchSeq, 0, some ⟨self.branchId, idx⟩, mem⟩, next)

/-! ## What keeps the walk clear of panics -/

/-- A register's value as the walk needs it: an integer it knows is an
`i64` no lower than `lo` and below `i64::MAX`, so that `+ 1` on it fits. -/
def RegOk (lo : Int) : RegDataType → Prop
  | .single _ => True
  | .int v => lo ≤ v ∧ v < i64Max

/-- A cursor names its table or its register by a key in range. -/
def CursorOk : CursorDataType → Prop
  | .normal i => 0 ≤ i
  | .pseudo i => 0 ≤ i

/-- The memory invariant at the lower bound `lo`. -/
structure MemInv (lo : Int) (m : MemoryState) : Prop where
  regs : m.r.All (RegOk lo)
  cursors : m.p.All CursorOk

/-- `m'` keeps the invariant and stays at the instruction of `m`. -/
def Keeps (lo : Int) (m m' : MemoryState) : Prop := MemInv lo m' ∧ m'.programI = m.programI

@[simp] theorem regOk_single (lo : Int) (c : ColumnType) : RegOk lo (.single c) := trivial

theorem RegOk.mono {lo lo' : Int} {v : RegDataType} (h : RegOk lo v) (hle : lo' ≤ lo) : RegOk lo' v := by
  cases v with
  | single c => trivial
  | int v => exact ⟨Int.le_trans hle h.1, h.2⟩

theorem MemInv.initial (lo : Int) : MemInv lo MemoryState.initial := ⟨IntMap.All.new, IntMap.All.new⟩

theorem MemInv.mono {lo lo' : Int} {m : MemoryState} (h : MemInv lo m) (hle : lo' ≤ lo) : MemInv lo' m :=
  ⟨fun i v hv => (h.regs i v hv).mono hle, h.cursors⟩

theorem MemInv.jumpTo {lo : Int} {m : MemoryState} (h : MemInv lo m) (n : Nat) : MemInv lo (m.jumpTo n) :=
  ⟨h.regs, h.cursors⟩

theorem Keeps.refl {lo : Int} {m : MemoryState} (h : MemInv lo m) : Keeps lo m m := ⟨h, rfl⟩

theorem Keeps.trans {lo : Int} {m₁ m₂ m₃ : MemoryState} (h₁ : Keeps lo m₁ m₂) (h₂ : Keeps lo m₂ m₃) :
    Keeps lo m₁ m₃ := ⟨h₂.1, h₂.2.trans h₁.2⟩

section Writes

variable {lo : Int} {m : MemoryState} {k : Int}

/-- A register read at a key in range: no panic, and a value that keeps to
the bounds. -/
theorem MemInv.getReg_ends (h : MemInv lo m) (hk : 0 ≤ k) :
    Ends (m.r.get k) fun o => ∀ v, o = some v → RegOk lo v :=
  ⟨_, IntMap.get_of_nonneg m.r hk, fun v hv => h.regs _ v hv⟩

theorem MemInv.getCursor_ends (h : MemInv lo m) (hk : 0 ≤ k) :
    Ends (m.p.get k) fun o => ∀ c, o = some c → CursorOk c :=
  ⟨_, IntMap.get_of_nonneg m.p hk, fun c hc => h.cursors _ c hc⟩

theorem incrPc_ends (h : MemInv lo m) (hpc : m.programI < isizeMax) : Ends m.incrPc (MemInv lo) :=
  ⟨_, MemoryState.incrPc_of_lt hpc, h.jumpTo _⟩

/-- The tables are not part of the invariant. -/
theorem MemInv.withTables (h : MemInv lo m) (t : IntMap TableDataType) : MemInv lo { m with t } :=
  ⟨h.regs, h.cursors⟩

theorem setReg_ends (h : MemInv lo m) (hk : 0 ≤ k) {v : RegDataType} (hv : RegOk lo v) :
    Ends (m.setReg k v) (Keeps lo m) :=
  (IntMap.insert_ends hk h.regs hv).bind fun _ hres => Ends.pure ⟨⟨hres, h.cursors⟩, rfl⟩

theorem removeReg_ends (h : MemInv lo m) (hk : 0 ≤ k) : Ends (m.removeReg k) (Keeps lo m) :=
  (IntMap.remove_ends hk h.regs).bind fun _ hres => Ends.pure ⟨⟨hres, h.cursors⟩, rfl⟩

/-- A write through `get_mut` to a register; the value written may lower the
bound, from `lo` to `lo'`. -/
theorem modifyReg_ends (h : MemInv lo m) (hk : 0 ≤ k) {lo' : Int} (hle : lo' ≤ lo)
    {f : RegDataType → Option RegDataType} (hf : ∀ v, RegOk lo v → Ends (f v) (RegOk lo')) :
    Ends (m.modifyReg k f) (Keeps lo' m) :=
  (IntMap.modifyAt_ends hk h.regs (fun _ hv => hv.mono hle) hf).bind fun _ hr => Ends.pure ⟨⟨hr, h.cursors⟩, rfl⟩

theorem setCursor_ends (h : MemInv lo m) (hk : 0 ≤ k) {c : CursorDataType} (hc : CursorOk c) :
    Ends (m.setCursor k c) (Keeps lo m) :=
  (IntMap.insert_ends hk h.cursors hc).bind fun _ hres => Ends.pure ⟨⟨h.regs, hres⟩, rfl⟩

theorem setTable_ends (h : MemInv lo m) (hk : 0 ≤ k) (tab : TableDataType) :
    Ends (m.setTable k tab) (Keeps lo m) :=
  (IntMap.insert_ends (P := fun _ => True) hk (fun _ _ _ => trivial) trivial).bind fun _ _ =>
    Ends.pure ⟨⟨h.regs, h.cursors⟩, rfl⟩

end Writes

section Cursors

variable {c : CursorDataType} (hc : CursorOk c) (tables : IntMap TableDataType) (registers : IntMap RegDataType)
include hc

theorem CursorDataType.columns_ends : Ends (c.columns tables registers) fun _ => True := by
  cases c with
  | normal i =>
    rw [columns, IntMap.get_of_nonneg _ hc]
    exact Ends.bind (P := fun _ => True) (Ends.pure trivial) fun _ _ => by split <;> exact Ends.pure trivial
  | pseudo i =>
    rw [columns, IntMap.get_of_nonneg _ hc]
    exact Ends.bind (P := fun _ => True) (Ends.pure trivial) fun _ _ => by split <;> exact Ends.pure trivial

theorem CursorDataType.columnsRef_ends : Ends (c.columnsRef tables registers) fun _ => True := by
  cases c with
  | normal i =>
    rw [columnsRef, IntMap.get_of_nonneg _ hc]
    exact Ends.bind (P := fun _ => True) (Ends.pure trivial) fun _ _ => by split <;> exact Ends.pure trivial
  | pseudo i =>
    rw [columnsRef, IntMap.get_of_nonneg _ hc]
    exact Ends.bind (P := fun _ => True) (Ends.pure trivial) fun _ _ => by split <;> exact Ends.pure trivial

theorem CursorDataType.isEmpty_ends : Ends (c.isEmpty tables) fun _ => True := by
  cases c with
  | normal i =>
    rw [isEmpty, IntMap.get_of_nonneg _ hc]
    exact Ends.bind (P := fun _ => True) (Ends.pure trivial) fun _ _ => by split <;> exact Ends.pure trivial
  | pseudo i => exact Ends.pure trivial

theorem CursorDataType.modifyTable_ends (f : TableDataType → TableDataType) :
    Ends (c.modifyTable tables f) fun _ => True := by
  cases c with
  | normal i =>
    exact (IntMap.modifyAt_ends (P := fun _ => True) (Q := fun _ => True) hc (fun _ _ _ => trivial)
      (fun _ _ => trivial) fun _ _ => Ends.pure trivial).mono fun _ _ => trivial
  | pseudo i => exact Ends.pure trivial

end Cursors

end Sqlx.Sqlite
