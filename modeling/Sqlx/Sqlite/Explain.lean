import Sqlx.Sqlite.ExplainOps

/-!
# SQLite — the `EXPLAIN` walk and its result (`connection/explain.rs`)

`explain` runs the program over abstract values, one branch at a time. A
`BranchList` holds the branches still to run, as a stack, and the memories
already pushed: a branch whose memory is equal to one pushed before is
dropped. The memory is the `HashMap` key, so "equal" is its `Eq`. The model
takes that equality as a parameter `same`, and every result here holds
whatever it identifies.

The outer loop pops a branch. The inner loop runs it while its instruction
is inside the program. Each instruction spends one unit of gas (`100_000`
in all) and one visit of the instruction (at most three per branch). It then
forks branches and goes on, or the branch ends. When no branch is left,
every `ResultRow` reached is merged into one type and one nullability per
column.

`Loop.tick` is one turn of either loop, and `Loop.run` runs turns with
fuel. The fuel `explainFuel` is never the limit (`ExplainBudget`), so
`explain` is the source's walk. `steps` and `pops` count the instructions
that spent gas and the branches popped; the source keeps no such counts.
-/

namespace Sqlx.Sqlite

open Panic

/-- `MAX_LOOP_COUNT`. -/
def maxLoopCount : Nat := 2

/-- `MAX_TOTAL_INSTRUCTION_COUNT`. -/
def maxTotalInstructionCount : Nat := 100000

/-- The state the branches share: the gas left, `branch_seq`, the
`BranchList` (the branches still to run, the top first, and the memories
pushed so far) and `result_states` (the last pushed first); then the counts
of instructions that spent gas and of branches popped. -/
structure Walk where
  gas : Nat
  branchSeq : Int
  states : List QueryState
  visitedBranchState : List MemoryState
  resultStates : List (List ColumnType)
  steps : Nat
  pops : Nat

section Walk

variable (same : MemoryState → MemoryState → Bool)

/-- `BranchList::push`: `state.branch_parent.unwrap()` for the logger, then
the branch kept unless a memory equal to its own was pushed before. -/
def Walk.push (w : Walk) (state : QueryState) : Option Walk := do
  let _ ← state.branchParent
  if w.visitedBranchState.any (same state.mem) then pure w
  else pure { w with visitedBranchState := state.mem :: w.visitedBranchState, states := state :: w.states }

/-- The branches an instruction forks: each made by `new_branch` from the
running branch, given its memory, and pushed, in order. -/
def Walk.fork (w : Walk) (state : QueryState) : List MemoryState → Option Walk
  | [] => pure w
  | mem :: rest => do
    let (branch, next) ← state.newBranch w.branchSeq mem
    let w ← Walk.push same { w with branchSeq := next } branch
    Walk.fork w state rest

/-- Where the running branch goes after its instruction. -/
def Walk.land (w : Walk) (state : QueryState) : Flow → Option (Walk × Option QueryState)
  | .next mem => pure (w, some { state with mem })
  | .fallThrough mem => do
    let mem ← mem.incrPc
    pure (w, some { state with mem })
  | .stop => pure (w, none)
  | .result row => pure ({ w with resultStates := row :: w.resultStates }, none)

/-- One turn of the inner loop, on a branch whose instruction is inside the
program: the gas and loop limits, the instruction, its branches pushed, and
the branch going on or ending. -/
def Walk.step (program : List Row) (rootBlockCols : Int × Int → Option (IntMap ColumnType)) (w : Walk)
    (state : QueryState) : ExceptT Error Option (Walk × Option QueryState) := do
  let row ← ExceptT.lift program[state.mem.programI]?
  let counter ← ExceptT.lift (checkedI64 (state.instructionCounter + 1))
  let state := { state with instructionCounter := counter }
  -- the gas limit
  if w.gas = 0 then pure (w, none)
  else do
    let w := { w with gas := w.gas - 1, steps := w.steps + 1 }
    let count ← ExceptT.lift state.visited[state.mem.programI]?
    -- the loop limit
    if maxLoopCount < count then pure (w, none)
    else do
      let count ← ExceptT.lift (checkedU8 (count + 1))
      let state := { state with visited := state.visited.set state.mem.programI count }
      let (branches, flow) ← handle program rootBlockCols count row state.mem
      let w ← ExceptT.lift (w.fork same state branches)
      ExceptT.lift (w.land state flow)

/-- Where the walk is: the shared state, and the branch being run, if any. -/
structure Loop where
  walk : Walk
  current : Option QueryState

/-- One turn of `explain`'s loops: pop a branch when none is running, run
the running branch's instruction while it is inside the program, or let the
branch go when it has left the program. `.inr` is the end of the outer loop. -/
def Loop.tick (program : List Row) (rootBlockCols : Int × Int → Option (IntMap ColumnType)) (l : Loop) :
    ExceptT Error Option (Loop ⊕ Walk) :=
  match l.current with
  | none =>
    match l.walk.states with
    | [] => pure (.inr l.walk)
    | s :: rest => pure (.inl ⟨{ l.walk with states := rest, pops := l.walk.pops + 1 }, some s⟩)
  | some s =>
    if s.mem.programI < program.length then do
      let (w, s') ← l.walk.step same program rootBlockCols s
      pure (.inl ⟨w, s'⟩)
    else pure (.inl ⟨l.walk, none⟩)

/-- Turns until the outer loop ends; out of fuel is `none`. -/
def Loop.run (program : List Row) (rootBlockCols : Int × Int → Option (IntMap ColumnType)) :
    Nat → Loop → ExceptT Error Option Walk
  | 0, _ => ExceptT.lift none
  | fuel + 1, l => do
    match ← l.tick same program rootBlockCols with
    | .inl l' => Loop.run program rootBlockCols fuel l'
    | .inr w => pure w

end Walk

/-- The first branch: no instruction visited, id `0` from `branch_seq`. -/
def initialState (program : List Row) : QueryState :=
  ⟨List.replicate program.length 0, 0, 0, none, MemoryState.initial⟩

/-- The walk before the outer loop: all the gas, `branch_seq` at `1`, and
the first branch on the stack. -/
def initialLoop (program : List Row) : Loop :=
  ⟨⟨maxTotalInstructionCount, 1, [initialState program], [], [], 0, 0⟩, none⟩

/-- Fuel enough for every walk: each turn lowers `7 * gas + 2 * stack + running`. -/
def explainFuel : Nat := 7 * maxTotalInstructionCount + 3

/-! ## The result -/

/-- A column's type merged into the output: pushed past the end, or
replacing an unknown or null type with a known one. -/
def mergeType (output : List (Option DataType)) (idx : Nat) (thisType : DataType) :
    Option (List (Option DataType)) :=
  if output.length = idx then pure (output ++ [some thisType])
  else do
    let o ← output[idx]?
    if o.isNone || (o == some .null && thisType != .null) then pure (output.set idx (some thisType))
    else pure output

/-- A column's nullability merged in: nullable if any row's column may be. -/
def mergeNullable (nullable : List (Option Bool)) (idx : Nat) (thisNullable : Option Bool) :
    Option (List (Option Bool)) :=
  if nullable.length = idx then pure (nullable ++ [thisNullable])
  else do
    match ← nullable[idx]? with
    | some n =>
      match thisNullable with
      | some thisNull => pure (nullable.set idx (some (n || thisNull)))
      | none => pure nullable
    | none => pure (nullable.set idx thisNullable)

/-- One column of a row, with its index, merged into the output. -/
def mergeColumn (acc : List (Option DataType) × List (Option Bool)) (col : ColumnType × Nat) :
    Option (List (Option DataType) × List (Option Bool)) := do
  let output ← mergeType acc.1 col.2 col.1.mapToDatatype
  let nullable ← mergeNullable acc.2 col.2 col.1.mapToNullable
  pure (output, nullable)

/-- `for (idx, this_col) in result.into_iter().enumerate()`. -/
def mergeRow (acc : List (Option DataType) × List (Option Bool)) (result : List ColumnType) :
    Option (List (Option DataType) × List (Option Bool)) :=
  result.zipIdx.foldlM mergeColumn acc

/-- `while let Some(result) = result_states.pop()`: the rows, the last
reached first. -/
def mergeResults (resultStates : List (List ColumnType)) : Option (List (Option DataType) × List (Option Bool)) :=
  resultStates.foldlM mergeRow ([], [])

/-- `explain`: the walk from the first branch, then the merge of its rows,
an unknown type read as `Null`. -/
def explain (same : MemoryState → MemoryState → Bool) (rootBlockCols : Int × Int → Option (IntMap ColumnType))
    (program : List Row) : ExceptT Error Option (List DataType × List (Option Bool)) := do
  let w ← Loop.run same program rootBlockCols explainFuel (initialLoop program)
  let merged ← ExceptT.lift (mergeResults w.resultStates)
  pure (merged.1.map (·.getD .null), merged.2)

/-- The number of columns of the widest row. -/
def widest (rows : List (List ColumnType)) : Nat := (rows.map List.length).foldr max 0

end Sqlx.Sqlite
