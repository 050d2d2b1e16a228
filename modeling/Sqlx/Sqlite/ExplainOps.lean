import Sqlx.Sqlite.ExplainState
import Sqlx.Lib.Reader
import Sqlx.Lib.Utf8

/-!
# SQLite — the instructions of the `EXPLAIN` walk (`connection/explain.rs`)

The inner loop of `explain` runs one instruction of the program at a time,
by a `match` on its opcode. Each arm of the `match` is a definition here. It
takes the operands it reads and the branch's memory, and hands back two
things: the memories of the branches it forks, in the order they are pushed,
and where the branch itself goes (`Flow`). An arm that reads `p4` as text
fails with `from_utf8`'s error through `?`. `armOf` is the `match` itself:
which arm an opcode string selects.

Each arm has its `_ends` lemma. Take a memory that keeps the invariant at
`lo`, and the operands SQLite writes (`0 ≤ p ≤ i32::MAX`). Then the arm does
not panic and forks at most three branches (`Jump` forks three). Every memory
it hands back keeps the invariant at `lo`, and at `lo - 1` for `IfPos`, the
one arm that lowers a register. `handle_ends` puts the arms together.
-/

namespace Sqlx.Sqlite

open Panic

/-- A row of `EXPLAIN`'s output as the walk reads it: the opcode and the
operands `p1`, `p2`, `p3` and `p4`. The address column is not read. -/
structure Row where
  opcode : String
  p1 : Int
  p2 : Int
  p3 : Int
  p4 : List UInt8

/-- The operands SQLite writes: `p1`, `p2` and `p3` from `0` to `i32::MAX`. -/
structure Row.InRange (row : Row) : Prop where
  p1_nonneg : 0 ≤ row.p1
  p1_le : row.p1 ≤ i32Max
  p2_nonneg : 0 ≤ row.p2
  p2_le : row.p2 ≤ i32Max
  p3_nonneg : 0 ≤ row.p3
  p3_le : row.p3 ≤ i32Max

instance (row : Row) : Decidable row.InRange :=
  decidable_of_iff (0 ≤ row.p1 ∧ row.p1 ≤ i32Max ∧ 0 ≤ row.p2 ∧ row.p2 ≤ i32Max ∧ 0 ≤ row.p3 ∧ row.p3 ≤ i32Max)
    ⟨fun ⟨h₁, h₂, h₃, h₄, h₅, h₆⟩ => ⟨h₁, h₂, h₃, h₄, h₅, h₆⟩, fun h => ⟨h.1, h.2, h.3, h.4, h.5, h.6⟩⟩

/-- `Error::Protocol`, the one error the walk returns: a `p4` that is not UTF-8. -/
inductive Error where
  | protocol (message : String)

/-- `from_utf8(p4).map_err(Error::protocol)?`. -/
def p4Text (p4 : List UInt8) : ExceptT Error Option (List UInt8) :=
  match Utf8.fromUtf8 p4 with
  | .ok text => pure text
  | .error message => throw (.protocol message)

/-- `OP_YIELD`. -/
def yieldOpcode : String := "Yield"

/-- `str::starts_with` with an ASCII pattern. -/
def startsWith (text : List UInt8) (pat : String) : Bool := (Wire.asciiBytes pat.toList).isPrefixOf text

/-- `==` with an ASCII string. -/
def textIs (text : List UInt8) (s : String) : Bool := text == Wire.asciiBytes s.toList

/-- Where an arm leaves its branch: `continue` with a memory; out of the
`match`, where `program_i += 1` follows; `break`; or `ResultRow`'s row kept,
then `break`. -/
inductive Flow where
  | next (mem : MemoryState)
  | fallThrough (mem : MemoryState)
  | stop
  | result (row : List ColumnType)

/-- What an arm hands its branch keeps the invariant at `lo`; a memory that
falls through stays at the instruction of `m`. -/
def Flow.Ok (lo : Int) (m : MemoryState) : Flow → Prop
  | .next m' => MemInv lo m'
  | .fallThrough m' => Keeps lo m m'
  | .stop => True
  | .result _ => True

/-- What an arm hands back from `m`, at the bound `lo`: at most three
branches, each keeping the invariant, and a flow that keeps it. -/
structure ArmOk (lo : Int) (m : MemoryState) (out : List MemoryState × Flow) : Prop where
  length_le : out.1.length ≤ 3
  branches : ∀ b ∈ out.1, MemInv lo b
  flow : out.2.Ok lo m

/-! ## Helpers the arms share -/

/-- A branch forked when `c` holds: `let mut branch_state = …; states.push(…)`
under an `if`. -/
def forkIf (c : Bool) (branch : Option MemoryState) : Option (List MemoryState) :=
  if c then do
    let b ← branch
    pure [b]
  else pure []

/-- `if let Some(RegDataType::Single(ColumnType::Single { nullable, .. })) = … { *nullable = n }`. -/
def ColumnType.withNullable (n : Option Bool) : ColumnType → ColumnType
  | .single d _ => .single d n
  | c => c

/-- The same through a register. -/
def RegDataType.withNullable (n : Option Bool) : RegDataType → RegDataType
  | .single c => .single (c.withNullable n)
  | v => v

/-- `*r_p1 -= 1` on a register holding an integer. -/
def RegDataType.decrement : RegDataType → Option RegDataType
  | .int v => do
    let v ← checkedI64 (v - 1)
    pure (.int v)
  | v => pure v

/-- `state.mem.r.get(&i).map(|d| d.map_to_columntype()).unwrap_or_default()`. -/
def readColumn (m : MemoryState) (i : Int) : Option ColumnType := do
  match ← m.r.get i with
  | some d => pure d.mapToColumntype
  | none => pure default

/-- `state.mem.p.get(&p1).and_then(|cur| cur.table_mut(&mut state.mem.t))`,
and the change made through it. -/
def MemoryState.writeTable (m : MemoryState) (p1 : Int) (f : TableDataType → TableDataType) :
    Option MemoryState := do
  match ← m.p.get p1 with
  | some cur => do
    let t ← cur.modifyTable m.t f
    pure { m with t }
  | none => pure m

section Helpers

variable {lo : Int} {m : MemoryState}

theorem ArmOk.mono {lo' : Int} {out : List MemoryState × Flow} (h : ArmOk lo m out) (hle : lo' ≤ lo) :
    ArmOk lo' m out := by
  refine ⟨h.length_le, fun b hb => (h.branches b hb).mono hle, ?_⟩
  have hflow := h.flow
  rcases out with ⟨bs, _ | _ | _ | _⟩
  · exact MemInv.mono hflow hle
  · exact ⟨hflow.1.mono hle, hflow.2⟩
  · trivial
  · trivial

/-- An arm that forks at most one branch. -/
theorem ArmOk.ofFork {bs : List MemoryState} {f : Flow} (hbs : bs.length ≤ 1 ∧ ∀ b ∈ bs, MemInv lo b)
    (hf : f.Ok lo m) : ArmOk lo m (bs, f) :=
  ⟨Nat.le_trans hbs.1 (by decide), hbs.2, hf⟩

theorem ArmOk.nil {f : Flow} (hf : f.Ok lo m) : ArmOk lo m ([], f) :=
  ArmOk.ofFork ⟨Nat.zero_le _, fun _ h => absurd h List.not_mem_nil⟩ hf

theorem forkIf_ends {c : Bool} {x : Option MemoryState} (hx : c = true → Ends x (MemInv lo)) :
    Ends (forkIf c x) fun bs => bs.length ≤ 1 ∧ ∀ b ∈ bs, MemInv lo b := by
  unfold forkIf
  split
  · rename_i hc
    exact (hx hc).bind fun b hb => Ends.pure ⟨le_rfl, fun b' hb' => by
      rw [List.mem_singleton] at hb'
      exact hb' ▸ hb⟩
  · exact Ends.pure ⟨Nat.zero_le _, fun _ h => absurd h List.not_mem_nil⟩

/-- An arm that writes the memory and falls through. -/
theorem fallThrough_ends {x : Option MemoryState} (hx : Ends x (Keeps lo m)) :
    Ends (do let m' ← x; pure ([], Flow.fallThrough m')) (ArmOk lo m) :=
  hx.bind fun _ hm' => Ends.pure (ArmOk.nil hm')

theorem stay_ends (hm : MemInv lo m) : Ends (pure ([], Flow.fallThrough m)) (ArmOk lo m) :=
  Ends.pure (ArmOk.nil (Keeps.refl hm))

theorem stop_ends : Ends (pure ([], Flow.stop)) (ArmOk lo m) := Ends.pure (ArmOk.nil trivial)

theorem RegOk.withNullable {v : RegDataType} (h : RegOk lo v) (n : Option Bool) : RegOk lo (v.withNullable n) := by
  cases v with
  | single c => trivial
  | int v => exact h

theorem RegOk.decrement_ends (hlo : -i64Max ≤ lo) {v : RegDataType} (h : RegOk lo v) :
    Ends v.decrement (RegOk (lo - 1)) := by
  cases v with
  | single c => exact Ends.pure trivial
  | int v =>
    obtain ⟨hvlo, hvhi⟩ := h
    have hfit : checkedI64 (v - 1) = some (v - 1) := checkedI64_of_le (by unfold i64Max at *; omega) (by omega)
    exact ⟨.int (v - 1), by rw [RegDataType.decrement, hfit]; rfl, show lo - 1 ≤ v - 1 ∧ v - 1 < i64Max by omega⟩

/-- A program counter stored as an integer keeps to the bounds. -/
theorem regOk_asI64 (hlo0 : lo ≤ 0) {n : Nat} (hn : n < isizeMax) : RegOk lo (.int (asI64 n)) := by
  unfold isizeMax at hn
  rw [asI64_of_lt (by omega)]
  exact ⟨by omega, by unfold i64Max; omega⟩

/-- An operand stored as an integer keeps to the bounds. -/
theorem regOk_operand (hlo0 : lo ≤ 0) {v : Int} (hv : 0 ≤ v) (hle : v ≤ i32Max) : RegOk lo (.int v) := by
  unfold i32Max at hle
  exact ⟨by omega, by unfold i64Max; omega⟩

/-- The sum of two operands is an `i64`. -/
theorem checkedI64_add {a b : Int} (ha : 0 ≤ a) (ha' : a ≤ i32Max) (hb : 0 ≤ b) (hb' : b ≤ i32Max) :
    checkedI64 (a + b) = some (a + b) := by
  unfold i32Max at ha' hb'
  exact checkedI64_of_le (by omega) (by unfold i64Max; omega)

theorem readColumn_ends (hm : MemInv lo m) {i : Int} (hi : 0 ≤ i) : Ends (readColumn m i) fun _ => True := by
  unfold readColumn
  refine (hm.getReg_ends hi).bind fun o _ => ?_
  cases o <;> exact Ends.pure trivial

theorem writeTable_ends (hm : MemInv lo m) {p1 : Int} (hp1 : 0 ≤ p1) (f : TableDataType → TableDataType) :
    Ends (m.writeTable p1 f) (Keeps lo m) := by
  unfold MemoryState.writeTable
  refine (hm.getCursor_ends hp1).bind fun o ho => ?_
  cases o with
  | some cur =>
    exact (CursorDataType.modifyTable_ends (ho cur rfl) m.t f).bind fun t _ =>
      Ends.pure ⟨hm.withTables t, rfl⟩
  | none => exact Ends.pure (Keeps.refl hm)

end Helpers

/-! ## Control flow -/

/-- `Init`, `Goto`, `FkIfZero`: on to `p2`. -/
def goTo (p2 : Int) (m : MemoryState) : Option (List MemoryState × Flow) :=
  pure ([], .next (m.jumpTo (asUsize p2)))

/-- `Gosub`: the instruction stored in `r[p1]`, on to `p2`. -/
def goSub (p1 p2 : Int) (m : MemoryState) : Option (List MemoryState × Flow) := do
  let m' ← m.setReg p1 (.int (asI64 m.programI))
  pure ([], .next (m'.jumpTo (asUsize p2)))

/-- The conditional jumps whose outcome depends on values the walk does not
know (`DecrJumpZero`, `Eq`, `Next`, `SeekGE`, …): a branch to `p2`, and the
next instruction. -/
def jumpOrNext (p2 : Int) (m : MemoryState) : Option (List MemoryState × Flow) := do
  let b := m.jumpTo (asUsize p2)
  let m ← m.incrPc
  pure ([b], .next m)

/-- `IsNull`: a branch to `p2` when `r[p1]` may be null, with `r[p1]` null of
unknown nullability there; the next instruction when it may be something
else, with `r[p1]` not null. -/
def isNull (p1 p2 : Int) (m : MemoryState) : Option (List MemoryState × Flow) := do
  let rp1 ← m.r.get p1
  let mightBranch : Bool := match rp1 with
    | some r => r.mapToNullable != some false
    | none => false
  let mightNotBranch : Bool := match rp1 with
    | some r => r.mapToDatatype != .null
    | none => false
  let branches ← forkIf mightBranch ((m.jumpTo (asUsize p2)).setReg p1 (.single default))
  if mightNotBranch then do
    let m ← m.incrPc
    let m ← m.modifyReg p1 fun v => some (v.withNullable (some false))
    pure (branches, .next m)
  else pure (branches, .stop)

/-- `NotNull`: the other way round from `IsNull`. -/
def notNull (p1 p2 : Int) (m : MemoryState) : Option (List MemoryState × Flow) := do
  let rp1 ← m.r.get p1
  let mightBranch : Bool := match rp1 with
    | some r => r.mapToDatatype != .null
    | none => false
  let mightNotBranch : Bool := match rp1 with
    | some r => r.mapToNullable != some false
    | none => false
  let branches ← forkIf mightBranch
    ((m.jumpTo (asUsize p2)).modifyReg p1 fun v => some (v.withNullable (some false)))
  if mightNotBranch then do
    let m ← m.incrPc
    let m ← m.setReg p1 (.single default)
    pure (branches, .next m)
  else pure (branches, .stop)

/-- `MustBeInt`: a branch to `p2` unless it is `0`, and the next instruction. -/
def mustBeInt (p2 : Int) (m : MemoryState) : Option (List MemoryState × Flow) := do
  let branches := if p2 ≠ 0 then [m.jumpTo (asUsize p2)] else []
  let m ← m.incrPc
  pure (branches, .next m)

/-- `If`: a branch to `p2` unless `r[p1]` is known to be `0`, the next
instruction unless it is known not to be; with `p3 = 0` the register takes
the value each side implies. -/
def opIf (p1 p2 p3 : Int) (m : MemoryState) : Option (List MemoryState × Flow) := do
  let rp1 ← m.r.get p1
  let mightBranch : Bool := match rp1 with
    | some (.int v) => v != 0
    | _ => true
  let mightNotBranch : Bool := match rp1 with
    | some (.int v) => v == 0
    | _ => true
  let branches ← forkIf mightBranch
    (if p3 = 0 then (m.jumpTo (asUsize p2)).setReg p1 (.int 1) else pure (m.jumpTo (asUsize p2)))
  if mightNotBranch then do
    let m ← m.incrPc
    let m ← (if p3 = 0 then m.setReg p1 (.int 0) else pure m)
    pure (branches, .next m)
  else pure (branches, .stop)

/-- `IfPos`: a branch to `p2`, with `r[p1]` lowered by one, when `r[p1]` may
be positive or the instruction has run more than once; the next instruction
when it may not be positive, or, after a loop, with the integer forgotten. -/
def ifPos (p1 p2 : Int) (visitedHere : Nat) (m : MemoryState) : Option (List MemoryState × Flow) := do
  let rp1 ← m.r.get p1
  let mightBranch : Bool := match rp1 with
    | some (.int v) => decide (1 ≤ v)
    | _ => true
  let mightNotBranch : Bool := match rp1 with
    | some (.int v) => decide (v < 1)
    | _ => true
  let loopDetected : Bool := decide (1 < visitedHere)
  let branches ← forkIf (mightBranch || loopDetected) ((m.jumpTo (asUsize p2)).modifyReg p1 RegDataType.decrement)
  if mightNotBranch then do
    let m ← m.incrPc
    pure (branches, .next m)
  else if loopDetected then do
    let m ← m.incrPc
    match ← m.r.get p1 with
    | some (.int _) => do
      let m ← m.setReg p1 (.single (.single .integer (some false)))
      pure (branches, .next m)
    | _ => pure (branches, .next m)
  else pure (branches, .stop)

/-- `Rewind`, `Last`, `Sort`, `SorterSort`: a branch to `p2` when the cursor
may be empty, with its table marked empty there; the next instruction when it
may not be. -/
def rewind (p1 p2 : Int) (m : MemoryState) : Option (List MemoryState × Flow) := do
  if p2 = 0 then do
    let m ← m.incrPc
    pure ([], .next m)
  else do
    match ← m.p.get p1 with
    | some cursor => do
      let empty ← cursor.isEmpty m.t
      let branches ← forkIf (empty != some false) (do
        let b := m.jumpTo (asUsize p2)
        match ← b.p.get p1 with
        | some cur => do
          let t ← cur.modifyTable b.t fun tab => { tab with isEmpty := some true }
          pure { b with t }
        | none => pure b)
      if empty != some true then do
        let m ← m.incrPc
        pure (branches, .next m)
      else pure (branches, .stop)
    | none => pure ([], .stop)

/-- `InitCoroutine`: `r[p1] = p3`, on to `p2` or the next instruction. -/
def initCoroutine (p1 p2 p3 : Int) (m : MemoryState) : Option (List MemoryState × Flow) := do
  let m ← m.setReg p1 (.int p3)
  if p2 ≠ 0 then pure ([], .next (m.jumpTo (asUsize p2)))
  else do
    let m ← m.incrPc
    pure ([], .next m)

/-- `EndCoroutine`: on to `p2` of the `Yield` that `r[p1]` names, `r[p1]`
removed; the branch ends when there is no such `Yield`. -/
def endCoroutine (program : List Row) (p1 : Int) (m : MemoryState) : Option (List MemoryState × Flow) := do
  match ← m.r.get p1 with
  | some (.int yieldI) =>
    match program[asUsize yieldI]? with
    | some yieldRow =>
      if yieldRow.opcode = yieldOpcode then do
        let m ← (m.jumpTo (asUsize yieldRow.p2)).removeReg p1
        pure ([], .next m)
      else pure ([], .stop)
    | none => pure ([], .stop)
  | _ => pure ([], .stop)

/-- `Return`: on to the instruction after the one `r[p1]` holds, `r[p1]`
removed; without one, on to the next instruction when `p3 = 1`. -/
def opReturn (p1 p3 : Int) (m : MemoryState) : Option (List MemoryState × Flow) := do
  match ← m.r.get p1 with
  | some (.int returnI) => do
    let target ← checkedI64 (returnI + 1)
    let m ← (m.jumpTo (asUsize target)).removeReg p1
    pure ([], .next m)
  | _ =>
    if p3 = 1 then do
      let m ← m.incrPc
      pure ([], .next m)
    else pure ([], .stop)

/-- `Yield`: on to the instruction `r[p1]` holds, or to the one after it
when that is itself a `Yield`, and `r[p1]` takes this instruction. -/
def opYield (program : List Row) (p1 : Int) (m : MemoryState) : Option (List MemoryState × Flow) := do
  match ← m.r.get p1 with
  | some (.int yieldI) =>
    let programI := m.programI
    if (program[asUsize yieldI]?.map Row.opcode) = some yieldOpcode then do
      let target ← checkedI64 (yieldI + 1)
      let m ← (m.jumpTo (asUsize target)).modifyReg p1 fun _ => some (.int (asI64 programI))
      pure ([], .next m)
    else do
      let m ← (m.jumpTo (asUsize yieldI)).modifyReg p1 fun _ => some (.int (asI64 programI))
      pure ([], .next m)
  | _ => pure ([], .stop)

/-- `Jump`: branches to `p1`, `p2` and `p3`, and the branch itself falls
through. -/
def jump (p1 p2 p3 : Int) (m : MemoryState) : Option (List MemoryState × Flow) :=
  pure ([m.jumpTo (asUsize p1), m.jumpTo (asUsize p2), m.jumpTo (asUsize p3)], .fallThrough m)

/-- `ResultRow`: the row `r[p1 .. p1 + p2]` kept, a branch to the next
instruction, and the branch itself ends. -/
def resultRow (p1 p2 : Int) (m : MemoryState) : Option (List MemoryState × Flow) := do
  let last ← checkedI64 (p1 + p2)
  let result ← (intRange p1 last).mapM (readColumn m)
  let b ← m.incrPc
  pure ([b], .result result)

/-- `Halt`. -/
def halt : Option (List MemoryState × Flow) := pure ([], .stop)

section ControlEnds

variable {lo : Int} {m : MemoryState}

theorem goTo_ends (hm : MemInv lo m) (p2 : Int) : Ends (goTo p2 m) (ArmOk lo m) :=
  Ends.pure (ArmOk.nil (hm.jumpTo _))

theorem goSub_ends (hm : MemInv lo m) (hlo0 : lo ≤ 0) (hpc : m.programI < isizeMax) {p1 : Int} (hp1 : 0 ≤ p1)
    (p2 : Int) : Ends (goSub p1 p2 m) (ArmOk lo m) :=
  (setReg_ends hm hp1 (regOk_asI64 hlo0 hpc)).bind fun _ hm' => Ends.pure (ArmOk.nil (hm'.1.jumpTo _))

theorem jumpOrNext_ends (hm : MemInv lo m) (hpc : m.programI < isizeMax) (p2 : Int) :
    Ends (jumpOrNext p2 m) (ArmOk lo m) :=
  (incrPc_ends hm hpc).bind fun _ hm' => Ends.pure (ArmOk.ofFork ⟨le_rfl, by simpa using hm.jumpTo _⟩ hm')

theorem isNull_ends (hm : MemInv lo m) (hpc : m.programI < isizeMax) {p1 : Int} (hp1 : 0 ≤ p1) (p2 : Int) :
    Ends (isNull p1 p2 m) (ArmOk lo m) := by
  unfold isNull
  refine (hm.getReg_ends hp1).bind fun _ _ => ?_
  refine (forkIf_ends fun _ => (setReg_ends (hm.jumpTo _) hp1 (regOk_single _ _)).mono fun _ hb => hb.1).bind
    fun _ hbs => Ends.ite (fun _ => ?_) fun _ => Ends.pure (ArmOk.ofFork hbs trivial)
  refine (incrPc_ends hm hpc).bind fun m₁ hm₁ => ?_
  exact (modifyReg_ends hm₁ hp1 le_rfl fun v hv => Ends.pure (hv.withNullable _)).bind
    fun _ hm₂ => Ends.pure (ArmOk.ofFork hbs hm₂.1)

theorem notNull_ends (hm : MemInv lo m) (hpc : m.programI < isizeMax) {p1 : Int} (hp1 : 0 ≤ p1) (p2 : Int) :
    Ends (notNull p1 p2 m) (ArmOk lo m) := by
  unfold notNull
  refine (hm.getReg_ends hp1).bind fun _ _ => ?_
  refine (forkIf_ends fun _ => (modifyReg_ends (hm.jumpTo _) hp1 le_rfl fun v hv =>
    Ends.pure (hv.withNullable _)).mono fun _ hb => hb.1).bind
    fun _ hbs => Ends.ite (fun _ => ?_) fun _ => Ends.pure (ArmOk.ofFork hbs trivial)
  refine (incrPc_ends hm hpc).bind fun m₁ hm₁ => ?_
  exact (setReg_ends hm₁ hp1 (regOk_single _ _)).bind fun _ hm₂ => Ends.pure (ArmOk.ofFork hbs hm₂.1)

theorem mustBeInt_ends (hm : MemInv lo m) (hpc : m.programI < isizeMax) (p2 : Int) :
    Ends (mustBeInt p2 m) (ArmOk lo m) := by
  unfold mustBeInt
  refine (incrPc_ends hm hpc).bind fun _ hm' => Ends.pure (ArmOk.ofFork ?_ hm')
  by_cases hp2 : p2 ≠ 0
  · rw [if_pos hp2]
    exact ⟨le_rfl, by simpa using hm.jumpTo _⟩
  · rw [if_neg hp2]
    exact ⟨Nat.zero_le _, fun _ h => absurd h List.not_mem_nil⟩

theorem opIf_ends (hm : MemInv lo m) (hlo0 : lo ≤ 0) (hpc : m.programI < isizeMax) {p1 : Int} (hp1 : 0 ≤ p1)
    (p2 p3 : Int) : Ends (opIf p1 p2 p3 m) (ArmOk lo m) := by
  unfold opIf
  have hone : RegOk lo (.int 1) := regOk_operand hlo0 (by decide) (by decide)
  have hzero : RegOk lo (.int 0) := regOk_operand hlo0 le_rfl (by decide)
  refine (hm.getReg_ends hp1).bind fun _ _ => ?_
  -- the branch, with `r[p1] = 1` when `p3 = 0`
  have hbranch : Ends (if p3 = 0 then (m.jumpTo (asUsize p2)).setReg p1 (.int 1) else pure (m.jumpTo (asUsize p2)))
      (MemInv lo) :=
    Ends.ite (fun _ => (setReg_ends (hm.jumpTo _) hp1 hone).mono fun _ hb => hb.1) fun _ => Ends.pure (hm.jumpTo _)
  refine (forkIf_ends fun _ => hbranch).bind
    fun _ hbs => Ends.ite (fun _ => ?_) fun _ => Ends.pure (ArmOk.ofFork hbs trivial)
  -- the next instruction, with `r[p1] = 0` when `p3 = 0`
  refine (incrPc_ends hm hpc).bind fun m₁ hm₁ => ?_
  refine Ends.bind (P := MemInv lo) ?_ fun _ hm₂ => ?_
  · exact Ends.ite (fun _ => (setReg_ends hm₁ hp1 hzero).mono fun _ h => h.1) fun _ => Ends.pure hm₁
  · exact Ends.pure (ArmOk.ofFork hbs hm₂)

/-- `IfPos` is the arm that lowers a register, so its branch keeps the
invariant only at `lo - 1`. -/
theorem ifPos_ends (hm : MemInv lo m) (hlo : -i64Max ≤ lo) (hpc : m.programI < isizeMax) {p1 : Int}
    (hp1 : 0 ≤ p1) (p2 : Int) (visitedHere : Nat) : Ends (ifPos p1 p2 visitedHere m) (ArmOk (lo - 1) m) := by
  unfold ifPos
  have hle : lo - 1 ≤ lo := by omega
  have hm' : MemInv (lo - 1) m := hm.mono hle
  refine (hm.getReg_ends hp1).bind fun _ _ => ?_
  refine (forkIf_ends fun _ => (modifyReg_ends (hm.jumpTo _) hp1 hle fun v hv =>
    hv.decrement_ends hlo).mono fun _ hb => hb.1).bind fun _ hbs => ?_
  refine Ends.ite (fun _ => (incrPc_ends hm' hpc).bind fun _ hm₁ => Ends.pure (ArmOk.ofFork hbs hm₁))
    fun _ => Ends.ite (fun _ => ?_) fun _ => Ends.pure (ArmOk.ofFork hbs trivial)
  -- after a loop: a known integer is forgotten, anything else stays
  refine (incrPc_ends hm' hpc).bind fun m₁ hm₁ => ?_
  refine (hm₁.getReg_ends hp1).bind fun o _ => ?_
  rcases o with _ | _ | _
  · exact Ends.pure (ArmOk.ofFork hbs hm₁)
  · exact Ends.pure (ArmOk.ofFork hbs hm₁)
  · exact (setReg_ends hm₁ hp1 (regOk_single _ _)).bind fun _ hm₂ => Ends.pure (ArmOk.ofFork hbs hm₂.1)

theorem rewind_ends (hm : MemInv lo m) (hpc : m.programI < isizeMax) {p1 : Int} (hp1 : 0 ≤ p1) (p2 : Int) :
    Ends (rewind p1 p2 m) (ArmOk lo m) := by
  unfold rewind
  refine Ends.ite (fun _ => (incrPc_ends hm hpc).bind fun _ hm' => Ends.pure (ArmOk.nil hm')) fun _ => ?_
  refine (hm.getCursor_ends hp1).bind fun o ho => ?_
  cases o with
  | none => exact stop_ends
  | some cursor =>
    refine (cursor.isEmpty_ends (ho cursor rfl) m.t).bind fun _ _ => ?_
    -- the branch marks the same cursor's table empty
    have hbranch : Ends (do
        match ← (m.jumpTo (asUsize p2)).p.get p1 with
        | some cur => do
          let t ← cur.modifyTable (m.jumpTo (asUsize p2)).t fun tab => { tab with isEmpty := some true }
          pure { m.jumpTo (asUsize p2) with t }
        | none => pure (m.jumpTo (asUsize p2))) (MemInv lo) := by
      refine ((hm.jumpTo _).getCursor_ends hp1).bind fun o' ho' => ?_
      cases o' with
      | none => exact Ends.pure (hm.jumpTo _)
      | some cur =>
        exact (cur.modifyTable_ends (ho' cur rfl) _ _).bind fun t _ => Ends.pure ((hm.jumpTo _).withTables t)
    refine (forkIf_ends fun _ => hbranch).bind fun _ hbs => ?_
    exact Ends.ite (fun _ => (incrPc_ends hm hpc).bind fun _ hm' => Ends.pure (ArmOk.ofFork hbs hm'))
      fun _ => Ends.pure (ArmOk.ofFork hbs trivial)

theorem initCoroutine_ends (hm : MemInv lo m) (hlo0 : lo ≤ 0) (hpc : m.programI < isizeMax) {p1 p3 : Int}
    (hp1 : 0 ≤ p1) (hp3 : 0 ≤ p3) (hp3' : p3 ≤ i32Max) (p2 : Int) :
    Ends (initCoroutine p1 p2 p3 m) (ArmOk lo m) := by
  unfold initCoroutine
  refine (setReg_ends hm hp1 (regOk_operand hlo0 hp3 hp3')).bind fun m₁ hm₁ => ?_
  exact Ends.ite (fun _ => Ends.pure (ArmOk.nil (hm₁.1.jumpTo _)))
    fun _ => (incrPc_ends hm₁.1 (hm₁.2 ▸ hpc)).bind fun _ hm₂ => Ends.pure (ArmOk.nil hm₂)

theorem endCoroutine_ends (hm : MemInv lo m) {p1 : Int} (hp1 : 0 ≤ p1) (program : List Row) :
    Ends (endCoroutine program p1 m) (ArmOk lo m) := by
  unfold endCoroutine
  refine (hm.getReg_ends hp1).bind fun o _ => ?_
  rcases o with _ | _ | yieldI
  · exact stop_ends
  · exact stop_ends
  · dsimp only
    split
    · exact Ends.ite (fun _ => (removeReg_ends (hm.jumpTo _) hp1).bind fun _ hm' => Ends.pure (ArmOk.nil hm'.1))
        fun _ => stop_ends
    · exact stop_ends

theorem opReturn_ends (hm : MemInv lo m) (hlo : -i64Max ≤ lo) (hpc : m.programI < isizeMax) {p1 : Int}
    (hp1 : 0 ≤ p1) (p3 : Int) : Ends (opReturn p1 p3 m) (ArmOk lo m) := by
  unfold opReturn
  refine (hm.getReg_ends hp1).bind fun o ho => ?_
  rcases o with _ | _ | returnI
  · exact Ends.ite (fun _ => (incrPc_ends hm hpc).bind fun _ hm' => Ends.pure (ArmOk.nil hm')) fun _ => stop_ends
  · exact Ends.ite (fun _ => (incrPc_ends hm hpc).bind fun _ hm' => Ends.pure (ArmOk.nil hm')) fun _ => stop_ends
  · -- the stored instruction keeps to the bounds, so `+ 1` fits
    obtain ⟨hlo', hhi⟩ := ho _ rfl
    have hfit : checkedI64 (returnI + 1) = some (returnI + 1) :=
      checkedI64_of_le (by unfold i64Max at hlo; omega) (by omega)
    refine Ends.bind_of_eq hfit ?_
    exact (removeReg_ends (hm.jumpTo _) hp1).bind fun _ hm' => Ends.pure (ArmOk.nil hm'.1)

theorem opYield_ends (hm : MemInv lo m) (hlo : -i64Max ≤ lo) (hlo0 : lo ≤ 0) (hpc : m.programI < isizeMax)
    {p1 : Int} (hp1 : 0 ≤ p1) (program : List Row) : Ends (opYield program p1 m) (ArmOk lo m) := by
  unfold opYield
  have hwrite : ∀ v : RegDataType, RegOk lo v →
      Ends ((fun _ => some (RegDataType.int (asI64 m.programI))) v) (RegOk lo) :=
    fun _ _ => Ends.pure (regOk_asI64 hlo0 hpc)
  refine (hm.getReg_ends hp1).bind fun o ho => ?_
  rcases o with _ | _ | yieldI
  · exact stop_ends
  · exact stop_ends
  · dsimp only
    refine Ends.ite (fun _ => ?_) fun _ => ?_
    · obtain ⟨hlo', hhi⟩ := ho _ rfl
      have hfit : checkedI64 (yieldI + 1) = some (yieldI + 1) :=
        checkedI64_of_le (by unfold i64Max at hlo; omega) (by omega)
      refine Ends.bind_of_eq hfit ?_
      exact (modifyReg_ends (hm.jumpTo _) hp1 le_rfl hwrite).bind fun _ hm' => Ends.pure (ArmOk.nil hm'.1)
    · exact (modifyReg_ends (hm.jumpTo _) hp1 le_rfl hwrite).bind fun _ hm' => Ends.pure (ArmOk.nil hm'.1)

theorem jump_ends (hm : MemInv lo m) (p1 p2 p3 : Int) : Ends (jump p1 p2 p3 m) (ArmOk lo m) := by
  refine Ends.pure ⟨le_rfl, ?_, Keeps.refl hm⟩
  intro b hb
  simp only [List.mem_cons, List.not_mem_nil, or_false] at hb
  rcases hb with rfl | rfl | rfl <;> exact hm.jumpTo _

theorem resultRow_ends (hm : MemInv lo m) (hpc : m.programI < isizeMax) {p1 p2 : Int} (hp1 : 0 ≤ p1)
    (hp1' : p1 ≤ i32Max) (hp2 : 0 ≤ p2) (hp2' : p2 ≤ i32Max) : Ends (resultRow p1 p2 m) (ArmOk lo m) := by
  unfold resultRow
  refine Ends.bind_of_eq (checkedI64_add hp1 hp1' hp2 hp2') ?_
  refine (Ends.mapM (intRange p1 (p1 + p2)) fun i hi =>
    readColumn_ends hm (Int.le_trans hp1 (mem_intRange hi).1)).bind fun _ _ => ?_
  exact (incrPc_ends hm hpc).bind fun _ hm' => Ends.pure (ArmOk.ofFork ⟨le_rfl, by simpa using hm'⟩ trivial)

end ControlEnds

/-! ## Registers, cursors and tables -/

/-- What `Column` reads: column `p2` of the row cursor `p1` reads, a null of
unknown nullability when there is none. -/
def columnValue (p1 p2 : Int) (m : MemoryState) : Option ColumnType := do
  match ← m.p.get p1 with
  | some c => do
    match ← c.columnsRef m.t m.r with
    | some cc => do
      match ← cc.get p2 with
      | some v => pure v
      | none => pure default
    | none => pure default
  | none => pure default

/-- `Column`: `r[p3]` takes column `p2` of the row cursor `p1` reads. -/
def column (p1 p2 p3 : Int) (m : MemoryState) : Option (List MemoryState × Flow) := do
  let value ← columnValue p1 p2 m
  let m ← m.setReg p3 (.single value)
  pure ([], .fallThrough m)

/-- `Sequence`: `r[p2]` an integer, never null. -/
def sequence (p2 : Int) (m : MemoryState) : Option (List MemoryState × Flow) := do
  let m ← m.setReg p2 (.single (.single .integer (some false)))
  pure ([], .fallThrough m)

/-- What `RowData` reads: the whole row cursor `p1` reads, empty when there
is no such cursor. -/
def rowRecord (p1 : Int) (m : MemoryState) : Option (IntMap ColumnType) := do
  match ← m.p.get p1 with
  | some c => c.columns m.t m.r
  | none => pure IntMap.new

/-- `RowData`, `SorterData`: `r[p2]` the whole row cursor `p1` reads. -/
def rowData (p1 p2 : Int) (m : MemoryState) : Option (List MemoryState × Flow) := do
  let record ← rowRecord p1 m
  let m ← m.setReg p2 (.single (.record record))
  pure ([], .fallThrough m)

/-- `MakeRecord`: `r[p3]` the record of `r[p1 .. p1 + p2]`. -/
def makeRecord (p1 p2 p3 : Int) (m : MemoryState) : Option (List MemoryState × Flow) := do
  let last ← checkedI64 (p1 + p2)
  let record ← (intRange p1 last).mapM (readColumn m)
  let m ← m.setReg p3 (.single (.record (IntMap.fromDenseRecord record)))
  pure ([], .fallThrough m)

/-- `Insert`, `IdxInsert`, `SorterInsert`: a record in `r[p2]` becomes the
columns of the table cursor `p1` writes, a null makes it non-empty. -/
def insertRecord (p1 p2 : Int) (m : MemoryState) : Option (List MemoryState × Flow) := do
  match ← m.r.get p2 with
  | some (.single (.record record)) => do
    let m ← m.writeTable p1 fun _ => { cols := record, isEmpty := some false }
    pure ([], .fallThrough m)
  | some (.single (.single .null _)) => do
    let m ← m.writeTable p1 fun tab => { tab with isEmpty := some false }
    pure ([], .fallThrough m)
  | _ => pure ([], .fallThrough m)

/-- `Delete`: a table known non-empty may now be empty. -/
def delete (p1 : Int) (m : MemoryState) : Option (List MemoryState × Flow) := do
  let m ← m.writeTable p1 fun tab => if tab.isEmpty = some false then { tab with isEmpty := none } else tab
  pure ([], .fallThrough m)

/-- `OpenPseudo`: cursor `p1` on the record in `r[p2]`. -/
def openPseudo (p1 p2 : Int) (m : MemoryState) : Option (List MemoryState × Flow) := do
  let m ← m.setCursor p1 (.pseudo p2)
  pure ([], .fallThrough m)

/-- `OpenDup`: cursor `p1` a copy of cursor `p2`. -/
def openDup (p1 p2 : Int) (m : MemoryState) : Option (List MemoryState × Flow) := do
  match ← m.p.get p2 with
  | some cur => do
    let m ← m.setCursor p1 cur
    pure ([], .fallThrough m)
  | none => pure ([], .fallThrough m)

/-- `OpenRead`, `OpenWrite`: cursor `p1` on a table opened at this
instruction, with the columns of root page `p2` of database `p3` when the
schema has it. -/
def openRead (rootBlockCols : Int × Int → Option (IntMap ColumnType)) (p1 p2 p3 : Int) (m : MemoryState) :
    Option (List MemoryState × Flow) := do
  let tableInfo : TableDataType :=
    if p3 = 0 ∨ p3 = 1 then
      match rootBlockCols (p3, p2) with
      | some columns => ⟨columns, none⟩
      | none => ⟨IntMap.new, none⟩
    else ⟨IntMap.new, none⟩
  let m ← m.setTable (asI64 m.programI) tableInfo
  let m ← m.setCursor p1 (.normal (asI64 m.programI))
  pure ([], .fallThrough m)

/-- `OpenEphemeral`, `OpenAutoindex`, `SorterOpen`: cursor `p1` on a new
empty table of `p2` null columns. -/
def openEphemeral (p1 p2 : Int) (m : MemoryState) : Option (List MemoryState × Flow) := do
  let tableInfo : TableDataType := ⟨IntMap.fromElem ColumnType.null (asUsize p2), some true⟩
  let m ← m.setTable (asI64 m.programI) tableInfo
  let m ← m.setCursor p1 (.normal (asI64 m.programI))
  pure ([], .fallThrough m)

/-- `Variable`: `r[p2]` a null. -/
def opVariable (p2 : Int) (m : MemoryState) : Option (List MemoryState × Flow) := do
  let m ← m.setReg p2 (.single ColumnType.null)
  pure ([], .fallThrough m)

/-- `HaltIfNull`: past it, `r[p3]` is not null. -/
def haltIfNull (p3 : Int) (m : MemoryState) : Option (List MemoryState × Flow) := do
  let m ← m.modifyReg p3 fun v => some (v.withNullable (some false))
  pure ([], .fallThrough m)

/-- `NullRow`: every column of the row cursor `p1` reads may be null. -/
def nullRow (p1 : Int) (m : MemoryState) : Option (List MemoryState × Flow) := do
  match ← m.p.get p1 with
  | some (.normal i) => do
    let t ← m.t.modifyAt i fun tab => some { tab with cols := tab.cols.mapValues (·.withNullable (some true)) }
    pure ([], .fallThrough { m with t })
  | some (.pseudo i) => do
    let r ← m.r.modifyAt i fun v => match v with
      | .single (.record rec) => some (.single (.record (rec.mapValues (·.withNullable (some true)))))
      | v => some v
    pure ([], .fallThrough { m with r })
  | none => pure ([], .fallThrough m)

/-- `Cast`: `r[p1]` takes the type of affinity `p2`. -/
def cast (p1 p2 : Int) (m : MemoryState) : Option (List MemoryState × Flow) := do
  let m ← m.modifyReg p1 fun v => some (.single (.single (affinityToType (asU8 p2)) v.mapToNullable))
  pure ([], .fallThrough m)

/-- `SCopy`, `IntCopy`: `r[p2] = r[p1]`. -/
def sCopy (p1 p2 : Int) (m : MemoryState) : Option (List MemoryState × Flow) := do
  match ← m.r.get p1 with
  | some v => do
    let m ← m.setReg p2 v
    pure ([], .fallThrough m)
  | none => pure ([], .fallThrough m)

/-- One turn of `Copy`'s loop: `r[p2 + i] = r[p1 + i]`. -/
def copyOne (p1 p2 : Int) (m : MemoryState) (i : Int) : Option MemoryState := do
  let src ← checkedI64 (p1 + i)
  let dst ← checkedI64 (p2 + i)
  match ← m.r.get src with
  | some v => m.setReg dst v
  | none => pure m

/-- `Copy`: `r[p2 ..= p2 + p3] = r[p1 ..= p1 + p3]`. -/
def copy (p1 p2 p3 : Int) (m : MemoryState) : Option (List MemoryState × Flow) := do
  if 0 ≤ p3 then do
    let m ← (intRangeIncl 0 p3).foldlM (copyOne p1 p2) m
    pure ([], .fallThrough m)
  else pure ([], .fallThrough m)

/-- One turn of `Move`'s loop: `r[p2 + i] = r[p1 + i]`, and `r[p1 + i]` a
null. -/
def moveOne (p1 p2 : Int) (m : MemoryState) (i : Int) : Option MemoryState := do
  let src ← checkedI64 (p1 + i)
  let dst ← checkedI64 (p2 + i)
  match ← m.r.get src with
  | some v => do
    let m ← m.setReg dst v
    m.setReg src (.single ColumnType.null)
  | none => pure m

/-- `Move`: `r[p2 .. p2 + p3] = r[p1 .. p1 + p3]`, the sources nulled. -/
def move (p1 p2 p3 : Int) (m : MemoryState) : Option (List MemoryState × Flow) := do
  if 1 ≤ p3 then do
    let m ← (intRange 0 p3).foldlM (moveOne p1 p2) m
    pure ([], .fallThrough m)
  else pure ([], .fallThrough m)

/-- `Integer`: `r[p2]` the integer `p1`. -/
def integer (p1 p2 : Int) (m : MemoryState) : Option (List MemoryState × Flow) := do
  let m ← m.setReg p2 (.int p1)
  pure ([], .fallThrough m)

/-- `Blob`, `Count`, `Real`, `String8`, `Rowid`, `NewRowid`: `r[p2]` a value
of the opcode's type, never null. -/
def constant (opcode : String) (p2 : Int) (m : MemoryState) : Option (List MemoryState × Flow) := do
  let m ← m.setReg p2 (.single (.single (opcodeToType opcode) (some false)))
  pure ([], .fallThrough m)

/-- `Not`: `r[p2] = r[p1]`. -/
def opNot (p1 p2 : Int) (m : MemoryState) : Option (List MemoryState × Flow) := do
  match ← m.r.get p1 with
  | some a => do
    let m ← m.setReg p2 a
    pure ([], .fallThrough m)
  | none => pure ([], .fallThrough m)

/-- `Null`: `r[p2 ..= p3]`, or `r[p2]` alone, nulls. -/
def null (p2 p3 : Int) (m : MemoryState) : Option (List MemoryState × Flow) := do
  let idxRange := if p2 < p3 then intRangeIncl p2 p3 else intRangeIncl p2 p2
  let m ← idxRange.foldlM (fun m idx => m.setReg idx (.single ColumnType.null)) m
  pure ([], .fallThrough m)

/-- The value of `r[p1] ⊕ r[p2]`: the type of the first unless it is null,
nullable when either may be. -/
def binaryValue : Option RegDataType → Option RegDataType → ColumnType
  | some a, some b =>
    .single (if a.mapToDatatype = .null then b.mapToDatatype else a.mapToDatatype)
      (match a.mapToNullable, b.mapToNullable with
        | some aN, some bN => some (aN || bN)
        | some aN, none => some aN
        | none, some bN => some bN
        | none, none => none)
  | some v, none => .single v.mapToDatatype none
  | none, some v => .single v.mapToDatatype none
  | none, none => default

/-- `Or`, `And`, `Add`, `Concat`, …: `r[p3] = r[p1] ⊕ r[p2]`. -/
def binaryOp (p1 p2 p3 : Int) (m : MemoryState) : Option (List MemoryState × Flow) := do
  let a ← m.r.get p1
  let b ← m.r.get p2
  let m ← m.setReg p3 (.single (binaryValue a b))
  pure ([], .fallThrough m)

/-- `OffsetLimit`: `r[p2]` an integer, never null. -/
def offsetLimit (p2 : Int) (m : MemoryState) : Option (List MemoryState × Flow) := do
  let m ← m.setReg p2 (.single (.single .integer (some false)))
  pure ([], .fallThrough m)

section MemoryEnds

variable {lo : Int} {m : MemoryState}

theorem columnValue_ends (hm : MemInv lo m) {p1 p2 : Int} (hp1 : 0 ≤ p1) (hp2 : 0 ≤ p2) :
    Ends (columnValue p1 p2 m) fun _ => True := by
  unfold columnValue
  refine (hm.getCursor_ends hp1).bind fun o ho => ?_
  cases o with
  | none => exact Ends.pure trivial
  | some c =>
    refine (c.columnsRef_ends (ho c rfl) m.t m.r).bind fun o' _ => ?_
    cases o' with
    | none => exact Ends.pure trivial
    | some cc =>
      refine Ends.bind_of_eq (IntMap.get_of_nonneg cc hp2) ?_
      cases cc.lookup p2.toNat <;> exact Ends.pure trivial

theorem column_ends (hm : MemInv lo m) {p1 p2 p3 : Int} (hp1 : 0 ≤ p1) (hp2 : 0 ≤ p2) (hp3 : 0 ≤ p3) :
    Ends (column p1 p2 p3 m) (ArmOk lo m) :=
  (columnValue_ends hm hp1 hp2).bind fun _ _ => fallThrough_ends (setReg_ends hm hp3 (regOk_single _ _))

theorem sequence_ends (hm : MemInv lo m) {p2 : Int} (hp2 : 0 ≤ p2) : Ends (sequence p2 m) (ArmOk lo m) :=
  fallThrough_ends (setReg_ends hm hp2 (regOk_single _ _))

theorem rowRecord_ends (hm : MemInv lo m) {p1 : Int} (hp1 : 0 ≤ p1) : Ends (rowRecord p1 m) fun _ => True := by
  unfold rowRecord
  refine (hm.getCursor_ends hp1).bind fun o ho => ?_
  cases o with
  | none => exact Ends.pure trivial
  | some c => exact c.columns_ends (ho c rfl) m.t m.r

theorem rowData_ends (hm : MemInv lo m) {p1 p2 : Int} (hp1 : 0 ≤ p1) (hp2 : 0 ≤ p2) :
    Ends (rowData p1 p2 m) (ArmOk lo m) :=
  (rowRecord_ends hm hp1).bind fun _ _ => fallThrough_ends (setReg_ends hm hp2 (regOk_single _ _))

theorem makeRecord_ends (hm : MemInv lo m) {p1 p2 p3 : Int} (hp1 : 0 ≤ p1) (hp1' : p1 ≤ i32Max) (hp2 : 0 ≤ p2)
    (hp2' : p2 ≤ i32Max) (hp3 : 0 ≤ p3) : Ends (makeRecord p1 p2 p3 m) (ArmOk lo m) := by
  unfold makeRecord
  refine Ends.bind_of_eq (checkedI64_add hp1 hp1' hp2 hp2') ?_
  refine (Ends.mapM (intRange p1 (p1 + p2)) fun i hi =>
    readColumn_ends hm (Int.le_trans hp1 (mem_intRange hi).1)).bind fun _ _ => ?_
  exact fallThrough_ends (setReg_ends hm hp3 (regOk_single _ _))

theorem insertRecord_ends (hm : MemInv lo m) {p1 p2 : Int} (hp1 : 0 ≤ p1) (hp2 : 0 ≤ p2) :
    Ends (insertRecord p1 p2 m) (ArmOk lo m) := by
  unfold insertRecord
  refine (hm.getReg_ends hp2).bind fun o _ => ?_
  split
  · exact fallThrough_ends (writeTable_ends hm hp1 _)
  · exact fallThrough_ends (writeTable_ends hm hp1 _)
  · exact stay_ends hm

theorem delete_ends (hm : MemInv lo m) {p1 : Int} (hp1 : 0 ≤ p1) : Ends (delete p1 m) (ArmOk lo m) :=
  fallThrough_ends (writeTable_ends hm hp1 _)

theorem openPseudo_ends (hm : MemInv lo m) {p1 p2 : Int} (hp1 : 0 ≤ p1) (hp2 : 0 ≤ p2) :
    Ends (openPseudo p1 p2 m) (ArmOk lo m) :=
  fallThrough_ends (setCursor_ends hm hp1 hp2)

theorem openDup_ends (hm : MemInv lo m) {p1 p2 : Int} (hp1 : 0 ≤ p1) (hp2 : 0 ≤ p2) :
    Ends (openDup p1 p2 m) (ArmOk lo m) := by
  unfold openDup
  refine (hm.getCursor_ends hp2).bind fun o ho => ?_
  cases o with
  | none => exact stay_ends hm
  | some cur => exact fallThrough_ends (setCursor_ends hm hp1 (ho cur rfl))

/-- The table opened at this instruction, and a cursor on it: the key is the
instruction's index, in range since the program is a `Vec`. -/
theorem openTable_ends (hm : MemInv lo m) (hpc : m.programI < isizeMax) {p1 : Int} (hp1 : 0 ≤ p1)
    (tableInfo : TableDataType) :
    Ends (do
      let m₁ ← m.setTable (asI64 m.programI) tableInfo
      let m₂ ← m₁.setCursor p1 (.normal (asI64 m₁.programI))
      pure ([], Flow.fallThrough m₂)) (ArmOk lo m) := by
  have hkey : 0 ≤ asI64 m.programI := by
    unfold isizeMax at hpc
    rw [asI64_of_lt (by omega)]
    exact Int.natCast_nonneg _
  refine (setTable_ends hm hkey tableInfo).bind fun m₁ hm₁ => ?_
  rw [hm₁.2]
  exact fallThrough_ends ((setCursor_ends hm₁.1 hp1 (c := .normal _) hkey).mono fun _ h => hm₁.trans h)

theorem openRead_ends (hm : MemInv lo m) (hpc : m.programI < isizeMax) {p1 : Int} (hp1 : 0 ≤ p1)
    (rootBlockCols : Int × Int → Option (IntMap ColumnType)) (p2 p3 : Int) :
    Ends (openRead rootBlockCols p1 p2 p3 m) (ArmOk lo m) :=
  openTable_ends hm hpc hp1 _

theorem openEphemeral_ends (hm : MemInv lo m) (hpc : m.programI < isizeMax) {p1 : Int} (hp1 : 0 ≤ p1)
    (p2 : Int) : Ends (openEphemeral p1 p2 m) (ArmOk lo m) :=
  openTable_ends hm hpc hp1 _

theorem opVariable_ends (hm : MemInv lo m) {p2 : Int} (hp2 : 0 ≤ p2) : Ends (opVariable p2 m) (ArmOk lo m) :=
  fallThrough_ends (setReg_ends hm hp2 (regOk_single _ _))

theorem haltIfNull_ends (hm : MemInv lo m) {p3 : Int} (hp3 : 0 ≤ p3) : Ends (haltIfNull p3 m) (ArmOk lo m) :=
  fallThrough_ends (modifyReg_ends hm hp3 le_rfl fun _ hv => Ends.pure (hv.withNullable _))

theorem nullRow_ends (hm : MemInv lo m) {p1 : Int} (hp1 : 0 ≤ p1) : Ends (nullRow p1 m) (ArmOk lo m) := by
  unfold nullRow
  refine (hm.getCursor_ends hp1).bind fun o ho => ?_
  rcases o with _ | j | i
  · exact stay_ends hm
  · -- a cursor on a table: its columns
    have hj : 0 ≤ j := ho _ rfl
    exact (IntMap.modifyAt_ends (P := fun _ => True) (Q := fun _ => True) hj (fun _ _ _ => trivial)
      (fun _ _ => trivial) fun _ _ => Ends.pure trivial).bind fun t _ =>
        Ends.pure (ArmOk.nil ⟨hm.withTables t, rfl⟩)
  · -- a cursor on a record: the register holding it
    have hi : 0 ≤ i := ho _ rfl
    refine (IntMap.modifyAt_ends hi hm.regs (fun _ h => h) fun v hv => ?_).bind fun r hr =>
      Ends.pure (ArmOk.nil ⟨⟨hr, hm.cursors⟩, rfl⟩)
    split
    · exact Ends.pure trivial
    · exact Ends.pure hv

theorem cast_ends (hm : MemInv lo m) {p1 : Int} (hp1 : 0 ≤ p1) (p2 : Int) : Ends (cast p1 p2 m) (ArmOk lo m) :=
  fallThrough_ends (modifyReg_ends hm hp1 le_rfl fun _ _ => Ends.pure trivial)

theorem sCopy_ends (hm : MemInv lo m) {p1 p2 : Int} (hp1 : 0 ≤ p1) (hp2 : 0 ≤ p2) :
    Ends (sCopy p1 p2 m) (ArmOk lo m) := by
  unfold sCopy
  refine (hm.getReg_ends hp1).bind fun o ho => ?_
  cases o with
  | none => exact stay_ends hm
  | some v => exact fallThrough_ends (setReg_ends hm hp2 (ho v rfl))

/-- A register copied to another: the value read keeps to the bounds. -/
theorem copyOne_ends {p1 p2 : Int} (hp1 : 0 ≤ p1) (hp1' : p1 ≤ i32Max) (hp2 : 0 ≤ p2) (hp2' : p2 ≤ i32Max)
    {m₀ : MemoryState} {i : Int} (hi : 0 ≤ i) (hi' : i ≤ i32Max) (hm : Keeps lo m₀ m) :
    Ends (copyOne p1 p2 m i) (Keeps lo m₀) := by
  unfold copyOne
  refine Ends.bind_of_eq (checkedI64_add hp1 hp1' hi hi') (Ends.bind_of_eq (checkedI64_add hp2 hp2' hi hi') ?_)
  refine (hm.1.getReg_ends (Int.add_nonneg hp1 hi)).bind fun o ho => ?_
  cases o with
  | none => exact Ends.pure hm
  | some v => exact (setReg_ends hm.1 (Int.add_nonneg hp2 hi) (ho v rfl)).mono fun _ h => hm.trans h

theorem copy_ends (hm : MemInv lo m) {p1 p2 p3 : Int} (hp1 : 0 ≤ p1) (hp1' : p1 ≤ i32Max) (hp2 : 0 ≤ p2)
    (hp2' : p2 ≤ i32Max) (hp3' : p3 ≤ i32Max) : Ends (copy p1 p2 p3 m) (ArmOk lo m) := by
  unfold copy
  refine Ends.ite (fun _ => ?_) fun _ => stay_ends hm
  refine fallThrough_ends (Ends.foldlM (Keeps lo m) _ m (fun acc i hi hacc => ?_) (Keeps.refl hm))
  obtain ⟨hi, hi'⟩ := mem_intRangeIncl hi
  exact copyOne_ends hp1 hp1' hp2 hp2' hi (Int.le_trans hi' hp3') hacc

/-- A register moved to another: the value read keeps to the bounds, and the
source takes a null. -/
theorem moveOne_ends {p1 p2 : Int} (hp1 : 0 ≤ p1) (hp1' : p1 ≤ i32Max) (hp2 : 0 ≤ p2) (hp2' : p2 ≤ i32Max)
    {m₀ : MemoryState} {i : Int} (hi : 0 ≤ i) (hi' : i ≤ i32Max) (hm : Keeps lo m₀ m) :
    Ends (moveOne p1 p2 m i) (Keeps lo m₀) := by
  unfold moveOne
  refine Ends.bind_of_eq (checkedI64_add hp1 hp1' hi hi') (Ends.bind_of_eq (checkedI64_add hp2 hp2' hi hi') ?_)
  refine (hm.1.getReg_ends (Int.add_nonneg hp1 hi)).bind fun o ho => ?_
  cases o with
  | none => exact Ends.pure hm
  | some v =>
    refine (setReg_ends hm.1 (Int.add_nonneg hp2 hi) (ho v rfl)).bind fun m₁ hm₁ => ?_
    exact (setReg_ends hm₁.1 (Int.add_nonneg hp1 hi) (regOk_single _ _)).mono fun _ h => (hm.trans hm₁).trans h

theorem move_ends (hm : MemInv lo m) {p1 p2 p3 : Int} (hp1 : 0 ≤ p1) (hp1' : p1 ≤ i32Max) (hp2 : 0 ≤ p2)
    (hp2' : p2 ≤ i32Max) (hp3' : p3 ≤ i32Max) : Ends (move p1 p2 p3 m) (ArmOk lo m) := by
  unfold move
  refine Ends.ite (fun _ => ?_) fun _ => stay_ends hm
  refine fallThrough_ends (Ends.foldlM (Keeps lo m) _ m (fun acc i hi hacc => ?_) (Keeps.refl hm))
  obtain ⟨hi, hi'⟩ := mem_intRange hi
  exact moveOne_ends hp1 hp1' hp2 hp2' hi (by omega) hacc

theorem integer_ends (hm : MemInv lo m) (hlo0 : lo ≤ 0) {p1 p2 : Int} (hp1 : 0 ≤ p1) (hp1' : p1 ≤ i32Max)
    (hp2 : 0 ≤ p2) : Ends (integer p1 p2 m) (ArmOk lo m) :=
  fallThrough_ends (setReg_ends hm hp2 (regOk_operand hlo0 hp1 hp1'))

theorem constant_ends (hm : MemInv lo m) (opcode : String) {p2 : Int} (hp2 : 0 ≤ p2) :
    Ends (constant opcode p2 m) (ArmOk lo m) :=
  fallThrough_ends (setReg_ends hm hp2 (regOk_single _ _))

theorem opNot_ends (hm : MemInv lo m) {p1 p2 : Int} (hp1 : 0 ≤ p1) (hp2 : 0 ≤ p2) :
    Ends (opNot p1 p2 m) (ArmOk lo m) := by
  unfold opNot
  refine (hm.getReg_ends hp1).bind fun o ho => ?_
  cases o with
  | none => exact stay_ends hm
  | some a => exact fallThrough_ends (setReg_ends hm hp2 (ho a rfl))

theorem null_ends (hm : MemInv lo m) {p2 : Int} (hp2 : 0 ≤ p2) (p3 : Int) : Ends (null p2 p3 m) (ArmOk lo m) := by
  unfold null
  -- every register of the range lies at or above `p2`
  have hrange : ∀ idx ∈ (if p2 < p3 then intRangeIncl p2 p3 else intRangeIncl p2 p2), 0 ≤ idx := by
    intro idx hidx
    split at hidx <;> exact Int.le_trans hp2 (mem_intRangeIncl hidx).1
  refine fallThrough_ends (Ends.foldlM (Keeps lo m) _ m (fun acc idx hidx hacc => ?_) (Keeps.refl hm))
  exact (setReg_ends hacc.1 (hrange idx hidx) (regOk_single _ _)).mono fun _ h => hacc.trans h

theorem binaryOp_ends (hm : MemInv lo m) {p1 p2 p3 : Int} (hp1 : 0 ≤ p1) (hp2 : 0 ≤ p2) (hp3 : 0 ≤ p3) :
    Ends (binaryOp p1 p2 p3 m) (ArmOk lo m) :=
  (hm.getReg_ends hp1).bind fun _ _ => (hm.getReg_ends hp2).bind fun _ _ =>
    fallThrough_ends (setReg_ends hm hp3 (regOk_single _ _))

theorem offsetLimit_ends (hm : MemInv lo m) {p2 : Int} (hp2 : 0 ≤ p2) : Ends (offsetLimit p2 m) (ArmOk lo m) :=
  fallThrough_ends (setReg_ends hm hp2 (regOk_single _ _))

end MemoryEnds

/-! ## Functions and aggregates, named in `p4` -/

/-- The functions whose result type the walk knows, by the text SQLite
writes in `p4`, and the type: never null when called without arguments. -/
def functionResult (p2 : Int) (p4 : List UInt8) : Option ColumnType :=
  if textIs p4 "last_insert_rowid(0)" then some (.single .integer (some false))
  else if textIs p4 "date(-1)" || textIs p4 "time(-1)" || textIs p4 "datetime(-1)" || textIs p4 "strftime(-1)" then
    some (.single .text (some (p2 != 0)))
  else if textIs p4 "julianday(-1)" then some (.single .float (some (p2 != 0)))
  else if textIs p4 "unixepoch(-1)" then some (.single .integer (some (p2 != 0)))
  else none

/-- `Function`: `r[p3]` the result of the function `p4` names, when the walk
knows it. -/
def function (p2 p3 : Int) (p4 : List UInt8) (m : MemoryState) : ExceptT Error Option (List MemoryState × Flow) := do
  let p4 ← p4Text p4
  let m ← ExceptT.lift (match functionResult p2 p4 with
    | some value => m.setReg p3 (.single value)
    | none => pure m)
  pure ([], .fallThrough m)

/-- The aggregates whose result is an integer count. -/
def isCountLike (p4 : List UInt8) : Bool :=
  startsWith p4 "count(" || startsWith p4 "row_number(" || startsWith p4 "rank(" ||
    startsWith p4 "dense_rank(" || startsWith p4 "ntile("

/-- The type of a `sum` over values of a type: integers sum to an integer,
anything else to a float. -/
def sumType : DataType → DataType
  | .integer | .int4 | .bool => .integer
  | _ => .float

/-- What `AggStep` and `AggValue` write: `r[p3]` the aggregate's result,
from its name in `p4` and the argument `r[p2]`. -/
def aggStepWrite (p2 p3 : Int) (p4 : List UInt8) (m : MemoryState) : Option MemoryState :=
  if isCountLike p4 then m.setReg p3 (.single (.single .integer (some false)))
  else if startsWith p4 "percent_rank(" || startsWith p4 "cume_dist" then
    m.setReg p3 (.single (.single .float (some false)))
  else if startsWith p4 "sum(" then do
    match ← m.r.get p2 with
    | some rp2 => m.setReg p3 (.single (.single (sumType rp2.mapToDatatype) rp2.mapToNullable))
    | none => pure m
  else if startsWith p4 "lead(" || startsWith p4 "lag(" then do
    match ← m.r.get p2 with
    | some rp2 => m.setReg p3 (.single (.single rp2.mapToDatatype (some true)))
    | none => pure m
  else do
    match ← m.r.get p2 with
    | some v => m.setReg p3 v
    | none => pure m

/-- `AggStep`, `AggValue`. -/
def aggStep (p2 p3 : Int) (p4 : List UInt8) (m : MemoryState) : ExceptT Error Option (List MemoryState × Flow) := do
  let p4 ← p4Text p4
  let m ← ExceptT.lift (aggStepWrite p2 p3 p4 m)
  pure ([], .fallThrough m)

/-- What `AggFinal` writes: a count into `r[p1]`, the accumulator;
`percent_rank`, `lead` and `lag` into `r[p3]`. -/
def aggFinalWrite (p1 p2 p3 : Int) (p4 : List UInt8) (m : MemoryState) : Option MemoryState :=
  if isCountLike p4 then m.setReg p1 (.single (.single .integer (some false)))
  else if startsWith p4 "percent_rank(" || startsWith p4 "cume_dist" then
    m.setReg p3 (.single (.single .float (some false)))
  else if startsWith p4 "lead(" || startsWith p4 "lag(" then do
    match ← m.r.get p2 with
    | some rp2 => m.setReg p3 (.single (.single rp2.mapToDatatype (some true)))
    | none => pure m
  else pure m

/-- `AggFinal`. -/
def aggFinal (p1 p2 p3 : Int) (p4 : List UInt8) (m : MemoryState) : ExceptT Error Option (List MemoryState × Flow) := do
  let p4 ← p4Text p4
  let m ← ExceptT.lift (aggFinalWrite p1 p2 p3 p4 m)
  pure ([], .fallThrough m)

section TextEnds

variable {lo : Int} {m : MemoryState}

theorem p4Text_ends (p4 : List UInt8) : EndsE (p4Text p4) fun _ => True := by
  unfold p4Text
  split
  · exact EndsE.pure trivial
  · exact EndsE.throw _

/-- An arm that reads `p4` as text, then writes the memory and falls through. -/
theorem textArm_ends {p4 : List UInt8} {write : List UInt8 → Option MemoryState}
    (hwrite : ∀ text, Ends (write text) (Keeps lo m)) :
    EndsE (do
      let text ← p4Text p4
      let m' ← ExceptT.lift (write text)
      pure ([], Flow.fallThrough m')) (ArmOk lo m) :=
  (p4Text_ends p4).bind fun text _ => (EndsE.lift (hwrite text)).bind fun _ hm' => EndsE.pure (ArmOk.nil hm')

theorem function_ends (hm : MemInv lo m) {p3 : Int} (hp3 : 0 ≤ p3) (p2 : Int) (p4 : List UInt8) :
    EndsE (function p2 p3 p4 m) (ArmOk lo m) := by
  refine textArm_ends fun text => ?_
  split
  · exact setReg_ends hm hp3 (regOk_single _ _)
  · exact Ends.pure (Keeps.refl hm)

/-- A write of `r[p3]` from the argument `r[p2]`, as the aggregates make it. -/
theorem argWrite_ends (hm : MemInv lo m) {p2 p3 : Int} (hp2 : 0 ≤ p2) (hp3 : 0 ≤ p3)
    (value : RegDataType → RegDataType) (hvalue : ∀ v, RegOk lo v → RegOk lo (value v)) :
    Ends (do
      match ← m.r.get p2 with
      | some rp2 => m.setReg p3 (value rp2)
      | none => pure m) (Keeps lo m) := by
  refine (hm.getReg_ends hp2).bind fun o ho => ?_
  cases o with
  | none => exact Ends.pure (Keeps.refl hm)
  | some v => exact setReg_ends hm hp3 (hvalue v (ho v rfl))

theorem aggStep_ends (hm : MemInv lo m) {p2 p3 : Int} (hp2 : 0 ≤ p2) (hp3 : 0 ≤ p3) (p4 : List UInt8) :
    EndsE (aggStep p2 p3 p4 m) (ArmOk lo m) := by
  refine textArm_ends fun text => ?_
  unfold aggStepWrite
  refine Ends.ite (fun _ => setReg_ends hm hp3 (regOk_single _ _)) fun _ => ?_
  refine Ends.ite (fun _ => setReg_ends hm hp3 (regOk_single _ _)) fun _ => ?_
  refine Ends.ite (fun _ => argWrite_ends hm hp2 hp3 _ fun _ _ => trivial) fun _ => ?_
  refine Ends.ite (fun _ => argWrite_ends hm hp2 hp3 _ fun _ _ => trivial) fun _ => ?_
  -- any other aggregate copies its argument, an integer included
  exact argWrite_ends hm hp2 hp3 id fun _ h => h

theorem aggFinal_ends (hm : MemInv lo m) {p1 p2 p3 : Int} (hp1 : 0 ≤ p1) (hp2 : 0 ≤ p2) (hp3 : 0 ≤ p3)
    (p4 : List UInt8) : EndsE (aggFinal p1 p2 p3 p4 m) (ArmOk lo m) := by
  refine textArm_ends fun text => ?_
  unfold aggFinalWrite
  refine Ends.ite (fun _ => setReg_ends hm hp1 (regOk_single _ _)) fun _ => ?_
  refine Ends.ite (fun _ => setReg_ends hm hp3 (regOk_single _ _)) fun _ => ?_
  exact Ends.ite (fun _ => argWrite_ends hm hp2 hp3 _ fun _ _ => trivial) fun _ => Ends.pure (Keeps.refl hm)

end TextEnds

/-! ## The `match` on the opcode -/

/-- The arms of the `match` in `explain`'s inner loop. -/
inductive Arm where
  | init | goto | goSub | fkIfZero | jumpOrNext | isNull | notNull | mustBeInt | opIf | ifPos | rewind
  | initCoroutine | endCoroutine | opReturn | opYield | jump | column | sequence | rowData | makeRecord
  | insertRecord | delete | openPseudo | openDup | openRead | openEphemeral | opVariable | haltIfNull
  | function | nullRow | aggStep | aggFinal | cast | sCopy | copy | move | integer | constant | opNot
  | null | binaryOp | offsetLimit | resultRow | halt | unsupported

/-- The opcodes each arm matches, in the order of the `match`. -/
def armTable : List (List String × Arm) :=
  [(["Init"], .init), (["Goto"], .goto), (["Gosub"], .goSub), (["FkIfZero"], .fkIfZero),
    (["DecrJumpZero", "ElseEq", "Eq", "Filter", "Found", "Ge", "Gt", "IdxGE", "IdxGT", "IdxLE", "IdxLT",
      "IfNoHope", "IfNot", "IfNotOpen", "IfNotZero", "IfNullRow", "IfSmaller", "IncrVacuum", "IsNullOrType",
      "Le", "Lt", "Ne", "Next", "NoConflict", "NotExists", "Once", "Prev", "Program", "RowSetRead",
      "RowSetTest", "SeekGE", "SeekGT", "SeekLE", "SeekLT", "SeekRowid", "SeekScan", "SequenceTest",
      "SorterNext", "VFilter", "VNext"], .jumpOrNext),
    (["IsNull"], .isNull), (["NotNull"], .notNull), (["MustBeInt"], .mustBeInt), (["If"], .opIf),
    (["IfPos"], .ifPos), (["Rewind", "Last", "Sort", "SorterSort"], .rewind),
    (["InitCoroutine"], .initCoroutine), (["EndCoroutine"], .endCoroutine), (["Return"], .opReturn),
    (["Yield"], .opYield), (["Jump"], .jump), (["Column"], .column), (["Sequence"], .sequence),
    (["RowData", "SorterData"], .rowData), (["MakeRecord"], .makeRecord),
    (["Insert", "IdxInsert", "SorterInsert"], .insertRecord), (["Delete"], .delete),
    (["OpenPseudo"], .openPseudo), (["OpenDup"], .openDup), (["OpenRead", "OpenWrite"], .openRead),
    (["OpenEphemeral", "OpenAutoindex", "SorterOpen"], .openEphemeral), (["Variable"], .opVariable),
    (["HaltIfNull"], .haltIfNull), (["Function"], .function), (["NullRow"], .nullRow),
    (["AggStep", "AggValue"], .aggStep), (["AggFinal"], .aggFinal), (["Cast"], .cast),
    (["SCopy", "IntCopy"], .sCopy), (["Copy"], .copy), (["Move"], .move), (["Integer"], .integer),
    (["Blob", "Count", "Real", "String8", "Rowid", "NewRowid"], .constant), (["Not"], .opNot),
    (["Null"], .null),
    (["Or", "And", "BitAnd", "BitOr", "ShiftLeft", "ShiftRight", "Add", "Subtract", "Multiply", "Divide",
      "Remainder", "Concat"], .binaryOp),
    (["OffsetLimit"], .offsetLimit), (["ResultRow"], .resultRow), (["Halt"], .halt)]

/-- The arm an opcode selects; any other opcode is ignored. -/
def armOf (opcode : String) : Arm :=
  match armTable.find? (fun entry => entry.1.contains opcode) with
  | some entry => entry.2
  | none => .unsupported

/-- One instruction: the arm its opcode selects, on its operands.
`visitedHere` is how many times the branch has now run this instruction,
which `IfPos` reads. -/
def handle (program : List Row) (rootBlockCols : Int × Int → Option (IntMap ColumnType)) (visitedHere : Nat)
    (row : Row) (m : MemoryState) : ExceptT Error Option (List MemoryState × Flow) :=
  match armOf row.opcode with
  | .init | .goto | .fkIfZero => .lift (goTo row.p2 m)
  | .goSub => .lift (goSub row.p1 row.p2 m)
  | .jumpOrNext => .lift (jumpOrNext row.p2 m)
  | .isNull => .lift (isNull row.p1 row.p2 m)
  | .notNull => .lift (notNull row.p1 row.p2 m)
  | .mustBeInt => .lift (mustBeInt row.p2 m)
  | .opIf => .lift (opIf row.p1 row.p2 row.p3 m)
  | .ifPos => .lift (ifPos row.p1 row.p2 visitedHere m)
  | .rewind => .lift (rewind row.p1 row.p2 m)
  | .initCoroutine => .lift (initCoroutine row.p1 row.p2 row.p3 m)
  | .endCoroutine => .lift (endCoroutine program row.p1 m)
  | .opReturn => .lift (opReturn row.p1 row.p3 m)
  | .opYield => .lift (opYield program row.p1 m)
  | .jump => .lift (jump row.p1 row.p2 row.p3 m)
  | .column => .lift (column row.p1 row.p2 row.p3 m)
  | .sequence => .lift (sequence row.p2 m)
  | .rowData => .lift (rowData row.p1 row.p2 m)
  | .makeRecord => .lift (makeRecord row.p1 row.p2 row.p3 m)
  | .insertRecord => .lift (insertRecord row.p1 row.p2 m)
  | .delete => .lift (delete row.p1 m)
  | .openPseudo => .lift (openPseudo row.p1 row.p2 m)
  | .openDup => .lift (openDup row.p1 row.p2 m)
  | .openRead => .lift (openRead rootBlockCols row.p1 row.p2 row.p3 m)
  | .openEphemeral => .lift (openEphemeral row.p1 row.p2 m)
  | .opVariable => .lift (opVariable row.p2 m)
  | .haltIfNull => .lift (haltIfNull row.p3 m)
  | .function => function row.p2 row.p3 row.p4 m
  | .nullRow => .lift (nullRow row.p1 m)
  | .aggStep => aggStep row.p2 row.p3 row.p4 m
  | .aggFinal => aggFinal row.p1 row.p2 row.p3 row.p4 m
  | .cast => .lift (cast row.p1 row.p2 m)
  | .sCopy => .lift (sCopy row.p1 row.p2 m)
  | .copy => .lift (copy row.p1 row.p2 row.p3 m)
  | .move => .lift (move row.p1 row.p2 row.p3 m)
  | .integer => .lift (integer row.p1 row.p2 m)
  | .constant => .lift (constant row.opcode row.p2 m)
  | .opNot => .lift (opNot row.p1 row.p2 m)
  | .null => .lift (null row.p2 row.p3 m)
  | .binaryOp => .lift (binaryOp row.p1 row.p2 row.p3 m)
  | .offsetLimit => .lift (offsetLimit row.p2 m)
  | .resultRow => .lift (resultRow row.p1 row.p2 m)
  | .halt => .lift halt
  | .unsupported => .lift (pure ([], .fallThrough m))

section Handle

variable {lo : Int} {m : MemoryState}

/-- An arm in `Option`, lifted, at the lowered bound. -/
theorem lift_ends {x : Option (List MemoryState × Flow)} (h : Ends x (ArmOk lo m)) :
    EndsE (ExceptT.lift x : ExceptT Error Option _) (ArmOk (lo - 1) m) :=
  EndsE.lift (h.mono fun _ hx => hx.mono (by omega))

/-- **One instruction.** From a memory keeping the invariant at `lo`, on an
instruction inside the program and with the operands SQLite writes, every
arm ends without panic, forks at most three branches, and hands back
memories keeping the invariant at `lo - 1`. -/
theorem handle_ends (hm : MemInv lo m) (hlo : -i64Max ≤ lo) (hlo0 : lo ≤ 0) (hpc : m.programI < isizeMax)
    {row : Row} (hrow : row.InRange) (program : List Row) (rootBlockCols : Int × Int → Option (IntMap ColumnType))
    (visitedHere : Nat) : EndsE (handle program rootBlockCols visitedHere row m) (ArmOk (lo - 1) m) := by
  obtain ⟨hp1, hp1', hp2, hp2', hp3, hp3'⟩ := hrow
  unfold handle
  cases armOf row.opcode with
  | init | goto | fkIfZero => exact lift_ends (goTo_ends hm _)
  | goSub => exact lift_ends (goSub_ends hm hlo0 hpc hp1 _)
  | jumpOrNext => exact lift_ends (jumpOrNext_ends hm hpc _)
  | isNull => exact lift_ends (isNull_ends hm hpc hp1 _)
  | notNull => exact lift_ends (notNull_ends hm hpc hp1 _)
  | mustBeInt => exact lift_ends (mustBeInt_ends hm hpc _)
  | opIf => exact lift_ends (opIf_ends hm hlo0 hpc hp1 _ _)
  | ifPos => exact EndsE.lift (ifPos_ends hm hlo hpc hp1 _ _)
  | rewind => exact lift_ends (rewind_ends hm hpc hp1 _)
  | initCoroutine => exact lift_ends (initCoroutine_ends hm hlo0 hpc hp1 hp3 hp3' _)
  | endCoroutine => exact lift_ends (endCoroutine_ends hm hp1 _)
  | opReturn => exact lift_ends (opReturn_ends hm hlo hpc hp1 _)
  | opYield => exact lift_ends (opYield_ends hm hlo hlo0 hpc hp1 _)
  | jump => exact lift_ends (jump_ends hm _ _ _)
  | column => exact lift_ends (column_ends hm hp1 hp2 hp3)
  | sequence => exact lift_ends (sequence_ends hm hp2)
  | rowData => exact lift_ends (rowData_ends hm hp1 hp2)
  | makeRecord => exact lift_ends (makeRecord_ends hm hp1 hp1' hp2 hp2' hp3)
  | insertRecord => exact lift_ends (insertRecord_ends hm hp1 hp2)
  | delete => exact lift_ends (delete_ends hm hp1)
  | openPseudo => exact lift_ends (openPseudo_ends hm hp1 hp2)
  | openDup => exact lift_ends (openDup_ends hm hp1 hp2)
  | openRead => exact lift_ends (openRead_ends hm hpc hp1 _ _ _)
  | openEphemeral => exact lift_ends (openEphemeral_ends hm hpc hp1 _)
  | opVariable => exact lift_ends (opVariable_ends hm hp2)
  | haltIfNull => exact lift_ends (haltIfNull_ends hm hp3)
  | function => exact (function_ends hm hp3 _ _).mono fun _ h => h.mono (by omega)
  | nullRow => exact lift_ends (nullRow_ends hm hp1)
  | aggStep => exact (aggStep_ends hm hp2 hp3 _).mono fun _ h => h.mono (by omega)
  | aggFinal => exact (aggFinal_ends hm hp1 hp2 hp3 _).mono fun _ h => h.mono (by omega)
  | cast => exact lift_ends (cast_ends hm hp1 _)
  | sCopy => exact lift_ends (sCopy_ends hm hp1 hp2)
  | copy => exact lift_ends (copy_ends hm hp1 hp1' hp2 hp2' hp3')
  | move => exact lift_ends (move_ends hm hp1 hp1' hp2 hp2' hp3')
  | integer => exact lift_ends (integer_ends hm hlo0 hp1 hp1' hp2)
  | constant => exact lift_ends (constant_ends hm _ hp2)
  | opNot => exact lift_ends (opNot_ends hm hp1 hp2)
  | null => exact lift_ends (null_ends hm hp2 _)
  | binaryOp => exact lift_ends (binaryOp_ends hm hp1 hp2 hp3)
  | offsetLimit => exact lift_ends (offsetLimit_ends hm hp2)
  | resultRow => exact lift_ends (resultRow_ends hm hpc hp1 hp1' hp2 hp2')
  | halt => exact lift_ends stop_ends
  | unsupported => exact lift_ends (stay_ends hm)

end Handle

end Sqlx.Sqlite
