import Sqlx.Sqlite.Explain

/-!
# SQLite — the `EXPLAIN` walk keeps to its budget (`connection/explain.rs`)

Whatever program SQLite hands back, with operands from `0` to `i32::MAX`,
the walk ends without panic. At most `MAX_TOTAL_INSTRUCTION_COUNT`
instructions spend gas, and at most one branch more than three for each of
them is popped. The merge then gives a type and a nullability for each
column of the widest row reached.

Everything rests on one invariant of the loops, `LoopInv`:

* the gas spent is the count of instructions run;
* each instruction forks at most three branches, so the branches popped or
  waiting, and `branch_seq`, are at most one more than three per instruction;
* every branch, waiting or running, has one visit count per instruction,
  each at most three, an instruction counter no larger than the
  instructions run, and a memory keeping `MemInv` at minus that count (a
  register is lowered at most once per instruction).

`step_ends` is the inner loop's turn, `tick_ends` a turn of either loop.
Each keeps the invariant and lowers the potential `7 * gas + 2 * stack +
running`. So every configuration the loops reach keeps it (`Reachable.inv`),
and the fuel `explain` gives the loops is never the limit (`run_ends`).
-/

namespace Sqlx.Sqlite

open Panic

/-! ## Pushing the branches an instruction forks -/

section Fork

variable (same : MemoryState → MemoryState → Bool) (w : Walk) (state : QueryState)

theorem newBranch_of_le {branchSeq : Int} (hic : 1 ≤ state.instructionCounter)
    (hic' : state.instructionCounter ≤ i64Max) (hseq : 0 ≤ branchSeq) (hseq' : branchSeq + 1 ≤ i64Max)
    (mem : MemoryState) :
    state.newBranch branchSeq mem =
      some (⟨state.visited, branchSeq, 0, some ⟨state.branchId, state.instructionCounter - 1⟩, mem⟩, branchSeq + 1) := by
  unfold i64Max at *
  rw [QueryState.newBranch, checkedI64_of_le (by omega) (by unfold i64Max; omega),
    checkedI64_of_le (by omega) hseq']
  rfl

/-- `push` of a branch with a parent: kept on the stack, or dropped as a
duplicate; nothing else changes but the memories pushed. -/
theorem push_of_parent {p : BranchParent} (h : state.branchParent = some p) :
    ∃ new vbs, w.push same state = some { w with states := new ++ w.states, visitedBranchState := vbs } ∧
      (new = [] ∨ new = [state]) := by
  unfold Walk.push
  rw [h]
  by_cases hdup : w.visitedBranchState.any (same state.mem) = true
  · exact ⟨[], w.visitedBranchState, by rw [Option.bind_eq_bind, Option.bind_some, if_pos hdup]; rfl, .inl rfl⟩
  · exact ⟨[state], state.mem :: w.visitedBranchState,
      by rw [Option.bind_eq_bind, Option.bind_some, if_neg hdup]; rfl, .inr rfl⟩

/-- What forking `branches` leaves: `branch_seq` on by one per branch, some
of the branches on the stack, each with the running branch's visits and a
counter at `0`, and the rest of the walk as it was. -/
def Forked (branches : List MemoryState) (w' : Walk) : Prop :=
  ∃ new vbs,
    w' = { w with branchSeq := w.branchSeq + branches.length, states := new ++ w.states, visitedBranchState := vbs } ∧
    new.length ≤ branches.length ∧
    ∀ s ∈ new, s.visited = state.visited ∧ s.instructionCounter = 0 ∧ s.mem ∈ branches

/-- **The fork.** From a branch that has counted its instruction, with room
in `branch_seq`, every branch forked is made and pushed without panic. -/
theorem fork_ends (hic : 1 ≤ state.instructionCounter) (hic' : state.instructionCounter ≤ i64Max) :
    ∀ (branches : List MemoryState) (w : Walk), 0 ≤ w.branchSeq → w.branchSeq + branches.length ≤ i64Max →
      Ends (w.fork same state branches) (Forked w state branches)
  | [], w, _, _ => ⟨w, rfl, [], w.visitedBranchState, by simp, le_rfl, fun _ h => absurd h List.not_mem_nil⟩
  | mem :: rest, w, hseq, hseq' => by
    have hlen : ((mem :: rest).length : Int) = rest.length + 1 := by simp
    rw [Walk.fork, newBranch_of_le state hic hic' hseq (by omega) mem]
    obtain ⟨new₁, vbs₁, hpush, hnew₁⟩ := push_of_parent same { w with branchSeq := w.branchSeq + 1 }
      ⟨state.visited, w.branchSeq, 0, some ⟨state.branchId, state.instructionCounter - 1⟩, mem⟩ rfl
    refine Ends.bind (P := (· = _)) (Ends.pure rfl) fun _ hb => ?_
    subst hb
    refine Ends.bind_of_eq hpush ?_
    refine (fork_ends hic hic' rest _ (by simp; omega) (by simp; omega)).mono ?_
    -- the branches pushed here, then those the rest of the fork pushes
    rintro w' ⟨new₂, vbs₂, rfl, hlen₂, hnew₂⟩
    refine ⟨new₂ ++ new₁, vbs₂, ?_, ?_, ?_⟩
    · simp only [List.append_assoc, List.length_cons, Nat.cast_add, Nat.cast_one]
      congr 1
      omega
    · rw [List.length_append, List.length_cons]
      rcases hnew₁ with rfl | rfl <;> simp <;> omega
    · intro s hs
      rcases List.mem_append.1 hs with hs | hs
      · obtain ⟨hv, hc, hm⟩ := hnew₂ s hs
        exact ⟨hv, hc, List.mem_cons_of_mem mem hm⟩
      · rcases hnew₁ with rfl | rfl
        · exact absurd hs List.not_mem_nil
        · rw [List.mem_singleton] at hs
          subst hs
          exact ⟨rfl, rfl, List.mem_cons_self⟩

end Fork

/-! ## The invariant -/

/-- What holds of a branch, waiting or running, `steps` instructions into
the walk, in a program of `len` instructions. -/
structure BranchInv (len steps : Nat) (s : QueryState) : Prop where
  visited_length : s.visited.length = len
  visited_le : ∀ c ∈ s.visited, c ≤ maxLoopCount + 1
  counter_nonneg : 0 ≤ s.instructionCounter
  counter_le : s.instructionCounter ≤ steps
  mem : MemInv (-(steps : Int)) s.mem

theorem BranchInv.mono {len steps steps' : Nat} {s : QueryState} (h : BranchInv len steps s)
    (hle : steps ≤ steps') : BranchInv len steps' s :=
  ⟨h.visited_length, h.visited_le, h.counter_nonneg, Int.le_trans h.counter_le (by omega),
    h.mem.mono (by omega)⟩

/-- The invariant of `explain`'s loops, in a program of `len` instructions. -/
structure LoopInv (len : Nat) (l : Loop) : Prop where
  steps_add_gas : l.walk.steps + l.walk.gas = maxTotalInstructionCount
  pops_le : l.walk.pops + l.walk.states.length ≤ 1 + 3 * l.walk.steps
  seq_nonneg : 0 ≤ l.walk.branchSeq
  seq_le : l.walk.branchSeq ≤ 1 + 3 * l.walk.steps
  states : ∀ s ∈ l.walk.states, BranchInv len l.walk.steps s
  current : ∀ s, l.current = some s → BranchInv len l.walk.steps s

/-- The potential every turn lowers: the gas left counts for the most
branches it could still fork. -/
def Loop.potential (l : Loop) : Nat :=
  7 * l.walk.gas + 2 * l.walk.states.length + (if l.current.isSome then 1 else 0)

theorem LoopInv.initial (program : List Row) : LoopInv program.length (initialLoop program) where
  steps_add_gas := Nat.zero_add _
  pops_le := by simp [initialLoop]
  seq_nonneg := by simp [initialLoop]
  seq_le := by simp [initialLoop]
  states := by
    intro s hs
    rw [initialLoop, List.mem_singleton] at hs
    subst hs
    exact ⟨List.length_replicate, fun c hc => by rw [(List.mem_replicate.1 hc).2]; decide, le_rfl, le_rfl,
      MemInv.initial _⟩
  current := fun _ h => by cases h

/-- The running branch let go: what is left keeps the invariant. -/
theorem LoopInv.drop {len : Nat} {w : Walk} {c : Option QueryState} (h : LoopInv len ⟨w, c⟩) :
    LoopInv len ⟨w, none⟩ :=
  ⟨h.steps_add_gas, h.pops_le, h.seq_nonneg, h.seq_le, h.states, fun _ h => by cases h⟩

/-! ## One turn of the inner loop -/

/-- Where the running branch lands after its instruction: on it goes with a
memory keeping the invariant, or it ends; the counts and the stack stay. -/
theorem land_ends {lo : Int} {m : MemoryState} {flow : Flow} (hflow : flow.Ok lo m) (hpc : m.programI < isizeMax)
    (w : Walk) (state : QueryState) :
    Ends (w.land state flow) fun r => r.1.gas = w.gas ∧ r.1.steps = w.steps ∧ r.1.pops = w.pops ∧
      r.1.branchSeq = w.branchSeq ∧ r.1.states = w.states ∧
      ∀ s, r.2 = some s → s.visited = state.visited ∧ s.instructionCounter = state.instructionCounter ∧
        MemInv lo s.mem := by
  cases flow with
  | next mem => exact Ends.pure ⟨rfl, rfl, rfl, rfl, rfl, fun s hs => by cases hs; exact ⟨rfl, rfl, hflow⟩⟩
  | fallThrough mem =>
    -- the memory is still at the instruction just run, inside the program
    obtain ⟨hmem, hmpc⟩ := hflow
    exact (incrPc_ends hmem (hmpc ▸ hpc)).bind fun mem' hmem' =>
      Ends.pure ⟨rfl, rfl, rfl, rfl, rfl, fun s hs => by cases hs; exact ⟨rfl, rfl, hmem'⟩⟩
  | stop => exact Ends.pure ⟨rfl, rfl, rfl, rfl, rfl, fun _ hs => by cases hs⟩
  | result row => exact Ends.pure ⟨rfl, rfl, rfl, rfl, rfl, fun _ hs => by cases hs⟩

/-- What a turn of the inner loop leaves: the invariant, and a lower
potential. -/
def StepPost (len : Nat) (w : Walk) (s : QueryState) (r : Walk × Option QueryState) : Prop :=
  LoopInv len ⟨r.1, r.2⟩ ∧ Loop.potential ⟨r.1, r.2⟩ < Loop.potential ⟨w, some s⟩

/-- The branch stops at a limit (gas or loop): the walk, with the gas
spent or not, goes on to the next branch. -/
theorem stepPost_of_stop {len : Nat} {w : Walk} {s : QueryState} (hinv : LoopInv len ⟨w, some s⟩) {w' : Walk}
    (hw' : w' = w ∨ (0 < w.gas ∧ w' = { w with gas := w.gas - 1, steps := w.steps + 1 })) :
    StepPost len w s (w', none) := by
  have hsum : w.steps + w.gas = maxTotalInstructionCount := hinv.steps_add_gas
  have hpops : w.pops + w.states.length ≤ 1 + 3 * w.steps := hinv.pops_le
  have hseq : w.branchSeq ≤ 1 + 3 * w.steps := hinv.seq_le
  rcases hw' with rfl | ⟨hgas, rfl⟩
  · refine ⟨hinv.drop, ?_⟩
    simp [Loop.potential]
  · refine ⟨⟨by simp only; omega, by simp only; omega, hinv.seq_nonneg, by simp only; push_cast; omega,
      fun t ht => (hinv.states t ht).mono (Nat.le_succ _), fun _ h => by cases h⟩, ?_⟩
    simp only [Loop.potential, Option.isSome_none, Option.isSome_some, Bool.false_eq_true, ↓reduceIte]
    omega

/-- What a turn of either loop leaves: a configuration keeping the
invariant at a lower potential, or the end of the outer loop, with no
branch running or waiting. -/
def TickPost (len : Nat) (l : Loop) : Loop ⊕ Walk → Prop
  | .inl l' => LoopInv len l' ∧ l'.potential < l.potential
  | .inr w => w = l.walk ∧ l.current = none ∧ l.walk.states = []

/-- The configurations `explain`'s loops reach: the first, and any that a
turn from one of them leads to without error. -/
inductive Reachable (same : MemoryState → MemoryState → Bool) (program : List Row)
    (rootBlockCols : Int × Int → Option (IntMap ColumnType)) : Loop → Prop
  | initial : Reachable same program rootBlockCols (initialLoop program)
  | tick {l l' : Loop} : Reachable same program rootBlockCols l →
      (l.tick same program rootBlockCols).run = some (.ok (.inl l')) → Reachable same program rootBlockCols l'

section Step

variable (same : MemoryState → MemoryState → Bool) {program : List Row}
  (rootBlockCols : Int × Int → Option (IntMap ColumnType))
  (hrows : ∀ row ∈ program, row.InRange) (hlen : program.length ≤ isizeMax)
include hrows hlen

/-- **One instruction of a running branch.** On a branch inside the
program, the turn does not panic, keeps the invariant and lowers the
potential. -/
theorem step_ends {w : Walk} {s : QueryState} (hinv : LoopInv program.length ⟨w, some s⟩)
    (hpc : s.mem.programI < program.length) :
    EndsE (w.step same program rootBlockCols s) (StepPost program.length w s) := by
  have hs : BranchInv program.length w.steps s := hinv.current s rfl
  have hsum : w.steps + w.gas = maxTotalInstructionCount := hinv.steps_add_gas
  have hpops : w.pops + w.states.length ≤ 1 + 3 * w.steps := hinv.pops_le
  have hseq : w.branchSeq ≤ 1 + 3 * w.steps := hinv.seq_le
  have hseq0 : 0 ≤ w.branchSeq := hinv.seq_nonneg
  have hsteps : w.steps ≤ maxTotalInstructionCount := by omega
  unfold maxTotalInstructionCount at hsteps
  have hic := hs.counter_le
  have hic0 := hs.counter_nonneg
  -- the row and the visit count are read inside the program
  have hrow : program[s.mem.programI]? = some program[s.mem.programI] := List.getElem?_eq_getElem hpc
  have hvpc : s.mem.programI < s.visited.length := hs.visited_length ▸ hpc
  unfold Walk.step
  refine EndsE.bind_lift_of_eq hrow ?_
  refine EndsE.bind_lift_of_eq (checkedI64_of_le (by omega) (by unfold i64Max; omega)) ?_
  refine EndsE.ite (fun hgas => EndsE.pure (stepPost_of_stop hinv (.inl rfl))) fun hgas => ?_
  refine EndsE.bind_lift_of_eq (List.getElem?_eq_getElem hvpc) ?_
  have hcount := hs.visited_le _ (List.getElem_mem hvpc)
  refine EndsE.ite (fun _ => EndsE.pure (stepPost_of_stop hinv (.inr ⟨by omega, rfl⟩)))
    fun hloop => ?_
  unfold maxLoopCount at hloop hcount
  refine EndsE.bind_lift_of_eq (checkedU8_of_lt (by omega)) ?_
  -- the instruction, at the bound of the instructions run so far
  have hpc' : s.mem.programI < isizeMax := Nat.lt_of_lt_of_le hpc hlen
  refine (handle_ends hs.mem (by unfold i64Max; omega) (by omega) hpc'
    (hrows _ (List.getElem_mem hpc)) program rootBlockCols _).bind fun ⟨branches, flow⟩ harm => ?_
  dsimp only
  have hlen₂ : branches.length ≤ 3 := harm.length_le
  -- the branches are pushed from the running branch as it now stands
  refine (EndsE.lift (fork_ends same _ ?_ ?_ branches _ ?_ ?_)).bind fun w₂ hw₂ => EndsE.lift ?_
  · show 1 ≤ s.instructionCounter + 1
    omega
  · show s.instructionCounter + 1 ≤ i64Max
    unfold i64Max
    omega
  · exact hseq0
  · show w.branchSeq + branches.length ≤ i64Max
    unfold i64Max
    omega
  obtain ⟨new, vbs, rfl, hnewlen, hnew⟩ := hw₂
  refine (land_ends harm.flow hpc' _ _).mono ?_
  rintro ⟨w₃, s₃⟩ ⟨hgas₃, hsteps₃, hpops₃, hseq₃, hstates₃, hcur₃⟩
  simp only at hgas₃ hsteps₃ hpops₃ hseq₃ hstates₃ hcur₃
  have hlo : (-(w.steps : Int) - 1) = -((w.steps + 1 : Nat) : Int) := by push_cast; ring
  -- the running branch after the instruction: its visits, its counter, its memory
  have hnext : ∀ t : QueryState, t.visited = s.visited.set s.mem.programI (s.visited[s.mem.programI] + 1) →
      0 ≤ t.instructionCounter → t.instructionCounter ≤ w.steps + 1 →
      MemInv (-((w.steps + 1 : Nat) : Int)) t.mem → BranchInv program.length (w.steps + 1) t := by
    intro t ht h₁ h₂ h₃
    refine ⟨by rw [ht, List.length_set, hs.visited_length], fun c hc => ?_, h₁, h₂, h₃⟩
    rw [ht] at hc
    rcases List.mem_or_eq_of_mem_set hc with hc | rfl
    · exact hs.visited_le c hc
    · unfold maxLoopCount
      omega
  refine ⟨⟨?_, ?_, ?_, ?_, ?_, ?_⟩, ?_⟩
  · rw [hgas₃, hsteps₃]
    omega
  · rw [hpops₃, hstates₃, hsteps₃, List.length_append]
    omega
  · rw [hseq₃]
    omega
  · rw [hseq₃, hsteps₃]
    push_cast
    omega
  · rw [hstates₃, hsteps₃]
    intro t ht
    rcases List.mem_append.1 ht with ht | ht
    · -- a branch just forked
      obtain ⟨hv, hc, hm⟩ := hnew t ht
      refine hnext t hv (by rw [hc]) (by rw [hc]; omega) ?_
      rw [← hlo]
      exact harm.branches _ hm
    · exact (hinv.states t ht).mono (Nat.le_succ _)
  · intro t ht
    obtain ⟨hv, hc, hm⟩ := hcur₃ t ht
    rw [hsteps₃]
    refine hnext t hv (by rw [hc]; omega) (by rw [hc]; omega) ?_
    rw [← hlo]
    exact hm
  · -- the gas spent pays for up to three branches
    simp only [Loop.potential, hgas₃, hstates₃, List.length_append, Option.isSome_some, ↓reduceIte]
    split <;> omega

/-- **One turn of either loop.** It does not panic: a branch is popped, an
instruction is run, a branch leaves the program, or the outer loop ends. -/
theorem tick_ends {l : Loop} (hinv : LoopInv program.length l) :
    EndsE (l.tick same program rootBlockCols) (TickPost program.length l) := by
  obtain ⟨w, _ | s⟩ := l
  · -- no branch running: the top of the stack is popped, or the outer loop ends
    have hstates : ∀ t ∈ w.states, BranchInv program.length w.steps t := hinv.states
    have hpops : w.pops + w.states.length ≤ 1 + 3 * w.steps := hinv.pops_le
    dsimp only [Loop.tick]
    cases hst : w.states with
    | nil => exact EndsE.pure ⟨rfl, rfl, hst⟩
    | cons s rest =>
      rw [hst] at hstates hpops
      refine EndsE.pure ⟨⟨hinv.steps_add_gas, ?_, hinv.seq_nonneg, hinv.seq_le, ?_, ?_⟩, ?_⟩
      · show w.pops + 1 + rest.length ≤ 1 + 3 * w.steps
        rw [List.length_cons] at hpops
        omega
      · exact fun t ht => hstates t (List.mem_cons_of_mem s ht)
      · rintro _ ⟨⟩
        exact hstates s List.mem_cons_self
      · show 7 * w.gas + 2 * rest.length + 1 < 7 * w.gas + 2 * w.states.length + 0
        rw [hst, List.length_cons]
        omega
  · -- a branch running: its instruction, or out of the program it goes
    dsimp only [Loop.tick]
    refine EndsE.ite (fun hpc => ?_) fun _ => EndsE.pure ⟨hinv.drop, ?_⟩
    · exact (step_ends same rootBlockCols hrows hlen hinv hpc).bind fun _ h => EndsE.pure h
    · show 7 * w.gas + 2 * w.states.length + 0 < 7 * w.gas + 2 * w.states.length + 1
      omega

/-- **Every configuration the loops reach keeps the invariant.** -/
theorem Reachable.inv {l : Loop} (h : Reachable same program rootBlockCols l) : LoopInv program.length l := by
  induction h with
  | initial => exact LoopInv.initial program
  | tick _ hrun ih => exact ((tick_ends same rootBlockCols hrows hlen ih).of_run_eq_ok hrun).1

/-- **The fuel is never the limit.** From a configuration the loops reach,
fuel above its potential runs them to the end: a configuration they reach
with no branch running or waiting. -/
theorem run_ends : ∀ (fuel : Nat) (l : Loop), Reachable same program rootBlockCols l → l.potential < fuel →
    EndsE (Loop.run same program rootBlockCols fuel l) fun w =>
      ∃ l', Reachable same program rootBlockCols l' ∧ l'.current = none ∧ l'.walk.states = [] ∧ l'.walk = w
  | 0, _, _, hfuel => absurd hfuel (Nat.not_lt_zero _)
  | fuel + 1, l, hl, hfuel => by
    rw [Loop.run]
    refine (tick_ends same rootBlockCols hrows hlen (hl.inv same rootBlockCols hrows hlen)).run_eq.bind ?_
    rintro (l' | w) ⟨hpost, hrun⟩
    · exact run_ends fuel l' (.tick hl hrun) (by have := hpost.2; omega)
    · obtain ⟨rfl, hcur, hst⟩ := hpost
      exact EndsE.pure ⟨l, hl, hcur, hst, rfl⟩

end Step

/-! ## The merge -/

/-- A type merged at an index no further than one past the end: the output
then reaches past that index. -/
theorem mergeType_ends {output : List (Option DataType)} {idx : Nat} (thisType : DataType)
    (hidx : idx ≤ output.length) :
    Ends (mergeType output idx thisType) fun o => o.length = max output.length (idx + 1) := by
  unfold mergeType
  refine Ends.ite (fun heq => Ends.pure ?_) fun hne => ?_
  · rw [List.length_append, List.length_singleton]
    omega
  · have hlt : idx < output.length := by omega
    refine Ends.bind_of_eq (List.getElem?_eq_getElem hlt) (Ends.ite (fun _ => Ends.pure ?_) fun _ => Ends.pure ?_)
    · rw [List.length_set]
      omega
    · omega

/-- The same for a nullability. -/
theorem mergeNullable_ends {nullable : List (Option Bool)} {idx : Nat} (thisNullable : Option Bool)
    (hidx : idx ≤ nullable.length) :
    Ends (mergeNullable nullable idx thisNullable) fun o => o.length = max nullable.length (idx + 1) := by
  unfold mergeNullable
  refine Ends.ite (fun heq => Ends.pure ?_) fun hne => ?_
  · rw [List.length_append, List.length_singleton]
    omega
  · have hlt : idx < nullable.length := by omega
    have hset : ∀ v, (nullable.set idx v).length = max nullable.length (idx + 1) := fun v => by
      rw [List.length_set]
      omega
    refine Ends.bind_of_eq (List.getElem?_eq_getElem hlt) ?_
    -- the stored nullability, then the row's: set, or kept
    split
    · split
      · exact Ends.pure (hset _)
      · exact Ends.pure (by omega)
    · exact Ends.pure (hset _)

/-- What merging keeps: the two vectors at one length. -/
def Merged (acc : List (Option DataType) × List (Option Bool)) : Prop := acc.2.length = acc.1.length

/-- One column, at an index no further than one past the end. -/
theorem mergeColumn_ends {acc : List (Option DataType) × List (Option Bool)} {col : ColumnType × Nat}
    (hacc : Merged acc) (hidx : col.2 ≤ acc.1.length) :
    Ends (mergeColumn acc col) fun acc' => Merged acc' ∧ acc'.1.length = max acc.1.length (col.2 + 1) := by
  unfold mergeColumn
  refine (mergeType_ends _ hidx).bind fun output houtput => ?_
  refine (mergeNullable_ends _ (hacc ▸ hidx)).bind fun nullable hnullable => Ends.pure ⟨?_, houtput⟩
  show nullable.length = output.length
  rw [hnullable, houtput, hacc]

/-- The columns of a row from index `k`, merged in order, each one past the
end at most: the vectors reach to the row's last column. -/
theorem foldlM_mergeColumn_ends :
    ∀ (row : List ColumnType) (k : Nat) (acc : List (Option DataType) × List (Option Bool)),
      Merged acc → k ≤ acc.1.length →
      Ends ((row.zipIdx k).foldlM mergeColumn acc) fun acc' =>
        Merged acc' ∧ acc'.1.length = max acc.1.length (k + row.length)
  | [], k, acc, hacc, hk => ⟨acc, rfl, hacc, by simp only [List.length_nil]; omega⟩
  | c :: row, k, acc, hacc, hk => by
    rw [List.zipIdx_cons, List.foldlM_cons]
    refine (mergeColumn_ends hacc hk).bind fun acc₁ ⟨hacc₁, hlen₁⟩ => ?_
    refine (foldlM_mergeColumn_ends row (k + 1) acc₁ hacc₁ (by omega)).mono fun acc' ⟨hacc', hlen'⟩ => ⟨hacc', ?_⟩
    rw [hlen', hlen₁, List.length_cons]
    omega

theorem widest_cons (row : List ColumnType) (rows : List (List ColumnType)) :
    widest (row :: rows) = max row.length (widest rows) := rfl

/-- **The merge.** It does not panic, and gives a type and a nullability
for each column of the widest row. -/
theorem mergeResults_ends (resultStates : List (List ColumnType)) :
    Ends (mergeResults resultStates) fun merged =>
      merged.1.length = widest resultStates ∧ merged.2.length = widest resultStates := by
  -- the rows in turn, from any accumulator of one length
  have hrows : ∀ (rows : List (List ColumnType)) (acc : List (Option DataType) × List (Option Bool)),
      Merged acc → Ends (rows.foldlM mergeRow acc) fun acc' =>
        Merged acc' ∧ acc'.1.length = max acc.1.length (widest rows) := by
    intro rows
    induction rows with
    | nil => exact fun acc hacc => ⟨acc, rfl, hacc, by simp [widest]⟩
    | cons row rows ih =>
      intro acc hacc
      rw [List.foldlM_cons]
      refine (foldlM_mergeColumn_ends row 0 acc hacc (Nat.zero_le _)).bind fun acc₁ ⟨hacc₁, hlen₁⟩ => ?_
      refine (ih acc₁ hacc₁).mono fun acc' ⟨hacc', hlen'⟩ => ⟨hacc', ?_⟩
      rw [hlen', hlen₁, widest_cons]
      omega
  refine (hrows resultStates ([], []) rfl).mono fun merged ⟨hmerged, hlen⟩ => ?_
  rw [List.length_nil, Nat.zero_max] at hlen
  exact ⟨hlen, hmerged.trans hlen⟩

/-! ## `explain` -/

theorem initialLoop_potential (program : List Row) : (initialLoop program).potential < explainFuel := by
  simp [Loop.potential, initialLoop, explainFuel]

section Explain

variable (same : MemoryState → MemoryState → Bool) {program : List Row}
  (rootBlockCols : Int × Int → Option (IntMap ColumnType))
  (hrows : ∀ row ∈ program, row.InRange) (hlen : program.length ≤ isizeMax)
include hrows hlen

/-- `explain` does not panic: the loops run to their end within the fuel,
and the merge gives one type and one nullability per column of the widest
row reached. -/
theorem explain_ends :
    EndsE (explain same rootBlockCols program) fun r =>
      ∃ l, Reachable same program rootBlockCols l ∧ l.current = none ∧ l.walk.states = [] ∧
        r.1.length = widest l.walk.resultStates ∧ r.2.length = widest l.walk.resultStates := by
  unfold explain
  refine (run_ends same rootBlockCols hrows hlen explainFuel _ .initial (initialLoop_potential program)).bind ?_
  rintro w ⟨l, hl, hcur, hst, rfl⟩
  refine (EndsE.lift (mergeResults_ends l.walk.resultStates)).bind fun merged ⟨h₁, h₂⟩ =>
    EndsE.pure ⟨l, hl, hcur, hst, ?_, h₂⟩
  rw [List.length_map, h₁]

end Explain

theorem explain_walk_stays_within_budget (same : MemoryState → MemoryState → Bool)
    (rootBlockCols : Int × Int → Option (IntMap ColumnType)) (program : List Row)
    (hrows : ∀ row ∈ program, row.InRange) (hlen : program.length ≤ isizeMax) :
    (∀ l, Reachable same program rootBlockCols l →
      l.walk.steps ≤ maxTotalInstructionCount ∧ l.walk.pops ≤ 1 + 3 * maxTotalInstructionCount ∧
        (l.tick same program rootBlockCols).run.isSome) ∧
    (explain same rootBlockCols program).run.isSome ∧
    ∀ output nullable, (explain same rootBlockCols program).run = some (.ok (output, nullable)) →
      ∃ l, Reachable same program rootBlockCols l ∧ l.current = none ∧ l.walk.states = [] ∧
        output.length = nullable.length ∧ output.length = widest l.walk.resultStates := by
  refine ⟨fun l hl => ?_, (explain_ends same rootBlockCols hrows hlen).isSome, fun output nullable hrun => ?_⟩
  · -- the gas bounds the instructions run, and they bound the branches popped
    have hinv := hl.inv same rootBlockCols hrows hlen
    have hsum : l.walk.steps + l.walk.gas = maxTotalInstructionCount := hinv.steps_add_gas
    have hpops : l.walk.pops + l.walk.states.length ≤ 1 + 3 * l.walk.steps := hinv.pops_le
    exact ⟨by omega, by omega, (tick_ends same rootBlockCols hrows hlen hinv).isSome⟩
  · obtain ⟨l, hl, hcur, hst, h₁, h₂⟩ := (explain_ends same rootBlockCols hrows hlen).of_run_eq_ok hrun
    exact ⟨l, hl, hcur, hst, h₁.trans h₂.symm, h₁⟩

/-- A program that writes `1` into a register and returns it as a row: one
integer column, never null, from a walk that ends with one row reached. -/
theorem explain_of_integer_result_row :
    (explain (fun _ _ => false) (fun _ => none)
        [⟨"Integer", 1, 1, 0, []⟩, ⟨"ResultRow", 1, 1, 0, []⟩, ⟨"Halt", 0, 0, 0, []⟩]).run =
      some (.ok ([.integer], [some false])) ∧
    ∃ l, Reachable (fun _ _ => false) [⟨"Integer", 1, 1, 0, []⟩, ⟨"ResultRow", 1, 1, 0, []⟩, ⟨"Halt", 0, 0, 0, []⟩]
        (fun _ => none) l ∧ l.current = none ∧ l.walk.states = [] ∧ widest l.walk.resultStates = 1 := by
  have hrun : (explain (fun _ _ => false) (fun _ => none)
      [⟨"Integer", 1, 1, 0, []⟩, ⟨"ResultRow", 1, 1, 0, []⟩, ⟨"Halt", 0, 0, 0, []⟩]).run =
        some (.ok ([.integer], [some false])) := rfl
  obtain ⟨l, hl, hcur, hst, -, hwidest⟩ :=
    (explain_walk_stays_within_budget _ _ _ (by decide) (by decide)).2.2 _ _ hrun
  exact ⟨hrun, l, hl, hcur, hst, hwidest.symm⟩

end Sqlx.Sqlite
