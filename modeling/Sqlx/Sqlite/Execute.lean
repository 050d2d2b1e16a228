import Mathlib.Data.List.TakeWhile
import Sqlx.Sqlite.Arguments

/-!
# SQLite — binding the arguments to a statement (`arguments.rs`, `statement/handle.rs`)

`SqliteArguments::bind` walks a prepared statement's parameter slots by
index and picks an argument for each: a slot named `?NNN` or `$NNN` takes
argument `NNN`, a slot without a name (an anonymous `?`, or a slot below the
largest `?NNN` that the SQL never uses) takes the next positional one. The
loop stops at the first slot whose argument is past the end of the list,
so that every later slot stays unbound, and SQLite reads it as `NULL`, even
where its own argument is there (`bindSlots_numbered`,
`bind_stops_at_first_missing_argument`).

The statement is what binding sees of it: `sqlite3_bind_parameter_name` of
each slot, and the value bound to each. `sqlite3_bind_*` fails off the
slots, and on a string or blob longer than `SQLITE_MAX_LENGTH`.
-/

namespace Sqlx.Sqlite

/-- `atoi::<usize>`: the decimal number the text starts with; `None` when it
starts with no digit, or the number overflows a 64-bit `usize`. -/
def atoi (s : List Char) : Option Nat :=
  match s.takeWhile Char.isDigit with
  | [] => none
  | digits =>
    let n := Nat.ofDigitChars 10 digits 0
    if n < 2 ^ 64 then some n else none

/-- The decimal digits of `n` read back. -/
theorem atoi_repr {n : Nat} (h : n < 2 ^ 64) : atoi n.repr.toList = some n := by
  have hdigits : (Nat.toDigits 10 n).takeWhile Char.isDigit = Nat.toDigits 10 n :=
    List.takeWhile_eq_self_iff.mpr fun c hc => Nat.isDigit_of_mem_toDigits (by decide) (by decide) hc
  rw [atoi, Nat.toList_repr, hdigits]
  split
  · exact absurd ‹_› Nat.toDigits_ne_nil
  · rw [Nat.ofDigitChars_ten_toDigits, if_pos h]

/-- `SQLITE_MAX_LENGTH`, the longest string or blob SQLite binds by default. -/
def sqliteMaxLength : Nat := 1000000000

/-- The bytes a string or blob hands to `sqlite3_bind_text64` or `sqlite3_bind_blob64`. -/
def SqliteArgumentValue.byteLength : SqliteArgumentValue → Nat
  | .text value => value.utf8ByteSize
  | .blob value => value.length
  | _ => 0

/-- A prepared statement as binding sees it: `sqlite3_bind_parameter_name`
of each parameter slot, from slot 1 on, and the value bound to each slot,
`none` for one unbound. -/
structure StatementHandle where
  parameterNames : List (Option String)
  bindings : List (Option SqliteArgumentValue)
  length_bindings : bindings.length = parameterNames.length

namespace StatementHandle

/-- A statement with nothing bound, as `sqlite3_prepare_v3` and `clear_bindings` leave it. -/
def new (parameterNames : List (Option String)) : StatementHandle :=
  ⟨parameterNames, parameterNames.map fun _ => none, List.length_map _⟩

/-- `bind_parameter_count`. -/
def bindParameterCount (self : StatementHandle) : Nat := self.parameterNames.length

/-- `clear_bindings`. -/
def clearBindings (self : StatementHandle) : StatementHandle := new self.parameterNames

/-- `sqlite3_bind_*` at slot `index`: `SQLITE_RANGE` off the slots, and
`SQLITE_TOOBIG` for a string or blob over the limit. -/
def bindValue (self : StatementHandle) (index : Nat) (value : SqliteArgumentValue) : Except String StatementHandle :=
  if index = 0 ∨ self.parameterNames.length < index then .error "column index out of range"
  else if sqliteMaxLength < value.byteLength then .error "string or blob too big"
  else .ok ⟨self.parameterNames, self.bindings.set (index - 1) (some value), by rw [List.length_set, self.length_bindings]⟩

/-- The value bound to slot `index`, from 1 on. -/
def boundAt (self : StatementHandle) (index : Nat) : Option SqliteArgumentValue := (self.bindings[index - 1]?).join

@[simp] theorem boundAt_new (parameterNames : List (Option String)) (index : Nat) :
    (new parameterNames).boundAt index = none := by
  simp only [boundAt, new, List.getElem?_map]
  cases parameterNames[index - 1]? <;> rfl

/-- A value within the limit binds to a slot of the statement, and only that slot changes. -/
theorem bindValue_of_le {self : StatementHandle} {index : Nat} {value : SqliteArgumentValue} (h0 : 0 < index)
    (hindex : index ≤ self.parameterNames.length) (hsize : value.byteLength ≤ sqliteMaxLength) :
    ∃ handle, self.bindValue index value = .ok handle ∧ handle.parameterNames = self.parameterNames ∧
      ∀ s, 0 < s → handle.boundAt s = if s = index then some value else self.boundAt s := by
  have hlt : index - 1 < self.bindings.length := by rw [self.length_bindings]; omega
  refine ⟨⟨self.parameterNames, self.bindings.set (index - 1) (some value), by rw [List.length_set, self.length_bindings]⟩,
    by rw [bindValue, if_neg (by omega), if_neg (by omega)], rfl, fun s hs => ?_⟩
  by_cases hs' : s = index
  · subst hs'
    simp [boundAt, hlt]
  · simp only [boundAt, List.getElem?_set, if_neg hs', if_neg (show ¬index - 1 = s - 1 by omega)]

end StatementHandle

/-- `SqliteArgumentValue::bind`. -/
def SqliteArgumentValue.bind (self : SqliteArgumentValue) (handle : StatementHandle) (i : Nat) :
    Except String StatementHandle :=
  handle.bindValue i self

namespace SqliteArguments

/-- The argument, counted from one, that a slot named `name` takes, with the
count of positional arguments after it: `?NNN` and `$NNN` name it, and a
slot without a name takes the next positional one. `none` is the panic of
`expect`. -/
def slotTarget (name : Option String) (argI : Nat) : Option (Except String (Nat × Nat)) :=
  match name with
  | none => some (.ok (argI + 1, argI + 1))
  | some name =>
    match name.toList with
    | '?' :: rest => (atoi rest).map fun n => .ok (n, argI)
    | '$' :: rest =>
      let stripped := String.ofList rest
      some ((atoi rest).elim (.error s!"parameters with non-integer names are not currently supported: {stripped}")
        fun n => .ok (n, argI))
    | _ => some (.error s!"unsupported SQL parameter format: {name}")

/-- The loop of `bind` over the slots `names`, the first of them slot
`paramI`, with `argI` positional arguments taken so far; `none` is a panic. -/
def bindSlots (self : SqliteArguments) :
    List (Option String) → Nat → Nat → StatementHandle → Option (Except String (StatementHandle × Nat))
  | [], _, argI, handle => some (.ok (handle, argI))
  | name :: names, paramI, argI, handle =>
    match slotTarget name argI with
    | none => none
    | some (.error e) => some (.error e)
    | some (.ok (n, argI)) =>
      -- SQLite treats unbound variables as NULL
      if n > self.values.length then some (.ok (handle, argI))
      -- `n - 1` overflows
      else if n = 0 then none
      else
        match self.values[n - 1]? with
        | none => none
        | some value =>
          match value.bind handle paramI with
          | .error e => some (.error e)
          | .ok handle => self.bindSlots names (paramI + 1) argI handle

/-- `SqliteArguments::bind`: the statement with the arguments bound, and how
many positional arguments it took from `offset` on. -/
def bind (self : SqliteArguments) (handle : StatementHandle) (offset : Nat) :
    Option (Except String (StatementHandle × Nat)) :=
  (self.bindSlots handle.parameterNames 1 offset handle).map
    (Except.map fun (handle, argI) => (handle, argI - offset))

/-- The slot name SQLite gives `$NNN`. -/
def dollarName (n : Nat) : Option String := some ("$" ++ n.repr)

theorem slotTarget_dollarName {n : Nat} (h : n < 2 ^ 64) (argI : Nat) :
    slotTarget (dollarName n) argI = some (.ok (n, argI)) := by
  have hlist : ("$" ++ n.repr).toList = '$' :: n.repr.toList := by rw [String.toList_append]; rfl
  simp only [slotTarget, dollarName, hlist, atoi_repr h, Option.elim]

variable {self : SqliteArguments}

/-- **Slots named `$NNN`.** From slot `paramI` on, each slot is bound to its
argument while the arguments named so far are all there; from the first
one that is not, no slot is bound. -/
theorem bindSlots_numbered (hsize : ∀ v ∈ self.values, v.byteLength ≤ sqliteMaxLength) (argI : Nat) :
    ∀ (targets : List Nat) (paramI : Nat) (handle : StatementHandle), (∀ t ∈ targets, 0 < t ∧ t < 2 ^ 64) →
      0 < paramI → paramI + targets.length ≤ handle.parameterNames.length + 1 →
      ∃ handle', self.bindSlots (targets.map dollarName) paramI argI handle = some (.ok (handle', argI)) ∧
        handle'.parameterNames = handle.parameterNames ∧
        ∀ s, 0 < s → handle'.boundAt s =
          if paramI ≤ s ∧ s < paramI + (targets.takeWhile (· ≤ self.values.length)).length then
            self.values[targets.getD (s - paramI) 0 - 1]?
          else handle.boundAt s := by
  intro targets
  induction targets with
  | nil =>
    intro paramI handle _ _ _
    exact ⟨handle, rfl, rfl, fun s _ => by simp⟩
  | cons t ts ih =>
    intro paramI handle htargets hparam hroom
    obtain ⟨ht0, ht64⟩ := htargets t List.mem_cons_self
    have hts : ∀ t ∈ ts, 0 < t ∧ t < 2 ^ 64 := fun t' h => htargets t' (List.mem_cons_of_mem t h)
    rw [List.length_cons] at hroom
    by_cases hin : t ≤ self.values.length
    · -- the argument is there: bind it to this slot, then go on from the next
      obtain ⟨value, hvalue⟩ : ∃ value, self.values[t - 1]? = some value :=
        ⟨self.values[t - 1], List.getElem?_eq_getElem (by omega)⟩
      obtain ⟨handle₁, hbind, hnames₁, hbound₁⟩ := @StatementHandle.bindValue_of_le handle paramI value hparam
        (by omega) (hsize value (List.mem_of_getElem? hvalue))
      obtain ⟨handle', hrun, hnames', hbound'⟩ := ih (paramI + 1) handle₁ hts (by omega) (by rw [hnames₁]; omega)
      refine ⟨handle', ?_, hnames'.trans hnames₁, fun s hs => ?_⟩
      · simp only [List.map_cons, bindSlots, slotTarget_dollarName ht64, if_neg (Nat.not_lt.mpr hin),
          if_neg (Nat.pos_iff_ne_zero.mp ht0), hvalue]
        rw [SqliteArgumentValue.bind, hbind]
        exact hrun
      · rw [hbound' s hs, hbound₁ s hs, List.takeWhile_cons_of_pos (by simpa using hin), List.length_cons]
        by_cases hsp : s = paramI
        · subst hsp
          simp [hvalue]
        · by_cases hrange : paramI + 1 ≤ s ∧ s < paramI + 1 + (ts.takeWhile (· ≤ self.values.length)).length
          · have hsub : s - paramI = (s - (paramI + 1)) + 1 := by omega
            rw [if_pos hrange, if_pos (by omega), hsub, List.getD_cons_succ]
          · rw [if_neg hrange, if_neg hsp, if_neg (by omega)]
    · -- past the end: the loop breaks, and nothing more is bound
      refine ⟨handle, ?_, rfl, fun s _ => ?_⟩
      · simp only [List.map_cons, bindSlots, slotTarget_dollarName ht64, if_pos (Nat.lt_of_not_le hin)]
      · rw [List.takeWhile_cons_of_neg (by simpa using hin), List.length_nil, Nat.add_zero]
        rw [if_neg (by omega)]

end SqliteArguments

/-- **`bind` stops at the first argument missing.** A statement whose slots
are named `$NNN`, bound from any offset: slot `i + 1` holds its argument
when every slot up to it names one that is there, and is unbound, so `NULL`,
from the first slot that names one past the end on, whatever the later
slots name. -/
theorem bind_stops_at_first_missing_argument (args : SqliteArguments) (targets : List Nat) (offset : Nat)
    (htargets : ∀ t ∈ targets, 0 < t ∧ t < 2 ^ 64) (hsize : ∀ v ∈ args.values, v.byteLength ≤ sqliteMaxLength) :
    ∃ handle, args.bind (StatementHandle.new (targets.map SqliteArguments.dollarName)) offset = some (.ok (handle, 0)) ∧
      ∀ i < targets.length, handle.boundAt (i + 1) =
        if i < (targets.takeWhile (· ≤ args.values.length)).length then args.values[targets.getD i 0 - 1]? else none := by
  obtain ⟨handle, hrun, -, hbound⟩ := SqliteArguments.bindSlots_numbered hsize offset targets 1
    (StatementHandle.new (targets.map SqliteArguments.dollarName)) htargets Nat.one_pos
    (by simp only [StatementHandle.new, List.length_map]; omega)
  refine ⟨handle, ?_, fun i _ => ?_⟩
  · show Option.map _ (args.bindSlots (targets.map SqliteArguments.dollarName) 1 offset _) = _
    rw [hrun, Option.map_some]
    simp [Except.map]
  · rw [hbound (i + 1) (Nat.succ_pos i), StatementHandle.boundAt_new, Nat.add_sub_cancel]
    by_cases hi : i < (targets.takeWhile (· ≤ args.values.length)).length
    · rw [if_pos ⟨by omega, by omega⟩, if_pos hi]
    · rw [if_neg (by omega), if_neg hi]

/-- `SELECT $3, $1` with two arguments: `$3` has none, and the loop stops
there, so `$1` is left `NULL` too, where its argument is the first. -/
theorem bind_dollar_three_then_one :
    ∃ handle, (⟨[.int 10, .int 20]⟩ : SqliteArguments).bind
        (StatementHandle.new ([3, 1].map SqliteArguments.dollarName)) 0 = some (.ok (handle, 0)) ∧
      handle.boundAt 1 = none ∧ handle.boundAt 2 = none := by
  obtain ⟨handle, hrun, hbound⟩ := bind_stops_at_first_missing_argument ⟨[.int 10, .int 20]⟩ [3, 1] 0
    (by decide) (by decide)
  exact ⟨handle, hrun, by rw [hbound 0 (by decide)]; rfl, by rw [hbound 1 (by decide)]; rfl⟩

end Sqlx.Sqlite
