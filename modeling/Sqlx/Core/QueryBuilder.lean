import Sqlx.Postgres.ArgumentLayout
import Sqlx.MySql.Arguments
import Sqlx.Sqlite.Arguments

/-!
# The query builder (`sqlx-core/src/query_builder.rs`)

`QueryBuilder` appends SQL text to its query and binds values to its
arguments. A bind adds the value first and then writes the placeholder the
driver's arguments format: `$k` for Postgres, `k` being the count of arguments
so far, `?` for MySQL and SQLite. `Separated` borrows the builder to push a
list divided by its separator, remembering whether an item came already;
`push_values` and `push_tuples` write one parenthesised group per row, the
row's fields pushed through a `Separated` of their own.

Where the Rust code panics (`sanity_check` after `build`, an `add` failing
under `expect`) the model returns `none`. Each call on a builder is the run of
the text and bind fragments it contributes (`BuilderCall.fragments`), a separated
list putting its separator before each separated item after the first and the
rows of `push_values` being joined by `", "`; a run of fragments writes the
text with the `k`-th bind as the driver's `k`-th placeholder, and the arguments
are the bound values added in that order.
-/

namespace Sqlx

/-- `Arguments`, as the builder uses it: the default value, `add`, and what
`format_placeholder` writes. -/
class Arguments (A : Type) (V : outParam Type) where
  default : A
  add : V → EStateM String A Unit
  formatPlaceholder : A → String

/-- `QueryBuilder`; the arguments are `None` once `build` took them.
`init.len()` counts bytes and `truncate` cuts at a byte; counted in
characters, the cut falls at the same place of the prefix `init`. -/
structure QueryBuilder (A : Type) where
  query : String
  initLen : Nat
  arguments : Option A

/-- `Separated`: the builder it borrows, its separator, and whether an item
came already. -/
structure Separated (A : Type) where
  queryBuilder : QueryBuilder A
  separator : String
  pushSeparator : Bool

namespace QueryBuilder

variable {A V : Type} [Arguments A V]

/-- `QueryBuilder::new`. -/
def new (init : String) : QueryBuilder A := ⟨init, init.length, some Arguments.default⟩

/-- `sanity_check`: the arguments, where the check does not panic. -/
def sanityCheck (self : QueryBuilder A) : Option A := self.arguments

/-- `QueryBuilder::push`. -/
def push (sql : String) (self : QueryBuilder A) : Option (QueryBuilder A) := do
  let _ ← self.sanityCheck
  pure { self with query := self.query ++ sql }

/-- `QueryBuilder::push_bind`: the value is added, then the placeholder is
formatted from the arguments that hold it. -/
def pushBind (value : V) (self : QueryBuilder A) : Option (QueryBuilder A) := do
  let _ ← self.sanityCheck
  -- `expect("BUG: Arguments taken already")`
  let arguments ← self.arguments
  match (Arguments.add value).run arguments with
  | .ok () arguments =>
    pure { self with query := self.query ++ Arguments.formatPlaceholder arguments, arguments := some arguments }
  -- `expect("Failed to add argument")`
  | .error _ _ => none

/-- `QueryBuilder::separated`. -/
def separated (separator : String) (self : QueryBuilder A) : Option (Separated A) := do
  let _ ← self.sanityCheck
  pure ⟨self, separator, false⟩

/-- `QueryBuilder::reset`. -/
def reset (self : QueryBuilder A) : QueryBuilder A :=
  { self with query := String.ofList (self.query.toList.take self.initLen), arguments := some Arguments.default }

/-- `QueryBuilder::build`: the SQL and the arguments taken out. -/
def build (self : QueryBuilder A) : Option ((String × A) × QueryBuilder A) := do
  let _ ← self.sanityCheck
  let arguments ← self.arguments
  pure ((self.query, arguments), { self with arguments := none })

end QueryBuilder

namespace Separated

variable {A V : Type} [Arguments A V]

/-- `Separated::push`: the separator and the text in one push once an item
came, the text alone for the first. -/
def push (sql : String) (self : Separated A) : Option (Separated A) :=
  if self.pushSeparator then
    (self.queryBuilder.push (self.separator ++ sql)).map fun qb => { self with queryBuilder := qb }
  else
    (self.queryBuilder.push sql).map fun qb => { self with queryBuilder := qb, pushSeparator := true }

/-- `Separated::push_unseparated`. -/
def pushUnseparated (sql : String) (self : Separated A) : Option (Separated A) :=
  (self.queryBuilder.push sql).map fun qb => { self with queryBuilder := qb }

/-- `Separated::push_bind`. -/
def pushBind (value : V) (self : Separated A) : Option (Separated A) := do
  let qb ← if self.pushSeparator then self.queryBuilder.push self.separator else pure self.queryBuilder
  let qb ← qb.pushBind value
  pure { self with queryBuilder := qb, pushSeparator := true }

/-- `Separated::push_bind_unseparated`. -/
def pushBindUnseparated (value : V) (self : Separated A) : Option (Separated A) :=
  (self.queryBuilder.pushBind value).map fun qb => { self with queryBuilder := qb }

end Separated

namespace QueryBuilder

variable {A V : Type} [Arguments A V]

/-- The loop `push_values` and `push_tuples` share: per row, `(` through the
outer `Separated`, the row's fields through a `Separated` of their own, then
`)` unseparated. The closure is what it does to the `Separated` it is handed. -/
def pushRows {ρ : Type} (pushTuple : Separated A → ρ → Option (Separated A)) :
    List ρ → Separated A → Option (Separated A)
  | [], separated => some separated
  | tuple :: tuples, separated => do
    let separated ← separated.push "("
    let inner ← separated.queryBuilder.separated ", "
    let inner ← pushTuple inner tuple
    let separated ← { separated with queryBuilder := inner.queryBuilder }.pushUnseparated ")"
    pushRows pushTuple tuples separated

/-- `QueryBuilder::push_values`. Its `debug_assert!` that a row came is
compiled out of release builds. -/
def pushValues {ρ : Type} (tuples : List ρ) (pushTuple : Separated A → ρ → Option (Separated A))
    (self : QueryBuilder A) : Option (QueryBuilder A) := do
  let _ ← self.sanityCheck
  let self ← self.push "VALUES "
  let separated ← self.separated ", "
  let separated ← pushRows pushTuple tuples separated
  pure separated.queryBuilder

/-- `QueryBuilder::push_tuples`. -/
def pushTuples {ρ : Type} (tuples : List ρ) (pushTuple : Separated A → ρ → Option (Separated A))
    (self : QueryBuilder A) : Option (QueryBuilder A) := do
  let _ ← self.sanityCheck
  let self ← self.push " ("
  let separated ← self.separated ", "
  let separated ← pushRows pushTuple tuples separated
  let separated ← separated.pushUnseparated ") "
  pure separated.queryBuilder

end QueryBuilder

/-! ## The drivers' arguments -/

instance : Arguments Postgres.PgArguments Postgres.Value where
  default := .empty
  add := Postgres.PgArguments.add
  -- `write!(writer, "${}", self.buffer.count)`
  formatPlaceholder args := "$" ++ toString args.buffer.count

instance : Arguments MySql.MySqlArguments MySql.Encoding where
  default := .empty
  add := MySql.MySqlArguments.add
  formatPlaceholder _ := "?"

instance : Arguments Sqlite.SqliteArguments Sqlite.SqliteEncoding where
  default := .empty
  add := Sqlite.SqliteArguments.add
  formatPlaceholder _ := "?"

/-! ## Calls, and the fragments they write -/

/-- A call on a `Separated`. -/
inductive SepCall (V : Type) where
  | push (sql : String)
  | pushUnseparated (sql : String)
  | pushBind (value : V)
  | pushBindUnseparated (value : V)

/-- A call on a builder: a `Separated` comes with the calls made on it, and
`push_values` and `push_tuples` with the calls their closure makes per row. -/
inductive BuilderCall (V : Type) where
  | push (sql : String)
  | pushBind (value : V)
  | separated (separator : String) (calls : List (SepCall V))
  | pushValues (rows : List (List (SepCall V)))
  | pushTuples (rows : List (List (SepCall V)))

section Run

variable {A V : Type} [Arguments A V]

def SepCall.run : SepCall V → Separated A → Option (Separated A)
  | .push sql => Separated.push sql
  | .pushUnseparated sql => Separated.pushUnseparated sql
  | .pushBind value => Separated.pushBind value
  | .pushBindUnseparated value => Separated.pushBindUnseparated value

/-- Calls on a `Separated`, in order. -/
def Separated.runAll : List (SepCall V) → Separated A → Option (Separated A)
  | [], separated => some separated
  | call :: calls, separated => (call.run separated).bind (Separated.runAll calls)

def BuilderCall.run : BuilderCall V → QueryBuilder A → Option (QueryBuilder A)
  | .push sql => QueryBuilder.push sql
  | .pushBind value => QueryBuilder.pushBind value
  | .separated separator calls => fun qb => do
    let separated ← qb.separated separator
    let separated ← Separated.runAll calls separated
    pure separated.queryBuilder
  | .pushValues rows => QueryBuilder.pushValues rows fun separated row => Separated.runAll row separated
  | .pushTuples rows => QueryBuilder.pushTuples rows fun separated row => Separated.runAll row separated

/-- Calls on a builder, in order. -/
def QueryBuilder.runAll : List (BuilderCall V) → QueryBuilder A → Option (QueryBuilder A)
  | [], qb => some qb
  | call :: calls, qb => (call.run qb).bind (QueryBuilder.runAll calls)

end Run

/-- A piece of what a builder writes: text, or a value bound at a placeholder. -/
inductive Fragment (V : Type) where
  | text (sql : String)
  | bind (value : V)

section Fragments

variable {V : Type}

/-- The calls the separator goes before. -/
def SepCall.isSeparated : SepCall V → Bool
  | .push _ | .pushBind _ => true
  | .pushUnseparated _ | .pushBindUnseparated _ => false

def SepCall.item : SepCall V → Fragment V
  | .push sql | .pushUnseparated sql => .text sql
  | .pushBind value | .pushBindUnseparated value => .bind value

/-- One item of a separated list, the separator before it if it is a
separated item and one came before. -/
def sepStep (separator : String) (started : Bool) (call : SepCall V) : List (Fragment V) :=
  (if started && call.isSeparated then [.text separator] else []) ++ [call.item]

/-- A separated list: the separator before each separated item but the first
one, and never before an unseparated item. -/
def sepFragments (separator : String) : Bool → List (SepCall V) → List (Fragment V)
  | _, [] => []
  | started, call :: calls => sepStep separator started call ++ sepFragments separator (started || call.isSeparated) calls

/-- One row of `push_values`: its fields, a list separated by `", "`, in parentheses. -/
def rowGroup (row : List (SepCall V)) : List (Fragment V) := .text "(" :: sepFragments ", " false row ++ [.text ")"]

/-- The rows of `push_values`, joined by `", "`. -/
def rowFragments (rows : List (List (SepCall V))) : List (Fragment V) :=
  [Fragment.text ", "].intercalate (rows.map rowGroup)

def BuilderCall.fragments : BuilderCall V → List (Fragment V)
  | .push sql => [.text sql]
  | .pushBind value => [.bind value]
  | .separated separator calls => sepFragments separator false calls
  | .pushValues rows => .text "VALUES " :: rowFragments rows
  | .pushTuples rows => .text " (" :: rowFragments rows ++ [.text ") "]

/-- The SQL of fragments after `count` binds: the `k`-th bind is written as
`placeholder k`. -/
def render (placeholder : Nat → String) : Nat → List (Fragment V) → String
  | _, [] => ""
  | count, .text sql :: fragments => sql ++ render placeholder count fragments
  | count, .bind _ :: fragments => placeholder (count + 1) ++ render placeholder (count + 1) fragments

/-- The values bound, in order. -/
def binds : List (Fragment V) → List V
  | [] => []
  | .text _ :: fragments => binds fragments
  | .bind value :: fragments => value :: binds fragments

end Fragments

section Apply

variable {A V : Type} [Arguments A V]

/-- Adding values in order; `none` at the first one that fails. -/
def addAll : List V → A → Option A
  | [], args => some args
  | value :: values, args =>
    match (Arguments.add value).run args with
    | .ok () args => addAll values args
    | .error _ _ => none

/-- A fragment written by the call that writes it. -/
def Fragment.apply : Fragment V → QueryBuilder A → Option (QueryBuilder A)
  | .text sql => QueryBuilder.push sql
  | .bind value => QueryBuilder.pushBind value

def applyAll : List (Fragment V) → QueryBuilder A → Option (QueryBuilder A)
  | [], qb => some qb
  | fragment :: fragments, qb => (fragment.apply qb).bind (applyAll fragments)

end Apply

example : render (fun k => "$" ++ toString k) 0
    (BuilderCall.fragments (.pushValues [[.pushBind 1, .pushBind 2], [.push "now()", .pushBind 3]]) : List (Fragment Nat)) =
      "VALUES ($1, $2), (now(), $3)" := by decide

/-! ## Every call is the run of its fragments -/

section Layout

variable {A V : Type} [Arguments A V]

theorem applyAll_append (fragments more : List (Fragment V)) (qb : QueryBuilder A) :
    applyAll (fragments ++ more) qb = (applyAll fragments qb).bind (applyAll more) := by
  induction fragments generalizing qb with
  | nil => rfl
  | cons fragment fragments ih =>
    simp only [List.cons_append, applyAll]
    cases fragment.apply qb with
    | none => rfl
    | some qb' => exact ih qb'

theorem applyAll_singleton (fragment : Fragment V) (qb : QueryBuilder A) :
    applyAll [fragment] qb = fragment.apply qb := by
  simp only [applyAll]
  cases fragment.apply qb <;> rfl

/-- Two pushes write what one push of both texts writes. -/
theorem push_bind_push (qb : QueryBuilder A) (sql sql' : String) :
    (qb.push sql).bind (QueryBuilder.push sql') = qb.push (sql ++ sql') := by
  obtain ⟨query, initLen, _ | args⟩ := qb
  · rfl
  · simp [QueryBuilder.push, QueryBuilder.sanityCheck, String.append_assoc]

/-- A builder a push left behind still has its arguments, so a `Separated`
can borrow it. -/
theorem push_bind_separated {β : Type} (qb : QueryBuilder A) (sql separator : String)
    (k : Separated A → Option β) :
    (qb.push sql).bind (fun qb' => (qb'.separated separator).bind k) =
      (qb.push sql).bind (fun qb' => k ⟨qb', separator, false⟩) := by
  obtain ⟨query, initLen, _ | args⟩ := qb <;> rfl

theorem QueryBuilder.separated_of_isSome {qb : QueryBuilder A} (h : qb.arguments.isSome) (separator : String) :
    qb.separated separator = some ⟨qb, separator, false⟩ := by
  obtain ⟨query, initLen, _ | args⟩ := qb
  · cases h
  · rfl

/-- A call that succeeds leaves arguments behind. -/
theorem Fragment.arguments_of_apply {fragment : Fragment V} {qb qb' : QueryBuilder A}
    (h : fragment.apply qb = some qb') : qb'.arguments.isSome := by
  obtain ⟨query, initLen, _ | args⟩ := qb
  · cases fragment <;> cases h
  · cases fragment with
    | text sql => cases h; rfl
    | bind value =>
      simp only [Fragment.apply, QueryBuilder.pushBind, QueryBuilder.sanityCheck, Option.pure_def,
        Option.bind_eq_bind, Option.bind_some] at h
      split at h
      · cases h; rfl
      · cases h

theorem arguments_of_applyAll {fragments : List (Fragment V)} {qb qb' : QueryBuilder A}
    (h : applyAll fragments qb = some qb') (hqb : qb.arguments.isSome) : qb'.arguments.isSome := by
  induction fragments generalizing qb with
  | nil => cases h; exact hqb
  | cons fragment fragments ih =>
    simp only [applyAll] at h
    obtain ⟨qb₁, h₁, h₂⟩ := Option.bind_eq_some_iff.mp h
    exact ih h₂ (Fragment.arguments_of_apply h₁)

theorem applyAll_pair (fragment fragment' : Fragment V) (qb : QueryBuilder A) :
    applyAll [fragment, fragment'] qb = (fragment.apply qb).bind fragment'.apply := by
  simp [applyAll]

/-- One call on a `Separated` is its item, after the separator when one is due. -/
theorem SepCall.run_eq (call : SepCall V) (qb : QueryBuilder A) (separator : String) (started : Bool) :
    call.run ⟨qb, separator, started⟩ =
      (applyAll (sepStep separator started call) qb).map fun qb' =>
        ⟨qb', separator, started || call.isSeparated⟩ := by
  -- the separator is due only for a separated item after the first
  cases call <;> cases started <;>
    simp only [SepCall.run, sepStep, SepCall.isSeparated, SepCall.item, Bool.and_true, Bool.and_false,
      Bool.or_true, Bool.or_false, Bool.false_eq_true, if_true, if_false, List.nil_append, List.cons_append,
      applyAll_pair, applyAll_singleton, Fragment.apply, Separated.push, Separated.pushUnseparated,
      Separated.pushBind, Separated.pushBindUnseparated, push_bind_push, Option.map_eq_bind, Option.bind_eq_bind,
      Option.pure_def, Option.bind_some, Option.bind_assoc, Function.comp_def]

/-- **Calls on a `Separated` write their separated list**, from any state of
its flag; the flag ends set once a separated item came. -/
theorem Separated.runAll_eq (calls : List (SepCall V)) (qb : QueryBuilder A) (separator : String)
    (started : Bool) :
    Separated.runAll calls ⟨qb, separator, started⟩ =
      (applyAll (sepFragments separator started calls) qb).map fun qb' =>
        ⟨qb', separator, started || calls.any SepCall.isSeparated⟩ := by
  induction calls generalizing qb started with
  | nil => simp [Separated.runAll, sepFragments, applyAll]
  | cons call calls ih =>
    rw [Separated.runAll, SepCall.run_eq, sepFragments, applyAll_append]
    cases applyAll (sepStep separator started call) qb with
    | none => rfl
    | some qb' => simp only [Option.map_some, Option.bind_some, ih, List.any_cons, Bool.or_assoc]

/-- The rows as the loop of `push_values` writes them: `", "` before a row
when one came before. -/
def rowsFrom (started : Bool) : List (List (SepCall V)) → List (Fragment V)
  | [] => []
  | row :: rows => (if started then [.text ", "] else []) ++ rowGroup row ++ rowsFrom true rows

/-- From the first row on, the loop joins the rows by `", "`. -/
theorem intercalate_rowGroup (group : List (Fragment V)) (rows : List (List (SepCall V))) :
    [Fragment.text ", "].intercalate (group :: rows.map rowGroup) = group ++ rowsFrom true rows := by
  induction rows generalizing group with
  | nil => simp [rowsFrom]
  | cons row rows ih =>
    rw [List.map_cons, List.intercalate_cons_cons, ih, rowsFrom, if_pos rfl]
    simp

theorem rowsFrom_false (rows : List (List (SepCall V))) : rowsFrom false rows = rowFragments rows := by
  cases rows with
  | nil => rfl
  | cons row rows =>
    rw [rowFragments, List.map_cons, intercalate_rowGroup, rowsFrom, if_neg Bool.false_ne_true, List.nil_append]

/-- **The loop of `push_values` writes its rows**: per row the outer
separator when due, `(`, the row's own separated list, `)`. -/
theorem pushRows_eq (rows : List (List (SepCall V))) (qb : QueryBuilder A) (started : Bool) :
    QueryBuilder.pushRows (fun separated row => Separated.runAll row separated) rows ⟨qb, ", ", started⟩ =
      (applyAll (rowsFrom started rows) qb).map fun qb' => ⟨qb', ", ", started || !rows.isEmpty⟩ := by
  induction rows generalizing qb started with
  | nil => simp [QueryBuilder.pushRows, rowsFrom, applyAll]
  | cons row rows ih =>
    -- `(` through the outer list: one push, after the separator when due
    have hopen : Separated.push "(" ⟨qb, ", ", started⟩ =
        (applyAll ((if started then [.text ", "] else []) ++ [.text "("]) qb).map fun qb' => ⟨qb', ", ", true⟩ := by
      have h := SepCall.run_eq (.push "(") qb ", " started
      simpa [SepCall.run, sepStep, SepCall.isSeparated, SepCall.item] using h
    have hsplit : rowsFrom started (row :: rows) =
        ((if started then [.text ", "] else []) ++ [.text "("]) ++
          (sepFragments ", " false row ++ (.text ")" :: rowsFrom true rows)) := by
      simp [rowsFrom, rowGroup]
    generalize hpre : ((if started then [.text ", "] else []) ++ [.text "("] : List (Fragment V)) = pre at hopen hsplit
    simp only [QueryBuilder.pushRows, Option.bind_eq_bind, hopen, Option.bind_map, hsplit, applyAll_append]
    cases hqb₁ : applyAll pre qb with
    | none => rfl
    | some qb₁ =>
      -- the builder after `(` has its arguments, so the row's `Separated` borrows it
      have hlive : qb₁.arguments.isSome := by
        rw [← hpre, applyAll_append] at hqb₁
        obtain ⟨qb₀, -, h₁⟩ := Option.bind_eq_some_iff.mp hqb₁
        exact Fragment.arguments_of_apply (by rwa [applyAll_singleton] at h₁)
      simp only [Option.bind_some, Function.comp_apply, QueryBuilder.separated_of_isSome hlive, Separated.runAll_eq,
        Option.bind_map]
      cases applyAll (sepFragments ", " false row) qb₁ with
      | none => rfl
      | some qb₂ =>
        simp only [Option.bind_some, Function.comp_apply, Separated.pushUnseparated, applyAll, Fragment.apply,
          Option.bind_map]
        cases qb₂.push ")" with
        | none => rfl
        | some qb₃ => simp [ih]

/-- **Every call writes its fragments**, on a builder that has its arguments. -/
theorem BuilderCall.run_eq (call : BuilderCall V) {qb : QueryBuilder A} (h : qb.arguments.isSome) :
    call.run qb = applyAll call.fragments qb := by
  obtain ⟨query, initLen, _ | args⟩ := qb
  · cases h
  cases call with
  | push sql => rw [BuilderCall.run, BuilderCall.fragments, applyAll_singleton]; rfl
  | pushBind value => rw [BuilderCall.run, BuilderCall.fragments, applyAll_singleton]; rfl
  | separated separator calls =>
    simp only [BuilderCall.run, BuilderCall.fragments, Option.bind_eq_bind, QueryBuilder.separated_of_isSome h,
      Option.bind_some, Separated.runAll_eq, Option.bind_map]
    cases applyAll (sepFragments separator false calls) ⟨query, initLen, some args⟩ <;> rfl
  | pushValues rows =>
    -- `VALUES `, then the rows through a `Separated` by `", "`
    simp only [BuilderCall.run, QueryBuilder.pushValues, BuilderCall.fragments, applyAll, Fragment.apply, QueryBuilder.push,
      QueryBuilder.sanityCheck, Option.bind_eq_bind, Option.pure_def, Option.bind_some, QueryBuilder.separated,
      pushRows_eq, rowsFrom_false, Option.bind_map]
    cases applyAll (rowFragments rows) ⟨query ++ "VALUES ", initLen, some args⟩ <;> rfl
  | pushTuples rows =>
    -- ` (`, the rows, then `) ` unseparated
    simp only [BuilderCall.run, QueryBuilder.pushTuples, BuilderCall.fragments, List.cons_append, applyAll, Fragment.apply,
      QueryBuilder.push, QueryBuilder.sanityCheck, Option.bind_eq_bind, Option.pure_def, Option.bind_some,
      QueryBuilder.separated, pushRows_eq, rowsFrom_false, Option.bind_map, applyAll_append]
    cases applyAll (rowFragments rows) ⟨query ++ " (", initLen, some args⟩ with
    | none => rfl
    | some qb =>
      obtain ⟨query', initLen', _ | args'⟩ := qb <;> rfl

/-- **A run of calls writes the fragments of each call, in order.** -/
theorem QueryBuilder.runAll_eq (calls : List (BuilderCall V)) {qb : QueryBuilder A} (h : qb.arguments.isSome) :
    qb.runAll calls = applyAll (calls.flatMap BuilderCall.fragments) qb := by
  induction calls generalizing qb with
  | nil => rfl
  | cons call calls ih =>
    rw [QueryBuilder.runAll, BuilderCall.run_eq call h, List.flatMap_cons, applyAll_append]
    cases hcall : applyAll call.fragments qb with
    | none => rfl
    | some qb' => exact ih (arguments_of_applyAll hcall h)

/-- A fragment only appends to the query, and leaves `init_len` as it was. -/
theorem Fragment.query_of_apply {fragment : Fragment V} {qb qb' : QueryBuilder A}
    (h : fragment.apply qb = some qb') : (∃ rest, qb'.query = qb.query ++ rest) ∧ qb'.initLen = qb.initLen := by
  obtain ⟨query, initLen, _ | args⟩ := qb
  · cases fragment <;> cases h
  · cases fragment with
    | text sql =>
      cases h
      exact ⟨⟨sql, rfl⟩, rfl⟩
    | bind value =>
      simp only [Fragment.apply, QueryBuilder.pushBind, QueryBuilder.sanityCheck, Option.pure_def,
        Option.bind_eq_bind, Option.bind_some] at h
      split at h
      · cases h
        exact ⟨⟨_, rfl⟩, rfl⟩
      · cases h

theorem query_of_applyAll {fragments : List (Fragment V)} {qb qb' : QueryBuilder A}
    (h : applyAll fragments qb = some qb') : (∃ rest, qb'.query = qb.query ++ rest) ∧ qb'.initLen = qb.initLen := by
  induction fragments generalizing qb with
  | nil =>
    cases h
    exact ⟨⟨"", String.append_empty.symm⟩, rfl⟩
  | cons fragment fragments ih =>
    simp only [applyAll] at h
    obtain ⟨qb₁, h₁, h₂⟩ := Option.bind_eq_some_iff.mp h
    obtain ⟨⟨rest₁, hq₁⟩, hl₁⟩ := Fragment.query_of_apply h₁
    obtain ⟨⟨rest₂, hq₂⟩, hl₂⟩ := ih h₂
    exact ⟨⟨rest₁ ++ rest₂, by rw [hq₂, hq₁, String.append_assoc]⟩, hl₂.trans hl₁⟩

/-- **`reset` goes back to `new(init)`** from every builder a run of calls
leaves: the query still starts with `init`, and `init_len` is its length. -/
theorem QueryBuilder.reset_of_runAll {init : String} {calls : List (BuilderCall V)} {qb : QueryBuilder A}
    (h : (new init : QueryBuilder A).runAll calls = some qb) : qb.reset = new init := by
  rw [QueryBuilder.runAll_eq calls rfl] at h
  obtain ⟨⟨rest, hquery⟩, hlen⟩ := query_of_applyAll h
  have htake : String.ofList (qb.query.toList.take qb.initLen) = init := by
    rw [hquery, hlen, String.toList_append]
    change String.ofList (List.take init.length (init.toList ++ rest.toList)) = init
    rw [← String.length_toList, List.take_left' rfl, String.ofList_toList]
  rw [QueryBuilder.reset, htake, hlen]
  rfl

end Layout

/-! ## Placeholders number the binds -/

section Numbering

variable {A V : Type} [Arguments A V]

theorem addAll_append (values more : List V) (args : A) :
    addAll (values ++ more) args = (addAll values args).bind (addAll more) := by
  induction values generalizing args with
  | nil => rfl
  | cons value values ih =>
    simp only [List.cons_append, addAll]
    rcases (Arguments.add value).run args with ⟨⟨⟩, args'⟩ | ⟨error, args'⟩
    · exact ih args'
    · rfl

variable {placeholder : Nat → String}

/-- **A run of fragments writes the `k`-th bind as the `k`-th placeholder and
binds the values in order**, for arguments whose placeholder after `k` values
is `placeholder k`. The induction is on the fragments, carrying the values
bound before them. -/
theorem applyAll_render
    (hplace : ∀ (values : List V) (args : A), addAll values Arguments.default = some args →
      Arguments.formatPlaceholder args = placeholder values.length)
    (fragments : List (Fragment V)) {bound : List V} {args : A}
    (hbound : addAll bound Arguments.default = some args) (query : String) (initLen : Nat) :
    applyAll fragments ⟨query, initLen, some args⟩ =
      (addAll (bound ++ binds fragments) Arguments.default).map fun args' =>
        ⟨query ++ render placeholder bound.length fragments, initLen, some args'⟩ := by
  induction fragments generalizing bound args query with
  | nil => simp [applyAll, binds, render, hbound]
  | cons fragment fragments ih =>
    cases fragment with
    | text sql =>
      -- the text goes to the query as it is
      show applyAll fragments ⟨query ++ sql, initLen, some args⟩ = _
      rw [ih hbound, binds, render, String.append_assoc]
    | bind value =>
      rcases hadd : (Arguments.add value).run args with ⟨⟨⟩, args'⟩ | ⟨error, args'⟩
      · -- the value is added, then the placeholder of the arguments that hold it written
        have hbound' : addAll (bound ++ [value]) Arguments.default = some args' := by
          rw [addAll_append, hbound, Option.bind_some, addAll, hadd]
          rfl
        have hpush : (Fragment.bind value).apply ⟨query, initLen, some args⟩ =
            some ⟨query ++ placeholder (bound.length + 1), initLen, some args'⟩ := by
          simp [Fragment.apply, QueryBuilder.pushBind, QueryBuilder.sanityCheck, hadd, hplace _ _ hbound']
        rw [applyAll, hpush, Option.bind_some, ih hbound', binds, render, List.length_append,
          List.length_singleton, List.append_assoc, List.singleton_append, String.append_assoc]
      · -- `expect` panics, and adding the values in order fails at the same value
        have hpush : (Fragment.bind value).apply ⟨query, initLen, some args⟩ = none := by
          simp [Fragment.apply, QueryBuilder.pushBind, QueryBuilder.sanityCheck, hadd]
        rw [applyAll, hpush, binds, addAll_append, hbound]
        simp [addAll, hadd]

/-- **What a run of calls from `new(init)` builds**: `init` and the calls'
fragments, the `k`-th bind as the `k`-th placeholder, with the bound values
added in order; a panic exactly where an `add` fails. -/
theorem QueryBuilder.build_runAll_new
    (hplace : ∀ (values : List V) (args : A), addAll values Arguments.default = some args →
      Arguments.formatPlaceholder args = placeholder values.length)
    (init : String) (calls : List (BuilderCall V)) :
    ((new init : QueryBuilder A).runAll calls).bind build =
      (addAll (binds (calls.flatMap BuilderCall.fragments)) Arguments.default).map fun args =>
        ((init ++ render placeholder 0 (calls.flatMap BuilderCall.fragments), args),
          ⟨init ++ render placeholder 0 (calls.flatMap BuilderCall.fragments), init.length, none⟩) := by
  rw [QueryBuilder.runAll_eq calls rfl, new,
    applyAll_render hplace _ (show addAll ([] : List V) (Arguments.default : A) = some Arguments.default from rfl),
    List.nil_append, List.length_nil]
  cases addAll (binds (calls.flatMap BuilderCall.fragments)) (Arguments.default : A) <;> rfl

end Numbering


/-! ## The drivers' placeholders -/

/-- Postgres counts the values it adds. -/
theorem Postgres.count_of_addAll :
    ∀ (values : List Postgres.Value) (args args' : Postgres.PgArguments),
      addAll values args = some args' → args'.buffer.count = args.buffer.count + values.length
  | [], args, args', h => by
    cases h
    rfl
  | value :: values, args, args', h => by
    simp only [addAll] at h
    cases hframe : value.frame with
    | ok frame =>
      -- a value with a frame is counted
      have hadd : (Arguments.add value : EStateM String Postgres.PgArguments Unit).run args =
          .ok () ⟨args.types ++ [value.produces.getD value.typeInfo], args.buffer.push frame⟩ :=
        Postgres.PgArguments.add_of_frame_ok hframe args
      rw [hadd] at h
      rw [count_of_addAll values _ _ h, List.length_cons]
      show args.buffer.count + 1 + values.length = _
      omega
    | error e =>
      have hadd : (Arguments.add value : EStateM String Postgres.PgArguments Unit).run args = .error e args :=
        Postgres.PgArguments.add_of_frame_error hframe args
      rw [hadd] at h
      cases h

/-- Postgres writes `$k` after the `k`-th value. -/
theorem Postgres.formatPlaceholder_of_addAll {values : List Postgres.Value}
    {args : Postgres.PgArguments} (h : addAll values (Arguments.default : Postgres.PgArguments) = some args) :
    Arguments.formatPlaceholder args = "$" ++ toString values.length := by
  have hcount := Postgres.count_of_addAll values _ _ h
  show "$" ++ toString args.buffer.count = _
  rw [hcount]
  show "$" ++ toString (0 + values.length) = _
  rw [Nat.zero_add]

theorem query_builder_alignment :
    (∀ (init : String) (calls : List (BuilderCall Postgres.Value)),
      ((QueryBuilder.new init : QueryBuilder Postgres.PgArguments).runAll calls).bind QueryBuilder.build =
        (addAll (binds (calls.flatMap BuilderCall.fragments)) Postgres.PgArguments.empty).map fun args =>
          ((init ++ render (fun k => "$" ++ toString k) 0 (calls.flatMap BuilderCall.fragments), args),
            ⟨init ++ render (fun k => "$" ++ toString k) 0 (calls.flatMap BuilderCall.fragments), init.length, none⟩)) ∧
    (∀ (init : String) (calls : List (BuilderCall MySql.Encoding)),
      ((QueryBuilder.new init : QueryBuilder MySql.MySqlArguments).runAll calls).bind QueryBuilder.build =
        (addAll (binds (calls.flatMap BuilderCall.fragments)) MySql.MySqlArguments.empty).map fun args =>
          ((init ++ render (fun _ => "?") 0 (calls.flatMap BuilderCall.fragments), args),
            ⟨init ++ render (fun _ => "?") 0 (calls.flatMap BuilderCall.fragments), init.length, none⟩)) ∧
    (∀ (init : String) (calls : List (BuilderCall Sqlite.SqliteEncoding)),
      ((QueryBuilder.new init : QueryBuilder Sqlite.SqliteArguments).runAll calls).bind QueryBuilder.build =
        (addAll (binds (calls.flatMap BuilderCall.fragments)) Sqlite.SqliteArguments.empty).map fun args =>
          ((init ++ render (fun _ => "?") 0 (calls.flatMap BuilderCall.fragments), args),
            ⟨init ++ render (fun _ => "?") 0 (calls.flatMap BuilderCall.fragments), init.length, none⟩)) ∧
    (∀ (A V : Type) [Arguments A V] (init : String) (calls : List (BuilderCall V)) (qb : QueryBuilder A),
      (QueryBuilder.new init : QueryBuilder A).runAll calls = some qb → qb.reset = QueryBuilder.new init) :=
  ⟨fun init calls => QueryBuilder.build_runAll_new
      (fun _ _ h => Postgres.formatPlaceholder_of_addAll h) init calls,
    fun init calls => QueryBuilder.build_runAll_new (fun _ _ _ => rfl) init calls,
    fun init calls => QueryBuilder.build_runAll_new (fun _ _ _ => rfl) init calls,
    fun _ _ _ _ _ _ h => QueryBuilder.reset_of_runAll h⟩

theorem query_builder_reset_after_select :
    (QueryBuilder.new "SELECT " : QueryBuilder MySql.MySqlArguments).runAll [.push "1"] =
        some ⟨"SELECT 1", 7, some MySql.MySqlArguments.empty⟩ ∧
      (⟨"SELECT 1", 7, some MySql.MySqlArguments.empty⟩ : QueryBuilder MySql.MySqlArguments).reset =
        QueryBuilder.new "SELECT " :=
  have hrun : (QueryBuilder.new "SELECT " : QueryBuilder MySql.MySqlArguments).runAll [.push "1"] =
      some ⟨"SELECT 1", 7, some MySql.MySqlArguments.empty⟩ := rfl
  ⟨hrun, query_builder_alignment.2.2.2 MySql.MySqlArguments MySql.Encoding "SELECT " [BuilderCall.push "1"] _ hrun⟩

end Sqlx
