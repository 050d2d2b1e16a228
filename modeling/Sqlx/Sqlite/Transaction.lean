import Sqlx.Core.Transaction

/-!
# SQLite — the worker's transaction commands

`connection/worker.rs` and `transaction.rs` of `sqlx-sqlite`. The worker
thread runs `Begin`, `Commit` and `Rollback` one at a time: the depth goes up
or down in the callback of a statement that succeeded, a `BEGIN` that nobody
acknowledges is rolled back at once, and a `COMMIT` or `ROLLBACK` that nobody
acknowledges makes the worker skip the next `start_rollback`. The manager's
`begin` checks `in_transaction()` for a custom statement only after the
worker has counted the level.

So the worker keeps the depth in agreement with the database whatever fails
and whoever abandons a call, as long as every custom statement opens a
transaction (`agree_run`); one that does not, such as `SELECT 1`, leaves
depth 1 on an idle database.
-/

namespace Sqlx.Sqlite

open Sqlx

/-- The worker's state: `shared.transaction_depth` with the database,
`ignore_next_start_rollback`, and whether the worker thread still runs. -/
structure SqliteWorker where
  conn : Conn
  ignoreNextStartRollback : Bool
  running : Bool
  deriving DecidableEq, Repr

/-- A fresh connection's worker. -/
def SqliteWorker.init : SqliteWorker := ⟨Conn.init, false, true⟩

/-- The statement of `Command::Begin` run by `conn.handle.exec`: on success
`fetch_add(1)`, then the result goes back; when nobody takes it the level is
rolled back at once (`fetch_sub(1)` on success), and when that rollback
fails the worker shuts down. -/
def SqliteWorker.execBegin (statement : Stmt) (o : Outcome) (w : SqliteWorker) :
    SqliteWorker × TxResult :=
  match w.conn.server.send o.statementOk statement with
  | none => (w, if o.abandoned then none else some (.error .statement))
  | some server =>
    if o.abandoned then
      match server.send o.cleanupOk (rollbackAnsiTransactionSql (w.conn.depth + 1)) with
      | some server' => ({ w with conn := ⟨w.conn.depth, server'⟩ }, none)
      | none => ({ w with conn := ⟨w.conn.depth + 1, server⟩, running := false }, none)
    else ({ w with conn := ⟨w.conn.depth + 1, server⟩ }, some (.ok ()))

/-- `Command::Begin`: a custom statement only at depth 0; the worker stops
when nobody takes the `InvalidSavePointStatement` error. -/
def SqliteWorker.begin (statement : Option Stmt) (o : Outcome) (w : SqliteWorker) :
    SqliteWorker × TxResult :=
  match statement with
  | some statement =>
    if 0 < w.conn.depth then
      if o.abandoned then ({ w with running := false }, none)
      else (w, some (.error .invalidSavePointStatement))
    else SqliteWorker.execBegin statement o w
  | none => SqliteWorker.execBegin (beginAnsiTransactionSql w.conn.depth) o w

/-- `Command::Commit` and `Command::Rollback { tx: Some(..) }`: at depth
`d > 0` the statement runs, and on success the depth goes down; a success
nobody acknowledges sets `ignore_next_start_rollback`. -/
def SqliteWorker.closeLevel (sql : Nat → Stmt) (o : Outcome) (w : SqliteWorker) :
    SqliteWorker × TxResult :=
  let res : Option Conn :=
    if 0 < w.conn.depth then
      (w.conn.server.send o.statementOk (sql w.conn.depth)).map (⟨w.conn.depth - 1, ·⟩)
    else some w.conn
  match res with
  | none => (w, if o.abandoned then none else some (.error .statement))
  | some conn =>
    if o.abandoned then ({ w with conn, ignoreNextStartRollback := true }, none)
    else ({ w with conn }, some (.ok ()))

/-- `Command::Commit`. -/
def SqliteWorker.commit : Outcome → SqliteWorker → SqliteWorker × TxResult :=
  SqliteWorker.closeLevel commitAnsiTransactionSql

/-- `Command::Rollback { tx: Some(..) }`. -/
def SqliteWorker.rollback : Outcome → SqliteWorker → SqliteWorker × TxResult :=
  SqliteWorker.closeLevel rollbackAnsiTransactionSql

/-- `Command::Rollback { tx: None }`, sent by `start_rollback`: skipped once
after an unacknowledged `COMMIT` or `ROLLBACK`; the depth goes down only when
the rollback succeeds. -/
def SqliteWorker.startRollback (ok : Bool) (w : SqliteWorker) : SqliteWorker :=
  if w.ignoreNextStartRollback then { w with ignoreNextStartRollback := false }
  else if 0 < w.conn.depth then
    match w.conn.server.send ok (rollbackAnsiTransactionSql w.conn.depth) with
    | some server => { w with conn := ⟨w.conn.depth - 1, server⟩ }
    | none => w
  else w

/-- `SqliteTransactionManager::begin`: the worker's `Begin`, then for a custom
statement the check that it opened a transaction, with the level already
counted. -/
def SqliteTransactionManager.begin (statement : Option Stmt) (o : Outcome) (w : SqliteWorker) :
    SqliteWorker × TxResult :=
  if w.running then
    match SqliteWorker.begin statement o w with
    | (w', some (.ok ())) =>
      if statement.isSome && !w'.conn.server.inTransaction then (w', some (.error .beginFailed))
      else (w', some (.ok ()))
    | r => r
  else (w, if o.abandoned then none else some (.error .workerCrashed))

/-- A command for a worker that may have stopped: `Error::WorkerCrashed`. -/
def SqliteTransactionManager.onWorker (cmd : Outcome → SqliteWorker → SqliteWorker × TxResult)
    (o : Outcome) (w : SqliteWorker) : SqliteWorker × TxResult :=
  if w.running then cmd o w else (w, if o.abandoned then none else some (.error .workerCrashed))

/-- `SqliteTransactionManager::commit`. -/
def SqliteTransactionManager.commit : Outcome → SqliteWorker → SqliteWorker × TxResult :=
  SqliteTransactionManager.onWorker SqliteWorker.commit

/-- `SqliteTransactionManager::rollback`. -/
def SqliteTransactionManager.rollback : Outcome → SqliteWorker → SqliteWorker × TxResult :=
  SqliteTransactionManager.onWorker SqliteWorker.rollback

/-- `SqliteTransactionManager::start_rollback`: the send error of a stopped
worker is dropped. -/
def SqliteTransactionManager.startRollback (ok : Bool) (w : SqliteWorker) : SqliteWorker :=
  if w.running then SqliteWorker.startRollback ok w else w

/-- One call on the manager. -/
def SqliteTransactionManager.step : Call × Outcome → SqliteWorker → SqliteWorker × TxResult
  | (.begin statement, o), w => SqliteTransactionManager.begin statement o w
  | (.commit, o), w => SqliteTransactionManager.commit o w
  | (.rollback, o), w => SqliteTransactionManager.rollback o w
  | (.startRollback, o), w => (SqliteTransactionManager.startRollback o.statementOk w, some (.ok ()))

/-- Every custom `BEGIN` of the call opens a transaction. -/
def OpensTransaction : Call × Outcome → Prop
  | (.begin (some statement), _) => statement = .begin
  | _ => True

namespace SqliteWorker

variable {o : Outcome} {w : SqliteWorker}

/-- A `BEGIN` or `SAVEPOINT` keeps agreement whatever happens: an
unacknowledged one is rolled back, and when that rollback fails the level
stays counted. -/
theorem agree_execBegin_ansi (h : w.conn.Agree) :
    (execBegin (beginAnsiTransactionSql w.conn.depth) o w).1.conn.Agree := by
  unfold execBegin
  split
  · exact h
  · rename_i server hs
    have hopen := agree_exec_beginAnsi h (Server.exec_of_send hs)
    split
    · split
      · rename_i server' hs'
        have := agree_exec_rollbackAnsi hopen (by omega) (Server.exec_of_send hs')
        show Sqlx.Agree w.conn.depth server'
        simpa using this
      · exact hopen
    · exact hopen

theorem agree_begin {statement : Option Stmt} (hst : ∀ s, statement = some s → s = .begin)
    (h : w.conn.Agree) : (SqliteWorker.begin statement o w).1.conn.Agree := by
  cases statement with
  | none => exact agree_execBegin_ansi h
  | some statement =>
    rw [hst statement rfl]
    simp only [SqliteWorker.begin]
    split
    · split <;> exact h
    · -- at depth 0 the custom `BEGIN` is the ANSI one
      have hbegin : beginAnsiTransactionSql w.conn.depth = .begin := by
        simp [beginAnsiTransactionSql, show w.conn.depth = 0 by omega]
      rw [← hbegin]
      exact agree_execBegin_ansi h

/-- A commit or rollback keeps agreement whatever happens: the depth follows
the statement's own result. -/
theorem agree_closeLevel {sql : Nat → Stmt}
    (hsql : ∀ {d : Nat} {s s' : Server}, Sqlx.Agree d s → 0 < d → s.exec (sql d) = some s' →
      Sqlx.Agree (d - 1) s')
    (h : w.conn.Agree) : (closeLevel sql o w).1.conn.Agree := by
  unfold closeLevel
  dsimp only
  split
  · exact h
  · rename_i conn hres
    -- the new depth and database come from the statement's success
    have hconn : conn.Agree := by
      split at hres
      · rename_i hd
        obtain ⟨server, hs, rfl⟩ := Option.map_eq_some_iff.mp hres
        exact hsql h hd (Server.exec_of_send hs)
      · cases hres
        exact h
    split <;> exact hconn

theorem agree_startRollback (ok : Bool) (h : w.conn.Agree) : (startRollback ok w).conn.Agree := by
  unfold startRollback
  split
  · exact h
  · split
    · rename_i hd
      split
      · rename_i server hs
        exact agree_exec_rollbackAnsi h hd (Server.exec_of_send hs)
      · exact h
    · exact h

end SqliteWorker

namespace SqliteTransactionManager

variable {o : Outcome} {w : SqliteWorker}

/-- **Step lemma.** Every call whose custom `BEGIN` opens a transaction keeps
agreement, whatever fails and whoever abandons it. -/
theorem agree_step {co : Call × Outcome} (hop : OpensTransaction co) (h : w.conn.Agree) :
    (step co w).1.conn.Agree := by
  obtain ⟨call, o⟩ := co
  cases call with
  | begin statement =>
    have hst : ∀ s, statement = some s → s = .begin := by
      rintro s rfl
      exact hop
    simp only [step, begin]
    split
    · have hw := SqliteWorker.agree_begin (o := o) hst h
      split
      · rename_i w' heq
        rw [heq] at hw
        split <;> exact hw
      · rename_i r _
        exact hw
    · exact h
  | commit =>
    simp only [step, commit, onWorker]
    split
    · exact SqliteWorker.agree_closeLevel agree_exec_commitAnsi h
    · exact h
  | rollback =>
    simp only [step, rollback, onWorker]
    split
    · exact SqliteWorker.agree_closeLevel agree_exec_rollbackAnsi h
    · exact h
  | startRollback =>
    simp only [step, startRollback]
    split
    · exact SqliteWorker.agree_startRollback _ h
    · exact h

/-- **Run lemma.** From an agreeing worker, every run whose custom `BEGIN`s
open a transaction keeps the depth in agreement with the database. -/
theorem agree_run (calls : List (Call × Outcome)) (hop : ∀ co ∈ calls, OpensTransaction co)
    (h : w.conn.Agree) : (Run.run step w calls).conn.Agree :=
  Run.run_invariant OpensTransaction (fun w : SqliteWorker => w.conn.Agree)
    (fun _ _ hco hw => agree_step hco hw) calls w hop h

/-- `begin(Some("SELECT 1"))` on a fresh connection returns `BeginFailed` and
leaves depth 1 on a database with no transaction open. -/
theorem begin_select_one_leaves_depth_one :
    begin (some .other) ⟨true, false, true⟩ SqliteWorker.init =
        (⟨⟨1, .idle⟩, false, true⟩, some (.error .beginFailed)) ∧
      ¬ (⟨1, .idle⟩ : Conn).Agree := by
  constructor
  · rfl
  · simp [Conn.Agree, Agree]

end SqliteTransactionManager

end Sqlx.Sqlite
