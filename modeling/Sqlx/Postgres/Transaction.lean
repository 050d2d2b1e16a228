import Sqlx.Core.Transaction

/-!
# Postgres — `PgTransactionManager`

`transaction.rs` of `sqlx-postgres`. `begin` is MySQL's with a drop guard:
`Rollback` calls `start_rollback` on every early return and when the caller
drops the call, until it is defused after the increment. `commit` and
`rollback` are the shared shape `Conn.closeLevel`, `start_rollback` is
`Conn.startRollback`.

In every run whose calls run to their end and whose rollbacks succeed, the
depth agrees with the server (`agree_run`). The guard reads the depth from
before the increment, so it rolls back the enclosing level, not the one
being opened, and at depth 0 it does nothing: a `begin` abandoned once its
`BEGIN` is sent leaves the server in a transaction at depth 0
(`begin_abandoned`).
-/

namespace Sqlx.Postgres

open Sqlx

/-- `PgTransactionManager::start_rollback`: the rollback is queued with
`queue_simple_query`. -/
def PgTransactionManager.startRollback (ok : Bool) (c : Conn) : Conn := c.startRollback ok

/-- From `let rollback = Rollback::new(conn)` on. Every way out before
`defuse` drops the guard, whose `start_rollback` sees the depth `begin` read;
its rollback runs after the statement. -/
def PgTransactionManager.beginWith (statement : Stmt) (o : Outcome) (c : Conn) :
    Conn × TxResult :=
  match c.server.send o.statementOk statement with
  | none =>
    (PgTransactionManager.startRollback o.cleanupOk c,
      if o.abandoned then none else some (.error .statement))
  | some server =>
    if o.abandoned then (PgTransactionManager.startRollback o.cleanupOk { c with server }, none)
    else if server.inTransaction then (⟨c.depth + 1, server⟩, some (.ok ()))
    else (PgTransactionManager.startRollback o.cleanupOk { c with server }, some (.error .beginFailed))

/-- `PgTransactionManager::begin`: a custom statement only at depth 0. -/
def PgTransactionManager.begin (statement : Option Stmt) (o : Outcome) (c : Conn) :
    Conn × TxResult :=
  match statement with
  | some statement =>
    if 0 < c.depth then (c, some (.error .invalidSavePointStatement))
    else PgTransactionManager.beginWith statement o c
  | none => PgTransactionManager.beginWith (beginAnsiTransactionSql c.depth) o c

/-- `PgTransactionManager::commit`. -/
def PgTransactionManager.commit : Outcome → Conn → Conn × TxResult :=
  Conn.closeLevel commitAnsiTransactionSql

/-- `PgTransactionManager::rollback`. -/
def PgTransactionManager.rollback : Outcome → Conn → Conn × TxResult :=
  Conn.closeLevel rollbackAnsiTransactionSql

/-- One call on the manager. -/
def PgTransactionManager.step : Call × Outcome → Conn → Conn × TxResult
  | (.begin statement, o), c => PgTransactionManager.begin statement o c
  | (.commit, o), c => PgTransactionManager.commit o c
  | (.rollback, o), c => PgTransactionManager.rollback o c
  | (.startRollback, o), c => (PgTransactionManager.startRollback o.statementOk c, some (.ok ()))

namespace PgTransactionManager

variable {o : Outcome} {c : Conn}

/-- At depth 0 the guard's `start_rollback` does nothing. -/
@[simp] theorem startRollback_depth_zero (ok : Bool) {c : Conn} (hd : c.depth = 0) :
    startRollback ok c = c := by
  simp [startRollback, Conn.startRollback, hd]

/-- A `BEGIN` or `SAVEPOINT` that runs to its end keeps agreement: when it
fails, the guard's rollback of the enclosing level does. -/
theorem agree_beginWith_ansi (ho : o.abandoned = false) (hc : o.cleanupOk = true) (h : c.Agree) :
    (beginWith (beginAnsiTransactionSql c.depth) o c).1.Agree := by
  unfold beginWith
  split
  · rw [hc]
    exact Conn.agree_startRollback h
  · rename_i server hs
    have hexec := Server.exec_of_send hs
    simp only [ho, Bool.false_eq_true, if_false, Server.inTransaction_of_exec_beginAnsi hexec,
      if_true]
    exact agree_exec_beginAnsi h hexec

/-- A custom statement at depth 0 that runs to its end keeps agreement; the
guard does nothing there. -/
theorem agree_beginWith_custom (ho : o.abandoned = false) (h : c.Agree) (hd : c.depth = 0)
    (statement : Stmt) : (beginWith statement o c).1.Agree := by
  have hidle : c.server = .idle := agree_zero.mp (hd ▸ h)
  unfold beginWith
  split
  · rw [startRollback_depth_zero _ hd]
    exact h
  · rename_i server hs
    rw [hidle] at hs
    simp only [ho, Bool.false_eq_true, if_false]
    rcases Server.exec_idle (Server.exec_of_send hs) with rfl | rfl
    · simp only [Server.inTransaction, Bool.false_eq_true, if_false]
      rw [startRollback_depth_zero _ (show ({ c with server := .idle } : Conn).depth = 0 from hd)]
      exact hd
    · simp only [Server.inTransaction, if_true]
      show Sqlx.Agree (c.depth + 1) (.active [])
      exact ⟨by omega, by rw [hd]; trivial⟩

/-- **Step lemma.** Every reliable call keeps agreement. -/
theorem agree_step {co : Call × Outcome} (hr : Reliable co) (h : c.Agree) : (step co c).1.Agree := by
  obtain ⟨call, o⟩ := co
  cases call with
  | begin statement =>
    obtain ⟨ho, hc⟩ := hr.not_abandoned (by simp)
    cases statement with
    | none => exact agree_beginWith_ansi ho hc h
    | some statement =>
      simp only [step, begin]
      split
      · exact h
      · exact agree_beginWith_custom ho h (by omega) statement
  | commit => exact Conn.agree_closeLevel agree_exec_commitAnsi (hr.not_abandoned (by simp)).1 h
  | rollback => exact Conn.agree_closeLevel agree_exec_rollbackAnsi (hr.not_abandoned (by simp)).1 h
  | startRollback =>
    have hok : o.statementOk = true := hr
    simp only [step, startRollback, hok]
    exact Conn.agree_startRollback h

/-- **Run lemma.** From an agreeing connection, every run of reliable calls
keeps the depth in agreement with the server. -/
theorem agree_run (calls : List (Call × Outcome)) (hr : ∀ co ∈ calls, Reliable co) (h : c.Agree) :
    (Run.run step c calls).Agree :=
  Run.run_invariant Reliable Conn.Agree (fun _ _ hco hc => agree_step hco hc) calls c hr h

/-- An abandoned `begin` at depth 0 whose `BEGIN` the server runs: the guard
does nothing, so a transaction is open and the depth is still 0. -/
theorem begin_abandoned (ho : o.abandoned = true) (hok : o.statementOk = true) :
    (begin none o Conn.init).1 = ⟨0, .active []⟩ ∧ ¬ (begin none o Conn.init).1.Agree := by
  have hstep : (begin none o Conn.init).1 = ⟨0, .active []⟩ := by
    simp [begin, beginWith, Conn.init, Server.send, hok, ho, beginAnsiTransactionSql, Server.exec,
      startRollback, Conn.startRollback]
  refine ⟨hstep, ?_⟩
  rw [hstep]
  simp [Conn.Agree, Agree]

end PgTransactionManager

end Sqlx.Postgres
