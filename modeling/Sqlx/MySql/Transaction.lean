import Sqlx.Core.Transaction

/-!
# MySQL — `MySqlTransactionManager`

`transaction.rs` of `sqlx-mysql`. `begin` sends its statement and counts the
new level only once `in_transaction()` says a transaction is open; `commit`
and `rollback` are the shared shape `Conn.closeLevel`, `start_rollback` is
`Conn.startRollback`.

In every run whose calls run to their end and whose rollbacks succeed, the
depth agrees with the server (`agree_run`), and a `begin` that fails leaves
the connection as it was (`begin_error`). A `begin` abandoned once its
`BEGIN` is sent leaves the server in a transaction at depth 0
(`begin_abandoned`).
-/

namespace Sqlx.MySql

open Sqlx

/-- From `conn.execute(&*statement).await?` on: the depth goes up only when
the server is then in a transaction. -/
def MySqlTransactionManager.beginWith (statement : Stmt) (o : Outcome) (c : Conn) :
    Conn × TxResult :=
  match c.server.send o.statementOk statement with
  | none => (c, if o.abandoned then none else some (.error .statement))
  | some server =>
    -- an abandoned call never reaches the `in_transaction` check
    if o.abandoned then ({ c with server }, none)
    else if server.inTransaction then (⟨c.depth + 1, server⟩, some (.ok ()))
    else ({ c with server }, some (.error .beginFailed))

/-- `MySqlTransactionManager::begin`: a custom statement only at depth 0. -/
def MySqlTransactionManager.begin (statement : Option Stmt) (o : Outcome) (c : Conn) :
    Conn × TxResult :=
  match statement with
  | some statement =>
    if 0 < c.depth then (c, some (.error .invalidSavePointStatement))
    else MySqlTransactionManager.beginWith statement o c
  | none => MySqlTransactionManager.beginWith (beginAnsiTransactionSql c.depth) o c

/-- `MySqlTransactionManager::commit`. -/
def MySqlTransactionManager.commit : Outcome → Conn → Conn × TxResult :=
  Conn.closeLevel commitAnsiTransactionSql

/-- `MySqlTransactionManager::rollback`. -/
def MySqlTransactionManager.rollback : Outcome → Conn → Conn × TxResult :=
  Conn.closeLevel rollbackAnsiTransactionSql

/-- `MySqlTransactionManager::start_rollback`: the `ROLLBACK` is written to
the stream and its result left waiting. -/
def MySqlTransactionManager.startRollback (ok : Bool) (c : Conn) : Conn := c.startRollback ok

/-- One call on the manager. -/
def MySqlTransactionManager.step : Call × Outcome → Conn → Conn × TxResult
  | (.begin statement, o), c => MySqlTransactionManager.begin statement o c
  | (.commit, o), c => MySqlTransactionManager.commit o c
  | (.rollback, o), c => MySqlTransactionManager.rollback o c
  | (.startRollback, o), c => (MySqlTransactionManager.startRollback o.statementOk c, some (.ok ()))

namespace MySqlTransactionManager

variable {o : Outcome} {c : Conn}

/-- A `BEGIN` or `SAVEPOINT` that runs to its end keeps agreement. -/
theorem agree_beginWith_ansi (ho : o.abandoned = false) (h : c.Agree) :
    (beginWith (beginAnsiTransactionSql c.depth) o c).1.Agree := by
  unfold beginWith
  split
  · exact h
  · rename_i server hs
    have hexec := Server.exec_of_send hs
    simp only [ho, Bool.false_eq_true, if_false, Server.inTransaction_of_exec_beginAnsi hexec,
      if_true]
    exact agree_exec_beginAnsi h hexec

/-- A custom statement at depth 0 that runs to its end keeps agreement: it
opened a transaction, or the server is still idle. -/
theorem agree_beginWith_custom (ho : o.abandoned = false) (h : c.Agree) (hd : c.depth = 0)
    (statement : Stmt) : (beginWith statement o c).1.Agree := by
  have hidle : c.server = .idle := agree_zero.mp (hd ▸ h)
  unfold beginWith
  split
  · exact h
  · rename_i server hs
    rw [hidle] at hs
    simp only [ho, Bool.false_eq_true, if_false]
    rcases Server.exec_idle (Server.exec_of_send hs) with rfl | rfl
    · exact hd
    · simp only [Server.inTransaction, if_true]
      show Sqlx.Agree (c.depth + 1) (.active [])
      exact ⟨by omega, by rw [hd]; trivial⟩

theorem agree_begin (ho : o.abandoned = false) (h : c.Agree) (statement : Option Stmt) :
    (begin statement o c).1.Agree := by
  cases statement with
  | none => exact agree_beginWith_ansi ho h
  | some statement =>
    simp only [begin]
    split
    · exact h
    · exact agree_beginWith_custom ho h (by omega) statement

/-- **Step lemma.** Every reliable call keeps agreement. -/
theorem agree_step {co : Call × Outcome} (hr : Reliable co) (h : c.Agree) : (step co c).1.Agree := by
  obtain ⟨call, o⟩ := co
  cases call with
  | begin statement => exact agree_begin (hr.not_abandoned (by simp)).1 h statement
  | commit => exact Conn.agree_closeLevel agree_exec_commitAnsi (hr.not_abandoned (by simp)).1 h
  | rollback => exact Conn.agree_closeLevel agree_exec_rollbackAnsi (hr.not_abandoned (by simp)).1 h
  | startRollback =>
    have hok : o.statementOk = true := hr
    simp only [step, startRollback, hok]
    exact Conn.agree_startRollback h

/-- **Run lemma.** From an agreeing connection, every run of reliable calls
keeps the depth in agreement with the server. -/
theorem agree_run (calls : List (Call × Outcome)) (hr : ∀ co ∈ calls, Reliable co) (h : c.Agree) :
    (Run.run step c calls).Agree :=
  Run.run_invariant Reliable Conn.Agree (fun _ _ hco hc => agree_step hco hc) calls c hr h

/-- A `begin` that runs to its end and fails leaves the connection as it was. -/
theorem begin_error {statement : Option Stmt} {e : TxError} (ho : o.abandoned = false) (h : c.Agree)
    (he : (begin statement o c).2 = some (.error e)) : (begin statement o c).1 = c := by
  cases statement with
  | none =>
    simp only [begin, beginWith] at he ⊢
    split
    · rfl
    · rename_i server hs
      rw [hs] at he
      simp [ho, Server.inTransaction_of_exec_beginAnsi (Server.exec_of_send hs)] at he
  | some statement =>
    simp only [begin] at he ⊢
    split
    · rfl
    · rename_i hd
      have hidle : c.server = .idle := agree_zero.mp (show c.depth = 0 by omega ▸ h)
      rw [if_neg hd] at he
      simp only [beginWith] at he ⊢
      split
      · rfl
      · rename_i server hs
        rw [hs] at he
        rw [hidle] at hs
        simp only [ho, Bool.false_eq_true, if_false]
        rcases Server.exec_idle (Server.exec_of_send hs) with rfl | rfl
        · simp [Server.inTransaction, ← hidle]
        · simp [ho, Server.inTransaction] at he

/-- An abandoned `begin` at depth 0 whose `BEGIN` the server runs: a
transaction is open and the depth is still 0. -/
theorem begin_abandoned (ho : o.abandoned = true) (hok : o.statementOk = true) :
    (begin none o Conn.init).1 = ⟨0, .active []⟩ ∧ ¬ (begin none o Conn.init).1.Agree := by
  have hstep : (begin none o Conn.init).1 = ⟨0, .active []⟩ := by
    simp [begin, beginWith, Conn.init, Server.send, hok, ho, beginAnsiTransactionSql, Server.exec]
  refine ⟨hstep, ?_⟩
  rw [hstep]
  simp [Conn.Agree, Agree]

end MySqlTransactionManager

end Sqlx.MySql
