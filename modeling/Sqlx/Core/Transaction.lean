import Sqlx.Lib.Run

/-!
# Transactions — nesting by savepoints

`transaction.rs` of `sqlx-core`: the statements a `TransactionManager` sends
at depth `d`. Level 1 is `BEGIN`; level `d + 1` is opened by `SAVEPOINT
_sqlx_savepoint_{d}`; level `d` is closed by `COMMIT` / `ROLLBACK` when it is
the first, else by `RELEASE SAVEPOINT` / `ROLLBACK TO SAVEPOINT
_sqlx_savepoint_{d - 1}`. Savepoint names are only ever of that form, so a
savepoint is its number here.

The server is the abstract side: whether a transaction is open, and its
savepoints, newest first. `Agree d s` says the depth a driver keeps matches
it. The ANSI statements keep `Agree` whenever the server runs them
(`agree_exec_beginAnsi`, `agree_exec_commitAnsi`, `agree_exec_rollbackAnsi`),
and an agreeing server runs every commit and rollback the driver sends.

The drivers' managers are steps on a `Conn` (depth and server) driven by a
`Call` and an `Outcome`: whether the statement succeeds, whether the caller
abandons the call once its statement is sent, and whether a compensating
statement sent on the way out succeeds.
-/

namespace Sqlx

/-! ## Statements -/

/-- What the server is sent. A custom `BEGIN` passed to `begin` is any of these. -/
inductive Stmt where
  /-- `BEGIN`, or a custom statement that opens a transaction. -/
  | begin
  /-- `SAVEPOINT _sqlx_savepoint_{n}`. -/
  | savepoint (n : Nat)
  /-- `RELEASE SAVEPOINT _sqlx_savepoint_{n}`. -/
  | releaseSavepoint (n : Nat)
  /-- `ROLLBACK TO SAVEPOINT _sqlx_savepoint_{n}`. -/
  | rollbackToSavepoint (n : Nat)
  | commit
  | rollback
  /-- A statement that leaves the transaction state alone, such as `SELECT 1`. -/
  | other
  deriving DecidableEq, Repr

/-- `begin_ansi_transaction_sql(depth)`. -/
def beginAnsiTransactionSql (depth : Nat) : Stmt :=
  if depth = 0 then .begin else .savepoint depth

/-- `commit_ansi_transaction_sql(depth)`. -/
def commitAnsiTransactionSql (depth : Nat) : Stmt :=
  if depth = 1 then .commit else .releaseSavepoint (depth - 1)

/-- `rollback_ansi_transaction_sql(depth)`. -/
def rollbackAnsiTransactionSql (depth : Nat) : Stmt :=
  if depth = 1 then .rollback else .rollbackToSavepoint (depth - 1)

/-! ## The server -/

/-- The server's transaction state: none open, or one with its savepoints,
newest first. -/
inductive Server where
  | idle
  | active (savepoints : List Nat)
  deriving DecidableEq, Repr

/-- Whether a transaction is open, as `in_transaction()` reports it. -/
def Server.inTransaction : Server → Bool
  | .idle => false
  | .active _ => true

/-- `RELEASE SAVEPOINT n`: the most recent `n` and every savepoint made after
it go; `none` when there is no `n`. -/
def releaseSavepoint (n : Nat) : List Nat → Option (List Nat)
  | [] => none
  | m :: rest => if m = n then some rest else releaseSavepoint n rest

/-- `ROLLBACK TO SAVEPOINT n`: the savepoints made after the most recent `n`
go, and `n` stays. -/
def rollbackToSavepoint (n : Nat) : List Nat → Option (List Nat)
  | [] => none
  | m :: rest => if m = n then some (m :: rest) else rollbackToSavepoint n rest

/-- The server running one statement; `none` when it rejects it. `BEGIN` in a
transaction and savepoint statements outside one are errors; `COMMIT` and
`ROLLBACK` outside one do nothing. -/
def Server.exec : Server → Stmt → Option Server
  | .idle, .begin => some (.active [])
  | .active _, .begin => none
  | .idle, .savepoint _ => none
  | .active sps, .savepoint n => some (.active (n :: sps))
  | .idle, .releaseSavepoint _ => none
  | .active sps, .releaseSavepoint n => (releaseSavepoint n sps).map .active
  | .idle, .rollbackToSavepoint _ => none
  | .active sps, .rollbackToSavepoint n => (rollbackToSavepoint n sps).map .active
  | _, .commit => some .idle
  | _, .rollback => some .idle
  | s, .other => some s

/-- `Server.exec` by cases; the lemmas below unfold it through this one. -/
theorem Server.exec_eq (s : Server) (st : Stmt) :
    s.exec st =
      match s, st with
      | .idle, .begin => some (.active [])
      | .active _, .begin => none
      | .idle, .savepoint _ => none
      | .active sps, .savepoint n => some (.active (n :: sps))
      | .idle, .releaseSavepoint _ => none
      | .active sps, .releaseSavepoint n => (releaseSavepoint n sps).map .active
      | .idle, .rollbackToSavepoint _ => none
      | .active sps, .rollbackToSavepoint n => (rollbackToSavepoint n sps).map .active
      | _, .commit => some .idle
      | _, .rollback => some .idle
      | s, .other => some s := rfl

/-- A statement sent to the server: it succeeds when the server runs it and
nothing else fails (`ok`); a failed statement leaves the server as it was. -/
def Server.send (s : Server) (ok : Bool) (stmt : Stmt) : Option Server :=
  if ok then s.exec stmt else none

/-- The server after a statement whose result nobody reads. -/
def Server.after (s : Server) (ok : Bool) (stmt : Stmt) : Server := (s.send ok stmt).getD s

/-! ## Agreement -/

/-- The savepoints of levels `2 .. k + 1` are on the stack: the most recent
`_sqlx_savepoint_{k}`, below it the most recent `_sqlx_savepoint_{k - 1}`, and
so on down to `_sqlx_savepoint_1`; each is what the statement closing its
level finds. -/
def Nested : Nat → List Nat → Prop
  | 0, _ => True
  | k + 1, sps => ∃ rest, releaseSavepoint (k + 1) sps = some rest ∧ Nested k rest

/-- A driver at depth `depth` agrees with the server: a transaction is open
exactly when `depth > 0`, and then the savepoints of its levels nest. -/
def Agree (depth : Nat) : Server → Prop
  | .idle => depth = 0
  | .active sps => 0 < depth ∧ Nested (depth - 1) sps

theorem rollbackToSavepoint_eq (n : Nat) (sps : List Nat) :
    rollbackToSavepoint n sps = (releaseSavepoint n sps).map (n :: ·) := by
  induction sps with
  | nil => rfl
  | cons m rest ih =>
    simp only [rollbackToSavepoint, releaseSavepoint]
    split
    · rename_i hm
      rw [hm, Option.map_some]
    · exact ih

theorem agree_zero {s : Server} : Agree 0 s ↔ s = .idle := by
  cases s with
  | idle => simp [Agree]
  | active sps => simp [Agree]

theorem Agree.active_of_pos {d : Nat} {s : Server} (h : Agree d s) (hd : 0 < d) :
    ∃ sps, s = .active sps ∧ Nested (d - 1) sps := by
  cases s with
  | idle => exact absurd h (by simp [Agree]; omega)
  | active sps => exact ⟨sps, rfl, h.2⟩

/-- A savepoint newer than every level checked does not matter. -/
theorem nested_cons_of_lt {k n : Nat} (sps : List Nat) (h : k < n) :
    Nested k (n :: sps) ↔ Nested k sps := by
  cases k with
  | zero => simp [Nested]
  | succ k =>
    have hne : n ≠ k + 1 := by omega
    simp only [Nested, releaseSavepoint, hne, if_false]

theorem Server.exec_of_send {s s' : Server} {ok : Bool} {stmt : Stmt} (h : s.send ok stmt = some s') :
    s.exec stmt = some s' := by
  unfold Server.send at h
  split at h
  · exact h
  · cases h

/-- From no transaction, a statement either opens one with no savepoints or
leaves none open. -/
theorem Server.exec_idle {st : Stmt} {s : Server} (h : Server.idle.exec st = some s) :
    s = .idle ∨ s = .active [] := by
  cases st <;> simp only [Server.exec_eq, Option.some.injEq, reduceCtorEq] at h <;> simp [← h]

/-- `BEGIN` and `SAVEPOINT` leave a transaction open. -/
theorem Server.inTransaction_of_exec_beginAnsi {d : Nat} {s s' : Server}
    (h : s.exec (beginAnsiTransactionSql d) = some s') : s'.inTransaction = true := by
  unfold beginAnsiTransactionSql at h
  split at h <;> cases s <;> simp only [Server.exec_eq, Option.some.injEq, reduceCtorEq] at h <;>
    simp [← h, Server.inTransaction]

/-! ## The ANSI statements keep agreement -/

/-- Opening level `d + 1`: the new savepoint is the most recent. -/
theorem agree_exec_beginAnsi {d : Nat} {s s' : Server} (h : Agree d s)
    (he : s.exec (beginAnsiTransactionSql d) = some s') : Agree (d + 1) s' := by
  rcases Nat.eq_zero_or_pos d with rfl | hd
  · rw [agree_zero.mp h] at he
    cases he
    exact ⟨by omega, trivial⟩
  · obtain ⟨sps, rfl, hn⟩ := h.active_of_pos hd
    simp only [beginAnsiTransactionSql, Nat.pos_iff_ne_zero.mp hd, if_false, Server.exec_eq,
      Option.some.injEq] at he
    subst he
    obtain ⟨k, rfl⟩ := Nat.exists_eq_add_of_lt hd
    exact ⟨by omega, sps, by simp [releaseSavepoint], by simpa using hn⟩

/-- Closing level `d` by `COMMIT` or `RELEASE SAVEPOINT`. -/
theorem agree_exec_commitAnsi {d : Nat} {s s' : Server} (h : Agree d s) (hd : 0 < d)
    (he : s.exec (commitAnsiTransactionSql d) = some s') : Agree (d - 1) s' := by
  by_cases h1 : d = 1
  · subst h1
    simp only [commitAnsiTransactionSql, if_true] at he
    cases s <;> (cases he; rfl)
  · obtain ⟨sps, rfl, hn⟩ := h.active_of_pos hd
    obtain ⟨k, rfl⟩ : ∃ k, d = k + 2 := ⟨d - 2, by omega⟩
    obtain ⟨rest, hrel, hrest⟩ := hn
    simp only [commitAnsiTransactionSql, h1, if_false, Server.exec_eq,
      show k + 2 - 1 = k + 1 by omega, hrel, Option.map_some, Option.some.injEq] at he
    subst he
    exact ⟨by omega, by simpa using hrest⟩

/-- Closing level `d` by `ROLLBACK` or `ROLLBACK TO SAVEPOINT`, which keeps
the savepoint: it is newer than every level still open. -/
theorem agree_exec_rollbackAnsi {d : Nat} {s s' : Server} (h : Agree d s) (hd : 0 < d)
    (he : s.exec (rollbackAnsiTransactionSql d) = some s') : Agree (d - 1) s' := by
  by_cases h1 : d = 1
  · subst h1
    simp only [rollbackAnsiTransactionSql, if_true] at he
    cases s <;> (cases he; rfl)
  · obtain ⟨sps, rfl, hn⟩ := h.active_of_pos hd
    obtain ⟨k, rfl⟩ : ∃ k, d = k + 2 := ⟨d - 2, by omega⟩
    obtain ⟨rest, hrel, hrest⟩ := hn
    simp only [rollbackAnsiTransactionSql, h1, if_false, Server.exec_eq,
      show k + 2 - 1 = k + 1 by omega, rollbackToSavepoint_eq, hrel, Option.map_some,
      Option.some.injEq] at he
    subst he
    exact ⟨by omega, (nested_cons_of_lt rest (by omega)).mpr (by simpa using hrest)⟩

/-- An agreeing server runs the rollback of the current level. -/
theorem exec_rollbackAnsi_of_agree {d : Nat} {s : Server} (h : Agree d s) (hd : 0 < d) :
    ∃ s', s.exec (rollbackAnsiTransactionSql d) = some s' := by
  by_cases h1 : d = 1
  · subst h1
    exact ⟨.idle, by cases s <;> rfl⟩
  · obtain ⟨sps, rfl, hn⟩ := h.active_of_pos hd
    obtain ⟨k, rfl⟩ : ∃ k, d = k + 2 := ⟨d - 2, by omega⟩
    obtain ⟨rest, hrel, -⟩ := hn
    exact ⟨.active ((k + 1) :: rest),
      by simp [rollbackAnsiTransactionSql, Server.exec_eq, rollbackToSavepoint_eq, hrel]⟩

/-- A rollback of the current level that succeeds leaves the level below agreeing. -/
theorem agree_after_rollbackAnsi {d : Nat} {s : Server} (h : Agree d s) (hd : 0 < d) :
    Agree (d - 1) (s.after true (rollbackAnsiTransactionSql d)) := by
  obtain ⟨s', hs'⟩ := exec_rollbackAnsi_of_agree h hd
  have hsend : s.send true (rollbackAnsiTransactionSql d) = some s' := hs'
  rw [Server.after, hsend, Option.getD_some]
  exact agree_exec_rollbackAnsi h hd hs'

/-! ## What the drivers' managers act on -/

/-- A connection's transaction depth, with the server it talks to. -/
structure Conn where
  depth : Nat
  server : Server
  deriving DecidableEq, Repr

/-- A fresh connection. -/
def Conn.init : Conn := ⟨0, .idle⟩

/-- The connection agrees with its server. -/
def Conn.Agree (c : Conn) : Prop := Sqlx.Agree c.depth c.server

/-- A call on the `TransactionManager`. -/
inductive Call where
  | begin (statement : Option Stmt)
  | commit
  | rollback
  | startRollback
  deriving DecidableEq, Repr

/-- What the environment decides in one call. -/
structure Outcome where
  /-- The call's statement succeeds. -/
  statementOk : Bool
  /-- The caller drops the call's future once the statement is sent. -/
  abandoned : Bool
  /-- A statement sent to clean up after the call succeeds. -/
  cleanupOk : Bool
  deriving DecidableEq, Repr

/-- The errors the managers return. -/
inductive TxError where
  | invalidSavePointStatement
  | beginFailed
  /-- The error of a statement that failed. -/
  | statement
  | workerCrashed
  deriving DecidableEq, Repr

/-- What a caller gets back; `none` when it abandoned the call. -/
abbrev TxResult := Option (Except TxError Unit)

/-- A call that runs to its end and whose compensating statement succeeds; for
a `start_rollback`, one whose rollback succeeds. -/
def Reliable : Call × Outcome → Prop
  | (.startRollback, o) => o.statementOk = true
  | (_, o) => o.abandoned = false ∧ o.cleanupOk = true

theorem Reliable.not_abandoned {call : Call} {o : Outcome} (h : Reliable (call, o))
    (hc : call ≠ .startRollback) : o.abandoned = false ∧ o.cleanupOk = true := by
  cases call with
  | startRollback => exact absurd rfl hc
  | _ => exact h

/-! ## `commit`, `rollback` and `start_rollback` of the Postgres and MySQL managers -/

/-- Their `commit` and `rollback`: at depth `d > 0`,
`conn.execute(sql(d)).await?`, then the depth goes down by one. -/
def Conn.closeLevel (sql : Nat → Stmt) (o : Outcome) (c : Conn) : Conn × TxResult :=
  if 0 < c.depth then
    match c.server.send o.statementOk (sql c.depth) with
    | none => (c, if o.abandoned then none else some (.error .statement))
    -- an abandoned call stops before the depth goes down
    | some server =>
      if o.abandoned then ({ c with server }, none) else (⟨c.depth - 1, server⟩, some (.ok ()))
  else (c, some (.ok ()))

/-- Their `start_rollback`: the rollback of the current level is queued,
nobody waits for it, and the level is counted gone. -/
def Conn.startRollback (ok : Bool) (c : Conn) : Conn :=
  if 0 < c.depth then ⟨c.depth - 1, c.server.after ok (rollbackAnsiTransactionSql c.depth)⟩ else c

/-- A commit or rollback that runs to its end keeps agreement, whether its
statement succeeds or not. -/
theorem Conn.agree_closeLevel {sql : Nat → Stmt}
    (hsql : ∀ {d : Nat} {s s' : Server}, Sqlx.Agree d s → 0 < d → s.exec (sql d) = some s' →
      Sqlx.Agree (d - 1) s')
    {o : Outcome} (ho : o.abandoned = false) {c : Conn} (h : c.Agree) :
    (c.closeLevel sql o).1.Agree := by
  unfold Conn.closeLevel
  split
  · rename_i hd
    split
    · exact h
    · rename_i server hs
      simp only [ho, Bool.false_eq_true, if_false]
      exact hsql h hd (Server.exec_of_send hs)
  · exact h

theorem Conn.agree_startRollback {c : Conn} (h : c.Agree) : (c.startRollback true).Agree := by
  unfold Conn.startRollback
  split
  · rename_i hd
    exact agree_after_rollbackAnsi h hd
  · exact h

end Sqlx
