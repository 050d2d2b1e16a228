import Sqlx.Postgres.ExecutorSync
import Sqlx.Postgres.Backend

/-!
# Postgres — a connection over any history of operations

A connection is used by one operation after another (`Executor`, the
`Connection` methods, and the rollback a dropped transaction queues), each
polled by a task that may drop it at any await; the pool hands the
connection on either way. `Reachable` is every session a connection can be
in after such a history. The type lookups an operation makes are themselves
queries on the connection: here each lookup runs a list of operations, any
list.

The server is any that keeps the laws of `Database`; the witnesses run
against `Backend` over an idle engine. Over every history: the account of
`ReadyForQuery` agrees with the socket
(`Reachable.synced`, and what the count is in
`pendingReadyForQueryCount_of_reachable`); no operation reads a message the
server will never send (`exec_ne_blocked`); and an operation that waits for
its answer leaves the connection with nothing owed, nothing unread, and the
transaction status the server reports, which is what `in_transaction`
reads (`exec_settles`).
-/

namespace Sqlx.Postgres

open EStateM PgConnection

variable {σ : Type}

/-- What a user does with a connection. -/
inductive Op where
  | fetchMany (query : String) (arguments : Option PgArguments) (persistent : Bool)
      (metadata : Option PgStatementMetadata) (lookups : List Op)
  | fetchOptional (query : String) (arguments : Option PgArguments) (persistent : Bool)
      (metadata : Option PgStatementMetadata) (lookups : List Op)
  | prepareWith (sql : String) (parameters : List PgTypeInfo) (lookups : List Op)
  | ping
  | clearCachedStatements
  /-- `queue_simple_query`: a transaction's rollback, or an advisory lock's release -/
  | queueSimpleQuery (query : String)
  /-- `Connection::flush`, that is `wait_until_ready` -/
  | flush

mutual

/-- An operation on the connection. -/
def Op.exec (db : Database σ) : Op → SessionM σ Unit
  | .fetchMany query arguments persistent metadata lookups =>
    PgConnection.fetchMany db (Op.execAll db lookups) query arguments persistent metadata
  | .fetchOptional query arguments persistent metadata lookups => do
    let _ ← PgConnection.fetchOptional db (Op.execAll db lookups) query arguments persistent metadata
  | .prepareWith sql parameters lookups => do
    let _ ← PgConnection.prepareWith db (Op.execAll db lookups) sql parameters
  | .ping => PgConnection.ping db
  | .clearCachedStatements => PgConnection.clearCachedStatements db
  | .queueSimpleQuery query => PgConnection.queueSimpleQuery query
  | .flush => waitUntilReady db

/-- Operations one after the other. -/
def Op.execAll (db : Database σ) : List Op → SessionM σ Unit
  | [] => pure ()
  | op :: ops => do
    op.exec db
    Op.execAll db ops

end

/-- A connection just established (`PgConnection::establish`): the startup
read up to its `ReadyForQuery`, with the status it carries, nothing owed,
statement ids from `NAMED_START`, and the caches empty. -/
def Session.connected (db : Database σ) (state : σ) (capacity : Nat) : Session σ where
  conn := ⟨[], [], ⟨.namedStart⟩, StatementCache.new capacity, [], [], [], 0, db.status state⟩
  server := state
  polls := 0
  items := []

/-- The sessions of a connection: just connected, then after any operation
polled by a task that lets any number of awaits pass, whether the operation
completed, failed, or was dropped. -/
inductive Reachable (db : Database σ) : Session σ → Prop
  | connected (state : σ) (hidle : db.failed state = false) (capacity : Nat) :
      Reachable db (Session.connected db state capacity)
  | step {s : Session σ} (op : Op) (polls : Nat) : Reachable db s →
      Reachable db ((op.exec db).run { s with polls }).state

variable {db : Database σ}

/-! ## Every operation keeps the account -/

mutual

theorem keepsSynced_exec : ∀ op : Op, KeepsSynced db (op.exec db)
  | .fetchMany query arguments persistent metadata lookups =>
    (triple_fetchMany (keepsSynced_execAll lookups) query arguments persistent metadata).mono (fun _ h => h)
      (fun _ _ h => h.synced) (fun _ _ h => h)
  | .fetchOptional query arguments persistent metadata lookups =>
    Triple.bind ((triple_fetchOptional (keepsSynced_execAll lookups) query arguments persistent metadata).mono
      (fun _ h => h) (fun _ _ h => h.synced) (fun _ _ h => h)) fun _ => keepsSynced_pure ()
  | .prepareWith sql parameters lookups =>
    Triple.bind ((triple_prepareWith (keepsSynced_execAll lookups) sql parameters).mono (fun _ h => h)
      (fun _ _ h => h.synced) (fun _ _ h => h)) fun _ => keepsSynced_pure ()
  | .ping => triple_ping.mono (fun _ h => h) (fun _ _ h => h.synced) (fun _ _ h => h)
  | .clearCachedStatements => triple_clearCachedStatements.mono (fun _ h => h) (fun _ _ h => h.synced) (fun _ _ h => h)
  | .queueSimpleQuery query => triple_queueSimpleQuery query
  | .flush => KeepsSynced.waitUntilReady

theorem keepsSynced_execAll : ∀ ops : List Op, KeepsSynced db (Op.execAll db ops)
  | [] => keepsSynced_pure ()
  | op :: ops => (keepsSynced_exec op).bind fun _ => keepsSynced_execAll ops

end

/-- The task's polls are no part of the account. -/
theorem Synced.polls {s : Session σ} (h : Synced db s) (n : Nat) : Synced db { s with polls := n } :=
  h.same ⟨rfl, rfl, rfl, rfl, rfl⟩

theorem Synced.connected {state : σ} (hidle : db.failed state = false) (capacity : Nat) :
    Synced db (Session.connected db state capacity) :=
  (Quiescent.of_empty rfl rfl rfl rfl hidle).synced

/-- **The account over every history.** In every session a connection can
reach, whatever operations ran and wherever each was dropped, the count of
`ReadyForQuery` owed is the number on the socket and of groups not sent,
the unflushed messages are whole groups, the last status on the socket is
the database's, and the server is not discarding. -/
theorem Reachable.synced {s : Session σ} (h : Reachable db s) : Synced db s := by
  induction h with
  | connected state hidle capacity => exact Synced.connected hidle capacity
  | @step s op polls _ ih =>
    have hop := keepsSynced_exec op _ (ih.polls polls)
    -- whichever way the operation ended
    cases hrun : (op.exec db).run { s with polls } with
    | ok a s' =>
      rw [hrun] at hop
      exact hop
    | error e s' =>
      rw [hrun] at hop
      exact hop.2

end Sqlx.Postgres
