import Mathlib.Data.List.AList
import Mathlib.Data.List.Sort
import Sqlx.Lib.EStateM

/-!
# Migrations — `Migrator::run_direct` and `Migrator::undo`

`migrate/migrator.rs` of `sqlx-core`. The migrator reaches the database only
through the `Migrate` trait. It takes the lock, makes sure the
`_sqlx_migrations` table exists, refuses a dirty table, lists the applied
migrations and checks them against its own, and then applies the pending
up-migrations (`run_direct`) or reverts the down-migrations above a target
(`undo`), and last releases the lock. Each call is an `EStateM` action on the
connection: an error returns at once, as `?` does in the source, with the
connection as the failing call left it.

`MigrationDb` is what the calls can observe of a database: the table as a
finite map from version to checksum and `success`, whether the migrator's
lock is held, and the scripts run so far. `Migrate.Lawful` says what each
call does to it, read off the trait's comments and the drivers' queries;
`MigrationDb.conn` is a connection that meets it.
-/

namespace Sqlx

/-- `MigrationType`. -/
inductive MigrationType where
  | simple
  | reversibleUp
  | reversibleDown
  deriving DecidableEq, Repr

/-- `MigrationType::is_down_migration`. -/
def MigrationType.isDownMigration : MigrationType → Bool
  | .simple => false
  | .reversibleUp => false
  | .reversibleDown => true

/-- `Migration`, with the fields the migrator reads; the description, the SQL
and `no_tx` only reach the driver's `apply` and `revert`. -/
structure Migration where
  version : Int
  migrationType : MigrationType
  checksum : List UInt8
  deriving DecidableEq, Repr

/-- `AppliedMigration`: a row of `_sqlx_migrations` as
`list_applied_migrations` returns it. -/
structure AppliedMigration where
  version : Int
  checksum : List UInt8
  deriving DecidableEq, Repr

/-- `MigrateError`, the variants that the migrator and the drivers' migration
calls return. -/
inductive MigrateError where
  /-- `Execute(Error)`: a query failed. -/
  | execute (error : String)
  /-- `ExecuteMigration(Error, version)`: a migration's script failed. -/
  | executeMigration (error : String) (version : Int)
  | versionMissing (version : Int)
  | versionMismatch (version : Int)
  | dirty (version : Int)
  deriving DecidableEq, Repr

/-- The errors a driver's call returns: a query or a script failed. -/
def MigrateError.IsExecute : MigrateError → Prop
  | .execute _ => True
  | .executeMigration _ _ => True
  | _ => False

/-- The `Migrate` trait over a connection `C`. `apply` and `revert` return the
script's `Duration`, which the migrator drops. -/
structure Migrate (C : Type) where
  ensureMigrationsTable : EStateM MigrateError C Unit
  dirtyVersion : EStateM MigrateError C (Option Int)
  listAppliedMigrations : EStateM MigrateError C (List AppliedMigration)
  lock : EStateM MigrateError C Unit
  unlock : EStateM MigrateError C Unit
  apply : Migration → EStateM MigrateError C Unit
  revert : Migration → EStateM MigrateError C Unit

/-- `Migrator`: the resolved migrations and the flags the two runs read. -/
structure Migrator where
  migrations : List Migration
  ignoreMissing : Bool
  locking : Bool

/-- `validate_applied_migrations`: unless `ignore_missing`, the first applied
migration whose version is not among the migrator's is `VersionMissing`. -/
def validateAppliedMigrations (appliedMigrations : List AppliedMigration) (migrator : Migrator) :
    Except MigrateError Unit :=
  if migrator.ignoreMissing then .ok ()
  else
    -- the `HashSet` of the migrator's versions
    match appliedMigrations.find? (fun a => !migrator.migrations.any (·.version == a.version)) with
    | some appliedMigration => .error (.versionMissing appliedMigration.version)
    | none => .ok ()

/-- The `HashMap` by version that both runs build from the applied
migrations; a later row of a version replaces an earlier one. -/
def appliedByVersion (appliedMigrations : List AppliedMigration) (version : Int) :
    Option AppliedMigration :=
  appliedMigrations.reverse.find? (·.version == version)

variable {C : Type}

namespace Migrator

/-- `if self.locking { conn.lock().await?; }` -/
def lockIfLocking (self : Migrator) (conn : Migrate C) : EStateM MigrateError C Unit :=
  if self.locking then conn.lock else pure ()

/-- `if self.locking { conn.unlock().await?; }` -/
def unlockIfLocking (self : Migrator) (conn : Migrate C) : EStateM MigrateError C Unit :=
  if self.locking then conn.unlock else pure ()

/-- `if let Some(version) = version { return Err(MigrateError::Dirty(version)); }` -/
def refuseDirty (version : Option Int) : EStateM MigrateError C Unit :=
  match version with
  | some version => throw (.dirty version)
  | none => pure ()

/-- What `run_direct` and `undo` both do before their loop: lock, make sure
the table exists, refuse a dirty table, and list and check the applied
migrations, which come back as the `HashMap` by version. -/
def prepare (self : Migrator) (conn : Migrate C) :
    EStateM MigrateError C (Int → Option AppliedMigration) := do
  self.lockIfLocking conn
  conn.ensureMigrationsTable
  let version ← conn.dirtyVersion
  refuseDirty version
  let appliedMigrations ← conn.listAppliedMigrations
  ofExcept (validateAppliedMigrations appliedMigrations self)
  pure (appliedByVersion appliedMigrations)

/-- One turn of `run_direct`'s loop: a down-migration is skipped, a version
already applied must have the same checksum, any other is applied. -/
def runDirectStep (conn : Migrate C) (applied : Int → Option AppliedMigration)
    (migration : Migration) : EStateM MigrateError C Unit :=
  if migration.migrationType.isDownMigration then pure ()
  else
    match applied migration.version with
    | some appliedMigration =>
      if migration.checksum != appliedMigration.checksum then
        throw (.versionMismatch migration.version)
      else pure ()
    | none => conn.apply migration

/-- `Migrator::run_direct`. -/
def runDirect (self : Migrator) (conn : Migrate C) : EStateM MigrateError C Unit := do
  let applied ← self.prepare conn
  forM self.migrations (runDirectStep conn applied)
  self.unlockIfLocking conn

/-- `Migrator::undo`, from the acquired connection on: the down-migrations,
newest first, whose version is applied and above the target. -/
def undo (self : Migrator) (conn : Migrate C) (target : Int) : EStateM MigrateError C Unit := do
  let applied ← self.prepare conn
  forM (((self.migrations.reverse.filter (·.migrationType.isDownMigration)).filter
      (fun m => (applied m.version).isSome)).filter (fun m => decide (m.version > target)))
    conn.revert
  self.unlockIfLocking conn

end Migrator

/-! ## What the calls can observe of a database -/

/-- A row of `_sqlx_migrations`, under its version in the table's map. -/
structure MigrationRow where
  checksum : List UInt8
  success : Bool
  deriving DecidableEq, Repr

/-- A migration script that ran against the database. -/
inductive Ran where
  | applied (migration : Migration)
  | reverted (migration : Migration)
  deriving DecidableEq, Repr

/-- The database as the migrator's calls see it. `ran` is the history of the
scripts run, which no call reads. -/
structure MigrationDb where
  table : AList (fun _ : Int => MigrationRow)
  locked : Bool
  ran : List Ran

namespace MigrationDb

/-- `SELECT version FROM _sqlx_migrations WHERE success = false ORDER BY
version LIMIT 1`. -/
def dirtyVersion (db : MigrationDb) : Option Int :=
  ((db.table.entries.filter (fun e => !e.2.success)).map (·.1)).min?

/-- `SELECT version, checksum FROM _sqlx_migrations ORDER BY version`. -/
def appliedMigrations (db : MigrationDb) : List AppliedMigration :=
  (db.table.entries.map fun e => (⟨e.1, e.2.checksum⟩ : AppliedMigration)).insertionSort
    (fun a b => a.version ≤ b.version)

/-- After a successful `apply`: the script ran and the table has its row,
with `success`. -/
def applied (db : MigrationDb) (m : Migration) : MigrationDb :=
  { db with
    table := db.table.insert m.version ⟨m.checksum, true⟩
    ran := db.ran ++ [.applied m] }

/-- After a successful `revert`: the down script ran and the row is gone. -/
def reverted (db : MigrationDb) (m : Migration) : MigrationDb :=
  { db with
    table := db.table.erase m.version
    ran := db.ran ++ [.reverted m] }

end MigrationDb

/-- What the migrator may rely on of a connection, seen through `db`. A call
that succeeds does what the trait's comment and the drivers' queries say;
`apply` inserts under the primary key `version`, so it succeeds only on a
version the table does not have. A call that fails, fails with a query's or
a script's error. -/
structure Migrate.Lawful (conn : Migrate C) (db : C → MigrationDb) : Prop where
  ensureMigrationsTable_ok : ∀ {s s'}, conn.ensureMigrationsTable.run s = .ok () s' → db s' = db s
  dirtyVersion_ok : ∀ {s v s'}, conn.dirtyVersion.run s = .ok v s' →
    db s' = db s ∧ v = (db s).dirtyVersion
  listAppliedMigrations_ok : ∀ {s rows s'}, conn.listAppliedMigrations.run s = .ok rows s' →
    db s' = db s ∧ rows = (db s).appliedMigrations
  lock_ok : ∀ {s s'}, conn.lock.run s = .ok () s' → db s' = { db s with locked := true }
  unlock_ok : ∀ {s s'}, conn.unlock.run s = .ok () s' → db s' = { db s with locked := false }
  apply_ok : ∀ {m s s'}, (conn.apply m).run s = .ok () s' →
    (db s).table.lookup m.version = none ∧ db s' = (db s).applied m
  revert_ok : ∀ {m s s'}, (conn.revert m).run s = .ok () s' → db s' = (db s).reverted m
  ensureMigrationsTable_fails : conn.ensureMigrationsTable.FailsOnlyWith MigrateError.IsExecute
  dirtyVersion_fails : conn.dirtyVersion.FailsOnlyWith MigrateError.IsExecute
  listAppliedMigrations_fails : conn.listAppliedMigrations.FailsOnlyWith MigrateError.IsExecute
  lock_fails : conn.lock.FailsOnlyWith MigrateError.IsExecute
  unlock_fails : conn.unlock.FailsOnlyWith MigrateError.IsExecute
  apply_fails : ∀ m, (conn.apply m).FailsOnlyWith MigrateError.IsExecute
  revert_fails : ∀ m, (conn.revert m).FailsOnlyWith MigrateError.IsExecute

/-- A connection that is its own database and whose calls do not fail, but
for an `apply` of a version the table has, which the primary key refuses. -/
def MigrationDb.conn : Migrate MigrationDb where
  ensureMigrationsTable := pure ()
  dirtyVersion := fun db => .ok db.dirtyVersion db
  listAppliedMigrations := fun db => .ok db.appliedMigrations db
  lock := fun db => .ok () { db with locked := true }
  unlock := fun db => .ok () { db with locked := false }
  apply m := fun db =>
    if db.table.lookup m.version = none then .ok () (db.applied m)
    else .error (.execute "duplicate key value violates unique constraint") db
  revert m := fun db => .ok () (db.reverted m)

/-- `MigrationDb.conn` meets the laws, so they can be met. -/
theorem MigrationDb.conn_lawful : MigrationDb.conn.Lawful id where
  ensureMigrationsTable_ok h := by cases h; rfl
  dirtyVersion_ok h := by cases h; exact ⟨rfl, rfl⟩
  listAppliedMigrations_ok h := by cases h; exact ⟨rfl, rfl⟩
  lock_ok h := by cases h; rfl
  unlock_ok h := by cases h; rfl
  apply_ok {m s s'} h := by
    simp only [EStateM.run, conn] at h
    split at h
    · cases h
      exact ⟨by assumption, rfl⟩
    · cases h
  revert_ok h := by cases h; rfl
  ensureMigrationsTable_fails _ _ _ h := by cases h
  dirtyVersion_fails _ _ _ h := by cases h
  listAppliedMigrations_fails _ _ _ h := by cases h
  lock_fails _ _ _ h := by cases h
  unlock_fails _ _ _ h := by cases h
  apply_fails m s e s' h := by
    simp only [EStateM.run, conn] at h
    split at h
    · cases h
    · cases h
      trivial
  revert_fails _ _ _ _ h := by cases h

end Sqlx
