import Sqlx.Migrate.Migrator

/-!
# Migrations — what `run_direct` and `undo` do

Over every connection that meets `Migrate.Lawful`:

* `runDirect_ok`: a `run_direct` that returns `Ok` applied exactly the
  up-migrations whose version the table did not have (`pendingOf`), once
  each, in the migrator's order and with no version twice, and found every
  applied up-migration's checksum equal.
* `undo_ok`: an `undo` that returns `Ok` reverted exactly the applied
  down-migrations above the target (`toRevert`), newest first.
* `runDirect_error`, `undo_error`: the runs fail in a driver's call, or with
  an error of the migrator's own (a dirty table, a missing version, for
  `run_direct` a changed checksum); those return before `unlock`, so the
  lock is still held. `runDirect_mismatch_keeps_lock` is such a run.

The loop of `run_direct` is carried by `RunDirectInv` through the loop rules
of `EStateM`, one step lemma per outcome of a turn (`runDirectStep_ok`,
`runDirectStep_error`).
-/

namespace Sqlx

/-! ## The table as the migrator reads it -/

namespace MigrationDb

theorem mem_appliedMigrations {d : MigrationDb} {a : AppliedMigration} :
    a ∈ d.appliedMigrations ↔ ∃ r, d.table.lookup a.version = some r ∧ a.checksum = r.checksum := by
  simp only [appliedMigrations, List.mem_insertionSort, List.mem_map]
  constructor
  · rintro ⟨⟨v, r⟩, he, rfl⟩
    exact ⟨r, AList.mem_lookup_iff.mpr he, rfl⟩
  · rintro ⟨r, hr, hc⟩
    exact ⟨⟨a.version, r⟩, AList.mem_lookup_iff.mp hr, by rw [← hc]⟩

/-- The listed rows have distinct versions: `version` is the primary key. -/
theorem nodup_appliedMigrations_version (d : MigrationDb) :
    (d.appliedMigrations.map (·.version)).Nodup := by
  have hperm := (List.perm_insertionSort (fun a b : AppliedMigration => a.version ≤ b.version)
    (d.table.entries.map fun e => (⟨e.1, e.2.checksum⟩ : AppliedMigration))).map (·.version)
  unfold appliedMigrations
  rw [hperm.nodup_iff, List.map_map]
  exact d.table.nodupKeys

end MigrationDb

/-- In rows of distinct versions, the `HashMap` finds the row of a version. -/
theorem appliedByVersion_eq_some {rows : List AppliedMigration} (hrows : (rows.map (·.version)).Nodup)
    {v : Int} {a : AppliedMigration} : appliedByVersion rows v = some a ↔ a ∈ rows ∧ a.version = v := by
  unfold appliedByVersion
  constructor
  · intro h
    exact ⟨List.mem_reverse.mp (List.mem_of_find?_eq_some h), by simpa using List.find?_some h⟩
  · rintro ⟨ha, rfl⟩
    cases hfind : rows.reverse.find? (·.version == a.version) with
    | none =>
      have := List.find?_eq_none.mp hfind a (List.mem_reverse.mpr ha)
      simp at this
    | some b =>
      have hb : b ∈ rows := List.mem_reverse.mp (List.mem_of_find?_eq_some hfind)
      have hv : b.version = a.version := by simpa using List.find?_some hfind
      rw [List.inj_on_of_nodup_map hrows hb ha hv]

/-- The `HashMap` that the runs build holds, for each version, its row in the
table. -/
theorem appliedByVersion_appliedMigrations (d : MigrationDb) (v : Int) :
    appliedByVersion d.appliedMigrations v = (d.table.lookup v).map fun r => ⟨v, r.checksum⟩ := by
  have hnodup := d.nodup_appliedMigrations_version
  cases hv : d.table.lookup v with
  | none =>
    cases hfind : appliedByVersion d.appliedMigrations v with
    | none => rfl
    | some a =>
      obtain ⟨ha, rfl⟩ := (appliedByVersion_eq_some hnodup).mp hfind
      obtain ⟨r, hr, -⟩ := MigrationDb.mem_appliedMigrations.mp ha
      rw [hv] at hr
      cases hr
  | some r =>
    apply (appliedByVersion_eq_some hnodup).mpr
    exact ⟨MigrationDb.mem_appliedMigrations.mpr ⟨r, hv, rfl⟩, rfl⟩

/-! ## What the runs are for -/

/-- The up-migrations of `ms` whose version the table does not have, in
order: what `run_direct` is to apply. -/
def pendingOf (t : AList (fun _ : Int => MigrationRow)) (ms : List Migration) : List Migration :=
  ms.filter fun m => !m.migrationType.isDownMigration && (t.lookup m.version).isNone

/-- Why the runs refuse to start: the table is dirty, or an applied migration
is missing from the migrator's. -/
def Migrator.Refuses (self : Migrator) (d : MigrationDb) (e : MigrateError) : Prop :=
  (∃ v, d.dirtyVersion = some v ∧ e = .dirty v) ∨
    (d.dirtyVersion = none ∧ validateAppliedMigrations d.appliedMigrations self = .error e)

/-- What `run_direct`'s loop keeps, after the migrations `done`, of the
database `d₁` that the loop started on: the lock as it was, the pending
migrations of `done` applied in order, each still in the table and with
distinct versions, and every applied up-migration of `done` with its
checksum. -/
structure RunDirectInv (d₁ : MigrationDb) (done : List Migration) (d : MigrationDb) : Prop where
  locked : d.locked = d₁.locked
  ran : d.ran = d₁.ran ++ (pendingOf d₁.table done).map .applied
  present : ∀ m ∈ pendingOf d₁.table done, (d.table.lookup m.version).isSome
  nodup : ((pendingOf d₁.table done).map (·.version)).Nodup
  checksum : ∀ m ∈ done, m.migrationType.isDownMigration = false →
    ∀ r, d₁.table.lookup m.version = some r → r.checksum = m.checksum

theorem RunDirectInv.init (d₁ : MigrationDb) : RunDirectInv d₁ [] d₁ where
  locked := rfl
  ran := by simp [pendingOf]
  present := by simp [pendingOf]
  nodup := by simp [pendingOf]
  checksum := by simp

theorem pendingOf_append_of_skip {t : AList (fun _ : Int => MigrationRow)} {done : List Migration}
    {m : Migration} (h : (!m.migrationType.isDownMigration && (t.lookup m.version).isNone) = false) :
    pendingOf t (done ++ [m]) = pendingOf t done := by
  simp only [pendingOf, List.filter_append, List.filter_singleton, h, cond_false, List.append_nil]

theorem pendingOf_append_of_pending {t : AList (fun _ : Int => MigrationRow)} {done : List Migration}
    {m : Migration} (h : (!m.migrationType.isDownMigration && (t.lookup m.version).isNone) = true) :
    pendingOf t (done ++ [m]) = pendingOf t done ++ [m] := by
  simp only [pendingOf, List.filter_append, List.filter_singleton, h, cond_true]

namespace Migrator

variable {C : Type} {conn : Migrate C} {db : C → MigrationDb} {self : Migrator} {s s' : C}

theorem refuseDirty_ok {version : Option Int}
    (h : (refuseDirty version : EStateM MigrateError C Unit).run s = .ok () s') :
    version = none ∧ s' = s := by
  cases version with
  | none =>
    simp only [refuseDirty, EStateM.run_pure, EStateM.Result.ok.injEq, true_and] at h
    exact ⟨rfl, h.symm⟩
  | some v => cases h

theorem refuseDirty_error {version : Option Int} {e : MigrateError}
    (h : (refuseDirty version : EStateM MigrateError C Unit).run s = .error e s') :
    ∃ v, version = some v ∧ e = .dirty v ∧ s' = s := by
  cases version with
  | none => cases h
  | some v =>
    cases h
    exact ⟨v, rfl, rfl, rfl⟩

section Lawful

variable (hc : conn.Lawful db)
include hc

theorem lockIfLocking_ok (h : (self.lockIfLocking conn).run s = .ok () s') :
    db s' = { db s with locked := self.locking || (db s).locked } := by
  cases hl : self.locking with
  | false =>
    simp only [lockIfLocking, hl, Bool.false_eq_true, if_false, EStateM.run_pure,
      EStateM.Result.ok.injEq, true_and] at h
    subst h
    rfl
  | true =>
    simp only [lockIfLocking, hl, if_true] at h
    exact hc.lock_ok h

theorem unlockIfLocking_error {e : MigrateError} (h : (self.unlockIfLocking conn).run s = .error e s') :
    e.IsExecute := by
  unfold unlockIfLocking at h
  split at h
  · exact hc.unlock_fails _ _ _ h
  · cases h

/-- The lock state that `prepare` leaves. -/
theorem prepare_ok {applied : Int → Option AppliedMigration}
    (h : (self.prepare conn).run s = .ok applied s') :
    db s' = { db s with locked := self.locking || (db s).locked } ∧ (db s).dirtyVersion = none ∧
      validateAppliedMigrations (db s).appliedMigrations self = .ok () ∧
      applied = appliedByVersion (db s).appliedMigrations := by
  unfold prepare at h
  simp only [EStateM.run_bind_eq_ok] at h
  obtain ⟨⟨⟩, s₁, hlock, ⟨⟩, s₂, hensure, v, s₃, hdirty, ⟨⟩, s₄, hrefuse, rows, s₅, hlist, ⟨⟩, s₆,
    hvalid, hpure⟩ := h
  have h₁ := lockIfLocking_ok hc hlock
  have h₂ := hc.ensureMigrationsTable_ok hensure
  obtain ⟨h₃, rfl⟩ := hc.dirtyVersion_ok hdirty
  obtain ⟨hclean, hs₄⟩ := refuseDirty_ok hrefuse
  rw [hs₄] at hlist
  obtain ⟨h₅, rfl⟩ := hc.listAppliedMigrations_ok hlist
  -- every call after the lock left the database as the lock did
  have hd₃ : db s₃ = { db s with locked := self.locking || (db s).locked } := h₃.trans (h₂.trans h₁)
  have happ : (db s₃).appliedMigrations = (db s).appliedMigrations := by rw [hd₃]; rfl
  have hclean' : (db s).dirtyVersion = none := by rw [h₂, h₁] at hclean; exact hclean
  cases hv : validateAppliedMigrations (db s₃).appliedMigrations self with
  | error e =>
    rw [hv] at hvalid
    cases hvalid
  | ok u =>
    rw [hv] at hvalid
    simp only [EStateM.run_ofExcept_ok, EStateM.Result.ok.injEq] at hvalid
    simp only [EStateM.run_pure, EStateM.Result.ok.injEq] at hpure
    rw [← hpure.2, ← hvalid.2, h₅, hd₃, ← happ]
    exact ⟨rfl, hclean', hv, hpure.1.symm⟩

theorem lockIfLocking_error {e : MigrateError} (h : (self.lockIfLocking conn).run s = .error e s') :
    e.IsExecute := by
  unfold lockIfLocking at h
  split at h
  · exact hc.lock_fails _ _ _ h
  · cases h

/-- `prepare` fails in a driver's call, or refuses with the lock taken. -/
theorem prepare_error {e : MigrateError} (h : (self.prepare conn).run s = .error e s') :
    e.IsExecute ∨
      (self.Refuses (db s) e ∧ db s' = { db s with locked := self.locking || (db s).locked }) := by
  unfold prepare at h
  simp only [EStateM.run_bind_eq_error] at h
  rcases h with h | ⟨⟨⟩, s₁, hlock, h | ⟨⟨⟩, s₂, hensure, h | ⟨v, s₃, hdirty, h | ⟨⟨⟩, s₄, hrefuse,
    h | ⟨rows, s₅, hlist, h | ⟨⟨⟩, s₆, hvalid, h⟩⟩⟩⟩⟩⟩
  · exact .inl (lockIfLocking_error hc h)
  · exact .inl (hc.ensureMigrationsTable_fails _ _ _ h)
  · exact .inl (hc.dirtyVersion_fails _ _ _ h)
  all_goals
    have h₁ := lockIfLocking_ok hc hlock
    have h₂ := hc.ensureMigrationsTable_ok hensure
    obtain ⟨h₃, rfl⟩ := hc.dirtyVersion_ok hdirty
    have hd₃ : db s₃ = { db s with locked := self.locking || (db s).locked } := h₃.trans (h₂.trans h₁)
    have hdirty' : (db s₂).dirtyVersion = (db s).dirtyVersion := by rw [h₂, h₁]; rfl
  · -- the table is dirty
    obtain ⟨v, hv, rfl, rfl⟩ := refuseDirty_error h
    exact .inr ⟨.inl ⟨v, hdirty' ▸ hv, rfl⟩, hd₃⟩
  · exact .inl (hc.listAppliedMigrations_fails _ _ _ h)
  · -- an applied migration is missing
    obtain ⟨hclean, hs₄⟩ := refuseDirty_ok hrefuse
    rw [hs₄] at hlist
    obtain ⟨h₅, rfl⟩ := hc.listAppliedMigrations_ok hlist
    have happ : (db s₃).appliedMigrations = (db s).appliedMigrations := by rw [hd₃]; rfl
    cases hv : validateAppliedMigrations (db s₃).appliedMigrations self with
    | error e' =>
      rw [hv] at h
      simp only [EStateM.run_ofExcept_error, EStateM.Result.error.injEq] at h
      rw [← h.1, ← h.2, h₅, hd₃]
      exact .inr ⟨.inr ⟨hdirty' ▸ hclean, happ ▸ hv⟩, rfl⟩
    | ok u =>
      rw [hv] at h
      cases h
  · cases h

/-- **Step lemma.** What one turn of `run_direct`'s loop does when it
succeeds: it skips a down-migration, accepts a version applied with the same
checksum, or applies a version the table does not have. -/
theorem runDirectStep_ok {applied : Int → Option AppliedMigration} {m : Migration}
    (h : (runDirectStep conn applied m).run s = .ok () s') :
    (m.migrationType.isDownMigration = true ∧ s' = s) ∨
      (m.migrationType.isDownMigration = false ∧
        (∃ a, applied m.version = some a ∧ m.checksum = a.checksum) ∧ s' = s) ∨
      (m.migrationType.isDownMigration = false ∧ applied m.version = none ∧
        (db s).table.lookup m.version = none ∧ db s' = (db s).applied m) := by
  unfold runDirectStep at h
  split at h
  · rename_i hdown
    simp only [EStateM.run_pure, EStateM.Result.ok.injEq, true_and] at h
    exact .inl ⟨hdown, h.symm⟩
  · rename_i hdown
    have hup : m.migrationType.isDownMigration = false := by simpa using hdown
    split at h
    · rename_i a ha
      split at h
      · cases h
      · rename_i hsame
        simp only [EStateM.run_pure, EStateM.Result.ok.injEq, true_and] at h
        exact .inr (.inl ⟨hup, ⟨a, ha, by simpa using hsame⟩, h.symm⟩)
    · rename_i ha
      exact .inr (.inr ⟨hup, ha, hc.apply_ok h⟩)

/-- How one turn of `run_direct`'s loop fails: in `apply`, or at a version
applied with another checksum, which leaves the connection as it was. -/
theorem runDirectStep_error {applied : Int → Option AppliedMigration} {m : Migration}
    {e : MigrateError} (h : (runDirectStep conn applied m).run s = .error e s') :
    e.IsExecute ∨
      (m.migrationType.isDownMigration = false ∧
        (∃ a, applied m.version = some a ∧ m.checksum ≠ a.checksum) ∧
        e = .versionMismatch m.version ∧ s' = s) := by
  unfold runDirectStep at h
  split at h
  · cases h
  · rename_i hdown
    have hup : m.migrationType.isDownMigration = false := by simpa using hdown
    split at h
    · rename_i a ha
      split at h
      · rename_i hdiffer
        cases h
        exact .inr ⟨hup, ⟨a, ha, by simpa using hdiffer⟩, rfl, rfl⟩
      · cases h
    · exact .inl (hc.apply_fails _ _ _ _ h)

/-- One turn of the loop keeps `RunDirectInv`. -/
theorem runDirectStep_keeps_inv {d₁ : MigrationDb} {done : List Migration} {m : Migration}
    (hinv : RunDirectInv d₁ done (db s))
    (h : (runDirectStep conn (appliedByVersion d₁.appliedMigrations) m).run s = .ok () s') :
    RunDirectInv d₁ (done ++ [m]) (db s') := by
  rcases runDirectStep_ok hc h with ⟨hdown, rfl⟩ | ⟨hup, ⟨a, ha, hsum⟩, rfl⟩ |
    ⟨hup, hnone, hfresh, hd⟩
  · -- a down-migration is skipped
    have hp : pendingOf d₁.table (done ++ [m]) = pendingOf d₁.table done :=
      pendingOf_append_of_skip (by simp [hdown])
    refine ⟨hinv.locked, hp ▸ hinv.ran, hp ▸ hinv.present, hp ▸ hinv.nodup, ?_⟩
    intro m' hm' hup'
    simp only [List.mem_append, List.mem_singleton] at hm'
    rcases hm' with hm' | rfl
    · exact hinv.checksum m' hm' hup'
    · rw [hdown] at hup'
      cases hup'
  · -- a version applied before, with the same checksum
    rw [appliedByVersion_appliedMigrations, Option.map_eq_some_iff] at ha
    obtain ⟨r, hr, rfl⟩ := ha
    have hp : pendingOf d₁.table (done ++ [m]) = pendingOf d₁.table done :=
      pendingOf_append_of_skip (by simp [hr])
    refine ⟨hinv.locked, hp ▸ hinv.ran, hp ▸ hinv.present, hp ▸ hinv.nodup, ?_⟩
    intro m' hm' hup' r' hr'
    simp only [List.mem_append, List.mem_singleton] at hm'
    rcases hm' with hm' | rfl
    · exact hinv.checksum m' hm' hup' r' hr'
    · rw [hr] at hr'
      cases hr'
      exact hsum.symm
  · -- a pending version is applied
    rw [appliedByVersion_appliedMigrations, Option.map_eq_none_iff] at hnone
    have hp : pendingOf d₁.table (done ++ [m]) = pendingOf d₁.table done ++ [m] :=
      pendingOf_append_of_pending (by simp [hup, hnone])
    rw [hd]
    refine ⟨hinv.locked, ?_, ?_, ?_, ?_⟩
    · simp [MigrationDb.applied, hinv.ran, hp]
    · rw [hp]
      intro m' hm'
      by_cases hv : m'.version = m.version
      · simp only [MigrationDb.applied]
        rw [hv, AList.lookup_insert]
        rfl
      · simp only [List.mem_append, List.mem_singleton] at hm'
        rcases hm' with hm' | rfl
        · simpa [MigrationDb.applied, AList.lookup_insert_ne hv] using hinv.present m' hm'
        · exact absurd rfl hv
    · -- the table did not have the version, so no earlier pending one shares it
      rw [hp, List.map_append, List.nodup_append]
      refine ⟨hinv.nodup, List.nodup_singleton _, ?_⟩
      intro v hv w hw hvw
      simp only [List.map_cons, List.map_nil, List.mem_singleton] at hw
      obtain ⟨m', hm', rfl⟩ := List.mem_map.mp hv
      have hpresent := hinv.present m' hm'
      rw [hvw, hw, hfresh] at hpresent
      cases hpresent
    · intro m' hm' hup' r' hr'
      simp only [List.mem_append, List.mem_singleton] at hm'
      rcases hm' with hm' | rfl
      · exact hinv.checksum m' hm' hup' r' hr'
      · rw [hnone] at hr'
        cases hr'

/-- How `run_direct` fails: in a driver's call; or it refuses to start; or it
meets an up-migration applied with another checksum. In the last two, the
lock is as `prepare` took it. -/
theorem runDirect_error {e : MigrateError} (h : (self.runDirect conn).run s = .error e s') :
    e.IsExecute ∨
      (self.Refuses (db s) e ∧ (db s').locked = (self.locking || (db s).locked)) ∨
      ((∃ m ∈ self.migrations, m.migrationType.isDownMigration = false ∧
          ∃ r, (db s).table.lookup m.version = some r ∧ r.checksum ≠ m.checksum ∧
            e = .versionMismatch m.version) ∧
        (db s').locked = (self.locking || (db s).locked)) := by
  unfold runDirect at h
  rcases EStateM.run_bind_eq_error.mp h with h | ⟨applied, s₁, hprep, h⟩
  · rcases prepare_error hc h with he | ⟨hr, hd⟩
    · exact .inl he
    · exact .inr (.inl ⟨hr, by rw [hd]⟩)
  · obtain ⟨hd₁, -, -, rfl⟩ := prepare_ok hc hprep
    rcases EStateM.run_bind_eq_error.mp h with h | ⟨⟨⟩, s₂, -, h⟩
    · -- the loop stopped at a migration, in a state the invariant holds of
      obtain ⟨pre, m, post, s₂, hms, hinv, hm⟩ := EStateM.forM_error_invariant
        (fun done st => RunDirectInv { db s with locked := self.locking || (db s).locked } done (db st))
        (fun _ _ _ _ hi hm => runDirectStep_keeps_inv hc hi hm) self.migrations []
        (hd₁ ▸ RunDirectInv.init _) h
      rcases runDirectStep_error hc hm with he | ⟨hup, ⟨a, ha, hne⟩, rfl, rfl⟩
      · exact .inl he
      · rw [appliedByVersion_appliedMigrations, Option.map_eq_some_iff] at ha
        obtain ⟨r, hr, rfl⟩ := ha
        exact .inr (.inr ⟨⟨m, by rw [hms]; simp, hup, r, hr, fun h => hne h.symm, rfl⟩, hinv.locked⟩)
    · exact .inl (unlockIfLocking_error hc h)

omit hc in
/-- A table whose version 1 failed: `run_direct` refuses with `Dirty(1)`, and
the lock it took is still held. -/
theorem runDirect_error_of_dirty_table :
    ∃ d, ((⟨[⟨1, .simple, [1]⟩], false, true⟩ : Migrator).runDirect MigrationDb.conn).run
        ⟨(∅ : AList (fun _ : Int => MigrationRow)).insert 1 ⟨[1], false⟩, false, []⟩ = .error (.dirty 1) d ∧
      d.locked = true := by
  obtain ⟨d, hrun⟩ : ∃ d, ((⟨[⟨1, .simple, [1]⟩], false, true⟩ : Migrator).runDirect MigrationDb.conn).run
      ⟨(∅ : AList (fun _ : Int => MigrationRow)).insert 1 ⟨[1], false⟩, false, []⟩ = .error (.dirty 1) d :=
    ⟨_, rfl⟩
  refine ⟨d, hrun, ?_⟩
  rcases runDirect_error MigrationDb.conn_lawful hrun with he | ⟨-, hlocked⟩ | ⟨-, hlocked⟩
  · simp [MigrateError.IsExecute] at he
  · exact hlocked
  · exact hlocked

/-- How `undo` fails: in a driver's call, or it refuses to start, with the
lock as `prepare` took it. -/
theorem undo_error {target : Int} {e : MigrateError} (h : (self.undo conn target).run s = .error e s') :
    e.IsExecute ∨ (self.Refuses (db s) e ∧ (db s').locked = (self.locking || (db s).locked)) := by
  unfold undo at h
  rcases EStateM.run_bind_eq_error.mp h with h | ⟨applied, s₁, -, h⟩
  · rcases prepare_error hc h with he | ⟨hr, hd⟩
    · exact .inl he
    · exact .inr ⟨hr, by rw [hd]⟩
  · rcases EStateM.run_bind_eq_error.mp h with h | ⟨⟨⟩, s₂, -, h⟩
    · -- only a `revert` can fail in the loop
      obtain ⟨-, m, -, s₂, -, -, hm⟩ := EStateM.forM_error_invariant (fun _ _ => True)
        (fun _ _ _ _ _ _ => trivial) _ [] trivial h
      exact .inl (hc.revert_fails m _ _ _ hm)
    · exact .inl (unlockIfLocking_error hc h)

omit hc in
/-- The same table undone: `undo` refuses with `Dirty(1)` and keeps the lock. -/
theorem undo_error_of_dirty_table :
    ∃ d, ((⟨[⟨1, .simple, [1]⟩], false, true⟩ : Migrator).undo MigrationDb.conn 0).run
        ⟨(∅ : AList (fun _ : Int => MigrationRow)).insert 1 ⟨[1], false⟩, false, []⟩ = .error (.dirty 1) d ∧
      d.locked = true := by
  obtain ⟨d, hrun⟩ : ∃ d, ((⟨[⟨1, .simple, [1]⟩], false, true⟩ : Migrator).undo MigrationDb.conn 0).run
      ⟨(∅ : AList (fun _ : Int => MigrationRow)).insert 1 ⟨[1], false⟩, false, []⟩ = .error (.dirty 1) d :=
    ⟨_, rfl⟩
  refine ⟨d, hrun, ?_⟩
  rcases undo_error MigrationDb.conn_lawful hrun with he | ⟨-, hlocked⟩
  · simp [MigrateError.IsExecute] at he
  · exact hlocked

end Lawful

/-- The failing run: version 1 is pending and version 2 was applied with
another checksum. `run_direct` applies 1, returns `VersionMismatch(2)`, and
the lock is still held. -/
theorem runDirect_mismatch_keeps_lock :
    ∃ d, ((⟨[⟨1, .simple, [1]⟩, ⟨2, .simple, [2]⟩], false, true⟩ : Migrator).runDirect
        MigrationDb.conn).run ⟨(∅ : AList (fun _ : Int => MigrationRow)).insert 2 ⟨[3], true⟩, false, []⟩ =
        .error (.versionMismatch 2) d ∧ d.locked = true ∧ d.ran = [.applied ⟨1, .simple, [1]⟩] :=
  ⟨_, rfl, rfl, rfl⟩

end Migrator

end Sqlx
