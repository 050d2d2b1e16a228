import Sqlx.Postgres.ConnectionSync

/-!
# Postgres — every operation of the executor keeps the account

The operations of `connection/executor.rs` over `ConnectionSync`'s rules.
The type lookups keep `Synced` whatever they run, as long as the queries
they make do (`KeepsSynced`). An operation that reads in line (`prepare`,
the closes of `get_or_prepare` and `clear_cached_statements`) first waits
until nothing is owed, so that what it reads after its flush is exactly the
server's answer to what it wrote: `ParseAnswer` for a `Parse` group, a
`CloseComplete` for each `Close` then a `ReadyForQuery`. Its readers that do
not count then never meet a `ReadyForQuery`. `run` leaves one group owed
and the session flushed, and its stream reads that group's answer to the
end. Every operation that completes leaves the session quiescent, except
`queue_simple_query`, which leaves its query owed.
-/

namespace Sqlx.Postgres

open Wire EStateM PgStream PgConnection

variable {σ : Type} {db : Database σ}

/-! ## Changes that leave the account alone -/

/-- Two sessions with the same socket, account and server. -/
structure SameAccount (s s' : Session σ) : Prop where
  inbox : s'.conn.inbox = s.conn.inbox
  writeBuffer : s'.conn.writeBuffer = s.conn.writeBuffer
  pending : s'.conn.pendingReadyForQueryCount = s.conn.pendingReadyForQueryCount
  status : s'.conn.transactionStatus = s.conn.transactionStatus
  server : s'.server = s.server

/-- A cache entry written by a lookup leaves the account alone. -/
theorem sameAccount_conn (s : Session σ) (c : PgConnection) (hin : c.inbox = s.conn.inbox)
    (hbuf : c.writeBuffer = s.conn.writeBuffer) (hpending : c.pendingReadyForQueryCount = s.conn.pendingReadyForQueryCount)
    (hstatus : c.transactionStatus = s.conn.transactionStatus) : SameAccount s { s with conn := c } :=
  ⟨hin, hbuf, hpending, hstatus, rfl⟩

theorem Synced.same {s s' : Session σ} (h : Synced db s) (hs : SameAccount s s') : Synced db s' := by
  obtain ⟨hin, hbuf, hpending, hstatus, hserver⟩ := hs
  obtain ⟨hg, hc, hwf, hst, hidle⟩ := h
  exact ⟨hbuf ▸ hg, by rw [hpending, hin, hbuf]; exact hc, hin ▸ hwf, by rw [hin, hstatus, hserver]; exact hst,
    hserver ▸ hidle⟩

theorem Flushed.same {s s' : Session σ} (h : Flushed db s) (hs : SameAccount s s') : Flushed db s' :=
  ⟨h.synced.same hs, hs.writeBuffer.trans h.flushed⟩

theorem Quiescent.same {s s' : Session σ} (h : Quiescent db s) (hs : SameAccount s s') : Quiescent db s' :=
  ⟨h.synced.same hs, hs.pending.trans h.none_owed⟩

/-! ## Computations that keep the account -/

section Keeps

variable (db) in
/-- From a synced session, a computation ends synced, and never blocks. -/
def KeepsSynced {α : Type} (x : SessionM σ α) : Prop := Triple (Synced db) x (fun _ => Synced db) (Safe db)

variable {α β : Type} {x : SessionM σ α} {f : α → SessionM σ β}

theorem KeepsSynced.bind (hx : KeepsSynced db x) (hf : ∀ a, KeepsSynced db (f a)) : KeepsSynced db (x >>= f) :=
  Triple.bind hx hf

theorem keepsSynced_pure (a : α) : KeepsSynced db (pure a : SessionM σ α) := Triple.pure' fun _ h => h

theorem keepsSynced_throw {e : Failure} (he : e ≠ .blocked) : KeepsSynced db (throw e : SessionM σ α) :=
  Triple.throw' fun _ h => ⟨he, h⟩

theorem keepsSynced_get_bind {f : Session σ → SessionM σ β} (hf : ∀ s, KeepsSynced db (f s)) :
    KeepsSynced db (get >>= f) :=
  Triple.bind Triple.get' fun s => (hf s).mono (fun _ h => h.1) (fun _ _ h => h) (fun _ _ h => h)

theorem keepsSynced_modifyConn {g : PgConnection → PgConnection}
    (hg : ∀ s : Session σ, SameAccount s { s with conn := g s.conn }) : KeepsSynced db (modifyConn g) :=
  triple_modifyConn fun s h => h.same (hg s)

theorem keepsSynced_liftDecode (x : Option (Except Error α)) : KeepsSynced db (liftDecode x) :=
  triple_liftDecode_safe (fun _ h => h) fun _ _ _ h => h

theorem KeepsSynced.waitUntilReady : KeepsSynced db (waitUntilReady db) :=
  triple_waitUntilReady.mono (fun _ h => h) (fun _ _ h => h.synced) (fun _ _ h => h)

end Keeps

/-! ## The type lookups -/

section Lookups

variable {lookup : SessionM σ Unit} (hlookup : KeepsSynced db lookup)
include hlookup

theorem keepsSynced_fetchTypeIdByName (name : String) : KeepsSynced db (fetchTypeIdByName db lookup name) := by
  refine keepsSynced_get_bind fun s => ?_
  split
  · exact keepsSynced_pure _
  · refine hlookup.bind fun _ => ?_
    split
    · exact keepsSynced_throw (by simp)
    · exact (keepsSynced_modifyConn fun s => sameAccount_conn s _ rfl rfl rfl rfl).bind fun _ => keepsSynced_pure _

theorem keepsSynced_fetchArrayTypeId (array : PgArrayOf) : KeepsSynced db (fetchArrayTypeId db lookup array) := by
  refine keepsSynced_get_bind fun s => ?_
  dsimp only
  split
  · exact keepsSynced_pure _
  · refine hlookup.bind fun _ => ?_
    split
    · exact keepsSynced_throw (by simp)
    · exact (keepsSynced_modifyConn fun s => sameAccount_conn s _ rfl rfl rfl rfl).bind fun _ => keepsSynced_pure _

theorem keepsSynced_resolveTypeIds : ∀ tys : List PgTypeInfo, KeepsSynced db (resolveTypeIds db lookup tys)
  | [] => keepsSynced_pure _
  | ty :: tys => by
    refine KeepsSynced.bind ?_ fun _ => (keepsSynced_resolveTypeIds tys).bind fun _ => keepsSynced_pure _
    cases ty with
    | withOid oid => exact keepsSynced_pure _
    | declareWithName name => exact keepsSynced_fetchTypeIdByName hlookup name
    | declareArrayOf array => exact keepsSynced_fetchArrayTypeId hlookup array

theorem keepsSynced_maybeFetchTypeInfoByOid (oid : Nat) (shouldFetch : Bool) :
    KeepsSynced db (maybeFetchTypeInfoByOid lookup oid shouldFetch) := by
  unfold maybeFetchTypeInfoByOid
  split
  · exact keepsSynced_pure _
  · refine keepsSynced_get_bind fun s => ?_
    split
    · exact keepsSynced_pure _
    · split
      · exact hlookup.bind fun _ =>
          (keepsSynced_modifyConn fun s => sameAccount_conn s _ rfl rfl rfl rfl).bind fun _ => keepsSynced_pure _
      · exact keepsSynced_pure _

theorem keepsSynced_handleFields (shouldFetch : Bool) :
    ∀ (index : Nat) (fields : List Field) (acc : List PgColumn × List (List UInt8 × Nat)),
      KeepsSynced db (handleFields lookup shouldFetch index fields acc)
  | _, [], _ => keepsSynced_pure _
  | _, _ :: fields, _ =>
    (keepsSynced_maybeFetchTypeInfoByOid hlookup _ _).bind fun _ => keepsSynced_handleFields shouldFetch _ fields _

theorem keepsSynced_handleRowDescription (desc : Option (List Field)) (shouldFetch : Bool) :
    KeepsSynced db (handleRowDescription lookup desc shouldFetch) := by
  cases desc with
  | none => exact keepsSynced_pure _
  | some fields => exact keepsSynced_handleFields hlookup shouldFetch 0 fields _

theorem keepsSynced_handleParameterDescription :
    ∀ tys : List Nat, KeepsSynced db (handleParameterDescription lookup tys)
  | [] => keepsSynced_pure _
  | _ :: tys => (keepsSynced_maybeFetchTypeInfoByOid hlookup _ _).bind fun _ =>
    (keepsSynced_handleParameterDescription tys).bind fun _ => keepsSynced_pure _

omit hlookup in
theorem keepsSynced_checkPatches (parameters : List PgTypeInfo) (len : Nat) :
    ∀ patches : List Patch, KeepsSynced db (checkPatches parameters len patches : SessionM σ Unit)
  | [] => keepsSynced_pure _
  | _ :: patches => by
    unfold checkPatches
    split
    · exact keepsSynced_checkPatches parameters len patches
    · exact keepsSynced_throw (by simp)

theorem keepsSynced_fillTypeHoles : ∀ (holes : List (Nat × HoleKind)) (buffer : List UInt8),
    KeepsSynced db (fillTypeHoles db lookup holes buffer)
  | [], _ => keepsSynced_pure _
  | (offset, kind) :: holes, buffer => by
    unfold fillTypeHoles
    -- both kinds of hole look the OID up, then write it in
    have hwrite : ∀ oid : Nat, KeepsSynced db (if offset + 4 ≤ buffer.length then
        fillTypeHoles db lookup holes (overwrite buffer offset (beBytes 4 oid)) else throw .panic) :=
      fun _ => by
        split
        · exact keepsSynced_fillTypeHoles holes _
        · exact keepsSynced_throw (by simp)
    cases kind with
    | type name => exact (keepsSynced_fetchTypeIdByName hlookup name).bind hwrite
    | array array => exact (keepsSynced_fetchArrayTypeId hlookup array).bind hwrite

theorem keepsSynced_applyPatches (arguments : PgArguments) (parameters : List PgTypeInfo) :
    KeepsSynced db (applyPatches db lookup arguments parameters) :=
  (keepsSynced_checkPatches _ _ _).bind fun _ => (keepsSynced_fillTypeHoles hlookup _ _).bind fun _ =>
    keepsSynced_pure _

end Lookups

/-! ## Writing a group from quiescence -/

section Writes

variable (db) in
/-- Nothing owed and nothing on the socket, and `g` written since: what an
operation has between its `wait_until_ready` and its `Sync`. -/
structure Writing (g : List Frontend) (s : Session σ) : Prop where
  inbox : s.conn.inbox = []
  writeBuffer : s.conn.writeBuffer = g
  none_owed : s.conn.pendingReadyForQueryCount = 0
  status : s.conn.transactionStatus = db.status s.server
  idle : db.failed s.server = false

variable (db) in
/-- The group `g` written with nothing else owed, about to be flushed. -/
structure Sending (g : List Frontend) (s : Session σ) : Prop where
  synced : Synced db s
  inbox : s.conn.inbox = []
  writeBuffer : s.conn.writeBuffer = g

theorem Quiescent.writing {s : Session σ} (h : Quiescent db s) : Writing db [] s := by
  obtain ⟨hin, hbuf, hst⟩ := h.empty
  exact ⟨hin, hbuf, h.none_owed, hst, h.synced.idle⟩

theorem Writing.quiescent {s : Session σ} (h : Writing db [] s) : Quiescent db s :=
  Quiescent.of_empty h.inbox h.writeBuffer h.none_owed h.status h.idle

theorem Writing.same {g : List Frontend} {s s' : Session σ} (h : Writing db g s) (hs : SameAccount s s') :
    Writing db g s' :=
  ⟨hs.inbox.trans h.inbox, hs.writeBuffer.trans h.writeBuffer, hs.pending.trans h.none_owed,
    by rw [hs.status, hs.server]; exact h.status, hs.server ▸ h.idle⟩

theorem Sending.pending {g : List Frontend} {s : Session σ} (h : Sending db g s) :
    s.conn.pendingReadyForQueryCount = groupCount g := by
  rw [h.synced.count, h.inbox, h.writeBuffer]
  simp [readyCount]

theorem triple_writeMsg {g : List Frontend} {m : Frontend} {R : Failure → Session σ → Prop} :
    Triple (Writing db g) (writeMsg m) (fun _ => Writing db (g ++ [m])) R :=
  triple_modifyConn fun _ h => ⟨h.inbox, by simp [h.writeBuffer], h.none_owed, h.status, h.idle⟩

/-- A whole group written from quiescence, and counted. -/
theorem Writing.count {g : List Frontend} {s : Session σ} (h : Writing db g s) (hg : Groups g)
    (hc : groupCount g = 1) :
    Sending db g { s with conn := { s.conn with
      pendingReadyForQueryCount := s.conn.pendingReadyForQueryCount + 1 } } := by
  refine ⟨⟨h.writeBuffer ▸ hg, ?_, ?_, .inl ⟨h.inbox, h.status⟩, h.idle⟩, h.inbox, h.writeBuffer⟩
  · simp [h.writeBuffer, h.inbox, h.none_owed, hc, readyCount]
  · rw [h.inbox]
    exact fun _ hm => absurd hm List.not_mem_nil

/-- `write_sync` closes the group and counts it. -/
theorem triple_writeSync {g : List Frontend} (hg : ∀ m ∈ g, m.endsGroup = false) {R : Failure → Session σ → Prop} :
    Triple (Writing db g) writeSync (fun _ => Sending db (g ++ [.sync])) R :=
  Triple.bind triple_writeMsg fun _ => triple_modifyConn fun _ h => h.count (Groups.closed hg) (groupCount_closed hg)

/-- The flush of a group written from quiescence: what is then on the socket
is the server's answer to it. -/
theorem triple_flush_sending {g : List Frontend} :
    Triple (Sending db g) (PgStream.flush db)
      (fun _ s => Flushed db s ∧ s.conn.pendingReadyForQueryCount = groupCount g ∧
        ∃ srv : σ, db.failed srv = false ∧ s.conn.inbox = (db.deliver srv g).1) (Safe db) := by
  refine triple_flush db (fun s n h => ⟨⟨h.synced.deliver.wait n, rfl⟩, h.pending, s.server, h.synced.idle, ?_⟩)
    fun s h => ⟨by simp, h.synced.deliver⟩
  simp [Session.deliver, h.inbox, h.writeBuffer]

end Writes

/-! ## `prepare` -/

section Prepare

variable {lookup : SessionM σ Unit} (hlookup : KeepsSynced db lookup)

theorem writeParse_run (id : StatementId) (sql : String) (paramTypes : List Nat) (describe : Bool) (s : Session σ) :
    (writeParse id sql paramTypes describe).run s =
      .ok () { s with conn := { s.conn with
        writeBuffer := s.conn.writeBuffer ++ parseGroup id sql paramTypes describe
        pendingReadyForQueryCount := s.conn.pendingReadyForQueryCount + 1 } } := by
  cases describe <;> simp [writeParse, writeSync, writeMsg, modifyConn, parseGroup]

/-- `Parse`, `Describe` and `Sync` written from quiescence. -/
theorem triple_writeParse (id : StatementId) (sql : String) (paramTypes : List Nat) (describe : Bool)
    {R : Failure → Session σ → Prop} :
    Triple (Quiescent db) (writeParse id sql paramTypes describe) (fun _ => Sending db (parseGroup id sql paramTypes describe)) R := by
  refine Triple.of_run (writeParse_run id sql paramTypes describe) fun s h => ?_
  obtain ⟨hin, hbuf, -⟩ := h.empty
  have hw := h.synced.write (groups_parseGroup id sql paramTypes describe)
  rw [groupCount_parseGroup] at hw
  exact ⟨hw, hin, by simp [hbuf]⟩

/-- `ParseComplete`, or the error of the `Parse`. -/
theorem triple_recvExpect_parseComplete {describe : Bool} :
    Triple (fun s => Flushed db s ∧ s.conn.pendingReadyForQueryCount = 1 ∧ ParseAnswer describe s.conn.inbox)
      (recvExpect .parseComplete fun _ => some (.ok ()))
      (fun _ s => Flushed db s ∧ s.conn.pendingReadyForQueryCount = 1 ∧ DescribeAnswer describe s.conn.inbox)
      (Safe db) := by
  refine Triple.of_each fun s₀ ⟨h, hcount, hans⟩ => ?_
  generalize hin : s₀.conn.inbox = inbox at hans
  cases hans with
  | error fields status =>
    -- the server's error ends the operation there
    exact Triple.bind (triple_recv_error (Q := fun _ _ => False) h hin) fun _ => Triple.of_false
  | @parsed rest hrest =>
    refine (triple_recvExpect_head h hin (by simp [ReceivedMessage.Skipped]) rfl).mono (fun _ h => h) ?_
      (fun _ _ h => h)
    rintro _ _ ⟨-, n, rfl⟩
    exact ⟨h.after_head hin rfl n, hcount, hrest⟩

/-- The `ParameterDescription` of a described statement. -/
theorem triple_recvExpect_parameterDescription :
    Triple (fun s => Flushed db s ∧ s.conn.pendingReadyForQueryCount = 1 ∧ DescribeAnswer true s.conn.inbox)
      (recvExpect .parameterDescription ParameterDescription.decodeBody)
      (fun _ s => Flushed db s ∧ s.conn.pendingReadyForQueryCount = 1 ∧ ∃ rows status,
        s.conn.inbox = [rows, readyForQuery status] ∧ (rows.format = .rowDescription ∨ rows.format = .noData))
      (Safe db) := by
  refine Triple.of_each fun s₀ ⟨h, hcount, hans⟩ => ?_
  generalize hin : s₀.conn.inbox = inbox at hans
  cases hans with
  | described parameters rows status hrows =>
    refine (triple_recvExpect_head h hin (by simp [ReceivedMessage.Skipped]) rfl).mono (fun _ h => h) ?_
      (fun _ _ h => h)
    rintro _ _ ⟨-, n, rfl⟩
    exact ⟨h.after_head hin rfl n, hcount, rows, status, rfl, hrows⟩

/-- `recv_desc_rows` on the `RowDescription` or `NoData` of a described statement. -/
theorem triple_recvDescRows :
    Triple (fun s => Flushed db s ∧ s.conn.pendingReadyForQueryCount = 1 ∧ ∃ rows status,
        s.conn.inbox = [rows, readyForQuery status] ∧ (rows.format = .rowDescription ∨ rows.format = .noData))
      recvDescRows (fun _ s => Flushed db s ∧ s.conn.pendingReadyForQueryCount = 1) (Safe db) := by
  refine Triple.of_each fun s₀ ⟨h, hcount, rows, status, hin, hrows⟩ => ?_
  have hskip : ¬rows.Skipped := by
    rcases hrows with hr | hr <;> simp [ReceivedMessage.Skipped, hr]
  have hready : rows.isReady = false := by
    rcases hrows with hr | hr <;> simp [ReceivedMessage.isReady, hr]
  -- every way on leaves the `ReadyForQuery` in front
  have hafter : ∀ n, Flushed db (s₀.after [readyForQuery status] n) ∧
      (s₀.after [readyForQuery status] n).conn.pendingReadyForQueryCount = 1 :=
    fun n => ⟨h.after_head hin hready n, hcount⟩
  unfold recvDescRows
  refine Triple.bind (triple_recv_head h hin hskip) fun m => ?_
  split
  · refine Triple.map' (triple_liftDecode_safe ?_ ?_)
    · rintro s ⟨rfl, n, rfl⟩
      exact (hafter n).1.synced
    · rintro a - s ⟨rfl, n, rfl⟩
      exact hafter n
  · split
    · refine Triple.pure' ?_
      rintro _ ⟨-, n, rfl⟩
      exact hafter n
    · refine Triple.throw' ?_
      rintro _ ⟨-, n, rfl⟩
      exact ⟨by simp, (hafter n).1.synced⟩

include hlookup in
/-- **`prepare`** from a synced session: quiescent, or stopped short with
the account kept. -/
theorem triple_prepare (sql : String) (parameters : List PgTypeInfo) (metadata : Option PgStatementMetadata) :
    Triple (Synced db) (prepare db lookup sql parameters metadata) (fun _ => Quiescent db) (Safe db) := by
  unfold prepare
  refine Triple.bind Triple.get' fun s₀ => ?_
  dsimp only
  refine Triple.bind (triple_modifyConn (Q := fun _ => Synced db) fun s hs => hs.1.same ⟨rfl, rfl, rfl, rfl, rfl⟩)
    fun _ => ?_
  refine Triple.bind (keepsSynced_resolveTypeIds hlookup parameters) fun paramTypes => ?_
  refine Triple.bind triple_waitUntilReady fun _ => ?_
  refine Triple.bind (triple_writeParse _ sql paramTypes _) fun _ => ?_
  refine Triple.bind triple_flush_sending fun _ => ?_
  -- what is on the socket is the answer to the `Parse` group
  refine Triple.bind (triple_recvExpect_parseComplete.mono
    (fun s ⟨h, hcount, srv, hidle, hin⟩ => ⟨h, hcount ▸ groupCount_parseGroup .., hin ▸
      db.deliver_parseGroup srv hidle ..⟩) (fun _ _ h => h) (fun _ _ h => h)) fun _ => ?_
  cases metadata with
  | some metadata =>
    -- nothing described: the `ReadyForQuery` is next
    refine Triple.bind (triple_recvReadyForQuery 0 |>.mono (fun s h => ⟨h.1, h.2.1⟩) (fun _ _ h => h)
      (fun _ _ h => h)) fun _ => Triple.pure' fun _ h => ⟨h.1.synced, h.2⟩
  | none =>
    refine Triple.bind triple_recvExpect_parameterDescription fun parameters => ?_
    refine Triple.bind triple_recvDescRows fun rows => ?_
    refine Triple.bind (triple_recvReadyForQuery 0) fun _ => ?_
    refine Triple.bind ((keepsSynced_handleParameterDescription hlookup parameters).mono (fun _ h => h.1.synced)
      (fun _ _ h => h) (fun _ _ h => h)) fun parameters => ?_
    refine Triple.bind (keepsSynced_handleRowDescription hlookup rows true) fun columns => ?_
    exact Triple.bind triple_waitUntilReady fun _ => Triple.pure' fun _ h => h

end Prepare

/-! ## Closing statements -/

section Close

/-- `wait_for_close_complete` with a `CloseComplete` in front for each it
waits for: the rest left. -/
theorem triple_waitForCloseComplete {rest : List ReceivedMessage} {count : Nat} (k : Nat) :
    Triple (fun s => Flushed db s ∧ s.conn.pendingReadyForQueryCount = count ∧
        s.conn.inbox = List.replicate k ⟨.closeComplete, []⟩ ++ rest) (waitForCloseComplete k)
      (fun _ s => Flushed db s ∧ s.conn.pendingReadyForQueryCount = count ∧ s.conn.inbox = rest) (Safe db) := by
  unfold waitForCloseComplete
  refine Triple.loopUntil (I := fun c s => Flushed db s ∧ s.conn.pendingReadyForQueryCount = count ∧
    s.conn.inbox = List.replicate c ⟨.closeComplete, []⟩ ++ rest) (fun c => ?_) k
  unfold closeTurn
  split
  · -- one more `CloseComplete` in front
    rename_i hpos
    obtain ⟨c, rfl⟩ : ∃ c', c = c' + 1 := ⟨c - 1, by omega⟩
    refine Triple.of_each fun s₀ ⟨h, hcount, hin⟩ => ?_
    rw [List.replicate_succ, List.cons_append] at hin
    refine Triple.bind (triple_recv_head h hin (by simp [ReceivedMessage.Skipped])) fun m => ?_
    split
    · rename_i hm
      refine Triple.pure' ?_
      rintro s ⟨rfl, -⟩
      cases hm
    · split
      · refine Triple.pure' ?_
        rintro s ⟨rfl, n, rfl⟩
        exact ⟨h.after_head hin rfl n, hcount, rfl⟩
      · rename_i hm
        refine Triple.throw' ?_
        rintro s ⟨rfl, -⟩
        exact absurd rfl hm
  · rename_i hzero
    refine Triple.pure' ?_
    rintro s ⟨h, hcount, hin⟩
    obtain rfl : c = 0 := by omega
    exact ⟨h, hcount, hin⟩

/-- The answer to `Close`s and a `Sync` read back: a `CloseComplete` for
each, then the `ReadyForQuery`. -/
theorem triple_readCloses (ids : List StatementId) :
    Triple (fun s => Flushed db s ∧ s.conn.pendingReadyForQueryCount = 1 ∧ ∃ srv : σ, db.failed srv = false ∧
        s.conn.inbox = (db.deliver srv (ids.map .closeStatement ++ [.sync])).1)
      (do waitForCloseComplete ids.length; recvReadyForQuery) (fun _ => Quiescent db) (Safe db) := by
  refine Triple.of_each fun s₀ ⟨h, hcount, srv, hidle, hin⟩ => ?_
  rw [db.deliver_closes srv hidle] at hin
  refine Triple.bind ((triple_waitForCloseComplete ids.length).mono
    (fun _ hs => by subst hs; exact ⟨h, hcount, hin⟩) (fun _ _ h => h) (fun _ _ h => h)) fun _ => ?_
  exact (triple_recvReadyForQuery 0).mono (fun _ h => ⟨h.1, h.2.1⟩) (fun _ s h => ⟨h.1.synced, h.2⟩)
    (fun _ _ h => h)

/-- **`close_evicted`** of `get_or_prepare`, from quiescence. -/
theorem triple_closeEvicted (id : StatementId) :
    Triple (Quiescent db) (closeEvicted db id) (fun _ => Quiescent db) (Safe db) := by
  unfold closeEvicted
  refine Triple.bind (triple_writeMsg.mono (fun _ h => h.writing) (fun _ _ h => h) (fun _ _ h => h)) fun _ => ?_
  refine Triple.bind (triple_writeSync (by simp [Frontend.endsGroup])) fun _ => ?_
  refine Triple.bind triple_flush_sending fun _ => ?_
  refine (triple_readCloses [id]).mono ?_ (fun _ _ h => h) (fun _ _ h => h)
  rintro _ ⟨h, hcount, hsrv⟩
  exact ⟨h, hcount, by simpa using hsrv⟩

/-- The loop of `clear_cached_statements` writes a `Close` for each
statement it takes out of the cache, and counts them. -/
theorem triple_closeCachedStatements {R : Failure → Session σ → Prop} :
    ∀ (n : Nat) (g : List Frontend), Triple (Writing db g) (closeCachedStatements n)
      (fun cleared s => ∃ ids : List StatementId, ids.length = cleared ∧
        Writing db (g ++ ids.map .closeStatement) s) R
  | 0, _ => Triple.pure' fun _ h => ⟨[], rfl, by simpa using h⟩
  | n + 1, g => by
    unfold closeCachedStatements
    refine Triple.bind Triple.get' fun s₀ => ?_
    split
    · refine Triple.bind (triple_modifyConn (Q := fun _ => Writing db g) ?_) fun _ =>
        Triple.pure' fun _ h => ⟨[], rfl, by simpa using h⟩
      exact fun s hs => hs.1.same ⟨rfl, rfl, rfl, rfl, rfl⟩
    · rename_i id _ cache _
      refine Triple.bind (triple_modifyConn (Q := fun _ => Writing db g) ?_) fun _ => ?_
      · exact fun s hs => hs.1.same ⟨rfl, rfl, rfl, rfl, rfl⟩
      refine Triple.bind triple_writeMsg fun _ => ?_
      refine Triple.bind (triple_closeCachedStatements n _) fun cleared => Triple.pure' ?_
      rintro s ⟨ids, rfl, h⟩
      exact ⟨id :: ids, rfl, by simpa using h⟩

/-- **`clear_cached_statements`**, from a synced session. -/
theorem triple_clearCachedStatements :
    Triple (Synced db) (clearCachedStatements db) (fun _ => Quiescent db) (Safe db) := by
  unfold clearCachedStatements
  refine Triple.bind (triple_modifyConn (Q := fun _ => Synced db) fun s hs => hs.same ⟨rfl, rfl, rfl, rfl, rfl⟩)
    fun _ => ?_
  refine Triple.bind triple_waitUntilReady fun _ => Triple.bind Triple.get' fun s₀ => ?_
  refine Triple.bind ((triple_closeCachedStatements _ []).mono (fun _ h => h.1.writing) (fun _ _ h => h)
    (fun _ _ h => h)) fun cleared => ?_
  refine Triple.of_each fun s₁ ⟨ids, hlen, h⟩ => ?_
  split
  · -- one `Sync` for all the closes, then their answer
    refine Triple.bind ((triple_writeSync (g := [] ++ ids.map .closeStatement) (by simp [Frontend.endsGroup])).mono
      (fun _ hs => by subst hs; exact h) (fun _ _ h => h) (fun _ _ h => h)) fun _ => ?_
    refine Triple.bind triple_flush_sending fun _ => ?_
    rw [← hlen]
    have hclosed : groupCount (ids.map .closeStatement ++ [.sync]) = 1 :=
      groupCount_closed (by simp [Frontend.endsGroup])
    refine (triple_readCloses ids).mono ?_ (fun _ _ h => h) (fun _ _ h => h)
    rintro _ ⟨h, hcount, hsrv⟩
    exact ⟨h, by rw [hcount]; simpa using hclosed, by simpa using hsrv⟩
  · rename_i hzero
    obtain rfl : ids = [] := List.length_eq_zero_iff.1 (by omega)
    exact Triple.pure' fun _ hs => by subst hs; exact h.quiescent

end Close

/-! ## The statement cache -/

section Cache

variable {lookup : SessionM σ Unit} (hlookup : KeepsSynced db lookup)

/-- The end of `get_or_prepare`, from quiescence. -/
theorem triple_storeStatement (sql : String) (statement : StatementId × PgStatementMetadata) (storeToCache : Bool) :
    Triple (Quiescent db) (storeStatement db sql statement storeToCache) (fun _ => Quiescent db) (Safe db) := by
  unfold storeStatement
  refine Triple.bind Triple.get' fun s₀ => ?_
  split
  · refine Triple.bind Triple.get' fun s₁ => ?_
    dsimp only
    -- the cache gave up a statement, or not
    split
    all_goals refine Triple.bind (triple_modifyConn (Q := fun _ => Quiescent db) fun s hs => hs.1.1.same
      ⟨rfl, rfl, rfl, rfl, rfl⟩) fun _ => ?_
    · exact triple_closeEvicted _
    · exact Triple.pure' fun _ h => h
  · exact Triple.pure' fun _ h => h.1

include hlookup in
/-- **`get_or_prepare`**, from quiescence. -/
theorem triple_getOrPrepare (sql : String) (parameters : List PgTypeInfo) (storeToCache : Bool)
    (metadata : Option PgStatementMetadata) :
    Triple (Quiescent db) (getOrPrepare db lookup sql parameters storeToCache metadata) (fun _ => Quiescent db)
      (Safe db) := by
  unfold getOrPrepare
  refine Triple.bind Triple.get' fun s₀ => ?_
  dsimp only
  -- in the cache, or prepared and stored
  split
  all_goals refine Triple.bind (triple_modifyConn (Q := fun _ => Quiescent db) fun s hs => hs.1.same
    ⟨rfl, rfl, rfl, rfl, rfl⟩) fun _ => ?_
  · exact Triple.pure' fun _ h => h
  · refine Triple.bind ((triple_prepare hlookup sql parameters metadata).mono (fun _ h => h.synced) (fun _ _ h => h)
      (fun _ _ h => h)) fun statement => ?_
    exact Triple.bind (triple_storeStatement _ _ _) fun _ => Triple.pure' fun _ h => h

end Cache

/-! ## Running a query -/

section Run

variable {lookup : SessionM σ Unit} (hlookup : KeepsSynced db lookup)

include hlookup in
/-- **`run`** from a synced session: its one group flushed and owed. -/
theorem triple_run (query : String) (arguments : Option PgArguments) (limit : Nat) (persistent : Bool)
    (metadataOpt : Option PgStatementMetadata) :
    Triple (Synced db) (PgConnection.run db lookup query arguments limit persistent metadataOpt)
      (fun _ s => Flushed db s ∧ s.conn.pendingReadyForQueryCount = 1) (Safe db) := by
  unfold PgConnection.run
  refine Triple.bind triple_waitUntilReady fun _ => ?_
  -- where the two ways of writing join: the flush of the one group written
  have hflush : ∀ prepared : PgValueFormat × PgStatementMetadata,
      Triple (fun s => ∃ g, Sending db g s ∧ groupCount g = 1) (PgStream.flush db >>= fun _ => pure prepared)
        (fun _ s => Flushed db s ∧ s.conn.pendingReadyForQueryCount = 1) (Safe db) := by
    intro prepared
    refine Triple.of_each fun s₀ ⟨g, h, hg⟩ => ?_
    exact Triple.bind (triple_flush_sending.mono (fun _ hs => by subst hs; exact h) (fun _ _ h => h)
      (fun _ _ h => h)) fun _ => Triple.pure' fun _ h => ⟨h.1, h.2.1.trans hg⟩
  dsimp only
  cases arguments with
  | some arguments =>
    refine Triple.ite (fun _ => Triple.bind (Triple.throw' (Q := fun _ _ => False) fun _ h => ⟨by simp, h.synced⟩)
      fun _ => Triple.of_false) fun _ => ?_
    refine Triple.bind (triple_getOrPrepare hlookup _ _ _ _) fun statement => ?_
    obtain ⟨statement, metadata⟩ := statement
    refine Triple.bind ((keepsSynced_applyPatches hlookup _ _).mono (fun _ h => h.synced) (fun _ _ h => h)
      (fun _ _ h => h)) fun arguments => ?_
    refine Triple.bind triple_waitUntilReady fun _ => ?_
    -- `Bind`, `Execute`, `Close` of the portal and `Sync`: one group
    refine Triple.bind (triple_writeMsg.mono (fun _ h => h.writing) (fun _ _ h => h) (fun _ _ h => h)) fun _ => ?_
    refine Triple.bind triple_writeMsg fun _ => Triple.bind triple_writeMsg fun _ => ?_
    refine Triple.bind (triple_writeSync (by simp [Frontend.endsGroup])) fun _ => Triple.bind (Triple.pure' fun _ h =>
      ⟨_, h, groupCount_closed (by simp [Frontend.endsGroup])⟩) hflush
  | none =>
    -- one simple `Query`
    refine Triple.bind (triple_writeMsg.mono (fun _ h => h.writing) (fun _ _ h => h) (fun _ _ h => h)) fun _ => ?_
    exact Triple.bind (triple_modifyConn fun _ h => h.count (.query query .nil) rfl) fun _ =>
      Triple.bind (Triple.pure' fun _ h => ⟨_, h, rfl⟩) hflush

/-- `maybe_fetch_type_info_by_oid` without fetching changes nothing. -/
theorem triple_maybeFetchTypeInfoByOid_false {P : Session σ → Prop} {R : Failure → Session σ → Prop} (oid : Nat) :
    Triple P (maybeFetchTypeInfoByOid lookup oid false) (fun _ => P) R := by
  unfold maybeFetchTypeInfoByOid
  split
  · exact Triple.pure' fun _ h => h
  · refine Triple.bind Triple.get' fun _ => ?_
    split
    · exact Triple.pure' fun _ h => h.1
    · exact Triple.pure' fun _ h => h.1

/-- `handle_row_description` in the middle of a stream makes no query, and
changes nothing. -/
theorem triple_handleFields_false {P : Session σ → Prop} {R : Failure → Session σ → Prop} :
    ∀ (index : Nat) (fields : List Field) (acc : List PgColumn × List (List UInt8 × Nat)),
      Triple P (handleFields lookup false index fields acc) (fun _ => P) R
  | _, [], _ => Triple.pure' fun _ h => h
  | _, _ :: fields, _ =>
    Triple.bind (triple_maybeFetchTypeInfoByOid_false _) fun _ => triple_handleFields_false _ fields _

/-- An item handed to the task: the account as it was. -/
theorem triple_handOut {count : Nat} (yields : Bool) (item : PgQueryResult ⊕ PgRow) :
    Triple (fun s => Flushed db s ∧ s.conn.pendingReadyForQueryCount = count) (handOut yields item)
      (fun _ s => Flushed db s ∧ s.conn.pendingReadyForQueryCount = count) (Safe db) := by
  refine Triple.bind (Triple.modify' (Q := fun _ s => Flushed db s ∧ s.conn.pendingReadyForQueryCount = count)
    fun s h => ⟨h.1.same ⟨rfl, rfl, rfl, rfl, rfl⟩, h.2⟩) fun _ => ?_
  split
  · exact triple_await (fun s n h => ⟨⟨h.1.synced.wait n, h.1.flushed⟩, h.2⟩)
      fun _ h => ⟨by simp, h.1.synced⟩
  · exact Triple.pure' fun _ h => h

/-- One turn of the stream of `run`: a message of the answer that is not
its `ReadyForQuery` keeps the count, the `ReadyForQuery` ends the stream one
fewer owed. -/
theorem triple_runTurn {count : Nat} (yields : Bool) (format : PgValueFormat) (metadata : PgStatementMetadata) :
    Triple (fun s => Flushed db s ∧ s.conn.pendingReadyForQueryCount = count + 1) (runTurn lookup yields format metadata)
      (fun r s => match r with
        | .inl _ => Flushed db s ∧ s.conn.pendingReadyForQueryCount = count + 1
        | .inr _ => Flushed db s ∧ s.conn.pendingReadyForQueryCount = count) (Safe db) := by
  unfold runTurn
  refine Triple.bind triple_recv_flushed fun m => ?_
  -- a message that is not a `ReadyForQuery` was read without counting
  have hread : m.format ≠ .readyForQuery → ∀ s, Flushed db (s.unread m) ∧
      s.conn.pendingReadyForQueryCount = count + 1 → Flushed db s ∧ s.conn.pendingReadyForQueryCount = count + 1 :=
    fun hm s h => ⟨h.1.of_unread (by simp [ReceivedMessage.isReady, hm]), h.2⟩
  split
  -- the messages the stream reads past
  case h_1 hf | h_2 hf | h_3 hf | h_4 hf | h_5 hf | h_7 hf | h_8 hf =>
    exact Triple.pure' fun s h => hread (by simp [hf]) s h
  -- a command's result or a row, handed to the task
  case h_6 hf | h_10 hf =>
    have hnot : m.format ≠ .readyForQuery := by simp [hf]
    refine Triple.bind (triple_liftDecode_safe (Q := fun _ s => Flushed db s ∧ s.conn.pendingReadyForQueryCount = count + 1)
      (fun s h => (hread hnot s h).1.synced) fun _ _ s h => hread hnot s h) fun _ => ?_
    exact Triple.bind (triple_handOut _ _) fun _ => Triple.pure' fun _ h => h
  -- the rows' description, read without a query
  case h_9 hf =>
    have hnot : m.format ≠ .readyForQuery := by simp [hf]
    refine Triple.bind (triple_liftDecode_safe (Q := fun _ s => Flushed db s ∧ s.conn.pendingReadyForQueryCount = count + 1)
      (fun s h => (hread hnot s h).1.synced) fun _ _ s h => hread hnot s h) fun desc => ?_
    refine Triple.bind (triple_handleFields_false 0 desc ([], [])) fun columns => ?_
    obtain ⟨columns, columnNames⟩ := columns
    exact Triple.pure' fun _ h => h
  -- the answer's `ReadyForQuery`
  case h_11 hf =>
    exact Triple.bind (triple_handleReadyForQuery.mono (fun _ h => ⟨h.1, h.2, hf⟩) (fun _ _ h => h) (fun _ _ h => h))
      fun _ => Triple.pure' fun _ h => h
  case h_12 =>
    rename_i hnot
    exact Triple.throw' fun s h => ⟨by simp, (hread hnot s h).1.synced⟩

/-- **The stream of `run`** reads its answer up to the `ReadyForQuery`:
one fewer owed at its end. -/
theorem triple_runStream (count : Nat) (yields : Bool) (format : PgValueFormat) (metadata : PgStatementMetadata) :
    Triple (fun s => Flushed db s ∧ s.conn.pendingReadyForQueryCount = count + 1)
      (runStream lookup yields format metadata)
      (fun _ s => Flushed db s ∧ s.conn.pendingReadyForQueryCount = count) (Safe db) :=
  Triple.loopUntil (I := fun _ s => Flushed db s ∧ s.conn.pendingReadyForQueryCount = count + 1)
    (S := fun _ s => Flushed db s ∧ s.conn.pendingReadyForQueryCount = count)
    (fun metadata => (triple_runTurn yields format metadata).mono (fun _ h => h) (fun r _ h => by cases r <;> exact h)
      (fun _ _ h => h)) metadata

end Run

/-! ## The operations -/

section Operations

variable {lookup : SessionM σ Unit} (hlookup : KeepsSynced db lookup)

include hlookup in
theorem triple_fetchMany (query : String) (arguments : Option PgArguments) (persistent : Bool)
    (metadata : Option PgStatementMetadata) :
    Triple (Synced db) (fetchMany db lookup query arguments persistent metadata) (fun _ => Quiescent db) (Safe db) := by
  unfold fetchMany
  refine Triple.bind (triple_run hlookup query arguments 0 persistent metadata) fun prepared => ?_
  obtain ⟨format, metadata⟩ := prepared
  exact (triple_runStream 0 true format metadata).mono (fun _ h => h) (fun _ _ h => ⟨h.1.synced, h.2⟩)
    (fun _ _ h => h)

include hlookup in
theorem triple_fetchOptional (query : String) (arguments : Option PgArguments) (persistent : Bool)
    (metadata : Option PgStatementMetadata) :
    Triple (Synced db) (fetchOptional db lookup query arguments persistent metadata) (fun _ => Quiescent db)
      (Safe db) := by
  unfold fetchOptional
  refine Triple.bind Triple.get' fun s₀ => ?_
  dsimp only
  refine Triple.bind ((triple_run hlookup query arguments 1 persistent metadata).mono (fun _ h => h.1)
    (fun _ _ h => h) (fun _ _ h => h)) fun prepared => ?_
  obtain ⟨format, metadata⟩ := prepared
  refine Triple.bind (triple_runStream 0 false format metadata) fun _ => ?_
  exact Triple.bind Triple.get' fun _ => Triple.pure' fun _ h => ⟨h.1.1.synced, h.1.2⟩

include hlookup in
theorem triple_prepareWith (sql : String) (parameters : List PgTypeInfo) :
    Triple (Synced db) (prepareWith db lookup sql parameters) (fun _ => Quiescent db) (Safe db) := by
  unfold prepareWith
  refine Triple.bind triple_waitUntilReady fun _ => ?_
  refine Triple.bind (triple_getOrPrepare hlookup sql parameters true none) fun statement => ?_
  obtain ⟨_, metadata⟩ := statement
  exact Triple.pure' fun _ h => h

/-- A `Sync` written on a synced session keeps it synced. -/
theorem triple_writeSync_synced {R : Failure → Session σ → Prop} :
    Triple (Synced db) writeSync (fun _ => Synced db) R :=
  Triple.of_run (fun _ => rfl) fun _ h =>
    h.write (Groups.closed fun _ hm => absurd hm List.not_mem_nil : Groups ([] ++ [.sync]))

theorem triple_ping : Triple (Synced db) (ping db) (fun _ => Quiescent db) (Safe db) :=
  Triple.bind triple_writeSync_synced fun _ => triple_waitUntilReady

/-- `queue_simple_query` leaves its query owed. -/
theorem triple_queueSimpleQuery (query : String) {R : Failure → Session σ → Prop} :
    Triple (Synced db) (queueSimpleQuery query) (fun _ => Synced db) R :=
  Triple.of_run (fun _ => rfl) fun _ h => h.write (.query query .nil)

end Operations

end Sqlx.Postgres
