import Sqlx.Postgres.Protocol
import Sqlx.Postgres.DataRow
import Sqlx.Postgres.Arguments
import Sqlx.Postgres.Bind
import Sqlx.Core.StatementCache
import Sqlx.Lib.EStateM

/-!
# Postgres — the executor of a connection (`connection/{mod, executor, describe, stream}.rs`)

`PgConnection` pipelines: an operation writes its messages and reads its
answer, and an operation dropped part way leaves the rest of its answer on
the socket for the next one to read past. `pending_ready_for_query_count` is
the connection's account of what is still owed: each `Sync` and each simple
`Query` adds one, each `ReadyForQuery` read takes one away, and
`wait_until_ready` flushes what was written and reads until the count is 0.

The model reads whole messages: the connection holds the messages the
server has sent and the connection has not read (`inbox`), and the messages
written and not flushed (`writeBuffer`). A flush hands the written messages
to the server (`Database`, a parameter), whose answer goes behind what it
sent before. An operation runs in a `Session`, the task that polls it: every
`.await` (a read, a flush, a `yield` of the result stream) may be the one at
which the task drops the future (`polls` counts those it lets pass), and a
read with nothing left to come waits for ever (`blocked`). The type lookups
an operation makes (`resolve_type_id`, `fetch_type_by_oid`, the type holes
of `apply_patches`) run queries of their own on the connection; here they
are a computation `lookup` on the session, and the catalogue's answers are
the database's.

Everything is as the source has it, with these exceptions: a write never
fails (the encoders fail only on messages past `i32::MAX` bytes); the
`ErrorResponse` of `recv` is kept as its fields (`PgDatabaseError` is not
decoded) and a notice or parameter status is skipped without decoding; the
connection has no notification buffer (it is not a listener's); a type's
information is its OID (`PgTypeInfo.withOid`), and the callbacks of
`apply_patches` are left out.
-/

namespace Sqlx.Postgres

open Wire EStateM

/-- `PgColumn`. -/
structure PgColumn where
  ordinal : Nat
  name : List UInt8
  typeInfo : PgTypeInfo
  relationId : Option Nat
  relationAttributeNo : Option Int

/-- `PgStatementMetadata`; `column_names` is the `HashMap` as a list. -/
structure PgStatementMetadata where
  columns : List PgColumn
  columnNames : List (List UInt8 × Nat)
  parameters : List PgTypeInfo

/-- `PgStatementMetadata::default()`. -/
def PgStatementMetadata.empty : PgStatementMetadata := ⟨[], [], []⟩

/-- `PgQueryResult`. -/
structure PgQueryResult where
  rowsAffected : Nat

/-- `PgRow`. -/
structure PgRow where
  data : DataRow
  format : PgValueFormat
  metadata : PgStatementMetadata

/-- `PgConnectionInner`, the fields the executor reads and writes; the
socket is the unread messages and the unflushed ones. -/
structure PgConnection where
  inbox : List ReceivedMessage
  writeBuffer : List Frontend
  nextStatementId : StatementId
  cacheStatement : StatementCache (StatementId × PgStatementMetadata)
  cacheTypeInfo : List (Nat × PgTypeInfo)
  cacheTypeOid : List (String × Nat)
  cacheElemTypeToArray : List (Nat × Nat)
  pendingReadyForQueryCount : Nat
  transactionStatus : TransactionStatus

/-- The task polling an operation: the connection it borrows, the state of
the server behind it, the awaits it lets pass before it drops the future,
and the items the result streams have handed out. -/
structure Session (σ : Type) where
  conn : PgConnection
  server : σ
  polls : Nat
  items : List (PgQueryResult ⊕ PgRow)

/-- How an operation stops short of its value. -/
inductive Failure where
  | error (e : Error)
  | panic
  /-- the task dropped the future at an await -/
  | dropped
  /-- a read no message will ever answer -/
  | blocked

/-- An operation on the connection, polled by a task. -/
abbrev SessionM (σ : Type) := EStateM Failure (Session σ)

variable {σ : Type}

/-! ## The stream -/

/-- An `.await` at which the task may drop the future. -/
def await : SessionM σ Unit := fun s =>
  match s.polls with
  | 0 => .error .dropped s
  | n + 1 => .ok () { s with polls := n }

/-- A change of the connection alone. -/
def modifyConn (f : PgConnection → PgConnection) : SessionM σ Unit :=
  modify fun s => { s with conn := f s.conn }

/-- A decoder's panic, error or value. -/
def liftDecode {α : Type} : Option (Except Error α) → SessionM σ α
  | none => throw .panic
  | some (.error e) => throw (.error e)
  | some (.ok a) => pure a

namespace PgStream

/-- `write_msg`: the message goes into the write buffer. -/
def writeMsg (m : Frontend) : SessionM σ Unit :=
  modifyConn fun c => { c with writeBuffer := c.writeBuffer ++ [m] }

/-- The server takes the written messages and answers them, behind what it
sent before. -/
def Session.deliver (db : Database σ) (s : Session σ) : Session σ :=
  { s with
    conn := { s.conn with
      inbox := s.conn.inbox ++ (db.deliver s.server s.conn.writeBuffer).1
      writeBuffer := [] }
    server := (db.deliver s.server s.conn.writeBuffer).2 }

/-- `stream.flush()`: the written messages go to the server; the flush is an
await. -/
def flush (db : Database σ) : SessionM σ Unit := do
  modify (Session.deliver db)
  await

/-- `recv_unchecked`, at the level of whole messages. -/
def recvUnchecked : SessionM σ ReceivedMessage := do
  await
  match (← get).conn.inbox with
  | [] => throw .blocked
  | m :: rest =>
    modifyConn fun c => { c with inbox := rest }
    pure m

/-- One turn of the loop of `recv`: an `ErrorResponse` is the error, a
notice or a parameter status is read past. -/
def recvTurn (_ : Unit) : SessionM σ (Unit ⊕ ReceivedMessage) := do
  let message ← recvUnchecked
  match message.format with
  | .errorResponse => throw (.error (.database message.contents))
  | .parameterStatus => pure (.inl ())
  | .noticeResponse => pure (.inl ())
  | _ => pure (.inr message)

/-! ### Every read is an await -/

theorem await_lowers : Lowers Session.polls (await : SessionM σ Unit) := by
  intro s a s' h
  simp only [EStateM.run, await] at h
  split at h
  · cases h
  · cases h
    simp_all

theorem modifyConn_keeps (f : PgConnection → PgConnection) : Keeps Session.polls (modifyConn f : SessionM σ Unit) :=
  keeps_modify fun _ => Nat.le_refl _

theorem recvUnchecked_lowers : Lowers Session.polls (recvUnchecked : SessionM σ ReceivedMessage) := by
  refine Lowers.bind_left await_lowers fun _ => Keeps.bind keeps_get fun s => ?_
  split
  · exact keeps_throw _
  · exact Keeps.bind (modifyConn_keeps _) fun _ => keeps_pure _

theorem recvTurn_lowers (c : Unit) : Lowers Session.polls (recvTurn c : SessionM σ (Unit ⊕ ReceivedMessage)) := by
  refine Lowers.bind_left recvUnchecked_lowers fun message => ?_
  split
  · exact keeps_throw _
  · exact keeps_pure _
  · exact keeps_pure _
  · exact keeps_pure _

/-- `PgStream::recv`. -/
def recv : SessionM σ ReceivedMessage := loopUntil recvTurn (Lowers.advances recvTurn_lowers) ()

theorem recv_lowers : Lowers Session.polls (recv : SessionM σ ReceivedMessage) :=
  Lowers.loopUntil recvTurn_lowers ()

/-- `recv_expect::<T>()`, for `T::FORMAT = format`. -/
def recvExpect {α : Type} (format : BackendMessageFormat) (decodeBody : List UInt8 → Option (Except Error α)) :
    SessionM σ α := do
  liftDecode ((← recv).decode format decodeBody)

end PgStream

namespace PgConnection

open PgStream

/-! ## Counting `ReadyForQuery` (`connection/mod.rs`) -/

/-- `handle_ready_for_query`: the count goes down first (`checked_sub(1)`),
then the status is decoded. -/
def handleReadyForQuery (message : ReceivedMessage) : SessionM σ Unit := do
  match (← get).conn.pendingReadyForQueryCount with
  | 0 => throw (.error (.protocol "received more ReadyForQuery messages than expected"))
  | count + 1 =>
    modifyConn fun c => { c with pendingReadyForQueryCount := count }
    let status ← liftDecode (message.decode .readyForQuery ReadyForQuery.decodeBody)
    modifyConn fun c => { c with transactionStatus := status }

/-- `recv_ready_for_query`: the status is decoded first, then the count goes
down; `-= 1` at 0 is the overflow panic of a debug build. -/
def recvReadyForQuery : SessionM σ Unit := do
  let status ← recvExpect .readyForQuery ReadyForQuery.decodeBody
  match (← get).conn.pendingReadyForQueryCount with
  | 0 => throw .panic
  | count + 1 => modifyConn fun c => { c with pendingReadyForQueryCount := count, transactionStatus := status }

/-- One turn of the loop of `wait_until_ready`. -/
def waitTurn (_ : Unit) : SessionM σ (Unit ⊕ Unit) := do
  if 0 < (← get).conn.pendingReadyForQueryCount then
    let message ← recv
    if message.format = .readyForQuery then
      handleReadyForQuery message
    pure (.inl ())
  else pure (.inr ())

theorem liftDecode_keeps {α : Type} (x : Option (Except Error α)) : Keeps Session.polls (liftDecode x : SessionM σ α) := by
  unfold liftDecode
  split
  · exact keeps_throw _
  · exact keeps_throw _
  · exact keeps_pure _

theorem handleReadyForQuery_keeps (message : ReceivedMessage) :
    Keeps Session.polls (handleReadyForQuery message : SessionM σ Unit) := by
  refine Keeps.bind keeps_get fun s => ?_
  split
  · exact keeps_throw _
  · exact Keeps.bind (modifyConn_keeps _) fun _ => Keeps.bind (liftDecode_keeps _) fun _ => modifyConn_keeps _

theorem waitTurn_advances : Advances Session.polls (waitTurn : Unit → SessionM σ (Unit ⊕ Unit)) := by
  intro c s c' s' h
  simp only [waitTurn, run_bind_eq_ok] at h
  obtain ⟨s₁, s₂, ⟨rfl, rfl⟩, h⟩ := h
  split at h
  · obtain ⟨m, s₃, hrecv, h⟩ := run_bind_eq_ok.1 h
    have hlt := recv_lowers _ _ _ hrecv
    split at h
    · obtain ⟨⟨⟩, s₄, hready, hpure⟩ := run_bind_eq_ok.1 h
      cases hpure
      exact Nat.lt_of_le_of_lt (handleReadyForQuery_keeps m _ _ _ hready) hlt
    · cases h
      exact hlt
  · cases h

/-- `wait_until_ready`: flush what was written, then read until no
`ReadyForQuery` is owed. -/
def waitUntilReady (db : Database σ) : SessionM σ Unit := do
  if (← get).conn.writeBuffer ≠ [] then PgStream.flush db
  loopUntil waitTurn waitTurn_advances ()

/-- `write_sync`: a `Sync`, answered by one `ReadyForQuery`. -/
def writeSync : SessionM σ Unit := do
  writeMsg .sync
  modifyConn fun c => { c with pendingReadyForQueryCount := c.pendingReadyForQueryCount + 1 }

/-- `queue_simple_query`: a `Query`, answered by one `ReadyForQuery`; it is
sent by the next flush. -/
def queueSimpleQuery (query : String) : SessionM σ Unit := do
  writeMsg (.query query)
  modifyConn fun c => { c with pendingReadyForQueryCount := c.pendingReadyForQueryCount + 1 }

/-! ## Closing statements (`connection/executor.rs`) -/

/-- One turn of `wait_for_close_complete`, with `count` still to come. -/
def closeTurn (count : Nat) : SessionM σ (Nat ⊕ Unit) := do
  if 0 < count then
    let message ← recv
    if message.format = .portalSuspended then pure (.inl count)
    else if message.format = .closeComplete then pure (.inl (count - 1))
    else throw (.error (.protocol ("expecting PortalSuspended or CloseComplete but received " ++ message.format.debug)))
  else pure (.inr ())

theorem closeTurn_advances : Advances Session.polls (closeTurn : Nat → SessionM σ (Nat ⊕ Unit)) := by
  intro c s c' s' h
  simp only [closeTurn] at h
  split at h
  · obtain ⟨m, s₁, hrecv, h⟩ := run_bind_eq_ok.1 h
    have hlt := recv_lowers _ _ _ hrecv
    split at h
    · cases h
      exact hlt
    · split at h
      · cases h
        exact hlt
      · cases h
  · cases h

/-- `wait_for_close_complete`. -/
def waitForCloseComplete (count : Nat) : SessionM σ Unit := loopUntil closeTurn closeTurn_advances count

/-! ## Type lookups (`connection/describe.rs`, `arguments.rs`) -/

/-- `HashMap::insert`: the entry of `k` replaced. -/
def assocInsert {κ β : Type} [BEq κ] (k : κ) (v : β) (l : List (κ × β)) : List (κ × β) :=
  (k, v) :: l.filter fun p => p.1 != k

/-- The OIDs `PgType::try_from_oid` knows: the types built into the driver. -/
def builtinOids : List Nat :=
  [16, 17, 18, 19, 20, 21, 23, 25, 26, 114, 199, 600, 601, 602, 603, 604, 628, 629, 650, 651, 700, 701, 705,
    718, 719, 774, 775, 790, 791, 829, 869, 1000, 1001, 1002, 1003, 1005, 1007, 1009, 1014, 1015, 1016, 1017,
    1018, 1019, 1020, 1021, 1022, 1027, 1028, 1040, 1041, 1042, 1043, 1082, 1083, 1114, 1115, 1182, 1183, 1184,
    1185, 1186, 1187, 1231, 1266, 1270, 1560, 1561, 1562, 1563, 1700, 2278, 2249, 2287, 2950, 2951, 3802, 3807,
    3904, 3905, 3906, 3907, 3908, 3909, 3910, 3911, 3912, 3913, 3926, 3927, 4072, 4073]

section Lookups

variable (db : Database σ) (lookup : SessionM σ Unit)

/-- `fetch_type_id_by_name`: the cache, or the catalogue; the query
`SELECT $1::regtype::oid` is `lookup`. -/
def fetchTypeIdByName (name : String) : SessionM σ Nat := do
  match (← get).conn.cacheTypeOid.lookup name with
  | some oid => pure oid
  | none =>
    lookup
    match db.regtype name with
    | none => throw (.error (.typeNotFound name))
    | some oid =>
      modifyConn fun c => { c with cacheTypeOid := assocInsert name oid c.cacheTypeOid }
      pure oid

/-- `fetch_array_type_id`: the two caches, or the catalogue. -/
def fetchArrayTypeId (array : PgArrayOf) : SessionM σ Nat := do
  let c := (← get).conn
  match (c.cacheTypeOid.lookup array.elemName).bind (fun elemOid => c.cacheElemTypeToArray.lookup elemOid) with
  | some oid => pure oid
  | none =>
    lookup
    match db.typarray array.elemName with
    | none => throw (.error (.typeNotFound array.name))
    | some (elemOid, arrayOid) =>
      modifyConn fun c => { c with
        cacheTypeOid := assocInsert array.elemName elemOid c.cacheTypeOid
        cacheElemTypeToArray := assocInsert elemOid arrayOid c.cacheElemTypeToArray }
      pure arrayOid

/-- `resolve_type_id`: a type with an OID needs no lookup. -/
def resolveTypeId : PgTypeInfo → SessionM σ Nat
  | .withOid oid => pure oid
  | .declareWithName name => fetchTypeIdByName db lookup name
  | .declareArrayOf array => fetchArrayTypeId db lookup array

/-- The loop of `prepare` that resolves the parameter types in turn. -/
def resolveTypeIds : List PgTypeInfo → SessionM σ (List Nat)
  | [] => pure []
  | ty :: tys => do
    let oid ← resolveTypeId db lookup ty
    let oids ← resolveTypeIds tys
    pure (oid :: oids)

/-- `maybe_fetch_type_info_by_oid`: a built-in type, a cached one, or one
fetched by `lookup` (`fetch_type_by_oid`) when `should_fetch`; otherwise
`PgType::DeclareWithOid`. -/
def maybeFetchTypeInfoByOid (oid : Nat) (shouldFetch : Bool) : SessionM σ PgTypeInfo := do
  if oid ∈ builtinOids then pure (.withOid oid)
  else
    match (← get).conn.cacheTypeInfo.lookup oid with
    | some info => pure info
    | none =>
      if shouldFetch then do
        lookup
        modifyConn fun c => { c with cacheTypeInfo := assocInsert oid (.withOid oid) c.cacheTypeInfo }
        pure (.withOid oid)
      else pure (.withOid oid)

/-- The loop of `handle_row_description` over the fields from `index` on. -/
def handleFields (shouldFetch : Bool) :
    Nat → List Field → List PgColumn × List (List UInt8 × Nat) → SessionM σ (List PgColumn × List (List UInt8 × Nat))
  | _, [], acc => pure acc
  | index, field :: fields, (columns, columnNames) => do
    let typeInfo ← maybeFetchTypeInfoByOid lookup field.dataTypeId shouldFetch
    handleFields shouldFetch (index + 1) fields
      (columns ++ [⟨index, field.name, typeInfo, field.relationId, field.relationAttributeNo⟩],
        assocInsert field.name index columnNames)

/-- `handle_row_description`. -/
def handleRowDescription (desc : Option (List Field)) (shouldFetch : Bool) :
    SessionM σ (List PgColumn × List (List UInt8 × Nat)) :=
  match desc with
  | none => pure ([], [])
  | some fields => handleFields lookup shouldFetch 0 fields ([], [])

/-- `handle_parameter_description`: every type may be fetched. -/
def handleParameterDescription : List Nat → SessionM σ (List PgTypeInfo)
  | [] => pure []
  | ty :: tys => do
    let info ← maybeFetchTypeInfoByOid lookup ty true
    let infos ← handleParameterDescription tys
    pure (info :: infos)

/-- The patches of `apply_patches`: `parameters[patch.arg_index]` and
`buffer[patch.buf_offset..]` panic out of range; the callbacks are left out. -/
def checkPatches (parameters : List PgTypeInfo) (len : Nat) : List Patch → SessionM σ Unit
  | [] => pure ()
  | patch :: patches =>
    if patch.argIndex < parameters.length ∧ patch.bufOffset ≤ len then checkPatches parameters len patches
    else throw .panic

/-- The type holes of `apply_patches`: each OID is looked up and written over
the four bytes at its offset; `copy_from_slice` panics out of range. -/
def fillTypeHoles : List (Nat × HoleKind) → List UInt8 → SessionM σ (List UInt8)
  | [], buffer => pure buffer
  | (offset, kind) :: holes, buffer => do
    let oid ← match kind with
      | .type name => fetchTypeIdByName db lookup name
      | .array array => fetchArrayTypeId db lookup array
    if offset + 4 ≤ buffer.length then fillTypeHoles holes (overwrite buffer offset (beBytes 4 oid))
    else throw .panic

/-- `PgArguments::apply_patches`. -/
def applyPatches (arguments : PgArguments) (parameters : List PgTypeInfo) : SessionM σ PgArguments := do
  checkPatches parameters arguments.buffer.buffer.length arguments.buffer.patches
  let buffer ← fillTypeHoles db lookup arguments.buffer.typeHoles arguments.buffer.buffer
  pure { arguments with buffer := { arguments.buffer with buffer } }

end Lookups

/-! ## Preparing a statement (`connection/executor.rs`) -/

section Executor

variable (db : Database σ) (lookup : SessionM σ Unit)

/-- `recv_desc_rows`. -/
def recvDescRows : SessionM σ (Option (List Field)) := do
  let message ← recv
  if message.format = .rowDescription then
    some <$> liftDecode (message.decode .rowDescription fun body => some (RowDescription.decodeBody body))
  else if message.format = .noData then pure none
  else throw (.error (.protocol ("expecting RowDescription or NoData but received " ++ message.format.debug)))

/-- The messages `prepare` writes: `Parse`, `Describe` of the statement when
no metadata is known, and `write_sync`. -/
def writeParse (id : StatementId) (sql : String) (paramTypes : List Nat) (describe : Bool) : SessionM σ Unit := do
  writeMsg (.parse id sql paramTypes)
  if describe then writeMsg (.describeStatement id) else pure ()
  writeSync

/-- `prepare`. -/
def prepare (sql : String) (parameters : List PgTypeInfo) (metadata : Option PgStatementMetadata) :
    SessionM σ (StatementId × PgStatementMetadata) := do
  let id := (← get).conn.nextStatementId
  modifyConn fun c => { c with nextStatementId := ⟨id.inner.next⟩ }
  let paramTypes ← resolveTypeIds db lookup parameters
  waitUntilReady db
  writeParse id sql paramTypes metadata.isNone
  PgStream.flush db
  let _ ← recvExpect .parseComplete fun _ => some (.ok ())
  match metadata with
  | some metadata =>
    recvReadyForQuery
    pure (id, metadata)
  | none =>
    let parameters ← recvExpect .parameterDescription ParameterDescription.decodeBody
    let rows ← recvDescRows
    recvReadyForQuery
    let parameters ← handleParameterDescription lookup parameters
    let (columns, columnNames) ← handleRowDescription lookup rows true
    waitUntilReady db
    pure (id, ⟨columns, columnNames, parameters⟩)

/-- The eviction of `get_or_prepare`: close the statement the cache gave up,
and read the answer. -/
def closeEvicted (id : StatementId) : SessionM σ Unit := do
  writeMsg (.closeStatement id)
  writeSync
  PgStream.flush db
  waitForCloseComplete 1
  recvReadyForQuery

/-- The end of `get_or_prepare`: a statement prepared to be stored goes into
the cache, which may give up one to close. -/
def storeStatement (sql : String) (statement : StatementId × PgStatementMetadata) (storeToCache : Bool) :
    SessionM σ Unit := do
  if storeToCache ∧ (← get).conn.cacheStatement.isEnabled then
    let (cache, evicted) := (← get).conn.cacheStatement.insert sql statement
    modifyConn fun c => { c with cacheStatement := cache }
    match evicted with
    | some (id, _) => closeEvicted db id
    | none => pure ()
  else pure ()

/-- `get_or_prepare`. -/
def getOrPrepare (sql : String) (parameters : List PgTypeInfo) (storeToCache : Bool)
    (metadata : Option PgStatementMetadata) : SessionM σ (StatementId × PgStatementMetadata) := do
  let (cached, cache) := (← get).conn.cacheStatement.getMut sql
  modifyConn fun c => { c with cacheStatement := cache }
  match cached with
  | some statement => pure statement
  | none =>
    let statement ← prepare db lookup sql parameters metadata
    storeStatement db sql statement storeToCache
    pure statement

/-! ## Running a query -/

/-- The messages `run` writes for a query: with arguments, the statement is
prepared (or found in the cache), the argument buffer patched, and `Bind`,
`Execute`, `Close` of the portal and `Sync` follow; without, one simple
`Query`. It gives the format of the rows and the metadata they start with. -/
def run (query : String) (arguments : Option PgArguments) (limit : Nat) (persistent : Bool)
    (metadataOpt : Option PgStatementMetadata) : SessionM σ (PgValueFormat × PgStatementMetadata) := do
  waitUntilReady db
  let prepared ← match arguments with
    | some arguments => do
      let numParams := arguments.buffer.count
      if 2 ^ 16 ≤ numParams then
        throw (.error (.protocol s!"PgConnection::run(): too many arguments for query: {numParams}"))
      else
        let (statement, metadata) ← getOrPrepare db lookup query arguments.types persistent metadataOpt
        let arguments ← applyPatches db lookup arguments metadata.parameters
        waitUntilReady db
        writeMsg (.bind .unnamed statement numParams arguments.buffer.buffer)
        writeMsg (.execute .unnamed limit)
        writeMsg (.closePortal .unnamed)
        writeSync
        pure (PgValueFormat.binary, metadata)
    | none => do
      writeMsg (.query query)
      modifyConn fun c => { c with pendingReadyForQueryCount := c.pendingReadyForQueryCount + 1 }
      pure (PgValueFormat.text, PgStatementMetadata.empty)
  PgStream.flush db
  pure prepared

/-- An item of the stream: recorded, and, when the stream yields to the
task, an await at which the task may drop it. -/
def handOut (yields : Bool) (item : PgQueryResult ⊕ PgRow) : SessionM σ Unit := do
  modify fun s => { s with items := s.items ++ [item] }
  if yields then await else pure ()

/-- One turn of the stream of `run`, with the metadata of the rows so far. -/
def runTurn (yields : Bool) (format : PgValueFormat) (metadata : PgStatementMetadata) :
    SessionM σ (PgStatementMetadata ⊕ Unit) := do
  let message ← recv
  match message.format with
  | .bindComplete | .parseComplete | .parameterDescription | .noData | .closeComplete => pure (.inl metadata)
  | .commandComplete =>
    let tag ← liftDecode (message.decode .commandComplete fun body => some (.ok body))
    handOut yields (.inl ⟨CommandComplete.rowsAffected tag⟩)
    pure (.inl metadata)
  | .emptyQueryResponse => pure (.inl metadata)
  | .portalSuspended => pure (.inl metadata)
  | .rowDescription =>
    let desc ← liftDecode (message.decode .rowDescription fun body => some (RowDescription.decodeBody body))
    -- `should_fetch` is false: no query can run in the middle of this one
    let (columns, columnNames) ← handleRowDescription lookup (some desc) false
    pure (.inl ⟨columns, columnNames, []⟩)
  | .dataRow =>
    let data ← liftDecode (message.decode .dataRow fun body => some ((DataRow.decodeBody body).mapError .protocol))
    handOut yields (.inr ⟨data, format, metadata⟩)
    pure (.inl metadata)
  | .readyForQuery =>
    handleReadyForQuery message
    pure (.inr ())
  | _ => throw (.error (.protocol ("execute: unexpected message: " ++ message.format.debug)))

/-! ### The stream reads a message every turn -/

theorem maybeFetchTypeInfoByOid_keeps (oid : Nat) :
    Keeps Session.polls (maybeFetchTypeInfoByOid lookup oid false) := by
  unfold maybeFetchTypeInfoByOid
  split
  · exact keeps_pure _
  · refine Keeps.bind keeps_get fun s => ?_
    split
    · exact keeps_pure _
    · simp only [Bool.false_eq_true, if_false]
      exact keeps_pure _

theorem handleFields_keeps : ∀ (index : Nat) (fields : List Field) (acc : List PgColumn × List (List UInt8 × Nat)),
    Keeps Session.polls (handleFields lookup false index fields acc)
  | _, [], _ => keeps_pure _
  | _, _ :: fields, _ =>
    Keeps.bind (maybeFetchTypeInfoByOid_keeps lookup _) fun _ => handleFields_keeps _ fields _

theorem handOut_keeps (yields : Bool) (item : PgQueryResult ⊕ PgRow) :
    Keeps Session.polls (handOut yields item : SessionM σ Unit) := by
  refine Keeps.bind (keeps_modify fun _ => Nat.le_refl _) fun _ => ?_
  split
  · exact await_lowers.keeps
  · exact keeps_pure _

theorem runTurn_lowers (yields : Bool) (format : PgValueFormat) (metadata : PgStatementMetadata) :
    Lowers Session.polls (runTurn lookup yields format metadata) := by
  refine Lowers.bind_left recv_lowers fun message => ?_
  split
  all_goals first
    | exact keeps_pure _
    | exact keeps_throw _
    | exact Keeps.bind (liftDecode_keeps _) fun _ => Keeps.bind (handOut_keeps _ _) fun _ => keeps_pure _
    | exact Keeps.bind (liftDecode_keeps _) fun _ =>
        Keeps.bind (handleFields_keeps lookup 0 _ _) fun _ => keeps_pure _
    | exact Keeps.bind (handleReadyForQuery_keeps _) fun _ => keeps_pure _

/-- The stream of `run`, polled to its end: the loop of its `try_stream!`. -/
def runStream (yields : Bool) (format : PgValueFormat) (metadata : PgStatementMetadata) : SessionM σ Unit :=
  loopUntil (runTurn lookup yields format) (Lowers.advances (runTurn_lowers lookup yields format)) metadata

/-! ## The operations -/

/-- `fetch_many`: the query, and every item of its stream handed to the task. -/
def fetchMany (query : String) (arguments : Option PgArguments) (persistent : Bool)
    (metadata : Option PgStatementMetadata) : SessionM σ Unit := do
  let (format, metadata) ← run db lookup query arguments 0 persistent metadata
  runStream lookup true format metadata

/-- `fetch_optional`: the query with a row limit of 1, its stream read to the
end, and the first row it gave. -/
def fetchOptional (query : String) (arguments : Option PgArguments) (persistent : Bool)
    (metadata : Option PgStatementMetadata) : SessionM σ (Option PgRow) := do
  let before := (← get).items.length
  let (format, metadata) ← run db lookup query arguments 1 persistent metadata
  runStream lookup false format metadata
  let items := (← get).items.drop before
  pure (items.findSome? fun item => match item with
    | .inr row => some row
    | .inl _ => none)

/-- `prepare_with`: the statement's metadata, prepared and stored in the cache. -/
def prepareWith (sql : String) (parameters : List PgTypeInfo) : SessionM σ PgStatementMetadata := do
  waitUntilReady db
  let (_, metadata) ← getOrPrepare db lookup sql parameters true none
  pure metadata

/-- `ping`: a `Sync`, and its `ReadyForQuery`. -/
def ping : SessionM σ Unit := do
  writeSync
  waitUntilReady db

/-- The loop `while let Some((id, _)) = cache_statement.remove_lru()` of
`clear_cached_statements`, with a turn more than the cache holds: it writes a
`Close` for each statement and counts them. -/
def closeCachedStatements : Nat → SessionM σ Nat
  | 0 => pure 0
  | n + 1 => do
    match (← get).conn.cacheStatement.removeLru with
    | (none, cache) =>
      modifyConn fun c => { c with cacheStatement := cache }
      pure 0
    | (some (id, _), cache) =>
      modifyConn fun c => { c with cacheStatement := cache }
      writeMsg (.closeStatement id)
      let cleared ← closeCachedStatements n
      pure (cleared + 1)

/-- `clear_cached_statements`. -/
def clearCachedStatements : SessionM σ Unit := do
  modifyConn fun c => { c with cacheTypeOid := [] }
  waitUntilReady db
  let cleared ← closeCachedStatements (← get).conn.cacheStatement.len.succ
  if 0 < cleared then
    writeSync
    PgStream.flush db
    waitForCloseComplete cleared
    recvReadyForQuery
  else pure ()

end Executor

end PgConnection


end Sqlx.Postgres
