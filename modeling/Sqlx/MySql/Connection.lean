import Sqlx.MySql.Response
import Sqlx.MySql.Arguments
import Sqlx.Core.StatementCache
import Sqlx.Lib.EStateM

/-!
# MySQL — the waiting queue of a connection (`connection/stream.rs`, `connection/executor.rs`)

The driver pipelines: a command's response is read only when the next
operation needs the connection, and `wait_until_ready` first reads past the
responses still owed. `stream.waiting` is its account of them: one entry per
response, `Result` while the next packet opens a result, `Row` while it is a
row of a result set. `run` pushes its entry before it writes its command,
`recv_packet` pops the front on an ERR packet, and the loops of `run` and of
`wait_until_ready` pop or turn the front as the packets say.

The model reads whole packets: the connection holds the payloads the server
has sent and the client has not read (`inbox`). A command written is
answered at once: the server's answer, `answer`, is a parameter, and goes
behind what it sent before; a command in the write buffer is flushed at the
latest by the next `wait_until_ready`, so a future dropped during its flush
has still sent it. An operation runs in a `Session`, the task that polls it:
every `.await` (a read, a flush, a `yield` of the result stream) may be the
one at which the task drops the future (`polls` counts those it lets pass),
and a read with nothing left to come waits for ever (`blocked`). Every loop
reads a packet each turn, so it terminates by the polls.

`waitUntilReady_responses` is what the queue is for: when it lists complete
responses, `wait_until_ready` reads exactly them and stops. The queue does
not keep that account across a drop: `prepare_statement` reads its response
in line, with `run`'s `Result` entry already pushed, and `run` pops that
entry only after its last result has been handed out
(`dropped_operations_desynchronise_waiting`).
-/

namespace Sqlx.MySql

open Wire EStateM

/-- `Waiting`: what the response at the front of the queue is still owed. -/
inductive Waiting where
  /-- waiting for a result set -/
  | result
  /-- waiting for a row within a result set -/
  | row
  deriving DecidableEq, Repr

/-- `MySqlValueFormat`. -/
inductive MySqlValueFormat where
  | text
  | binary
  deriving DecidableEq, Repr

/-- The commands the executor writes. -/
inductive Command where
  /-- `Query(sql)`, `COM_QUERY` -/
  | query (sql : String)
  /-- `Prepare { query }`, `COM_STMT_PREPARE` -/
  | prepare (sql : String)
  /-- `StatementExecute`, `COM_STMT_EXECUTE` -/
  | statementExecute (statement : UInt32) (arguments : MySqlArguments)
  /-- `StmtClose`, `COM_STMT_CLOSE`, which the server does not answer -/
  | stmtClose (statement : UInt32)

/-- `MySqlStatementMetadata`; `column_names` is the `HashMap` as a list. -/
structure MySqlStatementMetadata where
  columns : List MySqlColumn
  columnNames : List (List UInt8 × Nat)
  parameters : Nat

/-- `MySqlQueryResult`. -/
structure MySqlQueryResult where
  rowsAffected : UInt64
  lastInsertId : UInt64
  deriving DecidableEq, Repr

/-- `MySqlRow`. -/
structure MySqlRow where
  row : Row
  format : MySqlValueFormat
  columns : List MySqlColumn
  columnNames : List (List UInt8 × Nat)

/-- `MySqlConnection` as the pipelining sees it: the payloads sent by the
server and not read yet, `stream.waiting`, whether the capabilities hold
`DEPRECATE_EOF`, and `cache_statement`. -/
structure MySqlConnection where
  inbox : List (List UInt8)
  waiting : List Waiting
  deprecateEof : Bool
  cacheStatement : StatementCache (UInt32 × MySqlStatementMetadata)

/-- The task polling an operation: the connection it borrows, the awaits it
lets pass before it drops the future, and the items the result stream has
handed it (`Either<MySqlQueryResult, MySqlRow>`). -/
structure Session where
  conn : MySqlConnection
  polls : Nat
  items : List (MySqlQueryResult ⊕ MySqlRow)

/-- How an operation stops short of its value. -/
inductive Failure where
  | error (e : Error)
  | panic
  /-- the task dropped the future at an await -/
  | dropped
  /-- a read no byte will ever answer: the server has answered every command -/
  | blocked

/-- An operation on the connection, polled by a task. -/
abbrev SessionM := EStateM Failure Session

/-- `s` with `inbox` left to read, the queue `waiting`, and `polls` awaits to go. -/
def Session.after (s : Session) (inbox : List (List UInt8)) (waiting : List Waiting) (polls : Nat) : Session :=
  { s with polls, conn := { s.conn with inbox, waiting } }

namespace Session

variable (s : Session) (inbox inbox' : List (List UInt8)) (waiting waiting' : List Waiting) (polls polls' : Nat)

@[simp] theorem after_inbox : (s.after inbox waiting polls).conn.inbox = inbox := rfl
@[simp] theorem after_waiting : (s.after inbox waiting polls).conn.waiting = waiting := rfl
@[simp] theorem after_polls : (s.after inbox waiting polls).polls = polls := rfl
@[simp] theorem after_deprecateEof : (s.after inbox waiting polls).conn.deprecateEof = s.conn.deprecateEof := rfl
@[simp] theorem after_items : (s.after inbox waiting polls).items = s.items := rfl
@[simp] theorem after_after :
    (s.after inbox waiting polls).after inbox' waiting' polls' = s.after inbox' waiting' polls' := rfl
@[simp] theorem after_self : s.after s.conn.inbox s.conn.waiting s.polls = s := rfl

end Session

/-- A packet `recv_packet` hands on: neither empty nor an ERR packet. -/
def Plain (packet : List UInt8) : Prop := packet ≠ [] ∧ packet.head? ≠ some 0xff

instance (packet : List UInt8) : Decidable (Plain packet) := inferInstanceAs (Decidable (_ ∧ _))

theorem plain_of_head {packet : List UInt8} {b : UInt8} (h : packet.head? = some b) (hb : b ≠ 0xff) :
    Plain packet := by
  refine ⟨?_, ?_⟩
  · rintro rfl
    cases h
  · rw [h]
    exact fun hff => hb (Option.some.inj hff)

/-- A packet that does not end a result set: not `0xfe` in fewer than nine bytes. -/
def NotEof (packet : List UInt8) : Prop := ¬(packet.head? = some 0xfe ∧ packet.length < 9)

instance (packet : List UInt8) : Decidable (NotEof packet) := inferInstanceAs (Decidable (¬_))

/-! ## The stream -/

/-- An `.await` at which the task may drop the future. -/
def await : SessionM Unit := fun s =>
  match s.polls with
  | 0 => .error .dropped s
  | n + 1 => .ok () { s with polls := n }

/-- A change of the connection alone. -/
def modifyConn (f : MySqlConnection → MySqlConnection) : SessionM Unit :=
  modify fun s => { s with conn := f s.conn }

/-- `waiting.pop_front()`. -/
def popFront : SessionM Unit := modifyConn fun c => { c with waiting := c.waiting.tail }

/-- `waiting.push_back(w)`. -/
def pushBack (w : Waiting) : SessionM Unit := modifyConn fun c => { c with waiting := c.waiting ++ [w] }

/-- `*waiting.front_mut().unwrap() = w`; the `unwrap` panics on an empty queue. -/
def setFront (w : Waiting) : SessionM Unit := do
  match (← get).conn.waiting with
  | [] => throw .panic
  | _ :: rest => modifyConn fun c => { c with waiting := w :: rest }

/-- A getter that panics past the end. -/
def liftPanic {α : Type} : Option α → SessionM α
  | none => throw .panic
  | some a => pure a

/-- A decoder's panic, error or value. -/
def liftDecode {α : Type} (x : ExceptT Error Option α) : SessionM α :=
  match x.run with
  | none => throw .panic
  | some (.error e) => throw (.error e)
  | some (.ok a) => pure a

/-- A `Result` of the driver, `?`. -/
def liftExcept {α : Type} : Except Error α → SessionM α
  | .error e => throw (.error e)
  | .ok a => pure a

/-- `r#yield!(item)`: the task gets the item, and the stream waits to be
polled again. -/
def yieldItem (item : MySqlQueryResult ⊕ MySqlRow) : SessionM Unit := do
  modify fun s => { s with items := s.items ++ [item] }
  await

theorem await_of_succ {s : Session} {n : Nat} (hp : s.polls = n + 1) :
    await.run s = .ok () { s with polls := n } := by
  simp only [EStateM.run, await, hp]

theorem await_of_zero {s : Session} (hp : s.polls = 0) : await.run s = .error .dropped s := by
  simp only [EStateM.run, await, hp]

/-- The item is handed out before the await at which the task may drop the stream. -/
theorem yieldItem_of_zero {s : Session} (item : MySqlQueryResult ⊕ MySqlRow) (hp : s.polls = 0) :
    (yieldItem item).run s = .error .dropped { s with items := s.items ++ [item] } :=
  run_bind_of_ok (EStateM.run_modify _ _) ▸ await_of_zero hp

theorem modifyConn_run (f : MySqlConnection → MySqlConnection) (s : Session) :
    (modifyConn f).run s = .ok () { s with conn := f s.conn } := rfl

theorem popFront_run (s : Session) :
    popFront.run s = .ok () (s.after s.conn.inbox s.conn.waiting.tail s.polls) := rfl

theorem pushBack_run (s : Session) (w : Waiting) :
    (pushBack w).run s = .ok () (s.after s.conn.inbox (s.conn.waiting ++ [w]) s.polls) := rfl

theorem setFront_of_cons {s : Session} {w w' : Waiting} {ws : List Waiting} (h : s.conn.waiting = w' :: ws) :
    (setFront w).run s = .ok () (s.after s.conn.inbox (w :: ws) s.polls) := by
  simp only [setFront, EStateM.run_bind, EStateM.run_get, h]
  rfl

theorem liftDecode_of_ok {α : Type} {x : ExceptT Error Option α} {a : α} (h : x.run = some (.ok a)) (s : Session) :
    (liftDecode x).run s = .ok a s := by
  simp only [liftDecode, h]
  rfl

/-! ## Measures: every read is an await -/

theorem await_lowers : Lowers Session.polls await := by
  intro s a s' h
  simp only [EStateM.run, await] at h
  split at h
  · cases h
  · cases h
    simp_all

theorem modifyConn_keeps (f : MySqlConnection → MySqlConnection) : Keeps Session.polls (modifyConn f) :=
  keeps_modify fun _ => Nat.le_refl _

theorem popFront_keeps : Keeps Session.polls popFront := modifyConn_keeps _

theorem pushBack_keeps (w : Waiting) : Keeps Session.polls (pushBack w) := modifyConn_keeps _

theorem setFront_keeps (w : Waiting) : Keeps Session.polls (setFront w) := by
  refine Keeps.bind keeps_get fun s => ?_
  split
  · exact keeps_throw _
  · exact modifyConn_keeps _

theorem liftPanic_keeps {α : Type} (x : Option α) : Keeps Session.polls (liftPanic x) := by
  cases x
  · exact keeps_throw _
  · exact keeps_pure _

theorem liftDecode_keeps {α : Type} (x : ExceptT Error Option α) : Keeps Session.polls (liftDecode x) := by
  unfold liftDecode
  split
  · exact keeps_throw _
  · exact keeps_throw _
  · exact keeps_pure _

theorem liftExcept_keeps {α : Type} (x : Except Error α) : Keeps Session.polls (liftExcept x) := by
  cases x
  · exact keeps_throw _
  · exact keeps_pure _

theorem yieldItem_lowers (item : MySqlQueryResult ⊕ MySqlRow) : Lowers Session.polls (yieldItem item) :=
  Lowers.bind_right (keeps_modify fun _ => Nat.le_refl _) fun _ => await_lowers

namespace MySqlStream

section Server

variable (answer : Command → List (List UInt8))

/-- `send_packet`: the command is written and the server's answer goes behind
what it sent before; the flush is an await. -/
def sendPacket (cmd : Command) : SessionM Unit := do
  modifyConn fun c => { c with inbox := c.inbox ++ answer cmd }
  await

end Server

/-- `recv_packet`: the next payload; an empty one is refused, and an ERR
packet pops the front of the queue and is the error. -/
def recvPacket : SessionM (List UInt8) := do
  await
  match (← get).conn.inbox with
  | [] => throw .blocked
  | payload :: rest =>
    modifyConn fun c => { c with inbox := rest }
    match payload.head? with
    | none => throw (.error (.protocol "Packet empty"))
    | some 0xff =>
      popFront
      throw (.error (.database payload))
    | some _ => pure payload

/-- `recv`: the next packet, decoded. -/
def recv {α : Type} (decode : List UInt8 → ExceptT Error Option α) : SessionM α := do
  liftDecode (decode (← recvPacket))

/-- `maybe_recv_eof`: an EOF packet unless `DEPRECATE_EOF`. -/
def maybeRecvEof : SessionM (Option EofPacket) := do
  if (← get).conn.deprecateEof then pure none
  else some <$> recv EofPacket.decode

/-- The loop `for _ in 0..n { recv_packet() }`. -/
def skipPackets : Nat → SessionM Unit
  | 0 => pure ()
  | n + 1 => do
    let _ ← recvPacket
    skipPackets n

/-- `skip_result_metadata`: as many packets as the column count says, then
the EOF unless deprecated. -/
def skipResultMetadata (packet : List UInt8) : SessionM Unit := do
  let (numColumns, _) ← liftPanic (getUintLenenc packet)
  skipPackets numColumns.toNat
  let _ ← maybeRecvEof

theorem sendPacket_lowers (answer : Command → List (List UInt8)) (cmd : Command) :
    Lowers Session.polls (sendPacket answer cmd) :=
  Lowers.bind_right (modifyConn_keeps _) fun _ => await_lowers

theorem recvPacket_lowers : Lowers Session.polls recvPacket := by
  refine Lowers.bind_left await_lowers fun _ => Keeps.bind keeps_get fun s => ?_
  split
  · exact keeps_throw _
  · refine Keeps.bind (modifyConn_keeps _) fun _ => ?_
    split
    · exact keeps_throw _
    · exact Keeps.bind popFront_keeps fun _ => keeps_throw _
    · exact keeps_pure _

theorem recv_lowers {α : Type} (decode : List UInt8 → ExceptT Error Option α) :
    Lowers Session.polls (recv decode) :=
  Lowers.bind_left recvPacket_lowers fun _ => liftDecode_keeps _

theorem maybeRecvEof_keeps : Keeps Session.polls maybeRecvEof := by
  refine Keeps.bind keeps_get fun s => ?_
  split
  · exact keeps_pure _
  · exact Keeps.bind (recv_lowers _).keeps fun _ => keeps_pure _

theorem skipPackets_keeps : ∀ n, Keeps Session.polls (skipPackets n)
  | 0 => keeps_pure _
  | n + 1 => Keeps.bind recvPacket_lowers.keeps fun _ => skipPackets_keeps n

theorem skipResultMetadata_keeps (packet : List UInt8) : Keeps Session.polls (skipResultMetadata packet) :=
  Keeps.bind (liftPanic_keeps _) fun _ =>
    Keeps.bind (skipPackets_keeps _) fun _ => Keeps.bind maybeRecvEof_keeps fun _ => keeps_pure _

theorem recvPacket_of_plain {s : Session} {packet : List UInt8} {rest : List (List UInt8)} {n : Nat}
    (hp : s.polls = n + 1) (hin : s.conn.inbox = packet :: rest) (hplain : Plain packet) :
    recvPacket.run s = .ok packet (s.after rest s.conn.waiting n) := by
  obtain ⟨hne, hff⟩ := hplain
  obtain ⟨b, bs, rfl⟩ := List.exists_cons_of_ne_nil hne
  simp only [List.head?_cons, ne_eq, Option.some.injEq] at hff
  rw [recvPacket, EStateM.run_bind, await_of_succ hp]
  simp only [EStateM.run_bind, EStateM.run_get, hin, modifyConn, EStateM.run_modify, List.head?_cons]
  rfl

theorem recvPacket_of_nil {s : Session} {n : Nat} (hp : s.polls = n + 1) (hin : s.conn.inbox = []) :
    recvPacket.run s = .error .blocked { s with polls := n } := by
  rw [recvPacket, EStateM.run_bind, await_of_succ hp]
  simp only [EStateM.run_bind, EStateM.run_get, hin]
  rfl

theorem recvPacket_of_zero {s : Session} (hp : s.polls = 0) : recvPacket.run s = .error .dropped s := by
  rw [recvPacket, EStateM.run_bind, await_of_zero hp]

theorem sendPacket_of_succ (answer : Command → List (List UInt8)) (cmd : Command) {s : Session} {n : Nat}
    (hp : s.polls = n + 1) :
    (sendPacket answer cmd).run s = .ok () (s.after (s.conn.inbox ++ answer cmd) s.conn.waiting n) := by
  rw [sendPacket, run_bind_of_ok (modifyConn_run _ _)]
  exact await_of_succ hp

theorem recv_of_zero {α : Type} (decode : List UInt8 → ExceptT Error Option α) {s : Session} (hp : s.polls = 0) :
    (recv decode).run s = .error .dropped s :=
  run_bind_of_error (recvPacket_of_zero hp)

/-- Skipping over packets `recv_packet` hands on reads exactly them. -/
theorem skipPackets_of_plain : ∀ (packets : List (List UInt8)) {s : Session} {rest : List (List UInt8)} {n : Nat},
    (∀ p ∈ packets, Plain p) → s.conn.inbox = packets ++ rest → s.polls = packets.length + n →
    (skipPackets packets.length).run s = .ok () (s.after rest s.conn.waiting n)
  | [], s, rest, n, _, hin, hp => by
    simp only [List.nil_append, List.length_nil, Nat.zero_add] at hin hp
    rw [← hin, ← hp, Session.after_self]
    rfl
  | p :: ps, s, rest, n, hplain, hin, hp => by
    have hread := recvPacket_of_plain (n := ps.length + n) (by rw [hp, List.length_cons]; omega) hin
      (hplain p List.mem_cons_self)
    rw [List.length_cons, skipPackets, EStateM.run_bind, hread]
    exact skipPackets_of_plain ps (fun q hq => hplain q (List.mem_cons_of_mem p hq)) rfl rfl

/-- The end of a result set's column definitions: nothing under
`DEPRECATE_EOF`, an EOF packet otherwise. -/
def ColumnsEnd (deprecateEof : Bool) (columnsEof : List (List UInt8)) : Prop :=
  if deprecateEof then columnsEof = []
  else ∃ e eof, columnsEof = [e] ∧ Plain e ∧ (EofPacket.decode e).run = some (.ok eof)

theorem maybeRecvEof_of_columnsEnd {s : Session} {columnsEof rest : List (List UInt8)} {n : Nat}
    (hend : ColumnsEnd s.conn.deprecateEof columnsEof) (hin : s.conn.inbox = columnsEof ++ rest)
    (hp : s.polls = columnsEof.length + n) :
    ∃ r, maybeRecvEof.run s = .ok r (s.after rest s.conn.waiting n) := by
  unfold ColumnsEnd at hend
  cases hd : s.conn.deprecateEof with
  | true =>
    rw [hd, if_pos rfl] at hend
    subst hend
    simp only [List.nil_append, List.length_nil, Nat.zero_add] at hin hp
    refine ⟨none, ?_⟩
    simp only [maybeRecvEof, EStateM.run_bind, EStateM.run_get, hd, if_true]
    rw [← hin, ← hp, Session.after_self]
    rfl
  | false =>
    rw [hd] at hend
    obtain ⟨e, eof, rfl, hplain, hdec⟩ := hend
    refine ⟨some eof, ?_⟩
    simp only [List.cons_append, List.nil_append, List.length_singleton] at hin hp
    have hrecv : (recv EofPacket.decode).run s = .ok eof (s.after rest s.conn.waiting n) := by
      simp only [recv, EStateM.run_bind, recvPacket_of_plain (n := n) (by omega) hin hplain]
      exact liftDecode_of_ok hdec _
    simp only [maybeRecvEof, EStateM.run_bind, EStateM.run_get, hd, Bool.false_eq_true, if_false]
    exact run_map_of_ok hrecv

/-! ## `wait_until_ready` -/

/-- One turn of the loops of `wait_until_ready` with `w` at the front. The
two inner `while` loops each check the front again every turn, so one turn
by the front is the same loop. -/
def waitTurn : Waiting → SessionM Unit
  | .row => do
    let packet ← recvPacket
    if packet ≠ [] ∧ packet.head? = some 0xfe ∧ packet.length < 9 then
      let eof ← liftDecode (Packet.eof (← get).conn.deprecateEof packet)
      if Status.moreResultsExists eof.status then setFront .result else popFront
  | .result => do
    let packet ← recvPacket
    if packet ≠ [] ∧ (packet.head? = some 0x00 ∨ packet.head? = some 0xff) then
      let ok ← liftDecode (OkPacket.decode packet)
      if !Status.moreResultsExists ok.status then popFront
    else
      setFront .row
      skipResultMetadata packet

theorem waitTurn_lowers : ∀ w, Lowers Session.polls (waitTurn w)
  | .row => by
    refine Lowers.bind_left recvPacket_lowers fun packet => ?_
    split
    · refine Keeps.bind keeps_get fun s => Keeps.bind (liftDecode_keeps _) fun eof => ?_
      split
      · exact setFront_keeps _
      · exact popFront_keeps
    · exact keeps_pure _
  | .result => by
    refine Lowers.bind_left recvPacket_lowers fun packet => ?_
    split
    · refine Keeps.bind (liftDecode_keeps _) fun ok => ?_
      split
      · exact popFront_keeps
      · exact keeps_pure _
    · exact Keeps.bind (setFront_keeps _) fun _ => skipResultMetadata_keeps _

/-- `while !waiting.is_empty() { ... }`. -/
def waitUntilReadyTurn (_ : Unit) : SessionM (Unit ⊕ Unit) := do
  match (← get).conn.waiting with
  | [] => pure (.inr ())
  | w :: _ =>
    waitTurn w
    pure (.inl ())

theorem waitUntilReadyTurn_advances : Advances Session.polls waitUntilReadyTurn := by
  intro c s c' s' h
  simp only [waitUntilReadyTurn, run_bind_eq_ok] at h
  obtain ⟨s₁, s₂, ⟨rfl, rfl⟩, h⟩ := h
  split at h
  · cases h
  · obtain ⟨⟨⟩, s₃, hturn, hpure⟩ := run_bind_eq_ok.1 h
    cases hpure
    exact waitTurn_lowers _ _ _ _ hturn

/-- `wait_until_ready`: the flush is the model's answer at the write. -/
def waitUntilReady : SessionM Unit := loopUntil waitUntilReadyTurn waitUntilReadyTurn_advances ()

theorem waitUntilReady_of_nil {s : Session} (h : s.conn.waiting = []) : waitUntilReady.run s = .ok () s := by
  apply loopUntil_of_break
  simp only [waitUntilReadyTurn, EStateM.run_bind, EStateM.run_get, h]
  rfl

theorem waitUntilReady_of_turn {s s' : Session} {w : Waiting} {ws : List Waiting}
    (h : s.conn.waiting = w :: ws) (hturn : (waitTurn w).run s = .ok () s') :
    waitUntilReady.run s = waitUntilReady.run s' := by
  apply loopUntil_of_continue
  simp only [waitUntilReadyTurn, EStateM.run_bind, EStateM.run_get, h, hturn]
  rfl

theorem waitUntilReady_of_turn_error {s s' : Session} {w : Waiting} {ws : List Waiting} {e : Failure}
    (h : s.conn.waiting = w :: ws) (hturn : (waitTurn w).run s = .error e s') :
    waitUntilReady.run s = .error e s' := by
  apply loopUntil_of_error
  simp only [waitUntilReadyTurn, EStateM.run_bind, EStateM.run_get, h, hturn]

/-! ### One turn, by the packet read -/

section Turn

variable {s : Session} {rest : List (List UInt8)} {ws : List Waiting} {n : Nat}

/-- An OK packet where a result is owed: the entry stays when it says more
results follow, and goes otherwise. -/
theorem waitTurn_result_of_ok {packet : List UInt8} {ok : OkPacket}
    (hp : s.polls = n + 1) (hin : s.conn.inbox = packet :: rest) (hw : s.conn.waiting = .result :: ws)
    (hhead : packet.head? = some 0x00) (hdec : (OkPacket.decode packet).run = some (.ok ok)) :
    (waitTurn .result).run s =
      .ok () (s.after rest (if Status.moreResultsExists ok.status then .result :: ws else ws) n) := by
  have hplain : Plain packet := plain_of_head hhead (by decide)
  rw [waitTurn, run_bind_of_ok (recvPacket_of_plain hp hin hplain), if_pos ⟨hplain.1, Or.inl hhead⟩,
    run_bind_of_ok (liftDecode_of_ok hdec _)]
  cases Status.moreResultsExists ok.status
  · simp only [Bool.not_false, if_true, popFront_run, Session.after_inbox, Session.after_waiting,
      Session.after_polls, Session.after_after, hw, List.tail_cons, Bool.false_eq_true, if_false]
  · simp only [Bool.not_true, Bool.false_eq_true, if_false, if_true, EStateM.run_pure, hw]

/-- The header of a result set where a result is owed: the entry turns to
`Row`, and the column definitions and their end are read past. -/
theorem waitTurn_result_of_header {header : List UInt8} {columns columnsEof : List (List UInt8)}
    {k : UInt64} {after : List UInt8}
    (hp : s.polls = columns.length + columnsEof.length + n + 1)
    (hin : s.conn.inbox = header :: (columns ++ columnsEof ++ rest)) (hw : s.conn.waiting = .result :: ws)
    (hplain : Plain header) (hhead : header.head? ≠ some 0x00)
    (hcount : getUintLenenc header = some (k, after)) (hk : k.toNat = columns.length)
    (hcols : ∀ d ∈ columns, Plain d) (hend : ColumnsEnd s.conn.deprecateEof columnsEof) :
    (waitTurn .result).run s = .ok () (s.after rest (.row :: ws) n) := by
  have hnot : ¬(header ≠ [] ∧ (header.head? = some 0x00 ∨ header.head? = some 0xff)) := by
    rintro ⟨-, h0 | hff⟩
    · exact hhead h0
    · exact hplain.2 hff
  rw [waitTurn, run_bind_of_ok (recvPacket_of_plain hp hin hplain), if_neg hnot,
    run_bind_of_ok (setFront_of_cons (by rw [Session.after_waiting, hw]))]
  simp only [Session.after_inbox, Session.after_polls, Session.after_after]
  -- the count, then the definitions, then their end
  have hskip := skipPackets_of_plain columns hcols
    (s := s.after (columns ++ columnsEof ++ rest) (.row :: ws) (columns.length + columnsEof.length + n))
    (n := columnsEof.length + n) (by simp [List.append_assoc] : _ = columns ++ (columnsEof ++ rest)) (by simp; omega)
  obtain ⟨r, hr⟩ := maybeRecvEof_of_columnsEnd
    (s := s.after (columnsEof ++ rest) (.row :: ws) (columnsEof.length + n)) (n := n)
    (by simpa using hend) rfl rfl
  simp only [Session.after_after, Session.after_waiting] at hskip hr
  simp only [skipResultMetadata, liftPanic, hcount, hk, EStateM.run_bind, EStateM.run_pure, hskip, hr]

/-- A row where a row is owed: read past. -/
theorem waitTurn_row_of_row {row : List UInt8}
    (hp : s.polls = n + 1) (hin : s.conn.inbox = row :: rest) (hplain : Plain row) (hnot : NotEof row) :
    (waitTurn .row).run s = .ok () (s.after rest s.conn.waiting n) := by
  have hcond : ¬(row ≠ [] ∧ row.head? = some 0xfe ∧ row.length < 9) := fun ⟨_, h⟩ => hnot h
  rw [waitTurn, run_bind_of_ok (recvPacket_of_plain hp hin hplain), if_neg hcond]
  rfl

/-- The end of a result set where a row is owed: the entry goes back to
`Result` when more results follow, and goes otherwise. -/
theorem waitTurn_row_of_eof {eof : List UInt8} {e : EofPacket}
    (hp : s.polls = n + 1) (hin : s.conn.inbox = eof :: rest) (hw : s.conn.waiting = .row :: ws)
    (hplain : Plain eof) (hhead : eof.head? = some 0xfe) (hlen : eof.length < 9)
    (hdec : (Packet.eof s.conn.deprecateEof eof).run = some (.ok e)) :
    (waitTurn .row).run s =
      .ok () (s.after rest (if Status.moreResultsExists e.status then .result :: ws else ws) n) := by
  rw [waitTurn, run_bind_of_ok (recvPacket_of_plain hp hin hplain), if_pos ⟨hplain.1, hhead, hlen⟩,
    run_bind_of_ok (EStateM.run_get _)]
  simp only [Session.after_deprecateEof]
  rw [run_bind_of_ok (liftDecode_of_ok hdec _)]
  cases Status.moreResultsExists e.status
  · simp only [Bool.false_eq_true, if_false, popFront_run, Session.after_inbox, Session.after_waiting,
      Session.after_polls, Session.after_after, hw, List.tail_cons]
  · simp only [if_true]
    rw [setFront_of_cons (by rw [Session.after_waiting, hw])]
    rfl

end Turn

theorem waitTurn_of_nil {s : Session} {w : Waiting} {n : Nat} (hp : s.polls = n + 1) (hin : s.conn.inbox = []) :
    (waitTurn w).run s = .error .blocked { s with polls := n } := by
  cases w <;> exact run_bind_of_error (recvPacket_of_nil hp hin)

/-- Nothing left to read while a response is owed: `wait_until_ready` waits for ever. -/
theorem waitUntilReady_of_blocked {s : Session} {n : Nat} (hp : s.polls = n + 1) (hin : s.conn.inbox = [])
    (hw : s.conn.waiting ≠ []) : waitUntilReady.run s = .error .blocked { s with polls := n } := by
  obtain ⟨w, ws, hws⟩ := List.exists_cons_of_ne_nil hw
  exact waitUntilReady_of_turn_error hws (waitTurn_of_nil hp hin)

/-! ### Complete responses -/

/-- One result of a response as the server sends it: an OK packet, or a
result set (its header with the column count, the column definitions, their
EOF unless deprecated, the rows, and the packet that ends them). -/
inductive ResultSet where
  | ok (packet : List UInt8)
  | rows (header : List UInt8) (columns columnsEof rows : List (List UInt8)) (eof : List UInt8)

/-- The packets of a result, in the order they are sent. -/
def ResultSet.packets : ResultSet → List (List UInt8)
  | .ok packet => [packet]
  | .rows header columns columnsEof rs eof => header :: (columns ++ columnsEof ++ (rs ++ [eof]))

/-- A result as the reader expects it under `deprecateEof`, indexed by what
its status flags say: whether more results follow. -/
inductive ResultSet.Wf (deprecateEof : Bool) : Bool → ResultSet → Prop
  | ok {packet : List UInt8} {ok : OkPacket} (hhead : packet.head? = some 0x00)
      (hdec : (OkPacket.decode packet).run = some (.ok ok)) :
      ResultSet.Wf deprecateEof (Status.moreResultsExists ok.status) (.ok packet)
  | rows {header : List UInt8} {columns columnsEof rows : List (List UInt8)} {eof : List UInt8} {k : UInt64}
      {after : List UInt8} {e : EofPacket} (hheader : Plain header) (hhead : header.head? ≠ some 0x00)
      (hcount : getUintLenenc header = some (k, after)) (hk : k.toNat = columns.length)
      (hcols : ∀ d ∈ columns, Plain d) (hend : ColumnsEnd deprecateEof columnsEof)
      (hrows : ∀ r ∈ rows, Plain r ∧ NotEof r) (heof : Plain eof) (heofHead : eof.head? = some 0xfe)
      (hlen : eof.length < 9) (hdec : (Packet.eof deprecateEof eof).run = some (.ok e)) :
      ResultSet.Wf deprecateEof (Status.moreResultsExists e.status) (.rows header columns columnsEof rows eof)

/-- A complete response: its results, each but the last saying that more follow. -/
inductive Response.Wf (deprecateEof : Bool) : List ResultSet → Prop
  | last {r : ResultSet} : r.Wf deprecateEof false → Response.Wf deprecateEof [r]
  | more {r : ResultSet} {results : List ResultSet} :
      r.Wf deprecateEof true → Response.Wf deprecateEof results → Response.Wf deprecateEof (r :: results)

/-- The packets of a response. -/
def Response.packets (results : List ResultSet) : List (List UInt8) := results.flatMap ResultSet.packets

section Responses

variable {rest : List (List UInt8)} {ws : List Waiting}

/-- The rows of a result set, read past one turn each while `Row` is owed. -/
theorem waitUntilReady_rows : ∀ {rows : List (List UInt8)} {s : Session} {n : Nat},
    (∀ r ∈ rows, Plain r ∧ NotEof r) → s.conn.waiting = .row :: ws → s.conn.inbox = rows ++ rest →
    s.polls = rows.length + n → waitUntilReady.run s = waitUntilReady.run (s.after rest s.conn.waiting n)
  | [], s, n, _, _, hin, hp => by
    simp only [List.nil_append, List.length_nil, Nat.zero_add] at hin hp
    rw [← hin, ← hp, Session.after_self]
  | r :: rows, s, n, hrows, hw, hin, hp => by
    have hr := hrows r List.mem_cons_self
    have hturn := waitTurn_row_of_row (n := rows.length + n) (by rw [hp, List.length_cons]; omega)
      (by rw [hin, List.cons_append] : s.conn.inbox = r :: (rows ++ rest)) hr.1 hr.2
    rw [waitUntilReady_of_turn hw hturn]
    -- the rest of the rows, from the state the turn left
    have hnext := waitUntilReady_rows (s := s.after (rows ++ rest) s.conn.waiting (rows.length + n)) (n := n)
      (fun q hq => hrows q (List.mem_cons_of_mem r hq)) (by rw [Session.after_waiting, hw]) rfl rfl
    rw [hnext, Session.after_after, Session.after_waiting]

/-- One result read whole where `Result` is owed: the entry stays when more
results follow, and goes otherwise. -/
theorem waitUntilReady_resultSet {s : Session} {n : Nat} {r : ResultSet} {more : Bool}
    (hr : r.Wf s.conn.deprecateEof more) (hw : s.conn.waiting = .result :: ws)
    (hin : s.conn.inbox = r.packets ++ rest) (hp : s.polls = r.packets.length + n) :
    waitUntilReady.run s = waitUntilReady.run (s.after rest (if more then .result :: ws else ws) n) := by
  cases hr with
  | ok hhead hdec =>
    simp only [ResultSet.packets, List.singleton_append, List.length_singleton] at hin hp
    rw [waitUntilReady_of_turn hw (waitTurn_result_of_ok (n := n) (by omega) hin hw hhead hdec)]
  | @rows header columns columnsEof rows eof k after e hheader hhead hcount hk hcols hend hrows heof heofHead
      hlen hdec =>
    simp only [ResultSet.packets, List.cons_append, List.append_assoc, List.nil_append] at hin
    simp only [ResultSet.packets, List.length_cons, List.length_append, List.length_nil] at hp
    -- the header and the column definitions
    have hhdr := waitTurn_result_of_header (n := rows.length + 1 + n) (by rw [hp]; omega)
      (by rw [hin, List.append_assoc] : s.conn.inbox = header :: (columns ++ columnsEof ++ (rows ++ eof :: rest)))
      hw hheader hhead hcount hk hcols hend
    rw [waitUntilReady_of_turn hw hhdr]
    -- the rows
    rw [waitUntilReady_rows (n := 1 + n) hrows (by rw [Session.after_waiting]) rfl
      (by rw [Session.after_polls]; omega)]
    -- the packet that ends them
    simp only [Session.after_after, Session.after_waiting]
    have heofTurn := waitTurn_row_of_eof (s := s.after (eof :: rest) (.row :: ws) (1 + n)) (n := n)
      (by rw [Session.after_polls]; omega) rfl rfl heof heofHead hlen (by rw [Session.after_deprecateEof]; exact hdec)
    rw [waitUntilReady_of_turn rfl heofTurn, Session.after_after]

/-- A response read whole where its `Result` is owed: the entry goes. -/
theorem waitUntilReady_response {d : Bool} {results : List ResultSet} (h : Response.Wf d results) :
    ∀ {s : Session} {n : Nat}, s.conn.deprecateEof = d → s.conn.waiting = .result :: ws →
      s.conn.inbox = Response.packets results ++ rest → s.polls = (Response.packets results).length + n →
      waitUntilReady.run s = waitUntilReady.run (s.after rest ws n) := by
  induction h with
  | @last r hr =>
    intro s n hd hw hin hp
    simp only [Response.packets, List.flatMap_cons, List.flatMap_nil, List.append_nil] at hin hp
    rw [waitUntilReady_resultSet (hd ▸ hr) hw hin hp, if_neg Bool.false_ne_true]
  | @more r results hr _ ih =>
    intro s n hd hw hin hp
    simp only [Response.packets, List.flatMap_cons, List.append_assoc, List.length_append] at hin hp
    rw [waitUntilReady_resultSet (n := (Response.packets results).length + n) (hd ▸ hr) hw hin
      (by rw [hp, Response.packets, Nat.add_assoc]), if_pos rfl]
    rw [ih (by rw [Session.after_deprecateEof, hd]) rfl rfl rfl, Session.after_after]

/-- **What the queue is for.** When it lists one `Result` for each response
still owed and the connection holds exactly their packets, then what comes
after, `wait_until_ready` reads exactly those packets and stops. -/
theorem waitUntilReady_responses : ∀ (responses : List (List ResultSet)) {s : Session} {n : Nat},
    (∀ r ∈ responses, Response.Wf s.conn.deprecateEof r) →
    s.conn.waiting = List.replicate responses.length .result →
    s.conn.inbox = responses.flatMap Response.packets ++ rest →
    s.polls = (responses.flatMap Response.packets).length + n →
    waitUntilReady.run s = .ok () (s.after rest [] n)
  | [], s, n, _, hw, hin, hp => by
    simp only [List.length_nil, List.replicate_zero, List.flatMap_nil, List.nil_append, List.length_nil,
      Nat.zero_add] at hw hin hp
    rw [waitUntilReady_of_nil hw, ← hin, ← hp, ← hw, Session.after_self]
  | r :: responses, s, n, hwf, hw, hin, hp => by
    simp only [List.length_cons, List.replicate_succ, List.flatMap_cons, List.append_assoc,
      List.length_append] at hw hin hp
    rw [waitUntilReady_response (hwf r List.mem_cons_self) (n := (responses.flatMap Response.packets).length + n)
      rfl hw hin (by rw [hp, Nat.add_assoc])]
    have hnext := waitUntilReady_responses responses
      (s := s.after (responses.flatMap Response.packets ++ rest) (List.replicate responses.length .result)
        ((responses.flatMap Response.packets).length + n))
      (fun q hq => by rw [Session.after_deprecateEof]; exact hwf q (List.mem_cons_of_mem r hq)) rfl rfl rfl
    rw [hnext, Session.after_after]

end Responses

end MySqlStream

/-! ## The executor -/

namespace MySqlConnection

open MySqlStream

/-- The loop `for _ in 0..n { recv::<ColumnDefinition>() }` of
`prepare_statement`: each parameter definition is decoded and dropped. -/
def recvParams : Nat → SessionM Unit
  | 0 => pure ()
  | n + 1 => do
    let _def ← recv ColumnDefinition.decode
    recvParams n

/-- `column_names.insert(name, ordinal)`: a name seen again takes the new ordinal. -/
def insertColumnName (names : List (List UInt8 × Nat)) (name : List UInt8) (ordinal : Nat) :
    List (List UInt8 × Nat) :=
  names.filter (·.1 != name) ++ [(name, ordinal)]

/-- The loop of `recv_result_metadata` from `ordinal` on, `n` columns to go. -/
def recvResultMetadataLoop (ordinal : Nat) :
    Nat → List MySqlColumn → List (List UInt8 × Nat) → SessionM (List MySqlColumn × List (List UInt8 × Nat))
  | 0, columns, names => pure (columns, names)
  | n + 1, columns, names => do
    let definition ← recv ColumnDefinition.decode
    let column ← liftExcept (recvNextResultColumn definition ordinal)
    recvResultMetadataLoop (ordinal + 1) n (columns ++ [column]) (insertColumnName names column.name ordinal)

/-- `recv_result_metadata`: the columns and their names, then the EOF unless
deprecated. -/
def recvResultMetadata (numColumns : Nat) : SessionM (List MySqlColumn × List (List UInt8 × Nat)) := do
  let metadata ← recvResultMetadataLoop 0 numColumns [] []
  let _ ← maybeRecvEof
  pure metadata

/-- The loop of `recv_result_columns` from `ordinal` on, `n` columns to go. -/
def recvResultColumnsLoop (ordinal : Nat) : Nat → List MySqlColumn → SessionM (List MySqlColumn)
  | 0, columns => pure columns
  | n + 1, columns => do
    let definition ← recv ColumnDefinition.decode
    let column ← liftExcept (recvNextResultColumn definition ordinal)
    recvResultColumnsLoop (ordinal + 1) n (columns ++ [column])

/-- `recv_result_columns`: the columns without their names; the EOF only after
at least one column. -/
def recvResultColumns (numColumns : Nat) : SessionM (List MySqlColumn) := do
  let columns ← recvResultColumnsLoop 0 numColumns []
  if numColumns > 0 then
    let _ ← maybeRecvEof
  pure columns

section Server

variable (answer : Command → List (List UInt8))

/-- `prepare_statement`: the `COM_STMT_PREPARE` and its whole response, read
in line — the parameter definitions, skipped, then the column definitions. -/
def prepareStatement (sql : String) : SessionM (UInt32 × MySqlStatementMetadata) := do
  sendPacket answer (.prepare sql)
  let ok ← recv PrepareOk.decode
  if ok.params > 0 then
    recvParams ok.params
    let _ ← maybeRecvEof
  let (columns, columnNames) ← if ok.columns > 0 then recvResultMetadata ok.columns else pure ([], [])
  pure (ok.statementId, ⟨columns, columnNames, ok.params⟩)

/-- `get_or_prepare_statement`: a cached statement, or a prepared one put in
the cache, whose evicted statement is closed. -/
def getOrPrepareStatement (sql : String) : SessionM (UInt32 × MySqlStatementMetadata) := do
  let (cached, cache) := (← get).conn.cacheStatement.getMut sql
  modifyConn fun c => { c with cacheStatement := cache }
  match cached with
  | some statement => pure statement
  | none =>
    let (id, metadata) ← prepareStatement answer sql
    let (cache, evicted) := (← get).conn.cacheStatement.insert sql (id, metadata)
    modifyConn fun c => { c with cacheStatement := cache }
    if let some (id, _) := evicted then sendPacket answer (.stmtClose id)
    pure (id, metadata)

/-- Dropped at its first read, `prepare_statement` has written its command
and read nothing of the answer. -/
theorem prepareStatement_of_one (sql : String) {s : Session} (hp : s.polls = 1) :
    (prepareStatement answer sql).run s =
      .error .dropped (s.after (s.conn.inbox ++ answer (.prepare sql)) s.conn.waiting 0) := by
  rw [prepareStatement, run_bind_of_ok (sendPacket_of_succ answer _ hp)]
  exact run_bind_of_error (recv_of_zero _ rfl)

end Server

/-- `TextRow` and `BinaryRow::decode_with`, by the format. -/
def decodeRow (format : MySqlValueFormat) (packet : List UInt8) (columns : List MySqlColumn) : SessionM Row :=
  match format with
  | .binary =>
    match (BinaryRow.decodeWith packet (columns.map (·.type))).run with
    | none => throw .panic
    | some (.error (.header header)) =>
      let found := hex02 header.toNat
      throw (.error (.protocol s!"exepcted 0x00 (ROW) but found 0x{found}"))
    | some (.ok row) => pure row
  | .text => liftPanic (TextRow.decodeWith packet (columns.map (·.type)))

/-- One turn of the row loop of `run`: a row, or the EOF that ends the result
set, which breaks with whether another result set follows. -/
def rowTurn (format : MySqlValueFormat) (columns : List MySqlColumn) (columnNames : List (List UInt8 × Nat))
    (_ : Unit) : SessionM (Unit ⊕ Bool) := do
  let packet ← MySqlStream.recvPacket
  -- `packet[0]`: `recv_packet` hands on no empty packet
  if packet.head? = some 0xfe ∧ packet.length < 9 then
    let eof ← liftDecode (Packet.eof (← get).conn.deprecateEof packet)
    yieldItem (.inl ⟨0, 0⟩)
    if Status.moreResultsExists eof.status then
      setFront .result
      pure (.inr true)
    else
      popFront
      pure (.inr false)
  else
    let row ← decodeRow format packet columns
    yieldItem (.inr ⟨row, format, columns, columnNames⟩)
    pure (.inl ())

theorem decodeRow_keeps (format : MySqlValueFormat) (packet : List UInt8) (columns : List MySqlColumn) :
    Keeps Session.polls (decodeRow format packet columns) := by
  unfold decodeRow
  split
  · split
    · exact keeps_throw _
    · exact keeps_throw _
    · exact keeps_pure _
  · exact liftPanic_keeps _

theorem rowTurn_lowers (format : MySqlValueFormat) (columns : List MySqlColumn)
    (columnNames : List (List UInt8 × Nat)) (c : Unit) :
    Lowers Session.polls (rowTurn format columns columnNames c) := by
  refine Lowers.bind_left MySqlStream.recvPacket_lowers fun packet => ?_
  split
  · refine Keeps.bind keeps_get fun s => Keeps.bind (liftDecode_keeps _) fun eof =>
      Keeps.bind (yieldItem_lowers _).keeps fun _ => ?_
    split
    · exact Keeps.bind (setFront_keeps _) fun _ => keeps_pure _
    · exact Keeps.bind popFront_keeps fun _ => keeps_pure _
  · exact Keeps.bind (decodeRow_keeps _ _ _) fun _ => Keeps.bind (yieldItem_lowers _).keeps fun _ => keeps_pure _

/-- The row loop of `run`: `true` when another result set follows. -/
def rowLoop (format : MySqlValueFormat) (columns : List MySqlColumn) (columnNames : List (List UInt8 × Nat)) :
    SessionM Bool :=
  loopUntil (rowTurn format columns columnNames) (Lowers.advances (rowTurn_lowers format columns columnNames)) ()

theorem recvResultMetadataLoop_keeps (ordinal n : Nat) (columns : List MySqlColumn)
    (names : List (List UInt8 × Nat)) : Keeps Session.polls (recvResultMetadataLoop ordinal n columns names) := by
  induction n generalizing ordinal columns names with
  | zero => exact keeps_pure _
  | succ n ih =>
    exact Keeps.bind (recv_lowers _).keeps fun _ => Keeps.bind (liftExcept_keeps _) fun _ => ih _ _ _

theorem recvResultColumnsLoop_keeps (ordinal n : Nat) (columns : List MySqlColumn) :
    Keeps Session.polls (recvResultColumnsLoop ordinal n columns) := by
  induction n generalizing ordinal columns with
  | zero => exact keeps_pure _
  | succ n ih =>
    exact Keeps.bind (recv_lowers _).keeps fun _ => Keeps.bind (liftExcept_keeps _) fun _ => ih _ _

/-- The columns of a result set: with their names on the first one of a text
query and on every one after the first, without them on the first of a
prepared statement, whose names the statement's metadata gives. -/
def resultColumns (needsMetadata : Bool) (numColumns : Nat) (columnNames : List (List UInt8 × Nat)) :
    SessionM (List MySqlColumn × List (List UInt8 × Nat)) :=
  if needsMetadata then recvResultMetadata numColumns
  else do
    let columns ← recvResultColumns numColumns
    pure (columns, columnNames)

theorem resultColumns_keeps (needsMetadata : Bool) (numColumns : Nat) (columnNames : List (List UInt8 × Nat)) :
    Keeps Session.polls (resultColumns needsMetadata numColumns columnNames) := by
  unfold resultColumns recvResultMetadata recvResultColumns
  split
  · exact Keeps.bind (recvResultMetadataLoop_keeps _ _ _ _) fun _ =>
      Keeps.bind maybeRecvEof_keeps fun _ => keeps_pure _
  · refine Keeps.bind (Keeps.bind (recvResultColumnsLoop_keeps _ _ _) fun _ => ?_) fun _ => keeps_pure _
    split
    · exact Keeps.bind maybeRecvEof_keeps fun _ => keeps_pure _
    · exact keeps_pure _

/-- One turn of the loop of `run`, on the column names and whether the next
result set needs its metadata read: an OK or ERR packet, handed out as a
result, or the header of a result set, its columns and its rows. -/
def resultTurn (format : MySqlValueFormat) :
    List (List UInt8 × Nat) × Bool → SessionM ((List (List UInt8 × Nat) × Bool) ⊕ Unit)
  | (columnNames, needsMetadata) => do
    let packet ← MySqlStream.recvPacket
    if packet.head? = some 0x00 ∨ packet.head? = some 0xff then
      let ok ← liftDecode (OkPacket.decode packet)
      yieldItem (.inl ⟨ok.affectedRows, ok.lastInsertId⟩)
      if Status.moreResultsExists ok.status then pure (.inl (columnNames, needsMetadata))
      else
        popFront
        pure (.inr ())
    else
      setFront .row
      let (numColumns, _) ← liftPanic (getUintLenenc packet)
      -- `usize::try_from` of the count cannot fail on a 64-bit target
      let (columns, columnNames) ← resultColumns needsMetadata numColumns.toNat columnNames
      -- after the first result set every one needs its metadata
      if ← rowLoop format columns columnNames then pure (.inl (columnNames, true))
      else pure (.inr ())

theorem resultTurn_lowers (format : MySqlValueFormat) (c : List (List UInt8 × Nat) × Bool) :
    Lowers Session.polls (resultTurn format c) := by
  obtain ⟨columnNames, needsMetadata⟩ := c
  refine Lowers.bind_left MySqlStream.recvPacket_lowers fun packet => ?_
  split
  · refine Keeps.bind (liftDecode_keeps _) fun ok => Keeps.bind (yieldItem_lowers _).keeps fun _ => ?_
    split
    · exact keeps_pure _
    · exact Keeps.bind popFront_keeps fun _ => keeps_pure _
  · refine Keeps.bind (setFront_keeps _) fun _ => Keeps.bind (liftPanic_keeps _) fun _ =>
      Keeps.bind (resultColumns_keeps _ _ _) fun _ =>
        Keeps.bind (Keeps.loopUntil (fun _ => (rowTurn_lowers _ _ _ _).keeps) ()) fun more => ?_
    split
    · exact keeps_pure _
    · exact keeps_pure _

section Server

variable (answer : Command → List (List UInt8))

/-- `MySqlConnection::run`, its future and then its result stream: the
queue gets its `Result` entry before the command is written. -/
def run (sql : String) (arguments : Option MySqlArguments) (persistent : Bool) : SessionM Unit := do
  waitUntilReady
  pushBack .result
  let (columnNames, format, needsMetadata) ← match arguments with
    | some arguments =>
      if persistent && (← get).conn.cacheStatement.isEnabled then do
        let (id, metadata) ← getOrPrepareStatement answer sql
        sendPacket answer (.statementExecute id arguments)
        pure (metadata.columnNames, MySqlValueFormat.binary, false)
      else do
        let (id, metadata) ← prepareStatement answer sql
        sendPacket answer (.statementExecute id arguments)
        sendPacket answer (.stmtClose id)
        pure (metadata.columnNames, MySqlValueFormat.binary, false)
    | none => do
      sendPacket answer (.query sql)
      pure ([], MySqlValueFormat.text, true)
  loopUntil (resultTurn format) (Lowers.advances (resultTurn_lowers format)) (columnNames, needsMetadata)

/-- Dropped while it prepares, a `run` with arguments leaves its `Result`
entry behind, with the whole answer to the `COM_STMT_PREPARE` unread. -/
theorem run_of_prepare_dropped (sql : String) (arguments : MySqlArguments) {s : Session}
    (hw : s.conn.waiting = []) (hp : s.polls = 1) :
    (run answer sql (some arguments) false).run s =
      .error .dropped (s.after (s.conn.inbox ++ answer (.prepare sql)) [.result] 0) := by
  rw [run, run_bind_of_ok (waitUntilReady_of_nil hw), run_bind_of_ok (pushBack_run _ _)]
  simp only [hw, List.nil_append, EStateM.run_bind, EStateM.run_get, Bool.false_and, Bool.false_eq_true, if_false]
  rw [prepareStatement_of_one answer sql (by rw [Session.after_polls, hp])]
  rfl

/-- A query answered by one OK packet, dropped at the `yield` of its
result: the result is handed out, and the `Result` entry stays with nothing
left to read. -/
theorem run_of_ok_dropped_at_yield (sql : String) (persistent : Bool) {s : Session} {okPacket : List UInt8}
    {ok : OkPacket} (hw : s.conn.waiting = []) (hin : s.conn.inbox = []) (hp : s.polls = 2)
    (hquery : answer (.query sql) = [okPacket]) (hhead : okPacket.head? = some 0x00)
    (hdec : (OkPacket.decode okPacket).run = some (.ok ok)) :
    (run answer sql none persistent).run s =
      .error .dropped { s.after [] [.result] 0 with items := s.items ++ [.inl ⟨ok.affectedRows, ok.lastInsertId⟩] } := by
  rw [run, run_bind_of_ok (waitUntilReady_of_nil hw), run_bind_of_ok (pushBack_run _ _)]
  simp only [hw, hin, List.nil_append, EStateM.run_bind]
  rw [sendPacket_of_succ answer _ (n := 1) (by rw [Session.after_polls, hp])]
  simp only [EStateM.run_pure, Session.after_after, Session.after_inbox, Session.after_waiting, hquery,
    List.nil_append]
  -- the first turn reads the OK packet and is dropped at the yield of its result
  apply loopUntil_of_error
  rw [resultTurn, run_bind_of_ok (recvPacket_of_plain (n := 0) rfl rfl (plain_of_head hhead (by decide))),
    if_pos (Or.inl hhead), run_bind_of_ok (liftDecode_of_ok hdec _)]
  exact run_bind_of_error (yieldItem_of_zero _ rfl)

/-- `prepare_with`: the statement's metadata, through the cache when it is
enabled. -/
def prepareWith (sql : String) : SessionM MySqlStatementMetadata := do
  waitUntilReady
  if (← get).conn.cacheStatement.isEnabled then
    let (_, metadata) ← getOrPrepareStatement answer sql
    pure metadata
  else
    let (id, metadata) ← prepareStatement answer sql
    sendPacket answer (.stmtClose id)
    pure metadata

/-- `Describe`, as `describe` builds it. -/
structure Describe where
  parameters : Nat
  columns : List MySqlColumn
  nullable : List (Option Bool)

/-- `describe`: a statement prepared and closed; a column is nullable unless
its flags hold `NOT_NULL`. -/
def describe (sql : String) : SessionM Describe := do
  waitUntilReady
  let (id, metadata) ← prepareStatement answer sql
  sendPacket answer (.stmtClose id)
  pure ⟨metadata.parameters, metadata.columns, metadata.columns.map fun col => some !(col.flags.testBit 0)⟩

end Server

end MySqlConnection

/-- An operation of the executor; `begin`, `commit` and `rollback` are
queries without arguments. -/
inductive Operation where
  | run (sql : String) (arguments : Option MySqlArguments) (persistent : Bool)
  | prepareWith (sql : String)
  | describe (sql : String)

/-- The operation, its value dropped. -/
def Operation.exec (answer : Command → List (List UInt8)) : Operation → SessionM Unit
  | .run sql arguments persistent => MySqlConnection.run answer sql arguments persistent
  | .prepareWith sql => do let _ ← MySqlConnection.prepareWith answer sql
  | .describe sql => do let _ ← MySqlConnection.describe answer sql

/-- Every operation first reads past what the queue says is still owed. -/
theorem Operation.exec_of_waitUntilReady_error (answer : Command → List (List UInt8)) {s s' : Session}
    {e : Failure} (h : MySqlStream.waitUntilReady.run s = .error e s') (op : Operation) :
    (op.exec answer).run s = .error e s' := by
  cases op with
  | run sql arguments persistent => exact run_bind_of_error h
  | prepareWith sql => exact run_bind_of_error (run_bind_of_error h)
  | describe sql => exact run_bind_of_error (run_bind_of_error h)

open MySqlStream MySqlConnection in
/-- The queue loses count of the responses owed when a task drops an
operation at an await. Dropped after its `COM_STMT_PREPARE` is written, a
`run` with arguments leaves one `Result` for the prepare's answer, which
`wait_until_ready` takes for an OK packet: it stops with the queue empty and
the column and parameter definitions still to read. Dropped at the `yield`
of its last result, a query leaves its `Result` for an answer read whole,
and every later operation waits for ever. -/
theorem dropped_operations_desynchronise_waiting (answer : Command → List (List UInt8)) (sql : String)
    (s : Session) (hidle : s.conn.waiting = [] ∧ s.conn.inbox = []) :
    (∀ (arguments : MySqlArguments) (id : UInt64) (c₀ c₁ : UInt8) (tail : List UInt8)
        (definitions : List (List UInt8)),
      answer (.prepare sql) = (0x00 :: id.toUInt8 :: 0 :: 0 :: 0 :: c₀ :: c₁ :: tail) :: definitions →
      id ≤ 250 → definitions ≠ [] →
      ∃ s₁, (run answer sql (some arguments) false).run { s with polls := 1 } = .error .dropped s₁ ∧
        s₁.conn.waiting = [.result] ∧
        ∀ n, waitUntilReady.run { s₁ with polls := n + 1 } = .ok () (s₁.after definitions [] n)) ∧
    (∀ (persistent : Bool) (a l : UInt64) (s₀ s₁ w₀ w₁ : UInt8) (tail : List UInt8),
      answer (.query sql) = [0x00 :: a.toUInt8 :: l.toUInt8 :: s₀ :: s₁ :: w₀ :: w₁ :: tail] →
      a ≤ 250 → l ≤ 250 → Status.moreResultsExists (leValue [s₀, s₁]) = false →
      ∃ t, (run answer sql none persistent).run { s with polls := 2 } = .error .dropped t ∧
        t.items = s.items ++ [.inl ⟨a, l⟩] ∧ t.conn.inbox = [] ∧ t.conn.waiting = [.result] ∧
        ∀ (op : Operation) (n : Nat), ∃ t', (op.exec answer).run { t with polls := n + 1 } = .error .blocked t') := by
  obtain ⟨hw, hin⟩ := hidle
  refine ⟨?_, ?_⟩
  · intro arguments id c₀ c₁ tail definitions hprep hid _
    refine ⟨_, run_of_prepare_dropped answer sql arguments (s := { s with polls := 1 }) hw rfl, rfl, fun n => ?_⟩
    -- the `PrepareOk` reads as an OK packet that says no more results follow
    have hdec : (OkPacket.decode (0x00 :: id.toUInt8 :: 0 :: 0 :: 0 :: c₀ :: c₁ :: tail)).run =
        some (.ok ⟨id, 0, leValue [0, 0], leValue [c₀, c₁]⟩) :=
      @OkPacket.decode_of_le_250 0 0 0 c₀ c₁ id 0 (Or.inl rfl) hid (by decide) tail
    -- the task that polls the next operation lets `n + 1` awaits pass
    let s₁ : Session := ({ s with polls := 1 } : Session).after (s.conn.inbox ++ answer (.prepare sql)) [.result] 0
    have hturn := waitTurn_result_of_ok (s := { s₁ with polls := n + 1 }) (n := n) rfl
      (by simp only [s₁, Session.after_inbox, hin, List.nil_append, hprep] : _ = _ :: definitions) rfl rfl hdec
    -- its status is zero: no more results, and the entry goes
    have hmore : Status.moreResultsExists (leValue [0, 0]) = false := by decide
    simp only [hmore, Bool.false_eq_true, if_false] at hturn
    rw [waitUntilReady_of_turn rfl hturn, waitUntilReady_of_nil rfl]
    rfl
  · intro persistent a l s₀ s₁ w₀ w₁ tail hquery ha hl hmore
    have hdec := @OkPacket.decode_of_le_250 0 s₀ s₁ w₀ w₁ a l (Or.inl rfl) ha hl tail
    refine ⟨_, run_of_ok_dropped_at_yield answer sql persistent (s := { s with polls := 2 }) hw hin rfl hquery rfl
      hdec, rfl, rfl, rfl, fun op n => ?_⟩
    -- the next operation's `wait_until_ready` owes a response with nothing left to read
    exact ⟨_, Operation.exec_of_waitUntilReady_error answer
      (waitUntilReady_of_blocked rfl rfl (List.cons_ne_nil Waiting.result [])) op⟩

/-- A server that answers a `COM_STMT_PREPARE` with one column definition,
and a query with an OK packet, on a connection with nothing owed. -/
theorem dropped_prepare_then_dropped_insert :
    (∃ s₁, (MySqlConnection.run (fun cmd => match cmd with
          | .query _ => [[0x00, 1, 0, 2, 0, 0, 0]]
          | _ => [[0x00, 1, 0, 0, 0, 1, 0, 0, 0, 0, 0, 0], [0x03, 0x64, 0x65, 0x66]])
        "SELECT ?" (some .empty) false).run ⟨⟨[], [], false, .new 0⟩, 1, []⟩ = .error .dropped s₁ ∧
      s₁.conn.waiting = [.result] ∧
      ∀ n, MySqlStream.waitUntilReady.run { s₁ with polls := n + 1 } =
        .ok () (s₁.after [[0x03, 0x64, 0x65, 0x66]] [] n)) ∧
    (∃ t, (MySqlConnection.run (fun cmd => match cmd with
          | .query _ => [[0x00, 1, 0, 2, 0, 0, 0]]
          | _ => [[0x00, 1, 0, 0, 0, 1, 0, 0, 0, 0, 0, 0], [0x03, 0x64, 0x65, 0x66]])
        "SELECT ?" none false).run ⟨⟨[], [], false, .new 0⟩, 2, []⟩ = .error .dropped t ∧
      t.items = [.inl ⟨1, 0⟩] ∧ t.conn.inbox = [] ∧ t.conn.waiting = [.result] ∧
      ∀ (op : Operation) (n : Nat), ∃ t', (op.exec (fun cmd => match cmd with
          | .query _ => [[0x00, 1, 0, 2, 0, 0, 0]]
          | _ => [[0x00, 1, 0, 0, 0, 1, 0, 0, 0, 0, 0, 0], [0x03, 0x64, 0x65, 0x66]])).run
        { t with polls := n + 1 } = .error .blocked t') := by
  have h := dropped_operations_desynchronise_waiting (fun cmd => match cmd with
      | .query _ => [[0x00, 1, 0, 2, 0, 0, 0]]
      | _ => [[0x00, 1, 0, 0, 0, 1, 0, 0, 0, 0, 0, 0], [0x03, 0x64, 0x65, 0x66]])
    "SELECT ?" ⟨⟨[], [], false, .new 0⟩, 0, []⟩ ⟨rfl, rfl⟩
  exact ⟨h.1 .empty 1 1 0 [0, 0, 0, 0, 0] _ rfl (by decide) (List.cons_ne_nil _ _),
    h.2 false 1 0 2 0 0 0 [] rfl (by decide) (by decide) (by decide)⟩

end Sqlx.MySql
