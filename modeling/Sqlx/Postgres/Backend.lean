import Sqlx.Postgres.Protocol

/-!
# Postgres — a server that keeps the protocol's laws

One `Database`: a server of the extended query protocol over a database
engine (`Engine`, a parameter: what running a statement sends and does, and
the transaction status it reports). It is not translated from the
repository, and nothing in the connection's model rests on it; it shows
that the laws of `Database` can be met together (`Backend.database`), and
runs the concrete histories of the witnesses. It answers each message as it
arrives: `Parse` with `ParseComplete`, `Describe` of a statement with its
`ParameterDescription` and its `RowDescription` (or `NoData`), `Bind` with
`BindComplete`, `Execute` with what running the portal sends, `Close` with
`CloseComplete`; `Sync` and a simple `Query` end with `ReadyForQuery`. After
an error it discards every message up to the next `Sync`.
-/

namespace Sqlx.Postgres

open Wire

/-- What the database sends while it runs a statement. -/
inductive Reply where
  | rowDescription (contents : List UInt8)
  | dataRow (contents : List UInt8)
  | commandComplete (tag : List UInt8)
  | emptyQueryResponse
  | portalSuspended
  | noticeResponse (contents : List UInt8)
  | parameterStatus (contents : List UInt8)
  | notificationResponse (contents : List UInt8)

/-- The message a reply is sent as. -/
def Reply.message : Reply → ReceivedMessage
  | .rowDescription contents => ⟨.rowDescription, contents⟩
  | .dataRow contents => ⟨.dataRow, contents⟩
  | .commandComplete tag => ⟨.commandComplete, tag⟩
  | .emptyQueryResponse => ⟨.emptyQueryResponse, []⟩
  | .portalSuspended => ⟨.portalSuspended, []⟩
  | .noticeResponse contents => ⟨.noticeResponse, contents⟩
  | .parameterStatus contents => ⟨.parameterStatus, contents⟩
  | .notificationResponse contents => ⟨.notificationResponse, contents⟩

theorem noReady_replies (replies : List Reply) : NoReady (replies.map Reply.message) := by
  intro m hm
  obtain ⟨r, -, rfl⟩ := List.mem_map.1 hm
  cases r <;> rfl

/-- What running a statement gives: what it sends, the error it fails with
if it does, and the database after it. -/
structure Execution (σ : Type) where
  replies : List Reply
  error : Option (List UInt8)
  state : σ

/-- The messages of an outcome: the replies, then the error. -/
def Execution.messages {σ : Type} (o : Execution σ) : List ReceivedMessage :=
  o.replies.map Reply.message ++ o.error.toList.map errorResponse

theorem Execution.noReady_messages {σ : Type} (o : Execution σ) : NoReady o.messages := by
  refine (noReady_replies o.replies).append ?_
  intro m hm
  obtain ⟨e, -, rfl⟩ := List.mem_map.1 hm
  rfl

/-- The database engine behind the server, and the catalogue the driver's
type lookups read. -/
structure Engine (σ : Type) where
  /-- `Parse`: the statement's `ParameterDescription` and `RowDescription`
  (`None` for `NoData`), or the fields of the error -/
  parse : σ → String → List Nat → Except (List UInt8) (List UInt8 × Option (List UInt8))
  /-- running a portal: its statement, its parameters and the row limit -/
  execute : σ → String → List UInt8 → Nat → Execution σ
  /-- running a simple query -/
  query : σ → String → Execution σ
  /-- the status `ReadyForQuery` reports -/
  status : σ → TransactionStatus
  /-- `SELECT $1::regtype::oid` -/
  regtype : String → Option Nat
  /-- `SELECT oid, typarray FROM pg_catalog.pg_type WHERE oid = $1::regtype::oid` -/
  typarray : String → Option (Nat × Nat)

/-- A prepared statement on the server. -/
structure Prepared where
  sql : String
  parameterDescription : List UInt8
  rowDescription : Option (List UInt8)

/-- The server: the database, the prepared statements and portals by name,
and whether it is discarding messages after an error. -/
structure Backend (σ : Type) where
  state : σ
  statements : List (List UInt8 × Prepared)
  portals : List (List UInt8 × String × List UInt8)
  failed : Bool

/-- An association list without the entry of `k`. -/
def assocErase {β : Type} (k : List UInt8) (l : List (List UInt8 × β)) : List (List UInt8 × β) :=
  l.filter fun p => p.1 != k

/-- The fields of an error the server raises itself: its severity, SQLSTATE
code and message, each a tagged C string, and a closing NUL. -/
def serverError (code message : String) : List UInt8 :=
  0x53 :: asciiBytes "ERROR".toList ++ 0 :: 0x43 :: asciiBytes code.toList ++ 0 :: 0x4D ::
    asciiBytes message.toList ++ [0, 0]

namespace Backend

variable {σ : Type} (db : Engine σ)

/-- A server with no statement and no portal, on the database `state`. -/
def new (state : σ) : Backend σ := ⟨state, [], [], false⟩

/-- An error the server raises itself; it then discards up to the next `Sync`. -/
def fail (s : Backend σ) (code message : String) : List ReceivedMessage × Backend σ :=
  ([errorResponse (serverError code message)], { s with failed := true })

/-- A message outside an error: what the server sends for it, and the server after. -/
def process (s : Backend σ) : Frontend → List ReceivedMessage × Backend σ
  | .query sql =>
    -- a simple query also destroys the unnamed portal
    let o := db.query s.state sql
    (o.messages ++ [readyForQuery (db.status o.state)],
      { s with state := o.state, portals := assocErase [] s.portals })
  | .parse statement sql paramTypes =>
    if statement.name ≠ [] ∧ (s.statements.lookup statement.name).isSome then
      s.fail "42P05" "prepared statement already exists"
    else
      match db.parse s.state sql paramTypes with
      | .error fields => ([errorResponse fields], { s with failed := true })
      | .ok (parameters, rows) =>
        ([⟨.parseComplete, []⟩],
          { s with statements := (statement.name, ⟨sql, parameters, rows⟩) :: assocErase statement.name s.statements })
  | .describeStatement statement =>
    match s.statements.lookup statement.name with
    | none => s.fail "26000" "prepared statement does not exist"
    | some p =>
      ([⟨.parameterDescription, p.parameterDescription⟩,
        match p.rowDescription with
        | some rows => ⟨.rowDescription, rows⟩
        | none => ⟨.noData, []⟩], s)
  | .bind portal statement _ params =>
    match s.statements.lookup statement.name with
    | none => s.fail "26000" "prepared statement does not exist"
    | some p =>
      ([⟨.bindComplete, []⟩], { s with portals := (portal.name, p.sql, params) :: assocErase portal.name s.portals })
  | .execute portal limit =>
    match s.portals.lookup portal.name with
    | none => s.fail "34000" "portal does not exist"
    | some (sql, params) =>
      let o := db.execute s.state sql params limit
      (o.messages, { s with state := o.state, failed := o.error.isSome })
  | .closeStatement statement =>
    ([⟨.closeComplete, []⟩], { s with statements := assocErase statement.name s.statements })
  | .closePortal portal => ([⟨.closeComplete, []⟩], { s with portals := assocErase portal.name s.portals })
  | .sync => ([readyForQuery (db.status s.state)], { s with failed := false })

/-- A message as it arrives: `Sync` always answers, anything else is
discarded after an error. -/
def receive (s : Backend σ) (m : Frontend) : List ReceivedMessage × Backend σ :=
  match m with
  | .sync => ([readyForQuery (db.status s.state)], { s with failed := false })
  | m => if s.failed then ([], s) else s.process db m

/-- The messages of a flush, one after the other. -/
def deliver (s : Backend σ) : List Frontend → List ReceivedMessage × Backend σ
  | [] => ([], s)
  | m :: ms => ((s.receive db m).1 ++ ((s.receive db m).2.deliver ms).1, ((s.receive db m).2.deliver ms).2)

theorem deliver_append (s : Backend σ) (a b : List Frontend) :
    s.deliver db (a ++ b) = ((s.deliver db a).1 ++ ((s.deliver db a).2.deliver db b).1,
      ((s.deliver db a).2.deliver db b).2) := by
  induction a generalizing s with
  | nil => rfl
  | cons m ms ih =>
    simp only [List.cons_append, deliver, ih, List.append_assoc]

/-- A message that closes no group is answered with no `ReadyForQuery`,
whichever way the server takes it. -/
theorem noReady_process (s : Backend σ) {m : Frontend} (hm : m.endsGroup = false) : NoReady (s.process db m).1 := by
  cases m with
  | sync => cases hm
  | query sql => cases hm
  | parse statement sql paramTypes =>
    simp only [process, fail]
    split
    · exact .singleton rfl
    · split <;> exact .singleton rfl
  | describeStatement statement =>
    simp only [process, fail]
    split
    · exact .singleton rfl
    · -- the parameters, then the rows or `NoData`
      intro x hx
      simp only [List.mem_cons, List.not_mem_nil, or_false] at hx
      rcases hx with rfl | rfl
      · rfl
      · split <;> rfl
  | bind portal statement numParams params =>
    simp only [process, fail]
    split <;> exact .singleton rfl
  | execute portal limit =>
    simp only [process, fail]
    split
    · exact .singleton rfl
    · exact Execution.noReady_messages _
  | closeStatement statement => exact .singleton rfl
  | closePortal portal => exact .singleton rfl

/-- The same as it arrives, discarded or not. -/
theorem noReady_receive (s : Backend σ) {m : Frontend} (hm : m.endsGroup = false) : NoReady (s.receive db m).1 := by
  cases m with
  | sync => cases hm
  | _ =>
    simp only [receive]
    split
    · exact .nil
    · exact s.noReady_process db hm

theorem noReady_deliver (s : Backend σ) {msgs : List Frontend} (h : ∀ m ∈ msgs, m.endsGroup = false) :
    NoReady (s.deliver db msgs).1 := by
  induction msgs generalizing s with
  | nil => exact .nil
  | cons m ms ih =>
    exact (s.noReady_receive db (h m List.mem_cons_self)).append
      (ih _ fun x hx => h x (List.mem_cons_of_mem m hx))

/-- A group closed by a `Sync`: messages with no `ReadyForQuery`, then the
one the `Sync` gets, with the status the database is left in. -/
theorem deliver_closed (s : Backend σ) (msgs : List Frontend) :
    s.deliver db (msgs ++ [.sync]) =
      ((s.deliver db msgs).1 ++ [readyForQuery (db.status (s.deliver db msgs).2.state)],
        { (s.deliver db msgs).2 with failed := false }) := by
  rw [deliver_append]
  rfl

/-- A simple query from outside an error: the database's messages, then a
`ReadyForQuery`. -/
theorem deliver_query (s : Backend σ) (hs : s.failed = false) (sql : String) :
    s.deliver db [.query sql] =
      ((db.query s.state sql).messages ++ [readyForQuery (db.status (db.query s.state sql).state)],
        { s with state := (db.query s.state sql).state, portals := assocErase [] s.portals }) := by
  simp only [deliver, receive, hs, Bool.false_eq_true, if_false, process, List.append_nil]

/-- The status the server's `ReadyForQuery` reports: the engine's. -/
def status (s : Backend σ) : TransactionStatus := db.status s.state

/-- One group answered, then a run from the server it leaves: the answer
of the whole run. -/
theorem answered_group {g rest : List Frontend} {s s₁ : Backend σ} {pre : List ReceivedMessage}
    (hg : s.deliver db g = (pre ++ [readyForQuery (db.status s₁.state)], s₁)) (hpre : NoReady pre)
    (hcount : groupCount g = 1) (hrest : Answered (status db) Backend.failed rest (s₁.deliver db rest).1 (s₁.deliver db rest).2) :
    Answered (status db) Backend.failed (g ++ rest) (s.deliver db (g ++ rest)).1 (s.deliver db (g ++ rest)).2 := by
  obtain ⟨hcount', hwf, hlast, hfailed⟩ := hrest
  rw [deliver_append, hg]
  refine ⟨?_, ?_, ?_, hfailed⟩
  · have hzero := readyCount_of_noReady hpre
    simp only [readyCount, groupCount, List.countP_append] at hcount hcount' hzero ⊢
    rw [hcount', hcount, hzero]
    simp [Nat.add_comm]
  · exact ((readyWellFormed_of_noReady hpre).append (readyWellFormed_singleton _)).append hwf
  · intro _
    cases rest with
    | nil => simp [deliver, status]
    | cons m ms =>
      have hne : (s₁.deliver db (m :: ms)).1 ≠ [] := by
        intro hnil
        have h := hlast (List.cons_ne_nil m ms)
        rw [hnil] at h
        cases h
      rw [List.getLast?_append_of_ne_nil _ hne, hlast (List.cons_ne_nil m ms)]

/-- **The server answers every group once.** From outside an error, a run
of whole groups is answered with one `ReadyForQuery` per group, the last
message carrying the status the database is left in, and the server ends
outside an error. -/
theorem deliver_groups {msgs : List Frontend} (h : Groups msgs) :
    ∀ s : Backend σ, s.failed = false → Answered (status db) Backend.failed msgs (s.deliver db msgs).1 (s.deliver db msgs).2 := by
  induction h with
  | nil => exact fun s hs => ⟨rfl, readyWellFormed_of_noReady .nil, fun hne => absurd rfl hne, hs⟩
  | @sync msgs rest hmsgs _ ih =>
    intro s _
    -- the messages and their `Sync`, then the rest from the server the `Sync` leaves
    rw [← List.singleton_append, ← List.append_assoc]
    refine answered_group db (deliver_closed db s msgs) (s.noReady_deliver db hmsgs) ?_
      (ih { (s.deliver db msgs).2 with failed := false } rfl)
    exact groupCount_closed hmsgs
  | @query sql rest _ ih =>
    intro s hs
    rw [← List.singleton_append]
    exact answered_group db (deliver_query db s hs sql) (db.query s.state sql).noReady_messages rfl
      (ih { s with state := (db.query s.state sql).state, portals := assocErase [] s.portals } hs)

/-- After an error, everything up to the next `Sync` is discarded. -/
theorem deliver_discarded (s : Backend σ) (hs : s.failed = true) {msgs : List Frontend}
    (h : ∀ m ∈ msgs, m.endsGroup = false) : s.deliver db msgs = ([], s) := by
  induction msgs with
  | nil => rfl
  | cons m ms ih =>
    have hm : s.receive db m = ([], s) := by
      cases m with
      | sync => cases h _ List.mem_cons_self
      | _ => simp [receive, hs]
    simp only [deliver, hm, ih fun x hx => h x (List.mem_cons_of_mem m hx), List.nil_append]

/-- A `Parse` group that fails: its error, then the `Sync`'s `ReadyForQuery`. -/
theorem deliver_parse_failed (s : Backend σ) (fields : List UInt8) {statement : StatementId} {sql : String}
    {paramTypes : List Nat} {describe : Bool}
    (hparse : s.receive db (.parse statement sql paramTypes) = ([errorResponse fields], { s with failed := true })) :
    ParseAnswer describe (s.deliver db (parseGroup statement sql paramTypes describe)).1 := by
  have hdiscard := deliver_discarded db { s with failed := true } rfl
    (by cases describe <;> simp [Frontend.endsGroup] :
      ∀ m ∈ (if describe then [Frontend.describeStatement statement] else []), m.endsGroup = false)
  simp only [parseGroup, deliver, hparse, deliver_append, hdiscard, List.nil_append]
  exact .error fields _

/-- **The answer to a `Parse` group.** -/
theorem deliver_parseGroup (s : Backend σ) (hs : s.failed = false) (statement : StatementId) (sql : String)
    (paramTypes : List Nat) (describe : Bool) :
    ParseAnswer describe (s.deliver db (parseGroup statement sql paramTypes describe)).1 := by
  by_cases hdup : statement.name ≠ [] ∧ (s.statements.lookup statement.name).isSome
  · -- the name is taken: the server's own error
    exact deliver_parse_failed db s (serverError "42P05" "prepared statement already exists")
      (by simp only [receive, hs, Bool.false_eq_true, if_false, process, if_pos hdup, fail])
  · cases hparse : db.parse s.state sql paramTypes with
    | error fields =>
      exact deliver_parse_failed db s fields (by simp only [receive, hs, Bool.false_eq_true, if_false, process,
        if_neg hdup, hparse])
    | ok described =>
      obtain ⟨parameters, rows⟩ := described
      cases describe with
      | false =>
        simp only [parseGroup, deliver, receive, hs, Bool.false_eq_true, if_false, process, if_neg hdup, hparse]
        exact .parsed (.plain _)
      | true =>
        simp only [parseGroup, if_true, List.singleton_append, deliver, receive, hs, Bool.false_eq_true, if_false,
          process, if_neg hdup, hparse, List.lookup_cons_self]
        refine .parsed (.described parameters _ _ ?_)
        cases rows <;> simp

/-- **The answer to a run of `Close`s.** Each statement's `Close` is
answered whether or not it exists, then the `Sync`. -/
theorem deliver_closes (s : Backend σ) (hs : s.failed = false) (ids : List StatementId) :
    (s.deliver db (ids.map .closeStatement ++ [.sync])).1 =
      List.replicate ids.length ⟨.closeComplete, []⟩ ++ [readyForQuery (db.status s.state)] := by
  induction ids generalizing s with
  | nil => rfl
  | cons id ids ih =>
    simp only [List.map_cons, List.cons_append, deliver, receive, hs, Bool.false_eq_true, if_false, process]
    rw [ih ⟨s.state, assocErase id.name s.statements, s.portals, false⟩ rfl]
    rfl

/-- **The server keeps the laws**: `Backend` over any engine is a `Database`. -/
def database (db : Engine σ) : Database (Backend σ) where
  deliver s msgs := s.deliver db msgs
  status := status db
  failed := Backend.failed
  regtype := db.regtype
  typarray := db.typarray
  deliver_nil _ := rfl
  deliver_groups h s hs := deliver_groups db h s hs
  deliver_parseGroup s hs := deliver_parseGroup db s hs
  deliver_closes s hs := deliver_closes db s hs

end Backend

end Sqlx.Postgres
