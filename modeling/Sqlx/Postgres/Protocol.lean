import Sqlx.Postgres.BackendMessages
import Sqlx.Postgres.Message

/-!
# Postgres — the server side of the extended query protocol

What a connection talks to, at the level of whole messages. The server is a
parameter of the connection's model: `Database` is what the connection
sees of it (the answer to the messages of a flush, the status a
`ReadyForQuery` reports, whether it is discarding messages after an error,
and the catalogue the type lookups read), and its fields `deliver_*` are the
laws the driver is written against, from the protocol's "Message Flow":

* `deliver_groups`: from outside an error, a run of whole groups (messages
  closed by a `Sync`, or one simple `Query`, `Groups`) is answered with one
  `ReadyForQuery` per group, the answer's last message carrying the status
  the server is left in, and the server ends outside an error;
* `deliver_parseGroup`: a `Parse`, its `Describe` when asked for, and a
  `Sync` are answered with `ParseComplete` and the description, or with the
  error, and then the `ReadyForQuery` (`ParseAnswer`);
* `deliver_closes`: a `Close` of a statement is answered with
  `CloseComplete` whether or not the statement exists;
* `deliver_nil`: a flush of nothing is answered with nothing.

The asynchronous messages a server may send at any time (notices, parameter
statuses, notifications) are left out of the answers these laws describe.
`Backend` is one server that keeps the laws.
-/

namespace Sqlx.Postgres

open Wire

open Wire

/-- The frontend messages the connection writes (`message/{query, parse,
describe, bind, execute, close, sync}.rs`). -/
inductive Frontend where
  | query (sql : String)
  | parse (statement : StatementId) (sql : String) (paramTypes : List Nat)
  /-- `Describe::Statement` -/
  | describeStatement (statement : StatementId)
  | bind (portal : PortalId) (statement : StatementId) (numParams : Nat) (params : List UInt8)
  | execute (portal : PortalId) (limit : Nat)
  /-- `Close::Statement` -/
  | closeStatement (statement : StatementId)
  /-- `Close::Portal` -/
  | closePortal (portal : PortalId)
  | sync

/-- `Sync` and a simple `Query` close a group; the server answers each with
one `ReadyForQuery`. -/
def Frontend.endsGroup : Frontend → Bool
  | .sync => true
  | .query _ => true
  | _ => false

/-- The number of groups a run of messages closes. -/
def groupCount (msgs : List Frontend) : Nat := msgs.countP Frontend.endsGroup

theorem groupCount_closed {msgs : List Frontend} (h : ∀ m ∈ msgs, m.endsGroup = false) :
    groupCount (msgs ++ [.sync]) = 1 := by
  have hzero : msgs.countP Frontend.endsGroup = 0 := List.countP_eq_zero.2 fun m hm => by rw [h m hm]; decide
  simp only [groupCount, List.countP_append, hzero]
  rfl

/-- Whole groups: messages closed by a `Sync`, or a lone simple `Query`. -/
inductive Groups : List Frontend → Prop
  | nil : Groups []
  | sync {msgs rest : List Frontend} : (∀ m ∈ msgs, m.endsGroup = false) → Groups rest →
      Groups (msgs ++ .sync :: rest)
  | query (sql : String) {rest : List Frontend} : Groups rest → Groups (.query sql :: rest)

namespace Groups

theorem append {a b : List Frontend} (ha : Groups a) (hb : Groups b) : Groups (a ++ b) := by
  induction ha with
  | nil => exact hb
  | sync hmsgs _ ih =>
    rw [List.append_assoc, List.cons_append]
    exact .sync hmsgs ih
  | query sql _ ih => exact .query sql ih

/-- Messages closed by a `Sync` are one group. -/
theorem closed {msgs : List Frontend} (h : ∀ m ∈ msgs, m.endsGroup = false) : Groups (msgs ++ [.sync]) :=
  .sync h .nil

/-- Whole groups closing none are no messages at all. -/
theorem eq_nil {msgs : List Frontend} (h : Groups msgs) (hc : groupCount msgs = 0) : msgs = [] := by
  cases h with
  | nil => rfl
  | sync _ _ => simp [groupCount, List.countP_append, Frontend.endsGroup] at hc
  | query sql _ => simp [groupCount, Frontend.endsGroup] at hc

end Groups

/-! ## What the server sends -/

/-- `ReadyForQuery` as the server writes it: the status byte. -/
def readyForQuery (status : TransactionStatus) : ReceivedMessage := ⟨.readyForQuery, [status.byte]⟩

/-- An `ErrorResponse` with these fields. -/
def errorResponse (fields : List UInt8) : ReceivedMessage := ⟨.errorResponse, fields⟩

/-- A message is a `ReadyForQuery`. -/
def ReceivedMessage.isReady (m : ReceivedMessage) : Bool := m.format == .readyForQuery

/-- The `ReadyForQuery` messages of a run of messages. -/
def readyCount (ms : List ReceivedMessage) : Nat := ms.countP ReceivedMessage.isReady

/-- Every `ReadyForQuery` of the run carries a status byte, as the server
writes it. -/
def ReadyWellFormed (ms : List ReceivedMessage) : Prop :=
  ∀ m ∈ ms, m.isReady = true → ∃ status, m = readyForQuery status

/-- No message of the run is a `ReadyForQuery`. -/
def NoReady (ms : List ReceivedMessage) : Prop := ∀ m ∈ ms, m.isReady = false

@[simp] theorem isReady_readyForQuery (status : TransactionStatus) : (readyForQuery status).isReady = true := rfl

@[simp] theorem isReady_errorResponse (fields : List UInt8) : (errorResponse fields).isReady = false := rfl

theorem readyCount_of_noReady {ms : List ReceivedMessage} (h : NoReady ms) : readyCount ms = 0 :=
  List.countP_eq_zero.2 fun m hm => by rw [h m hm]; decide

theorem readyWellFormed_of_noReady {ms : List ReceivedMessage} (h : NoReady ms) : ReadyWellFormed ms :=
  fun m hm hr => absurd hr (by rw [h m hm]; decide)

theorem ReadyWellFormed.append {a b : List ReceivedMessage} (ha : ReadyWellFormed a) (hb : ReadyWellFormed b) :
    ReadyWellFormed (a ++ b) := by
  intro m hm
  rcases List.mem_append.1 hm with hm | hm
  · exact ha m hm
  · exact hb m hm

theorem readyWellFormed_singleton (status : TransactionStatus) : ReadyWellFormed [readyForQuery status] := by
  intro m hm _
  exact ⟨status, List.mem_singleton.1 hm⟩

theorem NoReady.nil : NoReady [] := fun _ hm => absurd hm List.not_mem_nil

theorem NoReady.singleton {m : ReceivedMessage} (h : m.isReady = false) : NoReady [m] := by
  intro x hx
  rw [List.mem_singleton.1 hx]
  exact h

theorem NoReady.append {a b : List ReceivedMessage} (ha : NoReady a) (hb : NoReady b) : NoReady (a ++ b) := by
  intro m hm
  rcases List.mem_append.1 hm with hm | hm
  · exact ha m hm
  · exact hb m hm

/-! ## The answers the driver reads in line -/

/-- A `Parse`, the `Describe` of its statement when asked for, and a `Sync`. -/
def parseGroup (statement : StatementId) (sql : String) (paramTypes : List Nat) (describe : Bool) : List Frontend :=
  .parse statement sql paramTypes :: ((if describe then [.describeStatement statement] else []) ++ [.sync])

/-- The messages of a `Parse` group before its `Sync`. -/
theorem parseGroup_eq (statement : StatementId) (sql : String) (paramTypes : List Nat) (describe : Bool) :
    parseGroup statement sql paramTypes describe =
      (.parse statement sql paramTypes :: if describe then [.describeStatement statement] else []) ++ [.sync] :=
  rfl

theorem groups_parseGroup (statement : StatementId) (sql : String) (paramTypes : List Nat) (describe : Bool) :
    Groups (parseGroup statement sql paramTypes describe) := by
  rw [parseGroup_eq]
  refine Groups.closed fun m hm => ?_
  cases describe <;> simp at hm <;> rcases hm with rfl | rfl <;> rfl

theorem groupCount_parseGroup (statement : StatementId) (sql : String) (paramTypes : List Nat) (describe : Bool) :
    groupCount (parseGroup statement sql paramTypes describe) = 1 := by
  cases describe <;> rfl

/-- What follows `ParseComplete`: when described, the statement's
`ParameterDescription` and its `RowDescription` or `NoData`; then a
`ReadyForQuery`. -/
inductive DescribeAnswer : Bool → List ReceivedMessage → Prop
  | plain (status : TransactionStatus) : DescribeAnswer false [readyForQuery status]
  | described (parameters : List UInt8) (rows : ReceivedMessage) (status : TransactionStatus) :
      rows.format = .rowDescription ∨ rows.format = .noData →
      DescribeAnswer true [⟨.parameterDescription, parameters⟩, rows, readyForQuery status]

/-- What a `Parse` group is answered with from outside an error: the error
and a `ReadyForQuery`, or `ParseComplete` and the rest. -/
inductive ParseAnswer (describe : Bool) : List ReceivedMessage → Prop
  | error (fields : List UInt8) (status : TransactionStatus) :
      ParseAnswer describe [errorResponse fields, readyForQuery status]
  | parsed {rest : List ReceivedMessage} : DescribeAnswer describe rest →
      ParseAnswer describe (⟨.parseComplete, []⟩ :: rest)

/-- What a run of whole groups is answered with, by a server whose
`ReadyForQuery` reports `status` and that is discarding messages when
`failed` says so. -/
structure Answered {σ : Type} (status : σ → TransactionStatus) (failed : σ → Bool) (msgs : List Frontend)
    (out : List ReceivedMessage) (s' : σ) : Prop where
  count : readyCount out = groupCount msgs
  wellFormed : ReadyWellFormed out
  last : msgs ≠ [] → out.getLast? = some (readyForQuery (status s'))
  failed : failed s' = false

/-! ## The server -/

/-- The server a connection talks to, as the connection sees it, and the
laws of the protocol's message flow it keeps. -/
structure Database (σ : Type) where
  /-- the messages of a flush, answered one after the other: what the
  server sends, and the state it is left in -/
  deliver : σ → List Frontend → List ReceivedMessage × σ
  /-- the status a `ReadyForQuery` reports -/
  status : σ → TransactionStatus
  /-- the server is discarding messages up to the next `Sync` -/
  failed : σ → Bool
  /-- `SELECT $1::regtype::oid` -/
  regtype : String → Option Nat
  /-- `SELECT oid, typarray FROM pg_catalog.pg_type WHERE oid = $1::regtype::oid` -/
  typarray : String → Option (Nat × Nat)
  deliver_nil : ∀ s, deliver s [] = ([], s)
  deliver_groups : ∀ {msgs : List Frontend}, Groups msgs → ∀ s, failed s = false →
    Answered status failed msgs (deliver s msgs).1 (deliver s msgs).2
  deliver_parseGroup : ∀ s, failed s = false → ∀ (statement : StatementId) (sql : String)
    (paramTypes : List Nat) (describe : Bool),
    ParseAnswer describe (deliver s (parseGroup statement sql paramTypes describe)).1
  deliver_closes : ∀ s, failed s = false → ∀ ids : List StatementId,
    (deliver s (ids.map .closeStatement ++ [.sync])).1 =
      List.replicate ids.length ⟨.closeComplete, []⟩ ++ [readyForQuery (status s)]

end Sqlx.Postgres
