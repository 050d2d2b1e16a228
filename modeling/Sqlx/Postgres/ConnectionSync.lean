import Sqlx.Postgres.Connection

/-!
# Postgres — the account of `ReadyForQuery` over every history

`pending_ready_for_query_count` is what lets a connection be used again
after a future that ran on it was dropped: whatever that future left
unread, the next `wait_until_ready` reads up to the last `ReadyForQuery`
still owed. `Synced` says the account is right: the unflushed messages are
whole groups; the count is the `ReadyForQuery`s on the socket and the groups
not sent; the last message on the socket carries the status the server
reports (with nothing left to read, the connection's status is the
server's); and the server is not discarding. The server's answer to a flush
is what the laws of `Database` say it is, for any server that keeps them. `Quiescent` is `Synced` with
nothing owed, where the socket is empty.

Each primitive of a session gets one rule, a triple whose premises are what
its outcomes need (`triple_await`, `triple_flush`, `triple_recvUnchecked`),
and `recv` gets a relational spec (`RecvOk`, `RecvStop`). A read breaks the
account in one way only, when a reader that does not count takes a
`ReadyForQuery`: popping anything else keeps `Synced` (`Synced.after`), and
the two readers that count keep it too (`triple_handleReadyForQuery`,
`triple_recvReadyForQuery`). `wait_until_ready` then brings every synced
session to `Quiescent`, or stops short with the account kept.
-/

namespace Sqlx.Postgres

open Wire EStateM PgStream PgConnection

variable {σ : Type}

/-! ## A session after reads -/

/-- The session with `rest` left unread and `n` awaits still to pass. -/
def Session.after (s : Session σ) (rest : List ReceivedMessage) (n : Nat) : Session σ :=
  { s with conn := { s.conn with inbox := rest }, polls := n }

namespace Session

variable (s : Session σ) (rest : List ReceivedMessage) (n : Nat)

@[simp] theorem after_inbox : (s.after rest n).conn.inbox = rest := rfl
@[simp] theorem after_writeBuffer : (s.after rest n).conn.writeBuffer = s.conn.writeBuffer := rfl
@[simp] theorem after_pending :
    (s.after rest n).conn.pendingReadyForQueryCount = s.conn.pendingReadyForQueryCount := rfl
@[simp] theorem after_transactionStatus : (s.after rest n).conn.transactionStatus = s.conn.transactionStatus := rfl
@[simp] theorem after_server : (s.after rest n).server = s.server := rfl
@[simp] theorem after_items : (s.after rest n).items = s.items := rfl
@[simp] theorem after_polls : (s.after rest n).polls = n := rfl
@[simp] theorem after_after (rest' : List ReceivedMessage) (n' : Nat) :
    (s.after rest n).after rest' n' = s.after rest' n' := rfl

theorem after_self : s.after s.conn.inbox s.polls = s := rfl

/-- The session with `m` put back in front of its unread messages. -/
def unread (m : ReceivedMessage) : Session σ := s.after (m :: s.conn.inbox) s.polls

@[simp] theorem after_unread (m : ReceivedMessage) : (s.after rest n).unread m = s.after (m :: rest) n := rfl

end Session

/-! ## The invariant -/

section Invariant

variable (db : Database σ)

/-- The connection's account of `ReadyForQuery` agrees with the socket. -/
structure Synced (s : Session σ) : Prop where
  /-- what is written and not flushed is whole groups -/
  groups : Groups s.conn.writeBuffer
  /-- one `ReadyForQuery` owed for each on the socket and each group not sent -/
  count : s.conn.pendingReadyForQueryCount = readyCount s.conn.inbox + groupCount s.conn.writeBuffer
  wellFormed : ReadyWellFormed s.conn.inbox
  /-- the status the connection reads last is the database's -/
  status : s.conn.inbox = [] ∧ s.conn.transactionStatus = db.status s.server ∨
    s.conn.inbox.getLast? = some (readyForQuery (db.status s.server))
  idle : db.failed s.server = false

/-- Synced, with no `ReadyForQuery` owed. -/
structure Quiescent (s : Session σ) : Prop where
  synced : Synced db s
  none_owed : s.conn.pendingReadyForQueryCount = 0

/-- Synced, with nothing written and not flushed: where an operation reads. -/
structure Flushed (s : Session σ) : Prop where
  synced : Synced db s
  flushed : s.conn.writeBuffer = []

/-- How an operation may stop short from a synced session: in any way but a
read that waits for ever, with the account kept. -/
def Safe (e : Failure) (s : Session σ) : Prop := e ≠ .blocked ∧ Synced db s

variable {db}

theorem readyForQuery_injective {a b : TransactionStatus} (h : readyForQuery a = readyForQuery b) : a = b := by
  have hbyte : a.byte = b.byte := by simpa [readyForQuery] using h
  cases a <;> cases b <;> first | rfl | cases hbyte

theorem readyCount_append (a b : List ReceivedMessage) : readyCount (a ++ b) = readyCount a + readyCount b :=
  List.countP_append

/-- A run whose last message is a `ReadyForQuery` has one. -/
theorem readyCount_pos_of_getLast {ms : List ReceivedMessage} {status : TransactionStatus}
    (h : ms.getLast? = some (readyForQuery status)) : 0 < readyCount ms :=
  List.countP_pos_iff.2 ⟨_, List.mem_of_getLast? h, isReady_readyForQuery status⟩

/-- Reading messages that are not `ReadyForQuery` keeps the account. -/
theorem Synced.after {s : Session σ} {pre rest : List ReceivedMessage} (h : Synced db s)
    (hin : s.conn.inbox = pre ++ rest) (hpre : NoReady pre) (n : Nat) : Synced db (s.after rest n) where
  groups := h.groups
  count := by
    have hc := h.count
    rw [hin, readyCount_append, readyCount_of_noReady hpre, Nat.zero_add] at hc
    exact hc
  wellFormed := fun m hm => h.wellFormed m (hin ▸ List.mem_append_right pre hm)
  status := by
    rcases h.status with ⟨hnil, hst⟩ | hlast
    · rw [hin] at hnil
      exact .inl ⟨(List.append_eq_nil_iff.1 hnil).2, hst⟩
    · rw [hin] at hlast
      -- the last message is a `ReadyForQuery`, so it is not among those read
      cases rest with
      | nil =>
        rw [List.append_nil] at hlast
        have := hpre _ (List.mem_of_getLast? hlast)
        simp at this
      | cons m ms =>
        rw [List.getLast?_append_of_ne_nil _ (List.cons_ne_nil m ms)] at hlast
        exact .inr hlast
  idle := h.idle

/-- The `ReadyForQuery` in front of the socket read, the count taken down
and its status kept: the account of what is left. -/
theorem Synced.readReady {s : Session σ} {status : TransactionStatus} {rest : List ReceivedMessage} {count : Nat}
    (h : Synced db s) (hin : s.conn.inbox = readyForQuery status :: rest)
    (hcount : s.conn.pendingReadyForQueryCount = count + 1) (n : Nat) :
    Synced db { s.after rest n with
      conn := { (s.after rest n).conn with pendingReadyForQueryCount := count, transactionStatus := status } } where
  groups := h.groups
  count := by
    have hc := h.count
    rw [hin, hcount] at hc
    simp only [readyCount, List.countP_cons, isReady_readyForQuery, if_true] at hc
    simp only [readyCount, Session.after_inbox, Session.after_writeBuffer]
    omega
  wellFormed := fun m hm => h.wellFormed m (hin ▸ List.mem_cons_of_mem _ hm)
  status := by
    rcases h.status with ⟨hnil, -⟩ | hlast
    · rw [hin] at hnil
      cases hnil
    · rw [hin] at hlast
      cases rest with
      | nil => exact .inl ⟨rfl, readyForQuery_injective (Option.some.inj hlast)⟩
      | cons m ms =>
        rw [List.getLast?_cons_cons] at hlast
        exact .inr hlast
  idle := h.idle

/-- An await passed. -/
theorem Synced.wait {s : Session σ} (h : Synced db s) (n : Nat) : Synced db (s.after s.conn.inbox n) :=
  h.after (show s.conn.inbox = [] ++ s.conn.inbox from rfl) (fun _ h => absurd h List.not_mem_nil) n

theorem Flushed.after {s : Session σ} {pre rest : List ReceivedMessage} (h : Flushed db s)
    (hin : s.conn.inbox = pre ++ rest) (hpre : NoReady pre) (n : Nat) : Flushed db (s.after rest n) :=
  ⟨h.synced.after hin hpre n, h.flushed⟩

/-- With nothing unflushed, the count is the `ReadyForQuery`s on the socket. -/
theorem Flushed.readyCount_eq {s : Session σ} (h : Flushed db s) :
    readyCount s.conn.inbox = s.conn.pendingReadyForQueryCount := by
  rw [h.synced.count, h.flushed]
  rfl

/-- A `ReadyForQuery` on the socket is owed. -/
theorem Synced.pending_pos {s : Session σ} (h : Synced db s) (hready : 0 < readyCount s.conn.inbox) :
    ∃ count, s.conn.pendingReadyForQueryCount = count + 1 :=
  ⟨s.conn.pendingReadyForQueryCount - 1, by have := h.count; omega⟩

/-- Writing whole groups, with one `ReadyForQuery` counted for each. -/
theorem Synced.write {s : Session σ} (h : Synced db s) {g : List Frontend} (hg : Groups g) :
    Synced db { s with conn := { s.conn with
      writeBuffer := s.conn.writeBuffer ++ g,
      pendingReadyForQueryCount := s.conn.pendingReadyForQueryCount + groupCount g } } where
  groups := h.groups.append hg
  count := by
    have hc := h.count
    simp only [groupCount, List.countP_append] at hc ⊢
    omega
  wellFormed := h.wellFormed
  status := h.status
  idle := h.idle

/-- The flush: the server answers the groups written. -/
theorem Synced.deliver {s : Session σ} (h : Synced db s) : Synced db (Session.deliver db s) := by
  obtain ⟨hcount, hwf, hlast, hfailed⟩ := db.deliver_groups h.groups s.server h.idle
  refine ⟨.nil, ?_, h.wellFormed.append hwf, ?_, hfailed⟩
  · have hc := h.count
    simp only [Session.deliver, readyCount_append, groupCount, List.countP_nil] at hc hcount ⊢
    omega
  · by_cases hbuf : s.conn.writeBuffer = []
    · -- nothing written: no answer, and the server as it was
      simp only [Session.deliver, hbuf, db.deliver_nil, List.append_nil]
      exact h.status
    · have hne : (db.deliver s.server s.conn.writeBuffer).1 ≠ [] := by
        intro hnil
        have hl := hlast hbuf
        rw [hnil] at hl
        cases hl
      exact .inr (by rw [Session.deliver, List.getLast?_append_of_ne_nil _ hne, hlast hbuf])

/-- Nothing owed: the socket is empty, nothing is unflushed, and the
connection's status is the database's. -/
theorem Quiescent.empty {s : Session σ} (h : Quiescent db s) :
    s.conn.inbox = [] ∧ s.conn.writeBuffer = [] ∧ s.conn.transactionStatus = db.status s.server := by
  have hc := h.synced.count
  rw [h.none_owed] at hc
  have hbuf : s.conn.writeBuffer = [] := h.synced.groups.eq_nil (by omega)
  rcases h.synced.status with ⟨hnil, hst⟩ | hlast
  · exact ⟨hnil, hbuf, hst⟩
  · have := readyCount_pos_of_getLast hlast
    omega

/-- Quiescence from its parts. -/
theorem Quiescent.of_empty {s : Session σ} (hin : s.conn.inbox = []) (hbuf : s.conn.writeBuffer = [])
    (hpending : s.conn.pendingReadyForQueryCount = 0)
    (hst : s.conn.transactionStatus = db.status s.server) (hidle : db.failed s.server = false) :
    Quiescent db s where
  synced := ⟨hbuf ▸ .nil, by rw [hin, hbuf, hpending]; rfl, hin ▸ fun _ h => absurd h List.not_mem_nil,
    .inl ⟨hin, hst⟩, hidle⟩
  none_owed := hpending

end Invariant

/-! ## The primitives -/

section Primitives

variable {P : Session σ → Prop} {R : Failure → Session σ → Prop}

theorem triple_await {Q : Unit → Session σ → Prop} (hok : ∀ s n, P s → Q () (s.after s.conn.inbox n))
    (hdrop : ∀ s, P s → R .dropped s) : Triple P await Q R := by
  intro s hs
  cases hp : s.polls with
  | zero =>
    have hrun : await.run s = .error .dropped s := by simp only [EStateM.run, await, hp]
    rw [hrun]
    exact hdrop s hs
  | succ n =>
    have hrun : await.run s = .ok () (s.after s.conn.inbox n) := by simp only [EStateM.run, await, hp]; rfl
    rw [hrun]
    exact hok s n hs

theorem triple_modifyConn {Q : Unit → Session σ → Prop} {f : PgConnection → PgConnection}
    (h : ∀ s, P s → Q () { s with conn := f s.conn }) : Triple P (modifyConn f) Q R :=
  Triple.modify' h

/-- The flush: the server answers what was written, then an await. -/
theorem triple_flush (db : Database σ) {Q : Unit → Session σ → Prop}
    (hok : ∀ s n, P s → Q () ((Session.deliver db s).after (Session.deliver db s).conn.inbox n))
    (hdrop : ∀ s, P s → R .dropped (Session.deliver db s)) : Triple P (PgStream.flush db) Q R :=
  Triple.bind (Triple.modify' (Q := fun _ s' => ∃ s, P s ∧ s' = Session.deliver db s) fun s hs => ⟨s, hs, rfl⟩)
    fun _ => Triple.of_forall fun s => triple_await
      (fun _ n ⟨hs, hs'⟩ => hs' ▸ hok s n hs) (fun _ ⟨hs, hs'⟩ => hs' ▸ hdrop s hs)

/-- `recv_unchecked`: after an await, the first message, or a wait for ever. -/
theorem triple_recvUnchecked {Q : ReceivedMessage → Session σ → Prop}
    (hok : ∀ s m rest n, P s → s.conn.inbox = m :: rest → Q m (s.after rest n))
    (hblocked : ∀ s n, P s → s.conn.inbox = [] → R .blocked (s.after [] n))
    (hdrop : ∀ s, P s → R .dropped s) : Triple P PgStream.recvUnchecked Q R := by
  refine Triple.bind (triple_await (Q := fun _ s' => ∃ s n, P s ∧ s' = s.after s.conn.inbox n)
    (fun s n hs => ⟨s, n, hs, rfl⟩) hdrop) fun _ => ?_
  refine Triple.of_forall fun s => Triple.of_forall fun n => ?_
  refine Triple.bind Triple.get' fun s₁ => ?_
  cases hin : s₁.conn.inbox with
  | nil =>
    refine Triple.throw' fun s' ⟨⟨hs, hs₁⟩, hs'⟩ => ?_
    subst hs₁ hs'
    simp only [Session.after_inbox] at hin
    rw [hin]
    exact hblocked s n hs hin
  | cons m rest =>
    refine Triple.bind (triple_modifyConn (Q := fun _ s' => ∃ rest', P s ∧ s.conn.inbox = m :: rest' ∧
      s' = s.after rest' n) fun s' ⟨⟨hs, hs₁⟩, hs'⟩ => ?_) fun _ => ?_
    · subst hs₁ hs'
      simp only [Session.after_inbox] at hin
      exact ⟨rest, hs, hin, rfl⟩
    · exact Triple.pure' fun s' ⟨rest', hs, hin', hs'⟩ => hs' ▸ hok s m rest' n hs hin'

end Primitives

/-! ## `recv` -/

/-- A notice or a parameter status, which `recv` reads past. -/
def ReceivedMessage.Skipped (m : ReceivedMessage) : Prop :=
  m.format = .parameterStatus ∨ m.format = .noticeResponse

/-- How `recv` from `s` gives `m`: past notices and parameter statuses, a
message that is none of those and no error. -/
def RecvOk (s : Session σ) (m : ReceivedMessage) (s' : Session σ) : Prop :=
  ∃ pre rest n, s.conn.inbox = pre ++ m :: rest ∧ s' = s.after rest n ∧ (∀ x ∈ pre, x.Skipped) ∧
    ¬m.Skipped ∧ m.format ≠ .errorResponse

/-- How `recv` from `s` stops short: it has read messages that are not
`ReadyForQuery`, and the task dropped it, or the server's error was read, or
the socket ran dry. -/
def RecvStop (s : Session σ) (e : Failure) (s' : Session σ) : Prop :=
  ∃ pre rest n, s.conn.inbox = pre ++ rest ∧ s' = s.after rest n ∧ NoReady pre ∧
    (e = .dropped ∨ (e = .blocked ∧ rest = []) ∨ ∃ fields, e = .error (.database fields))

theorem ReceivedMessage.isReady_of_skipped {m : ReceivedMessage} (h : m.Skipped) : m.isReady = false := by
  rcases h with h | h <;> simp [ReceivedMessage.isReady, h]

theorem noReady_of_skipped {pre : List ReceivedMessage} (h : ∀ x ∈ pre, x.Skipped) : NoReady pre :=
  fun x hx => ReceivedMessage.isReady_of_skipped (h x hx)

/-- **The spec of `recv`.** -/
theorem recv_spec (s₀ : Session σ) : Triple (· = s₀) recv (RecvOk s₀) (RecvStop s₀) := by
  -- the loop reads past notices: the invariant is the messages read so far
  let I : Unit → Session σ → Prop := fun _ s =>
    ∃ pre rest n, s₀.conn.inbox = pre ++ rest ∧ s = s₀.after rest n ∧ ∀ x ∈ pre, x.Skipped
  refine Triple.mono (P := I ()) (Triple.loopUntil (I := I) (fun _ => ?_) ()) ?_ (fun _ _ h => h) (fun _ _ h => h)
  · refine Triple.bind (triple_recvUnchecked (Q := fun m s => ∃ pre rest n, s₀.conn.inbox = pre ++ m :: rest ∧
      s = s₀.after rest n ∧ ∀ x ∈ pre, x.Skipped) ?_ ?_ ?_) fun m => ?_
    · rintro _ m rest n ⟨pre, rest₀, n₀, hin₀, rfl, hpre⟩ hin
      simp only [Session.after_inbox] at hin
      exact ⟨pre, rest, n, by rw [hin₀, hin], by simp, hpre⟩
    · rintro _ n ⟨pre, rest₀, n₀, hin₀, rfl, hpre⟩ hin
      simp only [Session.after_inbox] at hin
      exact ⟨pre, [], n, by rw [hin₀, hin], by simp,
        noReady_of_skipped hpre, .inr (.inl ⟨rfl, rfl⟩)⟩
    · rintro _ ⟨pre, rest, n, hin₀, rfl, hpre⟩
      exact ⟨pre, rest, n, hin₀, rfl, noReady_of_skipped hpre, .inl rfl⟩
    · -- what the turn does with the message: the error, a message read past, or the message
      split
      · rename_i hf
        refine Triple.throw' fun s ⟨pre, rest, n, hin₀, hs, hpre⟩ => ⟨pre ++ [m], rest, n, by simp [hin₀], hs,
          (noReady_of_skipped hpre).append ?_, .inr (.inr ⟨_, rfl⟩)⟩
        intro x hx
        rw [List.mem_singleton.1 hx]
        simp [ReceivedMessage.isReady, hf]
      · rename_i hf
        exact Triple.pure' fun s ⟨pre, rest, n, hin₀, hs, hpre⟩ => ⟨pre ++ [m], rest, n, by simp [hin₀], hs,
          fun x hx => (List.mem_append.1 hx).elim (hpre x) fun hx => List.mem_singleton.1 hx ▸ .inl hf⟩
      · rename_i hf
        exact Triple.pure' fun s ⟨pre, rest, n, hin₀, hs, hpre⟩ => ⟨pre ++ [m], rest, n, by simp [hin₀], hs,
          fun x hx => (List.mem_append.1 hx).elim (hpre x) fun hx => List.mem_singleton.1 hx ▸ .inr hf⟩
      · rename_i h₁ h₂ h₃
        exact Triple.pure' fun s ⟨pre, rest, n, hin₀, hs, hpre⟩ => ⟨pre, rest, n, hin₀, hs, hpre,
          fun hm => hm.elim h₂ h₃, h₁⟩
  · rintro s rfl
    exact ⟨[], s.conn.inbox, s.polls, rfl, rfl, fun _ h => absurd h List.not_mem_nil⟩

/-- `recv`, from what its outcomes need. -/
theorem triple_recv {P : Session σ → Prop} {Q : ReceivedMessage → Session σ → Prop} {R : Failure → Session σ → Prop}
    (hok : ∀ s m s', P s → RecvOk s m s' → Q m s') (hstop : ∀ s e s', P s → RecvStop s e s' → R e s') :
    Triple P recv Q R := by
  intro s hs
  have hspec := recv_spec s s rfl
  revert hspec
  cases recv.run s with
  | ok m s' => exact hok s m s' hs
  | error e s' => exact hstop s e s' hs

section Reads

variable {db : Database σ} {s s' : Session σ} {m : ReceivedMessage}

theorem RecvOk.eq_after (hs : RecvOk s m s') : ∃ rest n, s' = s.after rest n := by
  obtain ⟨-, rest, n, -, rfl, -⟩ := hs
  exact ⟨rest, n, rfl⟩

/-- `recv` stops short safely while a `ReadyForQuery` is owed. -/
theorem RecvStop.safe {e : Failure} (h : Flushed db s) (hpos : 0 < s.conn.pendingReadyForQueryCount)
    (hs : RecvStop s e s') : Safe db e s' := by
  obtain ⟨pre, rest, n, hin, rfl, hpre, he⟩ := hs
  refine ⟨?_, h.synced.after hin hpre n⟩
  rintro rfl
  -- the socket ran dry: everything on it was read, and none was a `ReadyForQuery`
  obtain ⟨-, rfl⟩ := he.resolve_left (by simp) |>.resolve_right (by simp)
  rw [← h.readyCount_eq, hin, List.append_nil, readyCount_of_noReady hpre] at hpos
  exact absurd hpos (Nat.lt_irrefl 0)

/-- The message `recv` gives is one of the socket's: the account holds with
it put back. -/
theorem RecvOk.flushed (h : Flushed db s) (hs : RecvOk s m s') : Flushed db (s'.unread m) := by
  obtain ⟨pre, rest, n, hin, rfl, hpre, -, -⟩ := hs
  exact h.after hin (noReady_of_skipped hpre) n

/-- A message that is not a `ReadyForQuery` may be read without counting. -/
theorem Flushed.of_unread (h : Flushed db (s.unread m)) (hm : m.isReady = false) : Flushed db s :=
  h.after (show (s.unread m).conn.inbox = [m] ++ s.conn.inbox from rfl) (fun _ hx => List.mem_singleton.1 hx ▸ hm)
    s.polls

/-- `recv` with a message in front that it does not read past gives that message. -/
theorem RecvOk.head {m₀ : ReceivedMessage} {rest₀ : List ReceivedMessage} (hin : s.conn.inbox = m₀ :: rest₀)
    (hm₀ : ¬m₀.Skipped) (hs : RecvOk s m s') : m = m₀ ∧ s' = s.after rest₀ s'.polls := by
  obtain ⟨pre, rest, n, hin', rfl, hpre, -, -⟩ := hs
  cases pre with
  | nil =>
    rw [hin] at hin'
    cases hin'
    exact ⟨rfl, rfl⟩
  | cons _ xs =>
    rw [hin, List.cons_append] at hin'
    cases hin'
    exact absurd (hpre _ List.mem_cons_self) hm₀

/-- `recv` with an error in front fails with it. -/
theorem RecvOk.not_error {fields : List UInt8} {rest₀ : List ReceivedMessage}
    (hin : s.conn.inbox = errorResponse fields :: rest₀) (hs : RecvOk s m s') : False := by
  have hskip : ¬(errorResponse fields).Skipped := by simp [ReceivedMessage.Skipped, errorResponse]
  obtain ⟨rfl, -⟩ := hs.head hin hskip
  obtain ⟨-, -, -, -, -, -, -, herr⟩ := hs
  exact herr rfl

/-- A flushed session with something on its socket owes a `ReadyForQuery`. -/
theorem Flushed.pending_pos {m₀ : ReceivedMessage} {rest : List ReceivedMessage} (h : Flushed db s)
    (hin : s.conn.inbox = m₀ :: rest) : 0 < s.conn.pendingReadyForQueryCount := by
  rw [← h.readyCount_eq]
  rcases h.synced.status with ⟨hnil, -⟩ | hlast
  · rw [hin] at hnil
    cases hnil
  · exact readyCount_pos_of_getLast hlast

/-- `recv` from a flushed session that owes a `ReadyForQuery`: a message
that, put back, leaves the session flushed. -/
theorem triple_recv_flushed {count : Nat} :
    Triple (fun s => Flushed db s ∧ s.conn.pendingReadyForQueryCount = count + 1) recv
      (fun m s => Flushed db (s.unread m) ∧ s.conn.pendingReadyForQueryCount = count + 1) (Safe db) := by
  refine triple_recv (fun s m s' hs hok => ⟨hok.flushed hs.1, ?_⟩) (fun _ _ _ hs hstop => hstop.safe hs.1 (by omega))
  obtain ⟨rest, n, rfl⟩ := hok.eq_after
  exact hs.2

/-- `recv` with a message in front that it does not read past: that
message, and the rest left. -/
theorem triple_recv_head {s₀ : Session σ} {m₀ : ReceivedMessage} {rest : List ReceivedMessage} (h : Flushed db s₀)
    (hin : s₀.conn.inbox = m₀ :: rest) (hskip : ¬m₀.Skipped) :
    Triple (· = s₀) recv (fun m s => m = m₀ ∧ ∃ n, s = s₀.after rest n) (Safe db) := by
  refine triple_recv (fun s m s' hs hok => ?_) (fun _ _ _ hs hstop => by subst hs; exact hstop.safe h (h.pending_pos hin))
  subst hs
  obtain ⟨rfl, hs'⟩ := hok.head hin hskip
  exact ⟨rfl, _, hs'⟩

/-- The message in front read, when it is not a `ReadyForQuery`. -/
theorem Flushed.after_head {s₀ : Session σ} {m₀ : ReceivedMessage} {rest : List ReceivedMessage} (h : Flushed db s₀)
    (hin : s₀.conn.inbox = m₀ :: rest) (hready : m₀.isReady = false) (n : Nat) : Flushed db (s₀.after rest n) :=
  h.after (show s₀.conn.inbox = [m₀] ++ rest from hin) (fun _ hx => List.mem_singleton.1 hx ▸ hready) n

/-- `recv` with an error in front stops there. -/
theorem triple_recv_error {s₀ : Session σ} {fields : List UInt8} {rest : List ReceivedMessage}
    {Q : ReceivedMessage → Session σ → Prop} (h : Flushed db s₀) (hin : s₀.conn.inbox = errorResponse fields :: rest) :
    Triple (· = s₀) recv Q (Safe db) :=
  triple_recv (fun _ _ _ hs hok => by subst hs; exact (hok.not_error hin).elim)
    (fun _ _ _ hs hstop => by subst hs; exact hstop.safe h (h.pending_pos hin))

end Reads

/-! ## The readers that count -/

section Counting

variable {db : Database σ} {R : Failure → Session σ → Prop}

/-- A `ReadyForQuery` the server sent decodes to its status. -/
theorem decode_readyForQuery (status : TransactionStatus) :
    (readyForQuery status).decode .readyForQuery ReadyForQuery.decodeBody = some (.ok status) :=
  ReceivedMessage.decode_of_ok (m := readyForQuery status) (ReadyForQuery.decodeBody_byte status)

theorem handleReadyForQuery_run {s : Session σ} {count : Nat} (hcount : s.conn.pendingReadyForQueryCount = count + 1)
    (status : TransactionStatus) :
    (handleReadyForQuery (readyForQuery status)).run s =
      .ok () { s with conn := { s.conn with pendingReadyForQueryCount := count, transactionStatus := status } } := by
  simp only [handleReadyForQuery, EStateM.run_bind, EStateM.run_get, hcount, decode_readyForQuery, liftDecode]
  rfl

/-- The `ReadyForQuery` in front of a flushed session read and counted. -/
theorem Flushed.readReady {s : Session σ} {status : TransactionStatus} {rest : List ReceivedMessage} {count : Nat}
    (h : Flushed db s) (hin : s.conn.inbox = readyForQuery status :: rest)
    (hcount : s.conn.pendingReadyForQueryCount = count + 1) (n : Nat) :
    Flushed db { s.after rest n with
      conn := { (s.after rest n).conn with pendingReadyForQueryCount := count, transactionStatus := status } } :=
  ⟨h.synced.readReady hin hcount n, h.flushed⟩

/-- A `ReadyForQuery` in front of the socket is owed. -/
theorem Flushed.pending_of_ready {s : Session σ} {status : TransactionStatus} (h : Flushed db (s.unread (readyForQuery status))) :
    ∃ count, s.conn.pendingReadyForQueryCount = count + 1 :=
  h.synced.pending_pos (List.countP_pos_iff.2 ⟨_, List.mem_cons_self, isReady_readyForQuery status⟩)

/-- `handle_ready_for_query` on the `ReadyForQuery` just read: the account
of what is left, one fewer owed. -/
theorem triple_handleReadyForQuery {m : ReceivedMessage} {count : Nat} :
    Triple (fun s => Flushed db (s.unread m) ∧ s.conn.pendingReadyForQueryCount = count + 1 ∧
      m.format = .readyForQuery) (handleReadyForQuery m)
      (fun _ s => Flushed db s ∧ s.conn.pendingReadyForQueryCount = count) R := by
  rintro s ⟨h, hcount, hm⟩
  obtain ⟨status, rfl⟩ := h.synced.wellFormed m List.mem_cons_self (by simp [ReceivedMessage.isReady, hm])
  rw [handleReadyForQuery_run hcount]
  exact ⟨h.readReady rfl hcount s.polls, rfl⟩

theorem triple_liftDecode {α : Type} {x : Option (Except Error α)} {P : Session σ → Prop}
    {Q : α → Session σ → Prop} (hpanic : x = none → ∀ s, P s → R .panic s)
    (herror : ∀ e, x = some (.error e) → ∀ s, P s → R (.error e) s)
    (hok : ∀ a, x = some (.ok a) → ∀ s, P s → Q a s) : Triple P (liftDecode x) Q R := by
  intro s hs
  match x with
  | none => exact hpanic rfl s hs
  | some (.error e) => exact herror e rfl s hs
  | some (.ok a) => exact hok a rfl s hs

/-- A decoder's failure stops the operation with the account kept. -/
theorem triple_liftDecode_safe {α : Type} {x : Option (Except Error α)} {P : Session σ → Prop}
    {Q : α → Session σ → Prop} (hsafe : ∀ s, P s → Synced db s) (hok : ∀ a, x = some (.ok a) → ∀ s, P s → Q a s) :
    Triple P (liftDecode x) Q (Safe db) :=
  triple_liftDecode (fun _ s hs => ⟨by simp, hsafe s hs⟩) (fun _ _ s hs => ⟨by simp, hsafe s hs⟩) hok

/-- A message decoded as another format fails, and was read without counting. -/
theorem triple_liftDecode_other {α : Type} {format : BackendMessageFormat}
    {decodeBody : List UInt8 → Option (Except Error α)} {m : ReceivedMessage} {P : Session σ → Prop}
    {Q : α → Session σ → Prop} (hf : format ≠ m.format) (hsafe : ∀ s, P s → Synced db s) :
    Triple P (liftDecode (m.decode format decodeBody)) Q (Safe db) := by
  obtain ⟨e, he⟩ : ∃ e, m.decode format decodeBody = some (.error e) := ReceivedMessage.decode_of_ne hf
  exact triple_liftDecode_safe hsafe (fun _ hx => by rw [he] at hx; cases hx)

/-- `recv_expect::<ReadyForQuery>()` from a flushed session that owes one:
its status, the message still to count; or a stop with the account kept. -/
theorem triple_recvExpect_ready {count : Nat} :
    Triple (fun s => Flushed db s ∧ s.conn.pendingReadyForQueryCount = count + 1)
      (recvExpect .readyForQuery ReadyForQuery.decodeBody)
      (fun status s => Flushed db (s.unread (readyForQuery status)) ∧ s.conn.pendingReadyForQueryCount = count + 1)
      (Safe db) := by
  refine Triple.bind triple_recv_flushed fun m => ?_
  by_cases hm : m.format = .readyForQuery
  · -- a `ReadyForQuery`, as the server writes it
    refine triple_liftDecode (fun hx s h => ?_) (fun e hx s h => ?_) (fun status hx s h => ?_)
    all_goals
      obtain ⟨status', rfl⟩ := h.1.synced.wellFormed m List.mem_cons_self (by simp [ReceivedMessage.isReady, hm])
      rw [decode_readyForQuery] at hx
    · cases hx
    · cases hx
    · cases hx
      exact h
  · exact triple_liftDecode_other (Ne.symm hm)
      fun _ h => (h.1.of_unread (by simp [ReceivedMessage.isReady, hm])).synced

/-- `recv_expect` with a message in front that it does not read past and
that is not a `ReadyForQuery`: that message decoded, and the rest left. -/
theorem triple_recvExpect_head {α : Type} {format : BackendMessageFormat}
    {decodeBody : List UInt8 → Option (Except Error α)} {s₀ : Session σ} {m₀ : ReceivedMessage}
    {rest : List ReceivedMessage} (h : Flushed db s₀) (hin : s₀.conn.inbox = m₀ :: rest) (hskip : ¬m₀.Skipped)
    (hready : m₀.isReady = false) :
    Triple (· = s₀) (recvExpect format decodeBody)
      (fun a s => m₀.decode format decodeBody = some (.ok a) ∧ ∃ n, s = s₀.after rest n) (Safe db) := by
  refine Triple.bind (triple_recv_head h hin hskip) fun m => ?_
  refine triple_liftDecode_safe ?_ fun a hx s ⟨hm, n, hs⟩ => ⟨hm ▸ hx, n, hs⟩
  rintro s ⟨rfl, n, rfl⟩
  exact (h.after_head hin hready n).synced

/-- **`recv_ready_for_query`** from a flushed session that owes a
`ReadyForQuery`: the account kept, one fewer owed. -/
theorem triple_recvReadyForQuery (count : Nat) :
    Triple (fun s => Flushed db s ∧ s.conn.pendingReadyForQueryCount = count + 1) recvReadyForQuery
      (fun _ s => Flushed db s ∧ s.conn.pendingReadyForQueryCount = count) (Safe db) := by
  unfold recvReadyForQuery
  refine Triple.bind triple_recvExpect_ready fun status => Triple.bind Triple.get' fun s₀ => ?_
  split
  · rename_i hzero
    refine Triple.throw' ?_
    rintro s ⟨⟨-, hcount⟩, rfl⟩
    exact absurd (hzero.symm.trans hcount) (Nat.succ_ne_zero count).symm
  · rename_i count' hcount'
    refine triple_modifyConn ?_
    rintro s ⟨⟨h, hcount⟩, rfl⟩
    have hc : count' = count := by omega
    subst hc
    exact ⟨h.readReady rfl hcount' _, rfl⟩

end Counting

/-! ## `wait_until_ready` -/

section Wait

variable {db : Database σ}

/-- One turn of `wait_until_ready` keeps the session flushed; the loop ends quiescent. -/
theorem triple_waitTurn :
    Triple (Flushed db) (waitTurn ())
      (fun r s => match r with
        | .inl _ => Flushed db s
        | .inr _ => Quiescent db s) (Safe db) := by
  unfold waitTurn
  refine Triple.bind Triple.get' fun s₀ => ?_
  split
  · rename_i hpos
    obtain ⟨count, hcount⟩ : ∃ count, s₀.conn.pendingReadyForQueryCount = count + 1 :=
      ⟨_, (Nat.succ_pred_eq_of_pos hpos).symm⟩
    refine Triple.bind (triple_recv_flushed.mono (fun s ⟨h, hs⟩ => ⟨h, hs ▸ hcount⟩) (fun _ _ h => h)
      (fun _ _ h => h)) fun m => ?_
    split
    · rename_i hm
      exact Triple.bind (triple_handleReadyForQuery.mono (fun s h => ⟨h.1, h.2, hm⟩) (fun _ _ h => h)
        (fun _ _ h => h)) fun _ => Triple.pure' fun _ h => h.1
    · rename_i hm
      exact Triple.pure' fun s h => h.1.of_unread (by simp [ReceivedMessage.isReady, hm])
  · rename_i hzero
    refine Triple.pure' ?_
    rintro s ⟨h, rfl⟩
    exact ⟨h.synced, by omega⟩

/-- **`wait_until_ready`** brings a synced session to quiescence, or stops
short, by a drop or a stale error, with the account kept. -/
theorem triple_waitUntilReady : Triple (Synced db) (waitUntilReady db) (fun _ => Quiescent db) (Safe db) := by
  have hloop : Triple (Flushed db) (loopUntil waitTurn waitTurn_advances ()) (fun _ => Quiescent db) (Safe db) :=
    Triple.loopUntil (I := fun _ => Flushed db) (S := fun _ => Quiescent db)
      (fun ⟨⟩ => triple_waitTurn.mono (fun _ h => h) (fun r _ h => by cases r <;> exact h) (fun _ _ h => h)) ()
  unfold waitUntilReady
  refine Triple.bind Triple.get' fun s₀ => ?_
  dsimp only
  refine Triple.ite (fun _ => Triple.bind (triple_flush db ?_ ?_) fun _ => hloop) (fun hbuf => hloop.mono ?_
    (fun _ _ h => h) (fun _ _ h => h))
  · rintro s n ⟨h, -⟩
    exact ⟨h.deliver.wait n, rfl⟩
  · rintro s ⟨h, -⟩
    exact ⟨by simp, h.deliver⟩
  · rintro s ⟨h, rfl⟩
    exact ⟨h, not_not.1 hbuf⟩

end Wait

end Sqlx.Postgres
