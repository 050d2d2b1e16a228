import Mathlib.Data.Finset.Image
import Sqlx.Lib.Reader
import Sqlx.Lib.EStateM

/-!
# Postgres — `PgListener` (`listener.rs`)

The listener keeps the channels it has subscribed to in a `Vec`, and replays
that `Vec` as one `LISTEN` query whenever it connects again. The server keeps
a set per session: `LISTEN` is idempotent, `UNLISTEN x` removes `x` and
`UNLISTEN *` clears it; a new session listens to nothing.

The statements are built with `ident`, which cuts the name at its first NUL
and doubles every `"`. `parseQuery` is how the server reads a simple query of
such statements: `parseQuery_listenQuery`, `parseQuery_unlistenQuery` and
`parseQuery_buildListenAllQuery` say each statement names exactly its
channel, cut at the NUL, as one quoted identifier, so that no name ends the
identifier early or adds a statement of its own. The last sections give each
method of the listener as a run on this server.
-/

namespace Sqlx.Postgres

open Wire

/-- The NUL character. -/
def nul : Char := Char.ofNat 0

/-- The double quote `"`. -/
def dquote : Char := Char.ofNat 34

/-! ## The statements the listener sends -/

/-- The channel name as the server is to see it: up to its first NUL. -/
def truncateAtNul (name : List Char) : List Char := name.takeWhile (· ≠ nul)

/-- `ident`: the name up to its first NUL, with every `"` doubled. -/
def ident (name : List Char) : List Char := escapeQuotes dquote (truncateAtNul name)

-- The keywords as lists of characters, the form the lexer reads them in.

/-- `LISTEN` and a space. -/
def listenKeyword : List Char := ['L', 'I', 'S', 'T', 'E', 'N', ' ']

/-- `UNLISTEN` and a space. -/
def unlistenKeyword : List Char := ['U', 'N', 'L', 'I', 'S', 'T', 'E', 'N', ' ']

/-- `format!(r#"LISTEN "{}""#, ident(channel))`. -/
def listenQuery (channel : List Char) : List Char := listenKeyword ++ dquote :: ident channel ++ [dquote]

/-- `format!(r#"UNLISTEN "{}""#, ident(channel))`. -/
def unlistenQuery (channel : List Char) : List Char := unlistenKeyword ++ dquote :: ident channel ++ [dquote]

/-- `"UNLISTEN *"`. -/
def unlistenAllQuery : List Char := unlistenKeyword ++ ['*']

/-- `build_listen_all_query`: one `LISTEN "…";` per channel. -/
def buildListenAllQuery (channels : List (List Char)) : List Char :=
  channels.foldl (fun acc chan => acc ++ listenKeyword ++ [dquote] ++ ident chan ++ [dquote, ';']) []

-- `test_build_listen_all_query_with_multiple_channels`
example : buildListenAllQuery ["channel.0".toList, "channel.1".toList] =
    "LISTEN ".toList ++ [dquote] ++ "channel.0".toList ++ [dquote, ';'] ++
      "LISTEN ".toList ++ [dquote] ++ "channel.1".toList ++ [dquote, ';'] := by
  decide

/-! ## The server -/

/-- The statements of the listener's queries, as the server runs them. -/
inductive ListenCommand where
  | listen (channel : List Char)
  | unlisten (channel : List Char)
  | unlistenAll
  deriving DecidableEq, Repr

/-- The channels a session listens to after one command. -/
def ListenCommand.apply : ListenCommand → Finset (List Char) → Finset (List Char)
  | .listen channel, session => insert channel session
  | .unlisten channel, session => session.erase channel
  | .unlistenAll, _ => ∅

/-- The input after the keyword `kw`, if it starts with it. -/
def keyword (kw : List Char) (s : List Char) : Option (List Char) :=
  if kw.isPrefixOf s then some (s.drop kw.length) else none

/-- A double-quoted identifier; the server refuses one of length zero. -/
def readIdent : List Char → Option (List Char × List Char)
  | [] => none
  | c :: rest =>
    if c = dquote then
      match readQuoted dquote rest with
      | some (name, rest) => if name = [] then none else some (name, rest)
      | none => none
    else none

/-- One `LISTEN "…"`, `UNLISTEN "…"` or `UNLISTEN *`. -/
def parseStatement (s : List Char) : Option (ListenCommand × List Char) :=
  match keyword listenKeyword s with
  | some rest => (readIdent rest).map fun p => (.listen p.1, p.2)
  | none =>
    match keyword unlistenAllQuery s with
    | some rest => some (.unlistenAll, rest)
    | none =>
      match keyword unlistenKeyword s with
      | some rest => (readIdent rest).map fun p => (.unlisten p.1, p.2)
      | none => none

theorem parseStatement_eq (s : List Char) :
    parseStatement s =
      match keyword listenKeyword s with
      | some rest => (readIdent rest).map fun p => (.listen p.1, p.2)
      | none =>
        match keyword unlistenAllQuery s with
        | some rest => some (.unlistenAll, rest)
        | none =>
          match keyword unlistenKeyword s with
          | some rest => (readIdent rest).map fun p => (.unlisten p.1, p.2)
          | none => none := rfl

/-- Statements separated by `;`, the last one with or without it; `fuel`
bounds the number of statements. -/
def parseStatements : Nat → List Char → Option (List ListenCommand)
  | 0, _ => none
  | _ + 1, [] => some []
  | fuel + 1, c :: s =>
    match parseStatement (c :: s) with
    | none => none
    | some (command, []) => some [command]
    | some (command, d :: rest) => if d = ';' then (parseStatements fuel rest).map (command :: ·) else none

theorem parseStatements_cons (fuel : Nat) (c : Char) (s : List Char) :
    parseStatements (fuel + 1) (c :: s) =
      match parseStatement (c :: s) with
      | none => none
      | some (command, []) => some [command]
      | some (command, d :: rest) => if d = ';' then (parseStatements fuel rest).map (command :: ·) else none := rfl

/-- A simple query: at most one statement per character. -/
def parseQuery (sql : List Char) : Option (List ListenCommand) := parseStatements (sql.length + 1) sql

/-- A simple query runs as one implicit transaction: all its statements, or
none of them and an error. -/
def runSimpleQuery (sql : List Char) (session : Finset (List Char)) : Option (Finset (List Char)) :=
  (parseQuery sql).map fun commands => commands.foldl (fun s command => command.apply s) session

theorem runSimpleQuery_eq (sql : List Char) (session : Finset (List Char)) :
    runSimpleQuery sql session = (parseQuery sql).map fun commands => commands.foldl (fun s command => command.apply s) session :=
  rfl

/-! ## The listener -/

/-- `PgListener`, with the session of its connection, if it has one. -/
structure PgListener where
  connection : Option (Finset (List Char))
  channels : List (List Char)
  eagerReconnect : Bool

/-- A method of `PgListener`: `&mut self` with a `Result`. -/
abbrev ListenerM := EStateM String PgListener

namespace PgListener

/-- `connection.execute(sql)` on the connection the listener holds. -/
def executeOnConnection (sql : List Char) : ListenerM Unit := fun self =>
  match self.connection with
  | none => .ok () self
  | some session =>
    match runSimpleQuery sql session with
    | some session => .ok () { self with connection := some session }
    | none => .error "error returned from database" self

theorem executeOnConnection_run (sql : List Char) (self : PgListener) :
    (executeOnConnection sql).run self =
      match self.connection with
      | none => .ok () self
      | some session =>
        match runSimpleQuery sql session with
        | some session => .ok () { self with connection := some session }
        | none => .error "error returned from database" self := rfl

/-- `connect_if_needed`: a new session, sent the channels of the `Vec`. -/
def connectIfNeeded : ListenerM Unit := fun self =>
  match self.connection with
  | some _ => .ok () self
  | none =>
    -- `pool.acquire()`: a new session listens to nothing
    match runSimpleQuery (buildListenAllQuery self.channels) ∅ with
    | some session => .ok () { self with connection := some session }
    | none => .error "error returned from database" self

/-- `listen`: `LISTEN` on the connection, then the channel pushed. -/
def listen (channel : List Char) : ListenerM Unit := do
  connectIfNeeded
  executeOnConnection (listenQuery channel)
  modify fun self => { self with channels := self.channels ++ [channel] }

/-- `listen_all`: the channels pushed first, then the `LISTEN`s of the new ones. -/
def listenAll (channels : List (List Char)) : ListenerM Unit := do
  let beg := (← get).channels.length
  modify fun self => { self with channels := self.channels ++ channels }
  let query := buildListenAllQuery ((← get).channels.drop beg)
  connectIfNeeded
  executeOnConnection query

/-- `unlisten`: `UNLISTEN` on the connection if there is one, without
reconnecting, then the first copy of the channel removed. -/
def unlisten (channel : List Char) : ListenerM Unit := do
  executeOnConnection (unlistenQuery channel)
  modify fun self => { self with channels := self.channels.erase channel }

/-- `unlisten_all`. -/
def unlistenAll : ListenerM Unit := do
  executeOnConnection unlistenAllQuery
  modify fun self => { self with channels := [] }

/-- `try_recv` on a connection that turns out to be dead: the connection is
dropped and, with `eager_reconnect`, a new one is made; `Ok(None)`. -/
def tryRecvLost : ListenerM Unit := do
  modify fun self => { self with connection := none }
  if (← get).eagerReconnect then connectIfNeeded

end PgListener

/-! ## How the server reads the statements -/

theorem keyword_append (kw rest : List Char) : keyword kw (kw ++ rest) = some rest := by
  simp [keyword]

theorem readIdent_ident (channel : List Char) {rest : List Char} (hrest : rest.head? ≠ some dquote) :
    readIdent (dquote :: (ident channel ++ dquote :: rest)) =
      if truncateAtNul channel = [] then none else some (truncateAtNul channel, rest) := by
  rw [readIdent, if_pos rfl, ident, readQuoted_escapeQuotes _ _ hrest]

theorem parseStatement_listenQuery (channel : List Char) {rest : List Char} (hrest : rest.head? ≠ some dquote) :
    parseStatement (listenQuery channel ++ rest) =
      if truncateAtNul channel = [] then none else some (.listen (truncateAtNul channel), rest) := by
  have hquery : listenQuery channel ++ rest = listenKeyword ++ dquote :: (ident channel ++ dquote :: rest) := by
    simp only [listenQuery, List.append_assoc, List.cons_append, List.nil_append]
  simp only [hquery, parseStatement_eq, keyword_append, readIdent_ident _ hrest]
  split <;> rfl

theorem parseStatement_unlistenQuery (channel : List Char) {rest : List Char} (hrest : rest.head? ≠ some dquote) :
    parseStatement (unlistenQuery channel ++ rest) =
      if truncateAtNul channel = [] then none else some (.unlisten (truncateAtNul channel), rest) := by
  have hquery : unlistenQuery channel ++ rest = unlistenKeyword ++ dquote :: (ident channel ++ dquote :: rest) := by
    simp only [unlistenQuery, List.append_assoc, List.cons_append, List.nil_append]
  -- the input starts with `UNLISTEN "`, neither `LISTEN ` nor `UNLISTEN *`
  have hlisten : keyword listenKeyword (unlistenKeyword ++ dquote :: (ident channel ++ dquote :: rest)) = none := by
    simp [keyword, listenKeyword, unlistenKeyword, List.isPrefixOf]
  have hall : keyword unlistenAllQuery (unlistenKeyword ++ dquote :: (ident channel ++ dquote :: rest)) = none := by
    simp [keyword, unlistenAllQuery, unlistenKeyword, List.isPrefixOf, dquote]
  simp only [hquery, parseStatement_eq, hlisten, hall, keyword_append, readIdent_ident _ hrest]
  split <;> rfl

theorem parseStatement_unlistenAllQuery (rest : List Char) :
    parseStatement (unlistenAllQuery ++ rest) = some (.unlistenAll, rest) := by
  have hlisten : keyword listenKeyword (unlistenAllQuery ++ rest) = none := by
    simp [keyword, listenKeyword, List.isPrefixOf, unlistenAllQuery, unlistenKeyword]
  simp only [parseStatement_eq, hlisten, keyword_append]

section Statements

variable {s rest : List Char} {command : ListenCommand}

theorem parseStatements_of_semicolon (hs : s ≠ []) (h : parseStatement s = some (command, ';' :: rest)) (fuel : Nat) :
    parseStatements (fuel + 1) s = (parseStatements fuel rest).map (command :: ·) := by
  obtain ⟨c, s, rfl⟩ := List.exists_cons_of_ne_nil hs
  simp only [parseStatements_cons, h, ↓reduceIte]

theorem parseStatements_of_last (hs : s ≠ []) (h : parseStatement s = some (command, [])) (fuel : Nat) :
    parseStatements (fuel + 1) s = some [command] := by
  obtain ⟨c, s, rfl⟩ := List.exists_cons_of_ne_nil hs
  simp only [parseStatements_cons, h]

theorem parseStatements_of_none (hs : s ≠ []) (h : parseStatement s = none) (fuel : Nat) :
    parseStatements (fuel + 1) s = none := by
  obtain ⟨c, s, rfl⟩ := List.exists_cons_of_ne_nil hs
  simp only [parseStatements_cons, h]

end Statements

theorem listenQuery_ne_nil (channel : List Char) : listenQuery channel ≠ [] := by
  simp [listenQuery, listenKeyword]

theorem unlistenQuery_ne_nil (channel : List Char) : unlistenQuery channel ≠ [] := by
  simp [unlistenQuery, unlistenKeyword]

/-- `LISTEN "…"` is one statement, naming the channel up to its NUL. -/
theorem parseQuery_listenQuery (channel : List Char) :
    parseQuery (listenQuery channel) =
      if truncateAtNul channel = [] then none else some [.listen (truncateAtNul channel)] := by
  have h := @parseStatement_listenQuery channel [] (by simp)
  rw [List.append_nil] at h
  unfold parseQuery
  by_cases hempty : truncateAtNul channel = []
  · rw [if_pos hempty] at h ⊢
    exact parseStatements_of_none (listenQuery_ne_nil channel) h _
  · rw [if_neg hempty] at h ⊢
    exact parseStatements_of_last (listenQuery_ne_nil channel) h _

theorem parseQuery_unlistenQuery (channel : List Char) :
    parseQuery (unlistenQuery channel) =
      if truncateAtNul channel = [] then none else some [.unlisten (truncateAtNul channel)] := by
  have h := @parseStatement_unlistenQuery channel [] (by simp)
  rw [List.append_nil] at h
  unfold parseQuery
  by_cases hempty : truncateAtNul channel = []
  · rw [if_pos hempty] at h ⊢
    exact parseStatements_of_none (unlistenQuery_ne_nil channel) h _
  · rw [if_neg hempty] at h ⊢
    exact parseStatements_of_last (unlistenQuery_ne_nil channel) h _

theorem parseQuery_unlistenAllQuery : parseQuery unlistenAllQuery = some [.unlistenAll] := by
  have h := parseStatement_unlistenAllQuery []
  rw [List.append_nil] at h
  exact parseStatements_of_last (by simp [unlistenAllQuery]) h _


theorem buildListenAllQuery_eq_flatMap (channels : List (List Char)) :
    buildListenAllQuery channels = channels.flatMap fun chan => listenQuery chan ++ [';'] := by
  -- the fold appends one statement per channel to what it has built
  have hfold : ∀ acc : List Char, channels.foldl
      (fun acc chan => acc ++ listenKeyword ++ [dquote] ++ ident chan ++ [dquote, ';']) acc =
      acc ++ channels.flatMap fun chan => listenQuery chan ++ [';'] := by
    induction channels with
    | nil => simp
    | cons chan channels ih =>
      intro acc
      rw [List.foldl_cons, ih]
      simp only [List.flatMap_cons, listenQuery, List.append_assoc, List.cons_append, List.nil_append]
  rw [buildListenAllQuery, hfold, List.nil_append]

/-- The statements of a run of `LISTEN "…";`, with fuel for one more than the channels. -/
theorem parseStatements_listenAll (channels : List (List Char)) {fuel : Nat} (hfuel : channels.length < fuel) :
    parseStatements fuel (channels.flatMap fun chan => listenQuery chan ++ [';']) =
      if ∀ chan ∈ channels, truncateAtNul chan ≠ [] then
        some (channels.map fun chan => .listen (truncateAtNul chan))
      else none := by
  induction channels generalizing fuel with
  | nil =>
    obtain ⟨fuel, rfl⟩ := Nat.exists_eq_add_one_of_ne_zero (Nat.pos_iff_ne_zero.mp hfuel)
    simp [parseStatements]
  | cons chan channels ih =>
    obtain ⟨fuel, rfl⟩ := Nat.exists_eq_add_one_of_ne_zero (Nat.pos_iff_ne_zero.mp (Nat.zero_lt_of_lt hfuel))
    have hs : listenQuery chan ++ ';' :: channels.flatMap (fun chan => listenQuery chan ++ [';']) ≠ [] := by
      simp [listenQuery_ne_nil]
    have h := @parseStatement_listenQuery chan (';' :: channels.flatMap fun chan => listenQuery chan ++ [';'])
      (by simp [dquote])
    simp only [List.flatMap_cons, List.append_assoc, List.singleton_append]
    by_cases hempty : truncateAtNul chan = []
    · rw [if_neg (fun hall => hall chan List.mem_cons_self hempty)]
      rw [if_pos hempty] at h
      exact parseStatements_of_none hs h _
    · rw [if_neg hempty] at h
      rw [parseStatements_of_semicolon hs h, ih (by simp at hfuel; omega)]
      by_cases hall : ∀ chan ∈ channels, truncateAtNul chan ≠ []
      · have hall' : ∀ c ∈ chan :: channels, truncateAtNul c ≠ [] := by
          intro c hc
          rcases List.mem_cons.mp hc with rfl | hc
          · exact hempty
          · exact hall c hc
        simp [hall']
      · have hall' : ¬∀ c ∈ chan :: channels, truncateAtNul c ≠ [] :=
          fun h => hall fun c hc => h c (List.mem_cons_of_mem chan hc)
        simp only [if_neg hall, if_neg hall', Option.map_none]

/-- `build_listen_all_query`: one `LISTEN` per channel, in order, each naming
its channel up to the NUL; the server refuses it all if one name is empty. -/
theorem parseQuery_buildListenAllQuery (channels : List (List Char)) :
    parseQuery (buildListenAllQuery channels) =
      if ∀ chan ∈ channels, truncateAtNul chan ≠ [] then
        some (channels.map fun chan => .listen (truncateAtNul chan))
      else none := by
  have hlen := @length_le_length_flatMap _ _ (fun chan => listenQuery chan ++ [';']) (by simp) channels
  rw [parseQuery, buildListenAllQuery_eq_flatMap]
  exact parseStatements_listenAll channels (by omega)


/-! ## What the server makes of them -/

/-- The session after a run of `LISTEN`s: the channels added to it. -/
theorem foldl_apply_listen (channels : List (List Char)) (session : Finset (List Char)) :
    (channels.map fun chan => ListenCommand.listen (truncateAtNul chan)).foldl
        (fun s command => command.apply s) session =
      session ∪ channels.toFinset.image truncateAtNul := by
  induction channels generalizing session with
  | nil => simp
  | cons chan channels ih =>
    rw [List.map_cons, List.foldl_cons, ih]
    simp only [ListenCommand.apply, List.toFinset_cons, Finset.image_insert, Finset.insert_union, Finset.union_insert]

theorem runSimpleQuery_listenQuery (channel : List Char) (session : Finset (List Char)) :
    runSimpleQuery (listenQuery channel) session =
      if truncateAtNul channel = [] then none else some (insert (truncateAtNul channel) session) := by
  rw [runSimpleQuery_eq, parseQuery_listenQuery]
  split <;> rfl

theorem runSimpleQuery_unlistenQuery (channel : List Char) (session : Finset (List Char)) :
    runSimpleQuery (unlistenQuery channel) session =
      if truncateAtNul channel = [] then none else some (session.erase (truncateAtNul channel)) := by
  rw [runSimpleQuery_eq, parseQuery_unlistenQuery]
  split <;> rfl

theorem runSimpleQuery_unlistenAllQuery (session : Finset (List Char)) : runSimpleQuery unlistenAllQuery session = some ∅ := by
  rw [runSimpleQuery_eq, parseQuery_unlistenAllQuery]
  rfl

theorem runSimpleQuery_buildListenAllQuery (channels : List (List Char)) (session : Finset (List Char)) :
    runSimpleQuery (buildListenAllQuery channels) session =
      if ∀ chan ∈ channels, truncateAtNul chan ≠ [] then
        some (session ∪ channels.toFinset.image truncateAtNul)
      else none := by
  rw [runSimpleQuery_eq, parseQuery_buildListenAllQuery]
  split
  · rw [Option.map_some, foldl_apply_listen]
  · rfl


/-! ## The listener against the server -/

namespace PgListener

section Methods

variable {l : PgListener} {sql : List Char} {session session' : Finset (List Char)}

theorem run_executeOnConnection_of_none (hc : l.connection = none) : (executeOnConnection sql).run l = .ok () l := by
  simp only [executeOnConnection_run, hc]

theorem run_executeOnConnection_of_ok (hc : l.connection = some session) (hx : runSimpleQuery sql session = some session') :
    (executeOnConnection sql).run l = .ok () { l with connection := some session' } := by
  simp only [executeOnConnection_run, hc, hx]

theorem run_executeOnConnection_of_error (hc : l.connection = some session) (hx : runSimpleQuery sql session = none) :
    (executeOnConnection sql).run l = .error "error returned from database" l := by
  simp only [executeOnConnection_run, hc, hx]

/-- `connect_if_needed` keeps a live session, and otherwise makes one that
listens to what the `Vec` holds, when every name in it is one the server
accepts. -/
theorem run_connectIfNeeded (hne : ∀ chan ∈ l.channels, truncateAtNul chan ≠ []) :
    ∃ session, connectIfNeeded.run l = .ok () { l with connection := some session } ∧
      (l.connection = some session ∨ l.connection = none ∧ session = l.channels.toFinset.image truncateAtNul) := by
  cases hc : l.connection with
  | some session =>
    refine ⟨session, ?_, .inl rfl⟩
    cases l
    simp only [EStateM.run, connectIfNeeded] at hc ⊢
    rw [hc]
  | none =>
    refine ⟨l.channels.toFinset.image truncateAtNul, ?_, .inr ⟨rfl, rfl⟩⟩
    simp only [EStateM.run, connectIfNeeded, hc, runSimpleQuery_buildListenAllQuery, if_pos hne, Finset.empty_union]

theorem run_unlisten (channel : List Char) :
    (unlisten channel).run l =
      if l.connection ≠ none ∧ truncateAtNul channel = [] then .error "error returned from database" l
      else .ok () ⟨l.connection.map (·.erase (truncateAtNul channel)), l.channels.erase channel, l.eagerReconnect⟩ := by
  rw [unlisten]
  cases hc : l.connection with
  | none =>
    rw [EStateM.run_bind_of_ok (run_executeOnConnection_of_none hc)]
    simp only [ne_eq, not_true_eq_false, false_and, if_false, Option.map_none]
    cases l
    simp only at hc
    rw [hc]
    rfl
  | some session =>
    by_cases hempty : truncateAtNul channel = []
    · have hx : runSimpleQuery (unlistenQuery channel) session = none := by rw [runSimpleQuery_unlistenQuery, if_pos hempty]
      rw [EStateM.run_bind_of_error (run_executeOnConnection_of_error hc hx)]
      simp [hempty]
    · have hx : runSimpleQuery (unlistenQuery channel) session = some (session.erase (truncateAtNul channel)) := by
        rw [runSimpleQuery_unlistenQuery, if_neg hempty]
      rw [EStateM.run_bind_of_ok (run_executeOnConnection_of_ok hc hx)]
      simp only [ne_eq, reduceCtorEq, not_false_eq_true, hempty, and_false, if_false, Option.map_some]
      rfl

theorem run_unlistenAll : unlistenAll.run l = .ok () ⟨l.connection.map fun _ => ∅, [], l.eagerReconnect⟩ := by
  rw [unlistenAll]
  cases hc : l.connection with
  | none =>
    rw [EStateM.run_bind_of_ok (run_executeOnConnection_of_none hc)]
    cases l
    simp only at hc
    rw [hc]
    rfl
  | some session =>
    rw [EStateM.run_bind_of_ok (run_executeOnConnection_of_ok hc (runSimpleQuery_unlistenAllQuery session))]
    rfl

theorem run_tryRecvLost (hne : ∀ chan ∈ l.channels, truncateAtNul chan ≠ []) :
    tryRecvLost.run l =
      .ok () ⟨if l.eagerReconnect then some (l.channels.toFinset.image truncateAtNul) else none, l.channels,
        l.eagerReconnect⟩ := by
  obtain ⟨connection, channels, eagerReconnect⟩ := l
  have hdrop : (modify fun self : PgListener => { self with connection := none } : ListenerM Unit).run
      ⟨connection, channels, eagerReconnect⟩ = .ok () ⟨none, channels, eagerReconnect⟩ := rfl
  rw [tryRecvLost, EStateM.run_bind_of_ok hdrop]
  cases eagerReconnect with
  | false => rfl
  | true =>
    obtain ⟨session, hrun, hcase⟩ := @run_connectIfNeeded ⟨none, channels, true⟩ hne
    -- there is no session left, so `connect_if_needed` makes one
    have hsession : session = channels.toFinset.image truncateAtNul := by
      rcases hcase with hcase | ⟨-, hcase⟩
      · simp at hcase
      · exact hcase
    simp only [EStateM.run_bind, EStateM.run_get, if_true, hrun, hsession]

end Methods

end PgListener

end Sqlx.Postgres
