import Mathlib.Data.List.Basic

/-!
# Postgres — the password file (`sqlx-postgres/src/options/pgpass.rs`)

A line of a pgpass file is `hostname:port:database:username:password`, each
`:` and `\` in a field escaped by a backslash. `find_next_field` reads one
field up to the next unescaped `:` and drops the escapes
(`findNextField_escapeField`); `load_password_from_line` matches four fields,
`*` matching anything, and returns the rest of the line.

The rest of the line is the password as written, escapes and all: a
password with a `:` or a `\` comes back escaped (`loadPasswordFromLine_line`).
-/

namespace Sqlx.Postgres

/-- `char::is_whitespace`: Unicode's White_Space. -/
def isWhitespace (c : Char) : Bool :=
  let n := c.toNat
  (0x09 ≤ n && n ≤ 0x0D) || n == 0x20 || n == 0x85 || n == 0xA0 || n == 0x1680 || (0x2000 ≤ n && n ≤ 0x200A) ||
    n == 0x2028 || n == 0x2029 || n == 0x202F || n == 0x205F || n == 0x3000

/-- The loop of `find_next_field` over the characters of the line.
`escaped_string` is `escaped`, and `pending` is the text since `last_added`,
`line[last_added..idx]`; a field with no escape is returned borrowed, as
`pending`. -/
def findNextFieldFrom : Bool → Option (List Char) → List Char → List Char → Option (List Char × List Char)
  | _, _, _, [] => none
  | escaping, escaped, pending, c :: rest =>
    if c = ':' ∧ escaping = false then
      match escaped with
      | some s => some (s ++ pending, rest)
      | none => some (pending, rest)
    else if c = '\\' then
      let s := escaped.getD []
      let s := if escaping then s ++ ['\\'] else s ++ pending
      findNextFieldFrom (!escaping) (some s) [] rest
    else findNextFieldFrom false escaped (pending ++ [c]) rest

/-- `find_next_field`: the field and the line after its `:`, or `none` when
no unescaped `:` is left. -/
def findNextField (line : List Char) : Option (List Char × List Char) := findNextFieldFrom false none [] line

/-- `matches_next_field`: the line after the field, if the field is `*` or
the value. -/
def matchesNextField (line value : List Char) : Option (List Char) :=
  match findNextField line with
  | some (field, rest) => if field = ['*'] ∨ field = value then some rest else none
  | none => none

/-- `load_password_from_line`: hostname, port, database and username must
match; the rest of the line is the password. -/
def loadPasswordFromLine (line host : List Char) (port : Nat) (username : List Char)
    (database : Option (List Char)) : Option (List Char) :=
  match line.dropWhile isWhitespace with
  | [] => none
  | '#' :: _ => none
  | _ => do
    let line ← matchesNextField line host
    let line ← matchesNextField line (Nat.toDigits 10 port)
    let line ← matchesNextField line (database.getD [])
    let line ← matchesNextField line username
    some line

/-- `trim_newline`: a final `\n`, and then a `\r` before it. -/
def trimNewline (s : List Char) : List Char :=
  if s.getLast? = some '\n' then
    let s := s.dropLast
    if s.getLast? = some '\r' then s.dropLast else s
  else s

/-- The lines `read_line` hands out, each with its `\n`. -/
def readLines : List Char → List Char → List (List Char)
  | acc, [] => if acc = [] then [] else [acc]
  | acc, c :: cs => if c = '\n' then (acc ++ [c]) :: readLines [] cs else readLines (acc ++ [c]) cs

/-- `load_password_from_reader`: the password of the first line that is not
a comment and matches. -/
def loadPasswordFromReader (input host : List Char) (port : Nat) (username : List Char)
    (database : Option (List Char)) : Option (List Char) :=
  (readLines [] input).findSome? fun line =>
    if line.head? = some '#' then none else loadPasswordFromLine (trimNewline line) host port username database

/-! ## libpq's format -/

/-- libpq's escaping of a field: a backslash before each `:` and `\`. -/
def escapeField (field : List Char) : List Char :=
  field.flatMap fun c => if c = ':' ∨ c = '\\' then ['\\', c] else [c]

/-- Fields joined the libpq way: escaped, a `:` between two. -/
def joinFields (fields : List (List Char)) : List Char := [':'].intercalate (fields.map escapeField)

/-- A line of five fields, as libpq writes and reads it. -/
def pgpassLine (host port database username password : List Char) : List Char :=
  joinFields [host, port, database, username, password]

/-- Each field is `*` or the value it is matched against. -/
def fieldsMatch : List (List Char) → List (List Char) → Bool
  | field :: fields, value :: values => decide (field = ['*'] ∨ field = value) && fieldsMatch fields values
  | _, _ => true

/-! ## Reading a field -/

theorem escapeField_cons (c : Char) (field : List Char) :
    escapeField (c :: field) = (if c = ':' ∨ c = '\\' then ['\\', c] else [c]) ++ escapeField field := by
  simp [escapeField]

theorem joinFields_cons_cons (field next : List Char) (fields : List (List Char)) :
    joinFields (field :: next :: fields) = escapeField field ++ ':' :: joinFields (next :: fields) := by
  simp [joinFields, List.intercalate_cons_cons]

theorem length_le_length_escapeField (field : List Char) : field.length ≤ (escapeField field).length := by
  induction field with
  | nil => exact Nat.le_refl 0
  | cons c field ih =>
    rw [escapeField_cons]
    split <;> simp <;> omega

/-- Escaping changes exactly the fields with a `:` or a `\` in them. -/
theorem escapeField_eq_self_iff (field : List Char) :
    escapeField field = field ↔ ∀ c ∈ field, c ≠ ':' ∧ c ≠ '\\' := by
  induction field with
  | nil => simp [escapeField]
  | cons c field ih =>
    rw [escapeField_cons]
    by_cases hspecial : c = ':' ∨ c = '\\'
    · -- the backslash makes the escaped field one longer than the field
      have hlen := length_le_length_escapeField field
      simp only [if_pos hspecial, List.cons_append, List.cons.injEq, List.mem_cons, forall_eq_or_imp]
      constructor
      · rintro ⟨-, hrest⟩
        have := congrArg List.length hrest
        simp at this
        omega
      · rintro ⟨hc, -⟩
        exact absurd hspecial (by tauto)
    · simp only [if_neg hspecial, List.singleton_append, List.cons.injEq, true_and, List.mem_cons,
        forall_eq_or_imp, ih]
      constructor
      · intro h
        exact ⟨by tauto, h⟩
      · exact fun h => h.2

/-- The loop reads an escaped field up to its `:`, after what it has read
so far (`escaped` and `pending`). -/
theorem findNextFieldFrom_escapeField (rest : List Char) :
    ∀ (field : List Char) (escaped : Option (List Char)) (pending : List Char),
      findNextFieldFrom false escaped pending (escapeField field ++ ':' :: rest) =
        some (escaped.getD [] ++ pending ++ field, rest) := by
  intro field
  induction field with
  | nil =>
    intro escaped pending
    cases escaped <;> simp [escapeField, findNextFieldFrom]
  | cons c field ih =>
    intro escaped pending
    rw [escapeField_cons]
    by_cases hcolon : c = ':'
    · -- an escaped `:` is kept
      subst hcolon
      simp only [true_or, if_true, List.cons_append, List.nil_append, findNextFieldFrom]
      simp [ih]
    · by_cases hslash : c = '\\'
      · -- an escaped backslash is kept
        subst hslash
        simp only [or_true, if_true, List.cons_append, List.nil_append, findNextFieldFrom]
        simp [ih]
      · simp only [hcolon, hslash, or_self, if_false, List.cons_append, List.nil_append, findNextFieldFrom,
          false_and, if_false]
        rw [ih]
        simp

/-- Without a `:` after it, an escaped field is no field. -/
theorem findNextFieldFrom_escapeField_nil :
    ∀ (field : List Char) (escaped : Option (List Char)) (pending : List Char),
      findNextFieldFrom false escaped pending (escapeField field) = none := by
  intro field
  induction field with
  | nil => intro escaped pending; rfl
  | cons c field ih =>
    intro escaped pending
    rw [escapeField_cons]
    by_cases hcolon : c = ':'
    · subst hcolon
      simp [findNextFieldFrom, ih]
    · by_cases hslash : c = '\\'
      · subst hslash
        simp [findNextFieldFrom, ih]
      · simp only [hcolon, hslash, or_self, if_false, List.singleton_append, findNextFieldFrom, false_and,
          if_false]
        exact ih _ _

/-- **`find_next_field` reads one escaped field** and the line after its `:`. -/
theorem findNextField_escapeField (field rest : List Char) :
    findNextField (escapeField field ++ ':' :: rest) = some (field, rest) := by
  simp [findNextField, findNextFieldFrom_escapeField]

theorem matchesNextField_escapeField (field rest value : List Char) :
    matchesNextField (escapeField field ++ ':' :: rest) value =
      if field = ['*'] ∨ field = value then some rest else none := by
  simp only [matchesNextField, findNextField_escapeField]

theorem matchesNextField_escapeField_nil (field value : List Char) : matchesNextField (escapeField field) value = none := by
  simp only [matchesNextField, findNextField, findNextFieldFrom_escapeField_nil]

/-- Matching the fields of a joined line: the last field is what is left,
escaped as it was written. -/
theorem foldlM_matchesNextField_joinFields (password : List Char) :
    ∀ (fields values : List (List Char)), fields.length = values.length →
      values.foldlM matchesNextField (joinFields (fields ++ [password])) =
        if fieldsMatch fields values then some (escapeField password) else none := by
  intro fields
  induction fields with
  | nil =>
    intro values hlen
    cases values with
    | nil => simp [joinFields, fieldsMatch]
    | cons _ _ => simp at hlen
  | cons field fields ih =>
    intro values hlen
    cases values with
    | nil => simp at hlen
    | cons value values =>
      have hrest : (fields ++ [password]) = (fields ++ [password]).head! :: (fields ++ [password]).tail := by
        cases fields <;> rfl
      rw [List.cons_append, hrest, joinFields_cons_cons, ← hrest, List.foldlM_cons, matchesNextField_escapeField]
      by_cases hmatch : field = ['*'] ∨ field = value
      · simp only [if_pos hmatch, Option.bind_eq_bind, Option.bind_some, fieldsMatch, decide_eq_true hmatch,
          Bool.true_and]
        exact ih values (by simpa using hlen)
      · simp [hmatch, fieldsMatch]

/-- Fewer fields than values: no password. -/
theorem foldlM_matchesNextField_joinFields_short :
    ∀ (fields values : List (List Char)), fields ≠ [] → fields.length ≤ values.length →
      values.foldlM matchesNextField (joinFields fields) = none := by
  intro fields
  induction fields with
  | nil => intro _ h; exact absurd rfl h
  | cons field fields ih =>
    intro values _ hlen
    cases values with
    | nil => simp at hlen
    | cons value values =>
      cases fields with
      | nil =>
        simp [joinFields, matchesNextField_escapeField_nil]
      | cons next more =>
        rw [joinFields_cons_cons, List.foldlM_cons, matchesNextField_escapeField]
        by_cases hmatch : field = ['*'] ∨ field = value
        · simp only [if_pos hmatch, Option.bind_eq_bind, Option.bind_some]
          exact ih values (by simp) (by simpa using hlen)
        · simp [hmatch]

/-! ## Reading a line -/

/-- A line that is not blank and not a comment: four fields are matched. -/
theorem loadPasswordFromLine_eq {line : List Char} {x : Char} {xs : List Char}
    (h : line.dropWhile isWhitespace = x :: xs) (hx : x ≠ '#') (host : List Char) (port : Nat)
    (username : List Char) (database : Option (List Char)) :
    loadPasswordFromLine line host port username database =
      [host, Nat.toDigits 10 port, database.getD [], username].foldlM matchesNextField line := by
  unfold loadPasswordFromLine
  rw [h]
  split
  · rename_i heq
    cases heq
  · rename_i heq
    cases heq
    exact absurd rfl hx
  · rfl

/-- The first character of a line whose host starts with no whitespace and no `#`. -/
theorem dropWhile_joinFields {host : List Char} (hfirst : ∀ c ∈ host.head?, isWhitespace c = false ∧ c ≠ '#')
    (rest : List Char) :
    ∃ x xs, (escapeField host ++ ':' :: rest).dropWhile isWhitespace = x :: xs ∧ x ≠ '#' := by
  cases host with
  | nil => exact ⟨':', rest, by simp [escapeField, isWhitespace], by decide⟩
  | cons c host =>
    obtain ⟨hspace, hhash⟩ := hfirst c rfl
    rw [escapeField_cons]
    split
    · exact ⟨'\\', c :: (escapeField host ++ ':' :: rest), by simp [isWhitespace], by decide⟩
    · exact ⟨c, escapeField host ++ ':' :: rest, by simp [hspace], hhash⟩

/-- **A line of five fields gives its password as written**, escapes kept,
when its first four fields match. -/
theorem loadPasswordFromLine_pgpassLine {host port database username password : List Char}
    (hfirst : ∀ c ∈ host.head?, isWhitespace c = false ∧ c ≠ '#') (hostValue : List Char) (portValue : Nat)
    (usernameValue : List Char) (databaseValue : Option (List Char)) :
    loadPasswordFromLine (pgpassLine host port database username password) hostValue portValue usernameValue
        databaseValue =
      if fieldsMatch [host, port, database, username]
          [hostValue, Nat.toDigits 10 portValue, databaseValue.getD [], usernameValue] then
        some (escapeField password)
      else none := by
  obtain ⟨x, xs, hdrop, hx⟩ := dropWhile_joinFields hfirst (joinFields [port, database, username, password])
  rw [← joinFields_cons_cons] at hdrop
  rw [pgpassLine, loadPasswordFromLine_eq hdrop hx]
  exact foldlM_matchesNextField_joinFields password [host, port, database, username] _ rfl

/-- A line of fewer than five fields gives no password. -/
theorem loadPasswordFromLine_joinFields_short {fields : List (List Char)} (hlen : fields.length ≤ 4)
    (host : List Char) (port : Nat) (username : List Char) (database : Option (List Char)) :
    loadPasswordFromLine (joinFields fields) host port username database = none := by
  cases hdrop : (joinFields fields).dropWhile isWhitespace with
  | nil => simp [loadPasswordFromLine, hdrop]
  | cons x xs =>
    by_cases hx : x = '#'
    · subst hx
      simp [loadPasswordFromLine, hdrop]
    · rw [loadPasswordFromLine_eq hdrop hx]
      cases fields with
      | nil => simp [joinFields] at hdrop
      | cons field fields => exact foldlM_matchesNextField_joinFields_short _ _ (by simp) (by simp at hlen ⊢; omega)

/-! ## Reading the file -/

/-- A line of the file with its ending: `\r\n` when the flag is set, `\n` otherwise. -/
def withEnding (line : List Char × Bool) : List Char := line.1 ++ (if line.2 then ['\r', '\n'] else ['\n'])

theorem readLines_append {text : List Char} (htext : '\n' ∉ text) (acc rest : List Char) :
    readLines acc (text ++ '\n' :: rest) = (acc ++ text ++ ['\n']) :: readLines [] rest := by
  induction text generalizing acc with
  | nil => simp [readLines]
  | cons c text ih =>
    have hc : c ≠ '\n' := fun h => htext (by simp [h])
    rw [List.cons_append, readLines, if_neg hc, ih (fun h => htext (List.mem_cons_of_mem c h))]
    simp

/-- `read_line` hands out the lines as they were written. -/
theorem readLines_flatMap_withEnding :
    ∀ lines : List (List Char × Bool), (∀ line ∈ lines, '\n' ∉ line.1) →
      readLines [] (lines.flatMap withEnding) = lines.map withEnding := by
  intro lines
  induction lines with
  | nil => intro _; rfl
  | cons line lines ih =>
    intro h
    obtain ⟨text, crlf⟩ := line
    have hnl : '\n' ∉ text := h (text, crlf) List.mem_cons_self
    have htext : '\n' ∉ text ++ (if crlf then ['\r'] else []) := by
      cases crlf <;> simp [hnl]
    have hline : withEnding (text, crlf) = (text ++ (if crlf then ['\r'] else [])) ++ ['\n'] := by
      cases crlf <;> simp [withEnding]
    rw [List.flatMap_cons, hline, List.append_assoc, List.singleton_append, readLines_append htext,
      ih (fun l hl => h l (List.mem_cons_of_mem _ hl)), List.map_cons, hline, List.nil_append]

theorem trimNewline_withEnding {line : List Char × Bool} (hcr : line.1.getLast? ≠ some '\r') :
    trimNewline (withEnding line) = line.1 := by
  obtain ⟨text, crlf⟩ := line
  cases crlf <;> simp [trimNewline, withEnding, hcr]

theorem head_withEnding (line : List Char × Bool) :
    (withEnding line).head? = some '#' ↔ line.1.head? = some '#' := by
  obtain ⟨text, crlf⟩ := line
  cases text with
  | nil => cases crlf <;> simp [withEnding]
  | cons c rest => simp [withEnding]

/-- **The first matching line gives the password**, whatever mix of LF and
CRLF ends the lines. -/
theorem loadPasswordFromReader_withEnding {lines : List (List Char × Bool)}
    (h : ∀ line ∈ lines, '\n' ∉ line.1 ∧ line.1.getLast? ≠ some '\r') (host : List Char) (port : Nat)
    (username : List Char) (database : Option (List Char)) :
    loadPasswordFromReader (lines.flatMap withEnding) host port username database =
      lines.findSome? fun line =>
        if line.1.head? = some '#' then none else loadPasswordFromLine line.1 host port username database := by
  rw [loadPasswordFromReader, readLines_flatMap_withEnding lines (fun l hl => (h l hl).1)]
  -- each line, with its ending and then trimmed, is read as its text
  induction lines with
  | nil => rfl
  | cons line lines ih =>
    have hline := h line List.mem_cons_self
    rw [List.map_cons, List.findSome?_cons, List.findSome?_cons, trimNewline_withEnding hline.2,
      ih (fun l hl => h l (List.mem_cons_of_mem line hl))]
    simp only [head_withEnding]

theorem pgpass_returns_password_still_escaped :
    (∀ field rest : List Char, findNextField (escapeField field ++ ':' :: rest) = some (field, rest)) ∧
    (∀ host port database username password hostValue : List Char, ∀ portValue : Nat,
      ∀ usernameValue databaseValue : List Char, (∀ c ∈ host.head?, isWhitespace c = false ∧ c ≠ '#') →
        loadPasswordFromLine (pgpassLine host port database username password) hostValue portValue usernameValue
            (some databaseValue) =
          if fieldsMatch [host, port, database, username]
              [hostValue, Nat.toDigits 10 portValue, databaseValue, usernameValue] then
            some (escapeField password)
          else none) ∧
    (∀ password : List Char, escapeField password = password ↔ ∀ c ∈ password, c ≠ ':' ∧ c ≠ '\\') ∧
    (∀ fields : List (List Char), fields.length ≤ 4 → ∀ (host : List Char) (port : Nat) (username : List Char)
      (database : Option (List Char)), loadPasswordFromLine (joinFields fields) host port username database = none) ∧
    (∀ lines : List (List Char × Bool), (∀ line ∈ lines, '\n' ∉ line.1 ∧ line.1.getLast? ≠ some '\r') →
      ∀ (host : List Char) (port : Nat) (username : List Char) (database : Option (List Char)),
        loadPasswordFromReader (lines.flatMap withEnding) host port username database =
          lines.findSome? fun line =>
            if line.1.head? = some '#' then none else loadPasswordFromLine line.1 host port username database) :=
  ⟨findNextField_escapeField,
    fun _ _ _ _ _ hostValue portValue usernameValue databaseValue hfirst =>
      loadPasswordFromLine_pgpassLine hfirst hostValue portValue usernameValue (some databaseValue),
    escapeField_eq_self_iff,
    fun _ hlen => loadPasswordFromLine_joinFields_short hlen,
    fun _ h => loadPasswordFromReader_withEnding h⟩

/-- The password `a:b`, written `a\:b`, comes back as `a\:b`; a line of two
fields gives none; of a comment line, a CRLF line for another user and an LF
line that matches, the last gives the password. -/
theorem pgpass_of_escaped_colon :
    loadPasswordFromLine (pgpassLine ['h'] ['5'] ['d'] ['u'] ['a', ':', 'b']) ['h'] 5 ['u'] (some ['d']) =
      some ['a', '\\', ':', 'b'] ∧
    loadPasswordFromLine (joinFields [['h'], ['*']]) ['h'] 5 ['u'] none = none ∧
    loadPasswordFromReader ([(['#'], false), (['*', ':', '*', ':', '*', ':', 'v', ':', 'x'], true),
        (['*', ':', '*', ':', '*', ':', 'u', ':', 'y'], false)].flatMap withEnding) ['h'] 5 ['u'] none = some ['y'] :=
  ⟨(pgpass_returns_password_still_escaped.2.1 ['h'] ['5'] ['d'] ['u'] ['a', ':', 'b'] ['h'] 5 ['u'] ['d']
      (by rintro c ⟨⟩; decide)).trans (by decide),
    pgpass_returns_password_still_escaped.2.2.2.1 [['h'], ['*']] (by decide) ['h'] 5 ['u'] none,
    (pgpass_returns_password_still_escaped.2.2.2.2 _ (by decide) ['h'] 5 ['u'] none).trans (by decide)⟩

end Sqlx.Postgres
