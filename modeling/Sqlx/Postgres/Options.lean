import Mathlib.Data.List.Basic
import Mathlib.Data.Bool.AllAny

/-!
# Postgres — the startup `options` string (`sqlx-postgres/src/options/mod.rs`)

`PgConnectOptions::options` appends `-c {k}={v}` for each pair to the
`options` string, a space between two; the URL parameters `options` and
`options[k]` feed the same string. The server splits the string with
`pg_split_opts`: whitespace ends an argument, and a backslash makes the next
character literal.

Keys and values go in unescaped, so the server gets the pairs back only when
they hold no whitespace and no backslash (`pgSplitOpts_optionsString`); a
value with a space in it is cut in two (`pgSplitOpts_of_space`).
-/

namespace Sqlx.Postgres

/-- `PgConnectOptions`, the one field `options` writes. Text is kept as its
characters (the `Display` output of keys and values). -/
structure PgConnectOptions where
  options : Option (List Char)
  deriving DecidableEq, Repr

namespace PgConnectOptions

/-- The `-c {k}={v}` of one pair. -/
def optionArg (pair : List Char × List Char) : List Char := ['-', 'c', ' '] ++ pair.1 ++ '=' :: pair.2

/-- One turn of the loop of `options`: a space before every pair but the first. -/
def pushOption (s : List Char) (pair : List Char × List Char) : List Char :=
  (if s.isEmpty then s else s ++ [' ']) ++ optionArg pair

/-- `PgConnectOptions::options`; `get_or_insert_with` sets the string even
for no pairs. -/
def setOptions (self : PgConnectOptions) (options : List (List Char × List Char)) : PgConnectOptions :=
  { self with options := some (options.foldl pushOption (self.options.getD [])) }

/-- The two branches of the loop of `parse_from_url` that write `options`:
the `options` parameter is appended after a space, and `options[k]` goes
through `options`. Other keys leave the string alone. -/
def applyUrlOption (self : PgConnectOptions) (key value : List Char) : PgConnectOptions :=
  if key = "options".toList then
    match self.options with
    | some options => { self with options := some (options ++ ' ' :: value) }
    | none => { self with options := some value }
  else if "options[".toList <+: key ∧ key.getLast? = some ']' then
    self.setOptions [((key.drop 8).dropLast, value)]
  else self

end PgConnectOptions

/-! ## `pg_split_opts` -/

/-- `isspace` in the C locale. -/
def isSpace (c : Char) : Bool :=
  c = ' ' || c = '\t' || c = '\n' || c = Char.ofNat 11 || c = Char.ofNat 12 || c = '\r'

/-- The server's `pg_split_opts`, a character at a time: `arg` is the
argument being read, `none` between arguments, and `escaped` says that the
last character was a backslash. -/
def splitOptsFrom : Option (List Char) → Bool → List Char → List (List Char)
  | none, _, [] => []
  | some arg, _, [] => [arg]
  | none, _, c :: cs =>
    if isSpace c then splitOptsFrom none false cs
    else if c = '\\' then splitOptsFrom (some []) true cs
    else splitOptsFrom (some [c]) false cs
  | some arg, escaped, c :: cs =>
    if isSpace c && !escaped then arg :: splitOptsFrom none false cs
    else if !escaped && c = '\\' then splitOptsFrom (some arg) true cs
    else splitOptsFrom (some (arg ++ [c])) false cs

/-- A character outside an argument; the lemmas below unfold
`splitOptsFrom` through this one and the next. -/
theorem splitOptsFrom_none_cons (escaped : Bool) (c : Char) (cs : List Char) :
    splitOptsFrom none escaped (c :: cs) =
      if isSpace c then splitOptsFrom none false cs
      else if c = '\\' then splitOptsFrom (some []) true cs
      else splitOptsFrom (some [c]) false cs := rfl

/-- A character inside an argument. -/
theorem splitOptsFrom_some_cons (arg : List Char) (escaped : Bool) (c : Char) (cs : List Char) :
    splitOptsFrom (some arg) escaped (c :: cs) =
      if isSpace c && !escaped then arg :: splitOptsFrom none false cs
      else if !escaped && c = '\\' then splitOptsFrom (some arg) true cs
      else splitOptsFrom (some (arg ++ [c])) false cs := rfl

/-- The arguments the server reads from an `options` string. -/
def pgSplitOpts (s : List Char) : List (List Char) := splitOptsFrom none false s

/-- A character the server keeps as it is: no whitespace, no backslash. -/
def Plain (c : Char) : Prop := isSpace c = false ∧ c ≠ '\\'

instance : DecidablePred Plain := fun c => inferInstanceAs (Decidable (isSpace c = false ∧ c ≠ '\\'))

/-- What a pair should become on the server: `-c` and `k=v`. -/
def expectedArgs (pair : List Char × List Char) : List (List Char) := [['-', 'c'], pair.1 ++ '=' :: pair.2]

/-! ## Building the string -/

namespace PgConnectOptions

theorem optionArg_ne_nil (pair : List Char × List Char) : optionArg pair ≠ [] := by
  simp [optionArg]

theorem optionArg_eq (pair : List Char × List Char) :
    optionArg pair = ['-', 'c'] ++ ' ' :: (pair.1 ++ '=' :: pair.2) := by
  simp [optionArg]

/-- After the first pair, each pair goes in after a space. -/
theorem foldl_pushOption_of_ne_nil :
    ∀ (pairs : List (List Char × List Char)) {s : List Char}, s ≠ [] →
      pairs.foldl pushOption s = s ++ pairs.flatMap fun pair => ' ' :: optionArg pair := by
  intro pairs
  induction pairs with
  | nil => intro s _; simp
  | cons pair pairs ih =>
    intro s hs
    have hpush : pushOption s pair = s ++ ' ' :: optionArg pair := by
      simp [pushOption, List.isEmpty_iff, hs]
    rw [List.foldl_cons, hpush, ih (by simp), List.flatMap_cons, List.append_assoc]

theorem foldl_pushOption_nil (pair : List Char × List Char) (pairs : List (List Char × List Char)) :
    (pair :: pairs).foldl pushOption [] = optionArg pair ++ pairs.flatMap fun pair => ' ' :: optionArg pair := by
  rw [List.foldl_cons, show pushOption [] pair = optionArg pair by simp [pushOption],
    foldl_pushOption_of_ne_nil pairs (optionArg_ne_nil pair)]

/-- Successive calls write what one call with all their pairs writes. -/
theorem options_foldl_setOptions :
    ∀ (calls : List (List (List Char × List Char))) (self : PgConnectOptions),
      (calls.foldl setOptions self).options.getD [] = calls.flatten.foldl pushOption (self.options.getD []) := by
  intro calls
  induction calls with
  | nil => intro self; rfl
  | cons pairs calls ih =>
    intro self
    rw [List.foldl_cons, ih, List.flatten_cons, List.foldl_append]
    rfl

/-- `options[k]=v` in the URL is the pair `(k, v)`. -/
theorem applyUrlOption_bracket (self : PgConnectOptions) (k value : List Char) :
    self.applyUrlOption ("options[".toList ++ k ++ [']']) value = self.setOptions [(k, value)] := by
  have hkey : "options[".toList ++ k ++ [']'] ≠ "options".toList := by
    intro h
    have := congrArg List.length h
    simp at this
  have hopen : "options[".toList <+: "options[".toList ++ k ++ [']'] := by
    rw [List.append_assoc]
    exact List.prefix_append _ _
  have hlast : ("options[".toList ++ k ++ [']']).getLast? = some ']' := List.getLast?_concat
  have hkey' : (("options[".toList ++ k ++ [']']).drop 8).dropLast = k := by
    rw [List.append_assoc, List.drop_left' (by rfl), List.dropLast_concat]
  rw [applyUrlOption, if_neg hkey, if_pos ⟨hopen, hlast⟩, hkey']

end PgConnectOptions

/-! ## Splitting it -/

theorem plain_dash : Plain '-' := ⟨by decide, by decide⟩

theorem plain_c : Plain 'c' := ⟨by decide, by decide⟩

theorem plain_eq : Plain '=' := ⟨by decide, by decide⟩

/-- Plain characters extend the argument being read. -/
theorem splitOptsFrom_plain (arg : List Char) :
    ∀ {a : List Char}, (∀ c ∈ a, Plain c) → ∀ rest,
      splitOptsFrom (some arg) false (a ++ rest) = splitOptsFrom (some (arg ++ a)) false rest := by
  intro a
  induction a generalizing arg with
  | nil => intro _ rest; simp
  | cons c a ih =>
    intro ha rest
    obtain ⟨hspace, hslash⟩ := ha c List.mem_cons_self
    rw [List.cons_append, splitOptsFrom_some_cons, hspace, Bool.false_and, if_neg (by simp), if_neg (by simp [hslash]),
      ih (arg ++ [c]) (fun d hd => ha d (List.mem_cons_of_mem c hd)), List.append_assoc, List.singleton_append]

/-- A nonempty plain argument and a space: the server reads the argument. -/
theorem pgSplitOpts_plain_space {a : List Char} (ha : ∀ c ∈ a, Plain c) (hne : a ≠ []) (rest : List Char) :
    pgSplitOpts (a ++ ' ' :: rest) = a :: pgSplitOpts rest := by
  obtain ⟨c, a', rfl⟩ := List.exists_cons_of_ne_nil hne
  obtain ⟨hspace, hslash⟩ := ha c List.mem_cons_self
  rw [pgSplitOpts, List.cons_append, splitOptsFrom_none_cons, if_neg (by simp [hspace]), if_neg hslash,
    splitOptsFrom_plain [c] (fun d hd => ha d (List.mem_cons_of_mem c hd))]
  simp [splitOptsFrom_some_cons, isSpace, pgSplitOpts]

/-- A nonempty plain argument at the end: the server reads it. -/
theorem pgSplitOpts_plain {a : List Char} (ha : ∀ c ∈ a, Plain c) (hne : a ≠ []) : pgSplitOpts a = [a] := by
  obtain ⟨c, a', rfl⟩ := List.exists_cons_of_ne_nil hne
  obtain ⟨hspace, hslash⟩ := ha c List.mem_cons_self
  have hsplit := splitOptsFrom_plain [c] (fun d hd => ha d (List.mem_cons_of_mem c hd)) []
  rw [List.append_nil] at hsplit
  rw [pgSplitOpts, splitOptsFrom_none_cons, if_neg (by simp [hspace]), if_neg hslash, hsplit]
  rfl

theorem plain_optionArg_value {pair : List Char × List Char} (h : ∀ c ∈ pair.1 ++ pair.2, Plain c) :
    ∀ c ∈ pair.1 ++ '=' :: pair.2, Plain c := by
  intro c hc
  rcases List.mem_append.mp hc with hc | hc
  · exact h c (List.mem_append_left _ hc)
  · rcases List.mem_cons.mp hc with rfl | hc
    · exact plain_eq
    · exact h c (List.mem_append_right _ hc)

/-- The server reads `-c` and `k=v` off a plain pair. -/
theorem pgSplitOpts_optionArg_append {pair : List Char × List Char} (h : ∀ c ∈ pair.1 ++ pair.2, Plain c)
    (rest : List Char) :
    pgSplitOpts (PgConnectOptions.optionArg pair ++ ' ' :: rest) = expectedArgs pair ++ pgSplitOpts rest := by
  have hdash : ∀ c ∈ ['-', 'c'], Plain c := by simp [plain_dash, plain_c]
  have hvalue := plain_optionArg_value h
  rw [PgConnectOptions.optionArg_eq, List.append_assoc, List.cons_append (a := ' '),
    pgSplitOpts_plain_space hdash (by simp), pgSplitOpts_plain_space hvalue (by simp)]
  rfl

theorem pgSplitOpts_optionArg {pair : List Char × List Char} (h : ∀ c ∈ pair.1 ++ pair.2, Plain c) :
    pgSplitOpts (PgConnectOptions.optionArg pair) = expectedArgs pair := by
  have hdash : ∀ c ∈ ['-', 'c'], Plain c := by simp [plain_dash, plain_c]
  rw [PgConnectOptions.optionArg_eq, pgSplitOpts_plain_space hdash (by simp),
    pgSplitOpts_plain (plain_optionArg_value h) (by simp)]
  rfl

/-- **Plain pairs come back.** The string of plain pairs splits into `-c`
and `k=v` for each, in order. -/
theorem pgSplitOpts_optionsString :
    ∀ (pairs : List (List Char × List Char)), (∀ pair ∈ pairs, ∀ c ∈ pair.1 ++ pair.2, Plain c) →
      pgSplitOpts (pairs.foldl PgConnectOptions.pushOption []) = pairs.flatMap expectedArgs := by
  intro pairs
  induction pairs with
  | nil => intro _; rfl
  | cons pair pairs ih =>
    intro h
    rw [PgConnectOptions.foldl_pushOption_nil, List.flatMap_cons]
    cases pairs with
    | nil => simp [pgSplitOpts_optionArg (h pair List.mem_cons_self)]
    | cons next more =>
      have htail := ih (fun p hp => h p (List.mem_cons_of_mem pair hp))
      rw [PgConnectOptions.foldl_pushOption_nil] at htail
      rw [List.flatMap_cons, List.cons_append, pgSplitOpts_optionArg_append (h pair List.mem_cons_self), htail]

/-- **A value with a space is cut in two.** -/
theorem pgSplitOpts_of_space {k a b : List Char} (h : ∀ c ∈ k ++ a ++ b, Plain c) (hb : b ≠ []) :
    pgSplitOpts (PgConnectOptions.optionArg (k, a ++ ' ' :: b)) = [['-', 'c'], k ++ '=' :: a, b] := by
  have hdash : ∀ c ∈ ['-', 'c'], Plain c := by simp [plain_dash, plain_c]
  have hka : ∀ c ∈ k ++ '=' :: a, Plain c := by
    intro c hc
    rcases List.mem_append.mp hc with hc | hc
    · exact h c (by simp [hc])
    · rcases List.mem_cons.mp hc with rfl | hc
      · exact plain_eq
      · exact h c (by simp [hc])
  have hb' : ∀ c ∈ b, Plain c := fun c hc => h c (by simp [hc])
  rw [PgConnectOptions.optionArg_eq, pgSplitOpts_plain_space hdash (by simp)]
  rw [show k ++ '=' :: (a ++ ' ' :: b) = (k ++ '=' :: a) ++ ' ' :: b by simp, pgSplitOpts_plain_space hka (by simp),
    pgSplitOpts_plain hb' hb]

/-- **Only plain pairs reach the server as given.** Over any sequence of
`options` calls whose keys and values hold no whitespace and no backslash,
the server reads `-c` and `k=v` for each pair, in call order; a value with a
space in it, here through the URL parameter `options[k]`, becomes two
arguments. -/
theorem options_reach_server_only_unescaped :
    (∀ calls : List (List (List Char × List Char)), (∀ pair ∈ calls.flatten, ∀ c ∈ pair.1 ++ pair.2, Plain c) →
      pgSplitOpts ((calls.foldl PgConnectOptions.setOptions ⟨none⟩).options.getD []) =
        calls.flatten.flatMap expectedArgs) ∧
    (∀ k a b : List Char, (∀ c ∈ k ++ a ++ b, Plain c) → b ≠ [] →
      pgSplitOpts ((PgConnectOptions.applyUrlOption ⟨none⟩ ("options[".toList ++ k ++ [']'])
        (a ++ ' ' :: b)).options.getD []) = [['-', 'c'], k ++ '=' :: a, b]) := by
  refine ⟨fun calls h => ?_, fun k a b h hb => ?_⟩
  · rw [PgConnectOptions.options_foldl_setOptions]
    exact pgSplitOpts_optionsString calls.flatten h
  · rw [PgConnectOptions.applyUrlOption_bracket]
    exact pgSplitOpts_of_space h hb

/-- Two calls, geqo=off then statement_timeout=5min, reach the server as
given; the URL parameter options[search_path]=a b does not. -/
theorem options_of_geqo_and_search_path :
    pgSplitOpts (([[("geqo".toList, "off".toList)], [("statement_timeout".toList, "5min".toList)]].foldl
        PgConnectOptions.setOptions ⟨none⟩).options.getD []) =
      [['-', 'c'], "geqo=off".toList, ['-', 'c'], "statement_timeout=5min".toList] ∧
    pgSplitOpts ((PgConnectOptions.applyUrlOption ⟨none⟩ ("options[".toList ++ "search_path".toList ++ [']'])
        ("a".toList ++ ' ' :: "b".toList)).options.getD []) = [['-', 'c'], "search_path=a".toList, "b".toList] :=
  ⟨options_reach_server_only_unescaped.1 _ fun pair hpair => by
      -- two calls of one pair each, both plain
      simp only [List.flatten_cons, List.flatten_nil, List.append_nil, List.singleton_append, List.mem_cons,
        List.not_mem_nil, or_false] at hpair
      rcases hpair with rfl | rfl <;> exact List.all_iff_forall_prop.1 (by decide),
    options_reach_server_only_unescaped.2 "search_path".toList "a".toList "b".toList
      (List.all_iff_forall_prop.1 (by decide)) (by decide)⟩

end Sqlx.Postgres
