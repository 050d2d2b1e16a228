import Sqlx.Postgres.ValueDecode
import Mathlib.Data.Bool.AllAny

/-!
# Postgres — arrays in the text format (`types/array.rs`)

`Decode for Vec<T>` reads a text array by trimming its braces and walking
its characters with two flags, `in_quotes` and `in_escape`: a quote toggles
`in_quotes` and is dropped, a backslash escapes the next character, and an
unquoted `,` ends an element. An element whose text is `NULL` is a `NULL`.

The quotes are gone before that test, so the element `"NULL"`, which
`array_out` writes for the string `NULL`, is read as a `NULL`; every other
list of elements comes back as `array_out` wrote it
(`decodeVecText_arrayOut`).
-/

namespace Sqlx.Postgres

/-- A character UTF-8 writes in one byte. -/
def oneByte (c : Char) : Bool := c.toNat < 0x80

/-- `&s[1..(s.len() - 1)]`: the text inside the braces. The slice panics
when the text is shorter than two bytes or an end is not a one-byte
character. -/
def trimBraces (s : List Char) : Option (List Char) :=
  if 2 ≤ s.length ∧ s.head?.all oneByte ∧ s.getLast?.all oneByte then some s.tail.dropLast else none

/-- The `while !done { loop { … } }` of the text branch: the text of each
element, quotes dropped and escapes resolved. `in_quotes` and `in_escape`
carry over from one element to the next, as in the source. -/
def splitElements (inQuotes inEscape : Bool) (value : List Char) : List Char → List (List Char)
  | [] => [value]
  | ch :: rest =>
    if inEscape then splitElements inQuotes false (value ++ [ch]) rest
    else if ch = '"' then splitElements (!inQuotes) inEscape value rest
    else if ch = '\\' then splitElements inQuotes true value rest
    else if ch = ',' ∧ inQuotes = false then value :: splitElements inQuotes inEscape [] rest
    else splitElements inQuotes inEscape (value ++ [ch]) rest

theorem splitElements_nil (inQuotes inEscape : Bool) (value : List Char) :
    splitElements inQuotes inEscape value [] = [value] := rfl

/-- One step of the loop; the lemmas below read it case by case, so that
`splitElements` is unfolded here only. -/
theorem splitElements_cons (inQuotes inEscape : Bool) (value : List Char) (ch : Char) (rest : List Char) :
    splitElements inQuotes inEscape value (ch :: rest) =
      if inEscape then splitElements inQuotes false (value ++ [ch]) rest
      else if ch = '"' then splitElements (!inQuotes) inEscape value rest
      else if ch = '\\' then splitElements inQuotes true value rest
      else if ch = ',' ∧ inQuotes = false then value :: splitElements inQuotes inEscape [] rest
      else splitElements inQuotes inEscape (value ++ [ch]) rest := by
  rw [splitElements]

/-- `if value == "NULL" { None } else { Some(value.as_bytes()) }`. -/
def elementValue (value : List Char) : Option (List Char) :=
  if value = "NULL".toList then none else some value

/-- `Decode for Vec<T>` (text), with `T::decode` for the elements. -/
def decodeVecText {α : Type} (decodeElement : Option (List Char) → DecodeM α) (s : List Char) :
    DecodeM (List α) := do
  let s ← panicking (trimBraces s)
  if s.isEmpty then pure []
  else (splitElements false false [] s).mapM fun value => decodeElement (elementValue value)

/-- `Decode for Option<String>`: `NULL` is `None`, and the text of a value
is valid UTF-8, so `String::decode` takes it as it is. -/
def decodeOptionString (value : Option (List Char)) : DecodeM (Option (List Char)) := pure value

/-! ## What the server writes: `array_out` -/

/-- `array_isspace`. -/
def arrayIsspace (c : Char) : Bool :=
  c = ' ' || c = '\t' || c = '\n' || c = '\r' || c = '\x0B' || c = '\x0C'

/-- `array_out` quotes an element that is empty, is `NULL` in any case, or
holds a quote, a backslash, a brace, the delimiter or a space. -/
def needsQuote (v : List Char) : Bool :=
  v.isEmpty || v.map Char.toLower == "null".toList ||
    v.any fun c => c = '"' || c = '\\' || c = '{' || c = '}' || c = ',' || arrayIsspace c

/-- Inside quotes, `array_out` puts a backslash before each quote and backslash. -/
def escapeQuoted (v : List Char) : List Char :=
  v.flatMap fun c => if c = '"' ∨ c = '\\' then ['\\', c] else [c]

/-- One element as `array_out` writes it: `NULL` for a `NULL`. -/
def elementOut : Option (List Char) → List Char
  | none => "NULL".toList
  | some v => if needsQuote v then '"' :: escapeQuoted v ++ ['"'] else v

/-- `array_out` of a one-dimensional array with lower bound 1. -/
def arrayOut (xs : List (Option (List Char))) : List Char :=
  '{' :: [','].intercalate (xs.map elementOut) ++ ['}']

/-- The text the decoder's loop reads for an element. -/
def elementText : Option (List Char) → List Char
  | none => "NULL".toList
  | some v => v

/-! ## Reading one element

One lemma for each kind of character the loop can meet; the proofs below
cite them and never unfold `splitElements`. -/

theorem splitElements_escaped (inQuotes : Bool) (ch : Char) (value rest : List Char) :
    splitElements inQuotes true value (ch :: rest) = splitElements inQuotes false (value ++ [ch]) rest := by
  rw [splitElements_cons, if_pos rfl]

theorem splitElements_quote (inQuotes : Bool) (value rest : List Char) :
    splitElements inQuotes false value ('"' :: rest) = splitElements (!inQuotes) false value rest := by
  rw [splitElements_cons, if_neg Bool.false_ne_true, if_pos rfl]

theorem splitElements_backslash (inQuotes : Bool) (value rest : List Char) :
    splitElements inQuotes false value ('\\' :: rest) = splitElements inQuotes true value rest := by
  rw [splitElements_cons, if_neg Bool.false_ne_true, if_neg (by decide), if_pos rfl]

theorem splitElements_delimiter (value rest : List Char) :
    splitElements false false value (',' :: rest) = value :: splitElements false false [] rest := by
  rw [splitElements_cons, if_neg Bool.false_ne_true, if_neg (by decide), if_neg (by decide), if_pos ⟨rfl, rfl⟩]

/-- Any other character is text: outside quotes, every character but the
delimiter; inside, every character. -/
theorem splitElements_text {inQuotes : Bool} {ch : Char} (hquote : ch ≠ '"') (hslash : ch ≠ '\\')
    (hdelim : ch = ',' → inQuotes = true) (value rest : List Char) :
    splitElements inQuotes false value (ch :: rest) = splitElements inQuotes false (value ++ [ch]) rest := by
  have hend : ¬(ch = ',' ∧ inQuotes = false) := fun h => by simp [hdelim h.1] at h
  rw [splitElements_cons, if_neg Bool.false_ne_true, if_neg hquote, if_neg hslash, if_neg hend]

theorem escapeQuoted_cons (c : Char) (v : List Char) :
    escapeQuoted (c :: v) = (if c = '"' ∨ c = '\\' then ['\\', c] else [c]) ++ escapeQuoted v := by
  simp [escapeQuoted]

/-- Inside quotes the loop reads an escaped text up to its closing quote. -/
theorem splitElements_escapeQuoted (rest : List Char) :
    ∀ (v acc : List Char),
      splitElements true false acc (escapeQuoted v ++ '"' :: rest) = splitElements false false (acc ++ v) rest := by
  intro v
  induction v with
  | nil => intro acc; rw [escapeQuoted, List.flatMap_nil, List.nil_append, splitElements_quote, List.append_nil]; rfl
  | cons c v ih =>
    intro acc
    rw [escapeQuoted_cons]
    by_cases hspecial : c = '"' ∨ c = '\\'
    · -- the backslash, then the character it escapes
      rw [if_pos hspecial, List.append_assoc, List.cons_append, List.singleton_append, splitElements_backslash,
        splitElements_escaped, ih, List.append_assoc, List.singleton_append]
    · have hquote : c ≠ '"' := fun h => hspecial (.inl h)
      have hslash : c ≠ '\\' := fun h => hspecial (.inr h)
      rw [if_neg hspecial, List.append_assoc, List.singleton_append,
        splitElements_text hquote hslash (fun _ => rfl), ih, List.append_assoc, List.singleton_append]

/-- Outside quotes the loop reads a text with no quote, backslash or
delimiter as it is. -/
theorem splitElements_plain {v : List Char} (hv : ∀ c ∈ v, c ≠ '"' ∧ c ≠ '\\' ∧ c ≠ ',') (rest : List Char) :
    ∀ acc : List Char, splitElements false false acc (v ++ rest) = splitElements false false (acc ++ v) rest := by
  induction v with
  | nil => intro acc; rw [List.nil_append, List.append_nil]
  | cons c v ih =>
    intro acc
    obtain ⟨hquote, hslash, hcomma⟩ := hv c List.mem_cons_self
    rw [List.cons_append, splitElements_text hquote hslash (fun h => absurd h hcomma),
      ih (fun d hd => hv d (List.mem_cons_of_mem c hd)), List.append_assoc, List.singleton_append]

theorem needsQuote_eq_false {v : List Char} (h : needsQuote v = false) :
    v ≠ [] ∧ ∀ c ∈ v, c ≠ '"' ∧ c ≠ '\\' ∧ c ≠ ',' := by
  simp only [needsQuote, Bool.or_eq_false_iff, List.isEmpty_eq_false_iff, List.any_eq_false] at h
  obtain ⟨⟨hne, -⟩, hchars⟩ := h
  refine ⟨hne, fun c hc => ?_⟩
  have := hchars c hc
  simp only [Bool.or_eq_true, decide_eq_true_eq, not_or] at this
  exact ⟨this.1.1.1.1.1, this.1.1.1.1.2, this.1.2⟩

theorem elementOut_ne_nil (x : Option (List Char)) : elementOut x ≠ [] := by
  cases x with
  | none => simp [elementOut]
  | some v =>
    by_cases hq : needsQuote v
    · simp [elementOut, hq]
    · simpa [elementOut, hq] using (needsQuote_eq_false (Bool.eq_false_iff.mpr hq)).1

/-- **One element, as `array_out` writes it, is read as its text**: quoted
or not, and `NULL` as the text `NULL`. -/
theorem splitElements_elementOut (x : Option (List Char)) (acc rest : List Char) :
    splitElements false false acc (elementOut x ++ rest) = splitElements false false (acc ++ elementText x) rest := by
  cases x with
  | none => exact splitElements_plain (List.all_iff_forall_prop.1 (by decide)) rest acc
  | some v =>
    by_cases hq : needsQuote v
    · -- the opening quote, the escaped text and the closing quote
      rw [elementText, elementOut, if_pos hq, List.append_assoc, List.cons_append, splitElements_quote,
        List.singleton_append]
      exact splitElements_escapeQuoted rest v acc
    · have hplain := (needsQuote_eq_false (Bool.eq_false_iff.mpr hq)).2
      rw [elementText, elementOut, if_neg hq]
      exact splitElements_plain hplain rest acc

/-- The elements between the braces are read one by one, in order. -/
theorem splitElements_intercalate :
    ∀ xs : List (Option (List Char)), xs ≠ [] →
      splitElements false false [] ([','].intercalate (xs.map elementOut)) = xs.map elementText := by
  intro xs
  induction xs with
  | nil => intro h; exact absurd rfl h
  | cons x xs ih =>
    intro _
    cases xs with
    | nil =>
      have hone := splitElements_elementOut x [] []
      rw [List.append_nil] at hone
      simp [hone, splitElements_nil]
    | cons y ys =>
      -- the element, then the delimiter after it
      rw [List.map_cons, List.map_cons, List.intercalate_cons_cons, List.append_assoc, splitElements_elementOut,
        List.nil_append, List.singleton_append, splitElements_delimiter, ← List.map_cons, ih (List.cons_ne_nil y ys)]
      rfl

theorem trimBraces_arrayOut (xs : List (Option (List Char))) :
    trimBraces (arrayOut xs) = some ([','].intercalate (xs.map elementOut)) := by
  rw [trimBraces, if_pos]
  · simp [arrayOut]
  · refine ⟨by simp [arrayOut], by simp [arrayOut, oneByte], ?_⟩
    rw [arrayOut, List.cons_append, ← List.cons_append, List.getLast?_concat]
    rfl

theorem intercalate_elementOut_isEmpty (xs : List (Option (List Char))) :
    ([','].intercalate (xs.map elementOut)).isEmpty = xs.isEmpty := by
  cases xs with
  | nil => rfl
  | cons x xs =>
    have hx := elementOut_ne_nil x
    cases xs with
    | nil => simpa using hx
    | cons y ys => simp [List.intercalate_cons_cons]

/-- **A text array as `array_out` writes it is read element by element**,
each element through `elementValue` of its text. -/
theorem decodeVecText_arrayOut {α : Type} (decodeElement : Option (List Char) → DecodeM α)
    (xs : List (Option (List Char))) :
    (decodeVecText decodeElement (arrayOut xs)).run =
      ((xs.map fun x => elementValue (elementText x)).mapM decodeElement).run := by
  rw [decodeVecText, run_bind_of_ok (by rw [trimBraces_arrayOut]; rfl)]
  simp only [intercalate_elementOut_isEmpty]
  cases xs with
  | nil => rfl
  | cons x xs =>
    simp only [List.isEmpty_cons, Bool.false_eq_true, if_false]
    rw [splitElements_intercalate _ (List.cons_ne_nil x xs), List.mapM_map, List.mapM_map]
    rfl

theorem elementValue_elementText (x : Option (List Char)) :
    elementValue (elementText x) = if x = some "NULL".toList then none else x := by
  cases x with
  | none => rfl
  | some v =>
    by_cases hv : v = "NULL".toList
    · subst hv
      rfl
    · rw [elementText, elementValue, if_neg hv, if_neg (fun h => hv (Option.some.inj h))]

theorem mapM_decodeOptionString (values : List (Option (List Char))) :
    (values.mapM decodeOptionString).run = some (.ok values) := by
  have hpure : decodeOptionString = fun value => pure (id value) := rfl
  rw [hpure, List.mapM_pure, List.map_id]
  rfl

/-- Reading `array_out`'s text changes an element exactly when it is the
string `NULL`. -/
theorem map_nullify_eq_self_iff (xs : List (Option (List Char))) :
    xs.map (fun x => if x = some "NULL".toList then none else x) = xs ↔ some "NULL".toList ∉ xs := by
  have hkeep : ∀ x : Option (List Char),
      (if x = some "NULL".toList then none else x) = x ↔ ¬x = some "NULL".toList := by
    intro x
    by_cases hx : x = some "NULL".toList
    · simp [hx]
    · rw [if_neg hx]
      exact iff_of_true rfl hx
  nth_rewrite 2 [← List.map_id xs]
  rw [List.map_inj_left, ← List.forall_mem_ne']
  exact forall₂_congr fun x _ => hkeep x

theorem array_text_reads_quoted_null_as_null :
    (∀ xs : List (Option (List Char)),
      (decodeVecText decodeOptionString (arrayOut xs)).run =
        some (.ok (xs.map fun x => if x = some "NULL".toList then none else x))) ∧
    (∀ xs : List (Option (List Char)),
      (decodeVecText decodeOptionString (arrayOut xs)).run = some (.ok xs) ↔ some "NULL".toList ∉ xs) := by
  have hdecode : ∀ xs : List (Option (List Char)), (decodeVecText decodeOptionString (arrayOut xs)).run =
      some (.ok (xs.map fun x => if x = some "NULL".toList then none else x)) := by
    intro xs
    rw [decodeVecText_arrayOut, mapM_decodeOptionString]
    simp only [elementValue_elementText]
  refine ⟨hdecode, fun xs => ?_⟩
  rw [hdecode, Option.some.injEq, Except.ok.injEq]
  exact map_nullify_eq_self_iff xs

/-- The strings `NULL` and `null` and a `NULL`: `array_out` writes
`{"NULL","null",NULL}`, read back as two `NULL`s and `null`. -/
theorem array_text_of_quoted_null :
    arrayOut [some "NULL".toList, some "null".toList, none] = "\x7b\"NULL\",\"null\",NULL\x7d".toList ∧
      (decodeVecText decodeOptionString (arrayOut [some "NULL".toList, some "null".toList, none])).run =
        some (.ok [none, some "null".toList, none]) :=
  ⟨by decide, (array_text_reads_quoted_null_as_null.1 _).trans (by decide)⟩

end Sqlx.Postgres
