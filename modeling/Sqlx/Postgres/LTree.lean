import Mathlib.Data.List.Forall2
import Sqlx.Lib.Utf8
import Sqlx.Postgres.ArgumentFrames
import Sqlx.Postgres.ValueDecode

/-!
# Postgres — `ltree` and `lquery` (`types/ltree.rs`, `types/lquery.rs`)

An `ltree` is a list of labels, each a text `PgLTreeLabel::new` accepted (at
most 256 bytes, each a letter, a digit or `_`); it prints as the labels joined
by `.` and parses by splitting on `.`. An `lquery` is a list of levels: a star
with optional bounds, or one or more variants (a label and the modifiers
`*`, `@`, `%`), possibly negated by `!`. Both go over the wire in binary as a
version byte `1` and then the text.

The text parser and printer of `lquery` do not agree. `write_variants` joins
the variants of a level with `.`, which the parser reads as a level separator,
so a level of several variants comes back as several levels
(`PgLQuery.fromStr_nonStar_variants`); a star with one bound prints as
`*{n,}` or `*{,m}`, which the parser rejects (`PgLQueryLevel.fromStr_atLeast`);
and a variant of an empty label that starts with `*` is read as a star, or
panics on the slice `s[2..s.len() - 1]`. What does read back is exactly the
levels of `ReadsBack` (`PgLQuery.fromStr_toString`). The empty tree prints as
the empty text, which parses as one empty label (`PgLTree.fromStr_toString_iff`),
and the empty `lquery` is refused. Both binary decoders read `bytes[0]` first,
so an empty payload panics (`PgLTree.decode_binary_eq_none_iff`); past the
version byte they are the text parsers (`decodeVersioned_encoded`).
-/

namespace Sqlx.Postgres

open Wire

/-! ## `ltree` -/

/-- `PgLTreeParseError`. -/
inductive PgLTreeParseError where
  | invalidLtreeLabel
  | invalidLtreeVersion
  deriving DecidableEq, Repr

/-- `Display for PgLTreeParseError`, as `thiserror` writes it. -/
def PgLTreeParseError.message : PgLTreeParseError → String
  | .invalidLtreeLabel => "ltree label contains invalid characters"
  | .invalidLtreeVersion => "ltree version not supported"

/-- A byte `PgLTreeLabel::new` lets into a label:
`is_ascii_alphabetic() || is_ascii_digit() || c == b'_'`. -/
def isLabelByte (c : UInt8) : Bool := isAsciiAlphanumeric c || c == 0x5F

/-- The test of `PgLTreeLabel::new`. -/
def labelAccepted (label : List UInt8) : Bool := decide (label.length ≤ 256) && label.all isLabelByte

/-- `PgLTreeLabel`: a text that passed the test of `new`, the only way to build one. -/
structure PgLTreeLabel where
  text : List UInt8
  accepted : labelAccepted text = true
  deriving DecidableEq

/-- `#[derive(Default)]`: the empty label. -/
instance : Inhabited PgLTreeLabel := ⟨⟨[], rfl⟩⟩

/-- `PgLTreeLabel::new`. -/
def PgLTreeLabel.new (label : List UInt8) : Except PgLTreeParseError PgLTreeLabel :=
  if h : labelAccepted label = true then .ok ⟨label, h⟩ else .error .invalidLtreeLabel

/-- `PgLTree`. -/
structure PgLTree where
  labels : List PgLTreeLabel
  deriving DecidableEq

/-- `PgLTree::new`: the empty tree. -/
def PgLTree.new : PgLTree := ⟨[]⟩

/-- The loop of `Display for PgLTree`, `Display for PgLQuery` and
`write_variants`: the first item, then each next one after a `.`. -/
def writeDotted : List (List UInt8) → List UInt8
  | [] => []
  | first :: rest => first ++ rest.flatMap (0x2E :: ·)

theorem writeDotted_cons (first : List UInt8) (rest : List (List UInt8)) :
    writeDotted (first :: rest) = first ++ rest.flatMap (0x2E :: ·) := rfl

/-- `Display for PgLTree`. -/
def PgLTree.toString (t : PgLTree) : List UInt8 := writeDotted (t.labels.map PgLTreeLabel.text)

/-- `FromStr for PgLTree`: the text split on `.`, each piece a label. -/
def PgLTree.fromStr (s : List UInt8) : Except PgLTreeParseError PgLTree := do
  let labels ← (s.splitOn 0x2E).mapM PgLTreeLabel.new
  pure ⟨labels⟩

/-! ## `lquery` -/

/-- `PgLQueryParseError`. -/
inductive PgLQueryParseError where
  | emptyString
  | unexpectedCharacter
  | parseIntError (error : IntErrorKind)
  | lTreeParrseError (error : PgLTreeParseError)
  | invalidLqueryVersion
  deriving DecidableEq, Repr

/-- `Display for PgLQueryParseError`. -/
def PgLQueryParseError.message : PgLQueryParseError → String
  | .emptyString => "lquery cannot be empty"
  | .unexpectedCharacter => "unexpected character in lquery"
  | .parseIntError error => "error parsing integer: " ++ error.message
  -- the source gives a label error the integer error's words
  | .lTreeParrseError error => "error parsing integer: " ++ error.message
  | .invalidLqueryVersion => "lquery version not supported"

/-- `PgLQueryVariantFlag`: the modifiers `*` (`ANY_END`), `@` (`IN_CASE`) and
`%` (`SUBLEXEME`). -/
structure PgLQueryVariantFlag where
  anyEnd : Bool
  inCase : Bool
  sublexeme : Bool
  deriving DecidableEq, Repr

/-- `PgLQueryVariantFlag::empty()`. -/
def PgLQueryVariantFlag.empty : PgLQueryVariantFlag := ⟨false, false, false⟩

/-- `Display for PgLQueryVariantFlag`: `*`, `@`, `%`, in that order. -/
def PgLQueryVariantFlag.toString (m : PgLQueryVariantFlag) : List UInt8 :=
  (if m.anyEnd then [0x2A] else []) ++ (if m.inCase then [0x40] else []) ++ (if m.sublexeme then [0x25] else [])

/-- `PgLQueryVariant`. -/
structure PgLQueryVariant where
  label : PgLTreeLabel
  modifiers : PgLQueryVariantFlag
  deriving DecidableEq

/-- `Display for PgLQueryVariant`: the label, then its modifiers. -/
def PgLQueryVariant.toString (v : PgLQueryVariant) : List UInt8 := v.label.text ++ v.modifiers.toString

/-- `PgLQueryLevel`. -/
inductive PgLQueryLevel where
  | star (atLeast atMost : Option UInt16)
  | nonStar (variants : List PgLQueryVariant)
  | notNonStar (variants : List PgLQueryVariant)
  deriving DecidableEq

/-- `PgLQuery`. -/
structure PgLQuery where
  levels : List PgLQueryLevel
  deriving DecidableEq

/-- `PgLQuery::new`: no level. -/
def PgLQuery.new : PgLQuery := ⟨[]⟩

/-- The loop of `FromStr for PgLQueryVariant` over the bytes from the last:
a modifier sets its flag and shortens the label, any other byte stops it. -/
def stripModifiers : List UInt8 → PgLQueryVariantFlag → Nat → PgLQueryVariantFlag × Nat
  | [], modifiers, labelLength => (modifiers, labelLength)
  | b :: rest, modifiers, labelLength =>
    if b = 0x40 then stripModifiers rest { modifiers with inCase := true } (labelLength - 1)
    else if b = 0x2A then stripModifiers rest { modifiers with anyEnd := true } (labelLength - 1)
    else if b = 0x25 then stripModifiers rest { modifiers with sublexeme := true } (labelLength - 1)
    else (modifiers, labelLength)

/-- `FromStr for PgLQueryVariant`. The label `s[0..label_length]` ends before a
one-byte modifier or at the end, so that slice never panics. -/
def PgLQueryVariant.fromStr (s : List UInt8) : Except PgLQueryParseError PgLQueryVariant := do
  let stripped := stripModifiers s.reverse .empty s.length
  let label ← (PgLTreeLabel.new (s.take stripped.2)).mapError .lTreeParrseError
  pure ⟨label, stripped.1⟩

/-- `s.split('|').map(PgLQueryVariant::from_str).collect()`, the variants of a level. -/
def parseVariants (s : List UInt8) : Except PgLQueryParseError (List PgLQueryVariant) :=
  (s.splitOn 0x7C).mapM PgLQueryVariant.fromStr

/-- `parts[i].parse::<u16>()?`. -/
def parseU16 (part : List UInt8) : Except PgLQueryParseError UInt16 :=
  ((fromStrUnsigned 16 part).map Nat.toUInt16).mapError .parseIntError

/-- The `match parts.len()` of a star level: one number is both bounds, two
are the lower and the upper bound, anything else is refused. -/
def starBounds : List (List UInt8) → Except PgLQueryParseError PgLQueryLevel
  | [number] => do
    let number ← parseU16 number
    pure (.star (some number) (some number))
  | [atLeast, atMost] => do
    let atLeast ← parseU16 atLeast
    let atMost ← parseU16 atMost
    pure (.star (some atLeast) (some atMost))
  | _ => throw .unexpectedCharacter

theorem starBounds_singleton (number : List UInt8) :
    starBounds [number] = (do
      let number ← parseU16 number
      pure (.star (some number) (some number))) := rfl

theorem starBounds_pair (atLeast atMost : List UInt8) :
    starBounds [atLeast, atMost] = (do
      let atLeast ← parseU16 atLeast
      let atMost ← parseU16 atMost
      pure (.star (some atLeast) (some atMost))) := rfl

/-- `FromStr for PgLQueryLevel`; `none` is a panic. A level that starts with
`*` and has more bytes is read as `*{..}` without a look at the braces:
`s[2..s.len() - 1]` panics on a level of two bytes. The `s[1..]` after a `!`
starts after that one byte, and never panics. -/
def PgLQueryLevel.fromStr (s : List UInt8) : ExceptT PgLQueryParseError Option PgLQueryLevel :=
  match s with
  | [] => throw .emptyString
  | b :: rest =>
    if b = 0x2A then
      if 1 < rest.length + 1 then do
        let inner ← ExceptT.lift (Utf8.slice (b :: rest) 2 (rest.length + 1 - 1))
        monadLift (starBounds (inner.splitOn 0x2C))
      else pure (.star none none)
    else if b = 0x21 then do
      let variants ← parseVariants rest
      pure (.notNonStar variants)
    else do
      let variants ← parseVariants (b :: rest)
      pure (.nonStar variants)

theorem PgLQueryLevel.fromStr_cons (b : UInt8) (rest : List UInt8) :
    PgLQueryLevel.fromStr (b :: rest) =
      if b = 0x2A then
        if 1 < rest.length + 1 then do
          let inner ← ExceptT.lift (Utf8.slice (b :: rest) 2 (rest.length + 1 - 1))
          monadLift (starBounds (inner.splitOn 0x2C))
        else pure (.star none none)
      else if b = 0x21 then do
        let variants ← parseVariants rest
        pure (.notNonStar variants)
      else (do
        let variants ← parseVariants (b :: rest)
        pure (.nonStar variants)) := rfl

/-- `write_variants`: a `!` first for a negated level, then the variants
joined by `.`, not by the `|` the parser splits variants on. -/
def writeVariants (variants : List PgLQueryVariant) (not : Bool) : List UInt8 :=
  match variants with
  | [] => []
  | _ :: _ => (if not then [0x21] else []) ++ writeDotted (variants.map PgLQueryVariant.toString)

theorem writeVariants_cons (v : PgLQueryVariant) (vs : List PgLQueryVariant) (not : Bool) :
    writeVariants (v :: vs) not = (if not then [0x21] else []) ++ writeDotted ((v :: vs).map PgLQueryVariant.toString) :=
  rfl

/-- `Display for PgLQueryLevel`. -/
def PgLQueryLevel.toString : PgLQueryLevel → List UInt8
  | .star (some atLeast) (some atMost) =>
    if atLeast = atMost then [0x2A, 0x7B] ++ decimalBytes atLeast.toNat ++ [0x7D]
    else [0x2A, 0x7B] ++ decimalBytes atLeast.toNat ++ [0x2C] ++ decimalBytes atMost.toNat ++ [0x7D]
  | .star (some atLeast) none => [0x2A, 0x7B] ++ decimalBytes atLeast.toNat ++ [0x2C, 0x7D]
  | .star none (some atMost) => [0x2A, 0x7B, 0x2C] ++ decimalBytes atMost.toNat ++ [0x7D]
  | .star none none => [0x2A]
  | .nonStar variants => writeVariants variants false
  | .notNonStar variants => writeVariants variants true

theorem PgLQueryLevel.toString_star_both (atLeast atMost : UInt16) :
    (PgLQueryLevel.star (some atLeast) (some atMost)).toString =
      if atLeast = atMost then [0x2A, 0x7B] ++ decimalBytes atLeast.toNat ++ [0x7D]
      else [0x2A, 0x7B] ++ decimalBytes atLeast.toNat ++ [0x2C] ++ decimalBytes atMost.toNat ++ [0x7D] := rfl

theorem PgLQueryLevel.toString_star_lower (atLeast : UInt16) :
    (PgLQueryLevel.star (some atLeast) none).toString = [0x2A, 0x7B] ++ decimalBytes atLeast.toNat ++ [0x2C, 0x7D] :=
  rfl

theorem PgLQueryLevel.toString_star_upper (atMost : UInt16) :
    (PgLQueryLevel.star none (some atMost)).toString = [0x2A, 0x7B, 0x2C] ++ decimalBytes atMost.toNat ++ [0x7D] :=
  rfl

theorem PgLQueryLevel.toString_star_none : (PgLQueryLevel.star none none).toString = [0x2A] := rfl

theorem PgLQueryLevel.toString_nonStar (variants : List PgLQueryVariant) :
    (PgLQueryLevel.nonStar variants).toString = writeVariants variants false := rfl

theorem PgLQueryLevel.toString_notNonStar (variants : List PgLQueryVariant) :
    (PgLQueryLevel.notNonStar variants).toString = writeVariants variants true := rfl

/-- `Display for PgLQuery`. -/
def PgLQuery.toString (q : PgLQuery) : List UInt8 := writeDotted (q.levels.map PgLQueryLevel.toString)

theorem PgLQuery.toString_mk (levels : List PgLQueryLevel) :
    (⟨levels⟩ : PgLQuery).toString = writeDotted (levels.map PgLQueryLevel.toString) := rfl

/-- `FromStr for PgLQuery`: the text split on `.`, each piece a level. -/
def PgLQuery.fromStr (s : List UInt8) : ExceptT PgLQueryParseError Option PgLQuery := do
  let levels ← (s.splitOn 0x2E).mapM PgLQueryLevel.fromStr
  pure ⟨levels⟩

/-! ## The wire format of both -/

/-- `value.as_bytes()?`. -/
def asBytes : Option (List UInt8) → DecodeM (List UInt8)
  | none => throw "unexpected null; try decoding as an `Option`"
  | some bytes => pure bytes

/-- The `Encode` impls of `PgLTree` and `PgLQuery`: the version byte `1`, then the text. -/
def encodeVersioned (text : List UInt8) : Encoder := .extend [1] (.extend text (.done .no))

/-- The `Decode` impls of `PgLTree` and `PgLQuery`, given the type's error
text, its version error and its parser. In binary, `bytes[0]` is the version,
which must be `1`, and the rest the text. -/
def decodeVersioned {α ε : Type} (message : ε → String) (invalidVersion : ε)
    (fromStr : List UInt8 → ExceptT ε Option α) (format : PgValueFormat) (value : Option (List UInt8)) :
    DecodeM α :=
  match format with
  | .binary => do
    let bytes ← asBytes value
    let version ← panicking bytes.head?
    if version ≠ 1 then throw (message invalidVersion)
    let s ← Utf8.fromUtf8 (bytes.drop 1)
    (fromStr s).adapt message
  | .text => do
    let s ← Utf8.fromUtf8 (← asBytes value)
    (fromStr s).adapt message

/-- `Encode for PgLTree`. -/
def PgLTree.encodeByRef (t : PgLTree) : Encoder := encodeVersioned t.toString

/-- `Decode for PgLTree`. -/
def PgLTree.decode (format : PgValueFormat) (value : Option (List UInt8)) : DecodeM PgLTree :=
  decodeVersioned PgLTreeParseError.message .invalidLtreeVersion (fun s => monadLift (PgLTree.fromStr s)) format value

/-- `Encode for PgLQuery`. -/
def PgLQuery.encodeByRef (q : PgLQuery) : Encoder := encodeVersioned q.toString

/-- `Decode for PgLQuery`. -/
def PgLQuery.decode (format : PgValueFormat) (value : Option (List UInt8)) : DecodeM PgLQuery :=
  decodeVersioned PgLQueryParseError.message .invalidLqueryVersion PgLQuery.fromStr format value

/-! ## Labels and trees read back -/

/-- A label byte is a letter, a digit or `_`. -/
theorem isLabelByte_toNat {c : UInt8} (h : isLabelByte c = true) :
    (0x30 ≤ c.toNat ∧ c.toNat ≤ 0x39) ∨ (0x41 ≤ c.toNat ∧ c.toNat ≤ 0x5A) ∨
      (0x61 ≤ c.toNat ∧ c.toNat ≤ 0x7A) ∨ c.toNat = 0x5F := by
  simp only [isLabelByte, isAsciiAlphanumeric, Bool.or_eq_true, Bool.and_eq_true,
    decide_eq_true_eq, beq_iff_eq, UInt8.le_iff_toNat_le, UInt8.reduceToNat] at h
  rcases h with ((h | h) | h) | h
  · exact .inl h
  · exact .inr (.inl h)
  · exact .inr (.inr (.inl h))
  · exact .inr (.inr (.inr (by rw [h]; rfl)))

/-- A label byte is ASCII, and none of the bytes either format gives a
meaning: `.`, `|`, `!`, `,` and the modifiers `*`, `@`, `%`. -/
theorem isLabelByte_ascii {c : UInt8} (h : isLabelByte c = true) :
    c < 0x80 ∧ c ≠ 0x2E ∧ c ≠ 0x7C ∧ c ≠ 0x21 ∧ c ≠ 0x2C ∧ c ≠ 0x2A ∧ c ≠ 0x40 ∧ c ≠ 0x25 := by
  have hc := isLabelByte_toNat h
  simp only [UInt8.lt_iff_toNat_lt, ne_eq, UInt8.ext_iff, UInt8.reduceToNat]
  omega

section Label

variable (l : PgLTreeLabel)

theorem PgLTreeLabel.isLabelByte_of_mem {c : UInt8} (hc : c ∈ l.text) : isLabelByte c = true := by
  have h := l.accepted
  simp only [labelAccepted, Bool.and_eq_true, List.all_eq_true] at h
  exact h.2 c hc

theorem PgLTreeLabel.ascii_of_mem {c : UInt8} (hc : c ∈ l.text) : c < 0x80 :=
  (isLabelByte_ascii (l.isLabelByte_of_mem hc)).1

theorem PgLTreeLabel.dot_not_mem : (0x2E : UInt8) ∉ l.text :=
  fun h => (isLabelByte_ascii (l.isLabelByte_of_mem h)).2.1 rfl

/-- A label's text passes the test again. -/
@[simp] theorem PgLTreeLabel.new_text : PgLTreeLabel.new l.text = .ok l := dif_pos l.accepted

end Label

theorem mapM_new_text (labels : List PgLTreeLabel) :
    (labels.map PgLTreeLabel.text).mapM PgLTreeLabel.new = .ok labels := by
  induction labels with
  | nil => rfl
  | cons l labels ih => simp [ih]

theorem writeDotted_eq_intercalate : ∀ xs : List (List UInt8), writeDotted xs = [0x2E].intercalate xs
  | [] => rfl
  | [x] => by simp [writeDotted_cons]
  | x :: y :: xs => by
    rw [List.intercalate_cons_cons, ← writeDotted_eq_intercalate (y :: xs)]
    simp [writeDotted_cons]

/-- The pieces `writeDotted` joins come back from a split on `.`, if there
is one and none holds a `.`. -/
theorem splitOn_writeDotted {xs : List (List UInt8)} (hne : xs ≠ []) (hdot : ∀ x ∈ xs, (0x2E : UInt8) ∉ x) :
    (writeDotted xs).splitOn 0x2E = xs := by
  rw [writeDotted_eq_intercalate]
  exact List.splitOn_intercalate _ hdot hne

/-- A tree of at least one label reads back. -/
theorem PgLTree.fromStr_toString {t : PgLTree} (h : t.labels ≠ []) : PgLTree.fromStr t.toString = .ok t := by
  have hsplit : t.toString.splitOn 0x2E = t.labels.map PgLTreeLabel.text :=
    splitOn_writeDotted (by simpa using h) (by simpa using fun l _ => l.dot_not_mem)
  rw [PgLTree.fromStr, hsplit, mapM_new_text]
  rfl

/-- The empty tree prints as the empty text, which is one empty label. -/
theorem PgLTree.fromStr_toString_new : PgLTree.fromStr PgLTree.new.toString = .ok ⟨[default]⟩ := by
  decide

/-- Exactly the trees with a label read back. -/
theorem PgLTree.fromStr_toString_iff (t : PgLTree) : PgLTree.fromStr t.toString = .ok t ↔ t.labels ≠ [] := by
  refine ⟨fun h hnil => ?_, PgLTree.fromStr_toString⟩
  have hnew : t = PgLTree.new := by cases t; cases hnil; rfl
  rw [hnew, PgLTree.fromStr_toString_new] at h
  cases h

/-! ## Variants read back -/

/-- Stripping stops at the last byte of a label. -/
theorem stripModifiers_label (l : PgLTreeLabel) (m : PgLQueryVariantFlag) (n : Nat) :
    stripModifiers l.text.reverse m n = (m, n) := by
  cases hrev : l.text.reverse with
  | nil => rfl
  | cons c rest =>
    have hc : c ∈ l.text := List.mem_reverse.mp (hrev ▸ List.mem_cons_self)
    obtain ⟨-, -, -, -, -, h2A, h40, h25⟩ := isLabelByte_ascii (l.isLabelByte_of_mem hc)
    simp only [stripModifiers, if_neg h40, if_neg h2A, if_neg h25]

/-- The printed modifiers, read from the last, set exactly their flags. -/
theorem stripModifiers_toString (m : PgLQueryVariantFlag) (rest : List UInt8) (n : Nat) :
    stripModifiers (m.toString.reverse ++ rest) .empty n = stripModifiers rest m (n - m.toString.length) := by
  obtain ⟨anyEnd, inCase, sublexeme⟩ := m
  cases anyEnd <;> cases inCase <;> cases sublexeme <;>
    simp [PgLQueryVariantFlag.toString, stripModifiers, PgLQueryVariantFlag.empty, Nat.sub_sub]

/-- Every variant reads back from its text. -/
theorem PgLQueryVariant.fromStr_toString (v : PgLQueryVariant) : PgLQueryVariant.fromStr v.toString = .ok v := by
  have hstrip : stripModifiers v.toString.reverse .empty v.toString.length = (v.modifiers, v.label.text.length) := by
    rw [PgLQueryVariant.toString, List.reverse_append, stripModifiers_toString, stripModifiers_label,
      List.length_append, Nat.add_sub_cancel]
  simp only [PgLQueryVariant.fromStr, hstrip]
  rw [PgLQueryVariant.toString, List.take_left' rfl, PgLTreeLabel.new_text]
  rfl

/-- A variant's text holds label bytes and modifiers only. -/
theorem PgLQueryVariant.mem_toString {v : PgLQueryVariant} {c : UInt8} (hc : c ∈ v.toString) :
    isLabelByte c = true ∨ c = 0x2A ∨ c = 0x40 ∨ c = 0x25 := by
  rcases List.mem_append.mp hc with hl | hm
  · exact .inl (v.label.isLabelByte_of_mem hl)
  · simp only [PgLQueryVariantFlag.toString, List.mem_append] at hm
    right
    rcases hm with (h | h) | h <;> split at h <;> simp_all

theorem PgLQueryVariant.ascii_of_mem_toString {v : PgLQueryVariant} {c : UInt8} (hc : c ∈ v.toString) :
    c < 0x80 ∧ c ≠ 0x2E ∧ c ≠ 0x7C ∧ c ≠ 0x21 := by
  rcases v.mem_toString hc with h | rfl | rfl | rfl
  · obtain ⟨h1, h2, h3, h4, -⟩ := isLabelByte_ascii h
    exact ⟨h1, h2, h3, h4⟩
  all_goals decide

/-- A variant's text is one piece of a split on `|`. -/
theorem parseVariants_toString (v : PgLQueryVariant) : parseVariants v.toString = .ok [v] := by
  have hbar : (0x7C : UInt8) ∉ v.toString := fun h => (v.ascii_of_mem_toString h).2.2.1 rfl
  rw [parseVariants, List.splitOn_eq_singleton hbar, List.mapM_cons, PgLQueryVariant.fromStr_toString]
  rfl

/-! ## The branches of the level parser -/

/-- A level `*` followed by more bytes is sliced between the second and the
last byte, and the slice split on `,`. -/
theorem PgLQueryLevel.fromStr_star_cons (c : UInt8) (rest : List UInt8) :
    (PgLQueryLevel.fromStr (0x2A :: c :: rest)).run =
      (Utf8.slice (0x2A :: c :: rest) 2 (rest.length + 1)).map fun inner => starBounds (inner.splitOn 0x2C) := by
  have hlen : (c :: rest).length + 1 - 1 = rest.length + 1 := by simp
  simp only [PgLQueryLevel.fromStr_cons, ↓reduceIte, if_pos (by simp : 1 < (c :: rest).length + 1), hlen]
  cases Utf8.slice (0x2A :: c :: rest) 2 (rest.length + 1) <;> rfl

/-- `*` and one more byte: the range `2..1` panics. -/
theorem PgLQueryLevel.fromStr_star_short (c : UInt8) : (PgLQueryLevel.fromStr [0x2A, c]).run = none := by
  rw [PgLQueryLevel.fromStr_star_cons, Utf8.slice_of_lt (by simp)]
  rfl

/-- A star between braces: the text between them, split on `,`. -/
theorem PgLQueryLevel.fromStr_braces {body : List UInt8} (h : ∀ c ∈ body, c < 0x80) :
    (PgLQueryLevel.fromStr ([0x2A, 0x7B] ++ body ++ [0x7D])).run = some (starBounds (body.splitOn 0x2C)) := by
  have hascii : ∀ c ∈ 0x2A :: 0x7B :: (body ++ [0x7D]), c < (0x80 : UInt8) := by
    intro c hc
    simp only [List.mem_cons, List.mem_append, List.mem_nil_iff, or_false] at hc
    rcases hc with rfl | rfl | hc | rfl
    · decide
    · decide
    · exact h c hc
    · decide
  have hslice : Utf8.slice (0x2A :: 0x7B :: (body ++ [0x7D])) 2 ((body ++ [0x7D]).length + 1) = some body := by
    rw [Utf8.slice_of_ascii hascii (by simp) (by simp)]
    simp
  rw [List.append_assoc, List.cons_append, List.cons_append, List.nil_append, PgLQueryLevel.fromStr_star_cons,
    hslice]
  rfl

theorem PgLQueryLevel.fromStr_not (rest : List UInt8) :
    (PgLQueryLevel.fromStr (0x21 :: rest)).run = some ((parseVariants rest).map .notNonStar) := by
  simp only [PgLQueryLevel.fromStr_cons, if_neg (by decide : (0x21 : UInt8) ≠ 0x2A), ↓reduceIte]
  cases parseVariants rest <;> rfl

theorem PgLQueryLevel.fromStr_plain {b : UInt8} (h2A : b ≠ 0x2A) (h21 : b ≠ 0x21) (rest : List UInt8) :
    (PgLQueryLevel.fromStr (b :: rest)).run = some ((parseVariants (b :: rest)).map .nonStar) := by
  simp only [PgLQueryLevel.fromStr_cons, if_neg h2A, if_neg h21]
  cases parseVariants (b :: rest) <;> rfl

/-! ## Levels read back -/

/-- Two ASCII texts make one. -/
theorem ascii_append {a b : List UInt8} (ha : ∀ c ∈ a, c < 0x80) (hb : ∀ c ∈ b, c < 0x80) :
    ∀ c ∈ a ++ b, c < 0x80 :=
  List.forall_mem_append.mpr ⟨ha, hb⟩

/-- Decimal digits are ASCII, and neither `,` nor `.`. -/
theorem decimalBytes_ascii {n : Nat} {c : UInt8} (hc : c ∈ decimalBytes n) : c < 0x80 ∧ c ≠ 0x2C ∧ c ≠ 0x2E := by
  have h := isAsciiDigit_of_mem_decimalBytes hc
  simp only [isAsciiDigit, decide_eq_true_eq, UInt8.le_iff_toNat_le, UInt8.reduceToNat] at h
  simp only [UInt8.lt_iff_toNat_lt, ne_eq, UInt8.ext_iff, UInt8.reduceToNat]
  omega

theorem comma_not_mem_decimalBytes (n : Nat) : (0x2C : UInt8) ∉ decimalBytes n :=
  fun h => (decimalBytes_ascii h).2.1 rfl

theorem dot_not_mem_decimalBytes (n : Nat) : (0x2E : UInt8) ∉ decimalBytes n :=
  fun h => (decimalBytes_ascii h).2.2 rfl

theorem parseU16_decimalBytes (n : UInt16) : parseU16 (decimalBytes n.toNat) = .ok n := by
  rw [parseU16, fromStrUnsigned_decimalBytes (UInt16.toNat_lt n)]
  simp [Except.map, Except.mapError]

/-- One bound reads back as both. -/
theorem starBounds_one (n : UInt16) :
    starBounds ((decimalBytes n.toNat).splitOn 0x2C) = .ok (.star (some n) (some n)) := by
  rw [List.splitOn_eq_singleton (comma_not_mem_decimalBytes _), starBounds_singleton, parseU16_decimalBytes]
  rfl

theorem starBounds_two (a b : UInt16) :
    starBounds ((decimalBytes a.toNat ++ 0x2C :: decimalBytes b.toNat).splitOn 0x2C) =
      .ok (.star (some a) (some b)) := by
  rw [List.splitOn_append_cons_self_of_not_mem (comma_not_mem_decimalBytes _),
    List.splitOn_eq_singleton (comma_not_mem_decimalBytes _), starBounds_pair, parseU16_decimalBytes,
    parseU16_decimalBytes]
  rfl

/-- A bound left out is an empty integer. -/
theorem starBounds_lower_only (a : UInt16) :
    starBounds ((decimalBytes a.toNat ++ [0x2C]).splitOn 0x2C) = .error (.parseIntError .empty) := by
  rw [List.splitOn_append_cons_self_of_not_mem (comma_not_mem_decimalBytes _), List.splitOn_nil, starBounds_pair,
    parseU16_decimalBytes]
  rfl

theorem starBounds_upper_only (b : UInt16) :
    starBounds ((0x2C :: decimalBytes b.toNat).splitOn 0x2C) = .error (.parseIntError .empty) := by
  rw [← List.nil_append (0x2C :: _), List.splitOn_append_cons_self_of_not_mem (List.not_mem_nil),
    List.splitOn_eq_singleton (comma_not_mem_decimalBytes _)]
  rfl

/-- The levels whose text reads back as themselves: a star with both bounds
or neither, a negated level of one variant, and a level of one variant whose
text is neither empty nor starts with `*`. -/
def PgLQueryLevel.ReadsBack : PgLQueryLevel → Prop
  | .star atLeast atMost => atLeast.isSome = atMost.isSome
  | .nonStar [variant] => variant.toString ≠ [] ∧ variant.toString.head? ≠ some 0x2A
  | .notNonStar [_] => True
  | _ => False

instance : DecidablePred PgLQueryLevel.ReadsBack := fun l =>
  match l with
  | .star _ _ => inferInstanceAs (Decidable (_ = _))
  | .nonStar [] => inferInstanceAs (Decidable False)
  | .nonStar [_] => inferInstanceAs (Decidable (_ ∧ _))
  | .nonStar (_ :: _ :: _) => inferInstanceAs (Decidable False)
  | .notNonStar [] => inferInstanceAs (Decidable False)
  | .notNonStar [_] => inferInstanceAs (Decidable True)
  | .notNonStar (_ :: _ :: _) => inferInstanceAs (Decidable False)

@[simp] theorem writeVariants_single (v : PgLQueryVariant) (not : Bool) :
    writeVariants [v] not = (if not then [0x21] else []) ++ v.toString := by
  simp [writeVariants_cons, writeDotted_cons]

/-- A level of one variant prints as the variant. -/
theorem PgLQueryLevel.toString_nonStar_single (v : PgLQueryVariant) :
    (PgLQueryLevel.nonStar [v]).toString = v.toString := by
  simp [PgLQueryLevel.toString_nonStar]

theorem PgLQueryLevel.toString_notNonStar_single (v : PgLQueryVariant) :
    (PgLQueryLevel.notNonStar [v]).toString = 0x21 :: v.toString := by
  simp [PgLQueryLevel.toString_notNonStar]

/-- Every level of `ReadsBack` reads back from its text. -/
theorem PgLQueryLevel.fromStr_toString {l : PgLQueryLevel} (h : l.ReadsBack) :
    (PgLQueryLevel.fromStr l.toString).run = some (.ok l) := by
  cases l with
  | star atLeast atMost =>
    rcases atLeast with _ | a <;> rcases atMost with _ | b
    · rfl
    · cases h
    · cases h
    · -- both bounds: one number when they agree, two otherwise
      have hascii : ∀ n : UInt16, ∀ c ∈ decimalBytes n.toNat, c < 0x80 := fun _ _ hc => (decimalBytes_ascii hc).1
      by_cases hab : a = b
      · subst hab
        simp only [PgLQueryLevel.toString_star_both, ↓reduceIte]
        rw [PgLQueryLevel.fromStr_braces (hascii a), starBounds_one]
      · have htext : (PgLQueryLevel.star (some a) (some b)).toString =
            [0x2A, 0x7B] ++ (decimalBytes a.toNat ++ 0x2C :: decimalBytes b.toNat) ++ [0x7D] := by
          simp [PgLQueryLevel.toString_star_both, hab]
        have hbody : ∀ c ∈ decimalBytes a.toNat ++ 0x2C :: decimalBytes b.toNat, c < 0x80 := by
          intro c hc
          rcases List.mem_append.mp hc with hc | hc
          · exact hascii a c hc
          · rcases List.mem_cons.mp hc with rfl | hc
            · decide
            · exact hascii b c hc
        rw [htext, PgLQueryLevel.fromStr_braces hbody, starBounds_two]
  | nonStar variants =>
    rcases variants with _ | ⟨v, _ | ⟨w, vs⟩⟩
    · exact (h : False).elim
    · obtain ⟨hne, hhead⟩ := h
      obtain ⟨b, rest, hv⟩ := List.exists_cons_of_ne_nil hne
      have hb := v.ascii_of_mem_toString (hv ▸ List.mem_cons_self : b ∈ v.toString)
      have h2A : b ≠ 0x2A := fun hb' => hhead (by rw [hv, hb']; rfl)
      rw [PgLQueryLevel.toString_nonStar_single, hv, PgLQueryLevel.fromStr_plain h2A hb.2.2.2, ← hv,
        parseVariants_toString]
      rfl
    · exact (h : False).elim
  | notNonStar variants =>
    rcases variants with _ | ⟨v, _ | ⟨w, vs⟩⟩
    · exact (h : False).elim
    · rw [PgLQueryLevel.toString_notNonStar_single, PgLQueryLevel.fromStr_not, parseVariants_toString]
      rfl
    · exact (h : False).elim

/-- The text of a level of `ReadsBack` holds no `.`. -/
theorem PgLQueryLevel.dot_not_mem_toString {l : PgLQueryLevel} (h : l.ReadsBack) : (0x2E : UInt8) ∉ l.toString := by
  cases l with
  | star atLeast atMost =>
    rcases atLeast with _ | a <;> rcases atMost with _ | b <;>
      simp only [PgLQueryLevel.toString_star_none, PgLQueryLevel.toString_star_upper, PgLQueryLevel.toString_star_lower,
        PgLQueryLevel.toString_star_both] <;> (try split) <;> simp [dot_not_mem_decimalBytes]
  | nonStar variants =>
    rcases variants with _ | ⟨v, _ | ⟨w, vs⟩⟩
    · exact (h : False).elim
    · rw [PgLQueryLevel.toString_nonStar_single]
      exact fun hv => (v.ascii_of_mem_toString hv).2.1 rfl
    · exact (h : False).elim
  | notNonStar variants =>
    rcases variants with _ | ⟨v, _ | ⟨w, vs⟩⟩
    · exact (h : False).elim
    · rw [PgLQueryLevel.toString_notNonStar_single, List.mem_cons, not_or]
      exact ⟨by decide, fun hv => (v.ascii_of_mem_toString hv).2.1 rfl⟩
    · exact (h : False).elim

theorem mapM_fromStr_toString {levels : List PgLQueryLevel} (h : ∀ l ∈ levels, l.ReadsBack) :
    (levels.map PgLQueryLevel.toString).mapM PgLQueryLevel.fromStr = pure levels := by
  induction levels with
  | nil => rfl
  | cons l levels ih =>
    have hl : PgLQueryLevel.fromStr l.toString = pure l := PgLQueryLevel.fromStr_toString (h l List.mem_cons_self)
    simp [hl, ih fun x hx => h x (List.mem_cons_of_mem l hx)]

/-- An `lquery` of at least one level, every level of `ReadsBack`, reads back. -/
theorem PgLQuery.fromStr_toString {q : PgLQuery} (hne : q.levels ≠ []) (h : ∀ l ∈ q.levels, l.ReadsBack) :
    (PgLQuery.fromStr q.toString).run = some (.ok q) := by
  have hsplit : q.toString.splitOn 0x2E = q.levels.map PgLQueryLevel.toString :=
    splitOn_writeDotted (by simpa using hne) (by simpa using fun l hl => PgLQueryLevel.dot_not_mem_toString (h l hl))
  rw [PgLQuery.fromStr, hsplit, mapM_fromStr_toString h]
  rfl

/-! ## What does not read back -/

/-- The text of an `lquery` of one level is that level's text. -/
theorem PgLQuery.toString_single (l : PgLQueryLevel) : (⟨[l]⟩ : PgLQuery).toString = l.toString := by
  simp [PgLQuery.toString_mk, writeDotted_cons]

/-- One level whose text holds no `.` is read as that level alone. -/
theorem PgLQuery.fromStr_single {s : List UInt8} (hdot : (0x2E : UInt8) ∉ s) :
    (PgLQuery.fromStr s).run = (PgLQueryLevel.fromStr s).run.map (Except.map fun l => ⟨[l]⟩) := by
  rw [PgLQuery.fromStr, List.splitOn_eq_singleton hdot, List.mapM_cons, List.mapM_nil]
  generalize PgLQueryLevel.fromStr s = r
  rcases r with _ | _ | l <;> rfl

/-- A star with only its lower bound prints as `*{n,}`, and the empty upper
bound is an integer error. -/
theorem PgLQueryLevel.fromStr_atLeast (n : UInt16) :
    (PgLQueryLevel.fromStr (PgLQueryLevel.star (some n) none).toString).run =
      some (.error (.parseIntError .empty)) := by
  have htext : (PgLQueryLevel.star (some n) none).toString = [0x2A, 0x7B] ++ (decimalBytes n.toNat ++ [0x2C]) ++ [0x7D] := by
    simp [PgLQueryLevel.toString_star_lower]
  have hbody : ∀ c ∈ decimalBytes n.toNat ++ [0x2C], c < (0x80 : UInt8) :=
    ascii_append (fun _ hc => (decimalBytes_ascii hc).1) (by simp)
  rw [htext, PgLQueryLevel.fromStr_braces hbody, starBounds_lower_only]

/-- A star with only its upper bound prints as `*{,m}`, and the empty lower
bound is an integer error. -/
theorem PgLQueryLevel.fromStr_atMost (n : UInt16) :
    (PgLQueryLevel.fromStr (PgLQueryLevel.star none (some n)).toString).run =
      some (.error (.parseIntError .empty)) := by
  have htext : (PgLQueryLevel.star none (some n)).toString = [0x2A, 0x7B] ++ (0x2C :: decimalBytes n.toNat) ++ [0x7D] := by
    simp [PgLQueryLevel.toString_star_upper]
  have hbody : ∀ c ∈ 0x2C :: decimalBytes n.toNat, c < (0x80 : UInt8) :=
    List.forall_mem_cons.mpr ⟨by decide, fun _ hc => (decimalBytes_ascii hc).1⟩
  rw [htext, PgLQueryLevel.fromStr_braces hbody, starBounds_upper_only]

/-- An `lquery` of that one level is refused with it. -/
theorem PgLQuery.fromStr_atLeast (n : UInt16) :
    (PgLQuery.fromStr (⟨[.star (some n) none]⟩ : PgLQuery).toString).run = some (.error (.parseIntError .empty)) := by
  have hdot : (0x2E : UInt8) ∉ (PgLQueryLevel.star (some n) none).toString := by
    simp [PgLQueryLevel.toString_star_lower, dot_not_mem_decimalBytes]
  rw [PgLQuery.toString_single, PgLQuery.fromStr_single hdot, PgLQueryLevel.fromStr_atLeast]
  rfl

theorem PgLQuery.fromStr_atMost (n : UInt16) :
    (PgLQuery.fromStr (⟨[.star none (some n)]⟩ : PgLQuery).toString).run = some (.error (.parseIntError .empty)) := by
  have hdot : (0x2E : UInt8) ∉ (PgLQueryLevel.star none (some n)).toString := by
    simp [PgLQueryLevel.toString_star_upper, dot_not_mem_decimalBytes]
  rw [PgLQuery.toString_single, PgLQuery.fromStr_single hdot, PgLQueryLevel.fromStr_atMost]
  rfl

/-- A variant of an empty label with `*` and one of `@`, `%` prints as two
bytes starting with `*`, on which the parser panics. -/
theorem PgLQuery.fromStr_empty_label_any_end {inCase sublexeme : Bool} (h : inCase ≠ sublexeme) :
    (PgLQuery.fromStr (⟨[.nonStar [⟨default, ⟨true, inCase, sublexeme⟩⟩]]⟩ : PgLQuery).toString).run = none := by
  cases inCase <;> cases sublexeme
  · exact absurd rfl h
  · rw [show (⟨[.nonStar [⟨default, ⟨true, false, true⟩⟩]]⟩ : PgLQuery).toString = [0x2A, 0x25] from rfl,
      PgLQuery.fromStr_single (by decide), PgLQueryLevel.fromStr_star_short]
    rfl
  · rw [show (⟨[.nonStar [⟨default, ⟨true, true, false⟩⟩]]⟩ : PgLQuery).toString = [0x2A, 0x40] from rfl,
      PgLQuery.fromStr_single (by decide), PgLQueryLevel.fromStr_star_short]
    rfl
  · exact absurd rfl h

/-- Several variants are joined by `.`, so they print as that many levels of
one variant each; a `!` stays on the first. -/
theorem PgLQuery.toString_nonStar (v : PgLQueryVariant) (vs : List PgLQueryVariant) :
    (⟨[.nonStar (v :: vs)]⟩ : PgLQuery).toString = (⟨(v :: vs).map fun w => .nonStar [w]⟩ : PgLQuery).toString := by
  simp [PgLQuery.toString_mk, PgLQueryLevel.toString_nonStar, writeVariants_cons, writeDotted_cons, Function.comp_def]

theorem PgLQuery.toString_notNonStar (v : PgLQueryVariant) (vs : List PgLQueryVariant) :
    (⟨[.notNonStar (v :: vs)]⟩ : PgLQuery).toString =
      (⟨.notNonStar [v] :: vs.map fun w => .nonStar [w]⟩ : PgLQuery).toString := by
  simp [PgLQuery.toString_mk, PgLQueryLevel.toString_nonStar, PgLQueryLevel.toString_notNonStar, writeVariants_cons,
    writeDotted_cons, Function.comp_def]

/-- The empty `lquery` prints as the empty text, an empty level. -/
theorem PgLQuery.fromStr_toString_new :
    (PgLQuery.fromStr PgLQuery.new.toString).run = some (.error .emptyString) := by
  decide

/-! ## The wire format -/

theorem writeDotted_ascii {xs : List (List UInt8)} (h : ∀ x ∈ xs, ∀ c ∈ x, c < 0x80) :
    ∀ c ∈ writeDotted xs, c < 0x80 := by
  intro c hc
  cases xs with
  | nil => cases hc
  | cons x xs =>
    simp only [writeDotted_cons, List.mem_append, List.mem_flatMap, List.mem_cons] at hc
    rcases hc with hc | ⟨y, hy, rfl | hc⟩
    · exact h x List.mem_cons_self c hc
    · decide
    · exact h y (List.mem_cons_of_mem x hy) c hc

theorem writeVariants_ascii (variants : List PgLQueryVariant) (not : Bool) :
    ∀ c ∈ writeVariants variants not, c < 0x80 := by
  intro c hc
  cases variants with
  | nil => cases hc
  | cons v vs =>
    rcases List.mem_append.mp hc with hc | hc
    · split at hc
      · rw [List.mem_singleton.mp hc]
        decide
      · cases hc
    · refine writeDotted_ascii (fun x hx c hc => ?_) c hc
      obtain ⟨w, -, rfl⟩ := List.mem_map.mp hx
      exact (w.ascii_of_mem_toString hc).1

/-- Every level prints in ASCII. -/
theorem PgLQueryLevel.toString_ascii (l : PgLQueryLevel) : ∀ c ∈ l.toString, c < 0x80 := by
  have hdigits : ∀ n : Nat, ∀ c ∈ decimalBytes n, c < 0x80 := fun _ _ hc => (decimalBytes_ascii hc).1
  cases l with
  | star atLeast atMost =>
    -- the braces, the comma and `*` are ASCII, and so are the digits
    rcases atLeast with _ | a <;> rcases atMost with _ | b <;>
      simp only [PgLQueryLevel.toString_star_none, PgLQueryLevel.toString_star_upper, PgLQueryLevel.toString_star_lower,
        PgLQueryLevel.toString_star_both]
    · simp
    · exact ascii_append (ascii_append (by simp) (hdigits _)) (by simp)
    · exact ascii_append (ascii_append (by simp) (hdigits _)) (by simp)
    · split
      · exact ascii_append (ascii_append (by simp) (hdigits _)) (by simp)
      · exact ascii_append (ascii_append (ascii_append (ascii_append (by simp) (hdigits _)) (by simp))
          (hdigits _)) (by simp)
  | nonStar variants => exact writeVariants_ascii variants false
  | notNonStar variants => exact writeVariants_ascii variants true

theorem PgLQuery.toString_ascii (q : PgLQuery) : ∀ c ∈ q.toString, c < 0x80 :=
  writeDotted_ascii (by simpa using fun l _ => l.toString_ascii)

theorem PgLTree.toString_ascii (t : PgLTree) : ∀ c ∈ t.toString, c < 0x80 :=
  writeDotted_ascii (by simpa using fun l _ c hc => l.ascii_of_mem hc)

/-- `encode_by_ref` writes the version byte and the text. -/
theorem encodeVersioned_output (text : List UInt8) :
    (encodeVersioned text).output = .ok (.no, ⟨1 :: text, [], []⟩) := by
  simp [encodeVersioned, Encoder.output, Written.empty]

/-- The binary path on a payload `b :: rest`: the version check, then the text. -/
theorem decodeVersioned_binary_cons {α ε : Type} (message : ε → String) (invalidVersion : ε)
    (fromStr : List UInt8 → ExceptT ε Option α) (b : UInt8) (rest : List UInt8) :
    (decodeVersioned message invalidVersion fromStr .binary (some (b :: rest))).run =
      if b ≠ 1 then some (.error (message invalidVersion))
      else ((monadLift (Utf8.fromUtf8 rest) : DecodeM (List UInt8)) >>= fun s => (fromStr s).adapt message).run := by
  simp only [decodeVersioned, asBytes, panicking_some, pure_bind, List.head?_cons, List.drop_succ_cons,
    List.drop_zero]
  split <;> rfl

/-- Past a version byte `1`, the binary decoder is the text parser. -/
theorem decodeVersioned_encoded {α ε : Type} (message : ε → String) (invalidVersion : ε)
    (fromStr : List UInt8 → ExceptT ε Option α) {text : List UInt8} (h : Utf8.valid text = true) :
    (decodeVersioned message invalidVersion fromStr .binary (some (1 :: text))).run =
      ((fromStr text).adapt message).run := by
  rw [decodeVersioned_binary_cons, if_neg (not_not_intro rfl), Utf8.fromUtf8_of_valid h]
  rfl

/-- `bytes[0]` of an empty payload panics. -/
theorem decodeVersioned_binary_nil {α ε : Type} (message : ε → String) (invalidVersion : ε)
    (fromStr : List UInt8 → ExceptT ε Option α) :
    (decodeVersioned message invalidVersion fromStr .binary (some [])).run = none := rfl

/-- The binary `ltree` decoder panics exactly on an empty payload. -/
theorem PgLTree.decode_binary_eq_none_iff (bytes : List UInt8) :
    (PgLTree.decode .binary (some bytes)).run = none ↔ bytes = [] := by
  cases bytes with
  | nil => exact iff_of_true rfl rfl
  | cons b rest =>
    refine iff_of_false ?_ (List.cons_ne_nil b rest)
    rw [PgLTree.decode, decodeVersioned_binary_cons]
    split
    · exact Option.some_ne_none _
    · -- past the version byte only an `Err` can come
      cases Utf8.fromUtf8 rest with
      | error e => exact Option.some_ne_none _
      | ok s => cases PgLTree.fromStr s <;> exact Option.some_ne_none _

/-! ## Exactly the levels of `ReadsBack` read back -/

/-- A split of pieces joined by `.` is the pieces' own splits, in a row. -/
theorem splitOn_writeDotted_eq_flatMap : ∀ {xs : List (List UInt8)}, xs ≠ [] →
    (writeDotted xs).splitOn 0x2E = xs.flatMap (·.splitOn 0x2E)
  | [], h => absurd rfl h
  | [x], _ => by simp [writeDotted_cons]
  | x :: y :: xs, _ => by
    have hjoin : writeDotted (x :: y :: xs) = x ++ 0x2E :: writeDotted (y :: xs) := by
      rw [writeDotted_eq_intercalate, writeDotted_eq_intercalate, List.intercalate_cons_cons, List.append_assoc,
        List.singleton_append]
    rw [hjoin, List.splitOn_append_cons_self, splitOn_writeDotted_eq_flatMap (List.cons_ne_nil y xs)]
    simp only [List.flatMap_cons]

/-- A text is one piece of a split on `.` only if it holds no `.`. -/
theorem dot_not_mem_of_length_splitOn {l : List UInt8} (h : (l.splitOn 0x2E).length = 1) :
    (0x2E : UInt8) ∉ l := by
  intro hmem
  obtain ⟨xs, ys, rfl⟩ := List.append_of_mem hmem
  rw [List.splitOn_append_cons_self, List.length_append] at h
  have hxs := List.length_pos_iff.mpr (List.splitOn_ne_nil (0x2E : UInt8) xs)
  have hys := List.length_pos_iff.mpr (List.splitOn_ne_nil (0x2E : UInt8) ys)
  omega

section Pieces

variable {α β : Type} {f : α → List β}

theorem length_le_length_flatMap (hf : ∀ x, f x ≠ []) (xs : List α) : xs.length ≤ (xs.flatMap f).length := by
  induction xs with
  | nil => simp
  | cons x xs ih =>
    have hx := List.length_pos_iff.mpr (hf x)
    simp only [List.flatMap_cons, List.length_append, List.length_cons]
    omega

/-- Nonempty pieces, as many as the list: each is a single one. -/
theorem length_eq_one_of_length_flatMap (hf : ∀ x, f x ≠ []) :
    ∀ {xs : List α}, (xs.flatMap f).length = xs.length → ∀ x ∈ xs, (f x).length = 1
  | [], _ => by simp
  | x :: xs, h => by
    have hx := List.length_pos_iff.mpr (hf x)
    have hle := length_le_length_flatMap hf xs
    simp only [List.flatMap_cons, List.length_append, List.length_cons] at h
    intro y hy
    rcases List.mem_cons.mp hy with rfl | hy
    · omega
    · exact length_eq_one_of_length_flatMap hf (by omega) y hy

end Pieces

section Parsers

variable {α β ε : Type}

/-- A parse that succeeded, then a pure step: the parse gave the value the step took. -/
theorem run_bind_pure_eq_ok {x : ExceptT ε Option α} {g : α → β} {b : β}
    (h : (x >>= fun a => pure (g a)).run = some (.ok b)) : ∃ a, x.run = some (.ok a) ∧ g a = b := by
  revert h
  generalize x = r
  rcases r with _ | _ | a
  · intro h
    cases h
  · intro h
    cases h
  · intro h
    cases h
    exact ⟨a, rfl, rfl⟩

/-- Rewording the error leaves a value as it is. -/
theorem run_adapt_of_ok {ε' : Type} {x : ExceptT ε Option α} {f : ε → ε'} {a : α} (h : x.run = some (.ok a)) :
    (x.adapt f).run = some (.ok a) := by
  revert h
  generalize x = r
  rcases r with _ | _ | a <;> intro h <;> cases h
  rfl

/-- A `mapM` of parsers that succeeded: each one succeeded, in order. -/
theorem forall₂_of_mapM {f : α → ExceptT ε Option β} :
    ∀ {xs : List α} {ys : List β}, (xs.mapM f).run = some (.ok ys) →
      List.Forall₂ (fun x y => (f x).run = some (.ok y)) xs ys
  | [], ys, h => by
    cases ys with
    | nil => exact .nil
    | cons y ys => cases h
  | x :: xs, ys, h => by
    rw [List.mapM_cons] at h
    revert h
    generalize hfx : f x = r
    rcases r with _ | _ | y
    · intro h
      cases h
    · intro h
      cases h
    · intro h
      obtain ⟨ys', hys', rfl⟩ := run_bind_pure_eq_ok (g := fun ys => y :: ys) h
      exact .cons (by rw [hfx]; rfl) (forall₂_of_mapM hys')

end Parsers

/-- The bounds of a star are all `starBounds` gives. -/
theorem starBounds_eq_star {parts : List (List UInt8)} {l : PgLQueryLevel} (h : starBounds parts = .ok l) :
    ∃ atLeast atMost, l = .star atLeast atMost := by
  unfold starBounds at h
  split at h
  · next number =>
    cases hn : parseU16 number with
    | error e =>
      rw [hn] at h
      cases h
    | ok n =>
      rw [hn] at h
      cases h
      exact ⟨_, _, rfl⟩
  · next atLeast atMost =>
    cases ha : parseU16 atLeast with
    | error e =>
      rw [ha] at h
      cases h
    | ok a =>
      cases hb : parseU16 atMost with
      | error e =>
        rw [ha, hb] at h
        cases h
      | ok b =>
        rw [ha, hb] at h
        cases h
        exact ⟨_, _, rfl⟩
  · cases h

/-- A level that starts with `*` is read as a star, if at all. -/
theorem PgLQueryLevel.eq_star_of_fromStr {rest : List UInt8} {l : PgLQueryLevel}
    (h : (PgLQueryLevel.fromStr (0x2A :: rest)).run = some (.ok l)) : ∃ atLeast atMost, l = .star atLeast atMost := by
  cases rest with
  | nil =>
    cases h
    exact ⟨none, none, rfl⟩
  | cons c rest =>
    rw [PgLQueryLevel.fromStr_star_cons] at h
    obtain ⟨inner, -, hinner⟩ := Option.map_eq_some_iff.mp h
    exact starBounds_eq_star hinner

/-- `write_variants` of two or more variants holds the `.` between them. -/
theorem dot_mem_writeVariants (v w : PgLQueryVariant) (vs : List PgLQueryVariant) (not : Bool) :
    (0x2E : UInt8) ∈ writeVariants (v :: w :: vs) not := by
  simp [writeVariants_cons, writeDotted_cons]

/-- A level whose text holds no `.` and reads back as itself is of `ReadsBack`. -/
theorem PgLQueryLevel.readsBack_of_fromStr {l : PgLQueryLevel} (hdot : (0x2E : UInt8) ∉ l.toString)
    (h : (PgLQueryLevel.fromStr l.toString).run = some (.ok l)) : l.ReadsBack := by
  cases l with
  | star atLeast atMost =>
    rcases atLeast with _ | a <;> rcases atMost with _ | b
    · rfl
    · rw [PgLQueryLevel.fromStr_atMost] at h
      cases h
    · rw [PgLQueryLevel.fromStr_atLeast] at h
      cases h
    · rfl
  | nonStar variants =>
    rcases variants with _ | ⟨v, _ | ⟨w, vs⟩⟩
    · cases h
    · rw [PgLQueryLevel.toString_nonStar_single] at h
      refine ⟨fun hnil => ?_, fun hhead => ?_⟩
      · rw [hnil] at h
        cases h
      · -- a text that starts with `*` is read as a star
        obtain ⟨rest, hv⟩ := List.head?_eq_some_iff.mp hhead
        rw [hv] at h
        obtain ⟨a, b, hab⟩ := PgLQueryLevel.eq_star_of_fromStr h
        cases hab
    · exact absurd (dot_mem_writeVariants v w vs false) hdot
  | notNonStar variants =>
    rcases variants with _ | ⟨v, _ | ⟨w, vs⟩⟩
    · cases h
    · trivial
    · exact absurd (dot_mem_writeVariants v w vs true) hdot

/-- **Exactly the `lquery`s of at least one level, each of `ReadsBack`, read
back.** A level that holds a `.` (two or more variants) is split, so the
count of levels read is off; any other level must read back on its own. -/
theorem PgLQuery.fromStr_toString_iff (q : PgLQuery) :
    (PgLQuery.fromStr q.toString).run = some (.ok q) ↔ q.levels ≠ [] ∧ ∀ l ∈ q.levels, l.ReadsBack := by
  refine ⟨fun h => ?_, fun ⟨hne, hall⟩ => PgLQuery.fromStr_toString hne hall⟩
  obtain ⟨levels⟩ := q
  have hne : levels ≠ [] := by
    rintro rfl
    rw [show (⟨[]⟩ : PgLQuery) = PgLQuery.new from rfl, PgLQuery.fromStr_toString_new] at h
    cases h
  refine ⟨hne, ?_⟩
  -- the pieces of the split are parsed one level each
  obtain ⟨parsed, hmap, hlevels⟩ := run_bind_pure_eq_ok (g := PgLQuery.mk) h
  cases hlevels
  have hpieces := forall₂_of_mapM hmap
  have hsplit : (⟨levels⟩ : PgLQuery).toString.splitOn 0x2E =
      (levels.map PgLQueryLevel.toString).flatMap (·.splitOn 0x2E) :=
    splitOn_writeDotted_eq_flatMap (by simpa using hne)
  -- as many pieces as levels: no level's text holds a `.`
  have hlen : ((levels.map PgLQueryLevel.toString).flatMap (·.splitOn 0x2E)).length =
      (levels.map PgLQueryLevel.toString).length := by
    rw [← hsplit, hpieces.length_eq, List.length_map]
  have hdots : ∀ l ∈ levels, (0x2E : UInt8) ∉ l.toString := fun l hl =>
    dot_not_mem_of_length_splitOn
      (length_eq_one_of_length_flatMap (fun t => List.splitOn_ne_nil _ t) hlen _ (List.mem_map_of_mem hl))
  have hsame : (⟨levels⟩ : PgLQuery).toString.splitOn 0x2E = levels.map PgLQueryLevel.toString :=
    splitOn_writeDotted (by simpa using hne) (by simpa using hdots)
  rw [hsame, List.forall₂_map_left_iff, List.forall₂_same] at hpieces
  exact fun l hl => PgLQueryLevel.readsBack_of_fromStr (hdots l hl) (hpieces l hl)

/-! ## The binary round trips -/

/-- The binary `lquery` decoder of what the encoder wrote is the text parser. -/
theorem PgLQuery.decode_of_encodeByRef (q : PgLQuery) :
    (PgLQuery.encodeByRef q).output = .ok (.no, ⟨1 :: q.toString, [], []⟩) ∧
      (PgLQuery.decode .binary (some (1 :: q.toString))).run =
        ((PgLQuery.fromStr q.toString).adapt PgLQueryParseError.message).run :=
  ⟨encodeVersioned_output _, decodeVersioned_encoded _ _ _ (Utf8.valid_of_ascii (PgLQuery.toString_ascii q))⟩

/-- A tree of at least one label reads back from what the encoder wrote. -/
theorem PgLTree.decode_of_encodeByRef {t : PgLTree} (h : t.labels ≠ []) :
    (PgLTree.encodeByRef t).output = .ok (.no, ⟨1 :: t.toString, [], []⟩) ∧
      (PgLTree.decode .binary (some (1 :: t.toString))).run = some (.ok t) := by
  refine ⟨encodeVersioned_output _, ?_⟩
  rw [PgLTree.decode, decodeVersioned_encoded _ _ _ (Utf8.valid_of_ascii (PgLTree.toString_ascii t))]
  exact run_adapt_of_ok (by rw [PgLTree.fromStr_toString h]; rfl)

/-- The text and binary formats of `ltree` and `lquery` against their parsers:
an `lquery` reads back exactly when it has a level and every level is of
`ReadsBack`, and the binary decoder of what `encode_by_ref` wrote is the text
parser; a tree reads back exactly when it has a label. The empty tree comes
back as one empty label, the empty `lquery` is refused, a star with one bound
is an integer error, the variants of a level come back as levels of their own
(the `!` on the first only), a variant of an empty label with `*` and one
more modifier panics, and so does `bytes[0]` of an empty payload. -/
theorem ltree_lquery_round_trips_fail_and_decode_panics :
    (∀ q : PgLQuery, (PgLQuery.fromStr q.toString).run = some (.ok q) ↔
      q.levels ≠ [] ∧ ∀ l ∈ q.levels, l.ReadsBack) ∧
    (∀ q : PgLQuery, (PgLQuery.encodeByRef q).output = .ok (.no, ⟨1 :: q.toString, [], []⟩) ∧
      (PgLQuery.decode .binary (some (1 :: q.toString))).run =
        ((PgLQuery.fromStr q.toString).adapt PgLQueryParseError.message).run) ∧
    (∀ t : PgLTree, PgLTree.fromStr t.toString = .ok t ↔ t.labels ≠ []) ∧
    (∀ t : PgLTree, t.labels ≠ [] →
      (PgLTree.encodeByRef t).output = .ok (.no, ⟨1 :: t.toString, [], []⟩) ∧
        (PgLTree.decode .binary (some (1 :: t.toString))).run = some (.ok t)) ∧
    PgLTree.fromStr PgLTree.new.toString = .ok ⟨[default]⟩ ∧
    (PgLQuery.fromStr PgLQuery.new.toString).run = some (.error .emptyString) ∧
    (∀ n : UInt16,
      (PgLQuery.fromStr (⟨[.star (some n) none]⟩ : PgLQuery).toString).run = some (.error (.parseIntError .empty)) ∧
        (PgLQuery.fromStr (⟨[.star none (some n)]⟩ : PgLQuery).toString).run = some (.error (.parseIntError .empty))) ∧
    (∀ (v : PgLQueryVariant) (vs : List PgLQueryVariant), (∀ w ∈ v :: vs, (PgLQueryLevel.nonStar [w]).ReadsBack) →
      (PgLQuery.fromStr (⟨[.nonStar (v :: vs)]⟩ : PgLQuery).toString).run =
          some (.ok ⟨(v :: vs).map fun w => .nonStar [w]⟩) ∧
        (PgLQuery.fromStr (⟨[.notNonStar (v :: vs)]⟩ : PgLQuery).toString).run =
          some (.ok ⟨.notNonStar [v] :: vs.map fun w => .nonStar [w]⟩)) ∧
    (∀ inCase sublexeme : Bool, inCase ≠ sublexeme →
      (PgLQuery.decode .binary
        (some (1 :: (⟨[.nonStar [⟨default, ⟨true, inCase, sublexeme⟩⟩]]⟩ : PgLQuery).toString))).run = none) ∧
    (PgLQuery.decode .binary (some [])).run = none ∧
    (∀ bytes : List UInt8, (PgLTree.decode .binary (some bytes)).run = none ↔ bytes = []) := by
  refine ⟨PgLQuery.fromStr_toString_iff, PgLQuery.decode_of_encodeByRef, PgLTree.fromStr_toString_iff,
    fun t h => PgLTree.decode_of_encodeByRef h, PgLTree.fromStr_toString_new, PgLQuery.fromStr_toString_new,
    fun n => ⟨PgLQuery.fromStr_atLeast n, PgLQuery.fromStr_atMost n⟩, fun v vs h => ⟨?_, ?_⟩,
    fun inCase sublexeme h => ?_, decodeVersioned_binary_nil _ _ _, PgLTree.decode_binary_eq_none_iff⟩
  · -- every variant comes back as a level of its own
    rw [PgLQuery.toString_nonStar]
    exact PgLQuery.fromStr_toString (by simp) (by simpa using h)
  · rw [PgLQuery.toString_notNonStar]
    refine PgLQuery.fromStr_toString (by simp) ?_
    simp only [List.mem_cons, List.mem_map, forall_eq_or_imp, forall_exists_index, and_imp,
      forall_apply_eq_imp_iff₂]
    exact ⟨trivial, fun w hw => h w (List.mem_cons_of_mem v hw)⟩
  · rw [(PgLQuery.decode_of_encodeByRef _).2]
    exact congrArg (Option.map _) (PgLQuery.fromStr_empty_label_any_end h)

/-- Two variants `a|b` of one level come back as two levels, a tree of one
label reads back from its binary form, and `*@` panics the decoder. -/
theorem lquery_of_two_variants :
    (PgLQuery.fromStr (⟨[.nonStar [⟨⟨[0x61], rfl⟩, .empty⟩, ⟨⟨[0x62], rfl⟩, .empty⟩]]⟩ : PgLQuery).toString).run =
        some (.ok ⟨[.nonStar [⟨⟨[0x61], rfl⟩, .empty⟩], .nonStar [⟨⟨[0x62], rfl⟩, .empty⟩]]⟩) ∧
      (PgLTree.decode .binary (some (1 :: (⟨[⟨[0x61], rfl⟩]⟩ : PgLTree).toString))).run =
        some (.ok ⟨[⟨[0x61], rfl⟩]⟩) ∧
      (PgLQuery.decode .binary
        (some (1 :: (⟨[.nonStar [⟨default, ⟨true, true, false⟩⟩]]⟩ : PgLQuery).toString))).run = none := by
  have h := ltree_lquery_round_trips_fail_and_decode_panics
  have hreads : ∀ w ∈ [(⟨⟨[0x61], rfl⟩, .empty⟩ : PgLQueryVariant), ⟨⟨[0x62], rfl⟩, .empty⟩],
      (PgLQueryLevel.nonStar [w]).ReadsBack := by
    simp [PgLQueryLevel.ReadsBack, PgLQueryVariant.toString, PgLQueryVariantFlag.toString,
      PgLQueryVariantFlag.empty]
  exact ⟨(h.2.2.2.2.2.2.2.1 _ _ hreads).1, (h.2.2.2.1 _ (List.cons_ne_nil _ _)).2,
    h.2.2.2.2.2.2.2.2.1 true false (by decide)⟩

end Sqlx.Postgres
