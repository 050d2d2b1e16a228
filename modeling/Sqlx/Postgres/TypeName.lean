import Sqlx.Lib.Ascii
import Mathlib.Data.List.Infix

/-!
# Postgres — matching type names (`type_info.rs`)

A type the driver has not resolved to an OID is matched by name. `name_eq`
walks the significant characters of both names, as `identifier_chars`
gives them: a lone double quote is dropped and flips `case_sensitive` for
what follows it, a doubled one stands for one quote. Two characters match
exactly when either is quoted, and up to ASCII case when neither is.

Postgres folds an unquoted identifier to lower case and keeps a quoted one
as it stands (`NamePart.normalize`). `name_eq` does not: an upper-case
letter outside quotes never matches the same lower-case letter inside them,
so `FOO` does not match `"foo"`, although `FOO` matches `foo` and `foo`
matches `"foo"`. And its loop calls `next()` on both sides before it looks
at the pair, so when one name runs out the other has already given up one
more character: a name matches itself with one more character at the end
(`name_eq_breaks_identifier_rules`).
-/

namespace Sqlx.Postgres

/-- `IdentifierChar`: a significant character, and whether it stands in
quotes. -/
structure IdentifierChar where
  ch : Char
  caseSensitive : Bool
  deriving DecidableEq, Repr

/-- `IdentifierChar::eq`: exact when either side is quoted, up to ASCII case
otherwise. -/
def IdentifierChar.eq (self other : IdentifierChar) : Bool :=
  if self.caseSensitive || other.caseSensitive then self.ch == other.ch
  else self.ch.toLower == other.ch.toLower

/-- The `filter_map` of `identifier_chars` from the state
`(case_sensitive, last_char_quote)`. -/
def identifierCharsFrom (caseSensitive lastCharQuote : Bool) : List Char → List IdentifierChar
  | [] => []
  | ch :: rest =>
    if ch = '"' then
      if lastCharQuote then ⟨ch, caseSensitive⟩ :: identifierCharsFrom caseSensitive false rest
      else identifierCharsFrom caseSensitive true rest
    else if lastCharQuote then ⟨ch, !caseSensitive⟩ :: identifierCharsFrom (!caseSensitive) false rest
    else ⟨ch, caseSensitive⟩ :: identifierCharsFrom caseSensitive false rest

/-- One character of the identifier; the lemmas below unfold
`identifierCharsFrom` through this one. -/
theorem identifierCharsFrom_cons (caseSensitive lastCharQuote : Bool) (ch : Char) (rest : List Char) :
    identifierCharsFrom caseSensitive lastCharQuote (ch :: rest) =
      if ch = '"' then
        if lastCharQuote then ⟨ch, caseSensitive⟩ :: identifierCharsFrom caseSensitive false rest
        else identifierCharsFrom caseSensitive true rest
      else if lastCharQuote then ⟨ch, !caseSensitive⟩ :: identifierCharsFrom (!caseSensitive) false rest
      else ⟨ch, caseSensitive⟩ :: identifierCharsFrom caseSensitive false rest := rfl

/-- `identifier_chars`. -/
def identifierChars (ident : List Char) : List IdentifierChar := identifierCharsFrom false false ident

/-- The loop `while let (Some(a), Some(b)) = (chars1.next(), chars2.next())`
of `name_eq` and the test after it. Both `next()` calls run before the
pattern is tried, so when one side is out the other has given up one more
character, and the test looks past it. -/
def nameEqLoop : List IdentifierChar → List IdentifierChar → Bool
  | a :: chars1, b :: chars2 => if !a.eq b then false else nameEqLoop chars1 chars2
  | chars1, chars2 => chars1.tail.isEmpty && chars2.tail.isEmpty

/-- `name_eq`: a name that starts with `U&` is compared as a string. -/
def nameEq (name1 name2 : List Char) : Bool :=
  if ['U', '&'].isPrefixOf name1 then name1 == name2
  else nameEqLoop (identifierChars name1) (identifierChars name2)

/-! ## `PgType` equality -/

/-- `PgType` as `eq_impl` reads it. A type the driver knows (`Bool`,
`Int4Array`, ...) is `builtin`, with its OID, its name and the element of
an array type; a `Custom` type has its OID, name and, when its kind is
`Array`, element. -/
inductive PgType where
  | builtin (oid : UInt32) (name : List Char) (element : Option PgType)
  | custom (oid : UInt32) (name : List Char) (element : Option PgType)
  | declareWithOid (oid : UInt32)
  | declareWithName (name : List Char)
  | declareArrayOf (elemName name : List Char)

namespace PgType

/-- `try_oid`. -/
def tryOid : PgType → Option UInt32
  | .builtin oid _ _ => some oid
  | .custom oid _ _ => some oid
  | .declareWithOid oid => some oid
  | .declareWithName _ => none
  | .declareArrayOf _ _ => none

/-- `is_declare_with_oid`. -/
def isDeclareWithOid : PgType → Bool
  | .declareWithOid _ => true
  | _ => false

/-- `try_array_element`; a declared name that starts with `_` names an
array of the rest. -/
def tryArrayElement : PgType → Option PgType
  | .builtin _ _ element => element
  | .custom _ _ element => element
  | .declareWithOid _ => none
  | .declareWithName name => if name.head? = some '_' then some (.declareWithName name.tail) else none
  | .declareArrayOf elemName _ => some (.declareWithName elemName)

/-- `name`. -/
def name : PgType → List Char
  | .builtin _ name _ => name
  | .custom _ name _ => name
  | .declareWithOid _ => ['?']
  | .declareWithName name => name
  | .declareArrayOf _ name => name

/-- What the element walk of `eq_impl` lowers. -/
def weight : PgType → Nat
  | .builtin _ _ none => 1
  | .builtin _ _ (some e) => e.weight + 1
  | .custom _ _ none => 1
  | .custom _ _ (some e) => e.weight + 1
  | .declareWithOid _ => 1
  | .declareWithName name => name.length + 1
  | .declareArrayOf elemName _ => elemName.length + 2

theorem weight_lt_of_tryArrayElement {a e : PgType} (h : a.tryArrayElement = some e) : e.weight < a.weight := by
  cases a with
  | builtin oid name element =>
    cases element with
    | none => cases h
    | some e' =>
      cases h
      exact Nat.lt_succ_self _
  | custom oid name element =>
    cases element with
    | none => cases h
    | some e' =>
      cases h
      exact Nat.lt_succ_self _
  | declareWithOid oid => cases h
  | declareWithName name =>
    simp only [tryArrayElement] at h
    split at h
    · cases h
      simp only [weight, List.length_tail]
      rename_i hhead
      have : name ≠ [] := by
        rintro rfl
        cases hhead
      have := List.length_pos_iff.2 this
      omega
    · cases h
  | declareArrayOf elemName name =>
    cases h
    exact Nat.lt_succ_self _

-- `h₁` and `h₂` are read by `decreasing_by` only
set_option linter.unusedVariables false in
/-- `eq_impl`: by OID when both have one; `soft_eq` gives up when one side is
a bare OID; then by array element, with `PgTypeInfo`'s `==`; then by name. -/
def eqImpl (self other : PgType) (softEq : Bool) : Bool :=
  match self.tryOid, other.tryOid with
  | some a, some b => a == b
  | _, _ =>
    if softEq && (self.isDeclareWithOid || other.isDeclareWithOid) then true
    else match h₁ : self.tryArrayElement, h₂ : other.tryArrayElement with
      | some elemA, some elemB => eqImpl elemA elemB true
      | _, _ => nameEq self.name other.name
termination_by self.weight + other.weight
decreasing_by
  have := weight_lt_of_tryArrayElement h₁
  have := weight_lt_of_tryArrayElement h₂
  omega

/-- `PartialEq::eq`. -/
def eq (self other : PgType) : Bool := eqImpl self other true

/-- Two declared names, the first not of an array: matched by `name_eq`. -/
theorem eq_declareWithName {a : List Char} (ha : a.head? ≠ some '_') (b : List Char) :
    eq (.declareWithName a) (.declareWithName b) = nameEq a b := by
  rw [eq, eqImpl]
  simp only [tryOid, isDeclareWithOid, Bool.or_false, Bool.and_false, Bool.false_eq_true, if_false, name]
  split
  · -- the first name is not of an array: the element walk is not taken
    rename_i h₁ _
    simp only [tryArrayElement, if_neg ha, reduceCtorEq] at h₁
  · rfl

end PgType

/-! ## The walk over characters -/

section Walk

/-- Characters without quotes are significant as they stand. -/
theorem identifierCharsFrom_plain (flag : Bool) :
    ∀ cs : List Char, (∀ c ∈ cs, c ≠ '"') → identifierCharsFrom flag false cs = cs.map (⟨·, flag⟩)
  | [], _ => rfl
  | c :: cs, h => by
    rw [identifierCharsFrom_cons, if_neg (h c List.mem_cons_self), if_neg Bool.false_ne_true,
      identifierCharsFrom_plain flag cs fun d hd => h d (List.mem_cons_of_mem c hd), List.map_cons]

/-- A closing quote at the end adds nothing. -/
theorem identifierCharsFrom_plain_quote (flag : Bool) :
    ∀ cs : List Char, (∀ c ∈ cs, c ≠ '"') → identifierCharsFrom flag false (cs ++ ['"']) = cs.map (⟨·, flag⟩)
  | [], _ => rfl
  | c :: cs, h => by
    rw [List.cons_append, identifierCharsFrom_cons, if_neg (h c List.mem_cons_self), if_neg Bool.false_ne_true,
      identifierCharsFrom_plain_quote flag cs fun d hd => h d (List.mem_cons_of_mem c hd), List.map_cons]

/-- A quoted run of characters without quotes: each one case-sensitive. -/
theorem identifierChars_quoted {c : Char} {cs : List Char} (hc : c ≠ '"') (hcs : ∀ d ∈ cs, d ≠ '"') :
    identifierChars ('"' :: c :: (cs ++ ['"'])) = (c :: cs).map (⟨·, true⟩) := by
  rw [identifierChars, identifierCharsFrom_cons, if_pos rfl, if_neg Bool.false_ne_true,
    identifierCharsFrom, if_neg hc, if_pos rfl, Bool.not_false, identifierCharsFrom_plain_quote true cs hcs,
    List.map_cons]

theorem nameEqLoop_cons_of_eq {a b : IdentifierChar} (h : a.eq b = true) (chars1 chars2 : List IdentifierChar) :
    nameEqLoop (a :: chars1) (b :: chars2) = nameEqLoop chars1 chars2 := by
  rw [nameEqLoop, h, Bool.not_true, if_neg Bool.false_ne_true]

theorem nameEqLoop_cons_of_not_eq {a b : IdentifierChar} (h : a.eq b = false) (chars1 chars2 : List IdentifierChar) :
    nameEqLoop (a :: chars1) (b :: chars2) = false := by
  rw [nameEqLoop, h, Bool.not_false, if_pos rfl]

/-- Sides that match pair by pair match. -/
theorem nameEqLoop_of_forall₂ :
    ∀ {chars1 chars2 : List IdentifierChar}, List.Forall₂ (fun a b : IdentifierChar => a.eq b = true) chars1 chars2 →
      nameEqLoop chars1 chars2 = true
  | _, _, .nil => rfl
  | _, _, .cons hab hrest => by rw [nameEqLoop_cons_of_eq hab, nameEqLoop_of_forall₂ hrest]

/-- One more character on the second side still matches: the loop takes it
with the first side's end, and the test looks past it. -/
theorem nameEqLoop_append_right :
    ∀ {chars1 chars2 : List IdentifierChar} (extra : IdentifierChar),
      List.Forall₂ (fun a b : IdentifierChar => a.eq b = true) chars1 chars2 → nameEqLoop chars1 (chars2 ++ [extra]) = true
  | _, _, _, .nil => rfl
  | _, _, extra, .cons hab hrest => by
    rw [List.cons_append, nameEqLoop_cons_of_eq hab, nameEqLoop_append_right extra hrest]

theorem nameEqLoop_append_left :
    ∀ {chars1 chars2 : List IdentifierChar} (extra : IdentifierChar),
      List.Forall₂ (fun a b : IdentifierChar => a.eq b = true) chars1 chars2 → nameEqLoop (chars1 ++ [extra]) chars2 = true
  | _, _, _, .nil => rfl
  | _, _, extra, .cons hab hrest => by
    rw [List.cons_append, nameEqLoop_cons_of_eq hab, nameEqLoop_append_left extra hrest]

theorem IdentifierChar.eq_self_of_case (c : Char) (flag flag' : Bool) : IdentifierChar.eq ⟨c, flag⟩ ⟨c, flag'⟩ = true := by
  unfold IdentifierChar.eq
  split <;> simp

/-- Outside quotes a character matches its lower case. -/
theorem IdentifierChar.eq_toLower (c : Char) : IdentifierChar.eq ⟨c, false⟩ ⟨c.toLower, false⟩ = true := by
  simp only [IdentifierChar.eq, Bool.or_self, Bool.false_eq_true, if_false, Ascii.toLower_toLower, beq_self_eq_true]

/-- An upper-case letter outside quotes does not match its lower case inside
them. -/
theorem IdentifierChar.eq_quoted_toLower {c : Char} (h : c.isUpper = true) :
    IdentifierChar.eq ⟨c, false⟩ ⟨c.toLower, true⟩ = false := by
  simp only [IdentifierChar.eq, Bool.false_or, if_true, beq_eq_false_iff_ne]
  exact (Ascii.toLower_ne_self h).symm

/-- Every character matches itself, whatever the quotes say. -/
theorem forall₂_self (f g : Char → Bool) (cs : List Char) :
    List.Forall₂ (fun a b : IdentifierChar => a.eq b = true) (cs.map fun c => ⟨c, f c⟩)
      (cs.map fun c => ⟨c, g c⟩) := by
  induction cs with
  | nil => exact .nil
  | cons c cs ih => exact .cons (IdentifierChar.eq_self_of_case c _ _) ih

end Walk

/-! ## Postgres's rule for identifiers -/

/-- A part of a type name as written: unquoted, or in double quotes. -/
inductive NamePart where
  | unquoted (s : List Char)
  | quoted (s : List Char)

/-- The part as written: inside quotes, each quote doubled. -/
def NamePart.render : NamePart → List Char
  | .unquoted s => s
  | .quoted s => '"' :: (s.flatMap (fun c => if c = '"' then ['"', '"'] else [c]) ++ ['"'])

/-- What Postgres makes of the part: an unquoted part folded to lower case,
a quoted one as it stands. -/
def NamePart.normalize : NamePart → List Char
  | .unquoted s => s.map Char.toLower
  | .quoted s => s

/-- A part as Postgres accepts it: an unquoted part is a nonempty run of
characters other than quotes and dots that does not open with `U&`, a
quoted part is not empty. -/
def NamePart.Valid : NamePart → Prop
  | .unquoted s => s ≠ [] ∧ (∀ c ∈ s, c ≠ '"' ∧ c ≠ '.') ∧ ¬ ['U', '&'] <+: s
  | .quoted s => s ≠ []

/-- A type name as written: its parts joined by dots. -/
def renderName (parts : List NamePart) : List Char := ['.'].intercalate (parts.map NamePart.render)

/-- A type name as Postgres reads it. -/
def normalizeName (parts : List NamePart) : List (List Char) := parts.map NamePart.normalize

theorem render_quoted_of_plain {s : List Char} (h : ∀ c ∈ s, c ≠ '"') :
    NamePart.render (.quoted s) = '"' :: (s ++ ['"']) := by
  rw [NamePart.render]
  congr 2
  induction s with
  | nil => rfl
  | cons c s ih =>
    rw [List.flatMap_cons, if_neg (h c List.mem_cons_self), ih fun d hd => h d (List.mem_cons_of_mem c hd)]
    rfl

theorem renderName_singleton (p : NamePart) : renderName [p] = p.render := by
  simp [renderName]

/-- A valid unquoted part: its characters as they stand, outside quotes. -/
theorem identifierChars_unquoted {s : List Char} (h : NamePart.Valid (.unquoted s)) :
    identifierChars s = s.map (⟨·, false⟩) :=
  identifierCharsFrom_plain false s fun c hc => (h.2.1 c hc).1

theorem nameEq_of_unquoted {s t : List Char} (h : NamePart.Valid (.unquoted s)) :
    nameEq s t = nameEqLoop (identifierChars s) (identifierChars t) := by
  rw [nameEq, if_neg]
  rw [List.isPrefixOf_iff_prefix]
  exact h.2.2

/-- Folding leaves a run without quotes without quotes. -/
theorem toLower_plain {s : List Char} (h : ∀ c ∈ s, c ≠ '"') : ∀ c ∈ s.map Char.toLower, c ≠ '"' := by
  intro d hd
  obtain ⟨c, hc, rfl⟩ := List.mem_map.1 hd
  exact Ascii.toLower_ne (by decide) (h c hc)

/-- A folded name does not start with `U&`. -/
theorem not_isPrefixOf_toLower (c : Char) (rest : List Char) :
    ['U', '&'].isPrefixOf ((c :: rest).map Char.toLower) = false := by
  have hne : 'U' ≠ c.toLower := by
    intro h
    have hu := Ascii.isUpper_toLower c
    rw [← h] at hu
    exact absurd hu (by decide)
  simp [List.isPrefixOf, hne]

/-- Outside quotes a name matches its lower case, character by character. -/
theorem forall₂_toLower (cs : List Char) :
    List.Forall₂ (fun a b : IdentifierChar => a.eq b = true) (cs.map (⟨·, false⟩))
      ((cs.map Char.toLower).map (⟨·, false⟩)) := by
  induction cs with
  | nil => exact .nil
  | cons c cs ih => exact .cons (IdentifierChar.eq_toLower c) ih

section QuotedAgainstLowerCase

variable {c : Char} {rest : List Char}

/-- `FOO` against `"foo"`: the first letters differ, one quoted. -/
theorem nameEq_quoted_toLower (hc : c.isUpper = true) (h : NamePart.Valid (.unquoted (c :: rest))) :
    nameEq (c :: rest) (NamePart.quoted ((c :: rest).map Char.toLower)).render = false := by
  have hplain : ∀ d ∈ c :: rest, d ≠ '"' := fun d hd => (h.2.1 d hd).1
  rw [nameEq_of_unquoted h, identifierChars_unquoted h, render_quoted_of_plain (toLower_plain hplain),
    List.map_cons, List.map_cons, List.cons_append,
    identifierChars_quoted (toLower_plain hplain _ List.mem_cons_self)
      (fun d hd => toLower_plain hplain d (List.mem_cons_of_mem _ hd)),
    List.map_cons]
  exact nameEqLoop_cons_of_not_eq (IdentifierChar.eq_quoted_toLower hc) _ _

/-- `FOO` against `foo`: every letter matches its lower case. -/
theorem nameEq_toLower (h : NamePart.Valid (.unquoted (c :: rest))) :
    nameEq (c :: rest) ((c :: rest).map Char.toLower) = true := by
  have hplain : ∀ d ∈ c :: rest, d ≠ '"' := fun d hd => (h.2.1 d hd).1
  rw [nameEq_of_unquoted h, identifierChars_unquoted h, identifierChars,
    identifierCharsFrom_plain false _ (toLower_plain hplain)]
  exact nameEqLoop_of_forall₂ (forall₂_toLower _)

/-- `foo` against `"foo"`: the same letters, one side quoted. -/
theorem nameEq_toLower_quoted (h : NamePart.Valid (.unquoted (c :: rest))) :
    nameEq ((c :: rest).map Char.toLower) (NamePart.quoted ((c :: rest).map Char.toLower)).render = true := by
  have hplain : ∀ d ∈ c :: rest, d ≠ '"' := fun d hd => (h.2.1 d hd).1
  have hlower := toLower_plain hplain
  rw [nameEq, not_isPrefixOf_toLower, if_neg Bool.false_ne_true, identifierChars,
    identifierCharsFrom_plain false _ hlower, render_quoted_of_plain hlower, List.map_cons, List.cons_append,
    identifierChars_quoted (hlower _ List.mem_cons_self) (fun d hd => hlower d (List.mem_cons_of_mem _ hd)),
    ← List.map_cons]
  exact nameEqLoop_of_forall₂ (forall₂_self _ _ _)

end QuotedAgainstLowerCase

/-- A name against itself with one more character: the loop takes the extra
character with the shorter name's end. -/
theorem nameEq_append_one {s : List Char} {c : Char} (hs : NamePart.Valid (.unquoted s))
    (hsc : NamePart.Valid (.unquoted (s ++ [c]))) : nameEq s (s ++ [c]) = true ∧ nameEq (s ++ [c]) s = true := by
  rw [nameEq_of_unquoted hs, nameEq_of_unquoted hsc, identifierChars_unquoted hs, identifierChars_unquoted hsc,
    List.map_append, List.map_singleton]
  exact ⟨nameEqLoop_append_right _ (forall₂_self _ _ s), nameEqLoop_append_left _ (forall₂_self _ _ s)⟩

/-- `name_eq` does not follow Postgres's rule. An unquoted name with an
upper-case first letter does not match its lower case in quotes, though
Postgres reads both alike; it matches its lower case, which matches the
quoted one, so the match is not transitive. A name matches itself with one
more character, though Postgres reads two names. Two declared types, the
first not an array, are equal exactly when their names match. -/
theorem name_eq_breaks_identifier_rules :
    (∀ (c : Char) (rest : List Char), c.isUpper = true → NamePart.Valid (.unquoted (c :: rest)) →
      normalizeName [.unquoted (c :: rest)] = normalizeName [.quoted ((c :: rest).map Char.toLower)] ∧
      nameEq (renderName [.unquoted (c :: rest)]) (renderName [.quoted ((c :: rest).map Char.toLower)]) = false) ∧
    (∀ (c : Char) (rest : List Char), c.isUpper = true → NamePart.Valid (.unquoted (c :: rest)) →
      nameEq (c :: rest) ((c :: rest).map Char.toLower) = true ∧
      nameEq ((c :: rest).map Char.toLower) (renderName [.quoted ((c :: rest).map Char.toLower)]) = true ∧
      nameEq (c :: rest) (renderName [.quoted ((c :: rest).map Char.toLower)]) = false) ∧
    (∀ (s : List Char) (c : Char), NamePart.Valid (.unquoted s) → NamePart.Valid (.unquoted (s ++ [c])) →
      normalizeName [.unquoted s] ≠ normalizeName [.unquoted (s ++ [c])] ∧
      nameEq s (s ++ [c]) = true ∧ nameEq (s ++ [c]) s = true) ∧
    (∀ a b : List Char, a.head? ≠ some '_' →
      PgType.eq (.declareWithName a) (.declareWithName b) = nameEq a b) := by
  refine ⟨fun c rest hc h => ⟨rfl, ?_⟩, fun c rest hc h => ?_, fun s c hs hsc => ⟨?_, nameEq_append_one hs hsc⟩,
    fun a b ha => PgType.eq_declareWithName ha b⟩
  · rw [renderName_singleton, renderName_singleton]
    exact nameEq_quoted_toLower hc h
  · rw [renderName_singleton]
    exact ⟨nameEq_toLower h, nameEq_toLower_quoted h, nameEq_quoted_toLower hc h⟩
  · -- the two names Postgres reads differ in length
    intro heq
    have hlen := congrArg (fun parts => parts.map List.length) heq
    simp [normalizeName, NamePart.normalize] at hlen

/-- `FOO` and `"foo"`, and `mood` and `moods`. -/
theorem name_eq_of_foo_and_moods :
    nameEq (renderName [.unquoted "FOO".toList]) (renderName [.quoted "foo".toList]) = false ∧
      nameEq "mood".toList "moods".toList = true := by
  have h := name_eq_breaks_identifier_rules
  refine ⟨(h.1 'F' "OO".toList (by decide) ⟨by decide, by simp, by decide⟩).2, ?_⟩
  exact (h.2.2.1 "mood".toList 's' ⟨by decide, by simp, by decide⟩ ⟨by decide, by simp, by decide⟩).2.1

end Sqlx.Postgres
