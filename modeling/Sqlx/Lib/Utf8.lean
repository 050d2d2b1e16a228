import Mathlib.Logic.Basic

/-!
# UTF-8 — well-formed byte sequences

A text is its UTF-8 bytes. Well-formedness is the Unicode Standard's
(Table 3-7): each code point as one to four bytes, with no overlong form, no
surrogate and nothing above U+10FFFF. Both `valid` and `lossy`
(`String::from_utf8_lossy`) read the bytes one at a time, remembering what the
next byte of a sequence begun must be. `lossy` replaces each maximal
ill-formed subpart by one U+FFFD. It leaves a well-formed text as it is
(`lossy_of_valid`), and well-formed texts are closed under concatenation
(`valid_append`).
-/

namespace Utf8

/-- What the next byte of a sequence must be: its range, and how many
continuation bytes `80..BF` come after it. -/
abbrev Expect := UInt8 × UInt8 × Nat

/-- What a lead byte asks for; `none` for a byte that starts no multi-byte
sequence. -/
def lead (b : UInt8) : Option Expect :=
  if 0xC2 ≤ b ∧ b ≤ 0xDF then some (0x80, 0xBF, 0)
  else if b = 0xE0 then some (0xA0, 0xBF, 1)
  else if b = 0xED then some (0x80, 0x9F, 1)
  else if 0xE1 ≤ b ∧ b ≤ 0xEF then some (0x80, 0xBF, 1)
  else if b = 0xF0 then some (0x90, 0xBF, 2)
  else if b = 0xF4 then some (0x80, 0x8F, 2)
  else if 0xF1 ≤ b ∧ b ≤ 0xF3 then some (0x80, 0xBF, 2)
  else none

/-- The next byte is in the range asked for. -/
def inRange (lo hi c : UInt8) : Bool := decide (lo ≤ c ∧ c ≤ hi)

/-- What is asked for after a byte in range. -/
def afterInRange (k : Nat) : Option Expect := if k = 0 then none else some (0x80, 0xBF, k - 1)

/-- Well-formedness from the state `e`: `none` between sequences. -/
def validFrom : List UInt8 → Option Expect → Bool
  | [], e => e.isNone
  | b :: rest, none =>
    if b < 0x80 then validFrom rest none
    else match lead b with
      | none => false
      | some e => validFrom rest (some e)
  | c :: rest, some (lo, hi, k) => inRange lo hi c && validFrom rest (afterInRange k)

/-- Well-formed UTF-8. -/
def valid (bytes : List UInt8) : Bool := validFrom bytes none

-- an overlong form, a surrogate and a code point above U+10FFFF, against a four-byte emoji
example : valid [0xC0, 0x80] = false ∧ valid [0xED, 0xA0, 0x80] = false ∧
    valid [0xF4, 0x90, 0x80, 0x80] = false ∧ valid [0xF0, 0x9F, 0x98, 0x80] = true := by decide

/-- `str::is_char_boundary`: `i` starts a character, or is the end. -/
def isCharBoundary (bytes : List UInt8) (i : Nat) : Bool :=
  match bytes.drop i with
  | [] => i == bytes.length
  | b :: _ => !inRange 0x80 0xBF b

/-- `&s[a..b]` on a `str`: the bytes from `a` to `b`, and a panic (`none`)
unless `a ≤ b` and both are character boundaries, so `b` is at most the length. -/
def slice (bytes : List UInt8) (a b : Nat) : Option (List UInt8) :=
  if a ≤ b ∧ isCharBoundary bytes a = true ∧ isCharBoundary bytes b = true then some ((bytes.take b).drop a)
  else none

/-- In ASCII every index up to the length is a boundary. -/
theorem isCharBoundary_of_ascii {bytes : List UInt8} (h : ∀ c ∈ bytes, c < 0x80) {i : Nat}
    (hi : i ≤ bytes.length) : isCharBoundary bytes i = true := by
  unfold isCharBoundary
  split
  · next hdrop =>
    have hlen := congrArg List.length hdrop
    rw [List.length_drop, List.length_nil] at hlen
    simp only [beq_iff_eq]
    omega
  · next c rest hdrop =>
    have hc : c < 0x80 := h c (List.mem_of_mem_drop (hdrop ▸ List.mem_cons_self))
    simp only [inRange, Bool.not_eq_true', decide_eq_false_iff_not, not_and]
    intro hlo
    rw [UInt8.le_iff_toNat_le] at hlo
    rw [UInt8.lt_iff_toNat_lt] at hc
    exact absurd hc (by simp only [UInt8.reduceToNat] at hlo ⊢; omega)

theorem slice_of_ascii {bytes : List UInt8} (h : ∀ c ∈ bytes, c < 0x80) {a b : Nat} (hab : a ≤ b)
    (hb : b ≤ bytes.length) : slice bytes a b = some ((bytes.take b).drop a) :=
  if_pos ⟨hab, isCharBoundary_of_ascii h (Nat.le_trans hab hb), isCharBoundary_of_ascii h hb⟩

/-- A range that ends before it starts panics. -/
theorem slice_of_lt {bytes : List UInt8} {a b : Nat} (h : b < a) : slice bytes a b = none :=
  if_neg fun hs => absurd hs.1 (Nat.not_le_of_lt h)

/-- U+FFFD REPLACEMENT CHARACTER. -/
def replacement : List UInt8 := [0xEF, 0xBF, 0xBD]

/-- A byte read between sequences: what is written out, and the sequence it
begins. -/
def boundary (b : UInt8) : List UInt8 × List UInt8 × Option Expect :=
  if b < 0x80 then ([b], [], none)
  else match lead b with
    | none => (replacement, [], none)
    | some e => ([], [b], some e)

/-- `from_utf8_lossy` from the state of a sequence begun with `pending`. -/
def lossyFrom : List UInt8 → List UInt8 → Option Expect → List UInt8
  | [], _, none => []
  -- a sequence cut off by the end
  | [], _, some _ => replacement
  | b :: rest, _, none =>
    let (out, pending, e) := boundary b
    out ++ lossyFrom rest pending e
  | c :: rest, pending, some (lo, hi, k) =>
    if inRange lo hi c then
      match afterInRange k with
      | none => pending ++ [c] ++ lossyFrom rest [] none
      | some e => lossyFrom rest (pending ++ [c]) (some e)
    else
      -- the sequence breaks off: one U+FFFD for it, and `c` is read again
      let (out, pending, e) := boundary c
      replacement ++ out ++ lossyFrom rest pending e

/-- `String::from_utf8_lossy`. -/
def lossy (bytes : List UInt8) : List UInt8 := lossyFrom bytes [] none

example : lossy [0x61, 0xE2, 0x82, 0x41] = [0x61, 0xEF, 0xBF, 0xBD, 0x41] := by decide

/-- From a well-formed point, the bytes begun are written out as they are. -/
theorem lossyFrom_of_validFrom : ∀ {bs : List UInt8} {e : Option Expect} (pending : List UInt8),
    (e = none → pending = []) → validFrom bs e = true → lossyFrom bs pending e = pending ++ bs
  | [], none, _, hp, _ => by rw [hp rfl]; rfl
  | [], some _, _, _, h => by simp [validFrom] at h
  | b :: rest, none, _, hp, h => by
    rw [hp rfl, lossyFrom]
    by_cases hb : b < 0x80
    · rw [validFrom, if_pos hb] at h
      simp only [boundary, if_pos hb]
      rw [lossyFrom_of_validFrom [] (fun _ => rfl) h]
      rfl
    · rw [validFrom, if_neg hb] at h
      simp only [boundary, if_neg hb]
      cases hl : lead b with
      | none => simp [hl] at h
      | some e =>
        rw [hl] at h
        simp only at h ⊢
        rw [@lossyFrom_of_validFrom rest (some e) [b] (fun h => nomatch h) h]
        rfl
  | c :: rest, some (lo, hi, k), pending, _, h => by
    rw [validFrom, Bool.and_eq_true] at h
    rw [lossyFrom, if_pos h.1]
    -- the byte ends the sequence, or the sequence goes on
    cases hk : afterInRange k with
    | none =>
      rw [hk] at h
      simp only
      rw [lossyFrom_of_validFrom [] (fun _ => rfl) h.2]
      simp
    | some e =>
      rw [hk] at h
      simp only
      rw [@lossyFrom_of_validFrom rest (some e) (pending ++ [c]) (fun h => nomatch h) h.2]
      simp

/-- A well-formed text reads back as itself. -/
theorem lossy_of_valid {bs : List UInt8} (h : valid bs = true) : lossy bs = bs :=
  lossyFrom_of_validFrom [] (fun _ => rfl) h

theorem validFrom_append : ∀ {a : List UInt8} {e : Option Expect} (b : List UInt8),
    validFrom a e = true → valid b = true → validFrom (a ++ b) e = true
  | [], none, _, _, hb => hb
  | [], some _, _, ha, _ => by simp [validFrom] at ha
  | x :: rest, none, b, ha, hb => by
    rw [List.cons_append, validFrom]
    rw [validFrom] at ha
    by_cases hx : x < 0x80
    · rw [if_pos hx] at ha ⊢
      exact validFrom_append b ha hb
    · rw [if_neg hx] at ha ⊢
      cases hl : lead x with
      | none => simp [hl] at ha
      | some e =>
        rw [hl] at ha
        exact validFrom_append b ha hb
  | x :: rest, some (lo, hi, k), b, ha, hb => by
    rw [validFrom, Bool.and_eq_true] at ha
    rw [List.cons_append, validFrom, Bool.and_eq_true]
    exact ⟨ha.1, validFrom_append b ha.2 hb⟩

/-- Well-formed texts concatenate. -/
theorem valid_append {a : List UInt8} (b : List UInt8) (ha : valid a = true) (hb : valid b = true) :
    valid (a ++ b) = true :=
  validFrom_append b ha hb

/-- ASCII is well-formed. -/
theorem valid_of_ascii : ∀ {bs : List UInt8}, (∀ b ∈ bs, b < 0x80) → valid bs = true
  | [], _ => rfl
  | b :: rest, h => by
    rw [valid, validFrom, if_pos (h b List.mem_cons_self)]
    exact valid_of_ascii fun x hx => h x (List.mem_cons_of_mem b hx)

/-! ## `str::from_utf8` -/

/-- `run_utf8_validation` from the start `start` of a character of which
`taken` bytes are read, the next asked for by `e`: where it stops, as
`valid_up_to` and `error_len` (`none` for a sequence cut off by the end). -/
def errorFrom : List UInt8 → Nat → Nat → Option Expect → Option (Nat × Option Nat)
  | [], _, _, none => none
  | [], start, _, some _ => some (start, none)
  | b :: rest, start, _, none =>
    if b < 0x80 then errorFrom rest (start + 1) 0 none
    else match lead b with
      | none => some (start, some 1)
      | some e => errorFrom rest start 1 (some e)
  | c :: rest, start, taken, some (lo, hi, k) =>
    if inRange lo hi c then
      match afterInRange k with
      | none => errorFrom rest (start + taken + 1) 0 none
      | some e => errorFrom rest start (taken + 1) (some e)
    else some (start, some taken)

/-- The `Utf8Error` of `str::from_utf8`, if any. -/
def utf8Error (bytes : List UInt8) : Option (Nat × Option Nat) := errorFrom bytes 0 0 none

/-- `Display for Utf8Error`. -/
def errorText : Nat × Option Nat → String
  | (validUpTo, some errorLen) => s!"invalid utf-8 sequence of {errorLen} bytes from index {validUpTo}"
  | (validUpTo, none) => s!"incomplete utf-8 byte sequence from index {validUpTo}"

/-- `str::from_utf8(bytes).map_err(|e| e.to_string())`. -/
def fromUtf8 (bytes : List UInt8) : Except String (List UInt8) :=
  match utf8Error bytes with
  | none => .ok bytes
  | some e => .error (errorText e)

example : utf8Error [0x61, 0xE2, 0x82, 0x41] = some (1, some 2) ∧ utf8Error [0x61, 0xE2, 0x82] = some (1, none) := by
  decide

/-- `from_utf8` stops nowhere exactly on a well-formed text: the validator and
`validFrom` read the same automaton. -/
theorem errorFrom_eq_none_iff : ∀ (bs : List UInt8) (start taken : Nat) (e : Option Expect),
    errorFrom bs start taken e = none ↔ validFrom bs e = true
  | [], _, _, none => by simp [errorFrom, validFrom]
  | [], _, _, some _ => by simp [errorFrom, validFrom]
  | b :: rest, start, _, none => by
    rw [errorFrom, validFrom]
    split
    · exact errorFrom_eq_none_iff rest _ _ _
    · cases lead b with
      | none => simp
      | some e => exact errorFrom_eq_none_iff rest _ _ _
  | c :: rest, start, taken, some (lo, hi, k) => by
    rw [errorFrom, validFrom]
    by_cases hc : inRange lo hi c = true
    · rw [if_pos hc, hc, Bool.true_and]
      cases afterInRange k with
      | none => exact errorFrom_eq_none_iff rest _ _ _
      | some e => exact errorFrom_eq_none_iff rest _ _ _
    · rw [if_neg hc, Bool.eq_false_iff.mpr hc, Bool.false_and]
      simp

theorem fromUtf8_of_valid {bytes : List UInt8} (h : valid bytes = true) : fromUtf8 bytes = .ok bytes := by
  rw [fromUtf8, utf8Error, (errorFrom_eq_none_iff bytes 0 0 none).mpr h]

/-- What `from_utf8` returns is the text it was given, well-formed. -/
theorem valid_of_fromUtf8 {bytes s : List UInt8} (h : fromUtf8 bytes = .ok s) : s = bytes ∧ valid bytes = true := by
  unfold fromUtf8 at h
  split at h
  · next hnone => exact ⟨(Except.ok.inj h).symm, (errorFrom_eq_none_iff bytes 0 0 none).mp hnone⟩
  · cases h

/-! ## `Debug for str` -/

/-- One character as `char::escape_debug_ext` writes it inside a `str`: the
six backslash escapes, `\u{..}` for a control character, the character
itself otherwise. -/
def escapeDebug (c : Char) : String :=
  if c = '\x00' then "\\0"
  else if c = '\t' then "\\t"
  else if c = '\r' then "\\r"
  else if c = '\n' then "\\n"
  else if c = '\\' then "\\\\"
  else if c = '"' then "\\\""
  else if c.toNat < 0x20 ∨ (0x7F ≤ c.toNat ∧ c.toNat < 0xA0) then
    "\\u\x7b" ++ String.ofList (Nat.toDigits 16 c.toNat) ++ "\x7d"
  else c.toString

/-- `{s:?}` of a `str`, given as its bytes: the text between double quotes,
each character escaped. -/
def debug (bytes : List UInt8) : String :=
  "\"" ++ String.join (((String.fromUTF8? ⟨bytes.toArray⟩).getD "").toList.map escapeDebug) ++ "\""

end Utf8
