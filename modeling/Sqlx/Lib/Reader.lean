import Sqlx.Lib.Bytes

/-!
# Wire — reading a message back

The readers a parser of a binary message is built from: `n` raw bytes, a
big- or little-endian unsigned integer, a run of them, and a NUL-terminated string, each
returning what it read and the bytes after it, `none` when the input is too
short. Each comes with the lemma that it reads back what the matching writer
of `Wire` wrote, in front of any suffix; `decimalBytes`, the ASCII digits
of a number, which never hold a NUL; and a quoted string with its quotes
doubled.
-/

namespace Wire

/-- The first `n` bytes and the rest, if there are `n`. -/
def readN (n : Nat) (bytes : List UInt8) : Option (List UInt8 × List UInt8) :=
  if n ≤ bytes.length then some (bytes.take n, bytes.drop n) else none

theorem readN_append {a : List UInt8} {n : Nat} (h : a.length = n) (rest : List UInt8) :
    readN n (a ++ rest) = some (a, rest) := by
  subst h
  simp [readN]

theorem readN_eq_none_iff {n : Nat} {bytes : List UInt8} : readN n bytes = none ↔ bytes.length < n := by
  unfold readN
  split <;> simp_all

/-- A little-endian unsigned integer of `w` bytes. -/
def readLe (w : Nat) (bytes : List UInt8) : Option (Nat × List UInt8) :=
  (readN w bytes).map fun p => (leValue p.1, p.2)

theorem readLe_leBytes {w n : Nat} (h : n < 256 ^ w) (rest : List UInt8) :
    readLe w (leBytes w n ++ rest) = some (n, rest) := by
  simp [readLe, readN_append (length_leBytes w n), leValue_leBytes_of_lt h]

theorem readLe_append {a : List UInt8} {w : Nat} (h : a.length = w) (rest : List UInt8) :
    readLe w (a ++ rest) = some (leValue a, rest) := by
  rw [readLe, readN_append h rest]
  rfl

/-- What `readLe` read: `w` bytes, and a value below `256 ^ w`. -/
theorem length_of_readLe {w : Nat} {bytes rest : List UInt8} {x : Nat} (h : readLe w bytes = some (x, rest)) :
    bytes.length = w + rest.length ∧ x < 256 ^ w := by
  unfold readLe readN at h
  split at h
  · next hw =>
    simp only [Option.map_some, Option.some.injEq, Prod.mk.injEq] at h
    obtain ⟨rfl, rfl⟩ := h
    have hlt := leValue_lt (bytes.take w)
    rw [List.length_take_of_le hw] at hlt
    exact ⟨by rw [List.length_drop]; omega, hlt⟩
  · cases h

/-- A big-endian unsigned integer of `w` bytes. -/
def readBe (w : Nat) (bytes : List UInt8) : Option (Nat × List UInt8) :=
  (readN w bytes).map fun p => (beValue p.1, p.2)

theorem readBe_beBytes {w n : Nat} (h : n < 256 ^ w) (rest : List UInt8) :
    readBe w (beBytes w n ++ rest) = some (n, rest) := by
  simp [readBe, readN_append (length_beBytes w n), beValue_beBytes_of_lt h]

theorem readBe_append {a : List UInt8} {w : Nat} (h : a.length = w) (rest : List UInt8) :
    readBe w (a ++ rest) = some (beValue a, rest) := by
  rw [readBe, readN_append h rest]
  rfl

theorem readBe_eq_none_iff {w : Nat} {bytes : List UInt8} : readBe w bytes = none ↔ bytes.length < w := by
  rw [readBe, Option.map_eq_none_iff, readN_eq_none_iff]

/-- `k` big-endian unsigned integers of `w` bytes each. -/
def readBes (w : Nat) : Nat → List UInt8 → Option (List Nat × List UInt8)
  | 0, bytes => some ([], bytes)
  | k + 1, bytes =>
    match readBe w bytes with
    | none => none
    | some (x, rest) => (readBes w k rest).map fun p => (x :: p.1, p.2)

theorem readBes_flatMap {w : Nat} (xs : List Nat) (hxs : ∀ x ∈ xs, x < 256 ^ w) (rest : List UInt8) :
    readBes w xs.length (xs.flatMap (beBytes w) ++ rest) = some (xs, rest) := by
  induction xs with
  | nil => rfl
  | cons x xs ih =>
    have hx := hxs x List.mem_cons_self
    have hrest := ih (fun y hy => hxs y (List.mem_cons_of_mem x hy))
    simp only [List.length_cons, List.flatMap_cons, List.append_assoc, readBes, readBe_beBytes hx, hrest,
      Option.map_some]

@[simp] theorem length_flatMap_beBytes (w : Nat) (xs : List Nat) :
    (xs.flatMap (beBytes w)).length = xs.length * w := by
  induction xs with
  | nil => simp
  | cons x xs ih =>
    simp only [List.flatMap_cons, List.length_append, length_beBytes, ih, List.length_cons, Nat.succ_mul]
    omega

/-- A list of nonempty pieces is at least as long as the list of its sources. -/
theorem length_le_length_flatMap {α β : Type} {f : α → List β} (hf : ∀ a, f a ≠ []) (xs : List α) :
    xs.length ≤ (xs.flatMap f).length := by
  induction xs with
  | nil => simp
  | cons x xs ih =>
    have hx : 0 < (f x).length := List.length_pos_iff.mpr (hf x)
    simp only [List.length_cons, List.flatMap_cons, List.length_append]
    omega

/-- `readBes` reads exactly the count it is given. -/
theorem length_of_readBes {w : Nat} : ∀ {k : Nat} {bytes : List UInt8} {xs : List Nat} {rest : List UInt8},
    readBes w k bytes = some (xs, rest) → xs.length = k
  | 0, _, xs, rest, h => by
    simp only [readBes, Option.some.injEq, Prod.mk.injEq] at h
    rw [← h.1]
    rfl
  | k + 1, bytes, xs, rest, h => by
    simp only [readBes] at h
    cases hx : readBe w bytes with
    | none => simp [hx] at h
    | some p =>
      obtain ⟨x, r⟩ := p
      cases hr : readBes w k r with
      | none => simp [hx, hr] at h
      | some q =>
        obtain ⟨ys, r'⟩ := q
        simp only [hx, hr, Option.map_some, Option.some.injEq, Prod.mk.injEq] at h
        rw [← h.1, List.length_cons, length_of_readBes hr]

/-- Each integer `readBes` reads takes `w` bytes. -/
theorem length_readBes {w : Nat} : ∀ {k : Nat} {bytes : List UInt8} {xs : List Nat} {rest : List UInt8},
    readBes w k bytes = some (xs, rest) → bytes.length = k * w + rest.length
  | 0, _, xs, rest, h => by
    simp only [readBes, Option.some.injEq, Prod.mk.injEq] at h
    rw [← h.2]
    simp
  | k + 1, bytes, xs, rest, h => by
    simp only [readBes] at h
    cases hx : readBe w bytes with
    | none => simp [hx] at h
    | some p =>
      obtain ⟨x, r⟩ := p
      cases hr : readBes w k r with
      | none => simp [hx, hr] at h
      | some q =>
        obtain ⟨ys, r'⟩ := q
        simp only [hx, hr, Option.map_some, Option.some.injEq, Prod.mk.injEq] at h
        have hread : bytes.length = w + r.length := by
          simp only [readBe, readN, Option.map_eq_some_iff] at hx
          obtain ⟨a, ha, hpair⟩ := hx
          split at ha
          · cases ha
            simp only [Prod.mk.injEq] at hpair
            rw [← hpair.2, List.length_drop]
            omega
          · cases ha
        rw [hread, length_readBes hr, h.2]
        simp only [Nat.add_mul, Nat.one_mul]
        omega

/-- A string up to its NUL terminator, and the bytes after the terminator. -/
def readCString : List UInt8 → Option (List UInt8 × List UInt8)
  | [] => none
  | b :: rest => if b = 0 then some ([], rest) else (readCString rest).map fun p => (b :: p.1, p.2)

/-- A string without a NUL reads back up to the NUL written after it. -/
theorem readCString_append {s : List UInt8} (hs : 0 ∉ s) (rest : List UInt8) :
    readCString (s ++ 0 :: rest) = some (s, rest) := by
  induction s with
  | nil => simp [readCString]
  | cons b s ih =>
    have hb : b ≠ 0 := fun h => hs (h ▸ List.mem_cons_self)
    have hrest := ih (fun h => hs (List.mem_cons_of_mem b h))
    simp [readCString, hb, hrest]

/-- The bytes of an ASCII string. -/
def asciiBytes (cs : List Char) : List UInt8 := cs.map fun c => c.toNat.toUInt8

/-- A number's decimal digits in ASCII, as `itoa` formats it. -/
def decimalBytes (n : Nat) : List UInt8 := asciiBytes (Nat.toDigits 10 n)

/-- A decimal digit is a character from `'0'` to `'9'`. -/
theorem toNat_of_mem_toDigits {n : Nat} {c : Char} (hc : c ∈ Nat.toDigits 10 n) : 48 ≤ c.toNat ∧ c.toNat ≤ 57 := by
  have hdigit := Nat.isDigit_of_mem_toDigits (by decide) (by decide) hc
  simp only [Char.isDigit, Bool.and_eq_true, decide_eq_true_eq] at hdigit
  obtain ⟨hlo, hhi⟩ := hdigit
  rw [ge_iff_le, UInt32.le_iff_toNat_le] at hlo
  rw [UInt32.le_iff_toNat_le] at hhi
  have h0 : ('0'.val).toNat = 48 := rfl
  have h9 : ('9'.val).toNat = 57 := rfl
  have hc : c.toNat = c.val.toNat := rfl
  omega

theorem zero_not_mem_decimalBytes (n : Nat) : (0 : UInt8) ∉ decimalBytes n := by
  intro h
  obtain ⟨c, hc, hzero⟩ := List.mem_map.mp h
  have hdigit := toNat_of_mem_toDigits hc
  -- a digit is a byte from 48 to 57, none of them 0
  have hbyte := congrArg UInt8.toNat hzero
  rw [Nat.toUInt8_eq, UInt8.toNat_ofNat', UInt8.toNat_zero] at hbyte
  omega

/-- `u8::is_ascii_digit`. -/
def isAsciiDigit (b : UInt8) : Bool := decide (0x30 ≤ b ∧ b ≤ 0x39)

/-- `u8::is_ascii_alphanumeric`. -/
def isAsciiAlphanumeric (b : UInt8) : Bool :=
  (0x30 ≤ b && b ≤ 0x39) || (0x41 ≤ b && b ≤ 0x5A) || (0x61 ≤ b && b ≤ 0x7A)

/-- An unreserved byte of a URL (RFC 3986): a letter, a digit, `-`, `.`, `_` or `~`. -/
def isUnreserved (b : UInt8) : Bool := isAsciiAlphanumeric b || b == 0x2D || b == 0x2E || b == 0x5F || b == 0x7E

theorem isUnreserved_of_isAsciiDigit {b : UInt8} (h : isAsciiDigit b = true) : isUnreserved b = true := by
  simp only [isAsciiDigit, decide_eq_true_eq] at h
  simp [isUnreserved, isAsciiAlphanumeric, h.1, h.2]

theorem lt_0x80_of_isUnreserved {b : UInt8} (h : isUnreserved b = true) : b < 0x80 := by
  simp only [isUnreserved, isAsciiAlphanumeric, Bool.or_eq_true, Bool.and_eq_true, decide_eq_true_eq,
    beq_iff_eq, UInt8.le_iff_toNat_le, UInt8.ext_iff, UInt8.reduceToNat] at h
  simp only [UInt8.lt_iff_toNat_lt, UInt8.reduceToNat]
  omega

/-- Decimal digits read on from the value `acc`; `none` at a byte that is not
a digit, or once the value reaches `bound`. -/
def readDigits (bound : Nat) : Nat → List UInt8 → Option Nat
  | acc, [] => some acc
  | acc, c :: rest =>
    if isAsciiDigit c then
      if bound ≤ 10 * acc + (c.toNat - 0x30) then none else readDigits bound (10 * acc + (c.toNat - 0x30)) rest
    else none

/-- `u*::from_str` for an unsigned type of `bits` bits: an optional `+`,
then at least one digit, below `2 ^ bits`. -/
def parseUnsigned (bits : Nat) (src : List UInt8) : Option Nat :=
  match src with
  | [] => none
  | c :: rest => if c = 0x2B then (if rest = [] then none else readDigits (2 ^ bits) 0 rest)
    else readDigits (2 ^ bits) 0 src

/-- A digit character is a digit byte of the same value. -/
theorem byte_of_digit {c : Char} (h : 48 ≤ c.toNat ∧ c.toNat ≤ 57) :
    isAsciiDigit c.toNat.toUInt8 = true ∧ c.toNat.toUInt8.toNat - 0x30 = c.toNat - '0'.toNat := by
  have hb : c.toNat.toUInt8.toNat = c.toNat := by
    rw [Nat.toUInt8_eq, UInt8.toNat_ofNat']
    omega
  refine ⟨?_, by rw [hb]; rfl⟩
  simp only [isAsciiDigit, decide_eq_true_eq, UInt8.le_iff_toNat_le, hb]
  exact ⟨h.1, h.2⟩

/-- Digits read back as the value `Nat.ofDigitChars` gives them, while it
stays below the bound. -/
theorem readDigits_asciiBytes {bound : Nat} : ∀ (cs : List Char) (acc : Nat),
    (∀ c ∈ cs, 48 ≤ c.toNat ∧ c.toNat ≤ 57) → Nat.ofDigitChars 10 cs acc < bound →
      readDigits bound acc (asciiBytes cs) = some (Nat.ofDigitChars 10 cs acc)
  | [], acc, _, _ => rfl
  | c :: cs, acc, hcs, h => by
    obtain ⟨hdigit, hval⟩ := byte_of_digit (hcs c List.mem_cons_self)
    rw [Nat.ofDigitChars_cons] at h ⊢
    -- the value read so far is at most the whole value
    have hle : 10 * acc + (c.toNat - '0'.toNat) ≤ Nat.ofDigitChars 10 cs (10 * acc + (c.toNat - '0'.toNat)) := by
      rw [Nat.ofDigitChars_eq_ofDigitChars_zero]
      calc 10 * acc + (c.toNat - '0'.toNat)
          ≤ 10 ^ cs.length * (10 * acc + (c.toNat - '0'.toNat)) := Nat.le_mul_of_pos_left _ (Nat.pow_pos (by decide))
        _ ≤ _ := Nat.le_add_right _ _
    rw [asciiBytes, List.map_cons, ← asciiBytes, readDigits, if_pos hdigit, hval, if_neg (by omega)]
    exact readDigits_asciiBytes cs _ (fun x hx => hcs x (List.mem_cons_of_mem c hx)) h

theorem readDigits_decimalBytes {bound n : Nat} (h : n < bound) : readDigits bound 0 (decimalBytes n) = some n := by
  have hread := readDigits_asciiBytes (Nat.toDigits 10 n) 0 (fun c hc => toNat_of_mem_toDigits hc)
    (by rw [Nat.ofDigitChars_ten_toDigits]; exact h)
  rwa [Nat.ofDigitChars_ten_toDigits] at hread

theorem isAsciiDigit_of_mem_decimalBytes {n : Nat} {b : UInt8} (hb : b ∈ decimalBytes n) : isAsciiDigit b = true := by
  obtain ⟨c, hc, rfl⟩ := List.mem_map.mp hb
  exact (byte_of_digit (toNat_of_mem_toDigits hc)).1

theorem decimalBytes_ne_nil (n : Nat) : decimalBytes n ≠ [] := by
  simp [decimalBytes, asciiBytes, Nat.toDigits_ne_nil]

/-- Digits with no sign in front are read as they are. -/
theorem parseUnsigned_of_digits {bits : Nat} {src : List UInt8} (hne : src ≠ [])
    (hdigits : ∀ b ∈ src, isAsciiDigit b = true) : parseUnsigned bits src = readDigits (2 ^ bits) 0 src := by
  cases src with
  | nil => exact absurd rfl hne
  | cons b rest =>
    have hplus : b ≠ 0x2B := by
      rintro rfl
      exact absurd (hdigits _ List.mem_cons_self) (by decide)
    simp only [parseUnsigned, if_neg hplus]

/-- `to_string` of an unsigned number parses back. -/
theorem parseUnsigned_decimalBytes {bits n : Nat} (h : n < 2 ^ bits) : parseUnsigned bits (decimalBytes n) = some n := by
  rw [parseUnsigned_of_digits (decimalBytes_ne_nil n) fun _ hb => isAsciiDigit_of_mem_decimalBytes hb]
  exact readDigits_decimalBytes h

/-- `IntErrorKind`: the errors an unsigned `from_str` returns. -/
inductive IntErrorKind where
  | empty
  | invalidDigit
  | posOverflow
  deriving DecidableEq, Repr

/-- `Display for ParseIntError`. -/
def IntErrorKind.message : IntErrorKind → String
  | .empty => "cannot parse integer from empty string"
  | .invalidDigit => "invalid digit found in string"
  | .posOverflow => "number too large to fit in target type"

/-- `readDigits` with the error it stops at: a byte that is not a digit is
checked first, then the value against `bound`, as `from_str_radix` does. -/
def readDigitsOrError (bound : Nat) : Nat → List UInt8 → Except IntErrorKind Nat
  | acc, [] => .ok acc
  | acc, c :: rest =>
    if isAsciiDigit c then
      if bound ≤ 10 * acc + (c.toNat - 0x30) then .error .posOverflow
      else readDigitsOrError bound (10 * acc + (c.toNat - 0x30)) rest
    else .error .invalidDigit

/-- `u*::from_str` for an unsigned type of `bits` bits, with its error. -/
def fromStrUnsigned (bits : Nat) (src : List UInt8) : Except IntErrorKind Nat :=
  match src with
  | [] => .error .empty
  | c :: rest => if c = 0x2B then (if rest = [] then .error .invalidDigit else readDigitsOrError (2 ^ bits) 0 rest)
    else readDigitsOrError (2 ^ bits) 0 src

theorem readDigitsOrError_toOption (bound : Nat) : ∀ (acc : Nat) (src : List UInt8),
    (readDigitsOrError bound acc src).toOption = readDigits bound acc src
  | _, [] => rfl
  | acc, c :: rest => by
    rw [readDigitsOrError, readDigits]
    split
    · split
      · rfl
      · exact readDigitsOrError_toOption bound _ rest
    · rfl

/-- What `from_str` reads is what `parseUnsigned` reads; only the error is new. -/
theorem fromStrUnsigned_toOption (bits : Nat) (src : List UInt8) :
    (fromStrUnsigned bits src).toOption = parseUnsigned bits src := by
  unfold fromStrUnsigned parseUnsigned
  split
  · rfl
  · split
    · split
      · rfl
      · exact readDigitsOrError_toOption _ _ _
    · exact readDigitsOrError_toOption _ _ _

/-- `to_string` of an unsigned number parses back. -/
theorem fromStrUnsigned_decimalBytes {bits n : Nat} (h : n < 2 ^ bits) :
    fromStrUnsigned bits (decimalBytes n) = .ok n := by
  have hread := (fromStrUnsigned_toOption bits (decimalBytes n)).trans (parseUnsigned_decimalBytes h)
  revert hread
  cases fromStrUnsigned bits (decimalBytes n) <;> simp [Except.toOption]

/-- The one-digit numbers are one byte each. -/
theorem decimalBytes_of_lt_ten {d : Nat} (h : d < 10) : decimalBytes d = [(48 + d).toUInt8] := by
  rw [decimalBytes, Nat.toDigits_of_lt_base h, asciiBytes, List.map_singleton]
  congr 2
  revert d
  decide

/-- `{n:0width$}`: the digits of `n`, with zeros in front up to `width`. -/
def zeroPadded (width n : Nat) : List UInt8 :=
  List.replicate (width - (decimalBytes n).length) 0x30 ++ decimalBytes n

/-- Leading zeros read as nothing. -/
theorem readDigits_replicate_zero {bound : Nat} (hb : 0 < bound) :
    ∀ (k : Nat) (rest : List UInt8), readDigits bound 0 (List.replicate k 0x30 ++ rest) = readDigits bound 0 rest
  | 0, _ => rfl
  | k + 1, rest => by
    rw [List.replicate_succ, List.cons_append, readDigits, if_pos (by decide)]
    rw [if_neg (by simp only [UInt8.reduceToNat]; omega)]
    exact readDigits_replicate_zero hb k rest

theorem isAsciiDigit_of_mem_zeroPadded {width n : Nat} {b : UInt8} (hb : b ∈ zeroPadded width n) :
    isAsciiDigit b = true := by
  rcases List.mem_append.mp hb with hb | hb
  · rw [List.eq_of_mem_replicate hb]
    decide
  · exact isAsciiDigit_of_mem_decimalBytes hb

/-- A zero-padded number parses back. -/
theorem parseUnsigned_zeroPadded {bits n : Nat} (h : n < 2 ^ bits) (width : Nat) :
    parseUnsigned bits (zeroPadded width n) = some n := by
  have hne : zeroPadded width n ≠ [] := by simp [zeroPadded, decimalBytes_ne_nil]
  rw [parseUnsigned_of_digits hne fun _ hb => isAsciiDigit_of_mem_zeroPadded hb, zeroPadded,
    readDigits_replicate_zero (Nat.pos_of_ne_zero (by positivity)), readDigits_decimalBytes h]

/-- `i*::from_str` for a signed type of `bits` bits: an optional `+` or `-`,
then at least one digit, the value in range. -/
def parseSigned (bits : Nat) (src : List UInt8) : Option Int :=
  match src with
  | [] => none
  | c :: rest =>
    if c = 0x2D then
      if rest = [] then none else (readDigits (2 ^ (bits - 1) + 1) 0 rest).map fun n => -(n : Int)
    else (parseUnsigned (bits - 1) src).map fun n => (n : Int)

/-- `str::split_once`: the bytes before the first `sep` and those after it. -/
def splitOnce (sep : UInt8) (bytes : List UInt8) : Option (List UInt8 × List UInt8) :=
  if sep ∈ bytes then some (bytes.takeWhile (· ≠ sep), (bytes.dropWhile (· ≠ sep)).drop 1) else none

theorem parseSigned_decimalBytes {bits n : Nat} (h : n < 2 ^ (bits - 1)) :
    parseSigned bits (decimalBytes n) = some n := by
  cases hbytes : decimalBytes n with
  | nil => exact absurd hbytes (decimalBytes_ne_nil n)
  | cons b rest =>
    have hminus : b ≠ 0x2D := by
      rintro rfl
      exact absurd (isAsciiDigit_of_mem_decimalBytes (hbytes ▸ List.mem_cons_self)) (by decide)
    rw [parseSigned, if_neg hminus, ← hbytes, parseUnsigned_decimalBytes h]
    rfl

theorem parseSigned_neg_decimalBytes {bits n : Nat} (h : n ≤ 2 ^ (bits - 1)) :
    parseSigned bits (0x2D :: decimalBytes n) = some (-(n : Int)) := by
  rw [parseSigned, if_pos rfl, if_neg (decimalBytes_ne_nil n), readDigits_decimalBytes (by omega)]
  rfl

theorem splitOnce_of_not_mem {sep : UInt8} {bytes : List UInt8} (h : sep ∉ bytes) : splitOnce sep bytes = none :=
  if_neg h

theorem splitOnce_append {sep : UInt8} {a : List UInt8} (h : sep ∉ a) (b : List UInt8) :
    splitOnce sep (a ++ sep :: b) = some (a, b) := by
  have hne : ∀ x ∈ a, decide (x ≠ sep) = true := fun x hx => by
    simp only [ne_eq, decide_eq_true_eq]
    rintro rfl
    exact h hx
  rw [splitOnce, if_pos (List.mem_append_right a List.mem_cons_self),
    List.takeWhile_append_of_pos hne, List.dropWhile_append_of_pos hne]
  simp

/-! ## Quoted strings

A string between two quote characters `q`, in which a doubled `q` stands for
one `q` and a single one ends the string, as SQL writes a quoted
identifier. -/

/-- Every `q` doubled. -/
def escapeQuotes (q : Char) (s : List Char) : List Char := s.flatMap fun c => if c = q then [q, q] else [c]

/-- The rest of a quoted string after its opening quote: its text, and the
bytes after the closing quote. -/
def readQuoted (q : Char) : List Char → Option (List Char × List Char)
  | [] => none
  | c :: rest =>
    if c = q then
      match rest with
      | d :: rest' => if d = q then (readQuoted q rest').map fun p => (q :: p.1, p.2) else some ([], d :: rest')
      | [] => some ([], [])
    else (readQuoted q rest).map fun p => (c :: p.1, p.2)

/-- An escaped string reads back whole, whatever it holds, as long as no
quote follows the closing one. -/
theorem readQuoted_escapeQuotes (q : Char) (s : List Char) {rest : List Char} (hrest : rest.head? ≠ some q) :
    readQuoted q (escapeQuotes q s ++ q :: rest) = some (s, rest) := by
  induction s with
  | nil =>
    cases rest with
    | nil => simp [escapeQuotes, readQuoted]
    | cons d rest =>
      have hd : d ≠ q := fun h => hrest (by simp [h])
      simp [escapeQuotes, readQuoted, hd]
  | cons c s ih =>
    by_cases hc : c = q
    · subst hc
      have : escapeQuotes c (c :: s) = c :: c :: escapeQuotes c s := by simp [escapeQuotes]
      rw [this, List.cons_append, List.cons_append, readQuoted, if_pos rfl]
      simp only [ih]
      rfl
    · have : escapeQuotes q (c :: s) = c :: escapeQuotes q s := by simp [escapeQuotes, hc]
      rw [this, List.cons_append, readQuoted.eq_def]
      simp only [if_neg hc, ih, Option.map_some]

end Wire
