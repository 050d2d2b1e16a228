import Sqlx.Lib.Utf8
import Sqlx.Lib.Reader

/-!
# Percent-encoding and `application/x-www-form-urlencoded`

The `percent_encoding` and `form_urlencoded` crates over bytes. An `AsciiSet`
names the ASCII bytes an encoding escapes; a byte outside ASCII is always
escaped, as `%` and two uppercase hex digits. `percentDecode` turns each `%`
followed by two hex digits back into its byte and leaves every other byte,
a lone `%` included, as it is.

Decoding undoes encoding exactly when the set escapes `%`
(`percentDecode_utf8PercentEncode`). Over a set that leaves `%` alone, a
`%41` in the input is decoded as `A` (`percentDecode_of_unescaped_percent`).
The form serializer escapes everything its parser splits on, so a list of
name-value pairs of well-formed text is read back as itself
(`parse_serializePairs`).
-/

namespace PercentEncoding

/-- A set of ASCII bytes to escape. -/
structure AsciiSet where
  contains : UInt8 → Bool

/-- `AsciiSet::add`. -/
def AsciiSet.add (set : AsciiSet) (byte : UInt8) : AsciiSet := ⟨fun b => set.contains b || b == byte⟩

/-- Adds each of the (ASCII) characters. -/
def AsciiSet.addChars (set : AsciiSet) (cs : List Char) : AsciiSet :=
  cs.foldl (fun set c => set.add c.toNat.toUInt8) set

/-- `CONTROLS`: the C0 controls and DEL. -/
def CONTROLS : AsciiSet := ⟨fun b => b < 0x20 || b == 0x7F⟩

/-- `NON_ALPHANUMERIC`: every ASCII byte but the letters and digits. -/
def NON_ALPHANUMERIC : AsciiSet := ⟨fun b => !Wire.isAsciiAlphanumeric b⟩

/-- `AsciiSet::should_percent_encode`: a byte outside ASCII always is. -/
def AsciiSet.shouldPercentEncode (set : AsciiSet) (b : UInt8) : Bool := 0x80 ≤ b || set.contains b

/-- An uppercase hex digit. -/
def hexUpper (n : Nat) : UInt8 := if n < 10 then (0x30 + n).toUInt8 else (0x37 + n).toUInt8

/-- `percent_encode_byte`: `%` and two uppercase hex digits. -/
def percentEncodeByte (b : UInt8) : List UInt8 := [0x25, hexUpper (b.toNat / 16), hexUpper (b.toNat % 16)]

/-- `utf8_percent_encode` and `percent_encode`. -/
def utf8PercentEncode (input : List UInt8) (set : AsciiSet) : List UInt8 :=
  input.flatMap fun b => if set.shouldPercentEncode b then percentEncodeByte b else [b]

/-- `char::to_digit(16)` of a byte. -/
def hexValue (b : UInt8) : Option Nat :=
  if 0x30 ≤ b ∧ b ≤ 0x39 then some (b.toNat - 0x30)
  else if 0x41 ≤ b ∧ b ≤ 0x46 then some (b.toNat - 0x37)
  else if 0x61 ≤ b ∧ b ≤ 0x66 then some (b.toNat - 0x57)
  else none

/-- `percent_decode`. -/
def percentDecode : List UInt8 → List UInt8
  | [] => []
  | b :: h :: l :: rest =>
    if b = 0x25 then
      match hexValue h, hexValue l with
      | some hi, some lo => (hi * 16 + lo).toUInt8 :: percentDecode rest
      | _, _ => b :: percentDecode (h :: l :: rest)
    else b :: percentDecode (h :: l :: rest)
  | b :: rest => b :: percentDecode rest

/-- Three bytes or more: an escape when the first is `%`. The lemmas below
unfold `percentDecode` through this one. -/
theorem percentDecode_cons_cons_cons (b h l : UInt8) (rest : List UInt8) :
    percentDecode (b :: h :: l :: rest) =
      if b = 0x25 then
        match hexValue h, hexValue l with
        | some hi, some lo => (hi * 16 + lo).toUInt8 :: percentDecode rest
        | _, _ => b :: percentDecode (h :: l :: rest)
      else b :: percentDecode (h :: l :: rest) := rfl

/-- A text with nothing in the set is written as it is. -/
theorem utf8PercentEncode_of_forall {set : AsciiSet} : ∀ {input : List UInt8},
    (∀ b ∈ input, set.shouldPercentEncode b = false) → utf8PercentEncode input set = input
  | [], _ => rfl
  | b :: bs, h => by
    rw [utf8PercentEncode, List.flatMap_cons, ← utf8PercentEncode, if_neg (by simp [h b List.mem_cons_self]),
      utf8PercentEncode_of_forall fun x hx => h x (List.mem_cons_of_mem b hx)]
    rfl

/-! ## Percent-decoding undoes percent-encoding -/

theorem hexValue_hexUpper : ∀ n : Nat, n < 16 → hexValue (hexUpper n) = some n := by decide

theorem percentDecode_percentEncodeByte (b : UInt8) (rest : List UInt8) :
    percentDecode (percentEncodeByte b ++ rest) = b :: percentDecode rest := by
  have hb : b.toNat < 256 := b.toNat_lt
  rw [percentEncodeByte, List.cons_append, List.cons_append, List.cons_append, List.nil_append,
    percentDecode_cons_cons_cons, if_pos rfl]
  simp only [hexValue_hexUpper _ (show b.toNat / 16 < 16 by omega),
    hexValue_hexUpper _ (show b.toNat % 16 < 16 by omega)]
  rw [show b.toNat / 16 * 16 + b.toNat % 16 = b.toNat by omega, Nat.toUInt8_eq, UInt8.ofNat_toNat]

theorem percentDecode_cons_of_ne {b : UInt8} (h : b ≠ 0x25) (rest : List UInt8) :
    percentDecode (b :: rest) = b :: percentDecode rest := by
  match rest with
  | [] => rfl
  | [_] => rfl
  | _ :: _ :: _ => rw [percentDecode_cons_cons_cons, if_neg h]

/-- Text with no `%` decodes to itself. -/
theorem percentDecode_of_forall_ne : ∀ {input : List UInt8}, (∀ b ∈ input, b ≠ 0x25) → percentDecode input = input
  | [], _ => rfl
  | b :: rest, h => by
    rw [percentDecode_cons_of_ne (h b List.mem_cons_self),
      percentDecode_of_forall_ne fun c hc => h c (List.mem_cons_of_mem b hc)]

/-- **Decoding undoes encoding** over a set that escapes `%`. -/
theorem percentDecode_utf8PercentEncode {set : AsciiSet} (hpct : set.contains 0x25 = true) :
    ∀ (input rest : List UInt8),
      percentDecode (utf8PercentEncode input set ++ rest) = input ++ percentDecode rest
  | [], rest => rfl
  | b :: bs, rest => by
    rw [utf8PercentEncode, List.flatMap_cons, ← utf8PercentEncode, List.append_assoc]
    by_cases hb : set.shouldPercentEncode b = true
    · rw [if_pos hb, percentDecode_percentEncodeByte, percentDecode_utf8PercentEncode hpct bs rest]
      rfl
    · -- a byte left as it is is not `%`, since `%` is escaped
      have hne : b ≠ 0x25 := by
        rintro rfl
        simp [AsciiSet.shouldPercentEncode, hpct] at hb
      rw [if_neg hb, List.singleton_append, percentDecode_cons_of_ne hne,
        percentDecode_utf8PercentEncode hpct bs rest]
      rfl

/-- Over a set that leaves `%` alone, an escape in the input is decoded. -/
theorem percentDecode_of_unescaped_percent {set : AsciiSet} (h : set.contains 0x25 = false)
    (hi lo : UInt8) (hhi : set.shouldPercentEncode hi = false) (hlo : set.shouldPercentEncode lo = false)
    {x y : Nat} (hx : hexValue hi = some x) (hy : hexValue lo = some y) :
    percentDecode (utf8PercentEncode [0x25, hi, lo] set) = [(x * 16 + y).toUInt8] := by
  have hpct : set.shouldPercentEncode 0x25 = false := by simp [AsciiSet.shouldPercentEncode, h]
  simp only [utf8PercentEncode, List.flatMap_cons, List.flatMap_nil, hpct, hhi, hlo, Bool.false_eq_true,
    if_false, List.singleton_append, List.append_nil]
  rw [percentDecode_cons_cons_cons, if_pos rfl]
  simp only [hx, hy]
  rfl

/-! ## `application/x-www-form-urlencoded` -/

/-- The bytes `byte_serialize` leaves as they are. -/
def byteSerializedUnchanged (b : UInt8) : Bool :=
  Wire.isAsciiAlphanumeric b || b == 0x2A || b == 0x2D || b == 0x2E || b == 0x5F

/-- `byte_serialize`: a space becomes `+`, and what is not left as it is is escaped. -/
def byteSerialize (input : List UInt8) : List UInt8 :=
  input.flatMap fun b =>
    if byteSerializedUnchanged b then [b] else if b = 0x20 then [0x2B] else percentEncodeByte b

/-- `replace_plus`. -/
def replacePlus (input : List UInt8) : List UInt8 := input.map fun b => if b = 0x2B then 0x20 else b

/-- `decode` of a name or a value: `+` is a space, then the escapes, then
`decode_utf8_lossy`. -/
def decode (input : List UInt8) : List UInt8 := Utf8.lossy (percentDecode (replacePlus input))

/-- A sequence split at its first `sep`; the second part is empty when there
is none (`splitn(2, ..)`). -/
def splitFirst (sep : UInt8) (sequence : List UInt8) : List UInt8 × List UInt8 :=
  (sequence.takeWhile (· != sep), (sequence.dropWhile (· != sep)).drop 1)

/-- `form_urlencoded::parse`: the sequences between `&`, the empty ones
skipped, each split at its first `=`. -/
def parse (input : List UInt8) : List (List UInt8 × List UInt8) :=
  ((input.splitOn 0x26).filter (· ≠ [])).map fun sequence =>
    let (name, value) := splitFirst 0x3D sequence
    (decode name, decode value)

/-- One serialized pair, as `Serializer::append_pair` writes it. -/
def serializePair (pair : List UInt8 × List UInt8) : List UInt8 :=
  byteSerialize pair.1 ++ 0x3D :: byteSerialize pair.2

/-- The pairs `append_pair` writes one after another into an empty query. -/
def serializePairs (pairs : List (List UInt8 × List UInt8)) : List UInt8 :=
  [0x26].intercalate (pairs.map serializePair)

/-- `replace_plus` goes through a concatenation. -/
theorem replacePlus_append (a b : List UInt8) : replacePlus (a ++ b) = replacePlus a ++ replacePlus b :=
  List.map_append

theorem replacePlus_of_forall_ne : ∀ {bs : List UInt8}, (∀ b ∈ bs, b ≠ 0x2B) → replacePlus bs = bs
  | [], _ => rfl
  | b :: bs, h => by
    rw [replacePlus, List.map_cons, if_neg (h b List.mem_cons_self), ← replacePlus,
      replacePlus_of_forall_ne fun x hx => h x (List.mem_cons_of_mem b hx)]

/-- The bytes the form parser reads specially, and `%`, are never left as they are. -/
theorem ne_of_byteSerializedUnchanged {b : UInt8} (h : byteSerializedUnchanged b = true) :
    b ≠ 0x26 ∧ b ≠ 0x3D ∧ b ≠ 0x2B ∧ b ≠ 0x25 := by
  refine ⟨?_, ?_, ?_, ?_⟩ <;> rintro rfl <;> revert h <;> decide

/-- An escape is `%` and two hex digits, none of them `&`, `=` or `+`. -/
theorem ne_of_mem_percentEncodeByte {b c : UInt8} (hc : c ∈ percentEncodeByte b) :
    c ≠ 0x26 ∧ c ≠ 0x3D ∧ c ≠ 0x2B := by
  have hlt : b.toNat < 256 := b.toNat_lt
  have hhex : ∀ n : Nat, n < 16 → hexUpper n ≠ 0x26 ∧ hexUpper n ≠ 0x3D ∧ hexUpper n ≠ 0x2B := by decide
  simp only [percentEncodeByte, List.mem_cons, List.not_mem_nil, or_false] at hc
  rcases hc with rfl | rfl | rfl
  · decide
  · exact hhex _ (by omega)
  · exact hhex _ (by omega)

/-- What `byte_serialize` writes holds no `&` and no `=`, the bytes the form
parser splits on. -/
theorem not_separator_of_mem_byteSerialize {input : List UInt8} {c : UInt8} (hc : c ∈ byteSerialize input) :
    c ≠ 0x26 ∧ c ≠ 0x3D := by
  obtain ⟨b, -, hb⟩ := List.mem_flatMap.mp hc
  by_cases hu : byteSerializedUnchanged b = true
  · rw [if_pos hu, List.mem_singleton] at hb
    subst hb
    exact ⟨(ne_of_byteSerializedUnchanged hu).1, (ne_of_byteSerializedUnchanged hu).2.1⟩
  · rw [if_neg hu] at hb
    by_cases hsp : b = 0x20
    · rw [if_pos hsp, List.mem_singleton] at hb
      subst hb
      decide
    · rw [if_neg hsp] at hb
      exact ⟨(ne_of_mem_percentEncodeByte hb).1, (ne_of_mem_percentEncodeByte hb).2.1⟩

theorem decode_byteSerialize_append (input rest : List UInt8) :
    percentDecode (replacePlus (byteSerialize input ++ rest)) = input ++ percentDecode (replacePlus rest) := by
  induction input with
  | nil => rfl
  | cons b bs ih =>
    rw [byteSerialize, List.flatMap_cons, ← byteSerialize, List.append_assoc, replacePlus_append]
    by_cases hu : byteSerializedUnchanged b = true
    · -- a byte left as it is is neither `+` nor `%`
      have hb := ne_of_byteSerializedUnchanged hu
      rw [if_pos hu, replacePlus_of_forall_ne (by simpa using hb.2.2.1), List.singleton_append,
        percentDecode_cons_of_ne hb.2.2.2, ih]
      rfl
    · rw [if_neg hu]
      by_cases hsp : b = 0x20
      · -- a space comes back from its `+`
        subst hsp
        rw [if_pos rfl, show replacePlus [0x2B] = [0x20] from rfl, List.singleton_append,
          percentDecode_cons_of_ne (by decide), ih]
        rfl
      · rw [if_neg hsp, replacePlus_of_forall_ne fun c hc => (ne_of_mem_percentEncodeByte hc).2.2,
          percentDecode_percentEncodeByte, ih]
        rfl

/-- A serialized name or value of well-formed text decodes to itself. -/
theorem decode_byteSerialize {input : List UInt8} (h : Utf8.valid input = true) :
    decode (byteSerialize input) = input := by
  have hdec := decode_byteSerialize_append input []
  have hnil : percentDecode (replacePlus []) = [] := rfl
  rw [List.append_nil, hnil, List.append_nil] at hdec
  rw [decode, hdec, Utf8.lossy_of_valid h]

theorem splitFirst_serializePair (pair : List UInt8 × List UInt8) :
    splitFirst 0x3D (serializePair pair) = (byteSerialize pair.1, byteSerialize pair.2) := by
  have hname : ∀ c ∈ byteSerialize pair.1, (c != 0x3D) = true := fun c hc => by
    simpa using (not_separator_of_mem_byteSerialize hc).2
  rw [splitFirst, serializePair, List.takeWhile_append_of_pos hname, List.dropWhile_append_of_pos hname]
  simp

theorem serializePair_ne_nil (pair : List UInt8 × List UInt8) : serializePair pair ≠ [] := by
  simp [serializePair]

/-- **The form parser reads back the serialized pairs** of well-formed text. -/
theorem parse_serializePairs (pairs : List (List UInt8 × List UInt8))
    (hvalid : ∀ pair ∈ pairs, Utf8.valid pair.1 = true ∧ Utf8.valid pair.2 = true) :
    parse (serializePairs pairs) = pairs := by
  cases pairs with
  | nil => rfl
  | cons p ps =>
    -- no serialized pair holds a `&`, so the split gives the pairs back
    have hsep : ∀ l ∈ (p :: ps).map serializePair, (0x26 : UInt8) ∉ l := by
      intro l hl h26
      obtain ⟨q, -, rfl⟩ := List.mem_map.mp hl
      rw [serializePair, List.mem_append, List.mem_cons] at h26
      rcases h26 with h | h | h
      · exact (not_separator_of_mem_byteSerialize h).1 rfl
      · exact absurd h (by decide)
      · exact (not_separator_of_mem_byteSerialize h).1 rfl
    rw [parse, serializePairs, List.splitOn_intercalate 0x26 hsep (by simp)]
    have hne : ((p :: ps).map serializePair).filter (· ≠ []) = (p :: ps).map serializePair :=
      List.filter_eq_self.mpr fun l hl => by
        obtain ⟨q, -, rfl⟩ := List.mem_map.mp hl
        simpa using serializePair_ne_nil q
    rw [hne, List.map_map]
    refine (List.map_congr_left ?_).trans (List.map_id _)
    intro q hq
    simp only [Function.comp, splitFirst_serializePair, decode_byteSerialize (hvalid q hq).1,
      decode_byteSerialize (hvalid q hq).2, id]


theorem parse_nil : parse [] = [] := rfl

/-- The pairs of two queries joined by `&`: those of each, in order. -/
theorem parse_append_amp (a b : List UInt8) : parse (a ++ 0x26 :: b) = parse a ++ parse b := by
  rw [parse, parse, parse, List.splitOn_append_cons_self, List.filter_append, List.map_append]

/-- One serialized pair of well-formed text reads back as itself. -/
theorem parse_serializePair {pair : List UInt8 × List UInt8} (h : Utf8.valid pair.1 = true ∧ Utf8.valid pair.2 = true) :
    parse (serializePair pair) = [pair] := by
  have hone := parse_serializePairs [pair] (by simpa using h)
  simpa [serializePairs] using hone

end PercentEncoding
