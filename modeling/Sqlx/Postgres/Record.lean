import Sqlx.Postgres.Range

/-!
# Postgres — records (`types/record.rs`)

A tuple or a derived composite is decoded by `PgRecordDecoder::new` and one
`try_decode` per field. In the binary format (`record_send`) each field is
its type oid and a length-prefixed value; a composite type's fields are
matched by index, and the fields read back in order
(`decodeRecordBinary_recordSend`).

The text branch walks the bytes of `record_out`'s literal with the flags of
the range loop, fresh for each field, but reads each byte as the character
of that value (`get_u8() as char`): a field's bytes come back re-encoded as
if they were Latin-1, so a multibyte UTF-8 character is mangled. And an empty
buffer is "no field", so a `NULL` last field, which `record_out` writes as
nothing after the last `,`, is an error (`decodeRecordText_recordOut`).
-/

namespace Sqlx.Postgres

open Wire

variable {α : Type}

/-- `try_decode` once for each of `n` fields, as a tuple or a derived record
decodes. -/
def PgRecordDecoder.decodeFields (step : PgRecordDecoder → DecodeM (α × PgRecordDecoder)) :
    Nat → PgRecordDecoder → DecodeM (List α)
  | 0, _ => pure []
  | n + 1, d => do
    let (x, d) ← step d
    let xs ← decodeFields step n d
    pure (x :: xs)

/-! ## The binary format -/

/-- A record of `n` fields in the binary format: `PgRecordDecoder::new`, then
`try_decode` per field. -/
def decodeRecordBinary (tryFromOid compatible : Nat → Bool) (decodeField : Option (List UInt8) → DecodeM α)
    (typ : RecordType) (n : Nat) (buf : List UInt8) : DecodeM (List α) := do
  let d ← panicking (PgRecordDecoder.new typ buf)
  PgRecordDecoder.decodeFields (PgRecordDecoder.tryDecode tryFromOid compatible decodeField) n d

/-- `record_send`: the field count, then each field's type oid and its value. -/
def recordSend (fields : List (Nat × Option (List UInt8))) : List UInt8 :=
  beBytes 4 fields.length ++ fields.flatMap fun field => beBytes 4 field.1 ++ frameValue field.2

section Binary

variable (tryFromOid compatible : Nat → Bool) (decodeField : Option (List UInt8) → DecodeM α)

/-- `PgValueRef::get` on a framed value, as a step of a decoder. -/
theorem PgValueRef.get_frameValue_eq {value : Option (List UInt8)} (hlen : ∀ bytes ∈ value, bytes.length < 2 ^ 31)
    (rest : List UInt8) : PgValueRef.get (frameValue value ++ rest) = pure (value, rest) :=
  ExceptT.ext (PgValueRef.get_frameValue hlen rest)

/-- One field of a composite: its oid is the one the type names at this
index, and its value is decoded. -/
theorem tryDecode_composite {oids : List Nat} {ind oid : Nat} (hoid : oids[ind]? = some oid) (hlt : oid < 2 ^ 32)
    (hcompat : compatible oid = true) {value : Option (List UInt8)} (hlen : ∀ bytes ∈ value, bytes.length < 2 ^ 31)
    (rest : List UInt8) :
    PgRecordDecoder.tryDecode tryFromOid compatible decodeField
        ⟨beBytes 4 oid ++ (frameValue value ++ rest), .composite oids, ind⟩ =
      (decodeField value >>= fun x => pure (x, (⟨rest, .composite oids, ind + 1⟩ : PgRecordDecoder))) := by
  have hne : beBytes 4 oid ++ (frameValue value ++ rest) ≠ [] := by
    simp [← List.length_pos_iff]
  have hget : getU32 (beBytes 4 oid ++ (frameValue value ++ rest)) = some (oid, frameValue value ++ rest) :=
    readBe_beBytes (by omega) _
  simp only [PgRecordDecoder.tryDecode, check_of_pos _ hne, hget, panicking_some, pure_bind, hoid, ne_eq,
    not_true_eq_false, if_false, hcompat, Bool.not_true, Bool.false_or, check_of_pos _ trivial,
    PgValueRef.get_frameValue_eq hlen rest]

/-- The fields after the first `pre`: read in order, each against its own oid. -/
theorem decodeFields_composite (rest : List UInt8) :
    ∀ (fields pre : List (Nat × Option (List UInt8))),
      (∀ field ∈ fields, field.1 < 2 ^ 32 ∧ compatible field.1 = true ∧ ∀ bytes ∈ field.2, bytes.length < 2 ^ 31) →
      PgRecordDecoder.decodeFields (PgRecordDecoder.tryDecode tryFromOid compatible decodeField) fields.length
          ⟨(fields.flatMap fun field => beBytes 4 field.1 ++ frameValue field.2) ++ rest,
            .composite ((pre ++ fields).map Prod.fst), pre.length⟩ =
        (fields.map Prod.snd).mapM decodeField := by
  intro fields
  induction fields with
  | nil => intro pre _; rfl
  | cons field fields ih =>
    intro pre hfields
    obtain ⟨hlt, hcompat, hlen⟩ := hfields field List.mem_cons_self
    have hoid : ((pre ++ field :: fields).map Prod.fst)[pre.length]? = some field.1 := by
      simp
    -- the next fields start after `pre` and this one
    have hnext := ih (pre ++ [field]) (fun f hf => hfields f (List.mem_cons_of_mem field hf))
    rw [List.append_assoc, List.singleton_append, List.length_append, List.length_singleton] at hnext
    have hbuf : ((field :: fields).flatMap fun field => beBytes 4 field.1 ++ frameValue field.2) ++ rest =
        beBytes 4 field.1 ++ (frameValue field.2 ++
          ((fields.flatMap fun field => beBytes 4 field.1 ++ frameValue field.2) ++ rest)) := by
      simp
    rw [List.length_cons, hbuf, PgRecordDecoder.decodeFields,
      tryDecode_composite tryFromOid compatible decodeField hoid hlt hcompat hlen, bind_assoc]
    simp only [pure_bind, hnext, List.map_cons, List.mapM_cons]

/-- **A composite reads back from `record_send`**: every field, in order,
each against the oid its type names at that index. -/
theorem decodeRecordBinary_recordSend (fields : List (Nat × Option (List UInt8)))
    (hfields : ∀ field ∈ fields, field.1 < 2 ^ 32 ∧ compatible field.1 = true ∧
      ∀ bytes ∈ field.2, bytes.length < 2 ^ 31) :
    decodeRecordBinary tryFromOid compatible decodeField (.composite (fields.map Prod.fst)) fields.length
        (recordSend fields) =
      (fields.map Prod.snd).mapM decodeField := by
  have hfirst := decodeFields_composite tryFromOid compatible decodeField [] fields [] hfields
  rw [List.append_nil, List.nil_append, List.length_nil] at hfirst
  -- `new` reads the field count and drops it
  have hnew : PgRecordDecoder.new (.composite (fields.map Prod.fst)) (recordSend fields) =
      some ⟨fields.flatMap fun field => beBytes 4 field.1 ++ frameValue field.2, .composite (fields.map Prod.fst), 0⟩ := by
    rw [PgRecordDecoder.new, recordSend, getU32, readBe_append (length_beBytes 4 _)]
    rfl
  rw [decodeRecordBinary, hnew, panicking_some, pure_bind, hfirst]

end Binary

/-! ## The text format -/

/-- `get_u8() as char`: a byte read as the character with its value. -/
def latin1 (b : UInt8) : Char := Char.ofNat b.toNat

/-- The `while` loop of `try_decode` (text) over the bytes of one field, with
the flags of the range loop, fresh for each field: the field's text, whether
it was quoted, and the bytes after its `,`. -/
def readField (st : RangeScan) (element : List Char) : List UInt8 → List Char × Bool × List UInt8
  | [] => (element, st.quoted, [])
  | b :: rest =>
    let ch := latin1 b
    if st.inEscape then readField { st with inEscape := false, prevCh := ch } (element ++ [ch]) rest
    else if ch = '"' ∧ st.inQuotes = true then readField { st with inQuotes := false, prevCh := ch } element rest
    else if ch = '"' then
      readField { st with inQuotes := true, quoted := true, prevCh := ch }
        (if st.prevCh = '"' then element ++ ['"'] else element) rest
    else if ch = '\\' then readField { st with inEscape := true, prevCh := ch } element rest
    else if ch = ',' ∧ st.inQuotes = false then (element, st.quoted, rest)
    else readField { st with prevCh := ch } (element ++ [ch]) rest

/-- One step of the loop; the lemmas of the scan read it case by case, so
that `readField` is unfolded here only. -/
theorem readField_cons (st : RangeScan) (element : List Char) (b : UInt8) (rest : List UInt8) :
    readField st element (b :: rest) =
      if st.inEscape then readField { st with inEscape := false, prevCh := latin1 b } (element ++ [latin1 b]) rest
      else if latin1 b = '"' ∧ st.inQuotes = true then
        readField { st with inQuotes := false, prevCh := latin1 b } element rest
      else if latin1 b = '"' then
        readField { st with inQuotes := true, quoted := true, prevCh := latin1 b }
          (if st.prevCh = '"' then element ++ ['"'] else element) rest
      else if latin1 b = '\\' then readField { st with inEscape := true, prevCh := latin1 b } element rest
      else if latin1 b = ',' ∧ st.inQuotes = false then (element, st.quoted, rest)
      else readField { st with prevCh := latin1 b } (element ++ [latin1 b]) rest := by
  rw [readField]

/-- `PgRecordDecoder::new` (text): the bytes inside the enclosing `(` and `)`.
The slice `&buf[1..(buf.len() - 1)]` panics on fewer than two bytes. -/
def PgRecordDecoder.newText (typ : RecordType) (buf : List UInt8) : Option PgRecordDecoder :=
  if 2 ≤ buf.length then some ⟨buf.tail.dropLast, typ, 0⟩ else none

/-- `try_decode` (text). `T::decode` gets the bytes of the `String` the
field's characters were pushed to, or `NULL` for a field that is empty and
was not quoted. The text branch leaves `ind` as it is. -/
def PgRecordDecoder.tryDecodeText (decodeField : Option (List UInt8) → DecodeM α) (self : PgRecordDecoder) :
    DecodeM (α × PgRecordDecoder) := do
  let ind := self.ind
  check (self.buf ≠ []) s!"no field `{ind}` found on record"
  let (element, quoted, buf) := readField RangeScan.init [] self.buf
  let value := if element.isEmpty && !quoted then none else some (element.flatMap String.utf8EncodeChar)
  let x ← decodeField value
  pure (x, { self with buf := buf })

/-- A record of `n` fields in the text format. -/
def decodeRecordText (decodeField : Option (List UInt8) → DecodeM α) (typ : RecordType) (n : Nat)
    (buf : List UInt8) : DecodeM (List α) := do
  let d ← panicking (PgRecordDecoder.newText typ buf)
  PgRecordDecoder.decodeFields (PgRecordDecoder.tryDecodeText decodeField) n d

/-! ### What the server writes: `record_out` -/

/-- `isspace` on a byte, in the C locale. -/
def recordIsspace (b : UInt8) : Bool := b = 0x20 || (0x09 ≤ b && b ≤ 0x0D)

/-- `record_out` quotes a field that is empty or holds a quote, a backslash,
a parenthesis, a comma or a space. -/
def fieldNeedsQuote (v : List UInt8) : Bool :=
  v.isEmpty || v.any fun b => b = 0x22 || b = 0x5C || b = 0x28 || b = 0x29 || b = 0x2C || recordIsspace b

/-- `record_out` doubles each quote and backslash. -/
def doubleSpecialBytes (v : List UInt8) : List UInt8 :=
  v.flatMap fun b => if b = 0x22 ∨ b = 0x5C then [b, b] else [b]

/-- A field as `record_out` writes it: nothing for a `NULL`. -/
def fieldOut : Option (List UInt8) → List UInt8
  | none => []
  | some v => if fieldNeedsQuote v then 0x22 :: doubleSpecialBytes v ++ [0x22] else doubleSpecialBytes v

/-- `record_out`: the fields between parentheses, separated by commas. -/
def recordOut (fields : List (Option (List UInt8))) : List UInt8 :=
  0x28 :: [0x2C].intercalate (fields.map fieldOut) ++ [0x29]

/-- A field's bytes once each is read as a character and the characters are
pushed to a `String`: UTF-8 of the bytes taken as Latin-1. -/
def readBack (v : List UInt8) : List UInt8 := v.flatMap fun b => String.utf8EncodeChar (latin1 b)

/-- Whether `record_out` quotes a field. -/
def fieldQuoted (x : Option (List UInt8)) : Bool := (x.map fieldNeedsQuote).getD false

/-! ### The loop, one kind of byte at a time -/

theorem latin1_toNat (b : UInt8) : (latin1 b).toNat = b.toNat := by
  have hb := b.toNat_lt
  rw [latin1, Char.ofNat, dif_pos (Or.inl (by omega))]
  delta Char.ofNatAux
  simp [Char.toNat]

theorem latin1_inj {a b : UInt8} (h : latin1 a = latin1 b) : a = b :=
  UInt8.toNat_inj.mp (by rw [← latin1_toNat, h, latin1_toNat])

section Scan

theorem readField_escaped (q iq : Bool) (p : Char) (b : UInt8) (element : List Char) (rest : List UInt8) :
    readField ⟨q, iq, true, p⟩ element (b :: rest) = readField ⟨q, iq, false, latin1 b⟩ (element ++ [latin1 b]) rest := by
  rw [readField_cons, if_pos rfl]

theorem readField_close (q : Bool) (p : Char) (element : List Char) (rest : List UInt8) :
    readField ⟨q, true, false, p⟩ element (0x22 :: rest) = readField ⟨q, false, false, '"'⟩ element rest := by
  rw [readField_cons, if_neg Bool.false_ne_true, if_pos ⟨rfl, rfl⟩]
  rfl

theorem readField_open (q : Bool) (p : Char) (element : List Char) (rest : List UInt8) :
    readField ⟨q, false, false, p⟩ element (0x22 :: rest) =
      readField ⟨true, true, false, '"'⟩ (if p = '"' then element ++ ['"'] else element) rest := by
  have hquote : latin1 0x22 = '"' := by decide
  rw [readField_cons, if_neg Bool.false_ne_true, if_neg (fun h => Bool.false_ne_true h.2), if_pos hquote]
  rfl

theorem readField_backslash (q iq : Bool) (p : Char) (element : List Char) (rest : List UInt8) :
    readField ⟨q, iq, false, p⟩ element (0x5C :: rest) = readField ⟨q, iq, true, '\\'⟩ element rest := by
  have hquote : latin1 0x5C ≠ '"' := by decide
  have hslash : latin1 0x5C = '\\' := by decide
  rw [readField_cons, if_neg Bool.false_ne_true, if_neg (fun h => hquote h.1), if_neg hquote, if_pos hslash]
  rfl

theorem readField_delimiter (q : Bool) (p : Char) (element : List Char) (rest : List UInt8) :
    readField ⟨q, false, false, p⟩ element (0x2C :: rest) = (element, q, rest) := by
  have hquote : latin1 0x2C ≠ '"' := by decide
  have hcomma : latin1 0x2C = ',' := by decide
  rw [readField_cons, if_neg Bool.false_ne_true, if_neg (fun h => hquote h.1), if_neg hquote, if_neg (by decide),
    if_pos ⟨hcomma, rfl⟩]

/-- Any other byte is text: outside quotes, every one but the `,`. -/
theorem readField_text {q iq : Bool} {p : Char} {b : UInt8} (hquote : b ≠ 0x22) (hslash : b ≠ 0x5C)
    (hdelim : b = 0x2C → iq = true) (element : List Char) (rest : List UInt8) :
    readField ⟨q, iq, false, p⟩ element (b :: rest) = readField ⟨q, iq, false, latin1 b⟩ (element ++ [latin1 b]) rest := by
  have hq : latin1 b ≠ '"' := fun h => hquote (latin1_inj (h.trans rfl))
  have hs : latin1 b ≠ '\\' := fun h => hslash (latin1_inj (h.trans rfl))
  have hend : ¬(latin1 b = ',' ∧ iq = false) := fun h => by
    simp [hdelim (latin1_inj (h.1.trans rfl))] at h
  rw [readField_cons, if_neg Bool.false_ne_true, if_neg (fun h => hq h.1), if_neg hq, if_neg hs, if_neg hend]

theorem doubleSpecialBytes_cons (b : UInt8) (v : List UInt8) :
    doubleSpecialBytes (b :: v) = (if b = 0x22 ∨ b = 0x5C then [b, b] else [b]) ++ doubleSpecialBytes v := by
  simp [doubleSpecialBytes]

/-- Inside quotes the loop reads a doubled field up to its closing quote. -/
theorem readField_doubleSpecialBytes (rest : List UInt8) :
    ∀ (v : List UInt8) (element : List Char) (p : Char),
      readField ⟨true, true, false, p⟩ element (doubleSpecialBytes v ++ 0x22 :: rest) =
        readField ⟨true, false, false, '"'⟩ (element ++ v.map latin1) rest := by
  intro v
  induction v with
  | nil =>
    intro element p
    rw [doubleSpecialBytes, List.flatMap_nil, List.nil_append, readField_close, List.map_nil, List.append_nil]
  | cons b v ih =>
    intro element p
    rw [doubleSpecialBytes_cons]
    by_cases hquote : b = 0x22
    · -- a doubled quote closes the quotes and opens them again
      subst hquote
      rw [if_pos (.inl rfl), List.append_assoc, List.cons_append, List.cons_append, List.nil_append,
        readField_close, readField_open, if_pos rfl, ih, List.map_cons, List.append_assoc, List.singleton_append]
      rfl
    · by_cases hslash : b = 0x5C
      · -- a doubled backslash is an escaped one
        subst hslash
        rw [if_pos (.inr rfl), List.append_assoc, List.cons_append, List.cons_append, List.nil_append,
          readField_backslash, readField_escaped, ih, List.map_cons, List.append_assoc, List.singleton_append]
      · rw [if_neg (by tauto), List.append_assoc, List.singleton_append,
          readField_text hquote hslash (fun _ => rfl), ih, List.map_cons, List.append_assoc, List.singleton_append]

/-- Outside quotes the loop reads a field with no quote, backslash or `,` as it is. -/
theorem readField_plain {v : List UInt8} (hv : ∀ b ∈ v, b ≠ 0x22 ∧ b ≠ 0x5C ∧ b ≠ 0x2C) (q : Bool)
    (rest : List UInt8) :
    ∀ (element : List Char) (p : Char),
      readField ⟨q, false, false, p⟩ element (v ++ rest) =
        readField ⟨q, false, false, (v.map latin1).getLastD p⟩ (element ++ v.map latin1) rest := by
  induction v with
  | nil => intro element p; rw [List.nil_append, List.map_nil, List.append_nil]; rfl
  | cons b v ih =>
    intro element p
    obtain ⟨hquote, hslash, hcomma⟩ := hv b List.mem_cons_self
    rw [List.cons_append, readField_text hquote hslash (fun h => absurd h hcomma),
      ih (fun d hd => hv d (List.mem_cons_of_mem b hd)), List.map_cons, List.append_assoc, List.singleton_append,
      List.getLastD_cons]

end Scan

/-! ### Reading `record_out`'s literal -/

theorem fieldNeedsQuote_eq_false {v : List UInt8} (h : fieldNeedsQuote v = false) :
    v ≠ [] ∧ ∀ b ∈ v, b ≠ 0x22 ∧ b ≠ 0x5C ∧ b ≠ 0x2C := by
  simp only [fieldNeedsQuote, Bool.or_eq_false_iff, List.isEmpty_eq_false_iff, List.any_eq_false] at h
  obtain ⟨hne, hbytes⟩ := h
  refine ⟨hne, fun b hb => ?_⟩
  have hb := hbytes b hb
  simp only [Bool.or_eq_true, decide_eq_true_eq, not_or] at hb
  obtain ⟨⟨⟨⟨⟨hquote, hslash⟩, -⟩, -⟩, hcomma⟩, -⟩ := hb
  exact ⟨hquote, hslash, hcomma⟩

theorem doubleSpecialBytes_of_plain {v : List UInt8} (hv : ∀ b ∈ v, b ≠ 0x22 ∧ b ≠ 0x5C ∧ b ≠ 0x2C) :
    doubleSpecialBytes v = v := by
  induction v with
  | nil => rfl
  | cons b v ih =>
    have hb := hv b List.mem_cons_self
    rw [doubleSpecialBytes_cons, if_neg (by tauto), ih (fun d hd => hv d (List.mem_cons_of_mem b hd))]
    rfl

/-- **One field, as `record_out` writes it, is read as its bytes taken as
characters**, quoted or not, whatever follows it. -/
theorem readField_fieldOut (x : Option (List UInt8)) (tail : List UInt8) :
    ∃ p, readField RangeScan.init [] (fieldOut x ++ tail) =
      readField ⟨fieldQuoted x, false, false, p⟩ ((x.getD []).map latin1) tail := by
  cases x with
  | none => exact ⟨'\x00', rfl⟩
  | some v =>
    by_cases hq : fieldNeedsQuote v
    · -- the opening quote, the doubled bytes and the closing quote
      refine ⟨'"', ?_⟩
      have hquoted : fieldQuoted (some v) = true := by simp [fieldQuoted, hq]
      rw [fieldOut, if_pos hq, List.append_assoc, List.cons_append, List.singleton_append, RangeScan.init,
        readField_open, if_neg (by decide), readField_doubleSpecialBytes, List.nil_append, hquoted, Option.getD_some]
    · have hplain := (fieldNeedsQuote_eq_false (Bool.eq_false_iff.mpr hq)).2
      have hquoted : fieldQuoted (some v) = false := by simp [fieldQuoted, hq]
      refine ⟨(v.map latin1).getLastD '\x00', ?_⟩
      rw [fieldOut, if_neg hq, doubleSpecialBytes_of_plain hplain, RangeScan.init, readField_plain hplain,
        List.nil_append, hquoted, Option.getD_some]

theorem readField_fieldOut_delimiter (x : Option (List UInt8)) (more : List UInt8) :
    readField RangeScan.init [] (fieldOut x ++ 0x2C :: more) = ((x.getD []).map latin1, fieldQuoted x, more) := by
  obtain ⟨p, hp⟩ := readField_fieldOut x (0x2C :: more)
  rw [hp, readField_delimiter]

theorem readField_fieldOut_end (x : Option (List UInt8)) :
    readField RangeScan.init [] (fieldOut x) = ((x.getD []).map latin1, fieldQuoted x, []) := by
  obtain ⟨p, hp⟩ := readField_fieldOut x []
  rw [List.append_nil] at hp
  rw [hp]
  rfl

/-- What `try_decode` hands to `T::decode` for a field `record_out` wrote:
`NULL` for a `NULL`, the field's bytes read back otherwise. -/
theorem fieldValue_eq (x : Option (List UInt8)) :
    (if ((x.getD []).map latin1).isEmpty && !fieldQuoted x then none
      else some (((x.getD []).map latin1).flatMap String.utf8EncodeChar)) = x.map readBack := by
  cases x with
  | none => rfl
  | some v =>
    by_cases hv : v = []
    · subst hv
      rfl
    · have hne : ((v.map latin1).isEmpty && !fieldQuoted (some v)) = false := by simp [hv]
      rw [Option.getD_some, hne, if_neg Bool.false_ne_true, List.flatMap_map]
      rfl

section Fields

variable (decodeField : Option (List UInt8) → DecodeM α) (typ : RecordType) (ind : Nat)

/-- `try_decode` of a field `record_out` wrote, before `rest`. -/
theorem tryDecodeText_of_readField {x : Option (List UInt8)} {buf rest : List UInt8} (hne : buf ≠ [])
    (hread : readField RangeScan.init [] buf = ((x.getD []).map latin1, fieldQuoted x, rest)) :
    PgRecordDecoder.tryDecodeText decodeField ⟨buf, typ, ind⟩ =
      (decodeField (x.map readBack) >>= fun y => pure (y, (⟨rest, typ, ind⟩ : PgRecordDecoder))) := by
  simp only [PgRecordDecoder.tryDecodeText, check_of_pos _ hne, pure_bind, hread, fieldValue_eq]

/-- An empty buffer is no field. -/
theorem tryDecodeText_nil :
    PgRecordDecoder.tryDecodeText decodeField ⟨[], typ, ind⟩ = throw s!"no field `{ind}` found on record" :=
  ExceptT.ext (run_check_bind_of_neg (not_not.mpr rfl))

theorem fieldOut_ne_nil {x : Option (List UInt8)} (hx : x ≠ none) : fieldOut x ≠ [] := by
  cases x with
  | none => exact absurd rfl hx
  | some v =>
    by_cases hq : fieldNeedsQuote v
    · simp [fieldOut, hq]
    · rw [fieldOut, if_neg hq, doubleSpecialBytes_of_plain (fieldNeedsQuote_eq_false (Bool.eq_false_iff.mpr hq)).2]
      exact (fieldNeedsQuote_eq_false (Bool.eq_false_iff.mpr hq)).1

/-- **The fields of `record_out`'s literal are read in order**, when the last
one is not `NULL`. -/
theorem decodeFields_recordOut {x : Option (List UInt8)} (hx : x ≠ none) :
    ∀ fields : List (Option (List UInt8)),
      PgRecordDecoder.decodeFields (PgRecordDecoder.tryDecodeText decodeField) (fields.length + 1)
          ⟨[0x2C].intercalate ((fields ++ [x]).map fieldOut), typ, ind⟩ =
        ((fields ++ [x]).map (Option.map readBack)).mapM decodeField := by
  intro fields
  induction fields with
  | nil =>
    -- the last field runs to the end of the buffer
    rw [List.nil_append, List.map_singleton, List.intercalate_singleton, PgRecordDecoder.decodeFields,
      tryDecodeText_of_readField decodeField typ ind (fieldOut_ne_nil hx) (readField_fieldOut_end x)]
    simp [PgRecordDecoder.decodeFields]
  | cons field fields ih =>
    have hne : (fields ++ [x]).map fieldOut ≠ [] := by simp
    rw [List.cons_append, List.map_cons, List.intercalate_cons_of_ne_nil hne, List.append_assoc,
      List.singleton_append, List.length_cons, PgRecordDecoder.decodeFields,
      tryDecodeText_of_readField decodeField typ ind (by simp) (readField_fieldOut_delimiter field _)]
    simp only [bind_assoc, pure_bind, ih, List.map_cons, List.mapM_cons]

/-- **A `NULL` last field is an error**: `record_out` writes nothing after
the last `,`, and an empty buffer is "no field". -/
theorem decodeFields_recordOut_null_last :
    ∀ fields : List (Option (List UInt8)),
      PgRecordDecoder.decodeFields (PgRecordDecoder.tryDecodeText decodeField) (fields.length + 1)
          ⟨[0x2C].intercalate ((fields ++ [none]).map fieldOut), typ, ind⟩ =
        ((fields.map (Option.map readBack)).mapM decodeField >>= fun _ =>
          throw s!"no field `{ind}` found on record") := by
  intro fields
  induction fields with
  | nil =>
    rw [List.nil_append, List.map_singleton, List.intercalate_singleton, PgRecordDecoder.decodeFields]
    simp only [fieldOut, tryDecodeText_nil, List.map_nil, List.mapM_nil, pure_bind]
    exact ExceptT.ext rfl
  | cons field fields ih =>
    have hne : (fields ++ [none]).map fieldOut ≠ [] := by simp
    rw [List.cons_append, List.map_cons, List.intercalate_cons_of_ne_nil hne, List.append_assoc,
      List.singleton_append, List.length_cons, PgRecordDecoder.decodeFields,
      tryDecodeText_of_readField decodeField typ ind (by simp) (readField_fieldOut_delimiter field _)]
    simp only [bind_assoc, pure_bind, ih, List.map_cons, List.mapM_cons, ExceptT.bind_throw]

theorem newText_recordOut (fields : List (Option (List UInt8))) :
    PgRecordDecoder.newText typ (recordOut fields) = some ⟨[0x2C].intercalate (fields.map fieldOut), typ, 0⟩ := by
  rw [PgRecordDecoder.newText, if_pos (by simp [recordOut]), recordOut, List.cons_append, List.tail_cons,
    List.dropLast_concat]

/-- **A text record read back**: every field in order, each as its bytes
read back, when the last field is not `NULL`. -/
theorem decodeRecordText_recordOut {x : Option (List UInt8)} (hx : x ≠ none) (fields : List (Option (List UInt8))) :
    decodeRecordText decodeField typ (fields.length + 1) (recordOut (fields ++ [x])) =
      ((fields ++ [x]).map (Option.map readBack)).mapM decodeField := by
  rw [decodeRecordText, newText_recordOut, panicking_some, pure_bind, decodeFields_recordOut decodeField typ 0 hx]

/-- A text record whose last field is `NULL`: the fields before it, then the
error of field `0`, since the text branch never counts its fields. -/
theorem decodeRecordText_recordOut_null_last (fields : List (Option (List UInt8))) :
    decodeRecordText decodeField typ (fields.length + 1) (recordOut (fields ++ [none])) =
      ((fields.map (Option.map readBack)).mapM decodeField >>= fun _ => throw "no field `0` found on record") := by
  rw [decodeRecordText, newText_recordOut, panicking_some, pure_bind, decodeFields_recordOut_null_last]
  rfl

end Fields

/-! ### Bytes read back -/

theorem utf8EncodeChar_latin1_of_lt {b : UInt8} (h : b < 0x80) : String.utf8EncodeChar (latin1 b) = [b] := by
  have hv : (latin1 b).val.toNat = b.toNat := latin1_toNat b
  have hlt : b.toNat < 0x80 := h
  simp only [String.utf8EncodeChar, hv, if_pos (show b.toNat ≤ 0x7f by omega), UInt8.ofNat_toNat]

/-- A byte from `0x80` up, read as a character, is two bytes of UTF-8. -/
theorem length_utf8EncodeChar_latin1 {b : UInt8} (h : 0x80 ≤ b) : (String.utf8EncodeChar (latin1 b)).length = 2 := by
  have hv : (latin1 b).val.toNat = b.toNat := latin1_toNat b
  have hge : 0x80 ≤ b.toNat := h
  have hlt := b.toNat_lt
  simp only [String.utf8EncodeChar, hv, if_neg (show ¬b.toNat ≤ 0x7f by omega),
    if_pos (show b.toNat ≤ 0x7ff by omega), List.length_cons, List.length_nil]

theorem length_le_length_readBack (v : List UInt8) : v.length ≤ (readBack v).length := by
  induction v with
  | nil => exact Nat.le_refl 0
  | cons b v ih =>
    have hne := String.utf8EncodeChar_ne_nil (c := latin1 b)
    have hpos : 0 < (String.utf8EncodeChar (latin1 b)).length := List.length_pos_iff.mpr hne
    simp only [readBack, List.flatMap_cons, List.length_append, List.length_cons] at ih ⊢
    omega

/-- **A field reads back as it was written exactly when it is ASCII.** -/
theorem readBack_eq_self_iff (v : List UInt8) : readBack v = v ↔ ∀ b ∈ v, b < 0x80 := by
  induction v with
  | nil => simp [readBack]
  | cons b v ih =>
    have hcons : readBack (b :: v) = String.utf8EncodeChar (latin1 b) ++ readBack v := by
      simp [readBack]
    rw [hcons, List.forall_mem_cons]
    by_cases hb : b < 0x80
    · rw [utf8EncodeChar_latin1_of_lt hb, List.singleton_append, List.cons.injEq, ih]
      exact ⟨fun h => ⟨hb, h.2⟩, fun h => ⟨rfl, h.2⟩⟩
    · -- two bytes for one: the result is longer than the field
      have hlen := length_utf8EncodeChar_latin1 (UInt8.not_lt.mp hb)
      have hrest := length_le_length_readBack v
      refine iff_of_false (fun h => ?_) (fun h => hb h.1)
      have := congrArg List.length h
      simp only [List.length_append, List.length_cons, hlen] at this
      omega

theorem record_text_mangles_utf8_and_null_last :
    (∀ (α : Type) (tryFromOid compatible : Nat → Bool) (decodeField : Option (List UInt8) → DecodeM α)
      (fields : List (Nat × Option (List UInt8))),
      (∀ field ∈ fields, field.1 < 2 ^ 32 ∧ compatible field.1 = true ∧ ∀ bytes ∈ field.2, bytes.length < 2 ^ 31) →
        decodeRecordBinary tryFromOid compatible decodeField (.composite (fields.map Prod.fst)) fields.length
            (recordSend fields) =
          (fields.map Prod.snd).mapM decodeField) ∧
    (∀ (α : Type) (decodeField : Option (List UInt8) → DecodeM α) (typ : RecordType)
      (fields : List (Option (List UInt8))) (x : Option (List UInt8)), x ≠ none →
        decodeRecordText decodeField typ (fields.length + 1) (recordOut (fields ++ [x])) =
          ((fields ++ [x]).map (Option.map readBack)).mapM decodeField) ∧
    (∀ (α : Type) (decodeField : Option (List UInt8) → DecodeM α) (typ : RecordType)
      (fields : List (Option (List UInt8))),
        decodeRecordText decodeField typ (fields.length + 1) (recordOut (fields ++ [none])) =
          ((fields.map (Option.map readBack)).mapM decodeField >>= fun _ => throw "no field `0` found on record")) ∧
    (∀ v : List UInt8, readBack v = v ↔ ∀ b ∈ v, b < 0x80) :=
  ⟨fun _ tryFromOid compatible decodeField fields hfields =>
      decodeRecordBinary_recordSend tryFromOid compatible decodeField fields hfields,
    fun _ decodeField typ fields _ hx => decodeRecordText_recordOut decodeField typ hx fields,
    fun _ decodeField typ fields => decodeRecordText_recordOut_null_last decodeField typ fields,
    readBack_eq_self_iff⟩

/-- The composite `(text 'a', int4 1)` in binary reads back; the text record
`(1,é)` reads its second field as `Ã©`; and `(1,)` is an error. -/
theorem record_text_of_e_acute :
    decodeRecordBinary (fun _ => true) (fun _ => true) (fun value => pure value) (.composite [25, 23]) 2
        (recordSend [(25, some [0x61]), (23, some [0, 0, 0, 1])]) =
      pure [some [0x61], some [0, 0, 0, 1]] ∧
    decodeRecordText (fun value => pure value) .record 2 (recordOut [some [0x31], some [0xC3, 0xA9]]) =
      pure [some [0x31], some [0xC3, 0x83, 0xC2, 0xA9]] ∧
    decodeRecordText (fun value => pure value) .record 2 (recordOut [some [0x31], none]) =
      (throw "no field `0` found on record" : DecodeM (List (Option (List UInt8)))) := by
  refine ⟨?_, ?_, ?_⟩
  · exact (record_text_mangles_utf8_and_null_last.1 _ (fun _ => true) (fun _ => true) (fun value => pure value)
      [(25, some [0x61]), (23, some [0, 0, 0, 1])] (by decide)).trans rfl
  · exact (record_text_mangles_utf8_and_null_last.2.1 _ (fun value => pure value) .record [some [0x31]]
      (some [0xC3, 0xA9]) (by decide)).trans rfl
  · exact (record_text_mangles_utf8_and_null_last.2.2.1 _ (fun value => pure value) .record [some [0x31]]).trans rfl

end Sqlx.Postgres
