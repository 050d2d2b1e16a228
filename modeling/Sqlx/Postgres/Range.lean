import Sqlx.Postgres.ArrayText
import Sqlx.Postgres.ArgumentFrames

/-!
# Postgres — ranges (`types/range.rs`)

`PgRange<T>` is two `Bound<T>`s. In the binary format a range is a flags
byte (`RangeFlags`, the bits of `rangetypes.h`) and one length-prefixed
element for each bounded side: `encode_by_ref` sets `LB_INC`/`UB_INC` for an
included side and `LB_INF`/`UB_INF` for an unbounded one, and the decoder
reads an element exactly when the `INF` bit is clear. For an element type
whose binary codec round-trips, decoding what `encode_by_ref` wrote gives the
range back (`decodeBinary_rangeBytes`), and of the flags `range_send` writes
only `EMPTY` decodes to the same range as `(,)`.

The text branch is a character loop over the literal between its brackets;
its flags are in `RangeScan`. `quoted` and `prev_ch` are never reset between
the two bounds, so after a quoted lower bound an empty upper side is read as
the element `""`, and a quoted upper bound gets a leading `"`
(`decodeText_rangeOut`). The brackets are read by byte index before any
length check, so the empty literal panics.
-/

namespace Sqlx.Postgres

open Wire

/-- `std::ops::Bound`. -/
inductive Bound (α : Type) where
  | included (v : α)
  | excluded (v : α)
  | unbounded
  deriving DecidableEq, Repr

/-- The element of a bounded side. -/
def Bound.value? {α : Type} : Bound α → Option α
  | .included v => some v
  | .excluded v => some v
  | .unbounded => none

/-- Whether a side is `Bound::Included`. -/
def Bound.isIncluded {α : Type} : Bound α → Bool
  | .included _ => true
  | _ => false

/-- Whether a side is `Bound::Unbounded`. -/
def Bound.isUnbounded {α : Type} : Bound α → Bool
  | .unbounded => true
  | _ => false

@[simp] theorem Bound.isIncluded_included {α : Type} (v : α) : (Bound.included v).isIncluded = true := rfl
@[simp] theorem Bound.isIncluded_excluded {α : Type} (v : α) : (Bound.excluded v).isIncluded = false := rfl
@[simp] theorem Bound.isIncluded_unbounded {α : Type} : (Bound.unbounded : Bound α).isIncluded = false := rfl
@[simp] theorem Bound.isUnbounded_included {α : Type} (v : α) : (Bound.included v).isUnbounded = false := rfl
@[simp] theorem Bound.isUnbounded_excluded {α : Type} (v : α) : (Bound.excluded v).isUnbounded = false := rfl
@[simp] theorem Bound.isUnbounded_unbounded {α : Type} : (Bound.unbounded : Bound α).isUnbounded = true := rfl

/-- `PgRange<T>`. -/
structure PgRange (α : Type) where
  start : Bound α
  «end» : Bound α
  deriving DecidableEq, Repr

namespace RangeFlags

/-- `RangeFlags::EMPTY`. -/
def EMPTY : UInt8 := 0x01
/-- `RangeFlags::LB_INC`. -/
def LB_INC : UInt8 := 0x02
/-- `RangeFlags::UB_INC`. -/
def UB_INC : UInt8 := 0x04
/-- `RangeFlags::LB_INF`. -/
def LB_INF : UInt8 := 0x08
/-- `RangeFlags::UB_INF`. -/
def UB_INF : UInt8 := 0x10

/-- `flags.contains(flag)`. `from_bits_truncate` keeps every bit of the byte:
the eight bits are all named flags. -/
def contains (flags flag : UInt8) : Bool := flags &&& flag == flag

end RangeFlags

open RangeFlags

/-! ## The binary format -/

section Binary

variable {α : Type}

/-- The flag `encode_by_ref` sets for the lower side. -/
def lowerFlags : Bound α → UInt8
  | .included _ => LB_INC
  | .unbounded => LB_INF
  | .excluded _ => 0

/-- The flag `encode_by_ref` sets for the upper side. -/
def upperFlags : Bound α → UInt8
  | .included _ => UB_INC
  | .unbounded => UB_INF
  | .excluded _ => 0

@[simp] theorem lowerFlags_included (v : α) : lowerFlags (.included v) = LB_INC := rfl
@[simp] theorem lowerFlags_unbounded : lowerFlags (.unbounded : Bound α) = LB_INF := rfl
@[simp] theorem lowerFlags_excluded (v : α) : lowerFlags (.excluded v) = 0 := rfl
@[simp] theorem upperFlags_included (v : α) : upperFlags (.included v) = UB_INC := rfl
@[simp] theorem upperFlags_unbounded : upperFlags (.unbounded : Bound α) = UB_INF := rfl
@[simp] theorem upperFlags_excluded (v : α) : upperFlags (.excluded v) = 0 := rfl

/-- `buf.encode(v)?` for a bounded side, nothing for an unbounded one. -/
def boundEncoder (sizeHint : α → Nat) (encodeElement : α → Encoder) : Bound α → Encoder → Encoder
  | .included v, next => .encode (sizeHint v) (encodeElement v) next
  | .excluded v, next => .encode (sizeHint v) (encodeElement v) next
  | .unbounded, next => next

/-- `Encode for PgRange<T>`: the flags byte, then the lower and the upper element. -/
def PgRange.encoder (sizeHint : α → Nat) (encodeElement : α → Encoder) (r : PgRange α) : Encoder :=
  .extend [lowerFlags r.start ||| upperFlags r.end] <|
    boundEncoder sizeHint encodeElement r.start <| boundEncoder sizeHint encodeElement r.end <| .done .no

/-- `Buf::get_u8`, which panics on an empty buffer. -/
def getU8 : List UInt8 → Option (UInt8 × List UInt8)
  | [] => none
  | b :: rest => some (b, rest)

/-- One side of the binary decoder: no element when `inf` is set, otherwise
`PgValueRef::get` and `T::decode`, the side included when `inc` is set. -/
def decodeBound (decodeElement : Option (List UInt8) → DecodeM α) (inf inc : Bool) (buf : List UInt8) :
    DecodeM (Bound α × List UInt8) :=
  if inf then pure (.unbounded, buf)
  else do
    let (value, buf) ← PgValueRef.get buf
    let v ← decodeElement value
    pure (if inc then .included v else .excluded v, buf)

/-- `Decode for PgRange<T>` (binary). `isRange` is whether the value's type is
a range type, `typeName` how it prints. -/
def PgRange.decodeBinary (typeName : String) (isRange : Bool) (decodeElement : Option (List UInt8) → DecodeM α)
    (buf : List UInt8) : DecodeM (PgRange α) := do
  check isRange s!"unexpected non-range type {typeName}"
  let (flags, buf) ← panicking (getU8 buf)
  if RangeFlags.contains flags EMPTY then pure ⟨.unbounded, .unbounded⟩
  else do
    let (start, buf) ←
      decodeBound decodeElement (RangeFlags.contains flags LB_INF) (RangeFlags.contains flags LB_INC) buf
    let (end_, _) ←
      decodeBound decodeElement (RangeFlags.contains flags UB_INF) (RangeFlags.contains flags UB_INC) buf
    pure ⟨start, end_⟩

/-- `IsNull` of a value written as `bytes`, `none` for a NULL. -/
def nullOf {β : Type} : Option β → IsNull
  | none => .yes
  | some _ => .no

/-- An element type whose binary codec round-trips: `encode_by_ref` writes
each value as plain bytes (no type hole and no patch, so nothing is filled
in afterwards), or nothing for a NULL, within the `i32` sizes; and
`T::decode` reads the value back from them. -/
structure BinaryCodec (α : Type) where
  sizeHint : α → Nat
  encoder : α → Encoder
  decode : Option (List UInt8) → DecodeM α
  bytes : α → Option (List UInt8)
  output_eq : ∀ v, (encoder v).output = .ok (nullOf (bytes v), ⟨(bytes v).getD [], [], []⟩)
  sizeHint_le : ∀ v, sizeHint v ≤ 2147483647
  length_lt : ∀ v, ∀ b ∈ bytes v, b.length < 2 ^ 31
  decode_bytes : ∀ v, (decode (bytes v)).run = some (.ok v)

/-- The frame of a bounded side, nothing for an unbounded one. -/
def boundFrame (bytes : α → Option (List UInt8)) (b : Bound α) : List UInt8 :=
  (b.value?.map fun v => frameValue (bytes v)).getD []

/-- The bytes of a range: its flags, then the frame of each bounded side. -/
def rangeBytes (bytes : α → Option (List UInt8)) (r : PgRange α) : List UInt8 :=
  (lowerFlags r.start ||| upperFlags r.end) :: (boundFrame bytes r.start ++ boundFrame bytes r.end)

/-! ### The flags -/

theorem contains_flags_EMPTY (s e : Bound α) : RangeFlags.contains (lowerFlags s ||| upperFlags e) EMPTY = false := by
  cases s <;> cases e <;> simp <;> decide

theorem contains_flags_LB_INF (s e : Bound α) :
    RangeFlags.contains (lowerFlags s ||| upperFlags e) LB_INF = s.isUnbounded := by
  cases s <;> cases e <;> simp <;> decide

theorem contains_flags_LB_INC (s e : Bound α) :
    RangeFlags.contains (lowerFlags s ||| upperFlags e) LB_INC = s.isIncluded := by
  cases s <;> cases e <;> simp <;> decide

theorem contains_flags_UB_INF (s e : Bound α) :
    RangeFlags.contains (lowerFlags s ||| upperFlags e) UB_INF = e.isUnbounded := by
  cases s <;> cases e <;> simp <;> decide

theorem contains_flags_UB_INC (s e : Bound α) :
    RangeFlags.contains (lowerFlags s ||| upperFlags e) UB_INC = e.isIncluded := by
  cases s <;> cases e <;> simp <;> decide

/-! ### Writing and reading a side -/

variable (c : BinaryCodec α)

/-- `PgArgumentBuffer::encode` frames an element as a container reads it. -/
theorem frameOf_codec (v : α) :
    (frameOf (c.sizeHint v) (c.encoder v).output).map Frame.written = .ok ⟨frameValue (c.bytes v), [], []⟩ := by
  have hhint : valueSizeInt4Checked (c.sizeHint v) = .ok (c.sizeHint v) := if_pos (c.sizeHint_le v)
  unfold frameOf
  rw [hhint, c.output_eq v]
  cases hb : c.bytes v with
  | none => rfl
  | some b =>
    have hlen : valueSizeInt4Checked b.length = .ok b.length := if_pos (by have := c.length_lt v b hb; omega)
    simp only [nullOf, Option.getD_some, hlen]
    rfl

theorem boundEncoder_output (b : Bound α) (next : Encoder) :
    (boundEncoder c.sizeHint c.encoder b next).output = after ⟨boundFrame c.bytes b, [], []⟩ next.output := by
  -- a bounded side is one nested `encode`
  have hside : ∀ v, (Encoder.encode (c.sizeHint v) (c.encoder v) next).output =
      after ⟨frameValue (c.bytes v), [], []⟩ next.output := by
    intro v
    have hframe := frameOf_codec c v
    rw [Encoder.output]
    cases hf : frameOf (c.sizeHint v) (c.encoder v).output with
    | error e => rw [hf] at hframe; cases hframe
    | ok f =>
      rw [hf] at hframe
      have hwritten : f.written = ⟨frameValue (c.bytes v), [], []⟩ := Except.ok.inj hframe
      show after f.written next.output = _
      rw [hwritten]
  cases b with
  | included v => exact hside v
  | excluded v => exact hside v
  | unbounded => exact (after_nil _).symm

/-- **`encode_by_ref` writes the flags and a frame per bounded side.** -/
theorem PgRange.encoder_output (r : PgRange α) :
    (r.encoder c.sizeHint c.encoder).output = .ok (.no, ⟨rangeBytes c.bytes r, [], []⟩) := by
  rw [PgRange.encoder, Encoder.output, boundEncoder_output, boundEncoder_output]
  simp only [Encoder.output, after_ok, Written.empty, Written.bytes_only_append, List.append_nil]
  rfl

theorem decodeBound_boundFrame (b : Bound α) (rest : List UInt8) :
    (decodeBound c.decode b.isUnbounded b.isIncluded (boundFrame c.bytes b ++ rest)).run = some (.ok (b, rest)) := by
  cases b with
  | included v =>
    simp only [decodeBound, Bound.isUnbounded, Bound.isIncluded, boundFrame, Bound.value?, Option.map_some,
      Option.getD_some, Bool.false_eq_true, if_false, if_true]
    rw [run_bind_of_ok (PgValueRef.get_frameValue (c.length_lt v) rest), run_bind_of_ok (c.decode_bytes v)]
    rfl
  | excluded v =>
    simp only [decodeBound, Bound.isUnbounded, Bound.isIncluded, boundFrame, Bound.value?, Option.map_some,
      Option.getD_some, Bool.false_eq_true, if_false]
    rw [run_bind_of_ok (PgValueRef.get_frameValue (c.length_lt v) rest), run_bind_of_ok (c.decode_bytes v)]
    rfl
  | unbounded => rfl

theorem run_panicking_getU8 (b : UInt8) (rest : List UInt8) :
    (panicking (getU8 (b :: rest))).run = some (.ok (b, rest)) := rfl

/-- **A range reads back from what `encode_by_ref` wrote**, whatever follows it. -/
theorem decodeBinary_rangeBytes (typeName : String) (r : PgRange α) (rest : List UInt8) :
    (PgRange.decodeBinary typeName true c.decode (rangeBytes c.bytes r ++ rest)).run = some (.ok r) := by
  obtain ⟨s, e⟩ := r
  rw [PgRange.decodeBinary, run_check_bind_of_pos rfl, rangeBytes, List.cons_append, run_bind_of_ok
    (run_panicking_getU8 _ _)]
  simp only [contains_flags_EMPTY, Bool.false_eq_true, if_false, contains_flags_LB_INF, contains_flags_LB_INC,
    contains_flags_UB_INF, contains_flags_UB_INC, List.append_assoc]
  rw [run_bind_of_ok (decodeBound_boundFrame c s _)]
  dsimp only
  rw [run_bind_of_ok (decodeBound_boundFrame c e rest)]
  rfl

/-! ### What the server sends -/

/-- A range as the server holds it: `empty`, or two sides. -/
inductive ServerRange (α : Type) where
  | empty
  | bounds (lower upper : Bound α)

/-- `range_send`: the flags, then the element of each side that has one. An
infinite bound is never inclusive, so the flags of two sides are the ones
`encode_by_ref` sets; an element is sent as the element type sends it, here
as the codec writes it. -/
def rangeSend (bytes : α → Option (List UInt8)) : ServerRange α → List UInt8
  | .empty => [EMPTY]
  | .bounds lower upper => rangeBytes bytes ⟨lower, upper⟩

theorem decodeBinary_rangeSend_empty (typeName : String) (decodeElement : Option (List UInt8) → DecodeM α)
    (bytes : α → Option (List UInt8)) :
    (PgRange.decodeBinary typeName true decodeElement (rangeSend bytes .empty)).run =
      some (.ok ⟨.unbounded, .unbounded⟩) := by
  rw [rangeSend, PgRange.decodeBinary, run_check_bind_of_pos rfl, run_bind_of_ok (run_panicking_getU8 _ _)]
  rfl

/-- Only `empty` and `(,)` decode to `(,)`. -/
theorem decodeBinary_rangeSend_eq_unbounded_iff (typeName : String) (s : ServerRange α) :
    (PgRange.decodeBinary typeName true c.decode (rangeSend c.bytes s)).run = some (.ok ⟨.unbounded, .unbounded⟩) ↔
      s = .empty ∨ s = .bounds .unbounded .unbounded := by
  cases s with
  | empty => exact iff_of_true (decodeBinary_rangeSend_empty typeName c.decode c.bytes) (.inl rfl)
  | bounds lower upper =>
    have h := decodeBinary_rangeBytes c typeName ⟨lower, upper⟩ []
    rw [List.append_nil] at h
    rw [rangeSend, h]
    simp

/-- `BOOL` (`types/bool.rs`): one byte, read back as `byte != 0`. -/
def boolCodec : BinaryCodec Bool where
  sizeHint _ := 1
  encoder b := .extend [if b then 1 else 0] (.done .no)
  decode
    | none => throw "unexpected null; try decoding as an `Option`"
    | some bytes => do
      let (b, _) ← panicking (getU8 bytes)
      pure (b != 0)
  bytes b := some [if b then 1 else 0]
  output_eq b := by cases b <;> rfl
  sizeHint_le _ := by decide
  length_lt b bytes h := by
    cases h
    simp
  decode_bytes b := by cases b <;> rfl

/-- **The binary codec of ranges round-trips**: for every element type whose
binary codec round-trips, `encode_by_ref` writes the flags and a frame per
bounded side, and the decoder reads the range back; from what `range_send`
writes, decoding then encoding gives the same bytes, but for `empty`, which
decodes to `(,)` like `(,)` itself and nothing else. -/
theorem range_binary_round_trip :
    (∀ (α : Type) (c : BinaryCodec α) (typeName : String) (r : PgRange α),
      (r.encoder c.sizeHint c.encoder).output = .ok (.no, ⟨rangeBytes c.bytes r, [], []⟩) ∧
        (PgRange.decodeBinary typeName true c.decode (rangeBytes c.bytes r)).run = some (.ok r)) ∧
    (∀ (α : Type) (c : BinaryCodec α) (typeName : String) (lower upper : Bound α),
      ∃ r, (PgRange.decodeBinary typeName true c.decode (rangeSend c.bytes (.bounds lower upper))).run =
          some (.ok r) ∧
        (r.encoder c.sizeHint c.encoder).output = .ok (.no, ⟨rangeSend c.bytes (.bounds lower upper), [], []⟩)) ∧
    (∀ (α : Type) (c : BinaryCodec α) (typeName : String),
      (PgRange.decodeBinary typeName true c.decode (rangeSend c.bytes .empty)).run =
          some (.ok ⟨.unbounded, .unbounded⟩) ∧
        ((⟨.unbounded, .unbounded⟩ : PgRange α).encoder c.sizeHint c.encoder).output =
          .ok (.no, ⟨rangeSend c.bytes (.bounds .unbounded .unbounded), [], []⟩) ∧
        rangeSend c.bytes .empty ≠ rangeSend c.bytes (.bounds .unbounded .unbounded)) ∧
    (∀ (α : Type) (c : BinaryCodec α) (typeName : String) (s : ServerRange α),
      (PgRange.decodeBinary typeName true c.decode (rangeSend c.bytes s)).run =
          some (.ok ⟨.unbounded, .unbounded⟩) ↔
        s = .empty ∨ s = .bounds .unbounded .unbounded) := by
  -- what the decoder reads back, with nothing after the range
  have hdecode : ∀ (α : Type) (c : BinaryCodec α) (typeName : String) (r : PgRange α),
      (PgRange.decodeBinary typeName true c.decode (rangeBytes c.bytes r)).run = some (.ok r) := by
    intro α c typeName r
    have h := decodeBinary_rangeBytes c typeName r []
    rwa [List.append_nil] at h
  refine ⟨fun α c typeName r => ⟨PgRange.encoder_output c r, hdecode α c typeName r⟩, ?_, ?_,
    fun α c typeName s => decodeBinary_rangeSend_eq_unbounded_iff c typeName s⟩
  · intro α c typeName lower upper
    exact ⟨⟨lower, upper⟩, hdecode α c typeName ⟨lower, upper⟩, PgRange.encoder_output c ⟨lower, upper⟩⟩
  · intro α c typeName
    refine ⟨decodeBinary_rangeSend_empty typeName c.decode c.bytes, PgRange.encoder_output c _, ?_⟩
    -- the flags differ: `EMPTY` against `LB_INF | UB_INF`
    intro h
    have hflags : EMPTY = LB_INF ||| UB_INF := List.head_eq_of_cons_eq h
    exact absurd hflags (by decide)

/-- `[false,)` of booleans, and the empty range. -/
theorem range_binary_of_bool_lower :
    (PgRange.decodeBinary "BOOLRANGE" true boolCodec.decode
        (rangeBytes boolCodec.bytes ⟨.included false, .unbounded⟩)).run = some (.ok ⟨.included false, .unbounded⟩) ∧
      rangeBytes boolCodec.bytes ⟨.included false, .unbounded⟩ = [0x12, 0, 0, 0, 1, 0] :=
  ⟨(range_binary_round_trip.1 Bool boolCodec "BOOLRANGE" ⟨.included false, .unbounded⟩).2, by decide⟩

end Binary

/-! ## The text format -/

section Text

variable {α : Type}

/-- The flags of the text branch's loop. The source resets only the element
between the two bounds, so these carry over from the lower to the upper. -/
structure RangeScan where
  quoted : Bool
  inQuotes : Bool
  inEscape : Bool
  prevCh : Char
  deriving DecidableEq, Repr

/-- The flags before the first character: `prev_ch` is `'\0'`. -/
def RangeScan.init : RangeScan := ⟨false, false, false, '\x00'⟩

/-- The end of an element: `count += 1`; an element that is nonempty or was
quoted is decoded and kept as the lower bound, then the upper one. -/
def finishElement (decodeElement : List Char → DecodeM α) (quoted : Bool) (element : List Char) (count : Nat)
    (start end_ : Option α) : DecodeM (Nat × Option α × Option α) := do
  let count := count + 1
  if !element.isEmpty || quoted then do
    let value ← decodeElement element
    if count = 1 then pure (count, some value, end_)
    else if count = 2 then pure (count, start, some value)
    else throw "more than 2 elements found in a range"
  else pure (count, start, end_)

/-- The two loops of the text branch, as one pass over the characters: an
unquoted `,` or the end finishes an element. -/
def scanRange (decodeElement : List Char → DecodeM α) (st : RangeScan) (element : List Char) (count : Nat)
    (start end_ : Option α) : List Char → DecodeM (Option α × Option α)
  | [] => do
    let (_, start, end_) ← finishElement decodeElement st.quoted element count start end_
    pure (start, end_)
  | ch :: rest =>
    if st.inEscape then
      scanRange decodeElement { st with inEscape := false, prevCh := ch } (element ++ [ch]) count start end_ rest
    else if ch = '"' ∧ st.inQuotes = true then
      scanRange decodeElement { st with inQuotes := false, prevCh := ch } element count start end_ rest
    else if ch = '"' then
      -- a quote right after a quote is a doubled quote
      scanRange decodeElement { st with inQuotes := true, quoted := true, prevCh := ch }
        (if st.prevCh = '"' then element ++ ['"'] else element) count start end_ rest
    else if ch = '\\' then
      scanRange decodeElement { st with inEscape := true, prevCh := ch } element count start end_ rest
    else if ch = ',' ∧ st.inQuotes = false then do
      -- the break skips prev_ch = ch
      let (count, start, end_) ← finishElement decodeElement st.quoted element count start end_
      scanRange decodeElement st [] count start end_ rest
    else scanRange decodeElement { st with prevCh := ch } (element ++ [ch]) count start end_ rest

/-- `parse_bound`. -/
def parseBound (ch : Char) : Option α → DecodeM (Bound α)
  | some value =>
    if ch = '(' ∨ ch = ')' then pure (.excluded value)
    else if ch = '[' ∨ ch = ']' then pure (.included value)
    else throw s!"expected `(`, ')', '[', or `]` but found `{ch}` for range literal"
  | none => pure .unbounded

/-- `Decode for PgRange<T>` (text). `sb[0]` and `sb[sb.len() - 1]` are bytes
read as characters; once the slice `&s[1..(s.len() - 1)]` succeeds both are
one-byte characters, so they are the first and the last character. -/
def PgRange.decodeText (decodeElement : List Char → DecodeM α) (s : List Char) : DecodeM (PgRange α) := do
  let inner ← panicking (trimBraces s)
  let (start, end_) ← scanRange decodeElement RangeScan.init [] 0 none none inner
  let start ← parseBound (s.headD '\x00') start
  let end_ ← parseBound (s.getLastD '\x00') end_
  pure ⟨start, end_⟩

/-- `String::decode` of a text value. -/
def decodeString (text : List Char) : DecodeM (List Char) := pure text

/-! ### What the server writes: `range_out` -/

/-- `range_bound_escape`'s test: an empty value, or one holding a quote, a
backslash, a bracket, a parenthesis, a comma or a space, is quoted. -/
def boundNeedsQuote (v : List Char) : Bool :=
  v.isEmpty || v.any fun c => c = '"' || c = '\\' || c = '(' || c = ')' || c = '[' || c = ']' || c = ',' ||
    arrayIsspace c

/-- `range_bound_escape` doubles each quote and backslash. -/
def doubleSpecials (v : List Char) : List Char :=
  v.flatMap fun c => if c = '"' ∨ c = '\\' then [c, c] else [c]

/-- `range_bound_escape`. -/
def rangeBoundEscape (v : List Char) : List Char :=
  if boundNeedsQuote v then '"' :: doubleSpecials v ++ ['"'] else doubleSpecials v

/-- One side of `range_out`'s literal: the bound as `out` prints it, escaped,
or nothing. -/
def sideOut (out : α → List Char) (b : Bound α) : List Char :=
  (b.value?.map fun v => rangeBoundEscape (out v)).getD []

/-- `range_out` of a range that is not empty. -/
def rangeOut (out : α → List Char) (r : PgRange α) : List Char :=
  (if r.start.isIncluded then '[' else '(') ::
    (sideOut out r.start ++ ',' :: (sideOut out r.end ++ [if r.end.isIncluded then ']' else ')']))

/-! ### What the decoder reads of it -/

/-- Whether `range_out` quotes a side. -/
def boundQuoted (out : α → List Char) (b : Bound α) : Bool :=
  (b.value?.map fun v => boundNeedsQuote (out v)).getD false

/-- The text the decoder hands to `T::decode` for the lower bound. -/
def lowerRead (out : α → List Char) (r : PgRange α) : Option (List Char) := r.start.value?.map out

/-- The text the decoder hands to `T::decode` for the upper bound. After a
quoted lower bound, an unbounded side is the quoted empty text, and a quoted
upper bound keeps a quote in front: its opening quote follows the lower
bound's closing one. -/
def upperRead (out : α → List Char) (r : PgRange α) : Option (List Char) :=
  match r.end.value? with
  | none => if boundQuoted out r.start then some [] else none
  | some v => some (if boundQuoted out r.start && boundNeedsQuote (out v) then '"' :: out v else out v)

/-- A side of the same kind as `b`, with the value decoded for it. -/
def withValue {β : Type} (b : Bound α) : Option β → Bound β
  | some v => if b.isIncluded then .included v else .excluded v
  | none => .unbounded

/-! ### The loop, one kind of character at a time -/

section Scan

variable (dec : List Char → DecodeM α) (count : Nat) (start end_ : Option α)

/-- One step of the loop; the lemmas below read it case by case, so that
`scanRange` is unfolded here only. -/
theorem scanRange_cons (st : RangeScan) (element : List Char) (ch : Char) (rest : List Char) :
    scanRange dec st element count start end_ (ch :: rest) =
      if st.inEscape then scanRange dec { st with inEscape := false, prevCh := ch } (element ++ [ch]) count start end_ rest
      else if ch = '"' ∧ st.inQuotes = true then
        scanRange dec { st with inQuotes := false, prevCh := ch } element count start end_ rest
      else if ch = '"' then
        scanRange dec { st with inQuotes := true, quoted := true, prevCh := ch }
          (if st.prevCh = '"' then element ++ ['"'] else element) count start end_ rest
      else if ch = '\\' then scanRange dec { st with inEscape := true, prevCh := ch } element count start end_ rest
      else if ch = ',' ∧ st.inQuotes = false then do
        let (count, start, end_) ← finishElement dec st.quoted element count start end_
        scanRange dec st [] count start end_ rest
      else scanRange dec { st with prevCh := ch } (element ++ [ch]) count start end_ rest := by
  rw [scanRange]

theorem scanRange_escaped (q iq : Bool) (p ch : Char) (element rest : List Char) :
    scanRange dec ⟨q, iq, true, p⟩ element count start end_ (ch :: rest) =
      scanRange dec ⟨q, iq, false, ch⟩ (element ++ [ch]) count start end_ rest := by
  rw [scanRange_cons, if_pos rfl]

theorem scanRange_close (q : Bool) (p : Char) (element rest : List Char) :
    scanRange dec ⟨q, true, false, p⟩ element count start end_ ('"' :: rest) =
      scanRange dec ⟨q, false, false, '"'⟩ element count start end_ rest := by
  rw [scanRange_cons, if_neg Bool.false_ne_true, if_pos ⟨rfl, rfl⟩]

theorem scanRange_open (q : Bool) (p : Char) (element rest : List Char) :
    scanRange dec ⟨q, false, false, p⟩ element count start end_ ('"' :: rest) =
      scanRange dec ⟨true, true, false, '"'⟩ (if p = '"' then element ++ ['"'] else element) count start end_ rest := by
  rw [scanRange_cons, if_neg Bool.false_ne_true, if_neg (fun h => Bool.false_ne_true h.2), if_pos rfl]

theorem scanRange_backslash (q iq : Bool) (p : Char) (element rest : List Char) :
    scanRange dec ⟨q, iq, false, p⟩ element count start end_ ('\\' :: rest) =
      scanRange dec ⟨q, iq, true, '\\'⟩ element count start end_ rest := by
  have hquote : ('\\' : Char) ≠ '"' := by decide
  rw [scanRange_cons, if_neg Bool.false_ne_true, if_neg (fun h => hquote h.1), if_neg hquote, if_pos rfl]

theorem scanRange_delimiter (q : Bool) (p : Char) (element rest : List Char) :
    scanRange dec ⟨q, false, false, p⟩ element count start end_ (',' :: rest) = (do
      let (count, start, end_) ← finishElement dec q element count start end_
      scanRange dec ⟨q, false, false, p⟩ [] count start end_ rest) := by
  have hquote : (',' : Char) ≠ '"' := by decide
  rw [scanRange_cons, if_neg Bool.false_ne_true, if_neg (fun h => hquote h.1), if_neg hquote, if_neg (by decide),
    if_pos ⟨rfl, rfl⟩]

/-- Any other character is text: outside quotes, every one but the `,`. -/
theorem scanRange_text {q iq : Bool} {p ch : Char} (hquote : ch ≠ '"') (hslash : ch ≠ '\\')
    (hdelim : ch = ',' → iq = true) (element rest : List Char) :
    scanRange dec ⟨q, iq, false, p⟩ element count start end_ (ch :: rest) =
      scanRange dec ⟨q, iq, false, ch⟩ (element ++ [ch]) count start end_ rest := by
  have hend : ¬(ch = ',' ∧ iq = false) := fun h => by simp [hdelim h.1] at h
  rw [scanRange_cons, if_neg Bool.false_ne_true, if_neg (fun h => hquote h.1), if_neg hquote, if_neg hslash, if_neg hend]

theorem scanRange_nil (st : RangeScan) (element : List Char) :
    scanRange dec st element count start end_ [] = (do
      let (_, start, end_) ← finishElement dec st.quoted element count start end_
      pure (start, end_)) := by
  rw [scanRange]

theorem doubleSpecials_cons (c : Char) (v : List Char) :
    doubleSpecials (c :: v) = (if c = '"' ∨ c = '\\' then [c, c] else [c]) ++ doubleSpecials v := by
  simp [doubleSpecials]

/-- Inside quotes the loop reads a doubled text up to its closing quote. -/
theorem scanRange_doubleSpecials (rest : List Char) :
    ∀ (v element : List Char) (p : Char),
      scanRange dec ⟨true, true, false, p⟩ element count start end_ (doubleSpecials v ++ '"' :: rest) =
        scanRange dec ⟨true, false, false, '"'⟩ (element ++ v) count start end_ rest := by
  intro v
  induction v with
  | nil =>
    intro element p
    rw [doubleSpecials, List.flatMap_nil, List.nil_append, scanRange_close, List.append_nil]
  | cons c v ih =>
    intro element p
    rw [doubleSpecials_cons]
    by_cases hquote : c = '"'
    · -- a doubled quote closes the quotes and opens them again
      subst hquote
      rw [if_pos (.inl rfl), List.append_assoc, List.cons_append, List.cons_append, List.nil_append,
        scanRange_close, scanRange_open, if_pos rfl, ih, List.append_assoc, List.singleton_append]
    · by_cases hslash : c = '\\'
      · -- a doubled backslash is an escaped one
        subst hslash
        rw [if_pos (.inr rfl), List.append_assoc, List.cons_append, List.cons_append, List.nil_append,
          scanRange_backslash, scanRange_escaped, ih, List.append_assoc, List.singleton_append]
      · rw [if_neg (by tauto), List.append_assoc, List.singleton_append,
          scanRange_text dec count start end_ hquote hslash (fun _ => rfl), ih, List.append_assoc,
          List.singleton_append]

/-- Outside quotes the loop reads a text with no quote, backslash or `,` as it is. -/
theorem scanRange_plain {v : List Char} (hv : ∀ c ∈ v, c ≠ '"' ∧ c ≠ '\\' ∧ c ≠ ',') (q : Bool) (rest : List Char) :
    ∀ (element : List Char) (p : Char),
      scanRange dec ⟨q, false, false, p⟩ element count start end_ (v ++ rest) =
        scanRange dec ⟨q, false, false, v.getLastD p⟩ (element ++ v) count start end_ rest := by
  induction v with
  | nil => intro element p; rw [List.nil_append, List.append_nil]; rfl
  | cons c v ih =>
    intro element p
    obtain ⟨hquote, hslash, hcomma⟩ := hv c List.mem_cons_self
    rw [List.cons_append, scanRange_text dec count start end_ hquote hslash (fun h => absurd h hcomma),
      ih (fun d hd => hv d (List.mem_cons_of_mem c hd)), List.append_assoc, List.singleton_append, List.getLastD_cons]

end Scan

theorem boundNeedsQuote_eq_false {v : List Char} (h : boundNeedsQuote v = false) :
    v ≠ [] ∧ ∀ c ∈ v, c ≠ '"' ∧ c ≠ '\\' ∧ c ≠ ',' := by
  simp only [boundNeedsQuote, Bool.or_eq_false_iff, List.isEmpty_eq_false_iff, List.any_eq_false] at h
  obtain ⟨hne, hchars⟩ := h
  refine ⟨hne, fun c hc => ?_⟩
  have hc := hchars c hc
  simp only [Bool.or_eq_true, decide_eq_true_eq, not_or] at hc
  obtain ⟨⟨⟨⟨⟨⟨⟨hquote, hslash⟩, -⟩, -⟩, -⟩, -⟩, hcomma⟩, -⟩ := hc
  exact ⟨hquote, hslash, hcomma⟩

theorem doubleSpecials_of_plain {v : List Char} (hv : ∀ c ∈ v, c ≠ '"' ∧ c ≠ '\\' ∧ c ≠ ',') :
    doubleSpecials v = v := by
  induction v with
  | nil => rfl
  | cons c v ih =>
    have hc := hv c List.mem_cons_self
    rw [doubleSpecials_cons, if_neg (by tauto), ih (fun d hd => hv d (List.mem_cons_of_mem c hd))]
    rfl

/-- A plain bound does not end in a quote. -/
theorem getLastD_ne_quote_of_plain {v : List Char} (hv : boundNeedsQuote v = false) (p : Char) :
    v.getLastD p ≠ '"' := by
  obtain ⟨hne, hchars⟩ := boundNeedsQuote_eq_false hv
  rw [List.getLastD_eq_getLast?, List.getLast?_eq_some_getLast hne, Option.getD_some]
  exact (hchars _ (List.getLast_mem hne)).1

/-! ### Reading `range_out`'s literal -/

section Literal

variable (dec : List Char → DecodeM α) (out : α → List Char)

/-- One bound, escaped as `range_out` writes it, read into the element: a
quoted one after a quote keeps that quote in front. -/
theorem scanRange_rangeBoundEscape (count : Nat) (start end_ : Option α) (q : Bool) (p : Char) (v rest : List Char) :
    scanRange dec ⟨q, false, false, p⟩ [] count start end_ (rangeBoundEscape v ++ rest) =
      if boundNeedsQuote v then
        scanRange dec ⟨true, false, false, '"'⟩ (if p = '"' then '"' :: v else v) count start end_ rest
      else scanRange dec ⟨q, false, false, v.getLastD p⟩ v count start end_ rest := by
  by_cases hq : boundNeedsQuote v
  · rw [rangeBoundEscape, if_pos hq, if_pos hq, List.append_assoc, List.cons_append, List.singleton_append,
      scanRange_open, scanRange_doubleSpecials]
    by_cases hp : p = '"'
    · rw [if_pos hp, if_pos hp]
      rfl
    · rw [if_neg hp, if_neg hp, List.nil_append]
  · have hplain := (boundNeedsQuote_eq_false (Bool.eq_false_iff.mpr hq)).2
    rw [rangeBoundEscape, if_neg hq, if_neg hq, doubleSpecials_of_plain hplain, scanRange_plain dec count start end_
      hplain q rest [] p, List.nil_append]

/-- The first `finishElement`: the element, if any, is the lower bound. -/
theorem finishElement_zero (quoted : Bool) (element : List Char) :
    finishElement dec quoted element 0 none none =
      ((if !element.isEmpty || quoted then some element else none).mapM dec >>= fun start => pure (1, start, none)) := by
  by_cases h : (!element.isEmpty || quoted) = true
  · simp [finishElement, h]
  · simp only [finishElement, if_neg h]
    rfl

/-- The second `finishElement`: the element, if any, is the upper bound. -/
theorem finishElement_one (quoted : Bool) (element : List Char) (start : Option α) :
    finishElement dec quoted element 1 start none =
      ((if !element.isEmpty || quoted then some element else none).mapM dec >>= fun end_ => pure (2, start, end_)) := by
  by_cases h : (!element.isEmpty || quoted) = true
  · simp [finishElement, h]
  · simp only [finishElement, if_neg h]
    rfl

/-- **The lower side**: up to its `,`, the loop decodes the lower bound's text,
and leaves the flags with `quoted` set exactly when the bound was quoted, and
`prev_ch` a quote exactly then. -/
theorem scanRange_lower (r : PgRange α) (rest : List Char) :
    ∃ p, (p = '"' ↔ boundQuoted out r.start = true) ∧
      scanRange dec RangeScan.init [] 0 none none (sideOut out r.start ++ ',' :: rest) =
        ((lowerRead out r).mapM dec >>= fun start =>
          scanRange dec ⟨boundQuoted out r.start, false, false, p⟩ [] 1 start none rest) := by
  cases hs : r.start.value? with
  | none =>
    -- an unbounded side: an empty element, never quoted
    have hside : sideOut out r.start = [] := by simp [sideOut, hs]
    have hquoted : boundQuoted out r.start = false := by simp [boundQuoted, hs]
    refine ⟨'\x00', by rw [hquoted]; decide, ?_⟩
    rw [hside, List.nil_append, hquoted, lowerRead, hs, RangeScan.init, scanRange_delimiter, finishElement_zero]
    simp
  | some v =>
    have hside : sideOut out r.start = rangeBoundEscape (out v) := by simp [sideOut, hs]
    rw [hside, RangeScan.init, scanRange_rangeBoundEscape, lowerRead, hs]
    by_cases hq : boundNeedsQuote (out v)
    · have hquoted : boundQuoted out r.start = true := by simp [boundQuoted, hs, hq]
      refine ⟨'"', iff_of_true rfl hquoted, ?_⟩
      rw [if_pos hq, if_neg (by decide), scanRange_delimiter, finishElement_zero, hquoted, Bool.or_true, if_pos rfl]
      simp
    · have hquoted : boundQuoted out r.start = false := by simp [boundQuoted, hs, hq]
      have hne := (boundNeedsQuote_eq_false (Bool.eq_false_iff.mpr hq)).1
      refine ⟨(out v).getLastD '\x00',
        iff_of_false (getLastD_ne_quote_of_plain (Bool.eq_false_iff.mpr hq) _) (by rw [hquoted]; decide), ?_⟩
      rw [if_neg hq, scanRange_delimiter, finishElement_zero, hquoted,
        if_pos (by simpa using hne)]
      simp

/-- **The upper side**: to the end, the loop decodes what `upperRead` says,
given the flags the lower side left. -/
theorem scanRange_upper (r : PgRange α) {p : Char} (hp : p = '"' ↔ boundQuoted out r.start = true) (start : Option α) :
    scanRange dec ⟨boundQuoted out r.start, false, false, p⟩ [] 1 start none (sideOut out r.end) =
      ((upperRead out r).mapM dec >>= fun end_ => pure (start, end_)) := by
  cases he : r.end.value? with
  | none =>
    have hside : sideOut out r.end = [] := by simp [sideOut, he]
    rw [hside, scanRange_nil, finishElement_one, upperRead, he]
    cases boundQuoted out r.start <;> simp
  | some w =>
    have hside : sideOut out r.end = rangeBoundEscape (out w) := by simp [sideOut, he]
    rw [hside, ← List.append_nil (rangeBoundEscape (out w)), scanRange_rangeBoundEscape, upperRead, he]
    dsimp only
    by_cases hq : boundNeedsQuote (out w)
    · -- a quoted upper bound: its opening quote right after a closing one is doubled
      rw [if_pos hq, scanRange_nil, finishElement_one, Bool.or_true, if_pos rfl, hq, Bool.and_true]
      by_cases hquoted : boundQuoted out r.start = true
      · rw [if_pos (hp.mpr hquoted), if_pos hquoted]
        simp
      · rw [if_neg (mt hp.mp hquoted), if_neg hquoted]
        simp
    · have hne := (boundNeedsQuote_eq_false (Bool.eq_false_iff.mpr hq)).1
      rw [if_neg hq, scanRange_nil, finishElement_one, if_pos (by simp [hne])]
      simp [Bool.eq_false_iff.mpr hq]

theorem trimBraces_rangeOut (r : PgRange α) :
    trimBraces (rangeOut out r) = some (sideOut out r.start ++ ',' :: sideOut out r.end) := by
  have hlast : rangeOut out r = ((if r.start.isIncluded then '[' else '(') ::
      (sideOut out r.start ++ ',' :: sideOut out r.end)) ++ [if r.end.isIncluded then ']' else ')'] := by
    simp [rangeOut]
  rw [hlast, trimBraces, if_pos]
  · rw [List.cons_append, List.tail_cons, List.dropLast_concat]
  · refine ⟨by simp; omega, ?_, ?_⟩
    · rw [List.cons_append, List.head?_cons]
      cases r.start.isIncluded <;> rfl
    · rw [List.getLast?_concat]
      cases r.end.isIncluded <;> rfl

/-- `parse_bound` at the opening bracket `range_out` wrote keeps the side's kind. -/
theorem parseBound_open (b : Bound α) (value : Option α) :
    parseBound (if b.isIncluded then '[' else '(') value = pure (withValue b value) := by
  cases value with
  | none => rfl
  | some v => cases hb : b.isIncluded <;> simp [parseBound, withValue, hb]

/-- `parse_bound` at the closing bracket `range_out` wrote keeps the side's kind. -/
theorem parseBound_close (b : Bound α) (value : Option α) :
    parseBound (if b.isIncluded then ']' else ')') value = pure (withValue b value) := by
  cases value with
  | none => rfl
  | some v => cases hb : b.isIncluded <;> simp [parseBound, withValue, hb]

/-- **What the decoder makes of `range_out`'s literal**: the lower bound's
text and then the text `upperRead` gives, each through `T::decode`, each side
of the kind its bracket says. -/
theorem decodeText_rangeOut (r : PgRange α) :
    PgRange.decodeText dec (rangeOut out r) = (do
      let start ← (lowerRead out r).mapM dec
      let end_ ← (upperRead out r).mapM dec
      pure ⟨withValue r.start start, withValue r.end end_⟩) := by
  obtain ⟨p, hp, hlower⟩ := scanRange_lower dec out r (sideOut out r.end)
  have hinner : panicking (trimBraces (rangeOut out r)) = pure (sideOut out r.start ++ ',' :: sideOut out r.end) := by
    rw [trimBraces_rangeOut]
    rfl
  have hhead : (rangeOut out r).headD '\x00' = if r.start.isIncluded then '[' else '(' := rfl
  have hlast : (rangeOut out r).getLastD '\x00' = if r.end.isIncluded then ']' else ')' := by
    rw [rangeOut, List.getLastD_cons, ← List.cons_append, ← List.append_assoc, List.getLastD_concat]
  rw [PgRange.decodeText, hinner, pure_bind, hlower, hhead, hlast]
  simp only [bind_assoc, scanRange_upper dec out r hp, pure_bind, parseBound_open, parseBound_close]

theorem withValue_value? (b : Bound α) : withValue b b.value? = b := by
  cases b <;> rfl

/-- After a lower bound that is not quoted, the upper text is the bound's own. -/
theorem upperRead_of_plain {r : PgRange α} (h : boundQuoted out r.start = false) :
    upperRead out r = r.end.value?.map out := by
  cases he : r.end.value? with
  | none => simp [upperRead, he, h]
  | some w => simp [upperRead, he, h]

/-- **A range whose lower bound is not quoted reads back**, when the element
type's text codec round-trips. -/
theorem decodeText_rangeOut_of_plain_lower (hdec : ∀ v, (dec (out v)).run = some (.ok v)) (r : PgRange α)
    (hplain : boundQuoted out r.start = false) :
    (PgRange.decodeText dec (rangeOut out r)).run = some (.ok r) := by
  -- each side's text decodes to its value
  have hside : ∀ b : Bound α, ((b.value?.map out).mapM dec).run = some (.ok b.value?) := by
    intro b
    cases b.value? with
    | none => rfl
    | some v =>
      rw [Option.map_some, Option.mapM_some, map_eq_pure_bind, ExceptT.run_bind, hdec v]
      rfl
  rw [decodeText_rangeOut, upperRead_of_plain out hplain, lowerRead, run_bind_of_ok (hside r.start),
    run_bind_of_ok (hside r.end), withValue_value?, withValue_value?]
  rfl

end Literal

/-! ### Panics -/

theorem run_finishElement_ne_none {dec : List Char → DecodeM α} (hdec : ∀ t, (dec t).run ≠ none) (quoted : Bool)
    (element : List Char) (count : Nat) (start end_ : Option α) :
    (finishElement dec quoted element count start end_).run ≠ none := by
  unfold finishElement
  split
  · refine run_bind_ne_none (hdec element) fun value => ?_
    split
    · exact Option.some_ne_none _
    · split <;> exact Option.some_ne_none _
  · exact Option.some_ne_none _

/-- The loop never panics when `T::decode` does not. -/
theorem run_scanRange_ne_none {dec : List Char → DecodeM α} (hdec : ∀ t, (dec t).run ≠ none) (chars : List Char) :
    ∀ (st : RangeScan) (element : List Char) (count : Nat) (start end_ : Option α),
      (scanRange dec st element count start end_ chars).run ≠ none := by
  induction chars with
  | nil =>
    intro st element count start end_
    exact run_bind_ne_none (run_finishElement_ne_none hdec _ _ _ _ _) fun _ => Option.some_ne_none _
  | cons ch rest ih =>
    intro st element count start end_
    rw [scanRange]
    split_ifs
    all_goals first
      | exact ih _ _ _ _ _
      | exact run_bind_ne_none (run_finishElement_ne_none hdec _ _ _ _ _) fun _ => ih _ _ _ _ _

theorem run_parseBound_ne_none (ch : Char) (value : Option α) : (parseBound ch value).run ≠ none := by
  cases value with
  | none => exact Option.some_ne_none _
  | some v =>
    rw [parseBound]
    split_ifs <;> exact Option.some_ne_none _

/-- **The text decoder panics exactly where the slice does**: on a literal
shorter than two bytes or with a multibyte character at an end. -/
theorem decodeText_eq_none_iff {dec : List Char → DecodeM α} (hdec : ∀ t, (dec t).run ≠ none) (s : List Char) :
    (PgRange.decodeText dec s).run = none ↔ trimBraces s = none := by
  cases hs : trimBraces s with
  | none => exact iff_of_true (run_bind_of_none (by rw [hs]; rfl)) rfl
  | some inner =>
    refine iff_of_false ?_ (Option.some_ne_none _)
    rw [PgRange.decodeText, run_bind_of_ok (by rw [hs]; rfl)]
    exact run_bind_ne_none (run_scanRange_ne_none hdec _ _ _ _ _ _) fun _ =>
      run_bind_ne_none (run_parseBound_ne_none _ _) fun _ =>
        run_bind_ne_none (run_parseBound_ne_none _ _) fun _ => Option.some_ne_none _

theorem range_text_decode_leaks_quoted_lower :
    (∀ (α : Type) (dec : List Char → DecodeM α) (out : α → List Char) (r : PgRange α),
      PgRange.decodeText dec (rangeOut out r) = (do
        let start ← (lowerRead out r).mapM dec
        let end_ ← (upperRead out r).mapM dec
        pure ⟨withValue r.start start, withValue r.end end_⟩)) ∧
    (∀ (α : Type) (dec : List Char → DecodeM α) (out : α → List Char), (∀ v, (dec (out v)).run = some (.ok v)) →
      ∀ r : PgRange α, boundQuoted out r.start = false → (PgRange.decodeText dec (rangeOut out r)).run = some (.ok r)) ∧
    (∀ (α : Type) (dec : List Char → DecodeM α), (∀ t, (dec t).run ≠ none) →
      ∀ s, (PgRange.decodeText dec s).run = none ↔ trimBraces s = none) ∧
    (∀ (α : Type) (dec : List Char → DecodeM α), (PgRange.decodeText dec []).run = none) :=
  ⟨fun _ dec out r => decodeText_rangeOut dec out r,
    fun _ dec out hdec r hplain => decodeText_rangeOut_of_plain_lower dec out hdec r hplain,
    fun _ _ hdec s => decodeText_eq_none_iff hdec s,
    fun _ _ => run_bind_of_none rfl⟩

/-- Text ranges of strings, the way `tsrange` prints timestamps: `["a b",)`
reads its upper side as the empty string, `["a b","c d")` its upper bound
with a quote in front; `[1,"c d")` reads back; the literal `empty` is an
error and the empty literal a panic. -/
theorem range_text_of_quoted_lower :
    (PgRange.decodeText decodeString (rangeOut id ⟨.included "a b".toList, .unbounded⟩)).run =
        some (.ok ⟨.included "a b".toList, .excluded []⟩) ∧
      (PgRange.decodeText decodeString (rangeOut id ⟨.included "a b".toList, .excluded "c d".toList⟩)).run =
        some (.ok ⟨.included "a b".toList, .excluded "\"c d".toList⟩) ∧
      (PgRange.decodeText decodeString (rangeOut id ⟨.included "1".toList, .excluded "c d".toList⟩)).run =
        some (.ok ⟨.included "1".toList, .excluded "c d".toList⟩) ∧
      (PgRange.decodeText decodeString "empty".toList).run ≠ none ∧
      (PgRange.decodeText decodeString []).run = none := by
  have hnever : ∀ t, (decodeString t).run ≠ none := fun _ => Option.some_ne_none _
  refine ⟨?_, ?_, range_text_decode_leaks_quoted_lower.2.1 _ decodeString id (fun _ => rfl) _ (by decide),
    fun h => absurd ((range_text_decode_leaks_quoted_lower.2.2.1 _ decodeString hnever _).mp h) (by decide),
    range_text_decode_leaks_quoted_lower.2.2.2 _ decodeString⟩
  · rw [range_text_decode_leaks_quoted_lower.1]
    rfl
  · rw [range_text_decode_leaks_quoted_lower.1]
    rfl

end Text

end Sqlx.Postgres
