import Sqlx.Postgres.Bind

/-!
# Postgres — the binary value decoders (`types/*.rs`, `value.rs`)

The binary decoders read big-endian fields with the panicking getters of
`bytes::Buf` and `byteorder`, and slice by lengths taken from the payload
itself. They run here in `DecodeM`: a panic is `none`, an `Err` is
`some (.error _)`.

Only the integer decoders check the length first. `f32`, `f64` and
`PgMoney` read their first 4 or 8 bytes and ignore the rest; `PgNumeric`,
`BitVec`, arrays and records read a header before any check, so a payload
shorter than the header panics (`binary_decoders_panic_on_short_payloads`).
`PgValueRef::get` panics exactly on a length that runs past the buffer
(`PgValueRef.get_eq_none_iff`). An array reserves the element slots its
header names before it reads one (`decodeArrayHeader_reserves`); it reads
back elements framed as the protocol frames them (`decodeElements_frames`).
-/

namespace Sqlx.Postgres

open Wire

/-- A decoder: `none` is a panic, `.error` an `Err`. -/
abbrev DecodeM := ExceptT String Option

/-- A read that panics when the bytes run out, as a step of a decoder. -/
def panicking {α : Type} (x : Option α) : DecodeM α := ExceptT.lift x

/-- `if !ok { return Err(e) }`. -/
def check (ok : Prop) [Decidable ok] (e : String) : DecodeM Unit := if ok then pure () else throw e

section Monad

variable {α β : Type} {x : DecodeM α} {f : α → DecodeM β}

@[simp] theorem run_panicking_none : (panicking (none : Option α)).run = none := rfl

@[simp] theorem run_panicking_some (a : α) : (panicking (some a)).run = some (.ok a) := rfl

theorem panicking_some (a : α) : panicking (some a) = pure a := rfl

theorem run_panicking (o : Option α) : (panicking o).run = o.map .ok := by
  cases o <;> rfl

theorem panicking_bind_pure (o : Option α) (g : α → β) : (panicking o >>= fun a => pure (g a)) = panicking (o.map g) := by
  cases o <;> rfl

theorem check_of_pos {ok : Prop} [Decidable ok] (e : String) (h : ok) : check ok e = pure () := if_pos h

theorem check_of_neg {ok : Prop} [Decidable ok] (e : String) (h : ¬ok) : check ok e = throw e := if_neg h

/-- A panic in the first step is the whole decoder's. -/
theorem run_bind_of_none (h : x.run = none) : (x >>= f).run = none := by
  rw [ExceptT.run_bind, h]
  rfl

theorem run_bind_of_ok {a : α} (h : x.run = some (.ok a)) : (x >>= f).run = (f a).run := by
  rw [ExceptT.run_bind, h]
  rfl

theorem run_bind_of_error {e : String} (h : x.run = some (.error e)) : (x >>= f).run = some (.error e) := by
  rw [ExceptT.run_bind, h]
  rfl

/-- Steps that do not panic make a decoder that does not. -/
theorem run_bind_ne_none (hx : x.run ≠ none) (hf : ∀ a, (f a).run ≠ none) : (x >>= f).run ≠ none := by
  rw [ExceptT.run_bind]
  cases hrun : x.run with
  | none => exact absurd hrun hx
  | some r =>
    cases r with
    | error e => exact Option.some_ne_none _
    | ok a => exact hf a

/-- A pure step after a decoder panics where the decoder does. -/
theorem run_bind_pure_eq_none_iff (g : α → β) : (x >>= fun a => pure (g a)).run = none ↔ x.run = none := by
  rw [ExceptT.run_bind]
  cases hrun : x.run with
  | none => exact iff_of_true rfl rfl
  | some r =>
    cases r with
    | error e => exact iff_of_false (Option.some_ne_none _) (Option.some_ne_none _)
    | ok a => exact iff_of_false (Option.some_ne_none _) (Option.some_ne_none _)

/-- A `check` whose passing leads to no panic panics nowhere. -/
theorem run_check_bind_ne_none {ok : Prop} [Decidable ok] {e : String} {f : Unit → DecodeM β}
    (hf : ok → (f ()).run ≠ none) : (check ok e >>= f).run ≠ none := by
  by_cases h : ok
  · rw [check_of_pos e h, pure_bind]
    exact hf h
  · rw [check_of_neg e h, ExceptT.run_bind]
    exact Option.some_ne_none _

/-- A result of an `Except` read inside a decoder (`?` on a `Result`). -/
theorem monadLift_ok (a : α) : (monadLift (Except.ok a : Except String α) : DecodeM α) = pure a := rfl

theorem adapt_pure (g : String → String) (a : α) : (pure a : DecodeM α).adapt g = pure a := rfl

/-- Rewording an error panics where the decoder does. -/
theorem run_adapt_ne_none (g : String → String) (hx : x.run ≠ none) : (x.adapt g).run ≠ none := by
  delta ExceptT.adapt
  rw [ExceptT.run, ExceptT.mk]
  exact fun h => hx (Option.map_eq_none_iff.mp h)

theorem run_check_bind_of_pos {ok : Prop} [Decidable ok] {e : String} {f : Unit → DecodeM β} (h : ok) :
    (check ok e >>= f).run = (f ()).run := by
  rw [check, if_pos h]
  rfl

theorem run_check_bind_of_neg {ok : Prop} [Decidable ok] {e : String} {f : Unit → DecodeM β} (h : ¬ok) :
    (check ok e >>= f).run = some (.error e) := by
  rw [check, if_neg h]
  rfl

end Monad

/-- `Buf::get_u32`. -/
def getU32 (buf : List UInt8) : Option (Nat × List UInt8) := readBe 4 buf

/-- `Buf::get_i32`. -/
def getI32 (buf : List UInt8) : Option (Int × List UInt8) :=
  (getU32 buf).map fun (u, rest) => (ofTwos 32 u, rest)

/-- `BigEndian::read_u32` and its kin: the first `w` bytes, the rest ignored. -/
def readBigEndian (w : Nat) (buf : List UInt8) : Option Nat := (readBe w buf).map Prod.fst

variable {buf : List UInt8}

theorem getU32_eq_none_iff : getU32 buf = none ↔ buf.length < 4 := readBe_eq_none_iff

theorem getI32_eq_none_iff : getI32 buf = none ↔ buf.length < 4 := by
  rw [getI32, Option.map_eq_none_iff, getU32_eq_none_iff]

theorem getI32_i32ToBeBytes {x : Int} (hlo : -2147483648 ≤ x) (hhi : x < 2147483648) (rest : List UInt8) :
    getI32 (i32ToBeBytes x ++ rest) = some (x, rest) := by
  rw [getI32, getU32, i32ToBeBytes, readBe_beBytes (twos_lt 32 x) rest, Option.map_some]
  show some (ofTwos 32 (twos 32 x), rest) = some (x, rest)
  rw [ofTwos_twos (by decide) hlo hhi]

theorem getU16_eq_none_iff : getU16 buf = none ↔ buf.length < 2 := by
  unfold getU16
  split
  · next h => exact iff_of_false (Option.some_ne_none _) (Nat.not_lt.2 h)
  · next h => exact iff_of_true rfl (Nat.lt_of_not_le h)

theorem length_of_getU16 {v : Nat} {rest : List UInt8} (h : getU16 buf = some (v, rest)) :
    rest.length + 2 = buf.length := by
  unfold getU16 at h
  split at h
  · cases h
    simp only [List.length_drop]
    omega
  · cases h

theorem length_of_getI16 {v : Int} {rest : List UInt8} (h : getI16 buf = some (v, rest)) :
    rest.length + 2 = buf.length := by
  obtain ⟨⟨u, rest'⟩, hu, heq⟩ := Option.map_eq_some_iff.mp h
  cases heq
  exact length_of_getU16 hu

/-- The bytes past the width are never looked at. -/
theorem readBigEndian_append {a : List UInt8} {w : Nat} (h : a.length = w) (rest : List UInt8) :
    readBigEndian w (a ++ rest) = some (beValue a) := by
  rw [readBigEndian, readBe_append h rest]
  rfl

/-! ## Fixed-width values -/

/-- `Decode for f32` (binary): the bits `BigEndian::read_f32` reads. -/
def decodeFloat4Bits (buf : List UInt8) : Option Nat := readBigEndian 4 buf

/-- `Decode for f64` (binary): the bits `BigEndian::read_f64` reads. -/
def decodeFloat8Bits (buf : List UInt8) : Option Nat := readBigEndian 8 buf

/-- `Decode for PgMoney` (binary): the cents. -/
def PgMoney.decode (buf : List UInt8) : Option Int := (readBigEndian 8 buf).map (ofTwos 64)

theorem decodeFloat4Bits_eq_none_iff : decodeFloat4Bits buf = none ↔ buf.length < 4 := by
  rw [decodeFloat4Bits, readBigEndian, Option.map_eq_none_iff, readBe_eq_none_iff]

theorem decodeFloat8Bits_eq_none_iff : decodeFloat8Bits buf = none ↔ buf.length < 8 := by
  rw [decodeFloat8Bits, readBigEndian, Option.map_eq_none_iff, readBe_eq_none_iff]

theorem PgMoney.decode_eq_none_iff : PgMoney.decode buf = none ↔ buf.length < 8 := by
  rw [PgMoney.decode, readBigEndian, Option.map_eq_none_iff, Option.map_eq_none_iff, readBe_eq_none_iff]

/-! ## `NUMERIC` -/

/-- A `NUMERIC` header is four 2-byte fields, read before anything is checked. -/
theorem PgNumeric.decode_of_length_lt (h : buf.length < 8) : PgNumeric.decode buf = none := by
  unfold PgNumeric.decode
  cases h1 : getU16 buf with
  | none => rfl
  | some p1 =>
    obtain ⟨numDigits, b1⟩ := p1
    have l1 := length_of_getU16 h1
    cases h2 : getI16 b1 with
    | none => simp [h2]
    | some p2 =>
      obtain ⟨weight, b2⟩ := p2
      have l2 := length_of_getI16 h2
      cases h3 : getU16 b2 with
      | none => simp [h2, h3]
      | some p3 =>
        obtain ⟨sign, b3⟩ := p3
        have l3 := length_of_getU16 h3
        -- the scale is the field that runs out
        have h4 : getI16 b3 = none := by
          rw [getI16, Option.map_eq_none_iff, getU16_eq_none_iff]
          omega
        simp [h2, h3, h4]

/-! ## `BitVec` -/

/-- The bits of a byte, most significant first, as `BitVec::from_bytes` takes them. -/
def byteBits (b : UInt8) : List Bool := (List.range 8).reverse.map fun i => b.toNat.testBit i

/-- `Decode for BitVec` (binary): the length in bits, then exactly the bytes
that hold them; the zeros past the length in the last byte are popped. -/
def decodeBitVec (buf : List UInt8) : DecodeM (List Bool) := do
  let (len, bytes) ← panicking (getI32 buf)
  check (0 ≤ len) s!"invalid VARBIT len: {len}"
  check (bytes.length = (len.toNat + 7) / 8) "VARBIT length mismatch."
  pure ((bytes.flatMap byteBits).take len.toNat)

/-- `BitVec` panics only on a payload too short for its length; past that it
returns `Ok` or `Err`. -/
theorem decodeBitVec_eq_none_iff : (decodeBitVec buf).run = none ↔ buf.length < 4 := by
  cases hget : getI32 buf with
  | none =>
    have hlen := getI32_eq_none_iff.mp hget
    rw [decodeBitVec, run_bind_of_none (by rw [hget]; rfl)]
    exact ⟨fun _ => hlen, fun _ => rfl⟩
  | some p =>
    obtain ⟨len, bytes⟩ := p
    have hlen : ¬buf.length < 4 := mt getI32_eq_none_iff.mpr (by rw [hget]; exact Option.some_ne_none _)
    rw [decodeBitVec, run_bind_of_ok (by rw [hget]; rfl)]
    refine ⟨fun h => absurd ?_ hlen, fun h => absurd h hlen⟩
    -- after the length every branch returns
    by_cases hneg : 0 ≤ len
    · rw [run_check_bind_of_pos hneg] at h
      by_cases hmis : bytes.length = (len.toNat + 7) / 8
      · rw [run_check_bind_of_pos hmis] at h
        cases h
      · rw [run_check_bind_of_neg hmis] at h
        cases h
    · rw [run_check_bind_of_neg hneg] at h
      cases h

/-! ## Values in a container -/

/-- `PgValueRef::get`: an `i32` length and that many bytes, or `NULL` for
`-1`. -/
def PgValueRef.get (buf : List UInt8) : DecodeM (Option (List UInt8) × List UInt8) := do
  let (len, buf) ← panicking (getI32 buf)
  if len = -1 then pure (none, buf)
  else do
    check (0 ≤ len) s!"overflow converting element_len ({len}) to usize"
    -- `&buf[..element_len]` panics past the end
    let (value, buf) ← panicking (readN len.toNat buf)
    pure (some value, buf)

/-- `PgValueRef::get` panics exactly when the buffer has no room for the
length, or less room than a nonnegative length asks for. -/
theorem PgValueRef.get_eq_none_iff :
    (PgValueRef.get buf).run = none ↔
      buf.length < 4 ∨ ∃ len rest, getI32 buf = some (len, rest) ∧ 0 ≤ len ∧ rest.length < len.toNat := by
  cases hget : getI32 buf with
  | none =>
    rw [PgValueRef.get, run_bind_of_none (by rw [hget]; rfl)]
    exact ⟨fun _ => .inl (getI32_eq_none_iff.mp hget), fun _ => rfl⟩
  | some p =>
    obtain ⟨len, rest⟩ := p
    have hlen : ¬buf.length < 4 := mt getI32_eq_none_iff.mpr (by rw [hget]; exact Option.some_ne_none _)
    have hrhs : (buf.length < 4 ∨ ∃ len' rest', some (len, rest) = some (len', rest') ∧ 0 ≤ len' ∧
        rest'.length < len'.toNat) ↔ 0 ≤ len ∧ rest.length < len.toNat := by
      simp [hlen]
    rw [hrhs, PgValueRef.get, run_bind_of_ok (by rw [hget]; rfl)]
    by_cases hnull : len = -1
    · simp only [hnull, if_true]
      exact ⟨fun h => (nomatch h), fun h => by omega⟩
    · simp only [if_neg hnull]
      by_cases hneg : 0 ≤ len
      · rw [run_check_bind_of_pos hneg]
        -- a length the slice may run past
        cases hread : readN len.toNat rest with
        | none => exact ⟨fun _ => ⟨hneg, readN_eq_none_iff.mp hread⟩, fun _ => run_bind_of_none rfl⟩
        | some q =>
          have hroom : ¬rest.length < len.toNat :=
            mt readN_eq_none_iff.mpr (by rw [hread]; exact Option.some_ne_none _)
          rw [run_bind_of_ok (by rfl)]
          exact ⟨fun h => (nomatch h), fun h => absurd h.2 hroom⟩
      · rw [run_check_bind_of_neg hneg]
        exact ⟨fun h => (nomatch h), fun h => absurd h.1 hneg⟩

/-- A value as a container frames it: its `i32` length and its bytes, or
`-1` for `NULL`. -/
def frameValue : Option (List UInt8) → List UInt8
  | none => i32ToBeBytes (-1)
  | some bytes => i32ToBeBytes bytes.length ++ bytes

theorem PgValueRef.get_frameValue {value : Option (List UInt8)} (hlen : ∀ bytes ∈ value, bytes.length < 2 ^ 31)
    (rest : List UInt8) : (PgValueRef.get (frameValue value ++ rest)).run = some (.ok (value, rest)) := by
  cases value with
  | none =>
    rw [frameValue, PgValueRef.get, run_bind_of_ok (by rw [getI32_i32ToBeBytes (by decide) (by decide)]; rfl)]
    rfl
  | some bytes =>
    have hb : bytes.length < 2 ^ 31 := hlen bytes rfl
    have hread : readN bytes.length (bytes ++ rest) = some (bytes, rest) := readN_append rfl rest
    rw [frameValue, List.append_assoc, PgValueRef.get,
      run_bind_of_ok (by rw [getI32_i32ToBeBytes (by omega) (by omega)]; rfl)]
    have hnull : ¬(bytes.length : Int) = -1 := by omega
    have hnonneg : (0 : Int) ≤ bytes.length := Int.natCast_nonneg _
    simp only [if_neg hnull]
    rw [run_check_bind_of_pos hnonneg, Int.toNat_natCast, run_bind_of_ok (by rw [hread]; rfl)]
    rfl


/-- The header `Decode for Vec<T>` reads: `none` for an array of no
dimension, otherwise the length of its axis and the bytes after the header.
`resolves` is whether `PgTypeInfo::try_from_oid`, or the array type's own
element type, gives the type of the elements. -/
def decodeArrayHeader (resolves : Nat → Bool) (buf : List UInt8) : DecodeM (Option (Nat × List UInt8)) := do
  let (ndim, buf) ← panicking (getI32 buf)
  if ndim = 0 then pure none
  else do
    check (ndim = 1) s!"encountered an array of {ndim} dimensions; only one-dimensional arrays are supported"
    let (_, buf) ← panicking (getI32 buf)
    let (oid, buf) ← panicking (getU32 buf)
    check (resolves oid) s!"failed to resolve array element type for oid {oid}"
    let (len, buf) ← panicking (getI32 buf)
    check (0 ≤ len) s!"overflow converting array len ({len}) to usize"
    let (lower, buf) ← panicking (getI32 buf)
    check (lower = 1)
      s!"encountered an array with a lower bound of {lower} in the first dimension; only arrays starting at one are supported"
    pure (some (len.toNat, buf))

/-- The header of a one-dimensional array of `len` elements of the type
`oid`, with no flags and a lower bound of 1. -/
def arrayHeaderBytes (oid len : Nat) : List UInt8 :=
  i32ToBeBytes 1 ++ i32ToBeBytes 0 ++ i32ToBeBytes oid ++ i32ToBeBytes len ++ i32ToBeBytes 1

/-- **An array reserves what its header says**: a header of any length
below `2 ^ 31` is read as that length whatever follows it, so
`Vec::with_capacity` reserves that many slots even for no bytes at all. -/
theorem decodeArrayHeader_reserves {resolves : Nat → Bool} {oid n : Nat} (hoid : oid < 2 ^ 32)
    (hres : resolves oid = true) (hn : n < 2 ^ 31) (rest : List UInt8) :
    (decodeArrayHeader resolves (arrayHeaderBytes oid n ++ rest)).run = some (.ok (some (n, rest))) := by
  have hone : ∀ rest, getI32 (i32ToBeBytes 1 ++ rest) = some (1, rest) :=
    getI32_i32ToBeBytes (by decide) (by decide)
  have hzero : ∀ rest, getI32 (i32ToBeBytes 0 ++ rest) = some (0, rest) :=
    getI32_i32ToBeBytes (by decide) (by decide)
  have hlen : ∀ rest, getI32 (i32ToBeBytes n ++ rest) = some ((n : Int), rest) :=
    fun rest => getI32_i32ToBeBytes (by omega) (by omega) rest
  have htype : ∀ rest, getU32 (i32ToBeBytes oid ++ rest) = some (oid, rest) := readBe_i32ToBeBytes hoid
  have h10 : ¬(1 : Int) = 0 := by decide
  simp only [arrayHeaderBytes, List.append_assoc, decodeArrayHeader]
  rw [run_bind_of_ok (by rw [hone]; rfl)]
  dsimp only
  rw [if_neg h10, run_check_bind_of_pos rfl, run_bind_of_ok (by rw [hzero]; rfl)]
  dsimp only
  rw [run_bind_of_ok (by rw [htype]; rfl)]
  dsimp only
  rw [run_check_bind_of_pos hres, run_bind_of_ok (by rw [hlen]; rfl)]
  dsimp only
  rw [run_check_bind_of_pos (Int.natCast_nonneg n), run_bind_of_ok (by rw [hone]; rfl)]
  dsimp only
  rw [run_check_bind_of_pos rfl, Int.toNat_natCast]
  rfl

/-- The element loop of `Decode for Vec<T>`: `PgValueRef::get`, then
`T::decode`, as many times as the header says. -/
def decodeElements {α : Type} (decodeElement : Option (List UInt8) → DecodeM α) :
    Nat → List UInt8 → DecodeM (List α)
  | 0, _ => pure []
  | n + 1, buf => do
    let (value, buf) ← PgValueRef.get buf
    let x ← decodeElement value
    let xs ← decodeElements decodeElement n buf
    pure (x :: xs)

/-- **The element loop reads back what a container frames**: one element
per frame, in order, when `T::decode` reads back each element's bytes. -/
theorem decodeElements_frames {α : Type} (decodeElement : Option (List UInt8) → DecodeM α)
    (encode : α → Option (List UInt8)) (xs : List α)
    (hdecode : ∀ x ∈ xs, (decodeElement (encode x)).run = some (.ok x))
    (hlen : ∀ x ∈ xs, ∀ bytes ∈ encode x, bytes.length < 2 ^ 31) (rest : List UInt8) :
    (decodeElements decodeElement xs.length (xs.flatMap (fun x => frameValue (encode x)) ++ rest)).run =
      some (.ok xs) := by
  induction xs with
  | nil => rfl
  | cons x xs ih =>
    have hx := PgValueRef.get_frameValue (hlen x List.mem_cons_self)
      (xs.flatMap (fun x => frameValue (encode x)) ++ rest)
    have hrest := ih (fun y hy => hdecode y (List.mem_cons_of_mem x hy))
      (fun y hy => hlen y (List.mem_cons_of_mem x hy))
    rw [List.length_cons, List.flatMap_cons, List.append_assoc, decodeElements, run_bind_of_ok hx]
    simp only
    rw [run_bind_of_ok (hdecode x List.mem_cons_self), run_bind_of_ok hrest]
    rfl

/-- `Decode for Vec<T>` (binary). `Vec::with_capacity(len)` reserves the
length of the header before the loop. -/
def decodeVec {α : Type} (resolves : Nat → Bool) (decodeElement : Option (List UInt8) → DecodeM α)
    (buf : List UInt8) : DecodeM (List α) := do
  match ← decodeArrayHeader resolves buf with
  | none => pure []
  | some (len, buf) => decodeElements decodeElement len buf

/-- A header naming `n + 1` elements with nothing after it panics at the
first element, once `Vec::with_capacity` has reserved the `n + 1` slots. -/
theorem decodeVec_arrayHeaderBytes_panics {α : Type} {resolves : Nat → Bool}
    (decodeElement : Option (List UInt8) → DecodeM α) {oid n : Nat} (hoid : oid < 2 ^ 32)
    (hres : resolves oid = true) (hn : n + 1 < 2 ^ 31) :
    (decodeVec resolves decodeElement (arrayHeaderBytes oid (n + 1))).run = none := by
  have hheader := decodeArrayHeader_reserves hoid hres hn []
  rw [List.append_nil] at hheader
  have hfirst : (PgValueRef.get []).run = none := PgValueRef.get_eq_none_iff.mpr (.inl (by decide))
  rw [decodeVec, run_bind_of_ok hheader]
  exact run_bind_of_none hfirst

theorem decodeVec_of_length_lt {α : Type} (resolves : Nat → Bool) (decodeElement : Option (List UInt8) → DecodeM α)
    (h : buf.length < 4) : (decodeVec resolves decodeElement buf).run = none := by
  have hheader : (decodeArrayHeader resolves buf).run = none := by
    rw [decodeArrayHeader, run_bind_of_none (by rw [getI32_eq_none_iff.mpr h]; rfl)]
  rw [decodeVec, run_bind_of_none hheader]

/-! ## Records -/

/-- The type a record is decoded as: `RECORD`, whose fields name their own
types, a composite type with the oids of its fields, or any other type. -/
inductive RecordType where
  | record
  | composite (fields : List Nat)
  | other

/-- `PgRecordDecoder`, reading binary fields. -/
structure PgRecordDecoder where
  buf : List UInt8
  typ : RecordType
  ind : Nat

/-- `PgRecordDecoder::new` (binary): the field count is read and dropped. -/
def PgRecordDecoder.new (typ : RecordType) (buf : List UInt8) : Option PgRecordDecoder :=
  (getU32 buf).map fun (_, buf) => ⟨buf, typ, 0⟩

/-- `try_decode` of the next field (binary): its type oid, then its value.
`tryFromOid` is whether `PgTypeInfo::try_from_oid` knows the oid, and
`compatible` is `T::compatible` of the field's type. -/
def PgRecordDecoder.tryDecode {α : Type} (tryFromOid compatible : Nat → Bool)
    (decodeField : Option (List UInt8) → DecodeM α) (self : PgRecordDecoder) : DecodeM (α × PgRecordDecoder) := do
  let ind := self.ind
  check (self.buf ≠ []) s!"no field `{ind}` found on record"
  let (oid, buf) ← panicking (getU32 self.buf)
  let known ← match self.typ with
    | .record => pure (tryFromOid oid)
    | .composite fields =>
      -- `fields[self.ind]` panics past the last field
      match fields[ind]? with
      | none => panicking none
      | some fieldOid =>
        if fieldOid ≠ oid then throw "unexpected mismatch of composite type information" else pure true
    | .other => throw "unexpected non-composite type being decoded as a composite type"
  -- `mismatched_types` names the two types
  check (!known || compatible oid) "mismatched types"
  check known
    s!"custom types in records are not fully supported yet: failed to retrieve type info for field {ind} with type oid {oid}"
  let (value, buf) ← PgValueRef.get buf
  let x ← decodeField value
  pure (x, ⟨buf, self.typ, ind + 1⟩)

theorem PgRecordDecoder.new_eq_none_iff (typ : RecordType) : PgRecordDecoder.new typ buf = none ↔ buf.length < 4 := by
  rw [PgRecordDecoder.new, Option.map_eq_none_iff, getU32_eq_none_iff]

/-- A field whose type oid is cut short panics. -/
theorem PgRecordDecoder.tryDecode_of_length_lt {α : Type} (tryFromOid compatible : Nat → Bool)
    (decodeField : Option (List UInt8) → DecodeM α) {self : PgRecordDecoder} (hne : self.buf ≠ [])
    (h : self.buf.length < 4) : (self.tryDecode tryFromOid compatible decodeField).run = none := by
  have hoid : (panicking (getU32 self.buf)).run = none := by rw [getU32_eq_none_iff.mpr h]; rfl
  rw [PgRecordDecoder.tryDecode, run_check_bind_of_pos hne]
  exact run_bind_of_none hoid

/-! ## Short payloads -/

/-- **The binary decoders panic on short payloads.** `f32`, `f64`,
`PgMoney`, `NUMERIC`, `BitVec`, arrays and records read a header with the
panicking getters before they check a length, so a payload shorter than the
header panics; an array header alone reserves the slots it names and then
panics at the first element; and `f32` accepts the bytes past its width. -/
theorem binary_decoders_panic_on_short_payloads :
    (∀ buf : List UInt8, buf.length < 4 → decodeFloat4Bits buf = none) ∧
    (∀ buf : List UInt8, buf.length < 8 →
      decodeFloat8Bits buf = none ∧ PgMoney.decode buf = none ∧ PgNumeric.decode buf = none) ∧
    (∀ buf : List UInt8, buf.length < 4 → (decodeBitVec buf).run = none) ∧
    (∀ (α : Type) (resolves : Nat → Bool) (decodeElement : Option (List UInt8) → DecodeM α)
      (buf : List UInt8), buf.length < 4 → (decodeVec resolves decodeElement buf).run = none) ∧
    (∀ (α : Type) (resolves : Nat → Bool) (decodeElement : Option (List UInt8) → DecodeM α) (oid n : Nat),
      oid < 2 ^ 32 → resolves oid = true → n + 1 < 2 ^ 31 →
        (decodeArrayHeader resolves (arrayHeaderBytes oid (n + 1))).run = some (.ok (some (n + 1, []))) ∧
          (decodeVec resolves decodeElement (arrayHeaderBytes oid (n + 1))).run = none) ∧
    (∀ (typ : RecordType) (buf : List UInt8), buf.length < 4 → PgRecordDecoder.new typ buf = none) ∧
    (∀ (α : Type) (tryFromOid compatible : Nat → Bool) (decodeField : Option (List UInt8) → DecodeM α)
      (self : PgRecordDecoder), self.buf ≠ [] → self.buf.length < 4 →
        (self.tryDecode tryFromOid compatible decodeField).run = none) ∧
    (∀ a extra : List UInt8, a.length = 4 → decodeFloat4Bits (a ++ extra) = some (beValue a)) := by
  refine ⟨fun buf h => decodeFloat4Bits_eq_none_iff.mpr h, ?_, fun buf h => decodeBitVec_eq_none_iff.mpr h,
    fun α resolves decodeElement buf h => decodeVec_of_length_lt resolves decodeElement h, ?_,
    fun typ buf h => (PgRecordDecoder.new_eq_none_iff typ).mpr h,
    fun α tryFromOid compatible decodeField self hne h =>
      PgRecordDecoder.tryDecode_of_length_lt tryFromOid compatible decodeField hne h,
    fun a extra h => readBigEndian_append h extra⟩
  · intro buf h
    exact ⟨decodeFloat8Bits_eq_none_iff.mpr h, PgMoney.decode_eq_none_iff.mpr h, PgNumeric.decode_of_length_lt h⟩
  · intro α resolves decodeElement oid n hoid hres hn
    have hheader := decodeArrayHeader_reserves hoid hres hn []
    rw [List.append_nil] at hheader
    exact ⟨hheader, decodeVec_arrayHeaderBytes_panics decodeElement hoid hres hn⟩

/-- Three bytes of an `f32`, and the header of a one-element `INT4[]` with no
element after it. -/
theorem binary_decoders_panic_on_three_bytes :
    decodeFloat4Bits [0, 0, 0] = none ∧
      (decodeVec (fun _ => true) (fun _ => pure ()) (arrayHeaderBytes 23 1)).run = none :=
  ⟨binary_decoders_panic_on_short_payloads.1 [0, 0, 0] (by decide),
    (binary_decoders_panic_on_short_payloads.2.2.2.2.1 Unit (fun _ => true) (fun _ => pure ()) 23 0
      (by decide) rfl (by decide)).2⟩

end Sqlx.Postgres
