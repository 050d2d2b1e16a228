import Sqlx.Postgres.ArgumentFrames

/-!
# Postgres — `NUMERIC` on the wire

`PgNumeric` of `types/numeric.rs`: a sign, base-10000 digits most
significant first, a weight (the power of 10000 of the first digit) and a
display scale, or NaN. Its `encode` is an `Encoder` (the writes it makes on
the argument buffer, checks included) and its `decode` reads with the
`bytes::Buf` getters, which panic when the input runs out: that panic is
`none` here.

Every number the encoder accepts and whose header fields fit in `i16` is
read back as itself (`PgNumeric.decode_bytes`).
-/

namespace Sqlx.Postgres

open Wire

/-! ## The type -/

/-- `PgNumericSign`, with the `#[repr(u16)]` values below. -/
inductive PgNumericSign where
  | positive
  | negative
  deriving DecidableEq, Repr

/-- `SIGN_POS`. -/
def signPos : Nat := 0x0000
/-- `SIGN_NEG`. -/
def signNeg : Nat := 0x4000
/-- `SIGN_NAN`. -/
def signNan : Nat := 0xC000

/-- The sign's `repr(u16)`, as `sign as i16` writes it. -/
def PgNumericSign.toU16 : PgNumericSign → Nat
  | .positive => signPos
  | .negative => signNeg

/-- `format!("{val:#04X}")`: `0x` and at least two upper-case hex digits. -/
def hex04 (val : Nat) : String :=
  let ds := (Nat.toDigits 16 val).map Char.toUpper
  "0x" ++ String.ofList (List.replicate (2 - ds.length) '0' ++ ds)

/-- `PgNumericSign::try_from_u16`; `none` is its `unreachable!` on `SIGN_NAN`. -/
def PgNumericSign.tryFromU16 (val : Nat) : Option (Except String PgNumericSign) :=
  if val = signPos then some (.ok .positive)
  else if val = signNeg then some (.ok .negative)
  else if val = signNan then none
  else some (.error s!"invalid value for PgNumericSign: {hex04 val}")

/-- `PgNumeric`. The fields are `i16` in the source; here they are integers,
and the encoder writes their 16-bit two's complement. -/
inductive PgNumeric where
  | notANumber
  | number (sign : PgNumericSign) (digits : List Int) (weight : Int) (scale : Int)
  deriving DecidableEq, Repr

/-- `PgNumeric::ZERO`: what Postgres sends for zero, no digits. -/
def PgNumeric.zero : PgNumeric := .number .positive [] 0 0

/-- `PgNumeric::is_valid_digit`: `(0..10_000).contains(&digit)`. -/
def PgNumeric.isValidDigit (digit : Int) : Bool :=
  0 ≤ digit && digit < 10000

/-- `PgNumeric::size_hint`, in `Saturating<u64>` arithmetic. -/
def PgNumeric.sizeHint (decimalDigits : Nat) : Nat :=
  let sat := fun x => min x (2 ^ 64 - 1)
  sat (sat (sat (decimalDigits / 4 + 1) * 2) + 8)

/-! ## Encoding -/

/-- `i16::to_be_bytes`. -/
def i16ToBeBytes (x : Int) : List UInt8 := beBytes 2 (twos 16 x)

/-- `u16::to_be_bytes`. -/
def u16ToBeBytes (x : Nat) : List UInt8 := beBytes 2 x

/-- The digit loop of `encode`, from index `i`: each digit is checked, then
written; `next` runs after the last. -/
def PgNumeric.encodeDigits (next : Encoder) : Nat → List Int → Encoder
  | _, [] => next
  | i, digit :: digits =>
    if isValidDigit digit then .extend (i16ToBeBytes digit) (encodeDigits next (i + 1) digits)
    else .fail s!"{i}th PgNumeric digit out of range: {digit}"

/-- `PgNumeric::encode(&self, buf)`, followed by `next` when it returns `Ok(())`. -/
def PgNumeric.encode (next : Encoder) : PgNumeric → Encoder
  | .number sign digits weight scale =>
    if digits.length ≤ 32767 then
      .extend (i16ToBeBytes digits.length) <| .extend (i16ToBeBytes weight) <|
        .extend (i16ToBeBytes sign.toU16) <| .extend (i16ToBeBytes scale) <|
          encodeDigits next 0 digits
    else .fail s!"PgNumeric digits.len() ({digits.length}) should not overflow i16"
  | .notANumber =>
    .extend (i16ToBeBytes 0) <| .extend (i16ToBeBytes 0) <| .extend (u16ToBeBytes signNan) <|
      .extend (i16ToBeBytes 0) next

/-! ## Decoding -/

/-- `Buf::get_u16`: two bytes, big-endian; `none` is its panic on short input. -/
def getU16 (buf : List UInt8) : Option (Nat × List UInt8) :=
  if 2 ≤ buf.length then some (beValue (buf.take 2), buf.drop 2) else none

/-- `Buf::get_i16`. -/
def getI16 (buf : List UInt8) : Option (Int × List UInt8) :=
  (getU16 buf).map fun (u, rest) => (ofTwos 16 u, rest)

/-- `(0..n).map(|_| buf.get_i16()).collect()`. -/
def getI16s : Nat → List UInt8 → Option (List Int × List UInt8)
  | 0, buf => some ([], buf)
  | n + 1, buf => do
    let (x, buf) ← getI16 buf
    let (xs, buf) ← getI16s n buf
    pure (x :: xs, buf)

/-- `PgNumeric::decode`: the header, then (unless NaN) the digits, then the
sign's conversion. -/
def PgNumeric.decode (buf : List UInt8) : Option (Except String PgNumeric) := do
  let (numDigits, buf) ← getU16 buf
  let (weight, buf) ← getI16 buf
  let (sign, buf) ← getU16 buf
  let (scale, buf) ← getI16 buf
  if sign = signNan then pure (.ok .notANumber)
  else
    let (digits, _) ← getI16s numDigits buf
    let sign ← PgNumericSign.tryFromU16 sign
    pure (sign.map fun sign => .number sign digits weight scale)

/-! ## What a successful encode writes -/

/-- The values an `i16` holds. -/
def IsI16 (x : Int) : Prop := -32768 ≤ x ∧ x < 32768

instance (x : Int) : Decidable (IsI16 x) := inferInstanceAs (Decidable (_ ∧ _))

/-- What `encode` checks: the digit count fits `i16` and every digit is valid. -/
def PgNumeric.Encodable : PgNumeric → Prop
  | .number _ digits _ _ => digits.length ≤ 32767 ∧ ∀ d ∈ digits, isValidDigit d = true
  | .notANumber => True

instance : DecidablePred PgNumeric.Encodable := fun n =>
  match n with
  | .number _ _ _ _ => inferInstanceAs (Decidable (_ ∧ _))
  | .notANumber => inferInstanceAs (Decidable True)

/-- An encodable number whose weight and scale are `i16` values, as every
`PgNumeric` of the source is. -/
def PgNumeric.Fits : PgNumeric → Prop
  | n@(.number _ _ weight scale) => n.Encodable ∧ IsI16 weight ∧ IsI16 scale
  | .notANumber => True

/-- The bytes `encode` writes when it succeeds. -/
def PgNumeric.bytes : PgNumeric → List UInt8
  | .number sign digits weight scale =>
    i16ToBeBytes digits.length ++ i16ToBeBytes weight ++ i16ToBeBytes sign.toU16 ++
      i16ToBeBytes scale ++ digits.flatMap i16ToBeBytes
  | .notANumber =>
    i16ToBeBytes 0 ++ i16ToBeBytes 0 ++ u16ToBeBytes signNan ++ i16ToBeBytes 0

@[simp] theorem length_i16ToBeBytes (x : Int) : (i16ToBeBytes x).length = 2 := by
  simp [i16ToBeBytes]

namespace PgNumeric

/-- A run of valid digits writes their bytes and goes on with `next`. -/
theorem encodeDigits_output (next : Encoder) (i : Nat) {digits : List Int}
    (h : ∀ d ∈ digits, isValidDigit d = true) :
    (encodeDigits next i digits).output =
      after ⟨digits.flatMap i16ToBeBytes, [], []⟩ next.output := by
  induction digits generalizing i with
  | nil => simp [encodeDigits]
  | cons d ds ih =>
    have hd : isValidDigit d = true := h d (by simp)
    simp only [encodeDigits, hd, if_true, Encoder.output,
      ih (i + 1) fun x hx => h x (by simp [hx]), after_after, Written.bytes_only_append,
      List.flatMap_cons]

/-- The digit loop only succeeds on valid digits. -/
theorem valid_of_encodeDigits_output {next : Encoder} {i : Nat} {digits : List Int}
    {r : IsNull × Written} (h : (encodeDigits next i digits).output = .ok r) :
    ∀ d ∈ digits, isValidDigit d = true := by
  induction digits generalizing i r with
  | nil => simp
  | cons d ds ih =>
    simp only [encodeDigits] at h
    by_cases hd : isValidDigit d = true
    · rw [if_pos hd, Encoder.output] at h
      obtain ⟨r', hr'⟩ := eq_ok_of_after_eq_ok h
      intro x hx
      rcases List.mem_cons.mp hx with rfl | hx
      · exact hd
      · exact ih hr' x hx
    · rw [if_neg hd] at h
      cases h

/-- **Spec of `encode`.** On an encodable number it writes `bytes` and goes on
with `next`. -/
theorem encode_output (next : Encoder) {n : PgNumeric} (h : n.Encodable) :
    (n.encode next).output = after ⟨n.bytes, [], []⟩ next.output := by
  cases n with
  | number sign digits weight scale =>
    obtain ⟨hlen, hvalid⟩ := h
    simp only [encode, hlen, if_true, Encoder.output, encodeDigits_output next 0 hvalid,
      after_after, Written.bytes_only_append, PgNumeric.bytes, List.append_assoc]
  | notANumber =>
    simp only [encode, Encoder.output, after_after, Written.bytes_only_append, PgNumeric.bytes,
      List.append_assoc]

/-- Followed by `Ok(is_null)`, `encode` returns that with the number's bytes. -/
theorem encode_done_output {n : PgNumeric} (h : n.Encodable) (isNull : IsNull) :
    (n.encode (.done isNull)).output = .ok (isNull, ⟨n.bytes, [], []⟩) := by
  rw [encode_output _ h]
  simp [Encoder.output, Written.empty]

/-- `encode` only succeeds on encodable numbers. -/
theorem encodable_of_encode_output {next : Encoder} {n : PgNumeric} {r : IsNull × Written}
    (h : (n.encode next).output = .ok r) : n.Encodable := by
  cases n with
  | number sign digits weight scale =>
    simp only [encode] at h
    by_cases hlen : digits.length ≤ 32767
    · rw [if_pos hlen] at h
      simp only [Encoder.output] at h
      obtain ⟨r₁, h₁⟩ := eq_ok_of_after_eq_ok h
      obtain ⟨r₂, h₂⟩ := eq_ok_of_after_eq_ok h₁
      obtain ⟨r₃, h₃⟩ := eq_ok_of_after_eq_ok h₂
      obtain ⟨r₄, h₄⟩ := eq_ok_of_after_eq_ok h₃
      exact ⟨hlen, valid_of_encodeDigits_output h₄⟩
    · rw [if_neg hlen] at h
      cases h
  | notANumber => trivial

end PgNumeric

/-! ## Reading the bytes back -/

theorem getU16_beBytes {v : Nat} (hv : v < 2 ^ 16) (rest : List UInt8) :
    getU16 (beBytes 2 v ++ rest) = some (v, rest) := by
  have hlen : (beBytes 2 v).length = 2 := length_beBytes 2 v
  simp only [getU16, List.length_append, hlen]
  rw [if_pos (by omega), List.take_left' hlen, List.drop_left' hlen,
    beValue_beBytes_of_lt (by simpa using hv)]

theorem twos_of_nonneg {w : Nat} {x : Int} (h0 : 0 ≤ x) (hx : x < (2 ^ w : Nat)) :
    twos w x = x.toNat := by
  unfold twos
  rw [Int.emod_eq_of_lt h0 hx]

theorem getI16_i16ToBeBytes {x : Int} (hx : IsI16 x) (rest : List UInt8) :
    getI16 (i16ToBeBytes x ++ rest) = some (x, rest) := by
  simp only [getI16, i16ToBeBytes, getU16_beBytes (twos_lt 16 x), Option.map_some]
  rw [ofTwos_twos (by decide) (by simpa using hx.1) (by simpa using hx.2)]

/-- A natural below `2 ^ 15` read back as unsigned: the digit count and the sign. -/
theorem getU16_i16ToBeBytes {n : Nat} (hn : n < 2 ^ 15) (rest : List UInt8) :
    getU16 (i16ToBeBytes n ++ rest) = some (n, rest) := by
  have htwos : twos 16 n = n := by
    rw [twos_of_nonneg (by omega) (by push_cast; omega)]
    simp
  simp only [i16ToBeBytes, htwos]
  exact getU16_beBytes (by omega) rest

theorem getI16s_flatMap {ds : List Int} (h : ∀ d ∈ ds, IsI16 d) (rest : List UInt8) :
    getI16s ds.length (ds.flatMap i16ToBeBytes ++ rest) = some (ds, rest) := by
  induction ds with
  | nil => rfl
  | cons d ds ih =>
    have hd : IsI16 d := h d (by simp)
    simp only [List.length_cons, List.flatMap_cons, List.append_assoc, getI16s,
      getI16_i16ToBeBytes hd, Option.bind_eq_bind, Option.bind_some,
      ih fun x hx => h x (by simp [hx])]
    rfl

theorem PgNumericSign.tryFromU16_toU16 (sign : PgNumericSign) :
    PgNumericSign.tryFromU16 sign.toU16 = some (.ok sign) := by
  cases sign <;> rfl

/-- A valid digit is an `i16`. -/
theorem isI16_of_isValidDigit {d : Int} (h : PgNumeric.isValidDigit d = true) : IsI16 d := by
  simp only [PgNumeric.isValidDigit, Bool.and_eq_true, decide_eq_true_eq] at h
  constructor <;> omega

/-- **Binary round trip of `PgNumeric`.** What `encode` writes for a number
that fits is decoded as that number, whatever follows it. -/
theorem PgNumeric.decode_bytes {n : PgNumeric} (h : n.Fits) (rest : List UInt8) :
    PgNumeric.decode (n.bytes ++ rest) = some (.ok n) := by
  cases n with
  | number sign digits weight scale =>
    obtain ⟨⟨hlen, hvalid⟩, hweight, hscale⟩ := h
    have hsign : sign.toU16 < 2 ^ 15 := by cases sign <;> decide
    have hnan : sign.toU16 ≠ signNan := by cases sign <;> decide
    simp only [PgNumeric.bytes, List.append_assoc, PgNumeric.decode,
      getU16_i16ToBeBytes (show digits.length < 2 ^ 15 by omega), getI16_i16ToBeBytes hweight,
      getU16_i16ToBeBytes hsign, getI16_i16ToBeBytes hscale, Option.bind_eq_bind,
      Option.bind_some, hnan, if_false,
      getI16s_flatMap (fun d hd => isI16_of_isValidDigit (hvalid d hd)),
      PgNumericSign.tryFromU16_toU16]
    rfl
  | notANumber =>
    have hzero : ∀ rest', getU16 (i16ToBeBytes 0 ++ rest') = some (0, rest') := fun rest' => by
      simpa using getU16_i16ToBeBytes (show (0 : Nat) < 2 ^ 15 by decide) rest'
    simp only [PgNumeric.bytes, List.append_assoc, PgNumeric.decode, hzero, u16ToBeBytes,
      getI16_i16ToBeBytes (show IsI16 0 by decide), getU16_beBytes (show signNan < 2 ^ 16 by decide),
      Option.bind_eq_bind, Option.bind_some]
    rfl

end Sqlx.Postgres
