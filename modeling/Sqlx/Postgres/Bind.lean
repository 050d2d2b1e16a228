import Sqlx.Postgres.Message
import Sqlx.Postgres.Numeric

/-!
# Postgres — the `Bind` message (`message/bind.rs`)

`Bind` names the portal and the prepared statement, then gives a count and
the parameter format codes, the number of parameters and their values, and a
count and the result format codes. The server reads the two counts as the
lengths of the two lists of codes that follow them.

`encode_body` writes the count of the result formats from `formats.len()`,
not from `result_formats.len()`. `run_encodeWith` is what the encoder
writes; `parseBind` is the message grammar, and `parseBind_encodeWith` says
it reads the fields back exactly when the two lists have the same length,
and rejects the message otherwise. The executor writes one binary format in
each list, so its messages are read back as they are meant.
-/

namespace Sqlx.Postgres

open Wire

/-- `PgValueFormat`. -/
inductive PgValueFormat where
  | text
  | binary
  deriving DecidableEq, Repr

/-- `format as i16`. -/
def PgValueFormat.code : PgValueFormat → Nat
  | .text => 0
  | .binary => 1

/-- `Bind`. -/
structure Bind where
  portal : PortalId
  statement : StatementId
  formats : List PgValueFormat
  numParams : UInt16
  params : List UInt8
  resultFormats : List PgValueFormat

/-- `u16::try_from(len)`, failing with `error`. -/
def u16TryFrom (len : Nat) (error : String) : BufM Nat :=
  if len < 2 ^ 16 then pure len else throw error

/-- `FrontendMessageFormat::Bind`, `b'B'`. -/
def Bind.format : UInt8 := 0x42

/-- `Bind::encode_body`. -/
def Bind.encodeBody (self : Bind) : BufM Unit := do
  putPortalName self.portal
  putStatementName self.statement
  let n := self.formats.length
  let formatsLen ← u16TryFrom n s!"too many parameter format codes ({n})"
  BufM.extend (beBytes 2 formatsLen)
  forM self.formats fun format => BufM.extend (beBytes 2 format.code)
  BufM.extend (beBytes 2 self.numParams.toNat)
  BufM.extend self.params
  -- the source takes this count from `formats`, as the one above
  let resultFormatsLen ← u16TryFrom n s!"too many result format codes ({n})"
  BufM.extend (beBytes 2 resultFormatsLen)
  forM self.resultFormats fun format => BufM.extend (beBytes 2 format.code)

/-- `EncodeMessage(bind).encode_with(buf, ())`. -/
def Bind.encodeWith (self : Bind) : BufM Unit := encodeMessage Bind.format self.encodeBody

/-- The body `encode_body` writes, both counts from `formats`. -/
def Bind.bodyBytes (self : Bind) : List UInt8 :=
  self.portal.name ++ [0] ++ self.statement.name ++ [0] ++ beBytes 2 self.formats.length ++
    self.formats.flatMap (beBytes 2 ·.code) ++ beBytes 2 self.numParams.toNat ++ self.params ++
    beBytes 2 self.formats.length ++ self.resultFormats.flatMap (beBytes 2 ·.code)

section Encode

variable (self : Bind) (buf : List UInt8)

theorem run_u16TryFrom_of_lt {len : Nat} (h : len < 2 ^ 16) (error : String) :
    (u16TryFrom len error).run buf = .ok len buf := by
  unfold u16TryFrom
  rw [if_pos h]
  rfl

theorem run_u16TryFrom_of_le {len : Nat} (h : 2 ^ 16 ≤ len) (error : String) :
    (u16TryFrom len error).run buf = .error error buf := by
  unfold u16TryFrom
  rw [if_neg (Nat.not_lt_of_le h)]
  rfl

/-- With fewer than `2 ^ 16` parameter formats the body is `bodyBytes`. -/
theorem run_encodeBody (hf : self.formats.length < 2 ^ 16) :
    self.encodeBody.run buf = .ok () (buf ++ self.bodyBytes) := by
  simp only [Bind.encodeBody, putPortalName, putStatementName, EStateM.run_bind_of_ok
    (IdInner.run_putNameWithNul _ _ _), EStateM.run_bind_of_ok (run_u16TryFrom_of_lt _ hf _),
    EStateM.run_bind_of_ok (BufM.run_extend _ _), EStateM.run_bind_of_ok (BufM.run_forM_extend _ _ _),
    BufM.run_forM_extend, Bind.bodyBytes, StatementId.name, PortalId.name, List.append_assoc]

/-- With too many parameter formats the body fails after the two names. -/
theorem run_encodeBody_of_le (hf : 2 ^ 16 ≤ self.formats.length) :
    ∃ e, self.encodeBody.run buf =
      .error e (buf ++ self.portal.name ++ [0] ++ self.statement.name ++ [0]) := by
  simp only [Bind.encodeBody, putPortalName, putStatementName, EStateM.run_bind_of_ok
    (IdInner.run_putNameWithNul _ _ _)]
  exact ⟨_, EStateM.run_bind_of_error (run_u16TryFrom_of_le _ hf _)⟩

/-- The message `encode_with` appends: `'B'`, the length and `bodyBytes`. -/
theorem run_encodeWith (hf : self.formats.length < 2 ^ 16)
    (hsize : 4 + self.bodyBytes.length ≤ 2147483647) :
    self.encodeWith.run buf =
      .ok () (buf ++ [Bind.format] ++ i32ToBeBytes ((4 + self.bodyBytes.length : Nat) : Int) ++ self.bodyBytes) :=
  encodeMessage_of_ok (by rw [run_encodeBody _ _ hf]) hsize

/-- Too many parameter formats: the message fails and leaves `'B'` in the buffer. -/
theorem run_encodeWith_of_le (hf : 2 ^ 16 ≤ self.formats.length) :
    ∃ e, self.encodeWith.run buf = .error e (buf ++ [Bind.format]) := by
  obtain ⟨e, he⟩ := run_encodeBody_of_le self (buf ++ [Bind.format] ++ [0, 0, 0, 0]) hf
  have hwritten : self.encodeBody.run (buf ++ [Bind.format] ++ [0, 0, 0, 0]) =
      .error e (buf ++ [Bind.format] ++ [0, 0, 0, 0] ++ (self.portal.name ++ [0] ++ self.statement.name ++ [0])) := by
    rw [he]
    simp only [List.append_assoc]
  exact ⟨e, encodeMessage_of_error hwritten⟩

end Encode

/-! ## The grammar -/

/-- A `Bind` message as the server reads it. -/
structure BindFields where
  portal : List UInt8
  statement : List UInt8
  formats : List Nat
  numParams : Nat
  params : List UInt8
  resultFormats : List Nat
  deriving DecidableEq, Repr

/-- The fields a `Bind` is meant to send. -/
def Bind.fields (self : Bind) : BindFields :=
  ⟨self.portal.name, self.statement.name, self.formats.map (·.code), self.numParams.toNat, self.params,
    self.resultFormats.map (·.code)⟩

/-- `n` parameter values, each an `i32` length and that many bytes, or `-1`
and none for NULL; the bytes read are given back as they are. -/
def readParamValues : Nat → List UInt8 → Option (List UInt8 × List UInt8)
  | 0, bytes => some ([], bytes)
  | n + 1, bytes =>
    match readN 4 bytes with
    | none => none
    | some (len, rest) =>
      let length := ofTwos 32 (beValue len)
      if length = -1 then (readParamValues n rest).map fun p => (len ++ p.1, p.2)
      else if 0 ≤ length then
        match readN length.toNat rest with
        | none => none
        | some (value, rest) => (readParamValues n rest).map fun p => (len ++ value ++ p.1, p.2)
      else none

/-- The body of a `Bind`, all of it. -/
def parseBindBody (body : List UInt8) : Option BindFields := do
  let (portal, r) ← readCString body
  let (statement, r) ← readCString r
  let (n, r) ← readBe 2 r
  let (formats, r) ← readBes 2 n r
  let (numParams, r) ← readBe 2 r
  let (params, r) ← readParamValues numParams r
  let (m, r) ← readBe 2 r
  let (resultFormats, r) ← readBes 2 m r
  if r.isEmpty then some ⟨portal, statement, formats, numParams, params, resultFormats⟩ else none

/-- A whole `Bind` message: `'B'`, a length that counts itself and the body,
and the body. -/
def parseBind : List UInt8 → Option BindFields
  | [] => none
  | tag :: rest =>
    if tag = Bind.format then
      match readBe 4 rest with
      | none => none
      | some (len, body) => if len = body.length + 4 then parseBindBody body else none
    else none

/-- Parameter values framed as the grammar reads them. -/
def paramBytes (values : List (Option (List UInt8))) : List UInt8 :=
  values.flatMap fun v =>
    match v with
    | none => i32ToBeBytes (-1)
    | some value => i32ToBeBytes value.length ++ value

/-- The params of a `Bind` are `num_params` framed values, as `PgArguments`
writes them. -/
def Bind.ParamsFramed (self : Bind) : Prop :=
  ∃ values : List (Option (List UInt8)), values.length = self.numParams.toNat ∧
    (∀ value, some value ∈ values → value.length < 2 ^ 31) ∧ self.params = paramBytes values

/-- An `i32` written big-endian reads back as itself. -/
theorem ofTwos_beValue_i32ToBeBytes {x : Int} (hlo : -2147483648 ≤ x) (hhi : x < 2147483648) :
    ofTwos 32 (beValue (i32ToBeBytes x)) = x := by
  rw [i32ToBeBytes, beValue_beBytes_of_lt (twos_lt 32 x)]
  exact ofTwos_twos (by decide) hlo hhi

theorem readParamValues_paramBytes (values : List (Option (List UInt8)))
    (hvalues : ∀ value, some value ∈ values → value.length < 2 ^ 31) (rest : List UInt8) :
    readParamValues values.length (paramBytes values ++ rest) = some (paramBytes values, rest) := by
  induction values with
  | nil => rfl
  | cons v values ih =>
    have hrest := ih (fun value hv => hvalues value (List.mem_cons_of_mem v hv))
    cases v with
    | none =>
      have hnull : ofTwos 32 (beValue (i32ToBeBytes (-1))) = -1 := ofTwos_beValue_i32ToBeBytes (by omega) (by omega)
      simp only [List.length_cons, paramBytes, List.flatMap_cons, List.append_assoc, readParamValues,
        readN_append (length_i32ToBeBytes _), hnull, if_true]
      rw [← paramBytes, hrest]
      rfl
    | some value =>
      have hlen := hvalues value List.mem_cons_self
      have hread : ofTwos 32 (beValue (i32ToBeBytes value.length)) = value.length :=
        ofTwos_beValue_i32ToBeBytes (by omega) (by exact_mod_cast hlen)
      have hne : (value.length : Int) ≠ -1 := by omega
      simp only [List.length_cons, paramBytes, List.flatMap_cons, List.append_assoc, readParamValues,
        readN_append (length_i32ToBeBytes _), hread, hne, if_false, Int.natCast_nonneg, if_true,
        Int.toNat_natCast, readN_append rfl]
      rw [← paramBytes, hrest]
      rfl

theorem code_lt (format : PgValueFormat) : format.code < 256 ^ 2 := by
  cases format <;> decide

/-- The grammar reads the body back exactly when the two lists of formats
have the same length: the count in front of the result formats is that of
the parameter formats. -/
theorem parseBindBody_bodyBytes (self : Bind) (hf : self.formats.length < 2 ^ 16) (hp : self.ParamsFramed) :
    parseBindBody self.bodyBytes =
      if self.formats.length = self.resultFormats.length then some self.fields else none := by
  obtain ⟨values, hcount, hvalues, hparams⟩ := hp
  have hcodes : ∀ fs : List PgValueFormat, ∀ x ∈ fs.map (·.code), x < 256 ^ 2 := by
    intro fs x hx
    obtain ⟨f, -, rfl⟩ := List.mem_map.mp hx
    exact code_lt f
  have hbody : self.bodyBytes = self.portal.name ++ 0 :: (self.statement.name ++ 0 ::
      (beBytes 2 self.formats.length ++ ((self.formats.map (·.code)).flatMap (beBytes 2) ++
        (beBytes 2 self.numParams.toNat ++ (paramBytes values ++
          (beBytes 2 self.formats.length ++ (self.resultFormats.map (·.code)).flatMap (beBytes 2))))))) := by
    simp [Bind.bodyBytes, hparams, List.flatMap_map]
  have hnum : self.numParams.toNat < 256 ^ 2 := self.numParams.toNat_lt
  have hreadFormats := readBes_flatMap (self.formats.map (·.code)) (hcodes _)
  rw [List.length_map] at hreadFormats
  have hreadParams := readParamValues_paramBytes values hvalues
  rw [hcount] at hreadParams
  simp only [parseBindBody, hbody, readCString_append (zero_not_mem_portalName _),
    readCString_append (zero_not_mem_statementName _), readBe_beBytes (show self.formats.length < 256 ^ 2 by omega),
    hreadFormats, readBe_beBytes hnum, hreadParams, Option.bind_eq_bind, Option.bind_some]
  by_cases heq : self.formats.length = self.resultFormats.length
  · have hreadResults := readBes_flatMap (self.resultFormats.map (·.code)) (hcodes _) []
    rw [List.length_map, ← heq, List.append_nil] at hreadResults
    rw [hreadResults, if_pos heq]
    simp [Bind.fields, hparams]
  · rw [if_neg heq]
    cases hread : readBes 2 self.formats.length ((self.resultFormats.map (·.code)).flatMap (beBytes 2)) with
    | none => rfl
    | some p =>
      obtain ⟨ys, rest⟩ := p
      -- the codes that follow are not the number the count asks for, so bytes are left over
      have hlen := length_readBes hread
      have hne : rest ≠ [] := by
        rintro rfl
        simp only [length_flatMap_beBytes, List.length_map, List.length_nil, Nat.add_zero] at hlen
        omega
      simp [hne]

/-- The length prefix `put_length_prefixed` writes reads back as the number
it counts. -/
theorem readBe_i32ToBeBytes {n : Nat} (hn : n < 2 ^ 32) (rest : List UInt8) :
    readBe 4 (i32ToBeBytes (n : Int) ++ rest) = some (n, rest) := by
  rw [i32ToBeBytes, twos_of_nonneg (Int.natCast_nonneg n) (by exact_mod_cast hn), Int.toNat_natCast]
  exact readBe_beBytes (by omega) rest

/-- The message `encode_with` writes for a `Bind`, as the grammar reads it:
the fields when the two lists of formats have the same length, and nothing
otherwise. -/
theorem parseBind_message (self : Bind) (hf : self.formats.length < 2 ^ 16) (hp : self.ParamsFramed)
    (hsize : 4 + self.bodyBytes.length ≤ 2147483647) :
    parseBind ([Bind.format] ++ i32ToBeBytes ((4 + self.bodyBytes.length : Nat) : Int) ++ self.bodyBytes) =
      if self.formats.length = self.resultFormats.length then some self.fields else none := by
  have hlen := readBe_i32ToBeBytes (show 4 + self.bodyBytes.length < 2 ^ 32 by omega) self.bodyBytes
  simp only [List.cons_append, List.nil_append, parseBind, if_true, hlen]
  rw [if_pos (Nat.add_comm _ _), parseBindBody_bodyBytes self hf hp]

/-- The message `encode_with` writes for a `Bind`, and how its grammar reads
it: the fields come back exactly when the parameter and result format lists
have the same length, and otherwise the message is rejected. -/
theorem parseBind_encodeWith (self : Bind) (hf : self.formats.length < 2 ^ 16) (hp : self.ParamsFramed)
    (hsize : 4 + self.bodyBytes.length ≤ 2147483647) :
    ∃ msg, self.encodeWith.run [] = .ok () msg ∧
      parseBind msg = if self.formats.length = self.resultFormats.length then some self.fields else none :=
  ⟨_, run_encodeWith self [] hf hsize, by rw [List.nil_append, parseBind_message self hf hp hsize]⟩

end Sqlx.Postgres
