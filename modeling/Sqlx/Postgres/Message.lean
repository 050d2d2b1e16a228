import Sqlx.Lib.Reader
import Sqlx.Lib.EStateM
import Sqlx.Postgres.Arguments
import Sqlx.Core.WriteBuffer

/-!
# Postgres — framing a frontend message (`message/mod.rs`, `io/buf_mut.rs`, `io/mod.rs`)

Every frontend message goes into the send buffer as its format byte, a
big-endian `i32` length that counts itself and the body, and the body.
`EncodeMessage::encode_with` pushes the format byte and hands the body to
`put_length_prefixed`, which reserves the four length bytes, lets the body
write after them, and then either back-patches the length or, on an error,
truncates the buffer back to where the length was to go. The format byte
stays behind on that path (`encodeMessage_of_error`), but past
`bytes_written`, so that `write_with` still leaves the bytes to send as
they were (`writeWith_encodeMessage_of_error`).

Statements and portals are named by `IdInner`: none for the unnamed one, or
a `NonZeroU32` written as a prefix and its decimal digits before the NUL.
-/

namespace Sqlx.Postgres

open Wire

/-- A writer into the send buffer that can fail:
`FnOnce(&mut Vec<u8>) -> Result<(), Error>`. -/
abbrev BufM := EStateM String (List UInt8)

namespace BufM

/-- `buf.extend(bytes)` (also `push` and `extend_from_slice`). -/
def extend (bytes : List UInt8) : BufM Unit := modify (· ++ bytes)

@[simp] theorem run_extend (bytes buf : List UInt8) : (extend bytes).run buf = .ok () (buf ++ bytes) := rfl

/-- A loop of `extend`s writes the bytes of each element in turn. -/
theorem run_forM_extend {α : Type} (f : α → List UInt8) (xs : List α) (buf : List UInt8) :
    (forM xs fun x => extend (f x)).run buf = .ok () (buf ++ xs.flatMap f) := by
  induction xs generalizing buf with
  | nil => simp
  | cons x xs ih =>
    rw [List.forM_cons, EStateM.run_bind_of_ok (run_extend (f x) buf), ih]
    simp

end BufM

/-- `put_length_prefixed`. -/
def putLengthPrefixed (writeContents : BufM Unit) : BufM Unit := fun buf =>
  -- reserve space to write the prefixed length
  let offset := buf.length
  match writeContents.run (buf ++ [0, 0, 0, 0]) with
  | .ok () buf' =>
    let size := buf'.length - offset
    -- `i32::try_from(size)`
    if size ≤ 2147483647 then .ok () (overwrite buf' offset (i32ToBeBytes size))
    else .error s!"message size out of range for protocol: {size}" (buf'.take offset)
  | .error e buf' => .error e (buf'.take offset)

/-- `EncodeMessage(message).encode_with(buf, ())`, for a message whose format
byte is `format` and whose `encode_body` is `encodeBody`. -/
def encodeMessage (format : UInt8) (encodeBody : BufM Unit) : BufM Unit := do
  -- `try_reserve(size_hint)` only fails when the allocator does, and is left out
  BufM.extend [format]
  putLengthPrefixed encodeBody

section Framing

variable {writeContents : BufM Unit} {buf body : List UInt8}

/-- A body that appends `body` is framed by its length, four more than the body. -/
theorem putLengthPrefixed_of_ok (h : writeContents.run (buf ++ [0, 0, 0, 0]) = .ok () (buf ++ [0, 0, 0, 0] ++ body))
    (hsize : 4 + body.length ≤ 2147483647) :
    (putLengthPrefixed writeContents).run buf = .ok () (buf ++ i32ToBeBytes ((4 + body.length : Nat) : Int) ++ body) := by
  have hlen : (buf ++ [0, 0, 0, 0] ++ body).length - buf.length = 4 + body.length := by
    simp only [List.length_append, List.length_cons, List.length_nil]
    omega
  have hpatch := overwrite_placeholder buf [0, 0, 0, 0] body (i32ToBeBytes ((4 + body.length : Nat) : Int)) (by simp)
  simp only [EStateM.run, putLengthPrefixed] at h ⊢
  rw [h]
  simp only [hlen, if_pos hsize, hpatch]

/-- A body that fails after appending anything leaves the buffer as it was. -/
theorem putLengthPrefixed_of_error {e : String} {written : List UInt8}
    (h : writeContents.run (buf ++ [0, 0, 0, 0]) = .error e (buf ++ [0, 0, 0, 0] ++ written)) :
    (putLengthPrefixed writeContents).run buf = .error e buf := by
  simp only [EStateM.run, putLengthPrefixed] at h ⊢
  rw [h]
  simp

/-- A body too long for an `i32` length fails and leaves the buffer as it was. -/
theorem putLengthPrefixed_of_too_long (h : writeContents.run (buf ++ [0, 0, 0, 0]) = .ok () (buf ++ [0, 0, 0, 0] ++ body))
    (hsize : 2147483647 < 4 + body.length) :
    ∃ e, (putLengthPrefixed writeContents).run buf = .error e buf := by
  have hlen : (buf ++ [0, 0, 0, 0] ++ body).length - buf.length = 4 + body.length := by
    simp only [List.length_append, List.length_cons, List.length_nil]
    omega
  simp only [EStateM.run, putLengthPrefixed] at h ⊢
  rw [h]
  have htake : (buf ++ [0, 0, 0, 0] ++ body).take buf.length = buf := by simp
  simp only [hlen, if_neg (Nat.not_le_of_lt hsize), htake]
  exact ⟨_, rfl⟩

variable {format : UInt8}

/-- The message: its format byte, its length and its body. -/
theorem encodeMessage_of_ok
    (h : writeContents.run (buf ++ [format] ++ [0, 0, 0, 0]) = .ok () (buf ++ [format] ++ [0, 0, 0, 0] ++ body))
    (hsize : 4 + body.length ≤ 2147483647) :
    (encodeMessage format writeContents).run buf = .ok () (buf ++ [format] ++ i32ToBeBytes ((4 + body.length : Nat) : Int) ++ body) := by
  rw [encodeMessage, EStateM.run_bind_of_ok (BufM.run_extend [format] buf)]
  exact putLengthPrefixed_of_ok h hsize

/-- A body that fails: the buffer keeps the format byte pushed before the
length prefix, and nothing of the body. -/
theorem encodeMessage_of_error {e : String} {written : List UInt8}
    (h : writeContents.run (buf ++ [format] ++ [0, 0, 0, 0]) = .error e (buf ++ [format] ++ [0, 0, 0, 0] ++ written)) :
    (encodeMessage format writeContents).run buf = .error e (buf ++ [format]) := by
  rw [encodeMessage, EStateM.run_bind_of_ok (BufM.run_extend [format] buf)]
  exact putLengthPrefixed_of_error h

/-- A message whose body fails, written with `write_with`: the error comes
back and the bytes to send are those there were, while the `Vec` keeps the
format byte past `bytes_written` until the next `buf_mut` cuts it off. -/
theorem writeWith_encodeMessage_of_error {wb : WriteBuffer} (h : wb.Sane) {e : String} {written : List UInt8}
    (hbody : writeContents.run (wb.buf.bytes.take wb.bytesWritten ++ [format] ++ [0, 0, 0, 0]) =
      .error e (wb.buf.bytes.take wb.bytesWritten ++ [format] ++ [0, 0, 0, 0] ++ written)) :
    ∃ wb', wb.writeWith (encodeMessage format writeContents) = some (.error e, wb') ∧ wb'.Sane ∧
      wb'.pending = wb.pending ∧ wb'.buf.bytes = wb.buf.bytes.take wb.bytesWritten ++ [format] := by
  obtain ⟨wb', hrun, hsane, hpending, -, hbytes⟩ := WriteBuffer.writeWith_of_error h (encodeMessage_of_error hbody)
  exact ⟨wb', hrun, hsane, hpending, hbytes⟩

end Framing

/-! ## Statement and portal names -/

/-- The id after `id` as `checked_add(1).unwrap_or(NonZeroU32::MIN)` gives it. -/
def nextId (id : Nat) : Nat := if id + 1 < 2 ^ 32 then id + 1 else 1

theorem nextId_valid (id : Nat) : 0 < nextId id ∧ nextId id < 2 ^ 32 := by
  unfold nextId
  split <;> omega

/-- `IdInner`: `None` for the unnamed statement or portal, otherwise a `NonZeroU32`. -/
structure IdInner where
  id : Option Nat
  id_valid : ∀ n ∈ id, 0 < n ∧ n < 2 ^ 32

namespace IdInner

def unnamed : IdInner := ⟨none, by simp⟩

def namedStart : IdInner := ⟨some 1, by simp⟩

/-- `next`: the unnamed id stays unnamed, a named one wraps to 1 past `u32::MAX`. -/
def next (self : IdInner) : IdInner :=
  ⟨self.id.map nextId, by
    intro n hn
    obtain ⟨m, -, rfl⟩ := Option.mem_map.mp hn
    exact nextId_valid m⟩

/-- The name `put_name_with_nul` writes before its NUL: nothing for the unnamed id. -/
def name (self : IdInner) (namePrefix : String) : List UInt8 :=
  match self.id with
  | some id => asciiBytes namePrefix.toList ++ decimalBytes id
  | none => []

/-- `put_name_with_nul`. -/
def putNameWithNul (self : IdInner) (namePrefix : String) : BufM Unit := do
  if let some id := self.id then
    BufM.extend (asciiBytes namePrefix.toList)
    BufM.extend (decimalBytes id)
  BufM.extend [0]

theorem run_putNameWithNul (self : IdInner) (namePrefix : String) (buf : List UInt8) :
    (self.putNameWithNul namePrefix).run buf = .ok () (buf ++ self.name namePrefix ++ [0]) := by
  unfold putNameWithNul name
  cases self.id with
  | none => simp
  | some id =>
    simp only [EStateM.run_bind_of_ok (BufM.run_extend _ _), BufM.run_extend, List.append_assoc]

/-- A name never holds a NUL when its prefix does not. -/
theorem zero_not_mem_name (self : IdInner) {namePrefix : String}
    (hpre : (0 : UInt8) ∉ asciiBytes namePrefix.toList) : (0 : UInt8) ∉ self.name namePrefix := by
  unfold name
  cases self.id with
  | none => simp
  | some id =>
    intro h
    rcases List.mem_append.mp h with h | h
    · exact hpre h
    · exact zero_not_mem_decimalBytes id h

end IdInner

/-- `StatementId`. -/
structure StatementId where
  inner : IdInner

/-- `PortalId`. -/
structure PortalId where
  inner : IdInner

/-- `StatementId::NAME_PREFIX`. -/
def StatementId.namePrefix : String := "sqlx_s_"

/-- `PortalId::NAME_PREFIX`. -/
def PortalId.namePrefix : String := "sqlx_p_"

def StatementId.unnamed : StatementId := ⟨.unnamed⟩

def PortalId.unnamed : PortalId := ⟨.unnamed⟩

def StatementId.name (self : StatementId) : List UInt8 := self.inner.name StatementId.namePrefix

def PortalId.name (self : PortalId) : List UInt8 := self.inner.name PortalId.namePrefix

/-- `put_statement_name`. -/
def putStatementName (id : StatementId) : BufM Unit := id.inner.putNameWithNul StatementId.namePrefix

/-- `put_portal_name`. -/
def putPortalName (id : PortalId) : BufM Unit := id.inner.putNameWithNul PortalId.namePrefix

theorem zero_not_mem_statementName (id : StatementId) : (0 : UInt8) ∉ id.name :=
  id.inner.zero_not_mem_name (by decide)

theorem zero_not_mem_portalName (id : PortalId) : (0 : UInt8) ∉ id.name :=
  id.inner.zero_not_mem_name (by decide)

-- `statement_id_display_matches_encoding`
example : (putStatementName ⟨⟨some 1234567890, by decide⟩⟩).run [] =
    .ok () ("sqlx_s_1234567890".toList.map (·.toNat.toUInt8) ++ [0]) := by
  rfl

end Sqlx.Postgres
