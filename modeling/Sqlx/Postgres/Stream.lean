import Sqlx.Core.ReadBuffer
import Sqlx.Lib.Bytes

/-!
# Postgres — backend message framing (`sqlx-postgres/src/connection/stream.rs`)

`PgStream::recv_unchecked` reads one backend message through
`BufferedSocket::try_read`: a type byte, a big-endian `u32` length that counts
itself, then the contents. The closure leaves the buffer alone until the whole
message is there, so it reads every message the server sends and is
cancel-safe (`readsFrame_recvUncheckedRead`); over any chunking of a stream of
messages and any drops, successive calls return the messages in order.

A header whose type byte is unknown is an `Err`. A length below 4 is not
checked: the length prefix is cut short by `split_to(message_len)`, and
`contents.advance(4)` panics (`recvUncheckedRead_of_length_lt_four`).
-/

namespace Sqlx.Postgres

open Wire

/-- `BackendMessageFormat`. -/
inductive BackendMessageFormat where
  | authentication
  | backendKeyData
  | bindComplete
  | closeComplete
  | commandComplete
  | copyData
  | copyDone
  | copyInResponse
  | copyOutResponse
  | dataRow
  | emptyQueryResponse
  | errorResponse
  | noData
  | noticeResponse
  | notificationResponse
  | parameterDescription
  | parameterStatus
  | parseComplete
  | portalSuspended
  | readyForQuery
  | rowDescription
  deriving DecidableEq, Repr

/-- The errors of `recv_unchecked`'s closure, each an `err_protocol!`. -/
inductive RecvError where
  /-- `unknown message type: {:?}`, the byte as a `char`. -/
  | unknownMessageType (v : UInt8)
  /-- `message_len + 1 overflows usize: {message_len}`. -/
  | messageLenOverflow (messageLen : Nat)
  deriving DecidableEq, Repr

namespace BackendMessageFormat

/-- `BackendMessageFormat::try_from_u8`. -/
def tryFromU8 (v : UInt8) : Except RecvError BackendMessageFormat :=
  match v with
  | 0x31 => .ok .parseComplete
  | 0x32 => .ok .bindComplete
  | 0x33 => .ok .closeComplete
  | 0x43 => .ok .commandComplete
  | 0x64 => .ok .copyData
  | 0x63 => .ok .copyDone
  | 0x47 => .ok .copyInResponse
  | 0x48 => .ok .copyOutResponse
  | 0x44 => .ok .dataRow
  | 0x45 => .ok .errorResponse
  | 0x49 => .ok .emptyQueryResponse
  | 0x41 => .ok .notificationResponse
  | 0x4B => .ok .backendKeyData
  | 0x4E => .ok .noticeResponse
  | 0x52 => .ok .authentication
  | 0x53 => .ok .parameterStatus
  | 0x54 => .ok .rowDescription
  | 0x5A => .ok .readyForQuery
  | 0x6E => .ok .noData
  | 0x73 => .ok .portalSuspended
  | 0x74 => .ok .parameterDescription
  | _ => .error (.unknownMessageType v)

/-- The type byte the server writes for a format: the one `try_from_u8`
reads back. -/
def tag : BackendMessageFormat → UInt8
  | .parseComplete => 0x31
  | .bindComplete => 0x32
  | .closeComplete => 0x33
  | .commandComplete => 0x43
  | .copyData => 0x64
  | .copyDone => 0x63
  | .copyInResponse => 0x47
  | .copyOutResponse => 0x48
  | .dataRow => 0x44
  | .errorResponse => 0x45
  | .emptyQueryResponse => 0x49
  | .notificationResponse => 0x41
  | .backendKeyData => 0x4B
  | .noticeResponse => 0x4E
  | .authentication => 0x52
  | .parameterStatus => 0x53
  | .rowDescription => 0x54
  | .readyForQuery => 0x5A
  | .noData => 0x6E
  | .portalSuspended => 0x73
  | .parameterDescription => 0x74

theorem tryFromU8_tag (format : BackendMessageFormat) : tryFromU8 format.tag = .ok format := by
  cases format <;> rfl

theorem tag_of_tryFromU8 {v : UInt8} {format : BackendMessageFormat} (h : tryFromU8 v = .ok format) :
    format.tag = v := by
  unfold tryFromU8 at h
  split at h <;> cases h <;> rfl

/-- A byte that is no format's tag is refused. -/
theorem tryFromU8_of_ne {v : UInt8} (h : ∀ format : BackendMessageFormat, format.tag ≠ v) :
    tryFromU8 v = .error (.unknownMessageType v) := by
  cases hv : tryFromU8 v with
  | ok format => exact absurd (tag_of_tryFromU8 hv) (h format)
  | error e =>
    unfold tryFromU8 at hv
    -- every branch but the last returns a format
    split at hv
    all_goals cases hv
    rfl

end BackendMessageFormat

/-- `ReceivedMessage`: the format and the contents after the length. -/
structure ReceivedMessage where
  format : BackendMessageFormat
  contents : List UInt8
  deriving DecidableEq, Repr

/-- The bytes the server sends for a message: the type, the length of the
contents and the length itself, then the contents. -/
def ReceivedMessage.bytes (m : ReceivedMessage) : List UInt8 :=
  m.format.tag :: beBytes 4 (m.contents.length + 4) ++ m.contents

/-- The closure `recv_unchecked` passes to `try_read`; `none` is a panic. -/
def recvUncheckedRead (buf : List UInt8) : Option (Except RecvError (ControlFlow ReceivedMessage) × List UInt8) :=
  -- `buf.get(..5)`
  if buf.length < 5 then some (.ok (.continue 5), buf)
  else
    let header := buf.take 5
    match BackendMessageFormat.tryFromU8 (header.headD 0) with
    | .error e => some (.error e, buf)
    | .ok format =>
      let messageLen := beValue (header.drop 1)
      -- `checked_add(1)` on a 64-bit `usize`
      if 2 ^ 64 ≤ messageLen + 1 then some (.error (.messageLenOverflow messageLen), buf)
      else
        let expectedLen := messageLen + 1
        if buf.length < expectedLen then some (.ok (.continue expectedLen), buf)
        else
          -- `advance(1)`; the five bytes of the header are there
          let buf := buf.drop 1
          -- `split_to(message_len)` panics past the end, `advance(4)` on fewer than four bytes
          if buf.length < messageLen then none
          else
            let contents := buf.take messageLen
            if contents.length < 4 then none
            else some (.ok (.break ⟨format, contents.drop 4⟩), buf.drop messageLen)

/-- `PgStream::recv_unchecked`, run for `fuel` steps of `try_read`. -/
def recvUnchecked (fuel : Nat) (rb : ReadBuffer UInt8) : ReadOutcome RecvError ReceivedMessage UInt8 :=
  tryRead recvUncheckedRead fuel rb

/-! ## The closure, case by case -/

section Closure

variable {v : UInt8} {len : List UInt8}

theorem take_five_header (hlen : len.length = 4) (body : List UInt8) : (v :: len ++ body).take 5 = v :: len := by
  rw [List.cons_append, List.take_succ_cons, List.take_left' hlen]

theorem recvUncheckedRead_of_lt_five {buf : List UInt8} (h : buf.length < 5) :
    recvUncheckedRead buf = some (.ok (.continue 5), buf) := by
  simp [recvUncheckedRead, h]

theorem recvUncheckedRead_of_error {e : RecvError} (hformat : BackendMessageFormat.tryFromU8 v = .error e)
    (hlen : len.length = 4) (body : List UInt8) :
    recvUncheckedRead (v :: len ++ body) = some (.error e, v :: len ++ body) := by
  have hfive : ¬(v :: len ++ body).length < 5 := by simp [hlen]
  simp only [recvUncheckedRead, if_neg hfive, take_five_header hlen, List.headD_cons, hformat]

/-- With the format known, the closure reads the length and compares; this
is the common unfolding of the three cases below. -/
theorem recvUncheckedRead_of_ok {format : BackendMessageFormat}
    (hformat : BackendMessageFormat.tryFromU8 v = .ok format) (hlen : len.length = 4) (body : List UInt8) :
    recvUncheckedRead (v :: len ++ body) =
      if body.length + 4 < beValue len then some (.ok (.continue (beValue len + 1)), v :: len ++ body)
      else if (len ++ body).length < beValue len then none
      else if ((len ++ body).take (beValue len)).length < 4 then none
      else some (.ok (.break ⟨format, ((len ++ body).take (beValue len)).drop 4⟩), (len ++ body).drop (beValue len)) := by
  have hfive : ¬(v :: len ++ body).length < 5 := by simp [hlen]
  have hvalue : beValue len < 2 ^ 32 := by
    have := beValue_lt len
    rw [hlen] at this
    omega
  have hoverflow : ¬2 ^ 64 ≤ beValue len + 1 := by omega
  have hlength : (v :: len ++ body).length = body.length + 5 := by simp [hlen]; omega
  rw [recvUncheckedRead, if_neg hfive, take_five_header hlen]
  simp only [List.headD_cons, hformat, List.drop_one, List.tail_cons, if_neg hoverflow]
  by_cases hshort : body.length + 4 < beValue len
  · rw [if_pos (by omega), if_pos hshort]
  · rw [if_neg (by omega), if_neg hshort, List.cons_append, List.tail_cons]

/-- Before the whole message is there, the closure waits for it. -/
theorem recvUncheckedRead_of_incomplete {format : BackendMessageFormat}
    (hformat : BackendMessageFormat.tryFromU8 v = .ok format) (hlen : len.length = 4) {body : List UInt8}
    (hshort : body.length + 4 < beValue len) :
    recvUncheckedRead (v :: len ++ body) = some (.ok (.continue (beValue len + 1)), v :: len ++ body) := by
  rw [recvUncheckedRead_of_ok hformat hlen, if_pos hshort]

/-- **A length below four panics**: the length prefix is cut short. -/
theorem recvUncheckedRead_of_length_lt_four {format : BackendMessageFormat}
    (hformat : BackendMessageFormat.tryFromU8 v = .ok format) (hlen : len.length = 4) (hsmall : beValue len < 4)
    (body : List UInt8) :
    recvUncheckedRead (v :: len ++ body) = none := by
  have hfits : ¬(len ++ body).length < beValue len := by simp [hlen]; omega
  have hcut : ((len ++ body).take (beValue len)).length < 4 := by simp [hlen]; omega
  rw [recvUncheckedRead_of_ok hformat hlen, if_neg (by omega), if_neg hfits, if_pos hcut]

/-- A whole message is taken off the buffer. -/
theorem recvUncheckedRead_bytes (m : ReceivedMessage) (hm : m.contents.length + 4 < 2 ^ 32) (rest : List UInt8) :
    recvUncheckedRead (m.bytes ++ rest) = some (.ok (.break m), rest) := by
  have hvalue : beValue (beBytes 4 (m.contents.length + 4)) = m.contents.length + 4 :=
    beValue_beBytes_of_lt (by simpa using hm)
  have hlen : (beBytes 4 (m.contents.length + 4)).length = 4 := length_beBytes 4 _
  have hbody : beBytes 4 (m.contents.length + 4) ++ (m.contents ++ rest) =
      (beBytes 4 (m.contents.length + 4) ++ m.contents) ++ rest := (List.append_assoc _ _ _).symm
  have hprefix : (beBytes 4 (m.contents.length + 4) ++ m.contents).length = m.contents.length + 4 := by
    simp [hlen, Nat.add_comm]
  rw [ReceivedMessage.bytes, List.append_assoc,
    recvUncheckedRead_of_ok (BackendMessageFormat.tryFromU8_tag m.format) hlen, hvalue, hbody,
    List.take_left' hprefix, List.drop_left' hprefix, List.drop_left' hlen]
  simp [hlen]
  omega

end Closure

/-! ## Framing -/

/-- The closure reads every message the server can send, and asks for more
without touching the buffer until the whole message is there. -/
theorem readsFrame_recvUncheckedRead (m : ReceivedMessage) (hm : m.contents.length + 4 < 2 ^ 32) :
    ReadsFrame recvUncheckedRead m.bytes m where
  more := by
    intro pre hpre hshort
    have hlength : m.bytes.length = m.contents.length + 5 := by simp [ReceivedMessage.bytes]; omega
    by_cases hfive : pre.length < 5
    · exact ⟨5, hfive, by omega, recvUncheckedRead_of_lt_five hfive⟩
    · -- the header is there: the prefix is the type, the length, and part of the contents
      obtain ⟨t, ht⟩ := hpre
      have hsplit : pre = m.format.tag :: beBytes 4 (m.contents.length + 4) ++ pre.drop 5 := by
        have htake : pre.take 5 = m.format.tag :: beBytes 4 (m.contents.length + 4) := by
          have := congrArg (List.take 5) ht
          rw [List.take_append_of_le_length (by omega)] at this
          rw [this, ReceivedMessage.bytes, take_five_header (length_beBytes 4 _)]
        rw [← htake, List.take_append_drop]
      have hvalue : beValue (beBytes 4 (m.contents.length + 4)) = m.contents.length + 4 :=
        beValue_beBytes_of_lt (by simpa using hm)
      refine ⟨m.contents.length + 5, by omega, by omega, ?_⟩
      rw [hsplit, recvUncheckedRead_of_incomplete (BackendMessageFormat.tryFromU8_tag m.format) (length_beBytes 4 _),
        hvalue]
      simp only [List.length_drop]
      omega
  done := recvUncheckedRead_bytes m hm

theorem waitsOnEmpty_recvUncheckedRead : WaitsOnEmpty recvUncheckedRead :=
  ⟨5, by decide, recvUncheckedRead_of_lt_five (by decide)⟩

/-- **Framing is cancel-safe, and a short length panics.** Over any chunking
of a stream of backend messages and any drops, the calls that complete return
the messages in order, with no error and no panic; given a step for each
chunk, a call returns the next message. A header with an unknown type is an
`Err` on the buffer as it was; one with a length below four panics. -/
theorem recv_unchecked_frames_and_panics_below_four :
    (∀ (msgs : List ReceivedMessage) (chunks : List (List UInt8)) (fuels : List Nat),
      (∀ m ∈ msgs, m.contents.length + 4 < 2 ^ 32) → (∀ c ∈ chunks, c ≠ []) →
      chunks.flatten = msgs.flatMap ReceivedMessage.bytes →
      (∃ k, (session recvUncheckedRead fuels ⟨[], chunks⟩).filterMap ReadOutcome.ret? = msgs.take k) ∧
        ∀ o ∈ session recvUncheckedRead fuels ⟨[], chunks⟩, o.Benign) ∧
    (∀ (m : ReceivedMessage) (ms : List ReceivedMessage) (rb : ReadBuffer UInt8) (fuel : Nat),
      m.contents.length + 4 < 2 ^ 32 → Holds (m.bytes ++ ms.flatMap ReceivedMessage.bytes) rb →
      3 * rb.input.length + 1 ≤ fuel →
      ∃ rb', recvUnchecked fuel rb = .ready m rb' ∧ Holds (ms.flatMap ReceivedMessage.bytes) rb') ∧
    (∀ (v : UInt8) (len body : List UInt8) (input : List (List UInt8)) (fuel : Nat),
      (∀ format : BackendMessageFormat, format.tag ≠ v) → len.length = 4 →
      recvUnchecked (fuel + 1) ⟨v :: len ++ body, input⟩ =
        .error (.callback (.unknownMessageType v)) ⟨v :: len ++ body, input⟩) ∧
    (∀ (format : BackendMessageFormat) (messageLen : Nat) (body : List UInt8) (input : List (List UInt8))
      (fuel : Nat), messageLen < 4 →
      recvUnchecked (fuel + 1) ⟨format.tag :: beBytes 4 messageLen ++ body, input⟩ = .panic) := by
  refine ⟨?_, ?_, ?_, ?_⟩
  · intro msgs chunks fuels hmsgs hchunks hflat
    exact session_frames ReceivedMessage.bytes waitsOnEmpty_recvUncheckedRead fuels msgs ⟨[], chunks⟩
      (fun m hm => readsFrame_recvUncheckedRead m (hmsgs m hm)) ⟨by rw [List.nil_append, hflat], hchunks⟩
  · intro m ms rb fuel hm h hfuel
    exact tryRead_ready (readsFrame_recvUncheckedRead m hm) h hfuel
  · intro v len body input fuel hv hlen
    exact tryRead_of_error (recvUncheckedRead_of_error (BackendMessageFormat.tryFromU8_of_ne hv) hlen body) fuel
  · intro format messageLen body input fuel hsmall
    have hvalue : beValue (beBytes 4 messageLen) = messageLen := beValue_beBytes_of_lt (by omega)
    exact tryRead_of_panic (recvUncheckedRead_of_length_lt_four (BackendMessageFormat.tryFromU8_tag format)
      (length_beBytes 4 _) (by rw [hvalue]; exact hsmall) body) fuel

/-- A ReadyForQuery message sent in three chunks comes through a call dropped
after one step and a call given twenty; a zero type byte is refused; and the
header of a ReadyForQuery claiming a length of three panics. -/
theorem recv_unchecked_of_ready_for_query :
    ((∃ k, (session recvUncheckedRead [1, 20] ⟨[], [[0x5A], [0, 0, 0], [5, 0x49]]⟩).filterMap ReadOutcome.ret? =
        [(⟨.readyForQuery, [0x49]⟩ : ReceivedMessage)].take k) ∧
      ∀ o ∈ session recvUncheckedRead [1, 20] ⟨[], [[0x5A], [0, 0, 0], [5, 0x49]]⟩, o.Benign) ∧
    (∃ rb', recvUnchecked 10 ⟨[], [[0x5A, 0, 0], [0, 5, 0x49]]⟩ = .ready ⟨.readyForQuery, [0x49]⟩ rb' ∧
      Holds (([] : List ReceivedMessage).flatMap ReceivedMessage.bytes) rb') ∧
    recvUnchecked 1 ⟨[0, 0, 0, 0, 5], []⟩ = .error (.callback (.unknownMessageType 0)) ⟨[0, 0, 0, 0, 5], []⟩ ∧
    recvUnchecked 1 ⟨[0x5A, 0, 0, 0, 3], []⟩ = .panic := by
  have hparts := recv_unchecked_frames_and_panics_below_four
  refine ⟨hparts.1 [⟨.readyForQuery, [0x49]⟩] _ [1, 20] (by decide) (by decide) (by decide),
    hparts.2.1 ⟨.readyForQuery, [0x49]⟩ [] ⟨[], [[0x5A, 0, 0], [0, 5, 0x49]]⟩ 10 (by decide) ⟨by decide, by decide⟩
      (by decide),
    hparts.2.2.1 0 [0, 0, 0, 5] [] [] 0 (fun format => by cases format <;> decide) rfl,
    hparts.2.2.2 .readyForQuery 3 [] [] 0 (by decide)⟩

end Sqlx.Postgres
