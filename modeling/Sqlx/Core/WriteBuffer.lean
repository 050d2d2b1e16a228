import Sqlx.Lib.Bytes
import Sqlx.Lib.EStateM

/-!
# `WriteBuffer` — the send buffer of a `BufferedSocket` (`net/socket/buffered.rs`)

The buffer is a `Vec<u8>` with two cursors: the bytes before `bytes_written`
are the ones written, those before `bytes_flushed` have gone to the socket,
and `get()` is what lies between, the bytes still to send. Past
`bytes_written` the `Vec` may hold anything: what a failed encoder left,
or the zeros of `init_remaining_mut`; `buf_mut` cuts it off before the next
write. `sanity_check` asserts that the capacity is not zero and that the
cursors are in order.

`WriteBuffer.Sane` is what `sanity_check` asserts, and `WriteBuffer.pending`
is what `get()` returns. Each operation keeps `Sane`
and moves `pending` as a queue of bytes: a write adds its bytes at the end
and `consume` takes them from the front (`step_sane`, `runWithQueue_sane`).
A failing encoder leaves `pending` as it was, whatever it pushed
(`writeWith_of_error`). Two operations break this: `shrink` of an empty
`Vec` drops its capacity to zero, so the next `sanity_check` panics
(`capacity_shrink`), and `flush` on a socket whose writes take nothing
never ends (`flush_spins_on_zero_writes`). On a socket whose every write
takes at least one byte, `flush` sends the pending bytes in order
(`flush_of_progress`).

`Vec` capacity is modelled as the least that holds the length after the
`Vec` grows; `shrink_to_fit` sets it to the length.
-/

namespace Sqlx

open Wire

/-- `DEFAULT_BUF_SIZE`. -/
def defaultBufSize : Nat := 8192

/-- A `Vec<u8>`: its bytes and its capacity, never below its length. -/
structure ByteVec where
  bytes : List UInt8
  capacity : Nat
  length_le : bytes.length ≤ capacity

namespace ByteVec

/-- `Vec::with_capacity`. -/
def withCapacity (capacity : Nat) : ByteVec := ⟨[], capacity, Nat.zero_le _⟩

/-- `truncate`: the capacity stays. -/
def truncate (v : ByteVec) (n : Nat) : ByteVec :=
  ⟨v.bytes.take n, v.capacity, (List.length_take_le' _ _).trans v.length_le⟩

/-- The `Vec` after its bytes became `bytes` by pushes and writes in place:
it grows when it has to. -/
def setBytes (v : ByteVec) (bytes : List UInt8) : ByteVec :=
  ⟨bytes, max v.capacity bytes.length, Nat.le_max_right _ _⟩

/-- `extend_from_slice`. -/
def extend (v : ByteVec) (slice : List UInt8) : ByteVec := v.setBytes (v.bytes ++ slice)

/-- `resize(n, 0)`. -/
def resize (v : ByteVec) (n : Nat) : ByteVec :=
  v.setBytes (v.bytes.take n ++ List.replicate (n - v.bytes.length) 0)

/-- `copy_within(start..stop, 0)`, which panics on a range that is reversed
or past the end. -/
def copyWithinToStart (v : ByteVec) (start stop : Nat) : Option ByteVec :=
  if start ≤ stop ∧ stop ≤ v.bytes.length then
    some (v.setBytes (overwrite v.bytes 0 ((v.bytes.take stop).drop start)))
  else none

/-- `shrink_to_fit`, taken to set the capacity to the length. -/
def shrinkToFit (v : ByteVec) : ByteVec := ⟨v.bytes, v.bytes.length, le_refl _⟩

@[simp] theorem bytes_truncate (v : ByteVec) (n : Nat) : (v.truncate n).bytes = v.bytes.take n := rfl

@[simp] theorem capacity_truncate (v : ByteVec) (n : Nat) : (v.truncate n).capacity = v.capacity := rfl

@[simp] theorem bytes_setBytes (v : ByteVec) (bytes : List UInt8) : (v.setBytes bytes).bytes = bytes := rfl

@[simp] theorem capacity_setBytes (v : ByteVec) (bytes : List UInt8) :
    (v.setBytes bytes).capacity = max v.capacity bytes.length := rfl

@[simp] theorem bytes_shrinkToFit (v : ByteVec) : v.shrinkToFit.bytes = v.bytes := rfl

@[simp] theorem capacity_shrinkToFit (v : ByteVec) : v.shrinkToFit.capacity = v.bytes.length := rfl

/-- Growing to `n` at least the length adds zeros and keeps the bytes. -/
theorem bytes_resize (v : ByteVec) {n : Nat} (hn : v.bytes.length ≤ n) :
    (v.resize n).bytes = v.bytes ++ List.replicate (n - v.bytes.length) 0 := by
  rw [resize, bytes_setBytes, List.take_of_length_le hn]

theorem copyWithinToStart_eq (v : ByteVec) {start stop : Nat} (hstart : start ≤ stop)
    (hstop : stop ≤ v.bytes.length) :
    v.copyWithinToStart start stop =
      some (v.setBytes ((v.bytes.take stop).drop start ++ v.bytes.drop (stop - start))) := by
  have hlen : ((v.bytes.take stop).drop start).length = stop - start := by simp; omega
  rw [copyWithinToStart, if_pos ⟨hstart, hstop⟩, overwrite, hlen, List.take_zero, List.nil_append, Nat.zero_add]

end ByteVec

/-- `WriteBuffer`. -/
structure WriteBuffer where
  buf : ByteVec
  bytesWritten : Nat
  bytesFlushed : Nat

namespace WriteBuffer

/-- What `sanity_check` asserts. -/
def Sane (self : WriteBuffer) : Prop :=
  0 < self.buf.capacity ∧ self.bytesWritten ≤ self.buf.bytes.length ∧ self.bytesFlushed ≤ self.bytesWritten

instance (self : WriteBuffer) : Decidable self.Sane := inferInstanceAs (Decidable (_ ∧ _ ∧ _))

/-- `sanity_check`: the buffer, or a panic. -/
def sanityCheck (self : WriteBuffer) : Option WriteBuffer := if self.Sane then some self else none

/-- The write half of `BufferedSocket::new`. -/
def new : WriteBuffer := ⟨ByteVec.withCapacity defaultBufSize, 0, 0⟩

/-- `buf_mut`: the `Vec` cut back to the bytes written, for an encoder to push to. -/
def bufMut (self : WriteBuffer) : Option WriteBuffer :=
  sanityCheck { self with buf := self.buf.truncate self.bytesWritten }

/-- `BufferedSocket::write_with`: the encoder pushes to `buf_mut()`, and only
when it succeeds does `bytes_written` move to the end. -/
def writeWith (self : WriteBuffer) (encode : EStateM String (List UInt8) Unit) :
    Option (Except String Unit × WriteBuffer) := do
  let wb ← self.bufMut
  match encode.run wb.buf.bytes with
  | .ok () bytes =>
    let wb' ← sanityCheck { wb with buf := wb.buf.setBytes bytes, bytesWritten := bytes.length }
    pure (.ok (), wb')
  | .error e bytes => pure (.error e, { wb with buf := wb.buf.setBytes bytes })

/-- `init_remaining_mut`: the `Vec` filled with zeros up to its capacity. -/
def initRemainingMut (self : WriteBuffer) : Option WriteBuffer :=
  sanityCheck { self with buf := self.buf.resize self.buf.capacity }

/-- `advance`. The `checked_add` cannot overflow below the length the
assert allows. -/
def advance (self : WriteBuffer) (amt : Nat) : Option WriteBuffer :=
  if self.bytesWritten + amt ≤ self.buf.bytes.length then
    sanityCheck { self with bytesWritten := self.bytesWritten + amt }
  else none

/-- `put_slice`: in place when the initialized area past `bytes_written`
holds the slice, otherwise after cutting the `Vec` back; then `advance`. -/
def putSlice (self : WriteBuffer) (slice : List UInt8) : Option WriteBuffer :=
  -- `self.buf[self.bytes_written..]` panics past the length
  if self.bytesWritten ≤ self.buf.bytes.length then
    let buf :=
      if slice.length ≤ self.buf.bytes.length - self.bytesWritten then
        self.buf.setBytes (overwrite self.buf.bytes self.bytesWritten slice)
      else (self.buf.truncate self.bytesWritten).extend slice
    ({ self with buf }.advance slice.length).bind sanityCheck
  else none

/-- `is_empty`. -/
def isEmpty (self : WriteBuffer) : Bool := self.bytesWritten ≤ self.bytesFlushed

/-- The bytes between the cursors. -/
def pending (self : WriteBuffer) : List UInt8 := (self.buf.bytes.take self.bytesWritten).drop self.bytesFlushed

/-- `get`: `&self.buf[self.bytes_flushed..self.bytes_written]`, which panics
on a reversed range or one past the length. -/
def get (self : WriteBuffer) : Option (List UInt8) :=
  if self.bytesFlushed ≤ self.bytesWritten ∧ self.bytesWritten ≤ self.buf.bytes.length then some self.pending
  else none

/-- `shrink`: the pending bytes moved to the start, then the `Vec` cut to
`max(bytes_written, DEFAULT_BUF_SIZE)` and its capacity to its length. -/
def shrink (self : WriteBuffer) : Option WriteBuffer := do
  let wb ←
    if 0 < self.bytesFlushed then
      (self.buf.copyWithinToStart self.bytesFlushed self.bytesWritten).map fun buf =>
        ⟨buf, self.bytesWritten - self.bytesFlushed, 0⟩
    else some self
  pure { wb with buf := (wb.buf.truncate (max wb.bytesWritten defaultBufSize)).shrinkToFit }

/-- `consume`: the cursors go back to zero once everything written is flushed. -/
def consume (self : WriteBuffer) (amt : Nat) : Option WriteBuffer :=
  if self.bytesFlushed + amt ≤ self.bytesWritten then
    sanityCheck
      (if self.bytesFlushed + amt = self.bytesWritten then { self with bytesFlushed := 0, bytesWritten := 0 }
      else { self with bytesFlushed := self.bytesFlushed + amt })
  else none

/-- `read_from` on the Tokio runtime: the source reads into the `Vec` that
`buf_mut()` hands it, which grows to hold what it reads, and `advance`
moves past the bytes read. `chunk` is what that one read returned; the
result is its length. -/
def readFrom (self : WriteBuffer) (chunk : List UInt8) : Option (Nat × WriteBuffer) := do
  let wb ← self.bufMut
  let wb : WriteBuffer := { wb with buf := wb.buf.extend chunk }
  let read := chunk.length
  if read > 0 then (wb.advance read).map fun wb => (read, wb) else pure (read, wb)

/-- `get_mut()[start..]` written from its front with `bytes`, as `put_i32`
writes a `&mut [u8]`: `get_mut` is the range of the pending bytes, so the
bytes land at `bytes_flushed + start`. The range panics as in `get`, and
the write when the bytes do not fit after `start`. -/
def writePending (self : WriteBuffer) (start : Nat) (bytes : List UInt8) : Option WriteBuffer :=
  if self.bytesFlushed ≤ self.bytesWritten ∧ self.bytesWritten ≤ self.buf.bytes.length ∧
      start + bytes.length ≤ self.bytesWritten - self.bytesFlushed then
    some { self with buf := self.buf.setBytes (overwrite self.buf.bytes (self.bytesFlushed + start) bytes) }
  else none

end WriteBuffer

/-! ## `flush` -/

/-- The socket's `write` calls: the `k`-th, offered `data`, returns `Err` or
`Ok(n)`. -/
abbrev SocketWrites := Nat → List UInt8 → Except String Nat

/-- How `BufferedSocket::flush` ends: `Ok`, or `Err` with the bytes the
socket took before, or a panic; `outOfFuel` is a loop that has not ended
within its fuel. -/
inductive FlushOutcome where
  | ok (sent : List UInt8) (wb : WriteBuffer)
  | error (e : String) (sent : List UInt8) (wb : WriteBuffer)
  | panic
  | outOfFuel

/-- The outcome of the turns after `pre` went to the socket. -/
def FlushOutcome.sentAfter (pre : List UInt8) : FlushOutcome → FlushOutcome
  | .ok sent wb => .ok (pre ++ sent) wb
  | .error e sent wb => .error e (pre ++ sent) wb
  | .panic => .panic
  | .outOfFuel => .outOfFuel

/-- `BufferedSocket::flush`: while the buffer is not empty, offer the pending
bytes to the socket and consume what it took. `fuel` bounds the turns, `k`
counts the socket's calls; `socket.flush()` is a no-op for TCP and Unix
sockets and is left out. -/
def flush (socket : SocketWrites) : Nat → Nat → WriteBuffer → FlushOutcome
  | 0, _, _ => .outOfFuel
  | fuel + 1, k, wb =>
    if wb.isEmpty then .ok [] wb
    else
      match wb.get with
      | none => .panic
      | some pending =>
        match socket k pending with
        | .error e => .error e [] wb
        | .ok n =>
          match (wb.consume n).bind WriteBuffer.sanityCheck with
          | none => .panic
          | some wb' => (flush socket fuel (k + 1) wb').sentAfter (pending.take n)

/-! ## Each operation keeps the buffer sane -/

namespace WriteBuffer

variable {wb wb' : WriteBuffer}

theorem sanityCheck_of_sane (h : wb.Sane) : wb.sanityCheck = some wb := if_pos h

theorem sane_of_sanityCheck (h : wb.sanityCheck = some wb') : wb'.Sane ∧ wb' = wb := by
  unfold sanityCheck at h
  by_cases hs : wb.Sane
  · rw [if_pos hs, Option.some.injEq] at h
    subst h
    exact ⟨hs, rfl⟩
  · rw [if_neg hs] at h
    cases h

theorem length_take_bytesWritten (h : wb.Sane) : (wb.buf.bytes.take wb.bytesWritten).length = wb.bytesWritten := by
  rw [List.length_take]
  exact Nat.min_eq_left h.2.1

theorem get_of_sane (h : wb.Sane) : wb.get = some wb.pending := if_pos ⟨h.2.2, h.2.1⟩

theorem length_pending (h : wb.Sane) : wb.pending.length = wb.bytesWritten - wb.bytesFlushed := by
  have hw := h.2.1
  simp only [pending, List.length_drop, List.length_take]
  omega

theorem isEmpty_iff (h : wb.Sane) : wb.isEmpty = true ↔ wb.pending = [] := by
  have hf := h.2.2
  rw [← List.length_eq_zero_iff, length_pending h, isEmpty, decide_eq_true_iff]
  omega

/-! ### One operation -/

theorem bufMut_of_sane (h : wb.Sane) : wb.bufMut = some { wb with buf := wb.buf.truncate wb.bytesWritten } := by
  apply sanityCheck_of_sane
  obtain ⟨hcap, hw, hf⟩ := h
  refine ⟨hcap, ?_, hf⟩
  simp only [ByteVec.bytes_truncate, List.length_take]
  exact Nat.le_min.mpr ⟨le_refl _, hw⟩

variable {encode : EStateM String (List UInt8) Unit} {w : List UInt8}

/-- An encoder that succeeds: its bytes join the pending ones. -/
theorem writeWith_of_ok (h : wb.Sane)
    (hrun : encode.run (wb.buf.bytes.take wb.bytesWritten) = .ok () (wb.buf.bytes.take wb.bytesWritten ++ w)) :
    ∃ wb', wb.writeWith encode = some (.ok (), wb') ∧ wb'.Sane ∧ wb'.pending = wb.pending ++ w := by
  have hw : (wb.buf.bytes.take wb.bytesWritten).length = wb.bytesWritten := by
    simp only [List.length_take]
    exact Nat.min_eq_left h.2.1
  let wb' : WriteBuffer := ⟨(wb.buf.truncate wb.bytesWritten).setBytes (wb.buf.bytes.take wb.bytesWritten ++ w),
    (wb.buf.bytes.take wb.bytesWritten ++ w).length, wb.bytesFlushed⟩
  have hsane : wb'.Sane := by
    refine ⟨?_, le_refl _, ?_⟩
    · simp only [wb', ByteVec.capacity_setBytes, ByteVec.capacity_truncate]
      exact lt_of_lt_of_le h.1 (Nat.le_max_left _ _)
    · simp only [wb', List.length_append, hw]
      have := h.2.2
      omega
  refine ⟨wb', ?_, hsane, ?_⟩
  · simp only [writeWith, bufMut_of_sane h, Option.bind_eq_bind, Option.bind_some, ByteVec.bytes_truncate, hrun]
    rw [sanityCheck_of_sane hsane]
    rfl
  · simp only [wb', pending, ByteVec.bytes_setBytes, List.take_length]
    rw [List.drop_append_of_le_length (by rw [hw]; exact h.2.2)]

/-- An encoder that fails: whatever it pushed lies past `bytes_written`, and
the pending bytes stay. -/
theorem writeWith_of_error {e : String} (h : wb.Sane)
    (hrun : encode.run (wb.buf.bytes.take wb.bytesWritten) = .error e (wb.buf.bytes.take wb.bytesWritten ++ w)) :
    ∃ wb', wb.writeWith encode = some (.error e, wb') ∧ wb'.Sane ∧ wb'.pending = wb.pending ∧
      wb'.bytesWritten = wb.bytesWritten ∧ wb'.buf.bytes = wb.buf.bytes.take wb.bytesWritten ++ w := by
  let wb' : WriteBuffer := ⟨(wb.buf.truncate wb.bytesWritten).setBytes (wb.buf.bytes.take wb.bytesWritten ++ w),
    wb.bytesWritten, wb.bytesFlushed⟩
  have hsane : wb'.Sane := by
    refine ⟨?_, ?_, h.2.2⟩
    · simp only [wb', ByteVec.capacity_setBytes, ByteVec.capacity_truncate]
      exact lt_of_lt_of_le h.1 (Nat.le_max_left _ _)
    · simp only [wb', ByteVec.bytes_setBytes, List.length_append, List.length_take]
      have := h.2.1
      omega
  refine ⟨wb', ?_, hsane, ?_, rfl, rfl⟩
  · simp only [writeWith, bufMut_of_sane h, Option.bind_eq_bind, Option.bind_some, ByteVec.bytes_truncate, hrun]
    rfl
  · have hw : (wb.buf.bytes.take wb.bytesWritten).length = wb.bytesWritten := by
      simp only [List.length_take]
      have := h.2.1
      omega
    simp only [wb', pending, ByteVec.bytes_setBytes]
    rw [List.take_append_of_le_length (by rw [hw]), List.take_of_length_le (by rw [hw])]


theorem initRemainingMut_of_sane (h : wb.Sane) :
    ∃ wb', wb.initRemainingMut = some wb' ∧ wb'.Sane ∧ wb'.pending = wb.pending := by
  have hbytes := wb.buf.bytes_resize wb.buf.length_le
  have hsane : ({ wb with buf := wb.buf.resize wb.buf.capacity } : WriteBuffer).Sane := by
    refine ⟨lt_of_lt_of_le h.1 (Nat.le_max_left _ _), ?_, h.2.2⟩
    show wb.bytesWritten ≤ (wb.buf.resize wb.buf.capacity).bytes.length
    rw [hbytes, List.length_append]
    exact Nat.le_add_right_of_le h.2.1
  refine ⟨_, sanityCheck_of_sane hsane, hsane, ?_⟩
  -- the zeros lie past `bytes_written`
  show ((wb.buf.resize wb.buf.capacity).bytes.take wb.bytesWritten).drop wb.bytesFlushed = wb.pending
  rw [hbytes, List.take_append_of_le_length h.2.1]
  rfl

/-- `advance` past bytes already in the `Vec` makes them pending. -/
theorem advance_of_sane {amt : Nat} (h : wb.Sane) (hamt : wb.bytesWritten + amt ≤ wb.buf.bytes.length) :
    ∃ wb', wb.advance amt = some wb' ∧ wb'.Sane ∧
      wb'.pending = wb.pending ++ (wb.buf.bytes.drop wb.bytesWritten).take amt := by
  have hsane : ({ wb with bytesWritten := wb.bytesWritten + amt } : WriteBuffer).Sane :=
    ⟨h.1, hamt, Nat.le_add_right_of_le h.2.2⟩
  refine ⟨_, ?_, hsane, ?_⟩
  · rw [advance, if_pos hamt, sanityCheck_of_sane hsane]
  · show (wb.buf.bytes.take (wb.bytesWritten + amt)).drop wb.bytesFlushed = _
    rw [List.take_add, List.drop_append_of_le_length (by rw [length_take_bytesWritten h]; exact h.2.2)]
    rfl

/-- `put_slice`: the slice becomes pending, in place or after the `Vec` is cut back. -/
theorem putSlice_of_sane (h : wb.Sane) (slice : List UInt8) :
    ∃ wb', wb.putSlice slice = some wb' ∧ wb'.Sane ∧ wb'.pending = wb.pending ++ slice := by
  -- both ways leave the written bytes, then the slice, then anything
  let buf : ByteVec :=
    if slice.length ≤ wb.buf.bytes.length - wb.bytesWritten then
      wb.buf.setBytes (overwrite wb.buf.bytes wb.bytesWritten slice)
    else (wb.buf.truncate wb.bytesWritten).extend slice
  have hshape : ∃ rest, buf.bytes = wb.buf.bytes.take wb.bytesWritten ++ slice ++ rest ∧
      wb.buf.capacity ≤ buf.capacity := by
    by_cases hfit : slice.length ≤ wb.buf.bytes.length - wb.bytesWritten
    · refine ⟨wb.buf.bytes.drop (wb.bytesWritten + slice.length), ?_, ?_⟩
      · simp only [buf, if_pos hfit, ByteVec.bytes_setBytes, overwrite]
      · simp only [buf, if_pos hfit, ByteVec.capacity_setBytes]
        exact Nat.le_max_left _ _
    · refine ⟨[], ?_, ?_⟩
      · simp only [buf, if_neg hfit, ByteVec.extend, ByteVec.bytes_setBytes, ByteVec.bytes_truncate,
          List.append_nil]
      · simp only [buf, if_neg hfit, ByteVec.extend, ByteVec.capacity_setBytes, ByteVec.capacity_truncate]
        exact Nat.le_max_left _ _
  obtain ⟨rest, hbytes, hcap⟩ := hshape
  have hw := length_take_bytesWritten h
  have hsane : ({ wb with buf } : WriteBuffer).Sane := by
    refine ⟨lt_of_lt_of_le h.1 hcap, ?_, h.2.2⟩
    show wb.bytesWritten ≤ buf.bytes.length
    rw [hbytes, List.length_append, List.length_append, hw]
    omega
  have hroom : wb.bytesWritten + slice.length ≤ buf.bytes.length := by
    rw [hbytes, List.length_append, List.length_append, hw]
    omega
  obtain ⟨wb', hadv, hsane', hpending⟩ := advance_of_sane hsane hroom
  refine ⟨wb', ?_, hsane', ?_⟩
  · rw [putSlice, if_pos h.2.1]
    show ({ wb with buf } : WriteBuffer).advance slice.length >>= sanityCheck = some wb'
    rw [hadv]
    exact sanityCheck_of_sane hsane'
  · -- the written bytes stay where they were and the slice follows them
    have htake : buf.bytes.take wb.bytesWritten = wb.buf.bytes.take wb.bytesWritten := by
      rw [hbytes, List.append_assoc, List.take_left' hw]
    have hdrop : (buf.bytes.drop wb.bytesWritten).take slice.length = slice := by
      rw [hbytes, List.append_assoc, List.drop_left' hw, List.take_left' rfl]
    rw [hpending]
    show (buf.bytes.take wb.bytesWritten).drop wb.bytesFlushed ++ _ = _
    rw [htake, hdrop]
    rfl

/-- `consume` of at most the pending bytes takes them from the front. -/
theorem consume_of_sane {amt : Nat} (h : wb.Sane) (hamt : amt ≤ wb.pending.length) :
    ∃ wb', wb.consume amt = some wb' ∧ wb'.Sane ∧ wb'.pending = wb.pending.drop amt := by
  rw [length_pending h] at hamt
  have hf := h.2.2
  have hle : wb.bytesFlushed + amt ≤ wb.bytesWritten := by omega
  by_cases hall : wb.bytesFlushed + amt = wb.bytesWritten
  · -- all consumed: both cursors go back to zero
    have hsane : ({ wb with bytesFlushed := 0, bytesWritten := 0 } : WriteBuffer).Sane :=
      ⟨h.1, Nat.zero_le _, le_refl 0⟩
    refine ⟨_, ?_, hsane, ?_⟩
    · rw [consume, if_pos hle, if_pos hall, sanityCheck_of_sane hsane]
    · have hnil : wb.pending.drop amt = [] := by
        apply List.drop_of_length_le
        rw [length_pending h]
        omega
      rw [hnil]
      rfl
  · have hsane : ({ wb with bytesFlushed := wb.bytesFlushed + amt } : WriteBuffer).Sane := ⟨h.1, h.2.1, hle⟩
    refine ⟨_, ?_, hsane, ?_⟩
    · rw [consume, if_pos hle, if_neg hall, sanityCheck_of_sane hsane]
    · show (wb.buf.bytes.take wb.bytesWritten).drop (wb.bytesFlushed + amt) = _
      rw [pending, List.drop_drop]

/-- `read_from` makes what was read pending, behind the bytes already pending. -/
theorem readFrom_of_sane (h : wb.Sane) (chunk : List UInt8) :
    ∃ wb', wb.readFrom chunk = some (chunk.length, wb') ∧ wb'.Sane ∧ wb'.pending = wb.pending ++ chunk := by
  let wb₁ : WriteBuffer := { wb with buf := (wb.buf.truncate wb.bytesWritten).extend chunk }
  have hbytes : wb₁.buf.bytes = wb.buf.bytes.take wb.bytesWritten ++ chunk := rfl
  have hw := length_take_bytesWritten h
  have hsane₁ : wb₁.Sane := by
    refine ⟨lt_of_lt_of_le h.1 (Nat.le_max_left _ _), ?_, h.2.2⟩
    show wb.bytesWritten ≤ wb₁.buf.bytes.length
    rw [hbytes, List.length_append, hw]
    omega
  have hpending₁ : wb₁.pending = wb.pending := by
    show (wb₁.buf.bytes.take wb.bytesWritten).drop wb.bytesFlushed = _
    rw [hbytes, List.take_left' hw]
    rfl
  have hrun : wb.readFrom chunk =
      if chunk.length > 0 then (wb₁.advance chunk.length).map fun wb => (chunk.length, wb)
      else some (chunk.length, wb₁) := by
    simp only [readFrom, bufMut_of_sane h, Option.bind_eq_bind, Option.bind_some]
    rfl
  cases chunk with
  | nil => exact ⟨wb₁, by rw [hrun]; rfl, hsane₁, by rw [hpending₁, List.append_nil]⟩
  | cons b bs =>
    -- something was read: `advance` moves past it
    have hroom : wb.bytesWritten + (b :: bs).length ≤ wb₁.buf.bytes.length := by
      rw [hbytes, List.length_append, hw]
    obtain ⟨wb', hadv, hsane', hpending'⟩ := advance_of_sane hsane₁ hroom
    refine ⟨wb', by rw [hrun, if_pos (by simp), hadv]; rfl, hsane', ?_⟩
    rw [hpending', hpending₁, hbytes, List.drop_left' hw, List.take_length]

/-- Writing into the pending bytes keeps the buffer sane and overwrites
them from `start` on. -/
theorem writePending_of_sane {start : Nat} {bytes : List UInt8} (h : wb.Sane)
    (hfit : start + bytes.length ≤ wb.pending.length) :
    ∃ wb', wb.writePending start bytes = some wb' ∧ wb'.Sane ∧ wb'.pending = overwrite wb.pending start bytes := by
  obtain ⟨hcap, hw, hf⟩ := h
  rw [length_pending ⟨hcap, hw, hf⟩] at hfit
  have hlen : (overwrite wb.buf.bytes (wb.bytesFlushed + start) bytes).length = wb.buf.bytes.length :=
    length_overwrite _ _ _ (by omega)
  refine ⟨_, if_pos ⟨hf, hw, hfit⟩, ⟨lt_of_lt_of_le hcap (Nat.le_max_left _ _), ?_, hf⟩, ?_⟩
  · show wb.bytesWritten ≤ (overwrite wb.buf.bytes (wb.bytesFlushed + start) bytes).length
    rw [hlen]
    exact hw
  · show ((overwrite wb.buf.bytes (wb.bytesFlushed + start) bytes).take wb.bytesWritten).drop wb.bytesFlushed = _
    exact drop_take_overwrite (by omega) hw


/-- `shrink` keeps the pending bytes, now at the start of a `Vec` cut to at
most `max(pending, DEFAULT_BUF_SIZE)` bytes, whose capacity is its length. -/
theorem shrink_of_sane (h : wb.Sane) :
    ∃ wb', wb.shrink = some wb' ∧ wb'.pending = wb.pending ∧ wb'.bytesFlushed = 0 ∧
      wb'.bytesWritten = wb.bytesWritten - wb.bytesFlushed ∧ wb'.buf.capacity = wb'.buf.bytes.length ∧
      wb'.buf.bytes.length = min wb.buf.bytes.length (max (wb.bytesWritten - wb.bytesFlushed) defaultBufSize) := by
  obtain ⟨hcap, hw, hf⟩ := h
  -- first the pending bytes move to the start, when any were flushed
  have hmove : ∃ wb₁ : WriteBuffer,
      wb.shrink = some { wb₁ with buf := (wb₁.buf.truncate (max wb₁.bytesWritten defaultBufSize)).shrinkToFit } ∧
      wb₁.bytesFlushed = 0 ∧ wb₁.bytesWritten = wb.bytesWritten - wb.bytesFlushed ∧
      wb₁.buf.bytes.length = wb.buf.bytes.length ∧ wb₁.buf.bytes.take wb₁.bytesWritten = wb.pending := by
    by_cases hpos : 0 < wb.bytesFlushed
    · have hseg : ((wb.buf.bytes.take wb.bytesWritten).drop wb.bytesFlushed).length =
          wb.bytesWritten - wb.bytesFlushed := by
        simp only [List.length_drop, List.length_take]
        omega
      rw [shrink, if_pos hpos, ByteVec.copyWithinToStart_eq _ hf hw]
      refine ⟨_, rfl, rfl, rfl, ?_, ?_⟩
      · simp only [ByteVec.bytes_setBytes, List.length_append, hseg, List.length_drop]
        omega
      · simp only [ByteVec.bytes_setBytes]
        rw [List.take_left' hseg]
        rfl
    · have hzero : wb.bytesFlushed = 0 := by omega
      rw [shrink, if_neg hpos]
      refine ⟨wb, rfl, hzero, by omega, rfl, ?_⟩
      rw [pending, hzero, List.drop_zero]
  obtain ⟨wb₁, hrun, hf₁, hw₁, hlen₁, htake₁⟩ := hmove
  -- then the `Vec` is cut and its capacity dropped to its length
  refine ⟨_, hrun, ?_, hf₁, hw₁, rfl, ?_⟩
  · show ((wb₁.buf.bytes.take (max wb₁.bytesWritten defaultBufSize)).take wb₁.bytesWritten).drop wb₁.bytesFlushed = _
    rw [List.take_take, Nat.min_eq_left (Nat.le_max_left _ _), hf₁, List.drop_zero, htake₁]
  · show (wb₁.buf.bytes.take (max wb₁.bytesWritten defaultBufSize)).length = _
    rw [List.length_take, hlen₁, hw₁, Nat.min_comm]

/-- `shrink` of a `Vec` that holds at least a byte keeps the buffer sane. -/
theorem shrink_sane (h : wb.Sane) (hlen : 0 < wb.buf.bytes.length) :
    ∃ wb', wb.shrink = some wb' ∧ wb'.Sane ∧ wb'.pending = wb.pending := by
  obtain ⟨wb', hrun, hpending, hf', hw', hcap', hlen'⟩ := shrink_of_sane h
  have hdefault : 0 < defaultBufSize := by decide
  refine ⟨wb', hrun, ⟨?_, ?_, ?_⟩, hpending⟩
  · rw [hcap', hlen']
    exact Nat.lt_min.mpr ⟨hlen, lt_of_lt_of_le hdefault (Nat.le_max_right _ _)⟩
  · rw [hlen', hw']
    have := h.2.1
    exact Nat.le_min.mpr ⟨by omega, Nat.le_max_left _ _⟩
  · rw [hf']
    exact Nat.zero_le _

/-- `shrink` leaves a capacity of zero exactly when the `Vec` is empty. -/
theorem capacity_shrink (h : wb.Sane) :
    ∃ wb', wb.shrink = some wb' ∧ (wb'.buf.capacity = 0 ↔ wb.buf.bytes.length = 0) := by
  obtain ⟨wb', hrun, -, -, -, hcap', hlen'⟩ := shrink_of_sane h
  have hdefault : 0 < max (wb.bytesWritten - wb.bytesFlushed) defaultBufSize :=
    lt_of_lt_of_le (by decide) (Nat.le_max_right _ _)
  refine ⟨wb', hrun, ?_⟩
  rw [hcap', hlen']
  omega

/-- With a capacity of zero the next `sanity_check` panics. -/
theorem bufMut_of_capacity_eq_zero (h : wb.buf.capacity = 0) : wb.bufMut = none := by
  rw [bufMut, sanityCheck, if_neg]
  intro hsane
  exact absurd hsane.1 (by simp [h])

end WriteBuffer

/-! ## Runs of operations -/

/-- An encoder that only pushes: whether it succeeds or fails, it leaves the
bytes it was given with more after them. -/
def Appends (encode : EStateM String (List UInt8) Unit) : Prop :=
  ∀ bytes, ∃ w, encode.run bytes = .ok () (bytes ++ w) ∨ ∃ e, encode.run bytes = .error e (bytes ++ w)

/-- The operations on the write buffer. -/
inductive WriteOp where
  | writeWith (encode : EStateM String (List UInt8) Unit)
  | putSlice (slice : List UInt8)
  | advance (amt : Nat)
  | consume (amt : Nat)
  | initRemainingMut
  | shrink

namespace WriteOp

/-- The method the operation calls. -/
def run : WriteOp → WriteBuffer → Option WriteBuffer
  | .writeWith encode, wb => (wb.writeWith encode).map Prod.snd
  | .putSlice slice, wb => wb.putSlice slice
  | .advance amt, wb => wb.advance amt
  | .consume amt, wb => wb.consume amt
  | .initRemainingMut, wb => wb.initRemainingMut
  | .shrink, wb => wb.shrink

/-- The bytes the operation adds to those pending: what a successful encoder
pushed, the slice, or the bytes `advance` moves past. -/
def written : WriteOp → WriteBuffer → List UInt8
  | .writeWith encode, wb =>
    match encode.run (wb.buf.bytes.take wb.bytesWritten) with
    | .ok () bytes => bytes.drop wb.bytesWritten
    | .error _ _ => []
  | .putSlice slice, _ => slice
  | .advance amt, wb => (wb.buf.bytes.drop wb.bytesWritten).take amt
  | .consume _, _ => []
  | .initRemainingMut, _ => []
  | .shrink, _ => []

/-- How many pending bytes the operation takes from the front. -/
def consumed : WriteOp → Nat
  | .consume amt => amt
  | _ => 0

/-- What each operation is allowed: an encoder that only pushes, `advance`
within the `Vec`, `consume` within the pending bytes, and `shrink` only of a
`Vec` that holds a byte. -/
def Allowed : WriteOp → WriteBuffer → Prop
  | .writeWith encode, _ => Appends encode
  | .putSlice _, _ => True
  | .advance amt, wb => wb.bytesWritten + amt ≤ wb.buf.bytes.length
  | .consume amt, wb => amt ≤ wb.pending.length
  | .initRemainingMut, _ => True
  | .shrink, wb => 0 < wb.buf.bytes.length

end WriteOp

/-- A run of operations, with the queue of bytes to send beside it: each
operation's bytes join the queue's end and `consume` takes from its front. -/
def runWithQueue : List WriteOp → WriteBuffer × List UInt8 → Option (WriteBuffer × List UInt8)
  | [], p => some p
  | op :: ops, (wb, queue) =>
    (op.run wb).bind fun wb' => runWithQueue ops (wb', (queue ++ op.written wb).drop op.consumed)

/-- Each operation allowed in the state it starts from. -/
def AllowedAlong : List WriteOp → WriteBuffer → Prop
  | [], _ => True
  | op :: ops, wb => op.Allowed wb ∧ ∀ wb', op.run wb = some wb' → AllowedAlong ops wb'

namespace WriteBuffer

variable {wb : WriteBuffer}

/-- **One operation.** Every allowed operation on a sane buffer succeeds,
keeps it sane, and moves the pending bytes as a queue. -/
theorem step_sane {op : WriteOp} (h : wb.Sane) (hop : op.Allowed wb) :
    ∃ wb', op.run wb = some wb' ∧ wb'.Sane ∧ wb'.pending = (wb.pending ++ op.written wb).drop op.consumed := by
  cases op with
  | writeWith encode =>
    obtain ⟨w, hok | ⟨e, herr⟩⟩ := hop (wb.buf.bytes.take wb.bytesWritten)
    · obtain ⟨wb', hrun, hsane, hpending⟩ := writeWith_of_ok h hok
      refine ⟨wb', by simp [WriteOp.run, hrun], hsane, ?_⟩
      simp only [WriteOp.written, hok, WriteOp.consumed, List.drop_zero, hpending]
      rw [List.drop_left' (length_take_bytesWritten h)]
    · obtain ⟨wb', hrun, hsane, hpending, -, -⟩ := writeWith_of_error h herr
      refine ⟨wb', by simp [WriteOp.run, hrun], hsane, ?_⟩
      simp only [WriteOp.written, herr, WriteOp.consumed, List.drop_zero, List.append_nil, hpending]
  | putSlice slice =>
    obtain ⟨wb', hrun, hsane, hpending⟩ := putSlice_of_sane h slice
    exact ⟨wb', hrun, hsane, by rw [hpending]; rfl⟩
  | advance amt =>
    obtain ⟨wb', hrun, hsane, hpending⟩ := advance_of_sane h hop
    exact ⟨wb', hrun, hsane, by rw [hpending]; rfl⟩
  | consume amt =>
    obtain ⟨wb', hrun, hsane, hpending⟩ := consume_of_sane h hop
    exact ⟨wb', hrun, hsane, by rw [hpending, WriteOp.written, List.append_nil]; rfl⟩
  | initRemainingMut =>
    obtain ⟨wb', hrun, hsane, hpending⟩ := initRemainingMut_of_sane h
    exact ⟨wb', hrun, hsane, by rw [hpending, WriteOp.written, List.append_nil]; rfl⟩
  | shrink =>
    obtain ⟨wb', hrun, hsane, hpending⟩ := shrink_sane h hop
    exact ⟨wb', hrun, hsane, by rw [hpending, WriteOp.written, List.append_nil]; rfl⟩

/-- **Every run.** A run of allowed operations from a sane buffer never
panics, ends sane, and `get()` is then the queue of the bytes written and
not consumed. -/
theorem runWithQueue_sane (ops : List WriteOp) (h : wb.Sane) (hops : AllowedAlong ops wb) :
    ∃ wb' queue, runWithQueue ops (wb, wb.pending) = some (wb', queue) ∧ wb'.Sane ∧ wb'.get = some queue := by
  induction ops generalizing wb with
  | nil => exact ⟨wb, wb.pending, rfl, h, get_of_sane h⟩
  | cons op ops ih =>
    obtain ⟨hop, hrest⟩ := hops
    obtain ⟨wb₁, hrun, hsane₁, hpending₁⟩ := step_sane h hop
    obtain ⟨wb', queue, hrun', hsane', hget⟩ := ih hsane₁ (hrest wb₁ hrun)
    refine ⟨wb', queue, ?_, hsane', hget⟩
    rw [runWithQueue, hrun, Option.bind_some, ← hpending₁, hrun']

end WriteBuffer

/-! ## `flush` -/

namespace SocketWrites

/-- The socket's contract: a write never reports more bytes than it was offered. -/
def Bounded (socket : SocketWrites) : Prop := ∀ k data n, socket k data = .ok n → n ≤ data.length

/-- Every write that succeeds takes at least one byte. -/
def Progress (socket : SocketWrites) : Prop := ∀ k data n, socket k data = .ok n → 0 < n

/-- A socket whose every write takes all the bytes offered. -/
def takesAll : SocketWrites := fun _ data => .ok data.length

end SocketWrites

variable {socket : SocketWrites} {wb : WriteBuffer}

/-- One turn of the loop on a buffer with bytes pending, whose write the
socket answers with `Ok(n)`. -/
theorem flush_succ_of_ok {fuel k n : Nat} {wb' : WriteBuffer} (hempty : wb.isEmpty = false)
    (hget : wb.get = some wb.pending) (hwrite : socket k wb.pending = .ok n) (hconsume : wb.consume n = some wb')
    (hsane : wb'.Sane) :
    flush socket (fuel + 1) k wb = (flush socket fuel (k + 1) wb').sentAfter (wb.pending.take n) := by
  simp only [flush, hempty, Bool.false_eq_true, if_false, hget, hwrite, hconsume, Option.bind_some,
    WriteBuffer.sanityCheck_of_sane hsane]

theorem flush_of_isEmpty {fuel k : Nat} (hempty : wb.isEmpty = true) : flush socket (fuel + 1) k wb = .ok [] wb := by
  simp only [flush, hempty, if_true]

/-- On a socket that takes all it is offered, `flush` sends the pending
bytes in one write and leaves nothing pending. -/
theorem flush_takesAll (h : wb.Sane) (fuel k : Nat) :
    ∃ wb', flush SocketWrites.takesAll (fuel + 2) k wb = .ok wb.pending wb' ∧ wb'.Sane ∧ wb'.pending = [] := by
  cases hempty : wb.isEmpty with
  | true =>
    have hnil := (WriteBuffer.isEmpty_iff h).mp hempty
    exact ⟨wb, by rw [flush_of_isEmpty hempty, hnil], h, hnil⟩
  | false =>
    obtain ⟨wb₁, hconsume, hsane₁, hpending₁⟩ := WriteBuffer.consume_of_sane h (le_refl wb.pending.length)
    have hnil : wb₁.pending = [] := by rw [hpending₁, List.drop_length]
    refine ⟨wb₁, ?_, hsane₁, hnil⟩
    rw [flush_succ_of_ok hempty (WriteBuffer.get_of_sane h) rfl hconsume hsane₁,
      flush_of_isEmpty ((WriteBuffer.isEmpty_iff hsane₁).mpr hnil), FlushOutcome.sentAfter, List.take_length,
      List.append_nil]

/-- **`flush` sends the pending bytes in order**, on a socket whose every
write takes at least one byte and at most those offered, given a turn for
each pending byte and one more: it returns `Ok` with exactly the pending
bytes and an empty buffer, or `Err` after a prefix of them. -/
theorem flush_of_progress (hbound : socket.Bounded) (hprogress : socket.Progress) {fuel : Nat} (h : wb.Sane)
    (hfuel : wb.pending.length < fuel) (k : Nat) :
    (∃ wb', flush socket fuel k wb = .ok wb.pending wb' ∧ wb'.Sane ∧ wb'.pending = []) ∨
      (∃ e sent wb', flush socket fuel k wb = .error e sent wb' ∧ wb'.Sane ∧ sent ++ wb'.pending = wb.pending) := by
  induction fuel generalizing k wb with
  | zero => omega
  | succ fuel ih =>
    cases hempty : wb.isEmpty with
    | true =>
      -- nothing pending: the loop ends at once
      have hnil := (WriteBuffer.isEmpty_iff h).mp hempty
      left
      refine ⟨wb, ?_, h, hnil⟩
      simp only [flush, hempty, if_true, hnil]
    | false =>
      have hget := WriteBuffer.get_of_sane h
      cases hwrite : socket k wb.pending with
      | error e =>
        right
        refine ⟨e, [], wb, ?_, h, rfl⟩
        simp only [flush, hempty, Bool.false_eq_true, if_false, hget, hwrite]
      | ok n =>
        -- the socket took `n` bytes, at least one: fewer are pending for the next turn
        have hn := hbound k wb.pending n hwrite
        have hpos := hprogress k wb.pending n hwrite
        obtain ⟨wb₁, hconsume, hsane₁, hpending₁⟩ := WriteBuffer.consume_of_sane h hn
        have hfuel₁ : wb₁.pending.length < fuel := by
          rw [hpending₁, List.length_drop]
          omega
        rw [flush_succ_of_ok hempty hget hwrite hconsume hsane₁]
        rcases ih hsane₁ hfuel₁ (k + 1) with ⟨wb', hrun, hsane', hnil⟩ | ⟨e, sent, wb', hrun, hsane', hsent⟩
        · left
          refine ⟨wb', ?_, hsane', hnil⟩
          rw [hrun, FlushOutcome.sentAfter, hpending₁, List.take_append_drop]
        · right
          refine ⟨e, wb.pending.take n ++ sent, wb', ?_, hsane', ?_⟩
          · rw [hrun, FlushOutcome.sentAfter]
          · rw [List.append_assoc, hsent, hpending₁, List.take_append_drop]

/-- **`flush` never ends on a socket whose writes take nothing**: each turn
consumes no byte and comes back to the same buffer, so every fuel runs out. -/
theorem flush_spins_on_zero_writes (h : wb.Sane) (hne : wb.pending ≠ []) (fuel k : Nat) :
    flush (fun _ _ => .ok 0) fuel k wb = .outOfFuel := by
  have hempty : wb.isEmpty = false := by
    cases hb : wb.isEmpty with
    | false => rfl
    | true => exact absurd ((WriteBuffer.isEmpty_iff h).mp hb) hne
  -- `consume(0)` of a buffer with bytes pending changes nothing
  have hlt : wb.bytesFlushed < wb.bytesWritten := by
    have hlen := WriteBuffer.length_pending h
    have hpos : 0 < wb.pending.length := List.length_pos_iff.mpr hne
    omega
  have hconsume : wb.consume 0 = some wb := by
    rw [WriteBuffer.consume, if_pos (by omega), if_neg (by omega), Nat.add_zero]
    exact WriteBuffer.sanityCheck_of_sane h
  induction fuel generalizing k with
  | zero => rfl
  | succ fuel ih =>
    rw [flush_succ_of_ok hempty (WriteBuffer.get_of_sane h) rfl hconsume h, ih (k + 1)]
    rfl

/-- A new buffer shrunk before anything is written has capacity zero, so
every `write_with` after it panics in `sanity_check`; and a buffer holding a
byte never finishes `flush` on a socket that keeps returning `Ok(0)`. -/
theorem shrink_new_panics_and_flush_spins :
    WriteBuffer.new.shrink.map (·.buf.capacity) = some 0 ∧
      (∀ encode, WriteBuffer.new.shrink.bind (·.writeWith encode) = none) ∧
      ∀ fuel, (WriteBuffer.new.putSlice [0]).map (flush (fun _ _ => .ok 0) fuel 0) = some .outOfFuel := by
  have hshrink : WriteBuffer.new.shrink = some ⟨⟨[], 0, le_refl 0⟩, 0, 0⟩ := rfl
  have hput : WriteBuffer.new.putSlice [0] = some ⟨⟨[0], defaultBufSize, by decide⟩, 1, 0⟩ := rfl
  refine ⟨by rw [hshrink]; rfl, ?_, ?_⟩
  · intro encode
    rw [hshrink, Option.bind_some, WriteBuffer.writeWith, WriteBuffer.bufMut_of_capacity_eq_zero rfl]
    rfl
  · intro fuel
    rw [hput, Option.map_some, flush_spins_on_zero_writes (by decide) (by decide) fuel 0]

end Sqlx
