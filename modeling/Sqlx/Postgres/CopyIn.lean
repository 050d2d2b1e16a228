import Sqlx.Postgres.Message

/-!
# Postgres — `COPY ... FROM STDIN` from a reader (`copy.rs`)

`PgCopyIn::read_from` sends what a reader produces as `CopyData` messages
without a buffer of its own: each turn puts a header, `'d'` and a
placeholder length of four, into the send buffer, lets the reader read
behind it, writes the real length over the placeholder, and flushes. The
length goes through `get_mut()[1..]`, and `get_mut()` starts at
`bytes_flushed`, at the first pending byte, not at the header just put.

When nothing is pending as a turn starts the two are the same place, and
the turns send the chunks read as the messages `write_msg(CopyData(chunk))`
would (`PgCopyIn.readFrom_of_empty`). A flush leaves nothing pending, so
only the first turn can go wrong: when bytes are still pending from before,
such as a message whose `send` was cancelled before its flush ended, the
length lands inside them and the header goes out with its placeholder
(`PgCopyIn.readFrom_of_sane`, `read_from_patches_pending_bytes`).

The reads are those of the Tokio runtime, into the spare capacity of the
`Vec` (`WriteBuffer.readFrom`): each is given as the chunk it returned, and
an empty one, or running out of them, is EOF.
-/

namespace Sqlx.Postgres

open Wire

/-- `FrontendMessageFormat::CopyData`, `b'd'`. -/
def CopyData.format : UInt8 := 0x64

/-- `CopyData::encode_body`. -/
def CopyData.encodeBody (chunk : List UInt8) : BufM Unit := BufM.extend chunk

/-- `EncodeMessage(CopyData(chunk)).encode_with(buf, ())`. -/
def CopyData.encodeWith (chunk : List UInt8) : BufM Unit := encodeMessage CopyData.format (CopyData.encodeBody chunk)

/-- The bytes of `CopyData(chunk)`: `'d'`, the length counting itself, the chunk. -/
def CopyData.bytes (chunk : List UInt8) : List UInt8 :=
  CopyData.format :: i32ToBeBytes ((4 + chunk.length : Nat) : Int) ++ chunk

/-- `b"d\0\0\0\x04"`: the format byte and a placeholder length. -/
def copyDataHeader : List UInt8 := [CopyData.format, 0, 0, 0, 4]

/-- How the body of the loop ends before its flush. -/
inductive CopyTurn where
  /-- `read == 0`: the loop breaks. -/
  | eof (wb : WriteBuffer)
  /-- A chunk was read and its length written; next comes the flush. -/
  | data (wb : WriteBuffer)
  /-- `i32::try_from(read)` failed. -/
  | error (e : String) (wb : WriteBuffer)

namespace PgCopyIn

/-- The body of the loop up to the flush, for a read that returns `chunk`;
`none` is a panic. -/
def readFromTurn (wb : WriteBuffer) (chunk : List UInt8) : Option CopyTurn := do
  let wb ← wb.putSlice copyDataHeader
  let (read, wb) ← wb.readFrom chunk
  if read = 0 then pure (.eof wb)
  else if read ≤ 2147483647 then
    -- `read32 + 4` wraps in a release build, as `i32ToBeBytes` does
    CopyTurn.data <$> wb.writePending 1 (i32ToBeBytes ((read : Int) + 4))
  else pure (.error s!"number of bytes read exceeds 2^31 - 1: {read}" wb)

/-- `PgCopyIn::read_from`: `reads` are what the reader's reads return, and
after them it is at EOF. The flush of turn `n` writes through `socket n`
within `flushFuel` turns of its own; `fuel` bounds the turns of the loop.
The outcome holds the bytes the socket took and the buffer left behind. -/
def readFrom (socket : Nat → SocketWrites) (flushFuel : Nat) :
    Nat → Nat → List (List UInt8) → WriteBuffer → FlushOutcome
  | 0, _, _, _ => .outOfFuel
  | fuel + 1, n, reads, wb =>
    match readFromTurn wb (reads.headD []) with
    | none => .panic
    | some (.eof wb) => .ok [] wb
    | some (.error e wb) => .error e [] wb
    | some (.data wb) =>
      match flush (socket n) flushFuel 0 wb with
      | .ok sent wb => (readFrom socket flushFuel fuel (n + 1) reads.tail wb).sentAfter sent
      | outcome => outcome

end PgCopyIn

/-- The `CopyData` encoder writes `CopyData.bytes`. -/
theorem CopyData.encodeWith_run {chunk : List UInt8} (hsize : 4 + chunk.length ≤ 2147483647) (buf : List UInt8) :
    (CopyData.encodeWith chunk).run buf = .ok () (buf ++ CopyData.bytes chunk) := by
  rw [CopyData.encodeWith, CopyData.encodeBody, encodeMessage_of_ok (BufM.run_extend chunk _) hsize, CopyData.bytes]
  simp

/-- With the header at the front, the length goes over its placeholder. -/
theorem overwrite_copyDataHeader (chunk : List UInt8) :
    overwrite (copyDataHeader ++ chunk) 1 (i32ToBeBytes ((chunk.length : Int) + 4)) = CopyData.bytes chunk := by
  have hlen : ((chunk.length : Int) + 4) = ((4 + chunk.length : Nat) : Int) := by omega
  have hplace := overwrite_placeholder [CopyData.format] [0, 0, 0, 4] chunk (i32ToBeBytes ((chunk.length : Int) + 4))
    (by rw [length_i32ToBeBytes]; rfl)
  rw [hlen] at hplace ⊢
  exact hplace

namespace PgCopyIn

variable {wb : WriteBuffer}

/-! ## One turn -/

/-- A read that returns data an `i32` can count: the header and the data
join the pending bytes, and the length is written from the second pending
byte on. -/
theorem readFromTurn_of_data (h : wb.Sane) {chunk : List UInt8} (hne : chunk ≠ [])
    (hlen : chunk.length ≤ 2147483647) :
    ∃ wb', readFromTurn wb chunk = some (.data wb') ∧ wb'.Sane ∧
      wb'.pending = overwrite (wb.pending ++ copyDataHeader ++ chunk) 1 (i32ToBeBytes ((chunk.length : Int) + 4)) := by
  obtain ⟨wb₁, hput, hsane₁, hpending₁⟩ := WriteBuffer.putSlice_of_sane h copyDataHeader
  obtain ⟨wb₂, hread, hsane₂, hpending₂⟩ := WriteBuffer.readFrom_of_sane hsane₁ chunk
  have hfit : 1 + (i32ToBeBytes ((chunk.length : Int) + 4)).length ≤ wb₂.pending.length := by
    rw [hpending₂, hpending₁, length_i32ToBeBytes, List.length_append, List.length_append, copyDataHeader]
    simp only [List.length_cons, List.length_nil]
    omega
  obtain ⟨wb₃, hwrite, hsane₃, hpending₃⟩ := WriteBuffer.writePending_of_sane hsane₂ hfit
  have hpos : chunk.length ≠ 0 := fun h0 => hne (List.eq_nil_of_length_eq_zero h0)
  refine ⟨wb₃, ?_, hsane₃, by rw [hpending₃, hpending₂, hpending₁]⟩
  simp only [readFromTurn, hput, hread, Option.bind_eq_bind, Option.bind_some, if_neg hpos, if_pos hlen, hwrite]
  rfl

/-- A read at EOF: the header joins the pending bytes. -/
theorem readFromTurn_of_eof (h : wb.Sane) :
    ∃ wb', readFromTurn wb [] = some (.eof wb') ∧ wb'.Sane ∧ wb'.pending = wb.pending ++ copyDataHeader := by
  obtain ⟨wb₁, hput, hsane₁, hpending₁⟩ := WriteBuffer.putSlice_of_sane h copyDataHeader
  obtain ⟨wb₂, hread, hsane₂, hpending₂⟩ := WriteBuffer.readFrom_of_sane hsane₁ []
  refine ⟨wb₂, ?_, hsane₂, by rw [hpending₂, hpending₁, List.append_nil]⟩
  simp only [readFromTurn, hput, hread, Option.bind_eq_bind, Option.bind_some, List.length_nil]
  rfl

/-- A read of more than an `i32` counts ends the copy with the protocol
error, and leaves the header with its placeholder and the data pending,
for the next flush to send. -/
theorem readFromTurn_of_too_long (h : wb.Sane) {chunk : List UInt8} (hlen : 2147483647 < chunk.length) :
    ∃ wb', readFromTurn wb chunk =
        some (.error s!"number of bytes read exceeds 2^31 - 1: {chunk.length}" wb') ∧ wb'.Sane ∧
      wb'.pending = wb.pending ++ copyDataHeader ++ chunk := by
  obtain ⟨wb₁, hput, hsane₁, hpending₁⟩ := WriteBuffer.putSlice_of_sane h copyDataHeader
  obtain ⟨wb₂, hread, hsane₂, hpending₂⟩ := WriteBuffer.readFrom_of_sane hsane₁ chunk
  refine ⟨wb₂, ?_, hsane₂, by rw [hpending₂, hpending₁]⟩
  simp only [readFromTurn, hput, hread, Option.bind_eq_bind, Option.bind_some, if_neg (show chunk.length ≠ 0 by omega),
    if_neg (show ¬chunk.length ≤ 2147483647 by omega)]
  rfl

/-! ## The loop -/

variable {flushFuel fuel n : Nat}

/-- At EOF the loop breaks: nothing is sent and the header stays pending. -/
theorem readFrom_of_eof (socket : Nat → SocketWrites) (h : wb.Sane) {reads : List (List UInt8)}
    (hreads : reads.headD [] = []) :
    ∃ wb', readFrom socket flushFuel (fuel + 1) n reads wb = .ok [] wb' ∧ wb'.Sane ∧
      wb'.pending = wb.pending ++ copyDataHeader := by
  obtain ⟨wb', hturn, hsane', hpending'⟩ := readFromTurn_of_eof h
  exact ⟨wb', by rw [readFrom, hreads, hturn], hsane', hpending'⟩

/-- A turn that reads `chunk`, on a socket taking all it is offered: it
sends the pending bytes, the header and the chunk, with the length written
from the second of them on, and leaves nothing pending. -/
theorem readFrom_cons (h : wb.Sane) {chunk : List UInt8} (hne : chunk ≠ []) (hlen : chunk.length ≤ 2147483647)
    (rest : List (List UInt8)) :
    ∃ wb', wb'.Sane ∧ wb'.pending = [] ∧
      readFrom (fun _ => .takesAll) (flushFuel + 2) (fuel + 1) n (chunk :: rest) wb =
        (readFrom (fun _ => .takesAll) (flushFuel + 2) fuel (n + 1) rest wb').sentAfter
          (overwrite (wb.pending ++ copyDataHeader ++ chunk) 1 (i32ToBeBytes ((chunk.length : Int) + 4))) := by
  obtain ⟨wb₁, hturn, hsane₁, hpending₁⟩ := readFromTurn_of_data h hne hlen
  obtain ⟨wb', hflush, hsane', hnil⟩ := flush_takesAll hsane₁ flushFuel 0
  refine ⟨wb', hsane', hnil, ?_⟩
  rw [readFrom, List.headD_cons, hturn]
  simp only [hflush, List.tail_cons, hpending₁]

/-- **From an empty buffer.** With nothing pending at the start, on a socket
taking all it is offered, the loop sends each chunk as its `CopyData`
message, in order, and leaves one empty `CopyData` pending. -/
theorem readFrom_of_empty (h : wb.Sane) (hempty : wb.pending = []) {chunks : List (List UInt8)}
    (hchunks : ∀ c ∈ chunks, c ≠ [] ∧ 4 + c.length ≤ 2147483647) (hfuel : chunks.length < fuel) :
    ∃ wb', readFrom (fun _ => .takesAll) (flushFuel + 2) fuel n chunks wb = .ok (chunks.flatMap CopyData.bytes) wb' ∧
      wb'.Sane ∧ wb'.pending = copyDataHeader := by
  induction chunks generalizing fuel n wb with
  | nil =>
    obtain ⟨fuel, rfl⟩ : ∃ f, fuel = f + 1 := ⟨fuel - 1, by omega⟩
    obtain ⟨wb', hrun, hsane', hpending'⟩ := @readFrom_of_eof wb (flushFuel + 2) fuel n (fun _ => .takesAll) h [] rfl
    exact ⟨wb', hrun, hsane', by rw [hpending', hempty, List.nil_append]⟩
  | cons chunk rest ih =>
    rw [List.length_cons] at hfuel
    obtain ⟨fuel, rfl⟩ : ∃ f, fuel = f + 1 := ⟨fuel - 1, by omega⟩
    obtain ⟨hne, hsize⟩ := hchunks chunk List.mem_cons_self
    obtain ⟨wb₁, hsane₁, hnil₁, hrun⟩ := @readFrom_cons wb flushFuel fuel n h chunk hne (by omega) rest
    -- the first turn's header is at the front, so its length goes over the placeholder
    obtain ⟨wb', hrun', hsane', hpending'⟩ := ih (n := n + 1) hsane₁ hnil₁
      (fun c hc => hchunks c (List.mem_cons_of_mem chunk hc)) (show rest.length < fuel by omega)
    refine ⟨wb', ?_, hsane', hpending'⟩
    rw [hrun, hrun', hempty, List.nil_append, overwrite_copyDataHeader, FlushOutcome.sentAfter, List.flatMap_cons]

/-- **From any sane buffer.** The bytes pending at the start go out first,
with the first chunk's length written over their second to fifth bytes,
or as many of them as there are, and the header after them where they end;
every later chunk goes out as its `CopyData` message. -/
theorem readFrom_of_sane (h : wb.Sane) {chunk : List UInt8} {chunks : List (List UInt8)}
    (hchunks : ∀ c ∈ chunk :: chunks, c ≠ [] ∧ 4 + c.length ≤ 2147483647) (hfuel : chunks.length + 1 < fuel) :
    ∃ wb', readFrom (fun _ => .takesAll) (flushFuel + 2) fuel n (chunk :: chunks) wb =
        .ok (overwrite (wb.pending ++ copyDataHeader ++ chunk) 1 (i32ToBeBytes ((chunk.length : Int) + 4)) ++
          chunks.flatMap CopyData.bytes) wb' ∧
      wb'.Sane ∧ wb'.pending = copyDataHeader := by
  obtain ⟨fuel, rfl⟩ : ∃ f, fuel = f + 1 := ⟨fuel - 1, by omega⟩
  obtain ⟨hne, hsize⟩ := hchunks chunk List.mem_cons_self
  obtain ⟨wb₁, hsane₁, hnil₁, hrun⟩ := @readFrom_cons wb flushFuel fuel n h chunk hne (by omega) chunks
  obtain ⟨wb', hrun', hsane', hpending'⟩ := @readFrom_of_empty wb₁ flushFuel fuel (n + 1) hsane₁ hnil₁ chunks
    (fun c hc => hchunks c (List.mem_cons_of_mem chunk hc)) (by omega)
  exact ⟨wb', by rw [hrun, hrun', FlushOutcome.sentAfter], hsane', hpending'⟩

end PgCopyIn

/-- **`read_from` writes the first length into bytes pending from before.**
From a sane buffer with nothing pending, on a socket taking all it is
offered, the loop sends each chunk as its `CopyData` message and leaves one
empty `CopyData` pending. From one with five bytes or more pending, such as a
whole message a cancelled `send` left, it sends those bytes with the first
chunk's length over their second to fifth, then the first header with its
placeholder length of four before the chunk. -/
theorem read_from_patches_pending_bytes :
    (∀ (wb : WriteBuffer) (chunks : List (List UInt8)) (flushFuel fuel : Nat), wb.Sane → wb.pending = [] →
      (∀ c ∈ chunks, c ≠ [] ∧ 4 + c.length ≤ 2147483647) → chunks.length < fuel →
      ∃ wb', PgCopyIn.readFrom (fun _ => .takesAll) (flushFuel + 2) fuel 0 chunks wb =
        .ok (chunks.flatMap CopyData.bytes) wb' ∧ wb'.pending = copyDataHeader) ∧
    (∀ (wb : WriteBuffer) (chunk : List UInt8) (chunks : List (List UInt8)) (flushFuel fuel : Nat), wb.Sane →
      5 ≤ wb.pending.length → (∀ c ∈ chunk :: chunks, c ≠ [] ∧ 4 + c.length ≤ 2147483647) →
      chunks.length + 1 < fuel →
      ∃ wb', PgCopyIn.readFrom (fun _ => .takesAll) (flushFuel + 2) fuel 0 (chunk :: chunks) wb =
        .ok (overwrite wb.pending 1 (i32ToBeBytes ((chunk.length : Int) + 4)) ++ copyDataHeader ++ chunk ++
          chunks.flatMap CopyData.bytes) wb' ∧ wb'.pending = copyDataHeader) := by
  refine ⟨fun wb chunks flushFuel fuel h hempty hchunks hfuel => ?_, fun wb chunk chunks flushFuel fuel h hlong hchunks hfuel => ?_⟩
  · obtain ⟨wb', hrun, -, hpending'⟩ := @PgCopyIn.readFrom_of_empty wb flushFuel fuel 0 h hempty chunks hchunks hfuel
    exact ⟨wb', hrun, hpending'⟩
  · -- the length fits inside the pending bytes, so the header after them keeps its placeholder
    have hinside : 1 + (i32ToBeBytes ((chunk.length : Int) + 4)).length ≤ wb.pending.length := by
      rw [length_i32ToBeBytes]
      omega
    obtain ⟨wb', hrun, -, hpending'⟩ := @PgCopyIn.readFrom_of_sane wb flushFuel fuel 0 h chunk chunks hchunks hfuel
    refine ⟨wb', ?_, hpending'⟩
    rw [hrun, List.append_assoc wb.pending, overwrite_append_of_le hinside, ← List.append_assoc]

/-- A `Sync` message left pending by a cancelled `send`, then one chunk `"a"`:
the `Sync` goes out with length five and the `CopyData` with length four,
where the messages would be the `Sync` with length four and the `CopyData`
with length five. -/
theorem read_from_after_pending_sync :
    ∃ wb', PgCopyIn.readFrom (fun _ => .takesAll) 2 2 0 [[0x61]] ⟨⟨[0x53, 0, 0, 0, 4], 8192, by decide⟩, 5, 0⟩ =
        .ok [0x53, 0, 0, 0, 5, 0x64, 0, 0, 0, 4, 0x61] wb' ∧
      [0x53, 0, 0, 0, 5, 0x64, 0, 0, 0, 4, 0x61] ≠ [0x53, 0, 0, 0, 4] ++ CopyData.bytes [0x61] := by
  obtain ⟨wb', hrun, -⟩ := read_from_patches_pending_bytes.2 ⟨⟨[0x53, 0, 0, 0, 4], 8192, by decide⟩, 5, 0⟩ [0x61] []
    0 2 (by decide) (by decide) (by decide) (by decide)
  exact ⟨wb', hrun, by decide⟩

end Sqlx.Postgres
