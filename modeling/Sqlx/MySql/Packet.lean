import Sqlx.Lib.Bytes

/-!
# MySQL — packet framing (`protocol/packet.rs`, `connection/stream.rs`)

Every MySQL message travels as packets: a three-byte little-endian length, a
one-byte sequence id, and at most `0xFF_FF_FF` payload bytes. A longer payload
is cut into full packets followed by a shorter one, empty when the payload is
a multiple of `0xFF_FF_FF`; the reader keeps reading while the last part was
full.

`Packet.encodeWith` is the writer, with the payload's own encoding given as the
bytes it appends; `recvPacketPart`, `recvPacketRest` and `recvPacketPayload` are
the reader over the bytes still to come from the socket. `packets` and
`splitPayload` describe the wire format on their own.
-/

namespace Sqlx.MySql

open Wire

/-- The largest payload one packet carries, `0xFF_FF_FF`. -/
def maxPacketPayload : Nat := 0xFFFFFF

/-- `next_header` in `encode_with`: the length as a little-endian `u32` whose top
byte is replaced by the sequence id; the id then advances (`wrapping_add`). -/
def nextHeader (len : Nat) (sequenceId : UInt8) : List UInt8 × UInt8 :=
  ((leBytes 4 len).set 3 sequenceId, sequenceId + 1)

/-- One more packet for `chunk`, at the end of the buffer. -/
def appendPacket (acc : List UInt8 × UInt8) (chunk : List UInt8) : List UInt8 × UInt8 :=
  ((acc.1 ++ (nextHeader chunk.length acc.2).1 ++ chunk), (nextHeader chunk.length acc.2).2)

/-- `Packet(payload).encode_with(buf, (capabilities, sequence_id))`, the payload's
own `encode_with` appending `payload` to the buffer. -/
def Packet.encodeWith (payload : List UInt8) (buf : List UInt8) (sequenceId : UInt8) :
    List UInt8 × UInt8 :=
  let offset := buf.length
  -- reserve the header, then encode the payload behind it
  let buf := buf ++ leBytes 4 0 ++ payload
  let len := buf.length - offset - 4
  let header := nextHeader (min len maxPacketPayload) sequenceId
  let buf := overwrite buf offset header.1
  if len ≥ maxPacketPayload then
    -- `split_off`: the first packet keeps `0xFF_FF_FF` bytes, the rest is re-framed
    let rest := buf.drop (offset + 4 + maxPacketPayload)
    let chunks := chunksExact maxPacketPayload rest
    let full := chunks.1.foldl appendPacket (buf.take (offset + 4 + maxPacketPayload), header.2)
    -- the remainder always gets a packet, empty for a multiple of `0xFF_FF_FF`
    appendPacket full chunks.2
  else (buf, header.2)

/-! ## The wire format -/

/-- Packets carrying `parts`, numbered from `sequenceId`. -/
def packets : List (List UInt8) → UInt8 → List UInt8
  | [], _ => []
  | part :: parts, sequenceId =>
    leBytes 3 part.length ++ [sequenceId] ++ part ++ packets parts (sequenceId + 1)

/-- How a payload is cut: full parts of `0xFF_FF_FF` bytes, then the rest. -/
def splitPayload (payload : List UInt8) : List (List UInt8) :=
  (chunksExact maxPacketPayload payload).1 ++ [(chunksExact maxPacketPayload payload).2]

/-! ## Reading -/

/-- `Error`, as the reader can fail. -/
inductive Error where
  | io (message : String)
  | protocol (message : String)
  /-- `MySqlDatabaseError(ErrPacket::decode_with(payload))`: the server's ERR packet. -/
  | database (errPacket : List UInt8)

/-- The reading side of `MySqlStream`: the bytes still to come from the socket,
and the sequence id. -/
structure MySqlStream where
  input : List UInt8
  sequenceId : UInt8

/-- A reading method of `MySqlStream`. -/
abbrev StreamM := EStateM Error MySqlStream

/-- `socket.read(n)`: exactly `n` more bytes; the end of the stream is an error. -/
def read (n : Nat) : StreamM (List UInt8) := fun s =>
  if n ≤ s.input.length then .ok (s.input.take n) { s with input := s.input.drop n }
  else .error (.io s!"expected to read {n} bytes, got {s.input.length} bytes at EOF") s

/-- `recv_packet_part`: a header, then as many payload bytes as it says; the
sequence id continues from the header's. -/
def recvPacketPart : StreamM (List UInt8) := do
  let header ← read 4
  let packetSize := leValue (header.take 3)
  let sequenceId := header.getD 3 0
  modify fun s => { s with sequenceId := sequenceId + 1 }
  read packetSize

theorem read_consumes {n : Nat} {s s' : MySqlStream} {bytes : List UInt8}
    (h : (read n).run s = .ok bytes s') : s'.input.length = s.input.length - n := by
  simp only [EStateM.run, read] at h
  split at h
  · cases h
    simp
  · cases h

/-- Every part read takes at least its four header bytes from the stream. -/
theorem recvPacketPart_consumes {s s' : MySqlStream} {part : List UInt8}
    (h : recvPacketPart.run s = .ok part s') : s'.input.length < s.input.length := by
  simp only [recvPacketPart, EStateM.run_bind, EStateM.run_modify] at h
  cases hh : (read 4).run s with
  | error e s₁ => rw [hh] at h; cases h
  | ok header s₁ =>
    rw [hh] at h
    have h₁ := read_consumes hh
    have hle : 4 ≤ s.input.length := by
      simp only [EStateM.run, read] at hh
      split at hh
      · assumption
      · cases hh
    have h₂ := read_consumes h
    simp only at h₂
    omega

-- `h` is read by `decreasing_by` only
set_option linter.unusedVariables false in
/-- The loop of `recv_packet`: read parts while the last one was full. -/
def recvPacketRest (finalPayload : List UInt8) (s : MySqlStream) :
    EStateM.Result Error MySqlStream (List UInt8) :=
  match h : recvPacketPart.run s with
  | .error e s' => .error e s'
  | .ok part s' =>
    if part.length = maxPacketPayload then recvPacketRest (finalPayload ++ part) s'
    else .ok (finalPayload ++ part) s'
termination_by s.input.length
decreasing_by exact recvPacketPart_consumes h

/-- The loop of `recv_packet` as a reading method. -/
def recvPacketLoop (finalPayload : List UInt8) : StreamM (List UInt8) :=
  fun s => recvPacketRest finalPayload s

/-- The reassembly in `recv_packet`: one part, and the rest if it was full. -/
def recvPacketPayload : StreamM (List UInt8) := do
  let payload ← recvPacketPart
  if payload.length < maxPacketPayload then pure payload
  else recvPacketLoop payload

/-- `recv_packet`: a reassembled payload, refused when empty or an ERR packet. -/
def recvPacket : StreamM (List UInt8) := do
  let payload ← recvPacketPayload
  match payload.head? with
  | none => throw (.protocol "Packet empty")
  | some 0xff => throw (.database payload)
  | some _ => pure payload

end Sqlx.MySql
