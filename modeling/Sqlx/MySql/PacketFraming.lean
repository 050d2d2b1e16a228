import Sqlx.MySql.Packet

/-!
# MySQL — the packet round trip

`Packet.encodeWith` writes exactly `packets (splitPayload payload)` from the
given sequence id (`encodeWith_eq`), and the reassembly of `recv_packet` reads
those bytes back as the payload, ending on the same sequence id
(`recvPacketPayload_packets`). Both rest on the shape of `splitPayload`: full
parts, then one shorter part.
-/

namespace Sqlx.MySql

open Wire

/-! ## Writing -/

theorem nextHeader_eq (len : Nat) (sequenceId : UInt8) :
    nextHeader len sequenceId = (leBytes 3 len ++ [sequenceId], sequenceId + 1) := by
  simp [nextHeader]

theorem appendPacket_eq (acc : List UInt8) (sequenceId : UInt8) (chunk : List UInt8) :
    appendPacket (acc, sequenceId) chunk =
      (acc ++ (leBytes 3 chunk.length ++ [sequenceId] ++ chunk), sequenceId + 1) := by
  simp [appendPacket, nextHeader_eq]

theorem packets_append (ps qs : List (List UInt8)) (sequenceId : UInt8) :
    packets (ps ++ qs) sequenceId =
      packets ps sequenceId ++ packets qs (sequenceId + UInt8.ofNat ps.length) := by
  induction ps generalizing sequenceId with
  | nil => simp [packets]
  | cons p ps ih =>
    simp only [List.cons_append, packets, ih, List.append_assoc, List.length_cons,
      UInt8.ofNat_add]
    congr 3
    ac_rfl

/-- The loop over the full chunks appends their packets, numbered on. -/
theorem foldl_appendPacket (chunks : List (List UInt8)) (acc : List UInt8) (sequenceId : UInt8) :
    chunks.foldl appendPacket (acc, sequenceId) =
      (acc ++ packets chunks sequenceId, sequenceId + UInt8.ofNat chunks.length) := by
  induction chunks generalizing acc sequenceId with
  | nil => simp [packets]
  | cons chunk chunks ih =>
    rw [List.foldl_cons, appendPacket_eq, ih]
    simp only [packets, List.append_assoc, List.length_cons, UInt8.ofNat_add, Prod.mk.injEq,
      true_and]
    ac_rfl

theorem splitPayload_of_lt {payload : List UInt8} (h : payload.length < maxPacketPayload) :
    splitPayload payload = [payload] := by
  simp [splitPayload, chunksExact_of_lt h]

theorem splitPayload_of_le {payload : List UInt8} (h : maxPacketPayload ≤ payload.length) :
    splitPayload payload =
      payload.take maxPacketPayload :: splitPayload (payload.drop maxPacketPayload) := by
  simp [splitPayload, chunksExact_of_le (by decide : 0 < maxPacketPayload) h]

/-- **The writer**: the packets of `splitPayload payload`, from `sequenceId`. -/
theorem encodeWith_eq (payload buf : List UInt8) (sequenceId : UInt8) :
    Packet.encodeWith payload buf sequenceId =
      (buf ++ packets (splitPayload payload) sequenceId,
        sequenceId + UInt8.ofNat (splitPayload payload).length) := by
  have hlen : (buf ++ leBytes 4 0 ++ payload).length - buf.length - 4 = payload.length := by
    simp
  have hheader : (nextHeader (min payload.length maxPacketPayload) sequenceId).1.length = 4 := by
    simp [nextHeader_eq]
  -- the first header fills the reserved bytes
  have hfirst : overwrite (buf ++ leBytes 4 0 ++ payload) buf.length
      (nextHeader (min payload.length maxPacketPayload) sequenceId).1 =
      buf ++ (nextHeader (min payload.length maxPacketPayload) sequenceId).1 ++ payload :=
    overwrite_placeholder _ _ _ _ (by simp [hheader])
  unfold Packet.encodeWith
  simp only [hlen, hfirst]
  by_cases hbig : maxPacketPayload ≤ payload.length
  · -- a long payload: a full first packet, the full chunks, the remainder
    rw [if_pos hbig, min_eq_right hbig, nextHeader_eq]
    have hH : (leBytes 3 maxPacketPayload ++ [sequenceId]).length = 4 := by
      simp only [List.length_append, length_leBytes, List.length_singleton]
    have hpre : (buf ++ (leBytes 3 maxPacketPayload ++ [sequenceId])).length + maxPacketPayload =
        buf.length + 4 + maxPacketPayload := by
      rw [List.length_append, hH]
    have htake : (buf ++ (leBytes 3 maxPacketPayload ++ [sequenceId]) ++ payload).take
        (buf.length + 4 + maxPacketPayload) =
        buf ++ (leBytes 3 maxPacketPayload ++ [sequenceId]) ++ payload.take maxPacketPayload := by
      rw [← hpre, List.take_length_add_append]
    have hdrop : (buf ++ (leBytes 3 maxPacketPayload ++ [sequenceId]) ++ payload).drop
        (buf.length + 4 + maxPacketPayload) = payload.drop maxPacketPayload := by
      rw [← hpre, List.drop_length_add_append]
    rw [htake, hdrop, foldl_appendPacket, appendPacket_eq, splitPayload_of_le hbig]
    have htakelen : (payload.take maxPacketPayload).length = maxPacketPayload := by
      simp
      omega
    simp only [packets, htakelen, splitPayload, packets_append, List.length_append,
      List.length_cons, List.length_nil, List.append_assoc, UInt8.ofNat_add, Prod.mk.injEq]
    constructor
    · simp
    · ac_rfl
  · rw [if_neg hbig, splitPayload_of_lt (by omega), min_eq_left (by omega), nextHeader_eq]
    simp [packets]

/-- A one-byte payload at sequence id 255: one packet, and the id wraps to 0. -/
example : Packet.encodeWith [7] [] 255 = ([1, 0, 0, 255, 7], 0) := by decide

theorem length_splitPayload (payload : List UInt8) :
    (splitPayload payload).length = payload.length / maxPacketPayload + 1 := by
  simp [splitPayload, length_chunksExact_fst (by decide : 0 < maxPacketPayload)]

theorem flatten_splitPayload (payload : List UInt8) : (splitPayload payload).flatten = payload := by
  simpa [splitPayload] using flatten_chunksExact maxPacketPayload payload

/-! ## Reading -/

theorem read_run_of_le {n : Nat} {s : MySqlStream} (h : n ≤ s.input.length) :
    (read n).run s = .ok (s.input.take n) { s with input := s.input.drop n } := by
  simp only [EStateM.run, read, if_pos h]

/-- Reading one packet back: its header gives the length and the sequence id. -/
theorem recvPacketPart_packet (part more : List UInt8) (sequenceId stale : UInt8)
    (h : part.length < 2 ^ 24) :
    recvPacketPart.run ⟨leBytes 3 part.length ++ sequenceId :: (part ++ more), stale⟩ =
      .ok part ⟨more, sequenceId + 1⟩ := by
  have hH : (leBytes 3 part.length ++ [sequenceId]).length = 4 := by
    simp only [List.length_append, length_leBytes, List.length_singleton]
  have hinput : leBytes 3 part.length ++ sequenceId :: (part ++ more) =
      (leBytes 3 part.length ++ [sequenceId]) ++ (part ++ more) := by
    simp
  have hsize : leValue ((leBytes 3 part.length ++ [sequenceId]).take 3) = part.length := by
    rw [List.take_left' (length_leBytes 3 _), leValue_leBytes_of_lt (by simpa using h)]
  have hid : (leBytes 3 part.length ++ [sequenceId]).getD 3 0 = sequenceId := by
    simp [leBytes]
  simp only [recvPacketPart, EStateM.run_bind, EStateM.run_modify, hinput]
  rw [read_run_of_le (by simp only [List.length_append, hH]; omega)]
  simp only [List.take_left' hH, List.drop_left' hH, hsize, hid]
  rw [read_run_of_le (by simp)]
  simp

theorem length_lt_of_le_maxPacketPayload {part : List UInt8} (h : part.length ≤ maxPacketPayload) :
    part.length < 2 ^ 24 := by
  have : maxPacketPayload < 2 ^ 24 := by decide
  omega

/-- The loop reads full parts, and stops after the shorter last one. -/
theorem recvPacketRest_packets (cs : List (List UInt8)) (r more : List UInt8)
    (hcs : ∀ c ∈ cs, c.length = maxPacketPayload) (hr : r.length < maxPacketPayload) :
    ∀ (acc : List UInt8) (sequenceId stale : UInt8),
      recvPacketRest acc ⟨packets (cs ++ [r]) sequenceId ++ more, stale⟩ =
        .ok (acc ++ (cs ++ [r]).flatten) ⟨more, sequenceId + UInt8.ofNat (cs.length + 1)⟩ := by
  induction cs with
  | nil =>
    intro acc sequenceId stale
    have hpart := recvPacketPart_packet r more sequenceId stale
      (length_lt_of_le_maxPacketPayload hr.le)
    rw [recvPacketRest]
    split
    · rename_i e s' heq
      simp only [List.nil_append, packets, List.append_assoc, List.cons_append,
        List.append_nil] at heq
      rw [hpart] at heq
      cases heq
    · rename_i part s' heq
      simp only [List.nil_append, packets, List.append_assoc, List.cons_append,
        List.append_nil] at heq
      rw [hpart] at heq
      cases heq
      rw [if_neg (by omega)]
      simp
  | cons c cs ih =>
    intro acc sequenceId stale
    have hc := hcs c (by simp)
    have hpart := recvPacketPart_packet c (packets (cs ++ [r]) (sequenceId + 1) ++ more)
      sequenceId stale (length_lt_of_le_maxPacketPayload hc.le)
    rw [recvPacketRest]
    split
    · rename_i e s' heq
      simp only [List.cons_append, packets, List.append_assoc, List.nil_append] at heq
      rw [hpart] at heq
      cases heq
    · rename_i part s' heq
      simp only [List.cons_append, packets, List.append_assoc, List.nil_append] at heq
      rw [hpart] at heq
      cases heq
      rw [if_pos hc, ih (fun c' hc' => hcs c' (by simp [hc'])) (acc ++ c) (sequenceId + 1)]
      simp only [List.cons_append, List.flatten_cons, List.append_assoc, List.length_cons,
        UInt8.ofNat_add]
      congr 2
      ac_rfl

/-- **The reader**: the reassembly reads the packets of a payload back as the
payload, and ends on the id after the last packet's. -/
theorem recvPacketPayload_packets (payload more : List UInt8) (sequenceId stale : UInt8) :
    recvPacketPayload.run ⟨packets (splitPayload payload) sequenceId ++ more, stale⟩ =
      .ok payload ⟨more, sequenceId + UInt8.ofNat (splitPayload payload).length⟩ := by
  by_cases hbig : maxPacketPayload ≤ payload.length
  · -- the first part is full, so the loop reads the others
    have hfirst : (payload.take maxPacketPayload).length = maxPacketPayload := by
      simp only [List.length_take]
      omega
    rw [splitPayload_of_le hbig]
    simp only [packets, List.append_assoc, List.cons_append, List.nil_append]
    simp only [recvPacketPayload, EStateM.run_bind,
      recvPacketPart_packet _ _ _ stale (length_lt_of_le_maxPacketPayload hfirst.le)]
    rw [if_neg (by omega)]
    show recvPacketRest _ _ = _
    rw [splitPayload, recvPacketRest_packets _ _ _
      (length_of_mem_chunksExact _ _) (length_chunksExact_snd_lt (by decide) _)]
    have hrest := flatten_chunksExact maxPacketPayload (payload.drop maxPacketPayload)
    simp only [List.flatten_append, List.flatten_cons, List.flatten_nil, List.append_nil,
      hrest, List.take_append_drop, List.length_cons, List.length_append, UInt8.ofNat_add]
    congr 2
    ac_rfl
  · -- a single short packet
    have hshort : payload.length < maxPacketPayload := by omega
    rw [splitPayload_of_lt hshort]
    simp only [packets, List.append_nil, List.append_assoc, List.cons_append, List.nil_append]
    simp only [recvPacketPayload, EStateM.run_bind,
      recvPacketPart_packet _ _ _ stale (length_lt_of_le_maxPacketPayload hshort.le),
      if_pos hshort]
    rfl

/-- `recv_packet` hands the reassembled payload on unless it is empty or an ERR packet. -/
theorem recvPacket_of_payload {s s' : MySqlStream} {payload : List UInt8}
    (h : recvPacketPayload.run s = .ok payload s') (hne : payload ≠ [])
    (herr : payload.head? ≠ some 0xff) : recvPacket.run s = .ok payload s' := by
  obtain ⟨b, bs, rfl⟩ := List.exists_cons_of_ne_nil hne
  simp only [List.head?_cons, ne_eq, Option.some.injEq] at herr
  -- the first byte is neither missing nor `0xff`: the last arm of the match
  simp only [recvPacket, EStateM.run_bind, h, List.head?_cons]
  rfl

/-- **MySQL packet framing, written and read back.** `Packet::encode_with` writes
`k = ⌊|P| / 0xFF_FF_FF⌋ + 1` packets for a payload of at least `0xFF_FF_FF`
bytes and one otherwise, each a three-byte little-endian length, the sequence
ids `s, s + 1, …` (mod 256), and its part of the payload: full parts of
`0xFF_FF_FF` bytes, then a shorter last one. The reassembly of
`recv_packet` reads these bytes back as the payload, and both sides end on the
sequence id `s + k`. -/
theorem Packet.encodeWith_round_trip (payload buf more : List UInt8)
    (sequenceId stale : UInt8) :
    Packet.encodeWith payload buf sequenceId =
        (buf ++ packets (splitPayload payload) sequenceId, sequenceId + UInt8.ofNat
          (if maxPacketPayload ≤ payload.length then payload.length / maxPacketPayload + 1
            else 1)) ∧
      (splitPayload payload).length =
        (if maxPacketPayload ≤ payload.length then payload.length / maxPacketPayload + 1
          else 1) ∧
      (∀ p ∈ (splitPayload payload).dropLast, p.length = maxPacketPayload) ∧
      (∀ p ∈ (splitPayload payload).getLast?, p.length < maxPacketPayload) ∧
      (splitPayload payload).flatten = payload ∧
      recvPacketPayload.run ⟨packets (splitPayload payload) sequenceId ++ more, stale⟩ =
        .ok payload ⟨more, sequenceId + UInt8.ofNat
          (if maxPacketPayload ≤ payload.length then payload.length / maxPacketPayload + 1
            else 1)⟩ := by
  -- one count of packets for both cases: a short payload divides to zero
  have hk : (if maxPacketPayload ≤ payload.length then payload.length / maxPacketPayload + 1
      else 1) = (splitPayload payload).length := by
    rw [length_splitPayload]
    split
    · rfl
    · rw [Nat.div_eq_of_lt (by omega)]
  rw [hk]
  refine ⟨encodeWith_eq payload buf sequenceId, rfl, ?_, ?_, flatten_splitPayload payload,
    recvPacketPayload_packets payload more sequenceId stale⟩
  · intro p hp
    simp only [splitPayload, List.dropLast_concat] at hp
    exact length_of_mem_chunksExact _ _ p hp
  · intro p hp
    simp only [splitPayload, List.getLast?_concat, Option.mem_def, Option.some.injEq] at hp
    subst hp
    exact length_chunksExact_snd_lt (by decide) _

end Sqlx.MySql
