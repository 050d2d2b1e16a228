import Sqlx.Lib.SortedMap
import Sqlx.Lib.Utf8
import Sqlx.Postgres.ValueDecode

/-!
# Postgres — `PgHstore` (`types/hstore.rs`)

`PgHstore` is a `BTreeMap<String, Option<String>>`: here a `SortedMap` of
texts as their UTF-8 bytes, which `str` orders byte by byte as `compare` on
`List UInt8` does. The binary format is the number of pairs, then each key
and its value, a text framed by its `i32` length and a NULL value by `-1`.

The decoder checks the room for every length and every text before it reads
it, so it never panics (`decodeHstore_ne_none`). It inserts the pairs in the
order they come, so of two pairs with one key the later wins
(`decodeHstore_pairsBytes`). The encoder writes the map's own bindings in key
order (`encodeHstore_output`), and those read back give the map.
-/

namespace Sqlx.Postgres

open Wire

/-- `PgHstore`: `BTreeMap<String, Option<String>>`, each text as its bytes. -/
abbrev PgHstore := SortedMap (List UInt8) (Option (List UInt8))

/-- A text the format carries: a `String` (well-formed UTF-8) shorter than
`2^31` bytes, so that its length fits the `i32` in front of it. -/
def Framable (s : List UInt8) : Prop := s.length < 2 ^ 31 ∧ Utf8.valid s = true

instance (s : List UInt8) : Decidable (Framable s) := inferInstanceAs (Decidable (_ ∧ _))

/-- Pairs the format carries: every key, and every value that is not NULL, framable. -/
def FramablePairs (pairs : List (List UInt8 × Option (List UInt8))) : Prop :=
  ∀ e ∈ pairs, Framable e.1 ∧ ∀ v ∈ e.2, Framable v

instance (pairs : List (List UInt8 × Option (List UInt8))) : Decidable (FramablePairs pairs) :=
  inferInstanceAs (Decidable (∀ e ∈ pairs, _))

/-! ## Decoding -/

/-- `read_length`: an `i32`, after a check that four bytes are left. -/
def readLength (buf : List UInt8) : DecodeM (Int × List UInt8) := do
  check (4 ≤ buf.length) s!"expected 4 bytes, got {buf.length}"
  panicking (getI32 buf)

/-- `read_string`: a text of the length read first, `None` for `-1`. -/
def readString (buf : List UInt8) : DecodeM (Option (List UInt8) × List UInt8) := do
  let (len, buf) ← readLength buf
  if len = -1 then pure (none, buf)
  else do
    check (0 ≤ len) s!"string length out of range: {len}"
    check (len.toNat ≤ buf.length) s!"expected {len} bytes, got {buf.length}"
    -- `split_at` panics past the end, which the check above rules out
    let (val, rest) ← panicking (readN len.toNat buf)
    let val ← Utf8.fromUtf8 val
    pure (some val, rest)

/-- The loop of `decode` over the pairs: `n` left to read, the next the
`i`-th, each inserted into `result`. -/
def readPairs : Nat → Nat → PgHstore → List UInt8 → DecodeM (PgHstore × List UInt8)
  | 0, _, result, buf => pure (result, buf)
  | n + 1, i, result, buf => do
    let (key, buf) ← (readString buf).adapt fun e => s!"PgHstore: error reading {i}th key: {e}"
    let some key := key | throw s!"PgHstore: expected {i}th key, got nothing"
    let shown := Utf8.debug key
    let (value, buf) ← (readString buf).adapt fun e => s!"PgHstore: error reading value for key {shown}: {e}"
    readPairs n (i + 1) (result.insert key value) buf

/-- `Decode for PgHstore` on a value that is not NULL. The bytes left after the
last pair are only logged. -/
def decodeHstore (buf : List UInt8) : DecodeM PgHstore := do
  let (len, buf) ← readLength buf
  check (0 ≤ len) s!"PgHstore: length out of range: {len}"
  let (result, _) ← readPairs len.toNat 0 SortedMap.empty buf
  pure result

/-! ## Encoding -/

/-- The pairs of `encode_by_ref`'s loop from the `i`-th on: each key, then its
value or `-1`, every length checked to fit an `i32`. -/
def encodePairs : Nat → List (List UInt8 × Option (List UInt8)) → Encoder
  | _, [] => .done .no
  | i, (key, val) :: rest =>
    let keyLen := key.length
    if keyLen < 2 ^ 31 then
      .extend (i32ToBeBytes keyLen) <| .extend key <|
        match val with
        | some val =>
          let valLen := val.length
          let shown := Utf8.debug key
          if valLen < 2 ^ 31 then .extend (i32ToBeBytes valLen) <| .extend val <| encodePairs (i + 1) rest
          else .fail s!"PgHstore: value length for key {shown} out of range: {valLen} bytes"
        | none => .extend (i32ToBeBytes (-1)) (encodePairs (i + 1) rest)
    else .fail s!"PgHstore: length of {i}th key out of range: {keyLen} bytes"

/-- `Encode for PgHstore`: the number of pairs, then the pairs in key order. -/
def encodeHstore (h : PgHstore) : Encoder :=
  let size := h.size
  if size < 2 ^ 31 then .extend (i32ToBeBytes size) (encodePairs 0 h.toList)
  else .fail s!"PgHstore length out of range: {size}"

/-- The pairs as the format lays them out. -/
def pairsBytes (pairs : List (List UInt8 × Option (List UInt8))) : List UInt8 :=
  pairs.flatMap fun pair => frameValue (some pair.1) ++ frameValue pair.2

/-! ## Reading back what the format lays out -/

section Read

variable {val : Option (List UInt8)} {pairs : List (List UInt8 × Option (List UInt8))}

theorem readLength_i32ToBeBytes {x : Int} (hlo : -2147483648 ≤ x) (hhi : x < 2147483648) (rest : List UInt8) :
    readLength (i32ToBeBytes x ++ rest) = pure (x, rest) := by
  have hroom : 4 ≤ (i32ToBeBytes x ++ rest).length := by simp
  simp only [readLength, check_of_pos _ hroom, pure_bind, getI32_i32ToBeBytes hlo hhi, panicking_some]

/-- A framed text, or `-1`, reads back as itself. -/
theorem readString_frameValue (hval : ∀ v ∈ val, Framable v) (rest : List UInt8) :
    readString (frameValue val ++ rest) = pure (val, rest) := by
  cases val with
  | none =>
    simp only [frameValue, readString, readLength_i32ToBeBytes (x := -1) (by decide) (by decide), pure_bind,
      if_true]
  | some v =>
    obtain ⟨hlen, hvalid⟩ := hval v rfl
    have hne : ¬(v.length : Int) = -1 := by omega
    have hroom : v.length ≤ (v ++ rest).length := by simp
    simp only [frameValue, List.append_assoc, readString,
      readLength_i32ToBeBytes (x := v.length) (by omega) (by omega), pure_bind, if_neg hne,
      check_of_pos _ (Int.natCast_nonneg _), check_of_pos _ hroom, Int.toNat_natCast, readN_append rfl rest,
      panicking_some, Utf8.fromUtf8_of_valid hvalid, monadLift_ok]


/-- The pairs, read one after another, are inserted in the order they come. -/
theorem readPairs_pairsBytes (rest : List UInt8) (hpairs : FramablePairs pairs) :
    ∀ (i : Nat) (result : PgHstore), readPairs pairs.length i result (pairsBytes pairs ++ rest) =
      pure (pairs.foldl (fun m e => m.insert e.1 e.2) result, rest) := by
  induction pairs with
  | nil => intro i result; rfl
  | cons pair pairs ih =>
    obtain ⟨key, val⟩ := pair
    intro i result
    obtain ⟨hkey, hval⟩ := hpairs _ List.mem_cons_self
    have hrest : FramablePairs pairs := fun e he => hpairs e (List.mem_cons_of_mem _ he)
    have hbytes : pairsBytes ((key, val) :: pairs) ++ rest =
        frameValue (some key) ++ (frameValue val ++ (pairsBytes pairs ++ rest)) := by
      simp [pairsBytes]
    have hkey' : ∀ v ∈ some key, Framable v := fun _ hv => Option.mem_some_iff.mp hv ▸ hkey
    rw [List.length_cons, hbytes, List.foldl_cons]
    simp only [readPairs, readString_frameValue hkey', adapt_pure, pure_bind, readString_frameValue hval,
      ih hrest]

/-- **What `decode` reads from a count and the pairs**: the pairs inserted in
order, so that of two pairs with one key the later wins; bytes after them are
left unread. -/
theorem decodeHstore_pairsBytes (hlen : pairs.length < 2 ^ 31) (hpairs : FramablePairs pairs) (rest : List UInt8) :
    decodeHstore (i32ToBeBytes pairs.length ++ pairsBytes pairs ++ rest) =
      pure (pairs.foldl (fun m e => m.insert e.1 e.2) SortedMap.empty) := by
  simp only [decodeHstore, List.append_assoc, readLength_i32ToBeBytes (x := pairs.length) (by omega) (by omega),
    pure_bind, check_of_pos _ (Int.natCast_nonneg _), Int.toNat_natCast, readPairs_pairsBytes rest hpairs]

end Read

/-! ## What the encoder writes -/

section Write

variable {pairs : List (List UInt8 × Option (List UInt8))}

/-- With every length in range, the loop writes the pairs as the format lays them out. -/
theorem encodePairs_output (hpairs : ∀ e ∈ pairs, e.1.length < 2 ^ 31 ∧ ∀ v ∈ e.2, v.length < 2 ^ 31) :
    ∀ i, (encodePairs i pairs).output = .ok (.no, ⟨pairsBytes pairs, [], []⟩) := by
  induction pairs with
  | nil => intro i; rfl
  | cons pair pairs ih =>
    obtain ⟨key, val⟩ := pair
    intro i
    obtain ⟨hkey, hval⟩ := hpairs _ List.mem_cons_self
    have hrest := ih (fun e he => hpairs e (List.mem_cons_of_mem _ he)) (i + 1)
    cases val with
    | none =>
      simp only [encodePairs, if_pos hkey, Encoder.output, hrest, after_ok, Written.bytes_only_append]
      simp [pairsBytes, frameValue]
    | some v =>
      simp only [encodePairs, if_pos hkey, if_pos (hval v rfl), Encoder.output, hrest, after_ok,
        Written.bytes_only_append]
      simp [pairsBytes, frameValue]

/-- `encode_by_ref` of a map whose count and texts fit an `i32`: the count,
then the map's bindings in key order. -/
theorem encodeHstore_output {h : PgHstore} (hsize : h.size < 2 ^ 31)
    (hlen : ∀ e ∈ h.toList, e.1.length < 2 ^ 31 ∧ ∀ v ∈ e.2, v.length < 2 ^ 31) :
    (encodeHstore h).output = .ok (.no, ⟨i32ToBeBytes h.size ++ pairsBytes h.toList, [], []⟩) := by
  simp only [encodeHstore, if_pos hsize, Encoder.output, encodePairs_output hlen, after_ok,
    Written.bytes_only_append]

end Write


/-! ## The decoder never panics -/

section Total

/-- `read_length` reads only after its check that four bytes are there. -/
theorem readLength_ne_none (buf : List UInt8) : (readLength buf).run ≠ none := by
  rw [readLength]
  refine run_check_bind_ne_none fun hroom => ?_
  cases hget : getI32 buf with
  | none => exact absurd (getI32_eq_none_iff.mp hget) (by omega)
  | some p => exact Option.some_ne_none _

/-- `read_string` slices only after its check that the text is there. -/
theorem readString_ne_none (buf : List UInt8) : (readString buf).run ≠ none := by
  rw [readString]
  refine run_bind_ne_none (readLength_ne_none buf) fun ⟨len, rest⟩ => ?_
  dsimp only
  split
  · exact Option.some_ne_none _
  · refine run_check_bind_ne_none fun _ => run_check_bind_ne_none fun hroom => ?_
    rw [readN, if_pos hroom, panicking_some, pure_bind]
    -- `from_utf8` answers `Ok` or `Err`, never a panic
    dsimp only
    cases Utf8.fromUtf8 (rest.take len.toNat) <;> exact Option.some_ne_none _

/-- Each turn of the loop reads two strings; an error ends it, a panic never does. -/
theorem readPairs_ne_none : ∀ (n i : Nat) (result : PgHstore) (buf : List UInt8),
    (readPairs n i result buf).run ≠ none
  | 0, _, _, _ => Option.some_ne_none _
  | n + 1, i, result, buf => by
    rw [readPairs]
    refine run_bind_ne_none (run_adapt_ne_none _ (readString_ne_none buf)) fun ⟨key, rest⟩ => ?_
    dsimp only
    cases key with
    | none => exact Option.some_ne_none _
    | some key =>
      refine run_bind_ne_none (run_adapt_ne_none _ (readString_ne_none rest)) fun ⟨value, rest⟩ => ?_
      exact readPairs_ne_none n (i + 1) _ rest

/-- **`PgHstore::decode` never panics**: on every payload it returns `Ok` or `Err`. -/
theorem decodeHstore_ne_none (buf : List UInt8) : (decodeHstore buf).run ≠ none := by
  rw [decodeHstore]
  refine run_bind_ne_none (readLength_ne_none buf) fun p => ?_
  refine run_check_bind_ne_none fun _ => ?_
  refine run_bind_ne_none (readPairs_ne_none _ 0 _ p.2) fun q => ?_
  exact Option.some_ne_none _

end Total


/-! ## The codec -/

/-- **The `PgHstore` codec.** A map whose count and texts fit an `i32` is
written as its count and its bindings, which `decode` reads back as the map.
On every payload `decode` returns `Ok` or `Err`. It inserts the pairs it reads
in order, so that a later pair for a key replaces an earlier one. -/
theorem hstore_round_trip_and_total :
    (∀ h : PgHstore, h.size < 2 ^ 31 → FramablePairs h.toList →
      ∃ bytes, (encodeHstore h).output = .ok (.no, ⟨bytes, [], []⟩) ∧ (decodeHstore bytes).run = some (.ok h)) ∧
    (∀ buf : List UInt8, (decodeHstore buf).run ≠ none) ∧
    (∀ (pairs : List (List UInt8 × Option (List UInt8))) (rest : List UInt8), pairs.length < 2 ^ 31 →
      FramablePairs pairs →
      (decodeHstore (i32ToBeBytes pairs.length ++ pairsBytes pairs ++ rest)).run =
          some (.ok (pairs.foldl (fun m e => m.insert e.1 e.2) SortedMap.empty)) ∧
        ∀ key, (pairs.foldl (fun m e => m.insert e.1 e.2) SortedMap.empty).get? key =
          SortedMap.find? key pairs.reverse) := by
  refine ⟨fun h hsize hpairs => ?_, decodeHstore_ne_none, fun pairs rest hlen hpairs => ⟨?_, fun key => ?_⟩⟩
  · -- the bindings written in key order read back, inserted one by one, as the map
    have hlens : ∀ e ∈ h.toList, e.1.length < 2 ^ 31 ∧ ∀ v ∈ e.2, v.length < 2 ^ 31 :=
      fun e he => ⟨(hpairs e he).1.1, fun v hv => ((hpairs e he).2 v hv).1⟩
    have hdecode := decodeHstore_pairsBytes hsize hpairs []
    rw [List.append_nil, SortedMap.foldl_insert_toList] at hdecode
    exact ⟨_, encodeHstore_output hsize hlens, congrArg ExceptT.run hdecode⟩
  · exact congrArg ExceptT.run (decodeHstore_pairsBytes hlen hpairs rest)
  · rw [SortedMap.get?_foldl_insert, SortedMap.get?_empty, Option.or_none]

/-- The map `a => "1", b => NULL` reads back from what it writes; of the
pairs `(a, "1")` and `(a, "2")` the second wins. -/
theorem hstore_of_repeated_key :
    (∃ bytes, (encodeHstore ((SortedMap.empty.insert [0x62] none).insert [0x61] (some [0x31]))).output =
        .ok (.no, ⟨bytes, [], []⟩) ∧
      (decodeHstore bytes).run = some (.ok ((SortedMap.empty.insert [0x62] none).insert [0x61] (some [0x31])))) ∧
    (decodeHstore (i32ToBeBytes 2 ++ pairsBytes [([0x61], some [0x31]), ([0x61], some [0x32])] ++ [])).run =
      some (.ok (SortedMap.empty.insert [0x61] (some [0x32]))) := by
  refine ⟨hstore_round_trip_and_total.1 _ (by decide) (by decide), ?_⟩
  obtain ⟨hdecode, -⟩ :=
    hstore_round_trip_and_total.2.2 [([0x61], some [0x31]), ([0x61], some [0x32])] [] (by decide) (by decide)
  exact hdecode

end Sqlx.Postgres
