import Mathlib.Tactic.Ring
import Mathlib.Tactic.Linarith
import Mathlib.Data.Nat.Bitwise
import Mathlib.Data.List.GetD

/-!
# Wire — fixed-width integers as bytes

The byte layouts every wire format here is built from: a natural as `w`
little-endian or big-endian bytes, a signed integer through its `w`-bit two's
complement, the in-place overwrite of a byte range that a length prefix
written after its payload needs, and a bit string packed into bytes. Each encoder comes with its decoder and the
round trip below the width's bound.
-/

namespace Wire

/-! ## Little-endian -/

/-- The `w` least significant bytes of `n`, low byte first. -/
def leBytes : Nat → Nat → List UInt8
  | 0, _ => []
  | w + 1, n => UInt8.ofNat (n % 256) :: leBytes w (n / 256)

/-- The natural whose little-endian bytes are `l`. -/
def leValue : List UInt8 → Nat
  | [] => 0
  | b :: bs => b.toNat + 256 * leValue bs

@[simp] theorem leBytes_zero (n : Nat) : leBytes 0 n = [] := rfl

@[simp] theorem leBytes_succ (w n : Nat) :
    leBytes (w + 1) n = UInt8.ofNat (n % 256) :: leBytes w (n / 256) := rfl

@[simp] theorem leValue_nil : leValue [] = 0 := rfl

@[simp] theorem leValue_cons (b : UInt8) (bs : List UInt8) :
    leValue (b :: bs) = b.toNat + 256 * leValue bs := rfl

@[simp] theorem length_leBytes (w n : Nat) : (leBytes w n).length = w := by
  induction w generalizing n with
  | zero => rfl
  | succ w ih => simp [ih]

/-- Decoding keeps exactly the bits the width holds. -/
theorem leValue_leBytes (w n : Nat) : leValue (leBytes w n) = n % 256 ^ w := by
  induction w generalizing n with
  | zero => simp [Nat.mod_one]
  | succ w ih =>
    have hlow : (UInt8.ofNat (n % 256)).toNat = n % 256 := by
      simp
    rw [leBytes_succ, leValue_cons, ih, hlow, Nat.pow_succ', Nat.mod_mul]

theorem leValue_leBytes_of_lt {w n : Nat} (h : n < 256 ^ w) :
    leValue (leBytes w n) = n := by
  rw [leValue_leBytes, Nat.mod_eq_of_lt h]

/-- The low bytes of a wider encoding are the narrower encoding. -/
theorem take_leBytes : ∀ {k w : Nat}, k ≤ w → ∀ n : Nat, (leBytes w n).take k = leBytes k n
  | 0, _, _, _ => rfl
  | k + 1, w + 1, h, n => by
    rw [leBytes_succ, List.take_succ_cons, take_leBytes (by omega), leBytes_succ]

theorem leValue_lt (l : List UInt8) : leValue l < 256 ^ l.length := by
  induction l with
  | nil => simp
  | cons b bs ih =>
    have hb : b.toNat < 256 := b.toNat_lt
    rw [leValue_cons, List.length_cons, Nat.pow_succ]
    omega

theorem leValue_append (l₁ l₂ : List UInt8) :
    leValue (l₁ ++ l₂) = leValue l₁ + 256 ^ l₁.length * leValue l₂ := by
  induction l₁ with
  | nil => simp
  | cons b bs ih =>
    rw [List.cons_append, leValue_cons, leValue_cons, ih, List.length_cons, Nat.pow_succ]
    ring

/-! ## Big-endian -/

/-- The `w` least significant bytes of `n`, high byte first (`to_be_bytes`). -/
def beBytes (w n : Nat) : List UInt8 := (leBytes w n).reverse

/-- The natural whose big-endian bytes are `l` (`get_uN` on a `Buf`). -/
def beValue (l : List UInt8) : Nat := leValue l.reverse

@[simp] theorem length_beBytes (w n : Nat) : (beBytes w n).length = w := by
  simp [beBytes]

theorem beValue_beBytes_of_lt {w n : Nat} (h : n < 256 ^ w) :
    beValue (beBytes w n) = n := by
  simp [beValue, beBytes, leValue_leBytes_of_lt h]

theorem beValue_lt (l : List UInt8) : beValue l < 256 ^ l.length := by
  simpa [beValue] using leValue_lt l.reverse

/-! ## Two's complement -/

/-- The `w`-bit two's complement of `x`, as the unsigned value of its bits. -/
def twos (w : Nat) (x : Int) : Nat := (x % (2 ^ w : Nat)).toNat

/-- The signed value of `w` bits read as two's complement. -/
def ofTwos (w : Nat) (u : Nat) : Int :=
  if u < 2 ^ (w - 1) then u else (u : Int) - (2 ^ w : Nat)

theorem twos_lt (w : Nat) (x : Int) : twos w x < 2 ^ w := by
  have hpos : (0 : Int) < (2 ^ w : Nat) := by exact_mod_cast Nat.two_pow_pos w
  have h1 := Int.emod_nonneg x (ne_of_gt hpos)
  have h2 := Int.emod_lt_of_pos x hpos
  unfold twos
  omega

/-- Reading the bits back gives the integer, for every `x` the width can hold. -/
theorem ofTwos_twos {w : Nat} {x : Int} (hw : 0 < w)
    (hlo : -((2 ^ (w - 1) : Nat) : Int) ≤ x) (hhi : x < (2 ^ (w - 1) : Nat)) :
    ofTwos w (twos w x) = x := by
  have hsplit : 2 ^ w = 2 * 2 ^ (w - 1) := by
    rw [← Nat.pow_succ']
    congr 1
    omega
  unfold ofTwos twos
  rw [hsplit] at *
  generalize 2 ^ (w - 1) = m at *
  push_cast at *
  rcases Int.lt_or_le x 0 with hneg | hnonneg
  · -- a negative `x` is stored as `x + 2 ^ w`, at or above the sign bit
    have hmod : x % (2 * m : Int) = x + 2 * m := by
      rw [← Int.add_mul_emod_self_right x 1, Int.one_mul, Int.emod_eq_of_lt (by omega) (by omega)]
    rw [hmod, if_neg (by omega)]
    omega
  · have hmod : x % (2 * m : Int) = x := Int.emod_eq_of_lt hnonneg (by omega)
    rw [hmod, if_pos (by omega)]
    omega

/-- A `w`-bit value read as two's complement is at most `2 ^ w` away from zero. -/
theorem natAbs_ofTwos_le {w u : Nat} (hu : u < 2 ^ w) : (ofTwos w u).natAbs ≤ 2 ^ w := by
  unfold ofTwos
  split <;> omega

/-- A `w`-bit value read as two's complement is one the width holds. -/
theorem ofTwos_mem {w u : Nat} (hw : 0 < w) (hu : u < 2 ^ w) :
    -((2 ^ (w - 1) : Nat) : Int) ≤ ofTwos w u ∧ ofTwos w u < (2 ^ (w - 1) : Nat) := by
  have hsplit : 2 ^ w = 2 * 2 ^ (w - 1) := by
    rw [← Nat.pow_succ']
    congr 1
    omega
  unfold ofTwos
  rw [hsplit] at hu ⊢
  generalize 2 ^ (w - 1) = m at *
  push_cast
  split <;> omega

/-- The bits of the integer that `w` bits read as are those bits. -/
theorem twos_ofTwos {w u : Nat} (hu : u < 2 ^ w) : twos w (ofTwos w u) = u := by
  have hpos : (0 : Int) < (2 ^ w : Nat) := by exact_mod_cast Nat.two_pow_pos w
  unfold ofTwos twos
  split
  · rw [Int.emod_eq_of_lt (Int.natCast_nonneg u) (by exact_mod_cast hu)]
    rfl
  · -- a value at or above the sign bit is read as `u - 2 ^ w`, the same residue
    have hmod : ((u : Int) - (2 ^ w : Nat)) % (2 ^ w : Nat) = u := by
      rw [Int.sub_eq_add_neg, ← Int.neg_one_mul, Int.add_mul_emod_self_right,
        Int.emod_eq_of_lt (Int.natCast_nonneg u) (by exact_mod_cast hu)]
    rw [hmod]
    rfl

/-! ## Checked arithmetic -/

/-- `checked_add` on `w`-bit unsigned integers: `none` when the sum does not fit. -/
def checkedAdd (w a b : Nat) : Option Nat := if a + b < 2 ^ w then some (a + b) else none

@[simp] theorem checkedAdd_eq_some {w a b c : Nat} : checkedAdd w a b = some c ↔ a + b < 2 ^ w ∧ a + b = c := by
  unfold checkedAdd
  split <;> simp_all

@[simp] theorem checkedAdd_eq_none {w a b : Nat} : checkedAdd w a b = none ↔ 2 ^ w ≤ a + b := by
  unfold checkedAdd
  split <;> simp_all

/-! ## Overwriting a range -/

/-- `dst[i..i + src.len()].copy_from_slice(src)`, for a range inside `dst`. -/
def overwrite (dst : List UInt8) (i : Nat) (src : List UInt8) : List UInt8 :=
  dst.take i ++ src ++ dst.drop (i + src.length)

/-- Filling a placeholder of the right width replaces exactly that placeholder. -/
theorem overwrite_placeholder (pre hole rest src : List UInt8)
    (h : hole.length = src.length) :
    overwrite (pre ++ hole ++ rest) pre.length src = pre ++ src ++ rest := by
  have hdrop : (pre ++ hole ++ rest).drop (pre.length + src.length) = rest := by
    rw [List.append_assoc, ← List.drop_drop, List.drop_left, List.drop_left' h]
  unfold overwrite
  rw [hdrop, List.append_assoc pre hole rest, List.take_left]

@[simp] theorem length_overwrite (dst : List UInt8) (i : Nat) (src : List UInt8)
    (h : i + src.length ≤ dst.length) :
    (overwrite dst i src).length = dst.length := by
  simp [overwrite]
  omega

/-- Overwriting inside `dst` leaves what follows `dst` alone. -/
theorem overwrite_append_of_le {dst : List UInt8} {i : Nat} {src : List UInt8} (h : i + src.length ≤ dst.length)
    (rest : List UInt8) : overwrite (dst ++ rest) i src = overwrite dst i src ++ rest := by
  simp only [overwrite, List.append_assoc]
  rw [List.take_append_of_le_length (by omega), List.drop_append_of_le_length h]

/-- Overwriting at `f + i` and then cutting out the range `f..n` that holds
it is overwriting that range at `i`. -/
theorem drop_take_overwrite {dst : List UInt8} {f i n : Nat} {src : List UInt8} (hle : f + i + src.length ≤ n)
    (hn : n ≤ dst.length) :
    ((overwrite dst (f + i) src).take n).drop f = overwrite ((dst.take n).drop f) i src := by
  have hA : (dst.take (f + i)).length = f + i := List.length_take_of_le (by omega)
  -- the part past the overwrite is cut at `n` on both sides
  have hcut : (dst.take (f + i) ++ src ++ dst.drop (f + i + src.length)).take n =
      dst.take (f + i) ++ src ++ (dst.drop (f + i + src.length)).take (n - (f + i + src.length)) := by
    rw [List.take_append, List.take_of_length_le (by simp [hA]; omega), List.length_append, hA]
  have hfront : ((dst.take n).drop f).take i = (dst.take (f + i)).drop f := by
    rw [List.take_drop, List.take_take, Nat.min_eq_left (by omega)]
  have hback : ((dst.take n).drop f).drop (i + src.length) =
      (dst.drop (f + i + src.length)).take (n - (f + i + src.length)) := by
    rw [List.drop_drop, List.drop_take, Nat.add_assoc]
  rw [overwrite, hcut, List.append_assoc, List.drop_append_of_le_length (by omega), overwrite, hfront, hback,
    List.append_assoc]

/-! ## Cutting into chunks -/

/-- `slice.chunks_exact(n)`: the consecutive chunks of exactly `n` elements, and
the remainder, shorter than `n`. -/
def chunksExact {α : Type} (n : Nat) (l : List α) : List (List α) × List α :=
  if _h : 0 < n ∧ n ≤ l.length then
    ((l.take n) :: (chunksExact n (l.drop n)).1, (chunksExact n (l.drop n)).2)
  else ([], l)
termination_by l.length
decreasing_by simp only [List.length_drop]; omega

theorem chunksExact_of_le {α : Type} {n : Nat} {l : List α} (hn : 0 < n) (h : n ≤ l.length) :
    chunksExact n l = ((l.take n) :: (chunksExact n (l.drop n)).1, (chunksExact n (l.drop n)).2) := by
  rw [chunksExact, dif_pos ⟨hn, h⟩]

theorem chunksExact_of_lt {α : Type} {n : Nat} {l : List α} (h : l.length < n) :
    chunksExact n l = ([], l) := by
  rw [chunksExact, dif_neg (by omega)]

/-- The chunks and the remainder, put back together, are the list. -/
theorem flatten_chunksExact {α : Type} (n : Nat) (l : List α) :
    (chunksExact n l).1.flatten ++ (chunksExact n l).2 = l := by
  fun_induction chunksExact n l with
  | case1 l h ih => simp [List.append_assoc, ih]
  | case2 l h => simp

theorem length_of_mem_chunksExact {α : Type} (n : Nat) (l : List α) :
    ∀ c ∈ (chunksExact n l).1, c.length = n := by
  fun_induction chunksExact n l with
  | case1 l h ih =>
    intro c hc
    rcases List.mem_cons.mp hc with rfl | hc
    · simp only [List.length_take]
      omega
    · exact ih c hc
  | case2 l h => simp

theorem length_chunksExact_snd_lt {α : Type} {n : Nat} (hn : 0 < n) (l : List α) :
    (chunksExact n l).2.length < n := by
  fun_induction chunksExact n l with
  | case1 l h ih => exact ih
  | case2 l h => simp only; omega

theorem length_chunksExact_fst {α : Type} {n : Nat} (hn : 0 < n) (l : List α) :
    (chunksExact n l).1.length = l.length / n := by
  fun_induction chunksExact n l with
  | case1 l h ih =>
    simp only [List.length_cons, ih, List.length_drop]
    have hsplit : l.length = (l.length - n) + n := by omega
    rw [hsplit, Nat.add_div_right _ hn]
    simp
  | case2 l h =>
    simp only [List.length_nil]
    rw [Nat.div_eq_of_lt (by omega)]

/-- Rust's `slice::chunks(n)`: pieces of `n` elements, the last one shorter when
`n` does not divide the length; no piece is empty. -/
def chunks {α : Type} (n : Nat) (l : List α) : List (List α) :=
  if _h : 0 < n ∧ l ≠ [] then l.take n :: chunks n (l.drop n) else []
termination_by l.length
decreasing_by
  have := List.length_pos_iff.mpr _h.2
  simp only [List.length_drop]
  omega

@[simp] theorem chunks_nil {α : Type} (n : Nat) : chunks n ([] : List α) = [] := by
  rw [chunks, dif_neg (by simp)]

theorem chunks_of_ne_nil {α : Type} {n : Nat} {l : List α} (hn : 0 < n) (hl : l ≠ []) :
    chunks n l = l.take n :: chunks n (l.drop n) := by
  rw [chunks, dif_pos ⟨hn, hl⟩]

/-- The pieces, put back together, are the list. -/
theorem flatten_chunks {α : Type} {n : Nat} (hn : 0 < n) (l : List α) :
    (chunks n l).flatten = l := by
  fun_induction chunks n l with
  | case1 l h ih => simp [ih]
  | case2 l h =>
    have hl : l = [] := by simpa [hn] using h
    simp [hl]

theorem mem_of_mem_chunks {α : Type} {n : Nat} (hn : 0 < n) {l c : List α} {x : α}
    (hc : c ∈ chunks n l) (hx : x ∈ c) : x ∈ l := by
  rw [← flatten_chunks hn l]
  exact List.mem_flatten.mpr ⟨c, hc, hx⟩

/-- Every piece has between one and `n` elements. -/
theorem length_of_mem_chunks {α : Type} (n : Nat) (l : List α) :
    ∀ c ∈ chunks n l, 0 < c.length ∧ c.length ≤ n := by
  fun_induction chunks n l with
  | case1 l h ih =>
    intro c hc
    rcases List.mem_cons.mp hc with rfl | hc
    · have := List.length_pos_iff.mpr h.2
      simp only [List.length_take]
      omega
    · exact ih c hc
  | case2 l h => simp

/-- `n` elements a piece are room enough for the list. -/
theorem length_le_mul_length_chunks {α : Type} {n : Nat} (hn : 0 < n) (l : List α) :
    l.length ≤ n * (chunks n l).length := by
  fun_induction chunks n l with
  | case1 l h ih =>
    simp only [List.length_cons, List.length_drop] at ih ⊢
    rw [Nat.mul_succ]
    omega
  | case2 l h =>
    have hl : l = [] := by simpa [hn] using h
    simp [hl]

/-! ## Bits packed into bytes

A bit string stored least significant bit first: bit `i` is bit `i % 8` of
byte `i / 8`. Setting a bit ORs a shifted one into its byte, which is all a
writer that only ever sets the next bit needs. -/

/-- Bit `i` of a packed bit string; `false` past its last byte. -/
def bitAt (bytes : List UInt8) (i : Nat) : Bool := (bytes.getD (i / 8) 0).toNat.testBit (i % 8)

@[simp] theorem bitAt_nil (i : Nat) : bitAt [] i = false := by
  simp [bitAt]

theorem toNat_toUInt8 (b : Bool) : b.toUInt8.toNat = b.toNat := by
  cases b <;> rfl

/-- ORing in `b` shifted by `off` sets bit `off` when `b` holds, and no other bit. -/
theorem testBit_or_shiftLeft (x : UInt8) (b : Bool) {off : Nat} (hoff : off < 8) (k : Nat) :
    (x ||| b.toUInt8 <<< off.toUInt8).toNat.testBit k = (x.toNat.testBit k || (b && k == off)) := by
  have hoff' : off.toUInt8.toNat % 8 = off := by
    rw [Nat.toUInt8_eq, UInt8.toNat_ofNat']
    omega
  rw [UInt8.toNat_or, Nat.testBit_or, UInt8.toNat_shiftLeft, hoff', Nat.testBit_mod_two_pow,
    Nat.testBit_shiftLeft, toNat_toUInt8]
  -- the shifted bit lands at `off`, inside the byte
  have hbit : (decide (k < 8) && (decide (k ≥ off) && b.toNat.testBit (k - off))) = (b && k == off) := by
    cases b with
    | false => simp
    | true =>
      apply Bool.eq_iff_iff.mpr
      simp only [Bool.toNat_true, Bool.and_eq_true, decide_eq_true_eq,
        Nat.testBit_one_eq_true_iff_self_eq_zero, Bool.true_and, beq_iff_eq]
      omega
  rw [hbit]

/-- A zero byte at the end adds no bit. -/
theorem bitAt_append_zero (bytes : List UInt8) (i : Nat) : bitAt (bytes ++ [0]) i = bitAt bytes i := by
  unfold bitAt
  rw [List.getD_eq_getElem?_getD, List.getD_eq_getElem?_getD, List.getElem?_append]
  split
  · rfl
  · rename_i h
    rw [List.getElem?_eq_none (Nat.le_of_not_lt h)]
    cases i / 8 - bytes.length with
    | zero => simp
    | succ j => simp

/-- Setting bit `n` to `b` in a byte that is there. -/
theorem bitAt_modify_or (bytes : List UInt8) {n : Nat} (hn : n / 8 < bytes.length) (b : Bool) (i : Nat) :
    bitAt (bytes.modify (n / 8) (· ||| b.toUInt8 <<< (n % 8).toUInt8)) i =
      (bitAt bytes i || (b && i == n)) := by
  unfold bitAt
  rw [List.getD_eq_getElem?_getD, List.getD_eq_getElem?_getD, List.getElem?_modify]
  by_cases hi : n / 8 = i / 8
  · rw [List.getElem?_eq_getElem (by omega)]
    simp only [hi, if_true, Option.map_eq_map, Option.map_some, Option.getD_some]
    rw [testBit_or_shiftLeft _ _ (Nat.mod_lt _ (by decide))]
    -- in the byte of bit `n`, two offsets agree exactly when the positions do
    have hpos : (i % 8 == n % 8) = (i == n) := by
      apply Bool.eq_iff_iff.mpr
      simp only [beq_iff_eq]
      omega
    rw [hpos]
  · have hne : (i == n) = false := by
      simp only [beq_eq_false_iff_ne]
      omega
    simp [hi, hne]

/-- A byte ANDed with a one shifted by `k` is not zero exactly when bit `k`
of the byte is set: the test a reader makes of one bit. -/
theorem and_shiftLeft_ne_zero (byte : UInt8) {k : Nat} (hk : k < 8) :
    (byte &&& 1 <<< k.toUInt8 != 0) = byte.toNat.testBit k := by
  have hk' : k.toUInt8.toNat % 8 = k := by
    rw [Nat.toUInt8_eq, UInt8.toNat_ofNat']
    omega
  have hpow : 2 ^ k < 2 ^ 8 := Nat.pow_lt_pow_right (by decide) hk
  have hmask : (1 <<< k.toUInt8 : UInt8).toNat = 2 ^ k := by
    rw [UInt8.toNat_shiftLeft, hk', UInt8.toNat_one, Nat.one_shiftLeft, Nat.mod_eq_of_lt hpow]
  -- the mask keeps bit `k` of the byte and no other
  have hand : (byte &&& 1 <<< k.toUInt8).toNat = (byte.toNat.testBit k).toNat * 2 ^ k := by
    rw [UInt8.toNat_and, hmask, Nat.and_two_pow]
  rw [Bool.eq_iff_iff, bne_iff_ne, ne_eq, ← UInt8.toNat_inj, hand, UInt8.toNat_zero]
  cases byte.toNat.testBit k <;> simp

/-- Bit `i` of a bit string as a reader tests it, in a byte that is there. -/
theorem bitAt_eq_and {bytes : List UInt8} {i : Nat} (h : i / 8 < bytes.length) :
    bitAt bytes i = (bytes[i / 8] &&& 1 <<< (i % 8).toUInt8 != 0) := by
  rw [and_shiftLeft_ne_zero _ (Nat.mod_lt _ (by decide)), bitAt, List.getD_eq_getElem _ _ h]

end Wire
