import Sqlx.Lib.Reader

/-!
# MySQL — length-encoded integers and strings (`io/buf.rs`, `io/buf_mut.rs`)

A length-encoded integer is one byte below `0xFB`, or a marker `0xFC`, `0xFD`
or `0xFE` followed by two, three or eight little-endian bytes. The writer picks
the form by the value's range, the reader by the marker byte; `0xFB` (NULL) and
`0xFF` (ERR) are reserved. A length-encoded string is its length so encoded,
then its bytes.

The reader works on `Bytes`, whose getters panic when too few bytes are left:
such a panic is `none` here.
-/

namespace Sqlx.MySql

open Wire

/-- `MySqlBufMutExt::put_uint_lenenc`: the bytes it appends. -/
def putUintLenenc (v : UInt64) : List UInt8 :=
  let encodedLe := leBytes 8 v.toNat
  if v ≤ 250 then encodedLe.take 1
  else if v ≤ 0xFFFF then 0xFC :: encodedLe.take 2
  else if v ≤ 0xFFFFFF then 0xFD :: encodedLe.take 3
  else 0xFE :: encodedLe

/-- `put_bytes_lenenc`: the length (`v.len() as u64`), then the bytes. -/
def putBytesLenenc (v : List UInt8) : List UInt8 := putUintLenenc v.length.toUInt64 ++ v

/-- `MySqlBufExt::get_uint_lenenc`: the value and the bytes after it. -/
def getUintLenenc : List UInt8 → Option (UInt64 × List UInt8)
  | [] => none
  | b :: rest =>
    if b = 0xFC then (readLe 2 rest).map fun p => (p.1.toUInt64, p.2)
    else if b = 0xFD then (readLe 3 rest).map fun p => (p.1.toUInt64, p.2)
    else if b = 0xFE then (readLe 8 rest).map fun p => (p.1.toUInt64, p.2)
    -- every other byte is its own value, the reserved `0xFB` and `0xFF` included
    else some (b.toUInt64, rest)

/-- `get_bytes_lenenc`: the bytes of the length read first. The conversion
to `usize` cannot fail on a 64-bit target; `split_to` panics past the end. -/
def getBytesLenenc (buf : List UInt8) : Option (List UInt8 × List UInt8) := do
  let (size, rest) ← getUintLenenc buf
  readN size.toNat rest

example : putUintLenenc 0xFA = [0xFA] ∧ putUintLenenc 0xFB = [0xFC, 0xFB, 0x00] ∧
    putUintLenenc 0x10000 = [0xFD, 0x00, 0x00, 0x01] := by decide

/-! ## The four forms -/

section Forms

variable {v : UInt64}

theorem putUintLenenc_of_le_250 (h : v ≤ 250) : putUintLenenc v = [v.toUInt8] := by
  have hv : v.toNat ≤ 250 := h
  rw [putUintLenenc, if_pos h, take_leBytes (by omega), leBytes_succ, leBytes_zero]
  congr 1
  apply UInt8.toNat_inj.mp
  simp only [UInt8.toNat_ofNat', UInt64.toNat_toUInt8]
  omega

theorem putUintLenenc_of_le_0xFFFF (h₁ : ¬v ≤ 250) (h₂ : v ≤ 0xFFFF) :
    putUintLenenc v = 0xFC :: leBytes 2 v.toNat := by
  rw [putUintLenenc, if_neg h₁, if_pos h₂, take_leBytes (by omega)]

theorem putUintLenenc_of_le_0xFFFFFF (h₁ : ¬v ≤ 0xFFFF) (h₂ : v ≤ 0xFFFFFF) :
    putUintLenenc v = 0xFD :: leBytes 3 v.toNat := by
  have h₀ : ¬v ≤ 250 := fun h => h₁ (UInt64.le_trans h (by decide))
  rw [putUintLenenc, if_neg h₀, if_neg h₁, if_pos h₂, take_leBytes (by omega)]

theorem putUintLenenc_of_gt_0xFFFFFF (h : ¬v ≤ 0xFFFFFF) : putUintLenenc v = 0xFE :: leBytes 8 v.toNat := by
  have h₁ : ¬v ≤ 0xFFFF := fun h' => h (UInt64.le_trans h' (by decide))
  have h₀ : ¬v ≤ 250 := fun h' => h₁ (UInt64.le_trans h' (by decide))
  rw [putUintLenenc, if_neg h₀, if_neg h₁, if_neg h]

/-- A value up to 250 is a byte below every marker. -/
theorem toUInt8_ne_of_le_250 (h : v ≤ 250) {m : UInt8} (hm : 251 ≤ m.toNat) : v.toUInt8 ≠ m := by
  have hle : v.toNat ≤ 250 := h
  intro heq
  have hbyte : v.toUInt8.toNat = v.toNat := by simp only [UInt64.toNat_toUInt8]; omega
  rw [← heq, hbyte] at hm
  omega

end Forms

/-- The reader over a marker and its little-endian bytes. -/
theorem getUintLenenc_marker {marker : UInt8} {w : Nat} (hw : marker = 0xFC ∧ w = 2 ∨ marker = 0xFD ∧ w = 3 ∨
    marker = 0xFE ∧ w = 8) {v : UInt64} (hv : v.toNat < 256 ^ w) (rest : List UInt8) :
    getUintLenenc (marker :: (leBytes w v.toNat ++ rest)) = some (v, rest) := by
  have hread := readLe_leBytes hv rest
  have hback : v.toNat.toUInt64 = v := by rw [Nat.toUInt64_eq, UInt64.ofNat_toNat]
  rcases hw with ⟨rfl, rfl⟩ | ⟨rfl, rfl⟩ | ⟨rfl, rfl⟩ <;> simp [getUintLenenc, hread, hback, -leBytes_succ]

/-- The reader over a byte below the markers: the byte is the value. -/
theorem getUintLenenc_byte {v : UInt64} (h : v ≤ 250) (rest : List UInt8) :
    getUintLenenc (v.toUInt8 :: rest) = some (v, rest) := by
  have hle : v.toNat ≤ 250 := h
  have hbyte : v.toUInt8.toNat = v.toNat := by simp only [UInt64.toNat_toUInt8]; omega
  rw [getUintLenenc, if_neg (toUInt8_ne_of_le_250 h (by decide)), if_neg (toUInt8_ne_of_le_250 h (by decide)),
    if_neg (toUInt8_ne_of_le_250 h (by decide))]
  congr 2
  apply UInt64.toNat_inj.mp
  simp only [UInt8.toNat_toUInt64, hbyte]

/-! ## Every form the protocol allows

A peer need not send the shortest form: a marker whose width holds the value
makes a length-encoded integer as well, and the reader takes each. -/

/-- `e` is a length-encoded form of `v`. -/
def IsLenenc (v : UInt64) (e : List UInt8) : Prop :=
  (v ≤ 250 ∧ e = [v.toUInt8]) ∨
    ∃ marker w, (marker = 0xFC ∧ w = 2 ∨ marker = 0xFD ∧ w = 3 ∨ marker = 0xFE ∧ w = 8) ∧
      v.toNat < 256 ^ w ∧ e = marker :: leBytes w v.toNat

/-- The reader takes every form, in front of any suffix. -/
theorem getUintLenenc_of_isLenenc {v : UInt64} {e : List UInt8} (h : IsLenenc v e) (rest : List UInt8) :
    getUintLenenc (e ++ rest) = some (v, rest) := by
  rcases h with ⟨hv, rfl⟩ | ⟨marker, w, hw, hv, rfl⟩
  · exact getUintLenenc_byte hv rest
  · exact getUintLenenc_marker hw hv rest

/-- The writer's form is one of them. -/
theorem isLenenc_putUintLenenc (v : UInt64) : IsLenenc v (putUintLenenc v) := by
  have hv : v.toNat < 2 ^ 64 := v.toNat_lt
  by_cases h₀ : v ≤ 250
  · exact .inl ⟨h₀, putUintLenenc_of_le_250 h₀⟩
  by_cases h₁ : v ≤ 0xFFFF
  · have hle : v.toNat ≤ 0xFFFF := h₁
    exact .inr ⟨0xFC, 2, .inl ⟨rfl, rfl⟩, by omega, putUintLenenc_of_le_0xFFFF h₀ h₁⟩
  by_cases h₂ : v ≤ 0xFFFFFF
  · have hle : v.toNat ≤ 0xFFFFFF := h₂
    exact .inr ⟨0xFD, 3, .inr (.inl ⟨rfl, rfl⟩), by omega, putUintLenenc_of_le_0xFFFFFF h₁ h₂⟩
  · exact .inr ⟨0xFE, 8, .inr (.inr ⟨rfl, rfl⟩), by omega, putUintLenenc_of_gt_0xFFFFFF h₂⟩

/-- No form starts with `0xFB`. -/
theorem exists_cons_ne_of_isLenenc {v : UInt64} {e : List UInt8} (h : IsLenenc v e) :
    ∃ b tail, e = b :: tail ∧ b ≠ 0xFB := by
  rcases h with ⟨hv, rfl⟩ | ⟨marker, w, hw, -, rfl⟩
  · exact ⟨_, _, rfl, toUInt8_ne_of_le_250 hv (by decide)⟩
  · refine ⟨_, _, rfl, ?_⟩
    rcases hw with ⟨rfl, -⟩ | ⟨rfl, -⟩ | ⟨rfl, -⟩ <;> decide

/-- **The reader reads back what the writer wrote**, in front of any suffix. -/
theorem getUintLenenc_putUintLenenc (v : UInt64) (rest : List UInt8) :
    getUintLenenc (putUintLenenc v ++ rest) = some (v, rest) :=
  getUintLenenc_of_isLenenc (isLenenc_putUintLenenc v) rest

/-- The writer's length: one byte up to 250, then three, four or nine. -/
theorem length_putUintLenenc (v : UInt64) : (putUintLenenc v).length =
    if v ≤ 250 then 1 else if v ≤ 0xFFFF then 3 else if v ≤ 0xFFFFFF then 4 else 9 := by
  by_cases h₀ : v ≤ 250
  · rw [putUintLenenc_of_le_250 h₀, if_pos h₀, List.length_singleton]
  by_cases h₁ : v ≤ 0xFFFF
  · rw [putUintLenenc_of_le_0xFFFF h₀ h₁, if_neg h₀, if_pos h₁, List.length_cons, length_leBytes]
  by_cases h₂ : v ≤ 0xFFFFFF
  · rw [putUintLenenc_of_le_0xFFFFFF h₁ h₂, if_neg h₀, if_neg h₁, if_pos h₂, List.length_cons, length_leBytes]
  · rw [putUintLenenc_of_gt_0xFFFFFF h₂, if_neg h₀, if_neg h₁, if_neg h₂, List.length_cons, length_leBytes]

/-- The writer's first byte: the value itself up to 250, then the marker. -/
theorem head_putUintLenenc (v : UInt64) : (putUintLenenc v).head? =
    some (if v ≤ 250 then v.toUInt8 else if v ≤ 0xFFFF then 0xFC else if v ≤ 0xFFFFFF then 0xFD else 0xFE) := by
  by_cases h₀ : v ≤ 250
  · rw [putUintLenenc_of_le_250 h₀, if_pos h₀]
    rfl
  by_cases h₁ : v ≤ 0xFFFF
  · rw [putUintLenenc_of_le_0xFFFF h₀ h₁, if_neg h₀, if_pos h₁]
    rfl
  by_cases h₂ : v ≤ 0xFFFFFF
  · rw [putUintLenenc_of_le_0xFFFFFF h₁ h₂, if_neg h₀, if_neg h₁, if_pos h₂]
    rfl
  · rw [putUintLenenc_of_gt_0xFFFFFF h₂, if_neg h₀, if_neg h₁, if_neg h₂]
    rfl

/-- The writer's first byte is never a reserved one. -/
theorem head_putUintLenenc_not_reserved (v : UInt64) :
    (putUintLenenc v).head? ≠ some 0xFB ∧ (putUintLenenc v).head? ≠ some 0xFF := by
  rw [head_putUintLenenc]
  by_cases h₀ : v ≤ 250
  · rw [if_pos h₀]
    exact ⟨fun h => toUInt8_ne_of_le_250 h₀ (by decide) (Option.some.inj h),
      fun h => toUInt8_ne_of_le_250 h₀ (by decide) (Option.some.inj h)⟩
  · rw [if_neg h₀]
    split_ifs <;> decide

/-- **The writer's form is the shortest**: an encoding of `v` that the reader
takes whole and that starts with neither reserved byte is at least as long. -/
theorem length_putUintLenenc_le {v : UInt64} {e : List UInt8} (he : getUintLenenc e = some (v, []))
    (hfb : e.head? ≠ some 0xFB) (hff : e.head? ≠ some 0xFF) : (putUintLenenc v).length ≤ e.length := by
  have hv : v.toNat < 2 ^ 64 := v.toNat_lt
  cases e with
  | nil => cases he
  | cons b r =>
    -- a marker bounds the value by its width, which the writer then does not exceed
    have hmarker : ∀ {w : Nat}, (readLe w r).map (fun p => (p.1.toUInt64, p.2)) = some (v, []) →
        v.toNat < 256 ^ w ∧ r.length = w := by
      intro w h
      obtain ⟨⟨x, rest⟩, hread, hx⟩ := Option.map_eq_some_iff.mp h
      simp only [Prod.mk.injEq] at hx
      obtain ⟨rfl, rfl⟩ := hx
      obtain ⟨hlen, hlt⟩ := length_of_readLe hread
      have hx64 : x.toUInt64.toNat = x % 2 ^ 64 := by rw [Nat.toUInt64_eq, UInt64.toNat_ofNat']
      refine ⟨?_, by simpa using hlen⟩
      rw [hx64]
      exact lt_of_le_of_lt (Nat.mod_le _ _) hlt
    rw [getUintLenenc] at he
    rw [length_putUintLenenc, List.length_cons]
    by_cases hfc : b = 0xFC
    · rw [if_pos hfc] at he
      obtain ⟨hlt, hlen⟩ := hmarker he
      have h₁ : v ≤ 0xFFFF := by change v.toNat ≤ 0xFFFF; omega
      split_ifs <;> omega
    by_cases hfd : b = 0xFD
    · rw [if_neg hfc, if_pos hfd] at he
      obtain ⟨hlt, hlen⟩ := hmarker he
      have h₂ : v ≤ 0xFFFFFF := by change v.toNat ≤ 0xFFFFFF; omega
      split_ifs <;> omega
    by_cases hfe : b = 0xFE
    · rw [if_neg hfc, if_neg hfd, if_pos hfe] at he
      obtain ⟨-, hlen⟩ := hmarker he
      split_ifs <;> omega
    · -- any other byte is its own value, below the first marker
      rw [if_neg hfc, if_neg hfd, if_neg hfe] at he
      simp only [Option.some.injEq, Prod.mk.injEq] at he
      obtain ⟨rfl, -⟩ := he
      have hb : b.toNat < 251 := by
        have hfb' : b ≠ 0xFB := fun h => hfb (by rw [h]; rfl)
        have hff' : b ≠ 0xFF := fun h => hff (by rw [h]; rfl)
        have hlt := b.toNat_lt
        have hne : ∀ m : UInt8, b ≠ m → b.toNat ≠ m.toNat := fun m h h' => h (UInt8.toNat_inj.mp h')
        have := hne _ hfc; have := hne _ hfd; have := hne _ hfe; have := hne _ hfb'; have := hne _ hff'
        simp only [UInt8.reduceToNat] at *
        omega
      have h₀ : b.toUInt64 ≤ 250 := by
        change b.toUInt64.toNat ≤ 250
        rw [UInt8.toNat_toUInt64]
        omega
      rw [if_pos h₀]
      omega

/-- A string's length read back, then its bytes. -/
theorem getBytesLenenc_putBytesLenenc {b : List UInt8} (h : b.length < 2 ^ 64) (rest : List UInt8) :
    getBytesLenenc (putBytesLenenc b ++ rest) = some (b, rest) := by
  have hlen : b.length.toUInt64.toNat = b.length := by
    rw [Nat.toUInt64_eq, UInt64.toNat_ofNat', Nat.mod_eq_of_lt h]
  rw [getBytesLenenc, putBytesLenenc, List.append_assoc, getUintLenenc_putUintLenenc]
  show readN b.length.toUInt64.toNat (b ++ rest) = some (b, rest)
  rw [hlen]
  exact readN_append rfl rest

/-- **Length-encoded integers and strings read back**, the integers in the
shortest form that avoids the reserved first bytes. -/
theorem lenenc_round_trip :
    (∀ (v : UInt64) (rest : List UInt8), getUintLenenc (putUintLenenc v ++ rest) = some (v, rest)) ∧
    (∀ v : UInt64,
      (putUintLenenc v).head? =
          some (if v ≤ 250 then v.toUInt8 else if v ≤ 0xFFFF then 0xFC else if v ≤ 0xFFFFFF then 0xFD else 0xFE) ∧
        (putUintLenenc v).length = (if v ≤ 250 then 1 else if v ≤ 0xFFFF then 3 else if v ≤ 0xFFFFFF then 4 else 9) ∧
        (putUintLenenc v).head? ≠ some 0xFB ∧ (putUintLenenc v).head? ≠ some 0xFF ∧
        ∀ e, getUintLenenc e = some (v, []) → e.head? ≠ some 0xFB → e.head? ≠ some 0xFF →
          (putUintLenenc v).length ≤ e.length) ∧
    (∀ b rest : List UInt8, b.length < 2 ^ 64 → getBytesLenenc (putBytesLenenc b ++ rest) = some (b, rest)) :=
  ⟨getUintLenenc_putUintLenenc,
    fun v => ⟨head_putUintLenenc v, length_putUintLenenc v, (head_putUintLenenc_not_reserved v).1,
      (head_putUintLenenc_not_reserved v).2, fun _ he hfb hff => length_putUintLenenc_le he hfb hff⟩,
    fun _ rest h => getBytesLenenc_putBytesLenenc h rest⟩

end Sqlx.MySql
