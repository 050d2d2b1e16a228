import Sqlx.Postgres.BigDecimal

/-!
# Postgres — the `BigDecimal` round trip

The encoder's regrouping read as arithmetic. The groups `firstGroup ++
restGroups` are naturals (`natGroups`); read as base-10000 digits from
`weightOf weight10` they are the decimal digits shifted by their point
(`weighted_natGroups`, one case per branch of the source: the point on a
group boundary, a short first group, fewer digits than the first group
holds). Popping trailing zeros keeps that value, every group is a valid digit,
and a nonzero number's first group is nonzero.

The decoder rescales by `10 ^ (4 * (len - weight - 1))`, which undoes the
encoder's reading (`tryFromPgNumeric_value`); with the byte round trip of
`PgNumeric` this gives the round trip of what `encode_by_ref` writes.
-/

namespace Sqlx.Postgres

open Wire Radix

/-! ## What `to_radix_be` returns -/

theorem toRadixBe_lt (n : Int) : ∀ x ∈ (toRadixBe n 10).2, x < 10 := by
  intro x hx
  by_cases hn : n = 0
  · simp only [toRadixBe, hn, if_true, List.mem_singleton] at hx
    omega
  · simp only [toRadixBe, hn, if_false, List.mem_reverse] at hx
    exact Nat.digits_lt_base (by norm_num) hx

theorem ofDigitsBe_toRadixBe (n : Int) : ofDigitsBe 10 (toRadixBe n 10).2 = n.natAbs := by
  by_cases hn : n = 0
  · simp [toRadixBe, hn]
  · simp only [toRadixBe, hn, if_false]
    exact ofDigitsBe_digits_reverse 10 n.natAbs

/-- Zero's digits are `[0]`; any other integer's start with a nonzero digit. -/
theorem toRadixBe_shape (n : Int) :
    (toRadixBe n 10).2 = [0] ∨ ∃ d l, (toRadixBe n 10).2 = d :: l ∧ 0 < d := by
  by_cases hn : n = 0
  · exact .inl (by simp [toRadixBe, hn])
  · right
    have hne : n.natAbs ≠ 0 := Int.natAbs_ne_zero.mpr hn
    have hL : Nat.digits 10 n.natAbs ≠ [] := Nat.digits_ne_nil_iff_ne_zero.mpr hne
    -- reversed, the most significant digit (Mathlib's last) comes first
    have hrev : (Nat.digits 10 n.natAbs).reverse =
        (Nat.digits 10 n.natAbs).getLast hL :: (Nat.digits 10 n.natAbs).dropLast.reverse := by
      conv_lhs => rw [← List.dropLast_append_getLast hL]
      simp
    refine ⟨(Nat.digits 10 n.natAbs).getLast hL, (Nat.digits 10 n.natAbs).dropLast.reverse, ?_,
      Nat.pos_of_ne_zero (Nat.getLast_digit_ne_zero 10 hne)⟩
    simp only [toRadixBe, hn, if_false]
    exact hrev

/-- The sign and the magnitude put back together. -/
theorem factor_signToPg (n : Int) :
    (signToPg (toRadixBe n 10).1).factor * (n.natAbs : ℚ) = n := by
  rcases lt_trichotomy n 0 with hn | hn | hn
  · have habs : (n.natAbs : ℚ) = -(n : ℚ) := by
      rw [Nat.cast_natAbs, Int.cast_abs, abs_of_neg (Int.cast_lt_zero.mpr hn)]
    simp [toRadixBe, hn, signToPg, PgNumericSign.factor, habs]
  · simp [hn]
  · have habs : (n.natAbs : ℚ) = (n : ℚ) := by
      rw [Nat.cast_natAbs, Int.cast_abs, abs_of_pos (Int.cast_pos.mpr hn)]
    simp [toRadixBe, not_lt.mpr hn.le, hn.ne', signToPg, PgNumericSign.factor, habs]

/-! ## The groups as naturals -/

theorem base10To10000_eq (c : List Nat) : base10To10000 c = ofDigitsBe 10 c := by
  have hfold : ∀ acc : Nat, c.foldl (fun a d => a * 10 + (d : Int)) (acc : Int) =
      ((c.foldl (fun a d => a * 10 + d) acc : Nat) : Int) := by
    induction c with
    | nil => intro acc; rfl
    | cons d c ih =>
      intro acc
      simp only [List.foldl_cons]
      rw [← ih]
      push_cast
      rfl
  exact hfold 0

/-- The groups `firstGroup ++ restGroups` computes, over ℕ. -/
def natGroups (base10 : List Nat) (offset : Nat) : List Nat :=
  if offset ≤ base10.length then
    (if offset = 0 then [] else [ofDigitsBe 10 (base10.take offset)]) ++
      (chunks 4 (base10.drop offset)).map (padDigit 10 4)
  else [ofDigitsBe 10 base10 * 10 ^ (offset - base10.length)]

theorem groups_eq_natGroups (base10 : List Nat) (offset : Nat) :
    firstGroup base10 offset ++ restGroups base10 offset =
      (natGroups base10 offset).map (↑) := by
  unfold firstGroup restGroups natGroups
  by_cases hle : offset ≤ base10.length
  · by_cases h0 : offset = 0
    · simp [h0, padDigit, base10To10000_eq]
    · have hne : (base10.take offset).isEmpty = false := by
        simp only [List.isEmpty_eq_false_iff, ne_eq, List.take_eq_nil_iff, not_or]
        exact ⟨h0, by rintro rfl; simp at hle; omega⟩
      simp [hle, h0, hne, padDigit, base10To10000_eq]
  · have h0 : offset ≠ 0 := by omega
    simp [hle, h0, base10To10000_eq]

/-- Every group is a run of the decimal digits, shifted by at most the room
left in four places. -/
theorem mem_natGroups {base10 : List Nat} {offset g : Nat} (ho : offset < 4)
    (hg : g ∈ natGroups base10 offset) :
    ∃ c k, (∀ x ∈ c, x ∈ base10) ∧ c.length + k ≤ 4 ∧ g = ofDigitsBe 10 c * 10 ^ k := by
  unfold natGroups at hg
  by_cases hle : offset ≤ base10.length
  · simp only [hle, if_true, List.mem_append, List.mem_map] at hg
    rcases hg with hfirst | ⟨c, hc, rfl⟩
    · -- the short first group
      have hfirst' : g = ofDigitsBe 10 (base10.take offset) := by
        split at hfirst
        · simp at hfirst
        · simpa using hfirst
      refine ⟨base10.take offset, 0, fun x hx => List.mem_of_mem_take hx, ?_, by simp [hfirst']⟩
      simp only [List.length_take]
      omega
    · -- a group of four, padded
      have hlen := (length_of_mem_chunks 4 _ c hc).2
      refine ⟨c, 4 - c.length, fun x hx => ?_, by omega, rfl⟩
      exact List.mem_of_mem_drop (mem_of_mem_chunks (by norm_num) hc hx)
  · -- all the digits, shifted up to the offset
    simp only [hle, if_false, List.mem_singleton] at hg
    exact ⟨base10, offset - base10.length, fun x hx => hx, by omega, hg⟩

/-- Groups of decimal digits are base-10000 digits. -/
theorem natGroups_lt {base10 : List Nat} {offset : Nat} (ho : offset < 4)
    (hlt : ∀ x ∈ base10, x < 10) : ∀ g ∈ natGroups base10 offset, g < 10000 := by
  intro g hg
  obtain ⟨c, k, hc, hroom, rfl⟩ := mem_natGroups ho hg
  calc ofDigitsBe 10 c * 10 ^ k < 10 ^ c.length * 10 ^ k :=
        Nat.mul_lt_mul_of_pos_right (ofDigitsBe_lt fun x hx => hlt x (hc x hx))
          (Nat.pow_pos (by norm_num))
    _ = 10 ^ (c.length + k) := (Nat.pow_add 10 c.length k).symm
    _ ≤ 10 ^ 4 := Nat.pow_le_pow_right (by norm_num) hroom
    _ = 10000 := by norm_num

/-- Zero digits make zero groups. -/
theorem natGroups_eq_zero {base10 : List Nat} {offset : Nat} (ho : offset < 4)
    (hzero : ∀ x ∈ base10, x = 0) : ∀ g ∈ natGroups base10 offset, g = 0 := by
  intro g hg
  obtain ⟨c, k, hc, -, rfl⟩ := mem_natGroups ho hg
  rw [ofDigitsBe_eq_zero fun x hx => hzero x (hc x hx), Nat.zero_mul]

/-- A leading nonzero digit makes a leading nonzero group. -/
theorem natGroups_head_pos {d : Nat} (hd : 0 < d) (l : List Nat) (offset : Nat) :
    ∃ g gs, natGroups (d :: l) offset = g :: gs ∧ 0 < g := by
  unfold natGroups
  by_cases hle : offset ≤ (d :: l).length
  · by_cases h0 : offset = 0
    · -- the first group of four starts with `d`
      rw [if_pos hle, if_pos h0, h0, List.drop_zero,
        chunks_of_ne_nil (by norm_num) (List.cons_ne_nil d l)]
      refine ⟨_, _, rfl, ?_⟩
      have hpos : 0 < ofDigitsBe 10 (d :: l.take 3) := ofDigitsBe_pos (by norm_num) hd _
      exact Nat.mul_pos hpos (Nat.pow_pos (by norm_num))
    · -- the short first group starts with `d`
      obtain ⟨k, rfl⟩ : ∃ k, offset = k + 1 := ⟨offset - 1, by omega⟩
      rw [if_pos hle, if_neg h0, List.take_succ_cons]
      exact ⟨_, _, rfl, ofDigitsBe_pos (by norm_num) hd _⟩
  · rw [if_neg hle]
    exact ⟨_, [], rfl, Nat.mul_pos (ofDigitsBe_pos (by norm_num) hd _) (Nat.pow_pos (by norm_num))⟩

/-! ## The value of the groups -/

/-- `weightOf` is the group of the first digit: the point sits `4 * weight + 4`
digits in when it falls on a group boundary, -/
theorem weightOf_of_emod_eq_zero {w : Int} (h : w % 4 = 0) : 4 * weightOf w + 4 = w := by
  unfold weightOf
  split <;> simp only [Int.tdiv_eq_ediv] <;> omega

/-- and `4 * weight + offset` digits in otherwise. -/
theorem weightOf_of_emod_ne_zero {w : Int} (h : w % 4 ≠ 0) : 4 * weightOf w + w % 4 = w := by
  have h4 : Int.sign 4 = 1 := rfl
  unfold weightOf
  split <;> simp only [Int.tdiv_eq_ediv, h4] <;> omega

/-- A natural shifted by `10 ^ E` and scaled by `10000 ^ k` is shifted by
`10 ^ (E + 4 * k)`. -/
theorem shift_tenThousand (N E : Nat) (k e : Int) (h : (E : Int) + 4 * k = e) :
    ((N * 10 ^ E : Nat) : ℚ) * (10000 : ℚ) ^ k = N * (10 : ℚ) ^ e := by
  rw [Nat.cast_mul, Nat.cast_pow, Nat.cast_ofNat, show (10000 : ℚ) = 10 ^ 4 by norm_num]
  exact natCast_shift_zpow (by norm_num) N E 4 k e (by push_cast; exact h)

theorem weighted_tenThousand (w : Int) (G : List Nat) :
    weighted 10000 w (G.map (↑)) = (ofDigitsBe 10000 G : ℚ) * (10000 : ℚ) ^ (w + 1 - G.length) := by
  simpa using weighted_natCast (by norm_num : (10000 : Nat) ≠ 0) w G

theorem ofDigitsBe_padChunks (l : List Nat) :
    ofDigitsBe 10000 ((chunks 4 l).map (padDigit 10 4)) =
      ofDigitsBe 10 l * 10 ^ (4 * (chunks 4 l).length - l.length) :=
  ofDigitsBe_chunks 10 (show 0 < 4 by norm_num) l

/-- A short first group of `offset` digits, then groups of four. -/
theorem ofDigitsBe_firstGroup_chunks (l : List Nat) (offset : Nat) :
    ofDigitsBe 10000 (ofDigitsBe 10 (l.take offset) :: (chunks 4 (l.drop offset)).map (padDigit 10 4)) =
      ofDigitsBe 10 l * 10 ^ (4 * (chunks 4 (l.drop offset)).length - (l.length - offset)) := by
  have hroom := length_le_mul_length_chunks (by norm_num : 0 < 4) (l.drop offset)
  have hsplit : ofDigitsBe 10 l =
      ofDigitsBe 10 (l.take offset) * 10 ^ (l.drop offset).length + ofDigitsBe 10 (l.drop offset) := by
    rw [← ofDigitsBe_append, List.take_append_drop]
  rw [List.length_drop] at hroom hsplit
  rw [ofDigitsBe_cons, List.length_map, ofDigitsBe_padChunks, List.length_drop, hsplit]
  generalize (chunks 4 (l.drop offset)).length = m at hroom ⊢
  have hpow : (10000 : Nat) ^ m = 10 ^ (l.length - offset) * 10 ^ (4 * m - (l.length - offset)) := by
    rw [← Nat.pow_add, Nat.add_sub_cancel' hroom, Nat.pow_mul]
  rw [hpow]
  ring

/-- **The groups have the value of the digits.** Read from `weightOf weight10`,
the groups are the decimal digits with `weight10` of them before the point;
one case per branch of the encoder. -/
theorem weighted_natGroups (base10 : List Nat) (weight10 : Int) :
    weighted 10000 (weightOf weight10) ((natGroups base10 (weight10 % 4).toNat).map (↑)) =
      ofDigitsBe 10 base10 * (10 : ℚ) ^ (weight10 - base10.length) := by
  have hmod : ((weight10 % 4).toNat : Int) = weight10 % 4 :=
    Int.toNat_of_nonneg (Int.emod_nonneg _ (by decide))
  generalize (weight10 % 4).toNat = offset at hmod
  rw [weighted_tenThousand]
  unfold natGroups
  by_cases hle : offset ≤ base10.length
  · by_cases h0 : offset = 0
    · -- the point on a group boundary: groups of four only
      have hw := weightOf_of_emod_eq_zero (show weight10 % 4 = 0 by omega)
      have hroom := length_le_mul_length_chunks (by norm_num : 0 < 4) base10
      rw [if_pos hle, if_pos h0, h0, List.nil_append, List.drop_zero, ofDigitsBe_padChunks,
        List.length_map]
      exact shift_tenThousand _ _ _ _ (by omega)
    · -- a short first group, then groups of four
      have hw := weightOf_of_emod_ne_zero (show weight10 % 4 ≠ 0 by omega)
      have hroom := length_le_mul_length_chunks (by norm_num : 0 < 4) (base10.drop offset)
      rw [List.length_drop] at hroom
      rw [if_pos hle, if_neg h0, List.singleton_append, ofDigitsBe_firstGroup_chunks base10 offset,
        List.length_cons, List.length_map]
      exact shift_tenThousand _ _ _ _ (by omega)
  · -- fewer digits than the first group holds
    have hw := weightOf_of_emod_ne_zero (show weight10 % 4 ≠ 0 by omega)
    rw [if_neg hle, ofDigitsBe_cons, List.length_nil, Nat.pow_zero, Nat.mul_one, ofDigitsBe_nil,
      Nat.add_zero, List.length_singleton]
    exact shift_tenThousand _ _ _ _ (by omega)

theorem base10000Digits_eq (base10 : List Nat) (weight10 : Int) :
    base10000Digits base10 weight10 =
      ((natGroups base10 (weight10 % 4).toNat).map (↑)).rdropWhile (· == 0) := by
  rw [base10000Digits, groups_eq_natGroups]

/-- Popping the trailing zero groups keeps the value. -/
theorem weighted_base10000Digits (base10 : List Nat) (weight10 : Int) :
    weighted 10000 (weightOf weight10) (base10000Digits base10 weight10) =
      ofDigitsBe 10 base10 * (10 : ℚ) ^ (weight10 - base10.length) := by
  rw [base10000Digits_eq, weighted_rdropWhile_zero, weighted_natGroups]

/-! ## The digits are canonical -/

theorem offset_lt_four (weight10 : Int) : (weight10 % 4).toNat < 4 := by
  omega

theorem base10000Digits_valid {base10 : List Nat} (hlt : ∀ x ∈ base10, x < 10)
    (weight10 : Int) : ∀ x ∈ base10000Digits base10 weight10, 0 ≤ x ∧ x ≤ 9999 := by
  intro x hx
  rw [base10000Digits_eq] at hx
  obtain ⟨g, hg, rfl⟩ := List.mem_map.mp (mem_of_mem_rdropWhile hx)
  have := natGroups_lt (offset_lt_four weight10) hlt g hg
  omega

theorem getLast?_base10000Digits (base10 : List Nat) (weight10 : Int) :
    (base10000Digits base10 weight10).getLast? ≠ some 0 := by
  intro h
  have := getLast?_rdropWhile h
  simp at this

/-- The first digit of a number's digits is nonzero: zero has no digits left. -/
theorem head?_base10000Digits (n : Int) (weight10 : Int) :
    (base10000Digits (toRadixBe n 10).2 weight10).head? ≠ some 0 := by
  rw [base10000Digits_eq]
  rcases toRadixBe_shape n with hzero | ⟨d, l, hdl, hd⟩
  · -- zero: every group is zero and all of them are popped
    have hnil : (((natGroups (toRadixBe n 10).2 (weight10 % 4).toNat).map Nat.cast :
        List Int).rdropWhile (· == 0)) = [] := by
      rw [List.rdropWhile_eq_nil_iff]
      intro x hx
      obtain ⟨g, hg, rfl⟩ := List.mem_map.mp hx
      have := natGroups_eq_zero (offset_lt_four weight10) (by simp [hzero]) g hg
      simp [this]
    simp [hnil]
  · obtain ⟨g, gs, hgs, hg⟩ := natGroups_head_pos hd l (weight10 % 4).toNat
    rw [hdl, hgs, List.map_cons,
      head?_rdropWhile (List.head?_cons) (by simp; omega)]
    simp
    omega

/-! ## The conversion from `BigDecimal` -/

/-- **Spec of `TryFrom<&BigDecimal> for PgNumeric`.** It succeeds only with
scale and weight in `i16`, and then builds the number from the digit groups. -/
theorem tryFromBigDecimal_eq_ok {d : BigDecimal} {n : PgNumeric}
    (h : PgNumeric.tryFromBigDecimal d = .ok n) :
    IsI16 (max 0 d.scale) ∧ IsI16 (weightOf ((toRadixBe d.intVal 10).2.length - d.scale)) ∧
      n = .number (signToPg (toRadixBe d.intVal 10).1)
        (base10000Digits (toRadixBe d.intVal 10).2 ((toRadixBe d.intVal 10).2.length - d.scale))
        (weightOf ((toRadixBe d.intVal 10).2.length - d.scale)) (max 0 d.scale) := by
  unfold PgNumeric.tryFromBigDecimal BigDecimal.asBigintAndExponent at h
  -- the pattern matches on the pairs become projections
  simp only at h
  by_cases hlen : (toRadixBe d.intVal 10).2.length < 2 ^ 63
  · rw [if_pos hlen] at h
    by_cases hscale : IsI16 (max 0 d.scale)
    · by_cases hweight : IsI16 (weightOf ((toRadixBe d.intVal 10).2.length - d.scale))
      · simp only [i16TryFrom, hscale, hweight, if_true, except_pure, except_ok_bind,
          Except.ok.injEq] at h
        exact ⟨hscale, hweight, h.symm⟩
      · simp [i16TryFrom, hscale, hweight] at h
    · simp [i16TryFrom, hscale] at h
  · rw [if_neg hlen] at h
    cases h

/-- The number built has the value of the `BigDecimal`. -/
theorem value_base10000Digits (d : BigDecimal) :
    (signToPg (toRadixBe d.intVal 10).1).factor *
        weighted 10000 (weightOf ((toRadixBe d.intVal 10).2.length - d.scale))
          (base10000Digits (toRadixBe d.intVal 10).2 ((toRadixBe d.intVal 10).2.length - d.scale)) =
      d.value := by
  rw [weighted_base10000Digits, ofDigitsBe_toRadixBe, ← mul_assoc, factor_signToPg,
    BigDecimal.value]
  congr 2
  ring

/-! ## The conversion back -/

theorem centsOf_eq (i : Nat) {digits : List Int}
    (h : ∀ x ∈ digits, PgNumeric.isValidDigit x = true) :
    centsOf i digits = .ok ((digits.map Int.toNat).flatMap fun d => [d / 100, d % 100]) := by
  induction digits generalizing i with
  | nil => rfl
  | cons x xs ih =>
    have hx := h x (by simp)
    have hx0 : 0 ≤ x := by
      simp only [PgNumeric.isValidDigit, Bool.and_eq_true, decide_eq_true_eq] at hx
      exact hx.1
    rw [centsOf, if_pos hx, ih (i + 1) fun y hy => h y (by simp [hy])]
    have hdiv : (x / 100).toNat = x.toNat / 100 := by omega
    have hmod : (x % 100).toNat = x.toNat % 100 := by omega
    simp only [Except.map, List.map_cons, List.flatMap_cons, List.cons_append, List.nil_append,
      hdiv, hmod]

/-- **Spec of `TryFrom<&PgNumeric> for BigDecimal`.** On valid digits it
succeeds with the value the digits stand for. -/
theorem tryFromPgNumeric_value (sign : PgNumericSign) {digits : List Int} (weight scale : Int)
    (h : ∀ x ∈ digits, PgNumeric.isValidDigit x = true) :
    ∃ d', BigDecimal.tryFromPgNumeric (.number sign digits weight scale) = .ok d' ∧
      d'.value = sign.factor * weighted 10000 weight digits := by
  by_cases hnil : digits = []
  · subst hnil
    exact ⟨⟨0, 0⟩, rfl, by simp [BigDecimal.value]⟩
  · have hnonneg : ∀ x ∈ digits, 0 ≤ x ∧ x < 10000 := fun x hx => by
      have := h x hx
      simp only [PgNumeric.isValidDigit, Bool.and_eq_true, decide_eq_true_eq] at this
      exact this
    -- the digits are naturals, and their base-100 halves are below 100
    have hdigits : (digits.map Int.toNat).map (↑) = digits := by
      rw [List.map_map]
      conv_rhs => rw [← List.map_id digits]
      exact List.map_congr_left fun x hx => by simp [(hnonneg x hx).1]
    have hcents : ((digits.map Int.toNat).flatMap fun d => [d / 100, d % 100]).all (· < 100) := by
      simp only [List.all_eq_true, List.mem_flatMap, List.mem_map, decide_eq_true_eq]
      rintro c ⟨_, ⟨x, hx, rfl⟩, hc⟩
      have := hnonneg x hx
      simp only [List.mem_cons, List.not_mem_nil, or_false] at hc
      omega
    have hvalue : ofDigitsBe 100 ((digits.map Int.toNat).flatMap fun d => [d / 100, d % 100]) =
        ofDigitsBe 10000 (digits.map Int.toNat) := ofDigitsBe_flatMap_divMod 100 _
    -- the digits read with their weight are the magnitude over the decoder's scale
    have hweighted : weighted 10000 weight digits =
        (ofDigitsBe 10000 (digits.map Int.toNat) : ℚ) *
          (10 : ℚ) ^ (-(((digits.length : Int) - weight - 1) * 4)) := by
      have h10 : (10000 : ℚ) = 10 ^ (4 : Int) := by norm_num
      conv_lhs => rw [← hdigits, weighted_tenThousand, h10, ← zpow_mul, List.length_map]
      congr 2
      ring
    have hne : digits.isEmpty = false := List.isEmpty_eq_false_iff.mpr hnil
    -- the sign chooses the decoder's `Sign`; the run is the cents loop, then `from_radix_be`
    cases sign with
    | positive =>
      refine ⟨BigDecimal.new (Sign.plus.apply (ofDigitsBe 10000 (digits.map Int.toNat)))
        (((digits.length : Int) - weight - 1) * 4), ?_, ?_⟩
      · simp only [BigDecimal.tryFromPgNumeric, hne, Bool.false_eq_true, if_false, centsOf_eq 0 h,
          except_ok_bind, fromRadixBe, hcents, if_true, hvalue]
      · simp [BigDecimal.value, BigDecimal.new, Sign.apply, PgNumericSign.factor, hweighted]
    | negative =>
      refine ⟨BigDecimal.new (Sign.minus.apply (ofDigitsBe 10000 (digits.map Int.toNat)))
        (((digits.length : Int) - weight - 1) * 4), ?_, ?_⟩
      · simp only [BigDecimal.tryFromPgNumeric, hne, Bool.false_eq_true, if_false, centsOf_eq 0 h,
          except_ok_bind, fromRadixBe, hcents, if_true, hvalue]
      · simp [BigDecimal.value, BigDecimal.new, Sign.apply, PgNumericSign.factor, hweighted]

/-! ## The round trip -/

/-- The weighted digits as the sum the wire formats document. -/
theorem weighted_eq_sum (base : ℚ) (weight : Int) (ds : List Int) :
    weighted base weight ds = ∑ i : Fin ds.length, (ds[i] : ℚ) * base ^ (weight - i) := by
  induction ds generalizing weight with
  | nil => simp
  | cons d ds ih =>
    simp only [weighted_cons, ih, List.length_cons, Fin.sum_univ_succ, Fin.getElem_fin,
      Fin.val_zero, List.getElem_cons_zero, Nat.cast_zero, sub_zero, Fin.val_succ,
      List.getElem_cons_succ]
    congr 1
    refine Finset.sum_congr rfl fun i _ => ?_
    push_cast
    ring_nf


/-- **Binary round trip of `BigDecimal`.** Whenever `encode_by_ref` succeeds,
the binary decoder reads the bytes it wrote as a `BigDecimal` equal to the
one encoded. The `PgNumeric` in between is canonical: its digits are valid
base-10000 digits, the first and the last nonzero, and with its sign and
weight they are the number exactly. -/
theorem BigDecimal.encodeByRef_round_trip (d : BigDecimal) (r : IsNull × Written)
    (h : d.encodeByRef.output = .ok r) :
    (∃ d', BigDecimal.decode r.2.bytes = some (.ok d') ∧ d'.value = d.value) ∧
    ∃ sign digits weight scale,
      PgNumeric.tryFromBigDecimal d = .ok (.number sign digits weight scale) ∧
      (∀ x ∈ digits, 0 ≤ x ∧ x ≤ 9999) ∧ digits.getLast? ≠ some 0 ∧ digits.head? ≠ some 0 ∧
      sign.factor * ∑ i : Fin digits.length, (digits[i] : ℚ) * 10000 ^ (weight - i) = d.value := by
  cases hn : PgNumeric.tryFromBigDecimal d with
  | error e =>
    rw [BigDecimal.encodeByRef, hn] at h
    cases h
  | ok n =>
    have hout : (n.encode (.done .no)).output = .ok r := by
      rw [BigDecimal.encodeByRef, hn] at h
      exact h
    obtain ⟨hscale, hweight, hnum⟩ := tryFromBigDecimal_eq_ok hn
    have henc := PgNumeric.encodable_of_encode_output hout
    -- what was written is the number's bytes, and they decode as the number
    have hbytes : r.2.bytes = n.bytes := by
      rw [PgNumeric.encode_done_output henc] at hout
      cases hout
      rfl
    have hdecode : PgNumeric.decode r.2.bytes = some (.ok n) := by
      have hfits : n.Fits := by
        rw [hnum] at henc ⊢
        exact ⟨henc, hweight, hscale⟩
      rw [hbytes, ← List.append_nil n.bytes, PgNumeric.decode_bytes hfits []]
    subst hnum
    obtain ⟨-, hvalid⟩ := henc
    obtain ⟨d', hd', hvalue⟩ := tryFromPgNumeric_value (signToPg (toRadixBe d.intVal 10).1)
      (weightOf ((toRadixBe d.intVal 10).2.length - d.scale)) (max 0 d.scale) hvalid
    refine ⟨⟨d', ?_, ?_⟩, _, _, _, _, rfl, base10000Digits_valid (toRadixBe_lt _) _,
      getLast?_base10000Digits _ _, head?_base10000Digits _ _, ?_⟩
    · rw [BigDecimal.decode, hdecode, Option.map_some]
      exact congrArg some hd'
    · rw [hvalue, value_base10000Digits]
    · rw [← weighted_eq_sum, value_base10000Digits]

/-- `0.00001234` of the source's `issue_423` tests: scale 8, weight -2, one digit. -/
theorem BigDecimal.encodeByRef_round_trip_issue_423 :
    (BigDecimal.encodeByRef ⟨1234, 8⟩).output =
        .ok (.no, ⟨[0, 1, 255, 254, 0, 0, 0, 8, 4, 210], [], []⟩) ∧
      ((∃ d', BigDecimal.decode [0, 1, 255, 254, 0, 0, 0, 8, 4, 210] = some (.ok d') ∧
          d'.value = BigDecimal.value ⟨1234, 8⟩) ∧
        ∃ sign digits weight scale,
          PgNumeric.tryFromBigDecimal ⟨1234, 8⟩ = .ok (.number sign digits weight scale) ∧
          (∀ x ∈ digits, 0 ≤ x ∧ x ≤ 9999) ∧ digits.getLast? ≠ some 0 ∧ digits.head? ≠ some 0 ∧
          sign.factor * ∑ i : Fin digits.length, (digits[i] : ℚ) * 10000 ^ (weight - i) =
            BigDecimal.value ⟨1234, 8⟩) := by
  have hout : (BigDecimal.encodeByRef ⟨1234, 8⟩).output =
      .ok (.no, ⟨[0, 1, 255, 254, 0, 0, 0, 8, 4, 210], [], []⟩) := by decide +kernel
  exact ⟨hout, BigDecimal.encodeByRef_round_trip _ _ hout⟩

end Sqlx.Postgres
