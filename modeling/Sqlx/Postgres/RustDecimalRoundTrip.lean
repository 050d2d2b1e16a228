import Sqlx.Postgres.RustDecimal

/-!
# Postgres — the `rust_decimal` round trip

The encoder pads the magnitude to a multiple of four decimal places
(`groupPad`), so that its base-10000 digits, read from the weight
`len - ceil(scale / 4) - 1`, are the number (`weighted_encoderDigits`).

The decoder sums `digit * 10000 ^ weight` with `rust_decimal`'s checked
operations, which are exact while every intermediate result is a `Decimal`
(`SumFits`, `sumDigits_of_sumFits`). On the encoder's digits they all are:
each part and each partial sum is a prefix of the padded magnitude, so a
multiple of the padding no larger than the magnitude, which makes it a
`Decimal` at the encoded scale (`sumFits_encoderDigits`). The sign and the
rescale then give back the `Decimal` itself.
-/

namespace Sqlx.Postgres

open Wire Radix

/-! ## Values of `Decimal`s -/

@[simp] theorem Decimal.mantissa_ofParts (m : Int) (s : Nat) (hm : m.natAbs < 2 ^ 96)
    (hs : s ≤ 28) : (Decimal.ofParts m s hm hs).mantissa = m := by
  show (if decide (m < 0) = true then -(m.natAbs : Int) else m.natAbs) = m
  split <;> rename_i h <;> simp only [decide_eq_true_eq] at h <;> omega

@[simp] theorem Decimal.scale_ofParts (m : Int) (s : Nat) (hm : m.natAbs < 2 ^ 96)
    (hs : s ≤ 28) : (Decimal.ofParts m s hm hs).scale = s := rfl

theorem Decimal.value_ofParts (m : Int) (s : Nat) (hm : m.natAbs < 2 ^ 96) (hs : s ≤ 28) :
    (Decimal.ofParts m s hm hs).value = m * 10 ^ (-(s : Int)) := by
  rw [Decimal.value, Decimal.mantissa_ofParts, Decimal.scale_ofParts]

theorem Decimal.natAbs_mantissa (d : Decimal) : d.mantissa.natAbs = d.magnitude := by
  unfold Decimal.mantissa
  split <;> simp

/-- The value and the scale fix the mantissa. -/
theorem Decimal.mantissa_eq_of_value_eq {a b : Decimal} (hv : a.value = b.value)
    (hs : a.scale = b.scale) : a.mantissa = b.mantissa := by
  have hpow : (10 : ℚ) ^ (-(b.scale : Int)) ≠ 0 := zpow_ne_zero _ (by norm_num)
  unfold Decimal.value at hv
  rw [hs] at hv
  exact_mod_cast mul_right_cancel₀ hpow hv

theorem Decimal.value_fromI16 {x : Int} (hx : IsI16 x) : (Decimal.fromI16 x).value = x := by
  rw [Decimal.fromI16, Decimal.value_ofParts,
    ofTwos_twos (by decide) (by simpa using hx.1) (by simpa using hx.2)]
  simp

@[simp] theorem Decimal.value_zero : Decimal.zero.value = 0 := by
  simp [Decimal.value, Decimal.mantissa, Decimal.zero]

theorem Decimal.value_of_isZero {d : Decimal} (h : d.isZero = true) : d.value = 0 := by
  have hm : d.magnitude = 0 := by simpa [Decimal.isZero] using h
  simp [Decimal.value, Decimal.mantissa, hm]

@[simp] theorem Decimal.value_setSignPositive (v : Decimal) :
    (v.setSignPositive true).value = v.magnitude * (10 : ℚ) ^ (-(v.scale : Int)) := by
  simp [Decimal.value, Decimal.mantissa, Decimal.setSignPositive]

@[simp] theorem Decimal.value_setSignNegative (v : Decimal) :
    (v.setSignNegative true).value = -(v.magnitude * (10 : ℚ) ^ (-(v.scale : Int))) := by
  simp [Decimal.value, Decimal.mantissa, Decimal.setSignNegative]

/-- A nonnegative `Decimal` is its magnitude: its flag is clear, or it is zero. -/
theorem Decimal.value_of_nonneg {v : Decimal} (h : 0 ≤ v.value) :
    v.value = v.magnitude * (10 : ℚ) ^ (-(v.scale : Int)) := by
  have hpos : 0 ≤ (v.magnitude : ℚ) * 10 ^ (-(v.scale : Int)) :=
    mul_nonneg (Nat.cast_nonneg _) (zpow_nonneg (by norm_num) _)
  unfold Decimal.value Decimal.mantissa at h ⊢
  cases hneg : v.negative
  · simp
  · simp only [hneg, if_true, Int.cast_neg, Int.cast_natCast, neg_mul] at h ⊢
    linarith

/-- A running sum with the value of the magnitude, given the sign that
`From<&Decimal>` wrote, is the number. -/
theorem Decimal.value_withSign {v : Decimal} (d : Decimal)
    (hv : v.value = d.magnitude * (10 : ℚ) ^ (-(d.scale : Int))) :
    (v.withSign (if d.isSignNegative then .negative else .positive)).value = d.value := by
  have hv' := Decimal.value_of_nonneg
    (hv ▸ mul_nonneg (Nat.cast_nonneg _) (zpow_nonneg (by norm_num) _))
  unfold Decimal.isSignNegative Decimal.withSign
  cases hneg : d.negative
  · rw [if_neg Bool.false_ne_true, Decimal.value_setSignPositive, ← hv', hv]
    simp [Decimal.value, Decimal.mantissa, hneg]
  · rw [if_pos rfl, Decimal.value_setSignNegative, ← hv', hv]
    simp [Decimal.value, Decimal.mantissa, hneg]

/-! ## Which numbers are `Decimal`s -/

/-- A natural below `2 ^ 96` at a scale of at most 28. -/
theorem Decimal.representable_natCast (n s : Nat) (hn : n < 2 ^ 96) (hs : s ≤ 28) :
    Decimal.Representable ((n : ℚ) * 10 ^ (-(s : Int))) :=
  ⟨.ofParts n s (by simpa using hn) hs, by rw [Decimal.value_ofParts]; simp⟩

/-- The powers the decoder asks for: `10000 ^ e` is `10 ^ (4 * e)`, an integer
below `2 ^ 96` or a one at a scale of at most 28. -/
theorem Decimal.representable_tenThousand_zpow {e : Int} (hlo : -7 ≤ e) (hhi : e ≤ 7) :
    Decimal.Representable ((10000 : ℚ) ^ e) := by
  rcases le_or_gt 0 e with hpos | hneg
  · -- `10000 ^ k` with `k ≤ 7`, at most `10 ^ 28`
    obtain ⟨k, rfl⟩ := Int.eq_ofNat_of_zero_le hpos
    have hk : 10000 ^ k < 2 ^ 96 :=
      calc 10000 ^ k ≤ 10000 ^ 7 := Nat.pow_le_pow_right (by norm_num) (by omega)
        _ < 2 ^ 96 := by norm_num
    have h := Decimal.representable_natCast (10000 ^ k) 0 hk (by norm_num)
    simpa using h
  · -- `10 ^ (-4 * k)` with `k ≤ 7`
    obtain ⟨k, hk⟩ := Int.eq_ofNat_of_zero_le (show 0 ≤ -e by omega)
    have h := Decimal.representable_natCast 1 (4 * k) (by norm_num) (by omega)
    have hpow : (10000 : ℚ) ^ e = (1 : Nat) * (10 : ℚ) ^ (-((4 * k : Nat) : Int)) := by
      have h1 := natCast_shift_zpow (b := (10 : ℚ)) (by norm_num) 1 0 4 e (-((4 * k : Nat) : Int))
        (by push_cast; omega)
      rw [← h1]
      norm_num
    rw [hpow]
    exact h

/-! ## The digit loop -/

/-- What the digit loop needs at each digit: `10000 ^ weight`, the part and the
new sum are `Decimal`s, and the weight can go down by one as an `i16`. -/
def SumFits : ℚ → Int → List Int → Prop
  | _, _, [] => True
  | value, weight, digit :: digits =>
    Decimal.Representable ((10000 : ℚ) ^ weight) ∧ Decimal.Representable (digit * 10000 ^ weight) ∧
      Decimal.Representable (value + digit * 10000 ^ weight) ∧ -32768 ≤ weight - 1 ∧
      SumFits (value + digit * 10000 ^ weight) (weight - 1) digits

/-- The loop can stop early: what fits for the digits fits for a prefix. -/
theorem SumFits.of_append {value : ℚ} {weight : Int} {ds es : List Int}
    (h : SumFits value weight (ds ++ es)) : SumFits value weight ds := by
  induction ds generalizing value weight with
  | nil => trivial
  | cons d ds ih =>
    obtain ⟨hpow, hpart, hsum, hweight, hrest⟩ := h
    exact ⟨hpow, hpart, hsum, hweight, ih hrest⟩

/-- **Spec of the digit loop.** On `i16` digits whose every intermediate
result is a `Decimal`, the loop returns a `Decimal` of the exact sum. -/
theorem sumDigits_of_sumFits (ops : DecimalOps) {digits : List Int}
    (hd : ∀ x ∈ digits, IsI16 x) :
    ∀ {value : Decimal} {weight : Int}, SumFits value.value weight digits →
      ∃ v, Decimal.sumDigits ops value weight digits = some (.ok v) ∧
        v.value = value.value + weighted 10000 weight digits := by
  have h10000 : (Decimal.fromI16 10000).value = 10000 := Decimal.value_fromI16 (by decide)
  induction digits with
  | nil =>
    intro value weight _
    exact ⟨value, rfl, by simp⟩
  | cons digit digits ih =>
    intro value weight h
    obtain ⟨hpow, hpart, hsum, hweight, hrest⟩ := h
    have hdigit : (Decimal.fromI16 digit).value = digit := Decimal.value_fromI16 (hd digit (by simp))
    -- each checked operation lands on the exact result
    obtain ⟨mul, hmul, hmulv⟩ :=
      ops.checkedPowi_exact (Decimal.fromI16 10000) weight (by rwa [h10000])
    obtain ⟨part, hpart', hpartv⟩ :=
      ops.mul_exact (Decimal.fromI16 digit) mul (by rwa [hdigit, hmulv, h10000])
    obtain ⟨sum, hsum', hsumv⟩ :=
      ops.checkedAdd_exact value part (by rwa [hpartv, hdigit, hmulv, h10000])
    have hsumv' : sum.value = value.value + digit * 10000 ^ weight := by
      rw [hsumv, hpartv, hdigit, hmulv, h10000]
    obtain ⟨v, hv, hvv⟩ := ih (fun x hx => hd x (by simp [hx])) (by rwa [hsumv'])
    refine ⟨v, ?_, ?_⟩
    · simp only [Decimal.sumDigits, hmul, hpart', hsum', if_pos hweight, hv]
    · rw [hvv, hsumv', weighted_cons, add_assoc]

/-! ## What `From<&Decimal>` computes -/

/-- The decimal places `From<&Decimal>` adds to reach a multiple of four. -/
def groupPad (scale : Nat) : Nat := 4 * ((scale + 3) / 4) - scale

theorem groupPad_le (scale : Nat) : groupPad scale ≤ 3 := by
  unfold groupPad
  omega

theorem base10000Le_eq (n : Nat) : base10000Le n = (Nat.digits 10000 n).map (↑) := by
  fun_induction base10000Le n with
  | case1 n hn ih =>
    rw [ih, Nat.digits_def' (by norm_num) (Nat.pos_of_ne_zero hn), List.map_cons]
  | case2 n hn =>
    rw [not_not] at hn
    subst hn
    simp

/-- The padded magnitude has at most eight base-10000 digits, so fits `u128`. -/
theorem magnitude_mul_groupPad_lt (d : Decimal) :
    d.magnitude * 10 ^ groupPad d.scale < 10000 ^ 8 :=
  calc d.magnitude * 10 ^ groupPad d.scale < 2 ^ 96 * 10 ^ 3 :=
        Nat.mul_lt_mul_of_lt_of_le d.magnitude_lt
          (Nat.pow_le_pow_right (by norm_num) (groupPad_le _)) (by positivity)
    _ ≤ 10000 ^ 8 := by norm_num

/-- The digits `From<&Decimal>` computes, before trimming: those of the padded
magnitude, most significant first. -/
def encoderDigits (d : Decimal) : List Nat := (Nat.digits 10000 (d.magnitude * 10 ^ groupPad d.scale)).reverse

/-- The weight of the first digit. -/
def encoderWeight (d : Decimal) : Int := ((encoderDigits d).length : Int) - ((d.scale + 3) / 4 : Nat) - 1

/-- The number `From<&Decimal>` builds for a nonzero `Decimal`. -/
def encoderNumeric (d : Decimal) : PgNumeric :=
  .number (if d.isSignNegative then .negative else .positive)
    (((encoderDigits d).map (↑)).rdropWhile (· == 0)) (encoderWeight d) d.scale

theorem length_encoderDigits_le (d : Decimal) : (encoderDigits d).length ≤ 8 := by
  rw [encoderDigits, List.length_reverse]
  exact (Nat.digits_length_le_iff (by norm_num) _).mpr (magnitude_mul_groupPad_lt d)

theorem encoderDigits_lt (d : Decimal) : ∀ x ∈ encoderDigits d, x < 10000 := by
  intro x hx
  rw [encoderDigits, List.mem_reverse] at hx
  exact Nat.digits_lt_base (by norm_num) hx

/-- **Spec of `From<&Decimal> for PgNumeric`.** A nonzero `Decimal` passes both
assertions and the `u128` multiplication. -/
theorem fromDecimal_eq {d : Decimal} (hd : d.isZero = false) :
    PgNumeric.fromDecimal d = some (encoderNumeric d) := by
  have hpad : (if d.scale % 4 > 0 then d.mantissa.natAbs * 10 ^ (4 - d.scale % 4)
      else d.mantissa.natAbs) = d.magnitude * 10 ^ groupPad d.scale := by
    rw [Decimal.natAbs_mantissa]
    split
    · congr 2
      unfold groupPad
      omega
    · rw [show groupPad d.scale = 0 by unfold groupPad; omega, Nat.pow_zero, Nat.mul_one]
  have h128 : d.magnitude * 10 ^ groupPad d.scale < 2 ^ 128 :=
    lt_of_lt_of_le (magnitude_mul_groupPad_lt d) (by norm_num)
  have hlen := length_encoderDigits_le d
  rw [encoderDigits, List.length_reverse] at hlen
  simp only [PgNumeric.fromDecimal, hd, Bool.false_eq_true, if_false, if_pos d.scale_le, hpad,
    if_pos h128, base10000Le_eq, List.length_reverse, List.length_map, if_pos hlen,
    encoderNumeric, encoderWeight, encoderDigits, List.map_reverse]

/-! ## The value of the encoder's digits -/

/-- The padding undone: shifted by `10000 ^ (-ceil(scale / 4))`, a padded number
is read at the scale. -/
theorem padded_shift (scale k : Nat) :
    ((k * 10 ^ groupPad scale : Nat) : ℚ) * 10000 ^ (-(((scale + 3) / 4 : Nat) : Int)) =
      k * 10 ^ (-(scale : Int)) := by
  rw [Nat.cast_mul, Nat.cast_pow, Nat.cast_ofNat, show (10000 : ℚ) = 10 ^ 4 by norm_num]
  exact natCast_shift_zpow (by norm_num) k (groupPad scale) 4 _ _ (by unfold groupPad; omega)

/-- A multiple of the padding no larger than the padded magnitude, read below
the point of the last digit, is a `Decimal` at the encoded scale. -/
theorem representable_padded {d : Decimal} {A : Nat} (hdvd : 10 ^ groupPad d.scale ∣ A)
    (hle : A ≤ d.magnitude * 10 ^ groupPad d.scale) :
    Decimal.Representable ((A : ℚ) * 10000 ^ (-(((d.scale + 3) / 4 : Nat) : Int))) := by
  obtain ⟨k, rfl⟩ := hdvd
  have hk : k ≤ d.magnitude := by
    rw [Nat.mul_comm d.magnitude] at hle
    exact Nat.le_of_mul_le_mul_left hle (Nat.pow_pos (by norm_num))
  rw [Nat.mul_comm, padded_shift]
  exact Decimal.representable_natCast k d.scale (lt_of_le_of_lt hk d.magnitude_lt) d.scale_le

/-- A prefix of the digits, read with the encoder's weight, is its value
shifted past the rest. -/
theorem weighted_prefix (d : Decimal) (pre post : List Nat) (h : pre ++ post = encoderDigits d) :
    weighted 10000 (encoderWeight d) (pre.map (↑)) =
      ((ofDigitsBe 10000 pre * 10000 ^ post.length : Nat) : ℚ) *
        10000 ^ (-(((d.scale + 3) / 4 : Nat) : Int)) := by
  have hlen : (encoderDigits d).length = pre.length + post.length := by
    rw [← h, List.length_append]
  have h := weighted_natCast (b := 10000) (by norm_num) (encoderWeight d) pre
  push_cast at h ⊢
  rw [h, mul_assoc, ← zpow_natCast, ← zpow_add₀ (by norm_num)]
  congr 2
  unfold encoderWeight
  rw [hlen]
  push_cast
  ring

/-- The padding divides the padded magnitude. -/
theorem groupPad_dvd (d : Decimal) :
    10 ^ groupPad d.scale ∣ ofDigitsBe 10000 (encoderDigits d) := by
  rw [encoderDigits, ofDigitsBe_digits_reverse]
  exact Dvd.intro_left _ rfl

theorem groupPad_dvd_tenThousand (scale : Nat) : 10 ^ groupPad scale ∣ 10000 :=
  (Nat.pow_dvd_pow 10 (by have := groupPad_le scale; omega : groupPad scale ≤ 4)).trans
    (by norm_num)

/-- **Every step of the decoder fits.** Over the encoder's digits, from any
split `pre ++ post`, the loop's remaining steps have exact results that are
`Decimal`s: each part and each new partial sum is a multiple of the padding
no larger than the padded magnitude. -/
theorem sumFits_encoderDigits_split (d : Decimal) :
    ∀ post pre, pre ++ post = encoderDigits d →
      SumFits (weighted 10000 (encoderWeight d) (pre.map (↑)))
        (encoderWeight d - pre.length) (post.map (↑)) := by
  have hlen8 := length_encoderDigits_le d
  have hdad : (d.scale + 3) / 4 ≤ 7 := by have := d.scale_le; omega
  intro post
  induction post with
  | nil => intro _ _; trivial
  | cons c post ih =>
    intro pre h
    have hlen : (encoderDigits d).length = pre.length + 1 + post.length := by
      rw [← h, List.length_append, List.length_cons]
      omega
    have hw : encoderWeight d - pre.length = (post.length : Int) - ((d.scale + 3) / 4 : Nat) := by
      unfold encoderWeight
      rw [hlen]
      push_cast
      ring
    have h' : (pre ++ [c]) ++ post = encoderDigits d := by rw [List.append_assoc]; exact h
    -- the prefix up to `c`, and the prefix before it, both divisible by the padding
    have hnext := weighted_prefix d (pre ++ [c]) post h'
    have hdvd_next := dvd_ofDigitsBe_mul_pow (groupPad_dvd_tenThousand d.scale) (pre ++ [c]) post
      (by rw [h']; exact groupPad_dvd d)
    have hdvd_pre := dvd_ofDigitsBe_mul_pow (groupPad_dvd_tenThousand d.scale) pre (c :: post)
      (by rw [h]; exact groupPad_dvd d)
    have hle_next : ofDigitsBe 10000 (pre ++ [c]) * 10000 ^ post.length ≤
        d.magnitude * 10 ^ groupPad d.scale := by
      have := ofDigitsBe_mul_pow_le 10000 (pre ++ [c]) post
      rwa [h', encoderDigits, ofDigitsBe_digits_reverse] at this
    -- the prefix up to `c` is the one before it plus the part
    have hsplit : ofDigitsBe 10000 (pre ++ [c]) * 10000 ^ post.length =
        ofDigitsBe 10000 pre * 10000 ^ (c :: post).length + c * 10000 ^ post.length := by
      simp only [ofDigitsBe_append, ofDigitsBe_cons, ofDigitsBe_nil, List.length_cons,
        List.length_nil]
      ring
    have hpart_dvd : 10 ^ groupPad d.scale ∣ c * 10000 ^ post.length :=
      (Nat.dvd_add_right hdvd_pre).mp (hsplit ▸ hdvd_next)
    have hpart : ((c : Int) : ℚ) * 10000 ^ (encoderWeight d - pre.length) =
        ((c * 10000 ^ post.length : Nat) : ℚ) * 10000 ^ (-(((d.scale + 3) / 4 : Nat) : Int)) := by
      rw [hw, sub_eq_add_neg, zpow_add₀ (by norm_num), zpow_natCast]
      push_cast
      ring
    have hsum : weighted 10000 (encoderWeight d) (pre.map (↑)) +
        ((c : Int) : ℚ) * 10000 ^ (encoderWeight d - pre.length) =
        weighted 10000 (encoderWeight d) ((pre ++ [c]).map (↑)) := by
      rw [List.map_append, weighted_append, List.length_map]
      simp
    refine ⟨Decimal.representable_tenThousand_zpow (by omega) (by omega), ?_, ?_, by omega, ?_⟩
    · rw [hpart]
      exact representable_padded hpart_dvd (le_trans (hsplit ▸ Nat.le_add_left _ _) hle_next)
    · rw [hsum, hnext]
      exact representable_padded hdvd_next hle_next
    · rw [hsum]
      have := ih (pre ++ [c]) h'
      rwa [List.length_append, List.length_singleton, Nat.cast_add, Nat.cast_one,
        ← sub_sub] at this

theorem sumFits_encoderDigits (d : Decimal) :
    SumFits 0 (encoderWeight d) (((encoderDigits d).map (↑)).rdropWhile (· == 0)) := by
  have h := sumFits_encoderDigits_split d (encoderDigits d) [] rfl
  simp only [List.map_nil, weighted_nil, List.length_nil, Nat.cast_zero, sub_zero] at h
  have hsplit : ((encoderDigits d).map (↑)).rdropWhile (· == 0) ++
      ((encoderDigits d).map (↑)).rtakeWhile (· == 0) = ((encoderDigits d).map (↑) : List Int) :=
    List.rdropWhile_append_rtakeWhile
  rw [← hsplit] at h
  exact h.of_append

/-- The encoder's digits are the magnitude, read with its scale. -/
theorem weighted_encoderDigits (d : Decimal) :
    weighted 10000 (encoderWeight d) (((encoderDigits d).map (↑)).rdropWhile (· == 0)) =
      d.magnitude * (10 : ℚ) ^ (-(d.scale : Int)) := by
  have h := weighted_prefix d (encoderDigits d) [] (List.append_nil _)
  rw [weighted_rdropWhile_zero, h, List.length_nil, Nat.pow_zero, Nat.mul_one, encoderDigits,
    ofDigitsBe_digits_reverse]
  exact padded_shift d.scale d.magnitude

/-! ## Operations that satisfy `DecimalOps` -/

theorem Decimal.atScale?_eq_some {q : ℚ} {s : Nat} {c : Decimal} (h : Decimal.atScale? q s = some c) :
    c.value = q ∧ c.scale = s := by
  unfold Decimal.atScale? at h
  dsimp only at h
  split at h
  · rename_i hm
    cases h
    refine ⟨?_, rfl⟩
    rw [Decimal.value_ofParts, Rat.coe_int_num_of_den_eq_one hm.1, mul_assoc, ← zpow_natCast,
      ← zpow_add₀ (by norm_num), add_neg_cancel, zpow_zero, mul_one]
  · cases h

theorem Decimal.atScale?_of_representableAt {q : ℚ} {s : Nat} (h : Decimal.RepresentableAt q s) :
    ∃ c, Decimal.atScale? q s = some c := by
  obtain ⟨r, hr, rfl⟩ := h
  -- scaled by `10 ^ scale`, the value is the mantissa
  have hm : q * 10 ^ r.scale = r.mantissa := by
    rw [← hr, Decimal.value, mul_assoc, ← zpow_natCast, ← zpow_add₀ (by norm_num), neg_add_cancel,
      zpow_zero, mul_one]
  unfold Decimal.atScale?
  rw [dif_pos]
  · exact ⟨_, rfl⟩
  · rw [hm, Rat.den_intCast, Rat.num_intCast, Decimal.natAbs_mantissa]
    exact ⟨rfl, r.magnitude_lt, r.scale_le⟩

theorem Decimal.ofRat?_of_representable {q : ℚ} (h : Decimal.Representable q) :
    ∃ c, Decimal.ofRat? q = some c ∧ c.value = q := by
  obtain ⟨r, hr⟩ := h
  cases hfind : Decimal.ofRat? q with
  | none =>
    -- the scale of `r` is one of those tried
    obtain ⟨c, hc⟩ := Decimal.atScale?_of_representableAt ⟨r, hr, rfl⟩
    have hnone := List.findSome?_eq_none_iff.mp hfind r.scale
      (List.mem_range.mpr (Nat.lt_succ_of_le r.scale_le))
    rw [hc] at hnone
    cases hnone
  | some c =>
    obtain ⟨s, -, hs⟩ := List.exists_of_findSome?_eq_some hfind
    exact ⟨c, rfl, (Decimal.atScale?_eq_some hs).1⟩

/-- Exact arithmetic on rationals: a set of operations with every property
`DecimalOps` asks for. -/
def DecimalOps.exact : DecimalOps where
  checkedPowi a k := Decimal.ofRat? (a.value ^ k)
  mul a b := Decimal.ofRat? (a.value * b.value)
  checkedAdd a b := Decimal.ofRat? (a.value + b.value)
  rescale a s := (Decimal.atScale? a.value s).getD a
  checkedPowi_exact _ _ h := Decimal.ofRat?_of_representable h
  mul_exact _ _ h := Decimal.ofRat?_of_representable h
  checkedAdd_exact _ _ h := Decimal.ofRat?_of_representable h
  rescale_exact a s h := by
    obtain ⟨c, hc⟩ := Decimal.atScale?_of_representableAt h
    rw [hc, Option.getD_some]
    exact Decimal.atScale?_eq_some hc

-- the source's `max_value` test, decoded
example : Decimal.decode DecimalOps.exact
    (PgNumeric.number .positive [7, 9228, 1625, 1426, 4337, 5935, 4395, 335] 7 0).bytes =
      some (.ok Decimal.max) := by
  decide +kernel

/-! ## Decoding what the encoder wrote -/

theorem encoderDigits_trimmed_valid (d : Decimal) :
    ∀ x ∈ ((encoderDigits d).map (↑) : List Int).rdropWhile (· == 0), 0 ≤ x ∧ x < 10000 := by
  intro x hx
  obtain ⟨y, hy, rfl⟩ := List.mem_map.mp (mem_of_mem_rdropWhile hx)
  exact ⟨Int.natCast_nonneg y, by have := encoderDigits_lt d y hy; omega⟩

/-- The encoder's number has at most eight valid digits, and its weight and
scale are `i16`s. -/
theorem encoderNumeric_fits (d : Decimal) : (encoderNumeric d).Fits := by
  have hlen : (((encoderDigits d).map (↑) : List Int).rdropWhile (· == 0)).length ≤ 8 :=
    ((List.rdropWhile_prefix _ _).length_le).trans
      (by rw [List.length_map]; exact length_encoderDigits_le d)
  have hw : IsI16 (encoderWeight d) := by
    have := length_encoderDigits_le d
    have := d.scale_le
    unfold encoderWeight IsI16
    omega
  refine ⟨⟨by omega, fun x hx => ?_⟩, hw, by have := d.scale_le; unfold IsI16; omega⟩
  simp only [PgNumeric.isValidDigit, Bool.and_eq_true, decide_eq_true_eq]
  exact encoderDigits_trimmed_valid d x hx

/-- A nonzero magnitude leaves a digit after the trimming. -/
theorem encoderDigits_trimmed_ne_nil {d : Decimal} (hd : d.isZero = false) :
    ((encoderDigits d).map (↑) : List Int).rdropWhile (· == 0) ≠ [] := by
  intro hnil
  have h := weighted_encoderDigits d
  rw [hnil, weighted_nil] at h
  have hm : d.magnitude ≠ 0 := by simpa [Decimal.isZero] using hd
  exact mul_ne_zero (by exact_mod_cast hm) (zpow_ne_zero _ (by norm_num)) h.symm

/-- **`TryFrom<&PgNumeric>` undoes `From<&Decimal>`.** On the number the
encoder builds, every checked operation is exact, so the decoder returns the
`Decimal`'s value at its scale. -/
theorem tryFromPgNumeric_encoderNumeric (ops : DecimalOps) {d : Decimal} (hd : d.isZero = false) :
    ∃ d', Decimal.tryFromPgNumeric ops (encoderNumeric d) = some (.ok d') ∧
      d'.value = d.value ∧ d'.scale = d.scale := by
  -- the loop sums the digits exactly, to the magnitude
  obtain ⟨v, hv, hvv⟩ := sumDigits_of_sumFits ops
    (fun x hx => by have := encoderDigits_trimmed_valid d x hx; unfold IsI16; omega)
    (show SumFits Decimal.zero.value (encoderWeight d) _ by
      rw [Decimal.value_zero]
      exact sumFits_encoderDigits d)
  have hvalue : v.value = d.magnitude * (10 : ℚ) ^ (-(d.scale : Int)) := by
    rw [hvv, Decimal.value_zero, zero_add, weighted_encoderDigits]
  -- with the sign it is the number, which `rescale` puts at the encoded scale
  have hsigned := Decimal.value_withSign d hvalue
  obtain ⟨hrv, hrs⟩ := ops.rescale_exact _ d.scale ⟨d, hsigned.symm, rfl⟩
  refine ⟨_, ?_, hrv.trans hsigned, hrs⟩
  have hne : (((encoderDigits d).map (↑) : List Int).rdropWhile (· == 0)).isEmpty = false :=
    List.isEmpty_eq_false_iff.mpr (encoderDigits_trimmed_ne_nil hd)
  simp only [encoderNumeric, Decimal.tryFromPgNumeric, hne, Bool.false_eq_true, if_false,
    show ¬ (d.scale : Int) < 0 by omega, hv, Option.map_some, Except.map, Int.toNat_natCast]

/-! ## The round trip -/

/-- **Binary round trip of `Decimal`.** `encode_by_ref` never panics: the
scale and digit-count assertions of `PgNumeric::from` hold and the padded
mantissa fits `u128`. It writes bytes that the binary decoder reads, with any
operations `DecimalOps` describes, as a `Decimal` equal to the one encoded,
and of the same mantissa and scale when it is nonzero. -/
theorem Decimal.decode_encodeByRef (ops : DecimalOps) (d : Decimal) :
    ∃ encoder w d', d.encodeByRef = some encoder ∧ encoder.output = .ok (.no, w) ∧
      Decimal.decode ops w.bytes = some (.ok d') ∧ d'.value = d.value ∧
      (d.isZero = false → d'.mantissa = d.mantissa ∧ d'.scale = d.scale) := by
  cases hzero : d.isZero with
  | true =>
    -- zero is written as `PgNumeric::ZERO`, which is read as `Decimal::ZERO`
    have hfrom : PgNumeric.fromDecimal d = some PgNumeric.zero := by
      simp [PgNumeric.fromDecimal, hzero]
    have hfits : PgNumeric.zero.Fits := ⟨by decide, by decide, by decide⟩
    refine ⟨_, ⟨PgNumeric.zero.bytes, [], []⟩, Decimal.zero, by rw [Decimal.encodeByRef, hfrom]; rfl,
      PgNumeric.encode_done_output hfits.1 .no, ?_, ?_, fun h => by cases h⟩
    · rw [Decimal.decode, ← List.append_nil PgNumeric.zero.bytes, PgNumeric.decode_bytes hfits]
      rfl
    · rw [Decimal.value_of_isZero hzero, Decimal.value_zero]
  | false =>
    have hfits := encoderNumeric_fits d
    obtain ⟨d', hd', hvalue, hscale⟩ := tryFromPgNumeric_encoderNumeric ops hzero
    refine ⟨_, ⟨(encoderNumeric d).bytes, [], []⟩, d', by rw [Decimal.encodeByRef, fromDecimal_eq hzero]; rfl,
      PgNumeric.encode_done_output hfits.1 .no, ?_, hvalue,
      fun _ => ⟨Decimal.mantissa_eq_of_value_eq hvalue hscale, hscale⟩⟩
    rw [Decimal.decode, ← List.append_nil (encoderNumeric d).bytes, PgNumeric.decode_bytes hfits]
    exact hd'

end Sqlx.Postgres
