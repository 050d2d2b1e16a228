import Mathlib.Data.Nat.Digits.Lemmas
import Mathlib.Algebra.BigOperators.Fin
import Mathlib.Algebra.GroupWithZero.Basic
import Mathlib.Data.List.DropRight
import Mathlib.Data.Rat.Defs
import Sqlx.Lib.Bytes

/-!
# Radix — positional digit lists

Big-endian digit lists read in a base, and the regroupings a decimal codec
makes: base-`b` digits cut into chunks of `k` that become base-`b ^ k`
digits (the last chunk padded on the right with zeros), and base-`b * b`
digits each split into two base-`b` ones. Over ℚ, a digit list with a
weight, the exponent of its first digit, whose value trailing zero digits
do not change. Two-digit numbers compare as their digits do.
-/

namespace Radix

open Wire

/-! ## Big-endian values -/

/-- The value of the big-endian digits `l` in base `b`: the left fold
`a * b + d` from zero. -/
def ofDigitsBe (b : Nat) (l : List Nat) : Nat :=
  l.foldl (fun a d => a * b + d) 0

/-- The fold from any accumulator: the accumulator is shifted past every digit. -/
theorem foldl_eq_ofDigitsBe (b acc : Nat) (l : List Nat) :
    l.foldl (fun a d => a * b + d) acc = acc * b ^ l.length + ofDigitsBe b l := by
  induction l generalizing acc with
  | nil => simp [ofDigitsBe]
  | cons d l ih =>
    have hd : ofDigitsBe b (d :: l) = (0 * b + d) * b ^ l.length + ofDigitsBe b l := ih _
    rw [List.foldl_cons, ih, hd, List.length_cons]
    ring

@[simp] theorem ofDigitsBe_nil (b : Nat) : ofDigitsBe b [] = 0 := rfl

@[simp] theorem ofDigitsBe_cons (b d : Nat) (l : List Nat) :
    ofDigitsBe b (d :: l) = d * b ^ l.length + ofDigitsBe b l := by
  have h : ofDigitsBe b (d :: l) = (0 * b + d) * b ^ l.length + ofDigitsBe b l :=
    foldl_eq_ofDigitsBe b _ l
  rw [h, Nat.zero_mul, Nat.zero_add]

theorem ofDigitsBe_append (b : Nat) (l₁ l₂ : List Nat) :
    ofDigitsBe b (l₁ ++ l₂) = ofDigitsBe b l₁ * b ^ l₂.length + ofDigitsBe b l₂ := by
  simp only [ofDigitsBe, List.foldl_append]
  exact foldl_eq_ofDigitsBe b _ l₂

/-- A prefix shifted past the rest is at most the whole value, -/
theorem ofDigitsBe_mul_pow_le (b : Nat) (l₁ l₂ : List Nat) :
    ofDigitsBe b l₁ * b ^ l₂.length ≤ ofDigitsBe b (l₁ ++ l₂) := by
  rw [ofDigitsBe_append]
  exact Nat.le_add_right _ _

/-- and a divisor of the base that divides the whole value divides it too:
either the rest is empty, or the shift is a multiple of the base. -/
theorem dvd_ofDigitsBe_mul_pow {b q : Nat} (hq : q ∣ b) (l₁ l₂ : List Nat)
    (h : q ∣ ofDigitsBe b (l₁ ++ l₂)) : q ∣ ofDigitsBe b l₁ * b ^ l₂.length := by
  cases l₂ with
  | nil => simpa using h
  | cons d l₂ => exact Dvd.dvd.mul_left (dvd_pow hq (Nat.succ_ne_zero _)) _

/-- Mathlib reads digit lists low digit first. -/
theorem ofDigitsBe_eq_ofDigits_reverse (b : Nat) (l : List Nat) :
    ofDigitsBe b l = Nat.ofDigits b l.reverse := by
  induction l with
  | nil => simp
  | cons d l ih =>
    rw [ofDigitsBe_cons, List.reverse_cons, Nat.ofDigits_append, ih, List.length_reverse,
      Nat.ofDigits_singleton]
    ring

/-- `n` digits below `b` make a value below `b ^ n`. -/
theorem ofDigitsBe_lt {b : Nat} {l : List Nat} (h : ∀ d ∈ l, d < b) :
    ofDigitsBe b l < b ^ l.length := by
  induction l with
  | nil => simp
  | cons d l ih =>
    have hd : d + 1 ≤ b := h d (by simp)
    have hl : ofDigitsBe b l < b ^ l.length := ih fun x hx => h x (by simp [hx])
    rw [ofDigitsBe_cons, List.length_cons, Nat.pow_succ]
    calc d * b ^ l.length + ofDigitsBe b l < (d + 1) * b ^ l.length := by nlinarith
      _ ≤ b ^ l.length * b := by rw [Nat.mul_comm]; exact Nat.mul_le_mul_left _ hd

/-- A nonzero leading digit makes a nonzero value. -/
theorem ofDigitsBe_pos {b d : Nat} (hb : 0 < b) (hd : 0 < d) (l : List Nat) :
    0 < ofDigitsBe b (d :: l) := by
  rw [ofDigitsBe_cons]
  exact Nat.add_pos_left (Nat.mul_pos hd (Nat.pow_pos hb)) _

/-- Zero digits make zero. -/
theorem ofDigitsBe_eq_zero {b : Nat} {l : List Nat} (h : ∀ d ∈ l, d = 0) : ofDigitsBe b l = 0 := by
  induction l with
  | nil => rfl
  | cons d l ih =>
    rw [ofDigitsBe_cons, h d (by simp), ih fun x hx => h x (by simp [hx])]
    simp

/-- The big-endian decimal digits of `n`, as Mathlib computes them, read back. -/
theorem ofDigitsBe_digits_reverse (b n : Nat) :
    ofDigitsBe b (Nat.digits b n).reverse = n := by
  rw [ofDigitsBe_eq_ofDigits_reverse, List.reverse_reverse, Nat.ofDigits_digits]

/-! ## Regrouping -/

/-- A chunk of at most `k` base-`b` digits as one base-`b ^ k` digit: the
chunk padded on the right with zeros up to `k` digits. -/
def padDigit (b k : Nat) (c : List Nat) : Nat :=
  ofDigitsBe b c * b ^ (k - c.length)

/-- A padded chunk of digits below `b` is a digit below `b ^ k`. -/
theorem padDigit_lt {b k : Nat} {c : List Nat} (hb : 0 < b) (h : ∀ d ∈ c, d < b)
    (hc : c.length ≤ k) : padDigit b k c < b ^ k := by
  calc padDigit b k c < b ^ c.length * b ^ (k - c.length) :=
        Nat.mul_lt_mul_of_pos_right (ofDigitsBe_lt h) (Nat.pow_pos hb)
    _ = b ^ k := by rw [← Nat.pow_add]; congr 1; omega

/-- **Chunks of `k` base-`b` digits are base-`b ^ k` digits.** Read as such,
with the last chunk padded, they are the value of the whole list shifted by
the padding. By induction along `chunks`; the padding is nonzero only at the
last chunk, where the rest is empty. -/
theorem ofDigitsBe_chunks (b : Nat) {k : Nat} (hk : 0 < k) (l : List Nat) :
    ofDigitsBe (b ^ k) ((chunks k l).map (padDigit b k)) =
      ofDigitsBe b l * b ^ (k * (chunks k l).length - l.length) := by
  fun_induction chunks k l with
  | case1 l h ih =>
    have hroom := length_le_mul_length_chunks hk (l.drop k)
    have hsplit : ofDigitsBe b l =
        ofDigitsBe b (l.take k) * b ^ (l.drop k).length + ofDigitsBe b (l.drop k) := by
      rw [← ofDigitsBe_append, List.take_append_drop]
    simp only [List.map_cons, ofDigitsBe_cons, List.length_map, List.length_cons, ih, hsplit,
      padDigit, ← Nat.pow_mul]
    by_cases hlen : k ≤ l.length
    · -- a full first chunk: no padding, and the rest fills the remaining room
      have htake : (l.take k).length = k := by simp; omega
      have hexp : k * ((chunks k (l.drop k)).length + 1) - l.length =
          k * (chunks k (l.drop k)).length - (l.drop k).length := by
        simp only [List.length_drop] at hroom ⊢
        rw [Nat.mul_succ]
        omega
      have hfill : (l.drop k).length + (k * (chunks k (l.drop k)).length - (l.drop k).length) =
          k * (chunks k (l.drop k)).length := by omega
      rw [htake, Nat.sub_self, Nat.pow_zero, Nat.mul_one, hexp, Nat.add_mul, Nat.mul_assoc,
        ← Nat.pow_add, hfill]
    · -- the whole list is the last chunk
      have hdrop : l.drop k = [] := List.drop_eq_nil_of_le (by omega)
      have htake : (l.take k).length = l.length := by simp; omega
      simp only [hdrop, chunks_nil, List.length_nil, Nat.mul_zero, Nat.pow_zero, Nat.mul_one,
        ofDigitsBe_nil, Nat.add_zero, htake, Nat.zero_sub, Nat.zero_add]
  | case2 l h =>
    have hl : l = [] := by simpa [hk] using h
    simp [hl]

/-- Two base-`b` digits per base-`b * b` digit, high one first. -/
theorem ofDigitsBe_flatMap_divMod (b : Nat) (l : List Nat) :
    ofDigitsBe b (l.flatMap fun d => [d / b, d % b]) = ofDigitsBe (b * b) l := by
  induction l with
  | nil => simp
  | cons d l ih =>
    have hlen : (l.flatMap fun d => [d / b, d % b]).length = 2 * l.length := by
      simp [List.length_flatMap, Nat.mul_comm]
    have hpair : ofDigitsBe b [d / b, d % b] = d := by
      simp only [ofDigitsBe_cons, List.length_cons, List.length_nil, ofDigitsBe_nil]
      simpa [Nat.mul_comm] using Nat.div_add_mod d b
    rw [List.flatMap_cons, ofDigitsBe_append, ih, hlen, hpair, ofDigitsBe_cons, Nat.pow_mul,
      Nat.pow_two]

/-! ## Trimming trailing digits -/

theorem mem_of_mem_rdropWhile {α : Type} {p : α → Bool} {l : List α} {x : α}
    (h : x ∈ l.rdropWhile p) : x ∈ l :=
  (List.rdropWhile_prefix p l).subset h

/-- The last element left is one that `p` rejects. -/
theorem getLast?_rdropWhile {α : Type} {p : α → Bool} {l : List α} {x : α}
    (h : (l.rdropWhile p).getLast? = some x) : p x = false := by
  have hne : l.rdropWhile p ≠ [] := by
    intro he
    simp [he] at h
  rw [List.getLast?_eq_some_getLast hne, Option.some.injEq] at h
  subst h
  simpa using List.rdropWhile_last_not p l hne

/-- A first element that `p` rejects stays first. -/
theorem head?_rdropWhile {α : Type} {p : α → Bool} {l : List α} {x : α}
    (h : l.head? = some x) (hx : p x = false) : (l.rdropWhile p).head? = some x := by
  have hne : l.rdropWhile p ≠ [] := by
    rw [Ne, List.rdropWhile_eq_nil_iff]
    intro hall
    have := hall x (List.mem_of_mem_head? h)
    simp [hx] at this
  obtain ⟨t, ht⟩ := List.rdropWhile_prefix p l
  obtain ⟨y, ys, hy⟩ := List.exists_cons_of_ne_nil hne
  rw [hy] at ht ⊢
  rw [← ht] at h
  simpa using h

/-! ## Weighted digits over ℚ -/

/-- Digits whose first one weighs `base ^ weight`, each next one a power of
`base` less. -/
def weighted (base : ℚ) (weight : Int) : List Int → ℚ
  | [] => 0
  | d :: ds => d * base ^ weight + weighted base (weight - 1) ds

@[simp] theorem weighted_nil (base : ℚ) (weight : Int) : weighted base weight [] = 0 := rfl

@[simp] theorem weighted_cons (base : ℚ) (weight d : Int) (ds : List Int) :
    weighted base weight (d :: ds) = d * base ^ weight + weighted base (weight - 1) ds := rfl

/-- The digits after a prefix weigh a power of `base` less for each digit of it. -/
theorem weighted_append (base : ℚ) (weight : Int) (ds es : List Int) :
    weighted base weight (ds ++ es) = weighted base weight ds + weighted base (weight - ds.length) es := by
  induction ds generalizing weight with
  | nil => simp
  | cons d ds ih =>
    rw [List.cons_append, weighted_cons, weighted_cons, ih, List.length_cons]
    have hw : weight - 1 - (ds.length : Int) = weight - ((ds.length + 1 : Nat) : Int) := by
      push_cast
      ring
    rw [hw, add_assoc]

/-- Zero digits after the last do not change the value. -/
theorem weighted_append_zeros (base : ℚ) (weight : Int) (ds zs : List Int)
    (hz : ∀ z ∈ zs, z = 0) : weighted base weight (ds ++ zs) = weighted base weight ds := by
  induction ds generalizing weight with
  | nil =>
    induction zs generalizing weight with
    | nil => rfl
    | cons z zs ih =>
      rw [List.nil_append, weighted_cons, hz z (by simp)]
      simpa using ih (fun x hx => hz x (by simp [hx])) (weight - 1)
  | cons d ds ih => simp [ih]

/-- Trimming trailing zero digits keeps the value. -/
theorem weighted_rdropWhile_zero (base : ℚ) (weight : Int) (ds : List Int) :
    weighted base weight (ds.rdropWhile (· == 0)) = weighted base weight ds := by
  have hsplit : ds.rdropWhile (· == 0) ++ ds.rtakeWhile (· == 0) = ds :=
    List.rdropWhile_append_rtakeWhile
  conv_rhs => rw [← hsplit]
  refine (weighted_append_zeros base weight _ _ fun z hz => ?_).symm
  simpa using List.mem_rtakeWhile_imp hz

/-- Natural digits read with a weight: their big-endian value, scaled so the
last digit weighs `base ^ (weight + 1 - length)`. -/
theorem weighted_natCast {b : Nat} (hb : b ≠ 0) (weight : Int) (ds : List Nat) :
    weighted b weight (ds.map (↑)) = ofDigitsBe b ds * (b : ℚ) ^ (weight + 1 - ds.length) := by
  have hb' : (b : ℚ) ≠ 0 := by exact_mod_cast hb
  induction ds generalizing weight with
  | nil => simp
  | cons d ds ih =>
    have hpow : (b : ℚ) ^ weight =
        (b : ℚ) ^ ds.length * (b : ℚ) ^ (weight - 1 + 1 - ds.length) := by
      rw [← zpow_natCast, ← zpow_add₀ hb']
      congr 1
      ring
    simp only [List.map_cons, weighted_cons, ih, ofDigitsBe_cons, List.length_cons, hpow]
    push_cast
    ring_nf

/-! ## Shifts by powers -/

/-- A number shifted by `b ^ E`, then by `(b ^ n) ^ k`, is shifted by `b ^ (E + n * k)`. -/
theorem natCast_shift_zpow {b : ℚ} (hb : b ≠ 0) (N E n : Nat) (k e : Int)
    (h : (E : Int) + n * k = e) : (N : ℚ) * b ^ E * (b ^ n) ^ k = N * b ^ e := by
  rw [← zpow_natCast b n, ← zpow_mul, mul_assoc, ← zpow_natCast b E, ← zpow_add₀ hb, h]

/-! ## Lexicographic order of digits -/

/-- Two-digit numbers compare as their digits do, the high digit first: the
derived lexicographic order of a mixed-radix record is the order of its value. -/
theorem compare_mul_add {B a₁ a₂ b₁ b₂ : Nat} (ha : a₂ < B) (hb : b₂ < B) :
    compare (a₁ * B + a₂) (b₁ * B + b₂) = (compare a₁ b₁).then (compare a₂ b₂) := by
  rcases lt_trichotomy a₁ b₁ with h | rfl | h
  · have hle : (a₁ + 1) * B ≤ b₁ * B := Nat.mul_le_mul_right B h
    rw [(compare_lt_iff_lt).mpr h, Ordering.lt_then, compare_lt_iff_lt]
    rw [Nat.succ_mul] at hle
    omega
  · rw [(compare_eq_iff_eq).mpr rfl, Ordering.eq_then]
    rcases lt_trichotomy a₂ b₂ with h | rfl | h
    · rw [(compare_lt_iff_lt).mpr h, compare_lt_iff_lt]
      omega
    · rw [(compare_eq_iff_eq).mpr rfl, (compare_eq_iff_eq).mpr rfl]
    · rw [(compare_gt_iff_gt).mpr h, compare_gt_iff_gt]
      omega
  · have hle : (b₁ + 1) * B ≤ a₁ * B := Nat.mul_le_mul_right B h
    rw [(compare_gt_iff_gt).mpr h, Ordering.gt_then, compare_gt_iff_gt]
    rw [Nat.succ_mul] at hle
    omega

/-- Counts compare as integers as they do as naturals. -/
theorem compare_natCast_int (x y : Nat) : compare (x : Int) (y : Int) = compare x y := by
  rw [← cmp_eq_compare, ← cmp_eq_compare]
  exact Nat.strictMono_cast.cmp_map_eq x y

/-- Negated counts compare the other way round. -/
theorem compare_neg_natCast_int (x y : Nat) : compare (-(x : Int)) (-(y : Int)) = compare y x := by
  rw [← cmp_eq_compare, ← cmp_eq_compare]
  have hanti : StrictAnti fun n : Nat => -(n : Int) := fun a b h => by
    simp only [neg_lt_neg_iff, Nat.cast_lt]
    exact h
  exact hanti.cmp_map_eq x y

end Radix
