import Mathlib.Data.Char

/-!
# Ascii — case folding of ASCII letters

`Char.toLower` maps `A`–`Z` to `a`–`z`, thirty-two code points up, and
leaves every other character alone. The rules here are the ones a
case-insensitive comparison needs: what folding does to an upper-case
letter (`val_toLower_of_isUpper`, `toLower_ne_self`), that it leaves no
upper-case letter (`isUpper_toLower`), so folding twice is folding once, and
that it maps no character onto one that is not a letter, other than that
character itself (`toLower_ne`).
-/

namespace Ascii

theorem isUpper_iff (c : Char) : c.isUpper = true ↔ 65 ≤ c.val.toNat ∧ c.val.toNat ≤ 90 := by
  delta Char.isUpper
  simp [UInt32.le_iff_toNat_le]

theorem isLower_iff (c : Char) : c.isLower = true ↔ 97 ≤ c.val.toNat ∧ c.val.toNat ≤ 122 := by
  delta Char.isLower
  simp [UInt32.le_iff_toNat_le]

theorem toLower_of_not_isUpper {c : Char} (h : c.isUpper = false) : c.toLower = c := by
  unfold Char.toLower
  rw [dif_neg]
  delta Char.isUpper at h
  simpa using h

theorem val_toLower_of_isUpper {c : Char} (h : c.isUpper = true) : c.toLower.val.toNat = c.val.toNat + 32 := by
  have hu : c.val ≥ 'A'.val ∧ c.val ≤ 'Z'.val := by
    delta Char.isUpper at h
    simpa using h
  have hn := (isUpper_iff c).1 h
  unfold Char.toLower
  rw [dif_pos hu]
  show (c.val + ('a'.val - 'A'.val)).toNat = _
  rw [UInt32.toNat_add]
  have h32 : ('a'.val - 'A'.val).toNat = 32 := by decide
  rw [h32]
  omega

/-- An upper-case letter folds to a lower-case one. -/
theorem isLower_toLower_of_isUpper {c : Char} (h : c.isUpper = true) : c.toLower.isLower = true := by
  have hv := val_toLower_of_isUpper h
  have hn := (isUpper_iff c).1 h
  rw [isLower_iff]
  omega

theorem toLower_ne_self {c : Char} (h : c.isUpper = true) : c.toLower ≠ c := by
  intro heq
  have hv := val_toLower_of_isUpper h
  rw [heq] at hv
  omega

theorem isUpper_toLower (c : Char) : c.toLower.isUpper = false := by
  cases hc : c.isUpper with
  | false => rw [toLower_of_not_isUpper hc, hc]
  | true =>
    have hv := val_toLower_of_isUpper hc
    have hn := (isUpper_iff c).1 hc
    cases hl : c.toLower.isUpper with
    | false => rfl
    | true =>
      have := (isUpper_iff _).1 hl
      omega

theorem toLower_toLower (c : Char) : c.toLower.toLower = c.toLower :=
  toLower_of_not_isUpper (isUpper_toLower c)

/-- Folding reaches a character that is not a lower-case letter only from
that character. -/
theorem toLower_ne {c d : Char} (hl : d.isLower = false) (h : c ≠ d) :
    c.toLower ≠ d := by
  cases hc : c.isUpper with
  | false => rwa [toLower_of_not_isUpper hc]
  | true =>
    intro heq
    have := isLower_toLower_of_isUpper hc
    rw [heq, hl] at this
    cases this

end Ascii
