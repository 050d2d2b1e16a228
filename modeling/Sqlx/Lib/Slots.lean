import Mathlib.Data.List.Basic

/-!
# Slots — a vector of options read as a map from indices

A `List (Option α)` is a map from `Nat`: the value at `i` is the content of
slot `i`, and an index past the end reads `none`, as a `none` slot does
(`get`). Two vectors that differ only by trailing `none` slots are the same
map. The rules here say what writing a slot and growing the vector with
`none`s do to the map, and what the usual comparisons of two vectors (`==` of
equal-length vectors, `all isNone` of a tail) say about their maps, for any
`==` on the values.

The values the vector holds, in index order, are `values`; two vectors whose
slots agree under `==` hold values that agree pairwise (`forall₂_values`), so
any fold that respects `==` gives the same on both (`foldl_eq_of_forall₂`).
-/

namespace Slots

variable {α β : Type}

/-- The value at `i`: the content of slot `i`, `none` past the end. -/
def get (l : List (Option α)) (i : Nat) : Option α := l[i]?.join

/-- The values held, in index order. -/
def values (l : List (Option α)) : List α := l.filterMap id

section Get

variable {l : List (Option α)} {i j : Nat}

@[simp] theorem get_nil (i : Nat) : get ([] : List (Option α)) i = none := rfl

@[simp] theorem get_cons_zero (x : Option α) (l : List (Option α)) : get (x :: l) 0 = x := by
  simp [get]

@[simp] theorem get_cons_succ (x : Option α) (l : List (Option α)) (i : Nat) :
    get (x :: l) (i + 1) = get l i := rfl

theorem get_of_length_le (h : l.length ≤ i) : get l i = none := by
  rw [get, List.getElem?_eq_none h, Option.join_none]

/-- Slots of `none` at the end change no value. -/
@[simp] theorem get_append_replicate_none (l : List (Option α)) (n i : Nat) :
    get (l ++ List.replicate n none) i = get l i := by
  by_cases hi : i < l.length
  · rw [get, get, List.getElem?_append_left hi]
  · rw [get_of_length_le (Nat.le_of_not_lt hi), get, List.getElem?_append_right (Nat.le_of_not_lt hi),
      List.getElem?_replicate]
    split <;> rfl

theorem get_set_self (h : i < l.length) (x : Option α) : get (l.set i x) i = x := by
  rw [get, List.getElem?_set_self h, Option.join_some]

theorem get_set_ne (h : j ≠ i) (x : Option α) : get (l.set j x) i = get l i := by
  rw [get, get, List.getElem?_set_ne h]

/-- A slot inside the vector, as `getElem?` reads it. -/
theorem getElem?_of_lt (h : i < l.length) : l[i]? = some (get l i) := by
  rw [get, List.getElem?_eq_getElem h, Option.join_some]

/-- A tail of `none`s, read as a map. -/
theorem all_isNone_iff (l : List (Option α)) : l.all Option.isNone = true ↔ ∀ i, get l i = none := by
  induction l with
  | nil => simp
  | cons x l ih =>
    rw [List.all_cons, Bool.and_eq_true, ih, Option.isNone_iff_eq_none]
    constructor
    · rintro ⟨rfl, hl⟩ (_ | i)
      · rfl
      · exact hl i
    · intro hall
      exact ⟨hall 0, fun i => hall (i + 1)⟩

/-- The slots of the longer vector past the shorter one's end are what it
adds to the map. -/
theorem get_drop (l : List (Option α)) (n i : Nat) : get (l.drop n) i = get l (n + i) := by
  rw [get, get, List.getElem?_drop]

theorem get_take_of_lt {l : List (Option α)} {n i : Nat} (h : i < n) : get (l.take n) i = get l i := by
  rw [get, get, List.getElem?_take_of_lt h]

theorem get_take_of_le {l : List (Option α)} {n i : Nat} (h : n ≤ i) : get (l.take n) i = none :=
  get_of_length_le (by rw [List.length_take]; omega)

/-- A vector grown with `none` slots, as `getElem?` reads it: inside, the map;
past the end, nothing. -/
theorem getElem?_append_replicate_none (l : List (Option α)) (n i : Nat) :
    (l ++ List.replicate n none)[i]? = if i < l.length + n then some (get l i) else none := by
  split
  · rw [getElem?_of_lt (by rwa [List.length_append, List.length_replicate]), get_append_replicate_none]
  · exact List.getElem?_eq_none (by rw [List.length_append, List.length_replicate]; omega)

end Get

/-- The positions `zipIdx` pairs the elements with increase along the list. -/
theorem pairwise_snd_lt_zipIdx (l : List α) : l.zipIdx.Pairwise fun x y => x.2 < y.2 := by
  have h := List.pairwise_lt_range' (s := 0) (n := l.length)
  rw [← List.zipIdx_map_snd, List.pairwise_map] at h
  exact h

section Compare

variable [BEq α]

/-- `==` of two vectors of one length compares every slot. -/
theorem beq_iff_get : ∀ {a b : List (Option α)}, a.length = b.length →
    ((a == b) = true ↔ ∀ i, (get a i == get b i) = true)
  | [], [], _ => by simp [get]
  | x :: a, y :: b, h => by
    rw [List.cons_beq_cons, Bool.and_eq_true, beq_iff_get (Nat.succ.inj h)]
    constructor
    · rintro ⟨hxy, hab⟩ (_ | i)
      · exact hxy
      · exact hab i
    · intro hall
      exact ⟨hall 0, fun i => hall (i + 1)⟩

/-- A longer vector against a shorter one: its prefix `==` the shorter one,
and its tail all `none`, is every slot agreeing. -/
theorem prefix_beq_and_all_isNone_iff {a b : List (Option α)} (h : b.length ≤ a.length) :
    ((a.take b.length == b) && (a.drop b.length).all Option.isNone) = true ↔
      ∀ i, (get a i == get b i) = true := by
  rw [Bool.and_eq_true, beq_iff_get (by rw [List.length_take]; omega), all_isNone_iff]
  constructor
  · rintro ⟨hfront, htail⟩ i
    by_cases hi : i < b.length
    · rw [← get_take_of_lt hi]
      exact hfront i
    · -- past the shorter one's end, the longer one's slots are its tail
      have hnone : get a i = none := by
        rw [← Nat.add_sub_cancel' (Nat.le_of_not_lt hi), ← get_drop]
        exact htail _
      rw [hnone, get_of_length_le (Nat.le_of_not_lt hi)]
      rfl
  · intro hall
    refine ⟨fun i => ?_, fun i => ?_⟩
    · by_cases hi : i < b.length
      · rw [get_take_of_lt hi]
        exact hall i
      · rw [get_take_of_le (Nat.le_of_not_lt hi), get_of_length_le (Nat.le_of_not_lt hi)]
        rfl
    · have hi := hall (b.length + i)
      rw [get_of_length_le (Nat.le_add_right _ _), Option.beq_none, Option.isNone_iff_eq_none] at hi
      rw [get_drop]
      exact hi

/-- `==` on options is symmetric where it is on the values. -/
theorem beq_symm [PartialEquivBEq α] {x y : Option α} (h : (x == y) = true) : (y == x) = true := by
  cases x with
  | none => cases y with
    | none => rfl
    | some w => cases h
  | some u => cases y with
    | none => cases h
    | some w => exact PartialEquivBEq.symm (α := α) h

/-- Slots that agree under `==` hold values that agree pairwise: a `none`
slot agrees only with a `none` slot. -/
theorem forall₂_values : ∀ {a b : List (Option α)}, (∀ i, (get a i == get b i) = true) →
    List.Forall₂ (fun x y => (x == y) = true) (values a) (values b)
  | [], [], _ => .nil
  | [], y :: b, h => by
    have hb := forall₂_values (a := []) (b := b) fun i => h (i + 1)
    cases y with
    | none => simpa [values] using hb
    | some w => exact absurd (h 0) (by simp)
  | x :: a, [], h => by
    have ha := forall₂_values (a := a) (b := []) fun i => h (i + 1)
    cases x with
    | none => simpa [values] using ha
    | some u => exact absurd (h 0) (by simp)
  | x :: a, y :: b, h => by
    have hab := forall₂_values (a := a) (b := b) fun i => h (i + 1)
    have hxy := h 0
    simp only [get_cons_zero] at hxy
    cases x with
    | none =>
      cases y with
      | none => simpa [values] using hab
      | some w => cases hxy
    | some u =>
      cases y with
      | none => cases hxy
      | some w => exact .cons hxy hab

end Compare

/-- A fold that gives the same on values that agree under a relation gives
the same on lists that agree pairwise. -/
theorem foldl_eq_of_forall₂ {R : α → α → Prop} {f : β → α → β}
    (hf : ∀ b x y, R x y → f b x = f b y) :
    ∀ {xs ys : List α} (b : β), List.Forall₂ R xs ys → xs.foldl f b = ys.foldl f b
  | _, _, _, .nil => rfl
  | _ :: _, _ :: _, b, .cons hxy hrest => by
    rw [List.foldl_cons, List.foldl_cons, hf b _ _ hxy]
    exact foldl_eq_of_forall₂ hf _ hrest

end Slots
