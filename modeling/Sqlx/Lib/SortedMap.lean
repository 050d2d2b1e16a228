import Mathlib.Data.List.Basic

/-!
# SortedMap — a map as its bindings in increasing key order

An ordered map (`BTreeMap`) as what it shows of itself: one binding per key,
iterated in the order of the keys, which is a field of the structure. `insert`
binds a key, replacing the value of a key already bound.

Two maps that bind the same keys to the same values are equal (`ext_get?`).
So a map is what inserting its own bindings gives back
(`foldl_insert_toList`), and of bindings inserted one after another the last
one for each key wins (`get?_foldl_insert`).

The keys are compared by `compare`, lawful as `Std.TransOrd` and
`Std.LawfulEqOrd` say.
-/

/-- An ordered map: its bindings, strictly increasing in key. -/
structure SortedMap (K V : Type) [Ord K] where
  toList : List (K × V)
  ascending : toList.Pairwise fun a b => compare a.1 b.1 = .lt

namespace SortedMap

section Bindings

variable {K V : Type} [Ord K] {k k' : K} {v : V}

/-- The value of the first binding of `k` in a list of bindings. -/
def find? (k : K) : List (K × V) → Option V
  | [] => none
  | (k', v) :: rest => if compare k k' = .eq then some v else find? k rest

/-- `BTreeMap::insert` on the bindings in key order: a new key goes before the
first greater one; a key already bound keeps its place and takes the value. -/
def insertList (k : K) (v : V) : List (K × V) → List (K × V)
  | [] => [(k, v)]
  | (k', v') :: rest =>
    match compare k k' with
    | .lt => (k, v) :: (k', v') :: rest
    | .eq => (k', v) :: rest
    | .gt => (k', v') :: insertList k v rest

@[simp] theorem find?_nil (k : K) : find? k ([] : List (K × V)) = none := rfl

theorem find?_cons_of_eq (rest : List (K × V)) (h : compare k k' = .eq) :
    find? k ((k', v) :: rest) = some v := by
  rw [find?, if_pos h]

theorem find?_cons_of_ne (rest : List (K × V)) (h : compare k k' ≠ .eq) :
    find? k ((k', v) :: rest) = find? k rest := by
  rw [find?, if_neg h]

theorem find?_append (k : K) (l₁ l₂ : List (K × V)) :
    find? k (l₁ ++ l₂) = (find? k l₁).or (find? k l₂) := by
  induction l₁ with
  | nil => rfl
  | cons e l₁ ih =>
    obtain ⟨k', v⟩ := e
    by_cases h : compare k k' = .eq
    · rw [List.cons_append, find?_cons_of_eq _ h, find?_cons_of_eq _ h]
      rfl
    · rw [List.cons_append, find?_cons_of_ne _ h, find?_cons_of_ne _ h, ih]

/-- A key below every key of the bindings is not bound. -/
theorem find?_eq_none {l : List (K × V)} (h : ∀ e ∈ l, compare k e.1 = .lt) : find? k l = none := by
  induction l with
  | nil => rfl
  | cons e l ih =>
    obtain ⟨k', v⟩ := e
    have hlt : compare k k' = .lt := h _ List.mem_cons_self
    rw [find?_cons_of_ne _ (by rw [hlt]; exact nofun)]
    exact ih fun e he => h e (List.mem_cons_of_mem _ he)

/-- Every key after `insertList` is the key inserted or one bound before. -/
theorem forall_insertList {P : K → Prop} (hk : P k) :
    ∀ {l : List (K × V)}, (∀ e ∈ l, P e.1) → ∀ e ∈ insertList k v l, P e.1
  | [], _, e, he => by
    rw [insertList, List.mem_singleton] at he
    rw [he]
    exact hk
  | (k', v') :: rest, hl, e, he => by
    have hhead : P k' := hl _ List.mem_cons_self
    have hrest : ∀ e ∈ rest, P e.1 := fun e he => hl e (List.mem_cons_of_mem _ he)
    unfold insertList at he
    split at he
    · rcases List.mem_cons.mp he with rfl | he
      · exact hk
      · exact hl e he
    · rcases List.mem_cons.mp he with rfl | he
      · exact hhead
      · exact hrest e he
    · rcases List.mem_cons.mp he with rfl | he
      · exact hhead
      · exact forall_insertList hk hrest e he

theorem find?_insertList_self [Std.LawfulEqOrd K] : ∀ l : List (K × V), find? k (insertList k v l) = some v
  | [] => find?_cons_of_eq _ Std.ReflCmp.compare_self
  | (k', v') :: rest => by
    unfold insertList
    split
    · exact find?_cons_of_eq _ Std.ReflCmp.compare_self
    · next heq => exact find?_cons_of_eq _ heq
    · next hgt =>
      rw [find?_cons_of_ne _ (by rw [hgt]; exact nofun)]
      exact find?_insertList_self rest

variable [Std.TransOrd K]

/-- `insertList` keeps the bindings strictly increasing. -/
theorem ascending_insertList :
    ∀ {l : List (K × V)}, l.Pairwise (fun a b => compare a.1 b.1 = .lt) →
      (insertList k v l).Pairwise fun a b => compare a.1 b.1 = .lt
  | [], _ => List.pairwise_singleton _ _
  | (k', v') :: rest, h => by
    obtain ⟨hhead, hrest⟩ := List.pairwise_cons.mp h
    unfold insertList
    split
    · next hlt =>
      refine List.pairwise_cons.mpr ⟨fun e he => ?_, h⟩
      rcases List.mem_cons.mp he with rfl | he
      · exact hlt
      · exact Std.TransCmp.lt_trans hlt (hhead e he)
    · exact List.pairwise_cons.mpr ⟨hhead, hrest⟩
    · next hgt =>
      -- the new key goes after `k'`, so `k'` stays below everything that follows it
      have hafter : ∀ e ∈ insertList k v rest, compare k' e.1 = .lt :=
        forall_insertList (P := fun x => compare k' x = .lt) (Std.OrientedCmp.lt_of_gt hgt) hhead
      exact List.pairwise_cons.mpr ⟨hafter, ascending_insertList hrest⟩

/-- Inserting `k` leaves the value of every other key as it was. -/
theorem find?_insertList_of_ne (h : compare k' k ≠ .eq) :
    ∀ l : List (K × V), find? k' (insertList k v l) = find? k' l
  | [] => find?_cons_of_ne _ h
  | (k'', v'') :: rest => by
    unfold insertList
    split
    · exact find?_cons_of_ne _ h
    · next heq =>
      -- `k` and `k''` are the same key, so `k'` is neither
      have hne : compare k' k'' ≠ .eq := fun h' =>
        h (Std.TransCmp.eq_trans h' (Std.OrientedCmp.eq_symm heq))
      rw [find?_cons_of_ne _ hne, find?_cons_of_ne _ hne]
    · by_cases hk : compare k' k'' = .eq
      · rw [find?_cons_of_eq _ hk, find?_cons_of_eq _ hk]
      · rw [find?_cons_of_ne _ hk, find?_cons_of_ne _ hk]
        exact find?_insertList_of_ne h rest

/-- In bindings strictly increasing in key, a key after the first is not the first. -/
theorem find?_tail_eq_none {rest : List (K × V)}
    (h : ((k, v) :: rest).Pairwise fun a b => compare a.1 b.1 = .lt) (hk : compare k' k = .eq) :
    find? k' rest = none :=
  find?_eq_none fun e he => Std.TransCmp.lt_of_eq_of_lt hk ((List.pairwise_cons.mp h).1 e he)

/-- In bindings strictly increasing in key, the last binding of a key is its first. -/
theorem find?_reverse {l : List (K × V)} (h : l.Pairwise fun a b => compare a.1 b.1 = .lt) :
    find? k l.reverse = find? k l := by
  induction l with
  | nil => rfl
  | cons e l ih =>
    obtain ⟨k', v⟩ := e
    rw [List.reverse_cons, find?_append, ih (List.pairwise_cons.mp h).2]
    by_cases hk : compare k k' = .eq
    · rw [find?_tail_eq_none h hk, find?_cons_of_eq _ hk, find?_cons_of_eq _ hk]
      rfl
    · rw [find?_cons_of_ne _ hk, find?_cons_of_ne _ hk, find?_nil, Option.or_none]

variable [Std.LawfulEqOrd K]

/-- **What `insertList` binds**: the key inserted to its new value, every
other key as before. -/
theorem find?_insertList (l : List (K × V)) :
    find? k' (insertList k v l) = if compare k' k = .eq then some v else find? k' l := by
  split
  · next h =>
    obtain rfl := Std.LawfulEqCmp.eq_of_compare h
    exact find?_insertList_self l
  · next h => exact find?_insertList_of_ne h l

/-- **Bindings strictly increasing in key are determined by what they bind.** -/
theorem eq_of_find? :
    ∀ {l₁ l₂ : List (K × V)}, l₁.Pairwise (fun a b => compare a.1 b.1 = .lt) →
      l₂.Pairwise (fun a b => compare a.1 b.1 = .lt) → (∀ k, find? k l₁ = find? k l₂) → l₁ = l₂
  | [], [], _, _, _ => rfl
  | [], (k, v) :: _, _, _, h => by
    have := h k
    rw [find?_cons_of_eq _ Std.ReflCmp.compare_self] at this
    cases this
  | (k, v) :: _, [], _, _, h => by
    have := h k
    rw [find?_cons_of_eq _ Std.ReflCmp.compare_self] at this
    cases this
  | (k₁, v₁) :: r₁, (k₂, v₂) :: r₂, h₁, h₂, h => by
    have hv₁ := h k₁
    have hv₂ := h k₂
    rw [find?_cons_of_eq _ Std.ReflCmp.compare_self] at hv₁ hv₂
    -- the smaller of the two first keys would be bound in one list only
    cases hc : compare k₁ k₂ with
    | lt =>
      have hnone : find? k₁ ((k₂, v₂) :: r₂) = none := find?_eq_none fun e he => by
        rcases List.mem_cons.mp he with rfl | he
        · exact hc
        · exact Std.TransCmp.lt_trans hc ((List.pairwise_cons.mp h₂).1 e he)
      rw [hnone] at hv₁
      cases hv₁
    | gt =>
      have hnone : find? k₂ ((k₁, v₁) :: r₁) = none := find?_eq_none fun e he => by
        rcases List.mem_cons.mp he with rfl | he
        · exact Std.OrientedCmp.lt_of_gt hc
        · exact Std.TransCmp.lt_trans (Std.OrientedCmp.lt_of_gt hc) ((List.pairwise_cons.mp h₁).1 e he)
      rw [hnone] at hv₂
      cases hv₂
    | eq =>
      obtain rfl := Std.LawfulEqCmp.eq_of_compare hc
      rw [find?_cons_of_eq _ hc] at hv₁
      obtain rfl := Option.some.inj hv₁
      have hrest : ∀ k, find? k r₁ = find? k r₂ := by
        intro k
        by_cases hk : compare k k₁ = .eq
        · rw [find?_tail_eq_none h₁ hk, find?_tail_eq_none h₂ hk]
        · have := h k
          rwa [find?_cons_of_ne _ hk, find?_cons_of_ne _ hk] at this
      rw [eq_of_find? (List.pairwise_cons.mp h₁).2 (List.pairwise_cons.mp h₂).2 hrest]

end Bindings

section Map

variable {K V : Type} [Ord K] {k k' : K} {v : V}

/-- `BTreeMap::new`. -/
def empty : SortedMap K V := ⟨[], .nil⟩

/-- `BTreeMap::get`. -/
def get? (m : SortedMap K V) (k : K) : Option V := find? k m.toList

/-- `BTreeMap::len`. -/
def size (m : SortedMap K V) : Nat := m.toList.length

/-- `BTreeMap::insert`. -/
def insert [Std.TransOrd K] (m : SortedMap K V) (k : K) (v : V) : SortedMap K V :=
  ⟨insertList k v m.toList, ascending_insertList m.ascending⟩

@[simp] theorem get?_empty (k : K) : (empty : SortedMap K V).get? k = none := rfl

variable [Std.TransOrd K] [Std.LawfulEqOrd K]

theorem get?_insert (m : SortedMap K V) :
    (m.insert k v).get? k' = if compare k' k = .eq then some v else m.get? k' :=
  find?_insertList m.toList

/-- **Maps that bind the same keys to the same values are equal.** -/
theorem ext_get? {m₁ m₂ : SortedMap K V} (h : ∀ k, m₁.get? k = m₂.get? k) : m₁ = m₂ := by
  obtain ⟨l₁, h₁⟩ := m₁
  obtain ⟨l₂, h₂⟩ := m₂
  obtain rfl := eq_of_find? h₁ h₂ h
  rfl

/-- **Of bindings inserted one after another, the last one for a key wins**;
a key none of them binds keeps its value. -/
theorem get?_foldl_insert (k : K) :
    ∀ (l : List (K × V)) (m : SortedMap K V),
      (l.foldl (fun m e => m.insert e.1 e.2) m).get? k = (find? k l.reverse).or (m.get? k)
  | [], _ => rfl
  | (k', v') :: l, m => by
    rw [List.foldl_cons, get?_foldl_insert k l, List.reverse_cons, find?_append, Option.or_assoc, get?_insert]
    by_cases hk : compare k k' = .eq
    · rw [if_pos hk, find?_cons_of_eq _ hk]
      rfl
    · rw [if_neg hk, find?_cons_of_ne _ hk, find?_nil]
      rfl

/-- A map is what inserting its bindings in order into an empty one gives. -/
theorem foldl_insert_toList (m : SortedMap K V) :
    m.toList.foldl (fun m e => m.insert e.1 e.2) empty = m :=
  ext_get? fun k => by
    rw [get?_foldl_insert, get?_empty, Option.or_none, find?_reverse m.ascending]
    rfl

end Map

end SortedMap
