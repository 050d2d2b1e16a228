import Mathlib.Data.List.Perm.Basic
import Mathlib.Data.List.Nodup

/-!
# LruCache — a map that forgets its least recently used entry

A map with distinct keys whose entries are ordered by use, least recently
used first. Reading or writing an entry makes it the most recently used;
`insert` past the capacity drops the least recently used one. The keys stay
distinct by construction: it is a field of the structure.

The lemmas say what each operation does to the entries as a list (a
permutation, a removal, an entry added at the back), which is what an
invariant relating the cache to something outside it needs.
-/

/-- A cache of at most `capacity` entries, least recently used first. -/
structure LruCache (K V : Type) where
  capacity : Nat
  entries : List (K × V)
  nodup : (entries.map Prod.fst).Nodup

namespace LruCache

section Order

variable {K V : Type}

/-- An empty cache. -/
def new (capacity : Nat) : LruCache K V := ⟨capacity, [], List.nodup_nil⟩

def len (c : LruCache K V) : Nat := c.entries.length

def values (c : LruCache K V) : List V := c.entries.map Prod.snd

/-- `remove_lru`: take out the least recently used entry. -/
def removeLru : LruCache K V → Option (K × V) × LruCache K V
  | ⟨capacity, [], h⟩ => (none, ⟨capacity, [], h⟩)
  | ⟨capacity, e :: es, h⟩ => (some e, ⟨capacity, es, (List.nodup_cons.mp h).2⟩)

/-- `clear`. -/
def clear (c : LruCache K V) : LruCache K V := ⟨c.capacity, [], List.nodup_nil⟩

variable (c : LruCache K V)

@[simp] theorem capacity_clear : c.clear.capacity = c.capacity := rfl
@[simp] theorem values_clear : c.clear.values = [] := rfl
@[simp] theorem capacity_new (n : Nat) : (new n : LruCache K V).capacity = n := rfl
@[simp] theorem values_new (n : Nat) : (new n : LruCache K V).values = [] := rfl

@[simp] theorem capacity_removeLru : c.removeLru.2.capacity = c.capacity := by
  obtain ⟨capacity, es, h⟩ := c
  cases es <;> rfl

/-- The entry taken out is the front one, and the rest stay in order. -/
theorem removeLru_eq : c.removeLru.1 = c.entries.head? ∧ c.removeLru.2.entries = c.entries.tail := by
  obtain ⟨capacity, es, h⟩ := c
  cases es <;> exact ⟨rfl, rfl⟩

end Order

variable {K V : Type} [DecidableEq K]

/-- In entries of distinct keys, the entries of a key that is there are that
one entry. -/
theorem filter_key_eq_singleton {es : List (K × V)} (hnodup : (es.map Prod.fst).Nodup) {k : K}
    {v : V} (h : (k, v) ∈ es) : es.filter (fun e => !(e.1 != k)) = [(k, v)] := by
  induction es with
  | nil => cases h
  | cons e es ih =>
    rw [List.map_cons, List.nodup_cons] at hnodup
    rcases List.mem_cons.mp h with rfl | h
    · -- the entry is the head, and no later entry has its key
      have hrest : es.filter (fun e => !(e.1 != k)) = [] := by
        rw [List.filter_eq_nil_iff]
        intro e' he' hk
        have : e'.1 = k := by simpa using hk
        exact hnodup.1 (List.mem_map.mpr ⟨e', he', this⟩)
      simp [hrest]
    · have hne : e.1 ≠ k := fun hk => hnodup.1 (hk ▸ List.mem_map.mpr ⟨(k, v), h, rfl⟩)
      rw [List.filter_cons_of_neg (by simpa using hne)]
      exact ih hnodup.2 h

/-- The value of `k`, without touching the order. -/
def peek (c : LruCache K V) (k : K) : Option V := (c.entries.find? (·.1 == k)).map Prod.snd

def containsKey (c : LruCache K V) (k : K) : Bool := c.entries.any (·.1 == k)

theorem nodup_filter (c : LruCache K V) (k : K) : ((c.entries.filter (·.1 != k)).map Prod.fst).Nodup :=
  c.nodup.sublist (List.filter_sublist.map Prod.fst)

theorem nodup_filter_append (c : LruCache K V) (k : K) (v : V) :
    ((c.entries.filter (·.1 != k) ++ [(k, v)]).map Prod.fst).Nodup := by
  rw [List.map_append, List.nodup_append]
  refine ⟨c.nodup_filter k, List.nodup_singleton _, ?_⟩
  intro a ha b hb hab
  simp only [List.map_cons, List.map_nil, List.mem_singleton] at hb
  obtain ⟨e, he, rfl⟩ := List.mem_map.mp ha
  have := (List.mem_filter.mp he).2
  simp [hab, hb] at this

/-- The cache without the entry of `k`. -/
def erase (c : LruCache K V) (k : K) : LruCache K V :=
  ⟨c.capacity, c.entries.filter (·.1 != k), c.nodup_filter k⟩

/-- The cache with `(k, v)` as its most recently used entry, over the
capacity or not. -/
def push (c : LruCache K V) (k : K) (v : V) : LruCache K V :=
  ⟨c.capacity, c.entries.filter (·.1 != k) ++ [(k, v)], c.nodup_filter_append k v⟩

/-- `get_mut`: the value of `k`, which becomes the most recently used. -/
def getMut (c : LruCache K V) (k : K) : Option V × LruCache K V :=
  match c.peek k with
  | some v => (some v, c.push k v)
  | none => (none, c)

/-- `remove`: take out the entry of `k`. -/
def remove (c : LruCache K V) (k : K) : Option V × LruCache K V := (c.peek k, c.erase k)

/-- `insert`: `(k, v)` becomes the most recently used entry, and past the
capacity the least recently used one is dropped. Returns the old value of
`k`. -/
def insert (c : LruCache K V) (k : K) (v : V) : LruCache K V × Option V :=
  let c' := c.push k v
  (if c'.len > c.capacity then c'.removeLru.2 else c', c.peek k)

section Lemmas

variable (c : LruCache K V) (k : K) (v : V)

@[simp] theorem capacity_push : (c.push k v).capacity = c.capacity := rfl
@[simp] theorem capacity_erase : (c.erase k).capacity = c.capacity := rfl

theorem peek_eq_some_iff {k : K} {v : V} : c.peek k = some v ↔ (k, v) ∈ c.entries := by
  unfold peek
  constructor
  · intro h
    obtain ⟨e, he, rfl⟩ := Option.map_eq_some_iff.mp h
    have hk : e.1 = k := by simpa using List.find?_some he
    have hmem := List.mem_of_find?_eq_some he
    rw [← hk]
    exact hmem
  · intro h
    cases hfind : c.entries.find? (·.1 == k) with
    | none =>
      have := List.find?_eq_none.mp hfind _ h
      simp at this
    | some e =>
      have hk : e.1 = k := by simpa using List.find?_some hfind
      have he := List.mem_of_find?_eq_some hfind
      have heq : e = (k, v) := by
        apply List.inj_on_of_nodup_map c.nodup he h hk
      simp [heq]

theorem peek_eq_none_iff {k : K} : c.peek k = none ↔ k ∉ c.entries.map Prod.fst := by
  unfold peek
  rw [Option.map_eq_none_iff, List.find?_eq_none]
  constructor
  · intro h hk
    obtain ⟨e, he, rfl⟩ := List.mem_map.mp hk
    exact h e he (by simp)
  · intro h e he hk
    exact h (List.mem_map.mpr ⟨e, he, by simpa using hk⟩)

theorem containsKey_eq_false_iff {k : K} : c.containsKey k = false ↔ c.peek k = none := by
  rw [peek_eq_none_iff]
  simp only [containsKey, List.any_eq_false, beq_iff_eq, List.mem_map, not_exists, not_and]

/-- Moving an entry that is there to the back only reorders the entries. -/
theorem push_perm_of_mem {k : K} {v : V} (h : (k, v) ∈ c.entries) :
    (c.push k v).entries.Perm c.entries := by
  have hsplit := List.filter_append_perm (fun e : K × V => e.1 != k) c.entries
  rw [filter_key_eq_singleton c.nodup h] at hsplit
  exact hsplit

/-- Adding a key that is not there puts its entry at the back. -/
theorem push_of_not_mem {k : K} (h : k ∉ c.entries.map Prod.fst) (v : V) :
    (c.push k v).entries = c.entries ++ [(k, v)] := by
  simp only [push, List.append_cancel_right_eq]
  apply List.filter_eq_self.mpr
  intro e he
  have : e.1 ≠ k := fun hk => h (List.mem_map.mpr ⟨e, he, hk⟩)
  simpa using this

@[simp] theorem capacity_insert : (c.insert k v).1.capacity = c.capacity := by
  by_cases h : (c.push k v).len > c.capacity
  · simp only [insert, if_pos h]
    exact (c.push k v).capacity_removeLru
  · simp only [insert, if_neg h]
    rfl

/-- `insert` of a new key below the capacity adds its entry at the back and
drops nothing. -/
theorem insert_of_not_mem {k : K} (h : k ∉ c.entries.map Prod.fst) (hlt : c.len < c.capacity) (v : V) :
    (c.insert k v).1.entries = c.entries ++ [(k, v)] ∧ (c.insert k v).2 = none := by
  have hpush := c.push_of_not_mem h v
  have hlen : ¬ (c.push k v).len > c.capacity := by
    simp only [len, hpush, List.length_append, List.length_singleton] at hlt ⊢
    omega
  simp only [insert, if_neg hlen]
  exact ⟨hpush, (c.peek_eq_none_iff).mpr h⟩

/-- `get_mut` of a key that is there only reorders the entries. -/
theorem getMut_of_mem {k : K} {v : V} (h : (k, v) ∈ c.entries) :
    (c.getMut k).1 = some v ∧ (c.getMut k).2.entries.Perm c.entries ∧
      (c.getMut k).2.capacity = c.capacity := by
  have hpeek := (c.peek_eq_some_iff).mpr h
  simp only [getMut, hpeek, true_and]
  exact ⟨c.push_perm_of_mem h, rfl⟩

theorem getMut_of_not_mem {k : K} (h : k ∉ c.entries.map Prod.fst) : c.getMut k = (none, c) := by
  have hpeek := (c.peek_eq_none_iff).mpr h
  simp only [getMut, hpeek]

end Lemmas

end LruCache
