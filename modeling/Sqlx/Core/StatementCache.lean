import Sqlx.Lib.LruCache

/-!
# `StatementCache` — the prepared statements a connection keeps

`common/statement_cache.rs` of `sqlx-core`: an LRU cache from SQL text to a
prepared statement. `insert` makes room before it inserts. A full cache gives
up its least recently used statement and a key already there gives up its old
statement, and `insert` returns it for the driver to close.

`insert_of_full` and `insert_of_not_full` say what an insert of a new SQL
does, which is what the drivers rely on; each keeps `len ≤ capacity`.
-/

namespace Sqlx

/-- `StatementCache<T>`, over hashlink's `LruCache` keyed by the SQL. -/
structure StatementCache (T : Type) where
  inner : LruCache String T

namespace StatementCache

variable {T : Type}

/-- `StatementCache::new`. -/
def new (capacity : Nat) : StatementCache T := ⟨LruCache.new capacity⟩

/-- `get_mut`: the statement of `k`, which becomes the most recently used. -/
def getMut (self : StatementCache T) (k : String) : Option T × StatementCache T :=
  ((self.inner.getMut k).1, ⟨(self.inner.getMut k).2⟩)

def len (self : StatementCache T) : Nat := self.inner.len

def capacity (self : StatementCache T) : Nat := self.inner.capacity

def containsKey (self : StatementCache T) (k : String) : Bool := self.inner.containsKey k

/-- `remove_lru`. -/
def removeLru (self : StatementCache T) : Option T × StatementCache T :=
  (self.inner.removeLru.1.map Prod.snd, ⟨self.inner.removeLru.2⟩)

/-- `clear`. -/
def clear (self : StatementCache T) : StatementCache T := ⟨self.inner.clear⟩

/-- `is_enabled`: the capacity is more than 0. -/
def isEnabled (self : StatementCache T) : Bool := decide (self.capacity > 0)

/-- `insert`: the statement given back is the least recently used one when
the cache is full, or the one replaced when `k` was there. -/
def insert (self : StatementCache T) (k : String) (v : T) : StatementCache T × Option T :=
  if self.capacity == self.len && !self.containsKey k then
    (⟨(self.removeLru.2.inner.insert k v).1⟩, self.removeLru.1)
  else if self.containsKey k then
    (⟨((self.inner.remove k).2.insert k v).1⟩, (self.inner.remove k).1)
  else (⟨(self.inner.insert k v).1⟩, none)

/-- The statements held, least recently used first. -/
def values (self : StatementCache T) : List T := self.inner.values

@[simp] theorem values_new (n : Nat) : (new n : StatementCache T).values = [] := rfl
@[simp] theorem capacity_new (n : Nat) : (new n : StatementCache T).capacity = n := rfl
@[simp] theorem values_clear (self : StatementCache T) : self.clear.values = [] := rfl
@[simp] theorem capacity_clear (self : StatementCache T) : self.clear.capacity = self.capacity := rfl

theorem length_values (self : StatementCache T) : self.values.length = self.len := by
  simp [values, len, LruCache.values, LruCache.len]

/-- `remove_lru` gives up the front statement and keeps the others in order. -/
theorem removeLru_eq (self : StatementCache T) :
    self.removeLru.1 = self.values.head? ∧ self.removeLru.2.values = self.values.tail ∧
      self.removeLru.2.capacity = self.capacity := by
  obtain ⟨h₁, h₂⟩ := self.inner.removeLru_eq
  refine ⟨?_, ?_, self.inner.capacity_removeLru⟩
  · simp only [removeLru, h₁, values, LruCache.values, List.head?_map]
  · simp only [removeLru, values, LruCache.values, h₂, List.map_tail]

/-- A hit only reorders the statements. -/
theorem getMut_of_some {self : StatementCache T} {k : String} {v : T} (h : (self.getMut k).1 = some v) :
    (self.getMut k).2.values.Perm self.values ∧ (self.getMut k).2.capacity = self.capacity ∧
      v ∈ self.values := by
  cases hpeek : self.inner.peek k with
  | none =>
    have hnot := (self.inner.peek_eq_none_iff).mp hpeek
    rw [getMut, LruCache.getMut_of_not_mem _ hnot] at h
    cases h
  | some w =>
    have hmem := (self.inner.peek_eq_some_iff).mp hpeek
    obtain ⟨hv, hperm, hcap⟩ := self.inner.getMut_of_mem hmem
    rw [getMut, hv] at h
    cases h
    exact ⟨hperm.map Prod.snd, hcap, List.mem_map.mpr ⟨_, hmem, rfl⟩⟩

/-- A miss leaves the cache as it was, without the key. -/
theorem getMut_of_none {self : StatementCache T} {k : String} (h : (self.getMut k).1 = none) :
    (self.getMut k).2 = self ∧ self.containsKey k = false := by
  cases hpeek : self.inner.peek k with
  | none =>
    have hnot := (self.inner.peek_eq_none_iff).mp hpeek
    refine ⟨?_, (self.inner.containsKey_eq_false_iff).mpr hpeek⟩
    simp only [getMut, LruCache.getMut_of_not_mem _ hnot]
  | some w =>
    have hmem := (self.inner.peek_eq_some_iff).mp hpeek
    rw [getMut, (self.inner.getMut_of_mem hmem).1] at h
    cases h

variable {self : StatementCache T} {k : String}

/-- A new SQL into a full cache: the least recently used statement is given
back and the new one goes to the back. -/
theorem insert_of_full (hk : self.containsKey k = false) (hpos : 0 < self.capacity)
    (hfull : self.len = self.capacity) (v : T) :
    (self.insert k v).2 = self.values.head? ∧ (self.insert k v).1.values = self.values.tail ++ [v] ∧
      (self.insert k v).1.capacity = self.capacity := by
  have hcond : (self.capacity == self.len && !self.containsKey k) = true := by simp [hfull, hk]
  obtain ⟨hlru, htail⟩ := self.inner.removeLru_eq
  -- the cache without its front entry has room, and still lacks the key
  have hnot := (self.inner.peek_eq_none_iff).mp ((self.inner.containsKey_eq_false_iff).mp hk)
  have hnot' : k ∉ self.removeLru.2.inner.entries.map Prod.fst := by
    intro hmem
    simp only [removeLru, htail] at hmem
    exact hnot ((List.tail_sublist _).map Prod.fst |>.subset hmem)
  have hroom : self.removeLru.2.inner.len < self.removeLru.2.inner.capacity := by
    simp only [removeLru, LruCache.len, htail, List.length_tail, LruCache.capacity_removeLru]
    simp only [len, capacity, LruCache.len] at hfull hpos
    omega
  obtain ⟨hentries, -⟩ := self.removeLru.2.inner.insert_of_not_mem hnot' hroom v
  simp only [insert, hcond, if_true]
  refine ⟨(self.removeLru_eq).1, ?_, ?_⟩
  · simp only [values, LruCache.values, hentries, List.map_append, List.map_cons, List.map_nil]
    simp only [removeLru, htail, List.map_tail]
  · simp [capacity, removeLru]

/-- A new SQL into a cache with room: nothing is given back. -/
theorem insert_of_not_full (hk : self.containsKey k = false) (hroom : self.len < self.capacity) (v : T) :
    (self.insert k v).2 = none ∧ (self.insert k v).1.values = self.values ++ [v] ∧
      (self.insert k v).1.capacity = self.capacity := by
  have hne : (self.capacity == self.len) = false := by simp; omega
  have hnot := (self.inner.peek_eq_none_iff).mp ((self.inner.containsKey_eq_false_iff).mp hk)
  obtain ⟨hentries, hold⟩ := self.inner.insert_of_not_mem hnot hroom v
  simp only [insert, hne, Bool.false_and, Bool.false_eq_true, if_false, hk, true_and]
  refine ⟨?_, by simp [capacity]⟩
  simp [values, LruCache.values, hentries]

end StatementCache

end Sqlx
