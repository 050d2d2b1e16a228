import Sqlx.Lib.Slots
import Sqlx.Lib.Panic

/-!
# SQLite — `IntMap`, the registers and cursors of the `EXPLAIN` walk (`connection/intmap.rs`)

`IntMap<V>` is a `Vec<Option<V>>` indexed by the key. Writing a key past the
end first pushes `None` slots up to it (`expand`), and nothing ever shrinks
the vector, so two maps with the same entries may have vectors of different
lengths. Equality, the hash and `diff` each make up for that in their own
way: `==` compares the common prefix and asks the longer tail to be all
`None`, the hash feeds only the values present, and `diff` pads the shorter
side with `None`.

A key is an `i64` turned into a `usize` by `try_into().expect(..)`: a
negative key panics (`none`); on a 64-bit target every other key fits.

What the map is for is a map from the keys to values, `lookup`, the slots
read by `Slots.get`: `applyAll_of_nonneg` says that a run of `insert`,
`remove` and `get_mut_or_default` changes it as updates of that function do,
`eq_iff` that `==` is agreement of `get` on every key, `hash_eq_of_eq` that
equal maps hash alike, and `diff_spec` what `diff` lists.
-/

namespace Sqlx.Sqlite

/-- `i64 → usize`, `try_into().expect("negative column index unsupported")`. -/
def toIndex (idx : Int) : Option Nat := if 0 ≤ idx then some idx.toNat else none

theorem toIndex_of_nonneg {idx : Int} (h : 0 ≤ idx) : toIndex idx = some idx.toNat := if_pos h

/-- `IntMap<V>`: slot `i` holds the value of key `i`, if any. -/
structure IntMap (V : Type) where
  slots : List (Option V)
  deriving DecidableEq

namespace IntMap

variable {V : Type}

/-- `IntMap::new`. -/
def new : IntMap V := ⟨[]⟩

/-- `expand`: `None` slots pushed until slot `size` exists. -/
def expand (self : IntMap V) (size : Int) : Option (IntMap V × Nat) := do
  let idx ← toIndex size
  pure (⟨self.slots ++ List.replicate (idx + 1 - self.slots.length) none⟩, idx)

/-- `values`: the values present, in key order. -/
def values (self : IntMap V) : List V := Slots.values self.slots

/-- `get`. -/
def get (self : IntMap V) (idx : Int) : Option (Option V) := do
  let idx ← toIndex idx
  pure (match self.slots[idx]? with
    | some (some v) => some v
    | _ => none)

/-- `insert`: the slot made, then `std::mem::replace(&mut self.0[idx], Some(value))`. -/
def insert (self : IntMap V) (idx : Int) (value : V) : Option (IntMap V × Option V) := do
  let (self, idx) ← self.expand idx
  let old ← self.slots[idx]?
  pure (⟨self.slots.set idx (some value)⟩, old)

/-- `remove`: the slot taken, when there is one. -/
def remove (self : IntMap V) (idx : Int) : Option (IntMap V × Option V) := do
  let idx ← toIndex idx
  match self.slots[idx]? with
  | some content => pure (⟨self.slots.set idx none⟩, content)
  | none => pure (self, none)

/-- `get_mut_or_default`: the slot made, a default value put in it when it
is empty, and the value it then holds, through `as_mut().unwrap()`. -/
def getMutOrDefault [Inhabited V] (self : IntMap V) (idx : Int) : Option (IntMap V × V) := do
  let (self, idx) ← self.expand idx
  let item ← self.slots[idx]?
  let self : IntMap V := if item.isNone then ⟨self.slots.set idx (some default)⟩ else self
  let value ← (← self.slots[idx]?)
  pure (self, value)

/-- `FromIterator::from_iter`: each pair's slot made, then set. -/
def fromIter (iter : List (Int × V)) : Option (IntMap V) :=
  iter.foldlM (fun result (idx, val) => do
    let (result, idx) ← result.expand idx
    -- `result.0[idx] = Some(val)`: `expand` made the slot
    pure ⟨result.slots.set idx (some val)⟩) new

/-- `get_mut`, and a write through the reference it hands back when the key
has a value; the write may itself panic. -/
def modifyAt (self : IntMap V) (idx : Int) (f : V → Option V) : Option (IntMap V) := do
  let idx ← toIndex idx
  match self.slots[idx]? with
  | some (some v) => do
    let v ← f v
    pure ⟨self.slots.set idx (some v)⟩
  | _ => pure self

/-- `values_mut`, each value changed in place. -/
def mapValues (f : V → V) (self : IntMap V) : IntMap V := ⟨self.slots.map (Option.map f)⟩

/-- `from_elem`: `len` slots, each holding `elem`. -/
def fromElem (elem : V) (len : Nat) : IntMap V := ⟨List.replicate len (some elem)⟩

/-- `from_dense_record`: the record's values under the keys `0, 1, …`. -/
def fromDenseRecord (record : List V) : IntMap V := ⟨record.map some⟩

/-- `PartialEq::eq`: by the lengths, the longer one's prefix `==` the shorter
one and its tail all `None`, or the two vectors `==`. -/
def eq [BEq V] (self other : IntMap V) : Bool :=
  match compare self.slots.length other.slots.length with
  | .gt => self.slots.take other.slots.length == other.slots && (self.slots.drop other.slots.length).all Option.isNone
  | .lt => other.slots.take self.slots.length == self.slots && (other.slots.drop self.slots.length).all Option.isNone
  | .eq => self.slots == other.slots

/-- `Hash::hash`, into a hasher that takes a value at a time: the values
present, in key order, and not their keys. -/
def hash {H : Type} (write : H → V → H) (self : IntMap V) (state : H) : H :=
  self.values.foldl write state

/-- `diff`: the slots of `self`, padded with `None` to the length of `prev`,
beside those of `prev` followed by `None` for ever; the indices where they
differ, with the slot of `self`. -/
def diff [BEq V] (self prev : IntMap V) : List (Nat × Option V) :=
  let selfPad := if prev.slots.length > self.slots.length then prev.slots.length - self.slots.length else 0
  let left := self.slots ++ List.replicate selfPad none
  -- `prev.iter().chain(repeat(None))`, which `zip` cuts to the length of `left`
  let right := prev.slots ++ List.replicate (left.length - prev.slots.length) none
  ((left.zip right).zipIdx.filter fun ((n, p), _) => n != p).map fun ((n, _), i) => (i, n)

/-! ## The map it stands for -/

/-- The value of key `i`. -/
def lookup (self : IntMap V) (i : Nat) : Option V := Slots.get self.slots i

@[simp] theorem lookup_new (i : Nat) : (new : IntMap V).lookup i = none := rfl

section Spec

variable (self : IntMap V) {idx : Int}

theorem get_of_nonneg (h : 0 ≤ idx) : self.get idx = some (self.lookup idx.toNat) := by
  simp only [get, toIndex_of_nonneg h, Option.bind_eq_bind, Option.bind_some, lookup, Slots.get]
  congr 1
  rcases self.slots[idx.toNat]? with _ | _ | v <;> rfl

/-- `expand` on a key in range: slot `idx` exists, and the map is the same. -/
theorem expand_of_nonneg (h : 0 ≤ idx) :
    ∃ grown, self.expand idx = some (grown, idx.toNat) ∧ idx.toNat < grown.slots.length ∧
      grown.lookup = self.lookup := by
  refine ⟨_, by simp only [expand, toIndex_of_nonneg h, Option.bind_eq_bind, Option.bind_some]; rfl, ?_, ?_⟩
  · rw [List.length_append, List.length_replicate]
    omega
  · funext i
    exact Slots.get_append_replicate_none _ _ _

theorem insert_of_nonneg (h : 0 ≤ idx) (value : V) :
    ∃ m, self.insert idx value = some (m, self.lookup idx.toNat) ∧
      m.lookup = Function.update self.lookup idx.toNat (some value) := by
  obtain ⟨grown, hexp, hlt, hlook⟩ := expand_of_nonneg self h
  refine ⟨⟨grown.slots.set idx.toNat (some value)⟩, ?_, ?_⟩
  · simp only [insert, hexp, Option.bind_eq_bind, Option.bind_some, Slots.getElem?_of_lt hlt]
    rw [← hlook]
    rfl
  · funext i
    by_cases hi : i = idx.toNat
    · subst hi
      rw [Function.update_self]
      exact Slots.get_set_self hlt _
    · rw [Function.update_of_ne hi, ← hlook]
      exact Slots.get_set_ne (Ne.symm hi) _

theorem remove_of_nonneg (h : 0 ≤ idx) :
    ∃ m, self.remove idx = some (m, self.lookup idx.toNat) ∧
      m.lookup = Function.update self.lookup idx.toNat none := by
  by_cases hlt : idx.toNat < self.slots.length
  · refine ⟨⟨self.slots.set idx.toNat none⟩, ?_, ?_⟩
    · simp only [remove, toIndex_of_nonneg h, Option.bind_eq_bind, Option.bind_some, Slots.getElem?_of_lt hlt]
      rfl
    · funext i
      by_cases hi : i = idx.toNat
      · subst hi
        rw [Function.update_self]
        exact Slots.get_set_self hlt _
      · rw [Function.update_of_ne hi]
        exact Slots.get_set_ne (Ne.symm hi) _
  · -- no slot: nothing to take, and the key was already unbound
    have hnone : self.lookup idx.toNat = none := Slots.get_of_length_le (Nat.le_of_not_lt hlt)
    refine ⟨self, ?_, ?_⟩
    · simp only [remove, toIndex_of_nonneg h, Option.bind_eq_bind, Option.bind_some,
        List.getElem?_eq_none (Nat.le_of_not_lt hlt), hnone]
      rfl
    · rw [← hnone, Function.update_eq_self]

theorem getMutOrDefault_of_nonneg [Inhabited V] (h : 0 ≤ idx) :
    ∃ m, self.getMutOrDefault idx = some (m, (self.lookup idx.toNat).getD default) ∧
      m.lookup = Function.update self.lookup idx.toNat (some ((self.lookup idx.toNat).getD default)) := by
  obtain ⟨grown, hexp, hlt, hlook⟩ := expand_of_nonneg self h
  rw [← hlook]
  cases hslot : grown.lookup idx.toNat with
  | none =>
    -- an empty slot takes the default value
    refine ⟨⟨grown.slots.set idx.toNat (some default)⟩, ?_, ?_⟩
    · have hset : (grown.slots.set idx.toNat (some default))[idx.toNat]? = some (some default) := by
        rw [Slots.getElem?_of_lt (by rwa [List.length_set]), Slots.get_set_self hlt]
      simp only [lookup] at hslot
      simp only [getMutOrDefault, hexp, Option.bind_eq_bind, Option.bind_some, Slots.getElem?_of_lt hlt, hslot,
        Option.isNone_none, if_true, hset, Option.getD_none, Option.pure_def]
    · funext i
      by_cases hi : i = idx.toNat
      · subst hi
        rw [Function.update_self]
        exact Slots.get_set_self hlt _
      · rw [Function.update_of_ne hi]
        exact Slots.get_set_ne (Ne.symm hi) _
  | some v =>
    -- a value already there is the one handed out, and stays
    refine ⟨grown, ?_, ?_⟩
    · simp only [lookup] at hslot
      simp only [getMutOrDefault, hexp, Option.bind_eq_bind, Option.bind_some, Slots.getElem?_of_lt hlt, hslot,
        Option.isNone_some, Bool.false_eq_true, if_false, Option.getD_some, Option.pure_def]
    · rw [Option.getD_some, ← hslot, Function.update_eq_self]

end Spec

/-! ## Runs of writes -/

/-- A change of the map by one of its methods: `getMutOrDefault idx update`
is `get_mut_or_default` followed by the caller's change through the
`&mut V` it returns. -/
inductive Op (V : Type) where
  | insert (idx : Int) (value : V)
  | remove (idx : Int)
  | getMutOrDefault (idx : Int) (update : V → V)

/-- The key an operation writes. -/
def Op.idx : Op V → Int
  | .insert idx _ => idx
  | .remove idx => idx
  | .getMutOrDefault idx _ => idx

/-- The operation on the map; the write through the reference replaces the
content of the slot `get_mut_or_default` made. -/
def apply [Inhabited V] (self : IntMap V) : Op V → Option (IntMap V)
  | .insert idx value => (·.1) <$> self.insert idx value
  | .remove idx => (·.1) <$> self.remove idx
  | .getMutOrDefault idx update => do
    let (self, value) ← self.getMutOrDefault idx
    (·.1) <$> self.insert idx (update value)

/-- The operations one after another. -/
def applyAll [Inhabited V] (self : IntMap V) (ops : List (Op V)) : Option (IntMap V) := ops.foldlM apply self

/-- What an operation does to the map it stands for: the key written takes
the value written, or none, and every other key keeps its value. -/
def Op.write [Inhabited V] (f : Nat → Option V) : Op V → Nat → Option V
  | .insert idx value => Function.update f idx.toNat (some value)
  | .remove idx => Function.update f idx.toNat none
  | .getMutOrDefault idx update => Function.update f idx.toNat (some (update ((f idx.toNat).getD default)))

section Runs

variable [Inhabited V]

/-- One operation on a key in range: it does not panic, and it writes the map
as `Op.write` says. -/
theorem apply_of_nonneg (self : IntMap V) (op : Op V) (h : 0 ≤ op.idx) :
    ∃ m, self.apply op = some m ∧ m.lookup = Op.write self.lookup op := by
  simp only [Op.idx] at h
  cases op with
  | insert idx value =>
    obtain ⟨m, hrun, hlook⟩ := insert_of_nonneg self h value
    exact ⟨m, by rw [apply, hrun]; rfl, hlook⟩
  | remove idx =>
    obtain ⟨m, hrun, hlook⟩ := remove_of_nonneg self h
    exact ⟨m, by rw [apply, hrun]; rfl, hlook⟩
  | getMutOrDefault idx update =>
    obtain ⟨m₁, hrun₁, hlook₁⟩ := getMutOrDefault_of_nonneg self h
    obtain ⟨m₂, hrun₂, hlook₂⟩ := insert_of_nonneg m₁ h (update ((self.lookup idx.toNat).getD default))
    refine ⟨m₂, ?_, ?_⟩
    · simp only [apply, hrun₁, Option.bind_eq_bind, Option.bind_some, hrun₂]
      rfl
    · rw [hlook₂, hlook₁, Function.update_idem]
      rfl

/-- A run of operations on keys in range: it does not panic, and the map
ends as the updates, one after another, say. -/
theorem applyAll_of_nonneg : ∀ (ops : List (Op V)) (self : IntMap V), (∀ op ∈ ops, 0 ≤ op.idx) →
    ∃ m, self.applyAll ops = some m ∧ m.lookup = ops.foldl Op.write self.lookup
  | [], self, _ => ⟨self, rfl, rfl⟩
  | op :: ops, self, h => by
    obtain ⟨m₁, hrun₁, hlook₁⟩ := apply_of_nonneg self op (h op List.mem_cons_self)
    obtain ⟨m, hrun, hlook⟩ := applyAll_of_nonneg ops m₁ fun o ho => h o (List.mem_cons_of_mem op ho)
    refine ⟨m, ?_, ?_⟩
    · rw [applyAll, List.foldlM_cons, hrun₁, Option.bind_eq_bind, Option.bind_some]
      exact hrun
    · rw [hlook, hlook₁, List.foldl_cons]

/-- `from_iter` of pairs with keys in range does not panic, and builds the
map their inserts into an empty one would. -/
theorem fromIter_of_nonneg (iter : List (Int × V)) (h : ∀ p ∈ iter, 0 ≤ p.1) :
    ∃ m, fromIter iter = some m ∧
      m.lookup = (iter.map fun p => Op.insert p.1 p.2).foldl Op.write (fun _ => none) := by
  unfold fromIter
  -- the walk from any start, the start's map carried along
  suffices hwalk : ∀ (start : IntMap V), ∃ m, iter.foldlM (fun result (idx, val) => do
      let (result, idx) ← result.expand idx
      pure ⟨result.slots.set idx (some val)⟩) start = some m ∧
      m.lookup = (iter.map fun p => Op.insert p.1 p.2).foldl Op.write start.lookup from hwalk new
  induction iter with
  | nil => exact fun start => ⟨start, rfl, rfl⟩
  | cons p iter ih =>
    intro start
    obtain ⟨idx, val⟩ := p
    obtain ⟨grown, hexp, hlt, hlook⟩ := expand_of_nonneg start (h (idx, val) List.mem_cons_self)
    obtain ⟨m, hrun, hm⟩ := ih (fun q hq => h q (List.mem_cons_of_mem _ hq)) ⟨grown.slots.set idx.toNat (some val)⟩
    refine ⟨m, ?_, ?_⟩
    · rw [List.foldlM_cons]
      simp only [hexp, Option.bind_eq_bind, Option.bind_some, Option.pure_def]
      exact hrun
    · rw [hm, List.map_cons, List.foldl_cons]
      congr 1
      funext i
      by_cases hi : i = idx.toNat
      · subst hi
        rw [Op.write, Function.update_self]
        exact Slots.get_set_self hlt _
      · rw [Op.write, Function.update_of_ne hi, ← hlook]
        exact Slots.get_set_ne (Ne.symm hi) _

end Runs

/-! ## Equality, hash and `diff` -/

section Compare

variable [BEq V]

/-- `get` agreeing on every key in range is the map agreeing everywhere. -/
theorem forall_get_beq_iff (a b : IntMap V) :
    (∀ k : Int, 0 ≤ k → (a.get k == b.get k) = true) ↔ ∀ i, (a.lookup i == b.lookup i) = true := by
  constructor
  · intro h i
    have hi := h i (Int.natCast_nonneg i)
    rwa [get_of_nonneg _ (Int.natCast_nonneg i), get_of_nonneg _ (Int.natCast_nonneg i), Option.some_beq_some,
      Int.toNat_natCast] at hi
  · intro h k hk
    rw [get_of_nonneg _ hk, get_of_nonneg _ hk, Option.some_beq_some]
    exact h k.toNat

/-- `==` is agreement of every key, whatever the lengths of the vectors,
for an `==` on the values that is symmetric, as `PartialEq` must be. -/
theorem eq_iff [PartialEquivBEq V] (a b : IntMap V) :
    a.eq b = true ↔ ∀ i, (a.lookup i == b.lookup i) = true := by
  unfold eq lookup
  split
  · -- `a` the longer
    rename_i hgt
    exact Slots.prefix_beq_and_all_isNone_iff (Nat.le_of_lt (Nat.compare_eq_gt.1 hgt))
  · -- `b` the longer, compared the other way round
    rename_i hlt
    rw [Slots.prefix_beq_and_all_isNone_iff (Nat.le_of_lt (Nat.compare_eq_lt.1 hlt))]
    exact ⟨fun h i => Slots.beq_symm (h i), fun h i => Slots.beq_symm (h i)⟩
  · rename_i heq
    exact Slots.beq_iff_get (Nat.compare_eq_eq.1 heq)

/-- Equal maps feed a hasher the same values, for a hasher that takes values
`==` alike, as `Hash` must with `Eq`. -/
theorem hash_eq_of_eq [PartialEquivBEq V] {H : Type} (write : H → V → H)
    (hwrite : ∀ state x y, (x == y) = true → write state x = write state y) {a b : IntMap V}
    (heq : a.eq b = true) (state : H) : a.hash write state = b.hash write state :=
  Slots.foldl_eq_of_forall₂ hwrite state (Slots.forall₂_values ((eq_iff a b).1 heq))

/-- What `diff` lists: a key where the two maps differ, with the value of the
first. -/
theorem mem_diff_iff (a b : IntMap V) (i : Nat) (v : Option V) :
    (i, v) ∈ a.diff b ↔ (a.lookup i != b.lookup i) = true ∧ v = a.lookup i := by
  simp only [diff, List.mem_map, List.mem_filter, Prod.exists, Prod.mk.injEq, List.mk_mem_zipIdx_iff_getElem?,
    List.getElem?_zip_eq_some, Slots.getElem?_append_replicate_none, List.length_append, List.length_replicate]
  constructor
  · rintro ⟨n, p, j, ⟨⟨hn, hp⟩, hne⟩, rfl, rfl⟩
    split at hn <;> split at hp <;> simp_all [lookup]
  · rintro ⟨hne, rfl⟩
    -- a key where the maps differ lies inside the longer vector
    have hin : i < a.slots.length + (if b.slots.length > a.slots.length then b.slots.length - a.slots.length else 0) := by
      by_contra hout
      have ha : a.lookup i = none := Slots.get_of_length_le (by split at hout <;> omega)
      have hb : b.lookup i = none := Slots.get_of_length_le (by split at hout <;> omega)
      rw [ha, hb] at hne
      simp [bne] at hne
    refine ⟨a.lookup i, b.lookup i, i, ⟨⟨?_, ?_⟩, hne⟩, rfl, rfl⟩
    · rw [if_pos hin]
      rfl
    · rw [if_pos (by omega)]
      rfl

/-- `diff` lists the keys in increasing order. -/
theorem diff_pairwise (a b : IntMap V) : (a.diff b).Pairwise fun x y => x.1 < y.1 := by
  unfold diff
  rw [List.pairwise_map]
  exact (Slots.pairwise_snd_lt_zipIdx _).filter _

end Compare

/-! ## Maps whose every value satisfies a property

`All P m` says that every value `m` holds satisfies `P`. Writes of values
satisfying `P` at keys in range keep it, and do not panic. -/

section All

open Panic

/-- Every value the map holds satisfies `P`. -/
def All (P : V → Prop) (self : IntMap V) : Prop := ∀ i v, self.lookup i = some v → P v

variable {P : V → Prop} {self : IntMap V} {idx : Int}

theorem All.new : All P (new : IntMap V) := fun _ _ h => by cases h

theorem insert_ends (h : 0 ≤ idx) (hm : All P self) {value : V} (hv : P value) :
    Ends (self.insert idx value) fun res => All P res.1 := by
  obtain ⟨m, hrun, hlook⟩ := insert_of_nonneg self h value
  refine ⟨_, hrun, fun i v hi => ?_⟩
  rw [hlook] at hi
  by_cases hidx : i = idx.toNat
  · subst hidx
    rw [Function.update_self] at hi
    cases hi
    exact hv
  · rw [Function.update_of_ne hidx] at hi
    exact hm i v hi

theorem remove_ends (h : 0 ≤ idx) (hm : All P self) : Ends (self.remove idx) fun res => All P res.1 := by
  obtain ⟨m, hrun, hlook⟩ := remove_of_nonneg self h
  refine ⟨_, hrun, fun i v hi => ?_⟩
  rw [hlook] at hi
  by_cases hidx : i = idx.toNat
  · subst hidx
    rw [Function.update_self] at hi
    cases hi
  · rw [Function.update_of_ne hidx] at hi
    exact hm i v hi

/-- A write through `get_mut` at a key in range, of a new value satisfying
`Q` in a map whose values satisfy `P`, a property that implies `Q`: it does
not panic and leaves every value satisfying `Q`. -/
theorem modifyAt_ends {Q : V → Prop} {f : V → Option V} (h : 0 ≤ idx) (hm : All P self) (hPQ : ∀ v, P v → Q v)
    (hf : ∀ v, P v → Ends (f v) Q) : Ends (self.modifyAt idx f) (All Q) := by
  simp only [modifyAt, toIndex_of_nonneg h, Option.bind_eq_bind, Option.bind_some]
  split
  · rename_i v hslot
    have hlt : idx.toNat < self.slots.length := (List.getElem?_eq_some_iff.1 hslot).1
    have hv : self.lookup idx.toNat = some v := by rw [lookup, Slots.get, hslot, Option.join_some]
    refine (hf v (hm _ _ hv)).bind fun v' hv' => Ends.pure ?_
    intro i w hw
    by_cases hi : i = idx.toNat
    · subst hi
      rw [lookup, Slots.get_set_self hlt] at hw
      cases hw
      exact hv'
    · rw [lookup, Slots.get_set_ne (Ne.symm hi)] at hw
      exact hPQ w (hm i w hw)
  · exact Ends.pure fun i w hw => hPQ w (hm i w hw)

theorem All.mapValues {f : V → V} (hf : ∀ v, P v → P (f v)) (hm : All P self) : All P (self.mapValues f) := by
  intro i v hv
  simp only [lookup, IntMap.mapValues, Slots.get, List.getElem?_map] at hv
  rcases hslot : self.slots[i]? with _ | _ | w <;> rw [hslot] at hv <;> simp only [Option.map_none,
    Option.map_some, Option.join_none, Option.join_some, reduceCtorEq, Option.some.injEq] at hv
  subst hv
  exact hf w (hm i w (by rw [lookup, Slots.get, hslot, Option.join_some]))

theorem All.fromElem {elem : V} (h : P elem) (len : Nat) : All P (IntMap.fromElem elem len) := by
  intro i v hv
  simp only [lookup, IntMap.fromElem, Slots.get, List.getElem?_replicate] at hv
  split at hv
  · cases hv
    exact h
  · cases hv

theorem All.fromDenseRecord {record : List V} (h : ∀ v ∈ record, P v) : All P (IntMap.fromDenseRecord record) := by
  intro i v hv
  simp only [lookup, IntMap.fromDenseRecord, Slots.get, List.getElem?_map] at hv
  rcases hslot : record[i]? with _ | w <;> rw [hslot] at hv <;> simp only [Option.map_none,
    Option.map_some, Option.join_none, Option.join_some, reduceCtorEq, Option.some.injEq] at hv
  subst hv
  exact h w (List.mem_of_getElem? hslot)

end All

end IntMap

open IntMap in
/-- `IntMap` is a map from the keys in range: a run of `insert`, `remove`
and `get_mut_or_default`, or a `from_iter`, leaves every key with the value
last written to it; `==` is agreement of `get` on every key; equal maps hash
alike; and `diff` lists, in increasing order, the keys where two maps
differ, with the first one's value. -/
theorem int_map_is_extensional_map {V : Type} [Inhabited V] [BEq V] [PartialEquivBEq V] :
    (∀ (m : IntMap V) (ops : List (Op V)), (∀ op ∈ ops, 0 ≤ op.idx) →
      ∃ m', m.applyAll ops = some m' ∧ ∀ k : Int, 0 ≤ k → m'.get k = some (ops.foldl Op.write m.lookup k.toNat)) ∧
    (∀ iter : List (Int × V), (∀ p ∈ iter, 0 ≤ p.1) →
      ∃ m, fromIter iter = some m ∧ ∀ k : Int, 0 ≤ k →
        m.get k = some ((iter.map fun p => Op.insert p.1 p.2).foldl Op.write (fun _ => none) k.toNat)) ∧
    (∀ a b : IntMap V, a.eq b = true ↔ ∀ k : Int, 0 ≤ k → (a.get k == b.get k) = true) ∧
    (∀ {H : Type} (write : H → V → H), (∀ state x y, (x == y) = true → write state x = write state y) →
      ∀ a b : IntMap V, a.eq b = true → ∀ state, a.hash write state = b.hash write state) ∧
    (∀ a b : IntMap V, (a.diff b).Pairwise (fun x y => x.1 < y.1) ∧
      ∀ i v, (i, v) ∈ a.diff b ↔ (a.lookup i != b.lookup i) = true ∧ v = a.lookup i) := by
  refine ⟨fun m ops h => ?_, fun iter h => ?_, fun a b => ?_, fun write hwrite a b heq state => ?_,
    fun a b => ⟨diff_pairwise a b, mem_diff_iff a b⟩⟩
  · obtain ⟨m', hrun, hlook⟩ := applyAll_of_nonneg ops m h
    exact ⟨m', hrun, fun k hk => by rw [get_of_nonneg _ hk, hlook]⟩
  · obtain ⟨m, hrun, hlook⟩ := fromIter_of_nonneg iter h
    exact ⟨m, hrun, fun k hk => by rw [get_of_nonneg _ hk, hlook]⟩
  · rw [eq_iff, forall_get_beq_iff]
  · exact hash_eq_of_eq write hwrite heq state

/-- Registers written `r[2] = 7`, `r[0]` removed, and `r[1]` read with its
default and bumped: they read back as written. -/
theorem int_map_of_register_writes :
    ∃ m', (IntMap.new : IntMap Nat).applyAll [.insert 2 7, .remove 0, .getMutOrDefault 1 (· + 1)] = some m' ∧
      ∀ k : Int, 0 ≤ k → m'.get k =
        some (([.insert 2 7, .remove 0, .getMutOrDefault 1 (· + 1)] : List (IntMap.Op Nat)).foldl IntMap.Op.write
          IntMap.new.lookup k.toNat) :=
  (int_map_is_extensional_map (V := Nat)).1 IntMap.new _ (by decide)

end Sqlx.Sqlite
