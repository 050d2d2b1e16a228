import Mathlib.Data.List.Basic

/-!
# Postgres — nullability from `EXPLAIN` (`connection/describe.rs`)

`get_nullable_for_columns` asks the catalogue whether each result column is
`NOT NULL` (`NOT attnotnull`, NULL for a column of no table), then patches
that answer with `nullables_from_explain`: it runs `EXPLAIN (VERBOSE, FORMAT
JSON)` on the statement and walks the plan (`visit_plan`), marking
`Some(true)` at the position of each root output that the walk finds among
the outputs of a node it marks. The merge `patch.or(nullable)` keeps every
mark (`patchNullables_of_mark`).

What the walk marks is `Plan.marked` (`visitPlan_eq`): the outputs of a
`Full` join and of an `Inner` child, and it goes below a node only when that
node is a `Left` or a `Right` join. So a join under a node of any other kind
(a `Sort`, a `Limit`, an `Aggregate`) is never reached, and the catalogue's
answer stands for its columns (`getNullableForColumns_of_not_join`), though
they come from the null-extended side of an outer join (`NullExtendable`).
Below a `Right` join the walk marks the `Inner` child, the side that is kept,
and leaves the `Outer` child, which is null-extended (`visitPlan_right`). A name found among the root's outputs marks only the
first position it has there (`getElem?_markOutputs`).
-/

namespace Sqlx.Postgres

/-- `Plan`: the fields of an `EXPLAIN (VERBOSE, FORMAT JSON)` plan node the
walk reads; serde drops the others. -/
structure Plan where
  joinType : Option String
  parentRelation : Option String
  output : Option (List String)
  plans : Option (List Plan)

/-- `Explain`: a plan, or anything else (`IgnoredAny`). -/
inductive Explain where
  | plan (plan : Plan)
  | other

/-- The loop of `visit_plan` over a node's outputs: each one found among the
root's outputs, by `position`, marks the first place it has there. -/
def markOutputs (outputs : List String) : List String → List (Option Bool) → List (Option Bool)
  | [], nullables => nullables
  | output :: rest, nullables =>
    markOutputs outputs rest
      (match outputs.idxOf? output with
       | some i => nullables.set i (some true)
       | none => nullables)

mutual

/-- `visit_plan`: a `Full` join or an `Inner` child marks its outputs; the walk
goes on into the children of a `Left` or a `Right` join only. -/
def visitPlan (outputs : List String) : Plan → List (Option Bool) → List (Option Bool)
  | ⟨joinType, parentRelation, output, plans⟩, nullables =>
    let nullables :=
      match output with
      | some planOutputs =>
        if joinType = some "Full" ∨ parentRelation = some "Inner" then markOutputs outputs planOutputs nullables
        else nullables
      | none => nullables
    match plans with
    | some plans =>
      if joinType = some "Left" ∨ joinType = some "Right" then visitPlans outputs plans nullables
      else nullables
    | none => nullables

/-- `for plan in plans { visit_plan(plan, outputs, nullables) }`. -/
def visitPlans (outputs : List String) : List Plan → List (Option Bool) → List (Option Bool)
  | [], nullables => nullables
  | plan :: plans, nullables => visitPlans outputs plans (visitPlan outputs plan nullables)

end

/-- `nullables_from_explain`, given the rows of the `EXPLAIN`: a `None` for
each output of the first plan, then the walk; nothing when the first row is no
plan or the plan has no `Output`. -/
def nullablesFromExplain (explains : List Explain) : List (Option Bool) :=
  match explains.head? with
  | some (.plan plan) =>
    match plan.output with
    | some outputs => visitPlan outputs plan (List.replicate outputs.length none)
    | none => []
  | _ => []

/-- `is_explain_available`: the server reports none of the parameter statuses
of CockroachDB, Materialize and QuestDB. -/
def isExplainAvailable (parameterStatuses : List String) : Bool :=
  !parameterStatuses.contains "crdb_version" && !parameterStatuses.contains "mz_version" &&
    !parameterStatuses.contains "questdb_version"

/-- The merge: `*nullable = patch.or(*nullable)` over the pairs `zip` makes;
the catalogue's answers past the patch stay. -/
def patchNullables : List (Option Bool) → List (Option Bool) → List (Option Bool)
  | nullable :: nullables, patch :: patches => patch.or nullable :: patchNullables nullables patches
  | nullables, _ => nullables

/-- `get_nullable_for_columns`, given the number of columns, the rows the
catalogue query returned (`NOT attnotnull` per column, in column order), the
server's parameter statuses and the rows of the `EXPLAIN`. -/
def getNullableForColumns (columns : Nat) (catalogue : List (Option Bool)) (parameterStatuses : List String)
    (explains : List Explain) : List (Option Bool) :=
  if columns = 0 then []
  else if isExplainAvailable parameterStatuses then patchNullables catalogue (nullablesFromExplain explains)
  else catalogue

/-! ## What the walk marks -/

/-- The children of a node, none when it has no `Plans`. -/
def Plan.children (plan : Plan) : List Plan := plan.plans.getD []

/-- The outputs of a node, none when it has no `Output`. -/
def Plan.outputs (plan : Plan) : List String := plan.output.getD []

mutual

/-- The names the walk marks: a node's own outputs when it is a `Full` join or
an `Inner` child, and those below it only through a `Left` or a `Right` join. -/
def Plan.marked : Plan → List String
  | ⟨joinType, parentRelation, output, plans⟩ =>
    (if joinType = some "Full" ∨ parentRelation = some "Inner" then output.getD [] else []) ++
      (if joinType = some "Left" ∨ joinType = some "Right" then markedChildren plans else [])

/-- The names the walk marks among a node's children, if it has any. -/
def markedChildren : Option (List Plan) → List String
  | none => []
  | some plans => markedAll plans

/-- The names the walk marks in each of a list of plans. -/
def markedAll : List Plan → List String
  | [] => []
  | plan :: plans => plan.marked ++ markedAll plans

end

/-- A root output that may be NULL whatever its column's `NOT NULL`: it comes
out of the null-extended side of an outer join somewhere in the plan, the
`Inner` child of a `Left` join, the `Outer` child of a `Right` join, or either
child of a `Full` join. -/
inductive NullExtendable : Plan → String → Prop
  | left {plan child : Plan} {o : String} : plan.joinType = some "Left" → child ∈ plan.children →
      child.parentRelation = some "Inner" → o ∈ child.outputs → NullExtendable plan o
  | right {plan child : Plan} {o : String} : plan.joinType = some "Right" → child ∈ plan.children →
      child.parentRelation = some "Outer" → o ∈ child.outputs → NullExtendable plan o
  | full {plan child : Plan} {o : String} : plan.joinType = some "Full" → child ∈ plan.children →
      o ∈ child.outputs → NullExtendable plan o
  | inChild {plan child : Plan} {o : String} : child ∈ plan.children → NullExtendable child o →
      NullExtendable plan o

/-! ## The walk, read off -/

theorem markOutputs_append (outputs a b : List String) (nullables : List (Option Bool)) :
    markOutputs outputs (a ++ b) nullables = markOutputs outputs b (markOutputs outputs a nullables) := by
  induction a generalizing nullables with
  | nil => rfl
  | cons o a ih => exact ih _

mutual

/-- **The walk marks exactly `marked`**, by mutual induction on a plan and its
list of children. -/
theorem visitPlan_eq (outputs : List String) :
    ∀ (plan : Plan) (nullables : List (Option Bool)),
      visitPlan outputs plan nullables = markOutputs outputs plan.marked nullables
  | ⟨joinType, parentRelation, output, plans⟩, nullables => by
    rw [Plan.marked.eq_1, markOutputs_append]
    -- one equation of `visitPlan` for each of `Output` and `Plans` there or not
    rcases output with _ | planOutputs <;> rcases plans with _ | plans
    · rw [visitPlan.eq_4, markedChildren.eq_1]
      split <;> split <;> rfl
    · rw [visitPlan.eq_2, markedChildren.eq_2]
      split <;> split <;> simp only [Option.getD_none, markOutputs, visitPlans_eq outputs plans]
    · rw [visitPlan.eq_3, markedChildren.eq_1]
      split <;> split <;> rfl
    · rw [visitPlan.eq_1, markedChildren.eq_2]
      split <;> split <;> simp only [Option.getD_some, markOutputs, visitPlans_eq outputs plans]

theorem visitPlans_eq (outputs : List String) :
    ∀ (plans : List Plan) (nullables : List (Option Bool)),
      visitPlans outputs plans nullables = markOutputs outputs (markedAll plans) nullables
  | [], _ => rfl
  | plan :: plans, nullables => by
    rw [visitPlans, markedAll, markOutputs_append, visitPlan_eq outputs plan, visitPlans_eq outputs plans]

end

/-- **What marking does at one position**: the first place of a marked name
among the root's outputs becomes `Some(true)`; every other place stays. -/
theorem getElem?_markOutputs (outputs : List String) :
    ∀ (names : List String) (nullables : List (Option Bool)) (i : Nat),
      (markOutputs outputs names nullables)[i]? =
        if names.any (fun o => outputs.idxOf? o == some i) then nullables[i]?.map (fun _ => some true)
        else nullables[i]?
  | [], _, _ => rfl
  | o :: names, nullables, i => by
    rw [markOutputs, getElem?_markOutputs outputs names, List.any_cons]
    -- the first name's mark, then the others'
    cases hidx : outputs.idxOf? o with
    | none => simp
    | some j =>
      by_cases hji : j = i
      · subst hji
        by_cases hj : j < nullables.length <;> simp [hj]
      · simp [hji]

/-- The merge keeps every mark. -/
theorem patchNullables_of_mark : ∀ {catalogue patch : List (Option Bool)} {i : Nat},
    patch[i]? = some (some true) → i < catalogue.length → (patchNullables catalogue patch)[i]? = some (some true)
  | [], _, _, _, hi => absurd hi (Nat.not_lt_zero _)
  | _ :: _, [], _, hp, _ => by cases hp
  | _ :: _, _ :: _, 0, hp, _ => by
    rw [patchNullables, List.getElem?_cons_zero]
    rw [List.getElem?_cons_zero, Option.some_inj] at hp
    rw [hp]
    rfl
  | _ :: catalogue, _ :: patch, i + 1, hp, hi => by
    rw [patchNullables, List.getElem?_cons_succ]
    exact patchNullables_of_mark hp (by simpa using hi)

/-- No patch leaves the catalogue's answer. -/
theorem patchNullables_replicate_none : ∀ (catalogue : List (Option Bool)) (k : Nat),
    patchNullables catalogue (List.replicate k none) = catalogue
  | [], 0 => rfl
  | [], _ + 1 => rfl
  | _ :: _, 0 => rfl
  | nullable :: catalogue, k + 1 => by
    rw [List.replicate_succ, patchNullables, Option.none_or, patchNullables_replicate_none catalogue k]

/-! ## What the walk gets right -/

/-- A list of plans marks what each of them marks. -/
theorem marked_subset_markedAll {plans : List Plan} {plan : Plan} (h : plan ∈ plans) : plan.marked ⊆ markedAll plans := by
  induction plans with
  | nil => cases h
  | cons p plans ih =>
    rw [markedAll.eq_2]
    rcases List.mem_cons.mp h with rfl | h
    · exact List.subset_append_left _ _
    · exact List.Subset.trans (ih h) (List.subset_append_right _ _)

/-- An `Inner` child marks its own outputs. -/
theorem Plan.outputs_subset_marked {plan : Plan} (h : plan.parentRelation = some "Inner") : plan.outputs ⊆ plan.marked := by
  obtain ⟨joinType, parentRelation, output, plans⟩ := plan
  simp only at h
  subst h
  rw [Plan.marked.eq_1, if_pos (Or.inr rfl)]
  exact List.subset_append_left _ _

/-- At a `Left` join the walk reaches, the outputs of its `Inner` child are marked. -/
theorem Plan.mem_marked_of_left {plan child : Plan} (hleft : plan.joinType = some "Left") (hchild : child ∈ plan.children)
    (hinner : child.parentRelation = some "Inner") {o : String} (ho : o ∈ child.outputs) : o ∈ plan.marked := by
  obtain ⟨joinType, parentRelation, output, plans⟩ := plan
  simp only at hleft
  subst hleft
  cases plans with
  | none => cases hchild
  | some plans =>
    rw [Plan.marked.eq_1, if_pos (Or.inl rfl), markedChildren.eq_2]
    exact List.mem_append_right _ (marked_subset_markedAll hchild (Plan.outputs_subset_marked hinner ho))

/-! ## Joins the walk misses -/

/-- A node that is no join marks its outputs only as an `Inner` child, and
nothing below it. -/
theorem Plan.marked_of_joinType_none {plan : Plan} (h : plan.joinType = none) :
    plan.marked = if plan.parentRelation = some "Inner" then plan.outputs else [] := by
  obtain ⟨joinType, parentRelation, output, plans⟩ := plan
  simp only at h
  subst h
  have hdown : ¬((none : Option String) = some "Left" ∨ (none : Option String) = some "Right") := by simp
  rw [Plan.marked.eq_1, if_neg hdown, List.append_nil]
  by_cases hinner : parentRelation = some "Inner" <;> simp [hinner, Plan.outputs]

/-- A root that is no join (a `Sort`, a `Limit`, an `Aggregate`) over any plan:
the `EXPLAIN` patch is all `None`. -/
theorem nullablesFromExplain_of_not_join (child : Plan) (outputs : List String) :
    nullablesFromExplain [.plan ⟨none, none, some outputs, some [child]⟩] = List.replicate outputs.length none := by
  have hmarked : (⟨none, none, some outputs, some [child]⟩ : Plan).marked = [] := by
    rw [Plan.marked_of_joinType_none rfl]
    rfl
  simp only [nullablesFromExplain, List.head?_cons]
  rw [visitPlan_eq, hmarked]
  rfl

/-- ... so the catalogue's answer stands for every column, `Some(false)` included. -/
theorem getNullableForColumns_of_not_join (child : Plan) (outputs : List String) (columns : Nat)
    (catalogue : List (Option Bool)) (parameterStatuses : List String) :
    getNullableForColumns columns catalogue parameterStatuses [.plan ⟨none, none, some outputs, some [child]⟩] =
      if columns = 0 then [] else catalogue := by
  unfold getNullableForColumns
  split
  · rfl
  · split
    · rw [nullablesFromExplain_of_not_join, patchNullables_replicate_none]
    · rfl

/-- ... though every output null-extendable below that root is one of the root's too. -/
theorem NullExtendable.of_not_join {child : Plan} {outputs : List String} {o : String} (h : NullExtendable child o) :
    NullExtendable ⟨none, none, some outputs, some [child]⟩ o :=
  .inChild (by simp [Plan.children]) h

/-- Below a `Right` join of two nodes that are no joins, the walk marks the
`Inner` child's outputs, and the `Outer` child's outputs, null-extended, only
where the `Inner` child has them too. -/
theorem visitPlan_right {outer inner : Plan} (houter : outer.joinType = none) (houterRel : outer.parentRelation = some "Outer")
    (hinner : inner.joinType = none) (hinnerRel : inner.parentRelation = some "Inner") (outputs : List String)
    (nullables : List (Option Bool)) :
    visitPlan outputs ⟨some "Right", none, some outputs, some [outer, inner]⟩ nullables =
      markOutputs outputs inner.outputs nullables := by
  have hmarked : (⟨some "Right", none, some outputs, some [outer, inner]⟩ : Plan).marked = inner.outputs := by
    have hown : ¬(some "Right" = some "Full" ∨ (none : Option String) = some "Inner") := by simp
    have hdown : some "Right" = some "Left" ∨ some "Right" = some "Right" := by simp
    rw [Plan.marked.eq_1, if_neg hown, if_pos hdown, markedChildren.eq_2, markedAll.eq_2, markedAll.eq_2,
      markedAll.eq_1, Plan.marked_of_joinType_none houter, Plan.marked_of_joinType_none hinner, houterRel, hinnerRel]
    simp
  rw [visitPlan_eq, hmarked]

/-- The `Outer` child of a `Right` join is its null-extended side. -/
theorem NullExtendable.of_right_outer {outer inner : Plan} {outputs : List String} (houterRel : outer.parentRelation = some "Outer")
    {o : String} (ho : o ∈ outer.outputs) : NullExtendable ⟨some "Right", none, some outputs, some [outer, inner]⟩ o :=
  .right rfl (by simp [Plan.children]) houterRel ho

/-- `get_nullable_for_columns` against the null-extendable outputs: the walk
marks the first place of each name `marked` collects and the merge keeps that
mark, but a root that is no join hides every join below it, so the
catalogue's answer, `Some(false)` included, stands for the columns of the
null-extended side; and below a `Right` join the walk marks the `Inner` child,
leaving the null-extended `Outer` one. -/
theorem nullable_walk_misses_joins_below_other_nodes :
    (∀ (plan : Plan) (outputs : List String) (nullables : List (Option Bool)) (i : Nat),
      (visitPlan outputs plan nullables)[i]? =
        if plan.marked.any (fun o => outputs.idxOf? o == some i) then nullables[i]?.map (fun _ => some true)
        else nullables[i]?) ∧
    (∀ (catalogue patch : List (Option Bool)) (i : Nat), patch[i]? = some (some true) → i < catalogue.length →
      (patchNullables catalogue patch)[i]? = some (some true)) ∧
    (∀ (child : Plan) (outputs : List String) (columns : Nat) (catalogue : List (Option Bool))
      (parameterStatuses : List String),
      getNullableForColumns columns catalogue parameterStatuses [.plan ⟨none, none, some outputs, some [child]⟩] =
        if columns = 0 then [] else catalogue) ∧
    (∀ (child : Plan) (outputs : List String) (o : String), NullExtendable child o →
      NullExtendable ⟨none, none, some outputs, some [child]⟩ o) ∧
    (∀ (outer inner : Plan) (outputs : List String) (nullables : List (Option Bool)),
      outer.joinType = none → outer.parentRelation = some "Outer" →
      inner.joinType = none → inner.parentRelation = some "Inner" →
      visitPlan outputs ⟨some "Right", none, some outputs, some [outer, inner]⟩ nullables =
          markOutputs outputs inner.outputs nullables ∧
        ∀ o ∈ outer.outputs, NullExtendable ⟨some "Right", none, some outputs, some [outer, inner]⟩ o) := by
  refine ⟨fun plan outputs nullables i => ?_, fun _ _ _ hp hi => patchNullables_of_mark hp hi,
    getNullableForColumns_of_not_join, fun _ _ _ h => h.of_not_join,
    fun outer inner outputs nullables houter houterRel hinner hinnerRel =>
      ⟨visitPlan_right houter houterRel hinner hinnerRel outputs nullables, fun _ ho => .of_right_outer houterRel ho⟩⟩
  rw [visitPlan_eq, getElem?_markOutputs]

/-- `a.x, b.y` of a `Sort` over `a LEFT JOIN b`, both columns `NOT NULL` in
the catalogue: `b.y` comes from the null-extended side and is still reported
`Some(false)`. Below `a RIGHT JOIN b`, the null-extended `a.x` is left unmarked. -/
theorem nullability_of_sorted_left_join :
    getNullableForColumns 2 [some false, some false] []
        [.plan ⟨none, none, some ["a.x", "b.y"], some [⟨some "Left", none, some ["a.x", "b.y"],
          some [⟨none, some "Outer", some ["a.x"], none⟩, ⟨none, some "Inner", some ["b.y"], none⟩]⟩]⟩] =
      [some false, some false] ∧
    NullExtendable ⟨none, none, some ["a.x", "b.y"], some [⟨some "Left", none, some ["a.x", "b.y"],
          some [⟨none, some "Outer", some ["a.x"], none⟩, ⟨none, some "Inner", some ["b.y"], none⟩]⟩]⟩ "b.y" ∧
    visitPlan ["a.x", "b.y"] ⟨some "Right", none, some ["a.x", "b.y"],
        some [⟨none, some "Outer", some ["a.x"], none⟩, ⟨none, some "Inner", some ["b.y"], none⟩]⟩ [none, none] =
      [none, some true] ∧
    NullExtendable ⟨some "Right", none, some ["a.x", "b.y"],
        some [⟨none, some "Outer", some ["a.x"], none⟩, ⟨none, some "Inner", some ["b.y"], none⟩]⟩ "a.x" := by
  have h := nullable_walk_misses_joins_below_other_nodes
  have hright := h.2.2.2.2 ⟨none, some "Outer", some ["a.x"], none⟩ ⟨none, some "Inner", some ["b.y"], none⟩
    ["a.x", "b.y"] [none, none] rfl rfl rfl rfl
  refine ⟨(h.2.2.1 _ _ 2 _ _).trans (if_neg (by decide)), h.2.2.2.1 _ _ _ ?_, hright.1.trans rfl,
    hright.2 "a.x" (by simp [Plan.outputs])⟩
  exact @NullExtendable.left _ ⟨none, some "Inner", some ["b.y"], none⟩ _ rfl (by simp [Plan.children]) rfl
    (by simp [Plan.outputs])

end Sqlx.Postgres
