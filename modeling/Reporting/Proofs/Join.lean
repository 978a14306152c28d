import Mathlib.Data.List.Sort
import Reporting.Join
import Reporting.Proofs.Field

/-!
# Join plans and the references they provide

A plan joins declared relationships only (`JoinPlan` of `Schema.planJoins`), and the table reference
of every field it was made for is the source table or one of its joins
(`Schema.reference_mem_of_planJoins`).
-/

namespace Reporting

/-- The table references that a plan provides: its source table and those of its joins. -/
def JoinPlan.references (plan : JoinPlan) : List String :=
  plan.base :: plan.joins.map (·.reference)

namespace Schema

variable {schema : Schema} {table : String}

/-- Requirements are declared relationships of the source table. -/
theorem relationship?_of_mem_requirements {steps : Nat} {visited : List String} {key : String}
    {added : List Relationship}
    (walked : schema.requirements table steps visited key = .ok added) :
    ∀ rel ∈ added, schema.relationship? table rel.key = some rel := by
  induction steps generalizing visited key added with
  | zero =>
      cases walked
      simp
  | succ steps ih =>
      simp only [requirements] at walked
      split at walked
      · cases walked
        simp
      · split at walked
        · cases walked
        next rel found =>
          have declared : schema.relationship? table rel.key = some rel := by
            rw [(mem_of_relationship? found).2.2, found]
          split at walked
          · cases walked
            simpa using declared
          next requirement _ =>
            split at walked
            · cases walked
            next before earlier =>
              cases walked
              intro other member
              rcases List.mem_append.mp member with front | last
              · exact ih earlier other front
              · rw [List.mem_singleton.mp last]
                exact declared

/-- The requirements of a key that was not visited end in its own relationship. -/
theorem exists_mem_requirements {steps : Nat} {visited : List String} {key : String}
    {added : List Relationship}
    (walked : schema.requirements table (steps + 1) visited key = .ok added)
    (fresh : key ∉ visited) : ∃ rel ∈ added, schema.relationship? table key = some rel := by
  simp only [requirements, List.contains_eq_mem, fresh, decide_false, Bool.false_eq_true,
    ↓reduceIte] at walked
  split at walked
  · cases walked
  next rel found =>
    refine ⟨rel, ?_, found⟩
    split at walked
    · cases walked
      simp
    · split at walked
      · cases walked
      · cases walked
        simp

/-- Joins are added behind those made so far: all are declared, and every key is joined. -/
theorem joinsFor_eq_ok {joins all : List Relationship} {keys : List String}
    (planned : schema.joinsFor table joins keys = .ok all)
    (declared : ∀ rel ∈ joins, schema.relationship? table rel.key = some rel) :
    (∀ rel ∈ all, schema.relationship? table rel.key = some rel) ∧ joins ⊆ all ∧
      ∀ key ∈ keys, ∃ rel ∈ all, schema.relationship? table key = some rel := by
  induction keys generalizing joins with
  | nil =>
      cases planned
      exact ⟨declared, List.Subset.refl _, by simp⟩
  | cons key rest ih =>
      simp only [joinsFor] at planned
      split at planned
      · cases planned
      next added walked =>
        have together : ∀ rel ∈ joins ++ added, schema.relationship? table rel.key = some rel := by
          intro rel member
          rcases List.mem_append.mp member with before | new
          · exact declared rel before
          · exact relationship?_of_mem_requirements walked rel new
        obtain ⟨allDeclared, kept, each⟩ := ih planned together
        refine ⟨allDeclared, fun rel member => kept (List.mem_append_left added member), ?_⟩
        intro other member
        rcases List.mem_cons.mp member with rfl | later
        · by_cases joined : other ∈ joins.map (·.key)
          · obtain ⟨rel, before, rfl⟩ := List.mem_map.mp joined
            exact ⟨rel, kept (List.mem_append_left added before), declared rel before⟩
          · obtain ⟨rel, new, found⟩ := exists_mem_requirements walked joined
            exact ⟨rel, kept (List.mem_append_right joins new), found⟩
        · exact each other later

/-- Sorting keeps every key. -/
theorem mem_sortedKeys {key : String} {keys : List String} :
    key ∈ sortedKeys keys ↔ key ∈ keys := by
  rw [sortedKeys, List.mem_mergeSort, List.mem_eraseDups]

theorem sortedKeys_eq_insertionSort (keys : List String) :
    sortedKeys keys = keys.eraseDups.insertionSort (· ≤ ·) := by
  rw [sortedKeys, List.mergeSort_eq_insertionSort]

/-- Where the keys of references are found, every reference resolves and its key is among them. -/
theorem resolveField_of_referencedKeys {fields keys : List String}
    (found : schema.referencedKeys table fields = .ok keys) :
    ∀ field ∈ fields, ∃ resolved, schema.resolveField table field = .ok resolved ∧
      ∀ key, resolved.key = some key → key ∈ keys := by
  induction fields generalizing keys with
  | nil => simp
  | cons first rest ih =>
      simp only [referencedKeys, Outcome.bind_eq_ok, Outcome.pure_eq_ok] at found
      obtain ⟨resolved, resolves, later, others, rfl⟩ := found
      intro field member
      rcases List.mem_cons.mp member with rfl | behind
      · exact ⟨resolved, resolves, fun key named => List.mem_append_left later (by simp [named])⟩
      · obtain ⟨other, otherResolves, among⟩ := ih others field behind
        exact ⟨other, otherResolves, fun key named => List.mem_append_right _ (among key named)⟩

/-- A plan exists iff the source is reportable, all fields resolve and the keys they need can be
joined, and then it holds these joins. -/
theorem planJoins_eq_ok {fields : List String} {plan : JoinPlan} :
    schema.planJoins table fields = .ok plan ↔
      schema.isReportable table = true ∧ ∃ keys, schema.referencedKeys table fields = .ok keys ∧
        ∃ joins, schema.joinsFor table [] (sortedKeys keys) = .ok joins ∧
          plan = ⟨table, joins⟩ := by
  simp only [planJoins, Outcome.guarded_eq_ok, Outcome.bind_eq_ok, Outcome.pure_eq_ok,
    Bool.not_eq_true', Bool.not_eq_false, eq_comm (a := plan)]

/-- A plan is made of a reportable table and joins relationships that it declares. -/
theorem planJoins_declared {fields : List String} {plan : JoinPlan}
    (planned : schema.planJoins table fields = .ok plan) :
    plan.base = table ∧ schema.isReportable table = true ∧
      ∀ rel ∈ plan.joins, schema.relationship? table rel.key = some rel := by
  obtain ⟨reportable, keys, _, joins, joined, rfl⟩ := planJoins_eq_ok.mp planned
  exact ⟨rfl, reportable, (joinsFor_eq_ok joined (by simp)).1⟩

/-- A plan provides the table reference of every field that it was made for. -/
theorem reference_mem_of_planJoins {fields : List String} {plan : JoinPlan}
    (planned : schema.planJoins table fields = .ok plan)
    {field : String} (member : field ∈ fields) :
    ∃ resolved, schema.resolveField table field = .ok resolved ∧
      resolved.reference ∈ plan.references := by
  obtain ⟨_, keys, found, joins, joined, rfl⟩ := planJoins_eq_ok.mp planned
  obtain ⟨resolved, resolves, among⟩ := resolveField_of_referencedKeys found field member
  refine ⟨resolved, resolves, ?_⟩
  rcases resolveField_eq_ok.mp resolves with ⟨column, allowed, _, _, _, rfl⟩ |
    ⟨key, column, rel, _, known, _, rfl⟩
  · exact List.mem_cons_self
  · obtain ⟨_, _, each⟩ := joinsFor_eq_ok joined (by simp)
    obtain ⟨other, inPlan, alsoKnown⟩ := each key (mem_sortedKeys.mpr (among key rfl))
    have same : other = rel := Option.some.inj (alsoKnown.symm.trans known)
    subst same
    exact List.mem_cons_of_mem _ (List.mem_map.mpr ⟨other, inPlan, rfl⟩)

end Schema

end Reporting
