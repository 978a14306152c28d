import Mathlib.Data.List.Sort
import Mathlib.Order.Bounds.Basic
import Reporting.Proofs.Join
import Reporting.Proofs.Join.Requirements

/-!
# What a plan joins

The keys of a plan are the least set that holds all referenced keys and is closed under
requirements, each once and behind the one that it requires. The plan depends on nothing but the set
of referenced keys (`Schema.planJoins_exact`). While joins are collected, `Planned` holds of those
made so far: the unvisited part of a chain, last things first, keeps it (`Planned.append_chain`).
-/

namespace Reporting

/-- Every relationship stands behind the one that it requires. -/
def RequirementsFirst (joins : List Relationship) : Prop :=
  ∀ before rel after, joins = before ++ rel :: after →
    ∀ key, rel.requires = some key → key ∈ before.map (·.key)

/-- A relationship can be put behind the others once what it requires is among them. -/
theorem RequirementsFirst.concat {joins : List Relationship} (ordered : RequirementsFirst joins)
    {rel : Relationship} (met : ∀ key, rel.requires = some key → key ∈ joins.map (·.key)) :
    RequirementsFirst (joins ++ [rel]) := by
  intro before other after split key required
  rcases List.eq_nil_or_concat after with rfl | ⟨others, last, rfl⟩
  · obtain ⟨rfl, same⟩ := List.append_inj' split rfl
    obtain rfl : rel = other := by simpa using same
    exact met key required
  · rw [List.concat_eq_append, ← List.cons_append, ← List.append_assoc] at split
    obtain ⟨rfl, -⟩ := List.append_inj' split rfl
    exact ordered before other others rfl key required

namespace Schema

/-- The relationship keys that the fields of a list refer to. -/
def referencedBy (schema : Schema) (table : String) (fields : List String) : Set String :=
  {key | ∃ field ∈ fields, ∃ resolved,
    schema.resolveField table field = .ok resolved ∧ resolved.key = some key}

/-- With a key the set holds the key that its relationship requires. -/
def RequirementClosed (schema : Schema) (table : String) (keys : Set String) : Prop :=
  ∀ key ∈ keys, ∀ rel, schema.relationship? table key = some rel →
    ∀ next, rel.requires = some next → next ∈ keys

/-- The keys that can be reached from a set along requirements. -/
inductive Needed (schema : Schema) (table : String) (keys : Set String) : String → Prop
  | referenced {key : String} (member : key ∈ keys) : Needed schema table keys key
  | required {key next : String} {rel : Relationship} (needed : Needed schema table keys key)
      (found : schema.relationship? table key = some rel) (requires : rel.requires = some next) :
      Needed schema table keys next

variable {schema : Schema} {table : String}

/-- What can be reached is the least closed set around the given one. -/
theorem isLeast_needed (keys : Set String) :
    IsLeast {closed | keys ⊆ closed ∧ schema.RequirementClosed table closed}
      {key | schema.Needed table keys key} := by
  constructor
  · refine ⟨fun key member => .referenced member, ?_⟩
    intro key needed rel found next requires
    exact .required needed found requires
  · rintro closed ⟨referenced, complete⟩ key needed
    induction needed with
    | referenced member => exact referenced member
    | required _ found requires ih => exact complete _ ih _ found _ requires

/-- The joins made so far: declared, needed, each once, and behind what it requires. -/
structure Planned (schema : Schema) (table : String) (keys : Set String)
    (joins : List Relationship) : Prop where
  declared : ∀ rel ∈ joins, schema.relationship? table rel.key = some rel
  needed : ∀ rel ∈ joins, schema.Needed table keys rel.key
  nodup : (joins.map (·.key)).Nodup
  ordered : RequirementsFirst joins

namespace Planned

variable {keys : Set String} {joins : List Relationship}

/-- Before any join is made nothing is out of place. -/
theorem nil : schema.Planned table keys [] where
  declared := by simp
  needed := by simp
  nodup := List.nodup_nil
  ordered := by
    intro before rel after split
    exact absurd split (by simp)

/-- A new relationship whose requirement is joined already. -/
theorem concat (planned : schema.Planned table keys joins) {rel : Relationship}
    (found : schema.relationship? table rel.key = some rel)
    (needed : schema.Needed table keys rel.key) (fresh : rel.key ∉ joins.map (·.key))
    (met : ∀ key, rel.requires = some key → key ∈ joins.map (·.key)) :
    schema.Planned table keys (joins ++ [rel]) where
  declared := by
    intro other member
    rcases List.mem_append.mp member with before | last
    · exact planned.declared other before
    · rw [List.mem_singleton.mp last]
      exact found
  needed := by
    intro other member
    rcases List.mem_append.mp member with before | last
    · exact planned.needed other before
    · rw [List.mem_singleton.mp last]
      exact needed
  nodup := by
    rw [List.map_append, List.map_singleton, ← List.concat_eq_append, List.nodup_concat]
    exact ⟨fresh, planned.nodup⟩
  ordered := planned.ordered.concat met

/-- The unvisited part of a chain is joined from its end on, and with it the key of the chain. -/
theorem append_chain (planned : schema.Planned table keys joins) {key : String}
    {chain : List Relationship} (chained : schema.RequirementChain table key chain)
    (nodup : (chain.map (·.key)).Nodup) (needed : schema.Needed table keys key) :
    schema.Planned table keys (joins ++ (unvisited (joins.map (·.key)) chain).reverse) ∧
      key ∈ (joins ++ (unvisited (joins.map (·.key)) chain).reverse).map (·.key) := by
  induction chained with
  | @last key rel found free =>
      obtain ⟨_, _, rfl⟩ := mem_of_relationship? found
      by_cases before : rel.key ∈ joins.map (·.key)
      · rw [unvisited_cons_of_mem [] before, List.reverse_nil, List.append_nil]
        exact ⟨planned, before⟩
      · rw [unvisited_cons_of_not_mem [] before]
        refine ⟨planned.concat found needed before ?_, by simp [unvisited]⟩
        intro next required
        exact absurd required (by simp [free])
  | @more key next rel rest found required behind ih =>
      obtain ⟨_, _, rfl⟩ := mem_of_relationship? found
      rw [List.map_cons, List.nodup_cons] at nodup
      by_cases before : rel.key ∈ joins.map (·.key)
      · rw [unvisited_cons_of_mem rest before, List.reverse_nil, List.append_nil]
        exact ⟨planned, before⟩
      · -- The rest of the chain is joined first, and with it what the relationship requires.
        obtain ⟨earlier, met⟩ := ih nodup.2 (.required needed found required)
        rw [unvisited_cons_of_not_mem rest before, List.reverse_cons, ← List.append_assoc]
        refine ⟨earlier.concat found needed ?_ ?_, by simp⟩
        · rw [List.map_append, List.mem_append, not_or]
          refine ⟨before, fun later => nodup.1 ?_⟩
          obtain ⟨other, member, same⟩ := List.mem_map.mp later
          have onChain : other ∈ rest :=
            (List.takeWhile_prefix _).subset (List.mem_reverse.mp member)
          exact List.mem_map.mpr ⟨other, onChain, same⟩
        · intro other requires
          obtain rfl := Option.some.inj (required.symm.trans requires)
          exact met

/-- The key of every requirement of a join is joined. -/
theorem closed (planned : schema.Planned table keys joins) :
    schema.RequirementClosed table {key | key ∈ joins.map (·.key)} := by
  intro key member rel found next requires
  obtain ⟨other, joined, rfl⟩ := List.mem_map.mp member
  obtain rfl := Option.some.inj ((planned.declared other joined).symm.trans found)
  obtain ⟨before, after, rfl⟩ := List.append_of_mem joined
  have first := planned.ordered before other after rfl next requires
  exact List.map_append ▸ List.mem_append_left _ first

end Planned

/-- Over an accepted schema joins can be added for any declared keys. -/
theorem Accepted.exists_joinsFor (accepted : schema.Accepted) {referenced : Set String}
    {keys : List String} (known : ∀ key ∈ keys, key ∈ referenced)
    (declared : ∀ key ∈ keys, ∃ rel, schema.relationship? table key = some rel)
    {joins : List Relationship} (planned : schema.Planned table referenced joins) :
    ∃ all, schema.joinsFor table joins keys = .ok all ∧ schema.Planned table referenced all := by
  induction keys generalizing joins with
  | nil => exact ⟨joins, rfl, planned⟩
  | cons key rest ih =>
      rw [List.forall_mem_cons] at known declared
      obtain ⟨rel, found⟩ := declared.1
      obtain ⟨chain, chained, short, nodup⟩ := accepted.exists_chain found
      have added := (planned.append_chain chained nodup (.referenced known.1)).1
      obtain ⟨all, joined, complete⟩ := ih known.2 declared.2 added
      refine ⟨all, ?_, complete⟩
      rw [joinsFor, requirements_eq chained short nodup]
      exact joined

/-- Where every field resolves, the referenced keys are found. -/
theorem exists_referencedKeys {fields : List String}
    (resolve : ∀ field ∈ fields, ∃ resolved, schema.resolveField table field = .ok resolved) :
    ∃ keys, schema.referencedKeys table fields = .ok keys := by
  induction fields with
  | nil => exact ⟨[], rfl⟩
  | cons field rest ih =>
      rw [List.forall_mem_cons] at resolve
      obtain ⟨resolved, found⟩ := resolve.1
      obtain ⟨keys, others⟩ := ih resolve.2
      refine ⟨resolved.key.toList ++ keys, ?_⟩
      simp only [referencedKeys, Outcome.bind_eq_ok, Outcome.pure_eq_ok]
      exact ⟨resolved, found, keys, others, rfl⟩

/-- The keys that are collected are those that the fields refer to. -/
theorem mem_referencedKeys {fields keys : List String}
    (found : schema.referencedKeys table fields = .ok keys) {key : String} :
    key ∈ keys ↔ key ∈ schema.referencedBy table fields := by
  induction fields generalizing keys with
  | nil =>
      cases found
      simp [referencedBy]
  | cons field rest ih =>
      simp only [referencedKeys, Outcome.bind_eq_ok, Outcome.pure_eq_ok] at found
      obtain ⟨resolved, resolves, later, others, rfl⟩ := found
      rw [List.mem_append, Option.mem_toList, ih others]
      simp only [referencedBy, Set.mem_ofPred_eq, List.mem_cons, exists_eq_or_imp, resolves,
        Except.ok.injEq, exists_eq_left']

/-- Sorted or not, they are those that the fields refer to. -/
theorem mem_sortedKeys_iff {fields keys : List String}
    (found : schema.referencedKeys table fields = .ok keys) {key : String} :
    key ∈ sortedKeys keys ↔ key ∈ schema.referencedBy table fields := by
  rw [mem_sortedKeys, mem_referencedKeys found]

/-- A referenced key is declared. -/
theorem exists_relationship_of_referencedBy {fields : List String} {key : String}
    (referenced : key ∈ schema.referencedBy table fields) :
    ∃ rel, schema.relationship? table key = some rel := by
  obtain ⟨field, _, resolved, found, named⟩ := referenced
  rcases resolveField_eq_ok.mp found with ⟨column, allowed, _, _, _, rfl⟩ |
    ⟨other, column, rel, _, known, _, rfl⟩
  · exact absurd named (by simp)
  · obtain rfl := Option.some.inj named
    exact ⟨rel, known⟩

theorem nodup_eraseDups (keys : List String) : keys.eraseDups.Nodup := by
  induction length : keys.length using Nat.strong_induction_on generalizing keys with
  | _ n ih =>
      cases keys with
      | nil => simp
      | cons key rest =>
          rw [List.eraseDups_cons, List.nodup_cons]
          have shorter : (rest.filter fun other => !other == key).length < n := by
            rw [← length, List.length_cons]
            exact Nat.lt_succ_of_le (List.length_filter_le _ _)
          exact ⟨by simp [List.mem_eraseDups], ih _ shorter _ rfl⟩

/-- Sorted keys depend on nothing but which keys there are. -/
theorem sortedKeys_congr {keys others : List String} (same : ∀ key, key ∈ keys ↔ key ∈ others) :
    sortedKeys keys = sortedKeys others := by
  have alike : keys.eraseDups.Perm others.eraseDups := by
    rw [List.perm_ext_iff_of_nodup (nodup_eraseDups keys) (nodup_eraseDups others)]
    intro key
    rw [List.mem_eraseDups, List.mem_eraseDups, same]
  have sorted (keys : List String) : (sortedKeys keys).Pairwise fun a b => decide (a ≤ b) := by
    apply List.pairwise_mergeSort
    · intro a b c first second
      exact decide_eq_true (String.le_trans (of_decide_eq_true first) (of_decide_eq_true second))
    · intro a b
      simpa using String.le_total a b
  refine List.Perm.eq_of_pairwise ?_ (sorted keys) (sorted others) ?_
  · intro a b _ _ below above
    exact String.le_antisymm (of_decide_eq_true below) (of_decide_eq_true above)
  · exact ((List.mergeSort_perm _ _).trans alike).trans (List.mergeSort_perm _ _).symm

/-- Over an accepted schema every reportable table has a plan for fields that resolve. -/
theorem Accepted.exists_planJoins (accepted : schema.Accepted)
    (reportable : schema.isReportable table = true) {fields : List String}
    (resolve : ∀ field ∈ fields, ∃ resolved, schema.resolveField table field = .ok resolved) :
    ∃ plan, schema.planJoins table fields = .ok plan := by
  obtain ⟨keys, found⟩ := exists_referencedKeys resolve
  have known : ∀ key ∈ sortedKeys keys, key ∈ schema.referencedBy table fields :=
    fun key => (mem_sortedKeys_iff found).mp
  obtain ⟨joins, joined, -⟩ := accepted.exists_joinsFor known
    (fun key member => exists_relationship_of_referencedBy (known key member)) Planned.nil
  exact ⟨⟨table, joins⟩, planJoins_eq_ok.mpr ⟨reportable, keys, found, joins, joined, rfl⟩⟩

/-- Collecting keys fails as resolving one field after another does. -/
theorem map_referencedKeys (schema : Schema) (table : String) (fields : List String) :
    (schema.referencedKeys table fields).map (fun _ => ()) =
      checkAll (fun field => (schema.resolveField table field).map fun _ => ()) fields := by
  induction fields with
  | nil => rfl
  | cons field rest ih =>
      rw [checkAll, ← ih, referencedKeys]
      cases schema.resolveField table field with
      | error rejection => rfl
      | ok resolved => cases schema.referencedKeys table rest <;> rfl

/-- References of a reportable table can be joined as soon as they resolve, and are refused as the
first one that does not. -/
theorem Accepted.map_planJoins (accepted : schema.Accepted)
    (reportable : schema.isReportable table = true) (fields : List String) :
    (schema.planJoins table fields).map (fun _ => ()) =
      checkAll (fun field => (schema.resolveField table field).map fun _ => ()) fields := by
  rw [← map_referencedKeys]
  cases found : schema.referencedKeys table fields with
  | error rejection =>
      rw [planJoins, found, reportable]
      rfl
  | ok keys =>
      obtain ⟨plan, planned⟩ := accepted.exists_planJoins reportable fun field member => by
        obtain ⟨resolved, resolves, -⟩ := resolveField_of_referencedKeys found field member
        exact ⟨resolved, resolves⟩
      rw [planned]
      rfl

/-- The joins of a plan are those of all referenced keys. -/
theorem Accepted.planned_joins (accepted : schema.Accepted) {fields : List String}
    {plan : JoinPlan} (planned : schema.planJoins table fields = .ok plan) :
    schema.Planned table (schema.referencedBy table fields) plan.joins ∧
      schema.referencedBy table fields ⊆ {key | key ∈ plan.keys} := by
  obtain ⟨-, keys, found, joins, joined, rfl⟩ := planJoins_eq_ok.mp planned
  have known : ∀ key ∈ sortedKeys keys, key ∈ schema.referencedBy table fields :=
    fun key => (mem_sortedKeys_iff found).mp
  obtain ⟨all, alsoJoined, complete⟩ := accepted.exists_joinsFor known
    (fun key member => exists_relationship_of_referencedBy (known key member)) Planned.nil
  obtain rfl := Except.ok.inj (joined.symm.trans alsoJoined)
  refine ⟨complete, ?_⟩
  intro key referenced
  obtain ⟨-, -, each⟩ := joinsFor_eq_ok joined (by simp)
  obtain ⟨rel, member, named⟩ := each key ((mem_sortedKeys_iff found).mpr referenced)
  exact List.mem_map.mpr ⟨rel, member, (mem_of_relationship? named).2.2⟩

/-- Fields that refer to the same keys have the same plan. -/
theorem planJoins_congr {fields others : List String} {plan : JoinPlan}
    (planned : schema.planJoins table fields = .ok plan)
    (resolve : ∀ field ∈ others, ∃ resolved, schema.resolveField table field = .ok resolved)
    (alike : schema.referencedBy table others = schema.referencedBy table fields) :
    schema.planJoins table others = .ok plan := by
  obtain ⟨reportable, keys, found, joins, joined, rfl⟩ := planJoins_eq_ok.mp planned
  obtain ⟨otherKeys, foundToo⟩ := exists_referencedKeys resolve
  have sorted : sortedKeys otherKeys = sortedKeys keys := by
    apply sortedKeys_congr
    intro key
    rw [mem_referencedKeys foundToo, mem_referencedKeys found, alike]
  rw [planJoins_eq_ok]
  exact ⟨reportable, otherKeys, foundToo, joins, sorted ▸ joined, rfl⟩

/-- Over an accepted schema every reportable table has a plan for fields that resolve. Its keys are
the least set that holds the referenced keys and is closed under requirements, each once, with its
declared relationship, and behind the key that it requires. Fields that refer to the same keys have
the same plan. -/
theorem planJoins_exact (accepted : schema.Accepted)
    (reportable : schema.isReportable table = true) {fields : List String}
    (resolve : ∀ field ∈ fields, ∃ resolved, schema.resolveField table field = .ok resolved) :
    ∃ plan, schema.planJoins table fields = .ok plan ∧ plan.base = table ∧
      IsLeast {keys | schema.referencedBy table fields ⊆ keys ∧
          schema.RequirementClosed table keys} {key | key ∈ plan.keys} ∧
      plan.keys.Nodup ∧ RequirementsFirst plan.joins ∧
      (∀ rel ∈ plan.joins, schema.relationship? table rel.key = some rel) ∧
      ∀ others : List String,
        (∀ field ∈ others, ∃ resolved, schema.resolveField table field = .ok resolved) →
        schema.referencedBy table others = schema.referencedBy table fields →
        schema.planJoins table others = .ok plan := by
  obtain ⟨plan, found⟩ := accepted.exists_planJoins reportable resolve
  obtain ⟨planned, referenced⟩ := accepted.planned_joins found
  refine ⟨plan, found, (planJoins_declared found).1, ⟨⟨referenced, planned.closed⟩, ?_⟩,
    planned.nodup, planned.ordered, planned.declared, fun others => planJoins_congr found⟩
  rintro closed ⟨known, complete⟩ key member
  obtain ⟨rel, inPlan, rfl⟩ := List.mem_map.mp member
  exact (isLeast_needed _).2 ⟨known, complete⟩ (planned.needed rel inPlan)

/-- Orders joined with products need the items in between, however the products are referred to. -/
theorem rewards_plan_of_products :
    rewards.Accepted ∧ rewards.isReportable "orders" = true ∧
      ∃ plan, rewards.planJoins "orders" ["product.name", "status"] = .ok plan ∧
        plan.keys.Nodup ∧ RequirementsFirst plan.joins ∧
        rewards.planJoins "orders" ["product.id", "product.name"] = .ok plan := by
  have resolves (fields : List String)
      (listed : fields ⊆ ["product.name", "status", "product.id"]) :
      ∀ field ∈ fields, ∃ resolved, rewards.resolveField "orders" field = .ok resolved := by
    intro field member
    apply Outcome.exists_eq_ok
    have each : ∀ field ∈ ["product.name", "status", "product.id"],
        (rewards.resolveField "orders" field).toOption.isSome = true := by decide +kernel
    exact each field (listed member)
  have reportable : rewards.isReportable "orders" = true := by decide +kernel
  obtain ⟨plan, planned, _, _, nodup, ordered, _, others⟩ :=
    planJoins_exact rewards_accepted reportable (resolves ["product.name", "status"] (by simp))
  refine ⟨rewards_accepted, reportable, plan, planned, nodup, ordered,
    others _ (resolves _ (by simp)) ?_⟩
  have first : rewards.referencedKeys "orders" ["product.name", "status"] = .ok ["product"] :=
    Outcome.toOption_eq_some.mp (by decide +kernel)
  have second : rewards.referencedKeys "orders" ["product.id", "product.name"] =
      .ok ["product", "product"] := Outcome.toOption_eq_some.mp (by decide +kernel)
  ext key
  rw [← mem_referencedKeys first, ← mem_referencedKeys second]
  simp

end Schema

end Reporting
