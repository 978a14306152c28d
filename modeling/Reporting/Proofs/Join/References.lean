import Reporting.Proofs.Field.Located
import Reporting.Proofs.Report.References

/-!
# References stay apart

References are bound across all source tables, but a relationship is compared only with those of its
own source table and with the first one that binds its reference. Over an accepted schema this is
enough (`Schema.Accepted.references_apart`): a column tells the reference it was written for, a
reference stands for the table of every relationship that introduces it, and where the references of
a source are entered one after another (`Sql.Source.entered`) none takes the place of another. Only
a table with an empty key is not found behind a reference (`Schema.fieldsOf?_of_empty_key`).
-/

namespace Reporting

namespace Sql.Source

/-- Enters a reference with the table that it stands for from now on. -/
def enter (entries : List (String × String)) (entry : String × String) : List (String × String) :=
  if entries.any (·.1 == entry.1) then
    entries.map fun earlier => if earlier.1 == entry.1 then entry else earlier
  else entries ++ [entry]

/-- The references of a source, entered one after another from the base on. -/
def entered (source : Source) : List (String × String) := source.tables.foldl enter []

/-- A new reference is entered behind the others. -/
theorem enter_of_new {entries : List (String × String)} {entry : String × String}
    (new : entry.1 ∉ entries.map (·.1)) : enter entries entry = entries ++ [entry] := by
  refine if_neg fun held => new ?_
  obtain ⟨earlier, member, same⟩ := List.any_eq_true.mp held
  exact List.mem_map.mpr ⟨earlier, member, beq_iff_eq.mp same⟩

/-- Entries with new references are put behind the others as they are. -/
theorem foldl_enter {entries news : List (String × String)}
    (apart : ((entries ++ news).map (·.1)).Nodup) :
    news.foldl enter entries = entries ++ news := by
  induction news generalizing entries with
  | nil => exact (List.append_nil _).symm
  | cons entry news ih =>
      have new : entry.1 ∉ entries.map (·.1) := by
        rw [List.map_append, List.nodup_append] at apart
        exact fun held => apart.2.2 _ held _ List.mem_cons_self rfl
      rw [List.append_cons] at apart ⊢
      rw [List.foldl_cons, enter_of_new new, ih apart]

/-- References that differ stay as they are entered. -/
theorem entered_eq {source : Source} (apart : (source.tables.map (·.1)).Nodup) :
    source.entered = source.tables :=
  foldl_enter apart

end Sql.Source

namespace ReportSources

variable {sources : ReportSources}

/-- The columns of a reference are those of the table that it is entered with. -/
theorem columnsOf_of_mem_tables (apart : (sources.source.tables.map (·.1)).Nodup)
    {entry : String × String} (member : entry ∈ sources.source.tables) :
    sources.columnsOf entry.1 = (sources.schema.allowedFields? entry.2).getD [] := by
  have introduced : entry.1 ∈ sources.references := by
    rw [references_eq]
    exact List.mem_map_of_mem member
  have same : sources.tableOf entry.1 = entry.2 :=
    congrArg Prod.snd (List.inj_on_of_nodup_map apart (mem_tables introduced) member rfl)
  rw [columnsOf_eq, same]

end ReportSources

namespace Schema

variable {schema : Schema}

/-- Over an accepted schema a source table has no two references to one column, every relationship
has its target behind its reference, if the key of that is not empty, and the source of a plan
provides one reference more than there are joins. -/
theorem Accepted.references_apart (accepted : schema.Accepted) (table : String) :
    (∀ field other resolved resolvedToo, schema.resolveField table field = .ok resolved →
      schema.resolveField table other = .ok resolvedToo → field ≠ other →
        (resolved.reference, resolved.column) ≠ (resolvedToo.reference, resolvedToo.column)) ∧
    (∀ rel ∈ schema.relationships, ∃ home, schema.table? rel.target = some home ∧
      schema.fieldsOf? rel.reference = (if rel.target = "" then none else some home.fields) ∧
      schema.numericFieldsOf rel.reference = if rel.target = "" then [] else home.numericFields) ∧
    ∀ fields plan, schema.planJoins table fields = .ok plan →
      plan.base = table ∧ (table :: plan.joins.map (·.reference)).Nodup ∧
      ∀ sources, schema.sourcesOf plan = .ok sources →
        sources.source.entered =
          (table, table) :: plan.joins.map (fun rel => (rel.reference, rel.target)) ∧
        sources.source.entered.length = plan.joins.length + 1 ∧
        sources.source.entered.map (·.1) = sources.references ∧
        ∀ entry ∈ sources.source.entered,
          sources.columnsOf entry.1 = (schema.allowedFields? entry.2).getD [] := by
  refine ⟨?_, ?_, ?_⟩
  · intro field other resolved resolvedToo found foundToo differ same
    obtain ⟨reference, column⟩ := Prod.mk.inj same
    exact differ (accepted.field_eq found foundToo reference column)
  · intro rel declared
    obtain ⟨home, known⟩ := accepted.exists_target declared
    have behind := accepted.referencedTable?_eq declared
    rw [known] at behind
    refine ⟨home, known, ?_, ?_⟩
    · rw [fieldsOf?, behind, apply_ite (Option.map _)]
      rfl
    · rw [numericFieldsOf, behind]
      split <;> rfl
  · intro fields plan planned
    obtain ⟨base, -, -⟩ := planJoins_declared planned
    have apart := accepted.nodup_references planned
    refine ⟨base, base ▸ apart, ?_⟩
    intro sources prepared
    obtain ⟨-, -, rfl⟩ := Schema.sourcesOf_eq_ok.mp prepared
    rw [← JoinPlan.references_sources schema, ReportSources.references_eq] at apart
    have tables : (plan.sources schema).source.tables =
        (table, table) :: plan.joins.map fun rel => (rel.reference, rel.target) := by
      simp [Sql.Source.tables, JoinPlan.sources, Relationship.join, base]
    rw [Sql.Source.entered_eq apart]
    refine ⟨tables, ?_, ReportSources.references_eq.symm, fun entry => ?_⟩
    · rw [tables, List.length_cons, List.length_map]
    · exact ReportSources.columnsOf_of_mem_tables apart

/-- The joins of products and agencies to orders, which need the items as well. -/
theorem rewards_references_apart :
    rewards.Accepted ∧
      (∀ rel ∈ rewards.relationships, rel.target ≠ "" ∧
        rewards.fieldsOf? rel.reference = rewards.allowedFields? rel.target) ∧
      ∃ plan sources, rewards.planJoins "orders" ["product.name", "agency.name"] = .ok plan ∧
        rewards.sourcesOf plan = .ok sources ∧ sources.source.entered.length = 4 := by
  obtain ⟨-, behind, planned⟩ := rewards_accepted.references_apart "orders"
  refine ⟨rewards_accepted, fun rel declared => ?_, ?_⟩
  · have named : rel.target ≠ "" := by
      have each : ∀ rel ∈ rewards.relationships, rel.target ≠ "" := by decide +kernel
      exact each rel declared
    obtain ⟨home, known, fields, -⟩ := behind rel declared
    refine ⟨named, ?_⟩
    rw [fields, if_neg named, allowedFields?, known, Option.map_some]
  · have found : rewards.planJoins "orders" ["product.name", "agency.name"] =
        .ok ⟨"orders", rewards.relationshipsOf "orders"⟩ := by
      apply Outcome.toOption_eq_some.mp
      simp only [planJoins, sortedKeys_eq_insertionSort]
      decide +kernel
    obtain ⟨sources, prepared⟩ : ∃ sources,
        rewards.sourcesOf ⟨"orders", rewards.relationshipsOf "orders"⟩ = .ok sources :=
      Outcome.exists_eq_ok (by decide +kernel)
    obtain ⟨-, -, provided⟩ := planned _ _ found
    obtain ⟨-, count, -⟩ := provided sources prepared
    exact ⟨_, sources, found, prepared, count⟩

/-- The target of its relationship has an empty key. -/
def emptyKeyed : Schema where
  tables := [("orders", { name := "orders", fields := ["id"] }),
    ("", { name := "", fields := ["id"] })]
  relationships := [{
    source := "orders"
    key := "e"
    target := ""
    reference := "e"
    predicate := "e.id = orders.id" }]

/-- The table with the empty key has columns, and there are none behind the reference to it. -/
theorem fieldsOf?_of_empty_key :
    emptyKeyed.Accepted ∧
      (∀ entry ∈ emptyKeyed.tables, ∀ field ∈ entry.2.fields, '.' ∉ field.toList) ∧
      (∀ rel ∈ emptyKeyed.relationships, '.' ∉ rel.key.toList) ∧
      ∃ rel ∈ emptyKeyed.relationships,
        emptyKeyed.allowedFields? rel.target = some ["id"] ∧
        emptyKeyed.fieldsOf? rel.reference = none :=
  ⟨rfl, by decide, by decide, _, List.mem_singleton.mpr rfl, rfl, rfl⟩

end Schema

end Reporting
