import Mathlib.Data.List.Forall2
import Reporting.Proofs.Report.Compile
import Reporting.Proofs.Schema.Accepted
import Reporting.Proofs.Sql.Placeholders

/-!
# Vetted statements

Whatever the names of a schema are, every name that a compiled statement writes was vetted
(`ReportSources.Clauses.names_vetted`), and over an accepted schema so was every join predicate.
-/

namespace Reporting

open Sql

/-- A join predicate holds no placeholder. -/
theorem Schema.marks_eq_zero_of_isPredicate {predicate : String}
    (vetted : isPredicate predicate = true) : marks predicate = 0 := by
  apply marks_eq_zero
  intro member
  rw [isPredicate, Bool.and_eq_true, List.all_eq_true] at vetted
  have allowed := vetted.2 '?' member
  exact absurd allowed (by decide)

/-- The predicates of a plan hold no placeholders. -/
theorem Schema.marks_predicate {schema : Schema} (accepted : schema.Accepted) {table : String}
    {fields : List String} {plan : JoinPlan}
    (planned : schema.planJoins table fields = .ok plan) :
    ∀ join ∈ (plan.sources schema).source.joins, marks join.predicate = 0 := by
  intro join member
  obtain ⟨rel, joined, rfl⟩ := List.mem_map.mp member
  obtain ⟨-, -, declared⟩ := planJoins_declared planned
  obtain ⟨known, -, -⟩ := mem_of_relationship? (declared rel joined)
  exact marks_eq_zero_of_isPredicate (accepted.isPredicate known)

namespace ReportSources

variable {sources : ReportSources} (vetted : ∀ name ∈ sources.source.names, IsName name)

/-- References are among the names of the source. -/
theorem references_subset_names : sources.references ⊆ sources.source.names := by
  intro reference member
  rcases List.mem_cons.mp member with rfl | joined
  · exact List.mem_cons_self
  · obtain ⟨join, found, rfl⟩ := List.mem_map.mp joined
    apply List.mem_cons_of_mem
    exact List.mem_flatMap.mpr ⟨join, found, by simp [Join.names]⟩

include vetted

/-- Over vetted sources a column has names only. -/
theorem names_of_column {field : String} {column : Column}
    (found : sources.column field = .ok column) : ∀ name ∈ column.names, IsName name := by
  obtain ⟨resolved, -, joined, isName, -, rfl⟩ := column_eq_ok.mp found
  intro name member
  rcases List.mem_cons.mp member with rfl | last
  · exact vetted _ (references_subset_names joined)
  · rw [List.mem_singleton.mp last]
    exact isName

/-- So has a dimension that is selected. -/
theorem names_of_selectDimension {d : Dimension} {selection : Selection}
    (shown : sources.selectDimension d = .ok selection) :
    ∀ name ∈ selection.names, IsName name := by
  obtain ⟨column, found, ⟨-, rfl⟩ | ⟨label, -, isLabel, rfl⟩⟩ := selectDimension_eq_ok.mp shown
  · exact names_of_column vetted found
  · exact List.forall_mem_cons.mpr ⟨isName_of_isLabel isLabel, names_of_column vetted found⟩

/-- So has a metric that is selected. -/
theorem names_of_selectMetric {m : Metric} {selection : Selection}
    (computed : sources.selectMetric m = .ok selection) :
    ∀ name ∈ selection.names, IsName name := by
  obtain ⟨-, label, -, column, -, -, -, -, found, isLabel, rfl⟩ := selectMetric_eq_ok.mp computed
  exact List.forall_mem_cons.mpr ⟨isName_of_isLabel isLabel, names_of_column vetted found⟩

omit vetted in
/-- The key of a selected entry writes no name but those of the entry. -/
theorem names_orderKey_subset (columnsOf : String → List String) (selections : List Selection)
    (selection : Selection) :
    (selection.orderKey columnsOf selections).names ⊆ selection.names := by
  cases selection with
  | column source => exact List.Subset.refl _
  | aggregate function source label =>
    exact List.cons_subset.mpr ⟨by simp [Selection.names], by simp⟩
  | labelled source label =>
      have whole : (OrderKey.label label).names ⊆ (Selection.labelled source label).names :=
        List.cons_subset.mpr ⟨by simp [Selection.names], by simp⟩
      simp only [Selection.orderKey]
      split
      · exact whole
      · split
        · exact whole
        · exact List.subset_cons_self label source.names

omit vetted in
/-- What holds of all names of a select list holds of those of the order. -/
theorem names_of_groupedKey {P : String → Prop} {report : Report} {selections : List Selection}
    (selected : ∀ selection ∈ selections, ∀ name ∈ selection.names, P name)
    {entry : SortEntry} {key : OrderKey}
    (found : sources.groupedKey report selections entry = .ok key) :
    ∀ name ∈ key.names, P name := by
  obtain ⟨target, -, ⟨-, rfl⟩ | ⟨label, -, selection, shown, rfl⟩⟩ := groupedKey_eq_ok.mp found
  · simp [OrderKey.names]
  · intro name member
    exact selected selection (List.mem_of_getElem? shown) name
      (names_orderKey_subset _ _ _ member)

/-- Every name that a statement over vetted sources writes was vetted. -/
theorem Clauses.names_vetted {report : Report} {query : Query}
    (clauses : sources.Clauses report query) :
    ∀ name ∈ query.names, IsName name := by
  obtain ⟨columns, aggregates, shown, computed, selections⟩ := clauses.selections
  have selected : ∀ selection ∈ query.selections, ∀ name ∈ selection.names, IsName name := by
    intro selection member
    rw [selections] at member
    rcases List.mem_append.mp member with column | aggregate
    · obtain ⟨d, -, found⟩ := Outcome.exists_of_mem_right shown column
      exact names_of_selectDimension vetted found
    · obtain ⟨m, -, found⟩ := Outcome.exists_of_mem_right computed aggregate
      exact names_of_selectMetric vetted found
  simp only [Query.names, List.forall_mem_append, List.forall_mem_flatMap]
  refine ⟨⟨⟨⟨selected, ?_⟩, ?_⟩, ?_⟩, ?_⟩
  · rw [clauses.source]
    exact vetted
  · intro condition member
    obtain ⟨f, -, found⟩ := Outcome.exists_of_mem_right clauses.conditions member
    exact names_of_column vetted (condition_eq_ok.mp found).1
  · intro column member
    obtain ⟨d, -, found⟩ := Outcome.exists_of_mem_right clauses.grouping member
    exact names_of_column vetted found
  · intro entry member
    obtain ⟨spec, -, found, -⟩ := Outcome.exists_of_mem_right clauses.order member
    exact names_of_groupedKey selected found

end ReportSources

/-- The names of prepared sources were vetted. -/
theorem Schema.vetted_of_sourcesOf {schema : Schema} {plan : JoinPlan} {sources : ReportSources}
    (prepared : schema.sourcesOf plan = .ok sources) :
    ∀ name ∈ sources.source.names, IsName name := by
  obtain ⟨base, joined, rfl⟩ := sourcesOf_eq_ok.mp prepared
  intro name member
  rcases List.mem_cons.mp member with rfl | behind
  · exact (vetTable_eq_ok.mp base).1
  obtain ⟨join, found, inside⟩ := List.mem_flatMap.mp behind
  obtain ⟨rel, planned, rfl⟩ := List.mem_map.mp found
  obtain ⟨target, reference⟩ := joined rel planned
  rcases List.mem_cons.mp inside with rfl | last
  · exact (vetTable_eq_ok.mp target).1
  · rw [List.mem_singleton.mp last]
    exact reference

end Reporting
