import Mathlib.Data.List.Forall2
import Reporting.Proofs.Join.Plan
import Reporting.Proofs.Report.Compile

/-!
# The references of a statement

A source introduces the reference of its base and those of its joins, each for one table
(`Sql.Source.tables`), and the clauses of a statement refer to columns (`Sql.Query.columns`). A
compiled statement introduces every reference once, takes every column from the table that its
reference stands for, and groups by the columns that it shows as they are
(`Schema.compile_references`).
-/

namespace Reporting

namespace Sql

/-- The references that a source introduces, each with the table that it stands for. -/
def Source.tables (source : Source) : List (String × String) :=
  (source.base, source.base) :: source.joins.map fun join => (join.reference, join.table)

/-- The column that an entry of the select list shows or computes from. -/
def Selection.source : Selection → Column
  | .column source | .labelled source _ | .aggregate _ source _ => source

def OrderKey.column? : OrderKey → Option Column
  | .column source => some source
  | .label _ | .position _ => none

/-- The columns that the clauses of a statement refer to. -/
def Query.columns (query : Query) : List Column :=
  query.selections.map Selection.source ++ query.conditions.map (·.column) ++ query.grouping ++
    query.order.filterMap (·.key.column?)

/-- A selected entry is ordered by its label or by its own column. -/
theorem Selection.eq_source_of_orderKey (columnsOf : String → List String)
    (selections : List Selection) (selection : Selection) {column : Column}
    (ordered : (selection.orderKey columnsOf selections).column? = some column) :
    column = selection.source := by
  cases selection with
  | column source => exact (Option.some.inj ordered).symm
  | aggregate function source label => exact absurd ordered (by simp [orderKey, OrderKey.column?])
  | labelled source label =>
      simp only [orderKey] at ordered
      split at ordered
      · exact absurd ordered (by simp [OrderKey.column?])
      · split at ordered
        · exact absurd ordered (by simp [OrderKey.column?])
        · exact (Option.some.inj ordered).symm

end Sql

/-- A column of the table that its reference stands for. -/
def Schema.Offers (schema : Schema) (source : Sql.Source) (column : Sql.Column) : Prop :=
  ∃ key table, (column.reference, key) ∈ source.tables ∧ schema.table? key = some table ∧
    column.name ∈ table.fields

/-- A column that a dimension, a filter or a metric refers to. -/
def Schema.StandsFor (schema : Schema) (table field : String) (column : Sql.Column) : Prop :=
  ∃ resolved, schema.resolveField table field = .ok resolved ∧
    column = ⟨resolved.reference, resolved.column⟩

namespace ReportSources

variable {sources : ReportSources}

/-- The key of the table behind a reference. -/
def tableOf (sources : ReportSources) (reference : String) : String :=
  match sources.source.joins.find? (·.reference == reference) with
  | some join => join.table
  | none => reference

theorem columnsOf_eq (reference : String) : sources.columnsOf reference =
    (sources.schema.allowedFields? (sources.tableOf reference)).getD [] := rfl

/-- The references are those of the source's tables. -/
theorem references_eq : sources.references = sources.source.tables.map (·.1) := by
  simp [references, Sql.Source.tables]

/-- A reference that is introduced stands for the table behind it. -/
theorem mem_tables {reference : String} (introduced : reference ∈ sources.references) :
    (reference, sources.tableOf reference) ∈ sources.source.tables := by
  unfold tableOf
  split
  next join found =>
    have same := List.find?_some found
    obtain rfl : join.reference = reference := beq_iff_eq.mp same
    exact List.mem_cons_of_mem _ (List.mem_map.mpr ⟨join, List.mem_of_find?_eq_some found, rfl⟩)
  next missing =>
    rcases List.mem_cons.mp introduced with rfl | joined
    · exact List.mem_cons_self
    · obtain ⟨join, inSource, rfl⟩ := List.mem_map.mp joined
      exact absurd (beq_self_eq_true _) (List.find?_eq_none.mp missing join inSource)

/-- A reference that is introduced stands for the table whose columns it gives. -/
theorem exists_table_of_mem_columnsOf {reference column : String}
    (introduced : reference ∈ sources.references) (held : column ∈ sources.columnsOf reference) :
    ∃ key table, (reference, key) ∈ sources.source.tables ∧
      sources.schema.table? key = some table ∧ column ∈ table.fields := by
  rw [columnsOf_eq, Schema.allowedFields?] at held
  cases known : sources.schema.table? (sources.tableOf reference) with
  | none =>
      rw [known] at held
      exact absurd held List.not_mem_nil
  | some table =>
      rw [known] at held
      exact ⟨_, table, mem_tables introduced, known, held⟩

/-- A column that is found is offered by the source. -/
theorem offers_of_column {field : String} {column : Sql.Column}
    (found : sources.column field = .ok column) : sources.schema.Offers sources.source column := by
  obtain ⟨resolved, -, introduced, -, held, rfl⟩ := column_eq_ok.mp found
  exact exists_table_of_mem_columnsOf introduced held

/-- A column that is found stands for its field. -/
theorem standsFor_of_column {field : String} {column : Sql.Column}
    (found : sources.column field = .ok column) :
    sources.schema.StandsFor sources.table field column := by
  obtain ⟨resolved, known, -, -, -, rfl⟩ := column_eq_ok.mp found
  exact ⟨resolved, known, rfl⟩

/-- A dimension is shown by its own column. -/
theorem shownColumn?_of_selectDimension {d : Dimension} {selection : Sql.Selection}
    (shown : sources.selectDimension d = .ok selection) :
    ∃ column, selection.shownColumn? = some column ∧ selection.source = column ∧
      sources.column d.field = .ok column := by
  obtain ⟨column, found, ⟨-, rfl⟩ | ⟨label, -, -, rfl⟩⟩ := selectDimension_eq_ok.mp shown
  · exact ⟨column, rfl, rfl, found⟩
  · exact ⟨column, rfl, rfl, found⟩

/-- A metric is computed from its own column. -/
theorem source_of_selectMetric {m : Metric} {selection : Sql.Selection}
    (computed : sources.selectMetric m = .ok selection) :
    selection.shownColumn? = none ∧ sources.column m.field = .ok selection.source := by
  obtain ⟨-, label, aggregate, column, -, -, -, -, found, -, rfl⟩ :=
    selectMetric_eq_ok.mp computed
  exact ⟨rfl, found⟩

/-- Behind dimensions that are shown stand their columns. -/
theorem forall₂_shownColumn? {dimensions : List Dimension} {columns : List Sql.Selection}
    (shown : List.Forall₂ (fun d s => sources.selectDimension d = .ok s) dimensions columns) :
    List.Forall₂ (fun d column => sources.column d.field = .ok column) dimensions
      (columns.filterMap Sql.Selection.shownColumn?) := by
  induction shown with
  | nil => exact .nil
  | cons first _ ih =>
      obtain ⟨column, isShown, -, found⟩ := shownColumn?_of_selectDimension first
      rw [List.filterMap_cons_some isShown]
      exact .cons found ih

namespace Clauses

variable {report : Report} {query : Sql.Query} (clauses : sources.Clauses report query)

include clauses

/-- The statement groups by the columns that it shows as they are. -/
theorem grouping_eq : query.grouping = query.selections.filterMap Sql.Selection.shownColumn? := by
  obtain ⟨columns, aggregates, shown, computed, selections⟩ := clauses.selections
  have hidden : aggregates.filterMap Sql.Selection.shownColumn? = [] := by
    rw [List.filterMap_eq_nil_iff]
    intro selection member
    obtain ⟨m, -, found⟩ := Outcome.exists_of_mem_right computed member
    exact (source_of_selectMetric found).1
  rw [selections, List.filterMap_append, hidden, List.append_nil]
  exact Outcome.forall₂_unique (f := fun d : Dimension => sources.column d.field)
    clauses.grouping (forall₂_shownColumn? shown)

/-- Whatever is selected is offered by the source. -/
theorem offers_selection {selection : Sql.Selection} (member : selection ∈ query.selections) :
    sources.schema.Offers sources.source selection.source := by
  obtain ⟨columns, aggregates, shown, computed, selections⟩ := clauses.selections
  rw [selections] at member
  rcases List.mem_append.mp member with column | aggregate
  · obtain ⟨d, -, found⟩ := Outcome.exists_of_mem_right shown column
    obtain ⟨_, -, rfl, known⟩ := shownColumn?_of_selectDimension found
    exact offers_of_column known
  · obtain ⟨m, -, found⟩ := Outcome.exists_of_mem_right computed aggregate
    exact offers_of_column (source_of_selectMetric found).2

/-- A column in the order is that of a selected entry. -/
theorem exists_selection_of_order {entry : Sql.OrderEntry} (member : entry ∈ query.order)
    {column : Sql.Column} (ordered : entry.key.column? = some column) :
    ∃ selection ∈ query.selections, column = selection.source := by
  obtain ⟨spec, -, found, -⟩ := Outcome.exists_of_mem_right clauses.order member
  obtain ⟨target, -, ⟨-, same⟩ | ⟨label, -, selection, shown, same⟩⟩ := groupedKey_eq_ok.mp found
  · rw [same] at ordered
    exact absurd ordered (by simp [Sql.OrderKey.column?])
  · rw [same] at ordered
    exact ⟨selection, List.mem_of_getElem? shown,
      Sql.Selection.eq_source_of_orderKey _ _ _ ordered⟩

/-- Every column of a statement is one of the table that its reference stands for. -/
theorem offers_columns : ∀ column ∈ query.columns, sources.schema.Offers sources.source column := by
  simp only [Sql.Query.columns, List.forall_mem_append, List.forall_mem_map]
  refine ⟨⟨⟨fun selection => clauses.offers_selection, ?_⟩, ?_⟩, ?_⟩
  · intro condition member
    obtain ⟨f, -, found⟩ := Outcome.exists_of_mem_right clauses.conditions member
    exact offers_of_column (condition_eq_ok.mp found).1
  · intro column member
    obtain ⟨d, -, found⟩ := Outcome.exists_of_mem_right clauses.grouping member
    exact offers_of_column found
  · intro column member
    obtain ⟨entry, inOrder, ordered⟩ := List.mem_filterMap.mp member
    obtain ⟨selection, selected, rfl⟩ := clauses.exists_selection_of_order inOrder ordered
    exact clauses.offers_selection selected

end Clauses

end ReportSources

namespace Schema

variable {schema : Schema} {table : String} {report : Report}

/-- A plan provides every reference once. -/
theorem Accepted.nodup_references (accepted : schema.Accepted) {fields : List String}
    {plan : JoinPlan} (planned : schema.planJoins table fields = .ok plan) :
    plan.references.Nodup := by
  obtain ⟨base, -, declared⟩ := planJoins_declared planned
  have known (rel : Relationship) (joined : rel ∈ plan.joins) :
      rel ∈ schema.relationships ∧ rel.source = table := by
    obtain ⟨member, source, -⟩ := mem_of_relationship? (declared rel joined)
    exact ⟨member, source⟩
  rw [JoinPlan.references, List.nodup_cons, base]
  constructor
  · intro member
    obtain ⟨rel, joined, same⟩ := List.mem_map.mp member
    obtain ⟨isDeclared, source⟩ := known rel joined
    exact accepted.reference_ne_source isDeclared (same.trans source.symm)
  · apply List.Nodup.map_on _ (accepted.planned_joins planned).1.nodup.of_map
    intro rel joined other joinedToo same
    exact accepted.eq_of_reference (known rel joined).1 (known other joinedToo).1
      ((known rel joined).2.trans (known other joinedToo).2.symm) same

/-- The source of a compiled report is its table followed by the joins of its plan, each once and
behind the ones that it requires, and introduces every reference once. Every column in a clause
belongs to the table that its reference stands for, and the grouping is made of the columns of the
dimensions in order, which are the entries of the select list that are not aggregated. -/
theorem compile_references (accepted : schema.Accepted) {compiled : CompiledQuery}
    (compiles : schema.compile table report = .ok compiled) :
    ∃ plan query, schema.planJoins table report.referencedFields = .ok plan ∧
      schema.buildQuery table report = .ok query ∧ compiled = .ofQuery query ∧
      query.source = ⟨table, plan.joins.map Relationship.join⟩ ∧
      plan.keys.Nodup ∧ RequirementsFirst plan.joins ∧ (query.source.tables.map (·.1)).Nodup ∧
      (∀ column ∈ query.columns, schema.Offers query.source column) ∧
      List.Forall₂ (fun d column => schema.StandsFor table d.field column) report.dimensions
        query.grouping ∧
      query.grouping = query.selections.filterMap Sql.Selection.shownColumn? := by
  obtain ⟨obeys, plan, sources, query, planned, prepared, clauses, rfl⟩ :=
    compile_eq_ok.mp compiles
  have built := buildQuery_eq_ok.mpr ⟨obeys, plan, sources, planned, prepared, clauses⟩
  obtain ⟨-, -, rfl⟩ := sourcesOf_eq_ok.mp prepared
  obtain ⟨base, -, -⟩ := planJoins_declared planned
  obtain ⟨joined, -⟩ := accepted.planned_joins planned
  have source := clauses.source
  refine ⟨plan, query, planned, built, rfl, ?_, joined.nodup, joined.ordered, ?_, ?_, ?_,
    clauses.grouping_eq⟩
  · rw [source, JoinPlan.sources, base]
  · have references : query.source.tables.map (·.1) = plan.references := by
      rw [source, ← JoinPlan.references_sources schema]
      simp [Sql.Source.tables, ReportSources.references]
    rw [references]
    exact accepted.nodup_references planned
  · rw [source]
    exact clauses.offers_columns
  · refine clauses.grouping.imp fun d column found => ?_
    rw [← base]
    exact ReportSources.standsFor_of_column found

/-- Items by product, ordered by a label. -/
theorem rewards_references_of_products :
    rewards.Accepted ∧
      ∃ (compiled : CompiledQuery) (plan : JoinPlan) (query : Sql.Query), rewards.compile "orders"
          { dimensions := [⟨"product.name", some "product"⟩, ⟨"status", none⟩],
            metrics := [⟨"items.quantity", "SUM", none⟩],
            sort := [⟨"product", .ascending⟩] } = .ok compiled ∧
        compiled = .ofQuery query ∧
        query.source = ⟨"orders", plan.joins.map Relationship.join⟩ ∧
        (query.source.tables.map (·.1)).Nodup ∧
        (∀ column ∈ query.columns, rewards.Offers query.source column) ∧
        query.grouping = query.selections.filterMap Sql.Selection.shownColumn? := by
  obtain ⟨compiled, compiles⟩ : ∃ compiled, rewards.compile "orders"
      { dimensions := [⟨"product.name", some "product"⟩, ⟨"status", none⟩],
        metrics := [⟨"items.quantity", "SUM", none⟩],
        sort := [⟨"product", .ascending⟩] } = .ok compiled := by
    apply Outcome.exists_eq_ok
    simp only [compile, buildQuery, Report.check, Report.checkFields, planJoins,
      sortedKeys_eq_insertionSort]
    decide +kernel
  obtain ⟨plan, query, -, -, same, source, -, -, introduced, offered, -, grouping⟩ :=
    compile_references rewards_accepted compiles
  exact ⟨rewards_accepted, compiled, plan, query, compiles, same, source, introduced, offered,
    grouping⟩

end Schema

end Reporting
