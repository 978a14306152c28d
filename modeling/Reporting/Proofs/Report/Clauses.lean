import Mathlib.Data.List.Forall2
import Reporting.Proofs.Join
import Reporting.Report.Clauses
import Reporting.Report.Rules

/-!
# What the builders build

For every builder of a clause, what it gives where it ends well: the columns, selections, conditions
and order keys of a statement in terms of the report and the resolved references.
-/

namespace Reporting

/-- The join that a relationship stands for. -/
def Relationship.join (rel : Relationship) : Sql.Join :=
  ⟨rel.kind, rel.target, rel.reference, rel.predicate⟩

/-- The source table of a plan and its joins, in the order of the plan. -/
def JoinPlan.sources (schema : Schema) (plan : JoinPlan) : ReportSources :=
  ⟨schema, plan.base, ⟨plan.base, plan.joins.map Relationship.join⟩⟩

theorem JoinPlan.references_sources (schema : Schema) (plan : JoinPlan) :
    (plan.sources schema).references = plan.references := by
  simp only [ReportSources.references, sources, references, List.map_map, Function.comp_def,
    Relationship.join]

namespace Schema

variable {schema : Schema}

/-- A name is let through iff it is one. -/
theorem vetName_eq_ok {name : String} : vetTable.vetName name = .ok () ↔ Sql.IsName name := by
  simp only [vetTable.vetName, Outcome.map_eq_ok, and_true, Sql.vetIdentifier_eq_ok,
    exists_and_left, exists_eq, and_true]

/-- A table is let through iff its key and its columns are names. -/
theorem vetTable_eq_ok {key : String} :
    schema.vetTable key = .ok () ↔
      Sql.IsName key ∧ ∀ field ∈ (schema.allowedFields? key).getD [], Sql.IsName field := by
  simp only [vetTable, Outcome.checkAll_eq_ok, vetName_eq_ok, List.forall_mem_cons]

/-- A relationship gives its join iff the table behind it is let through and its reference is a
name. -/
theorem joinOf_eq_ok {rel : Relationship} {join : Sql.Join} :
    schema.joinOf rel = .ok join ↔
      schema.vetTable rel.target = .ok () ∧ Sql.IsName rel.reference ∧ join = rel.join := by
  simp only [joinOf, Outcome.check_bind_eq_ok, Outcome.checkAll_eq_ok, vetName_eq_ok,
    Outcome.pure_eq_ok, addedNames, Relationship.join]
  constructor
  · rintro ⟨target, added, rfl⟩
    refine ⟨target, ?_, rfl⟩
    by_cases same : rel.reference = rel.target
    · rw [same]
      exact (vetTable_eq_ok.mp target).1
    · simpa [same] using added
  · rintro ⟨target, reference, rfl⟩
    refine ⟨target, ?_, rfl⟩
    intro name member
    split at member
    · exact absurd member List.not_mem_nil
    · exact List.mem_singleton.mp member ▸ reference

/-- Relationships give their joins one by one. -/
theorem forall₂_join {joins : List Relationship} {built : List Sql.Join} :
    List.Forall₂ (fun rel join => schema.joinOf rel = .ok join) joins built ↔
      (∀ rel ∈ joins, schema.vetTable rel.target = .ok () ∧ Sql.IsName rel.reference) ∧
        built = joins.map Relationship.join := by
  simp only [joinOf_eq_ok]
  induction joins generalizing built with
  | nil => simp
  | cons rel rest ih =>
      rw [List.forall₂_cons_left_iff, List.forall_mem_cons, List.map_cons]
      constructor
      · rintro ⟨join, others, ⟨target, reference, rfl⟩, tail, rfl⟩
        obtain ⟨vetted, rfl⟩ := ih.mp tail
        exact ⟨⟨⟨target, reference⟩, vetted⟩, rfl⟩
      · rintro ⟨⟨⟨target, reference⟩, vetted⟩, rfl⟩
        exact ⟨_, _, ⟨target, reference, rfl⟩, ih.mpr ⟨vetted, rfl⟩, rfl⟩

/-- Sources are prepared where every name of the plan is vetted. -/
theorem sourcesOf_eq_ok {plan : JoinPlan} {sources : ReportSources} :
    schema.sourcesOf plan = .ok sources ↔
      schema.vetTable plan.base = .ok () ∧
        (∀ rel ∈ plan.joins, schema.vetTable rel.target = .ok () ∧ Sql.IsName rel.reference) ∧
        sources = plan.sources schema := by
  rw [sourcesOf, Outcome.check_bind_eq_ok]
  simp only [Outcome.bind_eq_ok, Outcome.mapM_eq_ok, forall₂_join, Outcome.pure_eq_ok,
    JoinPlan.sources]
  refine and_congr_right fun _ => ?_
  constructor
  · rintro ⟨joins, ⟨vetted, rfl⟩, rfl⟩
    exact ⟨vetted, rfl⟩
  · rintro ⟨vetted, rfl⟩
    exact ⟨_, ⟨vetted, rfl⟩, rfl⟩

end Schema

namespace ReportSources

variable {sources : ReportSources}

/-- A column is that of a resolved reference whose table is joined and holds it. -/
theorem column_eq_ok {field : String} {found : Sql.Column} :
    sources.column field = .ok found ↔
      ∃ resolved, sources.schema.resolveField sources.table field = .ok resolved ∧
        resolved.reference ∈ sources.references ∧ Sql.IsName resolved.column ∧
        resolved.column ∈ sources.columnsOf resolved.reference ∧
        found = ⟨resolved.reference, resolved.column⟩ := by
  simp only [column, Outcome.bind_eq_ok, Outcome.guarded_eq_ok, Outcome.pure_eq_ok,
    BuildFault.lift_eq_ok, Sql.vetIdentifier_eq_ok, Bool.not_eq_true', Bool.not_eq_false,
    List.contains_iff_mem]
  constructor
  · rintro ⟨resolved, known, joined, _, ⟨vetted, rfl⟩, held, rfl⟩
    exact ⟨resolved, known, joined, vetted, held, rfl⟩
  · rintro ⟨resolved, known, joined, vetted, held, rfl⟩
    exact ⟨resolved, known, joined, _, ⟨vetted, rfl⟩, held, rfl⟩

/-- A dimension is selected as its column, under its label if it has one. -/
theorem selectDimension_eq_ok {d : Dimension} {selection : Sql.Selection} :
    sources.selectDimension d = .ok selection ↔
      ∃ column, sources.column d.field = .ok column ∧
        ((givenLabel? d.label = none ∧ selection = .column column) ∨
          ∃ label, givenLabel? d.label = some label ∧ Sql.isLabel label.toList = true ∧
            selection = .labelled column label) := by
  simp only [selectDimension, Outcome.bind_eq_ok]
  refine exists_congr fun column => and_congr_right fun _ => ?_
  split
  next none =>
    rw [none, Outcome.pure_eq_ok, @eq_comm _ selection]
    simp only [true_and, reduceCtorEq, false_and, exists_false, or_false]
  next label given =>
    simp only [Outcome.bind_eq_ok, BuildFault.lift_eq_ok, Sql.vetLabel_eq_ok, Outcome.pure_eq_ok,
      given, reduceCtorEq, false_and, false_or, Option.some.injEq, exists_eq_left']
    constructor
    · rintro ⟨_, ⟨vetted, rfl⟩, rfl⟩
      exact ⟨vetted, rfl⟩
    · rintro ⟨vetted, rfl⟩
      exact ⟨_, ⟨vetted, rfl⟩, rfl⟩

/-- A metric is selected as an aggregate of its column under its output name. -/
theorem selectMetric_eq_ok {m : Metric} {selection : Sql.Selection} :
    sources.selectMetric m = .ok selection ↔
      ∃ resolved name aggregate column,
        sources.schema.resolveField sources.table m.field = .ok resolved ∧
        m.outputName = .ok name ∧ m.aggregate? = some aggregate ∧
        (aggregate = .sum → resolved.numeric = true) ∧ sources.column m.field = .ok column ∧
        Sql.isLabel name.toList = true ∧ selection = .aggregate aggregate column name := by
  simp only [selectMetric, Outcome.bind_eq_ok, BuildFault.lift_eq_ok, Outcome.guarded_eq_ok]
  constructor
  · rintro ⟨resolved, found, name, named, numeric, rest⟩
    split at rest
    · cases rest
    next aggregate known =>
      simp only [Outcome.bind_eq_ok, BuildFault.lift_eq_ok, Sql.vetLabel_eq_ok,
        Outcome.pure_eq_ok] at rest
      obtain ⟨column, shown, _, ⟨vetted, rfl⟩, rfl⟩ := rest
      refine ⟨resolved, _, aggregate, column, found, named, known, ?_, shown, vetted, rfl⟩
      rintro rfl
      by_contra other
      exact numeric ⟨known, by simpa using other⟩
  · rintro ⟨resolved, name, aggregate, column, found, named, known, numeric, shown, vetted, rfl⟩
    refine ⟨resolved, found, name, named, ?_, ?_⟩
    · rintro ⟨sum, other⟩
      rw [known, Option.some.injEq] at sum
      rw [numeric sum] at other
      cases other
    · simp only [known, Outcome.bind_eq_ok, BuildFault.lift_eq_ok, Sql.vetLabel_eq_ok,
        Outcome.pure_eq_ok]
      exact ⟨column, shown, name, ⟨vetted, rfl⟩, rfl⟩

/-- The select list holds the dimensions and then the metrics, and is not empty. -/
theorem select_eq_ok {dimensions : List Dimension} {metrics : List Metric}
    {selections : List Sql.Selection} :
    sources.select dimensions metrics = .ok selections ↔
      ∃ columns aggregates,
        List.Forall₂ (fun d s => sources.selectDimension d = .ok s) dimensions columns ∧
        List.Forall₂ (fun m s => sources.selectMetric m = .ok s) metrics aggregates ∧
        columns ++ aggregates ≠ [] ∧ selections = columns ++ aggregates := by
  simp only [select, Outcome.bind_eq_ok, Outcome.mapM_eq_ok, Outcome.guarded_eq_ok,
    Outcome.pure_eq_ok, List.isEmpty_iff]
  constructor
  · rintro ⟨columns, shown, aggregates, computed, some, rfl⟩
    exact ⟨columns, aggregates, shown, computed, some, rfl⟩
  · rintro ⟨columns, aggregates, shown, computed, some, rfl⟩
    exact ⟨columns, shown, aggregates, computed, some, rfl⟩

/-- A condition is a column and the test of its filter. -/
theorem condition_eq_ok {f : Filter} {condition : Sql.Condition} :
    sources.condition f = .ok condition ↔
      sources.column f.field = .ok condition.column ∧ f.test = .ok condition.test := by
  simp only [ReportSources.condition, Outcome.bind_eq_ok, Outcome.pure_eq_ok]
  constructor
  · rintro ⟨column, found, test, fits, rfl⟩
    exact ⟨found, fits⟩
  · rintro ⟨found, fits⟩
    exact ⟨_, found, _, fits, rfl⟩

/-- In a grouped statement an entry of the order goes by the label of its item, or by the position
if the item has none. -/
theorem groupedKey_eq_ok {report : Report} {selections : List Sql.Selection} {entry : SortEntry}
    {key : Sql.OrderKey} :
    sources.groupedKey report selections entry = .ok key ↔
      ∃ target, report.sortTarget? entry.field = some target ∧
        ((givenLabel? target.label = none ∧ key = .position target.position) ∨
          ∃ label, givenLabel? target.label = some label ∧
            ∃ selection, selections[target.position - 1]? = some selection ∧
              key = selection.orderKey sources.columnsOf selections) := by
  unfold groupedKey
  split
  next missing => simp [missing]
  next target found =>
    simp only [found, Option.some.injEq, exists_eq_left']
    split
    next none => simp [none, eq_comm]
    next label given =>
      simp only [given, reduceCtorEq, false_and, false_or, Option.some.injEq, exists_eq_left']
      split
      next beyond => simp [beyond]
      next selection selected => simp [selected, eq_comm]

/-- The order of a grouped report: one entry after the other, each with its direction. -/
theorem order_eq_ok {report : Report} {selections : List Sql.Selection}
    {entries : List Sql.OrderEntry} :
    sources.order report selections true = .ok entries ↔
      List.Forall₂
        (fun entry ordered => sources.groupedKey report selections entry = .ok ordered.key ∧
          ordered.descending = decide (entry.direction = .descending))
        report.sort entries := by
  simp only [order, Outcome.mapM_eq_ok, ↓reduceIte, Outcome.bind_eq_ok, Outcome.pure_eq_ok]
  have same (entry : SortEntry) (ordered : Sql.OrderEntry) :
      (∃ key, sources.groupedKey report selections entry = .ok key ∧
        (⟨key, decide (entry.direction = .descending)⟩ : Sql.OrderEntry) = ordered) ↔
      sources.groupedKey report selections entry = .ok ordered.key ∧
        ordered.descending = decide (entry.direction = .descending) := by
    constructor
    · rintro ⟨key, found, rfl⟩
      exact ⟨found, rfl⟩
    · rintro ⟨found, direction⟩
      exact ⟨_, found, by rw [← direction]⟩
  simp only [same]

end ReportSources

/-- A limit is written where it is positive. -/
theorem Report.isSome_effectiveLimit (report : Report) :
    (effectiveLimit report.limit).isSome = report.isBounded := by
  unfold effectiveLimit Report.isBounded
  cases report.limit with
  | none => rfl
  | some n =>
      by_cases positive : 0 < n
      · have notLower : ¬ n ≤ 0 := by omega
        simp only [notLower, positive, ↓reduceIte, Option.isSome_some, Option.any_some, decide_true]
      · have notHigher : n ≤ 0 := by omega
        simp only [notHigher, positive, ↓reduceIte, Option.isSome_none, Option.any_some,
          decide_false]

end Reporting
