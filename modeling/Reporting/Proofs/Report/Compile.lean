import Mathlib.Data.List.Forall2
import Reporting.Proofs.Report.Clauses
import Reporting.Proofs.Report.Rules
import Reporting.Report.Compile

/-!
# Compiled reports, clause by clause

`ReportSources.Clauses` relates every clause of a statement to the part of the report it was built
from. A compiled report is one that obeys the rules, together with a plan, its sources and such a
statement (`Schema.compile_eq_ok`).
-/

namespace Reporting

/-- A statement whose clauses are those of a report with dimensions, over prepared sources. -/
structure ReportSources.Clauses (sources : ReportSources) (report : Report)
    (query : Sql.Query) : Prop where
  selections : ∃ columns aggregates,
    List.Forall₂ (fun d s => sources.selectDimension d = .ok s) report.dimensions columns ∧
      List.Forall₂ (fun m s => sources.selectMetric m = .ok s) report.metrics aggregates ∧
      query.selections = columns ++ aggregates
  source : query.source = sources.source
  conditions : List.Forall₂ (fun f c => sources.condition f = .ok c) report.filters query.conditions
  grouping : List.Forall₂ (fun d c => sources.column d.field = .ok c) report.dimensions
    query.grouping
  order : List.Forall₂
    (fun entry ordered => sources.groupedKey report query.selections entry = .ok ordered.key ∧
      ordered.descending = decide (entry.direction = .descending))
    report.sort query.order
  limit : query.limit = effectiveLimit report.limit

/-- A statement is built iff it has the clauses of the report. -/
theorem ReportSources.query_eq_ok {sources : ReportSources} {report : Report} {query : Sql.Query}
    (some : report.dimensions ≠ []) :
    sources.query report = .ok query ↔ sources.Clauses report query := by
  have grouped : (!report.dimensions.isEmpty) = true := by simpa using some
  simp only [ReportSources.query, Outcome.bind_eq_ok, select_eq_ok, Outcome.mapM_eq_ok, grouping,
    grouped, order_eq_ok, Outcome.pure_eq_ok]
  constructor
  · rintro ⟨_, ⟨columns, aggregates, shown, computed, _, rfl⟩, conditions, tested, grouping, keys,
      order, sorted, rfl⟩
    exact ⟨⟨columns, aggregates, shown, computed, rfl⟩, rfl, tested, keys, sorted, rfl⟩
  · rintro ⟨⟨columns, aggregates, shown, computed, selections⟩, source, tested, keys, sorted, limit⟩
    refine ⟨query.selections, ⟨columns, aggregates, shown, computed, ?_, selections⟩,
      query.conditions, tested, query.grouping, keys, query.order, sorted, ?_⟩
    · intro empty
      obtain ⟨rfl, -⟩ := List.append_eq_nil_iff.mp empty
      exact some (List.forall₂_nil_right_iff.mp shown)
    · rw [← source, ← limit]

namespace Schema

variable {schema : Schema} {table : String} {report : Report}

/-- A report has a statement iff it obeys the rules, its joins can be planned, its sources prepared
and its clauses built. -/
theorem buildQuery_eq_ok {query : Sql.Query} :
    schema.buildQuery table report = .ok query ↔
      report.Obeys schema table ∧ ∃ plan sources,
        schema.planJoins table report.referencedFields = .ok plan ∧
        schema.sourcesOf plan = .ok sources ∧ sources.Clauses report query := by
  rw [buildQuery, Outcome.check_bind_eq_ok, Report.check_eq_ok]
  refine and_congr_right fun obeys => ?_
  simp only [Outcome.bind_eq_ok, BuildFault.lift_eq_ok,
    ReportSources.query_eq_ok obeys.dimensions_ne_nil, exists_and_left]

/-- A compiled report obeys the rules, and its text and values are those of its statement. -/
theorem compile_eq_ok {compiled : CompiledQuery} :
    schema.compile table report = .ok compiled ↔
      report.Obeys schema table ∧ ∃ plan sources query,
        schema.planJoins table report.referencedFields = .ok plan ∧
        schema.sourcesOf plan = .ok sources ∧ sources.Clauses report query ∧
        compiled = .ofQuery query := by
  simp only [compile, Outcome.map_eq_ok, buildQuery_eq_ok]
  constructor
  · rintro ⟨query, ⟨obeys, plan, sources, planned, prepared, clauses⟩, rfl⟩
    exact ⟨obeys, plan, sources, query, planned, prepared, clauses, rfl⟩
  · rintro ⟨obeys, plan, sources, query, planned, prepared, clauses, rfl⟩
    exact ⟨query, ⟨obeys, plan, sources, planned, prepared, clauses⟩, rfl⟩

/-- What the rules refuse is not compiled, for the reason that the rules give. -/
theorem compile_eq_error_of_check {fault : BuildFault}
    (refused : report.check schema table = .error fault) :
    schema.compile table report = .error fault := by
  rw [compile, buildQuery, refused]
  rfl

end Schema

end Reporting
