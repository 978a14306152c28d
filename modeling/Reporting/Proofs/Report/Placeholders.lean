import Mathlib.Data.List.Forall2
import Reporting.Proofs.Report.Binding
import Reporting.Proofs.Report.Vetted

/-!
# Placeholders and values of a compiled report

The text of a compiled report and its values are written separately. `Schema.compile_placeholders`
says that they line up: the values are those that the filters bind, in their order, and a positive
limit; the placeholders of a filter's values stand in the conjunct of that filter, and that of the
limit stands last.
-/

namespace Reporting

open Sql

/-- A conjunct of the conditions and the values of its placeholders. -/
structure Conjunct where
  text : String
  values : List Scalar

/-- A filter as a conjunct: the test of its column, with a placeholder for each value that the
filter binds. -/
structure Conjunct.IsOf (schema : Schema) (table : String) (f : Filter) (conjunct : Conjunct) :
    Prop where
  binds : f.Binds conjunct.values
  written : ∃ resolved test, schema.resolveField table f.field = .ok resolved ∧
    f.test = .ok test ∧
    conjunct.text = Text.collapse (Condition.text ⟨⟨resolved.reference, resolved.column⟩, test⟩)
  marked : marks conjunct.text = conjunct.values.length

/-- The value of the limit as it was given, where it is positive. -/
def Report.limitValues (report : Report) : List Scalar :=
  match report.limit with
  | some n => if 0 < n then [.int n] else []
  | none => []

/-- A limit that the rules let through is bound as it was given. -/
theorem Report.Obeys.limitValues {schema : Schema} {table : String} {report : Report}
    (obeys : report.Obeys schema table) :
    ((effectiveLimit report.limit).map fun n : Nat => Scalar.int n).toList =
      report.limitValues := by
  unfold effectiveLimit Report.limitValues
  cases given : report.limit with
  | none => rfl
  | some n =>
      obtain ⟨-, most⟩ := obeys.limit n given
      by_cases positive : 0 < n
      · have unclamped : ((min n.toNat greatestLimit : Nat) : Int) = n := by omega
        have notLower : ¬ n ≤ 0 := by omega
        simp only [notLower, positive, ↓reduceIte, Option.map_some, Option.toList_some, unclamped]
      · have notHigher : n ≤ 0 := by omega
        simp only [notHigher, positive, ↓reduceIte, Option.map_none, Option.toList_none]

namespace Schema

variable {schema : Schema} {table : String} {report : Report}

/-- The conditions over prepared sources are the conjuncts of the filters. -/
theorem conjuncts_of_conditions {sources : ReportSources} (source : sources.schema = schema)
    (base : sources.table = table) (vetted : ∀ name ∈ sources.source.names, IsName name)
    {conditions : List Condition}
    (tested : List.Forall₂ (fun f c => sources.condition f = .ok c) report.filters conditions) :
    List.Forall₂ (Conjunct.IsOf schema table) report.filters
      (conditions.map fun condition =>
        ⟨Text.collapse condition.text, condition.test.values⟩) := by
  rw [List.forall₂_map_right_iff]
  refine tested.imp fun f condition built => ?_
  obtain ⟨found, fits⟩ := ReportSources.condition_eq_ok.mp built
  obtain ⟨resolved, known, -, -, -, column⟩ := ReportSources.column_eq_ok.mp found
  refine ⟨Filter.binds_of_test fits, ⟨resolved, condition.test, ?_, fits, ?_⟩, ?_⟩
  · rw [← source, ← base]
    exact known
  · rw [← column]
  · rw [marks_collapse]
    exact Condition.marks_text (ReportSources.names_of_column vetted found)

section Compiled

variable {compiled : CompiledQuery}

/-- The values of a compiled report are those that its filters bind, and its limit. -/
theorem exists_binds_of_compile (compiles : schema.compile table report = .ok compiled) :
    ∃ values, List.Forall₂ Filter.Binds report.filters values ∧
      compiled.params = values.flatten ++ report.limitValues := by
  obtain ⟨obeys, plan, sources, query, planned, prepared, clauses, rfl⟩ :=
    compile_eq_ok.mp compiles
  refine ⟨query.conditions.map (·.test.values), ?_, ?_⟩
  · rw [List.forall₂_map_right_iff]
    exact clauses.conditions.imp fun f condition built =>
      Filter.binds_of_test (ReportSources.condition_eq_ok.mp built).2
  · change query.params = _
    rw [Query.params, clauses.limit, obeys.limitValues, List.flatMap_def]

/-- A compiled report has a placeholder for each of its values. -/
theorem marks_of_compile (accepted : schema.Accepted)
    (compiles : schema.compile table report = .ok compiled) :
    marks compiled.sql = compiled.params.length := by
  obtain ⟨-, plan, sources, query, planned, prepared, clauses, rfl⟩ := compile_eq_ok.mp compiles
  have names := clauses.names_vetted (vetted_of_sourcesOf prepared)
  obtain ⟨-, -, rfl⟩ := sourcesOf_eq_ok.mp prepared
  refine query.marks_sql names ?_
  rw [clauses.source]
  exact marks_predicate accepted planned

/-- Placeholders and values of a compiled report line up. -/
theorem compile_placeholders (accepted : schema.Accepted)
    (compiles : schema.compile table report = .ok compiled) :
    marks compiled.sql = compiled.params.length ∧
      ∃ (conjuncts : List Conjunct) (shown arranged : String),
        List.Forall₂ (Conjunct.IsOf schema table) report.filters conjuncts ∧
        compiled.params = conjuncts.flatMap (·.values) ++ report.limitValues ∧
        compiled.sql = shown ++ clause " WHERE " " AND " (conjuncts.map (·.text)) ++ arranged ++
          (if report.isBounded then " LIMIT ?" else "") ∧
        marks shown = 0 ∧ marks arranged = 0 := by
  refine ⟨marks_of_compile accepted compiles, ?_⟩
  obtain ⟨obeys, plan, sources, query, planned, prepared, clauses, rfl⟩ :=
    compile_eq_ok.mp compiles
  have vetted := vetted_of_sourcesOf prepared
  have names := clauses.names_vetted vetted
  obtain ⟨-, -, rfl⟩ := sourcesOf_eq_ok.mp prepared
  obtain ⟨base, -, -⟩ := planJoins_declared planned
  have limit := obeys.limitValues
  have bounded := report.isSome_effectiveLimit
  rw [← clauses.limit] at limit bounded
  have predicates : ∀ join ∈ query.source.joins, marks join.predicate = 0 := by
    rw [clauses.source]
    exact marks_predicate accepted planned
  refine ⟨_, Text.collapse query.shownText, query.arrangedText,
    conjuncts_of_conditions rfl base vetted clauses.conditions, ?_, ?_, ?_,
    query.marks_arrangedText names⟩
  · change query.params = _
    rw [Query.params, limit, List.flatMap_map]
  · change query.sql = _
    rw [Query.sql_eq, bounded, List.map_map]
    rfl
  · rw [marks_collapse, query.marks_shownText names predicates]

end Compiled

/-- A question mark in a value is not a placeholder. -/
theorem rewards_placeholders_of_agencies :
    rewards.Accepted ∧
      rewards.compile "agencies"
        { dimensions := [⟨"id", none⟩],
          filters := [⟨"name", "LIKE", .text "a?"⟩, ⟨"id", "IN", .list [.int 1, .int 2]⟩],
          limit := some 3 } =
        .ok ⟨"SELECT agencies.id FROM agencies WHERE agencies.name LIKE ? AND " ++
            "agencies.id IN (?, ?) GROUP BY agencies.id LIMIT ?",
          [.text "%a?%", .int 1, .int 2, .int 3]⟩ ∧
      marks ("SELECT agencies.id FROM agencies WHERE agencies.name LIKE ? AND " ++
            "agencies.id IN (?, ?) GROUP BY agencies.id LIMIT ?") = 4 := by
  have compiles : rewards.compile "agencies"
        { dimensions := [⟨"id", none⟩],
          filters := [⟨"name", "LIKE", .text "a?"⟩, ⟨"id", "IN", .list [.int 1, .int 2]⟩],
          limit := some 3 } =
        .ok ⟨"SELECT agencies.id FROM agencies WHERE agencies.name LIKE ? AND " ++
            "agencies.id IN (?, ?) GROUP BY agencies.id LIMIT ?",
          [.text "%a?%", .int 1, .int 2, .int 3]⟩ := by
    apply Outcome.toOption_eq_some.mp
    simp only [compile, buildQuery, Report.check, Report.checkFields, planJoins,
      sortedKeys_eq_insertionSort]
    decide +kernel
  exact ⟨rewards_accepted, compiles, (compile_placeholders rewards_accepted compiles).1⟩

end Schema

end Reporting
