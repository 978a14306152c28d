import Mathlib.Data.List.Forall2
import Reporting.Proofs.Report.Binding
import Reporting.Proofs.Report.Compile

/-!
# Values do not reach the text

Two reports are alike when they differ in the values of their filters only, in lists of one length
for the membership tests, and in the height of a positive limit (`Report.Alike`). Alike reports that
compile have the same text and equally many values (`Schema.compile_sql_of_alike`): everything but
the tests is built from the same parts, and a test writes no more of its values than how many there
are.
-/

namespace Reporting

open Sql

/-- Filters that differ in their values only; lists for membership tests are of one length. -/
structure Filter.Alike (f g : Filter) : Prop where
  field : f.field = g.field
  operator : f.operator = g.operator
  items : f.operator = "IN" ∨ f.operator = "NOT IN" → ∀ items others,
    f.value = .list items → g.value = .list others → items.length = others.length

/-- Reports that differ in values and in the height of a positive limit only. -/
structure Report.Alike (report other : Report) : Prop where
  dimensions : report.dimensions = other.dimensions
  metrics : report.metrics = other.metrics
  sort : report.sort = other.sort
  filters : List.Forall₂ Filter.Alike report.filters other.filters
  bounded : report.isBounded = other.isBounded

/-- Placeholders tell the number of values only. -/
theorem Sql.placeholders_congr {values others : List Scalar}
    (lengths : values.length = others.length) : placeholders values = placeholders others := by
  rw [placeholders, placeholders, List.map_const', List.map_const', lengths]

/-- Tests of filters that are alike are written alike and hold equally many values. -/
theorem Filter.Alike.text {f g : Filter} (alike : f.Alike g) {test other : Test}
    (found : f.test = .ok test) (foundToo : g.test = .ok other) (column : Column) :
    Condition.text ⟨column, test⟩ = Condition.text ⟨column, other⟩ ∧
      test.values.length = other.values.length := by
  unfold Filter.test at found foundToo
  rw [← alike.operator] at foundToo
  cases known : Operator.ofKeyword? f.operator with
  | none =>
      rw [known] at found
      cases found
  | some operator =>
      rw [known] at found foundToo
      cases operator with
      | nullTest wanted =>
          cases found
          cases foundToo
          exact ⟨rfl, rfl⟩
      | membership wanted =>
          obtain ⟨items, listed, rfl⟩ := Outcome.map_eq_ok.mp found
          obtain ⟨others, listedToo, rfl⟩ := Outcome.map_eq_ok.mp foundToo
          have keyword : f.operator = "IN" ∨ f.operator = "NOT IN" := by
            rw [Operator.eq_keyword known]
            cases wanted <;> simp [Operator.keyword]
          have lengths : items.length = others.length := by
            rw [BuildFault.lift_eq_ok] at listed listedToo
            simpa using alike.items keyword _ _ (memberValues_eq_ok listed)
              (memberValues_eq_ok listedToo)
          have written := placeholders_congr lengths
          cases wanted with
          | true => exact ⟨by simp only [Condition.text, ↓reduceIte, written], lengths⟩
          | false =>
              exact ⟨by simp only [Condition.text, Bool.false_eq_true, ↓reduceIte, written],
                lengths⟩
      | like =>
          obtain ⟨item, -, rfl⟩ := Outcome.map_eq_ok.mp found
          obtain ⟨otherItem, -, rfl⟩ := Outcome.map_eq_ok.mp foundToo
          exact ⟨rfl, rfl⟩
      | compare comparison =>
          obtain ⟨item, -, rfl⟩ := Outcome.map_eq_ok.mp found
          obtain ⟨otherItem, -, rfl⟩ := Outcome.map_eq_ok.mp foundToo
          exact ⟨rfl, rfl⟩

namespace Report.Alike

variable {report other : Report} (alike : report.Alike other)

include alike

theorem referencedFields : report.referencedFields = other.referencedFields := by
  have fields : report.filters.map (·.field) = other.filters.map (·.field) := by
    rw [← List.forall₂_eq_eq_eq, List.forall₂_map_left_iff, List.forall₂_map_right_iff]
    exact alike.filters.imp fun f g same => same.field
  rw [Report.referencedFields, Report.referencedFields, alike.dimensions, alike.metrics, fields]

/-- Alike reports order by the same items. -/
theorem sortTarget? (name : String) : report.sortTarget? name = other.sortTarget? name := by
  rw [Report.sortTarget?, Report.sortTarget?, alike.dimensions, alike.metrics]

/-- Alike reports have the same order. -/
theorem order (sources : ReportSources) (selections : List Selection) :
    sources.order report selections true = sources.order other selections true := by
  have key (entry : SortEntry) : sources.groupedKey report selections entry =
      sources.groupedKey other selections entry := by
    rw [ReportSources.groupedKey, ReportSources.groupedKey, alike.sortTarget?]
  simp only [ReportSources.order, alike.sort, key]

/-- The conditions of filters that are alike are written alike and hold equally many values. -/
theorem conditions {sources : ReportSources} {conditions others : List Condition}
    (tested : List.Forall₂ (fun f c => sources.condition f = .ok c) report.filters conditions)
    (testedToo : List.Forall₂ (fun f c => sources.condition f = .ok c) other.filters others) :
    conditions.map Condition.text = others.map Condition.text ∧
      conditions.map (·.test.values.length) = others.map (·.test.values.length) := by
  have each : List.Forall₂ (fun c d => c.text = d.text ∧
      c.test.values.length = d.test.values.length) conditions others := by
    refine (Outcome.forall₂_results alike.filters tested testedToo).imp ?_
    rintro ⟨column, test⟩ ⟨otherColumn, otherTest⟩ ⟨f, g, same, built, builtToo⟩
    obtain ⟨found, fits⟩ := ReportSources.condition_eq_ok.mp built
    obtain ⟨foundToo, fitsToo⟩ := ReportSources.condition_eq_ok.mp builtToo
    rw [same.field, foundToo, Except.ok.injEq] at found
    cases found
    exact same.text fits fitsToo column
  rw [← List.forall₂_eq_eq_eq, ← List.forall₂_eq_eq_eq]
  simp only [List.forall₂_map_left_iff, List.forall₂_map_right_iff]
  exact ⟨each.imp fun _ _ both => both.1, each.imp fun _ _ both => both.2⟩

end Report.Alike

/-- The clauses of reports that are alike differ in the values of their tests and in the height of
the limit only. -/
theorem ReportSources.Clauses.alike {sources : ReportSources} {report other : Report}
    {query otherQuery : Query} (clauses : sources.Clauses report query)
    (clausesToo : sources.Clauses other otherQuery) (alike : report.Alike other) :
    query.selections = otherQuery.selections ∧ query.source = otherQuery.source ∧
      query.grouping = otherQuery.grouping ∧ query.order = otherQuery.order ∧
      query.limit.isSome = otherQuery.limit.isSome := by
  have selections : query.selections = otherQuery.selections := by
    obtain ⟨columns, aggregates, shown, computed, selected⟩ := clauses.selections
    obtain ⟨columnsToo, aggregatesToo, shownToo, computedToo, selectedToo⟩ := clausesToo.selections
    rw [alike.dimensions] at shown
    rw [alike.metrics] at computed
    rw [selected, selectedToo, Outcome.forall₂_unique shown shownToo,
      Outcome.forall₂_unique computed computedToo]
  refine ⟨selections, ?_, ?_, ?_, ?_⟩
  · rw [clauses.source, clausesToo.source]
  · have grouped := clauses.grouping
    rw [alike.dimensions] at grouped
    exact Outcome.forall₂_unique grouped clausesToo.grouping
  · have order := ReportSources.order_eq_ok.mpr clauses.order
    rw [alike.order, selections, ReportSources.order_eq_ok.mpr clausesToo.order] at order
    exact (Except.ok.inj order).symm
  · rw [clauses.limit, clausesToo.limit, Report.isSome_effectiveLimit,
      Report.isSome_effectiveLimit, alike.bounded]

/-- The values of a report do not influence the text it compiles to. -/
theorem Schema.compile_sql_of_alike {schema : Schema} {table : String} {report other : Report}
    (alike : report.Alike other) {compiled otherCompiled : CompiledQuery}
    (compiles : schema.compile table report = .ok compiled)
    (compilesToo : schema.compile table other = .ok otherCompiled) :
    compiled.sql = otherCompiled.sql ∧
      compiled.params.length = otherCompiled.params.length := by
  obtain ⟨-, plan, sources, query, planned, prepared, clauses, rfl⟩ := compile_eq_ok.mp compiles
  obtain ⟨-, otherPlan, otherSources, otherQuery, plannedToo, preparedToo, clausesToo, rfl⟩ :=
    compile_eq_ok.mp compilesToo
  rw [alike.referencedFields, plannedToo] at planned
  cases planned
  rw [preparedToo] at prepared
  cases prepared
  obtain ⟨selections, source, grouping, order, limit⟩ := clauses.alike clausesToo alike
  obtain ⟨texts, lengths⟩ := alike.conditions clauses.conditions clausesToo.conditions
  constructor
  · change query.sql = otherQuery.sql
    rw [Query.sql, Query.sql, Query.rawText, Query.rawText, selections, source, texts, grouping,
      order, limit]
  · change query.params.length = otherQuery.params.length
    have limits (bound : Option Nat) :
        (bound.map fun n : Nat => Scalar.int n).toList.length = bound.isSome.toNat := by
      cases bound <;> rfl
    rw [Query.params, Query.params, List.length_append, List.length_append, List.length_flatMap,
      List.length_flatMap, lengths, limits, limits, limit]

/-- A value that looks like a part of a statement has no more influence than a number. -/
theorem rewards_text_of_agencies :
    ∃ first second,
      Schema.rewards.compile "agencies"
        { dimensions := [⟨"name", none⟩],
          filters := [⟨"id", "IN", .list [.text "1' OR '?'='?"]⟩], limit := some 1 } = .ok first ∧
      Schema.rewards.compile "agencies"
        { dimensions := [⟨"name", none⟩],
          filters := [⟨"id", "IN", .list [.int 7]⟩], limit := some 10000 } = .ok second ∧
      first.sql = second.sql ∧ first.params.length = second.params.length := by
  have alike : Report.Alike
      { dimensions := [⟨"name", none⟩],
        filters := [⟨"id", "IN", .list [.text "1' OR '?'='?"]⟩], limit := some 1 }
      { dimensions := [⟨"name", none⟩],
        filters := [⟨"id", "IN", .list [.int 7]⟩], limit := some 10000 } := by
    refine ⟨rfl, rfl, rfl, .cons ⟨rfl, rfl, ?_⟩ .nil, rfl⟩
    rintro - items others ⟨⟩ ⟨⟩
    rfl
  obtain ⟨first, compiles⟩ : ∃ compiled, Schema.rewards.compile "agencies"
      { dimensions := [⟨"name", none⟩],
        filters := [⟨"id", "IN", .list [.text "1' OR '?'='?"]⟩], limit := some 1 } =
      .ok compiled := by
    apply Outcome.exists_eq_ok
    simp only [Schema.compile, Schema.buildQuery, Report.check, Report.checkFields,
      Schema.planJoins, Schema.sortedKeys_eq_insertionSort]
    decide +kernel
  obtain ⟨second, compilesToo⟩ : ∃ compiled, Schema.rewards.compile "agencies"
      { dimensions := [⟨"name", none⟩],
        filters := [⟨"id", "IN", .list [.int 7]⟩], limit := some 10000 } = .ok compiled := by
    apply Outcome.exists_eq_ok
    simp only [Schema.compile, Schema.buildQuery, Report.check, Report.checkFields,
      Schema.planJoins, Schema.sortedKeys_eq_insertionSort]
    decide +kernel
  exact ⟨first, second, compiles, compilesToo,
    Schema.compile_sql_of_alike alike compiles compilesToo⟩

end Reporting
