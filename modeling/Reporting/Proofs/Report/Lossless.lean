import Reporting.Proofs.Field.Located
import Reporting.Proofs.Report.Bounded
import Reporting.Proofs.Report.References
import Reporting.Proofs.Sql.Recovery

/-!
# Compilation loses nothing

Reports are `Equivalent` when they show the same fields and aggregates under the same names, filter
and order in the same way and have the same limit. Over a schema with proper names and clear join
predicates, reports of one table without line feeds in their labels are equivalent wherever their
statements have the same text and values (`Schema.equivalent_of_compile`). The columns and labels
are read off the text, a column tells the reference it was written for, and the number of
placeholders in every condition tells which values it has.
-/

namespace Reporting

open Sql

namespace Report

/-- The operation of an item, none for a dimension. -/
def itemOperation : Dimension ⊕ Metric → Option String
  | .inl _ => none
  | .inr m => some m.operation

/-- Items that show the same: one field, and one operation if there is any. -/
def SameItem (item other : Dimension ⊕ Metric) : Prop :=
  itemField item = itemField other ∧ itemOperation item = itemOperation other

/-- Filters that ask the same, with values that are the same. -/
structure SameFilter (same : Scalar → Scalar → Prop) (f g : Filter) : Prop where
  field : f.field = g.field
  operator : f.operator = g.operator
  values : ∃ values others, f.binds = .ok values ∧ g.binds = .ok others ∧
    List.Forall₂ same values others

/-- Entries of an order with one direction, which name items that are the same in their reports. -/
structure SameOrder (first second : Report) (entry other : SortEntry) : Prop where
  direction : entry.direction = other.direction
  item : ∃ before item beforeToo itemToo, IsFirst (Means entry.field) first.items before item ∧
    IsFirst (Means other.field) second.items beforeToo itemToo ∧ SameItem item itemToo

/-- Reports that say the same, with values that are the same. -/
structure Equivalent (same : Scalar → Scalar → Prop) (first second : Report) : Prop where
  dimensions : first.dimensions.map (·.field) = second.dimensions.map (·.field)
  metrics : first.metrics.map (fun m => (m.operation, m.field)) =
    second.metrics.map fun m => (m.operation, m.field)
  names : first.items.map itemName = second.items.map itemName
  filters : List.Forall₂ (SameFilter same) first.filters second.filters
  sort : List.Forall₂ (SameOrder first second) first.sort second.sort
  limit : effectiveLimit first.limit = effectiveLimit second.limit

end Report

namespace Sql

/-- The operation that asks for an aggregate. -/
def Aggregate.operation : Aggregate → String
  | .sum => "SUM"
  | .count => "COUNT"

/-- The aggregate of an entry that is computed. -/
def Selection.aggregate? : Selection → Option Aggregate
  | .column _ | .labelled _ _ => none
  | .aggregate function _ _ => some function

theorem Selection.eq_of_shownColumn? {selection : Selection} {column : Column}
    (shows : selection.shownColumn? = some column) :
    selection.source = column ∧ selection.aggregate? = none := by
  cases selection with
  | column source => exact ⟨Option.some.inj shows, rfl⟩
  | labelled source label => exact ⟨Option.some.inj shows, rfl⟩
  | aggregate function source label => cases shows

end Sql

theorem Metric.operation_eq {m : Metric} {aggregate : Aggregate}
    (known : m.aggregate? = some aggregate) : m.operation = aggregate.operation := by
  rcases m.aggregate?_cases with ⟨operation, found⟩ | ⟨operation, found⟩ | ⟨-, found⟩
  · rw [found] at known
    cases known
    exact operation
  · rw [found] at known
    cases known
    exact operation
  · rw [found] at known
    cases known

theorem Direction.eq_of_iff {direction other : Direction}
    (same : direction = .descending ↔ other = .descending) : direction = other := by
  cases direction with
  | descending => exact (same.mp rfl).symm
  | ascending =>
      cases other with
      | ascending => rfl
      | descending => exact same.mpr rfl

/-- The keyword of a filter's test is its operator. -/
theorem Filter.keyword_of_test {f : Filter} {test : Test} (found : f.test = .ok test) :
    test.keyword = f.operator := by
  unfold Filter.test at found
  split at found
  next => cases found
  next wanted known =>
    rw [Operator.eq_keyword known]
    cases found
    cases wanted <;> rfl
  next wanted known =>
    rw [Operator.eq_keyword known]
    obtain ⟨values, -, rfl⟩ := Outcome.map_eq_ok.mp found
    cases wanted <;> rfl
  next known =>
    rw [Operator.eq_keyword known]
    obtain ⟨value, -, rfl⟩ := Outcome.map_eq_ok.mp found
    rfl
  next comparison known =>
    rw [Operator.eq_keyword known]
    obtain ⟨value, -, rfl⟩ := Outcome.map_eq_ok.mp found
    cases comparison <;> rfl

namespace Report

variable {schema : Schema} {table : String}

theorem ShownAs.itemOperation_eq {item : Dimension ⊕ Metric} {selection : Selection}
    (shown : ShownAs schema table item selection) :
    itemOperation item = selection.aggregate?.map Aggregate.operation := by
  cases shown with
  | column unlabelled found => rfl
  | labelled given found => rfl
  | aggregate known named found =>
      rw [itemOperation, Metric.operation_eq known]
      rfl

theorem ShownAs.exists_resolved {item : Dimension ⊕ Metric} {selection : Selection}
    (shown : ShownAs schema table item selection) :
    ∃ resolved, schema.resolveField table (itemField item) = .ok resolved ∧
      selection.source = ⟨resolved.reference, resolved.column⟩ := by
  cases shown with
  | column unlabelled found => exact ⟨_, found, rfl⟩
  | labelled given found => exact ⟨_, found, rfl⟩
  | aggregate known named found => exact ⟨_, found, rfl⟩

/-- Items that are shown by one column and aggregate are the same. -/
theorem ShownAs.sameItem (accepted : schema.Accepted) {item other : Dimension ⊕ Metric}
    {selection selectionToo : Selection} (shown : ShownAs schema table item selection)
    (shownToo : ShownAs schema table other selectionToo)
    (source : selection.source = selectionToo.source)
    (aggregate : selection.aggregate? = selectionToo.aggregate?) : SameItem item other := by
  obtain ⟨resolved, found, column⟩ := shown.exists_resolved
  obtain ⟨resolvedToo, foundToo, columnToo⟩ := shownToo.exists_resolved
  rw [column, columnToo, Column.mk.injEq] at source
  refine ⟨accepted.field_eq found foundToo source.1 source.2, ?_⟩
  rw [shown.itemOperation_eq, shownToo.itemOperation_eq, aggregate]

variable {first second : Report} {selections : List Selection}
  (shown : List.Forall₂ (ShownAs schema table) first.items selections)
  (shownToo : List.Forall₂ (ShownAs schema table) second.items selections)

include shown shownToo

/-- Reports with one select list show the same items. -/
theorem sameItem_of_shownAs (accepted : schema.Accepted) :
    List.Forall₂ SameItem first.items second.items := by
  have same : List.Forall₂ Eq selections selections := List.forall₂_refl selections
  refine (Outcome.forall₂_results same shown.flip shownToo.flip).imp ?_
  rintro item other ⟨selection, selectionToo, rfl, shows, showsToo⟩
  exact shows.sameItem accepted showsToo rfl rfl

/-- One key of the order means one item. -/
theorem sameItem_of_groupedKey (accepted : schema.Accepted)
    (distinct : (selections.map Selection.givenName).Nodup) {sources sourcesToo : ReportSources}
    {entry other : SortEntry} {key : OrderKey}
    (found : sources.groupedKey first selections entry = .ok key)
    (foundToo : sourcesToo.groupedKey second selections other = .ok key) :
    ∃ before item beforeToo itemToo, IsFirst (Means entry.field) first.items before item ∧
      IsFirst (Means other.field) second.items beforeToo itemToo ∧ SameItem item itemToo := by
  obtain ⟨before, item, selection, isFirst, selected, shows, outcome⟩ :=
    ReportSources.exists_item_of_groupedKey shown found
  obtain ⟨beforeToo, itemToo, selectionToo, isFirstToo, selectedToo, showsToo, outcomeToo⟩ :=
    ReportSources.exists_item_of_groupedKey shownToo foundToo
  refine ⟨before, item, beforeToo, itemToo, isFirst, isFirstToo, ?_⟩
  have entries (same : selection = selectionToo) : SameItem item itemToo := by
    subst same
    exact shows.sameItem accepted showsToo rfl rfl
  rcases outcome with rfl | ⟨label, labelled, rfl⟩ | ⟨source, visible, rfl⟩
  · rcases outcomeToo with position | ⟨_, _, differ⟩ | ⟨_, _, differ⟩
    · rw [OrderKey.position.injEq, Nat.add_right_cancel_iff] at position
      rw [position, selectedToo] at selected
      exact entries (Option.some.inj selected).symm
    · cases differ
    · cases differ
  · rcases outcomeToo with differ | ⟨labelToo, labelledToo, same⟩ | ⟨_, _, differ⟩
    · cases differ
    · cases same
      apply entries
      apply List.inj_on_of_nodup_map distinct (List.mem_of_getElem? selected)
        (List.mem_of_getElem? selectedToo)
      rw [Selection.givenName_of_label? labelled, Selection.givenName_of_label? labelledToo]
    · cases differ
  · rcases outcomeToo with differ | ⟨_, _, differ⟩ | ⟨sourceToo, visibleToo, same⟩
    · cases differ
    · cases differ
    · cases same
      obtain ⟨column, computed⟩ := Selection.eq_of_shownColumn? visible
      obtain ⟨columnToo, computedToo⟩ := Selection.eq_of_shownColumn? visibleToo
      exact shows.sameItem accepted showsToo (column.trans columnToo.symm)
        (computed.trans computedToo.symm)

end Report

namespace JoinPlan

variable {schema : Schema} {table : String} {report : Report} {plan : JoinPlan}

/-- Over proper names the source of a plan writes proper names. -/
theorem source_proper (accepted : schema.Accepted) (names : schema.NamesSatisfy IsProper)
    (planned : schema.planJoins table report.referencedFields = .ok plan) :
    ∀ name ∈ (plan.sources schema).source.names, IsProper name := by
  obtain ⟨base, reportable, declared⟩ := Schema.planJoins_declared planned
  intro name member
  rcases List.mem_cons.mp member with rfl | joined
  · obtain ⟨home, known⟩ := Schema.exists_table_of_isReportable reportable
    change IsProper plan.base
    rw [base]
    exact (names.of_table? known).1
  · obtain ⟨join, listed, inside⟩ := List.mem_flatMap.mp joined
    obtain ⟨rel, planned, rfl⟩ := List.mem_map.mp listed
    obtain ⟨isDeclared, -, -⟩ := Schema.mem_of_relationship? (declared rel planned)
    rcases List.mem_cons.mp inside with rfl | last
    · obtain ⟨home, known⟩ := accepted.exists_target isDeclared
      exact (names.of_table? known).1
    · rw [List.mem_singleton.mp last]
      exact names.reference rel isDeclared

/-- Over proper names and clear join predicates a report without line feeds in its labels has a
clear statement. -/
theorem clear_of_clauses (accepted : schema.Accepted) (names : schema.NamesSatisfy IsProper)
    (predicates : ∀ rel ∈ schema.relationships, ClearPredicate rel.predicate)
    (obeys : report.Obeys schema table)
    (planned : schema.planJoins table report.referencedFields = .ok plan)
    (clean : ∀ label ∈ report.labels, '\n' ∉ label.toList) {query : Query}
    (clauses : (plan.sources schema).Clauses report query) : query.Clear := by
  have plain := names.mono fun _ proper => proper.2
  have source := source_proper accepted names planned
  have vetted (name : String) (member : name ∈ (plan.sources schema).source.names) : IsName name :=
    (source name member).isName
  have column {field : String} {found : Column}
      (resolves : (plan.sources schema).column field = .ok found) :=
    column_proper plain planned vetted resolves
  have selections := selections_proper plain planned vetted clean clauses
  constructor
  · intro none
    have shown := shownAs_of_clauses planned clauses
    rw [none, List.forall₂_nil_right_iff, Report.items, List.append_eq_nil_iff,
      List.map_eq_nil_iff] at shown
    exact obeys.dimensions_ne_nil shown.1
  · exact selections
  · rw [clauses.source]
    exact source
  · rw [clauses.source]
    intro join member
    obtain ⟨rel, joined, rfl⟩ := List.mem_map.mp member
    obtain ⟨-, -, declared⟩ := Schema.planJoins_declared planned
    exact predicates rel (Schema.mem_of_relationship? (declared rel joined)).1
  · intro condition member
    obtain ⟨f, -, found⟩ := Outcome.exists_of_mem_right clauses.conditions member
    exact column (ReportSources.condition_eq_ok.mp found).1
  · intro grouped member
    obtain ⟨d, -, found⟩ := Outcome.exists_of_mem_right clauses.grouping member
    exact column found
  · intro entry member
    obtain ⟨spec, -, found, -⟩ := Outcome.exists_of_mem_right clauses.order member
    exact ReportSources.names_of_groupedKey selections found

end JoinPlan

namespace Report

variable {first second : Report}

/-- Reports that show the same items have the same dimensions and the same metrics. -/
theorem map_eq_of_sameItem (same : List.Forall₂ SameItem first.items second.items) :
    first.dimensions.map (·.field) = second.dimensions.map (·.field) ∧
      first.metrics.map (fun m => (m.operation, m.field)) =
        second.metrics.map fun m => (m.operation, m.field) := by
  have seen : first.items.map (fun item => (itemOperation item, itemField item)) =
      second.items.map fun item => (itemOperation item, itemField item) := by
    rw [← List.forall₂_eq_eq_eq, List.forall₂_map_left_iff, List.forall₂_map_right_iff]
    exact same.imp fun item other ⟨field, operation⟩ => by rw [field, operation]
  constructor
  · have dimensions (report : Report) : report.dimensions.map (·.field) =
        (report.items.map fun item => (itemOperation item, itemField item)).filterMap
          fun shown => if shown.1.isNone then some shown.2 else none := by
      simp [items, List.filterMap_append, Function.comp_def, itemOperation, itemField]
    rw [dimensions, dimensions, seen]
  · have metrics (report : Report) : report.metrics.map (fun m => (m.operation, m.field)) =
        (report.items.map fun item => (itemOperation item, itemField item)).filterMap
          fun shown => shown.1.map fun operation => (operation, shown.2) := by
      simp [items, List.filterMap_append, Function.comp_def, itemOperation, itemField]
    rw [metrics, metrics, seen]

/-- Conditions that are written alike, with values that are the same, come from filters that ask
the same. -/
theorem sameFilter_of_condition {schema : Schema} (accepted : schema.Accepted) {table : String}
    {plan planToo : JoinPlan} (planned : schema.planJoins table first.referencedFields = .ok plan)
    (plannedToo : schema.planJoins table second.referencedFields = .ok planToo) {f g : Filter}
    {c d : Condition} (found : (plan.sources schema).condition f = .ok c)
    (foundToo : (planToo.sources schema).condition g = .ok d) (outline : c.outline = d.outline)
    {same : Scalar → Scalar → Prop} (values : List.Forall₂ same c.test.values d.test.values) :
    SameFilter same f g := by
  obtain ⟨column, test⟩ := ReportSources.condition_eq_ok.mp found
  obtain ⟨columnToo, testToo⟩ := ReportSources.condition_eq_ok.mp foundToo
  obtain ⟨resolved, resolves, shown⟩ := JoinPlan.exists_resolved planned column
  obtain ⟨resolvedToo, resolvesToo, shownToo⟩ := JoinPlan.exists_resolved plannedToo columnToo
  simp only [Condition.outline, Prod.mk.injEq] at outline
  obtain ⟨columns, keywords, -⟩ := outline
  rw [shown, shownToo, Column.mk.injEq] at columns
  refine ⟨accepted.field_eq resolves resolvesToo columns.1 columns.2, ?_, ?_⟩
  · rw [← Filter.keyword_of_test test, keywords, Filter.keyword_of_test testToo]
  · refine ⟨c.test.values, d.test.values, ?_, ?_, values⟩
    · rw [Filter.binds, test]
      rfl
    · rw [Filter.binds, testToo]
      rfl

/-- Orders that are written alike come from orders that are the same. -/
theorem sameOrder_of_clauses {schema : Schema} (accepted : schema.Accepted) {table : String}
    {sources sourcesToo : ReportSources} {query queryToo : Query}
    (clauses : sources.Clauses first query) (clausesToo : sourcesToo.Clauses second queryToo)
    (shown : List.Forall₂ (ShownAs schema table) first.items query.selections)
    (shownToo : List.Forall₂ (ShownAs schema table) second.items query.selections)
    (distinct : (query.selections.map Selection.givenName).Nodup)
    (alike : query.WrittenAlike queryToo) :
    List.Forall₂ (SameOrder first second) first.sort second.sort := by
  have orders : List.Forall₂ Eq query.order queryToo.order := by
    rw [alike.order]
    exact List.forall₂_refl _
  refine (Outcome.forall₂_results orders clauses.order.flip clausesToo.order.flip).imp ?_
  rintro entry other ⟨ordered, orderedToo, rfl, ⟨found, direction⟩, foundToo, directionToo⟩
  rw [← alike.selections] at foundToo
  refine ⟨?_, sameItem_of_groupedKey shown shownToo accepted distinct found foundToo⟩
  rw [direction, decide_eq_decide] at directionToo
  exact Direction.eq_of_iff directionToo

end Report

namespace Schema

variable {schema : Schema} {table : String} {first second : Report}
  {compiled compiledToo : CompiledQuery} {same : Scalar → Scalar → Prop}

theorem limit_eq_of_forall₂ (integers : ∀ n m : Int, same (.int n) (.int m) → n = m)
    {limit other : Option Nat}
    (values : List.Forall₂ same (limit.map fun n : Nat => Scalar.int n).toList
      (other.map fun n : Nat => Scalar.int n).toList) : limit = other := by
  cases limit with
  | none =>
      cases other with
      | none => rfl
      | some m => cases values
  | some n =>
      cases other with
      | none => cases values
      | some m =>
          cases values with
          | cons head _ => rw [Int.ofNat_inj.mp (integers n m head)]

/-- Over proper names and clear join predicates, reports without line feeds in their labels say the
same where they compile to one text, with values that are the same. -/
theorem equivalent_of_compile (accepted : schema.Accepted) (names : schema.NamesSatisfy IsProper)
    (predicates : ∀ rel ∈ schema.relationships, ClearPredicate rel.predicate)
    (integers : ∀ n m : Int, same (.int n) (.int m) → n = m)
    (clean : ∀ label ∈ first.labels, '\n' ∉ label.toList)
    (cleanToo : ∀ label ∈ second.labels, '\n' ∉ label.toList)
    (compiles : schema.compile table first = .ok compiled)
    (compilesToo : schema.compile table second = .ok compiledToo)
    (sql : compiled.sql = compiledToo.sql)
    (params : List.Forall₂ same compiled.params compiledToo.params) :
    first.Equivalent same second := by
  obtain ⟨obeys, plan, sources, query, planned, prepared, clauses, rfl⟩ :=
    compile_eq_ok.mp compiles
  obtain ⟨obeysToo, planToo, sourcesToo, queryToo, plannedToo, preparedToo, clausesToo, rfl⟩ :=
    compile_eq_ok.mp compilesToo
  obtain ⟨-, -, rfl⟩ := sourcesOf_eq_ok.mp prepared
  obtain ⟨-, -, rfl⟩ := sourcesOf_eq_ok.mp preparedToo
  have clear := JoinPlan.clear_of_clauses accepted names predicates obeys planned clean clauses
  have clearToo := JoinPlan.clear_of_clauses accepted names predicates obeysToo plannedToo cleanToo
    clausesToo
  have alike := clear.writtenAlike clearToo sql
  obtain ⟨conditions, limits⟩ := forall₂_values alike.conditions params
  have shown := JoinPlan.shownAs_of_clauses planned clauses
  have shownToo := JoinPlan.shownAs_of_clauses plannedToo clausesToo
  rw [← alike.selections] at shownToo
  have promised := Report.promised_of_shownAs obeys shown
  have promisedToo := Report.promised_of_shownAs obeysToo shownToo
  obtain ⟨dimensions, metrics⟩ :=
    Report.map_eq_of_sameItem (Report.sameItem_of_shownAs shown shownToo accepted)
  refine ⟨dimensions, metrics, promised.named.trans promisedToo.named.symm, ?_, ?_, ?_⟩
  · refine (Outcome.forall₂_results conditions clauses.conditions.flip
      clausesToo.conditions.flip).imp ?_
    rintro f g ⟨c, d, ⟨outline, values⟩, found, foundToo⟩
    exact Report.sameFilter_of_condition accepted planned plannedToo found foundToo outline values
  · exact Report.sameOrder_of_clauses accepted clauses clausesToo shown shownToo promised.distinct
      alike
  · rw [← clauses.limit, ← clausesToo.limit]
    exact limit_eq_of_forall₂ integers limits

theorem rewards_predicates : ∀ rel ∈ rewards.relationships, ClearPredicate rel.predicate := by
  decide +kernel

/-- Nothing is lost when reports of the rewards programme are compiled: those without line feeds in
their labels say the same wherever they compile to one text with values that are the same, whatever
it means for two values to be the same as long as integers are told apart. -/
theorem rewards_lossless (integers : ∀ n m : Int, same (.int n) (.int m) → n = m)
    (clean : ∀ label ∈ first.labels, '\n' ∉ label.toList)
    (cleanToo : ∀ label ∈ second.labels, '\n' ∉ label.toList)
    (compiles : rewards.compile table first = .ok compiled)
    (compilesToo : rewards.compile table second = .ok compiledToo)
    (sql : compiled.sql = compiledToo.sql)
    (params : List.Forall₂ same compiled.params compiledToo.params) :
    first.Equivalent same second :=
  equivalent_of_compile rewards_accepted rewards_names rewards_predicates integers clean cleanToo
    compiles compilesToo sql params

/-- Two reports that differ in a label that would be made anyway and in a limit of zero compile to
one statement. -/
theorem rewards_lossless_of_orders :
    ∃ compiled, rewards.compile "orders"
        { dimensions := [⟨"status", none⟩], metrics := [⟨"id", "COUNT", none⟩],
          filters := [⟨"status", "IN", .list [.text "new", .text "sent"]⟩] } =
          .ok compiled ∧
      rewards.compile "orders"
        { dimensions := [⟨"status", none⟩], metrics := [⟨"id", "COUNT", some "count_id"⟩],
          filters := [⟨"status", "IN", .list [.text "new", .text "sent"]⟩],
          limit := some 0 } = .ok compiled ∧
      Report.Equivalent Eq
        { dimensions := [⟨"status", none⟩], metrics := [⟨"id", "COUNT", none⟩],
          filters := [⟨"status", "IN", .list [.text "new", .text "sent"]⟩] }
        { dimensions := [⟨"status", none⟩], metrics := [⟨"id", "COUNT", some "count_id"⟩],
          filters := [⟨"status", "IN", .list [.text "new", .text "sent"]⟩],
          limit := some 0 } := by
  have compiles : rewards.compile "orders"
      { dimensions := [⟨"status", none⟩], metrics := [⟨"id", "COUNT", none⟩],
        filters := [⟨"status", "IN", .list [.text "new", .text "sent"]⟩] } =
      .ok ⟨"SELECT orders.status, count(orders.id) AS count_id FROM orders " ++
        "WHERE orders.status IN (?, ?) GROUP BY orders.status", [.text "new", .text "sent"]⟩ := by
    apply Outcome.toOption_eq_some.mp
    simp only [compile, buildQuery, Report.check, Report.checkFields, planJoins,
      sortedKeys_eq_insertionSort]
    decide +kernel
  have compilesToo : rewards.compile "orders"
      { dimensions := [⟨"status", none⟩], metrics := [⟨"id", "COUNT", some "count_id"⟩],
        filters := [⟨"status", "IN", .list [.text "new", .text "sent"]⟩],
        limit := some 0 } =
      .ok ⟨"SELECT orders.status, count(orders.id) AS count_id FROM orders " ++
        "WHERE orders.status IN (?, ?) GROUP BY orders.status", [.text "new", .text "sent"]⟩ := by
    apply Outcome.toOption_eq_some.mp
    simp only [compile, buildQuery, Report.check, Report.checkFields, planJoins,
      sortedKeys_eq_insertionSort]
    decide +kernel
  refine ⟨_, compiles, compilesToo, ?_⟩
  apply rewards_lossless (fun n m => Scalar.int.inj) _ _ compiles compilesToo rfl
    (List.forall₂_refl _)
  · decide
  · decide

end Schema

end Reporting
