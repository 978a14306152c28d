import Mathlib.Data.List.Forall2
import Reporting.Proofs.Report.Output
import Reporting.Proofs.Report.Vetted
import Reporting.Proofs.Sql.SelectList

/-!
# The columns of a compiled report

A report promises one column for each of its dimensions and then its metrics, under the names that
the rules keep apart. `Report.ColumnsIn` says that the select list read off a text keeps this
promise. The text of a compiled report does iff no label holds a line feed
(`Schema.compile_columns`): a label may end in one, and as a blank it is collapsed with the rest.
-/

namespace Reporting

open Sql

namespace Report

/-- The items of a report, dimensions before metrics. -/
def items (report : Report) : List (Dimension ⊕ Metric) :=
  report.dimensions.map .inl ++ report.metrics.map .inr

/-- The name that an item promises for its column. -/
def itemName : Dimension ⊕ Metric → Except Rejection String
  | .inl d => d.outputName
  | .inr m => m.outputName

/-- The entry of a select list that shows an item. -/
inductive ShownAs (schema : Schema) (table : String) : Dimension ⊕ Metric → Selection → Prop where
  | column {d : Dimension} {resolved : ResolvedField} (unlabelled : givenLabel? d.label = none)
      (found : schema.resolveField table d.field = .ok resolved) :
      ShownAs schema table (.inl d) (.column ⟨resolved.reference, resolved.column⟩)
  | labelled {d : Dimension} {resolved : ResolvedField} {label : String}
      (given : givenLabel? d.label = some label)
      (found : schema.resolveField table d.field = .ok resolved) :
      ShownAs schema table (.inl d) (.labelled ⟨resolved.reference, resolved.column⟩ label)
  | aggregate {m : Metric} {resolved : ResolvedField} {aggregate : Aggregate} {name : String}
      (known : m.aggregate? = some aggregate) (named : m.outputName = .ok name)
      (found : schema.resolveField table m.field = .ok resolved) :
      ShownAs schema table (.inr m)
        (.aggregate aggregate ⟨resolved.reference, resolved.column⟩ name)

/-- The entries of a select list and what is read from them, as a report promises them. -/
structure Promised (schema : Schema) (table : String) (report : Report)
    (entries : List (List Token)) (selections : List Selection) : Prop where
  read : List.Forall₂ (fun entry selection => readSelection? entry = some selection)
    entries selections
  shown : List.Forall₂ (ShownAs schema table) report.items selections
  named : report.items.map itemName = selections.map fun selection => .ok selection.givenName
  quoted : List.Forall₂ (fun entry selection => ∀ label, selection.label? = some label →
      String.ofList (lowered label.toList) ∈ reservedWords →
      entry.getLast? = some (.quoted label))
    entries selections
  distinct : (selections.map Selection.givenName).Nodup

/-- The select list of a text shows what the report promises. -/
def ColumnsIn (schema : Schema) (table : String) (report : Report) (sql : String) : Prop :=
  ∃ entries selections, selectEntries? sql = some entries ∧
    report.Promised schema table entries selections

end Report

/-- A label without a line feed is a proper name. -/
theorem Sql.isProper_of_isLabel {label : String} (vetted : isLabel label.toList = true)
    (noNewline : '\n' ∉ label.toList) : IsProper label := by
  unfold isLabel at vetted
  rw [dropFinalNewline_of_not_mem noNewline] at vetted
  split at vetted
  next => exact absurd vetted (by decide)
  next first rest split =>
    simp only [Bool.and_eq_true, Bool.or_eq_true, List.all_eq_true, beq_iff_eq] at vetted
    constructor
    · rintro rfl
      simp at split
    · intro c member
      rw [split] at member
      rcases List.mem_cons.mp member with rfl | behind
      · rcases vetted.1 with letter | rfl
        · simp [isNameChar, letter]
        · decide
      · exact vetted.2 c behind

/-- The made name of a metric holds no line feed. -/
theorem Metric.newline_not_mem_outputName {schema : Schema} (names : schema.NamesSatisfy IsPlain)
    {table : String} {metric : Metric} {resolved : ResolvedField} {name : String}
    (found : schema.resolveField table metric.field = .ok resolved)
    (named : metric.outputName = .ok name)
    (given : ∀ label, givenLabel? metric.label = some label → '\n' ∉ label.toList) :
    '\n' ∉ name.toList := by
  unfold outputName at named
  split at named
  next label labelled =>
    cases named
    exact given _ labelled
  next =>
    split at named
    next aggregate _ =>
      cases named
      have flat : '\n' ∉ (flatField metric.field).toList := by
        intro member
        have plain := isPlain_flatField (fun c letter => names.mem_field found letter) '\n' member
        exact absurd plain (by decide)
      have start : '\n' ∉ (nameStart aggregate).toList := by cases aggregate <;> decide
      simp only [String.toList_append, List.mem_append, not_or]
      exact ⟨⟨start, by decide⟩, flat⟩
    next => cases named

namespace Schema

variable {schema : Schema} {table : String} {report : Report}

/-- The reference of a resolved field is a name of the schema. -/
theorem NamesSatisfy.of_reference {P : String → Prop} (names : schema.NamesSatisfy P)
    (reportable : schema.isReportable table = true) {field : String} {resolved : ResolvedField}
    (found : schema.resolveField table field = .ok resolved) : P resolved.reference := by
  rcases resolveField_eq_ok.mp found with ⟨column, allowed, -, -, -, rfl⟩ |
    ⟨key, column, rel, -, known, -, rfl⟩
  · obtain ⟨known, isTable⟩ := exists_table_of_isReportable reportable
    exact (names.of_table? isTable).1
  · obtain ⟨declared, -, -⟩ := mem_of_relationship? known
    exact names.reference rel declared

end Schema

namespace JoinPlan

variable {schema : Schema} {table : String} {report : Report} {plan : JoinPlan}
  (names : schema.NamesSatisfy IsPlain)
  (planned : schema.planJoins table report.referencedFields = .ok plan)
  (vetted : ∀ name ∈ (plan.sources schema).source.names, IsName name)

include planned in
/-- A written column is that of the resolved field. -/
theorem exists_resolved {field : String} {column : Column}
    (found : (plan.sources schema).column field = .ok column) :
    ∃ resolved, schema.resolveField table field = .ok resolved ∧
      column = ⟨resolved.reference, resolved.column⟩ := by
  obtain ⟨base, -, -⟩ := Schema.planJoins_declared planned
  obtain ⟨resolved, known, -, -, -, rfl⟩ := ReportSources.column_eq_ok.mp found
  refine ⟨resolved, ?_, rfl⟩
  rw [← base]
  exact known

include names planned vetted in
/-- A column of the statement has proper names. -/
theorem column_proper {field : String} {column : Column}
    (found : (plan.sources schema).column field = .ok column) :
    ∀ name ∈ column.names, IsProper name := by
  obtain ⟨-, reportable, -⟩ := Schema.planJoins_declared planned
  obtain ⟨resolved, known, rfl⟩ := exists_resolved planned found
  have isName := ReportSources.names_of_column vetted found
  intro name member
  refine ⟨(isName name member).ne_empty, ?_⟩
  rcases List.mem_cons.mp member with rfl | last
  · exact names.of_reference reportable known
  · rw [List.mem_singleton.mp last]
    exact (names.of_resolveField known).1

include planned in
/-- A dimension is shown as what is selected for it. -/
theorem shownAs_of_selectDimension {d : Dimension} {selection : Selection}
    (shown : (plan.sources schema).selectDimension d = .ok selection) :
    Report.ShownAs schema table (.inl d) selection := by
  obtain ⟨column, found, ⟨unlabelled, rfl⟩ | ⟨label, given, -, rfl⟩⟩ :=
    ReportSources.selectDimension_eq_ok.mp shown
  · obtain ⟨resolved, known, rfl⟩ := exists_resolved planned found
    exact .column unlabelled known
  · obtain ⟨resolved, known, rfl⟩ := exists_resolved planned found
    exact .labelled given known

include planned in
/-- A metric is shown as what is selected for it. -/
theorem shownAs_of_selectMetric {m : Metric} {selection : Selection}
    (computed : (plan.sources schema).selectMetric m = .ok selection) :
    Report.ShownAs schema table (.inr m) selection := by
  obtain ⟨-, name, aggregate, column, -, named, known, -, found, -, rfl⟩ :=
    ReportSources.selectMetric_eq_ok.mp computed
  obtain ⟨resolved, resolves, rfl⟩ := exists_resolved planned found
  exact .aggregate known named resolves

section Clean

variable (clean : ∀ label ∈ report.labels, '\n' ∉ label.toList)

include names planned vetted clean

/-- A dimension without a line feed in its label has proper names. -/
theorem selectDimension_proper {d : Dimension} (member : d ∈ report.dimensions)
    {selection : Selection} (shown : (plan.sources schema).selectDimension d = .ok selection) :
    ∀ name ∈ selection.names, IsProper name := by
  obtain ⟨column, found, ⟨-, rfl⟩ | ⟨label, given, isLabel, rfl⟩⟩ :=
    ReportSources.selectDimension_eq_ok.mp shown
  · exact column_proper names planned vetted found
  · have noNewline := clean label (Report.mem_labels_of_dimension member given)
    exact List.forall_mem_cons.mpr ⟨isProper_of_isLabel isLabel noNewline,
      column_proper names planned vetted found⟩

/-- So has a metric. -/
theorem selectMetric_proper {m : Metric} (member : m ∈ report.metrics)
    {selection : Selection} (computed : (plan.sources schema).selectMetric m = .ok selection) :
    ∀ name ∈ selection.names, IsProper name := by
  obtain ⟨-, name, aggregate, column, -, named, -, -, found, isLabel, rfl⟩ :=
    ReportSources.selectMetric_eq_ok.mp computed
  obtain ⟨resolved, known, -⟩ := exists_resolved planned found
  have given (label : String) (labelled : givenLabel? m.label = some label) :
      '\n' ∉ label.toList :=
    clean label (Report.mem_labels_of_metric member labelled)
  have noNewline := Metric.newline_not_mem_outputName names known named given
  exact List.forall_mem_cons.mpr ⟨isProper_of_isLabel isLabel noNewline,
    column_proper names planned vetted found⟩

/-- The whole select list has proper names. -/
theorem selections_proper {query : Query} (clauses : (plan.sources schema).Clauses report query) :
    ∀ selection ∈ query.selections, ∀ name ∈ selection.names, IsProper name := by
  obtain ⟨columns, aggregates, shown, computed, selections⟩ := clauses.selections
  intro selection member
  rw [selections] at member
  rcases List.mem_append.mp member with column | aggregate
  · obtain ⟨d, listed, found⟩ := Outcome.exists_of_mem_right shown column
    exact selectDimension_proper names planned vetted clean listed found
  · obtain ⟨m, listed, found⟩ := Outcome.exists_of_mem_right computed aggregate
    exact selectMetric_proper names planned vetted clean listed found

end Clean

include planned in
/-- The items of a report are shown as the select list, one by one. -/
theorem shownAs_of_clauses {query : Query} (clauses : (plan.sources schema).Clauses report query) :
    List.Forall₂ (Report.ShownAs schema table) report.items query.selections := by
  obtain ⟨columns, aggregates, shown, computed, selections⟩ := clauses.selections
  rw [selections, Report.items]
  apply List.rel_append
  · rw [List.forall₂_map_left_iff]
    exact shown.imp fun d selection found => shownAs_of_selectDimension planned found
  · rw [List.forall₂_map_left_iff]
    exact computed.imp fun m selection found => shownAs_of_selectMetric planned found

end JoinPlan

namespace Report

variable {schema : Schema} {table : String} {report : Report}

/-- An entry gives the name that its item promises. -/
theorem ShownAs.itemName {item : Dimension ⊕ Metric} {selection : Selection}
    (shown : ShownAs schema table item selection) :
    itemName item = .ok selection.givenName := by
  cases shown with
  | column unlabelled found =>
      simp only [Report.itemName, Dimension.outputName, unlabelled, Schema.resolveField_parse found]
      rfl
  | labelled given found =>
      simp only [Report.itemName, Dimension.outputName, given]
      rfl
  | aggregate known named found => exact named

theorem map_itemName_items : report.items.map itemName = report.outputs.map (·.2) := by
  simp only [items, outputs, List.map_append, List.map_map]
  rfl

/-- The entries of a statement show their items under the promised names. -/
theorem promised_of_shownAs (obeys : report.Obeys schema table) {selections : List Selection}
    (shown : List.Forall₂ (ShownAs schema table) report.items selections) :
    report.Promised schema table (selections.map Selection.tokens) selections := by
  have named : report.items.map itemName =
      selections.map fun selection => .ok selection.givenName := by
    rw [← List.forall₂_eq_eq_eq, List.forall₂_map_left_iff, List.forall₂_map_right_iff]
    exact shown.imp fun item selection shows => shows.itemName
  refine ⟨?_, shown, named, ?_, ?_⟩
  · rw [List.forall₂_map_left_iff, List.forall₂_same]
    intro selection _
    exact readSelection?_tokens selection
  · rw [List.forall₂_map_left_iff, List.forall₂_same]
    intro selection _ label labelled reserved
    rw [Selection.getLast?_tokens labelled, nameToken_of_reserved reserved]
  · obtain ⟨given, outputs, nodup⟩ := obeys.outputs
    have same : given = selections.map Selection.givenName := by
      rw [← map_itemName_items, named] at outputs
      apply List.map_injective_iff.mpr fun _ _ => Except.ok.inj
      rw [← outputs, List.map_map]
      rfl
    rw [← same]
    exact nodup

/-- A label is the name that its item promises. -/
theorem exists_item_of_mem_labels {label : String} (member : label ∈ report.labels)
    (some : label ≠ "") : ∃ item ∈ report.items, itemName item = .ok label := by
  rcases List.mem_append.mp member with ofDimension | ofMetric
  · obtain ⟨d, listed, given⟩ := List.mem_filterMap.mp ofDimension
    have named := givenLabel?_eq_some.mpr ⟨given, some⟩
    refine ⟨.inl d, List.mem_append_left _ (List.mem_map_of_mem listed), ?_⟩
    simp only [itemName, Dimension.outputName, named]
  · obtain ⟨m, listed, given⟩ := List.mem_filterMap.mp ofMetric
    have named := givenLabel?_eq_some.mpr ⟨given, some⟩
    refine ⟨.inr m, List.mem_append_right _ (List.mem_map_of_mem listed), ?_⟩
    simp only [itemName, Metric.outputName, named]

/-- Where the columns of a text are the promised ones, a label holds only what the text holds. -/
theorem ColumnsIn.mem_of_mem_label {sql : String} (shows : report.ColumnsIn schema table sql)
    {label : String} (member : label ∈ report.labels) (some : label ≠ "") {c : Char}
    (letter : c ∈ label.toList) : c ∈ sql.toList := by
  obtain ⟨entries, selections, found, promised⟩ := shows
  obtain ⟨item, listed, named⟩ := exists_item_of_mem_labels member some
  have given : Except.ok label ∈ report.items.map itemName := List.mem_map.mpr ⟨item, listed, named⟩
  rw [promised.named] at given
  obtain ⟨selection, selected, same⟩ := List.mem_map.mp given
  obtain ⟨entry, shown, read⟩ := Outcome.exists_of_mem_right promised.read selected
  obtain ⟨token, inside, holds⟩ := exists_token_of_readSelection? read
  rw [Except.ok.inj same] at holds
  exact mem_of_mem_selectEntries? found shown inside holds letter

end Report

/-- The text of a compiled report shows the promised columns iff no label holds a line feed. -/
theorem Schema.compile_columns {schema : Schema} (names : schema.NamesSatisfy IsPlain)
    {table : String} {report : Report} {compiled : CompiledQuery}
    (compiles : schema.compile table report = .ok compiled) :
    report.ColumnsIn schema table compiled.sql ↔
      ∀ label ∈ report.labels, '\n' ∉ label.toList := by
  obtain ⟨obeys, plan, sources, query, planned, prepared, clauses, rfl⟩ :=
    compile_eq_ok.mp compiles
  have vetted := vetted_of_sourcesOf prepared
  obtain ⟨-, -, rfl⟩ := sourcesOf_eq_ok.mp prepared
  constructor
  · intro shows label member newline
    have some : label ≠ "" := (isName_of_isLabel (obeys.labels label member)).ne_empty
    rcases Text.mem_collapse (shows.mem_of_mem_label member some newline) with space | solid
    · exact absurd space (by decide)
    · exact absurd solid (by decide)
  · intro clean
    have proper := JoinPlan.selections_proper names planned vetted clean clauses
    have shown := JoinPlan.shownAs_of_clauses planned clauses
    have nonempty : query.selections ≠ [] := by
      intro none
      rw [none, List.forall₂_nil_right_iff, Report.items, List.append_eq_nil_iff,
        List.map_eq_nil_iff] at shown
      exact obeys.dimensions_ne_nil shown.1
    have source : Text.HasWord query.source.text := by
      rw [clauses.source]
      exact (hasWord_quoteName (vetted _ List.mem_cons_self)).append_left _
    exact ⟨_, query.selections, query.selectEntries?_sql nonempty proper source,
      Report.promised_of_shownAs obeys shown⟩

/-- A reserved word as a label. -/
theorem rewards_columns_of_orders :
    Schema.rewards.NamesSatisfy IsPlain ∧
      ∃ compiled, Schema.rewards.compile "orders"
          { dimensions := [⟨"status", some "group"⟩], metrics := [⟨"id", "COUNT", none⟩] } =
            .ok compiled ∧
        Report.ColumnsIn Schema.rewards "orders"
          { dimensions := [⟨"status", some "group"⟩], metrics := [⟨"id", "COUNT", none⟩] }
          compiled.sql := by
  have names : Schema.rewards.NamesSatisfy IsPlain :=
    Schema.rewards_names.mono fun _ proper => proper.2
  obtain ⟨compiled, compiles⟩ : ∃ compiled, Schema.rewards.compile "orders"
      { dimensions := [⟨"status", some "group"⟩], metrics := [⟨"id", "COUNT", none⟩] } =
        .ok compiled := by
    apply Outcome.exists_eq_ok
    simp only [Schema.compile, Schema.buildQuery, Report.check, Report.checkFields,
      Schema.planJoins, Schema.sortedKeys_eq_insertionSort]
    decide +kernel
  refine ⟨names, compiled, compiles, (Schema.compile_columns names compiles).mpr ?_⟩
  decide

/-- Two labels that differ in a line feed at the end: the text gives two columns of one name. -/
theorem rewards_columns_with_newline :
    Schema.rewards.Accepted ∧ Schema.rewards.NamesSatisfy IsPlain ∧
      ∃ compiled, Schema.rewards.compile "orders"
          { dimensions := [⟨"id", some "x"⟩, ⟨"status", some "x\n"⟩] } = .ok compiled ∧
        ¬ Report.ColumnsIn Schema.rewards "orders"
          { dimensions := [⟨"id", some "x"⟩, ⟨"status", some "x\n"⟩] } compiled.sql := by
  refine ⟨Schema.rewards_accepted, Schema.rewards_names.mono fun _ proper => proper.2,
    ⟨"SELECT orders.id AS x, orders.status AS x FROM orders GROUP BY orders.id, orders.status", []⟩,
    ?_, ?_⟩
  · apply Outcome.toOption_eq_some.mp
    simp only [Schema.compile, Schema.buildQuery, Report.check, Report.checkFields,
      Schema.planJoins, Schema.sortedKeys_eq_insertionSort]
    decide +kernel
  · rintro ⟨entries, selections, found, promised⟩
    have listed : selectEntries?
        "SELECT orders.id AS x, orders.status AS x FROM orders GROUP BY orders.id, orders.status" =
        some [(Selection.labelled ⟨"orders", "id"⟩ "x").tokens,
          (Selection.labelled ⟨"orders", "status"⟩ "x").tokens] := by decide +kernel
    rw [listed] at found
    cases found
    have read := promised.read
    have distinct := promised.distinct
    simp only [List.forall₂_cons_left_iff, List.forall₂_nil_left_iff, readSelection?_tokens,
      Option.some.injEq] at read
    obtain ⟨_, _, rfl, ⟨_, _, rfl, rfl, rfl⟩, rfl⟩ := read
    exact absurd distinct (by decide)

end Reporting
