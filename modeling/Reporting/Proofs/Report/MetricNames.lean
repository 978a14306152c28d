import Reporting.Proofs.Report.Unchecked

/-!
# The names of metrics

A metric without a label goes by a name that is made of its field, and the field may bring in the
key of a relationship, which nothing vets. Over proper tables, columns and references such a name is
a label iff that key is plain (`Metric.Nameable`). The rules vet given labels only, so a report that
they let through has its select list built iff all its metrics are nameable, and is otherwise
refused for the name of the first one that is not (`Report.select_of_check`).
-/

namespace Reporting

/-- No name goes on to name characters behind a character of another kind, not even behind a line
feed. -/
theorem Sql.not_isName_of_mem {name : String} {front back : List Char} {c : Char}
    (text : name.toList = front ++ back) (some : back ≠ [])
    (letters : ∀ d ∈ back, isNameChar d = true) (member : c ∈ front)
    (outside : isNameChar c = false) (noPoint : c ≠ '.') : ¬ IsName name := by
  have last : (front ++ back).getLast? ≠ Option.some '\n' := by
    rw [List.getLast?_append_of_ne_nil front some]
    intro newline
    exact absurd (letters '\n' (List.mem_of_getLast? newline)) (by decide)
  intro vetted
  simp only [IsName, isIdentifier, text, dropFinalNewline, if_neg last, Bool.and_eq_true,
    List.all_eq_true, Bool.or_eq_true, beq_iff_eq] at vetted
  rcases vetted.2 c (List.mem_append_left back member) with letter | point
  · simp [outside] at letter
  · exact noPoint point

namespace Metric

open Sql

variable {schema : Schema} {table : String} {m : Metric} {resolved : ResolvedField}
  {aggregate : Aggregate}

/-- The metric has a label, or its field goes through no relationship but one with a plain key. -/
def Nameable (m : Metric) : Prop :=
  givenLabel? m.label = none → ∀ key column, FieldReference.IsPair m.field key column → IsPlain key

/-- Without a label a metric that can be computed has a name made for it. -/
theorem outputName_of_unlabelled (unlabelled : givenLabel? m.label = none)
    (computed : m.aggregate? = some aggregate) :
    m.outputName = .ok (nameStart aggregate ++ "_" ++ flatField m.field) := by
  rw [outputName, unlabelled, computed]

/-- A field that resolves brings name characters and points into the name of a nameable metric. -/
theorem Nameable.mem_field (nameable : m.Nameable) (names : schema.ShownNamesSatisfy IsProper)
    (found : schema.resolveField table m.field = .ok resolved)
    (unlabelled : givenLabel? m.label = none) {c : Char} (member : c ∈ m.field.toList) :
    isNameChar c = true ∨ c = '.' := by
  have parsed := Schema.resolveField_parse found
  have column := (names.of_resolveField found).2
  cases through : resolved.key with
  | none =>
      rw [through] at parsed
      rw [FieldReference.field_eq_column parsed] at member
      exact .inl (column c member)
  | some key =>
      rw [through] at parsed
      have pair := FieldReference.parse_eq_related_iff.mp parsed
      rw [pair.toList_eq, List.mem_append, List.mem_cons] at member
      rcases member with front | point | back
      · exact .inl (nameable unlabelled key resolved.column pair c front)
      · exact .inr point
      · exact .inl (column c back)

/-- A name that is made with a key that is not plain is no identifier. -/
theorem not_isName_made {start key column : String}
    (pair : FieldReference.IsPair m.field key column) (proper : IsProper column)
    (unplain : ¬ IsPlain key) : ¬ IsName (start ++ flatField m.field) := by
  obtain ⟨c, inside, outside⟩ : ∃ c ∈ key.toList, isNameChar c = false := by
    simpa [IsPlain] using unplain
  have noPoint : c ≠ '.' := fun point => pair.key_bare (point ▸ inside)
  have split : (start ++ flatField m.field).toList =
      (start.toList ++ (flatField (key ++ ".")).toList) ++ (flatField column).toList := by
    simp [flatField, pair.joined]
  refine not_isName_of_mem split ?_ ?_ ?_ outside noPoint
  · simpa [flatField] using proper.1
  · exact isPlain_flatField fun d member => .inl (proper.2 d member)
  · simp only [flatField, String.toList_ofList, String.toList_append, List.map_append,
      List.mem_append, List.mem_map]
    exact .inr (.inl ⟨c, inside, by simp [noPoint]⟩)

/-- The name of a metric that can be computed is a label iff the metric is nameable; otherwise it is
no identifier at all. -/
theorem vetLabel_outputName (names : schema.ShownNamesSatisfy IsProper)
    (found : schema.resolveField table m.field = .ok resolved)
    (computed : m.aggregate? = some aggregate)
    (given : ∀ label, givenLabel? m.label = some label → isLabel label.toList = true) :
    ∃ name, m.outputName = .ok name ∧ (m.Nameable → vetLabel name = .ok name) ∧
      (¬ m.Nameable → vetLabel name = .error (.invalidIdentifier (.text name))) := by
  cases labelled : givenLabel? m.label with
  | some label =>
      refine ⟨label, by rw [outputName, labelled], fun _ => ?_, fun unnameable => ?_⟩
      · exact vetLabel_eq_ok.mpr ⟨given label labelled, rfl⟩
      · exact absurd (fun unlabelled => by simp [labelled] at unlabelled) unnameable
  | none =>
      refine ⟨_, outputName_of_unlabelled labelled computed, fun nameable => ?_,
        fun unnameable => ?_⟩
      · have plain : IsPlain (flatField m.field) :=
          isPlain_flatField fun c => nameable.mem_field names found labelled
        exact vetLabel_eq_ok.mpr ⟨isLabel_made plain aggregate, rfl⟩
      · simp only [Nameable, labelled, forall_const, not_forall] at unnameable
        obtain ⟨key, column, pair, unplain⟩ := unnameable
        have parsed := Schema.resolveField_parse found
        rw [FieldReference.parse_eq_related_iff.mpr pair] at parsed
        have proper : IsProper column := by
          rw [show column = resolved.column from
            congrArg FieldReference.column (Except.ok.inj parsed)]
          exact names.of_resolveField found
        exact vetLabel_eq_error.mpr (.inl ⟨not_isName_made pair proper unplain, rfl⟩)

end Metric

namespace ReportSources

variable {sources : ReportSources}

/-- A metric whose column is found is selected iff its name is vetted. -/
theorem selectMetric_eq {m : Metric} {resolved : ResolvedField} {name : String}
    {aggregate : Sql.Aggregate} {column : Sql.Column}
    (found : sources.schema.resolveField sources.table m.field = .ok resolved)
    (named : m.outputName = .ok name) (computed : m.aggregate? = some aggregate)
    (summable : aggregate = .sum → resolved.numeric = true)
    (shown : sources.column m.field = .ok column) :
    sources.selectMetric m =
      (BuildFault.lift (Sql.vetLabel name)).map (.aggregate aggregate column) := by
  have passed : ¬ (aggregate = .sum ∧ resolved.numeric = false) := by
    rintro ⟨sum, other⟩
    rw [summable sum] at other
    cases other
  simp only [selectMetric, found, named, computed, shown, BuildFault.lift, bind, Except.bind,
    Option.some.injEq, if_neg passed]
  cases Sql.vetLabel name <;> rfl

/-- Behind dimensions that can be selected the select list is as good as its metrics. -/
theorem select_eq_map {dimensions : List Dimension} {metrics : List Metric}
    {columns : List Sql.Selection} (some : dimensions ≠ [] ∨ metrics ≠ [])
    (shown : dimensions.mapM sources.selectDimension = .ok columns) :
    sources.select dimensions metrics =
      (metrics.mapM sources.selectMetric).map (columns ++ ·) := by
  rw [select, shown]
  cases computed : metrics.mapM sources.selectMetric with
  | error fault => rfl
  | ok aggregates =>
      have listed : ¬ (columns ++ aggregates).isEmpty = true := by
        rw [List.isEmpty_iff, List.append_eq_nil_iff]
        rintro ⟨rfl, rfl⟩
        rw [Outcome.mapM_eq_ok] at shown computed
        rcases some with dimension | metric
        · exact dimension (List.forall₂_nil_right_iff.mp shown)
        · exact metric (List.forall₂_nil_right_iff.mp computed)
      exact if_neg listed

end ReportSources

/-- Orders and their agencies, behind a key with a hyphen. -/
def Schema.hyphenated : Schema where
  tables := [("orders", { name := "orders", fields := ["id", "status"] }),
    ("agencies", { name := "agencies", fields := ["id", "name"] })]
  relationships := [{ source := "orders", key := "ag-ency", target := "agencies",
                      reference := "agencies", predicate := "agencies.id = orders.id" }]

namespace Report

open Outcome

variable {schema : Schema} {table : String} {report : Report}

/-- The references of a report that the rules let through are found. -/
theorem Obeys.exists_resolveField (obeys : report.Obeys schema table) {field : String}
    (referenced : field ∈ report.referencedFields) :
    ∃ resolved, schema.resolveField table field = .ok resolved := by
  obtain ⟨plan, planned⟩ := obeys.fields
  obtain ⟨resolved, found, -⟩ := Schema.reference_mem_of_planJoins planned referenced
  exact ⟨resolved, found⟩

/-- The metrics of a report that the rules let through are named, with a label iff they are
nameable. -/
theorem Obeys.vetLabel_outputName (obeys : report.Obeys schema table)
    (names : schema.ShownNamesSatisfy Sql.IsProper) (m : Metric) (member : m ∈ report.metrics) :
    ∃ name, m.outputName = .ok name ∧ (m.Nameable → Sql.vetLabel name = .ok name) ∧
      (¬ m.Nameable → Sql.vetLabel name = .error (.invalidIdentifier (.text name))) := by
  obtain ⟨resolved, found⟩ := obeys.exists_resolveField (field_mem_of_metric member)
  obtain ⟨aggregate, computed, -⟩ := obeys.metrics m member
  exact Metric.vetLabel_outputName names found computed fun label labelled =>
    obeys.labels label (mem_labels_of_metric member labelled)

/-- Behind plain keys every metric is nameable. -/
theorem Obeys.nameable_of_plain (obeys : report.Obeys schema table)
    (plain : ∀ rel ∈ schema.relationships, rel.source = table → Sql.IsPlain rel.key) (m : Metric)
    (member : m ∈ report.metrics) : m.Nameable := by
  intro _ key column pair
  obtain ⟨resolved, found⟩ := obeys.exists_resolveField (field_mem_of_metric member)
  rcases Schema.resolveField_eq_ok.mp found with
    ⟨_, _, parsed, -⟩ | ⟨other, _, rel, parsed, known, -⟩
  · rw [FieldReference.parse_eq_related_iff.mpr pair] at parsed
    cases parsed
  · obtain ⟨rfl, -⟩ := pair.unique (FieldReference.parse_eq_related_iff.mp parsed)
    obtain ⟨declared, source, rfl⟩ := Schema.mem_of_relationship? known
    exact plain rel declared source

/-- Over prepared sources the metrics of a report that the rules let through are selected as far as
their names go. -/
theorem Obeys.selectMetric_eq (obeys : report.Obeys schema table) {sources : ReportSources}
    (known : ∀ field ∈ report.referencedFields, ∃ column, sources.column field = .ok column)
    (schemaEq : sources.schema = schema) (tableEq : sources.table = table) {m : Metric}
    (member : m ∈ report.metrics) {name : String} (named : m.outputName = .ok name) :
    ∃ aggregate column, sources.selectMetric m =
      (BuildFault.lift (Sql.vetLabel name)).map (.aggregate aggregate column) := by
  obtain ⟨column, shown⟩ := known m.field (field_mem_of_metric member)
  obtain ⟨resolved, found, -⟩ := ReportSources.column_eq_ok.mp shown
  obtain ⟨aggregate, computed, summable⟩ := obeys.metrics m member
  refine ⟨aggregate, column,
    ReportSources.selectMetric_eq found named computed (fun sum => ?_) shown⟩
  obtain ⟨other, foundToo, numeric⟩ := summable sum
  rw [← schemaEq, ← tableEq, found] at foundToo
  rw [Except.ok.inj foundToo]
  exact numeric

/-- What becomes of the metrics of a report that the rules let through. -/
theorem Obeys.mapM_selectMetric (obeys : report.Obeys schema table)
    (names : schema.ShownNamesSatisfy Sql.IsProper) {sources : ReportSources}
    (known : ∀ field ∈ report.referencedFields, ∃ column, sources.column field = .ok column)
    (schemaEq : sources.schema = schema) (tableEq : sources.table = table) :
    ((∃ selections, report.metrics.mapM sources.selectMetric = .ok selections) ↔
        ∀ m ∈ report.metrics, m.Nameable) ∧
      ∀ fault, report.metrics.mapM sources.selectMetric = .error fault ↔
        ∃ before m name, IsFirst (fun m => ¬ m.Nameable) report.metrics before m ∧
          m.outputName = .ok name ∧ fault = .rejected (.invalidIdentifier (.text name)) := by
  have selected (m : Metric) (member : m ∈ report.metrics) :
      (∃ selection, sources.selectMetric m = .ok selection) ↔ m.Nameable := by
    obtain ⟨name, named, label, refused⟩ := obeys.vetLabel_outputName names m member
    obtain ⟨aggregate, column, same⟩ :=
      obeys.selectMetric_eq known schemaEq tableEq member named
    by_cases nameable : m.Nameable
    · simp [same, label nameable, nameable, BuildFault.lift, Except.map]
    · simp [same, refused nameable, nameable, BuildFault.lift, Except.map]
  have failed (m : Metric) (member : m ∈ report.metrics) (unnameable : ¬ m.Nameable)
      (fault : BuildFault) : sources.selectMetric m = .error fault ↔
        ∃ name, m.outputName = .ok name ∧ fault = .rejected (.invalidIdentifier (.text name)) := by
    obtain ⟨name, named, -, refused⟩ := obeys.vetLabel_outputName names m member
    obtain ⟨aggregate, column, same⟩ :=
      obeys.selectMetric_eq known schemaEq tableEq member named
    simp [same, refused unnameable, named, BuildFault.lift, Except.map, eq_comm]
  constructor
  · rw [exists_mapM_iff]
    exact forall₂_congr selected
  · intro fault
    rw [mapM_eq_error]
    refine exists_congr fun before => exists_congr fun m => ?_
    rw [IsFirst.congr fun other member => not_congr (selected other member), exists_and_left]
    exact and_congr_right fun first => failed m first.mem first.holds fault

/-- Over an accepted schema with proper tables, columns and references the metrics of a report that
the rules let through have names, and such a name is a label iff the metric is nameable; where the
keys of the relationships are plain, all metrics are. The sources of the report can be prepared, and
the select list over them is built iff all metrics are nameable; otherwise it is refused, for the
name of the first metric that is not. -/
theorem select_of_check (accepted : schema.Accepted)
    (names : schema.ShownNamesSatisfy Sql.IsProper) (checked : report.check schema table = .ok ()) :
    (∀ m ∈ report.metrics, ∃ name, m.outputName = .ok name ∧
        (m.Nameable → Sql.vetLabel name = .ok name) ∧
        (¬ m.Nameable → Sql.vetLabel name = .error (.invalidIdentifier (.text name)))) ∧
      ((∀ rel ∈ schema.relationships, rel.source = table → Sql.IsPlain rel.key) →
        ∀ m ∈ report.metrics, m.Nameable) ∧
      ∃ plan sources, schema.planJoins table report.referencedFields = .ok plan ∧
        schema.sourcesOf plan = .ok sources ∧
        ((∃ selections, sources.select report.dimensions report.metrics = .ok selections) ↔
          ∀ m ∈ report.metrics, m.Nameable) ∧
        ∀ fault, sources.select report.dimensions report.metrics = .error fault ↔
          ∃ before m name, IsFirst (fun m => ¬ m.Nameable) report.metrics before m ∧
            m.outputName = .ok name ∧ fault = .rejected (.invalidIdentifier (.text name)) := by
  have obeys := check_eq_ok.mp checked
  obtain ⟨plan, planned⟩ := obeys.fields
  have prepared := accepted.sourcesOf_of_shown names planned
  have known (field : String) (member : field ∈ report.referencedFields) :=
    accepted.exists_column planned prepared member
  obtain ⟨base, -, -⟩ := Schema.planJoins_declared planned
  have shownDimension (d : Dimension) (member : d ∈ report.dimensions) :=
    (ReportSources.exists_selectDimension_iff (known _ (field_mem_of_dimension member))).mpr
      fun label given => Sql.isLabel_iff.mp
        (obeys.labels label (mem_labels_of_dimension member given))
  obtain ⟨columns, shown⟩ := exists_mapM_eq_ok shownDimension
  obtain ⟨built, refused⟩ := obeys.mapM_selectMetric names known rfl base
  refine ⟨obeys.vetLabel_outputName names, obeys.nameable_of_plain, plan, _, planned, prepared,
    ?_, ?_⟩
  · rw [← built, ReportSources.select_eq_map obeys.shown shown]
    simp only [map_eq_ok]
    exact ⟨fun ⟨_, aggregates, computed, _⟩ => ⟨aggregates, computed⟩,
      fun ⟨aggregates, computed⟩ => ⟨_, aggregates, computed, rfl⟩⟩
  · intro fault
    rw [← refused, ReportSources.select_eq_map obeys.shown shown, map_eq_error]

/-- The agencies of the orders of each status, counted under a label or under none. -/
def agencyCount (label : Option String) : Report where
  dimensions := [⟨"status", none⟩]
  metrics := [⟨"ag-ency.id", "COUNT", label⟩]

/-- A label saves the metric from the key. -/
theorem select_of_check_labelled :
    Schema.hyphenated.Accepted ∧ Schema.hyphenated.ShownNamesSatisfy Sql.IsProper ∧
      (agencyCount (some "n")).check .hyphenated "orders" = .ok () ∧
      ∃ plan sources, Schema.hyphenated.planJoins "orders" ["status", "ag-ency.id"] = .ok plan ∧
        Schema.hyphenated.sourcesOf plan = .ok sources ∧
        ∃ selections, sources.select [⟨"status", none⟩] [⟨"ag-ency.id", "COUNT", some "n"⟩] =
          .ok selections := by
  have accepted : Schema.hyphenated.Accepted := rfl
  have names : Schema.hyphenated.ShownNamesSatisfy Sql.IsProper :=
    ⟨by decide, by decide, by decide⟩
  have checked : (agencyCount (some "n")).check .hyphenated "orders" = .ok () := by
    simp only [check, checkFields, Schema.planJoins, Schema.sortedKeys_eq_insertionSort]
    rfl
  obtain ⟨-, -, plan, sources, planned, prepared, built, -⟩ :=
    select_of_check accepted names checked
  refine ⟨accepted, names, checked, plan, sources, planned, prepared, built.mpr ?_⟩
  intro m member
  rw [List.mem_singleton.mp member]
  intro unlabelled
  cases unlabelled

/-- Without a label the rules let the report through, and it cannot be compiled. -/
theorem compile_of_hyphenated_key :
    Schema.hyphenated.Accepted ∧ Schema.hyphenated.ShownNamesSatisfy Sql.IsProper ∧
      (agencyCount none).check .hyphenated "orders" = .ok () ∧
      (⟨"ag-ency.id", "COUNT", none⟩ : Metric).outputName = .ok "count_ag-ency_id" ∧
      Sql.vetLabel "count_ag-ency_id" =
        .error (.invalidIdentifier (.text "count_ag-ency_id")) ∧
      Schema.hyphenated.compile "orders" (agencyCount none) =
        .error (.rejected (.invalidIdentifier (.text "count_ag-ency_id"))) := by
  refine ⟨rfl, ⟨by decide, by decide, by decide⟩, ?_, rfl, rfl, ?_⟩
  · simp only [check, checkFields, Schema.planJoins, Schema.sortedKeys_eq_insertionSort]
    rfl
  · simp only [Schema.compile, Schema.buildQuery, check, checkFields, Schema.planJoins,
      Schema.sortedKeys_eq_insertionSort]
    rfl

end Report

end Reporting
