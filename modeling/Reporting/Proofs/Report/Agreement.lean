import Mathlib.Data.List.Basic
import Reporting.Proofs.Report.Compile
import Reporting.Proofs.Report.Output

/-!
# Rules and builders agree

The builders check on their own what they need. Over an accepted schema with proper names a report
that obeys the rules passes all these checks: its plan joins known tables, every field is behind a
joined reference, every made name is a label, and every entry of the order means a selected item.
So a report compiles iff the rules let it through (`Schema.compile_agrees_with_check`).
-/

namespace Reporting

namespace Schema

variable {schema : Schema} {table : String} {report : Report} {plan : JoinPlan}

/-- The names of a known table are vetted. -/
theorem ShownNamesSatisfy.vetTable_eq_ok (names : schema.ShownNamesSatisfy Sql.IsProper)
    {key : String} {known : Table} (found : schema.table? key = some known) :
    schema.vetTable key = .ok () := by
  obtain ⟨proper, columns⟩ := names.of_table? found
  rw [Schema.vetTable_eq_ok]
  refine ⟨proper.isName, ?_⟩
  rw [allowedFields?, found]
  intro field member
  exact (columns field member).isName

/-- The tables of a plan are known, so its sources can be prepared. -/
theorem Accepted.sourcesOf_of_shown (accepted : schema.Accepted)
    (names : schema.ShownNamesSatisfy Sql.IsProper) {fields : List String}
    (planned : schema.planJoins table fields = .ok plan) :
    schema.sourcesOf plan = .ok (plan.sources schema) := by
  obtain ⟨base, reportable, declared⟩ := planJoins_declared planned
  rw [Schema.sourcesOf_eq_ok]
  refine ⟨?_, ?_, rfl⟩
  · obtain ⟨known, found⟩ := exists_table_of_isReportable reportable
    rw [base]
    exact names.vetTable_eq_ok found
  · intro rel joined
    obtain ⟨member, -, -⟩ := mem_of_relationship? (declared rel joined)
    obtain ⟨known, found⟩ := accepted.exists_target member
    exact ⟨names.vetTable_eq_ok found, (names.reference rel member).isName⟩

/-- Over proper names the sources of every plan can be prepared. -/
theorem Accepted.sourcesOf_eq_ok (accepted : schema.Accepted)
    (names : schema.NamesSatisfy Sql.IsProper) {fields : List String}
    (planned : schema.planJoins table fields = .ok plan) :
    schema.sourcesOf plan = .ok (plan.sources schema) :=
  accepted.sourcesOf_of_shown names.shown planned

/-- A joined table holds every column that is found behind its reference. -/
theorem Accepted.mem_columnsOf (accepted : schema.Accepted) {fields : List String}
    (planned : schema.planJoins table fields = .ok plan) {field : String}
    {resolved : ResolvedField} (found : schema.resolveField table field = .ok resolved)
    (provided : resolved.reference ∈ plan.references) :
    resolved.column ∈ (plan.sources schema).columnsOf resolved.reference := by
  obtain ⟨base, -, declared⟩ := planJoins_declared planned
  -- a join never goes by the name of the source table
  have apart (rel : Relationship) (known : schema.relationship? table rel.key = some rel) :
      rel.reference ≠ table := by
    obtain ⟨member, source, -⟩ := mem_of_relationship? known
    rw [← source]
    exact accepted.reference_ne_source member
  rw [JoinPlan.references, base] at provided
  simp only [ReportSources.columnsOf, JoinPlan.sources, List.find?_map, Function.comp_def,
    Relationship.join]
  rcases resolveField_eq_ok.mp found with ⟨column, allowed, _, known, listed, rfl⟩ |
    ⟨key, column, rel, _, known, listed, rfl⟩
  · have noJoin : plan.joins.find? (·.reference == table) = none := by
      rw [List.find?_eq_none]
      intro rel joined same
      exact apart rel (declared rel joined) (beq_iff_eq.mp same)
    simp only [noJoin, Option.map_none, known, Option.getD_some]
    exact listed
  · obtain ⟨member, _, rfl⟩ := mem_of_relationship? known
    have joined : rel.reference ∈ plan.joins.map (·.reference) :=
      (List.mem_cons.mp provided).resolve_left (apart rel known)
    obtain ⟨same, inPlan, goesBy⟩ := List.mem_map.mp joined
    cases first : plan.joins.find? (·.reference == rel.reference) with
    | none =>
        have missing := List.find?_eq_none.mp first same inPlan
        exact absurd (beq_iff_eq.mpr goesBy) missing
    | some other =>
        have alike : other.reference = rel.reference := by
          have holds := List.find?_some first
          exact beq_iff_eq.mp holds
        obtain ⟨alsoMember, -, -⟩ :=
          mem_of_relationship? (declared other (List.mem_of_find?_eq_some first))
        have target : schema.referenceTarget? rel.reference = some other.target := by
          rw [← alike]
          exact accepted.referenceTarget?_eq alsoMember
        exact mem_allowedFields?_of_mem_fieldsOf? target listed

/-- The columns behind the references of prepared sources are vetted. -/
theorem isName_of_mem_columnsOf {sources : ReportSources}
    (prepared : schema.sourcesOf plan = .ok sources) {reference column : String}
    (provided : reference ∈ plan.references) (held : column ∈ sources.columnsOf reference) :
    Sql.IsName column := by
  obtain ⟨base, joins, rfl⟩ := Schema.sourcesOf_eq_ok.mp prepared
  unfold ReportSources.columnsOf at held
  split at held
  next join found =>
    obtain ⟨rel, inPlan, rfl⟩ := List.mem_map.mp (List.mem_of_find?_eq_some found)
    exact (Schema.vetTable_eq_ok.mp (joins rel inPlan).1).2 column held
  next missing =>
    rcases List.mem_cons.mp provided with rfl | joined
    · exact (Schema.vetTable_eq_ok.mp base).2 column held
    · obtain ⟨rel, inPlan, rfl⟩ := List.mem_map.mp joined
      have apart := List.find?_eq_none.mp missing rel.join (List.mem_map_of_mem inPlan)
      exact absurd (beq_self_eq_true rel.reference) apart

/-- Over prepared sources every field that the plan was made for has a column. -/
theorem Accepted.exists_column (accepted : schema.Accepted) {fields : List String}
    (planned : schema.planJoins table fields = .ok plan) {sources : ReportSources}
    (prepared : schema.sourcesOf plan = .ok sources) {field : String} (member : field ∈ fields) :
    ∃ column, sources.column field = .ok column := by
  obtain ⟨resolved, found, joined⟩ := reference_mem_of_planJoins planned member
  obtain ⟨base, -, -⟩ := planJoins_declared planned
  obtain ⟨-, -, rfl⟩ := Schema.sourcesOf_eq_ok.mp prepared
  have held := accepted.mem_columnsOf planned found joined
  have vetted := isName_of_mem_columnsOf prepared joined held
  refine ⟨⟨resolved.reference, resolved.column⟩, ?_⟩
  rw [ReportSources.column_eq_ok, JoinPlan.references_sources]
  refine ⟨resolved, ?_, joined, vetted, held, rfl⟩
  rw [← base] at found
  exact found

end Schema

namespace Report.Obeys

variable {schema : Schema} {table : String} {report : Report} {plan : JoinPlan}
  (obeys : report.Obeys schema table) (accepted : schema.Accepted)
  (names : schema.NamesSatisfy Sql.IsProper)
  (planned : schema.planJoins table report.referencedFields = .ok plan)

include accepted names planned

omit obeys in
/-- Every field of the report is behind a joined reference. -/
theorem exists_column (field : String) (member : field ∈ report.referencedFields) :
    ∃ column, (plan.sources schema).column field = .ok column :=
  accepted.exists_column planned (accepted.sourcesOf_eq_ok names planned) member

include obeys

/-- Every dimension of a report that obeys the rules can be selected. -/
theorem exists_selectDimension (d : Dimension) (member : d ∈ report.dimensions) :
    ∃ selection, (plan.sources schema).selectDimension d = .ok selection := by
  obtain ⟨column, found⟩ :=
    exists_column accepted names planned d.field (field_mem_of_dimension member)
  cases given : givenLabel? d.label with
  | none =>
      refine ⟨.column column, ?_⟩
      rw [ReportSources.selectDimension_eq_ok]
      exact ⟨column, found, Or.inl ⟨given, rfl⟩⟩
  | some label =>
      have isLabel := obeys.labels label (mem_labels_of_dimension member given)
      refine ⟨.labelled column label, ?_⟩
      rw [ReportSources.selectDimension_eq_ok]
      exact ⟨column, found, Or.inr ⟨label, given, isLabel, rfl⟩⟩

/-- So can every metric. -/
theorem exists_selectMetric (m : Metric) (member : m ∈ report.metrics) :
    ∃ selection, (plan.sources schema).selectMetric m = .ok selection := by
  have referenced := field_mem_of_metric member
  obtain ⟨base, -, -⟩ := Schema.planJoins_declared planned
  obtain ⟨resolved, found, -⟩ := Schema.reference_mem_of_planJoins planned referenced
  obtain ⟨column, shown⟩ := exists_column accepted names planned m.field referenced
  obtain ⟨aggregate, known, summable⟩ := obeys.metrics m member
  have given (label : String) (labelled : givenLabel? m.label = some label) :
      Sql.isLabel label.toList = true :=
    obeys.labels label (mem_labels_of_metric member labelled)
  obtain ⟨name, named, isLabel⟩ := Metric.isLabel_outputName (names.mono fun _ proper => proper.2)
    found known given
  have numeric (sum : aggregate = .sum) : resolved.numeric = true := by
    obtain ⟨other, alsoFound, numeric⟩ := summable sum
    rw [found] at alsoFound
    rw [Except.ok.inj alsoFound]
    exact numeric
  refine ⟨.aggregate aggregate column name, ?_⟩
  rw [ReportSources.selectMetric_eq_ok]
  rw [← base] at found
  exact ⟨resolved, name, aggregate, column, found, named, known, numeric, shown, isLabel, rfl⟩

/-- Every filter gives a condition. -/
theorem exists_condition (f : Filter) (member : f ∈ report.filters) :
    ∃ condition, (plan.sources schema).condition f = .ok condition := by
  obtain ⟨column, found⟩ :=
    exists_column accepted names planned f.field (field_mem_of_filter member)
  obtain ⟨test, fits⟩ := obeys.filters f member
  exact ⟨⟨column, test⟩, ReportSources.condition_eq_ok.mpr ⟨found, fits⟩⟩

omit accepted names planned in
/-- An entry of the order means an item of the report, which is selected at its position. -/
theorem exists_groupedKey (sources : ReportSources) {selections : List Sql.Selection}
    (all : selections.length = report.dimensions.length + report.metrics.length)
    (entry : SortEntry) (member : entry ∈ report.sort) :
    ∃ key, sources.groupedKey report selections entry = .ok key := by
  obtain ⟨target, meant⟩ := obeys.sort entry member
  obtain ⟨positive, bounded⟩ := sortTarget?_position meant
  cases given : givenLabel? target.label with
  | none =>
      refine ⟨.position target.position, ?_⟩
      rw [ReportSources.groupedKey_eq_ok]
      exact ⟨target, meant, Or.inl ⟨given, rfl⟩⟩
  | some label =>
      have inside : target.position - 1 < selections.length := by omega
      have selected := List.getElem?_eq_getElem inside
      refine ⟨selections[target.position - 1].orderKey sources.columnsOf selections, ?_⟩
      rw [ReportSources.groupedKey_eq_ok]
      exact ⟨target, meant, Or.inr ⟨label, given, _, selected, rfl⟩⟩

omit accepted names planned in
/-- Every entry of the order has a key. -/
theorem exists_order (sources : ReportSources) {selections : List Sql.Selection}
    (all : selections.length = report.dimensions.length + report.metrics.length) :
    ∃ entries, sources.order report selections true = .ok entries := by
  apply Outcome.exists_mapM_eq_ok
  intro entry member
  obtain ⟨key, found⟩ := obeys.exists_groupedKey sources all entry member
  refine ⟨⟨key, entry.direction = .descending⟩, ?_⟩
  simp only [↓reduceIte, Outcome.bind_eq_ok]
  exact ⟨key, found, rfl⟩

/-- Every clause of a report that obeys the rules can be built. -/
theorem exists_clauses : ∃ query, (plan.sources schema).Clauses report query := by
  obtain ⟨columns, shown⟩ :=
    Outcome.exists_mapM_eq_ok (obeys.exists_selectDimension accepted names planned)
  obtain ⟨aggregates, computed⟩ :=
    Outcome.exists_mapM_eq_ok (obeys.exists_selectMetric accepted names planned)
  obtain ⟨conditions, tested⟩ :=
    Outcome.exists_mapM_eq_ok (obeys.exists_condition accepted names planned)
  have grouped (d : Dimension) (member : d ∈ report.dimensions) :
      ∃ column, (plan.sources schema).column d.field = .ok column :=
    exists_column accepted names planned d.field (field_mem_of_dimension member)
  obtain ⟨grouping, keys⟩ := Outcome.exists_mapM_eq_ok grouped
  rw [Outcome.mapM_eq_ok] at shown computed tested keys
  have all : (columns ++ aggregates).length =
      report.dimensions.length + report.metrics.length := by
    rw [List.length_append, shown.length_eq, computed.length_eq]
  obtain ⟨entries, sorted⟩ := obeys.exists_order (plan.sources schema) all
  exact ⟨⟨columns ++ aggregates, (plan.sources schema).source, conditions, grouping, entries,
      effectiveLimit report.limit⟩,
    ⟨columns, aggregates, shown, computed, rfl⟩, rfl, tested, keys,
    ReportSources.order_eq_ok.mp sorted, rfl⟩

omit planned in
/-- A report that obeys the rules compiles. -/
theorem exists_compiled : ∃ compiled, schema.compile table report = .ok compiled := by
  obtain ⟨plan, planned⟩ := obeys.fields
  obtain ⟨query, clauses⟩ := obeys.exists_clauses accepted names planned
  exact ⟨.ofQuery query, Schema.compile_eq_ok.mpr ⟨obeys, plan, _, query, planned,
    accepted.sourcesOf_eq_ok names planned, clauses, rfl⟩⟩

end Report.Obeys

namespace Schema

variable {schema : Schema}

section Agreement

variable (accepted : schema.Accepted) (names : schema.NamesSatisfy Sql.IsProper) {table : String}
  {report : Report}

include accepted names

/-- What passes the check compiles. -/
theorem exists_compile_iff : (∃ compiled, schema.compile table report = .ok compiled) ↔
    report.check schema table = .ok () := by
  constructor
  · rintro ⟨compiled, compiles⟩
    exact Report.check_eq_ok.mpr (compile_eq_ok.mp compiles).1
  · exact fun passed => (Report.check_eq_ok.mp passed).exists_compiled accepted names

/-- What does not compile fails as the check does. -/
theorem compile_eq_error_iff {fault : BuildFault} :
    schema.compile table report = .error fault ↔ report.check schema table = .error fault := by
  constructor
  · intro failed
    cases outcome : report.check schema table with
    | error refused =>
        rw [compile_eq_error_of_check outcome] at failed
        rw [Except.error.inj failed]
    | ok passed =>
        obtain ⟨compiled, compiles⟩ := (exists_compile_iff accepted names).mpr outcome
        rw [failed] at compiles
        cases compiles
  · exact compile_eq_error_of_check

end Agreement

/-- Over an accepted schema with proper names the rules and the builders agree: a report compiles
iff it passes the check, and the only fault there is is the one that the check reports. That is a
rejection, unless a part of the report cannot be written. -/
theorem compile_agrees_with_check (accepted : schema.Accepted)
    (names : schema.NamesSatisfy Sql.IsProper) (table : String) (report : Report) :
    ((∃ compiled, schema.compile table report = .ok compiled) ↔
        report.check schema table = .ok ()) ∧
      (∀ fault, schema.compile table report = .error fault ↔
        report.check schema table = .error fault) ∧
      ∀ fault, report.check schema table = .error fault →
        (∃ rejection, fault = .rejected rejection) ∨
          (fault = .longInteger ∧ report.HasLongPart) :=
  ⟨exists_compile_iff accepted names, fun _ => compile_eq_error_iff accepted names,
    report.faultsIn_check schema table⟩

/-- Items by product: the product is joined through the items, and the sum has no label. -/
theorem rewards_compiles_items_by_product :
    rewards.Accepted ∧ rewards.NamesSatisfy Sql.IsProper ∧
      ∃ compiled, rewards.compile "orders"
        { dimensions := [⟨"product.name", some "product"⟩],
          metrics := [⟨"items.quantity", "SUM", none⟩],
          filters := [⟨"status", "IN", .list [.text "shipped"]⟩],
          sort := [⟨"items.quantity", .descending⟩], limit := some 5 } = .ok compiled := by
  refine ⟨rewards_accepted, rewards_names, ?_⟩
  apply (compile_agrees_with_check rewards_accepted rewards_names _ _).1.mpr
  apply Outcome.toOption_eq_some.mp
  simp only [Report.check, Report.checkFields, planJoins, sortedKeys_eq_insertionSort]
  decide +kernel

end Schema

end Reporting
