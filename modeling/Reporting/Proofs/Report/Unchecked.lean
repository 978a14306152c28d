import Reporting.Proofs.Report.Agreement

/-!
# Reports that nobody checked

The builders of clauses do not rely on the rules: `Schema.buildUnchecked` runs them on a report as
it is. Over an accepted schema all that can go wrong is a rejection, with two exceptions
(`Schema.buildUnchecked_decides`). The aggregate of a metric is looked up without a guard, and what
would notice an unknown operation before is the name made for the column, which a label replaces
(`Report.Uncomputed`). And the pattern of a filter cannot be made of an integer that is too long to
be written (`Report.Unwritten`).
-/

namespace Reporting

open Outcome

namespace ReportSources

/-- The statement of a report with this select list, ordered as a grouped report or as a plain
one. -/
def complete (sources : ReportSources) (report : Report) (grouped : Bool)
    (selections : List Sql.Selection) : Except BuildFault Sql.Query := do
  let conditions ← report.filters.mapM sources.condition
  let grouping ← sources.grouping report.dimensions
  let order ← sources.order report selections grouped
  return { selections, source := sources.source, conditions, grouping, order,
           limit := effectiveLimit report.limit }

end ReportSources

/-- Builds the statement of a report that was not checked. -/
def Schema.buildUnchecked (schema : Schema) (table : String) (report : Report) (grouped : Bool) :
    Except BuildFault Sql.Query := do
  let plan ← BuildFault.lift (schema.planJoins table report.referencedFields)
  let sources ← BuildFault.lift (schema.sourcesOf plan)
  let selections ← sources.select report.dimensions report.metrics
  sources.complete report grouped selections

/-- A report is built by checking it first. -/
theorem Schema.buildQuery_eq_buildUnchecked (schema : Schema) (table : String) (report : Report) :
    schema.buildQuery table report =
      report.check schema table >>= fun _ =>
        schema.buildUnchecked table report !report.dimensions.isEmpty := rfl

namespace Report

/-- A metric that can be selected: its operation is known, only numbers are summed, and the name of
its column is a label. -/
def Selectable (schema : Schema) (table : String) (metric : Metric) : Prop :=
  MetricAllowed schema table metric ∧
    ∃ name, metric.outputName = .ok name ∧ Sql.IsLabelText name

/-- A metric whose unknown operation goes unnoticed: its column has a label, so no name is made. -/
def Unnoticed (metric : Metric) : Prop :=
  metric.operation ∉ ["SUM", "COUNT"] ∧ ∃ label, givenLabel? metric.label = some label

/-- The sources of the statement can be prepared, and the labels of the dimensions are labels. -/
structure Started (schema : Schema) (table : String) (report : Report) : Prop where
  sources : ∃ plan sources, schema.planJoins table report.referencedFields = .ok plan ∧
    schema.sourcesOf plan = .ok sources
  dimensions : ∀ d ∈ report.dimensions, ∀ label, givenLabel? d.label = some label →
    Sql.IsLabelText label

/-- The operation of the first metric that cannot be selected is unknown and goes unnoticed. -/
structure Uncomputed (schema : Schema) (table : String) (report : Report) (operation : String) :
    Prop extends Started schema table report where
  metric : ∃ before metric,
    IsFirst (fun m => ¬ Selectable schema table m) report.metrics before metric ∧
      Unnoticed metric ∧ metric.operation = operation

/-- There is a select list, and the first filter that gives no test is a pattern of an integer that
is too long to be written. -/
structure Unwritten (schema : Schema) (table : String) (report : Report) : Prop
    extends Started schema table report where
  metrics : ∀ metric ∈ report.metrics, Selectable schema table metric
  shown : report.dimensions ≠ [] ∨ report.metrics ≠ []
  filter : ∃ before f, IsFirst (fun f => ¬ (f.Fits ∧ f.Written)) report.filters before f ∧
    f.Fits ∧ ¬ f.Written

end Report

namespace ReportSources

variable {sources : ReportSources} {report : Report} {operation : String}

section Parts

variable {d : Dimension} {m : Metric} {f : Filter}

/-- A dimension whose field resolves fails by a rejection only. -/
theorem faultsIn_selectDimension (known : ∃ column, sources.column d.field = .ok column) :
    FaultsIn BuildFault.IsRejection (sources.selectDimension d) := by
  refine faultsIn_bind (faultsIn_of_exists_ok known) fun column _ => ?_
  split
  · exact faultsIn_ok _
  · exact faultsIn_bind (BuildFault.faultsIn_lift _) fun _ _ => faultsIn_ok _

/-- A dimension whose field resolves is selected iff its label is one. -/
theorem exists_selectDimension_iff (known : ∃ column, sources.column d.field = .ok column) :
    (∃ selection, sources.selectDimension d = .ok selection) ↔
      ∀ label, givenLabel? d.label = some label → Sql.IsLabelText label := by
  obtain ⟨column, found⟩ := known
  simp only [selectDimension_eq_ok, ← Sql.isLabel_iff]
  constructor
  · rintro ⟨selection, _, -, ⟨unlabelled, -⟩ | ⟨label, given, vetted, -⟩⟩ other labelled
    · rw [unlabelled] at labelled
      cases labelled
    · obtain rfl := Option.some.inj (given.symm.trans labelled)
      exact vetted
  · intro vetted
    cases given : givenLabel? d.label with
    | none => exact ⟨.column column, column, found, .inl ⟨rfl, rfl⟩⟩
    | some label =>
        exact ⟨.labelled column label, column, found, .inr ⟨label, rfl, vetted label given, rfl⟩⟩

/-- A metric whose field resolves is selected iff it can be. -/
theorem exists_selectMetric_iff (known : ∃ column, sources.column m.field = .ok column) :
    (∃ selection, sources.selectMetric m = .ok selection) ↔
      Report.Selectable sources.schema sources.table m := by
  obtain ⟨column, shown⟩ := known
  obtain ⟨resolved, found, -⟩ := column_eq_ok.mp shown
  simp only [selectMetric_eq_ok, Report.Selectable, Report.MetricAllowed, ← Sql.isLabel_iff]
  constructor
  · rintro ⟨_, other, name, aggregate, _, foundToo, named, computed, numeric, -, vetted, -⟩
    exact ⟨⟨aggregate, computed, fun sum => ⟨other, foundToo, numeric sum⟩⟩, name, named, vetted⟩
  · rintro ⟨⟨aggregate, computed, summable⟩, name, named, vetted⟩
    refine ⟨_, resolved, name, aggregate, column, found, named, computed, ?_, shown, vetted, rfl⟩
    intro sum
    obtain ⟨other, foundToo, numeric⟩ := summable sum
    rw [Except.ok.inj (found.symm.trans foundToo)]
    exact numeric

/-- What can go wrong with a metric. -/
theorem faultsIn_selectMetric (known : ∃ column, sources.column m.field = .ok column) :
    FaultsIn (fun fault => fault.IsRejection ∨
      (Report.Unnoticed m ∧ fault = .noAggregate m.operation)) (sources.selectMetric m) := by
  refine faultsIn_bind ((BuildFault.faultsIn_lift _).mono fun _ => .inl) fun resolved _ => ?_
  refine faultsIn_bind ((BuildFault.faultsIn_lift _).mono fun _ => .inl) fun name named => ?_
  refine faultsIn_guarded (.inl ⟨_, rfl⟩) ?_
  rcases m.aggregate?_cases with ⟨-, computed⟩ | ⟨-, computed⟩ | ⟨unknown, uncomputed⟩
  · rw [computed]
    refine faultsIn_bind (faultsIn_of_exists_ok known) fun column _ => ?_
    exact faultsIn_bind ((BuildFault.faultsIn_lift _).mono fun _ => .inl) fun _ _ => faultsIn_ok _
  · rw [computed]
    refine faultsIn_bind (faultsIn_of_exists_ok known) fun column _ => ?_
    exact faultsIn_bind ((BuildFault.faultsIn_lift _).mono fun _ => .inl) fun _ _ => faultsIn_ok _
  · rw [uncomputed]
    refine faultsIn_error (.inr ⟨⟨unknown, ?_⟩, rfl⟩)
    -- without a label, making the name would have failed
    rw [BuildFault.lift_eq_ok, Metric.outputName, uncomputed] at named
    cases given : givenLabel? m.label with
    | none =>
        rw [given] at named
        cases named
    | some label => exact ⟨label, rfl⟩

/-- An operation that goes unnoticed has no aggregate. -/
theorem selectMetric_of_unnoticed (known : ∃ column, sources.column m.field = .ok column)
    (unnoticed : Report.Unnoticed m) :
    sources.selectMetric m = .error (.noAggregate m.operation) := by
  obtain ⟨column, shown⟩ := known
  obtain ⟨resolved, found, -⟩ := column_eq_ok.mp shown
  obtain ⟨unknown, label, given⟩ := unnoticed
  have uncomputed : m.aggregate? = none := by
    rcases m.aggregate?_cases with ⟨sum, -⟩ | ⟨count, -⟩ | ⟨-, uncomputed⟩
    · exact absurd (by simp [sum]) unknown
    · exact absurd (by simp [count]) unknown
    · exact uncomputed
  simp only [selectMetric, found, Metric.outputName, given, uncomputed]
  rfl

/-- A filter whose field resolves gives a condition iff its value fits and can be written. -/
theorem exists_condition_iff (known : ∃ column, sources.column f.field = .ok column) :
    (∃ condition, sources.condition f = .ok condition) ↔ f.Fits ∧ f.Written := by
  obtain ⟨column, found⟩ := known
  simp only [← Filter.exists_test_iff, condition_eq_ok]
  exact ⟨fun ⟨condition, _, fits⟩ => ⟨_, fits⟩, fun ⟨test, fits⟩ => ⟨⟨column, test⟩, found, fits⟩⟩

/-- A condition on a column that is found fails as its test does. -/
theorem condition_eq_error (known : ∃ column, sources.column f.field = .ok column)
    {fault : BuildFault} : sources.condition f = .error fault ↔ f.test = .error fault := by
  obtain ⟨column, found⟩ := known
  rw [condition, found]
  cases f.test with
  | ok test => simp [bind, Except.bind, pure, Except.pure]
  | error other => simp [bind, Except.bind]

end Parts

section Known

variable (known : ∀ field ∈ report.referencedFields, ∃ column, sources.column field = .ok column)

include known

/-- A select list fails by a rejection or for want of an aggregate. -/
theorem faultsIn_select :
    FaultsIn (fun fault => fault.IsRejection ∨ ∃ operation, fault = .noAggregate operation)
      (sources.select report.dimensions report.metrics) := by
  have columns (d : Dimension) (member : d ∈ report.dimensions) :=
    (faultsIn_selectDimension (known _ (Report.field_mem_of_dimension member))).mono
      (Q := fun fault => fault.IsRejection ∨ ∃ operation, fault = .noAggregate operation)
      fun _ => .inl
  have aggregates (m : Metric) (member : m ∈ report.metrics) :=
    (faultsIn_selectMetric (known _ (Report.field_mem_of_metric member))).mono
      (Q := fun fault => fault.IsRejection ∨ ∃ operation, fault = .noAggregate operation)
      fun _ => Or.imp_right fun unnoticed => ⟨_, unnoticed.2⟩
  refine faultsIn_bind (faultsIn_mapM columns) fun _ _ => ?_
  refine faultsIn_bind (faultsIn_mapM aggregates) fun _ _ => ?_
  exact faultsIn_guarded (.inl ⟨_, rfl⟩) (faultsIn_ok _)

/-- The select list cannot be computed where the first metric that cannot be selected asks for an
unknown operation that goes unnoticed. -/
theorem select_eq_noAggregate_iff :
    sources.select report.dimensions report.metrics = .error (.noAggregate operation) ↔
      (∀ d ∈ report.dimensions, ∀ label, givenLabel? d.label = some label →
          Sql.IsLabelText label) ∧
        ∃ before m,
          IsFirst (fun m => ¬ Report.Selectable sources.schema sources.table m) report.metrics
              before m ∧
            Report.Unnoticed m ∧ m.operation = operation := by
  have knownDimension (d : Dimension) (member : d ∈ report.dimensions) :=
    known _ (Report.field_mem_of_dimension member)
  have knownMetric (m : Metric) (member : m ∈ report.metrics) :=
    known _ (Report.field_mem_of_metric member)
  have first {before : List Metric} {m : Metric} :
      IsFirst (fun m => ¬ ∃ selection, sources.selectMetric m = .ok selection) report.metrics
          before m ↔
        IsFirst (fun m => ¬ Report.Selectable sources.schema sources.table m) report.metrics
          before m :=
    IsFirst.congr fun m member => (exists_selectMetric_iff (knownMetric m member)).not
  constructor
  · intro failed
    rcases bind_eq_error.mp failed with columns | ⟨columns, shown, behind⟩
    · obtain ⟨_, impossible⟩ := faultsIn_mapM (fun d member =>
        faultsIn_selectDimension (knownDimension d member)) _ columns
      cases impossible
    · refine ⟨fun d member => ?_, ?_⟩
      · rw [← exists_selectDimension_iff (knownDimension d member)]
        exact exists_mapM_iff.mp ⟨columns, shown⟩ d member
      · rcases bind_eq_error.mp behind with aggregates | ⟨aggregates, -, last⟩
        · obtain ⟨before, m, isFirst, own⟩ := mapM_eq_error.mp aggregates
          refine ⟨before, m, first.mp isFirst, ?_⟩
          rcases faultsIn_selectMetric (knownMetric m isFirst.mem) _ own with
            ⟨_, impossible⟩ | ⟨unnoticed, same⟩
          · cases impossible
          · cases same
            exact ⟨unnoticed, rfl⟩
        · obtain ⟨_, impossible⟩ :=
            faultsIn_guarded (P := BuildFault.IsRejection) ⟨_, rfl⟩ (faultsIn_ok _) _ last
          cases impossible
  · rintro ⟨labels, before, m, isFirst, unnoticed, rfl⟩
    obtain ⟨columns, shown⟩ := exists_mapM_eq_ok fun d member =>
      (exists_selectDimension_iff (knownDimension d member)).mpr (labels d member)
    have failed := mapM_eq_error.mpr ⟨before, m, first.mpr isFirst,
      selectMetric_of_unnoticed (knownMetric m isFirst.mem) unnoticed⟩
    exact bind_eq_error.mpr (.inr ⟨columns, shown, bind_eq_error.mpr (.inl failed)⟩)

omit known in
/-- An entry of a grouped order fails by a rejection only. -/
theorem faultsIn_groupedKey {selections : List Sql.Selection}
    (all : selections.length = report.dimensions.length + report.metrics.length)
    (entry : SortEntry) :
    FaultsIn BuildFault.IsRejection (sources.groupedKey report selections entry) := by
  unfold groupedKey
  split
  next missing => exact faultsIn_error ⟨_, rfl⟩
  next target meant =>
    split
    next unlabelled => exact faultsIn_ok _
    next label given =>
      obtain ⟨positive, bounded⟩ := Report.sortTarget?_position meant
      have inside : target.position - 1 < selections.length := by omega
      rw [List.getElem?_eq_getElem inside]
      exact faultsIn_ok _

omit known in
/-- An entry of a plain order fails by a rejection only. -/
theorem faultsIn_plainKey (entry : SortEntry) :
    FaultsIn BuildFault.IsRejection (sources.plainKey entry) :=
  faultsIn_guarded ⟨_, rfl⟩
    (faultsIn_bind (BuildFault.faultsIn_lift _) fun _ _ => faultsIn_ok _)

/-- There is a select list iff each item can be selected, and there is one. -/
theorem exists_select_iff :
    (∃ selections, sources.select report.dimensions report.metrics = .ok selections) ↔
      (∀ d ∈ report.dimensions, ∀ label, givenLabel? d.label = some label →
          Sql.IsLabelText label) ∧
        (∀ m ∈ report.metrics, Report.Selectable sources.schema sources.table m) ∧
        (report.dimensions ≠ [] ∨ report.metrics ≠ []) := by
  have dimension (d : Dimension) (member : d ∈ report.dimensions) :=
    exists_selectDimension_iff (known _ (Report.field_mem_of_dimension member))
  have metric (m : Metric) (member : m ∈ report.metrics) :=
    exists_selectMetric_iff (known _ (Report.field_mem_of_metric member))
  have some {columns aggregates : List Sql.Selection}
      (shown : report.dimensions.mapM sources.selectDimension = .ok columns)
      (computed : report.metrics.mapM sources.selectMetric = .ok aggregates) :
      columns ++ aggregates ≠ [] ↔ report.dimensions ≠ [] ∨ report.metrics ≠ [] := by
    have columns := (mapM_eq_ok.mp shown).length_eq
    have aggregates := (mapM_eq_ok.mp computed).length_eq
    simp only [ne_eq, ← List.length_eq_zero_iff, List.length_append, columns, aggregates]
    omega
  simp only [select_eq_ok, ← mapM_eq_ok]
  constructor
  · rintro ⟨_, columns, aggregates, shown, computed, nonempty, -⟩
    exact ⟨fun d member => (dimension d member).mp (exists_mapM_iff.mp ⟨_, shown⟩ d member),
      fun m member => (metric m member).mp (exists_mapM_iff.mp ⟨_, computed⟩ m member),
      (some shown computed).mp nonempty⟩
  · rintro ⟨labels, selectable, nonempty⟩
    obtain ⟨columns, shown⟩ :=
      exists_mapM_eq_ok fun d member => (dimension d member).mpr (labels d member)
    obtain ⟨aggregates, computed⟩ :=
      exists_mapM_eq_ok fun m member => (metric m member).mpr (selectable m member)
    exact ⟨_, columns, aggregates, shown, computed, (some shown computed).mpr nonempty, rfl⟩

/-- Behind the conditions, every fault is a rejection: the select list shows all items. -/
theorem complete_eq_error_iff {selections : List Sql.Selection}
    (all : selections.length = report.dimensions.length + report.metrics.length) (grouped : Bool)
    {fault : BuildFault} (other : ¬ fault.IsRejection) :
    sources.complete report grouped selections = .error fault ↔
      report.filters.mapM sources.condition = .error fault := by
  refine ⟨fun failed => ?_, fun failed => bind_eq_error.mpr (.inl failed)⟩
  rcases bind_eq_error.mp failed with here | ⟨conditions, -, behind⟩
  · exact here
  · have grouping (d : Dimension) (member : d ∈ report.dimensions) :
        FaultsIn BuildFault.IsRejection (sources.column d.field) :=
      faultsIn_of_exists_ok (known _ (Report.field_mem_of_dimension member))
    refine absurd ?_ other
    refine faultsIn_bind (faultsIn_mapM grouping) (fun _ _ => ?_) fault behind
    refine faultsIn_bind (faultsIn_mapM fun entry _ => ?_) fun _ _ => faultsIn_ok _
    cases grouped with
    | true => exact faultsIn_bind (faultsIn_groupedKey all entry) fun _ _ => faultsIn_ok _
    | false => exact faultsIn_bind (faultsIn_plainKey entry) fun _ _ => faultsIn_ok _

/-- Conditions that fail without a rejection fail at a pattern that cannot be written. -/
theorem faultsIn_conditions :
    FaultsIn (fun fault => fault.IsRejection ∨ fault = .longInteger)
      (report.filters.mapM sources.condition) := by
  refine faultsIn_mapM fun f member fault failed => ?_
  rw [condition_eq_error (known _ (Report.field_mem_of_filter member))] at failed
  exact (f.faultsIn_test fault failed).imp_right And.left

/-- The conditions fail for a long integer iff the first filter without a condition is a pattern of
one. -/
theorem conditions_eq_longInteger_iff :
    report.filters.mapM sources.condition = .error .longInteger ↔
      ∃ before f, IsFirst (fun f => ¬ (f.Fits ∧ f.Written)) report.filters before f ∧
        f.Fits ∧ ¬ f.Written := by
  have knownFilter (f : Filter) (member : f ∈ report.filters) :=
    known _ (Report.field_mem_of_filter member)
  have first {before : List Filter} {f : Filter} :
      IsFirst (fun f => ¬ ∃ condition, sources.condition f = .ok condition) report.filters
          before f ↔
        IsFirst (fun f => ¬ (f.Fits ∧ f.Written)) report.filters before f :=
    IsFirst.congr fun f member => (exists_condition_iff (knownFilter f member)).not
  rw [mapM_eq_error]
  refine exists_congr fun before => exists_congr fun f => ?_
  rw [first]
  refine and_congr_right fun isFirst => ?_
  rw [condition_eq_error (knownFilter f isFirst.mem), Filter.test_eq_error_iff,
    Filter.misfit_longInteger_iff]

omit known in
/-- A select list has an entry for each item. -/
theorem length_of_select {selections : List Sql.Selection}
    (selected : sources.select report.dimensions report.metrics = .ok selections) :
    selections.length = report.dimensions.length + report.metrics.length := by
  obtain ⟨columns, aggregates, shown, computed, -, rfl⟩ := select_eq_ok.mp selected
  rw [List.length_append, shown.length_eq, computed.length_eq]

end Known

end ReportSources

namespace Schema

variable {schema : Schema}

/-- Prepared sources are those of the schema and the table. -/
theorem same_of_prepared {table : String} {report : Report} {plan : JoinPlan}
    {sources : ReportSources} (planned : schema.planJoins table report.referencedFields = .ok plan)
    (prepared : schema.sourcesOf plan = .ok sources) :
    sources.schema = schema ∧ sources.table = table := by
  obtain ⟨base, -, -⟩ := planJoins_declared planned
  obtain ⟨-, -, rfl⟩ := Schema.sourcesOf_eq_ok.mp prepared
  exact ⟨rfl, base⟩

namespace Accepted

variable (accepted : schema.Accepted) (table : String) (report : Report) (grouped : Bool)

include accepted

/-- What fails without a rejection fails in the select list or, behind one, in a condition. -/
theorem buildUnchecked_eq_error_iff {fault : BuildFault} (other : ¬ fault.IsRejection) :
    schema.buildUnchecked table report grouped = .error fault ↔
      ∃ plan sources, schema.planJoins table report.referencedFields = .ok plan ∧
        schema.sourcesOf plan = .ok sources ∧
        (sources.select report.dimensions report.metrics = .error fault ∨
          ((∃ selections, sources.select report.dimensions report.metrics = .ok selections) ∧
            report.filters.mapM sources.condition = .error fault)) := by
  have completed {plan : JoinPlan} {sources : ReportSources} {selections : List Sql.Selection}
      (planned : schema.planJoins table report.referencedFields = .ok plan)
      (prepared : schema.sourcesOf plan = .ok sources)
      (selected : sources.select report.dimensions report.metrics = .ok selections) :
      sources.complete report grouped selections = .error fault ↔
        report.filters.mapM sources.condition = .error fault :=
    ReportSources.complete_eq_error_iff
      (fun field member => accepted.exists_column planned prepared member)
      (ReportSources.length_of_select selected) grouped other
  constructor
  · intro failed
    rcases bind_eq_error.mp failed with here | ⟨plan, planned, failed⟩
    · exact absurd (BuildFault.faultsIn_lift _ fault here) other
    rcases bind_eq_error.mp failed with here | ⟨sources, prepared, failed⟩
    · exact absurd (BuildFault.faultsIn_lift _ fault here) other
    rw [BuildFault.lift_eq_ok] at planned prepared
    refine ⟨plan, sources, planned, prepared, ?_⟩
    rcases bind_eq_error.mp failed with here | ⟨selections, selected, behind⟩
    · exact .inl here
    · exact .inr ⟨⟨selections, selected⟩, (completed planned prepared selected).mp behind⟩
  · rintro ⟨plan, sources, planned, prepared, failed⟩
    refine bind_eq_error.mpr (.inr ⟨plan, BuildFault.lift_eq_ok.mpr planned, ?_⟩)
    refine bind_eq_error.mpr (.inr ⟨sources, BuildFault.lift_eq_ok.mpr prepared, ?_⟩)
    rcases failed with here | ⟨⟨selections, selected⟩, behind⟩
    · exact bind_eq_error.mpr (.inl here)
    · exact bind_eq_error.mpr
        (.inr ⟨selections, selected, (completed planned prepared selected).mpr behind⟩)

/-- Nothing but a rejection, an aggregate that is missing or a pattern that cannot be written keeps
a report from being built. -/
theorem faultsIn_buildUnchecked :
    FaultsIn (fun fault =>
        fault.IsRejection ∨ (∃ operation, fault = .noAggregate operation) ∨ fault = .longInteger)
      (schema.buildUnchecked table report grouped) := by
  intro fault failed
  by_cases rejected : fault.IsRejection
  · exact .inl rejected
  obtain ⟨plan, sources, planned, prepared, failed⟩ :=
    (accepted.buildUnchecked_eq_error_iff table report grouped rejected).mp failed
  have known (field : String) (member : field ∈ report.referencedFields) :=
    accepted.exists_column planned prepared member
  rcases failed with here | ⟨-, here⟩
  · exact (ReportSources.faultsIn_select known fault here).imp_right .inl
  · exact (ReportSources.faultsIn_conditions known fault here).imp_right .inr

/-- The builders want an aggregate iff the first metric that cannot be selected goes unnoticed. -/
theorem buildUnchecked_eq_noAggregate_iff (operation : String) :
    schema.buildUnchecked table report grouped = .error (.noAggregate operation) ↔
      report.Uncomputed schema table operation := by
  rw [accepted.buildUnchecked_eq_error_iff table report grouped (by simp [BuildFault.IsRejection])]
  constructor
  · rintro ⟨plan, sources, planned, prepared, failed⟩
    have known (field : String) (member : field ∈ report.referencedFields) :=
      accepted.exists_column planned prepared member
    obtain ⟨rfl, rfl⟩ := same_of_prepared planned prepared
    rcases failed with here | ⟨-, here⟩
    · obtain ⟨labels, metric⟩ := (ReportSources.select_eq_noAggregate_iff known).mp here
      exact ⟨⟨⟨plan, sources, planned, prepared⟩, labels⟩, metric⟩
    · rcases ReportSources.faultsIn_conditions known _ here with ⟨_, impossible⟩ | impossible
      · cases impossible
      · cases impossible
  · rintro ⟨⟨⟨plan, sources, planned, prepared⟩, labels⟩, metric⟩
    have known (field : String) (member : field ∈ report.referencedFields) :=
      accepted.exists_column planned prepared member
    obtain ⟨rfl, rfl⟩ := same_of_prepared planned prepared
    exact ⟨plan, sources, planned, prepared,
      .inl ((ReportSources.select_eq_noAggregate_iff known).mpr ⟨labels, metric⟩)⟩

/-- The builders want the text of a long integer iff a pattern does, with all in front of it in
order. -/
theorem buildUnchecked_eq_longInteger_iff :
    schema.buildUnchecked table report grouped = .error .longInteger ↔
      report.Unwritten schema table := by
  rw [accepted.buildUnchecked_eq_error_iff table report grouped (by simp [BuildFault.IsRejection])]
  constructor
  · rintro ⟨plan, sources, planned, prepared, failed⟩
    have known (field : String) (member : field ∈ report.referencedFields) :=
      accepted.exists_column planned prepared member
    obtain ⟨rfl, rfl⟩ := same_of_prepared planned prepared
    rcases failed with here | ⟨selected, here⟩
    · rcases ReportSources.faultsIn_select known _ here with ⟨_, impossible⟩ | ⟨_, impossible⟩
      · cases impossible
      · cases impossible
    · obtain ⟨labels, metrics, shown⟩ := (ReportSources.exists_select_iff known).mp selected
      exact ⟨⟨⟨plan, sources, planned, prepared⟩, labels⟩, metrics, shown,
        (ReportSources.conditions_eq_longInteger_iff known).mp here⟩
  · rintro ⟨⟨⟨plan, sources, planned, prepared⟩, labels⟩, metrics, shown, filter⟩
    have known (field : String) (member : field ∈ report.referencedFields) :=
      accepted.exists_column planned prepared member
    obtain ⟨rfl, rfl⟩ := same_of_prepared planned prepared
    exact ⟨plan, sources, planned, prepared,
      .inr ⟨(ReportSources.exists_select_iff known).mpr ⟨labels, metrics, shown⟩,
        (ReportSources.conditions_eq_longInteger_iff known).mpr filter⟩⟩

end Accepted

/-- Over an accepted schema the builders make a statement of an unchecked report or refuse it, with
two exceptions. Where a metric asks for an unknown operation that goes unnoticed, and only there,
the lookup of its aggregate fails; where a pattern cannot be written, and only there, making it
fails. -/
theorem buildUnchecked_decides (accepted : schema.Accepted) (table : String) (report : Report)
    (grouped : Bool) :
    (((∃ query, schema.buildUnchecked table report grouped = .ok query) ∨
        ∃ rejection, schema.buildUnchecked table report grouped = .error (.rejected rejection)) ↔
      (∀ operation, ¬ report.Uncomputed schema table operation) ∧
        ¬ report.Unwritten schema table) ∧
      (∀ operation, schema.buildUnchecked table report grouped = .error (.noAggregate operation) ↔
        report.Uncomputed schema table operation) ∧
      (schema.buildUnchecked table report grouped = .error .longInteger ↔
        report.Unwritten schema table) := by
  have uncomputed := accepted.buildUnchecked_eq_noAggregate_iff table report grouped
  have unwritten := accepted.buildUnchecked_eq_longInteger_iff table report grouped
  have faults := accepted.faultsIn_buildUnchecked table report grouped
  refine ⟨?_, uncomputed, unwritten⟩
  simp only [← uncomputed, ← unwritten]
  cases built : schema.buildUnchecked table report grouped with
  | ok query => simp
  | error fault =>
      rcases faults fault built with ⟨rejection, rfl⟩ | ⟨operation, rfl⟩ | rfl
      · simp
      · simp
      · simp

/-- Without a label the unknown operation is noticed: an empty one counts as none. -/
theorem rewards_refuses_unlabelled_average :
    rewards.Accepted ∧
      rewards.buildUnchecked "orders"
          { dimensions := [⟨"status", none⟩], metrics := [⟨"id", "AVG", some ""⟩],
            sort := [⟨"agency.name", .ascending⟩], limit := some (-1) } false =
        .error (.rejected (.unsupportedOperation "AVG" "id")) ∧
      ∀ operation, ¬ Report.Uncomputed rewards "orders"
          { dimensions := [⟨"status", none⟩], metrics := [⟨"id", "AVG", some ""⟩],
            sort := [⟨"agency.name", .ascending⟩], limit := some (-1) } operation := by
  have refused : rewards.buildUnchecked "orders"
      { dimensions := [⟨"status", none⟩], metrics := [⟨"id", "AVG", some ""⟩],
        sort := [⟨"agency.name", .ascending⟩], limit := some (-1) } false =
      .error (.rejected (.unsupportedOperation "AVG" "id")) := by
    simp only [buildUnchecked, planJoins, sortedKeys_eq_insertionSort]
    rfl
  refine ⟨rewards_accepted, refused, ?_⟩
  exact ((buildUnchecked_decides rewards_accepted _ _ _).1.mp (.inr ⟨_, refused⟩)).1

/-- With a label it is not, although every field of the report resolves: there is neither a
statement nor a rejection. -/
theorem rewards_fails_on_labelled_average :
    rewards.Accepted ∧ rewards.NamesSatisfy Sql.IsProper ∧ rewards.isReportable "orders" = true ∧
      (∃ status, rewards.resolveField "orders" "status" = .ok status) ∧
      (∃ id, rewards.resolveField "orders" "id" = .ok id) ∧
      ¬ ((∃ query, rewards.buildUnchecked "orders"
            { dimensions := [⟨"status", none⟩], metrics := [⟨"id", "AVG", some "x"⟩] } true =
              .ok query) ∨
          ∃ rejection, rewards.buildUnchecked "orders"
            { dimensions := [⟨"status", none⟩], metrics := [⟨"id", "AVG", some "x"⟩] } true =
              .error (.rejected rejection)) := by
  have failed : rewards.buildUnchecked "orders"
      { dimensions := [⟨"status", none⟩], metrics := [⟨"id", "AVG", some "x"⟩] } true =
      .error (.noAggregate "AVG") := by
    simp only [buildUnchecked, planJoins, sortedKeys_eq_insertionSort]
    rfl
  refine ⟨rewards_accepted, rewards_names, by decide +kernel, ⟨_, rfl⟩, ⟨_, rfl⟩, ?_⟩
  rw [failed]
  simp

end Schema

end Reporting
