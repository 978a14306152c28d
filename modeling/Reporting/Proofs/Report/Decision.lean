import Reporting.Proofs.Field.Located
import Reporting.Proofs.Join.Plan
import Reporting.Proofs.Report.Binding
import Reporting.Proofs.Report.SortTarget

/-!
# What the rules decide

Each `Rule` holds or not in terms of the declared tables and relationships and of the items of a
report (`Rule.Holds`), and one that does not hold is reported in its own way (`Rule.Fault`). Over an
accepted schema whose tables have keys that are not empty, a report passes the check exactly where
all rules hold, and otherwise the first one that does not hold in the documented order gives the
reason (`Report.check_decides`).
-/

namespace Reporting

open Outcome

namespace Report

/-- The name of the column that an item gives. -/
inductive OutputName : Dimension ⊕ Metric → String → Prop where
  | given {item : Dimension ⊕ Metric} {label : String}
      (given : givenLabel? (itemLabel item) = some label) : OutputName item label
  | column {d : Dimension} (unlabelled : givenLabel? d.label = none)
      (bare : '.' ∉ d.field.toList) : OutputName (.inl d) d.field
  | related {d : Dimension} {key column : String} (unlabelled : givenLabel? d.label = none)
      (pair : FieldReference.IsPair d.field key column) : OutputName (.inl d) column
  | sum {m : Metric} (unlabelled : givenLabel? m.label = none) (operation : m.operation = "SUM") :
      OutputName (.inr m) ("total_" ++ Metric.flatField m.field)
  | count {m : Metric} (unlabelled : givenLabel? m.label = none)
      (operation : m.operation = "COUNT") :
      OutputName (.inr m) ("count_" ++ Metric.flatField m.field)

/-- The operation of a metric is supported, and a sum is one of numbers. -/
def MetricSound (schema : Schema) (table : String) (metric : Metric) : Prop :=
  metric.operation ∈ ["SUM", "COUNT"] ∧
    (metric.operation = "SUM" → schema.Summable table metric.field)

/-- Where an entry of the order means a metric first, the limit is positive. -/
def SortBounded (report : Report) (entry : SortEntry) : Prop :=
  ∀ before item, IsFirst (Means entry.field) report.items before item → item.isRight = true →
    ∃ n : Int, report.limit = some n ∧ 0 < n

/-- An item goes by the label that it is given. -/
theorem itemName_of_givenLabel? {item : Dimension ⊕ Metric} {label : String}
    (given : givenLabel? (itemLabel item) = some label) : itemName item = .ok label := by
  cases item with
  | inl d =>
      simp only [itemLabel] at given
      simp only [itemName, Dimension.outputName, given]
  | inr m =>
      simp only [itemLabel] at given
      simp only [itemName, Metric.outputName, given]

/-- Without a label a dimension goes by its column. -/
theorem itemName_dimension {d : Dimension} (unlabelled : givenLabel? d.label = none) :
    itemName (.inl d) = (FieldReference.parse d.field).map (·.column) := by
  simp only [itemName, Dimension.outputName, unlabelled]

/-- Without a label a metric goes by its operation and its field. -/
theorem itemName_metric {m : Metric} (unlabelled : givenLabel? m.label = none) :
    itemName (.inr m) =
      match m.aggregate? with
      | some aggregate => .ok (Metric.nameStart aggregate ++ "_" ++ Metric.flatField m.field)
      | none => .error (.unsupportedOperation m.operation m.field) := by
  cases known : m.aggregate? with
  | none => simp only [itemName, Metric.outputName, unlabelled, known]
  | some aggregate => simp only [itemName, Metric.outputName, unlabelled, known]

/-- The name of the column is the one that the item promises. -/
theorem outputName_iff (item : Dimension ⊕ Metric) (name : String) :
    OutputName item name ↔ itemName item = .ok name := by
  constructor
  · intro promised
    cases promised with
    | given label => exact itemName_of_givenLabel? label
    | column unlabelled bare =>
        rw [itemName_dimension unlabelled, FieldReference.parse_eq_column_iff.mpr ⟨bare, rfl⟩]
        rfl
    | related unlabelled pair =>
        rw [itemName_dimension unlabelled, FieldReference.parse_eq_related_iff.mpr pair]
        rfl
    | sum unlabelled operation =>
        rw [itemName_metric unlabelled, Metric.aggregate?, operation]
        rfl
    | count unlabelled operation =>
        rw [itemName_metric unlabelled, Metric.aggregate?, operation]
        rfl
  · intro promised
    cases label : givenLabel? (itemLabel item) with
    | some given =>
        rw [itemName_of_givenLabel? label] at promised
        cases promised
        exact .given label
    | none =>
        cases item with
        | inl d =>
            rw [itemName_dimension label] at promised
            obtain ⟨⟨key, column⟩, parsed, rfl⟩ := Outcome.map_eq_ok.mp promised
            cases key with
            | none =>
                obtain ⟨bare, rfl⟩ := FieldReference.parse_eq_column_iff.mp parsed
                exact .column label bare
            | some key => exact .related label (FieldReference.parse_eq_related_iff.mp parsed)
        | inr m =>
            rw [itemName_metric label] at promised
            rcases m.aggregate?_cases with ⟨sum, known⟩ | ⟨count, known⟩ | ⟨-, unknown⟩
            · rw [known] at promised
              cases promised
              exact .sum label sum
            · rw [known] at promised
              cases promised
              exact .count label count
            · rw [unknown] at promised
              cases promised

/-- An item that resolves, with an operation that is supported, has a name. -/
theorem exists_outputName {schema : Schema} {table : String} {report : Report}
    (located : ∀ field ∈ report.referencedFields, schema.Located table field)
    (sound : ∀ metric ∈ report.metrics, MetricSound schema table metric)
    {item : Dimension ⊕ Metric} (member : item ∈ report.items) : ∃ name, OutputName item name := by
  cases label : givenLabel? (itemLabel item) with
  | some given => exact ⟨given, .given label⟩
  | none =>
      rcases List.mem_append.mp member with dimension | metric
      · obtain ⟨d, listed, rfl⟩ := List.mem_map.mp dimension
        obtain ⟨home, column, located⟩ := located d.field (field_mem_of_dimension listed)
        cases located with
        | own bare known held => exact ⟨_, .column label bare⟩
        | related pair declared source known held => exact ⟨_, .related label pair⟩
      · obtain ⟨m, listed, rfl⟩ := List.mem_map.mp metric
        rcases List.mem_pair.mp (sound m listed).1 with sum | count
        · exact ⟨_, .sum label sum⟩
        · exact ⟨_, .count label count⟩

/-- Where all items have names, each has one. -/
theorem exists_nameOf {schema : Schema} {table : String} {report : Report}
    (located : ∀ field ∈ report.referencedFields, schema.Located table field)
    (sound : ∀ metric ∈ report.metrics, MetricSound schema table metric) :
    ∃ nameOf : Dimension ⊕ Metric → String, ∀ item ∈ report.items, ∀ name,
      OutputName item name ↔ nameOf item = name := by
  have named (item : Dimension ⊕ Metric) :
      ∃ name, item ∈ report.items → itemName item = .ok name := by
    by_cases member : item ∈ report.items
    · obtain ⟨name, gives⟩ := exists_outputName located sound member
      exact ⟨name, fun _ => (outputName_iff item name).mp gives⟩
    · exact ⟨"", fun listed => absurd listed member⟩
  choose nameOf named using named
  refine ⟨nameOf, fun item member name => ?_⟩
  rw [outputName_iff, named item member, Except.ok.injEq]

/-- The names of several items are the names of each. -/
theorem forall₂_outputName {nameOf : Dimension ⊕ Metric → String}
    {items : List (Dimension ⊕ Metric)}
    (gives : ∀ item ∈ items, ∀ name, OutputName item name ↔ nameOf item = name)
    {names : List String} : List.Forall₂ OutputName items names ↔ items.map nameOf = names := by
  induction items generalizing names with
  | nil => rw [List.forall₂_nil_left_iff, List.map_nil, eq_comm]
  | cons item rest ih =>
      obtain ⟨own, others⟩ := List.forall_mem_cons.mp gives
      rw [List.forall₂_cons_left_iff, List.map_cons]
      constructor
      · rintro ⟨name, behind, here, each, rfl⟩
        rw [(own name).mp here, (ih others).mp each]
      · rintro rfl
        exact ⟨_, _, (own _).mpr rfl, (ih others).mpr rfl, rfl⟩

end Report

/-- The rules of a report. -/
inductive Rule where
  | source
  | shown
  | grouped
  | fields
  | metrics
  | sort
  | bound
  | limit
  | filters
  | labels
  | outputs
  deriving DecidableEq

namespace Rule

/-- The rules in the order in which they are checked. -/
def inOrder : List Rule :=
  [source, shown, grouped, fields, metrics, sort, bound, limit, filters, labels, outputs]

section Meaning

variable (schema : Schema) (table : String) (report : Report)

/-- What a rule asks for. -/
def Holds : Rule → Prop
  | source => ∃ home, schema.table? table = some home ∧ home.reportable = true
  | shown => report.dimensions ≠ [] ∨ report.metrics ≠ []
  | grouped => report.metrics ≠ [] → report.dimensions ≠ []
  | fields => ∀ field ∈ report.referencedFields, schema.Located table field
  | metrics => ∀ metric ∈ report.metrics, Report.MetricSound schema table metric
  | sort => ∀ entry ∈ report.sort, ∃ item ∈ report.items, Report.Means entry.field item
  | bound => ∀ entry ∈ report.sort, report.SortBounded entry
  | limit => ∀ n, report.limit = some n → 0 ≤ n ∧ n ≤ 10000
  | filters => ∀ f ∈ report.filters, f.Fits ∧ f.Written
  | labels => ∀ label ∈ report.labels, Sql.IsLabelText label
  | outputs => ∃ names, List.Forall₂ Report.OutputName report.items names ∧ names.Nodup

/-- What a rule is documented to ask for: a filter fits whether or not its value can be written, and
no line feed ends a label. -/
def Documented : Rule → Prop
  | filters => ∀ f ∈ report.filters, f.Fits
  | labels => ∀ label ∈ report.labels, Sql.IsPlainLabel label
  | other => other.Holds schema table report

/-- How a rule that does not hold is reported: by the first part of the report that breaks it. -/
def Fault (fault : BuildFault) : Rule → Prop
  | source => fault = .rejected (.unavailableSource table (schema.listTables true))
  | shown => fault = .rejected .emptyReport
  | grouped => ∃ metric rest, report.metrics = metric :: rest ∧
      fault = .rejected (.missingGrouping metric.field)
  | fields => ∃ before field,
      IsFirst (fun field => ¬ schema.Located table field) report.referencedFields before field ∧
        ∃ rejection, schema.FieldFault table field rejection ∧ fault = .rejected rejection
  | metrics => ∃ before metric,
      IsFirst (fun metric => ¬ Report.MetricSound schema table metric) report.metrics before
        metric ∧
        fault = .rejected (if metric.operation ∈ ["SUM", "COUNT"] then .nonNumericSum metric.field
          else .unsupportedOperation metric.operation metric.field)
  | sort => ∃ before entry,
      IsFirst (fun entry => ¬ ∃ item ∈ report.items, Report.Means entry.field item) report.sort
        before entry ∧
        fault = .rejected (.sortOutsideReport entry.field)
  | bound => ∃ before entry,
      IsFirst (fun entry => ¬ report.SortBounded entry) report.sort before entry ∧
        fault = .rejected (.unboundedAggregateSort entry.field)
  | limit => ∃ n, report.limit = some n ∧
      fault = if isShortInteger n then .rejected (.limitOutOfRange n 10000) else .longInteger
  | filters => ∃ before f, IsFirst (fun f => ¬ (f.Fits ∧ f.Written)) report.filters before f ∧
      f.Misfit fault
  | labels => ∃ before label,
      IsFirst (fun label => ¬ Sql.IsLabelText label) report.labels before label ∧
        ((¬ Sql.IsIdentifierText label ∧ fault = .rejected (.invalidIdentifier (.text label))) ∨
          (Sql.IsIdentifierText label ∧ fault = .rejected (.invalidLabel label)))
  | outputs => ∃ before item after names name first, report.items = before ++ item :: after ∧
      List.Forall₂ Report.OutputName before names ∧ names.Nodup ∧ Report.OutputName item name ∧
      first ∈ before ∧ Report.OutputName first name ∧
      fault = .rejected (.duplicateOutput (Report.itemField first) (Report.itemField item) name)

/-- The check of a rule. -/
def check : Rule → Except BuildFault Unit
  | source => BuildFault.lift (schema.checkSource table)
  | shown => BuildFault.lift report.checkNotEmpty
  | grouped => BuildFault.lift report.checkGrouping
  | fields => BuildFault.lift (report.checkFields schema table)
  | metrics => BuildFault.lift (checkAll (Report.checkMetric schema table) report.metrics)
  | sort => BuildFault.lift (checkAll report.checkSortEntry report.sort)
  | bound => BuildFault.lift (checkAll report.checkBound report.sort)
  | limit => report.checkLimit
  | filters => checkAll Report.checkFilter report.filters
  | labels => BuildFault.lift (checkAll Report.checkLabel report.labels)
  | outputs => BuildFault.lift (Report.checkOutputs [] report.outputs)

end Meaning

/-- Every rule has its place in the order. -/
theorem mem_inOrder (rule : Rule) : rule ∈ inOrder := by cases rule <;> decide

/-- The rules before a rule are those that stand before it in the order. -/
theorem before_eq {before : List Rule} {rule : Rule}
    (split : ∃ after, inOrder = before ++ rule :: after) :
    before = inOrder.takeWhile (· != rule) := by
  obtain ⟨after, split⟩ := split
  have nodup : inOrder.Nodup := by decide
  rw [split, List.nodup_append] at nodup
  have earlier : ∀ other ∈ before, (other != rule) = true := by
    intro other member
    simpa using nodup.2.2 other member rule (by simp)
  rw [split, List.takeWhile_append_of_pos earlier, List.takeWhile_cons_of_neg (by simp),
    List.append_nil]

variable {schema : Schema} {table : String} {report : Report}

/-- The check is the rules in their order. -/
theorem check_eq_checkAll :
    report.check schema table = checkAll (check schema table report) inOrder := by
  simp only [inOrder, checkAll_cons_cons, checkAll_singleton]
  rfl

/-- What rejects for one reason decides the same among all faults. -/
theorem lift_decides_eq {outcome : Except Rejection Unit} {holds : Prop} {reason : Rejection}
    (decides : Decides outcome holds (· = reason)) :
    Decides (BuildFault.lift outcome) holds (· = .rejected reason) :=
  (BuildFault.lift_decides decides).congr Iff.rfl fun _ _ => exists_eq_left

/-- The source is checked by its rule. -/
theorem source_decides :
    Decides (BuildFault.lift (schema.checkSource table)) (source.Holds schema table report)
      (source.Fault schema table report ·) := by
  refine (lift_decides_eq decides_ite).congr ?_ fun _ _ => Iff.rfl
  simp only [Schema.isReportable, Option.any_eq_true, Holds]

/-- That something is shown is checked by its rule. -/
theorem shown_decides :
    Decides (BuildFault.lift report.checkNotEmpty) (shown.Holds schema table report)
      (shown.Fault schema table report ·) := by
  refine lift_decides_eq ⟨Report.checkNotEmpty_eq_ok, fun rejection => ?_⟩
  simp only [Report.checkNotEmpty, Holds]
  split
  next empty =>
    rw [Bool.and_eq_true, List.isEmpty_iff, List.isEmpty_iff] at empty
    simp [empty, eq_comm]
  next some =>
    rw [Bool.and_eq_true, List.isEmpty_iff, List.isEmpty_iff] at some
    simp [← not_and_or, some]

/-- That metrics have something to be grouped by is checked by its rule. -/
theorem grouped_decides :
    Decides (BuildFault.lift report.checkGrouping) (grouped.Holds schema table report)
      (grouped.Fault schema table report ·) := by
  refine ⟨BuildFault.lift_eq_ok.trans Report.checkGrouping_eq_ok, fun fault => ?_⟩
  simp only [Report.checkGrouping, Holds, Fault]
  split
  next metric rest dimensions metrics => simp [dimensions, metrics, BuildFault.lift, eq_comm]
  next other =>
    simp only [BuildFault.lift, reduceCtorEq, false_iff, not_and, not_exists]
    rintro ungrouped metric rest metrics -
    refine ungrouped fun _ dimensions => ?_
    exact other metric rest dimensions metrics

/-- The limit is checked by its rule, which fails without a rejection where the limit cannot be
written. -/
theorem limit_decides :
    Decides report.checkLimit (limit.Holds schema table report)
      (limit.Fault schema table report ·) := by
  refine ⟨Report.checkLimit_eq_ok, fun fault => ?_⟩
  simp only [Report.checkLimit, Holds, Fault]
  split
  next absent => simp [absent]
  next n given =>
    simp only [given, Option.some.injEq, forall_eq', exists_eq_left']
    split
    next outside =>
      have broken : ¬ (0 ≤ n ∧ n ≤ 10000) := by
        rw [not_and_or, Int.not_le, Int.not_le]
        exact outside
      simp only [broken, not_false_eq_true, true_and, Except.error.injEq, Report.limitFault,
        greatestLimit, eq_comm]
    next inside =>
      rw [not_or, Int.not_lt, Int.not_lt] at inside
      have kept : 0 ≤ n ∧ n ≤ 10000 := inside
      simp only [kept, and_self, not_true_eq_false, false_and, reduceCtorEq]

/-- The filters are checked by their rule, the first misfit giving the reason. -/
theorem filters_decides :
    Decides (checkAll Report.checkFilter report.filters) (filters.Holds schema table report)
      (filters.Fault schema table report ·) :=
  checkAll_decides fun _ _ _ _ =>
    decides_map Filter.exists_test_iff fun _ _ => Filter.test_eq_error_iff

/-- The labels are checked by their rule, in the order of the items. -/
theorem labels_decides :
    Decides (BuildFault.lift (checkAll Report.checkLabel report.labels))
      (labels.Holds schema table report) (labels.Fault schema table report ·) := by
  rw [BuildFault.lift_checkAll]
  refine checkAll_decides fun _ label _ _ => ?_
  have rejects : Decides (Report.checkLabel label) (Sql.IsLabelText label) fun rejection =>
      (¬ Sql.IsIdentifierText label ∧ rejection = .invalidIdentifier (.text label)) ∨
        (Sql.IsIdentifierText label ∧ rejection = .invalidLabel label) := by
    refine decides_map ?_ fun other rejection => ?_
    · simp only [Sql.vetLabel_eq_ok, exists_and_left, exists_eq, and_true, Sql.isLabel_iff]
    · simp only [Sql.vetLabel_eq_error, Sql.isName_iff, Sql.isLabel_iff, other, not_false_eq_true,
        true_and]
  refine (BuildFault.lift_decides rejects).congr Iff.rfl fun _ fault => ?_
  simp only [or_and_right, exists_or, and_assoc, exists_and_left, exists_eq_left]

/-- The order is checked by its rule, entry by entry. -/
theorem sort_decides :
    Decides (BuildFault.lift (checkAll report.checkSortEntry report.sort))
      (sort.Holds schema table report) (sort.Fault schema table report ·) := by
  rw [BuildFault.lift_checkAll]
  refine checkAll_decides fun _ entry _ _ => lift_decides_eq ?_
  constructor
  · rw [Report.checkSortEntry_eq_ok, Report.exists_sortTarget?]
  · intro rejection
    rw [← Report.exists_sortTarget?, Report.checkSortEntry]
    cases found : report.sortTarget? entry.field with
    | none => simp [eq_comm]
    | some target => simp

/-- An entry is bounded iff it means no metric or the limit is positive. -/
theorem sortBounded_iff {entry : SortEntry} :
    report.SortBounded entry ↔ ∀ target, report.sortTarget? entry.field = some target →
      target.isMetric = true → report.isBounded = true := by
  have positive : report.isBounded = true ↔ ∃ n : Int, report.limit = some n ∧ 0 < n := by
    simp only [Report.isBounded, Option.any_eq_true, decide_eq_true_eq]
  rw [positive]
  constructor
  · intro bounded target found metric
    obtain ⟨before, item, first, rfl⟩ := Report.sortTarget?_eq_some_iff.mp found
    exact bounded before item first metric
  · intro bounded before item first metric
    exact bounded _ (Report.sortTarget?_eq_some_iff.mpr ⟨before, item, first, rfl⟩) metric

/-- The bound is checked by its rule, entry by entry. -/
theorem bound_decides :
    Decides (BuildFault.lift (checkAll report.checkBound report.sort))
      (bound.Holds schema table report) (bound.Fault schema table report ·) := by
  rw [BuildFault.lift_checkAll]
  refine checkAll_decides fun _ entry _ _ => lift_decides_eq ?_
  have ok : report.checkBound entry = .ok () ↔ report.SortBounded entry :=
    Report.checkBound_eq_ok.trans sortBounded_iff.symm
  refine ⟨ok, fun rejection => ?_⟩
  rw [← ok, Report.checkBound]
  split
  next => simp [eq_comm]
  next => simp

section Accepted

variable (accepted : schema.Accepted) (keyed : ∀ entry ∈ schema.tables, entry.1 ≠ "")

include accepted keyed

/-- The fields are checked by their rule, once the source is known. -/
theorem fields_decides (reportable : source.Holds schema table report) :
    Decides (BuildFault.lift (report.checkFields schema table)) (fields.Holds schema table report)
      (fields.Fault schema table report ·) := by
  have isReportable := source_decides.ok.mpr reportable
  rw [BuildFault.lift_eq_ok, Report.checkSource_eq_ok] at isReportable
  obtain ⟨home, known, -⟩ := reportable
  rw [Report.checkFields, accepted.map_planJoins isReportable, BuildFault.lift_checkAll]
  refine checkAll_decides fun _ field _ _ => BuildFault.lift_decides ?_
  refine decides_map (accepted.resolves_iff keyed) fun missing rejection => ?_
  rw [accepted.resolveField_eq_error_iff keyed (by rw [known]; rfl)]
  exact and_iff_right missing

/-- The metrics are checked by their rule, once their fields are located. -/
theorem metrics_decides (located : fields.Holds schema table report) :
    Decides (BuildFault.lift (checkAll (Report.checkMetric schema table) report.metrics))
      (metrics.Holds schema table report) (metrics.Fault schema table report ·) := by
  rw [BuildFault.lift_checkAll]
  refine checkAll_decides fun before metric ⟨after, split⟩ _ => lift_decides_eq ?_
  have member : metric ∈ report.metrics := by rw [split]; simp
  obtain ⟨resolved, found⟩ := (accepted.resolves_iff keyed).mpr
    (located metric.field (Report.field_mem_of_metric member))
  have numeric : schema.Summable table metric.field ↔ resolved.numeric = true := by
    rw [← accepted.resolves_numeric_iff keyed]
    simp only [found, Except.ok.injEq, exists_eq_left']
  rw [Report.checkMetric]
  rcases metric.aggregate?_cases with ⟨sum, known⟩ | ⟨count, known⟩ | ⟨other, unknown⟩
  · have check : (schema.resolveField table metric.field >>= fun resolved =>
        if resolved.numeric = true then Except.ok () else .error (.nonNumericSum metric.field)) =
        if resolved.numeric = true then .ok () else .error (.nonNumericSum metric.field) := by
      rw [found]
      rfl
    simp only [known, check]
    refine decides_ite.congr ?_ ?_
    · simp [Report.MetricSound, sum, numeric]
    · simp [sum]
  · simp only [known]
    constructor
    · simp [Report.MetricSound, count]
    · simp [Report.MetricSound, count]
  · simp only [unknown]
    constructor
    · simp [Report.MetricSound, other]
    · simp [Report.MetricSound, other, eq_comm]

omit accepted keyed in
/-- The rule of the names of columns is broken by the first item that has the name of an earlier
one. -/
theorem outputs_fault_iff {nameOf : Dimension ⊕ Metric → String}
    (gives : ∀ item ∈ report.items, ∀ name, Report.OutputName item name ↔ nameOf item = name)
    {fault : BuildFault} :
    outputs.Fault schema table report fault ↔
      ∃ before item first, Report.Repeats nameOf [] report.items before item first ∧
        fault = .rejected (.duplicateOutput (Report.itemField first) (Report.itemField item)
          (nameOf item)) := by
  have known {before after : List (Dimension ⊕ Metric)} {item : Dimension ⊕ Metric}
      (split : report.items = before ++ item :: after) :
      (∀ other ∈ before, ∀ name, Report.OutputName other name ↔ nameOf other = name) ∧
        ∀ name, Report.OutputName item name ↔ nameOf item = name := by
    rw [split, List.forall_mem_append, List.forall_mem_cons] at gives
    exact ⟨gives.1, gives.2.1⟩
  constructor
  · rintro ⟨before, item, after, _, _, first, split, each, distinct, own, earlier, same, rfl⟩
    obtain ⟨givesBefore, givesItem⟩ := known split
    obtain rfl := (Report.forall₂_outputName givesBefore).mp each
    obtain rfl := (givesItem _).mp own
    exact ⟨before, item, first,
      ⟨⟨after, split⟩, distinct, earlier, (givesBefore first earlier _).mp same⟩, rfl⟩
  · rintro ⟨before, item, first, ⟨⟨after, split⟩, distinct, earlier, same⟩, rfl⟩
    obtain ⟨givesBefore, givesItem⟩ := known split
    exact ⟨before, item, after, _, _, first, split, (Report.forall₂_outputName givesBefore).mpr rfl,
      distinct, (givesItem _).mpr rfl, earlier, (givesBefore first earlier _).mpr same, rfl⟩

omit accepted keyed in
/-- The names of columns are checked by their rule, once there are such names. -/
theorem outputs_decides (located : fields.Holds schema table report)
    (sound : metrics.Holds schema table report) :
    Decides (BuildFault.lift (Report.checkOutputs [] report.outputs))
      (outputs.Holds schema table report) (outputs.Fault schema table report ·) := by
  obtain ⟨nameOf, gives⟩ := Report.exists_nameOf located sound
  have named : report.outputs =
      report.items.map fun item => (Report.itemField item, .ok (nameOf item)) := by
    rw [Report.outputs_eq_map_items]
    exact List.map_congr_left fun item member => by
      rw [(Report.outputName_iff item _).mp ((gives item member _).mpr rfl)]
  have ok : Report.checkOutputs [] report.outputs = .ok () ↔
      outputs.Holds schema table report := by
    rw [Report.checkOutputs_eq_ok, ← Report.map_itemName_items]
    simp only [List.lookup_nil, implies_true, and_true, Holds]
    refine exists_congr fun names => and_congr_left fun _ => ?_
    rw [← List.forall₂_eq_eq_eq, List.forall₂_map_left_iff, List.forall₂_map_right_iff]
    simp only [← Report.outputName_iff]
  have error (fault : BuildFault) :
      BuildFault.lift (Report.checkOutputs [] report.outputs) = .error fault ↔
        outputs.Fault schema table report fault := by
    have none : (([] : List (Dimension ⊕ Metric)).map nameOf).Nodup := List.nodup_nil
    rw [outputs_fault_iff gives, named, BuildFault.lift_eq_error]
    constructor
    · rintro ⟨rejection, refused, rfl⟩
      obtain ⟨before, item, first, repeated, rfl⟩ :=
        (Report.checkOutputs_eq_error_iff none report.items).mp refused
      exact ⟨before, item, first, repeated, rfl⟩
    · rintro ⟨before, item, first, repeated, rfl⟩
      exact ⟨_, (Report.checkOutputs_eq_error_iff none report.items).mpr
        ⟨before, item, first, repeated, rfl⟩, rfl⟩
  rw [← BuildFault.lift_eq_ok] at ok
  refine ⟨ok, fun fault => ?_⟩
  rw [error, iff_and_self]
  intro reported holds
  rw [ok.mpr holds] at error
  exact absurd ((error fault).mpr reported) (by simp)

end Accepted

/-- Every rule is checked as it says, where the rules before it hold. -/
theorem decides_of_earlier (accepted : schema.Accepted)
    (keyed : ∀ entry ∈ schema.tables, entry.1 ≠ "") (rule : Rule)
    (kept : ∀ earlier ∈ inOrder.takeWhile (· != rule), earlier.Holds schema table report) :
    Decides (rule.check schema table report) (rule.Holds schema table report)
      (rule.Fault schema table report ·) := by
  cases rule with
  | source => exact source_decides
  | shown => exact shown_decides
  | grouped => exact grouped_decides
  | fields => exact fields_decides accepted keyed (kept source (by decide))
  | metrics => exact metrics_decides accepted keyed (kept fields (by decide))
  | sort => exact sort_decides
  | bound => exact bound_decides
  | limit => exact limit_decides
  | filters => exact filters_decides
  | labels => exact labels_decides
  | outputs => exact outputs_decides (kept fields (by decide)) (kept metrics (by decide))

end Rule

/-- Where no label holds a line feed and every part can be written, the rules ask for what they are
documented to ask for. -/
theorem Rule.holds_iff_documented {schema : Schema} {table : String} {report : Report}
    (labels : ∀ label ∈ report.labels, '\n' ∉ label.toList) (short : ¬ report.HasLongPart)
    (rule : Rule) : rule.Holds schema table report ↔ rule.Documented schema table report := by
  cases rule with
  | filters =>
      refine forall₂_congr fun f member => and_iff_left ?_
      by_contra unwritten
      exact short (.inr ⟨f, member, unwritten⟩)
  | labels =>
      exact forall₂_congr fun label member => Sql.isLabelText_iff_isPlainLabel (labels label member)
  | source | shown | grouped | fields | metrics | sort | bound | limit | outputs => exact Iff.rfl

/-- A report passes the check iff all rules hold, and otherwise the first rule that does not hold
gives the reason. The rules are the documented ones unless a label holds a line feed or a part of
the report cannot be written, and only such a part is reported without a rejection. -/
theorem Report.check_decides {schema : Schema} (accepted : schema.Accepted)
    (keyed : ∀ entry ∈ schema.tables, entry.1 ≠ "") (table : String) (report : Report) :
    (report.check schema table = .ok () ↔ ∀ rule : Rule, rule.Holds schema table report) ∧
      (∀ fault, report.check schema table = .error fault ↔
        ∃ before rule, IsFirst (fun rule : Rule => ¬ rule.Holds schema table report) Rule.inOrder
          before rule ∧ rule.Fault schema table report fault) ∧
      ((∀ label ∈ report.labels, '\n' ∉ label.toList) → ¬ report.HasLongPart → ∀ rule : Rule,
        rule.Holds schema table report ↔ rule.Documented schema table report) ∧
      ∀ fault, report.check schema table = .error fault →
        fault.IsRejection ∨ (fault = .longInteger ∧ report.HasLongPart) := by
  have decides : Decides (checkAll (Rule.check schema table report) Rule.inOrder)
      (∀ rule ∈ Rule.inOrder, rule.Holds schema table report) fun fault =>
        ∃ before rule, IsFirst (fun rule : Rule => ¬ rule.Holds schema table report) Rule.inOrder
          before rule ∧ rule.Fault schema table report fault :=
    checkAll_decides fun before rule split kept => Rule.decides_of_earlier accepted keyed rule
      (Rule.before_eq split ▸ kept)
  rw [← Rule.check_eq_checkAll] at decides
  refine ⟨?_, fun fault => ?_, Rule.holds_iff_documented, report.faultsIn_check schema table⟩
  · rw [decides.ok]
    exact ⟨fun each rule => each rule (Rule.mem_inOrder rule), fun each rule _ => each rule⟩
  · rw [decides.error]
    refine and_iff_right_of_imp ?_
    rintro ⟨before, rule, first, -⟩ each
    exact first.holds (each rule (Rule.mem_inOrder rule))

/-- A sum over texts, ordered by it without a limit and below a label that is no name: the sum is
what is reported. -/
theorem Report.rewards_check_of_orders :
    Schema.rewards.Accepted ∧ (∀ entry ∈ Schema.rewards.tables, entry.1 ≠ "") ∧
      Report.check Schema.rewards "orders"
          { dimensions := [⟨"id", some "the id"⟩], metrics := [⟨"status", "SUM", none⟩],
            sort := [⟨"status", .descending⟩] } =
        .error (.rejected (.nonNumericSum "status")) ∧
        ∃ before rule, IsFirst (fun rule : Rule => ¬ rule.Holds Schema.rewards "orders"
            { dimensions := [⟨"id", some "the id"⟩], metrics := [⟨"status", "SUM", none⟩],
              sort := [⟨"status", .descending⟩] }) Rule.inOrder before rule := by
  have keyed : ∀ entry ∈ Schema.rewards.tables, entry.1 ≠ "" :=
    fun entry member => (Schema.rewards_names.tableKey entry member).1
  have refused : Report.check Schema.rewards "orders"
      { dimensions := [⟨"id", some "the id"⟩], metrics := [⟨"status", "SUM", none⟩],
        sort := [⟨"status", .descending⟩] } = .error (.rejected (.nonNumericSum "status")) := by
    simp only [Report.check, Report.checkFields, Schema.planJoins,
      Schema.sortedKeys_eq_insertionSort]
    rfl
  obtain ⟨before, rule, first, -⟩ :=
    ((Report.check_decides Schema.rewards_accepted keyed _ _).2.1 _).mp refused
  exact ⟨Schema.rewards_accepted, keyed, refused, before, rule, first⟩

/-- A label that ends in a line feed passes the check, and a limit of 5001 digits is refused without
a rejection. -/
theorem Report.rewards_check_of_ended_label :
    Report.check Schema.rewards "orders" { dimensions := [⟨"id", some "x\n"⟩] } = .ok () ∧
      ¬ Rule.labels.Documented Schema.rewards "orders" { dimensions := [⟨"id", some "x\n"⟩] } ∧
      Report.check Schema.rewards "orders"
        { dimensions := [⟨"id", none⟩], limit := some (10 ^ 5000 : Nat) } =
        .error .longInteger := by
  refine ⟨?_, fun documented => ?_, ?_⟩
  · simp only [Report.check, Report.checkFields, Schema.planJoins,
      Schema.sortedKeys_eq_insertionSort]
    rfl
  · obtain ⟨first, rest, text, -, each⟩ := documented "x\n" (by simp [Report.labels])
    obtain ⟨rfl, rfl⟩ : first = 'x' ∧ rest = ['\n'] := by simpa [eq_comm] using text
    exact absurd (each '\n' (by simp)) (by decide)
  · have long :
        Report.checkLimit { dimensions := [⟨"id", none⟩], limit := some (10 ^ 5000 : Nat) } =
          .error .longInteger := by
      simp only [Report.checkLimit, Report.limitFault]
      rw [if_pos (Or.inr (by decide +kernel)), if_neg (by decide +kernel)]
    simp only [Report.check, Report.checkFields, Schema.planJoins,
      Schema.sortedKeys_eq_insertionSort, long]
    rfl

end Reporting
