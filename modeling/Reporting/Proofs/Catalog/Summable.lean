import Reporting.CommandLine.Display
import Reporting.Proofs.Catalog
import Reporting.Proofs.Report.Decision

/-!
# What the catalogue says of sums

The catalogue marks as summable those columns of the table itself that are numeric, and never a
column behind a relationship; the table of fields that is shown says the same
(`Schema.Referable.shown_iff`). A sum is accepted in a report that obeys all other rules just where
its field stands for a numeric column (`Report.SumOf.check_iff`). For the columns of the table
itself the two agree, and behind a relationship the target table decides what is accepted
(`Schema.Accepted.availableFields_sums`).
-/

namespace Reporting

open CommandLine

/-- The rows of what is printed. -/
def CommandLine.Printed.rows : Printed → List (List String)
  | .table _ _ rows => rows
  | _ => []

/-- The report sums a field, and but for that sum it obeys every rule. -/
structure Report.SumOf (schema : Schema) (table : String) (report : Report) (field : String) :
    Prop where
  rules : ∀ rule : Rule, rule ≠ .metrics → rule.Holds schema table report
  metrics : ∃ label before after, report.metrics = before ++ ⟨field, "SUM", label⟩ :: after ∧
    ∀ other ∈ before ++ after, Report.MetricSound schema table other

/-- A report that sums a field and obeys every other rule is accepted just under a condition, and
there is such a report. -/
structure Schema.SumsIff (schema : Schema) (table field : String) (condition : Prop) : Prop where
  exists_report : ∃ report : Report, report.SumOf schema table field
  check_iff : ∀ report : Report, report.SumOf schema table field →
    (report.check schema table = .ok () ↔ condition)

/-- A reference to a related column holds a point. -/
theorem FieldReference.IsPair.point_mem {field key column : String}
    (pair : FieldReference.IsPair field key column) : '.' ∈ field.toList := by
  rw [pair.toList_eq]
  exact List.mem_append_right _ List.mem_cons_self

namespace Report

variable {schema : Schema} {table field : String} {report : Report}

/-- Over an accepted schema the check passes the reports that obey every rule. -/
theorem check_eq_ok_iff_holds (accepted : schema.Accepted)
    (keyed : ∀ entry ∈ schema.tables, entry.1 ≠ "") :
    report.check schema table = .ok () ↔ ∀ rule : Rule, rule.Holds schema table report := by
  rw [Rule.check_eq_checkAll, (Outcome.checkAll_decides fun before rule split kept =>
    Rule.decides_of_earlier accepted keyed rule (Rule.before_eq split ▸ kept)).ok]
  exact ⟨fun each rule => each rule (Rule.mem_inOrder rule), fun each rule _ => each rule⟩

/-- The sum decides whether the report is accepted. -/
theorem SumOf.check_iff (sums : report.SumOf schema table field) (accepted : schema.Accepted)
    (keyed : ∀ entry ∈ schema.tables, entry.1 ≠ "") :
    report.check schema table = .ok () ↔ schema.Summable table field := by
  obtain ⟨label, before, after, split, others⟩ := sums.metrics
  rw [check_eq_ok_iff_holds accepted keyed]
  constructor
  · intro holds
    have listed : ⟨field, "SUM", label⟩ ∈ report.metrics := by rw [split]; simp
    exact (holds .metrics _ listed).2 rfl
  · intro summable rule
    by_cases other : rule = .metrics
    · subst other
      intro metric member
      rw [split, List.mem_append, List.mem_cons] at member
      rcases member with earlier | rfl | later
      · exact others metric (List.mem_append_left _ earlier)
      · exact ⟨by simp, fun _ => summable⟩
      · exact others metric (List.mem_append_right _ later)
    · exact sums.rules rule other

/-- A field that stands for a column of a reportable table is summed by a report that obeys every
other rule. -/
theorem exists_sumOf {home : Table} (known : schema.table? table = some home)
    (reportable : home.reportable = true) (located : schema.Located table field) :
    ∃ report : Report, report.SumOf schema table field := by
  refine ⟨{ dimensions := [⟨field, some "each"⟩], metrics := [⟨field, "SUM", some "sum"⟩] }, ?_,
    some "sum", [], [], rfl, List.forall_mem_nil _⟩
  intro rule other
  cases rule with
  | source => exact ⟨home, known, reportable⟩
  | shown => exact Or.inl (List.cons_ne_nil _ _)
  | grouped => exact fun _ => List.cons_ne_nil _ _
  | fields => simp [Rule.Holds, referencedFields, located]
  | metrics => exact absurd rfl other
  | sort => exact List.forall_mem_nil _
  | bound => exact List.forall_mem_nil _
  | limit => exact fun n limited => absurd limited (Option.some_ne_none n).symm
  | filters => exact List.forall_mem_nil _
  | labels =>
      have each : Sql.IsLabelText "each" := Sql.isLabel_iff.mp (by decide)
      have sum : Sql.IsLabelText "sum" := Sql.isLabel_iff.mp (by decide)
      intro label member
      rcases List.mem_pair.mp member with rfl | rfl
      · exact each
      · exact sum
  | outputs =>
      exact ⟨["each", "sum"], .cons (.given rfl) (.cons (.given rfl) .nil), by decide⟩

end Report

namespace Schema

variable {schema : Schema} {table field column : String} {home : Table}

/-- A column of the table itself can be summed where it is numeric. -/
theorem Referable.summable_own_iff (referable : schema.Referable)
    (known : schema.table? table = some home) (listed : field ∈ home.fields) :
    schema.Summable table field ↔ field ∈ home.numericFields := by
  have bare := (referable.of_table? known listed).2
  constructor
  · rintro ⟨other, column, located, numeric⟩
    cases located with
    | own _ knownToo _ =>
        cases known.symm.trans knownToo
        exact numeric
    | related pair => exact absurd pair.point_mem bare
  · exact fun numeric => ⟨home, field, .own bare known listed, numeric⟩

/-- A column behind a relationship can be summed where it is numeric in the target table. -/
theorem Accepted.summable_related_iff (accepted : schema.Accepted) (referable : schema.Referable)
    {rel : Relationship} (declared : rel ∈ schema.relationships) (source : rel.source = table)
    (known : schema.table? rel.target = some home) (listed : column ∈ home.fields) :
    schema.Summable table (rel.key ++ "." ++ column) ↔ column ∈ home.numericFields := by
  have pair := referable.isPair declared known listed
  constructor
  · rintro ⟨other, otherColumn, located, numeric⟩
    cases located with
    | own bare => exact absurd pair.point_mem bare
    | related pairToo declaredToo sourceToo knownToo _ =>
        obtain ⟨key, rfl⟩ := pair.unique pairToo
        obtain rfl := accepted.eq_of_key declared declaredToo (source.trans sourceToo.symm) key
        cases known.symm.trans knownToo
        exact numeric
  · exact fun numeric => ⟨home, column, .related pair declared source known listed, numeric⟩

/-- The catalogue marks the numeric columns of the table itself. -/
theorem mem_metrics_iff {available : AvailableFields}
    (listed : schema.availableFields table = .ok available)
    (known : schema.table? table = some home) :
    field ∈ available.metrics ↔ field ∈ home.fields ∧ field ∈ home.numericFields := by
  obtain ⟨_, knownToo, -, rfl⟩ := availableFields_eq_ok.mp listed
  cases known.symm.trans knownToo
  rw [List.mem_filter, List.contains_iff_mem]

/-- No column behind a relationship is marked. -/
theorem Referable.not_mem_metrics (referable : schema.Referable) {available : AvailableFields}
    (listed : schema.availableFields table = .ok available) (key column : String) :
    key ++ "." ++ column ∉ available.metrics := by
  obtain ⟨home, known, -, -⟩ := availableFields_eq_ok.mp listed
  intro marked
  have own := ((mem_metrics_iff listed known).mp marked).1
  apply (referable.of_table? known own).2
  simp

/-- The table of fields that is shown has a row for each reference on offer, which says whether the
catalogue marks it. -/
theorem Referable.shown_iff (referable : schema.Referable) {available : AvailableFields}
    (listed : schema.availableFields table = .ok available) (field mark : String) :
    [field, mark] ∈ (showFields available).rows ↔
      (∃ reference, available.Offers field reference) ∧
        mark = if field ∈ available.metrics then "yes" else "" := by
  have unmarked := referable.not_mem_metrics listed
  simp only [showFields, Printed.rows, List.mem_append, List.mem_map, List.mem_flatMap,
    List.cons.injEq, and_true, List.contains_iff_mem]
  constructor
  · rintro (⟨_, member, rfl, rfl⟩ | ⟨entry, isEntry, column, member, rfl, rfl⟩)
    · exact ⟨⟨_, .own member⟩, rfl⟩
    · exact ⟨⟨_, .related isEntry member⟩, (if_neg (unmarked _ _)).symm⟩
  · rintro ⟨⟨reference, offers⟩, rfl⟩
    cases offers with
    | own member => exact Or.inl ⟨field, member, rfl, rfl⟩
    | related isEntry member =>
        exact Or.inr ⟨_, isEntry, _, member, rfl, (if_neg (unmarked _ _)).symm⟩

/-- Whether a sum is accepted turns on whether the field stands for a numeric column. -/
theorem Accepted.sumsIff (accepted : schema.Accepted) (referable : schema.Referable)
    (known : schema.table? table = some home) (reportable : home.reportable = true)
    (located : schema.Located table field) {condition : Prop}
    (summable : schema.Summable table field ↔ condition) :
    schema.SumsIff table field condition where
  exists_report := Report.exists_sumOf known reportable located
  check_iff _ sums := (sums.check_iff accepted referable.keyed).trans summable

/-- The catalogue of a reportable table marks just those of its own columns of which a sum is
accepted. What it offers behind a relationship it never marks; a sum of it is accepted where the
related table holds the column as a numeric one. -/
theorem Accepted.availableFields_sums (accepted : schema.Accepted) (referable : schema.Referable)
    (reportable : schema.isReportable table = true) :
    ∃ available, schema.availableFields table = .ok available ∧
      (∀ field mark, [field, mark] ∈ (showFields available).rows ↔
        (∃ reference, available.Offers field reference) ∧
          mark = if field ∈ available.metrics then "yes" else "") ∧
      (∀ field ∈ available.dimensions,
        schema.SumsIff table field (field ∈ available.metrics)) ∧
      ∀ entry ∈ available.related, ∀ column ∈ entry.fields,
        entry.key ++ "." ++ column ∉ available.metrics ∧
        schema.SumsIff table (entry.key ++ "." ++ column)
          (∃ home, schema.table? entry.table = some home ∧ column ∈ home.numericFields) := by
  obtain ⟨home, known, isReportable⟩ := (Option.any_eq_true _ _).mp reportable
  have listed := availableFields_eq_ok.mpr ⟨home, known, isReportable, rfl⟩
  refine ⟨_, listed, referable.shown_iff listed, ?_, ?_⟩
  · intro field member
    have bare := (referable.of_table? known member).2
    refine accepted.sumsIff referable known isReportable ⟨home, field, .own bare known member⟩ ?_
    rw [referable.summable_own_iff known member, mem_metrics_iff listed known, and_iff_right member]
  · intro entry isEntry column member
    obtain ⟨rel, isRelated, rfl⟩ := List.mem_map.mp isEntry
    obtain ⟨declared, source⟩ := mem_relationshipsOf.mp isRelated
    obtain ⟨target, isTarget, -, behind⟩ := accepted.exists_related referable declared
    rw [behind] at member ⊢
    have pair := referable.isPair declared isTarget member
    refine ⟨referable.not_mem_metrics listed rel.key column, ?_⟩
    refine accepted.sumsIff referable known isReportable
      ⟨target, column, .related pair declared source isTarget member⟩ ?_
    rw [accepted.summable_related_iff referable declared source isTarget member, isTarget]
    simp only [Option.some.injEq, exists_eq_left']

/-- Of the points of an order and of the quantities of its items sums are accepted, and only the
points are marked; names of products are not summed. -/
theorem rewards_sums_of_orders :
    rewards.Accepted ∧ rewards.Referable ∧ rewards.isReportable "orders" = true ∧
      ∃ available, rewards.availableFields "orders" = .ok available ∧
        "total_points" ∈ available.metrics ∧ "items.quantity" ∉ available.metrics ∧
        (∀ report : Report, report.SumOf rewards "orders" "total_points" →
          report.check rewards "orders" = .ok ()) ∧
        (∀ report : Report, report.SumOf rewards "orders" "items.quantity" →
          report.check rewards "orders" = .ok ()) ∧
        ∀ report : Report, report.SumOf rewards "orders" "product.name" →
          report.check rewards "orders" ≠ .ok () := by
  have reportable : rewards.isReportable "orders" = true := rfl
  obtain ⟨available, listed, -, own, behind⟩ :=
    rewards_accepted.availableFields_sums rewards_referable reportable
  cases listed
  have points := (own "total_points" (by decide)).check_iff
  obtain ⟨unmarked, -, quantity⟩ := behind ⟨"items", "order_items", "order_items",
    ["id", "order_id", "product_id", "quantity", "points_per_unit"]⟩ (by decide)
    "quantity" (by decide)
  obtain ⟨-, -, name⟩ := behind ⟨"product", "products", "products", ["id", "category_id", "name",
    "description", "quantity", "active", "created_at", "updated_at"]⟩ (by decide) "name" (by decide)
  refine ⟨rewards_accepted, rewards_referable, reportable, _, rfl, by decide, unmarked, ?_, ?_, ?_⟩
  · exact fun report sums => (points report sums).mpr (by decide)
  · exact fun report sums => (quantity report sums).mpr ⟨_, rfl, by decide⟩
  · intro report sums accepted
    obtain ⟨home, known, numeric⟩ := (name report sums).mp accepted
    cases known
    revert numeric
    decide

/-- How many items were ordered, by the status of the orders. -/
def quantityByStatus : Report where
  dimensions := [⟨"status", none⟩]
  metrics := [⟨"items.quantity", "SUM", none⟩]

/-- The catalogue of orders offers the quantity of items without a mark, and yet a report that sums
it is accepted. -/
theorem rewards_sum_unmarked :
    rewards.Accepted ∧ rewards.Referable ∧ rewards.isReportable "orders" = true ∧
      ∃ available, rewards.availableFields "orders" = .ok available ∧
        available.Offers "items.quantity" "order_items" ∧
        ["items.quantity", ""] ∈ (showFields available).rows ∧
        quantityByStatus.SumOf rewards "orders" "items.quantity" ∧
        ¬ ("items.quantity" ∈ available.metrics ↔
          quantityByStatus.check rewards "orders" = .ok ()) := by
  have passes : quantityByStatus.check rewards "orders" = .ok () := by
    apply Outcome.toOption_eq_some.mp
    simp only [Report.check, Report.checkFields, planJoins, sortedKeys_eq_insertionSort]
    decide +kernel
  have obeys := (Report.check_eq_ok_iff_holds rewards_accepted rewards_referable.keyed).mp passes
  have found : rewards.resolveField "orders" "items.quantity" =
      .ok ⟨"items.quantity", some "items", "order_items", "quantity", true⟩ := rfl
  refine ⟨rewards_accepted, rewards_referable, rfl, _, rfl,
    (rewards_accepted.resolves_iff_offers rewards_referable rfl).mp ⟨_, found, rfl⟩, by decide,
    ⟨fun rule _ => obeys rule, none, [], [], rfl, List.forall_mem_nil _⟩, ?_⟩
  rw [iff_true_right passes]
  decide

end Schema

end Reporting
