import Reporting.Proofs.Report.Placeholders
import Reporting.Proofs.Report.SortTarget

/-!
# Orders by an aggregate are bounded

The rules look at the entries of a report's order, while a statement orders by labels, positions and
columns. `Sql.Designates` says which entries of the select list a key of the order stands for. A
compiled statement with a key that stands for an aggregate ends in a limit, the one of the report,
and one without a limit is ordered by dimensions only (`Schema.compile_bounded`).
-/

namespace Reporting

open Sql

namespace Sql

/-- An entry of the select list that is computed from a group. -/
def Selection.IsAggregate (selection : Selection) : Prop := selection.shownColumn? = none

/-- The label of an entry is written like a name. -/
def Selection.WrittenAs (name : String) (selection : Selection) : Prop :=
  ∃ label, selection.label? = some label ∧
    Text.collapse (quoteName label) = Text.collapse (quoteName name)

/-- What a key of the order stands for in a select list: a position for the entry there, a label for
the entry that has it, and where several labels are written alike for the first of these too. -/
inductive Designates (selections : List Selection) : OrderKey → Selection → Prop where
  | label {name : String} {selection : Selection} (member : selection ∈ selections)
      (labelled : selection.label? = some name) : Designates selections (.label name) selection
  | written {name : String} {before : List Selection} {selection : Selection}
      (first : IsFirst (Selection.WrittenAs name) selections before selection) :
      Designates selections (.label name) selection
  | position {place : Nat} {selection : Selection}
      (selected : selections[place]? = some selection) :
      Designates selections (.position (place + 1)) selection
  | column {source : Column} {selection : Selection} (member : selection ∈ selections)
      (shown : selection.shownColumn? = some source) :
      Designates selections (.column source) selection

/-- A labelled entry is ordered by its label or by the column that it shows. -/
theorem Selection.orderKey_of_label? (columnsOf : String → List String)
    (selections : List Selection) {selection : Selection} {label : String}
    (labelled : selection.label? = some label) :
    selection.orderKey columnsOf selections = .label label ∨
      ∃ source, selection.shownColumn? = some source ∧
        selection.orderKey columnsOf selections = .column source := by
  cases selection with
  | column source => cases labelled
  | aggregate function source name =>
      cases labelled
      exact Or.inl rfl
  | labelled source name =>
      cases labelled
      simp only [orderKey]
      split
      · exact Or.inl rfl
      · split
        · exact Or.inl rfl
        · exact Or.inr ⟨source, rfl, rfl⟩

theorem Selection.givenName_of_label? {selection : Selection} {label : String}
    (labelled : selection.label? = some label) : selection.givenName = label := by
  cases selection with
  | column source => cases labelled
  | labelled source name => exact Option.some.inj labelled
  | aggregate function source name => exact Option.some.inj labelled

end Sql

namespace Report

variable {schema : Schema} {table : String} {report : Report}

/-- Metrics are shown as aggregates, dimensions are not. -/
theorem ShownAs.isAggregate_iff {item : Dimension ⊕ Metric} {selection : Selection}
    (shown : ShownAs schema table item selection) :
    selection.IsAggregate ↔ item.isRight = true := by
  cases shown with
  | column unlabelled found => simp [Selection.IsAggregate, Selection.shownColumn?]
  | labelled given found => simp [Selection.IsAggregate, Selection.shownColumn?]
  | aggregate known named found => simp [Selection.IsAggregate, Selection.shownColumn?]

/-- An item with a given label is shown with it. -/
theorem ShownAs.label?_of_givenLabel? {item : Dimension ⊕ Metric} {selection : Selection}
    (shown : ShownAs schema table item selection) {label : String}
    (given : givenLabel? (itemLabel item) = some label) : selection.label? = some label := by
  cases shown with
  | column unlabelled found =>
      rw [itemLabel, unlabelled] at given
      cases given
  | labelled own found =>
      rw [itemLabel, own] at given
      exact given
  | aggregate known named found =>
      rw [itemLabel] at given
      simp only [Metric.outputName, given, Except.ok.injEq] at named
      rw [Selection.label?, named]

/-- No entry behind which there is a dimension aggregates. -/
theorem not_isAggregate_of_le {selections : List Selection}
    (shown : List.Forall₂ (ShownAs schema table) report.items selections) {i j : Nat}
    {item : Dimension ⊕ Metric} (found : report.items[i]? = some item)
    (isDimension : item.isRight = false) {selection : Selection}
    (selected : selections[j]? = some selection) (before : j ≤ i) : ¬ selection.IsAggregate := by
  obtain ⟨inside, rfl⟩ := List.getElem?_eq_some_iff.mp selected
  have insideToo : j < report.items.length := by
    rw [shown.length_eq]
    exact inside
  have shows := shown.get insideToo inside
  intro aggregate
  have metric := shows.isAggregate_iff.mp aggregate
  have behind := (isRight_iff_of_getElem? (List.getElem?_eq_getElem insideToo)).mp metric
  have later := (isRight_iff_of_getElem? found).mpr (Nat.le_trans behind before)
  rw [isDimension] at later
  cases later

end Report

namespace ReportSources

variable {sources : ReportSources} {schema : Schema} {table : String} {report : Report}
  {selections : List Selection} {entry : SortEntry} {key : OrderKey}

/-- The key of an entry of the order, by the item that the entry means: its position, or where it
has a label this label or the column that it shows. -/
theorem exists_item_of_groupedKey
    (shown : List.Forall₂ (Report.ShownAs schema table) report.items selections)
    (found : sources.groupedKey report selections entry = .ok key) :
    ∃ before item selection, IsFirst (Report.Means entry.field) report.items before item ∧
      selections[before.length]? = some selection ∧ Report.ShownAs schema table item selection ∧
      (key = .position (before.length + 1) ∨
        (∃ label, selection.label? = some label ∧ key = .label label) ∨
        ∃ source, selection.shownColumn? = some source ∧ key = .column source) := by
  obtain ⟨target, meant, outcome⟩ := groupedKey_eq_ok.mp found
  obtain ⟨before, item, first, rfl⟩ := Report.sortTarget?_eq_some_iff.mp meant
  obtain ⟨selection, selected, shows⟩ := Report.exists_selection_of_isFirst shown first
  refine ⟨before, item, selection, first, selected, shows, ?_⟩
  rcases outcome with ⟨-, rfl⟩ | ⟨label, given, other, same, rfl⟩
  · exact Or.inl rfl
  · right
    rw [Nat.add_sub_cancel, selected, Option.some.injEq] at same
    subst same
    have labelled := shows.label?_of_givenLabel? given
    rcases selection.orderKey_of_label? sources.columnsOf selections labelled with
      isLabel | isColumn
    · exact Or.inl ⟨label, labelled, isLabel⟩
    · exact Or.inr isColumn

/-- The key of an entry of the order stands for the item that the entry means. -/
theorem exists_designates_of_groupedKey
    (shown : List.Forall₂ (Report.ShownAs schema table) report.items selections)
    (found : sources.groupedKey report selections entry = .ok key) :
    ∃ selection, Designates selections key selection := by
  obtain ⟨before, item, selection, -, selected, -, outcome⟩ :=
    exists_item_of_groupedKey shown found
  have member := List.mem_of_getElem? selected
  refine ⟨selection, ?_⟩
  rcases outcome with rfl | ⟨label, labelled, rfl⟩ | ⟨source, shows, rfl⟩
  · exact .position selected
  · exact .label member labelled
  · exact .column member shows

/-- The key of an entry that means a dimension stands for no aggregate. -/
theorem not_isAggregate_of_designates
    (shown : List.Forall₂ (Report.ShownAs schema table) report.items selections)
    (distinct : (selections.map Selection.givenName).Nodup)
    (found : sources.groupedKey report selections entry = .ok key)
    (dimension : ∀ target, report.sortTarget? entry.field = some target → target.isMetric = false)
    {selection : Selection} (designated : Designates selections key selection) :
    ¬ selection.IsAggregate := by
  obtain ⟨before, item, own, first, selected, -, outcome⟩ := exists_item_of_groupedKey shown found
  have isDimension : item.isRight = false :=
    dimension _ (Report.sortTarget?_eq_some_iff.mpr ⟨before, item, first, rfl⟩)
  have upTo {j : Nat} {other : Selection} (here : selections[j]? = some other)
      (le : j ≤ before.length) : ¬ other.IsAggregate :=
    Report.not_isAggregate_of_le shown first.getElem?_length isDimension here le
  rcases outcome with rfl | ⟨label, ownLabel, rfl⟩ | ⟨source, -, rfl⟩
  · cases designated with
    | position here => exact upTo here (Nat.le_refl _)
  · cases designated with
    | label member labelled =>
        have names := (Selection.givenName_of_label? labelled).trans
          (Selection.givenName_of_label? ownLabel).symm
        have same := List.inj_on_of_nodup_map distinct member (List.mem_of_getElem? selected) names
        rw [same]
        exact upTo selected (Nat.le_refl _)
    | written alike =>
        -- what is written alike and stands first does not stand behind the dimension itself
        exact upTo alike.getElem?_length (alike.length_le selected ⟨label, ownLabel, rfl⟩)
  · cases designated with
    | column member visible => simp [Selection.IsAggregate, visible]

/-- A report whose order stands for an aggregate is bounded. -/
theorem Clauses.isBounded_of_designates {query : Query} (clauses : sources.Clauses report query)
    (obeys : report.Obeys schema table)
    (shown : List.Forall₂ (Report.ShownAs schema table) report.items query.selections)
    {ordered : OrderEntry} (member : ordered ∈ query.order) {selection : Selection}
    (designated : Designates query.selections ordered.key selection)
    (aggregate : selection.IsAggregate) : report.isBounded = true := by
  have distinct := (Report.promised_of_shownAs obeys shown).distinct
  obtain ⟨spec, listed, found, -⟩ := Outcome.exists_of_mem_right clauses.order member
  by_contra unbounded
  refine not_isAggregate_of_designates shown distinct found ?_ designated aggregate
  intro target meant
  by_contra metric
  exact unbounded (obeys.bounded spec listed target meant (by simpa using metric))

/-- The statement of a report with dimensions is grouped. -/
theorem Clauses.grouping_ne_nil {query : Query} (clauses : sources.Clauses report query)
    (dimensions : report.dimensions ≠ []) : query.grouping ≠ [] := by
  intro none
  have same := clauses.grouping
  rw [none, List.forall₂_nil_right_iff] at same
  exact dimensions same

end ReportSources

/-- The last value of a report that is bounded is its limit. -/
theorem Report.getLast?_limitValues {report : Report} (bounded : report.isBounded = true) :
    ∃ n : Int, report.limit = some n ∧ 1 ≤ n ∧
      ∀ values : List Scalar, (values ++ report.limitValues).getLast? = some (.int n) := by
  obtain ⟨n, given, least⟩ := (Option.any_eq_true _ _).mp bounded
  rw [decide_eq_true_eq] at least
  refine ⟨n, given, least, fun values => ?_⟩
  rw [limitValues, given]
  simp only [least, ↓reduceIte, List.getLast?_concat]

namespace Sql.Query

variable {query : Query}

/-- A grouped statement has something behind its conditions. -/
theorem toList_arrangedText_ne_nil (grouped : query.grouping ≠ []) :
    query.arrangedText.toList ≠ [] := by
  obtain ⟨column, rest, columns⟩ := List.exists_cons_of_ne_nil grouped
  have word : Text.HasWord (clause " GROUP BY " ", " (query.grouping.map Column.text)) := by
    rw [columns]
    exact Text.HasWord.append_left (by decide) _
  simp [arrangedText, Text.collapseAfter, List.isEmpty_iff, Text.words_ne_nil word]

/-- The text of a grouped statement ends in a limit iff the statement has one. -/
theorem limited_iff (vetted : ∀ name ∈ query.names, IsName name) (grouped : query.grouping ≠ []) :
    (∃ front, query.sql = front ++ " LIMIT ?") ↔ query.limit.isSome = true := by
  constructor
  · rintro ⟨front, ends⟩
    by_contra unlimited
    rw [sql_eq, if_neg unlimited, String.append_empty] at ends
    have lists := congrArg (fun text : String => text.toList.getLast?) ends
    simp only [String.toList_append, List.getLast?_append_of_ne_nil _
      (toList_arrangedText_ne_nil grouped)] at lists
    rw [List.getLast?_append_of_ne_nil _ (by decide)] at lists
    have inside : '?' ∈ query.arrangedText.toList := List.mem_of_getLast? lists
    have marked := List.count_pos_iff.mpr inside
    exact absurd (query.marks_arrangedText vetted) (Nat.ne_of_gt marked)
  · intro limited
    rw [sql_eq, if_pos limited]
    exact ⟨_, rfl⟩

end Sql.Query

namespace Schema

variable {schema : Schema} {table : String} {report : Report}

/-- A compiled statement with a key of its order that stands for an aggregate ends in a limit, which
is that of the report and lies between one and the greatest. A compiled statement without a limit
is ordered by entries that are not aggregates. -/
theorem compile_bounded {compiled : CompiledQuery}
    (compiles : schema.compile table report = .ok compiled) :
    ∃ query, schema.buildQuery table report = .ok query ∧ compiled = .ofQuery query ∧
      ((∃ front, compiled.sql = front ++ " LIMIT ?") ↔ query.limit.isSome = true) ∧
      ((∃ entry ∈ query.order, ∃ selection, Designates query.selections entry.key selection ∧
          selection.IsAggregate) →
        ∃ n : Int, report.limit = some n ∧ 1 ≤ n ∧ n ≤ 10000 ∧
          (∃ front, compiled.sql = front ++ " LIMIT ?") ∧
          compiled.params.getLast? = some (.int n)) ∧
      (query.limit = none → ∀ entry ∈ query.order,
        (∃ selection, Designates query.selections entry.key selection) ∧
          ∀ selection, Designates query.selections entry.key selection →
            ¬ selection.IsAggregate) := by
  obtain ⟨obeys, plan, sources, query, planned, prepared, clauses, rfl⟩ :=
    compile_eq_ok.mp compiles
  have built := buildQuery_eq_ok.mpr ⟨obeys, plan, sources, planned, prepared, clauses⟩
  have vetted := clauses.names_vetted (vetted_of_sourcesOf prepared)
  have limited := query.limited_iff vetted (clauses.grouping_ne_nil obeys.dimensions_ne_nil)
  obtain ⟨-, -, rfl⟩ := sourcesOf_eq_ok.mp prepared
  have shown := JoinPlan.shownAs_of_clauses planned clauses
  have written : query.limit.isSome = report.isBounded := by
    rw [clauses.limit, report.isSome_effectiveLimit]
  refine ⟨query, built, rfl, limited, ?_, ?_⟩
  · rintro ⟨entry, member, selection, designated, aggregate⟩
    have bounded := clauses.isBounded_of_designates obeys shown member designated aggregate
    obtain ⟨n, given, least, last⟩ := Report.getLast?_limitValues bounded
    refine ⟨n, given, least, (obeys.limit n given).2, limited.mpr (written.trans bounded), ?_⟩
    change query.params.getLast? = some (.int n)
    rw [Query.params, clauses.limit, obeys.limitValues]
    exact last _
  · intro unlimited entry member
    obtain ⟨spec, -, found, -⟩ := Outcome.exists_of_mem_right clauses.order member
    refine ⟨ReportSources.exists_designates_of_groupedKey shown found, ?_⟩
    intro selection designated aggregate
    have bounded := clauses.isBounded_of_designates obeys shown member designated aggregate
    rw [bounded, unlimited] at written
    cases written

/-- Orders by status with the most frequent one first. -/
theorem rewards_bounded_of_orders :
    ∃ compiled query, rewards.compile "orders"
        { dimensions := [⟨"status", none⟩], metrics := [⟨"id", "COUNT", some "n"⟩],
          sort := [⟨"n", .descending⟩], limit := some 5 } = .ok compiled ∧
      rewards.buildQuery "orders"
        { dimensions := [⟨"status", none⟩], metrics := [⟨"id", "COUNT", some "n"⟩],
          sort := [⟨"n", .descending⟩], limit := some 5 } = .ok query ∧
      (∃ entry ∈ query.order, ∃ selection, Designates query.selections entry.key selection ∧
        selection.IsAggregate) ∧
      (∃ front, compiled.sql = front ++ " LIMIT ?") ∧
      compiled.params.getLast? = some (.int 5) := by
  obtain ⟨compiled, compiles⟩ : ∃ compiled, rewards.compile "orders"
      { dimensions := [⟨"status", none⟩], metrics := [⟨"id", "COUNT", some "n"⟩],
        sort := [⟨"n", .descending⟩], limit := some 5 } = .ok compiled := by
    apply Outcome.exists_eq_ok
    simp only [compile, buildQuery, Report.check, Report.checkFields, planJoins,
      sortedKeys_eq_insertionSort]
    decide +kernel
  have selects : (rewards.buildQuery "orders"
      { dimensions := [⟨"status", none⟩], metrics := [⟨"id", "COUNT", some "n"⟩],
        sort := [⟨"n", .descending⟩], limit := some 5 }).toOption.map
          (fun query => (query.selections, query.order)) =
      some ([.column ⟨"orders", "status"⟩, .aggregate .count ⟨"orders", "id"⟩ "n"],
        [⟨.label "n", true⟩]) := by
    simp only [buildQuery, Report.check, Report.checkFields, planJoins,
      sortedKeys_eq_insertionSort]
    decide +kernel
  obtain ⟨query, built, -, -, bounded, -⟩ := compile_bounded compiles
  rw [built] at selects
  obtain ⟨selections, order⟩ := Prod.mk.inj (Option.some.inj selects)
  have designated : ∃ entry ∈ query.order, ∃ selection,
      Designates query.selections entry.key selection ∧ selection.IsAggregate := by
    rw [selections, order]
    refine ⟨⟨.label "n", true⟩, by simp, .aggregate .count ⟨"orders", "id"⟩ "n", ?_, rfl⟩
    exact .label (by simp) rfl
  obtain ⟨n, given, -, -, ends, last⟩ := bounded designated
  rw [← Option.some.inj given] at last
  exact ⟨compiled, query, compiles, built, designated, ends, last⟩

end Schema

end Reporting
