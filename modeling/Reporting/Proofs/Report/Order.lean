import Reporting.Proofs.Report.Bounded
import Reporting.Proofs.Report.References

/-!
# The order of a compiled report

An entry of a report's order is promised as the label of the item that it names, or as the position
of that item where it has none (`Report.PromisedOrder`). The text of a compiled report has one entry
for each (`Schema.compile_order`). It is the promised one unless the label is hidden: a column
without a label that is shown later may go by the same name, and then the order names the column of
the dimension in full.
-/

namespace Reporting

open Sql

namespace Sql

open Text

/-- The label of a dimension means another column, since a later entry goes by it. -/
def Selection.Hidden (columnsOf : String → List String) (selections : List Selection) :
    Selection → Prop
  | .labelled source label =>
    ∃ meant, named? columnsOf selections label = some meant ∧ meant.shownColumn? ≠ some source
  | .column _ | .aggregate _ _ _ => False

/-- An entry whose label is hidden is ordered by its column. -/
theorem Selection.orderKey_of_hidden {columnsOf : String → List String}
    {selections : List Selection} {selection : Selection}
    (hidden : selection.Hidden columnsOf selections) :
    selection.orderKey columnsOf selections = .column selection.source := by
  cases selection with
  | column source => exact hidden.elim
  | aggregate function source label => exact hidden.elim
  | labelled source label =>
      obtain ⟨meant, found, other⟩ := hidden
      simp only [orderKey, found, other, ↓reduceIte, Selection.source]

/-- An entry whose label is not hidden is ordered by it. -/
theorem Selection.orderKey_of_not_hidden {columnsOf : String → List String}
    {selections : List Selection} {selection : Selection} {label : String}
    (labelled : selection.label? = some label)
    (visible : ¬ selection.Hidden columnsOf selections) :
    selection.orderKey columnsOf selections = .label label := by
  cases selection with
  | column source => cases labelled
  | aggregate function source name =>
      cases labelled
      rfl
  | labelled source name =>
      cases labelled
      simp only [orderKey]
      split
      · rfl
      next meant found =>
        refine if_pos ?_
        by_contra other
        exact visible ⟨meant, found, other⟩

theorem OrderKey.hasWord_text {key : OrderKey} (vetted : ∀ name ∈ key.names, IsName name) :
    HasWord key.text := by
  cases key with
  | label name => exact hasWord_quoteName (vetted name List.mem_cons_self)
  | position place => exact (isProper_toString place).isName.hasWord
  | column source => exact source.hasWord_text

/-- A direction is collapsed as it is, with a comma behind it too. -/
theorem OrderEntry.collapse_direction (entry : OrderEntry) :
    (HasWord entry.direction ∧ collapse entry.direction = entry.direction) ∧
      HasWord (entry.direction ++ ",") ∧
        collapse (entry.direction ++ ",") = entry.direction ++ "," := by
  unfold OrderEntry.direction
  split
  · decide
  · decide

theorem hasWord_commaList {first : String} (word : HasWord first) (rest : List String) :
    HasWord (commaList (first :: rest)) := by
  cases rest with
  | nil =>
      rw [commaList, String.intercalate_singleton]
      exact word
  | cons next rest =>
      rw [commaList, String.intercalate_cons_cons]
      exact (word.append_left _).append_left _

/-- The entries of an order are collapsed one by one. -/
theorem collapse_commaList_order {entries : List OrderEntry}
    (words : ∀ entry ∈ entries, HasWord entry.key.text) :
    collapse (commaList (entries.map OrderEntry.text)) =
      commaList (entries.map fun entry => collapse entry.key.text ++ " " ++ entry.direction) := by
  induction entries with
  | nil => rfl
  | cons entry rest ih =>
      obtain ⟨word, others⟩ := List.forall_mem_cons.mp words
      obtain ⟨⟨direction, directionKept⟩, listed, listedKept⟩ := entry.collapse_direction
      cases rest with
      | nil =>
          simp only [commaList, List.map_cons, List.map_nil, String.intercalate_singleton]
          rw [entry.text_eq, collapse_append_space word direction, directionKept]
      | cons next rest =>
          have front : HasWord (entry.key.text ++ " " ++ (entry.direction ++ ",")) :=
            (word.append_left _).append_left _
          have back : HasWord (commaList ((next :: rest).map OrderEntry.text)) :=
            hasWord_commaList next.hasWord_text _
          have text : commaList ((entry :: next :: rest).map OrderEntry.text) =
              entry.key.text ++ " " ++ (entry.direction ++ ",") ++ " " ++
                commaList ((next :: rest).map OrderEntry.text) := by
            simp only [commaList, List.map_cons, String.intercalate_cons_cons, entry.text_eq,
              String.append_assoc]
            rfl
          rw [text, collapse_append_space front back, collapse_append_space word listed,
            listedKept, ih others]
          simp only [commaList, List.map_cons, String.intercalate_cons_cons, String.append_assoc]
          rfl

theorem clause_cons (words : String) (entry : String) (rest : List String) :
    clause (" " ++ words ++ " ") ", " (entry :: rest) =
      " " ++ (words ++ " " ++ commaList (entry :: rest)) := by
  simp only [clause, List.isEmpty_cons, Bool.false_eq_true, ↓reduceIte, commaList,
    String.append_assoc]

/-- The order stands behind the text of the statement without order and limit. -/
theorem Query.sql_eq_ordered (query : Query)
    (words : ∀ entry ∈ query.order, HasWord entry.key.text) :
    query.sql = Query.sql { query with order := [], limit := none } ++
      clause " ORDER BY " ", "
        (query.order.map fun entry => collapse entry.key.text ++ " " ++ entry.direction) ++
      (if query.limit.isSome then " LIMIT ?" else "") := by
  have order : collapseAfter (clause " ORDER BY " ", " (query.order.map OrderEntry.text)) =
      clause " ORDER BY " ", "
        (query.order.map fun entry => collapse entry.key.text ++ " " ++ entry.direction) := by
    have start : " ORDER BY " = " " ++ "ORDER BY" ++ " " := by decide
    have kept : collapse "ORDER BY" = "ORDER BY" := by decide
    have listed := collapse_commaList_order words
    cases entries : query.order with
    | nil => rfl
    | cons entry rest =>
        have body : HasWord (commaList ((entry :: rest).map OrderEntry.text)) :=
          hasWord_commaList entry.hasWord_text _
        rw [entries] at listed
        simp only [List.map_cons] at body listed ⊢
        rw [start, clause_cons, clause_cons, collapseAfter_space (body.append_right _),
          collapse_append_space (by decide) body, kept, listed]
  rw [Query.sql_eq, Query.sql_eq, arrangedText, order]
  simp only [arrangedText, shownText, clause, List.map_nil, List.isEmpty_nil, ↓reduceIte,
    collapseAfter_empty, Option.isSome_none, Bool.false_eq_true, String.append_empty,
    String.append_assoc]

/-- What hides a label is a column without one that goes by the same name. -/
theorem Selection.exists_column_of_hidden {columnsOf : String → List String}
    {selections : List Selection} {selection : Selection}
    (distinct : (selections.map Selection.givenName).Nodup) (member : selection ∈ selections)
    (hidden : selection.Hidden columnsOf selections) :
    ∃ column, .column column ∈ selections ∧ column ≠ selection.source ∧
      selection.label? = some ((Selection.column column).name columnsOf) := by
  cases selection with
  | column source => exact hidden.elim
  | aggregate function source label => exact hidden.elim
  | labelled source label =>
      obtain ⟨meant, found, other⟩ := hidden
      have listed : meant ∈ selections := List.mem_reverse.mp (List.mem_of_find?_eq_some found)
      have matched := List.find?_some found
      have named : meant.name columnsOf = label := beq_iff_eq.mp matched
      -- two entries with labels do not have the same one
      have apart (same : meant.givenName = label) : meant = .labelled source label :=
        List.inj_on_of_nodup_map distinct listed member same
      cases meant with
      | column shown =>
          refine ⟨shown, listed, ?_, congrArg some named.symm⟩
          rintro rfl
          exact other rfl
      | labelled shown name =>
          rw [apart named] at other
          exact absurd rfl other
      | aggregate function shown name => cases apart named

/-- The label of an entry stands at its end. -/
theorem Selection.collapse_text {selection : Selection} {label : String}
    (labelled : selection.label? = some label) (vetted : IsName label) :
    ∃ front, collapse selection.text = front ++ " AS " ++ collapse (quoteName label) := by
  have word := hasWord_quoteName vetted
  have shown (front : String) (some : HasWord front) :
      collapse (front ++ " AS " ++ quoteName label) =
        collapse front ++ " AS " ++ collapse (quoteName label) := by
    have text : front ++ " AS " ++ quoteName label =
        front ++ " " ++ ("AS" ++ " " ++ quoteName label) := by
      simp only [String.append_assoc]
      rfl
    have keyword : HasWord "AS" := by decide
    have kept : collapse "AS" = "AS" := by decide
    rw [text, collapse_append_space some (word.append_right _), collapse_append_space keyword word,
      kept]
    simp only [String.append_assoc]
    rfl
  cases selection with
  | column source => cases labelled
  | labelled source name =>
      cases labelled
      exact ⟨_, shown source.text source.hasWord_text⟩
  | aggregate function source name =>
      cases labelled
      have text : (Selection.aggregate function source label).text =
          function.functionName ++ "(" ++ source.text ++ ")" ++ " AS " ++ quoteName label := by
        simp only [Selection.text, String.append_assoc]
        rfl
      rw [text]
      exact ⟨_, shown _ ((source.hasWord_text.append_right _).append_left _)⟩

/-- A label has no points. -/
theorem point_not_mem_of_isLabel {label : String} (vetted : isLabel label.toList = true) :
    '.' ∉ label.toList := by
  intro member
  rcases mem_dropFinalNewline member with kept | newline
  · unfold isLabel at vetted
    split at vetted
    next => exact absurd vetted (by decide)
    next first rest split =>
      simp only [Bool.and_eq_true, Bool.or_eq_true, List.all_eq_true, beq_iff_eq] at vetted
      rw [split, List.mem_cons] at kept
      rcases kept with rfl | behind
      · exact absurd vetted.1 (by decide)
      · exact absurd (vetted.2 '.' behind) (by decide)
  · exact absurd newline (by decide)

/-- No label is written like a column. -/
theorem collapse_quoteName_ne_collapse_column {label : String}
    (vetted : isLabel label.toList = true) (column : Column) :
    collapse (quoteName label) ≠ collapse column.text := by
  have solid : isBlank '.' = false := by decide
  intro same
  have points := congrArg (fun text : String => text.toList.count '.') same
  simp only [count_collapse solid] at points
  have none : (quoteName label).toList.count '.' = 0 := by
    refine List.count_eq_zero.mpr fun member => ?_
    rcases mem_quoteName member with letter | quote
    · exact point_not_mem_of_isLabel vetted letter
    · exact absurd quote (by decide)
  have some : 0 < column.text.toList.count '.' := by
    refine List.count_pos_iff.mpr ?_
    simp [Column.text]
  omega

end Sql

namespace Report

variable {schema : Schema} {table : String} {report : Report}

/-- What the order is promised to call an item: by its label as it is written, or where it has none
by its position. -/
def orderWord (place : Nat) (item : Dimension ⊕ Metric) : String :=
  match givenLabel? (itemLabel item) with
  | none => toString place
  | some label => Text.collapse (quoteName label)

/-- The promised text of an entry of the order: the first item that it names, and its direction. -/
def PromisedOrder (report : Report) (entry : SortEntry) (text : String) : Prop :=
  ∃ before item, IsFirst (Means entry.field) report.items before item ∧
    text = orderWord (before.length + 1) item ++ " " ++ entry.direction.keyword

/-- The text of an entry of the order against the item that the entry names: where this item is
shown, whether the text is the promised one, and what it is otherwise. -/
structure OrderedAs (schema : Schema) (table : String) (report : Report)
    (columnsOf : String → List String) (selections : List Selection) (entry : SortEntry)
    (text : String) (before : List (Dimension ⊕ Metric)) (item : Dimension ⊕ Metric)
    (selection : Selection) : Prop where
  first : IsFirst (Means entry.field) report.items before item
  position : before.length + 1 ≤ selections.length
  selected : selections[before.length]? = some selection
  shown : ShownAs schema table item selection
  labelled : ∀ label, givenLabel? (itemLabel item) = some label →
    ∃ front, Text.collapse selection.text = front ++ " AS " ++ Text.collapse (quoteName label)
  promised : report.PromisedOrder entry text ↔ ¬ selection.Hidden columnsOf selections
  hidden : selection.Hidden columnsOf selections →
    text = Text.collapse selection.source.text ++ " " ++ entry.direction.keyword ∧
      ∃ column, .column column ∈ selections ∧ column ≠ selection.source ∧
        selection.label? = some ((Selection.column column).name columnsOf)

theorem mem_labels_of_item {item : Dimension ⊕ Metric} (member : item ∈ report.items)
    {label : String} (given : givenLabel? (itemLabel item) = some label) :
    label ∈ report.labels := by
  rcases List.mem_append.mp member with dimension | metric
  · obtain ⟨d, listed, rfl⟩ := List.mem_map.mp dimension
    exact mem_labels_of_dimension listed given
  · obtain ⟨m, listed, rfl⟩ := List.mem_map.mp metric
    exact mem_labels_of_metric listed given

/-- An item without a label is not hidden. -/
theorem ShownAs.not_hidden {item : Dimension ⊕ Metric} {selection : Selection}
    (shown : ShownAs schema table item selection) (unlabelled : givenLabel? (itemLabel item) = none)
    (columnsOf : String → List String) (selections : List Selection) :
    ¬ selection.Hidden columnsOf selections := by
  cases shown with
  | column none found => exact id
  | labelled given found =>
      rw [itemLabel, given] at unlabelled
      cases unlabelled
  | aggregate known named found => exact id

/-- The promised text is one. -/
theorem promisedOrder_iff {entry : SortEntry} {text : String}
    {before : List (Dimension ⊕ Metric)} {item : Dimension ⊕ Metric}
    (first : IsFirst (Means entry.field) report.items before item) :
    report.PromisedOrder entry text ↔
      text = orderWord (before.length + 1) item ++ " " ++ entry.direction.keyword := by
  constructor
  · rintro ⟨others, other, firstToo, same⟩
    obtain ⟨rfl, rfl⟩ := first.unique firstToo
    exact same
  · intro same
    exact ⟨before, item, first, same⟩

/-- The key of an item is written as its position or its label, and where its label is hidden as its
column. -/
theorem collapse_keyText {columnsOf : String → List String} {selections : List Selection}
    {item : Dimension ⊕ Metric} {selection : Selection} {place : Nat} {key : OrderKey}
    (shows : ShownAs schema table item selection)
    (outcome : (givenLabel? (itemLabel item) = none ∧ key = .position place) ∨
      ∃ label, givenLabel? (itemLabel item) = some label ∧
        key = selection.orderKey columnsOf selections) :
    (selection.Hidden columnsOf selections →
        Text.collapse key.text = Text.collapse selection.source.text) ∧
      (¬ selection.Hidden columnsOf selections →
        Text.collapse key.text = orderWord place item) := by
  rcases outcome with ⟨unlabelled, rfl⟩ | ⟨label, given, rfl⟩
  · refine ⟨fun hidden => absurd hidden (shows.not_hidden unlabelled _ _), fun _ => ?_⟩
    rw [orderWord, unlabelled]
    exact (Text.Tight.word (by simp) (isProper_toString place).2.solid).collapse
  · constructor
    · intro hidden
      rw [Selection.orderKey_of_hidden hidden]
      rfl
    · intro visible
      rw [Selection.orderKey_of_not_hidden (shows.label?_of_givenLabel? given) visible, orderWord,
        given]
      rfl

/-- What an item is promised to be called is not how a column is written. -/
theorem orderWord_ne_column {item : Dimension ⊕ Metric} {label : String}
    (given : givenLabel? (itemLabel item) = some label) (vetted : isLabel label.toList = true)
    (place : Nat) (column : Column) : orderWord place item ≠ Text.collapse column.text := by
  rw [orderWord, given]
  exact collapse_quoteName_ne_collapse_column vetted column

/-- A key of the order names the item of its entry as it is promised, unless its label is hidden. -/
theorem orderedAs_of_groupedKey (obeys : report.Obeys schema table) {sources : ReportSources}
    {selections : List Selection}
    (shown : List.Forall₂ (ShownAs schema table) report.items selections) {entry : SortEntry}
    {key : OrderKey} (found : sources.groupedKey report selections entry = .ok key) :
    ∃ before item selection, report.OrderedAs schema table sources.columnsOf selections entry
      (Text.collapse key.text ++ " " ++ entry.direction.keyword) before item selection := by
  obtain ⟨target, meant, outcome⟩ := ReportSources.groupedKey_eq_ok.mp found
  obtain ⟨before, item, first, rfl⟩ := sortTarget?_eq_some_iff.mp meant
  obtain ⟨selection, selected, shows⟩ := exists_selection_of_isFirst shown first
  have member := List.mem_of_getElem? selected
  have distinct := (promised_of_shownAs obeys shown).distinct
  have vetted {label : String} (given : givenLabel? (itemLabel item) = some label) :
      isLabel label.toList = true :=
    obeys.labels label (mem_labels_of_item first.mem given)
  have written : (givenLabel? (itemLabel item) = none ∧ key = .position (before.length + 1)) ∨
      ∃ label, givenLabel? (itemLabel item) = some label ∧
        key = selection.orderKey sources.columnsOf selections := by
    refine outcome.imp_right ?_
    rintro ⟨label, given, other, same, rfl⟩
    rw [Nat.add_sub_cancel, selected, Option.some.injEq] at same
    exact ⟨label, given, by rw [same]⟩
  obtain ⟨hiddenText, visibleText⟩ := collapse_keyText shows written
  refine ⟨before, item, selection, first, (List.getElem?_eq_some_iff.mp selected).1, selected,
    shows, ?_, ?_, ?_⟩
  · intro label given
    exact Selection.collapse_text (shows.label?_of_givenLabel? given)
      (isName_of_isLabel (vetted given))
  · rw [promisedOrder_iff first, String.append_left_inj, String.append_left_inj]
    constructor
    · intro promised hidden
      obtain ⟨label, given⟩ : ∃ label, givenLabel? (itemLabel item) = some label := by
        rw [← Option.ne_none_iff_exists']
        exact fun unlabelled => shows.not_hidden unlabelled _ _ hidden
      exact orderWord_ne_column given (vetted given) _ _ (promised.symm.trans (hiddenText hidden))
    · exact visibleText
  · intro hidden
    exact ⟨by rw [hiddenText hidden], Selection.exists_column_of_hidden distinct member hidden⟩

end Report

namespace Schema

variable {schema : Schema} {table : String} {report : Report}

/-- The text of a compiled report is that of its statement without order and limit, then an order
with one entry for each entry of the report's order, then the limit. Each of the entries names the
item that it should, in the promised way unless the label of the item is hidden. -/
theorem compile_order {compiled : CompiledQuery}
    (compiles : schema.compile table report = .ok compiled) :
    ∃ plan query texts, schema.planJoins table report.referencedFields = .ok plan ∧
      schema.buildQuery table report = .ok query ∧ compiled = .ofQuery query ∧
      compiled.sql = Query.sql { query with order := [], limit := none } ++
        clause " ORDER BY " ", " texts ++ (if report.isBounded then " LIMIT ?" else "") ∧
      List.Forall₂ (fun entry text => ∃ before item selection,
        report.OrderedAs schema table (plan.sources schema).columnsOf query.selections entry text
          before item selection) report.sort texts := by
  obtain ⟨obeys, plan, sources, query, planned, prepared, clauses, rfl⟩ :=
    compile_eq_ok.mp compiles
  have built := buildQuery_eq_ok.mpr ⟨obeys, plan, sources, planned, prepared, clauses⟩
  have vetted := clauses.names_vetted (vetted_of_sourcesOf prepared)
  obtain ⟨-, -, rfl⟩ := sourcesOf_eq_ok.mp prepared
  have shown := JoinPlan.shownAs_of_clauses planned clauses
  have bounded := report.isSome_effectiveLimit
  rw [← clauses.limit] at bounded
  have words : ∀ entry ∈ query.order, Text.HasWord entry.key.text := by
    intro entry member
    refine OrderKey.hasWord_text fun name written => vetted name ?_
    exact List.mem_append_right _ (List.mem_flatMap.mpr ⟨entry, member, written⟩)
  refine ⟨plan, query,
    query.order.map fun entry => Text.collapse entry.key.text ++ " " ++ entry.direction,
    planned, built, rfl, ?_, ?_⟩
  · rw [← bounded]
    exact query.sql_eq_ordered words
  · rw [List.forall₂_map_right_iff]
    refine clauses.order.imp fun entry ordered ⟨found, direction⟩ => ?_
    have word : ordered.direction = entry.direction.keyword := by
      rw [OrderEntry.direction, direction]
      cases entry.direction <;> rfl
    rw [word]
    exact Report.orderedAs_of_groupedKey obeys shown found

/-- Orders by agency, ordered by a label and a position. -/
theorem rewards_order_of_orders :
    ∃ (compiled : CompiledQuery) (query : Query) (texts : List String), rewards.compile "orders"
        { dimensions := [⟨"agency.name", some "agency"⟩, ⟨"status", none⟩],
          sort := [⟨"agency.name", .descending⟩, ⟨"status", .ascending⟩] } = .ok compiled ∧
      compiled.sql = Query.sql { query with order := [], limit := none } ++
        clause " ORDER BY " ", " texts ∧
      texts.length = 2 := by
  obtain ⟨compiled, compiles⟩ : ∃ compiled, rewards.compile "orders"
      { dimensions := [⟨"agency.name", some "agency"⟩, ⟨"status", none⟩],
        sort := [⟨"agency.name", .descending⟩, ⟨"status", .ascending⟩] } = .ok compiled := by
    apply Outcome.exists_eq_ok
    simp only [compile, buildQuery, Report.check, Report.checkFields, planJoins,
      sortedKeys_eq_insertionSort]
    decide +kernel
  obtain ⟨plan, query, texts, -, -, -, ordered, each⟩ := compile_order compiles
  refine ⟨compiled, query, texts, compiles, ?_, each.length_eq.symm⟩
  rw [ordered]
  exact String.append_empty

/-- A label that a later column goes by: the order names the column of the first dimension, and not
its label. -/
theorem rewards_order_with_hidden_label :
    rewards.Accepted ∧ rewards.NamesSatisfy IsProper ∧
      ∃ compiled query, rewards.compile "orders"
          { dimensions := [⟨"agency.name", some "orders_status"⟩, ⟨"status", none⟩],
            sort := [⟨"orders_status", .ascending⟩] } = .ok compiled ∧
        rewards.buildQuery "orders"
          { dimensions := [⟨"agency.name", some "orders_status"⟩, ⟨"status", none⟩],
            sort := [⟨"orders_status", .ascending⟩] } = .ok query ∧
        ¬ ∃ texts, compiled.sql = Query.sql { query with order := [], limit := none } ++
            clause " ORDER BY " ", " texts ∧
          List.Forall₂ (Report.PromisedOrder
            { dimensions := [⟨"agency.name", some "orders_status"⟩, ⟨"status", none⟩],
              sort := [⟨"orders_status", .ascending⟩] })
            [⟨"orders_status", .ascending⟩] texts := by
  have orders : (rewards.buildQuery "orders"
      { dimensions := [⟨"agency.name", some "orders_status"⟩, ⟨"status", none⟩],
        sort := [⟨"orders_status", .ascending⟩] }).toOption.map
          (fun query => (query.order, query.limit)) =
      some ([⟨.column ⟨"agencies", "name"⟩, false⟩], none) := by
    simp only [buildQuery, Report.check, Report.checkFields, planJoins,
      sortedKeys_eq_insertionSort]
    decide +kernel
  obtain ⟨query, found, same⟩ := Option.map_eq_some_iff.mp orders
  have built := Outcome.toOption_eq_some.mp found
  obtain ⟨order, limit⟩ := Prod.mk.inj same
  refine ⟨rewards_accepted, rewards_names, .ofQuery query, query, ?_, built, ?_⟩
  · rw [compile, built]
    rfl
  · rintro ⟨promisedTexts, whole, promised⟩
    have first : IsFirst (Report.Means "orders_status")
        (Report.items { dimensions := [⟨"agency.name", some "orders_status"⟩, ⟨"status", none⟩] })
        [] (.inl ⟨"agency.name", some "orders_status"⟩) :=
      ⟨⟨_, rfl⟩, by simp, by decide⟩
    obtain ⟨text, _, ⟨before, item, firstToo, rfl⟩, none, rfl⟩ :=
      List.forall₂_cons_left_iff.mp promised
    obtain rfl := List.forall₂_nil_left_iff.mp none
    obtain ⟨rfl, rfl⟩ := first.unique firstToo
    have words : ∀ entry ∈ query.order, Text.HasWord entry.key.text := by
      rw [order, List.forall_mem_singleton]
      exact Column.hasWord_text _
    change query.sql = _ at whole
    rw [query.sql_eq_ordered words, order, limit, String.append_assoc,
      String.append_right_inj] at whole
    revert whole
    decide +kernel

end Schema

end Reporting
