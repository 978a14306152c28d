import Mathlib.Algebra.GroupWithZero.Nat
import Reporting.Proofs.Sql.Statement

/-!
# Placeholders

The names that vetting lets through bring no placeholder into a statement, and a condition has one
for each value of its test, so over vetted names and predicates without placeholders a statement has
as many of them as it has values (`Query.marks_sql`).
-/

namespace Reporting.Sql

open Text

/-- How often the placeholder stands in a text. -/
def marks (text : String) : Nat := text.toList.count '?'

/-- Placeholders are counted part by part. -/
theorem marks_append (front back : String) : marks (front ++ back) = marks front + marks back := by
  rw [marks, String.toList_append, List.count_append, marks, marks]

theorem marks_eq_zero {text : String} (without : '?' ∉ text.toList) : marks text = 0 :=
  List.count_eq_zero.mpr without

/-- Collapsing keeps the number of placeholders. -/
theorem marks_collapse (text : String) : marks (collapse text) = marks text :=
  count_collapse (by decide) text

theorem marks_collapseAfter (text : String) : marks (collapseAfter text) = marks text := by
  unfold collapseAfter
  split
  next none =>
    have collapsed := marks_collapse text
    rw [collapse, List.isEmpty_iff.mp none] at collapsed
    exact collapsed
  next =>
    have space : marks " " = 0 := rfl
    rw [marks_append, marks_collapse, space, Nat.zero_add]

/-- Between parts there are no placeholders. -/
theorem marks_intercalate {separator : String} (without : marks separator = 0)
    (texts : List String) : marks (separator.intercalate texts) = (texts.map marks).sum := by
  induction texts with
  | nil => simp [marks]
  | cons text rest ih =>
      cases rest with
      | nil => simp
      | cons next rest =>
          rw [String.intercalate_cons_cons, marks_append, marks_append, without, ih, Nat.add_zero]
          rfl

theorem marks_clause {words separator : String} (noWord : marks words = 0)
    (noSeparator : marks separator = 0) (entries : List String) :
    marks (clause words separator entries) = (entries.map marks).sum := by
  cases entries with
  | nil => simp [clause, marks]
  | cons entry rest =>
      rw [← marks_intercalate noSeparator]
      simp only [clause, List.isEmpty_cons, Bool.false_eq_true, ↓reduceIte, marks_append, noWord,
        Nat.zero_add]

theorem marks_join (texts : List String) :
    marks (String.join texts) = (texts.map marks).sum := by
  induction texts with
  | nil => simp [marks]
  | cons text rest ih =>
      rw [String.join_cons, marks_append, ih]
      rfl

/-- Entries without placeholders. -/
theorem sum_marks_eq_zero {α : Type} {text : α → String} {entries : List α}
    (each : ∀ entry ∈ entries, marks (text entry) = 0) :
    ((entries.map text).map marks).sum = 0 := by
  rw [List.sum_eq_zero_iff_forall_eq_nat, List.map_map]
  intro count member
  obtain ⟨entry, found, rfl⟩ := List.mem_map.mp member
  exact each entry found

/-- A vetted name has no placeholder. -/
theorem IsName.marks_quoteName {name : String} (vetted : IsName name) :
    marks (quoteName name) = 0 := by
  apply marks_eq_zero
  intro member
  rcases mem_quoteName member with inside | quote
  · exact vetted.not_mem (by decide) (by decide) (by decide) inside
  · exact absurd quote (by decide)

theorem Column.marks_text {column : Column} (vetted : ∀ name ∈ column.names, IsName name) :
    marks column.text = 0 := by
  obtain ⟨reference, name, -⟩ := List.forall_mem_cons.mp vetted |>.imp_right List.forall_mem_cons.mp
  have point : marks "." = 0 := rfl
  rw [Column.text, marks_append, marks_append, reference.marks_quoteName, name.marks_quoteName,
    point]

theorem Selection.marks_text {selection : Selection}
    (vetted : ∀ name ∈ selection.names, IsName name) : marks selection.text = 0 := by
  have label : marks " AS " = 0 := rfl
  cases selection with
  | column source => exact Column.marks_text vetted
  | labelled source name =>
      obtain ⟨labelled, names⟩ := List.forall_mem_cons.mp vetted
      rw [Selection.text, marks_append, marks_append, Column.marks_text names, label,
        labelled.marks_quoteName]
  | aggregate function source name =>
      obtain ⟨labelled, names⟩ := List.forall_mem_cons.mp vetted
      have functionName : marks function.functionName = 0 := by cases function <;> rfl
      have opening : marks "(" = 0 := rfl
      have closing : marks ") AS " = 0 := rfl
      rw [Selection.text, marks_append, marks_append, marks_append, marks_append, functionName,
        opening, Column.marks_text names, closing, labelled.marks_quoteName]

/-- There is a placeholder for each value. -/
theorem marks_placeholders (values : List Scalar) :
    marks (placeholders values) = values.length := by
  have single : marks placeholder = 1 := rfl
  rw [placeholders, commaList, marks_intercalate rfl, List.map_map]
  simp only [Function.comp_def, single, List.map_const', List.sum_replicate_nat, Nat.mul_one]

/-- A condition has a placeholder for each value of its test. -/
theorem Condition.marks_text {condition : Condition}
    (vetted : ∀ name ∈ condition.column.names, IsName name) :
    marks condition.text = condition.test.values.length := by
  have column := Column.marks_text vetted
  unfold Condition.text
  cases condition.test with
  | isNull =>
      have words : marks " IS NULL" = 0 := rfl
      simp only [marks_append, column, words, Test.values, List.length_nil]
  | isNotNull =>
      have words : marks " IS NOT NULL" = 0 := rfl
      simp only [marks_append, column, words, Test.values, List.length_nil]
  | oneOf values =>
      have words : marks " IN (" = 0 := rfl
      have closing : marks ")" = 0 := rfl
      simp only [marks_append, column, words, closing, marks_placeholders, Test.values,
        Nat.zero_add, Nat.add_zero]
  | noneOf values =>
      have opening : marks "(" = 0 := rfl
      have words : marks " NOT IN (" = 0 := rfl
      have closing : marks "))" = 0 := rfl
      simp only [marks_append, column, opening, words, closing, marks_placeholders, Test.values,
        Nat.zero_add, Nat.add_zero]
  | like pattern =>
      have words : marks " LIKE " = 0 := rfl
      have single : marks placeholder = 1 := rfl
      simp only [marks_append, column, words, single, Test.values, List.length_singleton,
        Nat.zero_add]
  | compare comparison value =>
      have sign : marks comparison.sign = 0 := by cases comparison <;> rfl
      have space : marks " " = 0 := rfl
      have single : marks placeholder = 1 := rfl
      simp only [marks_append, column, sign, space, single, Test.values, List.length_singleton,
        Nat.zero_add]

theorem marks_toString (n : Nat) : marks (toString n) = 0 := by
  apply marks_eq_zero
  intro member
  rw [Nat.toString_eq_ofList_toDigits, String.toList_ofList] at member
  exact absurd (Nat.isDigit_of_mem_toDigits (by decide) (by decide) member) (by decide)

theorem OrderEntry.marks_text {entry : OrderEntry}
    (vetted : ∀ name ∈ entry.key.names, IsName name) : marks entry.text = 0 := by
  have direction : marks (if entry.descending then " DESC" else " ASC") = 0 := by
    split <;> rfl
  rw [OrderEntry.text, marks_append, direction, Nat.add_zero]
  cases key : entry.key with
  | label name =>
      rw [key] at vetted
      exact (vetted name List.mem_cons_self).marks_quoteName
  | position place => exact marks_toString place
  | column source =>
      rw [key] at vetted
      exact Column.marks_text vetted

theorem Join.marks_text {join : Join} (vetted : ∀ name ∈ join.names, IsName name)
    (predicate : marks join.predicate = 0) : marks join.text = 0 := by
  obtain ⟨table, reference, -⟩ :=
    List.forall_mem_cons.mp vetted |>.imp_right List.forall_mem_cons.mp
  have words : marks (joinWords join.kind) = 0 := by cases join.kind <;> rfl
  have condition : marks " ON " = 0 := rfl
  have renamed : marks (if join.reference = join.table then "" else
      " AS " ++ quoteName join.reference) = 0 := by
    split
    · decide
    · have label : marks " AS " = 0 := rfl
      rw [marks_append, label, reference.marks_quoteName]
  rw [Join.text, marks_append, marks_append, marks_append, marks_append, words,
    table.marks_quoteName, renamed, condition, predicate]

theorem Source.marks_text {source : Source} (vetted : ∀ name ∈ source.names, IsName name)
    (predicates : ∀ join ∈ source.joins, marks join.predicate = 0) : marks source.text = 0 := by
  obtain ⟨base, joined⟩ := List.forall_mem_cons.mp vetted
  rw [List.forall_mem_flatMap] at joined
  have joins (join : Join) (member : join ∈ source.joins) : marks join.text = 0 :=
    Join.marks_text (joined join member) (predicates join member)
  rw [Source.text, marks_append, base.marks_quoteName, marks_join, sum_marks_eq_zero joins]

namespace Query

variable {query : Query} (vetted : ∀ name ∈ query.names, IsName name)

include vetted

/-- What is shown has no placeholder. -/
theorem marks_shownText (predicates : ∀ join ∈ query.source.joins, marks join.predicate = 0) :
    marks query.shownText = 0 := by
  simp only [names, List.forall_mem_append, List.forall_mem_flatMap] at vetted
  obtain ⟨⟨⟨⟨selected, sources⟩, -⟩, -⟩, -⟩ := vetted
  have selections (s : Selection) (member : s ∈ query.selections) : marks s.text = 0 :=
    Selection.marks_text (selected s member)
  have start : marks "SELECT " = 0 := rfl
  have source : marks " FROM " = 0 := rfl
  rw [shownText, marks_append, marks_append, marks_append, start, commaList,
    marks_intercalate rfl, sum_marks_eq_zero selections, source,
    Source.marks_text sources predicates]

/-- Grouping and order have no placeholder. -/
theorem marks_arrangedText : marks query.arrangedText = 0 := by
  simp only [names, List.forall_mem_append, List.forall_mem_flatMap] at vetted
  obtain ⟨⟨-, grouped⟩, ordered⟩ := vetted
  have grouping (column : Column) (member : column ∈ query.grouping) : marks column.text = 0 :=
    Column.marks_text (grouped column member)
  have order (entry : OrderEntry) (member : entry ∈ query.order) : marks entry.text = 0 :=
    OrderEntry.marks_text (ordered entry member)
  rw [arrangedText, marks_append, marks_collapseAfter, marks_collapseAfter,
    marks_clause rfl rfl, marks_clause rfl rfl,
    sum_marks_eq_zero grouping, sum_marks_eq_zero order]

/-- Every condition has a placeholder for each value of its test. -/
theorem marks_condition {condition : Condition} (member : condition ∈ query.conditions) :
    marks (collapse condition.text) = condition.test.values.length := by
  simp only [names, List.forall_mem_append, List.forall_mem_flatMap] at vetted
  obtain ⟨⟨⟨-, tested⟩, -⟩, -⟩ := vetted
  rw [marks_collapse]
  exact Condition.marks_text (tested condition member)

/-- A statement has as many placeholders as values. -/
theorem marks_sql (predicates : ∀ join ∈ query.source.joins, marks join.predicate = 0) :
    marks query.sql = query.params.length := by
  have conditions : (query.conditions.map fun condition => marks (collapse condition.text)) =
      query.conditions.map fun condition => condition.test.values.length :=
    List.map_congr_left fun condition member => marks_condition vetted member
  have limit : marks (if query.limit.isSome then " LIMIT ?" else "") =
      (query.limit.map fun n : Nat => Scalar.int n).toList.length := by
    cases query.limit with
    | none => rfl
    | some n =>
        change marks " LIMIT ?" = 1
        rfl
  rw [sql_eq, marks_append, marks_append, marks_append, marks_collapse,
    marks_shownText vetted predicates, marks_arrangedText vetted, limit,
    marks_clause rfl rfl, List.map_map, Nat.zero_add, Nat.add_zero, params,
    List.length_append, List.length_flatMap, ← conditions]
  rfl

end Query

end Reporting.Sql
