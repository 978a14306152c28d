import Mathlib.Data.List.Basic
import Reporting.Proofs.Sql.Names
import Reporting.Sql.Printer

/-!
# The text of a statement, clause by clause

Every clause but the first starts with a space and every entry holds a word, so the blanks of a
statement are collapsed clause by clause, and those of its conditions one by one
(`Query.sql_eq`). `Query.names` lists the names that a statement writes.
-/

namespace Reporting.Sql

open Text

/-- The reference and the name of a column. -/
def Column.names (column : Column) : List String := [column.reference, column.name]

/-- The names of an entry of the select list. -/
def Selection.names : Selection → List String
  | .column source => source.names
  | .labelled source label | .aggregate _ source label => label :: source.names

/-- The names that an entry of the order writes. -/
def OrderKey.names : OrderKey → List String
  | .label name => [name]
  | .position _ => []
  | .column source => source.names

/-- The table of a join and its reference. -/
def Join.names (join : Join) : List String := [join.table, join.reference]

/-- The names of the source table and its joins. -/
def Source.names (source : Source) : List String := source.base :: source.joins.flatMap Join.names

/-- The names that a statement writes. -/
def Query.names (query : Query) : List String :=
  query.selections.flatMap Selection.names ++ query.source.names ++
    query.conditions.flatMap (·.column.names) ++ query.grouping.flatMap Column.names ++
    query.order.flatMap (·.key.names)

/-- What is selected and from which tables. -/
def Query.shownText (query : Query) : String :=
  "SELECT " ++ commaList (query.selections.map Selection.text) ++ " FROM " ++ query.source.text

/-- The clauses between the conditions and the limit. -/
def Query.arrangedText (query : Query) : String :=
  collapseAfter (clause " GROUP BY " ", " (query.grouping.map Column.text)) ++
    collapseAfter (clause " ORDER BY " ", " (query.order.map OrderEntry.text))

theorem Column.hasWord_text (column : Column) : HasWord column.text := by
  have point : HasWord "." := by decide
  exact (point.append_right _).append_left _

theorem Condition.hasWord_text (condition : Condition) : HasWord condition.text := by
  have word := condition.column.hasWord_text
  unfold Condition.text
  cases condition.test with
  | isNull => exact word.append_left _
  | isNotNull => exact word.append_left _
  | oneOf values => exact ((word.append_left _).append_left _).append_left _
  | noneOf values => exact (((word.append_right _).append_left _).append_left _).append_left _
  | like pattern => exact (word.append_left _).append_left _
  | compare comparison value =>
      exact (((word.append_left _).append_left _).append_left _).append_left _

/-- The direction of an entry as it is written. -/
def OrderEntry.direction (entry : OrderEntry) : String := if entry.descending then "DESC" else "ASC"

theorem OrderEntry.text_eq (entry : OrderEntry) :
    entry.text = entry.key.text ++ " " ++ entry.direction := by
  unfold OrderEntry.text OrderEntry.direction
  split
  · rw [String.append_assoc]
    rfl
  · rw [String.append_assoc]
    rfl

theorem OrderEntry.hasWord_text (entry : OrderEntry) : HasWord entry.text := by
  unfold OrderEntry.text
  split
  · exact HasWord.append_right _ (by decide)
  · exact HasWord.append_right _ (by decide)

/-- A clause whose words start with a space is spaced. -/
theorem spaced_clause (words separator : String) (word : HasWord words) (entries : List String) :
    Spaced (clause (" " ++ words) separator entries) := by
  unfold clause
  split
  · exact Or.inl rfl
  · exact Or.inr ⟨words ++ String.intercalate separator entries, word.append_left _,
      String.append_assoc⟩

/-- Where a word stands between neighbours, the entries of a clause are collapsed one by one. -/
theorem collapseAfter_clause {words separator : String} (word : HasWord words)
    (kept : collapse words = words) (between : HasWord separator)
    (separatorKept : collapse separator = separator) {entries : List String}
    (each : ∀ entry ∈ entries, HasWord entry) :
    collapseAfter (clause (" " ++ words ++ " ") (" " ++ separator ++ " ") entries) =
      clause (" " ++ words ++ " ") (" " ++ separator ++ " ") (entries.map collapse) := by
  cases entries with
  | nil => rfl
  | cons entry rest =>
      have body : HasWord ((" " ++ separator ++ " ").intercalate (entry :: rest)) := by
        cases rest with
        | nil => simpa using each entry List.mem_cons_self
        | cons next rest =>
            rw [String.intercalate_cons_cons, String.append_assoc]
            exact (each entry List.mem_cons_self).append_left _
      have regroup (text : String) :
          " " ++ words ++ " " ++ text = " " ++ (words ++ " " ++ text) := by
        simp only [String.append_assoc]
      have collapsed := collapse_intercalate between separatorKept each
      simp only [clause, List.map_cons, List.isEmpty_cons, Bool.false_eq_true, ↓reduceIte, regroup]
      rw [collapseAfter_space (body.append_right _), collapse_append_space word body, kept,
        collapsed, List.map_cons]

theorem collapseAfter_where {conditions : List String}
    (each : ∀ condition ∈ conditions, HasWord condition) :
    collapseAfter (clause " WHERE " " AND " conditions) =
      clause " WHERE " " AND " (conditions.map collapse) := by
  have words : " WHERE " = " " ++ "WHERE" ++ " " := by decide
  have separator : " AND " = " " ++ "AND" ++ " " := by decide
  have start : HasWord "WHERE" := by decide
  have between : HasWord "AND" := by decide
  rw [words, separator]
  exact collapseAfter_clause start (by decide) between (by decide) each

/-- A statement on one line, clause by clause. -/
theorem Query.sql_eq (query : Query) :
    query.sql = collapse query.shownText ++
      clause " WHERE " " AND " (query.conditions.map fun condition => collapse condition.text) ++
      query.arrangedText ++ (if query.limit.isSome then " LIMIT ?" else "") := by
  have clauses : query.rawText = query.shownText ++
      clause " WHERE " " AND " (query.conditions.map Condition.text) ++
      clause " GROUP BY " ", " (query.grouping.map Column.text) ++
      clause " ORDER BY " ", " (query.order.map OrderEntry.text) ++
      (if query.limit.isSome then " LIMIT " ++ placeholder else "") := rfl
  have shown : HasWord query.shownText :=
    HasWord.append_left (HasWord.append_left (HasWord.append_left (by decide) _) _) _
  have conditions : Spaced (clause " WHERE " " AND " (query.conditions.map Condition.text)) :=
    spaced_clause "WHERE " " AND " (by decide) _
  have grouping : Spaced (clause " GROUP BY " ", " (query.grouping.map Column.text)) :=
    spaced_clause "GROUP BY " ", " (by decide) _
  have order : Spaced (clause " ORDER BY " ", " (query.order.map OrderEntry.text)) :=
    spaced_clause "ORDER BY " ", " (by decide) _
  have limit : Spaced (if query.limit.isSome then " LIMIT " ++ placeholder else "") := by
    split
    · exact Or.inr ⟨"LIMIT ?", (by decide), by decide⟩
    · exact Or.inl rfl
  have bounded : collapseAfter (if query.limit.isSome then " LIMIT " ++ placeholder else "") =
      if query.limit.isSome then " LIMIT ?" else "" := by
    split
    · decide
    · rfl
  have front := shown.append_left (clause " WHERE " " AND " (query.conditions.map Condition.text))
  have middle := front.append_left (clause " GROUP BY " ", " (query.grouping.map Column.text))
  have back := middle.append_left (clause " ORDER BY " ", " (query.order.map OrderEntry.text))
  rw [Query.sql, clauses, collapse_append_spaced back limit,
    collapse_append_spaced middle order, collapse_append_spaced front grouping,
    collapse_append_spaced shown conditions, collapseAfter_where, bounded]
  · simp only [arrangedText, List.map_map, Function.comp_def, String.append_assoc]
  · intro text member
    obtain ⟨condition, _, rfl⟩ := List.mem_map.mp member
    exact condition.hasWord_text

end Reporting.Sql
