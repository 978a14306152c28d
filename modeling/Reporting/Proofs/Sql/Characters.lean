import Mathlib.Data.List.Chain
import Reporting.Proofs.Sql.Placeholders

/-!
# The characters of a statement

Over vetted names and predicates a statement is written with name characters, blanks and a few signs
(`Query.written_sql`), and every placeholder in it stands in front of a comma, a closing bracket, a
space or the end (`Query.apart_sql`). Blanks are collapsed last, and neither fact minds: collapsing
brings in nothing but spaces, and no blank becomes part of a word.
-/

namespace Reporting.Sql

open Text

/-- May the character stand in a statement? -/
def isStatementChar (c : Char) : Bool :=
  isNameChar c || isBlank c ||
    ['.', ',', '(', ')', '?', '=', '!', '<', '>', doubleQuote].contains c

/-- A text of such characters. -/
def Written (text : String) : Prop := ∀ c ∈ text.toList, isStatementChar c = true

instance (text : String) : Decidable (Written text) :=
  List.decidableBAll (fun c => isStatementChar c = true) text.toList

namespace Written

variable {front back separator words : String} {texts : List String}

theorem append (before : Written front) (behind : Written back) : Written (front ++ back) := by
  intro c member
  rw [String.toList_append, List.mem_append] at member
  exact member.elim (before c) (behind c)

theorem intercalate (between : Written separator) (each : ∀ text ∈ texts, Written text) :
    Written (separator.intercalate texts) := by
  induction texts with
  | nil => exact fun c member => absurd member (by simp)
  | cons text rest ih =>
      obtain ⟨first, others⟩ := List.forall_mem_cons.mp each
      cases rest with
      | nil => simpa using first
      | cons next rest =>
          rw [String.intercalate_cons_cons]
          exact (first.append between).append (ih others)

theorem join (each : ∀ text ∈ texts, Written text) : Written (String.join texts) := by
  induction texts with
  | nil => decide
  | cons text rest ih =>
      obtain ⟨first, others⟩ := List.forall_mem_cons.mp each
      rw [String.join_cons]
      exact first.append (ih others)

theorem clause (start : Written words) (between : Written separator)
    (each : ∀ text ∈ texts, Written text) : Written (clause words separator texts) := by
  unfold Sql.clause
  split
  · decide
  · exact start.append (between.intercalate each)

/-- Collapsing keeps placeholders apart. -/
theorem collapse {text : String} (written : Written text) : Written (collapse text) := by
  intro c member
  rcases mem_collapse member with rfl | solid
  · decide
  · have often := List.count_pos_iff.mpr member
    rw [count_collapse solid] at often
    exact written c (List.count_pos_iff.mp often)

end Written

/-- A vetted name is written in the characters of statements. -/
theorem IsName.written_quoteName {name : String} (vetted : IsName name) :
    Written (quoteName name) := by
  intro c member
  rcases mem_quoteName member with inside | rfl
  · rcases vetted.mem inside with letter | rfl | rfl
    · simp [isStatementChar, letter]
    · decide
    · decide
  · decide

theorem Column.written_text {column : Column} (vetted : ∀ name ∈ column.names, IsName name) :
    Written column.text := by
  obtain ⟨reference, name, -⟩ := List.forall_mem_cons.mp vetted |>.imp_right List.forall_mem_cons.mp
  have point : Written "." := by decide
  exact (reference.written_quoteName.append point).append name.written_quoteName

theorem Selection.written_text {selection : Selection}
    (vetted : ∀ name ∈ selection.names, IsName name) : Written selection.text := by
  have label : Written " AS " := by decide
  cases selection with
  | column source => exact Column.written_text vetted
  | labelled source name =>
      obtain ⟨labelled, names⟩ := List.forall_mem_cons.mp vetted
      exact ((Column.written_text names).append label).append labelled.written_quoteName
  | aggregate function source name =>
      obtain ⟨labelled, names⟩ := List.forall_mem_cons.mp vetted
      have functionName : Written function.functionName := by cases function <;> decide
      have opening : Written "(" := by decide
      have closing : Written ") AS " := by decide
      exact (((functionName.append opening).append (Column.written_text names)).append
        closing).append labelled.written_quoteName

theorem written_placeholders (values : List Scalar) : Written (placeholders values) := by
  have comma : Written ", " := by decide
  refine comma.intercalate fun text member => ?_
  obtain ⟨-, -, rfl⟩ := List.mem_map.mp member
  decide

theorem Condition.written_text {condition : Condition}
    (vetted : ∀ name ∈ condition.column.names, IsName name) : Written condition.text := by
  have column := Column.written_text vetted
  unfold Condition.text
  cases condition.test with
  | isNull => exact column.append (by decide)
  | isNotNull => exact column.append (by decide)
  | oneOf values =>
      have words : Written " IN (" := by decide
      exact ((column.append words).append (written_placeholders values)).append (by decide)
  | noneOf values =>
      have opening : Written "(" := by decide
      have words : Written " NOT IN (" := by decide
      exact (((opening.append column).append words).append (written_placeholders values)).append
        (by decide)
  | like pattern =>
      have words : Written " LIKE " := by decide
      exact (column.append words).append (by decide)
  | compare comparison value =>
      have space : Written " " := by decide
      have sign : Written comparison.sign := by cases comparison <;> decide
      exact (((column.append space).append sign).append space).append (by decide)

theorem OrderEntry.written_text {entry : OrderEntry}
    (vetted : ∀ name ∈ entry.key.names, IsName name) : Written entry.text := by
  have direction : Written (if entry.descending then " DESC" else " ASC") := by
    split <;> decide
  have key : Written entry.key.text := by
    cases same : entry.key with
    | label name =>
        rw [same] at vetted
        exact (vetted name List.mem_cons_self).written_quoteName
    | position place =>
        intro c member
        simp [isStatementChar, (isProper_toString place).2 c member]
    | column source =>
        rw [same] at vetted
        exact Column.written_text vetted
  exact key.append direction

theorem Join.written_text {join : Join} (vetted : ∀ name ∈ join.names, IsName name)
    (predicate : Written join.predicate) : Written join.text := by
  obtain ⟨table, reference, -⟩ :=
    List.forall_mem_cons.mp vetted |>.imp_right List.forall_mem_cons.mp
  have words : Written (joinWords join.kind) := by cases join.kind <;> decide
  have condition : Written " ON " := by decide
  have renamed : Written (if join.reference = join.table then "" else
      " AS " ++ quoteName join.reference) := by
    split
    · decide
    · have label : Written " AS " := by decide
      exact label.append reference.written_quoteName
  exact (((words.append table.written_quoteName).append renamed).append condition).append predicate

theorem Source.written_text {source : Source} (vetted : ∀ name ∈ source.names, IsName name)
    (predicates : ∀ join ∈ source.joins, Written join.predicate) : Written source.text := by
  obtain ⟨base, joined⟩ := List.forall_mem_cons.mp vetted
  rw [List.forall_mem_flatMap] at joined
  refine base.written_quoteName.append (.join fun text member => ?_)
  obtain ⟨join, found, rfl⟩ := List.mem_map.mp member
  exact Join.written_text (joined join found) (predicates join found)

/-- Of a statement over vetted names and predicates. -/
theorem Query.written_sql {query : Query} (vetted : ∀ name ∈ query.names, IsName name)
    (predicates : ∀ join ∈ query.source.joins, Written join.predicate) : Written query.sql := by
  simp only [names, List.forall_mem_append, List.forall_mem_flatMap] at vetted
  obtain ⟨⟨⟨⟨selected, source⟩, tested⟩, grouped⟩, ordered⟩ := vetted
  have comma : Written ", " := by decide
  have start : Written "SELECT " := by decide
  have middle : Written " FROM " := by decide
  have selections : Written (commaList (query.selections.map Selection.text)) :=
    comma.intercalate <| List.forall_mem_map.mpr fun selection member =>
      Selection.written_text (selected selection member)
  have conditions : Written (clause " WHERE " " AND " (query.conditions.map Condition.text)) :=
    .clause (by decide) (by decide) <| List.forall_mem_map.mpr fun condition member =>
      Condition.written_text (tested condition member)
  have grouping : Written (clause " GROUP BY " ", " (query.grouping.map Column.text)) :=
    .clause (by decide) comma <| List.forall_mem_map.mpr fun column member =>
      Column.written_text (grouped column member)
  have order : Written (clause " ORDER BY " ", " (query.order.map OrderEntry.text)) :=
    .clause (by decide) comma <| List.forall_mem_map.mpr fun entry member =>
      OrderEntry.written_text (ordered entry member)
  have limit : Written (if query.limit.isSome then " LIMIT " ++ placeholder else "") := by
    split <;> decide
  have shown := (start.append selections).append middle |>.append
    (Source.written_text source predicates)
  exact ((((shown.append conditions).append grouping).append order).append limit).collapse

/-- The characters that a placeholder may stand in front of. -/
def Ends (c : Char) : Prop := c = ',' ∨ c = ')' ∨ isBlank c = true

instance (c : Char) : Decidable (Ends c) := inferInstanceAs (Decidable (_ ∨ _))

/-- A text that may follow a placeholder. -/
def Closes (text : String) : Prop := ∀ c, text.toList.head? = some c → Ends c

/-- Every placeholder of the text stands in front of such a character or at the end. -/
def Apart (text : String) : Prop := text.toList.IsChain fun c next => c = '?' → Ends next

theorem closes_of_head {c : Char} (ends : Ends c) {text : String}
    (first : text.toList.head? = some c) : Closes text := by
  intro d found
  obtain rfl := Option.some.inj (first.symm.trans found)
  exact ends

/-- A text that starts with an end closes what is in front of it, whatever follows. -/
theorem closes_append {c : Char} (ends : Ends c) {front : String}
    (first : front.toList.head? = some c) (back : String) : Closes (front ++ back) :=
  closes_of_head ends (by rw [String.toList_append, List.head?_append, first, Option.some_or])

theorem closes_of_spaced {text : String} (spaced : Spaced text) : Closes text := by
  rcases spaced with rfl | ⟨body, -, rfl⟩
  · exact fun c found => absurd found (by simp)
  · exact closes_append (c := ' ') (by decide) (by decide) body

namespace Apart

variable {text front back separator words : String} {texts : List String}

/-- A text without placeholders keeps them apart. -/
theorem of_marks (none : marks text = 0) : Apart text := by
  rw [marks, List.count_eq_zero] at none
  refine List.isChain_iff_forall_rel_of_append_cons_cons.mpr ?_
  rintro c next before after split rfl
  exact absurd (by simp [split]) none

theorem append (before : Apart front) (behind : Apart back) (closes : Closes back) :
    Apart (front ++ back) := by
  rw [Apart, String.toList_append]
  exact List.IsChain.append before behind fun _ _ next first _ => closes next first

/-- Behind a text without placeholders anything may follow. -/
theorem append_right (none : marks front = 0) (behind : Apart back) : Apart (front ++ back) := by
  rw [Apart, String.toList_append]
  refine List.IsChain.append (of_marks none) behind ?_
  rintro c last next - rfl
  rw [marks, List.count_eq_zero] at none
  exact absurd (List.mem_of_getLast? last) none

theorem intercalate (none : marks separator = 0) (closes : ∀ rest, Closes (separator ++ rest))
    (each : ∀ text ∈ texts, Apart text) : Apart (separator.intercalate texts) := by
  induction texts with
  | nil => exact of_marks (by simp [marks])
  | cons text rest ih =>
      obtain ⟨first, others⟩ := List.forall_mem_cons.mp each
      cases rest with
      | nil => simpa using first
      | cons next rest =>
          rw [String.intercalate_cons_cons, String.append_assoc]
          exact first.append (append_right none (ih others)) (closes _)

theorem clause (start : marks words = 0) (none : marks separator = 0)
    (closes : ∀ rest, Closes (separator ++ rest)) (each : ∀ text ∈ texts, Apart text) :
    Apart (clause words separator texts) := by
  unfold Sql.clause
  split
  · exact of_marks rfl
  · exact append_right start (intercalate none closes each)

theorem collapse (apart : Apart text) : Apart (collapse text) := by
  refine isChain_collapse ?_ ?_ apart
  · exact fun _ _ => .inr (.inr (by decide))
  · exact fun _ mark => absurd mark (by decide)

end Apart

/-- Placeholders in a list are kept apart by commas. -/
theorem apart_placeholders (values : List Scalar) : Apart (placeholders values) := by
  refine .intercalate rfl (closes_append (c := ',') (by decide) (by decide)) fun text member => ?_
  obtain ⟨-, -, rfl⟩ := List.mem_map.mp member
  exact List.isChain_singleton '?'

/-- A condition keeps its placeholders apart. -/
theorem Condition.apart_text {condition : Condition}
    (vetted : ∀ name ∈ condition.column.names, IsName name) : Apart condition.text := by
  have column := Column.marks_text vetted
  have single : Apart placeholder := List.isChain_singleton '?'
  unfold Condition.text
  cases condition.test with
  | isNull => exact .append_right column (.of_marks rfl)
  | isNotNull => exact .append_right column (.of_marks rfl)
  | oneOf values =>
      have words : marks (condition.column.text ++ " IN (") = 0 := by
        rw [marks_append, column]
        rfl
      exact (Apart.append_right words (apart_placeholders values)).append (.of_marks rfl)
        (closes_of_head (c := ')') (by decide) (by decide))
  | noneOf values =>
      have words : marks ("(" ++ condition.column.text ++ " NOT IN (") = 0 := by
        rw [marks_append, marks_append, column]
        rfl
      exact (Apart.append_right words (apart_placeholders values)).append (.of_marks rfl)
        (closes_of_head (c := ')') (by decide) (by decide))
  | like pattern =>
      have words : marks (condition.column.text ++ " LIKE ") = 0 := by
        rw [marks_append, column]
        rfl
      exact .append_right words single
  | compare comparison value =>
      have sign : marks comparison.sign = 0 := by cases comparison <;> rfl
      have words : marks (condition.column.text ++ " " ++ comparison.sign ++ " ") = 0 := by
        rw [marks_append, marks_append, marks_append, column, sign]
        rfl
      exact .append_right words single

/-- Of a statement over vetted names, whose predicates hold no placeholder. -/
theorem Query.apart_sql {query : Query} (vetted : ∀ name ∈ query.names, IsName name)
    (predicates : ∀ join ∈ query.source.joins, marks join.predicate = 0) : Apart query.sql := by
  have shown := query.marks_shownText vetted predicates
  simp only [names, List.forall_mem_append, List.forall_mem_flatMap] at vetted
  obtain ⟨⟨⟨-, tested⟩, grouped⟩, ordered⟩ := vetted
  have conditions : Apart (clause " WHERE " " AND " (query.conditions.map Condition.text)) :=
    .clause rfl rfl (closes_append (c := ' ') (by decide) (by decide)) <|
      List.forall_mem_map.mpr fun condition member =>
        Condition.apart_text (tested condition member)
  have grouping : marks (clause " GROUP BY " ", " (query.grouping.map Column.text)) = 0 := by
    rw [marks_clause rfl rfl, sum_marks_eq_zero fun column member =>
      Column.marks_text (grouped column member)]
  have order : marks (clause " ORDER BY " ", " (query.order.map OrderEntry.text)) = 0 := by
    rw [marks_clause rfl rfl, sum_marks_eq_zero fun entry member =>
      OrderEntry.marks_text (ordered entry member)]
  have limit : Apart (if query.limit.isSome then " LIMIT " ++ placeholder else "") ∧
      Closes (if query.limit.isSome then " LIMIT " ++ placeholder else "") := by
    split
    · exact ⟨.append_right rfl (List.isChain_singleton '?'),
        closes_append (c := ' ') (by decide) (by decide) _⟩
    · exact ⟨.of_marks rfl, closes_of_spaced (.inl rfl)⟩
  exact (((Apart.append_right shown conditions).append (.of_marks grouping)
    (closes_of_spaced (spaced_clause "GROUP BY " ", " (by decide) _))).append (.of_marks order)
    (closes_of_spaced (spaced_clause "ORDER BY " ", " (by decide) _))).append limit.1
    limit.2 |>.collapse

end Reporting.Sql
