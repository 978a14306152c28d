import Mathlib
import Reporting.Proofs.Sql.Clauses

/-!
# What the text of a statement tells

A statement is `Clear` when its names are proper and its join predicates are clear. Its clauses
can then be read off its text (`Query.Clear.clauses_eq`), and from these its entries: two clear
statements with one text differ in nothing but tables, grouping and values
(`Query.Clear.writtenAlike`). Of the values the text tells how many each condition has.
-/

namespace Reporting.Sql

open Text

/-- A statement that selects something, over proper names and clear join predicates. -/
structure Query.Clear (query : Query) : Prop where
  selects : query.selections ≠ []
  selections : ∀ selection ∈ query.selections, ∀ name ∈ selection.names, IsProper name
  source : ∀ name ∈ query.source.names, IsProper name
  predicates : ∀ join ∈ query.source.joins, ClearPredicate join.predicate
  conditions : ∀ condition ∈ query.conditions, ∀ name ∈ condition.column.names, IsProper name
  grouping : ∀ column ∈ query.grouping, ∀ name ∈ column.names, IsProper name
  order : ∀ entry ∈ query.order, ∀ name ∈ entry.key.names, IsProper name

/-- The clauses of a statement, those included that are left out. -/
def Query.clauses (query : Query) : List Clause := [
  ⟨"SELECT", listBody [] (.mark ',') (query.selections.map Selection.tokens)⟩,
  ⟨"FROM", some query.source.tokens⟩,
  ⟨"WHERE", listBody [] (.word "AND") (query.conditions.map Condition.tokens)⟩,
  ⟨"GROUP", listBody [.word "BY"] (.mark ',') (query.grouping.map Column.tokens)⟩,
  ⟨"ORDER", listBody [.word "BY"] (.mark ',') (query.order.map OrderEntry.tokens)⟩,
  ⟨"LIMIT", listBody [] (.mark ',') (query.limit.toList.map fun _ => [.mark '?'])⟩]

/-- The tokens of a written statement. -/
def Query.tokens (query : Query) : List Token := query.clauses.flatMap Clause.tokens

namespace Query

variable {query : Query}

/-- The select list and the source are read back token by token. -/
theorem Clear.legible_shown (clear : query.Clear) :
    Legible query.shownText (Clause.tokens ⟨"SELECT", listBody [] (.mark ',')
      (query.selections.map Selection.tokens)⟩ ++ Clause.tokens ⟨"FROM", query.source.tokens⟩) := by
  have fromWord : Legible "FROM" [.word "FROM"] := .word (by decide)
  have shown := (legible_selections clear.selects clear.selections).space
    (fromWord.space (Source.legible clear.source clear.predicates))
  have body : listBody [] (.mark ',') (query.selections.map Selection.tokens) =
      some ([Token.mark ','].intercalate (query.selections.map Selection.tokens)) := by
    simp [listBody, clear.selects]
  rw [shownText_eq, body]
  exact shown

/-- A clear statement is written without superfluous blanks, and read as its tokens. -/
theorem Clear.legible (clear : query.Clear) : Legible query.rawText query.tokens := by
  have whereWord : Legible "WHERE" [.word "WHERE"] := .word (by decide)
  have groupWords : Legible "GROUP BY" [.word "GROUP", .word "BY"] :=
    .of_collapse (by decide) (by decide) (by decide) (by decide)
  have orderWords : Legible "ORDER BY" [.word "ORDER", .word "BY"] :=
    .of_collapse (by decide) (by decide) (by decide) (by decide)
  have limitWord : Legible "LIMIT" [.word "LIMIT"] := .word (by decide)
  have filtered := clear.legible_shown.clause whereWord Legible.separates_and query.conditions
    fun condition member => Condition.legible (clear.conditions condition member)
  have grouped := filtered.clause groupWords Legible.separates_comma query.grouping
    fun column member => Column.legible (clear.grouping column member)
  have ordered := grouped.clause orderWords Legible.separates_comma query.order
    fun entry member => OrderEntry.legible (clear.order entry member)
  have limited := ordered.clause limitWord Legible.separates_comma query.limit.toList
    fun _ _ => Legible.mark isMark_placeholder
  have text : query.rawText = query.shownText ++
      clause (" " ++ "WHERE" ++ " ") " AND " (query.conditions.map Condition.text) ++
      clause (" " ++ "GROUP BY" ++ " ") ", " (query.grouping.map Column.text) ++
      clause (" " ++ "ORDER BY" ++ " ") ", " (query.order.map OrderEntry.text) ++
      clause (" " ++ "LIMIT" ++ " ") ", " (query.limit.toList.map fun _ => placeholder) := by
    cases limit : query.limit with
    | none => simp only [rawText, limit]; rfl
    | some n => simp only [rawText, limit]; rfl
  have tokens : query.tokens = Clause.tokens ⟨"SELECT", listBody [] (.mark ',')
      (query.selections.map Selection.tokens)⟩ ++ Clause.tokens ⟨"FROM", query.source.tokens⟩ ++
      Clause.tokens ⟨"WHERE", listBody [] (.word "AND") (query.conditions.map Condition.tokens)⟩ ++
      Clause.tokens ⟨"GROUP", listBody [.word "BY"] (.mark ',')
        (query.grouping.map Column.tokens)⟩ ++
      Clause.tokens ⟨"ORDER", listBody [.word "BY"] (.mark ',')
        (query.order.map OrderEntry.tokens)⟩ ++
      Clause.tokens ⟨"LIMIT", listBody [] (.mark ',')
        (query.limit.toList.map fun _ => [.mark '?'])⟩ := by
    simp only [Query.tokens, clauses, List.flatMap_cons, List.flatMap_nil, List.append_nil,
      List.append_assoc]
  rw [text, tokens]
  exact limited

/-- A clear statement is read back token by token. -/
theorem Clear.tokensOf_sql (clear : query.Clear) : tokensOf query.sql.toList = query.tokens := by
  rw [Query.sql, clear.legible.tight.collapse]
  exact clear.legible.tokensOf_eq

end Query

namespace Query

variable {query first second : Query}

/-- No clause holds a word that starts another one. -/
theorem Clear.isFree (clear : query.Clear) : ∀ clause ∈ query.clauses, clause.IsFree := by
  have comma : ¬ (Token.mark ',').IsStart := by decide
  have fromStart : (Token.word "FROM").IsStart := by decide
  have source : ∀ token ∈ query.source.tokens, ¬ token.IsStart := by
    simp only [Source.tokens, List.forall_mem_cons, List.forall_mem_flatMap]
    refine ⟨(isInner_nameToken _).1, fun join member => ?_⟩
    exact Join.not_isStart (clear.predicates join member)
  simp only [clauses, List.forall_mem_cons]
  refine ⟨?_, ⟨fromStart, ?_⟩, ?_, ?_, ?_, ?_, List.forall_mem_nil _⟩
  · apply isFree_listBody (by decide) (List.forall_mem_nil _) comma
    exact fun selection token member => (selection.isInner token member).1
  · rintro _ ⟨⟩
    exact source
  · apply isFree_listBody (by decide) (List.forall_mem_nil _) (by decide)
    intro condition token member
    rcases condition.isInnerOrComma token member with inner | rfl
    · exact inner.1
    · exact comma
  · apply isFree_listBody (by decide) (by decide) comma
    exact fun column token member => (column.isInner token member).1
  · apply isFree_listBody (by decide) (by decide) comma
    exact fun entry token member => (entry.isInner token member).1
  · apply isFree_listBody (by decide) (List.forall_mem_nil _) comma
    exact fun _ => by decide

/-- Reading the clauses off the text of a statement gives them back. -/
theorem Clear.clauses_eq (clear : query.Clear) :
    query.clauses =
      clauseStarts.map fun start => ⟨start, bodyOf start (tokensOf query.sql.toList)⟩ := by
  have starts : query.clauses.map Clause.start = clauseStarts := rfl
  have distinct : (query.clauses.map Clause.start).Nodup := by
    rw [starts]
    decide
  rw [← starts, List.map_map, clear.tokensOf_sql]
  nth_rewrite 1 [← List.map_id query.clauses]
  refine List.map_congr_left fun clause member => ?_
  simp only [Function.comp_apply, Query.tokens,
    Clause.bodyOf_flatMap_tokens distinct clear.isFree member]
  rfl

end Query

/-- Entries of the select list are told apart by their tokens. -/
theorem Selection.tokens_injective : Function.Injective Selection.tokens := by
  intro selection other same
  have read := congrArg readSelection? same
  rw [readSelection?_tokens, readSelection?_tokens] at read
  exact Option.some.inj read

theorem nameToken_injective : Function.Injective nameToken := by
  intro name other same
  have read := congrArg Token.name? same
  rw [nameToken_name?, nameToken_name?] at read
  exact Option.some.inj read

theorem Column.tokens_injective : Function.Injective Column.tokens := by
  intro column other same
  simp only [tokens, List.cons.injEq, true_and, and_true] at same
  obtain ⟨reference, name⟩ := same
  cases column
  cases other
  rw [Column.mk.injEq]
  exact ⟨nameToken_injective reference, nameToken_injective name⟩

/-- A position is not written like a name: a name that starts with a digit has quotes. -/
theorem nameToken_ne_position (name : String) (n : Nat) :
    nameToken name ≠ .word (toString n) := by
  apply nameToken_ne_word
  have some : (toString n).toList ≠ [] := String.toList_eq_nil_iff.not.mpr (isProper_toString n).1
  obtain ⟨c, rest, letters⟩ := List.exists_cons_of_ne_nil some
  have digit : isAsciiDigit c = true := by
    apply isAsciiDigit_of_mem_toString
    rw [letters]
    exact List.mem_cons_self
  simp only [letters, needsQuotes, List.head?_cons, digit, Bool.true_or, Bool.or_true]

/-- Keys are told apart by their tokens. -/
theorem OrderKey.tokens_injective : Function.Injective OrderKey.tokens := by
  intro key other same
  cases key with
  | label name =>
      cases other with
      | label second =>
          rw [nameToken_injective (List.cons.inj same).1]
      | position n => exact absurd (List.cons.inj same).1 (nameToken_ne_position name n)
      | column source => simp [tokens, Column.tokens] at same
  | position n =>
      cases other with
      | label name => exact absurd (List.cons.inj same).1.symm (nameToken_ne_position name n)
      | position m => rw [Nat.repr_inj.mp (Token.word.inj (List.cons.inj same).1)]
      | column source => simp [tokens, Column.tokens] at same
  | column source =>
      cases other with
      | label name => simp [tokens, Column.tokens] at same
      | position n => simp [tokens, Column.tokens] at same
      | column second => rw [Column.tokens_injective same]

theorem OrderEntry.tokens_injective : Function.Injective OrderEntry.tokens := by
  rintro ⟨key, descending⟩ ⟨other, descendingToo⟩ same
  obtain ⟨keys, directions⟩ := List.append_inj' same rfl
  have keysSame : key = other := OrderKey.tokens_injective keys
  have words : (if descending then "DESC" else "ASC") = if descendingToo then "DESC" else "ASC" :=
    Token.word.inj (List.cons.inj directions).1
  subst keysSame
  cases descending with
  | true =>
      cases descendingToo with
      | true => rfl
      | false => exact absurd words (by decide)
  | false =>
      cases descendingToo with
      | true => exact absurd words (by decide)
      | false => rfl

/-- The keyword of a test. -/
def Test.keyword : Test → String
  | .isNull => "IS NULL"
  | .isNotNull => "IS NOT NULL"
  | .oneOf _ => "IN"
  | .noneOf _ => "NOT IN"
  | .like _ => "LIKE"
  | .compare comparison _ => comparison.sign

/-- Reads the keyword of a test and the number of its values. -/
def readTest? : List Token → Option (String × Nat)
  | [.word "IS", .word "NULL"] => some ("IS NULL", 0)
  | [.word "IS", .word "NOT", .word "NULL"] => some ("IS NOT NULL", 0)
  | .word "IN" :: rest => some ("IN", rest.count (.mark '?'))
  | .word "NOT" :: .word "IN" :: rest => some ("NOT IN", rest.count (.mark '?'))
  | [.word "LIKE", .mark '?'] => some ("LIKE", 1)
  | [.mark c, .mark '?'] => some (String.ofList [c], 1)
  | [.mark c, .mark d, .mark '?'] => some (String.ofList [c, d], 1)
  | _ => none

/-- Reads the column of a condition, its keyword and the number of its values. -/
def readCondition? (tokens : List Token) : Option (Column × String × Nat) :=
  match tokens.dropWhile (· == .mark '(') with
  | reference :: .mark '.' :: name :: rest => do
    return (← readColumn? reference name, ← readTest? rest)
  | _ => none

/-- What the text of a condition tells: everything but its values. -/
def Condition.outline (condition : Condition) : Column × String × Nat :=
  (condition.column, condition.test.keyword, condition.test.values.length)

/-- There is a token for each value. -/
theorem count_placeholderTokens (values : List Scalar) :
    (placeholderTokens values).count (.mark '?') = values.length := by
  induction values with
  | nil => rfl
  | cons value rest ih =>
      cases rest with
      | nil => rfl
      | cons next rest =>
          rw [placeholderTokens] at ih ⊢
          simp only [List.map_cons, List.intercalate_cons_cons, List.count_append] at ih ⊢
          rw [ih, List.length_cons, List.length_cons, Nat.add_comm]
          rfl

/-- The values of a list are counted up to the end of its condition. -/
theorem count_list (values : List Scalar) {closing : List Token} (noValue : .mark '?' ∉ closing) :
    List.count (.mark '?') (.mark '(' :: (placeholderTokens values ++ .mark ')' :: closing)) =
      values.length := by
  rw [List.count_cons_of_ne (by simp), List.count_append, List.count_cons_of_ne (by simp),
    List.count_eq_zero.mpr noValue, count_placeholderTokens, Nat.add_zero]

/-- The keyword and the number of values are read off a test, which brackets may follow. -/
theorem readTest?_tokens (test : Test) {closing : List Token}
    (unbracketed : test.isBracketed = false → closing = []) (noValue : .mark '?' ∉ closing) :
    readTest? (test.tokens ++ closing) = some (test.keyword, test.values.length) := by
  cases test with
  | noneOf values =>
      simp only [Test.tokens, List.cons_append, List.append_assoc, List.nil_append, readTest?]
      rw [count_list values noValue]
      rfl
  | isNull => rw [unbracketed rfl]; rfl
  | isNotNull => rw [unbracketed rfl]; rfl
  | oneOf values =>
      simp only [unbracketed rfl, Test.tokens, List.cons_append, List.append_nil, readTest?]
      rw [count_list values List.not_mem_nil]
      rfl
  | like pattern => rw [unbracketed rfl]; rfl
  | compare comparison value =>
      rw [unbracketed rfl]
      cases comparison <;> rfl

/-- The tokens of a condition are read as its outline. -/
theorem readCondition?_tokens (condition : Condition) :
    readCondition? condition.tokens = some condition.outline := by
  have bare (name : String) (rest : List Token) :
      (nameToken name :: rest).dropWhile (· == .mark '(') = nameToken name :: rest :=
    List.dropWhile_cons_of_neg (by simpa using nameToken_ne_mark name '(')
  obtain ⟨closing, opened, unbracketed, noValue⟩ : ∃ closing,
      condition.tokens.dropWhile (· == .mark '(') =
        condition.column.tokens ++ (condition.test.tokens ++ closing) ∧
      (condition.test.isBracketed = false → closing = []) ∧ .mark '?' ∉ closing := by
    unfold Condition.tokens
    split
    next bracketed =>
      refine ⟨[.mark ')'], ?_, by simp [bracketed], by decide⟩
      rw [List.cons_append, List.dropWhile_cons_of_pos (by decide), List.append_assoc]
      exact bare _ _
    · refine ⟨[], ?_, fun _ => rfl, List.not_mem_nil⟩
      rw [List.append_nil]
      exact bare _ _
  rw [readCondition?, opened]
  simp only [Column.tokens, List.cons_append, List.nil_append, readColumn?_tokens,
    readTest?_tokens condition.test unbracketed noValue]
  rfl

/-- Related lists are split where their fronts have one length. -/
theorem forall₂_append_of_length {α β : Type} {R : α → β → Prop} {front rest : List α}
    {frontToo restToo : List β} (length : front.length = frontToo.length)
    (related : List.Forall₂ R (front ++ rest) (frontToo ++ restToo)) :
    List.Forall₂ R front frontToo ∧ List.Forall₂ R rest restToo := by
  have taken := List.forall₂_take_append _ _ _ related
  have dropped := List.forall₂_drop_append _ _ _ related
  rw [← length] at taken dropped
  rw [List.take_left] at taken
  rw [List.drop_left] at dropped
  exact ⟨taken, dropped⟩

/-- The values of a statement are those of its conditions one after the other: how many each
condition has tells where they are split. -/
theorem forall₂_values {same : Scalar → Scalar → Prop} {conditions others : List Condition}
    {rest restToo : List Scalar}
    (alike : conditions.map Condition.outline = others.map Condition.outline)
    (values : List.Forall₂ same (conditions.flatMap (·.test.values) ++ rest)
      (others.flatMap (·.test.values) ++ restToo)) :
    List.Forall₂ (fun c d => c.outline = d.outline ∧
        List.Forall₂ same c.test.values d.test.values) conditions others ∧
      List.Forall₂ same rest restToo := by
  induction conditions generalizing others with
  | nil =>
      rw [List.map_nil, List.nil_eq, List.map_eq_nil_iff] at alike
      subst alike
      exact ⟨.nil, values⟩
  | cons condition conditions ih =>
      obtain ⟨other, others, rfl, head, tail⟩ := List.map_eq_cons_iff.mp alike.symm
      rw [List.flatMap_cons, List.flatMap_cons, List.append_assoc, List.append_assoc] at values
      have length : condition.test.values.length = other.test.values.length :=
        congrArg (·.2.2) head.symm
      obtain ⟨here, behind⟩ := forall₂_append_of_length length values
      obtain ⟨each, last⟩ := ih tail.symm behind
      exact ⟨.cons ⟨head.symm, here⟩ each, last⟩

namespace Query

variable {first second : Query}

/-- The statements differ in nothing but their tables, their grouping and their values. -/
structure WrittenAlike (first second : Query) : Prop where
  selections : first.selections = second.selections
  conditions : first.conditions.map Condition.outline = second.conditions.map Condition.outline
  order : first.order = second.order
  limit : first.limit.isSome = second.limit.isSome

/-- Clear statements with one text are written alike. -/
theorem Clear.writtenAlike (clear : first.Clear) (clearToo : second.Clear)
    (same : first.sql = second.sql) : first.WrittenAlike second := by
  have clauses : first.clauses = second.clauses := by
    rw [clear.clauses_eq, clearToo.clauses_eq, same]
  simp only [Query.clauses, List.cons.injEq, Clause.mk.injEq, true_and, and_true] at clauses
  obtain ⟨selections, -, conditions, -, order, limit⟩ := clauses
  constructor
  · apply List.map_injective_iff.mpr Selection.tokens_injective
    apply map_eq_of_listBody _ selections
    exact fun selection member => (selection.isInner _ member).2.1 rfl
  · apply List.map_injective_iff.mpr (Option.some_injective _)
    have free (condition : Condition) : .word "AND" ∉ condition.tokens := by
      intro member
      rcases condition.isInnerOrComma _ member with inner | comma
      · exact inner.2.2 rfl
      · cases comma
    have read := congrArg (List.map readCondition?) (map_eq_of_listBody free conditions)
    simpa only [List.map_map, Function.comp_def, readCondition?_tokens] using read
  · apply List.map_injective_iff.mpr OrderEntry.tokens_injective
    apply map_eq_of_listBody _ order
    exact fun entry member => (entry.isInner _ member).2.1 rfl
  · have listed := congrArg List.isEmpty (map_eq_of_listBody (by simp) limit)
    have present (bound : Option Nat) : bound.isSome = !bound.toList.isEmpty := by
      cases bound <;> rfl
    rw [List.isEmpty_map, List.isEmpty_map] at listed
    rw [present, present, listed]

end Query

end Reporting.Sql
