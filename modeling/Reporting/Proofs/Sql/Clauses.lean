import Reporting.Proofs.Number.Shortest
import Reporting.Proofs.Sql.SelectList

/-!
# The entries of the clauses

Conditions, the entries of an order and joins are legible wherever their names are proper, the joins
where their predicates are clear too (`ClearPredicate`). None of them holds a word that starts a
clause, nor what separates the entries of its clause (`Token.IsInner`).
-/

namespace Reporting.Sql

open Text

/-- The tokens of the placeholders of a list. -/
def placeholderTokens (values : List Scalar) : List Token :=
  [.mark ','].intercalate (values.map fun _ => [.mark '?'])

/-- Placeholders between brackets. -/
theorem legible_placeholders (values : List Scalar) :
    Legible ("(" ++ placeholders values ++ ")")
      (.mark '(' :: placeholderTokens values ++ [.mark ')']) := by
  cases values with
  | nil =>
      have brackets : "(" ++ placeholders [] ++ ")" =
          String.singleton '(' ++ String.singleton ')' := by decide
      rw [brackets]
      exact (Legible.mark isMark_opening).append_mark isMark_closing
  | cons value rest =>
      have listed : Legible (placeholders (value :: rest)) (placeholderTokens (value :: rest)) :=
        Legible.intercalate Legible.separates_comma (List.cons_ne_nil value rest)
          fun _ _ => Legible.mark isMark_placeholder
      exact listed.brackets

theorem Comparison.legible (comparison : Comparison) :
    Legible comparison.sign (comparison.sign.toList.map .mark) := by
  cases comparison <;> exact .of_collapse (by decide) (by decide) (by decide) (by decide)

/-- A token of a clause that lists conditions, whose values have commas between them. -/
def Token.IsInnerOrComma (token : Token) : Prop := token.IsInner ∨ token = .mark ','

instance (token : Token) : Decidable token.IsInnerOrComma := inferInstanceAs (Decidable (_ ∨ _))

namespace Test

/-- What a test writes behind its column. -/
def text : Test → String
  | .isNull => "IS NULL"
  | .isNotNull => "IS NOT NULL"
  | .oneOf values => "IN" ++ " " ++ ("(" ++ placeholders values ++ ")")
  | .noneOf values => "NOT IN" ++ " " ++ ("(" ++ placeholders values ++ ")")
  | .like _ => "LIKE" ++ " " ++ placeholder
  | .compare comparison _ => comparison.sign ++ " " ++ placeholder

def tokens : Test → List Token
  | .isNull => [.word "IS", .word "NULL"]
  | .isNotNull => [.word "IS", .word "NOT", .word "NULL"]
  | .oneOf values => .word "IN" :: .mark '(' :: placeholderTokens values ++ [.mark ')']
  | .noneOf values =>
    .word "NOT" :: .word "IN" :: .mark '(' :: placeholderTokens values ++ [.mark ')']
  | .like _ => [.word "LIKE", .mark '?']
  | .compare comparison _ => comparison.sign.toList.map .mark ++ [.mark '?']

/-- A negated list stands between brackets. -/
def isBracketed : Test → Bool
  | .noneOf _ => true
  | .isNull | .isNotNull | .oneOf _ | .like _ | .compare _ _ => false

/-- A test is read back token by token. -/
theorem legible (test : Test) : Legible test.text test.tokens := by
  have question : Legible placeholder [.mark '?'] := .mark isMark_placeholder
  cases test with
  | isNull => exact .of_collapse (by decide) (by decide) (by decide) (by decide)
  | isNotNull => exact .of_collapse (by decide) (by decide) (by decide) (by decide)
  | oneOf values =>
      have word : Legible "IN" [.word "IN"] := .word (by decide)
      exact word.space (legible_placeholders values)
  | noneOf values =>
      have words : Legible "NOT IN" [.word "NOT", .word "IN"] :=
        .of_collapse (by decide) (by decide) (by decide) (by decide)
      exact words.space (legible_placeholders values)
  | like pattern =>
      have word : Legible "LIKE" [.word "LIKE"] := .word (by decide)
      exact word.space question
  | compare comparison value => exact comparison.legible.space question

/-- A test starts no clause and holds no conjunction. -/
theorem isInnerOrComma (test : Test) : ∀ token ∈ test.tokens, token.IsInnerOrComma := by
  have listed (values : List Scalar) :
      ∀ token ∈ placeholderTokens values, token.IsInnerOrComma := by
    intro token member
    rcases mem_of_mem_intercalate member with rfl | ⟨list, found, inside⟩
    · decide
    · obtain ⟨value, -, rfl⟩ := List.mem_map.mp found
      rw [List.mem_singleton.mp inside]
      decide
  cases test with
  | isNull => decide
  | isNotNull => decide
  | oneOf values =>
      simp only [tokens, List.forall_mem_append, List.forall_mem_cons]
      exact ⟨⟨by decide, by decide, listed values⟩, by decide, List.forall_mem_nil _⟩
  | noneOf values =>
      simp only [tokens, List.forall_mem_append, List.forall_mem_cons]
      exact ⟨⟨by decide, by decide, by decide, listed values⟩, by decide, List.forall_mem_nil _⟩
  | like pattern => simp only [tokens]; decide
  | compare comparison value =>
      simp only [tokens]
      cases comparison <;> decide

end Test

namespace Condition

variable {condition : Condition}

/-- The tokens of a written condition. -/
def tokens (condition : Condition) : List Token :=
  let inner := condition.column.tokens ++ condition.test.tokens
  if condition.test.isBracketed then .mark '(' :: inner ++ [.mark ')'] else inner

theorem text_eq (condition : Condition) :
    condition.text =
      if condition.test.isBracketed then
        "(" ++ (condition.column.text ++ " " ++ condition.test.text) ++ ")"
      else condition.column.text ++ " " ++ condition.test.text := by
  unfold text
  cases condition.test <;>
    simp only [Test.text, Test.isBracketed, ↓reduceIte, Bool.false_eq_true, String.append_assoc] <;>
    rfl

theorem legible (proper : ∀ name ∈ condition.column.names, IsProper name) :
    Legible condition.text condition.tokens := by
  have inner := (Column.legible proper).space condition.test.legible
  rw [text_eq, tokens]
  split
  · exact inner.brackets
  · exact inner

theorem isInnerOrComma (condition : Condition) :
    ∀ token ∈ condition.tokens, token.IsInnerOrComma := by
  have inner : ∀ token ∈ condition.column.tokens ++ condition.test.tokens,
      token.IsInnerOrComma := by
    rw [List.forall_mem_append]
    exact ⟨fun token member => Or.inl (condition.column.isInner token member),
      condition.test.isInnerOrComma⟩
  unfold Condition.tokens
  split
  · rw [List.forall_mem_append, List.forall_mem_cons]
    exact ⟨⟨by decide, inner⟩, by decide⟩
  · exact inner

end Condition

/-- The tokens of what an order goes by. -/
def OrderKey.tokens : OrderKey → List Token
  | .label name => [nameToken name]
  | .position place => [.word (toString place)]
  | .column source => source.tokens

/-- The tokens of a written entry of an order. -/
def OrderEntry.tokens (entry : OrderEntry) : List Token :=
  entry.key.tokens ++ [.word entry.direction]

/-- A key is read back token by token. -/
theorem OrderKey.legible {key : OrderKey} (proper : ∀ name ∈ key.names, IsProper name) :
    Legible key.text key.tokens := by
  cases key with
  | label name => exact .name (proper name List.mem_cons_self)
  | position place => exact .word (isProper_toString place)
  | column source => exact Column.legible proper

/-- An entry of the order is read back token by token. -/
theorem OrderEntry.legible {entry : OrderEntry}
    (proper : ∀ name ∈ entry.key.names, IsProper name) : Legible entry.text entry.tokens := by
  have direction : Legible entry.direction [.word entry.direction] := by
    unfold OrderEntry.direction
    split
    · exact .word (by decide)
    · exact .word (by decide)
  rw [entry.text_eq]
  exact (OrderKey.legible proper).space direction

theorem isAsciiDigit_of_mem_toString {n : Nat} {c : Char} (member : c ∈ (toString n).toList) :
    isAsciiDigit c = true := by
  rw [Nat.toString_eq_ofList_toDigits, String.toList_ofList] at member
  exact isAsciiDigit_of_mem_toDigits member

theorem isInner_position (n : Nat) : (Token.word (toString n)).IsInner := by
  have digits : (toString n).toList.all isAsciiDigit = true :=
    List.all_eq_true.mpr fun c => isAsciiDigit_of_mem_toString
  have letters : ∀ word ∈ "AND" :: clauseStarts, word.toList.all isAsciiDigit = false := by decide
  have other (word : String) (listed : word ∈ "AND" :: clauseStarts) : toString n ≠ word := by
    rintro rfl
    rw [letters _ listed] at digits
    cases digits
  refine ⟨?_, by simp, ?_⟩
  · intro member
    obtain ⟨start, listed, same⟩ := List.mem_map.mp member
    exact other start (List.mem_cons_of_mem _ listed) (Token.word.inj same).symm
  · intro same
    exact other "AND" List.mem_cons_self (Token.word.inj same)

theorem OrderEntry.isInner (entry : OrderEntry) : ∀ token ∈ entry.tokens, token.IsInner := by
  have direction : (Token.word entry.direction).IsInner := by
    unfold OrderEntry.direction
    split
    · decide
    · decide
  rw [OrderEntry.tokens, List.forall_mem_append, List.forall_mem_singleton]
  refine ⟨?_, direction⟩
  cases entry.key with
  | label name => exact List.forall_mem_singleton.mpr (isInner_nameToken name)
  | position place => exact List.forall_mem_singleton.mpr (isInner_position place)
  | column source => exact source.isInner

/-- A join predicate that is written as it is, and starts no clause of a statement. -/
structure ClearPredicate (predicate : String) : Prop where
  word : HasWord predicate
  kept : collapse predicate = predicate
  noQuote : doubleQuote ∉ predicate.toList
  free : ∀ token ∈ tokensOf predicate.toList, ¬ token.IsStart

instance : DecidablePred ClearPredicate := fun predicate =>
  decidable_of_iff
    (HasWord predicate ∧ collapse predicate = predicate ∧ doubleQuote ∉ predicate.toList ∧
      ∀ token ∈ tokensOf predicate.toList, ¬ token.IsStart)
    ⟨fun ⟨word, kept, noQuote, free⟩ => ⟨word, kept, noQuote, free⟩,
      fun ⟨word, kept, noQuote, free⟩ => ⟨word, kept, noQuote, free⟩⟩

/-- The tokens of a table and the reference it is joined under. -/
def Join.nameTokens (join : Join) : List Token :=
  if join.reference = join.table then [nameToken join.table]
  else [nameToken join.table, .word "AS", nameToken join.reference]

/-- The tokens of a written join. -/
def Join.tokens (join : Join) : List Token :=
  tokensOf (joinWords join.kind).toList ++ (join.nameTokens ++
    .word "ON" :: tokensOf join.predicate.toList)

def Source.tokens (source : Source) : List Token :=
  nameToken source.base :: source.joins.flatMap Join.tokens

/-- A join may follow. -/
theorem Legible.join {text : String} {tokens : List Token} {join : Join}
    (front : Legible text tokens) (proper : ∀ name ∈ join.names, IsProper name)
    (clear : ClearPredicate join.predicate) :
    Legible (text ++ join.text) (tokens ++ join.tokens) := by
  obtain ⟨words, spaced, start⟩ : ∃ words, joinWords join.kind = " " ++ words ++ " " ∧
      Legible words (tokensOf (joinWords join.kind).toList) := by
    cases join.kind with
    | left =>
        exact ⟨"LEFT OUTER JOIN", rfl,
          .of_collapse (by decide) (by decide) (by decide) (by decide)⟩
    | inner => exact ⟨"JOIN", rfl, .of_collapse (by decide) (by decide) (by decide) (by decide)⟩
  have table := Legible.name (proper join.table List.mem_cons_self)
  have names : Legible (quoteName join.table ++
      (if join.reference = join.table then "" else " AS " ++ quoteName join.reference))
      join.nameTokens := by
    unfold Join.nameTokens
    split
    · rw [String.append_empty]
      exact table
    · rw [← String.append_assoc]
      exact table.labelled (proper join.reference (by simp [Join.names]))
  have condition : Legible join.predicate (tokensOf join.predicate.toList) :=
    .of_collapse clear.word clear.kept clear.noQuote rfl
  have keyword : Legible "ON" [.word "ON"] := .word (by decide)
  have text : text ++ join.text = text ++ " " ++ (words ++ " " ++ (quoteName join.table ++
      (if join.reference = join.table then "" else " AS " ++ quoteName join.reference) ++ " " ++
        ("ON" ++ " " ++ join.predicate))) := by
    rw [Join.text, spaced]
    simp only [String.append_assoc]
    rfl
  rw [text]
  exact front.space (start.space (names.space (keyword.space condition)))

/-- No token of a join starts another clause. -/
theorem Join.not_isStart {join : Join} (clear : ClearPredicate join.predicate) :
    ∀ token ∈ join.tokens, ¬ token.IsStart := by
  have words : ∀ token ∈ tokensOf (joinWords join.kind).toList, ¬ token.IsStart := by
    cases join.kind <;> decide
  have names : ∀ token ∈ join.nameTokens, ¬ token.IsStart := by
    unfold Join.nameTokens
    split
    · exact List.forall_mem_singleton.mpr (isInner_nameToken _).1
    · simp only [List.forall_mem_cons]
      exact ⟨(isInner_nameToken _).1, by decide, (isInner_nameToken _).1, List.forall_mem_nil _⟩
  simp only [Join.tokens, List.forall_mem_append, List.forall_mem_cons]
  exact ⟨words, names, by decide, clear.free⟩

/-- Joins are read back one behind the other. -/
theorem Legible.joins {text : String} {tokens : List Token} {joins : List Join}
    (front : Legible text tokens) (proper : ∀ join ∈ joins, ∀ name ∈ join.names, IsProper name)
    (clear : ∀ join ∈ joins, ClearPredicate join.predicate) :
    Legible (text ++ String.join (joins.map Join.text)) (tokens ++ joins.flatMap Join.tokens) := by
  induction joins generalizing text tokens with
  | nil => simpa using front
  | cons join rest ih =>
      obtain ⟨names, otherNames⟩ := List.forall_mem_cons.mp proper
      obtain ⟨first, others⟩ := List.forall_mem_cons.mp clear
      rw [List.map_cons, String.join_cons, List.flatMap_cons, ← String.append_assoc,
        ← List.append_assoc]
      exact ih (front.join names first) otherNames others

/-- A source is read back token by token. -/
theorem Source.legible {source : Source} (proper : ∀ name ∈ source.names, IsProper name)
    (clear : ∀ join ∈ source.joins, ClearPredicate join.predicate) :
    Legible source.text source.tokens := by
  obtain ⟨base, joined⟩ := List.forall_mem_cons.mp proper
  exact (Legible.name base).joins (List.forall_mem_flatMap.mp joined) clear

end Reporting.Sql
