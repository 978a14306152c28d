import Mathlib.Data.List.Basic
import Reporting.Proofs.Sql.Legible

/-!
# Reading a select list

`selectEntries?` reads the entries of the select list off the text of a statement, and
`readSelection?` reads an entry. Over proper names both give back what was written
(`Query.selectEntries?_sql`, `readSelection?_tokens`).
-/

namespace Reporting.Sql

open Text

/-- Reads a column from the tokens of its reference and its name. -/
def readColumn? (reference name : Token) : Option Column := do
  return ⟨← reference.name?, ← name.name?⟩

/-- The aggregate that a function computes. -/
def Aggregate.ofFunctionName? : String → Option Aggregate
  | "sum" => some .sum
  | "count" => some .count
  | _ => none

/-- Reads an entry of a select list. -/
def readSelection? : List Token → Option Selection
  | [reference, .mark '.', name] => do return .column (← readColumn? reference name)
  | [reference, .mark '.', name, .word "AS", label] => do
    return .labelled (← readColumn? reference name) (← label.name?)
  | [.word function, .mark '(', reference, .mark '.', name, .mark ')', .word "AS", label] => do
    return .aggregate (← Aggregate.ofFunctionName? function) (← readColumn? reference name)
      (← label.name?)
  | _ => none

/-- The entries of the select list of a statement. -/
def selectEntries? (sql : String) : Option (List (List Token)) :=
  match tokensOf sql.toList with
  | .word "SELECT" :: rest =>
    some ((rest.takeWhile fun token => token != .word "FROM").splitOn (.mark ','))
  | _ => none

/-- The name of the column that an entry gives: its label, or the name of the column it shows. -/
def Selection.givenName : Selection → String
  | .column source => source.name
  | .labelled _ label | .aggregate _ _ label => label

/-- The tokens of a written column. -/
def Column.tokens (column : Column) : List Token :=
  [nameToken column.reference, .mark '.', nameToken column.name]

/-- The tokens of a written entry. -/
def Selection.tokens : Selection → List Token
  | .column source => source.tokens
  | .labelled source label => source.tokens ++ [.word "AS", nameToken label]
  | .aggregate function source label =>
    .word function.functionName :: .mark '(' :: source.tokens ++
      [.mark ')', .word "AS", nameToken label]

/-- A column is found again in its two names. -/
theorem readColumn?_tokens (column : Column) :
    readColumn? (nameToken column.reference) (nameToken column.name) = some column := by
  rw [readColumn?, nameToken_name?, nameToken_name?]
  rfl

/-- The tokens of an entry are read as the entry. -/
theorem readSelection?_tokens (selection : Selection) :
    readSelection? selection.tokens = some selection := by
  cases selection with
  | column source =>
      simp only [Selection.tokens, Column.tokens, readSelection?, readColumn?_tokens]
      rfl
  | labelled source label =>
      simp only [Selection.tokens, Column.tokens, List.cons_append, List.nil_append,
        readSelection?, readColumn?_tokens, nameToken_name?]
      rfl
  | aggregate function source label =>
      have known : Aggregate.ofFunctionName? function.functionName = some function := by
        cases function <;> rfl
      simp only [Selection.tokens, Column.tokens, List.cons_append, List.nil_append,
        readSelection?, readColumn?_tokens, nameToken_name?, known]
      rfl

/-- The last token of an entry with a label is the label. -/
theorem Selection.getLast?_tokens {selection : Selection} {label : String}
    (labelled : selection.label? = some label) :
    selection.tokens.getLast? = some (nameToken label) := by
  cases selection with
  | column source => cases labelled
  | labelled source name =>
      cases labelled
      rw [tokens, List.getLast?_append]
      rfl
  | aggregate function source name =>
      cases labelled
      rw [tokens, List.getLast?_append]
      rfl

theorem name?_of_readColumn? {reference name : Token} {column : Column}
    (found : readColumn? reference name = some column) : name.name? = some column.name := by
  simp only [readColumn?, Option.bind_eq_bind, Option.bind_eq_some_iff, Option.pure_def,
    Option.some.injEq] at found
  obtain ⟨-, -, shown, named, rfl⟩ := found
  exact named

/-- The name that an entry gives is that of one of its tokens. -/
theorem exists_token_of_readSelection? {entry : List Token} {selection : Selection}
    (found : readSelection? entry = some selection) :
    ∃ token ∈ entry, token.name? = some selection.givenName := by
  unfold readSelection? at found
  split at found
  next reference name =>
    simp only [Option.bind_eq_bind, Option.bind_eq_some_iff, Option.pure_def,
      Option.some.injEq] at found
    obtain ⟨column, shown, rfl⟩ := found
    exact ⟨name, by simp, name?_of_readColumn? shown⟩
  next reference name label =>
    simp only [Option.bind_eq_bind, Option.bind_eq_some_iff, Option.pure_def,
      Option.some.injEq] at found
    obtain ⟨column, -, given, named, rfl⟩ := found
    exact ⟨label, by simp, named⟩
  next function reference name label =>
    simp only [Option.bind_eq_bind, Option.bind_eq_some_iff, Option.pure_def,
      Option.some.injEq] at found
    obtain ⟨aggregate, -, column, -, given, named, rfl⟩ := found
    exact ⟨label, by simp, named⟩
  next => cases found

/-- A written column is read as its tokens. -/
theorem Column.legible {column : Column} (proper : ∀ name ∈ column.names, IsProper name) :
    Legible column.text column.tokens := by
  have reference := Legible.name (proper column.reference List.mem_cons_self)
  have name := Legible.name (proper column.name (by simp [Column.names]))
  have text : column.text =
      quoteName column.reference ++ (String.singleton '.' ++ quoteName column.name) := by
    rw [Column.text, String.append_assoc]
    rfl
  rw [text]
  exact reference.joint isMark_point name

/-- A written entry is read as its tokens. -/
theorem Selection.legible {selection : Selection}
    (proper : ∀ name ∈ selection.names, IsProper name) :
    Legible selection.text selection.tokens := by
  cases selection with
  | column source => exact Column.legible proper
  | labelled source label =>
      obtain ⟨labelled, names⟩ := List.forall_mem_cons.mp proper
      exact (Column.legible names).labelled labelled
  | aggregate function source label =>
      obtain ⟨labelled, names⟩ := List.forall_mem_cons.mp proper
      have word : Legible function.functionName [.word function.functionName] :=
        .word (by cases function <;> decide)
      have call := word.joint isMark_opening ((Column.legible names).append_mark isMark_closing)
      have text : (Selection.aggregate function source label).text = function.functionName ++
          (String.singleton '(' ++ (source.text ++ String.singleton ')')) ++ " AS " ++
            quoteName label := by
        simp only [Selection.text, String.append_assoc]
        rfl
      have tokens : (Selection.aggregate function source label).tokens =
          [.word function.functionName] ++ .mark '(' :: (source.tokens ++ [.mark ')']) ++
            [.word "AS", nameToken label] := by
        simp [Selection.tokens]
      rw [text, tokens]
      exact call.labelled labelled

theorem Column.isInner (column : Column) : ∀ token ∈ column.tokens, token.IsInner := by
  simp only [Column.tokens, List.forall_mem_cons]
  exact ⟨isInner_nameToken _, by decide, isInner_nameToken _, List.forall_mem_nil _⟩

theorem Selection.isInner (selection : Selection) : ∀ token ∈ selection.tokens, token.IsInner := by
  cases selection with
  | column source => exact source.isInner
  | labelled source label =>
      simp only [tokens, List.forall_mem_append, List.forall_mem_cons]
      exact ⟨source.isInner, by decide, isInner_nameToken _, List.forall_mem_nil _⟩
  | aggregate function source label =>
      have word : (Token.word function.functionName).IsInner := by cases function <;> decide
      simp only [tokens, List.forall_mem_append, List.forall_mem_cons]
      exact ⟨⟨word, by decide, source.isInner⟩, by decide, by decide, isInner_nameToken _,
        List.forall_mem_nil _⟩

theorem mem_intercalate_of_mem {α : Type} (separator : List α) {item : α} {list : List α}
    {lists : List (List α)} (found : list ∈ lists) (member : item ∈ list) :
    item ∈ separator.intercalate lists := by
  induction lists with
  | nil => exact absurd found List.not_mem_nil
  | cons first others ih =>
      cases others with
      | nil =>
          rw [List.intercalate_singleton, ← List.mem_singleton.mp found]
          exact member
      | cons second others =>
          rw [List.intercalate_cons_cons, List.mem_append, List.mem_append]
          rcases List.mem_cons.mp found with rfl | later
          · exact Or.inl (Or.inl member)
          · exact Or.inr (ih later)

/-- The entries of a select list hold nothing that is not in the text. -/
theorem mem_of_mem_selectEntries? {sql : String} {entries : List (List Token)}
    (found : selectEntries? sql = some entries) {entry : List Token} (listed : entry ∈ entries)
    {token : Token} (member : token ∈ entry) {name : String} (named : token.name? = some name)
    {c : Char} (letter : c ∈ name.toList) : c ∈ sql.toList := by
  unfold selectEntries? at found
  split at found
  next rest read =>
    cases found
    have inside := mem_intercalate_of_mem [.mark ','] listed member
    rw [List.intercalate_splitOn] at inside
    have behind : token ∈ tokensOf sql.toList := by
      rw [read]
      exact List.mem_cons_of_mem _ (List.takeWhile_subset _ inside)
    exact mem_of_mem_tokensOf behind named letter
  next => cases found

namespace Query

variable {query : Query}

/-- What is shown is the select list and the source. -/
theorem shownText_eq (query : Query) : query.shownText =
    "SELECT" ++ " " ++ commaList (query.selections.map Selection.text) ++ " " ++
      ("FROM" ++ " " ++ query.source.text) := by
  simp only [shownText, String.append_assoc]
  rfl

variable (shows : query.selections ≠ [])
  (proper : ∀ s ∈ query.selections, ∀ name ∈ s.names, IsProper name)

include shows proper

/-- The select list is read entry by entry. -/
theorem legible_selections :
    Legible ("SELECT" ++ " " ++ commaList (query.selections.map Selection.text))
      (.word "SELECT" :: [Token.mark ','].intercalate (query.selections.map Selection.tokens)) := by
  have select : Legible "SELECT" [.word "SELECT"] := .word (by decide)
  exact select.space (.intercalate Legible.separates_comma shows
    fun selection member => Selection.legible (proper selection member))

variable (source : HasWord query.source.text)

include source

/-- The select list stands in the statement as it was written. -/
theorem collapse_shownText : collapse query.shownText =
    "SELECT" ++ " " ++ commaList (query.selections.map Selection.text) ++ " " ++
      ("FROM" ++ " " ++ collapse query.source.text) := by
  have select : HasWord "SELECT" := by decide
  have fromWord : HasWord "FROM" := by decide
  have kept : collapse "FROM" = "FROM" := by decide
  rw [shownText_eq, collapse_append_space ((select.append_left _).append_left _)
    ((fromWord.append_left _).append_left _), (legible_selections shows proper).tight.collapse,
    collapse_append_space fromWord source, kept]

/-- Reading the select list off the text of a statement gives back its entries. -/
theorem selectEntries?_sql :
    selectEntries? query.sql = some (query.selections.map Selection.tokens) := by
  obtain ⟨behind, text⟩ : ∃ behind : List Char, query.sql.toList =
      ("SELECT" ++ " " ++ commaList (query.selections.map Selection.text)).toList ++
        ' ' :: ("FROM".toList ++ ' ' :: behind) := by
    rw [sql_eq, collapse_shownText shows proper source]
    simp only [String.toList_append, List.append_assoc]
    exact ⟨_, rfl⟩
  have fromWord : IsProper "FROM" := by decide
  have inner (selection : Selection) {token : Token} (outer : ¬ token.IsInner) :
      token ∉ selection.tokens := fun member => outer (selection.isInner token member)
  have listed (token : Token) (member : token ∈
      [Token.mark ','].intercalate (query.selections.map Selection.tokens)) :
      token ≠ .word "FROM" := by
    rcases mem_of_mem_intercalate member with rfl | ⟨entry, found, inside⟩
    · simp
    · obtain ⟨selection, -, rfl⟩ := List.mem_map.mp found
      rintro rfl
      exact inner selection (by decide) inside
  rw [selectEntries?, text, (legible_selections shows proper).read _ (delimited_space _),
    tokensOf_space, tokensOf_word fromWord.1 fromWord.2 (delimited_space _), List.cons_append]
  simp only
  rw [List.takeWhile_append_of_pos, List.takeWhile_cons_of_neg, List.append_nil,
    List.splitOn_intercalate]
  · intro entry member
    obtain ⟨selection, -, rfl⟩ := List.mem_map.mp member
    exact inner selection (by decide)
  · simpa using shows
  · simp
  · intro token member
    simpa using listed token member

end Query

end Reporting.Sql
