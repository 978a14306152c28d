import Mathlib.Data.List.Basic
import Reporting.Proofs.Sql.Names

/-!
# Reading the tokens of a statement

A statement is read one character at a time: a word is a run of name characters, a quoted name runs
to its closing quote with doubled quotes for single ones, blanks separate, and every other character
is a mark. A written name is read as one token with that name (`tokensOf_quoteName`), and all that
tokens hold comes from the text (`mem_of_mem_tokensOf`).
-/

namespace Reporting.Sql

open Text

/-- A token of a statement. -/
inductive Token where
  | word (name : String)
  | quoted (name : String)
  | mark (c : Char)
  deriving DecidableEq

/-- The name that a token stands for, without its quotes. -/
def Token.name? : Token → Option String
  | .word name | .quoted name => some name
  | .mark _ => none

/-- Where a reader of tokens stands: behind the letters of a word, within quotes, or behind a quote
that may close them. Letters are kept last letter first. -/
inductive ReadState where
  | outside (word : List Char)
  | within (name : List Char)
  | closing (name : List Char)

/-- The word that has been read. -/
def flushWord (word : List Char) : List Token :=
  if word.isEmpty then [] else [.word (String.ofList word.reverse)]

/-- Reads a character outside quotes. -/
def readOutside (word : List Char) (c : Char) : List Token × ReadState :=
  if isNameChar c then ([], .outside (c :: word))
  else if c == doubleQuote then (flushWord word, .within [])
  else if isBlank c then (flushWord word, .outside [])
  else (flushWord word ++ [.mark c], .outside [])

namespace ReadState

/-- Reads a character: the tokens that end with it, and where the reader stands then. -/
def read : ReadState → Char → List Token × ReadState
  | .outside word, c => readOutside word c
  | .within name, c => ([], if c == doubleQuote then .closing name else .within (c :: name))
  | .closing name, c =>
    if c == doubleQuote then ([], .within (c :: name))
    else
      let next := readOutside [] c
      (.quoted (String.ofList name.reverse) :: next.1, next.2)

/-- The tokens that end with the text. -/
def finish : ReadState → List Token
  | .outside word => flushWord word
  | .within name | .closing name => [.quoted (String.ofList name.reverse)]

/-- The letters read since the last token. -/
def letters : ReadState → List Char
  | .outside word => word
  | .within name | .closing name => name

end ReadState

/-- The tokens of a text for a reader in a given state. -/
def tokensFrom : ReadState → List Char → List Token
  | state, [] => state.finish
  | state, c :: rest => (state.read c).1 ++ tokensFrom (state.read c).2 rest

/-- The tokens of a text. -/
def tokensOf (text : List Char) : List Token := tokensFrom (.outside []) text

/-- A text at whose start a name ends. -/
def Delimited (text : List Char) : Prop :=
  ∀ c, text.head? = some c → isNameChar c = false ∧ c ≠ doubleQuote

/-- A character that is a token of its own. -/
structure IsMark (c : Char) : Prop where
  noLetter : isNameChar c = false
  noQuote : c ≠ doubleQuote
  noBlank : isBlank c = false

theorem isMark_point : IsMark '.' := ⟨rfl, by decide, rfl⟩

theorem isMark_comma : IsMark ',' := ⟨rfl, by decide, rfl⟩

theorem isMark_opening : IsMark '(' := ⟨rfl, by decide, rfl⟩

theorem isMark_closing : IsMark ')' := ⟨rfl, by decide, rfl⟩

theorem isMark_placeholder : IsMark '?' := ⟨rfl, by decide, rfl⟩

/-- A name ends in front of a mark. -/
theorem IsMark.delimited {c : Char} (mark : IsMark c) (rest : List Char) :
    Delimited (c :: rest) := by
  intro d first
  cases first
  exact ⟨mark.noLetter, mark.noQuote⟩

theorem delimited_space (rest : List Char) : Delimited (' ' :: rest) := by
  intro d first
  cases first
  decide

theorem tokensOf_space (rest : List Char) : tokensOf (' ' :: rest) = tokensOf rest := rfl

theorem tokensOf_mark {c : Char} (mark : IsMark c) (rest : List Char) :
    tokensOf (c :: rest) = .mark c :: tokensOf rest := by
  have quote := beq_false_of_ne mark.noQuote
  simp only [tokensOf, tokensFrom, ReadState.read, readOutside, mark.noLetter, quote,
    mark.noBlank, Bool.false_eq_true, ↓reduceIte, flushWord, List.isEmpty_nil, List.nil_append,
    List.singleton_append]

/-- Plain letters go on with a word. -/
theorem tokensFrom_letters (word : List Char) {letters : List Char}
    (plain : ∀ c ∈ letters, isNameChar c = true) (rest : List Char) :
    tokensFrom (.outside word) (letters ++ rest) =
      tokensFrom (.outside (letters.reverse ++ word)) rest := by
  induction letters generalizing word with
  | nil => rfl
  | cons c letters ih =>
      obtain ⟨first, others⟩ := List.forall_mem_cons.mp plain
      rw [List.cons_append, tokensFrom, ReadState.read, readOutside, if_pos first, List.nil_append,
        ih (c :: word) others, List.reverse_cons, List.append_assoc, List.singleton_append]

/-- A word ends where the text is delimited. -/
theorem tokensFrom_delimited (word : List Char) {rest : List Char} (delimited : Delimited rest) :
    tokensFrom (.outside word) rest = flushWord word ++ tokensOf rest := by
  cases rest with
  | nil => simp [tokensOf, tokensFrom, ReadState.finish, flushWord]
  | cons c rest =>
      obtain ⟨noLetter, noQuote⟩ := delimited c rfl
      have quote := beq_false_of_ne noQuote
      simp only [tokensOf, tokensFrom, ReadState.read, readOutside, noLetter, quote,
        Bool.false_eq_true, ↓reduceIte]
      split
      · simp [flushWord]
      · simp [flushWord]

/-- A text without quotes is read up to its end in front of a delimited text. -/
theorem tokensFrom_append {text : List Char} (noQuote : doubleQuote ∉ text) (word : List Char)
    {rest : List Char} (delimited : Delimited rest) :
    tokensFrom (.outside word) (text ++ rest) =
      tokensFrom (.outside word) text ++ tokensOf rest := by
  induction text generalizing word with
  | nil =>
      rw [List.nil_append, tokensFrom_delimited word delimited]
      rfl
  | cons c text ih =>
      rw [List.mem_cons, not_or] at noQuote
      have other : (c == doubleQuote) = false := beq_false_of_ne (Ne.symm noQuote.1)
      obtain ⟨next, state⟩ : ∃ next, (readOutside word c).2 = .outside next := by
        unfold readOutside
        split
        · exact ⟨_, rfl⟩
        · rw [if_neg (by simp [other])]
          split
          · exact ⟨_, rfl⟩
          · exact ⟨_, rfl⟩
      rw [List.cons_append, tokensFrom, tokensFrom, ReadState.read, state, ih noQuote.2,
        List.append_assoc]

/-- A bare name is read as a word. -/
theorem tokensOf_word {name : String} (some : name ≠ "") (plain : IsPlain name) {rest : List Char}
    (delimited : Delimited rest) :
    tokensOf (name.toList ++ rest) = .word name :: tokensOf rest := by
  have letters : name.toList ≠ [] := by simpa using some
  rw [tokensOf, tokensFrom_letters [] plain, List.append_nil, tokensFrom_delimited _ delimited]
  simp only [flushWord, List.isEmpty_iff, List.reverse_eq_nil_iff, letters, ↓reduceIte,
    List.reverse_reverse, String.ofList_toList, List.singleton_append]

/-- Letters between quotes go on with a name. -/
theorem tokensFrom_within (name : List Char) {letters : List Char}
    (noQuote : doubleQuote ∉ letters) (rest : List Char) :
    tokensFrom (.within name) (letters ++ rest) =
      tokensFrom (.within (letters.reverse ++ name)) rest := by
  induction letters generalizing name with
  | nil => rfl
  | cons c letters ih =>
      rw [List.mem_cons, not_or] at noQuote
      obtain ⟨other, others⟩ := noQuote
      have letter : (c == doubleQuote) = false := beq_false_of_ne (Ne.symm other)
      rw [List.cons_append, tokensFrom, ReadState.read, letter, List.nil_append]
      simp only [Bool.false_eq_true, ↓reduceIte]
      rw [ih (c :: name) others, List.reverse_cons, List.append_assoc, List.singleton_append]

/-- A name between quotes is read as a quoted name. -/
theorem tokensOf_quoted {name : List Char} (noQuote : doubleQuote ∉ name) {rest : List Char}
    (delimited : Delimited rest) :
    tokensOf (doubleQuote :: name ++ doubleQuote :: rest) =
      .quoted (String.ofList name) :: tokensOf rest := by
  have opened : tokensOf (doubleQuote :: name ++ doubleQuote :: rest) =
      tokensFrom (.within []) (name ++ doubleQuote :: rest) := rfl
  have closed : tokensFrom (.within name.reverse) (doubleQuote :: rest) =
      tokensFrom (.closing name.reverse) rest := rfl
  rw [opened, tokensFrom_within [] noQuote, List.append_nil, closed]
  cases rest with
  | nil => simp [tokensOf, tokensFrom, ReadState.finish, flushWord]
  | cons c rest =>
      obtain ⟨-, other⟩ := delimited c rfl
      simp only [tokensOf, tokensFrom, ReadState.read, beq_false_of_ne other, Bool.false_eq_true,
        ↓reduceIte, List.reverse_reverse, List.cons_append]

/-- The token of a written name. -/
def nameToken (name : String) : Token :=
  if needsQuotes name.toList then .quoted name else .word name

theorem doubleQuotes_of_not_mem {name : List Char} (noQuote : doubleQuote ∉ name) :
    doubleQuotes name = name := by
  induction name with
  | nil => rfl
  | cons c name ih =>
      rw [List.mem_cons, not_or] at noQuote
      obtain ⟨other, others⟩ := noQuote
      have letter : (c == doubleQuote) = false := beq_false_of_ne (Ne.symm other)
      have tail := ih others
      rw [doubleQuotes] at tail ⊢
      rw [List.flatMap_cons, letter, tail]
      rfl

/-- A written name is read as one token. -/
theorem tokensOf_quoteName {name : String} (proper : IsProper name) {rest : List Char}
    (delimited : Delimited rest) :
    tokensOf ((quoteName name).toList ++ rest) = nameToken name :: tokensOf rest := by
  obtain ⟨some, plain⟩ := proper
  have noQuote : doubleQuote ∉ name.toList := by
    intro member
    exact absurd (plain doubleQuote member) (by decide)
  unfold quoteName nameToken
  split
  · rw [doubleQuotes_of_not_mem noQuote, String.toList_ofList, List.append_assoc,
      List.singleton_append, tokensOf_quoted noQuote delimited, String.ofList_toList]
  · exact tokensOf_word some plain delimited

/-- The token of a name gives the name. -/
theorem nameToken_name? (name : String) : (nameToken name).name? = some name := by
  unfold nameToken
  split <;> rfl

theorem nameToken_of_reserved {name : String}
    (reserved : String.ofList (lowered name.toList) ∈ reservedWords) :
    nameToken name = .quoted name := by
  have contained : reservedWords.contains (String.ofList (lowered name.toList)) = true := by
    simpa using reserved
  have quotes : needsQuotes name.toList = true := by
    simp only [needsQuotes, contained, Bool.true_or]
  rw [nameToken, if_pos quotes]

/-- A written name is never read as a capital word. -/
theorem nameToken_ne_word {name keyword : String} (capital : needsQuotes keyword.toList = true) :
    nameToken name ≠ .word keyword := by
  unfold nameToken
  split
  · simp
  next bare =>
    intro same
    cases same
    exact bare capital

theorem nameToken_ne_mark (name : String) (c : Char) : nameToken name ≠ .mark c := by
  unfold nameToken
  split <;> simp

theorem mem_of_mem_flushWord {word : List Char} {token : Token} {name : String} {c : Char}
    (member : token ∈ flushWord word) (named : token.name? = some name)
    (letter : c ∈ name.toList) : c ∈ word := by
  unfold flushWord at member
  split at member
  · exact absurd member List.not_mem_nil
  · rw [List.mem_singleton.mp member] at named
    cases named
    simpa using letter

theorem mem_of_mem_readOutside {word : List Char} {d : Char} {token : Token} {name : String}
    {c : Char} (member : token ∈ (readOutside word d).1) (named : token.name? = some name)
    (letter : c ∈ name.toList) : c ∈ word := by
  unfold readOutside at member
  split at member
  · exact absurd member List.not_mem_nil
  · split at member
    · exact mem_of_mem_flushWord member named letter
    · split at member
      · exact mem_of_mem_flushWord member named letter
      · rcases List.mem_append.mp member with word | mark
        · exact mem_of_mem_flushWord word named letter
        · rw [List.mem_singleton.mp mark] at named
          cases named

theorem letters_readOutside (word : List Char) (d : Char) :
    (readOutside word d).2.letters ⊆ d :: word := by
  unfold readOutside
  split
  · exact List.Subset.refl _
  · split
    · exact List.nil_subset _
    · split <;> exact List.nil_subset _

namespace ReadState

/-- A token that ends holds letters read before. -/
theorem mem_of_mem_read {state : ReadState} {d : Char} {token : Token} {name : String} {c : Char}
    (member : token ∈ (state.read d).1) (named : token.name? = some name)
    (letter : c ∈ name.toList) : c ∈ state.letters := by
  cases state with
  | outside word => exact mem_of_mem_readOutside member named letter
  | within word => exact absurd member List.not_mem_nil
  | closing word =>
      simp only [read] at member
      split at member
      · exact absurd member List.not_mem_nil
      · rcases List.mem_cons.mp member with rfl | outside
        · cases named
          simpa [letters] using letter
        · exact absurd (mem_of_mem_readOutside outside named letter) List.not_mem_nil

/-- The letters kept are those kept before and the one just read. -/
theorem letters_read (state : ReadState) (d : Char) :
    (state.read d).2.letters ⊆ d :: state.letters := by
  cases state with
  | outside word => exact letters_readOutside word d
  | within word =>
      simp only [read]
      split
      · exact List.subset_cons_self d word
      · exact List.Subset.refl _
  | closing word =>
      simp only [read]
      split
      · exact List.Subset.refl _
      · exact List.Subset.trans (letters_readOutside [] d)
          (List.cons_subset_cons d (List.nil_subset word))

end ReadState

/-- The letters of names come from the text, or from what was being read. -/
theorem mem_of_mem_tokensFrom {state : ReadState} {text : List Char} {token : Token} {name : String}
    {c : Char} (member : token ∈ tokensFrom state text) (named : token.name? = some name)
    (letter : c ∈ name.toList) : c ∈ state.letters ∨ c ∈ text := by
  induction text generalizing state with
  | nil =>
      left
      cases state with
      | outside word => exact mem_of_mem_flushWord member named letter
      | within word =>
          rw [List.mem_singleton.mp member] at named
          cases named
          simpa [ReadState.letters] using letter
      | closing word =>
          rw [List.mem_singleton.mp member] at named
          cases named
          simpa [ReadState.letters] using letter
  | cons d rest ih =>
      rcases List.mem_append.mp member with here | later
      · exact Or.inl (ReadState.mem_of_mem_read here named letter)
      · rcases ih later with kept | behind
        · rcases List.mem_cons.mp (state.letters_read d kept) with rfl | before
          · exact Or.inr List.mem_cons_self
          · exact Or.inl before
        · exact Or.inr (List.mem_cons_of_mem d behind)

/-- All that the tokens of a text hold comes from the text. -/
theorem mem_of_mem_tokensOf {text : List Char} {token : Token} {name : String} {c : Char}
    (member : token ∈ tokensOf text) (named : token.name? = some name)
    (letter : c ∈ name.toList) : c ∈ text := by
  rcases mem_of_mem_tokensFrom member named letter with kept | inside
  · exact absurd kept List.not_mem_nil
  · exact inside

end Reporting.Sql
