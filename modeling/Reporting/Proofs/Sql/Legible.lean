import Reporting.Proofs.Sql.Sections
import Reporting.Proofs.Sql.Statement
import Reporting.Proofs.Text.Tight

/-!
# Legible texts

A text is `Legible` as certain tokens if it holds single spaces only and is read as these tokens
whatever delimited text follows. Legible texts may be put next to each other with a space or a mark
between them, a list of them may be written with separators (`Legible.intercalate`), and a clause
may follow (`Legible.clause`).
-/

namespace Reporting.Sql

open Text

theorem IsPlain.solid {name : String} (plain : IsPlain name) : Solid name.toList :=
  fun c member => isBlank_of_isNameChar (plain c member)

/-- A plain name is written without blanks. -/
theorem IsPlain.solid_quoteName {name : String} (plain : IsPlain name) :
    Solid (quoteName name).toList := by
  intro c member
  rcases mem_quoteName member with letter | rfl
  · exact plain.solid c letter
  · decide

/-- A text without superfluous blanks that is read as certain tokens, whatever follows. -/
structure Legible (text : String) (tokens : List Token) : Prop where
  tight : Tight text.toList
  read : ∀ rest, Delimited rest → tokensOf (text.toList ++ rest) = tokens ++ tokensOf rest

namespace Legible

variable {text other : String} {tokens others : List Token}

/-- A legible text is read as its tokens. -/
theorem tokensOf_eq (legible : Legible text tokens) : tokensOf text.toList = tokens := by
  have whole := legible.read [] fun c first => by cases first
  rwa [List.append_nil, show tokensOf [] = [] from rfl, List.append_nil] at whole

/-- A proper name without quotes is one token. -/
theorem word {name : String} (proper : IsProper name) : Legible name [.word name] where
  tight := .word (by simpa using proper.1) proper.2.solid
  read _ delimited := tokensOf_word proper.1 proper.2 delimited

/-- A written name is one token. -/
theorem name {name : String} (proper : IsProper name) :
    Legible (quoteName name) [nameToken name] where
  tight := by
    obtain ⟨c, member, -⟩ := hasWord_quoteName proper.isName
    exact .word (List.ne_nil_of_mem member) proper.2.solid_quoteName
  read _ delimited := tokensOf_quoteName proper delimited

theorem mark {c : Char} (mark : IsMark c) : Legible (String.singleton c) [.mark c] where
  tight := .word (by simp) (by simpa [Solid] using mark.noBlank)
  read rest _ := by simpa using tokensOf_mark mark rest

/-- Legible texts with a space between them are legible. -/
theorem space (front : Legible text tokens) (back : Legible other others) :
    Legible (text ++ " " ++ other) (tokens ++ others) where
  tight := by
    have letters : (text ++ " " ++ other).toList = text.toList ++ ' ' :: other.toList := by simp
    rw [letters]
    exact front.tight.append_space back.tight
  read rest delimited := by
    have letters : (text ++ " " ++ other).toList ++ rest =
        text.toList ++ ' ' :: (other.toList ++ rest) := by simp
    rw [letters, front.read _ (delimited_space _), tokensOf_space, back.read rest delimited,
      List.append_assoc]

/-- A mark may stand in front. -/
theorem mark_append {c : Char} (mark : IsMark c) (back : Legible text tokens) :
    Legible (String.singleton c ++ text) (.mark c :: tokens) where
  tight := by
    rw [String.toList_append]
    exact (Legible.mark mark).tight.append back.tight
  read rest delimited := by
    have letters : (String.singleton c ++ text).toList ++ rest = c :: (text.toList ++ rest) := by
      simp
    rw [letters, tokensOf_mark mark, back.read rest delimited, List.cons_append]

/-- A text that starts with a mark may follow directly. -/
theorem append (front : Legible text tokens) (back : Legible other others) {c : Char}
    (mark : IsMark c) {behind : List Char} (start : other.toList = c :: behind) :
    Legible (text ++ other) (tokens ++ others) where
  tight := by
    rw [String.toList_append]
    exact front.tight.append back.tight
  read rest delimited := by
    have stop : Delimited (other.toList ++ rest) := by
      rw [start, List.cons_append]
      exact mark.delimited _
    rw [String.toList_append, List.append_assoc, front.read _ stop, back.read rest delimited,
      List.append_assoc]

/-- A mark may follow. -/
theorem append_mark {c : Char} (front : Legible text tokens) (mark : IsMark c) :
    Legible (text ++ String.singleton c) (tokens ++ [.mark c]) :=
  front.append (.mark mark) mark (String.toList_singleton c)

/-- A mark may stand in between. -/
theorem joint {c : Char} (front : Legible text tokens) (mark : IsMark c)
    (back : Legible other others) :
    Legible (text ++ (String.singleton c ++ other)) (tokens ++ .mark c :: others) :=
  front.append (mark_append mark back) mark
    (by rw [String.toList_append, String.toList_singleton, List.singleton_append])

/-- A legible text in brackets is legible. -/
theorem brackets (inner : Legible text tokens) :
    Legible ("(" ++ text ++ ")") (.mark '(' :: tokens ++ [.mark ')']) :=
  (mark_append isMark_opening inner).append_mark isMark_closing

/-- A label may follow. -/
theorem labelled {label : String} (front : Legible text tokens) (proper : IsProper label) :
    Legible (text ++ " AS " ++ quoteName label) (tokens ++ [.word "AS", nameToken label]) := by
  have keyword : Legible "AS" [.word "AS"] := .word (by decide)
  have texts : text ++ " AS " ++ quoteName label =
      text ++ " " ++ ("AS" ++ " " ++ quoteName label) := by
    simp only [String.append_assoc]
    rfl
  rw [texts]
  exact front.space (keyword.space (name proper))

/-- A text without quotes is legible when collapsing leaves it as it is. -/
theorem of_collapse (some : HasWord text) (kept : collapse text = text)
    (noQuote : doubleQuote ∉ text.toList) (read : tokensOf text.toList = tokens) :
    Legible text tokens where
  tight := tight_of_collapse some kept
  read rest delimited := by
    rw [← read]
    exact tokensFrom_append noQuote [] delimited

/-- A separator that may stand between two legible texts. -/
def Separates (separator : String) (mark : Token) : Prop :=
  ∀ {text other : String} {tokens others : List Token}, Legible text tokens →
    Legible other others → Legible (text ++ separator ++ other) (tokens ++ mark :: others)

theorem separates_comma : Separates ", " (.mark ',') := by
  intro text other tokens others front back
  have joined := (front.append_mark isMark_comma).space back
  rw [List.append_assoc] at joined
  have texts : text ++ ", " ++ other = text ++ String.singleton ',' ++ " " ++ other := by
    simp only [String.append_assoc]
    rfl
  rw [texts]
  exact joined

theorem separates_and : Separates " AND " (.word "AND") := by
  intro text other tokens others front back
  have keyword : IsProper "AND" := by decide
  have joined := front.space ((word keyword).space back)
  have texts : text ++ " AND " ++ other = text ++ " " ++ ("AND" ++ " " ++ other) := by
    simp only [String.append_assoc]
    rfl
  rw [texts]
  exact joined

/-- A list of legible texts is read entry by entry. -/
theorem intercalate {α : Type} {separator : String} {mark : Token}
    (separates : Separates separator mark) {shown : α → String} {reading : α → List Token}
    {items : List α} (some : items ≠ [])
    (each : ∀ item ∈ items, Legible (shown item) (reading item)) :
    Legible (separator.intercalate (items.map shown)) ([mark].intercalate (items.map reading)) := by
  induction items with
  | nil => exact absurd rfl some
  | cons first rest ih =>
      obtain ⟨here, behind⟩ := List.forall_mem_cons.mp each
      cases rest with
      | nil => simpa using here
      | cons second rest =>
          have tail := separates here (ih (List.cons_ne_nil second rest) behind)
          simpa [String.intercalate_cons_cons, List.intercalate_cons_cons] using tail

/-- A clause may follow, or be left out. -/
theorem clause {α : Type} {start heading separator : String} {words : List Token} {mark : Token}
    (front : Legible text tokens) (headed : Legible heading (.word start :: words))
    (separates : Separates separator mark) {shown : α → String} {reading : α → List Token}
    (items : List α) (each : ∀ item ∈ items, Legible (shown item) (reading item)) :
    Legible (text ++ Sql.clause (" " ++ heading ++ " ") separator (items.map shown))
      (tokens ++ Clause.tokens ⟨start, listBody words mark (items.map reading)⟩) := by
  cases items with
  | nil => simpa [Sql.clause, Clause.tokens, listBody] using front
  | cons item rest =>
      have joined := front.space
        (headed.space (intercalate separates (List.cons_ne_nil item rest) each))
      have texts : text ++ Sql.clause (" " ++ heading ++ " ") separator ((item :: rest).map shown) =
          text ++ " " ++ (heading ++ " " ++ separator.intercalate ((item :: rest).map shown)) := by
        simp only [Sql.clause, List.map_cons, List.isEmpty_cons, Bool.false_eq_true, ↓reduceIte,
          String.append_assoc]
      rw [texts]
      exact joined

end Legible

end Reporting.Sql
