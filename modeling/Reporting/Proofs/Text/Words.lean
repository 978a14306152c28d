import Mathlib.Data.List.Chain
import Reporting.Text.Blank

/-!
# Words of a text

Collapsing a text keeps its words and nothing else of its blanks. Words do not cross a blank, so a
text can be collapsed piece by piece at its blanks (`collapse_append_space`,
`collapse_append_spaced`), and every character that is not blank stays as often as it was
(`count_collapse`).
-/

namespace Reporting.Text

/-- Does the text hold anything but blanks? -/
def HasWord (text : String) : Prop := ∃ c ∈ text.toList, isBlank c = false

instance (text : String) : Decidable (HasWord text) :=
  List.decidableBEx (fun c => isBlank c = false) text.toList

/-- A blank ends the words in front of it. -/
theorem wordsFrom_append_blank (word : List Char) {before : List Char} {blank : Char}
    (after : List Char) (isBlank : isBlank blank = true) :
    wordsFrom word (before ++ blank :: after) = wordsFrom word before ++ words after := by
  induction before generalizing word with
  | nil =>
      simp only [List.nil_append, wordsFrom, isBlank, ↓reduceIte, words]
      by_cases empty : word.isEmpty
      · simp [empty]
      · simp [empty]
  | cons c rest ih =>
      simp only [List.cons_append, wordsFrom]
      split
      · split
        · exact ih []
        · simp only [ih [], List.cons_append]
      · exact ih (c :: word)

/-- Words end at a blank. -/
theorem words_append_blank (before after : List Char) {blank : Char}
    (isBlank : isBlank blank = true) :
    words (before ++ blank :: after) = words before ++ words after :=
  wordsFrom_append_blank [] after isBlank

/-- A blank in front is part of no word. -/
theorem words_blank_cons {blank : Char} (after : List Char) (isBlank : isBlank blank = true) :
    words (blank :: after) = words after :=
  words_append_blank [] after isBlank

/-- A word that was begun is among the words. -/
theorem wordsFrom_ne_nil_of_letter {word : List Char} (letter : word ≠ []) (rest : List Char) :
    wordsFrom word rest ≠ [] := by
  induction rest generalizing word with
  | nil => simp [wordsFrom, letter]
  | cons c rest ih =>
      simp only [wordsFrom]
      split
      · simp [letter]
      · exact ih (List.cons_ne_nil c word)

/-- A text has words iff it holds anything but blanks. -/
theorem words_ne_nil {text : String} (word : HasWord text) : words text.toList ≠ [] := by
  obtain ⟨c, member, letter⟩ := word
  obtain ⟨before, after, split⟩ := List.append_of_mem member
  rw [split]
  clear split member
  induction before with
  | nil =>
      simp only [List.nil_append, words, wordsFrom, letter, Bool.false_eq_true, ↓reduceIte]
      exact wordsFrom_ne_nil_of_letter (List.cons_ne_nil c []) after
  | cons d before ih =>
      simp only [List.cons_append, words, wordsFrom]
      split
      · exact ih
      · exact wordsFrom_ne_nil_of_letter (List.cons_ne_nil d []) _

theorem joinWords_cons {word : List Char} {rest : List (List Char)} (more : rest ≠ []) :
    joinWords (word :: rest) = word ++ ' ' :: joinWords rest := by
  cases rest with
  | nil => exact absurd rfl more
  | cons next rest => rfl

/-- Two parts of the words are joined by a space like any two words. -/
theorem joinWords_append {front back : List (List Char)} (some : front ≠ []) (more : back ≠ []) :
    joinWords (front ++ back) = joinWords front ++ ' ' :: joinWords back := by
  induction front with
  | nil => exact absurd rfl some
  | cons word front ih =>
      cases front with
      | nil => exact joinWords_cons more
      | cons next front =>
          rw [List.cons_append, joinWords_cons (by simp), ih (List.cons_ne_nil next front),
            joinWords_cons (List.cons_ne_nil next front)]
          simp only [List.append_assoc, List.cons_append]

/-- The characters of the words joined, in the order of the text. -/
theorem filter_joinWords_wordsFrom (word text : List Char) (kept : Char → Bool)
    (space : kept ' ' = false) (blanks : ∀ c, isBlank c = true → kept c = false) :
    (joinWords (wordsFrom word text)).filter kept = (word.reverse ++ text).filter kept := by
  induction text generalizing word with
  | nil =>
      by_cases empty : word = []
      · simp [wordsFrom, empty, joinWords]
      · simp [wordsFrom, empty, joinWords]
  | cons c rest ih =>
      simp only [wordsFrom]
      split
      next blank =>
        have dropped := blanks c blank
        split
        next empty =>
          rw [ih []]
          simp [List.isEmpty_iff.mp empty, dropped]
        next _ =>
          by_cases none : wordsFrom [] rest = []
          · have tail := ih []
            rw [none] at tail ⊢
            simp only [joinWords, List.filter_nil, List.reverse_nil, List.nil_append] at tail
            simp [joinWords, dropped, ← tail]
          · rw [joinWords_cons none]
            simp [space, dropped, ih []]
      next _ => simp [ih (c :: word)]

/-- Collapsing neither adds nor removes characters that are not blank. -/
theorem count_collapse {c : Char} (solid : isBlank c = false) (text : String) :
    (collapse text).toList.count c = text.toList.count c := by
  have kept := filter_joinWords_wordsFrom [] text.toList (· == c)
    (by simp; rintro rfl; exact absurd solid (by decide))
    (by intro d blank; simp; rintro rfl; simp [blank] at solid)
  have lengths := congrArg List.length kept
  rw [← List.countP_eq_length_filter, ← List.countP_eq_length_filter] at lengths
  simpa [collapse, words, List.count] using lengths

/-- Words hold no blanks. -/
theorem solid_of_mem_wordsFrom {word text piece : List Char}
    (solid : ∀ c ∈ word, isBlank c = false) (member : piece ∈ wordsFrom word text) :
    ∀ c ∈ piece, isBlank c = false := by
  induction text generalizing word with
  | nil =>
      by_cases empty : word = []
      · simp [wordsFrom, empty] at member
      · simp only [wordsFrom, List.isEmpty_iff, empty, ↓reduceIte, List.mem_singleton] at member
        simpa [member] using solid
  | cons d rest ih =>
      simp only [wordsFrom] at member
      split at member
      · split at member
        · exact ih (by simp) member
        · rcases List.mem_cons.mp member with rfl | later
          · simpa using solid
          · exact ih (by simp) later
      next letter =>
        refine ih ?_ member
        simpa [letter] using solid

theorem ne_nil_of_mem_wordsFrom {word text piece : List Char}
    (member : piece ∈ wordsFrom word text) : piece ≠ [] := by
  induction text generalizing word with
  | nil =>
      by_cases empty : word = []
      · simp [wordsFrom, empty] at member
      · simp only [wordsFrom, List.isEmpty_iff, empty, ↓reduceIte, List.mem_singleton] at member
        simpa [member] using empty
  | cons d rest ih =>
      simp only [wordsFrom] at member
      split at member
      · split at member
        · exact ih member
        next letter =>
          rcases List.mem_cons.mp member with rfl | later
          · simpa using letter
          · exact ih later
      · exact ih member

/-- Joined words hold their letters and spaces. -/
theorem mem_joinWords {c : Char} {pieces : List (List Char)} (member : c ∈ joinWords pieces) :
    c = ' ' ∨ ∃ piece ∈ pieces, c ∈ piece := by
  induction pieces with
  | nil => exact absurd member List.not_mem_nil
  | cons piece rest ih =>
      by_cases last : rest = []
      · subst last
        exact Or.inr ⟨piece, List.mem_cons_self, member⟩
      · rw [joinWords_cons last, List.mem_append, List.mem_cons] at member
        rcases member with here | rfl | later
        · exact Or.inr ⟨piece, List.mem_cons_self, here⟩
        · exact Or.inl rfl
        · rcases ih later with space | ⟨other, found, holds⟩
          · exact Or.inl space
          · exact Or.inr ⟨other, List.mem_cons_of_mem piece found, holds⟩

/-- Of the blanks, a collapsed text holds spaces only. -/
theorem mem_collapse {c : Char} {text : String} (member : c ∈ (collapse text).toList) :
    c = ' ' ∨ isBlank c = false := by
  rw [collapse, String.toList_ofList] at member
  rcases mem_joinWords member with space | ⟨piece, found, holds⟩
  · exact Or.inl space
  · exact Or.inr (solid_of_mem_wordsFrom (by simp) found c holds)

/-- What every two neighbours keep, where a space may stand in front of and behind anything. -/
theorem isChain_joinWords_wordsFrom {R : Char → Char → Prop} (before : ∀ c, R c ' ')
    (behind : ∀ c, R ' ' c) {word text : List Char} (chain : (word.reverse ++ text).IsChain R) :
    (joinWords (wordsFrom word text)).IsChain R := by
  induction text generalizing word with
  | nil =>
      rw [List.append_nil] at chain
      unfold wordsFrom
      split
      · exact .nil
      · exact chain
  | cons c rest ih =>
      have tail : ([].reverse ++ rest).IsChain R := chain.right_of_append.tail
      unfold wordsFrom
      split
      · split
        · exact ih tail
        · have front : word.reverse.IsChain R := chain.left_of_append
          by_cases last : wordsFrom [] rest = []
          · rw [last]
            exact front
          · rw [joinWords_cons last]
            refine front.append ((ih tail).cons fun d _ => behind d) ?_
            intro d _ e first
            obtain rfl : ' ' = e := by simpa using first
            exact before d
      · refine ih ?_
        rw [List.reverse_cons, List.append_assoc, List.singleton_append]
        exact chain

/-- What holds of all neighbours in a text holds of them in the collapsed one. -/
theorem isChain_collapse {R : Char → Char → Prop} (before : ∀ c, R c ' ') (behind : ∀ c, R ' ' c)
    {text : String} (chain : text.toList.IsChain R) : (collapse text).toList.IsChain R := by
  rw [collapse, String.toList_ofList]
  exact isChain_joinWords_wordsFrom before behind chain

/-- A text is collapsed in front of a space and behind it. -/
theorem collapse_append_space {before after : String} (front : HasWord before)
    (back : HasWord after) :
    collapse (before ++ " " ++ after) = collapse before ++ " " ++ collapse after := by
  apply String.toList_inj.mp
  simp only [collapse, String.toList_append, String.toList_ofList, List.append_assoc]
  change joinWords (words (before.toList ++ ' ' :: after.toList)) = _
  rw [words_append_blank _ _ (by decide), joinWords_append (words_ne_nil front) (words_ne_nil back)]
  rfl

/-- What a text that starts with a space adds to a collapsed one. -/
def collapseAfter (text : String) : String :=
  if (words text.toList).isEmpty then "" else " " ++ collapse text

theorem collapseAfter_empty : collapseAfter "" = "" := rfl

/-- A space in front is dropped. -/
theorem collapse_space (text : String) : collapse (" " ++ text) = collapse text := by
  simp only [collapse, String.toList_append]
  change String.ofList (joinWords (words (' ' :: text.toList))) = _
  rw [words_blank_cons _ (by decide)]

/-- Behind another text a space in front is kept, if a word follows. -/
theorem collapseAfter_space {text : String} (word : HasWord text) :
    collapseAfter (" " ++ text) = " " ++ collapse text := by
  have some : words (" " ++ text).toList ≠ [] := by
    simp only [String.toList_append]
    change words (' ' :: text.toList) ≠ []
    rw [words_blank_cons _ (by decide)]
    exact words_ne_nil word
  rw [collapseAfter, if_neg (by simpa using some), collapse_space]

theorem HasWord.append_left {before : String} (front : HasWord before) (after : String) :
    HasWord (before ++ after) := by
  obtain ⟨c, member, solid⟩ := front
  exact ⟨c, by simp [member], solid⟩

theorem HasWord.append_right {after : String} (before : String) (back : HasWord after) :
    HasWord (before ++ after) := by
  obtain ⟨c, member, solid⟩ := back
  exact ⟨c, by simp [member], solid⟩

/-- Nothing, or a space in front of a text with words. -/
def Spaced (text : String) : Prop := text = "" ∨ ∃ body, HasWord body ∧ text = " " ++ body

/-- A text is collapsed in front of a spaced one and behind its end. -/
theorem collapse_append_spaced {before after : String} (front : HasWord before)
    (spaced : Spaced after) :
    collapse (before ++ after) = collapse before ++ collapseAfter after := by
  rcases spaced with rfl | ⟨body, back, rfl⟩
  · rw [collapseAfter_empty, String.append_empty, String.append_empty]
  · rw [collapseAfter_space back, ← String.append_assoc, collapse_append_space front back,
      String.append_assoc]

/-- Texts with a word between neighbours are collapsed one by one. -/
theorem collapse_intercalate {word : String} (solid : HasWord word) (kept : collapse word = word)
    {texts : List String} (each : ∀ text ∈ texts, HasWord text) :
    collapse ((" " ++ word ++ " ").intercalate texts) =
      (" " ++ word ++ " ").intercalate (texts.map collapse) := by
  induction texts with
  | nil => rfl
  | cons text rest ih =>
      have first := each text List.mem_cons_self
      have others : ∀ other ∈ rest, HasWord other :=
        fun other member => each other (List.mem_cons_of_mem text member)
      cases rest with
      | nil => simp only [String.intercalate_singleton, List.map_cons, List.map_nil]
      | cons next rest =>
          have tail : HasWord ((" " ++ word ++ " ").intercalate (next :: rest)) := by
            cases rest with
            | nil =>
                rw [String.intercalate_singleton]
                exact others next List.mem_cons_self
            | cons _ _ =>
                rw [String.intercalate_cons_cons, String.append_assoc]
                exact (others next List.mem_cons_self).append_left _
          have regroup (front back : String) :
              front ++ (" " ++ word ++ " ") ++ back = front ++ " " ++ (word ++ " " ++ back) := by
            simp only [String.append_assoc]
          rw [String.intercalate_cons_cons, regroup,
            collapse_append_space first (tail.append_right (word ++ " ")),
            collapse_append_space solid tail, kept, ih others]
          simp only [List.map_cons, String.intercalate_cons_cons, regroup]

end Reporting.Text
