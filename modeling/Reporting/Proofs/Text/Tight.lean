import Mathlib.Data.List.Basic
import Reporting.Proofs.Text.Words

/-!
# Tight texts

A tight text is made of words with single spaces between them. Collapsing leaves it as it is
(`Tight.collapse`), and it stays tight when another one follows, directly or after a space.
-/

namespace Reporting.Text

/-- Letters only. -/
def Solid (text : List Char) : Prop := ∀ c ∈ text, isBlank c = false

instance (text : List Char) : Decidable (Solid text) :=
  List.decidableBAll (fun c => isBlank c = false) text

/-- Words with single spaces between them. -/
inductive Tight : List Char → Prop where
  | word {word : List Char} (some : word ≠ []) (solid : Solid word) : Tight word
  | cons {word rest : List Char} (some : word ≠ []) (solid : Solid word) (tight : Tight rest) :
      Tight (word ++ ' ' :: rest)

/-- Letters without a blank go on with the word being read. -/
theorem wordsFrom_solid {word : List Char} (letters : List Char) (solid : Solid letters)
    (some : word.reverse ++ letters ≠ []) :
    wordsFrom word letters = [word.reverse ++ letters] := by
  induction letters generalizing word with
  | nil =>
      have letter : word ≠ [] := by simpa using some
      simp only [wordsFrom, List.isEmpty_iff, letter, ↓reduceIte, List.append_nil]
  | cons c rest ih =>
      obtain ⟨first, others⟩ := List.forall_mem_cons.mp solid
      have next : (c :: word).reverse ++ rest = word.reverse ++ c :: rest := by simp
      simp only [wordsFrom, first, Bool.false_eq_true, ↓reduceIte]
      rw [ih others (by simp), next]

/-- Letters without a blank are one word. -/
theorem words_solid {letters : List Char} (some : letters ≠ []) (solid : Solid letters) :
    words letters = [letters] :=
  wordsFrom_solid letters solid some

namespace Tight

variable {text other : List Char}

theorem ne_nil (tight : Tight text) : text ≠ [] := by
  cases tight with
  | word some solid => exact some
  | cons some solid tight => simp

/-- A tight text is collapsed as it is. -/
theorem joinWords_words (tight : Tight text) : joinWords (words text) = text := by
  induction tight with
  | word some solid => rw [words_solid some solid, joinWords]
  | @cons word rest some solid tight ih =>
      have more : words rest ≠ [] := by
        intro none
        rw [none] at ih
        exact tight.ne_nil ih.symm
      rw [words_append_blank _ _ (by decide), words_solid some solid, List.singleton_append,
        joinWords_cons more, ih]

/-- A tight text is left as it is. -/
theorem collapse {text : String} (tight : Tight text.toList) : Text.collapse text = text := by
  rw [Text.collapse, tight.joinWords_words, String.ofList_toList]

/-- A tight text may follow directly. -/
theorem append (tight : Tight text) (tightToo : Tight other) : Tight (text ++ other) := by
  induction tight with
  | @word front some solid =>
      have letter : front ++ other ≠ [] := List.append_ne_nil_of_left_ne_nil some other
      cases tightToo with
      | word _ behind => exact .word letter (List.forall_mem_append.mpr ⟨solid, behind⟩)
      | @cons next rest _ behind tail =>
          rw [← List.append_assoc]
          exact .cons (List.append_ne_nil_of_left_ne_nil some next)
            (List.forall_mem_append.mpr ⟨solid, behind⟩) tail
  | cons some solid _ ih =>
      rw [List.append_assoc, List.cons_append]
      exact .cons some solid ih

/-- Two tight texts with a space between them are tight. -/
theorem append_space (tight : Tight text) (tightToo : Tight other) :
    Tight (text ++ ' ' :: other) := by
  induction tight with
  | word some solid => exact .cons some solid tightToo
  | cons some solid _ ih =>
      rw [List.append_assoc, List.cons_append]
      exact .cons some solid ih

end Tight

/-- Words with single spaces between them are tight. -/
theorem tight_joinWords {pieces : List (List Char)} (some : pieces ≠ [])
    (each : ∀ piece ∈ pieces, piece ≠ [] ∧ Solid piece) : Tight (joinWords pieces) := by
  induction pieces with
  | nil => exact absurd rfl some
  | cons piece rest ih =>
      obtain ⟨⟨letter, solid⟩, others⟩ := List.forall_mem_cons.mp each
      cases rest with
      | nil => exact .word letter solid
      | cons next rest =>
          rw [joinWords_cons (List.cons_ne_nil next rest)]
          exact .cons letter solid (ih (List.cons_ne_nil next rest) others)

/-- A text with words is collapsed to a tight one. -/
theorem tight_collapse {text : String} (some : words text.toList ≠ []) :
    Tight (collapse text).toList := by
  rw [Text.collapse, String.toList_ofList]
  refine tight_joinWords some fun piece member => ?_
  exact ⟨ne_nil_of_mem_wordsFrom member, solid_of_mem_wordsFrom (by simp) member⟩

/-- A text that is collapsed to itself is tight. -/
theorem tight_of_collapse {text : String} (word : HasWord text) (kept : Text.collapse text = text) :
    Tight text.toList := by
  have tight := tight_collapse (words_ne_nil word)
  rwa [kept] at tight

end Reporting.Text
