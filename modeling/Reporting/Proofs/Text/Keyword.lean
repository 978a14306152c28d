import Reporting.Proofs.Text.Tight
import Reporting.Proofs.Text.UpperCase
import Reporting.Text.Keyword

/-!
# Keywords are their own keywords

Upper case may put several characters in the place of one, but it neither removes a word nor cuts
one, and it leaves the single spaces between words alone. So what is collapsed stays collapsed in
upper case, and the keyword of a text is its own keyword (`keyword_keyword`).
-/

namespace Reporting.Text

/-- Words stay words where every letter is rewritten to letters. -/
theorem Tight.flatMap {f : Char → List Char} (space : f ' ' = [' '])
    (letters : ∀ c, isBlank c = false → f c ≠ [] ∧ Solid (f c)) {text : List Char}
    (tight : Tight text) : Tight (text.flatMap f) := by
  have rewritten {word : List Char} (some : word ≠ []) (solid : Solid word) :
      word.flatMap f ≠ [] ∧ Solid (word.flatMap f) := by
    constructor
    · obtain ⟨first, rest, rfl⟩ := List.exists_cons_of_ne_nil some
      rw [List.flatMap_cons]
      exact List.append_ne_nil_of_left_ne_nil (letters first (solid first List.mem_cons_self)).1 _
    · intro d member
      obtain ⟨c, listed, holds⟩ := List.mem_flatMap.mp member
      exact (letters c (solid c listed)).2 d holds
  induction tight with
  | word some solid => exact .word (rewritten some solid).1 (rewritten some solid).2
  | cons some solid tight ih =>
      rw [List.flatMap_append, List.flatMap_cons, space, List.singleton_append]
      exact .cons (rewritten some solid).1 (rewritten some solid).2 ih

/-- What is collapsed stays collapsed in upper case. -/
theorem collapse_keyword (text : String) : collapse (keyword text) = keyword text := by
  by_cases none : words text.toList = []
  · have empty : collapse text = "" := by
      rw [collapse, none]
      rfl
    rw [keyword, empty]
    rfl
  · refine Tight.collapse ?_
    rw [keyword, upper, String.toList_ofList]
    refine (tight_collapse none).flatMap (upperChar_of_isBlank (by decide)) fun c letter => ?_
    exact ⟨upperChar_ne_nil c, fun d member => isBlank_of_mem_upperChar member letter⟩

/-- The keyword of a text is its own keyword. -/
theorem keyword_keyword (text : String) : keyword (keyword text) = keyword text := by
  rw [keyword, collapse_keyword, keyword, upper_upper]

end Reporting.Text
