import Mathlib
import Reporting.Json.Canonical
import Reporting.Proofs.Number.Shortest
import Reporting.Proofs.Value.Same

/-!
# Bare words of canonical text

Null, truth values and finite numbers are written bare. Such a word holds no delimiter, so where a
delimiter or nothing stands behind it, the text determines the word (`word_append_inj`), and the
word the value (`same_of_word`).
-/

namespace Reporting.Json

open Text

/-- The characters that end a bare word. -/
def isDelimiter (c : Char) : Bool := c == ',' || c == ']' || c == '\x7d'

/-- Nothing, or a delimiter first. -/
def Delimited (rest : List Char) : Prop := ∀ c ∈ rest.head?, isDelimiter c = true

/-- The characters of bare words. -/
def isWordChar (c : Char) : Bool := isNumeralChar c || "nultrefas".toList.contains c

/-- No character of a word is a delimiter. -/
theorem isDelimiter_of_word {c : Char} (word : isWordChar c = true) : isDelimiter c = false := by
  by_contra ends
  rw [Bool.not_eq_false, isDelimiter, Bool.or_eq_true, Bool.or_eq_true, beq_iff_eq, beq_iff_eq,
    beq_iff_eq] at ends
  obtain (rfl | rfl) | rfl := ends
  · exact absurd word (by decide)
  · exact absurd word (by decide)
  · exact absurd word (by decide)

/-- The characters that texts, lists and objects begin with. -/
def isOpening (c : Char) : Bool := c == '\x22' || c == '[' || c == '\x7b'

/-- No character of a word opens a text, a list or an object. -/
theorem isOpening_of_word {c : Char} (word : isWordChar c = true) : isOpening c = false := by
  by_contra opens
  rw [Bool.not_eq_false, isOpening, Bool.or_eq_true, Bool.or_eq_true, beq_iff_eq, beq_iff_eq,
    beq_iff_eq] at opens
  obtain (rfl | rfl) | rfl := opens
  · exact absurd word (by decide)
  · exact absurd word (by decide)
  · exact absurd word (by decide)

/-- In front of a delimiter a word ends. -/
theorem takeWhile_word {word rest : List Char} (isWord : ∀ c ∈ word, isWordChar c = true)
    (ended : Delimited rest) : (word ++ rest).takeWhile (!isDelimiter ·) = word := by
  have inside : ∀ c ∈ word, (!isDelimiter c) = true :=
    fun c member => congrArg not (isDelimiter_of_word (isWord c member))
  rw [List.takeWhile_append_of_pos inside]
  cases rest with
  | nil => exact List.append_nil word
  | cons c rest =>
      have ends : isDelimiter c = true := ended c rfl
      rw [List.takeWhile_cons_of_neg (by simp [ends]), List.append_nil]

/-- A word and what stands behind it are determined by the text. -/
theorem word_append_inj {word other rest otherRest : List Char}
    (isWord : ∀ c ∈ word, isWordChar c = true) (isWordToo : ∀ c ∈ other, isWordChar c = true)
    (ended : Delimited rest) (endedToo : Delimited otherRest)
    (same : word ++ rest = other ++ otherRest) : word = other ∧ rest = otherRest := by
  have words : word = other := by
    rw [← takeWhile_word isWord ended, same, takeWhile_word isWordToo endedToo]
  subst words
  exact ⟨rfl, List.append_cancel_left same⟩

/-- The text of an integer: digits, and a minus sign at most. -/
theorem chars_of_int (n : Int) :
    ∀ c ∈ (toString n).toList, isAsciiDigit c = true ∨ c = '-' := by
  intro c member
  cases n with
  | ofNat n =>
      change c ∈ n.repr.toList at member
      rw [Nat.toList_repr] at member
      exact Or.inl (isAsciiDigit_of_mem_toDigits member)
  | negSucc n =>
      change c ∈ ("-" ++ (n + 1).repr).toList at member
      rw [String.toList_append, Nat.toList_repr] at member
      rcases List.mem_append.mp member with sign | digit
      · exact Or.inr (List.mem_singleton.mp sign)
      · exact Or.inl (isAsciiDigit_of_mem_toDigits digit)

/-- A value that is written as a bare word. -/
inductive IsBare : Value → Prop
  | null : IsBare .null
  | bool (b : Bool) : IsBare (.bool b)
  | int (n : Int) : IsBare (.int n)
  | float {x : Double} (finite : x.isFinite = true) : IsBare (.float x)

/-- An integer is written by its digits. -/
theorem write_int (n : Int) : write (.int n) = (toString n).toList := by
  rw [write, writeScalar]

/-- A finite double is written by its shortest text. -/
theorem write_float {x : Double} (finite : x.isFinite = true) :
    write (.float x) = x.text.toList := by
  rw [write, writeScalar, if_pos finite]

/-- An integer is written with the characters of numbers. -/
theorem numeral_of_int (n : Int) : ∀ c ∈ write (.int n), isNumeralChar c = true := by
  rw [write_int]
  intro c member
  rcases chars_of_int n c member with digit | rfl
  · exact isNumeralChar_of_digit digit
  · rfl

/-- So is a finite double. -/
theorem numeral_of_float {x : Double} (finite : x.isFinite = true) :
    ∀ c ∈ write (.float x), isNumeralChar c = true := by
  rw [write_float finite]
  exact (Double.text_chars finite).1

/-- What is written without quotes and brackets has the characters of words. -/
theorem word_of_isBare {value : Value} (bare : IsBare value) :
    ∀ c ∈ write value, isWordChar c = true := by
  have word {c : Char} (numeral : isNumeralChar c = true) : isWordChar c = true := by
    rw [isWordChar, numeral]
    rfl
  cases bare with
  | null => exact List.all_eq_true.mp (by decide)
  | bool b => cases b <;> exact List.all_eq_true.mp (by decide)
  | int n => exact fun c member => word (numeral_of_int n c member)
  | float finite => exact fun c member => word (numeral_of_float finite c member)

theorem write_ne_nil {value : Value} (bare : IsBare value) : write value ≠ [] := by
  cases bare with
  | null => exact List.cons_ne_nil _ _
  | bool b => cases b <;> exact List.cons_ne_nil _ _
  | int n =>
      rw [write_int]
      cases n with
      | ofNat n =>
          change n.repr.toList ≠ []
          rw [Nat.toList_repr]
          exact Nat.toDigits_ne_nil
      | negSucc n =>
          change ("-" ++ (n + 1).repr).toList ≠ []
          rw [String.toList_append]
          exact List.cons_ne_nil _ _
  | float finite =>
      rw [write_float finite]
      rcases (Double.text_chars finite).2 with point | letter
      · exact List.ne_nil_of_mem point
      · exact List.ne_nil_of_mem letter

/-- An integer is not written with a point or an exponent. -/
theorem int_ne_float (n : Int) {x : Double} (finite : x.isFinite = true) :
    write (.int n) ≠ write (.float x) := by
  intro same
  rw [write_int, write_float finite] at same
  have plain {c : Char} (member : c ∈ x.text.toList) : isAsciiDigit c = true ∨ c = '-' :=
    chars_of_int n c (same ▸ member)
  rcases (Double.text_chars finite).2 with point | letter
  · exact absurd (plain point) (by decide)
  · exact absurd (plain letter) (by decide)

/-- Null and the truth values are written with letters that no number has. -/
theorem exists_letter {value : Value} (word : value = .null ∨ ∃ b, value = .bool b) :
    ∃ c ∈ write value, isNumeralChar c = false := by
  rcases word with rfl | ⟨b, rfl⟩
  · exact ⟨'n', by decide, by decide⟩
  · cases b with
    | true => exact ⟨'t', by decide, by decide⟩
    | false => exact ⟨'f', by decide, by decide⟩

/-- No word is written like a number. -/
theorem word_ne_number {value number : Value} (word : value = .null ∨ ∃ b, value = .bool b)
    (numeral : ∀ c ∈ write number, isNumeralChar c = true) : write value ≠ write number := by
  obtain ⟨c, member, letter⟩ := exists_letter word
  intro same
  exact absurd (numeral c (same ▸ member)) (by rw [letter]; exact Bool.false_ne_true)

/-- A bare word determines its value. -/
theorem same_of_word {value other : Value} (bare : IsBare value) (bareToo : IsBare other)
    (same : write value = write other) : value.Same other := by
  cases bare with
  | null =>
      cases bareToo with
      | null => exact .null
      | bool b => cases b <;> cases same
      | int n => exact absurd same (word_ne_number (Or.inl rfl) (numeral_of_int n))
      | float finite => exact absurd same (word_ne_number (Or.inl rfl) (numeral_of_float finite))
  | bool b =>
      have word : Value.bool b = .null ∨ ∃ c, Value.bool b = .bool c := Or.inr ⟨b, rfl⟩
      cases bareToo with
      | null => cases b <;> cases same
      | bool c =>
          cases b <;> cases c
          · exact .scalar _
          · cases same
          · cases same
          · exact .scalar _
      | int n => exact absurd same (word_ne_number word (numeral_of_int n))
      | float finite => exact absurd same (word_ne_number word (numeral_of_float finite))
  | int n =>
      cases bareToo with
      | null => exact absurd same.symm (word_ne_number (Or.inl rfl) (numeral_of_int n))
      | bool b => exact absurd same.symm (word_ne_number (Or.inr ⟨b, rfl⟩) (numeral_of_int n))
      | int m =>
          rw [write_int, write_int] at same
          rw [Int.repr_injective (String.toList_injective same)]
          exact .scalar _
      | float finite => exact absurd same (int_ne_float n finite)
  | float finite =>
      cases bareToo with
      | null => exact absurd same.symm (word_ne_number (Or.inl rfl) (numeral_of_float finite))
      | bool b =>
          exact absurd same.symm (word_ne_number (Or.inr ⟨b, rfl⟩) (numeral_of_float finite))
      | int m => exact absurd same.symm (int_ne_float m finite)
      | float finiteToo =>
          rw [write_float finite, write_float finiteToo] at same
          exact .float (String.toList_injective same)

end Reporting.Json
