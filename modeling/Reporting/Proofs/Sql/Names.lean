import Mathlib.Data.List.Basic
import Reporting.Proofs.Outcome
import Reporting.Proofs.Text.Words
import Reporting.Sql.Name

/-!
# Vetted names

What vetting lets through (`vetIdentifier_eq_ok`, `vetLabel_eq_ok`) and which characters such a name
can bring into a statement: no placeholder, no quote, and no blank but one line feed at its end. A
plain name is made of ASCII letters, digits and underscores alone.
-/

namespace Reporting.Sql

open Text

/-- An identifier that vetting lets through. -/
def IsName (name : String) : Prop := isIdentifier name.toList = true

instance (name : String) : Decidable (IsName name) := inferInstanceAs (Decidable (_ = true))

/-- ASCII letters, digits and underscores only. -/
def IsPlain (name : String) : Prop := ∀ c ∈ name.toList, isNameChar c = true

instance (name : String) : Decidable (IsPlain name) :=
  List.decidableBAll (fun c => isNameChar c = true) name.toList

/-- A name character stands between the digit zero and the letter z. -/
theorem isNameChar_bounds {c : Char} (letter : isNameChar c = true) :
    (48 ≤ c.toNat ∧ c.toNat ≤ 57) ∨ (65 ≤ c.toNat ∧ c.toNat ≤ 90) ∨ c.toNat = 95 ∨
      (97 ≤ c.toNat ∧ c.toNat ≤ 122) := by
  simp only [isNameChar, isLetter, isAsciiDigit, Bool.or_eq_true, Bool.and_eq_true,
    decide_eq_true_eq, beq_iff_eq] at letter
  rcases letter with ((upper | lower) | digit) | rfl
  · omega
  · omega
  · omega
  · decide

/-- No character of a plain name is blank. -/
theorem isBlank_of_isNameChar {c : Char} (letter : isNameChar c = true) : isBlank c = false := by
  have bounds := isNameChar_bounds letter
  simp only [isBlank, Bool.or_eq_false_iff, Bool.and_eq_false_iff, decide_eq_false_iff_not,
    beq_eq_false_iff_ne]
  omega

theorem mem_dropFinalNewline {c : Char} {text : List Char} (member : c ∈ text) :
    c ∈ dropFinalNewline text ∨ c = '\n' := by
  unfold dropFinalNewline
  split
  next final =>
    obtain ⟨front, rfl⟩ := List.getLast?_eq_some_iff.mp final
    rw [List.dropLast_concat]
    simpa [or_comm] using member
  next _ => exact Or.inl member

theorem dropFinalNewline_of_not_mem {text : List Char} (without : '\n' ∉ text) :
    dropFinalNewline text = text := by
  unfold dropFinalNewline
  split
  next final => exact absurd (List.mem_of_getLast? final) without
  next _ => rfl

/-- A text is what is left without its last line feed, or that with one behind it. -/
theorem eq_dropFinalNewline (text : List Char) :
    text = dropFinalNewline text ∨ text = dropFinalNewline text ++ ['\n'] := by
  unfold dropFinalNewline
  split
  next final =>
    obtain ⟨front, rfl⟩ := List.getLast?_eq_some_iff.mp final
    exact Or.inr (by rw [List.dropLast_concat])
  next _ => exact Or.inl rfl

theorem dropFinalNewline_concat (text : List Char) : dropFinalNewline (text ++ ['\n']) = text := by
  rw [dropFinalNewline, List.getLast?_concat, if_pos rfl, List.dropLast_concat]

/-- An identifier is made of name characters and points; a line feed may follow. -/
def IsIdentifierText (name : String) : Prop :=
  ∃ body, (name.toList = body ∨ name.toList = body ++ ['\n']) ∧ body ≠ [] ∧
    ∀ c ∈ body, isNameChar c = true ∨ c = '.'

/-- A label is made of name characters and does not start with a digit; a line feed may follow. -/
def IsLabelText (label : String) : Prop :=
  ∃ first rest, (label.toList = first :: rest ∨ label.toList = first :: rest ++ ['\n']) ∧
    (isLetter first = true ∨ first = '_') ∧ ∀ c ∈ rest, isNameChar c = true

/-- A label as it is documented: no line feed follows. -/
def IsPlainLabel (label : String) : Prop :=
  ∃ first rest, label.toList = first :: rest ∧
    (isLetter first = true ∨ first = '_') ∧ ∀ c ∈ rest, isNameChar c = true

/-- Where no line feed stands, labels are the documented ones. -/
theorem isLabelText_iff_isPlainLabel {label : String} (plain : '\n' ∉ label.toList) :
    IsLabelText label ↔ IsPlainLabel label := by
  constructor
  · rintro ⟨first, rest, whole | ended, start, each⟩
    · exact ⟨first, rest, whole, start, each⟩
    · rw [ended] at plain
      simp at plain
  · rintro ⟨first, rest, whole, start, each⟩
    exact ⟨first, rest, .inl whole, start, each⟩

/-- A name that passes is an identifier, up to a line feed at its end. -/
theorem isName_iff {name : String} : IsName name ↔ IsIdentifierText name := by
  simp only [IsName, isIdentifier, Bool.and_eq_true, Bool.not_eq_true', List.isEmpty_eq_false_iff,
    List.all_eq_true, Bool.or_eq_true, beq_iff_eq]
  constructor
  · intro body
    exact ⟨dropFinalNewline name.toList, eq_dropFinalNewline name.toList, body⟩
  · rintro ⟨body, text, some, each⟩
    have same : dropFinalNewline name.toList = body := by
      rcases text with whole | ended
      · rw [whole]
        refine dropFinalNewline_of_not_mem fun member => ?_
        exact absurd (each '\n' member) (by decide)
      · rw [ended, dropFinalNewline_concat]
    rw [same]
    exact ⟨some, each⟩

/-- A label that passes is a single name, up to a line feed at its end. -/
theorem isLabel_iff {label : String} : isLabel label.toList = true ↔ IsLabelText label := by
  constructor
  · intro vetted
    unfold isLabel at vetted
    split at vetted
    next => exact absurd vetted (by decide)
    next first rest split =>
      have text := eq_dropFinalNewline label.toList
      rw [split] at text
      simp only [Bool.and_eq_true, Bool.or_eq_true, List.all_eq_true, beq_iff_eq] at vetted
      exact ⟨first, rest, text, vetted⟩
  · rintro ⟨first, rest, text, start, each⟩
    have same : dropFinalNewline label.toList = first :: rest := by
      rcases text with whole | ended
      · rw [whole]
        refine dropFinalNewline_of_not_mem fun member => ?_
        rcases List.mem_cons.mp member with rfl | behind
        · exact absurd start (by decide)
        · exact absurd (each '\n' behind) (by decide)
      · rw [ended, dropFinalNewline_concat]
    rw [isLabel, same]
    simp only [Bool.and_eq_true, Bool.or_eq_true, List.all_eq_true, beq_iff_eq]
    exact ⟨start, each⟩

namespace IsName

variable {name : String}

/-- The characters that vetting lets through. -/
theorem mem (vetted : IsName name) {c : Char} (member : c ∈ name.toList) :
    isNameChar c = true ∨ c = '.' ∨ c = '\n' := by
  simp only [IsName, isIdentifier, Bool.and_eq_true, List.all_eq_true, Bool.or_eq_true,
    beq_iff_eq] at vetted
  rcases mem_dropFinalNewline member with kept | newline
  · rcases vetted.2 c kept with letter | point
    · exact Or.inl letter
    · exact Or.inr (Or.inl point)
  · exact Or.inr (Or.inr newline)

/-- Vetting keeps every other character out. -/
theorem not_mem (vetted : IsName name) {c : Char} (outside : isNameChar c = false)
    (noPoint : c ≠ '.') (noNewline : c ≠ '\n') : c ∉ name.toList := by
  intro member
  rcases vetted.mem member with letter | point | newline
  · simp [outside] at letter
  · exact noPoint point
  · exact noNewline newline

theorem hasWord (vetted : IsName name) : HasWord name := by
  simp only [IsName, isIdentifier, Bool.and_eq_true, Bool.not_eq_true', List.isEmpty_eq_false_iff,
    List.all_eq_true, Bool.or_eq_true, beq_iff_eq] at vetted
  obtain ⟨some, each⟩ := vetted
  obtain ⟨c, rest, split⟩ := List.exists_cons_of_ne_nil some
  have first : c ∈ dropFinalNewline name.toList := by simp [split]
  have kept : c ∈ name.toList := by
    unfold dropFinalNewline at first
    split at first
    · exact List.dropLast_subset _ first
    · exact first
  refine ⟨c, kept, ?_⟩
  rcases each c first with letter | rfl
  · exact isBlank_of_isNameChar letter
  · decide

theorem ne_empty (vetted : IsName name) : name ≠ "" := by
  rintro rfl
  exact absurd vetted (by decide)

end IsName

theorem IsPlain.isName {name : String} (plain : IsPlain name) (some : name ≠ "") : IsName name := by
  have noNewline : '\n' ∉ name.toList :=
    fun member => absurd (plain '\n' member) (by decide)
  have letters : name.toList ≠ [] := by simpa using some
  simp only [IsName, isIdentifier, dropFinalNewline_of_not_mem noNewline, Bool.and_eq_true,
    List.all_eq_true, Bool.or_eq_true]
  exact ⟨by simpa using letters, fun c member => Or.inl (plain c member)⟩

/-- A plain name that is not empty. -/
def IsProper (name : String) : Prop := name ≠ "" ∧ IsPlain name

instance (name : String) : Decidable (IsProper name) := inferInstanceAs (Decidable (_ ∧ _))

theorem IsProper.isName {name : String} (proper : IsProper name) : IsName name :=
  proper.2.isName proper.1

/-- A number is written as a name. -/
theorem isProper_toString (n : Nat) : IsProper (toString n) := by
  rw [Nat.toString_eq_ofList_toDigits]
  constructor
  · simp [Nat.toDigits_ne_nil]
  · intro c member
    rw [String.toList_ofList] at member
    have digit := Nat.isDigit_of_mem_toDigits (by decide) (by decide) member
    simp only [Char.isDigit, Bool.and_eq_true, decide_eq_true_eq] at digit
    have lower : 48 ≤ c.toNat := UInt32.le_iff_toNat_le.mp digit.1
    have upper : c.toNat ≤ 57 := UInt32.le_iff_toNat_le.mp digit.2
    simp only [isNameChar, isAsciiDigit, lower, upper, decide_true, Bool.and_self, Bool.or_true,
      Bool.true_or]

/-- A label is an identifier. -/
theorem isName_of_isLabel {label : String} (vetted : isLabel label.toList = true) :
    IsName label := by
  unfold isLabel at vetted
  simp only [IsName, isIdentifier]
  split at vetted
  next => exact absurd vetted (by decide)
  next first rest split =>
    rw [split]
    simp only [Bool.and_eq_true, Bool.or_eq_true, List.all_eq_true, beq_iff_eq] at vetted
    simp only [List.isEmpty_cons, Bool.not_false, Bool.true_and, List.all_cons, Bool.and_eq_true,
      Bool.or_eq_true, List.all_eq_true]
    refine ⟨Or.inl ?_, fun c member => Or.inl (vetted.2 c member)⟩
    rcases vetted.1 with letter | rfl
    · simp [isNameChar, letter]
    · decide

/-- A name is let through as it is iff it is vetted. -/
theorem vetIdentifier_eq_ok {name vetted : String} :
    vetIdentifier name = .ok vetted ↔ IsName name ∧ vetted = name := by
  unfold vetIdentifier
  by_cases identifier : isIdentifier name.toList = true
  · simp [identifier, IsName, eq_comm]
  · simp [identifier, IsName]

/-- A label is let through as it is iff it is one. -/
theorem vetLabel_eq_ok {label vetted : String} :
    vetLabel label = .ok vetted ↔ isLabel label.toList = true ∧ vetted = label := by
  simp only [vetLabel, Outcome.bind_eq_ok, vetIdentifier_eq_ok]
  constructor
  · rintro ⟨_, ⟨identifier, rfl⟩, passed⟩
    split at passed
    next isLabel => exact ⟨isLabel, (Except.ok.inj passed).symm⟩
    next _ => exact absurd passed (by simp)
  · rintro ⟨isLabel, rfl⟩
    exact ⟨_, ⟨isName_of_isLabel isLabel, rfl⟩, if_pos isLabel⟩

/-- What vetting a label reports: a text that is not even an identifier, or one that is no label. -/
theorem vetLabel_eq_error {label : String} {rejection : Rejection} :
    vetLabel label = .error rejection ↔
      (¬ IsName label ∧ rejection = .invalidIdentifier (.text label)) ∨
        (IsName label ∧ ¬ isLabel label.toList = true ∧ rejection = .invalidLabel label) := by
  by_cases identifier : IsName label
  · have vetted := vetIdentifier_eq_ok.mpr ⟨identifier, rfl⟩
    simp only [vetLabel, vetted, identifier, not_true_eq_false, false_and, true_and, false_or]
    change (if isLabel label.toList = true then _ else _) = _ ↔ _
    split
    next given => simp [given]
    next other => simp [other, eq_comm]
  · have refused : vetIdentifier label = .error (.invalidIdentifier (.text label)) :=
      if_neg identifier
    simp only [vetLabel, refused, identifier, not_false_eq_true, true_and, false_and, or_false]
    change Except.error _ = Except.error _ ↔ _
    rw [Except.error.injEq, eq_comm]

/-- Quoting adds nothing but quotes. -/
theorem mem_quoteName {name : String} {c : Char} (member : c ∈ (quoteName name).toList) :
    c ∈ name.toList ∨ c = doubleQuote := by
  unfold quoteName at member
  split at member
  · simp only [String.toList_ofList, List.cons_append, List.mem_cons, List.mem_append,
      doubleQuotes, List.mem_flatMap, List.not_mem_nil, or_false] at member
    rcases member with quote | ⟨d, found, copies⟩ | quote
    · exact Or.inr quote
    · split at copies
      · simp only [List.mem_cons, List.not_mem_nil, or_false, or_self] at copies
        exact Or.inl (copies ▸ found)
      · exact Or.inl (List.mem_singleton.mp copies ▸ found)
    · exact Or.inr quote
  · exact Or.inl member

theorem hasWord_quoteName {name : String} (vetted : IsName name) : HasWord (quoteName name) := by
  unfold quoteName
  split
  · exact ⟨doubleQuote, by simp, by decide⟩
  · exact vetted.hasWord

end Reporting.Sql
