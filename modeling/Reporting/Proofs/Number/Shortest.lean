import Reporting.Number.Shortest
import Reporting.Text.Digit

/-!
# The characters of a number's text

The text of a finite double consists of digits, signs, points and exponent letters, and a point or
an exponent letter tells it from the text of an integer (`Double.text_chars`).
-/

namespace Reporting

open Text

/-- The characters that finite numbers are written with. -/
def isNumeralChar (c : Char) : Bool :=
  isAsciiDigit c || c == '-' || c == '+' || c == '.' || c == 'e'

theorem isNumeralChar_of_digit {c : Char} (digit : isAsciiDigit c = true) :
    isNumeralChar c = true := by
  rw [isNumeralChar, digit]
  rfl

/-- Numbers are written with digits. -/
theorem isAsciiDigit_of_mem_toDigits {n : Nat} {c : Char} (member : c ∈ Nat.toDigits 10 n) :
    isAsciiDigit c = true := by
  have digit := Nat.isDigit_of_mem_toDigits (b := 10) (by decide) (by decide) member
  rw [Char.isDigit, Bool.and_eq_true, decide_eq_true_iff, decide_eq_true_iff] at digit
  rw [isAsciiDigit, Bool.and_eq_true, decide_eq_true_iff, decide_eq_true_iff]
  exact ⟨UInt32.le_iff_toNat_le.mp digit.1, UInt32.le_iff_toNat_le.mp digit.2⟩

namespace Double

theorem dropTrailingZeros_digits {digits : List Char}
    (each : ∀ c ∈ digits, isAsciiDigit c = true) :
    ∀ c ∈ dropTrailingZeros digits, isAsciiDigit c = true := by
  unfold dropTrailingZeros
  split
  next => exact List.all_eq_true.mp (by decide)
  next kept _ =>
    intro c member
    apply each c
    have inside := (List.dropWhile_sublist _).subset (List.mem_reverse.mp member)
    exact List.mem_reverse.mp inside

/-- What the better of two candidates gives, if one is fit. -/
theorem exists_of_candidates {α : Type} {fit : Nat → Bool} {write : Nat → α} {first second : Nat}
    {result : α}
    (found : (if fit first then some (write first) else if fit second then some (write second)
      else none) = some result) : ∃ n, write n = result ∧ fit n = true := by
  by_cases fits : fit first = true
  · rw [if_pos fits] at found
    exact ⟨first, Option.some.inj found, fits⟩
  · rw [if_neg fits] at found
    by_cases fits : fit second = true
    · rw [if_pos fits] at found
      exact ⟨second, Option.some.inj found, fits⟩
    · rw [if_neg fits] at found
      cases found

/-- The neighbour that is found is a number of grid steps in the interval. -/
theorem exists_of_neighbour? {units scale count : Nat} {interval : Rounding} {point : Int}
    {d : DecimalDigits} (found : neighbour? units scale interval point count = some d) :
    ∃ n, ⟨Nat.toDigits 10 n, point + (((Nat.toDigits 10 n).length : Int) - count)⟩ = d ∧
      interval.holds (4 * n * (powerOfTen (point - count)).1 * scale)
        (powerOfTen (point - count)).2 = true := by
  unfold neighbour? at found
  exact exists_of_candidates found

/-- A decimal on a grid is made of digits. -/
theorem onGrid?_digits {units count : Nat} {d : DecimalDigits}
    (found : onGrid? units count = some d) : ∀ c ∈ d.digits, isAsciiDigit c = true := by
  obtain ⟨n, rfl, -⟩ := exists_of_neighbour? found
  exact fun c => isAsciiDigit_of_mem_toDigits

/-- The shortest decimal of a double is made of digits. -/
theorem digitsOf_digits (units : Nat) : ∀ c ∈ (digitsOf units).digits, isAsciiDigit c = true := by
  rw [digitsOf]
  cases found : shortest? units with
  | some d =>
      obtain ⟨n, -, written⟩ := List.exists_of_findSome?_eq_some found
      exact dropTrailingZeros_digits (onGrid?_digits written)
  | none => exact List.all_eq_true.mp (by decide)

/-- An exponent is written with the characters of numbers. -/
theorem showExponent_chars (width : Nat) (e : Int) :
    ∀ c ∈ showExponent width e, isNumeralChar c = true := by
  unfold showExponent
  simp only [List.mem_cons, List.mem_append, List.mem_replicate]
  rintro c (rfl | ⟨-, rfl⟩ | digit)
  · split <;> decide
  · decide
  · exact isNumeralChar_of_digit (isAsciiDigit_of_mem_toDigits digit)

/-- So is a decimal, in either layout. -/
theorem show_chars (l : Layout) {d : DecimalDigits}
    (each : ∀ c ∈ d.digits, isAsciiDigit c = true) : ∀ c ∈ l.show d, isNumeralChar c = true := by
  have digits : ∀ c ∈ d.digits, isNumeralChar c = true :=
    fun c member => isNumeralChar_of_digit (each c member)
  have zero : ∀ c ∈ ['0'], isNumeralChar c = true := List.all_eq_true.mp (by decide)
  have zeros (n : Nat) : ∀ c ∈ List.replicate n '0', isNumeralChar c = true := by
    intro c member
    rw [List.eq_of_mem_replicate member]
    rfl
  have part {text : List Char} (within : text ⊆ d.digits) : ∀ c ∈ text, isNumeralChar c = true :=
    fun c member => digits c (within member)
  unfold Layout.show
  dsimp only
  split
  next =>
    split
    next whole _ =>
      have padded : ∀ c ∈ d.digits ++ List.replicate (whole - d.digits.length) '0',
          isNumeralChar c = true := List.forall_mem_append.mpr ⟨digits, zeros _⟩
      generalize d.digits ++ List.replicate (whole - d.digits.length) '0' = text at padded
      have front : ∀ c ∈ text.take whole, isNumeralChar c = true :=
        fun c member => padded c (List.mem_of_mem_take member)
      have back : ∀ c ∈ text.drop whole, isNumeralChar c = true :=
        fun c member => padded c (List.mem_of_mem_drop member)
      rw [List.forall_mem_append, List.forall_mem_cons]
      refine ⟨?_, rfl, ?_⟩
      · split
        · exact zero
        · exact front
      · split
        · exact zero
        · exact back
    next n _ =>
      rw [List.forall_mem_cons, List.forall_mem_cons, List.forall_mem_append]
      exact ⟨rfl, rfl, zeros (n + 1), digits⟩
  next =>
    rw [List.forall_mem_append, List.forall_mem_append, List.forall_mem_cons]
    refine ⟨⟨part (List.take_subset 1 _), ?_⟩, rfl, showExponent_chars _ _⟩
    split
    · exact fun c member => absurd member List.not_mem_nil
    · rw [List.forall_mem_cons]
      exact ⟨rfl, part (List.drop_subset 1 _)⟩

/-- A decimal shows a point or an exponent, so it is told from an integer. -/
theorem show_marked (l : Layout) (d : DecimalDigits) : '.' ∈ l.show d ∨ 'e' ∈ l.show d := by
  unfold Layout.show
  simp only
  split
  · split <;> simp
  · simp

/-- The text of a finite double: its sign, then zero or its shortest decimal. -/
theorem toList_text {x : Double} {negative : Bool} {units : Nat}
    (value : x.unpack = .finite negative units) :
    x.text.toList = (if negative then ['-'] else []) ++
      if units = 0 then ['0', '.', '0'] else layout.show (digitsOf units) := by
  unfold text
  rw [value]
  cases units with
  | zero => exact String.toList_ofList
  | succ units =>
      rw [if_neg (Nat.succ_ne_zero units)]
      exact String.toList_ofList

/-- The text of a finite number is made of the characters of numerals, one of them a point or an
exponent letter. -/
theorem text_chars {x : Double} (finite : x.isFinite = true) :
    (∀ c ∈ x.text.toList, isNumeralChar c = true) ∧
      ('.' ∈ x.text.toList ∨ 'e' ∈ x.text.toList) := by
  unfold isFinite at finite
  split at finite
  next negative units value =>
    have sign : ∀ c ∈ (if negative then ['-'] else []), isNumeralChar c = true := by
      cases negative <;> exact List.all_eq_true.mp (by decide)
    have marked := show_marked layout (digitsOf units)
    rw [toList_text value, List.forall_mem_append]
    by_cases zero : units = 0
    · rw [if_pos zero]
      exact ⟨⟨sign, List.all_eq_true.mp (by decide)⟩, Or.inl (List.mem_append_right _ (by decide))⟩
    · rw [if_neg zero]
      exact ⟨⟨sign, show_chars layout (digitsOf_digits units)⟩,
        marked.imp (List.mem_append_right _) (List.mem_append_right _)⟩
  next => cases finite

end Double

end Reporting
