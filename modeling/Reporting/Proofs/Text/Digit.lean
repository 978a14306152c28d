import Mathlib.Data.List.Lex
import Mathlib.Data.String.Basic
import Reporting.Moment

/-!
# Numbers as digits

The number of its digits bounds a number (`Text.digitsValue_lt`). Numbers that are written at one
width, with zeros in front, stand in the order of their texts, whatever follows them
(`Moment.padded_append_lt_iff`).
-/

namespace Reporting

/-- Behind parts of one length, lists are compared by their parts. -/
theorem append_lt_append_iff {α : Type} [LinearOrder α] {xs ys as bs : List α}
    (lengths : xs.length = ys.length) : xs ++ as < ys ++ bs ↔ xs < ys ∨ xs = ys ∧ as < bs := by
  induction xs generalizing ys with
  | nil =>
      obtain rfl := List.length_eq_zero_iff.mp lengths.symm
      simp
  | cons x xs ih =>
      cases ys with
      | nil => simp at lengths
      | cons y ys =>
          rw [List.cons_append, List.cons_append, List.cons_lt_cons_iff, List.cons_lt_cons_iff,
            ih (Nat.succ.inj lengths), List.cons.injEq]
          tauto

/-- What is in one order is told apart alike. -/
theorem eq_iff_of_lt_iff {α β : Type} [LinearOrder α] [LinearOrder β] {x y : α} {u v : β}
    (less : x < y ↔ u < v) (greater : y < x ↔ v < u) : x = y ↔ u = v := by
  rw [eq_iff_le_not_lt, eq_iff_le_not_lt, ← not_lt, ← not_lt, less, greater]

namespace Text

/-- Digits stand in the order of their values. -/
theorem digitChar_lt_digitChar_iff {m n : Nat} (small : m < 10) (smallToo : n < 10) :
    m.digitChar < n.digitChar ↔ m < n := by
  rw [Char.lt_def, UInt32.lt_iff_toNat_lt]
  change m.digitChar.toNat < n.digitChar.toNat ↔ m < n
  rw [Nat.toNat_digitChar_of_lt_ten small, Nat.toNat_digitChar_of_lt_ten smallToo]
  omega

/-- The number of digits bounds the number. -/
theorem digitsValue_lt {digits : List Char} (each : ∀ c ∈ digits, isAsciiDigit c = true) :
    digitsValue digits < 10 ^ digits.length := by
  have ahead (value : Nat) :
      digits.foldl (fun value c => 10 * value + (c.toNat - 48)) value <
        (value + 1) * 10 ^ digits.length := by
    induction digits generalizing value with
    | nil => simp
    | cons c rest ih =>
        obtain ⟨digit, others⟩ := List.forall_mem_cons.mp each
        have small : c.toNat - 48 ≤ 9 := by
          simp only [isAsciiDigit, Bool.and_eq_true, decide_eq_true_eq] at digit
          omega
        rw [List.foldl_cons, List.length_cons, Nat.pow_succ]
        refine (ih others _).trans_le ?_
        calc (10 * value + (c.toNat - 48) + 1) * 10 ^ rest.length
            ≤ (10 * (value + 1)) * 10 ^ rest.length := Nat.mul_le_mul_right _ (by omega)
          _ = (value + 1) * (10 ^ rest.length * 10) := by
            rw [Nat.mul_comm 10, Nat.mul_assoc, Nat.mul_comm 10]
  calc digitsValue digits < (0 + 1) * 10 ^ digits.length := ahead 0
    _ = 10 ^ digits.length := by rw [Nat.zero_add, Nat.one_mul]

end Text

namespace Moment

/-! ### Numbers at their full width -/

/-- A number at one more place is its other digits and the last one. -/
theorem toList_padded_succ {width : Nat} (positive : 0 < width) (n : Nat) :
    (padded (width + 1) n).toList = (padded width (n / 10)).toList ++ [(n % 10).digitChar] := by
  obtain ⟨less, rfl⟩ := Nat.exists_eq_add_one_of_ne_zero positive.ne'
  simp only [padded, String.toList_ofList]
  by_cases small : n < 10
  · rw [Nat.div_eq_of_lt small, Nat.mod_eq_of_lt small, Nat.toDigits_of_lt_base small,
      Nat.toDigits_of_lt_base (by decide : 0 < 10)]
    simp [List.replicate_succ']
  · rw [Nat.toDigits_eq_if (by decide), if_neg small, List.length_append, List.length_singleton,
      Nat.add_sub_add_right, List.append_assoc]

/-- A number that fits its width is written with just as many digits. -/
theorem length_padded {width n : Nat} (fits : n < 10 ^ (width + 1)) :
    (padded (width + 1) n).toList.length = width + 1 := by
  induction width generalizing n with
  | zero => simp [padded, Nat.toDigits_of_lt_base (by simpa using fits : n < 10)]
  | succ width ih =>
      rw [toList_padded_succ width.succ_pos, List.length_append,
        ih (Nat.div_lt_of_lt_mul (by rwa [Nat.pow_succ, Nat.mul_comm] at fits)),
        List.length_singleton]

/-- Numbers at one width stand in their order. -/
theorem padded_lt_padded_iff {width m n : Nat} (fits : m < 10 ^ (width + 1))
    (fitsToo : n < 10 ^ (width + 1)) :
    (padded (width + 1) m).toList < (padded (width + 1) n).toList ↔ m < n := by
  induction width generalizing m n with
  | zero =>
      have small : m < 10 := by simpa using fits
      have smallToo : n < 10 := by simpa using fitsToo
      simp only [padded, Nat.toDigits_of_lt_base small, Nat.toDigits_of_lt_base smallToo,
        List.length_singleton, Nat.sub_self, List.replicate_zero, List.nil_append,
        String.toList_ofList, List.cons_lt_cons_iff, lt_irrefl, and_false, or_false]
      exact Text.digitChar_lt_digitChar_iff small smallToo
  | succ width ih =>
      have front : m / 10 < 10 ^ (width + 1) :=
        Nat.div_lt_of_lt_mul (by rwa [Nat.pow_succ, Nat.mul_comm] at fits)
      have frontToo : n / 10 < 10 ^ (width + 1) :=
        Nat.div_lt_of_lt_mul (by rwa [Nat.pow_succ, Nat.mul_comm] at fitsToo)
      have same : (padded (width + 1) (m / 10)).toList = (padded (width + 1) (n / 10)).toList ↔
          m / 10 = n / 10 := eq_iff_of_lt_iff (ih front frontToo) (ih frontToo front)
      rw [toList_padded_succ width.succ_pos, toList_padded_succ width.succ_pos,
        append_lt_append_iff (by rw [length_padded front, length_padded frontToo]),
        ih front frontToo, same, List.cons_lt_cons_iff,
        Text.digitChar_lt_digitChar_iff (Nat.mod_lt m (by decide)) (Nat.mod_lt n (by decide))]
      simp only [lt_irrefl, and_false, or_false]
      omega

/-- Numbers at one width, and what follows them, stand in their order. -/
theorem padded_append_lt_iff {width m n : Nat} {rest others : List Char}
    (fits : m < 10 ^ (width + 1)) (fitsToo : n < 10 ^ (width + 1)) :
    (padded (width + 1) m).toList ++ rest < (padded (width + 1) n).toList ++ others ↔
      m < n ∨ m = n ∧ rest < others := by
  have same : (padded (width + 1) m).toList = (padded (width + 1) n).toList ↔ m = n :=
    eq_iff_of_lt_iff (padded_lt_padded_iff fits fitsToo) (padded_lt_padded_iff fitsToo fits)
  rw [append_lt_append_iff (by rw [length_padded fits, length_padded fitsToo]),
    padded_lt_padded_iff fits fitsToo, same]

end Moment

end Reporting
