import Mathlib.Algebra.Group.Nat.Defs
import Reporting.Number.Reading

/-!
# Comparing clock readings

A double less itself is zero, or no number at all (`Double.unpack_sub_self`), so a reading is no
positive span away from itself (`Reading.not_lt_sub_self`). A reading that is not below one has a
whole part of at least one (`Reading.one_le_wholePart`).
-/

namespace Reporting

namespace Double

/-- What the negated double stands for. -/
def Datum.neg : Datum → Datum
  | .nan => .nan
  | .infinite negative => .infinite !negative
  | .finite negative units => .finite (!negative) units

/-- Flipping the highest of 64 bits turns the sign around. -/
theorem le_flip_iff {bits : Nat} (small : bits < 2 ^ 64) :
    2 ^ 63 ≤ bits ^^^ 2 ^ 63 ↔ ¬ 2 ^ 63 ≤ bits := by
  have sign (n : Nat) : 2 ^ 63 ≤ n ↔ 1 ≤ n / 2 ^ 63 := by omega
  have flipped : (bits ^^^ 2 ^ 63) / 2 ^ 63 = bits / 2 ^ 63 ^^^ 1 := by
    rw [Nat.xor_div_two_pow, Nat.div_self (Nat.two_pow_pos 63)]
  rw [sign, sign, flipped]
  have top : bits / 2 ^ 63 = 0 ∨ bits / 2 ^ 63 = 1 := by omega
  rcases top with low | high
  · rw [low]
    decide
  · rw [high]
    decide

/-- Turning the sign bit keeps the other bits. -/
theorem flip_mod (bits : Nat) : (bits ^^^ 2 ^ 63) % 2 ^ 63 = bits % 2 ^ 63 := by
  rw [Nat.xor_mod_two_pow, Nat.mod_self, Nat.xor_zero]

/-- Negating a double negates what it stands for. -/
theorem unpack_neg (x : Double) : x.neg.unpack = x.unpack.neg := by
  have flipped : x.neg.bits.toNat = x.bits.toNat ^^^ 2 ^ 63 := UInt64.toNat_xor _ _
  have sign : decide (2 ^ 63 ≤ x.bits.toNat ^^^ 2 ^ 63) = !decide (2 ^ 63 ≤ x.bits.toNat) := by
    simp only [le_flip_iff x.bits.toNat_lt, decide_not]
  simp only [unpack, flipped, Nat.pow_eq, flip_mod, sign]
  split
  · split <;> rfl
  · split <;> rfl

/-- A double less itself is zero, or no number where the double is no number or infinite. -/
theorem unpack_sub_self (x : Double) :
    (x.sub x).unpack = .nan ∨ (x.sub x).unpack = .finite false 0 := by
  rw [sub, add, unpack_neg]
  cases x.unpack with
  | nan => exact Or.inl rfl
  | infinite negative =>
      refine Or.inl ?_
      simp only [Datum.neg]
      cases negative <;> rfl
  | finite negative units =>
      have sum : signedUnits negative units + signedUnits (!negative) units = 0 := by
        cases negative with
        | false => exact Int.add_right_neg (units : Int)
        | true => exact Int.add_left_neg (units : Int)
      refine Or.inr ?_
      simp only [Datum.neg, sum, ↓reduceIte, Bool.and_not_self]
      rfl

end Double

namespace Reading

/-- A reading can be compared with itself. -/
theorem mixes_self (time : Reading) : mixes time time = true := by
  cases time <;> rfl

/-- A positive span is not below zero. -/
theorem not_isBelow_zero {span : Reading} (positive : span.isZeroOrLess = false) :
    isBelow span.datum (.finite false 0) = false := by
  rw [isZeroOrLess] at positive
  cases datum : span.datum with
  | nan => rfl
  | infinite negative =>
      rw [datum] at positive
      exact positive
  | finite negative units =>
      rw [datum] at positive
      obtain ⟨rfl, -⟩ := Bool.or_eq_false_iff.mp positive
      simp [isBelow, Double.signedUnits]

/-- No time passes between a reading and itself, unless it is no number. -/
theorem datum_sub_self (time : Reading) :
    (time - time).datum = .nan ∨ (time - time).datum = .finite false 0 := by
  cases time with
  | int n =>
      right
      change datum (.int (n - n)) = _
      rw [Int.sub_self]
      simp [datum]
  | double x => exact x.unpack_sub_self

/-- A reading is not further from itself than a positive span. -/
theorem not_lt_sub_self {span : Reading} (positive : span.isZeroOrLess = false) (time : Reading) :
    ¬ span < time - time := by
  change ¬ isBelow span.datum (time - time).datum = true
  rcases time.datum_sub_self with none | zero
  · rw [none]
    cases span.datum <;> exact Bool.false_ne_true
  · rw [zero, not_isBelow_zero positive]
    exact Bool.false_ne_true

theorem datum_one : datum (.int 1) = .finite false Double.unitsPerOne := by
  rw [datum, Int.natAbs_one, Nat.one_mul]
  rfl

/-- A reading of at least one has a whole part of at least one. -/
theorem one_le_wholePart {a : Reading} (large : ¬ a < .int 1) : 1 ≤ a.wholePart := by
  change ¬ isBelow a.datum (datum (.int 1)) = true at large
  have units : 0 < Double.unitsPerOne := by decide +kernel
  have greatest : 1 ≤ Nat.pow 2 1024 := by decide +kernel
  rw [datum_one] at large
  rw [wholePart]
  cases datum : a.datum with
  | nan => exact greatest
  | infinite negative =>
      cases negative with
      | true =>
          rw [datum] at large
          exact absurd rfl large
      | false => exact greatest
  | finite negative count =>
      rw [datum] at large
      simp only [isBelow, decide_eq_true_eq] at large
      generalize Double.unitsPerOne = one at large units
      cases negative with
      | true =>
          refine absurd ?_ large
          simp only [Double.signedUnits, ↓reduceIte, Bool.false_eq_true]
          omega
      | false =>
          simp only [Double.signedUnits, Bool.false_eq_true, ↓reduceIte, Int.ofNat_lt,
            Nat.not_lt] at large ⊢
          exact Nat.div_pos large units

end Reading

end Reporting
