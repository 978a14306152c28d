import Reporting.Json.Canonical
import Reporting.Json.Reader

/-!
# Strings of canonical text

A written string is read back as it was, whatever stands behind it (`readText_writeString`). So the
string at the start of a text and the rest of the text are determined by the text
(`writeString_append_inj`).
-/

namespace Reporting.Json

open Text

/-- Four hexadecimal digits are those of the four parts of the number. -/
theorem hexPadded_four (n : Nat) :
    hexPadded 4 n = [hexDigit (n / 4096), hexDigit (n / 256), hexDigit (n / 16), hexDigit n] := by
  simp [hexPadded, Nat.div_div_eq_div_mul]

/-- Four hexadecimal digits are read back as the number. -/
theorem hexFour?_hexDigits {n : Nat} (small : n < 0x10000) :
    hexFour? (hexDigit (n / 4096)) (hexDigit (n / 256)) (hexDigit (n / 16)) (hexDigit n) =
      some n := by
  rw [hexFour?, hexValue?_hexDigit, hexValue?_hexDigit, hexValue?_hexDigit, hexValue?_hexDigit]
  change some (((n / 4096 % 16 * 16 + n / 256 % 16) * 16 + n / 16 % 16) * 16 + n % 16) = some n
  congr 1
  omega

/-- No character is half of a surrogate pair. -/
theorem not_surrogate (c : Char) :
    isHighSurrogate c.toNat = false ∧ isLowSurrogate c.toNat = false := by
  have valid : c.toNat < 0xD800 ∨ 0xDFFF < c.toNat ∧ c.toNat < 0x110000 := c.valid
  constructor
  · rw [isHighSurrogate, Bool.and_eq_false_iff, decide_eq_false_iff_not, decide_eq_false_iff_not]
    omega
  · rw [isLowSurrogate, Bool.and_eq_false_iff, decide_eq_false_iff_not, decide_eq_false_iff_not]
    omega

/-- The body of an escape with one code unit is read as the character it was written for. -/
theorem readUnit_hexPadded {c : Char} (small : c.toNat < 0x10000) (next : Char)
    (rest : List Char) :
    readUnit (hexPadded 4 c.toNat ++ next :: rest) = .ok (c, next :: rest) := by
  obtain ⟨high, low⟩ := not_surrogate c
  rw [hexPadded_four]
  change readUnit (_ :: _ :: _ :: _ :: next :: rest) = _
  rw [readUnit, hexFour?_hexDigits small]
  change (if isHighSurrogate c.toNat = true then _ else _) = _
  rw [high, if_neg Bool.false_ne_true, loneUnit, high, low]
  exact congrArg (fun read => Except.ok (read, next :: rest)) (Char.ofNat_toNat c)

/-- A pair of escapes is read as one character. -/
theorem readUnit_pair {high low : Nat} (isHigh : isHighSurrogate high = true)
    (isLow : isLowSurrogate low = true) (next : Char) (rest : List Char) :
    readUnit (hexPadded 4 high ++ unitEscape low ++ next :: rest) =
      .ok (joinSurrogates high low, next :: rest) := by
  have smallHigh : high < 0x10000 := by
    rw [isHighSurrogate, Bool.and_eq_true, decide_eq_true_iff, decide_eq_true_iff] at isHigh
    omega
  have smallLow : low < 0x10000 := by
    rw [isLowSurrogate, Bool.and_eq_true, decide_eq_true_iff, decide_eq_true_iff] at isLow
    omega
  rw [unitEscape, hexPadded_four, hexPadded_four]
  change readUnit (_ :: _ :: _ :: _ :: '\\' :: 'u' :: _ :: _ :: _ :: _ :: next :: rest) = _
  rw [readUnit, hexFour?_hexDigits smallHigh]
  change (if isHighSurrogate high = true then _ else _) = _
  rw [if_pos isHigh]
  split
  next same =>
    cases same
    rw [hexFour?_hexDigits smallLow]
    exact if_pos isLow
  next other => exact absurd rfl (other _ _ _ _ _ _)

/-- So is the body of an escape with a surrogate pair. -/
theorem readUnit_surrogates {c : Char} (large : 0x10000 ≤ c.toNat) (next : Char)
    (rest : List Char) :
    readUnit (hexPadded 4 (0xD800 + (c.toNat - 0x10000) / 0x400) ++
      unitEscape (0xDC00 + (c.toNat - 0x10000) % 0x400) ++ next :: rest) =
      .ok (c, next :: rest) := by
  have valid : c.toNat < 0xD800 ∨ 0xDFFF < c.toNat ∧ c.toNat < 0x110000 := c.valid
  have isHigh : isHighSurrogate (0xD800 + (c.toNat - 0x10000) / 0x400) = true := by
    rw [isHighSurrogate, Bool.and_eq_true, decide_eq_true_iff, decide_eq_true_iff]
    omega
  have isLow : isLowSurrogate (0xDC00 + (c.toNat - 0x10000) % 0x400) = true := by
    rw [isLowSurrogate, Bool.and_eq_true, decide_eq_true_iff, decide_eq_true_iff]
    omega
  have sum : 0x10000 + (0xD800 + (c.toNat - 0x10000) / 0x400 - 0xD800) * 0x400 +
      (0xDC00 + (c.toNat - 0x10000) % 0x400 - 0xDC00) = c.toNat := by omega
  rw [readUnit_pair isHigh isLow, joinSurrogates, sum, Char.ofNat_toNat]

section

variable (opening fuel : Nat) (read : List Char)

/-- A short escape is read as its character. -/
theorem readString_escape {letter c : Char} (short : shortEscape? letter = some c)
    (rest : List Char) : readString opening (fuel + 1) read ('\\' :: letter :: rest) =
      readString opening fuel (c :: read) rest := by
  have other : letter ≠ 'u' := by
    intro same
    rw [same] at short
    exact absurd short (Option.some_ne_none c).symm
  rw [readString, if_neg (by decide), if_pos (by decide), short]
  exact other

/-- An escape by number is read as its character. -/
theorem readString_unit {c : Char} {text rest : List Char} (unit : readUnit text = .ok (c, rest)) :
    readString opening (fuel + 1) read ('\\' :: 'u' :: text) =
      readString opening fuel (c :: read) rest := by
  rw [readString, if_neg (by decide), if_pos (by decide)]
  rw [unit]

/-- Reading goes on behind a written character. -/
theorem readString_writeChar (c next : Char) (rest : List Char) :
    readString opening (fuel + 1) read (writeChar c ++ next :: rest) =
      readString opening fuel (c :: read) (next :: rest) := by
  unfold writeChar
  split
  next special =>
    apply readString_escape
    rw [shortEscape?, if_pos]
    rw [special, Bool.true_or]
  next plain =>
    split
    next same =>
      rw [beq_iff_eq.mp same]
      exact readString_escape opening fuel read rfl _
    split
    next same =>
      rw [beq_iff_eq.mp same]
      exact readString_escape opening fuel read rfl _
    split
    next same =>
      rw [beq_iff_eq.mp same]
      exact readString_escape opening fuel read rfl _
    split
    next same =>
      rw [← Char.ofNat_toNat c, beq_iff_eq.mp same]
      exact readString_escape opening fuel read rfl _
    split
    next same =>
      rw [← Char.ofNat_toNat c, beq_iff_eq.mp same]
      exact readString_escape opening fuel read rfl _
    split
    next shown =>
      rw [Bool.and_eq_true, decide_eq_true_iff, decide_eq_true_iff] at shown
      rw [Bool.or_eq_true, not_or] at plain
      change readString opening (fuel + 1) read (c :: next :: rest) = _
      rw [readString.eq_def]
      change (if (c == doubleQuote) = true then _ else _) = _
      rw [if_neg plain.1, if_neg plain.2, if_neg (Nat.not_lt.mpr shown.1)]
    split
    next small =>
      exact readString_unit opening fuel read (readUnit_hexPadded small next rest)
    next large =>
      have unit := readUnit_surrogates (Nat.not_lt.mp large) next rest
      exact readString_unit opening fuel read unit

/-- Reading goes on behind written characters up to the closing quote. -/
theorem readString_flatMap (text rest : List Char) (enough : text.length < fuel) :
    readString opening fuel read (text.flatMap writeChar ++ doubleQuote :: rest) =
      .ok (String.ofList (read.reverse ++ text), rest) := by
  induction text generalizing fuel read with
  | nil =>
      obtain ⟨fuel, rfl⟩ := Nat.exists_eq_add_of_lt enough
      rw [List.append_nil]
      change readString opening (_ + 1) read (doubleQuote :: rest) = _
      rw [readString.eq_def]
      rfl
  | cons c text ih =>
      obtain ⟨fuel, rfl⟩ : ∃ less, fuel = less + 1 := Nat.exists_eq_add_one_of_ne_zero (by omega)
      obtain ⟨next, more, shape⟩ : ∃ next more,
          text.flatMap writeChar ++ doubleQuote :: rest = next :: more :=
        List.exists_cons_of_ne_nil (List.append_ne_nil_of_right_ne_nil _ (List.cons_ne_nil _ _))
      rw [List.flatMap_cons, List.append_assoc, shape, readString_writeChar, ← shape,
        ih fuel (c :: read) (Nat.lt_of_succ_lt_succ enough), List.reverse_cons, List.append_assoc]
      rfl

end

theorem writeChar_ne_nil (c : Char) : writeChar c ≠ [] := by
  fun_cases writeChar c <;> exact List.cons_ne_nil _ _

/-- Writing makes a text no shorter. -/
theorem length_le_flatMap_writeChar (text : List Char) :
    text.length ≤ (text.flatMap writeChar).length := by
  induction text with
  | nil => exact Nat.le_refl 0
  | cons c text ih =>
      have some := List.length_pos_iff.mpr (writeChar_ne_nil c)
      rw [List.flatMap_cons, List.length_append, List.length_cons]
      omega

/-- A written string is read back, with what stands behind it left. -/
theorem readText_writeString (text : String) (rest : List Char) :
    readText (text.toList.flatMap writeChar ++ doubleQuote :: rest) = .ok (text, rest) := by
  rw [readText, readString_flatMap]
  · rw [List.reverse_nil, List.nil_append, String.ofList_toList]
  · have longer := length_le_flatMap_writeChar text.toList
    rw [List.length_append]
    omega

/-- A string and what stands behind it are determined by the text. -/
theorem writeString_append_inj {text other : String} {rest otherRest : List Char}
    (same : writeString text ++ rest = writeString other ++ otherRest) :
    text = other ∧ rest = otherRest := by
  simp only [writeString, List.cons_append, List.append_assoc, List.cons.injEq, true_and,
    List.nil_append] at same
  have read := readText_writeString text rest
  rw [same, readText_writeString other otherRest, Except.ok.injEq, Prod.mk.injEq] at read
  exact ⟨read.1.symm, read.2.symm⟩

end Reporting.Json
