import Reporting.Json.Reader

/-!
# The grammar of JSON text

Which texts spell which values, rule by rule and without a reader: `Body` for what stands between
the quotes of a string, `NumeralText` for numbers, `Spells` for values, `Represents` for whole
texts. The rules take the limits of a reader into account where there are any. Without limits they
are those of JSON texts with `NaN`, `Infinity` and `-Infinity` as numbers. `Exceeds` and `Overruns`
say where a text goes beyond limits: up to there it follows the rules.
-/

namespace Reporting.Json

open Text

/-- Space, tab, line feed or carriage return. -/
def isGap (c : Char) : Bool := c == ' ' || c == '\t' || c == '\n' || c == '\r'

def IsBlanks (text : List Char) : Prop := ∀ c ∈ text, isGap c = true

/-- At least one digit, and nothing else. -/
def IsDigits (text : List Char) : Prop := text ≠ [] ∧ ∀ c ∈ text, isAsciiDigit c = true

/-- The text starts with the second half of a surrogate pair. -/
def StartsLow (text : List Char) : Prop :=
  ∃ a b c d rest n, text = '\\' :: 'u' :: a :: b :: c :: d :: rest ∧
    hexFour? a b c d = some n ∧ isLowSurrogate n = true

/-- The text between the quotes of a string, and the characters that it stands for. -/
inductive Body : List Char → List Char → Prop
  | nil : Body [] []
  | plain {c : Char} {text read : List Char} (noQuote : c ≠ doubleQuote) (noEscape : c ≠ '\\')
      (shown : 0x20 ≤ c.toNat) (behind : Body text read) : Body (c :: text) (c :: read)
  | short {letter c : Char} {text read : List Char} (short : shortEscape? letter = some c)
      (behind : Body text read) : Body ('\\' :: letter :: text) (c :: read)
  | unit {a b c d : Char} {n : Nat} {text read : List Char} (digits : hexFour? a b c d = some n)
      (noHalf : isHighSurrogate n = false) (behind : Body text read) :
      Body ('\\' :: 'u' :: a :: b :: c :: d :: text) (loneUnit n :: read)
  | pair {a b c d e f g h : Char} {high low : Nat} {text read : List Char}
      (digits : hexFour? a b c d = some high) (first : isHighSurrogate high = true)
      (digitsToo : hexFour? e f g h = some low) (second : isLowSurrogate low = true)
      (behind : Body text read) :
      Body ('\\' :: 'u' :: a :: b :: c :: d :: '\\' :: 'u' :: e :: f :: g :: h :: text)
        (joinSurrogates high low :: read)
  | half {a b c d : Char} {n : Nat} {text read : List Char} (digits : hexFour? a b c d = some n)
      (first : isHighSurrogate n = true) (alone : ¬ StartsLow text) (behind : Body text read) :
      Body ('\\' :: 'u' :: a :: b :: c :: d :: text) (replacement :: read)

/-- The whole part of a number: a zero alone, or digits that do not start with a zero. -/
inductive WholeText : List Char → Prop
  | zero : WholeText ['0']
  | digits {c : Char} {rest : List Char} (first : isAsciiDigit c = true) (noZero : c ≠ '0')
      (others : ∀ d ∈ rest, isAsciiDigit d = true) : WholeText (c :: rest)

/-- The fraction of a number, if it has one, and its digits. -/
inductive FractionText : List Char → List Char → Prop
  | none : FractionText [] []
  | some {digits : List Char} (isDigits : IsDigits digits) : FractionText ('.' :: digits) digits

inductive SignText : List Char → Bool → Prop
  | none : SignText [] false
  | plus : SignText ['+'] false
  | minus : SignText ['-'] true

/-- The exponent of a number, if it has one, and its value. -/
inductive ExponentText : List Char → Option Int → Prop
  | none : ExponentText [] none
  | some {letter : Char} {sign digits : List Char} {negative : Bool}
      (isLetter : letter = 'e' ∨ letter = 'E') (isSign : SignText sign negative)
      (isDigits : IsDigits digits) :
      ExponentText (letter :: (sign ++ digits)) (some (signed negative (digitsValue digits)))

/-- A number without its sign. -/
inductive MagnitudeText : List Char → Numeral → Prop
  | mk {whole point fraction power : List Char} {exponent : Option Int} {negative : Bool}
      (isWhole : WholeText whole) (isFraction : FractionText point fraction)
      (isExponent : ExponentText power exponent) :
      MagnitudeText (whole ++ (point ++ power)) ⟨negative, whole, fraction, exponent⟩

/-- A number: its magnitude, with a minus sign in front of it where it is negative. -/
inductive NumeralText : List Char → Numeral → Prop
  | plain {text : List Char} {numeral : Numeral} (magnitude : MagnitudeText text numeral)
      (positive : numeral.negative = false) : NumeralText text numeral
  | minus {text : List Char} {numeral : Numeral} (magnitude : MagnitudeText text numeral)
      (negative : numeral.negative = true) : NumeralText ('-' :: text) numeral

/-- A number behind which this stands would go on: with a digit, a fraction or an exponent. -/
inductive Continues : List Char → Prop
  | digit {c : Char} {rest : List Char} (isDigit : isAsciiDigit c = true) : Continues (c :: rest)
  | fraction {c : Char} {rest : List Char} (isDigit : isAsciiDigit c = true) :
      Continues ('.' :: c :: rest)
  | exponent {letter c : Char} {sign rest : List Char} {negative : Bool}
      (isLetter : letter = 'e' ∨ letter = 'E') (isSign : SignText sign negative)
      (isDigit : isAsciiDigit c = true) : Continues (letter :: (sign ++ c :: rest))

/-- A number without a fraction and an exponent. -/
def Numeral.IsInteger (numeral : Numeral) : Prop :=
  numeral.fraction = [] ∧ numeral.exponent = none

/-- The words that stand for values. -/
inductive Word : String → Value → Prop
  | null : Word "null" .null
  | true : Word "true" (.bool true)
  | false : Word "false" (.bool false)
  | notNumber : Word "NaN" (.float Double.nan)
  | infinity : Word "Infinity" (.float (Double.infinity false))
  | minusInfinity : Word "-Infinity" (.float (Double.infinity true))

/-- A value in its place among others, with the blanks around its text. -/
structure Piece where
  before : List Char
  text : List Char
  behind : List Char
  value : Value

namespace Piece

def written (piece : Piece) : List Char := piece.before ++ (piece.text ++ piece.behind)

def Padded (piece : Piece) : Prop := IsBlanks piece.before ∧ IsBlanks piece.behind

end Piece

/-- A member in its place among others: the text between the quotes of its key and what it stands
for, with the blanks around the key, and its value. -/
structure Entry where
  before : List Char
  body : List Char
  key : List Char
  behind : List Char
  piece : Piece

/-- A key between quotes and the colon behind it, with blanks around the key. -/
def label (before body behind : List Char) : List Char :=
  before ++ doubleQuote :: (body ++ doubleQuote :: (behind ++ [':']))

namespace Entry

def written (entry : Entry) : List Char :=
  label entry.before entry.body entry.behind ++ entry.piece.written

structure Padded (entry : Entry) : Prop where
  before : IsBlanks entry.before
  behind : IsBlanks entry.behind
  piece : entry.piece.Padded

def member (entry : Entry) : String × Value := (String.ofList entry.key, entry.piece.value)

end Entry

/-- Texts with commas between them. -/
def listed (texts : List (List Char)) : List Char := [','].intercalate texts

/-- Texts with a comma behind each. -/
def ahead (texts : List (List Char)) : List Char := texts.flatMap (· ++ [','])

/-- An integer has no more digits than the limits allow. -/
def Short (limits : Option Limits) (numeral : Numeral) : Prop :=
  ∀ bounds, limits = some bounds → numeral.IsInteger → numeral.whole.length ≤ bounds.digits

/-- One more list or object may be opened. -/
def Shallow (limits : Option Limits) (outside : Nat) : Prop :=
  ∀ bounds, limits = some bounds → outside < bounds.depth

/-- The text of a value; `outside` is the number of lists and objects around it. -/
inductive Spells (limits : Option Limits) : (outside : Nat) → List Char → Value → Prop
  | word {outside : Nat} {word : String} {value : Value} (isWord : Word word value) :
      Spells limits outside word.toList value
  | number {outside : Nat} {text : List Char} {numeral : Numeral} {value : Value}
      (written : NumeralText text numeral) (denotes : numeral.value none = .ok value)
      (short : Short limits numeral) : Spells limits outside text value
  | text {outside : Nat} {body read : List Char} (isBody : Body body read) :
      Spells limits outside (doubleQuote :: (body ++ [doubleQuote])) (.text (String.ofList read))
  | emptyList {outside : Nat} {blanks : List Char} (shallow : Shallow limits outside)
      (isBlanks : IsBlanks blanks) : Spells limits outside ('[' :: (blanks ++ [']'])) (.list [])
  | list {outside : Nat} {pieces : List Piece} (shallow : Shallow limits outside)
      (some : pieces ≠ []) (padded : ∀ piece ∈ pieces, piece.Padded)
      (each : ∀ piece ∈ pieces, Spells limits (outside + 1) piece.text piece.value) :
      Spells limits outside ('[' :: (listed (pieces.map Piece.written) ++ [']']))
        (.list (pieces.map Piece.value))
  | emptyObject {outside : Nat} {blanks : List Char} (shallow : Shallow limits outside)
      (isBlanks : IsBlanks blanks) :
      Spells limits outside ('{' :: (blanks ++ ['}'])) (.object [])
  | object {outside : Nat} {entries : List Entry} (shallow : Shallow limits outside)
      (some : entries ≠ []) (padded : ∀ entry ∈ entries, entry.Padded)
      (keys : ∀ entry ∈ entries, Body entry.body entry.key)
      (each : ∀ entry ∈ entries, Spells limits (outside + 1) entry.piece.text entry.piece.value) :
      Spells limits outside ('{' :: (listed (entries.map Entry.written) ++ ['}']))
        (Value.ofMembers (entries.map Entry.member))

/-- The value of a whole text: a single one, with blanks around it. -/
def Represents (limits : Option Limits) (text : String) (value : Value) : Prop :=
  ∃ piece : Piece, piece.Padded ∧ Spells limits 0 piece.text piece.value ∧
    piece.written = text.toList ∧ piece.value = value

/-- The text goes beyond the limits, with an integer that is too long or with a list or an object
that is one too many: at its start, or inside a list or an object in which all before that place
keeps to the rules. -/
inductive Exceeds (limits : Limits) : (outside : Nat) → List Char → Excess → Prop
  | integer {outside : Nat} {text rest : List Char} {numeral : Numeral}
      (written : NumeralText text numeral) (isInteger : numeral.IsInteger)
      (long : limits.digits < numeral.whole.length) (ends : ¬ Continues rest) :
      Exceeds limits outside (text ++ rest) (.integer limits.digits numeral.whole.length)
  | list {outside : Nat} {rest : List Char} (deep : limits.depth ≤ outside) :
      Exceeds limits outside ('[' :: rest) (.depth .list)
  | object {outside : Nat} {rest : List Char} (deep : limits.depth ≤ outside) :
      Exceeds limits outside ('{' :: rest) (.depth .object)
  | item {outside : Nat} {pieces : List Piece} {before text : List Char} {excess : Excess}
      (shallow : outside < limits.depth) (padded : ∀ piece ∈ pieces, piece.Padded)
      (each : ∀ piece ∈ pieces, Spells (some limits) (outside + 1) piece.text piece.value)
      (isBlanks : IsBlanks before) (inside : Exceeds limits (outside + 1) text excess) :
      Exceeds limits outside ('[' :: (ahead (pieces.map Piece.written) ++ (before ++ text))) excess
  | member {outside : Nat} {entries : List Entry} {beforeKey body key behindKey before : List Char}
      {text : List Char} {excess : Excess} (shallow : outside < limits.depth)
      (padded : ∀ entry ∈ entries, entry.Padded)
      (keys : ∀ entry ∈ entries, Body entry.body entry.key)
      (each : ∀ entry ∈ entries,
        Spells (some limits) (outside + 1) entry.piece.text entry.piece.value)
      (blanksBefore : IsBlanks beforeKey) (isBody : Body body key)
      (blanksBehind : IsBlanks behindKey) (isBlanks : IsBlanks before)
      (inside : Exceeds limits (outside + 1) text excess) :
      Exceeds limits outside ('{' :: (ahead (entries.map Entry.written) ++
        (label beforeKey body behindKey ++ (before ++ text)))) excess

/-- A whole text goes beyond the limits. -/
def Overruns (limits : Limits) (text : String) (excess : Excess) : Prop :=
  ∃ before value, IsBlanks before ∧ Exceeds limits 0 value excess ∧ text.toList = before ++ value

end Reporting.Json
