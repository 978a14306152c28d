import Reporting.Json.Fault
import Reporting.Value

/-!
# Reading JSON text

`Json.read` turns a text into a `Value`, within limits if there are any. Numbers without a fraction
and an exponent are integers, all others are doubles; `NaN`, `Infinity` and `-Infinity` are numbers
too. Members keep the place of their first writing and the value of their last. The reading
functions work on the characters that are left and name a fault by how many of them there are, which
`read` turns into a line and a column.

An escape may name half of a surrogate pair without the other half. A text here holds characters
only, so such a half is read as the replacement character U+FFFD, where a reader whose texts hold
code points would keep it as it is.
-/

namespace Reporting.Json

open Text

/-- Where reading stopped: a problem with the number of characters left, or an excess. -/
inductive Halt where
  | stop (problem : Problem) (left : Nat)
  | beyondLimits (excess : Excess)

/-- Skips spaces, tabs, line feeds and carriage returns. -/
def skipBlank (text : List Char) : List Char :=
  text.dropWhile fun c => c == ' ' || c == '\t' || c == '\n' || c == '\r'

def hexFour? (a b c d : Char) : Option Nat := do
  let a ← hexValue? a
  let b ← hexValue? b
  let c ← hexValue? c
  let d ← hexValue? d
  return ((a * 16 + b) * 16 + c) * 16 + d

def shortEscape? (c : Char) : Option Char :=
  if c == doubleQuote || c == '\\' || c == '/' then some c
  else if c == 'b' then some (Char.ofNat 8)
  else if c == 'f' then some (Char.ofNat 12)
  else if c == 'n' then some '\n'
  else if c == 'r' then some '\r'
  else if c == 't' then some '\t'
  else none

/-- Stands in for half of a surrogate pair that has lost its other half. -/
def replacement : Char := Char.ofNat 0xFFFD

/-- The first half of a surrogate pair. -/
def isHighSurrogate (n : Nat) : Bool := 0xD800 ≤ n && n ≤ 0xDBFF

/-- The second half of a surrogate pair. -/
def isLowSurrogate (n : Nat) : Bool := 0xDC00 ≤ n && n ≤ 0xDFFF

def loneUnit (n : Nat) : Char :=
  if isHighSurrogate n || isLowSurrogate n then replacement else Char.ofNat n

def joinSurrogates (high low : Nat) : Char :=
  Char.ofNat (0x10000 + (high - 0xD800) * 0x400 + (low - 0xDC00))

/-- Reads the body of an escape written with four digits. The text starts after the letter `u`;
one more character must follow the digits. A first half takes the second half with it. -/
def readUnit (text : List Char) : Except Halt (Char × List Char) :=
  match text with
  | a :: b :: c :: d :: next :: more =>
    match hexFour? a b c d with
    | none => .error (.stop .unicodeEscape (text.length + 1))
    | some high =>
      if isHighSurrogate high then
        match next :: more with
        | '\\' :: 'u' :: e :: f :: g :: h :: last :: rest =>
          match hexFour? e f g h with
          | none => .error (.stop .unicodeEscape (rest.length + 6))
          | some low =>
            if isLowSurrogate low then .ok (joinSurrogates high low, last :: rest)
            else .ok (replacement, next :: more)
        | _ => .ok (replacement, next :: more)
      else .ok (loneUnit high, next :: more)
  | _ => .error (.stop .unicodeEscape (text.length + 1))

/-- Reads a string up to its closing quote. `opening` is the number of characters left at the
opening quote and `read` holds what was read, last character first. -/
def readString (opening : Nat) :
    (fuel : Nat) → (read text : List Char) → Except Halt (String × List Char)
  | 0, _, _ | _, _, [] => .error (.stop .unterminatedString opening)
  | fuel + 1, read, c :: rest =>
    if c == doubleQuote then .ok (String.ofList read.reverse, rest)
    else if c == '\\' then
      match rest with
      | [] => .error (.stop .unterminatedString opening)
      | 'u' :: rest =>
        match readUnit rest with
        | .error halt => .error halt
        | .ok (c, rest) => readString opening fuel (c :: read) rest
      | letter :: rest =>
        match shortEscape? letter with
        | some c => readString opening fuel (c :: read) rest
        | none => .error (.stop .escapeSequence (rest.length + 2))
    else if c.toNat < 0x20 then .error (.stop .controlCharacter (rest.length + 1))
    else readString opening fuel (c :: read) rest

def readText (text : List Char) : Except Halt (String × List Char) :=
  readString (text.length + 1) (text.length + 1) [] text

/-- A written number: sign, whole part, fraction, and an exponent if there is one. -/
structure Numeral where
  negative : Bool
  whole : List Char
  fraction : List Char
  exponent : Option Int

/-- Reads the whole part: a zero alone, or digits that do not start with a zero. -/
def readWhole? : List Char → Option (List Char × List Char)
  | '0' :: rest => some (['0'], rest)
  | c :: rest =>
    if isAsciiDigit c then some (c :: rest.takeWhile isAsciiDigit, rest.dropWhile isAsciiDigit)
    else none
  | [] => none

/-- Reads a fraction; a point without a digit after it is left alone. -/
def readFraction : List Char → List Char × List Char
  | '.' :: rest =>
    if (rest.takeWhile isAsciiDigit).isEmpty then ([], '.' :: rest)
    else (rest.takeWhile isAsciiDigit, rest.dropWhile isAsciiDigit)
  | rest => ([], rest)

/-- Reads an exponent; a letter without digits after it is left alone. -/
def readExponent (text : List Char) : Option Int × List Char :=
  match text with
  | c :: rest =>
    if c == 'e' || c == 'E' then
      let (negative, rest) := splitSign rest
      let digits := rest.takeWhile isAsciiDigit
      if digits.isEmpty then (none, text)
      else (some (signed negative (digitsValue digits)), rest.dropWhile isAsciiDigit)
    else (none, text)
  | [] => (none, text)

/-- Reads a number, taking as much of the text as fits. -/
def readNumeral? (text : List Char) : Option (Numeral × List Char) := do
  let (negative, rest) := match text with
    | '-' :: rest => (true, rest)
    | rest => (false, rest)
  let (whole, rest) ← readWhole? rest
  let (fraction, rest) := readFraction rest
  let (exponent, rest) := readExponent rest
  return (⟨negative, whole, fraction, exponent⟩, rest)

def keepWithin (limits : Option Limits) (excess? : Limits → Option Excess) : Except Halt Unit :=
  match limits.bind excess? with
  | some excess => .error (.beyondLimits excess)
  | none => .ok ()

def longInteger? (digits : Nat) (limits : Limits) : Option Excess :=
  if limits.digits < digits then some (.integer limits.digits digits) else none

def deepContainer? (container : Container) (outside : Nat) (limits : Limits) : Option Excess :=
  if limits.depth ≤ outside then some (.depth container) else none

/-- The value of a written number: an integer without fraction and exponent, else a double. -/
def Numeral.value (limits : Option Limits) (n : Numeral) : Except Halt Value :=
  if n.fraction.isEmpty && n.exponent.isNone then do
    keepWithin limits (longInteger? n.whole.length)
    return .int (signed n.negative (digitsValue n.whole))
  else
    .ok (.float (Double.ofDecimal n.negative (digitsValue (n.whole ++ n.fraction))
      (n.exponent.getD 0 - n.fraction.length)))

def readPlain (limits : Option Limits) (text : List Char) : Except Halt (Value × List Char) :=
  match text with
  | 'n' :: 'u' :: 'l' :: 'l' :: rest => .ok (.null, rest)
  | 't' :: 'r' :: 'u' :: 'e' :: rest => .ok (.bool true, rest)
  | 'f' :: 'a' :: 'l' :: 's' :: 'e' :: rest => .ok (.bool false, rest)
  | 'N' :: 'a' :: 'N' :: rest => .ok (.float Double.nan, rest)
  | 'I' :: 'n' :: 'f' :: 'i' :: 'n' :: 'i' :: 't' :: 'y' :: rest =>
    .ok (.float (Double.infinity false), rest)
  | '-' :: 'I' :: 'n' :: 'f' :: 'i' :: 'n' :: 'i' :: 't' :: 'y' :: rest =>
    .ok (.float (Double.infinity true), rest)
  | _ =>
    match readNumeral? text with
    | none => .error (.stop .value text.length)
    | some (numeral, rest) => (numeral.value limits).map (·, rest)

mutual

/-- Reads a value; the text starts with its first character. `outside` is the number of lists and
objects around it. -/
def readValue (limits : Option Limits) :
    (fuel outside : Nat) → List Char → Except Halt (Value × List Char)
  | 0, _, text => .error (.stop .value text.length)
  | fuel + 1, outside, text =>
    match text with
    | '"' :: rest => (readText rest).map fun (s, rest) => (.text s, rest)
    | '{' :: rest => do
      keepWithin limits (deepContainer? .object outside)
      match skipBlank rest with
      | '}' :: rest => .ok (.object [], rest)
      | rest => readMembers limits fuel (outside + 1) [] rest
    | '[' :: rest => do
      keepWithin limits (deepContainer? .list outside)
      match skipBlank rest with
      | ']' :: rest => .ok (.list [], rest)
      | rest => readItems limits fuel (outside + 1) [] rest
    | _ => readPlain limits text

/-- Reads the members of an object from the next key on; `read` holds those before it, last
first. -/
def readMembers (limits : Option Limits) :
    (fuel outside : Nat) → (read : List (String × Value)) → List Char →
      Except Halt (Value × List Char)
  | 0, _, _, text => .error (.stop .propertyName text.length)
  | fuel + 1, outside, read, text =>
    match text with
    | '"' :: rest => do
      let (key, rest) ← readText rest
      match skipBlank rest with
      | ':' :: rest =>
        let (value, rest) ← readValue limits fuel outside (skipBlank rest)
        match skipBlank rest with
        | '}' :: rest => .ok (Value.ofMembers ((key, value) :: read).reverse, rest)
        | ',' :: rest => readMembers limits fuel outside ((key, value) :: read) (skipBlank rest)
        | rest => .error (.stop .comma rest.length)
      | rest => .error (.stop .colon rest.length)
    | _ => .error (.stop .propertyName text.length)

/-- Reads the items of a list from the next item on; `read` holds those before it, last first. -/
def readItems (limits : Option Limits) :
    (fuel outside : Nat) → (read : List Value) → List Char → Except Halt (Value × List Char)
  | 0, _, _, text => .error (.stop .value text.length)
  | fuel + 1, outside, read, text => do
    let (value, rest) ← readValue limits fuel outside text
    match skipBlank rest with
    | ']' :: rest => .ok (.list (value :: read).reverse, rest)
    | ',' :: rest => readItems limits fuel outside (value :: read) (skipBlank rest)
    | rest => .error (.stop .comma rest.length)

end

/-- Reads a whole text: blanks, one value, blanks. -/
def readDocument (limits : Option Limits) (text : List Char) : Except Halt Value := do
  if text.head? == some (Char.ofNat 0xFEFF) then throw (.stop .byteOrderMark text.length)
  let (value, rest) ← readValue limits (2 * text.length + 1) 0 (skipBlank text)
  match skipBlank rest with
  | [] => return value
  | rest => throw (.stop .extraData rest.length)

def read (limits : Option Limits) (text : String) : Except Error Value :=
  let chars := text.toList
  match readDocument limits chars with
  | .ok value => .ok value
  | .error (.beyondLimits excess) => .error (.beyondLimits excess)
  | .error (.stop problem left) => .error (.malformed (.place problem chars (chars.length - left)))

end Reporting.Json
