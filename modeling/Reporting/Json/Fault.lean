/-!
# Faults of JSON text

A `Fault` says what is wrong with a text and where: the line, the column and the number of
characters before it. A reader may have `Limits` on the digits of an integer and on how deep lists
and objects stand inside one another; a text that goes beyond them is an `Excess`, apart from those
faults.

How far a recursion can go before the stack ends hangs on who calls it, so no function of this
library has a number of its own for that. A reader of JSON text is told the depth by its caller
(`Limits.depth`, and `depth` wherever a stored text is read), and what is proved of it holds for
every depth. The one other recursion that a caller's input can make long, along the requirements of
relationships (`Schema.requirements`), is told its number of steps in the same way, and
`Schema.planJoins` gives it as many as can ever be taken.
-/

namespace Reporting.Json

inductive Problem where
  | byteOrderMark
  | value
  | propertyName
  | colon
  | comma
  | extraData
  | controlCharacter
  | unterminatedString
  | escapeSequence
  | unicodeEscape
  deriving DecidableEq

def Problem.message : Problem → String
  | .byteOrderMark => "Unexpected UTF-8 BOM (decode using utf-8-sig)"
  | .value => "Expecting value"
  | .propertyName => "Expecting property name enclosed in double quotes"
  | .colon => "Expecting ':' delimiter"
  | .comma => "Expecting ',' delimiter"
  | .extraData => "Extra data"
  | .controlCharacter => "Invalid control character at"
  | .unterminatedString => "Unterminated string starting at"
  | .escapeSequence => "Invalid \\escape"
  | .unicodeEscape => "Invalid \\uXXXX escape"

/-- A problem and its place; lines and columns are counted from one, characters from zero. -/
structure Fault where
  problem : Problem
  line : Nat
  column : Nat
  offset : Nat
  deriving DecidableEq

/-- The place that a number of characters of the text precede. -/
def Fault.place (problem : Problem) (text : List Char) (offset : Nat) : Fault :=
  let before := text.take offset
  { problem
    line := before.count '\n' + 1
    column := (before.reverse.takeWhile (· != '\n')).length + 1
    offset }

def Fault.message (fault : Fault) : String :=
  fault.problem.message ++ ": line " ++ toString fault.line ++ " column " ++
    toString fault.column ++ " (char " ++ toString fault.offset ++ ")"

/-- The most digits of an integer, and the most lists and objects that may be open at once, for
which a reader has stack enough. -/
structure Limits where
  digits : Nat
  depth : Nat
  deriving DecidableEq

inductive Container where
  | list
  | object
  deriving DecidableEq

def Container.name : Container → String
  | .list => "array"
  | .object => "object"

/-- What goes beyond the limits of a reader: an integer, or the container that is one too many. -/
inductive Excess where
  | integer (limit digits : Nat)
  | depth (container : Container)
  deriving DecidableEq

def Excess.message : Excess → String
  | .integer limit digits =>
    "Exceeds the limit (" ++ toString limit ++
      " digits) for integer string conversion: value has " ++ toString digits ++
      " digits; use sys.set_int_max_str_digits() to increase the limit"
  | .depth container =>
    "maximum recursion depth exceeded while decoding a JSON " ++ container.name ++
      " from a unicode string"

inductive Error where
  | malformed (fault : Fault)
  | beyondLimits (excess : Excess)
  deriving DecidableEq

end Reporting.Json
