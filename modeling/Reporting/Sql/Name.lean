import Reporting.Rejection

/-!
# Names in statements

Names cannot be bound as values, so each is vetted before it enters a statement: an identifier is
made of ASCII letters, digits, underscores and points, and a label is one such name without points
that does not start with a digit. A single line feed at the end is let through. `quoteName` writes
a vetted name, between double quotes where a reader would otherwise take it for something else.
-/

namespace Reporting.Sql

open Text

def isLetter (c : Char) : Bool :=
  (65 ≤ c.toNat && c.toNat ≤ 90) || (97 ≤ c.toNat && c.toNat ≤ 122)

/-- An ASCII letter, a digit or an underscore. -/
def isNameChar (c : Char) : Bool := isLetter c || isAsciiDigit c || c == '_'

/-- The text without a single line feed at its end. -/
def dropFinalNewline (text : List Char) : List Char :=
  if text.getLast? = some '\n' then text.dropLast else text

/-- Letters, digits, underscores and points, at least one of them. -/
def isIdentifier (name : List Char) : Bool :=
  let body := dropFinalNewline name
  !body.isEmpty && body.all fun c => isNameChar c || c == '.'

/-- A single name that does not start with a digit. -/
def isLabel (name : List Char) : Bool :=
  match dropFinalNewline name with
  | [] => false
  | first :: rest => (isLetter first || first == '_') && rest.all isNameChar

def vetIdentifier (name : String) : Except Rejection String :=
  if isIdentifier name.toList then .ok name else .error (.invalidIdentifier (.text name))

/-- Vets a value as a name; one that is no text is refused, if the refusal can be written. -/
def vetIdentifierValue (name : Value) : Except BuildFault String :=
  match name with
  | .scalar (.text name) => BuildFault.lift (vetIdentifier name)
  | _ => .error (if name.isShort then .rejected (.invalidIdentifier name) else .longInteger)

def vetLabel (label : String) : Except Rejection String := do
  let label ← vetIdentifier label
  if isLabel label.toList then .ok label else .error (.invalidLabel label)

/-- Words that a statement gives a meaning of their own. -/
def reservedWords : List String := [
  "all", "analyse", "analyze", "and", "any", "array", "as", "asc", "asymmetric", "authorization",
  "between", "binary", "both", "case", "cast", "check", "collate", "column", "constraint",
  "create", "cross", "current_date", "current_role", "current_time", "current_timestamp",
  "current_user", "default", "deferrable", "desc", "distinct", "do", "else", "end", "except",
  "false", "for", "foreign", "freeze", "from", "full", "grant", "group", "having", "ilike", "in",
  "initially", "inner", "intersect", "into", "is", "isnull", "join", "leading", "left", "like",
  "limit", "localtime", "localtimestamp", "natural", "new", "not", "notnull", "null", "off",
  "offset", "old", "on", "only", "or", "order", "outer", "overlaps", "placing", "primary",
  "references", "right", "select", "session_user", "set", "similar", "some", "symmetric", "table",
  "then", "to", "trailing", "true", "union", "unique", "user", "using", "verbose", "when",
  "where"]

/-- The characters of a name in lower case; a vetted name has ASCII letters only. -/
def lowered (name : List Char) : List Char := name.map Char.toLower

/-- Must the name stand between quotes? A reserved word must, and a name that starts with a digit
or a dollar sign, holds anything but name characters and dollar signs, or has capitals. -/
def needsQuotes (name : List Char) : Bool :=
  let body := dropFinalNewline name
  reservedWords.contains (String.ofList (lowered name)) ||
    (match name.head? with
      | some first => isAsciiDigit first || first == '$'
      | none => true) ||
    body.isEmpty || !body.all (fun c => isNameChar c || c == '$') ||
    lowered name != name

/-- Doubles the double quotes of a name. -/
def doubleQuotes (name : List Char) : List Char :=
  name.flatMap fun c => if c == doubleQuote then [c, c] else [c]

def quoteName (name : String) : String :=
  if needsQuotes name.toList then
    String.ofList (doubleQuote :: doubleQuotes name.toList ++ [doubleQuote])
  else name

end Reporting.Sql
