import Reporting.Moment
import Reporting.Number.Decimal
import Reporting.Number.Shortest
import Reporting.Number.Word
import Reporting.Text.Quoted

/-!
# Values

A `Scalar` is what a condition compares a column with; a `Value` is anything that a document, a
filter or a result row holds: nothing, a scalar, a list, or an object whose members keep their
order. `Scalar.plain` is the bare text of a scalar, and `Value.display` shows a value on one line
with its texts quoted, whatever the size of their integers. What is written for a user has short
integers only: `Scalar.written?` and `Value.written?`.
-/

namespace Reporting

/-- A single value that can be bound to a placeholder. -/
inductive Scalar where
  | bool (b : Bool)
  | int (n : Int)
  | float (x : Double)
  | decimal (d : Decimal)
  | moment (m : Moment)
  | text (s : String)
  deriving DecidableEq

/-- A value of a document or of a result row. -/
inductive Value where
  | null
  | scalar (s : Scalar)
  | list (items : List Value)
  | object (members : List (String × Value))

instance : Inhabited Value := ⟨.null⟩

namespace Scalar

/-- The bare text of a scalar: a text as it is, a truth value by its capitalised name, a number in
its shortest form, a moment with a space between date and time. -/
def plain : Scalar → String
  | .bool b => if b then "True" else "False"
  | .int n => toString n
  | .float x => x.text
  | .decimal d => d.text
  | .moment m => m.text " "
  | .text s => s

/-- A text between quotes, anything else as its bare text. -/
def display : Scalar → String
  | .text s => Text.quoted s
  | s => s.plain

/-- Is the scalar anything but an integer that is too long to be written? -/
def isShort : Scalar → Bool
  | .int n => isShortInteger n
  | _ => true

/-- The bare text, if the scalar can be written. -/
def written? (s : Scalar) : Option String := if s.isShort then some s.plain else none

end Scalar

namespace Value

abbrev bool (b : Bool) : Value := .scalar (.bool b)

abbrev int (n : Int) : Value := .scalar (.int n)

abbrev float (x : Double) : Value := .scalar (.float x)

abbrev text (s : String) : Value := .scalar (.text s)

mutual

/-- Shows a value on one line. -/
def display : Value → String
  | .null => "None"
  | .scalar s => s.display
  | .list items => "[" ++ displayItems items ++ "]"
  | .object members => "\x7b" ++ displayMembers members ++ "\x7d"

def displayItems : List Value → String
  | [] => ""
  | [item] => display item
  | item :: rest => display item ++ ", " ++ displayItems rest

def displayMembers : List (String × Value) → String
  | [] => ""
  | [(key, value)] => Text.quoted key ++ ": " ++ display value
  | (key, value) :: rest =>
    Text.quoted key ++ ": " ++ display value ++ ", " ++ displayMembers rest

end

/-- The text of a value that stands alone: a text bare, anything else as it is displayed. -/
def plain : Value → String
  | .scalar s => s.plain
  | value => value.display

mutual

/-- Can all integers inside the value be written? -/
def isShort : Value → Bool
  | .null => true
  | .scalar s => s.isShort
  | .list items => areShort items
  | .object members => areMembersShort members

def areShort : List Value → Bool
  | [] => true
  | item :: rest => isShort item && areShort rest

def areMembersShort : List (String × Value) → Bool
  | [] => true
  | (_, value) :: rest => isShort value && areMembersShort rest

end

/-- The text of a value that stands alone, if it can be written. -/
def written? (value : Value) : Option String := if value.isShort then some value.plain else none

/-- The kind of a value, as it is named to users. -/
def kind : Value → String
  | .null => "NoneType"
  | .scalar (.bool _) => "bool"
  | .scalar (.int _) => "int"
  | .scalar (.float _) => "float"
  | .scalar (.decimal _) => "Decimal"
  | .scalar (.moment m) => if m.time.isSome then "datetime" else "date"
  | .scalar (.text _) => "str"
  | .list _ => "list"
  | .object _ => "dict"

def members? : Value → Option (List (String × Value))
  | .object members => some members
  | _ => none

def member? (value : Value) (key : String) : Option Value :=
  match value with
  | .object members => members.lookup key
  | _ => none

/-- Puts a member: an existing key keeps its place and takes the new value. -/
def put (members : List (String × Value)) (key : String) (value : Value) : List (String × Value) :=
  if members.any (·.1 == key) then
    members.map fun member => if member.1 == key then (key, value) else member
  else members ++ [(key, value)]

/-- Members in the order of their first writing, each with its last value. -/
def ofMembers (written : List (String × Value)) : Value :=
  .object (written.foldl (fun members member => put members member.1 member.2) [])

end Value

end Reporting
