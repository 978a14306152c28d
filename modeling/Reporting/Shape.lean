import Reporting.Moment.Calendar
import Reporting.Value

/-!
# Reading records out of values

A record is read field by field, and every fault is kept: `Checked` holds either the record or all
the faults found, in the order of the fields. A fault has a path from the outermost record to the
offending value, so the faults of a nested record are those of the record itself with its place put
in front (`Checked.within`).
-/

namespace Reporting

inductive PathStep where
  | member (name : String)
  | item (index : Nat)
  deriving DecidableEq

def PathStep.text : PathStep → String
  | .member name => name
  | .item index => toString index

/-- What a value should have been. -/
inductive ShapeProblem where
  | missing
  | notText
  | notList
  | notRecord (record : String)
  | notChoice (choices : List String)
  | notInteger
  | fractionalInteger
  | infiniteInteger
  | unreadableInteger
  | oversizedInteger
  | integerBelow (least : Int)
  | notNumber
  | unreadableNumber
  | numberNotAbove (bound : Int)
  | notTruth
  | unreadableTruth
  | notMoment
  | unreadableMoment (fault : DateFault)
  | impossibleDate (fault : TimestampFault)
  | impossibleMoment (fault : TimestampFault)
  | noNumberMoment
  | yearZero
  deriving DecidableEq

namespace ShapeProblem

/-- Choices in single quotes, separated by commas, the last after `or`. -/
def listChoices : List String → String
  | [] => ""
  | [choice] => Text.quoted choice
  | [first, last] => Text.quoted first ++ " or " ++ Text.quoted last
  | first :: rest => Text.quoted first ++ ", " ++ listChoices rest

def message : ShapeProblem → String
  | .missing => "Field required"
  | .notText => "Input should be a valid string"
  | .notList => "Input should be a valid list"
  | .notRecord record => "Input should be a valid dictionary or instance of " ++ record
  | .notChoice choices => "Input should be " ++ listChoices choices
  | .notInteger => "Input should be a valid integer"
  | .fractionalInteger => "Input should be a valid integer, got a number with a fractional part"
  | .infiniteInteger => "Input should be a finite number"
  | .unreadableInteger => "Input should be a valid integer, unable to parse string as an integer"
  | .oversizedInteger => "Unable to parse input string as an integer, exceeded maximum size"
  | .integerBelow least => "Input should be greater than or equal to " ++ toString least
  | .notNumber => "Input should be a valid number"
  | .unreadableNumber => "Input should be a valid number, unable to parse string as a number"
  | .numberNotAbove bound => "Input should be greater than " ++ toString bound
  | .notTruth => "Input should be a valid boolean"
  | .unreadableTruth => "Input should be a valid boolean, unable to interpret input"
  | .notMoment => "Input should be a valid datetime"
  | .unreadableMoment fault => "Input should be a valid datetime or date, " ++ fault.message
  | .impossibleDate fault => "Input should be a valid datetime or date, " ++ fault.message
  | .impossibleMoment fault => "Input should be a valid datetime, " ++ fault.message
  | .noNumberMoment => "Input should be a valid datetime, NaN values not permitted"
  | .yearZero => "Input should be a valid datetime, year 0 is out of range"

end ShapeProblem

/-- A problem and where it is. -/
structure ShapeFault where
  path : List PathStep
  problem : ShapeProblem
  deriving DecidableEq

/-- The path with points between its steps, then the problem. -/
def ShapeFault.message (fault : ShapeFault) : String :=
  String.intercalate "." (fault.path.map PathStep.text) ++ ": " ++ fault.problem.message

def ShapeFault.listing (faults : List ShapeFault) : String :=
  String.intercalate "; " (faults.map ShapeFault.message)

/-- A result, or the faults that stand in its way. -/
inductive Checked (α : Type) where
  | valid (a : α)
  | faulty (faults : List ShapeFault)

namespace Checked

def map {α β : Type} (f : α → β) : Checked α → Checked β
  | .valid a => .valid (f a)
  | .faulty faults => .faulty faults

/-- Combines two results; where both are faulty the faults of the first come first. -/
def seq {α β : Type} (f : Checked (α → β)) (a : Unit → Checked α) : Checked β :=
  match f, a () with
  | .valid f, .valid a => .valid (f a)
  | .valid _, .faulty faults => .faulty faults
  | .faulty faults, .valid _ => .faulty faults
  | .faulty first, .faulty second => .faulty (first ++ second)

instance : Applicative Checked where
  pure := .valid
  map := map
  seq := seq

def problem {α : Type} (p : ShapeProblem) : Checked α := .faulty [⟨[], p⟩]

/-- Puts a step in front of every fault's path. -/
def within {α : Type} (step : PathStep) : Checked α → Checked α
  | .valid a => .valid a
  | .faulty faults => .faulty (faults.map fun fault => { fault with path := step :: fault.path })

/-- Reads every item; `index` is the place of the first. -/
def items {α : Type} (read : Value → Checked α) : (index : Nat) → List Value → Checked (List α)
  | _, [] => .valid []
  | index, item :: rest =>
    List.cons <$> within (.item index) (read item) <*> items read (index + 1) rest

/-- Continues with a valid result only. -/
def andThen {α β : Type} (a : Checked α) (next : α → Checked β) : Checked β :=
  match a with
  | .valid a => next a
  | .faulty faults => .faulty faults

def toExcept {α : Type} : Checked α → Except (List ShapeFault) α
  | .valid a => .ok a
  | .faulty faults => .error faults

end Checked

namespace Shape

/-- The members of a record. -/
def record {α : Type} (name : String) (read : List (String × Value) → Checked α) :
    Value → Checked α
  | .object members => read members
  | _ => .problem (.notRecord name)

def required {α : Type} (name : String) (read : Value → Checked α)
    (members : List (String × Value)) : Checked α :=
  .within (.member name) <|
    match members.lookup name with
    | some value => read value
    | none => .problem .missing

def optional {α : Type} (name : String) (default : α) (read : Value → Checked α)
    (members : List (String × Value)) : Checked α :=
  match members.lookup name with
  | some value => .within (.member name) (read value)
  | none => .valid default

def nullable {α : Type} (read : Value → Checked α) : Value → Checked (Option α)
  | .null => .valid none
  | value => some <$> read value

/-- A text, taken as it is. -/
def text : Value → Checked String
  | .scalar (.text s) => .valid s
  | _ => .problem .notText

/-- An integer and nothing that could pass for one. -/
def exactInteger : Value → Checked Int
  | .scalar (.int n) => .valid n
  | _ => .problem .notInteger

/-- A list of records; null counts as the empty list. -/
def listOrNull {α : Type} (read : Value → Checked α) : Value → Checked (List α)
  | .null => .valid []
  | .list items => .items read 0 items
  | _ => .problem .notList

/-- One of a few texts. -/
def choice {α : Type} (choices : List String) (ofText? : String → Option α) : Value → Checked α
  | .scalar (.text s) =>
    match ofText? s with
    | some a => .valid a
    | none => .problem (.notChoice choices)
  | _ => .problem (.notChoice choices)

end Shape

end Reporting
