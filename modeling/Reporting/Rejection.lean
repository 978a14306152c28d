import Reporting.Shape

/-!
# Rejections

A `Rejection` is the reason why a report is refused. Each has a `code` that names its family, a
`message`, and where a part of the report is to blame the `field` that names it. Checking a report
or building its statement may also end without a rejection: such a `BuildFault` blames no rule.
-/

namespace Reporting

/-- Why the value of a filter does not fit its operator. -/
inductive ValueMismatch where
  | notList
  | emptyList
  | itemNotScalar
  | notScalar
  deriving DecidableEq

/-- Why a report is refused. The integers that a message shows are short: a limit or a name that is
too long to be written is no rejection but a `BuildFault.longInteger`. -/
inductive Rejection where
  | malformed (faults : List ShapeFault)
  | emptyReport
  | missingGrouping (field : String)
  | unknownSource (table : String) (field : Option String)
  | unavailableSource (table : String) (available : List String)
  | malformedField (field : String)
  | foreignColumn (field column table : String)
  | foreignRelatedColumn (field column reference : String)
  | unknownRelationship (field key table : String) (available : List String)
  | undeclaredRequirement (key table : String)
  | nonNumericSum (field : String)
  | nonNumericAggregate (field : String)
  | unsupportedOperation (operation field : String)
  | unsupportedOperator (operator field : String)
  | valueMismatch (mismatch : ValueMismatch) (operator field : String)
  | sortOutsideReport (field : String)
  | sortOutsideGroups (field : String)
  | sortOutsideTable (field table : String)
  | unboundedAggregateSort (field : String)
  | limitOutOfRange (limit : Int) (greatest : Nat)
  | invalidIdentifier (name : Value)
  | invalidLabel (label : String)
  | duplicateOutput (first second name : String)

namespace Rejection

/-- The family of a rejection. -/
def code : Rejection → String
  | .malformed _ => "MalformedReportConfig"
  | .emptyReport => "EmptyReport"
  | .missingGrouping _ => "MissingGroupingForAggregate"
  | .unknownSource _ _ | .unavailableSource _ _ => "UnknownTable"
  | .malformedField _ | .foreignColumn _ _ _ | .foreignRelatedColumn _ _ _ => "UnknownField"
  | .unknownRelationship _ _ _ _ | .undeclaredRequirement _ _ => "UnknownRelationship"
  | .nonNumericSum _ | .nonNumericAggregate _ => "NonNumericAggregation"
  | .unsupportedOperation _ _ => "UnsupportedOperation"
  | .unsupportedOperator _ _ => "UnsupportedFilterOperator"
  | .valueMismatch _ _ _ => "InvalidFilterValue"
  | .sortOutsideReport _ | .sortOutsideGroups _ | .sortOutsideTable _ _ => "InvalidSortField"
  | .unboundedAggregateSort _ => "MissingLimitForAggregateSort"
  | .limitOutOfRange _ _ => "InvalidLimitRange"
  | .invalidIdentifier _ | .invalidLabel _ => "InvalidIdentifier"
  | .duplicateOutput _ _ _ => "DuplicateOutputColumn"

/-- Names in single quotes, as messages show them: without any escape. -/
def named (name : String) : String := "'" ++ name ++ "'"

def mismatchMessage (operator field : String) : ValueMismatch → String
  | .notList => operator ++ " on " ++ named field ++ " requires a list of values"
  | .emptyList => operator ++ " on " ++ named field ++ " requires at least one value"
  | .itemNotScalar => operator ++ " on " ++ named field ++ " accepts only scalar values"
  | .notScalar =>
    "Operator " ++ named operator ++ " on " ++ named field ++ " requires a single scalar value"

def message : Rejection → String
  | .malformed faults =>
    "Malformed report configuration: " ++ toString faults.length ++ " error(s): " ++
      ShapeFault.listing faults
  | .emptyReport => "A report needs at least one dimension or metric"
  | .missingGrouping _ => "Metrics require at least one dimension to group by"
  | .unknownSource table _ => "Unknown source table " ++ named table
  | .unavailableSource table available =>
    "Unknown source table " ++ named table ++ " (available: " ++
      String.intercalate ", " available ++ ")"
  | .malformedField field =>
    "Field " ++ named field ++ " must be 'column' or 'relationship.column'"
  | .foreignColumn _ column table =>
    "Field " ++ named column ++ " is not allowed on table " ++ named table
  | .foreignRelatedColumn _ column reference =>
    "Field " ++ named column ++ " is not allowed on related table " ++ named reference
  | .unknownRelationship _ key table available =>
    "Relationship " ++ named key ++ " not found for table " ++ named table ++ " (available: " ++
      (if (String.intercalate ", " available).isEmpty then "none"
        else String.intercalate ", " available) ++ ")"
  | .undeclaredRequirement key table =>
    "Relationship " ++ named key ++ " not found for table " ++ named table
  | .nonNumericSum field =>
    "Field " ++ named field ++ " is not numeric and cannot be used in SUM"
  | .nonNumericAggregate field => "Field " ++ named field ++ " cannot be used in SUM"
  | .unsupportedOperation operation _ =>
    "Operation " ++ named operation ++ " is not supported (use SUM or COUNT)"
  | .unsupportedOperator operator _ => "Operator " ++ named operator ++ " is not allowed"
  | .valueMismatch mismatch operator field => mismatchMessage operator field mismatch
  | .sortOutsideReport field =>
    "Sort field " ++ named field ++ " must be one of the report's dimensions or metrics"
  | .sortOutsideGroups field =>
    "Field " ++ named field ++ " cannot be used in ORDER BY on a grouped report; " ++
      "use one of the configured dimensions or metrics"
  | .sortOutsideTable field table =>
    "Field " ++ named field ++ " is not allowed for sorting on table " ++ named table
  | .unboundedAggregateSort field =>
    "Sorting by metric " ++ named field ++ " requires a positive limit"
  | .limitOutOfRange limit greatest =>
    "Limit " ++ toString limit ++ " must be between 0 and " ++ toString greatest
  | .invalidIdentifier name => "Invalid identifier: " ++ name.display
  | .invalidLabel label => "Invalid alias: " ++ Text.quoted label
  | .duplicateOutput first second name =>
    "Fields " ++ named first ++ " and " ++ named second ++ " both produce the output column " ++
      named name ++ "; give one of them an alias"

/-- The part of the report that is to blame. -/
def field : Rejection → Option Value
  | .malformed _ | .emptyReport | .unavailableSource _ _ | .undeclaredRequirement _ _
  | .limitOutOfRange _ _ => none
  | .unknownSource _ field => field.map Value.text
  | .missingGrouping field | .malformedField field | .foreignColumn field _ _
  | .foreignRelatedColumn field _ _ | .unknownRelationship field _ _ _ | .nonNumericSum field
  | .nonNumericAggregate field | .unsupportedOperation _ field | .unsupportedOperator _ field
  | .valueMismatch _ _ field | .sortOutsideReport field | .sortOutsideGroups field
  | .sortOutsideTable field _ | .unboundedAggregateSort field
  | .duplicateOutput _ field _ => some (.text field)
  | .invalidIdentifier name => some name
  | .invalidLabel label => some (.text label)

end Rejection

/-- Why a report cannot be checked or its statement not built. Apart from rejections: an integer
that is too long to be written, a table reference that is not joined or a column that is not behind
it, an operation that no aggregate computes, and an order by an entry that is not selected. -/
inductive BuildFault where
  | rejected (rejection : Rejection)
  | longInteger
  | notJoined (name : String)
  | noAggregate (operation : String)
  | noSelection (position : Nat)

namespace BuildFault

def message : BuildFault → String
  | .rejected rejection => rejection.message
  | .longInteger => longIntegerMessage
  | .notJoined name => "No joined table goes by or holds " ++ Text.quoted name
  | .noAggregate operation => "No aggregate computes " ++ Text.quoted operation
  | .noSelection position => "Nothing is selected at position " ++ toString position

def lift {α : Type} : Except Rejection α → Except BuildFault α
  | .ok a => .ok a
  | .error rejection => .error (.rejected rejection)

end BuildFault

/-- Runs a check on every item in turn. -/
def checkAll {ε α : Type} (check : α → Except ε Unit) : List α → Except ε Unit
  | [] => .ok ()
  | item :: rest =>
    match check item with
    | .error fault => .error fault
    | .ok _ => checkAll check rest

end Reporting
