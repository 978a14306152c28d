import Reporting.Rejection
import Reporting.Report
import Reporting.Sql.Query

/-!
# Filters as tests

The operator of a filter decides which values fit it: none at all for the null tests, a list of
scalars for the membership tests, a single scalar for the rest. `Filter.test` checks the value and
gives the test of the statement, whose values are what the filter binds. A pattern is made of the
text of its value, so an integer that is too long to be written gives none.
-/

namespace Reporting

inductive Operator where
  | nullTest (wanted : Bool)
  | membership (wanted : Bool)
  | like
  | compare (comparison : Sql.Comparison)
  deriving DecidableEq

def Operator.ofKeyword? : String → Option Operator
  | "=" => some (.compare .equal)
  | "!=" => some (.compare .notEqual)
  | ">" => some (.compare .greater)
  | "<" => some (.compare .less)
  | ">=" => some (.compare .greaterOrEqual)
  | "<=" => some (.compare .lessOrEqual)
  | "LIKE" => some .like
  | "IN" => some (.membership true)
  | "NOT IN" => some (.membership false)
  | "IS NULL" => some (.nullTest true)
  | "IS NOT NULL" => some (.nullTest false)
  | _ => none

namespace Value

def scalar? : Value → Option Scalar
  | .scalar s => some s
  | _ => none

def scalars? : List Value → Option (List Scalar)
  | [] => some []
  | value :: rest => do
    let scalar ← value.scalar?
    return scalar :: (← scalars? rest)

end Value

/-- The pattern of a text that holds the given one anywhere. -/
def containsPattern (text : String) : String := "%" ++ text ++ "%"

namespace Filter

def mismatch {α : Type} (f : Filter) (reason : ValueMismatch) : Except Rejection α :=
  .error (.valueMismatch reason f.operator f.field)

/-- The items of a membership test: a list of scalars that is not empty. -/
def memberValues (f : Filter) : Except Rejection (List Scalar) :=
  match f.value with
  | .list [] => f.mismatch .emptyList
  | .list items =>
    match Value.scalars? items with
    | some scalars => .ok scalars
    | none => f.mismatch .itemNotScalar
  | _ => f.mismatch .notList

/-- The value of a comparison: a single scalar. -/
def singleValue (f : Filter) : Except Rejection Scalar :=
  match f.value with
  | .scalar s => .ok s
  | _ => f.mismatch .notScalar

/-- The pattern of a containment test: that of the text of a single scalar. -/
def pattern (f : Filter) : Except BuildFault String := do
  let value ← BuildFault.lift f.singleValue
  match value.written? with
  | some text => return containsPattern text
  | none => throw .longInteger

def test (f : Filter) : Except BuildFault Sql.Test :=
  match Operator.ofKeyword? f.operator with
  | none => .error (.rejected (.unsupportedOperator f.operator f.field))
  | some (.nullTest wanted) => .ok (if wanted then .isNull else .isNotNull)
  | some (.membership wanted) =>
    (BuildFault.lift f.memberValues).map fun values =>
      if wanted then .oneOf values else .noneOf values
  | some .like => f.pattern.map .like
  | some (.compare comparison) => (BuildFault.lift f.singleValue).map (.compare comparison ·)

def binds (f : Filter) : Except BuildFault (List Scalar) := f.test.map (·.values)

end Filter

end Reporting
