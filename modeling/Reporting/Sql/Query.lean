import Reporting.Schema
import Reporting.Value

/-!
# Statements

A `Query` is a select statement in parts: what is selected, the source table with its joins, the
conditions, the grouping, the order and the limit. Values never enter the text of a statement; the
tests of its conditions hold them, and `Query.params` lists them in the order of their
placeholders.
-/

namespace Reporting.Sql

/-- A column of the table that a reference stands for. -/
structure Column where
  reference : String
  name : String
  deriving DecidableEq

inductive Aggregate where
  | sum
  | count
  deriving DecidableEq

inductive Selection where
  | column (column : Column)
  | labelled (column : Column) (label : String)
  | aggregate (function : Aggregate) (column : Column) (label : String)
  deriving DecidableEq

def Selection.label? : Selection → Option String
  | .column _ => none
  | .labelled _ label | .aggregate _ _ label => some label

inductive Comparison where
  | equal
  | notEqual
  | greater
  | less
  | greaterOrEqual
  | lessOrEqual
  deriving DecidableEq

/-- What a condition asks of its column. -/
inductive Test where
  | isNull
  | isNotNull
  | oneOf (values : List Scalar)
  | noneOf (values : List Scalar)
  | like (pattern : String)
  | compare (comparison : Comparison) (value : Scalar)
  deriving DecidableEq

/-- The values that a test binds, in the order of their placeholders. -/
def Test.values : Test → List Scalar
  | .isNull | .isNotNull => []
  | .oneOf values | .noneOf values => values
  | .like pattern => [.text pattern]
  | .compare _ value => [value]

structure Condition where
  column : Column
  test : Test
  deriving DecidableEq

/-- What a result is ordered by: the label of an entry, its position in the select list counted
from one, or a column. -/
inductive OrderKey where
  | label (label : String)
  | position (position : Nat)
  | column (column : Column)
  deriving DecidableEq

structure OrderEntry where
  key : OrderKey
  descending : Bool
  deriving DecidableEq

/-- A join of a table under a reference. -/
structure Join where
  kind : JoinKind
  table : String
  reference : String
  predicate : String
  deriving DecidableEq

structure Source where
  base : String
  joins : List Join
  deriving DecidableEq

structure Query where
  selections : List Selection
  source : Source
  conditions : List Condition
  grouping : List Column
  order : List OrderEntry
  limit : Option Nat
  deriving DecidableEq

/-- The values of a statement in the order of their placeholders: those of the conditions, then the
limit. -/
def Query.params (query : Query) : List Scalar :=
  query.conditions.flatMap (·.test.values) ++ (query.limit.map fun n => .int n).toList

end Reporting.Sql
