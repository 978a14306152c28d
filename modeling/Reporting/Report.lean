import Reporting.Value

/-!
# Reports

A `Report` says what to show of one source table: the columns to group by, the aggregates over
them, the conditions on the rows, the order and the number of the result rows. It states an
intent; whether a schema can satisfy it is the business of the rules.
-/

namespace Reporting

/-- A column that is shown and grouped by. -/
structure Dimension where
  field : String
  label : Option String := none
  deriving DecidableEq

/-- An aggregate over the rows of a group; the operation is a keyword. -/
structure Metric where
  field : String
  operation : String
  label : Option String := none
  deriving DecidableEq

/-- A condition on the rows; the operator is a keyword. -/
structure Filter where
  field : String
  operator : String
  value : Value := .null

inductive Direction where
  | ascending
  | descending
  deriving DecidableEq

namespace Direction

def keyword : Direction → String
  | .ascending => "ASC"
  | .descending => "DESC"

def keywords : List String := [keyword .ascending, keyword .descending]

def ofKeyword? (keyword : String) : Option Direction :=
  if keyword == Direction.ascending.keyword then some .ascending
  else if keyword == Direction.descending.keyword then some .descending
  else none

/-- A direction is found by its keyword. -/
theorem ofKeyword?_keyword (d : Direction) : ofKeyword? d.keyword = some d := by
  cases d <;> decide

end Direction

/-- An entry of the result order; the field names a dimension or a metric. -/
structure SortEntry where
  field : String
  direction : Direction := .ascending
  deriving DecidableEq

def greatestLimit : Nat := 10000

/-- What to show of a source table. -/
structure Report where
  dimensions : List Dimension := []
  metrics : List Metric := []
  filters : List Filter := []
  sort : List SortEntry := []
  limit : Option Int := none

namespace Report

/-- The fields that may need joins: those of the dimensions, the filters, then the metrics. -/
def referencedFields (report : Report) : List String :=
  report.dimensions.map (·.field) ++ report.filters.map (·.field) ++ report.metrics.map (·.field)

end Report

end Reporting
