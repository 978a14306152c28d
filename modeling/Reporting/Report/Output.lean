import Reporting.Field
import Reporting.Report
import Reporting.Sql.Name
import Reporting.Sql.Query

/-!
# The columns of a result

Every dimension and every metric gives one column of the result. Its name is the label it was
given; without one a dimension goes by its column and a metric by a name made of its aggregate and
its field. Entries of the order find their column with `Report.sortTarget?`.
-/

namespace Reporting

/-- The label that was given; an empty one counts as none. -/
def givenLabel? (label : Option String) : Option String :=
  match label with
  | some label => if label.isEmpty then none else some label
  | none => none

def Dimension.outputName (d : Dimension) : Except Rejection String :=
  match givenLabel? d.label with
  | some label => .ok label
  | none => (FieldReference.parse d.field).map (·.column)

namespace Metric

def aggregateOf? : String → Option Sql.Aggregate
  | "SUM" => some .sum
  | "COUNT" => some .count
  | _ => none

def aggregate? (m : Metric) : Option Sql.Aggregate := aggregateOf? m.operation

/-- The word in front of the name of a metric without a label. -/
def nameStart : Sql.Aggregate → String
  | .sum => "total"
  | .count => "count"

/-- A field with underscores for points. -/
def flatField (field : String) : String :=
  String.ofList (field.toList.map fun c => if c == '.' then '_' else c)

def outputName (m : Metric) : Except Rejection String :=
  match givenLabel? m.label with
  | some label => .ok label
  | none =>
    match m.aggregate? with
    | some aggregate => .ok (nameStart aggregate ++ "_" ++ flatField m.field)
    | none => .error (.unsupportedOperation m.operation m.field)

end Metric

/-- The column of the result that an entry of the order means. Positions are counted from one. -/
structure SortTarget where
  position : Nat
  label : Option String
  isMetric : Bool
  deriving DecidableEq

/-- Does a name mean the item with this field and label? -/
def namesItem (name field : String) (label : Option String) : Bool :=
  name == field || givenLabel? label == some name

namespace Report

/-- The first dimension that a name means; `position` is that of the first of the list. -/
def findDimension? (name : String) : (position : Nat) → List Dimension → Option SortTarget
  | _, [] => none
  | position, d :: rest =>
    if namesItem name d.field d.label then some ⟨position, d.label, false⟩
    else findDimension? name (position + 1) rest

/-- The first metric that a name means; `position` is that of the first of the list. -/
def findMetric? (name : String) : (position : Nat) → List Metric → Option SortTarget
  | _, [] => none
  | position, m :: rest =>
    if namesItem name m.field m.label then some ⟨position, m.label, true⟩
    else findMetric? name (position + 1) rest

/-- The item that a name means, dimensions before metrics. -/
def sortTarget? (report : Report) (name : String) : Option SortTarget :=
  (findDimension? name 1 report.dimensions).orElse fun _ =>
    findMetric? name (report.dimensions.length + 1) report.metrics

/-- The labels as they were given, dimensions before metrics. -/
def labels (report : Report) : List String :=
  report.dimensions.filterMap (·.label) ++ report.metrics.filterMap (·.label)

/-- The field and the column name of every item, dimensions before metrics. -/
def outputs (report : Report) : List (String × Except Rejection String) :=
  report.dimensions.map (fun d => (d.field, d.outputName)) ++
    report.metrics.map (fun m => (m.field, m.outputName))

end Report

end Reporting
