import Reporting.Join
import Reporting.Report.Binding
import Reporting.Report.Output

/-!
# The rules of a report

`Report.check` decides whether a report can be made of a table. The rules are checked in a fixed
order and the first one that is broken is the reason for the rejection. Two checks may end without
one, where an integer is too long to be written: a limit out of range, which the rejection would
show, and the value of a filter that a pattern is made of.
-/

namespace Reporting

/-- Reports are made of reportable tables. -/
def Schema.checkSource (schema : Schema) (table : String) : Except Rejection Unit :=
  if schema.isReportable table then .ok ()
  else .error (.unavailableSource table (schema.listTables true))

namespace Report

/-- There is something to show. -/
def checkNotEmpty (report : Report) : Except Rejection Unit :=
  if report.dimensions.isEmpty && report.metrics.isEmpty then .error .emptyReport else .ok ()

/-- Metrics need a dimension to group by. -/
def checkGrouping (report : Report) : Except Rejection Unit :=
  match report.dimensions, report.metrics with
  | [], metric :: _ => .error (.missingGrouping metric.field)
  | _, _ => .ok ()

/-- Every field that needs a join resolves. -/
def checkFields (schema : Schema) (table : String) (report : Report) : Except Rejection Unit :=
  (schema.planJoins table report.referencedFields).map fun _ => ()

/-- Operations are supported, and only numbers are summed. -/
def checkMetric (schema : Schema) (table : String) (metric : Metric) : Except Rejection Unit :=
  match metric.aggregate? with
  | none => .error (.unsupportedOperation metric.operation metric.field)
  | some .count => .ok ()
  | some .sum => do
    let resolved ← schema.resolveField table metric.field
    if resolved.numeric then .ok () else .error (.nonNumericSum metric.field)

/-- The order names items of the report. -/
def checkSortEntry (report : Report) (entry : SortEntry) : Except Rejection Unit :=
  if (report.sortTarget? entry.field).isNone then .error (.sortOutsideReport entry.field)
  else .ok ()

/-- Is the number of rows bounded by a positive limit? -/
def isBounded (report : Report) : Bool := report.limit.any fun n => decide (0 < n)

/-- A report that is not bounded is not ordered by a metric. -/
def checkBound (report : Report) (entry : SortEntry) : Except Rejection Unit :=
  if !report.isBounded && (report.sortTarget? entry.field).any (·.isMetric) then
    .error (.unboundedAggregateSort entry.field)
  else .ok ()

/-- What is reported of a limit that is out of range, as far as it can be written. -/
def limitFault (n : Int) : BuildFault :=
  if isShortInteger n then .rejected (.limitOutOfRange n greatestLimit) else .longInteger

/-- A limit lies between zero and the greatest. -/
def checkLimit (report : Report) : Except BuildFault Unit :=
  match report.limit with
  | none => .ok ()
  | some n => if n < 0 ∨ (greatestLimit : Int) < n then .error (limitFault n) else .ok ()

/-- The operators of filters are supported and their values fit. -/
def checkFilter (f : Filter) : Except BuildFault Unit := f.test.map fun _ => ()

/-- Labels are names; an empty one is not. -/
def checkLabel (label : String) : Except Rejection Unit := (Sql.vetLabel label).map fun _ => ()

/-- No two items give columns of one name; `seen` maps the names so far to their fields. -/
def checkOutputs : (seen : List (String × String)) →
    List (String × Except Rejection String) → Except Rejection Unit
  | _, [] => .ok ()
  | seen, (field, name) :: rest => do
    let name ← name
    match seen.lookup name with
    | some first => .error (.duplicateOutput first field name)
    | none => checkOutputs ((name, field) :: seen) rest

/-- Checks a report of a table against all rules. -/
def check (schema : Schema) (table : String) (report : Report) : Except BuildFault Unit := do
  BuildFault.lift (schema.checkSource table)
  BuildFault.lift report.checkNotEmpty
  BuildFault.lift report.checkGrouping
  BuildFault.lift (report.checkFields schema table)
  BuildFault.lift (checkAll (checkMetric schema table) report.metrics)
  BuildFault.lift (checkAll report.checkSortEntry report.sort)
  BuildFault.lift (checkAll report.checkBound report.sort)
  report.checkLimit
  checkAll checkFilter report.filters
  BuildFault.lift (checkAll checkLabel report.labels)
  BuildFault.lift (checkOutputs [] report.outputs)

end Report

end Reporting
