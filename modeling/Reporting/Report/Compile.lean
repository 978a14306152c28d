import Reporting.Log
import Reporting.Report.Clauses
import Reporting.Report.Reading
import Reporting.Report.Rules

/-!
# Compiling reports

`Schema.compile` checks a report against the rules and turns it into a statement with its values.
The same table and report always give the same statement.
-/

namespace Reporting

/-- The text of a statement and the values of its placeholders. -/
structure CompiledQuery where
  sql : String
  params : List Scalar
  deriving DecidableEq

def CompiledQuery.ofQuery (query : Sql.Query) : CompiledQuery := ⟨query.sql, query.params⟩

def CompiledQuery.logRecord (table : String) (compiled : CompiledQuery) : LogRecord :=
  ⟨.debug, "Compiled report on '" ++ table ++ "' (" ++ toString compiled.params.length ++
    " params): " ++ compiled.sql⟩

/-- Reads a report, as a rejection where the value does not have the shape of one. -/
def Report.ofValue (value : Value) : Except Rejection Report :=
  match Report.read value with
  | .valid report => .ok report
  | .faulty faults => .error (.malformed faults)

namespace ReportSources

/-- The statement of a report over prepared sources. -/
def query (sources : ReportSources) (report : Report) : Except BuildFault Sql.Query := do
  let selections ← sources.select report.dimensions report.metrics
  let conditions ← report.filters.mapM sources.condition
  let grouping ← sources.grouping report.dimensions
  let order ← sources.order report selections !report.dimensions.isEmpty
  return { selections, source := sources.source, conditions, grouping, order,
           limit := effectiveLimit report.limit }

end ReportSources

namespace Schema

variable (schema : Schema)

def buildQuery (table : String) (report : Report) : Except BuildFault Sql.Query := do
  report.check schema table
  let plan ← BuildFault.lift (schema.planJoins table report.referencedFields)
  let sources ← BuildFault.lift (schema.sourcesOf plan)
  sources.query report

def compile (table : String) (report : Report) : Except BuildFault CompiledQuery :=
  (schema.buildQuery table report).map .ofQuery

def compileValue (table : String) (value : Value) : Except BuildFault CompiledQuery :=
  match Report.ofValue value with
  | .error rejection => .error (.rejected rejection)
  | .ok report => schema.compile table report

end Schema

end Reporting
