import Reporting.Join
import Reporting.Report.Binding
import Reporting.Report.Output
import Reporting.Sql.Label
import Reporting.Sql.Printer

/-!
# From reports to statements

The functions of this module build the clauses of a statement from the parts of a report. They do
not rely on the rules having been checked: a clause that cannot be built is a `BuildFault`, which
is a rejection wherever a rule of the report is broken.
-/

namespace Reporting

/-- The source of a statement with the references that its columns may use. -/
structure ReportSources where
  schema : Schema
  table : String
  source : Sql.Source

namespace ReportSources

def references (sources : ReportSources) : List String :=
  sources.source.base :: sources.source.joins.map (·.reference)

def columnsOf (sources : ReportSources) (reference : String) : List String :=
  let table := match sources.source.joins.find? (·.reference == reference) with
    | some join => join.table
    | none => reference
  (sources.schema.allowedFields? table).getD []

/-- The column that a field reference stands for. -/
def column (sources : ReportSources) (field : String) : Except BuildFault Sql.Column := do
  let resolved ← BuildFault.lift (sources.schema.resolveField sources.table field)
  if !sources.references.contains resolved.reference then throw (.notJoined resolved.reference)
  let name ← BuildFault.lift (Sql.vetIdentifier resolved.column)
  if !(sources.columnsOf resolved.reference).contains name then throw (.notJoined name)
  return ⟨resolved.reference, name⟩

end ReportSources

namespace Schema

/-- Vets the name of a table and then all its columns, used or not. -/
def vetTable (schema : Schema) (key : String) : Except Rejection Unit :=
  checkAll vetName (key :: (schema.allowedFields? key).getD [])
where
  vetName (name : String) : Except Rejection Unit := (Sql.vetIdentifier name).map fun _ => ()

/-- The names that a join adds to those of its table: the reference, where it differs. -/
def addedNames (rel : Relationship) : List String :=
  if rel.reference = rel.target then [] else [rel.reference]

/-- The join of a relationship. -/
def joinOf (schema : Schema) (rel : Relationship) : Except Rejection Sql.Join := do
  schema.vetTable rel.target
  checkAll vetTable.vetName (addedNames rel)
  return ⟨rel.kind, rel.target, rel.reference, rel.predicate⟩

/-- The source table, then one join for each step of the plan. -/
def sourcesOf (schema : Schema) (plan : JoinPlan) : Except Rejection ReportSources := do
  schema.vetTable plan.base
  let joins ← plan.joins.mapM schema.joinOf
  return ⟨schema, plan.base, ⟨plan.base, joins⟩⟩

end Schema

namespace ReportSources

variable (sources : ReportSources)

def selectDimension (d : Dimension) : Except BuildFault Sql.Selection := do
  let column ← sources.column d.field
  match givenLabel? d.label with
  | none => return .column column
  | some label => return .labelled column (← BuildFault.lift (Sql.vetLabel label))

def selectMetric (m : Metric) : Except BuildFault Sql.Selection := do
  let resolved ← BuildFault.lift (sources.schema.resolveField sources.table m.field)
  let name ← BuildFault.lift m.outputName
  if m.aggregate? = some .sum ∧ resolved.numeric = false then
    throw (.rejected (.nonNumericAggregate m.field))
  match m.aggregate? with
  | none => throw (.noAggregate m.operation)
  | some aggregate =>
    let column ← sources.column m.field
    return .aggregate aggregate column (← BuildFault.lift (Sql.vetLabel name))

/-- Dimensions first, then metrics. -/
def select (dimensions : List Dimension) (metrics : List Metric) :
    Except BuildFault (List Sql.Selection) := do
  let columns ← dimensions.mapM sources.selectDimension
  let aggregates ← metrics.mapM sources.selectMetric
  if (columns ++ aggregates).isEmpty then throw (.rejected .emptyReport)
  return columns ++ aggregates

def condition (f : Filter) : Except BuildFault Sql.Condition := do
  let column ← sources.column f.field
  return ⟨column, ← f.test⟩

def grouping (dimensions : List Dimension) : Except BuildFault (List Sql.Column) :=
  dimensions.mapM fun d => sources.column d.field

/-- The key of an entry of a grouped report's order: that of the selected item where a label was
given, else its position. -/
def groupedKey (report : Report) (selections : List Sql.Selection) (entry : SortEntry) :
    Except BuildFault Sql.OrderKey :=
  match report.sortTarget? entry.field with
  | none => .error (.rejected (.sortOutsideGroups entry.field))
  | some target =>
    match givenLabel? target.label with
    | none => .ok (.position target.position)
    | some _ =>
      match selections[target.position - 1]? with
      | none => .error (.noSelection target.position)
      | some selection => .ok (selection.orderKey sources.columnsOf selections)

/-- The key of an entry of a plain report's order: a column of the source table. -/
def plainKey (entry : SortEntry) : Except BuildFault Sql.OrderKey := do
  if !((sources.schema.allowedFields? sources.table).getD []).contains entry.field then
    throw (.rejected (.sortOutsideTable entry.field sources.table))
  let name ← BuildFault.lift (Sql.vetIdentifier entry.field)
  return .column ⟨sources.table, name⟩

def order (report : Report) (selections : List Sql.Selection) (grouped : Bool) :
    Except BuildFault (List Sql.OrderEntry) :=
  report.sort.mapM fun entry => do
    let key ← if grouped then sources.groupedKey report selections entry else sources.plainKey entry
    return ⟨key, entry.direction = .descending⟩

end ReportSources

/-- The number of rows that is asked for: none where the limit is absent or not positive, and the
greatest at most. -/
def effectiveLimit (limit : Option Int) : Option Nat :=
  match limit with
  | none => none
  | some n => if n ≤ 0 then none else some (min n.toNat greatestLimit)

end Reporting
