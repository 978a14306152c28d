import Reporting.Json.Reader
import Reporting.Report.Reading
import Reporting.Shape.Lenient

/-!
# Stored reports

A report is stored as JSON text together with a name, its source table and the way it is shown.
`Report.ofDocument` reads the report, which may come as text or as a value, and `StoredReport.read`
a whole record. How deep a text may nest hangs on the stack that its reader finds, so the depth is
given (see `Json.Limits`).
-/

namespace Reporting

inductive DocumentFault where
  | notJson (fault : Json.Fault)
  | beyondLimits (excess : Json.Excess)
  | notObject (kind : String)
  | malformed (faults : List ShapeFault)

/-- The limits on stored and submitted JSON text. -/
def storedTextLimits (depth : Nat) : Json.Limits := ⟨digitLimit, depth⟩

def readStoredText (depth : Nat) (text : String) : Except Json.Error Value :=
  Json.read (some (storedTextLimits depth)) text

namespace Report

def ofObject (value : Value) : Except DocumentFault Report :=
  match value with
  | .object _ =>
    match Report.read value with
    | .valid report => .ok report
    | .faulty faults => .error (.malformed faults)
  | _ => .error (.notObject value.kind)

/-- Reads a report from JSON text or from a value. -/
def ofDocument (depth : Nat) (document : Value) : Except DocumentFault Report :=
  match document with
  | .scalar (.text text) =>
    match readStoredText depth text with
    | .ok value => ofObject value
    | .error (.malformed fault) => .error (.notJson fault)
    | .error (.beyondLimits excess) => .error (.beyondLimits excess)
  | value => ofObject value

end Report

def unreadableTextMessage (fault : Json.Fault) : String :=
  "Invalid report config JSON: " ++ fault.message

def notObjectMessage (kind : String) : String := "Unexpected type for report config: " ++ kind

inductive Visualization where
  | table
  | bar
  | line
  | pie
  | area
  deriving DecidableEq

namespace Visualization

def all : List Visualization := [.table, .bar, .line, .pie, .area]

def name : Visualization → String
  | .table => "table"
  | .bar => "bar"
  | .line => "line"
  | .pie => "pie"
  | .area => "area"

def ofName? (name : String) : Option Visualization := all.find? (·.name == name)

def read : Value → Checked Visualization := Shape.choice (all.map name) ofName?

end Visualization

/-- A report with its name, its source table and its history. -/
structure StoredReport where
  id : Int
  name : String
  sourceTable : String
  visualization : Visualization
  report : Report
  createdBy : Option Int
  createdAt : Option Moment
  updatedAt : Option Moment

namespace StoredReport

def read : Value → Checked StoredReport :=
  Shape.record "StoredReport" fun members =>
    StoredReport.mk <$> Shape.required "id" Lenient.integer members
      <*> Shape.required "name" Shape.text members
      <*> Shape.required "source_table" Shape.text members
      <*> Shape.optional "visualization_type" .table Visualization.read members
      <*> Shape.required "config" Report.read members
      <*> Shape.optional "created_by" none (Shape.nullable Lenient.integer) members
      <*> Shape.optional "created_at" none (Shape.nullable Lenient.moment) members
      <*> Shape.optional "updated_at" none (Shape.nullable Lenient.moment) members

end StoredReport

end Reporting
