import Reporting.Report
import Reporting.Shape
import Reporting.Text.Keyword

/-!
# Reports as documents

`Report.read` takes a report from a document value and `Report.toValue` writes it back with every
member present. Lists may be absent or null, keywords are read without regard to case and blanks,
the value of a filter is kept untouched, and members that a report does not know are ignored.
-/

namespace Reporting

/-- A keyword in any case and spacing. -/
def Shape.keyword (value : Value) : Checked String := Text.keyword <$> Shape.text value

namespace Dimension

def read : Value → Checked Dimension :=
  Shape.record "Dimension" fun members =>
    Dimension.mk <$> Shape.required "field" Shape.text members
      <*> Shape.optional "alias" none (Shape.nullable Shape.text) members

def toValue (d : Dimension) : Value :=
  .object [("field", .text d.field), ("alias", (d.label.map Value.text).getD .null)]

end Dimension

namespace Metric

def read : Value → Checked Metric :=
  Shape.record "Metric" fun members =>
    Metric.mk <$> Shape.required "field" Shape.text members
      <*> Shape.required "operation" Shape.keyword members
      <*> Shape.optional "alias" none (Shape.nullable Shape.text) members

def toValue (m : Metric) : Value :=
  .object [("field", .text m.field), ("operation", .text m.operation),
    ("alias", (m.label.map Value.text).getD .null)]

end Metric

namespace Filter

def read : Value → Checked Filter :=
  Shape.record "Filter" fun members =>
    Filter.mk <$> Shape.required "field" Shape.text members
      <*> Shape.required "operator" Shape.keyword members
      <*> Shape.optional "value" .null .valid members

def toValue (f : Filter) : Value :=
  .object [("field", .text f.field), ("operator", .text f.operator), ("value", f.value)]

end Filter

namespace SortEntry

/-- Reads a direction in any case and spacing. -/
def readDirection : Value → Checked Direction :=
  Shape.choice Direction.keywords fun s => Direction.ofKeyword? (Text.keyword s)

def read : Value → Checked SortEntry :=
  Shape.record "SortSpec" fun members =>
    SortEntry.mk <$> Shape.required "field" Shape.text members
      <*> Shape.optional "direction" .ascending readDirection members

def toValue (s : SortEntry) : Value :=
  .object [("field", .text s.field), ("direction", .text s.direction.keyword)]

end SortEntry

namespace Report

def read : Value → Checked Report :=
  Shape.record "ReportConfig" fun members =>
    Report.mk <$> Shape.optional "dimensions" [] (Shape.listOrNull Dimension.read) members
      <*> Shape.optional "metrics" [] (Shape.listOrNull Metric.read) members
      <*> Shape.optional "filters" [] (Shape.listOrNull Filter.read) members
      <*> Shape.optional "sort" [] (Shape.listOrNull SortEntry.read) members
      <*> Shape.optional "limit" none (Shape.nullable Shape.exactInteger) members

def toValue (report : Report) : Value :=
  .object [("dimensions", .list (report.dimensions.map Dimension.toValue)),
    ("metrics", .list (report.metrics.map Metric.toValue)),
    ("filters", .list (report.filters.map Filter.toValue)),
    ("sort", .list (report.sort.map SortEntry.toValue)),
    ("limit", (report.limit.map Value.int).getD .null)]

end Report

end Reporting
