import Reporting.Rejection
import Reporting.Schema

/-!
# The catalogue of fields

`Schema.availableFields` lists what a report on a table may refer to: the columns of the table, the
ones of them that can be summed, and for each relationship the columns behind it, which are
referred to as `key.column`.
-/

namespace Reporting

/-- The columns behind one relationship. -/
structure RelatedFields where
  key : String
  table : String
  reference : String
  fields : List String
  deriving DecidableEq

/-- What a report on a table may refer to. -/
structure AvailableFields where
  table : String
  dimensions : List String
  metrics : List String
  related : List RelatedFields
  deriving DecidableEq

namespace Schema

def relatedFields (schema : Schema) (rel : Relationship) : RelatedFields :=
  ⟨rel.key, rel.target, rel.reference, (schema.allowedFields? rel.target).getD []⟩

def availableFields (schema : Schema) (table : String) : Except Rejection AvailableFields :=
  match schema.table? table with
  | none => .error (.unknownSource table none)
  | some entry =>
    if entry.reportable then
      .ok ⟨table, entry.fields, entry.fields.filter entry.numericFields.contains,
        (schema.relationshipsOf table).map schema.relatedFields⟩
    else .error (.unknownSource table none)

end Schema

end Reporting
