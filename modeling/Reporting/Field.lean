import Reporting.Rejection
import Reporting.Schema

/-!
# Field references

A report names columns by references: `column` for a column of its source table and `key.column`
for one behind the relationship `key`. `FieldReference.parse` takes a reference apart, and
`Schema.resolveField` looks it up: the result says which table reference and column it stands for.
-/

namespace Reporting

/-- A column of the source table, or one behind a relationship. -/
structure FieldReference where
  key : Option String
  column : String
  deriving DecidableEq

def splitAtPoints : List Char → List (List Char)
  | [] => [[]]
  | c :: rest =>
    if c == '.' then [] :: splitAtPoints rest
    else
      match splitAtPoints rest with
      | [] => [[c]]
      | part :: parts => (c :: part) :: parts

/-- Takes a reference apart: no point, or one point between two parts that are not empty. -/
def FieldReference.parse (field : String) : Except Rejection FieldReference :=
  match splitAtPoints field.toList with
  | [column] => .ok ⟨none, String.ofList column⟩
  | [key, column] =>
    if key.isEmpty || column.isEmpty then .error (.malformedField field)
    else .ok ⟨some (String.ofList key), String.ofList column⟩
  | _ => .error (.malformedField field)

/-- A reference that a schema knows: the table reference and the column it stands for, and whether
the column can be summed. -/
structure ResolvedField where
  field : String
  key : Option String
  reference : String
  column : String
  numeric : Bool
  deriving DecidableEq

def ResolvedField.qualified (resolved : ResolvedField) : String :=
  resolved.reference ++ "." ++ resolved.column

namespace Schema

variable (schema : Schema)

def resolveColumn (table field column : String) : Except Rejection ResolvedField :=
  match schema.allowedFields? table with
  | none => .error (.unknownSource table (some field))
  | some allowed =>
    if allowed.contains column then
      .ok ⟨field, none, table, column, schema.isNumeric table column⟩
    else .error (.foreignColumn field column table)

def resolveRelated (table field key column : String) : Except Rejection ResolvedField :=
  match schema.relationship? table key with
  | none =>
    .error (.unknownRelationship field key table ((schema.relationshipsOf table).map (·.key)))
  | some rel =>
    if ((schema.fieldsOf? rel.reference).getD []).contains column then
      .ok ⟨field, some key, rel.reference, column,
        (schema.numericFieldsOf rel.reference).contains column⟩
    else .error (.foreignRelatedColumn field column rel.reference)

def resolveField (table field : String) : Except Rejection ResolvedField := do
  match ← FieldReference.parse field with
  | ⟨none, column⟩ => schema.resolveColumn table field column
  | ⟨some key, column⟩ => schema.resolveRelated table field key column

end Schema

end Reporting
