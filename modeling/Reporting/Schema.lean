import Reporting.Value

/-!
# Schemas

A `Schema` says which tables reports may use, which of their columns, and along which relationships
a source table may be joined with others. Tables are looked up by key, relationships by source
table and key, and the tables behind joins by the reference that a join introduces. A schema is
read only; `Schema.build` is the way to make one.
-/

namespace Reporting

/-- A table: its columns in display order and those that can be summed. A table that is not
reportable can only be joined. -/
structure Table where
  name : String
  fields : List String
  numericFields : List String := []
  description : String := ""
  reportable : Bool := true
  deriving DecidableEq

/-- How rows without a partner are treated: a left join keeps them. -/
inductive JoinKind where
  | left
  | inner
  deriving DecidableEq

namespace JoinKind

def keyword : JoinKind → String
  | .left => "LEFT"
  | .inner => "INNER"

def ofKeyword? : String → Option JoinKind
  | "LEFT" => some .left
  | "INNER" => some .inner
  | _ => none

def unknownMessage (value : Value) : String := value.display ++ " is not a valid JoinType"

end JoinKind

/-- A join from a source table to a target table. The joined table goes by `reference` in the
statement, `predicate` is the vetted join condition, and `requires` names the relationship of the
same source table that has to be joined first. -/
structure Relationship where
  source : String
  key : String
  target : String
  reference : String
  predicate : String
  kind : JoinKind := .left
  requires : Option String := none
  deriving DecidableEq

/-- Tables by key and the relationships between them, both in the order of their declaration. -/
structure Schema where
  tables : List (String × Table)
  relationships : List Relationship
  deriving DecidableEq

namespace Schema

variable (schema : Schema)

def table? (key : String) : Option Table := schema.tables.lookup key

/-- May reports be made of the table? -/
def isReportable (key : String) : Bool := (schema.table? key).any (·.reportable)

def allowedFields? (key : String) : Option (List String) := (schema.table? key).map (·.fields)

def isNumeric (key column : String) : Bool :=
  (schema.table? key).any (·.numericFields.contains column)

def relationship? (source key : String) : Option Relationship :=
  schema.relationships.find? fun rel => rel.source == source && rel.key == key

def relationshipsOf (source : String) : List Relationship :=
  schema.relationships.filter (·.source == source)

/-- The key of the table that a reference stands for. -/
def referenceTarget? (reference : String) : Option String :=
  (schema.relationships.find? (·.reference == reference)).map (·.target)

/-- The table that a reference stands for; a table with an empty key is never found this way. -/
def referencedTable? (reference : String) : Option Table :=
  match schema.referenceTarget? reference with
  | some key => if key.isEmpty then none else schema.table? key
  | none => none

/-- The columns behind a reference. -/
def fieldsOf? (reference : String) : Option (List String) :=
  (schema.referencedTable? reference).map (·.fields)

/-- The columns behind a reference that can be summed. -/
def numericFieldsOf (reference : String) : List String :=
  ((schema.referencedTable? reference).map (·.numericFields)).getD []

/-- The keys of the tables, of the reportable ones only if so wished. -/
def listTables (reportableOnly : Bool) : List String :=
  (schema.tables.filter fun entry => entry.2.reportable || !reportableOnly).map (·.1)

end Schema

end Reporting
