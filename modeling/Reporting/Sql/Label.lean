import Reporting.Sql.Query

/-!
# Labels in the order

Every entry of a select list goes by a name: its label, or for a bare column its reference and its
own name with an underscore between them. Such a name is kept apart from the columns of the table
by a count (`freeName`). Where several entries go by one name, the name means the last of them, so
`Selection.orderKey` orders by a label only as long as the label still means what it labels.
-/

namespace Reporting.Sql

/-- A name as it is, or where it is taken with the first count from one that makes it free. -/
def freeName (taken : List String) (name : String) : String :=
  if taken.contains name then
    let counted := (List.range taken.length).map fun n => name ++ "_" ++ toString (n + 1)
    (counted.find? fun candidate => !taken.contains candidate).getD name
  else name

namespace Selection

/-- The name that an entry goes by; `columnsOf` lists the columns behind a reference. -/
def name (columnsOf : String → List String) : Selection → String
  | .column source => freeName (columnsOf source.reference) (source.reference ++ "_" ++ source.name)
  | .labelled _ label | .aggregate _ _ label => label

/-- The column that an entry shows as it is. -/
def shownColumn? : Selection → Option Column
  | .column source | .labelled source _ => some source
  | .aggregate _ _ _ => none

/-- The last entry that goes by a name. -/
def named? (columnsOf : String → List String) (selections : List Selection) (name : String) :
    Option Selection :=
  selections.reverse.find? fun selection => selection.name columnsOf == name

/-- The key that orders by an entry of a select list. A labelled column whose label means another
column is ordered by itself. -/
def orderKey (columnsOf : String → List String) (selections : List Selection) :
    Selection → OrderKey
  | .column source => .column source
  | .aggregate _ _ label => .label label
  | .labelled source label =>
    match named? columnsOf selections label with
    | none => .label label
    | some meant => if meant.shownColumn? = some source then .label label else .column source

end Selection

end Reporting.Sql
