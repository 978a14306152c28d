import Reporting.Sql.Name
import Reporting.Sql.Query

/-!
# Statements as text

`Query.sql` writes a statement on one line with a placeholder for every value. Each clause is a
text of its own, and a clause without entries is left out. At the end every run of blanks becomes
one space, inside quoted names and join predicates too.
-/

namespace Reporting.Sql

def placeholder : String := "?"

def commaList (texts : List String) : String := String.intercalate ", " texts

/-- A column after its reference. -/
def Column.text (column : Column) : String :=
  quoteName column.reference ++ "." ++ quoteName column.name

def Aggregate.functionName : Aggregate → String
  | .sum => "sum"
  | .count => "count"

/-- An entry of the select list, with its label if it has one. -/
def Selection.text : Selection → String
  | .column source => source.text
  | .labelled source name => source.text ++ " AS " ++ quoteName name
  | .aggregate function source name =>
    function.functionName ++ "(" ++ source.text ++ ") AS " ++ quoteName name

def Comparison.sign : Comparison → String
  | .equal => "="
  | .notEqual => "!="
  | .greater => ">"
  | .less => "<"
  | .greaterOrEqual => ">="
  | .lessOrEqual => "<="

/-- A placeholder for every value of a list. -/
def placeholders (values : List Scalar) : String := commaList (values.map fun _ => placeholder)

/-- A condition; a negated list stands between brackets. -/
def Condition.text (condition : Condition) : String :=
  let column := condition.column.text
  match condition.test with
  | .isNull => column ++ " IS NULL"
  | .isNotNull => column ++ " IS NOT NULL"
  | .oneOf values => column ++ " IN (" ++ placeholders values ++ ")"
  | .noneOf values => "(" ++ column ++ " NOT IN (" ++ placeholders values ++ "))"
  | .like _ => column ++ " LIKE " ++ placeholder
  | .compare comparison _ => column ++ " " ++ comparison.sign ++ " " ++ placeholder

def OrderKey.text : OrderKey → String
  | .label name => quoteName name
  | .position place => toString place
  | .column source => source.text

def OrderEntry.text (entry : OrderEntry) : String :=
  entry.key.text ++ (if entry.descending then " DESC" else " ASC")

def joinWords : JoinKind → String
  | .left => " LEFT OUTER JOIN "
  | .inner => " JOIN "

/-- A join; the reference is written only where it differs from the name of the table. -/
def Join.text (join : Join) : String :=
  joinWords join.kind ++ quoteName join.table ++
    (if join.reference = join.table then "" else " AS " ++ quoteName join.reference) ++
    " ON " ++ join.predicate

/-- The source table followed by its joins. -/
def Source.text (source : Source) : String :=
  quoteName source.base ++ String.join (source.joins.map Join.text)

/-- A clause with its separator between entries, or nothing where there are none. -/
def clause (words separator : String) (entries : List String) : String :=
  if entries.isEmpty then "" else words ++ String.intercalate separator entries

/-- The statement with the blanks that its names and predicates bring along. -/
def Query.rawText (query : Query) : String :=
  "SELECT " ++ commaList (query.selections.map Selection.text) ++
    " FROM " ++ query.source.text ++
    clause " WHERE " " AND " (query.conditions.map Condition.text) ++
    clause " GROUP BY " ", " (query.grouping.map Column.text) ++
    clause " ORDER BY " ", " (query.order.map OrderEntry.text) ++
    (if query.limit.isSome then " LIMIT " ++ placeholder else "")

/-- The statement on one line. -/
def Query.sql (query : Query) : String := Text.collapse query.rawText

end Reporting.Sql
