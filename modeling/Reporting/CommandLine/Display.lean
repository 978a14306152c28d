import Reporting.Catalog
import Reporting.Execution

/-!
# What the command line shows

`Printed` is an item on the screen with its markup, before it is laid out. Statements are shown with
a line break in front of every clause; the breaks replace blanks and nothing else changes. Values
are shown by their texts, so an integer that is too long to be written cannot be shown.
-/

namespace Reporting.CommandLine

inductive Printed where
  | panel (body title border : String)
  | text (line : String)
  | status (message spinner : String)
  | table (title : String) (columns : List String) (rows : List (List String))
  deriving DecidableEq

/-- The words that start a clause. -/
def clauseWords : List (List Char) :=
  ["FROM", "LEFT OUTER JOIN", "JOIN", "WHERE", "GROUP BY", "ORDER BY", "LIMIT"].map String.toList

/-- The clause words at the start of a text, when a space follows them. -/
def clauseAt? (text : List Char) : Option (List Char) :=
  clauseWords.find? fun words => (words ++ [' ']).isPrefixOf text

/-- Breaks the line before every clause; `skip` characters are copied before looking further. -/
def breakClauses : (skip : Nat) → List Char → List Char
  | _, [] => []
  | skip + 1, c :: rest => c :: breakClauses skip rest
  | 0, c :: rest =>
    if c == ' ' then
      match clauseAt? rest with
      | some words => '\n' :: breakClauses (words.length + 1) rest
      | none => c :: breakClauses 0 rest
    else c :: breakClauses 0 rest

/-- Breaks the line before every `AND` between spaces and indents it; `skip` characters are copied
before looking further. -/
def breakConjunctions : (skip : Nat) → List Char → List Char
  | _, [] => []
  | skip + 1, c :: rest => c :: breakConjunctions skip rest
  | 0, c :: rest =>
    if c == ' ' && ['A', 'N', 'D', ' '].isPrefixOf rest then
      '\n' :: ' ' :: ' ' :: breakConjunctions 4 rest
    else c :: breakConjunctions 0 rest

def formatSql (sql : String) : String :=
  String.ofList (breakConjunctions 0 (breakClauses 0 sql.toList))

def showStatement (compiled : CompiledQuery) : Printed :=
  .panel (formatSql compiled.sql) "[bold yellow]Compiled SQL[/bold yellow]" "yellow"

def showParams (compiled : CompiledQuery) : Printed :=
  .text ("[dim]params:[/dim] " ++ (Value.list (compiled.params.map .scalar)).display)

/-- A statement and below it its values, which have to be short to be shown. -/
def showQuery (compiled : CompiledQuery) : List Printed :=
  [showStatement compiled, showParams compiled]

def shownRows : Nat := 50

/-- Why rows cannot be shown: one lacks a column, or holds an integer that is too long. -/
inductive RowsFault where
  | missingColumn (column : String)
  | longInteger
  deriving DecidableEq

/-- A cell; null has a name of its own. -/
def cell : Value → Except RowsFault String
  | .null => .ok "NULL"
  | value =>
    match value.written? with
    | some text => .ok text
    | none => .error .longInteger

/-- The cells of a row under the columns, or what is wrong with the first that cannot be shown. -/
def cells (columns : List String) (row : Row) : Except RowsFault (List String) :=
  columns.mapM fun column =>
    match row.lookup column with
    | some value => cell value
    | none => .error (.missingColumn column)

/-- Shows result rows under the columns of the first one, or fails with what is wrong with the first
cell that cannot be shown. Without columns there is nothing to show of the rows. -/
def showRows (rows : List Row) : Except RowsFault (List Printed) :=
  match rows with
  | [] => .ok [.text "[dim]No results found.[/dim]"]
  | first :: _ => do
    let columns := first.map (·.1)
    let body ← (rows.take shownRows).mapM (cells columns)
    let shown := if columns.isEmpty then [] else body
    let count := toString rows.length
    let note : List Printed :=
      if shownRows < rows.length then
        [.text ("[dim](Showing first " ++ toString shownRows ++ " of " ++ count ++ " rows)[/dim]")]
      else []
    return note ++ [.table ("[bold cyan]Results (" ++ count ++ " rows)[/bold cyan]") columns shown]

def showFields (available : AvailableFields) : Printed :=
  let own := available.dimensions.map fun field =>
    [field, if available.metrics.contains field then "yes" else ""]
  let related := available.related.flatMap fun entry =>
    entry.fields.map fun field => [entry.key ++ "." ++ field, ""]
  .table ("[bold cyan]Fields of " ++ available.table ++ "[/bold cyan]") ["Reference", "Summable"]
    (own ++ related)

def showError (title message : String) : Printed :=
  .panel ("[red]" ++ message ++ "[/red]") ("[bold red]" ++ title ++ "[/bold red]") "red"

def showRejection (rejection : Rejection) : Printed :=
  showError ("Invalid report (" ++ rejection.code ++ ")") rejection.message

end Reporting.CommandLine
