import Reporting.CommandLine.Display

/-!
# Plain layout

Items on the screen carry style marks such as `[red]` and `[/red]`. `Printed.lines` lays an item out
as plain lines without them.
-/

namespace Reporting.CommandLine

def styles : List String :=
  ["red", "dim", "bold red", "bold cyan", "bold yellow"]

def marks : List (List Char) :=
  styles.flatMap fun style => [("[" ++ style ++ "]").toList, ("[/" ++ style ++ "]").toList]

/-- Drops the marks of a text; `skip` characters belong to a mark already. -/
def dropMarks : (skip : Nat) → List Char → List Char
  | _, [] => []
  | skip + 1, _ :: rest => dropMarks skip rest
  | 0, c :: rest =>
    match marks.find? (·.isPrefixOf (c :: rest)) with
    | some mark => dropMarks (mark.length - 1) rest
    | none => c :: dropMarks 0 rest

def withoutMarks (text : String) : String := String.ofList (dropMarks 0 text.toList)

def Printed.lines : Printed → List String
  | .panel body title _ => [withoutMarks title, withoutMarks body]
  | .text line => [withoutMarks line]
  | .status message _ => [withoutMarks message]
  | .table title columns rows =>
    withoutMarks title :: (columns :: rows).map (String.intercalate " | ")

end Reporting.CommandLine
