import Reporting.Moment.Iso
import Reporting.Report.Stored
import Reporting.ReportTable.IntegerColumn

/-!
# The table of reports

Reports are kept as rows of a table, their definition as JSON text. `ReportTable.insert` adds a
submitted row whose times can be read, whose integers are words and whose id is new; for times that
were not submitted the clock of the database stands in. A row is read when it is asked for, so a row
may turn out unreadable: first its text is read, then the way it is shown and who made it.
`ReportTable.list` reads all rows, the newest first by the texts of their times and of equally new
ones the one with the higher id, and fails with the first unreadable row in that order.
-/

namespace Reporting

/-- A time as the table keeps it. A submitted one has a fraction, be it zero; one from the clock of
the database has none. -/
structure StoredTime where
  date : CalendarDate
  hour : Nat
  minute : Nat
  second : Nat
  microsecond : Option Nat
  deriving DecidableEq

namespace StoredTime

/-- A submitted time. -/
def ofMoment (m : Moment) : StoredTime :=
  let time := m.time.getD {}
  ⟨m.date, time.hour, time.minute, time.second, some time.microsecond⟩

/-- A reading of the clock, which tells seconds. -/
def ofClock (now : Moment) : StoredTime := { ofMoment now with microsecond := none }

/-- The time as it is read back. -/
def moment (t : StoredTime) : Moment :=
  ⟨t.date, some { hour := t.hour, minute := t.minute, second := t.second,
                  microsecond := t.microsecond.getD 0 }⟩

/-- The text that is stored: every number at its full width, the fraction only if there is one. -/
def text (t : StoredTime) : String :=
  Moment.padded 4 t.date.year ++ "-" ++ Moment.padded 2 t.date.month ++ "-" ++
    Moment.padded 2 t.date.day ++ " " ++ Moment.padded 2 t.hour ++ ":" ++
    Moment.padded 2 t.minute ++ ":" ++ Moment.padded 2 t.second ++
    (match t.microsecond with
      | some n => "." ++ Moment.padded 6 n
      | none => "")

end StoredTime

/-- A row of the table. What stands for its maker is kept as it was stored. -/
structure ReportRow where
  id : Int
  name : String
  sourceTable : String
  visualization : String
  document : String
  createdBy : Value
  createdAt : StoredTime
  updatedAt : StoredTime

inductive RowFault where
  | document (fault : DocumentFault)
  | record (faults : List ShapeFault)

namespace ReportRow

def read (depth : Nat) (row : ReportRow) : Except RowFault StoredReport :=
  match Report.ofDocument depth (.text row.document) with
  | .error fault => .error (.document fault)
  | .ok report =>
    let stored : Checked StoredReport :=
      (fun visualization createdBy =>
        { id := row.id, name := row.name, sourceTable := row.sourceTable, visualization, report,
          createdBy, createdAt := some row.createdAt.moment
          updatedAt := some row.updatedAt.moment })
      <$> Checked.within (.member "visualization_type")
        (Visualization.read (.text row.visualization))
      <*> Checked.within (.member "created_by") (Shape.nullable Lenient.integer row.createdBy)
    stored.toExcept.mapError .record

/-- Does the first row come before the second or stand level with it? Times are compared by their
texts. -/
def precedes (a b : ReportRow) : Bool :=
  if a.createdAt.text = b.createdAt.text then decide (b.id ≤ a.id)
  else decide (b.createdAt.text < a.createdAt.text)

end ReportRow

/-- What the database brings to an addition: the reading of its clock, and the ids that it draws one
after the other when there is no next one. -/
structure Surroundings where
  now : Moment
  draws : List Nat := []

/-- A row as it is submitted, its times as texts. An id and times may be left out. -/
structure ReportDraft where
  id : Option Int := none
  name : String
  sourceTable : String
  visualization : String := "table"
  document : String
  createdBy : Value := .null
  createdAt : Option String := none
  updatedAt : Option String := none

/-- Why a row is not added; `full` says that no id was left that could be found. -/
inductive InsertFault where
  | moment (fault : IsoFault)
  | overflow (fault : IntegerColumn.Overflow)
  | duplicateId (id : Int)
  | full
  deriving DecidableEq

/-- Rows in the order of their addition. -/
structure ReportTable where
  rows : List ReportRow := []

namespace ReportTable

/-- The highest id so far, zero for an empty table. -/
def highestId (table : ReportTable) : Int :=
  match table.rows with
  | [] => 0
  | row :: rest => rest.foldl (fun highest row => max highest row.id) row.id

def row? (table : ReportTable) (id : Int) : Option ReportRow := table.rows.find? (·.id == id)

/-- The first drawn id that a row can have and none has yet. -/
def drawnId? (table : ReportTable) (draws : List Nat) : Option Int :=
  (draws.map Int.ofNat).find? fun id => decide (0 < id) && isWord id && (table.row? id).isNone

/-- The id that a row without one is given: the one after the highest as long as it is a word, and
then one that is drawn. -/
def nextId? (table : ReportTable) (draws : List Nat) : Option Int :=
  if isWord (table.highestId + 1) then some (table.highestId + 1) else table.drawnId? draws

def add (table : ReportTable) (row : ReportRow) : ReportTable := ⟨table.rows ++ [row]⟩

/-- A time of a row: the wall-clock reading of an ISO text, or else of the clock. -/
def timeOf (now : Moment) : Option String → Except InsertFault StoredTime
  | some text => ((Moment.ofIso text).map .ofMoment).mapError .moment
  | none => .ok (.ofClock now)

/-- The id of a row: the one that was submitted, if it is a word, or the one that it is given. -/
def idOf (table : ReportTable) (draws : List Nat) : Option Int → Except InsertFault Int
  | some id => if isWord id then .ok id else .error (.overflow ⟨id⟩)
  | none =>
    match table.nextId? draws with
    | some id => .ok id
    | none => .error .full

def rowOf (table : ReportTable) (surroundings : Surroundings) (draft : ReportDraft) :
    Except InsertFault ReportRow := do
  let createdAt ← timeOf surroundings.now draft.createdAt
  let updatedAt ← timeOf surroundings.now draft.updatedAt
  let createdBy ← (IntegerColumn.keep draft.createdBy).mapError .overflow
  let id ← table.idOf surroundings.draws draft.id
  return { id, name := draft.name, sourceTable := draft.sourceTable,
           visualization := draft.visualization, document := draft.document, createdBy, createdAt,
           updatedAt }

def insert (table : ReportTable) (surroundings : Surroundings) (draft : ReportDraft) :
    Except InsertFault (Int × ReportTable) := do
  let row ← table.rowOf surroundings draft
  if (table.row? row.id).isSome then throw (.duplicateId row.id)
  return (row.id, table.add row)

/-- The report with an id, if there is one. -/
def get (table : ReportTable) (depth : Nat) (id : Int) : Except RowFault (Option StoredReport) :=
  match table.row? id with
  | none => .ok none
  | some row => (row.read depth).map some

/-- The rows, newest first. -/
def newestFirst (table : ReportTable) : List ReportRow := table.rows.mergeSort ReportRow.precedes

/-- All reports, newest first. -/
def list (table : ReportTable) (depth : Nat) : Except RowFault (List StoredReport) :=
  table.newestFirst.mapM (ReportRow.read depth)

end ReportTable

end Reporting
