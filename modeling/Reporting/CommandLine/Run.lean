import Reporting.CommandLine.Arguments
import Reporting.CommandLine.Display
import Reporting.CommandLine.Files
import Reporting.Schema.Rewards
import Reporting.Settings
import Reporting.Sql.Engine

/-!
# Running the command line

`Session.course` carries out a command in a session, which holds everything outside the program:
the files, the table of reports, the engine, and the screen. A rejected report ends with exit code
two, anything else that stands in the way of an answer with one; both show a panel. What is not
foreseen is an `Escape`. The screen may refuse an item whose markup it cannot lay out, which nobody
foresees either: `Session.perform` goes as far as the screen lets it. `Session.obey` carries out
what the arguments ask for, once the threshold of the log is known.
-/

namespace Reporting.CommandLine

def Invocation.logRequest (invocation : Invocation) : LogRequest :=
  match invocation.logLevel with
  | some name => .named name
  | none => .unspecified

/-- What the program finds outside itself. `refusal?` is the screen's: the complaint about an item
that it cannot lay out. `depth` is how deep JSON texts may nest. -/
structure Session where
  files : Files := {}
  reports : ReportTable := {}
  depth : Nat
  refusal? : Printed → Option String := fun _ => none
  engine : Sql.NamedStatement Scalar → Except String (List Row)

/-- An end of the program that it does not foresee. -/
inductive Escape where
  | noPath
  | unusablePath (path : String)
  | beyondLimits (excess : Json.Excess)
  | build (fault : BuildFault)
  | record (faults : List ShapeFault)
  | binds (fault : Sql.BindFault)
  | missingColumn (column : String)
  | longInteger
  | idOutOfRange (id : Int)
  | markup (complaint : String)

def Escape.message : Escape → String
  | .noPath => "No report file is named"
  | .unusablePath path => "No file can be named " ++ Text.quoted path
  | .record faults => ShapeFault.listing faults
  | .beyondLimits excess => excess.message
  | .build fault => fault.message
  | .binds fault => fault.message
  | .missingColumn column => "A row lacks the column " ++ Text.quoted column
  | .longInteger => longIntegerMessage
  | .idOutOfRange id => "No report can have the id " ++ toString id
  | .markup complaint => complaint

/-- What a command comes to as long as the screen takes every item: the items in order, the
statements that reach the engine, and the exit code or what is not foreseen. -/
structure Course where
  printed : List Printed
  calls : List (Sql.NamedStatement Scalar) := []
  ending : Except Escape Nat

/-- The exit code, the items on the screen and the statements that reached the engine. -/
structure Outcome where
  exitCode : Nat
  printed : List Printed
  calls : List (Sql.NamedStatement Scalar) := []

def succeed (printed : List Printed) (calls : List (Sql.NamedStatement Scalar) := []) : Course :=
  ⟨printed, calls, .ok 0⟩

def fail (code : Nat) (printed : List Printed) (error : Printed)
    (calls : List (Sql.NamedStatement Scalar) := []) : Course :=
  ⟨printed ++ [error], calls, .ok code⟩

def breakOff (printed : List Printed) (escape : Escape)
    (calls : List (Sql.NamedStatement Scalar) := []) : Course :=
  ⟨printed, calls, .error escape⟩

def reject (printed : List Printed) (rejection : Rejection) : Course :=
  fail 2 printed (showRejection rejection)

def failBuild (printed : List Printed) : BuildFault → Course
  | .rejected rejection => reject printed rejection
  | fault => breakOff printed (.build fault)

inductive ConfigFault where
  | noPath
  | unusablePath (path : String)
  | file (fault : FileFault)
  | json (error : Json.Error)

namespace Session

/-- The value in a report file. A path with a null character names no file. -/
def loadConfig (session : Session) (path : Option String) : Except ConfigFault Value :=
  match path with
  | none => .error .noPath
  | some path =>
    if path.toList.contains (Char.ofNat 0) then .error (.unusablePath path)
    else
      match session.files.read path with
      | .error fault => .error (.file fault)
      | .ok text => (readStoredText session.depth text).mapError .json

def failConfig : ConfigFault → Course
  | .noPath => breakOff [] .noPath
  | .unusablePath path => breakOff [] (.unusablePath path)
  | .file fault => fail 1 [] (showError "Cannot read config" fault.message)
  | .json (.malformed fault) => fail 1 [] (showError "Cannot read config" fault.message)
  | .json (.beyondLimits excess) => breakOff [] (.beyondLimits excess)

def runQuery (session : Session) (compiled : CompiledQuery) :
    Except Sql.EngineFault (List Row) :=
  (Sql.runNamed session.engine compiled.sql compiled.params).outcome

/-- The statements of an execution as they reached the engine. -/
def engineCalls (session : Session) (compiled : List CompiledQuery) :
    List (Sql.NamedStatement Scalar) :=
  compiled.flatMap fun query => (Sql.runNamed session.engine query.sql query.params).calls

inductive LookupFault where
  | row (fault : RowFault)
  | idOutOfRange (id : Int)

/-- Looks a stored report up; only a word can be an id. -/
def lookup (session : Session) (id : Int) : Except LookupFault (Option StoredReport) :=
  if isWord id then (session.reports.get session.depth id).mapError .row
  else .error (.idOutOfRange id)

def failRow (printed : List Printed) : RowFault → Course
  | .document (.notJson fault) =>
    fail 1 printed (showError "Stored report is unreadable" (unreadableTextMessage fault))
  | .document (.notObject kind) =>
    fail 1 printed (showError "Stored report is unreadable" (notObjectMessage kind))
  | .document (.malformed faults) => reject printed (.malformed faults)
  | .document (.beyondLimits excess) => breakOff printed (.beyondLimits excess)
  | .record faults => breakOff printed (.record faults)

/-- Shows the rows of an execution, or why there are none. -/
def showExecution (session : Session) (printed : List Printed)
    (execution : Execution (Except (ExecutionFault Sql.EngineFault LookupFault) (List Row))) :
    Course :=
  let calls := session.engineCalls execution.calls
  match execution.outcome with
  | .ok rows =>
    match showRows rows with
    | .ok items => succeed (printed ++ items) calls
    | .error (.missingColumn column) => breakOff printed (.missingColumn column) calls
    | .error .longInteger => breakOff printed .longInteger calls
  | .error (.build fault) => failBuild printed fault
  | .error .longInteger => breakOff printed .longInteger
  | .error .noStore => fail 1 printed (showError "Not found" noStoreMessage)
  | .error (.notFound id) => fail 1 printed (showError "Not found" (notFoundMessage id))
  | .error (.store (.row fault)) => failRow printed fault
  | .error (.store (.idOutOfRange id)) => breakOff printed (.idOutOfRange id)
  | .error (.runner (.engine message)) =>
    fail 1 printed (showError "Database error" ("SQLAlchemyError: " ++ message)) calls
  | .error (.runner (.binds fault)) => breakOff printed (.binds fault)

def runFields (table : String) : Course :=
  match Schema.rewards.availableFields table with
  | .ok available => succeed [showFields available]
  | .error rejection => reject [] rejection

def runFile (session : Session) (table : String) (path : Option String) (execute : Bool) :
    Course :=
  match session.loadConfig path with
  | .error fault => failConfig fault
  | .ok config =>
    match (Schema.rewards.preview table config).outcome with
    | .error fault => failBuild [] fault
    | .ok compiled =>
      if !compiled.params.all Scalar.isShort then breakOff [showStatement compiled] .longInteger
      else if execute then
        session.showExecution
          (showQuery compiled ++ [.status "[bold cyan]Executing report...[/bold cyan]" "dots"])
          (Schema.rewards.execute session.runQuery table config)
      else succeed (showQuery compiled)

def runStored (session : Session) (id : Int) : Course :=
  session.showExecution [.status "[bold cyan]Executing stored report...[/bold cyan]" "dots"]
    (Schema.rewards.executeStored session.runQuery (some session.lookup) id)

def course (session : Session) : Command → Course
  | .fields table => runFields table
  | .compile table path => session.runFile table path false
  | .run table path => session.runFile table path true
  | .runStored id => session.runStored id

/-- Shows an item, if the screen takes it. -/
def show? (session : Session) (item : Printed) : Except Escape Unit :=
  match session.refusal? item with
  | some complaint => .error (.markup complaint)
  | none => .ok ()

/-- Follows a course up to its end, or to the first item that the screen does not take. -/
def follow (session : Session) (course : Course) : Except Escape Outcome := do
  checkAll session.show? course.printed
  let code ← course.ending
  return ⟨code, course.printed, course.calls⟩

def perform (session : Session) (command : Command) : Except Escape Outcome :=
  session.follow (session.course command)

end Session

/-- Why there is no outcome. -/
inductive Halt where
  | log (fault : LogFault)
  | unforeseen (escape : Escape)

def Halt.message : Halt → String
  | .log fault => fault.message
  | .unforeseen escape => escape.message

/-- Carries out what the arguments ask for. Without a threshold of the log nothing is done. -/
def Session.obey (session : Session) (environment : List (String × String))
    (invocation : Invocation) : Except Halt Outcome :=
  match invocation.logRequest.threshold environment with
  | .error fault => .error (.log fault)
  | .ok _ => (session.perform invocation.command).mapError .unforeseen

end Reporting.CommandLine
