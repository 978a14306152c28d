import Reporting.Report.Compile
import Reporting.ReportTable

/-!
# Running reports

Executing a report compiles it and hands the statement to a runner; a rejected report reaches no
runner. Stored reports are looked up first. An `Execution` holds the outcome together with the
statements that were handed over and what was logged on the way.
-/

namespace Reporting

/-- A result row: column names with their values. -/
abbrev Row := List (String × Value)

/-- Why no rows come back; `ε` is what the runner may fail with and `σ` the report store. -/
inductive ExecutionFault (ε σ : Type) where
  | build (fault : BuildFault)
  | longInteger
  | noStore
  | notFound (id : Int)
  | store (fault : σ)
  | runner (failure : ε)

def noStoreMessage : String := "ReportExecutor has no report store configured"

def notFoundMessage (id : Int) : String := "Report " ++ toString id ++ " not found"

/-- What is said where there is no report with an id, as far as the id can be written. -/
def missingReport {ε σ : Type} (id : Int) : ExecutionFault ε σ :=
  if isShortInteger id then .notFound id else .longInteger

/-- An outcome with the statements that were run and the records that were logged. -/
structure Execution (α : Type) where
  outcome : α
  calls : List CompiledQuery := []
  log : List LogRecord := []

namespace Schema

variable (schema : Schema) {ε σ : Type}

def preview (table : String) (config : Value) : Execution (Except BuildFault CompiledQuery) :=
  match schema.compileValue table config with
  | .error fault => { outcome := .error fault }
  | .ok compiled => { outcome := .ok compiled, log := [compiled.logRecord table] }

def startRecord (table : String) (compiled : CompiledQuery) : LogRecord :=
  ⟨.info, "Executing report on '" ++ table ++ "' with " ++ toString compiled.params.length ++
    " params"⟩

def endRecord (table : String) : Except ε (List Row) → LogRecord
  | .ok rows => ⟨.info, "Report on '" ++ table ++ "' returned " ++ toString rows.length ++ " rows"⟩
  | .error _ => ⟨.error, "Report query on '" ++ table ++ "' failed"⟩

def runCompiled (run : CompiledQuery → Except ε (List Row)) (table : String) :
    Except BuildFault CompiledQuery → Execution (Except (ExecutionFault ε σ) (List Row))
  | .error fault => { outcome := .error (.build fault) }
  | .ok compiled =>
    let rows := run compiled
    { outcome := rows.mapError .runner
      calls := [compiled]
      log := [compiled.logRecord table, startRecord table compiled, endRecord table rows] }

def execute (run : CompiledQuery → Except ε (List Row)) (table : String) (config : Value) :
    Execution (Except (ExecutionFault ε σ) (List Row)) :=
  runCompiled run table (schema.compileValue table config)

def storedRecord (stored : StoredReport) : LogRecord :=
  ⟨.info, "Executing stored report " ++ toString stored.id ++ " (" ++ stored.name ++ ")"⟩

def executeStored (run : CompiledQuery → Except ε (List Row))
    (store? : Option (Int → Except σ (Option StoredReport))) (id : Int) :
    Execution (Except (ExecutionFault ε σ) (List Row)) :=
  match store? with
  | none => { outcome := .error .noStore }
  | some get =>
    match get id with
    | .error fault => { outcome := .error (.store fault) }
    | .ok none => { outcome := .error (missingReport id) }
    | .ok (some stored) =>
      let execution := runCompiled run stored.sourceTable
        (schema.compile stored.sourceTable stored.report)
      { execution with log := storedRecord stored :: execution.log }

end Schema

/-- What is asked of the program, with the answer that the runner will give if it is reached. -/
inductive Request (ε : Type) where
  | preview (table : String) (config : Value)
  | execute (table : String) (config : Value) (answer : Except ε (List Row))
  | executeStored (id : Int) (answer : Except ε (List Row))

inductive Reply (ε σ : Type) where
  | compiled (outcome : Except BuildFault CompiledQuery)
  | rows (outcome : Except (ExecutionFault ε σ) (List Row))

def Execution.map {α β : Type} (f : α → β) (execution : Execution α) : Execution β :=
  { outcome := f execution.outcome, calls := execution.calls, log := execution.log }

namespace Schema

variable (schema : Schema) {ε σ : Type}

def serve (store? : Option (Int → Except σ (Option StoredReport))) :
    Request ε → Execution (Reply ε σ)
  | .preview table config => (schema.preview table config).map .compiled
  | .execute table config answer => (schema.execute (fun _ => answer) table config).map .rows
  | .executeStored id answer =>
    (schema.executeStored (fun _ => answer) store? id).map .rows

/-- Serves requests one after the other, with the statements and the records of all of them in
order. -/
def serveAll (store? : Option (Int → Except σ (Option StoredReport))) :
    List (Request ε) → Execution (List (Reply ε σ))
  | [] => { outcome := [] }
  | request :: rest =>
    let first := schema.serve store? request
    let others := serveAll store? rest
    { outcome := first.outcome :: others.outcome
      calls := first.calls ++ others.calls
      log := first.log ++ others.log }

end Schema

end Reporting
