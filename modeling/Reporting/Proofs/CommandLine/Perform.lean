import Reporting.CommandLine.Run
import Reporting.Proofs.Execution
import Reporting.Proofs.ReportTable
import Reporting.Proofs.Report.Short

/-!
# The courses of commands

What a command comes to, by what it meets outside the program. A command on a report file loads it
first and a stored report is looked up first; what is found (`Session.Finds`) is compiled and, if it
is to be executed, handed to the engine (`Session.Finds.exists_course_of_statement`). Up to there
nothing is shown that is an error panel (`Quiet`). A course is followed to its end unless the screen
refuses an item of it (`Session.follow_eq_ok`, `Session.exists_follow_error_iff`).
-/

namespace Reporting.CommandLine

/-- Is the item an error panel? -/
def Printed.isError : Printed → Bool
  | .panel _ _ border => border == "red"
  | .text _ | .status _ _ | .table _ _ _ => false

/-- Items without an error panel. -/
def Quiet (items : List Printed) : Prop := ∀ item ∈ items, item.isError = false

/-- Every row has the columns of the first one. -/
def Aligned (rows : List Row) : Prop :=
  ∀ first ∈ rows.head?, ∀ row ∈ rows, ∀ column ∈ first.map (·.1),
    ∃ value, row.lookup column = some value

/-- What is shown of the rows can be written. -/
def Legible (rows : List Row) : Prop :=
  ∀ first ∈ rows.head?, ∀ row ∈ rows.take shownRows, ∀ column ∈ first.map (·.1), ∀ value,
    row.lookup column = some value → value.isShort = true

section Quiet

theorem quiet_nil : Quiet [] := List.forall_mem_nil _

theorem quiet_single {item : Printed} (quiet : item.isError = false) : Quiet [item] :=
  List.forall_mem_singleton.mpr quiet

theorem Quiet.append {first others : List Printed} (quiet : Quiet first) (quietToo : Quiet others) :
    Quiet (first ++ others) :=
  List.forall_mem_append.mpr ⟨quiet, quietToo⟩

/-- A statement is shown without an error. -/
theorem quiet_showQuery (compiled : CompiledQuery) : Quiet (showQuery compiled) :=
  List.forall_mem_cons.mpr ⟨rfl, quiet_single rfl⟩

end Quiet

section Rows

open Reporting.Outcome

/-- A value has a cell iff it can be written. -/
theorem exists_cell_iff {value : Value} :
    (∃ text, cell value = .ok text) ↔ value.isShort = true := by
  unfold cell
  split
  · exact ⟨fun _ => rfl, fun _ => ⟨_, rfl⟩⟩
  · rw [Value.written?]
    cases value.isShort <;> simp

/-- A cell fails only for an integer that is too long. -/
theorem faultsIn_cell (value : Value) : FaultsIn (· = .longInteger) (cell value) := by
  unfold cell
  split
  · exact faultsIn_ok _
  · split
    · exact faultsIn_ok _
    · exact faultsIn_error rfl

section Columns

variable {columns : List String} {row : Row}
  (carried : ∀ column ∈ columns, ∃ value, row.lookup column = some value)

include carried

/-- A row that has all the columns is shown iff its values can be written. -/
theorem exists_cells_iff : (∃ texts, cells columns row = .ok texts) ↔
    ∀ column ∈ columns, ∀ value, row.lookup column = some value → value.isShort = true := by
  refine exists_mapM_iff.trans (forall₂_congr fun column member => ?_)
  obtain ⟨value, found⟩ := carried column member
  simp only [found, exists_cell_iff, Option.some.injEq, forall_eq']

/-- A row that has all the columns fails only for an integer that is too long. -/
theorem faultsIn_cells : FaultsIn (· = .longInteger) (cells columns row) := by
  refine faultsIn_mapM fun column member => ?_
  obtain ⟨value, found⟩ := carried column member
  rw [found]
  exact faultsIn_cell value

end Columns

/-- Aligned rows are shown, without an error, as far as what is shown of them can be written. -/
theorem Aligned.showRows_cases {rows : List Row} (aligned : Aligned rows) :
    (Legible rows ∧ ∃ items, showRows rows = .ok items ∧ Quiet items) ∨
      (¬ Legible rows ∧ showRows rows = .error .longInteger) := by
  cases rows with
  | nil => exact Or.inl ⟨nofun, _, rfl, quiet_single rfl⟩
  | cons first rest =>
      have carried (row : Row) (member : row ∈ (first :: rest).take shownRows) :=
        aligned first rfl row (List.mem_of_mem_take member)
      have legible : Legible (first :: rest) ↔ ∃ body,
          ((first :: rest).take shownRows).mapM (cells (first.map (·.1))) = .ok body := by
        rw [exists_mapM_iff, Legible]
        simp only [List.head?_cons, Option.mem_some_iff, forall_eq']
        exact forall₂_congr fun row member => (exists_cells_iff (carried row member)).symm
      rw [showRows]
      cases shown : ((first :: rest).take shownRows).mapM (cells (first.map (·.1))) with
      | error fault =>
          have long := faultsIn_mapM (fun row member => faultsIn_cells (carried row member)) _ shown
          refine Or.inr ⟨?_, congrArg Except.error long⟩
          rw [legible, shown]
          exact fun ⟨body, ended⟩ => nomatch ended
      | ok body =>
          refine Or.inl ⟨legible.mpr ⟨body, shown⟩, _, rfl, Quiet.append ?_ (quiet_single rfl)⟩
          split
          · exact quiet_single rfl
          · exact quiet_nil

end Rows

/-- A command on a report file, by the table and the path. -/
inductive Command.Names : Command → String → Option String → Prop
  | compile {table : String} {path : Option String} : Names (.compile table path) table path
  | run {table : String} {path : Option String} : Names (.run table path) table path

/-- Does the command go on to execute its report? -/
def Command.executes : Command → Bool
  | .fields _ | .compile _ _ => false
  | .run _ _ | .runStored _ => true

namespace Session

/-- The command names a file, and this is its text. -/
def Holds (session : Session) (command : Command) (table text : String) : Prop :=
  ∃ path, command.Names table (some path) ∧ Char.ofNat 0 ∉ path.toList ∧
    session.files.read path = .ok text

/-- The row that a stored report is asked for by. -/
structure Stores (session : Session) (id : Int) (row : ReportRow) : Prop where
  word : isWord id = true
  found : session.reports.row? id = some row

/-- The report that a command is about, and its table. -/
inductive Finds (session : Session) : Command → String → Report → Prop
  | file {command : Command} {table text : String} {config : Value} {report : Report}
      (holds : session.Holds command table text)
      (json : readStoredText session.depth text = .ok config)
      (read : Report.read config = .valid report) : Finds session command table report
  | stored {id : Int} {row : ReportRow} {report : Report} (stores : session.Stores id row)
      (document : Report.ofDocument session.depth (.text row.document) = .ok report)
      (sound : row.Sound) : Finds session (.runStored id) row.sourceTable report

/-- The screen refuses an item. -/
def Refuses (session : Session) (item : Printed) : Prop :=
  ∃ complaint, session.refusal? item = some complaint

variable {session : Session} {command : Command} {table : String}

/-! ### Following a course -/

/-- An item is shown iff the screen does not refuse it. -/
theorem show?_eq_ok {item : Printed} : session.show? item = .ok () ↔ ¬ session.Refuses item := by
  rw [show?, Refuses]
  cases session.refusal? item <;> simp

/-- A course leads to an outcome as long as the screen takes every item and an exit code is at its
end. -/
theorem follow_eq_ok {course : Course} {outcome : Outcome} :
    session.follow course = .ok outcome ↔ (∀ item ∈ course.printed, ¬ session.Refuses item) ∧
      ∃ code, course.ending = .ok code ∧ ⟨code, course.printed, course.calls⟩ = outcome := by
  rw [follow, Outcome.check_bind_eq_ok, Outcome.checkAll_eq_ok]
  simp only [show?_eq_ok, Outcome.bind_eq_ok, Outcome.pure_eq_ok]

/-- The catalogue of a table that is no source is refused. -/
theorem course_fields_of_unknown (unknown : Schema.rewards.isReportable table = false) :
    session.course (.fields table) = reject [] (.unknownSource table none) := by
  rw [Schema.isReportable] at unknown
  rw [course, runFields, Schema.availableFields]
  cases found : Schema.rewards.table? table with
  | none => rfl
  | some entry =>
      rw [found, Option.any_some] at unknown
      simp only [unknown, Bool.false_eq_true, ↓reduceIte]

/-- The catalogue of a source is shown. -/
theorem exists_course_fields (reportable : Schema.rewards.isReportable table = true) :
    ∃ available, session.course (.fields table) = succeed [showFields available] := by
  rw [Schema.isReportable, Option.any_eq_true] at reportable
  obtain ⟨entry, found, reportable⟩ := reportable
  rw [course, runFields, Schema.availableFields, found]
  simp only [reportable, ↓reduceIte]
  exact ⟨_, rfl⟩

/-! ### The report file -/

theorem loadConfig_of_unread {path : String} {fault : FileFault}
    (nonNull : Char.ofNat 0 ∉ path.toList) (unread : session.files.read path = .error fault) :
    session.loadConfig (some path) = .error (.file fault) := by
  rw [loadConfig, if_neg (mt List.contains_iff_mem.mp nonNull), unread]

/-- A file loads what reading its text gives. -/
theorem Holds.exists_loadConfig {text : String} {outcome : Except Json.Error Value}
    (holds : session.Holds command table text)
    (json : readStoredText session.depth text = outcome) :
    ∃ path, command.Names table path ∧ session.loadConfig path = outcome.mapError .json := by
  obtain ⟨path, names, nonNull, read⟩ := holds
  refine ⟨path, names, ?_⟩
  rw [loadConfig, if_neg (mt List.contains_iff_mem.mp nonNull), read, ← json]

/-- Whether it executes its report or not, a command on a file goes the same way. -/
theorem course_of_names {path : Option String} (names : command.Names table path) :
    session.course command = session.runFile table path command.executes := by
  cases names <;> rfl

/-- Where no value can be loaded, the program says why. -/
theorem course_of_unloaded {path : Option String} {fault : ConfigFault}
    (names : command.Names table path) (unloaded : session.loadConfig path = .error fault) :
    session.course command = failConfig fault := by
  rw [course_of_names names, runFile, unloaded]

/-- A value that is not compiled is not executed either. -/
theorem course_of_uncompiled {path : Option String} {config : Value} {fault : BuildFault}
    (names : command.Names table path) (loaded : session.loadConfig path = .ok config)
    (refused : Schema.rewards.compileValue table config = .error fault) :
    session.course command = failBuild [] fault := by
  rw [course_of_names names, runFile, loaded]
  simp only [(Schema.preview_eq _ _ _).1, refused]

/-! ### Executions -/

/-- The engine is asked for what compiles, and its answer is shown. -/
theorem showExecution_of_compiled {printed : List Printed} {compiled : CompiledQuery}
    {statement : Sql.NamedStatement Scalar}
    {execution : Execution (Except (ExecutionFault Sql.EngineFault LookupFault) (List Row))}
    (outcome : execution.outcome = (session.runQuery compiled).mapError .runner)
    (calls : execution.calls = [compiled])
    (named : Sql.nameBinds compiled.sql compiled.params = .ok statement) :
    session.showExecution printed execution =
      match session.engine statement with
      | .error message =>
        fail 1 printed (showError "Database error" ("SQLAlchemyError: " ++ message)) [statement]
      | .ok rows =>
        match showRows rows with
        | .ok items => succeed (printed ++ items) [statement]
        | .error (.missingColumn column) => breakOff printed (.missingColumn column) [statement]
        | .error .longInteger => breakOff printed .longInteger [statement] := by
  have asked : Sql.runNamed session.engine compiled.sql compiled.params =
      ⟨[statement], (session.engine statement).mapError .engine⟩ := by
    rw [Sql.runNamed, named]
  rw [showExecution, outcome, calls, runQuery, engineCalls, List.flatMap_singleton, asked]
  cases session.engine statement <;> rfl

/-! ### Stored reports -/

/-- A row that is stored is looked up by reading it. -/
theorem lookup_of_stores {id : Int} {row : ReportRow} (stores : session.Stores id row) :
    session.lookup id = ((row.read session.depth).map some).mapError .row := by
  rw [lookup, if_pos stores.word, ReportTable.get, stores.found]

/-- An id that a row can have can be written. -/
theorem isShortInteger_of_isWord {id : Int} (word : isWord id = true) :
    isShortInteger id = true := by
  have few : id.natAbs < 10 ^ 19 := by
    simp only [isWord, decide_eq_true_iff, Int64.toInt_minValue, Int64.toInt_maxValue] at word
    omega
  exact isShortInteger_of_lt few (by decide)

/-- Asking for a stored report ends with what its look-up gives. -/
theorem exists_course_runStored (session : Session) (id : Int) : ∃ shown, Quiet shown ∧
    session.course (.runStored id) =
      match session.lookup id with
      | .error (.row fault) => failRow shown fault
      | .error (.idOutOfRange id) => breakOff shown (.idOutOfRange id)
      | .ok none => session.showExecution shown { outcome := .error (missingReport id) }
      | .ok (some stored) =>
        session.showExecution shown (Schema.runCompiled session.runQuery stored.sourceTable
          (Schema.rewards.compile stored.sourceTable stored.report)) := by
  refine ⟨[.status "[bold cyan]Executing stored report...[/bold cyan]" "dots"],
    quiet_single rfl, ?_⟩
  rw [course, runStored, Schema.executeStored.eq_def]
  cases looked : session.lookup id with
  | error fault =>
      simp only [looked]
      cases fault <;> rfl
  | ok entry =>
      simp only [looked]
      cases entry <;> rfl

/-- A row that cannot be read comes to what its fault comes to. -/
theorem exists_course_of_unread {id : Int} {row : ReportRow} {fault : RowFault}
    (stores : session.Stores id row) (unread : row.read session.depth = .error fault) :
    ∃ shown, Quiet shown ∧ session.course (.runStored id) = failRow shown fault := by
  obtain ⟨shown, quiet, course⟩ := session.exists_course_runStored id
  rw [lookup_of_stores stores, unread] at course
  exact ⟨shown, quiet, course⟩

/-- Without a row of its id a report is not found. -/
theorem exists_course_of_missing {id : Int} (word : isWord id = true)
    (missing : session.reports.row? id = none) :
    ∃ shown, Quiet shown ∧ session.course (.runStored id) =
      fail 1 shown (showError "Not found" (notFoundMessage id)) := by
  obtain ⟨shown, quiet, course⟩ := session.exists_course_runStored id
  rw [lookup, if_pos word, ReportTable.get, missing] at course
  refine ⟨shown, quiet, course.trans ?_⟩
  simp only [Except.mapError, missingReport, isShortInteger_of_isWord word, ↓reduceIte]
  rfl

/-- The integers of a report that is found can be written. -/
theorem Finds.isShort {report : Report} (finds : session.Finds command table report) :
    report.toValue.isShort = true := by
  cases finds with
  | file holds json read =>
      exact Report.isShort_of_read (Json.isShort_of_read (Nat.le_refl digitLimit) json) read
  | stored stores document sound => exact Report.isShort_of_ofDocument document

/-- What becomes of a command hangs on how its report compiles, and on what the engine answers. -/
theorem Finds.exists_course {report : Report} (finds : session.Finds command table report) :
    ∃ shown, Quiet shown ∧ session.course command =
      match Schema.rewards.compile table report with
      | .error fault => failBuild shown fault
      | .ok compiled =>
        if command.executes then
          session.showExecution shown
            (Schema.runCompiled session.runQuery table (.ok compiled))
        else succeed shown := by
  have short := finds.isShort
  cases finds with
  | @file _ _ _ config _ holds json read =>
      obtain ⟨path, names, loaded⟩ := holds.exists_loadConfig json
      have compileValue : Schema.rewards.compileValue table config =
          Schema.rewards.compile table report := by
        rw [Schema.compileValue, Report.ofValue, read]
      cases outcome : Schema.rewards.compile table report with
      | error fault =>
          exact ⟨[], quiet_nil, course_of_uncompiled names loaded (compileValue.trans outcome)⟩
      | ok compiled =>
          have shown : compiled.params.all Scalar.isShort = true :=
            List.all_eq_true.mpr (Schema.isShort_params short outcome)
          rw [course_of_names names, runFile, loaded, Except.mapError]
          simp only [(Schema.preview_eq _ _ _).1, Schema.execute, compileValue, outcome, shown,
            Bool.not_true, Bool.false_eq_true, ↓reduceIte]
          cases command.executes with
          | true => exact ⟨_, (quiet_showQuery compiled).append (quiet_single rfl), rfl⟩
          | false => exact ⟨_, quiet_showQuery compiled, rfl⟩
  | @stored id _ _ stores document sound =>
      obtain ⟨stored, read, source, same⟩ := ReportRow.exists_read_of_sound document sound
      obtain ⟨shown, quiet, course⟩ := session.exists_course_runStored id
      refine ⟨shown, quiet, course.trans ?_⟩
      rw [lookup_of_stores stores, read]
      simp only [Except.map, Except.mapError, source, same]
      cases Schema.rewards.compile _ report <;> rfl

/-- Every statement that compiles can be handed to the engine. -/
theorem exists_statement {report : Report} {compiled : CompiledQuery}
    (compiles : Schema.rewards.compile table report = .ok compiled) :
    ∃ statement, Sql.nameBinds compiled.sql compiled.params = .ok statement :=
  ⟨_, if_neg (not_not_intro (Schema.marks_of_compile Schema.rewards_accepted compiles))⟩

/-- What the engine answers is shown. -/
theorem Finds.exists_course_of_statement {report : Report} {compiled : CompiledQuery}
    {statement : Sql.NamedStatement Scalar} (finds : session.Finds command table report)
    (executes : command.executes = true)
    (compiles : Schema.rewards.compile table report = .ok compiled)
    (named : Sql.nameBinds compiled.sql compiled.params = .ok statement) :
    ∃ shown, Quiet shown ∧ session.course command =
      match session.engine statement with
      | .error message =>
        fail 1 shown (showError "Database error" ("SQLAlchemyError: " ++ message)) [statement]
      | .ok rows =>
        match showRows rows with
        | .ok items => succeed (shown ++ items) [statement]
        | .error (.missingColumn column) => breakOff shown (.missingColumn column) [statement]
        | .error .longInteger => breakOff shown .longInteger [statement] := by
  obtain ⟨shown, quiet, course⟩ := finds.exists_course
  refine ⟨shown, quiet, course.trans ?_⟩
  simp only [compiles, executes, ↓reduceIte]
  exact showExecution_of_compiled rfl rfl named

end Session

end Reporting.CommandLine
