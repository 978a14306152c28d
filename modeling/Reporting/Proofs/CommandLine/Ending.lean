import Reporting.Proofs.CommandLine.Perform
import Reporting.Proofs.Report.Agreement

/-!
# How the program ends

A command may be rejected (`Session.Rejects`), fail for want of a report or of rows
(`Session.Fails`), meet something that is not foreseen (`Session.Unforeseen`), or be answered, and
there is no other way to end (`Session.ends`). Where there is an outcome its exit code tells which
way it was: `Session.obey_ends`.
-/

namespace Reporting.CommandLine

namespace Session

/-- The report of the command is rejected. -/
inductive Rejects (session : Session) : Command → Rejection → Prop
  | fields {table : String} (unknown : Schema.rewards.isReportable table = false) :
      Rejects session (.fields table) (.unknownSource table none)
  | file {command : Command} {table text : String} {config : Value} {faults : List ShapeFault}
      (holds : session.Holds command table text)
      (json : readStoredText session.depth text = .ok config)
      (read : Report.read config = .faulty faults) : Rejects session command (.malformed faults)
  | stored {id : Int} {row : ReportRow} {faults : List ShapeFault} (stores : session.Stores id row)
      (document : Report.ofDocument session.depth (.text row.document) =
        .error (.malformed faults)) :
      Rejects session (.runStored id) (.malformed faults)
  | rule {command : Command} {table : String} {report : Report} {rejection : Rejection}
      (finds : session.Finds command table report)
      (refused : report.check Schema.rewards table = .error (.rejected rejection)) :
      Rejects session command rejection

/-- There is no answer, by the title and the message of the error: the report file cannot be read
or is not JSON, the stored report is missing or unreadable, or the engine fails. -/
inductive Fails (session : Session) : Command → String → String → Prop
  | file {command : Command} {table path : String} {fault : FileFault}
      (names : command.Names table (some path)) (nonNull : Char.ofNat 0 ∉ path.toList)
      (unread : session.files.read path = .error fault) :
      Fails session command "Cannot read config" fault.message
  | json {command : Command} {table text : String} {fault : Json.Fault}
      (holds : session.Holds command table text)
      (json : readStoredText session.depth text = .error (.malformed fault)) :
      Fails session command "Cannot read config" fault.message
  | missing {id : Int} (word : isWord id = true) (missing : session.reports.row? id = none) :
      Fails session (.runStored id) "Not found" (notFoundMessage id)
  | notJson {id : Int} {row : ReportRow} {fault : Json.Fault} (stores : session.Stores id row)
      (document : Report.ofDocument session.depth (.text row.document) = .error (.notJson fault)) :
      Fails session (.runStored id) "Stored report is unreadable" (unreadableTextMessage fault)
  | notObject {id : Int} {row : ReportRow} {kind : String} (stores : session.Stores id row)
      (document : Report.ofDocument session.depth (.text row.document) = .error (.notObject kind)) :
      Fails session (.runStored id) "Stored report is unreadable" (notObjectMessage kind)
  | engine {command : Command} {table : String} {report : Report} {compiled : CompiledQuery}
      {statement : Sql.NamedStatement Scalar} {message : String}
      (finds : session.Finds command table report) (executes : command.executes = true)
      (compiles : Schema.rewards.compile table report = .ok compiled)
      (named : Sql.nameBinds compiled.sql compiled.params = .ok statement)
      (failed : session.engine statement = .error message) :
      Fails session command "Database error" ("SQLAlchemyError: " ++ message)

/-- What the program does not foresee: no path or a path that no file can have, an id that no row
can have, a text beyond the limits on JSON, a row that holds a report but is not sound, rows that
cannot be written, and an item that the screen refuses. -/
inductive Unforeseen (session : Session) : Command → Prop
  | noPath {command : Command} {table : String} (names : command.Names table none) :
      Unforeseen session command
  | null {command : Command} {table path : String} (names : command.Names table (some path))
      (null : Char.ofNat 0 ∈ path.toList) : Unforeseen session command
  | file {command : Command} {table text : String} {excess : Json.Excess}
      (holds : session.Holds command table text)
      (json : readStoredText session.depth text = .error (.beyondLimits excess)) :
      Unforeseen session command
  | id {id : Int} (far : isWord id = false) : Unforeseen session (.runStored id)
  | document {id : Int} {row : ReportRow} {excess : Json.Excess} (stores : session.Stores id row)
      (document : Report.ofDocument session.depth (.text row.document) =
        .error (.beyondLimits excess)) :
      Unforeseen session (.runStored id)
  | row {id : Int} {row : ReportRow} {report : Report} (stores : session.Stores id row)
      (document : Report.ofDocument session.depth (.text row.document) = .ok report)
      (unsound : ¬ row.Sound) : Unforeseen session (.runStored id)
  | cells {command : Command} {table : String} {report : Report} {compiled : CompiledQuery}
      {statement : Sql.NamedStatement Scalar} {rows : List Row}
      (finds : session.Finds command table report) (executes : command.executes = true)
      (compiles : Schema.rewards.compile table report = .ok compiled)
      (named : Sql.nameBinds compiled.sql compiled.params = .ok statement)
      (answered : session.engine statement = .ok rows) (illegible : ¬ Legible rows) :
      Unforeseen session command
  | screen {command : Command} {item : Printed} (printed : item ∈ (session.course command).printed)
      (refuses : session.Refuses item) : Unforeseen session command

variable {session : Session} {command : Command} {table : String}

/-! ### The four ways to end -/

/-- A rejection comes to its panel, and to the exit code two. -/
theorem Rejects.exists_course {rejection : Rejection}
    (rejects : session.Rejects command rejection) :
    ∃ shown, Quiet shown ∧ session.course command = fail 2 shown (showRejection rejection) := by
  cases rejects with
  | fields unknown => exact ⟨[], quiet_nil, course_fields_of_unknown unknown⟩
  | @file _ table _ config faults holds json read =>
      obtain ⟨path, names, loaded⟩ := holds.exists_loadConfig json
      have refused : Schema.rewards.compileValue table config =
          .error (.rejected (.malformed faults)) := by
        rw [Schema.compileValue, Report.ofValue, read]
      exact ⟨[], quiet_nil, course_of_uncompiled names loaded refused⟩
  | stored stores document =>
      exact exists_course_of_unread stores (ReportRow.read_of_document document)
  | rule finds refused =>
      obtain ⟨shown, quiet, course⟩ := finds.exists_course
      rw [Schema.compile_eq_error_of_check refused] at course
      exact ⟨shown, quiet, course⟩

/-- A failure comes to its panel, and to the exit code one. -/
theorem Fails.exists_course {title message : String}
    (fails : session.Fails command title message) :
    ∃ shown calls, Quiet shown ∧
      session.course command = fail 1 shown (showError title message) calls := by
  cases fails with
  | file names nonNull unread =>
      exact ⟨[], [], quiet_nil, course_of_unloaded names (loadConfig_of_unread nonNull unread)⟩
  | json holds json =>
      obtain ⟨path, names, unloaded⟩ := holds.exists_loadConfig json
      exact ⟨[], [], quiet_nil, course_of_unloaded names unloaded⟩
  | missing word missing =>
      obtain ⟨shown, quiet, course⟩ := exists_course_of_missing word missing
      exact ⟨shown, [], quiet, course⟩
  | notJson stores document =>
      obtain ⟨shown, quiet, course⟩ :=
        exists_course_of_unread stores (ReportRow.read_of_document document)
      exact ⟨shown, [], quiet, course⟩
  | notObject stores document =>
      obtain ⟨shown, quiet, course⟩ :=
        exists_course_of_unread stores (ReportRow.read_of_document document)
      exact ⟨shown, [], quiet, course⟩
  | engine finds executes compiles named failed =>
      obtain ⟨shown, quiet, course⟩ := finds.exists_course_of_statement executes compiles named
      rw [failed] at course
      exact ⟨shown, _, quiet, course⟩

/-- The program answers: as far as the screen takes it, it ends with exit code zero and shows no
error. -/
def Answers (session : Session) (command : Command) : Prop :=
  ∃ shown calls, Quiet shown ∧ session.course command = succeed shown calls

/-- One of the four ways to end: rejected, failed, unforeseen, or with an answer. -/
inductive Ends (session : Session) (command : Command) : Prop
  | rejected {rejection : Rejection} (rejects : session.Rejects command rejection)
  | failed {title message : String} (fails : session.Fails command title message)
  | unforeseen (unforeseen : session.Unforeseen command)
  | answered (answers : session.Answers command)

/-! ### Outcomes -/

section Outcome

variable {outcome : Outcome} (performed : session.perform command = .ok outcome)

include performed

theorem Answers.exitCode (answers : session.Answers command) :
    outcome.exitCode = 0 ∧ Quiet outcome.printed := by
  obtain ⟨shown, calls, quiet, course⟩ := answers
  rw [perform, course] at performed
  obtain ⟨-, _, ending, rfl⟩ := follow_eq_ok.mp performed
  exact ⟨(Except.ok.inj ending).symm, quiet⟩

end Outcome

section Aligned

variable (aligned : ∀ statement rows, session.engine statement = .ok rows → Aligned rows)

include aligned

/-- A report that is found is rejected, or the engine fails, or its rows cannot be written, or there
is an answer. -/
theorem Finds.ends {report : Report} (finds : session.Finds command table report) :
    session.Ends command := by
  cases compiles : Schema.rewards.compile table report with
  | error fault =>
      have refused := (Schema.compile_eq_error_iff Schema.rewards_accepted
        Schema.rewards_names).mp compiles
      rcases report.faultsIn_check _ _ fault refused with ⟨rejection, rfl⟩ | ⟨-, long⟩
      · exact .rejected (.rule finds refused)
      · exact absurd long (Report.not_hasLongPart finds.isShort)
  | ok compiled =>
      cases executes : command.executes with
      | false =>
          obtain ⟨shown, quiet, course⟩ := finds.exists_course
          simp only [compiles, executes, Bool.false_eq_true, ↓reduceIte] at course
          exact .answered ⟨shown, [], quiet, course⟩
      | true =>
          obtain ⟨statement, named⟩ := exists_statement compiles
          cases answer : session.engine statement with
          | error message => exact .failed (.engine finds executes compiles named answer)
          | ok rows =>
              rcases (aligned statement rows answer).showRows_cases with
                ⟨-, items, shows, quietItems⟩ | ⟨illegible, -⟩
              · obtain ⟨shown, quiet, course⟩ :=
                  finds.exists_course_of_statement executes compiles named
                simp only [answer, shows] at course
                exact .answered ⟨_, _, quiet.append quietItems, course⟩
              · exact .unforeseen (.cells finds executes compiles named answer illegible)

/-- A command on a report file ends in one of the four ways. -/
theorem ends_of_names {path : Option String} (names : command.Names table path) :
    session.Ends command := by
  cases path with
  | none => exact .unforeseen (.noPath names)
  | some path =>
      by_cases null : Char.ofNat 0 ∈ path.toList
      · exact .unforeseen (.null names null)
      · cases read : session.files.read path with
        | error fault => exact .failed (.file names null read)
        | ok text =>
            have holds : session.Holds command table text := ⟨path, names, null, read⟩
            cases json : readStoredText session.depth text with
            | error error =>
                cases error with
                | malformed fault => exact .failed (.json holds json)
                | beyondLimits excess => exact .unforeseen (.file holds json)
            | ok config =>
                cases shape : Report.read config with
                | faulty faults => exact .rejected (.file holds json shape)
                | valid report => exact (Finds.file holds json shape).ends aligned

/-- So does a command on a stored report. -/
theorem ends_of_id (id : Int) : session.Ends (.runStored id) := by
  cases word : isWord id with
  | false => exact .unforeseen (.id word)
  | true =>
      cases found : session.reports.row? id with
      | none => exact .failed (.missing word found)
      | some row =>
          have stores : session.Stores id row := ⟨word, found⟩
          cases document : Report.ofDocument session.depth (.text row.document) with
          | ok report =>
              by_cases sound : row.Sound
              · exact (Finds.stored stores document sound).ends aligned
              · exact .unforeseen (.row stores document sound)
          | error fault =>
              cases fault with
              | notJson fault => exact .failed (.notJson stores document)
              | notObject kind => exact .failed (.notObject stores document)
              | malformed faults => exact .rejected (.stored stores document)
              | beyondLimits excess => exact .unforeseen (.document stores document)

/-- Every command ends in one of the four ways. -/
theorem ends (command : Command) : session.Ends command := by
  cases command with
  | fields table =>
      cases reportable : Schema.rewards.isReportable table with
      | false => exact .rejected (.fields reportable)
      | true =>
          obtain ⟨available, course⟩ := exists_course_fields reportable
          exact .answered ⟨_, _, quiet_single rfl, course⟩
  | compile table path => exact ends_of_names aligned .compile
  | run table path => exact ends_of_names aligned .run
  | runStored id => exact ends_of_id aligned id

end Aligned

end Session

end Reporting.CommandLine
