import Mathlib.Data.List.Basic
import Reporting.Execution
import Reporting.Proofs.Report.Compile

/-!
# What reaches the runner

A request to execute a report submits it, its own or a stored one, to be compiled
(`Schema.Submits`). The runner is handed the statement where it compiles and nothing otherwise, and
the reply is the runner's answer or the reason why it was not asked (`Schema.Answers`). One request
is described by `serve_answers`, a sequence of them by `serveAll_trace`: a reply hangs on its own
request alone, and no statement reaches the runner but those of reports that pass the check.
-/

namespace Reporting

namespace Schema

variable {ε σ : Type}

/-- A request, what compiling its report gives, and the answer that the runner has for it. -/
inductive Submits (schema : Schema) (store? : Option (Int → Except σ (Option StoredReport))) :
    Request ε → Except BuildFault CompiledQuery → Except ε (List Row) → Prop
  | own {table : String} {config : Value} {answer : Except ε (List Row)}
      {outcome : Except BuildFault CompiledQuery}
      (compiled : schema.compileValue table config = outcome) :
      Submits schema store? (.execute table config answer) outcome answer
  | stored {get : Int → Except σ (Option StoredReport)} {id : Int} {stored : StoredReport}
      {answer : Except ε (List Row)} {outcome : Except BuildFault CompiledQuery}
      (store : store? = some get) (found : get id = .ok (some stored))
      (compiled : schema.compile stored.sourceTable stored.report = outcome) :
      Submits schema store? (.executeStored id answer) outcome answer

/-- The reply that a request is owed. -/
inductive Answers (schema : Schema) (store? : Option (Int → Except σ (Option StoredReport))) :
    Request ε → Reply ε σ → Prop
  | previewed {table : String} {config : Value} :
      Answers schema store? (.preview table config)
        (.compiled (schema.compileValue table config))
  | returned {request : Request ε} {compiled : CompiledQuery} {rows : List Row}
      (submits : Submits schema store? request (.ok compiled) (.ok rows)) :
      Answers schema store? request (.rows (.ok rows))
  | failed {request : Request ε} {compiled : CompiledQuery} {failure : ε}
      (submits : Submits schema store? request (.ok compiled) (.error failure)) :
      Answers schema store? request (.rows (.error (.runner failure)))
  | refused {request : Request ε} {fault : BuildFault} {answer : Except ε (List Row)}
      (submits : Submits schema store? request (.error fault) answer) :
      Answers schema store? request (.rows (.error (.build fault)))
  | missing {get : Int → Except σ (Option StoredReport)} {id : Int}
      {answer : Except ε (List Row)} (store : store? = some get) (found : get id = .ok none)
      (short : isShortInteger id = true) :
      Answers schema store? (.executeStored id answer) (.rows (.error (.notFound id)))
  | unwritten {get : Int → Except σ (Option StoredReport)} {id : Int}
      {answer : Except ε (List Row)} (store : store? = some get) (found : get id = .ok none)
      (long : isShortInteger id = false) :
      Answers schema store? (.executeStored id answer) (.rows (.error .longInteger))
  | unreadable {get : Int → Except σ (Option StoredReport)} {id : Int} {fault : σ}
      {answer : Except ε (List Row)} (store : store? = some get) (found : get id = .error fault) :
      Answers schema store? (.executeStored id answer) (.rows (.error (.store fault)))
  | noStore {id : Int} {answer : Except ε (List Row)} (store : store? = none) :
      Answers schema store? (.executeStored id answer) (.rows (.error .noStore))

/-- The statement that a request brings to the runner, if any. -/
def statement? (schema : Schema) (store? : Option (Int → Except σ (Option StoredReport))) :
    Request ε → Option CompiledQuery
  | .preview _ _ => none
  | .execute table config _ => (schema.compileValue table config).toOption
  | .executeStored id _ => do
    let get ← store?
    let stored ← (get id).toOption.join
    (schema.compile stored.sourceTable stored.report).toOption

variable {schema : Schema} {store? : Option (Int → Except σ (Option StoredReport))}
  {request : Request ε}

/-- What a request submits is handed over where it compiles. -/
theorem statement?_of_submits {outcome : Except BuildFault CompiledQuery}
    {answer : Except ε (List Row)} (submits : schema.Submits store? request outcome answer) :
    schema.statement? store? request = outcome.toOption := by
  cases submits with
  | own compiled => rw [statement?, compiled]
  | @stored get id stored answer outcome store found compiled =>
      rw [statement?, store, Option.bind_eq_bind, Option.bind_some, found]
      change (schema.compile stored.sourceTable stored.report).toOption = _
      rw [compiled]

/-- A preview compiles and hands no statement over. -/
theorem preview_eq (schema : Schema) (table : String) (config : Value) :
    (schema.preview table config).outcome = schema.compileValue table config ∧
      (schema.preview table config).calls = [] := by
  rw [preview]
  cases schema.compileValue table config <;> exact ⟨rfl, rfl⟩

/-- What is submitted is run, wherever it comes from. -/
theorem serve_of_submits {outcome : Except BuildFault CompiledQuery}
    {answer : Except ε (List Row)} (submits : schema.Submits store? request outcome answer) :
    ∃ table, (schema.serve store? request).outcome =
        .rows (runCompiled (fun _ => answer) table outcome).outcome ∧
      (schema.serve store? request).calls =
        (runCompiled (fun _ => answer) table outcome :
          Execution (Except (ExecutionFault ε σ) (List Row))).calls := by
  cases submits with
  | @own table config answer outcome compiled =>
      rw [serve, execute, compiled]
      exact ⟨table, rfl, rfl⟩
  | @stored get id stored answer outcome store found compiled =>
      rw [serve, executeStored.eq_def, store]
      simp only [found, compiled]
      exact ⟨stored.sourceTable, rfl, rfl⟩

/-- A request that submits nothing has its reply and brings nothing to the runner. -/
theorem serve_of_not_submits
    (nothing : ∀ outcome answer, ¬ schema.Submits store? request outcome answer) :
    (schema.serve store? request).calls = [] ∧ schema.statement? store? request = none ∧
      schema.Answers store? request (schema.serve store? request).outcome := by
  cases request with
  | preview table config =>
      obtain ⟨outcome, calls⟩ := schema.preview_eq table config
      refine ⟨calls, rfl, ?_⟩
      change schema.Answers store? _ (.compiled (schema.preview table config).outcome)
      rw [outcome]
      exact .previewed
  | execute table config answer => exact absurd (.own rfl) (nothing _ answer)
  | executeStored id answer =>
      rw [serve, executeStored.eq_def, statement?]
      cases store : store? with
      | none => exact ⟨rfl, rfl, .noStore rfl⟩
      | some get =>
          rw [Option.bind_eq_bind, Option.bind_some]
          cases found : get id with
          | error fault =>
              simp only [found]
              exact ⟨rfl, rfl, .unreadable rfl found⟩
          | ok entry =>
              cases entry with
              | none =>
                  simp only [found]
                  refine ⟨rfl, rfl, ?_⟩
                  change schema.Answers _ _ (.rows (.error (missingReport id)))
                  unfold missingReport
                  split
                  next short => exact .missing rfl found short
                  next long => exact .unwritten rfl found (by simpa using long)
              | some stored => exact absurd (.stored store found rfl) (nothing _ answer)

/-- One request: the runner is handed its statement, if it has one, and the reply is the one that it
is owed. -/
theorem serve_answers (schema : Schema)
    (store? : Option (Int → Except σ (Option StoredReport))) (request : Request ε) :
    (schema.serve store? request).calls = (schema.statement? store? request).toList ∧
      schema.Answers store? request (schema.serve store? request).outcome := by
  by_cases submitted : ∃ outcome answer, schema.Submits store? request outcome answer
  · obtain ⟨outcome, answer, submits⟩ := submitted
    obtain ⟨table, reply, calls⟩ := serve_of_submits submits
    rw [reply, calls, statement?_of_submits submits]
    cases outcome with
    | error fault => exact ⟨rfl, .refused submits⟩
    | ok compiled =>
        cases answer with
        | error failure => exact ⟨rfl, .failed submits⟩
        | ok rows => exact ⟨rfl, .returned submits⟩
  · obtain ⟨calls, none, answers⟩ := serve_of_not_submits fun outcome answer submits =>
      submitted ⟨outcome, answer, submits⟩
    rw [calls, none]
    exact ⟨rfl, answers⟩

/-- A request is owed one reply. -/
theorem Answers.outcome_eq {reply : Reply ε σ} (answers : schema.Answers store? request reply) :
    (schema.serve store? request).outcome = reply := by
  cases answers with
  | previewed => exact congrArg Reply.compiled (schema.preview_eq _ _).1
  | returned submits =>
      obtain ⟨table, reply, -⟩ := serve_of_submits submits
      exact reply
  | failed submits =>
      obtain ⟨table, reply, -⟩ := serve_of_submits submits
      exact reply
  | refused submits =>
      obtain ⟨table, reply, -⟩ := serve_of_submits submits
      exact reply
  | missing store found short =>
      rw [serve, executeStored.eq_def, store]
      simp only [found, missingReport, short, ↓reduceIte]
      rfl
  | unwritten store found long =>
      rw [serve, executeStored.eq_def, store]
      simp only [found, missingReport, long, Bool.false_eq_true, ↓reduceIte]
      rfl
  | unreadable store found =>
      rw [serve, executeStored.eq_def, store]
      simp only [found]
      rfl
  | noStore store =>
      rw [serve, executeStored.eq_def, store]
      rfl

/-- The statement of a request is that of a report that passes the check. -/
theorem exists_report_of_statement? {compiled : CompiledQuery}
    (handed : schema.statement? store? request = some compiled) :
    ∃ table report, report.check schema table = .ok () ∧
      schema.compile table report = .ok compiled := by
  have checked {table : String} {report : Report}
      (compiles : schema.compile table report = .ok compiled) :
      ∃ table report, report.check schema table = .ok () ∧
        schema.compile table report = .ok compiled := by
    obtain ⟨obeys, -⟩ := compile_eq_ok.mp compiles
    exact ⟨table, report, Report.check_eq_ok.mpr obeys, compiles⟩
  cases request with
  | preview table config => cases handed
  | execute table config answer =>
      have compiles := Outcome.toOption_eq_some.mp handed
      rw [compileValue] at compiles
      split at compiles
      · cases compiles
      · exact checked compiles
  | executeStored id answer =>
      obtain ⟨get, -, found⟩ := Option.bind_eq_some_iff.mp handed
      obtain ⟨stored, -, compiles⟩ := Option.bind_eq_some_iff.mp found
      exact checked (Outcome.toOption_eq_some.mp compiles)

/-- The statements of a sequence are those of its requests, in order. -/
theorem serveAll_calls (schema : Schema)
    (store? : Option (Int → Except σ (Option StoredReport))) (requests : List (Request ε)) :
    (schema.serveAll store? requests).calls =
      requests.filterMap (schema.statement? store?) := by
  induction requests with
  | nil => rfl
  | cons request rest ih =>
      rw [serveAll, ih, (serve_answers schema store? request).1]
      cases handed : schema.statement? store? request with
      | none => rw [List.filterMap_cons_none handed, Option.toList_none, List.nil_append]
      | some compiled =>
          rw [List.filterMap_cons_some handed, Option.toList_some, List.singleton_append]

/-- The replies of a sequence are those that each request has alone. -/
theorem serveAll_outcome (schema : Schema)
    (store? : Option (Int → Except σ (Option StoredReport))) (requests : List (Request ε)) :
    (schema.serveAll store? requests).outcome =
      requests.map fun request => (schema.serve store? request).outcome := by
  induction requests with
  | nil => rfl
  | cons request rest ih => rw [serveAll, ih, List.map_cons]

/-- A sequence of requests over any schema and any store. The runner is handed exactly the
statements of the requests whose reports compile, in order, and each belongs to a report that passes
the check. Each reply is the one that the request is owed, whatever was asked before. -/
theorem serveAll_trace (schema : Schema)
    (store? : Option (Int → Except σ (Option StoredReport))) (requests : List (Request ε)) :
    let run := schema.serveAll store? requests
    run.calls = requests.filterMap (schema.statement? store?) ∧
      (∀ compiled ∈ run.calls, ∃ table report, report.check schema table = .ok () ∧
        schema.compile table report = .ok compiled) ∧
      run.outcome = requests.map (fun request => (schema.serve store? request).outcome) ∧
      ∀ request ∈ requests, ∀ reply,
        (schema.serve store? request).outcome = reply ↔ schema.Answers store? request reply := by
  intro run
  refine ⟨serveAll_calls schema store? requests, ?_, serveAll_outcome schema store? requests, ?_⟩
  · intro compiled member
    rw [serveAll_calls] at member
    obtain ⟨request, -, handed⟩ := List.mem_filterMap.mp member
    exact exists_report_of_statement? handed
  · rintro request - reply
    constructor
    · rintro rfl
      exact (serve_answers schema store? request).2
    · exact Answers.outcome_eq

end Schema

end Reporting
