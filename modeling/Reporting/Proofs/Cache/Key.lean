import Reporting.Cache.Key
import Reporting.Proofs.Json.Canonical
import Reporting.Proofs.Json.Documents
import Reporting.Proofs.Report.Same
import Reporting.Proofs.Report.Short
import Reporting.Schema.Rewards

/-!
# Cache keys identify reports

Two reports that are read from JSON texts have one key iff they are of one table and the same as
written, that is, with null for every double that is not finite (`cacheKey_eq_iff`). So keys
identify the reports whose numbers are finite, and no result of such a report is found for one that
compiles to another statement. With a double that is not finite this fails (`cacheKey_of_nan`).
-/

namespace Reporting

/-- A report has a key as long as no value of its filters is nested too deep and its integers can be
written. -/
theorem cacheKey_eq_ok {table : String} {report : Report} {key : String} :
    cacheKey table report = .ok key ↔
      ((∀ f ∈ report.filters, f.value.depth ≤ keyDepthLimit) ∧ report.toValue.isShort = true) ∧
        Json.canonical (report.keyValue table) = key := by
  have deep : (report.filters.any fun f => keyDepthLimit < f.value.depth) = true ↔
      ¬ ∀ f ∈ report.filters, f.value.depth ≤ keyDepthLimit := by
    simp only [List.any_eq_true, decide_eq_true_iff, not_forall, not_le, exists_prop]
  rw [cacheKey]
  split
  next tooDeep => exact ⟨nofun, fun same => absurd same.1.1 (deep.mp tooDeep)⟩
  next shallow =>
    rw [deep, not_not] at shallow
    split
    next long =>
      rw [Bool.not_eq_true'] at long
      exact ⟨nofun, fun same => absurd same.1.2 (long ▸ Bool.false_ne_true)⟩
    next short =>
      rw [Bool.not_eq_true, Bool.not_eq_false'] at short
      exact ⟨fun same => ⟨⟨shallow, short⟩, Except.ok.inj same⟩, fun same => congrArg _ same.2⟩

namespace Report

variable {table tableToo : String} {report other : Report}

/-- What a key is made of is a document where the values of the filters are. -/
theorem isDocument_keyValue (documents : ∀ f ∈ report.filters, f.value.IsDocument) :
    (report.keyValue table).IsDocument :=
  Value.isDocument_of_values (by simp) ⟨.text table, report.isDocument_toValue documents⟩

/-- Writing null for the doubles that are not finite reaches the report alone. -/
theorem asWritten_keyValue :
    (report.keyValue table).asWritten = report.asWritten.keyValue table := by
  rw [keyValue, keyValue, ← asWritten_toValue]
  rfl

/-- What keys are made of is the same iff the tables and the reports are. -/
theorem same_keyValue_iff :
    (report.keyValue table).Same (other.keyValue tableToo) ↔
      table = tableToo ∧ report.Same other := by
  refine (Value.same_object_iff (by rfl) (by simp)).trans ?_
  simp only [List.map_cons, List.map_nil, List.forall₂_cons, Value.same_text_iff,
    same_toValue_iff, List.Forall₂.nil, and_true]

/-- The texts that keys are made of are equal iff the tables are and the reports are the same as
written. -/
theorem canonical_keyValue_iff (documents : ∀ f ∈ report.filters, f.value.IsDocument)
    (documentsToo : ∀ f ∈ other.filters, f.value.IsDocument) :
    Json.canonical (report.keyValue table) = Json.canonical (other.keyValue tableToo) ↔
      table = tableToo ∧ report.asWritten.Same other.asWritten := by
  rw [Json.canonical_eq_iff (isDocument_keyValue documents) (isDocument_keyValue documentsToo),
    asWritten_keyValue, asWritten_keyValue, same_keyValue_iff]

end Report

/-- Reports read from JSON texts have keys as far as their values are not nested too deep and their
integers can be written, as they can where no longer integers are read. Their keys are equal iff the
tables are and the reports are the same as written. Where all their numbers are finite, the keys are
equal iff the tables are and the reports are the same, and then the reports compile to the same
statement over every schema, or none does. -/
theorem cacheKey_eq_iff {limits limitsToo : Option Json.Limits} {text textToo : String}
    {document documentToo : Value} {report other : Report}
    (decoded : Json.read limits text = .ok document)
    (decodedToo : Json.read limitsToo textToo = .ok documentToo)
    (parsed : Report.read document = .valid report)
    (parsedToo : Report.read documentToo = .valid other) (table tableToo : String) :
    ((∃ key, cacheKey table report = .ok key) ↔
        (∀ f ∈ report.filters, f.value.depth ≤ keyDepthLimit) ∧ report.toValue.isShort = true) ∧
      (∀ bounds, limits = some bounds → bounds.digits ≤ digitLimit →
        report.toValue.isShort = true) ∧
      ∀ key keyToo, cacheKey table report = .ok key → cacheKey tableToo other = .ok keyToo →
        (key = keyToo ↔ table = tableToo ∧ report.asWritten.Same other.asWritten) ∧
        (report.IsFinite → other.IsFinite →
          (key = keyToo ↔ table = tableToo ∧ report.Same other) ∧
          (key = keyToo → ∀ schema : Schema, ∀ compiled,
            schema.compile table report = .ok compiled →
              ∃ found, schema.compile tableToo other = .ok found ∧ compiled.Same found)) := by
  have documents := Report.isDocument_of_read (Json.isDocument_of_read decoded) parsed
  have documentsToo := Report.isDocument_of_read (Json.isDocument_of_read decodedToo) parsedToo
  refine ⟨?_, ?_, ?_⟩
  · simp only [cacheKey_eq_ok, exists_and_left, exists_eq', and_true]
  · rintro bounds rfl few
    exact Report.isShort_of_read (Json.isShort_of_read few decoded) parsed
  · intro key keyToo found foundToo
    obtain ⟨-, rfl⟩ := cacheKey_eq_ok.mp found
    obtain ⟨-, rfl⟩ := cacheKey_eq_ok.mp foundToo
    have written :
        Json.canonical (report.keyValue table) = Json.canonical (other.keyValue tableToo) ↔
          table = tableToo ∧ report.asWritten.Same other.asWritten :=
      Report.canonical_keyValue_iff documents documentsToo
    refine ⟨written, ?_⟩
    intro finite finiteToo
    rw [Report.asWritten_of_isFinite finite, Report.asWritten_of_isFinite finiteToo] at written
    refine ⟨written, ?_⟩
    intro same schema compiled compiles
    obtain ⟨rfl, alike⟩ := written.mp same
    exact alike.exists_compile compiles

/-- What is computed from the report of a JSON text, if the text has one. -/
def Report.ofJson? {α : Type} (text : String) (compute : Report → Option α) : Option α :=
  (Json.read none text).toOption.bind fun document =>
    (Report.read document).toExcept.toOption.bind compute

/-- What is computed comes from a report that was read from the text. -/
theorem Report.exists_of_ofJson? {α : Type} {text : String} {compute : Report → Option α}
    {result : α} (found : ofJson? text compute = some result) :
    ∃ document report, Json.read none text = .ok document ∧ Report.read document = .valid report ∧
      compute report = some result := by
  obtain ⟨document, decoded, parsed⟩ := Option.bind_eq_some_iff.mp found
  obtain ⟨report, parsed, computed⟩ := Option.bind_eq_some_iff.mp parsed
  refine ⟨document, report, Outcome.toOption_eq_some.mp decoded, ?_, computed⟩
  have parsed := Outcome.toOption_eq_some.mp parsed
  cases read : Report.read document with
  | valid other =>
      rw [read] at parsed
      exact congrArg Checked.valid (Except.ok.inj parsed)
  | faulty faults =>
      rw [read] at parsed
      cases parsed

/-- The JSON text of a report on the ids with one filter, of an operator and the text of a value. -/
def Report.jsonOfFilter (operator value : String) : String :=
  "\x7b\"dimensions\":[\x7b\"field\":\"id\"\x7d]," ++
    "\"filters\":[\x7b\"field\":\"id\",\"operator\":\"" ++ operator ++ "\",\"value\":" ++ value ++
    "\x7d]\x7d"

/-- The key of a report on orders, if the report's numbers are finite. -/
def Report.finiteKey? (report : Report) : Option String :=
  if report.IsFinite then (cacheKey "orders" report).toOption else none

theorem Report.finiteKey?_eq_some {report : Report} {key : String}
    (found : report.finiteKey? = some key) :
    report.IsFinite ∧ cacheKey "orders" report = .ok key := by
  rw [finiteKey?] at found
  split at found
  next finite => exact ⟨finite, Outcome.toOption_eq_some.mp found⟩
  next => cases found

/-- The order of members and the spelling of a keyword make no difference to a key. -/
theorem cacheKey_of_reordered :
    ∃ document documentToo report other key,
      Json.read none (Report.jsonOfFilter " In " "\x7b\"a\":1,\"b\":[1.5]\x7d") = .ok document ∧
      Json.read none (Report.jsonOfFilter "IN" "\x7b\"b\":[1.5],\"a\":1\x7d") = .ok documentToo ∧
      Report.read document = .valid report ∧ Report.read documentToo = .valid other ∧
      cacheKey "orders" report = .ok key ∧ cacheKey "orders" other = .ok key ∧
      report.Same other := by
  obtain ⟨key, found, foundToo⟩ : ∃ key,
      Report.ofJson? (Report.jsonOfFilter " In " "\x7b\"a\":1,\"b\":[1.5]\x7d") Report.finiteKey? =
        some key ∧
      Report.ofJson? (Report.jsonOfFilter "IN" "\x7b\"b\":[1.5],\"a\":1\x7d") Report.finiteKey? =
        some key := by
    refine ⟨"\x7b\"config\":\x7b\"dimensions\":[\x7b\"alias\":null,\"field\":\"id\"\x7d]," ++
      "\"filters\":[\x7b\"field\":\"id\",\"operator\":\"IN\"," ++
      "\"value\":\x7b\"a\":1,\"b\":[1.5]\x7d\x7d]," ++
      "\"limit\":null,\"metrics\":[],\"sort\":[]\x7d,\"table\":\"orders\"\x7d", ?_, ?_⟩
    all_goals decide +kernel
  obtain ⟨document, report, decoded, parsed, keyed⟩ := Report.exists_of_ofJson? found
  obtain ⟨documentToo, other, decodedToo, parsedToo, keyedToo⟩ := Report.exists_of_ofJson? foundToo
  obtain ⟨finite, keyed⟩ := Report.finiteKey?_eq_some keyed
  obtain ⟨finiteToo, keyedToo⟩ := Report.finiteKey?_eq_some keyedToo
  have keys := (cacheKey_eq_iff decoded decodedToo parsed parsedToo "orders" "orders").2.2 key key
    keyed keyedToo
  exact ⟨document, documentToo, report, other, key, decoded, decodedToo, parsed, parsedToo, keyed,
    keyedToo, ((keys.2 finite finiteToo).1.mp rfl).2⟩

/-- The key of a report on orders with the texts of what it binds, if it compiles. -/
def Report.keyAndBinds? (report : Report) : Option (String × List String) :=
  (cacheKey "orders" report).toOption.bind fun key =>
    (Schema.rewards.compile "orders" report).toOption.map fun compiled =>
      (key, compiled.params.map Scalar.plain)

/-- A key with its values is that of a report that compiles to them. -/
theorem Report.exists_of_keyAndBinds? {report : Report} {key : String} {binds : List String}
    (found : report.keyAndBinds? = some (key, binds)) :
    cacheKey "orders" report = .ok key ∧
      ∃ compiled, Schema.rewards.compile "orders" report = .ok compiled ∧
        compiled.params.map Scalar.plain = binds := by
  obtain ⟨key, keyed, found⟩ := Option.bind_eq_some_iff.mp found
  obtain ⟨compiled, compiles, same⟩ := Option.map_eq_some_iff.mp found
  obtain ⟨rfl, rfl⟩ := Prod.mk.inj same
  exact ⟨Outcome.toOption_eq_some.mp keyed, compiled, Outcome.toOption_eq_some.mp compiles, rfl⟩

/-- Statements that are the same bind values of the same texts. -/
theorem CompiledQuery.Same.plain {compiled other : CompiledQuery} (same : compiled.Same other) :
    compiled.params.map Scalar.plain = other.params.map Scalar.plain :=
  Value.map_eq_of_forall₂ same.params fun _ _ _ _ => Scalar.Same.plain

/-- A double that is not finite is null in a key, so a key can belong to two reports that compile to
different statements. -/
theorem cacheKey_of_nan :
    ∃ document documentToo report other key compiled compiledToo,
      Json.read none (Report.jsonOfFilter "=" "NaN") = .ok document ∧
      Json.read none (Report.jsonOfFilter "=" "Infinity") = .ok documentToo ∧
      Report.read document = .valid report ∧ Report.read documentToo = .valid other ∧
      cacheKey "orders" report = .ok key ∧ cacheKey "orders" other = .ok key ∧
      Schema.rewards.compile "orders" report = .ok compiled ∧
      Schema.rewards.compile "orders" other = .ok compiledToo ∧
      ¬ report.Same other ∧ ¬ compiled.Same compiledToo := by
  obtain ⟨key, found, foundToo⟩ : ∃ key,
      Report.ofJson? (Report.jsonOfFilter "=" "NaN") Report.keyAndBinds? = some (key, ["nan"]) ∧
      Report.ofJson? (Report.jsonOfFilter "=" "Infinity") Report.keyAndBinds? =
        some (key, ["inf"]) := by
    refine ⟨"\x7b\"config\":\x7b\"dimensions\":[\x7b\"alias\":null,\"field\":\"id\"\x7d]," ++
      "\"filters\":[\x7b\"field\":\"id\",\"operator\":\"=\",\"value\":null\x7d]," ++
      "\"limit\":null,\"metrics\":[],\"sort\":[]\x7d,\"table\":\"orders\"\x7d", ?_, ?_⟩
    all_goals
      unfold Report.keyAndBinds?
      simp only [Schema.compile, Schema.buildQuery, Report.check, Report.checkFields,
        Schema.planJoins, Schema.sortedKeys_eq_insertionSort]
      decide +kernel
  obtain ⟨document, report, decoded, parsed, found⟩ := Report.exists_of_ofJson? found
  obtain ⟨documentToo, other, decodedToo, parsedToo, foundToo⟩ := Report.exists_of_ofJson? foundToo
  obtain ⟨keyed, compiled, compiles, binds⟩ := Report.exists_of_keyAndBinds? found
  obtain ⟨keyedToo, compiledToo, compilesToo, bindsToo⟩ := Report.exists_of_keyAndBinds? foundToo
  have apart : ¬ compiled.Same compiledToo := by
    intro same
    have plain := same.plain
    rw [binds, bindsToo] at plain
    exact absurd plain (by decide)
  refine ⟨document, documentToo, report, other, key, compiled, compiledToo, decoded, decodedToo,
    parsed, parsedToo, keyed, keyedToo, compiles, compilesToo, ?_, apart⟩
  intro same
  obtain ⟨built, compilesSame, alike⟩ := same.exists_compile compiles
  rw [compilesToo] at compilesSame
  rw [← Except.ok.inj compilesSame] at alike
  exact apart alike

end Reporting
