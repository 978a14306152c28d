import Reporting.Proofs.Report.Noninterference
import Reporting.Proofs.Report.Reading

/-!
# Reports that are the same compile alike

Filters whose values are the same have tests that are the same (`Filter.Same.exists_test`), and all
else in a statement comes from parts that are equal, so a report that is the same as one that
compiles compiles to the same text, with values that are the same (`Report.Same.exists_compile`).
-/

namespace Reporting

open Sql

/-- Scalars that are equal, doubles of one text included. -/
inductive Scalar.Same : Scalar → Scalar → Prop
  | refl (s : Scalar) : Same s s
  | float {x y : Double} (texts : x.text = y.text) : Same (.float x) (.float y)

/-- Scalars that are the same can both be written, or neither. -/
theorem Scalar.Same.isShort {s t : Scalar} (same : s.Same t) : s.isShort = t.isShort := by
  cases same with
  | refl => rfl
  | float texts => rfl

/-- Scalars that are the same have one text. -/
theorem Scalar.Same.plain {s t : Scalar} (same : s.Same t) : s.plain = t.plain := by
  cases same with
  | refl => rfl
  | float texts => exact texts

namespace Value

/-- What is the same as a scalar is one. -/
theorem exists_scalar_of_same {s : Scalar} {value : Value} (same : Value.Same (.scalar s) value) :
    ∃ t, value = .scalar t ∧ s.Same t := by
  cases same with
  | scalar => exact ⟨s, rfl, .refl s⟩
  | float texts => exact ⟨_, rfl, .float texts⟩

/-- What is the same as a list of scalars is one. -/
theorem exists_scalars_of_same {scalars : List Scalar} {values : List Value}
    (same : List.Forall₂ Value.Same (scalars.map .scalar) values) :
    ∃ others : List Scalar,
      values = others.map .scalar ∧ List.Forall₂ Scalar.Same scalars others := by
  induction scalars generalizing values with
  | nil =>
      cases same
      exact ⟨[], rfl, .nil⟩
  | cons s scalars ih =>
      cases same with
      | cons first behind =>
          obtain ⟨t, rfl, head⟩ := exists_scalar_of_same first
          obtain ⟨others, rfl, tail⟩ := ih behind
          exact ⟨t :: others, rfl, .cons head tail⟩

end Value

namespace Filter

variable {f g : Filter}

/-- A list of scalars that is not empty gives them to a membership test. -/
theorem memberValues_of_list {items : List Scalar} (listed : items ≠ [])
    (value : f.value = .list (items.map .scalar)) : f.memberValues = .ok items := by
  obtain ⟨item, rest, rfl⟩ := List.exists_cons_of_ne_nil listed
  rw [memberValues, value, List.map_cons]
  dsimp only
  rw [← List.map_cons, Value.scalars?_map]

theorem memberValues_ne_nil {items : List Scalar} (found : f.memberValues = .ok items) :
    items ≠ [] := by
  unfold memberValues at found
  split at found
  next => cases found
  next values listed given =>
    split at found
    next scalars known =>
      cases found
      intro none
      have value := Value.scalars?_eq_some known
      rw [none] at value
      exact listed value
    next => cases found
  next => cases found

/-- Filters that are the same have tests that bind the same values. -/
theorem Same.exists_test (same : f.Same g) {test : Test} (found : f.test = .ok test) :
    ∃ other, g.test = .ok other ∧ List.Forall₂ Scalar.Same test.values other.values := by
  obtain ⟨-, operator, sameValue⟩ := same
  have alone {item : Scalar} (single : f.value = .scalar item) :
      ∃ other : Scalar, g.value = .scalar other ∧ item.Same other := by
    rw [single] at sameValue
    exact Value.exists_scalar_of_same sameValue
  unfold Filter.test at found ⊢
  rw [← operator]
  split at found
  next => cases found
  next wanted known =>
    cases found
    refine ⟨_, rfl, ?_⟩
    cases wanted <;> exact .nil
  next wanted known =>
    obtain ⟨items, listed, rfl⟩ := Outcome.map_eq_ok.mp found
    rw [BuildFault.lift_eq_ok] at listed
    rw [memberValues_eq_ok listed] at sameValue
    cases value : g.value with
    | list values =>
        rw [value, Value.same_list_iff] at sameValue
        obtain ⟨others, rfl, alike⟩ := Value.exists_scalars_of_same sameValue
        have nonempty : others ≠ [] := by
          rintro rfl
          exact memberValues_ne_nil listed (List.forall₂_nil_right_iff.mp alike)
        rw [memberValues_of_list nonempty value]
        refine ⟨_, rfl, ?_⟩
        cases wanted <;> exact alike
    | _ =>
        rw [value] at sameValue
        cases sameValue
  next known =>
    obtain ⟨text, made, rfl⟩ := Outcome.map_eq_ok.mp found
    obtain ⟨item, single, short, rfl⟩ := pattern_eq_ok.mp made
    obtain ⟨other, singleToo, alike⟩ := alone single
    rw [pattern_eq_ok.mpr ⟨other, singleToo, alike.isShort ▸ short, rfl⟩]
    exact ⟨_, rfl, .cons (alike.plain ▸ .refl _) .nil⟩
  next comparison known =>
    obtain ⟨item, single, rfl⟩ := Outcome.map_eq_ok.mp found
    rw [BuildFault.lift_eq_ok, singleValue_eq_ok] at single
    obtain ⟨other, singleToo, alike⟩ := alone single
    rw [singleValue_eq_ok.mpr singleToo]
    exact ⟨_, rfl, .cons alike .nil⟩

/-- Filters that are the same are alike. -/
theorem Same.alike (same : f.Same g) : f.Alike g where
  field := same.field
  operator := same.operator
  items := by
    intro _ items others value valueToo
    have sameValue := same.value
    rw [value, valueToo, Value.same_list_iff] at sameValue
    exact sameValue.length_eq

end Filter

/-- Reports that are the same are alike. -/
theorem Report.Same.alike {report other : Report} (same : report.Same other) :
    report.Alike other where
  dimensions := same.dimensions
  metrics := same.metrics
  sort := same.sort
  filters := same.filters.imp fun _ _ => Filter.Same.alike
  bounded := by rw [isBounded, isBounded, same.limit]

/-- Statements of one text whose values are the same. -/
structure CompiledQuery.Same (compiled other : CompiledQuery) : Prop where
  sql : compiled.sql = other.sql
  params : List.Forall₂ Scalar.Same compiled.params other.params

namespace Report.Same

variable {schema : Schema} {table : String} {report other : Report} (same : report.Same other)

include same

theorem outputs : report.outputs = other.outputs := by
  rw [Report.outputs, Report.outputs, same.dimensions, same.metrics]

theorem labels : report.labels = other.labels := by
  rw [Report.labels, Report.labels, same.dimensions, same.metrics]

/-- The rules do not tell reports apart that are the same. -/
theorem obeys (obeys : report.Obeys schema table) : other.Obeys schema table where
  source := obeys.source
  shown := by
    rw [← same.dimensions, ← same.metrics]
    exact obeys.shown
  grouped := by
    rw [← same.dimensions, ← same.metrics]
    exact obeys.grouped
  fields := by
    rw [← same.alike.referencedFields]
    exact obeys.fields
  metrics := by
    rw [← same.metrics]
    exact obeys.metrics
  sort := by
    rw [← same.sort]
    simp only [← same.alike.sortTarget?]
    exact obeys.sort
  bounded := by
    rw [← same.sort, ← same.alike.bounded]
    simp only [← same.alike.sortTarget?]
    exact obeys.bounded
  limit := by
    rw [← same.limit]
    exact obeys.limit
  filters := by
    intro g member
    obtain ⟨f, inside, alike⟩ := Outcome.exists_of_mem_right same.filters member
    obtain ⟨test, found⟩ := obeys.filters f inside
    obtain ⟨found, passes, -⟩ := alike.exists_test found
    exact ⟨found, passes⟩
  labels := by
    rw [← same.labels]
    exact obeys.labels
  outputs := by
    rw [← same.outputs]
    exact obeys.outputs

end Report.Same

/-- Conditions of one text that bind the same values. -/
def Sql.Condition.Same (condition other : Condition) : Prop :=
  condition.text = other.text ∧ List.Forall₂ Scalar.Same condition.test.values other.test.values

/-- Filters that are the same give conditions that are. -/
theorem ReportSources.exists_condition_of_same {sources : ReportSources} {f g : Filter}
    {condition : Condition} (same : f.Same g) (built : sources.condition f = .ok condition) :
    ∃ other, sources.condition g = .ok other ∧ condition.Same other := by
  obtain ⟨column, found⟩ := condition_eq_ok.mp built
  obtain ⟨test, foundToo, values⟩ := same.exists_test found
  refine ⟨⟨condition.column, test⟩, condition_eq_ok.mpr ⟨same.field ▸ column, foundToo⟩, ?_, values⟩
  exact (same.alike.text found foundToo condition.column).1

/-- So do several of them. -/
theorem ReportSources.exists_conditions_of_same {sources : ReportSources}
    {filters others : List Filter} {conditions : List Condition}
    (same : List.Forall₂ Filter.Same filters others)
    (built : List.Forall₂ (fun f c => sources.condition f = .ok c) filters conditions) :
    ∃ found, List.Forall₂ (fun f c => sources.condition f = .ok c) others found ∧
      List.Forall₂ Condition.Same conditions found := by
  induction same generalizing conditions with
  | nil =>
      cases built
      exact ⟨[], .nil, .nil⟩
  | cons first _ ih =>
      cases built with
      | cons head tail =>
          obtain ⟨condition, builtToo, alike⟩ := exists_condition_of_same first head
          obtain ⟨found, behind, each⟩ := ih tail
          exact ⟨condition :: found, .cons builtToo behind, .cons alike each⟩

/-- Reports that are the same have the same clauses but for the conditions. -/
theorem Report.Same.clauses {sources : ReportSources} {report other : Report} {query : Query}
    {conditions : List Condition} (same : report.Same other)
    (clauses : sources.Clauses report query)
    (built : List.Forall₂ (fun f c => sources.condition f = .ok c) other.filters conditions) :
    sources.Clauses other { query with conditions } where
  selections := by
    rw [← same.dimensions, ← same.metrics]
    exact clauses.selections
  source := clauses.source
  conditions := built
  grouping := by
    rw [← same.dimensions]
    exact clauses.grouping
  order := by
    have order := clauses.order
    simp only [ReportSources.groupedKey] at order ⊢
    rw [← same.sort]
    simp only [← same.alike.sortTarget?]
    exact order
  limit := by
    rw [← same.limit]
    exact clauses.limit

theorem Scalar.forall₂_same (scalars : List Scalar) : List.Forall₂ Same scalars scalars :=
  List.forall₂_same.mpr fun s _ => .refl s

/-- What conditions bind, one after the other. -/
theorem Sql.flatMap_values_same {conditions others : List Condition}
    (same : List.Forall₂ Condition.Same conditions others) :
    List.Forall₂ Scalar.Same (conditions.flatMap (·.test.values))
      (others.flatMap (·.test.values)) := by
  induction same with
  | nil => exact .nil
  | cons first _ ih =>
      rw [List.flatMap_cons, List.flatMap_cons]
      exact List.rel_append first.2 ih

/-- A report that is the same as one that compiles compiles to the same text and values. -/
theorem Report.Same.exists_compile {schema : Schema} {table : String} {report other : Report}
    (same : report.Same other) {compiled : CompiledQuery}
    (compiles : schema.compile table report = .ok compiled) :
    ∃ found, schema.compile table other = .ok found ∧ compiled.Same found := by
  obtain ⟨obeys, plan, sources, query, planned, prepared, clauses, rfl⟩ :=
    Schema.compile_eq_ok.mp compiles
  obtain ⟨conditions, built, alike⟩ :=
    ReportSources.exists_conditions_of_same same.filters clauses.conditions
  have clausesToo : sources.Clauses other { query with conditions } := same.clauses clauses built
  refine ⟨.ofQuery { query with conditions }, Schema.compile_eq_ok.mpr ⟨same.obeys obeys, plan,
    sources, _, ?_, prepared, clausesToo, rfl⟩, ?_, ?_⟩
  · rw [← same.alike.referencedFields]
    exact planned
  · have texts : query.conditions.map Condition.text = conditions.map Condition.text := by
      rw [← List.forall₂_eq_eq_eq, List.forall₂_map_left_iff, List.forall₂_map_right_iff]
      exact alike.imp fun _ _ both => both.1
    change query.sql = Query.sql { query with conditions }
    rw [Query.sql, Query.sql, Query.rawText, Query.rawText, texts]
  · exact List.rel_append (flatMap_values_same alike) (Scalar.forall₂_same _)

end Reporting
