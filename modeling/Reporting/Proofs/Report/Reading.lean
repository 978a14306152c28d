import Reporting.Proofs.Outcome
import Reporting.Proofs.Shape
import Reporting.Proofs.Value.Same
import Reporting.Report.Reading

/-!
# Reports that are read

A report takes the values of its filters from the document that it is read from
(`Report.isDocument_of_read`). As a value again, a report is a document like any other, and the
values of two reports are the same iff the reports are (`Report.same_toValue_iff`).
-/

namespace Reporting

/-- A member of a document is one. -/
theorem Value.isDocument_of_lookup {members : List (String × Value)} {name : String} {value : Value}
    (document : IsDocument (.object members)) (found : members.lookup name = some value) :
    value.IsDocument := by
  obtain ⟨before, after, rfl, -⟩ := List.lookup_eq_some_iff.mp found
  exact (isDocument_object.mp document).2 (name, value)
    (List.mem_append_right _ List.mem_cons_self)

theorem Value.isDocument_of_optional {members : List (String × Value)} {name : String}
    {value : Value} (document : IsDocument (.object members))
    (read : Shape.optional name .null .valid members = .valid value) : value.IsDocument := by
  rcases Shape.optional_eq_valid.mp read with ⟨-, rfl⟩ | ⟨found, listed, same⟩
  · exact .null
  · rw [← Checked.valid.inj same]
    exact isDocument_of_lookup document listed

/-- A filter is read from an object, part by part. -/
theorem Filter.read_eq_valid {document : Value} {f : Filter} :
    Filter.read document = .valid f ↔ ∃ members, document = .object members ∧
      Shape.required "field" Shape.text members = .valid f.field ∧
      Shape.required "operator" Shape.keyword members = .valid f.operator ∧
      Shape.optional "value" .null .valid members = .valid f.value := by
  rw [Filter.read, Shape.record_eq_valid]
  refine exists_congr fun members => and_congr_right fun _ => ?_
  simp only [Checked.seq_eq_valid, Checked.map_eq_valid]
  constructor
  · rintro ⟨_, ⟨_, ⟨field, fieldRead, rfl⟩, operator, operatorRead, rfl⟩, value, valueRead, rfl⟩
    exact ⟨fieldRead, operatorRead, valueRead⟩
  · rintro ⟨fieldRead, operatorRead, valueRead⟩
    exact ⟨_, ⟨_, ⟨_, fieldRead, rfl⟩, _, operatorRead, rfl⟩, _, valueRead, rfl⟩

/-- A report is read from an object, part by part. -/
theorem Report.read_eq_valid {document : Value} {report : Report} :
    Report.read document = .valid report ↔ ∃ members, document = .object members ∧
      Shape.optional "dimensions" [] (Shape.listOrNull Dimension.read) members =
        .valid report.dimensions ∧
      Shape.optional "metrics" [] (Shape.listOrNull Metric.read) members = .valid report.metrics ∧
      Shape.optional "filters" [] (Shape.listOrNull Filter.read) members = .valid report.filters ∧
      Shape.optional "sort" [] (Shape.listOrNull SortEntry.read) members = .valid report.sort ∧
      Shape.optional "limit" none (Shape.nullable Shape.exactInteger) members =
        .valid report.limit := by
  rw [Report.read, Shape.record_eq_valid]
  refine exists_congr fun members => and_congr_right fun _ => ?_
  simp only [Checked.seq_eq_valid, Checked.map_eq_valid]
  constructor
  · rintro ⟨_, ⟨_, ⟨_, ⟨_, ⟨_, dimensions, rfl⟩, _, metrics, rfl⟩, _, filters, rfl⟩, _, sort, rfl⟩,
      _, limit, rfl⟩
    exact ⟨dimensions, metrics, filters, sort, limit⟩
  · rintro ⟨dimensions, metrics, filters, sort, limit⟩
    exact ⟨_, ⟨_, ⟨_, ⟨_, ⟨_, dimensions, rfl⟩, _, metrics, rfl⟩, _, filters, rfl⟩, _, sort, rfl⟩,
      _, limit, rfl⟩

/-- The values of a report's filters are documents where the report is read from one. -/
theorem Report.isDocument_of_read {document : Value} {report : Report}
    (isDocument : document.IsDocument) (read : Report.read document = .valid report) :
    ∀ f ∈ report.filters, f.value.IsDocument := by
  obtain ⟨members, rfl, -, -, filters, -, -⟩ := Report.read_eq_valid.mp read
  intro f member
  rcases Shape.optional_eq_valid.mp filters with ⟨-, none⟩ | ⟨listed, found, filters⟩
  · rw [← none] at member
    exact absurd member List.not_mem_nil
  · have listed := Value.isDocument_of_lookup isDocument found
    rcases Shape.listOrNull_eq_valid.mp filters with ⟨-, none⟩ | ⟨items, rfl, each⟩
    · rw [none] at member
      exact absurd member List.not_mem_nil
    · obtain ⟨item, inside, filterRead⟩ := Outcome.exists_of_mem_right each member
      have itemDocument := Value.isDocument_list.mp listed item inside
      obtain ⟨parts, rfl, -, -, valueRead⟩ := Filter.read_eq_valid.mp filterRead
      exact Value.isDocument_of_optional itemDocument valueRead

/-- Filters of one field and operator whose values are the same. -/
structure Filter.Same (f g : Filter) : Prop where
  field : f.field = g.field
  operator : f.operator = g.operator
  value : f.value.Same g.value

/-- Reports of the same structure: all is equal but the filters, whose values are the same. -/
structure Report.Same (report other : Report) : Prop where
  dimensions : report.dimensions = other.dimensions
  metrics : report.metrics = other.metrics
  filters : List.Forall₂ Filter.Same report.filters other.filters
  sort : report.sort = other.sort
  limit : report.limit = other.limit

/-- The doubles in the values of a report's filters are finite. -/
def Report.IsFinite (report : Report) : Prop := ∀ f ∈ report.filters, f.value.IsFinite

instance (report : Report) : Decidable report.IsFinite :=
  inferInstanceAs (Decidable (∀ f ∈ report.filters, f.value.IsFinite))

def Filter.asWritten (f : Filter) : Filter := { f with value := f.value.asWritten }

/-- The report with null for every double that is not finite. -/
def Report.asWritten (report : Report) : Report :=
  { report with filters := report.filters.map Filter.asWritten }

/-- A report of finite numbers is left as it is. -/
theorem Report.asWritten_of_isFinite {report : Report} (finite : report.IsFinite) :
    report.asWritten = report := by
  have filters : report.filters.map Filter.asWritten = report.filters := by
    have each : ∀ f ∈ report.filters, f.asWritten = f := by
      intro f member
      rw [Filter.asWritten, Value.asWritten_of_isFinite (finite f member)]
    rw [List.map_congr_left each, List.map_id']
  rw [Report.asWritten, filters]

section Values

open Value

theorem Dimension.same_toValue_iff {d e : Dimension} : d.toValue.Same e.toValue ↔ d = e := by
  refine (same_object_iff (by rfl) (by simp)).trans ?_
  simp only [List.map_cons, List.map_nil, List.forall₂_cons, same_text_iff,
    same_option_iff same_text_iff nofun, List.Forall₂.nil, and_true]
  cases d
  cases e
  rw [Dimension.mk.injEq]

theorem Metric.same_toValue_iff {m n : Metric} : m.toValue.Same n.toValue ↔ m = n := by
  refine (same_object_iff (by rfl) (by simp)).trans ?_
  simp only [List.map_cons, List.map_nil, List.forall₂_cons, same_text_iff,
    same_option_iff same_text_iff nofun, List.Forall₂.nil, and_true]
  cases m
  cases n
  rw [Metric.mk.injEq]

/-- The values of two filters are the same iff the filters are. -/
theorem Filter.same_toValue_iff {f g : Filter} : f.toValue.Same g.toValue ↔ f.Same g := by
  refine (same_object_iff (by rfl) (by simp)).trans ?_
  simp only [List.map_cons, List.map_nil, List.forall₂_cons, same_text_iff, List.Forall₂.nil,
    and_true]
  exact ⟨fun ⟨field, operator, value⟩ => ⟨field, operator, value⟩,
    fun same => ⟨same.field, same.operator, same.value⟩⟩

/-- Directions are told apart by their keywords. -/
theorem Direction.keyword_inj {d e : Direction} : d.keyword = e.keyword ↔ d = e := by
  constructor
  · intro same
    have read := Direction.ofKeyword?_keyword d
    rw [same, Direction.ofKeyword?_keyword] at read
    exact (Option.some.inj read).symm
  · exact congrArg keyword

theorem SortEntry.same_toValue_iff {s t : SortEntry} : s.toValue.Same t.toValue ↔ s = t := by
  refine (same_object_iff (by rfl) (by simp)).trans ?_
  simp only [List.map_cons, List.map_nil, List.forall₂_cons, same_text_iff, Direction.keyword_inj,
    List.Forall₂.nil, and_true]
  cases s
  cases t
  rw [SortEntry.mk.injEq]

/-- The values of two reports are the same iff the reports are. -/
theorem Report.same_toValue_iff {report other : Report} :
    report.toValue.Same other.toValue ↔ report.Same other := by
  refine (same_object_iff (by rfl) (by simp)).trans ?_
  simp only [List.map_cons, List.map_nil, List.forall₂_cons, same_list_iff,
    same_option_iff same_int_iff nofun, List.forall₂_map_left_iff, List.forall₂_map_right_iff,
    Dimension.same_toValue_iff, Metric.same_toValue_iff, Filter.same_toValue_iff,
    SortEntry.same_toValue_iff, List.forall₂_eq_eq_eq, List.Forall₂.nil, and_true]
  exact ⟨fun ⟨dimensions, metrics, filters, sort, limit⟩ =>
      ⟨dimensions, metrics, filters, sort, limit⟩,
    fun same => ⟨same.dimensions, same.metrics, same.filters, same.sort, same.limit⟩⟩

theorem isDocument_label (label : Option String) :
    IsDocument ((label.map Value.text).getD .null) := by
  cases label with
  | none => exact .null
  | some s => exact .text s

theorem Dimension.isDocument_toValue (d : Dimension) : d.toValue.IsDocument :=
  isDocument_of_values (by simp) ⟨.text d.field, isDocument_label d.label⟩

theorem Metric.isDocument_toValue (m : Metric) : m.toValue.IsDocument :=
  isDocument_of_values (by simp) ⟨.text m.field, .text m.operation, isDocument_label m.label⟩

theorem Filter.isDocument_toValue {f : Filter} (document : f.value.IsDocument) :
    f.toValue.IsDocument :=
  isDocument_of_values (by simp) ⟨.text f.field, .text f.operator, document⟩

theorem SortEntry.isDocument_toValue (s : SortEntry) : s.toValue.IsDocument :=
  isDocument_of_values (by simp) ⟨.text s.field, .text s.direction.keyword⟩

/-- A report whose filters have documents for values is a document itself. -/
theorem Report.isDocument_toValue {report : Report}
    (documents : ∀ f ∈ report.filters, f.value.IsDocument) : report.toValue.IsDocument := by
  have limit : IsDocument ((report.limit.map Value.int).getD .null) := by
    cases report.limit with
    | none => exact .null
    | some n => exact .int n
  refine isDocument_of_values (by simp) ⟨.list ?_, .list ?_, .list ?_, .list ?_, limit⟩
  · exact List.forall_mem_map.mpr fun d _ => d.isDocument_toValue
  · exact List.forall_mem_map.mpr fun m _ => m.isDocument_toValue
  · exact List.forall_mem_map.mpr fun f member => f.isDocument_toValue (documents f member)
  · exact List.forall_mem_map.mpr fun s _ => s.isDocument_toValue

/-- Writing null for the doubles that are not finite leaves all but the values of filters. -/
theorem Report.asWritten_toValue (report : Report) :
    report.toValue.asWritten = report.asWritten.toValue := by
  have label (label : Option String) : Value.asWritten ((label.map Value.text).getD .null) =
      (label.map Value.text).getD .null := by
    cases label <;> rfl
  have limit : Value.asWritten ((report.limit.map Value.int).getD .null) =
      (report.limit.map Value.int).getD .null := by
    cases report.limit <;> rfl
  simp only [Report.toValue, Report.asWritten, Value.asWritten, asWrittenMembers, asWrittenItems_eq,
    List.map_map, limit, Function.comp_def, Dimension.toValue, Metric.toValue, Filter.toValue,
    SortEntry.toValue, label, Filter.asWritten]
  rfl

end Values

end Reporting
