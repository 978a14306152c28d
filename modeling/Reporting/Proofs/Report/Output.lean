import Mathlib.Data.List.Basic
import Reporting.Proofs.Field
import Reporting.Report.Output

/-!
# The columns of a result and their names

A name made of an aggregate and a field is a label whenever the names of the schema are plain
(`Metric.isLabel_outputName`), and an entry of the order that means an item of the report means the
item at the position it gives (`Report.sortTarget?_eq_some`).
-/

namespace Reporting

open Sql

theorem givenLabel?_eq_some {given : Option String} {label : String} :
    givenLabel? given = some label ↔ given = some label ∧ label ≠ "" := by
  unfold givenLabel?
  split
  next name =>
    by_cases empty : name = ""
    · subst empty
      change none = some label ↔ some "" = some label ∧ label ≠ ""
      simp only [reduceCtorEq, Option.some.injEq, ne_eq, false_iff, not_and, not_not]
      exact Eq.symm
    · have some : name.isEmpty = false := by simpa using empty
      simp only [some, Bool.false_eq_true, ↓reduceIte, Option.some.injEq, ne_eq]
      constructor
      · rintro rfl
        exact ⟨rfl, empty⟩
      · exact And.left
  next => simp only [reduceCtorEq, false_and]

/-- A reference that resolves is made of name characters and points. -/
theorem Schema.NamesSatisfy.mem_field {schema : Schema} (names : schema.NamesSatisfy IsPlain)
    {table field : String} {resolved : ResolvedField}
    (found : schema.resolveField table field = .ok resolved) {c : Char}
    (member : c ∈ field.toList) : isNameChar c = true ∨ c = '.' := by
  have parsed := resolveField_parse found
  obtain ⟨column, key⟩ := names.of_resolveField found
  cases named : resolved.key with
  | none =>
      rw [named] at parsed
      rw [FieldReference.field_eq_column parsed] at member
      exact Or.inl (column c member)
  | some name =>
      rw [named] at parsed
      rw [(FieldReference.field_eq_related parsed).1] at member
      simp only [String.toList_append, List.mem_append] at member
      rcases member with (front | point) | back
      · exact Or.inl (key name named c front)
      · exact Or.inr (List.mem_singleton.mp point)
      · exact Or.inl (column c back)

/-- A label may be continued by a plain name. -/
theorem Sql.isLabel_append {start name : String} (label : isLabel start.toList = true)
    (noNewline : '\n' ∉ start.toList) (plain : IsPlain name) :
    isLabel (start ++ name).toList = true := by
  have without : '\n' ∉ (start ++ name).toList := by
    rw [String.toList_append, List.mem_append, not_or]
    exact ⟨noNewline, fun member => absurd (plain '\n' member) (by decide)⟩
  unfold isLabel at label ⊢
  rw [dropFinalNewline_of_not_mem noNewline] at label
  rw [dropFinalNewline_of_not_mem without, String.toList_append]
  split at label
  next => exact absurd label (by decide)
  next first rest split =>
    rw [Bool.and_eq_true, List.all_eq_true] at label
    rw [split, List.cons_append]
    simp only [Bool.and_eq_true, List.all_eq_true, List.mem_append]
    refine ⟨label.1, ?_⟩
    rintro c (inside | behind)
    · exact label.2 c inside
    · exact plain c behind

namespace Metric

/-- The operations that are supported are those of the aggregates. -/
theorem aggregate?_cases (m : Metric) :
    (m.operation = "SUM" ∧ m.aggregate? = some .sum) ∨
      (m.operation = "COUNT" ∧ m.aggregate? = some .count) ∨
        (m.operation ∉ ["SUM", "COUNT"] ∧ m.aggregate? = none) := by
  unfold aggregate? aggregateOf?
  split
  next sum => exact Or.inl ⟨sum, rfl⟩
  next count => exact Or.inr (Or.inl ⟨count, rfl⟩)
  next noSum noCount =>
    refine Or.inr (Or.inr ⟨?_, rfl⟩)
    intro member
    rcases List.mem_pair.mp member with sum | count
    · exact noSum sum
    · exact noCount count

/-- A field of plain letters and points makes a plain name. -/
theorem isPlain_flatField {field : String}
    (letters : ∀ c ∈ field.toList, isNameChar c = true ∨ c = '.') : IsPlain (flatField field) := by
  intro c member
  simp only [flatField, String.toList_ofList, List.mem_map, beq_iff_eq] at member
  obtain ⟨d, inside, rfl⟩ := member
  split
  · decide
  next other => exact (letters d inside).resolve_right other

/-- A name that is made of name characters alone is a label. -/
theorem isLabel_made {field : String} (plain : IsPlain (flatField field)) (aggregate : Aggregate) :
    isLabel (nameStart aggregate ++ "_" ++ flatField field).toList = true := by
  cases aggregate with
  | sum =>
      have start : isLabel "total_".toList = true := by decide
      exact isLabel_append start (by decide) plain
  | count =>
      have start : isLabel "count_".toList = true := by decide
      exact isLabel_append start (by decide) plain

/-- The name of a metric that can be computed is a label, given or made. -/
theorem isLabel_outputName {schema : Schema} (names : schema.NamesSatisfy IsPlain) {table : String}
    {metric : Metric} {resolved : ResolvedField} {aggregate : Aggregate}
    (found : schema.resolveField table metric.field = .ok resolved)
    (known : metric.aggregate? = some aggregate)
    (given : ∀ label, givenLabel? metric.label = some label → isLabel label.toList = true) :
    ∃ name, metric.outputName = .ok name ∧ isLabel name.toList = true := by
  unfold outputName
  split
  next label labelled => exact ⟨label, rfl, given label labelled⟩
  next unlabelled =>
    rw [known]
    exact ⟨_, rfl, isLabel_made (isPlain_flatField fun c => names.mem_field found) aggregate⟩

end Metric

namespace Report

variable {report : Report} {name : String} {target : SortTarget}

theorem mem_labels_of_dimension {d : Dimension} (member : d ∈ report.dimensions) {label : String}
    (given : givenLabel? d.label = some label) : label ∈ report.labels := by
  obtain ⟨labelled, -⟩ := givenLabel?_eq_some.mp given
  apply List.mem_append_left
  exact List.mem_filterMap.mpr ⟨d, member, labelled⟩

theorem mem_labels_of_metric {m : Metric} (member : m ∈ report.metrics) {label : String}
    (given : givenLabel? m.label = some label) : label ∈ report.labels := by
  obtain ⟨labelled, -⟩ := givenLabel?_eq_some.mp given
  apply List.mem_append_right
  exact List.mem_filterMap.mpr ⟨m, member, labelled⟩

theorem field_mem_of_dimension {d : Dimension} (member : d ∈ report.dimensions) :
    d.field ∈ report.referencedFields := by
  apply List.mem_append_left
  apply List.mem_append_left
  exact List.mem_map_of_mem member

theorem field_mem_of_filter {f : Filter} (member : f ∈ report.filters) :
    f.field ∈ report.referencedFields := by
  apply List.mem_append_left
  apply List.mem_append_right
  exact List.mem_map_of_mem member

theorem field_mem_of_metric {m : Metric} (member : m ∈ report.metrics) :
    m.field ∈ report.referencedFields := by
  apply List.mem_append_right
  exact List.mem_map_of_mem member

/-- A dimension that is found stands at its position. -/
theorem findDimension?_eq_some {position : Nat} {dimensions : List Dimension}
    (found : findDimension? name position dimensions = some target) :
    ∃ i d, dimensions[i]? = some d ∧ target = ⟨position + i, d.label, false⟩ := by
  induction dimensions generalizing position with
  | nil => cases found
  | cons d rest ih =>
      simp only [findDimension?] at found
      split at found
      · cases found
        exact ⟨0, d, rfl, rfl⟩
      · obtain ⟨i, other, selected, rfl⟩ := ih found
        exact ⟨i + 1, other, selected, by rw [Nat.add_assoc, Nat.add_comm 1 i]⟩

/-- A metric that is found stands at its position. -/
theorem findMetric?_eq_some {position : Nat} {metrics : List Metric}
    (found : findMetric? name position metrics = some target) :
    ∃ i m, metrics[i]? = some m ∧ target = ⟨position + i, m.label, true⟩ := by
  induction metrics generalizing position with
  | nil => cases found
  | cons m rest ih =>
      simp only [findMetric?] at found
      split at found
      · cases found
        exact ⟨0, m, rfl, rfl⟩
      · obtain ⟨i, other, selected, rfl⟩ := ih found
        exact ⟨i + 1, other, selected, by rw [Nat.add_assoc, Nat.add_comm 1 i]⟩

/-- What a name of the order means: a dimension, or a metric behind all dimensions. -/
theorem sortTarget?_eq_some (found : report.sortTarget? name = some target) :
    (∃ i d, report.dimensions[i]? = some d ∧ target = ⟨1 + i, d.label, false⟩) ∨
      ∃ i m, report.metrics[i]? = some m ∧
        target = ⟨report.dimensions.length + 1 + i, m.label, true⟩ := by
  unfold sortTarget? at found
  cases first : findDimension? name 1 report.dimensions with
  | some dimension =>
      rw [first] at found
      cases found
      exact Or.inl (findDimension?_eq_some first)
  | none =>
      rw [first] at found
      exact Or.inr (findMetric?_eq_some found)

/-- The position that a name of the order means is one of the select list. -/
theorem sortTarget?_position (found : report.sortTarget? name = some target) :
    1 ≤ target.position ∧
      target.position ≤ report.dimensions.length + report.metrics.length := by
  rcases sortTarget?_eq_some found with ⟨i, d, selected, rfl⟩ | ⟨i, m, selected, rfl⟩
  · have inside := (List.getElem?_eq_some_iff.mp selected).1
    constructor
    · exact Nat.le_add_right 1 i
    · change 1 + i ≤ _
      omega
  · have inside := (List.getElem?_eq_some_iff.mp selected).1
    constructor
    · change 1 ≤ report.dimensions.length + 1 + i
      omega
    · change report.dimensions.length + 1 + i ≤ _
      omega

end Report

end Reporting
