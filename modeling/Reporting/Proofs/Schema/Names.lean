import Mathlib.Data.List.Basic
import Reporting.Proofs.Schema.Accepted
import Reporting.Proofs.Sql.Names
import Reporting.Schema.Rewards

/-!
# Names of a schema

Tables, columns, references and relationships go by names. What holds of all of them
(`Schema.NamesSatisfy`) holds of every name that a look-up gives.
-/

namespace Reporting

namespace Schema

/-- A property of all table keys, columns, references and relationship keys. -/
structure NamesSatisfy (P : String → Prop) (schema : Schema) : Prop where
  tableKey : ∀ entry ∈ schema.tables, P entry.1
  column : ∀ entry ∈ schema.tables, ∀ field ∈ entry.2.fields, P field
  reference : ∀ rel ∈ schema.relationships, P rel.reference
  key : ∀ rel ∈ schema.relationships, P rel.key

instance (P : String → Prop) [DecidablePred P] (schema : Schema) :
    Decidable (schema.NamesSatisfy P) :=
  decidable_of_iff
    ((∀ entry ∈ schema.tables, P entry.1) ∧
      (∀ entry ∈ schema.tables, ∀ field ∈ entry.2.fields, P field) ∧
      (∀ rel ∈ schema.relationships, P rel.reference) ∧ (∀ rel ∈ schema.relationships, P rel.key))
    ⟨fun ⟨tableKey, column, reference, key⟩ => ⟨tableKey, column, reference, key⟩,
      fun ⟨tableKey, column, reference, key⟩ => ⟨tableKey, column, reference, key⟩⟩

/-- Names that satisfy a property satisfy every weaker one. -/
theorem NamesSatisfy.mono {P Q : String → Prop} {schema : Schema} (names : schema.NamesSatisfy P)
    (weaker : ∀ name, P name → Q name) : schema.NamesSatisfy Q where
  tableKey entry member := weaker _ (names.tableKey entry member)
  column entry member field listed := weaker _ (names.column entry member field listed)
  reference rel member := weaker _ (names.reference rel member)
  key rel member := weaker _ (names.key rel member)

/-- A property of the names that enter a statement as they are: table keys, columns and references,
but not the keys of relationships. -/
structure ShownNamesSatisfy (P : String → Prop) (schema : Schema) : Prop where
  tableKey : ∀ entry ∈ schema.tables, P entry.1
  column : ∀ entry ∈ schema.tables, ∀ field ∈ entry.2.fields, P field
  reference : ∀ rel ∈ schema.relationships, P rel.reference

/-- What all names satisfy, the shown ones do. -/
theorem NamesSatisfy.shown {P : String → Prop} {schema : Schema} (names : schema.NamesSatisfy P) :
    schema.ShownNamesSatisfy P :=
  ⟨names.tableKey, names.column, names.reference⟩

variable {schema : Schema}

theorem mem_of_table? {key : String} {table : Table} (found : schema.table? key = some table) :
    (key, table) ∈ schema.tables := by
  obtain ⟨before, after, split, _⟩ := List.lookup_eq_some_iff.mp found
  rw [split]
  exact List.mem_append_right before List.mem_cons_self

/-- A relationship that is found is declared, with the source and the key that were looked up. -/
theorem mem_of_relationship? {source key : String} {rel : Relationship}
    (found : schema.relationship? source key = some rel) :
    rel ∈ schema.relationships ∧ rel.source = source ∧ rel.key = key := by
  have matched := List.find?_some found
  simp only [Bool.and_eq_true, beq_iff_eq] at matched
  exact ⟨List.mem_of_find?_eq_some found, matched⟩

/-- The relationships of a table are those that start there. -/
theorem mem_relationshipsOf {table : String} {rel : Relationship} :
    rel ∈ schema.relationshipsOf table ↔ rel ∈ schema.relationships ∧ rel.source = table := by
  rw [relationshipsOf, List.mem_filter, beq_iff_eq]

/-- The columns behind a reference are those of a table. -/
theorem exists_table_of_fieldsOf? {reference : String} {fields : List String}
    (found : schema.fieldsOf? reference = some fields) :
    ∃ key table, schema.table? key = some table ∧ table.fields = fields := by
  obtain ⟨table, referenced, rfl⟩ := Option.map_eq_some_iff.mp found
  unfold referencedTable? at referenced
  split at referenced
  next key _ =>
    split at referenced
    · exact absurd referenced (by simp)
    · exact ⟨key, table, referenced, rfl⟩
  next => exact absurd referenced (by simp)

/-- The columns behind a reference are columns of the table that it stands for. -/
theorem mem_allowedFields?_of_mem_fieldsOf? {reference key column : String}
    (target : schema.referenceTarget? reference = some key)
    (member : column ∈ (schema.fieldsOf? reference).getD []) :
    column ∈ (schema.allowedFields? key).getD [] := by
  simp only [fieldsOf?, referencedTable?, target] at member
  by_cases empty : key.isEmpty = true
  · rw [if_pos empty] at member
    exact absurd member List.not_mem_nil
  · rw [if_neg empty] at member
    exact member

/-- A table that may be reported on has a key of the schema. -/
theorem exists_table_of_isReportable {key : String} (reportable : schema.isReportable key = true) :
    ∃ table, schema.table? key = some table := by
  obtain ⟨table, found, _⟩ := (Option.any_eq_true _ _).mp reportable
  exact ⟨table, found⟩

namespace ShownNamesSatisfy

variable {P : String → Prop} (names : schema.ShownNamesSatisfy P)

include names

theorem of_table? {key : String} {table : Table} (found : schema.table? key = some table) :
    P key ∧ ∀ field ∈ table.fields, P field :=
  ⟨names.tableKey _ (mem_of_table? found), names.column _ (mem_of_table? found)⟩

/-- The columns of a reportable source satisfy the property. -/
theorem of_allowedFields? {key column : String} {allowed : List String}
    (found : schema.allowedFields? key = some allowed) (member : column ∈ allowed) : P column := by
  obtain ⟨table, known, rfl⟩ := Option.map_eq_some_iff.mp found
  exact (names.of_table? known).2 column member

/-- The columns behind a reference satisfy the property. -/
theorem of_fieldsOf? {reference column : String}
    (member : column ∈ (schema.fieldsOf? reference).getD []) : P column := by
  cases found : schema.fieldsOf? reference with
  | none => simp [found] at member
  | some fields =>
      obtain ⟨key, table, known, rfl⟩ := exists_table_of_fieldsOf? found
      rw [found, Option.getD_some] at member
      exact (names.of_table? known).2 column member

end ShownNamesSatisfy

/-- A table that is found and its columns satisfy the property. -/
theorem NamesSatisfy.of_table? {P : String → Prop} (names : schema.NamesSatisfy P) {key : String}
    {table : Table} (found : schema.table? key = some table) :
    P key ∧ ∀ field ∈ table.fields, P field :=
  names.shown.of_table? found

/-- The shipped schema passes its own construction. -/
theorem rewards_accepted : rewards.Accepted := accepted_of_build build_rewards

/-- The names of the shipped schema are proper. -/
theorem rewards_names : rewards.NamesSatisfy Sql.IsProper := by decide +kernel

end Schema

end Reporting
