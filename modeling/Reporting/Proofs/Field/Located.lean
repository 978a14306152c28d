import Reporting.Proofs.Field

/-!
# Where references lead

`Schema.Locates` says in terms of the declared tables and relationships which column of which table
a reference stands for, and `Schema.FieldFault` what is wrong with a reference that stands for none.
Over an accepted schema whose tables have keys that are not empty, references resolve exactly where
they lead to a column (`Schema.Accepted.resolves_iff`), and fail for the reason given.
-/

namespace Reporting

namespace Schema

/-- The column that a reference of a source table stands for, and the table it belongs to. -/
inductive Locates (schema : Schema) (table : String) : String → Table → String → Prop where
  | own {field : String} {home : Table} (bare : '.' ∉ field.toList)
      (known : schema.table? table = some home) (listed : field ∈ home.fields) :
      Locates schema table field home field
  | related {field column : String} {rel : Relationship} {home : Table}
      (pair : FieldReference.IsPair field rel.key column) (declared : rel ∈ schema.relationships)
      (source : rel.source = table) (known : schema.table? rel.target = some home)
      (listed : column ∈ home.fields) : Locates schema table field home column

/-- A reference of a source table that stands for a column. -/
def Located (schema : Schema) (table field : String) : Prop :=
  ∃ home column, schema.Locates table field home column

/-- A reference of a source table that stands for a column which can be summed. -/
def Summable (schema : Schema) (table field : String) : Prop :=
  ∃ home column, schema.Locates table field home column ∧ column ∈ home.numericFields

/-- Why a reference does not stand for a column, as it is reported. -/
inductive FieldFault (schema : Schema) (table : String) : String → Rejection → Prop where
  | malformed {field : String} (points : '.' ∈ field.toList)
      (noPair : ¬ ∃ key column, FieldReference.IsPair field key column) :
      FieldFault schema table field (.malformedField field)
  | foreign {field : String} (bare : '.' ∉ field.toList) :
      FieldFault schema table field (.foreignColumn field field table)
  | unknown {field key column : String} (pair : FieldReference.IsPair field key column)
      (undeclared : ∀ rel ∈ schema.relationships, rel.source = table → rel.key ≠ key) :
      FieldFault schema table field
        (.unknownRelationship field key table ((schema.relationshipsOf table).map (·.key)))
  | foreignRelated {field column : String} {rel : Relationship}
      (pair : FieldReference.IsPair field rel.key column) (declared : rel ∈ schema.relationships)
      (source : rel.source = table) :
      FieldFault schema table field (.foreignRelatedColumn field column rel.reference)

namespace Accepted

variable {schema : Schema} {table field : String} (accepted : schema.Accepted)

include accepted

/-- A relationship is found by its source table and its key. -/
theorem relationship?_eq {rel : Relationship} (declared : rel ∈ schema.relationships) :
    schema.relationship? rel.source rel.key = some rel := by
  cases found : schema.relationship? rel.source rel.key with
  | none =>
      have missing := List.find?_eq_none.mp found rel declared
      simp at missing
  | some other =>
      obtain ⟨declaredToo, source, key⟩ := mem_of_relationship? found
      rw [accepted.eq_of_key declared declaredToo source.symm key.symm]

/-- No relationship is found iff none of the table has the key. -/
theorem relationship?_eq_none_iff {key : String} :
    schema.relationship? table key = none ↔
      ∀ rel ∈ schema.relationships, rel.source = table → rel.key ≠ key := by
  constructor
  · rintro missing rel declared rfl rfl
    rw [accepted.relationship?_eq declared] at missing
    cases missing
  · intro undeclared
    by_contra some
    obtain ⟨rel, found⟩ := Option.ne_none_iff_exists'.mp some
    obtain ⟨declared, source, key⟩ := mem_of_relationship? found
    exact undeclared rel declared source key

/-- A column tells the reference that it was written for. -/
theorem field_eq {other : String} {resolved resolvedToo : ResolvedField}
    (found : schema.resolveField table field = .ok resolved)
    (foundToo : schema.resolveField table other = .ok resolvedToo)
    (reference : resolved.reference = resolvedToo.reference)
    (column : resolved.column = resolvedToo.column) : field = other := by
  rcases resolveField_eq_ok.mp found with ⟨name, allowed, parsed, -, -, rfl⟩ |
    ⟨key, name, rel, parsed, known, -, rfl⟩
  · rcases resolveField_eq_ok.mp foundToo with ⟨nameToo, allowedToo, parsedToo, -, -, rfl⟩ |
      ⟨keyToo, nameToo, relToo, parsedToo, knownToo, -, rfl⟩
    · rw [FieldReference.field_eq_column parsed, FieldReference.field_eq_column parsedToo]
      exact column
    · obtain ⟨declared, source, -⟩ := mem_of_relationship? knownToo
      exact absurd (reference.symm.trans source.symm) (accepted.reference_ne_source declared)
  · obtain ⟨declared, source, rfl⟩ := mem_of_relationship? known
    rcases resolveField_eq_ok.mp foundToo with ⟨nameToo, allowedToo, parsedToo, -, -, rfl⟩ |
      ⟨keyToo, nameToo, relToo, parsedToo, knownToo, -, rfl⟩
    · exact absurd (reference.trans source.symm) (accepted.reference_ne_source declared)
    · obtain ⟨declaredToo, sourceToo, rfl⟩ := mem_of_relationship? knownToo
      have same := accepted.eq_of_reference declared declaredToo (source.trans sourceToo.symm)
        reference
      rw [(FieldReference.field_eq_related parsed).1, (FieldReference.field_eq_related parsedToo).1,
        same, show name = nameToo from column]

/-- Behind a reference is the target of the relationship that introduces it, unless the key of that
is empty. -/
theorem referencedTable?_eq {rel : Relationship} (declared : rel ∈ schema.relationships) :
    schema.referencedTable? rel.reference =
      if rel.target = "" then none else schema.table? rel.target := by
  simp only [referencedTable?, accepted.referenceTarget?_eq declared, String.isEmpty_iff]

variable (keyed : ∀ entry ∈ schema.tables, entry.1 ≠ "")

include keyed

/-- The table behind a reference is the target of the relationship that introduces it. -/
theorem exists_referencedTable? {rel : Relationship} (declared : rel ∈ schema.relationships) :
    ∃ home, schema.table? rel.target = some home ∧
      schema.referencedTable? rel.reference = some home := by
  obtain ⟨home, known⟩ := accepted.exists_target declared
  rw [accepted.referencedTable?_eq declared, if_neg (keyed _ (mem_of_table? known))]
  exact ⟨home, known, known⟩

/-- A reference that resolves stands for the resolved column. -/
theorem locates_of_resolveField {resolved : ResolvedField}
    (found : schema.resolveField table field = .ok resolved) :
    ∃ home, schema.Locates table field home resolved.column ∧
      (resolved.numeric = true ↔ resolved.column ∈ home.numericFields) := by
  rcases resolveField_eq_ok.mp found with ⟨column, allowed, parsed, known, listed, rfl⟩ |
    ⟨key, column, rel, parsed, known, listed, rfl⟩
  · obtain ⟨bare, rfl⟩ := FieldReference.parse_eq_column_iff.mp parsed
    obtain ⟨home, isTable, rfl⟩ := Option.map_eq_some_iff.mp known
    exact ⟨home, .own bare isTable listed, by simp [isNumeric, isTable]⟩
  · have pair := FieldReference.parse_eq_related_iff.mp parsed
    obtain ⟨declared, source, rfl⟩ := mem_of_relationship? known
    obtain ⟨home, isTable, behind⟩ := accepted.exists_referencedTable? keyed declared
    rw [fieldsOf?, behind, Option.map_some, Option.getD_some] at listed
    exact ⟨home, .related pair declared source isTable listed, by simp [numericFieldsOf, behind]⟩

/-- A reference that stands for a column resolves to it. -/
theorem resolveField_of_locates {home : Table} {column : String}
    (located : schema.Locates table field home column) :
    ∃ resolved, schema.resolveField table field = .ok resolved ∧
      (resolved.numeric = true ↔ column ∈ home.numericFields) := by
  cases located with
  | own bare known listed =>
      refine ⟨⟨field, none, table, field, schema.isNumeric table field⟩, ?_, ?_⟩
      · refine resolveField_eq_ok.mpr (Or.inl ⟨field, home.fields, ?_, ?_, listed, rfl⟩)
        · exact FieldReference.parse_eq_column_iff.mpr ⟨bare, rfl⟩
        · rw [allowedFields?, known, Option.map_some]
      · simp [isNumeric, known]
  | @related _ rel _ pair declared source known listed =>
      obtain ⟨other, isTable, behind⟩ := accepted.exists_referencedTable? keyed declared
      obtain rfl := Option.some.inj (known.symm.trans isTable)
      refine ⟨⟨field, some rel.key, rel.reference, column,
        (schema.numericFieldsOf rel.reference).contains column⟩, ?_, ?_⟩
      · refine resolveField_eq_ok.mpr (Or.inr ⟨rel.key, column, rel, ?_, ?_, ?_, rfl⟩)
        · exact FieldReference.parse_eq_related_iff.mpr pair
        · rw [← source]
          exact accepted.relationship?_eq declared
        · rw [fieldsOf?, behind, Option.map_some, Option.getD_some]
          exact listed
      · simp [numericFieldsOf, behind]

/-- A reference resolves iff its column is located. -/
theorem resolves_iff :
    (∃ resolved, schema.resolveField table field = .ok resolved) ↔ schema.Located table field := by
  constructor
  · rintro ⟨resolved, found⟩
    obtain ⟨home, located, -⟩ := accepted.locates_of_resolveField keyed found
    exact ⟨home, _, located⟩
  · rintro ⟨home, column, located⟩
    obtain ⟨resolved, found, -⟩ := accepted.resolveField_of_locates keyed located
    exact ⟨resolved, found⟩

/-- A reference resolves to numbers iff its column can be summed. -/
theorem resolves_numeric_iff :
    (∃ resolved, schema.resolveField table field = .ok resolved ∧ resolved.numeric = true) ↔
      schema.Summable table field := by
  constructor
  · rintro ⟨resolved, found, numeric⟩
    obtain ⟨home, located, summable⟩ := accepted.locates_of_resolveField keyed found
    exact ⟨home, _, located, summable.mp numeric⟩
  · rintro ⟨home, column, located, summable⟩
    obtain ⟨resolved, found, numeric⟩ := accepted.resolveField_of_locates keyed located
    exact ⟨resolved, found, numeric.mpr summable⟩

/-- What is wrong with a reference to a column of a known table is reported. -/
theorem resolveField_eq_error_iff (isTable : (schema.table? table).isSome = true)
    {rejection : Rejection} :
    schema.resolveField table field = .error rejection ↔
      ¬ schema.Located table field ∧ schema.FieldFault table field rejection := by
  obtain ⟨home, known⟩ := Option.isSome_iff_exists.mp isTable
  have allowed : schema.allowedFields? table = some home.fields := by
    rw [allowedFields?, known, Option.map_some]
  constructor
  · intro refused
    have missing : ¬ schema.Located table field := by
      intro located
      obtain ⟨resolved, found⟩ := (accepted.resolves_iff keyed).mpr located
      rw [found] at refused
      cases refused
    refine ⟨missing, ?_⟩
    by_cases bare : '.' ∉ field.toList
    · rw [resolveField_of_bare bare, resolveColumn_eq_error_iff allowed] at refused
      obtain ⟨-, rfl⟩ := refused
      exact .foreign bare
    · rw [not_not] at bare
      by_cases paired : ∃ key column, FieldReference.IsPair field key column
      · obtain ⟨key, column, pair⟩ := paired
        rw [resolveField_of_pair pair, resolveRelated_eq_error_iff] at refused
        rcases refused with ⟨unknown, rfl⟩ | ⟨rel, isRelated, -, rfl⟩
        · exact .unknown pair (accepted.relationship?_eq_none_iff.mp unknown)
        · obtain ⟨declared, source, rfl⟩ := mem_of_relationship? isRelated
          exact .foreignRelated pair declared source
      · rw [resolveField_of_malformed bare paired] at refused
        cases refused
        exact .malformed bare paired
  · rintro ⟨missing, fault⟩
    cases fault with
    | malformed points noPair => exact resolveField_of_malformed points noPair
    | foreign bare =>
        rw [resolveField_of_bare bare, resolveColumn_eq_error_iff allowed]
        exact ⟨fun listed => missing ⟨home, field, .own bare known listed⟩, rfl⟩
    | unknown pair undeclared =>
        rw [resolveField_of_pair pair, resolveRelated_eq_error_iff]
        exact Or.inl ⟨accepted.relationship?_eq_none_iff.mpr undeclared, rfl⟩
    | @foreignRelated column rel pair declared source =>
        obtain ⟨target, isTarget, behind⟩ := accepted.exists_referencedTable? keyed declared
        rw [resolveField_of_pair pair, resolveRelated_eq_error_iff, ← source]
        refine Or.inr ⟨rel, accepted.relationship?_eq declared, ?_, rfl⟩
        rw [fieldsOf?, behind, Option.map_some, Option.getD_some]
        exact fun listed =>
          missing ⟨target, column, .related pair declared source isTarget listed⟩

end Accepted

end Schema

end Reporting
