import Mathlib.Data.List.Basic
import Reporting.Field
import Reporting.Proofs.Schema.Names

/-!
# Resolved references

A reference without a point resolves to a column of the source table, one with a single point to a
column behind a relationship (`Schema.resolveField_eq_ok`). The parts of a reference joined by a
point are the reference again (`FieldReference.field_eq_column`, `FieldReference.field_eq_related`).
-/

namespace Reporting

/-- Every text has a part before its first point. -/
theorem splitAtPoints_ne_nil (text : List Char) : splitAtPoints text ≠ [] := by
  cases text with
  | nil => simp [splitAtPoints]
  | cons c rest =>
      unfold splitAtPoints
      split
      · simp
      · split <;> simp

/-- The parts of a text joined by points are the text. -/
theorem intercalate_splitAtPoints (text : List Char) :
    ['.'].intercalate (splitAtPoints text) = text := by
  induction text with
  | nil => rfl
  | cons c rest ih =>
      obtain ⟨part, parts, split⟩ := List.exists_cons_of_ne_nil (splitAtPoints_ne_nil rest)
      rw [split] at ih
      simp only [splitAtPoints, split]
      by_cases point : c = '.'
      · subst point
        simp only [beq_self_eq_true, ↓reduceIte, List.intercalate_cons_cons, List.nil_append, ih,
          List.cons_append]
      · simp only [beq_iff_eq, point, ↓reduceIte]
        cases parts with
        | nil => simpa [List.intercalate_singleton] using ih
        | cons next parts => simpa [List.intercalate_cons_cons] using ih

/-- A text without a point is one part. -/
theorem splitAtPoints_of_not_mem {text : List Char} (bare : '.' ∉ text) :
    splitAtPoints text = [text] := by
  induction text with
  | nil => rfl
  | cons c rest ih =>
      rw [List.mem_cons, not_or] at bare
      simp only [splitAtPoints, beq_false_of_ne (Ne.symm bare.1), Bool.false_eq_true, ↓reduceIte,
        ih bare.2]

/-- What stands before the first point is the first part. -/
theorem splitAtPoints_append {front : List Char} (bare : '.' ∉ front) (back : List Char) :
    splitAtPoints (front ++ '.' :: back) = front :: splitAtPoints back := by
  induction front with
  | nil => simp [splitAtPoints]
  | cons c front ih =>
      rw [List.mem_cons, not_or] at bare
      simp only [List.cons_append, splitAtPoints, beq_false_of_ne (Ne.symm bare.1),
        Bool.false_eq_true, ↓reduceIte, ih bare.2]

/-- No part of a text that is split at its points has one. -/
theorem point_not_mem_of_mem_splitAtPoints {text part : List Char}
    (member : part ∈ splitAtPoints text) : '.' ∉ part := by
  induction text generalizing part with
  | nil =>
      rw [List.mem_singleton.mp member]
      exact List.not_mem_nil
  | cons c rest ih =>
      obtain ⟨first, parts, split⟩ := List.exists_cons_of_ne_nil (splitAtPoints_ne_nil rest)
      rw [split] at ih
      simp only [splitAtPoints, split] at member
      by_cases point : c = '.'
      · simp only [point, beq_self_eq_true, ↓reduceIte] at member
        rcases List.mem_cons.mp member with rfl | behind
        · exact List.not_mem_nil
        · exact ih behind
      · simp only [beq_false_of_ne point, Bool.false_eq_true, ↓reduceIte] at member
        rcases List.mem_cons.mp member with rfl | behind
        · rw [List.mem_cons, not_or]
          exact ⟨Ne.symm point, ih List.mem_cons_self⟩
        · exact ih (List.mem_cons_of_mem _ behind)

namespace FieldReference

/-- A reference with one point between two parts that are not empty. -/
structure IsPair (field key column : String) : Prop where
  joined : field = key ++ "." ++ column
  key_ne : key ≠ ""
  column_ne : column ≠ ""
  key_bare : '.' ∉ key.toList
  column_bare : '.' ∉ column.toList

/-- A pair is written as its key, a point and its column. -/
theorem IsPair.toList_eq {field key column : String} (pair : IsPair field key column) :
    field.toList = key.toList ++ '.' :: column.toList := by
  rw [pair.joined]
  simp

/-- A reference has one reading as a pair. -/
theorem IsPair.unique {field key column otherKey otherColumn : String}
    (pair : IsPair field key column) (other : IsPair field otherKey otherColumn) :
    key = otherKey ∧ column = otherColumn := by
  have split := splitAtPoints_append pair.key_bare column.toList
  rw [splitAtPoints_of_not_mem pair.column_bare, ← pair.toList_eq, other.toList_eq,
    splitAtPoints_append other.key_bare, splitAtPoints_of_not_mem other.column_bare] at split
  simp only [List.cons.injEq, and_true] at split
  exact ⟨(String.toList_inj.mp split.1).symm, (String.toList_inj.mp split.2).symm⟩

/-- A reference without a point is its column. -/
theorem field_eq_column {field column : String} (parsed : parse field = .ok ⟨none, column⟩) :
    field = column := by
  have whole := intercalate_splitAtPoints field.toList
  unfold parse at parsed
  split at parsed
  next part single =>
    rw [single, List.intercalate_singleton] at whole
    cases parsed
    rw [whole, String.ofList_toList]
  next key part pair =>
    split at parsed <;> cases parsed
  next => cases parsed

/-- A reference with a point is its two parts around the point. -/
theorem field_eq_related {field key column : String}
    (parsed : parse field = .ok ⟨some key, column⟩) :
    field = key ++ "." ++ column ∧ key ≠ "" ∧ column ≠ "" := by
  have whole := intercalate_splitAtPoints field.toList
  unfold parse at parsed
  split at parsed
  next part single => cases parsed
  next front back pair =>
    rw [pair, List.intercalate_cons_cons, List.intercalate_singleton] at whole
    split at parsed
    · cases parsed
    next some =>
      cases parsed
      rw [Bool.or_eq_true, not_or, List.isEmpty_iff, List.isEmpty_iff] at some
      refine ⟨?_, by simpa using some.1, by simpa using some.2⟩
      apply String.toList_inj.mp
      simp [← whole]
  next => cases parsed

/-- References without a point are columns of the source table. -/
theorem parse_eq_column_iff {field column : String} :
    parse field = .ok ⟨none, column⟩ ↔ '.' ∉ field.toList ∧ column = field := by
  constructor
  · intro parsed
    obtain rfl := field_eq_column parsed
    refine ⟨?_, rfl⟩
    unfold parse at parsed
    split at parsed
    next part single =>
      cases parsed
      rw [String.toList_ofList] at single ⊢
      exact point_not_mem_of_mem_splitAtPoints (single ▸ List.mem_cons_self)
    next => split at parsed <;> cases parsed
    next => cases parsed
  · rintro ⟨bare, rfl⟩
    rw [parse, splitAtPoints_of_not_mem bare]
    simp only [String.ofList_toList]

/-- References with one point between two parts are columns behind a relationship. -/
theorem parse_eq_related_iff {field key column : String} :
    parse field = .ok ⟨some key, column⟩ ↔ IsPair field key column := by
  constructor
  · intro parsed
    obtain ⟨joined, keyNe, columnNe⟩ := field_eq_related parsed
    unfold parse at parsed
    split at parsed
    · cases parsed
    next front back pair =>
      have bare : ∀ part ∈ [front, back], '.' ∉ part := by
        rw [← pair]
        exact fun part => point_not_mem_of_mem_splitAtPoints
      split at parsed
      · cases parsed
      · cases parsed
        refine ⟨joined, keyNe, columnNe, ?_, ?_⟩
        · simpa using bare front (by simp)
        · simpa using bare back (by simp)
    next => cases parsed
  · intro pair
    rw [parse, pair.toList_eq, splitAtPoints_append pair.key_bare,
      splitAtPoints_of_not_mem pair.column_bare]
    have key : key.toList.isEmpty = false := by simpa using pair.key_ne
    have column : column.toList.isEmpty = false := by simpa using pair.column_ne
    simp only [key, column, Bool.or_self, Bool.false_eq_true, ↓reduceIte, String.ofList_toList]

/-- What has points and is not a pair is malformed. -/
theorem parse_eq_error_iff {field : String} {rejection : Rejection} :
    parse field = .error rejection ↔
      '.' ∈ field.toList ∧ (¬ ∃ key column, IsPair field key column) ∧
        rejection = .malformedField field := by
  constructor
  · intro refused
    refine ⟨?_, ?_, ?_⟩
    · by_contra bare
      rw [parse_eq_column_iff.mpr ⟨bare, rfl⟩] at refused
      cases refused
    · rintro ⟨key, column, pair⟩
      rw [parse_eq_related_iff.mpr pair] at refused
      cases refused
    · unfold parse at refused
      split at refused
      · cases refused
      · split at refused <;> cases refused
        rfl
      · cases refused
        rfl
  · rintro ⟨point, other, rfl⟩
    unfold parse
    split
    next part single =>
      have parsed : parse field = .ok ⟨none, String.ofList part⟩ := by rw [parse, single]
      exact absurd point (parse_eq_column_iff.mp parsed).1
    next key column pair =>
      split
      · rfl
      next some =>
        have parsed : parse field = .ok ⟨String.ofList key, String.ofList column⟩ := by
          rw [parse, pair]
          exact if_neg some
        exact absurd ⟨_, _, parse_eq_related_iff.mp parsed⟩ other
    next => rfl

end FieldReference

namespace Schema

variable {schema : Schema} {table field : String} {resolved : ResolvedField}

/-- What a reference resolves to: a column of the source table, or one behind a relationship. -/
theorem resolveField_eq_ok :
    schema.resolveField table field = .ok resolved ↔
      (∃ column allowed, FieldReference.parse field = .ok ⟨none, column⟩ ∧
        schema.allowedFields? table = some allowed ∧ column ∈ allowed ∧
        resolved = ⟨field, none, table, column, schema.isNumeric table column⟩) ∨
      (∃ key column rel, FieldReference.parse field = .ok ⟨some key, column⟩ ∧
        schema.relationship? table key = some rel ∧
        column ∈ (schema.fieldsOf? rel.reference).getD [] ∧
        resolved = ⟨field, some key, rel.reference, column,
          (schema.numericFieldsOf rel.reference).contains column⟩) := by
  simp only [resolveField, Outcome.bind_eq_ok]
  constructor
  · rintro ⟨⟨key, column⟩, parsed, found⟩
    cases key with
    | none =>
        simp only [resolveColumn] at found
        split at found
        · cases found
        next allowed known =>
          split at found
          next listed =>
            cases found
            exact Or.inl ⟨column, allowed, parsed, known, by simpa using listed, rfl⟩
          · cases found
    | some key =>
        simp only [resolveRelated] at found
        split at found
        · cases found
        next rel known =>
          split at found
          next listed =>
            cases found
            exact Or.inr ⟨key, column, rel, parsed, known, by simpa using listed, rfl⟩
          · cases found
  · rintro (⟨column, allowed, parsed, known, listed, rfl⟩ |
      ⟨key, column, rel, parsed, known, listed, rfl⟩)
    · refine ⟨⟨none, column⟩, parsed, ?_⟩
      simp [resolveColumn, known, listed]
    · refine ⟨⟨some key, column⟩, parsed, ?_⟩
      simp [resolveRelated, known, listed]

/-- A reference without a point is to a column of the source. -/
theorem resolveField_of_bare (bare : '.' ∉ field.toList) :
    schema.resolveField table field = schema.resolveColumn table field field := by
  rw [resolveField, FieldReference.parse_eq_column_iff.mpr ⟨bare, rfl⟩]
  rfl

/-- A reference of two parts is to a column behind a relationship. -/
theorem resolveField_of_pair {key column : String} (pair : FieldReference.IsPair field key column) :
    schema.resolveField table field = schema.resolveRelated table field key column := by
  rw [resolveField, FieldReference.parse_eq_related_iff.mpr pair]
  rfl

/-- A reference with points that is no pair is malformed. -/
theorem resolveField_of_malformed (points : '.' ∈ field.toList)
    (noPair : ¬ ∃ key column, FieldReference.IsPair field key column) :
    schema.resolveField table field = .error (.malformedField field) := by
  rw [resolveField, FieldReference.parse_eq_error_iff.mpr ⟨points, noPair, rfl⟩]
  rfl

/-- A column is refused for one reason only: its table does not have it. -/
theorem resolveColumn_eq_error_iff {column : String} {allowed : List String}
    (known : schema.allowedFields? table = some allowed) {rejection : Rejection} :
    schema.resolveColumn table field column = .error rejection ↔
      column ∉ allowed ∧ rejection = .foreignColumn field column table := by
  simp only [resolveColumn, known]
  split
  next listed => simp [List.contains_iff_mem.mp listed]
  next other => simp [List.contains_iff_mem.not.mp other, eq_comm]

/-- A related column is refused because the source declares no such relationship or because the
table behind it does not have the column. -/
theorem resolveRelated_eq_error_iff {key column : String} {rejection : Rejection} :
    schema.resolveRelated table field key column = .error rejection ↔
      (schema.relationship? table key = none ∧
        rejection =
          .unknownRelationship field key table ((schema.relationshipsOf table).map (·.key))) ∨
      ∃ rel, schema.relationship? table key = some rel ∧
        column ∉ (schema.fieldsOf? rel.reference).getD [] ∧
        rejection = .foreignRelatedColumn field column rel.reference := by
  rw [resolveRelated]
  split
  next missing => simp [missing, eq_comm]
  next rel known =>
    split
    next listed => simp [known, List.contains_iff_mem.mp listed]
    next other => simp [known, List.contains_iff_mem.not.mp other, eq_comm]

/-- A resolved column is the column that the reference names. -/
theorem resolveField_parse (found : schema.resolveField table field = .ok resolved) :
    FieldReference.parse field = .ok ⟨resolved.key, resolved.column⟩ := by
  rcases resolveField_eq_ok.mp found with ⟨column, allowed, parsed, _, _, rfl⟩ |
    ⟨key, column, rel, parsed, _, _, rfl⟩
  · exact parsed
  · exact parsed

/-- The column of a resolved reference is a name of the schema. -/
theorem ShownNamesSatisfy.of_resolveField {P : String → Prop} (names : schema.ShownNamesSatisfy P)
    (found : schema.resolveField table field = .ok resolved) : P resolved.column := by
  rcases resolveField_eq_ok.mp found with ⟨column, allowed, -, known, listed, rfl⟩ |
    ⟨key, column, rel, -, known, listed, rfl⟩
  · exact names.of_allowedFields? known listed
  · exact names.of_fieldsOf? listed

/-- The column and the key of a resolved reference are names of the schema. -/
theorem NamesSatisfy.of_resolveField {P : String → Prop} (names : schema.NamesSatisfy P)
    (found : schema.resolveField table field = .ok resolved) :
    P resolved.column ∧ ∀ key, resolved.key = some key → P key := by
  refine ⟨names.shown.of_resolveField found, ?_⟩
  rcases resolveField_eq_ok.mp found with ⟨column, allowed, parsed, known, listed, rfl⟩ |
    ⟨key, column, rel, parsed, known, listed, rfl⟩
  · simp
  · rintro _ ⟨⟩
    obtain ⟨declared, _, rfl⟩ := mem_of_relationship? known
    exact names.key rel declared

end Schema

end Reporting
