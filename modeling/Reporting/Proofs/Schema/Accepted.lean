import Mathlib.Data.List.Basic
import Reporting.Proofs.Outcome
import Reporting.Schema.Build

/-!
# Accepted schemas

A schema is `Accepted` when `Schema.build` makes it of its own tables and relationships. Each of its
relationships then fits the ones declared before it (`Accepted.fits`): both tables are known, the
join predicate is vetted, and key and reference are not taken.
-/

namespace Reporting.Schema

/-- Building from the tables and relationships of the schema gives it back. -/
def Accepted (schema : Schema) : Prop :=
  build schema.tables schema.relationships = .ok schema

/-- What holds of a relationship without a fault against those declared before it. -/
structure Fits (tables : List (String × Table)) (earlier : List Relationship)
    (rel : Relationship) : Prop where
  source_known : (tables.lookup rel.source).isSome = true
  target_known : (tables.lookup rel.target).isSome = true
  predicate_vetted : isPredicate rel.predicate = true
  key_new : ∀ other ∈ earlier, other.source = rel.source → other.key ≠ rel.key
  bound_alike : ((earlier.find? (·.reference == rel.reference)).map (·.target)).getD rel.target =
    rel.target
  reference_ne_source : rel.reference ≠ rel.source
  reference_new : ∀ other ∈ earlier, other.source = rel.source → other.reference ≠ rel.reference

theorem ite_some_eq_none {faulty : Prop} [Decidable faulty] {fault : SchemaFault}
    {rest : Option SchemaFault} :
    (if faulty then some fault else rest) = none ↔ ¬ faulty ∧ rest = none := by
  by_cases met : faulty
  · simp [met]
  · simp [met]

/-- A relationship has no fault iff it fits. -/
theorem relationshipFault?_eq_none_iff {tables : List (String × Table)}
    {earlier : List Relationship} {rel : Relationship} :
    relationshipFault? tables earlier rel = none ↔ Fits tables earlier rel := by
  simp only [relationshipFault?, ite_some_eq_none, Bool.not_eq_true', Bool.not_eq_false,
    bne_iff_ne, ne_eq, not_not, Bool.or_eq_true, beq_iff_eq, List.any_eq_true, Bool.and_eq_true,
    not_or, not_exists, not_and, and_true]
  constructor
  · rintro ⟨source, target, predicate, key, bound, reference, sibling⟩
    exact ⟨source, target, predicate, key, bound, reference, sibling⟩
  · rintro ⟨source, target, predicate, key, bound, reference, sibling⟩
    exact ⟨source, target, predicate, key, bound, reference, sibling⟩

/-- A schema is built iff no relationship is at fault and no requirement is, and it holds what it
was built from. -/
theorem build_eq_ok {tables : List (String × Table)} {relationships : List Relationship}
    {schema : Schema} :
    build tables relationships = .ok schema ↔
      firstFault? tables [] relationships = none ∧
        requirementFault? ⟨tables, relationships⟩ = none ∧ schema = ⟨tables, relationships⟩ := by
  unfold build
  split
  next fault found => simp [found]
  next declared =>
    split
    next fault found => simp [found]
    next required => simp [declared, required, eq_comm]

/-- What is built is accepted. -/
theorem accepted_of_build {tables : List (String × Table)} {relationships : List Relationship}
    {schema : Schema} (built : build tables relationships = .ok schema) : schema.Accepted := by
  obtain ⟨declared, required, rfl⟩ := build_eq_ok.mp built
  exact built

/-- Relationships that follow one another without a fault. -/
theorem fits_of_firstFault? {tables : List (String × Table)}
    {earlier before after : List Relationship} {rel : Relationship}
    (declared : firstFault? tables earlier (before ++ rel :: after) = none) :
    Fits tables (earlier ++ before) rel := by
  induction before generalizing earlier with
  | nil =>
      simp only [List.nil_append, firstFault?] at declared
      split at declared
      · exact absurd declared (by simp)
      next fits => simpa using relationshipFault?_eq_none_iff.mp fits
  | cons first before ih =>
      simp only [List.cons_append, firstFault?] at declared
      split at declared
      · exact absurd declared (by simp)
      · simpa using ih declared

namespace Accepted

variable {schema : Schema} (accepted : schema.Accepted)

include accepted

/-- Every relationship of an accepted schema fits those before it. -/
theorem fits {before after : List Relationship} {rel : Relationship}
    (split : schema.relationships = before ++ rel :: after) : Fits schema.tables before rel := by
  have declared := (build_eq_ok.mp accepted).1
  rw [split] at declared
  simpa using fits_of_firstFault? declared

/-- Every relationship fits what stands before it somewhere in the schema. -/
theorem exists_fits {rel : Relationship} (member : rel ∈ schema.relationships) :
    ∃ before, Fits schema.tables before rel := by
  obtain ⟨before, after, split⟩ := List.append_of_mem member
  exact ⟨before, accepted.fits split⟩

/-- A name that is new in every relationship tells those of one source table apart. -/
theorem eq_of_new {name : Relationship → String}
    (new : ∀ {before : List Relationship} {rel : Relationship}, Fits schema.tables before rel →
      ∀ other ∈ before, other.source = rel.source → name other ≠ name rel)
    {rel other : Relationship} (declared : rel ∈ schema.relationships)
    (declaredToo : other ∈ schema.relationships) (source : rel.source = other.source)
    (same : name rel = name other) : rel = other := by
  obtain ⟨before, after, split⟩ := List.append_of_mem declared
  rw [split, List.mem_append, List.mem_cons] at declaredToo
  rcases declaredToo with earlier | rfl | later
  · exact absurd same.symm (new (accepted.fits split) other earlier source.symm)
  · rfl
  · obtain ⟨between, rest, rfl⟩ := List.append_of_mem later
    have splitLater : schema.relationships = (before ++ rel :: between) ++ other :: rest := by
      rw [split, List.append_assoc, List.cons_append]
    exact absurd same (new (accepted.fits splitLater) rel (by simp) source)

/-- Two relationships of one source table do not share a key. -/
theorem eq_of_key {rel other : Relationship} (declared : rel ∈ schema.relationships)
    (declaredToo : other ∈ schema.relationships) (source : rel.source = other.source)
    (key : rel.key = other.key) : rel = other :=
  accepted.eq_of_new Fits.key_new declared declaredToo source key

/-- Two relationships of one source table do not share a reference. -/
theorem eq_of_reference {rel other : Relationship} (declared : rel ∈ schema.relationships)
    (declaredToo : other ∈ schema.relationships) (source : rel.source = other.source)
    (reference : rel.reference = other.reference) : rel = other :=
  accepted.eq_of_new Fits.reference_new declared declaredToo source reference

/-- The target of a relationship is a table of the schema. -/
theorem exists_target {rel : Relationship} (member : rel ∈ schema.relationships) :
    ∃ table, schema.table? rel.target = some table := by
  obtain ⟨before, fits⟩ := accepted.exists_fits member
  exact Option.isSome_iff_exists.mp fits.target_known

/-- The predicates of an accepted schema are predicates. -/
theorem isPredicate {rel : Relationship} (member : rel ∈ schema.relationships) :
    isPredicate rel.predicate = true := by
  obtain ⟨before, fits⟩ := accepted.exists_fits member
  exact fits.predicate_vetted

/-- No relationship is entered under the name of its own source. -/
theorem reference_ne_source {rel : Relationship} (member : rel ∈ schema.relationships) :
    rel.reference ≠ rel.source := by
  obtain ⟨before, fits⟩ := accepted.exists_fits member
  exact fits.reference_ne_source

/-- A reference stands for one table, whichever relationship introduces it. -/
theorem referenceTarget?_eq {rel : Relationship} (member : rel ∈ schema.relationships) :
    schema.referenceTarget? rel.reference = some rel.target := by
  obtain ⟨before, after, split⟩ := List.append_of_mem member
  have alike := (accepted.fits split).bound_alike
  rw [referenceTarget?, split, List.find?_append]
  cases first : before.find? (·.reference == rel.reference) with
  | none => simp only [Option.none_or, List.find?_cons, beq_self_eq_true, Option.map_some]
  | some other =>
      rw [first, Option.map_some, Option.getD_some] at alike
      rw [Option.some_or, Option.map_some, alike]

end Accepted

end Reporting.Schema
