import Reporting.Catalog
import Reporting.Proofs.Field.Located
import Reporting.Proofs.Join.Plan

/-!
# What the catalogue offers

The catalogue of a table offers its own columns and, behind each of its relationships, the columns
of the related table as `key.column` (`AvailableFields.Offers`). Over an accepted schema whose names
can be told apart in references, these are exactly the references that resolve, each to the table
reference that it is offered with; and there is no catalogue for just those tables from which no
joins can be planned (`Schema.Accepted.availableFields_exact`).
-/

namespace Reporting

/-- A name that can stand on either side of a point: it is not empty and has no point. -/
def IsPart (name : String) : Prop := name ≠ "" ∧ '.' ∉ name.toList

instance : DecidablePred IsPart := fun _ => inferInstanceAs (Decidable (_ ∧ _))

/-- The outcome is a rejection of a family. -/
def Refused {α : Type} (code : String) (outcome : Except Rejection α) : Prop :=
  ∃ rejection, outcome = .error rejection ∧ rejection.code = code

/-- What the catalogue offers as a reference, and the table reference that goes with it. -/
inductive AvailableFields.Offers (available : AvailableFields) : String → String → Prop where
  | own {field : String} (listed : field ∈ available.dimensions) :
      Offers available field available.table
  | related {entry : RelatedFields} {column : String} (known : entry ∈ available.related)
      (listed : column ∈ entry.fields) :
      Offers available (entry.key ++ "." ++ column) entry.reference

namespace Schema

/-- Table keys, columns and relationship keys can be told apart in references. -/
structure Referable (schema : Schema) : Prop where
  tableKey : ∀ entry ∈ schema.tables, IsPart entry.1
  column : ∀ entry ∈ schema.tables, ∀ field ∈ entry.2.fields, IsPart field
  key : ∀ rel ∈ schema.relationships, IsPart rel.key

instance (schema : Schema) : Decidable schema.Referable :=
  decidable_of_iff
    ((∀ entry ∈ schema.tables, IsPart entry.1) ∧
      (∀ entry ∈ schema.tables, ∀ field ∈ entry.2.fields, IsPart field) ∧
      (∀ rel ∈ schema.relationships, IsPart rel.key))
    ⟨fun ⟨tableKey, column, key⟩ => ⟨tableKey, column, key⟩,
      fun ⟨tableKey, column, key⟩ => ⟨tableKey, column, key⟩⟩

variable {schema : Schema} {table : String}

namespace Referable

variable (referable : schema.Referable)

include referable

/-- In a schema whose parts can be referred to no table has the empty name. -/
theorem keyed : ∀ entry ∈ schema.tables, entry.1 ≠ "" :=
  fun entry member => (referable.tableKey entry member).1

/-- A column of a known table can stand behind the point of a reference. -/
theorem of_table? {key column : String} {home : Table} (known : schema.table? key = some home)
    (listed : column ∈ home.fields) : IsPart column :=
  referable.column _ (mem_of_table? known) column listed

/-- The key of a relationship and a column of a table make a reference. -/
theorem isPair {rel : Relationship} (declared : rel ∈ schema.relationships) {key column : String}
    {home : Table} (known : schema.table? key = some home) (listed : column ∈ home.fields) :
    FieldReference.IsPair (rel.key ++ "." ++ column) rel.key column where
  joined := rfl
  key_ne := (referable.key rel declared).1
  column_ne := (referable.of_table? known listed).1
  key_bare := (referable.key rel declared).2
  column_bare := (referable.of_table? known listed).2

end Referable

/-- There is a catalogue of just the reportable tables. -/
theorem availableFields_eq_ok {available : AvailableFields} :
    schema.availableFields table = .ok available ↔
      ∃ home, schema.table? table = some home ∧ home.reportable = true ∧
        available = ⟨table, home.fields, home.fields.filter home.numericFields.contains,
          (schema.relationshipsOf table).map schema.relatedFields⟩ := by
  unfold availableFields
  cases known : schema.table? table with
  | none => simp only [reduceCtorEq, false_and, exists_false]
  | some home =>
      simp only [Option.some.injEq, exists_eq_left']
      split
      next reportable => rw [Except.ok.injEq, eq_comm, and_iff_right reportable]
      next other => simp only [reduceCtorEq, other, false_and]

/-- Without a catalogue, the table is reported as unknown. -/
theorem availableFields_of_unavailable (unavailable : schema.isReportable table = false) :
    schema.availableFields table = .error (.unknownSource table none) := by
  rw [isReportable] at unavailable
  rw [availableFields]
  cases known : schema.table? table with
  | none => rfl
  | some home =>
      rw [known, Option.any_some] at unavailable
      simp only [unavailable, Bool.false_eq_true, ↓reduceIte]

/-- Without a reportable source there is no plan, whatever the fields are. -/
theorem planJoins_of_unavailable (unavailable : schema.isReportable table = false)
    (fields : List String) :
    schema.planJoins table fields = .error (.unknownSource table none) := by
  rw [planJoins, unavailable]
  rfl

namespace Accepted

variable (accepted : schema.Accepted) (referable : schema.Referable)

include accepted referable

/-- The columns listed behind a relationship are those of its target, which go by its reference. -/
theorem exists_related {rel : Relationship} (declared : rel ∈ schema.relationships) :
    ∃ home, schema.table? rel.target = some home ∧
      schema.referencedTable? rel.reference = some home ∧
      schema.relatedFields rel = ⟨rel.key, rel.target, rel.reference, home.fields⟩ := by
  obtain ⟨home, known, behind⟩ := accepted.exists_referencedTable? referable.keyed declared
  refine ⟨home, known, behind, ?_⟩
  rw [relatedFields, allowedFields?, known, Option.map_some, Option.getD_some]

/-- A reference resolves to a table reference exactly where the catalogue offers it with that. -/
theorem resolves_iff_offers {available : AvailableFields}
    (listed : schema.availableFields table = .ok available) {field reference : String} :
    (∃ resolved, schema.resolveField table field = .ok resolved ∧
        resolved.reference = reference) ↔ available.Offers field reference := by
  obtain ⟨home, known, -, rfl⟩ := availableFields_eq_ok.mp listed
  constructor
  · rintro ⟨resolved, found, rfl⟩
    rcases resolveField_eq_ok.mp found with ⟨column, allowed, parsed, isAllowed, member, rfl⟩ |
      ⟨key, column, rel, parsed, isRelated, member, rfl⟩
    · obtain ⟨-, rfl⟩ := FieldReference.parse_eq_column_iff.mp parsed
      rw [allowedFields?, known] at isAllowed
      cases isAllowed
      exact .own member
    · have joined := (FieldReference.parse_eq_related_iff.mp parsed).joined
      obtain ⟨declared, source, rfl⟩ := mem_of_relationship? isRelated
      obtain ⟨target, -, behind, entry⟩ := accepted.exists_related referable declared
      rw [fieldsOf?, behind, Option.map_some, Option.getD_some] at member
      have isEntry : schema.relatedFields rel ∈
          (schema.relationshipsOf table).map schema.relatedFields :=
        List.mem_map_of_mem (mem_relationshipsOf.mpr ⟨declared, source⟩)
      have columns : column ∈ (schema.relatedFields rel).fields := by rwa [entry]
      rw [joined]
      exact AvailableFields.Offers.related isEntry columns
  · intro offers
    cases offers with
    | own member =>
        have bare := FieldReference.parse_eq_column_iff.mpr
          ⟨(referable.of_table? known member).2, rfl⟩
        have allowed : schema.allowedFields? table = some home.fields := by
          rw [allowedFields?, known, Option.map_some]
        exact ⟨_, resolveField_eq_ok.mpr (Or.inl ⟨field, _, bare, allowed, member, rfl⟩), rfl⟩
    | @related _ column isEntry member =>
        obtain ⟨rel, isRelated, rfl⟩ := List.mem_map.mp isEntry
        obtain ⟨declared, rfl⟩ := mem_relationshipsOf.mp isRelated
        obtain ⟨target, isTarget, behind, entry⟩ := accepted.exists_related referable declared
        rw [entry] at member ⊢
        have pair := FieldReference.parse_eq_related_iff.mpr
          (referable.isPair declared isTarget member)
        have columns : column ∈ (schema.fieldsOf? rel.reference).getD [] := by
          rw [fieldsOf?, behind]
          exact member
        exact ⟨_, resolveField_eq_ok.mpr (Or.inr ⟨rel.key, column, rel, pair,
          accepted.relationship?_eq declared, columns, rfl⟩), rfl⟩

end Accepted

/-- There is no catalogue of a table, which is then unknown, just where no joins can be planned for
it. Otherwise the catalogue offers exactly the references that resolve, with what they resolve
to. -/
theorem Accepted.availableFields_exact (accepted : schema.Accepted) (referable : schema.Referable)
    (table : String) :
    (Refused "UnknownTable" (schema.availableFields table) ↔
      ∀ fields, Refused "UnknownTable" (schema.planJoins table fields)) ∧
    (¬ Refused "UnknownTable" (schema.availableFields table) →
      ∃ available, schema.availableFields table = .ok available ∧ available.table = table ∧
        ∀ field reference,
          (∃ resolved, schema.resolveField table field = .ok resolved ∧
            resolved.reference = reference) ↔ available.Offers field reference) := by
  cases reportable : schema.isReportable table with
  | false =>
      have refused : Refused "UnknownTable" (schema.availableFields table) :=
        ⟨_, availableFields_of_unavailable reportable, rfl⟩
      refine ⟨?_, fun other => absurd refused other⟩
      exact iff_of_true refused fun fields => ⟨_, planJoins_of_unavailable reportable fields, rfl⟩
  | true =>
      obtain ⟨home, known, isReportable⟩ := (Option.any_eq_true _ _).mp reportable
      have offered := availableFields_eq_ok.mpr ⟨home, known, isReportable, rfl⟩
      constructor
      · refine iff_of_false ?_ ?_
        · rintro ⟨rejection, refused, -⟩
          rw [offered] at refused
          cases refused
        · intro refused
          obtain ⟨plan, planned⟩ := accepted.exists_planJoins reportable
            (fun field (member : field ∈ []) => absurd member List.not_mem_nil)
          obtain ⟨rejection, refused, -⟩ := refused []
          rw [planned] at refused
          cases refused
      · intro _
        exact ⟨_, offered, rfl, fun _ _ => accepted.resolves_iff_offers referable offered⟩

/-- The tables, keys and columns of the shipped schema can all be referred to. -/
theorem rewards_referable : rewards.Referable := by decide +kernel

/-- Products can only be joined: they have no catalogue, and orders offer them by the reference that
line items use for them too. -/
theorem rewards_offers_of_orders :
    rewards.Accepted ∧ rewards.Referable ∧
      (∀ fields, Refused "UnknownTable" (rewards.planJoins "products" fields)) ∧
      ∃ available, rewards.availableFields "orders" = .ok available ∧
        available.Offers "product.name" "products" ∧ ¬ ∃ reference,
          available.Offers "product.price" reference := by
  have unavailable : Refused "UnknownTable" (rewards.availableFields "products") :=
    ⟨.unknownSource "products" none, rfl, rfl⟩
  have listed : ¬ Refused "UnknownTable" (rewards.availableFields "orders") := by
    rintro ⟨rejection, refused, -⟩
    cases refused
  obtain ⟨planned, -⟩ := rewards_accepted.availableFields_exact rewards_referable "products"
  obtain ⟨-, offers⟩ := rewards_accepted.availableFields_exact rewards_referable "orders"
  obtain ⟨available, offered, -, exact⟩ := offers listed
  have name : rewards.resolveField "orders" "product.name" =
      .ok ⟨"product.name", some "product", "products", "name", false⟩ := rfl
  have price : rewards.resolveField "orders" "product.price" =
      .error (.foreignRelatedColumn "product.price" "price" "products") := rfl
  refine ⟨rewards_accepted, rewards_referable, planned.mp unavailable, available, offered,
    (exact _ _).mp ⟨_, name, rfl⟩, ?_⟩
  rintro ⟨reference, offers⟩
  obtain ⟨resolved, found, -⟩ := (exact _ _).mpr offers
  rw [price] at found
  cases found

end Schema

end Reporting
