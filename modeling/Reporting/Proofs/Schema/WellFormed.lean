import Mathlib.Data.List.Nodup
import Mathlib.Data.List.Perm.Subperm
import Mathlib.Logic.Relation
import Reporting.Proofs.Field.Located
import Reporting.Proofs.Join.Requirements

/-!
# Well-formed schemas

`Schema.WellFormed` says what tables and relationships that fit together are like, in whichever
order the relationships stand, and `SchemaFault.Holds` what a fault says about them. Building goes
through the relationships one by one and then walks every chain of requirements. A fault that it
names is there (`holds_of_build`), and where it names none the schema is well formed
(`Accepted.wellFormed`), so exactly the well-formed schemas are built, in any order of their
relationships (`build_decides`).
-/

namespace Reporting

namespace Schema

/-- Letters, digits, underscores, points, equals signs and white space, at least one of them. -/
def IsJoinPredicate (predicate : String) : Prop :=
  predicate ≠ "" ∧ ∀ c ∈ predicate.toList,
    Sql.isNameChar c = true ∨ c = '.' ∨ c = '=' ∨ Text.isBlank c = true

/-- The graph of requirements: the relationship with the first source and key requires the second
one. -/
inductive Requires (relationships : List Relationship) : String × String → String × String → Prop
  | edge {rel : Relationship} {requirement : String} (declared : rel ∈ relationships)
      (required : rel.requires = some requirement) :
      Requires relationships (rel.source, rel.key) (rel.source, requirement)

/-- Tables and relationships that fit together. -/
structure WellFormed (tables : List (String × Table)) (relationships : List Relationship) :
    Prop where
  source_known : ∀ rel ∈ relationships, rel.source ∈ tables.map (·.1)
  target_known : ∀ rel ∈ relationships, rel.target ∈ tables.map (·.1)
  predicate_vetted : ∀ rel ∈ relationships, IsJoinPredicate rel.predicate
  keys_apart : (relationships.map fun rel => (rel.source, rel.key)).Nodup
  reference_bound : ∀ rel ∈ relationships, ∀ other ∈ relationships,
    rel.reference = other.reference → rel.target = other.target
  references_apart : (relationships.map fun rel => (rel.source, rel.reference)).Nodup
  reference_ne_source : ∀ rel ∈ relationships, rel.reference ≠ rel.source
  requirement_declared : ∀ rel ∈ relationships, ∀ requirement, rel.requires = some requirement →
    ∃ other ∈ relationships, other.source = rel.source ∧ other.key = requirement
  acyclic : ∀ key, ¬ Relation.TransGen (Requires relationships) key key

end Schema

open Schema in
/-- What a fault says about tables and relationships. -/
def SchemaFault.Holds (tables : List (String × Table)) (relationships : List Relationship) :
    SchemaFault → Prop
  | .unknownSource key source =>
    source ∉ tables.map (·.1) ∧ ∃ rel ∈ relationships, rel.source = source ∧ rel.key = key
  | .unknownTarget source key target =>
    target ∉ tables.map (·.1) ∧
      ∃ rel ∈ relationships, rel.source = source ∧ rel.key = key ∧ rel.target = target
  | .invalidPredicate source key predicate =>
    ¬ IsJoinPredicate predicate ∧
      ∃ rel ∈ relationships, rel.source = source ∧ rel.key = key ∧ rel.predicate = predicate
  | .duplicateRelationship source key =>
    ∃ first second, [first, second].Sublist relationships ∧
      (first.source = source ∧ first.key = key) ∧ second.source = source ∧ second.key = key
  | .ambiguousReference reference bound target =>
    bound ≠ target ∧ ∃ first ∈ relationships, ∃ second ∈ relationships,
      (first.reference = reference ∧ first.target = bound) ∧
        second.reference = reference ∧ second.target = target
  | .collidingReference reference source =>
    (reference = source ∧
        ∃ rel ∈ relationships, rel.source = source ∧ rel.reference = reference) ∨
      ∃ first second, [first, second].Sublist relationships ∧
        (first.source = source ∧ first.reference = reference) ∧
          second.source = source ∧ second.reference = reference
  | .unknownRequirement source key requirement =>
    (∃ rel ∈ relationships, rel.source = source ∧ rel.key = key ∧
        rel.requires = some requirement) ∧
      ∀ other ∈ relationships, other.source = source → other.key ≠ requirement
  | .requirementCycle source key =>
    ∃ inside, Relation.ReflTransGen (Requires relationships) (source, key) inside ∧
      Relation.TransGen (Requires relationships) inside inside

namespace Schema

/-- The test of predicates accepts just the predicates. -/
theorem isPredicate_iff {predicate : String} :
    isPredicate predicate = true ↔ IsJoinPredicate predicate := by
  simp only [isPredicate, isPredicateChar, IsJoinPredicate, Bool.and_eq_true, Bool.not_eq_true',
    List.isEmpty_eq_false_iff, ne_eq, String.toList_eq_nil_iff, List.all_eq_true, Bool.or_eq_true,
    beq_iff_eq, or_assoc]

/-- A table is found by just the keys of the list. -/
theorem lookup_isSome_iff {tables : List (String × Table)} {key : String} :
    (tables.lookup key).isSome = true ↔ key ∈ tables.map (·.1) := by
  simp only [List.lookup_isSome_iff, List.mem_map, beq_iff_eq]
  constructor
  · rintro ⟨entry, member, same⟩
    exact ⟨entry, member, same.symm⟩
  · rintro ⟨entry, member, same⟩
    exact ⟨entry, member, same.symm⟩

section Faults

variable {tables : List (String × Table)} {relationships : List Relationship} {fault : SchemaFault}

/-- An earlier relationship stands before a later one. -/
theorem pair_sublist {earlier later : List Relationship} {first second : Relationship}
    (member : first ∈ earlier) : [first, second].Sublist (earlier ++ second :: later) :=
  (List.singleton_sublist.mpr member).append
    (List.singleton_sublist.mpr (List.mem_cons_self (l := later)))

/-- A fault of a relationship against those before it holds, whatever follows. -/
theorem holds_of_relationshipFault? {earlier later : List Relationship} {rel : Relationship}
    (found : relationshipFault? tables earlier rel = some fault) :
    fault.Holds tables (earlier ++ rel :: later) := by
  have member : rel ∈ earlier ++ rel :: later := List.mem_append_right _ List.mem_cons_self
  have unknown {key : String} (missing : (!(tables.lookup key).isSome) = true) :
      key ∉ tables.map (·.1) := by
    intro known
    rw [lookup_isSome_iff.mpr known] at missing
    exact absurd missing Bool.false_ne_true
  simp only [relationshipFault?] at found
  split at found
  next missing =>
    cases found
    exact ⟨unknown missing, rel, member, rfl, rfl⟩
  split at found
  next missing =>
    cases found
    exact ⟨unknown missing, rel, member, rfl, rfl, rfl⟩
  split at found
  next refused =>
    cases found
    refine ⟨?_, rel, member, rfl, rfl, rfl⟩
    rw [← isPredicate_iff]
    simpa using refused
  split at found
  next taken =>
    cases found
    obtain ⟨other, before, same⟩ := List.any_eq_true.mp taken
    simp only [Bool.and_eq_true, beq_iff_eq] at same
    exact ⟨other, rel, pair_sublist before, same, rfl, rfl⟩
  split at found
  next differs =>
    cases found
    rw [bne_iff_ne] at differs
    refine ⟨differs, ?_⟩
    cases bound : earlier.find? (·.reference == rel.reference) with
    | none =>
        rw [bound] at differs
        exact absurd rfl differs
    | some other =>
        have same := List.find?_some bound
        exact ⟨other, List.mem_append_left _ (List.mem_of_find?_eq_some bound), rel, member,
          ⟨beq_iff_eq.mp same, rfl⟩, rfl, rfl⟩
  split at found
  next collides =>
    cases found
    rw [Bool.or_eq_true, beq_iff_eq] at collides
    rcases collides with own | taken
    · exact Or.inl ⟨own, rel, member, rfl, rfl⟩
    · obtain ⟨other, before, same⟩ := List.any_eq_true.mp taken
      simp only [Bool.and_eq_true, beq_iff_eq] at same
      exact Or.inr ⟨other, rel, pair_sublist before, same, rfl, rfl⟩
  next => cases found

/-- The fault that is found first holds. -/
theorem holds_of_firstFault? {earlier : List Relationship}
    (found : firstFault? tables earlier relationships = some fault) :
    fault.Holds tables (earlier ++ relationships) := by
  induction relationships generalizing earlier with
  | nil => cases found
  | cons rel rest ih =>
      rw [firstFault?] at found
      split at found
      next own first =>
        cases found
        exact holds_of_relationshipFault? first
      next =>
        have behind := ih found
        rwa [List.append_assoc, List.singleton_append] at behind

/-- Keys without repetition that belong to relationships are no more than these. -/
theorem length_le_of_nodup {seen : List String} (nodup : seen.Nodup)
    (declared : seen ⊆ relationships.map (·.key)) : seen.length ≤ relationships.length := by
  have fits := (List.subperm_of_subset nodup declared).length_le
  rwa [List.length_map] at fits

/-- A fault of a walk holds. The walk has come from each key that it has seen, and it has steps left
for all keys that it has not. -/
theorem holds_of_chainFault? {start : String} {steps : Nat} {seen : List String}
    {current : Relationship}
    (found : chainFault? ⟨tables, relationships⟩ start steps seen current = some fault)
    (member : current ∈ relationships) (started : start ∈ seen)
    (reached : ∀ key ∈ seen, Relation.ReflTransGen (Requires relationships)
      (current.source, key) (current.source, current.key))
    (nodup : seen.Nodup) (declared : seen ⊆ relationships.map (·.key))
    (enough : relationships.length < steps + seen.length) :
    fault.Holds tables relationships := by
  induction steps generalizing seen current with
  | zero =>
      have most := length_le_of_nodup nodup declared
      omega
  | succ steps ih =>
      rw [chainFault?] at found
      split at found
      next => cases found
      next requirement required =>
        have edge : Requires relationships (current.source, current.key)
            (current.source, requirement) := .edge member required
        split at found
        next missing =>
          cases found
          refine ⟨⟨current, member, rfl, rfl, required⟩, ?_⟩
          rintro other inside source rfl
          have unmatched := List.find?_eq_none.mp missing other inside
          simp only [source, beq_self_eq_true, Bool.and_self, not_true_eq_false] at unmatched
        next next present =>
          obtain ⟨inside, source, rfl⟩ := mem_of_relationship? present
          split at found
          next again =>
            cases found
            rw [List.contains_iff_mem] at again
            exact ⟨(current.source, next.key), (reached start started).tail edge,
              .tail' (reached next.key again) edge⟩
          next fresh =>
            rw [List.contains_iff_mem] at fresh
            refine ih found inside (List.mem_cons_of_mem _ started) ?_
              (List.nodup_cons.mpr ⟨fresh, nodup⟩) ?_ ?_
            · intro key earlier
              rw [source]
              rcases List.mem_cons.mp earlier with rfl | before
              · exact .refl
              · exact (reached key before).tail edge
            · exact List.cons_subset.mpr ⟨List.mem_map_of_mem inside, declared⟩
            · rw [List.length_cons]
              omega

/-- A fault of the requirements that is found holds. -/
theorem holds_of_requirementFault?
    (found : requirementFault? ⟨tables, relationships⟩ = some fault) :
    fault.Holds tables relationships := by
  obtain ⟨rel, member, walked⟩ := List.exists_of_findSome?_eq_some found
  refine holds_of_chainFault? walked member (List.mem_singleton_self _) ?_ (List.nodup_singleton _)
    ?_ (by rw [List.length_singleton]; exact Nat.lt_add_right 1 (Nat.lt_succ_self _))
  · intro key own
    rw [List.mem_singleton.mp own]
  · exact List.cons_subset.mpr ⟨List.mem_map_of_mem member, List.nil_subset _⟩

/-- The fault that building names is there. -/
theorem holds_of_build (refused : build tables relationships = .error fault) :
    fault.Holds tables relationships := by
  unfold build at refused
  split at refused
  next found =>
    cases refused
    exact holds_of_firstFault? found
  next =>
    split at refused
    next found =>
      cases refused
      exact holds_of_requirementFault? found
    next => cases refused

/-- Two relationships of one source table that share a name. -/
theorem not_nodup_of_sublist {first second : Relationship} {name : Relationship → String}
    (pair : [first, second].Sublist relationships) (source : first.source = second.source)
    (same : name first = name second) :
    ¬ (relationships.map fun rel => (rel.source, name rel)).Nodup := by
  intro nodup
  have both := pair.map fun rel => (rel.source, name rel)
  rw [List.map_cons, List.map_cons, source, same] at both
  exact List.nodup_iff_sublist.mp nodup _ both

/-- Nothing that a fault says is true of a well-formed schema. -/
theorem WellFormed.not_holds (formed : WellFormed tables relationships) :
    ¬ fault.Holds tables relationships := by
  intro holds
  cases fault with
  | unknownSource key source =>
      obtain ⟨missing, rel, member, rfl, -⟩ := holds
      exact missing (formed.source_known rel member)
  | unknownTarget source key target =>
      obtain ⟨missing, rel, member, -, -, rfl⟩ := holds
      exact missing (formed.target_known rel member)
  | invalidPredicate source key predicate =>
      obtain ⟨refused, rel, member, -, -, rfl⟩ := holds
      exact refused (formed.predicate_vetted rel member)
  | duplicateRelationship source key =>
      obtain ⟨first, second, pair, ⟨rfl, rfl⟩, sameSource, sameKey⟩ := holds
      exact not_nodup_of_sublist pair sameSource.symm sameKey.symm formed.keys_apart
  | ambiguousReference reference bound target =>
      obtain ⟨differs, first, member, second, memberToo, ⟨rfl, rfl⟩, same, rfl⟩ := holds
      exact differs (formed.reference_bound first member second memberToo same.symm)
  | collidingReference reference source =>
      rcases holds with ⟨rfl, rel, member, own, same⟩ | ⟨first, second, pair, ⟨rfl, rfl⟩, own, same⟩
      · exact formed.reference_ne_source rel member (same.trans own.symm)
      · exact not_nodup_of_sublist pair own.symm same.symm formed.references_apart
  | unknownRequirement source key requirement =>
      obtain ⟨⟨rel, member, rfl, -, required⟩, undeclared⟩ := holds
      obtain ⟨other, inside, same, named⟩ := formed.requirement_declared rel member _ required
      exact undeclared other inside same named
  | requirementCycle source key =>
      obtain ⟨inside, -, cycle⟩ := holds
      exact formed.acyclic inside cycle

end Faults

section Accepted

variable {schema : Schema}

/-- What holds between every item and those before it holds pairwise. -/
theorem pairwise_of_splits {α : Type} {R : α → α → Prop} {items : List α}
    (each : ∀ before item after, items = before ++ item :: after → ∀ other ∈ before, R other item) :
    items.Pairwise R := by
  induction items with
  | nil => exact .nil
  | cons head rest ih =>
      refine .cons ?_ (ih ?_)
      · intro item member
        obtain ⟨before, after, split⟩ := List.append_of_mem member
        exact each (head :: before) item after (by rw [split, List.cons_append]) head
          List.mem_cons_self
      · intro before item after split other member
        exact each (head :: before) item after (by rw [split, List.cons_append]) other
          (List.mem_cons_of_mem head member)

/-- A name that is new in every relationship tells those of one source table apart. -/
theorem Accepted.nodup_of_new (accepted : schema.Accepted) {name : Relationship → String}
    (new : ∀ {before : List Relationship} {rel : Relationship}, Fits schema.tables before rel →
      ∀ other ∈ before, other.source = rel.source → name other ≠ name rel) :
    (schema.relationships.map fun rel => (rel.source, name rel)).Nodup := by
  rw [List.Nodup, List.pairwise_map]
  apply pairwise_of_splits
  intro before rel after split other member same
  obtain ⟨source, named⟩ := Prod.mk.inj same
  exact new (accepted.fits split) other member source named

/-- What is required has a shorter chain. -/
theorem Accepted.exists_shorter (accepted : schema.Accepted) {first second : String × String}
    (edge : Requires schema.relationships first second) {chain : List Relationship}
    (chained : schema.RequirementChain first.1 first.2 chain) :
    ∃ rest, rest.length < chain.length ∧ schema.RequirementChain second.1 second.2 rest := by
  cases edge with
  | @edge rel requirement declared required =>
      have known := accepted.relationship?_eq declared
      cases chained with
      | last found free =>
          rw [Option.some.inj (known.symm.trans found), free] at required
          cases required
      | more found requiredToo behind =>
          rw [Option.some.inj (known.symm.trans found), requiredToo] at required
          cases required
          exact ⟨_, Nat.lt_succ_self _, behind⟩

/-- Along requirements the chain of requirements gets shorter, so there is no way around in a
circle. -/
theorem Accepted.exists_shorter_of_transGen (accepted : schema.Accepted)
    {first second : String × String}
    (path : Relation.TransGen (Requires schema.relationships) first second)
    {chain : List Relationship} (chained : schema.RequirementChain first.1 first.2 chain) :
    ∃ rest, rest.length < chain.length ∧ schema.RequirementChain second.1 second.2 rest := by
  induction path with
  | single edge => exact accepted.exists_shorter edge chained
  | tail _ edge ih =>
      obtain ⟨middle, short, chainedToo⟩ := ih
      obtain ⟨rest, shorter, behind⟩ := accepted.exists_shorter edge chainedToo
      exact ⟨rest, Nat.lt_trans shorter short, behind⟩

/-- A chain ends, so it does not come back to its start. -/
theorem Accepted.not_cycle_of_chain (accepted : schema.Accepted) {key : String × String}
    {chain : List Relationship} (chained : schema.RequirementChain key.1 key.2 chain) :
    ¬ Relation.TransGen (Requires schema.relationships) key key := by
  intro cycle
  induction length : chain.length using Nat.strongRecOn generalizing chain with
  | ind n ih =>
      subst length
      obtain ⟨rest, shorter, again⟩ := accepted.exists_shorter_of_transGen cycle chained
      exact ih rest.length shorter again rfl

/-- An accepted schema is well formed. -/
theorem Accepted.wellFormed (accepted : schema.Accepted) :
    WellFormed schema.tables schema.relationships where
  source_known rel member := by
    obtain ⟨before, fits⟩ := accepted.exists_fits member
    exact lookup_isSome_iff.mp fits.source_known
  target_known rel member := by
    obtain ⟨before, fits⟩ := accepted.exists_fits member
    exact lookup_isSome_iff.mp fits.target_known
  predicate_vetted rel member := isPredicate_iff.mp (accepted.isPredicate member)
  keys_apart := accepted.nodup_of_new Fits.key_new
  reference_bound rel member other memberToo same := by
    have bound := accepted.referenceTarget?_eq member
    rw [same, accepted.referenceTarget?_eq memberToo] at bound
    exact (Option.some.inj bound).symm
  references_apart := accepted.nodup_of_new Fits.reference_new
  reference_ne_source rel member := accepted.reference_ne_source member
  requirement_declared rel member requirement required := by
    obtain ⟨chain, chained, -⟩ := accepted.exists_chain (accepted.relationship?_eq member)
    obtain ⟨rest, -, behind⟩ := accepted.exists_shorter (.edge member required) chained
    obtain ⟨other, found⟩ : ∃ other, schema.relationship? rel.source requirement = some other := by
      cases behind with
      | last found _ => exact ⟨_, found⟩
      | more found _ _ => exact ⟨_, found⟩
    exact ⟨other, mem_of_relationship? found⟩
  acyclic key cycle := by
    obtain ⟨_, edge, -⟩ := Relation.TransGen.head'_iff.mp cycle
    cases edge with
    | edge declared required =>
        obtain ⟨chain, chained, -⟩ := accepted.exists_chain (accepted.relationship?_eq declared)
        exact accepted.not_cycle_of_chain chained cycle

end Accepted

variable {tables : List (String × Table)} {relationships : List Relationship}

/-- Exactly the well-formed schemas are built. -/
theorem build_eq_ok_iff_wellFormed {schema : Schema} :
    build tables relationships = .ok schema ↔
      schema = ⟨tables, relationships⟩ ∧ WellFormed tables relationships := by
  cases outcome : build tables relationships with
  | error fault =>
      simp only [reduceCtorEq, false_iff, not_and]
      exact fun _ formed => formed.not_holds (holds_of_build outcome)
  | ok built =>
      obtain ⟨-, -, rfl⟩ := build_eq_ok.mp outcome
      have formed := (accepted_of_build outcome).wellFormed
      simp only [Except.ok.injEq, formed, and_true, eq_comm]

/-- The order of the relationships does not matter. -/
theorem WellFormed.perm {others : List Relationship} (formed : WellFormed tables relationships)
    (same : others.Perm relationships) : WellFormed tables others where
  source_known rel member := formed.source_known rel (same.mem_iff.mp member)
  target_known rel member := formed.target_known rel (same.mem_iff.mp member)
  predicate_vetted rel member := formed.predicate_vetted rel (same.mem_iff.mp member)
  keys_apart := (same.map _).nodup_iff.mpr formed.keys_apart
  reference_bound rel member other memberToo :=
    formed.reference_bound rel (same.mem_iff.mp member) other (same.mem_iff.mp memberToo)
  references_apart := (same.map _).nodup_iff.mpr formed.references_apart
  reference_ne_source rel member := formed.reference_ne_source rel (same.mem_iff.mp member)
  requirement_declared rel member requirement required := by
    obtain ⟨other, inside, named⟩ :=
      formed.requirement_declared rel (same.mem_iff.mp member) requirement required
    exact ⟨other, same.mem_iff.mpr inside, named⟩
  acyclic key cycle := by
    have fewer : Requires others ≤ Requires relationships := by
      rintro _ _ ⟨declared, required⟩
      exact .edge (same.mem_iff.mp declared) required
    exact formed.acyclic key (Relation.TransGen.mono fewer key key cycle)

/-- Building gives the schema where it is well formed. Otherwise it names a fault, and what the
fault says holds. Whether a schema is built does not depend on the order of its relationships. -/
theorem build_decides (tables : List (String × Table)) (relationships : List Relationship) :
    (∀ schema, build tables relationships = .ok schema ↔
        schema = ⟨tables, relationships⟩ ∧ WellFormed tables relationships) ∧
      ((∃ fault, build tables relationships = .error fault) ↔
        ¬ WellFormed tables relationships) ∧
      (∀ fault, build tables relationships = .error fault → fault.Holds tables relationships) ∧
      ∀ others : List Relationship, others.Perm relationships →
        ((∃ schema, build tables others = .ok schema) ↔
          ∃ schema, build tables relationships = .ok schema) := by
  refine ⟨fun schema => build_eq_ok_iff_wellFormed, ?_, fun fault => holds_of_build, ?_⟩
  · constructor
    · rintro ⟨fault, refused⟩ formed
      exact formed.not_holds (holds_of_build refused)
    · intro misformed
      cases outcome : build tables relationships with
      | error fault => exact ⟨fault, rfl⟩
      | ok schema => exact absurd (build_eq_ok_iff_wellFormed.mp outcome).2 misformed
  · intro others same
    simp only [build_eq_ok_iff_wellFormed, exists_eq_left]
    exact ⟨fun formed => formed.perm same.symm, fun formed => formed.perm same⟩

end Schema

end Reporting
