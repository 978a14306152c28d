import Mathlib.Data.List.Basic
import Mathlib.Data.List.Nodup
import Reporting.Join
import Reporting.Proofs.Schema.Names

/-!
# Walks along requirements come to an end

`Schema.ChainWalk` and `Schema.Adding` are the walks along `requires` without a bound on their
steps: the one that looks for a fault of a chain, with the steps that it takes, and the one that
adds a key to a plan behind everything it requires, with its calls and what it has come to. Over any
schema, accepted or not, every walk has one end and reaches it (`Schema.walks_end`). Each step but
the last visits a declared key for the first time, so the keys that are left (`Schema.unvisitedOf`)
bound the walk; and a bound on the steps that is no lower changes nothing.
-/

namespace Reporting

namespace Schema

/-- The walk along the chain of `start`, from a relationship with the keys seen so far: its steps
and the fault at its end. -/
inductive ChainWalk (schema : Schema) (start : String) :
    (seen : List String) → (current : Relationship) → (steps : Nat) → Option SchemaFault → Prop
  | free {seen : List String} {current : Relationship} (free : current.requires = none) :
      ChainWalk schema start seen current 0 none
  | dangling {seen : List String} {current : Relationship} {requirement : String}
      (required : current.requires = some requirement)
      (missing : schema.relationship? current.source requirement = none) :
      ChainWalk schema start seen current 1
        (some (.unknownRequirement current.source current.key requirement))
  | closed {seen : List String} {current next : Relationship} {requirement : String}
      (required : current.requires = some requirement)
      (found : schema.relationship? current.source requirement = some next)
      (again : next.key ∈ seen) :
      ChainWalk schema start seen current 1 (some (.requirementCycle current.source start))
  | onward {seen : List String} {current next : Relationship} {requirement : String} {steps : Nat}
      {fault : Option SchemaFault} (required : current.requires = some requirement)
      (found : schema.relationship? current.source requirement = some next)
      (fresh : next.key ∉ seen)
      (rest : ChainWalk schema start (next.key :: seen) next steps fault) :
      ChainWalk schema start seen current (steps + 1) fault

/-- What a plan has come to: the keys visited, the last one first, and the joins made. -/
structure Progress where
  visited : List String
  joins : List Relationship

/-- A relationship is joined when its requirement has been added, unless that failed. -/
def Progress.join (progress : Progress) (rel : Relationship) : Except Rejection Unit → Progress
  | .ok () => ⟨progress.visited, progress.joins ++ [rel]⟩
  | .error _ => progress

/-- Adding a key with everything it requires, one call for each key on the way: what has been come
to when the last call returns or fails. A key is marked before its requirement is added. -/
inductive Adding (schema : Schema) (table : String) :
    (key : String) → (before : Progress) → (calls : Nat) → (after : Progress) →
      Except Rejection Unit → Prop
  | skipped {key : String} {before : Progress} (marked : key ∈ before.visited) :
      Adding schema table key before 1 before (.ok ())
  | undeclared {key : String} {before : Progress} (fresh : key ∉ before.visited)
      (missing : schema.relationship? table key = none) :
      Adding schema table key before 1 before (.error (.undeclaredRequirement key table))
  | free {key : String} {before : Progress} {rel : Relationship} (fresh : key ∉ before.visited)
      (found : schema.relationship? table key = some rel) (free : rel.requires = none) :
      Adding schema table key before 1 (Progress.join ⟨key :: before.visited, before.joins⟩ rel
        (.ok ())) (.ok ())
  | behind {key requirement : String} {before after : Progress} {rel : Relationship} {calls : Nat}
      {outcome : Except Rejection Unit} (fresh : key ∉ before.visited)
      (found : schema.relationship? table key = some rel)
      (required : rel.requires = some requirement)
      (first : Adding schema table requirement ⟨key :: before.visited, before.joins⟩ calls after
        outcome) :
      Adding schema table key before (calls + 1) (after.join rel outcome) outcome

/-- Adding one key after another, up to the first that is refused. -/
inductive AddingAll (schema : Schema) (table : String) :
    (keys : List String) → (before after : Progress) → Except Rejection Unit → Prop
  | done {before : Progress} : AddingAll schema table [] before before (.ok ())
  | next {key : String} {keys : List String} {before between after : Progress} {calls : Nat}
      {outcome : Except Rejection Unit}
      (first : Adding schema table key before calls between (.ok ()))
      (rest : AddingAll schema table keys between after outcome) :
      AddingAll schema table (key :: keys) before after outcome
  | refused {key : String} {keys : List String} {before after : Progress} {calls : Nat}
      {rejection : Rejection}
      (first : Adding schema table key before calls after (.error rejection)) :
      AddingAll schema table (key :: keys) before after (.error rejection)

/-- No key has been visited twice or joined twice, and what is joined has been visited. -/
structure Progress.Orderly (progress : Progress) : Prop where
  visited_once : progress.visited.Nodup
  joined_once : (progress.joins.map (·.key)).Nodup
  joined_visited : progress.joins.map (·.key) ⊆ progress.visited

/-- The relationships of a table whose keys have not been visited. -/
def unvisitedOf (schema : Schema) (table : String) (visited : List String) : List Relationship :=
  (schema.relationshipsOf table).filter fun rel => !visited.contains rel.key

variable {schema : Schema} {table key : String}

/-- A table has no more new relationships than it has relationships. -/
theorem length_unvisitedOf_le (table : String) (visited : List String) :
    (schema.unvisitedOf table visited).length ≤ (schema.relationshipsOf table).length :=
  List.length_filter_le _ _

theorem length_relationshipsOf_le (table : String) :
    (schema.relationshipsOf table).length ≤ schema.relationships.length :=
  List.length_filter_le _ _

/-- With a declared key visited for the first time fewer are left. -/
theorem length_unvisitedOf_lt {visited : List String} {rel : Relationship}
    (declared : rel ∈ schema.relationshipsOf table) (fresh : rel.key ∉ visited) :
    (schema.unvisitedOf table (rel.key :: visited)).length <
      (schema.unvisitedOf table visited).length := by
  have fewer : schema.unvisitedOf table (rel.key :: visited) =
      (schema.unvisitedOf table visited).filter fun other => other.key != rel.key := by
    rw [unvisitedOf, unvisitedOf, List.filter_filter]
    refine List.filter_congr fun other _ => ?_
    rw [List.contains_cons, Bool.not_or]
    rfl
  rw [fewer, List.length_filter_lt_length_iff_exists]
  refine ⟨rel, List.mem_filter.mpr ⟨declared, ?_⟩, ?_⟩
  · simpa using fresh
  · simp

section ChainWalk

variable {start : String} {seen : List String} {current : Relationship}

/-- A walk ends within one step more than there are keys left. -/
theorem exists_chainWalk (start : String) (seen : List String) (current : Relationship) :
    ∃ steps fault, schema.ChainWalk start seen current steps fault ∧
      steps ≤ (schema.unvisitedOf current.source seen).length + 1 := by
  -- On the number of keys left.
  induction left : (schema.unvisitedOf current.source seen).length using Nat.strongRecOn
    generalizing seen current with
  | _ count ih =>
    cases required : current.requires with
    | none => exact ⟨0, none, .free required, Nat.zero_le _⟩
    | some requirement =>
        cases found : schema.relationship? current.source requirement with
        | none => exact ⟨1, _, .dangling required found, Nat.le_add_left 1 count⟩
        | some next =>
            by_cases again : next.key ∈ seen
            · exact ⟨1, _, .closed required found again, Nat.le_add_left 1 count⟩
            · obtain ⟨declared, source, -⟩ := mem_of_relationship? found
              have fewer := length_unvisitedOf_lt (mem_relationshipsOf.mpr ⟨declared, source⟩) again
              obtain ⟨steps, fault, rest, short⟩ := ih _ (left ▸ fewer) (next.key :: seen) next
                (by rw [source])
              exact ⟨steps + 1, fault, .onward required found again rest, by omega⟩

/-- Where a walk leads is found with any bound that is higher than the steps it takes. -/
theorem ChainWalk.chainFault?_eq {steps : Nat} {fault : Option SchemaFault}
    (walk : schema.ChainWalk start seen current steps fault) {budget : Nat}
    (enough : steps ≤ budget) : schema.chainFault? start (budget + 1) seen current = fault := by
  induction walk generalizing budget with
  | free free => simp only [chainFault?, free]
  | dangling required missing => simp only [chainFault?, required, missing]
  | closed required found again =>
      simp only [chainFault?, required, found, List.contains_iff_mem.mpr again, ↓reduceIte]
  | onward required found fresh rest ih =>
      obtain ⟨budget, rfl⟩ := Nat.exists_eq_add_one_of_ne_zero (Nat.ne_zero_of_lt enough)
      rw [← List.contains_iff_mem] at fresh
      rw [chainFault?]
      simp only [required, found, fresh, ih (Nat.le_of_succ_le_succ enough), Bool.false_eq_true,
        ↓reduceIte]

/-- A walk has one end. -/
theorem ChainWalk.unique {steps others : Nat} {fault other : Option SchemaFault}
    (walk : schema.ChainWalk start seen current steps fault)
    (walkToo : schema.ChainWalk start seen current others other) :
    others = steps ∧ other = fault := by
  induction walk generalizing others other with
  | free free => cases walkToo <;> simp_all
  | dangling required missing => cases walkToo <;> simp_all
  | closed required found again => cases walkToo <;> simp_all
  | onward required found fresh rest ih =>
      cases walkToo with
      | onward requiredToo foundToo _ restToo =>
          obtain rfl := Option.some.inj (required.symm.trans requiredToo)
          obtain rfl := Option.some.inj (found.symm.trans foundToo)
          obtain ⟨rfl, rfl⟩ := ih restToo
          exact ⟨rfl, rfl⟩
      | _ => simp_all

end ChainWalk

section Adding

variable {before after : Progress} {calls : Nat} {outcome : Except Rejection Unit}

/-- Adding a key ends within one call more than there are keys left. -/
theorem exists_adding (table key : String) (before : Progress) :
    ∃ calls after outcome, schema.Adding table key before calls after outcome ∧
      calls ≤ (schema.unvisitedOf table before.visited).length + 1 := by
  -- On the number of keys left.
  induction left : (schema.unvisitedOf table before.visited).length using Nat.strongRecOn
    generalizing key before with
  | _ count ih =>
    by_cases fresh : key ∈ before.visited
    · exact ⟨1, _, _, .skipped fresh, Nat.le_add_left 1 count⟩
    cases found : schema.relationship? table key with
    | none => exact ⟨1, _, _, .undeclared fresh found, Nat.le_add_left 1 count⟩
    | some rel =>
        cases required : rel.requires with
        | none => exact ⟨1, _, _, .free fresh found required, Nat.le_add_left 1 count⟩
        | some requirement =>
            obtain ⟨declared, source, rfl⟩ := mem_of_relationship? found
            have fewer := length_unvisitedOf_lt (mem_relationshipsOf.mpr ⟨declared, source⟩) fresh
            obtain ⟨calls, after, outcome, first, short⟩ := ih _ (left ▸ fewer) requirement
              ⟨rel.key :: before.visited, before.joins⟩ rfl
            exact ⟨calls + 1, _, _, .behind fresh found required first,
              Nat.succ_le_succ (short.trans (left ▸ fewer))⟩

/-- Adding a key has one end. -/
theorem Adding.unique {others : Nat} {afterToo : Progress} {other : Except Rejection Unit}
    (adding : schema.Adding table key before calls after outcome)
    (addingToo : schema.Adding table key before others afterToo other) :
    others = calls ∧ afterToo = after ∧ other = outcome := by
  induction adding generalizing others afterToo other with
  | skipped marked => cases addingToo <;> simp_all
  | undeclared fresh missing => cases addingToo <;> simp_all
  | free fresh found free => cases addingToo <;> simp_all
  | behind fresh found required first ih =>
      cases addingToo with
      | behind _ foundToo requiredToo firstToo =>
          obtain rfl := Option.some.inj (found.symm.trans foundToo)
          obtain rfl := Option.some.inj (required.symm.trans requiredToo)
          obtain ⟨rfl, rfl, rfl⟩ := ih firstToo
          exact ⟨rfl, rfl, rfl⟩
      | _ => simp_all

/-- Adding a key takes at most one call for each new relationship, and one more. -/
theorem Adding.calls_le (adding : schema.Adding table key before calls after outcome) :
    calls ≤ (schema.unvisitedOf table before.visited).length + 1 := by
  obtain ⟨others, _, _, addingToo, short⟩ := @exists_adding schema table key before
  obtain ⟨rfl, -, -⟩ := adding.unique addingToo
  exact short

/-- A key that is marked first is new too. -/
theorem new_concat {visited added : List String} (fresh : key ∉ visited) (nodup : added.Nodup)
    (new : added.Disjoint (key :: visited)) :
    (added ++ [key]).Nodup ∧ (added ++ [key]).Disjoint visited := by
  rw [List.disjoint_cons_right] at new
  constructor
  · exact List.concat_eq_append ▸ nodup.concat new.1
  · exact List.disjoint_append_left.mpr ⟨new.2, List.singleton_disjoint.mpr fresh⟩

/-- The keys that are visited on the way are new and differ. They are joined when the last call
returns; it fails at a key that is not declared, and then none is. -/
theorem Adding.grows (adding : schema.Adding table key before calls after outcome) :
    ∃ added appended, after = ⟨added ++ before.visited, before.joins ++ appended⟩ ∧ added.Nodup ∧
      added.Disjoint before.visited ∧
      (outcome = .ok () ∧ appended.map (·.key) = added ∨
        ∃ missing, outcome = .error (.undeclaredRequirement missing table) ∧
          schema.relationship? table missing = none ∧ appended = []) := by
  induction adding with
  | skipped marked =>
      exact ⟨[], [], by simp, .nil, List.disjoint_nil_left _, Or.inl ⟨rfl, rfl⟩⟩
  | undeclared fresh missing =>
      exact ⟨[], [], by simp, .nil, List.disjoint_nil_left _, Or.inr ⟨_, rfl, missing, rfl⟩⟩
  | @free key before rel fresh found free =>
      obtain ⟨-, -, rfl⟩ := mem_of_relationship? found
      exact ⟨[rel.key], [rel], rfl, List.nodup_singleton _, List.singleton_disjoint.mpr fresh,
        Or.inl ⟨rfl, rfl⟩⟩
  | @behind key requirement before after rel calls outcome fresh found required first ih =>
      obtain ⟨-, -, rfl⟩ := mem_of_relationship? found
      obtain ⟨added, appended, rfl, nodup, new, ends⟩ := ih
      obtain ⟨nodup, new⟩ := new_concat fresh nodup new
      obtain ⟨rfl, joined⟩ | ⟨missing, rfl, undeclared, rfl⟩ := ends
      · exact ⟨added ++ [rel.key], appended ++ [rel], by simp [Progress.join], nodup, new,
          Or.inl ⟨rfl, by simp [joined]⟩⟩
      · exact ⟨added ++ [rel.key], [], by simp [Progress.join], nodup, new,
          Or.inr ⟨missing, rfl, undeclared, rfl⟩⟩

/-- What a walk gives does not depend on the bound on its steps, if that is no lower than its calls,
nor on the order of the keys visited before. -/
theorem Adding.requirements_eq (adding : schema.Adding table key before calls after outcome)
    {appended : List Relationship} (joins : after.joins = before.joins ++ appended)
    {visited : List String} (same : ∀ other, other ∈ visited ↔ other ∈ before.visited)
    {budget : Nat} (enough : calls ≤ budget) :
    schema.requirements table budget visited key = outcome.map fun _ => appended := by
  induction adding generalizing visited budget appended with
  | skipped marked =>
      obtain ⟨budget, rfl⟩ := Nat.exists_eq_add_one_of_ne_zero (Nat.ne_zero_of_lt enough)
      obtain rfl := List.self_eq_append_right.mp joins
      rw [← same] at marked
      simp only [requirements, List.contains_iff_mem.mpr marked, ↓reduceIte, Except.map]
  | undeclared fresh missing =>
      obtain ⟨budget, rfl⟩ := Nat.exists_eq_add_one_of_ne_zero (Nat.ne_zero_of_lt enough)
      rw [← same, ← List.contains_iff_mem] at fresh
      simp only [requirements, fresh, Bool.false_eq_true, ↓reduceIte, missing, Except.map]
  | free fresh found free =>
      obtain ⟨budget, rfl⟩ := Nat.exists_eq_add_one_of_ne_zero (Nat.ne_zero_of_lt enough)
      obtain rfl := List.append_cancel_left joins
      rw [← same, ← List.contains_iff_mem] at fresh
      simp only [requirements, fresh, Bool.false_eq_true, ↓reduceIte, found, free, Except.map]
  | @behind key requirement before after rel calls outcome fresh found required first ih =>
      obtain ⟨budget, rfl⟩ := Nat.exists_eq_add_one_of_ne_zero (Nat.ne_zero_of_lt enough)
      obtain ⟨added, front, rfl, -, -, ends⟩ := first.grows
      have sameToo : ∀ other, other ∈ key :: visited ↔ other ∈ key :: before.visited := by
        simp [same]
      have walked := ih rfl sameToo (Nat.le_of_succ_le_succ enough)
      rw [← same, ← List.contains_iff_mem] at fresh
      obtain ⟨rfl, -⟩ | ⟨missing, rfl, -, -⟩ := ends
      · rw [Progress.join, List.append_assoc] at joins
        obtain rfl := List.append_cancel_left joins
        simp only [requirements, fresh, Bool.false_eq_true, ↓reduceIte, found, required, walked,
          Except.map]
      · simp only [requirements, fresh, Bool.false_eq_true, ↓reduceIte, found, required, walked,
          Except.map]

/-- The calls of a walk are covered by the steps that plans allow. -/
theorem Adding.calls_le_length (adding : schema.Adding table key before calls after outcome) :
    calls ≤ schema.relationships.length + 1 :=
  adding.calls_le.trans (Nat.succ_le_succ
    ((length_unvisitedOf_le table before.visited).trans (length_relationshipsOf_le table)))

/-- Nothing is visited or joined twice. -/
theorem Adding.orderly (adding : schema.Adding table key before calls after outcome)
    (orderly : before.Orderly) : after.Orderly := by
  obtain ⟨added, appended, rfl, nodup, new, ends⟩ := adding.grows
  have within : appended.map (·.key) ⊆ added ∧ (appended.map (·.key)).Nodup := by
    obtain ⟨-, joined⟩ | ⟨-, -, -, rfl⟩ := ends
    · rw [joined]
      exact ⟨List.Subset.refl added, nodup⟩
    · exact ⟨List.nil_subset added, .nil⟩
  constructor
  · exact nodup.append orderly.visited_once new
  · rw [List.map_append]
    refine orderly.joined_once.append within.2 fun other joined behind => ?_
    exact new (within.1 behind) (orderly.joined_visited joined)
  · rw [List.map_append]
    exact List.append_subset.mpr ⟨List.subset_append_of_subset_right _ orderly.joined_visited,
      List.subset_append_of_subset_left _ within.1⟩

end Adding

section AddingAll

variable {keys : List String} {before after : Progress} {outcome : Except Rejection Unit}

/-- Adding keys one after another always comes to an end. -/
theorem exists_addingAll (table : String) (keys : List String) (before : Progress) :
    ∃ after outcome, schema.AddingAll table keys before after outcome := by
  induction keys generalizing before with
  | nil => exact ⟨before, _, .done⟩
  | cons key keys ih =>
      obtain ⟨calls, between, outcome, first, -⟩ := @exists_adding schema table key before
      cases outcome with
      | error => exact ⟨between, _, .refused first⟩
      | ok =>
          obtain ⟨after, outcome, rest⟩ := ih between
          exact ⟨after, outcome, .next first rest⟩

/-- Adding keys has one end. -/
theorem AddingAll.unique {afterToo : Progress} {other : Except Rejection Unit}
    (adding : schema.AddingAll table keys before after outcome)
    (addingToo : schema.AddingAll table keys before afterToo other) :
    afterToo = after ∧ other = outcome := by
  induction adding with
  | done =>
      cases addingToo
      exact ⟨rfl, rfl⟩
  | next first rest ih =>
      cases addingToo with
      | next firstToo restToo =>
          obtain ⟨-, rfl, -⟩ := first.unique firstToo
          exact ih restToo
      | refused firstToo => cases (first.unique firstToo).2.2
  | refused first =>
      cases addingToo with
      | next firstToo restToo => cases (first.unique firstToo).2.2
      | refused firstToo => exact (first.unique firstToo).2

/-- It keeps the progress orderly. -/
theorem AddingAll.orderly (adding : schema.AddingAll table keys before after outcome)
    (orderly : before.Orderly) : after.Orderly := by
  induction adding with
  | done => exact orderly
  | next first rest ih => exact ih (first.orderly orderly)
  | refused first => exact first.orderly orderly

/-- The joins of a plan are the ones come to, if just the keys that are joined have been visited. -/
theorem AddingAll.joinsFor_eq (adding : schema.AddingAll table keys before after outcome)
    (same : ∀ key, key ∈ before.joins.map (·.key) ↔ key ∈ before.visited) :
    schema.joinsFor table before.joins keys = outcome.map fun _ => after.joins := by
  induction adding with
  | done => rfl
  | next first rest ih =>
      obtain ⟨added, appended, rfl, -, -, ⟨-, joined⟩ | ⟨_, failed, _⟩⟩ := first.grows
      · rw [joinsFor, first.requirements_eq rfl same first.calls_le_length]
        refine ih fun key => ?_
        rw [List.map_append, joined, List.mem_append, same, List.mem_append, or_comm]
      · cases failed
  | refused first =>
      obtain ⟨added, appended, rfl, -⟩ := first.grows
      rw [joinsFor, first.requirements_eq rfl same first.calls_le_length]
      rfl

end AddingAll

/-- Over any schema the walk along the chain of a relationship has one end, and reaches it in no
more steps than its source table has relationships. Adding a key to a plan has one end as well: the
last call returns or fails at a key that is not declared, after at most one call more than there are
declared keys that have not been visited. Each key is visited at most once on the way, and at most
once joined. The bounds on the steps of the functions are never met, so these find the ends. -/
theorem walks_end (schema : Schema) :
    (∀ rel ∈ schema.relationships, ∃ steps fault,
      (∀ others other, schema.ChainWalk rel.key [rel.key] rel others other ↔
        others = steps ∧ other = fault) ∧
      steps ≤ (schema.relationshipsOf rel.source).length ∧
      schema.chainFault? rel.key (schema.relationships.length + 1) [rel.key] rel = fault) ∧
    (∀ table key before, ∃ calls added appended outcome,
      (∀ others after other, schema.Adding table key before others after other ↔
        others = calls ∧ after = ⟨added ++ before.visited, before.joins ++ appended⟩ ∧
          other = outcome) ∧
      calls ≤ (schema.unvisitedOf table before.visited).length + 1 ∧
      added.Nodup ∧ added.Disjoint before.visited ∧
      (outcome = .ok () ∧ appended.map (·.key) = added ∨
        ∃ missing, outcome = .error (.undeclaredRequirement missing table) ∧
          schema.relationship? table missing = none ∧ appended = []) ∧
      (before.Orderly →
        Progress.Orderly ⟨added ++ before.visited, before.joins ++ appended⟩) ∧
      schema.requirements table (schema.relationships.length + 1) before.visited key =
        outcome.map fun _ => appended) ∧
    ∀ table keys, ∃ after outcome,
      (∀ afterToo other, schema.AddingAll table keys ⟨[], []⟩ afterToo other ↔
        afterToo = after ∧ other = outcome) ∧
      after.Orderly ∧ schema.joinsFor table [] keys = outcome.map fun _ => after.joins := by
  refine ⟨fun rel declared => ?_, fun table key before => ?_, fun table keys => ?_⟩
  · obtain ⟨steps, fault, walk, short⟩ := @exists_chainWalk schema rel.key [rel.key] rel
    -- The walk starts with its own key seen.
    have own := length_unvisitedOf_lt (mem_relationshipsOf.mpr ⟨declared, rfl⟩)
      (List.not_mem_nil (a := rel.key))
    have most := own.trans_le (length_unvisitedOf_le rel.source [])
    have all := @length_relationshipsOf_le schema rel.source
    refine ⟨steps, fault, fun others other => ⟨walk.unique, ?_⟩, by omega,
      walk.chainFault?_eq (by omega)⟩
    rintro ⟨rfl, rfl⟩
    exact walk
  · obtain ⟨calls, after, outcome, adding, short⟩ := @exists_adding schema table key before
    obtain ⟨added, appended, rfl, nodup, new, ends⟩ := adding.grows
    refine ⟨calls, added, appended, outcome, fun others after other => ⟨adding.unique, ?_⟩, short,
      nodup, new, ends, adding.orderly,
      adding.requirements_eq rfl (fun _ => Iff.rfl) adding.calls_le_length⟩
    rintro ⟨rfl, rfl, rfl⟩
    exact adding
  · obtain ⟨after, outcome, adding⟩ := @exists_addingAll schema table keys ⟨[], []⟩
    have orderly : Progress.Orderly ⟨[], []⟩ := ⟨.nil, .nil, List.nil_subset _⟩
    refine ⟨after, outcome, fun afterToo other => ⟨adding.unique, ?_⟩, adding.orderly orderly,
      adding.joinsFor_eq fun _ => Iff.rfl⟩
    rintro ⟨rfl, rfl⟩
    exact adding

/-- A relationship with what it requires. -/
def requiring (key : String) (requirement : Option String) : Relationship where
  source := "t"
  key := key
  target := "t"
  reference := key
  predicate := "t.id = t.id"
  requires := requirement

/-- A chain into a cycle that leaves its start out, a key that requires itself and one that requires
nothing declared. -/
def tangled : Schema where
  tables := [("t", { name := "t", fields := ["id"] })]
  relationships := [requiring "a" (some "b"), requiring "b" (some "c"), requiring "c" (some "b"),
    requiring "d" (some "d"), requiring "e" (some "x")]

/-- The walks of a tangled schema end: in the cycle, with each key of it joined once, and at the key
that is not declared. -/
theorem walks_end_tangled :
    (∃ steps ≤ 5, tangled.ChainWalk "a" ["a"] (requiring "a" (some "b")) steps
        (some (.requirementCycle "t" "a"))) ∧
      (∃ calls ≤ 6, ∃ after, tangled.Adding "t" "a" ⟨[], []⟩ calls after (.ok ()) ∧
        after.joins.map (·.key) = ["c", "b", "a"]) ∧
      ∃ after, after.Orderly ∧ tangled.AddingAll "t" ["a", "d", "e"] ⟨[], []⟩ after
        (.error (.undeclaredRequirement "x" "t")) := by
  obtain ⟨chains, addings, plans⟩ := walks_end tangled
  refine ⟨?_, ?_, ?_⟩
  · obtain ⟨steps, fault, only, short, found⟩ := chains (requiring "a" (some "b")) (by decide)
    have cycle : fault = some (.requirementCycle "t" "a") := found.symm.trans rfl
    exact ⟨steps, short, (only _ _).mpr ⟨rfl, cycle.symm⟩⟩
  · obtain ⟨calls, added, appended, outcome, only, short, -, -, -, -, found⟩ :=
      addings "t" "a" ⟨[], []⟩
    have joins : tangled.requirements "t" 6 [] "a" =
        .ok [requiring "c" (some "b"), requiring "b" (some "c"), requiring "a" (some "b")] := rfl
    obtain ⟨_, ended, rfl⟩ := Outcome.map_eq_ok.mp (found.symm.trans joins)
    exact ⟨calls, short, _, (only _ _ _).mpr ⟨rfl, rfl, ended.symm⟩, rfl⟩
  · obtain ⟨after, outcome, only, orderly, found⟩ := plans "t" ["a", "d", "e"]
    have refused : tangled.joinsFor "t" [] ["a", "d", "e"] =
        .error (.undeclaredRequirement "x" "t") := rfl
    have failed := Outcome.map_eq_error.mp (found.symm.trans refused)
    exact ⟨after, orderly, (only _ _).mpr ⟨rfl, failed.symm⟩⟩

end Schema

end Reporting
