import Mathlib.Data.List.Basic
import Reporting.Join
import Reporting.Proofs.Schema.Names

/-!
# Chains of requirements

A relationship, the one it requires, the one that requires in turn and so on are a
`RequirementChain`. Over an accepted schema every declared key has one, which repeats no key and is
no longer than the walks allow (`Accepted.exists_chain`). `Schema.requirements` gives the part of a
chain in front of the first key that is visited already, last things first (`requirements_eq`).
-/

namespace Reporting.Schema

/-- The relationship of a key, followed by those that it needs, each behind the one requiring it. -/
inductive RequirementChain (schema : Schema) (table : String) : String → List Relationship → Prop
  | last {key : String} {rel : Relationship} (found : schema.relationship? table key = some rel)
      (free : rel.requires = none) : RequirementChain schema table key [rel]
  | more {key next : String} {rel : Relationship} {rest : List Relationship}
      (found : schema.relationship? table key = some rel) (required : rel.requires = some next)
      (behind : RequirementChain schema table next rest) :
      RequirementChain schema table key (rel :: rest)

variable {schema : Schema} {table : String}

/-- A walk without a fault has gone along a chain: it has taken no more steps than allowed and met
no key that it had seen. -/
theorem exists_chain_of_chainFault? {start : String} {steps : Nat} {seen : List String}
    {rel : Relationship} (walked : chainFault? schema start steps seen rel = none)
    (declared : schema.relationship? rel.source rel.key = some rel) (started : rel.key ∈ seen) :
    ∃ rest, schema.RequirementChain rel.source rel.key (rel :: rest) ∧ rest.length < steps ∧
      ((rel :: rest).map (·.key)).Nodup ∧ ∀ other ∈ rest, other.key ∉ seen := by
  induction steps generalizing seen rel with
  | zero => simp [chainFault?] at walked
  | succ steps ih =>
      unfold chainFault? at walked
      split at walked
      next free =>
        exact ⟨[], .last declared free, Nat.succ_pos steps, by simp, by simp⟩
      next requirement required =>
        split at walked
        · exact absurd walked (by simp)
        next next found =>
          split at walked
          · exact absurd walked (by simp)
          next unseen =>
            obtain ⟨_, source, key⟩ := mem_of_relationship? found
            rw [List.contains_iff_mem] at unseen
            have known : schema.relationship? next.source next.key = some next := by
              rw [source, key, found]
            obtain ⟨rest, chained, short, nodup, apart⟩ := ih walked known List.mem_cons_self
            rw [source, key] at chained
            refine ⟨next :: rest, .more declared required chained, Nat.succ_lt_succ short, ?_, ?_⟩
            · rw [List.map_cons, List.nodup_cons]
              refine ⟨?_, nodup⟩
              intro repeated
              obtain ⟨other, member, same⟩ := List.mem_map.mp repeated
              rcases List.mem_cons.mp member with rfl | behind
              · exact unseen (same ▸ started)
              · exact apart other behind (List.mem_cons_of_mem _ (same ▸ started))
            · intro other member
              rcases List.mem_cons.mp member with rfl | behind
              · exact unseen
              · exact fun before => apart other behind (List.mem_cons_of_mem _ before)

/-- Every declared key of an accepted schema has a chain. -/
theorem Accepted.exists_chain (accepted : schema.Accepted) {key : String} {rel : Relationship}
    (found : schema.relationship? table key = some rel) :
    ∃ chain, schema.RequirementChain table key chain ∧
      chain.length ≤ schema.relationships.length + 1 ∧ (chain.map (·.key)).Nodup := by
  obtain ⟨declared, rfl, rfl⟩ := mem_of_relationship? found
  have free := (build_eq_ok.mp accepted).2.1
  rw [requirementFault?, List.findSome?_eq_none_iff] at free
  obtain ⟨rest, chained, short, nodup, _⟩ :=
    exists_chain_of_chainFault? (free rel declared) found List.mem_cons_self
  exact ⟨rel :: rest, chained, short, nodup⟩

/-- The part of a chain in front of the first key that is visited already. -/
def unvisited (visited : List String) (chain : List Relationship) : List Relationship :=
  chain.takeWhile fun rel => !visited.contains rel.key

/-- A chain that starts with a visited key has no part in front of it. -/
theorem unvisited_cons_of_mem {visited : List String} {rel : Relationship}
    (rest : List Relationship) (member : rel.key ∈ visited) :
    unvisited visited (rel :: rest) = [] := by
  simp [unvisited, member]

/-- A chain that starts with a new key goes on behind it. -/
theorem unvisited_cons_of_not_mem {visited : List String} {rel : Relationship}
    (rest : List Relationship) (fresh : rel.key ∉ visited) :
    unvisited visited (rel :: rest) = rel :: unvisited visited rest := by
  simp [unvisited, fresh]

/-- Visiting a key that is not on the chain changes nothing. -/
theorem unvisited_visit {visited : List String} {key : String} {chain : List Relationship}
    (apart : key ∉ chain.map (·.key)) :
    unvisited (key :: visited) chain = unvisited visited chain := by
  induction chain with
  | nil => rfl
  | cons rel rest ih =>
      rw [List.map_cons, List.mem_cons, not_or] at apart
      by_cases before : rel.key ∈ visited
      · rw [unvisited_cons_of_mem rest before,
          unvisited_cons_of_mem rest (List.mem_cons_of_mem key before)]
      · have fresh : rel.key ∉ key :: visited := by
          rw [List.mem_cons, not_or]
          exact ⟨Ne.symm apart.1, before⟩
        rw [unvisited_cons_of_not_mem rest fresh, unvisited_cons_of_not_mem rest before,
          ih apart.2]

/-- The requirements of a key are the unvisited part of its chain, last things first. -/
theorem requirements_eq {key : String} {chain : List Relationship}
    (chained : schema.RequirementChain table key chain) {steps : Nat}
    (enough : chain.length ≤ steps) (nodup : (chain.map (·.key)).Nodup) (visited : List String) :
    schema.requirements table steps visited key = .ok (unvisited visited chain).reverse := by
  induction chained generalizing steps visited with
  | @last key rel found free =>
      obtain ⟨_, _, rfl⟩ := mem_of_relationship? found
      cases steps with
      | zero => exact absurd enough (by simp)
      | succ steps =>
          by_cases before : rel.key ∈ visited
          · simp [requirements, before, unvisited_cons_of_mem]
          · simp [requirements, before, found, free, unvisited]
  | @more key next rel rest found required behind ih =>
      obtain ⟨_, _, rfl⟩ := mem_of_relationship? found
      rw [List.map_cons, List.nodup_cons] at nodup
      cases steps with
      | zero => exact absurd enough (by simp)
      | succ steps =>
          by_cases before : rel.key ∈ visited
          · simp [requirements, before, unvisited_cons_of_mem]
          · have walked := ih (Nat.le_of_succ_le_succ enough) nodup.2 (rel.key :: visited)
            rw [unvisited_visit nodup.1] at walked
            simp [requirements, before, found, required, walked, unvisited_cons_of_not_mem]

end Reporting.Schema
