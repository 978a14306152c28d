import Reporting.Field

/-!
# Join plans

A `JoinPlan` lists the relationships that a report needs, each after the one it requires. Keys are
visited in sorted order and every relationship is taken once, so the plan depends only on which
relationships are referenced.
-/

namespace Reporting

/-- The source table and the joins of a report in the order in which they are made. -/
structure JoinPlan where
  base : String
  joins : List Relationship
  deriving DecidableEq

def JoinPlan.keys (plan : JoinPlan) : List String := plan.joins.map (·.key)

namespace Schema

variable (schema : Schema)

/-- The relationships to join for a key: what it requires, first things first, then itself.
Keys in `visited` are joined already or being joined; every step adds a key to them, so as many
steps as there are relationships suffice. The steps stand for the stack, as the depth of a JSON text
does (`Json.Limits`). -/
def requirements (table : String) :
    (steps : Nat) → (visited : List String) → (key : String) →
      Except Rejection (List Relationship)
  | 0, _, _ => .ok []
  | steps + 1, visited, key =>
    if visited.contains key then .ok []
    else
      match schema.relationship? table key with
      | none => .error (.undeclaredRequirement key table)
      | some rel =>
        match rel.requires with
        | none => .ok [rel]
        | some requirement =>
          match requirements table steps (key :: visited) requirement with
          | .error rejection => .error rejection
          | .ok before => .ok (before ++ [rel])

def joinsFor (table : String) (joins : List Relationship) :
    List String → Except Rejection (List Relationship)
  | [] => .ok joins
  | key :: rest =>
    match schema.requirements table (schema.relationships.length + 1) (joins.map (·.key)) key with
    | .error rejection => .error rejection
    | .ok added => joinsFor table (joins ++ added) rest

/-- The relationship keys that a list of field references uses, in the order of the list. -/
def referencedKeys (table : String) : List String → Except Rejection (List String)
  | [] => .ok []
  | field :: rest => do
    let resolved ← schema.resolveField table field
    let keys ← referencedKeys table rest
    return resolved.key.toList ++ keys

def sortedKeys (keys : List String) : List String :=
  keys.eraseDups.mergeSort fun a b => decide (a ≤ b)

def planJoins (table : String) (fields : List String) : Except Rejection JoinPlan := do
  if !schema.isReportable table then throw (.unknownSource table none)
  let keys ← schema.referencedKeys table fields
  let joins ← schema.joinsFor table [] (sortedKeys keys)
  return ⟨table, joins⟩

end Schema

end Reporting
