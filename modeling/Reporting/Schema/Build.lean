import Reporting.Schema
import Reporting.Text.Quoted
import Reporting.Sql.Name

/-!
# Building schemas

`Schema.build` accepts tables and relationships that fit together and names the first fault of
those that do not. Relationships are checked one by one against those before them: both tables are
known, the join predicate holds nothing but column references and equalities, the key is new, and
the reference is neither bound to another table nor taken within the source table. Then every chain
of requirements is walked to its end.
-/

namespace Reporting

inductive SchemaFault where
  | unknownSource (key source : String)
  | unknownTarget (source key target : String)
  | invalidPredicate (source key predicate : String)
  | duplicateRelationship (source key : String)
  | ambiguousReference (reference bound target : String)
  | collidingReference (reference source : String)
  | unknownRequirement (source key requirement : String)
  | requirementCycle (source key : String)
  deriving DecidableEq

def SchemaFault.message : SchemaFault → String
  | .unknownSource key source =>
    "Relationship '" ++ key ++ "' declared on unknown table '" ++ source ++ "'"
  | .unknownTarget source key target =>
    "Relationship '" ++ source ++ "." ++ key ++ "' targets unknown table '" ++ target ++ "'"
  | .invalidPredicate source key predicate =>
    "Relationship '" ++ source ++ "." ++ key ++ "' has an invalid join predicate: " ++
      Text.quoted predicate
  | .duplicateRelationship source key => "Duplicate relationship '" ++ source ++ "." ++ key ++ "'"
  | .ambiguousReference reference bound target =>
    "Alias '" ++ reference ++ "' is bound to both '" ++ bound ++ "' and '" ++ target ++ "'"
  | .collidingReference reference source =>
    "Alias '" ++ reference ++ "' collides within table '" ++ source ++ "'"
  | .unknownRequirement source key requirement =>
    "Relationship '" ++ source ++ "." ++ key ++ "' requires unknown relationship '" ++
      requirement ++ "'"
  | .requirementCycle source key =>
    "Cycle in requires chain starting at '" ++ source ++ "." ++ key ++ "'"

namespace Schema

/-- May the character stand in a join predicate? -/
def isPredicateChar (c : Char) : Bool :=
  Sql.isNameChar c || c == '.' || c == '=' || Text.isBlank c

/-- Column references and equalities only, and not empty. -/
def isPredicate (predicate : String) : Bool :=
  !predicate.toList.isEmpty && predicate.toList.all isPredicateChar

/-- The first fault of a relationship against the ones declared before it. -/
def relationshipFault? (tables : List (String × Table)) (earlier : List Relationship)
    (rel : Relationship) : Option SchemaFault :=
  let known (key : String) : Bool := (tables.lookup key).isSome
  let bound :=
    ((earlier.find? (·.reference == rel.reference)).map (·.target)).getD rel.target
  if !known rel.source then some (.unknownSource rel.key rel.source)
  else if !known rel.target then some (.unknownTarget rel.source rel.key rel.target)
  else if !isPredicate rel.predicate then
    some (.invalidPredicate rel.source rel.key rel.predicate)
  else if earlier.any fun other => other.source == rel.source && other.key == rel.key then
    some (.duplicateRelationship rel.source rel.key)
  else if bound != rel.target then some (.ambiguousReference rel.reference bound rel.target)
  else if rel.reference == rel.source || earlier.any fun other =>
      other.source == rel.source && other.reference == rel.reference then
    some (.collidingReference rel.reference rel.source)
  else none

/-- The first fault among relationships that follow the given ones. -/
def firstFault? (tables : List (String × Table)) (earlier : List Relationship) :
    List Relationship → Option SchemaFault
  | [] => none
  | rel :: rest =>
    match relationshipFault? tables earlier rel with
    | some fault => some fault
    | none => firstFault? tables (earlier ++ [rel]) rest

/-- Walks a chain of requirements from a relationship whose keys so far are `seen`. The walk visits
each relationship at most once, so as many steps as there are relationships always reach its end;
`steps` bounds them. -/
def chainFault? (schema : Schema) (start : String) :
    (steps : Nat) → (seen : List String) → Relationship → Option SchemaFault
  | 0, _, current => some (.requirementCycle current.source start)
  | steps + 1, seen, current =>
    match current.requires with
    | none => none
    | some requirement =>
      match schema.relationship? current.source requirement with
      | none => some (.unknownRequirement current.source current.key requirement)
      | some next =>
        if seen.contains next.key then some (.requirementCycle current.source start)
        else chainFault? schema start steps (next.key :: seen) next

/-- The first fault among the chains of requirements. -/
def requirementFault? (schema : Schema) : Option SchemaFault :=
  schema.relationships.findSome? fun rel =>
    chainFault? schema rel.key (schema.relationships.length + 1) [rel.key] rel

/-- Tables by key: a key that is repeated keeps its first place and takes the last table. -/
def keyed (declared : List (String × Table)) : List (String × Table) :=
  declared.foldl
    (fun tables entry =>
      if tables.any (·.1 == entry.1) then
        tables.map fun other => if other.1 == entry.1 then entry else other
      else tables ++ [entry])
    []

/-- The schema of tables and relationships that fit together, or their first fault. -/
def build (tables : List (String × Table)) (relationships : List Relationship) :
    Except SchemaFault Schema :=
  match firstFault? tables [] relationships with
  | some fault => .error fault
  | none =>
    match requirementFault? ⟨tables, relationships⟩ with
    | some fault => .error fault
    | none => .ok ⟨tables, relationships⟩

end Schema

end Reporting
