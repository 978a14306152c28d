import Reporting.Json.Canonical
import Reporting.Report.Reading

/-!
# Cache keys

The key of a report on a table is the canonical text of both, so that it does not depend on how the
report was written. A report has no key where a value of its filters is nested too deep, or where an
integer is too long to be written.
-/

namespace Reporting

mutual

/-- The number of values on the longest way from a value to one inside it, itself included. -/
def Value.depth : Value → Nat
  | .null | .scalar _ => 1
  | .list items => depthOfItems items + 1
  | .object members => depthOfMembers members + 1

def Value.depthOfItems : List Value → Nat
  | [] => 0
  | item :: rest => max item.depth (depthOfItems rest)

def Value.depthOfMembers : List (String × Value) → Nat
  | [] => 0
  | (_, value) :: rest => max value.depth (depthOfMembers rest)

end

inductive KeyFault where
  | tooDeep
  | longInteger
  deriving DecidableEq

def KeyFault.message : KeyFault → String
  | .tooDeep => "Maximum serialization depth exceeded"
  | .longInteger => longIntegerMessage

/-- The greatest depth of a filter's value in a key. -/
def keyDepthLimit : Nat := 255

def Report.keyValue (table : String) (report : Report) : Value :=
  .object [("table", .text table), ("config", report.toValue)]

/-- The key under which the result of a report on a table is cached. -/
def cacheKey (table : String) (report : Report) : Except KeyFault String :=
  if report.filters.any fun filter => keyDepthLimit < filter.value.depth then .error .tooDeep
  else if !report.toValue.isShort then .error .longInteger
  else .ok (Json.canonical (report.keyValue table))

end Reporting
