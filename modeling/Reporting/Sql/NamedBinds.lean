/-!
# Named binds

A statement with `?` placeholders becomes one with the names `:p0`, `:p1` and so on, and each value
goes with the name of its placeholder. Every `?` of the text counts as a placeholder, so there have
to be as many values.
-/

namespace Reporting.Sql

/-- The number of placeholders differs from the number of values. -/
structure BindFault where
  placeholders : Nat
  values : Nat
  deriving DecidableEq

def BindFault.message (fault : BindFault) : String :=
  "SQL has " ++ toString fault.placeholders ++ " placeholders but " ++ toString fault.values ++
    " params were given"

/-- The name of the placeholder at a position counted from zero. -/
def bindName (index : Nat) : String := "p" ++ toString index

/-- Replaces the placeholders by names, the first one by the name of `index`. -/
def nameFrom : (index : Nat) → List Char → List Char
  | _, [] => []
  | index, c :: rest =>
    if c == '?' then ':' :: (bindName index).toList ++ nameFrom (index + 1) rest
    else c :: nameFrom index rest

/-- A statement with named placeholders and the values behind the names, in order. -/
structure NamedStatement (α : Type) where
  sql : String
  binds : List (String × α)

/-- Names the values in order, the first one by the name of `index`. -/
def nameValues {α : Type} : (index : Nat) → List α → List (String × α)
  | _, [] => []
  | index, value :: rest => (bindName index, value) :: nameValues (index + 1) rest

/-- Gives every placeholder a name and every name its value. -/
def nameBinds {α : Type} (sql : String) (values : List α) :
    Except BindFault (NamedStatement α) :=
  let placeholders := sql.toList.count '?'
  if placeholders ≠ values.length then .error ⟨placeholders, values.length⟩
  else .ok ⟨String.ofList (nameFrom 0 sql.toList), nameValues 0 values⟩

end Reporting.Sql
