import Reporting.Execution
import Reporting.Sql.NamedBinds

/-!
# Running statements on an engine

An engine takes statements with named placeholders. `runNamed` names the placeholders of a statement
and asks the engine, whose answer it passes on.
-/

namespace Reporting.Sql

/-- Why a statement gives no rows: its placeholders do not fit its values, or the engine fails. -/
inductive EngineFault where
  | binds (fault : BindFault)
  | engine (message : String)
  deriving DecidableEq

/-- The statements that reached the engine, and the rows or the fault. -/
structure EngineRun (α : Type) where
  calls : List (NamedStatement α)
  outcome : Except EngineFault (List Row)

def runNamed {α : Type} (engine : NamedStatement α → Except String (List Row)) (sql : String)
    (values : List α) : EngineRun α :=
  match nameBinds sql values with
  | .error fault => ⟨[], .error (.binds fault)⟩
  | .ok statement => ⟨[statement], (engine statement).mapError .engine⟩

end Reporting.Sql
