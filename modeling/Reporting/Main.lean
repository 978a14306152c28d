import Reporting.CommandLine.Markup
import Reporting.CommandLine.Run

/-!
# The program

Reads the arguments, the environment and the report file that a command names, and prints what the
session shows. No engine is attached, so statements can be compiled and shown but not run.
-/

namespace Reporting.CommandLine

def usageText : String :=
  "usage: reports [--log-level LEVEL] fields TABLE\n" ++
  "       reports [--log-level LEVEL] compile TABLE CONFIG\n" ++
  "       reports [--log-level LEVEL] run TABLE CONFIG\n" ++
  "       reports [--log-level LEVEL] run-stored ID"

def variableNames : List String :=
  ["REPORTQL_APP_NAME", "REPORTQL_ENVIRONMENT", "REPORTQL_DATABASE_URL", "REPORTQL_DATABASE_ECHO",
    "REPORTQL_CACHE_TTL_SECONDS", "REPORTQL_CACHE_CAPACITY", "REPORTQL_LOG_LEVEL"]

def readEnvironment : IO (List (String × String)) :=
  variableNames.filterMapM fun name => do
    let value ← IO.getEnv name
    return value.map fun value => (name, value)

def readFiles (command : Command) : IO Files := do
  match command with
  | .compile _ (some path) | .run _ (some path) =>
    try
      return ⟨[(normalPath path, ← IO.FS.readFile path)]⟩
    catch _ => return {}
  | _ => return {}

/-- How deep the program lets the lists and objects of a report file nest. -/
def nestingDepth : Nat := 900

def start (arguments : List String) : IO UInt32 := do
  match Invocation.parse arguments with
  | .error usage =>
    IO.println usageText
    return UInt32.ofNat usage.exitCode
  | .ok invocation =>
    let session : Session :=
      { files := ← readFiles invocation.command
        depth := nestingDepth
        engine := fun _ => .error "no engine is attached" }
    match session.obey (← readEnvironment) invocation with
    | .ok outcome =>
      for item in outcome.printed do
        for line in item.lines do
          IO.println line
      return UInt32.ofNat outcome.exitCode
    | .error halt =>
      IO.eprintln halt.message
      return 1

end Reporting.CommandLine

/-- The entry point of the program. -/
def main (arguments : List String) : IO UInt32 := Reporting.CommandLine.start arguments
