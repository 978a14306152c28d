import Reporting.Cache.Limits
import Reporting.Log
import Reporting.Shape.Lenient

/-!
# Settings

Settings come from arguments and from the environment, where each has a name with the prefix
`REPORTQL_`. Names count in any case. An argument wins over the environment, and a default stands in
where neither names a setting. All faulty settings are reported together.
-/

namespace Reporting

structure Settings where
  appName : String
  environment : String
  databaseUrl : String
  databaseEcho : Bool
  cacheTimeToLive : Double
  cacheCapacity : Int
  logLevel : String
  deriving DecidableEq

namespace Settings

/-- A name in lower case, as all settings are named; no other letter than an ASCII one stands for a
letter of a setting. -/
def lowerName (name : String) : String := String.ofList (name.toList.map Char.toLower)

/-- The settings of arguments. A name in lower case counts before one in another case, and of the
others that differ in case the last one counts. -/
def ofArguments (arguments : List (String × Value)) : List (String × Value) :=
  arguments ++ arguments.reverse.map fun argument => (lowerName argument.1, argument.2)

/-- What the names of environment variables start with, in lower case. -/
def variableStart : List Char := "reportql_".toList

/-- The name of the setting that an environment variable stands for. -/
def settingOfVariable? (name : String) : Option String :=
  let name := (lowerName name).toList
  if variableStart.isPrefixOf name then some (String.ofList (name.drop variableStart.length))
  else none

/-- The settings of an environment; of variables that differ in case the last one counts. -/
def ofEnvironment (environment : List (String × String)) : List (String × Value) :=
  environment.foldl
    (fun members entry =>
      match settingOfVariable? entry.1 with
      | some name => Value.put members name (.text entry.2)
      | none => members)
    []

def positiveNumber (value : Value) : Checked Double :=
  (Lenient.number value).andThen fun x =>
    if (Reading.double x).isPositive then .valid x else .problem (.numberNotAbove 0)

def positiveInteger (value : Value) : Checked Int :=
  (Lenient.integer value).andThen fun n =>
    if n < 1 then .problem (.integerBelow 1) else .valid n

/-- Reads settings from members, the first member of a name counting. -/
def readMembers (members : List (String × Value)) : Checked Settings :=
  Settings.mk <$> Shape.optional "app_name" "ReportQL" Shape.text members
    <*> Shape.optional "environment" "development" Shape.text members
    <*> Shape.optional "database_url" "sqlite:///reportql.db" Shape.text members
    <*> Shape.optional "database_echo" false Lenient.truth members
    <*> Shape.optional "cache_ttl_seconds" CacheLimits.usualTimeToLive positiveNumber members
    <*> Shape.optional "cache_capacity" CacheLimits.usualCapacity positiveInteger members
    <*> Shape.optional "log_level" "INFO" Shape.text members

def make (arguments : List (String × Value)) (environment : List (String × String)) :
    Checked Settings :=
  readMembers (ofArguments arguments ++ ofEnvironment environment)

def cacheLimits (settings : Settings) : Except CacheLimitFault (CacheLimits Reading) :=
  CacheLimits.make (.double settings.cacheTimeToLive) (.int settings.cacheCapacity)

end Settings

inductive LogRequest where
  | unspecified
  | named (name : String)
  | numbered (n : Int)

inductive LogFault where
  | settings (faults : List ShapeFault)
  | unknown (level : LogLevel.Unknown)

def LogFault.message : LogFault → String
  | .settings faults => ShapeFault.listing faults
  | .unknown level => level.message

/-- The threshold of the log: the one asked for, or the level of the settings. -/
def LogRequest.threshold (request : LogRequest) (environment : List (String × String)) :
    Except LogFault Int :=
  let ofName (name : String) : Except LogFault Int := (LogLevel.threshold name).mapError .unknown
  match request with
  | .numbered n => .ok n
  | .named name => ofName name
  | .unspecified =>
    match Settings.make [] environment with
    | .faulty faults => .error (.settings faults)
    | .valid settings => ofName settings.logLevel

end Reporting
