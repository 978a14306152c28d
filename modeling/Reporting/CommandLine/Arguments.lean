import Reporting.Number.Word
import Reporting.Text.Digit

/-!
# Arguments of the command line

`Invocation.parse` reads the arguments of the program: options, then a command with its operands.
Options may be shortened as long as they stay unique, and a command has options of its own. The
result is an invocation, a request for help, or a misuse.
-/

namespace Reporting.CommandLine

open Text

/-- What the program is asked to do. A command that takes a report file may come without its
path. -/
inductive Command where
  | fields (table : String)
  | compile (table : String) (path : Option String)
  | run (table : String) (path : Option String)
  | runStored (id : Int)
  deriving DecidableEq

structure Invocation where
  logLevel : Option String
  command : Command
  deriving DecidableEq

/-- Why the program ends before it does anything. -/
inductive Usage where
  | help
  | misuse
  deriving DecidableEq

def Usage.exitCode : Usage → Nat
  | .help => 0
  | .misuse => 2

inductive OptionName where
  | help
  | logLevel
  deriving DecidableEq

/-- An argument by its role. An option may carry a value after an equals sign; the short request for
help may carry more letters. -/
inductive Token where
  | word (text : String)
  | separator
  | option (name : OptionName) (value : Option (List Char))
  | helpLetters (letters : List Char)
  | unknownOption

def programOptions : List (List Char × OptionName) :=
  [("-h".toList, .help), ("--help".toList, .help), ("--log-level".toList, .logLevel)]

def commandOptions : List (List Char × OptionName) :=
  [("-h".toList, .help), ("--help".toList, .help)]

/-- A decimal digit of any script. -/
def isDigit (c : Char) : Bool := (digitValue? c).isSome

def isDigits (text : List Char) : Bool := !text.isEmpty && text.all isDigit

def looksNegative (argument : List Char) : Bool :=
  match argument with
  | '-' :: rest =>
    let body := if rest.getLast? = some '\n' then rest.dropLast else rest
    isDigits body ||
      match body.dropWhile isDigit with
      | '.' :: fraction => isDigits fraction
      | _ => false
  | _ => false

def splitAtEquals (text : List Char) : List Char × Option (List Char) :=
  match text.dropWhile (· != '=') with
  | [] => (text, none)
  | _ :: value => (text.takeWhile (· != '='), some value)

def candidates (options : List (List Char × OptionName)) (argument : List Char) : List Token :=
  match argument with
  | '-' :: '-' :: _ =>
    let (spelling, value) := splitAtEquals argument
    (options.filter fun option => spelling.isPrefixOf option.1).map fun option =>
      .option option.2 value
  | '-' :: 'h' :: letters => [.helpLetters letters]
  | _ => []

def exactOption? (options : List (List Char × OptionName)) (argument : List Char) : Option Token :=
  match options.lookup argument with
  | some name => some (.option name none)
  | none =>
    let (spelling, value) := splitAtEquals argument
    match value, options.lookup spelling with
    | some value, some name =>
      some (if spelling == ['-', 'h'] then .helpLetters value else .option name (some value))
    | _, _ => none

/-- The role of an argument before any separator. -/
def classify (options : List (List Char × OptionName)) (argument : String) : Except Usage Token :=
  let text := argument.toList
  match text with
  | [] | ['-'] => .ok (.word argument)
  | '-' :: _ =>
    match exactOption? options text with
    | some token => .ok token
    | none =>
      match candidates options text with
      | [token] => .ok token
      | _ :: _ :: _ => .error .misuse
      | [] =>
        if looksNegative text || text.contains ' ' then .ok (.word argument)
        else .ok .unknownOption
  | _ => .ok (.word argument)

/-- The roles of all arguments; everything after a separator is a word. -/
def tokens (options : List (List Char × OptionName)) : List String → Except Usage (List Token)
  | [] => .ok []
  | argument :: rest =>
    if argument == "--" then .ok (.separator :: rest.map .word)
    else do
      let token ← classify options argument
      return token :: (← tokens options rest)

/-- What a request for help amounts to: it takes no value. -/
def helpUsage (value : Option (List Char)) : Usage := if value.isNone then .help else .misuse

/-- What the letters after the short request for help amount to: nothing but more requests may
follow. -/
def lettersUsage (letters : List Char) : Usage :=
  if !letters.isEmpty && letters.all (· == 'h') then .help else .misuse

/-- Operands of a command: at most `count`, each of them fit; the flag tells of anything left
over. -/
def operands (fits : String → Bool) (count : Nat) :
    (taken : List String) → (leftOver : Bool) → List Token → Except Usage (List String × Bool)
  | taken, leftOver, [] => .ok (taken, leftOver)
  | taken, leftOver, .word text :: rest =>
    if taken.length < count then
      if fits text then operands fits count (taken ++ [text]) leftOver rest else .error .misuse
    else operands fits count taken true rest
  | taken, leftOver, .separator :: rest => operands fits count taken leftOver rest
  | taken, _, .unknownOption :: rest => operands fits count taken true rest
  | _, _, .option .help value :: _ => .error (helpUsage value)
  | _, _, .helpLetters letters :: _ => .error (lettersUsage letters)
  | _, _, .option .logLevel _ :: _ => .error .misuse

def commandNames : List String := ["fields", "compile", "run", "run-stored"]

/-- The path that an operand names: a second separator is dropped and leaves none. -/
def pathOperand (operand : String) : Option String :=
  if operand == "--" then none else some operand

def Command.parse (name : String) (arguments : List String) : Except Usage (Command × Bool) := do
  if !commandNames.contains name then throw .misuse
  let tokens ← tokens commandOptions arguments
  let isId (text : String) : Bool := (readInteger? digitLimit text).isSome
  let fits := if name == "run-stored" then isId else fun _ => true
  let count := if name == "compile" || name == "run" then 2 else 1
  let (taken, leftOver) ← operands fits count [] false tokens
  match name, taken with
  | "fields", [table] => return (.fields table, leftOver)
  | "compile", [table, path] => return (.compile table (pathOperand path), leftOver)
  | "run", [table, path] => return (.run table (pathOperand path), leftOver)
  | "run-stored", [id] => return (.runStored ((readInteger? digitLimit id).getD 0), leftOver)
  | _, _ => throw .misuse

/-- Reads options up to the command. Every token goes with the arguments after it. -/
def parseTokens : (logLevel : Option String) → (leftOver : Bool) →
    List (Token × List String) → Except Usage Invocation
  | _, _, [] => .error .misuse
  | logLevel, leftOver, (.word name, arguments) :: _ => do
    let (command, more) ← Command.parse name arguments
    if leftOver || more then throw .misuse
    return ⟨logLevel, command⟩
  | _, _, (.separator, _) :: _ => .error .misuse
  | _, _, (.option .help value, _) :: _ => .error (helpUsage value)
  | _, _, (.helpLetters letters, _) :: _ => .error (lettersUsage letters)
  | _, leftOver, (.option .logLevel (some value), _) :: rest =>
    parseTokens (some (String.ofList value)) leftOver rest
  | _, leftOver, (.option .logLevel none, _) :: (.word level, _) :: rest =>
    parseTokens (some level) leftOver rest
  | _, _, (.option .logLevel none, _) :: _ => .error .misuse
  | logLevel, _, (.unknownOption, _) :: rest => parseTokens logLevel true rest

def followers {α : Type} : List α → List (List α)
  | [] => []
  | _ :: rest => rest :: followers rest

def Invocation.parse (arguments : List String) : Except Usage Invocation := do
  let tokens ← tokens programOptions arguments
  parseTokens none false (tokens.zip (followers arguments))

end Reporting.CommandLine
