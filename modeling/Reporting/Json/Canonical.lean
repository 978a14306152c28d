import Reporting.Value

/-!
# Canonical JSON text

`canonical` writes a value in the one form that equal documents share: members sorted by key at
every level, no blanks, ASCII only, integers in decimal, doubles by their shortest digits. A number
that is not finite has no JSON form and is written as `null`.
-/

namespace Reporting.Json

open Text

def unitEscape (n : Nat) : List Char := '\\' :: 'u' :: hexPadded 4 n

def writeChar (c : Char) : List Char :=
  if c == doubleQuote || c == '\\' then ['\\', c]
  else if c == '\n' then ['\\', 'n']
  else if c == '\r' then ['\\', 'r']
  else if c == '\t' then ['\\', 't']
  else if c.toNat == 8 then ['\\', 'b']
  else if c.toNat == 12 then ['\\', 'f']
  else if 32 ≤ c.toNat && c.toNat < 127 then [c]
  else if c.toNat < 0x10000 then unitEscape c.toNat
  else
    let n := c.toNat - 0x10000
    unitEscape (0xD800 + n / 0x400) ++ unitEscape (0xDC00 + n % 0x400)

def writeString (text : String) : List Char :=
  doubleQuote :: text.toList.flatMap writeChar ++ [doubleQuote]

/-- A scalar: numbers and truth values bare, everything else as a string. -/
def writeScalar : Scalar → List Char
  | .bool b => if b then ['t', 'r', 'u', 'e'] else ['f', 'a', 'l', 's', 'e']
  | .int n => (toString n).toList
  | .float x => if x.isFinite then x.text.toList else ['n', 'u', 'l', 'l']
  | .decimal d => writeString d.text
  | .moment m => writeString (m.text "T")
  | .text s => writeString s

/-- Puts a member before the first one with a greater key. -/
def insertMember (member : String × List Char) :
    List (String × List Char) → List (String × List Char)
  | [] => [member]
  | other :: rest =>
    if member.1 ≤ other.1 then member :: other :: rest else other :: insertMember member rest

def sortMembers : List (String × List Char) → List (String × List Char)
  | [] => []
  | member :: rest => insertMember member (sortMembers rest)

def commaSeparated : List (List Char) → List Char
  | [] => []
  | [item] => item
  | item :: rest => item ++ ',' :: commaSeparated rest

def writeMember (member : String × List Char) : List Char :=
  writeString member.1 ++ ':' :: member.2

mutual

def write : Value → List Char
  | .null => ['n', 'u', 'l', 'l']
  | .scalar s => writeScalar s
  | .list items => '[' :: commaSeparated (writeItems items) ++ [']']
  | .object members => '{' :: commaSeparated ((sortMembers (writeMembers members)).map writeMember)
      ++ ['}']

def writeItems : List Value → List (List Char)
  | [] => []
  | item :: rest => write item :: writeItems rest

def writeMembers : List (String × Value) → List (String × List Char)
  | [] => []
  | (key, value) :: rest => (key, write value) :: writeMembers rest

end

def canonical (value : Value) : String := String.ofList (write value)

end Reporting.Json
