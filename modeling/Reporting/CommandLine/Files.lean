import Reporting.Text.Quoted

/-!
# Files

Files are found by their path from the working directory. Line ends of any kind are read as line
feeds, and a path that leads to no file has a message that names it.
-/

namespace Reporting.CommandLine

structure Files where
  contents : List (String × String) := []

inductive FileFault where
  | missing (path : String)
  | directory (path : String)
  | notDirectory (path : String)
  | nameTooLong (path : String)
  deriving DecidableEq

def FileFault.message : FileFault → String
  | .missing path => "[Errno 2] No such file or directory: " ++ Text.quoted path
  | .directory path => "[Errno 21] Is a directory: " ++ Text.quoted path
  | .notDirectory path => "[Errno 20] Not a directory: " ++ Text.quoted path
  | .nameTooLong path => "[Errno 36] File name too long: " ++ Text.quoted path

def splitAtSlashes : List Char → List (List Char)
  | [] => [[]]
  | c :: rest =>
    if c == '/' then [] :: splitAtSlashes rest
    else
      match splitAtSlashes rest with
      | [] => [[c]]
      | part :: parts => (c :: part) :: parts

/-- The parts of a path that lead anywhere. -/
def pathParts (path : String) : List String :=
  ((splitAtSlashes path.toList).map String.ofList).filter fun part => part != "" && part != "."

def isAbsolute (path : String) : Bool := path.toList.head? == some '/'

/-- The slashes in front of a path that starts at the root: two if there are just two, else one. -/
def rootOf (path : String) : String :=
  if (path.toList.takeWhile (· == '/')).length == 2 then "//" else "/"

/-- A path without empty parts and without steps that stay in place. -/
def normalPath (path : String) : String :=
  let parts := pathParts path
  if isAbsolute path then rootOf path ++ String.intercalate "/" parts
  else if parts.isEmpty then "." else String.intercalate "/" parts

/-- Every carriage return, with the line feed after it if there is one, becomes a line feed. -/
def unifyLineEnds : List Char → List Char
  | '\r' :: '\n' :: rest => '\n' :: unifyLineEnds rest
  | '\r' :: rest => '\n' :: unifyLineEnds rest
  | c :: rest => c :: unifyLineEnds rest
  | [] => []

def nameLimit : Nat := 255

def pathLimit : Nat := 4095

inductive Place where
  | folder
  | file (text : String)
  | nothing

namespace Files

/-- What the place holds that a list of names leads to from the working directory. Of files under
one path the last one counts. -/
def placeAt (files : Files) (names : List String) : Place :=
  match files.contents.reverse.find? fun file => pathParts file.1 == names with
  | some file => .file file.2
  | none =>
    if names.isEmpty || files.contents.any fun file => names.isPrefixOf (pathParts file.1) then
      .folder
    else .nothing

/-- Follows the steps of a path from a folder. The folder is given by the names that lead to it from
the working directory, last name first; outside the working directory nothing is known but folders
further up. -/
def follow (files : Files) (path : String) :
    (folder : Option (List String)) → (steps : List String) → Except FileFault String
  | _, [] => .error (.directory path)
  | folder, step :: rest =>
    if step == ".." then
      follow files path (folder.bind fun names => if names.isEmpty then none else some names.tail)
        rest
    else if nameLimit < step.utf8ByteSize then .error (.nameTooLong path)
    else
      match folder with
      | none => .error (.missing path)
      | some names =>
        match files.placeAt (step :: names).reverse with
        | .folder => follow files path (some (step :: names)) rest
        | .nothing => .error (.missing path)
        | .file text => if rest.isEmpty then .ok text else .error (.notDirectory path)

def read (files : Files) (path : String) : Except FileFault String :=
  let normal := normalPath path
  if pathLimit < normal.utf8ByteSize then .error (.nameTooLong normal)
  else
    (files.follow normal (if isAbsolute path then none else some []) (pathParts path)).map
      fun text => String.ofList (unifyLineEnds text.toList)

end Files

end Reporting.CommandLine
