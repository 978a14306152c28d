/-!
# White space

Blank characters are the Unicode white-space characters together with the four information
separators U+001C to U+001F. `words` cuts a text at its blanks, `collapse` writes the words back
with one space between neighbours. Numbers are read with a narrower notion of white space that
leaves the separators out; `trimSpace` and `trim` remove the one or the other at both ends.
-/

namespace Reporting.Text

/-- Unicode white space, and the information separators U+001C to U+001F. -/
def isBlank (c : Char) : Bool :=
  let n := c.toNat
  (9 ≤ n && n ≤ 13) || (28 ≤ n && n ≤ 32) || n == 0x85 || n == 0xA0 || n == 0x1680 ||
    (0x2000 ≤ n && n ≤ 0x200A) || n == 0x2028 || n == 0x2029 || n == 0x202F || n == 0x205F ||
    n == 0x3000

/-- Splits at blanks; `word` holds the letters of the word being read, last letter first. -/
def wordsFrom (word : List Char) : List Char → List (List Char)
  | [] => if word.isEmpty then [] else [word.reverse]
  | c :: rest =>
    if isBlank c then
      if word.isEmpty then wordsFrom [] rest else word.reverse :: wordsFrom [] rest
    else wordsFrom (c :: word) rest

/-- The maximal runs of characters that are not blank, in order. -/
def words (text : List Char) : List (List Char) := wordsFrom [] text

/-- The words joined by single spaces. -/
def joinWords : List (List Char) → List Char
  | [] => []
  | [word] => word
  | word :: rest => word ++ ' ' :: joinWords rest

/-- Every run of blanks becomes one space, and the ends are trimmed. -/
def collapse (text : String) : String := String.ofList (joinWords (words text.toList))

/-- The text without the characters of a class at its ends. -/
def trimEnds (isOuter : Char → Bool) (text : List Char) : List Char :=
  ((text.dropWhile isOuter).reverse.dropWhile isOuter).reverse

def trim (text : List Char) : List Char := trimEnds isBlank text

/-- Unicode white space alone. -/
def isSpace (c : Char) : Bool := isBlank c && !(28 ≤ c.toNat && c.toNat ≤ 31)

def trimSpace (text : List Char) : List Char := trimEnds isSpace text

end Reporting.Text
