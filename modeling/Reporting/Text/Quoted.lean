import Reporting.Text.Hex
import Reporting.Text.Printable

/-!
# Quoted text

`quoted` shows a text between quotes on one line: single quotes, unless the text holds a single
quote and no double quote. The backslash and the chosen quote are escaped, the line feed, carriage
return and tab have short escapes, and every other character that is not printable is written by
its code point.
-/

namespace Reporting.Text

def singleQuote : Char := Char.ofNat 39

def doubleQuote : Char := Char.ofNat 34

/-- The quote that a text is shown in. -/
def quoteFor (text : List Char) : Char :=
  if text.contains singleQuote && !text.contains doubleQuote then doubleQuote else singleQuote

/-- How one character is shown between quotes of the given kind. -/
def showChar (quote c : Char) : List Char :=
  if c == '\\' || c == quote then ['\\', c]
  else if c == '\n' then ['\\', 'n']
  else if c == '\r' then ['\\', 'r']
  else if c == '\t' then ['\\', 't']
  else if isPrintable c then [c]
  else if c.toNat < 0x100 then '\\' :: 'x' :: hexPadded 2 c.toNat
  else if c.toNat < 0x10000 then '\\' :: 'u' :: hexPadded 4 c.toNat
  else '\\' :: 'U' :: hexPadded 8 c.toNat

/-- The text between quotes, with everything that is not printable escaped. -/
def quoted (text : String) : String :=
  let quote := quoteFor text.toList
  String.ofList (quote :: text.toList.flatMap (showChar quote) ++ [quote])

example : quoted "it" = String.ofList [singleQuote, 'i', 't', singleQuote] := by decide +kernel

end Reporting.Text
