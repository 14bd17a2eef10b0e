import KeypadCalc.Text.Hexadecimal
import KeypadCalc.Text.Printable

/-!
# KeypadCalc — quoted text

How a message names a piece of the user's text. It is put in single quotes, or in double quotes
where it holds a single quote and no double one. A backslash, the quote that encloses the text,
and the line feed, carriage return and tab are written with a backslash; every other character
that is not printable is written by its code point in hexadecimal, in the shortest of the three
widths that holds it.
-/

namespace KeypadCalc.Text

def codePointEscape (n : Nat) : List Char :=
  if n < 0x100 then '\\' :: 'x' :: hexPadded 2 n
  else if n < 0x10000 then '\\' :: 'u' :: hexPadded 4 n
  else '\\' :: 'U' :: hexPadded 8 n

/-- One character as it stands between two quotes of the given kind. -/
def escapeChar (quote c : Char) : List Char :=
  if c == '\\' || c == quote then ['\\', c]
  else if c == '\n' then ['\\', 'n']
  else if c == '\r' then ['\\', 'r']
  else if c == '\t' then ['\\', 't']
  else if isPrintable c then [c]
  else codePointEscape c.toNat

def quoteFor (cs : List Char) : Char :=
  if cs.contains '\'' && !cs.contains '"' then '"' else '\''

/-- A text between quotes, with what cannot be shown escaped. -/
def quoted (s : String) : String :=
  let quote := quoteFor s.toList
  String.ofList (quote :: s.toList.flatMap (escapeChar quote) ++ [quote])

end KeypadCalc.Text
