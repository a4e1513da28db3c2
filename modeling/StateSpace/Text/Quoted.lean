import StateSpace.Text.Hex
import StateSpace.Text.Printable

/-!
# Quoted literals

A text is shown between single quotes, or between double quotes if it holds a single quote and no
double quote. Inside, the backslash and the chosen quote are escaped, tab, newline and carriage
return have short escapes, and a character that is not printable is written by its code point with
two, four or eight hexadecimal digits.
-/

namespace StateSpace.Text

/-- The single quote. -/
def singleQuote : Char := '\x27'

/-- The double quote. -/
def doubleQuote : Char := '\x22'

/-- The quote that encloses a text. -/
def quoteFor (text : List Char) : Char :=
  if text.contains singleQuote && !text.contains doubleQuote then doubleQuote else singleQuote

/-- The escape that names a code point, as short as the code point allows. -/
def codePointEscape (code : Nat) : List Char :=
  if code < 0x100 then
    '\\' :: 'x' :: hex 2 code
  else if code < 0x10000 then
    '\\' :: 'u' :: hex 4 code
  else
    '\\' :: 'U' :: hex 8 code

/-- One character as it stands between the quotes. -/
def quotedChar (quote c : Char) : List Char :=
  if c = quote ∨ c = '\\' then ['\\', c]
  else if c = '\t' then ['\\', 't']
  else if c = '\n' then ['\\', 'n']
  else if c = '\r' then ['\\', 'r']
  else if isPrintable c then [c]
  else codePointEscape c.toNat

/-- The quoted literal of a text. -/
def quoted (text : String) : String :=
  let quote := quoteFor text.toList
  String.ofList (quote :: text.toList.flatMap (quotedChar quote) ++ [quote])

end StateSpace.Text
