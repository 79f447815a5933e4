import SourceLens.Text.Printable
import SourceLens.Text.Basic

/-!
# Quoted texts

A text is shown between single quotes, or between double quotes when it holds a single quote and no
double quote. The backslash and the enclosing quote are escaped, line feed, carriage return and tab
have short escapes, and every other character that cannot be printed is shown by its number.
-/

namespace SourceLens.Text

def hexDigit (n : Nat) : Char :=
  if n < 10 then Char.ofNat (48 + n) else Char.ofNat (87 + n)

/-- The last `width` hexadecimal digits of a number. -/
def hexPadded : Nat → Nat → Text
  | 0, _ => []
  | width + 1, n => hexPadded width (n / 16) ++ [hexDigit (n % 16)]

/-- One character inside a text quoted by `quote`. -/
def escapeChar (quote c : Char) : Text :=
  if c = quote || c = '\\' then ['\\', c]
  else if c = '\n' then ['\\', 'n']
  else if c = '\r' then ['\\', 'r']
  else if c = '\t' then ['\\', 't']
  else if isPrintable c then [c]
  else if c.toNat < 0x100 then '\\' :: 'x' :: hexPadded 2 c.toNat
  else if c.toNat < 0x10000 then '\\' :: 'u' :: hexPadded 4 c.toNat
  else '\\' :: 'U' :: hexPadded 8 c.toNat

def enclosingQuote (text : Text) : Char :=
  if text.contains '\'' && !text.contains '"' then '"' else '\''

def quoted (text : Text) : Text :=
  let quote := enclosingQuote text
  quote :: text.flatMap (escapeChar quote) ++ [quote]

end SourceLens.Text
