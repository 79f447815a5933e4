import SourceLens.Data.Value
import SourceLens.Decimal.Shortest
import SourceLens.Text.Quoted

/-!
# Writing JSON

One line of ASCII: every character outside the printable ASCII range is written by its UTF-16 units,
items are divided by a comma and a space, keys from values by a colon and a space. What has no form
in JSON is written as a string, in its detailed form.
-/

namespace SourceLens.Json

def unit (n : Nat) : Text := '\\' :: 'u' :: Text.hexPadded 4 n

def escape (c : Char) : Text :=
  if c = '"' || c = '\\' then ['\\', c]
  else if c = '\n' then ['\\', 'n']
  else if c = '\r' then ['\\', 'r']
  else if c = '\t' then ['\\', 't']
  else if c = '\x0c' then ['\\', 'f']
  else if c = '\x08' then ['\\', 'b']
  else if 0x20 ≤ c.toNat && c.toNat < 0x7f then [c]
  else if c.toNat < 0x10000 then unit c.toNat
  else
    let beyond := c.toNat - 0x10000
    unit (0xd800 + beyond / 0x400) ++ unit (0xdc00 + beyond % 0x400)

def string (s : String) : Text := '"' :: s.toList.flatMap escape ++ ['"']

/-- A number; those without a decimal form are written by name. -/
def number (x : Double) : Text :=
  if x.isNaN then "NaN".toList
  else if x.isInfinite then (if x.isNegative then "-Infinity" else "Infinity").toList
  else x.text

def scalar : Scalar → Text
  | .null => "null".toList
  | .bool true => "true".toList
  | .bool false => "false".toList
  | .int n => Text.ofInt n
  | .float x => number x
  | .text s => string s
  | .moment m => string (String.ofList m.detailed)
  | .other o => string o.detailed

def key : Scalar → Text
  | .text s => string s
  | .moment m => string (String.ofList m.detailed)
  | .other o => string o.detailed
  | k => '"' :: scalar k ++ ['"']

mutual

def write : Value → Text
  | .scalar s => scalar s
  | .list items => '[' :: Text.join ", ".toList (writeItems items) ++ [']']
  | .map entries => '\x7b' :: Text.join ", ".toList (writeEntries entries) ++ ['\x7d']

def writeItems : List Value → List Text
  | [] => []
  | item :: rest => write item :: writeItems rest

def writeEntries : List (Scalar × Value) → List Text
  | [] => []
  | entry :: rest => writeEntry entry :: writeEntries rest

def writeEntry : Scalar × Value → Text
  | (k, value) => key k ++ ": ".toList ++ write value

end

def render (value : Value) : String := String.ofList (write value)

end SourceLens.Json
