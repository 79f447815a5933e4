import SourceLens.Data.Value
import SourceLens.Text.Basic

/-!
# Reading JSON

Reads one JSON document. Integers and numbers with a point or an exponent stay apart, entries keep
their order, a key given twice keeps its first place and takes its last value, and the names `NaN`,
`Infinity` and `-Infinity` are numbers. Half of a pair of UTF-16 units is no character and is
refused.
-/

namespace SourceLens.Builtin.Json

def isGap (c : Char) : Bool := c = ' ' || c = '\t' || c = '\n' || c = '\r'

def skipGap (text : Text) : Text := text.dropWhile isGap

def hexValue? (c : Char) : Option Nat :=
  if '0' ≤ c ∧ c ≤ '9' then some (c.toNat - 48)
  else if 'a' ≤ c ∧ c ≤ 'f' then some (c.toNat - 87)
  else if 'A' ≤ c ∧ c ≤ 'F' then some (c.toNat - 55)
  else none

def unit? (a b c d : Char) : Option Nat := do
  let a ← hexValue? a
  let b ← hexValue? b
  let c ← hexValue? c
  let d ← hexValue? d
  return ((a * 16 + b) * 16 + c) * 16 + d

def shortEscape? (c : Char) : Option Char :=
  match c with
  | '"' => some '"'
  | '\\' => some '\\'
  | '/' => some '/'
  | 'b' => some '\x08'
  | 'f' => some '\x0c'
  | 'n' => some '\n'
  | 'r' => some '\r'
  | 't' => some '\t'
  | _ => none

/-- Puts a character in front of a string that was read. -/
def consChar (c : Char) : Option (Text × Text) → Option (Text × Text)
  | some (body, rest) => some (c :: body, rest)
  | none => none

/-- The rest of a string after its opening quote, and what follows its closing quote. -/
def readString : Text → Option (Text × Text)
  | [] => none
  | '"' :: rest => some ([], rest)
  | '\\' :: 'u' :: a :: b :: c :: d :: rest =>
    match unit? a b c d with
    | none => none
    | some high =>
      if 0xd800 ≤ high ∧ high < 0xdc00 then
        match rest with
        | '\\' :: 'u' :: a :: b :: c :: d :: rest =>
          match unit? a b c d with
          | none => none
          | some low =>
            if 0xdc00 ≤ low ∧ low < 0xe000 then
              consChar (Char.ofNat (0x10000 + (high - 0xd800) * 0x400 + (low - 0xdc00)))
                (readString rest)
            else none
        | _ => none
      else if high < 0xdc00 ∨ 0xe000 ≤ high then consChar (Char.ofNat high) (readString rest)
      else none
  | '\\' :: c :: rest =>
    match shortEscape? c with
    | some c => consChar c (readString rest)
    | none => none
  | c :: rest => if c.toNat < 0x20 then none else consChar c (readString rest)

def spanDigits (text : Text) : Text × Text := text.span Char.isDigit

def natOf (digits : Text) : Nat := digits.foldl (fun n c => n * 10 + (c.toNat - 48)) 0

/-- The fraction of a number: digits after a point, if there are any. -/
def readFraction (text : Text) : Option (Text × Text) :=
  match text with
  | '.' :: rest =>
    let (ds, rest) := spanDigits rest
    if ds.isEmpty then none else some (ds, rest)
  | _ => none

def readExponent (text : Text) : Option (Int × Text) :=
  match text with
  | c :: rest =>
    if c = 'e' || c = 'E' then
      let (negative, rest) :=
        match rest with
        | '-' :: rest => (true, rest)
        | '+' :: rest => (false, rest)
        | _ => (false, rest)
      let (ds, rest) := spanDigits rest
      if ds.isEmpty then none
      else some (if negative then -(natOf ds : Int) else natOf ds, rest)
    else none
  | [] => none

/-- A number without its sign. An integer with too many digits is none. -/
def readNumber (negative : Bool) (text : Text) : Option (Scalar × Text) :=
  let (ds, rest) := spanDigits text
  let (whole, rest) :=
    match ds with
    | '0' :: _ :: _ => (['0'], ds.drop 1 ++ rest)
    | _ => (ds, rest)
  if whole.isEmpty then none
  else
    let fraction := readFraction rest
    let (fractionDigits, rest) := fraction.getD ([], rest)
    let exponent := readExponent rest
    let (e, rest) := exponent.getD (0, rest)
    if fraction.isNone && exponent.isNone then
      if Scalar.digitLimit < whole.length then none
      else some (.int (if negative then -(natOf whole : Int) else natOf whole), rest)
    else
      some (.float (Double.ofDecimal negative (natOf (whole ++ fractionDigits))
        (e - fractionDigits.length)), rest)

def afterWord (word : String) (text : Text) : Option Text :=
  if word.toList.isPrefixOf text then some (text.drop word.length) else none

def names : List (String × Scalar) :=
  [("null", .null), ("true", .bool true), ("false", .bool false), ("NaN", .float Double.nan),
   ("Infinity", .float (Double.infinity false)), ("-Infinity", .float (Double.infinity true))]

def readScalar (text : Text) : Option (Scalar × Text) :=
  let named := names.findSome? fun (word, value) =>
    (afterWord word text).map fun rest => (value, rest)
  match named with
  | some found => some found
  | none =>
    match text with
    | '-' :: rest => readNumber true rest
    | _ => readNumber false text

mutual

/-- A value and what follows it; `fuel` bounds the number of calls. -/
def readValue : Nat → Text → Option (Value × Text)
  | 0, _ => none
  | fuel + 1, text =>
    match skipGap text with
    | '"' :: rest => (readString rest).map fun (s, rest) => (.text (String.ofList s), rest)
    | '[' :: rest =>
      match skipGap rest with
      | ']' :: rest => some (.list [], rest)
      | rest => (readItems fuel rest).map fun (items, rest) => (.list items, rest)
    | '\x7b' :: rest =>
      match skipGap rest with
      | '\x7d' :: rest => some (.map [], rest)
      | rest =>
        (readMembers fuel rest).map fun (members, rest) => (.map (Entries.ofList members), rest)
    | text => (readScalar text).map fun (s, rest) => (.scalar s, rest)

/-- One or more items up to the closing bracket. -/
def readItems : Nat → Text → Option (List Value × Text)
  | 0, _ => none
  | fuel + 1, text =>
    match readValue fuel text with
    | none => none
    | some (item, rest) =>
      match skipGap rest with
      | ',' :: rest => (readItems fuel rest).map fun (items, rest) => (item :: items, rest)
      | ']' :: rest => some ([item], rest)
      | _ => none

/-- One or more members up to the closing brace. -/
def readMembers : Nat → Text → Option (List (Scalar × Value) × Text)
  | 0, _ => none
  | fuel + 1, text =>
    match skipGap text with
    | '"' :: rest =>
      match readString rest with
      | none => none
      | some (name, rest) =>
        match skipGap rest with
        | ':' :: rest =>
          match readValue fuel rest with
          | none => none
          | some (value, rest) =>
            let member := (Scalar.text (String.ofList name), value)
            match skipGap rest with
            | ',' :: rest =>
              (readMembers fuel rest).map fun (members, rest) => (member :: members, rest)
            | '\x7d' :: rest => some ([member], rest)
            | _ => none
        | _ => none
    | _ => none

end

def read? (text : Text) : Option Value :=
  match readValue (2 * text.length + 3) text with
  | some (value, rest) => if (skipGap rest).isEmpty then some value else none
  | none => none

end SourceLens.Builtin.Json
