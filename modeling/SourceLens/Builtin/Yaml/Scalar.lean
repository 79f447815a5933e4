import SourceLens.Data.Value
import SourceLens.Builtin.Yaml.Moment

/-!
# Plain scalars

What a scalar without quotes stands for: a truth value, a number in base two, eight, ten, sixteen or
sixty, nothing, a date or time, or else the text itself.
-/

namespace SourceLens.Builtin.Yaml

open Pattern

/-- Why a text is no document. -/
inductive Problem where
  /-- It breaks the rules of the format. -/
  | malformed
  /-- It holds what is written like a number, a date or a time, and is none. -/
  | noSuchScalar (message : String)
  /-- It holds a number with a point whose parts in base sixty are too many. -/
  | tooManyParts
  deriving DecidableEq, Repr

/-- The spellings of a word: small, capitalised and capital letters. -/
def spellings (word : String) : List Text :=
  let small := word.toList
  let capital := small.map Char.toUpper
  [small, capital.take 1 ++ small.drop 1, capital]

def trueWords : List Text := ["yes", "true", "on"].flatMap spellings

def falseWords : List Text := ["no", "false", "off"].flatMap spellings

def nullWords : List Text := [] :: ['~'] :: spellings "null"

def sign : Pattern := opt (among "-+")

def digitOrGap : Pattern := one fun c => c.isDigit || c == '_'

def leadDigit : Pattern := among "123456789"

def sixties : Pattern := many1 (chain [lit ":", opt (among "012345"), digit])

/-- The exponent of a number; its sign must be written. -/
def exponent : Pattern := opt (chain [among "eE", among "-+", many1 digit])

def floatPattern : Pattern :=
  chain [oneOf [
    chain [sign, digit, many digitOrGap, lit ".", many digitOrGap, exponent],
    chain [lit ".", digit, many digitOrGap, exponent],
    chain [sign, digit, many digitOrGap, sixties, lit ".", many digitOrGap]], finish]

def intPattern : Pattern :=
  chain [sign, oneOf [
    chain [lit "0b", many1 (among "01_"), finish],
    chain [lit "0", many1 (among "01234567_"), finish],
    chain [alt (lit "0") (chain [leadDigit, many digitOrGap]), finish],
    chain [lit "0x", many1 (among "0123456789abcdefABCDEF_"), finish],
    chain [leadDigit, many digitOrGap, sixties, finish]]]

/-- The value of a digit in any base up to sixteen. -/
def digitValue (c : Char) : Nat :=
  if c.isDigit then c.toNat - 48 else if 'a' ≤ c then c.toNat - 87 else c.toNat - 55

def inBase (base : Nat) (digits : Text) : Nat :=
  digits.foldl (fun n c => n * base + digitValue c) 0

/-- The sign of a number and the rest of it without underscores. -/
def unsigned (text : Text) : Bool × Text :=
  let bare := text.filter (· ≠ '_')
  match bare with
  | '-' :: rest => (true, rest)
  | '+' :: rest => (false, rest)
  | _ => (false, bare)

/-- What is said of a number that has no digits in its base. -/
def noDigits (base : String) : Problem :=
  .noSuchScalar ("invalid literal for int() with base " ++ base ++ ": ''")

/-- What is said of a number that has too many digits. -/
def tooManyDigits (count : Nat) : Problem :=
  .noSuchScalar ("Exceeds the limit (4300 digits) for integer string conversion: value has "
    ++ String.ofList (Nat.toDigits 10 count)
    ++ " digits; use sys.set_int_max_str_digits() to increase the limit")

/-- The number that digits spell in base ten, unless there are too many of them. -/
def decimal (digits : Text) : Except Problem Nat :=
  if Scalar.digitLimit < digits.length then .error (tooManyDigits digits.length)
  else .ok (inBase 10 digits)

/-- The size of the whole number that a text without a sign spells. -/
def magnitude (body : Text) : Except Problem Nat :=
  match body with
  | ['0'] => .ok 0
  | ['0', 'b'] => .error (noDigits "2")
  | ['0', 'x'] => .error (noDigits "16")
  | '0' :: 'b' :: ds => .ok (inBase 2 ds)
  | '0' :: 'x' :: ds => .ok (inBase 16 ds)
  | '0' :: ds => .ok (inBase 8 ds)
  | _ =>
    ((Text.splitOn ':' body).mapM decimal).map fun parts =>
      parts.foldl (fun n part => n * 60 + part) 0

def intOf (text : Text) : Except Problem Scalar :=
  let (negative, body) := unsigned text
  (magnitude body).map fun n => .int (if negative then -(n : Int) else n)

/-- The number that digits with a point among them spell, times a power of ten. -/
def pointed (body : Text) (power : Int) : Double :=
  let whole := body.takeWhile (· ≠ '.')
  let fraction := body.drop (whole.length + 1)
  Double.ofDecimal false (inBase 10 (whole ++ fraction)) (power - fraction.length)

/-- The number that parts in base sixty spell, of which the first is worth `unit`. The parts are
added one by one to `sum`, each product and each sum rounded to a double. -/
def inSixties : (unit : Nat) → (sum : Double) → List Double → Except Problem Double
  | _, sum, [] => .ok sum
  | unit, sum, part :: rest =>
    let worth := Double.ofNat unit
    if worth.isInfinite then .error .tooManyParts
    else inSixties (unit * 60) (sum.add (part.mul worth)) rest

/-- The size of the number with a point that a text without a sign spells. In base sixty the last
part counts first. -/
def pointedMagnitude (body : Text) : Except Problem Double :=
  if body.contains ':' then
    inSixties 1 (Double.ofNat 0) ((Text.splitOn ':' body).reverse.map fun part => pointed part 0)
  else
    let mantissa := body.takeWhile fun c => c ≠ 'e' && c ≠ 'E'
    let power : Int :=
      match body.drop (mantissa.length + 1) with
      | '-' :: ds => -(inBase 10 ds : Int)
      | '+' :: ds => inBase 10 ds
      | _ => 0
    .ok (pointed mantissa power)

/-- The number with a point that a text spells. -/
def floatOf (text : Text) : Except Problem Scalar :=
  let (negative, body) := unsigned text
  (pointedMagnitude body).map fun x => .float (x.withSign negative)

def specialFloat? (text : Text) : Option Double :=
  let infinities := (spellings ".inf") ++ [".Inf".toList]
  if infinities.contains text then some (Double.infinity false)
  else if infinities.any fun word => ('+' :: word) = text then some (Double.infinity false)
  else if infinities.any fun word => ('-' :: word) = text then some (Double.infinity true)
  else if [".nan".toList, ".NaN".toList, ".NAN".toList].contains text then some Double.nan
  else none

def resolve (text : Text) : Except Problem Scalar :=
  if trueWords.contains text then .ok (.bool true)
  else if falseWords.contains text then .ok (.bool false)
  else if nullWords.contains text then .ok .null
  else if floatPattern.startsAt text then floatOf text
  else
    match specialFloat? text with
    | some x => .ok (.float x)
    | none =>
      if intPattern.startsAt text then intOf text
      else if text = "<<".toList || text = "=".toList then .error .malformed
      else
        match moment? text with
        | some (.ok found) => .ok (.moment found)
        | some (.error message) => .error (.noSuchScalar message)
        | none => .ok (.text (String.ofList text))

end SourceLens.Builtin.Yaml
