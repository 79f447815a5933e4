import SourceLens.Text.Basic

/-!
# Integers in text

An integer is written plainly as an optional minus and digits, the first of which is no zero unless
it is the only one. It may also be written loosely, with blanks around it, a plus, zeros and
underscores after the sign, a point and zeros behind, or an underscore between two digits. A text
that is not plain is cleaned once, and what is left must be plain.
-/

namespace SourceLens.Builtin.IntegerText

/-- What a text is as an integer. -/
inductive Reading where
  | value (n : Int)
  | tooLong
  | malformed
  deriving DecidableEq, Repr

/-- The most characters that a plain integer has, its sign among them. -/
def limit : Nat := 4300

def natOf (digits : Text) : Nat := digits.foldl (fun n c => n * 10 + (c.toNat - 48)) 0

/-- A text read as a plain integer. Too many digits are too many whatever follows them. -/
def plain (text : Text) : Reading :=
  let (negative, body) : Bool × Text := match text with
    | '-' :: rest => (true, rest)
    | _ => (false, text)
  let digits := body.takeWhile Char.isDigit
  let rest := body.dropWhile Char.isDigit
  match digits with
  | [] => .malformed
  | '0' :: more => if more.isEmpty && rest.isEmpty then .value 0 else .malformed
  | _ =>
    if limit < digits.length + (if negative then 1 else 0) then .tooLong
    else if rest.isEmpty then .value (if negative then -(natOf digits : Int) else natOf digits)
    else .malformed

def isMargin (c : Char) : Bool := isBlank c && !(0x1c ≤ c.toNat && c.toNat ≤ 0x1f)

/-- Whether a text has a minus in front, and what follows its sign; a plus does not go before a
minus. -/
def cutSign : Text → Option (Bool × Text)
  | '+' :: '-' :: _ => none
  | '+' :: rest => some (false, rest)
  | '-' :: rest => some (true, rest)
  | text => some (false, text)

/-- Whether a number goes on with a character after its leading zeros. -/
def startsNumber (c : Char) : Bool := c = '-' || c.isDigit

/-- What follows zeros and underscores, the last of which is `last`. It is kept where nothing or a
point follows. -/
def afterZeros (last : Char) : Text → Option Text
  | [] => some [last]
  | c :: rest =>
    if c = '0' || c = '_' then afterZeros c rest
    else if c = '.' then some (last :: c :: rest)
    else if startsNumber c then some (c :: rest)
    else none

/-- A text without its leading zeros and the underscores among them. -/
def dropZeros : Text → Option Text
  | [] => none
  | c :: rest =>
    if c = '0' then afterZeros c rest else if startsNumber c then some (c :: rest) else none

/-- A text without a point and zeros at its end. -/
def dropZeroFraction (text : Text) : Text :=
  let whole := text.takeWhile (· ≠ '.')
  let fraction := text.drop (whole.length + 1)
  if !fraction.isEmpty && fraction.all (· = '0') then whole else text

/-- A text without its underscores, if each of them stands alone between two characters. -/
def joinGroups (text : Text) : Text :=
  if text.head? = some '_' || text.getLast? = some '_' || Text.occursIn ['_', '_'] text then text
  else text.filter (· ≠ '_')

/-- A text without what a loosely written integer may have beside its minus and digits. -/
def clean (text : Text) : Option Text := do
  let (negative, body) ← cutSign (Text.trimBy isMargin text)
  let digits := joinGroups (dropZeroFraction (← dropZeros body))
  return if negative then '-' :: digits else digits

def read (text : Text) : Reading :=
  match plain text with
  | .malformed =>
    match clean text with
    | some cleaned => plain cleaned
    | none => .malformed
  | reading => reading

end SourceLens.Builtin.IntegerText
