import SourceLens.Text.Basic

/-!
# Characters of a line

Every character of a physical line has a role: code, part of a string literal, or part of a
comment. `lex` gives the roles from left to right, with two characters of lookahead for the triple
quotes that open and close a literal that may span lines. The code of a line keeps its code
characters and shows every literal as a pair of double quotes.
-/

namespace SourceLens.Indented

/-- What a character of a line is for. -/
inductive Role where
  | code
  /-- The first character of a string literal. -/
  | opening
  /-- Any other character of a string literal. -/
  | literal
  | comment
  deriving DecidableEq, Repr

/-- A character and its role. -/
structure Mark where
  char : Char
  role : Role
  deriving DecidableEq, Repr

/-- What a line is in the middle of. -/
inductive Mode where
  | code
  | comment
  /-- A literal that ends with its line. -/
  | short (quote : Char)
  /-- The character after a backslash in such a literal. -/
  | escaped (quote : Char)
  /-- A literal between triple quotes. -/
  | long (quote : Char)
  /-- The quotes that open such a literal, this one and `left` more. -/
  | openingQuotes (quote : Char) (left : Nat)
  /-- The quotes that close such a literal, this one and `left` more. -/
  | closingQuotes (left : Nat)
  deriving DecidableEq, Repr

/-- Whether `rest` starts with two more of the character `c`. -/
def tripled (c : Char) (rest : Text) : Bool := [c, c].isPrefixOf rest

/-- The role of the next character, and what the line is in the middle of after it. -/
def advance : Mode → Char → Text → Role × Mode
  | .comment, _, _ => (.comment, .comment)
  | .short q, c, _ =>
    if c = q then (.literal, .code)
    else if c = '\\' then (.literal, .escaped q)
    else (.literal, .short q)
  | .escaped q, _, _ => (.literal, .short q)
  | .long q, c, rest =>
    if c = q && tripled q rest then (.literal, .closingQuotes 1) else (.literal, .long q)
  | .openingQuotes q 0, _, _ => (.literal, .long q)
  | .openingQuotes q (left + 1), _, _ => (.literal, .openingQuotes q left)
  | .closingQuotes 0, _, _ => (.literal, .code)
  | .closingQuotes (left + 1), _, _ => (.literal, .closingQuotes left)
  | .code, c, rest =>
    if c = '#' then (.comment, .comment)
    else if isQuote c then
      if tripled c rest then (.opening, .openingQuotes c 1) else (.opening, .short c)
    else (.code, .code)

/-- The roles of the characters of a line, and what the line ends in the middle of. -/
def lex : Mode → Text → List Mark × Mode
  | mode, [] => ([], mode)
  | mode, c :: rest =>
    let (role, next) := advance mode c rest
    let (marks, last) := lex next rest
    ({ char := c, role } :: marks, last)

/-- What a character adds to the code of its line. -/
def Mark.code (mark : Mark) : Text :=
  match mark.role with
  | .code => [mark.char]
  | .opening => ['"', '"']
  | .literal => []
  | .comment => []

def codeOf (marks : List Mark) : Text := marks.flatMap Mark.code

/-- The column of the last literal that a line opens, counted from `column`. -/
def lastOpening (column : Nat) : List Mark → Option Nat
  | [] => none
  | mark :: rest =>
    match lastOpening (column + 1) rest with
    | some found => some found
    | none => if mark.role = .opening then some column else none

end SourceLens.Indented
