import SourceLens.Descriptor.Catalogue
import SourceLens.Indented.Scan

/-!
# Statements

The shapes of statement that the analysis tells apart, read from the code of a logical line, and the
modules that import statements name.
-/

namespace SourceLens.Indented

open Pattern Descriptor

def anyChar : Pattern := noneOf "\n"

/-- The start of a function definition, its name in group 1. -/
def defStart : Pattern :=
  chain [gaps, opt (chain [lit "async", gaps1]), lit "def", wordEdge, gaps, group 1 (many wordChar)]

/-- The start of a class definition, its name in group 1. -/
def classStart : Pattern := chain [gaps, lit "class", wordEdge, gaps, group 1 (many wordChar)]

def defStatement : Pattern :=
  chain [opt (chain [lit "async", blanks1]), lit "def", blanks1, many1 wordChar, blanks, lit "(",
    many anyChar, lit ")", blanks, opt (chain [lit "->", many1 (noneOf ":")]), lit ":"]

def classStatement : Pattern :=
  chain [lit "class", blanks1, many1 wordChar, blanks,
    opt (chain [lit "(", many anyChar, lit ")"]), blanks, lit ":"]

def initStatement : Pattern :=
  chain [optAsync, lit "def", blanks1, lit "__init__", wordEdge]

def importStatement : Pattern :=
  oneOf [chain [lit "import", blank],
    chain [lit "from", blanks1, many1 (one (! isBlank ·)), blanks1, lit "import", wordEdge]]

/-- A statement that is one string literal, perhaps with letters in front. -/
def docstring : Pattern :=
  let letter := among "rRbBuUfF"
  chain [opt (chain [letter, opt letter]), lit "\"\"", finish]

def assignment : Pattern :=
  chain [group 1 (many1 wordChar), gaps, opt (chain [lit ":", many1 (noneOf "=")]), lit "=",
    notAhead (lit "=")]

/-- A word that adds a branch. -/
def branchWord : Pattern :=
  chain [wordEdge,
    oneOf [lit "if", lit "elif", lit "for", lit "while", lit "and", lit "or"], wordEdge]

/-- The annotation after a parameter list, kept in group 1. -/
def arrowType : Pattern :=
  chain [blanks, lit "->", blanks, group 1 (few1 (noneOf ":")), blanks, lit ":"]

def reservedWords : List String :=
  ["False", "None", "True", "and", "as", "assert", "async", "await", "break", "class", "continue",
   "def", "del", "elif", "else", "except", "finally", "for", "from", "global", "if", "import", "in",
   "is", "lambda", "nonlocal", "not", "or", "pass", "raise", "return", "try", "while", "with",
   "yield"]

def isReserved (name : Text) : Bool := reservedWords.any (·.toList == name)

/-- Whether a statement defines a function. -/
def isDef (code : Text) : Bool := defStart.startsAt code

def isClass (code : Text) : Bool := classStart.startsAt code

/-- `_is_definition`: whether a statement defines a function or a class. -/
def isDefinition (code : Text) : Bool := isDef code || isClass code

def isImport (code : Text) : Bool := importStatement.startsAt code

/-- Whether a statement is a documentation string. -/
def isDocstring (code : Text) : Bool := docstring.startsAt code

/-- The modules that one statement imports. -/
def modulesOf (code : Text) : List Text :=
  if Text.startsWith "from ".toList code then ((Text.words code).drop 1).take 1
  else if Text.startsWith "import ".toList code then
    (Text.splitOn ',' (code.drop 7)).filterMap fun item => (Text.words item).head?
  else []

/-- `_imported_modules`: the modules that the import statements of a text name. -/
def importedModules (logical : List LogicalLine) : List Text :=
  logical.flatMap fun entry => modulesOf entry.code

end SourceLens.Indented
