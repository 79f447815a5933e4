import SourceLens.Indented.Blocks
import SourceLens.Indented.Signature
import SourceLens.Text.Identifier

/-!
# Analysis of indented sources

Dependencies, functions, outline and diagnostics of a source whose blocks are made by indentation.
All of it reads logical lines; no grammar is involved.
-/

namespace SourceLens.Indented

/-- `analyze_dependencies`: the top-level names of the imported modules, each once; relative imports
have none. -/
def dependencies (text : Text) : List Text :=
  Text.distinct
    ((((importedModules (scan text).logical).map fun name => name.takeWhile (· ≠ '.')).filter
      isIdentifier))

/-- The physical lines of a logical line, joined. -/
def headerText (lines : List Text) (entry : LogicalLine) : Text :=
  Text.unlines ((lines.drop entry.line).take (entry.stop + 1 - entry.line))

def branchCount (body : List LogicalLine) : Nat :=
  body.foldl (fun count entry => count + (branchWord.findAll entry.code).length) 0

/-- The function that a definition describes, read by the header pattern or, failing that, by its
signature. -/
def readHeader (name header : Text) : FunctionInfo :=
  match Descriptor.defHeader.matchStart? header with
  | some found => Descriptor.functionOf found
  | none => functionOfHeader (if name.isEmpty then "anonymous".toList else name) header

/-- `analyze_functions`: the functions that a text defines, in order. -/
def functions (text : Text) : List FunctionInfo :=
  let lines := Text.lines text
  (withRest (scan text).logical).filterMap fun (entry, rest) =>
    (defStart.matchStart? entry.code).map fun found =>
      (readHeader (found.group 1) (headerText lines entry)).withBranches
        (branchCount (block entry rest))

/-- The name that a pattern keeps in group 1, if it matches and the name is not empty. -/
def nameBy (pattern : Pattern) (code : Text) : Option Text :=
  ((pattern.matchStart? code).map (·.group 1)).filter (! ·.isEmpty)

/-- The outline entry of a logical line, if it makes one. -/
def outlined? (entry : LogicalLine) (rest : List LogicalLine) : Option OutlineEntry :=
  match nameBy defStart entry.code with
  | some name => some (.ofLines .function name entry.line (blockStop entry rest))
  | none =>
    match nameBy classStart entry.code with
    | some name => some (.ofLines .classLike name entry.line (blockStop entry rest))
    | none =>
      if entry.indent = 0 then
        ((nameBy assignment entry.code).filter (! isReserved ·)).map fun name =>
          .ofLines .binding name entry.line entry.stop
      else none

/-- `analyze_structure`: the outline of a text: functions and classes with their blocks, and
top-level variables. -/
def outline (text : Text) : List OutlineEntry :=
  (withRest (scan text).logical).filterMap fun (entry, rest) => outlined? entry rest

/-- The problem with the header of a definition, if there is one. -/
def headerProblem (entry : LogicalLine) : Option Diagnostic :=
  if isDef entry.code then
    if defStatement.startsAt entry.code then none
    else some (aboutIndent entry "Invalid function definition")
  else if isClass entry.code then
    if classStatement.startsAt entry.code then none
    else some (aboutIndent entry "Invalid class definition")
  else none

/-- `detect_syntax_errors`: the syntax problems of a text, by place. -/
def diagnose (text : Text) : List Diagnostic :=
  let found := scan text
  Diagnostic.sort
    ((levels found.logical).2 ++ found.diagnostics ++ found.logical.filterMap headerProblem)

/-- Whether imports come first, given whether other code was seen. -/
def importsLead : Bool → List LogicalLine → Bool
  | _, [] => true
  | seenCode, entry :: rest =>
    if isImport entry.code then !seenCode && importsLead seenCode rest else importsLead true rest

/-- The lines after a leading documentation string. -/
def afterDocstring : List LogicalLine → List LogicalLine
  | [] => []
  | entry :: rest =>
    if !isImport entry.code && isDocstring entry.code then rest else entry :: rest

/-- `validate_imports`: whether all imports precede every other statement, a leading documentation
string apart. -/
def importsValid (text : Text) : Bool := importsLead false (afterDocstring (scan text).logical)

/-- Whether a class has a constructor in its block and no other class. -/
def classValid (body : List LogicalLine) : Bool :=
  !(body.any (isClass ·.code)) && body.any (initStatement.startsAt ·.code)

/-- `validate_structure`: whether every class defines a constructor and holds no other class. -/
def structureValid (text : Text) : Bool :=
  (withRest (scan text).logical).all fun (entry, rest) =>
    !isClass entry.code || classValid (block entry rest)

end SourceLens.Indented
