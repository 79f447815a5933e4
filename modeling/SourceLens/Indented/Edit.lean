import SourceLens.Descriptor.Basic
import SourceLens.Indented.Analysis

/-!
# Generating and editing indented sources

Rendering imports, functions and classes, wrapping a text in a function, and adding imports that a
text lacks: after its last leading import, else after its documentation string, else at the top.
-/

namespace SourceLens.Indented

/-- The statement that imports a module. -/
def importLine (dep : Text) : Text := "import ".toList ++ dep

/-- `generate_imports`: the statements that import modules, one a line. -/
def generateImports (deps : List Text) : Text := Text.unlines (deps.map importLine)

/-- `generate_function`: a function definition. -/
def generateFunction (width : Nat) (name : Text) (params : List Text) (returnType : Option Text)
    (body : Text) : Text :=
  let arrow := match returnType with
    | some type => if type.isEmpty then [] else " -> ".toList ++ type
    | none => []
  "def ".toList ++ name ++ '(' :: Text.join ", ".toList params ++ ')' :: arrow ++ ":\n".toList
    ++ Text.indent width (if body.isEmpty then "pass".toList else body)

def methodText (width : Nat) (name body : Text) : Text :=
  "def ".toList ++ name ++ "(self):\n".toList ++ Text.indent width body

/-- `generate_class`: a class definition: a constructor that clears the properties, and empty
methods. -/
def generateClass (width : Nat) (name : Text) (properties methods : List Text) : Text :=
  let settings := properties.map fun property => "self.".toList ++ property ++ " = None".toList
  let initBody := Text.unlines settings
  let init := methodText width "__init__".toList
    (if initBody.isEmpty then "pass".toList else initBody)
  let members := init :: methods.map fun method => methodText width method "pass".toList
  "class ".toList ++ name ++ ":\n".toList
    ++ Text.indent width (Text.join "\n\n".toList members)

/-- `wrap_in_function`: a function whose body is the text. -/
def wrap (width : Nat) (text name : Text) : Text :=
  "def ".toList ++ name ++ "():\n".toList
    ++ Text.indent width (if Text.allBlank text then "pass".toList else text)

/-- The last line of the imports that lead a list of statements. -/
def lastImportStop (logical : List LogicalLine) : Option Nat :=
  ((logical.takeWhile (isImport ·.code)).getLast?).map (·.stop)

/-- The last line of a leading documentation string. -/
def docstringStop (logical : List LogicalLine) : Option Nat :=
  match logical with
  | [] => none
  | entry :: _ =>
    if !isImport entry.code && isDocstring entry.code then some entry.stop else none

def insertAfter (stop : Nat) (statements : List Text) (lines : List Text) : Text :=
  Text.unlines (lines.take (stop + 1) ++ statements ++ lines.drop (stop + 1))

/-- The modules that a text imports, by pattern and by statement. -/
def existingImports (descriptor : Descriptor) (text : Text) : List Text :=
  descriptor.imports text ++ importedModules (scan text).logical

/-- `inject_imports`: the text with the imports that it lacks. -/
def injectImports (descriptor : Descriptor) (text : Text) (deps : List Text) : Text :=
  let logical := (scan text).logical
  let new := Dependency.toInject importLine text deps (existingImports descriptor text)
  if new.isEmpty then text
  else
    let statements := generateImports new
    let lines := Text.lines text
    match lastImportStop (afterDocstring logical) with
    | some stop => insertAfter stop [statements] lines
    | none =>
      match docstringStop logical with
      | none => statements ++ "\n\n".toList ++ text
      | some stop =>
        let gap := if (lines.drop (stop + 1)).head?.any (! Text.allBlank ·) then [[]] else []
        insertAfter stop ([[], statements] ++ gap) lines

end SourceLens.Indented
