import SourceLens.Descriptor.Basic
import SourceLens.Stylesheet.Analysis

/-!
# Generating and editing style sheets

Rendering imports, mixins and rules, wrapping a text in a mixin, and adding imports that a sheet
lacks: after the last of its leading imports, else at the top.
-/

namespace SourceLens.Stylesheet

/-- The statement that imports a sheet. -/
def importLine (dep : Text) : Text := "@import '".toList ++ dep ++ "';".toList

/-- `generate_imports`: the statements that import sheets, one a line. -/
def generateImports (deps : List Text) : Text := Text.unlines (deps.map importLine)

/-- `generate_function`: a mixin. -/
def generateFunction (width : Nat) (name : Text) (params : List Text) (body : Text) : Text :=
  Text.braced ("@mixin ".toList ++ name ++ '(' :: Text.join ", ".toList params ++ [')'])
    (Text.indent width body)

def terminated (declaration : Text) : Text :=
  if Text.endsWith [';'] (Text.trimEnd declaration) then declaration else declaration ++ [';']

/-- `generate_class`: a class rule with the given declarations. -/
def generateClass (width : Nat) (name : Text) (declarations : List Text) : Text :=
  Text.braced ('.' :: name) (Text.indent width (Text.unlines (declarations.map terminated)))

/-- `wrap_in_function`: a mixin whose body is the text. -/
def wrap (width : Nat) (text name : Text) : Text :=
  Text.braced ("@mixin ".toList ++ name) (Text.indent width text)

/-- The number of the last import among the leading lines, the first of which has number `i`. -/
def lastImport (i : Nat) : List Text → Option Nat
  | [] => none
  | line :: rest =>
    if startsImport line then some ((lastImport (i + 1) rest).getD i)
    else if isPassive line then lastImport (i + 1) rest
    else none

/-- `inject_imports`: the text with the imports that it lacks. -/
def injectImports (descriptor : Descriptor) (text : Text) (deps : List Text) : Text :=
  let new := Dependency.toInject importLine text deps (descriptor.imports text)
  if new.isEmpty then text
  else
    let statements := generateImports new
    let lines := Text.lines text
    match lastImport 0 (plainLines text) with
    | none => statements ++ "\n\n".toList ++ text
    | some i => Text.unlines (lines.take (i + 1) ++ statements :: lines.drop (i + 1))

end SourceLens.Stylesheet
