import SourceLens.Descriptor.Basic
import SourceLens.Script.Dialect

/-!
# Generating and editing scripts

Rendering imports, functions and classes, wrapping a text in a function, and adding imports that a
text lacks: after its last top-level import statement, else at the top.
-/

namespace SourceLens.Script

/-- `_import_binding`: the name that an import binds. -/
def importBinding (dep : Text) : Text :=
  let name := Dependency.bindingName dep
  if name.isEmpty then "module".toList else name

/-- The statement that imports a module. -/
def importLine (dialect : Dialect) (dep : Text) : Text :=
  let start := match dialect with
    | .typescript => "import * as "
    | .javascript => "import "
  start.toList ++ importBinding dep ++ " from '".toList ++ dep ++ "';".toList

/-- `generate_imports`: the statements that import modules, one a line. -/
def generateImports (dialect : Dialect) (deps : List Text) : Text :=
  Text.unlines (deps.map (importLine dialect))

def functionHeader (dialect : Dialect) (name : Text) (params : List Text)
    (returnType : Option Text) : Text :=
  match dialect with
  | .typescript =>
    let typed := params.map fun param =>
      if param.contains ':' then param else param ++ ": any".toList
    let result := match returnType with
      | some type => if type.isEmpty then [] else ": ".toList ++ type
      | none => []
    "function ".toList ++ name ++ '(' :: Text.join ", ".toList typed ++ ')' :: result
  | .javascript =>
    "function ".toList ++ name ++ '(' :: Text.join ", ".toList params ++ [')']

/-- `generate_function`: a function declaration. -/
def generateFunction (dialect : Dialect) (width : Nat) (name : Text) (params : List Text)
    (returnType : Option Text) (body : Text) : Text :=
  Text.braced (functionHeader dialect name params returnType) (Text.indent width body)

def emptyMethod (name : Text) : Text := name ++ "() \x7b\x7d".toList

/-- The members of a class declaration, one text per line or group of lines. -/
def classMembers (dialect : Dialect) (width : Nat) (properties methods : List Text) : List Text :=
  match dialect with
  | .typescript =>
    let fields := properties.map (· ++ ": any;".toList)
    fields ++ (if fields.isEmpty then [] else [[]]) ++ [emptyMethod "constructor".toList]
      ++ methods.flatMap fun method => [[], emptyMethod method]
  | .javascript =>
    let settings := Text.unlines
      (properties.map fun property => "this.".toList ++ property ++ " = null;".toList)
    let init := if settings.isEmpty then emptyMethod "constructor".toList
      else Text.braced "constructor()".toList (Text.indent width settings)
    init :: methods.map emptyMethod

/-- `generate_class`: a class declaration. -/
def generateClass (dialect : Dialect) (width : Nat) (name : Text)
    (properties methods : List Text) : Text :=
  Text.braced ("class ".toList ++ name)
    (Text.indent width (Text.unlines (classMembers dialect width properties methods)))

/-- `wrap_in_function`: a function whose body is the text. -/
def wrap (width : Nat) (text name : Text) : Text :=
  Text.braced ("function ".toList ++ name ++ "()".toList) (Text.indent width text)

/-- The end of the last top-level import statement. -/
def lastImportStop (parsed : Parsed) : Option Nat :=
  (((parsed.root.namedChildren).filter (·.kind = "import_statement")).map (·.stop)).max?

/-- `inject_imports`: the text with the imports that it lacks. -/
def injectImports (parser : Parser) (dialect : Dialect) (descriptor : Descriptor) (text : Text)
    (deps : List Text) : Logged Text := do
  let new := Dependency.toInject (importLine dialect) text deps (descriptor.imports text)
  if new.isEmpty then return text
  else
    let statements := generateImports dialect new
    let parsed ← parse parser dialect text
    match parsed.bind fun parsed => (lastImportStop parsed).map fun stop => (parsed, stop) with
    | none => return statements ++ "\n\n".toList ++ text
    | some (parsed, stop) =>
      return Utf8.decode (parsed.source.take stop) ++ '\n' :: statements
        ++ Utf8.decode (parsed.source.drop stop)

end SourceLens.Script
