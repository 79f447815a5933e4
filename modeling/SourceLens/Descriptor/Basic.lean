import SourceLens.Outline
import SourceLens.Pattern.Search

/-!
# Descriptors

A descriptor names a language, the file extensions it goes by, and the patterns that find imports,
function headers, classes and blocks in its sources without parsing them. Import patterns keep the
specifier in group 1; function patterns keep the name in group 1, the raw parameters in group 2 and
the return type in group 3.

A request for dependencies is met by those that a source still lacks, and a script binds each to a
name.
-/

namespace SourceLens

/-- `HandlerDescriptor`: how a language is recognised and scanned. -/
structure Descriptor where
  extensions : List String
  languageId : String
  importPatterns : List Pattern := []
  functionPatterns : List Pattern := []
  classPatterns : List Pattern := []
  blockPatterns : List Pattern := []

namespace Descriptor

/-- What is said of a language that goes by no extension. -/
def emptyMessage (languageId : String) : String :=
  "Handler '" ++ languageId ++ "' declares no file extensions"

/-- The descriptor of a language, if it goes by at least one extension. -/
def make (extensions : List String) (languageId : String) : Except String Descriptor :=
  if extensions.isEmpty then .error (emptyMessage languageId) else .ok { extensions, languageId }

/-- `split_params`: the items of a parameter list: cut at commas, trimmed, empty ones dropped. -/
def splitParams (raw : Option Text) : List Text :=
  match raw with
  | none => []
  | some raw => ((Text.splitOn ',' raw).map Text.trim).filter (! ·.isEmpty)

/-- The function that a match of a function pattern describes. -/
def functionOf (found : Match) : FunctionInfo :=
  { name := found.group 1
    params := splitParams (found.group? 2)
    returnType := ((found.group? 3).map Text.trim).filter (! ·.isEmpty) }

/-- `analyze_imports` and `_parse_import`: the specifiers that the import patterns find, pattern by
pattern; repeated ones are kept. -/
def imports (descriptor : Descriptor) (text : Text) : List Text :=
  descriptor.importPatterns.flatMap fun pattern =>
    ((pattern.findAll text).map (·.group 1)).filter (! ·.isEmpty)

/-- `scan_functions` and `_parse_function`: the function headers that the function patterns find. -/
def functions (descriptor : Descriptor) (text : Text) : List FunctionInfo :=
  descriptor.functionPatterns.flatMap fun pattern => (pattern.findAll text).map functionOf

/-- `scan_classes`: the names that the class patterns find. -/
def classes (descriptor : Descriptor) (text : Text) : List Text :=
  descriptor.classPatterns.flatMap fun pattern => (pattern.findAll text).map (·.group 1)

/-- `scan_blocks`: the texts that the block patterns find. -/
def blocks (descriptor : Descriptor) (text : Text) : List Text :=
  descriptor.blockPatterns.flatMap fun pattern => (pattern.findAll text).map (·.text)

end Descriptor

namespace Dependency

/-- `missing_dependencies`: the requested dependencies that are not present, each once, in request
order. -/
def missing (present : List Text) : List Text → List Text
  | [] => []
  | dep :: rest =>
    if present.contains dep then missing present rest
    else dep :: missing (dep :: present) rest

/-- `_missing_imports`: the missing dependencies whose import statement does not stand in the text
already. -/
def toInject (statement : Text → Text) (text : Text) (requested present : List Text) : List Text :=
  (missing present requested).filter fun dep => !Text.occursIn (statement dep) text

def isAsciiAlnum (c : Char) : Bool := c.isAlphanum

/-- `derive_import_name`: the name for a specifier: the letters and digits of its last path segment,
after an underscore if they start with a digit. -/
def bindingName (specifier : Text) : Text :=
  let segment := (Text.splitOn '/' specifier).getLast?.getD []
  let name := segment.filter isAsciiAlnum
  if name.head?.any Char.isDigit then '_' :: name else name

end Dependency

end SourceLens
