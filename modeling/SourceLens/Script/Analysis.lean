import SourceLens.Descriptor.Basic
import SourceLens.Script.Dialect

/-!
# Analysis of scripts

Dependencies, functions, outline and the checks of imports and structure, read from syntax trees. A
source that cannot be parsed has none of them.
-/

namespace SourceLens.Script

def functionKinds : List String := ["function_declaration", "generator_function_declaration"]

def functionValueKinds : List String :=
  ["arrow_function", "function_expression", "function", "generator_function"]

def classKinds : List String := ["class_declaration", "abstract_class_declaration"]

def bindingKinds : List String := ["lexical_declaration", "variable_declaration"]

def branchKinds : List String :=
  ["if_statement", "for_statement", "for_in_statement", "while_statement", "do_statement",
   "switch_case", "ternary_expression"]

def identifierKinds : List String :=
  ["identifier", "type_identifier", "shorthand_property_identifier",
   "shorthand_property_identifier_pattern"]

/-- A text without its first and last character, if it has both. -/
def unquote? (text : Text) : Option Text :=
  if 2 ≤ text.length then some (text.drop 1).dropLast else none

/-- `_string_value`: the text that a string literal stands for; a template with a placeholder stands
for none. -/
def stringValue? (parsed : Parsed) (node : Node) : Option Text :=
  let text := parsed.text node
  if node.kind = "string" then unquote? text
  else if node.kind = "template_string" then
    if Text.occursIn "$\x7b".toList text then none else unquote? text
  else none

/-- The node that names the module of an `import x = require(...)` clause. -/
def requireClauseSource? (clause : Node) : Option Node :=
  match clause.child? "source" with
  | some source => some source
  | none => clause.namedChildren.find? (·.kind = "string")

/-- The node that names the module of an import or export statement. -/
def statementSource? (node : Node) : Option Node :=
  match node.child? "source" with
  | some source => some source
  | none =>
    if node.kind = "import_statement" then
      ((node.namedChildren.filter (·.kind = "import_require_clause")).getLast?).bind
        requireClauseSource?
    else none

/-- `_required_module`: the module that a call of `require` or `import` loads. -/
def calledModule? (parsed : Parsed) (call : Node) : Option Text := do
  let callee ← call.child? "function"
  if callee.kind = "import"
      || (callee.kind = "identifier" && parsed.text callee = "require".toList) then
    let arguments ← call.child? "arguments"
    let first ← arguments.namedChildren.head?
    stringValue? parsed first
  else none

def dependency? (parsed : Parsed) (node : Node) : Option Text :=
  if node.kind = "import_statement" || node.kind = "export_statement" then
    (statementSource? node).bind (stringValue? parsed)
  else if node.kind = "call_expression" then calledModule? parsed node
  else none

/-- The modules that a parsed script depends on, each once. -/
def dependenciesOf (parsed : Parsed) : List Text :=
  Text.distinct ((parsed.nodes.filterMap (dependency? parsed)).filter (! ·.isEmpty))

/-- `analyze_dependencies`: the modules that a script depends on, each once. -/
def dependencies (parser : Parser) (dialect : Dialect) (text : Text) : Logged (List Text) := do
  match ← parse parser dialect text with
  | none => return []
  | some parsed => return dependenciesOf parsed

/-- Whether a node adds a branch. -/
def isBranch (dialect : Dialect) (node : Node) : Bool :=
  branchKinds.contains node.kind
    || (dialect.countsOperators && node.kind = "binary_expression"
      && (node.child? "operator").any fun operator => operator.kind = "&&" || operator.kind = "||")

/-- `_complexity`: the number of branches of a function, nested functions included. -/
def branchCount (dialect : Dialect) (function : Node) : Nat :=
  function.walk.countP (isBranch dialect)

/-- `_param_text`: a parameter as it is shown. -/
def paramText (parsed : Parsed) (dialect : Dialect) (param : Node) : Text :=
  if dialect.typedParams || param.kind ≠ "assignment_pattern" then parsed.text param
  else parsed.text ((param.child? "left").getD param)

def paramsOf (parsed : Parsed) (dialect : Dialect) (function : Node) : List Text :=
  match function.child? "parameters" with
  | some params =>
    (params.namedChildren.filter (·.kind ≠ "comment")).map (paramText parsed dialect)
  | none => ((function.child? "parameter").map parsed.text).toList

/-- The return type of a function, without its colon. -/
def returnTypeOf (parsed : Parsed) (function : Node) : Option Text :=
  ((function.child? "return_type").map fun type =>
    Text.trim ((parsed.text type).dropWhile (· = ':'))).filter (! ·.isEmpty)

/-- `_describe`: what is reported of a function. -/
def describe (parsed : Parsed) (dialect : Dialect) (name : Text) (function : Node) : FunctionInfo :=
  ({ name
     params := paramsOf parsed dialect function
     returnType := returnTypeOf parsed function } : FunctionInfo).withBranches
    (branchCount dialect function)

/-- The function that a node declares: a declaration, a method, or a variable bound to a function.
-/
def function? (parsed : Parsed) (dialect : Dialect) (node : Node) : Option FunctionInfo :=
  if functionKinds.contains node.kind || node.kind = "method_definition" then
    let name := ((node.child? "name").map parsed.text).getD "anonymous".toList
    some (describe parsed dialect name node)
  else if node.kind = "variable_declarator" then
    match node.child? "value", node.child? "name" with
    | some value, some name =>
      if functionValueKinds.contains value.kind then
        some (describe parsed dialect (parsed.text name) value)
      else none
    | _, _ => none
  else none

/-- `analyze_functions`: the functions of a script, in order. -/
def functions (parser : Parser) (dialect : Dialect) (text : Text) : Logged (List FunctionInfo) := do
  match ← parse parser dialect text with
  | none => return []
  | some parsed => return parsed.nodes.filterMap (function? parsed dialect)

/-- The kind of outline entry that a declaration makes. -/
def outlineKind? (kind : String) : Option OutlineKind :=
  if functionKinds.contains kind then some .function
  else if classKinds.contains kind then some .classLike
  else if kind = "interface_declaration" then some .interface
  else if kind = "enum_declaration" || kind = "type_alias_declaration" then some .other
  else none

/-- The kind and the name node of the outline entry that a node makes: a declaration under its own
name, and a variable statement under its first named variable. -/
def outlineName? (node : Node) : Option (OutlineKind × Node) :=
  if bindingKinds.contains node.kind then
    (node.namedChildren.filter (·.kind = "variable_declarator")).findSome? fun declarator =>
      (declarator.child? "name").map (.binding, ·)
  else do
    let kind ← outlineKind? node.kind
    let name ← node.child? "name"
    return (kind, name)

def outlined? (parsed : Parsed) (node : Node) : Option OutlineEntry :=
  (outlineName? node).map fun (kind, name) =>
    .ofLines kind (parsed.text name) (parsed.startPoint node).row (parsed.stopPoint node).row

/-- `analyze_structure` and `_structure_entry`: the outline of a script. -/
def outline (parser : Parser) (dialect : Dialect) (text : Text) : Logged (List OutlineEntry) := do
  match ← parse parser dialect text with
  | none => return []
  | some parsed => return parsed.nodes.filterMap (outlined? parsed)

mutual

/-- The names that a tree uses; what an import statement itself binds is no use. -/
def usedNames (parsed : Parsed) : Node → List Text
  | .mk label children =>
    if label.kind = "import_statement" then []
    else
      let own := if identifierKinds.contains label.kind then
        [parsed.text (.mk label children)] else []
      own ++ usedNamesAll parsed children

def usedNamesAll (parsed : Parsed) : List Node → List Text
  | [] => []
  | node :: rest => usedNames parsed node ++ usedNamesAll parsed rest

end

/-- `validate_imports`: whether the name derived from every dependency is used. -/
def importsValid (parser : Parser) (dialect : Dialect) (text : Text) : Logged Bool := do
  match ← parse parser dialect text with
  | none => return false
  | some parsed =>
    if parsed.hasErrors then return false
    else
      let deps ← dependencies parser dialect text
      let used := usedNames parsed parsed.root
      return deps.all fun dep => used.contains (Dependency.bindingName dep)

/-- Whether a class body declares a constructor. -/
def hasConstructor (parsed : Parsed) (body : Node) : Bool :=
  body.namedChildren.any fun member =>
    member.kind = "method_definition"
      && (member.child? "name").any fun name => parsed.text name = "constructor".toList

/-- Whether a parsed script keeps the structural rule of its dialect: every class declares a
constructor, or the script exports something. -/
def structureValidOf (dialect : Dialect) (parsed : Parsed) : Bool :=
  match dialect with
  | .typescript =>
    parsed.nodes.all fun node => node.kind ≠ "class_body" || hasConstructor parsed node
  | .javascript => parsed.nodes.any (·.kind = "export_statement")

/-- `validate_structure`: whether a script parses without errors and keeps the structural rule of
its dialect. -/
def structureValid (parser : Parser) (dialect : Dialect) (text : Text) : Logged Bool := do
  match ← parse parser dialect text with
  | none => return false
  | some parsed => return !parsed.hasErrors && structureValidOf dialect parsed

end SourceLens.Script
