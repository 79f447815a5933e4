import SourceLens.Stylesheet.UseRule
import SourceLens.Tree.Grammar

/-!
# Analysis of style sheets

Dependencies, mixins and functions, rules and the checks of imports and structure.
-/

namespace SourceLens.Stylesheet

/-- `_parse`: parses a sheet with its use statements blanked out. -/
def parse (parser : Parser) (text : Text) : Logged (Option Parsed) := parser.parse? .css (mask text)

mutual

/-- `_descendants`: the nodes below a node, each with the kind of its parent. -/
def below : Node → List (String × Node)
  | .mk label children => belowAll label.kind children

/-- Several nodes and those below them, each with the kind of its parent. -/
def belowAll (parent : String) : List Node → List (String × Node)
  | [] => []
  | node :: rest => (parent, node) :: below node ++ belowAll parent rest

end

/-- `_unquote`: a text without blanks and then without quotes at its ends. -/
def unquote (text : Text) : Text :=
  Text.trimBy (fun c => c = '\'' || c = '"') (Text.trim text)

/-- The argument that a node is: a string, or the bare argument of a call. -/
def argument? (parsed : Parsed) : String × Node → Option Text
  | (parent, node) =>
    if node.kind = "string_value" then some (unquote (parsed.text node))
    else if node.kind = "plain_value" && parent = "arguments" then
      some (Text.trim (parsed.text node))
    else none

/-- `_first_argument`: the first argument of a statement. -/
def firstArgument? (parsed : Parsed) (node : Node) : Option Text :=
  (below node).findSome? (argument? parsed)

abbrev Located := Bytes.Point × Text

/-- Whether one place comes no later than another. -/
def Located.le (a b : Located) : Bool :=
  a.1.row < b.1.row || (a.1.row == b.1.row && a.1.column ≤ b.1.column)

def usedSources (rules : List UseRule) : List Located :=
  rules.filterMap fun rule =>
    (rule.source.filter (! ·.isEmpty)).map fun source => (rule.point, source)

def importedSources (parsed : Parsed) : List Located :=
  (parsed.nodes.filter (·.kind = "import_statement")).filterMap fun node =>
    ((firstArgument? parsed node).filter (! ·.isEmpty)).map fun source =>
      (parsed.startPoint node, source)

/-- `analyze_dependencies`: the sheets that a sheet depends on, each once, by place. -/
def dependencies (parser : Parser) (text : Text) : Logged (List Text) := do
  match ← parse parser text with
  | none => return []
  | some parsed =>
    let found := usedSources (useRules text) ++ importedSources parsed
    return Text.distinct ((found.mergeSort Located.le).map (·.2))

/-- `_at_keyword`: the keyword of an at-rule. -/
def atKeyword? (parsed : Parsed) (node : Node) : Option Text :=
  (node.children.find? (·.kind = "at_keyword")).map parsed.text

/-- `_block_of`: the block of a rule. -/
def block? (node : Node) : Option Node := node.namedChildren.find? (·.kind = "block")

/-- `_header`: the text of a rule before its block, or all of it if it has none. -/
def headerOf (parsed : Parsed) (node : Node) : Text :=
  match block? node with
  | some block => parsed.slice node.start block.start
  | none => parsed.text node

def nestedRules (block : Option Node) : Nat :=
  match block with
  | some block => block.descendants.countP (·.kind = "rule_set")
  | none => 0

/-- The mixin or function that an at-rule defines; its complexity counts the rules in its block. -/
def function? (descriptor : Descriptor) (parsed : Parsed) (node : Node) : Option FunctionInfo :=
  if node.kind = "at_rule"
      && (atKeyword? parsed node).any fun word =>
        word = "@mixin".toList || word = "@function".toList then
    (descriptor.functionPatterns.findSome? (·.find? (headerOf parsed node))).map fun found =>
      ({ name := found.group 1
         params := Descriptor.splitParams (found.group? 2) } : FunctionInfo).withBranches
        (nestedRules (block? node))
  else none

/-- `analyze_functions`: the mixins and functions of a sheet, in order. -/
def functions (parser : Parser) (descriptor : Descriptor) (text : Text) :
    Logged (List FunctionInfo) := do
  match ← parse parser text with
  | none => return []
  | some parsed => return parsed.nodes.filterMap (function? descriptor parsed)

def selectorText (parsed : Parsed) (rule : Node) : Text :=
  match rule.namedChildren.find? (·.kind = "selectors") with
  | some selectors => Text.collapse (parsed.text selectors)
  | none => []

/-- The outline entry of a rule; a rule whose selectors start with a class is a class. -/
def outlineEntry (parsed : Parsed) (rule : Node) : OutlineEntry :=
  let name := selectorText parsed rule
  .ofLines (if Text.startsWith ['.'] name then .classLike else .other) name
    (parsed.startPoint rule).row (parsed.stopPoint rule).row

/-- `analyze_structure`: the outline of a sheet: its rules. -/
def outline (parser : Parser) (text : Text) : Logged (List OutlineEntry) := do
  match ← parse parser text with
  | none => return []
  | some parsed =>
    return (parsed.nodes.filter (·.kind = "rule_set")).map (outlineEntry parsed)

def startsImport (line : Text) : Bool :=
  Text.startsWith "@import".toList line || Text.startsWith "@use".toList line

/-- Whether a line has nothing that imports must precede: it is empty, a line comment or the
declaration of the character set. -/
def isPassive (line : Text) : Bool :=
  line.isEmpty || Text.startsWith "//".toList line || Text.startsWith "@charset".toList line

/-- The lines of a sheet without comments, each trimmed. -/
def plainLines (text : Text) : List Text := (Text.lines (stripComments text)).map Text.trim

/-- Whether imports come first, given whether other lines were seen. -/
def importsLead : Bool → List Text → Bool
  | _, [] => true
  | seenRule, line :: rest =>
    if startsImport line then !seenRule && importsLead seenRule rest
    else importsLead (seenRule || !isPassive line) rest

/-- `validate_imports`: whether all imports precede every other statement. -/
def importsValid (text : Text) : Bool := importsLead false (plainLines text)

/-- `validate_structure`: whether a sheet parses without errors and no rule holds another. -/
def structureValid (parser : Parser) (text : Text) : Logged Bool := do
  match ← parse parser text with
  | none => return false
  | some parsed =>
    return !parsed.hasErrors && parsed.nodes.all fun node =>
      node.kind ≠ "rule_set" || node.descendants.all (·.kind ≠ "rule_set")

end SourceLens.Stylesheet
