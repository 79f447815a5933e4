import SourceLens.Descriptor.Catalogue
import SourceLens.Markup.Element

/-!
# Analysis of documents

Dependencies, inline functions, outline, diagnostics and the checks of imports and structure. The
inside of a script is not parsed: its functions and branches are found by patterns.
-/

namespace SourceLens.Markup

open Pattern Descriptor

/-- The branches of an inline script, each by its own pattern. -/
def branchPatterns : List Pattern :=
  let call := fun (word : String) => chain [wordEdge, lit word, blanks, lit "("]
  [call "if",
   chain [wordEdge, lit "else", blanks1, lit "if", blanks, lit "("],
   call "for", call "while", call "switch",
   chain [lit "?", blanks, many1 (noneOf ":?"), blanks, lit ":"]]

/-- `_parse`: parses a document. -/
def parse (parser : Parser) (text : Text) : Logged (Option Parsed) := parser.parse? .html text

def dependency? (element : Element) : Option Text :=
  if element.isStylesheet then element.get? "href"
  else if element.tag = "script".toList || element.tag = "img".toList then element.get? "src"
  else none

/-- `analyze_dependencies`: the style sheets, scripts and images of a document, each once. -/
def dependencies (parser : Parser) (text : Text) : Logged (List Text) := do
  match ← parse parser text with
  | none => return []
  | some parsed =>
    return Text.distinct (((elements parsed).filterMap dependency?).filter (! ·.isEmpty))

/-- The number of branches of an inline script. -/
def branchCount (script : Text) : Nat :=
  branchPatterns.foldl (fun count pattern => count + (pattern.findAll script).length) 0

/-- The functions of an inline script, each as complex as the whole script. -/
def scriptFunctions (descriptor : Descriptor) (script : Text) : List FunctionInfo :=
  if Text.allBlank script then []
  else
    let branches := branchCount script
    (descriptor.functions script).map fun found =>
      ({ name := found.name, params := found.params } : FunctionInfo).withBranches branches

/-- `analyze_functions`: the functions of the inline scripts of a document. -/
def functions (parser : Parser) (descriptor : Descriptor) (text : Text) :
    Logged (List FunctionInfo) := do
  match ← parse parser text with
  | none => return []
  | some parsed =>
    return (parsed.nodes.filter (·.kind = "script_element")).flatMap fun node =>
      scriptFunctions descriptor (rawText parsed node)

def elementLabel (element : Element) : Text :=
  match (element.get? "id").filter (! ·.isEmpty) with
  | some id => element.tag ++ '#' :: id
  | none => element.tag

/-- The outline entries of an element: itself, and once more if it is a script or a style sheet. -/
def outlineEntries (parsed : Parsed) (element : Element) : List OutlineEntry :=
  let entry := fun kind name => OutlineEntry.ofLines kind name
    (parsed.startPoint element.node).row (parsed.stopPoint element.node).row
  entry .other (elementLabel element) ::
    if element.node.kind = "script_element" then [entry .function "script".toList]
    else if element.node.kind = "style_element" then [entry .other "style".toList]
    else []

/-- `analyze_structure`: the outline of a document. -/
def outline (parser : Parser) (text : Text) : Logged (List OutlineEntry) := do
  match ← parse parser text with
  | none => return []
  | some parsed => return (elements parsed).flatMap (outlineEntries parsed)

def strayTag (parsed : Parsed) (node : Node) : Diagnostic :=
  parsed.report node ("Unexpected closing tag '".toList ++ parsed.text node ++ "'".toList)

def unclosed? (parsed : Parsed) (element : Element) : Option Diagnostic :=
  if element.closed || voidTags.contains element.tag || optionalEndTags.contains element.tag then
    none
  else
    some (parsed.report element.node ("Unclosed <".toList ++ element.tag ++ "> element".toList))

/-- `detect_syntax_errors`: the problems of a parsed document, by place. -/
def diagnoseParsed (parsed : Parsed) : List Diagnostic :=
  Diagnostic.sort
    (parsed.diagnostics
      ++ (parsed.nodes.filter (·.kind = "erroneous_end_tag")).map (strayTag parsed)
      ++ (elements parsed).filterMap (unclosed? parsed))

/-- Whether the scripts of a body come last: it loads none, or its last element is a script. -/
def scriptsClose (all : List Element) (body : Element) : Bool :=
  let loads := all.any fun element =>
    element.tag = "script".toList && (element.get? "src").isSome && body.contains element
  let children := body.node.namedChildren.filter fun child => elementKinds.contains child.kind
  !loads || children.getLast?.any (·.kind = "script_element")

/-- Whether style sheets are linked in the head and the scripts of the body come last. -/
def importsValidOf (parsed : Parsed) : Bool :=
  let all := elements parsed
  let head := all.find? (·.tag = "head".toList)
  let body := all.find? (·.tag = "body".toList)
  (all.all fun element => !element.isStylesheet || head.any (·.contains element))
    && (body.all (scriptsClose all))

/-- `validate_imports`: whether a document parses, links its style sheets in the head and loads its
scripts last. -/
def importsValid (parser : Parser) (text : Text) : Logged Bool := do
  match ← parse parser text with
  | none => return false
  | some parsed => return importsValidOf parsed

def requiredTags : List Text := ["html", "head", "body", "title"].map String.toList

/-- `validate_structure`: whether a document parses and has all required elements. -/
def structureValid (parser : Parser) (text : Text) : Logged Bool := do
  match ← parse parser text with
  | none => return false
  | some parsed =>
    let tags := (elements parsed).map (·.tag)
    return requiredTags.all tags.contains

end SourceLens.Markup
