import SourceLens.Text.LetterCase
import SourceLens.Tree.Grammar

/-!
# Elements of a document

An element of a parsed document with its tag name and attributes resolved. Names are compared in
lower case; of an attribute given twice the first counts.
-/

namespace SourceLens.Markup

def elementKinds : List String := ["element", "script_element", "style_element"]

def rawTextKinds : List String := ["script_element", "style_element"]

def tagKinds : List String := ["start_tag", "self_closing_tag"]

def voidTags : List Text :=
  ["area", "base", "br", "col", "embed", "hr", "img", "input", "link", "meta", "param", "source",
   "track", "wbr"].map String.toList

def optionalEndTags : List Text :=
  ["html", "head", "body", "p", "li", "dt", "dd", "rt", "rp", "optgroup", "option", "colgroup",
   "caption", "thead", "tbody", "tfoot", "tr", "td", "th"].map String.toList

def verbatimTags : List Text := ["pre", "textarea"].map String.toList

/-- `_Element`: an element, its tag name and its attributes. -/
structure Element where
  tag : Text
  node : Node
  tagNode : Node
  attributes : List (Text × Text)

namespace Element

/-- The value of an attribute. -/
def get? (element : Element) (name : String) : Option Text :=
  (element.attributes.find? (·.1 = name.toList)).map (·.2)

def selfClosing (element : Element) : Bool := element.tagNode.kind = "self_closing_tag"

/-- Whether the element has an end. -/
def closed (element : Element) : Bool :=
  element.selfClosing || element.node.children.any (·.kind = "end_tag")

/-- Whether another element starts within this one. -/
def contains (element other : Element) : Bool :=
  element.node.start ≤ other.node.start && other.node.start < element.node.stop

/-- `_is_stylesheet`: whether the element links a style sheet. -/
def isStylesheet (element : Element) : Bool :=
  element.tag = "link".toList
    && (Text.words (lower ((element.get? "rel").getD []))).contains "stylesheet".toList

end Element

def quotedValue (parsed : Parsed) (node : Node) : Text :=
  ((node.children.find? (·.kind = "attribute_value")).map parsed.text).getD []

/-- Takes one part of an attribute into account. -/
def attributePart (parsed : Parsed) (found : Text × Text) (part : Node) : Text × Text :=
  if part.kind = "attribute_name" then (lower (parsed.text part), found.2)
  else if part.kind = "attribute_value" then (found.1, parsed.text part)
  else if part.kind = "quoted_attribute_value" then (found.1, quotedValue parsed part)
  else found

/-- `_attribute`: the name and value of an attribute. -/
def attributeOf (parsed : Parsed) (node : Node) : Text × Text :=
  node.children.foldl (attributePart parsed) ([], [])

/-- The tag name of a tag: the last one it holds. -/
def tagName (parsed : Parsed) (tagNode : Node) : Text :=
  (((tagNode.children.filter (·.kind = "tag_name")).getLast?).map
    fun node => lower (parsed.text node)).getD []

/-- `_element`: the element that a node is, if it has a tag with a name. -/
def element? (parsed : Parsed) (node : Node) : Option Element := do
  let tagNode ← node.children.find? fun child => tagKinds.contains child.kind
  let tag := tagName parsed tagNode
  if tag.isEmpty then none
  else
    let attributes := (tagNode.children.filter (·.kind = "attribute")).map (attributeOf parsed)
    return { tag, node, tagNode, attributes }

/-- `_elements`: the elements of a document, in order. -/
def elements (parsed : Parsed) : List Element :=
  (parsed.nodes.filter fun node => elementKinds.contains node.kind).filterMap (element? parsed)

/-- `_raw_text`: the text inside a script or a style sheet. -/
def rawText (parsed : Parsed) (node : Node) : Text :=
  (node.children.filter (·.kind = "raw_text")).flatMap parsed.text

end SourceLens.Markup
