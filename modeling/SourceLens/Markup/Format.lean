import SourceLens.Markup.Analysis

/-!
# Formatting documents

The element tree is written anew, one element a line, indented by depth. An element that holds text
only stays on one line, scripts and style sheets keep their inside, and elements whose blanks matter
are kept as they are. A document with parse errors is left as it is.
-/

namespace SourceLens.Markup

/-- `_open_tag`: the opening tag of an element, its attributes one space apart. -/
def openTag (parsed : Parsed) (element : Element) : Text :=
  let attributes := (element.tagNode.children.filter (·.kind = "attribute")).map parsed.text
  '<' :: Text.join [' '] (element.tag :: attributes)
    ++ (if element.selfClosing then " />" else ">").toList

def closeTag (element : Element) : Text := "</".toList ++ element.tag ++ ['>']

def lineOf (pad content : Text) : List Text := if content.isEmpty then [] else [pad ++ content]

/-- The lines of a script or style sheet: its inside is kept, line feeds at its ends and blanks at
its end apart. -/
def renderRaw (parsed : Parsed) (pad : Text) (element : Element) : List Text :=
  let raw := Text.trimBy (· = '\n') (rawText parsed element.node)
  if Text.allBlank raw then [pad ++ openTag parsed element ++ closeTag element]
  else
    (pad ++ openTag parsed element) :: Text.lines (Text.trimEnd raw) ++ [pad ++ closeTag element]

/-- Whether a node is part of the content of an element. -/
def isContent (node : Node) : Bool := !tagKinds.contains node.kind && node.kind ≠ "end_tag"

mutual

/-- `_render`: the lines of a node at a depth. -/
def render (width : Nat) (parsed : Parsed) : Nat → Node → List Text
  | depth, .mk label children =>
    let node := Node.mk label children
    let pad := Text.spaces (width * depth)
    if label.kind = "text" then lineOf pad (Text.collapse (parsed.text node))
    else if !elementKinds.contains label.kind then lineOf pad (Text.trim (parsed.text node))
    else
      match element? parsed node with
      | none => [pad ++ Text.trim (parsed.text node)]
      | some element =>
        if element.selfClosing || voidTags.contains element.tag then
          [pad ++ openTag parsed element]
        else if verbatimTags.contains element.tag then [pad ++ parsed.text node]
        else if rawTextKinds.contains label.kind then renderRaw parsed pad element
        else
          let content := children.filter isContent
          if content.all (·.kind = "text") then
            let texts := content.map fun child => Text.collapse (parsed.text child)
            [pad ++ openTag parsed element ++ Text.trim (Text.join [' '] texts)
              ++ closeTag element]
          else
            (pad ++ openTag parsed element) :: renderContent width parsed (depth + 1) children
              ++ [pad ++ closeTag element]

/-- The lines of the content among several nodes. -/
def renderContent (width : Nat) (parsed : Parsed) : Nat → List Node → List Text
  | _, [] => []
  | depth, node :: rest =>
    (if isContent node then render width parsed depth node else [])
      ++ renderContent width parsed depth rest

end

def renderAll (width : Nat) (parsed : Parsed) (nodes : List Node) : List Text :=
  nodes.flatMap (render width parsed 0)

/-- `format_code`: the formatted text. -/
def format (parser : Parser) (width : Nat) (text : Text) : Logged Text := do
  match ← parse parser text with
  | none => return text
  | some parsed =>
    if parsed.hasErrors then return text
    else
      let formatted := Text.unlines (renderAll width parsed parsed.root.children)
      return if !formatted.isEmpty && text.getLast? = some '\n' then formatted ++ ['\n']
        else formatted

end SourceLens.Markup
