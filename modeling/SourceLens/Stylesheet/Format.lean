import SourceLens.Stylesheet.Analysis

/-!
# Formatting style sheets

A sheet is written anew from its tree: one declaration a line, indented by depth, and a blank line
before and after every statement with a block. Use statements are put back by position. A sheet with
syntax errors, or with a use statement inside another statement, is left as it is.
-/

namespace SourceLens.Stylesheet

/-- Drops semicolons and then blanks at the end of a trimmed text. -/
def dropSemicolons (text : Text) : Text :=
  Text.trimEnd ((Text.trim text).reverse.dropWhile (· = ';')).reverse

/-- `_render_declaration`: a declaration with one space after its colon and a semicolon at its
end. -/
def declarationText (text : Text) : Text :=
  let content := dropSemicolons text
  match content.dropWhile (· ≠ ':') with
  | [] => Text.collapse content ++ [';']
  | _ :: value =>
    Text.trim (content.takeWhile (· ≠ ':')) ++ ": ".toList ++ Text.trim value ++ [';']

mutual

/-- `_render`: a statement at a depth. -/
def render (width : Nat) (parsed : Parsed) : Nat → Node → Text
  | depth, .mk label children =>
    let node := Node.mk label children
    let pad := Text.spaces (width * depth)
    if label.kind = "comment" then pad ++ Text.trim (parsed.text node)
    else if label.kind = "declaration" then pad ++ declarationText (parsed.text node)
    else
      match renderBlock width parsed (depth + 1) children with
      | none => pad ++ Text.collapse (parsed.text node)
      | some (start, items) =>
        let header := Text.collapse (parsed.slice label.start start)
        if items.isEmpty then pad ++ header ++ " \x7b\x7d".toList
        else
          pad ++ header ++ " \x7b\n".toList ++ Text.unlines items ++ '\n' :: pad ++ ['\x7d']

/-- The start of the first block among several nodes, and the statements in it. -/
def renderBlock (width : Nat) (parsed : Parsed) : Nat → List Node → Option (Nat × List Text)
  | _, [] => none
  | depth, node :: rest =>
    if node.named && node.kind = "block" then
      some (node.start, renderInside width parsed depth node)
    else renderBlock width parsed depth rest

def renderInside (width : Nat) (parsed : Parsed) : Nat → Node → List Text
  | depth, .mk _ children => renderItems width parsed depth children

def renderItems (width : Nat) (parsed : Parsed) : Nat → List Node → List Text
  | _, [] => []
  | depth, node :: rest =>
    if node.named then render width parsed depth node :: renderItems width parsed depth rest
    else renderItems width parsed depth rest

end

/-- A top-level statement of the output. -/
structure Chunk where
  startByte : Nat
  text : Text
  hasBlock : Bool

/-- The statements of a sheet and its use statements, by position. -/
def chunks (width : Nat) (parsed : Parsed) (uses : List UseRule) : List Chunk :=
  let used := uses.map fun use =>
    { startByte := use.startByte, text := Text.collapse use.statement, hasBlock := false : Chunk }
  let parsedChunks := parsed.root.namedChildren.map fun node =>
    { startByte := node.start
      text := render width parsed 0 node
      hasBlock := (block? node).isSome : Chunk }
  (used ++ parsedChunks).mergeSort fun a b => a.startByte ≤ b.startByte

/-- The lines of chunks, with a blank line on either side of those with a block; `before` says
whether the chunk in front has one, if there is a chunk in front. -/
def spaceChunks : Option Bool → List Chunk → List Text
  | _, [] => []
  | before, chunk :: rest =>
    let gap := match before with
      | some hadBlock => if hadBlock || chunk.hasBlock then [[]] else []
      | none => []
    gap ++ chunk.text :: spaceChunks (some chunk.hasBlock) rest

/-- Whether a use statement stands inside a top-level statement. -/
def hasInnerUse (parsed : Parsed) (uses : List UseRule) : Bool :=
  parsed.root.namedChildren.any fun node =>
    uses.any fun use => node.start < use.startByte && use.startByte < node.stop

/-- `format_code`: the formatted text. -/
def format (parser : Parser) (width : Nat) (text : Text) : Logged Text := do
  match ← parse parser text with
  | none => return text
  | some parsed =>
    let uses := useRules text
    if parsed.hasErrors || hasInnerUse parsed uses then return text
    else
      let formatted := Text.unlines (spaceChunks none (chunks width parsed uses))
      return if !formatted.isEmpty && text.getLast? = some '\n' then formatted ++ ['\n']
        else formatted

end SourceLens.Stylesheet
