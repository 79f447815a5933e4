import SourceLens.Script.Dialect

/-!
# Formatting scripts

Every line is indented by the number of brackets open before it, less the closing brackets that it
starts with. Brackets inside strings, templates, comments and regular expressions do not count,
and a line that starts inside one of these is left as it is.
-/

namespace SourceLens.Script

/-- Nodes whose inside is left as it is. -/
def sealedKinds : List String := ["string", "template_string", "comment", "regex"]

/-- A byte of the source, and whether it lies inside a sealed node. -/
structure Cell where
  byte : UInt8
  inside : Bool
  deriving DecidableEq, Repr

/-- The bytes of a source with their seals. -/
def cells (parsed : Parsed) : List Cell :=
  let spans := (parsed.nodes.filter fun node => sealedKinds.contains node.kind).map fun node =>
    (node.start, node.stop)
  parsed.source.zipIdx.map fun (byte, i) =>
    { byte, inside := spans.any fun (start, stop) => start ≤ i && i < stop }

/-- A line of the source, and the line feed that ends it. -/
structure CellLine where
  body : List Cell
  feed : Option Cell

def cellLines : List Cell → List CellLine
  | [] => [{ body := [], feed := none }]
  | cell :: rest =>
    if cell.byte = Bytes.lineFeed then { body := [], feed := some cell } :: cellLines rest
    else
      match cellLines rest with
      | [] => [{ body := [cell], feed := none }]
      | line :: lines => { line with body := cell :: line.body } :: lines

def isBlankByte (b : UInt8) : Bool := b = 32 || (9 ≤ b && b ≤ 13)

/-- The bytes of a line without blanks at its ends. -/
def trimBytes (bytes : Bytes) : Bytes :=
  ((bytes.dropWhile isBlankByte).reverse.dropWhile isBlankByte).reverse

/-- One of the brackets `(`, `[` and the opening brace. -/
def isOpenerByte (b : UInt8) : Bool := b = 40 || b = 91 || b = 123

/-- One of the brackets `)`, `]` and the closing brace. -/
def isCloserByte (b : UInt8) : Bool := b = 41 || b = 93 || b = 125

/-- The number of brackets open after a byte; a closing bracket too many is passed over. -/
def depthAfter (depth : Nat) (cell : Cell) : Nat :=
  if cell.inside then depth
  else if isOpenerByte cell.byte then depth + 1
  else if isCloserByte cell.byte then depth - 1
  else depth

/-- Whether a line starts inside a sealed node: the line feed before it and the byte after that are
both inside. -/
def continues (before : Option Cell) (line : CellLine) : Bool :=
  before.any (·.inside) && (line.body.head?.or line.feed).any (·.inside)

def writeLine (width depth : Nat) (before : Option Cell) (line : CellLine) : Bytes :=
  let raw := line.body.map (·.byte)
  if continues before line then raw
  else
    let content := trimBytes raw
    let closing := (content.takeWhile isCloserByte).length
    if content.isEmpty then [] else List.replicate (width * (depth - closing)) 32 ++ content

/-- Writes lines, given the brackets open before them and the line feed in front. -/
def writeLines (width : Nat) : Nat → Option Cell → List CellLine → List Bytes
  | _, _, [] => []
  | depth, before, line :: rest =>
    writeLine width depth before line
      :: writeLines width (line.body.foldl depthAfter depth) line.feed rest

def formatBytes (width : Nat) (parsed : Parsed) : Bytes :=
  List.intercalate [Bytes.lineFeed] (writeLines width 0 none (cellLines (cells parsed)))

/-- `format_code`: the formatted text; a source with syntax errors is left as it is. -/
def format (parser : Parser) (dialect : Dialect) (width : Nat) (text : Text) : Logged Text := do
  match ← parse parser dialect text with
  | none => return text
  | some parsed =>
    return if parsed.hasErrors then text else Utf8.decode (formatBytes width parsed)

end SourceLens.Script
