import SourceLens.Tree.Node
import SourceLens.Outline

/-!
# Parsed sources

A source together with its syntax tree, the number of errors in it, and the diagnostics that the
errors make: one for each error region and each node that the parser had to put in.
-/

namespace SourceLens

/-- `ParseResult`: a source and its syntax tree. -/
structure Parsed where
  grammar : String
  source : Bytes
  root : Node

namespace Parsed

/-- The nodes of the tree, parents before children. -/
def nodes (parsed : Parsed) : List Node := parsed.root.walk

/-- The number of nodes. -/
def nodeCount (parsed : Parsed) : Nat := parsed.nodes.length

/-- The number of errors and of nodes put in by the parser. -/
def errorCount (parsed : Parsed) : Nat := parsed.nodes.countP Node.isFault

/-- `has_errors`: whether the tree has any error. -/
def hasErrors (parsed : Parsed) : Bool := 0 < parsed.errorCount

/-- The source text of a span of bytes. -/
def slice (parsed : Parsed) (start stop : Nat) : Text :=
  Utf8.decode (Bytes.slice start stop parsed.source)

/-- The source text of a node. -/
def text (parsed : Parsed) (node : Node) : Text := parsed.slice node.start node.stop

/-- Where a node starts. -/
def startPoint (parsed : Parsed) (node : Node) : Bytes.Point :=
  Bytes.pointAt node.start parsed.source

def stopPoint (parsed : Parsed) (node : Node) : Bytes.Point :=
  Bytes.pointAt node.stop parsed.source

def report (parsed : Parsed) (node : Node) (message : Text) : Diagnostic :=
  let point := parsed.startPoint node
  { line := point.row, column := point.column, message }

/-- How much of an error region a message shows. -/
def snippetLimit : Nat := 40

def errorMessage (parsed : Parsed) (node : Node) : Text :=
  let snippet := (Text.collapse (parsed.text node)).take snippetLimit
  if snippet.isEmpty then "Unexpected end of input".toList
  else "Unexpected '".toList ++ snippet ++ "'".toList

mutual

/-- The diagnostics of a tree: an error region or a node put in is reported as a whole, and only
nodes marked as faulty are looked into. -/
def faults (parsed : Parsed) : Node → List Diagnostic
  | .mk label children =>
    let node := Node.mk label children
    if label.missing then
      [parsed.report node ("Missing '".toList ++ label.kind.toList ++ "'".toList)]
    else if label.kind = "ERROR" then [parsed.report node (parsed.errorMessage node)]
    else if label.faulty then faultsAll parsed children
    else []

def faultsAll (parsed : Parsed) : List Node → List Diagnostic
  | [] => []
  | node :: rest => faults parsed node ++ faultsAll parsed rest

end

/-- The diagnostics of a source, by place. -/
def diagnostics (parsed : Parsed) : List Diagnostic :=
  Diagnostic.sort (faults parsed parsed.root)

end Parsed

end SourceLens
