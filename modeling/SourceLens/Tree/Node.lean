import SourceLens.Text.Utf8

/-!
# Syntax trees

A syntax tree as a parser hands it over: labelled nodes that cover a span of bytes of the source.
`Node.walk` visits a tree with an explicit stack, so that a deeply nested tree needs no deep
recursion; `Node.preorder` is the same order by recursion.
-/

namespace SourceLens

/-- What a parser says of one node. -/
structure Label where
  /-- The type of the node in its grammar. -/
  kind : String
  /-- The first byte of the node. -/
  start : Nat
  /-- The byte after the node. -/
  stop : Nat
  /-- The role of the node in its parent. -/
  field : Option String := none
  /-- Whether the node has a name in the grammar, unlike punctuation and keywords. -/
  named : Bool := true
  /-- Whether the parser put the node in to repair the source. -/
  missing : Bool := false
  /-- Whether the node or something in it is an error. -/
  faulty : Bool := false
  deriving DecidableEq, Repr

/-- A labelled tree. -/
inductive Node where
  | mk (label : Label) (children : List Node)
  deriving Repr

namespace Node

def label : Node → Label
  | mk label _ => label

def children : Node → List Node
  | mk _ children => children

def kind (node : Node) : String := node.label.kind
def start (node : Node) : Nat := node.label.start
def stop (node : Node) : Nat := node.label.stop
def named (node : Node) : Bool := node.label.named
def missing (node : Node) : Bool := node.label.missing
def faulty (node : Node) : Bool := node.label.faulty

def namedChildren (node : Node) : List Node := node.children.filter named

def child? (field : String) (node : Node) : Option Node :=
  node.children.find? (·.label.field = some field)

/-- Whether a node is an error or was put in by the parser. -/
def isFault (node : Node) : Bool := node.kind = "ERROR" || node.missing

mutual

/-- The nodes of a tree: the root, then those of each child in order. -/
def preorder : Node → List Node
  | mk label children => mk label children :: preorderAll children

def preorderAll : List Node → List Node
  | [] => []
  | node :: rest => preorder node ++ preorderAll rest

end

mutual

/-- The number of nodes of a tree. -/
def size : Node → Nat
  | mk _ children => 1 + sizeAll children

def sizeAll : List Node → Nat
  | [] => 0
  | node :: rest => size node + sizeAll rest

end

theorem sizeAll_append (a b : List Node) : sizeAll (a ++ b) = sizeAll a + sizeAll b := by
  induction a with
  | nil => simp [sizeAll]
  | cons node rest ih => simp [sizeAll, ih, Nat.add_assoc]

theorem size_eq (node : Node) : size node = 1 + sizeAll node.children := by
  cases node; simp [size, children]

/-- Visits the trees on a stack, the top one first: a node, then its children in its place. -/
def walkFrom : List Node → List Node
  | [] => []
  | node :: stack => node :: walkFrom (node.children ++ stack)
termination_by stack => sizeAll stack
decreasing_by simp only [sizeAll, sizeAll_append, size_eq]; omega

/-- `iter_nodes`: the nodes of a tree in the order in which a stack visits them. -/
def walk (node : Node) : List Node := walkFrom [node]

/-- The nodes of a tree below its root, in the order in which a stack visits them. -/
def descendants (node : Node) : List Node := walkFrom node.children

end Node

end SourceLens
