import SourceLens.Builtin.Yaml.Node

/-!
# Reading documents

The value that a document stands for. A mapping may merge others under the key `<<`; their entries
come first and give way to its own. A document is read level by level, so that of several problems
the one in the outermost collection is reported, and of those on one level the first.
-/

namespace SourceLens.Builtin.Yaml

/-- What is read, or the problem that is met first and the level at which it is met. -/
abbrev Reading (α : Type) := Except (Nat × Problem) α

namespace Reading

variable {α β : Type}

def ofExcept : Except Problem α → Reading α
  | .ok x => .ok x
  | .error problem => .error (0, problem)

/-- A document that breaks the rules of the format. -/
def malformed : Reading α := .error (0, .malformed)

def deeper : Reading α → Reading α
  | .ok x => .ok x
  | .error (level, problem) => .error (level + 1, problem)

/-- Two readings, of which the first comes first on each level. -/
def both : Reading α → Reading β → Reading (α × β)
  | .ok x, .ok y => .ok (x, y)
  | .ok _, .error second => .error second
  | .error first, .ok _ => .error first
  | .error first, .error second => .error (if second.1 < first.1 then second else first)

def all : List (Reading α) → Reading (List α)
  | [] => .ok []
  | first :: rest => (both first (all rest)).map fun (x, xs) => x :: xs

end Reading

def scalarValue (text : Text) (plain : Bool) : Except Problem Scalar :=
  if plain then resolve text else .ok (.text (String.ofList text))

/-- Whether a node is the key under which mappings are merged. -/
def Node.isMergeKey : Node → Bool
  | .scalar ['<', '<'] true => true
  | _ => false

/-- The key that a node is; only scalars are keys. -/
def Node.key : Node → Reading Scalar
  | .scalar ['='] true => .ok (.text "=")
  | .scalar text plain => .ofExcept (scalarValue text plain)
  | _ => .malformed

mutual

/-- Whether a node is a mapping in which all merging is allowed. -/
def Node.isMergeable : Node → Bool
  | .map pairs => Node.pairsMergeable pairs
  | _ => false

/-- Whether the value under a merge key is a mapping or a list of mappings. -/
def Node.isMergeValue : Node → Bool
  | .map pairs => Node.pairsMergeable pairs
  | .list items => Node.itemsMergeable items
  | .scalar _ _ => false

def Node.itemsMergeable : List Node → Bool
  | [] => true
  | item :: rest => Node.isMergeable item && Node.itemsMergeable rest

/-- Whether all merging of a mapping is allowed. -/
def Node.pairsMergeable : List (Node × Node) → Bool
  | [] => true
  | pair :: rest => Node.pairMergeable pair && Node.pairsMergeable rest

def Node.pairMergeable : Node × Node → Bool
  | (key, value) => !key.isMergeKey || Node.isMergeValue value

end

/-- The entries of a mapping from those that are merged in and its own. -/
def mapping (merged : List (Reading Entries)) (own : List (Reading Entries)) : Reading Entries :=
  (Reading.all (merged ++ own)).map fun parts => Entries.ofList parts.flatten

mutual

/-- The value of a node. -/
def Node.value : Node → Reading Value
  | .scalar text plain => (Reading.ofExcept (scalarValue text plain)).map Value.scalar
  | .list items => Reading.deeper ((Reading.all (Node.values items)).map Value.list)
  | .map pairs =>
    Reading.deeper
      (if Node.pairsMergeable pairs then
        (mapping (Node.mergedParts pairs) (Node.ownParts pairs)).map Value.map
      else .malformed)

def Node.values : List Node → List (Reading Value)
  | [] => []
  | item :: rest => Node.value item :: Node.values rest

/-- The entries that a node gives to a mapping that it is merged into. -/
def Node.entries : Node → Reading Entries
  | .map pairs => mapping (Node.mergedParts pairs) (Node.ownParts pairs)
  | _ => .malformed

/-- The entries of several nodes that are merged, in order. -/
def Node.entriesOfAll : List Node → List (Reading Entries)
  | [] => []
  | item :: rest => Node.entries item :: Node.entriesOfAll rest

/-- The entries that the value under a merge key gives; of several mappings the first wins. -/
def Node.mergeEntries : Node → Reading Entries
  | .map pairs => mapping (Node.mergedParts pairs) (Node.ownParts pairs)
  | .list items => (Reading.all (Node.entriesOfAll items).reverse).map List.flatten
  | .scalar _ _ => .malformed

/-- The entries that the pairs of a mapping merge in. -/
def Node.mergedParts : List (Node × Node) → List (Reading Entries)
  | [] => []
  | pair :: rest => Node.mergedPart pair :: Node.mergedParts rest

def Node.mergedPart : Node × Node → Reading Entries
  | (key, value) => if key.isMergeKey then Node.mergeEntries value else .ok []

/-- The entries that the pairs of a mapping are. -/
def Node.ownParts : List (Node × Node) → List (Reading Entries)
  | [] => []
  | pair :: rest => Node.ownPart pair :: Node.ownParts rest

/-- The entry that a pair is, unless it merges others in. -/
def Node.ownPart : Node × Node → Reading Entries
  | (key, value) =>
    if key.isMergeKey then .ok []
    else (Reading.both key.key (Node.value value)).map fun entry => [entry]

end

def read (document : Text) : Except Problem Value :=
  match (tokens? document).bind node? with
  | some node => node.value.mapError (·.2)
  | none => .error .malformed

end SourceLens.Builtin.Yaml
