import SourceLens.Builtin.Yaml.Token

/-!
# Nodes of a document

Builds the tree of a document from its tokens: mappings and lists in blocks or brackets, down to
scalars as they are written.
-/

namespace SourceLens.Builtin.Yaml

/-- A part of a document as it is written. -/
inductive Node where
  | scalar (text : Text) (plain : Bool)
  | list (items : List Node)
  | map (pairs : List (Node × Node))
  deriving Repr

def Node.void : Node := .scalar [] true

/-- Whether no node stands before the next tokens of a block. -/
def endsBlockNode : List Token → Bool
  | .key :: _ | .value :: _ | .blockEnd :: _ | [] => true
  | _ => false

/-- Whether no node stands before the next tokens inside brackets. -/
def endsFlowNode : List Token → Bool
  | .comma :: _ | .listClose :: _ | .mapClose :: _ | .value :: _ | [] => true
  | _ => false

/-- The tokens of the next entry inside brackets; a comma divides it from the one before. -/
def nextEntry (first : Bool) (tokens : List Token) : Option (List Token) :=
  match first, tokens with
  | true, tokens => some tokens
  | false, .comma :: rest => some rest
  | false, _ => none

mutual

/-- A node and what follows it. Inside a mapping a list needs no more indentation than its key. The
number bounds the depth of calls. -/
def readNode (inMapping : Bool) : Nat → List Token → Option (Node × List Token)
  | 0, _ => none
  | fuel + 1, tokens =>
    match tokens with
    | .scalar text plain :: rest => some (.scalar text plain, rest)
    | .listOpen :: rest =>
      (readFlowList true fuel rest).map fun (items, rest) => (.list items, rest)
    | .mapOpen :: rest =>
      (readFlowMap true fuel rest).map fun (pairs, rest) => (.map pairs, rest)
    | .blockListStart :: rest =>
      match readBlockList fuel rest with
      | some (items, .blockEnd :: rest) => some (.list items, rest)
      | _ => none
    | .blockMapStart :: rest =>
      (readBlockMap fuel rest).map fun (pairs, rest) => (.map pairs, rest)
    | .entry :: _ =>
      if inMapping then
        (readBlockList fuel tokens).map fun (items, rest) => (.list items, rest)
      else none
    | _ => none

def readBlockList : Nat → List Token → Option (List Node × List Token)
  | 0, _ => none
  | fuel + 1, tokens =>
    match tokens with
    | .entry :: rest => do
      let empty := endsBlockNode rest || rest.head? = some .entry
      let (item, rest) ← if empty then some (.void, rest) else readNode false fuel rest
      let (items, rest) ← readBlockList fuel rest
      return (item :: items, rest)
    | _ => some ([], tokens)

/-- The entries of a mapping in a block, up to and with its end. -/
def readBlockMap : Nat → List Token → Option (List (Node × Node) × List Token)
  | 0, _ => none
  | fuel + 1, tokens =>
    match tokens with
    | .blockEnd :: rest => some ([], rest)
    | .key :: rest => do
      let (key, rest) ← if endsBlockNode rest then some (.void, rest) else readNode true fuel rest
      let (value, rest) ← match rest with
        | .value :: rest =>
          if endsBlockNode rest then some (.void, rest) else readNode true fuel rest
        | _ => some (.void, rest)
      let (pairs, rest) ← readBlockMap fuel rest
      return ((key, value) :: pairs, rest)
    | _ => none

/-- The entries of a list in brackets, up to and with its end. -/
def readFlowList (first : Bool) : Nat → List Token → Option (List Node × List Token)
  | 0, _ => none
  | fuel + 1, tokens =>
    match tokens with
    | .listClose :: rest => some ([], rest)
    | tokens => do
      match ← nextEntry first tokens with
      | .listClose :: rest => return ([], rest)
      | .key :: rest =>
        let (pair, rest) ← readFlowPair fuel rest
        let (items, rest) ← readFlowList false fuel rest
        return (.map [pair] :: items, rest)
      | tokens =>
        let (item, rest) ← readNode false fuel tokens
        let (items, rest) ← readFlowList false fuel rest
        return (item :: items, rest)

def readFlowPair : Nat → List Token → Option ((Node × Node) × List Token)
  | 0, _ => none
  | fuel + 1, tokens => do
    let (key, rest) ← if endsFlowNode tokens then some (.void, tokens)
      else readNode false fuel tokens
    match rest with
    | .value :: rest =>
      let (value, rest) ← if endsFlowNode rest then some (.void, rest)
        else readNode false fuel rest
      return ((key, value), rest)
    | _ => return ((key, .void), rest)

/-- The entries of a mapping in brackets, up to and with its end. -/
def readFlowMap (first : Bool) : Nat → List Token → Option (List (Node × Node) × List Token)
  | 0, _ => none
  | fuel + 1, tokens =>
    match tokens with
    | .mapClose :: rest => some ([], rest)
    | tokens => do
      match ← nextEntry first tokens with
      | .mapClose :: rest => return ([], rest)
      | .key :: rest =>
        let (pair, rest) ← readFlowPair fuel rest
        let (pairs, rest) ← readFlowMap false fuel rest
        return (pair :: pairs, rest)
      | tokens =>
        let (key, rest) ← readNode false fuel tokens
        let (pairs, rest) ← readFlowMap false fuel rest
        return ((key, .void) :: pairs, rest)

end

/-- The node of a document and what follows it. A document that is opened by a line of dashes may be
empty. -/
def readContent (tokens : List Token) : Option (Node × List Token) :=
  let fuel := 4 * tokens.length + 8
  match tokens with
  | [] => some (.void, [])
  | .documentStart :: rest =>
    match rest with
    | [] | .documentStart :: _ | .documentEnd :: _ => some (.void, rest)
    | _ => readNode false fuel rest
  | _ => readNode false fuel tokens

/-- The node of tokens that make exactly one document. -/
def node? (tokens : List Token) : Option Node :=
  match readContent tokens with
  | some (node, rest) => if rest.all (· = .documentEnd) then some node else none
  | none => none

end SourceLens.Builtin.Yaml
