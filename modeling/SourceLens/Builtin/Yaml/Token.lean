import SourceLens.Builtin.Yaml.Cursor

/-!
# Tokens of a document

A document is cut into scalars, brackets and the marks of keys, values and entries. Where blocks
are made by indentation, tokens mark their starts and ends. A key is known as such only at the
colon after it, so the place where one may have started is remembered until then.
-/

namespace SourceLens.Builtin.Yaml

/-- A token. -/
inductive Token where
  | scalar (text : Text) (plain : Bool)
  | listOpen
  | listClose
  | mapOpen
  | mapClose
  | comma
  | entry
  | key
  | value
  | blockListStart
  | blockMapStart
  | blockEnd
  | documentStart
  | documentEnd
  deriving DecidableEq, Repr

/-- A place where a key may have started. -/
structure KeyStart where
  /-- The number of brackets open there. -/
  depth : Nat
  /-- The number of tokens before it. -/
  tokens : Nat
  /-- Whether nothing else than a key can stand there. -/
  required : Bool
  offset : Nat
  line : Nat
  column : Nat

/-- The state of cutting a document into tokens. -/
structure Lexer where
  here : Cursor
  tokens : List Token := []
  /-- The number of open brackets. -/
  depth : Nat := 0
  /-- The column of the innermost block, and those of the blocks around it. -/
  indent : Int := -1
  outer : List Int := []
  allowKey : Bool := true
  keys : List KeyStart := []

namespace Lexer

/-- The longest distance between a key and its colon. -/
def keyLimit : Nat := 1024

def push (lexer : Lexer) (token : Token) : Lexer :=
  { lexer with tokens := lexer.tokens ++ [token] }

def insertAt (lexer : Lexer) (n : Nat) (token : Token) : Lexer :=
  { lexer with tokens := lexer.tokens.take n ++ token :: lexer.tokens.drop n }

/-- Whether a remembered place can no longer be that of a key: its line has ended, or it is too far
back. -/
def isStale (here : Cursor) (key : KeyStart) : Bool :=
  key.line ≠ here.line || keyLimit < here.offset - key.offset

/-- Forgets stale places; fails if a key had to stand at one. -/
def dropStale (lexer : Lexer) : Option Lexer :=
  if lexer.keys.any fun key => isStale lexer.here key && key.required then none
  else some { lexer with keys := lexer.keys.filter (! isStale lexer.here ·) }

/-- Forgets the place at the current depth; fails if a key had to stand there. -/
def dropKey (lexer : Lexer) : Option Lexer :=
  if lexer.keys.any fun key => key.depth = lexer.depth && key.required then none
  else some { lexer with keys := lexer.keys.filter (·.depth ≠ lexer.depth) }

def saveKey (lexer : Lexer) : Option Lexer :=
  if lexer.allowKey then
    lexer.dropKey.map fun lexer =>
      { lexer with keys :=
          { depth := lexer.depth, tokens := lexer.tokens.length,
            required := lexer.depth = 0 && lexer.indent = lexer.here.column,
            offset := lexer.here.offset, line := lexer.here.line,
            column := lexer.here.column } :: lexer.keys }
  else some lexer

/-- Ends the blocks that are indented more than `column`, the outer ones given. -/
def unwindFrom (column : Int) : List Int → Lexer → Lexer
  | [], lexer => lexer
  | outer :: rest, lexer =>
    if column < lexer.indent then
      unwindFrom column rest ({ lexer with indent := outer, outer := rest }.push .blockEnd)
    else lexer

/-- Ends the blocks that are indented more than `column`; inside brackets there are none. -/
def unwind (lexer : Lexer) (column : Int) : Lexer :=
  if lexer.depth = 0 then unwindFrom column lexer.outer lexer else lexer

/-- Starts a block at a column if it is deeper than the innermost one; `n` says where its token
goes. -/
def startBlock (lexer : Lexer) (column : Nat) (n : Nat) (token : Token) : Lexer :=
  if lexer.indent < column then
    { lexer with indent := column, outer := lexer.indent :: lexer.outer }.insertAt n token
  else lexer

def skip (lexer : Lexer) (n : Nat) : Lexer := { lexer with here := lexer.here.skip n }

def divider (lexer : Lexer) (token : Token) : Option Lexer :=
  (lexer.unwind (-1)).dropKey.map fun lexer =>
    ({ lexer with allowKey := false }.push token).skip 3

def openBracket (lexer : Lexer) (token : Token) : Option Lexer :=
  lexer.saveKey.map fun lexer =>
    ({ lexer with depth := lexer.depth + 1, allowKey := true }.push token).skip 1

def closeBracket (lexer : Lexer) (token : Token) : Option Lexer :=
  lexer.dropKey.map fun lexer =>
    ({ lexer with depth := lexer.depth - 1, allowKey := false }.push token).skip 1

def comma (lexer : Lexer) : Option Lexer :=
  lexer.dropKey.map fun lexer => ({ lexer with allowKey := true }.push .comma).skip 1

/-- A mark that may start a block: the dash of an entry or the question mark of a key. -/
def blockMark (lexer : Lexer) (start token : Token) (allowAfter : Bool) : Option Lexer :=
  if lexer.depth = 0 && !lexer.allowKey then none
  else
    let lexer := if lexer.depth = 0 then
      lexer.startBlock lexer.here.column lexer.tokens.length start else lexer
    (dropKey { lexer with allowKey := allowAfter }).map fun lexer => (lexer.push token).skip 1

/-- The colon before a value. If a key may have started before it, it did. -/
def colon (lexer : Lexer) : Option Lexer :=
  match lexer.keys.find? (·.depth = lexer.depth) with
  | some key =>
    let lexer := { lexer with
      keys := lexer.keys.filter (·.depth ≠ lexer.depth), allowKey := false }
    let lexer := lexer.insertAt key.tokens .key
    let lexer := if lexer.depth = 0 then
      lexer.startBlock key.column key.tokens .blockMapStart else lexer
    some ((lexer.push .value).skip 1)
  | none => lexer.blockMark .blockMapStart .value (lexer.depth = 0)

def quoted (lexer : Lexer) (read : Nat → Cursor → Option (Text × Cursor)) : Option Lexer :=
  lexer.saveKey.bind fun lexer =>
    (read (lexer.here.rest.length + 1) lexer.here.next).map fun (text, there) =>
      { lexer with here := there, allowKey := false }.push (.scalar text false)

/-- A plain scalar. -/
def plain (lexer : Lexer) : Option Lexer :=
  lexer.saveKey.map fun lexer =>
    let (text, there, allowKey) := readPlain (0 < lexer.depth) (lexer.indent + 1)
      lexer.here.rest.length [] false lexer.here
    { lexer with here := there, allowKey }.push (.scalar text true)

/-- Whether a plain scalar may start with a character before another. -/
def startsPlain (inFlow : Bool) (c : Char) (after : Option Char) : Bool :=
  !(endsWord (some c) || "-?:,[]\x7b\x7d#&*!|>'\"%@`".toList.contains c)
    || (!endsWord after && (c = '-' || (!inFlow && (c = '?' || c = ':'))))

/-- The next token that starts with character `c`. -/
def step (lexer : Lexer) (c : Char) : Option Lexer :=
  let inFlow := 0 < lexer.depth
  let after := lexer.here.rest[1]?
  if lexer.here.column = 0 && lexer.here.atDivider then
    lexer.divider (if c = '-' then .documentStart else .documentEnd)
  else if c = '[' then lexer.openBracket .listOpen
  else if c = '\x7b' then lexer.openBracket .mapOpen
  else if c = ']' then lexer.closeBracket .listClose
  else if c = '\x7d' then lexer.closeBracket .mapClose
  else if c = ',' then lexer.comma
  else if c = '-' && endsWord after then lexer.blockMark .blockListStart .entry true
  else if c = '?' && (inFlow || endsWord after) then lexer.blockMark .blockMapStart .key (!inFlow)
  else if c = ':' && (inFlow || endsWord after) then lexer.colon
  else if c = '\'' then lexer.quoted readSingle
  else if c = '"' then lexer.quoted readDouble
  else if startsPlain inFlow c after then lexer.plain
  else none

/-- Reads tokens to the end of the document; `fuel` bounds their number. -/
def run : Nat → Lexer → Option (List Token)
  | 0, _ => none
  | fuel + 1, lexer =>
    let (here, allowKey) :=
      lexer.here.toToken (0 < lexer.depth) (lexer.here.rest.length + 1) lexer.allowKey
    match { lexer with here, allowKey }.dropStale with
    | none => none
    | some lexer =>
      let lexer := lexer.unwind here.column
      match here.rest with
      | [] => ((lexer.unwind (-1)).dropKey).map (·.tokens)
      | c :: _ => (lexer.step c).bind (run fuel)

end Lexer

def isAllowed (c : Char) : Bool :=
  c = '\t' || c = '\n' || c = '\r' || (' ' ≤ c && c ≤ '~') || c = '\x85'
    || ('\xa0' ≤ c && c.toNat ≤ 0xfffd) || 0x10000 ≤ c.toNat

/-- A text with every line break of two characters, or of a carriage return, made one line feed. -/
def plainBreaksOnly : Text → Text
  | [] => []
  | '\r' :: '\n' :: rest => '\n' :: plainBreaksOnly rest
  | c :: rest => (if c = '\r' then '\n' else c) :: plainBreaksOnly rest

/-- The tokens of a document, if it is made of tokens. -/
def tokens? (document : Text) : Option (List Token) :=
  let text := plainBreaksOnly document
  if text.all isAllowed then
    let start : Cursor := { rest := text }
    let start := if text.head? = some '\ufeff' then start.next else start
    Lexer.run (text.length + 2) { here := start }
  else none

end SourceLens.Builtin.Yaml
