import SourceLens.Fault
import SourceLens.Tree.Parsed

/-!
# Grammars and parsers

The grammars that sources are parsed with, and what a parser is to the rest of the library: a
function that gives a tree or a cause. A failed parse is logged and counts as no tree, so every
operation on sources is `Logged`: a value together with the failures met on the way.
-/

namespace SourceLens

/-- The grammars. -/
inductive Grammar where
  | typescript
  | tsx
  | javascript
  | css
  | html
  deriving DecidableEq, Repr

namespace Grammar

def all : List Grammar := [typescript, tsx, javascript, css, html]

/-- The name of a grammar. -/
def name : Grammar → String
  | typescript => "typescript"
  | tsx => "tsx"
  | javascript => "javascript"
  | css => "css"
  | html => "html"

def ofName? (name : String) : Option Grammar := all.find? (·.name = name)

end Grammar

/-- Turns a source into a tree, or says why not. -/
abbrev Parser := Grammar → Text → Except ParseCause Node

/-- A parse that failed, as it is logged. -/
structure ParseFailure where
  grammar : String
  cause : ParseCause
  deriving DecidableEq, Repr

/-- A value and the parse failures logged while it was made, in order. -/
structure Logged (α : Type) where
  value : α
  failures : List ParseFailure := []

namespace Logged

instance : Monad Logged where
  pure value := { value }
  bind x f :=
    let y := f x.value
    { value := y.value, failures := x.failures ++ y.failures }

end Logged

namespace Parser

/-- Parses a source with a grammar. -/
def parse (parser : Parser) (grammar : Grammar) (text : Text) : Except ParseCause Parsed :=
  (parser grammar text).map fun root =>
    { grammar := grammar.name, source := Utf8.encode text, root }

/-- Parses a source with the grammar of a given name. -/
def parseNamed (parser : Parser) (name : String) (text : Text) : Except ParseCause Parsed :=
  match Grammar.ofName? name with
  | some grammar => parser.parse grammar text
  | none => .error (.grammarUnavailable name "unknown grammar")

/-- `parse_source`: parses a source; a failure is logged and gives no tree. -/
def parseLogged (parser : Parser) (name : String) (text : Text) : Logged (Option Parsed) :=
  match parser.parseNamed name text with
  | .ok parsed => { value := some parsed }
  | .error cause => { value := none, failures := [{ grammar := name, cause }] }

/-- Parses a source with a grammar; a failure is logged and gives no tree. -/
def parse? (parser : Parser) (grammar : Grammar) (text : Text) : Logged (Option Parsed) :=
  parser.parseLogged grammar.name text

/-- Tries candidates in turn: the first tree without errors wins, and if there is none the one with the
fewest errors, the earlier of equals. Nothing is tried after a tree without errors. -/
def firstBest {α : Type} (attempt : α → Logged (Option Parsed)) :
    Option Parsed → List α → Logged (Option Parsed)
  | best, [] => pure best
  | best, candidate :: rest => do
    match ← attempt candidate with
    | none => firstBest attempt best rest
    | some parsed =>
      if parsed.hasErrors then
        match best with
        | none => firstBest attempt (some parsed) rest
        | some old =>
          firstBest attempt (some (if parsed.errorCount < old.errorCount then parsed else old)) rest
      else return some parsed

/-- `_parse`: parses a source with several grammars and takes the first best tree. -/
def parseBest (parser : Parser) (text : Text) (best : Option Parsed) (grammars : List Grammar) :
    Logged (Option Parsed) :=
  firstBest (parser.parse? · text) best grammars

end Parser

end SourceLens
