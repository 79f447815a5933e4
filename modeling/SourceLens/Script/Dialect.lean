import SourceLens.Tree.Grammar

/-!
# Dialects of the script language

TypeScript and JavaScript share their syntax trees. A dialect says which grammars to try, what
counts as a branch, and how parameters are shown.
-/

namespace SourceLens.Script

/-- What sets one script language apart from the other. -/
inductive Dialect where
  | typescript
  | javascript
  deriving DecidableEq, Repr

namespace Dialect

/-- The grammars to try, in order. -/
def grammars : Dialect → List Grammar
  | typescript => [.typescript, .tsx]
  | javascript => [.javascript]

/-- Whether the logical operators `&&` and `||` count as branches. -/
def countsOperators : Dialect → Bool
  | typescript => false
  | javascript => true

/-- Whether parameters are shown with their types and defaults. -/
def typedParams : Dialect → Bool
  | typescript => true
  | javascript => false

end Dialect

/-- `_parse`: parses a script with the best of the dialect's grammars. -/
def parse (parser : Parser) (dialect : Dialect) (text : Text) : Logged (Option Parsed) :=
  parser.parseBest text none dialect.grammars

end SourceLens.Script
