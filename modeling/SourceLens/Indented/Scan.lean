import SourceLens.Indented.Lexical
import SourceLens.Outline
import SourceLens.Text.Tabs

/-!
# Logical lines

A logical line joins physical lines while a bracket or a long literal is open, or while a line ends
with a backslash. `scan` reads a text line by line and collects the logical lines, what it knows of
each physical line, and the problems with brackets and literals.
-/

namespace SourceLens.Indented

/-- `_LogicalLine`: a statement, joined from the physical lines `line` to `stop`. -/
structure LogicalLine where
  line : Nat
  stop : Nat
  indent : Nat
  code : Text
  deriving DecidableEq, Repr

/-- `_PhysicalLine`: a line of the text, and whether a long literal is open where it starts and
ends. -/
structure PhysicalLine where
  text : Text
  startsInLiteral : Bool
  endsInLiteral : Bool
  deriving DecidableEq, Repr

/-- `_Scan`: what reading a text yields. -/
structure Scan where
  logical : List LogicalLine := []
  physical : List PhysicalLine := []
  diagnostics : List Diagnostic := []
  deriving DecidableEq, Repr

/-- Two readings, one after the other. -/
def Scan.append (a b : Scan) : Scan :=
  { logical := a.logical ++ b.logical
    physical := a.physical ++ b.physical
    diagnostics := a.diagnostics ++ b.diagnostics }

/-- An open bracket and its place. -/
structure Bracket where
  char : Char
  line : Nat
  column : Nat
  deriving DecidableEq, Repr

/-- An open long literal and its place. -/
structure OpenLiteral where
  quote : Char
  line : Nat
  column : Nat
  deriving DecidableEq, Repr

/-- What is still open between two lines. -/
structure Pending where
  literal : Option OpenLiteral := none
  /-- Open brackets, the innermost first. -/
  brackets : List Bracket := []
  /-- The logical line under way. -/
  current : Option LogicalLine := none
  deriving DecidableEq, Repr

/-- The opening bracket that a closing bracket belongs to. -/
def openerOf? (c : Char) : Option Char :=
  if c = ')' then some '('
  else if c = ']' then some '['
  else if c = '\x7d' then some '\x7b'
  else none

def isOpener (c : Char) : Bool := c = '(' || c = '[' || c = '\x7b'

def aboutChar (message : String) (c : Char) : Text := message.toList ++ [' ', '\'', c, '\'']

/-- The brackets open after the characters of a line, and the closing ones that match none. -/
def trackBrackets (line : Nat) : Nat → List Bracket → List Mark → List Bracket × List Diagnostic
  | _, stack, [] => (stack, [])
  | column, stack, mark :: rest =>
    if mark.role ≠ .code then trackBrackets line (column + 1) stack rest
    else if isOpener mark.char then
      trackBrackets line (column + 1) ({ char := mark.char, line, column } :: stack) rest
    else
      match openerOf? mark.char with
      | none => trackBrackets line (column + 1) stack rest
      | some opener =>
        match stack with
        | top :: below =>
          if top.char = opener then trackBrackets line (column + 1) below rest
          else
            let (stack, found) := trackBrackets line (column + 1) stack rest
            (stack, { line, column, message := aboutChar "Unmatched" mark.char } :: found)
        | [] =>
          let (stack, found) := trackBrackets line (column + 1) [] rest
          (stack, { line, column, message := aboutChar "Unmatched" mark.char } :: found)

def unterminated (line column : Nat) : Diagnostic :=
  { line, column, message := "Unterminated string literal".toList }

/-- The problem of a line that ends inside a literal which may not span lines. -/
def shortLiteralProblem (line : Nat) (text : Text) (marks : List Mark) : Mode → List Diagnostic
  | .short _ =>
    if text.getLast? = some '\\' then []
    else [unterminated line ((lastOpening 0 marks).getD 0)]
  | _ => []

/-- The long literal that is open after a line. -/
def openAfter (line : Nat) (marks : List Mark) (before : Option OpenLiteral) :
    Mode → Option OpenLiteral
  | .long quote =>
    match lastOpening 0 marks with
    | some column => some { quote, line, column }
    | none => before
  | _ => none

/-- The code of a line without blanks at its ends, and whether it ends with a backslash, which is
dropped. -/
def joinable (code : Text) : Text × Bool :=
  let stripped := Text.trim code
  if stripped.getLast? = some '\\' then (Text.trimEnd stripped.dropLast, true)
  else (stripped, false)

/-- The logical line under way after a physical line with the given code. -/
def extend (line indent : Nat) (code : Text) : Option LogicalLine → Option LogicalLine
  | none => if code.isEmpty then none else some { line, stop := line, indent, code }
  | some current =>
    some { current with
      stop := line
      code := if code.isEmpty then current.code else current.code ++ ' ' :: code }

/-- Reads one physical line: what is open after it, and what it yields. -/
def Pending.feed (pending : Pending) (line : Nat) (text : Text) : Pending × Scan :=
  let mode := match pending.literal with
    | some literal => Mode.long literal.quote
    | none => .code
  let (marks, last) := lex mode text
  let (brackets, unmatched) := trackBrackets line 0 pending.brackets marks
  let literal := openAfter line marks pending.literal last
  let (code, joined) := joinable (codeOf marks)
  let current := extend line (Text.indentation text) code pending.current
  let complete := brackets.isEmpty && literal.isNone && !joined
  ({ literal, brackets, current := if complete then none else current },
   { logical := if complete then current.toList else []
     physical := [{ text
                    startsInLiteral := pending.literal.isSome
                    endsInLiteral := literal.isSome }]
     diagnostics := unmatched ++ shortLiteralProblem line text marks last })

def Pending.finish (pending : Pending) : Scan :=
  { logical := pending.current.toList
    diagnostics :=
      (pending.literal.toList.map fun literal => unterminated literal.line literal.column)
      ++ pending.brackets.reverse.map fun bracket =>
        { line := bracket.line, column := bracket.column,
          message := aboutChar "Unclosed" bracket.char } }

/-- Reads lines, the first of which has number `line`. -/
def scanFrom : Pending → Nat → List Text → Scan
  | pending, _, [] => pending.finish
  | pending, line, text :: rest =>
    let (pending, found) := pending.feed line text
    found.append (scanFrom pending (line + 1) rest)

/-- `_scan`: reads a text. -/
def scan (text : Text) : Scan := scanFrom {} 0 (Text.lines text)

end SourceLens.Indented
