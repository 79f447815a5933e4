import SourceLens.Indented.Analysis

/-!
# Formatting indented sources

Every logical line is moved to the column that its depth asks for, and its continuation lines move
along with it. Comment lines take the column of the code that follows. Runs of blank lines are cut
to two at the left margin and to one inside a block, and a top-level definition has two blank
lines before it unless a decorator or a comment stands directly above. Lines inside a literal are
not touched, and a source with syntax problems is left as it is.
-/

namespace SourceLens.Indented

abbrev Placed := LogicalLine × Nat

/-- The logical line that a physical line belongs to. -/
def covering (placed : List Placed) (i : Nat) : Option Placed :=
  placed.find? fun (entry, _) => entry.line ≤ i && i ≤ entry.stop

/-- A physical line of a logical line, shifted as far as the first one is. -/
def shifted (width : Nat) (entry : LogicalLine) (level : Nat) (line : PhysicalLine) : Text :=
  if line.startsInLiteral then line.text
  else
    let content := Text.expandTabs line.text
    let column : Int := Text.indentation content + (level * width : Nat) - entry.indent
    let body := if line.endsInLiteral then Text.trimStart content else Text.trim content
    if body.isEmpty then [] else Text.spaces column.toNat ++ body

/-- A line of the output: its new text, the line it comes from, and the logical line that starts
there. -/
structure Rendered where
  text : Text
  source : PhysicalLine
  starts : Option LogicalLine

/-- Renders physical lines from the last one up, the first of which has number `i`; also gives the
column of the first logical line that starts among them. -/
def renderLines (width : Nat) (placed : List Placed) :
    Nat → List PhysicalLine → List Rendered × Nat
  | _, [] => ([], 0)
  | i, line :: rest =>
    let (later, next) := renderLines width placed (i + 1) rest
    match covering placed i with
    | some (entry, level) =>
      let text := shifted width entry level line
      if entry.line = i then
        ({ text, source := line, starts := some entry } :: later, level * width)
      else ({ text, source := line, starts := none } :: later, next)
    | none =>
      let content := Text.trim line.text
      let text := if content.isEmpty then [] else Text.spaces next ++ content
      ({ text, source := line, starts := none } :: later, next)

/-- Whether a line starts a definition, or a decorator, at the left margin. -/
def Rendered.startsTopLevel (line : Rendered) : Bool :=
  match line.starts with
  | some entry =>
    entry.indent = 0 && (Text.startsWith ['@'] entry.code || isDefinition entry.code)
  | none => false

/-- Whether a line holds what belongs to the definition below it. -/
def leadsDefinition (line : Text) : Bool :=
  Text.startsWith ['@'] line || Text.startsWith ['#'] (Text.trimStart line)

/-- Whether nothing blank stands at the start of a line. -/
def isFlush (line : Text) : Bool := !line.head?.any isBlank

/-- The number of blank lines before a line, given how many stood there and the line above, none at
the start of the output. -/
def blanksBefore (pending : Nat) (above : Option Text) (line : Rendered) : Nat :=
  match above with
  | none => 0
  | some above =>
    if line.startsTopLevel && !(pending = 0 && leadsDefinition above) then 2
    else min pending (if isFlush line.text then 2 else 1)

/-- Writes lines out, with `pending` blank lines just before them and `above` the last line
written. -/
def spaceOut : Nat → Option Text → List Rendered → List Text
  | _, _, [] => []
  | pending, above, line :: rest =>
    if Text.allBlank line.text && !line.source.startsInLiteral then
      spaceOut (pending + 1) above rest
    else
      List.replicate (blanksBefore pending above line) []
        ++ line.text :: spaceOut 0 (some line.text) rest

/-- `format_code`: the formatted text. -/
def format (width : Nat) (text : Text) : Text :=
  if (diagnose text).isEmpty then
    let found := scan text
    let placed := found.logical.zip (levels found.logical).1
    let output := spaceOut 0 none (renderLines width placed 0 found.physical).1
    Text.unlines output
      ++ if text.getLast? = some '\n' && !output.isEmpty then ['\n'] else []
  else text

end SourceLens.Indented
