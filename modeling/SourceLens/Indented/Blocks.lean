import SourceLens.Indented.Scan

/-!
# Blocks and levels

Logical lines form blocks by their indentation: a block is what follows a header with more
indentation. `levels` checks the indentation against a stack of open blocks and gives every logical
line its depth.
-/

namespace SourceLens.Indented

/-- `_block` and `_block_end`: the lines of the block that a header opens, out of the lines after
it. -/
def block (header : LogicalLine) (after : List LogicalLine) : List LogicalLine :=
  after.takeWhile fun entry => header.indent < entry.indent

/-- The last physical line of the block that a header opens. -/
def blockStop (header : LogicalLine) (after : List LogicalLine) : Nat :=
  ((block header after).getLast?.map (·.stop)).getD header.stop

/-- Every logical line with the lines after it. -/
def withRest : List LogicalLine → List (LogicalLine × List LogicalLine)
  | [] => []
  | entry :: rest => (entry, rest) :: withRest rest

/-- Whether a statement ends with the colon that opens a block. -/
def opensBlock (entry : LogicalLine) : Bool := entry.code.getLast? = some ':'

/-- The indentation of the innermost open block. -/
def innermost (stack : List Nat) : Nat := stack.head?.getD 0

/-- A diagnostic about the indentation of a line. -/
def aboutIndent (entry : LogicalLine) (message : String) : Diagnostic :=
  { line := entry.line, column := entry.indent, message := message.toList }

/-- Places a line among the open blocks (innermost first): the blocks open after it, and the
problems with its indentation. -/
def place (stack : List Nat) (expectBlock : Bool) (entry : LogicalLine) :
    List Nat × List Diagnostic :=
  let closed := stack.dropWhile (entry.indent < ·)
  if innermost stack < entry.indent then
    (entry.indent :: stack, if expectBlock then [] else [aboutIndent entry "Unexpected indent"])
  else if expectBlock then (closed, [aboutIndent entry "Expected an indented block"])
  else if entry.indent ≠ innermost closed then
    (entry.indent :: closed, [aboutIndent entry "Invalid indentation"])
  else (closed, [])

/-- The depths of lines and the problems with their indentation, under given open blocks; `before`
is the line in front, if there is one. -/
def levelsFrom : List Nat → Option LogicalLine → List LogicalLine → List Nat × List Diagnostic
  | _, none, [] => ([], [])
  | _, some before, [] =>
    ([], if opensBlock before then
      [{ line := before.stop, column := 0, message := "Expected an indented block".toList }]
    else [])
  | stack, before, entry :: rest =>
    let (stack, found) := place stack (before.any opensBlock) entry
    let (levels, later) := levelsFrom stack (some entry) rest
    ((stack.length - 1) :: levels, found ++ later)

/-- `_levels`: the depth of every logical line, and the problems with their indentation. -/
def levels (logical : List LogicalLine) : List Nat × List Diagnostic := levelsFrom [0] none logical

end SourceLens.Indented
