import SourceLens.Descriptor.Catalogue
import SourceLens.Text.Utf8

/-!
# Use rules

The grammar of style sheets has no rule for `@use` statements. They are found in the text, outside
comments, and blanked out before the sheet is parsed, byte for byte, so that every position in the
tree still refers to the text.
-/

namespace SourceLens.Stylesheet

open Pattern Descriptor

def comment : Pattern := chain [lit "/*", few (one fun _ => true), lit "*/"]

def useStatement : Pattern := chain [lit "@use", wordEdge, many (noneOf ";\x7b\x7d"), lit ";"]

/-- A quoted text, perhaps empty, kept in group 1. -/
def quotedArgument : Pattern := chain [quote, group 1 (many unquoted), quote]

/-- `_UseRule`: a `@use` statement and its place in the text. -/
structure UseRule where
  /-- The offset of its first byte. -/
  startByte : Nat
  /-- Its line and its column in bytes. -/
  point : Bytes.Point
  source : Option Text
  statement : Text

/-- `_strip_comments`: a text without comments, their line feeds apart. -/
def stripComments (text : Text) : Text := comment.replaceAll (·.filter (· = '\n')) text

/-- A text in which every character but the line feeds is a space. -/
def blankChars (text : Text) : Text := text.map fun c => if c = '\n' then c else ' '

/-- `_blank_bytes`: a text in which every byte but the line feeds is a space. -/
def blankBytes (text : Text) : Text :=
  text.flatMap fun c => if c = '\n' then [c] else Text.spaces (String.utf8EncodeChar c).length

/-- The use rule that stands at the offsets of a match. -/
def useRuleOf (text : Text) (found : Match) : UseRule :=
  let before := Utf8.encode (text.take found.start)
  let statement := (text.drop found.start).take found.text.length
  { startByte := before.length
    point := Bytes.pointAt before.length before
    source := (quotedArgument.find? statement).map (·.group 1)
    statement }

def useMatches (text : Text) : List Match :=
  useStatement.findAll (comment.replaceAll blankChars text)

/-- The use rules of a text, in order. -/
def useRules (text : Text) : List UseRule := (useMatches text).map (useRuleOf text)

/-- Blanks out the spans of matches in a text that starts at offset `offset`. -/
def maskFrom (offset : Nat) (text : Text) : List Match → Text
  | [] => text
  | found :: rest =>
    let skip := found.start - offset
    let after := text.drop skip
    text.take skip ++ blankBytes (after.take found.text.length)
      ++ maskFrom found.stop (after.drop found.text.length) rest

/-- `_split_use_rules`: the text with its use statements blanked out. -/
def mask (text : Text) : Text := maskFrom 0 text (useMatches text)

end SourceLens.Stylesheet
