import SourceLens.Pattern.Basic

/-!
# Searching with patterns

A match at the start of a text, the leftmost match, and all matches from left to right that do not
overlap.
-/

namespace SourceLens

/-- Where a pattern matched, and what its groups remember. -/
structure Match where
  start : Nat
  text : Text
  groups : List (Nat × Text)

namespace Match

/-- The offset just after a match. -/
def stop (found : Match) : Nat := found.start + found.text.length

/-- The text of a group, if the group took part in the match. -/
def group? (found : Match) (index : Nat) : Option Text := found.groups.lookup index

/-- The text of a group, empty if the group took no part. -/
def group (found : Match) (index : Nat) : Text := (found.group? index).getD []

end Match

namespace Pattern

/-- The match that starts where `rest` begins, `before` being the character in front. -/
def matchAt (pattern : Pattern) (before : Option Char) (offset : Nat) (rest : Text) :
    Option Match :=
  (pattern.run { before, rest, offset, groups := [] } some).map fun there =>
    { start := offset, text := rest.take (there.offset - offset), groups := there.groups }

/-- The match at the start of a text. -/
def matchStart? (pattern : Pattern) (text : Text) : Option Match := pattern.matchAt none 0 text

/-- Whether a pattern matches at the start of a text. -/
def startsAt (pattern : Pattern) (text : Text) : Bool := (pattern.matchStart? text).isSome

/-- The match that starts where `rest` begins, if it is at least one character long. -/
def matchSome (pattern : Pattern) (before : Option Char) (offset : Nat) (rest : Text) :
    Option Match :=
  (pattern.matchAt before offset rest).filter fun found => !found.text.isEmpty

/-- Matches in the text after `before`, the first `skip` characters being taken already. -/
def findAllFrom (pattern : Pattern) : Nat → Option Char → Nat → Text → List Match
  | _, _, _, [] => []
  | skip + 1, _, offset, c :: rest => findAllFrom pattern skip (some c) (offset + 1) rest
  | 0, before, offset, c :: rest =>
    match pattern.matchSome before offset (c :: rest) with
    | some found =>
      found :: findAllFrom pattern (found.text.length - 1) (some c) (offset + 1) rest
    | none => findAllFrom pattern 0 (some c) (offset + 1) rest

/-- All matches that take up text, from left to right; each search goes on where the match before it
ended. -/
def findAll (pattern : Pattern) (text : Text) : List Match :=
  findAllFrom pattern 0 none 0 text

/-- The leftmost match in the text after `before`. -/
def findFrom? (pattern : Pattern) : Option Char → Nat → Text → Option Match
  | before, offset, [] => pattern.matchAt before offset []
  | before, offset, c :: rest =>
    match pattern.matchAt before offset (c :: rest) with
    | some found => some found
    | none => findFrom? pattern (some c) (offset + 1) rest

/-- The leftmost match. -/
def find? (pattern : Pattern) (text : Text) : Option Match := findFrom? pattern none 0 text

/-- Replaces matches in the text after `before`, the first `skip` characters being taken already. -/
def replaceFrom (pattern : Pattern) (image : Text → Text) :
    Nat → Option Char → Nat → Text → Text
  | _, _, _, [] => []
  | skip + 1, _, offset, c :: rest => replaceFrom pattern image skip (some c) (offset + 1) rest
  | 0, before, offset, c :: rest =>
    match pattern.matchSome before offset (c :: rest) with
    | some found =>
      image found.text
        ++ replaceFrom pattern image (found.text.length - 1) (some c) (offset + 1) rest
    | none => c :: replaceFrom pattern image 0 (some c) (offset + 1) rest

/-- The text with every match of `findAll` replaced by its image. -/
def replaceAll (pattern : Pattern) (image : Text → Text) (text : Text) : Text :=
  replaceFrom pattern image 0 none 0 text

end Pattern

end SourceLens
