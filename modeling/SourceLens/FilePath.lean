import SourceLens.Text.Basic

/-!
# File paths

Paths with forward slashes. Empty components and single dots do not count, and the suffix of a path
runs from the last dot of its last component, unless that dot is the first or the last character.
-/

namespace SourceLens.FilePath

def components (path : Text) : List Text :=
  (Text.splitOn '/' path).filter fun part => part ≠ [] ∧ part ≠ ['.']

/-- The last component, empty if there is none. -/
def fileName (path : Text) : Text := (components path).getLast?.getD []

def suffixOf (name : Text) : Text :=
  match Text.findLast? ['.'] name with
  | some i => if 0 < i ∧ i + 1 < name.length then name.drop i else []
  | none => []

/-- The suffix of a path. -/
def suffix (path : Text) : Text := suffixOf (fileName path)

def isAbsolute (path : Text) : Bool := Text.startsWith ['/'] path

/-- The root of a path: two slashes if it starts with exactly two, else one slash or nothing. -/
def root (path : Text) : Text :=
  match path with
  | '/' :: '/' :: '/' :: _ => ['/']
  | '/' :: '/' :: _ => ['/', '/']
  | '/' :: _ => ['/']
  | _ => []

/-- The path with a root and components; the empty path is a single dot. -/
def spell (root : Text) (parts : List Text) : Text :=
  let text := root ++ Text.join ['/'] parts
  if text.isEmpty then ['.'] else text

/-- A path without the components that do not count. -/
def normal (path : Text) : Text := spell (root path) (components path)

/-- A path with further components behind it. -/
def join (path : Text) (parts : List Text) : Text := spell (root path) (components path ++ parts)

end SourceLens.FilePath
