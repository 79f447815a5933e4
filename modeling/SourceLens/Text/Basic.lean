/-!
# Source text

A source text is a list of characters. This module has the classes of blanks and quotes, and the cuts
and joins that every analysis is made of: trimming, words, lines, and the first or last place where
one text occurs in another.

A class of characters is a list of closed ranges of code points in rising order, so a membership
test stops at the first range that starts above the character. Blanks are what counts as whitespace
when text is trimmed, cut into words, or matched against a whitespace class: the ASCII controls from
tab to carriage return, the four separators before the space, the space, and the spaces of Unicode.
-/

namespace SourceLens

/-- Closed ranges of code points, in rising order. -/
abbrev CharTable := List (Nat × Nat)

/-- Whether code point `n` lies in one of the ranges. -/
def CharTable.contains : CharTable → Nat → Bool
  | [], _ => false
  | (lo, hi) :: rest, n => if n < lo then false else n ≤ hi || CharTable.contains rest n

def blankTable : CharTable :=
  [(0x9, 0xd), (0x1c, 0x20), (0x85, 0x85), (0xa0, 0xa0), (0x1680, 0x1680), (0x2000, 0x200a),
   (0x2028, 0x2029), (0x202f, 0x202f), (0x205f, 0x205f), (0x3000, 0x3000)]

/-- Whitespace in the wide (Unicode) sense. -/
def isBlank (c : Char) : Bool := blankTable.contains c.toNat

/-- A quote of either kind. -/
def isQuote (c : Char) : Bool := c = '\'' || c = '"'

theorem isQuote_iff {c : Char} : isQuote c = true ↔ c = '\'' ∨ c = '"' := by
  simp [isQuote]

theorem isBlank_of_isQuote {c : Char} (h : isQuote c = true) : isBlank c = false := by
  rcases isQuote_iff.1 h with rfl | rfl
  · decide
  · decide

/-- A piece of source text, by character. -/
abbrev Text := List Char

namespace Text

def trimStart (text : Text) : Text := text.dropWhile isBlank

def trimEnd (text : Text) : Text := (text.reverse.dropWhile isBlank).reverse

def trim (text : Text) : Text := trimEnd (trimStart text)

/-- Drops the characters of a class at both ends. -/
def trimBy (drop : Char → Bool) (text : Text) : Text :=
  ((text.dropWhile drop).reverse.dropWhile drop).reverse

/-- Whether a text holds nothing but blanks. -/
def allBlank (text : Text) : Bool := text.all isBlank

/-- The pieces between the occurrences of `sep`; there is always one more piece than separators. -/
def splitOn (sep : Char) : Text → List Text
  | [] => [[]]
  | c :: rest =>
    if c = sep then [] :: splitOn sep rest
    else
      match splitOn sep rest with
      | [] => [[c]]
      | piece :: pieces => (c :: piece) :: pieces

/-- The lines of a text, cut at line feeds only. -/
def lines (text : Text) : List Text := splitOn '\n' text

/-- Joins pieces with a separator between neighbours. -/
def join (sep : Text) (pieces : List Text) : Text := List.intercalate sep pieces

def unlines (pieces : List Text) : Text := join ['\n'] pieces

/-- The runs of characters between blanks, with the word under way in front. -/
def wordsFrom : Text → List Text × Text
  | [] => ([], [])
  | c :: rest =>
    let (later, word) := wordsFrom rest
    if isBlank c then (if word.isEmpty then later else word :: later, [])
    else (later, c :: word)

/-- The words of a text: its maximal runs of characters that are not blank. -/
def words (text : Text) : List Text :=
  let (later, word) := wordsFrom text
  if word.isEmpty then later else word :: later

/-- A text with every run of blanks made one space and the ends trimmed. -/
def collapse (text : Text) : Text := join [' '] (words text)

def startsWith (head text : Text) : Bool := head.isPrefixOf text

def endsWith (tail text : Text) : Bool := tail.isSuffixOf text

/-- The first offset at which `needle` occurs. -/
def find? (needle : Text) : Text → Option Nat
  | [] => if needle.isEmpty then some 0 else none
  | c :: rest =>
    if needle.isPrefixOf (c :: rest) then some 0 else (find? needle rest).map (· + 1)

def findLast? (needle : Text) : Text → Option Nat
  | [] => if needle.isEmpty then some 0 else none
  | c :: rest =>
    match findLast? needle rest with
    | some i => some (i + 1)
    | none => if needle.isPrefixOf (c :: rest) then some 0 else none

def occursIn (needle text : Text) : Bool := (find? needle text).isSome

def ofInt (n : Int) : Text :=
  if n < 0 then '-' :: Nat.toDigits 10 n.natAbs else Nat.toDigits 10 n.natAbs

/-- `n` spaces. -/
def spaces (n : Nat) : Text := List.replicate n ' '

/-- `_indent`: puts `width` spaces before every line that is not blank and empties the others. -/
def indent (width : Nat) (text : Text) : Text :=
  unlines ((lines text).map fun line => if allBlank line then [] else spaces width ++ line)

/-- A header and a body between braces, each on lines of its own. -/
def braced (header body : Text) : Text :=
  header ++ " \x7b\n".toList ++ body ++ "\n\x7d".toList

/-- Distinct members of a list, each at its first place. -/
def distinct (items : List Text) : List Text :=
  items.foldl (fun seen item => if seen.contains item then seen else seen ++ [item]) []

end Text

end SourceLens
