import SourceLens.Builtin.Yaml.Scalar

/-!
# Places in a document

A place knows its line and column and the text after it. This module reads what fills a line or runs
over several: blanks and comments, plain scalars and quoted scalars. A line break inside a scalar is
folded: one break is a space, and of several the first is dropped.
-/

namespace SourceLens.Builtin.Yaml

/-- A place in a document. -/
structure Cursor where
  rest : Text
  line : Nat := 0
  column : Nat := 0
  offset : Nat := 0

def isBreak (c : Char) : Bool :=
  c = '\n' || c = '\r' || c = '\x85' || c = '\u2028' || c = '\u2029'

/-- Whether a word ends before this character, or at the end of the document. -/
def endsWord : Option Char → Bool
  | none => true
  | some c => c = ' ' || c = '\t' || isBreak c

namespace Cursor

def next (here : Cursor) : Cursor :=
  match here.rest with
  | [] => here
  | c :: rest =>
    if isBreak c then { rest, line := here.line + 1, column := 0, offset := here.offset + 1 }
    else
      { rest, line := here.line, offset := here.offset + 1
        column := if c = '\ufeff' then here.column else here.column + 1 }

def skip (here : Cursor) : Nat → Cursor
  | 0 => here
  | n + 1 => here.next.skip n

def skipWhile (here : Cursor) (test : Char → Bool) : Cursor :=
  here.skip (here.rest.takeWhile test).length

/-- Whether a line that divides documents starts here. -/
def atDivider (here : Cursor) : Bool :=
  (Text.startsWith "---".toList here.rest || Text.startsWith "...".toList here.rest)
    && endsWord (here.rest[3]?)

/-- The place of the next token, and whether a key may start there: after a line break one may,
outside brackets. -/
def toToken (inFlow : Bool) : Nat → Bool → Cursor → Cursor × Bool
  | 0, allowKey, here => (here, allowKey)
  | fuel + 1, allowKey, here =>
    let here := here.skipWhile (· = ' ')
    let here := if here.rest.head? = some '#' then here.skipWhile (! isBreak ·) else here
    match here.rest with
    | c :: _ => if isBreak c then toToken inFlow fuel (allowKey || !inFlow) here.next
      else (here, allowKey)
    | [] => (here, allowKey)

end Cursor

/-- What a line break stands for inside a scalar. -/
def breakText (c : Char) : Text := if c = '\u2028' || c = '\u2029' then [c] else ['\n']

/-- Folds a line break and the blank lines after it. -/
def fold (first breaks : Text) : Text :=
  if first ≠ ['\n'] then first ++ breaks else if breaks.isEmpty then [' '] else breaks

/-! ## Plain scalars -/

def plainRun (inFlow : Bool) : Text → Text
  | [] => []
  | c :: rest =>
    if endsWord (some c)
        || (c = ':' && (endsWord rest.head?
          || (inFlow && rest.head?.any fun d => ",[]\x7b\x7d".toList.contains d)))
        || (inFlow && ",?[]\x7b\x7d".toList.contains c) then []
    else c :: plainRun inFlow rest

/-- Blank lines inside a plain scalar; stops, and says so, where documents are divided. -/
def plainBreaks : Nat → Cursor → Text × Cursor × Bool
  | 0, here => ([], here, false)
  | fuel + 1, here =>
    match here.rest with
    | c :: _ =>
      if c = ' ' then plainBreaks fuel here.next
      else if isBreak c then
        if here.next.atDivider then (breakText c, here.next, true)
        else
          let (breaks, there, stopped) := plainBreaks fuel here.next
          (breakText c ++ breaks, there, stopped)
      else ([], here, false)
    | [] => ([], here, false)

/-- The blanks between two words of a plain scalar, folded, none if the scalar ends; also whether a
line break was met. -/
def plainGap (here : Cursor) : Option Text × Cursor × Bool :=
  let gap := here.rest.takeWhile (· = ' ')
  let here := here.skip gap.length
  match here.rest with
  | c :: _ =>
    if isBreak c then
      if here.next.atDivider then (none, here.next, true)
      else
        let (breaks, there, stopped) := plainBreaks here.rest.length here.next
        (if stopped then none else some (fold (breakText c) breaks), there, true)
    else (if gap.isEmpty then none else some gap, here, false)
  | [] => (if gap.isEmpty then none else some gap, here, false)

/-- A plain scalar after `before`, the blanks in front of its next word; also whether a key may
start after it. The scalar ends on a line that is indented less than `indent`. -/
def readPlain (inFlow : Bool) (indent : Int) :
    Nat → Text → Bool → Cursor → Text × Cursor × Bool
  | 0, _, allowKey, here => ([], here, allowKey)
  | fuel + 1, before, allowKey, here =>
    let word := if here.rest.head? = some '#' then [] else plainRun inFlow here.rest
    if word.isEmpty then ([], here, allowKey)
    else
      let (gap, there, broke) := plainGap (here.skip word.length)
      match gap with
      | none => (before ++ word, there, broke)
      | some gap =>
        if there.rest.head? = some '#' || (!inFlow && (there.column : Int) < indent) then
          (before ++ word, there, broke)
        else
          let (later, last, allowKey) := readPlain inFlow indent fuel gap broke there
          (before ++ word ++ later, last, allowKey)

/-! ## Quoted scalars -/

def escaped? (c : Char) : Option Char :=
  match c with
  | '0' => some '\x00'
  | 'a' => some '\x07'
  | 'b' => some '\x08'
  | 't' => some '\t'
  | '\t' => some '\t'
  | 'n' => some '\n'
  | 'v' => some '\x0b'
  | 'f' => some '\x0c'
  | 'r' => some '\r'
  | 'e' => some '\x1b'
  | ' ' => some ' '
  | '"' => some '"'
  | '\\' => some '\\'
  | '/' => some '/'
  | 'N' => some '\x85'
  | '_' => some '\xa0'
  | 'L' => some '\u2028'
  | 'P' => some '\u2029'
  | _ => none

/-- The number of digits of an escape by number. -/
def escapeWidth? (c : Char) : Option Nat :=
  match c with
  | 'x' => some 2
  | 'u' => some 4
  | 'U' => some 8
  | _ => none

def isHex (c : Char) : Bool :=
  c.isDigit || ('a' ≤ c && c ≤ 'f') || ('A' ≤ c && c ≤ 'F')

/-- Blank lines inside a quoted scalar; documents may not be divided there. -/
def quotedBreaks : Nat → Cursor → Option (Text × Cursor)
  | 0, here => some ([], here)
  | fuel + 1, here =>
    if here.atDivider then none
    else
      let here := here.skipWhile fun c => c = ' ' || c = '\t'
      match here.rest with
      | c :: _ =>
        if isBreak c then
          (quotedBreaks fuel here.next).map fun (breaks, there) => (breakText c ++ breaks, there)
        else some ([], here)
      | [] => some ([], here)

/-- The number of an escape, two surrogates counting as the one character they stand for. -/
def escapedNumber? (width : Nat) (here : Cursor) : Option (Char × Cursor) :=
  let ds := here.rest.take width
  if ds.length = width && ds.all isHex then
    let n := inBase 16 ds
    let there := here.skip width
    let low := (there.rest.drop 2).take 4
    if 0xd800 ≤ n && n < 0xdc00 && Text.startsWith "\\u".toList there.rest && low.all isHex
        && 0xdc00 ≤ inBase 16 low && inBase 16 low < 0xe000 then
      some (Char.ofNat (0x10000 + (n - 0xd800) * 0x400 + (inBase 16 low - 0xdc00)), there.skip 6)
    else some (Char.ofNat n, there)
  else none

def readDouble : Nat → Cursor → Option (Text × Cursor)
  | 0, _ => none
  | fuel + 1, here =>
    match here.rest with
    | [] => none
    | '"' :: _ => some ([], here.next)
    | '\\' :: c :: _ =>
      match escaped? c with
      | some d => (readDouble fuel (here.skip 2)).map fun (text, there) => (d :: text, there)
      | none =>
        match escapeWidth? c with
        | some width =>
          match escapedNumber? width (here.skip 2) with
          | some (d, there) => (readDouble fuel there).map fun (text, last) => (d :: text, last)
          | none => none
        | none =>
          if isBreak c then
            match quotedBreaks here.rest.length (here.skip 2) with
            | some (breaks, there) =>
              (readDouble fuel there).map fun (text, last) => (breaks ++ text, last)
            | none => none
          else none
    | c :: _ =>
      if c = ' ' || c = '\t' || isBreak c then
        let gap := here.rest.takeWhile fun c => c = ' ' || c = '\t'
        let after := here.skip gap.length
        match after.rest with
        | [] => none
        | d :: _ =>
          if isBreak d then
            match quotedBreaks after.rest.length after.next with
            | some (breaks, there) =>
              (readDouble fuel there).map fun (text, last) =>
                (fold (breakText d) breaks ++ text, last)
            | none => none
          else (readDouble fuel after).map fun (text, last) => (gap ++ text, last)
      else (readDouble fuel here.next).map fun (text, there) => (c :: text, there)

/-- The rest of a scalar in single quotes; a quote inside is written twice. -/
def readSingle : Nat → Cursor → Option (Text × Cursor)
  | 0, _ => none
  | fuel + 1, here =>
    match here.rest with
    | [] => none
    | '\'' :: '\'' :: _ =>
      (readSingle fuel (here.skip 2)).map fun (text, there) => ('\'' :: text, there)
    | '\'' :: _ => some ([], here.next)
    | c :: _ =>
      if c = ' ' || c = '\t' || isBreak c then
        let gap := here.rest.takeWhile fun c => c = ' ' || c = '\t'
        let after := here.skip gap.length
        match after.rest with
        | [] => none
        | d :: _ =>
          if isBreak d then
            match quotedBreaks after.rest.length after.next with
            | some (breaks, there) =>
              (readSingle fuel there).map fun (text, last) =>
                (fold (breakText d) breaks ++ text, last)
            | none => none
          else (readSingle fuel after).map fun (text, last) => (gap ++ text, last)
      else (readSingle fuel here.next).map fun (text, there) => (c :: text, there)

end SourceLens.Builtin.Yaml
