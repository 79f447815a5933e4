import SourceLens.Text.Basic
import SourceLens.Text.Word

/-!
# Patterns

Patterns over source text, matched by backtracking: alternatives are tried in order, repetitions
take as much as they can unless they are reluctant, and the first way to match wins. `Pattern.run`
hands every place where the pattern can end to a continuation, in that order of preference.
-/

namespace SourceLens

/-- A pattern over text. -/
inductive Pattern where
  /-- Matches nothing wide. -/
  | empty
  /-- Matches one character of a class. -/
  | one (test : Char → Bool)
  /-- One pattern, then another. -/
  | seq (first second : Pattern)
  /-- One pattern or, failing that, another. -/
  | alt (first second : Pattern)
  /-- As many rounds of a pattern as possible. -/
  | many (body : Pattern)
  /-- As few rounds of a pattern as possible. -/
  | few (body : Pattern)
  /-- Remembers the text that a pattern matched under a number. -/
  | group (index : Nat) (body : Pattern)
  /-- Between a word character and something else. -/
  | wordEdge
  /-- At the start of a line. -/
  | lineStart
  /-- At the end of the text, or before a line feed that ends it. -/
  | finish
  /-- Where a pattern does not match. -/
  | notAhead (body : Pattern)

namespace Pattern

/-- A place in a text under matching: the character before it, the characters after it, its offset,
and the groups remembered so far, newest first. -/
structure Cursor where
  before : Option Char
  rest : Text
  offset : Nat
  groups : List (Nat × Text)

def Cursor.atWordEdge (here : Cursor) : Bool :=
  (here.before.any isWord) != (here.rest.head?.any isWord)

def Cursor.advance (here : Cursor) (c : Char) (rest : Text) : Cursor :=
  { here with before := some c, rest := rest, offset := here.offset + 1 }

/-- Rounds of `step`, as many as possible first; a round must move on. -/
def greedy (step : Cursor → (Cursor → Option Cursor) → Option Cursor) :
    Nat → Cursor → (Cursor → Option Cursor) → Option Cursor
  | 0, here, next => next here
  | rounds + 1, here, next =>
    match step here fun there =>
      if here.offset < there.offset then greedy step rounds there next else none with
    | some found => some found
    | none => next here

/-- Rounds of `step`, as few as possible first; a round must move on. -/
def reluctant (step : Cursor → (Cursor → Option Cursor) → Option Cursor) :
    Nat → Cursor → (Cursor → Option Cursor) → Option Cursor
  | 0, here, next => next here
  | rounds + 1, here, next =>
    match next here with
    | some found => some found
    | none =>
      step here fun there =>
        if here.offset < there.offset then reluctant step rounds there next else none

/-- Matches a pattern at a place and goes on with `next` from each place where it can end, the
preferred one first, until `next` succeeds. -/
def run : Pattern → Cursor → (Cursor → Option Cursor) → Option Cursor
  | empty, here, next => next here
  | one test, here, next =>
    match here.rest with
    | [] => none
    | c :: rest => if test c then next (here.advance c rest) else none
  | seq first second, here, next => run first here fun there => run second there next
  | alt first second, here, next =>
    match run first here next with
    | some found => some found
    | none => run second here next
  | many body, here, next => greedy (run body) here.rest.length here next
  | few body, here, next => reluctant (run body) here.rest.length here next
  | group index body, here, next =>
    run body here fun there =>
      next { there with
        groups := (index, here.rest.take (there.offset - here.offset)) :: there.groups }
  | wordEdge, here, next => if here.atWordEdge then next here else none
  | lineStart, here, next =>
    if here.before = none ∨ here.before = some '\n' then next here else none
  | finish, here, next => if here.rest = [] ∨ here.rest = ['\n'] then next here else none
  | notAhead body, here, next =>
    match run body here some with
    | some _ => none
    | none => next here

/-! ## Building patterns -/

def chain : List Pattern → Pattern
  | [] => empty
  | [p] => p
  | p :: rest => seq p (chain rest)

/-- The first of several patterns that leads to a match. -/
def oneOf : List Pattern → Pattern
  | [] => one fun _ => false
  | [p] => p
  | p :: rest => alt p (oneOf rest)

def lit (text : String) : Pattern := chain (text.toList.map fun c => one (· == c))

/-- A pattern or nothing, the pattern if possible. -/
def opt (body : Pattern) : Pattern := alt body empty

/-- At least one round of a pattern, as many as possible. -/
def many1 (body : Pattern) : Pattern := seq body (many body)

/-- At least one round of a pattern, as few as possible. -/
def few1 (body : Pattern) : Pattern := seq body (few body)

def among (text : String) : Pattern :=
  let members := text.toList
  one fun c => members.contains c

def noneOf (text : String) : Pattern :=
  let members := text.toList
  one fun c => !members.contains c

def blank : Pattern := one isBlank

def wordChar : Pattern := one isWord

end Pattern

end SourceLens
