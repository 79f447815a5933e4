import Mathlib.Tactic.Common
import SourceLens.Indented.Scan

/-!
# Reading without places

`scan` numbers every line it reads. What it yields besides those numbers does not depend on them:
`Reader` is the state between two lines without places, `Reader.run` the statements of a list of
lines and whether they have no problem with brackets and literals, and `scanFrom_logical`,
`scanFrom_diagnostics` say that a scan is such a run with places added. Lines may then be moved,
and blank lines put in or taken out, without counting.
-/

namespace SourceLens.Indented

/-- A logical line without its place. -/
structure Statement where
  indent : Nat
  code : Text
  deriving DecidableEq, Repr

/-- The statement of a logical line. -/
def LogicalLine.statement (entry : LogicalLine) : Statement :=
  { indent := entry.indent, code := entry.code }

/-- What is open between two lines: the quote of a long literal, the brackets, the innermost first,
and the statement under way. -/
structure Reader where
  literal : Option Char := none
  brackets : List Char := []
  current : Option Statement := none
  deriving DecidableEq, Repr

def Pending.reader (pending : Pending) : Reader :=
  { literal := pending.literal.map (·.quote)
    brackets := pending.brackets.map (·.char)
    current := pending.current.map (·.statement) }

theorem Pending.eq_start_of_reader {pending : Pending} (h : pending.reader = {}) :
    pending = {} := by
  obtain ⟨literal, brackets, current⟩ := pending
  simpa [Pending.reader] using h

def startMode (literal : Option Char) : Mode :=
  match literal with
  | some quote => .long quote
  | none => .code

/-- The quote of the long literal that a line ends in. -/
def openQuote : Mode → Option Char
  | .long quote => some quote
  | _ => none

/-- Whether a line that ends in a mode breaks off no literal which may not span lines. -/
def endsWell (text : Text) : Mode → Bool
  | .short _ => text.getLast? = some '\\'
  | _ => true

/-- The brackets open after some code, and whether every closing one matched. -/
def trackChars : List Char → Text → List Char × Bool
  | stack, [] => (stack, true)
  | stack, c :: rest =>
    if isOpener c then trackChars (c :: stack) rest
    else
      match openerOf? c with
      | none => trackChars stack rest
      | some opener =>
        match stack with
        | top :: below =>
          if top = opener then trackChars below rest else ((trackChars stack rest).1, false)
        | [] => ((trackChars [] rest).1, false)

/-- The statement under way after a line with the given indentation and code. -/
def extendStatement (indent : Nat) (code : Text) : Option Statement → Option Statement
  | none => if code.isEmpty then none else some { indent, code }
  | some current =>
    some { current with code := if code.isEmpty then current.code else current.code ++ ' ' :: code }

/-- What a line yields once its characters have their roles: what is open after it, the statement
that it completes, and whether it has no problem. -/
def Reader.feedMarks (reader : Reader) (text : Text) (marks : List Mark) (last : Mode) :
    Reader × List Statement × Bool :=
  let (brackets, matched) := trackChars reader.brackets (codeOf marks)
  let (piece, joined) := joinable (codeOf marks)
  let current := extendStatement (Text.indentation text) piece reader.current
  let complete := brackets.isEmpty && (openQuote last).isNone && !joined
  ({ literal := openQuote last, brackets, current := if complete then none else current },
   if complete then current.toList else [], matched && endsWell text last)

def Reader.feed (reader : Reader) (text : Text) : Reader × List Statement × Bool :=
  let (marks, last) := lex (startMode reader.literal) text
  reader.feedMarks text marks last

/-- What is left when the lines end, and whether nothing is left open. -/
def Reader.finish (reader : Reader) : List Statement × Bool :=
  (reader.current.toList, reader.literal.isNone && reader.brackets.isEmpty)

/-- The statements of lines, and whether the lines have no problem with brackets and literals. -/
def Reader.run : Reader → List Text → List Statement × Bool
  | reader, [] => reader.finish
  | reader, text :: rest =>
    let (next, found, fine) := reader.feed text
    (found ++ (next.run rest).1, fine && (next.run rest).2)

theorem Reader.run_cons (reader : Reader) (text : Text) (rest : List Text) :
    reader.run (text :: rest)
      = ((reader.feed text).2.1 ++ ((reader.feed text).1.run rest).1,
         (reader.feed text).2.2 && ((reader.feed text).1.run rest).2) := rfl

def Reader.feedAll : Reader → List Text → Reader × List Statement × Bool
  | reader, [] => (reader, [], true)
  | reader, text :: rest =>
    let (next, found, fine) := reader.feed text
    let (last, later, sound) := next.feedAll rest
    (last, found ++ later, fine && sound)

theorem Reader.run_append (reader : Reader) (front rest : List Text) :
    reader.run (front ++ rest)
      = ((reader.feedAll front).2.1 ++ ((reader.feedAll front).1.run rest).1,
         (reader.feedAll front).2.2 && ((reader.feedAll front).1.run rest).2) := by
  induction front generalizing reader with
  | nil => simp [feedAll]
  | cons text front ih =>
    rw [List.cons_append, run_cons, ih, feedAll]
    simp [Bool.and_assoc]

theorem Reader.run_append_congr {reader : Reader} {front a b : List Text}
    (h : (reader.feedAll front).1.run a = (reader.feedAll front).1.run b) :
    reader.run (front ++ a) = reader.run (front ++ b) := by
  rw [run_append, run_append, h]

theorem Reader.feedAll_append (reader : Reader) (front rest : List Text) :
    (reader.feedAll (front ++ rest)).1 = ((reader.feedAll front).1.feedAll rest).1
      ∧ (reader.feedAll (front ++ rest)).2.1
        = (reader.feedAll front).2.1 ++ ((reader.feedAll front).1.feedAll rest).2.1 := by
  induction front generalizing reader with
  | nil => exact ⟨rfl, rfl⟩
  | cons text front ih =>
    obtain ⟨hlast, hfound⟩ := ih (reader.feed text).1
    exact ⟨hlast, by simp only [List.cons_append, feedAll, hfound, List.append_assoc]⟩

theorem isEmpty_append {α : Type} (a b : List α) :
    (a ++ b).isEmpty = (a.isEmpty && b.isEmpty) := by
  cases a <;> rfl

/-! ## Brackets -/

/-- Tracking brackets through marks is tracking them through the code, whose stand-ins for literals
hold no bracket. -/
theorem trackBrackets_eq (line column : Nat) (stack : List Bracket) (marks : List Mark) :
    ((trackBrackets line column stack marks).1.map (·.char),
      (trackBrackets line column stack marks).2.isEmpty)
      = trackChars (stack.map (·.char)) (codeOf marks) := by
  induction marks generalizing column stack with
  | nil => rfl
  | cons mark rest ih =>
    obtain ⟨c, role⟩ := mark
    cases role with
    | code =>
      have hcode : codeOf (⟨c, .code⟩ :: rest) = c :: codeOf rest := rfl
      rw [trackBrackets, hcode, trackChars]
      by_cases hopen : isOpener c
      · simpa [hopen] using ih (column + 1) (⟨c, line, column⟩ :: stack)
      · cases hcloser : openerOf? c with
        | none => simpa [hopen, hcloser] using ih (column + 1) stack
        | some opener =>
          have hsame := congrArg Prod.fst (ih (column + 1) stack)
          cases stack with
          | nil => simpa [hopen, hcloser] using hsame
          | cons top below =>
            by_cases htop : top.char = opener
            · simpa [hopen, hcloser, htop] using ih (column + 1) below
            · simpa [hopen, hcloser, htop] using hsame
    | opening =>
      have hcode : codeOf (⟨c, .opening⟩ :: rest) = '"' :: '"' :: codeOf rest := rfl
      rw [trackBrackets, hcode]
      simp [trackChars, isOpener, openerOf?, ih]
    | literal =>
      have hcode : codeOf (⟨c, .literal⟩ :: rest) = codeOf rest := rfl
      rw [trackBrackets, hcode]
      simp [ih]
    | comment =>
      have hcode : codeOf (⟨c, .comment⟩ :: rest) = codeOf rest := rfl
      rw [trackBrackets, hcode]
      simp [ih]

/-! ## Literals -/

/-- The quote of the literal that a line is in the middle of. -/
def Mode.quote? : Mode → Option Char
  | .short quote | .escaped quote | .long quote | .openingQuotes quote _ => some quote
  | .code | .comment | .closingQuotes _ => none

theorem quote?_advance {mode : Mode} {c : Char} {rest : Text}
    (h : (advance mode c rest).1 ≠ .opening) :
    (advance mode c rest).2.quote? = none
      ∨ (advance mode c rest).2.quote? = mode.quote? := by
  cases mode with
  | comment => exact .inr rfl
  | escaped q => exact .inr rfl
  | openingQuotes q left => cases left <;> exact .inr rfl
  | closingQuotes left => cases left <;> exact .inl rfl
  | code | short q | long q =>
    revert h
    simp only [advance]
    split_ifs <;> simp [Mode.quote?]

theorem quote?_lex {mode : Mode} {text : Text}
    (h : ∀ mark ∈ (lex mode text).1, mark.role ≠ .opening) :
    (lex mode text).2.quote? = none ∨ (lex mode text).2.quote? = mode.quote? := by
  induction text generalizing mode with
  | nil => exact .inr rfl
  | cons c rest ih =>
    rw [lex] at h ⊢
    have hfirst := quote?_advance (h _ List.mem_cons_self)
    have hrest := ih fun mark hmark => h mark (List.mem_cons_of_mem _ hmark)
    rcases hrest with hrest | hrest
    · exact .inl hrest
    · rcases hfirst with hfirst | hfirst
      · exact .inl (hrest.trans hfirst)
      · exact .inr (hrest.trans hfirst)

theorem role_ne_opening_of_lastOpening {column : Nat} {marks : List Mark}
    (h : lastOpening column marks = none) : ∀ mark ∈ marks, mark.role ≠ .opening := by
  induction marks generalizing column with
  | nil => simp
  | cons mark rest ih =>
    rw [lastOpening] at h
    cases hlast : lastOpening (column + 1) rest with
    | some found => simp [hlast] at h
    | none =>
      simp only [hlast, ite_eq_right_iff, reduceCtorEq, imp_false] at h
      intro other hother
      rcases List.mem_cons.1 hother with rfl | hother
      · exact h
      · exact ih hlast other hother

theorem openAfter_quote (line : Nat) (before : Option OpenLiteral) (text : Text) :
    (openAfter line (lex (startMode (before.map (·.quote))) text).1 before
        (lex (startMode (before.map (·.quote))) text).2).map (·.quote)
      = openQuote (lex (startMode (before.map (·.quote))) text).2 := by
  set marks := (lex (startMode (before.map (·.quote))) text).1 with hmarks
  cases hlast : (lex (startMode (before.map (·.quote))) text).2 with
  | long q =>
    rw [openAfter, openQuote]
    cases hopen : lastOpening 0 marks with
    | some column => rfl
    | none =>
      -- nothing was opened on the line, so the literal is the one that it started in
      have hquote := quote?_lex (role_ne_opening_of_lastOpening (hmarks ▸ hopen))
      rw [hlast] at hquote
      cases before with
      | none => simp [Mode.quote?, startMode] at hquote
      | some literal => simpa [Mode.quote?, startMode, eq_comm] using hquote
  | _ => rfl

/-! ## A scan is a run with places -/

theorem extend_statement (line indent : Nat) (code : Text) (current : Option LogicalLine) :
    (extend line indent code current).map (·.statement)
      = extendStatement indent code (current.map (·.statement)) := by
  cases current with
  | none => by_cases h : code = [] <;> simp [extend, extendStatement, LogicalLine.statement, h]
  | some current => rfl

theorem shortLiteralProblem_isEmpty (line : Nat) (text : Text) (marks : List Mark) (mode : Mode) :
    (shortLiteralProblem line text marks mode).isEmpty = endsWell text mode := by
  cases mode with
  | short q => by_cases h : text.getLast? = some '\\' <;> simp [shortLiteralProblem, endsWell, h]
  | _ => rfl

/-- What a line yields once its characters have their roles. -/
def Pending.feedMarks (pending : Pending) (line : Nat) (text : Text) (marks : List Mark)
    (last : Mode) : Pending × Scan :=
  let (brackets, unmatched) := trackBrackets line 0 pending.brackets marks
  let literal := openAfter line marks pending.literal last
  let (code, joined) := joinable (codeOf marks)
  let current := extend line (Text.indentation text) code pending.current
  let complete := brackets.isEmpty && literal.isNone && !joined
  ({ literal, brackets, current := if complete then none else current },
   { logical := if complete then current.toList else []
     physical := [{ text
                    startsInLiteral := pending.literal.isSome
                    endsInLiteral := literal.isSome }]
     diagnostics := unmatched ++ shortLiteralProblem line text marks last })

theorem feed_eq_feedMarks (pending : Pending) (line : Nat) (text : Text) :
    pending.feed line text
      = pending.feedMarks line text (lex (startMode pending.reader.literal) text).1
          (lex (startMode pending.reader.literal) text).2 := by
  obtain ⟨literal, brackets, current⟩ := pending
  cases literal <;> rfl

theorem feedMarks_reader (pending : Pending) (line : Nat) (text : Text) {marks : List Mark}
    {last : Mode}
    (hliteral : (openAfter line marks pending.literal last).map (·.quote) = openQuote last) :
    (pending.feedMarks line text marks last).1.reader
        = (pending.reader.feedMarks text marks last).1
      ∧ (pending.feedMarks line text marks last).2.logical.map (·.statement)
        = (pending.reader.feedMarks text marks last).2.1
      ∧ (pending.feedMarks line text marks last).2.diagnostics.isEmpty
        = (pending.reader.feedMarks text marks last).2.2 := by
  simp only [Pending.feedMarks, Reader.feedMarks, Pending.reader]
  simp only [← trackBrackets_eq line 0, ← hliteral, ← extend_statement line,
    ← shortLiteralProblem_isEmpty line text marks, List.isEmpty_map, Option.isNone_map]
  refine ⟨?_, ?_, ?_⟩
  · split_ifs <;> rfl
  · split_ifs
    · cases extend line (Text.indentation text) (joinable (codeOf marks)).1 pending.current <;> rfl
    · rfl
  · exact isEmpty_append ..

theorem feed_reader (pending : Pending) (line : Nat) (text : Text) :
    (pending.feed line text).1.reader = (pending.reader.feed text).1
      ∧ (pending.feed line text).2.logical.map (·.statement) = (pending.reader.feed text).2.1
      ∧ (pending.feed line text).2.diagnostics.isEmpty = (pending.reader.feed text).2.2 := by
  rw [feed_eq_feedMarks]
  exact feedMarks_reader pending line text (openAfter_quote line pending.literal text)

theorem finish_reader (pending : Pending) :
    pending.finish.logical.map (·.statement) = pending.reader.finish.1
      ∧ pending.finish.diagnostics.isEmpty = pending.reader.finish.2 := by
  obtain ⟨literal, brackets, current⟩ := pending
  refine ⟨by cases current <;> rfl, ?_⟩
  cases literal <;> cases brackets <;> simp [Pending.finish, Reader.finish, Pending.reader]

theorem scanFrom_run (pending : Pending) (line : Nat) (lines : List Text) :
    (scanFrom pending line lines).logical.map (·.statement) = (pending.reader.run lines).1
      ∧ (scanFrom pending line lines).diagnostics.isEmpty = (pending.reader.run lines).2 := by
  induction lines generalizing pending line with
  | nil => exact finish_reader pending
  | cons text rest ih =>
    obtain ⟨hnext, hfound, hfine⟩ := feed_reader pending line text
    obtain ⟨hlogical, hdiagnostics⟩ := ih (pending.feed line text).1 (line + 1)
    rw [hnext] at hlogical hdiagnostics
    rw [scanFrom, Reader.run_cons, ← hfound, ← hfine, ← hlogical, ← hdiagnostics]
    simp [Scan.append, isEmpty_append]

/-! ## The parts of one step -/

def Reader.codeIn (reader : Reader) (text : Text) : Text :=
  codeOf (lex (startMode reader.literal) text).1

def Reader.lastMode (reader : Reader) (text : Text) : Mode :=
  (lex (startMode reader.literal) text).2

def Reader.completes (reader : Reader) (text : Text) : Bool :=
  (trackChars reader.brackets (reader.codeIn text)).1.isEmpty
    && (openQuote (reader.lastMode text)).isNone && !(joinable (reader.codeIn text)).2

def Reader.underway (reader : Reader) (text : Text) : Option Statement :=
  extendStatement (Text.indentation text) (joinable (reader.codeIn text)).1 reader.current

theorem Reader.feed_eq (reader : Reader) (text : Text) :
    reader.feed text
      = ({ literal := openQuote (reader.lastMode text)
           brackets := (trackChars reader.brackets (reader.codeIn text)).1
           current := if reader.completes text then none else reader.underway text },
         if reader.completes text then (reader.underway text).toList else [],
         (trackChars reader.brackets (reader.codeIn text)).2
           && endsWell text (reader.lastMode text)) := rfl

theorem Reader.feed_of_completes {reader : Reader} {text : Text}
    (h : reader.completes text = true) :
    (reader.feed text).1.current = none
      ∧ (reader.feed text).2.1 = (reader.underway text).toList := by
  simp [feed_eq, h]

theorem Reader.feed_idle_of_completes {reader : Reader} {text : Text}
    (h : reader.completes text = true) : (reader.feed text).1 = {} := by
  rw [feed_eq, if_pos h]
  simp only [completes, Bool.and_eq_true, List.isEmpty_iff, Option.isNone_iff_eq_none] at h
  simp [h.1.1, h.1.2]

theorem Reader.feed_of_not_completes {reader : Reader} {text : Text}
    (h : ¬reader.completes text = true) :
    (reader.feed text).1.current = reader.underway text ∧ (reader.feed text).2.1 = [] := by
  simp [feed_eq, h]

def Pending.underway (pending : Pending) (line : Nat) (text : Text) : Option LogicalLine :=
  extend line (Text.indentation text) (joinable (pending.reader.codeIn text)).1 pending.current

theorem underway_reader (pending : Pending) (i : Nat) (text : Text) :
    pending.reader.underway text = (pending.underway i text).map (·.statement) := by
  rw [Pending.underway, extend_statement]
  rfl

theorem feed_logical (pending : Pending) (line : Nat) (text : Text) :
    (pending.feed line text).1.current
        = (if pending.reader.completes text then none else pending.underway line text)
      ∧ (pending.feed line text).2.logical
        = (if pending.reader.completes text then (pending.underway line text).toList else []) := by
  have hbrackets := congrArg Prod.fst
    (trackBrackets_eq line 0 pending.brackets (lex (startMode pending.reader.literal) text).1)
  have hliteral := openAfter_quote line pending.literal text
  have hcomplete : pending.reader.completes text
      = ((trackBrackets line 0 pending.brackets
            (lex (startMode pending.reader.literal) text).1).1.isEmpty
        && (openAfter line (lex (startMode pending.reader.literal) text).1 pending.literal
            (lex (startMode pending.reader.literal) text).2).isNone
        && !(joinable (pending.reader.codeIn text)).2) := by
    rw [Reader.completes, Reader.codeIn, Reader.lastMode]
    simp only [Pending.reader] at hbrackets hliteral ⊢
    rw [← hbrackets, ← hliteral, List.isEmpty_map, Option.isNone_map]
  rw [feed_eq_feedMarks, hcomplete]
  exact ⟨rfl, rfl⟩

theorem scanFrom_cons (pending : Pending) (line : Nat) (text : Text) (rest : List Text) :
    scanFrom pending line (text :: rest)
      = (pending.feed line text).2.append
          (scanFrom (pending.feed line text).1 (line + 1) rest) := rfl

theorem fine_of_scanFrom_cons {pending : Pending} {line : Nat} {text : Text} {rest : List Text}
    (h : (scanFrom pending line (text :: rest)).diagnostics = []) :
    (pending.reader.feed text).2.2 = true
      ∧ (scanFrom (pending.feed line text).1 (line + 1) rest).diagnostics = [] := by
  rw [scanFrom_cons] at h
  obtain ⟨hhere, hlater⟩ := List.append_eq_nil_iff.1 h
  refine ⟨?_, hlater⟩
  rw [← (feed_reader pending line text).2.2, hhere]
  rfl

theorem feed_physical (pending : Pending) (line : Nat) (text : Text) :
    (pending.feed line text).2.physical
      = [{ text
           startsInLiteral := pending.reader.literal.isSome
           endsInLiteral := (openQuote (pending.reader.lastMode text)).isSome }] := by
  have hliteral := openAfter_quote line pending.literal text
  rw [feed_eq_feedMarks, Reader.lastMode, Pending.feedMarks]
  simp only [Pending.reader] at hliteral ⊢
  rw [← hliteral, Option.isSome_map, Option.isSome_map]

end SourceLens.Indented
