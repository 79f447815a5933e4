import SourceLens.Proofs.Indented.Contents
import SourceLens.Proofs.Indented.Rendering

/-!
# Columns apart

The columns of brackets and literals end up in diagnostics and nowhere else. `SameLines` compares
what is open between two lines without them; a scan of lines that are read alike keeps it from line
to line, so it yields the same logical lines and says the same things about the same lines
(`LinesAlike.scanFrom`).
-/

namespace SourceLens

/-- What a diagnostic says, and of which line. -/
def Diagnostic.remark (found : Diagnostic) : Nat × Text := (found.line, found.message)

namespace Indented

def Bracket.onLine (bracket : Bracket) : Char × Nat := (bracket.char, bracket.line)

def OpenLiteral.onLine (literal : OpenLiteral) : Char × Nat := (literal.quote, literal.line)

/-- The same things are open, opened on the same lines. -/
structure SameLines (p p' : Pending) : Prop where
  literal : p.literal.map (·.onLine) = p'.literal.map (·.onLine)
  brackets : p.brackets.map (·.onLine) = p'.brackets.map (·.onLine)
  current : p.current = p'.current

/-- The same logical lines, and the same remarks. -/
structure SameRemarks (s s' : Scan) : Prop where
  logical : s.logical = s'.logical
  diagnostics : s.diagnostics.map (·.remark) = s'.diagnostics.map (·.remark)

theorem SameRemarks.append {a a' b b' : Scan} (ha : SameRemarks a a') (hb : SameRemarks b b') :
    SameRemarks (a.append b) (a'.append b') := by
  constructor
  · simp only [Scan.append, ha.logical, hb.logical]
  · simp only [Scan.append, List.map_append, ha.diagnostics, hb.diagnostics]

theorem SameLines.mode {p p' : Pending} (h : SameLines p p') :
    p.reader.literal = p'.reader.literal := by
  have hquote (o : Option OpenLiteral) : o.map (·.quote) = (o.map (·.onLine)).map (·.1) := by
    cases o <;> rfl
  rw [Pending.reader, Pending.reader, hquote, hquote p'.literal, h.literal]

theorem SameLines.isEmpty_brackets {stack stack' : List Bracket}
    (h : stack.map (·.onLine) = stack'.map (·.onLine)) : stack.isEmpty = stack'.isEmpty := by
  rw [← List.isEmpty_map (f := (·.onLine)), h, List.isEmpty_map]

theorem startMode_openQuote (mode : Mode) : startMode (openQuote mode) = mode.nextLine := by
  cases mode <;> rfl

/-! ## What the visible characters decide -/

theorem codeOf_visible (marks : List Mark) : codeOf (visible marks) = codeOf marks := by
  induction marks with
  | nil => rfl
  | cons mark marks ih =>
    obtain ⟨c, role⟩ := mark
    cases role with
    | code | opening =>
      rw [visible_cons_of_shows rfl, codeOf_cons, codeOf_cons, ih]
    | literal | comment =>
      rw [visible_cons_of_silent rfl, codeOf_cons, ih]
      rfl

theorem isSome_lastOpening (column : Nat) (marks : List Mark) :
    (lastOpening column marks).isSome = (visible marks).any (·.role = .opening) := by
  induction marks generalizing column with
  | nil => rfl
  | cons mark marks ih =>
    have hrest := ih (column + 1)
    obtain ⟨c, role⟩ := mark
    rw [lastOpening]
    cases hlast : lastOpening (column + 1) marks with
    | some found =>
      rw [hlast] at hrest
      cases role <;> simp_all [visible, Role.shows]
    | none =>
      rw [hlast] at hrest
      cases role <;> simp_all [visible, Role.shows]

theorem trackBrackets_visible (line : Nat) (marks : List Mark) :
    ∀ (column column' : Nat) {stack stack' : List Bracket},
      stack.map (·.onLine) = stack'.map (·.onLine) →
      (trackBrackets line column stack marks).1.map (·.onLine)
          = (trackBrackets line column' stack' (visible marks)).1.map (·.onLine)
        ∧ (trackBrackets line column stack marks).2.map (·.remark)
          = (trackBrackets line column' stack' (visible marks)).2.map (·.remark) := by
  induction marks with
  | nil => exact fun _ _ _ _ h => ⟨h, rfl⟩
  | cons mark marks ih =>
    intro column column' stack stack' h
    obtain ⟨c, role⟩ := mark
    cases role with
    | literal | comment =>
      rw [visible_cons_of_silent rfl, trackBrackets]
      exact ih _ _ h
    | opening =>
      rw [visible_cons_of_shows rfl, trackBrackets, trackBrackets]
      exact ih _ _ h
    | code =>
      rw [visible_cons_of_shows rfl, trackBrackets, trackBrackets]
      simp only [ne_eq, not_true_eq_false, if_false]
      split_ifs with hopen
      · exact ih _ _ (by rw [List.map_cons, List.map_cons, h]; rfl)
      have hrest := ih (column + 1) (column' + 1) h
      cases hcloser : openerOf? c with
      | none => exact hrest
      | some opener =>
        cases stack with
        | nil =>
          cases stack' with
          | nil => exact ⟨hrest.1, congrArg (_ :: ·) hrest.2⟩
          | cons top' below' => cases h
        | cons top below =>
          cases stack' with
          | nil => cases h
          | cons top' below' =>
            obtain ⟨htop, hbelow⟩ := List.cons.inj h
            have hchar : top.char = top'.char := congrArg Prod.fst htop
            simp only [hchar]
            split_ifs
            · exact ih _ _ hbelow
            · exact ⟨hrest.1, congrArg (_ :: ·) hrest.2⟩

theorem trackBrackets_of_visible (line : Nat) {marks marks' : List Mark}
    (hmarks : visible marks = visible marks') {stack stack' : List Bracket}
    (h : stack.map (·.onLine) = stack'.map (·.onLine)) :
    (trackBrackets line 0 stack marks).1.map (·.onLine)
        = (trackBrackets line 0 stack' marks').1.map (·.onLine)
      ∧ (trackBrackets line 0 stack marks).2.map (·.remark)
        = (trackBrackets line 0 stack' marks').2.map (·.remark) := by
  obtain ⟨hstack, hfound⟩ := trackBrackets_visible line marks 0 0 h
  obtain ⟨hstack', hfound'⟩ := trackBrackets_visible line marks' 0 0 (rfl : stack'.map _ = _)
  rw [hstack, hfound, hstack', hfound', hmarks]
  exact ⟨rfl, rfl⟩

theorem openAfter_of_visible (line : Nat) {marks marks' : List Mark}
    (hmarks : visible marks = visible marks') {before before' : Option OpenLiteral}
    (h : before.map (·.onLine) = before'.map (·.onLine)) (last : Mode) :
    (openAfter line marks before last).map (·.onLine)
      = (openAfter line marks' before' last).map (·.onLine) := by
  have hopening : (lastOpening 0 marks).isSome = (lastOpening 0 marks').isSome := by
    rw [isSome_lastOpening, isSome_lastOpening, hmarks]
  cases last with
  | long q =>
    rw [openAfter, openAfter]
    cases hfirst : lastOpening 0 marks with
    | none =>
      rw [hfirst, Option.isSome_none] at hopening
      have hnone : lastOpening 0 marks' = none := by simpa using hopening
      rw [hnone]
      exact h
    | some column =>
      rw [hfirst] at hopening
      obtain ⟨column', hcolumn'⟩ := Option.isSome_iff_exists.1 hopening.symm
      rw [hcolumn']
      rfl
  | _ => rfl

theorem shortLiteralProblem_alike (line : Nat) {text text' : Text} (marks marks' : List Mark)
    {last : Mode} (h : ∀ q, last = .short q → text.getLast? = text'.getLast?) :
    (shortLiteralProblem line text marks last).map (·.remark)
      = (shortLiteralProblem line text' marks' last).map (·.remark) := by
  cases last with
  | short q =>
    rw [shortLiteralProblem, shortLiteralProblem, h q rfl]
    split_ifs <;> rfl
  | _ => rfl

/-! ## The column of a line -/

theorem takeWhile_expandTabsFrom (column : Nat) (line : Text) :
    (Text.expandTabsFrom column line).takeWhile (· = ' ')
      = Text.expandTabsFrom column (leadOf line) := by
  induction line generalizing column with
  | nil => rfl
  | cons c line ih =>
    rw [leadOf_cons]
    by_cases htab : c = '\t'
    · subst htab
      rw [if_pos (.inr rfl), Text.expandTabsFrom, Text.expandTabsFrom, if_pos rfl, if_pos rfl,
        List.takeWhile_append_of_pos (by simp [Text.spaces]), ih]
    by_cases hspace : c = ' '
    · subst hspace
      simp [Text.expandTabsFrom, ih]
    · have hstop : (Text.expandTabsFrom column (c :: line)).takeWhile (· = ' ') = [] := by
        rw [Text.expandTabsFrom, if_neg htab]
        split_ifs <;> simp [hspace]
      rw [hstop, if_neg (by simp [htab, hspace])]
      rfl

theorem indentation_of_leadOf {a b : Text} (h : leadOf a = leadOf b) :
    Text.indentation a = Text.indentation b := by
  rw [Text.indentation, Text.indentation, Text.expandTabs, Text.expandTabs,
    takeWhile_expandTabsFrom, takeWhile_expandTabsFrom, h]

/-! ## Line after line -/

theorem SameLines.feed {p p' : Pending} (h : SameLines p p') {i : Nat} (hsound : p.Sound i)
    {a b : Text} (hline : LineAlike (startMode p.reader.literal) a b) :
    SameLines (p.feed i a).1 (p'.feed i b).1 ∧ SameRemarks (p.feed i a).2 (p'.feed i b).2 := by
  rw [feed_eq_feedMarks, feed_eq_feedMarks, ← h.mode]
  obtain ⟨hbrackets, hunmatched⟩ := trackBrackets_of_visible i hline.shown h.brackets
  have hliteral := openAfter_of_visible i hline.shown h.literal
    (lex (startMode p.reader.literal) a).2
  have hproblem := shortLiteralProblem_alike i (lex (startMode p.reader.literal) a).1
    (lex (startMode p.reader.literal) b).1 hline.ending
  have hcode : codeOf (lex (startMode p.reader.literal) a).1
      = codeOf (lex (startMode p.reader.literal) b).1 := by
    rw [← codeOf_visible, hline.shown, codeOf_visible]
  have hcurrent (code : Text) : extend i (Text.indentation a) code p.current
      = extend i (Text.indentation b) code p'.current := by
    rw [← h.current]
    cases hd : p.current with
    | some d => rfl
    | none =>
      have hnone : p.reader.literal = none := by simpa [hd] using hsound.literal
      have hlead := hline.lead (by rw [hnone]; rfl)
      rw [indentation_of_leadOf hlead]
  have hnone : (openAfter i (lex (startMode p.reader.literal) a).1 p.literal
        (lex (startMode p.reader.literal) a).2).isNone
      = (openAfter i (lex (startMode p.reader.literal) b).1 p'.literal
        (lex (startMode p.reader.literal) a).2).isNone := by
    rw [← Option.isNone_map (f := (·.onLine)), hliteral, Option.isNone_map]
  simp only [Pending.feedMarks, ← hline.last]
  simp only [hcode, hcurrent, hnone, SameLines.isEmpty_brackets hbrackets]
  refine ⟨⟨hliteral, hbrackets, rfl⟩, ⟨rfl, ?_⟩⟩
  rw [List.map_append, List.map_append, hunmatched, hproblem]

theorem SameLines.finish {p p' : Pending} (h : SameLines p p') : SameRemarks p.finish p'.finish := by
  constructor
  · rw [Pending.finish, Pending.finish, h.current]
  · have hliteral (o : Option OpenLiteral) :
        (o.toList.map fun literal => unterminated literal.line literal.column).map (·.remark)
          = (o.map (·.onLine)).toList.map fun place => (place.2, (unterminated 0 0).message) := by
      cases o <;> rfl
    have hbrackets (stack : List Bracket) :
        (stack.reverse.map fun bracket => Diagnostic.remark
            { line := bracket.line, column := bracket.column,
              message := aboutChar "Unclosed" bracket.char })
          = (stack.map (·.onLine)).reverse.map fun place =>
            (place.2, aboutChar "Unclosed" place.1) := by
      rw [← List.map_reverse, List.map_map]
      rfl
    simp only [Pending.finish, List.map_append, hliteral, List.map_map, Function.comp_def,
      hbrackets, h.literal, h.brackets]

theorem LinesAlike.scanFrom {mode : Mode} {as bs : List Text} (h : LinesAlike mode as bs) :
    ∀ {p p' : Pending} {i : Nat}, mode = startMode p.reader.literal → SameLines p p' → p.Sound i →
      SameRemarks (scanFrom p i as) (scanFrom p' i bs) := by
  induction h with
  | nil => exact fun _ hsame _ => hsame.finish
  | cons hline _ ih =>
    rintro p p' i rfl hsame hsound
    obtain ⟨hnext, hfound⟩ := hsame.feed hsound hline
    rw [scanFrom_cons, scanFrom_cons]
    refine hfound.append (ih ?_ hnext (hsound.feed _))
    rw [(feed_reader p i _).1, Reader.feed_eq, startMode_openQuote, Reader.lastMode]

theorem Rewritten.scan {a b : Text} (h : Rewritten a b) : SameRemarks (scan a) (scan b) :=
  h.lines.scanFrom rfl ⟨rfl, rfl, rfl⟩ ⟨by simp [Pending.reader], by simp⟩

end Indented

end SourceLens
