import SourceLens.Proofs.Indented.AtRest
import SourceLens.Proofs.Indented.Formatting

/-!
# The literals of a text

The characters of a text have the roles that reading its lines gives them, and a line feed belongs to
the literal that is open where its line ends. A string literal is an opening character with the
literal characters behind it (`literals`). No literal character stands behind one that belongs to no
literal (`connected_lineMarks`), so the literals can be read off the characters of literals alone
(`literalTexts_inLiterals`). Widening a line, moving it to another column and cutting blanks at its
end change those characters at tabs only (`inLiterals_shifted`).
-/

namespace SourceLens.Indented

open Text (Widens)

/-! ## Literals -/

/-- The characters of lines in their roles, each line with a line feed before it, where a literal
with the given quote may be open at the start. -/
def lineMarks : Option Char → List Text → List Mark
  | _, [] => []
  | literal, text :: rest =>
    ⟨'\n', if literal.isSome then .literal else .code⟩
      :: ((lex (startMode literal) text).1
        ++ lineMarks (openQuote (lex (startMode literal) text).2) rest)

def marksOf (text : Text) : List Mark := (lineMarks none (Text.lines text)).tail

/-- The literals among characters: the openings, each with the literal characters behind it. -/
def literalTexts : List Mark → List Text
  | [] => []
  | mark :: rest =>
    if mark.role = .opening then
      (mark.char :: (rest.takeWhile (·.role = .literal)).map (·.char)) :: literalTexts rest
    else literalTexts rest

/-- The string literals of a text, quotes included, in order. -/
def literals (text : Text) : List Text := literalTexts (marksOf text)

theorem map_char_lex (mode : Mode) (text : Text) : (lex mode text).1.map (·.char) = text := by
  induction text generalizing mode with
  | nil => rfl
  | cons c text ih => rw [lex_cons, List.map_cons, ih]

theorem literals_eq (text : Text) : literals text = literalTexts (lineMarks none (Text.lines text)) := by
  obtain ⟨line, more, hlines⟩ := List.exists_cons_of_ne_nil (Text.lines_ne_nil text)
  rw [literals, marksOf, hlines]
  rfl

/-! ## Characters of literals stand together -/

def Mark.inLiteral (mark : Mark) : Bool := mark.role = .opening || mark.role = .literal

def inLiterals (marks : List Mark) : List Mark := marks.filter Mark.inLiteral

def Mode.inside : Mode → Bool
  | .code | .comment => false
  | _ => true

/-- Every literal character stands behind a character of a literal; `inside` tells whether one stands
in front of all. -/
def Connected : Bool → List Mark → Prop
  | _, [] => True
  | inside, mark :: rest => (mark.role = .literal → inside = true) ∧ Connected mark.inLiteral rest

theorem Connected.mono {inside inside' : Bool} (hle : inside = true → inside' = true)
    {marks : List Mark} (h : Connected inside marks) : Connected inside' marks := by
  cases marks with
  | nil => trivial
  | cons mark rest => exact ⟨hle ∘ h.1, h.2⟩

/-- A literal character needs a literal to be in, and what goes on after a character is the literal
that it belongs to. -/
theorem inside_advance (mode : Mode) (c : Char) (rest : Text) :
    ((advance mode c rest).1 = .literal → mode.inside = true)
      ∧ ((advance mode c rest).2.inside = true
        → (Mark.mk c (advance mode c rest).1).inLiteral = true) := by
  cases mode with
  | comment => exact ⟨by simp [advance], by simp [advance, Mode.inside]⟩
  | openingQuotes q left => cases left <;> exact ⟨fun _ => rfl, fun _ => rfl⟩
  | closingQuotes left => cases left <;> exact ⟨fun _ => rfl, fun _ => rfl⟩
  | escaped q => exact ⟨fun _ => rfl, fun _ => rfl⟩
  | code =>
    simp only [advance]
    split_ifs <;> exact ⟨by simp, by simp [Mode.inside, Mark.inLiteral]⟩
  | short q | long q =>
    refine ⟨fun _ => rfl, ?_⟩
    simp only [advance]
    split_ifs <;> exact fun _ => rfl

theorem Connected.lex_append (text : Text) :
    ∀ {mode : Mode} {rest : List Mark}, Connected (lex mode text).2.inside rest →
      Connected mode.inside ((lex mode text).1 ++ rest) := by
  induction text with
  | nil => exact fun h => h
  | cons c text ih =>
    intro mode rest h
    obtain ⟨hrole, hgoes⟩ := inside_advance mode c text
    exact ⟨hrole, (ih h).mono hgoes⟩

theorem connected_lex (mode : Mode) (text : Text) : Connected mode.inside (lex mode text).1 := by
  have h := @Connected.lex_append text mode [] trivial
  rwa [List.append_nil] at h

theorem inside_startMode (literal : Option Char) : (startMode literal).inside = literal.isSome := by
  cases literal <;> rfl

theorem connected_lineMarks (literal : Option Char) (lines : List Text) :
    Connected literal.isSome (lineMarks literal lines) := by
  induction lines generalizing literal with
  | nil => trivial
  | cons text rest ih =>
    have hopen : (openQuote (lex (startMode literal) text).2).isSome = true
        → (lex (startMode literal) text).2.inside = true := by
      cases (lex (startMode literal) text).2 <;> simp [openQuote, Mode.inside]
    have hline := Connected.lex_append text ((ih _).mono hopen)
    rw [inside_startMode] at hline
    cases literal with
    | none => exact ⟨by simp, hline⟩
    | some q => exact ⟨fun _ => rfl, hline⟩

theorem inLiterals_eq_nil {marks : List Mark} (h : Connected false marks)
    (hopening : ∀ mark ∈ marks, mark.role ≠ .opening) : inLiterals marks = [] := by
  induction marks with
  | nil => rfl
  | cons mark rest ih =>
    obtain ⟨hmark, hrest⟩ := List.forall_mem_cons.1 hopening
    have hout : mark.inLiteral = false := by
      have hliteral : mark.role ≠ .literal := fun hrole => by simpa using h.1 hrole
      simp [Mark.inLiteral, hmark, hliteral]
    rw [inLiterals, List.filter_cons_of_neg (by simp [hout]), ← inLiterals]
    exact ih (hout ▸ h.2) hrest

theorem takeWhile_inLiterals {inside : Bool} {marks : List Mark} (h : Connected inside marks) :
    (inLiterals marks).takeWhile (·.role = .literal) = marks.takeWhile (·.role = .literal) := by
  induction marks generalizing inside with
  | nil => rfl
  | cons mark rest ih =>
    have hrest := ih h.2
    by_cases hliteral : mark.role = .literal
    · have hin : mark.inLiteral = true := by simp [Mark.inLiteral, hliteral]
      rw [inLiterals, List.filter_cons_of_pos hin, ← inLiterals]
      simp [hliteral, hrest]
    · rw [List.takeWhile_cons_of_neg (by simpa using hliteral)]
      by_cases hin : mark.inLiteral = true
      · rw [inLiterals, List.filter_cons_of_pos hin,
          List.takeWhile_cons_of_neg (by simpa using hliteral)]
      · rw [inLiterals, List.filter_cons_of_neg hin, ← inLiterals, hrest]
        cases rest with
        | nil => rfl
        | cons next more =>
          have hnext : next.role ≠ .literal := fun hrole => hin (h.2.1 hrole)
          exact List.takeWhile_cons_of_neg (by simpa using hnext)

theorem literalTexts_inLiterals {inside : Bool} {marks : List Mark} (h : Connected inside marks) :
    literalTexts (inLiterals marks) = literalTexts marks := by
  induction marks generalizing inside with
  | nil => rfl
  | cons mark rest ih =>
    have hrest := ih h.2
    by_cases hopening : mark.role = .opening
    · have hin : mark.inLiteral = true := by simp [Mark.inLiteral, hopening]
      rw [inLiterals, List.filter_cons_of_pos hin, ← inLiterals, literalTexts, literalTexts,
        if_pos hopening, if_pos hopening, takeWhile_inLiterals h.2, hrest]
    · rw [literalTexts, if_neg hopening, ← hrest]
      by_cases hin : mark.inLiteral = true
      · rw [inLiterals, List.filter_cons_of_pos hin, literalTexts, if_neg hopening, inLiterals]
      · rw [inLiterals, List.filter_cons_of_neg hin, inLiterals]

theorem literals_eq_inLiterals (text : Text) :
    literals text = literalTexts (inLiterals (lineMarks none (Text.lines text))) := by
  rw [literals_eq, literalTexts_inLiterals (connected_lineMarks none (Text.lines text))]

theorem flatten_literalTexts {marks : List Mark} (h : Connected false marks) :
    (literalTexts marks).flatten = (inLiterals marks).map (·.char) := by
  have hall : ∀ marks : List Mark, (∀ mark ∈ marks, mark.inLiteral = true) →
      (marks.takeWhile (·.role = .literal)).map (·.char) ++ (literalTexts marks).flatten
        = marks.map (·.char) := by
    intro marks hmarks
    induction marks with
    | nil => rfl
    | cons mark rest ih =>
      obtain ⟨hmark, hrest⟩ := List.forall_mem_cons.1 hmarks
      have hcover := ih hrest
      by_cases hopening : mark.role = .opening
      · simpa [literalTexts, hopening] using hcover
      · have hliteral : mark.role = .literal := by simpa [Mark.inLiteral, hopening] using hmark
        simpa [literalTexts, hliteral] using hcover
  have hstart : (inLiterals marks).takeWhile (·.role = .literal) = [] := by
    rw [takeWhile_inLiterals h]
    cases marks with
    | nil => rfl
    | cons mark rest =>
      have hmark : mark.role ≠ .literal := fun hrole => by simpa using h.1 hrole
      exact List.takeWhile_cons_of_neg (by simpa using hmark)
  have hcover := hall (inLiterals marks) fun mark hmark => (List.mem_filter.1 hmark).2
  rw [hstart] at hcover
  rw [← literalTexts_inLiterals h]
  exact hcover

/-! ## Widening literals -/

theorem inLiterals_append (a b : List Mark) : inLiterals (a ++ b) = inLiterals a ++ inLiterals b :=
  List.filter_append ..

theorem inLiterals_map_literal (u : Text) :
    inLiterals (u.map fun c => ⟨c, .literal⟩) = u.map fun c => ⟨c, .literal⟩ := by
  simp [inLiterals, Mark.inLiteral]

theorem inLiterals_map_outside {role : Role} (h : role = .code ∨ role = .comment) (u : Text) :
    inLiterals (u.map fun c => ⟨c, role⟩) = [] := by
  rcases h with rfl | rfl <;> simp [inLiterals, Mark.inLiteral]

theorem MarksWiden.append {a b x y : List Mark} (h : MarksWiden a b) (hx : MarksWiden x y) :
    MarksWiden (a ++ x) (b ++ y) := by
  induction h with
  | nil => exact hx
  | keep mark _ ih => exact ih.keep mark
  | tab hrole n _ ih =>
    rw [List.append_assoc]
    exact ih.tab hrole n

theorem MarksWiden.refl (marks : List Mark) : MarksWiden marks marks := by
  induction marks with
  | nil => exact .nil
  | cons mark marks ih => exact ih.keep mark

theorem MarksWiden.inLiterals {a b : List Mark} (h : MarksWiden a b) :
    MarksWiden (inLiterals a) (inLiterals b) := by
  induction h with
  | nil => exact .nil
  | keep mark _ ih =>
    rw [Indented.inLiterals, Indented.inLiterals, List.filter_cons, List.filter_cons]
    split_ifs
    · exact ih.keep mark
    · exact ih
  | @tab role hrole n a b _ ih =>
    have hcons : Indented.inLiterals (⟨'\t', role⟩ :: a)
        = Indented.inLiterals (['\t'].map fun c => ⟨c, role⟩) ++ Indented.inLiterals a :=
      inLiterals_append [⟨'\t', role⟩] a
    rw [hcons, inLiterals_append]
    cases role with
    | opening => exact absurd rfl hrole
    | literal =>
      rw [inLiterals_map_literal, inLiterals_map_literal]
      exact ih.tab hrole n
    | code | comment =>
      rw [inLiterals_map_outside (by simp), inLiterals_map_outside (by simp)]
      exact ih

theorem MarksWiden.length_le {a b : List Mark} (h : MarksWiden a b) : a.length ≤ b.length := by
  induction h with
  | nil => exact le_rfl
  | keep mark _ ih => exact Nat.succ_le_succ ih
  | tab hrole n _ ih =>
    rw [List.length_cons, List.length_append, List.length_map, Text.spaces, List.length_replicate]
    omega

theorem MarksWiden.eq_of_no_tab {a b : List Mark} (h : MarksWiden a b)
    (htab : ∀ mark ∈ a, mark.char ≠ '\t') : a = b := by
  induction h with
  | nil => rfl
  | keep mark _ ih => rw [ih (List.forall_mem_cons.1 htab).2]
  | tab hrole n _ ih => exact absurd rfl (List.forall_mem_cons.1 htab).1

theorem MarksWiden.takeWhile {a b : List Mark} (h : MarksWiden a b) :
    Widens ((a.takeWhile (·.role = .literal)).map (·.char))
      ((b.takeWhile (·.role = .literal)).map (·.char)) := by
  induction h with
  | nil => exact .nil
  | keep mark _ ih =>
    by_cases hliteral : mark.role = .literal
    · simpa [hliteral] using ih.keep mark.char
    · simpa [hliteral] using Widens.nil
  | @tab role hrole n a b _ ih =>
    by_cases hliteral : role = .literal
    · rw [List.takeWhile_append_of_pos (by simp [hliteral])]
      simpa [hliteral, Function.comp_def] using ih.tab n
    · rw [Text.spaces, List.replicate_succ]
      simpa [hliteral] using Widens.nil

theorem MarksWiden.literalTexts {a b : List Mark} (h : MarksWiden a b) :
    List.Forall₂ Widens (literalTexts a) (literalTexts b) := by
  induction h with
  | nil => exact .nil
  | keep mark hrest ih =>
    rw [Indented.literalTexts, Indented.literalTexts]
    split_ifs
    · exact .cons (hrest.takeWhile.keep mark.char) ih
    · exact ih
  | @tab role hrole n a b _ ih =>
    have hspaces : Indented.literalTexts ((Text.spaces (n + 1)).map (fun c => ⟨c, role⟩) ++ b)
        = Indented.literalTexts b := by
      generalize Text.spaces (n + 1) = u
      induction u with
      | nil => rfl
      | cons c u ihu =>
        rw [List.map_cons, List.cons_append, Indented.literalTexts, if_neg hrole, ihu]
    rw [hspaces, Indented.literalTexts, if_neg hrole]
    exact ih

/-! ## Moving a line -/

theorem inLiterals_blank_append {u : Text} (hu : Text.allBlank u = true) (text : Text) :
    inLiterals (lex .code (u ++ text)).1 = inLiterals (lex .code text).1 := by
  rw [lex_blank_append .code rfl (fun _ => trivial) hu, inLiterals_append,
    inLiterals_map_outside (.inl rfl), List.nil_append]

theorem inLiterals_trimStart (text : Text) :
    inLiterals (lex .code (Text.trimStart text)).1 = inLiterals (lex .code text).1 := by
  obtain ⟨u, hu, htext⟩ := Text.trimStart_spec text
  conv_rhs => rw [htext, inLiterals_blank_append hu]

theorem inLiterals_trimEnd {text : Text} (hwell : endsWell text (lex .code text).2 = true)
    (hquote : openQuote (lex .code text).2 = none) :
    inLiterals (lex .code (Text.trimEnd text)).1 = inLiterals (lex .code text).1 := by
  obtain ⟨⟨role, v, hrole, -, hmarks⟩, -⟩ := lex_trimEnd hwell hquote
  rw [hmarks, inLiterals_append, inLiterals_map_outside hrole, List.append_nil]

theorem inLiterals_body {line : PhysicalLine}
    (hend : line.endsInLiteral = (openQuote (lex .code line.text).2).isSome)
    (hwell : endsWell line.text (lex .code line.text).2 = true) :
    MarksWiden (inLiterals (lex .code line.text).1) (inLiterals (lex .code line.body).1) := by
  have hwiden := Widens.expandTabs line.text
  have hstart : ReadAlike .code line.text (Text.trimStart (Text.expandTabs line.text)) := by
    simpa [Text.spaces] using (ReadAlike.widens hwiden hwell).indent 0
  have hmarks := (@lex_marksWiden _ _ hwiden .code trivial).2.inLiterals
  rw [← inLiterals_trimStart (Text.expandTabs line.text)] at hmarks
  rw [PhysicalLine.body]
  split_ifs with hopen
  · exact hmarks
  · have hquote : openQuote (lex .code line.text).2 = none := by simpa [hend] using hopen
    rwa [Text.trim, inLiterals_trimEnd hstart.well (hstart.quote.trans hquote)]

/-- So does a line that is shifted with its statement. -/
theorem inLiterals_shifted {width level : Nat} {entry : LogicalLine} (line : PhysicalLine)
    (hstart : line.startsInLiteral = false)
    (hend : line.endsInLiteral = (openQuote (lex .code line.text).2).isSome)
    (hwell : endsWell line.text (lex .code line.text).2 = true) :
    MarksWiden (inLiterals (lex .code line.text).1)
      (inLiterals (lex .code (shifted width entry level line)).1) := by
  have hbody := inLiterals_body hend hwell
  rw [shifted_eq hstart]
  split_ifs with hempty
  · rwa [List.isEmpty_iff.1 hempty] at hbody
  · rwa [inLiterals_blank_append (Text.allBlank_spaces _)]

theorem tab_not_mem_shifted {width level : Nat} {entry : LogicalLine} {line : PhysicalLine}
    (hstart : line.startsInLiteral = false) : '\t' ∉ shifted width entry level line := by
  rw [shifted_eq hstart]
  split_ifs
  · simp
  · simp [Text.spaces, tab_not_mem_body line]

end SourceLens.Indented
