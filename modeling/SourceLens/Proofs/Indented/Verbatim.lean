import SourceLens.Proofs.Indented.Literals
import SourceLens.Proofs.Indented.Stability

/-!
# Literals under formatting

A rendered line that starts inside a literal is its source, and any other one has the literals of
its source with spaces for tabs (`RendersLine.carries`). The lines of a text carry the literal that
is open from one to the next (`carries_rendered`), and spacing them out puts blank lines in and takes
them out where no literal is open (`Carries.inLiterals_spaceOut`). So formatting keeps every literal,
tabs apart, and keeps the literals as they are exactly if no line that starts outside a literal has a
tab inside one (`literals_format_iff`).
-/

namespace SourceLens.Indented

open Text (Widens)

/-! ## One line -/

/-- What a rendered line has of the literals of its source, where a literal with the given quote may
be open before it. -/
structure LineCarries (literal : Option Char) (rendered : Rendered) : Prop where
  quote : openQuote (lex (startMode literal) rendered.text).2
    = openQuote (lex (startMode literal) rendered.source.text).2
  verbatim : literal.isSome = true → rendered.text = rendered.source.text
  widened : literal = none → MarksWiden (inLiterals (lex .code rendered.source.text).1)
    (inLiterals (lex .code rendered.text).1)
  tabless : literal = none → ∀ mark ∈ inLiterals (lex .code rendered.text).1, mark.char ≠ '\t'
  known : rendered.source.startsInLiteral = literal.isSome
  margin : rendered.startsTopLevel = true → literal = none

theorem inLiterals_of_joinable {text : Text} (h : (joinable (codeOf (lex .code text).1)).1 = []) :
    inLiterals (lex .code text).1 = [] :=
  inLiterals_eq_nil (connected_lex .code text) fun _ hmark hrole =>
    joinable_ne_nil_of_opening hmark hrole h

theorem mem_of_mem_inLiterals {mode : Mode} {text : Text} {mark : Mark}
    (h : mark ∈ inLiterals (lex mode text).1) : mark.char ∈ text := by
  have hmem := List.mem_map_of_mem (f := Mark.char) (List.mem_filter.1 h).1
  rwa [map_char_lex] at hmem

theorem RendersLine.carries {width : Nat} {done suffix : List Placed} {pending : Pending} {i : Nat}
    {text : Text} {rest : List Text} {rendered : Rendered}
    (hsuffix : suffix.map (·.1) = (scanFrom pending i (text :: rest)).logical)
    (hdone : ∀ p ∈ done, p.1.stop < i) (hsound : pending.Sound i)
    (hfine : (pending.reader.feed text).2.2 = true)
    (h : RendersLine width (covering (done ++ suffix) i) i
      { text
        startsInLiteral := pending.reader.literal.isSome
        endsInLiteral := (openQuote (pending.reader.lastMode text)).isSome } rendered) :
    LineCarries pending.reader.literal rendered := by
  have hline := h.follows hsuffix hdone hsound hfine
  have hwell : endsWell text (pending.reader.lastMode text) = true := by
    rw [Reader.feed_eq, Bool.and_eq_true] at hfine
    exact hfine.2
  have hmargin (htop : rendered.startsTopLevel = true) : pending.reader.literal = none := by
    simpa [hline.starts htop] using hsound.literal
  have htext := h.moved_or_shifted hsuffix hdone hsound
  obtain ⟨hsource, -⟩ := h
  have hsame : rendered.source.text = text := by rw [hsource]
  have hidle (hcode : pending.reader.literal = none) (hunderway : pending.underway i text = none) :
      inLiterals (lex .code text).1 = [] ∧ inLiterals (lex .code rendered.text).1 = [] := by
    obtain ⟨-, hpiece⟩ := underway_eq_none.1 hunderway
    have halike := hline.alike.code.joinable.1
    rw [Reader.codeIn] at hpiece
    rw [hcode, startMode] at hpiece halike
    exact ⟨inLiterals_of_joinable hpiece, inLiterals_of_joinable (halike.eq_nil_iff.1 hpiece)⟩
  refine ⟨hsame ▸ hline.alike.quote, ?_, ?_, ?_, hline.literal, hmargin⟩
  · intro hopen
    rcases htext with ⟨-, hcode, -⟩ | ⟨-, e, level, -, -, -, -, -, htext, -⟩
    · simp [hcode] at hopen
    · rw [htext, shifted, if_pos hopen, hsame]
  · intro hcode
    rw [hsame]
    rcases htext with ⟨hunderway, -, -⟩ | ⟨-, e, level, -, -, -, -, -, htext, -⟩
    · obtain ⟨hbefore, hafter⟩ := hidle hcode hunderway
      rw [hbefore, hafter]
      exact .nil
    · rw [Reader.lastMode, hcode] at hwell
      rw [htext, Reader.lastMode, hcode]
      exact inLiterals_shifted ⟨text, _, _⟩ rfl rfl hwell
  · intro hcode mark hmark htab
    rcases htext with ⟨hunderway, -, -⟩ | ⟨-, e, level, -, -, -, -, -, htext, -⟩
    · simp [(hidle hcode hunderway).2] at hmark
    · have hmem := mem_of_mem_inLiterals hmark
      rw [htab, htext] at hmem
      exact tab_not_mem_shifted (by simp [hcode]) hmem

theorem LineCarries.marks {literal : Option Char} {rendered : Rendered}
    (h : LineCarries literal rendered) :
    MarksWiden (inLiterals (lex (startMode literal) rendered.source.text).1)
      (inLiterals (lex (startMode literal) rendered.text).1) := by
  cases literal with
  | none => exact h.widened rfl
  | some q =>
    rw [h.verbatim rfl]
    exact .refl _

/-! ## All lines -/

/-- Lines that carry the literals of their sources, where a literal with the given quote may be open
before them and none is open after them. -/
inductive Carries : Option Char → List Rendered → Prop
  | nil : Carries none []
  | cons {literal : Option Char} {line : Rendered} {rest : List Rendered}
      (hline : LineCarries literal line)
      (hrest : Carries (openQuote (lex (startMode literal) line.source.text).2) rest) :
      Carries literal (line :: rest)

theorem carries_rendered {width : Nat} (texts : List Text) :
    ∀ {pending : Pending} {i : Nat} {done suffix : List Placed} {lines : List Rendered},
      suffix.map (·.1) = (scanFrom pending i texts).logical →
      (scanFrom pending i texts).diagnostics = [] →
      (∀ p ∈ done, p.1.stop < i) →
      Renders width (done ++ suffix) i (scanFrom pending i texts).physical lines →
      pending.Sound i → Carries pending.reader.literal lines := by
  induction texts with
  | nil =>
    intro pending i done suffix lines _ hdiagnostics _ hlines _
    obtain rfl : lines = [] := hlines
    have hclosed := (finish_reader pending).2
    rw [show pending.finish.diagnostics = [] from hdiagnostics] at hclosed
    simp only [Reader.finish, List.isEmpty_nil, Bool.true_eq, Bool.and_eq_true,
      Option.isNone_iff_eq_none] at hclosed
    rw [hclosed.1]
    exact .nil
  | cons text rest ih =>
    intro pending i done suffix lines hsuffix hdiagnostics hdone hlines hsound
    obtain ⟨hfine, hlater⟩ := fine_of_scanFrom_cons hdiagnostics
    rw [scanFrom_cons, Scan.append, feed_physical] at hlines
    obtain ⟨first, more, rfl, hfirst, hmore⟩ := hlines
    obtain ⟨complete, later, rfl, -, hlogical, hstops, -⟩ := split_suffix hsuffix
    rw [← List.append_assoc] at hmore
    have hrest := ih hlogical hlater (stops_above hdone hstops) hmore (hsound.feed text)
    rw [(feed_reader pending i text).1, Reader.feed_eq] at hrest
    refine .cons (hfirst.carries hsuffix hdone hsound hfine) ?_
    rw [hfirst.1]
    exact hrest

theorem inLiterals_lineMarks_cons (literal : Option Char) (text : Text) (rest : List Text) :
    inLiterals (lineMarks literal (text :: rest))
      = inLiterals [⟨'\n', if literal.isSome then .literal else .code⟩]
        ++ (inLiterals (lex (startMode literal) text).1
          ++ inLiterals (lineMarks (openQuote (lex (startMode literal) text).2) rest)) := by
  rw [← inLiterals_append, ← inLiterals_append]
  rfl

theorem Carries.marksWiden {literal : Option Char} {lines : List Rendered}
    (h : Carries literal lines) :
    MarksWiden (inLiterals (lineMarks literal (lines.map (·.source.text))))
      (inLiterals (lineMarks literal (lines.map (·.text)))) := by
  induction h with
  | nil => exact .nil
  | cons hline hrest ih =>
    rw [List.map_cons, List.map_cons, inLiterals_lineMarks_cons, inLiterals_lineMarks_cons,
      hline.quote]
    exact (MarksWiden.refl _).append (hline.marks.append ih)

/-! ## Spacing out -/

theorem inLiterals_lineMarks_blank {text : Text} (hblank : Text.allBlank text = true)
    (rest : List Text) :
    inLiterals (lineMarks none (text :: rest)) = inLiterals (lineMarks none rest) := by
  have hline : inLiterals (lex .code text).1 = [] := by
    have hmarks := inLiterals_blank_append hblank []
    rwa [List.append_nil] at hmarks
  rw [inLiterals_lineMarks_cons, startMode, hline, (lex_code_blank hblank).2]
  rfl

theorem inLiterals_lineMarks_blanks (n : Nat) (rest : List Text) :
    inLiterals (lineMarks none (List.replicate n [] ++ rest)) = inLiterals (lineMarks none rest) := by
  induction n with
  | zero => rfl
  | succ n ih => rw [List.replicate_succ, List.cons_append, inLiterals_lineMarks_blank rfl, ih]

theorem Carries.inLiterals_spaceOut {literal : Option Char} {lines : List Rendered}
    (h : Carries literal lines) {tail : List Text} (htail : tail = [] ∨ tail = [[]]) :
    ∀ (pending : Nat) (above : Option Text), (pending ≠ 0 → literal = none) →
      inLiterals (lineMarks literal (spaceOut pending above lines ++ tail))
        = inLiterals (lineMarks literal (lines.map (·.text))) := by
  induction h with
  | nil =>
    intro pending above _
    rcases htail with rfl | rfl <;> rfl
  | @cons literal line rest hline hrest ih =>
    intro pending above hpending
    rw [spaceOut]
    split_ifs with hblank
    · simp only [Bool.and_eq_true, Bool.not_eq_true', hline.known] at hblank
      obtain ⟨hblank, hoff⟩ := hblank
      obtain rfl : literal = none := by simpa using hoff
      have hclosed : openQuote (lex (startMode none) line.source.text).2 = none := by
        rw [← hline.quote, startMode, (lex_code_blank hblank).2]
        rfl
      have hlater := ih (pending + 1) above fun _ => hclosed
      rw [hclosed] at hlater
      rw [hlater, List.map_cons, inLiterals_lineMarks_blank hblank]
    · -- blank lines stand before the line only where no literal is open
      have hopen : blanksBefore pending above line ≠ 0 → literal = none := by
        intro hsome
        by_cases hzero : pending = 0
        · rw [hzero] at hsome
          exact hline.margin (blanksBefore_zero hsome)
        · exact hpending hzero
      have hskip (more : List Text) :
          inLiterals (lineMarks literal
              (List.replicate (blanksBefore pending above line) [] ++ more))
            = inLiterals (lineMarks literal more) := by
        by_cases hzero : blanksBefore pending above line = 0
        · rw [hzero]
          rfl
        · rw [hopen hzero, inLiterals_lineMarks_blanks]
      rw [List.append_assoc, hskip, List.cons_append, List.map_cons, inLiterals_lineMarks_cons,
        inLiterals_lineMarks_cons, hline.quote, ih 0 (some line.text) (by simp)]

/-! ## Tabs -/

/-- Whether a line that starts outside a literal has a tab inside one. -/
def PhysicalLine.hasLooseTab (line : PhysicalLine) : Bool :=
  !line.startsInLiteral && (inLiterals (lex .code line.text).1).any (·.char = '\t')

theorem Carries.eq_of_tabless {literal : Option Char} {lines : List Rendered}
    (h : Carries literal lines) (htabs : ∀ line ∈ lines, line.source.hasLooseTab = false) :
    inLiterals (lineMarks literal (lines.map (·.source.text)))
      = inLiterals (lineMarks literal (lines.map (·.text))) := by
  induction h with
  | nil => rfl
  | @cons literal line rest hline hrest ih =>
    obtain ⟨hhere, hlater⟩ := List.forall_mem_cons.1 htabs
    have hmarks : inLiterals (lex (startMode literal) line.source.text).1
        = inLiterals (lex (startMode literal) line.text).1 := by
      cases literal with
      | none =>
        refine (hline.widened rfl).eq_of_no_tab ?_
        simpa [PhysicalLine.hasLooseTab, hline.known] using hhere
      | some q => rw [hline.verbatim rfl]
    rw [List.map_cons, List.map_cons, inLiterals_lineMarks_cons, inLiterals_lineMarks_cons, hmarks,
      hline.quote, ih hlater]

theorem append_inj_of_length_le {α : Type} {a b x y : List α} (h : a ++ x = b ++ y)
    (hfront : a.length ≤ b.length) (hback : x.length ≤ y.length) : a = b ∧ x = y := by
  have hlength := congrArg List.length h
  rw [List.length_append, List.length_append] at hlength
  exact List.append_inj h (by omega)

theorem Carries.tabless_of_eq {literal : Option Char} {lines : List Rendered}
    (h : Carries literal lines)
    (heq : (inLiterals (lineMarks literal (lines.map (·.source.text)))).map (·.char)
      = (inLiterals (lineMarks literal (lines.map (·.text)))).map (·.char)) :
    ∀ line ∈ lines, line.source.hasLooseTab = false := by
  induction h with
  | nil => simp
  | @cons literal line rest hline hrest ih =>
    rw [List.map_cons, List.map_cons, inLiterals_lineMarks_cons, inLiterals_lineMarks_cons,
      hline.quote] at heq
    simp only [List.map_append, List.append_cancel_left_eq] at heq
    obtain ⟨hhere, hlater⟩ := append_inj_of_length_le heq
      (by simpa using hline.marks.length_le) (by simpa using hrest.marksWiden.length_le)
    refine List.forall_mem_cons.2 ⟨?_, ih hlater⟩
    cases literal with
    | some q => simp [PhysicalLine.hasLooseTab, hline.known]
    | none =>
      have hnone : ∀ mark ∈ inLiterals (lex .code line.source.text).1, mark.char ≠ '\t' := by
        intro mark hmark htab
        have hmem := List.mem_map_of_mem (f := Mark.char) hmark
        rw [startMode] at hhere
        rw [hhere] at hmem
        obtain ⟨other, hother, hsame⟩ := List.mem_map.1 hmem
        exact hline.tabless rfl other hother (hsame.trans htab)
      simpa [PhysicalLine.hasLooseTab, hline.known] using hnone

/-! ## The formatted text -/

theorem Renders.sources {width : Nat} {placed : List Placed} {lines : List PhysicalLine} :
    ∀ {i : Nat} {rendered : List Rendered}, Renders width placed i lines rendered →
      rendered.map (·.source) = lines := by
  induction lines with
  | nil =>
    intro i rendered h
    obtain rfl : rendered = [] := h
    rfl
  | cons line rest ih =>
    rintro i rendered ⟨first, more, rfl, hfirst, hmore⟩
    rw [List.map_cons, hfirst.1, ih hmore]

theorem sources_renderedLines (width : Nat) (text : Text) :
    (renderedLines width text).map (·.source) = (scan text).physical
      ∧ (renderedLines width text).map (·.source.text) = Text.lines text := by
  have hsources := (renders_renderedLines width text).sources
  refine ⟨hsources, ?_⟩
  rw [← physical_text {} 0 (Text.lines text), ← scan, ← hsources, List.map_map]
  rfl

/-- Formatting a text without problems keeps its string literals, in order, with some tabs replaced
by spaces, and keeps them as they are exactly if no line that starts outside a literal has a tab
inside one. -/
theorem literals_format_iff {text : Text} (hfine : diagnose text = []) (width : Nat) :
    List.Forall₂ Widens (literals text) (literals (format width text))
      ∧ (literals (format width text) = literals text
        ↔ ∀ line ∈ (scan text).physical, line.hasLooseTab = false) := by
  obtain ⟨-, hscan, -⟩ := diagnose_eq_nil.1 hfine
  have hcarries : Carries none (renderedLines width text) :=
    carries_rendered (Text.lines text) (placedLines_logical text) hscan (List.forall_mem_nil _)
      (renders_renderedLines width text) sound_start
  obtain ⟨hphysical, hsources⟩ := sources_renderedLines width text
  obtain ⟨tail, htail, hlines⟩ := lines_format hfine width
  have hspaced : inLiterals (lineMarks none (Text.lines (format width text)))
      = inLiterals (lineMarks none ((renderedLines width text).map (·.text))) := by
    rw [hlines]
    exact hcarries.inLiterals_spaceOut htail 0 none (by simp)
  have hwiden := hcarries.marksWiden
  rw [hsources, ← hspaced] at hwiden
  refine ⟨?_, fun hsame => ?_, fun htabs => ?_⟩
  · rw [literals_eq_inLiterals, literals_eq_inLiterals]
    exact hwiden.literalTexts
  · -- equal literals have equal characters, line by line
    have hchars := congrArg List.flatten hsame.symm
    rw [literals_eq, literals_eq, flatten_literalTexts (connected_lineMarks none _),
      flatten_literalTexts (connected_lineMarks none _), hspaced, ← hsources] at hchars
    intro line hline
    rw [← hphysical] at hline
    obtain ⟨rendered, hrendered, rfl⟩ := List.mem_map.1 hline
    exact hcarries.tabless_of_eq hchars rendered hrendered
  · have hkept := hcarries.eq_of_tabless fun line hline =>
      htabs line.source (hphysical ▸ List.mem_map_of_mem hline)
    rw [hsources, ← hspaced] at hkept
    rw [literals_eq_inLiterals, literals_eq_inLiterals, hkept]

/-- A tab inside a literal of one line, and two in one that goes over two lines. -/
def tabbedSource : Text := "s = 'a\tb'\nt = \"\"\"c\td\n\te\"\"\"\n".toList

theorem literals_format_iff_tabbed :
    diagnose tabbedSource = []
      ∧ List.Forall₂ Widens (literals tabbedSource) (literals (format 4 tabbedSource))
      ∧ (literals (format 4 tabbedSource) = literals tabbedSource
        ↔ ∀ line ∈ (scan tabbedSource).physical, line.hasLooseTab = false) := by
  have hfine : diagnose tabbedSource = [] := by decide +kernel
  exact ⟨hfine, literals_format_iff hfine 4⟩

/-- A tab inside a literal is not kept. -/
theorem format_expands_literal :
    diagnose "x = \"a\tb\"\n".toList = []
      ∧ literals "x = \"a\tb\"\n".toList = ["\"a\tb\"".toList]
      ∧ literals (format 4 "x = \"a\tb\"\n".toList) = ["\"a  b\"".toList] := by
  decide +kernel

end SourceLens.Indented
