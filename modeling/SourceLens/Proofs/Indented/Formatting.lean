import SourceLens.Proofs.Indented.Headers
import SourceLens.Proofs.Indented.Levels
import SourceLens.Proofs.Text.Lines

/-!
# Formatting keeps the program

The lines of a formatted text are rendered lines, spaced out. They hold the words of their sources
(`RendersLine.words_eq`), so no line with content is lost, and reading them restates every logical
line at the column of its depth. Together with what widening does to headers and moving does to
depths, the formatted text has no problem if the text has none, and the same statements in the same
blocks (`format_keeps_program`).
-/

namespace SourceLens.Indented

open Text (Widens)

/-! ## The content of lines -/

/-- The lines that hold more than blanks, each with its runs of blanks made one space and its ends
trimmed. -/
def content (lines : List Text) : List Text :=
  (lines.filter (! Text.allBlank ·)).map Text.collapse

/-- The content of the lines of a text. -/
def contentLines (text : Text) : List Text := content (Text.lines text)

theorem content_append (a b : List Text) : content (a ++ b) = content a ++ content b := by
  simp [content]

theorem content_blank {lines : List Text} (h : ∀ line ∈ lines, Text.allBlank line = true) :
    content lines = [] := by
  simpa [content] using h

theorem content_congr {a b : List Text} (h : a.map Text.words = b.map Text.words) :
    content a = content b := by
  have hwords (lines : List Text) :
      content lines = ((lines.map Text.words).filter (! ·.isEmpty)).map (Text.join [' ']) := by
    have hblank (line : Text) : (! Text.allBlank line) = ! (Text.words line).isEmpty := by
      rw [Bool.not_inj_iff, Bool.eq_iff_iff, List.isEmpty_iff, Text.words_eq_nil]
    simp only [content, List.filter_map, List.map_map, hblank]
    rfl
  rw [hwords, hwords, h]

theorem content_spaceOut (lines : List Rendered) :
    ∀ (pending : Nat) (above : Option Text),
      content (spaceOut pending above lines) = content (lines.map (·.text)) := by
  induction lines with
  | nil => exact fun _ _ => rfl
  | cons line rest ih =>
    intro pending above
    have hfirst (later : List Text) :
        content (line.text :: later) = content [line.text] ++ content later :=
      content_append [line.text] later
    rw [spaceOut, List.map_cons, hfirst]
    split_ifs with hblank
    · rw [Bool.and_eq_true] at hblank
      have hnone : content [line.text] = [] := content_blank (by simpa using hblank.1)
      rw [ih, hnone, List.nil_append]
    · rw [content_append, hfirst, ih, content_blank (by simp [Text.allBlank]), List.nil_append]

/-! ## Rendered lines hold the words of their sources -/

theorem words_body (line : PhysicalLine) : Text.words line.body = Text.words line.text := by
  rw [(Widens.expandTabs line.text).words_eq, PhysicalLine.body]
  split_ifs
  · exact Text.words_trimStart _
  · exact Text.words_trim _

theorem RendersLine.words_eq {width : Nat} {owner : Option Placed} {i : Nat} {line : PhysicalLine}
    {rendered : Rendered} (h : RendersLine width owner i line rendered) :
    Text.words rendered.text = Text.words line.text := by
  have hmoved (n : Nat) (body : Text) :
      Text.words (if body.isEmpty then [] else Text.spaces n ++ body) = Text.words body := by
    split_ifs with hempty
    · rw [List.isEmpty_iff.1 hempty]
    · exact Text.words_blank_append (Text.allBlank_spaces n) body
  obtain ⟨-, h⟩ := h
  cases owner with
  | none =>
    obtain ⟨-, column, htext⟩ := h
    rw [htext, hmoved, Text.words_trim]
  | some owner =>
    obtain ⟨htext, -⟩ := h
    rw [htext]
    cases hstart : line.startsInLiteral with
    | true => rw [shifted, if_pos hstart]
    | false => rw [shifted_eq hstart, hmoved, words_body]

theorem Renders.words_eq {width : Nat} {placed : List Placed} {lines : List PhysicalLine} :
    ∀ {i : Nat} {rendered : List Rendered}, Renders width placed i lines rendered →
      (rendered.map (·.text)).map Text.words = (lines.map (·.text)).map Text.words := by
  induction lines with
  | nil =>
    intro i rendered h
    obtain rfl : rendered = [] := h
    rfl
  | cons line rest ih =>
    rintro i rendered ⟨first, more, rfl, hfirst, hmore⟩
    simp only [List.map_cons, hfirst.words_eq, ih hmore]

theorem physical_text (pending : Pending) (i : Nat) (texts : List Text) :
    (scanFrom pending i texts).physical.map (·.text) = texts := by
  induction texts generalizing pending i with
  | nil => rfl
  | cons text rest ih =>
    rw [scanFrom_cons, Scan.append, feed_physical, List.map_append, ih]
    rfl

/-! ## The lines of the output -/

theorem newline_widens {a b : Text} (h : Widens a b) : '\n' ∈ a ↔ '\n' ∈ b := by
  have hfilter := h.filter_eq (· == '\n') (by decide) (by decide)
  have hmem (text : Text) : '\n' ∈ text ↔ text.filter (· == '\n') ≠ [] := by simp
  rw [hmem, hmem, hfilter]

theorem RendersLine.newline_not_mem {width : Nat} {owner : Option Placed} {i : Nat}
    {line : PhysicalLine} {rendered : Rendered} (h : RendersLine width owner i line rendered)
    (hline : '\n' ∉ line.text) : '\n' ∉ rendered.text := by
  have hmoved (n : Nat) {body : Text} (hbody : '\n' ∉ body) :
      '\n' ∉ if body.isEmpty then [] else Text.spaces n ++ body := by
    split_ifs <;> simp [Text.spaces, hbody]
  obtain ⟨-, h⟩ := h
  cases owner with
  | none =>
    obtain ⟨-, column, htext⟩ := h
    rw [htext]
    exact hmoved column (mt Text.mem_trim hline)
  | some owner =>
    obtain ⟨htext, -⟩ := h
    rw [htext]
    cases hstart : line.startsInLiteral with
    | true => rwa [shifted, if_pos hstart]
    | false =>
      have hexpand : '\n' ∉ Text.expandTabs line.text :=
        mt (newline_widens (Widens.expandTabs line.text)).2 hline
      rw [shifted_eq hstart]
      apply hmoved
      rw [PhysicalLine.body]
      split_ifs
      · exact mt Text.mem_trimStart hexpand
      · exact mt Text.mem_trim hexpand

theorem Renders.newline_not_mem {width : Nat} {placed : List Placed} {lines : List PhysicalLine} :
    ∀ {i : Nat} {rendered : List Rendered}, Renders width placed i lines rendered →
      (∀ line ∈ lines, '\n' ∉ line.text) → ∀ line ∈ rendered, '\n' ∉ line.text := by
  induction lines with
  | nil =>
    intro i rendered h _
    obtain rfl : rendered = [] := h
    simp
  | cons line rest ih =>
    rintro i rendered ⟨first, more, rfl, hfirst, hmore⟩ hlines
    obtain ⟨hline, hrest⟩ := List.forall_mem_cons.1 hlines
    exact List.forall_mem_cons.2 ⟨hfirst.newline_not_mem hline, ih hmore hrest⟩

theorem mem_spaceOut {text : Text} (lines : List Rendered) :
    ∀ {pending : Nat} {above : Option Text}, text ∈ spaceOut pending above lines →
      text = [] ∨ ∃ line ∈ lines, text = line.text := by
  induction lines with
  | nil => simp [spaceOut]
  | cons line rest ih =>
    intro pending above h
    have hlater {pending above} (h : text ∈ spaceOut pending above rest) :
        text = [] ∨ ∃ other ∈ line :: rest, text = other.text := by
      obtain rfl | ⟨other, hother, rfl⟩ := ih h
      · exact .inl rfl
      · exact .inr ⟨other, List.mem_cons_of_mem _ hother, rfl⟩
    rw [spaceOut] at h
    split_ifs at h
    · exact hlater h
    · rcases List.mem_append.1 h with h | h
      · exact .inl (List.eq_of_mem_replicate h)
      · rcases List.mem_cons.1 h with rfl | h
        · exact .inr ⟨line, List.mem_cons_self, rfl⟩
        · exact hlater h

/-- The lines of joined lines, with or without a line feed at the end, are those lines, perhaps with
an empty one after them. -/
theorem lines_output {output : List Text} (h : ∀ line ∈ output, '\n' ∉ line) (ends : Bool) :
    ∃ tail, (tail = [] ∨ tail = [[]]) ∧
      Text.lines (Text.unlines output ++ if ends && !output.isEmpty then ['\n'] else [])
        = output ++ tail := by
  by_cases hempty : output = []
  · exact ⟨[[]], .inr rfl, by simp [hempty]; rfl⟩
  · have hlines := Text.lines_unlines hempty h
    cases ends with
    | false => exact ⟨[], .inl rfl, by simpa using hlines⟩
    | true =>
      refine ⟨[[]], .inr rfl, ?_⟩
      have hnot : (true && !output.isEmpty) = true := by simp [hempty]
      rw [if_pos hnot, Text.lines_append, hlines]
      rfl

/-! ## The formatted text -/

/-- The logical lines of a text and their depths. -/
def placedLines (text : Text) : List Placed :=
  (scan text).logical.zip (levels (scan text).logical).1

/-- The lines of a text where formatting moves them. -/
def renderedLines (width : Nat) (text : Text) : List Rendered :=
  (renderLines width (placedLines text) 0 (scan text).physical).1

theorem placedLines_logical (text : Text) : (placedLines text).map (·.1) = (scan text).logical :=
  List.map_fst_zip (by rw [levels, length_levelsFrom])

theorem renders_renderedLines (width : Nat) (text : Text) :
    Renders width (placedLines text) 0 (scan text).physical (renderedLines width text) :=
  renders_renderLines ..

theorem lines_format {text : Text} (hfine : diagnose text = []) (width : Nat) :
    ∃ tail, (tail = [] ∨ tail = [[]]) ∧
      Text.lines (format width text) = spaceOut 0 none (renderedLines width text) ++ tail := by
  have hsources : ∀ line ∈ (scan text).physical, '\n' ∉ line.text := by
    intro line hline
    have hmem : line.text ∈ Text.lines text := by
      rw [← physical_text {} 0 (Text.lines text)]
      exact List.mem_map_of_mem hline
    exact Text.newline_not_mem_lines hmem
  have hrendered := (renders_renderedLines width text).newline_not_mem hsources
  rw [format, if_pos (by simp [hfine])]
  apply lines_output
  intro line hline
  obtain rfl | ⟨source, hsource, rfl⟩ := mem_spaceOut _ hline
  · simp
  · exact hrendered source hsource

theorem scan_format {text : Text} (hfine : diagnose text = []) (width : Nat) :
    List.Forall₂ (fun placed entry => Restated width placed entry.statement) (placedLines text)
        (scan (format width text)).logical
      ∧ (scan (format width text)).diagnostics = [] := by
  obtain ⟨-, hscan, -⟩ := diagnose_eq_nil.1 hfine
  obtain ⟨tail, htail, hlines⟩ := lines_format hfine width
  obtain ⟨hrestated, hclosed, hspace⟩ := run_rendered (Text.lines text)
    (placedLines_logical text) hscan (List.forall_mem_nil _) (renders_renderedLines width text)
    ⟨rfl, rfl, trivial⟩ sound_start
  have hspaced := run_spaceOut htail (renderedLines width text) {} 0 none (by simp) (by simp) hspace
  obtain ⟨hlogical, hdiagnostics⟩ := scanFrom_run {} 0 (Text.lines (format width text))
  have hempty : ({} : Pending).reader = {} := rfl
  rw [hlines, hempty, hspaced] at hlogical hdiagnostics
  rw [← hlines, ← scan] at hlogical hdiagnostics
  refine ⟨?_, List.isEmpty_iff.1 (hdiagnostics.trans hclosed)⟩
  rw [← List.forall₂_map_right_iff, hlogical]
  exact hrestated

theorem forall_mem_of_forall₂ {α β : Type} {r : α → β → Prop} {holds : β → Prop} {a : List α}
    {b : List β} (h : List.Forall₂ r a b) (hr : ∀ x ∈ a, ∀ y, r x y → holds y) :
    ∀ y ∈ b, holds y := by
  induction h with
  | nil => simp
  | @cons x y a b hxy _ ih =>
    obtain ⟨hx, ha⟩ := List.forall_mem_cons.1 hr
    exact List.forall_mem_cons.2 ⟨hx y hxy, ih ha⟩

theorem contentLines_format {text : Text} (hfine : diagnose text = []) (width : Nat) :
    contentLines (format width text) = contentLines text := by
  obtain ⟨tail, htail, hlines⟩ := lines_format hfine width
  have hblank : content tail = [] := by
    rcases htail with rfl | rfl <;> rfl
  have hsources : (scan text).physical.map (·.text) = Text.lines text := physical_text ..
  rw [contentLines, hlines, content_append, content_spaceOut, hblank, List.append_nil,
    contentLines, ← hsources]
  exact content_congr (renders_renderedLines width text).words_eq

/-- Formatting a text without problems with a positive width gives a text without problems that has
the same logical lines, at the same depths and with the same code up to the width of blanks, and the
same lines with content, in the same order. -/
theorem format_keeps_program {width : Nat} (hwidth : 1 ≤ width) {text : Text}
    (hfine : diagnose text = []) :
    diagnose (format width text) = []
      ∧ (levels (scan (format width text)).logical).1 = (levels (scan text).logical).1
      ∧ (scan (format width text)).logical.map (Text.collapse ·.code)
        = (scan text).logical.map (Text.collapse ·.code)
      ∧ contentLines (format width text) = contentLines text := by
  obtain ⟨hlevels, -, hheaders⟩ := diagnose_eq_nil.1 hfine
  obtain ⟨hrestated, hdiagnostics⟩ := scan_format hfine width
  have hdepths : levels (scan (format width text)).logical = ((levels (scan text).logical).1, []) :=
    levelsFrom_restated hwidth _ (by simp) rfl hlevels hrestated
  refine ⟨diagnose_eq_nil.2 ⟨by rw [hdepths], hdiagnostics, ?_⟩, by rw [hdepths], ?_,
    contentLines_format hfine width⟩
  · refine forall_mem_of_forall₂ hrestated fun placed hplaced entry hentry => ?_
    have hmem : placed.1 ∈ (scan text).logical := by
      rw [← placedLines_logical]
      exact List.mem_map_of_mem hplaced
    exact headerProblem_widens hentry.2 (hheaders _ hmem)
  · symm
    rw [← placedLines_logical, List.map_map, ← List.forall₂_eq_eq_eq, List.forall₂_map_left_iff,
      List.forall₂_map_right_iff]
    exact hrestated.imp fun placed entry hentry => hentry.2.collapse_eq

/-- A source with tabs, a call over two lines, a literal over two lines, a comment out of its column
and too many blank lines. -/
def looseSource : Text :=
  "def f(a,\n\tb):\n   if a:\n\tg(a,\n\t  b)  \n# c\n\n\n\n   s = \"\"\"x\n\ty\"\"\"\nf(1, 2)\n".toList

theorem format_keeps_program_loose :
    1 ≤ 2 ∧ diagnose looseSource = [] ∧ format 2 looseSource ≠ looseSource
      ∧ diagnose (format 2 looseSource) = []
      ∧ (levels (scan (format 2 looseSource)).logical).1 = (levels (scan looseSource).logical).1
      ∧ (scan (format 2 looseSource)).logical.map (Text.collapse ·.code)
        = (scan looseSource).logical.map (Text.collapse ·.code)
      ∧ contentLines (format 2 looseSource) = contentLines looseSource := by
  have hfine : diagnose looseSource = [] := by decide +kernel
  exact ⟨by decide, hfine, by decide +kernel, format_keeps_program (by decide) hfine⟩

end SourceLens.Indented
