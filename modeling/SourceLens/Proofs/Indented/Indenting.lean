import SourceLens.Indented.Edit
import SourceLens.Proofs.Indented.Brackets
import SourceLens.Proofs.Indented.Headers
import SourceLens.Proofs.Indented.Imports
import SourceLens.Proofs.Indented.Suites
import SourceLens.Proofs.Text.Lines

/-!
# Indented texts

Indenting a text without tabs moves its logical lines and nothing else. A line further in is read
like the line (`indentLine_readIn`), inside a literal too, where the blanks become part of the
literal. So a scan of indented lines, wherever they stand, yields the logical lines moved down and in
(`scanFrom_indented`). Their depths grow by the number of blocks around them, and their indentation
has a problem exactly if it had one (`levelsFrom_moved`). A text under a header has no problem if
neither has one and the text has a statement (`IsHeader.diagnose_under`).
-/

namespace SourceLens.Indented

def indentLine (width : Nat) (line : Text) : Text :=
  if Text.allBlank line then [] else Text.spaces width ++ line

theorem lines_indent (width : Nat) (text : Text) :
    Text.lines (Text.indent width text) = (Text.lines text).map (indentLine width) := by
  refine Text.lines_unlines (by simpa using Text.lines_ne_nil text) fun line hline => ?_
  obtain ⟨source, hsource, rfl⟩ := List.mem_map.1 hline
  have hnewline := Text.newline_not_mem_lines hsource
  split_ifs
  · simp
  · simp [Text.spaces, hnewline]

/-- A logical line `down` lines further down and `width` columns further in. -/
def LogicalLine.moved (down width : Nat) (entry : LogicalLine) : LogicalLine :=
  { line := entry.line + down
    stop := entry.stop + down
    indent := entry.indent + width
    code := entry.code }

/-! ## One line -/

/-- The second line is read like the first one, and a statement that starts on it starts `width`
columns further in. -/
structure ReadIn (width : Nat) (mode : Mode) (a b : Text) : Prop where
  quote : openQuote (lex mode b).2 = openQuote (lex mode a).2
  well : endsWell b (lex mode b).2 = endsWell a (lex mode a).2
  track : ∀ stack, trackChars stack (codeOf (lex mode b).1) = trackChars stack (codeOf (lex mode a).1)
  piece : joinable (codeOf (lex mode b).1) = joinable (codeOf (lex mode a).1)
  column : (joinable (codeOf (lex mode a).1)).1 ≠ [] →
    Text.indentation b = Text.indentation a + width

theorem lex_blank {literal : Option Char} (hquote : ∀ q ∈ literal, isQuote q = true) {u : Text}
    (hu : Text.allBlank u = true) (text : Text) :
    (lex (startMode literal) (u ++ text)).2 = (lex (startMode literal) text).2
      ∧ ∃ v, Text.allBlank v = true ∧ codeOf (lex (startMode literal) (u ++ text)).1
        = v ++ codeOf (lex (startMode literal) text).1 := by
  cases literal with
  | none =>
    obtain ⟨hcode, hlast⟩ := lex_code_blank_append hu text
    exact ⟨hlast, u, hu, hcode⟩
  | some q =>
    have hlex := lex_blank_append (.long q) rfl (fun _ => hquote q rfl) hu text
    rw [startMode, hlex]
    refine ⟨rfl, [], rfl, ?_⟩
    rw [codeOf_append, codeOf_map_silent (.inl rfl)]

theorem joinable_blank_append {u : Text} (hu : Text.allBlank u = true) (code : Text) :
    joinable (u ++ code) = joinable code := by
  have htrim := Text.trim_append hu (v := []) rfl code
  rw [List.append_nil] at htrim
  rw [joinable, joinable, htrim]

theorem trackChars_blank_append {u : Text} (hu : Text.allBlank u = true) (stack : List Char)
    (code : Text) : trackChars stack (u ++ code) = trackChars stack code := by
  rw [trackChars_append, trackChars_blank hu]
  simp

theorem indentation_of_no_tab {text : Text} (htab : '\t' ∉ text) :
    Text.indentation text = (text.takeWhile (· = ' ')).length := by
  rw [Text.indentation, Text.expandTabs, expandTabsFrom_of_not_mem htab]

/-- A line further in is read like the line. -/
theorem indentLine_readIn {literal : Option Char} (hquote : ∀ q ∈ literal, isQuote q = true)
    {text : Text} (htab : '\t' ∉ text) (width : Nat) :
    ReadIn width (startMode literal) text (indentLine width text) := by
  rw [indentLine]
  split_ifs with hblank
  · -- a line of blanks has no code, inside a literal or outside
    obtain ⟨hlast, v, hv, hcode⟩ := lex_blank hquote hblank []
    rw [List.append_nil] at hlast hcode
    refine ⟨by rw [hlast], ?_, fun stack => ?_, ?_, fun hpiece => ?_⟩
    · rw [hlast]
      cases literal <;> rfl
    · rw [hcode, trackChars_blank_append hv]
    · rw [hcode, joinable_blank_append hv]
    · rw [hcode, joinable_blank_append hv] at hpiece
      exact absurd rfl hpiece
  · obtain ⟨hlast, v, hv, hcode⟩ := lex_blank hquote (Text.allBlank_spaces width) text
    refine ⟨by rw [hlast], ?_, fun stack => ?_, ?_, fun _ => ?_⟩
    · rw [hlast]
      have hne : text ≠ [] := by
        rintro rfl
        exact hblank rfl
      cases (lex (startMode literal) text).2 with
      | short q => rw [endsWell, endsWell, List.getLast?_append_of_ne_nil _ hne]
      | _ => rfl
    · rw [hcode, trackChars_blank_append hv]
    · rw [hcode, joinable_blank_append hv]
    · have htab' : '\t' ∉ Text.spaces width ++ text := by simp [Text.spaces, htab]
      rw [indentation_of_no_tab htab', indentation_of_no_tab htab,
        List.takeWhile_append_of_pos (by simp [Text.spaces]), List.length_append, Text.spaces,
        List.length_replicate, Nat.add_comm]

/-! ## All lines -/

/-- What is open further down and further in: the same literal, the same brackets, and the logical
line under way, moved. -/
structure Pending.Moved (down width : Nat) (pending pending' : Pending) : Prop where
  literal : pending'.reader.literal = pending.reader.literal
  brackets : pending'.reader.brackets = pending.reader.brackets
  current : pending'.current = pending.current.map (LogicalLine.moved down width)

section

variable {down width : Nat} {pending pending' : Pending} {i : Nat} {text text' : Text}

theorem Pending.Moved.completes (h : pending.Moved down width pending')
    (hline : ReadIn width (startMode pending.reader.literal) text text') :
    pending'.reader.completes text' = pending.reader.completes text := by
  simp only [Reader.completes, Reader.codeIn, Reader.lastMode, h.literal, h.brackets, hline.track,
    hline.quote, hline.piece]

theorem Pending.Moved.underway (h : pending.Moved down width pending')
    (hline : ReadIn width (startMode pending.reader.literal) text text') :
    pending'.underway (i + down) text'
      = (pending.underway i text).map (LogicalLine.moved down width) := by
  have hpiece : joinable (pending'.reader.codeIn text') = joinable (pending.reader.codeIn text) := by
    rw [Reader.codeIn, Reader.codeIn, h.literal, hline.piece]
  rw [Pending.underway, Pending.underway, hpiece, h.current]
  cases pending.current with
  | some c => rfl
  | none =>
    rw [Option.map_none, extend, extend]
    split_ifs with hempty
    · rfl
    · rw [hline.column (by simpa [Reader.codeIn] using hempty)]
      rfl

theorem Pending.Moved.feed (h : pending.Moved down width pending')
    (hline : ReadIn width (startMode pending.reader.literal) text text') :
    (pending.feed i text).1.Moved down width (pending'.feed (i + down) text').1
      ∧ (pending'.feed (i + down) text').2.logical
        = (pending.feed i text).2.logical.map (LogicalLine.moved down width)
      ∧ (pending'.feed (i + down) text').2.diagnostics.isEmpty
        = (pending.feed i text).2.diagnostics.isEmpty := by
  obtain ⟨hnext, hfound⟩ := feed_logical pending i text
  obtain ⟨hnext', hfound'⟩ := feed_logical pending' (i + down) text'
  obtain ⟨hreader, -, hfine⟩ := feed_reader pending i text
  obtain ⟨hreader', -, hfine'⟩ := feed_reader pending' (i + down) text'
  rw [h.completes hline, h.underway hline] at hnext' hfound'
  refine ⟨⟨?_, ?_, ?_⟩, ?_, ?_⟩
  · rw [hreader, hreader', Reader.feed_eq, Reader.feed_eq, Reader.lastMode, Reader.lastMode,
      h.literal, hline.quote]
  · rw [hreader, hreader', Reader.feed_eq, Reader.feed_eq, Reader.codeIn, Reader.codeIn, h.literal,
      h.brackets, hline.track]
  · rw [hnext, hnext']
    split_ifs <;> rfl
  · rw [hfound, hfound']
    split_ifs
    · cases pending.underway i text <;> rfl
    · rfl
  · rw [hfine, hfine', Reader.feed_eq, Reader.feed_eq, Reader.codeIn, Reader.codeIn, Reader.lastMode,
      Reader.lastMode, h.literal, h.brackets, hline.track, hline.well]

end

/-- What a scan of indented lines yields, wherever they stand. -/
theorem scanFrom_indented {down width : Nat} (texts : List Text) :
    ∀ {pending pending' : Pending} {i : Nat}, pending.Moved down width pending' →
      (∀ q ∈ pending.reader.literal, isQuote q = true) → (∀ text ∈ texts, '\t' ∉ text) →
      (scanFrom pending' (i + down) (texts.map (indentLine width))).logical
          = (scanFrom pending i texts).logical.map (LogicalLine.moved down width)
        ∧ (scanFrom pending' (i + down) (texts.map (indentLine width))).diagnostics.isEmpty
          = (scanFrom pending i texts).diagnostics.isEmpty := by
  induction texts with
  | nil =>
    intro pending pending' i h _ _
    have hopen := (finish_reader pending).2
    have hopen' := (finish_reader pending').2
    rw [Reader.finish, h.literal, h.brackets] at hopen'
    refine ⟨?_, hopen'.trans hopen.symm⟩
    have hcurrent := h.current
    simp only [List.map_nil, scanFrom, Pending.finish, hcurrent]
    cases pending.current <;> rfl
  | cons text rest ih =>
    intro pending pending' i h hquote htabs
    obtain ⟨htab, htabs⟩ := List.forall_mem_cons.1 htabs
    obtain ⟨hnext, hlogical, hfine⟩ := h.feed (i := i) (indentLine_readIn hquote htab width)
    have hquote' : ∀ q ∈ (pending.feed i text).1.reader.literal, isQuote q = true := by
      rw [(feed_reader pending i text).1]
      exact isQuote_openQuote (fits_startMode hquote text)
    obtain ⟨hlater, hlaterFine⟩ := ih (i := i + 1) hnext hquote' htabs
    rw [Nat.add_right_comm] at hlater hlaterFine
    rw [List.map_cons, scanFrom_cons, scanFrom_cons]
    simp only [Scan.append, isEmpty_append, List.map_append, hlogical, hfine, hlater, hlaterFine,
      and_self]

/-! ## Depths under open blocks -/

theorem innermost_moved {stack : List Nat} (hne : stack ≠ []) (width : Nat) (below : List Nat) :
    innermost (stack.map (· + width) ++ below) = innermost stack + width := by
  obtain ⟨top, more, rfl⟩ := List.exists_cons_of_ne_nil hne
  rfl

theorem dropWhile_moved {stack : List Nat} (hzero : 0 ∈ stack) (column width : Nat)
    (below : List Nat) :
    (stack.map (· + width) ++ below).dropWhile (column + width < ·)
      = (stack.dropWhile (column < ·)).map (· + width) ++ below := by
  induction stack with
  | nil => simp at hzero
  | cons top more ih =>
    rw [List.map_cons, List.cons_append]
    by_cases htop : column < top
    · rw [List.dropWhile_cons_of_pos (by simpa using htop),
        List.dropWhile_cons_of_pos (by simpa using htop)]
      exact ih ((List.mem_cons.1 hzero).resolve_left (by omega))
    · rw [List.dropWhile_cons_of_neg (by simpa using htop),
        List.dropWhile_cons_of_neg (by simpa using htop)]
      rfl

theorem place_moved {stack : List Nat} (hstack : Inward stack) (expectBlock : Bool)
    (entry : LogicalLine) (down width : Nat) (below : List Nat) :
    (place (stack.map (· + width) ++ below) expectBlock (entry.moved down width)).1
        = (place stack expectBlock entry).1.map (· + width) ++ below
      ∧ ((place (stack.map (· + width) ++ below) expectBlock (entry.moved down width)).2 = []
        ↔ (place stack expectBlock entry).2 = []) := by
  have hindent : (entry.moved down width).indent = entry.indent + width := rfl
  have hopen := innermost_moved hstack.ne_nil width below
  have hclosed := dropWhile_moved hstack.zero_mem entry.indent width below
  have hleft := innermost_moved (hstack.dropWhile entry.indent).ne_nil width below
  simp only [place, hindent, hopen, hclosed, hleft, Nat.add_lt_add_iff_right, ne_eq,
    Nat.add_right_cancel_iff]
  split_ifs <;> simp

/-- The indentation of a text that is moved under open blocks has a problem exactly if it had one,
and the depths grow by the number of those blocks. -/
theorem levelsFrom_moved {down width : Nat} (below : List Nat) (logical : List LogicalLine) :
    ∀ {stack : List Nat} {before : Option LogicalLine}, Inward stack →
      (levelsFrom (stack.map (· + width) ++ below) (before.map (LogicalLine.moved down width))
          (logical.map (LogicalLine.moved down width))).1
          = (levelsFrom stack before logical).1.map (· + below.length)
        ∧ ((levelsFrom (stack.map (· + width) ++ below) (before.map (LogicalLine.moved down width))
          (logical.map (LogicalLine.moved down width))).2 = []
          ↔ (levelsFrom stack before logical).2 = []) := by
  have hopens (before : Option LogicalLine) :
      (before.map (LogicalLine.moved down width)).any opensBlock = before.any opensBlock := by
    cases before <;> rfl
  induction logical with
  | nil =>
    intro stack before _
    obtain ⟨hlevels, hend⟩ := levelsFrom_nil stack before
    obtain ⟨hlevels', hend'⟩ := levelsFrom_nil (stack.map (· + width) ++ below)
      (before.map (LogicalLine.moved down width))
    rw [hopens] at hend'
    exact ⟨by rw [List.map_nil, hlevels, hlevels', List.map_nil], hend'.trans hend.symm⟩
  | cons entry rest ih =>
    intro stack before hstack
    obtain ⟨hplace, hfine⟩ := place_moved hstack (before.any opensBlock) entry down width below
    have hnext := hstack.place (before.any opensBlock) entry
    obtain ⟨hlevels, hlater⟩ := @ih _ (some entry) hnext
    have hpos := List.length_pos_iff.2 hnext.ne_nil
    rw [List.map_cons, levelsFrom_cons, levelsFrom_cons, hopens, hplace]
    refine ⟨?_, ?_⟩
    · rw [List.map_cons, List.length_append, List.length_map]
      exact List.cons_eq_cons.2 ⟨by omega, hlevels⟩
    · simp only [List.append_eq_nil_iff]
      exact and_congr hfine hlater

/-! ## Statements on one line -/

/-- Code that is a statement of its own on any line: it has no literal and no comment, closes the
brackets that it opens, and neither ends in a backslash nor has blanks at its ends. -/
structure Standalone (code : Text) : Prop where
  bare : ∀ c ∈ code, isQuote c = false ∧ c ≠ '#'
  newline : '\n' ∉ code
  ne_nil : code ≠ []
  trimmed : Text.trim code = code
  balanced : trackChars [] code = ([], true)
  unjoined : code.getLast? ≠ some '\\'

theorem Standalone.head {code : Text} (h : Standalone code) :
    ∃ c rest, code = c :: rest ∧ isBlank c = false := by
  obtain ⟨c, rest, hcode⟩ := List.exists_cons_of_ne_nil h.ne_nil
  exact ⟨c, rest, hcode, Text.isBlank_head_trim (h.trimmed.trans hcode)⟩

theorem Standalone.joinable_eq {code : Text} (h : Standalone code) :
    joinable code = (code, false) := by
  rw [joinable, h.trimmed, if_neg h.unjoined]

theorem Standalone.feed {code : Text} (h : Standalone code) (column line : Nat) :
    (({} : Pending).feed line (Text.spaces column ++ code)).1 = {}
      ∧ (({} : Pending).feed line (Text.spaces column ++ code)).2.logical
        = [{ line, stop := line, indent := column, code }]
      ∧ (({} : Pending).feed line (Text.spaces column ++ code)).2.diagnostics = [] := by
  set text := Text.spaces column ++ code with htext
  have hblank := Text.allBlank_spaces column
  have hbare : ∀ c ∈ text, isQuote c = false ∧ c ≠ '#' :=
    List.forall_mem_append.2 ⟨fun c hc => by simp [List.eq_of_mem_replicate hc, isQuote], h.bare⟩
  obtain ⟨hcode, hlast⟩ := lex_bare hbare
  have hcodeIn : ({} : Pending).reader.codeIn text = text := hcode
  have hlastMode : ({} : Pending).reader.lastMode text = .code := hlast
  have htrack : trackChars [] text = ([], true) := by rw [trackChars_blank_append hblank, h.balanced]
  have hjoin : joinable text = (code, false) := by
    rw [joinable_blank_append hblank, h.joinable_eq]
  obtain ⟨c, rest, hstart, hc⟩ := h.head
  have hcolumn : Text.indentation text = column := indentation_spaces_append hstart hc
  have hcomplete : ({} : Pending).reader.completes text = true := by
    rw [Reader.completes, hcodeIn, hlastMode, hjoin]
    simp [Pending.reader, htrack, openQuote]
  have hunderway : ({} : Pending).underway line text
      = some { line, stop := line, indent := column, code } := by
    rw [Pending.underway, hcodeIn, hjoin, hcolumn, extend, if_neg (by simpa using h.ne_nil)]
  obtain ⟨-, hfound⟩ := feed_logical {} line text
  obtain ⟨hreader, -, hfine⟩ := feed_reader {} line text
  rw [if_pos hcomplete, hunderway] at hfound
  refine ⟨Pending.eq_start_of_reader ?_, hfound, ?_⟩
  · rw [hreader, Reader.feed_idle_of_completes hcomplete]
  · rw [← List.isEmpty_iff, hfine, Reader.feed_eq, hcodeIn, hlastMode]
    simp [Pending.reader, htrack, endsWell]

/-! ## Texts under a header -/

/-- A line at the left margin that is all code, closes the brackets that it opens, opens a block and
has no problem as the header of a definition. -/
structure IsHeader (header : Text) : Prop where
  bare : ∀ c ∈ header, isQuote c = false ∧ c ≠ '#'
  newline : '\n' ∉ header
  margin : header.head?.any isBlank = false
  balanced : trackChars [] header = ([], true)
  opens : header.getLast? = some ':'
  fine : ∀ entry : LogicalLine, entry.code = header → headerProblem entry = none

def under (header : Text) (width : Nat) (text : Text) : Text :=
  header ++ '\n' :: Text.indent width text

theorem lines_under {header : Text} (hheader : '\n' ∉ header) (width : Nat) (text : Text) :
    Text.lines (under header width text) = header :: (Text.lines text).map (indentLine width) := by
  have hfirst : Text.lines header = [header] := Text.splitOn_of_not_mem hheader
  rw [under, Text.lines_append, hfirst, lines_indent]
  rfl

/-- The logical line of a header on the first line. -/
def headerEntry (header : Text) : LogicalLine := { line := 0, stop := 0, indent := 0, code := header }

section

variable {header : Text} (hheader : IsHeader header)

include hheader

theorem IsHeader.standalone : Standalone header := by
  obtain ⟨c, rest, hstart⟩ : ∃ c rest, header = c :: rest := by
    refine List.exists_cons_of_ne_nil ?_
    rintro rfl
    simpa using hheader.opens
  have hc : isBlank c = false := by simpa [hstart] using hheader.margin
  refine ⟨hheader.bare, hheader.newline, by simp [hstart], ?_, hheader.balanced, ?_⟩
  · rw [Text.trim, Text.trimStart_of_head hstart hc,
      Text.trimEnd_of_getLast hheader.opens (by decide)]
  · rw [hheader.opens]
    decide

theorem IsHeader.scan_under {text : Text} (htab : '\t' ∉ text) (width : Nat) :
    (scan (under header width text)).logical
        = headerEntry header :: (scan text).logical.map (LogicalLine.moved 1 width)
      ∧ ((scan (under header width text)).diagnostics = [] ↔ (scan text).diagnostics = []) := by
  have hfeed := hheader.standalone.feed 0 0
  rw [Text.spaces, List.replicate_zero, List.nil_append] at hfeed
  obtain ⟨hidle, hlogical, hfine⟩ := hfeed
  have hmoved : ({} : Pending).Moved 1 width (({} : Pending).feed 0 header).1 := by
    rw [hidle]
    exact ⟨rfl, rfl, rfl⟩
  have htabs : ∀ line ∈ Text.lines text, '\t' ∉ line := fun line hline hmem =>
    htab ((Text.infix_of_mem_lines hline).subset hmem)
  obtain ⟨hlater, hlaterFine⟩ := scanFrom_indented (Text.lines text) (i := 0) hmoved
    (by simp [Pending.reader]) htabs
  rw [scan, lines_under hheader.newline, scanFrom_cons]
  simp only [Scan.append, hlogical, hfine, List.nil_append]
  refine ⟨congrArg (headerEntry header :: ·) hlater, ?_⟩
  rw [← List.isEmpty_iff, hlaterFine, List.isEmpty_iff, scan]

theorem IsHeader.levels_under {logical : List LogicalLine} (hfine : (levels logical).2 = [])
    {width : Nat} (hwidth : 1 ≤ width) (down : Nat) :
    (levels (headerEntry header :: logical.map (LogicalLine.moved down width))).2 = []
      ↔ logical ≠ [] := by
  have hopens : opensBlock (headerEntry header) = true := decide_eq_true hheader.opens
  have hfirst : place [0] false (headerEntry header) = ([0], []) := rfl
  rw [levels, levelsFrom_cons, Option.any_none, hfirst, List.nil_append]
  cases logical with
  | nil => simp [levelsFrom, hopens]
  | cons entry rest =>
    rw [levels, levelsFrom_cons, Option.any_none] at hfine
    simp only [List.append_eq_nil_iff] at hfine
    obtain ⟨hplace, hlater⟩ := hfine
    -- the first statement stands at the margin of the text, which the header moves in
    obtain ⟨-, hexpect, -⟩ | ⟨hmargin, -, hclosed⟩ := place_of_fine hplace
    · simp at hexpect
    have hzero : entry.indent = 0 := Nat.le_zero.1 hmargin
    have hstack : (place [0] false entry).1 = [0] := by rw [hclosed, hzero]; rfl
    have hopened : place [0] true (entry.moved down width) = ([0].map (· + width) ++ [0], []) := by
      have hindent : (entry.moved down width).indent = width := by
        simp [LogicalLine.moved, hzero]
      have hdeep : innermost [0] < width := hwidth
      rw [place, hindent, if_pos hdeep]
      simp
    rw [hstack] at hlater
    have hmoved := (@levelsFrom_moved down width [0] rest [0] (some entry)
      ⟨List.pairwise_singleton _ _, rfl⟩).2
    rw [List.map_cons, levelsFrom_cons, Option.any_some, hopens, hopened]
    simpa using hmoved.2 hlater

theorem IsHeader.diagnose_under {text : Text} (hfine : diagnose text = []) (htab : '\t' ∉ text)
    {width : Nat} (hwidth : 1 ≤ width) :
    diagnose (under header width text) = [] ↔ (scan text).logical ≠ [] := by
  obtain ⟨hlevels, hscan, hproblems⟩ := diagnose_eq_nil.1 hfine
  obtain ⟨hlogical, hdiagnostics⟩ := hheader.scan_under htab width
  have hheaders : ∀ entry ∈ headerEntry header :: (scan text).logical.map (LogicalLine.moved 1 width),
      headerProblem entry = none := by
    refine List.forall_mem_cons.2 ⟨hheader.fine _ rfl, fun entry hentry => ?_⟩
    obtain ⟨source, hsource, rfl⟩ := List.mem_map.1 hentry
    have hsound := headerProblem_eq_none.1 (hproblems source hsource)
    exact headerProblem_eq_none.2 hsound
  rw [diagnose_eq_nil, hlogical, hdiagnostics, hheader.levels_under hlevels hwidth]
  exact ⟨And.left, fun hne => ⟨hne, hscan, hheaders⟩⟩

end

end SourceLens.Indented
