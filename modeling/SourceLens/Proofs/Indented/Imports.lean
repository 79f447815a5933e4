import SourceLens.Descriptor.Catalogue
import SourceLens.Proofs.Indented.Rendering
import SourceLens.Proofs.Pattern.Lines
import SourceLens.Indented.Edit

/-!
# What lines import

The import patterns read a text line by line (`mem_imports_iff_lines`), and the statements that a
reader completes do not depend on where the lines stand. So what a text imports grows with its lines,
as long as lines are put in where no statement is under way, or after the last line.
-/

namespace SourceLens.Indented

open Pattern Descriptor

/-! ## By pattern -/

theorem oneLine_importPatterns : ∀ p ∈ python.importPatterns, OneLine p ∧ LineLed p := by
  have hgaps : OneLine gaps := .many (by decide)
  have hgaps1 : OneLine gaps1 := .many1 (by decide)
  have hname : OneLine (.group 1 dottedName) := .group 1 (.many1 (by decide))
  have hfrom := OneLine.seq .lineStart <| .seq hgaps <| .seq (.lit "from" (by decide)) <|
    .seq hgaps1 <| .seq hname <| .seq hgaps1 <|
    .seq (.lit "import" (by decide)) .wordEdge
  have himport := OneLine.seq .lineStart <| .seq hgaps <|
    .seq (.lit "import" (by decide)) <| .seq hgaps1 hname
  intro p hp
  rcases List.mem_cons.1 hp with rfl | hp
  · exact ⟨hfrom, lineLed_seq _⟩
  · obtain rfl := List.mem_singleton.1 hp
    exact ⟨himport, lineLed_seq _⟩

theorem mem_imports_iff {descriptor : Descriptor} {text dep : Text} :
    dep ∈ descriptor.imports text
      ↔ dep ≠ [] ∧ ∃ p ∈ descriptor.importPatterns,
        ∃ groups ∈ (p.findAll text).map (·.groups), (groups.lookup 1).getD [] = dep := by
  simp only [Descriptor.imports, Match.group, Match.group?, List.mem_flatMap, List.mem_filter,
    List.mem_map, exists_exists_and_eq_and]
  constructor
  · rintro ⟨p, hp, ⟨found, hfound, rfl⟩, hne⟩
    exact ⟨by simpa using hne, p, hp, found, hfound, rfl⟩
  · rintro ⟨hne, p, hp, found, hfound, rfl⟩
    exact ⟨p, hp, ⟨found, hfound, rfl⟩, by simpa using hne⟩

/-- The patterns find an import in a text exactly if they find it in one of its lines. -/
theorem mem_imports_iff_lines {text dep : Text} :
    dep ∈ python.imports text ↔ ∃ line ∈ Text.lines text, dep ∈ python.imports line := by
  have hfind {p : Pattern} (hp : p ∈ python.importPatterns) (text : Text) :=
    findAll_lines (oneLine_importPatterns p hp).1 (oneLine_importPatterns p hp).2 text
  have hline {line : Text} (h : line ∈ Text.lines text) : Text.lines line = [line] :=
    Text.splitOn_of_not_mem (Text.newline_not_mem_lines h)
  constructor
  · intro h
    obtain ⟨hne, p, hp, groups, hgroups, hdep⟩ := mem_imports_iff.1 h
    rw [hfind hp, List.mem_filterMap] at hgroups
    obtain ⟨line, hmem, hgroups⟩ := hgroups
    refine ⟨line, hmem, mem_imports_iff.2 ⟨hne, p, hp, groups, ?_, hdep⟩⟩
    rw [hfind hp, hline hmem]
    simpa using hgroups
  · rintro ⟨line, hmem, h⟩
    obtain ⟨hne, p, hp, groups, hgroups, hdep⟩ := mem_imports_iff.1 h
    rw [hfind hp, hline hmem] at hgroups
    refine mem_imports_iff.2 ⟨hne, p, hp, groups, ?_, hdep⟩
    rw [hfind hp, List.mem_filterMap]
    exact ⟨line, hmem, by simpa using hgroups⟩

/-! ## By statement -/

theorem mem_importedModules {logical : List LogicalLine} {dep : Text} :
    dep ∈ importedModules logical
      ↔ ∃ statement ∈ logical.map (·.statement), dep ∈ modulesOf statement.code := by
  simp [importedModules, LogicalLine.statement]

theorem modulesOf_append {code more dep : Text} (h : dep ∈ modulesOf code) :
    dep ∈ modulesOf (code ++ ' ' :: more) := by
  have hspace : isBlank ' ' = true := by decide
  rw [modulesOf] at h
  split_ifs at h with hfrom himport
  · obtain ⟨rest, rfl⟩ := List.isPrefixOf_iff_prefix.1 hfrom
    have hfrom' : Text.startsWith "from ".toList ("from ".toList ++ rest ++ ' ' :: more) = true := by
      rw [Text.startsWith, List.isPrefixOf_iff_prefix, List.append_assoc]
      exact List.prefix_append ..
    rw [modulesOf, if_pos hfrom', Text.words_append_blank hspace]
    generalize Text.words ("from ".toList ++ rest) = words at h
    match words, h with
    | _ :: word :: _, h => simpa using h
  · obtain ⟨rest, rfl⟩ := List.isPrefixOf_iff_prefix.1 himport
    have hdrop (text : Text) : ("import ".toList ++ text).drop 7 = text := rfl
    rw [hdrop, List.mem_filterMap] at h
    obtain ⟨piece, hpiece, hdep⟩ := h
    rw [List.append_assoc, modulesOf, if_neg (by simp [Text.startsWith]),
      if_pos (by simp [Text.startsWith]), hdrop, List.mem_filterMap]
    obtain ⟨front, last, first, back, hrest, hmore, hboth⟩ := Text.splitOn_append ',' rest (' ' :: more)
    rw [hrest] at hpiece
    rw [hboth]
    rcases List.mem_append.1 hpiece with hpiece | hpiece
    · exact ⟨piece, List.mem_append_left _ hpiece, hdep⟩
    · obtain rfl := List.mem_singleton.1 hpiece
      obtain ⟨tail, rfl⟩ : ∃ tail, first = ' ' :: tail := by
        obtain ⟨piece', pieces, hsplit⟩ := List.exists_cons_of_ne_nil (Text.splitOn_ne_nil ',' more)
        rw [Text.splitOn, if_neg (by decide), hsplit] at hmore
        exact ⟨piece', (List.cons.inj hmore).1.symm⟩
      refine ⟨piece ++ ' ' :: tail, by simp, ?_⟩
      rw [Text.words_append_blank hspace, List.head?_append, hdep]
      rfl
  · simp at h

theorem Reader.run_of_current (texts : List Text) :
    ∀ {reader : Reader} {c : Statement}, reader.current = some c →
      ∃ s later, (reader.run texts).1 = s :: (({} : Reader).run later).1 ∧ later <:+ texts
        ∧ (s.code = c.code ∨ ∃ more, s.code = c.code ++ ' ' :: more) := by
  induction texts with
  | nil =>
    intro reader c hcurrent
    exact ⟨c, [], by simp [run, finish, hcurrent], List.suffix_rfl, .inl rfl⟩
  | cons text rest ih =>
    intro reader c hcurrent
    obtain ⟨d, hd, hcode⟩ : ∃ d, reader.underway text = some d
        ∧ (d.code = c.code ∨ ∃ more, d.code = c.code ++ ' ' :: more) := by
      rw [underway, hcurrent, extendStatement]
      split_ifs with hempty
      · exact ⟨_, rfl, .inl rfl⟩
      · exact ⟨_, rfl, .inr ⟨_, rfl⟩⟩
    rw [run_cons]
    by_cases hcomplete : reader.completes text = true
    · obtain ⟨-, hyield⟩ := feed_of_completes hcomplete
      rw [hyield, hd, feed_idle_of_completes hcomplete]
      exact ⟨d, rest, rfl, List.suffix_cons text rest, hcode⟩
    · obtain ⟨hunder, hyield⟩ := feed_of_not_completes hcomplete
      obtain ⟨s, later, hrun, hlater, hs⟩ := ih (hunder.trans hd)
      rw [hyield, hrun]
      refine ⟨s, later, rfl, hlater.trans (List.suffix_cons text rest), ?_⟩
      rcases hcode with hcode | ⟨x, hcode⟩ <;> rcases hs with hs | ⟨y, hs⟩
      · exact .inl (hs.trans hcode)
      · exact .inr ⟨y, by rw [hs, hcode]⟩
      · exact .inr ⟨x, hs.trans hcode⟩
      · exact .inr ⟨x ++ ' ' :: y, by simp [hs, hcode]⟩

/-- Characters of a line that are code wherever they stand and open, close or join nothing. -/
def isPlain (c : Char) : Bool :=
  !isOpener c && (openerOf? c).isNone && !isQuote c && c != '#' && c != '\\' && c != '\n'

theorem isPlain_iff {c : Char} :
    isPlain c = true ↔ isOpener c = false ∧ openerOf? c = none ∧ isQuote c = false ∧ c ≠ '#'
      ∧ c ≠ '\\' ∧ c ≠ '\n' := by
  simp [isPlain, and_assoc]

def specialChars : Text := ['(', ')', '[', ']', '\x7b', '\x7d', '\'', '"', '#', '\\', '\n']

theorem isPlain_of_class {inClass : Char → Bool} (hclass : specialChars.any inClass = false)
    {c : Char} (h : inClass c = true) : isPlain c = true := by
  have hne : ∀ d ∈ specialChars, c ≠ d := by
    rintro d hd rfl
    exact List.any_eq_false.1 hclass c hd h
  simp only [specialChars, List.forall_mem_cons, ne_eq] at hne
  simp [isPlain, isOpener, openerOf?, isQuote, hne]

theorem isPlain_of_isWord {c : Char} (h : isWord c = true) : isPlain c = true :=
  isPlain_of_class (by decide) h

theorem lex_bare {text : Text} (h : ∀ c ∈ text, isQuote c = false ∧ c ≠ '#') :
    codeOf (lex .code text).1 = text ∧ (lex .code text).2 = .code := by
  induction text with
  | nil => exact ⟨rfl, rfl⟩
  | cons c rest ih =>
    obtain ⟨⟨hquote, hhash⟩, hrest⟩ := List.forall_mem_cons.1 h
    have hadvance : advance .code c rest = (.code, .code) := by
      simp [advance, hquote, hhash]
    obtain ⟨hcode, hlast⟩ := ih hrest
    rw [lex, hadvance]
    exact ⟨by rw [codeOf_cons, hcode]; rfl, hlast⟩

theorem lex_plain {text : Text} (h : ∀ c ∈ text, isPlain c = true) :
    codeOf (lex .code text).1 = text ∧ (lex .code text).2 = .code :=
  lex_bare fun c hc =>
    have hplain := isPlain_iff.1 (h c hc)
    ⟨hplain.2.2.1, hplain.2.2.2.1⟩

theorem trackChars_plain {text : Text} (h : ∀ c ∈ text, isPlain c = true) (stack : List Char) :
    trackChars stack text = (stack, true) := by
  induction text with
  | nil => rfl
  | cons c rest ih =>
    obtain ⟨hc, hrest⟩ := List.forall_mem_cons.1 h
    obtain ⟨hopen, hclose, -⟩ := isPlain_iff.1 hc
    rw [trackChars, if_neg (by simp [hopen]), hclose]
    exact ih hrest

theorem joinable_plain {text : Text} (h : ∀ c ∈ text, isPlain c = true) :
    joinable text = (Text.trim text, false) := by
  rw [joinable, if_neg]
  intro hlast
  have hmem : '\\' ∈ text := Text.mem_trim (List.mem_of_getLast? hlast)
  exact (isPlain_iff.1 (h _ hmem)).2.2.2.2.1 rfl

theorem Reader.feed_plain (reader : Reader) (hliteral : reader.literal = none)
    (hbrackets : reader.brackets = []) {text : Text} (h : ∀ c ∈ text, isPlain c = true) :
    reader.feed text
      = ({}, (extendStatement (Text.indentation text) (Text.trim text) reader.current).toList,
         true) := by
  obtain ⟨hcode, hlast⟩ := lex_plain h
  have hcodeIn : reader.codeIn text = text := by rw [codeIn, hliteral]; exact hcode
  have hlastMode : reader.lastMode text = .code := by rw [lastMode, hliteral]; exact hlast
  have hcomplete : reader.completes text = true := by
    rw [completes, hcodeIn, hlastMode, hbrackets, trackChars_plain h, joinable_plain h]
    rfl
  rw [feed_eq, if_pos hcomplete, if_pos hcomplete, underway, hcodeIn, hlastMode, hbrackets,
    trackChars_plain h, joinable_plain h]
  rfl

theorem idle_after_stop (texts : List Text) :
    ∀ (pending : Pending) (i : Nat), (∀ c ∈ pending.current, c.stop + 1 = i) →
      ∀ e ∈ (scanFrom pending i texts).logical, i ≤ e.stop + 1
        ∧ ((pending.reader.feedAll (texts.take (e.stop + 1 - i))).1 = {}
          ∨ texts.length ≤ e.stop + 1 - i) := by
  induction texts with
  | nil =>
    intro pending i hcurrent e he
    have := hcurrent e (by simpa [scanFrom, Pending.finish] using he)
    exact ⟨by omega, .inr (by simp)⟩
  | cons text rest ih =>
    intro pending i hcurrent e he
    obtain ⟨hnext, hfound⟩ := feed_logical pending i text
    obtain ⟨hreader, -⟩ := feed_reader pending i text
    rw [scanFrom_cons] at he
    rcases List.mem_append.1 he with he | he
    · rw [hfound] at he
      split_ifs at he with hcomplete
      · have hstop := (underway_cases (Option.mem_toList.1 he)).1
        have hone : e.stop + 1 - i = 1 := by omega
        refine ⟨by omega, .inl ?_⟩
        rw [hone, List.take_succ_cons, List.take_zero]
        exact Reader.feed_idle_of_completes hcomplete
      · simp at he
    · have hnow : ∀ c ∈ (pending.feed i text).1.current, c.stop + 1 = i + 1 := by
        intro c hc
        rw [hnext] at hc
        split_ifs at hc
        · simp at hc
        · exact congrArg (· + 1) (underway_cases hc).1
      obtain ⟨hle, hidle⟩ := ih _ _ hnow e he
      have hstep : e.stop + 1 - i = e.stop + 1 - (i + 1) + 1 := by omega
      refine ⟨by omega, ?_⟩
      rw [hstep, List.take_succ_cons, List.length_cons]
      rw [hreader] at hidle
      exact hidle.imp id fun h => by omega

end SourceLens.Indented
