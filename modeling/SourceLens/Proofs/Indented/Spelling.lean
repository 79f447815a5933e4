import SourceLens.Proofs.Dependency
import SourceLens.Proofs.Indented.Completeness
import SourceLens.Proofs.Indented.Literals
import SourceLens.Proofs.Indented.Names

/-!
# Two readings of import statements

The import patterns read lines as they stand, and dependencies are read off the statements of logical
lines. On a text without literals in which each statement has a line to itself, the statements are the
lines without comments and blanks around them (`codes_scan`). The readings of a line agree on the
top-level name exactly if the statement is plainly spelled (`named_iff_spelledPlainly`): a statement
is known by its keyword and one space, while a pattern takes a tab as well, and a statement has the
name go on to the next blank or comma, while a pattern reads word characters and dots.
-/

namespace SourceLens.Indented

open Pattern Descriptor

/-! ## Statements that have a line to themselves -/

/-- A line up to its comment, without blanks around it and without a backslash that ends it. -/
def lineCode (line : Text) : Text := (joinable (line.takeWhile (· ≠ '#'))).1

theorem codeOf_lex_comment (text : Text) : codeOf (lex .comment text).1 = [] := by
  induction text with
  | nil => rfl
  | cons c rest ih =>
    rw [lex_cons, codeOf_cons]
    exact ih

theorem codeOf_lex_of_inLiterals {line : Text} (h : inLiterals (lex .code line).1 = []) :
    codeOf (lex .code line).1 = line.takeWhile (· ≠ '#') := by
  induction line with
  | nil => rfl
  | cons c rest ih =>
    rw [lex_cons, inLiterals, List.filter_cons] at h
    split_ifs at h with hin
    rw [lex_cons, codeOf_cons, List.takeWhile_cons]
    by_cases hhash : c = '#'
    · have hadvance : advance .code c rest = (.comment, .comment) := by simp [advance, hhash]
      rw [hadvance, codeOf_lex_comment]
      simp [Mark.code, hhash]
    · have hquote : isQuote c = false := by
        by_contra hquote
        simp only [advance, hhash, if_false, Bool.not_eq_false _ ▸ hquote, if_true] at hin
        split_ifs at hin <;> simp [Mark.inLiteral] at hin
      have hadvance : advance .code c rest = (.code, .code) := by simp [advance, hhash, hquote]
      rw [hadvance] at h ⊢
      simp [ih h, Mark.code, hhash]

theorem openQuote_of_inLiterals {line : Text} (h : inLiterals (lex .code line).1 = []) :
    openQuote (lex .code line).2 = none := by
  have hopening : ∀ mark ∈ (lex .code line).1, mark.role ≠ .opening := by
    intro mark hmark hrole
    have hmem : mark ∈ inLiterals (lex .code line).1 :=
      List.mem_filter.2 ⟨hmark, by simp [Mark.inLiteral, hrole]⟩
    rw [h] at hmem
    exact absurd hmem List.not_mem_nil
  have hquote := quote?_lex hopening
  cases hlast : (lex .code line).2 <;> simp_all [openQuote, Mode.quote?]

theorem inLiterals_of_literals {text : Text} (h : literals text = []) :
    ∀ line ∈ Text.lines text, inLiterals (lex .code line).1 = [] := by
  have hall : inLiterals (lineMarks none (Text.lines text)) = [] := by
    have hflat := flatten_literalTexts (connected_lineMarks none (Text.lines text))
    rw [← literals_eq, h] at hflat
    exact List.map_eq_nil_iff.1 hflat.symm
  have hlines : ∀ lines : List Text, inLiterals (lineMarks none lines) = [] →
      ∀ line ∈ lines, inLiterals (lex .code line).1 = [] := by
    intro lines hnone
    induction lines with
    | nil => exact List.forall_mem_nil _
    | cons line rest ih =>
      rw [lineMarks, ← List.singleton_append, inLiterals_append, inLiterals_append] at hnone
      obtain ⟨hline, hrest⟩ := List.append_eq_nil_iff.1 (List.append_eq_nil_iff.1 hnone).2
      have hline' : inLiterals (lex .code line).1 = [] := hline
      have hopen : openQuote (lex (startMode none) line).2 = none := openQuote_of_inLiterals hline'
      rw [hopen] at hrest
      exact List.forall_mem_cons.2 ⟨hline', ih hrest⟩
  exact hlines _ hall

theorem trackChars_nil {text : Text} (h : ∀ c ∈ text, isOpener c = false) :
    (trackChars [] text).1 = [] := by
  induction text with
  | nil => rfl
  | cons c rest ih =>
    obtain ⟨hc, hrest⟩ := List.forall_mem_cons.1 h
    rw [trackChars, if_neg (by simp [hc])]
    cases openerOf? c <;> exact ih hrest

theorem feed_of_no_code {line : Text} (hline : inLiterals (lex .code line).1 = [])
    (hcode : lineCode line = []) (i : Nat) :
    (({} : Pending).feed i line).1 = {} ∧ (({} : Pending).feed i line).2.logical = [] := by
  have hcut : (({} : Pending).reader).codeIn line = line.takeWhile (· ≠ '#') :=
    codeOf_lex_of_inLiterals hline
  have hnone : ({} : Pending).underway i line = none := by
    rw [Pending.underway, hcut, ← lineCode, hcode]
    rfl
  have hopeners : ∀ c ∈ line.takeWhile (· ≠ '#'), isOpener c = false := by
    intro c hc
    by_contra hopener
    have hmem : c ∈ lineCode line := by
      rw [Bool.not_eq_false] at hopener
      have hcases : c = '(' ∨ c = '[' ∨ c = '\x7b' := by simpa [isOpener, or_assoc] using hopener
      rcases hcases with rfl | rfl | rfl <;> exact mem_joinable hc (by decide) (by decide)
    rw [hcode] at hmem
    exact absurd hmem List.not_mem_nil
  obtain ⟨hcurrent, hlogical⟩ := feed_logical {} i line
  rw [hnone] at hcurrent hlogical
  refine ⟨Pending.eq_start_of_reader ?_, by simpa using hlogical⟩
  have hreader := (feed_reader {} i line).1
  have hunder : (({} : Pending).reader).underway line = none := by rw [underway_reader, hnone]; rfl
  rw [hreader, Reader.feed_eq, hcut, hunder]
  have hbrackets : (trackChars (({} : Pending).reader).brackets (line.takeWhile (· ≠ '#'))).1 = [] :=
    trackChars_nil hopeners
  have hliteral : openQuote ((({} : Pending).reader).lastMode line) = none :=
    openQuote_of_inLiterals hline
  simp only [hbrackets, hliteral, ite_self]

theorem underway_of_code {line : Text} (hline : inLiterals (lex .code line).1 = [])
    (hcode : lineCode line ≠ []) (i : Nat) :
    ∃ entry, ({} : Pending).underway i line = some entry ∧ entry.code = lineCode line
      ∧ entry.line = i := by
  have hcut : (({} : Pending).reader).codeIn line = line.takeWhile (· ≠ '#') :=
    codeOf_lex_of_inLiterals hline
  rw [Pending.underway, hcut, ← lineCode, extend, if_neg (by simpa using hcode)]
  exact ⟨_, rfl, rfl, rfl⟩

theorem codes_scanFrom (lines : List Text)
    (hlines : ∀ line ∈ lines, inLiterals (lex .code line).1 = []) :
    ∀ i, (∀ entry ∈ (scanFrom {} i lines).logical, entry.stop = entry.line) →
      (scanFrom {} i lines).logical.map (·.code) = (lines.map lineCode).filter (! ·.isEmpty) := by
  induction lines with
  | nil => exact fun _ _ => rfl
  | cons line rest ih =>
    intro i hown
    obtain ⟨hline, hrest⟩ := List.forall_mem_cons.1 hlines
    have hsplit := scanFrom_cons {} i line rest
    rw [hsplit] at hown ⊢
    simp only [Scan.append, List.map_append, List.map_cons] at hown ⊢
    have hlater := fun entry hentry => hown entry (List.mem_append_right _ hentry)
    by_cases hcode : lineCode line = []
    · obtain ⟨hnext, hnone⟩ := feed_of_no_code hline hcode i
      rw [hnext] at hlater ⊢
      rw [hnone, ih hrest (i + 1) hlater, hcode]
      rfl
    · obtain ⟨entry, hunder, hentry⟩ := underway_of_code hline hcode i
      obtain ⟨hcurrent, hlogical⟩ := feed_logical {} i line
      rw [hunder] at hcurrent hlogical
      rw [List.filter_cons_of_pos (by simpa using hcode), ← hentry.1]
      by_cases hcomplete : (({} : Pending).reader).completes line = true
      · have hnext : (({} : Pending).feed i line).1 = {} := by
          refine Pending.eq_start_of_reader ?_
          rw [(feed_reader {} i line).1]
          exact Reader.feed_idle_of_completes hcomplete
        rw [if_pos hcomplete] at hlogical
        rw [hnext] at hlater ⊢
        rw [hlogical, ih hrest (i + 1) hlater]
        rfl
      · rw [if_neg hcomplete] at hcurrent hlogical
        rw [hlogical]
        -- a statement that goes on has another line, unless the text ends here
        cases rest with
        | nil => simp [scanFrom, Pending.finish, hcurrent]
        | cons next more =>
          obtain ⟨d, hd⟩ : ∃ d, (({} : Pending).feed i line).1.underway (i + 1) next = some d :=
            ⟨_, by rw [Pending.underway, hcurrent]; rfl⟩
          obtain ⟨-, ⟨hnone, -⟩ | ⟨d', hd', hstart, -⟩⟩ := underway_cases hd
          · rw [hcurrent] at hnone
            simp at hnone
          obtain rfl := Option.some.inj (hcurrent.symm.trans hd')
          obtain ⟨e, others, hscan, hfirst, -, hstop⟩ := scanFrom_head_of_underway more hd
          have hsame := hlater e (by rw [hscan]; exact List.mem_cons_self)
          have hplace := hentry.2
          omega

theorem codes_scan {text : Text} (hliterals : literals text = [])
    (hown : ∀ entry ∈ (scan text).logical, entry.stop = entry.line) :
    (scan text).logical.map (·.code) = ((Text.lines text).map lineCode).filter (! ·.isEmpty) :=
  codes_scanFrom _ (inLiterals_of_literals hliterals) 0 hown

/-- The top-level name of a module. -/
def topName (name : Text) : Text := name.takeWhile (· ≠ '.')

theorem mem_dependencies {text dep : Text} (hliterals : literals text = [])
    (hown : ∀ entry ∈ (scan text).logical, entry.stop = entry.line) :
    dep ∈ dependencies text ↔ isIdentifier dep = true
      ∧ ∃ line ∈ Text.lines text, dep ∈ (modulesOf (lineCode line)).map topName := by
  have hmodules : importedModules (scan text).logical
      = ((scan text).logical.map (·.code)).flatMap modulesOf := by
    rw [importedModules, List.flatMap_map]
  have hempty : modulesOf [] = [] := by decide
  rw [dependencies, Dependency.distinct_eq_missing, Dependency.mem_missing, List.mem_filter, hmodules,
    codes_scan hliterals hown]
  simp only [List.not_mem_nil, not_false_eq_true, and_true, List.mem_map, List.mem_flatMap,
    List.mem_filter, topName]
  constructor
  · rintro ⟨⟨name, ⟨_, ⟨⟨line, hline, rfl⟩, -⟩, hname⟩, rfl⟩, hid⟩
    exact ⟨hid, line, hline, name, hname, rfl⟩
  · rintro ⟨hid, line, hline, name, hname, rfl⟩
    refine ⟨⟨name, ⟨lineCode line, ⟨⟨line, hline, rfl⟩, ?_⟩, hname⟩, rfl⟩, hid⟩
    by_contra hnil
    have hnil' : lineCode line = [] := by simpa using hnil
    rw [hnil', hempty] at hname
    exact absurd hname List.not_mem_nil

/-! ## Import statements as the patterns read them -/

/-- Where the patterns find the name of a module in a line. -/
inductive Located (name : Text) : Text → Prop
  | behindFrom {lead gap space rest : Text} : IsGap lead → IsGap gap → gap ≠ [] → IsGap space →
      space ≠ [] →
      Located name (lead ++ ("from".toList ++ gap ++ name ++ space ++ "import".toList ++ rest))
  | behindImport {lead gap rest : Text} : IsGap lead → IsGap gap → gap ≠ [] →
      rest.head?.any isNameChar = false →
      Located name (lead ++ ("import".toList ++ gap ++ name ++ rest))

theorem run_of_mem_imports {line name : Text} (hline : '\n' ∉ line) (h : name ∈ python.imports line) :
    name ≠ [] ∧ ∃ p ∈ python.importPatterns, ∃ there, run p (atStart line) some = some there
      ∧ (there.groups.lookup 1).getD [] = name := by
  have hlines : Text.lines line = [line] := Text.splitOn_of_not_mem hline
  obtain ⟨hne, p, hp, groups, hgroups, hname⟩ := mem_imports_iff.1 h
  obtain ⟨honeLine, hled⟩ := oneLine_importPatterns p hp
  rw [findAll_lines honeLine hled, hlines, List.mem_filterMap] at hgroups
  obtain ⟨_, hmem, hgroups⟩ := hgroups
  rw [List.mem_singleton.1 hmem, lineGroups_eq, Option.map_eq_some_iff] at hgroups
  obtain ⟨found, hfound, rfl⟩ := hgroups
  obtain ⟨there, hrun, rfl⟩ := Option.map_eq_some_iff.1 (Option.eq_some_of_filter_eq_some hfound)
  exact ⟨hne, p, hp, there, hrun, hname⟩

theorem located_of_run_from {line name : Text} {there : Cursor} (hne : name ≠ [])
    (hrun : run fromPattern (atStart line) some = some there)
    (hname : (there.groups.lookup 1).getD [] = name) : Named name ∧ Located name line := by
  -- what stands behind the name is read as well, so the name ends at a gap
  have hfront : run (chain [lineStart, gaps, lit "from", gaps1]) (atStart line) (fun here =>
      run (group 1 dottedName) here fun here =>
        run (chain [gaps1, lit "import", wordEdge]) here some) = some there := hrun
  obtain ⟨_, rest, groups, htext, ⟨_, _, rfl, ⟨rfl, -⟩, lead, _, rfl, hlead, _, gap, rfl, hword,
    hgap⟩, hnamed⟩ := (faithful_run _).sound hfront
  obtain ⟨x, r, hrest, hx, ⟨_, rest', rfl, space, _, rfl, hspace, _, _, rfl, himport, rfl, -⟩,
    hlookup⟩ := lookup_of_run_group rfl hnamed
  rw [hlookup] at hname
  obtain rfl : x = name := hname
  have hrest' : rest = x ++ (space ++ ("import".toList ++ [] ++ rest')) := by
    rw [spans_lit.1 himport] at hrest
    simpa using hrest
  have hline : line = lead ++ ("from".toList ++ gap ++ x ++ space ++ "import".toList ++ rest') := by
    rw [show line = (atStart line).rest from rfl, htext, hrest', spans_lit.1 hword]
    simp
  refine ⟨⟨hne, (spans_many1_one.1 hx).2⟩, ?_⟩
  rw [hline]
  exact .behindFrom (spans_gaps.1 hlead) (spans_gaps1.1 hgap).2 (spans_gaps1.1 hgap).1
    (spans_gaps1.1 hspace).2 (spans_gaps1.1 hspace).1

theorem located_of_run_import {line name : Text} {there : Cursor} (hne : name ≠ [])
    (hrun : run importPattern (atStart line) some = some there)
    (hname : (there.groups.lookup 1).getD [] = name) : Named name ∧ Located name line := by
  have hfront : run (chain [lineStart, gaps, lit "import", gaps1]) (atStart line) (fun here =>
      run (group 1 dottedName) here some) = some there := hrun
  obtain ⟨_, rest, groups, htext, ⟨_, _, rfl, ⟨rfl, -⟩, lead, _, rfl, hlead, word, gap, rfl, hword,
    hgap⟩, hnamed⟩ := (faithful_run _).sound hfront
  have hread := run_dottedName ((atStart line).past ([] ++ (lead ++ (word ++ gap))) rest groups)
  rw [hnamed, Option.map_some, Cursor.past_rest] at hread
  split_ifs at hread
  have hgroups : there.groups = (1, patternName rest) :: groups :=
    congrArg Prod.snd (Option.some.inj hread)
  obtain rfl : patternName rest = name := by
    rw [← hname, hgroups]
    rfl
  have hrest : rest = patternName rest ++ rest.dropWhile isNameChar :=
    List.takeWhile_append_dropWhile.symm
  have hline : line = lead
      ++ ("import".toList ++ gap ++ patternName rest ++ rest.dropWhile isNameChar) := by
    rw [show line = (atStart line).rest from rfl, htext, spans_lit.1 hword]
    conv_lhs => rw [hrest]
    simp
  refine ⟨⟨hne, fun c hc => List.mem_takeWhile_imp hc⟩, ?_⟩
  rw [hline]
  exact .behindImport (spans_gaps.1 hlead) (spans_gaps1.1 hgap).2 (spans_gaps1.1 hgap).1
    (head_dropWhile isNameChar rest)

theorem located_of_mem_imports {line name : Text} (hline : '\n' ∉ line)
    (h : name ∈ python.imports line) : Named name ∧ Located name line := by
  obtain ⟨hne, p, hp, there, hrun, hname⟩ := run_of_mem_imports hline h
  rw [python_importPatterns] at hp
  rcases List.mem_cons.1 hp with rfl | hp
  · exact located_of_run_from hne hrun hname
  · obtain rfl := List.mem_singleton.1 hp
    exact located_of_run_import hne hrun hname

/-! ## The statement of such a line -/

/-- A text that starts and ends with characters that stay when code is joined. -/
structure Solid (front : Text) : Prop where
  head : front.head?.any isBlank = false
  last : ∃ u d, front = u ++ [d] ∧ isBlank d = false ∧ d ≠ '\\'

theorem Solid.lineCode_eq {lead front : Text} (h : Solid front) (hlead : IsGap lead)
    (hhash : '#' ∉ front) (rest : Text) :
    ∃ tail, lineCode (lead ++ (front ++ rest)) = front ++ tail ∧ tail <+: rest := by
  obtain ⟨hhead, u, d, hfront, hd, hslash⟩ := h
  have hblank : Text.allBlank lead = true := Text.allBlank_iff.2 (isBlank_of_isGap hlead)
  set z := rest.takeWhile (· ≠ '#') with hz
  have hrest : z <+: rest := List.takeWhile_prefix _
  have hcut : (lead ++ (front ++ rest)).takeWhile (· ≠ '#') = lead ++ (front ++ z) := by
    have hleads : ∀ c ∈ lead, decide (c ≠ '#') = true := by
      intro c hc
      rcases hlead c hc with rfl | rfl <;> decide
    have hfronts : ∀ c ∈ front, decide (c ≠ '#') = true := by
      intro c hc
      rw [decide_eq_true_eq]
      rintro rfl
      exact hhash hc
    rw [List.takeWhile_append_of_pos hleads, List.takeWhile_append_of_pos hfronts]
  have htrim : Text.trim (lead ++ (front ++ z)) = front ++ Text.trimEnd z := by
    obtain ⟨c, more, hc⟩ : ∃ c more, front = c :: more :=
      List.exists_cons_of_ne_nil (by rw [hfront]; simp)
    have hstart : Text.trimStart (front ++ z) = front ++ z := by
      rw [hc] at hhead ⊢
      exact Text.trimStart_of_head rfl hhead
    rw [Text.trim, Text.trimStart_append hblank, hstart, hfront, List.append_assoc,
      List.singleton_append, Text.trimEnd_append_cons hd, List.append_assoc, List.singleton_append]
  rw [lineCode, hcut, joinable, htrim]
  split_ifs with hjoin
  · have hne : Text.trimEnd z ≠ [] := by
      intro hnil
      rw [hnil, List.append_nil, hfront, List.getLast?_concat] at hjoin
      exact hslash (Option.some.inj hjoin)
    refine ⟨Text.trimEnd (Text.trimEnd z).dropLast, ?_, ?_⟩
    · rw [List.dropLast_append_of_ne_nil hne, hfront, List.append_assoc, List.singleton_append,
        Text.trimEnd_append_cons hd, List.append_assoc, List.singleton_append]
    · have hlast := (List.dropLast_prefix _).trans ((Text.trimEnd_prefix z).trans hrest)
      exact (Text.trimEnd_prefix _).trans hlast
  · exact ⟨_, rfl, (Text.trimEnd_prefix z).trans hrest⟩

/-- Whether a statement is told from others by the readers of statements as by the patterns: a space
follows its keyword, and the name of an import ends at a blank or a comma or has its top-level part
end before. -/
def SpelledPlainly (name code : Text) : Prop :=
  Text.startsWith "from ".toList code = true
    ∨ Text.startsWith "import ".toList code = true
      ∧ ('.' ∈ name ∨ (((code.drop 7).dropWhile isGapChar).drop name.length).head?.all
          (fun c => isBlank c || c == ',') = true)

theorem head_words {gap word rest : Text} (hgap : IsGap gap) (hne : word ≠ [])
    (hword : ∀ c ∈ word, isBlank c = false) (hrest : rest.head?.all isBlank = true) :
    ∃ more, Text.words (gap ++ (word ++ rest)) = word :: more := by
  rw [Text.words_blank_append (Text.allBlank_iff.2 (isBlank_of_isGap hgap))]
  cases rest with
  | nil => exact ⟨[], by rw [List.append_nil, Text.words_of_not_blank hne hword]⟩
  | cons c rest =>
    exact ⟨_, by rw [Text.words_append_blank hrest, Text.words_of_not_blank hne hword]; rfl⟩

theorem head_splitOn {x after : Text} (hx : ',' ∉ x)
    (hafter : after.head?.all (fun c => isBlank c || c == ',') = true) :
    ∃ w back, Text.splitOn ',' (x ++ after) = (x ++ w) :: back ∧ w.head?.all isBlank = true := by
  obtain ⟨front, last, first, back, hfront, hfirst, hboth⟩ := Text.splitOn_append ',' x after
  rw [Text.splitOn_of_not_mem hx] at hfront
  obtain ⟨rfl, hlast⟩ : front = [] ∧ x = last := by
    cases front with
    | nil => simpa using hfront
    | cons piece front => simp at hfront
  refine ⟨first, back, by rw [hboth, hlast]; rfl, ?_⟩
  cases after with
  | nil =>
    obtain ⟨rfl, -⟩ := List.cons.inj hfirst
    rfl
  | cons c after =>
    rw [Text.splitOn] at hfirst
    split_ifs at hfirst with hc
    · obtain ⟨rfl, -⟩ := List.cons.inj hfirst
      rfl
    · have hblank : isBlank c = true := by simpa [hc] using hafter
      obtain ⟨piece, pieces, hpieces⟩ := List.exists_cons_of_ne_nil (Text.splitOn_ne_nil ',' after)
      rw [hpieces] at hfirst
      obtain ⟨rfl, -⟩ := List.cons.inj hfirst
      exact hblank

theorem topName_append_eq_iff {name junk : Text} (hjunk : junk.head? ≠ some '.') :
    topName (name ++ junk) = topName name ↔ '.' ∈ name ∨ junk = [] := by
  induction name with
  | nil =>
    cases junk with
    | nil => simp
    | cons c junk =>
      have hc : c ≠ '.' := fun h => hjunk (by rw [h]; rfl)
      simp [topName, hc]
  | cons c name ih =>
    by_cases hc : c = '.'
    · simp [topName, hc]
    · have hcons (rest : Text) : topName (c :: rest) = c :: topName rest :=
        List.takeWhile_cons_of_pos (by simpa using hc)
      rw [List.cons_append, hcons, hcons, List.cons_inj_right, ih, List.mem_cons,
        or_iff_right (Ne.symm hc)]

theorem modulesOf_from {gap name space rest : Text} (hgap : IsGap gap) (hspace : IsGap space)
    (hspace_ne : space ≠ []) (hname : Named name) :
    modulesOf ("from".toList ++ ' ' :: (gap ++ (name ++ (space ++ rest)))) = [name] := by
  have hfrom : Text.startsWith "from ".toList
      ("from".toList ++ ' ' :: (gap ++ (name ++ (space ++ rest)))) = true := rfl
  have hblank : (space ++ rest).head?.all isBlank = true := by
    obtain ⟨c, space, rfl⟩ := List.exists_cons_of_ne_nil hspace_ne
    exact isBlank_of_isGap hspace c List.mem_cons_self
  obtain ⟨more, hwords⟩ := head_words hgap hname.ne_nil hname.not_blank hblank
  have hkeyword : Text.words "from".toList = ["from".toList] := by decide
  rw [modulesOf, if_pos hfrom, Text.words_append_blank Text.isBlank_space, hwords, hkeyword]
  rfl

theorem modulesOf_import {gap name : Text} (hgap : IsGap gap) (hname : Named name) (tail : Text) :
    ∃ more, modulesOf ("import".toList ++ ' ' :: (gap ++ (name ++ tail)))
      = (name ++ tail.takeWhile fun c => !(isBlank c || c == ',')) :: more := by
  set junk := tail.takeWhile fun c => !(isBlank c || c == ',') with hjunk
  set after := tail.dropWhile fun c => !(isBlank c || c == ',') with hafter
  have htail : tail = junk ++ after := List.takeWhile_append_dropWhile.symm
  have hstop : after.head?.all (fun c => isBlank c || c == ',') = true := by
    have hhead := head_dropWhile (fun c => !(isBlank c || c == ',')) tail
    cases hcase : tail.dropWhile fun c => !(isBlank c || c == ',') with
    | nil => rw [hafter, hcase]; rfl
    | cons c rest =>
      rw [hcase] at hhead
      rw [hafter, hcase]
      simpa [or_iff_not_imp_left] using hhead
  have hjunks : ∀ c ∈ junk, isBlank c = false ∧ c ≠ ',' := fun c hc => by
    simpa using List.mem_takeWhile_imp hc
  have hcomma : ',' ∉ gap ++ (name ++ junk) := by
    intro hmem
    rcases List.mem_append.1 hmem with hmem | hmem
    · rcases hgap _ hmem with h | h <;> exact absurd h (by decide)
    rcases List.mem_append.1 hmem with hmem | hmem
    · exact hname.not_mem (by decide) hmem
    · exact (hjunks _ hmem).2 rfl
  obtain ⟨w, back, hsplit, hw⟩ := head_splitOn hcomma hstop
  have hword : ∀ c ∈ name ++ junk, isBlank c = false := List.forall_mem_append.2
    ⟨hname.not_blank, fun c hc => (hjunks c hc).1⟩
  obtain ⟨more, hwords⟩ := head_words hgap (by simp [hname.ne_nil]) hword hw
  have hfrom : Text.startsWith "from ".toList
      ("import".toList ++ ' ' :: (gap ++ (name ++ tail))) = false := rfl
  have himport : Text.startsWith "import ".toList
      ("import".toList ++ ' ' :: (gap ++ (name ++ tail))) = true := rfl
  have hdrop : ("import".toList ++ ' ' :: (gap ++ (name ++ tail))).drop 7
      = gap ++ (name ++ junk) ++ after := by
    rw [htail]
    simp
  rw [modulesOf, hfrom, himport, hdrop, hsplit, if_neg (by simp), if_pos rfl, List.filterMap_cons,
    List.append_assoc, hwords]
  exact ⟨_, rfl⟩

theorem not_recognised {code : Text} (hfrom : Text.startsWith "from ".toList code = false)
    (himport : Text.startsWith "import ".toList code = false) (name : Text) :
    (modulesOf code).head?.map topName = some (topName name) ↔ SpelledPlainly name code := by
  rw [modulesOf, SpelledPlainly, hfrom, himport]
  simp

theorem spelledPlainly_import {gap name tail : Text} (hgap : IsGap gap) (hname : Named name) :
    SpelledPlainly name ("import".toList ++ ' ' :: (gap ++ (name ++ tail)))
      ↔ '.' ∈ name ∨ (tail.takeWhile fun c => !(isBlank c || c == ',')) = [] := by
  have hfrom : Text.startsWith "from ".toList
      ("import".toList ++ ' ' :: (gap ++ (name ++ tail))) = false := rfl
  have himport : Text.startsWith "import ".toList
      ("import".toList ++ ' ' :: (gap ++ (name ++ tail))) = true := rfl
  have hdrop : ("import".toList ++ ' ' :: (gap ++ (name ++ tail))).drop 7
      = gap ++ (name ++ tail) := rfl
  have hskip : (gap ++ (name ++ tail)).dropWhile isGapChar = name ++ tail := by
    have hhead := hname.head_not_gap
    obtain ⟨c, name, rfl⟩ := List.exists_cons_of_ne_nil hname.ne_nil
    have hc : isGapChar c = false := hhead
    rw [List.dropWhile_append_of_pos (isGapChar_of_isGap hgap), List.cons_append,
      List.dropWhile_cons_of_neg (by simp [hc])]
  rw [SpelledPlainly, hfrom, himport, hdrop, hskip, List.drop_left]
  cases tail with
  | nil => simp
  | cons c tail => simp [List.takeWhile_cons, or_iff_not_imp_left]

/-! ## Both readings of a line -/

theorem hash_not_mem_gap {gap : Text} (h : IsGap gap) : '#' ∉ gap := fun hmem => by
  rcases h _ hmem with h | h <;> exact absurd h (by decide)

theorem lineCode_from {lead gap name space : Text} (hlead : IsGap lead) (hgap : IsGap gap)
    (hname : Named name) (hspace : IsGap space) (rest : Text) :
    ∃ tail, lineCode (lead ++ ("from".toList ++ gap ++ name ++ space ++ "import".toList ++ rest))
      = "from".toList ++ (gap ++ (name ++ (space ++ ("import".toList ++ tail)))) := by
  have hsolid : Solid ("from".toList ++ gap ++ name ++ space ++ "import".toList) := by
    refine ⟨rfl, "from".toList ++ gap ++ name ++ space ++ "impor".toList, 't', ?_, by decide,
      by decide⟩
    simp
  have hhash : '#' ∉ "from".toList ++ gap ++ name ++ space ++ "import".toList := by
    have hname' : '#' ∉ name := hname.not_mem (by decide)
    simp [hash_not_mem_gap hgap, hash_not_mem_gap hspace, hname']
  obtain ⟨tail, hcode, -⟩ := hsolid.lineCode_eq hlead hhash rest
  refine ⟨tail, ?_⟩
  rw [hcode]
  simp only [List.append_assoc]

theorem lineCode_import {lead gap name : Text} (hlead : IsGap lead) (hgap : IsGap gap)
    (hname : Named name) (rest : Text) :
    ∃ tail, lineCode (lead ++ ("import".toList ++ gap ++ name ++ rest))
      = "import".toList ++ (gap ++ (name ++ tail)) ∧ tail <+: rest := by
  have hsolid : Solid ("import".toList ++ gap ++ name) := by
    obtain ⟨u, d, rfl⟩ := (List.eq_nil_or_concat name).resolve_left hname.ne_nil
    have hd : isNameChar d = true := hname.chars d (by simp)
    refine ⟨rfl, "import".toList ++ gap ++ u, d, by simp, not_isBlank_of_isNameChar hd, ?_⟩
    rintro rfl
    exact absurd hd (by decide)
  have hhash : '#' ∉ "import".toList ++ gap ++ name := by
    have hname' : '#' ∉ name := hname.not_mem (by decide)
    simp [hash_not_mem_gap hgap, hname']
  obtain ⟨tail, hcode, htail⟩ := hsolid.lineCode_eq hlead hhash rest
  refine ⟨tail, ?_, htail⟩
  rw [hcode]
  simp only [List.append_assoc]

theorem named_iff_of_import {gap name tail : Text} (hgap : IsGap gap) (hname : Named name)
    (htail : tail.head?.any isNameChar = false) :
    (modulesOf ("import".toList ++ ' ' :: (gap ++ (name ++ tail)))).head?.map topName
        = some (topName name)
      ↔ SpelledPlainly name ("import".toList ++ ' ' :: (gap ++ (name ++ tail))) := by
  obtain ⟨more, hmodules⟩ := modulesOf_import hgap hname tail
  -- the name was read to its end, so what a statement adds to it does not start with a dot
  have hjunk : (tail.takeWhile fun c => !(isBlank c || c == ',')).head? ≠ some '.' := by
    intro hdot
    obtain ⟨junk, hjunk⟩ := List.head?_eq_some_iff.1 hdot
    obtain ⟨after, hafter⟩ := List.takeWhile_prefix (fun c => !(isBlank c || c == ',')) (l := tail)
    rw [hjunk] at hafter
    have hdot : isNameChar '.' = true := by decide
    rw [← hafter, List.cons_append, List.head?_cons, Option.any_some, hdot] at htail
    exact absurd htail (by simp)
  rw [hmodules, spelledPlainly_import hgap hname, List.head?_cons, Option.map_some,
    Option.some_inj, topName_append_eq_iff hjunk]

/-- Of a line with an import, both readings give the same top-level name exactly if the statement is
plainly spelled. -/
theorem named_iff_spelledPlainly {line name : Text} (hline : '\n' ∉ line)
    (h : name ∈ python.imports line) :
    (modulesOf (lineCode line)).head?.map topName = some (topName name)
      ↔ SpelledPlainly name (lineCode line) := by
  obtain ⟨hname, hlocated⟩ := located_of_mem_imports hline h
  cases hlocated with
  | @behindFrom lead gap space rest hlead hgap hgap_ne hspace hspace_ne =>
    obtain ⟨tail, hcode⟩ := lineCode_from hlead hgap hname hspace rest
    rw [hcode]
    obtain ⟨c, gap, rfl⟩ := List.exists_cons_of_ne_nil hgap_ne
    obtain ⟨rfl | rfl, hmore⟩ : (c = ' ' ∨ c = '\t') ∧ IsGap gap := List.forall_mem_cons.1 hgap
    · rw [List.cons_append, modulesOf_from hmore hspace hspace_ne hname]
      exact iff_of_true rfl (.inl rfl)
    · exact not_recognised rfl rfl name
  | @behindImport lead gap rest hlead hgap hgap_ne hrest =>
    obtain ⟨tail, hcode, htail⟩ := lineCode_import hlead hgap hname rest
    rw [hcode]
    obtain ⟨c, gap, rfl⟩ := List.exists_cons_of_ne_nil hgap_ne
    obtain ⟨rfl | rfl, hmore⟩ : (c = ' ' ∨ c = '\t') ∧ IsGap gap := List.forall_mem_cons.1 hgap
    · have hhead : tail.head?.any isNameChar = false := by
        cases tail with
        | nil => rfl
        | cons c tail =>
          obtain ⟨after, rfl⟩ := htail
          exact hrest
      exact named_iff_of_import hmore hname hhead
    · exact not_recognised rfl rfl name

/-- On a text without literals in which each statement has a line to itself, the readers of statements
give the top-level name that a pattern finds in a line exactly if the statement is plainly spelled, and
so every identifier that the patterns find is a dependency exactly if each one is plainly spelled or
named by another statement. -/
theorem dependencies_cover_imports_iff {text : Text} (hliterals : literals text = [])
    (hown : ∀ entry ∈ (scan text).logical, entry.stop = entry.line) :
    (∀ line ∈ Text.lines text, ∀ name ∈ python.imports line,
      ((modulesOf (lineCode line)).head?.map topName = some (topName name)
        ↔ SpelledPlainly name (lineCode line)))
      ∧ ((∀ name ∈ python.imports text, isIdentifier (topName name) = true →
          topName name ∈ dependencies text)
        ↔ ∀ line ∈ Text.lines text, ∀ name ∈ python.imports line, isIdentifier (topName name) = true →
          SpelledPlainly name (lineCode line)
            ∨ ∃ other ∈ Text.lines text, topName name ∈ (modulesOf (lineCode other)).map topName) := by
  have hread : ∀ line ∈ Text.lines text, ∀ name ∈ python.imports line,
      ((modulesOf (lineCode line)).head?.map topName = some (topName name)
        ↔ SpelledPlainly name (lineCode line)) := fun line hline name hname =>
    named_iff_spelledPlainly (Text.newline_not_mem_lines hline) hname
  refine ⟨hread, ?_, ?_⟩
  · intro hcover line hline name hname hid
    have hfound : name ∈ python.imports text := mem_imports_iff_lines.2 ⟨line, hline, hname⟩
    exact .inr ((mem_dependencies hliterals hown).1 (hcover name hfound hid)).2
  · intro hspelled name hname hid
    obtain ⟨line, hline, hname⟩ := mem_imports_iff_lines.1 hname
    rw [mem_dependencies hliterals hown]
    refine ⟨hid, ?_⟩
    rcases hspelled line hline name hname hid with hplain | hother
    · have hhead := (hread line hline name hname).2 hplain
      obtain ⟨first, hfirst, htop⟩ := Option.map_eq_some_iff.1 hhead
      exact ⟨line, hline, List.mem_map.2 ⟨first, List.mem_of_head? hfirst, htop⟩⟩
    · exact hother

/-- Behind a tab, or with a semicolon at its end, a name is found by the patterns alone. -/
theorem dependencies_miss_imports :
    literals "import\tos\nimport re;\n".toList = []
      ∧ (∀ entry ∈ (scan "import\tos\nimport re;\n".toList).logical, entry.stop = entry.line)
      ∧ python.imports "import\tos\nimport re;\n".toList = ["os".toList, "re".toList]
      ∧ (∀ name ∈ ["os".toList, "re".toList], isIdentifier (topName name) = true)
      ∧ dependencies "import\tos\nimport re;\n".toList = [] := by
  decide +kernel

theorem dependencies_cover_imports_dotted :
    literals "import os.path;\nfrom re import x\n".toList = []
      ∧ (∀ entry ∈ (scan "import os.path;\nfrom re import x\n".toList).logical,
        entry.stop = entry.line)
      ∧ ∀ name ∈ python.imports "import os.path;\nfrom re import x\n".toList,
        isIdentifier (topName name) = true →
          topName name ∈ dependencies "import os.path;\nfrom re import x\n".toList := by
  have hliterals : literals "import os.path;\nfrom re import x\n".toList = [] := by decide +kernel
  have hown : ∀ entry ∈ (scan "import os.path;\nfrom re import x\n".toList).logical,
      entry.stop = entry.line := by decide +kernel
  refine ⟨hliterals, hown, (dependencies_cover_imports_iff hliterals hown).2.2 ?_⟩
  have hspelled : ∀ line ∈ Text.lines "import os.path;\nfrom re import x\n".toList,
      ∀ name ∈ python.imports line, isIdentifier (topName name) = true →
        Text.startsWith "from ".toList (lineCode line) = true
          ∨ Text.startsWith "import ".toList (lineCode line) = true ∧ '.' ∈ name := by
    decide +kernel
  intro line hline name hname hid
  rcases hspelled line hline name hname hid with hfrom | ⟨himport, hdot⟩
  · exact .inl (.inl hfrom)
  · exact .inl (.inr ⟨himport, .inl hdot⟩)

end SourceLens.Indented
