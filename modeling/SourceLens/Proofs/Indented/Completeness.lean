import SourceLens.Proofs.Indented.Headers
import SourceLens.Proofs.Indented.Injection
import SourceLens.Proofs.Pattern.Evaluation
import SourceLens.Proofs.Text.Identifiers

/-!
# Which injected imports are read back

A new statement is read in two ways: the patterns read the front of its name
(`mem_imports_importLine`), and a reader takes it as a statement of its own, unless the text above
breaks off with a backslash (`feedAll_inserted`). This gives what the result imports exactly
(`imported_injectImports_iff`). A requested dependency can be missed: if its statement occurs in the
text as a part of something else it is not injected, and if its statement is joined to another one
only the patterns read it, which do not know every character of a name.
-/

namespace SourceLens.Indented

open Pattern Descriptor

/-! ## What the patterns read of a new statement -/

def isNameChar (c : Char) : Bool := isWord c || c == '.'

/-- What the import patterns read of a name: its first word characters and dots. -/
def patternName (dep : Text) : Text := dep.takeWhile isNameChar

/-- The pattern of statements that start with `from`. -/
def fromPattern : Pattern :=
  chain [lineStart, gaps, lit "from", gaps1, group 1 dottedName, gaps1, lit "import", wordEdge]

/-- The pattern of statements that start with `import`. -/
def importPattern : Pattern := chain [lineStart, gaps, lit "import", gaps1, group 1 dottedName]

theorem python_importPatterns : python.importPatterns = [fromPattern, importPattern] := rfl

def isGapChar (c : Char) : Bool := " \t".toList.contains c

theorem isNameChar_of_isGapChar {c : Char} (h : isGapChar c = true) : isNameChar c = false := by
  have hgaps : " \t".toList.any isNameChar = false := by decide
  exact eq_false_of_ne_true (List.any_eq_false.1 hgaps c (List.contains_iff_mem.1 h))

theorem not_isBlank_of_isNameChar {c : Char} (h : isNameChar c = true) : isBlank c = false := by
  rcases Bool.or_eq_true_iff.1 h with h | h
  · exact Text.not_isBlank_of_isWord h
  · rw [eq_of_beq h]
    decide

/-- A name that the import patterns read to its end. -/
structure Named (name : Text) : Prop where
  ne_nil : name ≠ []
  chars : ∀ c ∈ name, isNameChar c = true

section

variable {name : Text} (h : Named name)

include h

theorem Named.patternName_eq : patternName name = name := List.takeWhile_eq_self_iff.2 h.chars

theorem Named.not_mem {c : Char} (hc : isNameChar c = false) : c ∉ name := fun hmem => by
  simp [h.chars c hmem] at hc

theorem Named.not_blank : ∀ c ∈ name, isBlank c = false := fun c hc =>
  not_isBlank_of_isNameChar (h.chars c hc)

theorem Named.head_not_gap : name.head?.any isGapChar = false := by
  obtain ⟨c, rest, rfl⟩ := List.exists_cons_of_ne_nil h.ne_nil
  have hc := h.chars c List.mem_cons_self
  by_contra hgap
  have hgap' : isGapChar c = true := by simpa using hgap
  rw [isNameChar_of_isGapChar hgap'] at hc
  exact absurd hc (by simp)

end

theorem run_keyword_none {word : String} (hword : word.toList.head?.any isGapChar = false)
    (hne : word.toList ≠ []) {there : Cursor} {next : Cursor → Option Cursor}
    (h : there.rest.head?.any isGapChar = true) : run (lit word) there next = none := by
  apply run_lit_none
  rintro ⟨rest, hrest⟩
  rw [← hrest, List.head?_append_of_ne_nil _ hne, hword] at h
  exact absurd h (by simp)

/-- The start of a line, where a statement is matched. -/
def atStart (line : Text) : Cursor := { before := none, rest := line, offset := 0, groups := [] }

theorem lineGroups_eq (p : Pattern) (line : Text) :
    p.lineGroups line
      = (((run p (atStart line) some).map fun there => (there.offset, there.groups)).filter
          fun found => !(line.take found.1).isEmpty).map (·.2) := by
  rw [lineGroups, matchStart?, matchAt, ← atStart]
  cases run p (atStart line) some with
  | none => rfl
  | some there =>
    simp only [Option.map_some, Option.filter_some, Nat.sub_zero]
    split_ifs <;> rfl

theorem run_gaps_keyword (word : String) (line : Text)
    (hword : word.toList.head?.any isGapChar = false) (hne : word.toList ≠ [])
    (hline : line.head?.any isGapChar = false) (p : Pattern) (next : Cursor → Option Cursor) :
    run (seq lineStart (seq gaps (seq (lit word) p))) (atStart line) next
      = run (lit word) (atStart line) fun there => run p there next := by
  have hgaps := run_many_skip (s := atStart line) (t := isGapChar) (x := []) (r := line)
    (k := fun there => run (seq (lit word) p) there next) rfl (by simp) hline
    (run_keyword_none hword hne)
  exact (run_lineStart rfl).trans hgaps

theorem run_dottedName (here : Cursor) :
    (run (group 1 dottedName) here some).map (fun there => (there.offset, there.groups))
      = if patternName here.rest = [] then none
        else some (here.offset + (patternName here.rest).length,
          (1, patternName here.rest) :: here.groups) := by
  have hsplit : here.rest = patternName here.rest ++ here.rest.dropWhile isNameChar :=
    List.takeWhile_append_dropWhile.symm
  rw [run]
  split_ifs with hempty
  · exact congrArg _ (run_many1_none (head_of_takeWhile_nil hempty))
  · have hmost := run_many1_most (k := fun there => some { there with
        groups := (1, here.rest.take (there.offset - here.offset)) :: there.groups })
      hsplit hempty (fun c hc => List.mem_takeWhile_imp hc)
      (head_dropWhile isNameChar here.rest) rfl
    refine (congrArg _ hmost).trans ?_
    have htaken : here.rest.take (patternName here.rest).length = patternName here.rest :=
      (List.prefix_iff_eq_take.1 (List.takeWhile_prefix isNameChar)).symm
    simp only [Option.map_some, Cursor.past_offset, Cursor.past_groups, Nat.add_sub_cancel_left,
      htaken]

theorem lineGroups_importLine {dep : Text} (hdep : dep.head?.any isGapChar = false) :
    importPattern.lineGroups (importLine dep)
      = if patternName dep = [] then none else some [(1, patternName dep)] := by
  -- the keyword and the space after it
  have hkeyword : run importPattern (atStart (importLine dep)) some
      = run gaps1 ((atStart (importLine dep)).past "import".toList (' ' :: dep) []) fun there =>
          run (group 1 dottedName) there some :=
    (run_gaps_keyword "import" (importLine dep) (by decide) (by decide) (by rfl)
      (seq gaps1 (group 1 dottedName)) some).trans (run_lit (r := ' ' :: dep) rfl)
  have hgap : run gaps1 ((atStart (importLine dep)).past "import".toList (' ' :: dep) [])
        (fun there => run (group 1 dottedName) there some)
      = run (group 1 dottedName) ((atStart (importLine dep)).past "import ".toList dep []) some := by
    have hspace : ∀ c ∈ [' '], isGapChar c = true := List.forall_mem_singleton.2 (by decide)
    refine run_many1_skip (x := [' ']) (r := dep) rfl (by simp) hspace hdep fun {there} h => ?_
    rw [run]
    refine run_many1_none ?_
    cases hrest : there.rest with
    | nil => rfl
    | cons c rest =>
      rw [hrest] at h
      exact isNameChar_of_isGapChar h
  have hname := run_dottedName ((atStart (importLine dep)).past "import ".toList dep [])
  rw [← hgap, ← hkeyword] at hname
  rw [lineGroups_eq, hname, Cursor.past_rest]
  split_ifs
  · rfl
  · have hsome (n : Nat) : ((importLine dep).take (7 + n)).isEmpty = false := by
      rw [Nat.add_comm]
      rfl
    have hoffset : ((atStart (importLine dep)).past "import ".toList dep []).offset = 7 := rfl
    rw [Option.filter_some, hoffset, hsome]
    rfl

theorem lineGroups_from_importLine (dep : Text) : fromPattern.lineGroups (importLine dep) = none := by
  have hnot : ¬"from".toList <+: importLine dep := by
    have hfrom : "from".toList = ['f', 'r', 'o', 'm'] := rfl
    have himport : importLine dep = 'i' :: ("mport ".toList ++ dep) := rfl
    rw [hfrom, himport, List.cons_prefix_cons]
    exact fun h => absurd h.1 (by decide)
  have hrun : run fromPattern (atStart (importLine dep)) some = none :=
    (run_gaps_keyword "from" (importLine dep) (by decide) (by decide) (by rfl)
      (seq gaps1 (seq (group 1 dottedName) (seq gaps1 (seq (lit "import") wordEdge)))) some).trans
      (run_lit_none hnot)
  rw [lineGroups_eq, hrun]
  rfl

/-- The patterns find the front of the name in a new statement, and nothing else. -/
theorem mem_imports_importLine {dep name : Text} (hnewline : '\n' ∉ name)
    (hgap : name.head?.any isGapChar = false) :
    dep ∈ python.imports (importLine name) ↔ dep ≠ [] ∧ patternName name = dep := by
  have hline : Text.lines (importLine name) = [importLine name] :=
    Text.splitOn_of_not_mem fun hmem => (List.mem_append.1 hmem).elim (by decide) hnewline
  have hfind {p : Pattern} (hp : p ∈ python.importPatterns) :
      (p.findAll (importLine name)).map (·.groups) = (p.lineGroups (importLine name)).toList := by
    rw [findAll_lines (oneLine_importPatterns p hp).1 (oneLine_importPatterns p hp).2, hline]
    rw [List.filterMap_cons, List.filterMap_nil]
    cases p.lineGroups (importLine name) <;> rfl
  rw [mem_imports_iff]
  refine and_congr_right fun hne => ⟨?_, ?_⟩
  · rintro ⟨p, hp, groups, hgroups, rfl⟩
    rw [hfind hp, Option.mem_toList] at hgroups
    rw [python_importPatterns] at hp
    rcases List.mem_cons.1 hp with rfl | hp
    · simp [lineGroups_from_importLine] at hgroups
    · obtain rfl := List.mem_singleton.1 hp
      rw [lineGroups_importLine hgap] at hgroups
      split_ifs at hgroups
      rw [← Option.some.inj hgroups]
      rfl
  · intro hname
    have hp : importPattern ∈ python.importPatterns := by simp [python_importPatterns]
    refine ⟨importPattern, hp, [(1, dep)], ?_, rfl⟩
    rw [hfind hp, Option.mem_toList, lineGroups_importLine hgap, hname, if_neg hne]

/-! ## What a reader makes of new statements -/

/-- A name that stands in an import statement as it is. -/
structure Clean (name : Text) : Prop where
  ne_nil : name ≠ []
  plain : ∀ c ∈ name, isPlain c = true
  not_blank : ∀ c ∈ name, isBlank c = false
  no_comma : ',' ∉ name

theorem clean_of_isDottedIdentifier {name : Text} (h : Text.isDottedIdentifier name = true) :
    Clean name where
  ne_nil := Text.ne_nil_of_isDottedIdentifier h
  plain c hc := isPlain_of_class (by decide) (Text.isIdentifierChar_of_mem h hc)
  not_blank c hc := Text.not_isBlank_of_isIdentifierChar (Text.isIdentifierChar_of_mem h hc)
  no_comma hmem := absurd (Text.isIdentifierChar_of_mem h hmem) (by decide)

theorem Clean.newline_not_mem {name : Text} (h : Clean name) : '\n' ∉ name := fun hmem =>
  (isPlain_iff.1 (h.plain _ hmem)).2.2.2.2.2 rfl

theorem Clean.head_not_gap {name : Text} (h : Clean name) : name.head?.any isGapChar = false := by
  have hgaps : ∀ d ∈ " \t".toList, isBlank d = true := List.all_eq_true.1 (by decide)
  obtain ⟨c, rest, rfl⟩ := List.exists_cons_of_ne_nil h.ne_nil
  by_contra hgap
  have hc : isGapChar c = true := by simpa using hgap
  have hblank := hgaps c (List.contains_iff_mem.1 hc)
  rw [h.not_blank c List.mem_cons_self] at hblank
  exact absurd hblank (by simp)

theorem Clean.trim_importLine {name : Text} (h : Clean name) :
    Text.trim (importLine name) = importLine name := by
  obtain ⟨c, hc⟩ := Option.ne_none_iff_exists'.1 (mt List.getLast?_eq_none_iff.1 h.ne_nil)
  have hlast : (importLine name).getLast? = some c := by
    obtain ⟨keyword, hkeyword⟩ : ∃ keyword, importLine name = keyword ++ name := ⟨_, rfl⟩
    rw [hkeyword, List.getLast?_append, hc, Option.some_or]
  have hblank := h.not_blank c (List.mem_of_getLast? hc)
  have hstart : Text.trimStart (importLine name) = importLine name :=
    Text.trimStart_of_head (c := 'i') rfl (by decide)
  rw [Text.trim, hstart]
  exact Text.trimEnd_of_getLast hlast hblank

theorem Clean.modulesOf_importLine {name : Text} (h : Clean name) :
    modulesOf (importLine name) = [name] := by
  have hfrom : Text.startsWith "from ".toList (importLine name) = false := rfl
  have himport : Text.startsWith "import ".toList (importLine name) = true := by
    rw [Text.startsWith, List.isPrefixOf_iff_prefix]
    exact List.prefix_append ..
  have hdrop : (importLine name).drop 7 = name := rfl
  rw [modulesOf, hfrom, himport, hdrop, Text.splitOn_of_not_mem h.no_comma]
  simp [Text.words_of_not_blank h.ne_nil h.not_blank]

def codes (statements : List Statement) : List Text := statements.map (·.code)

/-- The codes of new statements, the first of which goes on with what is under way. -/
def newCodes : Option Text → List Text → List Text
  | some code, first :: rest => (code ++ ' ' :: importLine first) :: rest.map importLine
  | _, names => names.map importLine

theorem feedAll_importLines {names : List Text} (h : ∀ name ∈ names, Clean name) :
    (({} : Reader).feedAll (names.map importLine)).1 = {}
      ∧ codes (({} : Reader).feedAll (names.map importLine)).2.1 = names.map importLine := by
  induction names with
  | nil => exact ⟨rfl, rfl⟩
  | cons name rest ih =>
    obtain ⟨hname, hrest⟩ := List.forall_mem_cons.1 h
    obtain ⟨hlast, hfound⟩ := ih hrest
    have hfeed := Reader.feed_plain {} rfl rfl (isPlain_importLine hname.plain)
    rw [hname.trim_importLine] at hfeed
    rw [List.map_cons, Reader.feedAll, hfeed]
    refine ⟨hlast, ?_⟩
    rw [codes, List.map_append, ← codes, ← codes, hfound]
    rfl

theorem feedAll_blank {lines : List Text} (h : ∀ line ∈ lines, line = []) :
    ({} : Reader).feedAll lines = ({}, [], true) := by
  induction lines with
  | nil => rfl
  | cons line rest ih =>
    obtain ⟨rfl, hrest⟩ := List.forall_mem_cons.1 h
    have hfeed : ({} : Reader).feed [] = ({}, [], true) := Reader.feed_nil_of_idle rfl
    simp only [Reader.feedAll, hfeed, ih hrest, List.append_nil, Bool.and_true]

theorem feedAll_idle {lead trail names : List Text} (hlead : ∀ line ∈ lead, line = [])
    (htrail : ∀ line ∈ trail, line = []) (hnames : ∀ name ∈ names, Clean name) :
    (({} : Reader).feedAll (lead ++ names.map importLine ++ trail)).1 = {}
      ∧ codes (({} : Reader).feedAll (lead ++ names.map importLine ++ trail)).2.1
        = names.map importLine := by
  obtain ⟨hlast, hfound⟩ := feedAll_importLines hnames
  obtain ⟨hone, hone'⟩ := Reader.feedAll_append {} (lead ++ names.map importLine) trail
  obtain ⟨htwo, htwo'⟩ := Reader.feedAll_append {} lead (names.map importLine)
  rw [feedAll_blank hlead] at htwo htwo'
  rw [hlast] at htwo
  rw [htwo, feedAll_blank htrail] at hone hone'
  rw [hone, hone', htwo', List.nil_append, List.append_nil]
  exact ⟨rfl, hfound⟩

/-- New statements after a reader that has no bracket and no literal open. -/
theorem feedAll_inserted {reader : Reader} (hliteral : reader.literal = none)
    (hbrackets : reader.brackets = []) {lead trail names : List Text}
    (hblank : ∀ line ∈ lead ++ trail, line = []) (hne : names ≠ [])
    (hnames : ∀ name ∈ names, Clean name) :
    (reader.feedAll (lead ++ names.map importLine ++ trail)).1 = {}
      ∧ codes (reader.feedAll (lead ++ names.map importLine ++ trail)).2.1
        = if lead = [] then newCodes (reader.current.map (·.code)) names
          else codes reader.current.toList ++ names.map importLine := by
  have htrail : ∀ line ∈ trail, line = [] := fun line hline =>
    hblank line (List.mem_append_right _ hline)
  cases lead with
  | nil =>
    obtain ⟨first, rest, rfl⟩ := List.exists_cons_of_ne_nil hne
    obtain ⟨hfirst, hrest⟩ := List.forall_mem_cons.1 hnames
    have hfeed := Reader.feed_plain reader hliteral hbrackets (isPlain_importLine hfirst.plain)
    rw [hfirst.trim_importLine] at hfeed
    obtain ⟨hlast, hfound⟩ := feedAll_idle (List.forall_mem_nil _) htrail hrest
    rw [List.nil_append] at hlast hfound
    rw [if_pos rfl, List.nil_append, List.map_cons, List.cons_append, Reader.feedAll, hfeed]
    refine ⟨hlast, ?_⟩
    rw [codes, List.map_append, ← codes, ← codes, hfound]
    cases hcurrent : reader.current <;> rfl
  | cons line lead =>
    obtain ⟨rfl, hlead⟩ := List.forall_mem_cons.1 (List.forall_mem_append.1 hblank).1
    have hfeed := Reader.feed_plain reader hliteral hbrackets (List.forall_mem_nil _)
    obtain ⟨hlast, hfound⟩ := feedAll_idle hlead htrail hnames
    rw [if_neg (by simp), List.cons_append, List.cons_append, Reader.feedAll, hfeed]
    refine ⟨hlast, ?_⟩
    rw [codes, List.map_append, ← codes, ← codes, hfound]
    cases hcurrent : reader.current <;> rfl

/-! ## Which imports the result has -/

/-- The code of an import statement that a text breaks off with a backslash, so that a line put after
it is joined to it. -/
def joinedTo (text : Text) : Option Text :=
  if (slot text).lead = [] then
    ((({} : Reader).feedAll (slot text).above).1.current).map (·.code)
  else none

theorem slot_closed {text : Text} (hfine : diagnose text = []) :
    (({} : Reader).feedAll (slot text).above).1.literal = none
      ∧ (({} : Reader).feedAll (slot text).above).1.brackets = [] := by
  rcases slot_idle text with hidle | hbelow
  · rw [hidle]
    exact ⟨rfl, rfl⟩
  · have hlines := slot_lines text
    rw [hbelow] at hlines
    have hscan : (({} : Reader).run (Text.lines text)).2 = true := by
      have hempty := (scanFrom_run {} 0 (Text.lines text)).2
      rw [← scan, (diagnose_eq_nil.1 hfine).2.1] at hempty
      exact hempty.symm
    rw [← hlines, Reader.run_append, Bool.and_eq_true] at hscan
    simpa [Reader.run, Reader.finish] using hscan.2

theorem mem_importedModules_codes {text dep : Text} :
    dep ∈ importedModules (scan text).logical
      ↔ dep ∈ (codes (({} : Reader).run (Text.lines text)).1).flatMap modulesOf := by
  rw [mem_importedModules, scan, (scanFrom_run {} 0 _).1]
  simp only [codes, List.mem_flatMap, List.mem_map, exists_exists_and_eq_and]
  rfl

theorem codes_append (a b : List Statement) : codes (a ++ b) = codes a ++ codes b := List.map_append

theorem codes_lines (text : Text) :
    codes (({} : Reader).run (Text.lines text)).1
      = codes (({} : Reader).feedAll (slot text).above).2.1
        ++ codes (({} : Reader).feedAll (slot text).above).1.current.toList
        ++ codes (({} : Reader).run (slot text).below).1 := by
  rw [← slot_lines, Reader.run_append, codes_append, List.append_assoc]
  congr 1
  rcases slot_idle text with hidle | hbelow
  · rw [hidle]
    rfl
  · rw [hbelow]
    exact (List.append_nil _).symm

section

variable {text : Text} {deps : List Text} (hfine : diagnose text = [])
  (hdeps : ∀ dep ∈ deps, Text.isDottedIdentifier dep = true) (hnew : lacking text deps ≠ [])

include hdeps in
theorem clean_of_mem_lacking {name : Text} (h : name ∈ lacking text deps) : Clean name :=
  clean_of_isDottedIdentifier (hdeps name (Dependency.mem_toInject.1 h).1)

include hfine hdeps hnew

theorem codes_injectImports :
    codes (({} : Reader).run (Text.lines (injectImports python text deps))).1
      = codes (({} : Reader).feedAll (slot text).above).2.1
        ++ (if (slot text).lead = [] then
              newCodes ((({} : Reader).feedAll (slot text).above).1.current.map (·.code))
                (lacking text deps)
            else codes (({} : Reader).feedAll (slot text).above).1.current.toList
              ++ (lacking text deps).map importLine)
        ++ codes (({} : Reader).run (slot text).below).1 := by
  have hclean : ∀ name ∈ lacking text deps, Clean name := fun name =>
    clean_of_mem_lacking hdeps
  obtain ⟨hliteral, hbrackets⟩ := slot_closed hfine
  obtain ⟨hlast, hfound⟩ := feedAll_inserted hliteral hbrackets (slot_blank text) hnew hclean
  rw [lines_injectImports hnew fun name hname => (hclean name hname).newline_not_mem,
    List.append_assoc, Reader.run_append, codes_append, Reader.run_append, codes_append, hlast,
    hfound, List.append_assoc]

theorem mem_importedModules_injectImports {dep : Text} :
    dep ∈ importedModules (scan (injectImports python text deps)).logical
      ↔ dep ∈ importedModules (scan text).logical
        ∨ dep ∈ (newCodes (joinedTo text) (lacking text deps)).flatMap modulesOf := by
  rw [mem_importedModules_codes, mem_importedModules_codes, codes_lines text,
    codes_injectImports hfine hdeps hnew, joinedTo]
  simp only [List.flatMap_append, List.mem_append]
  by_cases hlead : (slot text).lead = []
  · rw [if_pos hlead, if_pos hlead]
    cases hcurrent : (({} : Reader).feedAll (slot text).above).1.current with
    | none =>
      simp only [Option.map_none, Option.toList_none, codes, List.map_nil, List.flatMap_nil,
        List.not_mem_nil, or_false]
      exact or_right_comm
    | some c =>
      obtain ⟨first, rest, hnames⟩ := List.exists_cons_of_ne_nil hnew
      have hkept : dep ∈ (codes (some c).toList).flatMap modulesOf →
          dep ∈ (newCodes (some c.code) (first :: rest)).flatMap modulesOf := by
        intro h
        have hdep : dep ∈ modulesOf c.code := by simpa [codes] using h
        exact List.mem_flatMap.2 ⟨_, List.mem_cons_self, modulesOf_append hdep⟩
      rw [hnames, Option.map_some]
      constructor
      · rintro ((h | h) | h)
        · exact .inl (.inl (.inl h))
        · exact .inr h
        · exact .inl (.inr h)
      · rintro (((h | h) | h) | h)
        · exact .inl (.inl h)
        · exact .inl (.inr (hkept h))
        · exact .inr h
        · exact .inl (.inr h)
  · rw [if_neg hlead, if_neg hlead, List.flatMap_append, List.mem_append, ← or_assoc]
    exact or_right_comm

omit hfine in
theorem mem_imports_injectImports {dep : Text} (hdep : dep ≠ []) :
    dep ∈ python.imports (injectImports python text deps)
      ↔ dep ∈ python.imports text ∨ ∃ name ∈ lacking text deps, patternName name = dep := by
  have hclean : ∀ name ∈ lacking text deps, Clean name := fun name =>
    clean_of_mem_lacking hdeps
  have hmem {name : Text} (h : name ∈ lacking text deps) :
      dep ∈ python.imports (importLine name) ↔ patternName name = dep :=
    (mem_imports_importLine (hclean name h).newline_not_mem (hclean name h).head_not_gap).trans
      (and_iff_right hdep)
  have hblank {line : Text} (h : line ∈ (slot text).lead ++ (slot text).trail) :
      dep ∉ python.imports line := by
    rw [slot_blank text line h, mem_imports_iff]
    rintro ⟨-, p, -, groups, hgroups, -⟩
    exact absurd hgroups List.not_mem_nil
  have hlines {line : Text} : line ∈ Text.lines (injectImports python text deps)
      ↔ line ∈ Text.lines text ∨ (∃ name ∈ lacking text deps, line = importLine name)
        ∨ line ∈ (slot text).lead ++ (slot text).trail :=
    mem_lines_injectImports hnew fun name hname => (hclean name hname).plain
  have htext : dep ∈ python.imports text ↔ ∃ line ∈ Text.lines text, dep ∈ python.imports line :=
    mem_imports_iff_lines
  rw [mem_imports_iff_lines, htext]
  constructor
  · rintro ⟨line, hline, h⟩
    obtain hline | ⟨name, hname, rfl⟩ | hline := hlines.1 hline
    · exact .inl ⟨line, hline, h⟩
    · exact .inr ⟨name, hname, (hmem hname).1 h⟩
    · exact absurd h (hblank hline)
  · rintro (⟨line, hline, h⟩ | ⟨name, hname, h⟩)
    · exact ⟨line, hlines.2 (.inl hline), h⟩
    · exact ⟨importLine name, hlines.2 (.inr (.inl ⟨name, hname, rfl⟩)), (hmem hname).2 h⟩

end

/-- What new statements name: each its own name, but the first one only if it is not joined to another
statement, which may then name something else. -/
theorem mem_newCodes {joined : Option Text} {names : List Text} (hclean : ∀ name ∈ names, Clean name)
    (hnodup : names.Nodup) {dep : Text} :
    dep ∈ (newCodes joined names).flatMap modulesOf
      ↔ (dep ∈ names ∧ (joined = none ∨ names.head? ≠ some dep))
        ∨ ∃ code first, joined = some code ∧ names.head? = some first
          ∧ dep ∈ modulesOf (code ++ ' ' :: importLine first) := by
  have hlines {names : List Text} (h : ∀ name ∈ names, Clean name) :
      (names.map importLine).flatMap modulesOf = names := by
    induction names with
    | nil => rfl
    | cons name rest ih =>
      obtain ⟨hname, hrest⟩ := List.forall_mem_cons.1 h
      rw [List.map_cons, List.flatMap_cons, hname.modulesOf_importLine, ih hrest,
        List.singleton_append]
  cases joined with
  | none => simp [newCodes, hlines hclean]
  | some code =>
    cases names with
    | nil => simp [newCodes]
    | cons first rest =>
      obtain ⟨-, hrest⟩ := List.forall_mem_cons.1 hclean
      obtain ⟨hfirst, -⟩ := List.nodup_cons.1 hnodup
      rw [newCodes, List.flatMap_cons, List.mem_append, hlines hrest]
      constructor
      · rintro (h | h)
        · exact .inr ⟨code, first, rfl, rfl, h⟩
        · refine .inl ⟨List.mem_cons_of_mem _ h, .inr fun hhead => ?_⟩
          obtain rfl := Option.some.inj hhead
          exact hfirst h
      · rintro (⟨h, hnone | hhead⟩ | ⟨_, _, ⟨⟩, ⟨⟩, h⟩)
        · simp at hnone
        · rcases List.mem_cons.1 h with rfl | h
          · exact absurd rfl hhead
          · exact .inr h
        · exact .inl h

/-- Whether a requested dependency that a text lacks is read back from the result: its statement does
not occur in the text already and is not joined to another one, or a new statement names it besides,
to the patterns by the front of its name or as the continuation of another statement. -/
def ReadBack (text : Text) (deps : List Text) (dep : Text) : Prop :=
  (¬importLine dep <:+: text ∧ (joinedTo text = none ∨ (lacking text deps).head? ≠ some dep))
    ∨ (∃ name ∈ lacking text deps, patternName name = dep)
    ∨ ∃ code first, joinedTo text = some code ∧ (lacking text deps).head? = some first
      ∧ dep ∈ modulesOf (code ++ ' ' :: importLine first)

/-- The result imports a requested dependency exactly if the text does or it is read back. -/
theorem imported_injectImports_iff {text : Text} {deps : List Text} (hfine : diagnose text = [])
    (hdeps : ∀ dep ∈ deps, Text.isDottedIdentifier dep = true) {dep : Text} (hdep : dep ∈ deps) :
    dep ∈ existingImports python (injectImports python text deps)
      ↔ dep ∈ existingImports python text ∨ ReadBack text deps dep := by
  have hlacking (habsent : dep ∉ existingImports python text) :
      dep ∈ lacking text deps ↔ ¬importLine dep <:+: text := by
    rw [lacking, Dependency.mem_toInject]
    exact ⟨fun h => h.2.2, fun h => ⟨hdep, habsent, h⟩⟩
  by_cases hpresent : dep ∈ existingImports python text
  · refine iff_of_true ?_ (.inl hpresent)
    by_cases hnew : lacking text deps = []
    · rwa [injectImports_of_lacking_nil hnew]
    · exact existingImports_kept hnew
        (fun name hname => (clean_of_mem_lacking hdeps hname).plain) hpresent
  rw [or_iff_right hpresent, ReadBack, ← hlacking hpresent]
  by_cases hnew : lacking text deps = []
  · rw [injectImports_of_lacking_nil hnew, hnew]
    simp [hpresent]
  · have hne := (clean_of_isDottedIdentifier (hdeps dep hdep)).ne_nil
    rw [existingImports, List.mem_append, not_or] at hpresent
    rw [existingImports, List.mem_append, mem_imports_injectImports hdeps hnew hne,
      mem_importedModules_injectImports hfine hdeps hnew, or_iff_right hpresent.1,
      or_iff_right hpresent.2, mem_newCodes (fun name => clean_of_mem_lacking hdeps)
        (Dependency.nodup_toInject ..), or_left_comm]

/-- The statement of `foo` is a part of the statement of `foobar`, so `foo` is not injected. -/
theorem injectImports_misses_part :
    diagnose "import foobar\n".toList = []
      ∧ (∀ dep ∈ ["foo".toList], Text.isDottedIdentifier dep = true)
      ∧ injectImports python "import foobar\n".toList ["foo".toList] = "import foobar\n".toList
      ∧ "foo".toList ∉ existingImports python
        (injectImports python "import foobar\n".toList ["foo".toList]) := by
  decide +kernel

theorem imported_injectImports_iff_foo :
    diagnose "import foobar\n".toList = []
      ∧ (∀ dep ∈ ["foo".toList, "os".toList], Text.isDottedIdentifier dep = true)
      ∧ "os".toList ∈ ["foo".toList, "os".toList]
      ∧ ("os".toList ∈ existingImports python
          (injectImports python "import foobar\n".toList ["foo".toList, "os".toList])
        ↔ "os".toList ∈ existingImports python "import foobar\n".toList
          ∨ ReadBack "import foobar\n".toList ["foo".toList, "os".toList] "os".toList) := by
  have hfine : diagnose "import foobar\n".toList = [] := by decide +kernel
  have hdeps : ∀ dep ∈ ["foo".toList, "os".toList], Text.isDottedIdentifier dep = true := by
    decide +kernel
  exact ⟨hfine, hdeps, by decide, imported_injectImports_iff hfine hdeps (by decide)⟩

end SourceLens.Indented
