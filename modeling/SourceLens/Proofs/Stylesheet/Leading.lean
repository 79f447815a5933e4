import SourceLens.Proofs.Stylesheet.Injection
import SourceLens.Proofs.Stylesheet.UseRules
import SourceLens.Proofs.Text.Blanks

/-!
# Imports that lead a sheet

Whether imports come first is read off the lines of a sheet without its comments, and lines that are
imports or passive do not count while they lead (`importsLead_append`). New statements are put
behind a line of the sheet, whose number is taken from the lines without comments. Stripping keeps
every line feed (`count_stripComments`), so it is the same line. Lines put in there stand in the
stripped sheet as they are, or they fall inside a comment and leave blank lines
(`stripComments_insert`): they hold no sign of a comment, so they open and close none. Either way the
verdict stays (`importsValid_inject`).
-/

namespace SourceLens.Stylesheet

open Pattern Descriptor

/-! ## Lines that lead -/

def Leads (line : Text) : Prop := startsImport line = true ∨ isPassive line = true

theorem importsLead_append {front : List Text} (h : ∀ line ∈ front, Leads line) (back : List Text) :
    importsLead false (front ++ back) = importsLead false back := by
  induction front with
  | nil => rfl
  | cons line front ih =>
    obtain ⟨hline, hfront⟩ := List.forall_mem_cons.1 h
    rw [List.cons_append, importsLead]
    split_ifs with himport
    · exact ih hfront
    · rw [hline.resolve_left himport]
      exact ih hfront

theorem lastImport_eq_some {lines : List Text} :
    ∀ {i k : Nat}, lastImport i lines = some k →
      ∃ front back, lines = front ++ back ∧ i + front.length = k + 1
        ∧ ∀ line ∈ front, Leads line := by
  induction lines with
  | nil =>
    intro i k h
    exact absurd h (by simp [lastImport])
  | cons line rest ih =>
    intro i k h
    rw [lastImport] at h
    split_ifs at h with himport hpassive
    · cases hrest : lastImport (i + 1) rest with
      | none =>
        rw [hrest] at h
        obtain rfl : i = k := Option.some.inj h
        exact ⟨[line], rest, rfl, rfl, List.forall_mem_singleton.2 (.inl himport)⟩
      | some j =>
        rw [hrest] at h
        obtain rfl : j = k := Option.some.inj h
        obtain ⟨front, back, rfl, hlength, hfront⟩ := ih hrest
        refine ⟨line :: front, back, rfl, ?_, List.forall_mem_cons.2 ⟨.inl himport, hfront⟩⟩
        rw [List.length_cons]
        omega
    · obtain ⟨front, back, rfl, hlength, hfront⟩ := ih h
      refine ⟨line :: front, back, rfl, ?_, List.forall_mem_cons.2 ⟨.inr hpassive, hfront⟩⟩
      rw [List.length_cons]
      omega

/-! ## Comments and lines put in -/

def opening : Text := ['/', '*']

def LineEnd (tail : Text) : Prop := tail = [] ∨ ∃ rest, tail = '\n' :: rest

theorem infix_insert {sign x ins tail : Text} (hsign : '\n' ∉ sign) (hins : ¬sign <:+: ins)
    (htail : LineEnd tail) : sign <:+: x ++ '\n' :: (ins ++ tail) ↔ sign <:+: x ++ tail := by
  rw [Text.infix_iff_lines hsign] at hins ⊢
  rw [Text.infix_iff_lines hsign, Text.lines_append]
  rcases htail with rfl | ⟨rest, rfl⟩
  · simp only [List.append_nil, List.mem_append, or_and_right, exists_or, hins, or_false]
  · simp only [Text.lines_append, List.mem_append, or_and_right, exists_or, hins, false_or]

theorem stripComments_comment {x : Text} (hx : IsComment x) (rest : Text) :
    stripComments (x ++ rest) = x.filter (· = '\n') ++ stripComments rest :=
  finds_comment.replaceAll_piece hx _ rest

theorem stripComments_char {c : Char} {rest : Text} (h : ¬Ahead IsComment (c :: rest)) :
    stripComments (c :: rest) = c :: stripComments rest :=
  finds_comment.replaceAll_char h _

theorem stripComments_newline (rest : Text) :
    stripComments ('\n' :: rest) = '\n' :: stripComments rest := by
  apply stripComments_char
  rw [ahead_comment_iff]
  rintro ⟨after, htext, -⟩
  exact absurd (List.cons.inj htext).1 (by decide)

theorem count_filter_newline (x : Text) : (x.filter (· = '\n')).count '\n' = x.count '\n' :=
  List.count_filter (by decide)

theorem count_stripComments (text : Text) : (stripComments text).count '\n' = text.count '\n' := by
  induction text using piece_induction finds_comment.ne_nil with
  | nil => rfl
  | take x rest hx ih =>
    rw [stripComments_comment hx, List.count_append, List.count_append, ih, count_filter_newline]
  | pass c rest hc ih => rw [stripComments_char hc, List.count_cons, List.count_cons, ih]

theorem stripComments_append {ins tail : Text} (hins : ¬opening <:+: ins) (htail : LineEnd tail) :
    stripComments (ins ++ tail) = ins ++ stripComments tail := by
  induction ins with
  | nil => rfl
  | cons c ins ih =>
    have hnone : ¬Ahead IsComment (c :: (ins ++ tail)) := by
      rw [ahead_comment_iff]
      rintro ⟨rest, htext, -⟩
      obtain ⟨rfl, hrest⟩ := List.cons.inj htext
      cases ins with
      | nil =>
        rcases htail with rfl | ⟨t, rfl⟩
        · exact absurd hrest (by simp)
        · exact absurd (List.cons.inj hrest).1 (by decide)
      | cons d ins =>
        obtain ⟨rfl, -⟩ := List.cons.inj hrest
        exact hins ⟨[], ins, rfl⟩
    have hlater : ¬opening <:+: ins := fun h => hins (List.infix_cons_iff.2 (.inr h))
    rw [List.cons_append, stripComments_char hnone, ih hlater, List.cons_append]

theorem isComment_insert {x u ins : Text} (hins : ¬closing <:+: ins)
    (h : IsComment (x ++ '\n' :: u)) : IsComment (x ++ '\n' :: (ins ++ '\n' :: u)) := by
  obtain ⟨z, htext, hclosed⟩ := h
  -- the line feed stands behind the opening sign
  obtain ⟨y, rfl⟩ : ∃ y, x = '/' :: '*' :: y := by
    rcases x with - | ⟨c, - | ⟨d, y⟩⟩
    · exact absurd (List.cons.inj htext).1 (by decide)
    · exact absurd (List.cons.inj (List.cons.inj htext).2).1 (by decide)
    · obtain ⟨rfl, hrest⟩ := List.cons.inj htext
      obtain ⟨rfl, -⟩ := List.cons.inj hrest
      exact ⟨y, rfl⟩
  have hbody : y ++ '\n' :: u = z ++ closing := (List.cons.inj (List.cons.inj htext).2).2
  -- and before the closing one
  obtain ⟨v, rfl, rfl⟩ : ∃ v, z = y ++ '\n' :: v ∧ u = v ++ closing := by
    rcases List.append_eq_append_iff.1 hbody with ⟨w, hw, hu⟩ | ⟨w, -, hw⟩
    · cases w with
      | nil => exact absurd (List.cons.inj hu).1 (by decide)
      | cons c v =>
        obtain ⟨rfl, rfl⟩ := List.cons.inj hu
        exact ⟨v, hw, rfl⟩
    · have hmem : '\n' ∈ closing := by simp [hw]
      exact absurd hmem (by decide)
  refine ⟨y ++ '\n' :: (ins ++ '\n' :: v), by simp, ?_⟩
  have htail : LineEnd ('\n' :: (v ++ ['*'])) := .inr ⟨_, rfl⟩
  have hinsert := infix_insert (x := y) (by decide) hins htail
  simp only [List.append_assoc, List.cons_append] at hclosed ⊢
  rwa [hinsert]

/-- A text is put into another one behind a number of line feeds, on lines of its own, as it is or
as blank lines. -/
def PutInto (ins : Text) (feeds : Nat) (before after : Text) : Prop :=
  ∃ a n t, before = a ++ t ∧ after = a ++ '\n' :: (n ++ t) ∧ LineEnd t
    ∧ (n = ins ∨ n = ins.filter (· = '\n')) ∧ a.count '\n' = feeds

theorem PutInto.append {ins before after : Text} {feeds : Nat} (h : PutInto ins feeds before after)
    (front : Text) :
    PutInto ins (front.count '\n' + feeds) (front ++ before) (front ++ after) := by
  obtain ⟨a, n, t, rfl, rfl, ht, hn, hfeeds⟩ := h
  exact ⟨front ++ a, n, t, by simp, by simp, ht, hn, by rw [List.count_append, hfeeds]⟩

theorem not_ahead_insert {c : Char} {x ins tail : Text} (hins : ¬closing <:+: ins)
    (htail : LineEnd tail) (h : ¬Ahead IsComment (c :: (x ++ tail))) :
    ¬Ahead IsComment (c :: (x ++ '\n' :: (ins ++ tail))) := by
  rw [ahead_comment_iff] at h ⊢
  rintro ⟨rest, htext, hclosing⟩
  obtain ⟨rfl, hrest⟩ := List.cons.inj htext
  cases x with
  | nil => exact absurd (List.cons.inj hrest).1 (by decide)
  | cons d x =>
    rw [List.cons_append] at hrest
    obtain ⟨rfl, rfl⟩ := List.cons.inj hrest
    exact h ⟨x ++ tail, rfl, (infix_insert (by decide) hins htail).1 hclosing⟩

/-- Lines put in behind a line are put into the text without comments. -/
theorem stripComments_insert {ins : Text} (hopen : ¬opening <:+: ins) (hclose : ¬closing <:+: ins)
    (text : Text) :
    ∀ {x tail : Text}, text = x ++ tail → LineEnd tail →
      PutInto ins (x.count '\n') (stripComments (x ++ tail))
        (stripComments (x ++ '\n' :: (ins ++ tail))) := by
  -- at a line end outside comments, the new lines stand outside comments
  have hend {tail : Text} (htail : LineEnd tail) :
      PutInto ins 0 (stripComments tail) (stripComments ('\n' :: (ins ++ tail))) := by
    refine ⟨[], ins, stripComments tail, rfl, ?_, ?_, .inl rfl, rfl⟩
    · rw [stripComments_newline, stripComments_append hopen htail]
      rfl
    · rcases htail with rfl | ⟨rest, rfl⟩
      · exact .inl rfl
      · exact .inr ⟨_, stripComments_newline rest⟩
  induction text using piece_induction finds_comment.ne_nil with
  | nil =>
    intro x tail htext htail
    obtain ⟨rfl, rfl⟩ := List.append_eq_nil_iff.1 htext.symm
    exact hend htail
  | take y rest hy ih =>
    intro x tail htext htail
    have hbehind (z : Text) (hx : x = y ++ z) (hrest : rest = z ++ tail) :
        PutInto ins (x.count '\n') (stripComments (x ++ tail))
          (stripComments (x ++ '\n' :: (ins ++ tail))) := by
      have hlater := (ih hrest htail).append (y.filter (· = '\n'))
      rw [count_filter_newline] at hlater
      rw [hx, List.append_assoc, List.append_assoc, stripComments_comment hy,
        stripComments_comment hy, List.count_append]
      exact hlater
    rcases List.append_eq_append_iff.1 htext with ⟨z, hx, hrest⟩ | ⟨u, hyu, htail'⟩
    · exact hbehind z hx hrest
    · cases u with
      | nil =>
        rw [List.append_nil] at hyu
        exact hbehind [] (by simp [hyu]) (by simpa using htail'.symm)
      | cons c u =>
        -- the line ends inside the comment, which takes in the new lines
        obtain rfl : c = '\n' := by
          rcases htail with rfl | ⟨after, rfl⟩
          · exact absurd htail' (by simp)
          · exact (List.cons.inj htail').1.symm
        rw [hyu] at hy
        have hlong := isComment_insert hclose hy
        have hbefore : x ++ tail = (x ++ '\n' :: u) ++ rest := by simp [htail']
        have hafter : x ++ '\n' :: (ins ++ tail) = (x ++ '\n' :: (ins ++ '\n' :: u)) ++ rest := by
          simp [htail']
        refine ⟨x.filter (· = '\n'), ins.filter (· = '\n'),
          '\n' :: (u.filter (· = '\n') ++ stripComments rest), ?_, ?_, .inr ⟨_, rfl⟩, .inr rfl,
          count_filter_newline x⟩
        · rw [hbefore, stripComments_comment hy]
          simp
        · rw [hafter, stripComments_comment hlong]
          simp
  | pass c rest hc ih =>
    intro x tail htext htail
    cases x with
    | nil => exact hend htail
    | cons d x =>
      rw [List.cons_append] at htext
      obtain ⟨rfl, hrest⟩ := List.cons.inj htext
      have hlater := (ih hrest htail).append [c]
      rw [hrest] at hc
      rw [List.cons_append, List.cons_append, stripComments_char hc,
        stripComments_char (not_ahead_insert hclose htail hc), ← List.singleton_append,
        List.count_append]
      exact hlater

/-! ## The new statements -/

theorem infix_of_importLine {a b : Char} {dep : Text} (ha : a ∉ "@import ';".toList)
    (hb : b ∉ "@import ';".toList) (h : [a, b] <:+: importLine dep) : [a, b] <:+: dep := by
  have hquote : '\'' ∉ [a, b].tail := by
    rintro hmem
    obtain rfl := List.mem_singleton.1 hmem
    exact absurd hb (by decide)
  have hframe {part : Text} (hpart : part ⊆ "@import ';".toList) : ¬[a, b] <:+: part := fun hin =>
    ha (hpart (hin.subset List.mem_cons_self))
  rw [importLine_eq] at h
  have hbehind := (Text.infix_append_cons hquote h).resolve_left (hframe (by decide))
  rcases List.infix_cons_iff.1 hbehind with hstart | hinner
  · obtain ⟨rfl, -⟩ := List.cons_prefix_cons.1 hstart
    exact absurd ha (by decide)
  · exact (Text.infix_append_cons (v := [';']) hquote hinner).resolve_right (hframe (by decide))

theorem startsImport_trim_importLine (dep : Text) :
    startsImport (Text.trim (importLine dep)) = true := by
  have hstart : Text.trimStart (importLine dep) = importLine dep :=
    Text.trimStart_of_head (c := '@') rfl (by decide)
  have hlast : (importLine dep).getLast? = some ';' := List.getLast?_append_of_ne_nil _ (by decide)
  have hkeyword : "@import".toList <+: importLine dep := ⟨" '".toList ++ dep ++ "';".toList, rfl⟩
  rw [Text.trim, hstart, Text.trimEnd_of_getLast hlast (by decide), startsImport, Text.startsWith,
    List.isPrefixOf_iff_prefix.2 hkeyword, Bool.true_or]

theorem leads_of_newlines {text : Text} (h : ∀ c ∈ text, c = '\n') :
    ∀ line ∈ (Text.lines text).map Text.trim, Leads line := by
  rw [List.forall_mem_map]
  intro line hline
  have hempty : line = [] := by
    rw [List.eq_nil_iff_forall_not_mem]
    intro c hc
    have hfeed := h c ((Text.infix_of_mem_lines hline).subset hc)
    exact Text.newline_not_mem_lines hline (hfeed ▸ hc)
  rw [hempty]
  exact .inr rfl

section

variable {names : List Text} (hne : names ≠ [])
  (hnames : ∀ dep ∈ names, '\n' ∉ dep ∧ ¬opening <:+: dep ∧ ¬closing <:+: dep)

include hne hnames

theorem lines_generateImports : Text.lines (generateImports names) = names.map importLine := by
  refine Text.lines_unlines (mt List.map_eq_nil_iff.1 hne) (List.forall_mem_map.2 ?_)
  intro dep hdep
  rw [importLine_eq]
  simp [(hnames dep hdep).1]

theorem opening_not_infix : ¬opening <:+: generateImports names := by
  rw [Text.infix_iff_lines (by decide), lines_generateImports hne hnames]
  rintro ⟨line, hline, hopen⟩
  obtain ⟨dep, hdep, rfl⟩ := List.mem_map.1 hline
  exact (hnames dep hdep).2.1 (infix_of_importLine (by decide) (by decide) hopen)

theorem closing_not_infix : ¬closing <:+: generateImports names := by
  rw [Text.infix_iff_lines (by decide), lines_generateImports hne hnames]
  rintro ⟨line, hline, hclose⟩
  obtain ⟨dep, hdep, rfl⟩ := List.mem_map.1 hline
  exact (hnames dep hdep).2.2 (infix_of_importLine (by decide) (by decide) hclose)

theorem leads_generateImports :
    ∀ line ∈ (Text.lines (generateImports names)).map Text.trim, Leads line := by
  rw [lines_generateImports hne hnames, List.map_map, List.forall_mem_map]
  exact fun dep _ => .inl (startsImport_trim_importLine dep)

end

/-! ## The verdict -/

theorem length_plainLines (text : Text) : (plainLines text).length = (Text.lines text).length := by
  rw [plainLines, List.length_map, Text.lines, Text.lines, Text.length_splitOn, Text.length_splitOn,
    count_stripComments]

theorem exists_cut (text ins : Text) {k : Nat} (hk : 0 < k) :
    ∃ x tail, text = x ++ tail ∧ LineEnd tail ∧ Text.lines x = (Text.lines text).take k
      ∧ Text.unlines ((Text.lines text).take k ++ ins :: (Text.lines text).drop k)
        = x ++ '\n' :: (ins ++ tail) := by
  have htake : (Text.lines text).take k ≠ [] := by
    rw [ne_eq, List.take_eq_nil_iff]
    rintro (hzero | hnil)
    · omega
    · exact Text.lines_ne_nil text hnil
  have hx : Text.lines (Text.unlines ((Text.lines text).take k)) = (Text.lines text).take k :=
    Text.lines_unlines htake fun line hline =>
      Text.newline_not_mem_lines (List.mem_of_mem_take hline)
  have htext := Text.unlines_lines text
  rw [← List.take_append_drop k (Text.lines text)] at htext
  rw [Text.unlines_append htake (List.cons_ne_nil _ _)]
  by_cases hdrop : (Text.lines text).drop k = []
  · refine ⟨Text.unlines ((Text.lines text).take k), [], ?_, .inl rfl, hx, ?_⟩
    · rw [hdrop, List.append_nil] at htext
      rw [List.append_nil, htext]
    · rw [hdrop]
      simp [Text.unlines, Text.join]
  · refine ⟨Text.unlines ((Text.lines text).take k),
      '\n' :: Text.unlines ((Text.lines text).drop k), ?_, .inr ⟨_, rfl⟩, hx, ?_⟩
    · rw [← Text.unlines_append htake hdrop, htext]
    · rw [Text.unlines_cons ins hdrop]

theorem lines_of_lineEnd {t : Text} (h : LineEnd t) :
    ∃ below, ∀ a, Text.lines (a ++ t) = Text.lines a ++ below := by
  rcases h with rfl | ⟨rest, rfl⟩
  · exact ⟨[], fun a => by rw [List.append_nil, List.append_nil]⟩
  · exact ⟨Text.lines rest, fun a => Text.lines_append a rest⟩

theorem plainLines_injectImports {text : Text} {deps : List Text} (hne : lacking text deps ≠ [])
    (hnames : ∀ dep ∈ lacking text deps, '\n' ∉ dep ∧ ¬opening <:+: dep ∧ ¬closing <:+: dep) :
    ∃ front new back, plainLines text = front ++ back
      ∧ plainLines (injectImports css text deps) = front ++ new ++ back
      ∧ (∀ line ∈ front, Leads line) ∧ ∀ line ∈ new, Leads line := by
  have hopen := opening_not_infix hne hnames
  have hclose := closing_not_infix hne hnames
  have hlead := leads_generateImports hne hnames
  rw [injectImports, ← lacking, if_neg (mt List.isEmpty_iff.1 hne)]
  cases hlast : lastImport 0 (plainLines text) with
  | none =>
    refine ⟨[], (Text.lines (generateImports (lacking text deps))).map Text.trim ++ [[]],
      plainLines text, rfl, ?_, List.forall_mem_nil _, ?_⟩
    · have htop : generateImports (lacking text deps) ++ "\n\n".toList ++ text
          = generateImports (lacking text deps) ++ '\n' :: ('\n' :: text) := by simp
      simp only [htop]
      rw [plainLines, stripComments_append hopen (.inr ⟨_, rfl⟩), stripComments_newline,
        stripComments_newline, Text.lines_append, Text.lines_cons_newline, plainLines]
      simp [Text.trim, Text.trimStart, Text.trimEnd]
    · exact List.forall_mem_append.2 ⟨hlead, List.forall_mem_singleton.2 (.inr rfl)⟩
  | some i =>
    obtain ⟨front, back, hplain, hlength, hfront⟩ := lastImport_eq_some hlast
    obtain ⟨x, tail, htext, htail, hx, hresult⟩ :=
      exists_cut text (generateImports (lacking text deps)) (Nat.succ_pos i)
    obtain ⟨a, n, t, hbefore, hafter, ht, hn, hfeeds⟩ :=
      stripComments_insert hopen hclose text htext htail
    obtain ⟨below, hbelow⟩ := lines_of_lineEnd ht
    have hplain' : plainLines text = (Text.lines a).map Text.trim ++ below.map Text.trim := by
      rw [plainLines, htext, hbefore, hbelow, List.map_append]
    -- the cut text has as many lines in front as the sheet has up to its last leading import
    have hlines : (Text.lines a).length = front.length := by
      have hle := congrArg List.length hplain
      rw [length_plainLines, List.length_append] at hle
      have hcount := congrArg List.length hx
      rw [List.length_take, Text.lines, Text.length_splitOn, ← hfeeds, ← Text.length_splitOn,
        ← Text.lines] at hcount
      omega
    have hcut := List.append_inj (hplain.symm.trans hplain')
      (by rw [List.length_map, hlines])
    refine ⟨front, (Text.lines n).map Text.trim, back, hplain, ?_, hfront, ?_⟩
    · simp only [hresult]
      rw [plainLines, hafter, Text.lines_append, hbelow, List.map_append, List.map_append, ← hcut.1,
        ← hcut.2, List.append_assoc]
    · rcases hn with rfl | rfl
      · exact hlead
      · exact leads_of_newlines fun c hc => of_decide_eq_true (List.mem_filter.1 hc).2

/-- Injecting dependencies does not change whether the imports of a sheet come first. -/
theorem importsValid_inject (text : Text) {deps : List Text}
    (hdeps : ∀ dep ∈ deps, '\n' ∉ dep ∧ ¬"/*".toList <:+: dep ∧ ¬"*/".toList <:+: dep) :
    importsValid (injectImports css text deps) = importsValid text := by
  by_cases hne : lacking text deps = []
  · rw [injectImports_of_lacking_nil hne]
  · obtain ⟨front, new, back, hplain, hplain', hfront, hnew⟩ := plainLines_injectImports hne
      fun dep hdep => hdeps dep (Dependency.mem_toInject.1 hdep).1
    rw [importsValid, importsValid, hplain, hplain', List.append_assoc, importsLead_append hfront,
      importsLead_append hnew, importsLead_append hfront]

/-- The new statement falls inside a comment, and another import comes too late. -/
theorem importsValid_inject_commented :
    (∀ dep ∈ ["a".toList, "b".toList],
        '\n' ∉ dep ∧ ¬"/*".toList <:+: dep ∧ ¬"*/".toList <:+: dep)
      ∧ injectImports css "@import 'a'; /*\n*/ p\n@use 'c';".toList ["a".toList, "b".toList]
        = "@import 'a'; /*\n@import 'b';\n*/ p\n@use 'c';".toList
      ∧ importsValid "@import 'a'; /*\n*/ p\n@use 'c';".toList = false
      ∧ importsValid
          (injectImports css "@import 'a'; /*\n*/ p\n@use 'c';".toList ["a".toList, "b".toList])
        = importsValid "@import 'a'; /*\n*/ p\n@use 'c';".toList := by
  have hdeps : ∀ dep ∈ ["a".toList, "b".toList],
      '\n' ∉ dep ∧ ¬"/*".toList <:+: dep ∧ ¬"*/".toList <:+: dep := by decide
  exact ⟨hdeps, by decide +kernel, by decide +kernel, importsValid_inject _ hdeps⟩

end SourceLens.Stylesheet
