import SourceLens.Proofs.Indented.Literals
import SourceLens.Proofs.Indented.Names
import SourceLens.Proofs.Indented.Nesting

/-!
# The structure rule and the outline

`structureValid` looks for classes and constructors among the logical lines of a block, with patterns
of its own; the outline gives ranges of lines. In a text without problems both find the same classes
and constructors, if its only blanks are spaces, tabs and line feeds: a header that is complete has a
name, and the gaps of all patterns are the same then. A line starts in the range of a block exactly if
it is the header or in the block, so the rule can be read off the outline (`structureValid_iff`).
-/

namespace SourceLens

namespace Indented

open Pattern Descriptor

/-! ## The characters of code -/

def Spaced (code : Text) : Prop := ∀ c ∈ code, isBlank c = true → c = ' ' ∨ c = '\t'

theorem Spaced.of_append {x y : Text} (h : Spaced (x ++ y)) : Spaced x ∧ Spaced y :=
  List.forall_mem_append.1 h

theorem Spaced.isGap {x : Text} (h : Spaced x) (hx : ∀ c ∈ x, isBlank c = true) : IsGap x :=
  fun c hc => h c hc (hx c hc)

theorem mem_codeOf_lex {mode : Mode} {text : Text} {c : Char} (h : c ∈ codeOf (lex mode text).1) :
    c = '"' ∨ c ∈ text := by
  obtain ⟨mark, hmark, hc⟩ := List.mem_flatMap.1 h
  rw [Mark.code] at hc
  cases hrole : mark.role with
  | code =>
    obtain rfl : c = mark.char := by simpa [hrole] using hc
    rw [← map_char_lex mode text]
    exact .inr (List.mem_map_of_mem hmark)
  | opening => exact .inl (by simpa [hrole] using hc)
  | literal | comment => simp [hrole] at hc

theorem mem_of_mem_joinable {code : Text} {c : Char} (h : c ∈ (joinable code).1) : c ∈ code := by
  rw [joinable] at h
  split_ifs at h
  · obtain ⟨v, -, hv⟩ := Text.trimEnd_spec (Text.trim code).dropLast
    have hmem : c ∈ (Text.trim code).dropLast := by
      rw [hv]
      exact List.mem_append_left v h
    exact Text.mem_trim (List.dropLast_subset _ hmem)
  · exact Text.mem_trim h

theorem spaced_underway {pending : Pending} (hcurrent : ∀ c ∈ pending.current, Spaced c.code)
    {text : Text} (htext : Spaced text) {i : Nat} {entry : LogicalLine}
    (h : pending.underway i text = some entry) : Spaced entry.code := by
  have hpiece : Spaced (joinable (pending.reader.codeIn text)).1 := by
    intro c hc hblank
    rcases mem_codeOf_lex (mem_of_mem_joinable hc) with rfl | hmem
    · exact absurd hblank (by decide)
    · exact htext c hmem hblank
  rw [Pending.underway] at h
  cases hd : pending.current with
  | none =>
    rw [hd, extend] at h
    split_ifs at h
    obtain rfl := Option.some.inj h
    exact hpiece
  | some d =>
    rw [hd, extend] at h
    obtain rfl := Option.some.inj h
    have hd' : Spaced d.code := hcurrent d hd
    simp only
    split_ifs
    · exact hd'
    · exact List.forall_mem_append.2 ⟨hd', List.forall_mem_cons.2 ⟨fun _ => .inl rfl, hpiece⟩⟩

theorem spaced_of_mem_scanFrom (texts : List Text) :
    ∀ {pending : Pending} {i : Nat}, (∀ text ∈ texts, Spaced text) →
      (∀ c ∈ pending.current, Spaced c.code) →
      ∀ entry ∈ (scanFrom pending i texts).logical, Spaced entry.code := by
  induction texts with
  | nil =>
    intro pending i _ hcurrent entry hentry
    exact hcurrent entry (by simpa [scanFrom, Pending.finish] using hentry)
  | cons text rest ih =>
    intro pending i htexts hcurrent entry hentry
    obtain ⟨htext, hrest⟩ := List.forall_mem_cons.1 htexts
    obtain ⟨hnext, hfound⟩ := feed_logical pending i text
    rw [scanFrom_cons] at hentry
    rcases List.mem_append.1 hentry with hentry | hentry
    · rw [hfound] at hentry
      split_ifs at hentry
      · exact spaced_underway hcurrent htext (Option.mem_toList.1 hentry)
      · simp at hentry
    · refine ih hrest (fun c hc => ?_) entry hentry
      rw [hnext] at hc
      split_ifs at hc
      · simp at hc
      · exact spaced_underway hcurrent htext hc

theorem spaced_of_mem_scan {text : Text}
    (hblank : ∀ c ∈ text, isBlank c = true → c = ' ' ∨ c = '\t' ∨ c = '\n') {entry : LogicalLine}
    (h : entry ∈ (scan text).logical) : Spaced entry.code := by
  refine spaced_of_mem_scanFrom (Text.lines text) (fun line hline c hc hc' => ?_) (by simp) entry h
  rcases hblank c ((Text.infix_of_mem_lines hline).subset hc) hc' with hspace | htab | hnewline
  · exact .inl hspace
  · exact .inr htab
  · exact absurd (hnewline ▸ hc) (Text.newline_not_mem_lines hline)

/-! ## Complete headers have names -/

theorem begins_name {p : Pattern} {before : Option Char} {text : Text} (hspaced : Spaced text)
    (hp : ∀ {before rest}, Spaced rest → p.Begins before rest → EndsWord rest)
    (h : (seq blanks1 (seq (many1 wordChar) (seq blanks p))).Begins before text) :
    ∃ name, NameBehind name text := by
  obtain ⟨space, rest, rfl, hspace, h⟩ := begins_seq.1 h
  obtain ⟨name, rest, rfl, hname, h⟩ := begins_seq.1 h
  obtain ⟨gap, rest, rfl, hgap, h⟩ := begins_seq.1 h
  obtain ⟨hspace_ne, hspace⟩ := spans_many1_one.1 hspace
  obtain ⟨hname_ne, hname⟩ := spans_many1_one.1 hname
  obtain ⟨hfront, hback⟩ := hspaced.of_append
  obtain ⟨hmiddle, hrest⟩ := hback.of_append.2.of_append
  refine ⟨name, space, gap ++ rest, hfront.isGap hspace, hspace_ne, hname_ne, hname, ?_, rfl⟩
  cases gap with
  | nil => exact hp hrest h
  | cons c gap =>
    exact not_isWord_of_isGap (hmiddle.isGap (spans_many_one.1 hgap)) List.mem_cons_self

theorem endsWord_of_begins_lit {text : String} (h : text.toList.head?.any isWord = false)
    (hne : text.toList ≠ []) {p : Pattern} {before : Option Char} {rest : Text}
    (hbegins : (seq (lit text) p).Begins before rest) : EndsWord rest := by
  obtain ⟨y, rest, rfl, hy, -⟩ := begins_seq.1 hbegins
  rw [spans_lit] at hy
  rw [EndsWord, hy, List.head?_append_of_ne_nil _ hne, h]

theorem begins_defWords_iff {p : Pattern} {before : Option Char} {code : Text} (hspaced : Spaced code) :
    (seq optAsync (seq (lit "def") p)).Begins before code
      ↔ ∃ words rest, DefWords words ∧ code = words ++ rest ∧ p.Begins (lastOf before words) rest := by
  constructor
  · intro h
    obtain ⟨a, rest, rfl, ha, h⟩ := begins_seq.1 h
    obtain ⟨d, rest, rfl, hd, h⟩ := begins_seq.1 h
    rw [spans_lit] at hd
    rw [← lastOf_append] at h
    refine ⟨a ++ d, rest, ?_, (List.append_assoc a d rest).symm, h⟩
    rcases spans_opt.1 ha with ⟨y, gap, rfl, hy, hgap⟩ | rfl
    · obtain ⟨hne, hgap⟩ := spans_many1_one.1 hgap
      rw [spans_lit] at hy
      exact .inr ⟨gap, hspaced.of_append.1.of_append.2.isGap hgap, hne,
        by rw [hy, hd, List.append_assoc]⟩
    · exact .inl hd
  · rintro ⟨words, rest, rfl | ⟨gap, hgap, hne, rfl⟩, rfl, h⟩
    · exact begins_seq.2 ⟨[], _, rfl, spans_opt.2 (.inr rfl),
        begins_seq.2 ⟨_, rest, rfl, spans_lit.2 rfl, h⟩⟩
    · rw [← List.append_assoc, lastOf_append] at h
      have hasync : (chain [lit "async", blanks1]).Spans before ("async".toList ++ gap)
          ("def".toList ++ rest) :=
        ⟨_, gap, rfl, spans_lit.2 rfl, spans_many1_one.2 ⟨hne, isBlank_of_isGap hgap⟩⟩
      exact begins_seq.2 ⟨_, "def".toList ++ rest, by simp, spans_opt.2 (.inl hasync),
        begins_seq.2 ⟨_, rest, rfl, spans_lit.2 rfl, h⟩⟩

theorem exists_defNamed {code : Text} (hspaced : Spaced code)
    (h : defStatement.startsAt code = true) : ∃ name, DefNamed name code := by
  obtain ⟨words, rest, hwords, rfl, hbegins⟩ := (begins_defWords_iff hspaced).1 (startsAt_iff.1 h)
  have hbracket : "(".toList.head?.any isWord = false := by decide
  obtain ⟨name, hname⟩ := begins_name hspaced.of_append.2
    (fun _ => endsWord_of_begins_lit hbracket (by decide)) hbegins
  exact ⟨name, words, rest, hwords, hname, rfl⟩

theorem initStatement_iff {code : Text} (hspaced : Spaced code) :
    initStatement.startsAt code = true ↔ DefNamed "__init__".toList code := by
  have hedge (before : Option Char) :
      (lastOf before "__init__".toList).any isWord = true := (by decide : isWord '_' = true)
  refine startsAt_iff.trans ((begins_defWords_iff hspaced).trans ⟨?_, ?_⟩)
  · rintro ⟨words, rest, hwords, rfl, h⟩
    obtain ⟨space, rest, rfl, hspace, h⟩ := begins_seq.1 h
    obtain ⟨name, rest, rfl, hname, y, tail, rfl, rfl, hend⟩ := begins_seq.1 h
    obtain ⟨hne, hblank⟩ := spans_many1_one.1 hspace
    obtain rfl := spans_lit.1 hname
    rw [hedge] at hend
    have hend : EndsWord tail := by simpa [EndsWord] using hend
    refine ⟨words, _, hwords, ⟨space, tail, ?_, hne, by decide, ?_, hend, rfl⟩, rfl⟩
    · exact hspaced.of_append.2.of_append.1.isGap hblank
    · exact List.all_eq_true.1 (by decide)
  · rintro ⟨words, _, hwords, ⟨space, tail, hspace, hne, -, -, hend, rfl⟩, rfl⟩
    refine ⟨words, _, hwords, rfl, ?_⟩
    refine begins_seq.2 ⟨space, _, rfl, spans_many1_one.2 ⟨hne, isBlank_of_isGap hspace⟩, ?_⟩
    refine begins_seq.2 ⟨_, tail, rfl, spans_lit.2 rfl, [], tail, rfl, rfl, ?_⟩
    rw [hedge, hend]
    rfl

theorem nameBy_classStart {name rest : Text} (h : NameBehind name rest) :
    nameBy classStart ("class".toList ++ rest) = some name := by
  set s := atStart ("class".toList ++ rest) with hs
  have hgaps : run classStart s some
      = run (seq (lit "class") (seq wordEdge (seq gaps (group 1 (many wordChar))))) s some :=
    run_many_skip (x := []) rfl (by simp) (by rfl)
      fun hthere => run_keyword_none (by decide) (by decide) hthere
  have hkeyword : run classStart s some
      = run (seq wordEdge (seq gaps (group 1 (many wordChar)))) (s.past "class".toList rest []) some :=
    hgaps.trans (run_lit rfl)
  have hbefore : (s.past "class".toList rest []).before.any isWord = true :=
    (by decide : isWord 's' = true)
  obtain ⟨found, hfound, hgroups⟩ := Option.map_eq_some_iff.1
    (run_name (s := s.past "class".toList rest []) h hbefore)
  have hgroup : (classStart.matchStart? ("class".toList ++ rest)).map (·.group 1) = some name := by
    rw [matchStart?, matchAt, ← atStart, ← hs, hkeyword, hfound, Option.map_some, Option.map_some,
      Match.group, Match.group?, hgroups]
    rfl
  rw [nameBy, hgroup, Option.filter_some, if_pos (by simpa using h.ne_nil)]

theorem endsWord_of_bases {before : Option Char} {text : Text} (hspaced : Spaced text)
    (h : (chain [opt (chain [lit "(", many anyChar, lit ")"]), blanks, lit ":"]).Begins before text) :
    EndsWord text := by
  obtain ⟨bases, rest, rfl, hbases, h⟩ := begins_seq.1 h
  rcases spans_opt.1 hbases with ⟨y, z, rfl, hy, -⟩ | rfl
  · obtain rfl := spans_lit.1 hy
    rfl
  · obtain ⟨gap, rest, rfl, hgap, x, tail, rfl, hx⟩ := begins_seq.1 h
    obtain rfl := spans_lit.1 hx
    have hblank : ∀ c ∈ gap, isBlank c = true := spans_many_one.1 hgap
    have hgap : IsGap gap := hspaced.of_append.2.of_append.1.isGap hblank
    exact head_gap hgap (c := ':') (by decide) tail

theorem exists_nameBy_classStart {code : Text} (hspaced : Spaced code)
    (h : classStatement.startsAt code = true) : ∃ name, nameBy classStart code = some name := by
  obtain ⟨word, rest, rfl, hword, hbegins⟩ := begins_seq.1 (startsAt_iff.1 h)
  obtain rfl := spans_lit.1 hword
  obtain ⟨name, hname⟩ := begins_name hspaced.of_append.2 endsWord_of_bases hbegins
  exact ⟨name, nameBy_classStart hname⟩

/-! ## Classes and constructors in the outline -/

/-- Code that is spaced and has no problem as the header of a definition. -/
structure SoundCode (code : Text) : Prop where
  spaced : Spaced code
  function : isDef code = true → defStatement.startsAt code = true
  classLike : isDef code = false → isClass code = true → classStatement.startsAt code = true

theorem soundCode_of_mem_scan {text : Text} (hfine : diagnose text = [])
    (hblank : ∀ c ∈ text, isBlank c = true → c = ' ' ∨ c = '\t' ∨ c = '\n') {entry : LogicalLine}
    (h : entry ∈ (scan text).logical) : SoundCode entry.code := by
  obtain ⟨-, -, hheaders⟩ := diagnose_eq_nil.1 hfine
  obtain ⟨hdef, hclass⟩ := headerProblem_eq_none.1 (hheaders entry h)
  exact ⟨spaced_of_mem_scan hblank h, hdef, hclass⟩

theorem startsAt_of_nameBy {pattern : Pattern} {code name : Text}
    (h : nameBy pattern code = some name) : pattern.startsAt code = true := by
  rw [startsAt]
  cases hfound : pattern.matchStart? code with
  | none => simp [nameBy, hfound] at h
  | some found => rfl

theorem nameBy_eq_none {pattern : Pattern} {code : Text} (h : pattern.startsAt code = false) :
    nameBy pattern code = none := by
  by_contra hne
  obtain ⟨name, hname⟩ := Option.ne_none_iff_exists'.1 hne
  exact Bool.false_ne_true (h.symm.trans (startsAt_of_nameBy hname))

theorem head_of_ledBy {apart : Bool} {word : String} {tail : Text → Prop} {code : Text} {c : Char}
    (hhead : word.toList.head? = some c) (hc : isGapChar c = false)
    (h : LedBy apart word.toList tail code) : (code.dropWhile isGapChar).head? = some c := by
  obtain ⟨gap, rest, hgap, -, rfl, -⟩ := h
  obtain ⟨more, hword⟩ : ∃ more, word.toList = c :: more := List.head?_eq_some_iff.1 hhead
  rw [List.dropWhile_append_of_pos (isGapChar_of_isGap hgap), hword, List.cons_append,
    List.dropWhile_cons_of_neg (by simp [hc])]
  rfl

theorem isDef_eq_false {code : Text} {c : Char} (h : (code.dropWhile isGapChar).head? = some c)
    (hne : c ≠ 'd' ∧ c ≠ 'a') : isDef code = false := by
  by_contra hdef
  rcases isDef_iff.1 (by simpa using hdef) with hled | hled
  · exact hne.1 (Option.some.inj (h.symm.trans (head_of_ledBy (by decide) (by decide) hled)))
  · exact hne.2 (Option.some.inj (h.symm.trans (head_of_ledBy (by decide) (by decide) hled)))

theorem isClass_eq_false {code : Text} {c : Char} (h : (code.dropWhile isGapChar).head? = some c)
    (hne : c ≠ 'c') : isClass code = false := by
  by_contra hclass
  exact hne (Option.some.inj (h.symm.trans
    (head_of_ledBy (by decide) (by decide) (isClass_iff.1 (by simpa using hclass)))))

theorem isDef_eq_false_of_isClass {code : Text} (h : isClass code = true) : isDef code = false :=
  isDef_eq_false (c := 'c') (head_of_ledBy (by decide) (by decide) (isClass_iff.1 h)) (by decide)

section

variable {entry : LogicalLine} (rest : List LogicalLine)

theorem outlined_class_iff (hsound : SoundCode entry.code) :
    isClass entry.code = true ↔ ∃ a, outlined? entry rest = some a ∧ a.kind = .classLike := by
  constructor
  · intro hclass
    have hdef := isDef_eq_false_of_isClass hclass
    obtain ⟨name, hname⟩ :=
      exists_nameBy_classStart hsound.spaced (hsound.classLike hdef hclass)
    exact ⟨.ofLines .classLike name entry.line (blockStop entry rest),
      by simp [outlined?, nameBy_eq_none hdef, hname], rfl⟩
  · rintro ⟨a, ha, hkind⟩
    unfold outlined? at ha
    split at ha
    · obtain rfl := Option.some.inj ha
      exact absurd hkind nofun
    · split at ha
      · rename_i name hname
        exact startsAt_of_nameBy hname
      · split_ifs at ha
        obtain ⟨name, -, rfl⟩ := Option.map_eq_some_iff.1 ha
        exact absurd hkind nofun

theorem outlined_init_iff (hsound : SoundCode entry.code) :
    initStatement.startsAt entry.code = true
      ↔ ∃ b, outlined? entry rest = some b ∧ b.kind = .function ∧ b.name = "__init__".toList := by
  rw [initStatement_iff hsound.spaced]
  constructor
  · intro hnamed
    exact ⟨.ofLines .function "__init__".toList entry.line (blockStop entry rest),
      by simp [outlined?, hnamed.nameBy_eq], rfl, rfl⟩
  · rintro ⟨b, hb, hkind, hinit⟩
    unfold outlined? at hb
    split at hb
    · rename_i name hname
      obtain rfl := Option.some.inj hb
      obtain ⟨other, hother⟩ :=
        exists_defNamed hsound.spaced (hsound.function (startsAt_of_nameBy hname))
      obtain rfl : other = name := Option.some.inj (hother.nameBy_eq.symm.trans hname)
      exact hinit ▸ hother
    · split at hb
      · obtain rfl := Option.some.inj hb
        exact absurd hkind nofun
      · split_ifs at hb
        obtain ⟨name, -, rfl⟩ := Option.map_eq_some_iff.1 hb
        exact absurd hkind nofun

end

/-! ## Blocks and ranges -/

theorem line_within_iff {logical : List LogicalLine} (h : Ordered logical) {e f : LogicalLine}
    {rest frest : List LogicalLine} (he : (e, rest) ∈ withRest logical)
    (hf : (f, frest) ∈ withRest logical) :
    (e.line ≤ f.line ∧ f.line ≤ blockStop e rest) ↔ f = e ∨ f ∈ block e rest := by
  obtain ⟨front, rfl⟩ := mem_withRest_iff.1 he
  have hordered : Ordered (e :: rest) := h.of_append front
  constructor
  · rintro ⟨hline, hwithin⟩
    rcases eq_or_follows h he hf hline with ⟨rfl, -⟩ | ⟨mid, rfl⟩
    · exact .inl rfl
    · obtain ⟨more, hblock⟩ := block_of_within hordered hwithin
      exact .inr (by simp [hblock])
  · rintro (rfl | hmem)
    · exact ⟨Nat.le_refl _, line_le_blockStop hordered⟩
    · have hrest : f ∈ rest := (front_block e rest).subset hmem
      have hbehind := (List.pairwise_cons.1 hordered.behind).1 f hrest
      have hline := hordered.line_le_stop e List.mem_cons_self
      have hfline := hordered.line_le_stop f (List.mem_cons_of_mem e hrest)
      have hstop := stop_le_blockStop hordered (List.mem_cons_of_mem e hmem)
      omega

theorem classValid_iff {body : List LogicalLine} :
    classValid body = true ↔ (∀ g ∈ body, isClass g.code = false)
      ∧ ∃ g ∈ body, initStatement.startsAt g.code = true := by
  simp [classValid]

end Indented

/-- The entry starts on a line of the other one. -/
def OutlineEntry.StartsIn (b a : OutlineEntry) : Prop := a.start ≤ b.start ∧ b.start ≤ a.stop

namespace Indented

theorem eq_of_start_eq {text : Text} {a b : OutlineEntry} (ha : a ∈ outline text)
    (hb : b ∈ outline text) (h : a.start = b.start) : a = b := by
  rcases eq_or_of_pairwise (pairwise_outlined (ordered_scan text).1) ha hb with heq | hlead | hlead
  · exact heq
  · have := hlead.1
    omega
  · have := hlead.1
    omega

section

variable {text : Text} {e f : LogicalLine} {rest frest : List LogicalLine} {a b : OutlineEntry}

theorem ordered_from (h : (e, rest) ∈ withRest (scan text).logical) : Ordered (e :: rest) := by
  obtain ⟨front, hlogical⟩ := mem_withRest_iff.1 h
  exact (hlogical ▸ (ordered_scan text).1 :).of_append front

variable (he : (e, rest) ∈ withRest (scan text).logical)
  (hf : (f, frest) ∈ withRest (scan text).logical) (ha : outlined? e rest = some a)
  (hb : outlined? f frest = some b)

include he hf ha hb

theorem start_lt_of_mem_block (hmem : f ∈ block e rest) : a.start < b.start := by
  have hordered := ordered_from he
  obtain ⟨hastart, -⟩ := range_of_outlined hordered ha
  obtain ⟨hbstart, -⟩ := range_of_outlined (ordered_from hf) hb
  have hbehind := (List.pairwise_cons.1 hordered.behind).1 f ((front_block e rest).subset hmem)
  have hline := hordered.line_le_stop e List.mem_cons_self
  omega

theorem startsIn_class_iff (hkind : a.kind = .classLike) :
    b.StartsIn a ↔ b = a ∨ f ∈ block e rest := by
  obtain ⟨hastart, ⟨hbinding, -⟩ | ⟨-, hastop⟩⟩ := range_of_outlined (ordered_from he) ha
  · simp [hkind] at hbinding
  obtain ⟨hbstart, -⟩ := range_of_outlined (ordered_from hf) hb
  have hwithin : b.StartsIn a ↔ f = e ∨ f ∈ block e rest := by
    rw [OutlineEntry.StartsIn, hastart, hastop, hbstart, line_within_iff (ordered_scan text).1 he hf]
  rw [hwithin]
  constructor
  · refine Or.imp_left fun hsame => ?_
    exact eq_of_start_eq (List.mem_filterMap.2 ⟨_, hf, hb⟩) (List.mem_filterMap.2 ⟨_, he, ha⟩)
      (by rw [hastart, hbstart, hsame])
  · rintro (hsame | hmem)
    · rw [← hwithin, hsame]
      exact ⟨Nat.le_refl _, a.start_le_stop⟩
    · exact .inr hmem

end

theorem classValid_block_iff {text : Text}
    (hsound : ∀ entry ∈ (scan text).logical, SoundCode entry.code) {e : LogicalLine}
    {rest : List LogicalLine} (he : (e, rest) ∈ withRest (scan text).logical) {a : OutlineEntry}
    (ha : outlined? e rest = some a) (hkind : a.kind = .classLike) :
    classValid (block e rest) = true
      ↔ (∀ b ∈ outline text, b.kind = .classLike → b.StartsIn a → b = a)
        ∧ ∃ b ∈ outline text, b.kind = .function ∧ b.name = "__init__".toList ∧ b.StartsIn a := by
  have hstarts {f : LogicalLine} {frest : List LogicalLine} {b : OutlineEntry}
      (hf : (f, frest) ∈ withRest (scan text).logical) (hb : outlined? f frest = some b) :=
    startsIn_class_iff he hf ha hb hkind
  have hlater {g : LogicalLine} (hg : g ∈ block e rest) :
      ∃ grest, (g, grest) ∈ withRest (scan text).logical := by
    obtain ⟨front, hlogical⟩ := mem_withRest_iff.1 he
    refine exists_withRest ?_
    rw [hlogical]
    exact List.mem_append_right front (List.mem_cons_of_mem e ((front_block e rest).subset hg))
  rw [classValid_iff]
  refine and_congr ⟨fun hnone b hb hbkind hin => ?_, fun honly g hg => ?_⟩
    ⟨fun hinit => ?_, fun hinit => ?_⟩
  · obtain ⟨⟨f, frest⟩, hf, hfound⟩ := List.mem_filterMap.1 hb
    refine ((hstarts hf hfound).1 hin).resolve_right fun hmem => ?_
    have hclass := (outlined_class_iff _ (hsound f (mem_of_mem_withRest hf))).2 ⟨b, hfound, hbkind⟩
    simp [hnone f hmem] at hclass
  · obtain ⟨grest, hmem⟩ := hlater hg
    by_contra hclass
    obtain ⟨b, hb, hbkind⟩ := (outlined_class_iff grest (hsound g (mem_of_mem_withRest hmem))).1
      (by simpa using hclass)
    have hsame := honly b (List.mem_filterMap.2 ⟨_, hmem, hb⟩) hbkind ((hstarts hmem hb).2 (.inr hg))
    exact absurd (hsame ▸ start_lt_of_mem_block he hmem ha hb hg) (Nat.lt_irrefl _)
  · obtain ⟨g, hg, hinit⟩ := hinit
    obtain ⟨grest, hmem⟩ := hlater hg
    obtain ⟨b, hb, hbkind, hname⟩ :=
      (outlined_init_iff grest (hsound g (mem_of_mem_withRest hmem))).1 hinit
    exact ⟨b, List.mem_filterMap.2 ⟨_, hmem, hb⟩, hbkind, hname, (hstarts hmem hb).2 (.inr hg)⟩
  · obtain ⟨b, hb, hbkind, hname, hin⟩ := hinit
    obtain ⟨⟨f, frest⟩, hf, hfound⟩ := List.mem_filterMap.1 hb
    rcases (hstarts hf hfound).1 hin with rfl | hmem
    · simp [hkind] at hbkind
    · exact ⟨f, hmem, (outlined_init_iff _ (hsound f (mem_of_mem_withRest hf))).2
        ⟨b, hfound, hbkind, hname⟩⟩

/-- For a text without problems whose only blanks are spaces, tabs and line feeds: the structure rule
holds exactly if for every class of the outline no other class starts in its lines, and a function
`__init__` does. -/
theorem structureValid_iff {text : Text} (hfine : diagnose text = [])
    (hblank : ∀ c ∈ text, isBlank c = true → c = ' ' ∨ c = '\t' ∨ c = '\n') :
    structureValid text = true
      ↔ ∀ a ∈ outline text, a.kind = .classLike →
        (∀ b ∈ outline text, b.kind = .classLike → b.StartsIn a → b = a)
          ∧ ∃ b ∈ outline text, b.kind = .function ∧ b.name = "__init__".toList ∧ b.StartsIn a := by
  have hsound : ∀ entry ∈ (scan text).logical, SoundCode entry.code := fun entry hentry =>
    soundCode_of_mem_scan hfine hblank hentry
  have hrule : structureValid text = true ↔ ∀ x ∈ withRest (scan text).logical,
      isClass x.1.code = true → classValid (block x.1 x.2) = true := by
    simp [structureValid, imp_iff_not_or]
  rw [hrule]
  constructor
  · intro h a ha hkind
    obtain ⟨x, hx, hfound⟩ := List.mem_filterMap.1 ha
    have hclass := (outlined_class_iff _ (hsound x.1 (mem_of_mem_withRest hx))).2 ⟨a, hfound, hkind⟩
    exact (classValid_block_iff hsound hx hfound hkind).1 (h x hx hclass)
  · intro h x hx hclass
    obtain ⟨a, hfound, hkind⟩ :=
      (outlined_class_iff _ (hsound x.1 (mem_of_mem_withRest hx))).1 hclass
    exact (classValid_block_iff hsound hx hfound hkind).2
      (h a (List.mem_filterMap.2 ⟨x, hx, hfound⟩) hkind)

/-- A class with a constructor over two lines, and one that holds a class after its constructor. -/
def classesSource : Text :=
  "class A:\n\tasync  def\t__init__(self, s=\"class\",\nn=[1]):\n\t\tpass\n".toList
    ++ "class B ( A ):\n  x = 1\n  def __init__(self):\n    class C:\n      pass\n".toList

theorem structureValid_iff_classes :
    diagnose classesSource = []
      ∧ (∀ c ∈ classesSource, isBlank c = true → c = ' ' ∨ c = '\t' ∨ c = '\n')
      ∧ (structureValid classesSource = true
        ↔ ∀ a ∈ outline classesSource, a.kind = .classLike →
          (∀ b ∈ outline classesSource, b.kind = .classLike → b.StartsIn a → b = a)
            ∧ ∃ b ∈ outline classesSource,
              b.kind = .function ∧ b.name = "__init__".toList ∧ b.StartsIn a) := by
  have hfine : diagnose classesSource = [] := by decide +kernel
  have hall : classesSource.all (fun c => !isBlank c || [' ', '\t', '\n'].contains c) = true := by
    decide +kernel
  have hblank : ∀ c ∈ classesSource, isBlank c = true → c = ' ' ∨ c = '\t' ∨ c = '\n' := by
    intro c hc hblank
    simpa [hblank] using List.all_eq_true.1 hall c hc
  exact ⟨hfine, hblank, structureValid_iff hfine hblank⟩

end Indented

end SourceLens
