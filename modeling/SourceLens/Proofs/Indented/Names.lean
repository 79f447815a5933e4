import SourceLens.Proofs.Indented.Completeness
import SourceLens.Proofs.Text.Lines

/-!
# Names of functions

The name of a function is read twice: from the code of its logical line, and from the lines as they
stand, where the header pattern also finds parameters and a return type. Both readings agree, because
the pattern takes nothing but words and gaps before the bracket of the parameters, and those stand at
the start of the code as well. So whether the pattern matches or not, the name is that of the code
(`name_readHeader`).
-/

namespace SourceLens.Indented

open Pattern Descriptor

/-! ## The words in front of a name -/

def DefWords (words : Text) : Prop :=
  words = "def".toList
    ∨ ∃ gap, IsGap gap ∧ gap ≠ [] ∧ words = "async".toList ++ (gap ++ "def".toList)

/-- The front of a definition that introduces a function, from its keywords to the bracket of its
parameters. -/
def Introduces (name lead : Text) : Prop :=
  ∃ words space gap, DefWords words ∧ IsGap space ∧ space ≠ [] ∧ name ≠ []
    ∧ (∀ c ∈ name, isWord c = true) ∧ IsGap gap
    ∧ lead = words ++ (space ++ (name ++ (gap ++ ['('])))

theorem isGapChar_of_isGap {gap : Text} (h : IsGap gap) : ∀ c ∈ gap, isGapChar c = true := by
  intro c hc
  rcases h c hc with rfl | rfl <;> decide

theorem isBlank_of_isGap {gap : Text} (h : IsGap gap) : ∀ c ∈ gap, isBlank c = true := by
  intro c hc
  rcases h c hc with rfl | rfl <;> decide

theorem not_isWord_of_isGap {gap : Text} (h : IsGap gap) {c : Char} (hc : c ∈ gap) :
    isWord c = false := by
  rcases h c hc with rfl | rfl <;> decide

theorem not_isGapChar_of_isWord {c : Char} (h : isWord c = true) : isGapChar c = false := by
  have hgaps : " \t".toList.any isWord = false := by decide
  by_contra hc
  rw [Bool.not_eq_false] at hc
  exact List.any_eq_false.1 hgaps c (List.contains_iff_mem.1 hc) h

theorem other_word_ahead {word : String} {c : Char} {text : Text}
    (h : word.toList.head?.any (· == c) = false) (hne : word.toList ≠ []) :
    ¬word.toList <+: c :: text := by
  rintro ⟨rest, hrest⟩
  obtain ⟨d, more, hword⟩ := List.exists_cons_of_ne_nil hne
  rw [hword, List.cons_append] at hrest
  rw [hword, (List.cons.inj hrest).1] at h
  simp at h

theorem run_async {s : Cursor} {k : Cursor → Option Cursor} {g r : Text}
    (hrest : s.rest = "async".toList ++ (g ++ r)) (hg : IsGap g) (hne : g ≠ [])
    (hstop : r.head?.any isGapChar = false)
    (hfail : ∀ {there : Cursor}, there.rest.head?.any isGapChar = true → k there = none) :
    run (chain [lit "async", gaps1]) s k = k (s.past ("async".toList ++ g) r s.groups) := by
  have hword : run (chain [lit "async", gaps1]) s k
      = run gaps1 (s.past "async".toList (g ++ r) s.groups) k := run_lit hrest
  have hgap := run_many1_skip (s := s.past "async".toList (g ++ r) s.groups) rfl hne
    (isGapChar_of_isGap hg) hstop hfail
  rw [Cursor.past_past, Cursor.past_groups] at hgap
  exact hword.trans hgap

theorem run_async_none {s : Cursor} {k : Cursor → Option Cursor}
    (h : ¬"async".toList <+: s.rest) : run (chain [lit "async", gaps1]) s k = none :=
  (run_lit_none h : run (lit "async") s (fun there => run gaps1 there k) = none)

theorem run_defWords {s : Cursor} {k : Cursor → Option Cursor} {gap words r : Text} (p : Pattern)
    (hrest : s.rest = gap ++ (words ++ r)) (hgap : IsGap gap) (hwords : DefWords words) :
    run (seq gaps (seq (opt (chain [lit "async", gaps1])) (seq (lit "def") p))) s k
      = run p (s.past (gap ++ words) r s.groups) k := by
  have hstop : (words ++ r).head?.any isGapChar = false := by
    rcases hwords with rfl | ⟨g, -, -, rfl⟩ <;> rfl
  have hdef {there : Cursor} (h : there.rest.head?.any isGapChar = true) :
      run (seq (lit "def") p) there k = none := run_keyword_none (by decide) (by decide) h
  have hkey {there : Cursor} (h : there.rest.head?.any isGapChar = true) :
      run (seq (opt (chain [lit "async", gaps1])) (seq (lit "def") p)) there k = none := by
    have hasync (next : Cursor → Option Cursor) :
        run (chain [lit "async", gaps1]) there next = none :=
      (run_keyword_none (by decide) (by decide) h : run (lit "async") there _ = none)
    rw [run, run_opt, hasync, hdef h]
    rfl
  have hgaps : run gaps s (fun there =>
        run (seq (opt (chain [lit "async", gaps1])) (seq (lit "def") p)) there k)
      = run (seq (opt (chain [lit "async", gaps1])) (seq (lit "def") p))
          (s.past gap (words ++ r) s.groups) k :=
    run_many_skip hrest (isGapChar_of_isGap hgap) hstop hkey
  rw [run, hgaps, run, run_opt]
  rcases hwords with rfl | ⟨g, hg, hne, rfl⟩
  · rw [run_async_none (other_word_ahead (by decide) (by decide)), Option.none_or, run, run_lit rfl,
      Cursor.past_past, Cursor.past_groups]
  · have hnone : run (seq (lit "def") p)
        (s.past gap ("async".toList ++ (g ++ "def".toList) ++ r) s.groups) k = none :=
      run_lit_none (other_word_ahead (by decide) (by decide))
    rw [hnone, Option.or_none, run_async (g := g) (r := "def".toList ++ r) (by simp) hg hne rfl hdef,
      run, run_lit rfl]
    simp only [Cursor.past_past, Cursor.past_groups, List.append_assoc]

/-! ## The name in the header pattern -/

def afterName : Pattern :=
  chain [gaps, parameterList, opt (chain [gaps, lit "->", gaps, group 3 (few1 (noneOf ":"))]), gaps,
    lit ":"]

theorem afterName_none {there : Cursor} {k : Cursor → Option Cursor}
    (h : there.rest.head?.any isWord = true) : run afterName there k = none := by
  have hopen {c : Char} (hc : c ≠ '(') {rest : Text} : ¬"(".toList <+: c :: rest :=
    other_word_ahead (by simp [Ne.symm hc]) (by decide)
  obtain ⟨c, rest, hrest⟩ : ∃ c rest, there.rest = c :: rest := by
    cases hrest : there.rest with
    | nil => simp [hrest] at h
    | cons c rest => exact ⟨c, rest, rfl⟩
  have hc : isWord c = true := by simpa [hrest] using h
  have hgaps : run afterName there k = run (lit "(") there _ :=
    run_many_skip (x := []) rfl (by simp) (by simp [hrest, not_isGapChar_of_isWord hc])
      fun hgap => run_keyword_none (by decide) (by decide) hgap
  rw [hgaps, run_lit_none]
  rw [hrest]
  exact hopen (by rintro rfl; exact absurd hc (by decide))

theorem begins_defHeader {header : Text} (h : defHeader.Begins none header) :
    ∃ gap lead name tail, IsGap gap ∧ Introduces name lead ∧ header = gap ++ (lead ++ tail) := by
  obtain ⟨a, rest, rfl, ⟨rfl, -⟩, h⟩ := begins_seq.1 h
  obtain ⟨gap, rest, rfl, hgap, h⟩ := begins_seq.1 h
  obtain ⟨a, rest, rfl, hasync, h⟩ := begins_seq.1 h
  obtain ⟨d, rest, rfl, hdef, h⟩ := begins_seq.1 h
  obtain ⟨space, rest, rfl, hspace, h⟩ := begins_seq.1 h
  obtain ⟨name, rest, rfl, hname, h⟩ := begins_seq.1 h
  obtain ⟨gap', rest, rfl, hgap', h⟩ := begins_seq.1 h
  obtain ⟨y, rest, rfl, ⟨b, more, rfl, hbracket, -⟩, -⟩ := begins_seq.1 h
  rw [spans_lit] at hdef hbracket
  obtain ⟨hspace_ne, hspace⟩ := spans_gaps1.1 hspace
  obtain ⟨hname_ne, hname⟩ := spans_many1_one.1 hname
  have hwords : DefWords (a ++ d) := by
    rcases spans_opt.1 hasync with ⟨y, g, rfl, hy, hg⟩ | rfl
    · obtain ⟨hne, hg⟩ := spans_gaps1.1 hg
      rw [spans_lit] at hy
      exact .inr ⟨g, hg, hne, by rw [hy, hdef, List.append_assoc]⟩
    · exact .inl hdef
  refine ⟨gap, _, name, more ++ rest, spans_gaps.1 hgap,
    ⟨a ++ d, space, gap', hwords, hspace, hspace_ne, hname_ne, hname, spans_gaps.1 hgap', rfl⟩, ?_⟩
  have hopen : "(".toList = ['('] := rfl
  simp [hbracket, hopen]

theorem head_word {name : Text} (hne : name ≠ []) (hname : ∀ c ∈ name, isWord c = true)
    (rest : Text) : (name ++ rest).head?.any isGapChar = false := by
  obtain ⟨c, name, rfl⟩ := List.exists_cons_of_ne_nil hne
  exact not_isGapChar_of_isWord (hname c List.mem_cons_self)

theorem head_gap {gap : Text} (hgap : IsGap gap) {c : Char} (hc : isWord c = false) (rest : Text) :
    (gap ++ c :: rest).head?.any isWord = false := by
  cases gap with
  | nil => exact hc
  | cons d gap => exact not_isWord_of_isGap hgap List.mem_cons_self

theorem not_word_of_gap {text : Text} (h : text.head?.any isGapChar = true) :
    text.head?.any isWord = false := by
  cases text with
  | nil => rfl
  | cons c rest =>
    have hc : ¬isWord c = true := fun hword => by
      rw [List.head?_cons, Option.any_some, not_isGapChar_of_isWord hword] at h
      exact absurd h (by decide)
    simpa using hc

theorem run_defHeader {gap name lead : Text} (hgap : IsGap gap) (hlead : Introduces name lead)
    (tail : Text) :
    ∃ front space, IsGap space ∧ gap ++ lead = front ++ (space ++ ['('])
      ∧ run defHeader (atStart (gap ++ (lead ++ tail))) some
        = run afterName ((atStart (gap ++ (lead ++ tail))).past front (space ++ '(' :: tail)
            [(1, name)]) some := by
  obtain ⟨words, space, gap', hwords, hspace, hspace_ne, hname_ne, hname, hgap', rfl⟩ := hlead
  set s := atStart (gap ++ (words ++ (space ++ (name ++ (gap' ++ ['(']))) ++ tail)) with hs
  set r := gap' ++ '(' :: tail with hr
  refine ⟨gap ++ words ++ (space ++ name), gap', hgap', by simp, ?_⟩
  have hrest : s.rest = gap ++ (words ++ (space ++ (name ++ r))) := by simp [hs, hr, atStart]
  have hkeywords : run defHeader s some
      = run (seq gaps1 (seq (group 1 (many1 wordChar)) afterName))
          (s.past (gap ++ words) (space ++ (name ++ r)) []) some :=
    (run_lineStart rfl).trans (run_defWords _ hrest hgap hwords)
  have hspaces : run defHeader s some
      = run (group 1 (many1 wordChar))
          ((s.past (gap ++ words) (space ++ (name ++ r)) []).past space (name ++ r) [])
          fun there => run afterName there some := by
    refine hkeywords.trans (run_many1_skip rfl hspace_ne (isGapChar_of_isGap hspace)
      (head_word hname_ne hname r) fun {there} hthere => ?_)
    rw [run, run]
    exact run_many1_none (not_word_of_gap hthere)
  -- no word character may follow the name
  have hnamed := hspaces.trans (run_group_many1_skip rfl hname_ne hname
    (head_gap hgap' (by decide) tail) afterName_none)
  rwa [Cursor.past_past, Cursor.past_groups, Cursor.past_past] at hnamed

theorem introduces_of_defHeader {header : Text} {found : Match}
    (h : defHeader.matchStart? header = some found) :
    ∃ gap lead tail, IsGap gap ∧ Introduces (found.group 1) lead
      ∧ header = gap ++ (lead ++ tail) := by
  have hstarts : defHeader.startsAt header = true := by rw [startsAt, h]; rfl
  obtain ⟨gap, lead, name, tail, hgap, hlead, rfl⟩ := begins_defHeader (startsAt_iff.1 hstarts)
  refine ⟨gap, lead, tail, hgap, ?_, rfl⟩
  obtain ⟨front, space, -, -, hrun⟩ := run_defHeader hgap hlead tail
  obtain ⟨there, hthere, hfound⟩ := Option.map_eq_some_iff.1 h
  rw [← atStart, hrun] at hthere
  obtain ⟨last, hlast, hgroups⟩ := keeps_run (i := 1) afterName rfl hthere
  obtain rfl := Option.some.inj hlast
  have hgroup : found.group 1 = name := by
    rw [← hfound, Match.group, Match.group?, hgroups]
    rfl
  rwa [hgroup]

/-! ## The name in the code -/

theorem run_group_many {i : Nat} {s : Cursor} {t : Char → Bool} {x r : Text}
    (hrest : s.rest = x ++ r) (hx : ∀ c ∈ x, t c = true) (hstop : r.head?.any t = false) :
    run (group i (many (one t))) s some = some (s.past x r ((i, x) :: s.groups)) := by
  have hbody := run_many_most hrest hx hstop (k := fun there => some { there with
    groups := (i, s.rest.take (there.offset - s.offset)) :: there.groups }) rfl
  have htaken : s.rest.take (s.offset + x.length - s.offset) = x := by
    rw [Nat.add_sub_cancel_left, hrest, List.take_left]
  rw [Cursor.past_offset, htaken] at hbody
  exact hbody

theorem last_word_of_defWords {words : Text} (h : DefWords words) :
    (lastOf none words).any isWord = true := by
  rcases h with rfl | ⟨g, -, -, rfl⟩
  · decide
  · rw [← List.append_assoc, lastOf_append]
    exact (by decide : isWord 'f' = true)

def NameBehind (name text : Text) : Prop :=
  ∃ space rest, IsGap space ∧ space ≠ [] ∧ name ≠ [] ∧ (∀ c ∈ name, isWord c = true)
    ∧ EndsWord rest ∧ text = space ++ (name ++ rest)

theorem NameBehind.ne_nil {name text : Text} (h : NameBehind name text) : name ≠ [] := by
  obtain ⟨-, -, -, -, hne, -⟩ := h
  exact hne

theorem NameBehind.endsWord {name text : Text} (h : NameBehind name text) : EndsWord text := by
  obtain ⟨space, rest, hspace, hspace_ne, -, -, -, rfl⟩ := h
  obtain ⟨c, space, rfl⟩ := List.exists_cons_of_ne_nil hspace_ne
  exact not_isWord_of_isGap hspace List.mem_cons_self

theorem run_name {s : Cursor} {name : Text} (h : NameBehind name s.rest)
    (hbefore : s.before.any isWord = true) :
    (run (seq wordEdge (seq gaps (group 1 (many wordChar)))) s some).map (·.groups)
      = some ((1, name) :: s.groups) := by
  have hedge : s.atWordEdge = true := by
    rw [Cursor.atWordEdge, hbefore, h.endsWord]
    rfl
  obtain ⟨space, r, hspace, -, hne, hname, hend, hrest⟩ := h
  have hread := run_group_many (i := 1) (s := s.past space (name ++ r) s.groups) rfl hname hend
  have hspaces := run_many_most hrest (isGapChar_of_isGap hspace) (head_word hne hname r)
    (k := fun there => run (group 1 (many wordChar)) there some)
    (Option.isSome_iff_exists.2 ⟨_, hread⟩)
  have hrun := hspaces.trans hread
  rw [run, run, if_pos hedge]
  exact congrArg (Option.map (·.groups)) hrun

/-- Whether code starts with the keywords of a definition and a name. -/
def DefNamed (name code : Text) : Prop :=
  ∃ words rest, DefWords words ∧ NameBehind name rest ∧ code = words ++ rest

theorem DefNamed.group_eq {name code : Text} (h : DefNamed name code) :
    (defStart.matchStart? code).map (·.group 1) = some name := by
  obtain ⟨words, r, hwords, hname, rfl⟩ := h
  have hgap : IsGap [] := by simp [IsGap]
  have hkeywords : run defStart (atStart (words ++ r)) some
      = run (seq wordEdge (seq gaps (group 1 (many wordChar))))
          ((atStart (words ++ r)).past words r []) some :=
    run_defWords _ rfl hgap hwords
  have hbefore : ((atStart (words ++ r)).past words r []).before.any isWord = true :=
    last_word_of_defWords hwords
  obtain ⟨found, hfound, hgroups⟩ := Option.map_eq_some_iff.1
    (run_name (s := (atStart (words ++ r)).past words r []) hname hbefore)
  rw [matchStart?, matchAt, ← atStart, hkeywords, hfound, Option.map_some, Option.map_some,
    Match.group, Match.group?, hgroups]
  rfl

theorem DefNamed.nameBy_eq {name code : Text} (h : DefNamed name code) :
    nameBy defStart code = some name := by
  have hgroup := h.group_eq
  obtain ⟨_, _, -, hname, -⟩ := h
  rw [nameBy, hgroup, Option.filter_some, if_pos (by simpa using hname.ne_nil)]

theorem Introduces.defNamed {name lead : Text} (h : Introduces name lead) (tail : Text) :
    DefNamed name (lead ++ tail) := by
  obtain ⟨words, space, gap, hwords, hspace, hspace_ne, hname_ne, hname, hgap, rfl⟩ := h
  exact ⟨words, _, hwords, ⟨space, gap ++ '(' :: tail, hspace, hspace_ne, hname_ne, hname,
    head_gap hgap (by decide) tail, rfl⟩, by simp⟩

theorem group_defStart {name lead tail : Text} (h : Introduces name lead) {found : Match}
    (hfound : defStart.matchStart? (lead ++ tail) = some found) : found.group 1 = name := by
  have hgroup := (h.defNamed tail).group_eq
  rw [hfound] at hgroup
  exact Option.some.inj hgroup

theorem Introduces.plain {name lead : Text} (h : Introduces name lead) :
    ∃ c front, lead = c :: (front ++ ['(']) ∧ isBlank c = false
      ∧ ∀ d ∈ c :: front, isPlain d = true := by
  obtain ⟨words, space, gap, hwords, hspace, -, -, hname, hgap, rfl⟩ := h
  have hgaps {g : Text} (hg : IsGap g) : ∀ c ∈ g, isPlain c = true := by
    intro c hc
    rcases hg c hc with rfl | rfl <;> decide
  have hword : ∃ c more, words = c :: more ∧ isBlank c = false ∧ ∀ d ∈ words, isPlain d = true := by
    rcases hwords with rfl | ⟨g, hg, -, rfl⟩
    · exact ⟨'d', ['e', 'f'], rfl, by decide, List.all_eq_true.1 (by decide)⟩
    · refine ⟨'a', _, rfl, by decide, ?_⟩
      simp only [List.forall_mem_append]
      exact ⟨List.all_eq_true.1 (by decide), hgaps hg, List.all_eq_true.1 (by decide)⟩
  obtain ⟨c, more, rfl, hc, hmore⟩ := hword
  refine ⟨c, more ++ (space ++ (name ++ gap)), by simp, hc, ?_⟩
  rw [← List.cons_append]
  simp only [List.forall_mem_append]
  exact ⟨hmore, hgaps hspace, fun d hd => isPlain_of_isWord (hname d hd), hgaps hgap⟩

theorem codeOf_plain_append {x : Text} (h : ∀ c ∈ x, isPlain c = true) (y : Text) :
    codeOf (lex .code (x ++ y)).1 = x ++ codeOf (lex .code y).1 := by
  induction x with
  | nil => rfl
  | cons c x ih =>
    obtain ⟨hc, hx⟩ := List.forall_mem_cons.1 h
    obtain ⟨-, -, hquote, hhash, -⟩ := isPlain_iff.1 hc
    have hadvance : advance .code c (x ++ y) = (.code, .code) := by
      simp [advance, hquote, hhash]
    rw [List.cons_append, lex_cons, hadvance, codeOf_cons, ih hx]
    rfl

/-- Code is joined without the blanks in front of it, and without what comes after its last
characters that are neither blank nor a backslash. -/
theorem joinable_append {gap front : Text} (hgap : Text.allBlank gap = true) {c d : Char}
    (hc : isBlank c = false) (hd : isBlank d = false) (hslash : d ≠ '\\') (tail : Text) :
    ∃ tail', (joinable (gap ++ c :: (front ++ d :: tail))).1 = c :: (front ++ d :: tail') := by
  have htrim : Text.trim (gap ++ c :: (front ++ d :: tail))
      = c :: front ++ d :: Text.trimEnd tail := by
    rw [Text.trim, Text.trimStart_append hgap, Text.trimStart_of_head rfl hc, ← List.cons_append,
      Text.trimEnd_append_cons hd]
  rw [joinable]
  split_ifs with hjoin
  · rw [htrim] at hjoin ⊢
    cases hback : Text.trimEnd tail with
    | nil =>
      rw [hback, List.getLast?_concat] at hjoin
      exact absurd (Option.some.inj hjoin) hslash
    | cons e back =>
      refine ⟨Text.trimEnd (e :: back).dropLast, ?_⟩
      have hdrop : (c :: front ++ d :: e :: back).dropLast
          = c :: front ++ d :: (e :: back).dropLast := by
        rw [List.dropLast_append_of_ne_nil (by simp), List.dropLast_cons_of_ne_nil (by simp)]
      rw [hdrop, Text.trimEnd_append_cons hd]
      rfl
  · exact ⟨Text.trimEnd tail, by rw [htrim]; rfl⟩

/-! ## The first line of a logical line -/

/-- A logical line starts with the code of its first physical line, which starts in code. -/
def StartsWithin (lines : List Text) (entry : LogicalLine) : Prop :=
  ∃ text, lines[entry.line]? = some text
    ∧ (joinable (codeOf (lex .code text).1)).1 <+: entry.code

theorem startsWithin_of_underway {lines : List Text} {pending : Pending} {i : Nat}
    (hsound : pending.Sound i) (hcurrent : ∀ c ∈ pending.current, StartsWithin lines c) {text : Text}
    (htext : lines[i]? = some text) {entry : LogicalLine}
    (h : pending.underway i text = some entry) : StartsWithin lines entry := by
  rw [Pending.underway] at h
  cases hd : pending.current with
  | none =>
    have hnone : pending.reader.literal = none := by simpa [hd] using hsound.literal
    rw [hd, extend] at h
    split_ifs at h
    obtain rfl := Option.some.inj h
    refine ⟨text, htext, ?_⟩
    rw [Reader.codeIn, hnone]
    exact List.prefix_rfl
  | some d =>
    obtain ⟨first, hfirst, hcode⟩ := hcurrent d hd
    rw [hd, extend] at h
    obtain rfl := Option.some.inj h
    refine ⟨first, hfirst, hcode.trans ?_⟩
    simp only
    split_ifs
    · exact List.prefix_rfl
    · exact List.prefix_append ..

theorem startsWithin_of_mem_scanFrom {lines : List Text} (texts : List Text) :
    ∀ {pending : Pending} {i : Nat}, lines.drop i = texts → pending.Sound i →
      (∀ c ∈ pending.current, StartsWithin lines c) →
      ∀ entry ∈ (scanFrom pending i texts).logical, StartsWithin lines entry := by
  induction texts with
  | nil =>
    intro pending i _ _ hcurrent entry hentry
    exact hcurrent entry (by simpa [scanFrom, Pending.finish] using hentry)
  | cons text rest ih =>
    intro pending i hdrop hsound hcurrent entry hentry
    have htext : lines[i]? = some text := by
      rw [← List.head?_drop, hdrop, List.head?_cons]
    have hunderway {c : LogicalLine} (hc : pending.underway i text = some c) :=
      startsWithin_of_underway hsound hcurrent htext hc
    obtain ⟨hnext, hfound⟩ := feed_logical pending i text
    rw [scanFrom_cons] at hentry
    rcases List.mem_append.1 hentry with hentry | hentry
    · rw [hfound] at hentry
      split_ifs at hentry
      · exact hunderway (Option.mem_toList.1 hentry)
      · simp at hentry
    · refine ih ?_ (hsound.feed text) (fun c hc => ?_) entry hentry
      · rw [← List.tail_drop, hdrop, List.tail_cons]
      · rw [hnext] at hc
        split_ifs at hc
        · simp at hc
        · exact hunderway hc

theorem startsWithin_of_mem_scan {text : Text} {entry : LogicalLine}
    (h : entry ∈ (scan text).logical) : StartsWithin (Text.lines text) entry :=
  startsWithin_of_mem_scanFrom (Text.lines text) rfl sound_start (by simp)
    entry h

theorem headerText_eq {lines : List Text} {entry : LogicalLine} {text : Text}
    (h : lines[entry.line]? = some text) :
    headerText lines entry = []
      ∨ ∃ after, headerText lines entry = text ++ after ∧ EndsLine after := by
  have hdrop : lines.drop entry.line = text :: lines.drop (entry.line + 1) := by
    obtain ⟨hlt, htext⟩ := List.getElem?_eq_some_iff.1 h
    rw [List.drop_eq_getElem_cons hlt, htext]
  rw [headerText, hdrop]
  cases entry.stop + 1 - entry.line with
  | zero => exact .inl rfl
  | succ n =>
    rw [List.take_succ_cons]
    by_cases hmore : (lines.drop (entry.line + 1)).take n = []
    · exact .inr ⟨[], by simp [hmore, Text.unlines, Text.join], .inl rfl⟩
    · exact .inr ⟨_, Text.unlines_cons text hmore, .inr ⟨_, rfl⟩⟩

theorem prefix_of_endsLine {front text after tail : Text} (hfront : '\n' ∉ front)
    (hafter : EndsLine after) (h : text ++ after = front ++ tail) : ∃ rest, text = front ++ rest := by
  rcases List.append_eq_append_iff.1 h with ⟨x, hx, hafter'⟩ | ⟨x, hx, -⟩
  · rcases hafter with rfl | ⟨more, rfl⟩
    · have hnil : x = [] := (List.append_eq_nil_iff.1 hafter'.symm).1
      exact ⟨[], by rw [hx, hnil, List.append_nil, List.append_nil]⟩
    · cases x with
      | nil => exact ⟨[], by rw [hx, List.append_nil, List.append_nil]⟩
      | cons c x =>
        obtain ⟨rfl, -⟩ := List.cons.inj hafter'
        exact absurd (by simp [hx]) hfront
  · exact ⟨x, hx⟩

theorem group_defHeader {lines : List Text} {entry : LogicalLine} (h : StartsWithin lines entry)
    {found header : Match} (hfound : defStart.matchStart? entry.code = some found)
    (hheader : defHeader.matchStart? (headerText lines entry) = some header) :
    header.group 1 = found.group 1 ∧ found.group 1 ≠ [] := by
  obtain ⟨text, htext, hcode⟩ := h
  obtain ⟨gap, lead, tail, hgap, hlead, hshape⟩ := introduces_of_defHeader hheader
  obtain ⟨c, front, rfl, hc, hplain⟩ := hlead.plain
  have hblank : Text.allBlank gap = true := by
    rw [Text.allBlank_iff]
    intro d hd
    rcases hgap d hd with rfl | rfl <;> decide
  have hgaps : ∀ d ∈ gap, isPlain d = true := by
    intro d hd
    rcases hgap d hd with rfl | rfl <;> decide
  have hnewline : '\n' ∉ gap ++ c :: (front ++ ['(']) := by
    have hnot {x : Text} (hx : ∀ d ∈ x, isPlain d = true) : '\n' ∉ x := fun hmem =>
      (isPlain_iff.1 (hx _ hmem)).2.2.2.2.2 rfl
    have hfront := hnot hplain
    simp only [List.mem_cons, not_or] at hfront
    simp [hnot hgaps, hfront]
  rcases headerText_eq htext with hnil | ⟨after, hafter, hend⟩
  · rw [hnil] at hshape
    simp at hshape
  rw [hafter, ← List.append_assoc] at hshape
  obtain ⟨rest, rfl⟩ := prefix_of_endsLine hnewline hend hshape
  have hline : codeOf (lex .code (gap ++ c :: (front ++ ['(']) ++ rest)).1
      = gap ++ c :: (front ++ '(' :: codeOf (lex .code rest).1) := by
    have hsplit : gap ++ c :: (front ++ ['(']) ++ rest = gap ++ (c :: front) ++ '(' :: rest := by simp
    rw [hsplit, codeOf_plain_append (List.forall_mem_append.2 ⟨hgaps, hplain⟩)]
    simp [lex_cons, advance, isQuote, codeOf_cons, Mark.code]
  have hjoin : ∃ tail', (joinable (gap ++ c :: (front ++ '(' :: codeOf (lex .code rest).1))).1
      = c :: (front ++ '(' :: tail') := joinable_append hblank hc (by decide) (by decide) _
  obtain ⟨tail', hjoin⟩ := hjoin
  rw [hline, hjoin] at hcode
  obtain ⟨later, hlater⟩ := hcode
  have hentry : entry.code = c :: (front ++ ['(']) ++ (tail' ++ later) := by
    rw [← hlater]
    simp
  rw [hentry] at hfound
  have hname := group_defStart hlead hfound
  obtain ⟨-, -, -, -, -, -, hne, -⟩ := hlead
  exact ⟨hname.symm, hname ▸ hne⟩

/-- The name of a function is that in the code of its logical line, whatever else the lines hold. -/
theorem name_readHeader {text : Text} {entry : LogicalLine} (h : entry ∈ (scan text).logical)
    {found : Match} (hfound : defStart.matchStart? entry.code = some found) :
    (readHeader (found.group 1) (headerText (Text.lines text) entry)).name
      = if (found.group 1).isEmpty then "anonymous".toList else found.group 1 := by
  rw [readHeader]
  split
  · rename_i header hheader
    obtain ⟨hsame, hne⟩ := group_defHeader (startsWithin_of_mem_scan h) hfound hheader
    rw [if_neg (by simpa using hne), Descriptor.functionOf, hsame]
  · rw [functionOfHeader]
    split <;> rfl

end SourceLens.Indented
