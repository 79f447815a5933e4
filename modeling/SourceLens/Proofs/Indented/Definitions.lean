import SourceLens.Proofs.Indented.Indenting
import SourceLens.Proofs.Indented.Signatures

/-!
# Written headers

The header that a function is generated with, from its name, its parameters and its return type. It is
a complete header on one line (`isHeader_functionHeader`), and reading it gives back what it was
written from (`readHeader_functionHeader`), if no part holds a character that separates the parts.
-/

namespace SourceLens

namespace Text

theorem mem_join {sep : Text} {pieces : List Text} {c : Char} (h : c ∈ join sep pieces) :
    c ∈ sep ∨ ∃ piece ∈ pieces, c ∈ piece := by
  induction pieces with
  | nil => simp [join] at h
  | cons piece more ih =>
    cases more with
    | nil => exact .inr ⟨piece, by simp, by simpa [join] using h⟩
    | cons next more =>
      rw [join, List.intercalate_cons_cons, List.append_assoc, List.mem_append, List.mem_append] at h
      rcases h with h | h | h
      · exact .inr ⟨piece, by simp, h⟩
      · exact .inl h
      · rcases ih h with hsep | ⟨found, hfound, hc⟩
        · exact .inl hsep
        · exact .inr ⟨found, List.mem_cons_of_mem piece hfound, hc⟩

end Text

namespace Indented

open Pattern Descriptor

/-- A part of a header: not empty, without blanks at its ends, of characters that are plain and do not
separate it from other parts. -/
structure Part (sep : Char) (text : Text) : Prop where
  ne_nil : text ≠ []
  trimmed : Text.trim text = text
  plain : ∀ c ∈ text, isPlain c = true ∧ c ≠ sep

instance (sep : Char) (text : Text) : Decidable (Part sep text) :=
  decidable_of_iff (text ≠ [] ∧ Text.trim text = text ∧ text.all fun c => isPlain c && c != sep)
    ⟨fun ⟨hne, htrim, hplain⟩ => ⟨hne, htrim, by simpa using hplain⟩,
      fun h => ⟨h.ne_nil, h.trimmed, by simpa using h.plain⟩⟩

/-- The arrow and the return type, if there is one. -/
def arrowText (returnType : Option Text) : Text :=
  match returnType with
  | some type => if type.isEmpty then [] else " -> ".toList ++ type
  | none => []

def functionHeader (name : Text) (params : List Text) (returnType : Option Text) : Text :=
  "def ".toList
    ++ (name ++ '(' :: (Text.join ", ".toList params ++ ')' :: (arrowText returnType ++ [':'])))

theorem generateFunction_eq (width : Nat) (name : Text) (params : List Text)
    (returnType : Option Text) (body : Text) :
    generateFunction width name params returnType body
      = under (functionHeader name params returnType) width
          (if body.isEmpty then "pass".toList else body) := by
  have hfunction : generateFunction width name params returnType body
      = "def ".toList ++ name ++ '(' :: Text.join ", ".toList params ++ ')' :: arrowText returnType
        ++ ":\n".toList ++ Text.indent width (if body.isEmpty then "pass".toList else body) := by
    cases returnType <;> rfl
  have hend : ":\n".toList = [':', '\n'] := rfl
  rw [hfunction, under, functionHeader, hend]
  simp only [List.append_assoc, List.cons_append, List.nil_append]

/-! ## Parts -/

theorem Part.head {sep : Char} {text : Text} (h : Part sep text) :
    ∃ c rest, text = c :: rest ∧ isBlank c = false := by
  obtain ⟨c, rest, htext⟩ := List.exists_cons_of_ne_nil h.ne_nil
  exact ⟨c, rest, htext, Text.isBlank_head_trim (h.trimmed.trans htext)⟩

theorem Part.not_isGap {sep : Char} {y z : Text} (h : Part sep (y ++ z)) (hz : z ≠ []) :
    ¬IsGap z := by
  intro hgap
  have htrim := Text.trim_append (u := []) rfl (allBlank_of_isGap hgap) y
  rw [List.nil_append, h.trimmed] at htrim
  obtain ⟨u, v, -, -, hy⟩ := Text.trim_spec y
  have hlength := congrArg List.length (htrim.symm ▸ hy)
  have hpos := List.length_pos_iff.2 hz
  simp only [List.length_append] at hlength
  omega

theorem splitParams_join {params : List Text} (h : ∀ param ∈ params, Part ',' param) :
    splitParams (some (Text.join ", ".toList params)) = params := by
  cases params with
  | nil => rfl
  | cons param more =>
    obtain ⟨hparam, hmore⟩ := List.forall_mem_cons.1 h
    have hcomma {text : Text} (htext : Part ',' text) : ',' ∉ text := fun hmem =>
      (htext.plain _ hmem).2 rfl
    have hcut : Text.splitOn ',' (Text.join ", ".toList (param :: more))
        = param :: more.map (' ' :: ·) := by
      rw [Text.join_comma]
      refine Text.splitOn_join (List.cons_ne_nil _ _) (List.forall_mem_cons.2 ⟨hcomma hparam, ?_⟩)
      simpa using fun text htext => hcomma (hmore text htext)
    have htrim : (more.map (' ' :: ·)).map Text.trim = more := by
      rw [List.map_map]
      refine List.map_congr_left (fun text htext => ?_) |>.trans (List.map_id more)
      have hblank := Text.trim_append (u := [' ']) (v := []) (by decide) rfl text
      rw [List.append_nil, (hmore text htext).trimmed] at hblank
      exact hblank
    rw [splitParams, hcut, List.map_cons, hparam.trimmed, htrim]
    exact List.filter_eq_self.2 fun text htext => by simpa using (h text htext).ne_nil

theorem plain_join {params : List Text} (h : ∀ param ∈ params, Part ',' param) :
    ∀ c ∈ Text.join ", ".toList params, isPlain c = true := by
  intro c hc
  rcases Text.mem_join hc with hsep | ⟨param, hparam, hmem⟩
  · exact List.all_eq_true.1 (by decide) c hsep
  · exact ((h param hparam).plain c hmem).1

theorem arrowText_cases {returnType : Option Text} (h : ∀ type ∈ returnType, Part ':' type) :
    returnType = none ∧ arrowText returnType = []
      ∨ ∃ type, returnType = some type ∧ Part ':' type
        ∧ arrowText returnType = ' ' :: ("->".toList ++ ' ' :: type) := by
  cases returnType with
  | none => exact .inl ⟨rfl, rfl⟩
  | some type =>
    have hne : ¬type.isEmpty = true := by simpa using (h type rfl).ne_nil
    exact .inr ⟨type, rfl, h type rfl, if_neg hne⟩

theorem plain_arrowText {returnType : Option Text} (h : ∀ type ∈ returnType, Part ':' type) :
    ∀ c ∈ arrowText returnType, isPlain c = true := by
  rcases arrowText_cases h with ⟨-, harrow⟩ | ⟨type, -, htype, harrow⟩
  · simp [harrow]
  · rw [harrow]
    have hfront : ∀ c ∈ ' ' :: "->".toList ++ [' '], isPlain c = true :=
      List.all_eq_true.1 (by decide)
    intro c hc
    have hsplit : c ∈ (' ' :: "->".toList ++ [' ']) ++ type := by simpa using hc
    exact (List.mem_append.1 hsplit).elim (hfront c) fun hmem => (htype.plain c hmem).1

/-! ## A complete header -/

section

variable {name : Text} (hne : name ≠ []) (hname : ∀ c ∈ name, isWord c = true)
  {params : List Text} (hparams : ∀ param ∈ params, Part ',' param) {returnType : Option Text}
  (hreturn : ∀ type ∈ returnType, Part ':' type)

include hne hname

theorem introduces_name : Introduces name ("def ".toList ++ name ++ ['(']) :=
  ⟨"def".toList, [' '], [], .inl rfl, by simp [IsGap], by simp, hne, hname, by simp [IsGap], rfl⟩

theorem defNamed_functionHeader : DefNamed name (functionHeader name params returnType) := by
  have hshape : functionHeader name params returnType = "def ".toList ++ name ++ ['(']
      ++ (Text.join ", ".toList params ++ ')' :: (arrowText returnType ++ [':'])) := by
    simp [functionHeader]
  rw [hshape]
  exact (introduces_name hne hname).defNamed _

include hparams hreturn

theorem defStatement_functionHeader :
    defStatement.startsAt (functionHeader name params returnType) = true := by
  have hline {x : Text} (hx : ∀ c ∈ x, isPlain c = true) :
      ∀ c ∈ x, (! "\n".toList.contains c) = true := fun c hc => by
    simpa using (isPlain_iff.1 (hx c hc)).2.2.2.2.2
  refine startsAt_iff.2 ⟨functionHeader name params returnType, [], (List.append_nil _).symm, ?_⟩
  refine ⟨[], _, rfl, spans_opt.2 (.inr rfl), ?_⟩
  refine ⟨"def".toList, ' ' :: (name ++ _), rfl, spans_lit.2 rfl, ?_⟩
  refine ⟨[' '], name ++ _, rfl, spans_many1_one.2 ⟨by simp, by simp⟩, ?_⟩
  refine ⟨name, '(' :: _, rfl, spans_many1_one.2 ⟨hne, hname⟩, ?_⟩
  refine ⟨[], '(' :: _, rfl, spans_many_one.2 (by simp), ['('], _, rfl, spans_lit.2 rfl, ?_⟩
  refine ⟨_, ')' :: _, rfl, spans_many_one.2 (hline (plain_join hparams)), ?_⟩
  refine ⟨[')'], arrowText returnType ++ [':'], rfl, spans_lit.2 rfl, ?_⟩
  rcases arrowText_cases hreturn with ⟨-, harrow⟩ | ⟨type, -, htype, harrow⟩
  · rw [harrow]
    exact ⟨[], [':'], rfl, spans_many_one.2 (by simp), [], [':'], rfl, spans_opt.2 (.inr rfl),
      spans_lit.2 rfl⟩
  · rw [harrow]
    refine ⟨[' '], _, rfl, spans_many_one.2 (by simp), "->".toList ++ ' ' :: type, [':'], rfl, ?_,
      spans_lit.2 rfl⟩
    refine spans_opt.2 (.inl ⟨"->".toList, ' ' :: type, rfl, spans_lit.2 rfl, ?_⟩)
    refine spans_many1_one.2 ⟨by simp, List.forall_mem_cons.2 ⟨by decide, fun c hc => ?_⟩⟩
    simpa using (htype.plain c hc).2

/-- The header is a complete header of a function on a line of its own. -/
theorem isHeader_functionHeader : IsHeader (functionHeader name params returnType) := by
  have hfront : ∀ c ∈ "def ".toList ++ name, isPlain c = true := List.forall_mem_append.2
    ⟨List.all_eq_true.1 (by decide), fun c hc => isPlain_of_isWord (hname c hc)⟩
  have hinside := plain_join hparams
  have hback : ∀ c ∈ arrowText returnType ++ [':'], isPlain c = true := List.forall_mem_append.2
    ⟨plain_arrowText hreturn, List.all_eq_true.1 (by decide)⟩
  have hshape : functionHeader name params returnType = ("def ".toList ++ name)
      ++ '(' :: (Text.join ", ".toList params ++ ')' :: (arrowText returnType ++ [':'])) :=
    (List.append_assoc ..).symm
  have hchars : ∀ c ∈ functionHeader name params returnType,
      isQuote c = false ∧ c ≠ '#' ∧ c ≠ '\n' := by
    have hplain {c : Char} (hc : isPlain c = true) : isQuote c = false ∧ c ≠ '#' ∧ c ≠ '\n' := by
      obtain ⟨-, -, hquote, hhash, -, hnewline⟩ := isPlain_iff.1 hc
      exact ⟨hquote, hhash, hnewline⟩
    rw [hshape]
    refine List.forall_mem_append.2 ⟨fun c hc => hplain (hfront c hc), ?_⟩
    refine List.forall_mem_cons.2 ⟨by decide, List.forall_mem_append.2 ⟨?_, ?_⟩⟩
    · exact fun c hc => hplain (hinside c hc)
    · exact List.forall_mem_cons.2 ⟨by decide, fun c hc => hplain (hback c hc)⟩
  refine ⟨fun c hc => ?_, fun hmem => (hchars _ hmem).2.2 rfl, rfl, ?_, ?_, fun entry hentry => ?_⟩
  · exact ⟨(hchars c hc).1, (hchars c hc).2.1⟩
  · have hopen (rest : Text) : trackChars [] ('(' :: rest) = trackChars ['('] rest := rfl
    have hclose (rest : Text) : trackChars ['('] (')' :: rest) = trackChars [] rest := rfl
    rw [hshape, trackChars_append, trackChars_plain hfront, hopen, trackChars_append,
      trackChars_plain hinside, hclose, trackChars_plain hback]
    rfl
  · have hend : functionHeader name params returnType = ("def ".toList
        ++ (name ++ '(' :: (Text.join ", ".toList params ++ ')' :: arrowText returnType)))
        ++ [':'] := by
      simp [functionHeader]
    rw [hend, List.getLast?_concat]
  · have hdef : isDef (functionHeader name params returnType) = true :=
      isDef_iff.2 (.inl ⟨[], ' ' :: _, by simp [IsGap], by simp, rfl, (by decide : isWord ' ' = false)⟩)
    rw [headerProblem_eq_none, hentry, hdef]
    exact ⟨fun _ => defStatement_functionHeader hne hname hparams hreturn, by simp⟩

end

/-! ## Reading a header -/

theorem run_colon {s : Cursor} (hrest : s.rest = [':']) :
    run (chain [gaps, lit ":"]) s some = some (s.past ":".toList [] s.groups) := by
  have hgaps : run (chain [gaps, lit ":"]) s some = run (lit ":") (s.past [] [':'] s.groups) some :=
    run_many_skip (x := []) hrest (by simp) (by decide)
      fun hthere => run_keyword_none (by decide) (by decide) hthere
  rw [hgaps]
  exact run_lit rfl

theorem run_afterList_colon {s : Cursor} (hrest : s.rest = [':']) :
    (run afterList s some).map (·.groups) = some s.groups := by
  have hnone (k : Cursor → Option Cursor) :
      run (chain [gaps, lit "->", gaps, group 3 (few1 (noneOf ":"))]) s k = none := by
    have hgaps : run (chain [gaps, lit "->", gaps, group 3 (few1 (noneOf ":"))]) s k
        = run (chain [lit "->", gaps, group 3 (few1 (noneOf ":"))]) (s.past [] [':'] s.groups) k :=
      run_many_skip (x := []) hrest (by simp) (by decide)
        fun hthere => run_keyword_none (by decide) (by decide) hthere
    rw [hgaps]
    exact run_lit_none (other_word_ahead (by decide) (by decide))
  rw [run_afterList, hnone, Option.none_or, run_colon hrest]
  rfl

theorem run_afterList_arrow {s : Cursor} {type : Text} (htype : Part ':' type)
    (hrest : s.rest = ' ' :: ("->".toList ++ ' ' :: (type ++ [':']))) :
    (run afterList s some).map (·.groups) = some ((3, type) :: s.groups) := by
  set k : Cursor → Option Cursor := fun there => run (chain [gaps, lit ":"]) there some with hk
  set s₁ := s.past [' '] ("->".toList ++ ' ' :: (type ++ [':'])) s.groups with hs₁
  set s₂ := s₁.past "->".toList (' ' :: (type ++ [':'])) s₁.groups with hs₂
  set s₃ := s₂.past [' '] (type ++ [':']) s₂.groups with hs₃
  have hcolon : k (s₃.past type [':'] ((3, type) :: s₃.groups))
      = some ((s₃.past type [':'] ((3, type) :: s₃.groups)).past ":".toList []
          ((3, type) :: s₃.groups)) := run_colon rfl
  have hgap : run (chain [gaps, lit "->", gaps, group 3 (few1 (noneOf ":"))]) s k
      = run (chain [lit "->", gaps, group 3 (few1 (noneOf ":"))]) s₁ k :=
    run_many_skip (x := [' ']) hrest (by simp) (by rfl)
      fun hthere => run_keyword_none (by decide) (by decide) hthere
  have harrow : run (chain [lit "->", gaps, group 3 (few1 (noneOf ":"))]) s₁ k
      = run (chain [gaps, group 3 (few1 (noneOf ":"))]) s₂ k := run_lit rfl
  -- the pattern may stop where a colon follows, and a part does not end with a gap
  have hkept : run (group 3 (few1 (noneOf ":"))) s₃ k
      = k (s₃.past type [':'] ((3, type) :: s₃.groups)) := by
    refine run_group_few1_first rfl htype.ne_nil (fun c hc => ?_) (fun y z hyz hz => ?_) ?_
    · simpa using (htype.plain c hc).2
    · have hnone : ¬(chain [gaps, lit ":"]).Begins (s₃.past y [] []).before (z ++ [':']) := by
        intro hbegins
        obtain ⟨gap, rest, hgap, hcut⟩ := begins_gaps_colon hbegins
        have hz' : ':' ∉ z := fun hmem => (htype.plain ':' (hyz ▸ List.mem_append_right y hmem)).2 rfl
        have hgap' : ':' ∉ gap := fun hmem => by simpa using hgap ':' hmem
        have hsame := congrArg (Text.splitOn ':') hcut
        rw [Text.splitOn_append_cons hz', Text.splitOn_append_cons hgap'] at hsame
        exact Part.not_isGap (hyz ▸ htype) hz ((List.cons.inj hsame).1 ▸ hgap)
      by_contra hsome
      obtain ⟨found, hfound⟩ := Option.ne_none_iff_exists'.1 hsome
      obtain ⟨x, r, -, hx, hspans, -⟩ := (faithful_run (chain [gaps, lit ":"])).sound hfound
      exact hnone ⟨x, r, hx, hspans⟩
    · rw [hcolon]
      rfl
  have hspace : run (chain [gaps, group 3 (few1 (noneOf ":"))]) s₂ k
      = run (group 3 (few1 (noneOf ":"))) s₃ k := by
    obtain ⟨c, rest, hcons, hblank⟩ := htype.head
    refine run_many_most (x := [' ']) rfl (by simp) ?_ ?_
    · have hc : isGapChar c = false := by
        by_contra hgap
        have hgap : IsGap [c] := by simpa [IsGap, isGapChar, or_iff_not_imp_left] using hgap
        simp [isBlank_of_isGap hgap c (List.mem_singleton_self c)] at hblank
      rw [hcons]
      exact hc
    · exact (congrArg Option.isSome (hkept.trans hcolon)).trans rfl
  rw [run_afterList, ← hk, hgap, harrow, hspace, hkept, hcolon]
  rfl

theorem run_afterList_written {returnType : Option Text} (hreturn : ∀ type ∈ returnType, Part ':' type)
    {s : Cursor} (hrest : s.rest = arrowText returnType ++ [':']) :
    (run afterList s some).map (·.groups)
      = some ((returnType.map fun type => (3, type)).toList ++ s.groups) := by
  rcases arrowText_cases hreturn with ⟨rfl, harrow⟩ | ⟨type, rfl, htype, harrow⟩
  · exact run_afterList_colon (by rw [hrest, harrow, List.nil_append])
  · exact run_afterList_arrow htype (by rw [hrest, harrow]; rfl)

theorem groups_functionHeader {name : Text} (hne : name ≠ []) (hname : ∀ c ∈ name, isWord c = true)
    {params : List Text} (hparams : ∀ param ∈ params, Part ',' param) {returnType : Option Text}
    (hreturn : ∀ type ∈ returnType, Part ':' type) :
    ∃ found, defHeader.matchStart? (functionHeader name params returnType) = some found
      ∧ found.group? 1 = some name ∧ found.group? 2 = some (Text.join ", ".toList params)
      ∧ found.group? 3 = returnType := by
  set inside := Text.join ", ".toList params with hinside
  set tail := inside ++ ')' :: (arrowText returnType ++ [':']) with htail
  have hshape : functionHeader name params returnType
      = [] ++ (("def ".toList ++ name ++ ['(']) ++ tail) := by
    simp [functionHeader, htail, hinside]
  have hclose : ')' ∉ inside := fun hmem => absurd (plain_join hparams ')' hmem) (by decide)
  have hgap : IsGap [] := by simp [IsGap]
  obtain ⟨front, space, hspace, -, hrun⟩ := run_defHeader hgap (introduces_name hne hname) tail
  rw [← hshape, run_afterName rfl hspace, run_parameterList rfl hclose] at hrun
  obtain ⟨last, hlast, hgroups⟩ := Option.map_eq_some_iff.1
    ((congrArg (Option.map (·.groups)) hrun).trans (run_afterList_written hreturn rfl))
  refine ⟨⟨0, (functionHeader name params returnType).take (last.offset - 0), last.groups⟩, ?_, ?_⟩
  · rw [matchStart?, matchAt, ← atStart, hlast]
    rfl
  · simp only [Match.group?, hgroups]
    cases returnType <;> exact ⟨rfl, rfl, rfl⟩

/-- Reading a header gives back the parts that it is written from. -/
theorem readHeader_functionHeader {name : Text} (hne : name ≠ [])
    (hname : ∀ c ∈ name, isWord c = true) {params : List Text}
    (hparams : ∀ param ∈ params, Part ',' param) {returnType : Option Text}
    (hreturn : ∀ type ∈ returnType, Part ':' type) (other : Text) :
    readHeader other (functionHeader name params returnType) = { name, params, returnType } := by
  obtain ⟨found, hfound, hfirst, hsecond, hthird⟩ := groups_functionHeader hne hname hparams hreturn
  have hkept : (returnType.map Text.trim).filter (! ·.isEmpty) = returnType := by
    cases returnType with
    | none => rfl
    | some type =>
      rw [Option.map_some, (hreturn type rfl).trimmed, Option.filter_some,
        if_pos (by simpa using (hreturn type rfl).ne_nil)]
  rw [readHeader, hfound]
  simp only [functionOf, Match.group, hfirst, hsecond, hthird, splitParams_join hparams, hkept,
    Option.getD_some]

end Indented

end SourceLens
