import SourceLens.Proofs.Indented.Names
import SourceLens.Proofs.Indented.Parameters

/-!
# Signatures of functions

A signature is read in two ways: by the header pattern, which cuts the parameters at every comma, and
by the reader for the headers that the pattern cannot take, which cuts them outside brackets and quotes
only. Where the pattern matches, both find the same list and the same annotation behind it
(`shape_of_defHeader`), so they agree exactly if every piece between two commas is closed
(`readings_agree_iff`).
-/

namespace SourceLens.Indented

open Pattern Descriptor

/-! ## What the header pattern finds -/

/-- What the header pattern finds behind a parameter list: the colon, or an annotation and the colon,
of which it keeps a part that says as much. -/
def Annotated (after : Text) (kept : Option Text) : Prop :=
  ∃ gap rest, IsGap gap ∧ (after = gap ++ ':' :: rest ∧ kept = none
    ∨ ∃ note type, after = gap ++ ("->".toList ++ (note ++ ':' :: rest)) ∧ note ≠ [] ∧ ':' ∉ note
      ∧ Text.words type = Text.words note ∧ kept = some type)

/-- The header pattern after the parameter list. -/
def afterList : Pattern :=
  chain [opt (chain [gaps, lit "->", gaps, group 3 (few1 (noneOf ":"))]), gaps, lit ":"]

theorem allBlank_of_isGap {gap : Text} (h : IsGap gap) : Text.allBlank gap = true :=
  Text.allBlank_iff.2 (isBlank_of_isGap h)

theorem spans_few1_one {test : Char → Bool} {before : Option Char} {x after : Text} :
    (few1 (one test)).Spans before x after ↔ x ≠ [] ∧ ∀ c ∈ x, test c = true :=
  spans_many1_one

theorem begins_gaps_colon {before : Option Char} {text : Text}
    (h : (chain [gaps, lit ":"]).Begins before text) :
    ∃ gap rest, IsGap gap ∧ text = gap ++ ':' :: rest := by
  obtain ⟨gap, _, rfl, hgap, colon, rest, rfl, hcolon⟩ := begins_seq.1 h
  rw [show colon = ":".toList from spans_lit.1 hcolon]
  exact ⟨gap, rest, spans_gaps.1 hgap, rfl⟩

theorem run_afterList (s : Cursor) :
    run afterList s some
      = (run (chain [gaps, lit "->", gaps, group 3 (few1 (noneOf ":"))]) s
          fun there => run (chain [gaps, lit ":"]) there some).or
        (run (chain [gaps, lit ":"]) s some) := run_opt

theorem annotated_of_afterList {s : Cursor} {found : Cursor} (hnone : s.groups.lookup 3 = none)
    (h : run afterList s some = some found) : Annotated s.rest (found.groups.lookup 3) := by
  rw [run_afterList, Option.or_eq_some_iff] at h
  rcases h with h | ⟨-, h⟩
  · obtain ⟨gap, r, _, hrest, hgap, h⟩ := (faithful_run gaps).sound h
    obtain ⟨arrow, r', _, hr, harrow, h⟩ := (faithful_run (lit "->")).sound h
    obtain ⟨u, r'', _, hr', hu, h⟩ := (faithful_run gaps).sound h
    obtain ⟨type, r''', hr'', htype, hcolon, hkept⟩ := lookup_of_run_group rfl h
    obtain ⟨v, rest, hv, rfl⟩ := begins_gaps_colon hcolon
    simp only [Cursor.past_rest] at hr hr' hr''
    rw [spans_lit] at harrow
    rw [spans_gaps] at hgap hu
    obtain ⟨hne, htype⟩ := spans_few1_one.1 htype
    have hcolon : ':' ∉ u ++ (type ++ v) := by
      have hgaps {w : Text} (hw : IsGap w) : ':' ∉ w := fun hmem => by simpa using hw ':' hmem
      have htypes : ':' ∉ type := fun hmem => absurd (htype ':' hmem) (by decide)
      simp [hgaps hu, hgaps hv, htypes]
    refine ⟨gap, rest, hgap, .inr ⟨u ++ (type ++ v), type, ?_, by simp [hne], hcolon, ?_, hkept⟩⟩
    · rw [hrest, hr, hr', hr'', harrow]
      simp
    · rw [Text.words_blank_append (allBlank_of_isGap hu),
        Text.words_append_blanks (allBlank_of_isGap hv)]
  · obtain ⟨x, rest', -, hrest, hx, -⟩ := (faithful_run (chain [gaps, lit ":"])).sound h
    obtain ⟨gap, rest, hgap, hrest⟩ := begins_gaps_colon ⟨x, rest', hrest, hx⟩
    obtain ⟨there, hthere, hgroups⟩ := keeps_run (i := 3) (chain [gaps, lit ":"]) rfl h
    obtain rfl := Option.some.inj hthere
    exact ⟨gap, rest, hgap, .inl ⟨hrest, hgroups.trans hnone⟩⟩

theorem spans_parameterList {before : Option Char} {x after : Text}
    (h : parameterList.Spans before x after) :
    ∃ inside, ')' ∉ inside ∧ x = '(' :: (inside ++ [')']) := by
  obtain ⟨y, _, rfl, hopen, inside, z, rfl, hinside, hclose⟩ := h
  rw [spans_lit] at hopen
  have hclose : z = ")".toList := spans_lit.1 hclose
  refine ⟨inside, fun hmem => ?_, by rw [hopen, hclose]; rfl⟩
  exact absurd (spans_many_one.1 hinside ')' hmem) (by decide)

theorem run_parameterList {s : Cursor} {k : Cursor → Option Cursor} {inside after : Text}
    (hrest : s.rest = '(' :: (inside ++ ')' :: after)) (hinside : ')' ∉ inside) :
    run parameterList s k
      = k (s.past ('(' :: (inside ++ [')'])) after ((2, inside) :: s.groups)) := by
  have hopen : run parameterList s k
      = run (group 2 (many (noneOf ")"))) (s.past ['('] (inside ++ ')' :: after) s.groups)
          fun there => run (lit ")") there k := run_lit hrest
  have hlist := run_group_many_skip (i := 2) (s := s.past ['('] (inside ++ ')' :: after) s.groups)
    (k := fun there => run (lit ")") there k) (t := fun c => !")".toList.contains c) rfl
    (fun c hc => by simpa using fun h : c = ')' => hinside (h ▸ hc)) rfl
    fun {there} hthere => run_lit_none fun ⟨rest, hclose⟩ => by
      simp [← hclose] at hthere
  rw [hopen]
  refine hlist.trans ?_
  rw [run_lit rfl, Cursor.past_past, Cursor.past_past]
  rfl

theorem parameterList_none {s : Cursor} {k : Cursor → Option Cursor}
    (h : s.rest.head?.any isGapChar = true) : run parameterList s k = none := by
  have hopen : run (lit "(") s (fun there =>
      run (chain [group 2 (many (noneOf ")")), lit ")"]) there k) = none :=
    run_keyword_none (by decide) (by decide) h
  exact hopen

theorem run_afterName {s : Cursor} {space tail : Text} (hrest : s.rest = space ++ '(' :: tail)
    (hspace : IsGap space) :
    run afterName s some = run parameterList (s.past space ('(' :: tail) s.groups) fun there =>
      run afterList there some :=
  run_many_skip (k := fun there => run parameterList there fun there => run afterList there some)
    hrest (isGapChar_of_isGap hspace) rfl parameterList_none

/-- The header pattern finds the parameters between the first bracket and the next closing
parenthesis. -/
theorem shape_of_defHeader {header : Text} {found : Match}
    (h : defHeader.matchStart? header = some found) :
    ∃ front inside after, '(' ∉ front ∧ header = front ++ '(' :: (inside ++ ')' :: after)
      ∧ found.group? 2 = some inside ∧ Annotated after (found.group? 3) := by
  obtain ⟨gap, lead, tail, hgap, hlead, rfl⟩ := introduces_of_defHeader h
  obtain ⟨front, space, hspace, hfront, hrun⟩ := run_defHeader hgap hlead tail
  obtain ⟨last, hlast, rfl⟩ := Option.map_eq_some_iff.1 h
  rw [← atStart, hrun] at hlast
  rw [run_afterName rfl hspace] at hlast
  obtain ⟨x, after, -, htail, hx, -⟩ := (faithful_run parameterList).sound hlast
  obtain ⟨inside, hinside, rfl⟩ := spans_parameterList hx
  obtain rfl : tail = inside ++ ')' :: after := by simpa using htail
  rw [run_parameterList rfl hinside] at hlast
  obtain ⟨there, hthere, hparams⟩ := keeps_run (i := 2) afterList rfl hlast
  obtain rfl := Option.some.inj hthere
  refine ⟨front ++ space, inside, after, ?_, ?_, hparams, annotated_of_afterList rfl hlast⟩
  · obtain ⟨c, words, rfl, -, hplain⟩ := hlead.plain
    have hsame : gap ++ c :: words = front ++ space := by
      rw [← List.cons_append, ← List.append_assoc, ← List.append_assoc] at hfront
      exact List.append_cancel_right hfront
    rw [← hsame, List.mem_append, not_or]
    exact ⟨fun hmem => by simpa using hgap '(' hmem, fun hmem => absurd (hplain '(' hmem) (by decide)⟩
  · rw [← List.append_assoc, hfront]
    simp

/-! ## What the other reader finds -/

theorem trimStart_gap_append {gap : Text} (hgap : Text.allBlank gap = true) {c : Char}
    (hc : isBlank c = false) (rest : Text) : Text.trimStart (gap ++ c :: rest) = c :: rest := by
  rw [Text.trimStart_append hgap, Text.trimStart_of_head rfl hc]

theorem arrowType_of_colon {gap : Text} (hgap : IsGap gap) (rest : Text) :
    arrowType.matchStart? (gap ++ ':' :: rest) = none := by
  refine matchAt_eq_none (fun x r htext hx => ?_) 0
  obtain ⟨b, _, rfl, hb, arrow, x, rfl, harrow, -⟩ := hx
  rw [spans_lit] at harrow
  have hblank : Text.allBlank b = true := Text.allBlank_iff.2 (spans_many_one.1 hb)
  have hstart := congrArg Text.trimStart htext
  rw [trimStart_gap_append (allBlank_of_isGap hgap) (by decide), harrow, List.append_assoc] at hstart
  have harrow : "->".toList ++ x ++ r = '-' :: ('>' :: (x ++ r)) := rfl
  rw [harrow, trimStart_gap_append hblank (by decide)] at hstart
  simp at hstart

theorem arrowType_of_arrow {gap note : Text} (hgap : IsGap gap) (hne : note ≠ []) (hnote : ':' ∉ note)
    (rest : Text) :
    ∃ found, arrowType.matchStart? (gap ++ ("->".toList ++ (note ++ ':' :: rest))) = some found
      ∧ Text.words (found.group 1) = Text.words note := by
  set text := gap ++ ("->".toList ++ (note ++ ':' :: rest)) with htext
  have hgapBlank := allBlank_of_isGap hgap
  have hnotColon : ∀ c ∈ note, (! ":".toList.contains c) = true := fun c hc => by
    simpa using fun h : c = ':' => hnote (h ▸ hc)
  have hbegins : arrowType.Begins none text := by
    refine ⟨gap ++ ("->".toList ++ ([] ++ (note ++ ([] ++ ":".toList)))), rest, by simp [htext],
      gap, _, rfl, spans_many_one.2 (Text.allBlank_iff.1 hgapBlank), "->".toList, _, rfl,
      spans_lit.2 rfl, [], _, rfl, .done .., note, _, rfl, spans_few1_one.2 ⟨hne, hnotColon⟩,
      [], _, rfl, .done .., spans_lit.2 rfl⟩
  obtain ⟨found, hfound⟩ := Option.isSome_iff_exists.1 (startsAt_iff.2 hbegins)
  refine ⟨found, hfound, ?_⟩
  obtain ⟨last, hlast, rfl⟩ := Option.map_eq_some_iff.1 hfound
  obtain ⟨b, r₁, _, hr₁, hb, h⟩ := (faithful_run blanks).sound hlast
  obtain ⟨arrow, r₂, _, hr₂, harrow, h⟩ := (faithful_run (lit "->")).sound h
  obtain ⟨u, r₃, _, hr₃, hu, h⟩ := (faithful_run blanks).sound h
  obtain ⟨type, r₄, hr₄, htype, ⟨x, rest', hr₅, v, colon, rfl, hv, hcolon⟩, hkept⟩ :=
    lookup_of_run_group (q := chain [blanks, lit ":"]) rfl h
  simp only [Cursor.past_rest] at hr₁ hr₂ hr₃ hr₄
  rw [spans_lit] at harrow
  have hcolon : colon = ":".toList := spans_lit.1 hcolon
  have hblank {w : Text} (hw : ∀ c ∈ w, isBlank c = true) : Text.allBlank w = true :=
    Text.allBlank_iff.2 hw
  have hb := hblank (spans_many_one.1 hb)
  have hu := hblank (spans_many_one.1 hu)
  have hv := hblank (spans_many_one.1 hv)
  -- behind the arrow, both readings come to the same colon
  have hsame : note ++ ':' :: rest = (u ++ (type ++ v)) ++ ':' :: rest' := by
    have hread : text = b ++ '-' :: '>' :: ((u ++ (type ++ v)) ++ ':' :: rest') := by
      have hr₁ : text = b ++ r₁ := hr₁
      rw [hr₁, hr₂, hr₃, hr₄, hr₅, harrow, hcolon]
      simp
    have hstart := congrArg Text.trimStart hread
    have hgiven : text = gap ++ '-' :: '>' :: (note ++ ':' :: rest) := by simp [htext]
    rw [trimStart_gap_append hb (by decide), hgiven, trimStart_gap_append hgapBlank (by decide)]
      at hstart
    simpa using hstart
  have hfree : ':' ∉ u ++ (type ++ v) := by
    have hgaps {w : Text} (hw : Text.allBlank w = true) : ':' ∉ w := fun hmem =>
      absurd (Text.allBlank_iff.1 hw ':' hmem) (by decide)
    have htypes : ':' ∉ type := fun hmem =>
      absurd ((spans_few1_one.1 htype).2 ':' hmem) (by decide)
    simp [hgaps hu, hgaps hv, htypes]
  have hcut := congrArg (Text.splitOn ':') hsame
  rw [Text.splitOn_append_cons hnote, Text.splitOn_append_cons hfree] at hcut
  have hgroup : Match.group ⟨0, text.take (last.offset - 0), last.groups⟩ 1 = type := by
    rw [Match.group, Match.group?, hkept]
    rfl
  rw [hgroup, (List.cons.inj hcut).1, Text.words_blank_append hu, Text.words_append_blanks hv]

/-! ## Both readings -/

/-- Two descriptions of a function have the same signature up to whitespace. An annotation of blanks,
which the second description keeps, is none in the first. -/
def SameSignature (first second : FunctionInfo) : Prop :=
  first.params.map Text.words = second.params.map Text.words
    ∧ first.returnType.map Text.words = (second.returnType.map Text.words).filter (! ·.isEmpty)

instance (first second : FunctionInfo) : Decidable (SameSignature first second) :=
  inferInstanceAs (Decidable (_ ∧ _))

theorem signature_eq {front : Text} (hfront : '(' ∉ front) (rest : Text) :
    signature (front ++ '(' :: rest) = (splitSignature none 0 rest).map fun (params, after) =>
      ((params.map Text.collapse).filter (! ·.isEmpty), after) := by
  have hdrop : (front ++ '(' :: rest).dropWhile (· ≠ '(') = '(' :: rest := by
    rw [List.dropWhile_append_of_pos fun c hc => by simpa using fun h : c = '(' => hfront (h ▸ hc),
      List.dropWhile_cons_of_neg (by simp)]
  rw [signature, hdrop]

theorem trim_eq_nil_iff (text : Text) : Text.trim text = [] ↔ Text.words text = [] :=
  Text.trim_eq_nil.trans Text.words_eq_nil.symm

theorem collapse_eq_nil_iff (text : Text) : Text.collapse text = [] ↔ Text.words text = [] :=
  ⟨fun h => by rw [← Text.words_collapse, h]; rfl, fun h => by rw [Text.collapse, h]; rfl⟩

theorem params_functionOfHeader (name : Text) {front : Text} (hfront : '(' ∉ front) (rest : Text) :
    (functionOfHeader name (front ++ '(' :: rest)).params.map Text.words
      = paramWords ((splitSignature none 0 rest).elim [] (·.1)) := by
  rw [functionOfHeader, signature_eq hfront]
  cases splitSignature none 0 rest with
  | none => rfl
  | some found => exact words_tidied Text.words_collapse collapse_eq_nil_iff _

theorem returnType_functionOfHeader (name : Text) {front rest after : Text} {params : List Text}
    (hfront : '(' ∉ front) (hcut : splitSignature none 0 rest = some (params, after)) :
    (functionOfHeader name (front ++ '(' :: rest)).returnType
      = (arrowType.matchStart? after).map (·.group 1) := by
  rw [functionOfHeader, signature_eq hfront, hcut]
  rfl

theorem Annotated.same {after : Text} {kept : Option Text} (h : Annotated after kept) :
    ((kept.map Text.trim).filter (! ·.isEmpty)).map Text.words
      = (((arrowType.matchStart? after).map (·.group 1)).map Text.words).filter (! ·.isEmpty) := by
  obtain ⟨gap, rest, hgap, ⟨rfl, rfl⟩ | ⟨note, type, rfl, hne, hnote, hwords, rfl⟩⟩ := h
  · rw [arrowType_of_colon hgap]
    rfl
  · obtain ⟨found, hfound, hgroup⟩ := arrowType_of_arrow hgap hne hnote rest
    have hnil := trim_eq_nil_iff type
    rw [hwords] at hnil
    rw [hfound, Option.map_some, Option.map_some, Option.map_some, hgroup]
    by_cases hblank : Text.words note = []
    · rw [hblank, hnil.2 hblank]
      rfl
    · rw [Option.filter_some_pos (by simpa using mt hnil.1 hblank),
        Option.filter_some_pos (by simpa using hblank), Option.map_some, Text.words_trim, hwords]

/-- Where the header pattern matches, its signature is the one that the reader of brackets and quotes
finds, exactly if every piece between two commas of the parameter list is closed: where a comma stands
inside brackets or quotes, the pattern cuts a parameter in two. -/
theorem readings_agree_iff (name : Text) {header : Text} {found : Match}
    (h : defHeader.matchStart? header = some found) :
    SameSignature (functionOf found) (functionOfHeader name header)
      ↔ ∀ piece ∈ Text.splitOn ',' (found.group 2), Closed piece := by
  obtain ⟨front, inside, after, hfront, rfl, hlist, hannotated⟩ := shape_of_defHeader h
  have hgroup : found.group 2 = inside := by rw [Match.group, hlist]; rfl
  have hparams : (functionOf found).params.map Text.words = paramWords (Text.splitOn ',' inside) := by
    rw [functionOf, hlist]
    exact words_tidied Text.words_trim trim_eq_nil_iff _
  rw [SameSignature, hparams, params_functionOfHeader name hfront, hgroup, eq_comm,
    cut_alike_iff inside after, and_iff_left_iff_imp]
  intro hclosed
  rw [returnType_functionOfHeader name hfront (cut_of_closed hclosed after)]
  exact hannotated.same

theorem readings_agree_iff_defaults :
    ∃ found, defHeader.matchStart? "def f(a, b=[]) -> int:".toList = some found
      ∧ (SameSignature (functionOf found) (functionOfHeader "f".toList "def f(a, b=[]) -> int:".toList)
        ↔ ∀ piece ∈ Text.splitOn ',' (found.group 2), Closed piece) := by
  have hsome : (defHeader.matchStart? "def f(a, b=[]) -> int:".toList).isSome = true := by
    decide +kernel
  obtain ⟨found, hfound⟩ := Option.isSome_iff_exists.1 hsome
  exact ⟨found, hfound, readings_agree_iff "f".toList hfound⟩

/-- The comma of a subscript cuts an annotated parameter in two, in a text without problems. -/
theorem readings_differ_subscript :
    diagnose "def f(x: dict[str, int]):\n    pass\n".toList = []
      ∧ ∃ entry ∈ (scan "def f(x: dict[str, int]):\n    pass\n".toList).logical,
        isDef entry.code = true
          ∧ headerText (Text.lines "def f(x: dict[str, int]):\n    pass\n".toList) entry
            = "def f(x: dict[str, int]):".toList
          ∧ (defHeader.matchStart? "def f(x: dict[str, int]):".toList).map (fun found =>
              ((functionOf found).params, decide (SameSignature (functionOf found)
                (functionOfHeader "f".toList "def f(x: dict[str, int]):".toList))))
            = some (["x: dict[str".toList, "int]".toList], false) := by
  decide +kernel

end SourceLens.Indented
