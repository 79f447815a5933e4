import SourceLens.Proofs.Indented.Signatures

/-!
# InBalance parameters

Parameters joined into a list are read back exactly if each of them closes what it opens and has no
comma of its own outside (`signature_joined`). Blanks play no part in that (`nesting_filter`), so it
does not matter that they are collapsed on the way. In parameters without quotes it is a matter of
counting brackets (`whole_iff`).
-/

namespace SourceLens.Indented

/-! ## What is read apart -/

theorem Undivided.cons {quote quote' : Option Char} {depth depth' : Nat} {c : Char} {text : Text}
    (h : Undivided quote' depth' text)
    (hstep : ∀ rest, nesting quote depth (c :: rest) = nesting quote' depth' rest)
    (hcomma : ¬(c = ',' ∧ quote = none ∧ depth = 0)) : Undivided quote depth (c :: text) := by
  intro front back htext hfront
  cases front with
  | nil =>
    obtain ⟨rfl, -⟩ := List.cons.inj htext
    cases quote <;> simp_all [nesting]
  | cons d front =>
    obtain ⟨rfl, rfl⟩ := List.cons.inj htext
    exact h front back rfl ((hstep front).symm.trans hfront)

theorem undivided_of_splitSignature {t : Text} :
    ∀ {quote : Option Char} {depth : Nat} {params : List Text} {after : Text},
      splitSignature quote depth t = some (params, after) →
      ∃ param more, params = param :: more ∧ Undivided quote depth param
        ∧ ∀ param ∈ more, Undivided none 0 param := by
  induction t with
  | nil => intro quote depth params after h; simp [splitSignature] at h
  | cons c t ih =>
    intro quote depth params after h
    rcases splitSignature_cases quote depth c with
      ⟨quote', depth', hnesting, hcomma, hcut⟩ | ⟨rfl, rfl, rfl, hcut⟩ | ⟨-, rfl, rfl, -, hcut⟩
    · rw [hcut] at h
      obtain ⟨⟨params', after'⟩, hfound, heq⟩ := Option.map_eq_some_iff.1 h
      obtain ⟨param, more, rfl, hparam, hmore⟩ := ih hfound
      obtain ⟨rfl, rfl⟩ : (c :: param) :: more = params ∧ after' = after := by
        simpa [consParam] using heq
      exact ⟨c :: param, more, rfl, hparam.cons hnesting hcomma, hmore⟩
    · rw [hcut] at h
      obtain ⟨⟨params', after'⟩, hfound, heq⟩ := Option.map_eq_some_iff.1 h
      obtain ⟨param, more, rfl, hparam, hmore⟩ := ih hfound
      obtain ⟨rfl, rfl⟩ : [] :: param :: more = params ∧ after' = after := by simpa using heq
      exact ⟨[], param :: more, rfl, .of_not_mem (by simp), List.forall_mem_cons.2 ⟨hparam, hmore⟩⟩
    · obtain ⟨rfl, rfl⟩ : [[]] = params ∧ t = after := by simpa [hcut] using h
      exact ⟨[], [], rfl, .of_not_mem (by simp), by simp⟩

/-! ## Blanks -/

theorem undivided_filter {text : Text} :
    Undivided none 0 (text.filter (! isBlank ·)) ↔ Undivided none 0 text := by
  have hnone : ∀ q ∈ (none : Option Char), isQuote q = true := by simp
  constructor
  · rintro h front back rfl hfront
    refine h (front.filter (! isBlank ·)) (back.filter (! isBlank ·)) ?_ ?_
    · rw [List.filter_append, List.filter_cons_of_pos (by decide)]
    · rw [nesting_filter hnone, hfront]
  · intro h front back htext hfront
    obtain ⟨x, y, rfl, hx, hy⟩ := List.filter_eq_append_iff.1 htext
    obtain ⟨gap, rest, rfl, hgap, -, -⟩ := List.filter_eq_cons_iff.1 hy
    refine h (x ++ gap) rest (by simp) ?_
    have hsame : (x ++ gap).filter (! isBlank ·) = front := by
      rw [List.filter_append, hx, List.filter_eq_nil_iff.2 hgap, List.append_nil]
    rw [← nesting_filter hnone, hsame, hfront]

/-- A parameter that is read in one piece: it closes what it opens, and no comma divides it. -/
def Whole (param : Text) : Prop := Closed param ∧ Undivided none 0 param

theorem Whole.of_words {a b : Text} (h : Whole a) (hwords : Text.words a = Text.words b) :
    Whole b := by
  have hfilter : a.filter (! isBlank ·) = b.filter (! isBlank ·) := by
    rw [← Text.flatten_words, ← Text.flatten_words, hwords]
  have hnone : ∀ q ∈ (none : Option Char), isQuote q = true := by simp
  refine ⟨?_, ?_⟩
  · rw [Closed, ← nesting_filter hnone, ← hfilter, nesting_filter hnone]
    exact h.1
  · rw [← undivided_filter, ← hfilter, undivided_filter]
    exact h.2

/-! ## Joined parameters -/

theorem collapse_cons_blank (param : Text) :
    Text.collapse (' ' :: param) = Text.collapse param := by
  rw [Text.collapse, Text.words_cons_blank (by decide), ← Text.collapse]

/-- Joined parameters that are not blank are read back, with their blanks collapsed, exactly if each of
them is read in one piece. -/
theorem signature_joined {front : Text} (hfront : '(' ∉ front) {params : List Text}
    (hparams : ∀ param ∈ params, Text.words param ≠ []) (after : Text) :
    signature (front ++ '(' :: (Text.join ", ".toList params ++ ')' :: after))
        = some (params.map Text.collapse, after)
      ↔ ∀ param ∈ params, Whole param := by
  rw [signature_eq hfront]
  have hkeep : (params.map Text.collapse).filter (! ·.isEmpty) = params.map Text.collapse := by
    refine List.filter_eq_self.2 fun text htext => ?_
    obtain ⟨param, hparam, rfl⟩ := List.mem_map.1 htext
    simpa using mt (collapse_eq_nil_iff param).1 (hparams param hparam)
  constructor
  · intro h param hparam
    obtain ⟨⟨pieces, after'⟩, hcut, heq⟩ := Option.map_eq_some_iff.1 h
    obtain ⟨first, more, c, rfl, -, -, hfirst, hmore⟩ := splitSignature_sound hcut
    obtain ⟨_, _, hsame, hfirst', hmore'⟩ := undivided_of_splitSignature hcut
    obtain ⟨rfl, rfl⟩ := List.cons.inj hsame
    have hwhole : ∀ piece ∈ first :: more, Whole piece :=
      List.forall_mem_cons.2 ⟨⟨hfirst, hfirst'⟩, fun piece hpiece =>
        ⟨hmore piece hpiece, hmore' piece hpiece⟩⟩
    have hmem : Text.collapse param ∈ ((first :: more).map Text.collapse).filter (! ·.isEmpty) := by
      rw [(Prod.mk.inj heq).1]
      exact List.mem_map_of_mem hparam
    obtain ⟨piece, hpiece, hcollapse⟩ := List.mem_map.1 (List.mem_filter.1 hmem).1
    refine (hwhole piece hpiece).of_words ?_
    rw [← Text.words_collapse, hcollapse, Text.words_collapse]
  · intro h
    cases params with
    | nil => rfl
    | cons param more =>
      have hwhole : ∀ piece ∈ param :: more.map (' ' :: ·), Whole piece := by
        obtain ⟨hparam, hmore⟩ := List.forall_mem_cons.1 h
        refine List.forall_mem_cons.2 ⟨hparam, fun piece hpiece => ?_⟩
        obtain ⟨inner, hinner, rfl⟩ := List.mem_map.1 hpiece
        exact (hmore inner hinner).of_words (Text.words_cons_blank (by decide) inner).symm
      rw [Text.join_comma, splitSignature_join (List.cons_ne_nil _ _) hwhole, Option.map_some]
      have hcollapse : (param :: more.map (' ' :: ·)).map Text.collapse
          = (param :: more).map Text.collapse := by
        simp [Function.comp_def, collapse_cons_blank]
      simp only [hcollapse, hkeep]

/-! ## Counting brackets -/

theorem not_isCloser_of_isOpener {c : Char} (h : isOpener c = true) : isCloser c = false := by
  have hc : c = '(' ∨ c = '[' ∨ c = '\x7b' := by simpa [isOpener, or_assoc] using h
  rcases hc with rfl | rfl | rfl <;> decide

theorem forall_prefix_cons {c : Char} {rest : Text} {P : Text → Prop} :
    (∀ front, front <+: c :: rest → P front)
      ↔ P [] ∧ ∀ front, front <+: rest → P (c :: front) := by
  simp only [List.prefix_cons_iff, or_imp, forall_and, forall_eq, forall_exists_index, and_imp]
  constructor
  · rintro ⟨hnil, hcons⟩
    exact ⟨hnil, fun front hfront => hcons _ front rfl hfront⟩
  · rintro ⟨hnil, hcons⟩
    exact ⟨hnil, fun _ front hsame hfront => hsame ▸ hcons front hfront⟩

/-- In a text without quotes, brackets are counted: none is closed that is not open, and those that stay
open are the ones opened and not closed. -/
theorem nesting_unquoted {text : Text} (h : ∀ c ∈ text, isQuote c = false) :
    ∀ depth depth' : Nat, nesting none depth text = some (none, depth')
      ↔ (∀ front, front <+: text → front.countP isCloser ≤ depth + front.countP isOpener)
        ∧ depth' + text.countP isCloser = depth + text.countP isOpener := by
  induction text with
  | nil => intro depth depth'; simp [nesting, eq_comm]
  | cons c rest ih =>
    intro depth depth'
    obtain ⟨hquote, hrest⟩ := List.forall_mem_cons.1 h
    rw [nesting, if_neg (by simp [hquote]), forall_prefix_cons]
    simp only [List.countP_cons, List.countP_nil, Nat.zero_le, true_and, Nat.add_zero]
    by_cases hopener : isOpener c = true
    · have hcloser := not_isCloser_of_isOpener hopener
      rw [if_pos hopener, ih hrest]
      simp only [hopener, hcloser, if_true, Bool.false_eq_true, if_false, Nat.add_zero]
      exact and_congr (forall₂_congr fun _ _ => by omega) (by omega)
    rw [if_neg hopener]
    by_cases hcloser : isCloser c = true
    · rw [if_pos hcloser]
      simp only [hopener, hcloser, if_true, Bool.false_eq_true, if_false, Nat.add_zero]
      split_ifs with hdepth
      · refine iff_of_false (by simp) fun hcount => ?_
        have hfirst := hcount.1 [] List.nil_prefix
        simp [hdepth] at hfirst
      · rw [ih hrest]
        exact and_congr (forall₂_congr fun _ _ => by omega) (by omega)
    · rw [if_neg hcloser, ih hrest]
      simp only [hopener, hcloser, Bool.false_eq_true, if_false, Nat.add_zero]

/-- A parameter in balance: it closes as many brackets as it opens and never more than are open, and
every comma of it stands inside brackets. -/
structure InBalance (param : Text) : Prop where
  level : param.countP isCloser = param.countP isOpener
  above : ∀ front, front <+: param → front.countP isCloser ≤ front.countP isOpener
  inside : ∀ front, front ++ [','] <+: param → front.countP isCloser < front.countP isOpener

theorem closed_unquoted {text : Text} (h : ∀ c ∈ text, isQuote c = false) :
    Closed text ↔ (∀ front, front <+: text → front.countP isCloser ≤ front.countP isOpener)
      ∧ text.countP isCloser = text.countP isOpener := by
  simpa [Closed] using nesting_unquoted h 0 0

theorem whole_iff_inBalance {param : Text} (h : ∀ c ∈ param, isQuote c = false) :
    Whole param ↔ InBalance param := by
  have hopen {front : Text} (hfront : front <+: param) :=
    closed_unquoted fun c hc => h c (hfront.subset hc)
  constructor
  · rintro ⟨hclosed, hundivided⟩
    obtain ⟨habove, hlevel⟩ := (closed_unquoted h).1 hclosed
    refine ⟨hlevel, habove, fun front hcomma => ?_⟩
    have hfront : front <+: param := (List.prefix_append front [',']).trans hcomma
    obtain ⟨back, hback⟩ := hcomma
    -- a comma with nothing open in front of it divides the parameter
    refine lt_of_le_of_ne (habove front hfront) fun hsame => ?_
    refine hundivided front back (by simp [← hback])
      ((hopen hfront).2 ⟨fun start hstart => ?_, hsame⟩)
    exact habove start (hstart.trans hfront)
  · rintro ⟨hlevel, habove, hinside⟩
    refine ⟨(closed_unquoted h).2 ⟨habove, hlevel⟩, ?_⟩
    rintro front back rfl hfront
    have hless := hinside front ⟨back, by simp⟩
    have hsame := ((hopen (List.prefix_append _ _)).1 hfront).2
    omega

/-- Parameters without quotes that are joined into the list of a header are read back, with their blanks
collapsed and the text behind the list left as it is, exactly if each of them is in balance. -/
theorem signature_joined_iff {front : Text} (hfront : '(' ∉ front) {params : List Text}
    (hparams : ∀ param ∈ params, Text.allBlank param = false ∧ ∀ c ∈ param, isQuote c = false)
    (after : Text) :
    signature (front ++ '(' :: (Text.join ", ".toList params ++ ')' :: after))
        = some (params.map Text.collapse, after)
      ↔ ∀ param ∈ params, InBalance param := by
  have hwords : ∀ param ∈ params, Text.words param ≠ [] := by
    intro param hparam hblank
    simpa [Text.words_eq_nil.1 hblank] using (hparams param hparam).1
  rw [signature_joined hfront hwords]
  exact forall₂_congr fun param hparam => whole_iff_inBalance (hparams param hparam).2

theorem signature_joined_iff_nested :
    '(' ∉ "def f".toList
      ∧ (∀ param ∈ ["x:  dict[str, int]".toList, "y=g(1, [2, 3])".toList, " *rest".toList],
        Text.allBlank param = false ∧ ∀ c ∈ param, isQuote c = false)
      ∧ signature "def f(x:  dict[str, int], y=g(1, [2, 3]),  *rest) -> a(b):".toList
        = some (["x: dict[str, int]".toList, "y=g(1, [2, 3])".toList, "*rest".toList],
            " -> a(b):".toList)
      ∧ (signature ("def f".toList ++ '(' :: (Text.join ", ".toList
            ["x:  dict[str, int]".toList, "y=g(1, [2, 3])".toList, " *rest".toList]
            ++ ')' :: " -> a(b):".toList))
          = some (["x:  dict[str, int]".toList, "y=g(1, [2, 3])".toList, " *rest".toList].map
              Text.collapse, " -> a(b):".toList)
        ↔ ∀ param ∈ ["x:  dict[str, int]".toList, "y=g(1, [2, 3])".toList, " *rest".toList],
          InBalance param) := by
  have hfront : '(' ∉ "def f".toList := by decide
  -- a test of each character in the text, since deciding the `∀` would go through all characters
  have htest : ∀ param ∈ ["x:  dict[str, int]".toList, "y=g(1, [2, 3])".toList, " *rest".toList],
      Text.allBlank param = false ∧ param.all (! isQuote ·) = true := by decide +kernel
  have hparams : ∀ param ∈ ["x:  dict[str, int]".toList, "y=g(1, [2, 3])".toList, " *rest".toList],
      Text.allBlank param = false ∧ ∀ c ∈ param, isQuote c = false :=
    fun param hparam => by simpa only [List.all_eq_true, Bool.not_eq_true'] using htest param hparam
  exact ⟨hfront, hparams, by decide +kernel, signature_joined_iff hfront hparams _⟩

end SourceLens.Indented
