import SourceLens.Indented.Signature
import SourceLens.Proofs.Indented.Lexing

/-!
# Parameters

A parameter list is cut at the commas outside brackets and quotes. Joined pieces that close whatever
they open are cut apart again (`splitSignature_join`), and whatever is cut apart is such pieces
(`splitSignature_sound`). So cutting the list at every comma up to its first bracket gives the same
parameters exactly if each of those pieces is closed (`cut_alike_iff`).
-/

namespace SourceLens

namespace Text

theorem join_cons_cons (sep : Char) (c : Char) (piece : Text) (more : List Text) :
    join [sep] ((c :: piece) :: more) = c :: join [sep] (piece :: more) := by
  cases more <;> simp [join, List.intercalate_cons_cons]

theorem join_comma (piece : Text) (more : List Text) :
    join ", ".toList (piece :: more) = join [','] (piece :: more.map (' ' :: ·)) := by
  induction more generalizing piece with
  | nil => rfl
  | cons next more ih =>
    have hnext : join [','] ((' ' :: next) :: more.map (' ' :: ·))
        = ' ' :: join [','] (next :: more.map (' ' :: ·)) := join_cons_cons ..
    rw [List.map_cons, join, join, List.intercalate_cons_cons, List.intercalate_cons_cons, ← join,
      ← join, hnext, ← ih]
    simp

theorem join_nil_cons (sep : Char) {pieces : List Text} (h : pieces ≠ []) :
    join [sep] ([] :: pieces) = sep :: join [sep] pieces := by
  obtain ⟨piece, more, rfl⟩ := List.exists_cons_of_ne_nil h
  simp [join, List.intercalate_cons_cons]

end Text

namespace Indented

/-! ## What is open -/

/-- What is open after a text, given what is open before it: a quote, and a number of brackets. None
if the text closes a bracket that is not open. -/
def nesting : Option Char → Nat → Text → Option (Option Char × Nat)
  | quote, depth, [] => some (quote, depth)
  | some quote, depth, c :: rest => nesting (if c = quote then none else some quote) depth rest
  | none, depth, c :: rest =>
    if isQuote c then nesting (some c) depth rest
    else if isOpener c then nesting none (depth + 1) rest
    else if isCloser c then if depth = 0 then none else nesting none (depth - 1) rest
    else nesting none depth rest

/-- A text closes the quotes and brackets that it opens, and no others. -/
def Closed (text : Text) : Prop := nesting none 0 text = some (none, 0)

instance (text : Text) : Decidable (Closed text) :=
  inferInstanceAs (Decidable (nesting none 0 text = some (none, 0)))

/-- No comma of a text stands outside quotes and brackets, given what is open before it. -/
def Undivided (quote : Option Char) (depth : Nat) (text : Text) : Prop :=
  ∀ front back, text = front ++ ',' :: back → nesting quote depth front ≠ some (none, 0)

theorem Undivided.of_not_mem {quote : Option Char} {depth : Nat} {text : Text} (h : ',' ∉ text) :
    Undivided quote depth text := by
  rintro front back rfl
  exact absurd (List.mem_append_right front List.mem_cons_self) h

theorem Undivided.tail {quote quote' : Option Char} {depth depth' : Nat} {c : Char} {text : Text}
    (h : Undivided quote depth (c :: text))
    (hstep : ∀ rest, nesting quote depth (c :: rest) = nesting quote' depth' rest) :
    Undivided quote' depth' text := by
  rintro front back rfl hfront
  exact h (c :: front) back rfl ((hstep front).trans hfront)

/-! ## Blanks -/

theorem isBlank_of_isOpener {c : Char} (h : isOpener c = true) : isBlank c = false := by
  have hc : c = '(' ∨ c = '[' ∨ c = '\x7b' := by simpa [isOpener, or_assoc] using h
  rcases hc with rfl | rfl | rfl <;> decide

theorem isBlank_of_isCloser {c : Char} (h : isCloser c = true) : isBlank c = false := by
  have hc : c = ')' ∨ c = ']' ∨ c = '\x7d' := by
    rw [isCloser, openerOf?] at h
    split_ifs at h <;> simp_all
  rcases hc with rfl | rfl | rfl <;> decide

theorem nesting_blank {quote : Option Char} (hquote : ∀ q ∈ quote, isQuote q = true) (depth : Nat)
    {c : Char} (hc : isBlank c = true) (rest : Text) :
    nesting quote depth (c :: rest) = nesting quote depth rest := by
  cases quote with
  | some q =>
    have hne : c ≠ q := by
      rintro rfl
      rw [isBlank_of_isQuote (hquote c rfl)] at hc
      simp at hc
    rw [nesting, if_neg hne]
  | none =>
    have hq : ¬isQuote c := fun h => by simp [isBlank_of_isQuote h] at hc
    have hopener : ¬isOpener c := fun h => by simp [isBlank_of_isOpener h] at hc
    have hcloser : ¬isCloser c := fun h => by simp [isBlank_of_isCloser h] at hc
    rw [nesting, if_neg hq, if_neg hopener, if_neg hcloser]

theorem nesting_filter {text : Text} : ∀ {quote : Option Char} {depth : Nat},
    (∀ q ∈ quote, isQuote q = true) →
    nesting quote depth (text.filter (! isBlank ·)) = nesting quote depth text := by
  induction text with
  | nil => exact fun _ => rfl
  | cons c rest ih =>
    intro quote depth hquote
    by_cases hc : isBlank c = true
    · rw [List.filter_cons_of_neg (by simp [hc]), nesting_blank hquote depth hc, ih hquote]
    rw [List.filter_cons_of_pos (by simpa using hc)]
    cases quote with
    | some q =>
      rw [nesting, nesting]
      split_ifs
      · exact ih (by simp)
      · exact ih hquote
    | none =>
      rw [nesting, nesting]
      split_ifs with hq hopener hcloser hdepth
      · exact ih (by simpa using hq)
      · exact ih (by simp)
      · rfl
      · exact ih (by simp)
      · exact ih (by simp)

/-! ## Cutting and joining -/

/-- What the next character does: it goes to the first parameter, a comma outside brackets and quotes
cuts that one off, and a bracket that closes none of its own ends the list. -/
theorem splitSignature_cases (quote : Option Char) (depth : Nat) (c : Char) :
    (∃ quote' depth', (∀ x, nesting quote depth (c :: x) = nesting quote' depth' x)
        ∧ ¬(c = ',' ∧ quote = none ∧ depth = 0)
        ∧ ∀ t, splitSignature quote depth (c :: t)
          = (splitSignature quote' depth' t).map (consParam c))
      ∨ (c = ',' ∧ quote = none ∧ depth = 0
        ∧ ∀ t, splitSignature quote depth (c :: t)
          = (splitSignature none 0 t).map fun found => ([] :: found.1, found.2))
      ∨ (isCloser c = true ∧ quote = none ∧ depth = 0 ∧ (∀ x, nesting quote depth (c :: x) = none)
        ∧ ∀ t, splitSignature quote depth (c :: t) = some ([[]], t)) := by
  cases quote with
  | some q =>
    exact .inl ⟨if c = q then none else some q, depth, fun x => by rw [nesting], by simp,
      fun t => by rw [splitSignature]⟩
  | none =>
    by_cases hquote : isQuote c
    · refine .inl ⟨some c, depth, fun x => by rw [nesting, if_pos hquote], ?_,
        fun t => by rw [splitSignature, if_pos hquote]⟩
      rintro ⟨rfl, -⟩
      simp [isQuote] at hquote
    by_cases hopener : isOpener c
    · refine .inl ⟨none, depth + 1, fun x => by rw [nesting, if_neg hquote, if_pos hopener], ?_,
        fun t => by rw [splitSignature, if_neg hquote, if_pos hopener]⟩
      rintro ⟨rfl, -⟩
      simp [isOpener] at hopener
    by_cases hcloser : isCloser c
    · by_cases hdepth : depth = 0
      · exact .inr (.inr ⟨hcloser, rfl, hdepth,
          fun x => by rw [nesting, if_neg hquote, if_neg hopener, if_pos hcloser, if_pos hdepth],
          fun t => by
            rw [splitSignature, if_neg hquote, if_neg hopener, if_pos hcloser, if_pos hdepth]⟩)
      · exact .inl ⟨none, depth - 1,
          fun x => by rw [nesting, if_neg hquote, if_neg hopener, if_pos hcloser, if_neg hdepth],
          fun h => hdepth h.2.2, fun t => by
            rw [splitSignature, if_neg hquote, if_neg hopener, if_pos hcloser, if_neg hdepth]⟩
    by_cases hcomma : c = ',' ∧ depth = 0
    · obtain ⟨rfl, rfl⟩ := hcomma
      exact .inr (.inl ⟨rfl, rfl, rfl, fun t => rfl⟩)
    · exact .inl ⟨none, depth,
        fun x => by rw [nesting, if_neg hquote, if_neg hopener, if_neg hcloser],
        fun h => hcomma ⟨h.1, h.2.2⟩, fun t => by
          rw [splitSignature, if_neg hquote, if_neg hopener, if_neg hcloser,
            if_neg (by simpa using hcomma)]⟩

/-- Characters are read as part of the first parameter where they open and close no more than brackets
and quotes of their own, and no comma divides them. -/
theorem splitSignature_append {x : Text} (t : Text) :
    ∀ {quote quote' : Option Char} {depth depth' : Nat}, Undivided quote depth x →
      nesting quote depth x = some (quote', depth') →
      splitSignature quote depth (x ++ t)
        = (splitSignature quote' depth' t).map fun found => x.foldr consParam found := by
  induction x with
  | nil =>
    intro quote quote' depth depth' _ h
    obtain ⟨rfl, rfl⟩ : quote = quote' ∧ depth = depth' := by
      cases quote <;> simpa [nesting] using h
    simp
  | cons c x ih =>
    intro quote quote' depth depth' hwhole h
    rcases splitSignature_cases quote depth c with
      ⟨quote₁, depth₁, hnesting, -, hcut⟩ | ⟨rfl, rfl, rfl, -⟩ | ⟨-, -, -, hnesting, -⟩
    · rw [hnesting] at h
      rw [List.cons_append, hcut, ih (hwhole.tail hnesting) h]
      cases splitSignature quote' depth' t <;> rfl
    · exact absurd (by rw [nesting]) (hwhole [] x rfl)
    · simp [hnesting] at h

theorem foldr_consParam (x param : Text) (params : List Text) (after : Text) :
    x.foldr consParam (param :: params, after) = ((x ++ param) :: params, after) := by
  induction x with
  | nil => rfl
  | cons c x ih => rw [List.foldr_cons, ih, consParam, List.cons_append]

/-- Closed parameters between commas are found again, if no comma divides one of them. -/
theorem splitSignature_join {params : List Text} (hne : params ≠ [])
    (h : ∀ param ∈ params, Closed param ∧ Undivided none 0 param) (after : Text) :
    splitSignature none 0 (Text.join [','] params ++ ')' :: after) = some (params, after) := by
  have hend : splitSignature none 0 (')' :: after) = some ([[]], after) := rfl
  induction params with
  | nil => exact absurd rfl hne
  | cons param more ih =>
    obtain ⟨⟨hclosed, hwhole⟩, hmore⟩ := List.forall_mem_cons.1 h
    cases more with
    | nil =>
      have hjoin : Text.join [','] [param] = param := by simp [Text.join]
      rw [hjoin, splitSignature_append _ hwhole hclosed, hend, Option.map_some, foldr_consParam,
        List.append_nil]
    | cons next more =>
      have hjoin : Text.join [','] (param :: next :: more)
          = param ++ ',' :: Text.join [','] (next :: more) := by
        simp [Text.join, List.intercalate_cons_cons]
      have hcomma (t : Text) : splitSignature none 0 (',' :: t)
          = (splitSignature none 0 t).map fun found => ([] :: found.1, found.2) := rfl
      rw [hjoin, List.append_assoc, splitSignature_append _ hwhole hclosed, List.cons_append, hcomma,
        ih (List.cons_ne_nil _ _) hmore, Option.map_some, Option.map_some, foldr_consParam,
        List.append_nil]

/-- What is cut apart is parameters between commas, and the list ends at a bracket that closes it. -/
theorem splitSignature_sound {t : Text} :
    ∀ {quote : Option Char} {depth : Nat} {params : List Text} {after : Text},
      splitSignature quote depth t = some (params, after) →
      ∃ param more c, params = param :: more ∧ isCloser c = true
        ∧ t = Text.join [','] params ++ c :: after
        ∧ nesting quote depth param = some (none, 0) ∧ ∀ param ∈ more, Closed param := by
  induction t with
  | nil => intro quote depth params after h; simp [splitSignature] at h
  | cons d t ih =>
    intro quote depth params after h
    rcases splitSignature_cases quote depth d with
      ⟨quote', depth', hnesting, -, hcut⟩ | ⟨rfl, rfl, rfl, hcut⟩ | ⟨hcloser, rfl, rfl, -, hcut⟩
    · rw [hcut] at h
      obtain ⟨⟨params', after'⟩, hfound, heq⟩ := Option.map_eq_some_iff.1 h
      obtain ⟨param, more, c, rfl, hc, ht, hparam, hmore⟩ := ih hfound
      obtain ⟨rfl, rfl⟩ : (d :: param) :: more = params ∧ after' = after := by
        simpa [consParam] using heq
      refine ⟨d :: param, more, c, rfl, hc, ?_, (hnesting param).trans hparam, hmore⟩
      rw [Text.join_cons_cons, List.cons_append, ← ht]
    · rw [hcut] at h
      obtain ⟨⟨params', after'⟩, hfound, heq⟩ := Option.map_eq_some_iff.1 h
      obtain ⟨param, more, c, rfl, hc, rfl, hparam, hmore⟩ := ih hfound
      obtain ⟨rfl, rfl⟩ : [] :: param :: more = params ∧ after' = after := by simpa using heq
      refine ⟨[], param :: more, c, rfl, hc, ?_, by rw [nesting],
        List.forall_mem_cons.2 ⟨hparam, hmore⟩⟩
      rw [Text.join_nil_cons ',' (List.cons_ne_nil _ _), List.cons_append]
    · obtain ⟨rfl, rfl⟩ : [[]] = params ∧ t = after := by simpa [hcut] using h
      exact ⟨[], [], d, rfl, hcloser, by simp [Text.join], by rw [nesting], by simp⟩

/-! ## Cutting at every comma -/

/-- The characters of a text that are no blanks and no commas. -/
def solid (text : Text) : Text := text.filter fun c => ! isBlank c && c != ','

theorem solid_append (x y : Text) : solid (x ++ y) = solid x ++ solid y := List.filter_append ..

theorem solid_closer_ne_nil {c : Char} (h : isCloser c = true) (rest : Text) :
    solid (c :: rest) ≠ [] := by
  have hcomma : c ≠ ',' := by
    rintro rfl
    simp [isCloser, openerOf?] at h
  have hkept : (! isBlank c && c != ',') = true := by simp [isBlank_of_isCloser h, hcomma]
  rw [solid, List.filter_cons, if_pos hkept]
  exact List.cons_ne_nil _ _

theorem solid_join (params : List Text) :
    solid (Text.join [','] params)
      = ((params.map Text.words).filter (! ·.isEmpty)).flatten.flatten.filter (· != ',') := by
  induction params with
  | nil => rfl
  | cons param more ih =>
    have hparam : solid param = (Text.words param).flatten.filter (· != ',') := by
      rw [Text.flatten_words, List.filter_filter, solid]
      simp only [Bool.and_comm]
    have hjoin : solid (Text.join [','] (param :: more))
        = solid param ++ solid (Text.join [','] more) := by
      cases more with
      | nil => simp [Text.join, solid]
      | cons next more =>
        have hcomma : solid (',' :: Text.join [','] (next :: more))
            = solid (Text.join [','] (next :: more)) := by simp [solid]
        rw [← hcomma, ← solid_append]
        simp [Text.join, List.intercalate_cons_cons]
    rw [hjoin, ih, hparam]
    cases hwords : Text.words param <;> simp [hwords]

/-- The parameters of a list that are not blank, by their words. -/
def paramWords (params : List Text) : List (List Text) :=
  (params.map Text.words).filter (! ·.isEmpty)

theorem words_tidied {tidy : Text → Text} (hwords : ∀ x, Text.words (tidy x) = Text.words x)
    (hnil : ∀ x, tidy x = [] ↔ Text.words x = []) (params : List Text) :
    ((params.map tidy).filter (! ·.isEmpty)).map Text.words = paramWords params := by
  induction params with
  | nil => rfl
  | cons param more ih =>
    rw [paramWords] at ih ⊢
    by_cases hblank : Text.words param = []
    · simpa [hblank, (hnil param).2 hblank] using ih
    · have hne : tidy param ≠ [] := mt (hnil param).1 hblank
      simpa [hblank, hne, hwords] using ih

theorem closed_of_words_eq_nil {text : Text} (h : Text.words text = []) : Closed text := by
  rw [Closed, ← nesting_filter (by simp), ← Text.flatten_words, h]
  rfl

theorem not_mem_of_paramWords {params : List Text} {x : Text}
    (h : paramWords params = paramWords (Text.splitOn ',' x)) : ∀ param ∈ params, ',' ∉ param := by
  intro param hparam hcomma
  have hword : ',' ∈ (Text.words param).flatten := by
    rw [Text.flatten_words]
    exact List.mem_filter.2 ⟨hcomma, by decide⟩
  have hmem : Text.words param ∈ paramWords (Text.splitOn ',' x) := by
    rw [← h]
    refine List.mem_filter.2 ⟨List.mem_map_of_mem hparam, ?_⟩
    cases hwords : Text.words param with
    | nil => simp [hwords] at hword
    | cons => rfl
  obtain ⟨piece, hpiece, hsame⟩ := List.mem_map.1 (List.mem_filter.1 hmem).1
  rw [← hsame, Text.flatten_words] at hword
  exact Text.not_mem_of_mem_splitOn hpiece (List.mem_filter.1 hword).1

theorem cut_of_closed {inside : Text} (h : ∀ piece ∈ Text.splitOn ',' inside, Closed piece)
    (after : Text) :
    splitSignature none 0 (inside ++ ')' :: after) = some (Text.splitOn ',' inside, after) := by
  have hcut := splitSignature_join (Text.splitOn_ne_nil ',' inside)
    (fun piece hpiece =>
      ⟨h piece hpiece, Undivided.of_not_mem (Text.not_mem_of_mem_splitOn hpiece)⟩) after
  rwa [Text.join_splitOn] at hcut

/-- A parameter list is cut the same way at every comma and at the commas outside brackets and quotes,
exactly if the pieces between its commas are closed. -/
theorem cut_alike_iff (inside after : Text) :
    paramWords ((splitSignature none 0 (inside ++ ')' :: after)).elim [] (·.1))
        = paramWords (Text.splitOn ',' inside)
      ↔ ∀ piece ∈ Text.splitOn ',' inside, Closed piece := by
  constructor
  · intro h
    cases hcut : splitSignature none 0 (inside ++ ')' :: after) with
    | none =>
      -- no parameters at all, so the pieces are blank
      intro piece hpiece
      apply closed_of_words_eq_nil
      by_contra hne
      have hmem : Text.words piece ∈ paramWords (Text.splitOn ',' inside) :=
        List.mem_filter.2 ⟨List.mem_map_of_mem hpiece, by simpa using hne⟩
      rw [← h, hcut] at hmem
      simp [paramWords] at hmem
    | some found =>
      obtain ⟨params, after'⟩ := found
      rw [hcut] at h
      change paramWords params = _ at h
      obtain ⟨param, more, c, hparams, hc, htext, hparam, hmore⟩ := splitSignature_sound hcut
      have hsolid : solid inside = solid (Text.join [','] params) := by
        conv_lhs => rw [← Text.join_splitOn ',' inside]
        rw [solid_join, solid_join]
        exact congrArg (fun words => words.flatten.flatten.filter (· != ',')) h.symm
      -- both lists end at a bracket, and a longer one would hold more than the other
      have hsame : inside = Text.join [','] params := by
        rcases List.append_eq_append_iff.1 htext with ⟨x, hx, hend⟩ | ⟨x, hx, hend⟩
        · cases x with
          | nil => rw [hx, List.append_nil]
          | cons d x =>
            obtain ⟨rfl, -⟩ := List.cons.inj hend
            rw [hx, solid_append] at hsolid
            exact absurd (List.self_eq_append_right.1 hsolid) (solid_closer_ne_nil rfl x)
        · cases x with
          | nil => rw [hx, List.append_nil]
          | cons d x =>
            obtain ⟨rfl, -⟩ := List.cons.inj hend
            rw [hx, solid_append] at hsolid
            exact absurd (List.append_right_eq_self.1 hsolid) (solid_closer_ne_nil hc x)
      have hsplit : Text.splitOn ',' inside = params := by
        rw [hsame]
        exact Text.splitOn_join (by simp [hparams]) (not_mem_of_paramWords h)
      rw [hsplit, hparams]
      exact List.forall_mem_cons.2 ⟨hparam, hmore⟩
  · intro hclosed
    rw [cut_of_closed hclosed]
    rfl

end Indented

end SourceLens
