import Mathlib.Data.List.TakeWhile
import SourceLens.Proofs.Pattern.Introduced
import SourceLens.Stylesheet.Edit

/-!
# What a sheet imports

Both import patterns of a sheet read quoted specifiers behind a head: an import statement up to its
first quote (`readsBehind_importRule`), or a use statement (`readsBehind_useRule`).
-/

namespace SourceLens.Stylesheet

open Pattern Descriptor

def importRule : Pattern :=
  chain [lit "@import", blanks1, opt (chain [lit "url(", blanks]), specifier, blanks, opt (lit ")")]

def useRule : Pattern := chain [lit "@use", blanks1, specifier]

/-- An import statement up to its first quote. -/
inductive ImportHead : Text → Prop
  | plain {gap : Text} : gap ≠ [] → (∀ c ∈ gap, isBlank c = true) →
      ImportHead ("@import".toList ++ gap)
  | url {gap pad : Text} : gap ≠ [] → (∀ c ∈ gap, isBlank c = true) →
      (∀ c ∈ pad, isBlank c = true) →
      ImportHead ("@import".toList ++ (gap ++ ("url(".toList ++ pad)))

/-- A use statement up to its first quote. -/
inductive UseHead : Text → Prop
  | intro {gap : Text} : gap ≠ [] → (∀ c ∈ gap, isBlank c = true) → UseHead ("@use".toList ++ gap)

/-! ## Evaluating the patterns -/

section

variable {s : Cursor} {k : Cursor → Option Cursor} {spec rest : Text} {q r : Char}

theorem isQuote_of_isBlank {c : Char} (h : isBlank c = true) : isQuote c = false := by
  by_contra hquote
  simp [isBlank_of_isQuote (Bool.not_eq_false _ ▸ hquote)] at h

theorem head_not_quote (h : rest.head?.any isBlank = true) : rest.head?.any isQuote = false := by
  cases rest with
  | nil => rfl
  | cons c rest => exact isQuote_of_isBlank h

theorem run_keyword {word : String} {gap more : Text} {p : Pattern}
    (hrest : s.rest = word.toList ++ (gap ++ more)) (hgap : gap ≠ [])
    (hblank : ∀ c ∈ gap, isBlank c = true) (hmore : more.head?.any isBlank = false)
    (hfail : ∀ {there : Cursor}, there.rest.head?.any isBlank = true → run p there k = none) :
    run (seq (lit word) (seq blanks1 p)) s k
      = run p (s.past (word.toList ++ gap) more s.groups) k := by
  have hword := run_lit (k := fun there => run (seq blanks1 p) there k) hrest
  have hskip := run_many1_skip (t := isBlank) (r := more)
    (s := s.past word.toList (gap ++ more) s.groups) (k := fun there => run p there k)
    rfl hgap hblank hmore hfail
  refine hword.trans (hskip.trans ?_)
  rw [Cursor.past_groups, Cursor.past_past]

theorem run_useRule {gap : Text}
    (hrest : s.rest = "@use".toList ++ (gap ++ q :: (spec ++ r :: rest))) (hgap : gap ≠ [])
    (hblank : ∀ c ∈ gap, isBlank c = true) (hq : isQuote q = true)
    (hne : spec ≠ []) (hspec : ∀ c ∈ spec, isQuote c = false) (hr : isQuote r = true) :
    run useRule s k
      = k (s.past ("@use".toList ++ gap ++ q :: (spec ++ [r])) rest
          ((1, spec) :: s.groups)) := by
  have hstop : (q :: (spec ++ r :: rest)).head?.any isBlank = false := isBlank_of_isQuote hq
  have hword := run_keyword (p := specifier) (k := k) hrest hgap hblank hstop
    fun hthere => run_specifier_none (head_not_quote hthere)
  refine hword.trans ((run_specifier rfl hq hne hspec hr).trans ?_)
  rw [Cursor.past_groups, Cursor.past_past]

theorem run_address_none {p : Pattern} (h : s.rest.head? ≠ some 'u') :
    run (seq (opt (chain [lit "url(", blanks])) p) s k = run p s k := by
  have hlit : ¬"url(".toList <+: s.rest := by
    rintro ⟨more, hmore⟩
    exact h (by rw [← hmore]; rfl)
  have hopt := run_opt (p := chain [lit "url(", blanks]) (s := s)
    (k := fun there => run p there k)
  have hnone := run_lit_none (k := fun there => run blanks there fun there => run p there k)
    hlit
  refine hopt.trans ?_
  have hchain : run (chain [lit "url(", blanks]) s (fun there => run p there k) = none := hnone
  rw [hchain, Option.none_or]

theorem run_address {pad : Text} {p : Pattern}
    (hrest : s.rest = "url(".toList ++ (pad ++ q :: rest)) (hpad : ∀ c ∈ pad, isBlank c = true)
    (hq : isQuote q = true)
    (hfail : ∀ {there : Cursor}, there.rest.head?.any isQuote = false → run p there k = none) :
    run (seq (opt (chain [lit "url(", blanks])) p) s k
      = run p (s.past ("url(".toList ++ pad) (q :: rest) s.groups) k := by
  have hopen := run_lit (k := fun there => run blanks there fun there => run p there k) hrest
  have hpads := run_many_skip (t := isBlank) (r := q :: rest)
    (s := s.past "url(".toList (pad ++ q :: rest) s.groups) (k := fun there => run p there k)
    rfl hpad (isBlank_of_isQuote hq) fun hthere => hfail (head_not_quote hthere)
  have hchain : run (chain [lit "url(", blanks]) s (fun there => run p there k)
      = run p (s.past ("url(".toList ++ pad) (q :: rest) s.groups) k := by
    refine hopen.trans (hpads.trans ?_)
    rw [Cursor.past_groups, Cursor.past_past]
  have hnone : run p s k = none := hfail (by rw [hrest]; rfl)
  refine run_opt.trans ?_
  rw [hchain, hnone, Option.or_none]

theorem run_importHead {front : Text} {p : Pattern} (hfront : ImportHead front)
    (hrest : s.rest = front ++ q :: rest) (hq : isQuote q = true)
    (hfail : ∀ {there : Cursor}, there.rest.head?.any isQuote = false → run p there k = none) :
    run (seq (lit "@import") (seq blanks1 (seq (opt (chain [lit "url(", blanks])) p))) s k
      = run p (s.past front (q :: rest) s.groups) k := by
  have hskip {there : Cursor} (h : there.rest.head?.any isBlank = true) :
      run (seq (opt (chain [lit "url(", blanks])) p) there k = none := by
    have haddress : there.rest.head? ≠ some 'u' := by
      intro hu
      rw [hu] at h
      exact absurd h (by decide)
    exact (run_address_none haddress).trans (hfail (head_not_quote h))
  obtain @⟨gap, hgap, hblank⟩ | @⟨gap, pad, hgap, hblank, hpad⟩ := hfront
  · rw [List.append_assoc] at hrest
    have hstop : (q :: rest).head?.any isBlank = false := isBlank_of_isQuote hq
    refine (run_keyword hrest hgap hblank hstop hskip).trans (run_address_none ?_)
    rintro ⟨⟩
    exact absurd hq (by decide)
  · rw [List.append_assoc, List.append_assoc, List.append_assoc] at hrest
    have hstop : ("url(".toList ++ (pad ++ q :: rest)).head?.any isBlank = false :=
      (by decide : isBlank 'u' = false)
    refine (run_keyword hrest hgap hblank hstop hskip).trans ((run_address rfl hpad hq hfail).trans ?_)
    rw [Cursor.past_groups, Cursor.past_past, List.append_assoc]

theorem run_ending (rest : Text) : ∃ trail after, rest = trail ++ after ∧ '@' ∉ trail
    ∧ ∀ {s : Cursor}, s.rest = rest →
      run (seq blanks (opt (lit ")"))) s some = some (s.past trail after s.groups) := by
  have hrest := List.takeWhile_append_dropWhile (p := isBlank) (l := rest)
  have hblank : ∀ c ∈ rest.takeWhile isBlank, isBlank c = true := fun c => List.mem_takeWhile_imp
  have hstop := head_dropWhile isBlank rest
  generalize rest.takeWhile isBlank = gap at hrest hblank
  generalize rest.dropWhile isBlank = more at hrest hstop
  have hsign : '@' ∉ gap := fun hmem => absurd (hblank _ hmem) (by decide)
  have hopt {s : Cursor} : (run (opt (lit ")")) s some).isSome = true := by
    rw [run_opt]
    cases run (lit ")") s some <;> rfl
  have hgap {s : Cursor} (h : s.rest = rest) :
      run (seq blanks (opt (lit ")"))) s some
        = run (opt (lit ")")) (s.past gap more s.groups) some :=
    run_many_most (h.trans hrest.symm) hblank hstop hopt
  by_cases hclose : ")".toList <+: more
  · obtain ⟨after, rfl⟩ := hclose
    refine ⟨gap ++ ")".toList, after, by rw [List.append_assoc, hrest], ?_, fun h => ?_⟩
    · exact fun hmem => (List.mem_append.1 hmem).elim hsign (by decide)
    · rw [hgap h, run_opt, run_lit (r := after) rfl, Option.some_or, Cursor.past_groups,
        Cursor.past_past]
  · refine ⟨gap, more, hrest.symm, hsign, fun h => ?_⟩
    rw [hgap h, run_opt, run_lit_none hclose, Option.none_or]

end

/-! ## Both patterns read behind a head -/

theorem UseHead.bare {front : Text} (h : UseHead front) : ∀ c ∈ front, isQuote c = false := by
  have hword : ∀ c ∈ "@use".toList, isQuote c = false := by simp [isQuote]
  obtain @⟨gap, -, hblank⟩ := h
  intro c hc
  exact (List.mem_append.1 hc).elim (hword c) fun hc => isQuote_of_isBlank (hblank c hc)

theorem ImportHead.bare {front : Text} (h : ImportHead front) : ∀ c ∈ front, isQuote c = false := by
  have hword : ∀ c ∈ "@import".toList, isQuote c = false := by simp [isQuote]
  have haddress : ∀ c ∈ "url(".toList, isQuote c = false := by simp [isQuote]
  intro c hc
  obtain @⟨gap, -, hblank⟩ | @⟨gap, pad, -, hblank, hpad⟩ := h
  · exact (List.mem_append.1 hc).elim (hword c) fun hc => isQuote_of_isBlank (hblank c hc)
  · simp only [List.mem_append] at hc
    rcases hc with hc | hc | hc | hc
    · exact hword c hc
    · exact isQuote_of_isBlank (hblank c hc)
    · exact haddress c hc
    · exact isQuote_of_isBlank (hpad c hc)

theorem reads_of_spans_useRule {before : Option Char} {x after : Text}
    (h : useRule.Spans before x after) : ∃ spec rest, Reads UseHead (x ++ after) spec rest := by
  obtain ⟨_, _, rfl, hlit, gap, _, rfl, hgap, hspecifier⟩ := h
  obtain rfl := spans_lit.1 hlit
  obtain ⟨hne, hblank⟩ := spans_many1_one.1 hgap
  obtain ⟨q, spec, r, rfl, hq, hspec, hbare, hr⟩ := spans_specifier hspecifier
  have hread : Reads UseHead ("@use".toList ++ gap ++ q :: (spec ++ r :: after)) spec after :=
    .intro (.intro hne hblank) hq hspec hbare hr
  refine ⟨spec, after, ?_⟩
  simpa only [List.append_assoc, List.cons_append, List.nil_append] using hread

theorem reads_of_spans_importRule {before : Option Char} {x after : Text}
    (h : importRule.Spans before x after) : ∃ spec rest, Reads ImportHead (x ++ after) spec rest := by
  obtain ⟨_, _, rfl, hlit, gap, _, rfl, hgap, opening, _, rfl, hopening, _, trail, rfl, hspecifier,
    -⟩ := h
  obtain rfl := spans_lit.1 hlit
  obtain ⟨hne, hblank⟩ := spans_many1_one.1 hgap
  obtain ⟨q, spec, r, rfl, hq, hspec, hbare, hr⟩ := spans_specifier hspecifier
  refine ⟨spec, trail ++ after, ?_⟩
  rcases hopening with ⟨_, pad, rfl, hurl, hpad⟩ | rfl
  · obtain rfl := spans_lit.1 hurl
    have hread : Reads ImportHead ("@import".toList ++ (gap ++ ("url(".toList ++ pad))
        ++ q :: (spec ++ r :: (trail ++ after))) spec (trail ++ after) :=
      .intro (.url hne hblank (spans_many_one.1 hpad)) hq hspec hbare hr
    simpa only [List.append_assoc, List.cons_append, List.nil_append] using hread
  · have hread : Reads ImportHead ("@import".toList ++ gap ++ q :: (spec ++ r :: (trail ++ after)))
        spec (trail ++ after) := .intro (.plain hne hblank) hq hspec hbare hr
    simpa only [List.append_assoc, List.cons_append, List.nil_append] using hread

theorem matchAt_importRule {front spec trail after : Text} {q r : Char} (hfront : ImportHead front)
    (hq : isQuote q = true) (hne : spec ≠ []) (hspec : ∀ c ∈ spec, isQuote c = false)
    (hr : isQuote r = true)
    (hending : ∀ {s : Cursor}, s.rest = trail ++ after →
      run (seq blanks (opt (lit ")"))) s some = some (s.past trail after s.groups))
    (before : Option Char) (offset : Nat) :
    importRule.matchAt before offset (front ++ q :: (spec ++ [r]) ++ trail ++ after)
      = some ⟨offset, front ++ q :: (spec ++ [r]) ++ trail, [(1, spec)]⟩ := by
  generalize hhere : (⟨before, front ++ q :: (spec ++ [r]) ++ trail ++ after, offset, []⟩ : Cursor)
    = s
  have hrest : s.rest = front ++ q :: (spec ++ r :: (trail ++ after)) := by
    rw [← hhere]
    simp
  have hgroups : s.groups = [] := by rw [← hhere]
  have hhead := run_importHead (p := seq specifier (seq blanks (opt (lit ")")))) (k := some)
    hfront hrest hq fun hthere => run_specifier_none hthere
  have hspecifier := run_specifier
    (s := s.past front (q :: (spec ++ r :: (trail ++ after))) s.groups)
    (k := fun there => run (seq blanks (opt (lit ")"))) there some) rfl hq hne hspec hr
  refine matchAt_eq_some s hhere.symm (hhead.trans (hspecifier.trans ((hending rfl).trans ?_)))
  rw [Cursor.past_groups, Cursor.past_groups, Cursor.past_past, Cursor.past_past, hgroups,
    List.append_assoc]

theorem readsBehind_useRule : ReadsBehind UseHead useRule where
  sign := by
    rintro _ ⟨-, -⟩
    exact ⟨_, rfl⟩
  bare := UseHead.bare
  found := by
    intro text spec rest h
    obtain @⟨_, _, _, q, r, @⟨gap, hgap, hblank⟩, hq, hne, hspec, hr⟩ := h
    have htext : "@use".toList ++ gap ++ q :: (spec ++ r :: rest)
        = "@use".toList ++ gap ++ q :: (spec ++ [r]) ++ rest := by simp
    rw [htext]
    refine ⟨_, [], rest, rfl, by simp, rfl, List.not_mem_nil, fun before offset => ?_⟩
    refine matchAt_eq_some _ rfl (run_useRule ?_ hgap hblank hq hne hspec hr)
    simp only [List.append_assoc, List.cons_append, List.nil_append]
  none := by
    intro text h before offset
    refine matchAt_eq_none (fun x after htext hspans => ?_) offset
    obtain ⟨spec, rest, hread⟩ := reads_of_spans_useRule hspans
    exact h spec rest (htext ▸ hread)

theorem readsBehind_importRule : ReadsBehind ImportHead importRule where
  sign := by
    rintro _ (⟨-, -⟩ | ⟨-, -, -⟩)
    · exact ⟨_, rfl⟩
    · exact ⟨_, rfl⟩
  bare := ImportHead.bare
  found := by
    intro text spec rest h
    obtain @⟨front, _, _, q, r, hfront, hq, hne, hspec, hr⟩ := h
    obtain ⟨trail, after, rfl, htrail, hending⟩ := run_ending rest
    have htext : front ++ q :: (spec ++ r :: (trail ++ after))
        = front ++ q :: (spec ++ [r]) ++ trail ++ after := by simp
    rw [htext]
    exact ⟨_, trail, after, rfl, by simp, rfl, htrail,
      matchAt_importRule hfront hq hne hspec hr hending⟩
  none := by
    intro text h before offset
    refine matchAt_eq_none (fun x after htext hspans => ?_) offset
    obtain ⟨spec, rest, hread⟩ := reads_of_spans_importRule hspans
    exact h spec rest (htext ▸ hread)

theorem mem_imports {text spec : Text} :
    spec ∈ css.imports text
      ↔ spec ≠ [] ∧ (spec ∈ importRule.specifiers text ∨ spec ∈ useRule.specifiers text) := by
  have himports : css.imports text = (importRule.specifiers text).filter (! ·.isEmpty)
      ++ ((useRule.specifiers text).filter (! ·.isEmpty) ++ []) := rfl
  rw [himports, List.append_nil, List.mem_append, List.mem_filter, List.mem_filter]
  constructor
  · rintro (⟨hmem, hne⟩ | ⟨hmem, hne⟩)
    · exact ⟨by simpa using hne, .inl hmem⟩
    · exact ⟨by simpa using hne, .inr hmem⟩
  · rintro ⟨hne, hmem | hmem⟩
    · exact .inl ⟨hmem, by simpa using hne⟩
    · exact .inr ⟨hmem, by simpa using hne⟩

end SourceLens.Stylesheet
