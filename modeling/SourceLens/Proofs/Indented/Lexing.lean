import Mathlib.Data.List.Basic
import SourceLens.Proofs.Indented.Reader
import SourceLens.Proofs.Text.Widening

/-!
# Blanks and the roles of characters

The roles of the characters of a line do not depend on how wide its blanks are. Widening a line
widens its code (`lex_widens`), and blanks at either end of a line add blanks at that end of its code
and nothing else, unless the line breaks off inside a literal. So two lines that differ in such
blanks only are read alike: the same brackets, the same literal left open, the same join.
-/

namespace SourceLens.Indented

open Text (Widens)

theorem lex_cons (mode : Mode) (c : Char) (rest : Text) :
    lex mode (c :: rest)
      = (⟨c, (advance mode c rest).1⟩ :: (lex (advance mode c rest).2 rest).1,
         (lex (advance mode c rest).2 rest).2) := rfl

/-! ## What the middle of a line looks like -/

/-- The quotes of a mode are quotes, and those that it still counts stand next in the line. -/
def Mode.Fits : Mode → Text → Prop
  | .code, _ | .comment, _ => True
  | .short quote, _ | .escaped quote, _ | .long quote, _ => isQuote quote = true
  | .openingQuotes quote left, text =>
    isQuote quote = true ∧ List.replicate (left + 1) quote <+: text
  | .closingQuotes left, text =>
    ∃ quote, isQuote quote = true ∧ List.replicate (left + 1) quote <+: text

theorem tripled_iff {c : Char} {rest : Text} :
    tripled c rest = true ↔ List.replicate 2 c <+: rest := List.isPrefixOf_iff_prefix

theorem replicate_prefix_cons {n : Nat} {q c : Char} {rest : Text}
    (h : List.replicate (n + 1) q <+: c :: rest) : q = c ∧ List.replicate n q <+: rest := by
  rw [List.replicate_succ, List.cons_prefix_cons] at h
  exact h

theorem Mode.Fits.advance {mode : Mode} {c : Char} {rest : Text} (h : mode.Fits (c :: rest)) :
    (advance mode c rest).2.Fits rest := by
  cases mode with
  | code =>
    simp only [Indented.advance]
    split_ifs with hhash hquote htriple
    · trivial
    · exact ⟨hquote, tripled_iff.1 htriple⟩
    · exact hquote
    · trivial
  | comment => trivial
  | short q =>
    simp only [Indented.advance]
    split_ifs
    · trivial
    · exact h
    · exact h
  | escaped q => exact h
  | long q =>
    simp only [Indented.advance]
    split_ifs with hclose
    · exact ⟨q, h, tripled_iff.1 (by simpa using (Bool.and_eq_true .. ▸ hclose).2)⟩
    · exact h
  | openingQuotes q left =>
    cases left with
    | zero => exact h.1
    | succ left => exact ⟨h.1, (replicate_prefix_cons h.2).2⟩
  | closingQuotes left =>
    obtain ⟨q, hq, hnext⟩ := h
    cases left with
    | zero => trivial
    | succ left => exact ⟨q, hq, (replicate_prefix_cons hnext).2⟩

theorem Mode.Fits.lex {mode : Mode} {text : Text} (h : mode.Fits text) :
    (lex mode text).2.Fits [] := by
  induction text generalizing mode with
  | nil => exact h
  | cons c rest ih => exact ih h.advance

theorem isQuote_openQuote {mode : Mode} {text : Text} (h : mode.Fits text) :
    ∀ q ∈ openQuote (lex mode text).2, isQuote q = true := by
  have hlast := h.lex
  intro q hq
  cases hmode : (lex mode text).2 with
  | long r =>
    rw [hmode] at hlast hq
    obtain rfl : r = q := Option.some.inj hq
    exact hlast
  | _ =>
    rw [hmode] at hq
    exact absurd hq (by simp [openQuote])

theorem fits_startMode {literal : Option Char} (h : ∀ q ∈ literal, isQuote q = true) (text : Text) :
    (startMode literal).Fits text := by
  cases literal with
  | none => trivial
  | some q => exact h q rfl

/-! ## Runs of blanks -/

/-- The role of a blank in a mode that blanks do not change. -/
def Mode.blankRole? : Mode → Option Role
  | .code => some .code
  | .comment => some .comment
  | .short _ | .long _ => some .literal
  | _ => none

theorem advance_blank {mode : Mode} {role : Role} {text : Text} (hrole : mode.blankRole? = some role)
    (hfits : mode.Fits text) {c : Char} (hc : isBlank c = true) (rest : Text) :
    advance mode c rest = (role, mode) := by
  have hne {d : Char} (hd : isBlank d = false) : c ≠ d := Text.ne_of_isBlank hc hd
  cases mode with
  | code =>
    obtain rfl : Role.code = role := by simpa [Mode.blankRole?] using hrole
    have hhash : c ≠ '#' := hne (by decide)
    have hquote : isQuote c = false := by
      simp [isQuote, hne (d := '\'') (by decide), hne (d := '"') (by decide)]
    simp [advance, hhash, hquote]
  | comment =>
    obtain rfl : Role.comment = role := by simpa [Mode.blankRole?] using hrole
    rfl
  | short q =>
    obtain rfl : Role.literal = role := by simpa [Mode.blankRole?] using hrole
    simp [advance, hne (isBlank_of_isQuote hfits), hne (d := '\\') (by decide)]
  | long q =>
    obtain rfl : Role.literal = role := by simpa [Mode.blankRole?] using hrole
    simp [advance, hne (isBlank_of_isQuote hfits)]
  | escaped q | openingQuotes q left | closingQuotes left => simp [Mode.blankRole?] at hrole

theorem lex_blank_append (mode : Mode) {role : Role} (hrole : mode.blankRole? = some role)
    (hfits : ∀ text, mode.Fits text) {u : Text} (hu : Text.allBlank u = true) (text : Text) :
    lex mode (u ++ text) = (u.map (fun c => ⟨c, role⟩) ++ (lex mode text).1, (lex mode text).2) := by
  induction u with
  | nil => rfl
  | cons c u ih =>
    obtain ⟨hc, hu⟩ := List.forall_mem_cons.1 (Text.allBlank_iff.1 hu)
    rw [List.cons_append, lex, advance_blank hrole (hfits []) hc]
    simp [ih (Text.allBlank_iff.2 hu)]

@[simp] theorem codeOf_append (a b : List Mark) : codeOf (a ++ b) = codeOf a ++ codeOf b := by
  simp [codeOf]

theorem codeOf_cons (mark : Mark) (marks : List Mark) :
    codeOf (mark :: marks) = mark.code ++ codeOf marks := rfl

theorem codeOf_map_code (u : Text) : codeOf (u.map fun c => ⟨c, .code⟩) = u := by
  induction u with
  | nil => rfl
  | cons c u ih =>
    rw [List.map_cons, codeOf_cons, ih]
    rfl

theorem codeOf_map_silent {role : Role} (h : role = .literal ∨ role = .comment) (u : Text) :
    codeOf (u.map fun c => ⟨c, role⟩) = [] := by
  rcases h with rfl | rfl <;> simp [codeOf, Mark.code]

theorem lex_code_blank_append {u : Text} (hu : Text.allBlank u = true) (text : Text) :
    codeOf (lex .code (u ++ text)).1 = u ++ codeOf (lex .code text).1
      ∧ (lex .code (u ++ text)).2 = (lex .code text).2 := by
  rw [lex_blank_append .code rfl (fun _ => trivial) hu]
  simp [codeOf_map_code]

/-! ## Widening -/

theorem tripled_widens {a b : Text} (h : Widens a b) {q : Char} (hq : isQuote q = true) :
    tripled q a = tripled q b := by
  have hblank := isBlank_of_isQuote hq
  have htab : q ≠ '\t' := (Text.ne_of_isBlank Text.isBlank_tab hblank).symm
  have hspace : q ≠ ' ' := (Text.ne_of_isBlank Text.isBlank_space hblank).symm
  rw [Bool.eq_iff_iff, tripled_iff, tripled_iff]
  constructor
  · rintro ⟨t, rfl⟩
    obtain ⟨b₁, rfl, h₁⟩ := Widens.of_cons htab h
    obtain ⟨b₂, rfl, -⟩ := Widens.of_cons htab h₁
    exact ⟨b₂, rfl⟩
  · rintro ⟨t, rfl⟩
    obtain ⟨a₁, rfl, h₁⟩ := Widens.of_cons_right hspace h
    obtain ⟨a₂, rfl, -⟩ := Widens.of_cons_right hspace h₁
    exact ⟨a₂, rfl⟩

theorem advance_widens {a b : Text} (h : Widens a b) {mode : Mode} {c : Char}
    (hfits : mode.Fits (c :: a)) : advance mode c a = advance mode c b := by
  cases mode with
  | code =>
    by_cases hquote : isQuote c = true
    · simp only [advance, tripled_widens h hquote]
    · simp only [advance, if_neg hquote]
  | long q => simp only [advance, tripled_widens h hfits]
  | openingQuotes q left => cases left <;> rfl
  | closingQuotes left => cases left <;> rfl
  | comment | short q | escaped q => rfl

theorem Mode.Fits.tab {mode : Mode} {rest : Text} (h : mode.Fits ('\t' :: rest)) :
    (∃ role, mode.blankRole? = some role ∧ ∀ text, mode.Fits text)
      ∨ ∃ q, mode = .escaped q ∧ isQuote q = true := by
  cases mode with
  | code => exact .inl ⟨.code, rfl, fun _ => trivial⟩
  | comment => exact .inl ⟨.comment, rfl, fun _ => trivial⟩
  | short q => exact .inl ⟨.literal, rfl, fun _ => h⟩
  | long q => exact .inl ⟨.literal, rfl, fun _ => h⟩
  | escaped q => exact .inr ⟨q, rfl, h⟩
  | openingQuotes q left =>
    obtain ⟨hq, hnext⟩ := h
    obtain rfl := (replicate_prefix_cons hnext).1
    exact absurd hq (by decide)
  | closingQuotes left =>
    obtain ⟨q, hq, hnext⟩ := h
    obtain rfl := (replicate_prefix_cons hnext).1
    exact absurd hq (by decide)

/-- The second marks are the first ones with some tabs, none of which opens a literal, replaced by
spaces of the same role. -/
inductive MarksWiden : List Mark → List Mark → Prop
  | nil : MarksWiden [] []
  | keep (mark : Mark) {a b : List Mark} : MarksWiden a b → MarksWiden (mark :: a) (mark :: b)
  | tab {role : Role} (hrole : role ≠ .opening) (n : Nat) {a b : List Mark} : MarksWiden a b →
      MarksWiden (⟨'\t', role⟩ :: a) ((Text.spaces (n + 1)).map (fun c => ⟨c, role⟩) ++ b)

theorem MarksWiden.codeOf {a b : List Mark} (h : MarksWiden a b) :
    Widens (codeOf a) (codeOf b) := by
  induction h with
  | nil => exact .nil
  | keep mark _ ih => exact (Widens.refl _).append ih
  | @tab role hrole n a b _ ih =>
    rw [codeOf_cons, codeOf_append]
    cases role with
    | code =>
      rw [codeOf_map_code]
      exact ih.tab n
    | opening => exact absurd rfl hrole
    | literal =>
      rw [codeOf_map_silent (.inl rfl)]
      exact ih
    | comment =>
      rw [codeOf_map_silent (.inr rfl)]
      exact ih

theorem lex_marksWiden {a b : Text} (h : Widens a b) {mode : Mode} (hfits : mode.Fits a) :
    (lex mode a).2 = (lex mode b).2 ∧ MarksWiden (lex mode a).1 (lex mode b).1 := by
  induction h generalizing mode with
  | nil => exact ⟨rfl, .nil⟩
  | keep c hrest ih =>
    obtain ⟨hlast, hmarks⟩ := ih hfits.advance
    rw [lex, lex, ← advance_widens hrest hfits]
    exact ⟨hlast, hmarks.keep _⟩
  | @tab n a b hrest ih =>
    rcases hfits.tab with ⟨role, hrole, hany⟩ | ⟨q, rfl, hq⟩
    · have htab := lex_blank_append mode hrole hany (u := ['\t']) (by decide) a
      have hspaces := lex_blank_append mode hrole hany (Text.allBlank_spaces (n + 1)) b
      have hinside : role ≠ .opening := by
        rintro rfl
        cases mode <;> simp [Mode.blankRole?] at hrole
      obtain ⟨hlast, hmarks⟩ := ih (hany a)
      rw [List.singleton_append] at htab
      rw [htab, hspaces]
      exact ⟨hlast, hmarks.tab hinside n⟩
    · -- the first blank is escaped, the others stand inside the literal
      have hspaces := lex_blank_append (.short q) rfl (fun _ => hq) (Text.allBlank_spaces n) b
      have hinside : (Mode.short q).Fits a := hq
      obtain ⟨hlast, hmarks⟩ := ih hinside
      have hwider := @MarksWiden.tab .literal (by decide) n _ _ hmarks
      rw [Text.spaces, List.replicate_succ, ← Text.spaces] at hwider ⊢
      rw [List.cons_append, lex, lex]
      simp only [advance, hspaces]
      exact ⟨hlast, hwider⟩

/-- Widening a line widens its code and leaves what it ends in the middle of. -/
theorem lex_widens {a b : Text} (h : Widens a b) {mode : Mode} (hfits : mode.Fits a) :
    (lex mode a).2 = (lex mode b).2 ∧ Widens (codeOf (lex mode a).1) (codeOf (lex mode b).1) :=
  (lex_marksWiden h hfits).imp_right MarksWiden.codeOf

/-! ## Blanks at the end -/

theorem tripled_append_blank {v : Text} (hv : Text.allBlank v = true) {q : Char}
    (hq : isQuote q = true) (text : Text) : tripled q (text ++ v) = tripled q text := by
  have hnot : q ∉ v := fun hmem => by
    simpa [isBlank_of_isQuote hq] using Text.allBlank_iff.1 hv q hmem
  rw [Bool.eq_iff_iff, tripled_iff, tripled_iff]
  refine ⟨fun h => ?_, fun h => h.trans (List.prefix_append ..)⟩
  -- a prefix that is no prefix of `text` would reach into `v`
  rcases List.prefix_or_prefix_of_prefix h (List.prefix_append text v) with h' | ⟨t, ht⟩
  · exact h'
  · cases t with
    | nil => exact ⟨[], by simpa using ht.symm⟩
    | cons d t =>
      obtain ⟨s, hs⟩ := h
      rw [← ht, List.append_assoc] at hs
      have hd : d ∈ v := by
        rw [← List.append_cancel_left hs]
        simp
      have hmem : d ∈ List.replicate 2 q := ht ▸ by simp
      exact absurd (List.eq_of_mem_replicate hmem ▸ hd) hnot

theorem advance_append_blank {v : Text} (hv : Text.allBlank v = true) {mode : Mode} {c : Char}
    {text : Text} (hfits : mode.Fits (c :: text ++ v)) :
    advance mode c (text ++ v) = advance mode c text := by
  cases mode with
  | code =>
    by_cases hquote : isQuote c = true
    · simp only [advance, tripled_append_blank hv hquote]
    · simp only [advance, if_neg hquote]
  | long q => simp only [advance, tripled_append_blank hv hfits]
  | openingQuotes q left => cases left <;> rfl
  | closingQuotes left => cases left <;> rfl
  | comment | short q | escaped q => rfl

theorem lex_append_blank {v : Text} (hv : Text.allBlank v = true) (mode : Mode) {text : Text}
    (hfits : mode.Fits (text ++ v)) :
    lex mode (text ++ v) = ((lex mode text).1 ++ (lex (lex mode text).2 v).1,
      (lex (lex mode text).2 v).2) := by
  induction text generalizing mode with
  | nil => rfl
  | cons c text ih =>
    have hrest := ih (advance mode c (text ++ v)).2 hfits.advance
    rw [advance_append_blank hv hfits] at hrest
    rw [List.cons_append, lex_cons, advance_append_blank hv hfits, hrest, lex_cons]
    rfl

theorem mode_of_blank_end {mode : Mode} (hfits : mode.Fits []) {v : Text}
    (hv : Text.allBlank v = true) (hne : v ≠ []) (hshort : ∀ q, (lex mode v).2 ≠ .short q)
    (hlong : openQuote (lex mode v).2 = none) : mode = .code ∨ mode = .comment := by
  have hsteady (mode : Mode) {role : Role} (hrole : mode.blankRole? = some role)
      (hfits : ∀ text, mode.Fits text) {u : Text} (hu : Text.allBlank u = true) :
      (lex mode u).2 = mode := by
    simpa [lex] using congrArg Prod.snd (lex_blank_append mode hrole hfits hu [])
  cases mode with
  | code => exact .inl rfl
  | comment => exact .inr rfl
  | short q => exact absurd (hsteady _ rfl (fun _ => hfits) hv) (hshort q)
  | escaped q =>
    obtain ⟨c, v, rfl⟩ := List.exists_cons_of_ne_nil hne
    have hrest := Text.allBlank_iff.2 (List.forall_mem_cons.1 (Text.allBlank_iff.1 hv)).2
    exact absurd (hsteady (.short q) rfl (fun _ => hfits) hrest) (hshort q)
  | long q =>
    rw [hsteady _ rfl (fun _ => hfits) hv] at hlong
    simp [openQuote] at hlong
  | openingQuotes q left => simp [Mode.Fits] at hfits
  | closingQuotes left => simp [Mode.Fits] at hfits

/-- A line that breaks off no literal loses nothing but blanks of its code or of its comment with
those at its end. -/
theorem lex_trimEnd {text : Text} (hwell : endsWell text (lex .code text).2 = true)
    (hquote : openQuote (lex .code text).2 = none) :
    (∃ role v, (role = .code ∨ role = .comment) ∧ Text.allBlank v = true
        ∧ (lex .code text).1 = (lex .code (Text.trimEnd text)).1 ++ v.map fun c => ⟨c, role⟩)
      ∧ openQuote (lex .code (Text.trimEnd text)).2 = none
      ∧ endsWell (Text.trimEnd text) (lex .code (Text.trimEnd text)).2 = true := by
  obtain ⟨v, hv, htext⟩ := Text.trimEnd_spec text
  by_cases hne : v = []
  · rw [hne, List.append_nil] at htext
    rw [← htext]
    exact ⟨⟨.code, [], .inl rfl, rfl, (List.append_nil _).symm⟩, hquote, hwell⟩
  have hstart : Mode.code.Fits (Text.trimEnd text ++ v) := trivial
  have hlex := lex_append_blank hv .code hstart
  rw [← htext] at hlex
  -- the line ends with a blank, so it may not end inside a literal
  have hshort (q : Char) : (lex (lex .code (Text.trimEnd text)).2 v).2 ≠ .short q := by
    intro hmode
    rw [hlex, hmode] at hwell
    have hlast : text.getLast? = some '\\' := by simpa [endsWell] using hwell
    rw [htext, List.getLast?_append_of_ne_nil _ hne] at hlast
    have hblank := Text.allBlank_iff.1 hv _ (List.mem_of_getLast? hlast)
    exact absurd hblank (by decide)
  rw [hlex] at hquote ⊢
  have hbegin : Mode.code.Fits (Text.trimEnd text) := trivial
  have hfits : (lex .code (Text.trimEnd text)).2.Fits [] := hbegin.lex
  have hblank (mode : Mode) {role : Role} (hrole : mode.blankRole? = some role)
      (hany : ∀ text, mode.Fits text) : (lex mode v).1 = v.map fun c => ⟨c, role⟩ := by
    simpa [lex] using congrArg Prod.fst (lex_blank_append mode hrole hany hv [])
  rcases mode_of_blank_end hfits hv hne hshort hquote with hmode | hmode
  · rw [hmode, hblank .code rfl fun _ => trivial]
    exact ⟨⟨.code, v, .inl rfl, hv, rfl⟩, rfl, rfl⟩
  · rw [hmode, hblank .comment rfl fun _ => trivial]
    exact ⟨⟨.comment, v, .inr rfl, hv, rfl⟩, rfl, rfl⟩

theorem lex_code_trimEnd {text : Text} (hwell : endsWell text (lex .code text).2 = true)
    (hquote : openQuote (lex .code text).2 = none) :
    (∃ v, Text.allBlank v = true
        ∧ codeOf (lex .code text).1 = codeOf (lex .code (Text.trimEnd text)).1 ++ v)
      ∧ openQuote (lex .code (Text.trimEnd text)).2 = none
      ∧ endsWell (Text.trimEnd text) (lex .code (Text.trimEnd text)).2 = true := by
  obtain ⟨⟨role, v, hrole, hv, hmarks⟩, hends⟩ := lex_trimEnd hwell hquote
  refine ⟨?_, hends⟩
  rw [hmarks, codeOf_append]
  rcases hrole with rfl | rfl
  · exact ⟨v, hv, by rw [codeOf_map_code]⟩
  · exact ⟨[], rfl, by rw [codeOf_map_silent (.inr rfl)]⟩

/-! ## Lines that are read alike -/

theorem trackChars_filter (stack : List Char) (code : Text) :
    trackChars stack (code.filter fun c => !isBlank c) = trackChars stack code := by
  induction code generalizing stack with
  | nil => rfl
  | cons c code ih =>
    by_cases hc : isBlank c = true
    · have hne {d : Char} (hd : isBlank d = false) : c ≠ d := Text.ne_of_isBlank hc hd
      have hopener : isOpener c = false := by
        simp [isOpener, hne (d := '(') (by decide), hne (d := '[') (by decide),
          hne (d := '\x7b') (by decide)]
      have hcloser : openerOf? c = none := by
        simp [openerOf?, hne (d := ')') (by decide), hne (d := ']') (by decide),
          hne (d := '\x7d') (by decide)]
      rw [List.filter_cons_of_neg (by simp [hc]), ih, trackChars]
      simp [hopener, hcloser]
    · rw [List.filter_cons_of_pos (by simpa using hc), trackChars, trackChars]
      simp only [ih]

theorem trackChars_blank {text : Text} (h : Text.allBlank text = true) (stack : List Char) :
    trackChars stack text = (stack, true) := by
  have hnone : (text.filter fun c => !isBlank c) = [] := by simpa using Text.allBlank_iff.1 h
  rw [← trackChars_filter, hnone, trackChars]

theorem filter_trim (text : Text) :
    (Text.trim text).filter (fun c => !isBlank c) = text.filter fun c => !isBlank c := by
  obtain ⟨u, v, hu, hv, htext⟩ := Text.trim_spec text
  have hnone {w : Text} (hw : Text.allBlank w = true) : w.filter (fun c => !isBlank c) = [] := by
    simpa using Text.allBlank_iff.1 hw
  conv_rhs => rw [htext, List.filter_append, List.filter_append, hnone hu, hnone hv]
  simp

/-- Two pieces of code that widen one another once they are trimmed. -/
def CodeWidens (a b : Text) : Prop := Widens (Text.trim a) (Text.trim b)

theorem CodeWidens.trackChars_eq {a b : Text} (h : CodeWidens a b) (stack : List Char) :
    trackChars stack a = trackChars stack b := by
  rw [← trackChars_filter stack a, ← trackChars_filter stack b, ← filter_trim a, ← filter_trim b,
    Widens.filter_eq h _ (by decide) (by decide)]

theorem CodeWidens.joinable {a b : Text} (h : CodeWidens a b) :
    Widens (joinable a).1 (joinable b).1 ∧ (joinable a).2 = (joinable b).2 := by
  have hlast := Widens.getLast?_eq_iff h (c := '\\') (by decide) (by decide)
  simp only [Indented.joinable]
  by_cases hjoin : (Text.trim a).getLast? = some '\\'
  · rw [if_pos hjoin, if_pos (hlast.1 hjoin)]
    exact ⟨(Widens.dropLast h (by decide) hjoin).trimEnd, rfl⟩
  · rw [if_neg hjoin, if_neg (mt hlast.2 hjoin)]
    exact ⟨h, rfl⟩

/-- The second line is read like the first one, tabs and blanks at the ends apart. -/
structure ReadAlike (mode : Mode) (a b : Text) : Prop where
  quote : openQuote (lex mode b).2 = openQuote (lex mode a).2
  well : endsWell b (lex mode b).2 = true
  code : CodeWidens (codeOf (lex mode a).1) (codeOf (lex mode b).1)

theorem ReadAlike.refl {mode : Mode} {text : Text} (hwell : endsWell text (lex mode text).2 = true) :
    ReadAlike mode text text := ⟨rfl, hwell, Widens.refl _⟩

theorem ReadAlike.widens {a b : Text} (h : Widens a b)
    (hwell : endsWell a (lex .code a).2 = true) : ReadAlike .code a b := by
  have hstart : Mode.code.Fits a := trivial
  obtain ⟨hlast, hcode⟩ := lex_widens h hstart
  refine ⟨by rw [hlast], ?_, hcode.trim⟩
  rw [← hlast]
  cases hmode : (lex .code a).2 with
  | short q =>
    rw [hmode] at hwell
    simpa [endsWell, h.getLast?_eq_iff (c := '\\') (by decide) (by decide)] using hwell
  | _ => rfl

theorem endsWell_append (u text : Text) :
    endsWell (u ++ text) (lex .code text).2 = endsWell text (lex .code text).2 := by
  cases text with
  | nil => rfl
  | cons c text =>
    cases (lex .code (c :: text)).2 with
    | short q => rw [endsWell, endsWell, List.getLast?_append_of_ne_nil _ (by simp)]
    | _ => rfl

theorem ReadAlike.indent {a b : Text} (h : ReadAlike .code a b) (n : Nat) :
    ReadAlike .code a (Text.spaces n ++ Text.trimStart b) := by
  obtain ⟨u, hu, hb⟩ := Text.trimStart_spec b
  obtain ⟨hcode, hlast⟩ := lex_code_blank_append (Text.allBlank_spaces n) (Text.trimStart b)
  obtain ⟨hcode', hlast'⟩ := lex_code_blank_append hu (Text.trimStart b)
  rw [← hb] at hcode' hlast'
  refine ⟨by rw [hlast, ← hlast', h.quote], ?_, ?_⟩
  · rw [hlast, endsWell_append, ← endsWell_append u, ← hlast', ← hb]
    exact h.well
  · have htrim := Text.trim_append (Text.allBlank_spaces n) (v := []) rfl
      (codeOf (lex .code (Text.trimStart b)).1)
    have htrim' := Text.trim_append hu (v := []) rfl (codeOf (lex .code (Text.trimStart b)).1)
    rw [CodeWidens, hcode]
    rw [List.append_nil] at htrim htrim'
    rw [htrim, ← htrim', ← hcode']
    exact h.code

theorem ReadAlike.trimEnd {a b : Text} (h : ReadAlike .code a b)
    (hquote : openQuote (lex .code a).2 = none) : ReadAlike .code a (Text.trimEnd b) := by
  obtain ⟨⟨v, hv, hcode⟩, hopen, hwell⟩ := lex_code_trimEnd h.well (h.quote.trans hquote)
  refine ⟨hopen.trans hquote.symm, hwell, ?_⟩
  have htrim := Text.trim_append (u := []) rfl hv (codeOf (lex .code (Text.trimEnd b)).1)
  rw [List.nil_append, ← hcode] at htrim
  rw [CodeWidens, ← htrim]
  exact h.code

/-- Two readers with the same brackets and the same literal open stay so on lines that are read alike,
and complete a statement on the same lines. -/
theorem feed_readAlike {r s : Reader} (hliteral : s.literal = r.literal)
    (hbrackets : s.brackets = r.brackets) {a b : Text} (h : ReadAlike (startMode r.literal) a b)
    (hfine : (r.feed a).2.2 = true) :
    (s.feed b).1.literal = (r.feed a).1.literal ∧ (s.feed b).1.brackets = (r.feed a).1.brackets
      ∧ (s.feed b).2.2 = true ∧ s.completes b = r.completes a
      ∧ Widens (joinable (r.codeIn a)).1 (joinable (s.codeIn b)).1 := by
  have hcode : CodeWidens (r.codeIn a) (s.codeIn b) := by
    rw [Reader.codeIn, Reader.codeIn, hliteral]
    exact h.code
  have hquote : openQuote (s.lastMode b) = openQuote (r.lastMode a) := by
    rw [Reader.lastMode, Reader.lastMode, hliteral]
    exact h.quote
  have hwell : endsWell b (s.lastMode b) = true := by
    rw [Reader.lastMode, hliteral]
    exact h.well
  have htrack := hcode.trackChars_eq r.brackets
  obtain ⟨hpiece, hjoined⟩ := hcode.joinable
  rw [Reader.feed_eq] at hfine ⊢
  rw [Reader.feed_eq, Reader.completes, Reader.completes, hbrackets, ← htrack, hquote, ← hjoined]
  refine ⟨rfl, rfl, ?_, rfl, hpiece⟩
  simp only [Bool.and_eq_true] at hfine ⊢
  exact ⟨hfine.1, hwell⟩

end SourceLens.Indented
