import SourceLens.Proofs.Indented.Lexing
import SourceLens.Proofs.Text.Lines

/-!
# Contents of literals and comments

`Rewritten a b` says that `b` is `a` with the content of one closed literal, or the text of one
comment, replaced. The two texts have equally many lines, and line by line they show the same code,
end in the middle of the same thing, and stand at the same column (`Rewritten.lines`).
-/

namespace SourceLens.Indented

/-! ## Modes across lines -/

/-- The mode that a line starts in if the line in front of it ends in a mode. -/
def Mode.nextLine : Mode → Mode
  | .long quote => .long quote
  | _ => .code

/-- The mode after the next character of a text. -/
def Mode.step (mode : Mode) (c : Char) (rest : Text) : Mode :=
  if c = '\n' then mode.nextLine else (advance mode c rest).2

/-- A text that `rest` follows is read from one mode to another, every character of it in a mode of
some kind. -/
def Passes (kind : Mode → Prop) (rest : Text) : Mode → Text → Mode → Prop
  | mode, [], last => mode = last
  | mode, c :: text, last => kind mode ∧ Passes kind rest (mode.step c (text ++ rest)) text last

instance decidablePasses (kind : Mode → Prop) [DecidablePred kind] (rest : Text) :
    ∀ mode text last, Decidable (Passes kind rest mode text last)
  | mode, [], last => inferInstanceAs (Decidable (mode = last))
  | mode, c :: text, last =>
    have := decidablePasses kind rest (mode.step c (text ++ rest)) text last
    inferInstanceAs (Decidable (_ ∧ _))

def InShort (q : Char) (mode : Mode) : Prop := mode = .short q ∨ mode = .escaped q

def InLong (q : Char) (mode : Mode) : Prop := mode = .long q

instance (q : Char) : DecidablePred (InShort q) := fun _ => inferInstanceAs (Decidable (_ ∨ _))

instance (q : Char) : DecidablePred (InLong q) := fun _ => inferInstanceAs (Decidable (_ = _))

/-- Content that may stand between quotes in place of other content. -/
structure Fills (q : Char) (content content' : Text) : Prop where
  ne_nil : content' ≠ []
  quote : q ∉ content'
  backslash : '\\' ∉ content'
  lines : content'.count '\n' = content.count '\n'

/-- A text and the same text with other content in one literal, or with another comment. -/
inductive Rewritten : Text → Text → Prop
  | short {q : Char} {front content content' back : Text} (hq : isQuote q = true)
      (hfront : Passes (fun _ => True) (q :: (content ++ q :: back)) .code front .code)
      (hopen : tripled q (content ++ q :: back) = false)
      (hinside : Passes (InShort q) (q :: back) (.short q) content (.short q))
      (hfills : Fills q content content') :
      Rewritten (front ++ q :: (content ++ q :: back)) (front ++ q :: (content' ++ q :: back))
  | long {q : Char} {front content content' back : Text} (hq : isQuote q = true)
      (hfront : Passes (fun _ => True) (q :: q :: q :: (content ++ q :: q :: q :: back))
        .code front .code)
      (hinside : Passes (InLong q) (q :: q :: q :: back) (.long q) content (.long q))
      (hfills : Fills q content content') :
      Rewritten (front ++ q :: q :: q :: (content ++ q :: q :: q :: back))
        (front ++ q :: q :: q :: (content' ++ q :: q :: q :: back))
  | comment {front comment comment' back : Text}
      (hfront : Passes (fun _ => True) ('#' :: (comment ++ back)) .code front .code)
      (hold : '\n' ∉ comment) (hnew : '\n' ∉ comment') :
      Rewritten (front ++ '#' :: (comment ++ back)) (front ++ '#' :: (comment' ++ back))

theorem passes_append {kind : Mode → Prop} {rest u w : Text} {mode last : Mode} :
    Passes kind rest mode (u ++ w) last
      ↔ ∃ mid, Passes kind (w ++ rest) mode u mid ∧ Passes kind rest mid w last := by
  induction u generalizing mode with
  | nil => simp [Passes]
  | cons c u ih => simp [Passes, ih, and_assoc]

theorem passes_short {q : Char} {text : Text} (hquote : q ∉ text) (hslash : '\\' ∉ text)
    (hnewline : '\n' ∉ text) (rest : Text) :
    Passes (InShort q) rest (.short q) text (.short q) := by
  induction text with
  | nil => rfl
  | cons c text ih =>
    simp only [List.mem_cons, not_or] at hquote hslash hnewline
    have hstep : (Mode.short q).step c (text ++ rest) = .short q := by
      simp [Mode.step, advance, Ne.symm hnewline.1, Ne.symm hquote.1, Ne.symm hslash.1]
    refine ⟨.inl rfl, ?_⟩
    rw [hstep]
    exact ih hquote.2 hslash.2 hnewline.2

theorem passes_long {q : Char} {text : Text} (hquote : q ∉ text) (rest : Text) :
    Passes (InLong q) rest (.long q) text (.long q) := by
  induction text with
  | nil => rfl
  | cons c text ih =>
    simp only [List.mem_cons, not_or] at hquote
    have hstep : (Mode.long q).step c (text ++ rest) = .long q := by
      simp [Mode.step, advance, Mode.nextLine, Ne.symm hquote.1]
    refine ⟨rfl, ?_⟩
    rw [hstep]
    exact ih hquote.2

/-! ## Lookahead -/

theorem advance_of_tripled {mode : Mode} {c : Char} {a b : Text}
    (h : tripled c a = tripled c b) : advance mode c a = advance mode c b := by
  cases mode with
  | code => simp only [advance, h]
  | long q =>
    by_cases hc : c = q
    · subst hc
      simp only [advance, h]
    · simp [advance, hc]
  | openingQuotes q left => cases left <;> rfl
  | closingQuotes left => cases left <;> rfl
  | comment | short q | escaped q => rfl

theorem tripled_newline {c : Char} (hc : c ≠ '\n') (x y : Text) :
    tripled c (x ++ '\n' :: y) = tripled c x := by
  match x with
  | [] => simp [tripled, List.isPrefixOf, hc]
  | [d] => simp [tripled, List.isPrefixOf, hc]
  | d :: e :: x => simp [tripled, List.isPrefixOf]

theorem advance_line {mode : Mode} {c : Char} (hc : c ≠ '\n') {text line : Text} {more : List Text}
    (h : Text.lines text = line :: more) : advance mode c text = advance mode c line := by
  rw [Text.lines_eq_cons h]
  split_ifs
  · rw [List.append_nil]
  · exact advance_of_tripled (tripled_newline hc ..)

theorem advance_of_code {mode : Mode} {c d : Char} {a b : Text}
    (h : (advance mode c (d :: a)).2 = .code) :
    advance mode c (d :: a) = advance mode c (d :: b) := by
  cases mode with
  | code =>
    simp only [advance] at h ⊢
    split_ifs at h ⊢
    simp_all
  | long q =>
    simp only [advance] at h
    split_ifs at h
  | openingQuotes q left => cases left <;> rfl
  | closingQuotes left => cases left <;> rfl
  | comment | short q | escaped q => rfl

/-! ## Texts that are read alike -/

/-- Whether a character leaves a trace in the code of its line. -/
def Role.shows : Role → Bool
  | .code | .opening => true
  | .literal | .comment => false

/-- Characters of one line, before `rest`, that leave no trace and lead from one mode to another. -/
def Silent (rest : Text) : Mode → Text → Mode → Prop
  | mode, [], last => mode = last
  | mode, c :: text, last =>
    c ≠ '\n' ∧ (advance mode c (text ++ rest)).1.shows = false
      ∧ Silent rest (advance mode c (text ++ rest)).2 text last

theorem Silent.newline_not_mem {rest u : Text} {mode last : Mode} (h : Silent rest mode u last) :
    '\n' ∉ u := by
  induction u generalizing mode with
  | nil => simp
  | cons c u ih =>
    obtain ⟨hc, -, hrest⟩ := h
    simp [Ne.symm hc, ih hrest]

/-- Texts that differ in silent runs of characters only, none of them at the start of a line in code
or at the end of a line in a short literal. -/
inductive Alike : Mode → Text → Text → Prop
  | nil (mode : Mode) : Alike mode [] []
  | newline {mode : Mode} {a b : Text} (h : Alike mode.nextLine a b) :
      Alike mode ('\n' :: a) ('\n' :: b)
  | char {mode : Mode} {c : Char} {a b : Text} (hc : c ≠ '\n')
      (hsame : advance mode c a = advance mode c b) (h : Alike (advance mode c a).2 a b) :
      Alike mode (c :: a) (c :: b)
  | swap {mode last : Mode} {u v a b : Text} (hmode : mode ≠ .code) (hlast : ∀ q, last ≠ .short q)
      (hu : Silent a mode u last) (hv : Silent b mode v last) (h : Alike last a b) :
      Alike mode (u ++ a) (v ++ b)

theorem Alike.refl (mode : Mode) (text : Text) : Alike mode text text := by
  induction text generalizing mode with
  | nil => exact .nil mode
  | cons c text ih =>
    by_cases hc : c = '\n'
    · subst hc
      exact .newline (ih _)
    · exact .char hc rfl (ih _)

theorem Alike.behind {d : Char} {a b : Text} (h : Alike .code (d :: a) (d :: b)) {mode : Mode}
    {front : Text} (hfront : Passes (fun _ => True) (d :: a) mode front .code) :
    Alike mode (front ++ d :: a) (front ++ d :: b) := by
  induction front generalizing mode with
  | nil =>
    obtain rfl : mode = .code := hfront
    exact h
  | cons c front ih =>
    obtain ⟨-, hfront⟩ := hfront
    rw [Mode.step] at hfront
    split_ifs at hfront with hc
    · subst hc
      exact .newline (ih hfront)
    refine .char hc ?_ (ih hfront)
    match front with
    | [] => exact advance_of_code hfront
    | [e] => exact advance_of_tripled rfl
    | e :: f :: front => exact advance_of_tripled rfl

/-! ## Replacing contents -/

theorem silent_comment {u : Text} (hu : '\n' ∉ u) (rest : Text) : Silent rest .comment u .comment := by
  induction u with
  | nil => rfl
  | cons c u ih =>
    simp only [List.mem_cons, not_or] at hu
    exact ⟨Ne.symm hu.1, rfl, ih hu.2⟩

theorem silent_of_inShort {q : Char} {back : Text} (hq : q ≠ '\n') {content : Text} :
    ∀ {mode : Mode}, Passes (InShort q) (q :: back) mode content (.short q) → InShort q mode →
      Silent back mode (content ++ [q]) .code := by
  induction content with
  | nil =>
    rintro mode rfl -
    exact ⟨hq, by simp [advance, Role.shows], by simp [advance, Silent]⟩
  | cons c content ih =>
    rintro mode ⟨-, hrest⟩ hmode
    have hc : c ≠ '\n' := by
      rintro rfl
      have hcode : mode.step '\n' (content ++ q :: back) = .code := by
        rcases hmode with rfl | rfl <;> rfl
      rw [hcode] at hrest
      cases content with
      | nil => exact absurd hrest (by simp [Passes])
      | cons d content => exact absurd hrest.1 (by simp [InShort])
    rw [Mode.step, if_neg hc] at hrest
    have hnext : InShort q (advance mode c (content ++ q :: back)).2 := by
      cases content with
      | nil => exact .inl hrest
      | cons d content => exact hrest.1
    rw [List.cons_append, Silent, List.append_assoc, List.singleton_append]
    refine ⟨hc, ?_, ih hrest hnext⟩
    rcases hmode with rfl | rfl
    · simp only [advance]
      split_ifs <;> rfl
    · rfl

theorem silent_of_inLong {q : Char} {rest u : Text} (hu : '\n' ∉ u) :
    ∀ {mode last : Mode}, Passes (InLong q) rest mode u last → Silent rest mode u last := by
  induction u with
  | nil => exact fun h => h
  | cons c u ih =>
    rintro mode last ⟨rfl, hrest⟩
    simp only [List.mem_cons, not_or] at hu
    rw [Mode.step, if_neg (Ne.symm hu.1)] at hrest
    refine ⟨Ne.symm hu.1, ?_, ih hu.2 hrest⟩
    simp only [advance]
    split_ifs <;> rfl

theorem alike_inLong {q : Char} {back : Text} (n : Nat) :
    ∀ {content content' : Text}, content.count '\n' = n → content'.count '\n' = n →
      Passes (InLong q) back (.long q) content (.long q) →
      Passes (InLong q) back (.long q) content' (.long q) →
      Alike (.long q) (content ++ back) (content' ++ back) := by
  induction n with
  | zero =>
    intro content content' hcount hcount' h h'
    rw [List.count_eq_zero] at hcount hcount'
    exact .swap (by simp) (by simp) (silent_of_inLong hcount h) (silent_of_inLong hcount' h')
      (.refl ..)
  | succ n ih =>
    intro content content' hcount hcount' h h'
    obtain ⟨u, w, rfl, hu⟩ :=
      List.eq_append_cons_of_mem (List.count_pos_iff.1 (by omega : 0 < content.count '\n'))
    obtain ⟨u', w', rfl, hu'⟩ :=
      List.eq_append_cons_of_mem (List.count_pos_iff.1 (by omega : 0 < content'.count '\n'))
    obtain ⟨mid, hfirst, hmid, hrest⟩ := passes_append.1 h
    obtain ⟨mid', hfirst', hmid', hrest'⟩ := passes_append.1 h'
    obtain rfl : mid = .long q := hmid
    obtain rfl : mid' = .long q := hmid'
    have hcount_w : w.count '\n' = n := by simpa [List.count_eq_zero.2 hu] using hcount
    have hcount_w' : w'.count '\n' = n := by simpa [List.count_eq_zero.2 hu'] using hcount'
    rw [List.append_assoc, List.append_assoc]
    exact .swap (by simp) (by simp) (silent_of_inLong hu hfirst) (silent_of_inLong hu' hfirst')
      (.newline (ih hcount_w hcount_w' hrest hrest'))

theorem ne_newline_of_isQuote {q : Char} (hq : isQuote q = true) : q ≠ '\n' := by
  rintro rfl
  exact absurd hq (by decide)

theorem ne_hash_of_isQuote {q : Char} (hq : isQuote q = true) : q ≠ '#' := by
  rintro rfl
  exact absurd hq (by decide)

theorem alike_short {q : Char} {content content' back : Text} (hq : isQuote q = true)
    (hopen : tripled q (content ++ q :: back) = false)
    (hinside : Passes (InShort q) (q :: back) (.short q) content (.short q))
    (hfills : Fills q content content') :
    Alike .code (q :: (content ++ q :: back)) (q :: (content' ++ q :: back)) := by
  have hnewline := ne_newline_of_isQuote hq
  have hopen' : tripled q (content' ++ q :: back) = false := by
    obtain ⟨c, more, rfl⟩ := List.exists_cons_of_ne_nil hfills.ne_nil
    have hc : q ≠ c := fun h => hfills.quote (by simp [h])
    simp [tripled, List.isPrefixOf, hc]
  have hsilent := silent_of_inShort hnewline hinside (.inl rfl)
  have hnone : '\n' ∉ content' := by
    have hold : '\n' ∉ content := fun h => hsilent.newline_not_mem (List.mem_append_left [q] h)
    rw [← List.count_eq_zero, hfills.lines, List.count_eq_zero]
    exact hold
  have hinside' := passes_short hfills.quote hfills.backslash hnone (q :: back)
  refine .char hnewline (advance_of_tripled (hopen.trans hopen'.symm)) ?_
  have hmode : (advance .code q (content ++ q :: back)).2 = .short q := by
    simp [advance, ne_hash_of_isQuote hq, hq, hopen]
  rw [hmode]
  have hswap := Alike.swap (by simp) (by simp) hsilent (silent_of_inShort hnewline hinside' (.inl rfl)) (.refl .code back)
  simpa using hswap

theorem alike_long {q : Char} {content content' back : Text} (hq : isQuote q = true)
    (hinside : Passes (InLong q) (q :: q :: q :: back) (.long q) content (.long q))
    (hfills : Fills q content content') :
    Alike .code (q :: q :: q :: (content ++ q :: q :: q :: back))
      (q :: q :: q :: (content' ++ q :: q :: q :: back)) := by
  have hnewline := ne_newline_of_isQuote hq
  have hopen (text : Text) : advance .code q (q :: q :: text) = (.opening, .openingQuotes q 1) := by
    simp [advance, ne_hash_of_isQuote hq, hq, tripled]
  refine .char hnewline (by rw [hopen, hopen]) ?_
  rw [hopen]
  refine .char hnewline rfl (.char hnewline rfl ?_)
  exact alike_inLong _ rfl hfills.lines hinside (passes_long hfills.quote _)

theorem Rewritten.alike {a b : Text} (h : Rewritten a b) : Alike .code a b := by
  cases h with
  | short hq hfront hopen hinside hfills =>
    exact (alike_short hq hopen hinside hfills).behind hfront
  | long hq hfront hinside hfills => exact (alike_long hq hinside hfills).behind hfront
  | @comment front comment comment' back hfront hold hnew =>
    have hswap : Alike .comment (comment ++ back) (comment' ++ back) :=
      .swap (by simp) (by simp) (silent_comment hold back) (silent_comment hnew back) (.refl ..)
    have hhash : Alike .code ('#' :: (comment ++ back)) ('#' :: (comment' ++ back)) :=
      .char (by decide) rfl hswap
    exact hhash.behind hfront

/-! ## Line by line -/

/-- The characters that leave a trace in the code of a line. -/
def visible (marks : List Mark) : List Mark := marks.filter (·.role.shows)

/-- The spaces and tabs that a line starts with. -/
def leadOf (line : Text) : Text := line.takeWhile fun c => c = ' ' ∨ c = '\t'

/-- Lines that are read alike from a mode: they show the same characters, end in the middle of the
same thing, end in the same character if that is a short literal, and start at the same column if
they start in code. -/
structure LineAlike (mode : Mode) (a b : Text) : Prop where
  shown : visible (lex mode a).1 = visible (lex mode b).1
  last : (lex mode a).2 = (lex mode b).2
  ending : ∀ q, (lex mode a).2 = .short q → a.getLast? = b.getLast?
  lead : mode = .code → leadOf a = leadOf b

/-- Lines that are read alike, one after another. -/
inductive LinesAlike : Mode → List Text → List Text → Prop
  | nil (mode : Mode) : LinesAlike mode [] []
  | cons {mode : Mode} {a b : Text} {as bs : List Text} (h : LineAlike mode a b)
      (hrest : LinesAlike (lex mode a).2.nextLine as bs) : LinesAlike mode (a :: as) (b :: bs)

theorem visible_cons_of_shows {mark : Mark} (h : mark.role.shows = true) (marks : List Mark) :
    visible (mark :: marks) = mark :: visible marks := by
  simp [visible, h]

theorem visible_cons_of_silent {mark : Mark} (h : mark.role.shows = false) (marks : List Mark) :
    visible (mark :: marks) = visible marks := by
  simp [visible, h]

theorem Silent.lex {rest line : Text} {more : List Text} (hline : Text.lines rest = line :: more)
    {u : Text} {mode last : Mode} (h : Silent rest mode u last) :
    visible (lex mode (u ++ line)).1 = visible (lex last line).1
      ∧ (lex mode (u ++ line)).2 = (lex last line).2 := by
  induction u generalizing mode with
  | nil =>
    obtain rfl : mode = last := h
    exact ⟨rfl, rfl⟩
  | cons c u ih =>
    obtain ⟨hc, hshows, hrest⟩ := h
    have hlines := Text.lines_append_of_not_mem hrest.newline_not_mem hline
    rw [advance_line hc hlines] at hshows hrest
    rw [List.cons_append, lex_cons, visible_cons_of_silent hshows]
    exact ih hrest

theorem leadOf_cons (c : Char) (line : Text) :
    leadOf (c :: line) = if c = ' ' ∨ c = '\t' then c :: leadOf line else [] := by
  simp [leadOf, List.takeWhile_cons]

theorem advance_gap {c : Char} (hc : c = ' ' ∨ c = '\t') (rest : Text) :
    advance .code c rest = (.code, .code) := by
  rcases hc with rfl | rfl <;> rfl

theorem LineAlike.cons {mode : Mode} {c : Char} {a b : Text}
    (hsame : advance mode c a = advance mode c b) (h : LineAlike (advance mode c a).2 a b) :
    LineAlike mode (c :: a) (c :: b) := by
  have hlex (text : Text) (ht : advance mode c text = advance mode c a) :
      (lex mode (c :: text)) = (⟨c, (advance mode c a).1⟩ :: (lex (advance mode c a).2 text).1,
        (lex (advance mode c a).2 text).2) := by
    rw [lex_cons, ht]
  constructor
  · rw [hlex a rfl, hlex b hsame.symm, visible, visible, List.filter_cons, List.filter_cons]
    have hshown := h.shown
    rw [visible, visible] at hshown
    rw [hshown]
  · rw [hlex a rfl, hlex b hsame.symm]
    exact h.last
  · intro q hq
    rw [hlex a rfl] at hq
    rw [List.getLast?_cons, List.getLast?_cons, h.ending q hq]
  · rintro rfl
    rw [leadOf_cons, leadOf_cons]
    split_ifs with hc
    · rw [advance_gap hc] at h
      rw [h.lead rfl]
    · rfl

theorem Alike.lines {mode : Mode} {a b : Text} (h : Alike mode a b) :
    LinesAlike mode (Text.lines a) (Text.lines b) := by
  induction h with
  | nil mode => exact .cons ⟨rfl, rfl, fun _ _ => rfl, fun _ => rfl⟩ (.nil _)
  | newline h ih =>
    rw [Text.lines_cons_newline, Text.lines_cons_newline]
    exact .cons ⟨rfl, rfl, fun _ _ => rfl, fun _ => rfl⟩ ih
  | @char mode c a b hc hsame h ih =>
    obtain ⟨la, ma, ha⟩ := List.exists_cons_of_ne_nil (Text.lines_ne_nil a)
    obtain ⟨lb, mb, hb⟩ := List.exists_cons_of_ne_nil (Text.lines_ne_nil b)
    rw [ha, hb] at ih
    cases ih with
    | cons hline hrest =>
      rw [Text.lines_cons hc ha, Text.lines_cons hc hb]
      rw [advance_line hc ha] at hline hrest hsame
      rw [advance_line hc hb] at hsame
      exact .cons (.cons hsame hline) hrest
  | @swap mode last u v a b hmode hlast hu hv h ih =>
    obtain ⟨la, ma, ha⟩ := List.exists_cons_of_ne_nil (Text.lines_ne_nil a)
    obtain ⟨lb, mb, hb⟩ := List.exists_cons_of_ne_nil (Text.lines_ne_nil b)
    rw [ha, hb] at ih
    cases ih with
    | cons hline hrest =>
      rw [Text.lines_append_of_not_mem hu.newline_not_mem ha,
        Text.lines_append_of_not_mem hv.newline_not_mem hb]
      obtain ⟨hshown, hend⟩ := hu.lex ha
      obtain ⟨hshown', hend'⟩ := hv.lex hb
      refine .cons ⟨?_, ?_, ?_, fun hcode => absurd hcode hmode⟩ (hend ▸ hrest)
      · rw [hshown, hshown', hline.shown]
      · rw [hend, hend', hline.last]
      · intro q hq
        rw [hend] at hq
        have hne : la ≠ [] := by
          rintro rfl
          exact hlast q hq
        have hne' : lb ≠ [] := by
          rintro rfl
          exact hne (List.getLast?_eq_none_iff.1 (hline.ending q hq))
        rw [List.getLast?_append_of_ne_nil _ hne, List.getLast?_append_of_ne_nil _ hne',
          hline.ending q hq]

theorem Rewritten.lines {a b : Text} (h : Rewritten a b) :
    LinesAlike .code (Text.lines a) (Text.lines b) := h.alike.lines

end SourceLens.Indented
