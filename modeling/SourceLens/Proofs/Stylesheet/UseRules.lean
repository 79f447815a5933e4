import SourceLens.Proofs.Pattern.Pieces
import SourceLens.Stylesheet.UseRule

/-!
# Comments and use statements

A comment ends at the first closing sign behind its opening one, and a use statement at the first
semicolon, if no brace comes before it: both patterns find pieces (`finds_comment`,
`finds_useStatement`). Use statements are searched in the text with its comments blanked out. Neither
end of a statement is a blank, so no comment reaches over one, and the text is cut into comments,
statements and characters between them (`sheet_induction`). Masking goes along that cut, and finds
nothing in what it leaves (`useMatches_mask`).
-/

namespace SourceLens.Stylesheet

open Pattern

/-! ## Pieces -/

def closing : Text := ['*', '/']

/-- A comment: nothing closes it before its end. -/
def IsComment (x : Text) : Prop :=
  ∃ z, x = '/' :: '*' :: (z ++ closing) ∧ ¬closing <:+: z ++ ['*']

def keyword : Text := ['@', 'u', 's', 'e']

def Unbroken (x : Text) : Prop := ∀ c ∈ x, !";\x7b\x7d".toList.contains c

/-- A use statement: its keyword is a word of its own, and a semicolon ends it. -/
def IsUse (x : Text) : Prop :=
  ∃ z, x = keyword ++ (z ++ [';']) ∧ Unbroken z ∧ (z ++ [';']).head?.any isWord = false

theorem exists_first_closing {text : Text} (h : closing <:+: text) :
    ∃ z rest, text = z ++ closing ++ rest ∧ ¬closing <:+: z ++ ['*'] := by
  induction text with
  | nil => simp [closing] at h
  | cons c text ih =>
    by_cases hfirst : closing <+: c :: text
    · obtain ⟨rest, hrest⟩ := hfirst
      exact ⟨[], rest, hrest.symm, by simp [closing, List.infix_cons_iff]⟩
    · obtain ⟨z, rest, rfl, hz⟩ := ih ((List.infix_cons_iff.1 h).resolve_left hfirst)
      refine ⟨c :: z, rest, rfl, fun hinfix => ?_⟩
      rw [List.cons_append] at hinfix
      rcases List.infix_cons_iff.1 hinfix with hhead | htail
      · refine hfirst (hhead.trans ⟨'/' :: rest, ?_⟩)
        simp [closing]
      · exact hz htail

theorem ahead_comment_iff {text : Text} :
    Ahead IsComment text ↔ ∃ rest, text = '/' :: '*' :: rest ∧ closing <:+: rest := by
  constructor
  · rintro ⟨_, rest, rfl, z, rfl, -⟩
    exact ⟨z ++ closing ++ rest, by simp, ⟨z, rest, rfl⟩⟩
  · rintro ⟨rest, rfl, hclosing⟩
    obtain ⟨z, after, rfl, hz⟩ := exists_first_closing hclosing
    exact ⟨'/' :: '*' :: (z ++ closing), after, by simp, z, rfl, hz⟩

theorem run_comment {s : Cursor} {z r : Text} (hrest : s.rest = '/' :: '*' :: (z ++ closing) ++ r)
    (hz : ¬closing <:+: z ++ ['*']) :
    run comment s some = some (s.past ('/' :: '*' :: (z ++ closing)) r s.groups) := by
  have hopen : s.rest = "/*".toList ++ (z ++ (closing ++ r)) := by simp [hrest]
  have hlit := run_lit (k := fun there => run (seq (few (one fun _ => true)) (lit "*/")) there some)
    hopen
  have hclose : run (lit "*/") (s.past ('/' :: '*' :: z) (closing ++ r) s.groups) some
      = some (s.past ('/' :: '*' :: (z ++ closing)) r s.groups) := by
    refine (run_lit rfl).trans ?_
    rw [Cursor.past_past, Cursor.past_groups]
    rfl
  have hpast (x r' : Text) :
      (s.past "/*".toList (z ++ (closing ++ r)) s.groups).past x r' s.groups
        = s.past ('/' :: '*' :: x) r' s.groups := Cursor.past_past ..
  have hfew := run_few_first (s := s.past "/*".toList (z ++ (closing ++ r)) s.groups)
    (t := fun _ => true) (k := fun there => run (lit "*/") there some) rfl (by simp) ?_ ?_
  · refine hlit.trans (hfew.trans ?_)
    rw [Cursor.past_groups, hpast, hclose]
  · -- a closing sign before the end of the comment would lie in `z` and the sign behind it
    intro y w hyw hne
    apply run_lit_none
    rintro hclosing
    apply hz
    have hlong : w ++ ['*'] <+: w ++ (closing ++ r) := ⟨'/' :: r, by simp [closing]⟩
    have hlength : "*/".toList.length ≤ (w ++ ['*']).length := by
      have hpos := List.length_pos_iff.2 hne
      simp
      omega
    have hearly : closing <+: w ++ ['*'] :=
      List.prefix_of_prefix_length_le hclosing hlong hlength
    rw [hyw, List.append_assoc]
    exact hearly.isInfix.trans (List.suffix_append y _).isInfix
  · rw [Cursor.past_groups, hpast, hclose]
    rfl

theorem finds_comment : Finds comment IsComment := by
  constructor
  · rintro _ ⟨z, rfl, -⟩
    simp
  · rintro _ ⟨z, rfl, hz⟩ rest before offset
    rw [matchSome, matchAt_eq_some _ rfl (run_comment rfl hz)]
    rfl
  · intro text hnone before offset
    rw [matchSome, matchAt_eq_none]
    · rfl
    · rintro _ rest rfl ⟨y, _, rfl, hy, w, v, rfl, -, hv⟩
      have hclosing : v = closing := spans_lit.1 hv
      rw [spans_lit] at hy
      apply hnone
      rw [ahead_comment_iff, hy, hclosing]
      exact ⟨w ++ closing ++ rest, by simp, ⟨w, rest, rfl⟩⟩

theorem run_useStatement {s : Cursor} {z r : Text}
    (hrest : s.rest = keyword ++ (z ++ [';']) ++ r) (hz : Unbroken z)
    (hword : (z ++ [';']).head?.any isWord = false) :
    run useStatement s some = some (s.past (keyword ++ (z ++ [';'])) r s.groups) := by
  have hkey : "@use".toList = keyword := rfl
  have hopen : s.rest = "@use".toList ++ (z ++ ([';'] ++ r)) := by simp [hrest, keyword]
  have hlit := run_lit (k := fun there =>
    run (seq wordEdge (seq (many (noneOf ";\x7b\x7d")) (lit ";"))) there some) hopen
  rw [hkey] at hlit
  have hedge : (s.past keyword (z ++ ([';'] ++ r)) s.groups).atWordEdge = true := by
    have hhead : (z ++ ([';'] ++ r)).head? = (z ++ [';']).head? := by cases z <;> rfl
    have hbefore : (s.past keyword (z ++ ([';'] ++ r)) s.groups).before = some 'e' := rfl
    rw [Cursor.atWordEdge, Cursor.past_rest, hhead, hword, hbefore]
    decide
  have hclose : run (lit ";") (s.past (keyword ++ z) ([';'] ++ r) s.groups) some
      = some (s.past (keyword ++ (z ++ [';'])) r s.groups) := by
    refine (run_lit rfl).trans ?_
    rw [Cursor.past_past, Cursor.past_groups, List.append_assoc]
    rfl
  have hmany := run_many_skip (t := fun c => !";\x7b\x7d".toList.contains c) (x := z)
    (r := [';'] ++ r) (s := s.past keyword (z ++ ([';'] ++ r)) s.groups)
    (k := fun there => run (lit ";") there some) rfl hz rfl ?_
  · refine hlit.trans ((if_pos hedge).trans (hmany.trans ?_))
    rw [Cursor.past_groups, Cursor.past_past, hclose]
  · intro there hthere
    apply run_lit_none
    rintro ⟨rest, hrest⟩
    rw [← hrest] at hthere
    exact absurd hthere (by simp)

theorem finds_useStatement : Finds useStatement IsUse := by
  constructor
  · rintro _ ⟨z, rfl, -⟩
    simp [keyword]
  · rintro _ ⟨z, rfl, hz, hword⟩ rest before offset
    rw [matchSome, matchAt_eq_some _ rfl (run_useStatement rfl hz hword)]
    rfl
  · intro text hnone before offset
    rw [matchSome, matchAt_eq_none]
    · rfl
    · rintro _ rest rfl ⟨y, _, rfl, hy, _, _, rfl, ⟨rfl, hedge⟩, w, u, rfl, hw, hu⟩
      have hkey : y = keyword := spans_lit.1 hy
      have hsign : u = [';'] := spans_lit.1 hu
      rw [hkey, hsign] at hedge hnone
      apply hnone
      refine ⟨keyword ++ (w ++ [';']), rest, by simp, w, rfl, spans_many_one.1 hw, ?_⟩
      have hhead : (w ++ [';'] ++ rest).head? = (w ++ [';']).head? := by cases w <;> rfl
      have hbefore : (lastOf before keyword).any isWord = true := by
        have hlast : lastOf before keyword = some 'e' := rfl
        rw [hlast]
        decide
      rw [hbefore, hhead] at hedge
      simpa only [Bool.true_bne, Bool.not_eq_true'] using hedge

/-! ## The cut of a text -/

def IsFiller (c : Char) : Prop := c = ' ' ∨ c = '\n'

theorem isFiller_blankChars (text : Text) : ∀ c ∈ blankChars text, IsFiller c := by
  intro c hc
  obtain ⟨d, -, rfl⟩ := List.mem_map.1 hc
  by_cases hd : d = '\n'
  · exact .inr (by rw [if_pos hd, hd])
  · exact .inl (if_neg hd)

theorem isFiller_blankBytes (text : Text) : ∀ c ∈ blankBytes text, IsFiller c := by
  intro c hc
  obtain ⟨d, -, hmem⟩ := List.mem_flatMap.1 hc
  by_cases hd : d = '\n'
  · rw [if_pos hd, hd] at hmem
    exact .inr (List.mem_singleton.1 hmem)
  · rw [if_neg hd] at hmem
    exact .inl (List.eq_of_mem_replicate hmem)

theorem IsFiller.not_ahead {c : Char} (h : IsFiller c) (rest : Text) :
    ¬Ahead IsComment (c :: rest) ∧ ¬Ahead IsUse (c :: rest) := by
  constructor
  · intro hahead
    obtain ⟨after, htext, -⟩ := ahead_comment_iff.1 hahead
    obtain ⟨rfl, -⟩ := List.cons.inj htext
    simp [IsFiller] at h
  · rintro ⟨_, after, htext, z, rfl, -⟩
    obtain rfl : c = '@' := (List.cons.inj htext).1
    simp [IsFiller] at h

/-- A text with its comments blanked out, in which use statements are searched. -/
def searchable (text : Text) : Text := comment.replaceAll blankChars text

theorem searchable_comment {x : Text} (hx : IsComment x) (rest : Text) :
    searchable (x ++ rest) = blankChars x ++ searchable rest :=
  finds_comment.replaceAll_piece hx blankChars rest

theorem searchable_char {c : Char} {rest : Text} (h : ¬Ahead IsComment (c :: rest)) :
    searchable (c :: rest) = c :: searchable rest :=
  finds_comment.replaceAll_char h blankChars

theorem cut_searchable {c : Char} (hc : ¬IsFiller c) (text : Text) :
    ∀ {x rest : Text}, searchable text = x ++ c :: rest →
      ∃ y after, text = y ++ c :: after ∧ y.length = x.length ∧ searchable after = rest := by
  induction text using piece_induction finds_comment.ne_nil with
  | nil =>
    intro x rest h
    simp [searchable, replaceAll, replaceFrom] at h
  | take k text hk ih =>
    intro x rest h
    rw [searchable_comment hk] at h
    -- the cut does not lie in the comment
    obtain ⟨w, rfl, hw⟩ | ⟨w, hw, hrest⟩ := List.append_eq_append_iff.1 h
    · obtain ⟨y, after, rfl, hlength, hafter⟩ := ih hw
      refine ⟨k ++ y, after, by rw [List.append_assoc], ?_, hafter⟩
      simp [hlength, blankChars]
    · cases w with
      | nil =>
        obtain ⟨y, after, rfl, hlength, hafter⟩ := ih (x := []) hrest.symm
        refine ⟨k ++ y, after, by rw [List.append_assoc], ?_, hafter⟩
        have hsame := congrArg List.length hw
        simp [blankChars] at hsame
        simp [hlength, hsame]
      | cons d w =>
        obtain ⟨rfl, -⟩ := List.cons.inj hrest
        exact absurd (isFiller_blankChars k c (by rw [hw]; simp)) hc
  | pass d text hd ih =>
    intro x rest h
    rw [searchable_char hd] at h
    cases x with
    | nil =>
      obtain ⟨rfl, rfl⟩ := List.cons.inj h
      exact ⟨[], text, rfl, rfl, rfl⟩
    | cons e x =>
      obtain ⟨rfl, hrest⟩ := List.cons.inj h
      obtain ⟨y, after, rfl, hlength, hafter⟩ := ih hrest
      exact ⟨d :: y, after, rfl, by simp [hlength], hafter⟩

/-- Cuts a text into comments, use statements, each with its searchable form, and characters. -/
theorem sheet_induction {motive : Text → Prop} (nil : motive [])
    (comment : ∀ k rest, IsComment k → motive rest → motive (k ++ rest))
    (rule : ∀ t x rest, IsUse x → t.length = x.length →
      searchable (t ++ rest) = x ++ searchable rest → motive rest → motive (t ++ rest))
    (char : ∀ c rest, ¬Ahead IsComment (c :: rest) → ¬Ahead IsUse (c :: searchable rest) →
      motive rest → motive (c :: rest)) (text : Text) : motive text := by
  induction hn : text.length using Nat.strongRecOn generalizing text with
  | _ n ih =>
    by_cases hcomment : Ahead IsComment text
    · obtain ⟨k, rest, rfl, hk⟩ := hcomment
      have hpos := List.length_pos_iff.2 (finds_comment.ne_nil hk)
      rw [List.length_append] at hn
      exact comment k rest hk (ih rest.length (by omega) rest rfl)
    · by_cases huse : Ahead IsUse (searchable text)
      · obtain ⟨_, s, hs, z, rfl, hz⟩ := huse
        have hcut : searchable text = (keyword ++ z) ++ ';' :: s := by simpa using hs
        obtain ⟨y, rest, rfl, hlength, rfl⟩ := cut_searchable (by simp [IsFiller]) text hcut
        have hsplit : y ++ ';' :: rest = (y ++ [';']) ++ rest := by simp
        rw [List.length_append, List.length_cons] at hn
        rw [hsplit] at hs ⊢
        refine rule _ _ rest ⟨z, rfl, hz⟩ ?_ hs (ih rest.length (by omega) rest rfl)
        simp [hlength, Nat.add_assoc]
      · cases text with
        | nil => exact nil
        | cons c rest =>
          rw [List.length_cons] at hn
          rw [searchable_char hcomment] at huse
          exact char c rest hcomment huse (ih rest.length (by omega) rest rfl)

/-! ## Masking along the cut -/

/-- The use statements of a text that starts at an offset. -/
def useMatchesFrom (offset : Nat) (text : Text) : List Match :=
  useStatement.matchesFrom offset (searchable text)

theorem useMatches_eq (text : Text) : useMatches text = useMatchesFrom 0 text := rfl

theorem useMatchesFrom_comment {k : Text} (hk : IsComment k) (offset : Nat) (rest : Text) :
    useMatchesFrom offset (k ++ rest) = useMatchesFrom (offset + k.length) rest := by
  have hskip : ∀ c ∈ blankChars k, ∀ rest, ¬Ahead IsUse (c :: rest) := fun c hc rest =>
    ((isFiller_blankChars k c hc).not_ahead rest).2
  rw [useMatchesFrom, searchable_comment hk, finds_useStatement.matchesFrom_skip hskip,
    blankChars, List.length_map, useMatchesFrom]

theorem useMatchesFrom_rule {t x rest : Text} (hx : IsUse x) (hlength : t.length = x.length)
    (hsearch : searchable (t ++ rest) = x ++ searchable rest) (offset : Nat) :
    useMatchesFrom offset (t ++ rest)
      = ⟨offset, x, []⟩ :: useMatchesFrom (offset + t.length) rest := by
  rw [useMatchesFrom, hsearch, finds_useStatement.matchesFrom_piece hx, ← hlength, useMatchesFrom]

theorem useMatchesFrom_char {c : Char} {rest : Text} (hcomment : ¬Ahead IsComment (c :: rest))
    (huse : ¬Ahead IsUse (c :: searchable rest)) (offset : Nat) :
    useMatchesFrom offset (c :: rest) = useMatchesFrom (offset + 1) rest := by
  rw [useMatchesFrom, searchable_char hcomment, finds_useStatement.matchesFrom_char huse,
    useMatchesFrom]

theorem le_start_of_mem {offset : Nat} {text : Text} {found : Match}
    (h : found ∈ useMatchesFrom offset text) : offset ≤ found.start := by
  induction text using sheet_induction generalizing offset with
  | nil => simp [useMatchesFrom, searchable, replaceAll, replaceFrom, matchesFrom, findAllFrom] at h
  | comment k rest hk ih =>
    rw [useMatchesFrom_comment hk] at h
    have := ih h
    omega
  | rule t x rest hx hlength hsearch ih =>
    rw [useMatchesFrom_rule hx hlength hsearch] at h
    rcases List.mem_cons.1 h with rfl | h
    · exact Nat.le_refl _
    · have := ih h
      omega
  | char c rest hcomment huse ih =>
    rw [useMatchesFrom_char hcomment huse] at h
    have := ih h
    omega

theorem maskFrom_append {offset : Nat} {found : List Match} (gap rest : Text)
    (h : ∀ m ∈ found, offset + gap.length ≤ m.start) :
    maskFrom offset (gap ++ rest) found = gap ++ maskFrom (offset + gap.length) rest found := by
  cases found with
  | nil => rfl
  | cons m more =>
    have hstart := h m List.mem_cons_self
    have hskip : m.start - offset = gap.length + (m.start - (offset + gap.length)) := by omega
    rw [maskFrom, hskip, List.take_length_add_append, List.drop_length_add_append, maskFrom]
    simp only [List.append_assoc]

/-- The text, which starts at an offset, with its use statements blanked out. -/
def maskAt (offset : Nat) (text : Text) : Text :=
  maskFrom offset text (useMatchesFrom offset text)

theorem mask_eq (text : Text) : mask text = maskAt 0 text := rfl

theorem maskAt_comment {k : Text} (hk : IsComment k) (offset : Nat) (rest : Text) :
    maskAt offset (k ++ rest) = k ++ maskAt (offset + k.length) rest := by
  rw [maskAt, useMatchesFrom_comment hk, maskFrom_append k rest fun m hm => le_start_of_mem hm,
    maskAt]

theorem maskAt_rule {t x rest : Text} (hx : IsUse x) (hlength : t.length = x.length)
    (hsearch : searchable (t ++ rest) = x ++ searchable rest) (offset : Nat) :
    maskAt offset (t ++ rest) = blankBytes t ++ maskAt (offset + t.length) rest := by
  rw [maskAt, useMatchesFrom_rule hx hlength hsearch, maskAt]
  simp [maskFrom, Match.stop, ← hlength]

theorem maskAt_char {c : Char} {rest : Text} (hcomment : ¬Ahead IsComment (c :: rest))
    (huse : ¬Ahead IsUse (c :: searchable rest)) (offset : Nat) :
    maskAt offset (c :: rest) = c :: maskAt (offset + 1) rest := by
  rw [maskAt, useMatchesFrom_char hcomment huse, maskAt]
  exact maskFrom_append [c] rest fun m hm => le_start_of_mem hm

/-! ## Masking again -/

theorem closing_infix_of_filler {u b : Text} (hu : ∀ c ∈ u, IsFiller c)
    (h : closing <:+: u ++ b) : closing <:+: b := by
  induction u with
  | nil => exact h
  | cons d u ih =>
    obtain ⟨hd, hu⟩ := List.forall_mem_cons.1 hu
    refine ih hu ((List.infix_cons_iff.1 h).resolve_left ?_)
    rintro ⟨rest, hwhole⟩
    obtain ⟨rfl, -⟩ := List.cons.inj hwhole
    simp [IsFiller] at hd

/-- The second text is the first one with some stretches replaced by blanks, at least one for each. -/
inductive Overlaid (stretch : Text → Prop) : Text → Text → Prop
  | nil : Overlaid stretch [] []
  | keep (c : Char) {a b : Text} : Overlaid stretch a b → Overlaid stretch (c :: a) (c :: b)
  | cover {t u a b : Text} : stretch t → u ≠ [] → (∀ c ∈ u, IsFiller c) → Overlaid stretch a b →
      Overlaid stretch (t ++ a) (u ++ b)

namespace Overlaid

variable {stretch : Text → Prop} {a b : Text} {c : Char}

theorem keep_all (x : Text) (h : Overlaid stretch a b) : Overlaid stretch (x ++ a) (x ++ b) := by
  induction x with
  | nil => exact h
  | cons c x ih => exact ih.keep c

theorem of_cons (hc : ¬IsFiller c) (h : Overlaid stretch a (c :: b)) :
    ∃ a', a = c :: a' ∧ Overlaid stretch a' b := by
  generalize hwhole : c :: b = whole at h
  cases h with
  | nil => simp at hwhole
  | keep d hrest =>
    obtain ⟨rfl, rfl⟩ := List.cons.inj hwhole
    exact ⟨_, rfl, hrest⟩
  | @cover t u a' b' _ hne hu _ =>
    obtain ⟨d, u, rfl⟩ := List.exists_cons_of_ne_nil hne
    obtain ⟨rfl, -⟩ := List.cons.inj hwhole
    exact absurd (hu c List.mem_cons_self) hc

theorem of_append {x : Text} (hx : ∀ c ∈ x, ¬IsFiller c) (h : Overlaid stretch a (x ++ b)) :
    ∃ a', a = x ++ a' ∧ Overlaid stretch a' b := by
  induction x generalizing a with
  | nil => exact ⟨a, rfl, h⟩
  | cons c x ih =>
    obtain ⟨hc, hx⟩ := List.forall_mem_cons.1 hx
    obtain ⟨a₁, rfl, hrest⟩ := of_cons hc h
    obtain ⟨a₂, rfl, hlast⟩ := ih hx hrest
    exact ⟨a₂, rfl, hlast⟩

theorem closing_infix (h : Overlaid stretch a b) (hclosing : closing <:+: b) : closing <:+: a := by
  induction h with
  | nil => exact hclosing
  | @keep c a b hrest ih =>
    rcases List.infix_cons_iff.1 hclosing with hhead | htail
    · obtain ⟨rest, hwhole⟩ := hhead
      obtain ⟨a', ha, -⟩ := of_append (x := closing) (by simp [closing, IsFiller]) (hwhole ▸ hrest.keep c)
      exact ha ▸ (List.prefix_append closing a').isInfix
    · exact (ih htail).trans (List.suffix_cons c a).isInfix
  | @cover t u a b _ _ hu _ ih =>
    exact (ih (closing_infix_of_filler hu hclosing)).trans (List.suffix_append t a).isInfix

theorem not_ahead_comment (h : Overlaid stretch a b) (hnone : ¬Ahead IsComment (c :: a)) :
    ¬Ahead IsComment (c :: b) := by
  intro hahead
  obtain ⟨rest, hwhole, hclosing⟩ := ahead_comment_iff.1 hahead
  obtain ⟨rfl, rfl⟩ := List.cons.inj hwhole
  obtain ⟨a', rfl, hrest⟩ := of_cons (by simp [IsFiller]) h
  exact hnone (ahead_comment_iff.2 ⟨a', rfl, hrest.closing_infix hclosing⟩)

/-- Up to its first semicolon, a text from which use statements are taken out goes on as before, or
up to the semicolon of the first statement that was there. -/
theorem unbroken_front {z r : Text} (h : Overlaid IsUse a (z ++ ';' :: r)) (hz : Unbroken z) :
    ∃ z' r', a = z' ++ ';' :: r' ∧ Unbroken z'
      ∧ ((z ++ [';']).head?.any isWord = false → (z' ++ [';']).head?.any isWord = false) := by
  generalize hwhole : z ++ ';' :: r = whole at h
  induction h generalizing z with
  | nil => simp at hwhole
  | @keep c a b hrest ih =>
    cases z with
    | nil =>
      obtain ⟨rfl, rfl⟩ := List.cons.inj hwhole
      exact ⟨[], a, rfl, by simp [Unbroken], id⟩
    | cons d z =>
      obtain ⟨rfl, hmore⟩ := List.cons.inj hwhole
      obtain ⟨hd, hz⟩ := List.forall_mem_cons.1 hz
      obtain ⟨z', r', rfl, hz', -⟩ := ih hz hmore
      exact ⟨d :: z', r', rfl, List.forall_mem_cons.2 ⟨hd, hz'⟩, id⟩
  | @cover t u a b ht _ _ _ _ =>
    obtain ⟨w, rfl, hw, -⟩ := ht
    have hkeyword : Unbroken keyword := by simp [Unbroken, keyword]
    exact ⟨keyword ++ w, a, by simp, List.forall_mem_append.2 ⟨hkeyword, hw⟩, fun _ => rfl⟩

theorem not_ahead_use (h : Overlaid IsUse a b) (hnone : ¬Ahead IsUse (c :: a)) :
    ¬Ahead IsUse (c :: b) := by
  rintro ⟨_, rest, hwhole, z, rfl, hz, hword⟩
  obtain rfl : c = '@' := (List.cons.inj hwhole).1
  have hb : b = ['u', 's', 'e'] ++ (z ++ ';' :: rest) := by
    simpa using (List.cons.inj hwhole).2
  obtain ⟨a₁, rfl, hrest⟩ := of_append (by simp [IsFiller]) (hb ▸ h)
  obtain ⟨z', r', rfl, hz', hword'⟩ := hrest.unbroken_front hz
  exact hnone ⟨keyword ++ (z' ++ [';']), r', by simp [keyword], z', rfl, hz', hword' hword⟩

end Overlaid

theorem blankBytes_ne_nil {t : Text} (h : t ≠ []) : blankBytes t ≠ [] := by
  obtain ⟨c, t, rfl⟩ := List.exists_cons_of_ne_nil h
  have hpos := c.utf8Size_pos
  rw [blankBytes, List.flatMap_cons]
  split_ifs
  · simp
  · simp [Text.spaces]
    omega

theorem overlaid_maskAt (text : Text) :
    ∀ offset, Overlaid (· ≠ []) text (maskAt offset text)
      ∧ Overlaid IsUse (searchable text) (searchable (maskAt offset text))
      ∧ ∀ n, useMatchesFrom n (maskAt offset text) = [] := by
  induction text using sheet_induction with
  | nil => exact fun _ => ⟨.nil, .nil, fun _ => rfl⟩
  | comment k rest hk ih =>
    intro offset
    obtain ⟨htext, hsearch, hnone⟩ := ih (offset + k.length)
    rw [maskAt_comment hk, searchable_comment hk, searchable_comment hk]
    refine ⟨htext.keep_all k, hsearch.keep_all _, fun n => ?_⟩
    rw [useMatchesFrom_comment hk, hnone]
  | rule t x rest hx hlength hsearch ih =>
    intro offset
    obtain ⟨htext, hsearched, hnone⟩ := ih (offset + t.length)
    have hne : t ≠ [] := by
      rw [← List.length_pos_iff, hlength, List.length_pos_iff]
      exact finds_useStatement.ne_nil hx
    have hfill := isFiller_blankBytes t
    have hskip (rest : Text) : searchable (blankBytes t ++ rest) = blankBytes t ++ searchable rest :=
      finds_comment.replaceAll_skip (fun c hc rest => ((hfill c hc).not_ahead rest).1) _ rest
    rw [maskAt_rule hx hlength hsearch, hsearch, hskip]
    refine ⟨.cover hne (blankBytes_ne_nil hne) hfill htext,
      .cover hx (blankBytes_ne_nil hne) hfill hsearched, fun n => ?_⟩
    rw [useMatchesFrom, hskip, finds_useStatement.matchesFrom_skip fun c hc rest =>
      ((hfill c hc).not_ahead rest).2]
    exact hnone _
  | char c rest hcomment huse ih =>
    intro offset
    obtain ⟨htext, hsearched, hnone⟩ := ih (offset + 1)
    have hcomment' := htext.not_ahead_comment hcomment
    rw [maskAt_char hcomment huse, searchable_char hcomment, searchable_char hcomment']
    refine ⟨htext.keep c, hsearched.keep c, fun n => ?_⟩
    rw [useMatchesFrom_char hcomment' (hsearched.not_ahead_use huse), hnone]

end SourceLens.Stylesheet
