import SourceLens.Proofs.Pattern.Language
import SourceLens.Proofs.Text.Lines

/-!
# Patterns within a line

A pattern that takes up no line feed sees a text only up to the end of its line: `OneLine.run_cut`
follows the matcher through both texts. If it also starts with the start of a line, then searching a
text is searching its lines one by one (`findAll_lines`), so lines put in elsewhere do not matter.
-/

namespace SourceLens.Pattern

/-- Patterns that never take up a line feed, and look at most one character ahead. -/
inductive OneLine : Pattern → Prop
  | empty : OneLine .empty
  | one {test : Char → Bool} : test '\n' = false → OneLine (.one test)
  | seq {p q : Pattern} : OneLine p → OneLine q → OneLine (.seq p q)
  | alt {p q : Pattern} : OneLine p → OneLine q → OneLine (.alt p q)
  | many {test : Char → Bool} : test '\n' = false → OneLine (.many (.one test))
  | group (index : Nat) {p : Pattern} : OneLine p → OneLine (.group index p)
  | wordEdge : OneLine .wordEdge
  | lineStart : OneLine .lineStart

theorem OneLine.many1 {test : Char → Bool} (h : test '\n' = false) : OneLine (many1 (.one test)) :=
  .seq (.one h) (.many h)

theorem OneLine.lit (text : String) (h : '\n' ∉ text.toList) : OneLine (lit text) := by
  rw [Pattern.lit]
  generalize text.toList = chars at h
  induction chars with
  | nil => exact .empty
  | cons c chars ih =>
    obtain ⟨hc, hchars⟩ := not_or.1 (mt List.mem_cons.2 h)
    have hone : OneLine (.one (· == c)) := .one (by simpa using hc)
    cases chars with
    | nil => exact hone
    | cons d chars => exact .seq hone (ih hchars)

/-- Whether a place with this character before it is at the start of a line. -/
def StartsLine (before : Option Char) : Prop := before = none ∨ before = some '\n'

def EndsLine (tail : Text) : Prop := tail = [] ∨ ∃ more, tail = '\n' :: more

/-- The same place in a text and in its line alone: `tail` follows the line, which starts at offset
`shift` and has `size` characters. -/
structure Cut (tail : Text) (shift size : Nat) (whole alone : Cursor) : Prop where
  before : whole.before = alone.before ∨ StartsLine whole.before ∧ StartsLine alone.before
  rest : whole.rest = alone.rest ++ tail
  offset : whole.offset = alone.offset + shift
  groups : whole.groups = alone.groups
  size : alone.offset + alone.rest.length = size

/-- Results that are both missing or the same place. -/
def CutResult (tail : Text) (shift size : Nat) : Option Cursor → Option Cursor → Prop
  | none, none => True
  | some whole, some alone => Cut tail shift size whole alone
  | _, _ => False

section

variable {tail : Text} {shift size : Nat} {whole alone : Cursor}
  {next next' : Cursor → Option Cursor}

theorem Cut.advance (h : Cut tail shift size whole alone) {c : Char} {rest : Text}
    (hrest : alone.rest = c :: rest) :
    Cut tail shift size (whole.advance c (rest ++ tail)) (alone.advance c rest) := by
  have hoffset := h.offset
  have hsize := h.size
  rw [hrest, List.length_cons] at hsize
  refine ⟨.inl rfl, rfl, ?_, h.groups, ?_⟩
  · simp only [Cursor.advance]
    omega
  · simp only [Cursor.advance]
    omega

theorem Cut.word (h : Cut tail shift size whole alone) :
    whole.before.any isWord = alone.before.any isWord := by
  have hstart {before : Option Char} (h : StartsLine before) : before.any isWord = false := by
    rcases h with rfl | rfl
    · rfl
    · decide
  rcases h.before with h | ⟨hwhole, halone⟩
  · rw [h]
  · rw [hstart hwhole, hstart halone]

theorem Cut.atWordEdge (h : Cut tail shift size whole alone) (htail : EndsLine tail) :
    whole.atWordEdge = alone.atWordEdge := by
  have hhead : whole.rest.head?.any isWord = alone.rest.head?.any isWord := by
    rw [h.rest]
    cases alone.rest with
    | cons c rest => rfl
    | nil =>
      obtain rfl | ⟨more, rfl⟩ := htail
      · rfl
      · have hfeed : isWord '\n' = false := by decide
        exact hfeed
  rw [Cursor.atWordEdge, Cursor.atWordEdge, h.word, hhead]

theorem Cut.taken (h : Cut tail shift size whole alone) {w a : Cursor}
    (hlater : Cut tail shift size w a) :
    whole.rest.take (w.offset - whole.offset) = alone.rest.take (a.offset - alone.offset) := by
  have hoffset := h.offset
  have hoffset' := hlater.offset
  have hsize := h.size
  have hsize' := hlater.size
  have hsame : w.offset - whole.offset = a.offset - alone.offset := by omega
  rw [hsame, h.rest, List.take_append_of_le_length (by omega)]

theorem Cut.startsLine (h : Cut tail shift size whole alone) :
    StartsLine whole.before ↔ StartsLine alone.before := by
  rcases h.before with h | ⟨hwhole, halone⟩
  · rw [h]
  · exact ⟨fun _ => halone, fun _ => hwhole⟩

theorem Cut.run_one (htail : EndsLine tail) {test : Char → Bool} (htest : test '\n' = false)
    (h : Cut tail shift size whole alone)
    (hnext : ∀ {w a}, Cut tail shift size w a → CutResult tail shift size (next w) (next' a)) :
    CutResult tail shift size (run (one test) whole next) (run (one test) alone next') := by
  rw [run, run, h.rest]
  cases halone : alone.rest with
  | nil =>
    obtain rfl | ⟨more, rfl⟩ := htail
    · trivial
    · simp only [List.nil_append, htest, Bool.false_eq_true, if_false]
      trivial
  | cons c rest =>
    simp only [List.cons_append]
    split_ifs
    · exact hnext (h.advance halone)
    · trivial

theorem CutResult.or {a a' b b' : Option Cursor} (ha : CutResult tail shift size a a')
    (hb : CutResult tail shift size b b') : CutResult tail shift size (a.or b) (a'.or b') := by
  cases a with
  | none =>
    cases a' with
    | none => exact hb
    | some _ => exact ha.elim
  | some _ =>
    cases a' with
    | none => exact ha.elim
    | some _ => exact ha

theorem Cut.greedy (htail : EndsLine tail) {test : Char → Bool} (htest : test '\n' = false)
    (hnext : ∀ {w a}, Cut tail shift size w a → CutResult tail shift size (next w) (next' a))
    (text : Text) :
    ∀ {m n : Nat} {whole alone : Cursor}, Cut tail shift size whole alone → alone.rest = text →
      whole.rest.length ≤ m → text.length ≤ n →
      CutResult tail shift size (Pattern.greedy (run (.one test)) m whole next)
        (Pattern.greedy (run (.one test)) n alone next') := by
  induction text with
  | nil =>
    intro m n whole alone hcut halone hm _
    have hwhole := hcut.rest
    rw [halone, List.nil_append] at hwhole
    rw [greedy_one_nil halone]
    obtain rfl | ⟨more, rfl⟩ := htail
    · rw [greedy_one_nil hwhole]
      exact hnext hcut
    · rw [hwhole, List.length_cons] at hm
      obtain ⟨m, rfl⟩ : ∃ k, m = k + 1 := ⟨m - 1, by omega⟩
      rw [greedy_one_cons hwhole, if_neg (by simp [htest])]
      exact hnext hcut
  | cons c rest ih =>
    intro m n whole alone hcut halone hm hn
    have hwhole := hcut.rest
    rw [halone, List.cons_append] at hwhole
    rw [hwhole, List.length_cons] at hm
    rw [List.length_cons] at hn
    obtain ⟨m, rfl⟩ : ∃ k, m = k + 1 := ⟨m - 1, by omega⟩
    obtain ⟨n, rfl⟩ : ∃ k, n = k + 1 := ⟨n - 1, by omega⟩
    rw [greedy_one_cons hwhole, greedy_one_cons halone]
    split_ifs
    · have hlater := ih (m := m) (n := n) (hcut.advance halone) rfl
        (by simpa [Cursor.advance] using hm) (by omega)
      exact hlater.or (hnext hcut)
    · exact hnext hcut

end

theorem OneLine.run_cut {p : Pattern} (hp : OneLine p) {tail : Text} (htail : EndsLine tail)
    {shift size : Nat} :
    ∀ {whole alone : Cursor} {next next' : Cursor → Option Cursor}, Cut tail shift size whole alone →
      (∀ {w a}, Cut tail shift size w a → CutResult tail shift size (next w) (next' a)) →
      CutResult tail shift size (p.run whole next) (p.run alone next') := by
  induction hp with
  | empty => exact fun hcut hnext => hnext hcut
  | one htest => exact fun hcut hnext => hcut.run_one htail htest hnext
  | seq _ _ ihp ihq => exact fun hcut hnext => ihp hcut fun hmid => ihq hmid hnext
  | alt _ _ ihp ihq =>
    intro whole alone next next' hcut hnext
    have halt (p q : Pattern) (here : Cursor) (next : Cursor → Option Cursor) :
        run (.alt p q) here next = (run p here next).or (run q here next) := by
      rw [run]
      cases run p here next <;> rfl
    rw [halt, halt]
    exact (ihp hcut hnext).or (ihq hcut hnext)
  | many htest =>
    intro whole alone next next' hcut hnext
    exact Cut.greedy htail htest hnext alone.rest hcut rfl (Nat.le_refl _) (Nat.le_refl _)
  | group index _ ih =>
    intro whole alone next next' hcut hnext
    refine ih hcut fun {w a} hlater => hnext ?_
    exact ⟨hlater.before, hlater.rest, hlater.offset, by rw [hcut.taken hlater, hlater.groups],
      hlater.size⟩
  | wordEdge =>
    intro whole alone next next' hcut hnext
    rw [run, run, hcut.atWordEdge htail]
    split_ifs
    · exact hnext hcut
    · trivial
  | lineStart =>
    intro whole alone next next' hcut hnext
    have hstart := hcut.startsLine
    rw [StartsLine, StartsLine] at hstart
    simp only [run, hstart]
    split_ifs
    · exact hnext hcut
    · trivial

/-! ## Searching line by line -/

theorem OneLine.matchAt_cut {p : Pattern} (hp : OneLine p) {before : Option Char}
    (hbefore : StartsLine before) (line : Text) {tail : Text} (htail : EndsLine tail)
    (offset : Nat) :
    (p.matchAt before offset (line ++ tail)).map (fun found => (found.text, found.groups))
      = (p.matchStart? line).map fun found => (found.text, found.groups) := by
  have hcut : Cut tail offset line.length { before, rest := line ++ tail, offset, groups := [] }
      { before := none, rest := line, offset := 0, groups := [] } :=
    ⟨.inr ⟨hbefore, .inl rfl⟩, rfl, (Nat.zero_add offset).symm, rfl, Nat.zero_add _⟩
  have hrun : CutResult tail offset line.length
      (p.run { before, rest := line ++ tail, offset, groups := [] } some)
      (p.run { before := none, rest := line, offset := 0, groups := [] } some) :=
    hp.run_cut htail hcut fun h => h
  rw [matchStart?, matchAt, matchAt]
  cases hwhole : p.run { before, rest := line ++ tail, offset, groups := [] } some with
  | none =>
    cases halone : p.run { before := none, rest := line, offset := 0, groups := [] } some with
    | none => rfl
    | some a => simp [hwhole, halone, CutResult] at hrun
  | some w =>
    cases halone : p.run { before := none, rest := line, offset := 0, groups := [] } some with
    | none => simp [hwhole, halone, CutResult] at hrun
    | some a =>
      rw [hwhole, halone] at hrun
      have htaken := hcut.taken hrun
      simp only [Option.map_some, htaken, hrun.groups]

/-- What a pattern remembers of a line, if it takes up some of it. -/
def lineGroups (p : Pattern) (line : Text) : Option (List (Nat × Text)) :=
  ((p.matchStart? line).filter (! ·.text.isEmpty)).map (·.groups)

theorem lineGroups_nil (p : Pattern) : p.lineGroups [] = none := by
  rw [lineGroups, matchStart?, matchAt]
  cases p.run { before := none, rest := [], offset := 0, groups := [] } some <;> simp

/-- A pattern that matches at the start of a line only. -/
def LineLed (p : Pattern) : Prop :=
  ∀ {before : Option Char}, ¬StartsLine before → ∀ offset text, p.matchAt before offset text = none

theorem lineLed_seq (p : Pattern) : LineLed (seq lineStart p) := by
  intro before hbefore offset text
  rw [StartsLine] at hbefore
  rw [matchAt, run, run, if_neg hbefore]
  rfl

theorem OneLine.matchSome_cut {p : Pattern} (hp : OneLine p) {before : Option Char}
    (hbefore : StartsLine before) (line : Text) {tail : Text} (htail : EndsLine tail)
    (offset : Nat) :
    (p.matchSome before offset (line ++ tail)).map (·.groups) = p.lineGroups line
      ∧ ∀ found ∈ p.matchSome before offset (line ++ tail),
        0 < found.text.length ∧ found.text.length ≤ line.length := by
  have hmatch := hp.matchAt_cut hbefore line htail offset
  rw [matchSome, lineGroups]
  cases hwhole : p.matchAt before offset (line ++ tail) with
  | none =>
    have halone : p.matchStart? line = none := by simpa [hwhole] using hmatch.symm
    rw [halone]
    exact ⟨rfl, by simp⟩
  | some w =>
    obtain ⟨a, halone, hsame⟩ : ∃ a, p.matchStart? line = some a
        ∧ (a.text, a.groups) = (w.text, w.groups) := by
      simpa [hwhole] using hmatch.symm
    obtain ⟨htext, hgroups⟩ := Prod.mk.inj hsame
    have hlength : a.text.length ≤ line.length := by
      rw [matchStart?, matchAt] at halone
      obtain ⟨there, -, rfl⟩ := Option.map_eq_some_iff.1 halone
      exact List.length_take_le' ..
    rw [halone, Option.filter_some, Option.filter_some, htext]
    rw [htext] at hlength
    split_ifs with hsome
    · refine ⟨by rw [Option.map_some, Option.map_some, hgroups], ?_⟩
      rintro found ⟨⟩
      exact ⟨List.length_pos_iff.2 (by simpa using hsome), hlength⟩
    · exact ⟨rfl, by simp⟩

theorem findAllFrom_lines {p : Pattern} (hp : OneLine p) (hled : LineLed p) (text : Text) :
    (∀ {before : Option Char} (offset : Nat), StartsLine before →
        (p.findAllFrom 0 before offset text).map (·.groups)
          = (Text.lines text).filterMap p.lineGroups)
      ∧ ∀ {skip : Nat} {c : Char} {line : Text} {more : List Text} (offset : Nat), c ≠ '\n' →
        Text.lines text = line :: more → skip ≤ line.length →
        (p.findAllFrom skip (some c) offset text).map (·.groups)
          = more.filterMap p.lineGroups := by
  -- the second half is about a place inside a line, of which a match may have taken the next part
  induction text with
  | nil =>
    have hnil : Text.lines [] = [[]] := rfl
    refine ⟨fun offset _ => ?_, fun {skip c line more} offset _ hlines _ => ?_⟩
    · simp [findAllFrom, hnil, lineGroups_nil]
    · obtain ⟨rfl, rfl⟩ := List.cons.inj (hnil.symm.trans hlines)
      simp [findAllFrom]
  | cons c rest ih =>
    obtain ⟨hstart, hmid⟩ := ih
    obtain ⟨first, more, hrest⟩ := List.exists_cons_of_ne_nil (Text.lines_ne_nil rest)
    -- after a character that starts no match, the search goes on in the same line or in the next
    have hgo {line : Text} {later : List Text} (offset : Nat)
        (hlines : Text.lines (c :: rest) = line :: later) :
        (p.findAllFrom 0 (some c) offset rest).map (·.groups) = later.filterMap p.lineGroups := by
      by_cases hc : c = '\n'
      · rw [hc, Text.lines_cons_newline] at hlines
        obtain ⟨-, rfl⟩ := List.cons.inj hlines
        exact hstart offset (.inr (by rw [hc]))
      · rw [Text.lines_cons hc hrest] at hlines
        obtain ⟨-, rfl⟩ := List.cons.inj hlines
        exact hmid offset hc hrest (Nat.zero_le _)
    refine ⟨fun {before} offset hbefore => ?_, fun {skip b line later} offset hb hlines hskip => ?_⟩
    · obtain ⟨line, later, hlines⟩ := List.exists_cons_of_ne_nil (Text.lines_ne_nil (c :: rest))
      have htext := Text.lines_eq_cons hlines
      have htail : EndsLine (if later = [] then [] else '\n' :: Text.unlines later) := by
        split_ifs
        · exact .inl rfl
        · exact .inr ⟨_, rfl⟩
      obtain ⟨hgroups, hlength⟩ := hp.matchSome_cut hbefore line htail offset
      rw [← htext] at hgroups hlength
      rw [findAllFrom, hlines, List.filterMap_cons, ← hgroups]
      cases hfound : p.matchSome before offset (c :: rest) with
      | none => exact hgo (offset + 1) hlines
      | some found =>
        obtain ⟨hpos, hle⟩ := hlength found hfound
        obtain ⟨hc, first, rfl, hfirst⟩ := Text.lines_cons_inv hlines (by omega)
        rw [List.length_cons] at hle
        rw [List.map_cons, hmid (offset + 1) hc hfirst (by omega)]
        rfl
    · cases skip with
      | zero =>
        have hmiddle : ¬StartsLine (some b) := by simp [StartsLine, hb]
        rw [findAllFrom, matchSome, hled hmiddle]
        exact hgo (offset + 1) hlines
      | succ skip =>
        obtain ⟨hc, first, rfl, hfirst⟩ := Text.lines_cons_inv hlines (by omega)
        rw [List.length_cons] at hskip
        rw [findAllFrom, hmid (offset + 1) hc hfirst (by omega)]

theorem findAll_lines {p : Pattern} (hp : OneLine p) (hled : LineLed p) (text : Text) :
    (p.findAll text).map (·.groups) = (Text.lines text).filterMap p.lineGroups :=
  (findAllFrom_lines hp hled text).1 0 (.inl rfl)

end SourceLens.Pattern
