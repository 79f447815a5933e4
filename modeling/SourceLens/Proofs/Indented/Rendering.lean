import Mathlib.Data.List.Forall2
import SourceLens.Proofs.Indented.Spacing

/-!
# Rendered lines

Rendering moves every physical line to another column and replaces its tabs, so a rendered line is
read like its source (`shifted_readAlike`, `moved_readAlike`). Along a whole text, a reader of the
rendered lines follows the scan of the source: it completes a statement on the same lines, with the
same code up to the width of blanks, at the column that the depth of the statement asks for
(`run_rendered`).
-/

namespace SourceLens.Indented

open Text (Widens)

/-! ## Columns -/

theorem expandTabsFrom_of_not_mem {text : Text} (h : '\t' ∉ text) (column : Nat) :
    Text.expandTabsFrom column text = text := by
  induction text generalizing column with
  | nil => rfl
  | cons c text ih =>
    obtain ⟨hc, hrest⟩ := not_or.1 (mt List.mem_cons.2 h)
    rw [Text.expandTabsFrom, if_neg (Ne.symm hc), ih hrest, ih hrest, ite_self]

theorem indentation_expandTabs (text : Text) :
    Text.indentation (Text.expandTabs text) = Text.indentation text := by
  have hnone : '\t' ∉ Text.expandTabs text := Text.tab_not_mem_expandTabsFrom 0 text
  rw [Text.indentation, Text.expandTabs, expandTabsFrom_of_not_mem hnone, Text.indentation]

theorem indentation_spaces_append {n : Nat} {text rest : Text} {c : Char} (htext : text = c :: rest)
    (hc : isBlank c = false) : Text.indentation (Text.spaces n ++ text) = n := by
  have hexpand (column : Nat) : Text.expandTabsFrom column (Text.spaces n ++ text)
      = Text.spaces n ++ Text.expandTabsFrom (column + n) text := by
    induction n generalizing column with
    | zero => rfl
    | succ n ih =>
      rw [Text.spaces, List.replicate_succ, List.cons_append, Text.expandTabsFrom, ← Text.spaces]
      simp [ih, Nat.add_right_comm, Nat.add_assoc]
  have htab : c ≠ '\t' := (Text.ne_of_isBlank Text.isBlank_tab hc).symm
  have hspace : c ≠ ' ' := (Text.ne_of_isBlank Text.isBlank_space hc).symm
  have hhead : ((Text.expandTabsFrom (0 + n) text).takeWhile (· = ' ')) = [] := by
    rw [htext, Text.expandTabsFrom, if_neg htab]
    split_ifs <;> simp [hspace]
  rw [Text.indentation, Text.expandTabs, hexpand,
    List.takeWhile_append_of_pos (by simp [Text.spaces]), hhead]
  simp [Text.spaces]

/-! ## One line -/

theorem trimStart_trim (text : Text) : Text.trimStart (Text.trim text) = Text.trim text := by
  cases h : Text.trim text with
  | nil => rfl
  | cons c rest => exact Text.trimStart_of_head rfl (Text.isBlank_head_trim h)

/-- What is left of a line of a statement once its tabs, the blanks in front and, outside a literal,
the blanks at its end are gone. -/
def PhysicalLine.body (line : PhysicalLine) : Text :=
  if line.endsInLiteral then Text.trimStart (Text.expandTabs line.text)
  else Text.trim (Text.expandTabs line.text)

theorem shifted_eq {line : PhysicalLine} (hstart : line.startsInLiteral = false)
    (width : Nat) (entry : LogicalLine) (level : Nat) :
    shifted width entry level line
      = if line.body.isEmpty then []
        else Text.spaces (Text.indentation line.text + (level * width : Nat) - entry.indent
          : Int).toNat ++ line.body := by
  rw [← indentation_expandTabs]
  simp [shifted, hstart, PhysicalLine.body]

theorem body_eq_nil {line : PhysicalLine} : line.body = [] ↔ Text.allBlank line.text = true := by
  rw [(Widens.expandTabs line.text).allBlank_eq, PhysicalLine.body]
  split_ifs
  · exact Text.trimStart_eq_nil
  · exact Text.trim_eq_nil

theorem isBlank_head_body {line : PhysicalLine} {c : Char} {rest : Text}
    (h : line.body = c :: rest) : isBlank c = false := by
  rw [PhysicalLine.body] at h
  split_ifs at h
  · exact Text.isBlank_head_trimStart h
  · exact Text.isBlank_head_trim h

theorem trimStart_body (line : PhysicalLine) : Text.trimStart line.body = line.body := by
  cases h : line.body with
  | nil => rfl
  | cons c rest => exact Text.trimStart_of_head rfl (isBlank_head_body h)

theorem body_readAlike {line : PhysicalLine}
    (hend : line.endsInLiteral = (openQuote (lex .code line.text).2).isSome)
    (hwell : endsWell line.text (lex .code line.text).2 = true) :
    ReadAlike .code line.text line.body := by
  have hstart : ReadAlike .code line.text (Text.trimStart (Text.expandTabs line.text)) := by
    simpa [Text.spaces] using (ReadAlike.widens (Widens.expandTabs line.text) hwell).indent 0
  rw [PhysicalLine.body]
  split_ifs with hopen
  · exact hstart
  · exact hstart.trimEnd (by simpa [hend] using hopen)

/-- A line of a statement is read like itself when it is moved. -/
theorem shifted_readAlike {width level : Nat} {entry : LogicalLine} (line : PhysicalLine)
    (hstart : line.startsInLiteral = false)
    (hend : line.endsInLiteral = (openQuote (lex .code line.text).2).isSome)
    (hwell : endsWell line.text (lex .code line.text).2 = true) :
    ReadAlike .code line.text (shifted width entry level line) := by
  have hbody := body_readAlike hend hwell
  rw [shifted_eq hstart]
  split_ifs with hempty
  · rwa [List.isEmpty_iff.1 hempty] at hbody
  · simpa only [trimStart_body] using hbody.indent _

/-- So is a line that belongs to no statement. -/
theorem moved_readAlike {text : Text} (hwell : endsWell text (lex .code text).2 = true)
    (hquote : openQuote (lex .code text).2 = none) (column : Nat) :
    ReadAlike .code text
      (if (Text.trim text).isEmpty then [] else Text.spaces column ++ Text.trim text) := by
  have htrim : ReadAlike .code text (Text.trim text) := by
    simpa [Text.spaces, Text.trim] using ((ReadAlike.refl hwell).indent 0).trimEnd hquote
  split_ifs with hempty
  · rwa [List.isEmpty_iff.1 hempty] at htrim
  · simpa [trimStart_trim] using htrim.indent column

theorem indentation_shifted {width level : Nat} {entry : LogicalLine} {line : PhysicalLine}
    (hstart : line.startsInLiteral = false) (hindent : entry.indent = Text.indentation line.text)
    (hblank : Text.allBlank line.text = false) :
    Text.indentation (shifted width entry level line) = level * width := by
  have hbody : line.body ≠ [] := fun hnil => by simp [body_eq_nil.1 hnil] at hblank
  obtain ⟨c, rest, hhead⟩ := List.exists_cons_of_ne_nil hbody
  rw [shifted_eq hstart, if_neg (by simpa using hbody),
    indentation_spaces_append hhead (isBlank_head_body hhead), hindent]
  omega

/-! ## Where logical lines stand -/

theorem underway_cases {pending : Pending} {i : Nat} {text : Text} {c : LogicalLine}
    (h : pending.underway i text = some c) :
    c.stop = i
      ∧ ((pending.current = none ∧ c.line = i ∧ c.indent = Text.indentation text
          ∧ (joinable (pending.reader.codeIn text)).1 ≠ [])
        ∨ ∃ d, pending.current = some d ∧ c.line = d.line ∧ c.indent = d.indent) := by
  rw [Pending.underway] at h
  cases hcurrent : pending.current with
  | none =>
    rw [hcurrent, extend] at h
    split_ifs at h with hempty
    obtain rfl := Option.some.inj h
    exact ⟨rfl, .inl ⟨rfl, rfl, rfl, by simpa using hempty⟩⟩
  | some d =>
    rw [hcurrent, extend] at h
    obtain rfl := Option.some.inj h
    exact ⟨rfl, .inr ⟨d, rfl, rfl, rfl⟩⟩

theorem le_line_of_mem_scanFrom {k : Nat} (texts : List Text) :
    ∀ (pending : Pending) {i : Nat}, k ≤ i → (∀ c ∈ pending.current, k ≤ c.line) →
      ∀ e ∈ (scanFrom pending i texts).logical, k ≤ e.line := by
  induction texts with
  | nil =>
    intro pending i _ hcurrent e he
    exact hcurrent e (by simpa [scanFrom, Pending.finish] using he)
  | cons text rest ih =>
    intro pending i hk hcurrent e he
    have hunderway : ∀ c ∈ pending.underway i text, k ≤ c.line := by
      intro c hc
      obtain ⟨-, ⟨-, hline, -⟩ | ⟨d, hd, hline, -⟩⟩ := underway_cases hc
      · omega
      · exact hline ▸ hcurrent d hd
    obtain ⟨hnext, hfound⟩ := feed_logical pending i text
    rw [scanFrom_cons] at he
    rcases List.mem_append.1 he with he | he
    · rw [hfound] at he
      split_ifs at he
      · exact hunderway e (by simpa using he)
      · simp at he
    · refine ih _ (Nat.le_succ_of_le hk) (fun c hc => hunderway c ?_) e he
      rw [hnext] at hc
      split_ifs at hc
      · simp at hc
      · exact hc

theorem scanFrom_head (texts : List Text) :
    ∀ {pending : Pending} {i : Nat} {c : LogicalLine}, pending.current = some c → c.stop ≤ i →
      ∃ e more, (scanFrom pending i texts).logical = e :: more ∧ e.line = c.line
        ∧ e.indent = c.indent ∧ c.stop ≤ e.stop := by
  induction texts with
  | nil =>
    intro pending i c hcurrent _
    exact ⟨c, [], by simp [scanFrom, Pending.finish, hcurrent], rfl, rfl, le_rfl⟩
  | cons text rest ih =>
    intro pending i c hcurrent hstop
    obtain ⟨d, hd⟩ : ∃ d, pending.underway i text = some d :=
      ⟨_, by rw [Pending.underway, hcurrent]; rfl⟩
    obtain ⟨hi, ⟨hnone, -⟩ | ⟨c', hc', hline, hindent⟩⟩ := underway_cases hd
    · rw [hcurrent] at hnone
      simp at hnone
    obtain rfl : c = c' := Option.some.inj (hcurrent.symm.trans hc')
    obtain ⟨hnext, hfound⟩ := feed_logical pending i text
    rw [scanFrom_cons, Scan.append, hfound]
    rw [hd] at hnext ⊢
    split_ifs at hnext ⊢ with hcomplete
    · exact ⟨d, _, rfl, hline, hindent, by omega⟩
    · obtain ⟨e, more, hlogical, heline, heindent, hestop⟩ := ih (i := i + 1) hnext (by omega)
      exact ⟨e, more, hlogical, heline.trans hline, heindent.trans hindent, by omega⟩

theorem scanFrom_head_of_underway {pending : Pending} {i : Nat} {text : Text} (rest : List Text)
    {c : LogicalLine} (h : pending.underway i text = some c) :
    ∃ e more, (scanFrom pending i (text :: rest)).logical = e :: more ∧ e.line = c.line
      ∧ e.indent = c.indent ∧ i ≤ e.stop := by
  obtain ⟨hi, -⟩ := underway_cases h
  obtain ⟨hnext, hfound⟩ := feed_logical pending i text
  rw [scanFrom_cons, Scan.append, hfound]
  rw [h] at hnext ⊢
  split_ifs at hnext ⊢ with hcomplete
  · exact ⟨c, _, rfl, rfl, rfl, by omega⟩
  · obtain ⟨e, more, hlogical, hline, hindent, hstop⟩ := scanFrom_head rest hnext (i := i + 1) (by omega)
    exact ⟨e, more, hlogical, hline, hindent, by omega⟩

theorem covering_append {done suffix : List Placed} {i : Nat} (h : ∀ p ∈ done, p.1.stop < i) :
    covering (done ++ suffix) i = covering suffix i := by
  have hnone : done.find? (fun p => p.1.line ≤ i && i ≤ p.1.stop) = none := by
    rw [List.find?_eq_none]
    intro p hp
    have := h p hp
    simp
    omega
  exact (List.find?_append ..).trans (by rw [hnone]; rfl)

theorem stops_above {done complete : List Placed} {i : Nat} (hdone : ∀ p ∈ done, p.1.stop < i)
    (hstops : ∀ p ∈ complete, p.1.stop = i) : ∀ p ∈ done ++ complete, p.1.stop < i + 1 := by
  intro p hp
  rcases List.mem_append.1 hp with hp | hp
  · exact Nat.lt_succ_of_lt (hdone p hp)
  · exact Nat.lt_succ_of_le (hstops p hp).le

theorem covering_head {e : LogicalLine} {level i : Nat} (more : List Placed) (hline : e.line ≤ i)
    (hstop : i ≤ e.stop) : covering ((e, level) :: more) i = some (e, level) := by
  simp [covering, hline, hstop]

theorem covering_none {suffix : List Placed} {i : Nat} (h : ∀ p ∈ suffix, i < p.1.line) :
    covering suffix i = none := by
  rw [covering, List.find?_eq_none]
  intro p hp
  have := h p hp
  simp
  omega

/-! ## What is under way between two lines -/

theorem mem_joinable {c : Char} {code : Text} (hmem : c ∈ code) (hblank : isBlank c = false)
    (hslash : c ≠ '\\') : c ∈ (joinable code).1 := by
  have htrim : c ∈ Text.trim code := by
    have hfilter : c ∈ (Text.trim code).filter fun c => !isBlank c := by
      rw [filter_trim]
      exact List.mem_filter.2 ⟨hmem, by simp [hblank]⟩
    exact (List.mem_filter.1 hfilter).1
  rw [joinable]
  split_ifs with hjoin
  · obtain ⟨front, hfront⟩ := List.getLast?_eq_some_iff.1 hjoin
    rw [hfront] at htrim ⊢
    rw [List.dropLast_concat]
    obtain ⟨v, hv, htext⟩ := Text.trimEnd_spec front
    have hmem : c ∈ Text.trimEnd front ++ v := by
      rw [← htext]
      simpa [hslash] using htrim
    rcases List.mem_append.1 hmem with hmem | hmem
    · exact hmem
    · simp [Text.allBlank_iff.1 hv c hmem] at hblank
  · exact htrim

theorem joinable_ne_nil_of_opening {mark : Mark} {marks : List Mark} (hmark : mark ∈ marks)
    (hrole : mark.role = .opening) : (joinable (codeOf marks)).1 ≠ [] := by
  have hmem : '"' ∈ codeOf marks :=
    List.mem_flatMap.2 ⟨mark, hmark, by simp [Mark.code, hrole]⟩
  exact List.ne_nil_of_mem (mem_joinable hmem (by decide) (by decide))

theorem joinable_ne_nil_of_openQuote {text : Text} {q : Char}
    (h : openQuote (lex .code text).2 = some q) : (joinable (codeOf (lex .code text).1)).1 ≠ [] := by
  have hopening : ∃ mark ∈ (lex .code text).1, mark.role = .opening := by
    by_contra hnone
    simp only [not_exists, not_and] at hnone
    have hquote := quote?_lex hnone
    cases hmode : (lex .code text).2 <;> simp_all [openQuote, Mode.quote?]
  obtain ⟨mark, hmark, hrole⟩ := hopening
  exact joinable_ne_nil_of_opening hmark hrole

/-- Before line `i`, a literal is open only inside a logical line, which started further up. -/
structure Pending.Sound (pending : Pending) (i : Nat) : Prop where
  literal : pending.reader.literal.isSome = true → pending.current.isSome = true
  line : ∀ c ∈ pending.current, c.line < i

theorem sound_start : ({} : Pending).Sound 0 := ⟨by simp [Pending.reader], by simp⟩

theorem Pending.Sound.feed {pending : Pending} {i : Nat} (h : pending.Sound i) (text : Text) :
    (pending.feed i text).1.Sound (i + 1) := by
  obtain ⟨hcurrent, -⟩ := feed_logical pending i text
  obtain ⟨hreader, -⟩ := feed_reader pending i text
  constructor
  · rw [hreader, hcurrent, Reader.feed_eq]
    intro hopen
    have hcomplete : pending.reader.completes text = false := by
      simp only at hopen
      rw [Reader.completes, Option.isNone_eq_false_iff.2 hopen]
      simp
    rw [hcomplete]
    cases hd : pending.current with
    | some d => simp [Pending.underway, hd, extend]
    | none =>
      have hcode : pending.reader.literal = none := by
        simpa [hd] using h.literal
      obtain ⟨q, hq⟩ := Option.isSome_iff_exists.1 hopen
      have hpiece : (joinable (pending.reader.codeIn text)).1 ≠ [] := by
        rw [Reader.lastMode, hcode] at hq
        rw [Reader.codeIn, hcode]
        exact joinable_ne_nil_of_openQuote hq
      simp [Pending.underway, hd, extend, hpiece]
  · intro c hc
    rw [hcurrent] at hc
    split_ifs at hc
    · simp at hc
    · obtain ⟨-, ⟨-, hline, -⟩ | ⟨d, hd, hline, -⟩⟩ := underway_cases hc
      · omega
      · have := h.line d hd
        omega

/-! ## Following a scan -/

/-- A statement of the output: at the column of its depth, with the same code up to the width of
blanks. -/
def Restated (width : Nat) (placed : Placed) (statement : Statement) : Prop :=
  statement.indent = placed.2 * width ∧ Widens placed.1.code statement.code

/-- The statement under way restates the logical line under way, whose depth is that of the first
of the lines to come. -/
def CurrentFollows (width : Nat) (suffix : List Placed) :
    Option LogicalLine → Option Statement → Prop
  | none, none => True
  | some c, some s => ∃ e level more, suffix = (e, level) :: more ∧ s.indent = level * width
      ∧ Widens c.code s.code
  | _, _ => False

/-- A reader has open what the scan has open, up to the width of blanks. -/
structure Follows (width : Nat) (suffix : List Placed) (pending : Pending) (reader : Reader) :
    Prop where
  literal : reader.literal = pending.reader.literal
  brackets : reader.brackets = pending.reader.brackets
  current : CurrentFollows width suffix pending.current reader.current

/-- What is under way on lines that are read alike follows too, if the first line of a statement
stands at the column of its depth. -/
theorem underway_follows {width : Nat} {suffix : List Placed} {pending : Pending} {reader : Reader}
    (hcurrent : CurrentFollows width suffix pending.current reader.current) {i : Nat} {a b : Text}
    (hpiece : Widens (joinable (pending.reader.codeIn a)).1 (joinable (reader.codeIn b)).1)
    (hfirst : pending.current = none → (joinable (pending.reader.codeIn a)).1 ≠ [] →
      ∃ e level more, suffix = (e, level) :: more ∧ Text.indentation b = level * width) :
    CurrentFollows width suffix (pending.underway i a) (reader.underway b) := by
  rw [Pending.underway, Reader.underway]
  generalize (joinable (pending.reader.codeIn a)).1 = piece at hpiece hfirst ⊢
  generalize (joinable (reader.codeIn b)).1 = piece' at hpiece ⊢
  have hnil := hpiece.eq_nil_iff
  cases hp : pending.current with
  | none =>
    cases hr : reader.current with
    | some s => simp [hp, hr, CurrentFollows] at hcurrent
    | none =>
      by_cases hempty : piece = []
      · simp [extend, extendStatement, hempty, hnil.1 hempty, CurrentFollows]
      · obtain ⟨e, level, more, hsuffix, hcolumn⟩ := hfirst hp hempty
        have hempty' : piece' ≠ [] := mt hnil.2 hempty
        simp only [extend, extendStatement, List.isEmpty_iff, hempty, hempty', if_false]
        exact ⟨e, level, more, hsuffix, hcolumn, hpiece⟩
  | some c =>
    cases hr : reader.current with
    | none => simp [hp, hr, CurrentFollows] at hcurrent
    | some s =>
      rw [hp, hr] at hcurrent
      obtain ⟨e, level, more, hsuffix, hcolumn, hcode⟩ := hcurrent
      refine ⟨e, level, more, hsuffix, hcolumn, ?_⟩
      by_cases hempty : piece = []
      · simpa [hempty, hnil.1 hempty] using hcode
      · have hempty' : piece' ≠ [] := mt hnil.2 hempty
        simpa [hempty, hempty'] using hcode.append (hpiece.keep ' ')

/-! ## All lines -/

/-- How line `i`, which belongs to `owner`, is rendered: a line outside statements may stand at any
column. -/
def RendersLine (width : Nat) (owner : Option Placed) (i : Nat) (line : PhysicalLine)
    (rendered : Rendered) : Prop :=
  rendered.source = line ∧
    match owner with
    | some (entry, level) =>
      rendered.text = shifted width entry level line
        ∧ rendered.starts = if entry.line = i then some entry else none
    | none =>
      rendered.starts = none ∧ ∃ column, rendered.text
        = if (Text.trim line.text).isEmpty then [] else Text.spaces column ++ Text.trim line.text

/-- How lines are rendered, the first of which has number `i`. -/
def Renders (width : Nat) (placed : List Placed) : Nat → List PhysicalLine → List Rendered → Prop
  | _, [], lines => lines = []
  | i, line :: rest, lines =>
    ∃ first more, lines = first :: more ∧ RendersLine width (covering placed i) i line first
      ∧ Renders width placed (i + 1) rest more

theorem renders_renderLines (width : Nat) (placed : List Placed) (lines : List PhysicalLine) :
    ∀ i, Renders width placed i lines (renderLines width placed i lines).1 := by
  induction lines with
  | nil => exact fun _ => rfl
  | cons line rest ih =>
    intro i
    rw [renderLines]
    cases hcover : covering placed i with
    | none =>
      refine ⟨_, _, rfl, ?_, ih (i + 1)⟩
      rw [hcover]
      exact ⟨rfl, rfl, _, rfl⟩
    | some owner =>
      obtain ⟨entry, level⟩ := owner
      by_cases hline : entry.line = i
      · simp only [if_pos hline]
        refine ⟨_, _, rfl, ?_, ih (i + 1)⟩
        rw [hcover]
        exact ⟨rfl, rfl, (if_pos hline).symm⟩
      · simp only [if_neg hline]
        refine ⟨_, _, rfl, ?_, ih (i + 1)⟩
        rw [hcover]
        exact ⟨rfl, rfl, (if_neg hline).symm⟩

theorem underway_eq_none {pending : Pending} {i : Nat} {text : Text} :
    pending.underway i text = none
      ↔ pending.current = none ∧ (joinable (pending.reader.codeIn text)).1 = [] := by
  rw [Pending.underway]
  cases pending.current <;> simp [extend]

theorem covering_of_underway_none {suffix : List Placed} {pending : Pending} {i : Nat} {text : Text}
    {rest : List Text} (hsuffix : suffix.map (·.1) = (scanFrom pending i (text :: rest)).logical)
    (h : pending.underway i text = none) : covering suffix i = none := by
  obtain ⟨hnext, hfound⟩ := feed_logical pending i text
  rw [h, ite_self] at hnext
  rw [h] at hfound
  apply covering_none
  intro p hp
  have hmem : p.1 ∈ (scanFrom pending i (text :: rest)).logical := by
    rw [← hsuffix]
    exact List.mem_map_of_mem hp
  rw [scanFrom_cons, Scan.append, hfound] at hmem
  exact le_line_of_mem_scanFrom rest (pending.feed i text).1 le_rfl (by simp [hnext])
    p.1 (by simpa using hmem)

theorem covering_of_underway_some {suffix : List Placed} {pending : Pending} {i : Nat} {text : Text}
    {rest : List Text} (hsuffix : suffix.map (·.1) = (scanFrom pending i (text :: rest)).logical)
    (hsound : pending.Sound i) {c : LogicalLine} (h : pending.underway i text = some c) :
    ∃ e level more, suffix = (e, level) :: more ∧ e.line = c.line ∧ e.indent = c.indent
      ∧ covering suffix i = some (e, level) := by
  obtain ⟨e, later, hlogical, hline, hindent, hstop⟩ := scanFrom_head_of_underway rest h
  rw [hlogical] at hsuffix
  obtain ⟨⟨e', level⟩, more, rfl, rfl, -⟩ := List.map_eq_cons_iff.1 hsuffix
  simp only at hline hindent hstop
  have hle : e'.line ≤ i := by
    obtain ⟨-, ⟨-, hc, -⟩ | ⟨d, hd, hc, -⟩⟩ := underway_cases h
    · omega
    · have := hsound.line d hd
      omega
  exact ⟨e', level, more, rfl, hline, hindent, covering_head more hle hstop⟩

theorem joinable_of_blank {reader : Reader} (hliteral : reader.literal = none) {text : Text}
    (hblank : Text.allBlank text = true) : (joinable (reader.codeIn text)).1 = [] := by
  rw [Reader.codeIn, hliteral, startMode, (lex_code_blank hblank).1, joinable_blank hblank]

/-- What one rendered line has to do with its source, where the scan stands before that line. -/
structure LineFollows (width : Nat) (suffix : List Placed) (pending : Pending) (text : Text)
    (rendered : Rendered) : Prop where
  alike : ReadAlike (startMode pending.reader.literal) text rendered.text
  first : pending.current = none → (joinable (pending.reader.codeIn text)).1 ≠ [] →
    ∃ e level more, suffix = (e, level) :: more ∧ Text.indentation rendered.text = level * width
  literal : rendered.source.startsInLiteral = pending.reader.literal.isSome
  starts : rendered.startsTopLevel = true → pending.current = none

theorem RendersLine.moved_or_shifted {width : Nat} {done suffix : List Placed} {pending : Pending}
    {i : Nat} {text : Text} {rest : List Text} {line : PhysicalLine} {rendered : Rendered}
    (hsuffix : suffix.map (·.1) = (scanFrom pending i (text :: rest)).logical)
    (hdone : ∀ p ∈ done, p.1.stop < i) (hsound : pending.Sound i)
    (h : RendersLine width (covering (done ++ suffix) i) i line rendered) :
    (pending.underway i text = none ∧ pending.reader.literal = none
        ∧ ∃ column, rendered.text
          = if (Text.trim line.text).isEmpty then [] else Text.spaces column ++ Text.trim line.text)
      ∨ ∃ c e level more, pending.underway i text = some c ∧ suffix = (e, level) :: more
        ∧ e.line = c.line ∧ e.indent = c.indent ∧ rendered.text = shifted width e level line
        ∧ rendered.starts = if e.line = i then some e else none := by
  rw [covering_append hdone] at h
  obtain ⟨-, h⟩ := h
  cases hunderway : pending.underway i text with
  | none =>
    obtain ⟨hcurrent, -⟩ := underway_eq_none.1 hunderway
    rw [covering_of_underway_none hsuffix hunderway] at h
    exact .inl ⟨rfl, by simpa [hcurrent] using hsound.literal, h.2⟩
  | some c =>
    obtain ⟨e, level, more, hhead, hline, hindent, hcover⟩ :=
      covering_of_underway_some hsuffix hsound hunderway
    rw [hcover] at h
    exact .inr ⟨c, e, level, more, rfl, hhead, hline, hindent, h⟩

theorem RendersLine.follows {width : Nat} {done suffix : List Placed} {pending : Pending} {i : Nat}
    {text : Text} {rest : List Text} {rendered : Rendered}
    (hsuffix : suffix.map (·.1) = (scanFrom pending i (text :: rest)).logical)
    (hdone : ∀ p ∈ done, p.1.stop < i) (hsound : pending.Sound i)
    (hfine : (pending.reader.feed text).2.2 = true)
    (h : RendersLine width (covering (done ++ suffix) i) i
      { text
        startsInLiteral := pending.reader.literal.isSome
        endsInLiteral := (openQuote (pending.reader.lastMode text)).isSome } rendered) :
    LineFollows width suffix pending text rendered := by
  have hwell : endsWell text (pending.reader.lastMode text) = true := by
    rw [Reader.feed_eq, Bool.and_eq_true] at hfine
    exact hfine.2
  have hliteral : rendered.source.startsInLiteral = pending.reader.literal.isSome := by rw [h.1]
  rcases h.moved_or_shifted hsuffix hdone hsound with
    ⟨hunderway, hcode, column, htext⟩
      | ⟨c, e, level, more, hunderway, rfl, hline, hindent, htext, hstarts⟩
  · obtain ⟨hcurrent, hpiece⟩ := underway_eq_none.1 hunderway
    rw [Reader.lastMode, hcode] at hwell
    refine ⟨?_, fun _ hne => absurd hpiece hne, hliteral, fun _ => hcurrent⟩
    have hquote : openQuote (lex .code text).2 = none := by
      rw [Reader.codeIn, hcode] at hpiece
      by_contra hopen
      obtain ⟨q, hq⟩ := Option.ne_none_iff_exists'.1 hopen
      exact joinable_ne_nil_of_openQuote hq hpiece
    rw [hcode, htext]
    exact moved_readAlike hwell hquote column
  · refine ⟨?_, ?_, hliteral, ?_⟩
    · by_cases hcode : pending.reader.literal = none
      · rw [Reader.lastMode, hcode] at hwell
        rw [htext, Reader.lastMode, hcode]
        exact shifted_readAlike ⟨text, _, _⟩ rfl rfl hwell
      · have hraw : rendered.text = text := by
          rw [htext, shifted, if_pos (Option.isSome_iff_ne_none.2 hcode)]
        rw [hraw]
        exact ReadAlike.refl hwell
    · intro hcurrent hpiece
      have hcode : pending.reader.literal = none := by simpa [hcurrent] using hsound.literal
      obtain ⟨-, ⟨-, -, hcolumn, -⟩ | ⟨d, hd, -⟩⟩ := underway_cases hunderway
      · refine ⟨e, level, more, rfl, ?_⟩
        rw [htext]
        refine indentation_shifted (by simp [hcode]) (hindent.trans hcolumn) ?_
        by_contra hblank
        exact hpiece (joinable_of_blank hcode (by simpa using hblank))
      · simp [hcurrent] at hd
    · intro htop
      by_contra hcurrent
      obtain ⟨-, ⟨hnone, -⟩ | ⟨d, hd, hdline, -⟩⟩ := underway_cases hunderway
      · exact hcurrent hnone
      · have hfurther := hsound.line d hd
        rw [if_neg (by omega)] at hstarts
        simp [Rendered.startsTopLevel, hstarts] at htop

theorem Follows.feed {width : Nat} {suffix : List Placed} {pending : Pending} {reader : Reader}
    (hfollows : Follows width suffix pending reader) {i : Nat} {text : Text} {rest : List Text}
    {rendered : Rendered}
    (hsuffix : suffix.map (·.1) = (scanFrom pending i (text :: rest)).logical)
    (hfine : (pending.reader.feed text).2.2 = true)
    (hline : LineFollows width suffix pending text rendered) :
    ∃ complete later, suffix = complete ++ later
      ∧ later.map (·.1) = (scanFrom (pending.feed i text).1 (i + 1) rest).logical
      ∧ (∀ p ∈ complete, p.1.stop = i)
      ∧ List.Forall₂ (Restated width) complete (reader.feed rendered.text).2.1
      ∧ (reader.feed rendered.text).2.2 = true
      ∧ Follows width later (pending.feed i text).1 (reader.feed rendered.text).1 := by
  obtain ⟨hliteral, hbrackets, hsound, hcompletes, hpiece⟩ :=
    feed_readAlike hfollows.literal hfollows.brackets hline.alike hfine
  have hcurrent := underway_follows (i := i) hfollows.current hpiece hline.first
  obtain ⟨hnext, hfound⟩ := feed_logical pending i text
  obtain ⟨hreader, -⟩ := feed_reader pending i text
  rw [scanFrom_cons, Scan.append, hfound] at hsuffix
  have hopen (later : List Placed)
      (h : CurrentFollows width later (pending.feed i text).1.current
        (reader.feed rendered.text).1.current) :
      Follows width later (pending.feed i text).1 (reader.feed rendered.text).1 :=
    ⟨by rw [hreader, hliteral], by rw [hreader, hbrackets], h⟩
  -- both readers complete the statement under way, or both keep it
  by_cases hcomplete : pending.reader.completes text = true
  · rw [if_pos hcomplete] at hnext hsuffix
    obtain ⟨hidle, hyield⟩ := Reader.feed_of_completes (hcompletes.trans hcomplete)
    cases hp : pending.underway i text with
    | none =>
      rw [hp] at hsuffix hcurrent
      cases hr : reader.underway rendered.text with
      | some s => simp [hr, CurrentFollows] at hcurrent
      | none =>
        refine ⟨[], suffix, rfl, hsuffix, by simp, ?_, hsound, hopen _ ?_⟩
        · rw [hyield, hr]
          exact .nil
        · rw [hnext, hidle]
          trivial
    | some c =>
      rw [hp] at hsuffix hcurrent
      cases hr : reader.underway rendered.text with
      | none => simp [hr, CurrentFollows] at hcurrent
      | some s =>
        rw [hr] at hcurrent
        obtain ⟨e, level, more, rfl, hcolumn, hcode⟩ := hcurrent
        obtain ⟨hec, hmore⟩ := List.cons.inj hsuffix
        simp only at hec
        subst hec
        refine ⟨[(e, level)], more, rfl, hmore, ?_, ?_, hsound, hopen _ ?_⟩
        · simpa using (underway_cases hp).1
        · rw [hyield, hr]
          exact .cons ⟨hcolumn, hcode⟩ .nil
        · rw [hnext, hidle]
          trivial
  · rw [if_neg hcomplete] at hnext hsuffix
    obtain ⟨hunder, hyield⟩ := Reader.feed_of_not_completes (hcompletes ▸ hcomplete)
    refine ⟨[], suffix, rfl, hsuffix, by simp, ?_, hsound, hopen _ ?_⟩
    · rw [hyield]
      exact .nil
    · rw [hnext, hunder]
      exact hcurrent

theorem Follows.finish {width : Nat} {suffix : List Placed} {pending : Pending} {reader : Reader}
    (hfollows : Follows width suffix pending reader)
    (hsuffix : suffix.map (·.1) = pending.finish.logical) (hfine : pending.finish.diagnostics = []) :
    List.Forall₂ (Restated width) suffix reader.finish.1 ∧ reader.finish.2 = true := by
  obtain ⟨hliteral, hbrackets, hcurrent⟩ := hfollows
  have hclosed := (finish_reader pending).2
  rw [hfine] at hclosed
  refine ⟨?_, by rw [Reader.finish, hliteral, hbrackets]; exact hclosed.symm⟩
  rw [Pending.finish] at hsuffix
  rw [Reader.finish]
  cases hp : pending.current with
  | none =>
    cases hr : reader.current with
    | some s => simp [hp, hr, CurrentFollows] at hcurrent
    | none =>
      have hnil : suffix = [] := by simpa [hp] using hsuffix
      rw [hnil]
      exact .nil
  | some c =>
    cases hr : reader.current with
    | none => simp [hp, hr, CurrentFollows] at hcurrent
    | some s =>
      rw [hp, hr] at hcurrent
      obtain ⟨e, level, more, rfl, hcolumn, hcode⟩ := hcurrent
      have hboth : e = c ∧ more = [] := by simpa [hp] using hsuffix
      obtain ⟨rfl, rfl⟩ := hboth
      exact .cons ⟨hcolumn, hcode⟩ .nil

/-- Reading rendered lines restates every logical line, finds no problem, and may be spaced out. -/
theorem run_rendered {width : Nat} (texts : List Text) :
    ∀ {pending : Pending} {i : Nat} {reader : Reader} {done suffix : List Placed}
      {lines : List Rendered},
      suffix.map (·.1) = (scanFrom pending i texts).logical →
      (scanFrom pending i texts).diagnostics = [] →
      (∀ p ∈ done, p.1.stop < i) →
      Renders width (done ++ suffix) i (scanFrom pending i texts).physical lines →
      Follows width suffix pending reader → pending.Sound i →
      List.Forall₂ (Restated width) suffix (reader.run (lines.map (·.text))).1
        ∧ (reader.run (lines.map (·.text))).2 = true ∧ Spaceable reader lines := by
  induction texts with
  | nil =>
    intro pending i reader done suffix lines hsuffix hfine _ hlines hfollows _
    obtain rfl : lines = [] := hlines
    obtain ⟨hrestated, hclosed⟩ := hfollows.finish hsuffix hfine
    exact ⟨hrestated, hclosed, trivial⟩
  | cons text rest ih =>
    intro pending i reader done suffix lines hsuffix hdiagnostics hdone hlines hfollows hsound
    obtain ⟨hfine, hlater⟩ := fine_of_scanFrom_cons hdiagnostics
    rw [scanFrom_cons, Scan.append, feed_physical] at hlines
    obtain ⟨first, more, rfl, hfirst, hmore⟩ := hlines
    have hline := hfirst.follows hsuffix hdone hsound hfine
    obtain ⟨complete, later, rfl, hlogical, hstops, hrestated, hclosed, hnext⟩ :=
      hfollows.feed hsuffix hfine hline
    rw [← List.append_assoc] at hmore
    obtain ⟨hrest, hrestFine, hspace⟩ :=
      ih hlogical hlater (stops_above hdone hstops) hmore hnext (hsound.feed text)
    rw [List.map_cons, Reader.run_cons]
    refine ⟨List.rel_append hrestated hrest, by rw [hclosed, hrestFine]; rfl, ?_, ?_, hspace⟩
    · rw [hline.literal, hfollows.literal]
    · intro htop
      have hcurrent := hfollows.current
      rw [hline.starts htop] at hcurrent
      cases hr : reader.current with
      | none => rfl
      | some s => simp [hr, CurrentFollows] at hcurrent

end SourceLens.Indented
