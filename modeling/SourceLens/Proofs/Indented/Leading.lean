import SourceLens.Proofs.Indented.Completeness

/-!
# Imports that lead

Whether imports come first depends on the codes of the statements alone (`importsValid_eq`): after a
documentation string, the imports that lead do not count (`Led.leads_afterDoc`). Injection puts its
statements behind a statement of the text. Cutting the lines there cuts the statements, unless the
last one is still open and goes on in what is put in (`cut_at_stop`). An import stays one when it
goes on (`isImport_append`), and a documentation string does not go on, because it has no bracket
open and a literal that is open takes in everything (`run_docstring`). So the new statements join
the imports that lead (`joins_injectImports`), and the verdict stays (`importsValid_injectImports`).
-/

namespace SourceLens.Indented

open Pattern Descriptor

/-! ## The verdict by codes -/

/-- Whether imports come first among codes, given whether other code was seen. -/
def leads : Bool → List Text → Bool
  | _, [] => true
  | seenCode, code :: rest =>
    if isImport code then !seenCode && leads seenCode rest else leads true rest

def isDoc (code : Text) : Bool := !isImport code && isDocstring code

/-- The codes after a leading documentation string. -/
def afterDoc : List Text → List Text
  | [] => []
  | code :: rest => if isDoc code then rest else code :: rest

def codesOf (lines : List Text) : List Text := codes (({} : Reader).run lines).1

theorem importsLead_eq (seen : Bool) (logical : List LogicalLine) :
    importsLead seen logical = leads seen (logical.map (·.code)) := by
  induction logical generalizing seen with
  | nil => rfl
  | cons entry rest ih => rw [importsLead, List.map_cons, leads, ih, ih]

theorem map_code_afterDocstring (logical : List LogicalLine) :
    (afterDocstring logical).map (·.code) = afterDoc (logical.map (·.code)) := by
  cases logical with
  | nil => rfl
  | cons entry rest =>
    rw [afterDocstring, List.map_cons, afterDoc, isDoc]
    split_ifs <;> rfl

theorem map_code_scan (text : Text) :
    (scan text).logical.map (·.code) = codesOf (Text.lines text) := by
  have hrun := (scanFrom_run {} 0 (Text.lines text)).1
  show _ = codes (({} : Pending).reader.run (Text.lines text)).1
  rw [← hrun, codes, List.map_map]
  rfl

theorem importsValid_eq (text : Text) :
    importsValid text = leads false (afterDoc (codesOf (Text.lines text))) := by
  rw [importsValid, importsLead_eq, map_code_afterDocstring, map_code_scan]

theorem leads_append {imports : List Text} (h : ∀ code ∈ imports, isImport code = true)
    (rest : List Text) : leads false (imports ++ rest) = leads false rest := by
  induction imports with
  | nil => rfl
  | cons code imports ih =>
    obtain ⟨hcode, himports⟩ := List.forall_mem_cons.1 h
    rw [List.cons_append, leads, if_pos hcode]
    exact ih himports

/-- Codes that start with a documentation string, if they have one, and then with imports. -/
structure Led (doc imports rest : List Text) : Prop where
  doc_cases : doc = [] ∨ ∃ code, isDoc code = true ∧ doc = [code]
  isImport_of_mem : ∀ code ∈ imports, isImport code = true
  rest_of_nil : doc = [] → imports = [] → afterDoc rest = rest

theorem Led.leads_afterDoc {doc imports rest : List Text} (h : Led doc imports rest) :
    leads false (afterDoc (doc ++ imports ++ rest)) = leads false rest := by
  have hafter : afterDoc (doc ++ imports ++ rest) = imports ++ rest := by
    obtain hdoc | ⟨code, hcode, hdoc⟩ := h.doc_cases
    · rw [hdoc, List.nil_append]
      cases himports : imports with
      | nil => exact h.rest_of_nil hdoc himports
      | cons code imports =>
        have hcode := h.isImport_of_mem code (by rw [himports]; exact List.mem_cons_self)
        rw [List.cons_append, afterDoc, if_neg (by simp [isDoc, hcode])]
    · rw [hdoc, List.append_assoc, List.singleton_append, afterDoc, if_pos hcode]
  rw [hafter, leads_append h.isImport_of_mem]

/-! ## Shapes of statements -/

theorem isImport_importLine (name : Text) : isImport (importLine name) = true := by
  rw [isImport, startsAt_iff]
  have hspace : blank.Spans (lastOf none "import".toList) [' '] name := ⟨' ', rfl, by decide⟩
  exact ⟨"import ".toList, name, rfl, .inl ⟨"import".toList, [' '], rfl, spans_lit.2 rfl, hspace⟩⟩

/-- An import that goes on after a space is an import. -/
theorem isImport_append {code : Text} (h : isImport code = true) (more : Text) :
    isImport (code ++ ' ' :: more) = true := by
  rw [isImport, startsAt_iff] at h ⊢
  obtain ⟨x, rest, rfl, hx⟩ := h
  refine ⟨x, rest ++ ' ' :: more, List.append_assoc .., ?_⟩
  rcases hx with ⟨y, z, rfl, hy, hz⟩
    | ⟨y, _, rfl, hy, g, _, rfl, hg, n, _, rfl, hn, g', _, rfl, hg', k, _, rfl, hk, rfl, hedge⟩
  · exact .inl ⟨y, z, rfl, spans_lit.2 (spans_lit.1 hy), hz⟩
  · -- only the word edge looks behind the match, and a space ends a word as the end does
    have hhead : (rest ++ ' ' :: more).head?.any isWord = rest.head?.any isWord := by
      cases rest with
      | nil => exact (by decide : isWord ' ' = false)
      | cons c rest => rfl
    refine .inr ⟨y, _, rfl, spans_lit.2 (spans_lit.1 hy), g, _, rfl,
      spans_many1_one.2 (spans_many1_one.1 hg), n, _, rfl, spans_many1_one.2 (spans_many1_one.1 hn),
      g', _, rfl, spans_many1_one.2 (spans_many1_one.1 hg'), k, [], rfl,
      spans_lit.2 (spans_lit.1 hk), rfl, ?_⟩
    rwa [hhead]

theorem not_isOpener_of_isDocstring {code : Text} (h : isDocstring code = true) :
    ∀ c ∈ code, isOpener c = false := by
  have hall : "rRbBuUfF\"\n".toList.all (fun c => !isOpener c) = true := by decide
  have hchars : ∀ c ∈ "rRbBuUfF\"\n".toList, isOpener c = false := fun c hc => by
    simpa using List.all_eq_true.1 hall c hc
  have hletter {before : Option Char} {x after : Text}
      (hx : (among "rRbBuUfF").Spans before x after) : ∀ c ∈ x, c ∈ "rRbBuUfF\"\n".toList := by
    obtain ⟨c, rfl, hc⟩ := hx
    have hmem : c ∈ "rRbBuUfF".toList := List.contains_iff_mem.1 hc
    rw [List.forall_mem_singleton]
    exact List.mem_append_left "\"\n".toList hmem
  rw [isDocstring, startsAt_iff] at h
  obtain ⟨_, rest, rfl, x, _, rfl, hx, q, _, rfl, hq, rfl, hrest⟩ := h
  intro c hc
  apply hchars c
  simp only [List.mem_append, List.append_nil] at hc
  rcases hc with (hc | hc) | hc
  · rcases hx with ⟨y, z, rfl, hy, hz⟩ | rfl
    · rcases List.mem_append.1 hc with hc | hc
      · exact hletter hy c hc
      · rcases hz with hz | rfl
        · exact hletter hz c hc
        · exact absurd hc List.not_mem_nil
    · exact absurd hc List.not_mem_nil
  · rw [spans_lit.1 hq] at hc
    obtain rfl : c = '"' := by simpa using hc
    decide
  · rcases hrest with rfl | rfl
    · exact absurd hc List.not_mem_nil
    · obtain rfl := List.mem_singleton.1 hc
      decide

/-! ## Cutting behind a statement -/

/-- Lines cut where a logical line stops: the logical lines are cut there as well, and nothing is
open, or the lines end and the last logical line is still under way. -/
theorem cut_at_stop (texts : List Text) :
    ∀ {pending : Pending} {i : Nat} {front back : List LogicalLine} {e : LogicalLine},
      (∀ c ∈ pending.current, c.stop + 1 = i) →
      (scanFrom pending i texts).logical = front ++ e :: back →
      i ≤ e.stop + 1
        ∧ ((pending.reader.feedAll (texts.take (e.stop + 1 - i))).1 = {}
            ∧ (pending.reader.feedAll (texts.take (e.stop + 1 - i))).2.1
              = (front ++ [e]).map (·.statement)
          ∨ texts.length ≤ e.stop + 1 - i ∧ back = []
            ∧ (pending.reader.feedAll (texts.take (e.stop + 1 - i))).1.current = some e.statement
            ∧ (pending.reader.feedAll (texts.take (e.stop + 1 - i))).2.1
              = front.map (·.statement)) := by
  induction texts with
  | nil =>
    intro pending i front back e hcurrent hlogical
    have hlist : pending.current.toList = front ++ e :: back := hlogical
    cases hc : pending.current with
    | none => simp [hc] at hlist
    | some c =>
      rw [hc, Option.toList_some, List.singleton_eq_append_iff] at hlist
      obtain ⟨rfl, he⟩ | ⟨rfl, he⟩ := hlist
      · obtain ⟨rfl, rfl⟩ := List.cons.inj he
        have hstop := hcurrent e (by rw [hc]; rfl)
        refine ⟨by omega, .inr ⟨by simp, rfl, ?_, by simp [Reader.feedAll]⟩⟩
        simp [Reader.feedAll, Pending.reader, hc]
      · exact absurd he (by simp)
  | cons text rest ih =>
    intro pending i front back e hcurrent hlogical
    obtain ⟨hnext, hfound⟩ := feed_logical pending i text
    obtain ⟨hreader, hstatements, -⟩ := feed_reader pending i text
    rw [scanFrom_cons] at hlogical
    have hnow : ∀ c ∈ (pending.feed i text).1.current, c.stop + 1 = i + 1 := by
      intro c hc
      rw [hnext] at hc
      split_ifs at hc
      · exact absurd hc (by simp)
      · exact congrArg (· + 1) (underway_cases hc).1
    -- the line completes `e`, or `e` is among the logical lines of the rest
    have hsplit : (pending.reader.completes text = true ∧ front = [] ∧ e.stop = i
          ∧ (pending.feed i text).2.logical = [e])
        ∨ ∃ front', front = (pending.feed i text).2.logical ++ front'
          ∧ (scanFrom (pending.feed i text).1 (i + 1) rest).logical = front' ++ e :: back := by
      have happend : (pending.feed i text).2.logical
          ++ (scanFrom (pending.feed i text).1 (i + 1) rest).logical = front ++ e :: back :=
        hlogical
      by_cases hcomplete : pending.reader.completes text = true
      · rw [if_pos hcomplete] at hfound
        cases hunder : pending.underway i text with
        | none =>
          rw [hunder] at hfound
          rw [hfound] at happend ⊢
          exact .inr ⟨front, rfl, happend⟩
        | some u =>
          rw [hunder] at hfound
          rw [hfound] at happend ⊢
          cases front with
          | nil =>
            obtain ⟨rfl, -⟩ := List.cons.inj happend
            exact .inl ⟨hcomplete, rfl, (underway_cases hunder).1, rfl⟩
          | cons f front =>
            obtain ⟨rfl, hrest⟩ := List.cons.inj happend
            exact .inr ⟨front, rfl, hrest⟩
      · rw [if_neg hcomplete] at hfound
        rw [hfound] at happend ⊢
        exact .inr ⟨front, rfl, happend⟩
    rcases hsplit with ⟨hcomplete, rfl, hstop, hone⟩ | ⟨front', rfl, hrest⟩
    · have htake : e.stop + 1 - i = 1 := by omega
      rw [hone] at hstatements
      rw [htake, List.take_succ_cons, List.take_zero]
      refine ⟨by omega, .inl ⟨Reader.feed_idle_of_completes hcomplete, ?_⟩⟩
      show (pending.reader.feed text).2.1 ++ [] = _
      rw [List.append_nil, ← hstatements]
      rfl
    · obtain ⟨hle, hcut⟩ := ih hnow hrest
      have hstep : e.stop + 1 - i = e.stop + 1 - (i + 1) + 1 := by omega
      rw [hreader] at hcut
      rw [hstep, List.take_succ_cons, List.length_cons]
      refine ⟨by omega, ?_⟩
      simp only [Reader.feedAll, List.map_append, hstatements] at hcut ⊢
      rcases hcut with ⟨hidle, hyield⟩ | ⟨hlength, hback, hunder, hyield⟩
      · exact .inl ⟨hidle, by rw [hyield, List.append_assoc]⟩
      · exact .inr ⟨by omega, hback, hunder, by rw [hyield]⟩

/-! ## Reading what is put in -/

/-- A line that injection puts in: an import or nothing. -/
def PutIn (line : Text) : Prop := line = [] ∨ ∃ name, Clean name ∧ line = importLine name

theorem PutIn.isPlain {line : Text} (h : PutIn line) : ∀ c ∈ line, isPlain c = true := by
  rcases h with rfl | ⟨name, hname, rfl⟩
  · exact List.forall_mem_nil _
  · exact isPlain_importLine hname.plain

theorem feedAll_putIn {lines : List Text} (h : ∀ line ∈ lines, PutIn line) :
    (({} : Reader).feedAll lines).1 = {}
      ∧ ∀ code ∈ codes (({} : Reader).feedAll lines).2.1, isImport code = true := by
  induction lines with
  | nil => exact ⟨rfl, List.forall_mem_nil _⟩
  | cons line rest ih =>
    obtain ⟨hline, hrest⟩ := List.forall_mem_cons.1 h
    obtain ⟨hlast, hcodes⟩ := ih hrest
    have hfeed := Reader.feed_plain {} rfl rfl hline.isPlain
    rw [Reader.feedAll, hfeed]
    refine ⟨hlast, ?_⟩
    rw [codes_append, List.forall_mem_append]
    refine ⟨?_, hcodes⟩
    rcases hline with rfl | ⟨name, hname, rfl⟩
    · exact List.forall_mem_nil _
    · rw [hname.trim_importLine]
      exact List.forall_mem_singleton.2 (isImport_importLine name)

theorem codesOf_putIn {lines : List Text} (h : ∀ line ∈ lines, PutIn line) :
    ∀ code ∈ codesOf lines, isImport code = true := by
  have hrun := Reader.run_append {} lines []
  rw [List.append_nil] at hrun
  obtain ⟨hlast, hcodes⟩ := feedAll_putIn h
  have hfinish : (({} : Reader).run []).1 = [] := rfl
  rw [codesOf, hrun, hlast, hfinish, List.append_nil]
  exact hcodes

theorem run_putIn {lines : List Text} (h : ∀ line ∈ lines, PutIn line) {reader : Reader}
    {c : Statement} (hc : reader.current = some c) :
    ∃ code later, codes (reader.run lines).1 = code :: later
      ∧ (code = c.code ∨ ∃ more, code = c.code ++ ' ' :: more)
      ∧ ∀ other ∈ later, isImport other = true := by
  obtain ⟨s, rest, hrun, hrest, hcode⟩ := Reader.run_of_current lines hc
  refine ⟨s.code, codesOf rest, ?_, hcode, ?_⟩
  · rw [hrun]
    rfl
  · exact codesOf_putIn fun line hline => h line (hrest.subset hline)

/-! ## What is open is seen -/

/-- A literal is open behind a quote, and every open bracket is seen in the statement under way. -/
structure Reader.Sound (reader : Reader) : Prop where
  quote : ∀ q ∈ reader.literal, isQuote q = true
  shown : ∀ b ∈ reader.brackets, isOpener b = true ∧ ∃ c ∈ reader.current, b ∈ c.code

theorem mem_trackChars {stack : List Char} {code : Text} {b : Char}
    (h : b ∈ (trackChars stack code).1) : b ∈ stack ∨ b ∈ code ∧ isOpener b = true := by
  induction code generalizing stack with
  | nil => exact .inl h
  | cons c code ih =>
    have hlater {stack' : List Char} (h : b ∈ (trackChars stack' code).1) :
        b ∈ stack' ∨ b ∈ c :: code ∧ isOpener b = true :=
      (ih h).imp id fun hcode => ⟨List.mem_cons_of_mem c hcode.1, hcode.2⟩
    rw [trackChars] at h
    split_ifs at h with hopen
    · rcases hlater h with hmem | hmem
      · rcases List.mem_cons.1 hmem with rfl | hmem
        · exact .inr ⟨List.mem_cons_self, hopen⟩
        · exact .inl hmem
      · exact .inr hmem
    · split at h
      · exact hlater h
      · split at h
        · split_ifs at h
          · exact (hlater h).imp (List.mem_cons_of_mem _) id
          · exact hlater h
        · exact hlater h

theorem Reader.Sound.feed {reader : Reader} (h : reader.Sound) (text : Text) :
    (reader.feed text).1.Sound := by
  rw [Reader.feed_eq]
  constructor
  · exact isQuote_openQuote (fits_startMode h.quote text)
  · intro b hb
    -- a line that completes its statement leaves no bracket open
    have hcomplete : reader.completes text = false := by
      cases hcompletes : reader.completes text with
      | false => rfl
      | true =>
        rw [Reader.completes, Bool.and_eq_true, Bool.and_eq_true, List.isEmpty_iff] at hcompletes
        rw [hcompletes.1.1] at hb
        exact absurd hb List.not_mem_nil
    show isOpener b = true ∧ ∃ c ∈ (if reader.completes text then none else reader.underway text), _
    rw [hcomplete]
    show isOpener b = true ∧ ∃ c ∈ reader.underway text, b ∈ c.code
    unfold Reader.underway
    rcases mem_trackChars hb with hmem | ⟨hmem, hopen⟩
    · obtain ⟨hopen, c, hc, hcode⟩ := h.shown b hmem
      rw [Option.mem_def.1 hc, extendStatement]
      refine ⟨hopen, _, rfl, ?_⟩
      split_ifs
      · exact hcode
      · exact List.mem_append_left _ hcode
    · have hb : b = '(' ∨ b = '[' ∨ b = '\x7b' := by simpa [isOpener, or_assoc] using hopen
      have hpiece : b ∈ (joinable (reader.codeIn text)).1 :=
        mem_joinable hmem (by rcases hb with rfl | rfl | rfl <;> decide)
          (by rcases hb with rfl | rfl | rfl <;> decide)
      have hne : (joinable (reader.codeIn text)).1.isEmpty = false := by
        rw [Bool.eq_false_iff, ne_eq, List.isEmpty_iff]
        exact List.ne_nil_of_mem hpiece
      refine ⟨hopen, ?_⟩
      cases reader.current with
      | none =>
        rw [extendStatement, if_neg (by simp [hne])]
        exact ⟨_, rfl, hpiece⟩
      | some c =>
        rw [extendStatement, if_neg (by simp [hne])]
        exact ⟨_, rfl, List.mem_append_right _ (List.mem_cons_of_mem _ hpiece)⟩

theorem Reader.Sound.feedAll {reader : Reader} (h : reader.Sound) (texts : List Text) :
    (reader.feedAll texts).1.Sound := by
  induction texts generalizing reader with
  | nil => exact h
  | cons text rest ih => exact ih (h.feed text)

theorem Reader.sound_start : ({} : Reader).Sound where
  quote _ h := absurd h (by simp)
  shown _ h := absurd h List.not_mem_nil

/-! ## Open literals -/

theorem lex_in_literal {q : Char} (hq : isQuote q = true) {text : Text}
    (h : ∀ c ∈ text, isPlain c = true) :
    codeOf (lex (.long q) text).1 = [] ∧ (lex (.long q) text).2 = .long q := by
  induction text with
  | nil => exact ⟨rfl, rfl⟩
  | cons c rest ih =>
    obtain ⟨hc, hrest⟩ := List.forall_mem_cons.1 h
    have hne : c ≠ q := by
      rintro rfl
      rw [(isPlain_iff.1 hc).2.2.1] at hq
      exact absurd hq (by decide)
    have hadvance : advance (.long q) c rest = (.literal, .long q) := by simp [advance, hne]
    obtain ⟨hcode, hlast⟩ := ih hrest
    rw [lex, hadvance]
    exact ⟨by rw [codeOf_cons, hcode]; rfl, hlast⟩

theorem run_in_literal {lines : List Text} (h : ∀ line ∈ lines, ∀ c ∈ line, isPlain c = true) :
    ∀ {reader : Reader} {q : Char} {c : Statement}, reader.literal = some q → isQuote q = true →
      reader.current = some c → (reader.run lines).1 = [c] := by
  induction lines with
  | nil =>
    intro reader q c _ _ hc
    simp [Reader.run, Reader.finish, hc]
  | cons line rest ih =>
    intro reader q c hliteral hq hc
    obtain ⟨hline, hrest⟩ := List.forall_mem_cons.1 h
    obtain ⟨hcode, hlast⟩ := lex_in_literal hq hline
    have hcodeIn : reader.codeIn line = [] := by
      rw [Reader.codeIn, hliteral]
      exact hcode
    have hlastMode : reader.lastMode line = .long q := by
      rw [Reader.lastMode, hliteral]
      exact hlast
    have hcomplete : reader.completes line = false := by
      rw [Reader.completes, hlastMode]
      simp [openQuote]
    have hunder : reader.underway line = some c := by
      rw [Reader.underway, hcodeIn, hc]
      rfl
    rw [Reader.run_cons, Reader.feed_eq, hcomplete]
    exact ih hrest (by rw [hlastMode]; rfl) hq hunder

/-- A documentation string that is under way is completed by an empty line, or it is open to the end
and takes in all lines. -/
theorem run_docstring {lines : List Text} (h : ∀ line ∈ lines, PutIn line) {reader : Reader}
    (hsound : reader.Sound) {c : Statement} (hc : reader.current = some c)
    (hdoc : isDocstring c.code = true) :
    ∃ later, codes (reader.run ([] :: lines)).1 = c.code :: later
      ∧ ∀ other ∈ later, isImport other = true := by
  have hbrackets : reader.brackets = [] := by
    rw [List.eq_nil_iff_forall_not_mem]
    intro b hb
    obtain ⟨hopen, d, hd, hmem⟩ := hsound.shown b hb
    obtain rfl : c = d := Option.some.inj (hc.symm.trans hd)
    rw [not_isOpener_of_isDocstring hdoc b hmem] at hopen
    exact absurd hopen (by simp)
  cases hliteral : reader.literal with
  | none =>
    have hfeed := Reader.feed_plain reader hliteral hbrackets (List.forall_mem_nil _)
    rw [hc] at hfeed
    refine ⟨codesOf lines, ?_, codesOf_putIn h⟩
    rw [Reader.run_cons, hfeed, codes_append]
    rfl
  | some q =>
    have hquote : isQuote q = true := hsound.quote q (by rw [hliteral]; rfl)
    have hplain : ∀ line ∈ [] :: lines, ∀ c ∈ line, isPlain c = true :=
      List.forall_mem_cons.2 ⟨List.forall_mem_nil _, fun line hline => (h line hline).isPlain⟩
    rw [run_in_literal hplain hliteral hquote hc]
    exact ⟨[], rfl, List.forall_mem_nil _⟩

/-! ## Codes with lines put in -/

section

variable {text : Text} {front back : List LogicalLine} {e : LogicalLine}
  (hlogical : (scan text).logical = front ++ e :: back)

include hlogical

theorem cut_scan :
    (({} : Reader).feedAll ((Text.lines text).take (e.stop + 1))).1 = {}
        ∧ codes (({} : Reader).feedAll ((Text.lines text).take (e.stop + 1))).2.1
          = front.map (·.code) ++ [e.code]
        ∧ codesOf ((Text.lines text).drop (e.stop + 1)) = back.map (·.code)
      ∨ (Text.lines text).drop (e.stop + 1) = [] ∧ back = []
        ∧ (({} : Reader).feedAll ((Text.lines text).take (e.stop + 1))).1.current = some e.statement
        ∧ codes (({} : Reader).feedAll ((Text.lines text).take (e.stop + 1))).2.1
          = front.map (·.code) := by
  have hcode (entries : List LogicalLine) :
      codes (entries.map (·.statement)) = entries.map (·.code) := List.map_map
  obtain ⟨-, ⟨hidle, hyield⟩ | ⟨hlength, hback, hunder, hyield⟩⟩ :=
    cut_at_stop (Text.lines text) (by simp) hlogical
  · left
    rw [Nat.sub_zero] at hidle hyield
    have habove := congrArg codes hyield
    rw [hcode, List.map_append] at habove
    refine ⟨hidle, habove, ?_⟩
    -- the codes of the whole are those above and those below
    have hall := map_code_scan text
    rw [hlogical, codesOf, ← List.take_append_drop (e.stop + 1) (Text.lines text),
      Reader.run_append, codes_append] at hall
    have hreader : ({} : Pending).reader = {} := rfl
    rw [hreader] at hidle habove
    rw [hidle, habove, List.map_append, List.append_assoc] at hall
    exact (List.cons.inj (List.append_cancel_left hall)).2.symm
  · right
    rw [Nat.sub_zero] at hlength hunder hyield
    have habove := congrArg codes hyield
    rw [hcode] at habove
    exact ⟨List.drop_eq_nil_of_le hlength, hback, hunder, habove⟩

/-- Lines put in behind a statement are imports after it, whatever the statement becomes if it is
the last one and still under way. -/
theorem codes_insert {lines : List Text} (hlines : ∀ line ∈ lines, PutIn line)
    (becomes : Text → Prop) (hself : becomes e.code)
    (hrun : ∀ {reader : Reader}, reader.Sound → reader.current = some e.statement →
      ∃ code later, codes (reader.run lines).1 = code :: later ∧ becomes code
        ∧ ∀ other ∈ later, isImport other = true) :
    ∃ code later, codesOf ((Text.lines text).take (e.stop + 1) ++ lines
          ++ (Text.lines text).drop (e.stop + 1))
        = front.map (·.code) ++ code :: later ++ back.map (·.code)
      ∧ becomes code ∧ ∀ other ∈ later, isImport other = true := by
  rw [codesOf, List.append_assoc, Reader.run_append, codes_append]
  rcases cut_scan hlogical with ⟨hidle, habove, hbelow⟩ | ⟨hend, rfl, hunder, habove⟩
  · obtain ⟨hlast, himports⟩ := feedAll_putIn hlines
    refine ⟨e.code, codes (({} : Reader).feedAll lines).2.1, ?_, hself, himports⟩
    rw [hidle, habove, Reader.run_append, codes_append, hlast, ← codesOf, hbelow]
    simp
  · obtain ⟨code, later, hcodes, hcode, himports⟩ :=
      hrun (Reader.sound_start.feedAll ((Text.lines text).take (e.stop + 1))) hunder
    refine ⟨code, later, ?_, hcode, himports⟩
    rw [hend, List.append_nil, habove, hcodes, List.map_nil, List.append_nil]

end

/-! ## The verdict -/

theorem exists_doc (logical : List LogicalLine) :
    ∃ doc rest, logical = doc ++ rest ∧ afterDocstring logical = rest
      ∧ (doc = [] ∧ docstringStop logical = none
        ∨ ∃ e, doc = [e] ∧ isDoc e.code = true ∧ docstringStop logical = some e.stop) := by
  cases logical with
  | nil => exact ⟨[], [], rfl, rfl, .inl ⟨rfl, rfl⟩⟩
  | cons e rest =>
    rw [afterDocstring, docstringStop, ← isDoc]
    split_ifs with hdoc
    · exact ⟨[e], rest, rfl, rfl, .inr ⟨e, rfl, hdoc, rfl⟩⟩
    · exact ⟨[], e :: rest, rfl, rfl, .inl ⟨rfl, rfl⟩⟩

theorem exists_lastImport {logical : List LogicalLine} {stop : Nat}
    (h : lastImportStop logical = some stop) :
    ∃ init e back, logical = init ++ e :: back ∧ e.stop = stop
      ∧ ∀ f ∈ init ++ [e], isImport f.code = true := by
  obtain ⟨e, hlast, rfl⟩ := Option.map_eq_some_iff.1 h
  obtain ⟨init, hinit⟩ := List.getLast?_eq_some_iff.1 hlast
  refine ⟨init, e, logical.dropWhile (isImport ·.code), ?_, rfl, ?_⟩
  · rw [← List.singleton_append, ← List.append_assoc, ← hinit, List.takeWhile_append_dropWhile]
  · rw [← hinit]
    intro f hf
    have hf := List.mem_takeWhile_imp hf
    exact hf

/-- The statements of lines are those of a text, except for more imports among those that lead. -/
def Joins (text : Text) (lines : List Text) : Prop :=
  ∃ doc old new rest, codesOf (Text.lines text) = doc ++ old ++ rest ∧ Led doc old rest
    ∧ codesOf lines = doc ++ new ++ rest ∧ Led doc new rest

theorem importsValid_of_joins {text result : Text} (h : Joins text (Text.lines result)) :
    importsValid result = importsValid text := by
  obtain ⟨doc, old, new, rest, hold, hled, hnew, hled'⟩ := h
  rw [importsValid_eq, importsValid_eq, hold, hnew, hled.leads_afterDoc, hled'.leads_afterDoc]

section

variable {text : Text} {lines : List Text} (hlines : ∀ line ∈ lines, PutIn line)

include hlines

theorem joins_behind_import {stop : Nat}
    (h : lastImportStop (afterDocstring (scan text).logical) = some stop) :
    Joins text
      ((Text.lines text).take (stop + 1) ++ lines ++ (Text.lines text).drop (stop + 1)) := by
  obtain ⟨doc, rest, hlogical, hrest, hdoc⟩ := exists_doc (scan text).logical
  obtain ⟨init, e, back, hafter, rfl, himports⟩ := exists_lastImport h
  rw [← hrest, hafter, ← List.append_assoc] at hlogical
  have himport : isImport e.code = true := himports e (by simp)
  obtain ⟨code, later, hcodes, hcode, hlater⟩ :=
    codes_insert hlogical hlines (isImport · = true) himport fun _ hunder => by
      obtain ⟨code, later, hrun, hgoes, hlater⟩ := run_putIn hlines hunder
      refine ⟨code, later, hrun, ?_, hlater⟩
      obtain rfl | ⟨more, rfl⟩ := hgoes
      · exact himport
      · exact isImport_append himport more
  have hdocs : doc.map (·.code) = [] ∨ ∃ code, isDoc code = true ∧ doc.map (·.code) = [code] := by
    obtain ⟨rfl, -⟩ | ⟨d, rfl, hd, -⟩ := hdoc
    · exact .inl rfl
    · exact .inr ⟨d.code, hd, rfl⟩
  refine ⟨doc.map (·.code), (init ++ [e]).map (·.code), init.map (·.code) ++ code :: later,
    back.map (·.code), ?_, ⟨hdocs, ?_, by simp⟩, ?_, ⟨hdocs, ?_, by simp⟩⟩
  · rw [← map_code_scan, hlogical]
    simp
  · exact List.forall_mem_map.2 himports
  · rw [hcodes]
    simp
  · rw [List.forall_mem_append, List.forall_mem_cons, List.forall_mem_map]
    exact ⟨fun f hf => himports f (List.mem_append_left _ hf), hcode, hlater⟩

theorem joins_behind_docstring {stop : Nat} (h : docstringStop (scan text).logical = some stop) :
    Joins text
      ((Text.lines text).take (stop + 1) ++ [] :: lines ++ (Text.lines text).drop (stop + 1)) := by
  obtain ⟨doc, back, hlogical, -, ⟨-, hnone⟩ | ⟨e, rfl, hdoc, hstop⟩⟩ :=
    exists_doc (scan text).logical
  · rw [hnone] at h
    exact absurd h (by simp)
  obtain rfl : e.stop = stop := Option.some.inj (hstop.symm.trans h)
  have hcut : (scan text).logical = [] ++ e :: back := hlogical
  have hall : ∀ line ∈ [] :: lines, PutIn line := List.forall_mem_cons.2 ⟨.inl rfl, hlines⟩
  have hdocstring : isDocstring e.code = true := by
    rw [isDoc, Bool.and_eq_true] at hdoc
    exact hdoc.2
  obtain ⟨code, later, hcodes, rfl, hlater⟩ :=
    codes_insert hcut hall (· = e.code) rfl fun hsound hunder => by
      obtain ⟨later, hrun, hlater⟩ := run_docstring hlines hsound hunder hdocstring
      exact ⟨e.code, later, hrun, rfl, hlater⟩
  have hdocs : [e.code] = [] ∨ ∃ code, isDoc code = true ∧ [e.code] = [code] :=
    .inr ⟨e.code, hdoc, rfl⟩
  refine ⟨[e.code], [], later, back.map (·.code), ?_,
    ⟨hdocs, List.forall_mem_nil _, by simp⟩, ?_, ⟨hdocs, hlater, by simp⟩⟩
  · rw [← map_code_scan, hlogical]
    simp
  · rw [hcodes]
    simp

theorem joins_on_top (h : docstringStop (scan text).logical = none) :
    Joins text (lines ++ Text.lines text) := by
  obtain ⟨doc, rest, hlogical, hafter, ⟨rfl, -⟩ | ⟨e, -, -, hstop⟩⟩ :=
    exists_doc (scan text).logical
  · have hrest : afterDoc (codesOf (Text.lines text)) = codesOf (Text.lines text) := by
      rw [← map_code_scan, ← map_code_afterDocstring, hafter, hlogical, List.nil_append]
    obtain ⟨hlast, himports⟩ := feedAll_putIn hlines
    refine ⟨[], [], codes (({} : Reader).feedAll lines).2.1, codesOf (Text.lines text), rfl,
      ⟨.inl rfl, List.forall_mem_nil _, fun _ _ => hrest⟩, ?_,
      ⟨.inl rfl, himports, fun _ _ => hrest⟩⟩
    rw [codesOf, Reader.run_append, codes_append, hlast, List.nil_append, codesOf]
  · rw [hstop] at h
    exact absurd h (by simp)

end

theorem joins_injectImports {text : Text} {deps : List Text} (hnew : lacking text deps ≠ [])
    (hclean : ∀ dep ∈ lacking text deps, Clean dep) :
    Joins text (Text.lines (injectImports python text deps)) := by
  have hstatements : ∀ line ∈ (lacking text deps).map importLine, PutIn line :=
    List.forall_mem_map.2 fun dep hdep => .inr ⟨dep, hclean dep hdep, rfl⟩
  have hwith {trail : List Text} (htrail : ∀ line ∈ trail, line = []) :
      ∀ line ∈ (lacking text deps).map importLine ++ trail, PutIn line :=
    List.forall_mem_append.2 ⟨hstatements, fun line hline => .inl (htrail line hline)⟩
  rw [lines_injectImports hnew fun dep hdep => (hclean dep hdep).newline_not_mem]
  have htrail : ∀ line ∈ (slot text).trail, line = [] := fun line hline =>
    slot_blank text line (List.mem_append_right _ hline)
  revert htrail
  rw [slot]
  intro htrail
  cases himport : lastImportStop (afterDocstring (scan text).logical) with
  | some stop =>
    simp only [List.nil_append, List.append_nil]
    exact joins_behind_import hstatements himport
  | none =>
    cases hdoc : docstringStop (scan text).logical with
    | none =>
      simp only [List.nil_append]
      exact joins_on_top (hwith (by simp)) hdoc
    | some stop =>
      simp only [himport, hdoc] at htrail ⊢
      exact joins_behind_docstring (hwith htrail) hdoc

theorem clean_of_word {name : Text} (hne : name ≠ [])
    (h : ∀ c ∈ name, isWord c = true ∨ c = '.' ∨ c = '-') : Clean name where
  ne_nil := hne
  plain c hc := by
    rcases h c hc with hword | rfl | rfl
    · exact isPlain_of_isWord hword
    · decide
    · decide
  not_blank c hc := by
    rcases h c hc with hword | rfl | rfl
    · exact Text.not_isBlank_of_isWord hword
    · decide
    · decide
  no_comma hmem := by
    rcases h ',' hmem with hword | hdot | hhyphen
    · exact absurd hword (by decide)
    · exact absurd hdot (by decide)
    · exact absurd hhyphen (by decide)

/-- Injecting dependencies does not change whether imports come first. -/
theorem importsValid_injectImports (text : Text) {deps : List Text}
    (hdeps : ∀ dep ∈ deps, dep ≠ [] ∧ ∀ c ∈ dep, isWord c = true ∨ c = '.' ∨ c = '-') :
    importsValid (injectImports python text deps) = importsValid text := by
  by_cases hnew : lacking text deps = []
  · rw [injectImports_of_lacking_nil hnew]
  · have hclean : ∀ dep ∈ lacking text deps, Clean dep := fun dep hdep =>
      have hmem := hdeps dep (Dependency.mem_toInject.1 hdep).1
      clean_of_word hmem.1 hmem.2
    exact importsValid_of_joins (joins_injectImports hnew hclean)

theorem importsValid_injectImports_underway :
    (∀ dep ∈ ["os.path".toList, "a-b".toList],
        dep ≠ [] ∧ ∀ c ∈ dep, isWord c = true ∨ c = '.' ∨ c = '-')
      ∧ injectImports python "\"\"\"doc\"\"\"\nimport re, \\".toList
          ["os.path".toList, "a-b".toList]
        = "\"\"\"doc\"\"\"\nimport re, \\\nimport os.path\nimport a-b".toList
      ∧ importsValid (injectImports python "\"\"\"doc\"\"\"\nimport re, \\".toList
          ["os.path".toList, "a-b".toList])
        = importsValid "\"\"\"doc\"\"\"\nimport re, \\".toList := by
  have hall : ∀ dep ∈ ["os.path".toList, "a-b".toList],
      dep ≠ [] ∧ dep.all (fun c => isWord c || c == '.' || c == '-') = true := by decide
  have hdeps : ∀ dep ∈ ["os.path".toList, "a-b".toList],
      dep ≠ [] ∧ ∀ c ∈ dep, isWord c = true ∨ c = '.' ∨ c = '-' := by
    intro dep hdep
    obtain ⟨hne, hchars⟩ := hall dep hdep
    exact ⟨hne, fun c hc => by simpa [or_assoc] using List.all_eq_true.1 hchars c hc⟩
  exact ⟨hdeps, by decide +kernel, importsValid_injectImports _ hdeps⟩

end SourceLens.Indented
