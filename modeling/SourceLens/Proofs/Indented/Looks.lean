import SourceLens.Proofs.Indented.Rendering

/-!
# What rendered lines look like

Rendering goes by line numbers: it looks up the logical line that covers a physical line. What comes
out does not depend on the numbers. It is decided by what a reader has open before the line and by
the statements that are due there, each with its depth (`map_look_renderLines`). Lines may then be
put in and taken out without counting, as in `Reader.run`.
-/

namespace SourceLens.Indented

/-- What spacing out sees of a line: its text, whether a literal is open where it starts, and whether
it starts a definition or a decorator at the left margin. -/
structure Look where
  text : Text
  inLiteral : Bool
  top : Bool
  deriving DecidableEq, Repr

def Rendered.look (line : Rendered) : Look :=
  { text := line.text, inLiteral := line.source.startsInLiteral, top := line.startsTopLevel }

/-- A statement that is not complete yet, and its depth. -/
abbrev Due := Statement × Nat

/-- A logical line without its place, and its depth. -/
def due (placed : Placed) : Due := (placed.1.statement, placed.2)

/-- Whether a statement is a definition or a decorator at the left margin. -/
def Statement.isTopLevel (statement : Statement) : Bool :=
  statement.indent = 0 && (Text.startsWith ['@'] statement.code || isDefinition statement.code)

/-- The column of the first of the statements that are due. -/
def dueColumn (width : Nat) : List Due → Nat
  | [] => 0
  | (_, level) :: _ => level * width

def Reader.meet (reader : Reader) (text : Text) : PhysicalLine :=
  { text
    startsInLiteral := reader.literal.isSome
    endsInLiteral := (openQuote (reader.lastMode text)).isSome }

/-- A line of a statement, shifted as far as the statement is. -/
def Due.shift (width : Nat) (first : Due) (line : PhysicalLine) : Text :=
  if line.startsInLiteral then line.text
  else if line.body.isEmpty then []
  else Text.spaces (Text.indentation line.text + (first.2 * width : Nat) - first.1.indent : Int).toNat
    ++ line.body

def moved (column : Nat) (text : Text) : Text :=
  if (Text.trim text).isEmpty then [] else Text.spaces column ++ Text.trim text

/-- The text of a line that a reader meets while statements are due. -/
def Reader.lookText (width : Nat) (reader : Reader) (text : Text) : List Due → Text
  | [] => moved 0 text
  | first :: _ =>
    if (reader.underway text).isSome then first.shift width (reader.meet text)
    else moved (first.2 * width) text

/-- What a line looks like that a reader meets while statements are due. -/
def Reader.look (width : Nat) (reader : Reader) (dues : List Due) (text : Text) : Look :=
  { text := reader.lookText width text dues
    inLiteral := reader.literal.isSome
    top := reader.literal.isNone && reader.current.isNone && (reader.underway text).isSome
      && dues.head?.any (·.1.isTopLevel) }

def Reader.looks (width : Nat) : Reader → List Due → List Text → List Look
  | _, _, [] => []
  | reader, dues, text :: rest =>
    reader.look width dues text
      :: (reader.feed text).1.looks width (dues.drop (reader.feed text).2.1.length) rest

theorem shifted_eq_shift (width level : Nat) (entry : LogicalLine) (line : PhysicalLine) :
    shifted width entry level line = Due.shift width (due (entry, level)) line := by
  cases hstart : line.startsInLiteral with
  | true => rw [shifted, if_pos hstart, Due.shift, if_pos hstart]
  | false =>
    have hcode : ¬line.startsInLiteral = true := by simp [hstart]
    rw [shifted_eq hstart, Due.shift, if_neg hcode]
    rfl

theorem split_suffix {suffix : List Placed} {pending : Pending} {i : Nat} {text : Text}
    {rest : List Text} (h : suffix.map (·.1) = (scanFrom pending i (text :: rest)).logical) :
    ∃ complete later, suffix = complete ++ later
      ∧ complete.map (·.1) = (pending.feed i text).2.logical
      ∧ later.map (·.1) = (scanFrom (pending.feed i text).1 (i + 1) rest).logical
      ∧ (∀ p ∈ complete, p.1.stop = i)
      ∧ complete.length = (pending.reader.feed text).2.1.length := by
  rw [scanFrom_cons, Scan.append] at h
  obtain ⟨complete, later, rfl, hcomplete, hlater⟩ := List.map_eq_append_iff.1 h
  refine ⟨complete, later, rfl, hcomplete, hlater, ?_, ?_⟩
  · intro p hp
    have hmem : p.1 ∈ (pending.feed i text).2.logical := by
      rw [← hcomplete]
      exact List.mem_map_of_mem hp
    rw [(feed_logical pending i text).2] at hmem
    split_ifs at hmem
    · exact (underway_cases (by simpa using hmem)).1
    · simp at hmem
  · rw [← (feed_reader pending i text).2.1, ← hcomplete]
    simp

theorem lookText_of_idle {width : Nat} {reader : Reader} {text : Text}
    (hidle : reader.underway text = none) (dues : List Due) :
    reader.lookText width text dues = moved (dueColumn width dues) text := by
  cases dues with
  | nil => rfl
  | cons first more =>
    rw [Reader.lookText, hidle]
    rfl

theorem look_of_idle {width : Nat} {reader : Reader} {text : Text}
    (hidle : reader.underway text = none) (dues : List Due) :
    Rendered.look { text := moved (dueColumn width dues) text, source := reader.meet text, starts := none }
      = reader.look width dues text := by
  simp [Rendered.look, Reader.look, Reader.meet, Rendered.startsTopLevel, lookText_of_idle hidle,
    hidle]

theorem look_of_underway (width : Nat) {pending : Pending} {i : Nat} (hsound : pending.Sound i)
    {text : Text} {c e : LogicalLine} (hunderway : pending.underway i text = some c)
    (hline : e.line = c.line) (level : Nat) (more : List Due) :
    Rendered.look
        { text := shifted width e level (pending.reader.meet text)
          source := pending.reader.meet text
          starts := if e.line = i then some e else none }
      = pending.reader.look width (due (e, level) :: more) text := by
  have hbusy : (pending.reader.underway text).isSome = true := by
    rw [underway_reader pending i, hunderway]
    rfl
  have hstarts : (if e.line = i then some e else none)
      = if pending.current.isNone then some e else none := by
    rw [hline]
    obtain ⟨-, ⟨hcurrent, hstart, -⟩ | ⟨d, hcurrent, hstart, -⟩⟩ := underway_cases hunderway
    · rw [if_pos hstart, hcurrent]
      rfl
    · have hfurther := hsound.line d hcurrent
      rw [if_neg (by omega), hcurrent]
      rfl
  rw [Rendered.look, Reader.look, Reader.lookText, if_pos hbusy, hbusy, shifted_eq_shift, hstarts]
  cases hcurrent : pending.current with
  | none =>
    have hcode : pending.reader.literal = none := by simpa [hcurrent] using hsound.literal
    have hidle : pending.reader.current = none := by rw [Pending.reader, hcurrent]; rfl
    simp [Rendered.startsTopLevel, Statement.isTopLevel, LogicalLine.statement, due, Reader.meet,
      hcode, hidle]
  | some d =>
    have hbusy : pending.reader.current.isNone = false := by rw [Pending.reader, hcurrent]; rfl
    simp [Rendered.startsTopLevel, due, Reader.meet, hbusy]

/-- What rendered lines look like, and the column of the first statement that starts among them. -/
theorem map_look_renderLines {width : Nat} (texts : List Text) :
    ∀ {pending : Pending} {i : Nat} {done suffix : List Placed},
      suffix.map (·.1) = (scanFrom pending i texts).logical →
      (∀ p ∈ done, p.1.stop < i) → pending.Sound i →
      (renderLines width (done ++ suffix) i (scanFrom pending i texts).physical).1.map Rendered.look
          = pending.reader.looks width (suffix.map due) texts
        ∧ (renderLines width (done ++ suffix) i (scanFrom pending i texts).physical).2
          = dueColumn width ((suffix.map due).drop (if pending.current.isSome then 1 else 0)) := by
  induction texts with
  | nil =>
    intro pending i done suffix hsuffix _ _
    have hlength : suffix.length = pending.current.toList.length := by
      simpa [scanFrom, Pending.finish] using congrArg List.length hsuffix
    have hnil : (suffix.map due).drop (if pending.current.isSome then 1 else 0) = [] := by
      rw [List.drop_eq_nil_iff, List.length_map, hlength]
      cases pending.current <;> simp
    rw [hnil]
    exact ⟨rfl, rfl⟩
  | cons text rest ih =>
    intro pending i done suffix hsuffix hdone hsound
    obtain ⟨complete, later, rfl, hcomplete, hlater, hstops, hcount⟩ := split_suffix hsuffix
    obtain ⟨hlooks, hcolumn⟩ := ih hlater (stops_above hdone hstops) (hsound.feed text)
    have hdrop : ((complete ++ later).map due).drop (pending.reader.feed text).2.1.length
        = later.map due := by
      rw [List.map_append, ← hcount]
      exact List.drop_left' (List.length_map ..)
    rw [(feed_reader pending i text).1, List.append_assoc] at hlooks
    rw [List.append_assoc] at hcolumn
    rw [scanFrom_cons, Scan.append, feed_physical, List.singleton_append, renderLines,
      covering_append hdone, Reader.looks, hdrop, ← hlooks]
    generalize renderLines width (done ++ (complete ++ later)) (i + 1)
      (scanFrom (pending.feed i text).1 (i + 1) rest).physical = tail at hcolumn ⊢
    obtain ⟨hnext, hfound⟩ := feed_logical pending i text
    rw [hfound] at hcomplete
    rw [hnext] at hcolumn
    cases hunderway : pending.underway i text with
    | none =>
      obtain ⟨hcurrent, -⟩ := underway_eq_none.1 hunderway
      have hidle : pending.reader.underway text = none := by
        rw [underway_reader pending i, hunderway]
        rfl
      obtain rfl : complete = [] := by simpa [hunderway] using hcomplete
      have hcolumn' : tail.2 = dueColumn width (later.map due) := by
        simpa [hunderway] using hcolumn
      rw [covering_of_underway_none hsuffix hunderway, hcurrent]
      exact ⟨congrArg (· :: _) (hcolumn' ▸ look_of_idle hidle _), hcolumn'⟩
    | some c =>
      obtain ⟨e, level, more, hhead, hline, -, hcover⟩ :=
        covering_of_underway_some hsuffix hsound hunderway
      have hlook := look_of_underway width hsound hunderway hline level (more.map due)
      rw [hcover, hhead, List.map_cons, ← hlook]
      -- the first line of a statement gives the column, the others pass it on
      obtain ⟨-, ⟨hcurrent, hstart, -⟩ | ⟨d, hcurrent, hstart, -⟩⟩ := underway_cases hunderway
      · have hhere : e.line = i := hline.trans hstart
        simp only [if_pos hhere, hcurrent]
        exact ⟨rfl, rfl⟩
      · have hfurther := hsound.line d hcurrent
        have haway : ¬e.line = i := by omega
        simp only [if_neg haway, hcurrent]
        refine ⟨rfl, ?_⟩
        rw [hcolumn, hunderway]
        rw [hunderway] at hcomplete
        by_cases hfull : pending.reader.completes text = true
        · rw [if_pos hfull] at hcomplete ⊢
          obtain ⟨p, rfl, -⟩ := List.map_eq_singleton_iff.1 hcomplete
          obtain ⟨-, rfl⟩ := List.cons.inj hhead
          rfl
        · rw [if_neg hfull] at hcomplete ⊢
          obtain rfl := List.map_eq_nil_iff.1 hcomplete
          rw [List.nil_append] at hhead
          rw [hhead]
          rfl

end SourceLens.Indented
