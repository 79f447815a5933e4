import SourceLens.Proofs.Indented.Indenting

/-!
# Joined texts

A scan goes through a text line by line, so a text and another one below it are scanned one after the
other, the second with what the first leaves open (`scan_joined`). What a scan yields moves with the
lines (`scanFrom_down`). So the scan of both texts is the scan of the first followed by that of the
second, further down, exactly if the first leaves nothing open (`scan_joined_iff`).
-/

namespace SourceLens

/-- A problem `n` lines further down. -/
def Diagnostic.down (n : Nat) (diagnostic : Diagnostic) : Diagnostic :=
  { diagnostic with line := diagnostic.line + n }

namespace Indented

/-! ## Further down -/

/-- A logical line `n` lines further down. -/
def LogicalLine.down (n : Nat) (entry : LogicalLine) : LogicalLine := entry.moved n 0

/-- An open bracket `n` lines further down. -/
def Bracket.down (n : Nat) (bracket : Bracket) : Bracket :=
  { bracket with line := bracket.line + n }

/-- An open literal `n` lines further down. -/
def OpenLiteral.down (n : Nat) (literal : OpenLiteral) : OpenLiteral :=
  { literal with line := literal.line + n }

/-- What is open between two lines, `n` lines further down. -/
def Pending.down (n : Nat) (pending : Pending) : Pending :=
  { literal := pending.literal.map (OpenLiteral.down n)
    brackets := pending.brackets.map (Bracket.down n)
    current := pending.current.map (LogicalLine.down n) }

/-- What a scan yields, `n` lines further down. -/
def Scan.down (n : Nat) (found : Scan) : Scan :=
  { logical := found.logical.map (LogicalLine.down n)
    physical := found.physical
    diagnostics := found.diagnostics.map (Diagnostic.down n) }

theorem Scan.down_append (n : Nat) (a b : Scan) :
    (a.append b).down n = (a.down n).append (b.down n) := by
  simp [Scan.down, Scan.append]

theorem trackBrackets_down (n line : Nat) (marks : List Mark) :
    ∀ (column : Nat) (stack : List Bracket),
      trackBrackets (line + n) column (stack.map (Bracket.down n)) marks
        = ((trackBrackets line column stack marks).1.map (Bracket.down n),
           (trackBrackets line column stack marks).2.map (Diagnostic.down n)) := by
  induction marks with
  | nil =>
    intro column stack
    rfl
  | cons mark rest ih =>
    intro column stack
    rw [trackBrackets, trackBrackets]
    by_cases hrole : mark.role ≠ .code
    · rw [if_pos hrole, if_pos hrole, ih]
    rw [if_neg hrole, if_neg hrole]
    by_cases hopener : isOpener mark.char
    · rw [if_pos hopener, if_pos hopener]
      exact ih (column + 1) (⟨mark.char, line, column⟩ :: stack)
    rw [if_neg hopener, if_neg hopener]
    cases openerOf? mark.char with
    | none => exact ih (column + 1) stack
    | some opener =>
      cases stack with
      | nil =>
        have hrest := ih (column + 1) []
        simp only [List.map_nil] at hrest ⊢
        rw [hrest]
        rfl
      | cons top below =>
        have hrest := ih (column + 1) (top :: below)
        simp only [List.map_cons] at hrest ⊢
        have hchar : (top.down n).char = top.char := rfl
        rw [hchar]
        split_ifs
        · exact ih (column + 1) below
        · rw [hrest]
          rfl

theorem extend_down (n line indent : Nat) (code : Text) (current : Option LogicalLine) :
    extend (line + n) indent code (current.map (LogicalLine.down n))
      = (extend line indent code current).map (LogicalLine.down n) := by
  cases current with
  | none =>
    by_cases hempty : code.isEmpty <;> simp [extend, hempty, LogicalLine.down, LogicalLine.moved]
  | some current => rfl

theorem openAfter_down (n line : Nat) (marks : List Mark) (before : Option OpenLiteral) (mode : Mode) :
    openAfter (line + n) marks (before.map (OpenLiteral.down n)) mode
      = (openAfter line marks before mode).map (OpenLiteral.down n) := by
  cases mode with
  | long quote =>
    simp only [openAfter]
    cases lastOpening 0 marks <;> rfl
  | _ => rfl

theorem shortLiteralProblem_down (n line : Nat) (text : Text) (marks : List Mark) (mode : Mode) :
    shortLiteralProblem (line + n) text marks mode
      = (shortLiteralProblem line text marks mode).map (Diagnostic.down n) := by
  cases mode with
  | short quote =>
    simp only [shortLiteralProblem]
    split_ifs <;> rfl
  | _ => rfl

theorem feed_down (n : Nat) (pending : Pending) (line : Nat) (text : Text) :
    (pending.down n).feed (line + n) text
      = ((pending.feed line text).1.down n, (pending.feed line text).2.down n) := by
  have hmode : (pending.down n).reader.literal = pending.reader.literal := by
    cases hliteral : pending.literal <;>
      simp [Pending.down, Pending.reader, OpenLiteral.down, hliteral]
  rw [feed_eq_feedMarks, feed_eq_feedMarks, hmode]
  generalize lex (startMode pending.reader.literal) text = lexed
  simp only [Pending.feedMarks, Pending.down, trackBrackets_down, extend_down, openAfter_down,
    shortLiteralProblem_down, List.isEmpty_map, Option.isNone_map, Option.isSome_map, Scan.down,
    List.map_append]
  split_ifs
  · cases extend line (Text.indentation text) (joinable (codeOf lexed.1)).1 pending.current <;> rfl
  · rfl

theorem finish_down (n : Nat) (pending : Pending) :
    (pending.down n).finish = pending.finish.down n := by
  obtain ⟨literal, brackets, current⟩ := pending
  have hbrackets : ((brackets.map (Bracket.down n)).reverse.map fun bracket =>
      ({ line := bracket.line, column := bracket.column,
         message := aboutChar "Unclosed" bracket.char } : Diagnostic))
      = (brackets.reverse.map fun bracket =>
        ({ line := bracket.line, column := bracket.column,
           message := aboutChar "Unclosed" bracket.char } : Diagnostic)).map (Diagnostic.down n) := by
    simp [Bracket.down, Diagnostic.down, Function.comp_def]
  simp only [Pending.finish, Pending.down, Scan.down, hbrackets, List.map_append]
  cases literal <;> cases current <;> rfl

/-- Lines further down yield the same, further down. -/
theorem scanFrom_down (n : Nat) (texts : List Text) :
    ∀ (pending : Pending) (line : Nat),
      scanFrom (pending.down n) (line + n) texts = (scanFrom pending line texts).down n := by
  induction texts with
  | nil => exact fun pending _ => finish_down n pending
  | cons text rest ih =>
    intro pending line
    rw [scanFrom_cons, scanFrom_cons, feed_down, Scan.down_append, Nat.add_right_comm, ih]

/-! ## One text below another -/

/-- What lines leave open. -/
def Pending.after (pending : Pending) (line : Nat) : List Text → Pending
  | [] => pending
  | text :: rest => Pending.after (pending.feed line text).1 (line + 1) rest

/-- What lines yield before the text ends. -/
def Pending.found (pending : Pending) (line : Nat) : List Text → Scan
  | [] => {}
  | text :: rest =>
    (pending.feed line text).2.append (Pending.found (pending.feed line text).1 (line + 1) rest)

/-- What a text leaves open. -/
def leftOpen (text : Text) : Pending := Pending.after {} 0 (Text.lines text)

theorem Scan.append_assoc (a b c : Scan) : (a.append b).append c = a.append (b.append c) := by
  simp [Scan.append]

theorem Scan.append_left_cancel {a b c : Scan} (h : a.append b = a.append c) : b = c := by
  obtain ⟨logical, physical, diagnostics⟩ := b
  obtain ⟨logical', physical', diagnostics'⟩ := c
  simpa [Scan.append] using h

theorem scanFrom_append (front back : List Text) :
    ∀ (pending : Pending) (line : Nat),
      scanFrom pending line (front ++ back)
        = (pending.found line front).append
            (scanFrom (pending.after line front) (line + front.length) back) := by
  induction front with
  | nil => exact fun pending line => rfl
  | cons text front ih =>
    intro pending line
    rw [List.cons_append, scanFrom_cons, ih, Pending.found, Pending.after, Scan.append_assoc,
      List.length_cons, Nat.add_right_comm, Nat.add_assoc]

theorem scan_joined (front back : Text) :
    scan (front ++ '\n' :: back)
      = (Pending.found {} 0 (Text.lines front)).append
          (scanFrom (leftOpen front) (Text.lines front).length (Text.lines back)) := by
  rw [scan, Text.lines_append, scanFrom_append, leftOpen, Nat.zero_add]

theorem scan_eq_found (text : Text) :
    scan text = (Pending.found {} 0 (Text.lines text)).append (leftOpen text).finish := by
  have hall := scanFrom_append (Text.lines text) [] {} 0
  rwa [List.append_nil] at hall

/-! ## Nothing left open -/

theorem eq_idle_iff {pending : Pending} :
    pending = {} ↔ pending.literal = none ∧ pending.brackets = [] ∧ pending.current = none := by
  obtain ⟨literal, brackets, current⟩ := pending
  simp

theorem scan_joined_of_idle {front : Text} (h : leftOpen front = {}) (back : Text) :
    scan (front ++ '\n' :: back)
      = (scan front).append ((scan back).down (Text.lines front).length) := by
  have hback := scanFrom_down (Text.lines front).length (Text.lines back) {} 0
  rw [Nat.zero_add] at hback
  rw [scan_joined, scan_eq_found front, h, Scan.append_assoc]
  exact congrArg _ hback

theorem length_logical_two (brackets : List Bracket) (current : Option LogicalLine) (line : Nat) :
    (scanFrom { brackets, current } line ["x".toList, "y".toList]).logical.length
      = if brackets = [] then 2 else 1 := by
  cases brackets <;> cases current <;> rfl

/-- Two lines of code tell whether anything is open in front of them: a literal shows in what is noted
of the first line, a bracket or a logical line under way in the number of logical lines. -/
theorem idle_of_two {last : Pending} {line n : Nat}
    (h : scanFrom last line ["x".toList, "y".toList]
      = last.finish.append ((scan "x\ny".toList).down n)) : last = {} := by
  have hliteral : last.literal = none := by
    have hback : (scan "x\ny".toList).physical.head?.map (·.startsInLiteral) = some false := by
      decide
    have hphysical := congrArg (fun found => found.physical.head?.map (·.startsInLiteral)) h
    have hstart : last.reader.literal.isSome = false := by
      simpa only [scanFrom_cons, Scan.append, Scan.down, feed_physical, Pending.finish,
        List.nil_append, List.singleton_append, List.head?_cons, Option.map_some, hback,
        Option.some.injEq] using hphysical
    simpa [Pending.reader] using hstart
  have hback : (scan "x\ny".toList).logical.length = 2 := by decide
  have hlength := congrArg (fun found => found.logical.length) h
  obtain ⟨literal, brackets, current⟩ := last
  obtain rfl : literal = none := hliteral
  simp only [length_logical_two, Scan.append, Scan.down, Pending.finish, List.length_append,
    List.length_map, hback] at hlength
  split_ifs at hlength with hbrackets
  · have hcurrent : current = none := by
      cases current with
      | none => rfl
      | some current => simp at hlength
    rw [hbrackets, hcurrent]
  · omega

/-- A text is scanned on its own, whatever stands below it, exactly if it leaves open no long literal
and no bracket and its last line does not end in a backslash that joins the next one to a logical line
under way. What stands below it is then scanned on its own too, as far down as the text has lines. -/
theorem scan_joined_iff (front : Text) :
    (∀ back, scan (front ++ '\n' :: back)
        = (scan front).append ((scan back).down (Text.lines front).length))
      ↔ (leftOpen front).literal = none ∧ (leftOpen front).brackets = []
        ∧ (leftOpen front).current = none := by
  rw [← eq_idle_iff]
  refine ⟨fun h => ?_, scan_joined_of_idle⟩
  have htwo := h "x\ny".toList
  have hlines : Text.lines "x\ny".toList = ["x".toList, "y".toList] := by decide
  rw [scan_joined, scan_eq_found front, Scan.append_assoc, hlines] at htwo
  exact idle_of_two (Scan.append_left_cancel htwo)

end Indented

end SourceLens
