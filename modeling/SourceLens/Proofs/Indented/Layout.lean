import SourceLens.Proofs.Indented.Indenting

/-!
# Laid out texts

Texts of which every line is empty or holds one whole statement, without literals and comments. Such
a text has no problem with brackets and literals, and its logical lines are its statements, each on
a line of its own (`scan_rows`). Under a header the statements move in, and nothing else changes
(`rows_under`).
-/

namespace SourceLens.Indented

/-- A line that is empty or holds a statement at a column. -/
inductive Row
  | empty
  | statement (column : Nat) (code : Text)

namespace Row

/-- The line. -/
def text : Row → Text
  | empty => []
  | statement column code => Text.spaces column ++ code

def deeper (width : Nat) : Row → Row
  | empty => empty
  | statement column code => statement (column + width) code

/-- The statement of the row as a logical line. -/
def logical? (line : Nat) : Row → Option LogicalLine
  | empty => none
  | statement column code => some { line, stop := line, indent := column, code }

/-- Whether the code of the row, if it has any, is a statement of its own. -/
def Fits : Row → Prop
  | empty => True
  | statement _ code => Standalone code

end Row

/-- The statements of rows, the first of which is on line `line`. -/
def entriesFrom : Nat → List Row → List LogicalLine
  | _, [] => []
  | line, row :: rest => (row.logical? line).toList ++ entriesFrom (line + 1) rest

theorem entriesFrom_append (line : Nat) (a b : List Row) :
    entriesFrom line (a ++ b) = entriesFrom line a ++ entriesFrom (line + a.length) b := by
  induction a generalizing line with
  | nil => rfl
  | cons row a ih =>
    rw [List.cons_append, entriesFrom, ih, entriesFrom, List.append_assoc, List.length_cons,
      Nat.add_assoc, Nat.add_comm 1]

theorem mem_entriesFrom {line : Nat} {rows : List Row} {e : LogicalLine}
    (h : e ∈ entriesFrom line rows) : .statement e.indent e.code ∈ rows := by
  induction rows generalizing line with
  | nil => simp [entriesFrom] at h
  | cons row rest ih =>
    rw [entriesFrom] at h
    rcases List.mem_append.1 h with h | h
    · cases row with
      | empty => simp [Row.logical?] at h
      | statement column code =>
        obtain rfl : e = { line, stop := line, indent := column, code } := by
          simpa [Row.logical?] using h
        exact List.mem_cons_self
    · exact List.mem_cons_of_mem row (ih h)

def EndsFull (rows : List Row) : Prop :=
  ∃ front column code, rows = front ++ [.statement column code]

theorem EndsFull.append (front : List Row) {rows : List Row} (h : EndsFull rows) :
    EndsFull (front ++ rows) := by
  obtain ⟨more, column, code, rfl⟩ := h
  exact ⟨front ++ more, column, code, (List.append_assoc ..).symm⟩

theorem EndsFull.stop {rows : List Row} (h : EndsFull rows) (line : Nat) :
    (entriesFrom line rows).getLast?.map (·.stop) = some (line + (rows.length - 1)) := by
  obtain ⟨front, column, code, rfl⟩ := h
  rw [entriesFrom_append, List.length_append]
  simp [entriesFrom, Row.logical?]

theorem standalone_of_plain {code : Text} (hplain : ∀ c ∈ code, isPlain c = true) (hne : code ≠ [])
    (htrim : Text.trim code = code) : Standalone code where
  bare c hc := ⟨(isPlain_iff.1 (hplain c hc)).2.2.1, (isPlain_iff.1 (hplain c hc)).2.2.2.1⟩
  newline hmem := (isPlain_iff.1 (hplain _ hmem)).2.2.2.2.2 rfl
  ne_nil := hne
  trimmed := htrim
  balanced := trackChars_plain hplain []
  unjoined hlast := (isPlain_iff.1 (hplain _ (List.mem_of_getLast? hlast))).2.2.2.2.1 rfl

/-! ## Scanning -/

theorem feed_empty (line : Nat) :
    (({} : Pending).feed line []).1 = {} ∧ (({} : Pending).feed line []).2.logical = []
      ∧ (({} : Pending).feed line []).2.diagnostics = [] := ⟨rfl, rfl, rfl⟩

theorem scanFrom_rows (rows : List Row) (line : Nat) (h : ∀ row ∈ rows, row.Fits) :
    (scanFrom {} line (rows.map Row.text)).logical = entriesFrom line rows
      ∧ (scanFrom {} line (rows.map Row.text)).diagnostics = [] := by
  induction rows generalizing line with
  | nil => exact ⟨rfl, rfl⟩
  | cons row rest ih =>
    obtain ⟨hrow, hrest⟩ := List.forall_mem_cons.1 h
    obtain ⟨hlogical, hfine⟩ := ih (line + 1) hrest
    have hfeed : (({} : Pending).feed line row.text).1 = {}
        ∧ (({} : Pending).feed line row.text).2.logical = (row.logical? line).toList
        ∧ (({} : Pending).feed line row.text).2.diagnostics = [] := by
      cases row with
      | empty => exact feed_empty line
      | statement column code => exact Standalone.feed hrow column line
    obtain ⟨hnext, hfound, hnone⟩ := hfeed
    rw [List.map_cons, scanFrom_cons, hnext]
    refine ⟨?_, ?_⟩
    · rw [Scan.append, hfound, hlogical, entriesFrom]
    · rw [Scan.append, hnone, hfine]
      rfl

/-- The logical lines of a text of rows are its statements, and nothing is left open. -/
theorem scan_rows {text : Text} {rows : List Row} (hlines : Text.lines text = rows.map Row.text)
    (h : ∀ row ∈ rows, row.Fits) :
    (scan text).logical = entriesFrom 0 rows ∧ (scan text).diagnostics = [] := by
  rw [scan, hlines]
  exact scanFrom_rows rows 0 h

/-! ## Indenting -/

theorem indentLine_text {row : Row} (h : row.Fits) (width : Nat) :
    indentLine width row.text = (row.deeper width).text := by
  cases row with
  | empty => rfl
  | statement column code =>
    obtain ⟨c, rest, hcode, hc⟩ := Standalone.head h
    have hblank : ¬Text.allBlank (Text.spaces column ++ code) = true := fun hall => by
      have hmem : c ∈ Text.spaces column ++ code := by simp [hcode]
      simp [Text.allBlank_iff.1 hall c hmem] at hc
    rw [Row.text, indentLine, if_neg hblank, ← List.append_assoc, Row.deeper, Row.text, Text.spaces,
      Text.spaces, Text.spaces, List.replicate_append_replicate, Nat.add_comm]

theorem rows_under {header : Text} (hheader : '\n' ∉ header) (width : Nat) {text : Text}
    {rows : List Row} (hlines : Text.lines text = rows.map Row.text) (h : ∀ row ∈ rows, row.Fits) :
    Text.lines (under header width text)
      = (.statement 0 header :: rows.map (Row.deeper width)).map Row.text := by
  rw [lines_under hheader, hlines, List.map_cons, List.map_map, List.map_map]
  exact congrArg (header :: ·)
    (List.map_congr_left fun row hrow => indentLine_text (h row hrow) width)

end SourceLens.Indented
