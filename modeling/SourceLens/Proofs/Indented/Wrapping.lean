import SourceLens.Proofs.Indented.Definitions
import SourceLens.Proofs.Indented.Nesting

/-!
# Wrapping a text in a function

A text without problems is wrapped under the header of a function, which has none itself
(`isHeader_plainHeader`). So the wrapped text has no problem exactly if there is a statement in it:
a text of blanks only gets one, a text of comments only does not. The function comes first in the
outline and contains everything else (`wrap_fine_iff`).
-/

namespace SourceLens.Indented

open Pattern Descriptor

/-! ## The header -/

/-- The header of a function without parameters. -/
def plainHeader (name : Text) : Text := "def ".toList ++ name ++ "():".toList

theorem plainHeader_eq (name : Text) : plainHeader name = functionHeader name [] none :=
  List.append_assoc ..

theorem wrap_eq (width : Nat) (text name : Text) :
    wrap width text name
      = under (plainHeader name) width (if Text.allBlank text then "pass".toList else text) := by
  generalize hbody : (if Text.allBlank text then "pass".toList else text) = body
  have hsplit : wrap width text name
      = "def ".toList ++ name ++ ("():\n".toList ++ Text.indent width body) := by
    rw [← hbody]
    exact List.append_assoc ..
  rw [hsplit, under]
  exact (List.append_assoc ("def ".toList ++ name) "():".toList _).symm

section

variable {name : Text} (hne : name ≠ []) (hname : ∀ c ∈ name, isWord c = true)

include hne hname

theorem nameBy_plainHeader : nameBy defStart (plainHeader name) = some name := by
  rw [plainHeader_eq]
  exact (defNamed_functionHeader hne hname).nameBy_eq

theorem isHeader_plainHeader : IsHeader (plainHeader name) := by
  rw [plainHeader_eq]
  exact isHeader_functionHeader hne hname (by simp) (by simp)

end

/-! ## The outline -/

theorem IsHeader.outline_under {header name : Text} (hheader : IsHeader header)
    (hname : nameBy defStart header = some name) {text : Text} (htab : '\t' ∉ text) {width : Nat}
    (hwidth : 1 ≤ width) :
    ∃ entry rest, outline (under header width text) = entry :: rest
      ∧ entry.kind = .function ∧ entry.name = name ∧ entry.start = 0
      ∧ ∀ other ∈ rest, entry.Contains other := by
  have hordered := (ordered_scan (under header width text)).1
  obtain ⟨hlogical, -⟩ := hheader.scan_under htab width
  rw [outline, hlogical]
  rw [hlogical] at hordered
  have hinside : ∀ g ∈ (scan text).logical.map (LogicalLine.moved 1 width), 0 < g.indent := by
    intro g hg
    obtain ⟨source, -, rfl⟩ := List.mem_map.1 hg
    exact Nat.lt_of_lt_of_le hwidth (Nat.le_add_left ..)
  generalize (scan text).logical.map (LogicalLine.moved 1 width) = inner at hordered hinside
  have hblock : block (headerEntry header) inner = inner := block_eq_self hinside
  have hfirst : outlined? (headerEntry header) inner
      = some (.ofLines .function name 0 (blockStop (headerEntry header) inner)) := by
    simp [outlined?, headerEntry, hname]
  refine ⟨_, _, List.filterMap_cons_some hfirst, rfl, rfl, rfl, fun other hother => ?_⟩
  obtain ⟨⟨e, rest⟩, hmem, hfound⟩ := List.mem_filterMap.1 hother
  obtain ⟨front, rfl⟩ := mem_withRest_iff.1 hmem
  have hlater : Ordered (e :: rest) := hordered.of_append (headerEntry header :: front)
  obtain ⟨g, hg, hstop⟩ := exists_stop_of_outlined hlater hfound
  have hwithin : g.stop ≤ blockStop (headerEntry header) (front ++ e :: rest) := by
    refine stop_le_blockStop hordered (List.mem_cons_of_mem _ ?_)
    rw [hblock]
    exact List.mem_append_right front hg
  exact ⟨Nat.zero_le _, hstop ▸ hwithin.trans (Nat.le_max_right ..)⟩

/-- Wrapping a text without problems, with a positive width and under a name of word characters,
gives a text without problems exactly if the text is blank or has a statement. The outline of the
result starts with a function of that name, which starts on the first line and contains every other
entry. -/
theorem wrap_fine_iff {width : Nat} (hwidth : 1 ≤ width) {text name : Text} (htab : '\t' ∉ text)
    (hfine : diagnose text = []) (hne : name ≠ []) (hname : ∀ c ∈ name, isWord c = true) :
    (diagnose (wrap width text name) = []
        ↔ Text.allBlank text = true ∨ (scan text).logical ≠ [])
      ∧ ∃ entry rest, outline (wrap width text name) = entry :: rest
        ∧ entry.kind = .function ∧ entry.name = name ∧ entry.start = 0
        ∧ ∀ other ∈ rest, entry.Contains other := by
  have hheader := isHeader_plainHeader hne hname
  have hfirst := nameBy_plainHeader hne hname
  rw [wrap_eq]
  split_ifs with hblank
  · have hpass : diagnose "pass".toList = [] ∧ (scan "pass".toList).logical ≠ [] := by decide +kernel
    refine ⟨?_, hheader.outline_under hfirst (by decide) hwidth⟩
    rw [hheader.diagnose_under hpass.1 (by decide) hwidth]
    exact iff_of_true hpass.2 (.inl hblank)
  · refine ⟨?_, hheader.outline_under hfirst htab hwidth⟩
    rw [hheader.diagnose_under hfine htab hwidth, or_iff_right hblank]

/-- A class with a method, a literal over two lines, a joined call and a comment at the end. -/
def nestedSource : Text :=
  "class A:\n  def m(self):\n    s = \"\"\"x\n  y\"\"\"\n    return f(s,\n  1)\n\n# end\n".toList

theorem wrap_fine_iff_nested :
    1 ≤ 4 ∧ '\t' ∉ nestedSource ∧ diagnose nestedSource = [] ∧ "main".toList ≠ []
      ∧ (∀ c ∈ "main".toList, isWord c = true)
      ∧ (diagnose (wrap 4 nestedSource "main".toList) = []
        ↔ Text.allBlank nestedSource = true ∨ (scan nestedSource).logical ≠ [])
      ∧ ∃ entry rest, outline (wrap 4 nestedSource "main".toList) = entry :: rest
        ∧ entry.kind = .function ∧ entry.name = "main".toList ∧ entry.start = 0
        ∧ ∀ other ∈ rest, entry.Contains other := by
  have htab : '\t' ∉ nestedSource := by decide
  have hfine : diagnose nestedSource = [] := by decide +kernel
  have hname : ∀ c ∈ "main".toList, isWord c = true := List.all_eq_true.1 (by decide)
  exact ⟨by decide, htab, hfine, by decide, hname,
    wrap_fine_iff (by decide) htab hfine (by decide) hname⟩

/-- A text of comments only has no problem, but a function may not be made of it. -/
theorem wrap_comment_fails :
    '\t' ∉ "# c".toList ∧ diagnose "# c".toList = []
      ∧ wrap 4 "# c".toList "f".toList = "def f():\n    # c".toList
      ∧ diagnose (wrap 4 "# c".toList "f".toList) ≠ [] := by
  decide +kernel

end SourceLens.Indented
