import Mathlib.Tactic.Common
import SourceLens.Text.Lemmas

/-!
# Lines

Texts are joined at line feeds as lists of lines are appended (`lines_append`, `unlines_append`), and
a text without line feeds occurs in another one exactly if it occurs in one of its lines
(`infix_iff_lines`). Where a text can have a character at its start alone, it occurs on one side of
that character (`infix_append_cons`).
-/

namespace SourceLens.Text

theorem splitOn_append (sep : Char) (x y : Text) :
    ∃ front last first back, splitOn sep x = front ++ [last] ∧ splitOn sep y = first :: back
      ∧ splitOn sep (x ++ y) = front ++ (last ++ first) :: back := by
  obtain ⟨first, back, hy⟩ := List.exists_cons_of_ne_nil (splitOn_ne_nil sep y)
  induction x with
  | nil => exact ⟨[], [], first, back, rfl, hy, hy⟩
  | cons c x ih =>
    obtain ⟨front, last, first, back, hx, hy, hboth⟩ := ih
    rw [List.cons_append, splitOn, splitOn, hx, hboth]
    by_cases hc : c = sep
    · exact ⟨[] :: front, last, first, back, by simp [hc], hy, by simp [hc]⟩
    · cases front with
      | nil => exact ⟨[], c :: last, first, back, by simp [hc], hy, by simp [hc]⟩
      | cons piece front =>
        exact ⟨(c :: piece) :: front, last, first, back, by simp [hc], hy, by simp [hc]⟩

theorem unlines_cons (line : Text) {rest : List Text} (h : rest ≠ []) :
    unlines (line :: rest) = line ++ '\n' :: unlines rest := by
  obtain ⟨next, more, rfl⟩ := List.exists_cons_of_ne_nil h
  rw [unlines, join, List.intercalate_cons_cons, List.append_assoc]
  rfl

theorem unlines_append {a b : List Text} (ha : a ≠ []) (hb : b ≠ []) :
    unlines (a ++ b) = unlines a ++ '\n' :: unlines b := by
  induction a with
  | nil => exact absurd rfl ha
  | cons line a ih =>
    cases a with
    | nil => simpa [unlines, join] using unlines_cons line hb
    | cons next more =>
      have hmore : next :: more ≠ [] := List.cons_ne_nil next more
      rw [List.cons_append, unlines_cons line (by simp), ih hmore, unlines_cons line hmore,
        List.append_assoc, List.cons_append]

theorem unlines_append_unlines (a : List Text) {b : List Text} (hb : b ≠ []) :
    unlines (a ++ [unlines b]) = unlines (a ++ b) := by
  cases a with
  | nil => simp [unlines, join]
  | cons line a =>
    rw [unlines_append (List.cons_ne_nil line a) hb,
      unlines_append (List.cons_ne_nil line a) (List.cons_ne_nil _ _)]
    simp [unlines, join]

theorem unlines_prefix (a b : List Text) : unlines a <+: unlines (a ++ b) := by
  by_cases ha : a = []
  · rw [ha]
    exact List.nil_prefix
  · by_cases hb : b = []
    · simp [hb]
    · rw [unlines_append ha hb]
      exact List.prefix_append ..

theorem unlines_suffix (a b : List Text) : unlines b <:+ unlines (a ++ b) := by
  by_cases hb : b = []
  · rw [hb]
    exact List.nil_suffix
  · by_cases ha : a = []
    · simp [ha]
    · rw [unlines_append ha hb]
      exact (List.suffix_cons '\n' (unlines b)).trans (List.suffix_append ..)

theorem lines_ne_nil (text : Text) : lines text ≠ [] := splitOn_ne_nil '\n' text

theorem newline_not_mem_lines {text line : Text} (h : line ∈ lines text) : '\n' ∉ line :=
  not_mem_of_mem_splitOn h

theorem lines_unlines {pieces : List Text} (hne : pieces ≠ []) (h : ∀ line ∈ pieces, '\n' ∉ line) :
    lines (unlines pieces) = pieces := splitOn_join hne h

/-- A line feed ends the lines before it and starts those after it. -/
theorem lines_append (x y : Text) : lines (x ++ '\n' :: y) = lines x ++ lines y := by
  have hx := lines_ne_nil x
  have hy := lines_ne_nil y
  have hjoin : unlines (lines x ++ lines y) = x ++ '\n' :: y := by
    rw [unlines_append hx hy, unlines_lines, unlines_lines]
  rw [← hjoin, lines_unlines (by simp [hx])]
  intro line hline
  rcases List.mem_append.1 hline with hline | hline
  · exact newline_not_mem_lines hline
  · exact newline_not_mem_lines hline

theorem lines_eq_cons {text line : Text} {more : List Text} (h : lines text = line :: more) :
    text = line ++ if more = [] then [] else '\n' :: unlines more := by
  rw [← unlines_lines text, h]
  split_ifs with hmore
  · simp [hmore, unlines, join]
  · exact unlines_cons line hmore

theorem lines_cons_newline (text : Text) : lines ('\n' :: text) = [] :: lines text := by
  simp [lines, splitOn]

theorem lines_cons {c : Char} (hc : c ≠ '\n') {text line : Text} {more : List Text}
    (h : lines text = line :: more) : lines (c :: text) = (c :: line) :: more := by
  rw [lines] at h ⊢
  rw [splitOn, if_neg hc, h]

theorem lines_cons_inv {c : Char} {text line : Text} {more : List Text}
    (h : lines (c :: text) = line :: more) (hline : 0 < line.length) :
    c ≠ '\n' ∧ ∃ first, line = c :: first ∧ lines text = first :: more := by
  have hc : c ≠ '\n' := by
    rintro rfl
    rw [lines_cons_newline] at h
    obtain ⟨rfl, -⟩ := List.cons.inj h
    simp at hline
  obtain ⟨first, later, htext⟩ := List.exists_cons_of_ne_nil (lines_ne_nil text)
  rw [lines_cons hc htext] at h
  obtain ⟨rfl, rfl⟩ := List.cons.inj h
  exact ⟨hc, first, rfl, htext⟩

theorem lines_unlines_flatMap {pieces : List Text} (h : pieces ≠ []) :
    lines (unlines pieces) = pieces.flatMap lines := by
  induction pieces with
  | nil => exact absurd rfl h
  | cons piece rest ih =>
    cases rest with
    | nil => simp [unlines, join]
    | cons next more =>
      have hmore : next :: more ≠ [] := List.cons_ne_nil next more
      rw [unlines_cons piece hmore, lines_append, ih hmore]
      rfl

theorem flatMap_lines {pieces : List Text} (h : ∀ line ∈ pieces, '\n' ∉ line) :
    pieces.flatMap lines = pieces := by
  induction pieces with
  | nil => rfl
  | cons piece rest ih =>
    obtain ⟨hpiece, hrest⟩ := List.forall_mem_cons.1 h
    have hline : lines piece = [piece] := splitOn_of_not_mem hpiece
    rw [List.flatMap_cons, ih hrest, hline, List.singleton_append]

theorem lines_append_of_not_mem {x y line : Text} {more : List Text} (hx : '\n' ∉ x)
    (h : lines y = line :: more) : lines (x ++ y) = (x ++ line) :: more := by
  induction x with
  | nil => exact h
  | cons c x ih =>
    obtain ⟨hc, hx⟩ := not_or.1 (mt List.mem_cons.2 hx)
    exact lines_cons (Ne.symm hc) (ih hx)

theorem infix_unlines {piece : Text} {pieces : List Text} (h : piece ∈ pieces) :
    piece <:+: unlines pieces := by
  obtain ⟨front, back, rfl⟩ := List.append_of_mem h
  have hback : piece <+: unlines (piece :: back) := by
    simpa [unlines, join] using unlines_prefix [piece] back
  exact hback.isInfix.trans (unlines_suffix front (piece :: back)).isInfix

theorem infix_of_mem_lines {line text : Text} (h : line ∈ lines text) : line <:+: text := by
  rw [← unlines_lines text]
  exact infix_unlines h

/-- A text without line feeds occurs in another one exactly if it occurs in one of its lines. -/
theorem infix_iff_lines {needle text : Text} (h : '\n' ∉ needle) :
    needle <:+: text ↔ ∃ line ∈ lines text, needle <:+: line := by
  constructor
  · rintro ⟨front, back, rfl⟩
    induction front with
    | nil =>
      obtain ⟨line, more, hlines⟩ := List.exists_cons_of_ne_nil (lines_ne_nil back)
      rw [List.nil_append, lines_append_of_not_mem h hlines]
      exact ⟨_, List.mem_cons_self, (List.prefix_append needle line).isInfix⟩
    | cons c front ih =>
      obtain ⟨line, hline, hneedle⟩ := ih
      rw [List.cons_append, List.cons_append]
      by_cases hc : c = '\n'
      · rw [hc, lines_cons_newline]
        exact ⟨line, List.mem_cons_of_mem _ hline, hneedle⟩
      · obtain ⟨first, more, hlines⟩ :=
          List.exists_cons_of_ne_nil (lines_ne_nil (front ++ needle ++ back))
        rw [hlines] at hline
        rw [lines_cons hc hlines]
        rcases List.mem_cons.1 hline with rfl | hline
        · exact ⟨c :: line, List.mem_cons_self, hneedle.trans (List.suffix_cons c line).isInfix⟩
        · exact ⟨line, List.mem_cons_of_mem _ hline, hneedle⟩
  · rintro ⟨line, hline, hneedle⟩
    exact hneedle.trans (infix_of_mem_lines hline)

theorem prefix_of_not_mem {m s v : Text} {c : Char} (hc : c ∉ m) (h : m <+: s ++ c :: v) :
    m <+: s := by
  rcases List.prefix_or_prefix_of_prefix h (List.prefix_append s (c :: v)) with hm | ⟨k, rfl⟩
  · exact hm
  · rw [List.prefix_append_right_inj] at h
    cases k with
    | nil => simp
    | cons d k =>
      obtain ⟨rfl, -⟩ := List.cons_prefix_cons.1 h
      simp at hc

theorem prefix_of_not_mem_tail {m s v : Text} {c : Char} (hc : c ∉ m.tail) (hs : s ≠ [])
    (h : m <+: s ++ c :: v) : m <+: s := by
  obtain ⟨e, s, rfl⟩ := List.exists_cons_of_ne_nil hs
  cases m with
  | nil => exact List.nil_prefix
  | cons d m =>
    obtain ⟨rfl, htail⟩ := List.cons_prefix_cons.1 h
    exact List.cons_prefix_cons.2 ⟨rfl, prefix_of_not_mem hc htail⟩

theorem infix_append_cons {m u v : Text} {c : Char} (hc : c ∉ m.tail) (h : m <:+: u ++ c :: v) :
    m <:+: u ∨ m <:+: c :: v := by
  induction u with
  | nil => exact .inr h
  | cons e u ih =>
    rcases List.infix_cons_iff.1 h with hstart | hlater
    · exact .inl (prefix_of_not_mem_tail hc (List.cons_ne_nil e u) hstart).isInfix
    · exact (ih hlater).imp_left fun hu => List.infix_cons_iff.2 (.inr hu)

end SourceLens.Text
