import Mathlib.Tactic.Common
import SourceLens.Text.Utf8.Lemmas

/-!
# Characters and their offsets

The characters of a text with the offsets of their first bytes. Offsets increase, so the characters
that start between two offsets are cut at any offset in between (`between_append`), and if the two
offsets are the ends of a piece of the text, they are its characters (`between_piece`).
-/

namespace SourceLens.Utf8

theorem size_append (a b : Text) : size (a ++ b) = size a + size b := by
  rw [size, encode_append, List.length_append, size, size]

theorem size_pos {text : Text} (h : text ≠ []) : 0 < size text := by
  obtain ⟨c, text, rfl⟩ := List.exists_cons_of_ne_nil h
  have hpos := c.utf8Size_pos
  rw [size, encode, List.flatMap_cons, List.length_append, String.length_utf8EncodeChar]
  omega

theorem slice_encode (before piece after : Text) :
    Bytes.slice (size before) (size before + size piece) (encode (before ++ (piece ++ after)))
      = encode piece := by
  rw [Bytes.slice, encode_append, encode_append, size, List.drop_left, Nat.add_sub_cancel_left,
    size, List.take_left]

/-- The characters of a text that stands at an offset, each with the offset of its first byte. -/
def placed : Nat → Text → List (Nat × Char)
  | _, [] => []
  | offset, c :: rest => (offset, c) :: placed (offset + size [c]) rest

theorem placed_append (offset : Nat) (a b : Text) :
    placed offset (a ++ b) = placed offset a ++ placed (offset + size a) b := by
  induction a generalizing offset with
  | nil => rfl
  | cons c a ih =>
    have hsize : size (c :: a) = size [c] + size a := size_append [c] a
    rw [List.cons_append, placed, placed, ih, hsize, List.cons_append, Nat.add_assoc]

theorem map_snd_placed (offset : Nat) (text : Text) : (placed offset text).map (·.2) = text := by
  induction text generalizing offset with
  | nil => rfl
  | cons c text ih => rw [placed, List.map_cons, ih]

theorem placed_within {offset : Nat} {text : Text} {mark : Nat × Char} (h : mark ∈ placed offset text) :
    offset ≤ mark.1 ∧ mark.1 < offset + size text ∧ mark.2 ∈ text := by
  induction text generalizing offset with
  | nil => exact absurd h List.not_mem_nil
  | cons c text ih =>
    have hsize : size (c :: text) = size [c] + size text := size_append [c] text
    have hpos : 0 < size [c] := size_pos (List.cons_ne_nil c [])
    rcases List.mem_cons.1 h with rfl | h
    · exact ⟨Nat.le_refl _, by show offset < _; omega, List.mem_cons_self⟩
    · obtain ⟨hlow, hhigh, hmem⟩ := ih h
      exact ⟨by omega, by omega, List.mem_cons_of_mem _ hmem⟩

theorem placed_increasing (offset : Nat) (text : Text) :
    (placed offset text).Pairwise fun a b => a.1 < b.1 := by
  induction text generalizing offset with
  | nil => exact .nil
  | cons c text ih =>
    have hpos : 0 < size [c] := size_pos (List.cons_ne_nil c [])
    refine .cons (fun mark hmark => ?_) (ih _)
    have hlow := (placed_within hmark).1
    show offset < mark.1
    omega

/-- The characters of a class that start between two offsets. -/
def between (keep : Char → Bool) (text : Text) (start stop : Nat) : List (Nat × Char) :=
  (placed 0 text).filter fun mark => keep mark.2 && start ≤ mark.1 && mark.1 < stop

section Between

variable {keep : Char → Bool} {text : Text} {start middle stop : Nat}

theorem mem_between {mark : Nat × Char} : mark ∈ between keep text start stop
    ↔ mark ∈ placed 0 text ∧ keep mark.2 = true ∧ start ≤ mark.1 ∧ mark.1 < stop := by
  simp [between, List.mem_filter, and_assoc]

theorem filter_increasing {marks : List (Nat × Char)} (h : marks.Pairwise fun a b => a.1 < b.1)
    (p : Nat × Char → Bool) (middle : Nat) :
    marks.filter p = marks.filter (fun mark => p mark && mark.1 < middle)
      ++ marks.filter (fun mark => p mark && middle ≤ mark.1) := by
  induction marks with
  | nil => rfl
  | cons first rest ih =>
    obtain ⟨hfirst, hrest⟩ := List.pairwise_cons.1 h
    by_cases hlow : first.1 < middle
    · rw [List.filter_cons, ih hrest, List.filter_cons, List.filter_cons]
      cases hp : p first <;> simp [hlow]
    · -- the first one is behind the cut, and so are all others
      have hnone : rest.filter (fun mark => p mark && mark.1 < middle) = [] := by
        rw [List.filter_eq_nil_iff]
        intro mark hmark
        have := hfirst mark hmark
        simp
        omega
      rw [List.filter_cons, ih hrest, List.filter_cons, List.filter_cons, hnone]
      cases hp : p first <;> simp [hlow, Nat.le_of_not_lt hlow]

theorem between_append (hstart : start ≤ middle) (hstop : middle ≤ stop) :
    between keep text start stop = between keep text start middle ++ between keep text middle stop := by
  rw [between, filter_increasing (placed_increasing 0 text) _ middle, between, between]
  congr 1
  · apply List.filter_congr
    intro mark _
    rw [Bool.eq_iff_iff]
    simp only [Bool.and_eq_true, decide_eq_true_eq, and_assoc]
    refine and_congr_right fun _ => ?_
    omega
  · apply List.filter_congr
    intro mark _
    rw [Bool.eq_iff_iff]
    simp only [Bool.and_eq_true, decide_eq_true_eq, and_assoc]
    refine and_congr_right fun _ => ?_
    omega

theorem between_size :
    between keep text 0 (size text) = (placed 0 text).filter fun mark => keep mark.2 := by
  apply List.filter_congr
  intro mark hmark
  have hhigh : mark.1 < size text := by
    have := (placed_within hmark).2.1
    omega
  rw [decide_eq_true hhigh, decide_eq_true (Nat.zero_le _), Bool.and_true, Bool.and_true]

theorem between_increasing : (between keep text start stop).Pairwise fun a b => a.1 < b.1 :=
  (placed_increasing 0 text).filter _

theorem map_snd_filter_placed (offset : Nat) :
    ((placed offset text).filter fun mark => keep mark.2).map (·.2) = text.filter keep := by
  conv_rhs => rw [← map_snd_placed offset text, List.filter_map]
  rfl

/-- The characters of a piece of a text are those that start between its ends. -/
theorem between_piece (before piece after : Text) :
    between keep (before ++ (piece ++ after)) (size before) (size before + size piece)
      = (placed (size before) piece).filter fun mark => keep mark.2 := by
  have hnone (part : List (Nat × Char)) (h : ∀ mark ∈ part,
      ¬(size before ≤ mark.1 ∧ mark.1 < size before + size piece)) :
      part.filter (fun mark => keep mark.2 && size before ≤ mark.1
        && mark.1 < size before + size piece) = [] := by
    rw [List.filter_eq_nil_iff]
    intro mark hmark
    have := h mark hmark
    simp
    omega
  have hbefore := hnone (placed 0 before) fun mark hmark => by
    have := placed_within hmark
    omega
  have hafter := hnone (placed (size before + size piece) after) fun mark hmark => by
    have := placed_within hmark
    omega
  rw [between, placed_append, placed_append, Nat.zero_add, List.filter_append, List.filter_append,
    hbefore, hafter, List.nil_append, List.append_nil]
  apply List.filter_congr
  intro mark hmark
  obtain ⟨hlow, hhigh, -⟩ := placed_within hmark
  rw [decide_eq_true hlow, decide_eq_true hhigh, Bool.and_true, Bool.and_true]

end Between

end SourceLens.Utf8
