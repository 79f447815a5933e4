import SourceLens.Indented.Blocks
import SourceLens.Proofs.Indented.Rendering

/-!
# Depths

Lines whose indentation has no problem keep their depths when every line is moved to the column that
its depth asks for (`levelsFrom_restated`): the stack of open blocks is then the stack of the
columns `0, width, …, depth * width`, whatever the columns of the source were.
-/

namespace SourceLens.Indented

open Text (Widens)

/-- The columns of nested blocks, the innermost first. -/
def columns (width : Nat) : Nat → List Nat
  | 0 => [0]
  | depth + 1 => (depth + 1) * width :: columns width depth

@[simp] theorem length_columns (width depth : Nat) : (columns width depth).length = depth + 1 := by
  induction depth with
  | zero => rfl
  | succ depth ih => rw [columns, List.length_cons, ih]

@[simp] theorem innermost_columns (width depth : Nat) :
    innermost (columns width depth) = depth * width := by
  cases depth <;> simp [columns, innermost]

theorem dropWhile_columns {width : Nat} (hwidth : 0 < width) {level depth : Nat} (h : level ≤ depth) :
    (columns width depth).dropWhile (level * width < ·) = columns width level := by
  induction depth with
  | zero =>
    obtain rfl : level = 0 := by omega
    simp [columns]
  | succ depth ih =>
    rw [columns]
    rcases Nat.lt_or_eq_of_le h with hlt | rfl
    · have hcolumn : level * width < (depth + 1) * width := Nat.mul_lt_mul_of_pos_right hlt hwidth
      rw [List.dropWhile_cons_of_pos (by simpa using hcolumn)]
      exact ih (by omega)
    · rw [List.dropWhile_cons_of_neg (by simp), columns]

theorem place_of_fine {stack : List Nat} {expectBlock : Bool} {entry : LogicalLine}
    (h : (place stack expectBlock entry).2 = []) :
    (innermost stack < entry.indent ∧ expectBlock = true
        ∧ (place stack expectBlock entry).1 = entry.indent :: stack)
      ∨ (entry.indent ≤ innermost stack ∧ expectBlock = false
        ∧ (place stack expectBlock entry).1 = stack.dropWhile (entry.indent < ·)) := by
  rw [place] at h ⊢
  by_cases hdeep : innermost stack < entry.indent
  · rw [if_pos hdeep] at h ⊢
    cases expectBlock with
    | true => exact .inl ⟨hdeep, rfl, rfl⟩
    | false => simp at h
  · rw [if_neg hdeep] at h ⊢
    cases expectBlock with
    | true => simp at h
    | false =>
      simp only [Bool.false_eq_true, if_false] at h ⊢
      split_ifs at h ⊢
      exact .inr ⟨by omega, trivial, rfl⟩

theorem zero_mem_dropWhile {stack : List Nat} (h : 0 ∈ stack) (indent : Nat) :
    0 ∈ stack.dropWhile (indent < ·) := by
  induction stack with
  | nil => simp at h
  | cons top below ih =>
    by_cases htop : indent < top
    · rw [List.dropWhile_cons_of_pos (by simpa using htop)]
      exact ih ((List.mem_cons.1 h).resolve_left (by omega))
    · rwa [List.dropWhile_cons_of_neg (by simpa using htop)]

theorem opensBlock_widens {a b : LogicalLine} (h : Widens a.code b.code) :
    opensBlock a = opensBlock b := by
  rw [opensBlock, opensBlock, Bool.eq_iff_iff, decide_eq_true_iff, decide_eq_true_iff,
    h.getLast?_eq_iff (by decide) (by decide)]

theorem place_columns {width : Nat} (hwidth : 0 < width) {stack : List Nat} (hzero : 0 ∈ stack)
    {expectBlock : Bool} {entry entry' : LogicalLine} (h : (place stack expectBlock entry).2 = [])
    (hindent : entry'.indent = ((place stack expectBlock entry).1.length - 1) * width) :
    0 ∈ (place stack expectBlock entry).1
      ∧ place (columns width (stack.length - 1)) expectBlock entry'
        = (columns width ((place stack expectBlock entry).1.length - 1), []) := by
  have hpos : 0 < stack.length := List.length_pos_of_mem hzero
  obtain ⟨-, rfl, hplace⟩ | ⟨-, rfl, hplace⟩ := place_of_fine h
  · rw [hplace] at hindent ⊢
    obtain ⟨depth, hdepth⟩ : ∃ depth, stack.length = depth + 1 := ⟨stack.length - 1, by omega⟩
    simp only [List.length_cons, Nat.add_sub_cancel, hdepth] at hindent ⊢
    have hdeep : depth * width < (depth + 1) * width := Nat.mul_lt_mul_of_pos_right (by omega) hwidth
    refine ⟨List.mem_cons_of_mem _ hzero, ?_⟩
    rw [place, innermost_columns, hindent, if_pos hdeep, columns]
    rfl
  · rw [hplace] at hindent ⊢
    have hclosed := zero_mem_dropWhile hzero entry.indent
    set closed := stack.dropWhile (entry.indent < ·) with hset
    have hle : closed.length - 1 ≤ stack.length - 1 :=
      Nat.sub_le_sub_right (List.dropWhile_sublist _).length_le 1
    have hflat : ¬(stack.length - 1) * width < (closed.length - 1) * width :=
      Nat.not_lt.2 (Nat.mul_le_mul_right width hle)
    refine ⟨hclosed, ?_⟩
    rw [place, innermost_columns, hindent, if_neg hflat, dropWhile_columns hwidth hle]
    simp

theorem levelsFrom_nil (stack : List Nat) (before : Option LogicalLine) :
    (levelsFrom stack before []).1 = []
      ∧ ((levelsFrom stack before []).2 = [] ↔ before.any opensBlock = false) := by
  cases before with
  | none => simp [levelsFrom]
  | some before => cases h : opensBlock before <;> simp [levelsFrom, h]

theorem levelsFrom_cons (stack : List Nat) (before : Option LogicalLine) (entry : LogicalLine)
    (rest : List LogicalLine) :
    levelsFrom stack before (entry :: rest)
      = (((place stack (before.any opensBlock) entry).1.length - 1)
          :: (levelsFrom (place stack (before.any opensBlock) entry).1 (some entry) rest).1,
         (place stack (before.any opensBlock) entry).2
          ++ (levelsFrom (place stack (before.any opensBlock) entry).1 (some entry) rest).2) := by
  rw [levelsFrom]

theorem length_levelsFrom (stack : List Nat) (before : Option LogicalLine)
    (logical : List LogicalLine) : (levelsFrom stack before logical).1.length = logical.length := by
  induction logical generalizing stack before with
  | nil => rw [(levelsFrom_nil stack before).1, List.length_nil, List.length_nil]
  | cons entry rest ih => rw [levelsFrom, List.length_cons, ih, List.length_cons]

/-- Lines at the columns of their depths have those depths, and no problem. -/
theorem levelsFrom_restated {width : Nat} (hwidth : 0 < width) (logical : List LogicalLine) :
    ∀ {stack : List Nat} {before before' : Option LogicalLine} {logical' : List LogicalLine},
      0 ∈ stack → before.any opensBlock = before'.any opensBlock →
      (levelsFrom stack before logical).2 = [] →
      List.Forall₂ (fun placed entry => Restated width placed entry.statement)
        (logical.zip (levelsFrom stack before logical).1) logical' →
      levelsFrom (columns width (stack.length - 1)) before' logical'
        = ((levelsFrom stack before logical).1, []) := by
  induction logical with
  | nil =>
    intro stack before before' logical' _ hopens hfine hrestated
    obtain rfl : logical' = [] := by simpa using hrestated
    obtain ⟨hlevels, hend⟩ := levelsFrom_nil stack before
    obtain ⟨hlevels', hend'⟩ := levelsFrom_nil (columns width (stack.length - 1)) before'
    rw [hend, hopens] at hfine
    exact Prod.ext (hlevels'.trans hlevels.symm) (hend'.2 hfine)
  | cons entry rest ih =>
    intro stack before before' logical' hzero hopens hfine hrestated
    rw [levelsFrom] at hfine hrestated ⊢
    simp only [List.append_eq_nil_iff] at hfine
    obtain ⟨hplace, hlater⟩ := hfine
    rw [List.zip_cons_cons] at hrestated
    obtain ⟨entry', rest', ⟨hindent, hcode⟩, hrest, rfl⟩ := List.forall₂_cons_left_iff.1 hrestated
    obtain ⟨hzero', hplace'⟩ := place_columns hwidth hzero hplace hindent
    have hopens' : (some entry).any opensBlock = (some entry').any opensBlock :=
      opensBlock_widens hcode
    rw [levelsFrom, ← hopens, hplace']
    simp only [ih hzero' hopens' hlater hrest, length_columns, Nat.add_sub_cancel, List.nil_append]

/-! ## The left margin -/

theorem innermost_place {stack : List Nat} {expectBlock : Bool} {entry : LogicalLine}
    (h : (place stack expectBlock entry).2 = []) :
    innermost (place stack expectBlock entry).1 = entry.indent := by
  rw [place] at h ⊢
  by_cases hdeep : innermost stack < entry.indent
  · rw [if_pos hdeep]
    rfl
  · rw [if_neg hdeep] at h ⊢
    split_ifs at h ⊢ with hexpect hclosed
    exact (not_not.1 hclosed).symm

/-- Only the outermost open block stands at the left margin. -/
def FromMargin (stack : List Nat) : Prop :=
  ∃ inner, stack = inner ++ [0] ∧ ∀ column ∈ inner, 0 < column

theorem FromMargin.place {stack : List Nat} (hstack : FromMargin stack) {expectBlock : Bool}
    {entry : LogicalLine} (h : (place stack expectBlock entry).2 = []) :
    FromMargin (place stack expectBlock entry).1 := by
  obtain ⟨inner, rfl, hinner⟩ := hstack
  obtain ⟨hdeep, -, hplace⟩ | ⟨-, -, hplace⟩ := place_of_fine h
  · rw [hplace]
    exact ⟨entry.indent :: inner, rfl, List.forall_mem_cons.2 ⟨by omega, hinner⟩⟩
  · rw [hplace]
    refine ⟨inner.dropWhile (entry.indent < ·), ?_, fun column hcolumn =>
      hinner column ((List.dropWhile_sublist _).subset hcolumn)⟩
    rw [List.dropWhile_append]
    split_ifs with hempty
    · rw [List.isEmpty_iff.1 hempty]
      rfl
    · rfl

theorem FromMargin.innermost_eq_zero {stack : List Nat} (h : FromMargin stack) :
    innermost stack = 0 ↔ stack.length - 1 = 0 := by
  obtain ⟨inner, rfl, hinner⟩ := h
  cases inner with
  | nil => simp [innermost]
  | cons column inner =>
    have hpos := hinner column List.mem_cons_self
    simp [innermost]
    omega

theorem margin_levelsFrom (logical : List LogicalLine) :
    ∀ {stack : List Nat} {before : Option LogicalLine}, FromMargin stack →
      (levelsFrom stack before logical).2 = [] →
      ∀ placed ∈ logical.zip (levelsFrom stack before logical).1,
        placed.1.indent = 0 ↔ placed.2 = 0 := by
  induction logical with
  | nil => simp
  | cons entry rest ih =>
    intro stack before hstack hfine placed hplaced
    rw [levelsFrom] at hfine hplaced
    simp only [List.append_eq_nil_iff] at hfine
    obtain ⟨hplace, hlater⟩ := hfine
    have hnext := hstack.place hplace
    rw [List.zip_cons_cons] at hplaced
    rcases List.mem_cons.1 hplaced with rfl | hplaced
    · rw [← hnext.innermost_eq_zero, innermost_place hplace]
    · exact ih hnext hlater placed hplaced

end SourceLens.Indented
