import SourceLens.Proofs.Indented.Levels

/-!
# Suites

Block structure as a grammar: a suite is one or more items at one column, and an item is a line that
opens no block, or a line that opens one with a suite further in. Checking the indentation against a
stack of open blocks finds no problem exactly in the lines that the grammar derives, and gives them
the depths of their derivation. The stack itself is sound for all lines, also behind a problem
(`levels_iff_blockStructured`).
-/

namespace SourceLens.Indented

/-! ## The grammar -/

/-- The lines of an item at a column, each with its depth: a line that opens no block, or a line that
opens one and the items of its suite, at a column further in. -/
inductive Item : Nat → Nat → List Placed → Prop
  | line {column depth : Nat} {entry : LogicalLine} (hcolumn : entry.indent = column)
      (hplain : opensBlock entry = false) : Item column depth [(entry, depth)]
  | block {column inner depth : Nat} {entry : LogicalLine} {items : List (List Placed)}
      (hcolumn : entry.indent = column) (hopens : opensBlock entry = true) (hinner : column < inner)
      (hne : items ≠ []) (hitems : ∀ item ∈ items, Item inner (depth + 1) item) :
      Item column depth ((entry, depth) :: items.flatten)

def Suite (column depth : Nat) (placed : List Placed) : Prop :=
  ∃ items, items ≠ [] ∧ (∀ item ∈ items, Item column depth item) ∧ placed = items.flatten

/-- A suite at the left margin, or no lines at all. -/
def BlockStructured (placed : List Placed) : Prop := placed = [] ∨ Suite 0 0 placed

theorem Item.withSuite {column inner depth : Nat} {entry : LogicalLine} {suite : List Placed}
    (hcolumn : entry.indent = column) (hopens : opensBlock entry = true) (hinner : column < inner)
    (hsuite : Suite inner (depth + 1) suite) : Item column depth ((entry, depth) :: suite) := by
  obtain ⟨items, hne, hitems, rfl⟩ := hsuite
  exact .block hcolumn hopens hinner hne hitems

/-! ## The stack of open blocks -/

/-- Columns that go inwards from the left margin, the innermost first. -/
structure Inward (stack : List Nat) : Prop where
  decreasing : stack.Pairwise (· > ·)
  margin : stack.getLast? = some 0

theorem Inward.ne_nil {stack : List Nat} (h : Inward stack) : stack ≠ [] := by
  rintro rfl
  simpa using h.margin

theorem Inward.zero_mem {stack : List Nat} (h : Inward stack) : 0 ∈ stack :=
  List.mem_of_getLast? h.margin

theorem Inward.cons {stack : List Nat} (h : Inward stack) {column : Nat}
    (hcolumn : innermost stack < column) : Inward (column :: stack) := by
  obtain ⟨top, below, rfl⟩ := List.exists_cons_of_ne_nil h.ne_nil
  refine ⟨List.pairwise_cons.2 ⟨fun x hx => ?_, h.decreasing⟩, ?_⟩
  · have htop : top < column := hcolumn
    rcases List.mem_cons.1 hx with rfl | hx
    · exact htop
    · exact Nat.lt_trans ((List.pairwise_cons.1 h.decreasing).1 x hx) htop
  · rw [List.getLast?_cons_cons]
    exact h.margin

theorem Inward.dropWhile {stack : List Nat} (h : Inward stack) (column : Nat) :
    Inward (stack.dropWhile (column < ·)) := by
  have hne : stack.dropWhile (column < ·) ≠ [] :=
    List.ne_nil_of_mem (zero_mem_dropWhile h.zero_mem column)
  obtain ⟨closed, hclosed⟩ := List.dropWhile_suffix (l := stack) (column < ·)
  refine ⟨h.decreasing.sublist (List.dropWhile_sublist _), ?_⟩
  rw [← List.getLast?_append_of_ne_nil closed hne, hclosed, h.margin]

theorem Inward.place {stack : List Nat} (h : Inward stack) (expectBlock : Bool)
    (entry : LogicalLine) : Inward (place stack expectBlock entry).1 := by
  have hclosed := h.dropWhile entry.indent
  rw [Indented.place]
  by_cases hdeep : innermost stack < entry.indent
  · rw [if_pos hdeep]
    exact h.cons hdeep
  rw [if_neg hdeep]
  split_ifs with hexpect hoff
  · exact hclosed
  · -- the line stands between the block that stays open and the last one that is closed
    obtain ⟨top, below, htop⟩ := List.exists_cons_of_ne_nil hclosed.ne_nil
    have hle : ¬entry.indent < top := by
      have hhead := List.head?_dropWhile_not (entry.indent < ·) stack
      rw [htop] at hhead
      simpa using hhead
    rw [htop] at hoff
    refine hclosed.cons ?_
    rw [htop]
    simp only [innermost, List.head?_cons, Option.getD_some] at hoff ⊢
    omega
  · exact hclosed

/-- The open blocks in front of every line and behind the last one. -/
def stacksFrom : List Nat → Option LogicalLine → List LogicalLine → List (List Nat)
  | stack, _, [] => [stack]
  | stack, before, entry :: rest =>
    stack :: stacksFrom (place stack (before.any opensBlock) entry).1 (some entry) rest

theorem inward_stacksFrom (logical : List LogicalLine) :
    ∀ {stack : List Nat} {before : Option LogicalLine}, Inward stack →
      ∀ opened ∈ stacksFrom stack before logical, Inward opened := by
  induction logical with
  | nil =>
    intro stack before h opened hmem
    obtain rfl : opened = stack := by simpa [stacksFrom] using hmem
    exact h
  | cons entry rest ih =>
    intro stack before h opened hmem
    rcases List.mem_cons.1 hmem with rfl | hmem
    · exact h
    · exact ih (h.place (before.any opensBlock) entry) opened hmem

theorem levelsFrom_eq_stacks (logical : List LogicalLine) :
    ∀ (stack : List Nat) (before : Option LogicalLine),
      (levelsFrom stack before logical).1
        = (stacksFrom stack before logical).tail.map (·.length - 1) := by
  induction logical with
  | nil => exact fun stack before => (levelsFrom_nil stack before).1
  | cons entry rest ih =>
    intro stack before
    have hhead : stacksFrom (place stack (before.any opensBlock) entry).1 (some entry) rest
        = (place stack (before.any opensBlock) entry).1
          :: (stacksFrom (place stack (before.any opensBlock) entry).1 (some entry) rest).tail := by
      cases rest <;> rfl
    rw [levelsFrom, stacksFrom, List.tail_cons, hhead, List.map_cons, ← ih]

/-! ## Lines without a problem are derived -/

/-- Lines that go on with open suites, the innermost first: some items of each. -/
inductive Continues : List Nat → List Placed → Prop
  | nil : Continues [] []
  | cons {column : Nat} {below : List Nat} {items : List (List Placed)} {rest : List Placed}
      (hitems : ∀ item ∈ items, Item column below.length item) (hrest : Continues below rest) :
      Continues (column :: below) (items.flatten ++ rest)

theorem continues_nil (stack : List Nat) : Continues stack [] := by
  induction stack with
  | nil => exact .nil
  | cons column below ih => exact @Continues.cons _ _ [] _ (by simp) ih

theorem Continues.item {column : Nat} {below : List Nat} {item placed : List Placed}
    (hitem : Item column below.length item) (h : Continues (column :: below) placed) :
    Continues (column :: below) (item ++ placed) := by
  cases h with
  | @cons _ _ items rest hitems hrest =>
    rw [← List.append_assoc, ← List.flatten_cons]
    exact .cons (List.forall_mem_cons.2 ⟨hitem, hitems⟩) hrest

theorem Continues.of_dropWhile {closes : Nat → Bool} {stack : List Nat} {placed : List Placed}
    (h : Continues (stack.dropWhile closes) placed) : Continues stack placed := by
  induction stack with
  | nil => exact h
  | cons column below ih =>
    rw [List.dropWhile_cons] at h
    split_ifs at h
    · exact @Continues.cons _ _ [] _ (by simp) (ih h)
    · exact h

/-- Lines behind a line: the suite that it opens, if it opens one, and what goes on with the suites
that are open. -/
def Behind (stack : List Nat) (opens : Bool) (placed : List Placed) : Prop :=
  if opens then
    ∃ inner suite rest, innermost stack < inner ∧ Suite inner stack.length suite
      ∧ Continues stack rest ∧ placed = suite ++ rest
  else Continues stack placed

theorem Behind.item {entry : LogicalLine} {below : List Nat} {placed : List Placed}
    (h : Behind (entry.indent :: below) (opensBlock entry) placed) :
    ∃ item rest, Item entry.indent below.length item ∧ Continues (entry.indent :: below) rest
      ∧ (entry, below.length) :: placed = item ++ rest := by
  rw [Behind] at h
  split_ifs at h with hopens
  · obtain ⟨inner, suite, rest, hinner, hsuite, hrest, rfl⟩ := h
    exact ⟨(entry, below.length) :: suite, rest, .withSuite rfl hopens hinner hsuite, hrest, rfl⟩
  · exact ⟨[(entry, below.length)], placed, .line rfl (by simpa using hopens), h, rfl⟩

theorem Behind.place {stack : List Nat} (hzero : 0 ∈ stack) {expectBlock : Bool}
    {entry : LogicalLine} {placed : List Placed}
    (hfine : (place stack expectBlock entry).2 = [])
    (h : Behind (place stack expectBlock entry).1 (opensBlock entry) placed) :
    Behind stack expectBlock ((entry, (place stack expectBlock entry).1.length - 1) :: placed) := by
  have hcolumn := innermost_place hfine
  obtain ⟨hdeep, rfl, hplace⟩ | ⟨-, rfl, hplace⟩ := place_of_fine hfine
  · -- the line is the first one of the suite that is due
    rw [hplace] at h ⊢
    obtain ⟨item, rest, hitem, hrest, hcut⟩ := h.item
    cases hrest with
    | @cons _ _ items rest hitems hrest =>
      refine ⟨entry.indent, (item :: items).flatten, rest, hdeep, ⟨item :: items, by simp,
        List.forall_mem_cons.2 ⟨hitem, hitems⟩, rfl⟩, hrest, ?_⟩
      rw [List.length_cons, Nat.add_sub_cancel, hcut, List.flatten_cons, List.append_assoc]
  · -- the line is one more item of an open suite
    rw [hplace] at hcolumn h ⊢
    obtain ⟨column, below, hclosed⟩ :=
      List.exists_cons_of_ne_nil (List.ne_nil_of_mem (zero_mem_dropWhile hzero entry.indent))
    rw [hclosed] at hcolumn h ⊢
    obtain rfl : column = entry.indent := hcolumn
    obtain ⟨item, rest, hitem, hrest, hcut⟩ := h.item
    rw [List.length_cons, Nat.add_sub_cancel, hcut]
    refine @Continues.of_dropWhile (entry.indent < ·) _ _ ?_
    rw [hclosed]
    exact hrest.item hitem

theorem behind_of_levelsFrom (logical : List LogicalLine) :
    ∀ {stack : List Nat} {before : Option LogicalLine}, 0 ∈ stack →
      (levelsFrom stack before logical).2 = [] →
      Behind stack (before.any opensBlock) (logical.zip (levelsFrom stack before logical).1) := by
  induction logical with
  | nil =>
    intro stack before _ hfine
    rw [(levelsFrom_nil stack before).2] at hfine
    rw [hfine, List.zip_nil_left]
    exact continues_nil stack
  | cons entry rest ih =>
    intro stack before hzero hfine
    rw [levelsFrom] at hfine ⊢
    simp only [List.append_eq_nil_iff] at hfine
    obtain ⟨hplace, hlater⟩ := hfine
    have hzero' : 0 ∈ (place stack (before.any opensBlock) entry).1 := by
      obtain ⟨-, -, hopen⟩ | ⟨-, -, hopen⟩ := place_of_fine hplace
      · rw [hopen]
        exact List.mem_cons_of_mem _ hzero
      · rw [hopen]
        exact zero_mem_dropWhile hzero entry.indent
    exact Behind.place hzero hplace (ih hzero' hlater)

theorem blockStructured_of_levels {logical : List LogicalLine} (hfine : (levels logical).2 = []) :
    BlockStructured (logical.zip (levels logical).1) := by
  have h : Continues [0] (logical.zip (levels logical).1) :=
    @behind_of_levelsFrom logical [0] none (by simp) hfine
  generalize logical.zip (levels logical).1 = placed at h ⊢
  cases h with
  | @cons _ _ items rest hitems hrest =>
    cases hrest
    by_cases hnone : items = []
    · exact .inl (by simp [hnone])
    · exact .inr ⟨items, hnone, hitems, List.append_nil _⟩

/-! ## Derived lines have no problem -/

/-- The blocks under which a line at a column is in place: its block is due, or it is open already
and those further in are closed. -/
inductive Ready (column : Nat) (below : List Nat) : List Nat → Bool → Prop
  | due (hdeep : innermost below < column) : Ready column below below true
  | again {inner : List Nat} (hinner : ∀ x ∈ inner, column < x) :
      Ready column below (inner ++ column :: below) false

theorem Ready.place {column : Nat} {below stack : List Nat} {expectBlock : Bool}
    (h : Ready column below stack expectBlock) {entry : LogicalLine} (hcolumn : entry.indent = column) :
    place stack expectBlock entry = (column :: below, []) := by
  rw [Indented.place, hcolumn]
  cases h with
  | due hdeep =>
    rw [if_pos hdeep]
    rfl
  | @again inner hinner =>
    have hshallow : ¬innermost (inner ++ column :: below) < column := by
      cases inner with
      | nil => simp [innermost]
      | cons x inner => simpa [innermost] using Nat.le_of_lt (hinner x List.mem_cons_self)
    have hclosed : (inner ++ column :: below).dropWhile (column < ·) = column :: below := by
      rw [List.dropWhile_append_of_pos (by simpa using hinner), List.dropWhile_cons_of_neg (by simp)]
    rw [if_neg hshallow, hclosed]
    simp [innermost]

/-- Lines at a column that are in place wherever they may start: they have no problem and these
depths, and leave their block open. -/
def InPlace (column depth : Nat) (placed : List Placed) : Prop :=
  ∀ {below stack : List Nat} {before : Option LogicalLine} (rest : List LogicalLine),
    below.length = depth → Ready column below stack (before.any opensBlock) →
    ∃ stack' before', before'.any opensBlock = false ∧ Ready column below stack' false
      ∧ levelsFrom stack before (placed.map (·.1) ++ rest)
        = (placed.map (·.2) ++ (levelsFrom stack' before' rest).1, (levelsFrom stack' before' rest).2)

theorem InPlace.flatten {column depth : Nat} {items : List (List Placed)} (hne : items ≠ [])
    (h : ∀ item ∈ items, InPlace column depth item) : InPlace column depth items.flatten := by
  induction items with
  | nil => exact absurd rfl hne
  | cons item items ih =>
    intro below stack before rest hdepth hready
    obtain ⟨hitem, hitems⟩ := List.forall_mem_cons.1 h
    obtain ⟨stack', before', hplain, hready', hlevels⟩ :=
      hitem (items.flatten.map (·.1) ++ rest) hdepth hready
    rw [List.flatten_cons, List.map_append, List.append_assoc, hlevels]
    by_cases hlast : items = []
    · exact ⟨stack', before', hplain, hready', by simp [hlast]⟩
    · rw [← hplain] at hready'
      obtain ⟨stack'', before'', hplain', hready'', hlevels'⟩ := ih hlast hitems rest hdepth hready'
      refine ⟨stack'', before'', hplain', hready'', ?_⟩
      rw [hlevels', List.map_append, List.append_assoc]

theorem Item.inPlace {column depth : Nat} {item : List Placed} (h : Item column depth item) :
    InPlace column depth item := by
  induction h with
  | @line column depth entry hcolumn hplain =>
    intro below stack before rest hdepth hready
    have hagain : Ready column below ([] ++ column :: below) false := .again (by simp)
    refine ⟨column :: below, some entry, hplain, hagain, ?_⟩
    rw [List.map_singleton, List.singleton_append, levelsFrom, hready.place hcolumn]
    simp [hdepth]
  | @block column inner depth entry items hcolumn hopens hinner hne _ ih =>
    intro below stack before rest hdepth hready
    have hdue : Ready inner (column :: below) (column :: below) ((some entry).any opensBlock) := by
      rw [Option.any_some, hopens]
      exact .due hinner
    obtain ⟨stack', before', hplain, hready', hlevels⟩ :=
      InPlace.flatten hne ih rest (by rw [List.length_cons, hdepth]) hdue
    refine ⟨stack', before', hplain, ?_, ?_⟩
    · cases hready' with
      | @again deeper hdeeper =>
        rw [← List.singleton_append, ← List.append_assoc]
        refine .again fun x hx => ?_
        rcases List.mem_append.1 hx with hx | hx
        · exact Nat.lt_trans hinner (hdeeper x hx)
        · exact (List.mem_singleton.1 hx).symm ▸ hinner
    · rw [List.map_cons, List.cons_append, levelsFrom, hready.place hcolumn]
      simp only [hlevels, List.length_cons, hdepth, Nat.add_sub_cancel, List.map_cons,
        List.cons_append, List.nil_append]

theorem BlockStructured.levels_eq {placed : List Placed} (h : BlockStructured placed) :
    levels (placed.map (·.1)) = (placed.map (·.2), []) := by
  rcases h with rfl | ⟨items, hne, hitems, rfl⟩
  · rfl
  · have hready : Ready 0 [] ([] ++ [0]) ((none : Option LogicalLine).any opensBlock) :=
      .again (by simp)
    have hplaced : InPlace 0 0 items.flatten :=
      InPlace.flatten hne fun item hitem => (hitems item hitem).inPlace
    obtain ⟨stack, before, hplain, -, hlevels⟩ := hplaced [] rfl hready
    obtain ⟨hnone, hend⟩ := levelsFrom_nil stack before
    rw [List.append_nil, hnone, hend.2 hplain, List.append_nil] at hlevels
    exact hlevels

/-- For all logical lines: the indentation has no problem exactly if the lines are derived from the
grammar of suites, and then every line has the depth of its derivation. Whether there is a problem or
not, every line has one depth, that of the blocks open behind it; the open blocks always go inwards
from the left margin, and closing those further in than a column leaves the margin open. -/
theorem levels_iff_blockStructured (logical : List LogicalLine) :
    ((levels logical).2 = [] ↔ ∃ placed, BlockStructured placed ∧ placed.map (·.1) = logical)
    ∧ (∀ placed, BlockStructured placed → placed.map (·.1) = logical →
        (levels logical).1 = placed.map (·.2))
    ∧ (levels logical).1.length = logical.length
    ∧ (levels logical).1 = (stacksFrom [0] none logical).tail.map (·.length - 1)
    ∧ ∀ stack ∈ stacksFrom [0] none logical, stack ≠ [] ∧ stack.Pairwise (· > ·)
        ∧ stack.getLast? = some 0 ∧ ∀ column, stack.dropWhile (column < ·) ≠ [] := by
  have hlength : (levels logical).1.length = logical.length := length_levelsFrom [0] none logical
  refine ⟨⟨fun hfine => ⟨_, blockStructured_of_levels hfine, List.map_fst_zip hlength.ge⟩, ?_⟩, ?_,
    hlength, levelsFrom_eq_stacks logical [0] none, fun stack hstack => ?_⟩
  · rintro ⟨placed, hplaced, rfl⟩
    rw [hplaced.levels_eq]
  · rintro placed hplaced rfl
    rw [hplaced.levels_eq]
  · have hinward := inward_stacksFrom logical ⟨List.pairwise_singleton _ _, rfl⟩ stack hstack
    exact ⟨hinward.ne_nil, hinward.decreasing, hinward.margin,
      fun column => (hinward.dropWhile column).ne_nil⟩

end SourceLens.Indented
