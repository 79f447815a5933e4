import Mathlib.Algebra.GroupWithZero.Nat
import Mathlib.Algebra.Order.BigOperators.Group.List
import Mathlib.Algebra.Order.Group.Nat
import SourceLens.Proofs.Indented.Nesting
import SourceLens.Proofs.Indented.Unread

/-!
# Functions and their outline entries

A text is read twice for functions: `functions` describes every definition, and `outline` has an
entry for each definition that has a name. Both go through the same logical lines, so the described
functions with a name of their own are the function entries of the outline, in order, and an entry
inside another one has no more branches (`functions_outline`).
-/

namespace SourceLens.Indented

open Pattern

theorem zip_filterMap {α β γ : Type} {f : α → Option β} {g : α → Option γ} {xs : List α}
    (h : ∀ x ∈ xs, (f x).isSome = (g x).isSome) :
    (xs.filterMap f).zip (xs.filterMap g)
      = xs.filterMap fun x => (f x).bind fun b => (g x).map (b, ·) := by
  induction xs with
  | nil => rfl
  | cons x xs ih =>
    obtain ⟨hx, hxs⟩ := List.forall_mem_cons.1 h
    cases hf : f x <;> cases hg : g x <;> simp_all

/-! ## Branches -/

theorem branchCount_eq (body : List LogicalLine) :
    branchCount body = (body.map fun entry => (branchWord.findAll entry.code).length).sum := by
  rw [branchCount, ← List.foldl_map, List.sum_eq_foldl_nat]

theorem branchCount_le {a b : List LogicalLine} (h : a.Sublist b) : branchCount a ≤ branchCount b := by
  rw [branchCount_eq, branchCount_eq]
  exact (h.map _).sum_le_sum fun _ _ => Nat.zero_le _

theorem branchCount_block_le {logical : List LogicalLine} (h : Ordered logical)
    {e f : LogicalLine} {rest frest : List LogicalLine} (he : (e, rest) ∈ withRest logical)
    (hf : (f, frest) ∈ withRest logical) (hline : e.line ≤ f.line)
    (hwithin : f.line ≤ blockStop e rest) :
    branchCount (block f frest) ≤ branchCount (block e rest) := by
  rcases eq_or_follows h he hf hline with ⟨rfl, rfl⟩ | ⟨mid, rfl⟩
  · exact Nat.le_refl _
  · obtain ⟨front, rfl⟩ := mem_withRest_iff.1 he
    obtain ⟨more, hblock⟩ := block_of_within (h.of_append front) hwithin
    rw [hblock]
    refine branchCount_le (List.Sublist.trans ?_ (List.sublist_append_right mid _))
    exact (List.sublist_append_left _ more).cons f

/-! ## Definitions -/

def described? (text : Text) (entry : LogicalLine) (rest : List LogicalLine) : Option FunctionInfo :=
  (defStart.matchStart? entry.code).map fun found =>
    (readHeader (found.group 1) (headerText (Text.lines text) entry)).withBranches
      (branchCount (block entry rest))

theorem functions_eq (text : Text) :
    functions text = (withRest (scan text).logical).filterMap fun x => described? text x.1 x.2 := rfl

/-- The names that the definitions of a text have, in order; none for a definition without a name. -/
def headerNames (text : Text) : List (Option Text) :=
  ((scan text).logical.filter (isDef ·.code)).map (nameBy defStart ·.code)

/-- The functions of a text whose definitions have a name. -/
def namedFunctions (text : Text) : List FunctionInfo :=
  (((functions text).zip (headerNames text)).filter (·.2.isSome)).map (·.1)

/-- The entries of the outline of a text that are functions. -/
def functionEntries (text : Text) : List OutlineEntry := (outline text).filter (·.kind = .function)

/-- The outline entry of a definition that has a name. -/
def outlinedFunction? (entry : LogicalLine) (rest : List LogicalLine) : Option OutlineEntry :=
  (nameBy defStart entry.code).map fun name => .ofLines .function name entry.line (blockStop entry rest)

theorem headerNames_eq (text : Text) :
    headerNames text = (withRest (scan text).logical).filterMap fun x =>
      (defStart.matchStart? x.1.code).map fun _ => nameBy defStart x.1.code := by
  rw [headerNames]
  induction (scan text).logical with
  | nil => rfl
  | cons entry rest ih =>
    rw [withRest, List.filterMap_cons, List.filter_cons, isDef, startsAt]
    cases hfound : defStart.matchStart? entry.code with
    | none => simpa [hfound] using ih
    | some found => simpa [hfound] using ih

theorem namedFunctions_eq (text : Text) :
    namedFunctions text = (withRest (scan text).logical).filterMap fun x =>
      (nameBy defStart x.1.code).bind fun _ => described? text x.1 x.2 := by
  have hsome : ∀ x ∈ withRest (scan text).logical, (described? text x.1 x.2).isSome
      = ((defStart.matchStart? x.1.code).map fun _ => nameBy defStart x.1.code).isSome := by
    intro x _
    rw [described?, Option.isSome_map, Option.isSome_map]
  rw [namedFunctions, functions_eq, headerNames_eq, zip_filterMap hsome, List.filter_filterMap,
    List.map_filterMap]
  refine List.filterMap_congr fun x _ => ?_
  cases hfound : defStart.matchStart? x.1.code with
  | none => simp [described?, nameBy, hfound]
  | some found =>
    cases nameBy defStart x.1.code <;> simp [described?, hfound, Option.filter]

theorem functionEntries_eq (text : Text) :
    functionEntries text
      = (withRest (scan text).logical).filterMap fun x => outlinedFunction? x.1 x.2 := by
  rw [functionEntries, outline, List.filter_filterMap]
  refine List.filterMap_congr fun x _ => ?_
  rw [outlinedFunction?]
  dsimp only
  unfold outlined?
  cases hname : nameBy defStart x.1.code with
  | some name => simp [Option.filter, OutlineEntry.ofLines]
  | none =>
    cases hclass : nameBy classStart x.1.code with
    | some name => simp [Option.filter, OutlineEntry.ofLines]
    | none =>
      dsimp only
      split_ifs
      · cases (nameBy assignment x.1.code).filter (! isReserved ·) <;>
          simp [Option.filter, OutlineEntry.ofLines]
      · rfl

theorem nameBy_eq {code : Text} {found : Match} (h : defStart.matchStart? code = some found) :
    nameBy defStart code = if (found.group 1).isEmpty then none else some (found.group 1) := by
  rw [nameBy, h, Option.map_some, Option.filter_some]
  cases found.group 1 <;> rfl

theorem name_described {text : Text} {entry : LogicalLine} (h : entry ∈ (scan text).logical)
    (rest : List LogicalLine) :
    (described? text entry rest).map (·.name)
      = (defStart.matchStart? entry.code).map fun _ =>
        (nameBy defStart entry.code).getD "anonymous".toList := by
  rw [described?, Option.map_map]
  cases hfound : defStart.matchStart? entry.code with
  | none => rfl
  | some found =>
    have hname := name_readHeader h hfound
    rw [nameBy_eq hfound, Option.map_some, Option.map_some]
    simp only [Function.comp_apply, FunctionInfo.withBranches, hname]
    split_ifs <;> rfl

theorem exists_of_mem_zip {text : Text} {pair : FunctionInfo × OutlineEntry}
    (h : pair ∈ (namedFunctions text).zip (functionEntries text)) :
    ∃ x ∈ withRest (scan text).logical, pair.1.complexity = 1 + branchCount (block x.1 x.2)
      ∧ pair.2.start = x.1.line ∧ pair.2.stop = blockStop x.1 x.2 := by
  have hsome : ∀ x ∈ withRest (scan text).logical,
      ((nameBy defStart x.1.code).bind fun _ => described? text x.1 x.2).isSome
        = (outlinedFunction? x.1 x.2).isSome := by
    intro x _
    rw [outlinedFunction?, described?, Option.isSome_map]
    cases hfound : defStart.matchStart? x.1.code with
    | none => simp [nameBy, hfound]
    | some found => cases nameBy defStart x.1.code <;> rfl
  rw [namedFunctions_eq, functionEntries_eq, zip_filterMap hsome] at h
  obtain ⟨x, hx, hpair⟩ := List.mem_filterMap.1 h
  obtain ⟨info, hinfo, hpair⟩ := Option.bind_eq_some_iff.1 hpair
  obtain ⟨a, ha, rfl⟩ := Option.map_eq_some_iff.1 hpair
  obtain ⟨name, -, hinfo⟩ := Option.bind_eq_some_iff.1 hinfo
  obtain ⟨found, -, rfl⟩ := Option.map_eq_some_iff.1 hinfo
  obtain ⟨name, -, rfl⟩ := Option.map_eq_some_iff.1 ha
  obtain ⟨front, hlogical⟩ := mem_withRest_iff.1 hx
  have hordered : Ordered (x.1 :: x.2) := (hlogical ▸ (ordered_scan text).1 :).of_append front
  exact ⟨x, hx, rfl, rfl, Nat.max_eq_right (line_le_blockStop hordered)⟩

/-- For every text: the described functions have the names of their definitions, and a stand-in where
a definition has none. Those whose definition has a name are, in order, the function entries of the
outline. An entry that contains another one belongs to a function with at least as many branches. -/
theorem functions_outline (text : Text) :
    (functions text).map (·.name) = (headerNames text).map (·.getD "anonymous".toList)
      ∧ (namedFunctions text).map (·.name) = (functionEntries text).map (·.name)
      ∧ ∀ outer ∈ (namedFunctions text).zip (functionEntries text),
          ∀ inner ∈ (namedFunctions text).zip (functionEntries text),
            outer.2.Contains inner.2 → inner.1.complexity ≤ outer.1.complexity := by
  refine ⟨?_, ?_, fun outer houter inner hinner hcontains => ?_⟩
  · rw [functions_eq, headerNames_eq, List.map_filterMap, List.map_filterMap]
    refine List.filterMap_congr fun x hx => ?_
    rw [name_described (mem_of_mem_withRest hx), Option.map_map]
    rfl
  · rw [namedFunctions_eq, functionEntries_eq, List.map_filterMap, List.map_filterMap]
    refine List.filterMap_congr fun x hx => ?_
    have hname := name_described (mem_of_mem_withRest hx) x.2
    rw [outlinedFunction?, Option.map_map]
    cases hfound : defStart.matchStart? x.1.code with
    | none => simp [nameBy, hfound]
    | some found =>
      cases hown : nameBy defStart x.1.code with
      | none => rfl
      | some name => rw [Option.bind_some, hname, hfound, hown]; rfl
  · obtain ⟨x, hx, hbranches, hstart, hstop⟩ := exists_of_mem_zip houter
    obtain ⟨y, hy, hbranches', hstart', hstop'⟩ := exists_of_mem_zip hinner
    obtain ⟨hfirst, hlast⟩ := hcontains
    have hwithin : y.1.line ≤ blockStop x.1 x.2 := by
      have := inner.2.start_le_stop
      omega
    have hle := branchCount_block_le (ordered_scan text).1 hx hy (by omega) hwithin
    omega

end SourceLens.Indented
