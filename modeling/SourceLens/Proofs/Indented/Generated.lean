import SourceLens.Proofs.Indented.Definitions
import SourceLens.Proofs.Indented.Functions

/-!
# Generated functions

A function that is generated and then read comes back with its name, parameters and return type, and
with the branches of its body, which may be any text without tabs. The functions that the body defines
follow, as they are found in the body alone (`functions_generateFunction`): under a header the logical
lines of a text move, and what is read from them does not depend on where they stand.
-/

namespace SourceLens.Indented

open Pattern Descriptor

/-! ## Moved lines -/

section

variable {down width : Nat}

theorem withRest_moved (logical : List LogicalLine) :
    withRest (logical.map (LogicalLine.moved down width))
      = (withRest logical).map fun x =>
          (x.1.moved down width, x.2.map (LogicalLine.moved down width)) := by
  induction logical with
  | nil => rfl
  | cons entry rest ih => rw [List.map_cons, withRest, ih, withRest, List.map_cons]

theorem block_moved (entry : LogicalLine) (rest : List LogicalLine) :
    block (entry.moved down width) (rest.map (LogicalLine.moved down width))
      = (block entry rest).map (LogicalLine.moved down width) := by
  rw [block, List.takeWhile_map, block]
  congr 2
  funext other
  simp [LogicalLine.moved]

theorem branchCount_moved (body : List LogicalLine) :
    branchCount (body.map (LogicalLine.moved down width)) = branchCount body := by
  rw [branchCount_eq, branchCount_eq, List.map_map]
  rfl

theorem measured?_moved (entry : LogicalLine) (rest : List LogicalLine) :
    measured? (entry.moved down width) (rest.map (LogicalLine.moved down width))
      = measured? entry rest := by
  rw [measured?, block_moved, branchCount_moved]
  rfl

end

/-! ## Functions under a header -/

theorem block_headerEntry (header : Text) {width : Nat} (hwidth : 1 ≤ width) (down : Nat)
    (logical : List LogicalLine) :
    block (headerEntry header) (logical.map (LogicalLine.moved down width))
      = logical.map (LogicalLine.moved down width) := by
  refine block_eq_self fun entry hentry => ?_
  obtain ⟨source, -, rfl⟩ := List.mem_map.1 hentry
  exact Nat.lt_of_lt_of_le hwidth (Nat.le_add_left ..)

theorem headerText_first (header : Text) (more : List Text) :
    headerText (header :: more) (headerEntry header) = header := by
  simp [headerText, headerEntry, Text.unlines, Text.join]

/-- The functions of a text under the header of a function: that function, with the branches of the
text, and then those of the text. -/
theorem IsHeader.functions_under {header name : Text} (hheader : IsHeader header)
    (hnamed : DefNamed name header) {text : Text} (htab : '\t' ∉ text) {width : Nat}
    (hwidth : 1 ≤ width) :
    ∃ rest, functions (under header width text)
        = (readHeader name header).withBranches (branchCount (scan text).logical) :: rest
      ∧ rest.map (fun info => (info.name, info.complexity))
        = (functions text).map fun info => (info.name, info.complexity) := by
  obtain ⟨hlogical, -⟩ := hheader.scan_under htab width
  obtain ⟨found, hfound, hgroup⟩ := Option.map_eq_some_iff.1 hnamed.group_eq
  have hcode : (headerEntry header).code = header := rfl
  have hdescribed : described? (under header width text) (headerEntry header)
        ((scan text).logical.map (LogicalLine.moved 1 width))
      = some ((readHeader name header).withBranches (branchCount (scan text).logical)) := by
    rw [described?, hcode, hfound, Option.map_some, hgroup, lines_under hheader.newline,
      headerText_first, block_headerEntry header hwidth, branchCount_moved]
  obtain ⟨first, hmeasured⟩ : ∃ first, measured? (headerEntry header)
      ((scan text).logical.map (LogicalLine.moved 1 width)) = some first := by
    rw [measured?, hcode, hfound]
    exact ⟨_, rfl⟩
  obtain ⟨rest, hfunctions⟩ : ∃ rest, functions (under header width text)
      = (readHeader name header).withBranches (branchCount (scan text).logical) :: rest := by
    rw [functions_eq, hlogical, withRest]
    exact ⟨_, List.filterMap_cons_some hdescribed⟩
  refine ⟨rest, hfunctions, ?_⟩
  -- the names and branches of the rest are those of lines that moved
  have hread := map_functions (under header width text)
  simp only [hfunctions, hlogical, withRest, withRest_moved, List.filterMap_cons, hmeasured,
    List.filterMap_map, List.map_cons, List.cons_eq_cons] at hread
  rw [hread.2, map_functions]
  exact List.filterMap_congr fun x _ => measured?_moved x.1 x.2

/-! ## Generated functions -/

/-- For every width of at least one, name of word characters, parameters and return type that are parts
of a header, and body without tabs: reading the generated function finds first exactly the name, the
parameters and the return type, with one more than the branch words in the statements of the body, and
then the functions of the body, with their names and branches. -/
theorem functions_generateFunction {width : Nat} (hwidth : 1 ≤ width) {name : Text} (hne : name ≠ [])
    (hname : ∀ c ∈ name, isWord c = true) {params : List Text}
    (hparams : ∀ param ∈ params, Part ',' param) {returnType : Option Text}
    (hreturn : ∀ type ∈ returnType, Part ':' type) {body : Text} (htab : '\t' ∉ body) :
    ∃ first rest, functions (generateFunction width name params returnType body) = first :: rest
      ∧ first.name = name ∧ first.params = params ∧ first.returnType = returnType
      ∧ first.complexity = 1 + ((scan body).logical.map fun entry =>
          (branchWord.findAll entry.code).length).sum
      ∧ rest.map (fun info => (info.name, info.complexity))
        = (functions body).map fun info => (info.name, info.complexity) := by
  have hheader := isHeader_functionHeader hne hname hparams hreturn
  have hnamed : DefNamed name (functionHeader name params returnType) :=
    defNamed_functionHeader hne hname
  have hread := readHeader_functionHeader hne hname hparams hreturn name
  have hunder (text : Text) (htext : '\t' ∉ text) := hheader.functions_under hnamed htext hwidth
  rw [← branchCount_eq, generateFunction_eq]
  split_ifs with hempty
  · obtain rfl := List.isEmpty_iff.1 hempty
    obtain ⟨rest, hfunctions, hrest⟩ := hunder "pass".toList (by decide)
    have hpass : branchCount (scan "pass".toList).logical = branchCount (scan []).logical
        ∧ functions "pass".toList = functions [] := by decide +kernel
    rw [hpass.1, hread] at hfunctions
    exact ⟨_, rest, hfunctions, rfl, rfl, rfl, rfl, hrest.trans (by rw [hpass.2])⟩
  · obtain ⟨rest, hfunctions, hrest⟩ := hunder body htab
    rw [hread] at hfunctions
    exact ⟨_, rest, hfunctions, rfl, rfl, rfl, rfl, hrest⟩

/-- A body that defines two functions, one of them without a name, and ends in an open literal. -/
def openBody : Text := "if a and (b or\nc):\n  async def g(x): pass\n  def (y):\n    s = 'for".toList

theorem functions_generateFunction_open :
    1 ≤ 2 ∧ "run_1".toList ≠ [] ∧ (∀ c ∈ "run_1".toList, isWord c = true)
      ∧ (∀ param ∈ ["x: int=0".toList, "*args".toList], Part ',' param)
      ∧ (∀ type ∈ some "a.B or None".toList, Part ':' type) ∧ '\t' ∉ openBody
      ∧ ∃ first rest, functions (generateFunction 2 "run_1".toList ["x: int=0".toList, "*args".toList]
          (some "a.B or None".toList) openBody) = first :: rest
        ∧ first.name = "run_1".toList ∧ first.params = ["x: int=0".toList, "*args".toList]
        ∧ first.returnType = some "a.B or None".toList
        ∧ first.complexity = 1 + ((scan openBody).logical.map fun entry =>
            (branchWord.findAll entry.code).length).sum
        ∧ rest.map (fun info => (info.name, info.complexity))
          = (functions openBody).map fun info => (info.name, info.complexity) := by
  have hname : ∀ c ∈ "run_1".toList, isWord c = true := List.all_eq_true.1 (by decide)
  have hparams : ∀ param ∈ ["x: int=0".toList, "*args".toList], Part ',' param := by decide +kernel
  have hreturn : ∀ type ∈ some "a.B or None".toList, Part ':' type := by
    rintro type ⟨⟩
    decide +kernel
  have htab : '\t' ∉ openBody := by decide +kernel
  exact ⟨by decide, by decide, hname, hparams, hreturn, htab,
    functions_generateFunction (by decide) (by decide) hname hparams hreturn htab⟩

end SourceLens.Indented
