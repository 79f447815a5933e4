import SourceLens.Handler
import SourceLens.Proofs.Indented.Completeness
import SourceLens.Proofs.Stylesheet.Injection

/-!
# Generated imports are read back

The patterns of a language read off the statements that its handler generates what they were generated
for, in order and as often: of a sheet unless a specifier has the keyword of the other pattern in it
(`Stylesheet.imports_generated`), and of an indented source as long as names are of the characters
that the patterns know (`Indented.imports_generated`).
-/

namespace SourceLens.Stylesheet

open Pattern Descriptor

/-- A specifier that can stand between the quotes of an import statement, and without the keyword of
use statements. -/
structure Quotable (dep : Text) : Prop where
  ne_nil : dep ≠ []
  bare : ∀ c ∈ dep, isQuote c = false
  no_use : ¬"@use".toList <:+: dep

theorem generateImports_cons (dep : Text) (deps : List Text) :
    ∃ sep, (sep = [] ∨ sep = ['\n']) ∧ generateImports (dep :: deps)
      = "@import ".toList ++ '\'' :: (dep ++ '\'' :: ';' :: (sep ++ generateImports deps)) := by
  cases deps with
  | nil =>
    refine ⟨[], .inl rfl, ?_⟩
    simp [generateImports, Text.unlines, Text.join, importLine_eq]
  | cons next more =>
    refine ⟨['\n'], .inr rfl, ?_⟩
    rw [generateImports, List.map_cons, Text.unlines_cons _ (by simp), ← generateImports,
      importLine_eq]
    simp

theorem specifiers_importRule {deps : List Text} (h : ∀ dep ∈ deps, Quotable dep) :
    importRule.specifiers (generateImports deps) = deps := by
  induction deps with
  | nil => rfl
  | cons dep deps ih =>
    obtain ⟨hdep, hdeps⟩ := List.forall_mem_cons.1 h
    obtain ⟨sep, hsep, htext⟩ := generateImports_cons dep deps
    have hspace : ∀ c ∈ [' '], isBlank c = true := List.forall_mem_singleton.2 (by decide)
    have hhead : ImportHead ("@import".toList ++ [' ']) := .plain (by simp) hspace
    have hread : Reads ImportHead (generateImports (dep :: deps)) dep
        (';' :: (sep ++ generateImports deps)) := by
      rw [htext]
      exact .intro hhead (by decide) hdep.ne_nil hdep.bare (by decide)
    have hskip : '@' ∉ ';' :: sep := by
      rcases hsep with rfl | rfl
      · decide
      · decide
    rw [readsBehind_importRule.specifiers_read hread, ← List.cons_append,
      readsBehind_importRule.specifiers_skip hskip, ih hdeps]

theorem use_absent {deps : List Text} (h : ∀ dep ∈ deps, Quotable dep) :
    ¬"@use".toList <:+: generateImports deps := by
  have hquote : '\'' ∉ "@use".toList.tail := by decide
  induction deps with
  | nil => decide
  | cons dep deps ih =>
    obtain ⟨hdep, hdeps⟩ := List.forall_mem_cons.1 h
    obtain ⟨sep, hsep, htext⟩ := generateImports_cons dep deps
    have hstart {c : Char} {text : Text} (hc : c ≠ '@') (hin : "@use".toList <:+: c :: text) :
        "@use".toList <:+: text :=
      (List.infix_cons_iff.1 hin).resolve_left fun hpre => hc (List.cons_prefix_cons.1 hpre).1.symm
    intro hin
    rw [htext] at hin
    rcases Text.infix_append_cons hquote hin with hword | hin
    · exact absurd hword (by decide)
    rcases Text.infix_append_cons hquote (hstart (by decide) hin) with hspec | hin
    · exact hdep.no_use hspec
    have hrest := hstart (by decide) (hstart (by decide) hin)
    rcases hsep with rfl | rfl
    · exact ih hdeps hrest
    · exact ih hdeps (hstart (by decide) hrest)

theorem specifiers_useRule {text : Text} (h : ¬"@use".toList <:+: text) :
    useRule.specifiers text = [] := by
  induction text with
  | nil => rfl
  | cons c text ih =>
    rw [List.infix_cons_iff, not_or] at h
    rw [readsBehind_useRule.specifiers_cons, ih h.2]
    intro spec rest hread
    generalize htext : c :: text = whole at hread h
    obtain @⟨_, _, _, q, r, @⟨gap, -, -⟩, -⟩ := hread
    exact h.1 (by simp)

theorem imports_generated {deps : List Text} (h : ∀ dep ∈ deps, Quotable dep) :
    css.imports (generateImports deps) = deps := by
  have himports : css.imports (generateImports deps)
      = (importRule.specifiers (generateImports deps)).filter (! ·.isEmpty)
        ++ ((useRule.specifiers (generateImports deps)).filter (! ·.isEmpty) ++ []) := rfl
  rw [himports, specifiers_importRule h, specifiers_useRule (use_absent h), List.filter_nil,
    List.append_nil, List.append_nil, List.filter_eq_self]
  intro dep hdep
  simp [(h dep hdep).ne_nil]

end SourceLens.Stylesheet

namespace SourceLens.Indented

open Pattern Descriptor

theorem findAll_generateImports {deps : List Text} (h : ∀ dep ∈ deps, Named dep) {p : Pattern}
    (hp : p ∈ python.importPatterns) :
    (p.findAll (generateImports deps)).map (·.groups)
      = deps.filterMap fun dep => p.lineGroups (importLine dep) := by
  obtain ⟨hline, hled⟩ := oneLine_importPatterns p hp
  rw [findAll_lines hline hled]
  by_cases hnil : deps = []
  · rw [hnil]
    exact List.filterMap_cons_none p.lineGroups_nil
  rw [generateImports, Text.lines_unlines (by simpa using hnil), List.filterMap_map]
  · rfl
  intro line hmem
  obtain ⟨dep, hdep, rfl⟩ := List.mem_map.1 hmem
  exact fun hnewline => (List.mem_append.1 hnewline).elim (by decide)
    ((h dep hdep).not_mem (by decide))

theorem imports_generated {deps : List Text} (h : ∀ dep ∈ deps, Named dep) :
    python.imports (generateImports deps) = deps := by
  have hgroup (p : Pattern) (text : Text) : (p.findAll text).map (·.group 1)
      = ((p.findAll text).map (·.groups)).map fun groups => (groups.lookup 1).getD [] := by
    rw [List.map_map]
    rfl
  have hfrom : (fromPattern.findAll (generateImports deps)).map (·.group 1) = [] := by
    rw [hgroup, findAll_generateImports h (by simp [python_importPatterns])]
    simp [lineGroups_from_importLine]
  have himport : (importPattern.findAll (generateImports deps)).map (·.group 1) = deps := by
    rw [hgroup, findAll_generateImports h (by simp [python_importPatterns]), List.map_filterMap]
    conv_rhs => rw [← List.filterMap_some (l := deps)]
    refine List.filterMap_congr fun dep hdep => ?_
    have hnamed := h dep hdep
    rw [lineGroups_importLine hnamed.head_not_gap, hnamed.patternName_eq, if_neg hnamed.ne_nil]
    rfl
  rw [Descriptor.imports, python_importPatterns, List.flatMap_cons, List.flatMap_cons,
    List.flatMap_nil, hfrom, himport, List.filter_nil, List.nil_append, List.append_nil,
    List.filter_eq_self]
  intro dep hdep
  simp [(h dep hdep).ne_nil]

end SourceLens.Indented

namespace SourceLens.Handler

open Pattern

/-- Of both languages, what a handler generates for a list of dependencies is read back as that list,
in order and with its repetitions. -/
theorem generated_read_back (width : Nat) :
    (∀ deps : List Text,
      (∀ dep ∈ deps, dep ≠ [] ∧ '\'' ∉ dep ∧ '"' ∉ dep ∧ ¬"@use".toList <:+: dep) →
        (⟨.css, width, .css⟩ : Handler).imports
          ((⟨.css, width, .css⟩ : Handler).generateImports deps) = deps)
      ∧ ∀ deps : List Text,
        (∀ dep ∈ deps, dep ≠ [] ∧ ∀ c ∈ dep, isWord c = true ∨ c = '.') →
          (⟨.python, width, .python⟩ : Handler).imports
            ((⟨.python, width, .python⟩ : Handler).generateImports deps) = deps := by
  constructor
  · intro deps h
    refine Stylesheet.imports_generated fun dep hdep => ?_
    obtain ⟨hne, hsingle, hdouble, huse⟩ := h dep hdep
    refine ⟨hne, fun c hc => ?_, huse⟩
    by_contra hquote
    rcases isQuote_iff.1 (Bool.not_eq_false _ ▸ hquote) with rfl | rfl
    · exact hsingle hc
    · exact hdouble hc
  · intro deps h
    refine Indented.imports_generated fun dep hdep => ?_
    obtain ⟨hne, hchars⟩ := h dep hdep
    exact ⟨hne, fun c hc => by simpa [Indented.isNameChar] using hchars c hc⟩

/-- A specifier may have an import statement in it, up to its quotes. -/
theorem generated_read_back_statements :
    (∀ dep ∈ ["a;\n@import ".toList, "b".toList, "b".toList],
        dep ≠ [] ∧ '\'' ∉ dep ∧ '"' ∉ dep ∧ ¬"@use".toList <:+: dep)
      ∧ (⟨.css, 2, .css⟩ : Handler).imports ((⟨.css, 2, .css⟩ : Handler).generateImports
          ["a;\n@import ".toList, "b".toList, "b".toList])
        = ["a;\n@import ".toList, "b".toList, "b".toList]
      ∧ (∀ dep ∈ ["import".toList, ".".toList, "os.path".toList],
        dep ≠ [] ∧ ∀ c ∈ dep, isWord c = true ∨ c = '.')
      ∧ (⟨.python, 2, .python⟩ : Handler).imports ((⟨.python, 2, .python⟩ : Handler).generateImports
          ["import".toList, ".".toList, "os.path".toList])
        = ["import".toList, ".".toList, "os.path".toList] := by
  have hsheets : ∀ dep ∈ ["a;\n@import ".toList, "b".toList, "b".toList],
      dep ≠ [] ∧ '\'' ∉ dep ∧ '"' ∉ dep ∧ ¬"@use".toList <:+: dep := by decide
  have hmodules : ∀ dep ∈ ["import".toList, ".".toList, "os.path".toList],
      dep ≠ [] ∧ ∀ c ∈ dep, isWord c = true ∨ c = '.' := by
    have hall : ∀ dep ∈ ["import".toList, ".".toList, "os.path".toList],
        dep ≠ [] ∧ dep.all (fun c => isWord c || c == '.') = true := by decide
    intro dep hdep
    obtain ⟨hne, hchars⟩ := hall dep hdep
    exact ⟨hne, fun c hc => by simpa using List.all_eq_true.1 hchars c hc⟩
  exact ⟨hsheets, (generated_read_back 2).1 _ hsheets, hmodules, (generated_read_back 2).2 _ hmodules⟩

end SourceLens.Handler
