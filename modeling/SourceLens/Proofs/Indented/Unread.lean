import SourceLens.Proofs.Indented.Columns
import SourceLens.Proofs.Indented.Names
import SourceLens.Proofs.Indented.Nesting

/-!
# What the analysis does not read

Dependencies, outline, validity, and the names and branches of functions come from logical lines;
diagnostics add what a scan has to say. So none of it changes with the content of a literal or the
text of a comment (`contents_unread`). Parameters and return types do: they come from the lines as
they stand.
-/

namespace SourceLens.Indented

/-- The name and the complexity of the function that a logical line defines. -/
def measured? (entry : LogicalLine) (rest : List LogicalLine) : Option (Text × Nat) :=
  (defStart.matchStart? entry.code).map fun found =>
    (if (found.group 1).isEmpty then "anonymous".toList else found.group 1,
      1 + branchCount (block entry rest))

theorem map_functions (text : Text) :
    (functions text).map (fun info => (info.name, info.complexity))
      = (withRest (scan text).logical).filterMap fun (entry, rest) => measured? entry rest := by
  rw [functions, List.map_filterMap]
  apply List.filterMap_congr
  rintro ⟨entry, rest⟩ hmem
  simp only [measured?, Option.map_map]
  cases hfound : defStart.matchStart? entry.code with
  | none => rfl
  | some found =>
    rw [Option.map_some, Option.map_some, ← name_readHeader (mem_of_mem_withRest hmem) hfound]
    rfl

theorem remarks_perm (text : Text) :
    ((diagnose text).map (·.remark)).Perm
      ((levels (scan text).logical).2.map (·.remark) ++ (scan text).diagnostics.map (·.remark)
        ++ ((scan text).logical.filterMap headerProblem).map (·.remark)) := by
  rw [diagnose, ← List.map_append, ← List.map_append]
  exact (Diagnostic.sort_perm _).map _

theorem contents_unread {a b : Text} (h : Rewritten a b) :
    (scan a).logical = (scan b).logical ∧ dependencies a = dependencies b ∧ outline a = outline b
      ∧ importsValid a = importsValid b ∧ structureValid a = structureValid b
      ∧ (functions a).map (fun info => (info.name, info.complexity))
        = (functions b).map (fun info => (info.name, info.complexity))
      ∧ ((diagnose a).map (·.remark)).Perm ((diagnose b).map (·.remark)) := by
  obtain ⟨hlogical, hremarks⟩ := h.scan
  refine ⟨hlogical, ?_, ?_, ?_, ?_, ?_, ?_⟩
  · rw [dependencies, hlogical, dependencies]
  · rw [outline, hlogical, outline]
  · rw [importsValid, hlogical, importsValid]
  · rw [structureValid, hlogical, structureValid]
  · rw [map_functions, hlogical, map_functions]
  · refine (remarks_perm a).trans ?_
    rw [hlogical, hremarks]
    exact (remarks_perm b).symm

/-- A long literal on two lines, full of code and in front of a literal that does not end. -/
theorem contents_unread_docstring :
    Rewritten ("def f(x=')'):\n ".toList ++ '"' :: '"' :: '"' ::
        ("import os (\n\"if".toList ++ '"' :: '"' :: '"' :: "; y = 'z".toList))
      ("def f(x=')'):\n ".toList ++ '"' :: '"' :: '"' ::
        ("]]\n#".toList ++ '"' :: '"' :: '"' :: "; y = 'z".toList))
    ∧ (scan ("def f(x=')'):\n ".toList ++ '"' :: '"' :: '"' ::
        ("import os (\n\"if".toList ++ '"' :: '"' :: '"' :: "; y = 'z".toList))).logical
      = (scan ("def f(x=')'):\n ".toList ++ '"' :: '"' :: '"' ::
        ("]]\n#".toList ++ '"' :: '"' :: '"' :: "; y = 'z".toList))).logical := by
  have h := @Rewritten.long '"' "def f(x=')'):\n ".toList "import os (\n\"if".toList "]]\n#".toList
    "; y = 'z".toList rfl (by decide) (by decide) ⟨by decide, by decide, by decide, by decide⟩
  exact ⟨h, (contents_unread h).1⟩

end SourceLens.Indented
