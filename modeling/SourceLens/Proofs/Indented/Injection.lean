import SourceLens.Proofs.Dependency
import SourceLens.Proofs.Indented.Imports

/-!
# Injecting imports

`slot` says where statements are put into the lines of a text: nothing is under way there, or the
lines end (`slot_idle`). So every line stays, and every import that the text has is one of the result
(`existingImports_kept`). Injecting again therefore finds nothing to inject
(`injectImports_idempotent`).
-/

namespace SourceLens.Indented

open Descriptor

/-! ## The slot -/

/-- How statements are put into lines: the lines above them, blank lines just before and after them,
and the lines below. -/
structure Slot where
  above : List Text
  lead : List Text
  trail : List Text
  below : List Text

/-- Where the imports that a text lacks are put. -/
def slot (text : Text) : Slot :=
  let logical := (scan text).logical
  let lines := Text.lines text
  match lastImportStop (afterDocstring logical) with
  | some stop =>
    { above := lines.take (stop + 1), lead := [], trail := [], below := lines.drop (stop + 1) }
  | none =>
    match docstringStop logical with
    | none => { above := [], lead := [], trail := [[]], below := lines }
    | some stop =>
      { above := lines.take (stop + 1)
        lead := [[]]
        trail := if (lines.drop (stop + 1)).head?.any (! Text.allBlank ·) then [[]] else []
        below := lines.drop (stop + 1) }

theorem slot_lines (text : Text) : (slot text).above ++ (slot text).below = Text.lines text := by
  rw [slot]
  split
  · exact List.take_append_drop ..
  · split
    · rfl
    · exact List.take_append_drop ..

theorem slot_blank (text : Text) : ∀ line ∈ (slot text).lead ++ (slot text).trail, line = [] := by
  rw [slot]
  split
  · simp
  · split
    · simp
    · split_ifs <;> simp

/-- The imports that a text lacks. -/
def lacking (text : Text) (deps : List Text) : List Text :=
  Dependency.toInject importLine text deps (existingImports python text)

theorem injectImports_of_lacking_nil {text : Text} {deps : List Text} (h : lacking text deps = []) :
    injectImports python text deps = text := by
  rw [lacking] at h
  rw [injectImports, h]
  rfl

theorem lines_injectImports {text : Text} {deps : List Text} (h : lacking text deps ≠ [])
    (hdeps : ∀ dep ∈ lacking text deps, '\n' ∉ dep) :
    Text.lines (injectImports python text deps)
      = (slot text).above
        ++ ((slot text).lead ++ (lacking text deps).map importLine ++ (slot text).trail)
        ++ (slot text).below := by
  have hstatements : Text.lines (generateImports (lacking text deps))
      = (lacking text deps).map importLine := by
    refine Text.lines_unlines (mt List.map_eq_nil_iff.1 h) fun line hline => ?_
    obtain ⟨dep, hdep, rfl⟩ := List.mem_map.1 hline
    exact fun hmem => (List.mem_append.1 hmem).elim (by decide) (hdeps dep hdep)
  have hparts (stop : Nat) : ((Text.lines text).take stop).flatMap Text.lines
        = (Text.lines text).take stop
      ∧ ((Text.lines text).drop stop).flatMap Text.lines = (Text.lines text).drop stop :=
    ⟨Text.flatMap_lines fun line hline => Text.newline_not_mem_lines (List.mem_of_mem_take hline),
      Text.flatMap_lines fun line hline => Text.newline_not_mem_lines (List.mem_of_mem_drop hline)⟩
  have hnil : Text.lines [] = [[]] := rfl
  rw [injectImports, ← lacking, if_neg (mt List.isEmpty_iff.1 h), slot]
  cases lastImportStop (afterDocstring (scan text).logical) with
  | some stop =>
    simp only [insertAfter]
    rw [Text.lines_unlines_flatMap (by simp)]
    simp [hparts, hstatements]
  | none =>
    cases docstringStop (scan text).logical with
    | none =>
      have htop : generateImports (lacking text deps) ++ "\n\n".toList ++ text
          = generateImports (lacking text deps) ++ '\n' :: ([] ++ '\n' :: text) := by simp
      simp only [htop, Text.lines_append, hstatements, hnil]
      simp
    | some stop =>
      simp only [insertAfter]
      rw [Text.lines_unlines_flatMap (by simp)]
      split_ifs <;> simp [hparts, hstatements, hnil]

theorem mem_of_lastImportStop {logical : List LogicalLine} {stop : Nat}
    (h : lastImportStop logical = some stop) : ∃ e ∈ logical, e.stop = stop := by
  obtain ⟨e, he, rfl⟩ := Option.map_eq_some_iff.1 h
  exact ⟨e, List.takeWhile_subset _ (List.mem_of_getLast? he), rfl⟩

theorem mem_of_mem_afterDocstring {logical : List LogicalLine} {e : LogicalLine}
    (h : e ∈ afterDocstring logical) : e ∈ logical := by
  cases logical with
  | nil => exact h
  | cons first rest =>
    rw [afterDocstring] at h
    split_ifs at h
    · exact List.mem_cons_of_mem _ h
    · exact h

theorem mem_of_docstringStop {logical : List LogicalLine} {stop : Nat}
    (h : docstringStop logical = some stop) : ∃ e ∈ logical, e.stop = stop := by
  cases logical with
  | nil => simp [docstringStop] at h
  | cons first rest =>
    rw [docstringStop] at h
    split_ifs at h
    exact ⟨first, List.mem_cons_self, Option.some.inj h⟩

/-- Above the slot nothing is left open, or the text ends there. -/
theorem slot_idle (text : Text) :
    (({} : Reader).feedAll (slot text).above).1 = {} ∨ (slot text).below = [] := by
  have hstop {stop : Nat} (h : ∃ e ∈ (scan text).logical, e.stop = stop) :
      (({} : Reader).feedAll ((Text.lines text).take (stop + 1))).1 = {}
        ∨ (Text.lines text).drop (stop + 1) = [] := by
    obtain ⟨e, he, rfl⟩ := h
    obtain ⟨-, hidle⟩ := idle_after_stop (Text.lines text) {} 0 (by simp) e he
    exact hidle.imp id List.drop_eq_nil_of_le
  rw [slot]
  cases himport : lastImportStop (afterDocstring (scan text).logical) with
  | some stop =>
    obtain ⟨e, he, rfl⟩ := mem_of_lastImportStop himport
    exact hstop ⟨e, mem_of_mem_afterDocstring he, rfl⟩
  | none =>
    cases hdoc : docstringStop (scan text).logical with
    | none => exact .inl rfl
    | some stop => exact hstop (mem_of_docstringStop hdoc)

/-! ## Imports stay -/

theorem Reader.feedAll_plain {lines : List Text} (h : ∀ line ∈ lines, ∀ c ∈ line, isPlain c = true) :
    (({} : Reader).feedAll lines).1 = {} := by
  induction lines with
  | nil => rfl
  | cons line rest ih =>
    obtain ⟨hline, hrest⟩ := List.forall_mem_cons.1 h
    have hfeed := Reader.feed_plain {} rfl rfl hline
    rw [feedAll, hfeed]
    exact ih hrest

theorem run_insert {above plain below : List Text}
    (hidle : (({} : Reader).feedAll above).1 = {} ∨ below = [])
    (hplain : ∀ line ∈ plain, ∀ c ∈ line, isPlain c = true) :
    ∀ s ∈ (({} : Reader).run (above ++ below)).1,
      ∃ t ∈ (({} : Reader).run (above ++ plain ++ below)).1,
        t.code = s.code ∨ ∃ more, t.code = s.code ++ ' ' :: more := by
  intro s hs
  rw [Reader.run_append, List.mem_append] at hs
  rw [List.append_assoc, Reader.run_append]
  rcases hs with hs | hs
  · exact ⟨s, List.mem_append_left _ hs, .inl rfl⟩
  rcases hidle with hidle | rfl
  · rw [hidle] at hs ⊢
    rw [Reader.run_append, Reader.feedAll_plain hplain]
    exact ⟨s, List.mem_append_right _ (List.mem_append_right _ hs), .inl rfl⟩
  · rw [List.append_nil]
    have hcurrent : (({} : Reader).feedAll above).1.current = some s := by
      simpa [Reader.run, Reader.finish] using hs
    obtain ⟨t, later, hrun, -, hcode⟩ := Reader.run_of_current plain hcurrent
    exact ⟨t, List.mem_append_right _ (by rw [hrun]; exact List.mem_cons_self), hcode⟩

theorem isPlain_importLine {dep : Text} (h : ∀ c ∈ dep, isPlain c = true) :
    ∀ c ∈ importLine dep, isPlain c = true := by
  have hkeyword : ∀ c ∈ "import ".toList, isPlain c = true := List.all_eq_true.1 (by decide)
  intro c hc
  exact (List.mem_append.1 hc).elim (hkeyword c) (h c)

section

variable {text : Text} {deps : List Text} (hnew : lacking text deps ≠ [])
  (hdeps : ∀ dep ∈ lacking text deps, ∀ c ∈ dep, isPlain c = true)

include hdeps in
theorem newline_not_mem_lacking : ∀ dep ∈ lacking text deps, '\n' ∉ dep := by
  intro dep hdep hmem
  exact (isPlain_iff.1 (hdeps dep hdep _ hmem)).2.2.2.2.2 rfl

include hnew hdeps

theorem mem_lines_injectImports {line : Text} :
    line ∈ Text.lines (injectImports python text deps)
      ↔ line ∈ Text.lines text ∨ (∃ dep ∈ lacking text deps, line = importLine dep)
        ∨ line ∈ (slot text).lead ++ (slot text).trail := by
  rw [lines_injectImports hnew (newline_not_mem_lacking hdeps), ← slot_lines]
  simp only [List.mem_append, List.mem_map, eq_comm (a := line)]
  constructor
  · rintro ((h | (h | h) | h) | h)
    · exact .inl (.inl h)
    · exact .inr (.inr (.inl h))
    · exact .inr (.inl h)
    · exact .inr (.inr (.inr h))
    · exact .inl (.inr h)
  · rintro ((h | h) | h | h | h)
    · exact .inl (.inl h)
    · exact .inr h
    · exact .inl (.inr (.inl (.inr h)))
    · exact .inl (.inr (.inl (.inl h)))
    · exact .inl (.inr (.inr h))

/-- Every import of a text is one of the text with the imports that it lacked. -/
theorem existingImports_kept {dep : Text} (h : dep ∈ existingImports python text) :
    dep ∈ existingImports python (injectImports python text deps) := by
  rw [existingImports, List.mem_append] at h ⊢
  rcases h with h | h
  · obtain ⟨line, hline, hdep⟩ := mem_imports_iff_lines.1 h
    exact .inl (mem_imports_iff_lines.2
      ⟨line, (mem_lines_injectImports hnew hdeps).2 (.inl hline), hdep⟩)
  · obtain ⟨s, hs, hdep⟩ := mem_importedModules.1 h
    have hplain : ∀ line ∈ (slot text).lead ++ (lacking text deps).map importLine
        ++ (slot text).trail, ∀ c ∈ line, isPlain c = true := by
      intro line hline
      rw [List.append_assoc, List.mem_append, List.mem_append] at hline
      have hblank {line : Text} (h : line ∈ (slot text).lead ++ (slot text).trail) :
          ∀ c ∈ line, isPlain c = true := by
        rw [slot_blank text line h]
        simp
      rcases hline with hline | hline | hline
      · exact hblank (List.mem_append_left _ hline)
      · obtain ⟨dep, hdep, rfl⟩ := List.mem_map.1 hline
        exact isPlain_importLine (hdeps dep hdep)
      · exact hblank (List.mem_append_right _ hline)
    rw [scan, (scanFrom_run {} 0 _).1, ← slot_lines] at hs
    obtain ⟨t, ht, hcode⟩ := run_insert (slot_idle text) hplain s hs
    rw [← lines_injectImports hnew (newline_not_mem_lacking hdeps)] at ht
    refine .inr (mem_importedModules.2 ⟨t, ?_, ?_⟩)
    · rw [scan, (scanFrom_run {} 0 _).1]
      exact ht
    · obtain hcode | ⟨more, hcode⟩ := hcode
      · rwa [hcode]
      · rw [hcode]
        exact modulesOf_append hdep

end

/-- Injecting the same dependencies a second time changes nothing. -/
theorem injectImports_idempotent (text : Text) {deps : List Text}
    (hdeps : ∀ dep ∈ deps, dep ≠ [] ∧ ∀ c ∈ dep, isWord c = true ∨ c = '.' ∨ c = '-') :
    injectImports python (injectImports python text deps) deps
      = injectImports python text deps := by
  by_cases hnew : lacking text deps = []
  · rw [injectImports_of_lacking_nil hnew, injectImports_of_lacking_nil hnew]
  · have hplain : ∀ dep ∈ deps, ∀ c ∈ dep, isPlain c = true := by
      intro dep hdep c hc
      rcases (hdeps dep hdep).2 c hc with hword | rfl | rfl
      · exact isPlain_of_isWord hword
      · decide
      · decide
    have hlacking : ∀ dep ∈ lacking text deps, ∀ c ∈ dep, isPlain c = true := fun dep hdep =>
      hplain dep (Dependency.mem_toInject.1 hdep).1
    have hkept {line : Text} (hline : line ∈ Text.lines text) :
        line <:+: injectImports python text deps :=
      Text.infix_of_mem_lines ((mem_lines_injectImports hnew hlacking).2 (.inl hline))
    apply injectImports_of_lacking_nil
    refine Dependency.toInject_again text
      (fun dep => existingImports_kept hnew hlacking) ?_ ?_
    · intro dep hdep hstands
      have hnewline : '\n' ∉ importLine dep := fun hmem =>
        (isPlain_iff.1 (isPlain_importLine (hplain dep hdep) _ hmem)).2.2.2.2.2 rfl
      obtain ⟨line, hline, hinfix⟩ := (Text.infix_iff_lines hnewline).1 hstands
      exact hinfix.trans (hkept hline)
    · intro dep hdep
      exact Text.infix_of_mem_lines
        ((mem_lines_injectImports hnew hlacking).2 (.inr (.inl ⟨dep, hdep, rfl⟩)))

theorem injectImports_idempotent_twoDeps :
    (∀ dep ∈ ["os.path".toList, "a-b".toList],
        dep ≠ [] ∧ ∀ c ∈ dep, isWord c = true ∨ c = '.' ∨ c = '-')
      ∧ injectImports python "import re, \\".toList ["os.path".toList, "a-b".toList]
        = "import re, \\\nimport os.path\nimport a-b".toList
      ∧ injectImports python (injectImports python "import re, \\".toList
          ["os.path".toList, "a-b".toList]) ["os.path".toList, "a-b".toList]
        = injectImports python "import re, \\".toList ["os.path".toList, "a-b".toList] := by
  have hall : ∀ dep ∈ ["os.path".toList, "a-b".toList],
      dep ≠ [] ∧ dep.all (fun c => isWord c || c == '.' || c == '-') = true := by decide
  have hdeps : ∀ dep ∈ ["os.path".toList, "a-b".toList],
      dep ≠ [] ∧ ∀ c ∈ dep, isWord c = true ∨ c = '.' ∨ c = '-' := by
    intro dep hdep
    obtain ⟨hne, hchars⟩ := hall dep hdep
    exact ⟨hne, fun c hc => by simpa [or_assoc] using List.all_eq_true.1 hchars c hc⟩
  exact ⟨hdeps, by decide +kernel, injectImports_idempotent _ hdeps⟩

end SourceLens.Indented
