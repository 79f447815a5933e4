import Mathlib.Data.List.Infix
import SourceLens.Proofs.Dependency
import SourceLens.Proofs.Stylesheet.Imports
import SourceLens.Proofs.Text.Lines

/-!
# Injecting imports into a sheet

New statements are put between two parts of a sheet, of which the lower one may be the whole sheet
or nothing. No reading goes on behind them, unless a name ends like an import
(`not_crosses_importLine`). So the result imports what its upper part imports, the new statements
with it, and what the lower part imports (`mem_imports_injectImports`). A sheet keeps its imports
exactly if each one is read off one of the parts alone, and it then stays as it is under a second
injection (`unharmed_injectImports_iff`).
-/

namespace SourceLens.Stylesheet

open Pattern Descriptor

/-! ## The parts of a sheet -/

/-- The number of lines above the new statements. -/
def cut (text : Text) : Nat :=
  match lastImport 0 (plainLines text) with
  | none => 0
  | some i => i + 1

def aboveLines (text : Text) : List Text := (Text.lines text).take (cut text)

def belowLines (text : Text) : List Text := (Text.lines text).drop (cut text)

/-- The imports that a sheet lacks. -/
def lacking (text : Text) (deps : List Text) : List Text :=
  Dependency.toInject importLine text deps (css.imports text)

/-- The part of the result that ends with the new statements. -/
def upper (text : Text) (deps : List Text) : Text :=
  Text.unlines (aboveLines text ++ (lacking text deps).map importLine)

/-- The part of the sheet below the new statements. -/
def lower (text : Text) : Text := Text.unlines (belowLines text)

theorem injectImports_of_lacking_nil {text : Text} {deps : List Text} (h : lacking text deps = []) :
    injectImports css text deps = text := by
  rw [lacking] at h
  rw [injectImports, h]
  rfl

theorem injectImports_eq {text : Text} {deps : List Text} (h : lacking text deps ≠ []) :
    ∃ gap, '@' ∉ gap ∧ injectImports css text deps = upper text deps ++ (gap ++ lower text) := by
  have hmap : (lacking text deps).map importLine ≠ [] := mt List.map_eq_nil_iff.1 h
  rw [injectImports, ← lacking, if_neg (mt List.isEmpty_iff.1 h), upper, lower, aboveLines,
    belowLines, cut]
  cases lastImport 0 (plainLines text) with
  | none =>
    refine ⟨"\n\n".toList, by decide, ?_⟩
    simp [generateImports, Text.unlines_lines]
  | some i =>
    simp only [generateImports]
    rw [← List.singleton_append, ← List.append_assoc]
    by_cases hdrop : (Text.lines text).drop (i + 1) = []
    · refine ⟨[], by simp, ?_⟩
      rw [hdrop, List.append_nil, Text.unlines_append_unlines _ hmap]
      simp [Text.unlines, Text.join]
    · refine ⟨['\n'], by decide, ?_⟩
      rw [Text.unlines_append (by simp) hdrop, Text.unlines_append_unlines _ hmap]
      rfl

/-! ## Readings stay in one part -/

theorem importLine_eq (dep : Text) :
    importLine dep = "@import ".toList ++ '\'' :: (dep ++ "';".toList) := by
  have hline : importLine dep = "@import '".toList ++ dep ++ "';".toList := rfl
  have hword : "@import '".toList = "@import ".toList ++ ['\''] := by decide
  rw [hline, hword, List.append_assoc, List.append_assoc, List.singleton_append]

/-- No reading goes on behind a new statement, unless its name ends with a head. -/
theorem not_crosses_importLine {head : Text → Prop} {p : Pattern} (hp : ReadsBehind head p)
    (front y : Text) {dep : Text} (hdep : ∀ c ∈ dep, isQuote c = false)
    (hends : ∀ t, t <:+ dep → ¬head t) : ¬Crosses head (front ++ importLine dep) y := by
  intro hcross
  obtain ⟨t, spec, rest, ht, hsign, hcount, hread⟩ := hp.crosses hcross
  have hquoted : '\'' :: (dep ++ "';".toList) <:+ front ++ importLine dep :=
    ⟨front ++ "@import ".toList, by rw [importLine_eq, List.append_assoc]⟩
  have htwo : ('\'' :: (dep ++ "';".toList)).countP isQuote = 2 := by
    have hnone := countP_isQuote_eq_zero.2 hdep
    have hend : "';".toList.countP isQuote = 1 := by decide
    rw [List.countP_cons, List.countP_append, hnone, hend]
    rfl
  -- the first quote of the statement lies in front of `t`
  have hinner : t <:+ dep ++ "';".toList := by
    rcases List.suffix_or_suffix_of_suffix ht hquoted with h | h
    · rcases List.suffix_cons_iff.1 h with rfl | h
      · omega
      · exact h
    · have hle := h.sublist.countP_le (p := isQuote)
      omega
  obtain ⟨s, hs⟩ := hinner
  rcases List.append_eq_append_iff.1 hs with ⟨mid, hmid, rfl⟩ | ⟨mid, rfl, hmid⟩
  · rw [List.append_assoc] at hread
    have hmid' : mid <:+ dep := ⟨s, hmid.symm⟩
    exact hends mid hmid' (hread.head_of_bare hp.bare (y := ';' :: y)
      (fun c hc => hdep c (hmid'.subset hc)) (by decide))
  · have hmem : '@' ∈ "';".toList := by
      rw [hmid]
      exact List.mem_append_right _ (List.mem_of_head? hsign)
    exact absurd hmem (by decide)

/-- A name that ends like the start of an import, up to its first quote. -/
def EndsOpen (dep : Text) : Prop := ∃ t, t <:+ dep ∧ (ImportHead t ∨ UseHead t)

theorem EndsOpen.sign_mem {dep : Text} (h : EndsOpen dep) : '@' ∈ dep := by
  obtain ⟨t, ht, hhead⟩ := h
  obtain ⟨more, rfl⟩ : ∃ more, t = '@' :: more :=
    hhead.elim readsBehind_importRule.sign readsBehind_useRule.sign
  exact ht.subset List.mem_cons_self

section

variable {text : Text} {deps : List Text} {head : Text → Prop} {p : Pattern}

theorem upper_eq {dep : Text} (h : dep ∈ (lacking text deps).getLast?) :
    ∃ front, upper text deps = front ++ importLine dep := by
  obtain ⟨init, hlacking⟩ := List.getLast?_eq_some_iff.1 h
  have hline : Text.unlines [importLine dep] = importLine dep := by simp [Text.unlines, Text.join]
  obtain ⟨front, hfront⟩ :=
    Text.unlines_suffix (aboveLines text ++ init.map importLine) [importLine dep]
  refine ⟨front, ?_⟩
  rw [upper, hlacking, List.map_append, ← List.append_assoc, ← hline, hfront]
  rfl

theorem specifiers_injectImports (hp : ReadsBehind head p) (hnew : lacking text deps ≠ [])
    (hdeps : ∀ dep ∈ lacking text deps, ∀ c ∈ dep, isQuote c = false)
    (hends : ∀ dep ∈ (lacking text deps).getLast?, ∀ t, t <:+ dep → ¬head t) :
    p.specifiers (injectImports css text deps)
      = p.specifiers (upper text deps) ++ p.specifiers (lower text) := by
  obtain ⟨gap, hgap, hresult⟩ := injectImports_eq hnew
  obtain ⟨dep, hdep⟩ := Option.isSome_iff_exists.1 (List.getLast?_isSome.2 hnew)
  obtain ⟨front, hupper⟩ := upper_eq hdep
  have hcross : ¬Crosses head (upper text deps) (gap ++ lower text) := by
    rw [hupper]
    exact not_crosses_importLine hp front _ (hdeps dep (List.mem_of_getLast? hdep)) (hends dep hdep)
  rw [hresult, hp.specifiers_append hcross, hp.specifiers_skip hgap]

theorem mem_specifiers_parts (hp : ReadsBehind head p)
    (hcross : ¬Crosses head (Text.unlines (aboveLines text)) ('\n' :: lower text)) :
    ∀ spec ∈ p.specifiers text,
      spec ∈ p.specifiers (upper text deps) ∨ spec ∈ p.specifiers (lower text) := by
  intro spec hspec
  have hlines : aboveLines text ++ belowLines text = Text.lines text := List.take_append_drop ..
  have htext : text = Text.unlines (aboveLines text ++ belowLines text) := by
    rw [hlines, Text.unlines_lines]
  have hupper : p.specifiers (Text.unlines (aboveLines text)) ⊆ p.specifiers (upper text deps) := by
    obtain ⟨more, hmore⟩ :=
      Text.unlines_prefix (aboveLines text) ((lacking text deps).map importLine)
    rw [upper, ← hmore]
    exact (hp.specifiers_prefix _ more).subset
  by_cases habove : aboveLines text = []
  · rw [htext, habove] at hspec
    exact .inr hspec
  · by_cases hbelow : belowLines text = []
    · rw [htext, hbelow, List.append_nil] at hspec
      exact .inl (hupper hspec)
    · have hgap : '@' ∉ ['\n'] := by decide
      have hlower := hp.specifiers_skip hgap (lower text)
      rw [htext, Text.unlines_append habove hbelow, ← lower, hp.specifiers_append hcross,
        ← List.singleton_append, hlower] at hspec
      exact (List.mem_append.1 hspec).imp (fun h => hupper h) id

/-- The result imports what its parts import, unless the last new name ends open. -/
theorem mem_imports_injectImports {spec : Text} (hnew : lacking text deps ≠ [])
    (hdeps : ∀ dep ∈ lacking text deps, ∀ c ∈ dep, isQuote c = false)
    (hends : ∀ dep ∈ (lacking text deps).getLast?, ¬EndsOpen dep) :
    spec ∈ css.imports (injectImports css text deps)
      ↔ spec ∈ css.imports (upper text deps) ∨ spec ∈ css.imports (lower text) := by
  have himport := specifiers_injectImports readsBehind_importRule hnew hdeps
    fun dep hdep t ht hhead => hends dep hdep ⟨t, ht, .inl hhead⟩
  have huse := specifiers_injectImports readsBehind_useRule hnew hdeps
    fun dep hdep t ht hhead => hends dep hdep ⟨t, ht, .inr hhead⟩
  rw [mem_imports, mem_imports, mem_imports, himport, huse, List.mem_append, List.mem_append,
    ← and_or_left, or_or_or_comm]

end

/-- An import statement starts above the new statements and ends below them. -/
def Severed (text : Text) : Prop :=
  Crosses ImportHead (Text.unlines (aboveLines text)) ('\n' :: lower text)
    ∨ Crosses UseHead (Text.unlines (aboveLines text)) ('\n' :: lower text)

theorem not_severed {text : Text} (h : ∀ t ∈ (Text.unlines (aboveLines text)).tails,
    t.head? = some '@' → 2 ≤ t.countP isQuote) : ¬Severed text := by
  have hcross {head : Text → Prop} {p : Pattern} (hp : ReadsBehind head p) :
      ¬Crosses head (Text.unlines (aboveLines text)) ('\n' :: lower text) := by
    intro hcross
    obtain ⟨t, -, -, ht, hsign, hcount, -⟩ := hp.crosses hcross
    have htwo := h t ((List.mem_tails ..).2 ht) hsign
    omega
  exact not_or.2 ⟨hcross readsBehind_importRule, hcross readsBehind_useRule⟩

theorem mem_imports_parts {text : Text} (h : ¬Severed text) (deps : List Text) :
    ∀ spec ∈ css.imports text,
      spec ∈ css.imports (upper text deps) ∨ spec ∈ css.imports (lower text) := by
  intro spec hspec
  obtain ⟨himport, huse⟩ := not_or.1 h
  rw [mem_imports, mem_imports, ← and_or_left, or_or_or_comm]
  obtain ⟨hne, hspec⟩ := mem_imports.1 hspec
  exact ⟨hne, hspec.imp (mem_specifiers_parts readsBehind_importRule himport spec)
    (mem_specifiers_parts readsBehind_useRule huse spec)⟩

/-! ## Unharmed sheets -/

/-- No import of a sheet is lost, and a second injection changes nothing. -/
structure Unharmed (text : Text) (deps : List Text) : Prop where
  kept : ∀ spec ∈ css.imports text, spec ∈ css.imports (injectImports css text deps)
  stable : injectImports css (injectImports css text deps) deps = injectImports css text deps

theorem infix_injectImports {text line : Text} {deps : List Text} (hnew : lacking text deps ≠ [])
    (h : line ∈ Text.lines text ∨ line ∈ (lacking text deps).map importLine) :
    line <:+: injectImports css text deps := by
  obtain ⟨gap, -, hresult⟩ := injectImports_eq hnew
  rw [hresult]
  have hupper := (List.prefix_append (upper text deps) (gap ++ lower text)).isInfix
  have hlower := ((List.suffix_append gap (lower text)).trans
    (List.suffix_append (upper text deps) (gap ++ lower text))).isInfix
  have hlines : aboveLines text ++ belowLines text = Text.lines text := List.take_append_drop ..
  rw [← hlines, List.mem_append, or_assoc] at h
  rcases h with h | h | h
  · exact (Text.infix_unlines (List.mem_append_left _ h)).trans hupper
  · exact (Text.infix_unlines h).trans hlower
  · exact (Text.infix_unlines (List.mem_append_right _ h)).trans hupper

theorem stable_of_kept {text : Text} {deps : List Text} (hdeps : ∀ dep ∈ deps, '\n' ∉ dep)
    (hkept : ∀ spec ∈ css.imports text, spec ∈ css.imports (injectImports css text deps)) :
    injectImports css (injectImports css text deps) deps = injectImports css text deps := by
  by_cases hnew : lacking text deps = []
  · rw [injectImports_of_lacking_nil hnew, injectImports_of_lacking_nil hnew]
  · apply injectImports_of_lacking_nil
    refine Dependency.toInject_again text hkept ?_ ?_
    · intro dep hdep hstands
      have hnewline : '\n' ∉ importLine dep := by
        rw [importLine_eq]
        simp [hdeps dep hdep]
      obtain ⟨line, hline, hinfix⟩ := (Text.infix_iff_lines hnewline).1 hstands
      exact hinfix.trans (infix_injectImports hnew (.inl hline))
    · intro dep hdep
      exact infix_injectImports hnew (.inr (List.mem_map_of_mem hdep))

/-- A sheet is unharmed exactly if it keeps its imports. Unless the last new name ends open, this
means that nothing is injected or that every import is read off one of the parts alone, and it holds
of every sheet in which no import statement is severed. -/
theorem unharmed_injectImports_iff (text : Text) {deps : List Text}
    (hdeps : ∀ dep ∈ deps, ∀ c ∈ dep, isQuote c = false ∧ c ≠ '\n') :
    (Unharmed text deps
        ↔ ∀ spec ∈ css.imports text, spec ∈ css.imports (injectImports css text deps))
      ∧ ((∀ dep ∈ (lacking text deps).getLast?, ¬EndsOpen dep) →
        (Unharmed text deps ↔ lacking text deps = [] ∨ ∀ spec ∈ css.imports text,
          spec ∈ css.imports (upper text deps) ∨ spec ∈ css.imports (lower text))
        ∧ (¬Severed text → Unharmed text deps)) := by
  have hnewline : ∀ dep ∈ deps, '\n' ∉ dep := fun dep hdep hmem => (hdeps dep hdep _ hmem).2 rfl
  have hkept : Unharmed text deps
      ↔ ∀ spec ∈ css.imports text, spec ∈ css.imports (injectImports css text deps) :=
    ⟨Unharmed.kept, fun h => ⟨h, stable_of_kept hnewline h⟩⟩
  have hbare : ∀ dep ∈ lacking text deps, ∀ c ∈ dep, isQuote c = false := fun dep hdep c hc =>
    (hdeps dep (Dependency.mem_toInject.1 hdep).1 c hc).1
  refine ⟨hkept, fun hends => ?_⟩
  have hparts : Unharmed text deps ↔ lacking text deps = [] ∨ ∀ spec ∈ css.imports text,
      spec ∈ css.imports (upper text deps) ∨ spec ∈ css.imports (lower text) := by
    rw [hkept]
    by_cases hnew : lacking text deps = []
    · rw [injectImports_of_lacking_nil hnew]
      exact ⟨fun _ => .inl hnew, fun _ spec hspec => hspec⟩
    · simp only [mem_imports_injectImports hnew hbare hends, hnew, false_or]
  exact ⟨hparts, fun h => hparts.2 (.inr (mem_imports_parts h deps))⟩

/-- A comment and a use statement follow the import, and one of two names is new. -/
theorem unharmed_injectImports_commented :
    (∀ dep ∈ ["a.css".toList, "x".toList], ∀ c ∈ dep, isQuote c = false ∧ c ≠ '\n')
      ∧ lacking "@import 'a.css'; /*\n*/\n@use 'b';\np".toList ["a.css".toList, "x".toList]
        = ["x".toList]
      ∧ ¬Severed "@import 'a.css'; /*\n*/\n@use 'b';\np".toList
      ∧ Unharmed "@import 'a.css'; /*\n*/\n@use 'b';\np".toList ["a.css".toList, "x".toList] := by
  have hdeps : ∀ dep ∈ ["a.css".toList, "x".toList], ∀ c ∈ dep, isQuote c = false ∧ c ≠ '\n' := by
    simp [isQuote]
  have hlacking : lacking "@import 'a.css'; /*\n*/\n@use 'b';\np".toList
      ["a.css".toList, "x".toList] = ["x".toList] := by decide +kernel
  have hsevered : ¬Severed "@import 'a.css'; /*\n*/\n@use 'b';\np".toList :=
    not_severed (by decide +kernel)
  refine ⟨hdeps, hlacking, hsevered, ((unharmed_injectImports_iff _ hdeps).2 ?_).2 hsevered⟩
  rw [hlacking]
  rintro _ ⟨⟩ hends
  exact absurd hends.sign_mem (by decide)

/-- An import over two lines is severed and lost; if it was requested with a new one, it is injected
by the second run; and a name that ends like a use statement swallows the one below. -/
theorem injectImports_severs_import :
    css.imports "@import\n  'a.css';".toList = ["a.css".toList]
      ∧ css.imports (injectImports css "@import\n  'a.css';".toList ["x".toList]) = ["x".toList]
      ∧ injectImports css (injectImports css "@import\n  'a.css';".toList
          ["a.css".toList, "x".toList]) ["a.css".toList, "x".toList]
        ≠ injectImports css "@import\n  'a.css';".toList ["a.css".toList, "x".toList]
      ∧ css.imports "p\n@use 'b';".toList = ["b".toList]
      ∧ "b".toList ∉ css.imports (injectImports css "p\n@use 'b';".toList ["@use ".toList]) := by
  decide +kernel

end SourceLens.Stylesheet
