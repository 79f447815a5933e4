import SourceLens.Proofs.Pattern.Introduced
import SourceLens.Proofs.Text.Blanks
import SourceLens.Proofs.Text.Identifiers
import SourceLens.Proofs.Text.Lines
import SourceLens.Script.Edit

/-!
# What is read of generated imports

The pattern of bound imports reads off generated statements what they were generated for
(`specifiersFrom_bound`). The pattern of imports for their effects reads the rest of a statement,
where a specifier ends with the word that statements start with: behind it stands a quote, and the
pattern takes that for the opening one (`specifiersFrom_effect`). So generated imports are read back
exactly if this happens to no specifier but the last one (`imports_generateImports`).
-/

namespace SourceLens.Script

open Pattern Descriptor

/-- The descriptor of a dialect. -/
def Dialect.descriptor : Dialect → Descriptor
  | typescript => .typescript
  | javascript => .javascript

/-! ## The patterns -/

def boundHead : Pattern :=
  chain [wordEdge, lit "import", blanks1, opt (chain [lit "type", blanks1]),
    opt (chain [scriptName, blanks, lit ",", blanks]),
    oneOf [chain [lit "*", blanks, lit "as", blanks1, scriptName],
      chain [lit "\x7b", many (noneOf "\x7d"), lit "\x7d"],
      scriptName],
    blanks, lit "from", blanks]

/-- An import for its effects up to its first quote. -/
def effectHead : Pattern := chain [wordEdge, lit "import", blanks]

theorem run_importFrom : importFrom.run = (seq boundHead specifier).run := rfl

theorem run_importBare : importBare.run = (seq effectHead specifier).run := rfl

theorem not_isQuote_of_isWord {c : Char} (h : isWord c = true) : isQuote c = false := by
  by_contra hquote
  rcases isQuote_iff.1 (Bool.not_eq_false _ ▸ hquote) with rfl | rfl
  · exact absurd h (by decide)
  · exact absurd h (by decide)

theorem quoteFree_effectHead : QuoteFree effectHead :=
  .seq .wordEdge <| .seq (.lit (by decide)) <| .many fun _ => isBlank_of_isQuote

theorem quoteFree_boundHead : QuoteFree boundHead := by
  have hblank : ∀ c, isQuote c = true → isBlank c = false := fun _ => isBlank_of_isQuote
  have hword : ∀ c, isQuote c = true → (isWord c || c == '$') = false := by
    intro c hc
    rcases isQuote_iff.1 hc with rfl | rfl
    · decide
    · decide
  have hblanks : QuoteFree blanks := .many hblank
  have hblanks1 : QuoteFree blanks1 := .many1 hblank
  have hname : QuoteFree scriptName := .many1 hword
  have htype : QuoteFree (opt (chain [lit "type", blanks1])) :=
    .alt (.seq (.lit (by decide)) hblanks1) .empty
  have hfirst : QuoteFree (opt (chain [scriptName, blanks, lit ",", blanks])) :=
    .alt (.seq hname <| .seq hblanks <| .seq (.lit (by decide)) hblanks) .empty
  have hstar : QuoteFree (chain [lit "*", blanks, lit "as", blanks1, scriptName]) :=
    .seq (.lit (by decide)) <| .seq hblanks <| .seq (.lit (by decide)) <| .seq hblanks1 hname
  exact .seq .wordEdge <| .seq (.lit (by decide)) <| .seq hblanks1 <| .seq htype <| .seq hfirst <|
    .seq (.alt hstar (.alt (.braced _) hname)) <| .seq hblanks <| .seq (.lit (by decide)) hblanks

theorem spans_keyword {p : Pattern} {before : Option Char} {x after : Text}
    (h : (seq wordEdge (seq (lit "import") p)).Spans before x after) :
    (∃ more, x = "import".toList ++ more) ∧ before.any isWord = false := by
  obtain ⟨_, _, rfl, ⟨rfl, hedge⟩, _, more, rfl, himport, -⟩ := h
  obtain rfl := spans_lit.1 himport
  have hword : isWord 'i' = true := by decide
  refine ⟨⟨more, rfl⟩, ?_⟩
  simpa [hword] using hedge

theorem spans_effectHead {before : Option Char} {x after : Text} :
    effectHead.Spans before x after ↔ before.any isWord = false
      ∧ ∃ gap, x = "import".toList ++ gap ∧ ∀ c ∈ gap, isBlank c = true := by
  constructor
  · intro h
    refine ⟨(spans_keyword h).2, ?_⟩
    obtain ⟨_, _, rfl, ⟨rfl, -⟩, _, gap, rfl, himport, hgap⟩ := h
    exact ⟨gap, by rw [spans_lit.1 himport]; rfl, spans_many_one.1 hgap⟩
  · rintro ⟨hbefore, gap, rfl, hgap⟩
    have hword : isWord 'i' = true := by decide
    have hedge : (before.any isWord != ('i' :: ("mport".toList ++ gap ++ after)).head?.any isWord)
        = true := by
      simp [hbefore, hword]
    exact ⟨[], _, rfl, ⟨rfl, hedge⟩, _, gap, rfl, spans_lit.2 rfl, spans_many_one.2 hgap⟩

theorem spans_boundHead {before : Option Char} {middle name after : Text}
    (hbefore : before.any isWord = false) (hne : name ≠ []) (hname : ∀ c ∈ name, isWord c = true)
    (hmiddle : middle = name ∨ middle = "* as ".toList ++ name) :
    boundHead.Spans before ("import ".toList ++ middle ++ " from ".toList) after := by
  have hspace : ∀ c ∈ [' '], isBlank c = true := List.forall_mem_singleton.2 (by decide)
  have hspans {b : Option Char} {r : Text} : blanks1.Spans b [' '] r :=
    spans_many1_one.2 ⟨by simp, hspace⟩
  have hspans' {b : Option Char} {r : Text} : blanks.Spans b [' '] r := spans_many_one.2 hspace
  have hscript {b : Option Char} {r : Text} : scriptName.Spans b name r :=
    spans_many1_one.2 ⟨hne, fun c hc => by simp [hname c hc]⟩
  have hword : isWord 'i' = true := by decide
  have hedge (r : Text) : wordEdge.Spans before [] ('i' :: r) := by
    refine ⟨rfl, ?_⟩
    simp [hbefore, hword]
  have hbinding {b : Option Char} {r : Text} :
      (oneOf [chain [lit "*", blanks, lit "as", blanks1, scriptName],
        chain [lit "\x7b", many (noneOf "\x7d"), lit "\x7d"], scriptName]).Spans b middle r := by
    rcases hmiddle with rfl | rfl
    · exact .inr (.inr hscript)
    · exact .inl ⟨['*'], _, rfl, spans_lit.2 rfl, [' '], _, rfl, hspans', "as".toList, _, rfl,
        spans_lit.2 rfl, [' '], name, rfl, hspans, hscript⟩
  have htext : "import ".toList ++ middle ++ " from ".toList
      = [] ++ ("import".toList ++ ([' '] ++ ([] ++ ([] ++ (middle ++ ([' '] ++ ("from".toList
        ++ [' ']))))))) := by
    simp
  rw [htext]
  exact ⟨[], _, rfl, hedge _, _, _, rfl, spans_lit.2 rfl, _, _, rfl, hspans, _, _, rfl, .inr rfl,
    _, _, rfl, .inr rfl, _, _, rfl, hbinding, _, _, rfl, hspans', _, _, rfl, spans_lit.2 rfl,
    hspans'⟩

/-! ## The statements -/

/-- Whether a specifier ends with the word that starts an import. -/
def EndsInImport (dep : Text) : Prop :=
  ∃ front, dep = front ++ "import".toList ∧ front.getLast?.any isWord = false

theorem endsInImport_iff {dep : Text} : EndsInImport dep ↔
    "import".toList <:+ dep ∧ (dep.take (dep.length - 6)).getLast?.any isWord = false := by
  have htake (front : Text) :
      (front ++ "import".toList).take ((front ++ "import".toList).length - 6) = front := by
    rw [List.length_append]
    exact List.take_left
  constructor
  · rintro ⟨front, rfl, hfront⟩
    exact ⟨List.suffix_append .., by rwa [htake]⟩
  · rintro ⟨⟨front, rfl⟩, hfront⟩
    exact ⟨front, rfl, by rwa [htake] at hfront⟩

instance (dep : Text) : Decidable (EndsInImport dep) := decidable_of_iff _ endsInImport_iff.symm

def opening : Dialect → Text
  | .typescript => "import * as ".toList
  | .javascript => "import ".toList

/-- A generated statement up to its first quote. -/
def preamble (dialect : Dialect) (dep : Text) : Text :=
  opening dialect ++ importBinding dep ++ " from ".toList

/-- What follows the second quote of a statement: its end and the statements after it. -/
def behind (dialect : Dialect) : List Text → Text
  | [] => [';']
  | deps => ";\n".toList ++ generateImports dialect deps

/-- What the pattern of imports for their effects reads of generated statements. -/
def crossed (dialect : Dialect) : List Text → List Text
  | dep :: next :: more =>
    (if EndsInImport dep then [";\n".toList ++ preamble dialect next] else [])
      ++ crossed dialect (next :: more)
  | _ => []

theorem generateImports_cons (dialect : Dialect) (dep : Text) (deps : List Text) :
    generateImports dialect (dep :: deps)
      = preamble dialect dep ++ '\'' :: (dep ++ '\'' :: behind dialect deps) := by
  have hline : importLine dialect dep = preamble dialect dep ++ '\'' :: (dep ++ "';".toList) := by
    have hsplit : importLine dialect dep
        = opening dialect ++ importBinding dep ++ " from '".toList ++ dep ++ "';".toList := by
      cases dialect <;> rfl
    have hword : " from '".toList = " from ".toList ++ ['\''] := by decide
    rw [hsplit, preamble, hword]
    simp only [List.append_assoc, List.cons_append, List.nil_append]
  cases deps with
  | nil => simp [generateImports, Text.unlines, Text.join, hline, behind]
  | cons next more =>
    rw [generateImports, List.map_cons, Text.unlines_cons _ (by simp), ← generateImports, hline,
      behind]
    · simp
    · simp

/-! ## The characters of statements -/

/-- A text of word characters and of the given signs. -/
def MadeOf (signs text : Text) : Prop := ∀ c ∈ text, isWord c = true ∨ c ∈ signs

instance (signs text : Text) : Decidable (MadeOf signs text) :=
  decidable_of_iff (text.all (fun c => isWord c || signs.contains c) = true) <| by
    rw [List.all_eq_true, MadeOf]
    exact forall₂_congr fun c _ => by simp

section

variable {signs text : Text}

theorem MadeOf.not_of (h : MadeOf signs text) {inClass : Char → Bool}
    (hword : ∀ c, isWord c = true → inClass c = false)
    (hsigns : signs.any inClass = false) : ∀ c ∈ text, inClass c = false :=
  fun c hc => (h c hc).elim (hword c) fun hsign =>
    eq_false_of_ne_true (List.any_eq_false.1 hsigns c hsign)

theorem MadeOf.bare (h : MadeOf signs text) (hsigns : signs.any isQuote = false) :
    ∀ c ∈ text, isQuote c = false := h.not_of (fun _ => not_isQuote_of_isWord) hsigns

theorem MadeOf.not_mem (h : MadeOf signs text) {c : Char} (hc : isWord c = false)
    (hsigns : c ∉ signs) : c ∉ text := fun hmem =>
  (h c hmem).elim (fun hword => by simp [hc] at hword) hsigns

theorem MadeOf.mono (h : MadeOf signs text) {more : Text} (hsigns : signs ⊆ more) :
    MadeOf more text := fun c hc => (h c hc).imp_right (hsigns ·)

theorem MadeOf.append {x y : Text} (hx : MadeOf signs x) (hy : MadeOf signs y) :
    MadeOf signs (x ++ y) := List.forall_mem_append.2 ⟨hx, hy⟩

end

/-- What the patterns are to read back. -/
structure IsSpecifier (dep : Text) : Prop where
  ne_nil : dep ≠ []
  chars : ∀ c ∈ dep, c.isAlphanum = true ∨ c ∈ "./@_-".toList

theorem isSpecifier_iff {dep : Text} : IsSpecifier dep ↔
    dep ≠ [] ∧ dep.all (fun c => c.isAlphanum || "./@_-".toList.contains c) = true := by
  have hchars : dep.all (fun c => c.isAlphanum || "./@_-".toList.contains c) = true
      ↔ ∀ c ∈ dep, c.isAlphanum = true ∨ c ∈ "./@_-".toList := by
    rw [List.all_eq_true]
    exact forall₂_congr fun c _ => by rw [Bool.or_eq_true, List.contains_iff_mem]
  rw [hchars]
  exact ⟨fun h => ⟨h.ne_nil, h.chars⟩, fun h => ⟨h.1, h.2⟩⟩

instance (dep : Text) : Decidable (IsSpecifier dep) := decidable_of_iff _ isSpecifier_iff.symm

theorem isWord_of_isAlphanum {c : Char} (h : c.isAlphanum = true) : isWord c = true := by
  have hascii : ∀ n < 128, (Char.ofNat n).isAlphanum = true → isWord (Char.ofNat n) = true := by
    decide +kernel
  have hlt : c.toNat < 128 := by
    have hkinds : (c.isUpper || c.isLower || c.isDigit) = true := h
    rw [Bool.or_eq_true, Bool.or_eq_true] at hkinds
    have hbelow {last : Char} (hlast : last.toNat < 128) (hle : c.val ≤ last.val) :
        c.toNat < 128 := lt_of_le_of_lt (UInt32.le_iff_toNat_le.1 hle) hlast
    rcases hkinds with (hupper | hlower) | hdigit
    · exact hbelow (by decide : 'Z'.toNat < 128) (of_decide_eq_true hupper).2
    · exact hbelow (by decide : 'z'.toNat < 128) (of_decide_eq_true (Bool.and_eq_true_iff.1 hlower).2)
    · exact lt_of_le_of_lt (Char.isDigit_iff_toNat.1 hdigit).2 (by decide)
  simpa using hascii c.toNat hlt (by simpa using h)

section

variable {dep : Text} {deps : List Text} {dialect : Dialect}

theorem IsSpecifier.madeOf (h : IsSpecifier dep) : MadeOf "./@_-".toList dep := fun c hc =>
  (h.chars c hc).imp_left isWord_of_isAlphanum

theorem IsSpecifier.bare (h : IsSpecifier dep) : ∀ c ∈ dep, isQuote c = false :=
  h.madeOf.bare (by decide)

theorem IsSpecifier.not_blank (h : IsSpecifier dep) : ∀ c ∈ dep, isBlank c = false :=
  h.madeOf.not_of (fun _ => Text.not_isBlank_of_isWord) (by decide)

theorem IsSpecifier.brace_not_mem (h : IsSpecifier dep) : '\x7b' ∉ dep :=
  h.madeOf.not_mem (by decide) (by decide)

theorem isWord_of_mem_importBinding (dep : Text) : ∀ c ∈ importBinding dep, isWord c = true := by
  have hname : ∀ c ∈ Dependency.bindingName dep, isWord c = true := by
    have hfilter {segment : Text} : ∀ c ∈ segment.filter Dependency.isAsciiAlnum, isWord c = true :=
      fun c hc => isWord_of_isAlphanum (List.mem_filter.1 hc).2
    rw [Dependency.bindingName]
    split_ifs
    · exact List.forall_mem_cons.2 ⟨by decide, hfilter⟩
    · exact hfilter
  rw [importBinding]
  split_ifs
  · exact List.all_eq_true.1 (by decide)
  · exact hname

theorem importBinding_ne_nil (dep : Text) : importBinding dep ≠ [] := by
  rw [importBinding]
  split_ifs with h
  · decide
  · exact fun hnil => h (by rw [hnil]; rfl)

theorem spans_preamble (dialect : Dialect) (dep : Text) {before : Option Char} {after : Text}
    (hbefore : before.any isWord = false) : boundHead.Spans before (preamble dialect dep) after := by
  have hne := importBinding_ne_nil dep
  have hword := isWord_of_mem_importBinding dep
  cases dialect with
  | typescript =>
    have hlead : preamble .typescript dep
        = "import ".toList ++ ("* as ".toList ++ importBinding dep) ++ " from ".toList := rfl
    rw [hlead]
    exact spans_boundHead hbefore hne hword (.inr rfl)
  | javascript => exact spans_boundHead hbefore hne hword (.inl rfl)

theorem madeOf_preamble (dialect : Dialect) (dep : Text) :
    MadeOf " *".toList (preamble dialect dep) := by
  have hopening : ∀ dialect, MadeOf " *".toList (opening dialect)
    | .typescript => by decide +kernel
    | .javascript => by decide +kernel
  have hfrom : MadeOf " *".toList " from ".toList := by decide +kernel
  have hname : MadeOf " *".toList (importBinding dep) := fun c hc =>
    .inl (isWord_of_mem_importBinding dep c hc)
  exact ((hopening dialect).append hname).append hfrom

theorem preamble_bare : ∀ c ∈ preamble dialect dep, isQuote c = false :=
  (madeOf_preamble dialect dep).bare (by decide)

theorem madeOf_generateImports (h : ∀ dep ∈ deps, IsSpecifier dep) :
    MadeOf "./@_- *';\n".toList (generateImports dialect deps) := by
  induction deps with
  | nil => exact List.forall_mem_nil _
  | cons dep deps ih =>
    obtain ⟨hfirst, hrest⟩ := List.forall_mem_cons.1 h
    have hquote : MadeOf "./@_- *';\n".toList ['\''] := by decide +kernel
    have hstop : MadeOf "./@_- *';\n".toList ";\n".toList := by decide +kernel
    have hbehind : MadeOf "./@_- *';\n".toList (behind dialect deps) := by
      cases deps with
      | nil => exact fun c hc => hstop c (List.mem_append_left ['\n'] hc)
      | cons next more => exact hstop.append (ih hrest)
    have hlead : MadeOf "./@_- *';\n".toList (preamble dialect dep) :=
      (madeOf_preamble dialect dep).mono (by decide)
    have hdep : MadeOf "./@_- *';\n".toList dep := hfirst.madeOf.mono (by decide)
    rw [generateImports_cons]
    exact hlead.append (hquote.append (hdep.append (hquote.append hbehind)))

end

/-! ## What each pattern reads -/

section

variable {dialect : Dialect} {dep : Text} {deps : List Text}

/-- What stands in front of a statement: nothing, or the end of the one before it. -/
def Leading (before : Option Char) (front : Text) : Prop :=
  before = none ∧ front = [] ∨ front = ";\n".toList

theorem leading_start : Leading none [] := .inl ⟨rfl, rfl⟩

theorem leading_next (before : Option Char) : Leading before ";\n".toList := .inr rfl

theorem Leading.bare {before : Option Char} {front : Text} (h : Leading before front) :
    ∀ c ∈ front, isQuote c = false := by
  rcases h with ⟨-, rfl⟩ | rfl
  · exact List.forall_mem_nil _
  · exact countP_isQuote_eq_zero.1 (by decide)

theorem Leading.not_word {before : Option Char} {front : Text} (h : Leading before front) :
    (lastOf before front).any isWord = false := by
  rcases h with ⟨rfl, rfl⟩ | rfl
  · rfl
  · exact (by decide : isWord '\n' = false)

theorem Leading.brace_not_mem {before : Option Char} {front : Text} (h : Leading before front)
    (dialect : Dialect) (hdeps : ∀ dep ∈ deps, IsSpecifier dep) :
    '\x7b' ∉ front ++ generateImports dialect deps := by
  have htext : '\x7b' ∉ generateImports dialect deps :=
    (madeOf_generateImports hdeps).not_mem (by decide) (by decide)
  have hfront : '\x7b' ∉ front := by
    rcases h with ⟨-, rfl⟩ | rfl
    · exact List.not_mem_nil
    · decide
  exact fun hmem => (List.mem_append.1 hmem).elim hfront htext

theorem behind_cons (dialect : Dialect) (dep : Text) (deps : List Text) :
    behind dialect (dep :: deps) = ";\n".toList ++ generateImports dialect (dep :: deps) := rfl

theorem specifiersFrom_bound_cons {before : Option Char} {front : Text} (hlead : Leading before front)
    (dialect : Dialect) (h : ∀ d ∈ dep :: deps, IsSpecifier d) (offset : Nat) :
    ∃ later, (seq boundHead specifier).specifiersFrom before offset
        (front ++ generateImports dialect (dep :: deps))
      = dep :: (seq boundHead specifier).specifiersFrom (some '\'') later (behind dialect deps) := by
  have hbrace := hlead.brace_not_mem dialect h
  obtain ⟨hdep, -⟩ := List.forall_mem_cons.1 h
  rw [generateImports_cons] at hbrace ⊢
  refine specifiersFrom_read quoteFree_boundHead hbrace hlead.bare preamble_bare (by decide)
    hdep.ne_nil hdep.bare (by decide) (fun y z hyz hz hspans => ?_)
    (spans_preamble dialect dep hlead.not_word) offset
  -- a start within what stands in front is no start of the word
  obtain ⟨c, z, rfl⟩ := List.exists_cons_of_ne_nil hz
  obtain ⟨⟨more, hmore⟩, -⟩ := spans_keyword hspans
  obtain ⟨rfl, -⟩ := List.cons_eq_cons.1 hmore
  have hmem : 'i' ∈ front := hyz ▸ List.mem_append_right y List.mem_cons_self
  rcases hlead with ⟨-, rfl⟩ | rfl
  · exact absurd hmem List.not_mem_nil
  · exact absurd hmem (by decide)

theorem specifiersFrom_behind_nil {h : Pattern} (hh : QuoteFree h) (before : Option Char)
    (offset : Nat) : (seq h specifier).specifiersFrom before offset (behind dialect []) = [] :=
  (specifiersFrom_few hh (by decide) (by decide) offset :
    (seq h specifier).specifiersFrom before offset [';'] = [])

/-- The pattern of bound imports reads all specifiers, one after the other. -/
theorem specifiersFrom_bound (h : ∀ dep ∈ deps, IsSpecifier dep) : ∀ offset,
    (seq boundHead specifier).specifiersFrom (some '\'') offset (behind dialect deps) = deps := by
  induction deps with
  | nil => exact specifiersFrom_behind_nil quoteFree_boundHead _
  | cons dep deps ih =>
    intro offset
    obtain ⟨later, hread⟩ := specifiersFrom_bound_cons (leading_next (some '\'')) dialect h offset
    rw [behind_cons, hread, ih (List.forall_mem_cons.1 h).2]

theorem not_spans_effectHead_preamble {before : Option Char} {front y z after : Text}
    (hyz : front ++ preamble dialect dep = y ++ z) : ¬effectHead.Spans before z after := by
  intro hspans
  obtain ⟨-, gap, rfl, hgap⟩ := spans_effectHead.1 hspans
  have hm : isBlank 'm' = false := by decide
  have ht : isBlank 't' = false := by decide
  have hleft : Text.trimEnd (front ++ preamble dialect dep)
      = front ++ opening dialect ++ importBinding dep ++ " fro".toList ++ ['m'] := by
    have hlead : front ++ preamble dialect dep
        = front ++ opening dialect ++ importBinding dep ++ " fro".toList ++ 'm' :: [' '] := by
      simp [preamble]
    have hspace : Text.trimEnd [' '] = [] := by decide
    rw [hlead, Text.trimEnd_append_cons hm, hspace]
  have hright : Text.trimEnd (y ++ ("import".toList ++ gap)) = y ++ "impor".toList ++ ['t'] := by
    have hword : y ++ ("import".toList ++ gap) = y ++ "impor".toList ++ 't' :: gap := by simp
    rw [hword, Text.trimEnd_append_cons ht, Text.trimEnd_eq_nil.2 (Text.allBlank_iff.2 hgap)]
  have hlast := List.append_inj_right' (hleft.symm.trans ((congrArg _ hyz).trans hright)) rfl
  exact absurd hlast (by decide)

theorem specifiersFrom_effect_cons {before : Option Char} {front : Text}
    (hlead : Leading before front) (dialect : Dialect) (h : ∀ d ∈ dep :: deps, IsSpecifier d)
    (offset : Nat) :
    ∃ later, (seq effectHead specifier).specifiersFrom before offset
        (front ++ generateImports dialect (dep :: deps))
      = (seq effectHead specifier).specifiersFrom (some '\'') later
          (dep ++ '\'' :: behind dialect deps) := by
  have hbrace := hlead.brace_not_mem dialect h
  rw [generateImports_cons, ← List.append_assoc] at hbrace ⊢
  exact ⟨_, specifiersFrom_pass quoteFree_effectHead hbrace
    (List.forall_mem_append.2 ⟨hlead.bare, preamble_bare⟩) (by decide)
    (fun y z hyz => not_spans_effectHead_preamble hyz) offset⟩

theorem endsInImport_of_spans (h : IsSpecifier dep) {y z after : Text} (hyz : dep = y ++ z)
    (hspans : effectHead.Spans (lastOf (some '\'') y) z after) :
    z = "import".toList ∧ y.getLast?.any isWord = false := by
  obtain ⟨hbefore, gap, rfl, hgap⟩ := spans_effectHead.1 hspans
  have hnil : gap = [] := by
    by_contra hne
    obtain ⟨c, gap, rfl⟩ := List.exists_cons_of_ne_nil hne
    have hblank := h.not_blank c (by simp [hyz])
    rw [hgap c List.mem_cons_self] at hblank
    exact absurd hblank (by simp)
  refine ⟨by rw [hnil, List.append_nil], ?_⟩
  rw [lastOf] at hbefore
  cases hlast : y.getLast? with
  | none => rfl
  | some c => simpa [hlast] using hbefore

theorem brace_not_mem_behind {next : Text} (hdep : IsSpecifier dep) (dialect : Dialect)
    (h : ∀ d ∈ next :: deps, IsSpecifier d) :
    '\x7b' ∉ dep ++ '\'' :: behind dialect (next :: deps) := by
  have hbehind : '\x7b' ∉ behind dialect (next :: deps) :=
    (leading_next none).brace_not_mem dialect h
  simp only [List.mem_append, List.mem_cons, not_or]
  exact ⟨hdep.brace_not_mem, by decide, hbehind⟩

/-- Behind a specifier that ends with the word, the rest of the next statement, up to its first quote,
is read as a specifier. -/
theorem specifiersFrom_effect_of_ends {next : Text} (h : ∀ d ∈ dep :: next :: deps, IsSpecifier d)
    (hends : EndsInImport dep) (dialect : Dialect) (offset : Nat) :
    ∃ later, (seq effectHead specifier).specifiersFrom (some '\'') offset
        (dep ++ '\'' :: behind dialect (next :: deps))
      = (";\n".toList ++ preamble dialect next)
        :: (seq effectHead specifier).specifiersFrom (some '\'') later
          (next ++ '\'' :: behind dialect deps) := by
  obtain ⟨hdep, hrest⟩ := List.forall_mem_cons.1 h
  have hbrace := brace_not_mem_behind hdep dialect hrest
  obtain ⟨y, hy, hbefore⟩ := hends
  have htext : dep ++ '\'' :: behind dialect (next :: deps)
      = y ++ ("import".toList ++ '\'' :: ((";\n".toList ++ preamble dialect next)
        ++ '\'' :: (next ++ '\'' :: behind dialect deps))) := by
    rw [hy, behind_cons, generateImports_cons]
    simp only [List.append_assoc]
  have hspans {after : Text} :
      effectHead.Spans (lastOf (some '\'') y) "import".toList after := by
    refine spans_effectHead.2 ⟨?_, [], (List.append_nil _).symm, List.forall_mem_nil _⟩
    rw [lastOf]
    cases hlast : y.getLast? with
    | none => exact (by decide : isWord '\'' = false)
    | some c => simpa [hlast] using hbefore
  have hskip : ∀ y' z, y = y' ++ z → z ≠ [] → ∀ after,
      ¬effectHead.Spans (lastOf (some '\'') y') (z ++ "import".toList) after := by
    intro y' z hyz hz after hspans
    have hsplit : dep = y' ++ (z ++ "import".toList) := by rw [hy, hyz, List.append_assoc]
    exact hz (List.append_left_eq_self.1 (endsInImport_of_spans hdep hsplit hspans).1)
  have hfront : ∀ c ∈ y, isQuote c = false := fun c hc =>
    hdep.bare c (hy ▸ List.mem_append_left _ hc)
  have hword : ∀ c ∈ "import".toList, isQuote c = false := countP_isQuote_eq_zero.1 (by decide)
  have hread : ∀ c ∈ ";\n".toList ++ preamble dialect next, isQuote c = false :=
    List.forall_mem_append.2 ⟨countP_isQuote_eq_zero.1 (by decide), preamble_bare⟩
  rw [htext] at hbrace ⊢
  exact specifiersFrom_read quoteFree_effectHead hbrace hfront hword (by decide) (by simp) hread
    (by decide) (fun y' z hyz hz => hskip y' z hyz hz _) hspans offset

theorem specifiersFrom_effect_of_not_ends {next : Text}
    (h : ∀ d ∈ dep :: next :: deps, IsSpecifier d) (hends : ¬EndsInImport dep) (dialect : Dialect)
    (offset : Nat) :
    ∃ later, (seq effectHead specifier).specifiersFrom (some '\'') offset
        (dep ++ '\'' :: behind dialect (next :: deps))
      = (seq effectHead specifier).specifiersFrom (some '\'') later
          (next ++ '\'' :: behind dialect deps) := by
  obtain ⟨hdep, hrest⟩ := List.forall_mem_cons.1 h
  have hnone : ∀ y z, dep = y ++ z →
      ¬effectHead.Spans (lastOf (some '\'') y) z ('\'' :: behind dialect (next :: deps)) := by
    intro y z hyz hspans
    obtain ⟨rfl, hbefore⟩ := endsInImport_of_spans hdep hyz hspans
    exact hends ⟨y, hyz, hbefore⟩
  have hpass := specifiersFrom_pass quoteFree_effectHead (brace_not_mem_behind hdep dialect hrest)
    hdep.bare (by decide) hnone offset
  obtain ⟨later, hnext⟩ := specifiersFrom_effect_cons (leading_next (some '\'')) dialect hrest
    (offset + (dep.length + 1))
  exact ⟨later, hpass.trans hnext⟩

/-- Within a specifier and behind it, the pattern of imports for their effects reads what is left of
a statement. -/
theorem specifiersFrom_effect (h : ∀ d ∈ dep :: deps, IsSpecifier d) : ∀ offset,
    (seq effectHead specifier).specifiersFrom (some '\'') offset (dep ++ '\'' :: behind dialect deps)
      = crossed dialect (dep :: deps) := by
  induction deps generalizing dep with
  | nil =>
    intro offset
    obtain ⟨hdep, -⟩ := List.forall_mem_cons.1 h
    have hbrace : '\x7b' ∉ dep ++ ['\'', ';'] := fun hmem =>
      (List.mem_append.1 hmem).elim hdep.brace_not_mem (by decide)
    have hquotes : (dep ++ ['\'', ';']).countP isQuote < 2 := by
      rw [List.countP_append, countP_isQuote_eq_zero.2 hdep.bare]
      decide
    exact specifiersFrom_few quoteFree_effectHead hbrace hquotes offset
  | cons next more ih =>
    intro offset
    have hmore := (List.forall_mem_cons.1 h).2
    by_cases hends : EndsInImport dep
    · obtain ⟨later, hread⟩ := specifiersFrom_effect_of_ends h hends dialect offset
      rw [hread, ih hmore, crossed, if_pos hends, List.singleton_append]
    · obtain ⟨later, hpass⟩ := specifiersFrom_effect_of_not_ends h hends dialect offset
      rw [hpass, ih hmore, crossed, if_neg hends, List.nil_append]

theorem specifiers_importFrom (h : ∀ dep ∈ deps, IsSpecifier dep) :
    importFrom.specifiers (generateImports dialect deps) = deps := by
  rw [specifiers, findAll, findAllFrom_congr run_importFrom]
  cases deps with
  | nil => rfl
  | cons dep deps =>
    obtain ⟨later, hread⟩ := specifiersFrom_bound_cons leading_start dialect h 0
    rw [specifiersFrom_bound (List.forall_mem_cons.1 h).2] at hread
    exact hread

theorem specifiers_importBare (h : ∀ dep ∈ deps, IsSpecifier dep) :
    importBare.specifiers (generateImports dialect deps) = crossed dialect deps := by
  rw [specifiers, findAll, findAllFrom_congr run_importBare]
  cases deps with
  | nil => rfl
  | cons dep deps =>
    obtain ⟨later, hpass⟩ := specifiersFrom_effect_cons leading_start dialect h 0
    rw [specifiersFrom_effect h] at hpass
    exact hpass

theorem specifiers_loaderCall (h : ∀ dep ∈ deps, IsSpecifier dep) (loader : String) :
    (loaderCall loader).specifiers (generateImports dialect deps) = [] := by
  have hopen : '(' ∉ generateImports dialect deps :=
    (madeOf_generateImports h).not_mem (by decide) (by decide)
  rw [specifiers, findAll_eq_nil hopen, List.map_nil]
  rintro before x after ⟨_, _, rfl, -, _, _, rfl, -, _, _, rfl, -, _, _, rfl, hparen, -⟩
  rw [spans_lit.1 hparen]
  simp

theorem ne_nil_of_mem_crossed {text : Text} (h : text ∈ crossed dialect deps) : text ≠ [] := by
  induction deps with
  | nil => exact absurd h List.not_mem_nil
  | cons dep deps ih =>
    cases deps with
    | nil => exact absurd h List.not_mem_nil
    | cons next more =>
      rw [crossed, List.mem_append] at h
      rcases h with h | h
      · split_ifs at h
        · rw [List.mem_singleton.1 h]
          simp
        · exact absurd h List.not_mem_nil
      · exact ih h

theorem crossed_eq_nil_iff : crossed dialect deps = [] ↔ ∀ dep ∈ deps.dropLast, ¬EndsInImport dep := by
  induction deps with
  | nil => simp [crossed]
  | cons dep deps ih =>
    cases deps with
    | nil => simp [crossed]
    | cons next more =>
      rw [crossed, List.append_eq_nil_iff, ih, List.dropLast_cons_cons, List.forall_mem_cons]
      refine and_congr_left fun _ => ?_
      split_ifs with hends <;> simp [hends]

end

/-- Of generated imports the patterns read the specifiers, in order and with repetitions, and for each
one but the last that ends with the word that starts an import, the statement behind it up to its
quote. -/
theorem imports_generateImports (dialect : Dialect) {deps : List Text}
    (h : ∀ dep ∈ deps, dep ≠ [] ∧ ∀ c ∈ dep, c.isAlphanum = true ∨ c ∈ "./@_-".toList) :
    dialect.descriptor.imports (generateImports dialect deps) = deps ++ crossed dialect deps
      ∧ (dialect.descriptor.imports (generateImports dialect deps) = deps
        ↔ ∀ dep ∈ deps.dropLast, ¬EndsInImport dep) := by
  have hdeps : ∀ dep ∈ deps, IsSpecifier dep := fun dep hdep => ⟨(h dep hdep).1, (h dep hdep).2⟩
  have hall {found : List Text} (hne : ∀ text ∈ found, text ≠ []) :
      found.filter (! ·.isEmpty) = found :=
    List.filter_eq_self.2 fun text htext => by simp [hne text htext]
  have hread : dialect.descriptor.imports (generateImports dialect deps)
      = deps ++ crossed dialect deps := by
    have hloaders : ∃ loaders : List String, dialect.descriptor.importPatterns
        = importFrom :: importBare :: loaders.map loaderCall := by
      cases dialect with
      | typescript => exact ⟨["import", "require"], rfl⟩
      | javascript => exact ⟨["require"], rfl⟩
    obtain ⟨loaders, hpatterns⟩ := hloaders
    have hnone : (loaders.map loaderCall).flatMap (fun pattern =>
        (pattern.specifiers (generateImports dialect deps)).filter (! ·.isEmpty)) = [] := by
      rw [List.flatMap_eq_nil_iff]
      intro pattern hpattern
      obtain ⟨loader, -, rfl⟩ := List.mem_map.1 hpattern
      rw [specifiers_loaderCall hdeps, List.filter_nil]
    have himports : dialect.descriptor.imports (generateImports dialect deps)
        = dialect.descriptor.importPatterns.flatMap fun pattern =>
          (pattern.specifiers (generateImports dialect deps)).filter (! ·.isEmpty) := rfl
    rw [himports, hpatterns, List.flatMap_cons, List.flatMap_cons, hnone,
      specifiers_importFrom hdeps, specifiers_importBare hdeps, hall fun dep hdep => (h dep hdep).1,
      hall fun _ => ne_nil_of_mem_crossed, List.append_nil]
  refine ⟨hread, ?_⟩
  rw [hread, List.append_right_eq_self, crossed_eq_nil_iff]

/-- A specifier that ends with the word takes the start of the next statement with it. -/
theorem generateImports_misread :
    (∀ dep ∈ ["./import".toList, "x".toList],
        dep ≠ [] ∧ ∀ c ∈ dep, c.isAlphanum = true ∨ c ∈ "./@_-".toList)
      ∧ Dialect.typescript.descriptor.imports
          (generateImports .typescript ["./import".toList, "x".toList])
        = ["./import".toList, "x".toList, ";\nimport * as x from ".toList]
      ∧ Dialect.javascript.descriptor.imports
          (generateImports .javascript ["./import".toList, "x".toList])
        = ["./import".toList, "x".toList, ";\nimport x from ".toList] := by
  have hdeps : ∀ dep ∈ ["./import".toList, "x".toList], IsSpecifier dep := by decide +kernel
  exact ⟨fun dep hdep => ⟨(hdeps dep hdep).ne_nil, (hdeps dep hdep).chars⟩, by decide +kernel⟩

theorem imports_generateImports_scoped :
    (∀ dep ∈ ["@scope/auto-import".toList, "./reimport".toList, "import".toList],
        dep ≠ [] ∧ ∀ c ∈ dep, c.isAlphanum = true ∨ c ∈ "./@_-".toList)
      ∧ Dialect.javascript.descriptor.imports (generateImports .javascript
          ["@scope/auto-import".toList, "./reimport".toList, "import".toList])
        = ["@scope/auto-import".toList, "./reimport".toList, "import".toList]
          ++ crossed .javascript
            ["@scope/auto-import".toList, "./reimport".toList, "import".toList]
      ∧ crossed .javascript ["@scope/auto-import".toList, "./reimport".toList, "import".toList]
        = [";\nimport reimport from ".toList] := by
  have hdeps : ∀ dep ∈ ["@scope/auto-import".toList, "./reimport".toList, "import".toList],
      IsSpecifier dep := by decide +kernel
  have hchars : ∀ dep ∈ ["@scope/auto-import".toList, "./reimport".toList, "import".toList],
      dep ≠ [] ∧ ∀ c ∈ dep, c.isAlphanum = true ∨ c ∈ "./@_-".toList :=
    fun dep hdep => ⟨(hdeps dep hdep).ne_nil, (hdeps dep hdep).chars⟩
  exact ⟨hchars, (imports_generateImports .javascript hchars).1, by decide +kernel⟩

end SourceLens.Script
