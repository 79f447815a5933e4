import Mathlib.Data.List.Basic
import SourceLens.Handler
import SourceLens.Tree.Lemmas

/-!
# Faults and diagnostics

A fault is an error region or a node that the parser put in. Counting the faults of a tree looks at
every node; its diagnostics come from a walk that stops at a fault and leaves out what is not marked
as faulty. If the marks are right, the walk reports exactly the faults that stand inside no other
fault (`faults_eq`), so it reports something exactly if the count is positive. The languages with a
grammar of their own then reject a source exactly if it has no tree or a tree with faults, and leave
such a source as it is when they format.
-/

namespace SourceLens

/-! ## Nodes and their ancestors -/

namespace Node

/-- Whether every node is marked as faulty exactly if it is a fault or holds one. -/
def MarkedRight (root : Node) : Prop :=
  ∀ node ∈ root.preorder, node.faulty = true ↔ ∃ inner ∈ node.preorder, inner.isFault = true

instance (root : Node) : Decidable root.MarkedRight :=
  inferInstanceAs (Decidable (∀ node ∈ root.preorder, _ ↔ ∃ inner ∈ node.preorder, _))

mutual

/-- The nodes of a tree below `above`, each with its proper ancestors, the nearest first. -/
def lineages (above : List Node) : Node → List (List Node × Node)
  | mk label children =>
    (above, mk label children) :: lineagesAll (mk label children :: above) children

/-- The nodes of several trees below `above`, each with its proper ancestors. -/
def lineagesAll (above : List Node) : List Node → List (List Node × Node)
  | [] => []
  | node :: rest => lineages above node ++ lineagesAll above rest

end

/-- Whether a node is a fault and none of its ancestors is. -/
def isOutermostFault : List Node × Node → Bool
  | (above, node) => node.isFault && !above.any isFault

/-- The faults of a tree that stand inside no other fault, parents before children. -/
def outermostFaults (root : Node) : List Node :=
  ((root.lineages []).filter isOutermostFault).map (·.2)

@[elab_as_elim] theorem induction_children {holds : Node → Prop}
    (step : ∀ label children, (∀ child ∈ children, holds child) → holds (mk label children)) :
    ∀ node, holds node
  | mk label children => step label children fun child _ => induction_children step child

theorem preorderAll_eq_flatMap (nodes : List Node) : preorderAll nodes = nodes.flatMap preorder := by
  induction nodes with
  | nil => rfl
  | cons node rest ih => rw [preorderAll, ih, List.flatMap_cons]

theorem lineagesAll_eq_flatMap (above : List Node) (nodes : List Node) :
    lineagesAll above nodes = nodes.flatMap (lineages above) := by
  induction nodes with
  | nil => rfl
  | cons node rest ih => rw [lineagesAll, ih, List.flatMap_cons]

theorem mem_preorder_mk {label : Label} {children : List Node} {node : Node} :
    node ∈ (mk label children).preorder
      ↔ node = mk label children ∨ ∃ child ∈ children, node ∈ child.preorder := by
  rw [preorder, List.mem_cons, preorderAll_eq_flatMap, List.mem_flatMap]

theorem isFault_mk {label : Label} {children : List Node} :
    (mk label children).isFault = true ↔ label.kind = "ERROR" ∨ label.missing = true :=
  (Bool.or_eq_true ..).to_iff.trans (or_congr_left decide_eq_true_iff)

theorem MarkedRight.child {label : Label} {children : List Node}
    (h : (mk label children).MarkedRight) {child : Node} (hchild : child ∈ children) :
    child.MarkedRight :=
  fun node hnode => h node (mem_preorder_mk.2 (.inr ⟨child, hchild, hnode⟩))

theorem lineages_map_snd (node : Node) : ∀ above, (node.lineages above).map (·.2) = node.preorder := by
  induction node using induction_children with
  | step label children ih =>
    intro above
    rw [lineages, preorder, List.map_cons, lineagesAll_eq_flatMap, preorderAll_eq_flatMap,
      List.map_flatMap]
    congr 1
    exact List.flatMap_congr fun child hchild => ih child hchild _

theorem suffix_of_mem_lineages (node : Node) :
    ∀ {above : List Node} {entry}, entry ∈ node.lineages above → above <:+ entry.1 := by
  induction node using induction_children with
  | step label children ih =>
    intro above entry hentry
    rw [lineages, List.mem_cons, lineagesAll_eq_flatMap, List.mem_flatMap] at hentry
    rcases hentry with rfl | ⟨child, hchild, hentry⟩
    · exact List.suffix_refl _
    · exact (List.suffix_cons ..).trans (ih child hchild hentry)

theorem filter_lineages_of_fault {above : List Node} (h : above.any isFault = true) (node : Node) :
    (node.lineages above).filter isOutermostFault = [] := by
  rw [List.filter_eq_nil_iff]
  intro entry hentry
  obtain ⟨fault, hmem, hfault⟩ := List.any_eq_true.1 h
  have habove : entry.1.any isFault = true :=
    List.any_eq_true.2 ⟨fault, (suffix_of_mem_lineages node hentry).subset hmem, hfault⟩
  simp [isOutermostFault, habove]

theorem filter_lineages_of_clean {node : Node} (h : ∀ inner ∈ node.preorder, inner.isFault = false)
    (above : List Node) : (node.lineages above).filter isOutermostFault = [] := by
  rw [List.filter_eq_nil_iff]
  intro entry hentry
  have hmem : entry.2 ∈ node.preorder := by
    rw [← lineages_map_snd node above]
    exact List.mem_map_of_mem hentry
  simp [isOutermostFault, h _ hmem]

theorem filter_lineages_mk {label : Label} {children above : List Node}
    (habove : above.any isFault = false) :
    ((mk label children).lineages above).filter isOutermostFault
      = if (mk label children).isFault then [(above, mk label children)]
        else children.flatMap fun child =>
          (child.lineages (mk label children :: above)).filter isOutermostFault := by
  rw [lineages, lineagesAll_eq_flatMap, List.filter_cons, List.filter_flatMap]
  cases hfault : (mk label children).isFault with
  | true =>
    have hinside : (mk label children :: above).any isFault = true := by simp [hfault]
    simp [isOutermostFault, hfault, habove, filter_lineages_of_fault hinside]
  | false => simp [isOutermostFault, hfault]

theorem filter_lineages_eq_nil (node : Node) : ∀ {above : List Node}, above.any isFault = false →
    ((node.lineages above).filter isOutermostFault = []
      ↔ ∀ inner ∈ node.preorder, inner.isFault = false) := by
  induction node using induction_children with
  | step label children ih =>
    intro above habove
    refine ⟨fun h => ?_, fun h => filter_lineages_of_clean h above⟩
    rw [filter_lineages_mk habove] at h
    split_ifs at h with hfault
    rw [List.flatMap_eq_nil_iff] at h
    intro inner hinner
    rcases mem_preorder_mk.1 hinner with rfl | ⟨child, hchild, hinner⟩
    · simpa using hfault
    · have hinside : (mk label children :: above).any isFault = false := by simpa [hfault] using habove
      exact (ih child hchild hinside).1 (h child hchild) inner hinner

end Node

/-! ## Diagnostics -/

/-- The place of a diagnostic. -/
def Diagnostic.point (found : Diagnostic) : Bytes.Point := { row := found.line, column := found.column }

namespace Parsed

def reportFault (parsed : Parsed) (node : Node) : Diagnostic :=
  parsed.report node
    (if node.missing then "Missing '".toList ++ node.kind.toList ++ "'".toList
     else parsed.errorMessage node)

theorem point_reportFault (parsed : Parsed) (node : Node) :
    (parsed.reportFault node).point = parsed.startPoint node := rfl

theorem faultsAll_eq_flatMap (parsed : Parsed) (nodes : List Node) :
    parsed.faultsAll nodes = nodes.flatMap parsed.faults := by
  induction nodes with
  | nil => rfl
  | cons node rest ih => rw [faultsAll, ih, List.flatMap_cons]

theorem faults_of_fault {parsed : Parsed} {node : Node} (h : node.isFault = true) :
    parsed.faults node = [parsed.reportFault node] := by
  obtain ⟨label, children⟩ := node
  have hfault := Node.isFault_mk.1 h
  rw [faults, reportFault]
  by_cases hmissing : label.missing = true
  · simp [hmissing, Node.missing, Node.kind, Node.label]
  · simp [hmissing, hfault.resolve_right hmissing, Node.missing, Node.label]

theorem faults_of_not_fault {parsed : Parsed} {label : Label} {children : List Node}
    (h : (Node.mk label children).isFault = false) :
    parsed.faults (.mk label children)
      = if label.faulty then children.flatMap parsed.faults else [] := by
  have hfault : ¬(label.kind = "ERROR" ∨ label.missing = true) := by
    rw [← @Node.isFault_mk label children, h]
    simp
  obtain ⟨hkind, hmissing⟩ := not_or.1 hfault
  rw [faults, faultsAll_eq_flatMap]
  simp [hkind, hmissing]

/-- On a tree whose marks are right, the walk reports the outermost faults. -/
theorem faults_eq (parsed : Parsed) (node : Node) :
    ∀ {above : List Node}, above.any Node.isFault = false → node.MarkedRight →
      parsed.faults node
        = ((node.lineages above).filter Node.isOutermostFault).map (parsed.reportFault ·.2) := by
  induction node using Node.induction_children with
  | step label children ih =>
    intro above habove hmarks
    cases hfault : (Node.mk label children).isFault with
    | true => rw [faults_of_fault hfault, Node.filter_lineages_mk habove, if_pos hfault]; rfl
    | false =>
      have hroot := hmarks _ (Node.mem_preorder_mk.2 (.inl rfl))
      rw [faults_of_not_fault hfault]
      split_ifs with hfaulty
      · have hinside : (Node.mk label children :: above).any Node.isFault = false := by
          simpa [hfault] using habove
        rw [Node.filter_lineages_mk habove, if_neg (by simp [hfault]), List.map_flatMap]
        exact List.flatMap_congr fun child hchild => ih child hchild hinside (hmarks.child hchild)
      · -- what is not marked holds no fault
        have hclean : ∀ inner ∈ (Node.mk label children).preorder, inner.isFault = false := by
          intro inner hinner
          by_contra hinner'
          exact hfaulty (hroot.2 ⟨inner, hinner, by simpa using hinner'⟩)
        rw [Node.filter_lineages_of_clean hclean, List.map_nil]

theorem diagnostics_eq {parsed : Parsed} (h : parsed.root.MarkedRight) :
    parsed.diagnostics = Diagnostic.sort (parsed.root.outermostFaults.map parsed.reportFault) := by
  have hnone : ([] : List Node).any Node.isFault = false := rfl
  have hfaults := parsed.faults_eq parsed.root hnone h
  rw [diagnostics, hfaults, Node.outermostFaults, List.map_map]
  rfl

theorem diagnostics_perm {parsed : Parsed} (h : parsed.root.MarkedRight) :
    parsed.diagnostics.Perm (parsed.root.outermostFaults.map parsed.reportFault) := by
  rw [diagnostics_eq h]
  exact Diagnostic.sort_perm _

theorem errorCount_eq_zero {parsed : Parsed} :
    parsed.errorCount = 0 ↔ parsed.root.outermostFaults = [] := by
  rw [errorCount, nodes, Node.walk_eq, List.countP_eq_zero, Node.outermostFaults,
    List.map_eq_nil_iff, Node.filter_lineages_eq_nil parsed.root rfl]
  simp only [Bool.not_eq_true]

theorem diagnostics_eq_nil {parsed : Parsed} (h : parsed.root.MarkedRight) :
    parsed.diagnostics = [] ↔ parsed.errorCount = 0 := by
  have hlength := (diagnostics_perm h).length_eq
  rw [List.length_map] at hlength
  rw [errorCount_eq_zero, ← List.length_eq_zero_iff, hlength, List.length_eq_zero_iff]

end Parsed

/-! ## Sources -/

namespace Parser

/-- Whether the trees of a parser are marked right. -/
def MarksRight (parser : Parser) : Prop :=
  ∀ grammar text root, parser grammar text = .ok root → root.MarkedRight

theorem ofName?_grammarName (grammar : Grammar) : Grammar.ofName? grammar.name = some grammar := by
  cases grammar <;> decide

theorem parse_of_parse? {parser : Parser} {grammar : Grammar} {text : Text} {parsed : Parsed}
    (h : (parser.parse? grammar text).value = some parsed) :
    parser.parse grammar text = .ok parsed := by
  rw [parse?, parseLogged, parseNamed, ofName?_grammarName] at h
  cases hparsed : parser.parse grammar text with
  | error cause => simp [hparsed] at h
  | ok found =>
    simp only [hparsed, Option.some.injEq] at h
    rw [h]

theorem parse_eq_ok {parser : Parser} {grammar : Grammar} {text : Text} {parsed : Parsed}
    (h : parser.parse grammar text = .ok parsed) :
    parser grammar text = .ok parsed.root ∧ parsed.source = Utf8.encode text := by
  rw [parse] at h
  cases hroot : parser grammar text with
  | error cause => simp [hroot, Except.map] at h
  | ok root =>
    simp only [hroot, Except.map, Except.ok.injEq] at h
    rw [← h]
    exact ⟨rfl, rfl⟩

theorem parse_of_parseBest {parser : Parser} {text : Text} {parsed : Parsed}
    (grammars : List Grammar) : ∀ {best : Option Parsed},
      (parser.parseBest text best grammars).value = some parsed →
      best = some parsed ∨ ∃ grammar, parser.parse grammar text = .ok parsed := by
  induction grammars with
  | nil => exact fun h => .inl h
  | cons grammar rest ih =>
    intro best h
    have hvalue : (parser.parseBest text best (grammar :: rest)).value
        = (parser.parse? grammar text).value.elim (parser.parseBest text best rest).value
          fun found =>
            if found.hasErrors then
              (parser.parseBest text (best.elim (some found) fun old =>
                some (if found.errorCount < old.errorCount then found else old)) rest).value
            else some found := by
      rw [parseBest, firstBest]
      simp only [bind]
      cases (parser.parse? grammar text).value with
      | none => rfl
      | some found =>
        simp only [Option.elim_some]
        split_ifs
        · cases best <;> rfl
        · rfl
    rw [hvalue] at h
    cases hfound : (parser.parse? grammar text).value with
    | none =>
      rw [hfound] at h
      exact ih h
    | some found =>
      have hparse := parse_of_parse? hfound
      rw [hfound, Option.elim_some] at h
      split_ifs at h with herrors
      · rcases ih h with hbest | hlater
        · cases best with
          | none =>
            obtain rfl := Option.some.inj hbest
            exact .inr ⟨grammar, hparse⟩
          | some old =>
            rw [Option.elim_some, Option.some.injEq] at hbest
            split_ifs at hbest
            · exact .inr ⟨grammar, hbest ▸ hparse⟩
            · exact .inl (congrArg some hbest)
        · exact .inr hlater
      · obtain rfl := Option.some.inj h
        exact .inr ⟨grammar, hparse⟩

theorem root_of_parseBest {parser : Parser} {text : Text} {parsed : Parsed}
    (grammars : List Grammar) {best : Option Parsed}
    (h : (parser.parseBest text best grammars).value = some parsed) :
    best = some parsed ∨ ∃ grammar, parser grammar text = .ok parsed.root :=
  (parse_of_parseBest grammars h).imp_right fun ⟨grammar, hparse⟩ =>
    ⟨grammar, (parse_eq_ok hparse).1⟩

end Parser

namespace Handler

/-- The tree that a handler looks at; a language without a grammar has none. -/
def tree? (handler : Handler) (parser : Parser) (text : Text) : Option Parsed :=
  match handler.language with
  | .typescript => (Script.parse parser .typescript text).value
  | .javascript => (Script.parse parser .javascript text).value
  | .python => none
  | .css => (Stylesheet.parse parser text).value
  | .html => (Markup.parse parser text).value

/-- The languages whose sources are diagnosed from the tree alone. -/
def readsTree (handler : Handler) : Prop :=
  handler.language = .typescript ∨ handler.language = .javascript ∨ handler.language = .css

theorem marked_of_tree? {handler : Handler} (hlanguage : handler.readsTree) {parser : Parser}
    (hmarks : parser.MarksRight) {text : Text} {parsed : Parsed}
    (h : handler.tree? parser text = some parsed) : parsed.root.MarkedRight := by
  have hscript (dialect : Script.Dialect)
      (h : (Script.parse parser dialect text).value = some parsed) : parsed.root.MarkedRight := by
    obtain hnone | ⟨grammar, hroot⟩ := Parser.root_of_parseBest _ h
    · simp at hnone
    · exact hmarks grammar text parsed.root hroot
  rw [tree?] at h
  rcases hlanguage with hlang | hlang | hlang <;> rw [hlang] at h
  · exact hscript .typescript h
  · exact hscript .javascript h
  · exact hmarks .css _ parsed.root (Parser.parse_eq_ok (Parser.parse_of_parse? h)).1

theorem diagnose_value {handler : Handler} (hlanguage : handler.readsTree) (parser : Parser)
    (text : Text) :
    match handler.tree? parser text with
    | none => (handler.diagnose parser text).value ≠ []
    | some parsed => (handler.diagnose parser text).value = parsed.diagnostics := by
  have hwith (tree : Logged (Option Parsed)) :
      match tree.value with
      | none => (handler.diagnoseWith Parsed.diagnostics tree).value ≠ []
      | some parsed => (handler.diagnoseWith Parsed.diagnostics tree).value = parsed.diagnostics := by
    obtain ⟨tree, failures⟩ := tree
    cases tree with
    | none => exact List.cons_ne_nil _ _
    | some parsed => rfl
  rw [tree?, diagnose]
  rcases hlanguage with hlang | hlang | hlang <;> rw [hlang] <;> exact hwith _

theorem format_value {handler : Handler} (hlanguage : handler.readsTree) {parser : Parser}
    {text : Text} (h : ∀ parsed, handler.tree? parser text = some parsed → parsed.hasErrors = true) :
    (handler.format parser text).value = text := by
  have hscript (dialect : Script.Dialect) (width : Nat)
      (h : ∀ parsed, (Script.parse parser dialect text).value = some parsed →
        parsed.hasErrors = true) :
      (Script.format parser dialect width text).value = text := by
    rw [Script.format]
    simp only [bind, pure]
    cases htree : (Script.parse parser dialect text).value with
    | none => rfl
    | some parsed => simp [h parsed htree]
  have hsheet (width : Nat)
      (h : ∀ parsed, (Stylesheet.parse parser text).value = some parsed → parsed.hasErrors = true) :
      (Stylesheet.format parser width text).value = text := by
    rw [Stylesheet.format]
    simp only [bind, pure]
    cases htree : (Stylesheet.parse parser text).value with
    | none => rfl
    | some parsed => simp [h parsed htree]
  rw [tree?] at h
  rw [format]
  rcases hlanguage with hlang | hlang | hlang <;> rw [hlang] at h ⊢
  · exact hscript .typescript _ h
  · exact hscript .javascript _ h
  · exact hsheet _ h

end Handler

/-- If a tree is marked right, its diagnostics are empty exactly if its error count is zero; there are
as many as outermost faults, at the places where these start, in the order of those places. A source
of a language that reads its tree is then invalid exactly if it has no tree or errors are counted in
it, and formatting leaves it as it is. -/
theorem diagnostics_agree_with_count {parsed : Parsed} (hmarked : parsed.root.MarkedRight)
    {parser : Parser} (hmarks : parser.MarksRight) {handler : Handler} (hlanguage : handler.readsTree)
    (text : Text) :
    ((parsed.diagnostics = [] ↔ parsed.errorCount = 0)
        ∧ parsed.diagnostics.length = parsed.root.outermostFaults.length
        ∧ (parsed.diagnostics.map Diagnostic.point).Perm
            (parsed.root.outermostFaults.map parsed.startPoint)
        ∧ parsed.diagnostics.Pairwise (·.le · = true))
      ∧ ((handler.syntaxValid parser text).value = false
          ↔ ∀ tree, handler.tree? parser text = some tree → tree.hasErrors = true)
      ∧ ((handler.syntaxValid parser text).value = false → (handler.format parser text).value = text) := by
  have hperm := Parsed.diagnostics_perm hmarked
  have hinvalid : (handler.syntaxValid parser text).value = false
      ↔ ∀ tree, handler.tree? parser text = some tree → tree.hasErrors = true := by
    have hvalue : (handler.syntaxValid parser text).value = (handler.diagnose parser text).value.isEmpty :=
      rfl
    have hdiagnose := handler.diagnose_value hlanguage parser text
    rw [hvalue, List.isEmpty_eq_false_iff]
    cases htree : handler.tree? parser text with
    | none =>
      rw [htree] at hdiagnose
      simpa using hdiagnose
    | some tree =>
      rw [htree] at hdiagnose
      rw [hdiagnose, ne_eq, Parsed.diagnostics_eq_nil (handler.marked_of_tree? hlanguage hmarks htree)]
      simp [Parsed.hasErrors, Nat.pos_iff_ne_zero]
  refine ⟨⟨Parsed.diagnostics_eq_nil hmarked, ?_, ?_, Diagnostic.pairwise_sort _⟩, hinvalid,
    fun h => handler.format_value hlanguage (hinvalid.1 h)⟩
  · simpa using hperm.length_eq
  · simpa only [List.map_map, Function.comp_def, Parsed.point_reportFault]
      using hperm.map Diagnostic.point

/-- A tree with two faults inside an error region and a node put in that has a child. -/
def brokenTree : Node :=
  .mk { kind := "program", start := 0, stop := 9, faulty := true }
    [.mk { kind := "comment", start := 0, stop := 2 } [],
     .mk { kind := ";", start := 9, stop := 9, missing := true, faulty := true }
       [.mk { kind := "comment", start := 9, stop := 9 } []],
     .mk { kind := "ERROR", start := 3, stop := 6, faulty := true }
       [.mk { kind := "ERROR", start := 4, stop := 5, faulty := true } [],
        .mk { kind := ")", start := 6, stop := 6, missing := true, faulty := true } []]]

def brokenSource : Text := "//\nf((\n//".toList

theorem diagnostics_agree_with_count_broken :
    let parser : Parser := fun _ _ => .ok brokenTree
    let handler : Handler := { language := .javascript }
    let parsed : Parsed := ⟨"javascript", Utf8.encode brokenSource, brokenTree⟩
    brokenTree.MarkedRight ∧ parser.MarksRight ∧ handler.readsTree
      ∧ parsed.errorCount = 4 ∧ parsed.diagnostics ≠ [] ∧ parsed.diagnostics.length = 2
      ∧ (parsed.diagnostics.map Diagnostic.point).Perm [⟨2, 2⟩, ⟨1, 0⟩]
      ∧ (handler.syntaxValid parser brokenSource).value = false
      ∧ (handler.format parser brokenSource).value = brokenSource := by
  intro parser handler parsed
  have hmarked : brokenTree.MarkedRight := by decide +kernel
  have hroot : parsed.root.MarkedRight := hmarked
  have hmarks : parser.MarksRight := by
    intro grammar text root hroot
    exact Except.ok.inj hroot ▸ hmarked
  have hlanguage : handler.readsTree := .inr (.inl rfl)
  have hcount : parsed.errorCount = 4 := by decide +kernel
  have hfaults : brokenTree.outermostFaults.length = 2 := by decide +kernel
  have hpoints : brokenTree.outermostFaults.map parsed.startPoint = [⟨2, 2⟩, ⟨1, 0⟩] := by
    decide +kernel
  obtain ⟨⟨hempty, hlength, hplaces, -⟩, hinvalid, hformat⟩ :=
    diagnostics_agree_with_count hroot hmarks hlanguage brokenSource
  have hvalid := hinvalid.2 fun tree htree => by
    obtain hnone | ⟨grammar, hroot⟩ := Parser.root_of_parseBest _ htree
    · simp at hnone
    · have hsame : tree.errorCount = parsed.errorCount := by
        rw [Parsed.errorCount, Parsed.nodes, ← Except.ok.inj hroot]
        rfl
      simp [Parsed.hasErrors, hsame, hcount]
  refine ⟨hmarked, hmarks, hlanguage, hcount, ?_, hlength.trans hfaults, hpoints ▸ hplaces, hvalid,
    hformat hvalid⟩
  rw [ne_eq, hempty, hcount]
  decide

end SourceLens
