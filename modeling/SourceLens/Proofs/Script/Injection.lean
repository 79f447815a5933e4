import SourceLens.Proofs.Dependency
import SourceLens.Proofs.Text.Lines
import SourceLens.Proofs.Tree.Faults
import SourceLens.Text.Utf8.Lemmas

/-!
# Injecting imports into scripts

The statements of what a script lacks are put into its text as one block: at the top, or where its
last top-level import ends (`inserted_injectImports`). The place comes from a syntax tree and counts
bytes, so nothing is lost as long as the nodes of the tree end between two characters. Each new
statement then stands in the result, whatever tree that has, and nothing is left to inject
(`injectImports_lossless`).
-/

namespace SourceLens.Script

/-- The requests that a script lacks, each once and in order: those that the import patterns do not
find and whose statement does not stand in the text. -/
def lacking (dialect : Dialect) (descriptor : Descriptor) (text : Text) (deps : List Text) :
    List Text :=
  (Text.distinct deps).filter fun dep =>
    !(descriptor.imports text).contains dep && !Text.occursIn (importLine dialect dep) text

/-- A number of bytes after which a character of a text starts, or the text ends. -/
def IsBoundary (text : Text) (offset : Nat) : Prop :=
  ∃ front back, text = front ++ back ∧ Utf8.size front = offset

theorem isBoundary_iff {text : Text} {offset : Nat} :
    IsBoundary text offset
      ↔ ∃ n ∈ List.range (text.length + 1), Utf8.size (text.take n) = offset := by
  constructor
  · rintro ⟨front, back, rfl, hsize⟩
    refine ⟨front.length, List.mem_range.2 ?_, by rw [List.take_left, hsize]⟩
    rw [List.length_append]
    omega
  · rintro ⟨n, -, hsize⟩
    exact ⟨text.take n, text.drop n, (List.take_append_drop n text).symm, hsize⟩

instance (text : Text) (offset : Nat) : Decidable (IsBoundary text offset) :=
  decidable_of_iff _ isBoundary_iff.symm

/-- The trees that a parser gives for a text have nodes that start and end between two characters. -/
def Aligned (parser : Parser) (text : Text) : Prop :=
  ∀ grammar root, parser grammar text = .ok root →
    ∀ node ∈ root.preorder, IsBoundary text node.start ∧ IsBoundary text node.stop

/-- A top-level import statement that no other one ends behind. -/
structure IsLastImport (parsed : Parsed) (node : Node) : Prop where
  child : node ∈ parsed.root.namedChildren
  kind : node.kind = "import_statement"
  last : ∀ other ∈ parsed.root.namedChildren, other.kind = "import_statement" → other.stop ≤ node.stop

/-- Statements put into a text as one block: at the top, with a blank line behind them, if there is
no top-level import, and else on a new line behind the last one. -/
inductive Inserted (tree : Option Parsed) (text statements : Text) : Text → Prop
  | top : (∀ parsed ∈ tree, ∀ node ∈ parsed.root.namedChildren, node.kind ≠ "import_statement") →
      Inserted tree text statements (statements ++ "\n\n".toList ++ text)
  | behind {parsed : Parsed} {node : Node} {front back : Text} : tree = some parsed →
      IsLastImport parsed node → text = front ++ back → Utf8.size front = node.stop →
      Inserted tree text statements (front ++ '\n' :: statements ++ back)

section

variable {dialect : Dialect} {descriptor : Descriptor} {text : Text} {deps : List Text}

theorem toInject_eq_lacking :
    Dependency.toInject (importLine dialect) text deps (descriptor.imports text)
      = lacking dialect descriptor text deps := Dependency.toInject_eq ..

theorem injectImports_of_lacking_nil (parser : Parser)
    (h : lacking dialect descriptor text deps = []) :
    injectImports parser dialect descriptor text deps = { value := text } := by
  rw [injectImports, toInject_eq_lacking, h]
  rfl

theorem lacking_eq_nil : lacking dialect descriptor text deps = []
    ↔ ∀ dep ∈ deps, dep ∈ descriptor.imports text ∨ importLine dialect dep <:+: text := by
  rw [← toInject_eq_lacking, Dependency.toInject_eq_nil]

theorem value_injectImports (parser : Parser) (h : lacking dialect descriptor text deps ≠ []) :
    (injectImports parser dialect descriptor text deps).value
      = match (parse parser dialect text).value.bind fun parsed =>
            (lastImportStop parsed).map fun stop => (parsed, stop) with
        | none => generateImports dialect (lacking dialect descriptor text deps)
            ++ "\n\n".toList ++ text
        | some (parsed, stop) => Utf8.decode (parsed.source.take stop)
            ++ '\n' :: generateImports dialect (lacking dialect descriptor text deps)
            ++ Utf8.decode (parsed.source.drop stop) := by
  rw [injectImports, toInject_eq_lacking, if_neg (mt List.isEmpty_iff.1 h)]
  simp only [bind]
  cases (parse parser dialect text).value.bind fun parsed =>
    (lastImportStop parsed).map fun stop => (parsed, stop) with
  | none => rfl
  | some place => rfl

/-! ## The place -/

theorem lastImportStop_eq_none {parsed : Parsed} : lastImportStop parsed = none
    ↔ ∀ node ∈ parsed.root.namedChildren, node.kind ≠ "import_statement" := by
  simp [lastImportStop, List.filter_eq_nil_iff]

theorem exists_isLastImport {parsed : Parsed} {stop : Nat} (h : lastImportStop parsed = some stop) :
    ∃ node, IsLastImport parsed node ∧ node.stop = stop := by
  rw [lastImportStop, List.max?_eq_some_iff] at h
  obtain ⟨hmem, hmax⟩ := h
  obtain ⟨node, hnode, rfl⟩ := List.mem_map.1 hmem
  obtain ⟨hchild, hkind⟩ := List.mem_filter.1 hnode
  refine ⟨node, ⟨hchild, of_decide_eq_true hkind, fun other hother hother' => ?_⟩, rfl⟩
  exact hmax _ (List.mem_map_of_mem (List.mem_filter.2 ⟨hother, decide_eq_true hother'⟩))

theorem decode_cut (front back : Text) :
    Utf8.decode ((Utf8.encode (front ++ back)).take (Utf8.size front)) = front
      ∧ Utf8.decode ((Utf8.encode (front ++ back)).drop (Utf8.size front)) = back := by
  rw [Utf8.encode_append, Utf8.size, List.take_left, List.drop_left, Utf8.decode_encode,
    Utf8.decode_encode]
  exact ⟨rfl, rfl⟩

theorem mem_preorder_of_mem_namedChildren {root node : Node} (h : node ∈ root.namedChildren) :
    node ∈ root.preorder := by
  obtain ⟨label, children⟩ := root
  obtain ⟨inner, rest⟩ := node
  have hchild : Node.mk inner rest ∈ children := (List.mem_filter.1 h).1
  exact Node.mem_preorder_mk.2 (.inr ⟨_, hchild, Node.mem_preorder_mk.2 (.inl rfl)⟩)

theorem inserted_injectImports {parser : Parser} (haligned : Aligned parser text)
    (h : lacking dialect descriptor text deps ≠ []) :
    Inserted (parse parser dialect text).value text
      (generateImports dialect (lacking dialect descriptor text deps))
      (injectImports parser dialect descriptor text deps).value := by
  rw [value_injectImports parser h]
  cases htree : (parse parser dialect text).value with
  | none => exact .top (by simp)
  | some parsed =>
    cases hstop : lastImportStop parsed with
    | none =>
      simp only [Option.bind_some, hstop]
      exact .top (by simpa using lastImportStop_eq_none.1 hstop)
    | some stop =>
      simp only [Option.bind_some, hstop]
      obtain ⟨node, hlast, rfl⟩ := exists_isLastImport hstop
      obtain hnone | ⟨grammar, hparse⟩ := Parser.parse_of_parseBest _ htree
      · simp at hnone
      obtain ⟨hroot, hsource⟩ := Parser.parse_eq_ok hparse
      obtain ⟨-, front, back, rfl, hsize⟩ :=
        haligned grammar parsed.root hroot node (mem_preorder_of_mem_namedChildren hlast.child)
      obtain ⟨hfront, hback⟩ := decode_cut front back
      simp only [Option.map_some, hsource]
      rw [← hsize, hfront, hback]
      exact .behind rfl hlast rfl hsize

/-! ## The result -/

theorem infix_generateImports {deps : List Text} {dep : Text} (h : dep ∈ deps) :
    importLine dialect dep <:+: generateImports dialect deps :=
  Text.infix_unlines (List.mem_map_of_mem h)

theorem Inserted.infix {tree : Option Parsed} {statements result : Text}
    (h : Inserted tree text statements result) : statements <:+: result := by
  cases h with
  | top => exact ⟨[], "\n\n".toList ++ text, by simp⟩
  | @behind _ _ front back => exact ⟨front ++ ['\n'], back, by simp⟩

end

/-- A script that lacks nothing stays, and into any other one the statements of what it lacks are put
as one block. Injecting that again changes nothing, whatever tree the parser then gives. -/
theorem injectImports_lossless (dialect : Dialect) (descriptor : Descriptor) {parser : Parser}
    {text : Text} (haligned : Aligned parser text) (deps : List Text) :
    ((lacking dialect descriptor text deps = []
        ∧ injectImports parser dialect descriptor text deps = { value := text }
        ∧ ∀ dep ∈ deps, dep ∈ descriptor.imports text ∨ importLine dialect dep <:+: text)
      ∨ lacking dialect descriptor text deps ≠ []
        ∧ Inserted (parse parser dialect text).value text
          (generateImports dialect (lacking dialect descriptor text deps))
          (injectImports parser dialect descriptor text deps).value)
    ∧ ∀ again : Parser,
      injectImports again dialect descriptor
          (injectImports parser dialect descriptor text deps).value
          (lacking dialect descriptor text deps)
        = { value := (injectImports parser dialect descriptor text deps).value } := by
  by_cases hnew : lacking dialect descriptor text deps = []
  · have hsame := injectImports_of_lacking_nil parser hnew
    refine ⟨.inl ⟨hnew, hsame, lacking_eq_nil.1 hnew⟩, fun again => ?_⟩
    rw [hsame, hnew]
    exact injectImports_of_lacking_nil again (lacking_eq_nil.2 (List.forall_mem_nil _))
  · have hinserted := inserted_injectImports haligned hnew
    refine ⟨.inr ⟨hnew, hinserted⟩, fun again => injectImports_of_lacking_nil again ?_⟩
    exact lacking_eq_nil.2 fun dep hdep => .inr ((infix_generateImports hdep).trans hinserted.infix)

/-- A script with a character of two bytes in each import. -/
def accentedScript : Text := "import a from 'é';\nimport b from 'ü';\nrun(a, b);\n".toList

/-- A tree of the accented script that has the last import first. -/
def accentedTree : Node :=
  .mk { kind := "program", start := 0, stop := 51 }
    [.mk { kind := "import_statement", start := 20, stop := 39 } [],
     .mk { kind := "import_statement", start := 0, stop := 19 } [],
     .mk { kind := "expression_statement", start := 40, stop := 50 } []]

theorem aligned_accented : Aligned (fun _ _ => .ok accentedTree) accentedScript := by
  rintro grammar _ ⟨⟩
  decide +kernel

theorem injectImports_lossless_accented :
    Aligned (fun _ _ => .ok accentedTree) accentedScript
      ∧ lacking .javascript .javascript accentedScript
          ["ü".toList, "d/ö".toList, "c".toList, "d/ö".toList] = ["d/ö".toList, "c".toList]
      ∧ Inserted (parse (fun _ _ => .ok accentedTree) .javascript accentedScript).value accentedScript
        "import module from 'd/ö';\nimport c from 'c';".toList
        (injectImports (fun _ _ => .ok accentedTree) .javascript .javascript accentedScript
          ["ü".toList, "d/ö".toList, "c".toList, "d/ö".toList]).value := by
  have hnew : lacking .javascript .javascript accentedScript
      ["ü".toList, "d/ö".toList, "c".toList, "d/ö".toList] = ["d/ö".toList, "c".toList] := by
    decide +kernel
  refine ⟨aligned_accented, hnew, ?_⟩
  rcases (injectImports_lossless .javascript .javascript aligned_accented
    ["ü".toList, "d/ö".toList, "c".toList, "d/ö".toList]).1 with ⟨hnil, -⟩ | ⟨-, hinserted⟩
  · rw [hnew] at hnil
    exact absurd hnil (List.cons_ne_nil _ _)
  · rw [hnew] at hinserted
    exact hinserted

end SourceLens.Script
