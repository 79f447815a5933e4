import SourceLens.Text.Basic

/-!
# Findings

What an analysis reports about a source: functions, outline entries and diagnostics. Lines and
columns count from zero. The bounds that every finding keeps are part of its type.
-/

namespace SourceLens

/-- `FunctionDescriptor`: a function found in a source, with its branch count. -/
structure FunctionInfo where
  name : Text
  params : List Text := []
  returnType : Option Text := none
  /-- One more than the number of branches. -/
  complexity : Nat := 1
  /-- Counting starts at one. -/
  complexity_pos : 1 ≤ complexity := by exact Nat.one_pos
  deriving DecidableEq, Repr

def FunctionInfo.withBranches (info : FunctionInfo) (branches : Nat) : FunctionInfo :=
  { name := info.name, params := info.params, returnType := info.returnType,
    complexity := 1 + branches, complexity_pos := Nat.le_add_right 1 branches }

/-- The function with a given complexity, raised to one if it is less. -/
def FunctionInfo.withComplexity (info : FunctionInfo) (complexity : Int) : FunctionInfo :=
  { name := info.name, params := info.params, returnType := info.returnType,
    complexity := max 1 complexity.toNat, complexity_pos := Nat.le_max_left .. }

/-- The kinds of outline entry. -/
inductive OutlineKind where
  | classLike
  | function
  | interface
  | binding
  | other
  deriving DecidableEq, Repr

namespace OutlineKind

def label : OutlineKind → String
  | classLike => "class"
  | function => "function"
  | interface => "interface"
  | binding => "variable"
  | other => "other"

def ofLabel? (label : String) : Option OutlineKind :=
  [classLike, function, interface, binding, other].find? (·.label = label)

end OutlineKind

/-- `StructureNode` and `FileStructureNode`: a named range of lines. -/
structure OutlineEntry where
  kind : OutlineKind
  name : Text
  start : Nat
  stop : Nat
  /-- A range ends no earlier than it starts. -/
  start_le_stop : start ≤ stop
  deriving DecidableEq, Repr

/-- The entry from line `start` to line `stop`, which is moved to `start` if it is less. -/
def OutlineEntry.ofLines (kind : OutlineKind) (name : Text) (start stop : Nat) : OutlineEntry :=
  { kind, name, start, stop := max start stop, start_le_stop := Nat.le_max_left .. }

/-- A syntax problem at a place. -/
structure Diagnostic where
  line : Nat
  column : Nat
  message : Text
  deriving DecidableEq, Repr

/-- Whether one diagnostic may stand before another: by line, then by column. -/
def Diagnostic.le (a b : Diagnostic) : Bool :=
  a.line < b.line || (a.line == b.line && a.column ≤ b.column)

/-- Diagnostics by place; those at one place keep their order. -/
def Diagnostic.sort (found : List Diagnostic) : List Diagnostic :=
  found.mergeSort Diagnostic.le

theorem Diagnostic.sort_perm (found : List Diagnostic) : (Diagnostic.sort found).Perm found :=
  List.mergeSort_perm found Diagnostic.le

theorem Diagnostic.pairwise_sort (found : List Diagnostic) :
    (Diagnostic.sort found).Pairwise fun a b => a.le b := by
  apply List.pairwise_mergeSort
  · intro a b c hab hbc
    simp [Diagnostic.le] at *
    omega
  · intro a b
    simp [Diagnostic.le]
    omega

/-- `AnalysisResult`: all findings about one document. -/
structure Analysis where
  imports : List Text := []
  dependencies : List Text := []
  outline : List OutlineEntry := []
  syntaxValid : Bool := false
  importsValid : Bool := false
  structureValid : Bool := false

end SourceLens
