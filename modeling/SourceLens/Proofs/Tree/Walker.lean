import Mathlib.Logic.Relation
import SourceLens.Proofs.Tree.Spans
import SourceLens.Script.Analysis

/-!
# Walking with a stack

A walker has visited some nodes and keeps a stack, the top at its end. In a turn it takes the top off,
visits it and puts its children on, the last child first. What it has visited, followed by the nodes of
the trees on its stack from the top down (`Walker.pending`), never changes: a turn visits the first of
the pending nodes and leaves the others pending (`Walker.next?_eq_some`). So the walker of a tree visits
the nodes in the order of the recursion and stops after as many turns as there are nodes
(`walk_in_preorder`).

A count over the walk is then a sum over the tree (`Node.countP_preorder`), and as the nodes of a tree
stand together in the walk of any tree that holds it (`Node.Below.preorder_infix`), a function has no more
branches than one around it.
-/

namespace SourceLens

/-! ## Counting by recursion -/

namespace Node

mutual

/-- The number of nodes of a tree that pass a test: the root, if it does, and those of each child. -/
def tally (test : Node → Bool) : Node → Nat
  | mk label children => (test (mk label children)).toNat + tallyAll test children

/-- The number of nodes of several trees that pass a test. -/
def tallyAll (test : Node → Bool) : List Node → Nat
  | [] => 0
  | node :: rest => tally test node + tallyAll test rest

end

mutual

theorem countP_preorder (test : Node → Bool) :
    ∀ node : Node, node.preorder.countP test = node.tally test
  | mk label children => by
    rw [preorder, tally, List.countP_cons, countP_preorderAll test children, Nat.add_comm]
    cases test (mk label children) <;> rfl

theorem countP_preorderAll (test : Node → Bool) :
    ∀ nodes : List Node, (preorderAll nodes).countP test = tallyAll test nodes
  | [] => rfl
  | node :: rest => by
    rw [preorderAll, tallyAll, List.countP_append, countP_preorder test node,
      countP_preorderAll test rest]

end

theorem length_preorder (node : Node) : node.preorder.length = node.size := by
  rw [← walk_eq, walk, length_walkFrom, sizeAll, sizeAll, Nat.add_zero]

/-! ## Trees below a node -/

/-- Whether a node is a child of another, or a child of such a child, and so on. -/
def Below : Node → Node → Prop := Relation.TransGen fun child parent => child ∈ parent.children

theorem preorder_infix_of_child {child parent : Node} (h : child ∈ parent.children) :
    child.preorder <:+: parent.preorder := by
  obtain ⟨before, after, hchildren⟩ := List.append_of_mem h
  refine ⟨parent :: preorderAll before, preorderAll after, ?_⟩
  rw [preorder_eq parent, hchildren, preorderAll_append, preorderAll, List.cons_append,
    List.cons_append, List.append_assoc]

theorem Below.preorder_infix {inner outer : Node} (h : inner.Below outer) :
    inner.preorder <:+: outer.preorder := by
  induction h with
  | single hchild => exact preorder_infix_of_child hchild
  | tail _ hchild ih => exact ih.trans (preorder_infix_of_child hchild)

theorem Below.tally_le {inner outer : Node} (h : inner.Below outer) (test : Node → Bool) :
    inner.tally test ≤ outer.tally test := by
  rw [← countP_preorder, ← countP_preorder]
  exact h.preorder_infix.sublist.countP_le

end Node

/-! ## Turns -/

/-- A walk under way: the nodes visited, and a stack with its top at the end. -/
structure Walker where
  visited : List Node := []
  stack : List Node

namespace Walker

/-- A walker that has only the root of a tree on its stack. -/
def start (root : Node) : Walker := { stack := [root] }

/-- One turn: the top of the stack is taken off and visited, and its children are put on, the last one
first. A walker with an empty stack has no next turn. -/
def next? (walker : Walker) : Option Walker :=
  walker.stack.getLast?.map fun node =>
    { visited := walker.visited ++ [node]
      stack := walker.stack.dropLast ++ node.children.reverse }

/-- A walker after a number of turns, or as it has stopped before. -/
def run : Nat → Walker → Walker
  | 0, walker => walker
  | turns + 1, walker =>
    match walker.next? with
    | some later => run turns later
    | none => walker

/-- The nodes that the stack stands for: those of its trees, from the top down. -/
def pending (walker : Walker) : List Node := Node.preorderAll walker.stack.reverse

theorem pending_start (root : Node) : (start root).pending = root.preorder := by
  rw [pending, start, List.reverse_singleton, Node.preorderAll, Node.preorderAll, List.append_nil]

theorem next?_eq_some {walker later : Walker} (h : walker.next? = some later) :
    ∃ node, later.visited = walker.visited ++ [node] ∧ walker.pending = node :: later.pending := by
  obtain ⟨node, htop, rfl⟩ := Option.map_eq_some_iff.1 h
  obtain ⟨below, hstack⟩ := List.getLast?_eq_some_iff.1 htop
  refine ⟨node, rfl, ?_⟩
  -- upside down, the children come back to their own order, in the place of their parent
  have hlater : (walker.stack.dropLast ++ node.children.reverse).reverse
      = node.children ++ below.reverse := by
    rw [hstack, List.dropLast_concat, List.reverse_append, List.reverse_reverse]
  rw [pending, pending, hlater, hstack, List.reverse_append, List.reverse_singleton,
    List.singleton_append, Node.preorderAll, Node.preorder_eq, Node.preorderAll_append,
    List.cons_append]

theorem next?_eq_none {walker : Walker} : walker.next? = none ↔ walker.pending = [] := by
  constructor
  · intro h
    have hstack : walker.stack = [] := List.getLast?_eq_none_iff.1 (Option.map_eq_none_iff.1 h)
    rw [pending, hstack, List.reverse_nil, Node.preorderAll]
  · intro h
    cases hnext : walker.next? with
    | none => rfl
    | some later =>
      obtain ⟨node, -, hpending⟩ := next?_eq_some hnext
      rw [h] at hpending
      exact absurd hpending.symm (List.cons_ne_nil node _)

theorem run_spec (turns : Nat) (walker : Walker) :
    (walker.run turns).visited = walker.visited ++ walker.pending.take turns
      ∧ (walker.run turns).pending = walker.pending.drop turns := by
  induction turns generalizing walker with
  | zero => exact ⟨(List.append_nil _).symm, rfl⟩
  | succ turns ih =>
    rw [run]
    cases hnext : walker.next? with
    | none =>
      -- nothing is left to visit, so that staying is as good as a turn
      have hpending : walker.pending = [] := next?_eq_none.1 hnext
      exact ⟨by rw [hpending, List.take_nil, List.append_nil], by rw [hpending, List.drop_nil]⟩
    | some later =>
      obtain ⟨node, hvisited, hpending⟩ := next?_eq_some hnext
      obtain ⟨hthen, hleft⟩ := ih later
      refine ⟨?_, ?_⟩
      · rw [hthen, hvisited, hpending, List.take_succ_cons, List.append_assoc,
          List.singleton_append]
      · rw [hleft, hpending, List.drop_succ_cons]

theorem visited_run_start (root : Node) (turns : Nat) :
    ((start root).run turns).visited = root.preorder.take turns := by
  rw [(run_spec turns (start root)).1, pending_start]
  rfl

theorem stopped_run_start (root : Node) (turns : Nat) :
    ((start root).run turns).next? = none ↔ root.size ≤ turns := by
  rw [next?_eq_none, (run_spec turns (start root)).2, pending_start, List.drop_eq_nil_iff,
    Node.length_preorder]

end Walker

/-! ## What is counted on a walk -/

theorem Parsed.nodeCount_eq (parsed : Parsed) : parsed.nodeCount = parsed.root.size := by
  rw [nodeCount, nodes, Node.walk_eq, Node.length_preorder]

theorem Parsed.errorCount_eq (parsed : Parsed) :
    parsed.errorCount = parsed.root.tally Node.isFault := by
  rw [errorCount, nodes, Node.walk_eq, Node.countP_preorder]

theorem Script.complexity_describe (parsed : Parsed) (dialect : Dialect) (name : Text)
    (function : Node) :
    (describe parsed dialect name function).complexity
      = 1 + function.tally (isBranch dialect) := by
  rw [← Node.countP_preorder, ← Node.walk_eq]
  rfl

/-- A walker that sets out from the root of any tree has visited, after any number of turns, the first so
many nodes of the walk, and it stops when it has taken as many turns as the tree has nodes. The walk is
the recursive order: the root, then the walk of each child in turn. So the nodes counted are those of the
tree, and the errors counted are its error regions and the nodes that the parser put in. A function is one
more complex than its tree has branches, and one that stands inside another is at most as complex. -/
theorem walk_in_preorder :
    (∀ (root : Node) (turns : Nat),
        ((Walker.start root).run turns).visited = root.walk.take turns
          ∧ (((Walker.start root).run turns).next? = none ↔ root.size ≤ turns))
      ∧ (∀ root : Node,
        root.walk = root.preorder ∧ root.walk = root :: root.children.flatMap Node.walk)
      ∧ (∀ parsed : Parsed, parsed.nodeCount = parsed.root.size
        ∧ parsed.errorCount = parsed.root.tally fun node => node.kind = "ERROR" || node.missing)
      ∧ ∀ (parsed : Parsed) (dialect : Script.Dialect) (outer : Node) (outerName : Text),
        (Script.describe parsed dialect outerName outer).complexity
            = 1 + outer.tally (Script.isBranch dialect)
          ∧ ∀ (inner : Node) (innerName : Text), inner.Below outer →
            (Script.describe parsed dialect innerName inner).complexity
              ≤ (Script.describe parsed dialect outerName outer).complexity := by
  refine ⟨fun root turns => ⟨?_, Walker.stopped_run_start root turns⟩,
    fun root => ⟨Node.walk_eq root, ?_⟩,
    fun parsed => ⟨parsed.nodeCount_eq, parsed.errorCount_eq⟩,
    fun parsed dialect outer outerName =>
      ⟨Script.complexity_describe parsed dialect outerName outer, ?_⟩⟩
  · rw [Walker.visited_run_start, Node.walk_eq]
  · have hwalk : Node.walk = Node.preorder := funext Node.walk_eq
    rw [hwalk, ← Node.preorderAll_eq_flatMap]
    exact Node.preorder_eq root
  · intro inner innerName hbelow
    rw [Script.complexity_describe, Script.complexity_describe]
    exact Nat.add_le_add_left (hbelow.tally_le _) 1

/-- A function that is chosen by another one, with a branch of its own. -/
def chosenArrow : Node :=
  .mk { kind := "arrow_function", start := 5, stop := 13, field := some "consequence" }
    [.mk { kind := "formal_parameters", start := 5, stop := 7, field := some "parameters" }
      [.mk { kind := "(", start := 5, stop := 6, named := false } [],
       .mk { kind := ")", start := 6, stop := 7, named := false } []],
     .mk { kind := "=>", start := 7, stop := 9, named := false } [],
     .mk { kind := "binary_expression", start := 9, stop := 13, field := some "body" }
      [.mk { kind := "identifier", start := 9, stop := 10, field := some "left" } [],
       .mk { kind := "&&", start := 10, stop := 12, field := some "operator", named := false } [],
       .mk { kind := "identifier", start := 12, stop := 13, field := some "right" } []]]

def arrowChoice : Node :=
  .mk { kind := "ternary_expression", start := 3, stop := 14, field := some "body", faulty := true }
    [.mk { kind := "identifier", start := 3, stop := 4, field := some "condition" } [],
     .mk { kind := "?", start := 4, stop := 5, named := false } [],
     chosenArrow,
     .mk { kind := ":", start := 13, stop := 14, named := false } [],
     .mk { kind := "identifier", start := 14, stop := 14, field := some "alternative",
           missing := true, faulty := true } []]

/-- The function that makes the choice. -/
def choosingArrow : Node :=
  .mk { kind := "arrow_function", start := 0, stop := 14, faulty := true }
    [.mk { kind := "identifier", start := 0, stop := 1, field := some "parameter" } [],
     .mk { kind := "=>", start := 1, stop := 3, named := false } [],
     arrowChoice]

/-- A script of one function inside another. -/
def arrowScript : Parsed where
  grammar := "javascript"
  source := Utf8.encode "a=>b?()=>b&&a:".toList
  root :=
    .mk { kind := "program", start := 0, stop := 14, faulty := true }
      [.mk { kind := "expression_statement", start := 0, stop := 14, faulty := true } [choosingArrow]]

theorem walk_in_preorder_arrows :
    chosenArrow.Below choosingArrow
      ∧ ((Walker.start arrowScript.root).run 6).visited.map Node.kind
        = ["program", "expression_statement", "arrow_function", "identifier", "=>",
           "ternary_expression"]
      ∧ ((Walker.start arrowScript.root).run 18).next? ≠ none
      ∧ ((Walker.start arrowScript.root).run 19).next? = none
      ∧ arrowScript.nodeCount = 19 ∧ arrowScript.errorCount = 1
      ∧ (Script.describe arrowScript .javascript "f".toList choosingArrow).complexity = 3
      ∧ (Script.describe arrowScript .javascript "g".toList chosenArrow).complexity = 2
      ∧ (Script.describe arrowScript .javascript "g".toList chosenArrow).complexity
        ≤ (Script.describe arrowScript .javascript "f".toList choosingArrow).complexity := by
  obtain ⟨hturns, hwalk, hcounts, hfunctions⟩ := walk_in_preorder
  have hbelow : chosenArrow.Below choosingArrow :=
    .tail (.single (b := arrowChoice) (by simp [arrowChoice, Node.children]))
      (by simp [choosingArrow, Node.children])
  have hsize : arrowScript.root.size = 19 := by decide +kernel
  obtain ⟨houter, hinside⟩ := hfunctions arrowScript .javascript choosingArrow "f".toList
  obtain ⟨hinner, -⟩ := hfunctions arrowScript .javascript chosenArrow "g".toList
  refine ⟨hbelow, ?_, ?_, ?_, ?_, ?_, ?_, ?_, hinside chosenArrow "g".toList hbelow⟩
  · rw [(hturns _ 6).1, (hwalk _).1]
    rfl
  · rw [ne_eq, (hturns _ 18).2, hsize]
    decide
  · exact (hturns _ 19).2.2 (Nat.le_of_eq hsize)
  · rw [(hcounts arrowScript).1, hsize]
  · rw [(hcounts arrowScript).2]
    decide +kernel
  · rw [houter]
    decide +kernel
  · rw [hinner]
    decide +kernel

end SourceLens
