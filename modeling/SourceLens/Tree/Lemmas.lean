import SourceLens.Tree.Node

/-!
# Walks

The walk with a stack visits the nodes of a tree in the order of the recursive definition, and as
many of them as the tree has.
-/

namespace SourceLens.Node

theorem preorderAll_append (a b : List Node) :
    preorderAll (a ++ b) = preorderAll a ++ preorderAll b := by
  induction a with
  | nil => simp [preorderAll]
  | cons node rest ih => simp [preorderAll, ih]

theorem preorder_eq (node : Node) : preorder node = node :: preorderAll node.children := by
  cases node
  simp [preorder, children]

theorem walkFrom_eq_preorderAll (stack : List Node) : walkFrom stack = preorderAll stack := by
  fun_induction walkFrom stack with
  | case1 => simp [preorderAll]
  | case2 node stack ih => rw [ih, preorderAll, preorderAll_append, preorder_eq, List.cons_append]

theorem walk_eq (node : Node) : walk node = preorder node := by
  rw [walk, walkFrom_eq_preorderAll, preorderAll, preorderAll, List.append_nil]

theorem descendants_eq_preorderAll (node : Node) : descendants node = preorderAll node.children :=
  walkFrom_eq_preorderAll node.children

theorem length_walkFrom (stack : List Node) : (walkFrom stack).length = sizeAll stack := by
  fun_induction walkFrom stack with
  | case1 => simp [sizeAll]
  | case2 node stack ih =>
    rw [List.length_cons, ih, sizeAll_append, sizeAll, size_eq]
    omega

end SourceLens.Node
