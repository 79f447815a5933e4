import Mathlib.Tactic.Common
import SourceLens.Proofs.Tree.Faults

/-!
# Spans

In a tree whose children lie inside their parent, in order and apart, every node lies inside the nodes
above it, and of two nodes one lies below the other or one ends before the other starts
(`Nested.below_or_apart`).
-/

namespace SourceLens.Node

/-- Whether nodes lie between two offsets, in order and apart. -/
def InOrder : Nat → List Node → Nat → Prop
  | start, [], stop => start ≤ stop
  | start, node :: rest, stop =>
    start ≤ node.start ∧ node.start ≤ node.stop ∧ InOrder node.stop rest stop

instance : ∀ (start : Nat) (nodes : List Node) (stop : Nat), Decidable (InOrder start nodes stop)
  | start, [], stop => inferInstanceAs (Decidable (start ≤ stop))
  | start, node :: rest, stop =>
    have := instDecidableInOrder node.stop rest stop
    inferInstanceAs
      (Decidable (start ≤ node.start ∧ node.start ≤ node.stop ∧ InOrder node.stop rest stop))

/-- Whether the children of every node of a tree lie inside it, in order and apart. -/
def Nested (root : Node) : Prop :=
  ∀ node ∈ root.preorder, InOrder node.start node.children node.stop

instance (root : Node) : Decidable root.Nested :=
  inferInstanceAs (Decidable (∀ node ∈ root.preorder, _))

/-! ## Nodes in order -/

namespace InOrder

variable {start stop : Nat} {nodes : List Node}

theorem le (h : InOrder start nodes stop) : start ≤ stop := by
  induction nodes generalizing start with
  | nil => exact h
  | cons node rest ih =>
    obtain ⟨hstart, hnode, hrest⟩ := h
    have := ih hrest
    omega

theorem mono {start' stop' : Nat} (h : InOrder start nodes stop) (hstart : start' ≤ start)
    (hstop : stop ≤ stop') : InOrder start' nodes stop' := by
  induction nodes generalizing start start' with
  | nil =>
    have hle : start ≤ stop := h
    show start' ≤ stop'
    omega
  | cons node rest ih =>
    obtain ⟨hnode, hspan, hrest⟩ := h
    exact ⟨by omega, hspan, ih hrest (Nat.le_refl _)⟩

theorem within (h : InOrder start nodes stop) {node : Node} (hnode : node ∈ nodes) :
    start ≤ node.start ∧ node.start ≤ node.stop ∧ node.stop ≤ stop := by
  induction nodes generalizing start with
  | nil => exact absurd hnode List.not_mem_nil
  | cons first rest ih =>
    obtain ⟨hstart, hspan, hrest⟩ := h
    rcases List.mem_cons.1 hnode with rfl | hnode
    · exact ⟨hstart, hspan, hrest.le⟩
    · obtain ⟨hlow, hself, hhigh⟩ := ih hrest hnode
      exact ⟨by omega, hself, hhigh⟩

theorem apart (h : InOrder start nodes stop) {a b : Node} (ha : a ∈ nodes) (hb : b ∈ nodes) :
    a = b ∨ a.stop ≤ b.start ∨ b.stop ≤ a.start := by
  induction nodes generalizing start with
  | nil => exact absurd ha List.not_mem_nil
  | cons first rest ih =>
    obtain ⟨-, -, hrest⟩ := h
    rcases List.mem_cons.1 ha with rfl | ha'
    · rcases List.mem_cons.1 hb with rfl | hb'
      · exact .inl rfl
      · exact .inr (.inl (hrest.within hb').1)
    · rcases List.mem_cons.1 hb with rfl | hb'
      · exact .inr (.inr (hrest.within ha').1)
      · exact ih hrest ha' hb'

theorem filter (h : InOrder start nodes stop) (keep : Node → Bool) :
    InOrder start (nodes.filter keep) stop := by
  induction nodes generalizing start with
  | nil => exact h
  | cons first rest ih =>
    obtain ⟨hstart, hspan, hrest⟩ := h
    rw [List.filter_cons]
    split
    · exact ⟨hstart, hspan, ih hrest⟩
    · exact (ih hrest).mono (by omega) (Nat.le_refl _)

theorem of_append {a b : List Node} (h : InOrder start (a ++ b) stop) :
    ∃ middle, InOrder start a middle ∧ InOrder middle b stop := by
  induction a generalizing start with
  | nil => exact ⟨start, Nat.le_refl start, h⟩
  | cons first a ih =>
    obtain ⟨hstart, hspan, hrest⟩ := h
    obtain ⟨middle, ha, hb⟩ := ih hrest
    exact ⟨middle, ⟨hstart, hspan, ha⟩, hb⟩

end InOrder

/-! ## Nodes of a tree -/

theorem self_mem_preorder (node : Node) : node ∈ node.preorder := by
  rw [preorder_eq]
  exact List.mem_cons_self

theorem mem_preorder_of_mem_children {root child : Node} (h : child ∈ root.children) :
    child ∈ root.preorder := by
  cases root
  exact mem_preorder_mk.2 (.inr ⟨child, h, self_mem_preorder child⟩)

theorem mem_preorder_iff {root node : Node} :
    node ∈ root.preorder ↔ node = root ∨ ∃ child ∈ root.children, node ∈ child.preorder := by
  cases root
  exact mem_preorder_mk

theorem mem_preorder_trans {root node inner : Node} (hnode : node ∈ root.preorder)
    (hinner : inner ∈ node.preorder) : inner ∈ root.preorder := by
  induction root using induction_children with
  | step label children ih =>
    rcases mem_preorder_mk.1 hnode with rfl | ⟨child, hchild, hnode⟩
    · exact hinner
    · exact mem_preorder_mk.2 (.inr ⟨child, hchild, ih child hchild hnode⟩)

theorem mem_preorder_of_child {root node child : Node} (hnode : node ∈ root.preorder)
    (hchild : child ∈ node.children) : child ∈ root.preorder :=
  mem_preorder_trans hnode (mem_preorder_of_mem_children hchild)

theorem mem_preorder_iff_descendants {root node : Node} :
    node ∈ root.preorder ↔ node = root ∨ node ∈ root.descendants := by
  rw [descendants_eq_preorderAll, preorder_eq, List.mem_cons]

theorem mem_descendants_iff {node inner : Node} :
    inner ∈ node.descendants ↔ ∃ child ∈ node.children, inner ∈ child.preorder := by
  rw [descendants_eq_preorderAll, preorderAll_eq_flatMap, List.mem_flatMap]

@[elab_as_elim] theorem induction_below {holds : Node → Prop}
    (step : ∀ node, (∀ inner ∈ node.descendants, holds inner) → holds node) (node : Node) :
    holds node := by
  have hall : ∀ inner ∈ node.preorder, holds inner := by
    induction node using induction_children with
    | step label children ih =>
      have hbelow : ∀ inner ∈ (mk label children).descendants, holds inner := by
        intro inner hinner
        obtain ⟨child, hchild, hinner⟩ := mem_descendants_iff.1 hinner
        exact ih child hchild inner hinner
      intro inner hinner
      rcases mem_preorder_iff_descendants.1 hinner with rfl | hinner
      · exact step _ hbelow
      · exact hbelow inner hinner
  exact hall node (self_mem_preorder node)

namespace Nested

variable {root : Node}

theorem of_mem (h : root.Nested) {node : Node} (hnode : node ∈ root.preorder) : node.Nested :=
  fun _ hinner => h _ (mem_preorder_trans hnode hinner)

theorem inOrder (h : root.Nested) : InOrder root.start root.children root.stop :=
  h root (self_mem_preorder root)

theorem child (h : root.Nested) {child : Node} (hchild : child ∈ root.children) : child.Nested :=
  h.of_mem (mem_preorder_of_mem_children hchild)

theorem within (h : root.Nested) {node : Node} (hnode : node ∈ root.preorder) :
    root.start ≤ node.start ∧ node.stop ≤ root.stop := by
  induction root using induction_children with
  | step label children ih =>
    rcases mem_preorder_mk.1 hnode with rfl | ⟨child, hchild, hnode⟩
    · exact ⟨Nat.le_refl _, Nat.le_refl _⟩
    · obtain ⟨hlow, -, hhigh⟩ := h.inOrder.within hchild
      obtain ⟨hstart, hstop⟩ := ih child hchild (h.child hchild) hnode
      exact ⟨Nat.le_trans hlow hstart, Nat.le_trans hstop hhigh⟩

theorem below_or_apart (h : root.Nested) {a b : Node} (ha : a ∈ root.preorder)
    (hb : b ∈ root.preorder) :
    a ∈ b.preorder ∨ b ∈ a.preorder ∨ a.stop ≤ b.start ∨ b.stop ≤ a.start := by
  induction root using induction_children with
  | step label children ih =>
    rcases mem_preorder_mk.1 ha with rfl | ⟨x, hx, hax⟩
    · exact .inr (.inl hb)
    rcases mem_preorder_mk.1 hb with rfl | ⟨y, hy, hby⟩
    · exact .inl ha
    rcases h.inOrder.apart hx hy with rfl | hapart
    · exact ih x hx (h.child hx) hax hby
    · -- the nodes lie in two children, one of which ends before the other starts
      have hax := (h.child hx).within hax
      have hby := (h.child hy).within hby
      omega

end Nested

end SourceLens.Node
