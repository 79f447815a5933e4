import SourceLens.Proofs.Script.Injection
import SourceLens.Proofs.Text.Offsets
import SourceLens.Proofs.Tree.Spans

/-!
# Trees of a text

A tree of a text has nodes that start and end between characters, and children inside their parent, in
order and apart. If the characters of a class lie in some nodes in order, then what two offsets enclose
is cut into the texts of these nodes (`flatMap_filter_text`, `filter_text_eq_flatMap`).
-/

namespace SourceLens

open Utf8
open Script (IsBoundary)

namespace Utf8

theorem exists_cut {text : Text} {start stop : Nat} (hstart : IsBoundary text start)
    (hstop : IsBoundary text stop) (hle : start ≤ stop) :
    ∃ before piece after, text = before ++ (piece ++ after) ∧ size before = start
      ∧ size before + size piece = stop := by
  obtain ⟨before, rest, rfl, hbefore⟩ := hstart
  obtain ⟨front, after, hcut, hfront⟩ := hstop
  rcases List.append_eq_append_iff.1 hcut with ⟨piece, rfl, hrest⟩ | ⟨piece, hpiece, hafter⟩
  · rw [size_append] at hfront
    exact ⟨before, piece, after, by rw [hrest], hbefore, hfront⟩
  · -- the second cut is not in front of the first one, so both are the same
    have hsize : size before = size front + size piece := by rw [hpiece, size_append]
    have hnil : piece = [] := by
      by_contra hne
      have := size_pos hne
      omega
    subst hnil
    refine ⟨before, [], rest, rfl, hbefore, ?_⟩
    rw [hsize, hfront]
    rfl

theorem filter_decode_slice {keep : Char → Bool} {text : Text} {start stop : Nat}
    (hstart : IsBoundary text start) (hstop : IsBoundary text stop) (hle : start ≤ stop) :
    (decode (Bytes.slice start stop (encode text))).filter keep
      = (between keep text start stop).map (·.2) := by
  obtain ⟨before, piece, after, rfl, rfl, rfl⟩ := exists_cut hstart hstop hle
  rw [slice_encode, decode_encode, between_piece, map_snd_filter_placed]

end Utf8

namespace Node

/-- Whether every character of a class that starts between two offsets starts in one of several nodes.
-/
def Covered (keep : Char → Bool) (text : Text) (start : Nat) (nodes : List Node) (stop : Nat) : Prop :=
  ∀ mark ∈ between keep text start stop, ∃ node ∈ nodes, node.start ≤ mark.1 ∧ mark.1 < node.stop

instance (keep : Char → Bool) (text : Text) (start : Nat) (nodes : List Node) (stop : Nat) :
    Decidable (Covered keep text start nodes stop) :=
  inferInstanceAs (Decidable (∀ mark ∈ between keep text start stop,
    ∃ node ∈ nodes, node.start ≤ mark.1 ∧ mark.1 < node.stop))

theorem between_eq_flatMap {keep : Char → Bool} {text : Text} {start stop : Nat} {nodes : List Node}
    (hnodes : InOrder start nodes stop) (hcovered : Covered keep text start nodes stop) :
    between keep text start stop
      = nodes.flatMap fun node => between keep text node.start node.stop := by
  induction nodes generalizing start with
  | nil =>
    rw [List.flatMap_nil, List.eq_nil_iff_forall_not_mem]
    intro mark hmark
    obtain ⟨node, hnode, -⟩ := hcovered mark hmark
    exact List.not_mem_nil hnode
  | cons node rest ih =>
    obtain ⟨hstart, hspan, hrest⟩ := hnodes
    have hstop := hrest.le
    have hgap : between keep text start node.start = [] := by
      rw [List.eq_nil_iff_forall_not_mem]
      intro mark hmark
      obtain ⟨hplaced, hkeep, hlow, hhigh⟩ := mem_between.1 hmark
      obtain ⟨inner, hinner, hin⟩ := hcovered mark (mem_between.2 ⟨hplaced, hkeep, hlow, by omega⟩)
      rcases List.mem_cons.1 hinner with rfl | hinner
      · omega
      · have := hrest.within hinner
        omega
    have hlater : Covered keep text node.stop rest stop := by
      intro mark hmark
      obtain ⟨hplaced, hkeep, hlow, hhigh⟩ := mem_between.1 hmark
      obtain ⟨inner, hinner, hin⟩ := hcovered mark (mem_between.2 ⟨hplaced, hkeep, by omega, hhigh⟩)
      rcases List.mem_cons.1 hinner with rfl | hinner
      · omega
      · exact ⟨inner, hinner, hin⟩
    rw [between_append hstart (Nat.le_trans hspan hstop), hgap, List.nil_append,
      between_append hspan hstop, ih hrest hlater, List.flatMap_cons]

/-- What makes a tree one of a text: nodes start and end between characters, and the children of a node
lie inside it, in order and apart. -/
structure IsTreeOf (text : Text) (root : Node) : Prop where
  aligned : ∀ node ∈ root.preorder, IsBoundary text node.start ∧ IsBoundary text node.stop
  nested : root.Nested

theorem IsTreeOf.inOrder_children {text : Text} {root : Node} (htree : root.IsTreeOf text) :
    InOrder 0 root.children (Utf8.size text) := by
  obtain ⟨-, front, back, rfl, hstop⟩ := htree.aligned root (self_mem_preorder root)
  have hsize := size_append front back
  exact htree.nested.inOrder.mono (Nat.zero_le _) (by omega)

end Node

namespace Parsed

variable {parsed : Parsed} {text : Text} {keep : Char → Bool}

theorem source_of_parse? {parser : Parser} {grammar : Grammar}
    (h : (parser.parse? grammar text).value = some parsed) : parsed.source = encode text :=
  (Parser.parse_eq_ok (Parser.parse_of_parse? h)).2

theorem filter_slice (hsource : parsed.source = encode text) {start stop : Nat}
    (hstart : IsBoundary text start) (hstop : IsBoundary text stop) (hle : start ≤ stop) :
    (parsed.slice start stop).filter keep = (between keep text start stop).map (·.2) := by
  rw [slice, hsource, filter_decode_slice hstart hstop hle]

theorem filter_text (hsource : parsed.source = encode text) (htree : parsed.root.IsTreeOf text)
    {node : Node} (hnode : node ∈ parsed.root.preorder) :
    (parsed.text node).filter keep = (between keep text node.start node.stop).map (·.2) := by
  obtain ⟨hstart, hstop⟩ := htree.aligned node hnode
  exact filter_slice hsource hstart hstop (htree.nested.of_mem hnode).inOrder.le

/-- What nodes of the tree cover in order is the text of one after another. -/
theorem flatMap_filter_text (hsource : parsed.source = encode text) (htree : parsed.root.IsTreeOf text)
    {nodes : List Node} (hmem : ∀ node ∈ nodes, node ∈ parsed.root.preorder) {start stop : Nat}
    (hnodes : Node.InOrder start nodes stop) (hcovered : Node.Covered keep text start nodes stop) :
    nodes.flatMap (fun node => (parsed.text node).filter keep)
      = (between keep text start stop).map (·.2) := by
  rw [Node.between_eq_flatMap hnodes hcovered, List.map_flatMap]
  exact List.flatMap_congr fun node hnode => filter_text hsource htree (hmem node hnode)

/-- A node that its children cover is the text of one after another. -/
theorem filter_text_eq_flatMap (hsource : parsed.source = encode text)
    (htree : parsed.root.IsTreeOf text) {node : Node} (hnode : node ∈ parsed.root.preorder)
    (hcovered : Node.Covered keep text node.start node.children node.stop) :
    (parsed.text node).filter keep
      = node.children.flatMap fun child => (parsed.text child).filter keep := by
  have hmem : ∀ child ∈ node.children, child ∈ parsed.root.preorder := fun _ =>
    Node.mem_preorder_of_child hnode
  have hinside := (htree.nested.of_mem hnode).inOrder
  rw [flatMap_filter_text hsource htree hmem hinside hcovered, filter_text hsource htree hnode]

theorem filter_eq_flatMap (hsource : parsed.source = encode text) (htree : parsed.root.IsTreeOf text)
    (hcovered : Node.Covered keep text 0 parsed.root.children (size text)) :
    text.filter keep = parsed.root.children.flatMap fun child => (parsed.text child).filter keep := by
  have hmem : ∀ child ∈ parsed.root.children, child ∈ parsed.root.preorder := fun _ =>
    Node.mem_preorder_of_mem_children
  have hinside := htree.inOrder_children
  rw [flatMap_filter_text hsource htree hmem hinside hcovered, between_size, map_snd_filter_placed]

end Parsed

end SourceLens
