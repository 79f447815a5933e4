import SourceLens.Proofs.Text.Solid
import SourceLens.Proofs.Tree.Coverage
import SourceLens.Stylesheet.Format

/-!
# Statements of a sheet as they are written

A statement is written anew from its node: a comment and a plain statement from their text, a
declaration with its colon set apart, a statement with a block from its header and the statements in
the block. If blocks end their statements and their named children cover what stands between their
braces, then a statement keeps its characters in order, blanks and semicolons apart (`filter_render`).
-/

namespace SourceLens.Stylesheet

open Utf8

/-- Characters other than blanks and semicolons. -/
def lasting (c : Char) : Bool := !(isBlank c || c = ';')

theorem solid_lasting : Text.Solid lasting := fun c hc => by rw [lasting, hc]; rfl

theorem lasting_semicolon : lasting ';' = false := by
  rw [lasting, decide_eq_true rfl, Bool.or_true]
  rfl

/-! ## Sheets whose blocks are well formed -/

section Shape

variable (parsed : Parsed) (text : Text)

/-- A block between braces, whose named children cover what stands between them. -/
inductive Braced (block : Node) : Prop
  | intro (opening : Node) (inner : List Node) (closing : Node)
    (children : block.children = opening :: (inner ++ [closing]))
    (unnamed : opening.named = false ∧ closing.named = false)
    (spelled : parsed.text opening = ['\x7b'] ∧ parsed.text closing = ['\x7d'])
    (ends : opening.start = block.start ∧ closing.stop = block.stop)
    (covered : Node.Covered lasting text opening.stop block.namedChildren closing.start)

/-- What makes a tree one of a sheet that its named statements cover: a statement ends with its block,
and the blocks are well formed. -/
structure IsSheet : Prop where
  tree : parsed.root.IsTreeOf text
  covered : Node.Covered lasting text 0 parsed.root.namedChildren (size text)
  ends : ∀ node ∈ parsed.root.preorder, ∀ block ∈ block? node, block.stop = node.stop
  braced : ∀ node ∈ parsed.root.preorder, ∀ block ∈ block? node, Braced parsed text block

end Shape

/-! ## Plain statements and declarations -/

theorem filter_dropSemicolons (text : Text) :
    (dropSemicolons text).filter lasting = text.filter lasting := by
  rw [dropSemicolons, solid_lasting.filter_trimEnd, Text.filter_dropWhile_reverse,
    solid_lasting.filter_trim]
  intro c hc
  rw [of_decide_eq_true hc, lasting_semicolon]

theorem filter_declarationText (text : Text) :
    (declarationText text).filter lasting = text.filter lasting := by
  rw [← filter_dropSemicolons text, declarationText]
  generalize dropSemicolons text = content
  split
  case h_1 hcolon =>
    rw [List.filter_append, solid_lasting.filter_collapse, List.filter_singleton, lasting_semicolon]
    exact List.append_nil _
  case h_2 c value hcolon =>
    obtain rfl : c = ':' := by
      have hhead := List.head?_dropWhile_not (fun c => decide (c ≠ ':')) content
      rw [hcolon] at hhead
      simpa using hhead
    have hsplit : content = content.takeWhile (· ≠ ':') ++ ':' :: value := by
      rw [← hcolon, List.takeWhile_append_dropWhile]
    have hmark : ": ".toList.filter lasting = [':'] := by decide
    have hvalue : (':' :: value).filter lasting = ':' :: value.filter lasting :=
      List.filter_cons_of_pos (by decide)
    conv_rhs => rw [hsplit]
    rw [List.filter_append, List.filter_append, List.filter_append, List.filter_append, hmark,
      solid_lasting.filter_trim, solid_lasting.filter_trim, List.filter_singleton, lasting_semicolon,
      hvalue]
    simp

/-! ## Statements with blocks -/

section Render

variable {width : Nat} {parsed : Parsed} {text : Text}

theorem renderItems_eq (depth : Nat) (nodes : List Node) :
    renderItems width parsed depth nodes
      = (nodes.filter Node.named).map (render width parsed depth) := by
  induction nodes with
  | nil => rfl
  | cons node rest ih =>
    rw [renderItems, ih, List.filter_cons]
    split
    · rw [List.map_cons]
    · rfl

theorem renderBlock_eq (depth : Nat) (nodes : List Node) :
    renderBlock width parsed depth nodes
      = ((nodes.filter Node.named).find? (·.kind = "block")).map fun block =>
          (block.start, block.namedChildren.map (render width parsed depth)) := by
  induction nodes with
  | nil => rfl
  | cons node rest ih =>
    obtain ⟨label, children⟩ := node
    rw [renderBlock, ih, renderInside, renderItems_eq, List.filter_cons]
    cases (Node.mk label children).named with
    | false => rfl
    | true =>
      rw [Bool.true_and, if_pos rfl, List.find?_cons]
      cases decide ((Node.mk label children).kind = "block") <;> rfl

/-- A statement with a block from its header and the statements in the block. -/
def blockText (width : Nat) (parsed : Parsed) (depth : Nat) (node block : Node) : Text :=
  let pad := Text.spaces (width * depth)
  let header := Text.collapse (parsed.slice node.start block.start)
  let items := block.namedChildren.map (render width parsed (depth + 1))
  if items.isEmpty then pad ++ header ++ " \x7b\x7d".toList
  else pad ++ header ++ " \x7b\n".toList ++ Text.unlines items ++ '\n' :: pad ++ ['\x7d']

theorem render_eq (depth : Nat) (node : Node) :
    render width parsed depth node
      = if node.kind = "comment" then
          Text.spaces (width * depth) ++ Text.trim (parsed.text node)
        else if node.kind = "declaration" then
          Text.spaces (width * depth) ++ declarationText (parsed.text node)
        else (block? node).elim (Text.spaces (width * depth) ++ Text.collapse (parsed.text node))
          (blockText width parsed depth node) := by
  obtain ⟨label, children⟩ := node
  rw [render, renderBlock_eq, block?, Node.namedChildren]
  dsimp only [Node.children]
  cases (children.filter Node.named).find? (·.kind = "block") <;> rfl

theorem filter_braced (hsource : parsed.source = encode text) (htree : parsed.root.IsTreeOf text)
    {block : Node} (hblock : block ∈ parsed.root.preorder) (hbraced : Braced parsed text block) :
    (parsed.text block).filter lasting
      = '\x7b' :: (block.namedChildren.flatMap fun item => (parsed.text item).filter lasting)
        ++ ['\x7d'] := by
  obtain ⟨opening, inner, closing, hchildren, hunnamed, hspelled, hends, hcovered⟩ := hbraced
  have hmem : ∀ child ∈ block.children, child ∈ parsed.root.preorder := fun _ =>
    Node.mem_preorder_of_child hblock
  have hopening := hmem opening (by rw [hchildren]; simp)
  have hclosing := hmem closing (by rw [hchildren]; simp)
  have hnested := (htree.nested.of_mem hblock).inOrder
  rw [hchildren] at hnested
  obtain ⟨-, hopen, hrest⟩ := hnested
  obtain ⟨middle, hinner, hmiddle, hclose, -⟩ := hrest.of_append
  have hinside : Node.InOrder opening.stop block.namedChildren closing.start := by
    have hnamed : block.namedChildren = inner.filter Node.named := by
      rw [Node.namedChildren, hchildren, List.filter_cons, hunnamed.1, List.filter_append,
        List.filter_singleton, hunnamed.2]
      simp
    rw [hnamed]
    exact (hinner.mono (Nat.le_refl _) hmiddle).filter _
  have hitems := Parsed.flatMap_filter_text hsource htree
    (fun item hitem => hmem item (List.mem_filter.1 hitem).1) hinside hcovered
  have hle := hinside.le
  have hfirst : ['\x7b'].filter lasting = _ := hspelled.1 ▸ Parsed.filter_text hsource htree hopening
  have hlast : ['\x7d'].filter lasting = _ := hspelled.2 ▸ Parsed.filter_text hsource htree hclosing
  rw [Parsed.filter_text hsource htree hblock, ← hends.1, ← hends.2, between_append hopen (by omega),
    between_append hle hclose, List.map_append, List.map_append, ← hfirst, ← hitems, ← hlast]
  rfl

theorem filter_blockText (hsource : parsed.source = encode text) (hsheet : IsSheet parsed text)
    {node block : Node} (hnode : node ∈ parsed.root.preorder) (hblock : block ∈ block? node)
    (depth : Nat) (hitems : ∀ item ∈ block.namedChildren,
      (render width parsed (depth + 1) item).filter lasting = (parsed.text item).filter lasting) :
    (blockText width parsed depth node block).filter lasting = (parsed.text node).filter lasting := by
  have hchild : block ∈ node.children := (List.mem_filter.1 (List.mem_of_find?_eq_some hblock)).1
  have hmem := Node.mem_preorder_of_child hnode hchild
  obtain ⟨hstart, -⟩ := hsheet.tree.aligned node hnode
  obtain ⟨hmiddle, -⟩ := hsheet.tree.aligned block hmem
  obtain ⟨hlow, hspan, -⟩ := (hsheet.tree.nested.of_mem hnode).inOrder.within hchild
  have hpad : (Text.spaces (width * depth)).filter lasting = [] := solid_lasting.filter_spaces _
  have hheader : (parsed.slice node.start block.start).filter lasting = _ :=
    Parsed.filter_slice hsource hstart hmiddle hlow
  have hwhole : (parsed.text node).filter lasting
      = (parsed.slice node.start block.start).filter lasting ++ (parsed.text block).filter lasting := by
    have hend := hsheet.ends node hnode block hblock
    rw [Parsed.filter_text hsource hsheet.tree hnode, Parsed.filter_text hsource hsheet.tree hmem,
      hheader, ← hend, between_append hlow hspan, List.map_append]
  have hlines : (Text.unlines (block.namedChildren.map (render width parsed (depth + 1)))).filter lasting
      = block.namedChildren.flatMap fun item => (parsed.text item).filter lasting := by
    rw [Text.filter_unlines (by decide), List.flatMap_map]
    exact List.flatMap_congr hitems
  have hopening : " \x7b\n".toList.filter lasting = ['\x7b'] := by decide
  have hclosing : ['\x7d'].filter lasting = ['\x7d'] := by decide
  have hfeed (rest : Text) : ('\n' :: rest).filter lasting = rest.filter lasting :=
    List.filter_cons_of_neg (by decide)
  rw [hwhole, filter_braced hsource hsheet.tree hmem (hsheet.braced node hnode block hblock), blockText]
  split
  case isTrue hempty =>
    have hnone : block.namedChildren = [] := by simpa using hempty
    rw [hnone, List.filter_append, List.filter_append, hpad, solid_lasting.filter_collapse]
    rfl
  case isFalse =>
    simp only [List.filter_append, hpad, solid_lasting.filter_collapse, hopening, hclosing, hlines,
      hfeed, List.nil_append, List.append_assoc, List.cons_append]

/-- A statement is written with the characters it holds, blanks and semicolons apart. -/
theorem filter_render (width : Nat) (hsource : parsed.source = encode text)
    (hsheet : IsSheet parsed text) {node : Node} (hnode : node ∈ parsed.root.preorder) (depth : Nat) :
    (render width parsed depth node).filter lasting = (parsed.text node).filter lasting := by
  induction node using Node.induction_below generalizing depth with
  | step node ih =>
    have hpad : (Text.spaces (width * depth)).filter lasting = [] := solid_lasting.filter_spaces _
    rw [render_eq]
    split_ifs
    · rw [List.filter_append, hpad, solid_lasting.filter_trim, List.nil_append]
    · rw [List.filter_append, hpad, filter_declarationText, List.nil_append]
    · cases hblock : block? node with
      | none =>
        rw [Option.elim_none, List.filter_append, hpad, solid_lasting.filter_collapse,
          List.nil_append]
      | some block =>
        apply filter_blockText hsource hsheet hnode hblock
        intro item hitem
        -- the statements in the block are children of a child
        have hchild : block ∈ node.children :=
          (List.mem_filter.1 (List.mem_of_find?_eq_some hblock)).1
        have hitem : item ∈ block.children := (List.mem_filter.1 hitem).1
        have hbelow : item ∈ node.descendants :=
          Node.mem_descendants_iff.2 ⟨block, hchild, Node.mem_preorder_of_mem_children hitem⟩
        have hmem := Node.mem_preorder_of_child (Node.mem_preorder_of_child hnode hchild) hitem
        exact ih item hbelow hmem (depth + 1)

end Render

end SourceLens.Stylesheet
