import SourceLens.Proofs.Stylesheet.Masking
import SourceLens.Proofs.Stylesheet.Rendering

/-!
# Sheets with their use statements

Use statements are blanked out of the tree and merged with its statements by position. Every character
of the sheet, blanks and semicolons apart, is one of a use statement or one of the masked text
(`Laid.perm_marks`), and none of the masked text stands in a use statement. So in the merged order the
offsets of the characters increase (`marks_merged`), and formatting loses nothing but blanks and
semicolons (`format_loses_nothing`).
-/

namespace SourceLens.Stylesheet

open Utf8

/-! ## Merging by position -/

/-- Two lists in order merge in order if every item of the first stands before or behind every item of
the second, and before it if both start at one place. -/
theorem pairwise_mergeSort_append {α : Type} {start : α → Nat} {before : α → α → Prop}
    {front back : List α} (hfront : front.Pairwise fun a b => start a < start b ∧ before a b)
    (hback : back.Pairwise fun a b => start a ≤ start b ∧ before a b)
    (hcross : ∀ a ∈ front, ∀ b ∈ back,
      (start b < start a → before b a) ∧ (start a ≤ start b → before a b)) :
    ((front ++ back).mergeSort fun a b => start a ≤ start b).Pairwise before := by
  have htrans : ∀ a b c : α, decide (start a ≤ start b) = true → decide (start b ≤ start c) = true →
      decide (start a ≤ start c) = true := by
    intro a b c
    simp only [decide_eq_true_eq]
    omega
  have htotal : ∀ a b : α, (decide (start a ≤ start b) || decide (start b ≤ start a)) = true := by
    intro a b
    simp only [Bool.or_eq_true, decide_eq_true_eq]
    omega
  induction front with
  | nil =>
    rw [List.nil_append, List.mergeSort_of_pairwise]
    · exact hback.imp And.right
    · exact hback.imp fun h => decide_eq_true h.1
  | cons first rest ih =>
    obtain ⟨hfirst, hrest⟩ := List.pairwise_cons.1 hfront
    have hlater := ih hrest fun a ha => hcross a (List.mem_cons_of_mem first ha)
    obtain ⟨low, high, hall, hothers, hlow⟩ :=
      List.mergeSort_cons htrans htotal first (rest ++ back)
    have hsorted := List.pairwise_mergeSort htrans htotal (first :: (rest ++ back))
    have hmem : ∀ a ∈ low ++ high, a ∈ rest ++ back := by
      intro a ha
      rw [← hothers] at ha
      exact List.mem_mergeSort.1 ha
    rw [List.cons_append, hall]
    rw [hall] at hsorted
    rw [hothers] at hlater
    obtain ⟨hlow', hhigh', hbetween⟩ := List.pairwise_append.1 hlater
    refine List.pairwise_append.2 ⟨hlow', List.pairwise_cons.2 ⟨fun b hb => ?_, hhigh'⟩, ?_⟩
    · -- what is sorted behind the first item starts no earlier
      have hle : start first ≤ start b := by
        have h := (List.pairwise_cons.1 (List.pairwise_append.1 hsorted).2.1).1 b hb
        simpa using h
      rcases List.mem_append.1 (hmem b (List.mem_append_right low hb)) with hb | hb
      · exact (hfirst b hb).2
      · exact (hcross first List.mem_cons_self b hb).2 hle
    · intro a ha b hb
      rcases List.mem_cons.1 hb with rfl | hb
      · have hlt : start a < start b := by simpa using hlow a ha
        rcases List.mem_append.1 (hmem a (List.mem_append_left high ha)) with ha | ha
        · have := (hfirst a ha).1
          omega
        · exact (hcross b List.mem_cons_self a ha).1 hlt
      · exact hbetween a ha b hb

/-! ## The characters of use statements -/

/-- The characters of a text that stands at an offset, blanks and semicolons apart, each with the
offset of its first byte. -/
def marks (offset : Nat) (text : Text) : List (Nat × Char) :=
  (Utf8.placed offset text).filter fun mark => lasting mark.2

theorem marks_append (offset : Nat) (a b : Text) :
    marks offset (a ++ b) = marks offset a ++ marks (offset + size a) b := by
  rw [marks, placed_append, List.filter_append, marks, marks]

theorem marks_within {offset : Nat} {text : Text} {mark : Nat × Char} (h : mark ∈ marks offset text) :
    offset ≤ mark.1 ∧ mark.1 < offset + size text := by
  have hplaced := placed_within (List.mem_filter.1 h).1
  exact ⟨hplaced.1, hplaced.2.1⟩

theorem marks_blankBytes (offset : Nat) (text : Text) : marks offset (blankBytes text) = [] := by
  rw [marks, List.filter_eq_nil_iff]
  intro mark hmark
  rcases isFiller_blankBytes text _ (placed_within hmark).2.2 with hspace | hfeed
  · rw [hspace]
    decide
  · rw [hfeed]
    decide

def UseRule.marks (rule : UseRule) : List (Nat × Char) :=
  Stylesheet.marks rule.startByte rule.statement

theorem Laid.perm_marks {front text masked : Text} {rules : List UseRule}
    (h : Laid front text rules masked) :
    (Stylesheet.marks (size front) text).Perm
      (rules.flatMap UseRule.marks ++ Stylesheet.marks (size front) masked) := by
  induction h with
  | nil front => exact .nil
  | @keep front gap text masked rules _ ih =>
    rw [size_append] at ih
    rw [marks_append, marks_append]
    exact (ih.append_left _).trans (List.perm_append_comm_assoc ..)
  | @rule front statement text masked rules _ _ ih =>
    rw [size_append] at ih
    have hrule : (ruleAt front statement).marks = Stylesheet.marks (size front) statement := rfl
    rw [marks_append, marks_append, marks_blankBytes, size_blankBytes, List.flatMap_cons, hrule,
      List.nil_append, List.append_assoc]
    exact ih.append_left _

theorem marks_mask_outside {text : Text} {rule : UseRule} (hrule : rule ∈ useRules text)
    {mark : Nat × Char} (hmark : mark ∈ marks 0 (mask text)) :
    mark.1 < rule.startByte ∨ rule.stopByte ≤ mark.1 := by
  obtain ⟨before, after, before', after', -, hmask, hsize, heq⟩ :=
    (laid_useRules text).placed rule hrule
  have hstart : rule.startByte = size before := by
    rw [heq]
    rfl
  rw [hmask, marks_append, marks_append, marks_blankBytes, size_blankBytes, List.nil_append] at hmark
  rcases List.mem_append.1 hmark with hmark | hmark
  · have := marks_within hmark
    omega
  · have := marks_within hmark
    rw [UseRule.stopByte]
    omega

/-! ## Chunks and their characters -/

/-- A chunk and the characters it is written from. -/
abbrev Sourced := Chunk × List (Nat × Char)

namespace Sourced

def ofUse (rule : UseRule) : Sourced :=
  ({ startByte := rule.startByte, text := Text.collapse rule.statement, hasBlock := false }, rule.marks)

def ofNode (width : Nat) (parsed : Parsed) (text : Text) (node : Node) : Sourced :=
  ({ startByte := node.start
     text := render width parsed 0 node
     hasBlock := (block? node).isSome },
   between lasting text node.start node.stop)

/-- Whether the characters of one chunk stand before those of another. -/
def Before (a b : Sourced) : Prop := ∀ x ∈ a.2, ∀ y ∈ b.2, x.1 < y.1

/-- Whether a chunk holds the characters it is written from. -/
def Holds (chunk : Sourced) : Prop := chunk.1.text.filter lasting = chunk.2.map (·.2)

end Sourced

def sourcedChunks (width : Nat) (parsed : Parsed) (text : Text) : List Sourced :=
  ((useRules text).map Sourced.ofUse
      ++ parsed.root.namedChildren.map (Sourced.ofNode width parsed (mask text))).mergeSort
    fun a b => a.1.startByte ≤ b.1.startByte

section Format

variable {parser : Parser} {width : Nat} {parsed : Parsed} {text : Text}

theorem chunks_eq (width : Nat) (parsed : Parsed) (text : Text) :
    chunks width parsed (useRules text) = (sourcedChunks width parsed text).map Prod.fst := by
  have hsort (items : List Sourced) :
      (items.mergeSort fun a b => a.1.startByte ≤ b.1.startByte).map Prod.fst
        = (items.map Prod.fst).mergeSort fun a b => a.startByte ≤ b.startByte :=
    List.map_mergeSort fun _ _ _ _ => rfl
  rw [sourcedChunks, hsort, chunks, List.map_append, List.map_map, List.map_map]
  rfl

theorem pairwise_ofUse (text : Text) : ((useRules text).map Sourced.ofUse).Pairwise fun a b =>
    a.1.startByte < b.1.startByte ∧ a.Before b := by
  obtain ⟨hpairs, hall⟩ := (laid_useRules text).ordered
  rw [List.pairwise_map]
  refine hpairs.imp_of_mem fun {a b} ha hb hab => ⟨?_, fun x hx y hy => ?_⟩
  · have hspan := (hall a ha).2
    show a.startByte < b.startByte
    omega
  · have hx := (marks_within hx).2
    have hy := (marks_within hy).1
    rw [UseRule.stopByte] at hab
    omega

theorem pairwise_ofNode {start stop : Nat} {nodes : List Node} (h : Node.InOrder start nodes stop) :
    (nodes.map (Sourced.ofNode width parsed text)).Pairwise fun a b =>
      a.1.startByte ≤ b.1.startByte ∧ a.Before b := by
  induction nodes generalizing start with
  | nil => exact .nil
  | cons node rest ih =>
    obtain ⟨-, hspan, hrest⟩ := h
    rw [List.map_cons]
    refine List.pairwise_cons.2 ⟨fun b hb => ?_, ih hrest⟩
    obtain ⟨later, hlater, rfl⟩ := List.mem_map.1 hb
    obtain ⟨hlow, -⟩ := hrest.within hlater
    refine ⟨Nat.le_trans hspan hlow, fun x hx y hy => ?_⟩
    have hx := (mem_between.1 hx).2.2.2
    have hy := (mem_between.1 hy).2.2.1
    omega

theorem use_before_or_behind (hinner : hasInnerUse parsed (useRules text) = false) {rule : UseRule}
    (hrule : rule ∈ useRules text) {node : Node} (hnode : node ∈ parsed.root.namedChildren) :
    (node.start < rule.startByte →
      (Sourced.ofNode width parsed (mask text) node).Before (.ofUse rule))
    ∧ (rule.startByte ≤ node.start →
      Sourced.Before (.ofUse rule) (.ofNode width parsed (mask text) node)) := by
  have houtside : ¬(node.start < rule.startByte ∧ rule.startByte < node.stop) := by
    rw [hasInnerUse, List.any_eq_false] at hinner
    have h := hinner node hnode
    rw [Bool.not_eq_true, List.any_eq_false] at h
    simpa using h rule hrule
  refine ⟨fun hlow x hx y hy => ?_, fun hlow x hx y hy => ?_⟩
  · have hx := (mem_between.1 hx).2.2.2
    have hy := (marks_within hy).1
    omega
  · -- what the node holds lies in the masked text, so not in the statement
    obtain ⟨hplaced, hkeep, hstart, -⟩ := mem_between.1 hy
    have hy := marks_mask_outside hrule (List.mem_filter.2 ⟨hplaced, hkeep⟩)
    have hx := (marks_within hx).2
    rw [UseRule.stopByte] at hy
    omega

theorem perm_sourcedChunks (hsheet : IsSheet parsed (mask text)) :
    ((sourcedChunks width parsed text).flatMap Prod.snd).Perm (marks 0 text) := by
  have hnodes : Node.InOrder 0 parsed.root.namedChildren (size (mask text)) :=
    hsheet.tree.inOrder_children.filter _
  have hmasked : parsed.root.namedChildren.flatMap
      (fun node => (Sourced.ofNode width parsed (mask text) node).2) = marks 0 (mask text) := by
    rw [marks, ← between_size, Node.between_eq_flatMap hnodes hsheet.covered]
    rfl
  have hall := (laid_useRules text).perm_marks
  refine ((List.mergeSort_perm _ _).flatMap_right Prod.snd).trans ?_
  rw [List.flatMap_append, List.flatMap_map, List.flatMap_map, hmasked]
  exact hall.symm

theorem flatMap_sourcedChunks (hsheet : IsSheet parsed (mask text))
    (hinner : hasInnerUse parsed (useRules text) = false) :
    (sourcedChunks width parsed text).flatMap Prod.snd = marks 0 text := by
  have hnodes : Node.InOrder 0 parsed.root.namedChildren (size (mask text)) :=
    hsheet.tree.inOrder_children.filter _
  have hordered : (sourcedChunks width parsed text).Pairwise Sourced.Before := by
    refine pairwise_mergeSort_append (pairwise_ofUse text) (pairwise_ofNode hnodes) ?_
    intro a ha b hb
    obtain ⟨rule, hrule, rfl⟩ := List.mem_map.1 ha
    obtain ⟨node, hnode, rfl⟩ := List.mem_map.1 hb
    exact use_before_or_behind hinner hrule hnode
  have hchunk : ∀ chunk ∈ sourcedChunks width parsed text, chunk.2.Pairwise fun a b => a.1 < b.1 := by
    intro chunk hchunk
    rcases List.mem_append.1 (List.mem_mergeSort.1 hchunk) with hmem | hmem
    · obtain ⟨rule, -, rfl⟩ := List.mem_map.1 hmem
      exact (placed_increasing _ _).filter _
    · obtain ⟨node, -, rfl⟩ := List.mem_map.1 hmem
      exact between_increasing
  have hincreasing : ((sourcedChunks width parsed text).flatMap Prod.snd).Pairwise
      fun a b => a.1 < b.1 := List.pairwise_flatMap.2 ⟨hchunk, hordered⟩
  have hmarks : (marks 0 text).Pairwise fun a b => a.1 < b.1 := (placed_increasing 0 text).filter _
  refine List.Perm.eq_of_pairwise (fun a b _ _ hab hba => ?_) hincreasing hmarks
    (perm_sourcedChunks hsheet)
  omega

theorem holds_of_mem (hsource : parsed.source = encode (mask text))
    (hsheet : IsSheet parsed (mask text)) {chunk : Sourced}
    (hchunk : chunk ∈ sourcedChunks width parsed text) : chunk.Holds := by
  rcases List.mem_append.1 (List.mem_mergeSort.1 hchunk) with hmem | hmem
  · obtain ⟨rule, -, rfl⟩ := List.mem_map.1 hmem
    rw [Sourced.Holds, Sourced.ofUse, solid_lasting.filter_collapse, UseRule.marks, marks,
      map_snd_filter_placed]
  · obtain ⟨node, hnode, rfl⟩ := List.mem_map.1 hmem
    have hroot := Node.mem_preorder_of_mem_children (List.mem_filter.1 hnode).1
    rw [Sourced.Holds, Sourced.ofNode, filter_render width hsource hsheet hroot,
      Parsed.filter_text hsource hsheet.tree hroot]

/-! ## Formatting -/

theorem flatMap_spaceChunks (before : Option Bool) (all : List Chunk) :
    (spaceChunks before all).flatMap (·.filter lasting) = all.flatMap (·.text.filter lasting) := by
  induction all generalizing before with
  | nil => rfl
  | cons chunk rest ih =>
    have hgap (p : Bool) : (if p then [[]] else []).flatMap (·.filter lasting) = [] := by
      cases p <;> rfl
    cases before with
    | none => rw [spaceChunks, List.nil_append, List.flatMap_cons, ih, List.flatMap_cons]
    | some hadBlock =>
      rw [spaceChunks, List.flatMap_append, hgap, List.nil_append, List.flatMap_cons, ih,
        List.flatMap_cons]

theorem value_format (parser : Parser) (width : Nat) (text : Text) :
    (format parser width text).value
      = match (parse parser text).value with
        | none => text
        | some parsed =>
          let formatted := Text.unlines (spaceChunks none (chunks width parsed (useRules text)))
          if parsed.hasErrors || hasInnerUse parsed (useRules text) then text
          else if !formatted.isEmpty && text.getLast? = some '\n' then formatted ++ ['\n']
          else formatted := by
  simp only [format, bind]
  cases (parse parser text).value with
  | none => rfl
  | some parsed =>
    dsimp only
    split_ifs <;> rfl

/-- If the named statements of the tree cover the masked text, statements end with their blocks and the
named children of blocks cover what stands between the braces, then formatting keeps all characters but
blanks and semicolons, in order, those of use statements included. -/
theorem format_loses_nothing (width : Nat) (h : (parse parser text).value = some parsed)
    (hsheet : IsSheet parsed (mask text)) :
    (format parser width text).value.filter lasting = text.filter lasting := by
  have hsource : parsed.source = encode (mask text) := Parsed.source_of_parse? h
  rw [value_format, h]
  dsimp only
  by_cases hleft : (parsed.hasErrors || hasInnerUse parsed (useRules text)) = true
  · rw [if_pos hleft]
  have hinner : hasInnerUse parsed (useRules text) = false := by
    rw [Bool.or_eq_true, not_or, Bool.not_eq_true, Bool.not_eq_true] at hleft
    exact hleft.2
  have hwritten : (Text.unlines (spaceChunks none (chunks width parsed (useRules text)))).filter lasting
      = text.filter lasting := by
    calc (Text.unlines (spaceChunks none (chunks width parsed (useRules text)))).filter lasting
        = (sourcedChunks width parsed text).flatMap fun chunk => chunk.1.text.filter lasting := by
          rw [Text.filter_unlines (by decide), flatMap_spaceChunks, chunks_eq, List.flatMap_map]
      _ = (sourcedChunks width parsed text).flatMap fun chunk => chunk.2.map (·.2) :=
          List.flatMap_congr fun chunk hchunk => holds_of_mem hsource hsheet hchunk
      _ = (marks 0 text).map (·.2) := by
          rw [← List.map_flatMap, flatMap_sourcedChunks hsheet hinner]
      _ = text.filter lasting := map_snd_filter_placed 0
  rw [if_neg hleft]
  split_ifs
  · rw [List.filter_append, hwritten]
    exact List.append_nil _
  · exact hwritten

end Format

/-- A sheet with a comment, a use statement and nested rules. -/
def nestedSource : Text := "/*c*/@use 'x';\n.a\x7bcolor:red;.b\x7bd:e\x7d\x7d\n".toList

namespace NestedSheet

def leaf (kind : String) (start stop : Nat) : Node := .mk { kind, start, stop } []

def brace (kind : String) (start : Nat) : Node :=
  .mk { kind, start, stop := start + 1, named := false } []

def innerBlock : Node :=
  .mk { kind := "block", start := 30, stop := 35 }
    [brace "\x7b" 30, leaf "declaration" 31 34, brace "\x7d" 34]

def innerRule : Node :=
  .mk { kind := "rule_set", start := 28, stop := 35 } [leaf "selectors" 28 30, innerBlock]

def outerBlock : Node :=
  .mk { kind := "block", start := 17, stop := 36 }
    [brace "\x7b" 17, leaf "declaration" 18 28, innerRule, brace "\x7d" 35]

def outerRule : Node :=
  .mk { kind := "rule_set", start := 15, stop := 36 } [leaf "selectors" 15 17, outerBlock]

/-- The tree of the sheet. -/
def tree : Node :=
  .mk { kind := "stylesheet", start := 0, stop := 37 } [leaf "comment" 0 5, outerRule]

/-- The masked sheet and its tree. -/
def parsed : Parsed := ⟨"css", encode (mask nestedSource), tree⟩

theorem isSheet : IsSheet parsed (mask nestedSource) where
  tree := ⟨by decide +kernel, by decide +kernel⟩
  covered := by decide +kernel
  ends := by decide +kernel
  braced := by
    intro node hnode block hblock
    have hfound : tree.preorder.filterMap block? = [outerBlock, innerBlock] := by
      rfl
    have hmem : block ∈ [outerBlock, innerBlock] := by
      rw [← hfound]
      exact List.mem_filterMap.2 ⟨node, hnode, hblock⟩
    rcases List.mem_cons.1 hmem with rfl | hmem
    · exact .intro _ [leaf "declaration" 18 28, innerRule] _ rfl (by decide) (by decide +kernel)
        (by decide) (by decide +kernel)
    obtain rfl := List.mem_singleton.1 hmem
    exact .intro _ [leaf "declaration" 31 34] _ rfl (by decide) (by decide +kernel) (by decide)
      (by decide +kernel)

end NestedSheet

theorem format_loses_nothing_nestedSheet :
    (parse (fun _ _ => .ok NestedSheet.tree) nestedSource).value = some NestedSheet.parsed
      ∧ IsSheet NestedSheet.parsed (mask nestedSource)
      ∧ NestedSheet.parsed.hasErrors = false
      ∧ (useRules nestedSource).map UseRule.statement = ["@use 'x';".toList]
      ∧ hasInnerUse NestedSheet.parsed (useRules nestedSource) = false
      ∧ (format (fun _ _ => .ok NestedSheet.tree) 2 nestedSource).value.filter lasting
        = nestedSource.filter lasting := by
  have hparse : (parse (fun _ _ => .ok NestedSheet.tree) nestedSource).value
      = some NestedSheet.parsed := rfl
  exact ⟨hparse, NestedSheet.isSheet, by decide +kernel, by decide +kernel, by decide +kernel,
    format_loses_nothing 2 hparse NestedSheet.isSheet⟩

end SourceLens.Stylesheet
