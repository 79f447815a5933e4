import SourceLens.Markup.Format
import SourceLens.Proofs.Text.Solid
import SourceLens.Proofs.Tree.Coverage

/-!
# Documents and their blanks

Formatting writes a document anew from its elements. If its tree covers it, each element is made of an
opening tag, content and a closing tag of the same name or is a tag alone, and names are in lower case,
then every node is written with the characters it holds, blanks apart, in the same order
(`filter_render`). So formatting changes nothing but blanks (`format_changes_blanks`).
-/

namespace SourceLens.Markup

open Utf8

/-- Characters other than blanks. -/
def inked (c : Char) : Bool := !isBlank c

theorem solid_inked : Text.Solid inked := fun c hc => by rw [inked, hc]; rfl

/-! ## Documents whose elements are well formed -/

section Shape

variable (parsed : Parsed) (text : Text)

/-- Whether all of a node but blanks lies in its children. -/
def Tiled (node : Node) : Prop := Node.Covered inked text node.start node.children node.stop

instance (node : Node) : Decidable (Tiled text node) :=
  inferInstanceAs (Decidable (Node.Covered ..))

/-- Whether a node is the token with a given spelling. -/
def IsToken (spelling : String) (node : Node) : Prop :=
  node.kind = spelling ∧ parsed.text node = spelling.toList

instance (spelling : String) (node : Node) : Decidable (IsToken parsed spelling node) :=
  inferInstanceAs (Decidable (_ ∧ _))

def IsTagName (tag : Text) (node : Node) : Prop := node.kind = "tag_name" ∧ parsed.text node = tag

instance (tag : Text) (node : Node) : Decidable (IsTagName parsed tag node) :=
  inferInstanceAs (Decidable (_ ∧ _))

def lastToken (kind : String) : String := if kind = "self_closing_tag" then "/>" else ">"

/-- A tag that opens an element: `<`, a name in lower case, attributes and the token at its end. -/
inductive Opens (tag : Text) (tagNode : Node) : Prop
  | intro (first name : Node) (attributes : List Node) (last : Node)
    (children : tagNode.children = first :: name :: (attributes ++ [last]))
    (first_token : IsToken parsed "<" first)
    (tag_name : IsTagName parsed tag name)
    (lower_case : lower tag = tag)
    (are_attributes : ∀ node ∈ attributes, node.kind = "attribute")
    (last_token : IsToken parsed (lastToken tagNode.kind) last)
    (tiled : Tiled text tagNode)

/-- A tag that closes an element: `</`, its name and `>`. -/
inductive Closes (tag : Text) (tagNode : Node) : Prop
  | intro (first name last : Node)
    (children : tagNode.children = [first, name, last])
    (kind : tagNode.kind = "end_tag")
    (first_token : IsToken parsed "</" first)
    (tag_name : IsTagName parsed tag name)
    (last_token : IsToken parsed ">" last)
    (tiled : Tiled text tagNode)

/-- An element: a tag alone if it closes itself or the element is void, else an opening tag, content
and a closing tag of the same name. Inside a script or a style sheet there is raw text, if anything. -/
inductive IsElement (node : Node) : Prop
  | single (tag : Text) (tagNode : Node)
    (children : node.children = [tagNode])
    (opens : Opens parsed text tag tagNode)
    (alone : tagNode.kind = "self_closing_tag"
      ∨ tagNode.kind = "start_tag" ∧ voidTags.contains tag = true)
    (tiled : Tiled text node)
  | paired (tag : Text) (tagNode : Node) (content : List Node) (endTag : Node)
    (children : node.children = tagNode :: (content ++ [endTag]))
    (opens : Opens parsed text tag tagNode)
    (kind : tagNode.kind = "start_tag" ∧ voidTags.contains tag = false)
    (are_content : ∀ child ∈ content, isContent child = true)
    (raw : rawTextKinds.contains node.kind = true →
      content = [] ∨ ∃ inside, content = [inside] ∧ inside.kind = "raw_text")
    (closes : Closes parsed text tag endTag)
    (tiled : Tiled text node)

/-- What makes a tree one of a document that it covers, with well-formed elements. -/
structure IsDocument : Prop where
  tree : parsed.root.IsTreeOf text
  covered : Node.Covered inked text 0 parsed.root.children (size text)
  elements : ∀ node ∈ parsed.root.preorder, elementKinds.contains node.kind = true →
    IsElement parsed text node

end Shape

/-! ## The lines of a node -/

section Render

variable {width : Nat} {parsed : Parsed} {text : Text}

theorem renderContent_eq (depth : Nat) (nodes : List Node) :
    renderContent width parsed depth nodes
      = (nodes.filter isContent).flatMap (render width parsed depth) := by
  induction nodes with
  | nil => rfl
  | cons node rest ih =>
    rw [renderContent, ih, List.filter_cons]
    split
    · rw [List.flatMap_cons]
    · rfl

theorem flatMap_lineOf (n : Nat) (content : Text) :
    (lineOf (Text.spaces n) content).flatMap (·.filter inked) = content.filter inked := by
  rw [lineOf]
  split
  case isTrue hempty =>
    rw [List.isEmpty_iff.1 hempty]
    rfl
  case isFalse =>
    rw [List.flatMap_singleton, List.filter_append, solid_inked.filter_spaces, List.nil_append]

theorem Opens.tagName_eq {tag : Text} {tagNode : Node} (h : Opens parsed text tag tagNode) :
    tagName parsed tagNode = tag := by
  obtain ⟨first, name, attributes, last, hchildren, hfirst, hname, hlower, hattributes, hlast, -⟩ := h
  have hnone : (attributes ++ [last]).filter (fun node => node.kind = "tag_name") = [] := by
    rw [List.filter_eq_nil_iff]
    intro node hnode
    rcases List.mem_append.1 hnode with hnode | hnode
    · simp [hattributes node hnode]
    · rw [List.mem_singleton.1 hnode, hlast.1, lastToken]
      split <;> decide
  have hnames : tagNode.children.filter (fun node => node.kind = "tag_name") = [name] := by
    rw [hchildren, List.filter_cons, List.filter_cons, hnone, hfirst.1, hname.1]
    rfl
  rw [tagName, hnames]
  simp [hname.2, hlower]

theorem Opens.element?_eq {node tagNode : Node} {rest : List Node} {tag : Text}
    (hopens : Opens parsed text tag tagNode) (hchildren : node.children = tagNode :: rest)
    (hkind : tagKinds.contains tagNode.kind = true) {element : Element}
    (h : element? parsed node = some element) :
    element.node = node ∧ element.tagNode = tagNode ∧ element.tag = tag := by
  have hfind : node.children.find? (fun child => tagKinds.contains child.kind) = some tagNode := by
    rw [hchildren]
    exact List.find?_cons_of_pos hkind
  simp only [element?, hfind, Option.bind_eq_bind, Option.bind_some, hopens.tagName_eq] at h
  split_ifs at h
  obtain rfl := Option.some.inj h
  exact ⟨rfl, rfl, rfl⟩

theorem filter_openTag (hsource : parsed.source = encode text) (htree : parsed.root.IsTreeOf text)
    {element : Element} (hmem : element.tagNode ∈ parsed.root.preorder)
    (hopens : Opens parsed text element.tag element.tagNode) :
    (openTag parsed element).filter inked = (parsed.text element.tagNode).filter inked := by
  obtain ⟨first, name, attributes, last, hchildren, hfirst, hname, -, hattributes, hlast, htiled⟩ :=
    hopens
  have hfound : element.tagNode.children.filter (fun node => node.kind = "attribute") = attributes := by
    have hlast' : last.kind ≠ "attribute" := by
      rw [hlast.1, lastToken]
      split <;> decide
    have hall : attributes.filter (fun node => node.kind = "attribute") = attributes :=
      List.filter_eq_self.2 fun node hnode => decide_eq_true (hattributes node hnode)
    rw [hchildren, List.filter_cons, List.filter_cons, List.filter_append, hall, hfirst.1, hname.1,
      List.filter_singleton]
    simp [hlast']
  have hend : ((if element.selfClosing then " />" else ">").toList).filter inked
      = (parsed.text last).filter inked := by
    rw [hlast.2, lastToken, Element.selfClosing]
    by_cases hkind : element.tagNode.kind = "self_closing_tag"
    · simp only [hkind, decide_true, if_true]
      decide
    · simp only [hkind, decide_false, if_false, Bool.false_eq_true]
  have hinner : (Text.join [' '] (element.tag :: attributes.map parsed.text)).filter inked
      = element.tag.filter inked ++ attributes.flatMap fun node => (parsed.text node).filter inked := by
    rw [Text.filter_join (by decide), List.flatMap_cons, List.flatMap_map]
  have hopening : (openTag parsed element).filter inked
      = ['<'].filter inked ++ (Text.join [' '] (element.tag :: attributes.map parsed.text)).filter inked
        ++ ((if element.selfClosing then " />" else ">").toList).filter inked := by
    rw [openTag, hfound, ← List.singleton_append, List.filter_append, List.filter_append]
  rw [Parsed.filter_text_eq_flatMap hsource htree hmem htiled, hchildren, hopening, hinner, hend,
    List.flatMap_cons, List.flatMap_cons, List.flatMap_append, List.flatMap_singleton, hfirst.2, hname.2,
    List.append_assoc, List.append_assoc]
  rfl

theorem Closes.kind_eq {tag : Text} {endTag : Node} (h : Closes parsed text tag endTag) :
    endTag.kind = "end_tag" := by
  obtain ⟨-, -, -, -, hkind, -⟩ := h
  exact hkind

theorem filter_closeTag (hsource : parsed.source = encode text) (htree : parsed.root.IsTreeOf text)
    {element : Element} {endTag : Node} (hmem : endTag ∈ parsed.root.preorder)
    (hcloses : Closes parsed text element.tag endTag) :
    (closeTag element).filter inked = (parsed.text endTag).filter inked := by
  obtain ⟨first, name, last, hchildren, -, hfirst, hname, hlast, htiled⟩ := hcloses
  rw [Parsed.filter_text_eq_flatMap hsource htree hmem htiled, hchildren, closeTag,
    List.filter_append, List.filter_append, List.flatMap_cons, List.flatMap_cons,
    List.flatMap_singleton, hfirst.2, hname.2, hlast.2, List.append_assoc]
  rfl

theorem flatMap_renderRaw (n : Nat) (element : Element) :
    (renderRaw parsed (Text.spaces n) element).flatMap (·.filter inked)
      = (openTag parsed element).filter inked ++ (rawText parsed element.node).filter inked
        ++ (closeTag element).filter inked := by
  have hraw : (Text.trimBy (· = '\n') (rawText parsed element.node)).filter inked
      = (rawText parsed element.node).filter inked := by
    apply Text.filter_trimBy
    intro c hc
    rw [of_decide_eq_true hc]
    decide
  have hpad : (Text.spaces n).filter inked = [] := solid_inked.filter_spaces n
  rw [renderRaw]
  split
  case isTrue hblank =>
    rw [← hraw, solid_inked.filter_eq_nil hblank]
    simp [hpad]
  case isFalse =>
    have hfeed : inked '\n' = false := by decide
    have hlines := Text.flatMap_filter_lines hfeed
      (Text.trimEnd (Text.trimBy (· = '\n') (rawText parsed element.node)))
    rw [solid_inked.filter_trimEnd, hraw] at hlines
    rw [List.cons_append, List.flatMap_cons, List.flatMap_append, hlines, List.flatMap_singleton,
      List.filter_append, List.filter_append, hpad, List.nil_append, List.nil_append,
      List.append_assoc]

theorem filter_isContent {tagNode endTag : Node} {content : List Node}
    (hstart : tagNode.kind = "start_tag") (hend : endTag.kind = "end_tag")
    (hcontent : ∀ child ∈ content, isContent child = true) :
    (tagNode :: (content ++ [endTag])).filter isContent = content := by
  have htag : isContent tagNode = false := by
    rw [isContent, hstart]
    decide
  have hlast : isContent endTag = false := by
    rw [isContent, hend]
    decide
  rw [List.filter_cons, htag, List.filter_append, List.filter_eq_self.2 hcontent,
    List.filter_singleton, hlast]
  simp

theorem filter_text_single (hsource : parsed.source = encode text) (htree : parsed.root.IsTreeOf text)
    {node : Node} (hnode : node ∈ parsed.root.preorder) {element : Element}
    (hchildren : node.children = [element.tagNode])
    (hopens : Opens parsed text element.tag element.tagNode) (htiled : Tiled text node) :
    (parsed.text node).filter inked = (openTag parsed element).filter inked := by
  have htag : element.tagNode ∈ node.children := by rw [hchildren]; exact List.mem_singleton_self _
  have hmem := Node.mem_preorder_of_child hnode htag
  rw [Parsed.filter_text_eq_flatMap hsource htree hnode htiled, hchildren, List.flatMap_singleton,
    filter_openTag hsource htree hmem hopens]

theorem filter_text_paired (hsource : parsed.source = encode text) (htree : parsed.root.IsTreeOf text)
    {node : Node} (hnode : node ∈ parsed.root.preorder) {element : Element} {content : List Node}
    {endTag : Node} (hchildren : node.children = element.tagNode :: (content ++ [endTag]))
    (hopens : Opens parsed text element.tag element.tagNode)
    (hcloses : Closes parsed text element.tag endTag) (htiled : Tiled text node) :
    (parsed.text node).filter inked = (openTag parsed element).filter inked
      ++ (content.flatMap fun child => (parsed.text child).filter inked)
      ++ (closeTag element).filter inked := by
  have hmem : ∀ child ∈ node.children, child ∈ parsed.root.preorder := fun _ =>
    Node.mem_preorder_of_child hnode
  have hfirst := hmem element.tagNode (by rw [hchildren]; simp)
  have hlast := hmem endTag (by rw [hchildren]; simp)
  rw [Parsed.filter_text_eq_flatMap hsource htree hnode htiled, hchildren, List.flatMap_cons,
    List.flatMap_append, List.flatMap_singleton, filter_openTag hsource htree hfirst hopens,
    filter_closeTag hsource htree hlast hcloses, List.append_assoc]

theorem filter_texts (nodes : List Node) :
    (Text.trim (Text.join [' '] (nodes.map fun node => Text.collapse (parsed.text node)))).filter inked
      = nodes.flatMap fun node => (parsed.text node).filter inked := by
  rw [solid_inked.filter_trim, Text.filter_join (by decide), List.flatMap_map]
  exact List.flatMap_congr fun node _ => solid_inked.filter_collapse _

theorem rawText_paired {node tagNode endTag : Node} {content : List Node}
    (hchildren : node.children = tagNode :: (content ++ [endTag]))
    (hstart : tagNode.kind = "start_tag") (hend : endTag.kind = "end_tag")
    (hraw : content = [] ∨ ∃ inside, content = [inside] ∧ inside.kind = "raw_text") :
    rawText parsed node = content.flatMap parsed.text := by
  rw [rawText, hchildren]
  rcases hraw with rfl | ⟨inside, rfl, hinside⟩
  · simp [hstart, hend]
  · simp [hstart, hend, hinside]

def elementLines (width : Nat) (parsed : Parsed) (depth : Nat) (node : Node) (element : Element) :
    List Text :=
  let pad := Text.spaces (width * depth)
  if element.selfClosing || voidTags.contains element.tag then [pad ++ openTag parsed element]
  else if verbatimTags.contains element.tag then [pad ++ parsed.text node]
  else if rawTextKinds.contains node.kind then renderRaw parsed pad element
  else
    let content := node.children.filter isContent
    if content.all (·.kind = "text") then
      let texts := content.map fun child => Text.collapse (parsed.text child)
      [pad ++ openTag parsed element ++ Text.trim (Text.join [' '] texts) ++ closeTag element]
    else
      (pad ++ openTag parsed element) :: content.flatMap (render width parsed (depth + 1))
        ++ [pad ++ closeTag element]

theorem render_eq (depth : Nat) (node : Node) :
    render width parsed depth node
      = if node.kind = "text" then
          lineOf (Text.spaces (width * depth)) (Text.collapse (parsed.text node))
        else if !elementKinds.contains node.kind then
          lineOf (Text.spaces (width * depth)) (Text.trim (parsed.text node))
        else (element? parsed node).elim
          [Text.spaces (width * depth) ++ Text.trim (parsed.text node)]
          (elementLines width parsed depth node) := by
  obtain ⟨label, children⟩ := node
  rw [render, renderContent_eq]
  cases element? parsed (.mk label children) <;> rfl

theorem filter_elementLines (hsource : parsed.source = encode text)
    (htree : parsed.root.IsTreeOf text) {node : Node} (hnode : node ∈ parsed.root.preorder)
    (hshape : IsElement parsed text node)
    {element : Element} (helement : element? parsed node = some element) (depth : Nat)
    (hbelow : ∀ child ∈ node.children, (render width parsed (depth + 1) child).flatMap (·.filter inked)
      = (parsed.text child).filter inked) :
    (elementLines width parsed depth node element).flatMap (·.filter inked)
      = (parsed.text node).filter inked := by
  have hpad : (Text.spaces (width * depth)).filter inked = [] := solid_inked.filter_spaces _
  rw [elementLines]
  obtain ⟨tag, tagNode, hchildren, hopens, halone, htiled⟩
    | ⟨tag, tagNode, content, endTag, hchildren, hopens, hstart, hcontent, hraw, hcloses, htiled⟩ :=
    hshape
  · have htag : tagKinds.contains tagNode.kind = true := by
      rcases halone with hself | ⟨hstart, -⟩
      · rw [hself]; decide
      · rw [hstart]; decide
    obtain ⟨-, rfl, rfl⟩ := hopens.element?_eq hchildren htag helement
    have hsingle : (element.selfClosing || voidTags.contains element.tag) = true := by
      rcases halone with hself | ⟨-, hvoid⟩
      · simp [Element.selfClosing, hself]
      · rw [hvoid, Bool.or_true]
    rw [if_pos hsingle, List.flatMap_singleton, List.filter_append, hpad, List.nil_append,
      filter_text_single hsource htree hnode hchildren hopens htiled]
  · have htag : tagKinds.contains tagNode.kind = true := by
      rw [hstart.1]; decide
    obtain ⟨hself, rfl, rfl⟩ := hopens.element?_eq hchildren htag helement
    have hsingle : (element.selfClosing || voidTags.contains element.tag) = false := by
      rw [hstart.2, Element.selfClosing, hstart.1]
      decide
    have hend : endTag.kind = "end_tag" := hcloses.kind_eq
    have hinner : node.children.filter isContent = content := by
      rw [hchildren, filter_isContent hstart.1 hend hcontent]
    have hwhole := filter_text_paired hsource htree hnode hchildren hopens hcloses htiled
    rw [hsingle, if_neg Bool.false_ne_true, hinner]
    dsimp only
    split_ifs with hverbatim hrawKind hall
    · rw [List.flatMap_singleton, List.filter_append, hpad, List.nil_append]
    · have hinside : rawText parsed node = _ := rawText_paired hchildren hstart.1 hend (hraw hrawKind)
      rw [flatMap_renderRaw, hself, hinside, List.filter_flatMap, hwhole]
    · rw [List.flatMap_singleton, List.filter_append, List.filter_append, List.filter_append, hpad,
        List.nil_append, filter_texts, hwhole]
    · have hlines : (content.flatMap (render width parsed (depth + 1))).flatMap (·.filter inked)
          = content.flatMap fun child => (parsed.text child).filter inked := by
        rw [List.flatMap_assoc]
        apply List.flatMap_congr
        intro child hchild
        rw [← hinner] at hchild
        exact hbelow child (List.mem_filter.1 hchild).1
      rw [List.cons_append, List.flatMap_cons, List.flatMap_append, hlines, hwhole,
        List.flatMap_singleton, List.filter_append, List.filter_append, hpad, List.nil_append,
        List.nil_append, List.append_assoc]

/-- Every node is written with the characters it holds, blanks apart. -/
theorem filter_render (width : Nat) (hsource : parsed.source = encode text)
    (hdocument : IsDocument parsed text) {node : Node} (hnode : node ∈ parsed.root.preorder)
    (depth : Nat) :
    (render width parsed depth node).flatMap (·.filter inked) = (parsed.text node).filter inked := by
  induction node using Node.induction_children generalizing depth with
  | step label children ih =>
    rw [render_eq]
    split_ifs with htext hkind
    · rw [flatMap_lineOf, solid_inked.filter_collapse]
    · rw [flatMap_lineOf, solid_inked.filter_trim]
    · cases helement : element? parsed (.mk label children) with
      | none =>
        rw [Option.elim_none, List.flatMap_singleton, List.filter_append, solid_inked.filter_spaces,
          solid_inked.filter_trim, List.nil_append]
      | some element =>
        have hshape := hdocument.elements _ hnode (by simpa using hkind)
        apply filter_elementLines hsource hdocument.tree hnode hshape helement
        intro child hchild
        exact ih child hchild (Node.mem_preorder_of_child hnode hchild) (depth + 1)

end Render

/-! ## Formatting -/

theorem value_format (parser : Parser) (width : Nat) (text : Text) :
    (format parser width text).value
      = match (parse parser text).value with
        | none => text
        | some parsed =>
          let formatted := Text.unlines (renderAll width parsed parsed.root.children)
          if parsed.hasErrors then text
          else if !formatted.isEmpty && text.getLast? = some '\n' then formatted ++ ['\n']
          else formatted := by
  simp only [format, bind]
  cases (parse parser text).value with
  | none => rfl
  | some parsed =>
    dsimp only
    split_ifs <;> rfl

/-- Formatting a document whose tree covers it and whose elements are well formed changes nothing but
blanks. -/
theorem format_changes_blanks {parser : Parser} {text : Text} {parsed : Parsed} (width : Nat)
    (h : (parse parser text).value = some parsed) (hdocument : IsDocument parsed text) :
    (format parser width text).value.filter inked = text.filter inked := by
  have hsource : parsed.source = encode text := Parsed.source_of_parse? h
  have hlines : (Text.unlines (renderAll width parsed parsed.root.children)).filter inked
      = text.filter inked := by
    rw [Text.filter_unlines (by decide), renderAll, List.flatMap_assoc,
      Parsed.filter_eq_flatMap hsource hdocument.tree hdocument.covered]
    apply List.flatMap_congr
    intro child hchild
    exact filter_render width hsource hdocument (Node.mem_preorder_of_mem_children hchild) 0
  rw [value_format, h]
  dsimp only
  split_ifs
  · rfl
  · rw [List.filter_append, hlines]
    exact List.append_nil _
  · exact hlines

/-- A page with a paragraph and a script. -/
def looseSource : Text := "<p id=a>one  <b>two</b><br></p>\n<script> f();</script>\n".toList

namespace LoosePage

def leaf (kind : String) (start stop : Nat) : Node := .mk { kind, start, stop } []

def startTag (start name stop : Nat) (attributes : List Node) : Node :=
  .mk { kind := "start_tag", start, stop }
    (leaf "<" start (start + 1) :: leaf "tag_name" (start + 1) name
      :: (attributes ++ [leaf ">" (stop - 1) stop]))

def endTag (start stop : Nat) : Node :=
  .mk { kind := "end_tag", start, stop }
    [leaf "</" start (start + 2), leaf "tag_name" (start + 2) (stop - 1), leaf ">" (stop - 1) stop]

def lineBreak : Node := .mk { kind := "element", start := 23, stop := 27 } [startTag 23 26 27 []]

def bold : Node :=
  .mk { kind := "element", start := 13, stop := 23 }
    [startTag 13 15 16 [], leaf "text" 16 19, endTag 19 23]

def paragraph : Node :=
  .mk { kind := "element", start := 0, stop := 31 }
    [startTag 0 2 8 [leaf "attribute" 3 7], leaf "text" 8 11, bold, lineBreak, endTag 27 31]

/-- The script. -/
def script : Node :=
  .mk { kind := "script_element", start := 32, stop := 54 }
    [startTag 32 39 40 [], leaf "raw_text" 40 45, endTag 45 54]

/-- The tree of the page. -/
def tree : Node := .mk { kind := "document", start := 0, stop := 55 } [paragraph, script]

/-- The page and its tree. -/
def parsed : Parsed := ⟨"html", encode looseSource, tree⟩

theorem opens_startTag {start name stop : Nat} {attributes : List Node} (tag : Text)
    (h : IsToken parsed "<" (leaf "<" start (start + 1))
      ∧ IsTagName parsed tag (leaf "tag_name" (start + 1) name) ∧ lower tag = tag
      ∧ (∀ node ∈ attributes, node.kind = "attribute")
      ∧ IsToken parsed ">" (leaf ">" (stop - 1) stop)
      ∧ Tiled looseSource (startTag start name stop attributes)) :
    Opens parsed looseSource tag (startTag start name stop attributes) :=
  .intro _ _ attributes _ rfl h.1 h.2.1 h.2.2.1 h.2.2.2.1 h.2.2.2.2.1 h.2.2.2.2.2

theorem closes_endTag {start stop : Nat} (tag : Text)
    (h : IsToken parsed "</" (leaf "</" start (start + 2))
      ∧ IsTagName parsed tag (leaf "tag_name" (start + 2) (stop - 1))
      ∧ IsToken parsed ">" (leaf ">" (stop - 1) stop) ∧ Tiled looseSource (endTag start stop)) :
    Closes parsed looseSource tag (endTag start stop) :=
  .intro _ _ _ rfl rfl h.1 h.2.1 h.2.2.1 h.2.2.2

theorem isDocument : IsDocument parsed looseSource where
  tree := ⟨by decide +kernel, by decide +kernel⟩
  covered := by decide +kernel
  elements := by
    intro node hnode hkind
    have hfound : tree.preorder.filter (fun node => elementKinds.contains node.kind)
        = [paragraph, bold, lineBreak, script] := by
      rfl
    have hmem : node ∈ [paragraph, bold, lineBreak, script] := by
      rw [← hfound]
      exact List.mem_filter.2 ⟨hnode, hkind⟩
    have hraw {kind : String} (hkind : kind = "element") {p : Prop}
        (h : rawTextKinds.contains kind = true) : p := by
      rw [hkind] at h
      exact absurd h (by decide)
    rcases List.mem_cons.1 hmem with rfl | hmem
    · exact .paired "p".toList _ [leaf "text" 8 11, bold, lineBreak] _ rfl
        (opens_startTag _ (by decide +kernel)) (by decide +kernel) (by decide +kernel) (hraw rfl)
        (closes_endTag _ (by decide +kernel)) (by decide +kernel)
    rcases List.mem_cons.1 hmem with rfl | hmem
    · exact .paired "b".toList _ [leaf "text" 16 19] _ rfl
        (opens_startTag _ (by decide +kernel)) (by decide +kernel) (by decide +kernel) (hraw rfl)
        (closes_endTag _ (by decide +kernel)) (by decide +kernel)
    rcases List.mem_cons.1 hmem with rfl | hmem
    · exact .single "br".toList _ rfl (opens_startTag _ (by decide +kernel)) (by decide +kernel)
        (by decide +kernel)
    obtain rfl := List.mem_singleton.1 hmem
    exact .paired "script".toList _ [leaf "raw_text" 40 45] _ rfl
      (opens_startTag _ (by decide +kernel)) (by decide +kernel) (by decide +kernel)
      (fun _ => .inr ⟨_, rfl, rfl⟩) (closes_endTag _ (by decide +kernel)) (by decide +kernel)

end LoosePage

theorem format_changes_blanks_loosePage :
    (parse (fun _ _ => .ok LoosePage.tree) looseSource).value = some LoosePage.parsed
      ∧ IsDocument LoosePage.parsed looseSource
      ∧ (format (fun _ _ => .ok LoosePage.tree) 2 looseSource).value
        = ("<p id=a>\n  one\n  <b>two</b>\n  <br>\n</p>\n"
          ++ "<script>\n f();\n</script>\n").toList
      ∧ (format (fun _ _ => .ok LoosePage.tree) 2 looseSource).value.filter inked
        = looseSource.filter inked := by
  have hparse : (parse (fun _ _ => .ok LoosePage.tree) looseSource).value = some LoosePage.parsed :=
    rfl
  exact ⟨hparse, LoosePage.isDocument, by decide +kernel,
    format_changes_blanks 2 hparse LoosePage.isDocument⟩

end SourceLens.Markup
