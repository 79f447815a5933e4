import SourceLens.Markup.Analysis
import SourceLens.Proofs.Tree.Spans

/-!
# Elements inside elements

Whether an element stands inside another one is read off their offsets. If tags take up bytes at the
start of their elements and hold no elements, then the test finds an element itself and those below it
(`contains_iff`), and the check of imports is one of places in the tree. An element inside the opening
tag of another one can start where that one starts, and then the test takes the outer for inside the
inner (`contains_misplaced`).
-/

namespace SourceLens.Markup

/-! ## Elements and their nodes -/

/-- Whether an element stands below another one. -/
def Element.Below (inner outer : Element) : Prop := inner.node ∈ outer.node.descendants

/-- The first element with a tag, parents before children. -/
def firstTagged (parsed : Parsed) (tag : String) : Option Element :=
  (elements parsed).find? (·.tag = tag.toList)

/-- The children of an element that are elements. -/
def Element.childElements (element : Element) : List Node :=
  element.node.namedChildren.filter fun child => elementKinds.contains child.kind

/-- Whether an element loads a script from elsewhere. -/
def Element.LoadsScript (element : Element) : Prop :=
  element.tag = "script".toList ∧ (element.get? "src").isSome = true

/-- Whether elements start with tags that take up bytes. -/
def TagsLead (parsed : Parsed) : Prop :=
  ∀ element ∈ elements parsed,
    element.tagNode.start = element.node.start ∧ element.tagNode.start < element.tagNode.stop

instance (parsed : Parsed) : Decidable (TagsLead parsed) :=
  inferInstanceAs (Decidable (∀ element ∈ elements parsed, _ ∧ _))

/-- Whether no tag of an element holds an element. -/
def TagsBare (parsed : Parsed) : Prop :=
  ∀ element ∈ elements parsed, ∀ node ∈ element.tagNode.preorder,
    elementKinds.contains node.kind = true → (element? parsed node).isNone = true

instance (parsed : Parsed) : Decidable (TagsBare parsed) :=
  inferInstanceAs (Decidable (∀ element ∈ elements parsed, ∀ node ∈ element.tagNode.preorder, _ → _))

theorem element?_eq_some {parsed : Parsed} {node : Node} {element : Element}
    (h : element? parsed node = some element) :
    element.node = node ∧ element.tagNode ∈ node.children
      ∧ tagKinds.contains element.tagNode.kind = true := by
  rw [element?] at h
  cases htag : node.children.find? fun child => tagKinds.contains child.kind with
  | none =>
    rw [htag] at h
    exact absurd h (by simp)
  | some tagNode =>
    have hkind := List.find?_some htag
    simp only [htag, Option.bind_eq_bind, Option.bind_some] at h
    split_ifs at h
    obtain rfl := Option.some.inj h
    exact ⟨rfl, List.mem_of_find?_eq_some htag, hkind⟩

section

variable {parsed : Parsed}

theorem mem_elements {element : Element} : element ∈ elements parsed
    ↔ element.node ∈ parsed.root.preorder ∧ elementKinds.contains element.node.kind = true
      ∧ element? parsed element.node = some element := by
  rw [elements, List.mem_filterMap, Parsed.nodes, Node.walk_eq]
  constructor
  · rintro ⟨node, hnode, helement⟩
    obtain ⟨hmem, hkind⟩ := List.mem_filter.1 hnode
    obtain ⟨rfl, -⟩ := element?_eq_some helement
    exact ⟨hmem, hkind, helement⟩
  · rintro ⟨hmem, hkind, helement⟩
    exact ⟨element.node, List.mem_filter.2 ⟨hmem, hkind⟩, helement⟩

theorem eq_of_node_eq {a b : Element} (ha : a ∈ elements parsed) (hb : b ∈ elements parsed)
    (h : a.node = b.node) : a = b := by
  have ha' := (mem_elements.1 ha).2.2
  have hb' := (mem_elements.1 hb).2.2
  rw [h, hb'] at ha'
  exact (Option.some.inj ha').symm

/-! ## The test of offsets -/

theorem start_lt_stop (hnested : parsed.root.Nested) (hlead : TagsLead parsed) {element : Element}
    (h : element ∈ elements parsed) : element.node.start < element.node.stop := by
  obtain ⟨hmem, -, helement⟩ := mem_elements.1 h
  obtain ⟨-, htag, -⟩ := element?_eq_some helement
  have hwithin := (hnested.of_mem hmem).inOrder.within htag
  have hlead := hlead element h
  omega

theorem start_lt_of_below (hnested : parsed.root.Nested) (hlead : TagsLead parsed)
    (hbare : TagsBare parsed) {outer inner : Element} (houter : outer ∈ elements parsed)
    (hinner : inner ∈ elements parsed) (hmem : inner.node ∈ outer.node.preorder)
    (hne : inner.node ≠ outer.node) : outer.node.start < inner.node.start := by
  obtain ⟨hroot, -, helement⟩ := mem_elements.1 houter
  obtain ⟨-, hkind, helement'⟩ := mem_elements.1 hinner
  obtain ⟨-, htag, -⟩ := element?_eq_some helement
  obtain ⟨hstart, hbytes⟩ := hlead outer houter
  have hspan := start_lt_stop hnested hlead hinner
  have hnested := hnested.of_mem hroot
  rcases Node.mem_preorder_iff.1 hmem with hself | ⟨child, hchild, hbelow⟩
  · exact absurd hself hne
  have hwithin := (hnested.child hchild).within hbelow
  have hchild' := hnested.inOrder.within hchild
  rcases hnested.inOrder.apart htag hchild with rfl | hapart
  · -- the tag holds no element
    have hnone := hbare outer houter inner.node hbelow hkind
    rw [helement'] at hnone
    exact absurd hnone (by simp)
  · omega

/-- An element contains itself and what lies below it. -/
theorem contains_iff (hnested : parsed.root.Nested) (hlead : TagsLead parsed)
    (hbare : TagsBare parsed) {outer inner : Element} (houter : outer ∈ elements parsed)
    (hinner : inner ∈ elements parsed) :
    outer.contains inner = true ↔ inner = outer ∨ inner.Below outer := by
  have hself : inner = outer ∨ inner.Below outer ↔ inner.node ∈ outer.node.preorder := by
    rw [Node.mem_preorder_iff_descendants]
    exact or_congr_left ⟨congrArg Element.node, eq_of_node_eq hinner houter⟩
  have hroot := (mem_elements.1 houter).1
  have hroot' := (mem_elements.1 hinner).1
  have hspan := start_lt_stop hnested hlead houter
  have hspan' := start_lt_stop hnested hlead hinner
  have htest : outer.contains inner = true
      ↔ outer.node.start ≤ inner.node.start ∧ inner.node.start < outer.node.stop := by
    simp [Element.contains]
  rw [hself, htest]
  constructor
  · intro hoffsets
    rcases hnested.below_or_apart hroot' hroot with hbelow | hbelow | hapart
    · exact hbelow
    · by_cases hsame : outer.node = inner.node
      · rw [hsame]
        exact Node.self_mem_preorder _
      · have := start_lt_of_below hnested hlead hbare hinner houter hbelow hsame
        omega
    · omega
  · intro hbelow
    have hwithin := (hnested.of_mem hroot).within hbelow
    omega

theorem below_of_contains (hnested : parsed.root.Nested) (hlead : TagsLead parsed)
    (hbare : TagsBare parsed) {outer inner : Element} (houter : outer ∈ elements parsed)
    (hinner : inner ∈ elements parsed) (htag : inner.tag ≠ outer.tag) :
    outer.contains inner = true ↔ inner.Below outer := by
  rw [contains_iff hnested hlead hbare houter hinner]
  exact or_iff_right fun hsame => htag (congrArg Element.tag hsame)

/-! ## The check of imports -/

theorem firstTagged_eq_some {tag : String} {element : Element}
    (h : firstTagged parsed tag = some element) :
    element ∈ elements parsed ∧ element.tag = tag.toList := by
  have htag := List.find?_some h
  exact ⟨List.mem_of_find?_eq_some h, of_decide_eq_true htag⟩

theorem tag_of_isStylesheet {element : Element} (h : element.isStylesheet = true) :
    element.tag = "link".toList := by
  rw [Element.isStylesheet, Bool.and_eq_true] at h
  exact of_decide_eq_true h.1

theorem scriptsClose_iff {all : List Element} {body : Element} : scriptsClose all body = true
    ↔ ((∃ script ∈ all, script.LoadsScript ∧ body.contains script = true) →
      ∃ last ∈ body.childElements.getLast?, last.kind = "script_element") := by
  have hloads : (all.any fun element =>
        element.tag = "script".toList && (element.get? "src").isSome && body.contains element) = true
      ↔ ∃ script ∈ all, script.LoadsScript ∧ body.contains script = true := by
    simp only [List.any_eq_true, Bool.and_eq_true, decide_eq_true_eq, Element.LoadsScript]
  rw [← hloads, scriptsClose, Bool.or_eq_true, Bool.not_eq_true', ← Bool.not_eq_true,
    ← imp_iff_not_or]
  apply imp_congr_right
  intro _
  rw [← Element.childElements]
  cases body.childElements.getLast? <;> simp

end

/-- If the children of every node lie inside it in order and apart, and elements start with tags that
take up bytes and hold no elements, then an element contains itself and the elements below it. So the
imports of a document are valid exactly if every link of a style sheet stands below the first head, and
if a script that is loaded stands below the first body, then the last child element of that body is a
script. -/
theorem importsValid_iff_placement {parser : Parser} {text : Text} {parsed : Parsed}
    (h : (parse parser text).value = some parsed) (hnested : parsed.root.Nested)
    (hlead : TagsLead parsed) (hbare : TagsBare parsed) :
    ((importsValid parser text).value = true
      ↔ (∀ link ∈ elements parsed, link.isStylesheet = true →
          ∃ head ∈ firstTagged parsed "head", link.Below head)
        ∧ ∀ body ∈ firstTagged parsed "body",
          (∃ script ∈ elements parsed, script.LoadsScript ∧ script.Below body) →
            ∃ last ∈ body.childElements.getLast?, last.kind = "script_element")
    ∧ ∀ outer ∈ elements parsed, ∀ inner ∈ elements parsed,
        outer.contains inner = true ↔ inner = outer ∨ inner.Below outer := by
  refine ⟨?_, fun outer houter inner hinner => contains_iff hnested hlead hbare houter hinner⟩
  have hvalue : (importsValid parser text).value = importsValidOf parsed := by
    simp only [importsValid, bind, h]
    rfl
  rw [hvalue, importsValidOf, Bool.and_eq_true, List.all_eq_true, ← firstTagged, ← firstTagged]
  apply and_congr
  · apply forall₂_congr
    intro link hlink
    rw [Bool.or_eq_true, Bool.not_eq_true', ← Bool.not_eq_true, ← imp_iff_not_or]
    apply imp_congr_right
    intro hsheet
    cases hfirst : firstTagged parsed "head" with
    | none => simp
    | some head =>
      obtain ⟨hhead, htag⟩ := firstTagged_eq_some hfirst
      have hne : link.tag ≠ head.tag := by
        rw [tag_of_isStylesheet hsheet, htag]
        decide
      simpa using below_of_contains hnested hlead hbare hhead hlink hne
  · cases hfirst : firstTagged parsed "body" with
    | none => simp
    | some body =>
      obtain ⟨hbody, htag⟩ := firstTagged_eq_some hfirst
      have hloads : (∃ script ∈ elements parsed, script.LoadsScript ∧ body.contains script = true)
          ↔ ∃ script ∈ elements parsed, script.LoadsScript ∧ script.Below body := by
        refine exists_congr fun script => and_congr_right fun hscript => and_congr_right fun hload => ?_
        refine below_of_contains hnested hlead hbare hbody hscript ?_
        rw [hload.1, htag]
        decide
      simp only [Option.all_some, Option.mem_some_iff, forall_eq', scriptsClose_iff, hloads]

/-- A page whose script comes last in its body, and whose style sheet is linked in its head. -/
def tidyPage : Text :=
  "<head><link rel=stylesheet></head><body><p></p><script src=a.js></script></body>".toList

def tidyPageTree : Node :=
  .mk { kind := "document", start := 0, stop := 80 }
    [.mk { kind := "element", start := 0, stop := 34 }
      [.mk { kind := "start_tag", start := 0, stop := 6 }
        [.mk { kind := "tag_name", start := 1, stop := 5 } []],
       .mk { kind := "element", start := 6, stop := 27 }
        [.mk { kind := "start_tag", start := 6, stop := 27 }
          [.mk { kind := "tag_name", start := 7, stop := 11 } [],
           .mk { kind := "attribute", start := 12, stop := 26 }
            [.mk { kind := "attribute_name", start := 12, stop := 15 } [],
             .mk { kind := "attribute_value", start := 16, stop := 26 } []]]],
       .mk { kind := "end_tag", start := 27, stop := 34 } []],
     .mk { kind := "element", start := 34, stop := 80 }
      [.mk { kind := "start_tag", start := 34, stop := 40 }
        [.mk { kind := "tag_name", start := 35, stop := 39 } []],
       .mk { kind := "element", start := 40, stop := 47 }
        [.mk { kind := "start_tag", start := 40, stop := 43 }
          [.mk { kind := "tag_name", start := 41, stop := 42 } []],
         .mk { kind := "end_tag", start := 43, stop := 47 } []],
       .mk { kind := "script_element", start := 47, stop := 73 }
        [.mk { kind := "start_tag", start := 47, stop := 64 }
          [.mk { kind := "tag_name", start := 48, stop := 54 } [],
           .mk { kind := "attribute", start := 55, stop := 63 }
            [.mk { kind := "attribute_name", start := 55, stop := 58 } [],
             .mk { kind := "attribute_value", start := 59, stop := 63 } []]],
         .mk { kind := "end_tag", start := 64, stop := 73 } []],
       .mk { kind := "end_tag", start := 73, stop := 80 } []]]

theorem importsValid_iff_placement_tidyPage :
    let parsed : Parsed := ⟨"html", Utf8.encode tidyPage, tidyPageTree⟩
    (parse (fun _ _ => .ok tidyPageTree) tidyPage).value = some parsed
      ∧ parsed.root.Nested ∧ TagsLead parsed ∧ TagsBare parsed
      ∧ (importsValid (fun _ _ => .ok tidyPageTree) tidyPage).value = true
      ∧ (∀ link ∈ elements parsed, link.isStylesheet = true →
        ∃ head ∈ firstTagged parsed "head", link.Below head)
      ∧ ∀ body ∈ firstTagged parsed "body",
        (∃ script ∈ elements parsed, script.LoadsScript ∧ script.Below body) →
          ∃ last ∈ body.childElements.getLast?, last.kind = "script_element" := by
  intro parsed
  have hparse : (parse (fun _ _ => .ok tidyPageTree) tidyPage).value = some parsed := rfl
  have hnested : parsed.root.Nested := by decide +kernel
  have hlead : TagsLead parsed := by decide +kernel
  have hbare : TagsBare parsed := by decide +kernel
  have hvalid : (importsValid (fun _ _ => .ok tidyPageTree) tidyPage).value = true := by
    decide +kernel
  exact ⟨hparse, hnested, hlead, hbare, hvalid,
    (importsValid_iff_placement hparse hnested hlead hbare).1.1 hvalid⟩

/-- A page with a head inside the opening tag of a link. -/
def tangledPage : Text := "<head>link rel=stylesheet>".toList

def tangledPageTree : Node :=
  .mk { kind := "document", start := 0, stop := 26 }
    [.mk { kind := "element", start := 0, stop := 26 }
      [.mk { kind := "start_tag", start := 0, stop := 26 }
        [.mk { kind := "element", start := 0, stop := 6 }
          [.mk { kind := "start_tag", start := 0, stop := 6 }
            [.mk { kind := "tag_name", start := 1, stop := 5 } []]],
         .mk { kind := "tag_name", start := 6, stop := 10 } [],
         .mk { kind := "attribute", start := 11, stop := 25 }
          [.mk { kind := "attribute_name", start := 11, stop := 14 } [],
           .mk { kind := "attribute_value", start := 15, stop := 25 } []]]]]

/-- The link holds the head and is taken for inside it, since both start at one offset. -/
theorem contains_misplaced :
    let parsed : Parsed := ⟨"html", Utf8.encode tangledPage, tangledPageTree⟩
    (parse (fun _ _ => .ok tangledPageTree) tangledPage).value = some parsed
      ∧ parsed.root.Nested ∧ TagsLead parsed
      ∧ (importsValid (fun _ _ => .ok tangledPageTree) tangledPage).value = true
      ∧ ∃ link ∈ elements parsed, link.isStylesheet = true
        ∧ (∃ head ∈ firstTagged parsed "head", head.contains link = true)
        ∧ ¬∃ head ∈ firstTagged parsed "head", link = head ∨ link.Below head := by
  intro parsed
  have hlink : ∃ link ∈ elements parsed, link.isStylesheet = true
      ∧ (∃ head ∈ firstTagged parsed "head", head.contains link = true) := by
    decide +kernel
  obtain ⟨link, hmem, hsheet, hcontains⟩ := hlink
  refine ⟨rfl, by decide +kernel, by decide +kernel, by decide +kernel, link, hmem, hsheet,
    hcontains, ?_⟩
  rintro ⟨head, hhead, rfl | hbelow⟩
  · have htag := (firstTagged_eq_some hhead).2
    rw [tag_of_isStylesheet hsheet] at htag
    exact absurd htag (by decide)
  · -- no element lies below the head
    have hnone : ∀ head ∈ firstTagged parsed "head", ∀ node ∈ head.node.descendants,
        elementKinds.contains node.kind = false := by
      decide +kernel
    have hkind := (mem_elements.1 hmem).2.1
    rw [hnone head hhead _ hbelow] at hkind
    exact Bool.false_ne_true hkind

end SourceLens.Markup
