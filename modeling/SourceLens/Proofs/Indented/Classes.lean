import SourceLens.Proofs.Indented.Definitions
import SourceLens.Proofs.Indented.Layout
import SourceLens.Proofs.Indented.Structure

/-!
# Generated classes

The lines of a generated class are laid out from its name, its properties and its methods
(`lines_generateClass`): each member is a header with a body of plain statements further in. Such
lines are a suite of the grammar of blocks, so they have no problem, and the outline has the class
and then its members, each with the lines of its body (`generateClass_fine`).
-/

namespace SourceLens

namespace Text

theorem lines_join_gap (piece : Text) (more : List Text) :
    lines (join "\n\n".toList (piece :: more))
      = lines piece ++ more.flatMap fun next => [] :: lines next := by
  induction more generalizing piece with
  | nil => simp [join]
  | cons next more ih =>
    have hjoin : join "\n\n".toList (piece :: next :: more)
        = piece ++ '\n' :: '\n' :: join "\n\n".toList (next :: more) := by
      rw [join, List.intercalate_cons_cons, List.append_assoc]
      rfl
    rw [hjoin, lines_append, lines_cons_newline, ih, List.flatMap_cons, List.cons_append]

end Text

namespace Indented

open Pattern Descriptor

/-! ## Lines -/

/-- The header of a class. -/
def classHeader (name : Text) : Text := "class ".toList ++ (name ++ [':'])

/-- The header of a method. -/
def methodHeader (name : Text) : Text := functionHeader name ["self".toList] none

/-- The rows of a member: its header, and its body further in. -/
def memberRows (column width : Nat) (name : Text) (body : List Text) : List Row :=
  .statement column (methodHeader name) :: body.map (.statement (column + width))

/-- The statements of a constructor that clears the properties. -/
def settings (properties : List Text) : List Text :=
  if properties = [] then ["pass".toList]
  else properties.map fun property => "self.".toList ++ property ++ " = None".toList

/-- The rows of methods without a body, each behind an empty one. -/
def methodsRows (column width : Nat) (methods : List Text) : List Row :=
  methods.flatMap fun method => .empty :: memberRows column width method ["pass".toList]

def membersRows (column width : Nat) (properties methods : List Text) : List Row :=
  memberRows column width "__init__".toList (settings properties)
    ++ methodsRows column width methods

def classRows (width : Nat) (name : Text) (properties methods : List Text) : List Row :=
  .statement 0 (classHeader name) :: membersRows width width properties methods

theorem methodText_eq (width : Nat) (name body : Text) :
    methodText width name body = under (methodHeader name) width body := by
  have hmethod : methodText width name body
      = "def ".toList ++ name ++ "(self):\n".toList ++ Text.indent width body := rfl
  have hheader : methodHeader name = "def ".toList ++ (name ++ "(self):".toList) := rfl
  have hopen : "(self):\n".toList = "(self):".toList ++ ['\n'] := rfl
  rw [hmethod, hheader, under, hopen]
  simp only [List.append_assoc, List.cons_append, List.nil_append]

theorem unlines_settings (properties : List Text) :
    Text.unlines (settings properties)
      = if (Text.unlines (properties.map fun property =>
            "self.".toList ++ property ++ " = None".toList)).isEmpty then "pass".toList
        else Text.unlines (properties.map fun property =>
          "self.".toList ++ property ++ " = None".toList) := by
  cases properties with
  | nil => rfl
  | cons property more =>
    rw [settings, if_neg (List.cons_ne_nil _ _), if_neg]
    cases more <;> exact Bool.false_ne_true

theorem generateClass_eq (width : Nat) (name : Text) (properties methods : List Text) :
    generateClass width name properties methods
      = under (classHeader name) width (Text.join "\n\n".toList
          (methodText width "__init__".toList (Text.unlines (settings properties))
            :: methods.map fun method => methodText width method "pass".toList)) := by
  have hclass : generateClass width name properties methods
      = "class ".toList ++ name ++ [':', '\n'] ++ Text.indent width (Text.join "\n\n".toList
          (methodText width "__init__".toList (Text.unlines (settings properties))
            :: methods.map fun method => methodText width method "pass".toList)) := by
    rw [unlines_settings]
    rfl
  have hheader : classHeader name = "class ".toList ++ (name ++ [':']) := rfl
  rw [hclass, under, hheader]
  simp only [List.append_assoc, List.cons_append, List.nil_append]

/-! ## The statements of a class -/

/-- A name that is not empty and made of word characters. -/
def IsName (name : Text) : Prop := name ≠ [] ∧ ∀ c ∈ name, isWord c = true

instance (name : Text) : Decidable (IsName name) :=
  decidable_of_iff (name ≠ [] ∧ name.all isWord = true) (and_congr_right' List.all_eq_true)

theorem isName_init : IsName "__init__".toList := by decide

/-- A statement that defines nothing and opens no block. -/
structure Ordinary (code : Text) : Prop where
  standalone : Standalone code
  closed : code.getLast? ≠ some ':'
  function : isDef code = false
  classLike : isClass code = false

theorem ordinary_pass : Ordinary "pass".toList where
  standalone := standalone_of_plain (List.all_eq_true.1 (by decide)) (by decide) (by decide)
  closed := by decide
  function := isDef_eq_false (c := 'p') (by decide) (by decide)
  classLike := isClass_eq_false (c := 'p') (by decide) (by decide)

theorem ordinary_setting {property : Text} (h : IsName property) :
    Ordinary ("self.".toList ++ property ++ " = None".toList) := by
  set code := "self.".toList ++ property ++ " = None".toList with hcode
  have hplain : ∀ c ∈ code, isPlain c = true := by
    refine List.forall_mem_append.2 ⟨List.forall_mem_append.2 ⟨?_, ?_⟩, ?_⟩
    · exact List.all_eq_true.1 (by decide)
    · exact fun c hc => isPlain_of_isWord (h.2 c hc)
    · exact List.all_eq_true.1 (by decide)
  have hlast : code.getLast? = some 'e' := by
    rw [hcode, List.getLast?_append_of_ne_nil _ (by decide)]
    rfl
  have htrim : Text.trim code = code := by
    have hstart : Text.trimStart code = code := Text.trimStart_of_head (c := 's') rfl (by decide)
    rw [Text.trim, hstart, Text.trimEnd_of_getLast hlast (by decide)]
  refine ⟨standalone_of_plain hplain ?_ htrim, ?_, ?_, ?_⟩
  · rw [hcode, List.append_assoc]
    exact List.cons_ne_nil _ _
  · rw [hlast]
    decide
  · exact isDef_eq_false (c := 's') rfl (by decide)
  · exact isClass_eq_false (c := 's') rfl (by decide)

theorem ordinary_settings {properties : List Text}
    (h : ∀ property ∈ properties, IsName property) :
    ∀ code ∈ settings properties, Ordinary code := by
  intro code hcode
  rw [settings] at hcode
  split_ifs at hcode
  · exact List.mem_singleton.1 hcode ▸ ordinary_pass
  · obtain ⟨property, hproperty, rfl⟩ := List.mem_map.1 hcode
    exact ordinary_setting (h property hproperty)

theorem settings_ne_nil (properties : List Text) : settings properties ≠ [] := by
  rw [settings]
  split_ifs with h
  · simp
  · simpa using h

theorem isHeader_methodHeader {name : Text} (h : IsName name) : IsHeader (methodHeader name) :=
  isHeader_functionHeader h.1 h.2 (List.forall_mem_singleton.2 (by decide +kernel)) (by simp)

theorem nameBehind_class {name : Text} (h : IsName name) :
    NameBehind name (' ' :: (name ++ [':'])) :=
  ⟨[' '], [':'], by simp [IsGap], by simp, h.1, h.2, (by decide : isWord ':' = false), rfl⟩

theorem isClass_classHeader {name : Text} (h : IsName name) : isClass (classHeader name) = true :=
  startsAt_of_nameBy (nameBy_classStart (nameBehind_class h))

theorem classStatement_classHeader {name : Text} (h : IsName name) :
    classStatement.startsAt (classHeader name) = true := by
  refine startsAt_iff.2 ⟨classHeader name, [], (List.append_nil _).symm, ?_⟩
  refine ⟨"class".toList, ' ' :: (name ++ [':']), rfl, spans_lit.2 rfl, ?_⟩
  refine ⟨[' '], name ++ [':'], rfl, spans_many1_one.2 ⟨by simp, by simp⟩, ?_⟩
  refine ⟨name, [':'], rfl, spans_many1_one.2 h, ?_⟩
  refine ⟨[], [':'], rfl, spans_many_one.2 (by simp), [], [':'], rfl, spans_opt.2 (.inr rfl), ?_⟩
  exact ⟨[], [':'], rfl, spans_many_one.2 (by simp), spans_lit.2 rfl⟩

theorem isHeader_classHeader {name : Text} (h : IsName name) : IsHeader (classHeader name) := by
  have hplain : ∀ c ∈ classHeader name, isPlain c = true := by
    refine List.forall_mem_append.2 ⟨?_, List.forall_mem_append.2 ⟨?_, ?_⟩⟩
    · exact List.all_eq_true.1 (by decide)
    · exact fun c hc => isPlain_of_isWord (h.2 c hc)
    · exact List.all_eq_true.1 (by decide)
  refine ⟨fun c hc => ?_, fun hmem => ?_, rfl, trackChars_plain hplain [], ?_,
    fun entry hentry => ?_⟩
  · obtain ⟨-, -, hquote, hhash, -⟩ := isPlain_iff.1 (hplain c hc)
    exact ⟨hquote, hhash⟩
  · exact (isPlain_iff.1 (hplain _ hmem)).2.2.2.2.2 rfl
  · have hend : classHeader name = ("class ".toList ++ name) ++ [':'] :=
      (List.append_assoc ..).symm
    rw [hend, List.getLast?_concat]
  · rw [headerProblem_eq_none, hentry, isDef_eq_false_of_isClass (isClass_classHeader h)]
    exact ⟨by simp, fun _ _ => classStatement_classHeader h⟩

/-! ## The lines of a class -/

theorem mem_membersRows {column width : Nat} {properties methods : List Text}
    (hproperties : ∀ property ∈ properties, IsName property)
    (hmethods : ∀ method ∈ methods, IsName method) {row : Row}
    (h : row ∈ membersRows column width properties methods) :
    row = .empty ∨ (∃ name, IsName name ∧ row = .statement column (methodHeader name))
      ∨ ∃ code, Ordinary code ∧ row = .statement (column + width) code := by
  have hmember {name : Text} {body : List Text} (hname : IsName name)
      (hbody : ∀ code ∈ body, Ordinary code) (hrow : row ∈ memberRows column width name body) :
      (∃ name, IsName name ∧ row = .statement column (methodHeader name))
        ∨ ∃ code, Ordinary code ∧ row = .statement (column + width) code := by
    rcases List.mem_cons.1 hrow with rfl | hrow
    · exact .inl ⟨name, hname, rfl⟩
    · obtain ⟨code, hcode, rfl⟩ := List.mem_map.1 hrow
      exact .inr ⟨code, hbody code hcode, rfl⟩
  rcases List.mem_append.1 h with hrow | hrow
  · exact .inr (hmember isName_init (ordinary_settings hproperties) hrow)
  · obtain ⟨method, hmethod, hrow⟩ := List.mem_flatMap.1 hrow
    exact (List.mem_cons.1 hrow).imp_right
      (hmember (hmethods method hmethod) (List.forall_mem_singleton.2 ordinary_pass))

theorem fits_membersRows (column width : Nat) {properties methods : List Text}
    (hproperties : ∀ property ∈ properties, IsName property)
    (hmethods : ∀ method ∈ methods, IsName method) :
    ∀ row ∈ membersRows column width properties methods, row.Fits := by
  intro row hrow
  rcases mem_membersRows hproperties hmethods hrow with
    rfl | ⟨name, hname, rfl⟩ | ⟨code, hcode, rfl⟩
  · exact trivial
  · exact (isHeader_methodHeader hname).standalone
  · exact hcode.standalone

theorem memberRows_deeper (column width more : Nat) (name : Text) (body : List Text) :
    (memberRows column width name body).map (Row.deeper more)
      = memberRows (column + more) width name body := by
  rw [memberRows, List.map_cons, List.map_map, memberRows, Nat.add_right_comm]
  rfl

theorem membersRows_deeper (column width more : Nat) (properties methods : List Text) :
    (membersRows column width properties methods).map (Row.deeper more)
      = membersRows (column + more) width properties methods := by
  rw [membersRows, List.map_append, memberRows_deeper, methodsRows, List.map_flatMap, membersRows,
    methodsRows]
  congr 2
  funext method
  rw [List.map_cons, memberRows_deeper]
  rfl

theorem lines_methodText (width : Nat) {name : Text} (hname : IsName name) {body : List Text}
    (hne : body ≠ []) (hbody : ∀ code ∈ body, Ordinary code) :
    Text.lines (methodText width name (Text.unlines body))
      = (memberRows 0 width name body).map Row.text := by
  have hlines : Text.lines (Text.unlines body) = (body.map (Row.statement 0)).map Row.text := by
    rw [Text.lines_unlines hne fun code hcode => (hbody code hcode).standalone.newline,
      List.map_map]
    exact (List.map_id body).symm
  have hfits : ∀ row ∈ body.map (Row.statement 0), row.Fits := fun row hrow => by
    obtain ⟨code, hcode, rfl⟩ := List.mem_map.1 hrow
    exact (hbody code hcode).standalone
  rw [methodText_eq, rows_under (isHeader_methodHeader hname).newline width hlines hfits,
    List.map_map]
  rfl

theorem lines_generateClass (width : Nat) {name : Text} (hname : IsName name)
    {properties methods : List Text} (hproperties : ∀ property ∈ properties, IsName property)
    (hmethods : ∀ method ∈ methods, IsName method) :
    Text.lines (generateClass width name properties methods)
      = (classRows width name properties methods).map Row.text := by
  have hmembers : Text.lines (Text.join "\n\n".toList
      (methodText width "__init__".toList (Text.unlines (settings properties))
        :: methods.map fun method => methodText width method "pass".toList))
      = (membersRows 0 width properties methods).map Row.text := by
    rw [Text.lines_join_gap, membersRows, List.map_append, methodsRows, List.map_flatMap,
      List.flatMap_map, lines_methodText width isName_init (settings_ne_nil properties)
        (ordinary_settings hproperties)]
    refine congrArg (_ ++ ·) (List.flatMap_congr fun method hmethod => ?_)
    have hpass : Text.unlines ["pass".toList] = "pass".toList := rfl
    have hlines := lines_methodText width (hmethods method hmethod) (List.cons_ne_nil _ [])
      (List.forall_mem_singleton.2 ordinary_pass)
    rw [hpass] at hlines
    rw [hlines, List.map_cons]
    rfl
  rw [generateClass_eq, rows_under (isHeader_classHeader hname).newline width hmembers
    (fits_membersRows 0 width hproperties hmethods), membersRows_deeper, Nat.zero_add, classRows]

theorem scan_generateClass (width : Nat) {name : Text} (hname : IsName name)
    {properties methods : List Text} (hproperties : ∀ property ∈ properties, IsName property)
    (hmethods : ∀ method ∈ methods, IsName method) :
    (scan (generateClass width name properties methods)).logical
        = headerEntry (classHeader name)
          :: entriesFrom 1 (membersRows width width properties methods)
      ∧ (scan (generateClass width name properties methods)).diagnostics = [] :=
  scan_rows (lines_generateClass width hname hproperties hmethods)
    (List.forall_mem_cons.2 ⟨(isHeader_classHeader hname).standalone,
      fits_membersRows width width hproperties hmethods⟩)

/-! ## Statements of a member -/

section

variable {column width line : Nat} {name : Text} {body : List Text}

theorem entriesFrom_member :
    entriesFrom line (memberRows column width name body)
      = { line, stop := line, indent := column, code := methodHeader name }
        :: entriesFrom (line + 1) (body.map (.statement (column + width))) := rfl

theorem entriesFrom_methods_cons (method : Text) (more : List Text) :
    entriesFrom line (methodsRows column width (method :: more))
      = entriesFrom (line + 1) (memberRows column width method ["pass".toList])
        ++ entriesFrom (line + 3) (methodsRows column width more) := by
  rw [methodsRows, List.flatMap_cons, entriesFrom_append]
  rfl

theorem mem_entriesFrom_body {e : LogicalLine}
    (h : e ∈ entriesFrom line (body.map (.statement column))) :
    e.indent = column ∧ e.code ∈ body := by
  obtain ⟨code, hcode, heq⟩ := List.mem_map.1 (mem_entriesFrom h)
  obtain ⟨hcolumn, rfl⟩ : column = e.indent ∧ code = e.code := by simpa using heq
  exact ⟨hcolumn.symm, hcode⟩

theorem endsFull_body (column : Nat) (hne : body ≠ []) :
    EndsFull (body.map (.statement column)) := by
  obtain ⟨front, last, rfl⟩ := (List.eq_nil_or_concat body).resolve_left hne
  exact ⟨front.map (.statement column), column, last, by simp⟩

theorem entriesFrom_body_ne_nil (hne : body ≠ []) :
    entriesFrom line (body.map (.statement column)) ≠ [] := by
  obtain ⟨code, more, rfl⟩ := List.exists_cons_of_ne_nil hne
  exact List.cons_ne_nil _ _

theorem item_member (hwidth : 1 ≤ width) (hname : IsName name) (hne : body ≠ [])
    (hbody : ∀ code ∈ body, Ordinary code) (depth line : Nat) :
    ∃ item, Item column depth item
      ∧ item.map (·.1) = entriesFrom line (memberRows column width name body) := by
  set inner := entriesFrom (line + 1) (body.map (.statement (column + width))) with hinner
  set header : LogicalLine := { line, stop := line, indent := column, code := methodHeader name }
  have hopens : opensBlock header = true := decide_eq_true (isHeader_methodHeader hname).opens
  have hitems (item) (hitem : item ∈ inner.map fun e => [(e, depth + 1)]) :
      Item (column + width) (depth + 1) item := by
    obtain ⟨e, he, rfl⟩ := List.mem_map.1 hitem
    obtain ⟨hcolumn, hcode⟩ := mem_entriesFrom_body he
    exact .line hcolumn (decide_eq_false (hbody _ hcode).closed)
  refine ⟨_, .block rfl hopens (Nat.lt_add_of_pos_right hwidth) ?_ hitems, ?_⟩
  · simpa using entriesFrom_body_ne_nil hne
  · have hflat : (inner.map fun e => [(e, depth + 1)]).flatten
        = inner.map fun e => (e, depth + 1) := by
      rw [← List.flatMap_def, ← List.map_eq_flatMap]
    rw [entriesFrom_member, ← hinner, hflat, List.map_cons, List.map_map]
    exact congrArg (header :: ·) (List.map_id inner)

end

/-! ## Problems -/

section

variable {column width : Nat} {properties methods : List Text}

theorem items_members (column : Nat) (hwidth : 1 ≤ width)
    (hproperties : ∀ property ∈ properties, IsName property)
    (hmethods : ∀ method ∈ methods, IsName method) (depth line : Nat) :
    ∃ items : List (List Placed), items ≠ [] ∧ (∀ item ∈ items, Item column depth item)
      ∧ items.flatten.map (·.1)
        = entriesFrom line (membersRows column width properties methods) := by
  have hlater (line : Nat) : ∃ items : List (List Placed), (∀ item ∈ items, Item column depth item)
      ∧ items.flatten.map (·.1) = entriesFrom line (methodsRows column width methods) := by
    induction methods generalizing line with
    | nil => exact ⟨[], by simp, rfl⟩
    | cons method more ih =>
      obtain ⟨hmethod, hmore⟩ := List.forall_mem_cons.1 hmethods
      obtain ⟨items, hitems, hentries⟩ := ih hmore (line + 3)
      obtain ⟨item, hitem, hentry⟩ := item_member hwidth hmethod (List.cons_ne_nil _ [])
        (List.forall_mem_singleton.2 ordinary_pass) depth (line + 1)
      refine ⟨item :: items, List.forall_mem_cons.2 ⟨hitem, hitems⟩, ?_⟩
      rw [List.flatten_cons, List.map_append, hentry, hentries, entriesFrom_methods_cons]
  obtain ⟨items, hitems, hentries⟩ :=
    hlater (line + (memberRows column width "__init__".toList (settings properties)).length)
  obtain ⟨item, hitem, hentry⟩ := item_member hwidth isName_init (settings_ne_nil properties)
    (ordinary_settings hproperties) depth line
  refine ⟨item :: items, List.cons_ne_nil _ _, List.forall_mem_cons.2 ⟨hitem, hitems⟩, ?_⟩
  rw [List.flatten_cons, List.map_append, hentry, hentries, membersRows, entriesFrom_append]

theorem code_of_members {line : Nat} (hproperties : ∀ property ∈ properties, IsName property)
    (hmethods : ∀ method ∈ methods, IsName method) {e : LogicalLine}
    (h : e ∈ entriesFrom line (membersRows column width properties methods)) :
    column ≤ e.indent
      ∧ ((∃ name, IsName name ∧ e.code = methodHeader name) ∨ Ordinary e.code) := by
  rcases mem_membersRows hproperties hmethods (mem_entriesFrom h) with
    hempty | ⟨name, hname, heq⟩ | ⟨code, hcode, heq⟩
  · exact absurd hempty nofun
  · obtain ⟨hcolumn, hcode⟩ : e.indent = column ∧ e.code = methodHeader name := by simpa using heq
    exact ⟨hcolumn.ge, .inl ⟨name, hname, hcode⟩⟩
  · obtain ⟨hcolumn, rfl⟩ : e.indent = column + width ∧ e.code = code := by simpa using heq
    exact ⟨hcolumn ▸ Nat.le_add_right .., .inr hcode⟩

end

section

variable {width : Nat} {name : Text} (hname : IsName name) {properties methods : List Text}
  (hproperties : ∀ property ∈ properties, IsName property)
  (hmethods : ∀ method ∈ methods, IsName method)

include hname hproperties hmethods

theorem diagnose_generateClass (hwidth : 1 ≤ width) :
    diagnose (generateClass width name properties methods) = [] := by
  obtain ⟨hlogical, hscan⟩ := scan_generateClass width hname hproperties hmethods
  obtain ⟨items, hne, hitems, hentries⟩ :=
    items_members width hwidth hproperties hmethods 1 1
  have hopens : opensBlock (headerEntry (classHeader name)) = true :=
    decide_eq_true (isHeader_classHeader hname).opens
  have hclass : Item 0 0 ((headerEntry (classHeader name), 0) :: items.flatten) :=
    .block rfl hopens hwidth hne hitems
  have hstructured : BlockStructured ((headerEntry (classHeader name), 0) :: items.flatten) :=
    .inr ⟨[_], List.cons_ne_nil _ _, List.forall_mem_singleton.2 hclass,
      (List.flatten_singleton).symm⟩
  refine diagnose_eq_nil.2 ⟨?_, hscan, ?_⟩
  · have hlevels := hstructured.levels_eq
    rw [List.map_cons, hentries] at hlevels
    rw [hlogical, hlevels]
  · rw [hlogical]
    refine List.forall_mem_cons.2 ⟨(isHeader_classHeader hname).fine _ rfl, fun e he => ?_⟩
    obtain ⟨-, ⟨method, hmethod, hcode⟩ | hordinary⟩ := code_of_members hproperties hmethods he
    · exact (isHeader_methodHeader hmethod).fine e hcode
    · rw [headerProblem_eq_none, hordinary.function, hordinary.classLike]
      simp

omit hname in
theorem block_classHeader (hwidth : 1 ≤ width) :
    block (headerEntry (classHeader name))
        (entriesFrom 1 (membersRows width width properties methods))
      = entriesFrom 1 (membersRows width width properties methods) :=
  block_eq_self fun _ he =>
    Nat.lt_of_lt_of_le hwidth (code_of_members hproperties hmethods he).1

theorem structureValid_generateClass (hwidth : 1 ≤ width) :
    structureValid (generateClass width name properties methods) = true := by
  obtain ⟨hlogical, -⟩ := scan_generateClass width hname hproperties hmethods
  have hmembers (e) (he : e ∈ entriesFrom 1 (membersRows width width properties methods)) :
      isClass e.code = false := by
    obtain ⟨-, ⟨method, -, hcode⟩ | hordinary⟩ := code_of_members hproperties hmethods he
    · exact hcode ▸ isClass_eq_false (c := 'd') rfl (by decide)
    · exact hordinary.classLike
  have hvalid : classValid (entriesFrom 1 (membersRows width width properties methods)) = true := by
    have hinit : initStatement.startsAt (methodHeader "__init__".toList) = true := by decide +kernel
    exact classValid_iff.2 ⟨hmembers, _, List.mem_cons_self, hinit⟩
  rw [structureValid, hlogical]
  refine List.all_eq_true.2 (List.forall_mem_cons.2 ⟨?_, fun x hx => ?_⟩)
  · simp only [block_classHeader hproperties hmethods hwidth, hvalid, Bool.or_true]
  · simp only [hmembers x.1 (mem_of_mem_withRest hx), Bool.not_false, Bool.true_or]

end

/-! ## Outline -/

def outlineOf (logical : List LogicalLine) : List OutlineEntry :=
  (withRest logical).filterMap fun (entry, rest) => outlined? entry rest

theorem outlineOf_cons (e : LogicalLine) (rest : List LogicalLine) :
    outlineOf (e :: rest) = (outlined? e rest).toList ++ outlineOf rest := by
  cases h : outlined? e rest with
  | none => exact List.filterMap_cons_none h
  | some entry => exact List.filterMap_cons_some h

theorem Ordinary.outlined?_eq {e : LogicalLine} (h : Ordinary e.code) (hindent : e.indent ≠ 0)
    (rest : List LogicalLine) : outlined? e rest = none := by
  simp [outlined?, nameBy_eq_none h.function, nameBy_eq_none h.classLike, hindent]

theorem outlineOf_ordinary {inner : List LogicalLine}
    (h : ∀ e ∈ inner, e.indent ≠ 0 ∧ Ordinary e.code) (later : List LogicalLine) :
    outlineOf (inner ++ later) = outlineOf later := by
  induction inner with
  | nil => rfl
  | cons e inner ih =>
    obtain ⟨⟨hindent, hordinary⟩, hinner⟩ := List.forall_mem_cons.1 h
    rw [List.cons_append, outlineOf_cons, hordinary.outlined?_eq hindent, ih hinner]
    rfl

theorem outlineOf_member {column width : Nat} (hwidth : 1 ≤ width) {name : Text}
    (hname : IsName name) {body : List Text} (hne : body ≠ [])
    (hbody : ∀ code ∈ body, Ordinary code) (line : Nat)
    {later : List LogicalLine} (hlater : ∀ e ∈ later.head?, e.indent ≤ column) :
    outlineOf (entriesFrom line (memberRows column width name body) ++ later)
      = .ofLines .function name line (line + body.length) :: outlineOf later := by
  set inner := entriesFrom (line + 1) (body.map (.statement (column + width))) with hinner
  set header : LogicalLine := { line, stop := line, indent := column, code := methodHeader name }
    with hheader
  have hmem (e) (he : e ∈ inner) : e.indent = column + width ∧ Ordinary e.code := by
    obtain ⟨hcolumn, hcode⟩ := mem_entriesFrom_body he
    exact ⟨hcolumn, hbody _ hcode⟩
  have hblock : block header (inner ++ later) = inner :=
    block_of_append (fun e he => (hmem e he).1 ▸ Nat.lt_add_of_pos_right hwidth) hlater
  have hstop : blockStop header (inner ++ later) = line + body.length := by
    have hlength : 1 ≤ body.length := List.length_pos_iff.2 hne
    rw [blockStop, hblock, (endsFull_body _ hne).stop, List.length_map, Option.getD_some]
    omega
  have hnamed : nameBy defStart header.code = some name :=
    (defNamed_functionHeader hname.1 hname.2).nameBy_eq
  have hentry : outlined? header (inner ++ later)
      = some (.ofLines .function name line (line + body.length)) := by
    rw [outlined?, hnamed, hstop]
  have hdeeper (e) (he : e ∈ inner) : e.indent ≠ 0 :=
    (hmem e he).1 ▸ Nat.ne_of_gt (Nat.add_pos_right column hwidth)
  rw [entriesFrom_member, ← hinner, ← hheader, List.cons_append, outlineOf_cons, hentry,
    outlineOf_ordinary fun e he => ⟨hdeeper e he, (hmem e he).2⟩]
  rfl

theorem head_methods {column width line : Nat} {methods : List Text} {e : LogicalLine}
    (h : e ∈ (entriesFrom line (methodsRows column width methods)).head?) : e.indent = column := by
  cases methods with
  | nil => exact absurd h nofun
  | cons method more => exact (Option.some.inj h) ▸ rfl

theorem outlineOf_methods {column width : Nat} (hwidth : 1 ≤ width) {methods : List Text}
    (hmethods : ∀ method ∈ methods, IsName method) (line : Nat) :
    outlineOf (entriesFrom line (methodsRows column width methods))
      = methods.mapIdx fun j method =>
          .ofLines .function method (line + 3 * j + 1) (line + 3 * j + 2) := by
  induction methods generalizing line with
  | nil => rfl
  | cons method more ih =>
    obtain ⟨hmethod, hmore⟩ := List.forall_mem_cons.1 hmethods
    rw [entriesFrom_methods_cons, outlineOf_member hwidth hmethod (List.cons_ne_nil _ [])
      (List.forall_mem_singleton.2 ordinary_pass) (line + 1) fun e he => (head_methods he).le,
      ih hmore, List.mapIdx_cons]
    congr 2
    funext j next
    congr 1 <;> omega

theorem outlineOf_members {column width : Nat} (hwidth : 1 ≤ width) {properties methods : List Text}
    (hproperties : ∀ property ∈ properties, IsName property)
    (hmethods : ∀ method ∈ methods, IsName method) (line : Nat) :
    outlineOf (entriesFrom line (membersRows column width properties methods))
      = .ofLines .function "__init__".toList line (line + (settings properties).length)
        :: methods.mapIdx fun j method =>
          .ofLines .function method (line + (settings properties).length + 3 * j + 2)
            (line + (settings properties).length + 3 * j + 3) := by
  set last := line + (settings properties).length with hlast
  have hlength : line + (memberRows column width "__init__".toList (settings properties)).length
      = last + 1 := by
    rw [memberRows, List.length_cons, List.length_map, ← Nat.add_assoc]
  rw [membersRows, entriesFrom_append, hlength, outlineOf_member hwidth isName_init
    (settings_ne_nil properties) (ordinary_settings hproperties) line
    fun e he => (head_methods he).le, outlineOf_methods hwidth hmethods]
  congr 2
  funext j method
  congr 1 <;> omega

theorem endsFull_membersRows (column width : Nat) (properties methods : List Text) :
    EndsFull (membersRows column width properties methods) := by
  rcases List.eq_nil_or_concat methods with rfl | ⟨front, method, rfl⟩
  · have hbody := endsFull_body (column + width) (settings_ne_nil properties)
    rw [membersRows, methodsRows, List.flatMap_nil, List.append_nil, memberRows]
    exact hbody.append [_]
  · have hbody := endsFull_body (column + width) (List.cons_ne_nil "pass".toList [])
    rw [membersRows, methodsRows, List.concat_eq_append, List.flatMap_append, ← List.append_assoc,
      List.flatMap_singleton]
    exact EndsFull.append _ (hbody.append [_, _])

theorem blockStop_classHeader {width : Nat} (hwidth : 1 ≤ width) {name : Text}
    {properties methods : List Text} (hproperties : ∀ property ∈ properties, IsName property)
    (hmethods : ∀ method ∈ methods, IsName method) :
    blockStop (headerEntry (classHeader name))
        (entriesFrom 1 (membersRows width width properties methods))
      = (membersRows width width properties methods).length := by
  have hne : 1 ≤ (membersRows width width properties methods).length := by
    rw [membersRows, memberRows, List.cons_append, List.length_cons]
    exact Nat.le_add_left ..
  rw [blockStop, block_classHeader hproperties hmethods hwidth, (endsFull_membersRows ..).stop,
    Option.getD_some]
  omega

theorem outlined?_classHeader {name : Text} (hname : IsName name) (rest : List LogicalLine) :
    outlined? (headerEntry (classHeader name)) rest
      = some (.ofLines .classLike name 0 (blockStop (headerEntry (classHeader name)) rest)) := by
  have hdef : nameBy defStart (headerEntry (classHeader name)).code = none :=
    nameBy_eq_none (isDef_eq_false_of_isClass (isClass_classHeader hname))
  have hclass : nameBy classStart (headerEntry (classHeader name)).code = some name :=
    nameBy_classStart (nameBehind_class hname)
  rw [outlined?, hdef, hclass]
  rfl

/-- For every positive width and all names: a generated class is laid out as a header, a constructor
with a statement for each property, and the methods with an empty line before each. It has no
problem and keeps the structural rule. Its outline is the class, on all its lines, and then the
constructor and the methods in their order, each from the line of its header to the last line of
its body. -/
theorem generateClass_fine {width : Nat} (hwidth : 1 ≤ width) {name : Text} (hname : IsName name)
    {properties methods : List Text} (hproperties : ∀ property ∈ properties, IsName property)
    (hmethods : ∀ method ∈ methods, IsName method) :
    let text := generateClass width name properties methods
    let last := 1 + (settings properties).length
    Text.lines text
        = [classHeader name, Text.spaces width ++ methodHeader "__init__".toList]
          ++ (settings properties).map (Text.spaces (width + width) ++ ·)
          ++ methods.flatMap (fun method =>
            [[], Text.spaces width ++ methodHeader method,
              Text.spaces (width + width) ++ "pass".toList])
      ∧ diagnose text = []
      ∧ structureValid text = true
      ∧ outline text
        = .ofLines .classLike name 0 ((Text.lines text).length - 1)
          :: .ofLines .function "__init__".toList 1 last
          :: methods.mapIdx fun j method =>
            .ofLines .function method (last + 3 * j + 2) (last + 3 * j + 3) := by
  intro text last
  have hlines := lines_generateClass width hname hproperties hmethods
  have hlast : (Text.lines text).length - 1
      = (membersRows width width properties methods).length := by
    rw [hlines, List.length_map, classRows, List.length_cons, Nat.add_sub_cancel]
  refine ⟨?_, diagnose_generateClass hname hproperties hmethods hwidth,
    structureValid_generateClass hname hproperties hmethods hwidth, ?_⟩
  · rw [hlines, classRows, membersRows, memberRows, methodsRows, List.map_cons, List.map_append,
      List.map_flatMap, List.map_cons, List.map_map]
    rfl
  · have houtline : outline text = outlineOf (scan text).logical := rfl
    rw [houtline, (scan_generateClass width hname hproperties hmethods).1, outlineOf_cons,
      outlined?_classHeader hname, blockStop_classHeader hwidth hproperties hmethods, hlast,
      outlineOf_members hwidth hproperties hmethods]
    rfl

theorem generateClass_fine_account :
    1 ≤ 2 ∧ IsName "Account".toList
      ∧ (∀ property ∈ ["owner".toList, "balance".toList], IsName property)
      ∧ (∀ method ∈ ["deposit".toList, "close".toList], IsName method)
      ∧ outline (generateClass 2 "Account".toList ["owner".toList, "balance".toList]
          ["deposit".toList, "close".toList])
        = [.ofLines .classLike "Account".toList 0 9, .ofLines .function "__init__".toList 1 3,
          .ofLines .function "deposit".toList 5 6, .ofLines .function "close".toList 8 9] := by
  have hwidth : 1 ≤ 2 := by decide
  have hname : IsName "Account".toList := by decide
  have hproperties : ∀ property ∈ ["owner".toList, "balance".toList], IsName property := by decide
  have hmethods : ∀ method ∈ ["deposit".toList, "close".toList], IsName method := by decide
  obtain ⟨hlines, -, -, houtline⟩ := generateClass_fine hwidth hname hproperties hmethods
  rw [hlines] at houtline
  exact ⟨hwidth, hname, hproperties, hmethods, houtline⟩

end Indented

end SourceLens
