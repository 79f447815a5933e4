import SourceLens.Proofs.Script.Sealed

/-!
# Formatted scripts

Formatting a formatted script changes nothing, as long as the parser seals in the result what was
sealed before. The written lines are taken with their seals (`settle`): they are the lines that the
result is cut into again, they leave as many brackets open, and each of them is written as it stands
(`writeLine_settled`). A line may start inside a sealed node only after it is written, but then it has
no margin and is copied.
-/

namespace SourceLens.Script

open Bytes Utf8

/-! ## Lines and their cells -/

/-- The cells of a line, its line feed included. -/
def CellLine.cells (line : CellLine) : List Cell := line.body ++ line.feed.toList

theorem cellLines_append {body : List Cell} (h : ∀ c ∈ body, c.feeds = false) {cells : List Cell}
    {line : CellLine} {more : List CellLine} (hcells : cellLines cells = line :: more) :
    cellLines (body ++ cells) = { line with body := body ++ line.body } :: more := by
  induction body with
  | nil => exact hcells
  | cons cell body ih =>
    obtain ⟨hcell, hbody⟩ := List.forall_mem_cons.1 h
    rw [List.cons_append, cellLines, if_neg (of_decide_eq_false hcell), ih hbody]
    rfl

theorem Lines.cellLines_eq {cells : List Cell} {lines : List CellLine} (h : Lines cells lines) :
    cellLines cells = lines := by
  induction h with
  | @last body hbody =>
    have hnone : cellLines [] = [{ body := [], feed := none }] := rfl
    simpa using cellLines_append hbody hnone
  | @line body rest feed lines hbody hfeed _ ih =>
    have hcells : cellLines (feed :: rest) = { body := [], feed := some feed } :: lines := by
      rw [cellLines, if_pos (of_decide_eq_true hfeed), ih]
    simpa using cellLines_append hbody hcells

theorem Lines.intercalate_eq {cells : List Cell} {lines : List CellLine} (h : Lines cells lines) :
    List.intercalate [lineFeed] (lines.map fun line => line.body.map (·.byte))
      = cells.map (·.byte) := by
  induction h with
  | last _ => simp
  | @line body rest feed lines _ hfeed hrest ih =>
    have hbyte : feed.byte = lineFeed := of_decide_eq_true hfeed
    obtain ⟨next, more, hnext⟩ : ∃ next more,
        lines.map (fun line => line.body.map (·.byte)) = next :: more := by
      cases hrest <;> exact ⟨_, _, rfl⟩
    rw [List.map_cons, hnext, List.intercalate_cons_cons, ← hnext, ih]
    simp [hbyte]

/-! ## Written lines with their seals -/

def space : Cell := { byte := 32, inside := false }

/-- A line as it is written, each byte with its seal. -/
def CellLine.settled (width depth : Nat) (before : Option Cell) (line : CellLine) : CellLine :=
  { line with body := List.replicate (margin width depth before line) space ++ kept before line }

/-- Lines as they are written, given the brackets open before them and the line feed in front. -/
def settle (width : Nat) : Nat → Option Cell → List CellLine → List CellLine
  | _, _, [] => []
  | depth, before, line :: rest =>
    line.settled width depth before
      :: settle width (line.body.foldl depthAfter depth) line.feed rest

section Line

variable {width depth : Nat} {before : Option Cell} {line : CellLine}

theorem kept_subset : kept before line ⊆ line.body := by
  intro c hc
  rw [body_eq before line]
  exact List.mem_append_right _ (List.mem_append_left _ hc)

theorem feeds_settled (width depth : Nat) (before : Option Cell) (line : CellLine)
    (h : ∀ c ∈ line.body, c.feeds = false) :
    ∀ c ∈ (line.settled width depth before).body, c.feeds = false := by
  intro c hc
  rcases List.mem_append.1 hc with hc | hc
  · rw [List.eq_of_mem_replicate hc]
    rfl
  · exact h c (kept_subset hc)

theorem depthAfter_blank {cell : Cell} (h : cell.blank = true) : depthAfter depth cell = depth := by
  have hblank : cell.byte = 32 ∨ 9 ≤ cell.byte ∧ cell.byte ≤ 13 := by
    simpa [Cell.blank, isBlankByte] using h
  have hopener : isOpenerByte cell.byte = false := by
    simp only [isOpenerByte, Bool.or_eq_false_iff, decide_eq_false_iff_not]
    grind
  have hcloser : isCloserByte cell.byte = false := by
    simp only [isCloserByte, Bool.or_eq_false_iff, decide_eq_false_iff_not]
    grind
  simp [depthAfter, hopener, hcloser]

theorem foldl_depthAfter_blank {cells : List Cell} (h : ∀ c ∈ cells, c.blank = true) :
    cells.foldl depthAfter depth = depth := by
  induction cells with
  | nil => rfl
  | cons cell cells ih =>
    obtain ⟨hcell, hcells⟩ := List.forall_mem_cons.1 h
    rw [List.foldl_cons, depthAfter_blank hcell, ih hcells]

theorem foldl_settled (k : Nat) :
    (line.settled width depth before).body.foldl depthAfter k = line.body.foldl depthAfter k := by
  have hspaces : ∀ c ∈ List.replicate (margin width depth before line) space, c.blank = true := by
    intro c hc
    rw [List.eq_of_mem_replicate hc]
    rfl
  conv_rhs => rw [body_eq before line, List.foldl_append, List.foldl_append,
    foldl_depthAfter_blank blank_of_lead, foldl_depthAfter_blank blank_of_trail]
  rw [CellLine.settled, List.foldl_append, foldl_depthAfter_blank hspaces]

theorem trim_kept (h : continues before line = false) (n : Nat) :
    (((List.replicate n space ++ kept before line).dropWhile Cell.blank).rdropWhile Cell.blank)
      = kept before line := by
  have hspaces : ∀ c ∈ List.replicate n space, c.blank = true := by
    intro c hc
    rw [List.eq_of_mem_replicate hc]
    rfl
  have hkept : kept before line = (line.body.dropWhile Cell.blank).rdropWhile Cell.blank := by
    rw [kept, h]
    rfl
  have hfront : (kept before line).dropWhile Cell.blank = kept before line := by
    cases hcontent : kept before line with
    | nil => rfl
    | cons cell content =>
      obtain ⟨back, hback⟩ := List.rdropWhile_prefix Cell.blank (line.body.dropWhile Cell.blank)
      rw [← hkept, hcontent] at hback
      have hhead := List.head?_dropWhile_not Cell.blank line.body
      rw [← hback] at hhead
      have hcell : cell.blank = false := by simpa using hhead
      rw [List.dropWhile_cons_of_neg (by simp [hcell])]
  rw [List.dropWhile_append_of_pos hspaces, hfront, hkept, List.rdropWhile_idempotent]

/-- A written line is written as it stands. -/
theorem writeLine_settled :
    writeLine width depth before (line.settled width depth before)
      = (line.settled width depth before).body.map (·.byte) := by
  by_cases hagain : continues before (line.settled width depth before) = true
  · rw [writeLine, if_pos hagain]
  · have hagain : continues before (line.settled width depth before) = false := by
      simpa using hagain
    -- a line that is copied starts as before, so this one is not copied
    have hbefore : continues before line = false := by
      cases hcopied : continues before line with
      | false => rfl
      | true =>
        have hsame : line.settled width depth before = line := by
          simp [CellLine.settled, margin, kept, hcopied]
        rw [hsame, hcopied] at hagain
        exact absurd hagain (by decide)
    have hkept : kept before (line.settled width depth before) = kept before line := by
      conv_lhs => rw [kept, hagain]
      exact trim_kept hbefore _
    have hmargin : margin width depth before (line.settled width depth before)
        = margin width depth before line := by
      rw [margin, margin, hkept, hagain, hbefore]
    rw [writeLine_eq, hkept, hmargin, CellLine.settled, List.map_append, List.map_replicate]
    rfl

end Line

theorem writeLines_settle (width : Nat) (lines : List CellLine) :
    ∀ (depth : Nat) (before : Option Cell),
      writeLines width depth before (settle width depth before lines)
        = (settle width depth before lines).map fun line => line.body.map (·.byte) := by
  induction lines with
  | nil => exact fun _ _ => rfl
  | cons line rest ih =>
    intro depth before
    rw [settle, writeLines, writeLine_settled, foldl_settled, List.map_cons]
    congr 1
    exact ih _ line.feed

/-- The written lines are the lines of what is written. -/
theorem Lines.settle {cells : List Cell} {lines : List CellLine} (h : Lines cells lines) (width : Nat) :
    ∀ (depth : Nat) (before : Option Cell),
      Lines ((settle width depth before lines).flatMap CellLine.cells)
        (Script.settle width depth before lines) := by
  induction h with
  | @last body hbody =>
    intro depth before
    have hlast := Lines.last (feeds_settled width depth before { body, feed := none } hbody)
    simpa [Script.settle, CellLine.cells, CellLine.settled] using hlast
  | @line body rest feed lines hbody hfeed _ ih =>
    intro depth before
    have hline := Lines.line (feeds_settled width depth before { body, feed := some feed } hbody) hfeed
      (ih (body.foldl depthAfter depth) feed)
    simpa [Script.settle, CellLine.cells, CellLine.settled] using hline

/-! ## Seals and origins -/

def carried (source : List Cell) : Option Nat → Cell
  | none => space
  | some i => source.getD i { byte := 0, inside := false }

theorem map_carried_range' (front mid back : List Cell) :
    ((List.range' front.length mid.length).map some).map (carried (front ++ (mid ++ back))) = mid := by
  apply List.ext_getElem
  · simp
  · intro i hi hmid
    simp [carried, List.getElem?_append_right, List.getElem?_append_left hmid, hmid]

theorem cells_settle (width : Nat) {cells : List Cell} {lines : List CellLine}
    (h : Lines cells lines) :
    ∀ (front : List Cell) (depth : Nat) (before : Option Cell),
      (settle width depth before lines).flatMap CellLine.cells
        = (origins width depth before front.length lines).map (carried (front ++ cells)) := by
  -- the line itself, whatever comes after it
  have hline (front back : List Cell) (depth : Nat) (before : Option Cell) (line : CellLine) :
      (lineOrigins width depth before front.length line).map
          (carried (front ++ (line.body ++ back)))
        = (line.settled width depth before).body := by
    have hsource : front ++ (line.body ++ back)
        = (front ++ lead before line) ++ (kept before line ++ (trail before line ++ back)) := by
      conv_lhs => rw [body_eq before line]
      simp
    have hkept := map_carried_range' (front ++ lead before line) (kept before line)
      (trail before line ++ back)
    rw [← hsource, List.length_append] at hkept
    rw [lineOrigins, List.map_append, hkept, List.map_replicate]
    rfl
  induction h with
  | @last body _ =>
    intro front depth before
    have hlast := hline front [] depth before ⟨body, none⟩
    rw [List.append_nil] at hlast
    rw [origins_last, hlast]
    simp [settle, CellLine.cells, CellLine.settled]
  | @line body rest feed lines _ _ _ ih =>
    intro front depth before
    have hfirst := hline front (feed :: rest) depth before ⟨body, some feed⟩
    have hlater := ih (front ++ (body ++ [feed])) (body.foldl depthAfter depth) (some feed)
    have hsource : front ++ (body ++ [feed]) ++ rest = front ++ (body ++ feed :: rest) := by simp
    have hlength : (front ++ (body ++ [feed])).length = front.length + body.length + 1 := by
      simp [Nat.add_assoc]
    have hfeed : carried (front ++ (body ++ feed :: rest)) (some (front.length + body.length))
        = feed := by
      simp [carried]
    rw [hsource, hlength] at hlater
    generalize front ++ (body ++ feed :: rest) = source at hfirst hlater hfeed
    rw [settle, List.flatMap_cons, hlater, origins_line, List.map_append, List.map_cons, hfeed, hfirst]
    simp [CellLine.cells, CellLine.settled]

/-- For each byte that is written of a source, the offset that it is copied from, or none if it was
put in. -/
def copies (width : Nat) (parsed : Parsed) : List (Option Nat) :=
  origins width 0 none 0 (cellLines (cells parsed))

/-- Whether what is written for an origin is copied from inside a sealed node. -/
def copiesSealed (parsed : Parsed) (origin : Option Nat) : Bool :=
  (origin.bind fun i => (cells parsed)[i]?).any (·.inside)

/-- Whether a parse of what is written seals exactly the bytes that are copied from sealed ones. -/
def KeepsSeals (width : Nat) (parsed again : Parsed) : Prop :=
  (cells again).map (·.inside) = (copies width parsed).map (copiesSealed parsed)

instance (width : Nat) (parsed again : Parsed) : Decidable (KeepsSeals width parsed again) :=
  inferInstanceAs (Decidable (_ = _))

theorem eq_of_map_eq {a b : List Cell} (hbytes : a.map (·.byte) = b.map (·.byte))
    (hinside : a.map (·.inside) = b.map (·.inside)) : a = b := by
  have hlength : a.length = b.length := by simpa using congrArg List.length hbytes
  apply List.ext_getElem hlength
  intro i ha hb
  have hbyte : a[i].byte = b[i].byte := by
    simpa [ha, hb] using congrArg (·[i]?) hbytes
  have hseal : a[i].inside = b[i].inside := by
    simpa [ha, hb] using congrArg (·[i]?) hinside
  cases hcell : a[i]
  cases hcell' : b[i]
  simp_all

section Formatted

variable {parser : Parser} {dialect : Dialect} {text : Text} {parsed : Parsed} {width : Nat}

theorem source_of_parse (h : (parse parser dialect text).value = some parsed) :
    parsed.source = encode text := by
  obtain hnone | ⟨grammar, hparse⟩ := Parser.parse_of_parseBest _ h
  · exact absurd hnone (by simp)
  · exact (Parser.parse_eq_ok hparse).2

theorem value_format (parser : Parser) (dialect : Dialect) (width : Nat) (text : Text) :
    (format parser dialect width text).value
      = match (parse parser dialect text).value with
        | none => text
        | some parsed =>
          if parsed.hasErrors then text else decode (formatBytes width parsed) := by
  simp only [format, bind]
  cases (parse parser dialect text).value <;> rfl

theorem written_eq (parsed : Parsed) (origin : Option Nat) :
    written parsed.source origin = (carried (cells parsed) origin).byte := by
  cases origin with
  | none => rfl
  | some i =>
    rw [written, carried, ← map_byte_cells parsed, List.getD_eq_getElem?_getD,
      List.getD_eq_getElem?_getD, List.getElem?_map]
    cases (cells parsed)[i]? <;> rfl

theorem copiesSealed_eq (parsed : Parsed) (origin : Option Nat) :
    copiesSealed parsed origin = (carried (cells parsed) origin).inside := by
  cases origin with
  | none => rfl
  | some i =>
    rw [copiesSealed, carried, List.getD_eq_getElem?_getD, Option.bind_some]
    cases (cells parsed)[i]? <;> rfl

theorem encode_format (h : (parse parser dialect text).value = some parsed)
    (hfine : parsed.hasErrors = false) :
    encode (format parser dialect width text).value
      = (copies width parsed).map (written parsed.source) := by
  have hlines := lines_cellLines (cells parsed)
  have hspelled : Spelled (formatBytes width parsed) := by
    refine spelled_writeLines width hlines 0 none ?_
    rw [map_byte_cells, source_of_parse h]
    exact ⟨text, rfl⟩
  have hwritten := intercalate_writeLines width hlines [] 0 none
  rw [value_format, h]
  simp only [hfine, Bool.false_eq_true, if_false]
  rw [encode_decode hspelled, formatBytes, hwritten, List.nil_append, map_byte_cells]
  rfl

theorem KeepsSeals.cells_eq {again : Parsed} (hseals : KeepsSeals width parsed again)
    (hsource : again.source = (copies width parsed).map (written parsed.source)) :
    cells again
      = (settle width 0 none (cellLines (cells parsed))).flatMap CellLine.cells := by
  have hcells := cells_settle width (lines_cellLines (cells parsed)) [] 0 none
  rw [List.nil_append, List.length_nil, ← copies] at hcells
  rw [hcells]
  apply eq_of_map_eq
  · rw [map_byte_cells, hsource, List.map_map]
    exact List.map_congr_left fun origin _ => written_eq parsed origin
  · rw [hseals, List.map_map]
    exact List.map_congr_left fun origin _ => copiesSealed_eq parsed origin

end Formatted

/-- A formatted script is left as it is, if every tree without errors that the parser gives for it
seals exactly the bytes that were sealed before they were copied. -/
theorem format_formatted {parser : Parser} {dialect : Dialect} {text : Text} {parsed : Parsed}
    (width : Nat) (h : (parse parser dialect text).value = some parsed)
    (hfine : parsed.hasErrors = false)
    (hseals : ∀ again,
      (parse parser dialect (format parser dialect width text).value).value = some again →
      again.hasErrors = false → KeepsSeals width parsed again) :
    encode (format parser dialect width text).value
        = (copies width parsed).map (written parsed.source)
      ∧ (format parser dialect width (format parser dialect width text).value).value
        = (format parser dialect width text).value := by
  have hwritten : encode (format parser dialect width text).value
      = (copies width parsed).map (written parsed.source) := encode_format h hfine
  refine ⟨hwritten, ?_⟩
  conv_lhs => rw [value_format]
  cases hagain : (parse parser dialect (format parser dialect width text).value).value with
  | none => rfl
  | some again =>
    cases hfine' : again.hasErrors with
    | true => simp only [hfine', if_true]
    | false =>
      have hsource := source_of_parse hagain
      have hcells := (hseals again hagain hfine').cells_eq (hsource.trans hwritten)
      -- the result is cut into the written lines, and these are written as they stand
      have hlines := (lines_cellLines (cells parsed)).settle width 0 none
      have hbytes : formatBytes width again = again.source := by
        rw [formatBytes, hcells, hlines.cellLines_eq, writeLines_settle, hlines.intercalate_eq,
          ← hcells, map_byte_cells]
      simp only [hfine', Bool.false_eq_true, if_false]
      rw [hbytes, hsource, decode_encode]

/-- A call whose argument holds a template that goes on in the next line. -/
def raggedCall : Text := "f(\x7b\na: `x\n  y`,\n\x7d);\n".toList

def alignedCall : Text := "f(\x7b\n        a: `x\n  y`,\n\x7d);\n".toList

/-- The tree of the call with some spaces in front of its second line. -/
def callTree (shift : Nat) : Node :=
  .mk { kind := "program", start := 0, stop := 20 + shift }
    [.mk { kind := "expression_statement", start := 0, stop := 19 + shift }
      [.mk { kind := "call_expression", start := 0, stop := 18 + shift }
        [.mk { kind := "identifier", start := 0, stop := 1, field := some "function" } [],
         .mk { kind := "arguments", start := 1, stop := 18 + shift, field := some "arguments" }
          [.mk { kind := "object", start := 2, stop := 17 + shift }
            [.mk { kind := "pair", start := 4 + shift, stop := 14 + shift }
              [.mk { kind := "property_identifier", start := 4 + shift, stop := 5 + shift } [],
               .mk { kind := "template_string", start := 7 + shift, stop := 14 + shift } []]]]]]]

def callParser : Parser := fun _ source => .ok (callTree (if source = raggedCall then 0 else 8))

theorem parse_callParser {source : Text} {shift : Nat}
    (hshift : (if source = raggedCall then 0 else 8) = shift)
    (hfine : Parsed.hasErrors ⟨"typescript", encode source, callTree shift⟩ = false) :
    (parse callParser .typescript source).value
      = some ⟨"typescript", encode source, callTree shift⟩ := by
  have hfound : (Parser.parse? callParser .typescript source).value
      = some ⟨"typescript", encode source, callTree shift⟩ := by
    rw [← hshift]
    rfl
  rw [parse, Dialect.grammars, Parser.parseBest, Parser.firstBest]
  simp only [bind, hfound, hfine]
  rfl

theorem format_formatted_raggedCall :
    let parsed : Parsed := ⟨"typescript", encode raggedCall, callTree 0⟩
    (parse callParser .typescript raggedCall).value = some parsed
      ∧ parsed.hasErrors = false
      ∧ (∀ again, (parse callParser .typescript
            (format callParser .typescript 4 raggedCall).value).value = some again →
          again.hasErrors = false → KeepsSeals 4 parsed again)
      ∧ (format callParser .typescript 4 raggedCall).value = alignedCall
      ∧ encode (format callParser .typescript 4 raggedCall).value
        = (copies 4 parsed).map (written parsed.source)
      ∧ (format callParser .typescript 4 (format callParser .typescript 4 raggedCall).value).value
        = (format callParser .typescript 4 raggedCall).value := by
  intro parsed
  have hfine : parsed.hasErrors = false := by decide +kernel
  have hparse : (parse callParser .typescript raggedCall).value = some parsed :=
    parse_callParser (if_pos rfl) hfine
  have hwritten : (format callParser .typescript 4 raggedCall).value = alignedCall := by
    rw [value_format, hparse]
    decide +kernel
  have hseals : ∀ again, (parse callParser .typescript
        (format callParser .typescript 4 raggedCall).value).value = some again →
      again.hasErrors = false → KeepsSeals 4 parsed again := by
    intro again hagain _
    rw [hwritten, parse_callParser (if_neg (by decide)) (by decide +kernel)] at hagain
    obtain rfl := Option.some.inj hagain
    decide +kernel
  exact ⟨hparse, hfine, hseals, hwritten, format_formatted 4 hparse hfine hseals⟩

end SourceLens.Script
