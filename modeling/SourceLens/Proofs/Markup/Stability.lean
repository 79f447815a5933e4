import SourceLens.Proofs.Markup.Placement

/-!
# Injecting files twice

In a document whose head ends before its body, the new files stand before the two closing tags
(`exists_placed`). Markup that includes a file has no line feed, and a sign inside it opens the end
of a script alone, so neither of the two cuts goes through it (`Whole.cut`, `Whole.infix_put`). What
stood in the document stands in the result, what was put in stands there as well, and a second
injection finds no file to put in (`injectImports_twice`).
-/

namespace SourceLens.Markup

variable {width : Nat} {files links scripts : List Text} {text : Text}

/-! ## Markup that stays whole -/

/-- Markup on one line, in which a sign behind the first one opens the end of a script. -/
structure Whole (m : Text) : Prop where
  newline : '\n' ∉ m
  sign : ∀ {a b : Text}, m = a ++ '<' :: b → a ≠ [] → ∃ rest, b = '/' :: 's' :: rest

theorem whole_of_tail {m : Text} (hnewline : '\n' ∉ m) (h : '<' ∉ m.tail) : Whole m where
  newline := hnewline
  sign := by
    intro a b hm ha
    obtain ⟨c, a, rfl⟩ := List.exists_cons_of_ne_nil ha
    exact absurd (by simp [hm]) h

theorem whole_of_script {q rest : Text} (hnewline : '\n' ∉ '<' :: q ++ '<' :: '/' :: 's' :: rest)
    (hq : '<' ∉ q) (hrest : '<' ∉ rest) : Whole ('<' :: q ++ '<' :: '/' :: 's' :: rest) where
  newline := hnewline
  sign := by
    intro a b hm ha
    obtain ⟨c, a, rfl⟩ := List.exists_cons_of_ne_nil ha
    have htail : q ++ '<' :: '/' :: 's' :: rest = a ++ '<' :: b := (List.cons.inj hm).2
    -- the two signs are one, as there is no other
    rcases List.append_eq_append_iff.1 htail with ⟨w, -, hw⟩ | ⟨w, rfl, hw⟩
    · cases w with
      | nil => exact ⟨rest, (List.cons.inj hw).2.symm⟩
      | cons e w =>
        have hmem : '<' ∈ '/' :: 's' :: rest := by
          rw [(List.cons.inj hw).2]
          simp
        simp [hrest] at hmem
    · cases w with
      | nil => exact ⟨rest, (List.cons.inj hw).2⟩
      | cons e w =>
        obtain ⟨rfl, -⟩ := List.cons.inj hw
        simp at hq

theorem whole_importLine {file : Text} (hkind : isCssFile file = true ∨ isScriptFile file = true)
    (hnewline : '\n' ∉ file) (hsign : '<' ∉ file) : Whole (importLine file) := by
  by_cases hcss : isCssFile file = true
  · exact whole_of_tail (newline_not_mem_importLine hnewline)
      (isLink_importLine hcss hsign hnewline).sign
  · have hline : importLine file
        = '<' :: ("script src=\"".toList ++ file ++ "\">".toList)
          ++ '<' :: '/' :: 's' :: "cript>".toList := by
      rw [importLine_script (hkind.resolve_left hcss)]
      simp
    have hnone := newline_not_mem_importLine hnewline
    rw [hline] at hnone ⊢
    exact whole_of_script hnone (by simp [hsign]) (by decide)

namespace Whole

variable {m : Text}

theorem cut {u v : Text} {c : Char} (hm : Whole m) (hc : c ≠ 's')
    (h : m <:+: u ++ '<' :: '/' :: c :: v) : m <:+: u ∨ m <:+: '<' :: '/' :: c :: v := by
  induction u with
  | nil => exact .inr h
  | cons e u ih =>
    rcases List.infix_cons_iff.1 h with hstart | hlater
    · left
      rcases List.prefix_or_prefix_of_prefix hstart (List.prefix_append (e :: u) _)
        with hin | ⟨k, hk⟩
      · exact hin.isInfix
      · cases k with
        | nil =>
          rw [List.append_nil] at hk
          exact hk ▸ List.infix_rfl
        | cons d k =>
          -- what goes over would have the tag inside
          rw [← hk] at hstart
          have hover : d :: k <+: '<' :: '/' :: c :: v :=
            (List.prefix_append_right_inj (e :: u)).1 hstart
          obtain ⟨rfl, hslash⟩ := List.cons_prefix_cons.1 hover
          obtain ⟨rest, rfl⟩ := hm.sign hk.symm (List.cons_ne_nil e u)
          obtain ⟨hname, -⟩ := List.cons_prefix_cons.1 (List.cons_prefix_cons.1 hslash).2
          exact absurd hname.symm hc
    · exact (ih hlater).imp_left fun hu => List.infix_cons_iff.2 (.inr hu)

theorem infix_put {front : Text} (hm : Whole m) (h : m <:+: front) :
    m <:+: put width files front := by
  by_cases hfiles : files = []
  · rwa [hfiles, put_nil]
  by_cases hblank : Text.allBlank (lastLine front) = true
  · rw [put_of_blank hfiles hblank]
    have hparts : m <:+: aboveLast front ∨ m <:+: lastLine front := by
      rcases not_mem_or_exists_lastLine front with hfront | ⟨u, lead, rfl, hlead⟩
      · rw [(lastLine_of_not_mem hfront).1]
        exact .inr h
      · obtain ⟨hlast, habove⟩ := lastLine_newline u hlead
        rw [hlast, habove]
        have htail : '\n' ∉ m.tail := fun hmem => hm.newline (List.mem_of_mem_tail hmem)
        rcases Text.infix_append_cons htail h with hu | hline
        · exact .inl (hu.trans (List.prefix_append u ['\n']).isInfix)
        · rcases List.infix_cons_iff.1 hline with hstart | hlater
          · cases m with
            | nil => exact .inl List.nil_infix
            | cons c m =>
              obtain ⟨rfl, -⟩ := List.cons_prefix_cons.1 hstart
              exact absurd List.mem_cons_self hm.newline
          · exact .inr hlater
    rcases hparts with hin | hin
    · rw [List.append_assoc]
      exact hin.trans (List.prefix_append ..).isInfix
    · exact hin.trans (List.suffix_append ..).isInfix
  · rw [put_of_not_blank hfiles (Bool.eq_false_iff.2 hblank)]
    exact h.trans (List.prefix_append ..).isInfix

theorem infix_placed {x r t : Text} {c d : Char} (hm : Whole m) (hc : c ≠ 's') (hd : d ≠ 's')
    (h : m <:+: x ++ '<' :: '/' :: c :: r ++ '<' :: '/' :: d :: t) :
    m <:+: put width links x ++ put width scripts ('<' :: '/' :: c :: r)
      ++ '<' :: '/' :: d :: t := by
  rcases hm.cut hd h with hfront | hback
  · rcases hm.cut hc hfront with hx | hmiddle
    · exact (hm.infix_put hx).trans
        ((List.prefix_append ..).isInfix.trans (List.prefix_append ..).isInfix)
    · exact (hm.infix_put hmiddle).trans
        ((List.suffix_append ..).isInfix.trans (List.prefix_append ..).isInfix)
  · exact hback.trans (List.suffix_append ..).isInfix

end Whole

theorem infix_put_of_mem (width : Nat) {file : Text} (h : file ∈ files) (front : Text) :
    importLine file <:+: put width files front := by
  have hfiles : files ≠ [] := List.ne_nil_of_mem h
  by_cases hblank : Text.allBlank (lastLine front) = true
  · rw [put_of_blank hfiles hblank]
    obtain ⟨before, after, rfl⟩ := List.append_of_mem h
    refine ⟨aboveLast front ++ fileLines width (lastLine front) before ++ lastLine front
      ++ Text.spaces width, '\n' :: (fileLines width (lastLine front) after ++ lastLine front), ?_⟩
    simp [fileLines]
  · rw [put_of_not_blank hfiles (Bool.eq_false_iff.2 hblank)]
    exact (Text.infix_unlines (List.mem_map_of_mem h)).trans (List.suffix_append ..).isInfix

/-! ## Documents whose head ends first -/

theorem exists_closing_name {c : Char} {name : Text} {i : Nat}
    (h : i ∈ Text.places ('<' :: '/' :: c :: name) (text.map Char.toLower)) :
    ∃ x d r, text = x ++ '<' :: '/' :: d :: r ∧ x.length = i ∧ d.toLower = c := by
  obtain ⟨x, r, rfl, rfl⟩ := exists_closing ⟨c :: name, rfl⟩ h
  have hstands := (Text.mem_places.1 h).2
  rw [← List.map_drop, List.drop_left, List.map_cons, List.map_cons] at hstands
  obtain ⟨-, hstands⟩ := List.cons_prefix_cons.1 hstands
  obtain ⟨-, hstands⟩ := List.cons_prefix_cons.1 hstands
  cases r with
  | nil => exact absurd hstands (by simp)
  | cons d r => exact ⟨x, d, r, rfl, rfl, (List.cons_prefix_cons.1 hstands).1.symm⟩

theorem value_injectImports (parser : Parser) (width : Nat) (text : Text) (deps : List Text) :
    (injectImports parser width text deps).value
      = if ((lacking parser text deps).filter isCssFile).isEmpty
          && ((lacking parser text deps).filter isScriptFile).isEmpty then text
        else insertFiles width text ((lacking parser text deps).filter isCssFile)
          ((lacking parser text deps).filter isScriptFile) := rfl

theorem injectImports_of_no_files {parser : Parser} {deps : List Text}
    (h : ∀ dep ∈ lacking parser text deps, ¬(isCssFile dep = true ∨ isScriptFile dep = true)) :
    (injectImports parser width text deps).value = text := by
  have hlinks : (lacking parser text deps).filter isCssFile = [] :=
    List.filter_eq_nil_iff.2 fun dep hdep hcss => h dep hdep (.inl hcss)
  have hscripts : (lacking parser text deps).filter isScriptFile = [] :=
    List.filter_eq_nil_iff.2 fun dep hdep hscript => h dep hdep (.inr hscript)
  rw [value_injectImports, hlinks, hscripts]
  rfl

theorem injectImports_of_no_end {parser : Parser} {deps : List Text}
    (h : headEnd? text = none ∨ bodyEnd? text = none) :
    (injectImports parser width text deps).value = text := by
  rw [value_injectImports, insertFiles]
  simp only [find?_head_lower, findLast?_body_lower]
  rcases h with hnone | hnone
  · rw [hnone]
    split_ifs <;> rfl
  · rw [hnone]
    cases headEnd? text <;> split_ifs <;> rfl

theorem count_dottedCapitalI (hlower : ∀ c ∈ text, (lower [c]).length = 1) (i : Nat) :
    (text.take i).count dottedCapitalI = 0 := by
  rw [List.count_eq_zero]
  intro hmem
  exact absurd (hlower dottedCapitalI (List.mem_of_mem_take hmem)) (by decide)

/-- Where the head ends first and lower-casing keeps every offset, the new files stand before the
closing tags. -/
theorem exists_placed {parser : Parser} {deps : List Text} {head body : Nat}
    (hdeps : ∀ dep ∈ deps, '\n' ∉ dep) (hlower : ∀ c ∈ text, (lower [c]).length = 1)
    (hhead : headEnd? text = some head) (hbody : bodyEnd? text = some body) (hlt : head < body) :
    ∃ x c r d t, c ≠ 's' ∧ d ≠ 's' ∧ text = x ++ '<' :: '/' :: c :: r ++ '<' :: '/' :: d :: t
      ∧ (injectImports parser width text deps).value
        = put width ((lacking parser text deps).filter isCssFile) x
          ++ put width ((lacking parser text deps).filter isScriptFile) ('<' :: '/' :: c :: r)
          ++ '<' :: '/' :: d :: t := by
  obtain ⟨x, c, r, htext, hx, hc⟩ := exists_closing_name (headEnd?_mem_places hhead)
  obtain ⟨y, d, t, htext', hy, hd⟩ := exists_closing_name (bodyEnd?_mem_places hbody)
  obtain ⟨w, rfl⟩ := exists_between (htext.symm.trans htext') (by omega)
  have hne {e : Char} (he : e.toLower = 'h' ∨ e.toLower = 'b') : e ≠ 's' ∧ e ≠ '<' := by
    constructor
    · rintro rfl
      exact absurd he (by decide)
    · rintro rfl
      exact absurd he (by decide)
  -- the name of the first tag is in front of the second one
  obtain ⟨w, rfl⟩ : ∃ w', w = c :: w' := by
    have hname : c :: r = w ++ '<' :: '/' :: d :: t := by
      have htail := htext.symm.trans htext'
      rw [List.append_assoc, List.append_cancel_left_eq] at htail
      exact (List.cons.inj (List.cons.inj htail).2).2
    cases w with
    | nil => exact absurd (List.cons.inj hname).1 (hne (.inl hc)).2
    | cons e w =>
      obtain ⟨rfl, -⟩ := List.cons.inj hname
      exact ⟨w, rfl⟩
  refine ⟨x, c, w, d, t, (hne (.inl hc)).1, (hne (.inr hd)).1, htext', ?_⟩
  rw [injectImports_eq hdeps hhead hbody, Text.lowerOffset, Text.lowerOffset,
    count_dottedCapitalI hlower, count_dottedCapitalI hlower, ← hx, ← hy]
  exact (splice_headFirst htext' 0 0).2 ⟨fun _ => rfl, fun _ => rfl⟩

/-- Injecting the same files a second time changes nothing, if the head ends first, lower-casing
keeps offsets, and the parser still finds what it found. -/
theorem injectImports_twice (parser : Parser) (width : Nat) {deps : List Text}
    (hlower : ∀ c ∈ text, (lower [c]).length = 1)
    (horder : ∀ head body, headEnd? text = some head → bodyEnd? text = some body → head < body)
    (hdeps : ∀ dep ∈ deps, '\n' ∉ dep ∧ '<' ∉ dep)
    (hparser : ∀ dep ∈ (dependencies parser text).value,
      dep ∈ (dependencies parser (injectImports parser width text deps).value).value) :
    (injectImports parser width (injectImports parser width text deps).value deps).value
      = (injectImports parser width text deps).value := by
  cases hhead : headEnd? text with
  | none => rw [injectImports_of_no_end (.inl hhead), injectImports_of_no_end (.inl hhead)]
  | some head =>
    cases hbody : bodyEnd? text with
    | none => rw [injectImports_of_no_end (.inr hbody), injectImports_of_no_end (.inr hbody)]
    | some body =>
      apply injectImports_of_no_files
      intro dep hdep hkind
      obtain ⟨hmem, habsent, hfresh⟩ := Dependency.mem_toInject.1 hdep
      obtain ⟨x, c, r, d, t, hc, hd, htext, hresult⟩ := exists_placed
        (fun dep hdep => (hdeps dep hdep).1) hlower hhead hbody (horder head body hhead hbody)
      rw [hresult] at hfresh
      apply hfresh
      by_cases hstood : importLine dep <:+: text
      · rw [htext] at hstood
        have hwhole := whole_importLine hkind (hdeps dep hmem).1 (hdeps dep hmem).2
        exact hwhole.infix_placed hc hd hstood
      · have hnew : dep ∈ lacking parser text deps :=
          Dependency.mem_toInject.2 ⟨hmem, mt (hparser dep) habsent, hstood⟩
        rw [List.append_assoc]
        rcases hkind with hcss | hscript
        · have hin := infix_put_of_mem width (List.mem_filter.2 ⟨hnew, hcss⟩) x
          exact hin.trans (List.prefix_append ..).isInfix
        · have hin :=
            infix_put_of_mem width (List.mem_filter.2 ⟨hnew, hscript⟩) ('<' :: '/' :: c :: r)
          exact hin.trans ((List.prefix_append ..).isInfix.trans (List.suffix_append ..).isInfix)

/-- A document with a link that only a parser finds, as its attributes are swapped. -/
def swappedPage : Text :=
  "<head><link href=\"a.css\" rel=\"stylesheet\"></head><body></body>".toList

/-- That document with another link and a script. -/
def swappedResult : Text :=
  "<head><link href=\"a.css\" rel=\"stylesheet\">".toList
    ++ "<link rel=\"stylesheet\" href=\"b.css\"></head>".toList
    ++ "<body><script src=\"c.js\"></script></body>".toList

/-- The trees of the two documents. -/
def swappedParser : Parser := fun _ text =>
  let leaf (kind : String) (start stop : Nat) : Node := .mk { kind, start, stop } []
  let pair (start middle stop : Nat) : Node :=
    .mk { kind := "attribute", start, stop }
      [leaf "attribute_name" start middle,
       .mk { kind := "quoted_attribute_value", start := middle + 1, stop }
         [leaf "attribute_value" (middle + 2) (stop - 1)]]
  let opened (start middle stop : Nat) (attributes : List Node) : Node :=
    .mk { kind := "start_tag", start, stop } (leaf "tag_name" (start + 1) middle :: attributes)
  let closed (start stop : Nat) : Node :=
    .mk { kind := "end_tag", start, stop } [leaf "tag_name" (start + 2) (stop - 1)]
  let element (kind : String) (start stop : Nat) (parts : List Node) : Node :=
    .mk { kind, start, stop } parts
  let first := element "element" 6 42 [opened 6 11 42 [pair 12 16 24, pair 25 28 41]]
  let second := element "element" 42 78 [opened 42 47 78 [pair 48 51 64, pair 65 69 77]]
  let script := element "script_element" 91 119
    [opened 91 98 110 [pair 99 102 109], closed 110 119]
  .ok (if text = swappedPage then
      element "document" 0 62
        [element "element" 0 49 [opened 0 5 6 [], first, closed 42 49],
         element "element" 49 62 [opened 49 54 55 [], closed 55 62]]
    else
      element "document" 0 126
        [element "element" 0 85 [opened 0 5 6 [], first, second, closed 78 85],
         element "element" 85 126 [opened 85 90 91 [], script, closed 119 126]])

theorem injectImports_twice_swappedPage :
    let deps := ["a.css", "b.css", "c.js", "d.json"].map String.toList
    (∀ c ∈ swappedPage, (lower [c]).length = 1)
      ∧ headEnd? swappedPage = some 42 ∧ bodyEnd? swappedPage = some 55
      ∧ (∀ dep ∈ deps, '\n' ∉ dep ∧ '<' ∉ dep)
      ∧ (dependencies swappedParser swappedPage).value = ["a.css".toList]
      ∧ (injectImports swappedParser 4 swappedPage deps).value = swappedResult
      ∧ (injectImports swappedParser 4
          (injectImports swappedParser 4 swappedPage deps).value deps).value
        = (injectImports swappedParser 4 swappedPage deps).value := by
  intro deps
  have hall : swappedPage.all (fun c => (lower [c]).length == 1) = true := by decide +kernel
  have hlower : ∀ c ∈ swappedPage, (lower [c]).length = 1 := fun c hc =>
    eq_of_beq (List.all_eq_true.1 hall c hc)
  have hhead : headEnd? swappedPage = some 42 := by decide +kernel
  have hbody : bodyEnd? swappedPage = some 55 := by decide +kernel
  have hdeps : ∀ dep ∈ deps, '\n' ∉ dep ∧ '<' ∉ dep := by decide
  have hresult : (injectImports swappedParser 4 swappedPage deps).value = swappedResult := by
    decide +kernel
  have hfound : (dependencies swappedParser swappedPage).value = ["a.css".toList] := by
    decide +kernel
  refine ⟨hlower, hhead, hbody, hdeps, hfound, hresult,
    injectImports_twice swappedParser 4 hlower ?_ hdeps ?_⟩
  · intro head body h h'
    obtain rfl : 42 = head := Option.some.inj (hhead.symm.trans h)
    obtain rfl : 55 = body := Option.some.inj (hbody.symm.trans h')
    decide
  · rw [hresult, hfound]
    decide +kernel

end SourceLens.Markup
