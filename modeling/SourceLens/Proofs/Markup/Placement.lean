import SourceLens.Proofs.Dependency
import SourceLens.Proofs.Markup.Splicing
import SourceLens.Proofs.Text.LowerCase

/-!
# Placing links and scripts in a document

Links belong before the first end of a head and scripts before the last end of a body (`inPlace`).
Both places are read off the lower-case form of the document, where every dotted capital I in front
of a tag moves it on by one, and the place of the links is not moved on when scripts are put in
before it. The files come to stand in place exactly if the two deviations are absent or make up for
each other (`injectImports_inPlace_iff`).
-/

namespace SourceLens.Markup

/-! ## Where the files belong -/

/-- The place of the first end of a head, its letters in any case. -/
def headEnd? (text : Text) : Option Nat := Text.find? "</head>".toList (text.map Char.toLower)

/-- The place of the last end of a body, its letters in any case. -/
def bodyEnd? (text : Text) : Option Nat := Text.findLast? "</body>".toList (text.map Char.toLower)

theorem find?_head_lower (text : Text) :
    Text.find? "</head>".toList (lower text) = (headEnd? text).map (Text.lowerOffset text) :=
  Text.find?_lower (by simp) (by simp [Text.IsTagChar]) text

theorem findLast?_body_lower (text : Text) :
    Text.findLast? "</body>".toList (lower text) = (bodyEnd? text).map (Text.lowerOffset text) :=
  Text.findLast?_lower (by simp) (by simp [Text.IsTagChar]) text

/-- The dependencies that a document lacks. -/
def lacking (parser : Parser) (text : Text) (deps : List Text) : List Text :=
  Dependency.toInject importLine text deps (dependencies parser text).value

/-- A document with links before the place `head` and scripts before the place `body`, all else
unchanged. -/
def inPlace (width : Nat) (links scripts : List Text) (text : Text) (head body : Nat) : Text :=
  if head < body then
    put width links (text.take head) ++ put width scripts ((text.take body).drop head)
      ++ text.drop body
  else
    put width scripts (text.take body) ++ put width links ((text.take head).drop body)
      ++ text.drop head

/-- How far files move what stands behind them. -/
def growth (width : Nat) (files : List Text) (front : Text) : Nat :=
  (put width files front).length - front.length

variable {width : Nat} {files links scripts : List Text} {text : Text}

theorem inPlace_headFirst {x y z : Text} (htext : text = x ++ y ++ z)
    (hlt : x.length < (x ++ y).length) :
    inPlace width links scripts text x.length (x ++ y).length
      = put width links x ++ put width scripts y ++ z := by
  rw [htext, inPlace, if_pos hlt, List.take_left, List.drop_left, List.drop_left,
    List.append_assoc x y z, List.take_left]

theorem inPlace_bodyFirst {x y z : Text} (htext : text = x ++ y ++ z)
    (hlt : x.length < (x ++ y).length) :
    inPlace width links scripts text (x ++ y).length x.length
      = put width scripts x ++ put width links y ++ z := by
  rw [htext, inPlace, if_neg (Nat.lt_asymm hlt), List.take_left, List.drop_left, List.drop_left,
    List.append_assoc x y z, List.take_left]

/-! ## Where the files come to stand -/

theorem insertFiles_eq {head body : Nat} (hlinks : ∀ file ∈ links, '\n' ∉ file)
    (hscripts : ∀ file ∈ scripts, '\n' ∉ file) (hhead : headEnd? text = some head)
    (hbody : bodyEnd? text = some body) :
    insertFiles width text links scripts
      = splice width links (Text.lowerOffset text head)
          (splice width scripts (Text.lowerOffset text body) text) := by
  have hput {files : List Text} (hnames : ∀ file ∈ files, '\n' ∉ file) (offset : Nat) (text : Text) :
      (if files.isEmpty then text else insertBefore width text offset (generateImports files))
        = splice width files offset text := by
    by_cases hfiles : files = []
    · simp [hfiles]
    · rw [if_neg (by simpa using hfiles), insertBefore_eq hfiles hnames]
  rw [insertFiles]
  simp only [find?_head_lower, findLast?_body_lower, hhead, hbody, Option.map_some]
  rw [hput hscripts, hput hlinks]

theorem injectImports_eq {parser : Parser} {deps : List Text} {head body : Nat}
    (hdeps : ∀ dep ∈ deps, '\n' ∉ dep) (hhead : headEnd? text = some head)
    (hbody : bodyEnd? text = some body) :
    (injectImports parser width text deps).value
      = splice width ((lacking parser text deps).filter isCssFile) (Text.lowerOffset text head)
          (splice width ((lacking parser text deps).filter isScriptFile)
            (Text.lowerOffset text body) text) := by
  have hnames (keep : Text → Bool) : ∀ file ∈ (lacking parser text deps).filter keep, '\n' ∉ file :=
    fun file hfile => hdeps file (Dependency.mem_toInject.1 (List.mem_of_mem_filter hfile)).1
  have hvalue : (injectImports parser width text deps).value
      = let links := (lacking parser text deps).filter isCssFile
        let scripts := (lacking parser text deps).filter isScriptFile
        if links.isEmpty && scripts.isEmpty then text else insertFiles width text links scripts := rfl
  have hlinks := hnames isCssFile
  have hscripts := hnames isScriptFile
  rw [hvalue]
  generalize (lacking parser text deps).filter isCssFile = links at hlinks ⊢
  generalize (lacking parser text deps).filter isScriptFile = scripts at hscripts ⊢
  by_cases hnone : links = [] ∧ scripts = []
  · simp [hnone.1, hnone.2]
  · have hsome : ¬(links.isEmpty && scripts.isEmpty) = true := by simpa using hnone
    exact (if_neg hsome).trans (insertFiles_eq hlinks hscripts hhead hbody)

/-! ## One splice -/

theorem splice_eq_iff (x r : Text) (i : Nat) :
    splice width files (x.length + i) (x ++ '<' :: '/' :: r) = put width files x ++ '<' :: '/' :: r
      ↔ (files ≠ [] → i = 0) := by
  constructor
  · intro h hfiles
    by_contra hi
    obtain ⟨d, t, hsplice, hd⟩ := splice_beyond width files x r (Nat.pos_of_ne_zero hi)
    exact put_ne hfiles x _ t hd (h.symm.trans hsplice)
  · intro hi
    by_cases hfiles : files = []
    · rw [hfiles, splice_nil, put_nil]
    · rw [hi hfiles, Nat.add_zero, splice_length]

/-! ## Two splices -/

theorem splice_headFirst {x r t : Text} (htext : text = x ++ '<' :: '/' :: r ++ '<' :: '/' :: t)
    (i j : Nat) :
    splice width links (x.length + i) (splice width scripts ((x ++ '<' :: '/' :: r).length + j) text)
      = put width links x ++ put width scripts ('<' :: '/' :: r) ++ '<' :: '/' :: t
      ↔ (scripts ≠ [] → j = 0) ∧ (links ≠ [] → i = 0) := by
  have hpos : 1 < ('<' :: '/' :: r).length + j := by
    simp only [List.length_cons]
    omega
  have hbehind : splice width scripts (('<' :: '/' :: r).length + j)
        ('<' :: '/' :: (r ++ '<' :: '/' :: t))
      = put width scripts ('<' :: '/' :: r) ++ '<' :: '/' :: t ↔ (scripts ≠ [] → j = 0) :=
    splice_eq_iff ('<' :: '/' :: r) t j
  have hfirst : splice width scripts ((x ++ '<' :: '/' :: r).length + j) text
      = x ++ splice width scripts (('<' :: '/' :: r).length + j)
        ('<' :: '/' :: (r ++ '<' :: '/' :: t)) := by
    rw [htext, List.length_append, Nat.add_assoc, List.append_assoc]
    exact splice_append (by decide) x _ (Nat.lt_of_succ_lt hpos)
  obtain ⟨w, hw⟩ : ∃ w, splice width scripts (('<' :: '/' :: r).length + j)
      ('<' :: '/' :: (r ++ '<' :: '/' :: t)) = '<' :: '/' :: w := splice_pair '<' (by decide) _ hpos
  -- after the scripts, the tag behind `x` still starts as before
  rw [hfirst, List.append_assoc]
  rw [hw] at hbehind ⊢
  by_cases hlinks : links = []
  · rw [hlinks, splice_nil, put_nil, List.append_cancel_left_eq, hbehind]
    simp
  · by_cases hi : i = 0
    · rw [hi, Nat.add_zero, splice_length, List.append_cancel_left_eq, hbehind]
      simp
    · obtain ⟨d, w, hsplice, hd⟩ := splice_beyond width links x w (Nat.pos_of_ne_zero hi)
      refine iff_of_false ?_ fun h => hi (h.2 hlinks)
      rw [hsplice]
      exact (put_ne hlinks x _ w hd).symm

theorem splice_moved_iff {x r t : Text} {i : Nat}
    (hnew : ∀ link ∈ links,
      IsLink (importLine link) ∧ ¬importLine link <:+: x ++ '<' :: '/' :: r ++ '<' :: '/' :: t)
    (hscripts : ∀ file ∈ scripts, isScriptFile file = true ∧ '<' ∉ file) :
    splice width links ((x ++ '<' :: '/' :: r).length + i)
        (put width scripts x ++ '<' :: '/' :: r ++ '<' :: '/' :: t)
      = put width scripts x ++ put width links ('<' :: '/' :: r) ++ '<' :: '/' :: t
      ↔ (links ≠ [] → i = growth width scripts x) := by
  have hright : put width scripts x ++ put width links ('<' :: '/' :: r) ++ '<' :: '/' :: t
      = splice width links (put width scripts x ++ '<' :: '/' :: r).length
        (put width scripts x ++ '<' :: '/' :: r ++ '<' :: '/' :: t) := by
    rw [splice_length, put_append (by decide)]
  rw [hright]
  cases links with
  | nil =>
    rw [splice_nil, splice_nil]
    exact iff_of_true rfl fun h => absurd rfl h
  | cons link more =>
    obtain ⟨⟨hlink, hfresh⟩, -⟩ := List.forall_mem_cons.1 hnew
    -- the place of a link can be read off only because it is new to the text with the scripts, too
    have hstays : ¬importLine link
        <:+: put width scripts x ++ '<' :: '/' :: r ++ '<' :: '/' :: t := by
      rw [List.append_assoc] at hfresh ⊢
      exact mt (hlink.infix_of_put hscripts) hfresh
    have hgrowth := length_le_length_put width scripts x
    have hplace : (x ++ '<' :: '/' :: r).length + i = (put width scripts x ++ '<' :: '/' :: r).length
        ↔ i = growth width scripts x := by
      rw [growth, List.length_append, List.length_append]
      omega
    rw [← hplace]
    constructor
    · intro h _
      refine (splice_inj hlink hstays ?_ h.symm).symm
      simp
    · intro h
      rw [h (List.cons_ne_nil link more)]

theorem splice_bodyFirst {x r t : Text} (htext : text = x ++ '<' :: '/' :: r ++ '<' :: '/' :: t)
    (hnew : ∀ link ∈ links, IsLink (importLine link) ∧ ¬importLine link <:+: text)
    (hscripts : ∀ file ∈ scripts, isScriptFile file = true ∧ '<' ∉ file) (i j : Nat) :
    splice width links ((x ++ '<' :: '/' :: r).length + i) (splice width scripts (x.length + j) text)
      = put width scripts x ++ put width links ('<' :: '/' :: r) ++ '<' :: '/' :: t
      ↔ (scripts ≠ [] → j = 0) ∧ (links ≠ [] → i = growth width scripts x) := by
  by_cases hj : scripts ≠ [] → j = 0
  · have hfirst : splice width scripts (x.length + j) text
        = put width scripts x ++ '<' :: '/' :: r ++ '<' :: '/' :: t := by
      rw [htext, List.append_assoc, List.append_assoc]
      exact (splice_eq_iff x (r ++ '<' :: '/' :: t) j).2 hj
    rw [hfirst, splice_moved_iff (htext ▸ hnew) hscripts]
    exact (and_iff_right hj).symm
  · -- the sign of the first tag stands where the scripts belong, whatever is put in behind it
    obtain ⟨hne, hpos⟩ := Classical.not_imp.1 hj
    have hlong : 1 < ('<' :: '/' :: r).length + i := by
      simp only [List.length_cons]
      omega
    obtain ⟨d, w, hsplice, hd⟩ :=
      splice_beyond width scripts x (r ++ '<' :: '/' :: t) (Nat.pos_of_ne_zero hpos)
    have hblank : isBlank d = false := by rcases hd with rfl | rfl <;> decide
    obtain ⟨v, hv⟩ : ∃ v, splice width links (('<' :: '/' :: r).length + i) ('<' :: d :: w)
        = '<' :: d :: v := splice_pair '<' hblank w hlong
    refine iff_of_false ?_ fun h => hj h.1
    rw [htext, List.append_assoc, List.cons_append, List.cons_append, hsplice, List.length_append,
      Nat.add_assoc, splice_append (by decide) x _ (Nat.lt_of_succ_lt hlong), hv, List.append_assoc]
    exact (put_ne hne x _ v hd).symm

/-! ## Closing tags -/

theorem exists_closing {tag : Text} (htag : ['<', '/'] <+: tag) {i : Nat}
    (h : i ∈ Text.places tag (text.map Char.toLower)) :
    ∃ x r, text = x ++ '<' :: '/' :: r ∧ x.length = i := by
  obtain ⟨hle, hstands⟩ := Text.mem_places.1 h
  rw [List.length_map] at hle
  obtain ⟨w, hw⟩ := htag.trans hstands
  rw [← List.map_drop] at hw
  have hback := List.take_append_drop i text
  match hdrop : text.drop i, hw with
  | [c], hw => simp at hw
  | c :: d :: r, hw =>
    obtain ⟨hc, hd, -⟩ : '<' = c.toLower ∧ '/' = d.toLower ∧ w = r.map Char.toLower := by
      simpa using hw
    rw [Text.eq_of_toLower_eq hc.symm (by decide), Text.eq_of_toLower_eq hd.symm (by decide)] at hdrop
    exact ⟨text.take i, r, by rw [← hdrop, hback], List.length_take_of_le hle⟩

theorem exists_between {x x' r t : Text} (h : x ++ '<' :: '/' :: r = x' ++ '<' :: '/' :: t)
    (hlt : x.length < x'.length) : ∃ y, x' = x ++ '<' :: '/' :: y := by
  obtain ⟨y, rfl⟩ : x <+: x' :=
    List.prefix_of_prefix_length_le ⟨_, h⟩ (List.prefix_append ..) (Nat.le_of_lt hlt)
  rw [List.append_assoc, List.append_cancel_left_eq] at h
  match y with
  | [] => simp at hlt
  | [c] => simp at h
  | c :: d :: y =>
    obtain ⟨hc, hd, -⟩ : '<' = c ∧ '/' = d ∧ r = y ++ '<' :: '/' :: t := by simpa using h
    exact ⟨y, by rw [hc, hd]⟩

theorem headEnd?_mem_places {i : Nat} (h : headEnd? text = some i) :
    i ∈ Text.places "</head>".toList (text.map Char.toLower) := by
  rw [headEnd?, Text.find?_eq_head?] at h
  exact List.mem_of_head? h

theorem bodyEnd?_mem_places {i : Nat} (h : bodyEnd? text = some i) :
    i ∈ Text.places "</body>".toList (text.map Char.toLower) := by
  rw [bodyEnd?, Text.findLast?_eq_getLast?] at h
  exact List.mem_of_getLast? h

theorem head_ne_body {i : Nat} (hhead : i ∈ Text.places "</head>".toList (text.map Char.toLower)) :
    i ∉ Text.places "</body>".toList (text.map Char.toLower) := by
  intro hbody
  have h := List.prefix_of_prefix_length_le (Text.mem_places.1 hhead).2 (Text.mem_places.1 hbody).2
    (by decide)
  exact absurd h (by decide)

/-! ## Documents -/

/-- New files come to stand in place exactly if no dotted capital I stands before a place that is
used. Where scripts are put in before the end of the head, that place has to be moved on by as many of
these letters as the scripts take characters. -/
theorem injectImports_inPlace_iff (parser : Parser) (width : Nat) {deps : List Text} {head body : Nat}
    (hdeps : ∀ dep ∈ deps, '\n' ∉ dep ∧ '<' ∉ dep) (hhead : headEnd? text = some head)
    (hbody : bodyEnd? text = some body) :
    let links := (lacking parser text deps).filter isCssFile
    let scripts := (lacking parser text deps).filter isScriptFile
    (injectImports parser width text deps).value = inPlace width links scripts text head body
      ↔ (scripts ≠ [] → (text.take body).count dottedCapitalI = 0)
        ∧ (links ≠ [] → (text.take head).count dottedCapitalI
          = if head < body then 0 else growth width scripts (text.take body)) := by
  intro links scripts
  have hlinks : ∀ link ∈ links, IsLink (importLine link) ∧ ¬importLine link <:+: text := by
    intro link hlink
    obtain ⟨hmem, hcss⟩ := List.mem_filter.1 hlink
    obtain ⟨hdep, -, hfresh⟩ := Dependency.mem_toInject.1 hmem
    exact ⟨isLink_importLine hcss (hdeps link hdep).2 (hdeps link hdep).1, hfresh⟩
  have hscripts : ∀ file ∈ scripts, isScriptFile file = true ∧ '<' ∉ file := by
    intro file hfile
    obtain ⟨hmem, hscript⟩ := List.mem_filter.1 hfile
    exact ⟨hscript, (hdeps file (Dependency.mem_toInject.1 hmem).1).2⟩
  rw [injectImports_eq (fun dep hdep => (hdeps dep hdep).1) hhead hbody, Text.lowerOffset,
    Text.lowerOffset]
  obtain ⟨x, r, htext, rfl⟩ := exists_closing (by decide) (headEnd?_mem_places hhead)
  obtain ⟨y, t, htext', rfl⟩ := exists_closing (by decide) (bodyEnd?_mem_places hbody)
  rcases Nat.lt_trichotomy x.length y.length with hlt | heq | hlt
  · obtain ⟨w, rfl⟩ := exists_between (htext.symm.trans htext') hlt
    rw [inPlace_headFirst htext' hlt, if_pos hlt]
    exact splice_headFirst htext' _ _
  · exact absurd (heq ▸ bodyEnd?_mem_places hbody) (head_ne_body (headEnd?_mem_places hhead))
  · obtain ⟨w, rfl⟩ := exists_between (htext'.symm.trans htext) hlt
    have hfront : text.take y.length = y := by rw [htext', List.take_left]
    rw [inPlace_bodyFirst htext hlt, if_neg (Nat.lt_asymm hlt), hfront]
    exact splice_bodyFirst htext hlinks hscripts _ _

/-- A document that links one style sheet. -/
def linkedPage : Text :=
  "<head>\n<link rel=\"stylesheet\" href=\"old.css\">\n</head>\n<body>\n</body>\n".toList

/-- A tree of that document with the link in it. -/
def linkedTree : Node :=
  let leaf (kind : String) (start stop : Nat) : Node := .mk { kind, start, stop } []
  let pair (start middle stop : Nat) : Node :=
    .mk { kind := "attribute", start, stop }
      [leaf "attribute_name" start middle,
       .mk { kind := "quoted_attribute_value", start := middle + 1, stop }
         [leaf "attribute_value" (middle + 2) (stop - 1)]]
  .mk { kind := "document", start := 0, stop := 70 }
    [.mk { kind := "element", start := 7, stop := 45 }
      [.mk { kind := "start_tag", start := 7, stop := 45 }
        [leaf "tag_name" 8 12, pair 13 16 29, pair 30 34 44]]]

theorem injectImports_inPlace_linkedPage :
    let deps := ["old.css", "theme.css", "extra.js", "data.json"].map String.toList
    (∀ dep ∈ deps, '\n' ∉ dep ∧ '<' ∉ dep)
      ∧ headEnd? linkedPage = some 46 ∧ bodyEnd? linkedPage = some 61
      ∧ (injectImports (fun _ _ => .ok linkedTree) 2 linkedPage deps).value
        = "<head>\n<link rel=\"stylesheet\" href=\"old.css\">\n".toList
          ++ "  <link rel=\"stylesheet\" href=\"theme.css\">\n</head>\n<body>\n".toList
          ++ "  <script src=\"extra.js\"></script>\n</body>\n".toList := by
  intro deps
  have hdeps : ∀ dep ∈ deps, '\n' ∉ dep ∧ '<' ∉ dep := by decide
  have hhead : headEnd? linkedPage = some 46 := by decide +kernel
  have hbody : bodyEnd? linkedPage = some 61 := by decide +kernel
  have hnew : lacking (fun _ _ => .ok linkedTree) linkedPage deps
      = ["theme.css", "extra.js", "data.json"].map String.toList := by decide +kernel
  have hiff := injectImports_inPlace_iff (fun _ _ => .ok linkedTree) 2 hdeps hhead hbody
  simp only [hnew] at hiff
  exact ⟨hdeps, hhead, hbody, (hiff.2 (by decide +kernel)).trans (by decide +kernel)⟩

/-- A link splits the end of the head behind a dotted capital I, and a script put in before it. -/
theorem injectImports_splits_tags :
    let parser : Parser := fun _ text =>
      .ok (.mk { kind := "document", start := 0, stop := (Utf8.encode text).length } [])
    let dotted := "<head>\u0130</head><body></body>".toList
    let turned := "<body></body><head></head>".toList
    let link := ["a.css".toList]
    let script := ["b.js".toList]
    let dottedResult :=
      "<head>\u0130<<link rel=\"stylesheet\" href=\"a.css\">/head><body></body>".toList
    let turnedResult :=
      "<body><script src=\"<link rel=\"stylesheet\" href=\"a.css\">b.js\"></script>".toList
        ++ "</body><head></head>".toList
    ((injectImports parser 4 dotted link).value = dottedResult
      ∧ headEnd? dotted = some 7 ∧ bodyEnd? dotted = some 20
      ∧ dottedResult ≠ inPlace 4 link [] dotted 7 20)
    ∧ ((injectImports parser 4 turned (link ++ script)).value = turnedResult
      ∧ headEnd? turned = some 19 ∧ bodyEnd? turned = some 6
      ∧ turnedResult ≠ inPlace 4 link script turned 19 6) := by
  decide +kernel

end SourceLens.Markup
