import Mathlib.Algebra.GroupWithZero.Nat
import Mathlib.Data.List.DropRight
import Mathlib.Data.List.Infix
import SourceLens.Markup.Edit
import SourceLens.Proofs.Text.Blanks
import SourceLens.Proofs.Text.Lines

/-!
# Putting files before a place

Files are put into a text at an offset. What they look like depends on the text in front of it alone
(`insertBefore_eq`): they stand in its last line, or on lines of their own above it if that line is
blank so far. A place in front of a closing tag can be told from every later one (`splice_beyond`,
`put_ne`), and a link that the text does not have shows the place where it was put
(`splice_inj`).
-/

namespace SourceLens.Markup

/-! ## The last line -/

def lastLine (front : Text) : Text := front.rtakeWhile (· ≠ '\n')

/-- What stands above the last line of a text, its line feed included. -/
def aboveLast (front : Text) : Text := front.rdropWhile (· ≠ '\n')

theorem aboveLast_append_lastLine (front : Text) : aboveLast front ++ lastLine front = front :=
  List.rdropWhile_append_rtakeWhile ..

theorem lastLine_of_not_mem {front : Text} (h : '\n' ∉ front) :
    lastLine front = front ∧ aboveLast front = [] := by
  have hall : ∀ c ∈ front, decide (c ≠ '\n') = true :=
    fun c hc => decide_eq_true fun heq => h (heq ▸ hc)
  exact ⟨List.rtakeWhile_eq_self_iff.2 hall, List.rdropWhile_eq_nil_iff.2 hall⟩

theorem lastLine_newline (u : Text) {lead : Text} (h : '\n' ∉ lead) :
    lastLine (u ++ '\n' :: lead) = lead ∧ aboveLast (u ++ '\n' :: lead) = u ++ ['\n'] := by
  induction lead using List.reverseRecOn with
  | nil =>
    exact ⟨List.rtakeWhile_concat_neg _ _ _ (by simp), List.rdropWhile_concat_neg _ _ _ (by simp)⟩
  | append_singleton lead c ih =>
    rw [List.mem_append, not_or, List.mem_singleton] at h
    obtain ⟨hline, habove⟩ := ih h.1
    rw [← List.cons_append, ← List.append_assoc]
    constructor
    · rw [lastLine, List.rtakeWhile_concat_pos _ _ _ (by simpa using Ne.symm h.2), ← lastLine,
        hline]
    · rw [aboveLast, List.rdropWhile_concat_pos _ _ _ (by simpa using Ne.symm h.2), ← aboveLast,
        habove]

theorem not_mem_or_exists_lastLine (front : Text) :
    '\n' ∉ front ∨ ∃ u lead, front = u ++ '\n' :: lead ∧ '\n' ∉ lead := by
  induction front using List.reverseRecOn with
  | nil => exact .inl List.not_mem_nil
  | append_singleton front c ih =>
    by_cases hc : c = '\n'
    · exact .inr ⟨front, [], by rw [hc], List.not_mem_nil⟩
    · rcases ih with hnone | ⟨u, lead, rfl, hlead⟩
      · exact .inl (by simp [hnone, Ne.symm hc])
      · exact .inr ⟨u, lead ++ [c], by simp, by simp [hlead, Ne.symm hc]⟩

theorem findLast?_newline_concat (front : Text) (c : Char) :
    Text.findLast? ['\n'] (front ++ [c])
      = if c = '\n' then some front.length else Text.findLast? ['\n'] front := by
  induction front with
  | nil =>
    by_cases hc : c = '\n'
    · simp [Text.findLast?, hc]
    · simp [Text.findLast?, hc, Ne.symm hc]
  | cons d front ih =>
    rw [List.cons_append, Text.findLast?, ih]
    by_cases hc : c = '\n'
    · simp [hc]
    · simp only [if_neg hc, Text.findLast?]
      cases Text.findLast? ['\n'] front <;> simp

theorem lineStartAt_eq (text : Text) (offset : Nat) :
    lineStartAt text offset = (aboveLast (text.take offset)).length := by
  rw [lineStartAt]
  generalize text.take offset = front
  induction front using List.reverseRecOn with
  | nil => rfl
  | append_singleton front c ih =>
    rw [findLast?_newline_concat]
    by_cases hc : c = '\n'
    · rw [if_pos hc, hc, (lastLine_newline front List.not_mem_nil).2]
      simp
    · rw [if_neg hc, ih, aboveLast, aboveLast, List.rdropWhile_concat_pos _ _ _ (by simpa using hc)]

theorem cut_at (text : Text) (offset : Nat) :
    text.take (aboveLast (text.take offset)).length = aboveLast (text.take offset)
      ∧ (text.drop (aboveLast (text.take offset)).length).take
          (offset - (aboveLast (text.take offset)).length) = lastLine (text.take offset)
      ∧ text.drop (aboveLast (text.take offset)).length
          = lastLine (text.take offset) ++ text.drop offset := by
  have hcut := aboveLast_append_lastLine (text.take offset)
  have htext : text = aboveLast (text.take offset)
      ++ (lastLine (text.take offset) ++ text.drop offset) := by
    rw [← List.append_assoc, hcut, List.take_append_drop]
  rw [← List.drop_take]
  generalize aboveLast (text.take offset) = above at hcut htext ⊢
  generalize lastLine (text.take offset) = lead at hcut htext ⊢
  refine ⟨?_, ?_, ?_⟩
  · conv_lhs => rw [htext]
    exact List.take_left ..
  · rw [← hcut, List.drop_left]
  · conv_lhs => rw [htext]
    exact List.drop_left ..

/-! ## Files behind a text -/

/-- Lines of files above a line that starts with `lead`. -/
def fileLines (width : Nat) (lead : Text) (files : List Text) : Text :=
  files.flatMap fun file => lead ++ Text.spaces width ++ importLine file ++ ['\n']

/-- A text with files put behind it: in its last line if something stands there, else on lines of
their own directly above, one step deeper. -/
def put (width : Nat) (files : List Text) (front : Text) : Text :=
  if files = [] then front
  else if Text.allBlank (lastLine front) then
    aboveLast front ++ fileLines width (lastLine front) files ++ lastLine front
  else front ++ generateImports files

def splice (width : Nat) (files : List Text) (offset : Nat) (text : Text) : Text :=
  put width files (text.take offset) ++ text.drop offset

variable {width : Nat} {files : List Text}

@[simp] theorem put_nil (front : Text) : put width [] front = front := rfl

@[simp] theorem splice_nil (offset : Nat) (text : Text) : splice width [] offset text = text :=
  List.take_append_drop ..

theorem splice_length (x y : Text) :
    splice width files x.length (x ++ y) = put width files x ++ y := by
  rw [splice, List.take_left, List.drop_left]

theorem put_of_not_blank (hfiles : files ≠ []) {front : Text}
    (h : Text.allBlank (lastLine front) = false) :
    put width files front = front ++ generateImports files := by
  rw [put, if_neg hfiles, if_neg (by simp [h])]

theorem put_of_blank (hfiles : files ≠ []) {front : Text}
    (h : Text.allBlank (lastLine front) = true) :
    put width files front
      = aboveLast front ++ fileLines width (lastLine front) files ++ lastLine front := by
  rw [put, if_neg hfiles, if_pos h]

theorem newline_not_mem_importLine {file : Text} (h : '\n' ∉ file) : '\n' ∉ importLine file := by
  rw [importLine]
  split_ifs <;> simp [h]

theorem insertBefore_eq (hfiles : files ≠ []) (hnames : ∀ file ∈ files, '\n' ∉ file)
    (text : Text) (offset : Nat) :
    insertBefore width text offset (generateImports files) = splice width files offset text := by
  have hlines : Text.lines (generateImports files) = files.map importLine := by
    refine Text.lines_unlines (mt List.map_eq_nil_iff.1 hfiles) fun line hline => ?_
    obtain ⟨file, hfile, rfl⟩ := List.mem_map.1 hline
    exact newline_not_mem_importLine (hnames file hfile)
  obtain ⟨habove, hlead, hrest⟩ := cut_at text offset
  rw [insertBefore, splice]
  simp only [lineStartAt_eq, habove, hlead, hlines, List.flatMap_map]
  split_ifs with hblank
  · rw [put_of_blank hfiles hblank, hrest, fileLines]
    simp only [List.append_assoc]
  · rw [put_of_not_blank hfiles (Bool.eq_false_iff.2 hblank)]

/-! ## What stands in front stays -/

theorem lastLine_not_blank {c : Char} (hc : isBlank c = false) (x : Text) {w : Text} (hw : '\n' ∉ w) :
    Text.allBlank (lastLine (x ++ c :: w)) = false := by
  have hend : '\n' ∉ c :: w := by
    rw [List.mem_cons, not_or]
    exact ⟨Text.ne_of_isBlank (by decide) hc, hw⟩
  have hmem : c ∈ lastLine (x ++ c :: w) := by
    rcases not_mem_or_exists_lastLine x with hx | ⟨u, lead, rfl, hlead⟩
    · have hall : '\n' ∉ x ++ c :: w := by
        rw [List.mem_append, not_or]
        exact ⟨hx, hend⟩
      rw [(lastLine_of_not_mem hall).1]
      simp
    · have hall : '\n' ∉ lead ++ c :: w := by
        rw [List.mem_append, not_or]
        exact ⟨hlead, hend⟩
      rw [List.append_assoc, List.cons_append, (lastLine_newline u hall).1]
      simp
  rw [← Bool.not_eq_true, Text.allBlank_iff]
  intro hall
  simp [hall c hmem] at hc

theorem put_append {c : Char} (hc : isBlank c = false) (x w : Text) :
    put width files (x ++ c :: w) = x ++ put width files (c :: w) := by
  by_cases hfiles : files = []
  · rw [hfiles, put_nil, put_nil]
  · -- the last line starts behind `c`, or holds it and is not blank
    rcases not_mem_or_exists_lastLine w with hw | ⟨u, lead, rfl, hlead⟩
    · have hshort : Text.allBlank (lastLine (c :: w)) = false := lastLine_not_blank hc [] hw
      rw [put_of_not_blank hfiles (lastLine_not_blank hc x hw), put_of_not_blank hfiles hshort,
        List.append_assoc]
    · have hlong := lastLine_newline (x ++ c :: u) hlead
      have hshort := lastLine_newline (c :: u) hlead
      simp only [List.append_assoc, List.cons_append] at hlong hshort
      rw [put, put, if_neg hfiles, if_neg hfiles, hlong.1, hlong.2, hshort.1, hshort.2]
      split_ifs <;> simp

theorem put_cons {c : Char} (hc : isBlank c = false) (w : Text) :
    ∃ t, put width files (c :: w) = c :: t := by
  by_cases hfiles : files = []
  · exact ⟨w, by rw [hfiles, put_nil]⟩
  · rcases not_mem_or_exists_lastLine w with hw | ⟨u, lead, rfl, hlead⟩
    · exact ⟨_, put_of_not_blank hfiles (lastLine_not_blank hc [] hw)⟩
    · have hcut := lastLine_newline (c :: u) hlead
      rw [List.cons_append] at hcut
      rw [put, if_neg hfiles, hcut.1, hcut.2]
      split_ifs <;> exact ⟨_, rfl⟩

theorem put_concat (hfiles : files ≠ []) {c : Char} (hc : isBlank c = false) (x : Text) :
    put width files (x ++ [c]) = x ++ c :: generateImports files := by
  rw [put_of_not_blank hfiles (lastLine_not_blank hc x List.not_mem_nil), List.append_assoc]
  rfl

theorem splice_append {c : Char} (hc : isBlank c = false) (x w : Text) {i : Nat} (hi : 0 < i) :
    splice width files (x.length + i) (x ++ c :: w) = x ++ splice width files i (c :: w) := by
  obtain ⟨i, rfl⟩ := Nat.exists_eq_succ_of_ne_zero (Nat.ne_of_gt hi)
  rw [splice, splice, List.take_length_add_append, List.drop_length_add_append, List.take_succ_cons,
    put_append hc, List.append_assoc]

/-! ## The first file -/

theorem importLine_front (file : Text) :
    ∃ c t, importLine file = '<' :: c :: t ∧ c ≠ '/' ∧ c ≠ '<' := by
  rw [importLine]
  split_ifs
  · exact ⟨'l', _, rfl, by decide, by decide⟩
  · exact ⟨'s', _, rfl, by decide, by decide⟩
  · exact ⟨'!', _, rfl, by decide, by decide⟩

theorem generateImports_cons (file : Text) (more : List Text) :
    ∃ rest, generateImports (file :: more) = importLine file ++ rest := by
  obtain ⟨rest, hrest⟩ := Text.unlines_prefix [importLine file] (more.map importLine)
  refine ⟨rest, hrest.symm.trans ?_⟩
  simp [Text.unlines, Text.join]

/-- The room that files take on lines of their own, less the blanks in front of them. -/
def bulk (files : List Text) : Nat := (files.map fun file => (importLine file).length + 1).sum

theorem length_generateImports (hfiles : files ≠ []) :
    (generateImports files).length + 1 = bulk files := by
  induction files with
  | nil => exact absurd rfl hfiles
  | cons file more ih =>
    rw [generateImports, bulk, List.map_cons, List.map_cons, List.sum_cons, ← bulk]
    cases more with
    | nil => simp [Text.unlines, Text.join, bulk]
    | cons next more =>
      rw [Text.unlines_cons _ (by simp), ← generateImports, ← ih (by simp)]
      simp
      omega

theorem bulk_le_length_fileLines (lead : Text) :
    bulk files ≤ (fileLines width lead files).length := by
  induction files with
  | nil => exact Nat.zero_le _
  | cons file more ih =>
    rw [bulk, List.map_cons, List.sum_cons, ← bulk, fileLines, List.flatMap_cons, ← fileLines]
    simp only [List.length_append, List.length_singleton]
    omega

/-- The first file stands behind the text, after some spaces; how many there are is seen from the
length of the whole. -/
theorem put_front (width : Nat) (file : Text) (more : List Text) (front : Text) :
    ∃ n rest, put width (file :: more) front
        = front ++ (Text.spaces n ++ (importLine file ++ rest))
      ∧ (n = 0 ∧ (put width (file :: more) front).length + 1 = front.length + bulk (file :: more)
        ∨ n = width
          ∧ front.length + bulk (file :: more) ≤ (put width (file :: more) front).length) := by
  have hne : file :: more ≠ [] := List.cons_ne_nil file more
  have hfront := aboveLast_append_lastLine front
  by_cases hblank : Text.allBlank (lastLine front) = true
  · have hput : put width (file :: more) front = aboveLast front
        ++ fileLines width (lastLine front) (file :: more) ++ lastLine front :=
      put_of_blank hne hblank
    refine ⟨width, '\n' :: (fileLines width (lastLine front) more ++ lastLine front), ?_,
      .inr ⟨rfl, ?_⟩⟩
    · rw [hput, fileLines, List.flatMap_cons, ← fileLines]
      generalize lastLine front = lead at hfront ⊢
      generalize aboveLast front = above at hfront ⊢
      rw [← hfront]
      simp
    · have hbulk : bulk (file :: more) ≤ (fileLines width (lastLine front) (file :: more)).length :=
        bulk_le_length_fileLines _
      have hlength := congrArg List.length hfront
      rw [hput]
      simp only [List.length_append] at hlength ⊢
      omega
  · obtain ⟨rest, hrest⟩ := generateImports_cons file more
    have hput : put width (file :: more) front = front ++ generateImports (file :: more) :=
      put_of_not_blank hne (Bool.eq_false_iff.2 hblank)
    refine ⟨0, rest, by rw [hput, hrest]; rfl, .inl ⟨rfl, ?_⟩⟩
    rw [hput, List.length_append, Nat.add_assoc, length_generateImports hne]

theorem length_le_length_put (width : Nat) (files : List Text) (front : Text) :
    front.length ≤ (put width files front).length := by
  cases files with
  | nil => exact Nat.le_refl _
  | cons file more =>
    obtain ⟨n, rest, hput, -⟩ := put_front width file more front
    rw [hput, List.length_append]
    exact Nat.le_add_right ..

/-! ## Places before a closing tag -/

theorem splice_pair (c : Char) {d : Char} (hd : isBlank d = false) (r : Text) {i : Nat} (hi : 1 < i) :
    ∃ t, splice width files i (c :: d :: r) = c :: d :: t := by
  obtain ⟨i, rfl⟩ := Nat.exists_eq_add_of_le' hi
  obtain ⟨t, ht⟩ : ∃ t, put width files (d :: r.take i) = d :: t := put_cons hd _
  have hput : put width files (c :: d :: r.take i) = [c] ++ put width files (d :: r.take i) :=
    put_append hd [c] (r.take i)
  refine ⟨t ++ r.drop i, ?_⟩
  rw [splice, List.take_succ_cons, List.take_succ_cons, hput, ht]
  simp

/-- Files put beyond the start of a closing tag leave its sign in place. -/
theorem splice_beyond (width : Nat) (files : List Text) (x r : Text) {i : Nat} (hi : 0 < i) :
    ∃ d t, splice width files (x.length + i) (x ++ '<' :: '/' :: r) = x ++ '<' :: d :: t
      ∧ (d = '/' ∨ d = '<') := by
  rw [splice_append (by decide) x _ hi]
  by_cases hone : i = 1
  · -- right behind the sign, the sign of the first file comes next
    rw [hone]
    cases files with
    | nil => exact ⟨'/', r, by rw [splice_nil], .inl rfl⟩
    | cons file more =>
      obtain ⟨rest, hrest⟩ := generateImports_cons file more
      obtain ⟨c, t, hline, -, -⟩ := importLine_front file
      have hput : put width (file :: more) ['<'] = '<' :: generateImports (file :: more) :=
        put_concat (List.cons_ne_nil file more) (by decide) []
      refine ⟨'<', c :: (t ++ rest ++ '/' :: r), ?_, .inr rfl⟩
      rw [splice, List.take_succ_cons, List.take_zero, hput, hrest, hline]
      simp
  · obtain ⟨t, ht⟩ : ∃ t, splice width files i ('<' :: '/' :: r) = '<' :: '/' :: t :=
      splice_pair '<' (by decide) r (by omega)
    exact ⟨'/', t, by rw [ht], .inl rfl⟩

/-- Files put in front of a closing tag stand between the text and its sign. -/
theorem put_ne (hfiles : files ≠ []) (x rest t : Text) {d : Char} (hd : d = '/' ∨ d = '<') :
    put width files x ++ rest ≠ x ++ '<' :: d :: t := by
  obtain ⟨file, more, rfl⟩ := List.exists_cons_of_ne_nil hfiles
  obtain ⟨n, back, hput, -⟩ := put_front width file more x
  obtain ⟨c, line, hline, hslash, hsign⟩ := importLine_front file
  rw [hput, hline, List.append_assoc]
  intro heq
  have htail := List.append_cancel_left heq
  cases n with
  | zero =>
    have hc : c = d := (List.cons.inj (List.cons.inj htail).2).1
    rcases hd with rfl | rfl
    · exact hslash hc
    · exact hsign hc
  | succ n => exact absurd (List.cons.inj htail).1 (by decide)

/-! ## The place of a link -/

theorem importLine_script {file : Text} (h : isScriptFile file = true) :
    importLine file = "<script src=\"".toList ++ file ++ "\"></script>".toList := by
  have hcss : ¬isCssFile file = true := by
    intro hcss
    have hends := List.suffix_of_suffix_length_le (List.isSuffixOf_iff_suffix.1 h)
      (List.isSuffixOf_iff_suffix.1 hcss) (by decide)
    exact absurd hends (by decide)
  rw [importLine, if_neg hcss, if_pos h]

/-- The markup of a link. -/
structure IsLink (m : Text) : Prop where
  front : ∃ rest, m = '<' :: 'l' :: rest
  sign : '<' ∉ m.tail
  newline : '\n' ∉ m.tail
  last : m.getLast? = some '>'

theorem isLink_importLine {file : Text} (hcss : isCssFile file = true) (hsign : '<' ∉ file)
    (hnewline : '\n' ∉ file) : IsLink (importLine file) := by
  have hline : importLine file = "<link rel=\"stylesheet\" href=\"".toList ++ file ++ "\">".toList :=
    if_pos hcss
  rw [hline]
  refine ⟨⟨_, rfl⟩, ?_, ?_, ?_⟩
  · simp [hsign]
  · simp [hnewline]
  · rw [List.getLast?_append_of_ne_nil _ (by simp)]
    rfl

namespace IsLink

variable {m : Text}

theorem infix_of_lt {a b r t : Text} (hm : IsLink m) (h : a ++ (m ++ r) = b ++ (m ++ t))
    (hlt : a.length < b.length) : m <:+: b := by
  obtain ⟨rest, hfront⟩ := hm.front
  obtain ⟨s, rfl⟩ : a <+: b := by
    refine List.prefix_of_prefix_length_le ⟨_, h⟩ (List.prefix_append ..) (Nat.le_of_lt hlt)
  have hs : s ≠ [] := by
    rintro rfl
    simp at hlt
  rw [List.append_assoc, List.append_cancel_left_eq] at h
  -- an overlap would put the sign of the later one inside the earlier one
  have hstart : m <+: s ++ '<' :: ('l' :: rest ++ t) := by
    refine ⟨r, h.trans ?_⟩
    rw [hfront]
    rfl
  have hinner : m <:+: s := (Text.prefix_of_not_mem_tail hm.sign hs hstart).isInfix
  exact hinner.trans (List.suffix_append a s).isInfix

theorem infix_of_spaces {x : Text} {n : Nat} (hm : IsLink m) (h : m <:+: x ++ Text.spaces n) :
    m <:+: x := by
  induction n with
  | zero => simpa [Text.spaces] using h
  | succ n ih =>
    rw [Text.spaces, List.replicate_succ', ← List.append_assoc, ← Text.spaces,
      List.infix_concat_iff] at h
    rcases h with hend | hbefore
    · obtain ⟨k, hk⟩ := hend
      have hlast := congrArg List.getLast? hk
      rw [List.getLast?_concat, List.getLast?_append, hm.last, Option.some_or] at hlast
      exact absurd hlast (by decide)
    · exact ih hbefore

/-! No link starts in what is put in for scripts. -/

theorem skip {c : Char} {v : Text} (hm : IsLink m) (hc : c ≠ '<') (h : m <:+: c :: v) : m <:+: v := by
  obtain ⟨rest, rfl⟩ := hm.front
  rcases List.infix_cons_iff.1 h with hstart | hlater
  · exact absurd (List.cons_prefix_cons.1 hstart).1.symm hc
  · exact hlater

theorem skip_sign {c : Char} {v : Text} (hm : IsLink m) (hc : c ≠ 'l') (h : m <:+: '<' :: c :: v) :
    m <:+: c :: v := by
  obtain ⟨rest, rfl⟩ := hm.front
  rcases List.infix_cons_iff.1 h with hstart | hlater
  · obtain ⟨-, hnext⟩ := List.cons_prefix_cons.1 hstart
    exact absurd (List.cons_prefix_cons.1 hnext).1.symm hc
  · exact hlater

theorem skip_append {u v : Text} (hm : IsLink m) (hu : '<' ∉ u) (h : m <:+: u ++ v) : m <:+: v := by
  induction u with
  | nil => exact h
  | cons c u ih =>
    rw [List.mem_cons, not_or] at hu
    exact ih hu.2 (hm.skip (Ne.symm hu.1) h)

theorem skip_script {file v : Text} (hm : IsLink m) (hscript : isScriptFile file = true)
    (hsign : '<' ∉ file) (h : m <:+: importLine file ++ v) : m <:+: v := by
  have hline : importLine file ++ v
      = '<' :: 's' :: ("cript src=\"".toList ++ file ++ "\">".toList
        ++ '<' :: '/' :: ("script>".toList ++ v)) := by
    rw [importLine_script hscript]
    simp
  rw [hline] at h
  have hfile := hm.skip_append (by simp [hsign]) (hm.skip (by decide) (hm.skip_sign (by decide) h))
  exact hm.skip_append (by decide) (hm.skip (by decide) (hm.skip_sign (by decide) hfile))

theorem skip_generateImports {v : Text} (hm : IsLink m)
    (hscripts : ∀ file ∈ files, isScriptFile file = true ∧ '<' ∉ file)
    (h : m <:+: generateImports files ++ v) : m <:+: v := by
  induction files with
  | nil => exact h
  | cons file more ih =>
    obtain ⟨⟨hscript, hsign⟩, hmore⟩ := List.forall_mem_cons.1 hscripts
    rw [generateImports, List.map_cons] at h
    cases more with
    | nil => exact hm.skip_script hscript hsign (by simpa [Text.unlines, Text.join] using h)
    | cons next more =>
      rw [Text.unlines_cons _ (by simp), List.append_assoc] at h
      exact ih hmore (hm.skip (by decide) (hm.skip_script hscript hsign h))

theorem skip_fileLines {lead v : Text} (hm : IsLink m) (hlead : '<' ∉ lead)
    (hscripts : ∀ file ∈ files, isScriptFile file = true ∧ '<' ∉ file)
    (h : m <:+: fileLines width lead files ++ v) : m <:+: v := by
  induction files with
  | nil => exact h
  | cons file more ih =>
    obtain ⟨⟨hscript, hsign⟩, hmore⟩ := List.forall_mem_cons.1 hscripts
    rw [fileLines, List.flatMap_cons, ← fileLines, List.append_assoc, List.append_assoc,
      List.append_assoc] at h
    have hpad : '<' ∉ lead ++ Text.spaces width := by simp [Text.spaces, hlead]
    exact ih hmore (hm.skip (by decide) (hm.skip_script hscript hsign (hm.skip_append hpad h)))

theorem infix_of_put {x v : Text} (hm : IsLink m)
    (hscripts : ∀ file ∈ files, isScriptFile file = true ∧ '<' ∉ file)
    (h : m <:+: put width files x ++ v) : m <:+: x ++ v := by
  by_cases hfiles : files = []
  · rwa [hfiles, put_nil] at h
  · by_cases hblank : Text.allBlank (lastLine x) = true
    · have hlead : '<' ∉ lastLine x := fun hmem =>
        Text.ne_of_isBlank (Text.allBlank_iff.1 hblank '<' hmem) (by decide) rfl
      rw [put_of_blank hfiles hblank] at h
      rcases not_mem_or_exists_lastLine x with hx | ⟨u, lead, rfl, hline⟩
      · obtain ⟨hwhole, hnone⟩ := lastLine_of_not_mem hx
        rw [hwhole] at hlead
        rw [hwhole, hnone, List.nil_append, List.append_assoc] at h
        exact hm.skip_fileLines hlead hscripts h
      · obtain ⟨hlast, habove⟩ := lastLine_newline u hline
        rw [hlast] at hlead
        simp only [hlast, habove, List.append_assoc, List.cons_append, List.nil_append] at h ⊢
        -- no link goes over the line feed above the new lines
        rcases Text.infix_append_cons hm.newline h with hu | hlater
        · exact hu.trans (List.prefix_append ..).isInfix
        · have hbelow := hm.skip_fileLines hlead hscripts (hm.skip (by decide) hlater)
          exact hbelow.trans ((List.suffix_cons ..).trans (List.suffix_append ..)).isInfix
    · rw [put_of_not_blank hfiles (Bool.eq_false_iff.2 hblank), List.append_assoc] at h
      obtain ⟨file, more, rfl⟩ := List.exists_cons_of_ne_nil hfiles
      obtain ⟨rest, hrest⟩ := generateImports_cons file more
      obtain ⟨c, t, hline, -, -⟩ := importLine_front file
      -- no link goes over the sign of the first script
      have hsplit : m <:+: x ∨ m <:+: generateImports (file :: more) ++ v := by
        rw [hrest, hline] at h ⊢
        exact Text.infix_append_cons hm.sign h
      rcases hsplit with hx | hlater
      · exact hx.trans (List.prefix_append x v).isInfix
      · exact (hm.skip_generateImports hscripts hlater).trans (List.suffix_append x v).isInfix

theorem le_of_append_spaces {a b r t : Text} {n k : Nat} (hm : IsLink m) (hnew : ¬m <:+: b)
    (h : a ++ (Text.spaces n ++ (m ++ r)) = b ++ (Text.spaces k ++ (m ++ t))) :
    b.length + k ≤ a.length + n := by
  by_contra hlt
  rw [← List.append_assoc, ← List.append_assoc b] at h
  refine hnew (hm.infix_of_spaces (hm.infix_of_lt h ?_))
  simp only [Text.spaces, List.length_append, List.length_replicate]
  omega

end IsLink

/-- Links that the text does not have show where they were put. -/
theorem splice_inj {file : Text} {more : List Text} (hm : IsLink (importLine file)) {text : Text}
    (hnew : ¬importLine file <:+: text) {i j : Nat} (hi : i < text.length)
    (h : splice width (file :: more) i text = splice width (file :: more) j text) : i = j := by
  have hfront (l : Nat) : ¬importLine file <:+: text.take l :=
    fun hin => hnew (hin.trans (List.take_prefix l text).isInfix)
  obtain ⟨n, r, hputi, hmodei⟩ := put_front width file more (text.take i)
  obtain ⟨k, t, hputj, hmodej⟩ := put_front width file more (text.take j)
  have hlength := congrArg List.length h
  rw [splice, splice, List.length_append, List.length_append, List.length_drop,
    List.length_drop] at hlength
  rw [splice, splice, hputi, hputj] at h
  simp only [List.append_assoc] at h
  have hle := hm.le_of_append_spaces (hfront j) h
  have hge := hm.le_of_append_spaces (hfront i) h.symm
  simp only [List.length_take] at hle hge hmodei hmodej
  -- in the line and above it, the files take different room
  rcases hmodei with ⟨hn, hlong⟩ | ⟨hn, hlong⟩ <;> rcases hmodej with ⟨hk, hshort⟩ | ⟨hk, hshort⟩
  all_goals omega

end SourceLens.Markup
