import SourceLens.Proofs.Indented.AtRest
import SourceLens.Proofs.Indented.Formatting

/-!
# Formatting twice

Spacing out changes runs of blank lines only, and to lengths that it keeps the next time
(`spaceOut_spread`). Lines that look the same when they are rendered again still do so when they are
spaced out (`looks_spread`). So the lines that formatting writes are written again, and a formatted
text is its own formatted text (`format_idempotent`).
-/

namespace SourceLens.Indented

/-! ## Spacing out what is spaced out -/

def Rendered.blank : Rendered :=
  { text := []
    source := { text := [], startsInLiteral := false, endsInLiteral := false }
    starts := none }

/-- Lines that are spaced out, as lines that may be spaced out again. -/
def spread : Nat → Option Text → List Rendered → List Rendered
  | _, _, [] => []
  | pending, above, line :: rest =>
    if Text.allBlank line.text && !line.source.startsInLiteral then spread (pending + 1) above rest
    else
      List.replicate (blanksBefore pending above line) .blank
        ++ line :: spread 0 (some line.text) rest

theorem map_text_spread (lines : List Rendered) :
    ∀ (pending : Nat) (above : Option Text),
      (spread pending above lines).map (·.text) = spaceOut pending above lines := by
  induction lines with
  | nil => exact fun _ _ => rfl
  | cons line rest ih =>
    intro pending above
    rw [spread, spaceOut]
    split_ifs
    · exact ih (pending + 1) above
    · rw [List.map_append, List.map_replicate, List.map_cons, ih]
      rfl

theorem spaceOut_congr {lines : List Rendered} :
    ∀ {lines' : List Rendered}, lines.map Rendered.look = lines'.map Rendered.look →
      ∀ (pending : Nat) (above : Option Text),
        spaceOut pending above lines = spaceOut pending above lines' := by
  induction lines with
  | nil =>
    intro lines' h pending above
    obtain rfl : lines' = [] := by simpa using h.symm
    rfl
  | cons line rest ih =>
    intro lines' h pending above
    obtain ⟨line', rest', rfl, hline, hrest⟩ := List.map_eq_cons_iff.1 h.symm
    have htext : line'.text = line.text := congrArg Look.text hline
    have hliteral : line'.source.startsInLiteral = line.source.startsInLiteral :=
      congrArg Look.inLiteral hline
    have htop : line'.startsTopLevel = line.startsTopLevel := congrArg Look.top hline
    have hblanks : blanksBefore pending above line' = blanksBefore pending above line := by
      simp only [blanksBefore, htop, htext]
    rw [spaceOut, spaceOut, htext, hliteral, hblanks, ih hrest.symm, ih hrest.symm]

theorem spaceOut_blank_append (n : Nat) (lines : List Rendered) :
    ∀ (pending : Nat) (above : Option Text),
      spaceOut pending above (List.replicate n .blank ++ lines)
        = spaceOut (pending + n) above lines := by
  induction n with
  | zero => exact fun _ _ => rfl
  | succ n ih =>
    intro pending above
    rw [List.replicate_succ, List.cons_append, spaceOut, if_pos (by rfl), ih]
    congr 1
    omega

theorem blanksBefore_blanksBefore (pending : Nat) (above : Option Text) (line : Rendered) :
    blanksBefore (blanksBefore pending above line) above line = blanksBefore pending above line := by
  cases above with
  | none => rfl
  | some above =>
    simp only [blanksBefore]
    by_cases htop : line.startsTopLevel = true
    · by_cases hlead : (decide (pending = 0) && leadsDefinition above) = true
      · obtain ⟨hzero, habove⟩ := Bool.and_eq_true_iff.1 hlead
        obtain rfl : pending = 0 := of_decide_eq_true hzero
        simp [htop, habove]
      · simp [htop, hlead]
    · simp [htop]

/-- Lines that are spaced out stay as they are, blank lines at the end apart. -/
theorem spaceOut_spread (n : Nat) (lines : List Rendered) :
    ∀ (pending : Nat) (above : Option Text),
      spaceOut 0 above (spread pending above lines ++ List.replicate n .blank)
        = spaceOut pending above lines := by
  induction lines with
  | nil =>
    intro pending above
    have hblank := spaceOut_blank_append n [] 0 above
    rwa [List.append_nil] at hblank
  | cons line rest ih =>
    intro pending above
    rw [spread, spaceOut]
    split_ifs with hblank
    · exact ih (pending + 1) above
    · rw [List.append_assoc, spaceOut_blank_append, Nat.zero_add, List.cons_append, spaceOut,
        if_neg hblank, blanksBefore_blanksBefore, ih]

/-! ## Rendering what is spaced out -/

theorem Reader.looks_append {width : Nat} (front rest : List Text) :
    ∀ (reader : Reader) (dues : List Due),
      reader.looks width dues (front ++ rest)
        = reader.looks width dues front
          ++ (reader.feedAll front).1.looks width (dues.drop (reader.feedAll front).2.1.length)
            rest := by
  induction front with
  | nil => exact fun _ _ => rfl
  | cons text front ih =>
    intro reader dues
    rw [List.cons_append, looks, looks, ih, List.cons_append, feedAll, List.drop_drop,
      List.length_append]

theorem Reader.feedAll_cons (reader : Reader) (text : Text) (rest : List Text) :
    reader.feedAll (text :: rest)
      = (((reader.feed text).1.feedAll rest).1,
         (reader.feed text).2.1 ++ ((reader.feed text).1.feedAll rest).2.1,
         (reader.feed text).2.2 && ((reader.feed text).1.feedAll rest).2.2) := rfl

theorem Reader.feedAll_blank_of_idle {reader : Reader} (h : reader.current = none) (n : Nat) :
    reader.feedAll (List.replicate n []) = (reader, [], true) := by
  induction n with
  | zero => rfl
  | succ n ih => simp [List.replicate_succ, feedAll_cons, feed_nil_of_idle h, ih]

theorem Reader.feedAll_blank_congr {reader : Reader} {m n : Nat}
    (h : reader.current = none ∨ (m = 0 ↔ n = 0)) :
    reader.feedAll (List.replicate m []) = reader.feedAll (List.replicate n []) := by
  have hrun (k : Nat) : reader.feedAll (List.replicate (k + 1) []) = reader.feedAll [[]] := by
    induction k with
    | zero => rfl
    | succ k ih =>
      rw [← ih, List.replicate_succ, List.replicate_succ, feedAll_cons, feedAll_cons,
        feed_nil_again, feedAll_cons]
      simp
  rcases h with h | h
  · rw [feedAll_blank_of_idle h, feedAll_blank_of_idle h]
  · cases m with
    | zero => rw [h.1 rfl]
    | succ m =>
      cases n with
      | zero => simp at h
      | succ n => rw [hrun, hrun]

theorem Reader.literal_feed_nil (reader : Reader) : (reader.feed []).1.literal = reader.literal := by
  rw [feed_nil]
  split_ifs <;> rfl

theorem Reader.look_nil {width : Nat} {reader : Reader} (hcode : reader.literal = none)
    (dues : List Due) : reader.look width dues [] = Rendered.blank.look := by
  have hidle : (joinable (reader.codeIn [])).1 = [] := joinable_of_blank hcode rfl
  have htext : reader.lookText width [] dues = [] := by
    cases dues with
    | nil => rfl
    | cons first more =>
      have hblank : (reader.meet []).body = [] := body_eq_nil.2 rfl
      have hshift : first.shift width (reader.meet []) = [] := by
        rw [Due.shift, hblank]
        split_ifs <;> simp_all [meet]
      rw [lookText, hshift, ite_eq_left_iff]
      exact fun _ => rfl
  rw [look, htext, underway, hidle, hcode]
  cases reader.current <;> rfl

theorem Reader.looks_blank {width : Nat} (n : Nat) :
    ∀ {reader : Reader}, (n ≠ 0 → reader.literal = none) → ∀ dues : List Due,
      reader.looks width dues (List.replicate n []) = List.replicate n Rendered.blank.look := by
  induction n with
  | zero => exact fun _ _ => rfl
  | succ n ih =>
    intro reader hcode dues
    have hhere := hcode (Nat.succ_ne_zero n)
    rw [List.replicate_succ, looks, look_nil hhere,
      ih (fun _ => reader.literal_feed_nil.trans hhere), List.replicate_succ]

theorem Reader.literal_feedAll_blank (reader : Reader) (n : Nat) :
    (reader.feedAll (List.replicate n [])).1.literal = reader.literal := by
  induction n generalizing reader with
  | zero => rfl
  | succ n ih => exact (ih (reader.feed []).1).trans reader.literal_feed_nil

theorem blanksBefore_zero {above : Option Text} {line : Rendered}
    (h : blanksBefore 0 above line ≠ 0) : line.startsTopLevel = true := by
  cases above with
  | none => exact absurd rfl h
  | some above =>
    by_contra hplain
    simp [blanksBefore, hplain] at h

/-- If lines look the same when they are rendered again, so do the lines that are spaced out. -/
theorem looks_spread {width : Nat} (n : Nat) (lines : List Rendered) :
    ∀ {reader : Reader} {dues : List Due} {pending : Nat} {above : Option Text},
      (above = none → reader.current = none) → (pending ≠ 0 → reader.literal = none) →
      (reader.feedAll (List.replicate pending [])).1.looks width
          (dues.drop (reader.feedAll (List.replicate pending [])).2.1.length) (lines.map (·.text))
        = lines.map Rendered.look →
      ((reader.feedAll (List.replicate pending [])).1.feedAll (lines.map (·.text))).1.literal = none →
      reader.looks width dues
          ((spread pending above lines ++ List.replicate n Rendered.blank).map (·.text))
        = (spread pending above lines ++ List.replicate n Rendered.blank).map Rendered.look := by
  induction lines with
  | nil =>
    intro reader dues pending above _ _ _ hclosed
    have hcode : reader.literal = none := (reader.literal_feedAll_blank pending).symm.trans hclosed
    rw [spread, List.nil_append, List.map_replicate, List.map_replicate]
    exact Reader.looks_blank n (fun _ => hcode) dues
  | cons line rest ih =>
    intro reader dues pending above habove hpending hlooks hclosed
    rw [List.map_cons, List.map_cons, Reader.looks] at hlooks
    obtain ⟨hlook, hrest⟩ := List.cons.inj hlooks
    have hliteral : reader.literal.isSome = line.source.startsInLiteral := by
      rw [← reader.literal_feedAll_blank pending]
      exact congrArg Look.inLiteral hlook
    rw [List.map_cons, Reader.feedAll_cons] at hclosed
    rw [spread]
    split_ifs with hblank
    · -- a blank line joins the run that is pending
      simp only [Bool.and_eq_true, Bool.not_eq_true'] at hblank
      obtain ⟨hblank, hoff⟩ := hblank
      have hstart : reader.literal = none := by simpa [hoff] using hliteral
      have hcode := (reader.literal_feedAll_blank pending).trans hstart
      have hgrow : List.replicate (pending + 1) ([] : Text) = List.replicate pending [] ++ [[]] :=
        List.replicate_succ'
      obtain ⟨hnext, hfound⟩ := reader.feedAll_append (List.replicate pending []) [[]]
      rw [Reader.feed_blank hcode hblank] at hclosed hrest
      rw [List.drop_drop] at hrest
      refine ih habove (fun _ => hstart) ?_ ?_
      · rw [hgrow, hnext, hfound, List.length_append, Reader.feedAll_cons]
        simpa [Reader.feedAll] using hrest
      · rw [hgrow, hnext]
        exact hclosed
    · have htop (h : line.startsTopLevel = true) :
          (reader.feedAll (List.replicate pending [])).1.literal = none
            ∧ (reader.feedAll (List.replicate pending [])).1.current = none := by
        have hseen := (congrArg Look.top hlook).trans h
        simp only [Reader.look, Bool.and_eq_true, Option.isNone_iff_eq_none] at hseen
        exact hseen.1.1
      have hrun := Reader.feedAll_blank_congr (blanksBefore_spec pending line habove
        fun hzero h => by simpa [hzero, Reader.feedAll] using (htop h).2)
      have hopen : blanksBefore pending above line ≠ 0 → reader.literal = none := by
        intro hsome
        by_cases hzero : pending = 0
        · rw [hzero] at hsome
          exact (reader.literal_feedAll_blank pending).symm.trans (htop (blanksBefore_zero hsome)).1
        · exact hpending hzero
      have hnext : Reader.looks width ((reader.feedAll (List.replicate pending [])).1.feed line.text).1
          _ ((spread 0 (some line.text) rest ++ List.replicate n Rendered.blank).map (·.text)) = _ :=
        ih (by simp) (by simp) hrest hclosed
      have hblanks : (List.replicate (blanksBefore pending above line) Rendered.blank).map (·.text)
          = List.replicate (blanksBefore pending above line) [] := List.map_replicate
      rw [List.append_assoc, List.map_append, hblanks, Reader.looks_append, hrun,
        Reader.looks_blank _ hopen, List.cons_append, List.map_cons, Reader.looks, hlook, hnext]
      simp

/-! ## The formatted text -/

theorem getLast_spaceOut {lines : List Rendered} :
    ∀ {reader : Reader}, Spaceable reader lines →
      (reader.feedAll (lines.map (·.text))).1.literal = none →
      ∀ (pending : Nat) (above : Option Text), (spaceOut pending above lines).getLast? ≠ some [] := by
  induction lines with
  | nil => simp [spaceOut]
  | cons line rest ih =>
    rintro reader ⟨hliteral, -, hspace⟩ hclosed pending above
    rw [List.map_cons, Reader.feedAll_cons] at hclosed
    rw [spaceOut]
    split_ifs with hblank
    · exact ih hspace hclosed (pending + 1) above
    · rw [List.getLast?_append_of_ne_nil _ (List.cons_ne_nil _ _)]
      by_cases hlast : spaceOut 0 (some line.text) rest = []
      · -- an empty line that is kept stands in a literal, which goes on after it
        rw [hlast]
        intro hempty
        have htext : line.text = [] := by simpa using hempty
        rw [htext] at hblank hclosed hspace
        have hinside : line.source.startsInLiteral = true := by simpa [Text.allBlank] using hblank
        have hopen : (reader.feed []).1.literal.isSome = true := by
          rw [reader.literal_feed_nil, ← hliteral, hinside]
        cases rest with
        | nil =>
          have hnone : (reader.feed []).1.literal = none := hclosed
          simp [hnone] at hopen
        | cons next more =>
          obtain ⟨hnext, -⟩ := hspace
          rw [hopen] at hnext
          rw [spaceOut, if_neg (by simp [hnext])] at hlast
          simp at hlast
      · obtain ⟨next, more, hnext⟩ := List.exists_cons_of_ne_nil hlast
        rw [hnext, List.getLast?_cons_cons, ← hnext]
        exact ih hspace hclosed 0 (some line.text)

theorem literal_of_run {reader : Reader} {texts : List Text} (h : (reader.run texts).2 = true) :
    (reader.feedAll texts).1.literal = none := by
  have hrun := reader.run_append texts []
  rw [List.append_nil] at hrun
  rw [hrun] at h
  simp only [Reader.run, Reader.finish, Bool.and_eq_true, Option.isNone_iff_eq_none] at h
  exact h.2.1

/-- The lines of the formatted text, without an empty one at its end. -/
def writtenLines (width : Nat) (text : Text) : List Text := spaceOut 0 none (renderedLines width text)

theorem format_of_fine {text : Text} (hfine : diagnose text = []) (width : Nat) :
    format width text
      = Text.unlines (writtenLines width text)
        ++ if text.getLast? = some '\n' && !(writtenLines width text).isEmpty then ['\n'] else [] := by
  rw [format, if_pos (by simp [hfine])]
  rfl

theorem forall₂_zip {r : Placed → LogicalLine → Prop} {placed : List Placed}
    {logical : List LogicalLine} (h : List.Forall₂ r placed logical) :
    List.Forall₂ (fun p q => r p q.1 ∧ q.2 = p.2) placed (logical.zip (placed.map (·.2))) := by
  induction h with
  | nil => exact .nil
  | cons hfirst _ ih => exact .cons ⟨hfirst, rfl⟩ ih

theorem again_format {width : Nat} (hwidth : 1 ≤ width) {text : Text} (hfine : diagnose text = []) :
    List.Forall₂ (Again width) (placedLines text) ((placedLines (format width text)).map due) := by
  obtain ⟨hlevels, -, -⟩ := diagnose_eq_nil.1 hfine
  obtain ⟨hrestated, -⟩ := scan_format hfine width
  have hdepths : levels (scan (format width text)).logical = ((levels (scan text).logical).1, []) :=
    levelsFrom_restated hwidth _ (by simp) rfl hlevels hrestated
  have hmargin : ∀ placed ∈ placedLines text, placed.1.indent = 0 ↔ placed.2 = 0 :=
    margin_levelsFrom _ ⟨[], rfl, by simp⟩ hlevels
  have hsame : (placedLines text).map (·.2) = (levels (scan (format width text)).logical).1 := by
    rw [hdepths, placedLines]
    exact List.map_snd_zip (by rw [levels, length_levelsFrom])
  rw [List.forall₂_map_right_iff, placedLines.eq_1 (format width text), ← hsame]
  refine ((List.forall₂_and_left _ _).2 ⟨hmargin, forall₂_zip hrestated⟩).imp ?_
  rintro placed again ⟨hzero, hagain, hlevel⟩
  exact ⟨hlevel, hagain, hzero⟩

theorem map_look_renderedLines (width : Nat) (text : Text) :
    (renderedLines width text).map Rendered.look
      = ({} : Reader).looks width ((placedLines text).map due) (Text.lines text) :=
  (map_look_renderLines (Text.lines text) (placedLines_logical text) (List.forall_mem_nil _)
    sound_start).1

theorem writtenLines_format {width : Nat} (hwidth : 1 ≤ width) {text : Text}
    (hfine : diagnose text = []) :
    writtenLines width (format width text) = writtenLines width text
      ∧ (writtenLines width text).getLast? ≠ some [] := by
  obtain ⟨-, hscan, -⟩ := diagnose_eq_nil.1 hfine
  have hlogical := placedLines_logical text
  have hrenders := renders_renderedLines width text
  have hfollows : Follows width (placedLines text) {} {} := ⟨rfl, rfl, trivial⟩
  obtain ⟨-, hclosed, hspace⟩ := run_rendered (Text.lines text) hlogical hscan
    (List.forall_mem_nil _) hrenders hfollows sound_start
  have hliteral := literal_of_run hclosed
  refine ⟨?_, getLast_spaceOut hspace hliteral 0 none⟩
  have hrest := looks_rendered hwidth (Text.lines text) hlogical hscan (List.forall_mem_nil _)
    hrenders (map_look_renderedLines width text) hfollows sound_start (again_format hwidth hfine)
  obtain ⟨tail, htail, hlines⟩ := lines_format hfine width
  obtain ⟨n, rfl⟩ : ∃ n, tail = List.replicate n [] := by
    rcases htail with rfl | rfl
    · exact ⟨0, rfl⟩
    · exact ⟨1, rfl⟩
  have hspaced : Text.lines (format width text)
      = (spread 0 none (renderedLines width text) ++ List.replicate n Rendered.blank).map (·.text) := by
    rw [hlines, List.map_append, map_text_spread, List.map_replicate]
    rfl
  have hlooks := map_look_renderedLines width (format width text)
  have hsame : Reader.looks width {} ((placedLines (format width text)).map due)
      ((spread 0 none (renderedLines width text) ++ List.replicate n Rendered.blank).map (·.text)) = _ :=
    looks_spread n _ (fun _ => rfl) (fun _ => rfl) hrest hliteral
  rw [hspaced, hsame] at hlooks
  rw [writtenLines, spaceOut_congr hlooks, spaceOut_spread, writtenLines]

theorem newline_not_mem_writtenLines {text : Text} (hfine : diagnose text = []) (width : Nat) :
    ∀ line ∈ writtenLines width text, '\n' ∉ line := by
  obtain ⟨tail, -, hlines⟩ := lines_format hfine width
  intro line hline
  have hmem : line ∈ Text.lines (format width text) := by
    rw [hlines]
    exact List.mem_append_left tail hline
  exact Text.newline_not_mem_lines hmem

theorem getLast?_unlines {pieces : List Text} (h : ∀ line ∈ pieces, '\n' ∉ line)
    (hlast : pieces.getLast? ≠ some []) : (Text.unlines pieces).getLast? ≠ some '\n' := by
  rcases List.eq_nil_or_concat' pieces with rfl | ⟨front, last, rfl⟩
  · simp [Text.unlines, Text.join]
  · have hne : last ≠ [] := by simpa using hlast
    have hsingle : Text.unlines [last] = last := by simp [Text.unlines, Text.join]
    obtain ⟨rest, hrest⟩ := Text.unlines_suffix front [last]
    rw [← hrest, hsingle, List.getLast?_append_of_ne_nil _ hne]
    intro hnewline
    exact h last (by simp) (List.mem_of_getLast? hnewline)

/-- Formatting a formatted text with the same positive width changes nothing. -/
theorem format_idempotent {width : Nat} (hwidth : 1 ≤ width) (text : Text) :
    format width (format width text) = format width text := by
  by_cases hfine : diagnose text = []
  · by_cases hagain : diagnose (format width text) = []
    · obtain ⟨hwritten, hlast⟩ := writtenLines_format hwidth hfine
      have hplain := getLast?_unlines (newline_not_mem_writtenLines hfine width) hlast
      have hformat := format_of_fine hfine width
      -- the formatted text ends with a line feed exactly if one was put there
      rw [format_of_fine hagain, hwritten]
      by_cases hends : (decide (text.getLast? = some '\n') && !(writtenLines width text).isEmpty) = true
      · rw [if_pos hends] at hformat
        rw [Bool.and_eq_true] at hends
        rw [hformat, if_pos (by simpa using hends.2)]
      · rw [if_neg hends, List.append_nil] at hformat
        rw [hformat, if_neg (by simp [hplain]), List.append_nil]
    · rw [format, if_neg (by simpa using hagain)]
  · have hleft : format width text = text := by rw [format, if_neg (by simpa using hfine)]
    rw [hleft, hleft]

theorem format_idempotent_loose :
    1 ≤ 2 ∧ format 2 looseSource ≠ looseSource
      ∧ format 2 (format 2 looseSource) = format 2 looseSource :=
  ⟨by decide, by decide +kernel, format_idempotent (by decide) looseSource⟩

end SourceLens.Indented
