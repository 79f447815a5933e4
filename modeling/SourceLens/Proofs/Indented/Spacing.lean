import SourceLens.Indented.Format
import SourceLens.Proofs.Indented.Lexing

/-!
# Blank lines

A blank line ends a statement that goes on after a backslash, and does nothing else. So the number
of blank lines in a run does not matter, nor does the run if no statement is under way. Spacing lines
out changes the length of such runs only, and is therefore read like the lines themselves
(`run_spaceOut`).
-/

namespace SourceLens.Indented

/-! ## One blank line -/

theorem Reader.feed_nil (reader : Reader) :
    reader.feed []
      = if reader.literal.isNone && reader.brackets.isEmpty then
          ({ reader with current := none }, reader.current.toList, true)
        else (reader, [], true) := by
  obtain ⟨literal, brackets, current⟩ := reader
  have hextend : extendStatement (Text.indentation []) [] current = current := by
    cases current <;> rfl
  cases literal with
  | some q =>
    simp [feed, feedMarks, startMode, lex, trackChars, codeOf, openQuote, endsWell, joinable,
      Text.trim, Text.trimStart, Text.trimEnd, hextend]
  | none =>
    cases brackets <;> simp [feed, feedMarks, startMode, lex, trackChars, codeOf, openQuote, endsWell,
      joinable, Text.trim, Text.trimStart, Text.trimEnd, hextend]

theorem lex_code_blank {text : Text} (hblank : Text.allBlank text = true) :
    codeOf (lex .code text).1 = text ∧ (lex .code text).2 = .code := by
  have hlex := lex_code_blank_append hblank []
  simpa [lex, codeOf] using hlex

theorem joinable_blank {text : Text} (hblank : Text.allBlank text = true) :
    joinable text = ([], false) := by
  simp [joinable, Text.trim_eq_nil.2 hblank]

theorem Reader.feed_blank {reader : Reader} (hliteral : reader.literal = none) {text : Text}
    (hblank : Text.allBlank text = true) : reader.feed text = reader.feed [] := by
  obtain ⟨literal, brackets, current⟩ := reader
  obtain rfl : literal = none := hliteral
  obtain ⟨hcode, hlast⟩ := lex_code_blank hblank
  have htrack := trackChars_blank hblank brackets
  have hextend (indent : Nat) : extendStatement indent [] current = current := by
    cases current <;> rfl
  rw [feed_nil]
  simp only [feed, startMode, feedMarks, hcode, hlast, htrack, joinable_blank hblank, hextend,
    openQuote, endsWell]
  cases brackets <;> simp

theorem Reader.feed_nil_of_idle {reader : Reader} (h : reader.current = none) :
    reader.feed [] = (reader, [], true) := by
  obtain ⟨literal, brackets, current⟩ := reader
  subst h
  rw [feed_nil]
  split_ifs <;> rfl

theorem Reader.feed_nil_again (reader : Reader) :
    (reader.feed []).1.feed [] = ((reader.feed []).1, [], true) := by
  by_cases h : (reader.literal.isNone && reader.brackets.isEmpty) = true
  · have hidle : (reader.feed []).1.current = none := by rw [feed_nil, if_pos h]
    exact feed_nil_of_idle hidle
  · have hsame : reader.feed [] = (reader, [], true) := by rw [feed_nil, if_neg h]
    rw [hsame, hsame]

/-! ## Runs of blank lines -/

theorem Reader.run_blank_of_idle {reader : Reader} (h : reader.current = none) (n : Nat)
    (rest : List Text) : reader.run (List.replicate n [] ++ rest) = reader.run rest := by
  induction n with
  | zero => rfl
  | succ n ih => simp [List.replicate_succ, run_cons, feed_nil_of_idle h, ih]

theorem Reader.run_blank_run (reader : Reader) (n : Nat) (rest : List Text) :
    reader.run (List.replicate (n + 1) [] ++ rest) = reader.run ([] :: rest) := by
  induction n with
  | zero => rfl
  | succ n ih =>
    rw [← ih, List.replicate_succ, List.cons_append, run_cons, List.replicate_succ,
      List.cons_append, run_cons, feed_nil_again, run_cons]
    simp

theorem Reader.run_blank_congr {reader : Reader} {m n : Nat}
    (h : reader.current = none ∨ (m = 0 ↔ n = 0)) (rest : List Text) :
    reader.run (List.replicate m [] ++ rest) = reader.run (List.replicate n [] ++ rest) := by
  rcases h with h | h
  · rw [run_blank_of_idle h, run_blank_of_idle h]
  · cases m with
    | zero => rw [h.1 rfl]
    | succ m =>
      cases n with
      | zero => simp at h
      | succ n => rw [run_blank_run, run_blank_run]

theorem Reader.run_blank_end (reader : Reader) (n : Nat) :
    reader.run (List.replicate n []) = reader.run [] := by
  have hone : reader.run [[]] = reader.run [] := by
    rw [run_cons, feed_nil]
    split_ifs with h
    · rw [Bool.and_eq_true] at h
      simp [run, finish, h.1, h.2]
    · simp [run]
  cases n with
  | zero => rfl
  | succ n =>
    have hrun := reader.run_blank_run n []
    rw [List.append_nil] at hrun
    rw [hrun, hone]

/-! ## Spacing out -/

/-- Lines of which those inside a literal are known to be, and a top-level definition starts where no
statement is under way. -/
def Spaceable : Reader → List Rendered → Prop
  | _, [] => True
  | reader, line :: rest =>
    line.source.startsInLiteral = reader.literal.isSome
      ∧ (line.startsTopLevel = true → reader.current = none)
      ∧ Spaceable (reader.feed line.text).1 rest

theorem blanksBefore_spec {reader : Reader} (pending : Nat) {above : Option Text} (line : Rendered)
    (habove : above = none → reader.current = none)
    (htop : pending = 0 → line.startsTopLevel = true → reader.current = none) :
    reader.current = none ∨ (blanksBefore pending above line = 0 ↔ pending = 0) := by
  cases above with
  | none => exact .inl (habove rfl)
  | some above =>
    rw [blanksBefore]
    split_ifs with hdef
    · by_cases hpending : pending = 0
      · simp only [Bool.and_eq_true] at hdef
        exact .inl (htop hpending hdef.1)
      · exact .inr (by simp [hpending])
    · exact .inr (by omega)
    · exact .inr (by omega)

/-- Lines that are spaced out are read like the lines, with `pending` blank lines before them. -/
theorem run_spaceOut {tail : List Text} (htail : tail = [] ∨ tail = [[]]) (lines : List Rendered) :
    ∀ (reader : Reader) (pending : Nat) (above : Option Text),
      (above = none → reader.current = none) → (pending ≠ 0 → reader.literal = none) →
      Spaceable (reader.feedAll (List.replicate pending [])).1 lines →
      reader.run (spaceOut pending above lines ++ tail)
        = reader.run (List.replicate pending [] ++ lines.map (·.text)) := by
  induction lines with
  | nil =>
    intro reader pending above _ _ _
    have hempty : reader.run tail = reader.run [] := by
      rcases htail with rfl | rfl
      · rfl
      · exact reader.run_blank_end 1
    simpa [spaceOut, hempty] using (reader.run_blank_end pending).symm
  | cons line rest ih =>
    intro reader pending above habove hpending hspace
    obtain ⟨hliteral, htop, hrest⟩ := hspace
    rw [spaceOut]
    split_ifs with hblank
    · -- a blank line joins the run that is pending
      simp only [Bool.and_eq_true, Bool.not_eq_true'] at hblank
      obtain ⟨hblank, hoff⟩ := hblank
      have hnone : (reader.feedAll (List.replicate pending [])).1.literal = none := by
        simpa [hoff] using hliteral
      have hstart : reader.literal = none := by
        by_cases hzero : pending = 0
        · simpa [hzero, Reader.feedAll] using hnone
        · exact hpending hzero
      have hgrow : List.replicate (pending + 1) ([] : Text) = List.replicate pending [] ++ [[]] :=
        List.replicate_succ'
      have hspace : Spaceable (reader.feedAll (List.replicate (pending + 1) [])).1 rest := by
        rw [hgrow, (Reader.feedAll_append ..).1]
        rw [Reader.feed_blank hnone hblank] at hrest
        exact hrest
      rw [ih reader (pending + 1) above habove (fun _ => hstart) hspace, hgrow, List.append_assoc]
      apply Reader.run_append_congr
      rw [List.map_cons, List.singleton_append, Reader.run_cons, Reader.run_cons,
        Reader.feed_blank hnone hblank]
    · have hrun := Reader.run_blank_congr (blanksBefore_spec pending line habove
        fun hzero => by simpa [hzero, Reader.feedAll] using htop)
      have hnext := ih ((reader.feedAll (List.replicate pending [])).1.feed line.text).1 0
        (some line.text) (by simp) (by simp) hrest
      rw [List.append_assoc, hrun]
      apply Reader.run_append_congr
      rw [List.map_cons, List.cons_append, Reader.run_cons, Reader.run_cons, hnext]
      rfl

end SourceLens.Indented
