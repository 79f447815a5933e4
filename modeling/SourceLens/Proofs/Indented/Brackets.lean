import SourceLens.Proofs.Indented.Rendering

/-!
# Balanced brackets

A scan carries one stack of open brackets through a whole text. It is empty wherever a statement is
complete, so every statement is read as if it stood alone: the stack holds the brackets that the code
of the statement under way leaves open (`Pending.Tracks`). A scan therefore has nothing to say about
brackets exactly if the code of every logical line, taken by itself, is a balanced word
(`brackets_fine_iff_balanced`).
-/

namespace SourceLens.Indented

/-! ## Balanced words -/

/-- Code in which every bracket is closed by one of its kind, inside out. -/
inductive Balanced : Text → Prop
  | nil : Balanced []
  | other {c : Char} {code : Text} (hopens : isOpener c = false) (hcloses : openerOf? c = none)
      (h : Balanced code) : Balanced (c :: code)
  | pair {opener closer : Char} {inside code : Text} (hpair : openerOf? closer = some opener)
      (hinside : Balanced inside) (h : Balanced code) :
      Balanced (opener :: (inside ++ closer :: code))

theorem isOpener_of_openerOf? {opener closer : Char} (h : openerOf? closer = some opener) :
    isOpener opener = true ∧ isOpener closer = false := by
  rw [openerOf?] at h
  split_ifs at h with hround hsquare hcurly
  · obtain rfl := Option.some.inj h
    exact ⟨rfl, by rw [hround]; rfl⟩
  · obtain rfl := Option.some.inj h
    exact ⟨rfl, by rw [hsquare]; rfl⟩
  · obtain rfl := Option.some.inj h
    exact ⟨rfl, by rw [hcurly]; rfl⟩

/-! ### Tracking and its parts -/

theorem trackChars_other {c : Char} (hopens : isOpener c = false) (hcloses : openerOf? c = none)
    (stack : List Char) (code : Text) : trackChars stack (c :: code) = trackChars stack code := by
  simp [trackChars, hopens, hcloses]

theorem trackChars_opener {c : Char} (hopens : isOpener c = true) (stack : List Char)
    (code : Text) : trackChars stack (c :: code) = trackChars (c :: stack) code := by
  simp [trackChars, hopens]

theorem trackChars_pair {opener closer : Char} (hpair : openerOf? closer = some opener)
    (below : List Char) (code : Text) :
    trackChars (opener :: below) (closer :: code) = trackChars below code := by
  simp [trackChars, (isOpener_of_openerOf? hpair).2, hpair]

theorem trackChars_append (a b : Text) (stack : List Char) :
    trackChars stack (a ++ b)
      = ((trackChars (trackChars stack a).1 b).1,
         (trackChars stack a).2 && (trackChars (trackChars stack a).1 b).2) := by
  induction a generalizing stack with
  | nil => simp [trackChars]
  | cons c a ih =>
    rw [List.cons_append, trackChars, trackChars]
    split_ifs
    · exact ih (c :: stack)
    · cases openerOf? c with
      | none => exact ih stack
      | some opener =>
        cases stack with
        | nil => simp [ih]
        | cons top below =>
          simp only
          split_ifs
          · exact ih below
          · simp [ih]

theorem trackChars_joinable (stack : List Char) (code : Text) :
    trackChars stack (joinable code).1 = trackChars stack code := by
  have htrim : trackChars stack (Text.trim code) = trackChars stack code := by
    rw [← trackChars_filter, filter_trim, trackChars_filter]
  rw [← htrim, joinable]
  split_ifs with hjoin
  · obtain ⟨front, hfront⟩ := List.getLast?_eq_some_iff.1 hjoin
    obtain ⟨v, hv, hend⟩ := Text.trimEnd_spec front
    have hback (stack : List Char) : trackChars stack ['\\'] = (stack, true) := rfl
    rw [hfront, List.dropLast_concat, trackChars_append front, hback]
    conv_rhs => rw [hend, trackChars_append, trackChars_blank hv]
    simp
  · rfl

/-! ### Tracking accepts the balanced words -/

theorem Balanced.trackChars_eq {code : Text} (h : Balanced code) (stack : List Char) :
    trackChars stack code = (stack, true) := by
  induction h generalizing stack with
  | nil => rfl
  | other hopens hcloses _ ih => rw [trackChars_other hopens hcloses, ih]
  | pair hpair _ _ ihinside ih =>
    rw [trackChars_opener (isOpener_of_openerOf? hpair).1, trackChars_append, ihinside,
      trackChars_pair hpair, ih]
    rfl

/-- Code that closes open brackets, the innermost first, with balanced words before, between and
after the closing ones. -/
inductive Closes : List Char → Text → Prop
  | nil {code : Text} (h : Balanced code) : Closes [] code
  | cons {opener closer : Char} {below : List Char} {inside code : Text}
      (hinside : Balanced inside) (hpair : openerOf? closer = some opener) (h : Closes below code) :
      Closes (opener :: below) (inside ++ closer :: code)

theorem Closes.behind {stack : List Char} {code : Text} (h : Closes stack code) (front : Text)
    (hfront : ∀ inside, Balanced inside → Balanced (front ++ inside)) :
    Closes stack (front ++ code) := by
  cases h with
  | nil hcode => exact .nil (hfront _ hcode)
  | cons hinside hpair hcode =>
    rw [← List.append_assoc]
    exact .cons (hfront _ hinside) hpair hcode

theorem closes_of_trackChars (code : Text) :
    ∀ {stack : List Char}, trackChars stack code = ([], true) → Closes stack code := by
  induction code with
  | nil =>
    intro stack h
    obtain rfl : stack = [] := congrArg Prod.fst h
    exact .nil .nil
  | cons c code ih =>
    intro stack h
    cases hopens : isOpener c with
    | true =>
      rw [trackChars_opener hopens] at h
      cases ih h with
      | @cons _ closer _ inside rest hinside hpair hrest =>
        have hpaired := hrest.behind (c :: (inside ++ [closer])) fun rest hrest => by
          simpa using Balanced.pair hpair hinside hrest
        simpa using hpaired
    | false =>
      cases hcloses : openerOf? c with
      | none =>
        rw [trackChars_other hopens hcloses] at h
        exact (ih h).behind [c] fun _ => .other hopens hcloses
      | some opener =>
        -- a bracket that closes none of its kind would be reported
        cases stack with
        | nil => simp [trackChars, hopens, hcloses] at h
        | cons top below =>
          by_cases htop : top = opener
          · rw [htop, trackChars_pair hcloses] at h
            rw [htop]
            exact Closes.cons .nil hcloses (ih h)
          · simp [trackChars, hopens, hcloses, htop] at h

theorem balanced_iff {code : Text} : Balanced code ↔ trackChars [] code = ([], true) := by
  refine ⟨fun h => h.trackChars_eq [], fun h => ?_⟩
  cases closes_of_trackChars code h with
  | nil hcode => exact hcode

/-! ## What a scan says about brackets -/

/-- Whether a diagnostic is about a bracket that closes none, or about one that is not closed. -/
def aboutBracket (found : Diagnostic) : Bool :=
  Text.startsWith "Unmatched".toList found.message || Text.startsWith "Unclosed".toList found.message

theorem aboutBracket_unmatched (line column : Nat) (c : Char) :
    aboutBracket { line, column, message := aboutChar "Unmatched" c } = true := rfl

theorem aboutBracket_unclosed (line column : Nat) (c : Char) :
    aboutBracket { line, column, message := aboutChar "Unclosed" c } = true := rfl

theorem aboutBracket_unterminated (line column : Nat) :
    aboutBracket (unterminated line column) = false := rfl

theorem aboutBracket_of_trackBrackets {line : Nat} {found : Diagnostic} (marks : List Mark) :
    ∀ {column : Nat} {stack : List Bracket},
      found ∈ (trackBrackets line column stack marks).2 → aboutBracket found = true := by
  induction marks with
  | nil => simp [trackBrackets]
  | cons mark rest ih =>
    intro column stack h
    rw [trackBrackets] at h
    split_ifs at h
    · exact ih h
    · exact ih h
    · cases hcloses : openerOf? mark.char with
      | none =>
        rw [hcloses] at h
        exact ih h
      | some opener =>
        rw [hcloses] at h
        cases stack with
        | nil =>
          rcases List.mem_cons.1 h with rfl | h
          · exact aboutBracket_unmatched ..
          · exact ih h
        | cons top below =>
          simp only at h
          split_ifs at h
          · exact ih h
          · rcases List.mem_cons.1 h with rfl | h
            · exact aboutBracket_unmatched ..
            · exact ih h

theorem aboutBracket_of_shortLiteralProblem {line : Nat} {text : Text} {marks : List Mark}
    {last : Mode} {found : Diagnostic} (h : found ∈ shortLiteralProblem line text marks last) :
    aboutBracket found = false := by
  cases last with
  | short q =>
    rw [shortLiteralProblem] at h
    split_ifs at h
    · simp at h
    · rw [List.mem_singleton.1 h]
      exact aboutBracket_unterminated ..
  | _ => simp [shortLiteralProblem] at h

theorem brackets_feed (pending : Pending) (i : Nat) (text : Text) :
    (∀ found ∈ (pending.feed i text).2.diagnostics, aboutBracket found = false)
      ↔ (trackChars pending.reader.brackets (pending.reader.codeIn text)).2 = true := by
  have htrack := congrArg Prod.snd
    (trackBrackets_eq i 0 pending.brackets (lex (startMode pending.reader.literal) text).1)
  have hdiagnostics : (pending.feed i text).2.diagnostics
      = (trackBrackets i 0 pending.brackets (lex (startMode pending.reader.literal) text).1).2
        ++ shortLiteralProblem i text (lex (startMode pending.reader.literal) text).1
          (lex (startMode pending.reader.literal) text).2 := by
    rw [feed_eq_feedMarks]
    rfl
  rw [Reader.codeIn, hdiagnostics]
  simp only [Pending.reader] at htrack ⊢
  rw [← htrack, List.isEmpty_iff]
  constructor
  · intro h
    refine List.eq_nil_iff_forall_not_mem.2 fun found hfound => ?_
    have hno := h found (List.mem_append_left _ hfound)
    simp [aboutBracket_of_trackBrackets _ hfound] at hno
  · intro h found hfound
    rw [h, List.nil_append] at hfound
    exact aboutBracket_of_shortLiteralProblem hfound

theorem brackets_finish (pending : Pending) :
    (∀ found ∈ pending.finish.diagnostics, aboutBracket found = false)
      ↔ pending.reader.brackets = [] := by
  rw [Pending.finish, Pending.reader, List.map_eq_nil_iff]
  constructor
  · intro h
    refine List.eq_nil_iff_forall_not_mem.2 fun bracket hbracket => ?_
    have hmem := List.mem_map_of_mem (f := fun bracket : Bracket =>
      ({ line := bracket.line, column := bracket.column,
         message := aboutChar "Unclosed" bracket.char } : Diagnostic)) (List.mem_reverse.2 hbracket)
    have hno := h _ (List.mem_append_right _ hmem)
    simp [aboutBracket_unclosed] at hno
  · intro h found hfound
    simp only [h, List.reverse_nil, List.map_nil, List.append_nil] at hfound
    obtain ⟨literal, -, rfl⟩ := List.mem_map.1 hfound
    exact aboutBracket_unterminated ..

/-! ## Statements one by one -/

/-- The code of a statement under way, if there is one. -/
def codeSoFar (current : Option Statement) : Text := (current.map (·.code)).getD []

theorem trackChars_extendStatement (indent : Nat) (code : Text) (current : Option Statement) :
    trackChars [] (codeSoFar (extendStatement indent (joinable code).1 current))
      = ((trackChars (trackChars [] (codeSoFar current)).1 code).1,
         (trackChars [] (codeSoFar current)).2
          && (trackChars (trackChars [] (codeSoFar current)).1 code).2) := by
  have hspace (stack : List Char) (code : Text) :
      trackChars stack (' ' :: code) = trackChars stack code := trackChars_other rfl rfl stack code
  generalize hpiece : (joinable code).1 = piece
  have hsame (stack : List Char) : trackChars stack code = trackChars stack piece := by
    rw [← hpiece, trackChars_joinable]
  rw [hsame]
  cases current with
  | none =>
    rw [extendStatement]
    split_ifs with hempty
    · rw [List.isEmpty_iff.1 hempty]
      rfl
    · simp [codeSoFar, trackChars]
  | some s =>
    by_cases hempty : piece = []
    · simp [extendStatement, codeSoFar, hempty, trackChars]
    · simp [extendStatement, codeSoFar, hempty, trackChars_append, hspace]

/-- The brackets that are open are those that the code of the statement under way leaves open. -/
def Pending.Tracks (pending : Pending) : Prop :=
  (trackChars [] (codeSoFar pending.reader.current)).1 = pending.reader.brackets

/-- Whether every closing bracket of the statement under way matched. -/
def Pending.Matched (pending : Pending) : Prop :=
  (trackChars [] (codeSoFar pending.reader.current)).2 = true

theorem Pending.Tracks.underway {pending : Pending} (h : pending.Tracks) (text : Text) :
    trackChars [] (codeSoFar (pending.reader.underway text))
      = ((trackChars pending.reader.brackets (pending.reader.codeIn text)).1,
         (trackChars [] (codeSoFar pending.reader.current)).2
          && (trackChars pending.reader.brackets (pending.reader.codeIn text)).2) := by
  rw [← h]
  exact trackChars_extendStatement ..

theorem Pending.Tracks.feed {pending : Pending} (h : pending.Tracks) (i : Nat) (text : Text) :
    (pending.feed i text).1.Tracks := by
  rw [Tracks, (feed_reader pending i text).1, Reader.feed_eq]
  by_cases hcomplete : pending.reader.completes text = true
  · rw [if_pos hcomplete]
    rw [Reader.completes, Bool.and_assoc, Bool.and_eq_true, List.isEmpty_iff] at hcomplete
    exact hcomplete.1.symm
  · rw [if_neg hcomplete, h.underway]

/-- A logical line that a line completes is balanced exactly if the brackets of the statement under
way matched and those that close on the line match. -/
theorem Pending.Tracks.balanced_feed {pending : Pending} (h : pending.Tracks) (i : Nat) (text : Text)
    (hcomplete : pending.reader.completes text = true) :
    (∀ entry ∈ (pending.feed i text).2.logical, Balanced entry.code)
      ↔ pending.Matched
        ∧ ∀ found ∈ (pending.feed i text).2.diagnostics, aboutBracket found = false := by
  have hunderway := h.underway text
  have hstack : (trackChars pending.reader.brackets (pending.reader.codeIn text)).1 = [] := by
    rw [Reader.completes, Bool.and_assoc, Bool.and_eq_true, List.isEmpty_iff] at hcomplete
    exact hcomplete.1
  rw [brackets_feed, Matched, ← Bool.and_eq_true, (feed_logical pending i text).2,
    if_pos hcomplete]
  rw [hstack, underway_reader pending i] at hunderway
  cases hu : pending.underway i text with
  | none =>
    rw [hu] at hunderway
    exact iff_of_true (by simp) (congrArg Prod.snd hunderway).symm
  | some u =>
    rw [hu] at hunderway
    have hcode : codeSoFar ((some u).map (·.statement)) = u.code := rfl
    rw [hcode] at hunderway
    simp [balanced_iff, hunderway]

theorem brackets_scanFrom (texts : List Text) :
    ∀ {pending : Pending} {i : Nat}, pending.Tracks →
      ((∀ entry ∈ (scanFrom pending i texts).logical, Balanced entry.code)
        ↔ pending.Matched
          ∧ ∀ found ∈ (scanFrom pending i texts).diagnostics, aboutBracket found = false) := by
  induction texts with
  | nil =>
    intro pending i h
    rw [scanFrom, brackets_finish, ← h, Pending.Matched, Pending.finish, Pending.reader]
    cases hc : pending.current with
    | none => simp [codeSoFar, trackChars]
    | some c =>
      have hcode : codeSoFar (some c.statement) = c.code := rfl
      simp [hcode, balanced_iff, Prod.ext_iff, and_comm]
  | cons text rest ih =>
    intro pending i h
    rw [scanFrom_cons, Scan.append]
    simp only [List.mem_append, or_imp, forall_and]
    rw [ih (h.feed i text)]
    by_cases hcomplete : pending.reader.completes text = true
    · have hidle : (pending.feed i text).1.Matched := by
        rw [Pending.Matched, (feed_reader pending i text).1,
          Reader.feed_idle_of_completes hcomplete]
        rfl
      rw [h.balanced_feed i text hcomplete]
      simp only [hidle, true_and, and_assoc]
    · -- the statement goes on, and what it has to say about brackets with it
      have hmatched : (pending.feed i text).1.Matched
          ↔ pending.Matched ∧ (trackChars pending.reader.brackets
            (pending.reader.codeIn text)).2 = true := by
        rw [Pending.Matched, (feed_reader pending i text).1,
          (Reader.feed_of_not_completes hcomplete).1, h.underway, Bool.and_eq_true, Pending.Matched]
      rw [hmatched, ← brackets_feed pending i text, (feed_logical pending i text).2,
        if_neg hcomplete]
      simp [and_assoc]

/-- For every text: no diagnostic of a scan is about an unmatched or an unclosed bracket exactly if
the code of every logical line is balanced by itself. -/
theorem brackets_fine_iff_balanced (text : Text) :
    (∀ found ∈ (scan text).diagnostics,
        ¬"Unmatched".toList <+: found.message ∧ ¬"Unclosed".toList <+: found.message)
      ↔ ∀ entry ∈ (scan text).logical, Balanced entry.code := by
  have hstart : ({} : Pending).Tracks := rfl
  have hmatched : ({} : Pending).Matched := rfl
  rw [scan, brackets_scanFrom (Text.lines text) hstart]
  simp [hmatched, aboutBracket, Text.startsWith, Bool.eq_false_iff, List.isPrefixOf_iff_prefix]

end SourceLens.Indented
