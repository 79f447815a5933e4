import Mathlib.Data.List.TakeWhile
import Mathlib.Tactic.Common
import SourceLens.Text.Lemmas

/-!
# Blanks at the ends and between words

A text is its trimmed form between two runs of blanks, and trimming forgets any such runs. Words are
cut at every blank, so blanks at the ends leave them alone.
-/

namespace SourceLens.Text

@[simp] theorem isBlank_space : isBlank ' ' = true := by decide

@[simp] theorem isBlank_tab : isBlank '\t' = true := by decide

theorem ne_of_isBlank {c d : Char} (hc : isBlank c = true) (hd : isBlank d = false) : c ≠ d := by
  rintro rfl
  simp [hc] at hd

theorem allBlank_iff {text : Text} : allBlank text = true ↔ ∀ c ∈ text, isBlank c = true := by
  simp [allBlank]

theorem allBlank_spaces (n : Nat) : allBlank (spaces n) = true := by
  rw [allBlank_iff]
  intro c hc
  rw [List.eq_of_mem_replicate hc]
  rfl

theorem allBlank_append {a b : Text} :
    allBlank (a ++ b) = true ↔ allBlank a = true ∧ allBlank b = true := by
  simp [allBlank]

/-! ## Trimming -/

theorem trimStart_spec (text : Text) : ∃ u, allBlank u = true ∧ text = u ++ trimStart text :=
  ⟨text.takeWhile isBlank, allBlank_iff.2 fun _ hc => (List.mem_takeWhile_imp hc),
    List.takeWhile_append_dropWhile.symm⟩

theorem trimEnd_spec (text : Text) : ∃ v, allBlank v = true ∧ text = trimEnd text ++ v := by
  obtain ⟨u, hu, htext⟩ := trimStart_spec text.reverse
  refine ⟨u.reverse, by simpa [allBlank] using hu, ?_⟩
  rw [trimEnd, ← List.reverse_append, ← trimStart, ← htext, List.reverse_reverse]

theorem trimEnd_prefix (text : Text) : trimEnd text <+: text := by
  obtain ⟨v, -, htext⟩ := trimEnd_spec text
  exact ⟨v, htext.symm⟩

theorem trim_spec (text : Text) :
    ∃ u v, allBlank u = true ∧ allBlank v = true ∧ text = u ++ trim text ++ v := by
  obtain ⟨u, hu, hstart⟩ := trimStart_spec text
  obtain ⟨v, hv, hend⟩ := trimEnd_spec (trimStart text)
  exact ⟨u, v, hu, hv, by rw [trim, List.append_assoc, ← hend, ← hstart]⟩

theorem trimStart_append {u : Text} (hu : allBlank u = true) (text : Text) :
    trimStart (u ++ text) = trimStart text := by
  rw [trimStart, List.dropWhile_append_of_pos (allBlank_iff.1 hu), trimStart]

theorem trimEnd_append {v : Text} (hv : allBlank v = true) (text : Text) :
    trimEnd (text ++ v) = trimEnd text := by
  have hrev : allBlank v.reverse = true := by simpa [allBlank] using hv
  rw [trimEnd, List.reverse_append, ← trimStart, trimStart_append hrev, trimStart, ← trimEnd]

theorem isBlank_head_trimStart {text rest : Text} {c : Char} (h : trimStart text = c :: rest) :
    isBlank c = false := by
  have hhead := List.head?_dropWhile_not isBlank text
  rw [← trimStart, h] at hhead
  simpa using hhead

theorem trimStart_of_head {text rest : Text} {c : Char} (h : text = c :: rest)
    (hc : isBlank c = false) : trimStart text = text := by
  rw [h, trimStart, List.dropWhile_cons_of_neg (by simp [hc])]

theorem trimStart_eq_nil {text : Text} : trimStart text = [] ↔ allBlank text = true := by
  simp [trimStart, allBlank, List.dropWhile_eq_nil_iff]

theorem trimEnd_eq_nil {text : Text} : trimEnd text = [] ↔ allBlank text = true := by
  simp [trimEnd, allBlank, List.dropWhile_eq_nil_iff]

theorem allBlank_trimStart {text : Text} :
    allBlank (trimStart text) = true ↔ allBlank text = true := by
  obtain ⟨u, hu, h⟩ := trimStart_spec text
  conv_rhs => rw [h, allBlank_append]
  simp [hu]

theorem trim_eq_nil {text : Text} : trim text = [] ↔ allBlank text = true := by
  rw [trim, trimEnd_eq_nil, allBlank_trimStart]

theorem trimEnd_of_getLast {text : Text} {c : Char} (h : text.getLast? = some c)
    (hc : isBlank c = false) : trimEnd text = text := by
  rw [← List.head?_reverse] at h
  obtain ⟨rest, hrest⟩ := List.head?_eq_some_iff.1 h
  rw [trimEnd, ← trimStart, trimStart_of_head hrest hc, List.reverse_reverse]

theorem trimEnd_append_cons {c : Char} (hc : isBlank c = false) (x y : Text) :
    trimEnd (x ++ c :: y) = x ++ c :: trimEnd y := by
  rw [trimEnd, trimEnd, List.reverse_append, List.reverse_cons, List.append_assoc,
    List.dropWhile_append]
  split_ifs with h
  · rw [List.isEmpty_iff.1 h]
    simp [hc]
  · simp

theorem trim_append {u v : Text} (hu : allBlank u = true) (hv : allBlank v = true) (text : Text) :
    trim (u ++ text ++ v) = trim text := by
  rw [trim, List.append_assoc, trimStart_append hu]
  by_cases hblank : allBlank text = true
  · have hboth : allBlank (text ++ v) = true := allBlank_append.2 ⟨hblank, hv⟩
    rw [trimStart_eq_nil.2 hboth, trim, trimStart_eq_nil.2 hblank]
  · obtain ⟨w, hw, htext⟩ := trimStart_spec text
    obtain ⟨c, rest, hc⟩ := List.exists_cons_of_ne_nil (mt trimStart_eq_nil.1 hblank)
    have hhead : trimStart (trimStart text ++ v) = trimStart text ++ v :=
      trimStart_of_head (by rw [hc, List.cons_append]) (isBlank_head_trimStart hc)
    conv_lhs => rw [htext, List.append_assoc, trimStart_append hw, hhead]
    rw [trimEnd_append hv, trim]

theorem isBlank_head_trim {text rest : Text} {c : Char} (h : trim text = c :: rest) :
    isBlank c = false := by
  obtain ⟨v, -, hend⟩ := trimEnd_spec (trimStart text)
  rw [← trim, h, List.cons_append] at hend
  exact isBlank_head_trimStart hend

theorem mem_trimStart {c : Char} {text : Text} (h : c ∈ trimStart text) : c ∈ text := by
  obtain ⟨u, -, htext⟩ := trimStart_spec text
  rw [htext]
  exact List.mem_append_right u h

theorem mem_trim {c : Char} {text : Text} (h : c ∈ trim text) : c ∈ text := by
  obtain ⟨u, v, -, -, htext⟩ := trim_spec text
  rw [htext]
  exact List.mem_append_left v (List.mem_append_right u h)

/-! ## Words -/

theorem wordsFrom_append_blank {c : Char} (hc : isBlank c = true) (x y : Text) :
    wordsFrom (x ++ c :: y) = ((wordsFrom x).1 ++ words y, (wordsFrom x).2) := by
  induction x with
  | nil => simp [wordsFrom, words, hc]
  | cons d x ih =>
    rw [List.cons_append, wordsFrom, ih, wordsFrom]
    by_cases hd : isBlank d
    · by_cases hword : (wordsFrom x).2 = []
      · simp [hd, hword]
      · simp [hd, hword]
    · simp [hd]

theorem words_append_blank {c : Char} (hc : isBlank c = true) (x y : Text) :
    words (x ++ c :: y) = words x ++ words y := by
  rw [words, wordsFrom_append_blank hc]
  by_cases hword : (wordsFrom x).2 = []
  · simp [words, hword]
  · simp [words, hword]

theorem words_cons_blank {c : Char} (hc : isBlank c = true) (text : Text) :
    words (c :: text) = words text := words_append_blank hc [] text

theorem words_blank_append {u : Text} (hu : allBlank u = true) (text : Text) :
    words (u ++ text) = words text := by
  induction u with
  | nil => rfl
  | cons c u ih =>
    obtain ⟨hc, hu⟩ := List.forall_mem_cons.1 (allBlank_iff.1 hu)
    rw [List.cons_append, words_cons_blank hc, ih (allBlank_iff.2 hu)]

theorem words_append_blanks {v : Text} (hv : allBlank v = true) (text : Text) :
    words (text ++ v) = words text := by
  cases v with
  | nil => rw [List.append_nil]
  | cons c v =>
    obtain ⟨hc, hv⟩ := List.forall_mem_cons.1 (allBlank_iff.1 hv)
    have hnil : words v = [] := by
      simpa [words, wordsFrom] using words_blank_append (allBlank_iff.2 hv) []
    rw [words_append_blank hc, hnil, List.append_nil]

theorem words_eq_nil {text : Text} : words text = [] ↔ allBlank text = true := by
  constructor
  · intro h
    by_contra hblank
    obtain ⟨u, hu, htext⟩ := trimStart_spec text
    obtain ⟨c, rest, hc⟩ := List.exists_cons_of_ne_nil (mt trimStart_eq_nil.1 hblank)
    rw [htext, words_blank_append hu, hc] at h
    simp [words, wordsFrom, isBlank_head_trimStart hc] at h
  · intro h
    simpa [words, wordsFrom] using words_append_blanks h []

theorem words_of_not_blank {text : Text} (hne : text ≠ []) (h : ∀ c ∈ text, isBlank c = false) :
    words text = [text] := by
  have hfrom : wordsFrom text = ([], text) := by
    clear hne
    induction text with
    | nil => rfl
    | cons c rest ih =>
      obtain ⟨hc, hrest⟩ := List.forall_mem_cons.1 h
      simp [wordsFrom, ih hrest, hc]
  simp [words, hfrom, hne]

theorem words_join {pieces : List Text}
    (h : ∀ piece ∈ pieces, piece ≠ [] ∧ ∀ c ∈ piece, isBlank c = false) :
    words (join [' '] pieces) = pieces := by
  induction pieces with
  | nil => rfl
  | cons piece rest ih =>
    obtain ⟨⟨hne, hpiece⟩, hrest⟩ := List.forall_mem_cons.1 h
    cases rest with
    | nil => simpa [join] using words_of_not_blank hne hpiece
    | cons next more =>
      have hjoin : join [' '] (piece :: next :: more) = piece ++ ' ' :: join [' '] (next :: more) := by
        simp [join, List.intercalate_cons_cons]
      rw [hjoin, words_append_blank isBlank_space, words_of_not_blank hne hpiece, ih hrest,
        List.singleton_append]

theorem words_collapse (text : Text) : words (collapse text) = words text :=
  words_join fun _ => mem_words

theorem flatten_words (text : Text) : (words text).flatten = text.filter (! isBlank ·) := by
  have hfrom : (wordsFrom text).2 ++ (wordsFrom text).1.flatten = text.filter (! isBlank ·) := by
    induction text with
    | nil => rfl
    | cons c rest ih =>
      rw [wordsFrom]
      by_cases hc : isBlank c
      · cases hword : (wordsFrom rest).2 <;> simp [hc, hword, ← ih]
      · simp [hc, ← ih]
  rw [words, ← hfrom]
  cases hword : (wordsFrom text).2 <;> simp [hword]

theorem words_trimStart (text : Text) : words (trimStart text) = words text := by
  obtain ⟨u, hu, h⟩ := trimStart_spec text
  conv_rhs => rw [h, words_blank_append hu]

theorem words_trimEnd (text : Text) : words (trimEnd text) = words text := by
  obtain ⟨v, hv, h⟩ := trimEnd_spec text
  conv_rhs => rw [h, words_append_blanks hv]

theorem words_trim (text : Text) : words (trim text) = words text := by
  rw [trim, words_trimEnd, words_trimStart]

end SourceLens.Text
