import SourceLens.Text.Basic

/-!
# Cutting and joining

Cutting a text at a separator and joining the pieces undo each other, pieces hold no separator and
words no blank.
-/

namespace SourceLens.Text

theorem splitOn_ne_nil (sep : Char) (text : Text) : splitOn sep text ≠ [] := by
  cases text with
  | nil => simp [splitOn]
  | cons c rest =>
    rw [splitOn]
    split
    · simp
    · split <;> simp

theorem join_splitOn (sep : Char) (text : Text) : join [sep] (splitOn sep text) = text := by
  induction text with
  | nil => rfl
  | cons c rest ih =>
    obtain ⟨piece, pieces, h⟩ := List.exists_cons_of_ne_nil (splitOn_ne_nil sep rest)
    rw [splitOn]
    rw [h] at ih ⊢
    by_cases hc : c = sep
    · rw [if_pos hc, join, List.intercalate_cons_cons]
      rw [join] at ih
      simp [ih, hc]
    · rw [if_neg hc]
      rw [join] at ih ⊢
      cases pieces with
      | nil => simpa using ih
      | cons next more =>
        rw [List.intercalate_cons_cons] at ih ⊢
        simpa using ih

theorem unlines_lines (text : Text) : unlines (lines text) = text := join_splitOn '\n' text

theorem splitOn_of_not_mem {sep : Char} {text : Text} (h : sep ∉ text) :
    splitOn sep text = [text] := by
  induction text with
  | nil => rfl
  | cons c rest ih =>
    obtain ⟨hc, hrest⟩ := not_or.1 (mt List.mem_cons.2 h)
    rw [splitOn, if_neg (Ne.symm hc), ih hrest]

theorem splitOn_append_cons {sep : Char} {head : Text} (h : sep ∉ head) (rest : Text) :
    splitOn sep (head ++ sep :: rest) = head :: splitOn sep rest := by
  induction head with
  | nil => simp [splitOn]
  | cons c head ih =>
    obtain ⟨hc, hhead⟩ := not_or.1 (mt List.mem_cons.2 h)
    rw [List.cons_append, splitOn, if_neg (Ne.symm hc), ih hhead]

theorem not_mem_of_mem_splitOn {sep : Char} {text piece : Text} (h : piece ∈ splitOn sep text) :
    sep ∉ piece := by
  induction text generalizing piece with
  | nil => simp_all [splitOn]
  | cons c rest ih =>
    obtain ⟨first, pieces, hs⟩ := List.exists_cons_of_ne_nil (splitOn_ne_nil sep rest)
    rw [splitOn] at h
    rw [hs] at h ih
    by_cases hc : c = sep
    · rw [if_pos hc] at h
      rcases List.mem_cons.1 h with rfl | h
      · simp
      · exact ih h
    · rw [if_neg hc] at h
      rcases List.mem_cons.1 h with rfl | h
      · exact fun hmem => (List.mem_cons.1 hmem).elim (fun e => hc e.symm) (ih List.mem_cons_self)
      · exact ih (List.mem_cons_of_mem _ h)

theorem splitOn_join {sep : Char} {pieces : List Text} (hne : pieces ≠ [])
    (h : ∀ piece ∈ pieces, sep ∉ piece) : splitOn sep (join [sep] pieces) = pieces := by
  induction pieces with
  | nil => exact absurd rfl hne
  | cons piece rest ih =>
    have hpiece := h piece List.mem_cons_self
    cases rest with
    | nil => simpa [join] using splitOn_of_not_mem hpiece
    | cons next more =>
      have hrest := ih (by simp) fun p hp => h p (List.mem_cons_of_mem _ hp)
      rw [join, List.intercalate_cons_cons, List.append_assoc, List.singleton_append,
        splitOn_append_cons hpiece]
      rw [join] at hrest
      rw [hrest]

theorem length_splitOn (sep : Char) (text : Text) :
    (splitOn sep text).length = text.count sep + 1 := by
  induction text with
  | nil => rfl
  | cons c rest ih =>
    obtain ⟨first, pieces, hs⟩ := List.exists_cons_of_ne_nil (splitOn_ne_nil sep rest)
    rw [splitOn]
    rw [hs] at ih ⊢
    by_cases hc : c = sep
    · simp [hc] at ih ⊢
      omega
    · simp [hc] at ih ⊢
      omega

theorem wordsFrom_not_blank (text : Text) :
    (∀ word ∈ (wordsFrom text).1, word ≠ [] ∧ ∀ c ∈ word, isBlank c = false)
      ∧ ∀ c ∈ (wordsFrom text).2, isBlank c = false := by
  induction text with
  | nil => simp [wordsFrom]
  | cons c rest ih =>
    obtain ⟨hlater, hword⟩ := ih
    rw [wordsFrom]
    by_cases hc : isBlank c
    · refine ⟨fun word hmem => ?_, by simp [hc]⟩
      by_cases he : (wordsFrom rest).2 = []
      · exact hlater word (by simpa [hc, he] using hmem)
      · have hmem' : word = (wordsFrom rest).2 ∨ word ∈ (wordsFrom rest).1 := by
          simpa [hc, he] using hmem
        rcases hmem' with rfl | hmem'
        · exact ⟨he, hword⟩
        · exact hlater word hmem'
    · refine ⟨fun word hmem => hlater word (by simpa [hc] using hmem), fun d hd => ?_⟩
      have hd' : d = c ∨ d ∈ (wordsFrom rest).2 := by simpa [hc] using hd
      rcases hd' with rfl | hd'
      · simpa using hc
      · exact hword d hd'

theorem mem_words {text word : Text} (h : word ∈ words text) :
    word ≠ [] ∧ ∀ c ∈ word, isBlank c = false := by
  obtain ⟨hlater, hword⟩ := wordsFrom_not_blank text
  rw [words] at h
  by_cases he : (wordsFrom text).2 = []
  · exact hlater word (by simpa [he] using h)
  · have h' : word = (wordsFrom text).2 ∨ word ∈ (wordsFrom text).1 := by simpa [he] using h
    rcases h' with rfl | h'
    · exact ⟨he, hword⟩
    · exact hlater word h'

end SourceLens.Text
