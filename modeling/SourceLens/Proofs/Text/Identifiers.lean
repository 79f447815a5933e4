import Mathlib.Tactic.Common
import SourceLens.Text.Identifier
import SourceLens.Text.Lemmas
import SourceLens.Text.Word

/-!
# Dotted names

A dotted name is not empty, and its characters are no blanks. Nor are the characters of words.
-/

namespace SourceLens.Text

/-- Identifiers with dots between them. -/
def isDottedIdentifier (dep : Text) : Bool := (splitOn '.' dep).all isIdentifier

def isIdentifierChar (c : Char) : Bool :=
  c == '.' || identifierStartTable.contains c.toNat || identifierContinueTable.contains c.toNat

theorem mem_splitOn (sep : Char) {c : Char} {text : Text} (h : c ∈ text) :
    c = sep ∨ ∃ piece ∈ splitOn sep text, c ∈ piece := by
  induction text with
  | nil => simp at h
  | cons d rest ih =>
    obtain ⟨piece, pieces, hrest⟩ := List.exists_cons_of_ne_nil (splitOn_ne_nil sep rest)
    rw [splitOn]
    rw [hrest] at ih ⊢
    by_cases hd : d = sep
    · rw [if_pos hd]
      rcases List.mem_cons.1 h with rfl | h
      · exact .inl hd
      · obtain hsep | ⟨other, hother, hc⟩ := ih h
        · exact .inl hsep
        · exact .inr ⟨other, List.mem_cons_of_mem _ hother, hc⟩
    · rw [if_neg hd]
      rcases List.mem_cons.1 h with rfl | h
      · exact .inr ⟨c :: piece, List.mem_cons_self, List.mem_cons_self⟩
      · obtain hsep | ⟨other, hother, hc⟩ := ih h
        · exact .inl hsep
        · rcases List.mem_cons.1 hother with rfl | hother
          · exact .inr ⟨d :: other, List.mem_cons_self, List.mem_cons_of_mem _ hc⟩
          · exact .inr ⟨other, List.mem_cons_of_mem _ hother, hc⟩

theorem isIdentifierChar_of_mem {dep : Text} (h : isDottedIdentifier dep = true) {c : Char}
    (hc : c ∈ dep) : isIdentifierChar c = true := by
  obtain rfl | ⟨piece, hpiece, hc⟩ := mem_splitOn '.' hc
  · rfl
  · have hid := List.all_eq_true.1 h piece hpiece
    cases piece with
    | nil => simp at hc
    | cons first rest =>
      rw [isIdentifier, Bool.and_eq_true] at hid
      rcases List.mem_cons.1 hc with rfl | hc
      · simp [isIdentifierChar, hid.1]
      · have hrest := List.all_eq_true.1 hid.2 c hc
        simp [isIdentifierChar, hrest]

theorem ne_nil_of_isDottedIdentifier {dep : Text} (h : isDottedIdentifier dep = true) : dep ≠ [] := by
  rintro rfl
  simp [isDottedIdentifier, splitOn, isIdentifier] at h

theorem mem_of_contains {table : CharTable} {n : Nat} (h : table.contains n = true) :
    n ∈ table.flatMap fun range => List.range' range.1 (range.2 + 1 - range.1) := by
  induction table with
  | nil => simp [CharTable.contains] at h
  | cons range rest ih =>
    obtain ⟨lo, hi⟩ := range
    rw [CharTable.contains] at h
    split_ifs at h with hlo
    rw [List.flatMap_cons, List.mem_append, List.mem_range'_1]
    rcases Bool.or_eq_true_iff.1 h with hhi | hrest
    · have := of_decide_eq_true hhi
      exact .inl ⟨by omega, by omega⟩
    · exact .inr (ih hrest)

theorem not_isBlank_of_isIdentifierChar {c : Char} (h : isIdentifierChar c = true) :
    isBlank c = false := by
  have hblank : ∀ n ∈ blankTable.flatMap fun range => List.range' range.1 (range.2 + 1 - range.1),
      n ≠ '.'.toNat ∧ identifierStartTable.contains n = false
        ∧ identifierContinueTable.contains n = false := by decide +kernel
  by_contra hc
  obtain ⟨hdot, hstart, hcontinue⟩ := hblank c.toNat (mem_of_contains (by simpa [isBlank] using hc))
  have hne : c ≠ '.' := by
    rintro rfl
    exact hdot rfl
  simp [isIdentifierChar, hstart, hcontinue, hne] at h

theorem not_isBlank_of_isWord {c : Char} (h : isWord c = true) : isBlank c = false := by
  have hblank : ∀ n ∈ blankTable.flatMap fun range => List.range' range.1 (range.2 + 1 - range.1),
      wordTable.contains n = false := by decide +kernel
  by_contra hc
  rw [isWord, hblank c.toNat (mem_of_contains (by simpa [isBlank] using hc))] at h
  exact absurd h (by simp)

end SourceLens.Text
