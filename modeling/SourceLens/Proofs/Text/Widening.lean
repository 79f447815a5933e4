import SourceLens.Proofs.Text.Blanks
import SourceLens.Text.Tabs

/-!
# Widening

`Widens a b`: the text `b` is `a` with some of its tabs replaced by one or more spaces each. This is
what replacing tabs by spaces does, wherever the tab stops stand, and all that later lemmas ask of
it: the words are the same, both texts are cut at the same characters, and trimming keeps the
relation.
-/

namespace SourceLens.Text

/-- The second text is the first one with some tabs replaced by spaces. -/
inductive Widens : Text → Text → Prop
  | nil : Widens [] []
  | keep (c : Char) {a b : Text} : Widens a b → Widens (c :: a) (c :: b)
  | tab (n : Nat) {a b : Text} : Widens a b → Widens ('\t' :: a) (spaces (n + 1) ++ b)

namespace Widens

theorem refl (text : Text) : Widens text text := by
  induction text with
  | nil => exact .nil
  | cons c text ih => exact ih.keep c

theorem append {a b x y : Text} (h : Widens a b) (hx : Widens x y) : Widens (a ++ x) (b ++ y) := by
  induction h with
  | nil => exact hx
  | keep c _ ih => exact ih.keep c
  | tab n _ ih =>
    rw [List.append_assoc]
    exact ih.tab n

theorem reverse {a b : Text} (h : Widens a b) : Widens a.reverse b.reverse := by
  induction h with
  | nil => exact .nil
  | keep c _ ih =>
    rw [List.reverse_cons, List.reverse_cons]
    exact ih.append (refl [c])
  | tab n _ ih =>
    have hspaces : (spaces (n + 1)).reverse = spaces (n + 1) := List.reverse_replicate
    have hlast : Widens ['\t'] (spaces (n + 1)) := by simpa using Widens.nil.tab n
    rw [List.reverse_cons, List.reverse_append, hspaces]
    exact ih.append hlast

theorem expandTabsFrom (column : Nat) (text : Text) : Widens text (expandTabsFrom column text) := by
  fun_induction Text.expandTabsFrom column text with
  | case1 => exact .nil
  | case2 column rest gap ih =>
    have hgap : gap - 1 + 1 = gap := by
      have : column % tabWidth < tabWidth := Nat.mod_lt _ (by decide)
      omega
    simpa only [hgap] using ih.tab (gap - 1)
  | case3 column c rest hc hb ih => exact ih.keep c
  | case4 column c rest hc hb ih => exact ih.keep c

theorem expandTabs (text : Text) : Widens text (expandTabs text) := expandTabsFrom 0 text

theorem eq_nil_iff {a b : Text} (h : Widens a b) : a = [] ↔ b = [] := by
  cases h <;> simp [spaces]

theorem wordsFrom_eq {a b : Text} (h : Widens a b) : wordsFrom a = wordsFrom b := by
  induction h with
  | nil => rfl
  | keep c _ ih => rw [wordsFrom, wordsFrom, ih]
  | tab n _ ih =>
    have hblank (c : Char) (hc : isBlank c = true) (text : Text) :
        wordsFrom (c :: text) = (words text, []) := by
      simpa [wordsFrom] using wordsFrom_append_blank hc [] text
    rw [spaces, List.replicate_succ, List.cons_append, hblank _ (by decide), hblank _ (by decide),
      ← spaces, words_blank_append (allBlank_spaces n), words, words, ih]

theorem words_eq {a b : Text} (h : Widens a b) : words a = words b := by
  rw [words, words, h.wordsFrom_eq]

theorem collapse_eq {a b : Text} (h : Widens a b) : collapse a = collapse b := by
  rw [collapse, collapse, h.words_eq]

theorem filter_eq {a b : Text} (h : Widens a b) (keep : Char → Bool) (htab : keep '\t' = false)
    (hspace : keep ' ' = false) : a.filter keep = b.filter keep := by
  induction h with
  | nil => rfl
  | keep c _ ih => rw [List.filter_cons, List.filter_cons, ih]
  | tab n _ ih =>
    have hnone : (spaces (n + 1)).filter keep = [] := by simp [spaces, hspace]
    rw [List.filter_cons, if_neg (by simp [htab]), List.filter_append, hnone, List.nil_append, ih]

theorem allBlank_eq {a b : Text} (h : Widens a b) : allBlank a = allBlank b := by
  have hfilter := h.filter_eq (fun c => !isBlank c) (by decide) (by decide)
  have hiff (text : Text) : allBlank text = true ↔ text.filter (fun c => !isBlank c) = [] := by
    simp [allBlank]
  rw [Bool.eq_iff_iff, hiff, hiff, hfilter]

theorem trimStart {a b : Text} (h : Widens a b) : Widens (trimStart a) (trimStart b) := by
  induction h with
  | nil => exact .nil
  | keep c hrest ih =>
    by_cases hc : isBlank c
    · simpa [Text.trimStart, hc] using ih
    · simpa [Text.trimStart, hc] using hrest.keep c
  | tab n _ ih =>
    rw [trimStart_append (allBlank_spaces _)]
    simpa [Text.trimStart] using ih

theorem trimEnd {a b : Text} (h : Widens a b) : Widens (trimEnd a) (trimEnd b) :=
  h.reverse.trimStart.reverse

theorem trim {a b : Text} (h : Widens a b) : Widens (trim a) (trim b) := h.trimStart.trimEnd

/-! ## Cutting both texts at one place -/

theorem of_append {x y b : Text} (h : Widens (x ++ y) b) :
    ∃ x' y', b = x' ++ y' ∧ Widens x x' ∧ Widens y y' := by
  induction x generalizing b with
  | nil => exact ⟨[], b, rfl, .nil, h⟩
  | cons c x ih =>
    rw [List.cons_append] at h
    cases h with
    | keep _ hrest =>
      obtain ⟨x', y', rfl, hx, hy⟩ := ih hrest
      exact ⟨c :: x', y', rfl, hx.keep c, hy⟩
    | tab n hrest =>
      obtain ⟨x', y', rfl, hx, hy⟩ := ih hrest
      exact ⟨spaces (n + 1) ++ x', y', by rw [List.append_assoc], hx.tab n, hy⟩

theorem of_cons {c : Char} (hc : c ≠ '\t') {a b : Text} (h : Widens (c :: a) b) :
    ∃ b', b = c :: b' ∧ Widens a b' := by
  cases h with
  | keep _ hrest => exact ⟨_, rfl, hrest⟩
  | tab n hrest => exact absurd rfl hc

theorem cut_of_append_cons {c : Char} (hc : c ≠ ' ') {a x y : Text} (h : Widens a (x ++ c :: y)) :
    ∃ x' y', a = x' ++ c :: y' ∧ Widens x' x ∧ Widens y' y := by
  generalize hb : x ++ c :: y = b at h
  induction h generalizing x with
  | nil => simp at hb
  | @keep d a b hrest ih =>
    cases x with
    | nil =>
      obtain ⟨rfl, rfl⟩ := List.cons.inj hb
      exact ⟨[], a, rfl, .nil, hrest⟩
    | cons e x =>
      obtain ⟨rfl, htail⟩ := List.cons.inj hb
      obtain ⟨x', y', rfl, hx, hy⟩ := ih htail
      exact ⟨e :: x', y', rfl, hx.keep e, hy⟩
  | @tab n a b hrest ih =>
    -- the cut lies behind the spaces
    have hlong : spaces (n + 1) <+: x := by
      have hspaces : spaces (n + 1) <+: x ++ c :: y := ⟨b, hb.symm⟩
      rcases List.prefix_or_prefix_of_prefix hspaces (List.prefix_append x _) with h | ⟨t, ht⟩
      · exact h
      · cases t with
        | nil => exact ⟨[], by simpa using ht.symm⟩
        | cons e t =>
          rw [← ht, List.append_assoc] at hb
          obtain ⟨rfl, -⟩ := List.cons.inj (List.append_cancel_left hb)
          have hmem : c ∈ spaces (n + 1) := ht ▸ by simp
          exact absurd (List.eq_of_mem_replicate hmem) hc
    obtain ⟨x₀, rfl⟩ := hlong
    rw [List.append_assoc] at hb
    obtain ⟨x', y', rfl, hx, hy⟩ := ih (List.append_cancel_left hb)
    exact ⟨'\t' :: x', y', rfl, hx.tab n, hy⟩

theorem of_cons_right {c : Char} (hc : c ≠ ' ') {a y : Text} (h : Widens a (c :: y)) :
    ∃ y', a = c :: y' ∧ Widens y' y := by
  obtain ⟨x', y', rfl, hx, hy⟩ := cut_of_append_cons (x := []) hc h
  obtain rfl := hx.eq_nil_iff.2 rfl
  exact ⟨y', rfl, hy⟩

theorem getLast?_eq_iff {a b : Text} (h : Widens a b) {c : Char} (htab : c ≠ '\t')
    (hspace : c ≠ ' ') : a.getLast? = some c ↔ b.getLast? = some c := by
  rw [← List.head?_reverse, ← List.head?_reverse, List.head?_eq_some_iff, List.head?_eq_some_iff]
  constructor
  · rintro ⟨a', ha⟩
    obtain ⟨b', hb, -⟩ := of_cons htab (ha ▸ h.reverse)
    exact ⟨b', hb⟩
  · rintro ⟨b', hb⟩
    obtain ⟨a', ha, -⟩ := of_cons_right hspace (hb ▸ h.reverse)
    exact ⟨a', ha⟩

theorem dropLast {a b : Text} (h : Widens a b) {c : Char} (htab : c ≠ '\t')
    (hlast : a.getLast? = some c) : Widens a.dropLast b.dropLast := by
  rw [← List.head?_reverse] at hlast
  obtain ⟨a', ha⟩ := List.head?_eq_some_iff.1 hlast
  obtain ⟨b', hb, hrest⟩ := of_cons htab (ha ▸ h.reverse)
  have ha' : a = a'.reverse ++ [c] := by simpa using congrArg List.reverse ha
  have hb' : b = b'.reverse ++ [c] := by simpa using congrArg List.reverse hb
  rw [ha', hb', List.dropLast_concat, List.dropLast_concat]
  exact hrest.reverse

end Widens

end SourceLens.Text
