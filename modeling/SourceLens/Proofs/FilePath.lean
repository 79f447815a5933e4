import Mathlib.Tactic.Common
import SourceLens.FilePath
import SourceLens.Text.Lemmas

/-!
# Paths in normal form

A path that is spelled from the root of a path and components has that root and these components
(`root_spell`, `components_spell`), so it is its own normal form (`normal_spell`).
-/

namespace SourceLens.FilePath

/-- A component that counts. -/
structure IsPart (part : Text) : Prop where
  ne_nil : part ≠ []
  ne_dot : part ≠ ['.']
  slash : '/' ∉ part

theorem isPart_of_mem {path part : Text} (h : part ∈ components path) : IsPart part := by
  obtain ⟨hpiece, hcounts⟩ := List.mem_filter.1 h
  rw [decide_eq_true_eq] at hcounts
  exact ⟨hcounts.1, hcounts.2, Text.not_mem_of_mem_splitOn hpiece⟩

theorem components_slash (path : Text) : components ('/' :: path) = components path := by
  rw [components, Text.splitOn, if_pos rfl, List.filter_cons_of_neg (by simp), ← components]

theorem spell_eq (root : Text) (parts : List Text) :
    spell root parts = if (root ++ Text.join ['/'] parts).isEmpty then ['.']
      else root ++ Text.join ['/'] parts := rfl

section Spelling

variable {path : Text} {parts : List Text}

theorem components_join (h : ∀ part ∈ parts, IsPart part) :
    components (Text.join ['/'] parts) = parts := by
  by_cases hnone : parts = []
  · rw [hnone]
    rfl
  · rw [components, Text.splitOn_join hnone fun part hpart => (h part hpart).slash]
    refine List.filter_eq_self.2 fun part hpart => ?_
    exact decide_eq_true ⟨(h part hpart).ne_nil, (h part hpart).ne_dot⟩

theorem head?_join_ne (h : ∀ part ∈ parts, IsPart part) :
    (Text.join ['/'] parts).head? ≠ some '/' := by
  cases parts with
  | nil => simp [Text.join]
  | cons first rest =>
    have hfirst := h first List.mem_cons_self
    obtain ⟨c, name, rfl⟩ := List.exists_cons_of_ne_nil hfirst.ne_nil
    have hhead : (Text.join ['/'] ((c :: name) :: rest)).head? = some c := by
      cases rest <;> rfl
    rw [hhead]
    rintro hc
    obtain rfl := Option.some.inj hc
    exact hfirst.slash List.mem_cons_self

theorem root_cases (path : Text) : root path = [] ∨ root path = ['/'] ∨ root path = ['/', '/'] := by
  unfold root
  split
  · exact .inr (.inl rfl)
  · exact .inr (.inr rfl)
  · exact .inr (.inl rfl)
  · exact .inl rfl

theorem root_append {rest : Text} (h : rest.head? ≠ some '/') :
    root (root path ++ rest) = root path := by
  cases rest with
  | nil => rcases root_cases path with hroot | hroot | hroot <;> rw [hroot] <;> rfl
  | cons c tail =>
    have hc : c ≠ '/' := fun hc => h (congrArg some hc)
    rcases root_cases path with hroot | hroot | hroot <;> rw [hroot] <;> simp [root, hc]

theorem components_append (path rest : Text) :
    components (root path ++ rest) = components rest := by
  rcases root_cases path with hroot | hroot | hroot <;> rw [hroot]
  · rfl
  · exact components_slash rest
  · exact (components_slash ('/' :: rest)).trans (components_slash rest)

theorem root_spell (h : ∀ part ∈ parts, IsPart part) :
    root (spell (root path) parts) = root path := by
  have hroot : root (root path ++ Text.join ['/'] parts) = root path :=
    root_append (head?_join_ne h)
  rw [spell_eq]
  split_ifs with hempty
  · rw [List.isEmpty_iff.1 hempty] at hroot
    exact hroot
  · exact hroot

theorem components_spell (h : ∀ part ∈ parts, IsPart part) :
    components (spell (root path) parts) = parts := by
  have hparts := (components_append path _).trans (components_join h)
  rw [spell_eq]
  split_ifs with hempty
  · rw [List.isEmpty_iff.1 hempty] at hparts
    exact hparts
  · exact hparts

theorem normal_spell (h : ∀ part ∈ parts, IsPart part) :
    normal (spell (root path) parts) = spell (root path) parts := by
  rw [normal, root_spell h, components_spell h]

end Spelling

theorem normal_normal (path : Text) : normal (normal path) = normal path :=
  normal_spell fun _ => isPart_of_mem

end SourceLens.FilePath
