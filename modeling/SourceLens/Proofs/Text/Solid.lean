import SourceLens.Proofs.Text.Lines
import SourceLens.Proofs.Text.Blanks

/-!
# Characters that layout leaves alone

Trimming, collapsing, indenting and joining lines put in and take out nothing but blanks, so the
characters of a class without blanks stay, each once and in order.
-/

namespace SourceLens.Text

/-- Whether a class of characters holds no blank. -/
def Solid (keep : Char → Bool) : Prop := ∀ c, isBlank c = true → keep c = false

theorem filter_dropWhile {keep drop : Char → Bool} (h : ∀ c, drop c = true → keep c = false)
    (text : Text) : (text.dropWhile drop).filter keep = text.filter keep := by
  have hfront : (text.takeWhile drop).filter keep = [] := by
    rw [List.filter_eq_nil_iff]
    intro c hc
    rw [h c (List.mem_takeWhile_imp hc)]
    exact Bool.false_ne_true
  conv_rhs => rw [← List.takeWhile_append_dropWhile (p := drop) (l := text), List.filter_append, hfront]
  rfl

theorem filter_dropWhile_reverse {keep drop : Char → Bool} (h : ∀ c, drop c = true → keep c = false)
    (text : Text) : ((text.reverse.dropWhile drop).reverse).filter keep = text.filter keep := by
  rw [List.filter_reverse, filter_dropWhile h, List.filter_reverse, List.reverse_reverse]

theorem filter_trimBy {keep drop : Char → Bool} (h : ∀ c, drop c = true → keep c = false)
    (text : Text) : (trimBy drop text).filter keep = text.filter keep := by
  rw [trimBy, filter_dropWhile_reverse h, filter_dropWhile h]

theorem filter_unlines {keep : Char → Bool} (h : keep '\n' = false) (pieces : List Text) :
    (unlines pieces).filter keep = pieces.flatMap (·.filter keep) := by
  induction pieces with
  | nil => rfl
  | cons line rest ih =>
    by_cases hrest : rest = []
    · simp [hrest, unlines, join]
    · rw [unlines_cons line hrest, List.filter_append, List.filter_cons, h, if_neg Bool.false_ne_true,
        ih, List.flatMap_cons]

theorem flatMap_filter_lines {keep : Char → Bool} (h : keep '\n' = false) (text : Text) :
    (lines text).flatMap (·.filter keep) = text.filter keep := by
  rw [← filter_unlines h, unlines_lines]

theorem filter_join {keep : Char → Bool} {sep : Text} (h : sep.filter keep = []) (pieces : List Text) :
    (join sep pieces).filter keep = pieces.flatMap (·.filter keep) := by
  induction pieces with
  | nil => rfl
  | cons piece rest ih =>
    cases rest with
    | nil => simp [join]
    | cons next more =>
      rw [join] at ih ⊢
      rw [List.intercalate_cons_cons, List.filter_append, List.filter_append, h, ih,
        List.append_nil, List.flatMap_cons (x := piece)]

namespace Solid

variable {keep : Char → Bool}

theorem filter_eq_nil (h : Solid keep) {text : Text} (hblank : allBlank text = true) :
    text.filter keep = [] := by
  rw [List.filter_eq_nil_iff]
  intro c hc
  rw [h c (allBlank_iff.1 hblank c hc)]
  exact Bool.false_ne_true

theorem filter_spaces (h : Solid keep) (n : Nat) : (spaces n).filter keep = [] :=
  h.filter_eq_nil (allBlank_spaces n)

theorem filter_trimEnd (h : Solid keep) (text : Text) :
    (trimEnd text).filter keep = text.filter keep := filter_dropWhile_reverse h text

theorem filter_trim (h : Solid keep) (text : Text) : (trim text).filter keep = text.filter keep := by
  rw [trim, h.filter_trimEnd]
  exact filter_dropWhile h text

theorem filter_join_spaces (h : Solid keep) (n : Nat) (pieces : List Text) :
    (join (spaces n) pieces).filter keep = pieces.flatMap (·.filter keep) :=
  filter_join (h.filter_spaces n) pieces

theorem filter_collapse (h : Solid keep) (text : Text) :
    (collapse text).filter keep = text.filter keep := by
  have hwords : (collapse text).filter keep = (words text).flatten.filter keep := by
    rw [List.filter_flatten, ← List.flatMap_def]
    exact h.filter_join_spaces 1 (words text)
  rw [hwords, flatten_words, List.filter_filter]
  apply List.filter_congr
  intro c _
  cases hc : isBlank c with
  | false => simp
  | true => simp [h c hc]

end Solid

end SourceLens.Text
