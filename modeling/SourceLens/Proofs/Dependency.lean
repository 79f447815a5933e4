import Mathlib.Tactic.Common
import SourceLens.Descriptor.Basic
import SourceLens.Text.Lemmas

/-!
# Requested dependencies

A dependency is to be injected exactly if it is requested, not present, and its statement does not
occur in the text (`mem_toInject`); each is injected once, in the order of the requests
(`toInject_eq`).
-/

namespace SourceLens.Text

theorem occursIn_iff {needle text : Text} : occursIn needle text = true ↔ needle <:+: text := by
  rw [occursIn]
  induction text with
  | nil => cases needle <;> simp [find?]
  | cons c rest ih =>
    rw [find?, List.infix_cons_iff, ← List.isPrefixOf_iff_prefix]
    split_ifs with hstart
    · simp [hstart]
    · simp [hstart, ih]

end SourceLens.Text

namespace SourceLens.Dependency

theorem mem_missing {dep : Text} {present requested : List Text} :
    dep ∈ missing present requested ↔ dep ∈ requested ∧ dep ∉ present := by
  induction requested generalizing present with
  | nil => simp [missing]
  | cons first rest ih =>
    rw [missing]
    by_cases hfirst : first ∈ present
    · rw [if_pos (by simpa using hfirst), ih, List.mem_cons]
      constructor
      · exact fun ⟨hmem, hnot⟩ => ⟨.inr hmem, hnot⟩
      · rintro ⟨rfl | hmem, hnot⟩
        · exact absurd hfirst hnot
        · exact ⟨hmem, hnot⟩
    · rw [if_neg (by simpa using hfirst), List.mem_cons, ih, List.mem_cons]
      by_cases hdep : dep = first
      · simp [hdep, hfirst]
      · simp [hdep]

theorem nodup_missing (present requested : List Text) : (missing present requested).Nodup := by
  induction requested generalizing present with
  | nil => exact List.nodup_nil
  | cons first rest ih =>
    rw [missing]
    split_ifs
    · exact ih present
    · refine List.nodup_cons.2 ⟨fun hmem => ?_, ih _⟩
      exact (mem_missing.1 hmem).2 List.mem_cons_self

theorem nodup_toInject (statement : Text → Text) (text : Text) (requested present : List Text) :
    (toInject statement text requested present).Nodup := (nodup_missing present requested).filter _

theorem mem_toInject {statement : Text → Text} {text dep : Text} {requested present : List Text} :
    dep ∈ toInject statement text requested present
      ↔ dep ∈ requested ∧ dep ∉ present ∧ ¬statement dep <:+: text := by
  rw [toInject, List.mem_filter, mem_missing, and_assoc, ← Text.occursIn_iff]
  simp

theorem toInject_eq_nil {statement : Text → Text} {text : Text} {requested present : List Text} :
    toInject statement text requested present = []
      ↔ ∀ dep ∈ requested, dep ∈ present ∨ statement dep <:+: text := by
  rw [List.eq_nil_iff_forall_not_mem]
  simp only [mem_toInject, not_and, not_not, or_iff_not_imp_left]

/-- Nothing is left to inject into a text that still has what was present and every statement, the
new ones among them. -/
theorem toInject_again {statement : Text → Text} (text : Text) {result : Text}
    {requested present present' : List Text} (hpresent : ∀ dep ∈ present, dep ∈ present')
    (hstands : ∀ dep ∈ requested, statement dep <:+: text → statement dep <:+: result)
    (hnew : ∀ dep ∈ toInject statement text requested present, statement dep <:+: result) :
    toInject statement result requested present' = [] := by
  rw [toInject_eq_nil]
  intro dep hdep
  by_cases hexists : dep ∈ present
  · exact .inl (hpresent dep hexists)
  · right
    by_cases hstatement : statement dep <:+: text
    · exact hstands dep hdep hstatement
    · exact hnew dep (mem_toInject.2 ⟨hdep, hexists, hstatement⟩)

/-! ## Requests in order -/

theorem missing_congr {present present' : List Text} (h : ∀ dep, dep ∈ present ↔ dep ∈ present')
    (requested : List Text) : missing present requested = missing present' requested := by
  induction requested generalizing present present' with
  | nil => rfl
  | cons first rest ih =>
    have hfirst : present.contains first = present'.contains first := by
      rw [Bool.eq_iff_iff, List.contains_iff_mem, List.contains_iff_mem, h]
    have hmore : ∀ dep, dep ∈ first :: present ↔ dep ∈ first :: present' := by
      simp only [List.mem_cons, h, implies_true]
    rw [missing, missing, hfirst, ih h, ih hmore]

theorem missing_append (seen present requested : List Text) :
    missing (seen ++ present) requested
      = (missing seen requested).filter fun dep => !present.contains dep := by
  induction requested generalizing seen with
  | nil => rfl
  | cons first rest ih =>
    rw [missing, missing]
    by_cases hseen : first ∈ seen
    · rw [if_pos (by simp [hseen]), if_pos (by simp [hseen]), ih]
    · rw [if_neg (c := seen.contains first = true) (by simpa using hseen), List.filter_cons,
        ← ih (first :: seen)]
      by_cases hpresent : first ∈ present
      · rw [if_pos (by simp [hpresent]), if_neg (by simp [hpresent])]
        exact missing_congr (by simp +contextual [hpresent]) rest
      · rw [if_neg (by simp [hseen, hpresent]), if_pos (by simp [hpresent])]
        rfl

theorem distinct_eq_missing (items : List Text) : Text.distinct items = missing [] items := by
  have hfrom (seen items : List Text) :
      items.foldl (fun seen item => if seen.contains item then seen else seen ++ [item]) seen
        = seen ++ missing seen items := by
    induction items generalizing seen with
    | nil => simp [missing]
    | cons item rest ih =>
      rw [List.foldl_cons, ih, missing]
      split_ifs with hseen
      · rfl
      · have hmore : ∀ dep, dep ∈ seen ++ [item] ↔ dep ∈ item :: seen := by simp [or_comm]
        rw [List.append_assoc, List.singleton_append, missing_congr hmore]
  exact hfrom [] items

/-- What is to be injected: each request once, in order, without what is present and what stands in
the text. -/
theorem toInject_eq (statement : Text → Text) (text : Text) (requested present : List Text) :
    toInject statement text requested present
      = (Text.distinct requested).filter fun dep =>
          !present.contains dep && !Text.occursIn (statement dep) text := by
  rw [toInject, ← List.nil_append present, missing_append, List.filter_filter,
    distinct_eq_missing, List.nil_append]
  simp only [Bool.and_comm]

end SourceLens.Dependency
