import SourceLens.Proofs.Data.Merging

/-!
# Tidy mappings

A mapping is tidy if it holds every key once, and so do the mappings under its keys (`Tidy`). Making
a mapping from a list of entries makes it tidy if the mappings among the values are
(`PartsDistinct.ofList`).
-/

namespace SourceLens

theorem map_eq_ok {ε α β : Type} {result : Except ε α} {f : α → β} {y : β} :
    result.map f = .ok y ↔ ∃ x, result = .ok x ∧ f x = y := by
  cases result <;> simp [Except.map]

theorem map_eq_error {ε α β : Type} {result : Except ε α} {f : α → β} {e : ε} :
    result.map f = .error e ↔ result = .error e := by
  cases result <;> simp [Except.map]

theorem bind_eq_ok {ε α β : Type} {result : Except ε α} {f : α → Except ε β} {y : β} :
    result.bind f = .ok y ↔ ∃ x, result = .ok x ∧ f x = .ok y := by
  cases result <;> simp [Except.bind]

theorem bind_eq_error {ε α β : Type} {result : Except ε α} {f : α → Except ε β} {cause : ε} :
    result.bind f = .error cause
      ↔ result = .error cause ∨ ∃ x, result = .ok x ∧ f x = .error cause := by
  cases result <;> simp [Except.bind]

theorem mapError_eq_ok {ε ε' α : Type} {result : Except ε α} {f : ε → ε'} {x : α} :
    result.mapError f = .ok x ↔ result = .ok x := by
  cases result <;> simp [Except.mapError]

theorem mapError_eq_error {ε ε' α : Type} {result : Except ε α} {f : ε → ε'} {cause : ε'} :
    (result.mapError f : Except ε' α) = .error cause
      ↔ ∃ found, result = .error found ∧ f found = cause := by
  cases result <;> simp [Except.mapError]

theorem eq_ok_of_toOption {ε α : Type} {result : Except ε α} {x : α}
    (h : result.toOption = some x) : result = .ok x := by
  cases result with
  | error cause => cases h
  | ok y => rw [Option.some.inj h]

namespace Entries

/-- The mappings under the keys hold every key once. -/
def PartsDistinct (entries : Entries) : Prop :=
  ∀ entry ∈ entries, ∀ part, entry.2 = .map part → Distinct part

/-- Every key stands once, and so it does in the mappings under the keys. -/
structure Tidy (entries : Entries) : Prop where
  keys : entries.Distinct
  parts : entries.PartsDistinct

theorem partsDistinct_nil : PartsDistinct [] := fun _ h => absurd h List.not_mem_nil

theorem tidy_nil : Tidy [] := ⟨distinct_nil, partsDistinct_nil⟩

theorem Tidy.part {entries part : Entries} (h : entries.Tidy) {key : Scalar}
    (hpart : entries.get? key = some (.map part)) : part.Distinct := by
  obtain ⟨k, -, hmem⟩ := mem_of_get? hpart
  exact h.parts _ hmem part rfl

theorem mem_put {key : Scalar} {value : Value} {entries : Entries} {entry : Scalar × Value}
    (h : entry ∈ entries.put key value) : entry.2 = value ∨ entry ∈ entries := by
  induction entries with
  | nil =>
    rw [put, List.mem_singleton] at h
    exact .inl (by rw [h])
  | cons first rest ih =>
    rw [put] at h
    split_ifs at h
    · rcases List.mem_cons.1 h with rfl | h
      · exact .inl rfl
      · exact .inr (List.mem_cons_of_mem _ h)
    · rcases List.mem_cons.1 h with rfl | h
      · exact .inr List.mem_cons_self
      · exact (ih h).imp id (List.mem_cons_of_mem _)

theorem mem_foldl_put {pairs : List (Scalar × Value)} {entries : Entries} {entry : Scalar × Value}
    (h : entry ∈ pairs.foldl (fun entries (k, v) => put k v entries) entries) :
    entry ∈ entries ∨ ∃ pair ∈ pairs, entry.2 = pair.2 := by
  induction pairs generalizing entries with
  | nil => exact .inl h
  | cons pair pairs ih =>
    rcases ih h with h | ⟨other, hother, hvalue⟩
    · rcases mem_put h with hvalue | h
      · exact .inr ⟨pair, List.mem_cons_self, hvalue⟩
      · exact .inl h
    · exact .inr ⟨other, List.mem_cons_of_mem _ hother, hvalue⟩

theorem mem_ofList {pairs : List (Scalar × Value)} {entry : Scalar × Value}
    (h : entry ∈ ofList pairs) : ∃ pair ∈ pairs, entry.2 = pair.2 :=
  (mem_foldl_put h).resolve_left List.not_mem_nil

theorem PartsDistinct.ofList {pairs : List (Scalar × Value)} (h : PartsDistinct pairs) :
    PartsDistinct (Entries.ofList pairs) := by
  intro entry hentry part hpart
  obtain ⟨pair, hpair, hvalue⟩ := mem_ofList hentry
  exact h pair hpair part (hvalue ▸ hpart)

theorem partsDistinct_flatten {parts : List Entries} (h : ∀ part ∈ parts, PartsDistinct part) :
    PartsDistinct parts.flatten := by
  intro entry hentry
  obtain ⟨part, hpart, hentry⟩ := List.mem_flatten.1 hentry
  exact h part hpart entry hentry

end Entries

end SourceLens
