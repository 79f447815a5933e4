import SourceLens.Proofs.Settings.Given

/-!
# What validation sees of a section

Validation asks a section for its settings by name. A missing section is an empty one, and two
mappings in which every name stands for the same are one section (`resolve_congr`), whatever their
order and whatever else they hold. In merged sections a name stands for what it stands for in each
of them, overlaid (`fieldOf_overlay`), as long as all are mappings.
-/

namespace SourceLens.Settings

open Entries (Distinct Tidy overlay)

/-- What a section, if there is one, says of a key. -/
def fieldOf (part : Option Value) (key : String) : Option Value := part.bind (Value.field? key)

/-- No key stands twice in a section that is a mapping. -/
def Once (part : Option Value) : Prop := ∀ entries, part = some (.map entries) → Distinct entries

/-- A section that is missing or a mapping. -/
structure IsMapping (part : Option Value) : Prop where
  mapping : ∀ value, part = some value → ∃ entries, value = .map entries
  once : Once part

/-- Sections that validation does not tell apart. -/
def Alike (x y : Option Value) : Prop :=
  x = y ∨ IsMapping x ∧ IsMapping y ∧ ∀ key, fieldOf x key = fieldOf y key

/-! ## Overlaid sections -/

theorem IsMapping.cases {part : Option Value} (h : IsMapping part) :
    part = none ∨ ∃ entries : Entries, part = some (.map entries) ∧ entries.Distinct := by
  cases part with
  | none => exact .inl rfl
  | some value =>
    obtain ⟨entries, rfl⟩ := h.mapping value rfl
    exact .inr ⟨entries, rfl, h.once entries rfl⟩

theorem isMapping_of_fieldOf {part : Option Value} (h : Once part) {key : String} {value : Value}
    (hfield : fieldOf part key = some value) : IsMapping part := by
  refine ⟨fun found hfound => ?_, h⟩
  subst hfound
  cases found with
  | map entries => exact ⟨entries, rfl⟩
  | scalar s => cases hfield
  | list items => cases hfield

theorem once_tidy {entries : Entries} (h : entries.Tidy) (name : String) :
    Once (entries.field? name) :=
  fun _ hpart => h.part hpart

theorem overlay_cases (x y : Option Value) :
    overlay x y = x ∨ overlay x y = y
      ∨ ∃ a b : Entries, x = some (.map a) ∧ y = some (.map b)
        ∧ overlay x y = some (.map (a.merge b)) := by
  cases y with
  | none => exact .inl (Entries.overlay_none x)
  | some upper =>
    cases x with
    | none => exact .inr (.inl rfl)
    | some base =>
      rw [Entries.overlay]
      cases upper with
      | scalar s => exact .inr (.inl (by rw [Value.merge]))
      | list items => exact .inr (.inl (by rw [Value.merge]))
      | map b =>
        cases base with
        | map a => exact .inr (.inr ⟨a, b, rfl, rfl, by rw [Value.merge]⟩)
        | scalar s => exact .inr (.inl (by simp [Value.merge]))
        | list items => exact .inr (.inl (by simp [Value.merge]))

theorem Once.overlay {x y : Option Value} (hx : Once x) (hy : Once y) :
    Once (Entries.overlay x y) := by
  intro entries h
  rcases overlay_cases x y with hkept | hkept | ⟨a, b, rfl, -, hmerged⟩
  · exact hx entries (hkept ▸ h)
  · exact hy entries (hkept ▸ h)
  · obtain rfl := by simpa using hmerged.symm.trans h
    exact (hx a rfl).merge b

theorem IsMapping.overlay {x y : Option Value} (hx : IsMapping x) (hy : IsMapping y) :
    IsMapping (Entries.overlay x y) := by
  refine ⟨fun value h => ?_, hx.once.overlay hy.once⟩
  rcases overlay_cases x y with hkept | hkept | ⟨a, b, -, -, hmerged⟩
  · exact hx.mapping value (hkept ▸ h)
  · exact hy.mapping value (hkept ▸ h)
  · exact ⟨_, (Option.some.inj (hmerged.symm.trans h)).symm⟩

theorem overlay_of_ne_map {value : Value} (h : ∀ entries, value ≠ .map entries)
    (base : Option Value) : overlay base (some value) = some value := by
  cases base with
  | none => rfl
  | some base =>
    cases value with
    | scalar s => simp [Entries.overlay, Value.merge]
    | list items => simp [Entries.overlay, Value.merge]
    | map entries => exact absurd rfl (h entries)

theorem fieldOf_overlay {x y : Option Value} (hx : IsMapping x) (hy : IsMapping y) (key : String) :
    fieldOf (overlay x y) key = overlay (fieldOf x key) (fieldOf y key) := by
  rcases hy.cases with rfl | ⟨b, rfl, hb⟩
  · rw [Entries.overlay_none]
    exact (Entries.overlay_none _).symm
  · rcases hx.cases with rfl | ⟨a, rfl, -⟩
    · show b.get? _ = overlay none (b.get? _)
      cases b.get? (.text key) <;> rfl
    · show Value.field? key (Value.merge (.map a) (.map b)) = overlay (a.get? _) (b.get? _)
      rw [Value.merge]
      exact Entries.get?_merge hb a (.text key)

theorem Alike.overlay {x x' y : Option Value} (hx : Alike x x') (hy : Once y) :
    Alike (overlay x y) (overlay x' y) := by
  rcases hx with rfl | ⟨hx, hx', hsame⟩
  · exact .inl rfl
  · by_cases hmap : ∀ value, y = some value → ∃ entries, value = .map entries
    · have hy : IsMapping y := ⟨hmap, hy⟩
      refine .inr ⟨hx.overlay hy, hx'.overlay hy, fun key => ?_⟩
      rw [fieldOf_overlay hx hy, fieldOf_overlay hx' hy, hsame]
    · push Not at hmap
      obtain ⟨value, rfl, hvalue⟩ := hmap
      left
      rw [overlay_of_ne_map hvalue, overlay_of_ne_map hvalue]

/-! ## Validation -/

/-- The entries of a section, none if it is missing. -/
def entriesOf (part : Option Value) : Entries := (part.map Value.entries).getD []

theorem field?_entriesOf (part : Option Value) (key : String) :
    (entriesOf part).field? key = fieldOf part key := by
  cases part <;> rfl

/-- A section whose defaults are those of an empty mapping, and which is asked by name. -/
structure Field.Section (field : Field) : Prop where
  empty : field.check (.map []) = .ok (.ok field.missing)
  congr {a b : Entries} : (∀ key, a.field? key = b.field? key) →
    field.check (.map a) = field.check (.map b)

theorem Field.Section.outcome_eq {field : Field} (h : field.Section) {entries : Entries}
    (hpart : ∀ value, entries.field? field.name = some value → ∃ part, value = .map part) :
    field.outcome entries = field.check (.map (entriesOf (entries.field? field.name))) := by
  rw [Field.outcome]
  cases hvalue : entries.field? field.name with
  | none => exact h.empty.symm
  | some value =>
    obtain ⟨part, rfl⟩ := hpart value hvalue
    rfl

theorem Field.Section.outcome_congr {field : Field} (h : field.Section) {a b : Entries}
    (hpart : Alike (a.field? field.name) (b.field? field.name)) :
    field.outcome a = field.outcome b := by
  rcases hpart with hsame | ⟨ha, hb, hsame⟩
  · rw [Field.outcome, Field.outcome, hsame]
  · rw [h.outcome_eq ha.mapping, h.outcome_eq hb.mapping]
    refine h.congr fun key => ?_
    rw [field?_entriesOf, field?_entriesOf, hsame]

section Validation

variable {validator : Validator} (h : validator.Lawful) {homes : Homes}

include h

theorem section_of_model {name model : String} {fields : List Field} {missing : Value}
    (hmissing : Field.record fields (fields.map fun field => .ok field.missing) = .ok missing) :
    Field.Section { name, missing, check := validator.model model fields } where
  empty := by
    have hfields : fields.map (·.outcome [])
        = (fields.map fun field => Except.ok field.missing).map Except.ok := by
      rw [List.map_map]
      rfl
    rw [← hmissing]
    exact (h.model_ok (h.instanceOf_map model [])).2
      ⟨[], _, h.entriesOf_map [], hfields, rfl⟩
  congr hsame := h.model_congr fun field _ => hsame field.name

theorem section_of_mem {field : Field} (hfield : field ∈ validator.sectionFields homes) :
    field.Section := by
  rcases List.mem_pair.1 hfield with rfl | rfl
  · exact section_of_model h rfl
  · exact section_of_model h rfl

omit h in
theorem unknown_without {fields : List Field} {name : String}
    (hname : name ∈ fields.map Field.name) (entries : Entries) :
    Field.unknown fields (entries.without name) = Field.unknown fields entries := by
  rw [Field.unknown, Field.unknown, Entries.without, List.filter_filter]
  refine List.filter_congr fun entry _ => ?_
  obtain ⟨known, hknown, rfl⟩ := List.mem_map.1 hname
  by_cases hkey : entry.1 = .text known.name
  · have hany : fields.any fun field => entry.1 = .text field.name :=
      List.any_eq_true.2 ⟨known, hknown, by simpa using hkey⟩
    show (!(fields.any fun field => entry.1 = .text field.name) && _)
      = !(fields.any fun field => entry.1 = .text field.name)
    rw [hany]
    rfl
  · simp [hkey]

/-- Entries are resolved alike if they differ in one section only and validation does not tell
apart what stands there. -/
theorem resolve_congr {name : String} (hname : name ∈ sections.map (·.1)) {a b : Entries}
    (hrest : a.without name = b.without name) (hpart : Alike (a.field? name) (b.field? name)) :
    resolve validator homes a = resolve validator homes b := by
  have hsettings : validator.settings (validator.sectionFields homes) a
      = validator.settings (validator.sectionFields homes) b := by
    refine h.settings_congr (fun field hfield => ?_) ?_
    · refine (section_of_mem h hfield).outcome_congr ?_
      by_cases hother : field.name = name
      · exact hother ▸ hpart
      · have hkey : Scalar.text field.name ≠ .text name := by simpa using hother
        left
        rw [Entries.field?, Entries.field?, ← Entries.get?_without hkey a, hrest,
          Entries.get?_without hkey b]
    · rw [← unknown_without hname a, hrest, unknown_without hname b]
  rw [resolve, resolve, hsettings]

end Validation

end SourceLens.Settings
