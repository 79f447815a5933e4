import SourceLens.Proofs.Settings.Revalidation
import SourceLens.Proofs.Settings.Sections

/-!
# Settings that are not given

A setting that entries do not give has its default when they are resolved (`default_of_sections`).
Defaults are settled, so they are still the defaults when the settings are validated again
(`setting?_of_confirm`).
-/

namespace SourceLens.Settings

/-- A setting: a key of a section. -/
structure Place where
  sectionName : String
  key : String
  deriving DecidableEq

/-- What entries say of a setting. -/
def setting? (place : Place) (entries : Entries) : Option Value :=
  fieldOf (entries.field? place.sectionName) place.key

/-! ## Records -/

theorem field?_object_cons (key name : String) (value : Value) (fields : List (String × Value)) :
    Value.field? key (.object ((name, value) :: fields))
      = if key = name then some value else Value.field? key (.object fields) := by
  simp [Value.field?, Value.object, Value.entries, Entries.field?, Entries.get?, Scalar.identity,
    eq_comm]

theorem field?_record {fields : List Field} (hnames : (fields.map Field.name).Nodup)
    {entries : Entries} {dumps : List Dumped}
    (hfields : fields.map (·.outcome entries) = dumps.map .ok) {value : Value}
    (hvalue : Field.record fields dumps = .ok value) :
    (∃ part, value = .map part) ∧ ∀ field ∈ fields, ∃ found,
      field.outcome entries = .ok (.ok found) ∧ value.field? field.name = some found := by
  obtain ⟨values, hvalues, rfl⟩ := map_eq_ok.1 hvalue
  refine ⟨⟨_, rfl⟩, fun field hfield => ?_⟩
  clear hvalue
  induction fields generalizing dumps values with
  | nil => cases hfield
  | cons first rest ih =>
    obtain ⟨dump, more, rfl, hfirst, hrest⟩ := cons_eq_map_ok.1 hfields
    obtain ⟨value, hdump, hmore⟩ := bind_eq_ok.1 hvalues
    obtain ⟨others, hothers, rfl⟩ := map_eq_ok.1 hmore
    rw [List.map_cons, List.nodup_cons] at hnames
    rw [List.map_cons, List.zip_cons_cons, field?_object_cons]
    rcases List.mem_cons.1 hfield with rfl | hfield
    · exact ⟨value, hdump ▸ hfirst, if_pos rfl⟩
    · have hname : field.name ≠ first.name := fun hsame =>
        hnames.1 (List.mem_map.2 ⟨field, hfield, hsame⟩)
      rw [if_neg hname]
      exact ih hnames.2 hrest others hothers hfield

/-! ## Defaults -/

/-- Where a setting stands in the models: the field of its section and its own. -/
structure Place.StandsIn (place : Place) (validator : Validator) (homes : Homes)
    (outer inner : Field) : Prop where
  outer_mem : outer ∈ validator.sectionFields homes
  outer_name : outer.name = place.sectionName
  model : ∃ name fields, outer.check = validator.model name fields
    ∧ (fields.map Field.name).Nodup ∧ inner ∈ fields
  inner_name : inner.name = place.key
  /-- The default passes its own check. -/
  stable : inner.check inner.missing = .ok (.ok inner.missing)
  default : setting? place ({} : Config).toValue.entries = some inner.missing

/-- All settings. -/
def places : List Place := sections.flatMap fun (name, keys) => keys.map (Place.mk name)

/-- Entries in which a section is missing or a mapping, and one of its settings is not given or given
as its default. -/
structure Defaulted (outer inner : Field) (entries : Entries) : Prop where
  mapping : ∀ found, entries.field? outer.name = some found → ∃ part, found = .map part
  unset : fieldOf (entries.field? outer.name) inner.name = none
    ∨ fieldOf (entries.field? outer.name) inner.name = some inner.missing

section Default

variable {validator : Validator} (h : validator.Lawful) {homes : Homes}

include h

theorem standsIn_of_mem {place : Place} (hplace : place ∈ places) :
    ∃ outer inner, place.StandsIn validator homes outer inner := by
  have hmodel : (validator.loggingFields homes).map Field.name = ["level", "outputs"]
      ∧ validator.formattingFields.map Field.name = ["indent_size", "html_indent_size"] := ⟨rfl, rfl⟩
  have hlogging : ((validator.loggingFields homes).map Field.name).Nodup := hmodel.1 ▸ by decide
  have hformatting : (validator.formattingFields.map Field.name).Nodup := hmodel.2 ▸ by decide
  have hplaces : place = ⟨"logging", "level"⟩ ∨ place = ⟨"logging", "outputs"⟩
      ∨ place = ⟨"formatting", "indent_size"⟩ ∨ place = ⟨"formatting", "html_indent_size"⟩ := by
    simpa [places, sections] using hplace
  rcases hplaces with rfl | rfl | rfl | rfl
  · exact ⟨_, _, List.mem_cons_self, rfl, ⟨_, _, rfl, hlogging, List.mem_cons_self⟩, rfl,
      level_name h .info, rfl⟩
  · exact ⟨_, _, List.mem_cons_self, rfl, ⟨_, _, rfl, hlogging, List.mem_cons_of_mem _
      List.mem_cons_self⟩, rfl, outputs_toValue h settled_default.logging, rfl⟩
  · exact ⟨_, _, List.mem_cons_of_mem _ List.mem_cons_self, rfl,
      ⟨_, _, rfl, hformatting, List.mem_cons_self⟩, rfl, indent_nat h (by decide), rfl⟩
  · exact ⟨_, _, List.mem_cons_of_mem _ List.mem_cons_self, rfl,
      ⟨_, _, rfl, hformatting, List.mem_cons_of_mem _ List.mem_cons_self⟩, rfl,
      indent_nat h (by decide), rfl⟩

theorem Defaulted.missing_of_outcome {place : Place} {outer inner : Field}
    (hstands : place.StandsIn validator homes outer inner) {entries : Entries}
    (hentries : Defaulted outer inner entries) {value : Value}
    (hvalue : outer.outcome entries = .ok (.ok value)) :
    (∃ part, value = .map part) ∧ value.field? inner.name = some inner.missing := by
  obtain ⟨name, fields, hcheck, hnames, hinner⟩ := hstands.model
  rw [(section_of_mem h hstands.outer_mem).outcome_eq hentries.mapping, hcheck] at hvalue
  obtain ⟨found, dumps, hfound, hfields, hrecord⟩ := (h.model_ok (h.instanceOf_map name _)).1 hvalue
  obtain rfl := Option.some.inj ((h.entriesOf_map _).symm.trans hfound)
  obtain ⟨hmap, hall⟩ := field?_record hnames hfields hrecord.symm
  obtain ⟨given, hgiven, hresult⟩ := hall inner hinner
  refine ⟨hmap, hresult.trans (congrArg some ?_)⟩
  have hunset := hentries.unset
  rw [← field?_entriesOf] at hunset
  have hmissing : inner.outcome (entriesOf (entries.field? outer.name)) = .ok (.ok inner.missing) := by
    rcases hunset with hnone | hsome
    · rw [Field.outcome, hnone]
    · rw [outcome_of_field hsome, hstands.stable]
  exact Except.ok.inj (Except.ok.inj (hgiven.symm.trans hmissing))

omit h in
theorem nodup_sectionFields : ((validator.sectionFields homes).map Field.name).Nodup := by
  have hnames : (validator.sectionFields homes).map Field.name = ["logging", "formatting"] := rfl
  exact hnames ▸ by decide

/-- What validation makes of entries leaves a setting at its default if the entries do. -/
theorem default_of_sections {place : Place} {outer inner : Field}
    (hstands : place.StandsIn validator homes outer inner) {entries : Entries}
    (hentries : Defaulted outer inner entries) {dumps : List Dumped} {value : Value}
    (hfields : (validator.sectionFields homes).map (·.outcome entries) = dumps.map .ok)
    (hvalue : Field.record (validator.sectionFields homes) dumps = .ok value) :
    ∃ kept : Entries, value = .map kept ∧ Defaulted outer inner kept
      ∧ setting? place kept = some inner.missing := by
  obtain ⟨⟨kept, rfl⟩, hall⟩ := field?_record nodup_sectionFields hfields hvalue
  obtain ⟨found, houtcome, hkept⟩ := hall outer hstands.outer_mem
  obtain ⟨hmap, hmissing⟩ := hentries.missing_of_outcome h hstands houtcome
  have hpart : Entries.field? outer.name kept = some found := hkept
  have hfield : fieldOf (Entries.field? outer.name kept) inner.name = some inner.missing := by
    rw [hpart]
    exact hmissing
  refine ⟨kept, rfl, ⟨fun other hother => ?_, .inr hfield⟩, ?_⟩
  · exact Option.some.inj (hpart.symm.trans hother) ▸ hmap
  · rw [setting?, ← hstands.outer_name, ← hstands.inner_name]
    exact hfield

theorem setting?_of_confirm {place : Place} (hplace : place ∈ places) {entries : Entries}
    {value confirmed : Value}
    (hpart : ∀ found, entries.field? place.sectionName = some found → ∃ part, found = .map part)
    (hnone : setting? place entries = none) (hresolve : resolve validator homes entries = .ok value)
    (hconfirm : confirm validator homes value = .ok confirmed) :
    setting? place confirmed.entries = setting? place ({} : Config).toValue.entries := by
  obtain ⟨outer, inner, hstands⟩ : ∃ outer inner, place.StandsIn validator homes outer inner :=
    standsIn_of_mem h hplace
  have hentries : Defaulted outer inner entries := by
    refine ⟨hstands.outer_name ▸ hpart, .inl ?_⟩
    rw [hstands.outer_name, hstands.inner_name]
    exact hnone
  -- The settings as they are resolved, and the same settings as they are confirmed.
  obtain ⟨-, dumps, hfields, hrecord⟩ := h.settings_ok.1 (resolve_eq_ok.1 hresolve)
  obtain ⟨kept, rfl, hkept, -⟩ := default_of_sections h hstands hentries hfields hrecord.symm
  obtain ⟨found, dumps, hfound, hfields, hrecord⟩ :=
    (h.model_ok (h.instanceOf_map _ kept)).1 (confirm_eq_ok.1 hconfirm)
  obtain rfl := Option.some.inj ((h.entriesOf_map kept).symm.trans hfound)
  obtain ⟨again, rfl, -, hagain⟩ := default_of_sections h hstands hkept hfields hrecord.symm
  rw [hstands.default, ← hagain]
  rfl

end Default

end SourceLens.Settings
