import SourceLens.Proofs.Builtin.Sources
import SourceLens.Proofs.Settings.Laws

/-!
# The built-in packages keep to the laws

So everything that is proved of loading holds of them (`lawful`), with whatever instances there are.
-/

namespace SourceLens.Builtin

open Settings

/-! ## Results -/

namespace Checked

variable {α β : Type}

theorem not_raises_ok (a : α) : ¬Raises (.ok a : Checked α) := by
  rintro ⟨cause, h⟩
  cases h

theorem not_raises_violation (rule : Rule) (input : Value) :
    ¬Raises (violation rule input : Checked α) := by
  rintro ⟨cause, h⟩
  cases h

theorem under_eq_ok {step : Step} {result : Checked α} {a : α} :
    result.under step = .ok a ↔ result = .ok a := by
  rcases result with (_ | _) | _ <;> simp [under]

theorem raises_under {step : Step} {result : Checked α} :
    Raises (result.under step) ↔ Raises result := by
  rcases result with (_ | _) | _ <;> simp [under, Raises]

theorem both_eq_ok {a : Checked α} {b : Checked β} {pair : α × β} :
    both a b = .ok pair ↔ a = .ok pair.1 ∧ b = .ok pair.2 := by
  obtain ⟨x, y⟩ := pair
  rcases a with (_ | _) | _ <;> rcases b with (_ | _) | _ <;> simp [both]

theorem raises_both {a : Checked α} {b : Checked β} :
    Raises (both a b) ↔ Raises a ∨ Raises b := by
  rcases a with (_ | _) | _ <;> rcases b with (_ | _) | _ <;> simp [both, Raises]

theorem raises_map {result : Checked α} {f : α → β} : Raises (result.map f) ↔ Raises result := by
  rcases result with (_ | _) | _ <;> simp [Except.map, Raises]

theorem all_eq_ok {results : List (Checked α)} {found : List α} :
    all results = .ok found ↔ results = found.map .ok := by
  induction results generalizing found with
  | nil => cases found <;> simp [all]
  | cons first rest ih =>
    rw [all, map_eq_ok]
    constructor
    · rintro ⟨⟨x, xs⟩, hboth, rfl⟩
      obtain ⟨hx, hxs⟩ := both_eq_ok.1 hboth
      rw [List.map_cons, ← ih.1 hxs]
      exact congrArg (· :: rest) hx
    · intro h
      cases found with
      | nil => cases h
      | cons x xs =>
        obtain ⟨hx, hxs⟩ := List.cons.inj h
        exact ⟨(x, xs), both_eq_ok.2 ⟨hx, ih.2 hxs⟩, rfl⟩

theorem raises_all {results : List (Checked α)} :
    Raises (all results) ↔ ∃ result ∈ results, Raises result := by
  induction results with
  | nil => simp [all, not_raises_ok]
  | cons first rest ih => rw [all, raises_map, raises_both, ih, List.exists_mem_cons_iff]

theorem ofRaised_eq_ok {input : Value} {result : Except Raised Value} {dumped : Dumped} :
    ofRaised input result = .ok dumped ↔ ∃ value, result = .ok value ∧ dumped = .ok value := by
  rcases result with (_ | _) | _ <;> simp [ofRaised, violation, eq_comm]

theorem raises_ofRaised {input : Value} {result : Except Raised Value} :
    Raises (ofRaised input result) ↔ ∃ kind message, result = .error (.other kind message) := by
  rcases result with (_ | _) | _ <;> simp [ofRaised, violation, Raises]

end Checked

open Checked

/-! ## Checks -/

section Checks

variable {check : Check} {value : Value} {dumped : Dumped}

theorem checkInt_eq_ok {own : Int → Except Raised Int} :
    checkInt own value = .ok dumped ↔ ∃ n m, (readInt value).toOption = some n
      ∧ own n = .ok m ∧ dumped = .ok (.int m) := by
  rw [checkInt]
  cases readInt value with
  | error rule => simp [violation, Except.toOption]
  | ok n =>
    dsimp only
    rw [ofRaised_eq_ok]
    simp [map_eq_ok, Except.toOption]

theorem raises_checkInt {own : Int → Except Raised Int} :
    Raises (checkInt own value) ↔ ∃ n kind message, (readInt value).toOption = some n
      ∧ own n = .error (.other kind message) := by
  rw [checkInt]
  cases readInt value with
  | error rule => simp [not_raises_violation, Except.toOption]
  | ok n =>
    dsimp only
    rw [raises_ofRaised]
    simp [map_eq_error, Except.toOption]

theorem checkText_eq_ok {own : String → Except Raised String} :
    checkText own value = .ok dumped
      ↔ ∃ s t, value.asText? = some s ∧ own s = .ok t ∧ dumped = .ok (.text t) := by
  rw [checkText]
  cases value.asText? with
  | none => simp [violation]
  | some s =>
    dsimp only
    rw [ofRaised_eq_ok]
    simp [map_eq_ok]

theorem raises_checkText {own : String → Except Raised String} :
    Raises (checkText own value)
      ↔ ∃ s kind message, value.asText? = some s ∧ own s = .error (.other kind message) := by
  rw [checkText]
  cases value.asText? with
  | none => simp [not_raises_violation]
  | some s =>
    dsimp only
    rw [raises_ofRaised]
    simp [map_eq_error]

theorem name_of_checkChoice {names : List String} (h : checkChoice names value = .ok dumped) :
    ∃ name ∈ names, dumped = .ok (.text name) := by
  rw [checkChoice] at h
  split at h
  · rename_i name _
    split_ifs at h with hname
    · exact ⟨name, hname, (Except.ok.inj h).symm⟩
    · cases h
  · cases h

theorem not_raises_checkChoice (names : List String) (value : Value) :
    ¬Raises (checkChoice names value) := by
  rw [checkChoice]
  split
  · split_ifs
    · exact not_raises_ok _
    · exact not_raises_violation _ _
  · exact not_raises_violation _ _

theorem checkNullable_of_ne (h : value ≠ .null) : checkNullable check value = check value := by
  rw [checkNullable.eq_2]
  exact h

theorem all_checkItems {items : List Value} {dumps : List Dumped} {i : Nat} :
    Checked.all (checkItems check i items) = .ok dumps ↔ items.map check = dumps.map .ok := by
  rw [all_eq_ok]
  induction items generalizing dumps i with
  | nil => rfl
  | cons item rest ih =>
    rw [checkItems, List.map_cons]
    cases dumps with
    | nil => simp
    | cons dump more => rw [List.map_cons, List.cons.injEq, List.cons.injEq, under_eq_ok, ih]

theorem raises_checkItems {items : List Value} {i : Nat} :
    (∃ result ∈ checkItems check i items, Raises result) ↔ ∃ item ∈ items, Raises (check item) := by
  induction items generalizing i with
  | nil => simp [checkItems]
  | cons item rest ih =>
    rw [checkItems, List.exists_mem_cons_iff, List.exists_mem_cons_iff, ih, raises_under]

theorem checkList_eq_ok :
    checkList check value = .ok dumped ↔ ∃ items dumps, itemsOf value = some items
      ∧ items.map check = dumps.map .ok ∧ dumped = (Dumped.all dumps).map Value.list := by
  cases value with
  | list items =>
    simp only [checkList, itemsOf, map_eq_ok, all_checkItems, Option.some.injEq]
    constructor
    · rintro ⟨dumps, hdumps, rfl⟩
      exact ⟨items, dumps, rfl, hdumps, rfl⟩
    · rintro ⟨_, dumps, rfl, hdumps, rfl⟩
      exact ⟨dumps, hdumps, rfl⟩
  | scalar s => simp [checkList, itemsOf, violation]
  | map entries => simp [checkList, itemsOf, violation]

theorem raises_checkList :
    Raises (checkList check value)
      ↔ ∃ items, itemsOf value = some items ∧ ∃ item ∈ items, Raises (check item) := by
  cases value with
  | list items => simp [checkList, itemsOf, raises_map, raises_all, raises_checkItems]
  | scalar s => simp [checkList, itemsOf, not_raises_violation]
  | map entries => simp [checkList, itemsOf, not_raises_violation]

/-! ## Models -/

variable {fields : List Field} {entries : Entries}

theorem checkFields_eq_ok {dumps : List Dumped} :
    checkFields fields entries = .ok dumps ↔ fields.map (·.outcome entries) = dumps.map .ok := by
  rw [checkFields, all_eq_ok]
  induction fields generalizing dumps with
  | nil => rfl
  | cons field rest ih =>
    rw [List.map_cons, List.map_cons]
    cases dumps with
    | nil => simp
    | cons dump more => rw [List.map_cons, List.cons.injEq, List.cons.injEq, under_eq_ok, ih]

theorem raises_checkFields :
    Raises (checkFields fields entries) ↔ ∃ field ∈ fields, Raises (field.outcome entries) := by
  simp [checkFields, raises_all, raises_under]

theorem checkFields_congr {a b : Entries} (h : ∀ field ∈ fields, field.outcome a = field.outcome b) :
    checkFields fields a = checkFields fields b := by
  rw [checkFields, checkFields, List.map_congr_left fun field hfield => by rw [h field hfield]]

variable {instances : Instances} {name : String}

theorem checkModel_of_none (hnone : instanceOf instances name value = none) :
    checkModel instances name fields value = makeModel name fields value := by
  rw [checkModel, hnone]

theorem checkModel_eq_ok (hnone : instanceOf instances name value = none) :
    checkModel instances name fields value = .ok dumped
      ↔ ∃ entries dumps, entriesOf value = some entries
        ∧ fields.map (·.outcome entries) = dumps.map .ok ∧ dumped = Field.record fields dumps := by
  rw [checkModel_of_none hnone]
  cases value with
  | map entries =>
    simp only [makeModel, entriesOf, map_eq_ok, checkFields_eq_ok, Option.some.injEq]
    constructor
    · rintro ⟨dumps, hdumps, rfl⟩
      exact ⟨entries, dumps, rfl, hdumps, rfl⟩
    · rintro ⟨_, dumps, rfl, hdumps, rfl⟩
      exact ⟨dumps, hdumps, rfl⟩
  | scalar s => simp [makeModel, entriesOf, violation]
  | list items => simp [makeModel, entriesOf, violation]

theorem raises_checkModel (hnone : instanceOf instances name value = none) :
    Raises (checkModel instances name fields value)
      ↔ ∃ entries, entriesOf value = some entries
        ∧ ∃ field ∈ fields, Raises (field.outcome entries) := by
  rw [checkModel_of_none hnone]
  cases value with
  | map entries => simp [makeModel, entriesOf, raises_map, raises_checkFields]
  | scalar s => simp [makeModel, entriesOf, not_raises_violation]
  | list items => simp [makeModel, entriesOf, not_raises_violation]

theorem checkModel_of_instance (h : instanceOf instances name value = some dumped) :
    checkModel instances name fields value = .ok dumped := by
  rw [checkModel, h]

theorem checkModel_congr (instances : Instances) (name : String) {a b : Entries}
    (h : ∀ field ∈ fields, a.field? field.name = b.field? field.name) :
    checkModel instances name fields (.map a) = checkModel instances name fields (.map b) := by
  have houtcome : ∀ field ∈ fields, field.outcome a = field.outcome b := fun field hfield => by
    rw [Field.outcome, Field.outcome, h field hfield]
  rw [checkModel_of_none rfl, checkModel_of_none rfl, makeModel, makeModel,
    checkFields_congr houtcome]

theorem isTextKey_iff {key : Scalar} : isTextKey key = true ↔ ∃ name, key = .text name := by
  cases key <;> simp [isTextKey]

theorem isTextKey_congr {a b : Scalar} (h : a.identity = b.identity) :
    isTextKey a = isTextKey b := by
  rw [Bool.eq_iff_iff, isTextKey_iff, isTextKey_iff]
  simp only [← Scalar.identity_eq_text, h]

theorem checkKeys_eq_ok :
    checkKeys fields entries = .ok () ↔ Field.unknown fields entries = [] := by
  rw [checkKeys, map_eq_ok]
  cases Field.unknown fields entries with
  | nil => simp [Checked.all]
  | cons entry rest =>
    refine iff_of_false ?_ (List.cons_ne_nil _ _)
    rintro ⟨found, hfound, -⟩
    have hall := all_eq_ok.1 hfound
    cases found with
    | nil => cases hall
    | cons one more =>
      have hfirst := under_eq_ok.1 (List.cons.inj hall).1
      cases hfirst

theorem not_raises_checkKeys : ¬Raises (checkKeys fields entries) := by
  rw [checkKeys, raises_map, raises_all]
  rintro ⟨result, hresult, hraises⟩
  obtain ⟨entry, -, rfl⟩ := List.mem_map.1 hresult
  exact not_raises_violation _ _ (raises_under.1 hraises)

theorem all_isTextKey (fields : List Field) (entries : Entries) :
    (entries.all fun (key, _) => isTextKey key)
      = (Field.unknown fields entries).all fun (key, _) => isTextKey key := by
  rw [Bool.eq_iff_iff, List.all_eq_true, List.all_eq_true]
  refine ⟨fun h entry hentry => h entry (List.mem_filter.1 hentry).1, fun h entry hentry => ?_⟩
  by_cases hknown : ∃ field ∈ fields, entry.1 = .text field.name
  · obtain ⟨field, -, hkey⟩ := hknown
    exact isTextKey_iff.2 ⟨field.name, hkey⟩
  · exact h entry (List.mem_filter.2 ⟨hentry, by simpa using hknown⟩)

theorem checkSettings_eq_ok :
    checkSettings fields entries = .ok dumped ↔ Field.unknown fields entries = [] ∧ ∃ dumps,
      fields.map (·.outcome entries) = dumps.map .ok ∧ dumped = Field.record fields dumps := by
  rw [checkSettings]
  constructor
  · intro h
    split_ifs at h
    · obtain ⟨⟨dumps, _⟩, hboth, rfl⟩ := map_eq_ok.1 h
      obtain ⟨hfields, hkeys⟩ := both_eq_ok.1 hboth
      exact ⟨checkKeys_eq_ok.1 hkeys, dumps, checkFields_eq_ok.1 hfields, rfl⟩
  · rintro ⟨hunknown, dumps, hfields, rfl⟩
    have htext : (entries.all fun (key, _) => isTextKey key) = true := by
      rw [all_isTextKey fields, hunknown]
      rfl
    rw [if_pos htext, map_eq_ok]
    exact ⟨(dumps, ()), both_eq_ok.2 ⟨checkFields_eq_ok.2 hfields, checkKeys_eq_ok.2 hunknown⟩, rfl⟩

theorem raises_checkSettings :
    Raises (checkSettings fields entries) ↔ (∃ entry ∈ entries, isTextKey entry.1 = false)
      ∨ ∃ field ∈ fields, Raises (field.outcome entries) := by
  rw [checkSettings]
  have hkeys : (∃ entry ∈ entries, isTextKey entry.1 = false)
      ↔ (entries.all fun (key, _) => isTextKey key) = false := by
    rw [List.all_eq_false]
    simp
  split_ifs with htext
  · rw [raises_map, raises_both, raises_checkFields, or_iff_left not_raises_checkKeys, hkeys, htext]
    simp
  · refine iff_of_true ⟨_, rfl⟩ (.inl (hkeys.2 ?_))
    simpa using htext

theorem checkSettings_congr {a b : Entries}
    (h : ∀ field ∈ fields, field.outcome a = field.outcome b)
    (hunknown : Field.unknown fields a = Field.unknown fields b) :
    checkSettings fields a = checkSettings fields b := by
  have hkeys : checkKeys fields a = checkKeys fields b := by rw [checkKeys, checkKeys, hunknown]
  have htext : (a.all fun (key, _) => isTextKey key) = b.all fun (key, _) => isTextKey key := by
    rw [all_isTextKey fields a, hunknown, ← all_isTextKey]
  rw [checkSettings, checkSettings, htext, hkeys, checkFields_congr h]

end Checks

/-! ## The laws -/

theorem validator_lawful (instances : Instances) : (validator instances).Lawful where
  intOf_int _ := rfl
  textOf_text _ := rfl
  itemsOf_list _ := rfl
  entriesOf_map _ := rfl
  isName_text _ := rfl
  isName_congr := isTextKey_congr
  instanceOf_map _ _ := rfl
  int_ok := checkInt_eq_ok
  int_raises := raises_checkInt
  text_ok := checkText_eq_ok
  text_raises := raises_checkText
  choice_ok := name_of_checkChoice
  choice_name hname := if_pos hname
  choice_raises := not_raises_checkChoice
  nullable_null _ := rfl
  nullable_value := checkNullable_of_ne
  list_ok := checkList_eq_ok
  list_raises := raises_checkList
  model_instance := checkModel_of_instance
  model_ok := checkModel_eq_ok
  model_raises := raises_checkModel
  model_congr {name _ _ _} h := checkModel_congr instances name h
  settings_ok := checkSettings_eq_ok
  settings_raises := raises_checkSettings
  settings_congr := checkSettings_congr

theorem tidy_document {bytes : Bytes} {entries : Entries} (h : document bytes = .ok (.map entries)) :
    entries.Tidy := by
  rw [document] at h
  split at h
  · cases h
  · split at h
    · rename_i hread
      rw [Except.ok.inj h] at hread
      exact Yaml.tidy_read hread
    all_goals cases h

theorem lawful (instances : Instances) : (packages instances).Lawful where
  validator := validator_lawful instances
  documents := tidy_document
  overrides hgiven hentries := by
    cases hentries
    exact tidy_overrideEntries hgiven
  environment hentries := tidy_environmentEntries (mapError_eq_ok.1 hentries)
  gather _ := rfl

theorem lawful_plain : plain.Lawful := lawful _

end SourceLens.Builtin
