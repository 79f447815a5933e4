import SourceLens.Proofs.FilePath
import SourceLens.Proofs.Settings.Laws

/-!
# Validating settings again

Settings that were accepted are settled: both widths lie in their range, and every file that the log
goes to is an absolute path in normal form (`settled_of_config`, `settled_of_settings`). Whatever is
settled is accepted as it is dumped (`config_toValue`), because a path in normal form is not changed
by taking its normal form.
-/

namespace SourceLens.Settings

/-! ## Fields and records -/

theorem outcome_cases {field : Field} {entries : Entries} {dumped : Dumped}
    (h : field.outcome entries = .ok dumped) :
    dumped = .ok field.missing ∨ ∃ value, field.check value = .ok dumped := by
  rw [Field.outcome] at h
  split at h
  · exact .inr ⟨_, h⟩
  · exact .inl (Except.ok.inj h).symm

theorem outcome_of_field {field : Field} {entries : Entries} {value : Value}
    (h : entries.field? field.name = some value) : field.outcome entries = field.check value := by
  rw [Field.outcome, h]

theorem cons_eq_map_ok {ε α : Type} {result : Except ε α} {rest : List (Except ε α)} {xs : List α} :
    result :: rest = xs.map .ok ↔ ∃ x more, xs = x :: more ∧ result = .ok x ∧ rest = more.map .ok := by
  cases xs <;> simp

theorem nil_eq_map_ok {ε α : Type} {xs : List α} :
    ([] : List (Except ε α)) = xs.map .ok ↔ xs = [] := by
  cases xs <;> simp

theorem all_map_ok (values : List Value) : Dumped.all (values.map .ok) = .ok values := by
  induction values with
  | nil => rfl
  | cons value rest ih =>
    rw [List.map_cons, Dumped.all, ih]
    rfl

namespace Validator.Lawful

variable {validator : Validator}

theorem fields_of_model (h : validator.Lawful) {name : String} {fields : List Field}
    (hmade : ∀ {value : Value} {dumped : Dumped}, validator.instanceOf name value = some dumped →
      ∃ entries : Entries, validator.model name fields (.map entries) = .ok dumped)
    {value : Value} {dumped : Dumped} (hvalue : validator.model name fields value = .ok dumped) :
    ∃ entries dumps, fields.map (·.outcome entries) = dumps.map .ok
      ∧ dumped = Field.record fields dumps := by
  cases hinstance : validator.instanceOf name value with
  | none =>
    obtain ⟨entries, dumps, -, hfields, hrecord⟩ := (h.model_ok hinstance).1 hvalue
    exact ⟨entries, dumps, hfields, hrecord⟩
  | some found =>
    obtain rfl := Except.ok.inj ((h.model_instance hinstance).symm.trans hvalue)
    obtain ⟨entries, hentries⟩ := hmade hinstance
    obtain ⟨found, dumps, -, hfields, hrecord⟩ :=
      (h.model_ok (h.instanceOf_map name entries)).1 hentries
    exact ⟨found, dumps, hfields, hrecord⟩

theorem model_map (h : validator.Lawful) {name : String} {fields : List Field} {entries : Entries}
    (dumps : List Dumped) (hfields : fields.map (·.outcome entries) = dumps.map .ok) :
    validator.model name fields (.map entries) = .ok (Field.record fields dumps) :=
  (h.model_ok (h.instanceOf_map name entries)).2
    ⟨entries, dumps, h.entriesOf_map entries, hfields, rfl⟩

end Validator.Lawful

/-! ## What is settled -/

/-- A stream, or an absolute path in normal form. -/
def Destination.Settled (destination : Destination) : Prop :=
  destination = .stderr ∨ destination = .stdout
    ∨ ∃ path, destination = .file path ∧ FilePath.isAbsolute path.toList = true
      ∧ FilePath.normal path.toList = path.toList

def Logging.Settled (logging : Logging) : Prop :=
  ∀ output ∈ logging.outputs, output.destination.Settled

structure Formatting.Settled (formatting : Formatting) : Prop where
  indent : 1 ≤ formatting.indentSize ∧ formatting.indentSize ≤ 16
  htmlIndent : 1 ≤ formatting.htmlIndentSize ∧ formatting.htmlIndentSize ≤ 16

/-- Settings that validation leaves as they are. -/
structure Config.Settled (config : Config) : Prop where
  logging : config.logging.Settled
  formatting : config.formatting.Settled

theorem settled_default : ({} : Config).Settled :=
  ⟨List.forall_mem_singleton.2 (.inl rfl), by decide, by decide⟩

/-! ## What is accepted is settled -/

theorem expandUser_normal {homes : Homes} {path expanded : Text}
    (h : expandUser homes path = .ok expanded) : FilePath.normal expanded = expanded := by
  unfold expandUser at h
  split at h
  · rename_i user rest habsolute hcomponents
    obtain ⟨home, -, h⟩ := bind_eq_ok.1 h
    obtain ⟨directory, -, rfl⟩ := map_eq_ok.1 h
    refine FilePath.normal_spell fun part hpart => ?_
    rcases List.mem_append.1 hpart with hpart | hpart
    · exact FilePath.isPart_of_mem hpart
    · have hmem : part ∈ FilePath.components path := by
        rw [hcomponents]
        exact List.mem_cons_of_mem _ hpart
      exact FilePath.isPart_of_mem hmem
  · obtain rfl := Except.ok.inj h
    exact FilePath.normal_normal path

theorem settled_of_validate {homes : Homes} {name kept : String}
    (h : validateDestination homes name = .ok kept) :
    ∃ destination : Destination, destination.Settled ∧ kept = destination.name := by
  rw [validateDestination] at h
  split_ifs at h with hstream
  · obtain rfl := Except.ok.inj h
    rcases hstream with rfl | rfl
    · exact ⟨.stderr, .inl rfl, rfl⟩
    · exact ⟨.stdout, .inr (.inl rfl), rfl⟩
  · obtain ⟨path, hpath, h⟩ := bind_eq_ok.1 h
    split_ifs at h with habsolute
    obtain rfl := Except.ok.inj h
    refine ⟨.file (String.ofList path), .inr (.inr ⟨_, rfl, ?_, ?_⟩), rfl⟩
    · rwa [String.toList_ofList]
    · rw [String.toList_ofList]
      exact expandUser_normal hpath

section Accepted

variable {validator : Validator} (h : validator.Lawful) {homes : Homes} {value : Value}
  {dumped : Dumped}

include h

theorem level_of_check (hvalue : validator.level value = .ok dumped) :
    ∃ level : Level, dumped = .ok (.text level.name) := by
  obtain ⟨name, hname, rfl⟩ := h.choice_ok hvalue
  obtain ⟨level, -, rfl⟩ := List.mem_map.1 hname
  exact ⟨level, rfl⟩

theorem level?_of_check (hvalue : validator.nullable validator.level value = .ok dumped) :
    ∃ level : Option Level, dumped = .ok (Level.toValue? level) := by
  by_cases hnull : value = .null
  · rw [hnull, h.nullable_null] at hvalue
    exact ⟨none, (Except.ok.inj hvalue).symm⟩
  · rw [h.nullable_value hnull] at hvalue
    obtain ⟨level, rfl⟩ := level_of_check h hvalue
    exact ⟨some level, rfl⟩

theorem format_of_check (hvalue : validator.choice ["json", "console"] value = .ok dumped) :
    ∃ format : LogFormat, dumped = .ok (.text format.name) := by
  obtain ⟨name, hname, rfl⟩ := h.choice_ok hvalue
  rcases List.mem_pair.1 hname with rfl | rfl
  · exact ⟨.json, rfl⟩
  · exact ⟨.console, rfl⟩

theorem destination_of_check
    (hvalue : validator.text (validateDestination homes) value = .ok dumped) :
    ∃ destination : Destination, destination.Settled ∧ dumped = .ok (.text destination.name) := by
  obtain ⟨name, kept, -, hkept, rfl⟩ := h.text_ok.1 hvalue
  obtain ⟨destination, hsettled, rfl⟩ := settled_of_validate hkept
  exact ⟨destination, hsettled, rfl⟩

theorem indent_of_check (hvalue : validator.int validateIndent value = .ok dumped) :
    ∃ n : Nat, (1 ≤ n ∧ n ≤ 16) ∧ dumped = .ok (.nat n) := by
  obtain ⟨n, m, -, hm, rfl⟩ := h.int_ok.1 hvalue
  rw [validateIndent] at hm
  split_ifs at hm with hrange
  obtain rfl := Except.ok.inj hm
  obtain ⟨k, rfl⟩ := Int.eq_ofNat_of_zero_le (show 0 ≤ n by omega)
  exact ⟨k, by omega, rfl⟩

variable (hmade : validator.Made homes)

include hmade

theorem settled_of_output (hvalue : validator.output homes value = .ok dumped) :
    ∃ output : LogOutput, output.destination.Settled ∧ dumped = .ok output.toValue := by
  obtain ⟨entries, dumps, hfields, rfl⟩ := h.fields_of_model hmade.output hvalue
  simp only [Validator.outputFields, List.map_cons, List.map_nil, cons_eq_map_ok,
    nil_eq_map_ok] at hfields
  obtain ⟨x, -, rfl, hx, y, -, rfl, hy, z, -, rfl, hz, rfl⟩ := hfields
  have hformat : ∃ format : LogFormat, x = .ok (.text format.name) := by
    rcases outcome_cases hx with rfl | ⟨value, hvalue⟩
    · exact ⟨.console, rfl⟩
    · exact format_of_check h hvalue
  have hdestination : ∃ destination : Destination,
      destination.Settled ∧ y = .ok (.text destination.name) := by
    rcases outcome_cases hy with rfl | ⟨value, hvalue⟩
    · exact ⟨.stderr, .inl rfl, rfl⟩
    · exact destination_of_check h hvalue
  have hlevel : ∃ level : Option Level, z = .ok (Level.toValue? level) := by
    rcases outcome_cases hz with rfl | ⟨value, hvalue⟩
    · exact ⟨none, rfl⟩
    · exact level?_of_check h hvalue
  obtain ⟨format, rfl⟩ := hformat
  obtain ⟨destination, hsettled, rfl⟩ := hdestination
  obtain ⟨level, rfl⟩ := hlevel
  exact ⟨{ format, destination, level }, hsettled, rfl⟩

theorem settled_of_outputs {items : List Value} {dumps : List Dumped}
    (hitems : items.map (validator.output homes) = dumps.map .ok) :
    ∃ outputs : List LogOutput, (∀ output ∈ outputs, output.destination.Settled)
      ∧ dumps = outputs.map fun output => .ok output.toValue := by
  induction items generalizing dumps with
  | nil =>
    obtain rfl := nil_eq_map_ok.1 hitems
    exact ⟨[], List.forall_mem_nil _, rfl⟩
  | cons item rest ih =>
    obtain ⟨dump, more, rfl, hitem, hrest⟩ := cons_eq_map_ok.1 hitems
    obtain ⟨output, hsettled, rfl⟩ := settled_of_output h hmade hitem
    obtain ⟨outputs, houtputs, rfl⟩ := ih hrest
    exact ⟨output :: outputs, List.forall_mem_cons.2 ⟨hsettled, houtputs⟩, rfl⟩

theorem settled_of_logging (hvalue : validator.logging homes value = .ok dumped) :
    ∃ logging : Logging, logging.Settled ∧ dumped = .ok logging.toValue := by
  obtain ⟨entries, dumps, hfields, rfl⟩ := h.fields_of_model hmade.logging hvalue
  simp only [Validator.loggingFields, List.map_cons, List.map_nil, cons_eq_map_ok,
    nil_eq_map_ok] at hfields
  obtain ⟨x, -, rfl, hx, y, -, rfl, hy, rfl⟩ := hfields
  have hlevel : ∃ level : Level, x = .ok (.text level.name) := by
    rcases outcome_cases hx with rfl | ⟨value, hvalue⟩
    · exact ⟨.info, rfl⟩
    · exact level_of_check h hvalue
  have houtputs : ∃ outputs : List LogOutput, (∀ output ∈ outputs, output.destination.Settled)
      ∧ y = .ok (.list (outputs.map LogOutput.toValue)) := by
    rcases outcome_cases hy with rfl | ⟨value, hvalue⟩
    · exact ⟨[{}], List.forall_mem_singleton.2 (.inl rfl), rfl⟩
    · obtain ⟨items, dumps, -, hitems, rfl⟩ := h.list_ok.1 hvalue
      obtain ⟨outputs, hsettled, rfl⟩ := settled_of_outputs h hmade hitems
      refine ⟨outputs, hsettled, ?_⟩
      have hall := all_map_ok (outputs.map LogOutput.toValue)
      rw [List.map_map] at hall
      exact congrArg (Except.map Value.list) hall
  obtain ⟨level, rfl⟩ := hlevel
  obtain ⟨outputs, hsettled, rfl⟩ := houtputs
  exact ⟨{ level, outputs }, hsettled, rfl⟩

theorem settled_of_formatting (hvalue : validator.formatting value = .ok dumped) :
    ∃ formatting : Formatting, formatting.Settled ∧ dumped = .ok formatting.toValue := by
  obtain ⟨entries, dumps, hfields, rfl⟩ := h.fields_of_model hmade.formatting hvalue
  simp only [Validator.formattingFields, List.map_cons, List.map_nil, cons_eq_map_ok,
    nil_eq_map_ok] at hfields
  obtain ⟨x, -, rfl, hx, y, -, rfl, hy, rfl⟩ := hfields
  have hindent : ∃ n : Nat, (1 ≤ n ∧ n ≤ 16) ∧ x = .ok (.nat n) := by
    rcases outcome_cases hx with rfl | ⟨value, hvalue⟩
    · exact ⟨4, by decide, rfl⟩
    · exact indent_of_check h hvalue
  have hhtml : ∃ n : Nat, (1 ≤ n ∧ n ≤ 16) ∧ y = .ok (.nat n) := by
    rcases outcome_cases hy with rfl | ⟨value, hvalue⟩
    · exact ⟨2, by decide, rfl⟩
    · exact indent_of_check h hvalue
  obtain ⟨indent, hindent, rfl⟩ := hindent
  obtain ⟨htmlIndent, hhtml, rfl⟩ := hhtml
  exact ⟨{ indentSize := indent, htmlIndentSize := htmlIndent }, ⟨hindent, hhtml⟩, rfl⟩

theorem settled_of_sections {entries : Entries} {dumps : List Dumped}
    (hfields : (validator.sectionFields homes).map (·.outcome entries) = dumps.map .ok) :
    ∃ config : Config, config.Settled
      ∧ Field.record (validator.sectionFields homes) dumps = .ok config.toValue := by
  simp only [Validator.sectionFields, List.map_cons, List.map_nil, cons_eq_map_ok,
    nil_eq_map_ok] at hfields
  obtain ⟨x, -, rfl, hx, y, -, rfl, hy, rfl⟩ := hfields
  have hlogging : ∃ logging : Logging, logging.Settled ∧ x = .ok logging.toValue := by
    rcases outcome_cases hx with rfl | ⟨value, hvalue⟩
    · exact ⟨{}, settled_default.logging, rfl⟩
    · exact settled_of_logging h hmade hvalue
  have hformatting : ∃ formatting : Formatting,
      formatting.Settled ∧ y = .ok formatting.toValue := by
    rcases outcome_cases hy with rfl | ⟨value, hvalue⟩
    · exact ⟨{}, settled_default.formatting, rfl⟩
    · exact settled_of_formatting h hmade hvalue
  obtain ⟨logging, hlogging, rfl⟩ := hlogging
  obtain ⟨formatting, hformatting, rfl⟩ := hformatting
  exact ⟨{ logging, formatting }, ⟨hlogging, hformatting⟩, rfl⟩

theorem settled_of_config (hvalue : validator.config homes value = .ok dumped) :
    ∃ config : Config, config.Settled ∧ dumped = .ok config.toValue := by
  obtain ⟨entries, dumps, hfields, rfl⟩ := h.fields_of_model hmade.config hvalue
  exact settled_of_sections h hmade hfields

theorem settled_of_settings {entries : Entries}
    (hentries : validator.settings (validator.sectionFields homes) entries = .ok dumped) :
    ∃ config : Config, config.Settled ∧ dumped = .ok config.toValue := by
  obtain ⟨-, dumps, hfields, rfl⟩ := h.settings_ok.1 hentries
  exact settled_of_sections h hmade hfields

end Accepted

/-! ## What is settled is accepted -/

theorem validateDestination_name {homes : Homes} {destination : Destination}
    (hsettled : destination.Settled) :
    validateDestination homes destination.name = .ok destination.name := by
  rcases hsettled with rfl | rfl | ⟨path, rfl, habsolute, hnormal⟩
  · rfl
  · rfl
  · have hexpand : expandUser homes path.toList = .ok path.toList := by
      unfold expandUser
      rw [habsolute]
      exact congrArg Except.ok hnormal
    show validateDestination homes path = .ok path
    rw [validateDestination, hexpand]
    split_ifs
    · rfl
    · show (if FilePath.isAbsolute path.toList then Except.ok (String.ofList path.toList) else _) = _
      rw [if_pos habsolute, String.ofList_toList]

theorem validateIndent_nat {n : Nat} (h : 1 ≤ n ∧ n ≤ 16) : validateIndent n = .ok (n : Int) := by
  rw [validateIndent, if_pos (by omega)]

section Stable

variable {validator : Validator} (h : validator.Lawful) {homes : Homes}

include h

theorem level_name (level : Level) :
    validator.level (.text level.name) = .ok (.ok (.text level.name)) := by
  have hlevel : level ∈ Level.all := by cases level <;> decide
  exact h.choice_name (List.mem_map_of_mem hlevel)

theorem level_toValue? (level : Option Level) :
    validator.nullable validator.level (Level.toValue? level)
      = .ok (.ok (Level.toValue? level)) := by
  cases level with
  | none => exact h.nullable_null _
  | some level =>
    have hvalue : Level.toValue? (some level) ≠ .null := nofun
    exact (h.nullable_value hvalue).trans (level_name h level)

theorem indent_nat {n : Nat} (hn : 1 ≤ n ∧ n ≤ 16) :
    validator.int validateIndent (.nat n) = .ok (.ok (.nat n)) :=
  h.int_ok.2 ⟨n, n, h.intOf_int n, validateIndent_nat hn, rfl⟩

theorem output_toValue {output : LogOutput} (hsettled : output.destination.Settled) :
    validator.output homes output.toValue = .ok (.ok output.toValue) := by
  have hformat : validator.choice ["json", "console"] (.text output.format.name)
      = .ok (.ok (.text output.format.name)) :=
    h.choice_name (by cases output.format <;> decide)
  have hdestination : validator.text (validateDestination homes) (.text output.destination.name)
      = .ok (.ok (.text output.destination.name)) :=
    h.text_ok.2 ⟨_, _, h.textOf_text _, validateDestination_name hsettled, rfl⟩
  have hlevel := level_toValue? h output.level
  have hfields : (validator.outputFields homes).map (·.outcome output.toValue.entries)
      = [.ok (.ok _), .ok (.ok _), .ok (.ok _)] :=
    congrArg₂ List.cons hformat
      (congrArg₂ List.cons hdestination (congrArg₂ List.cons hlevel rfl))
  exact h.model_map [_, _, _] hfields

theorem outputs_toValue {outputs : List LogOutput}
    (hsettled : ∀ output ∈ outputs, output.destination.Settled) :
    validator.list (validator.output homes) (.list (outputs.map LogOutput.toValue))
      = .ok (.ok (.list (outputs.map LogOutput.toValue))) := by
  have hitems : (outputs.map LogOutput.toValue).map (validator.output homes)
      = ((outputs.map LogOutput.toValue).map Except.ok).map Except.ok := by
    rw [List.map_map, List.map_map, List.map_map]
    exact List.map_congr_left fun output houtput => output_toValue h (hsettled output houtput)
  have hall : .ok (.list (outputs.map LogOutput.toValue))
      = (Dumped.all ((outputs.map LogOutput.toValue).map .ok)).map Value.list := by
    rw [all_map_ok]
    rfl
  exact h.list_ok.2 ⟨_, _, h.itemsOf_list _, hitems, hall⟩

theorem logging_toValue {logging : Logging} (hsettled : logging.Settled) :
    validator.logging homes logging.toValue = .ok (.ok logging.toValue) := by
  have hfields : (validator.loggingFields homes).map (·.outcome logging.toValue.entries)
      = [.ok (.ok _), .ok (.ok _)] :=
    congrArg₂ List.cons (level_name h logging.level)
      (congrArg₂ List.cons (outputs_toValue h hsettled) rfl)
  exact h.model_map [_, _] hfields

theorem formatting_toValue {formatting : Formatting} (hsettled : formatting.Settled) :
    validator.formatting formatting.toValue = .ok (.ok formatting.toValue) := by
  have hfields : validator.formattingFields.map (·.outcome formatting.toValue.entries)
      = [.ok (.ok _), .ok (.ok _)] :=
    congrArg₂ List.cons (indent_nat h hsettled.indent)
      (congrArg₂ List.cons (indent_nat h hsettled.htmlIndent) rfl)
  exact h.model_map [_, _] hfields

/-- Settled settings are accepted as they are dumped. -/
theorem config_toValue {config : Config} (hsettled : config.Settled) :
    validator.config homes config.toValue = .ok (.ok config.toValue) := by
  have hfields : (validator.sectionFields homes).map (·.outcome config.toValue.entries)
      = [.ok (.ok _), .ok (.ok _)] :=
    congrArg₂ List.cons (logging_toValue h hsettled.logging)
      (congrArg₂ List.cons (formatting_toValue h hsettled.formatting) rfl)
  exact h.model_map [_, _] hfields

end Stable

end SourceLens.Settings
