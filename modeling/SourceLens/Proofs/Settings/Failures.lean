import SourceLens.Proofs.Builtin.Lawful
import SourceLens.Proofs.Settings.Given

/-!
# Failures that are reported

Loading is to end with settings or with a fault of the settings. What ends it with another error is
said of the sources alone (`Sources.Escapes`): the system raises an error, or a package does; a
source has a key that is no text; the log goes to a path below a home directory that is not known; a
value breaks a rule and cannot be shown; or an instance among the settings has no dump or one that
breaks a rule. Everything else is reported (`reported_iff`).

Stage by stage, the inputs that make the stage fail with another error are described once
(`foreign_readFile`, `foreign_projectFile`, `foreign_given`, `foreign_resolve`); a run fails with
another error where the first stage that fails does.
-/

namespace SourceLens.Settings

open Builtin (plain lawful_plain)

/-! ## Results -/

/-- What loading is to end with: settings, or a fault with one of the codes for settings. -/
def Reported (result : Except LoadError Value) : Prop :=
  (∃ value, result = .ok value)
    ∨ ∃ cause, result = .error (.config cause)
      ∧ cause.fault.code ∈ [FaultCode.configParse, .configInvalidValue, .configFileNotFound]

def Foreign {α : Type} (result : Except LoadError α) : Prop :=
  ∃ error, result = .error error ∧ ∀ cause, error ≠ .config cause

section Results

variable {α β : Type}

theorem not_foreign_ok (x : α) : ¬Foreign (.ok x : Except LoadError α) := by
  rintro ⟨error, h, -⟩
  cases h

theorem foreign_error {error : LoadError} :
    Foreign (.error error : Except LoadError α) ↔ ∀ cause, error ≠ .config cause := by
  constructor
  · rintro ⟨found, h, hfound⟩
    obtain rfl := Except.error.inj h
    exact hfound
  · exact fun h => ⟨error, rfl, h⟩

theorem foreign_bind {result : Except LoadError α} {f : α → Except LoadError β} :
    Foreign (result.bind f) ↔ Foreign result ∨ ∃ x, result = .ok x ∧ Foreign (f x) := by
  cases result with
  | error error =>
    show Foreign (.error error) ↔ _
    simp [foreign_error]
  | ok x =>
    show Foreign (f x) ↔ _
    simp [not_foreign_ok]

theorem foreign_raised {result : Except Raised α} :
    Foreign (result.mapError LoadError.raised) ↔ ∃ cause, result = .error cause := by
  cases result <;> simp [Except.mapError, foreign_error, not_foreign_ok]

theorem code_of_cause (cause : ConfigCause) :
    cause.fault.code ∈ [FaultCode.configParse, .configInvalidValue, .configFileNotFound] := by
  cases cause <;> simp [ConfigCause.fault]

theorem reported_iff_not_foreign (result : Except LoadError Value) :
    Reported result ↔ ¬Foreign result := by
  cases result with
  | ok value => exact iff_of_true (.inl ⟨value, rfl⟩) (not_foreign_ok value)
  | error error =>
    rw [foreign_error]
    push Not
    constructor
    · rintro (⟨value, h⟩ | ⟨cause, h, -⟩)
      · cases h
      · exact ⟨cause, Except.error.inj h⟩
    · rintro ⟨cause, rfl⟩
      exact .inr ⟨cause, rfl, code_of_cause cause⟩

end Results

/-! ## Files -/

/-- A file that cannot be read, other than by breaking the rules of its format. -/
inductive Unreadable (packages : Packages) (system : System) (path : Text) : Prop
  | status {cause : Raised} (h : system.status path = .error cause)
  | content {status : Status} {cause : Raised} (hstatus : system.status path = .ok status)
      (hthere : status ≠ .absent) (h : system.content path = .error cause)
  | document {status : Status} {bytes : Bytes} {cause : Raised}
      (hstatus : system.status path = .ok status) (hthere : status ≠ .absent)
      (hbytes : system.content path = .ok bytes)
      (h : packages.documents bytes = .error (.raised cause))

theorem not_foreign_topEntries (path : Text) (value : Value) : ¬Foreign (topEntries path value) := by
  unfold topEntries
  split_ifs
  · exact not_foreign_ok _
  · split
    · exact not_foreign_ok _
    · simp [foreign_error]

theorem foreign_document {packages : Packages} {path : Text} {bytes : Bytes} :
    Foreign (((packages.documents bytes).mapError (.ofDocument path)).bind (topEntries path))
      ↔ ∃ cause, packages.documents bytes = .error (.raised cause) := by
  rw [foreign_bind, or_iff_left fun ⟨_, _, h⟩ => not_foreign_topEntries _ _ h]
  rcases packages.documents bytes with (_ | _) | _ <;>
    simp [Except.mapError, LoadError.ofDocument, foreign_error, not_foreign_ok]

theorem foreign_readFile {packages : Packages} {system : System} {path : Text} :
    Foreign (readFile packages system path) ↔ Unreadable packages system path := by
  rw [readFile_eq, foreign_bind, foreign_raised]
  constructor
  · rintro (⟨cause, h⟩ | ⟨status, hstatus, h⟩)
    · exact .status h
    · split_ifs at h with habsent
      · exact absurd h (not_foreign_ok _)
      · rw [foreign_bind, foreign_raised] at h
        obtain ⟨cause, h⟩ | ⟨bytes, hbytes, h⟩ := h
        · exact .content (mapError_eq_ok.1 hstatus) habsent h
        · obtain ⟨cause, h⟩ := foreign_document.1 h
          exact .document (mapError_eq_ok.1 hstatus) habsent (mapError_eq_ok.1 hbytes) h
  · intro h
    cases h with
    | status h => exact .inl ⟨_, h⟩
    | content hstatus hthere h =>
      refine .inr ⟨_, mapError_eq_ok.2 hstatus, ?_⟩
      rw [if_neg hthere, foreign_bind, foreign_raised]
      exact .inl ⟨_, h⟩
    | document hstatus hthere hbytes h =>
      refine .inr ⟨_, mapError_eq_ok.2 hstatus, ?_⟩
      rw [if_neg hthere, foreign_bind]
      exact .inr ⟨_, mapError_eq_ok.2 hbytes, foreign_document.2 ⟨_, h⟩⟩

/-- The system does not tell where the file of the project is. -/
inductive Sources.Unplaced (sources : Sources) : Prop
  | directory {cause : Raised} (hroot : sources.root = none)
      (h : sources.system.directory = .error cause)
  | home {path : Text} {cause : Raised} (hfile : sources.configFile = some path)
      (h : expandUser sources.system.homes path = .error cause)
  | status {path expanded : Text} {cause : Raised} (hfile : sources.configFile = some path)
      (hpath : expandUser sources.system.homes path = .ok expanded)
      (h : sources.system.status expanded = .error cause)

theorem foreign_directory {sources : Sources} :
    Foreign sources.directory
      ↔ sources.root = none ∧ ∃ cause, sources.system.directory = .error cause := by
  rw [Sources.directory]
  cases sources.root with
  | none => simp [foreign_raised]
  | some root => simp [not_foreign_ok]

theorem foreign_namedFile {system : System} {path : Text} :
    Foreign (namedFile system path) ↔ (∃ cause, expandUser system.homes path = .error cause)
      ∨ ∃ expanded cause, expandUser system.homes path = .ok expanded
        ∧ system.status expanded = .error cause := by
  have hlast (status : Status) (path : Text) :
      ¬Foreign (if status = .file then .ok path
        else .error (.config (.missingFile (String.ofList path))) : Except LoadError Text) := by
    split_ifs
    · exact not_foreign_ok _
    · simp [foreign_error]
  show Foreign (Except.bind _ fun path => Except.bind _ fun status =>
    if status = Status.file then Except.ok path else Except.error _) ↔ _
  simp [foreign_bind, foreign_raised, mapError_eq_ok, hlast]

theorem foreign_projectFile {sources : Sources} :
    Foreign (projectFile sources) ↔ sources.Unplaced := by
  show Foreign (Except.bind _ _) ↔ _
  rw [foreign_bind, foreign_directory]
  constructor
  · rintro (⟨hroot, cause, h⟩ | ⟨root, -, h⟩)
    · exact .directory hroot h
    · cases hfile : sources.configFile with
      | none =>
        rw [hfile] at h
        exact absurd h (not_foreign_ok _)
      | some path =>
        rw [hfile] at h
        obtain ⟨cause, h⟩ | ⟨expanded, cause, hpath, h⟩ := foreign_namedFile.1 h
        · exact .home hfile h
        · exact .status hfile hpath h
  · -- Without a working directory it fails as well, and before the file is asked for.
    cases hdirectory : sources.directory with
    | error error =>
      refine fun _ => .inl (foreign_directory.1 ?_)
      rw [hdirectory, foreign_error]
      rintro cause rfl
      rw [Sources.directory] at hdirectory
      split at hdirectory
      · cases hdirectory
      · cases hsystem : sources.system.directory <;> rw [hsystem] at hdirectory <;>
          cases hdirectory
    | ok root =>
      intro h
      cases h with
      | directory hroot h => exact .inl ⟨hroot, _, h⟩
      | home hfile h =>
        refine .inr ⟨root, rfl, ?_⟩
        rw [hfile]
        exact foreign_namedFile.2 (.inl ⟨_, h⟩)
      | status hfile hpath h =>
        refine .inr ⟨root, rfl, ?_⟩
        rw [hfile]
        exact foreign_namedFile.2 (.inr ⟨_, _, hpath, h⟩)

/-! ## What each source gives -/

/-- A source that cannot be read and is not reported. -/
inductive Sources.Unread (sources : Sources) (packages : Packages) : Source → Prop
  | globalFile (h : Unreadable packages sources.system sources.globalPath) :
      sources.Unread packages .globalFile
  | projectFile {path : Text} (hpath : projectFile sources = .ok path)
      (h : Unreadable packages sources.system path) : sources.Unread packages .projectFile
  | overrides {cause : Raised}
      (h : packages.overrides declared sources.overrides = .error cause) :
      sources.Unread packages .overrides
  | environment {cause : Raised}
      (h : packages.environment declared sources.overrides sources.vars = .error cause) :
      sources.Unread packages .environment

theorem foreign_given {packages : Packages} {sources : Sources} {path : Text}
    (hpath : projectFile sources = .ok path) {source : Source} :
    Foreign (sources.given packages source) ↔ sources.Unread packages source := by
  cases source with
  | globalFile =>
    rw [Sources.given, foreign_readFile]
    constructor
    · exact .globalFile
    · rintro (h | _)
      exact h
  | projectFile =>
    rw [Sources.given, hpath]
    show Foreign (readFile _ _ _) ↔ _
    rw [foreign_readFile]
    constructor
    · exact .projectFile hpath
    · rintro (_ | ⟨hfound, h⟩)
      rw [hpath] at hfound
      exact Except.ok.inj hfound ▸ h
  | overrides =>
    rw [Sources.given, foreign_raised]
    constructor
    · rintro ⟨cause, h⟩
      exact .overrides h
    · rintro (_ | _ | h)
      exact ⟨_, h⟩
  | environment =>
    rw [Sources.given, foreign_raised]
    constructor
    · rintro ⟨cause, h⟩
      exact .environment h
    · rintro (_ | _ | _ | h)
      exact ⟨_, h⟩

theorem foreign_mergeAll {packages : Packages} {sources : Sources} {path : Text}
    (hpath : projectFile sources = .ok path) :
    Foreign (mergeAll (sources.given packages)) ↔ ∃ source, sources.Unread packages source
      ∧ ∀ other, other.turn < source.turn → ∃ entries, sources.given packages other = .ok entries := by
  constructor
  · rintro ⟨error, herror, hforeign⟩
    obtain ⟨source, hfails, hearlier⟩ := mergeAll_eq_error.1 herror
    exact ⟨source, (foreign_given hpath).1 ⟨error, hfails, hforeign⟩, hearlier⟩
  · rintro ⟨source, hunread, hearlier⟩
    obtain ⟨error, hfails, hforeign⟩ := (foreign_given hpath).2 hunread
    exact ⟨error, mergeAll_eq_error.2 ⟨source, hfails, hearlier⟩, hforeign⟩

/-! ## Validation -/

/-- Entries that send the log to a path below a home directory that is not known. -/
inductive LosesHome (validator : Validator) (homes : Homes) (entries : Entries) : Prop
  | intro {log outputs item destination : Value} {logEntries outputEntries : Entries}
      {items : List Value} {name kind message : String}
      (hlog : entries.field? "logging" = some log)
      (hlogMade : validator.instanceOf "LoggingConfig" log = none)
      (hlogEntries : validator.entriesOf log = some logEntries)
      (houtputs : logEntries.field? "outputs" = some outputs)
      (hitems : validator.itemsOf outputs = some items) (hitem : item ∈ items)
      (hitemMade : validator.instanceOf "LogOutputConfig" item = none)
      (houtputEntries : validator.entriesOf item = some outputEntries)
      (hdestination : outputEntries.field? "destination" = some destination)
      (hname : validator.textOf destination = some name)
      (h : expandUser homes name.toList = .error (.other kind message))

section Validation

variable {validator : Validator} (h : validator.Lawful) {homes : Homes}

theorem raises_outcome {field : Field} {entries : Entries} :
    Raises (field.outcome entries)
      ↔ ∃ value, entries.field? field.name = some value ∧ Raises (field.check value) := by
  rw [Field.outcome]
  cases entries.field? field.name with
  | none => simp [Raises]
  | some value => simp

theorem raises_validateDestination {name kind message : String} :
    validateDestination homes name = .error (.other kind message)
      ↔ expandUser homes name.toList = .error (.other kind message) := by
  rw [validateDestination]
  split_ifs with hstream
  · have hhome : expandUser homes name.toList = .ok name.toList := by
      rcases hstream with rfl | rfl <;> rfl
    rw [hhome]
    simp
  · cases expandUser homes name.toList with
    | error cause => simp [Except.bind]
    | ok path =>
      simp only [Except.bind]
      split_ifs <;> simp

theorem not_raises_validateIndent (size : Int) (kind message : String) :
    validateIndent size ≠ .error (.other kind message) := by
  rw [validateIndent]
  split_ifs <;> simp

include h

theorem not_raises_level (value : Value) : ¬Raises (validator.level value) :=
  h.choice_raises _ value

theorem not_raises_level? (value : Value) : ¬Raises (validator.nullable validator.level value) := by
  by_cases hnull : value = .null
  · rw [hnull, h.nullable_null]
    simp [Raises]
  · rw [h.nullable_value hnull]
    exact not_raises_level h value

theorem not_raises_formatting_fields {field : Field} (hfield : field ∈ validator.formattingFields)
    (value : Value) : ¬Raises (field.check value) := by
  rcases List.mem_pair.1 hfield with rfl | rfl
  all_goals
    rintro hraises
    obtain ⟨n, kind, message, -, hown⟩ := h.int_raises.1 hraises
    exact not_raises_validateIndent n kind message hown

theorem raises_model {name : String} {fields : List Field} {value : Value} :
    Raises (validator.model name fields value)
      ↔ validator.instanceOf name value = none ∧ ∃ entries, validator.entriesOf value = some entries
        ∧ ∃ field ∈ fields, Raises (field.outcome entries) := by
  cases hinstance : validator.instanceOf name value with
  | none => simp [h.model_raises hinstance]
  | some dumped =>
    rw [h.model_instance hinstance]
    simp [Raises]

theorem raises_output {value : Value} :
    Raises (validator.output homes value)
      ↔ validator.instanceOf "LogOutputConfig" value = none
        ∧ ∃ entries destination name kind message, validator.entriesOf value = some entries
          ∧ entries.field? "destination" = some destination
          ∧ validator.textOf destination = some name
          ∧ expandUser homes name.toList = .error (.other kind message) := by
  rw [Validator.output, raises_model h]
  simp only [Validator.outputFields, List.exists_mem_cons_iff, raises_outcome, h.text_raises,
    raises_validateDestination]
  simp [h.choice_raises, not_raises_level? h]

theorem raises_formatting (value : Value) : ¬Raises (validator.formatting value) := by
  rw [Validator.formatting, raises_model h]
  rintro ⟨-, entries, -, field, hfield, hraises⟩
  obtain ⟨found, -, hraises⟩ := raises_outcome.1 hraises
  exact not_raises_formatting_fields h hfield found hraises

theorem raises_sections {entries : Entries} :
    (∃ field ∈ validator.sectionFields homes, Raises (field.outcome entries))
      ↔ LosesHome validator homes entries := by
  simp only [Validator.sectionFields, List.exists_mem_cons_iff, raises_outcome,
    raises_formatting h, Validator.logging, raises_model h, Validator.loggingFields,
    not_raises_level h, h.list_raises, raises_output h]
  constructor
  · simp only [List.not_mem_nil, false_and, exists_false, or_false, and_false, false_or]
    rintro ⟨log, hlog, hlogMade, logEntries, hlogEntries, outputs, houtputs, items, hitems, item,
      hitem, hitemMade, outputEntries, destination, name, kind, message, houtputEntries,
      hdestination, hname, hhome⟩
    exact ⟨hlog, hlogMade, hlogEntries, houtputs, hitems, hitem, hitemMade, houtputEntries,
      hdestination, hname, hhome⟩
  · rintro ⟨hlog, hlogMade, hlogEntries, houtputs, hitems, hitem, hitemMade, houtputEntries,
      hdestination, hname, hhome⟩
    exact .inl ⟨_, hlog, hlogMade, _, hlogEntries, .inr (.inl ⟨_, houtputs, _, hitems, _, hitem,
      hitemMade, _, _, _, _, _, houtputEntries, hdestination, hname, hhome⟩)⟩

end Validation

/-- Entries of which the first violation is of a value that cannot be shown. -/
def HidesViolation (validator : Validator) (homes : Homes) (entries : Entries) : Prop :=
  ∃ first rest, validator.settings (validator.sectionFields homes) entries
    = .error (.invalid first rest) ∧ first.input.isShown = false

/-- Entries that are accepted, and of which no dump can be made. -/
def Undumped (validator : Validator) (homes : Homes) (entries : Entries) : Prop :=
  ∃ cause, validator.settings (validator.sectionFields homes) entries = .ok (.error cause)

/-- Entries that are accepted, and of which the dump is not. -/
def Stale (validator : Validator) (homes : Homes) (entries : Entries) : Prop :=
  ∃ value, validator.settings (validator.sectionFields homes) entries = .ok (.ok value)
    ∧ ∀ out, validator.config homes value ≠ .ok (.ok out)

section Validation

variable {validator : Validator} (h : validator.Lawful) {homes : Homes} {entries : Entries}

include h

theorem foreign_resolve :
    Foreign (resolve validator homes entries)
      ↔ (∃ entry ∈ entries, validator.isName entry.1 = false) ∨ LosesHome validator homes entries
        ∨ HidesViolation validator homes entries ∨ Undumped validator homes entries := by
  rw [← or_assoc, ← raises_sections h, ← h.settings_raises]
  show Foreign (Except.bind _ fun dumped : Dumped => dumped.mapError .raised) ↔ _
  rw [HidesViolation, Undumped]
  rcases validator.settings (validator.sectionFields homes) entries with
    (⟨first, rest⟩ | cause) | (cause | value)
  · cases hshown : first.input.isShown <;>
      simp [Except.mapError, Except.bind, LoadError.ofFailure, hshown, foreign_error, Raises]
  · simp [Except.mapError, Except.bind, LoadError.ofFailure, foreign_error, Raises]
  · simp [Except.mapError, Except.bind, foreign_error, Raises]
  · simp [Except.mapError, Except.bind, not_foreign_ok, Raises]

theorem notName_iff {entries : Entries} :
    (∃ entry ∈ entries, validator.isName entry.1 = false)
      ↔ ∃ id ∈ entries.map (·.1.identity), ∃ key : Scalar, key.identity = id
        ∧ validator.isName key = false := by
  constructor
  · rintro ⟨entry, hentry, hname⟩
    exact ⟨_, List.mem_map.2 ⟨entry, hentry, rfl⟩, entry.1, rfl, hname⟩
  · rintro ⟨id, hid, key, hkey, hname⟩
    obtain ⟨entry, hentry, rfl⟩ := List.mem_map.1 hid
    exact ⟨entry, hentry, h.isName_congr hkey.symm ▸ hname⟩

theorem notName_stack {layer : Source → Entries} :
    (∃ entry ∈ stack layer, validator.isName entry.1 = false)
      ↔ ∃ source, ∃ entry ∈ layer source, validator.isName entry.1 = false := by
  simp only [notName_iff h, stack, Entries.mem_identities_merge]
  constructor
  · rintro ⟨id, (hid | hid) | hid | hid, hname⟩
    · exact ⟨.globalFile, id, hid, hname⟩
    · exact ⟨.projectFile, id, hid, hname⟩
    · exact ⟨.environment, id, hid, hname⟩
    · exact ⟨.overrides, id, hid, hname⟩
  · rintro ⟨source, id, hid, hname⟩
    refine ⟨id, ?_, hname⟩
    cases source with
    | globalFile => exact .inl (.inl hid)
    | projectFile => exact .inl (.inr hid)
    | environment => exact .inr (.inl hid)
    | overrides => exact .inr (.inr hid)

omit h in
theorem foreign_confirm {value : Value} :
    Foreign (confirm validator homes value)
      ↔ ∀ out, validator.config homes value ≠ .ok (.ok out) := by
  rw [confirm]
  rcases validator.config homes value with (_ | _) | (_ | _) <;>
    simp [Except.mapError, foreign_error, not_foreign_ok]

end Validation

/-! ## Loading -/

/-- What makes loading end with an error that is no fault of the settings. -/
inductive Sources.Escapes (sources : Sources) (packages : Packages) : Prop
  /-- The system does not tell where the file of the project is. -/
  | unplaced (h : sources.Unplaced)
  /-- A source cannot be read, no earlier one fails, and the file of the project is not missing. -/
  | unread {path : Text} {source : Source} (hpath : projectFile sources = .ok path)
      (h : sources.Unread packages source)
      (hearlier : ∀ other, other.turn < source.turn →
        ∃ entries, sources.given packages other = .ok entries)
  /-- A source gives something under a key that is no text. -/
  | notName {layer : Source → Entries}
      (hlayer : ∀ source, sources.given packages source = .ok (layer source))
      {source : Source} {entry : Scalar × Value} (hentry : entry ∈ layer source)
      (h : packages.validator.isName entry.1 = false)
  /-- The log goes to a path below a home directory that is not known. -/
  | lostHome {layer : Source → Entries}
      (hlayer : ∀ source, sources.given packages source = .ok (layer source))
      (h : LosesHome packages.validator sources.system.homes (stack layer))
  /-- The first value that breaks a rule cannot be shown. -/
  | hidden {layer : Source → Entries}
      (hlayer : ∀ source, sources.given packages source = .ok (layer source))
      (h : HidesViolation packages.validator sources.system.homes (stack layer))
  /-- An instance among the settings has no dump. -/
  | undumped {layer : Source → Entries}
      (hlayer : ∀ source, sources.given packages source = .ok (layer source))
      (h : Undumped packages.validator sources.system.homes (stack layer))
  /-- The settings are accepted, and their dump is not. -/
  | stale {layer : Source → Entries}
      (hlayer : ∀ source, sources.given packages source = .ok (layer source))
      (h : Stale packages.validator sources.system.homes (stack layer))

theorem located_of_given {packages : Packages} {sources : Sources} {layer : Source → Entries}
    (hlayer : ∀ source, sources.given packages source = .ok (layer source)) :
    ∃ path, projectFile sources = .ok path := by
  obtain ⟨path, hpath, -⟩ := bind_eq_ok.1 (hlayer .projectFile)
  exact ⟨path, hpath⟩

theorem resolved_of_given {packages : Packages} (h : packages.Lawful) {sources : Sources}
    {layer : Source → Entries}
    (hlayer : ∀ source, sources.given packages source = .ok (layer source)) :
    resolved packages sources = resolve packages.validator sources.system.homes (stack layer) := by
  obtain ⟨path, hpath⟩ := located_of_given hlayer
  rw [resolved_eq h, hpath, mergeAll_ok hlayer]
  rfl

theorem foreign_resolved {packages : Packages} (h : packages.Lawful) {sources : Sources} :
    Foreign (resolved packages sources) ↔ sources.Unplaced
      ∨ (∃ path, projectFile sources = .ok path ∧ Foreign (mergeAll (sources.given packages)))
      ∨ ∃ layer : Source → Entries, (∀ source, sources.given packages source = .ok (layer source))
        ∧ Foreign (resolve packages.validator sources.system.homes (stack layer)) := by
  rw [resolved_eq h, foreign_bind, foreign_projectFile]
  refine or_congr_right ⟨?_, ?_⟩
  · rintro ⟨path, hpath, hforeign⟩
    obtain hmerge | ⟨entries, hentries, hresolve⟩ := foreign_bind.1 hforeign
    · exact .inl ⟨path, hpath, hmerge⟩
    · obtain ⟨layer, hlayer, rfl⟩ := layers_of_mergeAll hentries
      exact .inr ⟨layer, hlayer, hresolve⟩
  · rintro (⟨path, hpath, hmerge⟩ | ⟨layer, hlayer, hresolve⟩)
    · exact ⟨path, hpath, foreign_bind.2 (.inl hmerge)⟩
    · obtain ⟨path, hpath⟩ := located_of_given hlayer
      exact ⟨path, hpath, foreign_bind.2 (.inr ⟨_, mergeAll_ok hlayer, hresolve⟩)⟩

/-- Instances, the first of which is a section of the settings with a width that was set after
validation. -/
def widened : Builtin.Instances := fun name token =>
  if name = "FormattingConfig" ∧ token = 0 then
    some (.object [("indent_size", .nat 99), ("html_indent_size", .nat 2)])
  else none

/-- An override that is this instance. -/
def staleSources : Sources where
  system := Builtin.system "/work" "/home/someone" []
  globalPath := "/etc/settings.yaml".toList
  overrides := [(.text "formatting",
    .scalar (.other { token := 0, detailed := "formatting", short := "formatting" }))]

/-- An override that sends the log to a path below the home of another user. -/
def otherHomeSources : Sources where
  system := Builtin.system "/work" "/home/someone" []
  globalPath := "/etc/settings.yaml".toList
  overrides := Value.entries <| .object [("logging",
    .object [("outputs", .list [.object [("destination", .text "~nosuchuser_q/x")]])])]

end SourceLens.Settings
